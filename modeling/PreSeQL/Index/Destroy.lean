/-
  PreSeQL.Index.Destroy — which pages `btree_destroy` frees.

  `btree_destroy_frees` is the list of pages `btree_destroy` calls `mark_page_free` with,
  in order.  Both loops of `btree_destroy` start with slot id 0, which no entry has, so on
  a page with slots the first round works on what an uninitialised variable holds.

    • `destroyRight_empty` — the destruction of a tree without slots,
    • `not_destroyRight` — a variable that holds the root itself,
    • `destroy_iff` — trees are destroyed rightly as long as the root has no slots.
-/
import PreSeQL.Index.StoreRun
import PreSeQL.Index.Reach

namespace PreSeQL.Index

open PreSeQL.Lib PreSeQL.Lib.Run PreSeQL.Db
open IndexStatus

/-! ## §1. The pages that are freed. -/

/-- `for_slots`, with the pages freed in each round. -/
def for_slots_frees (page : Nat) (body : Pager → Nat → Option Pager)
    (frees : Pager → Nat → List UInt16) : Nat → Nat → Pager → List UInt16
  | 0, _, _ => []
  | rounds + 1, i, pager =>
      if i < total_slots pager.mem page then
        frees pager i
          ++ match body pager i with
            | none => []
            | some pager => for_slots_frees page body frees rounds (i + 1) pager
      else []

/-- `release_slot` -/
def release_slot_frees (root_page_id : UInt16) (page : Nat) (junk : Junk) (pager : Pager)
    (i : Nat) : List UInt16 :=
  let slot := read_index_slot pager root_page_id (UInt8.ofNat i) (junk [i])
  let overflow := slot.overflow.next_page_id
  let pager := if overflow ≠ 0 then mark_page_free pager overflow else pager
  (if overflow ≠ 0 then [overflow] else [])
    ++ if IS_LEAF pager.mem page then
        match pager_get_page pager slot.next_page_id with
        | none => []
        | some data_page =>
            if pager.mem.load16 (DBPageHeader.ref_counter data_page) - 1 = 0 then
              [slot.next_page_id]
            else []
      else []

/-- `btree_destroy` -/
def btree_destroy_frees (vaccum_page : Mem → Nat → Mem) : Nat → Pager → UInt16 → Junk →
    List UInt16
  | 0, _, _, _ => []
  | fuel + 1, pager, root_page_id, junk =>
      match pager_get_page pager root_page_id with
      | none => []
      | some page =>
          let child pager i :=
            (read_index_slot pager root_page_id (UInt8.ofNat i) (junk [0, i])).next_page_id
          let destroy_child pager i :=
            (btree_destroy vaccum_page fuel pager (child pager i) ((junk.call 1).call i)).map
              Prod.snd
          let child_frees pager i :=
            btree_destroy_frees vaccum_page fuel pager (child pager i) ((junk.call 1).call i)
          (if IS_INTERNAL pager.mem page then
              for_slots_frees page destroy_child child_frees 256 0 pager
            else [])
            ++ match (if IS_INTERNAL pager.mem page then for_slots page destroy_child 256 0 pager
                else some pager) with
              | none => []
              | some pager =>
                  for_slots_frees page (fun pager i =>
                      some (release_slot vaccum_page root_page_id page (junk.call 2) pager i))
                    (release_slot_frees root_page_id page (junk.call 2)) 256 0 pager
                    ++ [root_page_id]

/-! ## §2. The pages of a tree. -/

/-- An index page of the database. -/
def IsIndexPage (pager : Pager) (p : UInt16) : Prop :=
  ∃ page, pager_get_page pager p = some page
    ∧ (pager.mem.load8 (DBPageHeader.flag page) = PAGE_INDEX_LEAF
      ∨ pager.mem.load8 (DBPageHeader.flag page) = PAGE_INDEX_INTERNAL)

/-- An overflow page of the database. -/
def IsOverflowPage (pager : Pager) (p : UInt16) : Prop :=
  ∃ page, pager_get_page pager p = some page
    ∧ pager.mem.load8 (DBPageHeader.flag page) = PAGE_OVERFLOW

/-- The index pages that can be reached from the root, and the overflow pages their
entries refer to. -/
inductive Owned (pager : Pager) (root_page_id : UInt16) : UInt16 → Prop
  | index {p : UInt16} : Reachable pager root_page_id p → IsIndexPage pager p →
      Owned pager root_page_id p
  | overflow {p : UInt16} {page : Nat} {slot : IndexSlotData} : Reachable pager root_page_id p →
      IsIndexPage pager p → pager_get_page pager p = some page →
      slot ∈ page_records pager.mem page → slot.overflow.next_page_id ≠ 0 →
      Owned pager root_page_id slot.overflow.next_page_id

/-- The destruction returns, frees every page of the tree once, and no other index or
overflow page. -/
def DestroyRight (vaccum_page : Mem → Nat → Mem) (pager : Pager) (root_page_id : UInt16)
    (junk : Junk) : Prop :=
  ∃ fuel pager', btree_destroy vaccum_page fuel pager root_page_id junk
      = some (PSQL_STATUS_OK, pager')
    ∧ (∀ p, Owned pager root_page_id p →
        (btree_destroy_frees vaccum_page fuel pager root_page_id junk).count p = 1)
    ∧ ∀ p, ¬ Owned pager root_page_id p → IsIndexPage pager p ∨ IsOverflowPage pager p →
        p ∉ btree_destroy_frees vaccum_page fuel pager root_page_id junk

/-! ## §3. Trees without slots. -/

section

variable {pager : Pager} {root_page_id : UInt16} {page : Nat}

theorem page_records_empty {m : Mem} (htotal : total_slots m page = 0) : page_records m page = [] := by
  rw [page_records, htotal]
  rfl

theorem reachable_empty_iff (hpage : pager_get_page pager root_page_id = some page)
    (htotal : total_slots pager.mem page = 0) (p : UInt16) :
    Reachable pager root_page_id p ↔ p = root_page_id := by
  constructor
  · intro h
    induction h with
    | root => rfl
    | child _ hget _ hslot ih =>
        subst ih
        obtain rfl := Option.some.inj (hpage.symm.trans hget)
        rw [page_records_empty htotal] at hslot
        cases hslot
  · intro h
    subst h
    exact .root

theorem owned_empty_iff (hpage : pager_get_page pager root_page_id = some page)
    (htotal : total_slots pager.mem page = 0) (hindex : IsIndexPage pager root_page_id)
    (p : UInt16) : Owned pager root_page_id p ↔ p = root_page_id := by
  constructor
  · intro h
    cases h with
    | index hreach _ => exact (reachable_empty_iff hpage htotal p).mp hreach
    | overflow hreach _ hget hslot _ =>
        obtain rfl := (reachable_empty_iff hpage htotal _).mp hreach
        obtain rfl := Option.some.inj (hpage.symm.trans hget)
        rw [page_records_empty htotal] at hslot
        cases hslot
  · intro h
    subst h
    exact .index .root hindex

theorem for_slots_empty {body : Pager → Nat → Option Pager} (htotal : total_slots pager.mem page = 0)
    (rounds : Nat) : for_slots page body rounds 0 pager = some pager := by
  cases rounds with
  | zero => rfl
  | succ rounds =>
      rw [for_slots, htotal]
      rfl

theorem for_slots_frees_empty {body : Pager → Nat → Option Pager}
    {frees : Pager → Nat → List UInt16} (htotal : total_slots pager.mem page = 0) (rounds : Nat) :
    for_slots_frees page body frees rounds 0 pager = [] := by
  cases rounds with
  | zero => rfl
  | succ rounds =>
      rw [for_slots_frees, htotal]
      rfl

/-- **A tree without slots** is its root, which is freed. -/
theorem destroyRight_empty (hpage : pager_get_page pager root_page_id = some page)
    (htotal : total_slots pager.mem page = 0) (hindex : IsIndexPage pager root_page_id)
    (vaccum_page : Mem → Nat → Mem) (junk : Junk) :
    DestroyRight vaccum_page pager root_page_id junk := by
  have hfrees : btree_destroy_frees vaccum_page 1 pager root_page_id junk = [root_page_id] := by
    simp only [btree_destroy_frees, hpage, for_slots_frees_empty htotal, for_slots_empty htotal,
      ite_self, List.nil_append]
  refine ⟨1, mark_page_free pager root_page_id, ?_, fun p hp => ?_, fun p hp _ hmem => ?_⟩
  · simp only [btree_destroy, hpage, for_slots_empty htotal, ite_self, Option.bind_some,
      Option.map_some]
  · obtain rfl := (owned_empty_iff hpage htotal hindex p).mp hp
    rw [hfrees, List.count_singleton_self]
  · rw [hfrees, List.mem_singleton] at hmem
    exact hp ((owned_empty_iff hpage htotal hindex p).mpr hmem)

/-! ## §4. Trees with slots. -/

/-- The variables hold the root: as a child, and as an overflow page. -/
def root_slot (root_page_id : UInt16) : IndexSlotData :=
  ⟨Vector.replicate _ 0, root_page_id, 0, ⟨root_page_id, 0⟩⟩

theorem for_slots_first {body : Pager → Nat → Option Pager}
    (htotal : 0 < total_slots pager.mem page) (hbody : body pager 0 = none) (rounds : Nat) :
    for_slots page body (rounds + 1) 0 pager = none := by
  rw [for_slots, if_pos htotal, hbody]
  rfl

theorem for_slots_frees_first (body : Pager → Nat → Option Pager)
    (frees : Pager → Nat → List UInt16) (htotal : 0 < total_slots pager.mem page) (rounds : Nat) :
    ∃ rest, for_slots_frees page body frees (rounds + 1) 0 pager = frees pager 0 ++ rest := by
  rw [for_slots_frees, if_pos htotal]
  exact ⟨_, rfl⟩

/-- An inner root is its own child, and the recursion does not end. -/
theorem btree_destroy_inner (hpage : pager_get_page pager root_page_id = some page)
    (hinner : IS_INTERNAL pager.mem page = true) (htotal : 0 < total_slots pager.mem page)
    (hread : ∀ old, read_index_slot pager root_page_id 0 old = old)
    (vaccum_page : Mem → Nat → Mem) (fuel : Nat) :
    btree_destroy vaccum_page fuel pager root_page_id (fun _ => root_slot root_page_id) = none := by
  induction fuel with
  | zero => rfl
  | succ fuel ih =>
      have hchild : (read_index_slot pager root_page_id (UInt8.ofNat 0)
          (root_slot root_page_id)).next_page_id = root_page_id := by
        rw [show UInt8.ofNat 0 = 0 from rfl, hread]
        rfl
      have hcall : ∀ i, Junk.call (fun _ => root_slot root_page_id) i
          = fun _ => root_slot root_page_id := fun i => rfl
      have hloop : for_slots page (fun pager i =>
          (btree_destroy vaccum_page fuel pager
            (read_index_slot pager root_page_id (UInt8.ofNat i)
              (root_slot root_page_id)).next_page_id fun _ => root_slot root_page_id).map Prod.snd)
          256 0 pager = none :=
        for_slots_first htotal (by simp only [hchild, ih, Option.map_none]) 255
      simp only [btree_destroy, hpage, if_pos hinner, hcall, hloop, Option.bind_none,
        Option.map_none]

/-- Below a leaf the first round frees the root, and the last line frees it again. -/
theorem btree_destroy_leaf (hpage : pager_get_page pager root_page_id = some page)
    (hinner : IS_INTERNAL pager.mem page = false) (htotal : 0 < total_slots pager.mem page)
    (hread : ∀ old, read_index_slot pager root_page_id 0 old = old) (hne : root_page_id ≠ 0)
    (vaccum_page : Mem → Nat → Mem) (fuel : Nat) :
    2 ≤ (btree_destroy_frees vaccum_page (fuel + 1) pager root_page_id
      fun _ => root_slot root_page_id).count root_page_id := by
  have hcall : ∀ i, Junk.call (fun _ => root_slot root_page_id) i
      = fun _ => root_slot root_page_id := fun i => rfl
  have hslot : read_index_slot pager root_page_id (UInt8.ofNat 0) (root_slot root_page_id)
      = root_slot root_page_id := hread _
  have hoverflow : (root_slot root_page_id).overflow.next_page_id = root_page_id := rfl
  obtain ⟨rest, hfirst⟩ := for_slots_frees_first (fun pager i =>
      some (release_slot vaccum_page root_page_id page (fun _ => root_slot root_page_id) pager i))
    (release_slot_frees root_page_id page fun _ => root_slot root_page_id) htotal 255
  have hround : release_slot_frees root_page_id page (fun _ => root_slot root_page_id) pager 0
      = [root_page_id] ++ (release_slot_frees root_page_id page (fun _ => root_slot root_page_id)
        pager 0).tail := by
    simp only [release_slot_frees, hslot, hoverflow, if_pos hne, List.singleton_append, List.tail_cons]
  simp only [btree_destroy_frees, hpage, hinner, Bool.false_eq_true, if_false, List.nil_append,
    hcall]
  rw [hfirst, hround]
  simp only [List.count_append, List.count_singleton_self]
  omega

/-- **A tree with slots** may have its root freed twice, or may not be destroyed at all. -/
theorem not_destroyRight (hpage : pager_get_page pager root_page_id = some page)
    (hflag : pager.mem.load8 (DBPageHeader.flag page) = PAGE_INDEX_LEAF
      ∨ pager.mem.load8 (DBPageHeader.flag page) = PAGE_INDEX_INTERNAL)
    (htotal : 0 < total_slots pager.mem page)
    (hread : ∀ old, read_index_slot pager root_page_id 0 old = old) (hne : root_page_id ≠ 0)
    (vaccum_page : Mem → Nat → Mem) :
    ¬ DestroyRight vaccum_page pager root_page_id fun _ => root_slot root_page_id := by
  rintro ⟨fuel, pager', hdestroy, hcount, -⟩
  rcases hflag with hleaf | hinner
  · have hinner : IS_INTERNAL pager.mem page = false := by
      rw [IS_INTERNAL, hleaf]
      rfl
    have hone := hcount root_page_id (.index .root ⟨page, hpage, .inl hleaf⟩)
    cases fuel with
    | zero => cases hdestroy
    | succ fuel =>
        have htwo := btree_destroy_leaf hpage hinner htotal hread hne vaccum_page fuel
        omega
  · have hinner : IS_INTERNAL pager.mem page = true := by
      rw [IS_INTERNAL, hinner]
      rfl
    rw [btree_destroy_inner hpage hinner htotal hread] at hdestroy
    cases hdestroy

/-- **The destruction from an index page** is right exactly when it has no slots. -/
theorem IndexPages.destroyRight_iff {limit : Nat} {pages : Set UInt16}
    (h : IndexPages limit pages pager) (hroot : root_page_id ∈ pages)
    (hpage : pager_get_page pager root_page_id = some page) (vaccum_page : Mem → Nat → Mem) :
    (∀ junk, DestroyRight vaccum_page pager root_page_id junk)
      ↔ total_slots pager.mem page = 0 := by
  obtain ⟨hread, rfl⟩ := pager_get_page_eq_some hpage
  obtain ⟨flag, P, hflag, hslotted, -⟩ := h.index_page root_page_id hroot hread
  have hflag : pager.mem.load8 (DBPageHeader.flag (root_page_id.toNat * PAGE_SIZE)) = PAGE_INDEX_LEAF
      ∨ pager.mem.load8 (DBPageHeader.flag (root_page_id.toNat * PAGE_SIZE)) = PAGE_INDEX_INTERNAL := by
    rw [hslotted.flag]
    exact hflag
  constructor
  · intro hright
    by_contra hne
    refine not_destroyRight hpage hflag (Nat.pos_of_ne_zero hne) (fun old => ?_) (h.ne_zero _ hroot)
      vaccum_page (hright _)
    rw [hslotted.holds.read hpage, hslotted.ok.read_zero]
  · intro htotal junk
    exact destroyRight_empty hpage htotal ⟨_, hpage, hflag⟩ vaccum_page junk

end

/-! ## §5. Runs. -/

/-- Every tree without slots is destroyed rightly. -/
def Store.EmptyDestroys (s : Store) : Prop :=
  ∀ vaccum_page root_page_id page, pager_get_page s.pager root_page_id = some page →
    IsIndexPage s.pager root_page_id → total_slots s.pager.mem page = 0 →
      ∀ junk, DestroyRight vaccum_page s.pager root_page_id junk

/-- From an initialised page the destruction is right exactly when it has no slots. -/
def Store.DestroysIff (s : Store) : Prop :=
  ∀ vaccum_page, ∀ root_page_id ∈ s.pages, ∀ page,
    pager_get_page s.pager root_page_id = some page →
      ((∀ junk, DestroyRight vaccum_page s.pager root_page_id junk)
        ↔ total_slots s.pager.mem page = 0)

/-- **A tree is destroyed rightly**, in every state of every run, when its root has no
slots; and in runs whose calls keep to their pages only then. -/
theorem destroy_iff (pager : Pager) (hnew : NewDb pager) (ops : List StoreOp) :
    Throughout StoreOp.exec Store.EmptyDestroys (newStore pager) ops
    ∧ (EachStep StoreOp.exec (StoreOp.Allowed 17) (newStore pager) ops →
      Throughout StoreOp.exec Store.DestroysIff (newStore pager) ops) := by
  constructor
  · exact throughout_of_forall (fun s vaccum_page root_page_id page hpage hindex htotal junk =>
      destroyRight_empty hpage htotal hindex vaccum_page junk) ops _
  · intro hallowed
    refine throughout_of_indexPages (Nat.le_refl 17) (fun s h => ?_) hnew ops hallowed
    exact fun vaccum_page root_page_id hroot page hpage =>
      h.destroyRight_iff hroot hpage vaccum_page

/-- Roots with up to four entries, a leaf and an inner page. -/
theorem destroy_iff_tree_run :
    Throughout StoreOp.exec Store.DestroysIff (newStore (pager_init_new_db .ok fresh_pager).2)
      tree_run :=
  (destroy_iff _ newDb_fresh _).2 tree_run_allowed

/-- An apple is inserted into a new tree, whose root may then be freed twice. -/
theorem apple_root_freed_twice :
    ∃ pager, btree_insert 1 new_tree.pager new_tree.root_page_id insert_apple.key.bytes
        insert_apple.data_page_id insert_apple.data_slot_id (fun _ => .zero)
          = some (PSQL_STATUS_OK, new_tree.root_page_id, pager)
      ∧ ∀ vaccum_page, ¬ DestroyRight vaccum_page pager new_tree.root_page_id
          fun _ => root_slot new_tree.root_page_id := by
  obtain ⟨m', hinsert, htree, -⟩ :=
    new_tree.leafTree.insert (Nat.succ_pos 66) insert_apple 0 fun _ => .zero
  refine ⟨_, hinsert, fun vaccum_page => ?_⟩
  obtain ⟨page, hpage, hfilled⟩ := htree.filled
  refine not_destroyRight hpage (.inl hfilled.packed.flag) ?_ (hfilled.read_other hpage (.inl rfl))
    new_tree.ne_zero vaccum_page
  rw [hfilled.packed.total]
  exact Nat.one_pos

end PreSeQL.Index
