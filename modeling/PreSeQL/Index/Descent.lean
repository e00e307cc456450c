/-
  PreSeQL.Index.Descent — the loops that walk down a tree.

  `btree_search` goes on while the page is no leaf, `btree_insert` and `btree_delete`
  while it is an inner page, all three to the child `next_child` names.  Slot ids start
  at 1, and `next_child` reads id 0 or id `total_slots`, neither of which is ever filled:
  below an inner page the walk goes wherever an uninitialised variable points.

    • `find_leaf_eq`, `find_leaf_parent_eq`, `search_loop_eq` — the loops as `visits`,
    • `Slotted.next_child_top` — an inner page that leads to itself,
    • `descent_iff` — walks end when the root is a leaf, and otherwise may not.
-/
import PreSeQL.Index.Reach

namespace PreSeQL.Index

open PreSeQL.Lib PreSeQL.Lib.Run PreSeQL.Db
open IndexStatus

/-! ## §1. The pages a loop visits. -/

/-- The pages in order, the last one where the loop ends; `none` when it uses up its fuel
or comes to a missing page. -/
def visits (goes_on : Mem → Nat → Bool) : Nat → Pager → Nat → List UInt8 → Junk →
    Option (List Nat)
  | 0, _, _, _, _ => none
  | fuel + 1, pager, page, key, junk =>
      if goes_on pager.mem page then
        match pager_get_page pager (next_child pager page key (junk.call 0)) with
        | none => none
        | some child => (visits goes_on fuel pager child key (junk.call 1)).map (page :: ·)
      else some [page]

/-- `else` in `while (page)` of `btree_search`. -/
def IS_NOT_LEAF (m : Mem) (page : Nat) : Bool := !IS_LEAF m page

/-- The loop visits no page twice and no missing one, and ends at a leaf. -/
def Descends (goes_on : Mem → Nat → Bool) (pager : Pager) (page : Nat) (key : List UInt8)
    (junk : Junk) : Prop :=
  ∃ fuel pages leaf, visits goes_on fuel pager page key junk = some (pages ++ [leaf])
    ∧ (pages ++ [leaf]).Nodup ∧ pager.mem.load8 (DBPageHeader.flag leaf) = PAGE_INDEX_LEAF

/-- So do the loops of `btree_search`, and of `btree_insert` and `btree_delete`, whatever
uninitialised variables hold. -/
def DescentRight (pager : Pager) (page : Nat) (key : List UInt8) : Prop :=
  ∀ junk, Descends IS_NOT_LEAF pager page key junk ∧ Descends IS_INTERNAL pager page key junk

section

variable {pager : Pager} {key : List UInt8}

theorem visits_ne_nil {goes_on : Mem → Nat → Bool} {fuel page : Nat} {junk : Junk}
    {pages : List Nat} (h : visits goes_on fuel pager page key junk = some pages) : pages ≠ [] := by
  cases fuel with
  | zero => cases h
  | succ fuel =>
      rw [visits] at h
      split at h
      · split at h
        · cases h
        · obtain ⟨rest, -, heq⟩ := Option.map_eq_some_iff.mp h
          exact heq ▸ List.cons_ne_nil _ _
      · cases h
        exact List.cons_ne_nil _ _

/-- The page a walk ends at is that of the walk from the child. -/
theorem getLast?_visits_cons {goes_on : Mem → Nat → Bool} {fuel page child : Nat} {junk : Junk} :
    ((visits goes_on fuel pager child key junk).map (page :: ·)).bind List.getLast?
      = (visits goes_on fuel pager child key junk).bind List.getLast? := by
  cases hvisits : visits goes_on fuel pager child key junk with
  | none => rfl
  | some pages =>
      obtain ⟨q, rest, rfl⟩ := List.exists_cons_of_ne_nil (visits_ne_nil hvisits)
      exact List.getLast?_cons_cons

/-- `btree_insert` -/
theorem find_leaf_eq (fuel : Nat) : ∀ page junk, find_leaf fuel pager page key junk
    = (visits IS_INTERNAL fuel pager page key junk).bind List.getLast? := by
  induction fuel with
  | zero => intro page junk; rfl
  | succ fuel ih =>
      intro page junk
      rw [find_leaf, visits]
      split
      · cases pager_get_page pager (next_child pager page key (junk.call 0)) with
        | none => rfl
        | some child => exact (ih child _).trans getLast?_visits_cons.symm
      · rfl

/-- `btree_delete` -/
theorem find_leaf_parent_eq (fuel : Nat) : ∀ parent parent_idx page junk,
    (find_leaf_parent fuel pager parent parent_idx page key junk).map (·.2.2)
      = (visits IS_INTERNAL fuel pager page key junk).bind List.getLast? := by
  induction fuel with
  | zero => intro parent parent_idx page junk; rfl
  | succ fuel ih =>
      intro parent parent_idx page junk
      rw [find_leaf_parent, visits]
      split
      · cases pager_get_page pager (next_child pager page key (junk.call 0)) with
        | none => rfl
        | some child => exact (ih _ _ child _).trans getLast?_visits_cons.symm
      · rfl

/-- `btree_search` -/
theorem search_loop_eq (fuel : Nat) : ∀ page junk leaf,
    (visits IS_NOT_LEAF fuel pager page key junk).bind List.getLast? = some leaf →
      ∃ junk', search_loop fuel pager (some page) key junk
        = some (search_leaf pager leaf key junk') := by
  induction fuel with
  | zero => intro page junk leaf h; cases h
  | succ fuel ih =>
      intro page junk leaf h
      rw [visits, IS_NOT_LEAF] at h
      rw [search_loop]
      by_cases hleaf : IS_LEAF pager.mem page = true
      · rw [hleaf] at h ⊢
        cases h
        exact ⟨junk.call 0, rfl⟩
      · rw [if_pos (by simpa using hleaf)] at h
        rw [if_neg hleaf]
        cases hchild : pager_get_page pager (next_child pager page key (junk.call 0)) with
        | none =>
            rw [hchild] at h
            cases h
        | some child =>
            rw [hchild] at h
            exact ih child _ leaf (getLast?_visits_cons.symm.trans h)

/-! ## §2. Leaves and inner pages. -/

/-- At a leaf a loop ends at once. -/
theorem descentRight_leaf {page : Nat}
    (hflag : pager.mem.load8 (DBPageHeader.flag page) = PAGE_INDEX_LEAF) :
    DescentRight pager page key := by
  have hleaf : IS_NOT_LEAF pager.mem page = false := by
    rw [IS_NOT_LEAF, IS_LEAF, hflag]
    rfl
  have hinner : IS_INTERNAL pager.mem page = false := by
    rw [IS_INTERNAL, hflag]
    rfl
  intro junk
  refine ⟨⟨1, [], page, ?_, List.nodup_singleton _, hflag⟩,
    ⟨1, [], page, ?_, List.nodup_singleton _, hflag⟩⟩
  · simp only [visits, hleaf, Bool.false_eq_true, if_false, List.nil_append]
  · simp only [visits, hinner, Bool.false_eq_true, if_false, List.nil_append]

/-- The variables hold the largest key and the number of a page. -/
def loop_slot (page_no : UInt16) : IndexSlotData := ⟨Vector.replicate _ 0xff, page_no, 0, ⟨0, 0⟩⟩

theorem loop_slot_key (page_no : UInt16) :
    (loop_slot page_no).key.toList = List.replicate MAX_DATA_PER_INDEX_SLOT 0xff := by
  simp [loop_slot]

section

variable {page : Nat} {page_no : UInt16} {flag : UInt8} {P : SlotPage}

/-- The walk goes where the variables point. -/
theorem Slotted.next_child_top (h : Slotted pager.mem page page_no flag P)
    (hpage : pager_get_page pager page_no = some page)
    (hlen : key.length ≤ MAX_DATA_PER_INDEX_SLOT) {slot : IndexSlotData}
    (hkey : slot.key.toList = List.replicate MAX_DATA_PER_INDEX_SLOT 0xff) :
    next_child pager page key (fun _ => slot) = slot.next_page_id := by
  have hlabel : header_page_id pager.mem page = page_no := h.page_id
  have hzero : slot_key pager page 0 slot = List.replicate MAX_DATA_PER_INDEX_SLOT 0xff := by
    rw [slot_key, hlabel, h.holds.read hpage, show UInt8.ofNat 0 = 0 from rfl, h.ok.read_zero, hkey]
  simp only [next_child, h.holds.total, hlabel, h.holds.read hpage]
  by_cases hfirst : 0 < P.slots.length
      ∧ compare_keys key (List.replicate MAX_DATA_PER_INDEX_SLOT 0xff) key.length < 0
  · -- the loop is left at id 0
    obtain ⟨n, hn⟩ : ∃ n, P.slots.length = n + 1 := ⟨P.slots.length - 1, by omega⟩
    have hfind : (List.range P.slots.length).find? (fun i =>
        compare_keys key (slot_key pager page i slot) key.length < 0) = some 0 := by
      rw [hn]
      simp only [List.range_succ_eq_map, List.find?_cons, hzero, hfirst.2, decide_true]
    rw [hfind, Option.getD_some, show UInt8.ofNat 0 = 0 from rfl, h.ok.read_zero]
  · -- the key is below none of the others, so the loop runs to its end
    have hfind : (List.range P.slots.length).find? (fun i =>
        compare_keys key (slot_key pager page i slot) key.length < 0) = none := by
      rw [List.find?_eq_none]
      intro i hi
      have hpos : 0 < P.slots.length := Nat.lt_of_le_of_lt (Nat.zero_le i) (List.mem_range.mp hi)
      simpa using compare_keys_of_top key _ _ _ hlen fun hlt => hfirst ⟨hpos, hlt⟩
    rw [hfind, Option.getD_none, SlotPage.read_total rfl h.holds.length_lt]

/-- A page that leads to itself is never left. -/
theorem visits_loop {goes_on : Mem → Nat → Bool} {slot : IndexSlotData}
    (hgoes : goes_on pager.mem page = true)
    (hnext : pager_get_page pager (next_child pager page key fun _ => slot) = some page) (fuel : Nat) :
    visits goes_on fuel pager page key (fun _ => slot) = none := by
  induction fuel with
  | zero => rfl
  | succ fuel ih =>
      have hcall : ∀ i, Junk.call (fun _ => slot) i = fun _ => slot := fun i => rfl
      simp only [visits, if_pos hgoes, hcall, hnext, ih, Option.map_none]

/-- **An inner page** may lead to itself. -/
theorem Slotted.visits_inner (h : Slotted pager.mem page page_no PAGE_INDEX_INTERNAL P)
    (hpage : pager_get_page pager page_no = some page)
    (hlen : key.length ≤ MAX_DATA_PER_INDEX_SLOT) (fuel : Nat) :
    visits IS_NOT_LEAF fuel pager page key (fun _ => loop_slot page_no) = none
    ∧ visits IS_INTERNAL fuel pager page key (fun _ => loop_slot page_no) = none := by
  have hnext : pager_get_page pager (next_child pager page key fun _ => loop_slot page_no)
      = some page := by
    rw [h.next_child_top hpage hlen (loop_slot_key page_no)]
    exact hpage
  constructor
  · refine visits_loop ?_ hnext fuel
    rw [IS_NOT_LEAF, IS_LEAF, h.flag]
    rfl
  · refine visits_loop ?_ hnext fuel
    rw [IS_INTERNAL, h.flag]
    rfl

end

/-- **The loops at an index page** end at a leaf exactly when it is one. -/
theorem IndexPages.descentRight_iff {limit : Nat} {pages : Set UInt16} {root page}
    (h : IndexPages limit pages pager) (hroot : root ∈ pages)
    (hpage : pager_get_page pager root = some page)
    (hlen : key.length ≤ MAX_DATA_PER_INDEX_SLOT) :
    DescentRight pager page key
      ↔ pager.mem.load8 (DBPageHeader.flag page) = PAGE_INDEX_LEAF := by
  obtain ⟨hread, rfl⟩ := pager_get_page_eq_some hpage
  obtain ⟨flag, P, hflag, hslotted, -⟩ := h.index_page root hroot hread
  constructor
  · intro hright
    rcases hflag with rfl | rfl
    · exact hslotted.flag
    · obtain ⟨fuel, pages, leaf, hvisits, -⟩ := (hright fun _ => loop_slot root).2
      rw [(hslotted.visits_inner hpage hlen fuel).2] at hvisits
      cases hvisits
  · intro hleaf
    exact descentRight_leaf hleaf

end

/-! ## §3. Runs. -/

/-- From a root that is a leaf every descent is right. -/
def Store.LeafDescends (s : Store) : Prop :=
  ∀ root page, pager_get_page s.pager root = some page →
    s.pager.mem.load8 (DBPageHeader.flag page) = PAGE_INDEX_LEAF →
      ∀ key, DescentRight s.pager page key

/-- From an initialised page the descents for a key are right exactly when it is a leaf. -/
def Store.DescendsIff (s : Store) : Prop :=
  ∀ root ∈ s.pages, ∀ page, pager_get_page s.pager root = some page →
    ∀ key : List UInt8, key.length ≤ MAX_DATA_PER_INDEX_SLOT →
      (DescentRight s.pager page key
        ↔ s.pager.mem.load8 (DBPageHeader.flag page) = PAGE_INDEX_LEAF)

/-- **Descents end at a leaf**, in every state of every run, when they start at one; and
in runs whose calls keep to their pages only then. -/
theorem descent_iff (pager : Pager) (hnew : NewDb pager) (ops : List StoreOp) :
    Throughout StoreOp.exec Store.LeafDescends (newStore pager) ops
    ∧ (EachStep StoreOp.exec (StoreOp.Allowed 17) (newStore pager) ops →
      Throughout StoreOp.exec Store.DescendsIff (newStore pager) ops) := by
  constructor
  · exact throughout_of_forall (fun s root page _ hflag key => descentRight_leaf hflag) ops _
  · intro hallowed
    refine throughout_of_indexPages (Nat.le_refl 17) (fun s h => ?_) hnew ops hallowed
    exact fun root hroot page hpage key hlen => h.descentRight_iff hroot hpage hlen

/-- A leaf and an inner page with up to four entries, beside the empty catalog roots. -/
theorem descent_iff_tree_run :
    Throughout StoreOp.exec Store.DescendsIff (newStore (pager_init_new_db .ok fresh_pager).2)
      tree_run :=
  (descent_iff _ newDb_fresh _).2 tree_run_allowed

/-- The three loops as they are called, below a page that leads to itself. -/
theorem Slotted.loops_inner {pager : Pager} {page : Nat} {page_no : UInt16} {P : SlotPage}
    {key : List UInt8} (h : Slotted pager.mem page page_no PAGE_INDEX_INTERNAL P)
    (hpage : pager_get_page pager page_no = some page)
    (hlen : key.length ≤ MAX_DATA_PER_INDEX_SLOT) (fuel : Nat) :
    let junk : Junk := fun _ => loop_slot page_no
    search_loop fuel pager (some page) key junk = none
    ∧ find_leaf fuel pager page key junk = none
    ∧ find_leaf_parent fuel pager none 0 page key junk = none := by
  intro junk
  have hnone := (h.visits_inner hpage hlen fuel).2
  have hnext : pager_get_page pager (next_child pager page key junk) = some page := by
    rw [h.next_child_top hpage hlen (loop_slot_key page_no)]
    exact hpage
  refine ⟨?_, ?_, ?_⟩
  · have hleaf : IS_LEAF pager.mem page = false := by
      rw [IS_LEAF, h.flag]
      rfl
    have hcall : ∀ i, Junk.call junk i = junk := fun i => rfl
    induction fuel with
    | zero => rfl
    | succ fuel ih =>
        rw [search_loop, hleaf, if_neg Bool.false_ne_true, hcall, hcall, hnext]
        exact ih (h.visits_inner hpage hlen fuel).2
  · rw [find_leaf_eq, hnone]
    rfl
  · have hmap : (find_leaf_parent fuel pager none 0 page key junk).map (·.2.2) = _ :=
      find_leaf_parent_eq fuel none 0 page junk
    rw [hnone] at hmap
    exact Option.map_eq_none_iff.mp hmap

/-- From a catalog root of a new database no loop ends. -/
theorem catalog_descent_loops :
    let pager := (pager_init_new_db .ok fresh_pager).2
    let junk : Junk := fun _ => loop_slot 3
    pager_get_page pager 3 = some (3 * PAGE_SIZE)
    ∧ ∀ fuel, search_loop fuel pager (some (3 * PAGE_SIZE)) [0] junk = none
      ∧ find_leaf fuel pager (3 * PAGE_SIZE) [0] junk = none
      ∧ find_leaf_parent fuel pager none 0 (3 * PAGE_SIZE) [0] junk = none := by
  intro pager junk
  have hpage : pager_get_page pager 3 = some (3 * PAGE_SIZE) := pager_get_page_of_lt (by decide)
  refine ⟨hpage, fun fuel => ?_⟩
  obtain ⟨flag, P, -, hslotted, -⟩ :=
    (NewDb.indexPages newDb_fresh 17).index_page 3 (.inr (.inr rfl)) (by decide)
  have hflag : flag = PAGE_INDEX_INTERNAL := hslotted.flag.symm.trans (by decide +kernel)
  exact (hflag ▸ hslotted).loops_inner hpage (by decide) fuel

end PreSeQL.Index
