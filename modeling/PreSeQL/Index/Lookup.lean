/-
  PreSeQL.Index.Lookup — what `btree_search` finds after insertions.

  `LookupCorrect` is the map a B+ tree stands for: a key that was inserted is found
  with its data pointer, any other key is not.  The code gives its first slot id out
  as 1, while `btree_search` reads the ids from 0 on and `read_index_slot` refuses the
  id `total_slots`.  So slot 0 is never filled, and what the search compares the key
  with there is what happens to lie in the variable.

    • `inserts_leaf` — no insertion mends a root without a slot 0,
    • `btree_lookup_iff` — lookups are right only as long as nothing was inserted.
-/
import PreSeQL.Index.Growth

namespace PreSeQL.Index

open PreSeQL.Lib PreSeQL.Lib.Mem PreSeQL.Db
open IndexStatus

/-! ## §1. Trees and lookups. -/

/-- A key of 1 to 16 bytes. -/
structure Key where
  bytes : List UInt8
  pos : 0 < bytes.length
  le : bytes.length ≤ MAX_DATA_PER_INDEX_SLOT

/-- The arguments of one `btree_insert`. -/
structure Insertion where
  key : Key
  data_page_id : UInt16
  data_slot_id : UInt8

structure Tree where
  root_page_id : UInt16
  pager : Pager

/-- The tree of `btree_init`: its root is an empty leaf. -/
structure EmptyTree extends Tree where
  ne_zero : root_page_id ≠ 0
  initialised : ∃ before page, init_index_leaf_page before root_page_id = some (page, pager)

/-- Insertions in a row, following the root; the statuses and the tree. -/
def Tree.inserts (fuel : Nat) : Tree → List Insertion → Junk → Option (List IndexStatus × Tree)
  | tree, [], _ => some ([], tree)
  | tree, op :: ops, junk =>
      match btree_insert fuel tree.pager tree.root_page_id op.key.bytes op.data_page_id
          op.data_slot_id (junk.call 0) with
      | none => none
      | some (status, root_page_id, pager) =>
          match Tree.inserts fuel ⟨root_page_id, pager⟩ ops (junk.call 1) with
          | none => none
          | some (statuses, tree) => some (status :: statuses, tree)

/-- The search returns a slot, and reading it gives the data pointer. -/
def Tree.Finds (tree : Tree) (key : Key) (data_page_id : UInt16) (data_slot_id : UInt8)
    (junk : Junk) : Prop :=
  ∃ fuel page_id slot_id,
    btree_search fuel tree.pager tree.root_page_id key.bytes (junk.call 0)
      = some (PSQL_STATUS_OK, some (page_id, slot_id))
    ∧ (read_index_slot tree.pager page_id slot_id (junk [1])).next_page_id = data_page_id
    ∧ (read_index_slot tree.pager page_id slot_id (junk [1])).next_slot_id = data_slot_id

def Tree.Misses (tree : Tree) (key : Key) (junk : Junk) : Prop :=
  ∃ fuel, btree_search fuel tree.pager tree.root_page_id key.bytes (junk.call 0)
    = some (PSQL_STATUS_NOT_FOUND, none)

/-- Keys are the same when they are after padding. -/
def Key.Same (key key' : Key) : Prop := padded_key key.bytes = padded_key key'.bytes

/-- After the insertions a key is found with what was inserted with it, if it was
inserted, and not found if it was not. -/
def LookupCorrect (start : EmptyTree) (ops : List Insertion) (junk : Junk) : Prop :=
  ∃ fuel statuses tree, start.toTree.inserts fuel ops (junk.call 0) = some (statuses, tree) ∧
    ∀ key : Key,
      (∀ op, (op, PSQL_STATUS_OK) ∈ ops.zip statuses → op.key.Same key →
        tree.Finds key op.data_page_id op.data_slot_id (junk.call 1)) ∧
      ((∀ op ∈ ops, ¬ op.key.Same key) → tree.Misses key (junk.call 1))

/-! ## §2. Comparing with the largest key. -/

theorem not_top_lt (a : UInt8) : ¬ (0xff : UInt8) < a := by
  have hlt := a.toNat_lt
  have htop : (0xff : UInt8).toNat = 255 := rfl
  rw [UInt8.lt_iff_toNat_lt]
  omega

theorem not_lt_of_not_lt_top {a : UInt8} (h : ¬ a < 0xff) (b : UInt8) : ¬ a < b := by
  have hlt := b.toNat_lt
  have htop : (0xff : UInt8).toNat = 255 := rfl
  rw [UInt8.lt_iff_toNat_lt] at h ⊢
  omega

/-- No key is above `0xff … 0xff`. -/
theorem compare_keys_top (key : List UInt8) :
    ∀ n size, compare_keys key (List.replicate n 0xff) size ≤ 0 := by
  induction key with
  | nil => intro n size; simp [compare_keys]
  | cons a key ih =>
      intro n size
      cases n with
      | zero => simp [compare_keys]
      | succ n =>
          cases size with
          | zero => simp [compare_keys, List.replicate_succ]
          | succ size =>
              rw [List.replicate_succ, compare_keys, if_neg (not_top_lt a)]
              -- below the top byte the key is smaller, at it the rest decides
              by_cases hlt : a < 0xff
              · rw [if_pos hlt]
                decide
              · rw [if_neg hlt]
                exact ih n size

/-- A key that is not below `0xff … 0xff` is below no key. -/
theorem compare_keys_of_top (key : List UInt8) : ∀ n size other, key.length ≤ n →
    ¬ compare_keys key (List.replicate n 0xff) size < 0 → ¬ compare_keys key other size < 0 := by
  induction key with
  | nil => intro n size other _ _; simp [compare_keys]
  | cons a key ih =>
      intro n size other hlen htop
      obtain ⟨n, rfl⟩ : ∃ k, n = k + 1 := ⟨n - 1, by simp at hlen; omega⟩
      cases size with
      | zero => simp [compare_keys]
      | succ size =>
          cases other with
          | nil => simp [compare_keys]
          | cons b other =>
              rw [List.replicate_succ, compare_keys, if_neg (not_top_lt a)] at htop
              -- the first byte is the top one, so no byte is above it
              have hge : ¬ a < (0xff : UInt8) := by
                intro hlt
                rw [if_pos hlt] at htop
                exact htop (by decide)
              rw [if_neg hge] at htop
              rw [compare_keys, if_neg (not_lt_of_not_lt_top hge b)]
              by_cases hlt : b < a
              · rw [if_pos hlt]
                decide
              · rw [if_neg hlt]
                exact ih n size other (by simpa using hlen) htop

/-! ## §3. A search that reads what is not there. -/

/-- The variables hold the largest key, a page that cannot be read, and a slot id other
than the given one. -/
def top_slot (data_slot_id : UInt8) : IndexSlotData :=
  ⟨Vector.replicate _ 0xff, 65535, data_slot_id + 1, ⟨0, 0⟩⟩

def top_junk (data_slot_id : UInt8) : Junk := fun _ => top_slot data_slot_id

@[simp] theorem top_junk_call (data_slot_id : UInt8) (i : Nat) :
    (top_junk data_slot_id).call i = top_junk data_slot_id := rfl

theorem top_slot_key (data_slot_id : UInt8) :
    (top_slot data_slot_id).key.toList = List.replicate MAX_DATA_PER_INDEX_SLOT 0xff := by
  simp [top_slot]

theorem top_slot_id_ne (data_slot_id : UInt8) :
    (top_slot data_slot_id).next_slot_id ≠ data_slot_id := by
  intro h
  have hzero : data_slot_id + 1 = data_slot_id + 0 := by rw [UInt8.add_zero]; exact h
  exact absurd ((UInt8.add_right_inj data_slot_id).mp hzero) (by decide)

section Search

variable {pager : Pager} {page : Nat} {page_no : UInt16} {flag : UInt8} {c : Nat}

theorem Packed.slot_key_zero (h : Packed pager.mem page page_no flag c)
    (hpage : pager_get_page pager page_no = some page) (slot : IndexSlotData) :
    slot_key pager page 0 slot = slot.key.toList := by
  rw [slot_key, h.label, show UInt8.ofNat 0 = 0 from rfl, h.read_zero hpage]

/-- On a leaf that is not empty the search looks at slot 0 only. -/
theorem Packed.search_leaf_top (h : Packed pager.mem page page_no flag (c + 1))
    (hpage : pager_get_page pager page_no = some page) (key : List UInt8) (data_slot_id : UInt8) :
    search_leaf pager page key (top_junk data_slot_id) = (PSQL_STATUS_OK, some (page_no, 0))
      ∨ search_leaf pager page key (top_junk data_slot_id) = (PSQL_STATUS_NOT_FOUND, none) := by
  have hkey := h.slot_key_zero hpage (top_slot data_slot_id)
  rw [top_slot_key] at hkey
  have hle := compare_keys_top key MAX_DATA_PER_INDEX_SLOT key.length
  simp only [search_leaf, h.total, List.range_succ_eq_map, List.find?_cons, top_junk, hkey, hle,
    decide_true, h.label]
  by_cases heq : compare_keys key (List.replicate MAX_DATA_PER_INDEX_SLOT 0xff) key.length = 0
  · exact Or.inl (if_pos heq)
  · exact Or.inr (if_neg heq)

/-- From an inner page the walk goes on to a page that cannot be read. -/
theorem Packed.next_child_top (h : Packed pager.mem page page_no flag (c + 1))
    (hpage : pager_get_page pager page_no = some page) {key : List UInt8}
    (hlen : key.length ≤ MAX_DATA_PER_INDEX_SLOT) (data_slot_id : UInt8) :
    pager_get_page pager (next_child pager page key (top_junk data_slot_id)) = none := by
  have hkey := h.slot_key_zero hpage (top_slot data_slot_id)
  rw [top_slot_key] at hkey
  have hnext : next_child pager page key (top_junk data_slot_id)
      = (top_slot data_slot_id).next_page_id := by
    simp only [next_child, h.total, h.label]
    by_cases hlt : compare_keys key (List.replicate MAX_DATA_PER_INDEX_SLOT 0xff) key.length < 0
    · -- the loop is left at slot 0
      have hzero : (List.range (c + 1)).find? (fun i => compare_keys key
          (slot_key pager page i (top_junk data_slot_id [0, i])) key.length < 0) = some 0 := by
        simp only [List.range_succ_eq_map, List.find?_cons, top_junk, hkey, hlt, decide_true]
      rw [hzero, Option.getD_some, show UInt8.ofNat 0 = 0 from rfl, h.read_zero hpage]
      rfl
    · -- the key is below none of the others, so the loop runs to its end
      have hnone : (List.range (c + 1)).find? (fun i => compare_keys key
          (slot_key pager page i (top_junk data_slot_id [0, i])) key.length < 0) = none := by
        rw [List.find?_eq_none]
        intro i _
        simpa using compare_keys_of_top key _ _ _ hlen hlt
      rw [hnone, Option.getD_none, h.read_total hpage]
      rfl
  rw [hnext]
  rfl

end Search

/-! ## §4. Roots without a slot 0. -/

/-- The root has slots but no slot 0, or cannot be read. -/
def Tree.Broken (tree : Tree) : Prop :=
  (∃ c, LeafRoot tree.root_page_id tree.pager (c + 1))
    ∨ InnerRoot tree.root_page_id tree.pager ∨ LostRoot tree.root_page_id tree.pager

theorem search_loop_none (fuel : Nat) (pager : Pager) (key : List UInt8) (junk : Junk) :
    search_loop fuel pager none key junk = some (PSQL_STATUS_NOT_FOUND, none) := by
  cases fuel <;> rfl

/-- A broken root finds nothing. -/
theorem Tree.Broken.not_finds {tree : Tree} (h : tree.Broken) (key : Key) (data_page_id : UInt16)
    (data_slot_id : UInt8) :
    ¬ tree.Finds key data_page_id data_slot_id (top_junk data_slot_id) := by
  rintro ⟨fuel, page_id, slot_id, hsearch, -, hslot⟩
  have hlen := key.le
  rw [btree_search, if_neg (by omega)] at hsearch
  rcases h with ⟨c, hroot⟩ | ⟨-, page, hpage, hpacked⟩ | hlost
  · obtain ⟨page, hpage, hpacked⟩ := hroot.packed
    rw [hpage] at hsearch
    cases fuel with
    | zero => cases hsearch
    | succ fuel =>
        simp only [search_loop, hpacked.leaf.1, if_true] at hsearch
        rcases hpacked.search_leaf_top hpage key.bytes data_slot_id with hfound | hfound
        · -- slot 0 is returned, and reading it fills nothing
          rw [top_junk_call, top_junk_call, hfound] at hsearch
          cases hsearch
          rw [hpacked.read_zero hpage] at hslot
          exact top_slot_id_ne data_slot_id hslot
        · rw [top_junk_call, top_junk_call, hfound] at hsearch
          cases hsearch
  · rw [hpage] at hsearch
    cases fuel with
    | zero => cases hsearch
    | succ fuel =>
        have hnext := hpacked.next_child_top hpage hlen data_slot_id
        simp only [search_loop, hpacked.inner.1, Bool.false_eq_true, if_false] at hsearch
        rw [top_junk_call, top_junk_call, hnext, search_loop_none] at hsearch
        cases hsearch
  · have hnone : pager_get_page tree.pager tree.root_page_id = none := hlost
    rw [hnone] at hsearch
    cases hsearch

/-! ## §5. Insertions. -/

section Insertion

variable {root_page_id : UInt16} {pager : Pager} {tree' : Tree} {fuel : Nat} {op : Insertion}
  {ops : List Insertion} {statuses : List IndexStatus}

/-- The first step of a run that has a result. -/
theorem inserts_cons {junk : Junk}
    (h : Tree.inserts fuel ⟨root_page_id, pager⟩ (op :: ops) junk = some (statuses, tree')) :
    ∃ status root_page_id' pager' statuses',
      btree_insert fuel pager root_page_id op.key.bytes op.data_page_id op.data_slot_id
        (junk.call 0) = some (status, root_page_id', pager')
      ∧ Tree.inserts fuel ⟨root_page_id', pager'⟩ ops (junk.call 1) = some (statuses', tree')
      ∧ statuses = status :: statuses' := by
  rw [Tree.inserts] at h
  split at h
  · cases h
  next status root_page_id' pager' hinsert =>
    split at h
    · cases h
    next statuses' tree'' hrest =>
      cases h
      exact ⟨status, root_page_id', pager', statuses', hinsert, hrest, rfl⟩

/-- An insertion into a root that is a leaf does not walk. -/
theorem LeafRoot.insert {c : Nat} {junk : Junk} {r : IndexStatus × UInt16 × Pager}
    (h : LeafRoot root_page_id pager c)
    (hinsert : btree_insert fuel pager root_page_id op.key.bytes op.data_page_id op.data_slot_id
      junk = some r) :
    ∃ page, pager_get_page pager root_page_id = some page
      ∧ Packed pager.mem page root_page_id PAGE_INDEX_LEAF c
      ∧ r = insert_leaf pager root_page_id page op.key.bytes op.data_page_id op.data_slot_id
          junk := by
  obtain ⟨page, hpage, hpacked⟩ := h.packed
  have hlen := op.key.le
  rw [btree_insert, if_neg (by omega), create_root, if_neg h.ne_zero] at hinsert
  simp only [if_neg h.ne_zero, hpage] at hinsert
  cases fuel with
  | zero => cases hinsert
  | succ fuel =>
      simp only [find_leaf, hpacked.leaf.2, Bool.false_eq_true, if_false, Option.some.injEq]
        at hinsert
      exact ⟨page, hpage, hpacked, hinsert.symm⟩

/-- Below an inner root the walk ends at a `NULL` page. -/
theorem InnerRoot.insert_none (h : InnerRoot root_page_id pager) (op : Insertion) (fuel : Nat)
    (data_slot_id : UInt8) :
    btree_insert fuel pager root_page_id op.key.bytes op.data_page_id op.data_slot_id
      (top_junk data_slot_id) = none := by
  obtain ⟨page, hpage, hpacked⟩ := h.packed
  have hlen := op.key.le
  have hnext := hpacked.next_child_top hpage hlen data_slot_id
  rw [btree_insert, if_neg (by omega), create_root, if_neg h.ne_zero]
  simp only [if_neg h.ne_zero, hpage]
  cases fuel with
  | zero => rfl
  | succ fuel =>
      rw [find_leaf, if_pos hpacked.inner.2]
      simp only [top_junk_call, hnext]

/-- So a run has no insertion. -/
theorem inserts_inner {data_slot_id : UInt8} (h : InnerRoot root_page_id pager)
    (hrun : Tree.inserts fuel ⟨root_page_id, pager⟩ ops (top_junk data_slot_id)
      = some (statuses, tree')) : tree'.Broken := by
  cases ops with
  | nil =>
      cases hrun
      exact Or.inr (Or.inl h)
  | cons op ops =>
      obtain ⟨status, root_page_id', pager', statuses', hinsert, -, -⟩ := inserts_cons hrun
      rw [top_junk_call, h.insert_none] at hinsert
      cases hinsert

/-- A root that cannot be read stays. -/
theorem inserts_lost {data_slot_id : UInt8} (h : LostRoot root_page_id pager)
    (hrun : Tree.inserts fuel ⟨root_page_id, pager⟩ ops (top_junk data_slot_id)
      = some (statuses, tree')) : tree'.Broken := by
  induction ops generalizing statuses with
  | nil =>
      cases hrun
      exact Or.inr (Or.inr h)
  | cons op ops ih =>
      have hlen := op.key.le
      have hnone : pager_get_page pager root_page_id = none := h
      have hne : root_page_id ≠ 0 := by
        rintro rfl
        cases hnone
      -- the call changes nothing, so the other calls start where it did
      obtain ⟨status, root_page_id', pager', statuses', hinsert, hrest, -⟩ := inserts_cons hrun
      rw [btree_insert, if_neg (by omega), create_root, if_neg hne] at hinsert
      simp only [if_neg hne, hnone] at hinsert
      cases hinsert
      exact ih hrest

/-- **No insertion mends a root without a slot 0**, as long as page numbers are left. -/
theorem inserts_leaf {data_slot_id : UInt8} {c : Nat} (h : LeafRoot root_page_id pager (c + 1))
    (hleft : ops = [] ∨ PagesLeft pager)
    (hrun : Tree.inserts fuel ⟨root_page_id, pager⟩ ops (top_junk data_slot_id)
      = some (statuses, tree')) : tree'.Broken := by
  induction ops generalizing root_page_id pager statuses c with
  | nil =>
      cases hrun
      exact Or.inl ⟨c, h⟩
  | cons op ops ih =>
      obtain ⟨status, root_page_id', pager', statuses', hinsert, hrest, -⟩ := inserts_cons hrun
      obtain ⟨page, hpage, hpacked, hr⟩ := h.insert hinsert
      have hroot := insert_leaf_root hpage hpacked h.ne_zero (hleft.resolve_left (by simp))
        op.key.bytes op.data_page_id op.data_slot_id ((top_junk data_slot_id).call 0)
      rw [← hr] at hroot
      rcases hroot with ⟨hleaf, hleft'⟩ | hinner | hlost
      · obtain ⟨k, hk⟩ : ∃ k, min (c + 1 + 1) 68 = k + 1 := ⟨min (c + 1) 67, by omega⟩
        exact ih (hk ▸ hleaf) (Or.inr hleft') hrest
      · exact inserts_inner hinner hrest
      · exact inserts_lost hlost hrest

end Insertion

/-! ## §6. When lookups are right. -/

theorem EmptyTree.leafRoot (start : EmptyTree) : LeafRoot start.root_page_id start.pager 0 := by
  obtain ⟨before, page, hinit⟩ := start.initialised
  obtain ⟨hpage, hpacked, -⟩ := init_index_page_packed hinit
  exact ⟨start.ne_zero, page, hpage, hpacked⟩

/-- Before the first insertion nothing is found. -/
theorem lookupCorrect_nil (start : EmptyTree) (junk : Junk) : LookupCorrect start [] junk := by
  refine ⟨0, [], start.toTree, rfl, fun key => ⟨fun op hop _ => ?_, fun _ => ⟨1, ?_⟩⟩⟩
  · cases hop
  · obtain ⟨page, hpage, hpacked⟩ := start.leafRoot.packed
    have hlen := key.le
    rw [btree_search, if_neg (by omega)]
    simp only [hpage, search_loop, hpacked.leaf.1, if_true, search_leaf, hpacked.total]
    rfl

/-- After an insertion its key is not found, whatever follows it while page numbers are
left. -/
theorem not_lookupCorrect_cons (start : EmptyTree) (op : Insertion) (ops : List Insertion)
    (hleft : ops = [] ∨ PagesLeft start.pager) :
    ¬ LookupCorrect start (op :: ops) (top_junk op.data_slot_id) := by
  rintro ⟨fuel, statuses, tree, hrun, hlookup⟩
  obtain ⟨status, root_page_id, pager, statuses', hinsert, hrest, rfl⟩ := inserts_cons hrun
  obtain ⟨page, hpage, hpacked, hr⟩ := start.leafRoot.insert hinsert
  obtain ⟨m', hroom, hpacked', hsame⟩ := insert_leaf_room hpage hpacked (by omega) op.key.bytes
    op.data_page_id op.data_slot_id (((top_junk op.data_slot_id).call 0).call 0)
  obtain ⟨rfl, rfl, rfl⟩ : status = PSQL_STATUS_OK ∧ root_page_id = start.root_page_id
      ∧ pager = start.pager.withMem m' := by
    rw [hroom] at hr
    simpa using hr
  have hheader := sameHeader_of_sameOff hsame (page_ne_zero start.ne_zero hpage)
  have hroot : LeafRoot start.root_page_id (start.pager.withMem m') 1 :=
    ⟨start.ne_zero, page, hpage, hpacked'⟩
  -- the root has one slot, with id 1, and stays broken from here on
  have hbroken := inserts_leaf hroot
    (hleft.imp id fun h => PagesLeft.of_sameHeader h hheader) hrest
  have hfinds := (hlookup op.key).1 op (by simp) rfl
  exact hbroken.not_finds op.key op.data_page_id op.data_slot_id hfinds

/-- **Lookups are right only as long as nothing was inserted**: a run is right in every
state it reaches just when it is empty, and while page numbers are left no run with an
insertion is right at its end. -/
theorem btree_lookup_iff (start : EmptyTree) (ops : List Insertion) :
    ((∀ junk pre, pre <+: ops → LookupCorrect start pre junk) ↔ ops = []) ∧
      (PagesLeft start.pager → ((∀ junk, LookupCorrect start ops junk) ↔ ops = [])) := by
  constructor
  · constructor
    · intro h
      cases ops with
      | nil => rfl
      | cons op ops =>
          -- one insertion is enough, page numbers or not
          have hpre : [op] <+: op :: ops := ⟨ops, rfl⟩
          exact absurd (h _ [op] hpre) (not_lookupCorrect_cons start op [] (Or.inl rfl))
    · rintro rfl junk pre hpre
      obtain rfl := List.prefix_nil.mp hpre
      exact lookupCorrect_nil start junk
  · intro hleft
    constructor
    · intro h
      cases ops with
      | nil => rfl
      | cons op ops => exact absurd (h _) (not_lookupCorrect_cons start op ops (Or.inr hleft))
    · rintro rfl junk
      exact lookupCorrect_nil start junk

/-- A tree in a new database, at the first page `get_free_page` returns there. -/
def new_tree : EmptyTree :=
  let before := (pager_init_new_db .ok fresh_pager).2
  { root_page_id := 4,
    pager := before.withMem (init_index_header before.mem (4 * PAGE_SIZE) 4 PAGE_INDEX_LEAF),
    ne_zero := by decide,
    initialised := ⟨before, 4 * PAGE_SIZE, rfl⟩ }

def insert_apple : Insertion :=
  ⟨⟨[0x61, 0x70, 0x70, 0x6c, 0x65], by decide, by decide⟩, 100, 1⟩

/-- One insertion is enough. -/
theorem btree_lookup_iff_apple : ¬ ∀ junk, LookupCorrect new_tree [insert_apple] junk := by
  have hleft : PagesLeft new_tree.pager := ⟨by decide +kernel, by decide +kernel⟩
  intro h
  exact absurd (((btree_lookup_iff new_tree [insert_apple]).2 hleft).mp h) (List.cons_ne_nil _ _)

/-- With the largest key in the variable, the search passes over the only key. -/
theorem apple_not_found : ¬ LookupCorrect new_tree [insert_apple] (top_junk 1) :=
  not_lookupCorrect_cons new_tree insert_apple [] (Or.inl rfl)

end PreSeQL.Index
