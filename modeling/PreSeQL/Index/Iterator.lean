/-
  PreSeQL.Index.Iterator — range scans (`btree_iterator_*`, last part of
  `index_page.c`).

  A scan should give the data pointers of the entries between two keys, in the order of
  the keys.  The iterator starts at slot id 0, which no page has, so the first pair it
  returns on a leaf with entries is what its uninitialised variable holds.

    • `EmptyTree.scanRight` — a scan of an empty leaf ends at once,
    • `LeafTree.not_scanRight_one` — a scan of a leaf with one entry starts wrong,
    • `btree_iterator_iff` — every run.
-/
import PreSeQL.Index.Deletion

namespace PreSeQL.Index

open PreSeQL.Lib PreSeQL.Lib.Mem PreSeQL.Lib.Run PreSeQL.Lib.Wp PreSeQL.Db
open IndexStatus

/-! ## §1. The iterator. -/

structure BTreeIterator where
  root_page_id : UInt16
  current_page_id : UInt16
  current_slot_id : UInt8
  start_key : Option (List UInt8)
  end_key : Option (List UInt8)
  key_size : Nat
  has_range : Bool

def btree_iterator_create (root_page_id : UInt16) : BTreeIterator :=
  { root_page_id := root_page_id, current_page_id := root_page_id, current_slot_id := 0,
    start_key := none, end_key := none, key_size := 0, has_range := false }

/-- The iterator, unless the search for the start key does not return. -/
def btree_iterator_range (fuel : Nat) (pager : Pager) (root_page_id : UInt16)
    (start_key end_key : Option (List UInt8)) (key_size : Nat) (junk : Junk) :
    Option BTreeIterator :=
  let iterator :=
    { btree_iterator_create root_page_id with
      has_range := true, key_size := key_size, start_key := start_key, end_key := end_key }
  match start_key with
  | none => some iterator
  | some key =>
      match btree_search fuel pager root_page_id key junk with
      | none => none
      -- only a key that is found moves the iterator
      | some (PSQL_STATUS_OK, some (page_id, slot_id)) =>
          some { iterator with current_page_id := page_id, current_slot_id := slot_id }
      | some _ => some iterator

/-- The last part of `btree_iterator_next`, with the position settled. -/
def current_slot (pager : Pager) (iterator : BTreeIterator) (slot : IndexSlotData) :
    Option (UInt16 × UInt8) × BTreeIterator :=
  let slot := read_index_slot pager iterator.current_page_id iterator.current_slot_id slot
  let found := (some (slot.next_page_id, slot.next_slot_id),
    { iterator with current_slot_id := iterator.current_slot_id + 1 })
  match iterator.end_key with
  | none => found
  | some end_key =>
      if iterator.has_range ∧ compare_keys slot.key.toList end_key iterator.key_size > 0 then
        (none, iterator)
      else found

/-- The data pointer, `none` for a return of 0, and the iterator; the local `slot` holds the
given value. -/
def btree_iterator_next (pager : Pager) (iterator : BTreeIterator) (slot : IndexSlotData) :
    Option (UInt16 × UInt8) × BTreeIterator :=
  if iterator.current_page_id = 0 then (none, iterator)
  else
    match pager_get_page pager iterator.current_page_id with
    | none => (none, iterator)
    | some page =>
        if total_slots pager.mem page ≤ iterator.current_slot_id.toNat then
          let next_page_id := pager.mem.load16 (DBPageHeader.right_sibling_page_id page)
          if next_page_id = 0 then (none, iterator)
          else
            let iterator :=
              { iterator with current_page_id := next_page_id, current_slot_id := 0 }
            match pager_get_page pager next_page_id with
            | none => (none, iterator)
            -- the slots of the next page are not counted again
            | some _ => current_slot pager iterator slot
        else current_slot pager iterator slot

/-- Calls of `btree_iterator_next` until it returns 0. -/
def iterate : Nat → Pager → BTreeIterator → Junk → Option (List (UInt16 × UInt8))
  | 0, _, _, _ => none
  | fuel + 1, pager, iterator, junk =>
      match btree_iterator_next pager iterator (junk [0]) with
      | (none, _) => some []
      | (some data, iterator) => (iterate fuel pager iterator (junk.call 1)).map (data :: ·)

/-! ## §2. The specification. -/

/-- The order of the padded keys. -/
def key_le (key key' : List UInt8) : Prop :=
  compare_keys (padded_key key).toList (padded_key key').toList MAX_DATA_PER_INDEX_SLOT ≤ 0

instance decidableKeyLe (key key' : List UInt8) : Decidable (key_le key key') :=
  inferInstanceAs (Decidable (_ ≤ _))

/-- A scan without bounds, or between two keys of one size. -/
inductive Scan where
  | all
  | range (key_size : Nat) (start_key end_key : Option { key : Key // key.bytes.length = key_size })

def Scan.iterator (fuel : Nat) (tree : Tree) (junk : Junk) : Scan → Option BTreeIterator
  | .all => some (btree_iterator_create tree.root_page_id)
  | .range key_size start_key end_key =>
      btree_iterator_range fuel tree.pager tree.root_page_id (start_key.map fun key => key.1.bytes)
        (end_key.map fun key => key.1.bytes) key_size junk

/-- The insertion is one the scan should find. -/
def Scan.covers (op : Insertion) : Scan → Bool
  | .all => true
  | .range _ start_key end_key =>
      start_key.all (fun key => key_le key.1.bytes op.key.bytes)
        && end_key.all fun key => key_le op.key.bytes key.1.bytes

/-- The scan ends, with what it should find in the order of the keys. -/
def ScanRight (s : TreeState) (scan : Scan) : Prop :=
  ∀ junk : Junk, ∃ fuel iterator found,
    scan.iterator fuel s.tree (junk.call 0) = some iterator
    ∧ iterate fuel s.tree.pager iterator (junk.call 1) = some found
    ∧ ∃ ops : List Insertion, ops.Perm (s.stored.filter scan.covers)
      ∧ ops.Pairwise (fun op op' => key_le op.key.bytes op'.key.bytes)
      ∧ found = ops.map fun op => (op.data_page_id, op.data_slot_id)

/-! ## §3. Leaves with no entry and with one. -/

theorem init_index_page_sibling {before pager : Pager} {page_no : UInt16} {flag : UInt8}
    {page : Nat} (h : init_index_page before page_no flag = some (page, pager)) :
    pager.mem.load16 (DBPageHeader.right_sibling_page_id page) = 0 := by
  unfold init_index_page at h
  cases hpage : pager_get_page before page_no with
  | none => rw [hpage] at h; cases h
  | some a =>
      rw [hpage] at h
      cases h
      exact load16_store16_same _ _ _

/-- On an empty leaf every iterator starts at slot id 0 of it. -/
theorem EmptyTree.iterator_start (start : EmptyTree) (scan : Scan) (junk : Junk) :
    ∃ iterator, scan.iterator 1 start.toTree junk = some iterator
      ∧ iterator.current_page_id = start.root_page_id ∧ iterator.current_slot_id = 0 := by
  cases scan with
  | all => exact ⟨_, rfl, rfl, rfl⟩
  | range key_size start_key end_key =>
      cases start_key with
      | none => exact ⟨_, rfl, rfl, rfl⟩
      | some key =>
          obtain ⟨page, hpage, hfilled⟩ := start.leafTree.filled
          have hlen := key.1.le
          -- the search finds nothing
          have hsearch : btree_search 1 start.pager start.root_page_id key.1.bytes junk
              = some (PSQL_STATUS_NOT_FOUND, none) := by
            rw [btree_search, if_neg (by omega)]
            simp only [hpage, search_loop, hfilled.packed.leaf.1, if_true, search_leaf,
              hfilled.packed.total]
            rfl
          simp only [Scan.iterator, btree_iterator_range, Option.map_some, hsearch]
          exact ⟨_, rfl, rfl, rfl⟩

/-- **An empty leaf**: the first call returns 0. -/
theorem EmptyTree.scanRight (start : EmptyTree) (status : IndexStatus) (scan : Scan) :
    ScanRight ⟨start.toTree, status, []⟩ scan := by
  intro junk
  obtain ⟨iterator, hstart, hpage_id, hslot_id⟩ := start.iterator_start scan (junk.call 0)
  obtain ⟨before, page, hinit⟩ := start.initialised
  obtain ⟨hpage, hfilled⟩ := init_index_page_filled hinit
  refine ⟨1, iterator, [], hstart, ?_, [], List.Perm.refl _, List.Pairwise.nil, rfl⟩
  have hnext : ∀ slot, btree_iterator_next start.pager iterator slot = (none, iterator) := by
    intro slot
    simp only [btree_iterator_next, hpage_id, if_neg start.ne_zero, hpage, hfilled.packed.total,
      init_index_page_sibling hinit, List.length_nil, Nat.zero_le, if_true]
  simp only [iterate, hnext]

/-- **A leaf with one entry**: the first pair returned is not the one inserted. -/
theorem LeafTree.not_scanRight_one {tree : Tree} {op : Insertion} (h : LeafTree tree [op.slot])
    (status : IndexStatus) : ¬ ScanRight ⟨tree, status, [op]⟩ .all := by
  intro hright
  -- the variable holds another page number
  let slot : IndexSlotData := { IndexSlotData.zero with next_page_id := op.data_page_id + 1 }
  obtain ⟨fuel, iterator, found, hiterator, hfound, ops, hperm, -, rfl⟩ := hright fun _ => slot
  obtain rfl := Option.some.inj hiterator
  obtain ⟨page, hpage, hfilled⟩ := h.filled
  obtain ⟨iterator', hnext⟩ : ∃ iterator',
      btree_iterator_next tree.pager (btree_iterator_create tree.root_page_id) slot
        = (some (op.data_page_id + 1, 0), iterator') := by
    simp only [btree_iterator_next, btree_iterator_create, if_neg h.ne_zero, hpage,
      hfilled.packed.total, current_slot, hfilled.read_other hpage (Or.inl rfl)]
    exact ⟨_, rfl⟩
  have hops : ops = [op] := List.perm_singleton.mp hperm
  cases fuel with
  | zero => cases hfound
  | succ fuel =>
      have hnext' : btree_iterator_next tree.pager (btree_iterator_create tree.root_page_id)
          ((Junk.call (fun _ => slot) 1) [0]) = (some (op.data_page_id + 1, 0), iterator') := hnext
      simp only [iterate, hnext', hops, List.map_cons, List.map_nil, Option.map_eq_some_iff]
        at hfound
      obtain ⟨rest, -, hrest⟩ := hfound
      have hpage_id := congrArg Prod.fst (List.cons.inj hrest).1
      grind

/-! ## §4. Runs. -/

def TreeOp.Deletes : TreeOp → Prop
  | .btree_insert _ => False
  | .btree_delete _ => True

/-- Deletions leave an empty leaf as it is. -/
theorem LeafTree.delete_empty {tree : Tree} (h : LeafTree tree []) (key : Key) (fuel : Nat)
    (junk : Junk) :
    (TreeOp.btree_delete key).exec (fuel + 1) tree junk = some (PSQL_STATUS_OK, tree) := by
  obtain ⟨page, hpage, hfilled, hdelete⟩ := h.delete key fuel junk
  rw [TreeOp.exec, hdelete, hfilled.delete_entry_none hpage fun slot hslot => by cases hslot]
  rfl

/-- What a run asks of a call is that every scan behind it is right. -/
def ScansRight (_ : TreeState) (_ : TreeOp) (s' : TreeState) : Prop :=
  ∀ scan, ScanRight s' scan

section

variable {start : EmptyTree} {s : TreeState}

/-- A deletion in a run without insertions. -/
theorem TreeOp.exec_deletes (htree : s.tree = start.toTree) {op : TreeOp} (hop : op.Deletes)
    (fuel : Nat) (junk : Junk) :
    op.exec (fuel + 1) s.tree junk = some (PSQL_STATUS_OK, start.toTree) := by
  cases op with
  | btree_insert op => cases hop
  | btree_delete key =>
      rw [htree]
      exact start.leafTree.delete_empty key fuel junk

theorem TreeOp.stored_deletes (hstored : s.stored = []) {op : TreeOp} (hop : op.Deletes) :
    op.stored s.stored = [] := by
  cases op with
  | btree_insert op => cases hop
  | btree_delete key =>
      rw [hstored]
      rfl

/-- **The first insertion** makes a scan wrong. -/
theorem deletes_of_wp (htree : s.tree = start.toTree) (hstored : s.stored = []) {op : TreeOp}
    (hwp : op.wp s (ScansRight s op)) : op.Deletes := by
  cases op with
  | btree_delete key => exact trivial
  | btree_insert op =>
      have hleaf : LeafTree s.tree [] := by
        rw [htree]
        exact start.leafTree
      obtain ⟨fuel, status, tree, hexec, hright⟩ := hwp fun _ => .zero
      cases fuel with
      | zero => cases (hleaf.exec_zero _ _).symm.trans hexec
      | succ fuel =>
          obtain ⟨m', hinsert, hone, -⟩ := hleaf.insert (by decide) op fuel fun _ => .zero
          rw [TreeOp.exec, hinsert, Option.map_some] at hexec
          obtain ⟨rfl, rfl⟩ := Prod.mk.inj (Option.some.inj hexec)
          rw [if_pos rfl, TreeOp.stored, hstored] at hright
          exact hone.not_scanRight_one _ (hright .all)

end

/-- **Scans are right** in every state of a run, whatever uninitialised variables hold,
exactly when nothing is inserted. -/
theorem btree_iterator_iff (start : EmptyTree) (ops : List TreeOp) :
    (∀ scan, ScanRight start.state scan) ∧ Surely TreeOp.wp ScansRight start.state ops
      ↔ ∀ op ∈ ops, op.Deletes := by
  have hstart : ∀ scan, ScanRight start.state scan := start.scanRight _
  have heach : EachStep (fun _ _ => ()) (fun _ op => op.Deletes) () ops
      ↔ ∀ op ∈ ops, op.Deletes := eachStep_iff_forall ops ()
  rw [and_iff_right hstart, ← heach]
  refine surely_iff_tracked (H := fun _ _ => True)
    (I := fun _ s => s.tree = start.toTree ∧ s.stored = []) TreeOp.wp_mono
    (fun t s op h _ hdeletes => ?_) (fun t s op R h _ hdeletes hwp => ?_)
    (fun t s op h _ hwp => deletes_of_wp h.1 h.2 hwp) ops () start.state ⟨rfl, rfl⟩
    ((eachStep_iff_forall ops ()).mpr fun _ _ => trivial)
  · intro junk
    refine ⟨1, _, _, TreeOp.exec_deletes h.1 hdeletes 0 junk, ?_⟩
    rw [if_pos rfl, TreeOp.stored_deletes h.2 hdeletes]
    exact ⟨start.scanRight _, rfl, rfl⟩
  · -- the tree behind the call is the one before it
    obtain ⟨fuel, status, tree, hexec, hr⟩ := hwp fun _ => .zero
    cases fuel with
    | zero =>
        rw [h.1] at hexec
        cases (start.leafTree.exec_zero _ _).symm.trans hexec
    | succ fuel =>
        have hsame := (TreeOp.exec_deletes h.1 hdeletes fuel fun _ => .zero).symm.trans hexec
        obtain ⟨rfl, rfl⟩ := Prod.mk.inj (Option.some.inj hsame)
        rw [if_pos rfl, TreeOp.stored_deletes h.2 hdeletes] at hr
        exact ⟨_, ⟨rfl, rfl⟩, hr⟩

/-- A scan of a tree with one entry may give an entry that was never inserted. -/
theorem apple_scan_wrong : ¬ Surely TreeOp.wp ScansRight new_tree.state
    [.btree_insert insert_apple] := by
  intro hrun
  have hwp : (TreeOp.btree_insert insert_apple).wp new_tree.state
      (ScansRight new_tree.state (.btree_insert insert_apple)) :=
    TreeOp.wp_mono _ _ _ _ (fun _ h => h.1) hrun
  exact @deletes_of_wp new_tree _ rfl rfl _ hwp

end PreSeQL.Index
