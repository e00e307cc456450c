/-
  PreSeQL.Index.Deletion — which deletions are right.

  `btree_delete` looks for the key in the slot ids from 0 to `total_slots - 1`, of which
  the first is never filled, and frees the first whose key begins with the given one.
  So a key that is stored may stay, and another that begins with it may go.

    • `LeafTree.delete` — what a deletion does to a root that is a leaf,
    • `Tracks.harmless_of_wp` — one deletion,
    • `btree_delete_iff` — every run.
-/
import PreSeQL.Index.Reach
import PreSeQL.Index.SlotLayout

namespace PreSeQL.Index

open PreSeQL.Lib PreSeQL.Lib.Mem PreSeQL.Lib.Run PreSeQL.Lib.Wp PreSeQL.Db PreSeQL.Radix
open IndexStatus

/-! ## §1. The specification. -/

/-- One entry with the key is gone, or there was none. -/
def Removed (key : Key) (before after : Multiset IndexSlotData) : Prop :=
  (∃ e ∈ before, e.key = padded_key key.bytes ∧ after = before.erase e)
  ∨ (∀ e ∈ before, e.key ≠ padded_key key.bytes) ∧ after = before

/-- What a deletion should leave: the other entries, no page of the tree free, and free
pages in place of those the tree has lost. -/
structure DeleteRight (root_page_id : UInt16) (before after : Pager) (key : Key) : Prop where
  entries : Removed key (tree_entries before root_page_id) (tree_entries after root_page_id)
  live : ∀ p, Reachable after root_page_id p → p ∉ pages after.free_page_map.tree
  freed : ∀ p, Reachable before root_page_id p → ¬ Reachable after root_page_id p →
    p ∈ pages after.free_page_map.tree

/-- What a run asks of a call. -/
def TreeOp.Right (s : TreeState) (op : TreeOp) (s' : TreeState) : Prop :=
  match op with
  | .btree_insert _ => True
  | .btree_delete key => s'.status = PSQL_STATUS_OK →
      DeleteRight s'.tree.root_page_id s.tree.pager s'.tree.pager key

/-- The key is not stored, and no key but the last one inserted begins with it. -/
def Harmless (inserted : List Insertion) (key : Key) : Prop :=
  (∀ op ∈ inserted, ¬ op.key.Same key)
  ∧ ∀ op ∈ inserted.dropLast, ¬ key.bytes <+: (padded_key op.key.bytes).toList

/-! ## §2. Comparing. -/

theorem compare_keys_eq_zero_iff (key1 : List UInt8) : ∀ key2 : List UInt8,
    key1.length ≤ key2.length → (compare_keys key1 key2 key1.length = 0 ↔ key1 <+: key2) := by
  induction key1 with
  | nil => intro key2 _; simp [compare_keys]
  | cons a key1 ih =>
      intro key2 hlen
      cases key2 with
      | nil => cases hlen
      | cons b key2 =>
          rw [List.length_cons, compare_keys, List.cons_prefix_cons,
            ← ih key2 (by simpa using hlen)]
          by_cases hlt : a < b
          · simp [hlt, UInt8.ne_of_lt hlt]
          by_cases hgt : b < a
          · simp [hlt, hgt, (UInt8.ne_of_lt hgt).symm]
          · have heq : a = b := UInt8.le_antisymm (UInt8.not_lt.mp hgt) (UInt8.not_lt.mp hlt)
            simp [heq]

theorem Key.compare_iff (key : Key) (v : Vector UInt8 MAX_DATA_PER_INDEX_SLOT) :
    compare_keys key.bytes v.toList key.bytes.length = 0 ↔ key.bytes <+: v.toList :=
  compare_keys_eq_zero_iff _ _ (by simpa using key.le)

/-- A key begins its own padding. -/
theorem Key.prefix_padded (key : Key) : key.bytes <+: (padded_key key.bytes).toList := by
  rw [List.prefix_iff_getElem]
  refine ⟨by simpa using key.le, fun i hi => ?_⟩
  simp [padded_key, hi]

/-! ## §3. Deleting from a root that is a leaf. -/

section

variable {tree : Tree} {slots : List IndexSlotData}

/-- The walk ends at once, so the call is the search for the entry. -/
theorem LeafTree.delete (h : LeafTree tree slots) (key : Key) (fuel : Nat) (junk : Junk) :
    ∃ page, pager_get_page tree.pager tree.root_page_id = some page
      ∧ Filled tree.pager.mem page tree.root_page_id PAGE_INDEX_LEAF slots
      ∧ btree_delete (fuel + 1) tree.pager tree.root_page_id key.bytes junk
        = some (PSQL_STATUS_OK, delete_entry tree.pager page key.bytes ((junk.call 1).call 0)) := by
  obtain ⟨page, hpage, hfilled⟩ := h.filled
  have hlen := key.le
  refine ⟨page, hpage, hfilled, ?_⟩
  rw [btree_delete, if_neg (by omega)]
  simp only [hpage, find_leaf_parent, hfilled.packed.leaf.2, Bool.false_eq_true, if_false,
    delete_leaf]

end

section

variable {pager : Pager} {page : Nat} {page_no : UInt16} {flag : UInt8}
  {slots : List IndexSlotData}

/-- The key of a slot that can be read by its id. -/
theorem Filled.slot_key (h : Filled pager.mem page page_no flag slots)
    (hpage : pager_get_page pager page_no = some page) {k : Nat} (hk : k < slots.length)
    (hread : k + 1 < slots.length) (old : IndexSlotData) :
    Index.slot_key pager page (k + 1) old = slots[k].key.toList := by
  rw [Index.slot_key, h.packed.label, h.read_slot hpage hread]

/-- Slot 0 is what the variable holds. -/
theorem Filled.slot_key_zero (h : Filled pager.mem page page_no flag slots)
    (hpage : pager_get_page pager page_no = some page) (old : IndexSlotData) :
    Index.slot_key pager page 0 old = old.key.toList := by
  rw [Index.slot_key, h.packed.label, show UInt8.ofNat 0 = 0 from rfl,
    h.read_other hpage (Or.inl rfl)]

theorem getElem_mem_dropLast {k : Nat} (hk : k < slots.length) (hnext : k + 1 < slots.length) :
    slots[k] ∈ slots.dropLast := by
  have hlen : k < slots.dropLast.length := by
    rw [List.length_dropLast]
    omega
  rw [← List.getElem_dropLast hlen]
  exact List.getElem_mem hlen

/-- Nothing is freed when no slot but the last begins with the key, -/
theorem Filled.delete_entry_none (h : Filled pager.mem page page_no flag slots)
    (hpage : pager_get_page pager page_no = some page) {key : Key}
    (hnone : ∀ slot ∈ slots.dropLast, ¬ key.bytes <+: slot.key.toList) (junk : Junk) :
    delete_entry pager page key.bytes junk = pager := by
  unfold delete_entry
  split
  next i hfind =>
    have hi := List.mem_range.mp (List.mem_of_find?_eq_some hfind)
    have hkey := List.find?_some hfind
    rw [h.packed.total] at hi
    rw [h.packed.label]
    cases i with
    | zero => exact h.free_other hpage (Or.inl rfl)
    | succ k =>
        -- the slot is not the last, which cannot be read
        rw [decide_eq_true_eq, h.slot_key hpage (Nat.lt_of_succ_lt hi) hi, key.compare_iff] at hkey
        exact absurd hkey (hnone _ (getElem_mem_dropLast (Nat.lt_of_succ_lt hi) hi))
  next => rfl

/-- or when the variable holds the key itself, -/
theorem Filled.delete_entry_same (h : Filled pager.mem page page_no flag slots)
    (hpage : pager_get_page pager page_no = some page) (key : Key) (junk : Junk)
    (hjunk : (junk [0]).key = padded_key key.bytes) :
    delete_entry pager page key.bytes junk = pager := by
  unfold delete_entry
  rw [h.packed.total, h.packed.label]
  cases hlen : slots.length with
  | zero => rfl
  | succ c =>
      have hzero : compare_keys key.bytes (Index.slot_key pager page 0 (junk [0])) key.bytes.length
          = 0 := by
        rw [h.slot_key_zero hpage, key.compare_iff, hjunk]
        exact key.prefix_padded
      rw [List.range_succ_eq_map, List.find?_cons_of_pos (by simpa using hzero)]
      exact h.free_other hpage (Or.inl rfl)

/-- and otherwise the first slot that begins with it. -/
theorem Filled.delete_entry_some (h : Filled pager.mem page page_no flag slots)
    (hpage : pager_get_page pager page_no = some page) {key : Key} (junk : Junk)
    (hjunk : ¬ key.bytes <+: (junk [0]).key.toList)
    (hsome : ∃ slot ∈ slots.dropLast, key.bytes <+: slot.key.toList) :
    ∃ k, k + 1 < slots.length
      ∧ delete_entry pager page key.bytes junk
        = free_index_slot pager page_no (UInt8.ofNat (k + 1)) := by
  obtain ⟨slot, hslot, hprefix⟩ := hsome
  obtain ⟨l, hl, rfl⟩ := List.getElem_of_mem hslot
  rw [List.length_dropLast] at hl
  rw [List.getElem_dropLast] at hprefix
  unfold delete_entry
  rw [h.packed.total, h.packed.label]
  split
  next i hfind =>
    have hi := List.mem_range.mp (List.mem_of_find?_eq_some hfind)
    have hkey := List.find?_some hfind
    rw [decide_eq_true_eq] at hkey
    cases i with
    | zero =>
        rw [h.slot_key_zero hpage, key.compare_iff] at hkey
        exact absurd hkey hjunk
    | succ k => exact ⟨k, hi, rfl⟩
  next hfind =>
    -- the loop does not pass over the slot
    rw [List.find?_eq_none] at hfind
    refine absurd ?_ (hfind (l + 1) (List.mem_range.mpr (by omega)))
    rw [decide_eq_true_eq, h.slot_key hpage (by omega) (by omega), key.compare_iff]
    exact hprefix

end

/-! ## §4. One deletion. -/

/-- The variable holds no key that begins like the given one. -/
def Key.other (key : Key) : IndexSlotData :=
  { IndexSlotData.zero with key := Vector.replicate _ (key.bytes.headD 0 + 1) }

theorem Key.not_prefix_other (key : Key) : ¬ key.bytes <+: key.other.key.toList := by
  have hpos := key.pos
  cases hbytes : key.bytes with
  | nil => rw [hbytes] at hpos; cases hpos
  | cons a rest =>
      intro h
      have hfirst : key.other.key.toList = (a + 1) :: List.replicate 15 (a + 1) := by
        simp [Key.other, hbytes, MAX_DATA_PER_INDEX_SLOT, List.replicate_succ]
      rw [hfirst, List.cons_prefix_cons] at h
      have := h.1
      grind

/-- The variable holds the key. -/
def Key.itself (key : Key) : IndexSlotData :=
  { IndexSlotData.zero with key := padded_key key.bytes }

section

variable {tree : Tree} {slots : List IndexSlotData} {key : Key}

/-- When the variable holds the key, nothing is deleted, -/
theorem LeafTree.delete_itself (h : LeafTree tree slots) (key : Key) (fuel : Nat) :
    btree_delete (fuel + 1) tree.pager tree.root_page_id key.bytes (fun _ => key.itself)
      = some (PSQL_STATUS_OK, tree.pager) := by
  obtain ⟨page, hpage, hfilled, hdelete⟩ := h.delete key fuel fun _ => key.itself
  have hsame := hfilled.delete_entry_same hpage key
    ((Junk.call (fun _ => key.itself) 1).call 0) rfl
  rw [hdelete, hsame]

/-- and when it holds another, any slot but the last may be. -/
theorem LeafTree.delete_other (h : LeafTree tree slots)
    (hsome : ∃ slot ∈ slots.dropLast, key.bytes <+: slot.key.toList) (fuel : Nat) :
    ∃ k, k + 1 < slots.length
      ∧ btree_delete (fuel + 1) tree.pager tree.root_page_id key.bytes (fun _ => key.other)
        = some (PSQL_STATUS_OK,
            free_index_slot tree.pager tree.root_page_id (UInt8.ofNat (k + 1))) := by
  obtain ⟨page, hpage, hfilled, hdelete⟩ := h.delete key fuel fun _ => key.other
  obtain ⟨k, hk, hfree⟩ := hfilled.delete_entry_some hpage
    ((Junk.call (fun _ => key.other) 1).call 0) key.not_prefix_other hsome
  refine ⟨k, hk, ?_⟩
  rw [hdelete, hfree]

/-- A deletion that changes nothing is right when the key is not there. -/
theorem LeafTree.deleteRight_same (h : LeafTree tree slots)
    (hused : tree.root_page_id ∉ pages tree.pager.free_page_map.tree) :
    DeleteRight tree.root_page_id tree.pager tree.pager key
      ↔ ∀ slot ∈ slots, slot.key ≠ padded_key key.bytes := by
  constructor
  · intro hright slot hslot hkey
    rw [← Multiset.mem_coe, ← h.entries] at hslot
    rcases hright.entries with ⟨e, he, -, hafter⟩ | ⟨hnone, -⟩
    · -- an entry less is not the same
      have hcard := congrArg Multiset.card hafter
      rw [Multiset.card_erase_of_mem he, Nat.pred_eq_sub_one] at hcard
      have hpos := Multiset.card_pos_iff_exists_mem.mpr ⟨e, he⟩
      omega
    · exact hnone slot hslot hkey
  · intro hnone
    refine ⟨Or.inr ⟨fun e he => ?_, rfl⟩, fun p hp => ?_, fun p hp hnot => absurd hp hnot⟩
    · rw [h.entries, Multiset.mem_coe] at he
      exact hnone e he
    · rw [h.reachable_iff] at hp
      rwa [hp]

/-- Freeing a slot leaves one entry less, and the other pages as they are. -/
theorem LeafTree.free_slot (h : LeafTree tree slots) {k : Nat} (hk : k + 1 < slots.length) :
    ∃ m', free_index_slot tree.pager tree.root_page_id (UInt8.ofNat (k + 1)) = tree.pager.withMem m'
      ∧ (tree_entries (tree.pager.withMem m') tree.root_page_id).card = slots.length - 1
      ∧ tree.pager.mem.SameOff (tree.root_page_id.toNat * PAGE_SIZE)
          (tree.root_page_id.toNat * PAGE_SIZE + PAGE_SIZE) m' := by
  obtain ⟨page, hpage, hfilled⟩ := h.filled
  obtain ⟨htotal, -⟩ := hfilled.free_slot_account hpage hk
  obtain ⟨m', hfree, -, hsame⟩ := free_index_slot_keeps hfilled.packed.directoryOk hpage
    (UInt8.ofNat (k + 1))
  refine ⟨m', hfree, ?_, ?_⟩
  · -- the flag is in front of what was written
    have hleaf : IS_LEAF (tree.pager.withMem m').mem page = true
        ∧ IS_INTERNAL (tree.pager.withMem m').mem page = false := by
      have hflag : m'.load8 (DBPageHeader.flag page)
          = tree.pager.mem.load8 (DBPageHeader.flag page) :=
        hsame.load8 (Or.inl (by simp only [DBPageHeader.flag]; omega))
      rw [Pager.withMem_mem, IS_LEAF, IS_INTERNAL, hflag]
      exact hfilled.packed.leaf
    have hpage' : pager_get_page (tree.pager.withMem m') tree.root_page_id = some page := hpage
    rw [hfree] at htotal
    rw [tree_entries_leaf hpage' hleaf, Multiset.coe_card, page_records, List.length_map,
      List.length_range]
    exact htotal
  · rw [← (pager_get_page_eq_some hpage).2]
    exact hsame.mono (Nat.le_add_right _ _) (Nat.le_refl _)

/-- A deletion that frees a slot is not right when the key is not there. -/
theorem LeafTree.not_deleteRight_free (h : LeafTree tree slots)
    (hnone : ∀ slot ∈ slots, slot.key ≠ padded_key key.bytes) {k : Nat}
    (hk : k + 1 < slots.length) :
    ¬ DeleteRight tree.root_page_id tree.pager
      (free_index_slot tree.pager tree.root_page_id (UInt8.ofNat (k + 1))) key := by
  obtain ⟨m', hfree, hcard, -⟩ := h.free_slot hk
  rw [hfree]
  intro hright
  have hentries := hright.entries
  rw [h.entries] at hentries
  rcases hentries with ⟨e, he, hkey, -⟩ | ⟨-, heq⟩
  · exact hnone e (Multiset.mem_coe.mp he) hkey
  · rw [heq, Multiset.coe_card] at hcard
    omega

end

/-! ## §5. Runs. -/

/-- What is known of the state after a run that is right so far: the root is a leaf in
use and holds what was inserted. -/
structure Tracks (inserted : List Insertion) (s : TreeState) : Prop where
  leaf : LeafTree s.tree (inserted.map Insertion.slot)
  used : s.tree.root_page_id ∉ pages s.tree.pager.free_page_map.tree

def track_insertions (inserted : List Insertion) : TreeOp → List Insertion
  | .btree_insert op => inserted ++ [op]
  | .btree_delete _ => inserted

/-- An insertion is one of the first 67, which the root has room for. -/
def TreeOp.HasRoom (inserted : List Insertion) : TreeOp → Prop
  | .btree_insert _ => inserted.length < 67
  | .btree_delete _ => True

/-- The condition of a deletion. -/
def TreeOp.Harmless (inserted : List Insertion) : TreeOp → Prop
  | .btree_insert _ => True
  | .btree_delete key => Index.Harmless inserted key

section

variable {inserted : List Insertion} {s : TreeState}

theorem Tracks.insert (h : Tracks inserted s) (hroom : inserted.length < 67) (op : Insertion)
    (fuel : Nat) (junk : Junk) :
    ∃ tree, (TreeOp.btree_insert op).exec (fuel + 1) s.tree junk = some (PSQL_STATUS_OK, tree)
      ∧ (∀ stored, Tracks (inserted ++ [op]) ⟨tree, PSQL_STATUS_OK, stored⟩)
      ∧ (ReadableLeft s.tree.pager → ReadableLeft tree.pager) := by
  obtain ⟨m', hinsert, hleaf, hsame⟩ := h.leaf.insert (by rwa [List.length_map]) op fuel junk
  refine ⟨⟨s.tree.root_page_id, s.tree.pager.withMem m'⟩, ?_, fun stored => ⟨?_, h.used⟩, ?_⟩
  · simp only [TreeOp.exec, hinsert, Option.map_some]
  · rw [List.map_append]
    exact hleaf
  · intro hleft
    exact hleft.of_sameHeader (sameHeader_of_sameOff hsame (PAGE_SIZE_le_page h.leaf.ne_zero))

/-- The 68th insertion. -/
theorem Tracks.insert_full (h : Tracks inserted s) (hfull : inserted.length = 67)
    (hleft : ReadableLeft s.tree.pager) (op : Insertion) (fuel : Nat) (junk : Junk) :
    ∃ tree, (TreeOp.btree_insert op).exec (fuel + 1) s.tree junk = some (PSQL_STATUS_OK, tree)
      ∧ InnerRoot tree.root_page_id tree.pager := by
  obtain ⟨tree, hinsert, hroot⟩ := h.leaf.insert_full (by rwa [List.length_map]) hleft op fuel junk
  refine ⟨tree, ?_, hroot⟩
  simp only [TreeOp.exec, hinsert, Option.map_some]

/-- A harmless deletion changes nothing. -/
theorem Tracks.delete (h : Tracks inserted s) {key : Key} (hharmless : Index.Harmless inserted key)
    (fuel : Nat) (junk : Junk) :
    (TreeOp.btree_delete key).exec (fuel + 1) s.tree junk = some (PSQL_STATUS_OK, s.tree) := by
  obtain ⟨page, hpage, hfilled, hdelete⟩ := h.leaf.delete key fuel junk
  rw [TreeOp.exec, hdelete, hfilled.delete_entry_none hpage]
  · rfl
  · intro slot hslot
    rw [← List.map_dropLast] at hslot
    obtain ⟨op, hop, rfl⟩ := List.mem_map.mp hslot
    exact hharmless.2 op hop

/-- What a harmless deletion should do is nothing. -/
theorem Tracks.deleteRight_iff (h : Tracks inserted s) (key : Key) :
    DeleteRight s.tree.root_page_id s.tree.pager s.tree.pager key
      ↔ ∀ op ∈ inserted, ¬ op.key.Same key := by
  rw [h.leaf.deleteRight_same h.used, List.forall_mem_map]
  rfl

/-- **One deletion** that is right whatever the variables hold is harmless. -/
theorem Tracks.harmless_of_wp (h : Tracks inserted s) {key : Key}
    (hwp : (TreeOp.btree_delete key).wp s ((TreeOp.btree_delete key).Right s)) :
    Index.Harmless inserted key := by
  -- what a call leaves behind, with one content for all variables
  have hright : ∀ slot : IndexSlotData, ∃ fuel, ∀ pager,
      Index.btree_delete (fuel + 1) s.tree.pager s.tree.root_page_id key.bytes (fun _ => slot)
        = some (PSQL_STATUS_OK, pager) →
      DeleteRight s.tree.root_page_id s.tree.pager pager key := by
    intro slot
    obtain ⟨fuel, status, tree, hexec, hright⟩ := hwp fun _ => slot
    cases fuel with
    | zero => cases (h.leaf.exec_zero _ _).symm.trans hexec
    | succ fuel =>
        refine ⟨fuel, fun pager hdelete => ?_⟩
        rw [TreeOp.exec, hdelete, Option.map_some] at hexec
        obtain ⟨rfl, rfl⟩ := Prod.mk.inj (Option.some.inj hexec)
        exact hright rfl
  have hnone : ∀ op ∈ inserted, ¬ op.key.Same key := by
    -- the search may find the key in its own variable
    obtain ⟨fuel, hright⟩ := hright key.itself
    exact (h.deleteRight_iff key).mp (hright _ (h.leaf.delete_itself key fuel))
  refine ⟨hnone, fun op hop hprefix => ?_⟩
  -- or pass over it, and free what it finds
  obtain ⟨fuel, hright⟩ := hright key.other
  have hsome : ∃ slot ∈ (inserted.map Insertion.slot).dropLast, key.bytes <+: slot.key.toList := by
    rw [← List.map_dropLast]
    exact ⟨op.slot, List.mem_map_of_mem hop, hprefix⟩
  obtain ⟨k, hk, hdelete⟩ := h.leaf.delete_other hsome fuel
  exact h.leaf.not_deleteRight_free (List.forall_mem_map.mpr hnone) hk (hright _ hdelete)

/-- Below an inner root a deletion ends at a `NULL` page, -/
theorem InnerRoot.delete_none {root_page_id : UInt16} {pager : Pager}
    (h : InnerRoot root_page_id pager) (key : Key) (fuel : Nat) :
    btree_delete fuel pager root_page_id key.bytes (top_junk 0) = none := by
  obtain ⟨page, hpage, hpacked⟩ := h.packed
  have hlen := key.le
  have hnext := hpacked.next_child_top hpage hlen 0
  rw [btree_delete, if_neg (by omega)]
  simp only [hpage]
  cases fuel with
  | zero => rfl
  | succ fuel =>
      rw [find_leaf_parent, if_pos hpacked.inner.2]
      simp only [top_junk_call, hnext]

/-- so no call returns when the variables point to a missing page. -/
theorem InnerRoot.exec_none {tree : Tree} (h : InnerRoot tree.root_page_id tree.pager) (op : TreeOp)
    (fuel : Nat) : op.exec fuel tree (top_junk 0) = none := by
  cases op with
  | btree_insert op => rw [TreeOp.exec, h.insert_none, Option.map_none]
  | btree_delete key => rw [TreeOp.exec, h.delete_none, Option.map_none]

/-- **One call** that is harmless, up to the 67th insertion. -/
theorem Tracks.call (h : Tracks inserted s) {op : TreeOp} (hroom : op.HasRoom inserted)
    (hharmless : op.Harmless inserted) (fuel : Nat) (junk : Junk) :
    ∃ tree, op.exec (fuel + 1) s.tree junk = some (PSQL_STATUS_OK, tree)
      ∧ (∀ stored, op.Right s ⟨tree, PSQL_STATUS_OK, stored⟩
        ∧ Tracks (track_insertions inserted op) ⟨tree, PSQL_STATUS_OK, stored⟩)
      ∧ (ReadableLeft s.tree.pager → ReadableLeft tree.pager) := by
  cases op with
  | btree_insert op =>
      obtain ⟨tree, hexec, htracks, hleft⟩ := h.insert hroom op fuel junk
      exact ⟨tree, hexec, fun stored => ⟨trivial, htracks stored⟩, hleft⟩
  | btree_delete key =>
      refine ⟨s.tree, h.delete hharmless fuel junk, fun stored => ⟨fun _ => ?_, h.leaf, h.used⟩, id⟩
      exact (h.deleteRight_iff key).mpr hharmless.1

/-- What a call leads to when it returns the same for all fuel that is enough. -/
theorem TreeOp.wp_meet {op : TreeOp} {R : TreeState → Prop} {K : IndexStatus → Tree → Prop}
    (hzero : op.exec 0 s.tree (fun _ => .zero) = none)
    (hcall : ∀ fuel, ∃ status tree,
      op.exec (fuel + 1) s.tree (fun _ => .zero) = some (status, tree) ∧ K status tree)
    (hwp : op.wp s R) :
    ∃ status tree stored, K status tree ∧ R ⟨tree, status, stored⟩ := by
  obtain ⟨fuel, status, tree, hexec, hr⟩ := hwp fun _ => .zero
  cases fuel with
  | zero => cases hzero.symm.trans hexec
  | succ fuel =>
      obtain ⟨status', tree', hexec', hk⟩ := hcall fuel
      obtain ⟨rfl, rfl⟩ := Prod.mk.inj (Option.some.inj (hexec'.symm.trans hexec))
      exact ⟨_, _, _, hk, hr⟩

theorem TreeOp.harmless_of_wp (h : Tracks inserted s) {op : TreeOp} (hwp : op.wp s (op.Right s)) :
    op.Harmless inserted := by
  cases op with
  | btree_insert op => exact trivial
  | btree_delete key => exact h.harmless_of_wp hwp

/-- The first 67 insertions fill the root, the next one puts an inner page above it. -/
def Fills (inserted : List Insertion) (s : TreeState) : Prop :=
  inserted.length ≤ 67 ∧ Tracks inserted s ∧ ReadableLeft s.tree.pager
  ∨ inserted.length = 68 ∧ InnerRoot s.tree.root_page_id s.tree.pager

def TreeOp.BeforeSplit (inserted : List Insertion) (op : TreeOp) : Prop :=
  inserted.length < 68 ∧ op.Harmless inserted

/-- **One call** before the split. -/
theorem Fills.call (h : Fills inserted s) {op : TreeOp} (hbefore : op.BeforeSplit inserted) :
    op.exec 0 s.tree (fun _ => .zero) = none
    ∧ ∀ fuel junk, ∃ status tree, op.exec (fuel + 1) s.tree junk = some (status, tree)
      ∧ ∀ stored, op.Right s ⟨tree, status, stored⟩
        ∧ Fills (track_insertions inserted op) ⟨tree, status, stored⟩ := by
  obtain ⟨hlen, hharmless⟩ := hbefore
  obtain ⟨hle, htracks, hleft⟩ | ⟨heq, -⟩ := h
  · refine ⟨htracks.leaf.exec_zero op _, fun fuel junk => ?_⟩
    by_cases hroom : op.HasRoom inserted
    · obtain ⟨tree, hexec, hright, hkeeps⟩ := htracks.call hroom hharmless fuel junk
      refine ⟨_, tree, hexec, fun stored =>
        ⟨(hright stored).1, .inl ⟨?_, (hright stored).2, hkeeps hleft⟩⟩⟩
      cases op with
      | btree_insert op =>
          rw [track_insertions, List.length_append, List.length_singleton]
          exact hroom
      | btree_delete key => exact hle
    · -- it is the 68th insertion
      cases op with
      | btree_insert op =>
          have hfull : inserted.length = 67 := Nat.le_antisymm hle (Nat.not_lt.mp hroom)
          obtain ⟨tree, hexec, hroot⟩ := htracks.insert_full hfull hleft op fuel junk
          refine ⟨_, tree, hexec, fun stored => ⟨trivial, .inr ⟨?_, hroot⟩⟩⟩
          rw [track_insertions, List.length_append, List.length_singleton, hfull]
      | btree_delete key => exact absurd trivial hroom
  · omega

end

/-- **Deletions are right** throughout a run of at most 67 insertions, whatever
uninitialised variables hold, exactly when all of them are harmless.  With readable pages left
no run goes on rightly behind the 68th insertion. -/
theorem btree_delete_iff (start : EmptyTree)
    (hused : start.root_page_id ∉ pages start.pager.free_page_map.tree) (ops : List TreeOp) :
    (EachStep track_insertions TreeOp.HasRoom [] ops →
      (Surely TreeOp.wp TreeOp.Right start.state ops
        ↔ EachStep track_insertions TreeOp.Harmless [] ops))
    ∧ (ReadableLeft start.pager →
      (Surely TreeOp.wp TreeOp.Right start.state ops
        ↔ EachStep track_insertions
          (fun inserted op => inserted.length < 68 ∧ op.Harmless inserted) [] ops)) := by
  constructor
  · refine surely_iff_tracked (I := Tracks) TreeOp.wp_mono (fun t s op h hroom hsafe junk => ?_)
      (fun t s op R h hroom hsafe hwp => ?_)
      (fun t s op h _ hwp => TreeOp.harmless_of_wp h hwp) ops [] start.state
      ⟨start.leafTree, hused⟩
    · obtain ⟨tree, hexec, hright, -⟩ := h.call hroom hsafe 0 junk
      exact ⟨1, _, tree, hexec, hright _⟩
    · -- the state it leads to is the same for any fuel that is enough
      have hcall : ∀ fuel, ∃ status tree, op.exec (fuel + 1) s.tree (fun _ => .zero)
          = some (status, tree)
          ∧ ∀ stored, Tracks (track_insertions t op) ⟨tree, status, stored⟩ := by
        intro fuel
        obtain ⟨tree, hexec, hright, -⟩ := h.call hroom hsafe fuel fun _ => .zero
        exact ⟨_, tree, hexec, fun stored => (hright stored).2⟩
      obtain ⟨_, _, stored, htracks, hr⟩ := TreeOp.wp_meet (h.leaf.exec_zero op _) hcall hwp
      exact ⟨_, htracks stored, hr⟩
  · intro hleft
    refine surely_iff_tracked (I := Fills) (H := fun _ _ => True) (G := TreeOp.BeforeSplit)
      TreeOp.wp_mono (fun t s op h _ hbefore junk => ?_) (fun t s op R h _ hbefore hwp => ?_)
      (fun t s op h _ hwp => ?_) ops [] start.state
      (.inl ⟨Nat.zero_le _, ⟨start.leafTree, hused⟩, hleft⟩)
      ((eachStep_iff_forall ops []).mpr fun _ _ => trivial)
    · obtain ⟨status, tree, hexec, hright⟩ := (h.call hbefore).2 0 junk
      exact ⟨1, status, tree, hexec, hright _⟩
    · obtain ⟨hzero, hcall⟩ := h.call hbefore
      obtain ⟨_, _, stored, hfills, hr⟩ :=
        TreeOp.wp_meet hzero (fun fuel => hcall fuel fun _ => .zero) hwp
      exact ⟨_, (hfills stored).2, hr⟩
    · obtain ⟨hle, htracks, -⟩ | ⟨-, hinner⟩ := h
      · exact ⟨by omega, TreeOp.harmless_of_wp htracks hwp⟩
      · -- the call does not return
        obtain ⟨fuel, status, tree, hexec, -⟩ := hwp (top_junk 0)
        cases (hinner.exec_none op fuel).symm.trans hexec

/-- An apple is inserted, then deleted. -/
def apple_ops : List TreeOp := [.btree_insert insert_apple, .btree_delete insert_apple.key]

/-- The tracker of a new database is empty. -/
theorem new_tree_pages : pages new_tree.pager.free_page_map.tree = ∅ := by
  have hmap : new_tree.pager.free_page_map.tree = radix_tree_create := by rfl
  rw [hmap, pages_create]

theorem new_tree_used : new_tree.root_page_id ∉ pages new_tree.pager.free_page_map.tree := by
  rw [new_tree_pages]
  exact Finset.notMem_empty _

theorem new_tree_left : ReadableLeft new_tree.pager := by
  refine ⟨by decide +kernel, by decide +kernel, fun p hp => ?_⟩
  rw [new_tree_pages] at hp
  exact absurd hp (Finset.notMem_empty p)

theorem new_tree_tracks : Tracks [] new_tree.state := ⟨new_tree.leafTree, new_tree_used⟩

theorem btree_delete_iff_apple :
    (Surely TreeOp.wp TreeOp.Right new_tree.state apple_ops
      ↔ EachStep track_insertions TreeOp.Harmless [] apple_ops)
    ∧ (Surely TreeOp.wp TreeOp.Right new_tree.state apple_ops
      ↔ EachStep track_insertions
        (fun inserted op => inserted.length < 68 ∧ op.Harmless inserted) [] apple_ops) := by
  obtain ⟨hshort, hlong⟩ := btree_delete_iff new_tree new_tree_used apple_ops
  exact ⟨hshort ⟨Nat.succ_pos 66, trivial, trivial⟩, hlong new_tree_left⟩

/-- When the search compares the key with itself in its uninitialised variable, the entry
stays. -/
theorem apple_not_deleted : ¬ Surely TreeOp.wp TreeOp.Right new_tree.state apple_ops := by
  intro hrun
  obtain ⟨fuel, status, tree, hexec, -, hdelete⟩ := hrun fun _ => .zero
  cases fuel with
  | zero => cases (new_tree.leafTree.exec_zero _ _).symm.trans hexec
  | succ fuel =>
      obtain ⟨tree', hexec', htracks, -⟩ :=
        new_tree_tracks.insert (Nat.succ_pos 66) insert_apple fuel fun _ => .zero
      obtain ⟨rfl, rfl⟩ := Prod.mk.inj (Option.some.inj (hexec'.symm.trans hexec))
      have hharmless := (htracks _).harmless_of_wp
        (TreeOp.wp_mono _ _ _ _ (fun _ h => h.1) hdelete)
      exact hharmless.1 insert_apple (List.mem_singleton_self _) rfl

end PreSeQL.Index
