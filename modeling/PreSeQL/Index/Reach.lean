/-
  PreSeQL.Index.Reach — what can be reached from a root, and runs of a tree.

  The entries of a tree are those of the leaves its root leads to, each page once: a
  bag of records, whatever their order and the shape of the tree.

    • `LeafTree.entries` — the entries of a tree whose root is a leaf,
    • `LeafTree.insert` — an insertion that finds room,
    • `TreeOp.wp` — what a call guarantees whatever uninitialised variables hold.
-/
import PreSeQL.Index.Filled
import PreSeQL.Index.Lookup
import PreSeQL.Index.StoreRun
import PreSeQL.Lib.Wp
import Mathlib.Algebra.BigOperators.Group.Finset.Basic

namespace PreSeQL.Index

open PreSeQL.Lib PreSeQL.Lib.Mem PreSeQL.Lib.Run PreSeQL.Db PreSeQL.Radix
open IndexStatus

/-! ## §1. The entries of a tree. -/

/-- The records of a page, in the order of its directory. -/
def page_records (m : Mem) (page : Nat) : List IndexSlotData :=
  (List.range (total_slots m page)).map fun i =>
    entry_record m page (slot_entry (slot_entries m page) i) .zero

/-- The pages a walk down from the root can come to. -/
inductive Reachable (pager : Pager) (root_page_id : UInt16) : UInt16 → Prop
  | root : Reachable pager root_page_id root_page_id
  | child {p : UInt16} {page : Nat} {slot : IndexSlotData} : Reachable pager root_page_id p →
      pager_get_page pager p = some page → IS_INTERNAL pager.mem page = true →
      slot ∈ page_records pager.mem page → Reachable pager root_page_id slot.next_page_id

open Classical in
/-- The pages among them that are leaves. -/
noncomputable def reachable_leaves (pager : Pager) (root_page_id : UInt16) : Finset UInt16 :=
  Finset.univ.filter fun p => Reachable pager root_page_id p
    ∧ ∃ page, pager_get_page pager p = some page ∧ IS_LEAF pager.mem page = true

open Classical in
theorem mem_reachable_leaves {pager : Pager} {root_page_id p : UInt16} :
    p ∈ reachable_leaves pager root_page_id ↔ Reachable pager root_page_id p
      ∧ ∃ page, pager_get_page pager p = some page ∧ IS_LEAF pager.mem page = true := by
  simp [reachable_leaves]

noncomputable def tree_entries (pager : Pager) (root_page_id : UInt16) :
    Multiset IndexSlotData :=
  ∑ p ∈ reachable_leaves pager root_page_id,
    (page_records pager.mem (p.toNat * PAGE_SIZE) : Multiset IndexSlotData)

section

variable {pager : Pager} {root_page_id : UInt16} {page : Nat}

/-- Nothing is below a leaf. -/
theorem reachable_leaf_iff (hpage : pager_get_page pager root_page_id = some page)
    (hleaf : IS_INTERNAL pager.mem page = false) (p : UInt16) :
    Reachable pager root_page_id p ↔ p = root_page_id := by
  constructor
  · intro h
    induction h with
    | root => rfl
    | child _ hget hinner _ ih =>
        subst ih
        obtain rfl := Option.some.inj (hpage.symm.trans hget)
        exact absurd hinner (by rw [hleaf]; decide)
  · intro h
    subst h
    exact .root

theorem tree_entries_leaf (hpage : pager_get_page pager root_page_id = some page)
    (hleaf : IS_LEAF pager.mem page = true ∧ IS_INTERNAL pager.mem page = false) :
    tree_entries pager root_page_id = page_records pager.mem page := by
  have hone : reachable_leaves pager root_page_id = {root_page_id} := by
    ext p
    rw [mem_reachable_leaves, Finset.mem_singleton, reachable_leaf_iff hpage hleaf.2]
    constructor
    · intro h
      exact h.1
    · intro h
      subst h
      exact ⟨rfl, page, hpage, hleaf.1⟩
  unfold tree_entries
  rw [hone, Finset.sum_singleton, (pager_get_page_eq_some hpage).2]

/-- A page is read from its own address on. -/
theorem page_records_frame {m m' : Mem} (hsame : m.SameOff 0 page m') :
    page_records m' page = page_records m page := by
  have htotal : total_slots m' page = total_slots m page := by
    rw [total_slots, total_slots, hsame.load8 (by simp)]
  have hentries : slot_entries m' page = slot_entries m page := by
    rw [slot_entries, slot_entries, hsame.load16 (by simp)]
  have habove : page ≤ slot_entries m page := by
    rw [slot_entries, DBPage.data]
    omega
  rw [page_records, page_records, htotal, hentries]
  refine List.map_congr_left fun i _ => ?_
  have hoffset : m'.load (SlotEntry.offset (slot_entry (slot_entries m page) i)) 8
      = m.load (SlotEntry.offset (slot_entry (slot_entries m page) i)) 8 :=
    hsame.load (by rw [SlotEntry.offset, slot_entry]; omega)
  have hsize : m'.load (SlotEntry.size (slot_entry (slot_entries m page) i)) 8
      = m.load (SlotEntry.size (slot_entry (slot_entries m page) i)) 8 :=
    hsame.load (by rw [SlotEntry.size, slot_entry]; omega)
  rw [entry_record, entry_record, hoffset, hsize, DBPage.data]
  generalize m.load _ 8 = offset
  generalize m.load _ 8 = size
  rw [read_record, read_record, hsame.load16 (by omega), hsame.load8 (by omega),
    hsame.load16 (by omega), hsame.load16 (by omega)]
  congr 2
  funext j
  rw [hsame.load8 (by omega)]

variable {pager' : Pager}

/-- A walk that does not come to page 0 is the same when only page 0 changes. -/
theorem Reachable.frame (hsame : pager.mem.SameOff 0 PAGE_SIZE pager'.mem)
    (h0 : ¬ Reachable pager root_page_id 0) {p : UInt16} (h : Reachable pager' root_page_id p) :
    Reachable pager root_page_id p := by
  induction h with
  | root => exact .root
  | @child q page slot _ hget hinner hslot ih =>
      have hne : q ≠ 0 := fun heq => h0 (heq ▸ ih)
      obtain ⟨hread, rfl⟩ := pager_get_page_eq_some hget
      have hpage : pager.mem.SameOff 0 (q.toNat * PAGE_SIZE) pager'.mem :=
        hsame.mono (Nat.le_refl 0) (PAGE_SIZE_le_page hne)
      rw [IS_INTERNAL, hpage.load8 (by simp)] at hinner
      rw [page_records_frame hpage] at hslot
      exact .child ih (pager_get_page_of_lt hread) hinner hslot

/-- Neither do the entries change. -/
theorem tree_entries_frame (hsame : pager.mem.SameOff 0 PAGE_SIZE pager'.mem)
    (h0 : ¬ Reachable pager root_page_id 0) :
    tree_entries pager' root_page_id = tree_entries pager root_page_id := by
  have hback : pager'.mem.SameOff 0 PAGE_SIZE pager.mem := fun i hi => (hsame i hi).symm
  have h0' : ¬ Reachable pager' root_page_id 0 := fun h => h0 (h.frame hsame h0)
  have hiff : ∀ p, Reachable pager' root_page_id p ↔ Reachable pager root_page_id p :=
    fun p => ⟨fun h => h.frame hsame h0, fun h => h.frame hback h0'⟩
  have hpage : ∀ {p}, Reachable pager root_page_id p →
      pager.mem.SameOff 0 (p.toNat * PAGE_SIZE) pager'.mem := fun {p} h =>
    hsame.mono (Nat.le_refl 0) (PAGE_SIZE_le_page fun heq => h0 (heq ▸ h))
  have hleaves : reachable_leaves pager' root_page_id = reachable_leaves pager root_page_id := by
    ext p
    rw [mem_reachable_leaves, mem_reachable_leaves, hiff]
    refine and_congr_right fun hreach => exists_congr fun page => and_congr_right fun hget => ?_
    obtain ⟨-, rfl⟩ := pager_get_page_eq_some hget
    rw [IS_LEAF, IS_LEAF, (hpage hreach).load8 (by simp)]
  rw [tree_entries, tree_entries, hleaves]
  refine Finset.sum_congr rfl fun p hp => ?_
  rw [page_records_frame (hpage (mem_reachable_leaves.mp hp).1)]

end

attribute [irreducible] tree_entries

/-- The records of a filled page are its slots. -/
theorem Filled.page_records {m : Mem} {page : Nat} {page_no : UInt16} {flag : UInt8}
    {slots : List IndexSlotData} (h : Filled m page page_no flag slots) :
    (Index.page_records m page).Perm slots := by
  have hrecords : Index.page_records m page
      = (entry_list m (directory page) slots.length).map fun e =>
          read_record m (DBPage.data page + e.offset) e.size .zero := by
    rw [Index.page_records, h.packed.total, h.packed.entries, entry_list, List.map_map]
    rfl
  rw [hrecords]
  refine (h.entries.map _).trans ?_
  rw [List.map_map]
  refine List.Perm.of_eq (List.ext_getElem (by simp) fun k hk hk' => ?_)
  rw [List.getElem_map, List.getElem_range]
  exact h.records k hk' .zero

/-! ## §2. Trees whose root is a leaf. -/

/-- The slot written by an insertion. -/
def Insertion.slot (op : Insertion) : IndexSlotData :=
  { IndexSlotData.zero with
    key := padded_key op.key.bytes, next_page_id := op.data_page_id,
    next_slot_id := op.data_slot_id }

/-- The root is a leaf filled with the slots. -/
structure LeafTree (tree : Tree) (slots : List IndexSlotData) : Prop where
  ne_zero : tree.root_page_id ≠ 0
  filled : ∃ page, pager_get_page tree.pager tree.root_page_id = some page
    ∧ Filled tree.pager.mem page tree.root_page_id PAGE_INDEX_LEAF slots

theorem EmptyTree.leafTree (start : EmptyTree) : LeafTree start.toTree [] := by
  obtain ⟨before, page, hinit⟩ := start.initialised
  exact ⟨start.ne_zero, page, init_index_page_filled hinit⟩

section

variable {tree : Tree} {slots : List IndexSlotData}

theorem LeafTree.entries (h : LeafTree tree slots) :
    tree_entries tree.pager tree.root_page_id = slots := by
  obtain ⟨page, hpage, hfilled⟩ := h.filled
  rw [tree_entries_leaf hpage hfilled.packed.leaf]
  exact Multiset.coe_eq_coe.mpr hfilled.page_records

/-- The page of the root is the filled one. -/
theorem LeafTree.filled_at (h : LeafTree tree slots) {page : Nat}
    (hpage : pager_get_page tree.pager tree.root_page_id = some page) :
    Filled tree.pager.mem page tree.root_page_id PAGE_INDEX_LEAF slots := by
  obtain ⟨page', hpage', hfilled⟩ := h.filled
  rwa [Option.some.inj (hpage.symm.trans hpage')]

theorem LeafTree.frame (h : LeafTree tree slots) {pager' : Pager} {lo hi : Nat}
    (hsame : tree.pager.mem.SameOff lo hi pager'.mem)
    (hoff : hi ≤ tree.root_page_id.toNat * PAGE_SIZE
      ∨ tree.root_page_id.toNat * PAGE_SIZE + PAGE_SIZE ≤ lo) :
    LeafTree ⟨tree.root_page_id, pager'⟩ slots := by
  obtain ⟨page, hpage, hfilled⟩ := h.filled
  refine ⟨h.ne_zero, page, hpage, hfilled.frame hsame ?_⟩
  rw [(pager_get_page_eq_some hpage).2]
  exact hoff.imp_right Or.inl

theorem LeafTree.reachable_iff (h : LeafTree tree slots) (p : UInt16) :
    Reachable tree.pager tree.root_page_id p ↔ p = tree.root_page_id := by
  obtain ⟨page, hpage, hfilled⟩ := h.filled
  exact reachable_leaf_iff hpage hfilled.packed.leaf.2 p

/-- **An insertion with room** appends its slot, in the page of the root. -/
theorem LeafTree.insert (h : LeafTree tree slots) (hroom : slots.length < 67) (op : Insertion)
    (fuel : Nat) (junk : Junk) :
    ∃ m', btree_insert (fuel + 1) tree.pager tree.root_page_id op.key.bytes op.data_page_id
        op.data_slot_id junk = some (PSQL_STATUS_OK, tree.root_page_id, tree.pager.withMem m')
      ∧ LeafTree ⟨tree.root_page_id, tree.pager.withMem m'⟩ (slots ++ [op.slot])
      ∧ tree.pager.mem.SameOff (tree.root_page_id.toNat * PAGE_SIZE)
          (tree.root_page_id.toNat * PAGE_SIZE + PAGE_SIZE) m' := by
  obtain ⟨page, hpage, hfilled⟩ := h.filled
  have hlen := op.key.le
  obtain ⟨m', hwrite, hfilled', hsame⟩ :=
    hfilled.write_room (by omega) hpage op.slot (junk.call 1)
  refine ⟨m', ?_, ⟨h.ne_zero, page, hpage, hfilled'⟩, ?_⟩
  · rw [btree_insert, if_neg (by omega), create_root, if_neg h.ne_zero]
    simp only [if_neg h.ne_zero, hpage, find_leaf, hfilled.packed.leaf.2, Bool.false_eq_true,
      if_false]
    have hused := hfilled'.packed.used_space
    rw [List.length_append, List.length_singleton] at hused
    -- the leaf is not full enough to be split
    rw [Insertion.slot] at hwrite
    simp only [insert_leaf, hfilled.packed.label, hwrite, Pager.withMem_mem, hused,
      FULL_THRESHOLD_10, MAX_USABLE_PAGE_SIZE_eq]
    rw [if_neg (by omega)]
  · rw [← (pager_get_page_eq_some hpage).2]
    refine hsame.mono (Nat.le_refl _) ?_
    simp

/-- **The 68th insertion** puts an inner page above the root, as long as the pages it asks for
can be read. -/
theorem LeafTree.insert_full (h : LeafTree tree slots) (hfull : slots.length = 67)
    (hleft : ReadableLeft tree.pager) (op : Insertion) (fuel : Nat) (junk : Junk) :
    ∃ tree' : Tree, btree_insert (fuel + 1) tree.pager tree.root_page_id op.key.bytes
        op.data_page_id op.data_slot_id junk
          = some (PSQL_STATUS_OK, tree'.root_page_id, tree'.pager)
      ∧ InnerRoot tree'.root_page_id tree'.pager := by
  obtain ⟨page, hpage, hfilled⟩ := h.filled
  have hlen := op.key.le
  obtain ⟨hstatus, hroot⟩ := insert_leaf_full hpage hfilled.packed h.ne_zero hleft hfull.ge
    op.key.bytes op.data_page_id op.data_slot_id junk
  refine ⟨⟨_, _⟩, ?_, hroot⟩
  rw [← hstatus, btree_insert, if_neg (by omega), create_root, if_neg h.ne_zero]
  simp only [if_neg h.ne_zero, hpage, find_leaf, hfilled.packed.leaf.2, Bool.false_eq_true, if_false]

/-- Insertions in a row, up to 67 slots. -/
theorem LeafTree.inserts (ops : List Insertion) : ∀ tree slots, LeafTree tree slots →
    slots.length + ops.length ≤ 67 → ∀ junk,
    ∃ m', tree.inserts 1 ops junk = some (List.replicate ops.length PSQL_STATUS_OK,
          ⟨tree.root_page_id, tree.pager.withMem m'⟩)
      ∧ LeafTree ⟨tree.root_page_id, tree.pager.withMem m'⟩ (slots ++ ops.map Insertion.slot)
      ∧ tree.pager.mem.SameOff (tree.root_page_id.toNat * PAGE_SIZE)
          (tree.root_page_id.toNat * PAGE_SIZE + PAGE_SIZE) m' := by
  induction ops with
  | nil =>
      intro tree slots h _ junk
      rw [List.map_nil, List.append_nil]
      exact ⟨tree.pager.mem, rfl, h, SameOff.refl _ _ _⟩
  | cons op ops ih =>
      intro tree slots h hroom junk
      rw [List.length_cons] at hroom
      obtain ⟨m₁, hinsert, h₁, hsame₁⟩ := h.insert (by omega) op 0 (junk.call 0)
      obtain ⟨m₂, hrest, h₂, hsame₂⟩ := ih _ _ h₁
        (by rw [List.length_append, List.length_singleton]; omega) (junk.call 1)
      refine ⟨m₂, ?_, ?_, hsame₁.trans hsame₂⟩
      · rw [Tree.inserts, hinsert]
        simp only [hrest]
        rfl
      · rw [List.map_cons, List.append_cons]
        exact h₂

end

/-! ## §3. Insertions in a run. -/

def Insertion.write (op : Insertion) : SlotOp := .write_index_slot op.slot fun _ => .zero

def Insertion.call (op : Insertion) (root_page_id : UInt16) : StoreOp :=
  .btree_insert 1 root_page_id op.key.bytes op.data_page_id op.data_slot_id fun _ => .zero

/-- Below a root that is a leaf the walk takes one round. -/
theorem btree_insert_leaf_root {pager : Pager} {root_page_id : UInt16} {key : List UInt8}
    {data_page_id : UInt16} {data_slot_id : UInt8} {junk : Junk} (h0 : root_page_id ≠ 0)
    (hlong : ¬ key.length > MAX_DATA_PER_INDEX_SLOT) (hread : root_page_id.toNat < MAX_PAGES)
    (hflag : pager.mem.load8 (DBPageHeader.flag (root_page_id.toNat * PAGE_SIZE)) = PAGE_INDEX_LEAF)
    (fuel : Nat) :
    btree_insert (fuel + 1) pager root_page_id key data_page_id data_slot_id junk
      = some (insert_leaf pager root_page_id (root_page_id.toNat * PAGE_SIZE) key data_page_id
        data_slot_id junk)
    ∧ btree_insert_calls (fuel + 1) pager root_page_id key data_page_id data_slot_id junk
      = insert_leaf_calls pager root_page_id (root_page_id.toNat * PAGE_SIZE) key data_page_id
        data_slot_id junk := by
  have hcreate : create_root pager root_page_id = (root_page_id, pager) := if_neg h0
  have hcalls : create_root_calls pager root_page_id = [] := if_neg h0
  have hinner : IS_INTERNAL pager.mem (root_page_id.toNat * PAGE_SIZE) = false := by
    rw [IS_INTERNAL, hflag]
    rfl
  unfold btree_insert btree_insert_calls
  simp only [if_neg hlong, hcreate, hcalls, if_neg h0, pager_get_page_of_lt hread, find_leaf, hinner,
    Bool.false_eq_true, if_false, List.nil_append, and_self]

section

variable {limit : Nat} {s : Store} {root_page_id : UInt16} {page : Nat} {P : SlotPage}

/-- A call that fits and does not make the page full. -/
def SlotPage.Takes (P : SlotPage) (op : SlotOp) : Prop := P.Fits op ∧ ¬ (P.exec op).Full

instance decidableTakes (P : SlotPage) (op : SlotOp) : Decidable (P.Takes op) :=
  inferInstanceAs (Decidable (_ ∧ _))

/-- The walk of an insertion below a leaf, and its write. -/
theorem Store.On.insert_leaf (h : s.On root_page_id page PAGE_INDEX_LEAF P) (h0 : root_page_id ≠ 0)
    (op : Insertion) (hfits : P.Fits op.write) :
    let junk : Junk := fun _ => .zero
    btree_insert 1 s.pager root_page_id op.key.bytes op.data_page_id op.data_slot_id junk
      = some (Index.insert_leaf s.pager root_page_id page op.key.bytes op.data_page_id
        op.data_slot_id junk)
    ∧ btree_insert_calls 1 s.pager root_page_id op.key.bytes op.data_page_id op.data_slot_id junk
      = insert_leaf_calls s.pager root_page_id page op.key.bytes op.data_page_id op.data_slot_id junk
    ∧ ∃ m', write_index_slot s.pager (header_page_id s.pager.mem page) op.slot junk
        = s.pager.withMem m'
      ∧ Slotted m' page root_page_id PAGE_INDEX_LEAF (P.exec op.write)
      ∧ (get_free_page (s.pager.withMem m')).1 = (get_free_page s.pager).1 := by
  intro junk
  obtain ⟨hslotted, hpage, -⟩ := h
  obtain ⟨hread, rfl⟩ := pager_get_page_eq_some hpage
  obtain ⟨hinsert, hcalls⟩ := @btree_insert_leaf_root s.pager root_page_id op.key.bytes
    op.data_page_id op.data_slot_id junk h0 (Nat.not_lt.mpr op.key.le) hread hslotted.flag 0
  obtain ⟨m', hwrite, hslotted', hsame⟩ := hslotted.write_fits hpage hfits op.slot junk
  have hlabel : header_page_id s.pager.mem (root_page_id.toNat * PAGE_SIZE) = root_page_id :=
    hslotted.page_id
  rw [hlabel]
  exact ⟨hinsert, hcalls, m', hwrite, hslotted',
    get_free_page_number (sameHeader_of_sameOff hsame (PAGE_SIZE_le_page h0))⟩

/-- The write is a call it may make. -/
theorem Store.On.write_allowed (h : s.On root_page_id page PAGE_INDEX_LEAF P) (op : Insertion)
    (hfits : P.Fits op.write) :
    (PageCall.write_index_slot (header_page_id s.pager.mem page) op.slot fun _ => .zero).Allowed limit
      s.pages s.pager := by
  have hlabel : header_page_id s.pager.mem page = root_page_id := h.slotted.page_id
  rw [hlabel]
  refine ⟨h.opened, fun a ha => ?_⟩
  rw [Option.some.inj (ha.symm.trans h.readable)]
  exact (h.slotted.fits_iff _).mpr hfits

/-- Below a leaf that takes its slot an insertion is one write. -/
theorem Store.On.insert (h : s.On root_page_id page PAGE_INDEX_LEAF P) (h0 : root_page_id ≠ 0)
    (op : Insertion) (htakes : P.Takes op.write) :
    (op.call root_page_id).Allowed limit s
      ∧ ((op.call root_page_id).exec s).On root_page_id page PAGE_INDEX_LEAF (P.exec op.write)
      ∧ (get_free_page ((op.call root_page_id).exec s).pager).1 = (get_free_page s.pager).1 := by
  obtain ⟨hinsert, hcalls, m', hwrite, hslotted, hnext⟩ := h.insert_leaf h0 op htakes.1
  have hallowed := @Store.On.write_allowed limit s root_page_id page P h op htakes.1
  -- the leaf is not full enough to be split
  have hsplits : ¬ 10 * USED_SPACE m' page > FULL_THRESHOLD_10 :=
    fun hgt => htakes.2 (hslotted.full_iff.mp hgt.le)
  have hjunk : Junk.call (fun _ => .zero) 1 = fun _ => .zero := rfl
  rw [Insertion.slot] at hwrite hallowed
  simp only [Index.insert_leaf, hjunk, hwrite, Pager.withMem_mem, if_neg hsplits] at hinsert
  simp only [insert_leaf_calls, hjunk, hwrite, Pager.withMem_mem, if_neg hsplits] at hcalls
  refine ⟨?_, ?_, ?_⟩
  · show Allowed limit s.pages _
    rw [Insertion.call, StoreOp.calls, hcalls]
    exact ⟨hallowed, trivial⟩
  · simp only [Insertion.call, StoreOp.exec, StoreOp.run, StoreOp.calls, hinsert, hcalls,
      Option.map_some]
    exact ⟨hslotted, h.readable, h.opened⟩
  · simp only [Insertion.call, StoreOp.exec, StoreOp.run, hinsert, Option.map_some]
    exact hnext

/-- **Insertions in a row** below a leaf that takes them. -/
theorem Store.On.inserts (h : s.On root_page_id page PAGE_INDEX_LEAF P) (h0 : root_page_id ≠ 0)
    {ops : List Insertion}
    (htakes : EachStep (fun P op => P.exec op.write) (fun P op => P.Takes op.write) P ops) :
    EachStep StoreOp.exec (StoreOp.Allowed limit) s (ops.map fun op => op.call root_page_id) := by
  refine (eachStep_of_simulates (R := Store.On root_page_id page PAGE_INDEX_LEAF)
    (fun op : Insertion => op.call root_page_id) (fun _ _ op h htakes => ?_) ops _ _ h htakes).1
  obtain ⟨hallowed, hinserted, -⟩ := h.insert h0 op htakes
  exact ⟨hallowed, hinserted⟩

end

/-- An insertion of a key of one byte. -/
def insert_byte (k : Nat) : Insertion :=
  ⟨⟨[UInt8.ofNat k], Nat.one_pos, Nat.le_add_left 1 15⟩, 100, UInt8.ofNat k⟩

/-- Four insertions into a new tree, and calls on an inner page. -/
def tree_run : List StoreOp :=
  .btree_init PSQL_STATUS_OK :: (([3, 1, 2, 4].map insert_byte).map (fun op => op.call 4)
    ++ .init_index_page 3 PAGE_INDEX_INTERNAL :: five_writes.map (SlotOp.on 3))

theorem tree_run_allowed :
    EachStep StoreOp.exec (StoreOp.Allowed 17)
      (newStore (pager_init_new_db .ok fresh_pager).2) tree_run := by
  have hroot : Store.On 4 (4 * PAGE_SIZE) PAGE_INDEX_LEAF _ .empty :=
    on_btree_init (newStore (pager_init_new_db .ok fresh_pager).2) (by decide +kernel) (by decide)
      (by decide)
  refine ⟨btree_init_allowed _ _, (eachStep_append _ _ _).mpr ⟨?_, ?_⟩⟩
  · exact hroot.inserts (by decide) (by decide +kernel)
  · exact allowed_on_page _ (by decide) (by decide) (.inr rfl) (by decide +kernel)

/-! ## §5. Runs. -/

inductive TreeOp where
  | btree_insert (op : Insertion)
  | btree_delete (key : Key)

/-- One call, following the root. -/
def TreeOp.exec (fuel : Nat) (tree : Tree) (junk : Junk) : TreeOp → Option (IndexStatus × Tree)
  | .btree_insert op =>
      (Index.btree_insert fuel tree.pager tree.root_page_id op.key.bytes op.data_page_id
        op.data_slot_id junk).map fun r => (r.1, ⟨r.2.1, r.2.2⟩)
  | .btree_delete key =>
      (Index.btree_delete fuel tree.pager tree.root_page_id key.bytes junk).map fun r =>
        (r.1, ⟨tree.root_page_id, r.2⟩)

/-- The walk to a root that is a leaf takes one round. -/
theorem LeafTree.exec_zero {tree : Tree} {slots : List IndexSlotData} (h : LeafTree tree slots)
    (op : TreeOp) (junk : Junk) : op.exec 0 tree junk = none := by
  obtain ⟨page, hpage, -⟩ := h.filled
  cases op with
  | btree_insert op =>
      have hlen := op.key.le
      rw [TreeOp.exec, btree_insert, if_neg (by omega), create_root, if_neg h.ne_zero]
      simp only [if_neg h.ne_zero, hpage, find_leaf, Option.map_none]
  | btree_delete key =>
      have hlen := key.le
      rw [TreeOp.exec, btree_delete, if_neg (by omega)]
      simp only [hpage, find_leaf_parent, Option.map_none]

/-- A tree, the status of the last call, and the insertions the calls should have left. -/
structure TreeState where
  tree : Tree
  status : IndexStatus
  stored : List Insertion

/-- What a call that returns OK should leave. -/
def TreeOp.stored (l : List Insertion) : TreeOp → List Insertion
  | .btree_insert op => l ++ [op]
  | .btree_delete key =>
      l.eraseP fun op => padded_key op.key.bytes = padded_key key.bytes

/-- Whatever the uninitialised variables hold, the call returns, and `R` holds behind it. -/
def TreeOp.wp (s : TreeState) (op : TreeOp) (R : TreeState → Prop) : Prop :=
  ∀ junk, ∃ fuel status tree, op.exec fuel s.tree junk = some (status, tree)
    ∧ R ⟨tree, status, if status = PSQL_STATUS_OK then op.stored s.stored else s.stored⟩

theorem TreeOp.wp_mono (s : TreeState) (op : TreeOp) (R R' : TreeState → Prop)
    (h : ∀ s', R s' → R' s') (hwp : op.wp s R) : op.wp s R' := by
  intro junk
  obtain ⟨fuel, status, tree, hexec, hr⟩ := hwp junk
  exact ⟨fuel, status, tree, hexec, h _ hr⟩

def EmptyTree.state (start : EmptyTree) : TreeState := ⟨start.toTree, PSQL_STATUS_OK, []⟩

end PreSeQL.Index
