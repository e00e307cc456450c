/-
  PreSeQL.Index.Failure — what a failed insertion leaves behind.

  `btree_insert` writes its slot before it splits the leaf, and splits the leaf before it
  asks for the page of a new root.  Nothing is taken back when a later step fails.

    • `btree_insert_untouched` — failures before anything is written,
    • `IndexPages.sameTree_iff` — failures below a root that is a leaf,
    • `failed_insert_iff` — every run.
-/
import PreSeQL.Index.Split

namespace PreSeQL.Index

open PreSeQL.Lib PreSeQL.Lib.Mem PreSeQL.Lib.Run PreSeQL.Db PreSeQL.Radix
open IndexStatus

/-! ## §1. The specification. -/

/-- The same entries below the root, the same siblings and the same free pages. -/
structure SameTree (root_page_id : UInt16) (before after : Pager) : Prop where
  entries : ∀ e, e ∈ tree_entries after root_page_id ↔ e ∈ tree_entries before root_page_id
  siblings : ∀ p : UInt16, p ≠ 0 →
    after.mem.load16 (DBPageHeader.right_sibling_page_id (p.toNat * PAGE_SIZE))
      = before.mem.load16 (DBPageHeader.right_sibling_page_id (p.toNat * PAGE_SIZE))
  free : pages after.free_page_map.tree = pages before.free_page_map.tree

theorem SameTree.refl (root_page_id : UInt16) (pager : Pager) :
    SameTree root_page_id pager pager :=
  ⟨fun _ => Iff.rfl, fun _ _ => rfl, rfl⟩

/-- The slot an insertion writes. -/
def new_slot (key : List UInt8) (data_page_id : UInt16) (data_slot_id : UInt8) : IndexSlotData :=
  { IndexSlotData.zero with
    key := padded_key key, next_page_id := data_page_id, next_slot_id := data_slot_id }

/-- The test of `write_index_slot`. -/
def Refuses (m : Mem) (page : Nat) : Prop := 10 * USED_SPACE m page ≥ FULL_THRESHOLD_10

/-- No page is handed out, or a free one that cannot be read, which goes back.  The header it
goes through is whole and no part of the tree. -/
def HandsOutNone (pager : Pager) (root_page_id : UInt16) : Prop :=
  (get_free_page pager).1 = 0
  ∨ ¬ (get_free_page pager).1.toNat < MAX_PAGES
    ∧ (get_free_page pager).1 ∈ pages pager.free_page_map.tree
    ∧ pager.ListFits ∧ ¬ Reachable pager root_page_id 0

/-- The key is too long, or the root cannot be read, or the leaf at the end of the walk
refuses the slot and no page is handed out. -/
def FailsUntouched (fuel : Nat) (pager : Pager) (root_page_id : UInt16) (key : List UInt8)
    (junk : Junk) : Prop :=
  key.length > MAX_DATA_PER_INDEX_SLOT
  ∨ ¬ root_page_id.toNat < MAX_PAGES
  ∨ ∃ leaf, find_leaf fuel pager (root_page_id.toNat * PAGE_SIZE) key (junk.call 0) = some leaf
    ∧ (∀ page, pager_get_page pager (header_page_id pager.mem leaf) = some page →
      Refuses pager.mem page)
    ∧ HandsOutNone pager root_page_id

/-- The same for a root that is a leaf, with nothing left out: the slot may also be one
that is there already, and the page handed out one that cannot be read and goes back. -/
def FailsHarmless (pager : Pager) (root_page_id : UInt16) (key : List UInt8)
    (data_page_id : UInt16) (data_slot_id : UInt8) : Prop :=
  key.length > MAX_DATA_PER_INDEX_SLOT
  ∨ ¬ root_page_id.toNat < MAX_PAGES
  ∨ (Refuses pager.mem (root_page_id.toNat * PAGE_SIZE)
      ∨ new_slot key data_page_id data_slot_id
        ∈ page_records pager.mem (root_page_id.toNat * PAGE_SIZE))
    ∧ ((get_free_page pager).1 = 0
      ∨ ¬ (get_free_page pager).1.toNat < MAX_PAGES
        ∧ (get_free_page pager).1 ∈ pages pager.free_page_map.tree)

/-! ## §2. Failures before anything is written. -/

section

variable {pager pager' : Pager} {root_page_id root_page_id' : UInt16} {key : List UInt8}
  {data_page_id : UInt16} {data_slot_id : UInt8} {junk : Junk} {status : IndexStatus}

/-- Nothing is written, unless a page was handed out and has gone back. -/
inductive Untouched (pager : Pager) (root_page_id : UInt16) : Pager → Prop
  | same : Untouched pager root_page_id pager
  | given_back : (get_free_page pager).1 ∈ pages pager.free_page_map.tree → pager.ListFits →
      ¬ Reachable pager root_page_id 0 →
      Untouched pager root_page_id (mark_page_free (get_free_page pager).2 (get_free_page pager).1)

/-- A free page that is handed out and freed again is a free page, as are the others. -/
theorem pages_freed_again (pager : Pager) :
    pages (mark_page_free (get_free_page pager).2 (get_free_page pager).1).free_page_map.tree
        = pages pager.free_page_map.tree
      ↔ (get_free_page pager).1 ∈ pages pager.free_page_map.tree := by
  rw [mark_page_free_map, pages_insert, insert_pages_get_free_page, Finset.insert_eq_self]

theorem Untouched.sameTree (h : Untouched pager root_page_id pager') :
    SameTree root_page_id pager pager' := by
  cases h with
  | same => exact SameTree.refl _ _
  | given_back hfree hfits h0 =>
      have hsame := (get_free_page_frame pager hfits).trans
        (mark_page_free_frame (get_free_page pager).2 (get_free_page pager).1)
      refine ⟨fun e => ?_, fun p hp => ?_, (pages_freed_again pager).mpr hfree⟩
      · rw [tree_entries_frame hsame h0]
      · refine hsame.load16 (.inr ?_)
        have hpage := PAGE_SIZE_le_page hp
        simp only [DBPageHeader.right_sibling_page_id]
        omega

/-- Without a page to hand out a split changes nothing. -/
theorem split_leaf_no_page (leaf_page_id : UInt16) (hnone : (get_free_page pager).1 = 0)
    (junk : Junk) :
    (btree_split_leaf pager leaf_page_id junk).1 ≠ PSQL_STATUS_OK
      ∧ (btree_split_leaf pager leaf_page_id junk).2.2 = pager := by
  unfold btree_split_leaf
  cases pager_get_page pager leaf_page_id with
  | none => exact ⟨by simp, rfl⟩
  | some leaf_page =>
      by_cases hleaf : ¬ IS_LEAF pager.mem leaf_page
      · simp only [if_pos hleaf, ne_eq, reduceCtorEq, not_false_eq_true, and_self]
      · simp only [if_neg hleaf, hnone, if_true, ne_eq, reduceCtorEq, not_false_eq_true, true_and]
        exact get_free_page_zero hnone

/-- A new leaf that cannot be read is freed again. -/
theorem split_leaf_unreadable {leaf_page_id : UInt16} (hread : leaf_page_id.toNat < MAX_PAGES)
    (his : IS_LEAF pager.mem (leaf_page_id.toNat * PAGE_SIZE) = true)
    (h0 : (get_free_page pager).1 ≠ 0) (hnew : ¬ (get_free_page pager).1.toNat < MAX_PAGES)
    (junk : Junk) :
    btree_split_leaf pager leaf_page_id junk = (PSQL_STATUS_IO_ERROR, 0,
      mark_page_free (get_free_page pager).2 (get_free_page pager).1) := by
  have hinit : init_index_leaf_page (get_free_page pager).2 (get_free_page pager).1 = none := by
    simp only [init_index_leaf_page, init_index_page, pager_get_page_of_not_lt hnew]
  simp only [btree_split_leaf, pager_get_page_of_lt hread, his, not_true_eq_false, if_false,
    if_neg h0, hinit]

/-- Neither does it without a page that can be read. -/
theorem split_leaf_untouched (leaf_page_id : UInt16) (h : HandsOutNone pager root_page_id)
    (junk : Junk) :
    (btree_split_leaf pager leaf_page_id junk).1 ≠ PSQL_STATUS_OK
      ∧ Untouched pager root_page_id (btree_split_leaf pager leaf_page_id junk).2.2 := by
  rcases h with hnone | ⟨hnew, hfree, hfits, h0⟩
  · obtain ⟨hstatus, hsame⟩ := split_leaf_no_page leaf_page_id hnone junk
    rw [hsame]
    exact ⟨hstatus, .same⟩
  · have hne : (get_free_page pager).1 ≠ 0 := by
      intro hzero
      rw [hzero] at hnew
      exact hnew (by decide)
    by_cases hread : leaf_page_id.toNat < MAX_PAGES
    · by_cases hleaf : IS_LEAF pager.mem (leaf_page_id.toNat * PAGE_SIZE) = true
      · rw [split_leaf_unreadable hread hleaf hne hnew]
        exact ⟨by simp, .given_back hfree hfits h0⟩
      · simp only [btree_split_leaf, pager_get_page_of_lt hread, if_pos hleaf]
        exact ⟨by simp, .same⟩
    · simp only [btree_split_leaf, pager_get_page_of_not_lt hread]
      exact ⟨by simp, .same⟩

/-- **A failure before anything is written**, for any tree. -/
theorem btree_insert_untouched {fuel : Nat} (h0 : root_page_id ≠ 0)
    (hinsert : btree_insert fuel pager root_page_id key data_page_id data_slot_id junk
      = some (status, root_page_id', pager')) (hstatus : status ≠ PSQL_STATUS_OK)
    (h : FailsUntouched fuel pager root_page_id key junk) :
    root_page_id' = root_page_id ∧ Untouched pager root_page_id pager' := by
  unfold btree_insert at hinsert
  by_cases hlong : key.length > MAX_DATA_PER_INDEX_SLOT
  · simp only [if_pos hlong, Option.some.injEq, Prod.mk.injEq] at hinsert
    exact ⟨hinsert.2.1.symm, hinsert.2.2 ▸ .same⟩
  · have hcreate : create_root pager root_page_id = (root_page_id, pager) := if_neg h0
    simp only [if_neg hlong, hcreate, if_neg h0] at hinsert
    by_cases hread : root_page_id.toNat < MAX_PAGES
    · obtain ⟨leaf, hleaf, hrefuses, hnone⟩ :=
        (h.resolve_left hlong).resolve_left (not_not.mpr hread)
      simp only [pager_get_page_of_lt hread, hleaf, Option.some.injEq] at hinsert
      -- the write is refused
      have hwrite : ∀ slot junk', write_index_slot pager (header_page_id pager.mem leaf) slot junk'
          = pager := by
        intro slot junk'
        unfold write_index_slot
        cases hpage : pager_get_page pager (header_page_id pager.mem leaf) with
        | none => rfl
        | some page => exact if_pos (hrefuses page hpage)
      have hsplit := split_leaf_untouched (header_page_id pager.mem leaf) hnone (junk.call 2)
      unfold insert_leaf at hinsert
      simp only [hwrite] at hinsert
      generalize btree_split_leaf pager (header_page_id pager.mem leaf) (junk.call 2) = r
        at hinsert hsplit
      by_cases hfull : 10 * USED_SPACE pager.mem leaf > FULL_THRESHOLD_10
      · simp only [if_pos hfull, if_pos hsplit.1, Prod.mk.injEq] at hinsert
        exact ⟨hinsert.2.1.symm, hinsert.2.2 ▸ hsplit.2⟩
      · simp only [if_neg hfull, Prod.mk.injEq] at hinsert
        exact absurd hinsert.1.symm hstatus
    · simp only [pager_get_page_of_not_lt hread, Option.some.injEq, Prod.mk.injEq] at hinsert
      exact ⟨hinsert.2.1.symm, hinsert.2.2 ▸ .same⟩

/-! ## §3. Below a root that is a leaf. -/

variable {P : SlotPage}

theorem Slotted.mem_tree_entries (h : Slotted pager.mem (root_page_id.toNat * PAGE_SIZE) root_page_id
      PAGE_INDEX_LEAF P) (hread : root_page_id.toNat < MAX_PAGES) (e : IndexSlotData) :
    e ∈ tree_entries pager root_page_id ↔ e ∈ P.slots.map Slot.data := by
  have hleaf : IS_LEAF pager.mem (root_page_id.toNat * PAGE_SIZE) = true
      ∧ IS_INTERNAL pager.mem (root_page_id.toNat * PAGE_SIZE) = false := by
    rw [IS_LEAF, IS_INTERNAL, h.flag]
    decide
  rw [tree_entries_leaf (pager_get_page_of_lt hread) hleaf, h.page_records, Multiset.mem_coe]

/-- A write that is not refused adds its slot. -/
theorem SlotPage.mem_write (P : SlotPage) (slot : IndexSlotData) (junk : Junk) (e : IndexSlotData) :
    e ∈ (P.write slot junk).slots.map Slot.data
      ↔ e ∈ P.slots.map Slot.data ∨ ¬ P.Full ∧ e = slot := by
  unfold SlotPage.write
  by_cases hfull : P.Full
  · rw [if_pos hfull]
    exact ⟨Or.inl, fun he => he.resolve_right fun hnot => hnot.1 hfull⟩
  · rw [if_neg hfull]
    have hpos : P.position slot.key junk ≤ P.slots.length := find_range_le _ _
    have hperm : ((P.insert (P.position slot.key junk) slot).slots.map Slot.data).Perm
        (slot :: P.slots.map Slot.data) := (List.perm_insertIdx _ _ hpos).map Slot.data
    rw [hperm.mem_iff, List.mem_cons, or_comm]
    simp only [hfull, not_false_eq_true, true_and]

/-- **The write alone**, whatever became of the header page behind it, leaves the tree the
same only if the slot was refused or is there already. -/
theorem Slotted.sameTree_write_iff (h : Slotted pager.mem (root_page_id.toNat * PAGE_SIZE)
      root_page_id PAGE_INDEX_LEAF P) (hread : root_page_id.toNat < MAX_PAGES)
    (h0 : root_page_id ≠ 0) (hfits : ¬ P.Full → P.HasRoom) (slot : IndexSlotData) (junk : Junk)
    (hheader : (write_index_slot pager root_page_id slot junk).mem.SameOff 0 PAGE_SIZE pager'.mem) :
    SameTree root_page_id pager pager'
      ↔ (Refuses pager.mem (root_page_id.toNat * PAGE_SIZE)
          ∨ slot ∈ Index.page_records pager.mem (root_page_id.toNat * PAGE_SIZE))
        ∧ pages pager'.free_page_map.tree = pages pager.free_page_map.tree := by
  have hpage : pager_get_page pager root_page_id = some (root_page_id.toNat * PAGE_SIZE) :=
    pager_get_page_of_lt hread
  obtain ⟨m₁, hwrite, hslotted, hsame⟩ := h.write_fits hpage hfits slot junk
  have hbetween : ∀ i, root_page_id.toNat * PAGE_SIZE + 32 ≤ i →
      i < root_page_id.toNat * PAGE_SIZE + 34 → m₁ i = pager.mem i := by
    intro i hlo hhi
    have heq := h.write_between hpage hfits slot junk (i := i) (by omega) (by omega)
    rwa [hwrite] at heq
  rw [hwrite, Pager.withMem_mem] at hheader
  have hafter := hslotted.frame hheader (.inl (PAGE_SIZE_le_page h0))
  have hentries : (∀ e, e ∈ tree_entries pager' root_page_id ↔ e ∈ tree_entries pager root_page_id)
      ↔ P.Full ∨ slot ∈ P.slots.map Slot.data := by
    simp only [hafter.mem_tree_entries hread, h.mem_tree_entries hread, SlotPage.mem_write]
    constructor
    · intro hsub
      by_cases hfull : P.Full
      · exact Or.inl hfull
      · exact Or.inr ((hsub slot).mp (Or.inr ⟨hfull, rfl⟩))
    · rintro hkept e
      refine ⟨fun he => he.elim id ?_, Or.inl⟩
      rintro ⟨hfull, rfl⟩
      exact hkept.resolve_left hfull
  -- the sibling pointers are not written
  have hsiblings : ∀ p : UInt16, p ≠ 0 →
      pager'.mem.load16 (DBPageHeader.right_sibling_page_id (p.toNat * PAGE_SIZE))
        = pager.mem.load16 (DBPageHeader.right_sibling_page_id (p.toNat * PAGE_SIZE)) := by
    intro p hp
    have hfield : pager'.mem.load16 (DBPageHeader.right_sibling_page_id (p.toNat * PAGE_SIZE))
        = m₁.load16 (DBPageHeader.right_sibling_page_id (p.toNat * PAGE_SIZE)) :=
      hheader.load16 (.inr (Nat.le_add_right_of_le (PAGE_SIZE_le_page hp)))
    rw [hfield]
    by_cases heq : p = root_page_id
    · subst heq
      exact congrArg UInt16.ofNat (load_congr 2 _ hbetween)
    · exact hsame.load16 (field_apart heq (k := 32) (by decide))
  rw [Refuses, h.full_iff, h.page_records, ← hentries]
  exact ⟨fun hsame => ⟨hsame.entries, hsame.free⟩, fun hkept => ⟨hkept.1, hsiblings, hkept.2⟩⟩

/-! ## §4. How an insertion fails. -/

/-- The first page handed out behind the write is 0, or cannot be read and is freed, or was
a free page and is used for the new leaf while none is left for the new root. -/
inductive InsertFailure (written after : Pager) : Prop
  | no_page : (get_free_page written).1 = 0 → after = written → InsertFailure written after
  | unreadable : ¬ (get_free_page written).1.toNat < MAX_PAGES →
      after = mark_page_free (get_free_page written).2 (get_free_page written).1 →
      InsertFailure written after
  | no_root : (get_free_page written).1 ≠ 0 → (get_free_page written).1.toNat < MAX_PAGES →
      (get_free_page written).1 ∈ pages written.free_page_map.tree →
      (get_free_page written).1 ∉ pages after.free_page_map.tree → InsertFailure written after

theorem Slotted.directoryOk {m : Mem} {page : Nat} {page_no : UInt16} {flag : UInt8}
    (h : Slotted m page page_no flag P) : DirectoryOk m page page_no :=
  ⟨h.page_id, h.holds.free_start, h.holds.total ▸ h.ok.length_le⟩

theorem update_parent_failed {page : Nat} {new_page_id : UInt16}
    (hlabel : header_page_id pager.mem page = root_page_id)
    (hstatus : (update_parent pager root_page_id page new_page_id junk).1 ≠ PSQL_STATUS_OK) :
    (get_free_page pager).1 = 0
      ∧ (update_parent pager root_page_id page new_page_id junk).2.2 = pager := by
  unfold update_parent at hstatus ⊢
  simp only [if_pos hlabel] at hstatus ⊢
  by_cases hnone : (get_free_page pager).1 = 0
  · simp only [if_pos hnone]
    exact ⟨hnone, get_free_page_zero hnone⟩
  · simp only [if_neg hnone] at hstatus
    exact absurd rfl hstatus

/-- The split leaf keeps its label, and the header page is as the new leaf found it. -/
theorem Slotted.split_keeps {new_leaf_id : UInt16} (h : Slotted pager.mem
      (root_page_id.toNat * PAGE_SIZE) root_page_id PAGE_INDEX_LEAF P) (hfits : pager.ListFits)
    (h0 : root_page_id ≠ 0) (hok : SplitOk pager root_page_id new_leaf_id)
    (hnext : new_leaf_id = (get_free_page pager).1) (junk : Junk) :
    ∃ m', split_slots (with_new_leaf pager) root_page_id new_leaf_id (root_page_id.toNat * PAGE_SIZE)
        (new_leaf_id.toNat * PAGE_SIZE) junk = (with_new_leaf pager).withMem m'
      ∧ header_page_id m' (root_page_id.toNat * PAGE_SIZE) = root_page_id
      ∧ SameHeader (get_free_page pager).2.mem m' := by
  have hread := hok.leaf_read
  have hnew := hok.new_read
  have hempty : Packed (with_new_leaf pager).mem ((get_free_page pager).1.toNat * PAGE_SIZE)
      (get_free_page pager).1 PAGE_INDEX_LEAF 0 := packed_init _ _ _ _
  have hinit := with_new_leaf_frame pager
  rw [← hnext] at hempty hinit
  -- the leaf is another page, or has just been initialised
  have hleaf : DirectoryOk (with_new_leaf pager).mem (root_page_id.toNat * PAGE_SIZE)
      root_page_id := by
    by_cases heq : root_page_id = new_leaf_id
    · rw [heq]
      exact hempty.directoryOk
    · have hapart := pages_apart heq
      exact (h.directoryOk.frame (get_free_page_frame pager hfits)
        (.inl (PAGE_SIZE_le_page h0))).frame hinit (by omega)
  have hpage : pager_get_page (with_new_leaf pager) root_page_id
      = some (root_page_id.toNat * PAGE_SIZE) := pager_get_page_of_lt hread
  obtain ⟨m', hsplit, hlabel, hheader⟩ := split_slots_keeps hpage (pager_get_page_of_lt hnew) h0
    hok.ne_zero hleaf hempty junk
  exact ⟨m', hsplit, hlabel, SameHeader.trans
    (sameHeader_of_sameOff hinit (PAGE_SIZE_le_page hok.ne_zero)) hheader⟩

/-- **Every failure** below a root that is a leaf, behind the write. -/
theorem insert_leaf_failed {written : Pager} (hwrite : write_index_slot pager root_page_id
      (new_slot key data_page_id data_slot_id) (junk.call 1) = written)
    (h : Slotted written.mem (root_page_id.toNat * PAGE_SIZE) root_page_id PAGE_INDEX_LEAF P)
    (hlabel : header_page_id pager.mem (root_page_id.toNat * PAGE_SIZE) = root_page_id)
    (hfits : written.ListFits) (h0 : root_page_id ≠ 0) (hread : root_page_id.toNat < MAX_PAGES)
    (hresult : insert_leaf pager root_page_id (root_page_id.toNat * PAGE_SIZE) key data_page_id
      data_slot_id junk = (status, root_page_id', pager')) (hstatus : status ≠ PSQL_STATUS_OK) :
    InsertFailure written pager' := by
  have hlabel₁ : header_page_id written.mem (root_page_id.toNat * PAGE_SIZE) = root_page_id :=
    h.page_id
  have his : IS_LEAF written.mem (root_page_id.toNat * PAGE_SIZE) = true := by
    rw [IS_LEAF, h.flag]
    rfl
  unfold new_slot at hwrite
  unfold insert_leaf at hresult
  simp only [hlabel, hwrite, hlabel₁] at hresult
  by_cases hfull : 10 * USED_SPACE written.mem (root_page_id.toNat * PAGE_SIZE) > FULL_THRESHOLD_10
  · simp only [if_pos hfull] at hresult
    by_cases hnone : (get_free_page written).1 = 0
    · have hsplit := split_leaf_no_page root_page_id hnone (junk.call 2)
      rw [if_pos hsplit.1, hsplit.2] at hresult
      exact .no_page hnone (Prod.mk.inj (Prod.mk.inj hresult).2).2.symm
    by_cases hnew : (get_free_page written).1.toNat < MAX_PAGES
    · -- the leaf is split, and a new root is asked for
      have hok := splitOk hread his hnone hnew
      obtain ⟨m', hsplit, hlabel', hheader⟩ := h.split_keeps hfits h0 hok rfl (junk.call 2)
      rw [hok.result, hsplit] at hresult
      simp only [ne_eq, not_true_eq_false, if_false] at hresult
      have hroot : header_page_id ((with_new_leaf written).withMem m').mem
          (root_page_id.toNat * PAGE_SIZE) = root_page_id := hlabel'
      have hparent := update_parent_failed hroot (by rw [hresult]; exact hstatus)
      rw [hresult] at hparent
      have hafter : pager' = (with_new_leaf written).withMem m' := hparent.2
      have hmap : ((with_new_leaf written).withMem m').free_page_map
          = (get_free_page written).2.free_page_map := rfl
      obtain ⟨hmem, hnot⟩ := get_free_page_last hfits (SameHeader.highest_page hheader) hmap hnone
        hparent.1
      exact .no_root hnone hnew hmem (hafter ▸ hnot)
    · simp only [split_leaf_unreadable hread his hnone hnew, ne_eq, reduceCtorEq, not_false_eq_true,
        if_true] at hresult
      exact .unreadable hnew (Prod.mk.inj (Prod.mk.inj hresult).2).2.symm
  · simp only [if_neg hfull, Prod.mk.injEq] at hresult
    exact absurd hresult.1.symm hstatus

theorem Slotted.insert_leaf_sameTree_iff (h : Slotted pager.mem (root_page_id.toNat * PAGE_SIZE)
      root_page_id PAGE_INDEX_LEAF P) (hfits : pager.ListFits) (h0 : root_page_id ≠ 0)
    (hread : root_page_id.toNat < MAX_PAGES) (hroom : ¬ P.Full → P.HasRoom)
    (hresult : insert_leaf pager root_page_id (root_page_id.toNat * PAGE_SIZE) key data_page_id
      data_slot_id junk = (status, root_page_id', pager')) (hstatus : status ≠ PSQL_STATUS_OK) :
    SameTree root_page_id pager pager'
      ↔ (Refuses pager.mem (root_page_id.toNat * PAGE_SIZE)
          ∨ new_slot key data_page_id data_slot_id
            ∈ Index.page_records pager.mem (root_page_id.toNat * PAGE_SIZE))
        ∧ ((get_free_page pager).1 = 0
          ∨ ¬ (get_free_page pager).1.toNat < MAX_PAGES
            ∧ (get_free_page pager).1 ∈ pages pager.free_page_map.tree) := by
  obtain ⟨m₁, hwrite, hslotted, hsame⟩ := h.write_fits (pager_get_page_of_lt hread) hroom
    (new_slot key data_page_id data_slot_id) (junk.call 1)
  have hheader : SameHeader pager.mem m₁ :=
    sameHeader_of_sameOff hsame (PAGE_SIZE_le_page h0)
  have hfits₁ : (pager.withMem m₁).ListFits := by
    rw [Pager.ListFits, SameHeader.free_page_count hheader]
    exact hfits
  have hiff : ∀ after : Pager, m₁.SameOff 0 PAGE_SIZE after.mem →
      (SameTree root_page_id pager after
        ↔ (Refuses pager.mem (root_page_id.toNat * PAGE_SIZE)
            ∨ new_slot key data_page_id data_slot_id
              ∈ Index.page_records pager.mem (root_page_id.toNat * PAGE_SIZE))
          ∧ pages after.free_page_map.tree = pages pager.free_page_map.tree) := by
    intro after hafter
    refine h.sameTree_write_iff hread h0 hroom _ (junk.call 1) ?_
    rw [hwrite]
    exact hafter
  have hnumber : (get_free_page (pager.withMem m₁)).1 = (get_free_page pager).1 :=
    get_free_page_number hheader
  have hmap : (pager.withMem m₁).free_page_map = pager.free_page_map := rfl
  have hfailure := insert_leaf_failed hwrite hslotted h.page_id hfits₁ h0 hread hresult hstatus
  cases hfailure with
  | no_page hnone hafter =>
      rw [hnumber] at hnone
      subst hafter
      rw [hiff _ (SameOff.refl _ _ _), hmap]
      exact and_congr_right fun _ => iff_of_true rfl (Or.inl hnone)
  | unreadable hnew hafter =>
      have hne : (get_free_page pager).1 ≠ 0 := by
        intro hzero
        rw [hnumber, hzero] at hnew
        exact hnew (by decide)
      subst hafter
      rw [hiff _ ((get_free_page_frame _ hfits₁).trans (mark_page_free_frame _ _))]
      refine and_congr_right fun _ => ?_
      have hback := pages_freed_again (pager.withMem m₁)
      rw [hnumber, hmap] at hback
      rw [hnumber] at hnew ⊢
      rw [hback]
      exact ⟨fun hmem => Or.inr ⟨hnew, hmem⟩, fun hor => (hor.resolve_left hne).2⟩
  | no_root hne hnew hmem hnot =>
      rw [hnumber] at hne hnew hmem hnot
      -- the page of the new leaf is free no longer
      refine iff_of_false (fun hsame => hnot ?_) fun hharmless => ?_
      · rw [hsame.free]
        exact hmem
      · exact hharmless.2.elim hne fun hlost => hlost.1 hnew

/-- **A failed insertion** below a root that is a leaf leaves the tree the same exactly when
it is harmless. -/
theorem IndexPages.sameTree_iff {pages : Set UInt16} (hpages : IndexPages 17 pages pager)
    (hroot : root_page_id ∈ pages)
    (hflag : pager.mem.load8 (DBPageHeader.flag (root_page_id.toNat * PAGE_SIZE)) = PAGE_INDEX_LEAF)
    {fuel : Nat} (hallowed : (StoreOp.btree_insert fuel root_page_id key data_page_id data_slot_id
      junk).Allowed 17 ⟨pager, pages⟩)
    (hinsert : btree_insert fuel pager root_page_id key data_page_id data_slot_id junk
      = some (status, root_page_id', pager')) (hstatus : status ≠ PSQL_STATUS_OK) :
    SameTree root_page_id pager pager'
      ↔ FailsHarmless pager root_page_id key data_page_id data_slot_id := by
  have h0 := hpages.ne_zero _ hroot
  by_cases hlong : key.length > MAX_DATA_PER_INDEX_SLOT
  · have huntouched := (btree_insert_untouched h0 hinsert hstatus (Or.inl hlong)).2
    exact iff_of_true huntouched.sameTree (Or.inl hlong)
  by_cases hread : root_page_id.toNat < MAX_PAGES
  · obtain ⟨flag, P, -, hslotted, -⟩ := hpages.index_page _ hroot hread
    obtain rfl : flag = PAGE_INDEX_LEAF := hslotted.flag.symm.trans hflag
    cases fuel with
    | zero =>
        rw [btree_insert, if_neg hlong, create_root, if_neg h0] at hinsert
        simp only [if_neg h0, pager_get_page_of_lt hread, find_leaf, reduceCtorEq] at hinsert
    | succ fuel =>
        obtain ⟨hleaf, hcalls⟩ : btree_insert (fuel + 1) pager root_page_id key data_page_id
          data_slot_id junk = some _ ∧ _ := btree_insert_leaf_root h0 hlong hread hflag fuel
        -- the write is the first call of the insertion
        have hwrite : (PageCall.write_index_slot (header_page_id pager.mem (root_page_id.toNat * PAGE_SIZE))
            (new_slot key data_page_id data_slot_id) (junk.call 1)).Allowed 17 pages pager := by
          unfold StoreOp.Allowed StoreOp.calls at hallowed
          simp only [hcalls] at hallowed
          exact hallowed.1
        have hlabel : header_page_id pager.mem (root_page_id.toNat * PAGE_SIZE) = root_page_id :=
          hslotted.page_id
        rw [hlabel] at hwrite
        have hroom := (hslotted.fits_iff _).mp (hwrite.2 _ (pager_get_page_of_lt hread))
        rw [hleaf] at hinsert
        rw [hslotted.insert_leaf_sameTree_iff hpages.fits h0 hread hroom (Option.some.inj hinsert)
          hstatus]
        refine ⟨fun hharmless => Or.inr (Or.inr hharmless), fun hharmless => ?_⟩
        exact (hharmless.resolve_left hlong).resolve_left (not_not.mpr hread)
  · have huntouched := (btree_insert_untouched h0 hinsert hstatus (Or.inr (Or.inl hread))).2
    exact iff_of_true huntouched.sameTree (Or.inr (Or.inl hread))

/-- **The 68th slot of a leaf** stays when there is no page to split the leaf into. -/
theorem LeafTree.insert_no_page {tree : Tree} {slots : List IndexSlotData}
    (h : LeafTree tree slots) (hlen : slots.length = 67)
    (hnone : (get_free_page tree.pager).1 = 0) (op : Insertion) (fuel : Nat) (junk : Junk) :
    ∃ m', btree_insert (fuel + 1) tree.pager tree.root_page_id op.key.bytes op.data_page_id
        op.data_slot_id junk = some (PSQL_STATUS_OUT_OF_MEMORY, tree.root_page_id, tree.pager.withMem m')
      ∧ LeafTree ⟨tree.root_page_id, tree.pager.withMem m'⟩ (slots ++ [op.slot]) := by
  obtain ⟨page, hpage, hfilled⟩ := h.filled
  have hlong := op.key.le
  obtain ⟨m', hwrite, hfilled', hsame⟩ :=
    hfilled.write_room (by rw [hlen]; decide) hpage op.slot (junk.call 1)
  refine ⟨m', ?_, h.ne_zero, page, hpage, hfilled'⟩
  obtain ⟨hread, rfl⟩ := pager_get_page_eq_some hpage
  have hnone' : (get_free_page (tree.pager.withMem m')).1 = 0 :=
    (get_free_page_number (sameHeader_of_sameOff hsame (PAGE_SIZE_le_page h.ne_zero))).trans hnone
  have hpage' : pager_get_page (tree.pager.withMem m') tree.root_page_id
      = some (tree.root_page_id.toNat * PAGE_SIZE) := hpage
  have hused := hfilled'.packed.used_space
  rw [List.length_append, hlen, List.length_singleton] at hused
  have hsplit : btree_split_leaf (tree.pager.withMem m') tree.root_page_id (junk.call 2)
      = (PSQL_STATUS_OUT_OF_MEMORY, 0, tree.pager.withMem m') := by
    simp only [btree_split_leaf, hpage', Pager.withMem_mem, hfilled'.packed.leaf.1, hnone',
      not_true_eq_false, if_false, if_true, get_free_page_zero hnone']
  rw [(btree_insert_leaf_root h.ne_zero (by omega) hread hfilled.packed.flag fuel).1]
  rw [Insertion.slot] at hwrite
  simp only [insert_leaf, hfilled.packed.label, hwrite, Pager.withMem_mem, hfilled'.packed.label,
    hused, hsplit, FULL_THRESHOLD_10, MAX_USABLE_PAGE_SIZE_eq]
  rfl

end

/-! ## §5. Runs. -/

/-- The operations of `index_page.c`, and those of the page tracker that an index can run
short of pages by. -/
inductive DbOp where
  | index (op : StoreOp)
  | mark_page_free (page_no : UInt16)
  | mark_page_used (page_no : UInt16)
  | get_free_page

namespace DbOp

def exec (s : Store) : DbOp → Store
  | .index op => op.exec s
  | .mark_page_free page_no => { s with pager := Db.mark_page_free s.pager page_no }
  | .mark_page_used page_no => { s with pager := Db.mark_page_used s.pager page_no }
  | .get_free_page => { s with pager := (Db.get_free_page s.pager).2 }

def Allowed (s : Store) : DbOp → Prop
  | .index op => op.Allowed 17 s
  | _ => True

/-- The tracker writes to page 0 only. -/
theorem Allowed.exec {s : Store} {op : DbOp} (h : IndexPages 17 s.pages s.pager)
    (hallowed : op.Allowed s) : IndexPages 17 (op.exec s).pages (op.exec s).pager := by
  cases op with
  | index op => exact StoreOp.Allowed.exec (Nat.le_refl 17) h hallowed
  | mark_page_free page_no =>
      exact h.header (mark_page_free_frame _ _) (mark_page_free_header _ _ h.fits).2
  | mark_page_used page_no =>
      refine h.header (mark_page_used_frame _ _) ?_
      show (Db.mark_page_used s.pager page_no).ListFits
      rw [Pager.ListFits, (mark_page_used_header s.pager page_no).2]
      exact h.fits
  | get_free_page =>
      exact h.header (get_free_page_frame _ h.fits) (get_free_page_header _ h.fits).2

end DbOp

/-- A failure before anything is written leaves the tree the same, whatever its shape. -/
def Store.FailsAlone (s : Store) : Prop :=
  ∀ fuel root_page_id key data_page_id data_slot_id junk status root_page_id' pager',
    root_page_id ≠ 0 →
    btree_insert fuel s.pager root_page_id key data_page_id data_slot_id junk
      = some (status, root_page_id', pager') →
    status ≠ PSQL_STATUS_OK → FailsUntouched fuel s.pager root_page_id key junk →
      root_page_id' = root_page_id ∧ SameTree root_page_id s.pager pager'

/-- A failed insertion below an initialised leaf leaves the tree the same exactly when it is
harmless. -/
def Store.FailsIff (s : Store) : Prop :=
  ∀ fuel root_page_id key data_page_id data_slot_id junk status root_page_id' pager',
    root_page_id ∈ s.pages →
    s.pager.mem.load8 (DBPageHeader.flag (root_page_id.toNat * PAGE_SIZE)) = PAGE_INDEX_LEAF →
    (StoreOp.btree_insert fuel root_page_id key data_page_id data_slot_id junk).Allowed 17 s →
    btree_insert fuel s.pager root_page_id key data_page_id data_slot_id junk
      = some (status, root_page_id', pager') →
    status ≠ PSQL_STATUS_OK →
      (SameTree root_page_id s.pager pager'
        ↔ FailsHarmless s.pager root_page_id key data_page_id data_slot_id)

/-- **A failed insertion leaves the tree alone**, in every state of every run, when it fails
before anything is written; and below a root that is a leaf, in runs whose calls keep to
their pages, exactly when it is harmless. -/
theorem failed_insert_iff (pager : Pager) (hnew : NewDb pager) (ops : List DbOp) :
    Throughout DbOp.exec Store.FailsAlone (newStore pager) ops
    ∧ (EachStep DbOp.exec DbOp.Allowed (newStore pager) ops →
      Throughout DbOp.exec Store.FailsIff (newStore pager) ops) := by
  constructor
  · refine throughout_of_forall (fun s => ?_) ops _
    intro fuel root_page_id key data_page_id data_slot_id junk status root_page_id' pager' h0
      hinsert hstatus huntouched
    obtain ⟨hroot, hpager⟩ := btree_insert_untouched h0 hinsert hstatus huntouched
    exact ⟨hroot, hpager.sameTree⟩
  · intro hallowed
    refine throughout_of_kept (I := fun s : Store => IndexPages 17 s.pages s.pager)
      (fun _ _ h hstep => hstep.exec h) (fun s h => ?_) ops _ (NewDb.indexPages hnew 17) hallowed
    intro fuel root_page_id key data_page_id data_slot_id junk status root_page_id' pager' hroot
      hflag hop hinsert hstatus
    exact h.sameTree_iff hroot hflag hop hinsert hstatus

/-- Below a leaf that becomes full, without a page to split it into. -/
theorem Store.On.insert_no_page {s : Store} {root_page_id : UInt16} {page : Nat} {P : SlotPage}
    (h : s.On root_page_id page PAGE_INDEX_LEAF P) (h0 : root_page_id ≠ 0)
    (op : Insertion) (hfits : P.Fits op.write) (hfull : (P.exec op.write).Full)
    (hnone : (Db.get_free_page s.pager).1 = 0) :
    (DbOp.index (op.call root_page_id)).Allowed s
      ∧ (btree_insert 1 s.pager root_page_id op.key.bytes op.data_page_id op.data_slot_id
        fun _ => .zero).map Prod.fst = some PSQL_STATUS_OUT_OF_MEMORY := by
  obtain ⟨hinsert, hcalls, m', hwrite, hslotted, hnext⟩ := h.insert_leaf h0 op hfits
  have hallowed := @Store.On.write_allowed 17 s root_page_id page P h op hfits
  have hpage : pager_get_page (s.pager.withMem m') root_page_id = some page := h.readable
  have hlabel : header_page_id m' page = root_page_id := hslotted.page_id
  have hleaf : IS_LEAF m' page = true := by
    rw [IS_LEAF, hslotted.flag]
    rfl
  -- ten times the used space is a multiple of 10, and the bound is not
  have hsplits : 10 * USED_SPACE m' page > FULL_THRESHOLD_10 := by
    have hge := hslotted.full_iff.mpr hfull
    rw [FULL_THRESHOLD_10, MAX_USABLE_PAGE_SIZE_eq] at hge ⊢
    omega
  rw [hnone] at hnext
  have hjunk : ∀ i, Junk.call (fun _ => .zero) i = fun _ => .zero := fun _ => rfl
  rw [Insertion.slot] at hwrite hallowed
  simp only [Index.insert_leaf, btree_split_leaf, hjunk, hwrite, Pager.withMem_mem, hlabel, hpage, hleaf,
    hnext, if_pos hsplits, not_true_eq_false, if_false, if_true, ne_eq, reduceCtorEq,
    not_false_eq_true] at hinsert
  simp only [insert_leaf_calls, btree_split_leaf_calls, btree_split_leaf, hjunk, hwrite,
    Pager.withMem_mem, hlabel, hpage, hleaf, hnext, if_pos hsplits, not_true_eq_false, if_false,
    if_true, ne_eq, reduceCtorEq, not_false_eq_true, List.append_nil] at hcalls
  refine ⟨?_, ?_⟩
  · show Allowed 17 s.pages _
    rw [Insertion.call, StoreOp.calls, hcalls]
    exact ⟨hallowed, trivial, trivial⟩
  · rw [hinsert]
    rfl

/-- The tracker is on page 0. -/
theorem Store.On.mark_page_used {s : Store} {root_page_id : UInt16} {page : Nat} {flag : UInt8}
    {P : SlotPage} (h : s.On root_page_id page flag P) (h0 : root_page_id ≠ 0) (page_no : UInt16) :
    ((DbOp.mark_page_used page_no).exec s).On root_page_id page flag P := by
  obtain ⟨hread, hpage⟩ := pager_get_page_eq_some h.readable
  refine ⟨h.slotted.frame (mark_page_used_frame _ _) (.inl ?_), ?_, h.opened⟩
  · rw [hpage]
    exact PAGE_SIZE_le_page h0
  · rw [hpage]
    exact pager_get_page_of_lt hread

/-- **Insertions in a row** below a leaf that takes them hand out no page. -/
theorem Store.On.inserts_on {s : Store} {root_page_id : UInt16} {page : Nat} {P : SlotPage}
    (h : s.On root_page_id page PAGE_INDEX_LEAF P) (h0 : root_page_id ≠ 0)
    (hnone : (Db.get_free_page s.pager).1 = 0) {ops : List Insertion}
    (htakes : EachStep (fun P op => P.exec op.write) (fun P op => P.Takes op.write) P ops) :
    let calls := ops.map fun op => DbOp.index (op.call root_page_id)
    EachStep DbOp.exec DbOp.Allowed s calls
    ∧ (calls.foldl DbOp.exec s).On root_page_id page PAGE_INDEX_LEAF
      (ops.foldl (fun P op => P.exec op.write) P)
    ∧ (Db.get_free_page (calls.foldl DbOp.exec s).pager).1 = 0 := by
  refine eachStep_of_simulates
    (R := fun (s : Store) P => s.On root_page_id page PAGE_INDEX_LEAF P
      ∧ (Db.get_free_page s.pager).1 = 0)
    (fun op : Insertion => DbOp.index (op.call root_page_id)) ?_ ops s P ⟨h, hnone⟩ htakes
  rintro s P op ⟨h, hnone⟩ htakes
  obtain ⟨hallowed, hinserted, hsame⟩ := h.insert h0 op htakes
  exact ⟨hallowed, hinserted, hsame.trans hnone⟩

/-- A tree is created, and no page is left behind its root. -/
def no_page_left : List DbOp := [.index (.btree_init PSQL_STATUS_OK), .mark_page_used 65535]

theorem no_page_left_on :
    let start := newStore (pager_init_new_db .ok fresh_pager).2
    EachStep DbOp.exec DbOp.Allowed start no_page_left
    ∧ (no_page_left.foldl DbOp.exec start).On 4 (4 * PAGE_SIZE) PAGE_INDEX_LEAF .empty
    ∧ (get_free_page (no_page_left.foldl DbOp.exec start).pager).1 = 0 := by
  intro start
  have hroot : Store.On 4 (4 * PAGE_SIZE) PAGE_INDEX_LEAF _ .empty :=
    on_btree_init start (by decide +kernel) (by decide) (by decide)
  refine ⟨⟨btree_init_allowed _ _, trivial, trivial⟩, ?_, by decide +kernel⟩
  exact hroot.mark_page_used (by decide) 65535

def byte_keys : List Insertion := (List.range 67).reverse.map insert_byte

/-- A leaf takes 67 keys of one byte, and the next one makes it full. -/
theorem byte_keys_taken :
    EachStep (fun (P : SlotPage) op => P.exec op.write) (fun P op => P.Takes op.write) .empty
      byte_keys := by
  decide +kernel

theorem byte_keys_full :
    let P : SlotPage := byte_keys.foldl (fun P op => P.exec op.write) .empty
    P.Fits (insert_byte 67).write ∧ (P.exec (insert_byte 67).write).Full := by
  decide +kernel

/-- A run may go on with an insertion that fails. -/
theorem Store.On.insert_no_page_last {start : Store} {ops : List DbOp} {root_page_id : UInt16}
    {page : Nat} {P : SlotPage}
    (h : (ops.foldl DbOp.exec start).On root_page_id page PAGE_INDEX_LEAF P) (h0 : root_page_id ≠ 0)
    (op : Insertion) (hfits : P.Fits op.write) (hfull : (P.exec op.write).Full)
    (hnone : (Db.get_free_page (ops.foldl DbOp.exec start).pager).1 = 0)
    (hallowed : EachStep DbOp.exec DbOp.Allowed start ops) :
    EachStep DbOp.exec DbOp.Allowed start (ops ++ [.index (op.call root_page_id)]) :=
  (eachStep_concat _ _ _).mpr ⟨hallowed, (h.insert_no_page h0 op hfits hfull hnone).1⟩

/-- The insertions that fill the leaf of a tree behind which no page is left. -/
def no_page_run : List DbOp := no_page_left ++ byte_keys.map fun op => .index (op.call 4)

/-- The run ends with an insertion that fails, of the 68th key. -/
theorem failed_insert_iff_no_page :
    (btree_insert 1 (no_page_run.foldl DbOp.exec
        (newStore (pager_init_new_db .ok fresh_pager).2)).pager 4 [67] 100 67
        fun _ => .zero).map Prod.fst = some PSQL_STATUS_OUT_OF_MEMORY
    ∧ Throughout DbOp.exec Store.FailsIff (newStore (pager_init_new_db .ok fresh_pager).2)
      (no_page_run ++ [.index ((insert_byte 67).call 4)]) := by
  obtain ⟨hfits, hmakes⟩ := byte_keys_full
  obtain ⟨hallowed, hroot, hnone⟩ := no_page_left_on
  obtain ⟨hinserts, hon, hnone⟩ := hroot.inserts_on (by decide) hnone byte_keys_taken
  have hrun : no_page_left ++ byte_keys.map (fun op => .index (op.call 4)) = no_page_run := rfl
  rw [← List.foldl_append, hrun] at hon hnone
  refine ⟨(hon.insert_no_page (by decide) (insert_byte 67) hfits hmakes hnone).2,
    (failed_insert_iff _ newDb_fresh _).2 ?_⟩
  exact hon.insert_no_page_last (by decide) (insert_byte 67) hfits hmakes hnone
    ((eachStep_append _ _ _).mpr ⟨hallowed, hinserts⟩)

/-- Page 65535 is in use, and 67 slots are in the tree. -/
theorem failed_insert_kept :
    let junk : Junk := fun _ => .zero
    ∃ pager after,
      (⟨4, mark_page_used new_tree.pager 65535⟩ : Tree).inserts 1
          ((List.range 67).map insert_byte) junk
        = some (List.replicate 67 PSQL_STATUS_OK, ⟨4, pager⟩)
      ∧ btree_insert 1 pager 4 [67] 100 67 junk = some (PSQL_STATUS_OUT_OF_MEMORY, 4, after)
      ∧ (insert_byte 67).slot ∉ tree_entries pager 4
      ∧ (insert_byte 67).slot ∈ tree_entries after 4
      ∧ ¬ SameTree 4 pager after := by
  intro junk
  have hbehind : PAGE_SIZE ≤ UInt16.toNat 4 * PAGE_SIZE := PAGE_SIZE_le_page (by decide)
  have hstart : LeafTree ⟨4, mark_page_used new_tree.pager 65535⟩ [] :=
    new_tree.leafTree.frame (mark_page_used_frame _ _) (.inl hbehind)
  have hlen : ((List.range 67).map insert_byte).length = 67 := by
    rw [List.length_map, List.length_range]
  obtain ⟨m', hinserts, htree, hsame⟩ := LeafTree.inserts ((List.range 67).map insert_byte) _ []
    hstart hlen.le junk
  have hnone : (get_free_page ((mark_page_used new_tree.pager 65535).withMem m')).1 = 0 := by
    rw [get_free_page_number (sameHeader_of_sameOff hsame hbehind)]
    decide +kernel
  obtain ⟨m₁, hinsert, hafter⟩ := htree.insert_no_page (by rw [List.nil_append, List.length_map, hlen])
    hnone (insert_byte 67) 0 junk
  have hbefore : (insert_byte 67).slot ∉ tree_entries
      ((mark_page_used new_tree.pager 65535).withMem m') 4 := by
    rw [htree.entries, Multiset.mem_coe]
    decide +kernel
  have hkept : (insert_byte 67).slot ∈ tree_entries
      (((mark_page_used new_tree.pager 65535).withMem m').withMem m₁) 4 := by
    rw [hafter.entries, Multiset.mem_coe]
    exact List.mem_append_right _ (List.mem_singleton_self _)
  rw [hlen] at hinserts
  exact ⟨_, _, hinserts, hinsert, hbefore, hkept, fun h => hbefore ((h.entries _).mp hkept)⟩

end PreSeQL.Index
