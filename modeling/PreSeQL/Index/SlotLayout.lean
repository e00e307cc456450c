/-
  PreSeQL.Index.SlotLayout — where the records of a page lie.

  A write takes 23 bytes for the record and 24 for its entry and counts both.  A free
  gives back 16 + 24 and leaves the record where it is, so the first free that finds
  its slot breaks the account.

    • `Filled.layoutOk` — pages that were only written to are laid out well,
    • `Filled.free_slot_account` — the account after a free,
    • `slot_layout_iff` — every run.
-/
import PreSeQL.Index.Filled
import PreSeQL.Lib.Run

namespace PreSeQL.Index

open PreSeQL.Lib PreSeQL.Lib.Mem PreSeQL.Lib.Run PreSeQL.Db

/-! ## §1. The layout. -/

/-- The offset of the record entry `i` names. -/
def slot_offset (m : Mem) (page i : Nat) : Nat :=
  m.load (SlotEntry.offset (slot_entry (slot_entries m page) i)) 8

/-- The end of the directory, as an offset in `data`. -/
def directory_end (m : Mem) (page : Nat) : Nat :=
  (m.load16 (DBPageHeader.free_start page)).toNat + total_slots m page * SlotEntry.sizeof

/-- The directory, the free space and the records of the live slots lie in `data` in this
order, no two records overlap, and `free_total` is what 47 bytes a slot leave. -/
structure LayoutOk (m : Mem) (page : Nat) : Prop where
  directory_inside : directory_end m page ≤ MAX_USABLE_PAGE_SIZE
  directory_below : directory_end m page ≤ (m.load16 (DBPageHeader.free_end page)).toNat
  records_above : ∀ i < total_slots m page,
    (m.load16 (DBPageHeader.free_end page)).toNat ≤ slot_offset m page i
  records_inside : ∀ i < total_slots m page,
    slot_offset m page i + INDEX_SLOT_DATA_SIZE ≤ MAX_USABLE_PAGE_SIZE
  records_apart : ∀ i < total_slots m page, ∀ j < total_slots m page, i ≠ j →
    slot_offset m page i + INDEX_SLOT_DATA_SIZE ≤ slot_offset m page j
      ∨ slot_offset m page j + INDEX_SLOT_DATA_SIZE ≤ slot_offset m page i
  account : (m.load16 (DBPageHeader.free_total page)).toNat
    + (INDEX_SLOT_DATA_SIZE + SLOT_ENTRY_SIZE) * total_slots m page
      = MAX_USABLE_PAGE_SIZE - DBPageHeader.sizeof

section

variable {m : Mem} {page : Nat} {page_no : UInt16} {flag : UInt8} {slots : List IndexSlotData}

theorem Filled.slot_offset (h : Filled m page page_no flag slots) {i : Nat}
    (hi : i < slots.length) :
    ∃ k < slots.length, Index.slot_offset m page i = 4032 - 23 * (k + 1)
      ∧ Index.entry_at m (slot_entry (directory page) i) = written_entry k := by
  obtain ⟨k, hk, heq⟩ := h.entry_at hi
  refine ⟨k, hk, ?_, heq⟩
  rw [Index.slot_offset, h.packed.entries]
  exact (written_entry_fields heq).2.1

/-- The entries of the directory are different. -/
theorem Filled.entry_at_inj (h : Filled m page page_no flag slots) {i j : Nat}
    (hi : i < slots.length) (hj : j < slots.length)
    (heq : Index.entry_at m (slot_entry (directory page) i)
      = Index.entry_at m (slot_entry (directory page) j)) : i = j := by
  have hle := h.packed.le
  have hnodup : (entry_list m (directory page) slots.length).Nodup := by
    refine h.entries.nodup_iff.mpr ((List.nodup_range).map_on fun k hk l hl hkl => ?_)
    have hk := List.mem_range.mp hk
    have hl := List.mem_range.mp hl
    exact written_entry_id_inj (by omega) (by omega) (congrArg Entry.slot_id hkl)
  have hi' : i < (entry_list m (directory page) slots.length).length := by rwa [length_entry_list]
  have hj' : j < (entry_list m (directory page) slots.length).length := by rwa [length_entry_list]
  have hget : (entry_list m (directory page) slots.length)[i]
      = (entry_list m (directory page) slots.length)[j] := by
    rw [entry_list_getElem, entry_list_getElem, heq]
  exact hnodup.getElem_inj_iff.mp hget

theorem Filled.layoutOk (h : Filled m page page_no flag slots) : LayoutOk m page := by
  have hle := h.packed.le
  have htotal := h.packed.total
  have hstart : (m.load16 (DBPageHeader.free_start page)).toNat = 34 := by
    rw [h.packed.free_start]
    rfl
  have hend : (m.load16 (DBPageHeader.free_end page)).toNat = 4032 - 23 * slots.length := by
    rw [h.packed.free_end, UInt16.toNat_ofNat', Nat.mod_eq_of_lt (by omega)]
  have hfree : (m.load16 (DBPageHeader.free_total page)).toNat = 3998 - 47 * slots.length := by
    rw [h.packed.free_total, UInt16.toNat_ofNat', Nat.mod_eq_of_lt (by omega)]
  have hsize : INDEX_SLOT_DATA_SIZE = 23 := rfl
  have hentry : SLOT_ENTRY_SIZE = 24 := rfl
  have hdirectory : directory_end m page = 34 + slots.length * 24 := by
    rw [directory_end, hstart, htotal, SlotEntry.sizeof]
  constructor
  case directory_inside => rw [hdirectory, MAX_USABLE_PAGE_SIZE_eq]; omega
  case directory_below => rw [hdirectory, hend]; omega
  case records_above =>
    intro i hi
    obtain ⟨k, hk, hoffset, -⟩ := h.slot_offset (htotal ▸ hi)
    rw [hend, hoffset]
    omega
  case records_inside =>
    intro i hi
    obtain ⟨k, hk, hoffset, -⟩ := h.slot_offset (htotal ▸ hi)
    rw [hoffset, hsize, MAX_USABLE_PAGE_SIZE_eq]
    omega
  case records_apart =>
    intro i hi j hj hne
    obtain ⟨k, hk, hoffset, hentry_i⟩ := h.slot_offset (htotal ▸ hi)
    obtain ⟨l, hl, hoffset', hentry_j⟩ := h.slot_offset (htotal ▸ hj)
    -- different entries, so different slots
    have hkl : k ≠ l := fun heq =>
      hne (h.entry_at_inj (htotal ▸ hi) (htotal ▸ hj) (by rw [hentry_i, hentry_j, heq]))
    rw [hoffset, hoffset', hsize]
    omega
  case account =>
    rw [hfree, htotal, hsize, hentry, MAX_USABLE_PAGE_SIZE_eq, DBPageHeader.sizeof]
    omega

end

/-! ## §2. Freeing. -/

section

variable {pager : Pager} {page : Nat} {page_no : UInt16} {flag : UInt8}
  {slots : List IndexSlotData}

/-- **Freeing slot `k`**: one slot less, but 40 bytes more and not 47. -/
theorem Filled.free_slot_account (h : Filled pager.mem page page_no flag slots)
    (hpage : pager_get_page pager page_no = some page) {k : Nat} (hk : k + 1 < slots.length) :
    let m' := (free_index_slot pager page_no (UInt8.ofNat (k + 1))).mem
    total_slots m' page = slots.length - 1
    ∧ (m'.load16 (DBPageHeader.free_total page)).toNat = 4038 - 47 * slots.length := by
  have hle := h.packed.le
  have hid := toNat_written_id (k := k) (by omega)
  obtain ⟨i, hi, hfind, -⟩ := h.find_entry (Nat.lt_of_succ_lt hk)
  simp only [free_index_slot, hpage, h.packed.total, hid, if_neg (Nat.not_le.mpr hk), hfind,
    h.packed.entries, Pager.withMem_mem]
  generalize hm₁ : pager.mem.memmove (slot_entry (directory page) i)
    (slot_entry (directory page) (i + 1)) ((slots.length - i - 1) * SlotEntry.sizeof) = m₁
  have hmove :
      pager.mem.SameOff (directory page) (slot_entry (directory page) slots.length) m₁ :=
    hm₁ ▸ close_gap_frame pager.mem (directory page) hi
  have hsize : m₁.load (SlotEntry.size (slot_entry (directory page) i)) 8 = 16 := by
    rw [← hm₁]
    refine close_gap_size hi fun l hl => ?_
    obtain ⟨k, -, heq⟩ := h.entry_at hl
    exact (written_entry_fields heq).2.2
  have hcount : m₁.load8 (DBPageHeader.free_slot_count page) = 0 :=
    (hmove.load8 (Or.inl (by simp))).trans h.packed.free_slot_count
  constructor
  · have htotal : m₁.load8 (DBPageHeader.total_slots page) = UInt8.ofNat slots.length :=
      (hmove.load8 (Or.inl (by simp))).trans h.packed.total_slots
    rw [total_slots, uncount_slot_total, htotal, ← UInt8.ofNat_one, ← UInt8.ofNat_sub (by omega),
      UInt8.toNat_ofNat', Nat.mod_eq_of_lt (by omega)]
  · have hfree : m₁.load16 (DBPageHeader.free_total page)
        = UInt16.ofNat (3998 - 47 * slots.length) :=
      (hmove.load16 (Or.inl (by simp))).trans h.packed.free_total
    rw [uncount_slot_total_free _ (by rw [hcount]; decide) (by simp [slot_entry]), hsize, hfree,
      ← UInt16.ofNat_add, UInt16.toNat_ofNat', SlotEntry.sizeof, Nat.mod_eq_of_lt (by omega)]
    omega

/-- After that the layout is not the one claimed. -/
theorem Filled.not_layoutOk_free (h : Filled pager.mem page page_no flag slots)
    (hpage : pager_get_page pager page_no = some page) {k : Nat} (hk : k + 1 < slots.length) :
    ¬ LayoutOk (free_index_slot pager page_no (UInt8.ofNat (k + 1))).mem page := by
  have hle := h.packed.le
  obtain ⟨htotal, hfree⟩ := h.free_slot_account hpage hk
  intro hlayout
  have haccount := hlayout.account
  have hslot : INDEX_SLOT_DATA_SIZE + SLOT_ENTRY_SIZE = 47 := rfl
  rw [htotal, hfree, hslot, MAX_USABLE_PAGE_SIZE_eq, DBPageHeader.sizeof] at haccount
  omega

end

/-! ## §3. Runs. -/

/-- A page set up by an initialiser of `index_page.c`, or by one of `pager.c` under the same
name. -/
inductive NewIndexPage (page_no : UInt16) : Nat → Pager → Prop where
  | init_index_leaf_page {before start : Pager} {page : Nat} :
      Index.init_index_leaf_page before page_no = some (page, start) → NewIndexPage page_no page start
  | init_index_internal_page {before start : Pager} {page : Nat} :
      Index.init_index_internal_page before page_no = some (page, start) →
      NewIndexPage page_no page start
  | pager_init_index_leaf_page {before start : Pager} {page : Nat} :
      Db.init_index_leaf_page before page_no = (page, start) → NewIndexPage page_no page start
  | pager_init_index_internal_page {before start : Pager} {page : Nat} :
      Db.init_index_internal_page before page_no = (page, start) → NewIndexPage page_no page start

/-- The calls on one page. -/
inductive SlotOp where
  | write_index_slot (slot : IndexSlotData) (junk : Junk)
  | free_index_slot (slot_id : UInt8)

def SlotOp.exec (page_no : UInt16) (pager : Pager) : SlotOp → Pager
  | .write_index_slot slot junk => Index.write_index_slot pager page_no slot junk
  | .free_index_slot slot_id => Index.free_index_slot pager page_no slot_id

/-- The calls that take nothing out of the page at `page`. -/
def SlotOp.KeepsSlots (page : Nat) (pager : Pager) : SlotOp → Prop
  | .write_index_slot _ _ => True
  | .free_index_slot slot_id =>
      slot_id = 0 ∨ total_slots pager.mem page ≤ slot_id.toNat

/-- The page is laid out well, and nothing outside it was written. -/
def LayoutKept (start : Pager) (page : Nat) (pager : Pager) : Prop :=
  LayoutOk pager.mem page
  ∧ start.mem.SameOff page (DBPage.data page + MAX_USABLE_PAGE_SIZE) pager.mem

section

variable {start pager : Pager} {page : Nat} {page_no : UInt16} {flag : UInt8}
  {slots : List IndexSlotData}

/-- A call that takes nothing out of a filled page leaves it filled. -/
theorem Filled.exec (h : Filled pager.mem page page_no flag slots)
    (hpage : pager_get_page pager page_no = some page) {op : SlotOp}
    (hkeeps : op.KeepsSlots page pager) :
    (∃ slots', Filled (op.exec page_no pager).mem page page_no flag slots')
    ∧ pager.mem.SameOff page (DBPage.data page + MAX_USABLE_PAGE_SIZE)
        (op.exec page_no pager).mem := by
  cases op with
  | write_index_slot slot junk =>
      by_cases hroom : slots.length < 68
      · obtain ⟨m', hwrite, hfilled, hsame⟩ := h.write_room hroom hpage slot junk
        rw [SlotOp.exec, hwrite]
        exact ⟨⟨_, hfilled⟩, hsame⟩
      · rw [SlotOp.exec, h.write_full (Nat.not_lt.mp hroom) hpage]
        exact ⟨⟨slots, h⟩, SameOff.refl _ _ _⟩
  | free_index_slot slot_id =>
      rw [SlotOp.KeepsSlots, h.packed.total] at hkeeps
      rw [SlotOp.exec, h.free_other hpage hkeeps]
      exact ⟨⟨slots, h⟩, SameOff.refl _ _ _⟩

/-- **One call** on a page that was only written to. -/
theorem Filled.layoutKept_exec_iff (h : Filled pager.mem page page_no flag slots)
    (hpage : pager_get_page pager page_no = some page) (hkept : LayoutKept start page pager)
    (op : SlotOp) :
    LayoutKept start page (op.exec page_no pager) ↔ op.KeepsSlots page pager := by
  constructor
  · intro hlayout
    cases op with
    | write_index_slot slot junk => exact trivial
    | free_index_slot slot_id =>
        by_contra hfrees
        obtain ⟨hne, hlt⟩ := not_or.mp hfrees
        rw [h.packed.total] at hlt
        -- the id is one of those that can be read
        have hpos : slot_id.toNat ≠ 0 := fun h0 => hne (UInt8.toNat_inj.mp h0)
        have hid : slot_id = UInt8.ofNat (slot_id.toNat - 1 + 1) := by
          rw [Nat.sub_add_cancel (Nat.pos_of_ne_zero hpos), UInt8.ofNat_toNat]
        refine h.not_layoutOk_free hpage (k := slot_id.toNat - 1) (by omega) ?_
        rw [← hid]
        exact hlayout.1
  · intro hkeeps
    obtain ⟨⟨slots', hfilled⟩, hsame⟩ := h.exec hpage hkeeps
    exact ⟨hfilled.layoutOk, hkept.2.trans hsame⟩

theorem NewIndexPage.filled (h : NewIndexPage page_no page start) :
    page = page_no.toNat * PAGE_SIZE ∧ ∃ flag, Filled start.mem page page_no flag [] := by
  cases h with
  | init_index_leaf_page h =>
      obtain ⟨hpage, hfilled⟩ := init_index_page_filled h
      exact ⟨(pager_get_page_eq_some hpage).2, _, hfilled⟩
  | init_index_internal_page h =>
      obtain ⟨hpage, hfilled⟩ := init_index_page_filled h
      exact ⟨(pager_get_page_eq_some hpage).2, _, hfilled⟩
  | pager_init_index_leaf_page h =>
      cases h
      exact ⟨rfl, _, allocate_page_filled _ _ _⟩
  | pager_init_index_internal_page h =>
      cases h
      exact ⟨rfl, _, allocate_page_filled _ _ _⟩

/-- On a page that cannot be read no call does anything. -/
theorem exec_unreadable (hpage : pager_get_page pager page_no = none) (op : SlotOp) :
    op.exec page_no pager = pager := by
  cases op with
  | write_index_slot slot junk => simp only [SlotOp.exec, write_index_slot, hpage]
  | free_index_slot slot_id => simp only [SlotOp.exec, free_index_slot, hpage]

end

/-- **The layout of a page** holds throughout a run of writes and frees exactly when no
free takes out a slot. -/
theorem slot_layout_iff (page_no : UInt16) (page : Nat) (start : Pager)
    (hnew : NewIndexPage page_no page start) (ops : List SlotOp) :
    Throughout (SlotOp.exec page_no) (LayoutKept start page) start ops
      ↔ EachStep (SlotOp.exec page_no) (SlotOp.KeepsSlots page) start ops := by
  obtain ⟨haddress, flag, hfilled⟩ := hnew.filled
  have hstart : LayoutKept start page start := ⟨hfilled.layoutOk, SameOff.refl _ _ _⟩
  cases hpage : pager_get_page start page_no with
  | none =>
      -- the page stays empty
      have hkeeps : ∀ op : SlotOp, op.KeepsSlots page start := by
        intro op
        cases op with
        | write_index_slot slot junk => exact trivial
        | free_index_slot slot_id => exact Or.inr (hfilled.packed.total ▸ Nat.zero_le _)
      have hstep : ∀ s (op : SlotOp), s = start → LayoutKept start page s →
          (LayoutKept start page (op.exec page_no s) ↔ op.KeepsSlots page s) := by
        intro s op hs hkept
        subst hs
        rw [exec_unreadable hpage op]
        exact iff_of_true hkept (hkeeps op)
      rw [throughout_iff_of_kept (fun s op h _ _ => by rw [h]; exact exec_unreadable hpage op)
        hstep ops start rfl]
      exact and_iff_right hstart
  | some a =>
      obtain rfl : a = page := (pager_get_page_eq_some hpage).2.trans haddress.symm
      rw [throughout_iff_of_kept
        (I := fun pager => ∃ slots, Filled pager.mem a page_no flag slots)
        (fun s op ⟨_, h⟩ _ hkeeps => (h.exec hpage hkeeps).1)
        (fun s op ⟨_, h⟩ hkept => h.layoutKept_exec_iff hpage hkept op) ops start ⟨[], hfilled⟩]
      exact and_iff_right hstart

/-- An empty leaf at page 1 of a new file. -/
def new_leaf : Pager :=
  fresh_pager.withMem (init_index_header fresh_pager.mem PAGE_SIZE 1 PAGE_INDEX_LEAF)

theorem newIndexPage_new_leaf : NewIndexPage 1 PAGE_SIZE new_leaf :=
  .init_index_leaf_page (show init_index_leaf_page fresh_pager 1 = some (PAGE_SIZE, new_leaf)
    from rfl)

theorem slot_layout_iff_new_leaf :
    let ops : List SlotOp := [.write_index_slot .zero fun _ => .zero, .free_index_slot 1]
    Throughout (SlotOp.exec 1) (LayoutKept new_leaf PAGE_SIZE) new_leaf ops
      ↔ EachStep (SlotOp.exec 1) (SlotOp.KeepsSlots PAGE_SIZE) new_leaf ops :=
  slot_layout_iff 1 PAGE_SIZE new_leaf newIndexPage_new_leaf _

/-- Two writes and a free of the first slot. -/
theorem Filled.free_first_of_two {pager : Pager} {page : Nat} {page_no : UInt16} {flag : UInt8}
    (h : Filled pager.mem page page_no flag []) (hpage : pager_get_page pager page_no = some page)
    (slot : IndexSlotData) (junk : Junk) :
    let written := write_index_slot (write_index_slot pager page_no slot junk) page_no slot junk
    let freed := free_index_slot written page_no 1
    total_slots freed.mem page = 1
    ∧ (freed.mem.load16 (DBPageHeader.free_total page)).toNat = 3944
    ∧ ¬ LayoutOk freed.mem page := by
  obtain ⟨m₁, hwrite₁, hone, -⟩ := h.write_room (by decide) hpage slot junk
  have hone : Filled (pager.withMem m₁).mem page page_no flag [slot] := hone
  obtain ⟨m₂, hwrite₂, htwo, -⟩ := hone.write_room (by simp) hpage slot junk
  have htwo : Filled ((pager.withMem m₁).withMem m₂).mem page page_no flag [slot, slot] := htwo
  rw [hwrite₁, hwrite₂]
  obtain ⟨htotal, hfree⟩ := htwo.free_slot_account hpage (k := 0) (by simp)
  exact ⟨htotal, hfree, htwo.not_layoutOk_free hpage (k := 0) (by simp)⟩

/-- One slot is left and 3944 bytes are counted, not 3951. -/
theorem freed_slot_short :
    let junk : Junk := fun _ => .zero
    let ops : List SlotOp :=
      [.write_index_slot .zero junk, .write_index_slot .zero junk, .free_index_slot 1]
    let pager := ops.foldl (SlotOp.exec 1) new_leaf
    total_slots pager.mem PAGE_SIZE = 1
    ∧ (pager.mem.load16 (DBPageHeader.free_total PAGE_SIZE)).toNat = 3944
    ∧ ¬ Throughout (SlotOp.exec 1) (LayoutKept new_leaf PAGE_SIZE) new_leaf ops := by
  intro junk ops pager
  obtain ⟨-, flag, hempty⟩ := newIndexPage_new_leaf.filled
  obtain ⟨htotal, hfree, hbad⟩ := hempty.free_first_of_two rfl .zero junk
  exact ⟨htotal, hfree, fun h => hbad h.2.2.2.1⟩

end PreSeQL.Index
