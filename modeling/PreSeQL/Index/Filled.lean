/-
  PreSeQL.Index.Filled — the contents of a packed page.

  A page is `Filled` with a list of slots when it is packed, its directory is a
  permutation of the entries those writes make, and the records are the slots.  The
  order of the directory, which depends on what the insertion read, is left open: slots
  are read by id.

    • `Filled.write_room` — a write appends its slot,
    • `Filled.read` — the ids that can be read are `1 … c - 1`, not the last one.
-/
import PreSeQL.Index.Growth

namespace PreSeQL.Index

open PreSeQL.Lib PreSeQL.Lib.Mem PreSeQL.Db

/-! ## §1. The invariant. -/

structure Filled (m : Mem) (page : Nat) (page_no : UInt16) (flag : UInt8)
    (slots : List IndexSlotData) : Prop where
  packed : Packed m page page_no flag slots.length
  entries : (entry_list m (directory page) slots.length).Perm
    ((List.range slots.length).map written_entry)
  records : ∀ k (h : k < slots.length) (old : IndexSlotData),
    read_record m (record_address page k) 16 old = slots[k]

section

variable {m m' : Mem} {page : Nat} {page_no : UInt16} {flag : UInt8} {slots : List IndexSlotData}

theorem filled_init (m : Mem) (page : Nat) (page_no : UInt16) (flag : UInt8) :
    Filled (init_index_header m page page_no flag) page page_no flag [] :=
  ⟨packed_init m page page_no flag, List.Perm.refl _, fun k h => absurd h (Nat.not_lt_zero k)⟩

/-- The initialiser of `pager.c` leaves the same header. -/
theorem filled_allocate_page_header (m : Mem) (page : Nat) (page_no : UInt16) (flag : UInt8) :
    Filled (allocate_page_header m page page_no flag) page page_no flag [] := by
  have hfresh := freshPage_allocate_page_header m page page_no flag
  have hzero : ∀ i, 12 ≤ i → i < 15 →
      (allocate_page_header m page page_no flag).load8 (page + i) = 0 :=
    fun i hlo hhi => hfresh.rest _ (Or.inr (by simp; omega))
  have hpacked : Packed (allocate_page_header m page page_no flag) page page_no flag 0 :=
    ⟨hfresh.page_id, hfresh.flag, hfresh.free_start, hfresh.free_end, hfresh.free_total,
      hzero 12 (by decide) (by decide), hzero 13 (by decide) (by decide),
      hzero 14 (by decide) (by decide), fun i hi => absurd hi (Nat.not_lt_zero i), Nat.zero_le 68⟩
  exact ⟨hpacked, List.Perm.refl _, fun k h => absurd h (Nat.not_lt_zero k)⟩

theorem Filled.frame (h : Filled m page page_no flag slots) {lo hi : Nat}
    (hsame : m.SameOff lo hi m')
    (hoff : hi ≤ page ∨ page + PAGE_SIZE ≤ lo ∨ page + 15 ≤ lo ∧ hi ≤ page + 68) :
    Filled m' page page_no flag slots := by
  have hle := h.packed.le
  refine ⟨h.packed.frame hsame hoff, ?_, fun k hk old => ?_⟩
  · rw [entry_list_of_sameOff hsame]
    · exact h.entries
    · simp only [slot_entry, directory, SlotEntry.sizeof, PAGE_SIZE] at hoff ⊢
      omega
  · rw [read_record_of_sameOff hsame]
    · exact h.records k hk old
    · simp only [record_address, DBPage.data, DBPageHeader.sizeof, PAGE_SIZE] at hoff ⊢
      omega

/-- The next slot is appended. -/
theorem Filled.written {slot : IndexSlotData} (h : Filled m page page_no flag slots)
    (hw : SlotWritten m m' page page_no flag slots.length slot) :
    Filled m' page page_no flag (slots ++ [slot]) := by
  have hle := hw.packed.le
  have hlen : (slots ++ [slot]).length = slots.length + 1 := List.length_append
  refine ⟨hlen ▸ hw.packed, ?_, fun k hk old => ?_⟩
  · obtain ⟨insert_pos, hpos, hlist⟩ := hw.entries
    rw [hlen, hlist, List.range_succ, List.map_append, List.map_singleton]
    have hput : ((entry_list m (directory page) slots.length).insertIdx insert_pos
        (written_entry slots.length)).Perm
        (written_entry slots.length :: entry_list m (directory page) slots.length) :=
      List.perm_insertIdx _ _ (by rwa [length_entry_list])
    exact hput.trans ((h.entries.cons _).trans (List.perm_append_singleton _ _).symm)
  · rw [hlen] at hk
    rcases Nat.lt_succ_iff_lt_or_eq.mp hk with hlt | rfl
    · -- the records written before lie above the new one
      rw [List.getElem_append_left hlt, read_record_of_sameOff hw.frame]
      · exact h.records k hlt old
      · simp only [record_address, DBPage.data, DBPageHeader.sizeof]
        omega
    · rw [List.getElem_concat_length]
      · exact hw.record old
      · rfl

/-- The entries are those of the slots. -/
theorem Filled.entry_at (h : Filled m page page_no flag slots) {i : Nat} (hi : i < slots.length) :
    ∃ k < slots.length,
      Index.entry_at m (slot_entry (directory page) i) = written_entry k := by
  have hmem : Index.entry_at m (slot_entry (directory page) i)
      ∈ entry_list m (directory page) slots.length :=
    List.mem_map_of_mem (List.mem_range.mpr hi)
  obtain ⟨k, hk, heq⟩ := List.mem_map.mp (h.entries.mem_iff.mp hmem)
  exact ⟨k, List.mem_range.mp hk, heq.symm⟩

theorem toNat_written_id {k : Nat} (hk : k < 68) : (UInt8.ofNat (k + 1)).toNat = k + 1 := by
  rw [UInt8.toNat_ofNat', Nat.mod_eq_of_lt (by omega)]

/-- The entry of slot `k` in memory. -/
theorem written_entry_fields {entry k : Nat} (h : Index.entry_at m entry = written_entry k) :
    m.load8 (SlotEntry.slot_id entry) = UInt8.ofNat (k + 1)
    ∧ m.load (SlotEntry.offset entry) 8 = 4032 - 23 * (k + 1)
    ∧ m.load (SlotEntry.size entry) 8 = 16 := by
  simpa only [Index.entry_at, written_entry, Entry.mk.injEq] using h

/-- Different entries have different ids. -/
theorem written_entry_id_inj {k l : Nat} (hk : k < 68) (hl : l < 68)
    (h : (written_entry k).slot_id = (written_entry l).slot_id) : k = l := by
  have hid := congrArg UInt8.toNat h
  rw [written_entry, written_entry, toNat_written_id hk, toNat_written_id hl] at hid
  exact Nat.succ.inj hid

/-- The entry of a slot that is there. -/
theorem Filled.find_entry (h : Filled m page page_no flag slots) {k : Nat}
    (hk : k < slots.length) :
    ∃ i < slots.length, Index.find_entry m page (UInt8.ofNat (k + 1)) = some i
      ∧ Index.entry_at m (slot_entry (directory page) i) = written_entry k := by
  have hle := h.packed.le
  have hmem : written_entry k ∈ entry_list m (directory page) slots.length :=
    h.entries.mem_iff.mpr (List.mem_map_of_mem (List.mem_range.mpr hk))
  obtain ⟨j, hj, hentry⟩ := List.mem_map.mp hmem
  cases hfind : Index.find_entry m page (UInt8.ofNat (k + 1)) with
  | none =>
      rw [Index.find_entry, h.packed.total, h.packed.entries, List.find?_eq_none] at hfind
      exact absurd (beq_iff_eq.mpr (congrArg Entry.slot_id hentry)) (hfind j hj)
  | some i =>
      rw [Index.find_entry, h.packed.total, h.packed.entries] at hfind
      have hi := List.mem_range.mp (List.mem_of_find?_eq_some hfind)
      have hid := List.find?_some hfind
      rw [beq_iff_eq] at hid
      obtain ⟨l, hl, heq⟩ := h.entry_at hi
      have hkl : l = k := by
        refine written_entry_id_inj (by omega) (by omega) ?_
        rw [← heq]
        exact hid
      exact ⟨i, hi, rfl, hkl ▸ heq⟩

/-- No other id is there. -/
theorem Filled.find_entry_none (h : Filled m page page_no flag slots) {slot_id : UInt8}
    (hid : slot_id = 0 ∨ slots.length < slot_id.toNat) :
    Index.find_entry m page slot_id = none := by
  have hle := h.packed.le
  rw [Index.find_entry, h.packed.total, h.packed.entries, List.find?_eq_none]
  intro i hi hfound
  obtain ⟨k, hk, heq⟩ := h.entry_at (List.mem_range.mp hi)
  have hslot : slot_id = UInt8.ofNat (k + 1) :=
    (beq_iff_eq.mp hfound).symm.trans (congrArg Entry.slot_id heq)
  have hnat := toNat_written_id (k := k) (by omega)
  rw [← hslot] at hnat
  rcases hid with rfl | hlt
  · cases hnat
  · omega

end

/-! ## §2. Reading and writing. -/

section

variable {pager : Pager} {page : Nat} {page_no : UInt16} {flag : UInt8}
  {slots : List IndexSlotData}

theorem init_index_page_filled {before : Pager} (h : init_index_page before page_no flag
    = some (page, pager)) :
    pager_get_page pager page_no = some page ∧ Filled pager.mem page page_no flag [] := by
  unfold init_index_page at h
  cases hpage : pager_get_page before page_no with
  | none => rw [hpage] at h; cases h
  | some a =>
      rw [hpage] at h
      cases h
      exact ⟨hpage, filled_init _ _ _ _⟩

/-- The number of an initialised page is written behind its header or in front of it. -/
theorem allocate_page_filled (before : Pager) (page_no : UInt16) (flag : UInt8) :
    Filled (allocate_page before page_no flag).2.mem (page_no.toNat * PAGE_SIZE) page_no flag
      [] := by
  have hfilled := filled_allocate_page_header before.mem (page_no.toNat * PAGE_SIZE) page_no flag
  rw [allocate_page, mark_page_used_mem]
  split
  next hlt =>
    have hne : page_no ≠ 0 := fun h0 => absurd (h0 ▸ hlt) (not_lt.mpr UInt16.zero_le)
    have hpage := PAGE_SIZE_le_page hne
    refine hfilled.frame (sameOff_store _ _ _ _) (Or.inl (Nat.le_trans ?_ hpage))
    simp
  next => exact hfilled

/-- A write to a page with room. -/
theorem Filled.write_room (h : Filled pager.mem page page_no flag slots)
    (hroom : slots.length < 68) (hpage : pager_get_page pager page_no = some page)
    (slot : IndexSlotData) (junk : Junk) :
    ∃ m', write_index_slot pager page_no slot junk = pager.withMem m'
      ∧ Filled m' page page_no flag (slots ++ [slot])
      ∧ pager.mem.SameOff page (DBPage.data page + MAX_USABLE_PAGE_SIZE) m' := by
  obtain ⟨m', hwrite, hw⟩ := h.packed.write_room hroom hpage slot junk
  refine ⟨m', hwrite, h.written hw, hw.frame.mono (Nat.le_refl _) ?_⟩
  simp only [DBPage.data, DBPageHeader.sizeof, MAX_USABLE_PAGE_SIZE_eq]
  omega

/-- **Reading by id**: every slot but the last is found, -/
theorem Filled.read_slot (h : Filled pager.mem page page_no flag slots)
    (hpage : pager_get_page pager page_no = some page) {k : Nat} (hk : k + 1 < slots.length)
    (old : IndexSlotData) :
    read_index_slot pager page_no (UInt8.ofNat (k + 1)) old = slots[k] := by
  have hle := h.packed.le
  have hid := toNat_written_id (k := k) (by omega)
  obtain ⟨i, -, hfind, hentry⟩ := h.find_entry (Nat.lt_of_succ_lt hk)
  simp only [read_index_slot, hpage, h.packed.total, hid, if_neg (Nat.not_le.mpr hk), hfind,
    h.packed.entries, entry_record]
  -- the entry tells where its record is
  obtain ⟨-, hoffset, hsize⟩ := written_entry_fields hentry
  rw [hoffset, hsize]
  exact h.records k (Nat.lt_of_succ_lt hk) old

/-- but the guard refuses the last id, and there is no id 0. -/
theorem Filled.read_other (h : Filled pager.mem page page_no flag slots)
    (hpage : pager_get_page pager page_no = some page) {slot_id : UInt8}
    (hid : slot_id = 0 ∨ slots.length ≤ slot_id.toNat) (old : IndexSlotData) :
    read_index_slot pager page_no slot_id old = old := by
  simp only [read_index_slot, hpage, h.packed.total]
  rcases hid with rfl | hguard
  · rw [h.find_entry_none (Or.inl rfl), ite_self]
  · rw [if_pos hguard]

/-- A full page is left as it is. -/
theorem Filled.write_full (h : Filled pager.mem page page_no flag slots)
    (hfull : 68 ≤ slots.length) (hpage : pager_get_page pager page_no = some page)
    (slot : IndexSlotData) (junk : Junk) :
    write_index_slot pager page_no slot junk = pager := by
  have hpacked := h.packed
  rw [Nat.le_antisymm hpacked.le hfull] at hpacked
  exact hpacked.write_full hpage slot junk

/-- Freeing an id that cannot be read does nothing. -/
theorem Filled.free_other (h : Filled pager.mem page page_no flag slots)
    (hpage : pager_get_page pager page_no = some page) {slot_id : UInt8}
    (hid : slot_id = 0 ∨ slots.length ≤ slot_id.toNat) :
    free_index_slot pager page_no slot_id = pager := by
  simp only [free_index_slot, hpage, h.packed.total]
  rcases hid with rfl | hguard
  · rw [h.find_entry_none (Or.inl rfl), ite_self]
  · rw [if_pos hguard]

end

end PreSeQL.Index
