/-
  PreSeQL.Index.Packed — pages that `write_index_slot` has filled.

  A page is `Packed` with `c` slots when its header is the one `c` insertions leave on
  an empty page, and no entry has slot id 0: the first id given out is 1.

    • `packed_init` — an initialised page is packed with no slots,
    • `write_index_slot_packed` — a write puts one slot more on the page, or finds it
      full, and stays inside the page,
    • `Packed.read_zero` — reading slot 0 fills nothing.
-/
import PreSeQL.Index.BTree

namespace PreSeQL.Index

open PreSeQL.Lib PreSeQL.Lib.Mem PreSeQL.Db

/-! ## §1. The invariant. -/

/-- The address of the directory in an initialised page. -/
@[simp] def directory (page : Nat) : Nat := page + 68

structure Packed (m : Mem) (page : Nat) (page_no : UInt16) (flag : UInt8) (c : Nat) : Prop where
  page_id : m.load16 (DBPageHeader.page_id page) = page_no
  flag : m.load8 (DBPageHeader.flag page) = flag
  free_start : m.load16 (DBPageHeader.free_start page) = 34
  free_end : m.load16 (DBPageHeader.free_end page) = UInt16.ofNat (4032 - 23 * c)
  free_total : m.load16 (DBPageHeader.free_total page) = UInt16.ofNat (3998 - 47 * c)
  total_slots : m.load8 (DBPageHeader.total_slots page) = UInt8.ofNat c
  highest_slot : m.load8 (DBPageHeader.highest_slot page) = UInt8.ofNat c
  free_slot_count : m.load8 (DBPageHeader.free_slot_count page) = 0
  ids : ∀ i < c, m.load8 (SlotEntry.slot_id (slot_entry (directory page) i)) ≠ 0
  le : c ≤ 68

section

variable {m m' : Mem} {page : Nat} {page_no : UInt16} {flag : UInt8} {c : Nat}

/-- Only the header, the directory and the records matter: a write elsewhere, or between
the header and the directory, keeps the page packed. -/
theorem Packed.frame (h : Packed m page page_no flag c) {lo hi : Nat} (hsame : m.SameOff lo hi m')
    (hoff : hi ≤ page ∨ page + PAGE_SIZE ≤ lo ∨ page + 15 ≤ lo ∧ hi ≤ page + 68) :
    Packed m' page page_no flag c := by
  have hle := h.le
  simp only [PAGE_SIZE] at hoff
  -- the header fields are the first 15 bytes
  have h8 : ∀ k < 15, m'.load8 (page + k) = m.load8 (page + k) :=
    fun k hk => hsame.load8 (by omega)
  have h16 : ∀ k, k + 2 ≤ 15 → m'.load16 (page + k) = m.load16 (page + k) :=
    fun k hk => hsame.load16 (by omega)
  refine ⟨?_, ?_, ?_, ?_, ?_, ?_, ?_, ?_, fun i hi => ?_, h.le⟩
  · exact (h16 0 (by omega)).trans h.page_id
  · exact (h8 4 (by omega)).trans h.flag
  · exact (h16 6 (by omega)).trans h.free_start
  · exact (h16 8 (by omega)).trans h.free_end
  · exact (h16 10 (by omega)).trans h.free_total
  · exact (h8 12 (by omega)).trans h.total_slots
  · exact (h8 13 (by omega)).trans h.highest_slot
  · exact (h8 14 (by omega)).trans h.free_slot_count
  · have hentry := h.ids i hi
    simp only [SlotEntry.slot_id, slot_entry, directory, SlotEntry.sizeof] at hentry ⊢
    rwa [hsame.load8 (by omega)]

theorem Packed.total (h : Packed m page page_no flag c) : Index.total_slots m page = c := by
  have hle := h.le
  rw [Index.total_slots, h.total_slots, UInt8.toNat_ofNat', Nat.mod_eq_of_lt (by omega)]

theorem Packed.entries (h : Packed m page page_no flag c) :
    slot_entries m page = directory page := by
  rw [slot_entries, h.free_start]
  rfl

theorem Packed.used_space (h : Packed m page page_no flag c) : USED_SPACE m page = 34 + 47 * c := by
  have hle := h.le
  rw [USED_SPACE, h.free_total, UInt16.toNat_ofNat', Nat.mod_eq_of_lt (by omega)]
  simp only [MAX_USABLE_PAGE_SIZE_eq]
  omega

theorem Packed.label (h : Packed m page page_no flag c) : header_page_id m page = page_no :=
  h.page_id

theorem Packed.leaf (h : Packed m page page_no PAGE_INDEX_LEAF c) :
    IS_LEAF m page = true ∧ IS_INTERNAL m page = false := by
  rw [IS_LEAF, IS_INTERNAL, h.flag]
  exact ⟨rfl, rfl⟩

theorem Packed.inner (h : Packed m page page_no PAGE_INDEX_INTERNAL c) :
    IS_LEAF m page = false ∧ IS_INTERNAL m page = true := by
  rw [IS_LEAF, IS_INTERNAL, h.flag]
  exact ⟨rfl, rfl⟩

/-- No entry has slot id 0. -/
theorem Packed.find_zero (h : Packed m page page_no flag c) : find_entry m page 0 = none := by
  rw [find_entry, h.total, h.entries, List.find?_eq_none]
  intro i hi
  simpa using h.ids i (List.mem_range.mp hi)

end

/-! ## §2. An empty page. -/

theorem packed_init (m : Mem) (page : Nat) (page_no : UInt16) (flag : UInt8) :
    Packed (init_index_header m page page_no flag) page page_no flag 0 := by
  constructor
  case ids => intro i hi; omega
  case le => omega
  all_goals
    simp (disch := omega) only [init_index_header, DBPageHeader.page_id, DBPageHeader.flag,
      DBPageHeader.free_start, DBPageHeader.free_end, DBPageHeader.free_total,
      DBPageHeader.total_slots, DBPageHeader.highest_slot, DBPageHeader.free_slot_count,
      DBPageHeader.right_sibling_page_id, DBPageHeader.sizeof, load16_store16_same,
      load8_store8_same, load16_store16_of_disjoint, load16_store8_of_disjoint,
      load8_store16_of_disjoint, load8_store8_of_disjoint, load8_memset_zero]
  all_goals rfl

/-! ## §3. Writing one slot. -/

theorem shift_entries_frame (m : Mem) (entries : Nat) {insert_pos total : Nat} :
    m.SameOff entries (slot_entry entries (total + 1))
      (shift_entries m entries insert_pos total) := by
  unfold shift_entries
  split
  next h =>
    refine (SameOff.refl _ _ m).memmove ?_ ?_
    all_goals
      simp only [slot_entry, SlotEntry.sizeof]
      omega
  next => exact SameOff.refl _ _ m

/-- The fields of an entry of the directory. -/
structure Entry where
  slot_id : UInt8
  offset : Nat
  size : Nat

def entry_at (m : Mem) (entry : Nat) : Entry :=
  ⟨m.load8 (SlotEntry.slot_id entry), m.load (SlotEntry.offset entry) 8,
    m.load (SlotEntry.size entry) 8⟩

/-- The first `c` entries. -/
def entry_list (m : Mem) (entries c : Nat) : List Entry :=
  (List.range c).map fun i => entry_at m (slot_entry entries i)

@[simp] theorem length_entry_list (m : Mem) (entries c : Nat) :
    (entry_list m entries c).length = c := by
  simp [entry_list]

theorem entry_list_getElem (m : Mem) (entries : Nat) {c i : Nat}
    (h : i < (entry_list m entries c).length) :
    (entry_list m entries c)[i] = entry_at m (slot_entry entries i) := by
  simp [entry_list]

/-- The entry of the slot written to a page with `k` slots. -/
def written_entry (k : Nat) : Entry := ⟨UInt8.ofNat (k + 1), 4032 - 23 * (k + 1), 16⟩

/-- The address of its record. -/
def record_address (page k : Nat) : Nat := DBPage.data page + (4032 - 23 * (k + 1))

theorem entry_at_eq_of_bytes {m m' : Mem} {e e' : Nat}
    (h : ∀ j < SlotEntry.sizeof, m' (e' + j) = m (e + j)) : entry_at m' e' = entry_at m e := by
  have hword : ∀ k, k + 8 ≤ SlotEntry.sizeof → m'.load (e' + k) 8 = m.load (e + k) 8 := by
    refine fun k hk => load_eq_of_bytes 8 _ _ fun j hj => ?_
    rw [Nat.add_assoc, Nat.add_assoc]
    exact h (k + j) (by omega)
  have hid : m'.load8 e' = m.load8 e := h 0 (by simp)
  simp only [entry_at, SlotEntry.slot_id, SlotEntry.offset, SlotEntry.size, hid, hword 8 (by simp),
    hword 16 (by simp)]

theorem entry_at_of_sameOff {m m' : Mem} {lo hi entry : Nat} (h : m.SameOff lo hi m')
    (hd : entry + SlotEntry.sizeof ≤ lo ∨ hi ≤ entry) : entry_at m' entry = entry_at m entry :=
  entry_at_eq_of_bytes fun j hj => h _ (by omega)

theorem entry_list_of_sameOff {m m' : Mem} {lo hi entries c : Nat} (h : m.SameOff lo hi m')
    (hd : slot_entry entries c ≤ lo ∨ hi ≤ entries) :
    entry_list m' entries c = entry_list m entries c := by
  refine List.map_congr_left fun i hi => entry_at_of_sameOff h ?_
  have hi := List.mem_range.mp hi
  simp only [slot_entry, SlotEntry.sizeof] at hd ⊢
  omega

theorem shift_entries_before (m : Mem) (entries : Nat) {insert_pos total i : Nat}
    (hi : i < insert_pos) :
    entry_at (shift_entries m entries insert_pos total) (slot_entry entries i)
      = entry_at m (slot_entry entries i) := by
  unfold shift_entries
  split
  · refine entry_at_of_sameOff (sameOff_fill m _ (Nat.le_refl _) (Nat.le_refl _)) (Or.inl ?_)
    simp only [slot_entry, SlotEntry.sizeof]
    omega
  · rfl

theorem shift_entries_behind (m : Mem) (entries : Nat) {insert_pos total i : Nat}
    (hi : insert_pos ≤ i) (htotal : i < total) :
    entry_at (shift_entries m entries insert_pos total) (slot_entry entries (i + 1))
      = entry_at m (slot_entry entries i) := by
  rw [shift_entries, if_pos (Nat.lt_of_le_of_lt hi htotal)]
  refine entry_at_eq_of_bytes fun j hj => ?_
  -- the entries from `insert_pos` on are one block
  have hblock := memmove_at m (slot_entry entries (insert_pos + 1)) (slot_entry entries insert_pos)
    (n := (total - insert_pos) * SlotEntry.sizeof) (j := (i - insert_pos) * SlotEntry.sizeof + j)
    (by simp only [SlotEntry.sizeof] at hj ⊢; omega)
  simp only [slot_entry, SlotEntry.sizeof] at hblock ⊢
  convert hblock using 2 <;> omega

/-- An entry that is written into the space made for it is inserted. -/
theorem entry_list_insert {m m' : Mem} {entries insert_pos t : Nat} (hpos : insert_pos ≤ t)
    (hmoved : ∀ k ≤ t, k ≠ insert_pos → entry_at m' (slot_entry entries k)
      = entry_at (shift_entries m entries insert_pos t) (slot_entry entries k)) :
    entry_list m' entries (t + 1) = (entry_list m entries t).insertIdx insert_pos
      (entry_at m' (slot_entry entries insert_pos)) := by
  refine List.ext_getElem ?_ fun i hi hi' => ?_
  · rw [List.length_insertIdx_of_le_length (by rwa [length_entry_list]), length_entry_list,
      length_entry_list]
  · rw [length_entry_list] at hi
    rw [entry_list_getElem, List.getElem_insertIdx]
    split
    next hlt =>
      -- in front of the new entry
      rw [hmoved i (by omega) (by omega), shift_entries_before m _ hlt, entry_list_getElem]
    next hge =>
      split
      next heq => rw [heq]
      next hne =>
        -- behind it: the entry one place lower before
        obtain ⟨k, rfl⟩ : ∃ k, i = k + 1 := ⟨i - 1, by omega⟩
        rw [hmoved (k + 1) (by omega) (by omega), shift_entries_behind m _ (by omega) (by omega),
          entry_list_getElem, Nat.add_sub_cancel]

/-! `free_index_slot` closes the gap that entry `i` of `t` leaves. -/

section Gap

variable {m : Mem} {entries i t : Nat}

theorem close_gap_frame (m : Mem) (entries : Nat) (hi : i < t) :
    m.SameOff entries (slot_entry entries t)
      (m.memmove (slot_entry entries i) (slot_entry entries (i + 1))
        ((t - i - 1) * SlotEntry.sizeof)) := by
  refine (SameOff.refl _ _ m).memmove ?_ ?_
  all_goals
    simp only [slot_entry, SlotEntry.sizeof]
    omega

theorem entry_list_close_gap (hi : i < t) :
    entry_list (m.memmove (slot_entry entries i) (slot_entry entries (i + 1))
        ((t - i - 1) * SlotEntry.sizeof)) entries (t - 1)
      = (entry_list m entries t).eraseIdx i := by
  refine List.ext_getElem ?_ fun k hk hk' => ?_
  · rw [length_entry_list, List.length_eraseIdx_of_lt (by rwa [length_entry_list]),
      length_entry_list]
  · rw [length_entry_list] at hk
    rw [entry_list_getElem, List.getElem_eraseIdx]
    split
    next hlt =>
      -- in front of the gap nothing moves
      rw [entry_list_getElem]
      refine entry_at_of_sameOff (sameOff_fill m _ (Nat.le_refl _) (Nat.le_refl _)) (Or.inl ?_)
      simp only [slot_entry, SlotEntry.sizeof]
      omega
    next hge =>
      rw [entry_list_getElem]
      refine entry_at_eq_of_bytes fun j hj => ?_
      have hblock := memmove_at m (slot_entry entries i) (slot_entry entries (i + 1))
        (n := (t - i - 1) * SlotEntry.sizeof) (j := (k - i) * SlotEntry.sizeof + j)
        (by simp only [SlotEntry.sizeof] at hj ⊢; omega)
      simp only [slot_entry, SlotEntry.sizeof] at hblock ⊢
      convert hblock using 2 <;> omega

/-- The entry in the freed place is the next one, or the freed one if it was the last. -/
theorem close_gap_size (hi : i < t)
    (hall : ∀ k < t, m.load (SlotEntry.size (slot_entry entries k)) 8 = 16) :
    (m.memmove (slot_entry entries i) (slot_entry entries (i + 1))
      ((t - i - 1) * SlotEntry.sizeof)).load (SlotEntry.size (slot_entry entries i)) 8 = 16 := by
  by_cases hlast : i + 1 < t
  · have hnext : entry_at (m.memmove (slot_entry entries i) (slot_entry entries (i + 1))
          ((t - i - 1) * SlotEntry.sizeof)) (slot_entry entries i)
        = entry_at m (slot_entry entries (i + 1)) := by
      refine entry_at_eq_of_bytes fun j hj => ?_
      rw [memmove_at]
      simp only [SlotEntry.sizeof] at hj ⊢
      omega
    exact (congrArg Entry.size hnext).trans (hall (i + 1) hlast)
  · have hnone : t - i - 1 = 0 := by omega
    rw [hnone, Nat.zero_mul, memmove, load_fill_of_disjoint _ _ (Or.inr (by simp))]
    exact hall i hi

end Gap

theorem write_record_frame (m : Mem) (a : Nat) (slot : IndexSlotData) :
    m.SameOff a (a + INDEX_SLOT_DATA_SIZE) (write_record m a slot) := by
  simp only [write_record, INDEX_SLOT_DATA_SIZE, MAX_DATA_PER_INDEX_SLOT]
  refine SameOff.store16 ?_ ?_ _ ?_
  refine SameOff.store16 ?_ ?_ _ ?_
  refine SameOff.store8 ?_ ?_ _ ?_
  refine SameOff.store16 ?_ ?_ _ ?_
  refine SameOff.fill (SameOff.refl _ _ m) ?_ _ ?_
  all_goals omega

/-- The three stores that fill an entry. -/
def store_entry (m : Mem) (entry : Nat) (slot_id : UInt8) (offset size : Nat) : Mem :=
  ((m.store8 (SlotEntry.slot_id entry) slot_id).store (SlotEntry.offset entry) 8 offset).store
    (SlotEntry.size entry) 8 size

theorem store_entry_frame (m : Mem) (entry : Nat) (slot_id : UInt8) (offset size : Nat) :
    m.SameOff entry (entry + SlotEntry.sizeof) (store_entry m entry slot_id offset size) := by
  unfold store_entry
  refine SameOff.store ?_ ?_ _ ?_
  refine SameOff.store ?_ ?_ _ ?_
  refine SameOff.store8 (SameOff.refl _ _ m) ?_ _ ?_
  all_goals simp

/-- The entry reads back, if its words hold the numbers. -/
theorem entry_at_store_entry (m : Mem) (entry : Nat) (slot_id : UInt8) {offset size : Nat}
    (hoffset : offset < 256 ^ 8) (hsize : size < 256 ^ 8) :
    entry_at (store_entry m entry slot_id offset size) entry = ⟨slot_id, offset, size⟩ := by
  have hid : (store_entry m entry slot_id offset size).load8 entry = slot_id := by
    have hrest : SameOff (entry + 8) (entry + 24) (m.store8 entry slot_id)
        (store_entry m entry slot_id offset size) := by
      unfold store_entry
      refine SameOff.store ?_ ?_ _ ?_
      refine SameOff.store (SameOff.refl _ _ _) ?_ _ ?_
      all_goals simp
    exact (hrest.load8 (Or.inl (by simp))).trans (load8_store8_same _ _ _)
  have hoffset' : (store_entry m entry slot_id offset size).load (entry + 8) 8 = offset := by
    simp only [store_entry, SlotEntry.slot_id, SlotEntry.offset, SlotEntry.size]
    rw [load_store_of_disjoint _ (by omega), load_store_same]
    exact Nat.mod_eq_of_lt hoffset
  have hsize' : (store_entry m entry slot_id offset size).load (entry + 16) 8 = size := by
    simp only [store_entry, SlotEntry.slot_id, SlotEntry.offset, SlotEntry.size]
    rw [load_store_same]
    exact Nat.mod_eq_of_lt hsize
  simp only [entry_at, SlotEntry.slot_id, SlotEntry.offset, SlotEntry.size, hid, hoffset', hsize']

theorem write_entry_frame (m : Mem) (entry : Nat) (slot_id : UInt8) (offset : UInt64) :
    m.SameOff entry (entry + SlotEntry.sizeof) (write_entry m entry slot_id offset) :=
  store_entry_frame m entry slot_id offset.toNat MAX_DATA_PER_INDEX_SLOT

theorem entry_at_write_entry (m : Mem) (entry : Nat) (slot_id : UInt8) (offset : UInt64) :
    entry_at (write_entry m entry slot_id offset) entry = ⟨slot_id, offset.toNat, 16⟩ :=
  entry_at_store_entry m entry slot_id offset.toNat_lt (by decide)

theorem read_record_of_sameOff {m m' : Mem} {lo hi a : Nat} (h : m.SameOff lo hi m')
    (hd : a + 23 ≤ lo ∨ hi ≤ a) (old : IndexSlotData) :
    read_record m' a 16 old = read_record m a 16 old := by
  have hkey : ∀ j : Fin MAX_DATA_PER_INDEX_SLOT, m'.load8 (a + j.val) = m.load8 (a + j.val) :=
    fun j => h.load8 (by have : j.val < 16 := j.isLt; omega)
  simp only [read_record, hkey]
  rw [h.load16 (by omega), h.load8 (by omega), h.load16 (by omega), h.load16 (by omega)]

/-- A record reads back, whatever was in the variable. -/
theorem read_record_write_record (m : Mem) (a : Nat) (slot old : IndexSlotData) :
    read_record (write_record m a slot) a 16 old = slot := by
  -- the fields behind the key
  have hrest : SameOff (a + 16) (a + 23)
      (m.fill a MAX_DATA_PER_INDEX_SLOT fun j => slot.key.toList.getD j 0)
      (write_record m a slot) := by
    simp only [write_record, MAX_DATA_PER_INDEX_SLOT]
    refine SameOff.store16 ?_ ?_ _ ?_
    refine SameOff.store16 ?_ ?_ _ ?_
    refine SameOff.store8 ?_ ?_ _ ?_
    refine SameOff.store16 (SameOff.refl _ _ _) ?_ _ ?_
    all_goals omega
  have hkey : ∀ j : Fin MAX_DATA_PER_INDEX_SLOT,
      (write_record m a slot).load8 (a + j.val) = slot.key[j] := by
    intro j
    have hj : j.val < 16 := j.isLt
    rw [hrest.load8 (by omega), Mem.load8, fill_inside m _ (by omega)
        (by simp only [MAX_DATA_PER_INDEX_SLOT]; omega),
      Nat.add_sub_cancel_left]
    simp
  have hnext : (write_record m a slot).load16 (a + 16) = slot.next_page_id := by
    simp (disch := omega) only [write_record, MAX_DATA_PER_INDEX_SLOT, load16_store16_of_disjoint,
      load16_store8_of_disjoint, load16_store16_same]
  have hslot : (write_record m a slot).load8 (a + 16 + 2) = slot.next_slot_id := by
    simp (disch := omega) only [write_record, MAX_DATA_PER_INDEX_SLOT, load8_store16_of_disjoint,
      load8_store8_same]
  have hpage : (write_record m a slot).load16 (a + 16 + 3) = slot.overflow.next_page_id := by
    simp (disch := omega) only [write_record, MAX_DATA_PER_INDEX_SLOT, load16_store16_of_disjoint,
      load16_store16_same]
  have hchunk : (write_record m a slot).load16 (a + 16 + 5) = slot.overflow.next_chunk_id := by
    simp only [write_record, MAX_DATA_PER_INDEX_SLOT, load16_store16_same]
  simp only [read_record, hnext, hslot, hpage, hchunk, hkey]
  obtain ⟨key, next_page_id, next_slot_id, overflow⟩ := slot
  rw [IndexSlotData.mk.injEq]
  refine ⟨?_, rfl, rfl, rfl⟩
  ext j hj
  have hj' : j < 16 := hj
  simp [hj']

theorem count_slot_frame (m : Mem) (page : Nat) (offset : UInt64) :
    m.SameOff (page + 8) (page + 13) (count_slot m page offset) := by
  unfold count_slot
  refine SameOff.store16 ?_ ?_ _ ?_
  refine SameOff.store16 ?_ ?_ _ ?_
  refine SameOff.store8 (SameOff.refl _ _ m) ?_ _ ?_
  all_goals simp

section CountSlot

variable (m : Mem) (page : Nat) (offset : UInt64)

theorem count_slot_total : (count_slot m page offset).load8 (DBPageHeader.total_slots page)
    = m.load8 (DBPageHeader.total_slots page) + 1 := by
  simp (disch := omega) only [count_slot, DBPageHeader.total_slots, DBPageHeader.free_end,
    DBPageHeader.free_total, load8_store16_of_disjoint, load8_store8_same]

theorem count_slot_end : (count_slot m page offset).load16 (DBPageHeader.free_end page)
    = offset.toUInt16 := by
  simp (disch := omega) only [count_slot, DBPageHeader.free_end, DBPageHeader.free_total,
    load16_store16_of_disjoint, load16_store16_same]

theorem count_slot_free : (count_slot m page offset).load16 (DBPageHeader.free_total page)
    = m.load16 (DBPageHeader.free_total page) - 47 := by
  simp (disch := omega) only [count_slot, DBPageHeader.total_slots, DBPageHeader.free_end,
    DBPageHeader.free_total, load16_store16_of_disjoint, load16_store8_of_disjoint,
    load16_store16_same]
  rfl

end CountSlot

section Insert

variable {m : Mem} {page : Nat} {page_no : UInt16} {flag : UInt8} {c : Nat}

/-- The offset of the next record, behind `w` others. -/
theorem next_offset {w : Nat} (hw : 23 * (w + 1) ≤ 4032) :
    ((UInt16.ofNat (4032 - 23 * w)).toUInt64 - UInt64.ofNat INDEX_SLOT_DATA_SIZE).toNat
      = 4032 - 23 * (w + 1) := by
  have hfree : (UInt16.ofNat (4032 - 23 * w)).toUInt64.toNat = 4032 - 23 * w := by
    rw [UInt16.toNat_toUInt64, UInt16.toNat_ofNat', Nat.mod_eq_of_lt (by omega)]
  have hsize : (UInt64.ofNat INDEX_SLOT_DATA_SIZE).toNat = 23 := rfl
  rw [UInt64.toNat_sub_of_le, hfree, hsize]
  · omega
  · rw [UInt64.le_iff_toNat_le, hfree, hsize]
    omega

theorem ofNat_succ_ne_zero (hc : c < 68) : UInt8.ofNat (c + 1) ≠ 0 := by
  rw [ne_eq, ← UInt8.toNat_inj, UInt8.toNat_ofNat', Nat.mod_eq_of_lt (by omega)]
  exact Nat.succ_ne_zero c

/-- Everything but the counting, on a page with `t` entries and `w` records: the record
lies at the end of the free space, and the entry stands at its place among the others. -/
theorem insert_slot_body {t w : Nat} (hroom : 24 * (t + 1) + 23 * (w + 1) ≤ 3998)
    {insert_pos : Nat} (hpos : insert_pos ≤ t)
    (hentries : slot_entries m page = directory page) (htotal : Index.total_slots m page = t)
    (hend : m.load16 (DBPageHeader.free_end page) = UInt16.ofNat (4032 - 23 * w))
    (slot_id : UInt8) (slot : IndexSlotData) :
    ∃ m' offset, Index.insert_slot m page slot_id insert_pos slot = count_slot m' page offset
      ∧ offset.toNat = 4032 - 23 * (w + 1)
      ∧ m.SameOff (page + 68) (page + 34 + (4032 - 23 * w)) m'
      ∧ entry_list m' (directory page) (t + 1)
        = (entry_list m (directory page) t).insertIdx insert_pos
            ⟨slot_id, 4032 - 23 * (w + 1), 16⟩
      ∧ ∀ old, read_record m' (DBPage.data page + (4032 - 23 * (w + 1))) 16 old = slot := by
  -- the directory moves up
  let m₁ := shift_entries m (directory page) insert_pos t
  have hshift : m.SameOff (page + 68) (page + 68 + (t + 1) * 24) m₁ := shift_entries_frame m _
  have hend₁ : m₁.load16 (DBPageHeader.free_end page) = UInt16.ofNat (4032 - 23 * w) := by
    rw [hshift.load16 (Or.inl (by simp)), hend]
  -- the record is written
  let offset : UInt64 := (UInt16.ofNat (4032 - 23 * w)).toUInt64 - UInt64.ofNat INDEX_SLOT_DATA_SIZE
  have hoffset : offset.toNat = 4032 - 23 * (w + 1) := next_offset (by omega)
  let m₂ := write_record m₁ (DBPage.data page + offset.toNat) slot
  have hrecord :
      m₁.SameOff (page + 34 + (4032 - 23 * (w + 1))) (page + 34 + (4032 - 23 * w)) m₂ := by
    refine (write_record_frame m₁ _ slot).mono ?_ ?_
    all_goals
      simp only [hoffset, DBPage.data, DBPageHeader.sizeof, INDEX_SLOT_DATA_SIZE,
        MAX_DATA_PER_INDEX_SLOT]
      omega
  -- and its entry, below the record since there is room for both
  let m₃ := write_entry m₂ (slot_entry (directory page) insert_pos) slot_id offset
  have hentry : m₂.SameOff (page + 68 + insert_pos * 24) (page + 68 + insert_pos * 24 + 24) m₃ :=
    write_entry_frame m₂ _ slot_id offset
  have hmoved : ∀ k ≤ t, k ≠ insert_pos →
      entry_at m₃ (slot_entry (directory page) k)
        = entry_at m₁ (slot_entry (directory page) k) := by
    intro k hk hne
    rw [entry_at_of_sameOff hentry, entry_at_of_sameOff hrecord]
    all_goals
      simp only [slot_entry, directory, SlotEntry.sizeof]
      omega
  refine ⟨m₃, offset, ?_, hoffset, ?_, ?_, fun old => ?_⟩
  · simp only [Index.insert_slot, hentries, htotal]
    rw [show shift_entries m (directory page) insert_pos t = m₁ from rfl, hend₁]
  · exact ((hshift.mono (by omega) (by omega)).trans (hrecord.mono (by omega) (by omega))).trans
      (hentry.mono (by omega) (by omega))
  · rw [entry_list_insert hpos hmoved, entry_at_write_entry, hoffset]
  · have hread : read_record m₂ (DBPage.data page + offset.toNat) 16 old = slot :=
      read_record_write_record m₁ _ slot old
    rw [← hoffset, read_record_of_sameOff hentry (Or.inr ?_) old, hread]
    simp only [DBPage.data, DBPageHeader.sizeof, hoffset]
    omega

/-- The page after slot `c` was written to it. -/
structure SlotWritten (m m' : Mem) (page : Nat) (page_no : UInt16) (flag : UInt8) (c : Nat)
    (slot : IndexSlotData) : Prop where
  packed : Packed m' page page_no flag (c + 1)
  frame : m.SameOff page (page + 34 + (4032 - 23 * c)) m'
  entries : ∃ insert_pos ≤ c, entry_list m' (directory page) (c + 1)
    = (entry_list m (directory page) c).insertIdx insert_pos (written_entry c)
  record : ∀ old, read_record m' (record_address page c) 16 old = slot

/-- The header and the directory after an insertion, from those before it; `m₁` has the
new `highest_slot` already. -/
theorem Packed.insert_slot (h : Packed m page page_no flag c) (hc : c < 68) {insert_pos : Nat}
    (hpos : insert_pos ≤ c) (slot : IndexSlotData) :
    let m₁ := m.store8 (DBPageHeader.highest_slot page) (UInt8.ofNat (c + 1))
    SlotWritten m (Index.insert_slot m₁ page (UInt8.ofNat (c + 1)) insert_pos slot) page page_no
      flag c slot := by
  intro m₁
  have hhigh : m.SameOff (page + 13) (page + 14) m₁ :=
    (SameOff.refl _ _ m).store8 (by simp) _ (by simp)
  have hentries : slot_entries m₁ page = directory page := by
    rw [slot_entries, hhigh.load16 (Or.inl (by simp)), ← h.entries, slot_entries]
  have htotal : Index.total_slots m₁ page = c := by
    rw [Index.total_slots, hhigh.load8 (Or.inl (by simp)), ← h.total, Index.total_slots]
  have hend : m₁.load16 (DBPageHeader.free_end page) = UInt16.ofNat (4032 - 23 * c) := by
    rw [hhigh.load16 (Or.inl (by simp)), h.free_end]
  obtain ⟨m₂, offset, hm', hoffset, hbody, hlist, hrecord⟩ :=
    insert_slot_body (by omega) hpos hentries htotal hend (UInt8.ofNat (c + 1)) slot
  generalize Index.insert_slot m₁ page (UInt8.ofNat (c + 1)) insert_pos slot = m' at hm'
  have hcount := count_slot_frame m₂ page offset
  -- the three writes miss the header fields that are not counters
  have h8 : ∀ k < 34, (k < 8 ∨ 13 < k) → m'.load8 (page + k) = m.load8 (page + k) := by
    intro k hk hoff
    rw [hm', hcount.load8 (by omega), hbody.load8 (by omega), hhigh.load8 (by omega)]
  have h16 : ∀ k, k + 2 ≤ 8 → m'.load16 (page + k) = m.load16 (page + k) := by
    intro k hk
    rw [hm', hcount.load16 (by omega), hbody.load16 (by omega), hhigh.load16 (by omega)]
  -- the counters stand in front of the directory, and so does `highest_slot`
  have hlist' : entry_list m' (directory page) (c + 1)
      = (entry_list m (directory page) c).insertIdx insert_pos (written_entry c) := by
    rw [hm', entry_list_of_sameOff hcount (Or.inr (by simp)), hlist,
      entry_list_of_sameOff hhigh (Or.inr (by simp)), written_entry]
  refine ⟨⟨?_, ?_, ?_, ?_, ?_, ?_, ?_, ?_, ?_, hc⟩, ?_, ⟨insert_pos, hpos, hlist'⟩, fun old => ?_⟩
  · exact (h16 0 (by omega)).trans h.page_id
  · exact (h8 4 (by omega) (by omega)).trans h.flag
  · exact (h16 6 (by omega)).trans h.free_start
  · rw [hm', count_slot_end, ← UInt16.toNat_inj, UInt64.toNat_toUInt16, hoffset,
      UInt16.toNat_ofNat']
  · rw [hm', count_slot_free, hbody.load16 (by simp), hhigh.load16 (by simp), h.free_total,
      Nat.mul_add_one, ← Nat.sub_sub, UInt16.ofNat_sub (b := 47) (by omega)]
    rfl
  · rw [hm', count_slot_total, hbody.load8 (by simp), hhigh.load8 (by simp), h.total_slots,
      UInt8.ofNat_add]
    rfl
  · rw [hm', hcount.load8 (by simp), hbody.load8 (by simp)]
    exact load8_store8_same _ _ _
  · exact (h8 14 (by omega) (by omega)).trans h.free_slot_count
  · intro i hi
    have hmem : entry_at m' (slot_entry (directory page) i)
        ∈ entry_list m' (directory page) (c + 1) :=
      List.mem_map_of_mem (List.mem_range.mpr hi)
    rw [hlist', List.mem_insertIdx (by rwa [length_entry_list])] at hmem
    rcases hmem with hnew | hold
    · exact (congrArg Entry.slot_id hnew).trans_ne (ofNat_succ_ne_zero hc)
    · obtain ⟨k, hk, hold⟩ := List.mem_map.mp hold
      exact (congrArg Entry.slot_id hold).symm.trans_ne (h.ids k (List.mem_range.mp hk))
  · rw [hm']
    exact (hhigh.mono (by omega) (by omega)).trans ((hbody.mono (by omega) (Nat.le_refl _)).trans
      (hcount.mono (by omega) (by omega)))
  · rw [hm', record_address, read_record_of_sameOff hcount (Or.inr (by simp; omega))]
    exact hrecord old

/-- A loop that leaves early leaves below its bound. -/
theorem find_range_le (n : Nat) (p : Nat → Bool) : ((List.range n).find? p).getD n ≤ n := by
  cases hfind : (List.range n).find? p with
  -- the loop runs to its end
  | none => exact Nat.le_refl n
  | some i => exact Nat.le_of_lt (List.mem_range.mp (List.mem_of_find?_eq_some hfind))

theorem insert_position_le (pager : Pager) (page_id : UInt16) (page : Nat) (slot : IndexSlotData)
    (junk : Junk) : insert_position pager page_id page slot junk ≤ total_slots pager.mem page :=
  find_range_le _ _

/-- A page with room hands out its next slot id. -/
theorem Packed.find_empty {pager : Pager} (h : Packed pager.mem page page_no flag c) (hc : c < 68)
    (hpage : pager_get_page pager page_no = some page) :
    find_empty_index_slot pager page_no MAX_DATA_PER_INDEX_SLOT
      = (UInt8.ofNat (c + 1),
          pager.withMem (pager.mem.store8 (DBPageHeader.highest_slot page)
            (UInt8.ofNat (c + 1)))) := by
  have hfree : (pager.mem.load16 (DBPageHeader.free_total page)).toNat = 3998 - 47 * c := by
    rw [h.free_total, UInt16.toNat_ofNat', Nat.mod_eq_of_lt (by omega)]
  -- below 68 slots the page is not 80 percent full
  have hroom : 10 * USED_SPACE pager.mem page < FULL_THRESHOLD_10
      ∧ (pager.mem.load16 (DBPageHeader.free_total page)).toNat
        ≥ INDEX_SLOT_DATA_SIZE + SLOT_ENTRY_SIZE := by
    rw [h.used_space, hfree]
    simp only [FULL_THRESHOLD_10, MAX_USABLE_PAGE_SIZE_eq, INDEX_SLOT_DATA_SIZE,
      MAX_DATA_PER_INDEX_SLOT, SLOT_ENTRY_SIZE, SlotEntry.sizeof]
    omega
  have hhigh : pager.mem.load8 (DBPageHeader.highest_slot page) + 1 = UInt8.ofNat (c + 1) := by
    rw [h.highest_slot, UInt8.ofNat_add]
    rfl
  simp only [find_empty_index_slot, hpage, Nat.lt_irrefl, gt_iff_lt, if_false, h.free_slot_count,
    UInt8.lt_irrefl, if_pos hroom, hhigh]

/-- **Writing a slot** to a page with room. -/
theorem Packed.write_room {pager : Pager} (h : Packed pager.mem page page_no flag c) (hc : c < 68)
    (hpage : pager_get_page pager page_no = some page) (slot : IndexSlotData) (junk : Junk) :
    ∃ m', write_index_slot pager page_no slot junk = pager.withMem m' ∧
      SlotWritten pager.mem m' page page_no flag c slot := by
  simp only [write_index_slot, hpage, h.used_space, FULL_THRESHOLD_10, MAX_USABLE_PAGE_SIZE_eq]
  rw [if_neg (by omega), h.find_empty hc hpage]
  simp only [if_neg (ofNat_succ_ne_zero hc)]
  have hpos := insert_position_le
    (pager.withMem (pager.mem.store8 (DBPageHeader.highest_slot page) (UInt8.ofNat (c + 1))))
    page_no page slot junk
  have htotal : Index.total_slots
      (pager.mem.store8 (DBPageHeader.highest_slot page) (UInt8.ofNat (c + 1))) page = c := by
    rw [Index.total_slots, load8_store8_of_disjoint _ _ (by simp), ← h.total, Index.total_slots]
  rw [Pager.withMem_mem, htotal] at hpos
  exact ⟨_, rfl, h.insert_slot hc hpos slot⟩

/-- A page with 68 slots is left as it is. -/
theorem Packed.write_full {pager : Pager} (h : Packed pager.mem page page_no flag 68)
    (hpage : pager_get_page pager page_no = some page) (slot : IndexSlotData) (junk : Junk) :
    write_index_slot pager page_no slot junk = pager := by
  simp only [write_index_slot, hpage, h.used_space, FULL_THRESHOLD_10, MAX_USABLE_PAGE_SIZE_eq]
  exact if_pos (by omega)

/-- Either way the page stays packed, and nothing else changes. -/
theorem write_index_slot_packed {pager : Pager} (h : Packed pager.mem page page_no flag c)
    (hpage : pager_get_page pager page_no = some page) (slot : IndexSlotData) (junk : Junk) :
    ∃ m', write_index_slot pager page_no slot junk = pager.withMem m' ∧
      Packed m' page page_no flag (min (c + 1) 68) ∧
      pager.mem.SameOff page (page + PAGE_SIZE) m' := by
  by_cases hc : c < 68
  · obtain ⟨m', hwrite, hwritten⟩ := h.write_room hc hpage slot junk
    rw [Nat.min_eq_left hc]
    exact ⟨m', hwrite, hwritten.packed,
      hwritten.frame.mono (Nat.le_refl _) (by simp only [PAGE_SIZE]; omega)⟩
  · obtain rfl : c = 68 := Nat.le_antisymm h.le (Nat.not_lt.mp hc)
    exact ⟨pager.mem, h.write_full hpage slot junk, h, SameOff.refl _ _ _⟩

end Insert

/-! ## §4. Reading a slot that is not there. -/

section Read

variable {pager : Pager} {page : Nat} {page_no : UInt16} {flag : UInt8} {c : Nat}

/-- Slot 0 is never filled. -/
theorem Packed.read_zero (h : Packed pager.mem page page_no flag c)
    (hpage : pager_get_page pager page_no = some page) (slot : IndexSlotData) :
    read_index_slot pager page_no 0 slot = slot := by
  simp only [read_index_slot, hpage, h.find_zero, ite_self]

/-- Nor is the slot behind the last. -/
theorem Packed.read_total (h : Packed pager.mem page page_no flag c)
    (hpage : pager_get_page pager page_no = some page) (slot : IndexSlotData) :
    read_index_slot pager page_no (UInt8.ofNat c) slot = slot := by
  have hle := h.le
  -- the guard refuses the id that equals the number of slots
  have hguard : Index.total_slots pager.mem page ≤ (UInt8.ofNat c).toNat := by
    rw [h.total, UInt8.toNat_ofNat', Nat.mod_eq_of_lt (by omega)]
  simp only [read_index_slot, hpage, if_pos hguard]

end Read

end PreSeQL.Index
