/-
  PreSeQL.Index.SlotPage — a page under any writes and frees.

  `SlotPage` says what is on an index page: the slots in the order of the directory, the
  list of free ids, and three counters.  `Slotted` says that the bytes of a page hold
  this.  The functions of `index_page.c` are followed on `SlotPage`:

    • `Holds.read` — `read_index_slot` is `SlotPage.read`,
    • `Slotted.write` — `write_index_slot` is `SlotPage.insert`, while there is room,
    • `Slotted.free_slot` — `free_index_slot` is `SlotPage.remove`, while the list of
      free ids does not run into the directory.
-/
import PreSeQL.Index.Filled
import Mathlib.Data.List.Find

namespace PreSeQL.Index

open PreSeQL.Lib PreSeQL.Lib.Mem PreSeQL.Db

/-! ## §1. The slots of a page. -/

/-- An entry of the directory with its record. -/
structure Slot where
  id : UInt8
  offset : Nat
  data : IndexSlotData

def Slot.entry (s : Slot) : Entry := ⟨s.id, s.offset, 16⟩

/-- The slots in the order of the directory, the free ids with the last one freed at the
end, the highest id given out, and how many records were written and freed. -/
structure SlotPage where
  slots : List Slot
  free : List UInt8
  highest : Nat
  writes : Nat
  frees : Nat

namespace SlotPage

def empty : SlotPage := ⟨[], [], 0, 0, 0⟩

variable (P : SlotPage)

/-- The ids of the directory and the free ones. -/
def ids : List UInt8 := P.slots.map Slot.id ++ P.free

def find (id : UInt8) : Option Slot := P.slots.find? fun s => s.id == id

/-- What `read_index_slot` leaves in a variable that holds `old`. -/
def read (id : UInt8) (old : IndexSlotData) : IndexSlotData :=
  if P.slots.length ≤ id.toNat then old else ((P.find id).map Slot.data).getD old

/-- What the search for the insertion point compares with at place `i`. -/
def existing (i : Nat) (old : IndexSlotData) : IndexSlotData :=
  match P.slots[i]? with
  | none => old
  | some s => P.read s.id old

def position (key : Vector UInt8 MAX_DATA_PER_INDEX_SLOT) (junk : Junk) : Nat :=
  ((List.range P.slots.length).find? fun i =>
    compare_keys key.toList (P.existing i (junk [i])).key.toList MAX_DATA_PER_INDEX_SLOT < 0).getD
      P.slots.length

/-- `USED_SPACE` has reached the threshold: writes are refused. -/
def Full : Prop := 3192 + 40 * P.frees ≤ 47 * P.writes

instance decidableFull : Decidable P.Full := inferInstanceAs (Decidable (_ ≤ _))

/-- A record and an entry fit between the directory and the records. -/
def HasRoom : Prop := 24 * (P.slots.length + 1) + 23 * (P.writes + 1) ≤ 3998

instance decidableHasRoom : Decidable P.HasRoom := inferInstanceAs (Decidable (_ ≤ _))

/-- The id the next write takes. -/
def nextId : UInt8 := P.free.getLast?.getD (UInt8.ofNat (P.highest + 1))

def newSlot (data : IndexSlotData) : Slot := ⟨P.nextId, 4032 - 23 * (P.writes + 1), data⟩

def insert (pos : Nat) (data : IndexSlotData) : SlotPage :=
  { slots := P.slots.insertIdx pos (P.newSlot data)
    free := P.free.dropLast
    highest := if P.free = [] then P.highest + 1 else P.highest
    writes := P.writes + 1
    frees := P.frees }

def remove (id : UInt8) : SlotPage :=
  { P with
    slots := P.slots.eraseP fun s => s.id == id
    free := P.free ++ [id]
    frees := P.frees + 1 }

/-- What writes and frees keep. -/
structure Ok (P : SlotPage) : Prop where
  nodup : P.ids.Nodup
  id_range : ∀ id ∈ P.ids, 1 ≤ id.toNat ∧ id.toNat ≤ P.highest
  highest_le : P.highest ≤ P.writes
  room : 24 * P.slots.length + 23 * P.writes ≤ 3998
  counted : P.slots.length + P.frees ≤ P.writes
  used : 47 * P.writes ≤ 40 * P.frees + 3238
  list : P.free.length ≤ 53
  inside : ∀ s ∈ P.slots, 4032 - 23 * P.writes ≤ s.offset ∧ s.offset + 23 ≤ 4032

theorem ok_empty : empty.Ok := by
  refine ⟨List.nodup_nil, ?_, Nat.le_refl _, ?_, Nat.le_refl _, ?_, ?_, ?_⟩
  · intro id hid
    cases hid
  · decide
  · decide
  · decide
  · intro s hs
    cases hs

variable {P}

theorem Ok.id_ne_zero (h : P.Ok) {id : UInt8} (hid : id ∈ P.ids) : id ≠ 0 := by
  intro h0
  have hpos := (h.id_range id hid).1
  rw [h0] at hpos
  exact absurd hpos (by decide)

theorem Ok.slots_nodup (h : P.Ok) : (P.slots.map Slot.id).Nodup :=
  h.nodup.sublist (List.sublist_append_left _ _)

theorem mem_ids {s : Slot} (hs : s ∈ P.slots) : s.id ∈ P.ids :=
  List.mem_append_left _ (List.mem_map_of_mem hs)

theorem Ok.toNat_highest (h : P.Ok) : (UInt8.ofNat (P.highest + 1)).toNat = P.highest + 1 := by
  have hroom := h.room
  have hle := h.highest_le
  rw [UInt8.toNat_ofNat', Nat.mod_eq_of_lt (by omega)]

/-- The ids after a write are those before it, with a new one if none was free. -/
theorem insert_ids {pos : Nat} (hpos : pos ≤ P.slots.length) (data : IndexSlotData) :
    ((P.insert pos data).ids).Perm
      (if P.free = [] then UInt8.ofNat (P.highest + 1) :: P.ids else P.ids) := by
  have hslots : ((P.insert pos data).slots.map Slot.id).Perm
      (P.nextId :: P.slots.map Slot.id) :=
    (List.perm_insertIdx _ _ hpos).map Slot.id
  have hids : ((P.insert pos data).ids).Perm
      (P.nextId :: (P.slots.map Slot.id ++ P.free.dropLast)) := hslots.append_right P.free.dropLast
  refine hids.trans ?_
  split
  next hfree =>
    rw [ids, nextId, hfree]
    exact List.Perm.refl _
  next hfree =>
    -- the last free id moves into the directory
    have hlast : P.nextId = P.free.getLast hfree := by
      rw [nextId, List.getLast?_eq_some_getLast hfree]
      rfl
    have hback : (P.nextId :: P.free.dropLast).Perm P.free := by
      rw [hlast]
      refine (List.perm_append_singleton _ _).symm.trans ?_
      rw [List.dropLast_append_getLast]
    exact List.perm_middle.symm.trans (hback.append_left _)

theorem Ok.nextId_ne_zero (h : P.Ok) : P.nextId ≠ 0 := by
  by_cases hfree : P.free = []
  · intro h0
    have hnat := h.toNat_highest
    rw [nextId, hfree] at h0
    rw [show UInt8.ofNat (P.highest + 1) = 0 from h0] at hnat
    cases hnat
  · have hlast : P.nextId ∈ P.free := by
      rw [nextId, List.getLast?_eq_some_getLast hfree]
      exact List.getLast_mem hfree
    exact h.id_ne_zero (List.mem_append_right _ hlast)

theorem Ok.insert (h : P.Ok) (hfull : ¬ P.Full) (hroom : P.HasRoom) {pos : Nat}
    (hpos : pos ≤ P.slots.length) (data : IndexSlotData) : (P.insert pos data).Ok := by
  have hids := P.insert_ids hpos data
  have hlen : (P.insert pos data).slots.length = P.slots.length + 1 :=
    List.length_insertIdx_of_le_length hpos _
  have hhigh : (P.insert pos data).highest = if P.free = [] then P.highest + 1 else P.highest := rfl
  have hwrites : (P.insert pos data).writes = P.writes + 1 := rfl
  have hfrees : (P.insert pos data).frees = P.frees := rfl
  have hle := h.highest_le
  have hcounted := h.counted
  unfold Full at hfull
  unfold HasRoom at hroom
  refine ⟨?_, ?_, ?_, ?_, ?_, ?_, ?_, ?_⟩
  · rw [hids.nodup_iff]
    split
    next =>
      refine List.nodup_cons.mpr ⟨fun hmem => ?_, h.nodup⟩
      have hrange := (h.id_range _ hmem).2
      rw [h.toNat_highest] at hrange
      omega
    next => exact h.nodup
  · intro id hid
    rw [hids.mem_iff] at hid
    rw [hhigh]
    split at hid
    next hfree =>
      rw [if_pos hfree]
      rcases List.mem_cons.mp hid with rfl | hid
      · rw [h.toNat_highest]
        omega
      · have hrange := h.id_range id hid
        omega
    next hfree =>
      rw [if_neg hfree]
      exact h.id_range id hid
  · rw [hhigh, hwrites]
    split
    all_goals omega
  · rw [hlen, hwrites]
    exact hroom
  · rw [hlen, hwrites, hfrees]
    omega
  · rw [hwrites, hfrees]
    omega
  · exact Nat.le_trans (List.length_dropLast ▸ Nat.sub_le _ _) h.list
  · intro s hs
    rw [hwrites]
    rcases (List.mem_insertIdx hpos).mp hs with rfl | hs
    · show 4032 - 23 * (P.writes + 1) ≤ 4032 - 23 * (P.writes + 1)
        ∧ 4032 - 23 * (P.writes + 1) + 23 ≤ 4032
      omega
    · have hinside := h.inside s hs
      omega

/-- The slot that is taken out, between those in front of it and behind it. -/
theorem remove_slots {id : UInt8} {s : Slot} (hfind : P.find id = some s) :
    ∃ l l', P.slots = l ++ s :: l' ∧ (P.remove id).slots = l ++ l' ∧ s.id = id := by
  have hid : s.id = id := by simpa using List.find?_some hfind
  obtain ⟨-, l, l', hslots, hbefore⟩ := List.find?_eq_some_iff_append.mp hfind
  refine ⟨l, l', hslots, ?_, hid⟩
  show P.slots.eraseP (fun s => s.id == id) = l ++ l'
  rw [hslots, List.eraseP_append_right _ (fun a ha => by simpa using hbefore a ha),
    List.eraseP_cons_of_pos (by simpa using hid)]

theorem remove_length {id : UInt8} {s : Slot} (hfind : P.find id = some s) :
    P.slots.length = (P.remove id).slots.length + 1 := by
  obtain ⟨l, l', hslots, hremove, -⟩ := remove_slots hfind
  rw [hslots, hremove, List.length_append, List.length_append, List.length_cons]
  omega

theorem Ok.remove (h : P.Ok) {id : UInt8} {s : Slot} (hfind : P.find id = some s)
    (hlist : P.free.length < 53) : (P.remove id).Ok := by
  obtain ⟨l, l', hslots, hremove, hid⟩ := remove_slots hfind
  -- the id moves to the free ones
  have hids : ((P.remove id).ids).Perm P.ids := by
    have hleft : (P.remove id).ids
        = l.map Slot.id ++ (l'.map Slot.id ++ (P.free ++ [id])) := by
      show (P.remove id).slots.map Slot.id ++ (P.free ++ [id]) = _
      rw [hremove, List.map_append, List.append_assoc]
    have hright : P.ids = l.map Slot.id ++ id :: (l'.map Slot.id ++ P.free) := by
      rw [ids, hslots, List.map_append, List.map_cons, hid, List.append_assoc, List.cons_append]
    rw [hleft, hright]
    refine List.Perm.append_left _ ?_
    rw [← List.append_assoc]
    exact List.perm_append_singleton _ _
  have hlen := remove_length hfind
  have hwrites : (P.remove id).writes = P.writes := rfl
  have hfrees : (P.remove id).frees = P.frees + 1 := rfl
  have hroom := h.room
  have hcounted := h.counted
  have hused := h.used
  refine ⟨hids.nodup_iff.mpr h.nodup, fun id' hid' => h.id_range id' (hids.mem_iff.mp hid'),
    h.highest_le, ?_, ?_, ?_, ?_, ?_⟩
  · rw [hwrites]
    omega
  · rw [hwrites, hfrees]
    omega
  · rw [hwrites, hfrees]
    omega
  · show (P.free ++ [id]).length ≤ 53
    rw [List.length_append, List.length_singleton]
    exact hlist
  · intro s' hs'
    rw [hremove] at hs'
    have hmem : s' ∈ P.slots := by
      rw [hslots]
      exact List.mem_append.mpr ((List.mem_append.mp hs').imp_right (List.mem_cons_of_mem _))
    exact h.inside s' hmem

end SlotPage

/-! ## §2. The bytes of a page. -/

/-- The directory names these slots, and their records are there. -/
structure Holds (m : Mem) (page : Nat) (slots : List Slot) : Prop where
  free_start : m.load16 (DBPageHeader.free_start page) = 34
  total_slots : m.load8 (DBPageHeader.total_slots page) = UInt8.ofNat slots.length
  entries : entry_list m (directory page) slots.length = slots.map Slot.entry
  records : ∀ s ∈ slots, ∀ old, read_record m (DBPage.data page + s.offset) 16 old = s.data
  length_lt : slots.length < 256

structure Slotted (m : Mem) (page : Nat) (page_no : UInt16) (flag : UInt8) (P : SlotPage) :
    Prop where
  page_id : m.load16 (DBPageHeader.page_id page) = page_no
  flag : m.load8 (DBPageHeader.flag page) = flag
  holds : Holds m page P.slots
  free_end : m.load16 (DBPageHeader.free_end page) = UInt16.ofNat (4032 - 23 * P.writes)
  free_total : m.load16 (DBPageHeader.free_total page)
    = UInt16.ofNat (3998 + 40 * P.frees - 47 * P.writes)
  highest_slot : m.load8 (DBPageHeader.highest_slot page) = UInt8.ofNat P.highest
  free_slot_count : m.load8 (DBPageHeader.free_slot_count page) = UInt8.ofNat P.free.length
  free_slot_list : m.bytes (DBPageHeader.free_slot_list page 0) P.free.length = P.free
  ok : P.Ok

section

variable {m m' : Mem} {page : Nat} {page_no : UInt16} {flag : UInt8} {P : SlotPage}

/-- An empty page that is filled with no slots. -/
theorem Filled.slotted (h : Filled m page page_no flag []) :
    Slotted m page page_no flag .empty := by
  have holds : Holds m page [] := by
    refine ⟨h.packed.free_start, h.packed.total_slots, rfl, fun s hs => ?_, by decide⟩
    cases hs
  exact ⟨h.packed.page_id, h.packed.flag, holds, h.packed.free_end, h.packed.free_total,
    h.packed.highest_slot, h.packed.free_slot_count, rfl, SlotPage.ok_empty⟩

/-- The header fields between the number of slots and the directory do not matter. -/
theorem Holds.frame {slots : List Slot} (h : Holds m page slots)
    (hbelow : 24 * slots.length ≤ 3998) (hinside : ∀ s ∈ slots, s.offset + 23 ≤ 4032)
    (habove : ∀ s ∈ slots, 34 ≤ s.offset) {lo hi : Nat} (hsame : m.SameOff lo hi m')
    (hoff : hi ≤ page ∨ page + PAGE_SIZE ≤ lo ∨ page + 13 ≤ lo ∧ hi ≤ page + 68) :
    Holds m' page slots := by
  simp only [PAGE_SIZE] at hoff
  refine ⟨(hsame.load16 (by simp; omega)).trans h.free_start,
    (hsame.load8 (by simp; omega)).trans h.total_slots, ?_, fun s hs old => ?_, h.length_lt⟩
  · rw [entry_list_of_sameOff hsame (by simp only [slot_entry, directory, SlotEntry.sizeof]; omega)]
    exact h.entries
  · have habove := habove s hs
    have hinside := hinside s hs
    rw [read_record_of_sameOff hsame (by simp only [DBPage.data, DBPageHeader.sizeof]; omega)]
    exact h.records s hs old

theorem Slotted.holds_frame (h : Slotted m page page_no flag P) {lo hi : Nat}
    (hsame : m.SameOff lo hi m')
    (hoff : hi ≤ page ∨ page + PAGE_SIZE ≤ lo ∨ page + 13 ≤ lo ∧ hi ≤ page + 68) :
    Holds m' page P.slots := by
  have hroom := h.ok.room
  refine h.holds.frame (by omega) (fun s hs => (h.ok.inside s hs).2) (fun s hs => ?_) hsame hoff
  have hinside := h.ok.inside s hs
  omega

theorem Slotted.frame (h : Slotted m page page_no flag P) {lo hi : Nat}
    (hsame : m.SameOff lo hi m')
    (hoff : hi ≤ page ∨ page + PAGE_SIZE ≤ lo ∨ page + 15 + P.free.length ≤ lo ∧ hi ≤ page + 68) :
    Slotted m' page page_no flag P := by
  have hlist := h.ok.list
  have holds := h.holds_frame hsame (by omega)
  simp only [PAGE_SIZE] at hoff
  have h8 : ∀ k < 15, m'.load8 (page + k) = m.load8 (page + k) :=
    fun k hk => hsame.load8 (by omega)
  have h16 : ∀ k, k + 2 ≤ 15 → m'.load16 (page + k) = m.load16 (page + k) :=
    fun k hk => hsame.load16 (by omega)
  refine ⟨(h16 0 (by omega)).trans h.page_id, (h8 4 (by omega)).trans h.flag, holds,
    (h16 8 (by omega)).trans h.free_end, (h16 10 (by omega)).trans h.free_total,
    (h8 13 (by omega)).trans h.highest_slot, (h8 14 (by omega)).trans h.free_slot_count,
    ?_, h.ok⟩
  rw [bytes_congr _ _ fun i h₁ h₂ => hsame i (by
    simp only [DBPageHeader.free_slot_list] at h₁ h₂
    omega)]
  exact h.free_slot_list

theorem Holds.total {slots : List Slot} (h : Holds m page slots) :
    Index.total_slots m page = slots.length := by
  rw [Index.total_slots, h.total_slots, UInt8.toNat_ofNat', Nat.mod_eq_of_lt h.length_lt]

theorem Holds.directory_eq {slots : List Slot} (h : Holds m page slots) :
    slot_entries m page = directory page := by
  rw [slot_entries, h.free_start]
  rfl

theorem Slotted.toNat_free_slot_count (h : Slotted m page page_no flag P) :
    (m.load8 (DBPageHeader.free_slot_count page)).toNat = P.free.length := by
  have hlist := h.ok.list
  rw [h.free_slot_count, UInt8.toNat_ofNat', Nat.mod_eq_of_lt (by omega)]

theorem Slotted.used_space (h : Slotted m page page_no flag P) :
    USED_SPACE m page = 34 + 47 * P.writes - 40 * P.frees := by
  have hused := h.ok.used
  have hcounted := h.ok.counted
  rw [USED_SPACE, h.free_total, UInt16.toNat_ofNat', Nat.mod_eq_of_lt (by omega)]
  simp only [MAX_USABLE_PAGE_SIZE_eq]
  omega

/-- The test of `write_index_slot`. -/
theorem Slotted.full_iff (h : Slotted m page page_no flag P) :
    10 * USED_SPACE m page ≥ FULL_THRESHOLD_10 ↔ P.Full := by
  rw [h.used_space, FULL_THRESHOLD_10, MAX_USABLE_PAGE_SIZE_eq, SlotPage.Full]
  omega

theorem Holds.entry_at (h : Holds m page P.slots) {i : Nat} (hi : i < P.slots.length) :
    Index.entry_at m (slot_entry (directory page) i) = P.slots[i].entry := by
  have hlen : i < (entry_list m (directory page) P.slots.length).length := by
    rwa [length_entry_list]
  rw [← entry_list_getElem m (directory page) hlen, List.getElem_of_eq h.entries,
    List.getElem_map]

theorem Holds.entry_fields (h : Holds m page P.slots) {i : Nat} (hi : i < P.slots.length) :
    m.load8 (SlotEntry.slot_id (slot_entry (directory page) i)) = P.slots[i].id
    ∧ m.load (SlotEntry.offset (slot_entry (directory page) i)) 8 = P.slots[i].offset
    ∧ m.load (SlotEntry.size (slot_entry (directory page) i)) 8 = 16 := by
  simpa only [Index.entry_at, Slot.entry, Entry.mk.injEq] using h.entry_at hi

/-- The loops of `read_index_slot` and `free_index_slot` run through the slots. -/
theorem Holds.find_entry (h : Holds m page P.slots) (slot_id : UInt8) :
    Index.find_entry m page slot_id = P.slots.findIdx? fun s => s.id == slot_id := by
  have hentry : ∀ i (hi : i < P.slots.length),
      m.load8 (SlotEntry.slot_id (slot_entry (directory page) i)) = P.slots[i].id :=
    fun i hi => (h.entry_fields hi).1
  rw [Index.find_entry, h.total, h.directory_eq]
  cases hfind : P.slots.findIdx? fun s => s.id == slot_id with
  | none =>
      rw [List.find?_range_eq_none]
      intro i hi
      rw [hentry i hi]
      have hne := List.findIdx?_eq_none_iff.mp hfind P.slots[i] (List.getElem_mem hi)
      rw [hne]
      rfl
  | some i =>
      obtain ⟨hi, hid, hbefore⟩ := List.findIdx?_eq_some_iff_getElem.mp hfind
      rw [List.find?_range_eq_some]
      refine ⟨?_, List.mem_range.mpr hi, fun j hj => ?_⟩
      · rw [hentry i hi]
        exact hid
      · rw [hentry j (Nat.lt_trans hj hi)]
        have hne := hbefore j hj
        simpa using hne

/-- The slot found is the one at the place found. -/
theorem SlotPage.find_of_findIdx {slot_id : UInt8} {i : Nat}
    (hfind : (P.slots.findIdx? fun s => s.id == slot_id) = some i) :
    ∃ hi : i < P.slots.length, P.find slot_id = some P.slots[i]
      ∧ (P.remove slot_id).slots = P.slots.eraseIdx i := by
  obtain ⟨hi, hid, hbefore⟩ := List.findIdx?_eq_some_iff_getElem.mp hfind
  refine ⟨hi, List.find?_eq_some_iff_getElem.mpr ⟨hid, i, hi, rfl, fun j hj => ?_⟩, ?_⟩
  · have hne := hbefore j hj
    simpa using hne
  · show P.slots.eraseP (fun s => s.id == slot_id) = P.slots.eraseIdx i
    rw [List.eraseP_eq_eraseIdx, hfind]

theorem SlotPage.find_of_findIdx_none {slot_id : UInt8}
    (hfind : (P.slots.findIdx? fun s => s.id == slot_id) = none) : P.find slot_id = none := by
  rw [List.findIdx?_eq_none_iff] at hfind
  refine List.find?_eq_none.mpr fun s hs => ?_
  rw [hfind s hs]
  exact Bool.false_ne_true

/-- The record of the slot at place `i`. -/
theorem Holds.entry_record (h : Holds m page P.slots) {i : Nat}
    (hi : i < P.slots.length) (old : IndexSlotData) :
    Index.entry_record m page (slot_entry (slot_entries m page) i) old = P.slots[i].data := by
  obtain ⟨-, hoffset, hsize⟩ := h.entry_fields hi
  rw [Index.entry_record, h.directory_eq, hoffset, hsize]
  exact h.records _ (List.getElem_mem hi) old

end

/-! ## §3. Reading, writing and freeing. -/

section

variable {pager : Pager} {page : Nat} {page_no : UInt16} {flag : UInt8} {P : SlotPage}

/-- No slot has id 0. -/
theorem SlotPage.Ok.read_zero (h : P.Ok) (old : IndexSlotData) : P.read 0 old = old := by
  have hnone : P.find 0 = none := by
    refine List.find?_eq_none.mpr fun s hs heq => ?_
    exact h.id_ne_zero (SlotPage.mem_ids hs) (by simpa using heq)
  rw [SlotPage.read, hnone]
  exact ite_self _

/-- The id `total_slots` is refused. -/
theorem SlotPage.read_total {n : Nat} (hn : n = P.slots.length) (hlt : n < 256)
    (old : IndexSlotData) : P.read (UInt8.ofNat n) old = old := by
  refine if_pos ?_
  rw [UInt8.toNat_ofNat', Nat.mod_eq_of_lt hlt, hn]

theorem Holds.read (h : Holds pager.mem page P.slots)
    (hpage : pager_get_page pager page_no = some page) (slot_id : UInt8) (old : IndexSlotData) :
    read_index_slot pager page_no slot_id old = P.read slot_id old := by
  simp only [read_index_slot, hpage, h.total, h.find_entry, SlotPage.read]
  cases hfind : P.slots.findIdx? fun s => s.id == slot_id with
  | none => rw [SlotPage.find_of_findIdx_none hfind]; rfl
  | some i =>
      obtain ⟨hi, hslot, -⟩ := SlotPage.find_of_findIdx hfind
      simp only [h.entry_record hi, hslot, Option.map_some, Option.getD_some]

theorem Holds.insert_position (h : Holds pager.mem page P.slots)
    (hpage : pager_get_page pager page_no = some page) (slot : IndexSlotData) (junk : Junk) :
    Index.insert_position pager page_no page slot junk = P.position slot.key junk := by
  have hexisting : ∀ i < P.slots.length,
      read_index_slot pager page_no
        (pager.mem.load8 (SlotEntry.slot_id (slot_entry (slot_entries pager.mem page) i))) (junk [i])
      = P.existing i (junk [i]) := by
    intro i hi
    have hid : pager.mem.load8 (SlotEntry.slot_id (slot_entry (directory page) i))
        = P.slots[i].id := (h.entry_fields hi).1
    rw [h.directory_eq, hid, h.read hpage, SlotPage.existing, List.getElem?_eq_getElem hi]
  simp only [Index.insert_position, SlotPage.position, h.total]
  congr 1
  refine List.find?_congr fun i hi => ?_
  rw [hexisting i (List.mem_range.mp hi)]

/-- The bytes of a list without the last one. -/
theorem bytes_dropLast {m : Mem} {a : Nat} {l : List UInt8} (h : m.bytes a l.length = l) :
    m.bytes a l.dropLast.length = l.dropLast := by
  have htake : l.dropLast = l.take (l.length - 1) := List.dropLast_eq_take
  have hlen : l.dropLast.length = l.length - 1 := List.length_dropLast
  rw [hlen, htake]
  nth_rewrite 3 [← h]
  rw [bytes_eq_map, bytes_eq_map, ← List.map_take, List.take_range, Nat.min_eq_left (Nat.sub_le _ _)]

theorem getLast_bytes {m : Mem} {a : Nat} {l : List UInt8} (h : m.bytes a l.length = l)
    (hne : l ≠ []) : m.load8 (a + (l.length - 1)) = l.getLast hne := by
  have hlen : l.length - 1 < (m.bytes a l.length).length := by
    rw [h]
    exact Nat.sub_lt (List.length_pos_iff.mpr hne) Nat.one_pos
  rw [List.getLast_eq_getElem, ← List.getElem_of_eq h hlen]
  simp only [bytes_eq_map, List.getElem_map, List.getElem_range]
  rfl

/-- A page with room hands out the id that was freed last, or the next one. -/
theorem Slotted.find_empty (h : Slotted pager.mem page page_no flag P)
    (hpage : pager_get_page pager page_no = some page) (hfull : ¬ P.Full) :
    ∃ m', find_empty_index_slot pager page_no MAX_DATA_PER_INDEX_SLOT
        = (P.nextId, pager.withMem m')
      ∧ pager.mem.SameOff (page + 13) (page + 15) m'
      ∧ m'.load8 (DBPageHeader.highest_slot page)
        = UInt8.ofNat (if P.free = [] then P.highest + 1 else P.highest)
      ∧ m'.load8 (DBPageHeader.free_slot_count page) = UInt8.ofNat P.free.dropLast.length := by
  have hcount := h.toNat_free_slot_count
  simp only [find_empty_index_slot, hpage, gt_iff_lt, Nat.lt_irrefl, if_false]
  by_cases hfree : P.free = []
  · have hzero : pager.mem.load8 (DBPageHeader.free_slot_count page) = 0 := by
      rw [h.free_slot_count, hfree]
      rfl
    have hused := h.ok.used
    have hcounted := h.ok.counted
    -- there are enough bytes for a slot when writes are not refused
    have hroom : 10 * USED_SPACE pager.mem page < FULL_THRESHOLD_10
        ∧ (pager.mem.load16 (DBPageHeader.free_total page)).toNat
          ≥ INDEX_SLOT_DATA_SIZE + SLOT_ENTRY_SIZE := by
      refine ⟨not_le.mp (mt h.full_iff.mp hfull), ?_⟩
      have hsize : INDEX_SLOT_DATA_SIZE + SLOT_ENTRY_SIZE = 47 := rfl
      unfold SlotPage.Full at hfull
      rw [h.free_total, UInt16.toNat_ofNat', Nat.mod_eq_of_lt (by omega), hsize]
      omega
    have hnext : pager.mem.load8 (DBPageHeader.highest_slot page) + 1 = P.nextId := by
      rw [h.highest_slot, SlotPage.nextId, hfree, List.getLast?_nil, Option.getD_none,
        UInt8.ofNat_add]
      rfl
    rw [hzero, if_neg (by decide), if_pos hroom, hnext]
    refine ⟨_, rfl, (SameOff.refl _ _ _).store8 (by simp) _ (by simp), ?_, ?_⟩
    · rw [load8_store8_same, if_pos hfree, SlotPage.nextId, hfree]
      rfl
    · rw [load8_store8_of_disjoint _ _ (by simp), hzero, hfree]
      rfl
  · have hpos : 0 < pager.mem.load8 (DBPageHeader.free_slot_count page) := by
      rw [UInt8.lt_iff_toNat_lt, hcount]
      exact List.length_pos_iff.mpr hfree
    have hlast : pager.mem.load8 (DBPageHeader.free_slot_list page (P.free.length - 1))
        = P.nextId := by
      rw [SlotPage.nextId, List.getLast?_eq_some_getLast hfree]
      exact getLast_bytes h.free_slot_list hfree
    rw [if_pos hpos, hcount, hlast]
    refine ⟨_, rfl, (SameOff.refl _ _ _).store8 (by simp) _ (by simp), ?_, ?_⟩
    · rw [load8_store8_of_disjoint _ _ (by simp), h.highest_slot, if_neg hfree]
    · rw [load8_store8_same, h.free_slot_count, List.length_dropLast,
        UInt8.ofNat_sub (List.length_pos_iff.mpr hfree)]
      rfl

/-- A full page is left as it is. -/
theorem Slotted.write_full (h : Slotted pager.mem page page_no flag P)
    (hpage : pager_get_page pager page_no = some page) (hfull : P.Full) (slot : IndexSlotData)
    (junk : Junk) : write_index_slot pager page_no slot junk = pager := by
  simp only [write_index_slot, hpage]
  exact if_pos (h.full_iff.mpr hfull)

/-- The stages of a write: `m₁` has the id taken, `m₂` also the entry and the record. -/
structure WriteStages (m m₁ m₂ : Mem) (page : Nat) (P : SlotPage) (pos : Nat)
    (slot : IndexSlotData) (offset : UInt64) : Prop where
  counters : m.SameOff (page + 13) (page + 15) m₁
  highest_slot : m₁.load8 (DBPageHeader.highest_slot page)
    = UInt8.ofNat (if P.free = [] then P.highest + 1 else P.highest)
  free_slot_count : m₁.load8 (DBPageHeader.free_slot_count page) = UInt8.ofNat P.free.dropLast.length
  offset_eq : offset.toNat = 4032 - 23 * (P.writes + 1)
  body : m₁.SameOff (page + 68) (page + 34 + (4032 - 23 * P.writes)) m₂
  entries : entry_list m₂ (directory page) (P.slots.length + 1)
    = (entry_list m₁ (directory page) P.slots.length).insertIdx pos (P.newSlot slot).entry
  record : ∀ old, read_record m₂ (DBPage.data page + (P.newSlot slot).offset) 16 old = slot

/-- A write that is not refused goes through them, and counts the slot at last. -/
theorem Slotted.write_stages (h : Slotted pager.mem page page_no flag P)
    (hpage : pager_get_page pager page_no = some page) (hfull : ¬ P.Full) (hroom : P.HasRoom)
    (slot : IndexSlotData) (junk : Junk) :
    ∃ m₁ m₂ offset, write_index_slot pager page_no slot junk
        = pager.withMem (count_slot m₂ page offset)
      ∧ WriteStages pager.mem m₁ m₂ page P (P.position slot.key junk) slot offset := by
  obtain ⟨m₁, hfind, hcounters, hhigh₁, hcount₁⟩ := h.find_empty hpage hfull
  -- the insertion point is found with the counters already changed
  have hholds₁ : Holds (pager.withMem m₁).mem page P.slots :=
    h.holds_frame hcounters (by simp only [PAGE_SIZE]; omega)
  have hpos_eq : Index.insert_position (pager.withMem m₁) page_no page slot junk
      = P.position slot.key junk := hholds₁.insert_position hpage slot junk
  have hpos : P.position slot.key junk ≤ P.slots.length := find_range_le _ _
  have hend₁ : m₁.load16 (DBPageHeader.free_end page) = UInt16.ofNat (4032 - 23 * P.writes) :=
    (hcounters.load16 (by simp)).trans h.free_end
  obtain ⟨m₂, offset, hm', hoffset, hbody, hlist, hrecord⟩ :=
    insert_slot_body hroom hpos hholds₁.directory_eq hholds₁.total hend₁ P.nextId slot
  refine ⟨m₁, m₂, offset, ?_, hcounters, hhigh₁, hcount₁, hoffset, hbody, hlist, hrecord⟩
  simp only [write_index_slot, hpage, hfind, if_neg h.ok.nextId_ne_zero, hpos_eq]
  rw [if_neg (mt h.full_iff.mp hfull), ← hm']
  rfl

section WriteStages

variable {m m₁ m₂ : Mem} {pos : Nat} {slot : IndexSlotData} {offset : UInt64}

/-- No stage writes between the counters and the directory. -/
theorem WriteStages.between (hw : WriteStages m m₁ m₂ page P pos slot offset) {i : Nat}
    (hlo : page + 15 ≤ i) (hhi : i < page + 68) : (count_slot m₂ page offset) i = m i := by
  rw [count_slot_frame m₂ page offset i (by omega), hw.body i (by omega), hw.counters i (by omega)]

/-- Nor outside the page. -/
theorem WriteStages.frame (hw : WriteStages m m₁ m₂ page P pos slot offset) :
    m.SameOff page (page + PAGE_SIZE) (count_slot m₂ page offset) := by
  intro i hi
  simp only [PAGE_SIZE] at hi
  rw [count_slot_frame m₂ page offset i (by omega), hw.body i (by omega), hw.counters i (by omega)]

/-- The directory and the records after a write. -/
theorem WriteStages.holds (hw : WriteStages m m₁ m₂ page P pos slot offset)
    (h : Slotted m page page_no flag P) (hroom : P.HasRoom) (hpos : pos ≤ P.slots.length) :
    Holds (count_slot m₂ page offset) page (P.insert pos slot).slots := by
  unfold SlotPage.HasRoom at hroom
  have hcount := count_slot_frame m₂ page offset
  have hbody := hw.body
  have hholds₁ : Holds m₁ page P.slots :=
    h.holds_frame hw.counters (by simp only [PAGE_SIZE]; omega)
  have hlen : (P.insert pos slot).slots.length = P.slots.length + 1 :=
    List.length_insertIdx_of_le_length hpos _
  refine ⟨?_, ?_, ?_, fun s hs old => ?_, ?_⟩
  · rw [hcount.load16 (by simp), hbody.load16 (by simp), hholds₁.free_start]
  · rw [count_slot_total, hbody.load8 (by simp), hholds₁.total_slots, hlen, UInt8.ofNat_add]
    rfl
  · rw [hlen, entry_list_of_sameOff hcount (Or.inr (by simp)), hw.entries, hholds₁.entries]
    exact (List.map_insertIdx Slot.entry P.slots pos (P.newSlot slot)).symm
  · rw [read_record_of_sameOff hcount (Or.inr (by simp; omega))]
    rcases (List.mem_insertIdx hpos).mp hs with rfl | hs
    · exact hw.record old
    · -- the records written before lie above the new one
      have hinside := h.ok.inside s hs
      rw [read_record_of_sameOff hbody (Or.inr (by simp; omega))]
      exact hholds₁.records s hs old
  · rw [hlen]
    omega

end WriteStages

/-- **Writing a slot** to a page with room for it. -/
theorem Slotted.write (h : Slotted pager.mem page page_no flag P)
    (hpage : pager_get_page pager page_no = some page) (hfull : ¬ P.Full) (hroom : P.HasRoom)
    (slot : IndexSlotData) (junk : Junk) :
    ∃ m', write_index_slot pager page_no slot junk = pager.withMem m'
      ∧ Slotted m' page page_no flag (P.insert (P.position slot.key junk) slot)
      ∧ pager.mem.SameOff page (page + PAGE_SIZE) m' := by
  obtain ⟨m₁, m₂, offset, hwrite, hw⟩ := h.write_stages hpage hfull hroom slot junk
  have hpos : P.position slot.key junk ≤ P.slots.length := find_range_le _ _
  have hok := h.ok.insert hfull hroom hpos slot
  have hcount := count_slot_frame m₂ page offset
  have hbody := hw.body
  have hcounters := hw.counters
  refine ⟨_, hwrite, ⟨?_, ?_, hw.holds h hroom hpos, ?_, ?_, ?_, ?_, ?_, hok⟩, hw.frame⟩
  · rw [hcount.load16 (by simp), hbody.load16 (by simp), hcounters.load16 (by simp), h.page_id]
  · rw [hcount.load8 (by simp), hbody.load8 (by simp), hcounters.load8 (by simp), h.flag]
  · rw [count_slot_end, ← UInt16.toNat_inj, UInt64.toNat_toUInt16, hw.offset_eq,
      UInt16.toNat_ofNat']
    rfl
  · -- a page that is not full has the 47 bytes a slot is counted with
    have hused := h.ok.counted
    unfold SlotPage.Full at hfull
    show _ = UInt16.ofNat (3998 + 40 * P.frees - 47 * (P.writes + 1))
    rw [count_slot_free, hbody.load16 (by simp), hcounters.load16 (by simp), h.free_total,
      Nat.mul_add_one, ← Nat.sub_sub, UInt16.ofNat_sub (b := 47) (by omega)]
    rfl
  · rw [hcount.load8 (by simp), hbody.load8 (by simp), hw.highest_slot]
    rfl
  · rw [hcount.load8 (by simp), hbody.load8 (by simp), hw.free_slot_count]
    rfl
  · -- the list is cut at its end, or was empty
    have hlist := h.ok.list
    have hlen : P.free.dropLast.length ≤ P.free.length :=
      List.length_dropLast ▸ Nat.sub_le _ _
    refine Eq.trans (bytes_congr _ _ fun i hlo hhi => ?_) (bytes_dropLast h.free_slot_list)
    simp only [DBPageHeader.free_slot_list] at hlo hhi
    have hdrop : (P.insert (P.position slot.key junk) slot).free = P.free.dropLast := rfl
    rw [hdrop] at hhi
    exact hw.between (by omega) (by omega)

/-! ### Freeing. -/

section Uncount

variable {m : Mem} {page : Nat} (slot_id : UInt8) (entry : Nat)

/-- Up to 53 ids the list ends in front of the directory. -/
theorem uncount_slot_inside (hlist : (m.load8 (DBPageHeader.free_slot_count page)).toNat < 53) :
    m.SameOff (page + 10) (page + 68) (uncount_slot m page slot_id entry) := by
  simp only [uncount_slot, free_slot_count_store_total]
  refine SameOff.store16 ?_ ?_ _ ?_
  refine SameOff.store8 ?_ ?_ _ ?_
  refine SameOff.store8 ?_ ?_ _ ?_
  refine SameOff.store8 (SameOff.refl _ _ m) ?_ _ ?_
  all_goals
    simp at hlist ⊢
    try omega

theorem uncount_slot_count :
    (uncount_slot m page slot_id entry).load8 (DBPageHeader.free_slot_count page)
      = m.load8 (DBPageHeader.free_slot_count page) + 1 := by
  simp (disch := omega) only [uncount_slot, DBPageHeader.total_slots, DBPageHeader.free_total,
    DBPageHeader.free_slot_count, DBPageHeader.free_slot_list, load8_store16_of_disjoint,
    load8_store8_of_disjoint, load8_store8_same]

/-- The id is put behind the others. -/
theorem uncount_slot_list {l : List UInt8}
    (hcount : (m.load8 (DBPageHeader.free_slot_count page)).toNat = l.length)
    (hlist : m.bytes (DBPageHeader.free_slot_list page 0) l.length = l) :
    (uncount_slot m page slot_id entry).bytes (DBPageHeader.free_slot_list page 0)
      (l ++ [slot_id]).length = l ++ [slot_id] := by
  have hlast : (uncount_slot m page slot_id entry).load8 (DBPageHeader.free_slot_list page l.length)
      = slot_id := by
    simp only [uncount_slot, free_slot_count_store_total, hcount]
    rw [load8_store16_of_disjoint _ _ (by simp; omega), load8_store8_same]
  have hbefore : ∀ k < l.length, (uncount_slot m page slot_id entry) (page + 15 + k)
      = m (page + 15 + k) := by
    intro k hk
    show (uncount_slot m page slot_id entry).load8 (page + 15 + k) = m.load8 (page + 15 + k)
    simp only [uncount_slot, free_slot_count_store_total, hcount]
    simp (disch := omega) only [DBPageHeader.free_total, DBPageHeader.total_slots,
      DBPageHeader.free_slot_count, DBPageHeader.free_slot_list, load8_store16_of_disjoint,
      load8_store8_of_disjoint]
  rw [List.length_append, List.length_singleton, bytes_eq_map, List.range_succ, List.map_append,
    List.map_singleton]
  refine congrArg₂ (· ++ ·) ?_ ?_
  · nth_rewrite 2 [← hlist]
    rw [bytes_eq_map]
    refine List.map_congr_left fun k hk => ?_
    exact hbefore k (List.mem_range.mp hk)
  · exact congrArg (fun b => [b]) hlast

theorem uncount_slot_highest :
    (uncount_slot m page slot_id entry).load8 (DBPageHeader.highest_slot page)
      = m.load8 (DBPageHeader.highest_slot page) := by
  simp (disch := omega) only [uncount_slot, DBPageHeader.total_slots, DBPageHeader.free_total,
    DBPageHeader.free_slot_count, DBPageHeader.free_slot_list, DBPageHeader.highest_slot,
    load8_store16_of_disjoint, load8_store8_of_disjoint]

end Uncount

/-- The directory without the slot at place `i`. -/
theorem Slotted.close_gap (h : Slotted pager.mem page page_no flag P) {i : Nat}
    (hi : i < P.slots.length) :
    let m₁ := pager.mem.memmove (slot_entry (directory page) i)
      (slot_entry (directory page) (i + 1)) ((P.slots.length - i - 1) * SlotEntry.sizeof)
    pager.mem.SameOff (page + 68) (page + 68 + P.slots.length * 24) m₁
    ∧ entry_list m₁ (directory page) (P.slots.length - 1) = (P.slots.eraseIdx i).map Slot.entry
    ∧ m₁.load (SlotEntry.size (slot_entry (directory page) i)) 8 = 16 := by
  refine ⟨close_gap_frame pager.mem _ hi, ?_, close_gap_size hi fun k hk => ?_⟩
  · rw [entry_list_close_gap hi, h.holds.entries, List.eraseIdx_map]
  · exact (h.holds.entry_fields hk).2.2

/-- The directory and the records after a free; `m₁` has the gap closed already. -/
theorem Slotted.holds_uncount (h : Slotted pager.mem page page_no flag P) {m₁ : Mem} {i : Nat}
    (hi : i < P.slots.length)
    (hmove : pager.mem.SameOff (page + 68) (page + 68 + P.slots.length * 24) m₁)
    (hentries : entry_list m₁ (directory page) (P.slots.length - 1)
      = (P.slots.eraseIdx i).map Slot.entry)
    (slot_id : UInt8) (entry : Nat)
    (hcount : m₁.SameOff (page + 10) (page + 68) (uncount_slot m₁ page slot_id entry)) :
    Holds (uncount_slot m₁ page slot_id entry) page (P.slots.eraseIdx i) := by
  have hroom := h.ok.room
  have hlen : (P.slots.eraseIdx i).length = P.slots.length - 1 := List.length_eraseIdx_of_lt hi
  refine ⟨?_, ?_, ?_, fun s hs old => ?_, ?_⟩
  · rw [hcount.load16 (by simp), hmove.load16 (by simp), h.holds.free_start]
  · rw [uncount_slot_total, hmove.load8 (by simp), h.holds.total_slots, hlen,
      UInt8.ofNat_sub (Nat.succ_le_of_lt (Nat.zero_lt_of_lt hi))]
    rfl
  · rw [hlen, entry_list_of_sameOff hcount (Or.inr (by simp)), hentries]
  · -- the records stay where they are
    have hs : s ∈ P.slots := List.mem_of_mem_eraseIdx hs
    have hinside := h.ok.inside s hs
    rw [read_record_of_sameOff hcount (Or.inr (by simp; omega)),
      read_record_of_sameOff hmove (Or.inr (by simp; omega))]
    exact h.holds.records s hs old
  · rw [hlen]
    omega

/-- **Freeing a slot** that is found moves its id to the free ones. -/
theorem Slotted.free_slot (h : Slotted pager.mem page page_no flag P)
    (hpage : pager_get_page pager page_no = some page) {slot_id : UInt8} {s : Slot}
    (hguard : slot_id.toNat < P.slots.length) (hfind : P.find slot_id = some s)
    (hlist : P.free.length < 53) :
    ∃ m', free_index_slot pager page_no slot_id = pager.withMem m'
      ∧ Slotted m' page page_no flag (P.remove slot_id)
      ∧ pager.mem.SameOff (page + 10) (page + PAGE_SIZE) m' := by
  obtain ⟨i, hidx⟩ : ∃ i, (P.slots.findIdx? fun s => s.id == slot_id) = some i := by
    cases hidx : P.slots.findIdx? fun s => s.id == slot_id with
    | none =>
        rw [SlotPage.find_of_findIdx_none hidx] at hfind
        cases hfind
    | some i => exact ⟨i, rfl⟩
  obtain ⟨hi, -, hremove⟩ := SlotPage.find_of_findIdx hidx
  have hok := h.ok.remove hfind hlist
  have hroom := h.ok.room
  obtain ⟨hmove, hentries, hsize⟩ := h.close_gap hi
  simp only [free_index_slot, hpage, h.holds.total, if_neg (Nat.not_le.mpr hguard),
    h.holds.find_entry, hidx, h.holds.directory_eq]
  generalize pager.mem.memmove (slot_entry (directory page) i)
    (slot_entry (directory page) (i + 1)) ((P.slots.length - i - 1) * SlotEntry.sizeof) = m₁
    at hmove hentries hsize
  have hcount₁ : m₁.load8 (DBPageHeader.free_slot_count page)
      = pager.mem.load8 (DBPageHeader.free_slot_count page) := hmove.load8 (Or.inl (by simp))
  have hlist₁ : (m₁.load8 (DBPageHeader.free_slot_count page)).toNat = P.free.length := by
    rw [hcount₁, h.toNat_free_slot_count]
  have hcount := uncount_slot_inside slot_id (slot_entry (directory page) i) (hlist₁ ▸ hlist)
  refine ⟨_, rfl, ⟨?_, ?_, ?_, ?_, ?_, ?_, ?_, ?_, hok⟩,
    (hmove.mono (by omega) (by simp; omega)).trans (hcount.mono (Nat.le_refl _) (by simp))⟩
  · rw [hcount.load16 (by simp), hmove.load16 (by simp), h.page_id]
  · rw [hcount.load8 (by simp), hmove.load8 (by simp), h.flag]
  · rw [hremove]
    exact h.holds_uncount hi hmove hentries slot_id _ hcount
  · rw [hcount.load16 (by simp), hmove.load16 (by simp), h.free_end]
    rfl
  · have hused := h.ok.used
    have hcounted := h.ok.counted
    rw [uncount_slot_total_free _ (hlist₁ ▸ hlist) (by simp [slot_entry]), hsize,
      hmove.load16 (by simp), h.free_total, ← UInt16.ofNat_add]
    have hsum : 3998 + 40 * P.frees - 47 * P.writes + (16 + SlotEntry.sizeof)
        = 3998 + 40 * (P.frees + 1) - 47 * P.writes := by
      simp only [SlotEntry.sizeof]
      omega
    rw [hsum, SlotPage.remove]
  · rw [uncount_slot_highest, hmove.load8 (by simp), h.highest_slot]
    rfl
  · rw [uncount_slot_count, hcount₁, h.free_slot_count]
    show _ = UInt8.ofNat (P.free ++ [slot_id]).length
    rw [List.length_append, UInt8.ofNat_add]
    rfl
  · refine uncount_slot_list slot_id _ hlist₁ ?_
    have hsame : m₁.bytes (DBPageHeader.free_slot_list page 0) P.free.length
        = pager.mem.bytes (DBPageHeader.free_slot_list page 0) P.free.length := by
      refine bytes_congr _ _ fun j h₁ h₂ => hmove j (Or.inl ?_)
      simp only [DBPageHeader.free_slot_list] at h₂
      omega
    exact hsame.trans h.free_slot_list

/-- Any other call leaves the page as it is. -/
theorem Slotted.free_none (h : Slotted pager.mem page page_no flag P)
    (hpage : pager_get_page pager page_no = some page) {slot_id : UInt8}
    (hnone : P.slots.length ≤ slot_id.toNat ∨ P.find slot_id = none) :
    free_index_slot pager page_no slot_id = pager := by
  simp only [free_index_slot, hpage, h.holds.total, h.holds.find_entry]
  cases hfind : P.slots.findIdx? fun s => s.id == slot_id with
  | none => exact ite_self _
  | some i =>
      obtain ⟨hi, hslot, -⟩ := SlotPage.find_of_findIdx hfind
      rcases hnone with hguard | hnone
      · rw [if_pos hguard]
      · rw [hslot] at hnone
        cases hnone

end

end PreSeQL.Index
