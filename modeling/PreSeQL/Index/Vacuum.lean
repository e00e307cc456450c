/-
  PreSeQL.Index.Vacuum — `vacuum_page` (`pager.c`) on slotted pages.

  The records that are in use are copied one behind the other, and a new directory is
  built for them.  Both are written back to the same place, the directory last.

    • `vacuum_slots_spec` — the table the loop builds, for every directory,
    • `payload_le` — records that lie apart fit the buffer they are copied to,
    • `vacuum_first_entry` — the first entry names the bytes it is stored in,
    • `vacuum_keeps_slots_iff` — when the slots are kept.
-/
import PreSeQL.Index.Packed
import Mathlib.Algebra.BigOperators.Group.Finset.Basic
import Mathlib.Order.Interval.Finset.Nat

namespace PreSeQL.Index

open PreSeQL.Lib PreSeQL.Lib.Mem PreSeQL.Db

/-! ## §1. The function. -/

/-- The variables of the loop. -/
structure Vacuum where
  compacted : Mem
  new_offset : UInt16
  /-- The table `new_slots`, from address 0. -/
  new_slots : Mem
  total_payload : UInt16
  new_slot_count : UInt8

/-- The three assignments to `new_slots[new_slot_count]`. -/
def set_slot (m : Mem) (entry : Nat) (slot_id : UInt8) (offset : UInt16) (size : Nat) : Mem :=
  let m := m.store8 (SlotEntry.slot_id entry) slot_id
  let m := m.store (SlotEntry.offset entry) 8 offset.toNat
  m.store (SlotEntry.size entry) 8 size

/-- The loop body.  An entry is given its index as slot id. -/
def vacuum_slot (m : Mem) (base : Nat) (s : Vacuum) (i : Nat) : Vacuum :=
  let slot := entry_at m (slot_entry (base + DBPageHeader.sizeof) i)
  if slot.size = 0 then s
  else
    let src := base + slot.offset
    { compacted := s.compacted.fill s.new_offset.toNat slot.size fun j => m (src + j),
      new_offset := s.new_offset + UInt16.ofNat slot.size,
      new_slots := set_slot s.new_slots (slot_entry 0 s.new_slot_count.toNat) (UInt8.ofNat i)
        s.new_offset slot.size,
      total_payload := s.total_payload + UInt16.ofNat slot.size,
      new_slot_count := s.new_slot_count + 1 }

/-- Before the loop; `compacted` is not initialised. -/
def Vacuum.start (compacted : Mem) : Vacuum :=
  ⟨compacted, UInt16.ofNat DBPageHeader.sizeof, fun _ => 0, 0, 0⟩

def vacuum_slots (m : Mem) (base : Nat) (compacted : Mem) (slots : List Nat) : Vacuum :=
  slots.foldl (vacuum_slot m base) (Vacuum.start compacted)

/-- The header fields set at the end. -/
def vacuum_header (m : Mem) (page : Nat) (s : Vacuum) : Mem :=
  let table := UInt16.ofNat (s.new_slot_count.toNat * SlotEntry.sizeof)
  let header_size := UInt16.ofNat DBPageHeader.sizeof
  let m := m.store16 (DBPageHeader.free_start page) (header_size + table)
  let m := m.store16 (DBPageHeader.free_end page) s.new_offset
  let m := m.store16 (DBPageHeader.free_total page)
    (UInt16.ofNat MAX_USABLE_PAGE_SIZE - (s.new_offset - header_size) - table)
  m.store8 (DBPageHeader.total_slots page) s.new_slot_count

def vacuum_page (m : Mem) (page : Nat) (compacted : Mem) : Mem :=
  let base := DBPage.data page
  let header_size := DBPageHeader.sizeof
  let s := vacuum_slots m base compacted (List.range (total_slots m page))
  let m := m.fill (base + header_size) s.total_payload.toNat fun j => s.compacted (header_size + j)
  -- the same place again
  let m := m.fill (base + DBPageHeader.sizeof) (s.new_slot_count.toNat * SlotEntry.sizeof)
    s.new_slots
  vacuum_header m page s

/-! ## §2. Pages and what is to be kept. -/

/-- Entry `i` of the directory. -/
def directory_entry (m : Mem) (page i : Nat) : Entry := entry_at m (slot_entry (directory page) i)

/-- The indices of the entries in use. -/
def live_slots (m : Mem) (page : Nat) : List Nat :=
  (List.range (total_slots m page)).filter fun i => (directory_entry m page i).size ≠ 0

/-- Two ranges of bytes, by their starts and lengths. -/
def Apart (a k b l : Nat) : Prop := a + k ≤ b ∨ b + l ≤ a

/-- The records in use lie inside `data`, apart from each other and from the directory. -/
structure WellPlaced (m : Mem) (page : Nat) : Prop where
  inside : ∀ i ∈ live_slots m page,
    (directory_entry m page i).offset + (directory_entry m page i).size ≤ MAX_USABLE_PAGE_SIZE
  apart : ∀ i ∈ live_slots m page, ∀ j ∈ live_slots m page, i ≠ j →
    Apart (directory_entry m page i).offset (directory_entry m page i).size
      (directory_entry m page j).offset (directory_entry m page j).size
  directory : ∀ i ∈ live_slots m page,
    Apart (directory_entry m page i).offset (directory_entry m page i).size
      DBPageHeader.sizeof (total_slots m page * SlotEntry.sizeof)

/-- The bytes an entry names. -/
def entry_bytes (m : Mem) (page : Nat) (entry : Entry) : List UInt8 :=
  m.bytes (DBPage.data page + entry.offset) entry.size

/-- Every slot in use has an entry for the bytes it had, no other slot is left, the
directory and the records do not overlap, and reading finds what it found. -/
structure KeepsSlots (pager : Pager) (page_no : UInt16) (m' : Mem) : Prop where
  kept : ∀ i ∈ live_slots pager.mem (page_no.toNat * PAGE_SIZE),
    ∃ k < total_slots m' (page_no.toNat * PAGE_SIZE),
      (directory_entry m' (page_no.toNat * PAGE_SIZE) k).slot_id
        = (directory_entry pager.mem (page_no.toNat * PAGE_SIZE) i).slot_id
      ∧ entry_bytes m' (page_no.toNat * PAGE_SIZE) (directory_entry m' (page_no.toNat * PAGE_SIZE) k)
        = entry_bytes pager.mem (page_no.toNat * PAGE_SIZE)
          (directory_entry pager.mem (page_no.toNat * PAGE_SIZE) i)
  live : ∀ k < total_slots m' (page_no.toNat * PAGE_SIZE),
    (directory_entry m' (page_no.toNat * PAGE_SIZE) k).size ≠ 0
  directory : ∀ k < total_slots m' (page_no.toNat * PAGE_SIZE),
    Apart (directory_entry m' (page_no.toNat * PAGE_SIZE) k).offset
      (directory_entry m' (page_no.toNat * PAGE_SIZE) k).size DBPageHeader.sizeof
      (total_slots m' (page_no.toNat * PAGE_SIZE) * SlotEntry.sizeof)
  read : ∀ i ∈ live_slots pager.mem (page_no.toNat * PAGE_SIZE), ∀ slot,
    read_index_slot (pager.withMem m') page_no
        (directory_entry pager.mem (page_no.toNat * PAGE_SIZE) i).slot_id slot
      = read_index_slot pager page_no
        (directory_entry pager.mem (page_no.toNat * PAGE_SIZE) i).slot_id slot

/-! ## §3. The table. -/

theorem sameOff_set_slot (m : Mem) (entry : Nat) (slot_id : UInt8) (offset : UInt16) (size : Nat) :
    m.SameOff entry (entry + SlotEntry.sizeof) (set_slot m entry slot_id offset size) :=
  store_entry_frame m entry slot_id offset.toNat size

theorem entry_at_set_slot (m : Mem) (entry : Nat) (slot_id : UInt8) (offset : UInt16) {size : Nat}
    (h : size < 256 ^ 8) :
    entry_at (set_slot m entry slot_id offset size) entry = ⟨slot_id, offset.toNat, size⟩ :=
  have hoffset : offset.toNat < 256 ^ 8 := Nat.lt_trans offset.toNat_lt (by decide)
  entry_at_store_entry m entry slot_id hoffset h

/-- The number of bytes of some records. -/
def payload (m : Mem) (page : Nat) (slots : List Nat) : Nat :=
  (slots.map fun i => (directory_entry m page i).size).sum

/-- The new entry of the record in place `k`. -/
def new_entry (m : Mem) (page : Nat) (slots : List Nat) (k : Nat) : Entry :=
  ⟨UInt8.ofNat (slots.getD k 0),
    (UInt16.ofNat (DBPageHeader.sizeof + payload m page (slots.take k))).toNat,
    (directory_entry m page (slots.getD k 0)).size⟩

/-- The variables after the records of `slots`. -/
structure Vacuumed (m : Mem) (page : Nat) (slots : List Nat) (s : Vacuum) : Prop where
  count : s.new_slot_count = UInt8.ofNat slots.length
  offset : s.new_offset = UInt16.ofNat (DBPageHeader.sizeof + payload m page slots)
  total : s.total_payload = UInt16.ofNat (payload m page slots)
  entries : ∀ k < slots.length, entry_at s.new_slots (slot_entry 0 k) = new_entry m page slots k

section

variable {m : Mem} {page : Nat} {slots : List Nat} {s : Vacuum}

theorem payload_concat (i : Nat) :
    payload m page (slots ++ [i]) = payload m page slots + (directory_entry m page i).size := by
  simp [payload]

/-- A record in front of the last one keeps its entry. -/
theorem new_entry_concat {k : Nat} (hk : k < slots.length) (i : Nat) :
    new_entry m page (slots ++ [i]) k = new_entry m page slots k := by
  have hget : (slots ++ [i]).getD k 0 = slots.getD k 0 := by
    rw [List.getD_eq_getElem?_getD, List.getD_eq_getElem?_getD, List.getElem?_append_left hk]
  rw [new_entry, new_entry, hget, List.take_append_of_le_length (Nat.le_of_lt hk)]

theorem new_entry_last (i : Nat) :
    new_entry m page (slots ++ [i]) slots.length
      = ⟨UInt8.ofNat i, (UInt16.ofNat (DBPageHeader.sizeof + payload m page slots)).toNat,
          (directory_entry m page i).size⟩ := by
  have hget : (slots ++ [i]).getD slots.length 0 = i := by
    rw [List.getD_eq_getElem?_getD, List.getElem?_concat_length, Option.getD_some]
  rw [new_entry, hget, List.take_left]

/-- **One record** more, as long as the 8-bit count does not wrap. -/
theorem Vacuumed.next (h : Vacuumed m page slots s) {i : Nat}
    (hlive : (directory_entry m page i).size ≠ 0) (hlen : slots.length < 256) :
    Vacuumed m page (slots ++ [i]) (vacuum_slot m (DBPage.data page) s i) := by
  have hcount : s.new_slot_count.toNat = slots.length := by
    rw [h.count, UInt8.toNat_ofNat', Nat.mod_eq_of_lt hlen]
  have hstep : vacuum_slot m (DBPage.data page) s i
      = { compacted := s.compacted.fill s.new_offset.toNat (directory_entry m page i).size
            fun j => m (DBPage.data page + (directory_entry m page i).offset + j),
          new_offset := s.new_offset + UInt16.ofNat (directory_entry m page i).size,
          new_slots := set_slot s.new_slots (slot_entry 0 s.new_slot_count.toNat) (UInt8.ofNat i)
            s.new_offset (directory_entry m page i).size,
          total_payload := s.total_payload + UInt16.ofNat (directory_entry m page i).size,
          new_slot_count := s.new_slot_count + 1 } := by
    unfold vacuum_slot
    exact if_neg hlive
  rw [hstep]
  refine ⟨?_, ?_, ?_, fun k hk => ?_⟩
  · show s.new_slot_count + 1 = _
    rw [h.count, List.length_append, List.length_singleton, UInt8.ofNat_add]
    rfl
  · show s.new_offset + _ = _
    rw [h.offset, payload_concat,
      ← Nat.add_assoc DBPageHeader.sizeof (payload m page slots) (directory_entry m page i).size,
      UInt16.ofNat_add (DBPageHeader.sizeof + payload m page slots)]
  · show s.total_payload + _ = _
    rw [h.total, payload_concat, UInt16.ofNat_add]
  · show entry_at (set_slot _ _ _ _ _) _ = _
    rw [hcount, h.offset]
    by_cases hlast : k = slots.length
    · have hsize : (directory_entry m page i).size < 256 ^ 8 := load_lt m 8 _
      rw [hlast, entry_at_set_slot _ _ _ _ hsize, new_entry_last]
    · have hlt : k < slots.length := by
        rw [List.length_append, List.length_singleton] at hk
        omega
      have hfront : slot_entry 0 k + SlotEntry.sizeof ≤ slot_entry 0 slots.length := by
        simp only [slot_entry, SlotEntry.sizeof]
        omega
      rw [new_entry_concat hlt, ← h.entries k hlt]
      exact entry_at_of_sameOff (sameOff_set_slot _ _ _ _ _) (Or.inl hfront)

/-- **The loop** leaves an entry for every record in use, in the order of the directory. -/
theorem vacuum_slots_spec (m : Mem) (page : Nat) (compacted : Mem) (slots : List Nat) :
    (slots.filter fun i => (directory_entry m page i).size ≠ 0).length ≤ 256 →
      Vacuumed m page (slots.filter fun i => (directory_entry m page i).size ≠ 0)
        (vacuum_slots m (DBPage.data page) compacted slots) := by
  induction slots using List.reverseRecOn with
  | nil =>
      intro _
      exact ⟨rfl, rfl, rfl, fun k hk => absurd hk (Nat.not_lt_zero k)⟩
  | append_singleton slots i ih =>
      intro hlen
      rw [vacuum_slots, List.foldl_append, List.foldl_cons, List.foldl_nil, ← vacuum_slots]
      rw [List.filter_append] at hlen ⊢
      by_cases hlive : (directory_entry m page i).size = 0
      · -- the slot is skipped
        have hskip : vacuum_slot m (DBPage.data page)
            (vacuum_slots m (DBPage.data page) compacted slots) i
            = vacuum_slots m (DBPage.data page) compacted slots := by
          unfold vacuum_slot
          exact if_pos hlive
        have hnone : [i].filter (fun i => (directory_entry m page i).size ≠ 0) = [] := by
          simp [hlive]
        rw [hnone, List.append_nil] at hlen ⊢
        rw [hskip]
        exact ih hlen
      · have hone : [i].filter (fun i => (directory_entry m page i).size ≠ 0) = [i] := by
          simp [hlive]
        rw [hone] at hlen ⊢
        rw [List.length_append, List.length_singleton] at hlen
        exact (ih (by omega)).next hlive (by omega)

/-! ## §4. The buffer. -/

/-- Ranges that lie apart inside `b` bytes have no more bytes together. -/
theorem sum_le_of_apart {J : Type*} (S : Finset J) (start len : J → Nat) {b : Nat}
    (hinside : ∀ i ∈ S, start i + len i ≤ b)
    (hapart : ∀ i ∈ S, ∀ j ∈ S, i ≠ j → Apart (start i) (len i) (start j) (len j)) :
    ∑ i ∈ S, len i ≤ b := by
  classical
  have hdisjoint : (S : Set J).PairwiseDisjoint fun i => Finset.Ico (start i) (start i + len i) := by
    intro i hi j hj hne
    refine Finset.disjoint_left.mpr fun x hx hx' => ?_
    obtain ⟨h₁, h₂⟩ := Finset.mem_Ico.mp hx
    obtain ⟨h₃, h₄⟩ := Finset.mem_Ico.mp hx'
    rcases hapart i hi j hj hne with h | h
    · omega
    · omega
  have hsubset : S.biUnion (fun i => Finset.Ico (start i) (start i + len i)) ⊆ Finset.range b := by
    intro x hx
    obtain ⟨i, hi, hx⟩ := Finset.mem_biUnion.mp hx
    have hlt := (Finset.mem_Ico.mp hx).2
    exact Finset.mem_range.mpr (Nat.lt_of_lt_of_le hlt (hinside i hi))
  have hcard := Finset.card_le_card hsubset
  rw [Finset.card_biUnion hdisjoint, Finset.card_range] at hcard
  simpa using hcard

/-- Records that are well placed fit the buffer `compacted`, behind its first
`sizeof(DBPageHeader)` bytes. -/
theorem WellPlaced.payload_le (h : WellPlaced m page) :
    DBPageHeader.sizeof + payload m page (live_slots m page) ≤ PAGE_SIZE := by
  have hnodup : (live_slots m page).Nodup := List.nodup_range.filter _
  have hsum : ∑ i ∈ (live_slots m page).toFinset, (directory_entry m page i).size
      = payload m page (live_slots m page) := List.sum_toFinset _ hnodup
  have hle := sum_le_of_apart (live_slots m page).toFinset
    (fun i => (directory_entry m page i).offset) (fun i => (directory_entry m page i).size)
    (fun i hi => h.inside i (List.mem_toFinset.mp hi))
    fun i hi j hj => h.apart i (List.mem_toFinset.mp hi) j (List.mem_toFinset.mp hj)
  rw [hsum, MAX_USABLE_PAGE_SIZE_eq] at hle
  simp only [DBPageHeader.sizeof, PAGE_SIZE]
  omega

/-! ## §5. The page. -/

theorem length_live_slots_lt (m : Mem) (page : Nat) : (live_slots m page).length < 256 := by
  have hle : (live_slots m page).length ≤ (List.range (total_slots m page)).length :=
    List.length_filter_le _ _
  have hlt : total_slots m page < 256 := UInt8.toNat_lt _
  rw [List.length_range] at hle
  omega

theorem sameOff_vacuum_header (m : Mem) (page : Nat) (s : Vacuum) :
    m.SameOff (page + 6) (page + 13) (vacuum_header m page s) := by
  unfold vacuum_header
  refine SameOff.store8 ?_ ?_ _ ?_
  refine SameOff.store16 ?_ ?_ _ ?_
  refine SameOff.store16 ?_ ?_ _ ?_
  refine SameOff.store16 (SameOff.refl _ _ m) ?_ _ ?_
  all_goals simp

/-- The new directory is the table of the loop. -/
theorem vacuum_page_directory (m : Mem) (page : Nat) (compacted : Mem) :
    total_slots (vacuum_page m page compacted) page = (live_slots m page).length
    ∧ ∀ k < (live_slots m page).length,
        directory_entry (vacuum_page m page compacted) page k
          = new_entry m page (live_slots m page) k := by
  have hlen := length_live_slots_lt m page
  have hspec : Vacuumed m page (live_slots m page)
      (vacuum_slots m (DBPage.data page) compacted (List.range (total_slots m page))) :=
    vacuum_slots_spec m page compacted _ (Nat.le_of_lt hlen)
  have hcount : (vacuum_slots m (DBPage.data page) compacted
      (List.range (total_slots m page))).new_slot_count.toNat = (live_slots m page).length := by
    rw [hspec.count, UInt8.toNat_ofNat', Nat.mod_eq_of_lt hlen]
  constructor
  · rw [← hcount, total_slots, vacuum_page, vacuum_header, load8_store8_same]
  · intro k hk
    rw [← hspec.entries k hk]
    refine entry_at_eq_of_bytes fun j hj => ?_
    simp only [SlotEntry.sizeof] at hj
    -- the header lies in front of the directory
    rw [vacuum_page,
      sameOff_vacuum_header _ _ _ _ (Or.inr (by simp only [slot_entry, directory]; omega)),
      fill_inside _ _ (by simp only [slot_entry, directory, DBPage.data, DBPageHeader.sizeof]; omega)
        (by
          rw [hcount]
          simp only [slot_entry, directory, DBPage.data, DBPageHeader.sizeof, SlotEntry.sizeof]
          omega)]
    congr 1
    simp only [slot_entry, directory, DBPage.data, DBPageHeader.sizeof, SlotEntry.sizeof]
    omega

/-- The first record is put where the directory is. -/
theorem vacuum_first_entry (compacted : Mem) (h : live_slots m page ≠ []) :
    0 < total_slots (vacuum_page m page compacted) page
    ∧ (directory_entry (vacuum_page m page compacted) page 0).offset = DBPageHeader.sizeof
    ∧ (directory_entry (vacuum_page m page compacted) page 0).size ≠ 0 := by
  obtain ⟨htotal, hentries⟩ := vacuum_page_directory m page compacted
  have hpos : 0 < (live_slots m page).length := List.length_pos_of_ne_nil h
  refine ⟨htotal ▸ hpos, ?_, ?_⟩
  · rw [hentries 0 hpos]
    rfl
  · rw [hentries 0 hpos]
    have hmem : (live_slots m page).getD 0 0 ∈ live_slots m page := by
      rw [List.getD_eq_getElem?_getD, List.getElem?_eq_getElem hpos, Option.getD_some]
      exact List.getElem_mem hpos
    exact of_decide_eq_true (List.mem_filter.mp hmem).2

end

/-- A slot in use is not kept: the directory is written over its record. -/
theorem not_keepsSlots {pager : Pager} (page_no : UInt16) {compacted : Mem}
    (h : live_slots pager.mem (page_no.toNat * PAGE_SIZE) ≠ []) :
    ¬ KeepsSlots pager page_no (vacuum_page pager.mem (page_no.toNat * PAGE_SIZE) compacted) := by
  intro hkeeps
  obtain ⟨hpos, hoffset, hsize⟩ := vacuum_first_entry compacted h
  have hsizepos := Nat.pos_of_ne_zero hsize
  rcases hkeeps.directory 0 hpos with hbefore | hbehind
  · rw [hoffset] at hbefore
    omega
  · rw [hoffset] at hbehind
    simp only [SlotEntry.sizeof] at hbehind
    omega

/-- **Vacuuming keeps the slots** of a page that has none in use, and of no other. -/
theorem vacuum_keeps_slots_iff (pager : Pager) (page_no : UInt16) (compacted : Mem) :
    KeepsSlots pager page_no (vacuum_page pager.mem (page_no.toNat * PAGE_SIZE) compacted)
      ↔ ∀ i < total_slots pager.mem (page_no.toNat * PAGE_SIZE),
          (directory_entry pager.mem (page_no.toNat * PAGE_SIZE) i).size = 0 := by
  have hlive : (∀ i < total_slots pager.mem (page_no.toNat * PAGE_SIZE),
        (directory_entry pager.mem (page_no.toNat * PAGE_SIZE) i).size = 0)
      ↔ live_slots pager.mem (page_no.toNat * PAGE_SIZE) = [] := by
    simp only [live_slots, List.filter_eq_nil_iff, List.mem_range, ne_eq, decide_not,
      Bool.not_eq_true', decide_eq_false_iff_not, not_not]
  rw [hlive]
  constructor
  · exact fun hkeeps => not_not.mp fun hne => not_keepsSlots page_no hne hkeeps
  · intro hnone
    obtain ⟨htotal, -⟩ := vacuum_page_directory pager.mem (page_no.toNat * PAGE_SIZE) compacted
    rw [hnone, List.length_nil] at htotal
    have hempty : ∀ k, ¬ k < total_slots
        (vacuum_page pager.mem (page_no.toNat * PAGE_SIZE) compacted) (page_no.toNat * PAGE_SIZE) :=
      fun k => htotal ▸ Nat.not_lt_zero k
    refine ⟨fun i hi => ?_, fun k hk => absurd hk (hempty k), fun k hk => absurd hk (hempty k),
      fun i hi => ?_⟩
    all_goals
      rw [hnone] at hi
      cases hi

/-- Page 1 with one slot: id 0, the byte 7 at offset 100. -/
def one_slot_pager : Pager :=
  let page := 1 * PAGE_SIZE
  let entry := slot_entry (directory page) 0
  let m := fresh_pager.mem.store8 (DBPageHeader.total_slots page) 1
  let m := m.store16 (DBPageHeader.free_start page) 34
  let m := m.store (SlotEntry.offset entry) 8 100
  let m := m.store (SlotEntry.size entry) 8 1
  fresh_pager.withMem (m.store8 (DBPage.data page + 100) 7)

theorem live_slots_one_slot_pager : live_slots one_slot_pager.mem (1 * PAGE_SIZE) = [0] := by
  decide +kernel

theorem wellPlaced_one_slot_pager : WellPlaced one_slot_pager.mem (1 * PAGE_SIZE) := by
  have hoffset : (directory_entry one_slot_pager.mem (1 * PAGE_SIZE) 0).offset = 100 := by
    decide +kernel
  have hsize : (directory_entry one_slot_pager.mem (1 * PAGE_SIZE) 0).size = 1 := by
    decide +kernel
  have htotal : total_slots one_slot_pager.mem (1 * PAGE_SIZE) = 1 := by decide +kernel
  constructor
  · intro i hi
    obtain rfl := List.mem_singleton.mp (live_slots_one_slot_pager ▸ hi)
    rw [hoffset, hsize]
    decide
  · intro i hi j hj hne
    obtain rfl := List.mem_singleton.mp (live_slots_one_slot_pager ▸ hi)
    obtain rfl := List.mem_singleton.mp (live_slots_one_slot_pager ▸ hj)
    exact absurd rfl hne
  · intro i hi
    obtain rfl := List.mem_singleton.mp (live_slots_one_slot_pager ▸ hi)
    rw [hoffset, hsize, htotal]
    exact Or.inr (by decide)

/-- Afterwards the slot has a byte of its own entry, and reading finds no key. -/
theorem record_overwritten :
    let m' := vacuum_page one_slot_pager.mem (1 * PAGE_SIZE) fun _ => 0
    WellPlaced one_slot_pager.mem (1 * PAGE_SIZE)
    ∧ entry_bytes one_slot_pager.mem (1 * PAGE_SIZE)
        (directory_entry one_slot_pager.mem (1 * PAGE_SIZE) 0) = [7]
    ∧ entry_bytes m' (1 * PAGE_SIZE) (directory_entry m' (1 * PAGE_SIZE) 0) = [0]
    ∧ (read_index_slot one_slot_pager 1 0 .zero).key.toList.head? = some 7
    ∧ (read_index_slot (one_slot_pager.withMem m') 1 0 .zero).key.toList.head? = some 0
    ∧ ¬ KeepsSlots one_slot_pager 1 m' := by
  intro m'
  have hlive : live_slots one_slot_pager.mem (1 * PAGE_SIZE) ≠ [] :=
    live_slots_one_slot_pager ▸ List.cons_ne_nil _ _
  have hlost : ¬ KeepsSlots one_slot_pager 1 m' := not_keepsSlots 1 hlive
  exact ⟨wellPlaced_one_slot_pager, by decide +kernel, by decide +kernel, by decide +kernel,
    by decide +kernel, hlost⟩

end PreSeQL.Index
