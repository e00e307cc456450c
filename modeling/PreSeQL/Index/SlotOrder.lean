/-
  PreSeQL.Index.SlotOrder — when the directory of a page is in the order of the keys.

  `write_index_slot` looks for the insertion point by reading the slots in front of it.
  Where the guard refuses an id, the new key is compared with what happens to be in the
  variable.

    • `SlotPage.sorted_insert_iff` — one write,
    • `slots_sorted_iff` — every run that keeps to the page.
-/
import PreSeQL.Index.SlotHistory

namespace PreSeQL.Index

open PreSeQL.Lib PreSeQL.Lib.Mem PreSeQL.Lib.Run PreSeQL.Db

/-! ## §1. The order of keys. -/

abbrev KeyBytes := Vector UInt8 MAX_DATA_PER_INDEX_SLOT

/-- `memcmp` on whole keys. -/
def key_compare (key key' : KeyBytes) : Int :=
  compare_keys key.toList key'.toList MAX_DATA_PER_INDEX_SLOT

theorem compare_keys_swap (key1 : List UInt8) :
    ∀ key2 n, compare_keys key2 key1 n = - compare_keys key1 key2 n := by
  induction key1 with
  | nil =>
      intro key2 n
      cases key2 with
      | nil => rfl
      | cons b key2 => cases n <;> rfl
  | cons a key1 ih =>
      intro key2 n
      cases key2 with
      | nil => cases n <;> rfl
      | cons b key2 =>
          cases n with
          | zero => rfl
          | succ n =>
              rw [compare_keys, compare_keys]
              by_cases hlt : a < b
              · rw [if_neg (UInt8.lt_asymm hlt), if_pos hlt, if_pos hlt]
                rfl
              · by_cases hgt : b < a
                · rw [if_pos hgt, if_neg hlt, if_pos hgt]
                · rw [if_neg hgt, if_neg hlt, if_neg hlt, if_neg hgt]
                  exact ih key2 n

theorem compare_keys_trans (key1 : List UInt8) : ∀ key2 key3 n, key1.length = n →
    key2.length = n → key3.length = n → compare_keys key1 key2 n ≤ 0 →
    compare_keys key2 key3 n ≤ 0 → compare_keys key1 key3 n ≤ 0 := by
  induction key1 with
  | nil =>
      intro key2 key3 n h₁ _ _ _ _
      subst h₁
      cases key3 <;> exact Int.le_refl 0
  | cons a key1 ih =>
      intro key2 key3 n h₁ h₂ h₃ h₁₂ h₂₃
      cases key2 with
      | nil => subst h₂; cases h₁
      | cons b key2 =>
          cases key3 with
          | nil => subst h₃; cases h₁
          | cons c key3 =>
              cases n with
              | zero => cases h₁
              | succ n =>
                  rw [compare_keys] at h₁₂ h₂₃ ⊢
                  simp only [List.length_cons, Nat.succ.injEq] at h₁ h₂ h₃
                  simp only [UInt8.lt_iff_toNat_lt] at h₁₂ h₂₃ ⊢
                  have hrest := ih key2 key3 n h₁ h₂ h₃
                  split_ifs at h₁₂ h₂₃ ⊢
                  all_goals omega

theorem key_le_of_not_lt {key key' : KeyBytes} (h : ¬ key_compare key key' < 0) :
    key_compare key' key ≤ 0 := by
  unfold key_compare at h ⊢
  rw [compare_keys_swap]
  omega

theorem key_le_trans {key₁ key₂ key₃ : KeyBytes} (h₁₂ : key_compare key₁ key₂ ≤ 0)
    (h₂₃ : key_compare key₂ key₃ ≤ 0) : key_compare key₁ key₃ ≤ 0 :=
  compare_keys_trans _ _ _ _ key₁.length_toList key₂.length_toList key₃.length_toList h₁₂ h₂₃

/-! ## §2. Sorted pages. -/

/-- The key of the record that entry `i` names. -/
def entry_key (m : Mem) (page i : Nat) : KeyBytes :=
  (entry_record m page (slot_entry (slot_entries m page) i) .zero).key

def PageSorted (m : Mem) (page : Nat) : Prop :=
  ∀ i j, i < j → j < total_slots m page →
    key_compare (entry_key m page i) (entry_key m page j) ≤ 0

/-- What a write compares the new key with at entry `i`. -/
def existing_key (page_no : UInt16) (page : Nat) (pager : Pager) (junk : Junk) (i : Nat) :
    KeyBytes :=
  (read_index_slot pager page_no (entry_slot_id pager.mem page i) (junk [i])).key

/-- The calls that keep a page sorted: where a write comes to an entry whose id the guard
refuses, the variable tells it no less than the key of that entry would. -/
def SlotOp.NotMisled (page_no : UInt16) (page : Nat) (pager : Pager) : SlotOp → Prop
  | .free_index_slot _ => True
  | .write_index_slot slot junk =>
      10 * USED_SPACE pager.mem page < FULL_THRESHOLD_10 →
        ∀ i < total_slots pager.mem page,
          total_slots pager.mem page ≤ (entry_slot_id pager.mem page i).toNat →
          (∀ j < i, ¬ key_compare slot.key (existing_key page_no page pager junk j) < 0) →
            if key_compare slot.key (junk [i]).key < 0
            then key_compare slot.key (entry_key pager.mem page i) ≤ 0
            else key_compare (entry_key pager.mem page i) slot.key ≤ 0

/-- An element fits into an ordered list when all in front of it are below it and all
behind it above. -/
theorem pairwise_insertIdx_iff {α : Type*} {R : α → α → Prop} {l : List α} (hl : l.Pairwise R)
    {p : Nat} (hp : p ≤ l.length) (x : α) :
    (l.insertIdx p x).Pairwise R
      ↔ (∀ i (h : i < l.length), i < p → R l[i] x) ∧ (∀ i (h : i < l.length), p ≤ i → R x l[i]) := by
  have hlen : (l.insertIdx p x).length = l.length + 1 := List.length_insertIdx_of_le_length hp x
  rw [List.pairwise_iff_getElem] at hl ⊢
  constructor
  · intro h
    refine ⟨fun i hi hlt => ?_, fun i hi hge => ?_⟩
    · have hpair := h i p (by omega) (by omega) hlt
      rwa [List.getElem_insertIdx_of_lt hlt, List.getElem_insertIdx_self] at hpair
    · have hpair := h p (i + 1) (by omega) (by omega) (by omega)
      rwa [List.getElem_insertIdx_self, List.getElem_insertIdx_of_gt (by omega)] at hpair
  · rintro ⟨hfront, hbehind⟩ i j hi hj hij
    rw [List.getElem_insertIdx, List.getElem_insertIdx]
    -- where the two places lie relative to the new element
    split_ifs with hip hjp hjp' hip' hjp hjp'
    all_goals first
      | omega
      | exact hl i j (by omega) (by omega) hij
      | exact hfront i (by omega) hip
      | exact hl i (j - 1) (by omega) (by omega) (by omega)
      | exact hbehind (j - 1) (by omega) (by omega)
      | exact hl (i - 1) (j - 1) (by omega) (by omega) (by omega)

namespace SlotPage

/-- `PageSorted` -/
def Sorted (P : SlotPage) : Prop :=
  P.slots.Pairwise fun s s' => key_compare s.data.key s'.data.key ≤ 0

/-- `SlotOp.NotMisled` -/
def NotMisled (P : SlotPage) : SlotOp → Prop
  | .free_index_slot _ => True
  | .write_index_slot data junk =>
      ¬ P.Full → ∀ i (h : i < P.slots.length), P.slots.length ≤ P.slots[i].id.toNat →
        (∀ j < i, ¬ key_compare data.key (P.existing j (junk [j])).key < 0) →
          if key_compare data.key (junk [i]).key < 0
          then key_compare data.key P.slots[i].data.key ≤ 0
          else key_compare P.slots[i].data.key data.key ≤ 0

variable {P : SlotPage}

/-- An entry is compared by its own key, or by what the variable holds. -/
theorem Ok.existing (h : P.Ok) {i : Nat} (hi : i < P.slots.length) (old : IndexSlotData) :
    P.existing i old
      = if P.slots.length ≤ P.slots[i].id.toNat then old else P.slots[i].data := by
  simp only [SlotPage.existing, List.getElem?_eq_getElem hi, read, h.find_getElem hi]
  rfl

/-- In front of the insertion point no key is greater, at it one is. -/
theorem position_spec (P : SlotPage) (key : KeyBytes) (junk : Junk) :
    (∀ j < P.position key junk, ¬ key_compare key (P.existing j (junk [j])).key < 0)
    ∧ (P.position key junk < P.slots.length →
      key_compare key (P.existing (P.position key junk) (junk [P.position key junk])).key < 0) := by
  unfold position
  cases hfind : (List.range P.slots.length).find? fun i =>
      compare_keys key.toList (P.existing i (junk [i])).key.toList MAX_DATA_PER_INDEX_SLOT < 0 with
  | none =>
      refine ⟨fun j hj => ?_, fun hlt => absurd hlt (Nat.lt_irrefl _)⟩
      have hnot := List.find?_range_eq_none.mp hfind j hj
      simpa [key_compare] using hnot
  | some i =>
      obtain ⟨hlt, -, hbefore⟩ := List.find?_range_eq_some.mp hfind
      refine ⟨fun j hj => ?_, fun _ => ?_⟩
      · have hnot := hbefore j hj
        simpa [key_compare] using hnot
      · simpa [key_compare] using hlt

/-- **One write** keeps a sorted page sorted exactly when no entry it cannot read misleads
it. -/
theorem sorted_insert_iff (h : P.Ok) (hsorted : P.Sorted) (data : IndexSlotData) (junk : Junk)
    (hfull : ¬ P.Full) :
    (P.insert (P.position data.key junk) data).Sorted ↔ P.NotMisled (.write_index_slot data junk) := by
  obtain ⟨hfront, hat⟩ := P.position_spec data.key junk
  have hpos : P.position data.key junk ≤ P.slots.length := find_range_le _ _
  generalize P.position data.key junk = p at hfront hat hpos ⊢
  refine (pairwise_insertIdx_iff hsorted hpos (P.newSlot data)).trans ⟨?_, fun hmis => ?_⟩
  · rintro ⟨hbefore, hbehind⟩ - i hi hguard hreach
    have hjunk : P.existing i (junk [i]) = junk [i] := by
      rw [h.existing hi, if_pos hguard]
    split
    next hlt =>
      -- the search stopped here or before
      have hge : p ≤ i := by
        by_contra hlt'
        have hnot := hfront i (Nat.not_le.mp hlt')
        rw [hjunk] at hnot
        exact hnot hlt
      exact hbehind i hi hge
    next hge =>
      rcases Nat.lt_trichotomy i p with hlt | rfl | hgt
      · exact hbefore i hi hlt
      · have hstop := hat hi
        rw [hjunk] at hstop
        exact absurd hstop hge
      · exact absurd (hat (Nat.lt_trans hgt hi)) (hreach p hgt)
  · have hmis := hmis hfull
    have hstop : ∀ hi : p < P.slots.length, key_compare data.key P.slots[p].data.key ≤ 0 := by
      intro hi
      have hlt := hat hi
      rw [h.existing hi] at hlt
      by_cases hguard : P.slots.length ≤ P.slots[p].id.toNat
      · have htold := hmis p hi hguard hfront
        rw [if_pos hguard] at hlt
        rwa [if_pos hlt] at htold
      · rw [if_neg hguard] at hlt
        exact Int.le_of_lt hlt
    refine ⟨fun i hi hlt => ?_, fun i hi hge => ?_⟩
    · have hnot := hfront i hlt
      rw [h.existing hi] at hnot
      by_cases hguard : P.slots.length ≤ P.slots[i].id.toNat
      · have htold := hmis i hi hguard fun j hj => hfront j (Nat.lt_trans hj hlt)
        rw [if_pos hguard] at hnot
        rwa [if_neg hnot] at htold
      · rw [if_neg hguard] at hnot
        exact key_le_of_not_lt hnot
    · -- behind the insertion point the page is sorted
      rcases Nat.eq_or_lt_of_le hge with rfl | hlt
      · exact hstop hi
      · have hstop := hstop (Nat.lt_trans hlt hi)
        exact key_le_trans hstop (List.pairwise_iff_getElem.mp hsorted p i _ hi hlt)

end SlotPage

section

variable {pager : Pager} {page : Nat} {page_no : UInt16} {flag : UInt8} {P : SlotPage}

theorem Slotted.entry_key (h : Slotted pager.mem page page_no flag P) {i : Nat}
    (hi : i < P.slots.length) : Index.entry_key pager.mem page i = P.slots[i].data.key := by
  rw [Index.entry_key, h.holds.entry_record hi]

theorem Slotted.sorted_iff (h : Slotted pager.mem page page_no flag P) :
    PageSorted pager.mem page ↔ P.Sorted := by
  unfold PageSorted SlotPage.Sorted
  rw [h.holds.total, List.pairwise_iff_getElem]
  constructor
  · intro hsorted i j hi hj hij
    have hpair := hsorted i j hij hj
    rwa [h.entry_key hi, h.entry_key hj] at hpair
  · intro hsorted i j hij hj
    have hi : i < P.slots.length := Nat.lt_trans hij hj
    rw [h.entry_key hi, h.entry_key hj]
    exact hsorted i j hi hj hij

theorem Slotted.notMisled_iff (h : Slotted pager.mem page page_no flag P)
    (hpage : pager_get_page pager page_no = some page) (op : SlotOp) :
    op.NotMisled page_no page pager ↔ P.NotMisled op := by
  cases op with
  | free_index_slot slot_id => rfl
  | write_index_slot data junk =>
      have hnot : 10 * USED_SPACE pager.mem page < FULL_THRESHOLD_10 ↔ ¬ P.Full := by
        rw [← h.full_iff]
        exact not_le.symm
      have hid : ∀ i (hi : i < P.slots.length),
          Index.entry_slot_id pager.mem page i = P.slots[i].id := fun i hi => h.entry_slot_id hi
      have hexisting : ∀ i < P.slots.length,
          existing_key page_no page pager junk i = (P.existing i (junk [i])).key := by
        intro i hi
        rw [existing_key, hid i hi, h.holds.read hpage, SlotPage.existing,
          List.getElem?_eq_getElem hi]
      simp only [SlotOp.NotMisled, SlotPage.NotMisled, hnot, h.holds.total]
      refine imp_congr_right fun _ => forall_congr' fun i => forall_congr' fun hi => ?_
      rw [hid i hi, h.entry_key hi]
      refine imp_congr_right fun _ => ?_
      have hreach : (∀ j < i, ¬ key_compare data.key (existing_key page_no page pager junk j) < 0)
          ↔ ∀ j < i, ¬ key_compare data.key (P.existing j (junk [j])).key < 0 := by
        refine forall_congr' fun j => forall_congr' fun hj => ?_
        rw [hexisting j (Nat.lt_trans hj hi)]
      rw [hreach]

theorem SlotPage.sorted_free_slot (h : P.Sorted) (slot_id : UInt8) :
    (P.free_slot slot_id).Sorted := by
  unfold SlotPage.free_slot
  split
  · exact h
  · exact h.sublist List.eraseP_sublist

/-- One call. -/
theorem Slotted.sorted_exec_iff (h : Slotted pager.mem page page_no flag P)
    (hpage : pager_get_page pager page_no = some page) (hsorted : PageSorted pager.mem page)
    {op : SlotOp} (hfits : op.Fits page pager) :
    PageSorted (op.exec page_no pager).mem page ↔ op.NotMisled page_no page pager := by
  obtain ⟨m', hexec, hslotted⟩ := h.exec hpage ((h.fits_iff op).mp hfits)
  have hslotted : Slotted (pager.withMem m').mem page page_no flag (P.exec op) := hslotted
  rw [hexec, hslotted.sorted_iff, h.notMisled_iff hpage]
  rw [h.sorted_iff] at hsorted
  cases op with
  | free_index_slot slot_id => exact iff_of_true (SlotPage.sorted_free_slot hsorted slot_id) trivial
  | write_index_slot data junk =>
      show (P.write data junk).Sorted ↔ _
      unfold SlotPage.write
      by_cases hfull : P.Full
      · rw [if_pos hfull]
        exact iff_of_true hsorted fun hnot => absurd hfull hnot
      · rw [if_neg hfull]
        exact SlotPage.sorted_insert_iff h.ok hsorted data junk hfull

end

/-- **Index pages stay sorted** throughout a run that keeps to the page exactly when no
write is misled. -/
theorem slots_sorted_iff (page_no : UInt16) (page : Nat) (start : Pager)
    (hnew : NewIndexPage page_no page start) (ops : List SlotOp)
    (hfits : EachStep (SlotOp.exec page_no) (fun pager op => op.Fits page pager) start ops) :
    Throughout (SlotOp.exec page_no) (fun pager => PageSorted pager.mem page) start ops
      ↔ EachStep (SlotOp.exec page_no) (fun pager op => op.NotMisled page_no page pager) start
        ops := by
  obtain ⟨haddress, flag, hfilled⟩ := hnew.filled
  have hslotted : Slotted start.mem page page_no flag .empty := hfilled.slotted
  have hstart : PageSorted start.mem page := hslotted.sorted_iff.mpr List.Pairwise.nil
  cases hpage : pager_get_page start page_no with
  | none =>
      -- the page stays empty, so no write meets an entry
      have hnot : ∀ op : SlotOp, op.NotMisled page_no page start := by
        intro op
        cases op with
        | free_index_slot slot_id => exact trivial
        | write_index_slot slot junk =>
            intro _ i hi
            rw [hslotted.holds.total] at hi
            cases hi
      rw [throughout_iff_within (I := fun pager => pager = start)
        (fun s op h _ => h ▸ exec_unreadable (h ▸ hpage) op) (fun s op h _ _ => ?_) ops start rfl
        hfits]
      · exact and_iff_right hstart
      · subst h
        rw [exec_unreadable hpage op]
        exact iff_of_true hstart (hnot op)
  | some a =>
      obtain rfl : a = page := (pager_get_page_eq_some hpage).2.trans haddress.symm
      rw [throughout_iff_within (I := fun pager => ∃ P, Slotted pager.mem a page_no flag P)
        (fun s op ⟨P, h⟩ hfit => ?_) (fun s op ⟨P, h⟩ hfit hsorted =>
          h.sorted_exec_iff hpage hsorted hfit) ops start ⟨_, hslotted⟩ hfits]
      · exact and_iff_right hstart
      · obtain ⟨m', hexec, hslotted'⟩ := h.exec hpage ((h.fits_iff op).mp hfit)
        refine ⟨P.exec op, ?_⟩
        rw [hexec]
        exact hslotted'

theorem slots_sorted_iff_five_writes :
    Throughout (SlotOp.exec 1) (fun pager => PageSorted pager.mem PAGE_SIZE) new_leaf five_writes
      ↔ EachStep (SlotOp.exec 1) (fun pager op => op.NotMisled 1 PAGE_SIZE pager) new_leaf
        five_writes := by
  obtain ⟨flag, hrecorded⟩ := new_leaf_recorded
  exact slots_sorted_iff 1 PAGE_SIZE new_leaf newIndexPage_new_leaf five_writes
    (hrecorded.slotted.eachStep_fits id (fun _ _ => rfl) rfl (by decide +kernel))

/-- The key 1 is written, then the key 0, which is compared with a variable that holds
zeros and not with the key 1. -/
theorem second_key_misplaced :
    ¬ Throughout (SlotOp.exec 1) (fun pager => PageSorted pager.mem PAGE_SIZE) new_leaf
      [.write_index_slot (byte_slot 1) fun _ => .zero, .write_index_slot .zero fun _ => .zero] := by
  rintro ⟨-, hone, htwo⟩
  obtain ⟨flag, hstart⟩ := new_leaf_recorded
  have hslotted : Slotted new_leaf.mem PAGE_SIZE 1 flag .empty := hstart.slotted
  obtain ⟨m', hexec, hfirst⟩ := hslotted.exec (by rfl)
    ((hslotted.fits_iff _).mp (write_fits_new_leaf (byte_slot 1) fun _ => .zero))
  rw [hexec] at hone htwo
  have hfirst : Slotted (new_leaf.withMem m').mem PAGE_SIZE 1 flag
      (SlotPage.empty.exec (.write_index_slot (byte_slot 1) fun _ => .zero)) := hfirst
  have hfits : (SlotOp.write_index_slot .zero fun _ => .zero).Fits PAGE_SIZE
      (new_leaf.withMem m') := (hfirst.fits_iff _).mpr fun _ => by decide
  have hmis := (hfirst.sorted_exec_iff (by rfl) hone hfits).mp htwo
  rw [hfirst.notMisled_iff (by rfl)] at hmis
  have htold := hmis (by decide) 0 (by decide) (by decide) (by decide)
  exact absurd htold (by decide)

end PreSeQL.Index
