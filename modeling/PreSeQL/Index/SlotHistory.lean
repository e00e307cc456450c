/-
  PreSeQL.Index.SlotHistory — what `read_index_slot` gives back.

  A slot is read by its id.  The ids start at 1 and the guard refuses every id that is
  not below `total_slots`, so on a page with entries at least one of them cannot be
  read, whatever was written and freed before.

    • `Slotted.exec` — one call, followed on `SlotPage`,
    • `exists_unreadable` — some slot of a page is behind the guard,
    • `slots_read_back_iff` — every entry, in every run.
-/
import PreSeQL.Index.SlotLayout
import PreSeQL.Index.SlotPage

namespace PreSeQL.Index

open PreSeQL.Lib PreSeQL.Lib.Mem PreSeQL.Lib.Run PreSeQL.Db

/-! ## §1. One call. -/

/-- A call that keeps to its part of the page: a write that is not refused finds room
between the directory and the records, and a free that takes a slot out finds the list
of free ids in front of the directory. -/
def SlotOp.Fits (page : Nat) (pager : Pager) : SlotOp → Prop
  | .write_index_slot _ _ =>
      10 * USED_SPACE pager.mem page < FULL_THRESHOLD_10 →
        directory_end pager.mem page + SLOT_ENTRY_SIZE + INDEX_SLOT_DATA_SIZE
          ≤ (pager.mem.load16 (DBPageHeader.free_end page)).toNat
  | .free_index_slot slot_id =>
      slot_id.toNat < total_slots pager.mem page → find_entry pager.mem page slot_id ≠ none →
        DBPageHeader.free_slot_list page
            (pager.mem.load8 (DBPageHeader.free_slot_count page)).toNat
          < slot_entries pager.mem page

namespace SlotPage

variable (P : SlotPage)

/-- `write_index_slot` -/
def write (data : IndexSlotData) (junk : Junk) : SlotPage :=
  if P.Full then P else P.insert (P.position data.key junk) data

/-- `free_index_slot` -/
def free_slot (slot_id : UInt8) : SlotPage :=
  if P.slots.length ≤ slot_id.toNat ∨ P.find slot_id = none then P else P.remove slot_id

def exec : SlotOp → SlotPage
  | .write_index_slot data junk => P.write data junk
  | .free_index_slot slot_id => P.free_slot slot_id

/-- `SlotOp.Fits` -/
def Fits : SlotOp → Prop
  | .write_index_slot _ _ => ¬ P.Full → P.HasRoom
  | .free_index_slot slot_id =>
      slot_id.toNat < P.slots.length → P.find slot_id ≠ none → P.free.length < 53

instance decidableFits : ∀ op : SlotOp, Decidable (P.Fits op)
  | .write_index_slot _ _ => inferInstanceAs (Decidable (¬ P.Full → P.HasRoom))
  | .free_index_slot slot_id =>
      have : Decidable (P.find slot_id ≠ none) := decidable_of_iff _ Option.isSome_iff_ne_none
      inferInstanceAs (Decidable (slot_id.toNat < _ → P.find slot_id ≠ none → _))

end SlotPage

section

variable {pager : Pager} {page : Nat} {page_no : UInt16} {flag : UInt8} {P : SlotPage}

theorem Holds.find_entry_ne_none_iff {m : Mem} (h : Holds m page P.slots) (slot_id : UInt8) :
    Index.find_entry m page slot_id ≠ none ↔ P.find slot_id ≠ none := by
  rw [h.find_entry]
  cases hidx : P.slots.findIdx? fun s => s.id == slot_id with
  | none =>
      rw [SlotPage.find_of_findIdx_none hidx]
      simp
  | some i =>
      obtain ⟨hi, hfind, -⟩ := SlotPage.find_of_findIdx hidx
      rw [hfind]
      simp

theorem Slotted.fits_iff (h : Slotted pager.mem page page_no flag P) (op : SlotOp) :
    op.Fits page pager ↔ P.Fits op := by
  cases op with
  | write_index_slot data junk =>
      have hstart : (34 : UInt16).toNat = 34 := rfl
      have hentry : SLOT_ENTRY_SIZE = 24 := rfl
      have hrecord : INDEX_SLOT_DATA_SIZE = 23 := rfl
      have hroom := h.ok.room
      have hnot : 10 * USED_SPACE pager.mem page < FULL_THRESHOLD_10 ↔ ¬ P.Full := by
        rw [← h.full_iff]
        exact not_le.symm
      simp only [SlotOp.Fits, SlotPage.Fits, SlotPage.HasRoom]
      rw [hnot, directory_end, h.holds.free_start, h.holds.total, h.free_end, UInt16.toNat_ofNat',
        Nat.mod_eq_of_lt (by omega), hstart, hentry, hrecord, SlotEntry.sizeof]
      refine imp_congr_right fun _ => ?_
      omega
  | free_index_slot slot_id =>
      have hlist := h.ok.list
      simp only [SlotOp.Fits, SlotPage.Fits]
      rw [h.holds.total, h.holds.find_entry_ne_none_iff, h.holds.directory_eq, h.free_slot_count,
        UInt8.toNat_ofNat', Nat.mod_eq_of_lt (by omega), DBPageHeader.free_slot_list, directory]
      refine imp_congr_right fun _ => imp_congr_right fun _ => ?_
      omega

/-- **A write** that fits. -/
theorem Slotted.write_fits (h : Slotted pager.mem page page_no flag P)
    (hpage : pager_get_page pager page_no = some page) (hfits : ¬ P.Full → P.HasRoom)
    (data : IndexSlotData) (junk : Junk) :
    ∃ m', write_index_slot pager page_no data junk = pager.withMem m'
      ∧ Slotted m' page page_no flag (P.write data junk)
      ∧ pager.mem.SameOff page (page + PAGE_SIZE) m' := by
  unfold SlotPage.write
  by_cases hfull : P.Full
  · rw [h.write_full hpage hfull, if_pos hfull]
    exact ⟨pager.mem, rfl, h, SameOff.refl _ _ _⟩
  · rw [if_neg hfull]
    exact h.write hpage hfull (hfits hfull) data junk

/-- **A free** that fits. -/
theorem Slotted.free_fits (h : Slotted pager.mem page page_no flag P)
    (hpage : pager_get_page pager page_no = some page) (slot_id : UInt8)
    (hfits : slot_id.toNat < P.slots.length → P.find slot_id ≠ none → P.free.length < 53) :
    ∃ m', free_index_slot pager page_no slot_id = pager.withMem m'
      ∧ Slotted m' page page_no flag (P.free_slot slot_id)
      ∧ pager.mem.SameOff (page + 10) (page + PAGE_SIZE) m' := by
  unfold SlotPage.free_slot
  by_cases hnone : P.slots.length ≤ slot_id.toNat ∨ P.find slot_id = none
  · rw [h.free_none hpage hnone, if_pos hnone]
    exact ⟨pager.mem, rfl, h, SameOff.refl _ _ _⟩
  · rw [if_neg hnone]
    obtain ⟨hguard, hsome⟩ := not_or.mp hnone
    obtain ⟨s, hfind⟩ := Option.ne_none_iff_exists'.mp hsome
    exact h.free_slot hpage (Nat.not_le.mp hguard) hfind (hfits (Nat.not_le.mp hguard) hsome)

/-- **One call** on a page, as long as it fits. -/
theorem Slotted.exec (h : Slotted pager.mem page page_no flag P)
    (hpage : pager_get_page pager page_no = some page) {op : SlotOp} (hfits : P.Fits op) :
    ∃ m', op.exec page_no pager = pager.withMem m' ∧ Slotted m' page page_no flag (P.exec op) := by
  cases op with
  | write_index_slot data junk =>
      obtain ⟨m', hwrite, hslotted, -⟩ := h.write_fits hpage hfits data junk
      exact ⟨m', hwrite, hslotted⟩
  | free_index_slot slot_id =>
      obtain ⟨m', hfree, hslotted, -⟩ := h.free_fits hpage _ hfits
      exact ⟨m', hfree, hslotted⟩

/-- The calls of a run fit when they do for the slots, whatever the run keeps beside the pager. -/
theorem Slotted.eachStep_fits {σ : Type*} {step : σ → SlotOp → σ} {s : σ} (at_pager : σ → Pager)
    (hexec_step : ∀ s op, at_pager (step s op) = op.exec page_no (at_pager s))
    (h : Slotted (at_pager s).mem page page_no flag P)
    (hpage : pager_get_page (at_pager s) page_no = some page) {ops : List SlotOp}
    (hops : EachStep SlotPage.exec SlotPage.Fits P ops) :
    EachStep step (fun s op => op.Fits page (at_pager s)) s ops := by
  have hstep : ∀ s P op, (Slotted (at_pager s).mem page page_no flag P
      ∧ pager_get_page (at_pager s) page_no = some page) → P.Fits op →
      op.Fits page (at_pager s) ∧ (Slotted (at_pager (step s op)).mem page page_no flag (P.exec op)
        ∧ pager_get_page (at_pager (step s op)) page_no = some page) := by
    rintro s P op ⟨h, hpage⟩ hfits
    obtain ⟨m', hexec, hslotted⟩ := h.exec hpage hfits
    refine ⟨(h.fits_iff op).mpr hfits, ?_⟩
    rw [hexec_step, hexec]
    exact ⟨hslotted, hpage⟩
  have hrun := (eachStep_of_simulates id hstep ops s P ⟨h, hpage⟩ hops).1
  rwa [List.map_id] at hrun

/-- The ids of a page lie from 1 on, so one of them is not below their number. -/
theorem exists_unreadable (h : P.Ok) (hne : P.slots ≠ []) :
    ∃ s ∈ P.slots, P.slots.length ≤ s.id.toNat := by
  by_contra hnone
  have hlt : ∀ s ∈ P.slots, s.id.toNat < P.slots.length := by
    intro s hs
    by_contra hge
    exact hnone ⟨s, hs, Nat.not_lt.mp hge⟩
  -- different numbers between 1 and the length, which are too few
  have hnodup : (P.slots.map fun s => s.id.toNat).Nodup := by
    have hmap : (P.slots.map fun s => s.id.toNat) = (P.slots.map Slot.id).map UInt8.toNat := by
      rw [List.map_map]
      rfl
    rw [hmap]
    exact h.slots_nodup.map fun a b hab => UInt8.toNat_inj.mp hab
  have hsub : (P.slots.map fun s => s.id.toNat) ⊆ List.range' 1 (P.slots.length - 1) := by
    intro n hn
    obtain ⟨s, hs, rfl⟩ := List.mem_map.mp hn
    have hpos := (h.id_range s.id (SlotPage.mem_ids hs)).1
    have hbelow := hlt s hs
    rw [List.mem_range'_1]
    omega
  have hlen := (hnodup.subperm hsub).length_le
  rw [List.length_map, List.length_range'] at hlen
  have hpos := List.length_pos_iff.mpr hne
  omega

end

/-! ## §2. The slots that were written. -/

/-- The id `write_index_slot` gives to a slot, if it puts it on the page. -/
def written_id (pager : Pager) (page_no : UInt16) : Option UInt8 :=
  match pager_get_page pager page_no with
  | none => none
  | some page =>
      if 10 * USED_SPACE pager.mem page ≥ FULL_THRESHOLD_10 then none
      else
        let slot_id := (find_empty_index_slot pager page_no MAX_DATA_PER_INDEX_SLOT).1
        if slot_id = 0 then none else some slot_id

/-- A page, and for each id the slot of the last write it was given to. -/
structure SlotHistory where
  pager : Pager
  created : UInt8 → Option IndexSlotData

def SlotHistory.start (pager : Pager) : SlotHistory := ⟨pager, fun _ => none⟩

def SlotHistory.exec (page_no : UInt16) (s : SlotHistory) (op : SlotOp) : SlotHistory :=
  { pager := op.exec page_no s.pager
    created :=
      match op, written_id s.pager page_no with
      | .write_index_slot slot _, some slot_id => Function.update s.created slot_id (some slot)
      | _, _ => s.created }

/-- The id in entry `i` of the directory. -/
def entry_slot_id (m : Mem) (page i : Nat) : UInt8 :=
  m.load8 (SlotEntry.slot_id (slot_entry (slot_entries m page) i))

/-- The slot the write of this id was called with is read back, whatever the variable
held. -/
def SlotHistory.ReadsBack (s : SlotHistory) (page_no : UInt16) (slot_id : UInt8) : Prop :=
  ∀ old, some (read_index_slot s.pager page_no slot_id old) = s.created slot_id

/-- Every entry of the directory can be read back, except those the guard refuses. -/
def SlotHistory.ReadableBack (page_no : UInt16) (page : Nat) (s : SlotHistory) : Prop :=
  ∀ i < total_slots s.pager.mem page,
    s.ReadsBack page_no (entry_slot_id s.pager.mem page i)
      ↔ (entry_slot_id s.pager.mem page i).toNat < total_slots s.pager.mem page

/-- The records on the page are those that were written. -/
structure SlotHistory.Recorded (s : SlotHistory) (page_no : UInt16) (page : Nat) (flag : UInt8)
    (P : SlotPage) : Prop where
  slotted : Slotted s.pager.mem page page_no flag P
  created : ∀ slot ∈ P.slots, s.created slot.id = some slot.data

namespace SlotPage

variable {P : SlotPage}

theorem Ok.nextId_notMem (h : P.Ok) : P.nextId ∉ P.slots.map Slot.id := by
  intro hmem
  by_cases hfree : P.free = []
  · -- a new id is above all others
    have hrange := (h.id_range _ (List.mem_append_left _ hmem)).2
    rw [nextId, hfree, List.getLast?_nil, Option.getD_none, h.toNat_highest] at hrange
    omega
  · have hlast : P.nextId ∈ P.free := by
      rw [nextId, List.getLast?_eq_some_getLast hfree]
      exact List.getLast_mem hfree
    exact (List.nodup_append.mp h.nodup).2.2 _ hmem _ hlast rfl

/-- A slot is found by its id. -/
theorem Ok.find_getElem (h : P.Ok) {i : Nat} (hi : i < P.slots.length) :
    P.find P.slots[i].id = some P.slots[i] := by
  refine List.find?_eq_some_iff_getElem.mpr ⟨by simp, i, hi, rfl, fun j hj => ?_⟩
  have hj' : j < P.slots.length := Nat.lt_trans hj hi
  have hne : P.slots[j].id ≠ P.slots[i].id := by
    intro heq
    have hnodup := h.slots_nodup
    have hget : (P.slots.map Slot.id)[j]? = (P.slots.map Slot.id)[i]? := by
      rw [List.getElem?_map, List.getElem?_map, List.getElem?_eq_getElem hj',
        List.getElem?_eq_getElem hi, Option.map_some, Option.map_some, heq]
    have hji := (List.getElem?_inj (by rwa [List.length_map]) hnodup).mp hget
    omega
  simpa using hne

theorem free_slot_subset (slot_id : UInt8) : (P.free_slot slot_id).slots ⊆ P.slots := by
  unfold free_slot
  split
  · exact List.Subset.refl _
  · exact List.eraseP_subset

end SlotPage

section

variable {s : SlotHistory} {page : Nat} {page_no : UInt16} {flag : UInt8} {P : SlotPage}

theorem Slotted.entry_slot_id {m : Mem} (h : Slotted m page page_no flag P) {i : Nat}
    (hi : i < P.slots.length) : Index.entry_slot_id m page i = P.slots[i].id := by
  rw [Index.entry_slot_id, h.holds.directory_eq]
  exact (h.holds.entry_fields hi).1

theorem Slotted.written_id (h : Slotted s.pager.mem page page_no flag P)
    (hpage : pager_get_page s.pager page_no = some page) :
    Index.written_id s.pager page_no = if P.Full then none else some P.nextId := by
  simp only [Index.written_id, hpage]
  by_cases hfull : P.Full
  · rw [if_pos (h.full_iff.mpr hfull), if_pos hfull]
  · obtain ⟨m', hfind, -⟩ := h.find_empty hpage hfull
    rw [if_neg (mt h.full_iff.mp hfull), if_neg hfull, hfind]
    exact if_neg h.ok.nextId_ne_zero

theorem SlotHistory.Recorded.exec (h : s.Recorded page_no page flag P)
    (hpage : pager_get_page s.pager page_no = some page) {op : SlotOp}
    (hfits : op.Fits page s.pager) :
    (s.exec page_no op).Recorded page_no page flag (P.exec op) := by
  obtain ⟨m', hexec, hslotted⟩ := h.slotted.exec hpage ((h.slotted.fits_iff op).mp hfits)
  refine ⟨?_, fun slot hslot => ?_⟩
  · show Slotted (op.exec page_no s.pager).mem page page_no flag (P.exec op)
    rw [hexec]
    exact hslotted
  · cases op with
    | free_index_slot slot_id => exact h.created slot (SlotPage.free_slot_subset slot_id hslot)
    | write_index_slot data junk =>
        simp only [SlotHistory.exec, h.slotted.written_id hpage]
        simp only [SlotPage.exec, SlotPage.write] at hslot
        by_cases hfull : P.Full
        · simp only [if_pos hfull] at hslot ⊢
          exact h.created slot hslot
        · simp only [if_neg hfull] at hslot ⊢
          have hpos : P.position data.key junk ≤ P.slots.length := find_range_le _ _
          rcases (List.mem_insertIdx hpos).mp hslot with rfl | hslot
          · exact Function.update_self _ _ _
          · -- the other slots have other ids
            have hne : slot.id ≠ P.nextId := fun heq =>
              h.slotted.ok.nextId_notMem (heq ▸ List.mem_map_of_mem hslot)
            rw [Function.update_of_ne hne]
            exact h.created slot hslot

/-- **Reading** an entry gives back its slot exactly when the guard lets its id pass. -/
theorem SlotHistory.Recorded.readableBack (h : s.Recorded page_no page flag P)
    (hpage : pager_get_page s.pager page_no = some page) : s.ReadableBack page_no page := by
  intro i hi
  rw [h.slotted.holds.total] at hi ⊢
  have hfind := h.slotted.ok.find_getElem hi
  have hcreated := h.created P.slots[i] (List.getElem_mem hi)
  rw [h.slotted.entry_slot_id hi]
  unfold SlotHistory.ReadsBack
  simp only [h.slotted.holds.read hpage, SlotPage.read, hcreated, hfind]
  by_cases hguard : P.slots.length ≤ P.slots[i].id.toNat
  · -- the variable keeps what it held, which may be anything
    simp only [if_pos hguard]
    refine iff_of_false (fun hall => ?_) (Nat.not_lt.mpr hguard)
    have hzero := (hall .zero).trans (hall { IndexSlotData.zero with next_slot_id := 1 }).symm
    have hid := congrArg IndexSlotData.next_slot_id (Option.some.inj hzero)
    exact absurd hid (by decide)
  · simp only [if_neg hguard]
    exact iff_of_true (fun _ => rfl) (Nat.not_le.mp hguard)

end

/-- On a page that cannot be read nothing is written or handed out. -/
theorem SlotHistory.exec_unreadable {s : SlotHistory} {page_no : UInt16}
    (hpage : pager_get_page s.pager page_no = none) (op : SlotOp) : s.exec page_no op = s := by
  have hwritten : written_id s.pager page_no = none := by
    simp only [written_id, hpage]
  simp only [SlotHistory.exec, Index.exec_unreadable hpage, hwritten]

/-- **Slots read back what was written**, in every state of a run that keeps to the page,
for exactly the entries whose id is below the number of slots. -/
theorem slots_read_back_iff (page_no : UInt16) (page : Nat) (start : Pager)
    (hnew : NewIndexPage page_no page start) (ops : List SlotOp)
    (hfits : EachStep (SlotHistory.exec page_no) (fun s op => op.Fits page s.pager) (.start start)
      ops) :
    Throughout (SlotHistory.exec page_no) (SlotHistory.ReadableBack page_no page) (.start start)
      ops := by
  obtain ⟨haddress, flag, hfilled⟩ := hnew.filled
  have hrecorded : (SlotHistory.start start).Recorded page_no page flag .empty :=
    ⟨hfilled.slotted, fun slot hslot => by cases hslot⟩
  cases hpage : pager_get_page start page_no with
  | none =>
      -- the page stays empty
      refine throughout_of_kept (I := fun s : SlotHistory => s = .start start) (fun s op h _ => ?_)
        (fun s h => ?_) ops (.start start) rfl hfits
      · subst h
        exact SlotHistory.exec_unreadable hpage op
      · subst h
        intro i hi
        rw [hrecorded.slotted.holds.total] at hi
        cases hi
  | some a =>
      obtain rfl : a = page := (pager_get_page_eq_some hpage).2.trans haddress.symm
      exact throughout_of_kept (I := fun s : SlotHistory => ∃ P, s.Recorded page_no a flag P)
        (fun s op ⟨P, h⟩ hstep => ⟨P.exec op, h.exec hpage hstep⟩)
        (fun s ⟨P, h⟩ => h.readableBack hpage) ops (.start start) ⟨_, hrecorded⟩ hfits

theorem new_leaf_recorded :
    ∃ flag, (SlotHistory.start new_leaf).Recorded 1 PAGE_SIZE flag .empty := by
  obtain ⟨-, flag, hfilled⟩ := newIndexPage_new_leaf.filled
  exact ⟨flag, hfilled.slotted, fun slot hslot => by cases hslot⟩

theorem write_fits_new_leaf (slot : IndexSlotData) (junk : Junk) :
    (SlotOp.write_index_slot slot junk).Fits PAGE_SIZE new_leaf := by
  obtain ⟨flag, hrecorded⟩ := new_leaf_recorded
  have hslotted : Slotted new_leaf.mem PAGE_SIZE 1 flag .empty := hrecorded.slotted
  rw [hslotted.fits_iff]
  intro _
  decide

/-- A key of one byte. -/
def byte_slot (k : UInt8) : IndexSlotData := { IndexSlotData.zero with key := padded_key [k] }

/-- Four keys are written, the first of them is freed by its id, and its id is used again. -/
def five_writes : List SlotOp :=
  [3, 1, 2, 4].map (fun k => .write_index_slot (byte_slot k) fun _ => .zero)
    ++ [.free_index_slot 1, .write_index_slot (byte_slot 5) fun _ => .zero]

theorem slots_read_back_iff_five_writes :
    Throughout (SlotHistory.exec 1) (SlotHistory.ReadableBack 1 PAGE_SIZE) (.start new_leaf)
      five_writes := by
  obtain ⟨flag, hrecorded⟩ := new_leaf_recorded
  exact slots_read_back_iff 1 PAGE_SIZE new_leaf newIndexPage_new_leaf five_writes
    (hrecorded.slotted.eachStep_fits SlotHistory.pager (fun _ _ => rfl) rfl (by decide +kernel))

/-- The first slot of a page has id 1 and cannot be read. -/
theorem first_slot_not_read_back :
    let s := (SlotHistory.start new_leaf).exec 1 (.write_index_slot .zero fun _ => .zero)
    total_slots s.pager.mem PAGE_SIZE = 1
    ∧ entry_slot_id s.pager.mem PAGE_SIZE 0 = 1
    ∧ ¬ s.ReadsBack 1 (entry_slot_id s.pager.mem PAGE_SIZE 0) := by
  intro s
  obtain ⟨flag, hstart⟩ := new_leaf_recorded
  have hone : s.Recorded 1 PAGE_SIZE flag
      (SlotPage.empty.exec (.write_index_slot .zero fun _ => .zero)) :=
    hstart.exec rfl (write_fits_new_leaf .zero _)
  have htotal : total_slots s.pager.mem PAGE_SIZE = 1 := hone.slotted.holds.total
  have hid : entry_slot_id s.pager.mem PAGE_SIZE 0 = 1 :=
    hone.slotted.entry_slot_id (i := 0) Nat.one_pos
  refine ⟨htotal, hid, fun hback => ?_⟩
  have hlt := (hone.readableBack rfl 0 (by rw [htotal]; decide)).mp hback
  rw [hid, htotal] at hlt
  exact absurd hlt (by decide)

end PreSeQL.Index
