/-
  PreSeQL.Index.Split — what a split moves to the new leaf.

  The loop of `btree_split_leaf` takes its counter for slot ids, from the middle of the
  number of slots on, while every slot it frees makes that number smaller.  So it comes
  to an id that `read_index_slot` refuses, and moves what an uninitialised variable
  holds instead.

    • `Halves.move_slots` — the loop, followed on `SlotPage`,
    • `SlotPage.junk_mem_moved` — when it moves the variable,
    • `split_leaf_iff` — the splits that lose and duplicate nothing.
-/
import PreSeQL.Index.FreeSlots
import PreSeQL.Index.Reach
import PreSeQL.Index.SlotOrder

namespace PreSeQL.Index

open PreSeQL.Lib PreSeQL.Lib.Mem PreSeQL.Lib.Run PreSeQL.Db
open IndexStatus

/-! ## §1. The specification. -/

/-- The records are divided between the two leaves, those of the old one below those of
the new one, and the new one comes between the old one and its sibling. -/
structure SplitRight (before after : Mem) (leaf_page new_leaf : Nat) (new_leaf_id : UInt16) :
    Prop where
  records : (page_records before leaf_page : Multiset IndexSlotData)
    = page_records after leaf_page + page_records after new_leaf
  ordered : ∀ a ∈ page_records after leaf_page, ∀ b ∈ page_records after new_leaf,
    key_compare a.key b.key < 0
  old_sibling : after.load16 (DBPageHeader.right_sibling_page_id leaf_page) = new_leaf_id
  new_sibling : after.load16 (DBPageHeader.right_sibling_page_id new_leaf)
    = before.load16 (DBPageHeader.right_sibling_page_id leaf_page)

/-- So does `btree_split_leaf`. -/
def SplitLeafRight (pager : Pager) (leaf_page_id : UInt16) (junk : Junk) : Prop :=
  let r := btree_split_leaf pager leaf_page_id junk
  SplitRight pager.mem r.2.2.mem (leaf_page_id.toNat * PAGE_SIZE) (r.2.1.toNat * PAGE_SIZE) r.2.1

/-- There are two slots, one of them has id 1, and its key is above the other one. -/
def FirstIdAbove (m : Mem) (page : Nat) : Prop :=
  total_slots m page = 2 ∧ ∃ i, find_entry m page 1 = some i
    ∧ key_compare (entry_key m page (1 - i)) (entry_key m page i) < 0

/-- There is nothing to move, or the only slot to be moved has the id the loop takes for
it; with 17 free ids, this id goes to the low byte of the sibling pointer.  A page that
is in use and marked free at once is emptied by its own split. -/
def SplitFits (pager : Pager) (leaf_page_id : UInt16) : Prop :=
  let leaf_page := leaf_page_id.toNat * PAGE_SIZE
  let new_leaf_id := (get_free_page pager).1
  if new_leaf_id = leaf_page_id then
    total_slots pager.mem leaf_page = 0
      ∧ pager.mem.load16 (DBPageHeader.right_sibling_page_id leaf_page) = leaf_page_id
  else
    total_slots pager.mem leaf_page = 0
      ∨ FirstIdAbove pager.mem leaf_page
        ∧ ((pager.mem.load8 (DBPageHeader.free_slot_count leaf_page)).toNat < 17
          ∨ new_leaf_id.toNat % 256 = 1)

/-! ## §2. The loop. -/

/-- One round on the slots that are left and those that were moved. -/
def SlotPage.move (junk : Junk) (s : SlotPage × List IndexSlotData) (i : Nat) :
    SlotPage × List IndexSlotData :=
  (s.1.free_slot (UInt8.ofNat i), s.2 ++ [s.1.read (UInt8.ofNat i) (junk [i, 0])])

/-- The old leaf holds the slots that are left, and the new one those that were moved. -/
structure Halves (m : Mem) (leaf_page_id new_leaf_id : UInt16)
    (s : SlotPage × List IndexSlotData) : Prop where
  old : Slotted m (leaf_page_id.toNat * PAGE_SIZE) leaf_page_id PAGE_INDEX_LEAF s.1
  new : Filled m (new_leaf_id.toNat * PAGE_SIZE) new_leaf_id PAGE_INDEX_LEAF s.2

/-- A slot that is found and not refused is moved. -/
theorem SlotPage.move_found {P : SlotPage} {moved : List IndexSlotData} {i : Nat} {slot : Slot}
    (hguard : (UInt8.ofNat i).toNat < P.slots.length) (hfind : P.find (UInt8.ofNat i) = some slot)
    (junk : Junk) :
    move junk (P, moved) i = (P.remove (UInt8.ofNat i), moved ++ [slot.data]) := by
  have hsome : ¬ (P.slots.length ≤ (UInt8.ofNat i).toNat ∨ P.find (UInt8.ofNat i) = none) := by
    rw [hfind, not_or]
    exact ⟨Nat.not_le.mpr hguard, Option.some_ne_none slot⟩
  rw [move, free_slot, if_neg hsome, read, if_neg (Nat.not_le.mpr hguard), hfind]
  rfl

theorem SlotPage.free_slot_free_length (P : SlotPage) (slot_id : UInt8) :
    (P.free_slot slot_id).free.length ≤ P.free.length + 1 := by
  unfold SlotPage.free_slot
  split
  · exact Nat.le_succ _
  · show (P.free ++ [slot_id]).length ≤ P.free.length + 1
    rw [List.length_append, List.length_singleton]

section

variable {pager : Pager} {leaf_page_id new_leaf_id : UInt16} {s : SlotPage × List IndexSlotData}
  (hleaf : leaf_page_id.toNat < MAX_PAGES) (hnew : new_leaf_id.toNat < MAX_PAGES)
  (hne : leaf_page_id ≠ new_leaf_id)

include hleaf hnew hne

/-- One round: the write stays on the new leaf, the freeing on the old one. -/
theorem Halves.move_stages (h : Halves pager.mem leaf_page_id new_leaf_id s)
    (hlist : s.1.free.length < 53) (hroom : s.2.length < 68) (junk : Junk) (i : Nat) :
    ∃ m₁ m₂, write_index_slot pager new_leaf_id (s.1.read (UInt8.ofNat i) (junk [i, 0]))
          ((junk.call i).call 1) = pager.withMem m₁
      ∧ free_index_slot (pager.withMem m₁) leaf_page_id (UInt8.ofNat i) = pager.withMem m₂
      ∧ Index.move_slot leaf_page_id new_leaf_id junk pager i = pager.withMem m₂
      ∧ Halves m₁ leaf_page_id new_leaf_id
        (s.1, s.2 ++ [s.1.read (UInt8.ofNat i) (junk [i, 0])])
      ∧ Slotted m₂ (leaf_page_id.toNat * PAGE_SIZE) leaf_page_id PAGE_INDEX_LEAF
        (s.1.free_slot (UInt8.ofNat i))
      ∧ pager.mem.SameOff (new_leaf_id.toNat * PAGE_SIZE)
        (new_leaf_id.toNat * PAGE_SIZE + PAGE_SIZE) m₁
      ∧ m₁.SameOff (leaf_page_id.toNat * PAGE_SIZE + 10)
        (leaf_page_id.toNat * PAGE_SIZE + PAGE_SIZE) m₂ := by
  have hapart := pages_apart hne
  have hread := h.old.holds.read (pager_get_page_of_lt hleaf) (UInt8.ofNat i) (junk [i, 0])
  obtain ⟨m₁, hwrite, hfilled, hsame₁⟩ := h.new.write_room hroom (pager_get_page_of_lt hnew)
    (s.1.read (UInt8.ofNat i) (junk [i, 0])) ((junk.call i).call 1)
  have hsame₁ : pager.mem.SameOff (new_leaf_id.toNat * PAGE_SIZE)
      (new_leaf_id.toNat * PAGE_SIZE + PAGE_SIZE) m₁ := hsame₁.mono (Nat.le_refl _) (by simp)
  have hold₁ : Slotted (pager.withMem m₁).mem (leaf_page_id.toNat * PAGE_SIZE) leaf_page_id
      PAGE_INDEX_LEAF s.1 := h.old.frame hsame₁ (by omega)
  obtain ⟨m₂, hfree, hslotted, hsame₂⟩ :=
    hold₁.free_fits (pager_get_page_of_lt hleaf) (UInt8.ofNat i) fun _ _ => hlist
  refine ⟨m₁, m₂, hwrite, hfree, ?_, ⟨hold₁, hfilled⟩, hslotted, hsame₁, hsame₂⟩
  simp only [Index.move_slot, hread, hwrite, hfree]
  rfl

theorem Halves.move_slot (h : Halves pager.mem leaf_page_id new_leaf_id s)
    (hlist : s.1.free.length < 53) (hroom : s.2.length < 68) (junk : Junk) (i : Nat) :
    ∃ m', Index.move_slot leaf_page_id new_leaf_id junk pager i = pager.withMem m'
      ∧ Halves m' leaf_page_id new_leaf_id (SlotPage.move junk s i) := by
  have hapart := pages_apart hne
  obtain ⟨m₁, m₂, -, -, hmove, hhalves, hslotted, -, hsame⟩ :=
    h.move_stages hleaf hnew hne hlist hroom junk i
  exact ⟨m₂, hmove, hslotted, hhalves.new.frame hsame (by omega)⟩

/-- **The loop** on memory is the loop on the slots. -/
theorem Halves.move_slots (junk : Junk) (ids : List Nat) : ∀ pager s,
    Halves pager.mem leaf_page_id new_leaf_id s → s.1.free.length + ids.length ≤ 53 →
    s.2.length + ids.length ≤ 68 →
    ∃ m', ids.foldl (Index.move_slot leaf_page_id new_leaf_id junk) pager = pager.withMem m'
      ∧ Halves m' leaf_page_id new_leaf_id (ids.foldl (SlotPage.move junk) s) := by
  induction ids with
  | nil => intro pager s h _ _; exact ⟨pager.mem, rfl, h⟩
  | cons i ids ih =>
      intro pager s h hlist hroom
      rw [List.length_cons] at hlist hroom
      obtain ⟨m₁, hstep, h₁⟩ :=
        h.move_slot hleaf hnew hne (by omega) (by omega) junk i
      have hfree := s.1.free_slot_free_length (UInt8.ofNat i)
      have hmoved : (SlotPage.move junk s i).2.length = s.2.length + 1 := List.length_append
      obtain ⟨m₂, hrest, h₂⟩ := ih (pager.withMem m₁) (SlotPage.move junk s i) h₁
        (by show (s.1.free_slot _).free.length + _ ≤ 53; omega) (by omega)
      exact ⟨m₂, by rw [List.foldl_cons, hstep, hrest]; rfl, h₂⟩

end

/-- What was moved stays moved. -/
theorem SlotPage.mem_moved {junk : Junk} {x : IndexSlotData} (ids : List Nat) :
    ∀ s : SlotPage × List IndexSlotData, x ∈ s.2 → x ∈ (ids.foldl (move junk) s).2 := by
  induction ids with
  | nil => intro s hx; exact hx
  | cons i ids ih => intro s hx; exact ih _ (List.mem_append_left _ hx)

/-- **The variable is moved** when the loop has more rounds than there are slots for them:
every slot that is taken out brings the number of slots one closer to the counter. -/
theorem SlotPage.junk_mem_moved (x : IndexSlotData) (n : Nat) :
    ∀ a (s : SlotPage × List IndexSlotData), 0 < n → a + n ≤ 256 →
      s.1.slots.length + 2 ≤ a + 2 * n ∨ s.1.find (UInt8.ofNat a) = none →
      x ∈ ((List.range' a n).foldl (move fun _ => x) s).2 := by
  induction n with
  | zero => intro a s hpos; exact absurd hpos (Nat.lt_irrefl 0)
  | succ n ih =>
      intro a s _ hbyte hshort
      have hid : (UInt8.ofNat a).toNat = a := by
        rw [UInt8.toNat_ofNat', Nat.mod_eq_of_lt (by omega)]
      rw [List.range'_succ, List.foldl_cons]
      by_cases hread : s.1.slots.length ≤ (UInt8.ofNat a).toNat ∨ s.1.find (UInt8.ofNat a) = none
      · -- the id is refused or not there
        refine mem_moved _ _ (List.mem_append_right _ (List.mem_singleton.mpr ?_))
        unfold read
        split
        next => rfl
        next hguard => rw [hread.resolve_left hguard]; rfl
      · obtain ⟨hguard, hfind⟩ := not_or.mp hread
        have hshort := hshort.resolve_right hfind
        obtain ⟨slot, hsome⟩ := Option.ne_none_iff_exists'.mp hfind
        have hlen := remove_length hsome
        refine ih (a + 1) _ (by omega) (by omega) (Or.inl ?_)
        show (s.1.free_slot (UInt8.ofNat a)).slots.length + 2 ≤ a + 1 + 2 * n
        rw [free_slot, if_neg hread]
        omega

/-! ## §3. Around the loop. -/

/-- The sibling pointers as the split sets them. -/
def link_leaf (m : Mem) (leaf_page new_leaf : Nat) (new_leaf_id : UInt16) : Mem :=
  (m.store16 (DBPageHeader.right_sibling_page_id new_leaf)
    (m.load16 (DBPageHeader.right_sibling_page_id leaf_page))).store16
    (DBPageHeader.right_sibling_page_id leaf_page) new_leaf_id

/-- The pager with the new leaf initialised. -/
def with_new_leaf (pager : Pager) : Pager :=
  let r := get_free_page pager
  r.2.withMem (init_index_header r.2.mem (r.1.toNat * PAGE_SIZE) r.1 PAGE_INDEX_LEAF)

theorem with_new_leaf_frame (pager : Pager) :
    (get_free_page pager).2.mem.SameOff ((get_free_page pager).1.toNat * PAGE_SIZE)
      ((get_free_page pager).1.toNat * PAGE_SIZE + PAGE_SIZE) (with_new_leaf pager).mem :=
  (sameOff_init_index_header _ _ _ _).mono (Nat.le_refl _) (by simp)

/-- A split that returns OK has found its pages. -/
structure SplitOk (pager : Pager) (leaf_page_id new_leaf_id : UInt16) : Prop where
  leaf_read : leaf_page_id.toNat < MAX_PAGES
  new_read : new_leaf_id.toNat < MAX_PAGES
  is_leaf : IS_LEAF pager.mem (leaf_page_id.toNat * PAGE_SIZE) = true
  ne_zero : new_leaf_id ≠ 0
  result : ∀ junk, btree_split_leaf pager leaf_page_id junk = (PSQL_STATUS_OK, new_leaf_id,
    split_slots (with_new_leaf pager) leaf_page_id new_leaf_id (leaf_page_id.toNat * PAGE_SIZE)
      (new_leaf_id.toNat * PAGE_SIZE) junk)

section

variable {pager : Pager} {leaf_page_id new_leaf_id : UInt16} {P : SlotPage}

theorem splitOk (hleaf : leaf_page_id.toNat < MAX_PAGES)
    (his : IS_LEAF pager.mem (leaf_page_id.toNat * PAGE_SIZE) = true)
    (h0 : (get_free_page pager).1 ≠ 0) (hnew : (get_free_page pager).1.toNat < MAX_PAGES) :
    SplitOk pager leaf_page_id (get_free_page pager).1 := by
  have hinit : init_index_leaf_page (get_free_page pager).2 (get_free_page pager).1
      = some ((get_free_page pager).1.toNat * PAGE_SIZE, with_new_leaf pager) := by
    simp only [init_index_leaf_page, init_index_page, pager_get_page_of_lt hnew]
    rfl
  refine ⟨hleaf, hnew, his, h0, fun junk => ?_⟩
  simp only [btree_split_leaf, pager_get_page_of_lt hleaf, his, not_true_eq_false, if_false, if_neg h0,
    hinit]

theorem splitOk_of_status {junk₀ : Junk}
    (hstatus : (btree_split_leaf pager leaf_page_id junk₀).1 = PSQL_STATUS_OK) :
    SplitOk pager leaf_page_id (get_free_page pager).1 := by
  unfold btree_split_leaf at hstatus
  cases hpage : pager_get_page pager leaf_page_id with
  | none => simp only [hpage, reduceCtorEq] at hstatus
  | some leaf_page =>
      obtain ⟨hread, rfl⟩ := pager_get_page_eq_some hpage
      simp only [hpage] at hstatus
      by_cases hleaf : ¬ IS_LEAF pager.mem (leaf_page_id.toNat * PAGE_SIZE)
      · simp only [if_pos hleaf, reduceCtorEq] at hstatus
      · simp only [if_neg hleaf] at hstatus
        by_cases h0 : (get_free_page pager).1 = 0
        · simp only [h0, if_true, reduceCtorEq] at hstatus
        · simp only [if_neg h0] at hstatus
          by_cases hnew : (get_free_page pager).1.toNat < MAX_PAGES
          · exact splitOk hread (not_not.mp hleaf) h0 hnew
          · simp only [init_index_leaf_page, init_index_page, pager_get_page_of_not_lt hnew,
              reduceCtorEq] at hstatus

theorem SplitOk.right_iff (h : SplitOk pager leaf_page_id new_leaf_id) {junk : Junk} {m' : Mem}
    (hsplit : split_slots (with_new_leaf pager) leaf_page_id new_leaf_id
      (leaf_page_id.toNat * PAGE_SIZE) (new_leaf_id.toNat * PAGE_SIZE) junk
        = (with_new_leaf pager).withMem m') :
    SplitLeafRight pager leaf_page_id junk ↔ SplitRight pager.mem m'
      (leaf_page_id.toNat * PAGE_SIZE) (new_leaf_id.toNat * PAGE_SIZE) new_leaf_id := by
  rw [SplitLeafRight, h.result, hsplit]
  rfl

/-- A page has at most 68 slots. -/
theorem SlotPage.Ok.length_le (h : P.Ok) : P.slots.length ≤ 68 := by
  have hused := h.used
  have hcounted := h.counted
  omega

/-- A sibling pointer lies behind the first 17 free ids and in front of the directory. -/
theorem Halves.set_sibling {m : Mem} {s : SlotPage × List IndexSlotData}
    (h : Halves m leaf_page_id new_leaf_id s) (hlist : s.1.free.length ≤ 17) (p v : UInt16) :
    Halves (m.store16 (DBPageHeader.right_sibling_page_id (p.toNat * PAGE_SIZE)) v)
      leaf_page_id new_leaf_id s := by
  have hold := sibling_off leaf_page_id p
  have hnew := sibling_off new_leaf_id p
  exact ⟨h.old.frame (sameOff_sibling m p v) (by omega), h.new.frame (sameOff_sibling m p v) (by omega)⟩

/-- The pages of a split before its loop. -/
theorem IndexPages.halves {limit : Nat} {pages : Set UInt16} (h : IndexPages limit pages pager)
    (hlimit : limit ≤ 17) (hmem : leaf_page_id ∈ pages)
    (hok : SplitOk pager leaf_page_id new_leaf_id) (hnext : new_leaf_id = (get_free_page pager).1)
    (hne : leaf_page_id ≠ new_leaf_id) :
    ∃ P, P.free.length ≤ 17
      ∧ Slotted pager.mem (leaf_page_id.toNat * PAGE_SIZE) leaf_page_id PAGE_INDEX_LEAF P
      ∧ Halves (with_new_leaf pager).mem leaf_page_id new_leaf_id (P, []) := by
  obtain ⟨flag, P, hflag, hslotted, hfree⟩ := h.index_page leaf_page_id hmem hok.leaf_read
  -- an inner page is no leaf
  have hleaf : flag = PAGE_INDEX_LEAF := by
    rcases hflag with rfl | rfl
    · rfl
    · have his := hok.is_leaf
      rw [IS_LEAF, hslotted.flag] at his
      exact absurd his (by decide)
  subst hleaf hnext
  have hapart := pages_apart hne
  have hheader : PAGE_SIZE ≤ leaf_page_id.toNat * PAGE_SIZE := PAGE_SIZE_le_page (h.ne_zero _ hmem)
  have hold := hslotted.frame (get_free_page_frame pager h.fits) (.inl hheader)
  have hinit := with_new_leaf_frame pager
  exact ⟨P, Nat.le_trans hfree hlimit, hslotted, hold.frame hinit (by omega), filled_init _ _ _ _⟩

theorem Halves.link (h : Halves pager.mem leaf_page_id new_leaf_id (P, []))
    (hlist : P.free.length ≤ 17) :
    Halves (link_leaf pager.mem (leaf_page_id.toNat * PAGE_SIZE) (new_leaf_id.toNat * PAGE_SIZE)
      new_leaf_id) leaf_page_id new_leaf_id (P, []) :=
  (h.set_sibling hlist new_leaf_id _).set_sibling hlist leaf_page_id new_leaf_id

/-- **A split** on the slots. -/
theorem Halves.split (h : Halves pager.mem leaf_page_id new_leaf_id (P, []))
    (hlist : P.free.length ≤ 17) (hleaf : leaf_page_id.toNat < MAX_PAGES)
    (hnew : new_leaf_id.toNat < MAX_PAGES) (hne : leaf_page_id ≠ new_leaf_id) (junk : Junk) :
    ∃ m', (List.range' (P.slots.length / 2) (P.slots.length - P.slots.length / 2)).foldl
          (Index.move_slot leaf_page_id new_leaf_id junk) (pager.withMem (link_leaf pager.mem
            (leaf_page_id.toNat * PAGE_SIZE) (new_leaf_id.toNat * PAGE_SIZE) new_leaf_id))
        = pager.withMem m'
      ∧ split_slots pager leaf_page_id new_leaf_id (leaf_page_id.toNat * PAGE_SIZE)
          (new_leaf_id.toNat * PAGE_SIZE) junk
        = pager.withMem (m'.store8 (DBPageHeader.total_slots (leaf_page_id.toNat * PAGE_SIZE))
          (UInt8.ofNat (P.slots.length / 2)))
      ∧ Halves m' leaf_page_id new_leaf_id
        ((List.range' (P.slots.length / 2) (P.slots.length - P.slots.length / 2)).foldl
          (SlotPage.move junk) (P, [])) := by
  have hlinked := h.link hlist
  have htotal := hlinked.old.holds.total
  have hlen : P.slots.length ≤ 68 := hlinked.old.ok.length_le
  obtain ⟨m', hloop, hhalves⟩ := Halves.move_slots hleaf hnew hne junk
    (List.range' (P.slots.length / 2) (P.slots.length - P.slots.length / 2))
    (pager.withMem (link_leaf pager.mem (leaf_page_id.toNat * PAGE_SIZE)
      (new_leaf_id.toNat * PAGE_SIZE) new_leaf_id)) (P, []) hlinked
    (by show P.free.length + _ ≤ 53; rw [List.length_range']; omega)
    (by show 0 + _ ≤ 68; rw [List.length_range']; omega)
  refine ⟨m', hloop, ?_, hhalves⟩
  unfold link_leaf at htotal hloop
  simp only [split_slots, htotal, hloop]
  rfl

end

/-! ## §4. Splits that move the variable. -/

section

variable {m : Mem} {page : Nat} {page_no : UInt16} {flag : UInt8} {P : SlotPage}

theorem Slotted.page_records (h : Slotted m page page_no flag P) :
    Index.page_records m page = P.slots.map Slot.data := by
  rw [Index.page_records, h.holds.total]
  refine List.ext_getElem (by simp) fun i hi hi' => ?_
  rw [List.length_map, List.length_range] at hi
  rw [List.getElem_map, List.getElem_map, List.getElem_range]
  exact h.holds.entry_record hi .zero

/-- A record that is not among those of a page. -/
theorem exists_other_record (l : List IndexSlotData) (hlen : l.length ≤ 68) :
    ∃ x : IndexSlotData, x ∉ l := by
  have hcard : (l.map fun r => r.next_page_id.toNat).toFinset.card < (Finset.range 69).card := by
    refine Nat.lt_of_le_of_lt (List.toFinset_card_le _) ?_
    rw [List.length_map, Finset.card_range]
    omega
  obtain ⟨n, hn, hnot⟩ := Finset.exists_mem_notMem_of_card_lt_card hcard
  refine ⟨{ IndexSlotData.zero with next_page_id := UInt16.ofNat n }, fun hmem => hnot ?_⟩
  rw [List.mem_toFinset]
  refine List.mem_map.mpr ⟨_, hmem, ?_⟩
  show (UInt16.ofNat n).toNat = n
  rw [UInt16.toNat_ofNat', Nat.mod_eq_of_lt]
  have hlt := Finset.mem_range.mp hn
  omega

/-- Only without slots, or with two of which one has id 1, the loop reads all it moves. -/
theorem SlotPage.Ok.junk_moved (h : P.Ok) (hpos : 0 < P.slots.length)
    (htwo : P.slots.length = 2 → P.find 1 = none) (x : IndexSlotData) :
    x ∈ ((List.range' (P.slots.length / 2) (P.slots.length - P.slots.length / 2)).foldl
      (SlotPage.move fun _ => x) (P, [])).2 := by
  have hlen := h.length_le
  refine SlotPage.junk_mem_moved x _ _ _ (by omega) (by omega) ?_
  show P.slots.length + 2 ≤ _ ∨ P.find (UInt8.ofNat (P.slots.length / 2)) = none
  by_cases hmany : 3 ≤ P.slots.length
  · left
    omega
  · right
    by_cases hone : P.slots.length = 1
    · -- the only round looks for id 0
      rw [hone]
      exact List.find?_eq_none.mpr fun s hs heq =>
        h.id_ne_zero (SlotPage.mem_ids hs) (by simpa using heq)
    · have heq : P.slots.length = 2 := by omega
      rw [heq]
      exact htwo heq

end

section

variable {pager : Pager} {leaf_page_id new_leaf_id : UInt16} {P : SlotPage}

/-- **A split that moves the variable** is not right for all that it may hold. -/
theorem not_splitRight (hok : SplitOk pager leaf_page_id new_leaf_id)
    (hold : Slotted pager.mem (leaf_page_id.toNat * PAGE_SIZE) leaf_page_id PAGE_INDEX_LEAF P)
    (h : Halves (with_new_leaf pager).mem leaf_page_id new_leaf_id (P, []))
    (hlist : P.free.length ≤ 17) (hne : leaf_page_id ≠ new_leaf_id) (hpos : 0 < P.slots.length)
    (htwo : P.slots.length = 2 → P.find 1 = none) :
    ∃ x, ¬ SplitLeafRight pager leaf_page_id fun _ => x := by
  have hlen : (P.slots.map Slot.data).length ≤ 68 := by
    rw [List.length_map]
    exact hold.ok.length_le
  obtain ⟨x, hx⟩ := exists_other_record _ hlen
  obtain ⟨m', -, hsplit, hhalves⟩ :=
    h.split hlist hok.leaf_read hok.new_read hne fun _ => x
  refine ⟨x, fun hright => hx ?_⟩
  -- the new leaf holds what was in the variable
  have hcut : m'.SameOff (leaf_page_id.toNat * PAGE_SIZE + 12) (leaf_page_id.toNat * PAGE_SIZE + 13)
      (m'.store8 (DBPageHeader.total_slots (leaf_page_id.toNat * PAGE_SIZE))
        (UInt8.ofNat (P.slots.length / 2))) := (SameOff.refl _ _ _).store8 (by simp) _ (by simp)
  have hapart := field_apart hne (k := 12) (n := 1) (by decide)
  have hfilled := hhalves.new.frame hcut (by omega)
  have hmoved := hfilled.page_records.mem_iff.mpr (hold.ok.junk_moved hpos htwo x)
  have hrecords := ((hok.right_iff hsplit).mp hright).records
  rw [hold.page_records] at hrecords
  rw [← Multiset.mem_coe, hrecords]
  exact Multiset.mem_add.mpr (.inr (Multiset.mem_coe.mpr hmoved))

/-! ## §5. Splits that move what they read. -/

/-- The number of slots is no part of a sibling pointer. -/
theorem sibling_of_total {m m' : Mem} {q : UInt16}
    (hcut : m.SameOff (q.toNat * PAGE_SIZE + 12) (q.toNat * PAGE_SIZE + 13) m') (p : UInt16) :
    m'.load16 (DBPageHeader.right_sibling_page_id (p.toNat * PAGE_SIZE))
      = m.load16 (DBPageHeader.right_sibling_page_id (p.toNat * PAGE_SIZE)) := by
  refine hcut.load16 ?_
  by_cases heq : p = q
  · subst heq
    simp
  · have hapart := field_apart heq (k := 32) (n := 2) (by decide)
    have hsize : 13 ≤ PAGE_SIZE := by decide
    simp only [DBPageHeader.right_sibling_page_id]
    omega

/-- What a split leaves, read off the slots behind its loop. -/
theorem Halves.splitRight_iff {before m : Mem} {s : SlotPage × List IndexSlotData}
    (h : Halves m leaf_page_id new_leaf_id s) (hne : leaf_page_id ≠ new_leaf_id)
    (hold : Slotted before (leaf_page_id.toNat * PAGE_SIZE) leaf_page_id PAGE_INDEX_LEAF P) {n : Nat}
    (hn : n ≤ s.1.slots.length) :
    SplitRight before (m.store8 (DBPageHeader.total_slots (leaf_page_id.toNat * PAGE_SIZE))
        (UInt8.ofNat n)) (leaf_page_id.toNat * PAGE_SIZE) (new_leaf_id.toNat * PAGE_SIZE) new_leaf_id
      ↔ (P.slots.map Slot.data).Perm ((s.1.slots.take n).map Slot.data ++ s.2)
        ∧ (∀ a ∈ s.1.slots.take n, ∀ b ∈ s.2,
          key_compare a.data.key b.key < 0)
        ∧ m.load16 (DBPageHeader.right_sibling_page_id (leaf_page_id.toNat * PAGE_SIZE)) = new_leaf_id
        ∧ m.load16 (DBPageHeader.right_sibling_page_id (new_leaf_id.toNat * PAGE_SIZE))
          = before.load16 (DBPageHeader.right_sibling_page_id (leaf_page_id.toNat * PAGE_SIZE)) := by
  have hcut : m.SameOff (leaf_page_id.toNat * PAGE_SIZE + 12) (leaf_page_id.toNat * PAGE_SIZE + 13)
      (m.store8 (DBPageHeader.total_slots (leaf_page_id.toNat * PAGE_SIZE)) (UInt8.ofNat n)) :=
    (SameOff.refl _ _ _).store8 (by simp) _ (by simp)
  have hleft := (h.old.cut hn).page_records
  generalize m.store8 (DBPageHeader.total_slots (leaf_page_id.toNat * PAGE_SIZE)) (UInt8.ofNat n)
    = m' at hcut hleft ⊢
  have hapart := field_apart hne (k := 12) (n := 1) (by decide)
  have hmoved := (h.new.frame hcut (by omega)).page_records
  have hsibling : ∀ p : UInt16,
      m'.load16 (DBPageHeader.right_sibling_page_id (p.toNat * PAGE_SIZE))
        = m.load16 (DBPageHeader.right_sibling_page_id (p.toNat * PAGE_SIZE)) :=
    fun p => sibling_of_total hcut p
  have hrecords : (page_records before (leaf_page_id.toNat * PAGE_SIZE) : Multiset IndexSlotData)
        = page_records m' (leaf_page_id.toNat * PAGE_SIZE)
          + page_records m' (new_leaf_id.toNat * PAGE_SIZE)
      ↔ (P.slots.map Slot.data).Perm ((s.1.slots.take n).map Slot.data ++ s.2) := by
    rw [hleft, hold.page_records, Multiset.coe_eq_coe.mpr hmoved, Multiset.coe_add, Multiset.coe_eq_coe]
    rfl
  have hordered : (∀ a ∈ page_records m' (leaf_page_id.toNat * PAGE_SIZE),
        ∀ b ∈ page_records m' (new_leaf_id.toNat * PAGE_SIZE),
          key_compare a.key b.key < 0)
      ↔ ∀ a ∈ s.1.slots.take n, ∀ b ∈ s.2,
          key_compare a.data.key b.key < 0 := by
    rw [hleft, List.forall_mem_map]
    simp only [hmoved.mem_iff]
    rfl
  constructor
  · intro hright
    exact ⟨hrecords.mp hright.records, hordered.mp hright.ordered,
      (hsibling _).symm.trans hright.old_sibling, (hsibling _).symm.trans hright.new_sibling⟩
  · rintro ⟨hperm, hsorted, hleaf, hnew⟩
    exact ⟨hrecords.mpr hperm, hordered.mpr hsorted, (hsibling _).trans hleaf,
      (hsibling _).trans hnew⟩

theorem link_leaf_old (m : Mem) (leaf_page new_leaf : Nat) (new_leaf_id : UInt16) :
    (link_leaf m leaf_page new_leaf new_leaf_id).load16
      (DBPageHeader.right_sibling_page_id leaf_page) = new_leaf_id :=
  load16_store16_same _ _ _

theorem link_leaf_new (m : Mem) (hne : leaf_page_id ≠ new_leaf_id) :
    (link_leaf m (leaf_page_id.toNat * PAGE_SIZE) (new_leaf_id.toNat * PAGE_SIZE)
        new_leaf_id).load16 (DBPageHeader.right_sibling_page_id (new_leaf_id.toNat * PAGE_SIZE))
      = m.load16 (DBPageHeader.right_sibling_page_id (leaf_page_id.toNat * PAGE_SIZE)) := by
  have hapart := field_apart hne (k := 32) (n := 2) (by decide)
  have hsize : 34 ≤ PAGE_SIZE := by decide
  rw [link_leaf, load16_store16_of_disjoint _ _ ?_, load16_store16_same]
  simp only [DBPageHeader.right_sibling_page_id]
  omega

/-- The sibling pointer of the leaf is not touched before the loop. -/
theorem with_new_leaf_sibling (hfits : pager.ListFits) (h0 : leaf_page_id ≠ 0)
    (hne : leaf_page_id ≠ (get_free_page pager).1) :
    (with_new_leaf pager).mem.load16
        (DBPageHeader.right_sibling_page_id (leaf_page_id.toNat * PAGE_SIZE))
      = pager.mem.load16 (DBPageHeader.right_sibling_page_id (leaf_page_id.toNat * PAGE_SIZE)) := by
  have hheader : PAGE_SIZE ≤ leaf_page_id.toNat * PAGE_SIZE := PAGE_SIZE_le_page h0
  have hapart := field_apart hne (k := 32) (n := 2) (by decide)
  have hinit := with_new_leaf_frame pager
  rw [hinit.load16 (by simp only [DBPageHeader.right_sibling_page_id]; omega)]
  exact (get_free_page_frame pager hfits).load16
    (by simp only [DBPageHeader.right_sibling_page_id]; omega)

/-- The sibling pointers after one round that frees a slot. -/
theorem Halves.move_slot_siblings (h : Halves pager.mem leaf_page_id new_leaf_id (P, []))
    (hlist : P.free.length ≤ 17) (hleaf : leaf_page_id.toNat < MAX_PAGES)
    (hnew : new_leaf_id.toNat < MAX_PAGES) (hne : leaf_page_id ≠ new_leaf_id) {i : Nat} {slot : Slot}
    (hguard : (UInt8.ofNat i).toNat < P.slots.length) (hfind : P.find (UInt8.ofNat i) = some slot)
    (hlink : pager.mem.load16
      (DBPageHeader.right_sibling_page_id (leaf_page_id.toNat * PAGE_SIZE)) = new_leaf_id)
    (junk : Junk) :
    let m' := (Index.move_slot leaf_page_id new_leaf_id junk pager i).mem
    (m'.load16 (DBPageHeader.right_sibling_page_id (leaf_page_id.toNat * PAGE_SIZE)) = new_leaf_id
      ↔ P.free.length < 17 ∨ new_leaf_id.toNat % 256 = (UInt8.ofNat i).toNat)
    ∧ m'.load16 (DBPageHeader.right_sibling_page_id (new_leaf_id.toNat * PAGE_SIZE))
      = pager.mem.load16 (DBPageHeader.right_sibling_page_id (new_leaf_id.toNat * PAGE_SIZE)) := by
  have hapart := field_apart hne (k := 32) (n := 2) (by decide)
  have hapart' := field_apart hne.symm (k := 32) (n := 2) (by decide)
  obtain ⟨m₁, m₂, hwrite, hfree, hmove, hhalves, -, hsame₁, hsame₂⟩ :=
    h.move_stages hleaf hnew hne (Nat.lt_of_le_of_lt hlist (by decide)) (by decide : 0 < 68) junk i
  have hold₁ : Slotted (pager.withMem m₁).mem (leaf_page_id.toNat * PAGE_SIZE) leaf_page_id
      PAGE_INDEX_LEAF P := hhalves.old
  have hleaf₁ : m₁.load16 (DBPageHeader.right_sibling_page_id (leaf_page_id.toNat * PAGE_SIZE))
      = new_leaf_id := (hsame₁.load16 (by
        simp only [DBPageHeader.right_sibling_page_id]; omega)).trans hlink
  have hnew₁ : m₁.load16 (DBPageHeader.right_sibling_page_id (new_leaf_id.toNat * PAGE_SIZE))
      = pager.mem.load16 (DBPageHeader.right_sibling_page_id (new_leaf_id.toNat * PAGE_SIZE)) := by
    refine congrArg UInt16.ofNat (load_congr 2 _ fun j hlo hhi => ?_)
    simp only [DBPageHeader.right_sibling_page_id] at hlo hhi
    have hbetween := h.new.slotted.write_between (pager_get_page_of_lt hnew) (fun _ => by decide)
      (P.read (UInt8.ofNat i) (junk [i, 0])) ((junk.call i).call 1) (i := j) (by omega) (by omega)
    rwa [hwrite] at hbetween
  intro m'
  have hm' : m' = m₂ := congrArg Pager.mem hmove
  rw [hm']
  constructor
  · by_cases hshort : P.free.length < 17
    · -- the freed id goes in front of the sibling pointer
      refine iff_of_true (Eq.trans ?_ hleaf₁) (Or.inl hshort)
      refine congrArg UInt16.ofNat (load_congr 2 _ fun j hlo hhi => ?_)
      simp only [DBPageHeader.right_sibling_page_id] at hlo hhi
      have hbetween := hold₁.free_slot_between (pager_get_page_of_lt hleaf) (UInt8.ofNat i) (i := j)
        (by omega) (by omega)
      rwa [hfree] at hbetween
    · have hlow := hold₁.free_slot_sibling (pager_get_page_of_lt hleaf) hguard hfind (by omega)
      rw [hfree, Pager.withMem_mem, Pager.withMem_mem, hleaf₁] at hlow
      have hbyte := (UInt8.ofNat i).toNat_lt
      rw [← UInt16.toNat_inj, hlow]
      omega
  · rw [hsame₂.load16 (by simp only [DBPageHeader.right_sibling_page_id]; omega)]
    exact hnew₁

/-- The slot with id 1 among two, and the other one. -/
theorem SlotPage.two_slots (hlen : P.slots.length = 2) {i : Nat}
    (hidx : (P.slots.findIdx? fun s => s.id == 1) = some i) :
    ∃ (hi : i < P.slots.length) (hj : 1 - i < P.slots.length), P.find 1 = some P.slots[i]
      ∧ (P.remove 1).slots = [P.slots[1 - i]] ∧ P.slots.Perm [P.slots[1 - i], P.slots[i]] := by
  obtain ⟨hi, hfind, hremove⟩ := SlotPage.find_of_findIdx hidx
  have hj : 1 - i < P.slots.length := by omega
  refine ⟨hi, hj, hfind, ?_⟩
  rw [hremove]
  obtain ⟨s₀, s₁, hslots⟩ := List.length_eq_two.mp hlen
  have hcases : i = 0 ∨ i = 1 := by omega
  rcases hcases with rfl | rfl
  · simp only [hslots]
    exact ⟨rfl, List.Perm.swap _ _ _⟩
  · simp only [hslots]
    exact ⟨rfl, List.Perm.refl _⟩

section

variable (hok : SplitOk pager leaf_page_id new_leaf_id)
  (hold : Slotted pager.mem (leaf_page_id.toNat * PAGE_SIZE) leaf_page_id PAGE_INDEX_LEAF P)
  (h : Halves (with_new_leaf pager).mem leaf_page_id new_leaf_id (P, []))
  (hsibling : (with_new_leaf pager).mem.load16
      (DBPageHeader.right_sibling_page_id (leaf_page_id.toNat * PAGE_SIZE))
    = pager.mem.load16 (DBPageHeader.right_sibling_page_id (leaf_page_id.toNat * PAGE_SIZE)))
  (hlist : P.free.length ≤ 17) (hne : leaf_page_id ≠ new_leaf_id)

include hok hold h hsibling hlist hne

/-- **Nothing to move**: a split of an empty leaf. -/
theorem splitRight_empty (hempty : P.slots.length = 0) (junk : Junk) :
    SplitLeafRight pager leaf_page_id junk := by
  have hslots : P.slots = [] := List.length_eq_zero_iff.mp hempty
  obtain ⟨m', hloop, hsplit, hhalves⟩ :=
    h.split hlist hok.leaf_read hok.new_read hne junk
  rw [hempty] at hloop hsplit hhalves
  have hm' : link_leaf (with_new_leaf pager).mem (leaf_page_id.toNat * PAGE_SIZE)
      (new_leaf_id.toNat * PAGE_SIZE) new_leaf_id = m' := congrArg Pager.mem hloop
  refine (hok.right_iff hsplit).mpr ((hhalves.splitRight_iff hne hold (Nat.zero_le _)).mpr
    ⟨?_, ?_, ?_, ?_⟩)
  · rw [hslots]
    exact List.Perm.refl _
  · intro a ha
    cases ha
  · rw [← hm', link_leaf_old]
  · rw [← hm', link_leaf_new _ hne, hsibling]

/-- **One slot to move** that is found by the id the loop takes for it. -/
theorem splitRight_two_iff (htwo : P.slots.length = 2) {i : Nat}
    (hentry : find_entry pager.mem (leaf_page_id.toNat * PAGE_SIZE) 1 = some i) (junk : Junk) :
    SplitLeafRight pager leaf_page_id junk
      ↔ key_compare (entry_key pager.mem (leaf_page_id.toNat * PAGE_SIZE) (1 - i))
          (entry_key pager.mem (leaf_page_id.toNat * PAGE_SIZE) i) < 0
        ∧ (P.free.length < 17 ∨ new_leaf_id.toNat % 256 = 1) := by
  rw [hold.holds.find_entry] at hentry
  obtain ⟨hi, hj, hfind, hremove, hperm⟩ := SlotPage.two_slots htwo hentry
  have hguard : (1 : UInt8).toNat < P.slots.length := by
    rw [htwo]
    decide
  have hlinked := h.link hlist
  obtain ⟨m', hloop, hsplit, hhalves⟩ :=
    h.split hlist hok.leaf_read hok.new_read hne junk
  rw [htwo] at hloop hsplit hhalves
  -- the only round takes out the slot with id 1
  have hround : (List.range' (2 / 2) (2 - 2 / 2)).foldl (SlotPage.move junk) (P, [])
      = (P.remove 1, [P.slots[i].data]) := by
    show SlotPage.move junk (P, []) 1 = (P.remove 1, [P.slots[i].data])
    exact SlotPage.move_found hguard hfind junk
  have hm' : (move_slot leaf_page_id new_leaf_id junk ((with_new_leaf pager).withMem
      (link_leaf (with_new_leaf pager).mem (leaf_page_id.toNat * PAGE_SIZE)
        (new_leaf_id.toNat * PAGE_SIZE) new_leaf_id)) 1).mem = m' := congrArg Pager.mem hloop
  have hlinked' : Halves ((with_new_leaf pager).withMem (link_leaf (with_new_leaf pager).mem
      (leaf_page_id.toNat * PAGE_SIZE) (new_leaf_id.toNat * PAGE_SIZE) new_leaf_id)).mem
      leaf_page_id new_leaf_id (P, []) := hlinked
  obtain ⟨hleaf, hnew⟩ := hlinked'.move_slot_siblings hlist hok.leaf_read hok.new_read hne hguard
    hfind (link_leaf_old _ _ _ _) junk
  rw [hm'] at hleaf hnew
  rw [hround] at hhalves
  have hone : 1 ≤ (P.remove 1).slots.length := by
    rw [hremove]
    exact Nat.le_refl 1
  rw [hok.right_iff hsplit, hhalves.splitRight_iff hne hold hone, hold.entry_key hi,
    hold.entry_key hj, hleaf, hnew, Pager.withMem_mem, link_leaf_new _ hne, hsibling]
  have hleft : (P.remove 1).slots.take 1 = [P.slots[1 - i]] := by
    rw [hremove]
    rfl
  simp only [hleft, List.mem_singleton, forall_eq, List.map_singleton, List.singleton_append,
    and_true]
  exact and_iff_right (hperm.map Slot.data)

end

/-! ## §6. A leaf split into itself. -/

theorem sameOff_link_self (m : Mem) (page : Nat) (page_no : UInt16) :
    m.SameOff (page + 32) (page + 34) (link_leaf m page page page_no) := by
  unfold link_leaf
  refine SameOff.store16 (SameOff.store16 (SameOff.refl _ _ m) ?_ _ ?_) ?_ _ ?_
  all_goals simp

/-- The leaf is emptied, and its sibling is the leaf itself. -/
theorem split_slots_self (hnext : leaf_page_id = (get_free_page pager).1) (junk : Junk) :
    ∃ m', split_slots (with_new_leaf pager) leaf_page_id leaf_page_id
          (leaf_page_id.toNat * PAGE_SIZE) (leaf_page_id.toNat * PAGE_SIZE) junk
        = (with_new_leaf pager).withMem m'
      ∧ total_slots m' (leaf_page_id.toNat * PAGE_SIZE) = 0
      ∧ m'.load16 (DBPageHeader.right_sibling_page_id (leaf_page_id.toNat * PAGE_SIZE))
        = leaf_page_id := by
  have hempty : Filled (with_new_leaf pager).mem ((get_free_page pager).1.toNat * PAGE_SIZE)
      (get_free_page pager).1 PAGE_INDEX_LEAF [] := filled_init _ _ _ _
  rw [← hnext] at hempty
  generalize leaf_page_id.toNat * PAGE_SIZE = page at hempty ⊢
  generalize with_new_leaf pager = pager₁ at hempty ⊢
  have hsame := sameOff_link_self pager₁.mem page leaf_page_id
  have htotal := (hempty.frame hsame (.inr (.inr ⟨by omega, by omega⟩))).packed.total
  refine ⟨(link_leaf pager₁.mem page page leaf_page_id).store8
    (DBPageHeader.total_slots page) (UInt8.ofNat 0), ?_, ?_, ?_⟩
  · unfold link_leaf at htotal
    simp only [split_slots, htotal]
    rfl
  · rw [total_slots, load8_store8_same]
    rfl
  · rw [load16_store8_of_disjoint _ _ (by simp), link_leaf_old]

theorem splitRight_self_iff (hok : SplitOk pager leaf_page_id leaf_page_id)
    (hnext : leaf_page_id = (get_free_page pager).1) (junk : Junk) :
    SplitLeafRight pager leaf_page_id junk
      ↔ total_slots pager.mem (leaf_page_id.toNat * PAGE_SIZE) = 0
        ∧ pager.mem.load16 (DBPageHeader.right_sibling_page_id (leaf_page_id.toNat * PAGE_SIZE))
          = leaf_page_id := by
  obtain ⟨m', hsplit, htotal, hsibling⟩ := split_slots_self hnext junk
  have hnone : page_records m' (leaf_page_id.toNat * PAGE_SIZE) = [] := by
    rw [page_records, htotal]
    rfl
  rw [hok.right_iff hsplit]
  constructor
  · intro hright
    have hrecords := congrArg Multiset.card hright.records
    rw [hnone, Multiset.coe_card, page_records, List.length_map, List.length_range] at hrecords
    exact ⟨hrecords, hright.new_sibling.symm.trans hsibling⟩
  · rintro ⟨hzero, hbefore⟩
    constructor
    case records =>
      rw [hnone, page_records, hzero]
      rfl
    case ordered =>
      rw [hnone]
      intro a ha
      cases ha
    case old_sibling => exact hsibling
    case new_sibling => exact hsibling.trans hbefore.symm

/-! ## §7. Runs. -/

/-- **A split that returns OK** loses and duplicates nothing exactly when it fits. -/
theorem IndexPages.splitRight_iff {pages : Set UInt16} (h : IndexPages 17 pages pager)
    (hmem : leaf_page_id ∈ pages) {junk₀ : Junk}
    (hstatus : (btree_split_leaf pager leaf_page_id junk₀).1 = PSQL_STATUS_OK) :
    (∀ junk, SplitLeafRight pager leaf_page_id junk) ↔ SplitFits pager leaf_page_id := by
  have hok := splitOk_of_status hstatus
  unfold SplitFits
  by_cases hself : (get_free_page pager).1 = leaf_page_id
  · rw [hself] at hok
    simp only [if_pos hself, splitRight_self_iff hok hself.symm]
    exact ⟨fun hright => hright fun _ => .zero, fun hfits _ => hfits⟩
  · have hne : leaf_page_id ≠ (get_free_page pager).1 := Ne.symm hself
    obtain ⟨P, hlist, hold, hhalves⟩ := h.halves (Nat.le_refl 17) hmem hok rfl hne
    have hsibling := with_new_leaf_sibling h.fits (h.ne_zero _ hmem) hne
    have hcount := hold.toNat_free_slot_count
    simp only [if_neg hself, hold.holds.total, hcount, FirstIdAbove]
    constructor
    · intro hright
      by_cases hempty : P.slots.length = 0
      · exact Or.inl hempty
      right
      by_cases hmoves : P.slots.length = 2 → P.find 1 = none
      · obtain ⟨x, hx⟩ := not_splitRight hok hold hhalves hlist hne (Nat.pos_of_ne_zero hempty) hmoves
        exact absurd (hright _) hx
      · obtain ⟨htwo, hfind⟩ := Classical.not_imp.mp hmoves
        obtain ⟨i, hentry⟩ :=
          Option.ne_none_iff_exists'.mp ((hold.holds.find_entry_ne_none_iff 1).mpr hfind)
        obtain ⟨habove, hlow⟩ := (splitRight_two_iff hok hold hhalves hsibling hlist hne htwo hentry
          fun _ => .zero).mp (hright _)
        exact ⟨⟨htwo, i, hentry, habove⟩, hlow⟩
    · rintro (hempty | ⟨⟨htwo, i, hentry, habove⟩, hlow⟩) junk
      · exact splitRight_empty hok hold hhalves hsibling hlist hne hempty junk
      · exact (splitRight_two_iff hok hold hhalves hsibling hlist hne htwo hentry junk).mpr
          ⟨habove, hlow⟩

end

/-- Every split of an initialised leaf that returns OK is right exactly when it fits. -/
def Store.SplitsIff (s : Store) : Prop :=
  ∀ leaf_page_id ∈ s.pages, ∀ junk₀ : Junk,
    (btree_split_leaf s.pager leaf_page_id junk₀).1 = PSQL_STATUS_OK →
      ((∀ junk, SplitLeafRight s.pager leaf_page_id junk) ↔ SplitFits s.pager leaf_page_id)

/-- **Splits lose and duplicate nothing**, in every state of a run whose calls keep to their
pages, exactly when they fit. -/
theorem split_leaf_iff (pager : Pager) (hnew : NewDb pager) (ops : List StoreOp)
    (hallowed : EachStep StoreOp.exec (StoreOp.Allowed 17) (newStore pager) ops) :
    Throughout StoreOp.exec Store.SplitsIff (newStore pager) ops :=
  throughout_of_indexPages (Nat.le_refl 17)
    (fun _ h _ hmem _ hstatus => h.splitRight_iff hmem hstatus) hnew ops hallowed

/-- A leaf with up to four slots, in each state of the run. -/
theorem split_leaf_iff_five_writes :
    Throughout StoreOp.exec Store.SplitsIff (newStore (pager_init_new_db .ok fresh_pager).2)
      (.init_index_page 4 PAGE_INDEX_LEAF :: five_writes.map (SlotOp.on 4)) :=
  split_leaf_iff _ newDb_fresh _
    (allowed_on_page _ (by decide) (by decide) (.inl rfl) (by decide +kernel))

/-- After 67 insertions into a new tree the number of its root is still handed out. -/
theorem sixty_seven_inserted (junk : Junk) :
    ∃ pager, new_tree.toTree.inserts 1 ((List.range 67).map insert_byte) junk
        = some (List.replicate 67 PSQL_STATUS_OK, ⟨4, pager⟩)
      ∧ LeafTree ⟨4, pager⟩ (((List.range 67).map insert_byte).map Insertion.slot)
      ∧ (get_free_page pager).1 = 4 := by
  obtain ⟨m', hinserts, htree, hsame⟩ := LeafTree.inserts ((List.range 67).map insert_byte)
    new_tree.toTree [] new_tree.leafTree (by rw [List.length_map, List.length_range]; rfl) junk
  refine ⟨new_tree.pager.withMem m', ?_, htree, ?_⟩
  · rw [hinserts, List.length_map, List.length_range]
    rfl
  · rw [get_free_page_number (sameHeader_of_sameOff hsame (PAGE_SIZE_le_page new_tree.ne_zero))]
    decide +kernel

/-- The 68th insertion splits the leaf into itself. -/
theorem full_leaf_emptied :
    let junk : Junk := fun _ => .zero
    ∃ pager, new_tree.toTree.inserts 1 ((List.range 67).map insert_byte) junk
        = some (List.replicate 67 PSQL_STATUS_OK, ⟨4, pager⟩)
      ∧ let full := write_index_slot pager 4 (insert_byte 67).slot junk
        (page_records full.mem (4 * PAGE_SIZE)).length = 68
        ∧ (btree_split_leaf full 4 junk).1 = PSQL_STATUS_OK
        ∧ ¬ SplitLeafRight full 4 junk := by
  intro junk
  obtain ⟨pager, hinserts, htree, hnext⟩ := sixty_seven_inserted junk
  have hpage : pager_get_page pager 4 = some (4 * PAGE_SIZE) := pager_get_page_of_lt (by decide)
  have hfilled := htree.filled_at hpage
  have hlen : (((List.range 67).map insert_byte).map Insertion.slot).length = 67 := by
    rw [List.length_map, List.length_map, List.length_range]
  obtain ⟨m', hwrite, hfull, hsame⟩ :=
    hfilled.write_room (by rw [hlen]; decide) hpage (insert_byte 67).slot junk
  refine ⟨pager, hinserts, ?_⟩
  intro full
  have hfull_eq : full = pager.withMem m' := hwrite
  have htotal : total_slots m' (4 * PAGE_SIZE) = 68 := by
    rw [hfull.packed.total, List.length_append, hlen]
    rfl
  have hnext' : (4 : UInt16) = (get_free_page (pager.withMem m')).1 := by
    have hbehind : PAGE_SIZE ≤ 4 * PAGE_SIZE := Nat.le_mul_of_pos_left PAGE_SIZE (by decide)
    rw [get_free_page_number (sameHeader_of_sameOff hsame hbehind), hnext]
  have hok : SplitOk (pager.withMem m') 4 4 := by
    have hok : SplitOk (pager.withMem m') 4 _ := splitOk (by decide) hfull.packed.leaf.1
      (by rw [← hnext']; decide) (by rw [← hnext']; decide)
    rwa [← hnext'] at hok
  rw [hfull_eq]
  refine ⟨?_, ?_, fun hright => ?_⟩
  · rw [page_records, List.length_map, List.length_range]
    exact htotal
  · rw [hok.result]
  · have hzero := ((splitRight_self_iff hok hnext' junk).mp hright).1
    have haddress : UInt16.toNat 4 = 4 := rfl
    rw [haddress, Pager.withMem_mem, htotal] at hzero
    cases hzero

end PreSeQL.Index
