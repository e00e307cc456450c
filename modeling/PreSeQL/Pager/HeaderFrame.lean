/-
  PreSeQL.Pager.HeaderFrame — what the operations do to the header of page 0.

  Two fields matter for allocation, `free_page_count` and `highest_page`.  An
  initialiser writes inside its own page (and two bytes of the next), so it leaves
  the header alone; the inline list is edited below the count.  `FreshPage` is what
  `allocate_page` makes of the page itself.
-/
import PreSeQL.Pager.FreePages
import PreSeQL.Index.Page

namespace PreSeQL.Db

open PreSeQL.Lib PreSeQL.Lib.Mem PreSeQL.Radix

/-! ## §1. Writes outside page 0. -/

/-- Only bytes from page 1 on differ. -/
abbrev SameHeader (m m' : Mem) : Prop := ∀ i < PAGE_SIZE, m' i = m i

theorem sameHeader_of_sameOff {m m' : Mem} {lo hi : Nat} (h : m.SameOff lo hi m')
    (hlo : PAGE_SIZE ≤ lo) : SameHeader m m' :=
  fun i hi => h i (Or.inl (Nat.lt_of_lt_of_le hi hlo))

theorem SameHeader.highest_page {pager pager' : Pager} (h : SameHeader pager.mem pager'.mem) :
    pager'.highest_page = pager.highest_page := by
  unfold Pager.highest_page Mem.load16
  rw [load_congr 2 _ fun i _ hi => h i (by
    simp only [DatabaseHeader.highest_page, database_header, DBPage.data, DBPageHeader.sizeof] at hi
    simp only [PAGE_SIZE]
    omega)]

theorem SameHeader.free_page_count {pager pager' : Pager}
    (h : SameHeader pager.mem pager'.mem) :
    pager'.free_page_count = pager.free_page_count := by
  unfold Pager.free_page_count Mem.load16
  rw [load_congr 2 _ fun i _ hi => h i (by
    simp only [DatabaseHeader.free_page_count, database_header, DBPage.data,
      DBPageHeader.sizeof] at hi
    simp only [PAGE_SIZE]
    omega)]

theorem PAGE_SIZE_le_page {page_no : UInt16} (h : page_no ≠ 0) :
    PAGE_SIZE ≤ page_no.toNat * PAGE_SIZE :=
  Nat.le_mul_of_pos_left _ (UInt16.lt_iff_toNat_lt.mp (UInt16.pos_iff_ne_zero.mpr h))

theorem sameOff_allocate_page_header (m : Mem) (page : Nat) (page_no : UInt16) (flag : UInt8) :
    m.SameOff page (page + DBPage.sizeof) (allocate_page_header m page page_no flag) := by
  unfold allocate_page_header
  refine SameOff.store8 ?_ ?_ _ ?_
  refine SameOff.store8 ?_ ?_ _ ?_
  refine SameOff.store8 ?_ ?_ _ ?_
  refine SameOff.store16 ?_ ?_ _ ?_
  refine SameOff.store16 ?_ ?_ _ ?_
  refine SameOff.store16 ?_ ?_ _ ?_
  refine SameOff.store8 ?_ ?_ _ ?_
  refine SameOff.store16 ?_ ?_ _ ?_
  refine SameOff.store16 ?_ ?_ _ ?_
  refine SameOff.memset (SameOff.refl _ _ m) ?_ _ ?_
  all_goals simp

/-- The page header is written behind page 0. -/
theorem sameHeader_allocate_page_header (pager : Pager) {page_no : UInt16} (h0 : page_no ≠ 0)
    (flag : UInt8) :
    SameHeader pager.mem
      (pager.withMem
        (allocate_page_header pager.mem (page_no.toNat * PAGE_SIZE) page_no flag)).mem :=
  sameHeader_of_sameOff (sameOff_allocate_page_header _ _ _ _) (PAGE_SIZE_le_page h0)

theorem sameOff_init_index_header (m : Mem) (page : Nat) (page_no : UInt16) (flag : UInt8) :
    m.SameOff page (page + DBPageHeader.sizeof) (Index.init_index_header m page page_no flag) := by
  unfold Index.init_index_header
  refine SameOff.store16 ?_ ?_ _ ?_
  refine SameOff.store16 ?_ ?_ _ ?_
  refine SameOff.store16 ?_ ?_ _ ?_
  refine SameOff.store16 ?_ ?_ _ ?_
  refine SameOff.store8 ?_ ?_ _ ?_
  refine SameOff.store16 ?_ ?_ _ ?_
  refine SameOff.memset (SameOff.refl _ _ m) ?_ _ ?_
  all_goals simp

theorem sameHeader_init_index_page {pager pager' : Pager} {page_no : UInt16} {flag : UInt8}
    {page : Nat} (h0 : page_no ≠ 0)
    (h : Index.init_index_page pager page_no flag = some (page, pager')) :
    SameHeader pager.mem pager'.mem := by
  unfold Index.init_index_page at h
  cases hpage : pager_get_page pager page_no with
  | none => rw [hpage] at h; cases h
  | some a =>
      obtain ⟨-, rfl⟩ := pager_get_page_eq_some hpage
      rw [hpage] at h
      cases h
      exact sameHeader_of_sameOff (sameOff_init_index_header _ _ _ _) (PAGE_SIZE_le_page h0)

/-! ### A page behind its initialiser. -/

/-- The bytes of a page as `allocate_page` leaves it. -/
structure FreshPage (m : Mem) (page : Nat) (page_no : UInt16) (flag : UInt8) : Prop where
  page_id : m.load16 (DBPageHeader.page_id page) = page_no
  ref_counter : m.load16 (DBPageHeader.ref_counter page) = 1
  flag : m.load8 (DBPageHeader.flag page) = flag
  free_start : m.load16 (DBPageHeader.free_start page) = 34
  free_end : m.load16 (DBPageHeader.free_end page) = 4032
  free_total : m.load16 (DBPageHeader.free_total page) = 3998
  rest : ∀ i, i = page + 5 ∨ page + 12 ≤ i ∧ i < page + DBPage.sizeof → m i = 0

theorem freshPage_allocate_page_header (m : Mem) (page : Nat) (page_no : UInt16) (flag : UInt8) :
    FreshPage (allocate_page_header m page page_no flag) page page_no flag := by
  constructor
  case rest =>
    intro i hi
    simp only [DBPage.sizeof, DBPageHeader.sizeof, MAX_USABLE_PAGE_SIZE_eq,
      MAX_JOURNAL_HEADER_SIZE] at hi
    change (allocate_page_header m page page_no flag).load8 i = 0
    -- three counters are stored, everything else is cleared
    by_cases hcounter : i = page + 14 ∨ i = page + 13 ∨ i = page + 12
    · rcases hcounter with rfl | rfl | rfl
      all_goals
        simp (disch := omega) only [allocate_page_header, DBPageHeader.total_slots,
          DBPageHeader.highest_slot, DBPageHeader.free_slot_count, load8_store8_same,
          load8_store8_of_disjoint]
    · simp only [not_or] at hcounter
      simp (disch := omega) only [allocate_page_header, DBPageHeader.page_id,
        DBPageHeader.ref_counter, DBPageHeader.flag, DBPageHeader.free_start,
        DBPageHeader.free_end, DBPageHeader.free_total, DBPageHeader.total_slots,
        DBPageHeader.highest_slot, DBPageHeader.free_slot_count, DBPage.sizeof,
        DBPageHeader.sizeof, MAX_USABLE_PAGE_SIZE_eq, MAX_JOURNAL_HEADER_SIZE,
        load8_store16_of_disjoint, load8_store8_of_disjoint, load8_memset_zero]
  all_goals
    simp (disch := omega) only [allocate_page_header, DBPageHeader.page_id,
      DBPageHeader.ref_counter, DBPageHeader.flag,
      DBPageHeader.free_start, DBPageHeader.free_end, DBPageHeader.free_total,
      DBPageHeader.total_slots, DBPageHeader.highest_slot, DBPageHeader.free_slot_count,
      load16_store16_same, load8_store8_same, load16_store16_of_disjoint,
      load16_store8_of_disjoint, load8_store16_of_disjoint, load8_store8_of_disjoint]
  all_goals rfl

/-! ## §2. The inline free list. -/

/-- The bytes of `free_page_list`, with `free_page_count` behind it. -/
theorem shift_free_list_frame (header fuel : Nat) : ∀ (m : Mem) (j : Nat),
    (m.load16 (DatabaseHeader.free_page_count header)).toNat ≤ FREE_PAGE_LIST_SIZE →
    m.SameOff (DatabaseHeader.free_page_list header) (DatabaseHeader.free_page_count header)
      (shift_free_list header fuel m j) := by
  induction fuel with
  | zero => intro m j _; exact SameOff.refl _ _ m
  | succ fuel ih =>
      intro m j hcount
      rw [shift_free_list]
      split
      next hj =>
        -- the cell written lies below the count, which is at most the size of the array
        have hcell : m.SameOff (DatabaseHeader.free_page_list header)
            (DatabaseHeader.free_page_count header)
            (m.store16 (freelist_cell (DatabaseHeader.free_page_list header) j)
              (m.load16 (freelist_cell (DatabaseHeader.free_page_list header) (j + 1)))) := by
          refine (SameOff.refl _ _ m).store16 ?_ _ ?_
          · simp
          · simp at hcount hj ⊢
            omega
        -- so the count is as before, and the rest of the loop is bounded alike
        refine hcell.trans (ih _ (j + 1) ?_)
        rwa [hcell.load16 (Or.inr (Nat.le_refl _))]
      next => exact SameOff.refl _ _ m

theorem remove_from_free_list_frame (page_no : UInt16) (header fuel : Nat) :
    ∀ (m : Mem) (i : Nat),
    (m.load16 (DatabaseHeader.free_page_count header)).toNat ≤ FREE_PAGE_LIST_SIZE →
    m.SameOff (DatabaseHeader.free_page_list header) (DatabaseHeader.highest_page header)
      (remove_from_free_list header page_no fuel m i)
    ∧ ((remove_from_free_list header page_no fuel m i).load16
        (DatabaseHeader.free_page_count header)).toNat ≤ FREE_PAGE_LIST_SIZE := by
  induction fuel with
  | zero => intro m i hcount; exact ⟨SameOff.refl _ _ m, hcount⟩
  | succ fuel ih =>
      intro m i hcount
      rw [remove_from_free_list]
      split
      next hi =>
        split
        next =>
          -- the entry is found: the list closes up and the count goes down by one
          have hshift := shift_free_list_frame header (2 ^ 16) m i hcount
          have hsame := hshift.load16 (a := DatabaseHeader.free_page_count header)
            (Or.inr (Nat.le_refl _))
          refine ⟨(hshift.mono (Nat.le_refl _) ?_).store16 ?_ _ ?_, ?_⟩
          · simp
          · simp
          · simp
          · -- the entry is one of those counted, so the count is not 0
            have hpos : (1 : UInt16) ≤ m.load16 (DatabaseHeader.free_page_count header) := by
              rw [UInt16.le_iff_toNat_le]
              exact Nat.lt_of_le_of_lt (Nat.zero_le i) hi
            rw [load16_store16_same, hsame, UInt16.toNat_sub_of_le _ _ hpos]
            exact Nat.le_trans (Nat.sub_le _ _) hcount
        -- not this entry: nothing is written
        next => exact ih m (i + 1) hcount
      next => exact ⟨SameOff.refl _ _ m, hcount⟩

/-! ## §3. The header after each operation. -/

/-- The inline list is within its array. -/
abbrev Pager.ListFits (pager : Pager) : Prop :=
  pager.free_page_count.toNat ≤ FREE_PAGE_LIST_SIZE

theorem mark_page_free_mem (pager : Pager) (page_no : UInt16) :
    (mark_page_free pager page_no).mem
      = if pager.free_page_count.toNat < FREE_PAGE_LIST_SIZE then
          (pager.mem.store16 (freelist_cell (DatabaseHeader.free_page_list database_header)
            pager.free_page_count.toNat) page_no).store16
            (DatabaseHeader.free_page_count database_header) (pager.free_page_count + 1)
        else pager.mem := by
  simp only [mark_page_free, pager_get_page_zero]
  exact apply_ite Pager.mem _ _ _

theorem mark_page_free_header (pager : Pager) (page_no : UInt16) (h : pager.ListFits) :
    (mark_page_free pager page_no).highest_page = pager.highest_page
    ∧ (mark_page_free pager page_no).ListFits := by
  unfold Pager.ListFits Pager.highest_page
  rw [Pager.free_page_count, mark_page_free_mem]
  split
  next hlt =>
    constructor
    · -- the new entry and the count lie in front of `highest_page`
      refine SameOff.load16 (?_ : SameOff (DatabaseHeader.free_page_list database_header)
        (DatabaseHeader.highest_page database_header) _ _) (Or.inr (Nat.le_refl _))
      refine ((SameOff.refl _ _ pager.mem).store16 ?_ _ ?_).store16 ?_ _ ?_
      · simp
      · simp at hlt ⊢
        omega
      · simp
      · simp
    · -- the list was not full
      rw [load16_store16_same, UInt16.toNat_add]
      exact Nat.le_trans (Nat.mod_le _ _) hlt
  next => exact ⟨rfl, h⟩

theorem mark_page_used_mem (pager : Pager) (page_no : UInt16) :
    (mark_page_used pager page_no).mem
      = if page_no > pager.highest_page then
          pager.mem.store16 (DatabaseHeader.highest_page database_header) page_no
        else pager.mem := by
  simp only [mark_page_used, pager_get_page_zero]
  exact apply_ite Pager.mem _ _ _

theorem mark_page_used_header (pager : Pager) (page_no : UInt16) :
    (mark_page_used pager page_no).highest_page = max pager.highest_page page_no
    ∧ (mark_page_used pager page_no).free_page_count = pager.free_page_count := by
  simp only [mark_page_used, pager_get_page_zero]
  split
  next hlt =>
    -- only a page beyond `highest_page` moves it
    have hlt' : pager.highest_page < page_no := hlt
    refine ⟨?_, (sameOff_store _ _ _ _).load16 (Or.inl (Nat.le_refl _))⟩
    rw [max_eq_right (le_of_lt hlt')]
    exact load16_store16_same _ _ _
  next hle => exact ⟨(max_eq_left (not_lt.mp hle)).symm, rfl⟩

theorem allocate_page_header_spec (pager : Pager) {page_no : UInt16} (h0 : page_no ≠ 0)
    (flag : UInt8) :
    (allocate_page pager page_no flag).2.highest_page = max pager.highest_page page_no
    ∧ (allocate_page pager page_no flag).2.free_page_count = pager.free_page_count := by
  have hsame := sameHeader_allocate_page_header pager h0 flag
  obtain ⟨hhigh, hcount⟩ := mark_page_used_header
    (pager.withMem (allocate_page_header pager.mem (page_no.toNat * PAGE_SIZE) page_no flag))
    page_no
  rw [hsame.highest_page] at hhigh
  rw [hsame.free_page_count] at hcount
  exact ⟨hhigh, hcount⟩

theorem get_free_page_mem (pager : Pager) :
    (get_free_page pager).2.mem =
      if pager.free_page_map.num_frees > 0 ∧ radix_tree_peek_min pager.free_page_map.tree > 0 then
        remove_from_free_list database_header (radix_tree_peek_min pager.free_page_map.tree)
          (2 ^ 16) pager.mem 0
      else pager.mem := by
  rw [← radix_tree_pop_min_fst]
  simp only [get_free_page, pager_get_page_zero]
  by_cases hpos : pager.free_page_map.num_frees > 0
  · by_cases hmin : (radix_tree_pop_min pager.free_page_map.tree).1 > 0
    · rw [if_pos hpos, if_pos hmin, if_pos ⟨hpos, hmin⟩]
      rfl
    · rw [if_pos hpos, if_neg hmin, if_neg fun h => hmin h.2]
      rfl
  · rw [if_neg hpos, if_neg fun h => hpos h.1]

theorem get_free_page_header (pager : Pager) (h : pager.ListFits) :
    (get_free_page pager).2.highest_page = pager.highest_page
    ∧ (get_free_page pager).2.ListFits := by
  simp only [get_free_page, pager_get_page_zero]
  split
  next =>
    split
    next =>
      obtain ⟨hframe, hfits⟩ := remove_from_free_list_frame
        (radix_tree_pop_min pager.free_page_map.tree).1 database_header (2 ^ 16) pager.mem 0 h
      exact ⟨hframe.load16 (Or.inr (Nat.le_refl _)), hfits⟩
    next => exact ⟨rfl, h⟩
  next => exact ⟨rfl, h⟩

/-- A page number is left unless `highest_page` is the last one. -/
theorem get_free_page_ne_zero {pager : Pager} (h : pager.highest_page ≠ 65535) :
    (get_free_page pager).1 ≠ 0 := by
  -- the one number that wraps is 65535
  have hnext : pager.highest_page + 1 ≠ 0 := by
    intro hzero
    exact h ((UInt16.add_left_inj 1).mp (hzero.trans rfl))
  rcases get_free_page_cases pager with hgrow | ⟨p, -, hne, hpage, -⟩
  · rw [hgrow]
    exact hnext
  · rw [hpage]
    exact hne

/-- When no page is left behind one that was handed out, that one was a free page. -/
theorem get_free_page_last {pager after : Pager} (hfits : pager.ListFits)
    (hhigh : after.highest_page = (get_free_page pager).2.highest_page)
    (hmap : after.free_page_map = (get_free_page pager).2.free_page_map)
    (h0 : (get_free_page pager).1 ≠ 0) (hnone : (get_free_page after).1 = 0) :
    (get_free_page pager).1 ∈ pages pager.free_page_map.tree
    ∧ (get_free_page pager).1 ∉ pages after.free_page_map.tree := by
  -- the last page number is in use
  have hlast : pager.highest_page = 65535 := by
    by_contra hleft
    refine get_free_page_ne_zero ?_ hnone
    rw [hhigh, (get_free_page_header pager hfits).1]
    exact hleft
  rcases get_free_page_cases pager with hgrow | ⟨p, hmem, hne, hpage, htree⟩
  · rw [hgrow, hlast] at h0
    exact absurd rfl h0
  · rw [hpage, hmap, htree, pages_delete _ hne]
    exact ⟨hmem, Finset.notMem_erase _ _⟩

/-- The page handed out depends on the header only. -/
theorem get_free_page_number {pager : Pager} {m' : Mem} (h : SameHeader pager.mem m') :
    (get_free_page (pager.withMem m')).1 = (get_free_page pager).1 := by
  have hhigh : (pager.withMem m').highest_page = pager.highest_page := SameHeader.highest_page h
  have hmap : (pager.withMem m').free_page_map = pager.free_page_map := rfl
  have hnext : ∀ map : PageTracker, next_new_page ((pager.withMem m').withMap map)
      = next_new_page (pager.withMap map) := by
    intro map
    rw [next_new_page_eq, next_new_page_eq]
    exact congrArg (· + 1) hhigh
  simp only [get_free_page, pager_get_page_zero, hmap]
  split
  next =>
    split
    next => rfl
    next => exact hnext _
  next => exact hnext pager.free_page_map

/-- The tracker touches page 0 only. -/
theorem get_free_page_frame (pager : Pager) (h : pager.ListFits) :
    pager.mem.SameOff 0 PAGE_SIZE (get_free_page pager).2.mem := by
  simp only [get_free_page, pager_get_page_zero]
  split
  next =>
    split
    next =>
      obtain ⟨hframe, -⟩ := remove_from_free_list_frame
        (radix_tree_pop_min pager.free_page_map.tree).1 database_header (2 ^ 16) pager.mem 0 h
      exact hframe.mono (Nat.zero_le _) (by simp)
    next => exact SameOff.refl _ _ _
  next => exact SameOff.refl _ _ _

theorem mark_page_free_frame (pager : Pager) (page_no : UInt16) :
    pager.mem.SameOff 0 PAGE_SIZE (mark_page_free pager page_no).mem := by
  rw [mark_page_free_mem]
  split
  next hlt =>
    refine ((SameOff.refl _ _ pager.mem).store16 (Nat.zero_le _) _ ?_).store16 (Nat.zero_le _) _ ?_
    all_goals
      simp at hlt ⊢
      try omega
  next => exact SameOff.refl _ _ _

theorem mark_page_used_frame (pager : Pager) (page_no : UInt16) :
    pager.mem.SameOff 0 PAGE_SIZE (mark_page_used pager page_no).mem := by
  rw [mark_page_used_mem]
  split
  next => exact (SameOff.refl _ _ pager.mem).store16 (Nat.zero_le _) _ (by simp)
  next => exact SameOff.refl _ _ _

/-! ## §4. The length of the file. -/

theorem mark_page_free_file_end (pager : Pager) (page_no : UInt16) :
    (mark_page_free pager page_no).db_pager.file_end = pager.db_pager.file_end := by
  simp only [mark_page_free, pager_get_page_zero]
  split <;> rfl

theorem mark_page_used_file_end (pager : Pager) (page_no : UInt16) :
    (mark_page_used pager page_no).db_pager.file_end = pager.db_pager.file_end := by
  simp only [mark_page_used, pager_get_page_zero]
  split <;> rfl

theorem allocate_page_file_end (pager : Pager) (page_no : UInt16) (flag : UInt8) :
    (allocate_page pager page_no flag).2.db_pager.file_end = pager.db_pager.file_end :=
  mark_page_used_file_end _ _

theorem get_free_page_file_end (pager : Pager) :
    (get_free_page pager).2.db_pager.file_end = pager.db_pager.file_end := by
  simp only [get_free_page, pager_get_page_zero]
  split
  · split <;> rfl
  · rfl

/-- `allocate_new_db_page` returns the number of the page behind the end of the file, cut
to 16 bits, or 0 after a failure; the file never shrinks and nothing before its end
changes. -/
theorem allocate_new_db_page_spec (sys : Syscalls) (pager : Pager) :
    ((allocate_new_db_page sys pager).1 = 0
      ∨ sys = .ok ∧ (allocate_new_db_page sys pager).1
          = UInt16.ofNat (pager.db_pager.file_end / PAGE_SIZE))
    ∧ (allocate_new_db_page sys pager).2.free_page_map = pager.free_page_map
    ∧ pager.db_pager.file_end ≤ (allocate_new_db_page sys pager).2.db_pager.file_end
    ∧ ∀ i < pager.db_pager.file_end,
        (allocate_new_db_page sys pager).2.mem i = pager.mem i := by
  -- growing the file fills in zeros behind its end
  have hext : ∀ i < pager.db_pager.file_end,
      (pager.db_pager.extend (pager.db_pager.file_end + PAGE_SIZE)).mem i = pager.mem i :=
    fun i hi => fill_outside pager.mem (fun _ => 0) (Or.inl hi)
  obtain ⟨lseek, ftruncate, munmap, mmap⟩ := sys
  unfold allocate_new_db_page resize_mmap
  cases lseek
  · exact ⟨Or.inl rfl, rfl, Nat.le_refl _, fun _ _ => rfl⟩
  by_cases htrunc : ftruncate = false ∨ 2 ^ 63 ≤ pager.db_pager.file_end + PAGE_SIZE
  · simp only [if_pos htrunc]
    exact ⟨Or.inl rfl, rfl, Nat.le_refl _, fun _ _ => rfl⟩
  simp only [if_neg htrunc]
  cases munmap
  · exact ⟨Or.inl rfl, rfl, Nat.le_add_right _ _, hext⟩
  cases mmap
  · exact ⟨Or.inl rfl, rfl, Nat.le_add_right _ _, hext⟩
  · obtain ⟨rfl⟩ : ftruncate = true := by
      simp only [not_or, Bool.not_eq_false] at htrunc
      exact htrunc.1
    exact ⟨Or.inr ⟨rfl, rfl⟩, rfl, Nat.le_add_right _ _, hext⟩

end PreSeQL.Db
