/-
  PreSeQL.Index.Growth — insertion seen from the root page.

  As long as the root is a leaf it stays packed.  A full one is split, and while page
  numbers are left the split ends with a new root: an inner page with two slots, or a
  page that cannot be read.

    • `insert_leaf_room` — an insertion into a leaf with room for it,
    • `insert_leaf_root` — any insertion into a root that is a leaf,
    • `insert_leaf_full` — one that puts a new root above it.
-/
import PreSeQL.Index.Packed
import PreSeQL.Pager.HeaderFrame

namespace PreSeQL.Index

open PreSeQL.Lib PreSeQL.Lib.Mem PreSeQL.Db
open IndexStatus

/-! ## §1. Pages apart. -/

theorem pages_apart {p q : UInt16} (h : p ≠ q) :
    p.toNat * PAGE_SIZE + PAGE_SIZE ≤ q.toNat * PAGE_SIZE
      ∨ q.toNat * PAGE_SIZE + PAGE_SIZE ≤ p.toNat * PAGE_SIZE := by
  have hne : p.toNat ≠ q.toNat := fun heq => h (UInt16.toNat_inj.mp heq)
  simp only [PAGE_SIZE]
  omega

/-- The sibling pointer of a page lies apart from every other page, and between the free ids
and the directory of its own. -/
theorem sibling_off (p q : UInt16) :
    q.toNat * PAGE_SIZE + 34 ≤ p.toNat * PAGE_SIZE
      ∨ p.toNat * PAGE_SIZE + PAGE_SIZE ≤ q.toNat * PAGE_SIZE + 32
      ∨ p.toNat * PAGE_SIZE + 32 ≤ q.toNat * PAGE_SIZE + 32
        ∧ q.toNat * PAGE_SIZE + 34 ≤ p.toNat * PAGE_SIZE + 68 := by
  by_cases heq : q = p
  · subst heq
    omega
  · have hapart := pages_apart heq
    have hsize : 34 ≤ PAGE_SIZE := by decide
    omega

theorem page_ne_zero {pager : Pager} {p : UInt16} {page : Nat} (h0 : p ≠ 0)
    (hpage : pager_get_page pager p = some page) : PAGE_SIZE ≤ page := by
  obtain ⟨-, rfl⟩ := pager_get_page_eq_some hpage
  exact PAGE_SIZE_le_page h0

/-- An initialised page is packed, and nothing else changed. -/
theorem init_index_page_packed {pager pager' : Pager} {p : UInt16} {flag : UInt8} {page : Nat}
    (h : init_index_page pager p flag = some (page, pager')) :
    pager_get_page pager' p = some page ∧ Packed pager'.mem page p flag 0
      ∧ pager.mem.SameOff page (page + PAGE_SIZE) pager'.mem := by
  unfold init_index_page at h
  cases hpage : pager_get_page pager p with
  | none => rw [hpage] at h; cases h
  | some a =>
      rw [hpage] at h
      cases h
      exact ⟨hpage, packed_init _ _ _ _,
        (sameOff_init_index_header _ _ _ _).mono (Nat.le_refl _) (by simp)⟩

theorem init_index_page_withMem {pager pager' : Pager} {p : UInt16} {flag : UInt8} {page : Nat}
    (h : init_index_page pager p flag = some (page, pager')) : ∃ m', pager' = pager.withMem m' := by
  unfold init_index_page at h
  cases hpage : pager_get_page pager p with
  | none => rw [hpage] at h; cases h
  | some a =>
      rw [hpage] at h
      cases h
      exact ⟨_, rfl⟩

theorem init_index_page_eq_none {pager : Pager} {p : UInt16} {flag : UInt8}
    (h : init_index_page pager p flag = none) : pager_get_page pager p = none := by
  unfold init_index_page at h
  cases hpage : pager_get_page pager p with
  | none => rfl
  | some a => rw [hpage] at h; cases h

/-! ## §2. Freeing a slot. -/

/-- What the loop that moves slots needs of the page it takes them from. -/
structure DirectoryOk (m : Mem) (page : Nat) (page_no : UInt16) : Prop where
  page_id : header_page_id m page = page_no
  free_start : m.load16 (DBPageHeader.free_start page) = 34
  total_le : total_slots m page ≤ 68

section

variable {m m' : Mem} {page : Nat} {page_no : UInt16}

theorem Packed.directoryOk {flag : UInt8} {c : Nat} (h : Packed m page page_no flag c) :
    DirectoryOk m page page_no :=
  ⟨h.page_id, h.free_start, h.total ▸ h.le⟩

theorem DirectoryOk.frame (h : DirectoryOk m page page_no) {lo hi : Nat}
    (hsame : m.SameOff lo hi m')
    (hoff : hi ≤ page ∨ page + PAGE_SIZE ≤ lo ∨ page + 15 ≤ lo) : DirectoryOk m' page page_no := by
  simp only [PAGE_SIZE] at hoff
  refine ⟨(hsame.load16 ?_).trans h.page_id, (hsame.load16 ?_).trans h.free_start, ?_⟩
  · simp only [DBPageHeader.page_id]; omega
  · simp only [DBPageHeader.free_start]; omega
  · rw [total_slots, hsame.load8 (by simp only [DBPageHeader.total_slots]; omega)]
    exact h.total_le

end

theorem free_slot_count_store_total (m : Mem) (page : Nat) (v : UInt8) :
    (m.store8 (DBPageHeader.total_slots page) v).load8 (DBPageHeader.free_slot_count page)
      = m.load8 (DBPageHeader.free_slot_count page) :=
  load8_store8_of_disjoint _ _ (by simp)

theorem uncount_slot_frame (m : Mem) (page : Nat) (slot_id : UInt8) (entry : Nat) :
    m.SameOff (page + 10) (page + PAGE_SIZE) (uncount_slot m page slot_id entry) := by
  simp only [uncount_slot, PAGE_SIZE]
  -- the count of the free list is a byte, so the list stays on the page
  have hcount := (m.store8 (DBPageHeader.total_slots page)
    (m.load8 (DBPageHeader.total_slots page) - 1)).load8 (DBPageHeader.free_slot_count page) |>.toNat_lt
  refine SameOff.store16 ?_ ?_ _ ?_
  refine SameOff.store8 ?_ ?_ _ ?_
  refine SameOff.store8 ?_ ?_ _ ?_
  refine SameOff.store8 (SameOff.refl _ _ m) ?_ _ ?_
  all_goals
    simp at hcount ⊢
    try omega

theorem uncount_slot_total (m : Mem) (page : Nat) (slot_id : UInt8) (entry : Nat) :
    (uncount_slot m page slot_id entry).load8 (DBPageHeader.total_slots page)
      = m.load8 (DBPageHeader.total_slots page) - 1 := by
  simp (disch := omega) only [uncount_slot, DBPageHeader.total_slots, DBPageHeader.free_total,
    DBPageHeader.free_slot_count, DBPageHeader.free_slot_list, load8_store16_of_disjoint,
    load8_store8_of_disjoint, load8_store8_same]

/-- The size given back is that of the entry now in the place of the freed one. -/
theorem uncount_slot_total_free {m : Mem} {page : Nat} (slot_id : UInt8) {entry : Nat}
    (hlist : (m.load8 (DBPageHeader.free_slot_count page)).toNat < 53)
    (hentry : directory page ≤ entry) :
    (uncount_slot m page slot_id entry).load16 (DBPageHeader.free_total page)
      = m.load16 (DBPageHeader.free_total page)
        + UInt16.ofNat (m.load (SlotEntry.size entry) 8 + SlotEntry.sizeof) := by
  simp only [directory] at hentry
  simp only [DBPageHeader.free_slot_count] at hlist
  simp only [uncount_slot, free_slot_count_store_total, load16_store16_same,
    DBPageHeader.free_slot_list]
  rw [load16_store8_of_disjoint _ _ (by simp; omega), load16_store8_of_disjoint _ _ (by simp),
    load16_store8_of_disjoint _ _ (by simp), store8, store8, store8, load_store_of_disjoint,
    load_store_of_disjoint, load_store_of_disjoint]
  all_goals
    simp only [SlotEntry.size, DBPageHeader.total_slots, DBPageHeader.free_slot_count]
    omega

/-- Freeing a slot stays on the page, behind its flag. -/
theorem free_index_slot_keeps {pager : Pager} {page : Nat} {page_no : UInt16}
    (h : DirectoryOk pager.mem page page_no) (hpage : pager_get_page pager page_no = some page)
    (slot_id : UInt8) :
    ∃ m', free_index_slot pager page_no slot_id = pager.withMem m' ∧ DirectoryOk m' page page_no
      ∧ pager.mem.SameOff (page + 10) (page + PAGE_SIZE) m' := by
  have hsame : ∃ m', pager = pager.withMem m' ∧ DirectoryOk m' page page_no
      ∧ pager.mem.SameOff (page + 10) (page + PAGE_SIZE) m' :=
    ⟨pager.mem, rfl, h, SameOff.refl _ _ _⟩
  simp only [free_index_slot, hpage]
  split
  next => exact hsame
  next =>
    cases hfind : find_entry pager.mem page slot_id with
    | none => exact hsame
    | some i =>
        -- the entry is one of the directory's
        have hi : i < total_slots pager.mem page :=
          List.mem_range.mp (List.mem_of_find?_eq_some hfind)
        have hle := h.total_le
        have hentries : slot_entries pager.mem page = directory page := by
          rw [slot_entries, h.free_start]
          rfl
        refine ⟨_, rfl, ?_⟩
        rw [hentries]
        generalize hm₁ : pager.mem.memmove (slot_entry (directory page) i)
          (slot_entry (directory page) (i + 1))
          ((total_slots pager.mem page - i - 1) * SlotEntry.sizeof) = m₁
        -- closing the gap moves entries only
        have hmove : pager.mem.SameOff (page + 68) (page + PAGE_SIZE) m₁ := by
          rw [← hm₁]
          refine (close_gap_frame pager.mem (directory page) hi).mono (Nat.le_refl _) ?_
          simp only [slot_entry, directory, SlotEntry.sizeof, PAGE_SIZE]
          omega
        have hcount := uncount_slot_frame m₁ page slot_id (slot_entry (directory page) i)
        refine ⟨⟨?_, ?_, ?_⟩, (hmove.mono (by omega) (Nat.le_refl _)).trans hcount⟩
        · rw [← h.page_id, header_page_id, hcount.load16 (by simp), hmove.load16 (by simp),
            header_page_id]
        · rw [← h.free_start, hcount.load16 (by simp), hmove.load16 (by simp)]
        · have htotal : m₁.load8 (DBPageHeader.total_slots page)
              = pager.mem.load8 (DBPageHeader.total_slots page) := hmove.load8 (by simp)
          have hpos : 1 ≤ pager.mem.load8 (DBPageHeader.total_slots page) :=
            UInt8.le_iff_toNat_le.mpr (Nat.lt_of_le_of_lt (Nat.zero_le i) hi)
          rw [total_slots] at hle
          rw [total_slots, uncount_slot_total, htotal, UInt8.toNat_sub_of_le _ _ hpos]
          omega

/-! ## §3. Splitting the root. -/

/-- What the loop that moves slots keeps: the new leaf is packed, the old one still has
its directory, and page 0 is as it was. -/
structure Moving (old new : Nat) (old_id new_id : UInt16) (m m' : Mem) : Prop where
  packed : ∃ c, Packed m' new new_id PAGE_INDEX_LEAF c
  directory : DirectoryOk m' old old_id
  header : SameHeader m m'

theorem SameHeader.trans {m₁ m₂ m₃ : Mem} (h₁ : SameHeader m₁ m₂) (h₂ : SameHeader m₂ m₃) :
    SameHeader m₁ m₃ := fun i hi => (h₂ i hi).trans (h₁ i hi)

section Split

variable {pager : Pager} {old new : Nat} {old_id new_id : UInt16}

theorem move_slot_keeps {m : Mem} (h : Moving old new old_id new_id m pager.mem)
    (hold : pager_get_page pager old_id = some old) (hnew : pager_get_page pager new_id = some new)
    (hne : old_id ≠ new_id) (hold0 : old_id ≠ 0) (hnew0 : new_id ≠ 0) (junk : Junk) (i : Nat) :
    ∃ m', move_slot old_id new_id junk pager i = pager.withMem m'
      ∧ Moving old new old_id new_id m m' := by
  obtain ⟨c, hc⟩ := h.packed
  obtain ⟨-, hold_eq⟩ := pager_get_page_eq_some hold
  obtain ⟨-, hnew_eq⟩ := pager_get_page_eq_some hnew
  have hapart := pages_apart hne
  rw [← hold_eq, ← hnew_eq] at hapart
  -- the write stays on the new leaf, the freeing on the old one
  obtain ⟨m₁, hwrite, hpacked, hsame₁⟩ := write_index_slot_packed hc hnew
    (read_index_slot pager old_id (UInt8.ofNat i) (junk [i, 0])) ((junk.call i).call 1)
  have hdir₁ : DirectoryOk (pager.withMem m₁).mem old old_id :=
    h.directory.frame hsame₁ (by omega)
  obtain ⟨m₂, hfree, hdir₂, hsame₂⟩ := free_index_slot_keeps hdir₁ hold (UInt8.ofNat i)
  refine ⟨m₂, ?_, ⟨_, hpacked.frame hsame₂ (by omega)⟩, hdir₂, ?_⟩
  · simp only [move_slot, hwrite, hfree]
    rfl
  · have hheader₁ := sameHeader_of_sameOff hsame₁ (page_ne_zero hnew0 hnew)
    have hheader₂ := sameHeader_of_sameOff hsame₂
      (Nat.le_trans (page_ne_zero hold0 hold) (Nat.le_add_right _ _))
    exact SameHeader.trans h.header (SameHeader.trans hheader₁ hheader₂)

/-- The whole loop. -/
theorem move_slots_keeps {m : Mem} (h : Moving old new old_id new_id m pager.mem)
    (hold : pager_get_page pager old_id = some old) (hnew : pager_get_page pager new_id = some new)
    (hne : old_id ≠ new_id) (hold0 : old_id ≠ 0) (hnew0 : new_id ≠ 0) (junk : Junk)
    (slots : List Nat) :
    ∃ m', slots.foldl (move_slot old_id new_id junk) pager = pager.withMem m'
      ∧ Moving old new old_id new_id m m' := by
  induction slots generalizing pager with
  | nil => exact ⟨pager.mem, rfl, h⟩
  | cons i slots ih =>
      obtain ⟨m₁, hstep, h₁⟩ := move_slot_keeps h hold hnew hne hold0 hnew0 junk i
      have h₁ : Moving old new old_id new_id m (pager.withMem m₁).mem := h₁
      obtain ⟨m₂, hrest, h₂⟩ := ih h₁ hold hnew
      exact ⟨m₂, by rw [List.foldl_cons, hstep, hrest]; rfl, h₂⟩

/-- A sibling pointer lies between the header fields that matter and the directory. -/
theorem sameOff_sibling (m : Mem) (q v : UInt16) :
    m.SameOff (q.toNat * PAGE_SIZE + 32) (q.toNat * PAGE_SIZE + 34)
      (m.store16 (DBPageHeader.right_sibling_page_id (q.toNat * PAGE_SIZE)) v) :=
  (SameOff.refl _ _ m).store16 (by simp) _ (by simp)

theorem Packed.store_sibling {m : Mem} {p : UInt16} {flag c}
    (h : Packed m (p.toNat * PAGE_SIZE) p flag c) (q v : UInt16) :
    Packed (m.store16 (DBPageHeader.right_sibling_page_id (q.toNat * PAGE_SIZE)) v)
      (p.toNat * PAGE_SIZE) p flag c := by
  have hoff := sibling_off p q
  exact h.frame (sameOff_sibling m q v) (by omega)

theorem DirectoryOk.store_sibling {m : Mem} {p : UInt16} (h : DirectoryOk m (p.toNat * PAGE_SIZE) p)
    (q v : UInt16) :
    DirectoryOk (m.store16 (DBPageHeader.right_sibling_page_id (q.toNat * PAGE_SIZE)) v)
      (p.toNat * PAGE_SIZE) p := by
  have hoff := sibling_off p q
  exact h.frame (sameOff_sibling m q v) (by omega)

/-- After a split the old leaf is still labelled with its page number.  It may be the
new leaf as well: then it has just been emptied and no slot is moved. -/
theorem split_slots_keeps (hold : pager_get_page pager old_id = some old)
    (hnew : pager_get_page pager new_id = some new) (hold0 : old_id ≠ 0) (hnew0 : new_id ≠ 0)
    (hleaf : DirectoryOk pager.mem old old_id)
    (hempty : Packed pager.mem new new_id PAGE_INDEX_LEAF 0) (junk : Junk) :
    ∃ m', split_slots pager old_id new_id old new junk = pager.withMem m'
      ∧ header_page_id m' old = old_id ∧ SameHeader pager.mem m' := by
  have hold_page := page_ne_zero hold0 hold
  have hnew_page := page_ne_zero hnew0 hnew
  obtain ⟨-, hold_eq⟩ := pager_get_page_eq_some hold
  obtain ⟨-, hnew_eq⟩ := pager_get_page_eq_some hnew
  -- the sibling pointers
  generalize hm : (pager.mem.store16 (DBPageHeader.right_sibling_page_id new)
    (pager.mem.load16 (DBPageHeader.right_sibling_page_id old))).store16
    (DBPageHeader.right_sibling_page_id old) new_id = m
  have hold_m : DirectoryOk m old old_id := by
    rw [← hm]
    rw [hold_eq] at hleaf ⊢
    rw [hnew_eq]
    exact (hleaf.store_sibling new_id _).store_sibling old_id _
  have hnew_m : Packed m new new_id PAGE_INDEX_LEAF 0 := by
    rw [← hm]
    rw [hnew_eq] at hempty ⊢
    rw [hold_eq]
    exact (hempty.store_sibling new_id _).store_sibling old_id _
  have hheader_m : SameHeader pager.mem m := by
    intro i hi
    rw [← hm, store16, store, store16, store, fill_outside, fill_outside]
    all_goals
      simp only [PAGE_SIZE, DBPageHeader.right_sibling_page_id] at *
      omega
  -- the loop
  generalize hc : total_slots m old = c
  obtain ⟨m₂, hloop, hlabel, hheader⟩ : ∃ m₂,
      (List.range' (c / 2) (c - c / 2)).foldl (move_slot old_id new_id junk) (pager.withMem m)
        = pager.withMem m₂ ∧ header_page_id m₂ old = old_id ∧ SameHeader pager.mem m₂ := by
    -- when both are one page it is empty, so there is nothing to move
    by_cases hne : old_id = new_id
    · subst hne
      obtain rfl : old = new := Option.some.inj (hold.symm.trans hnew)
      obtain rfl : c = 0 := hc.symm.trans hnew_m.total
      exact ⟨m, rfl, hold_m.page_id, hheader_m⟩
    · have hmoving : Moving old new old_id new_id pager.mem (pager.withMem m).mem :=
        ⟨⟨0, hnew_m⟩, hold_m, hheader_m⟩
      obtain ⟨m₂, hloop, hmoving⟩ := move_slots_keeps hmoving hold hnew hne hold0 hnew0 junk
        (List.range' (c / 2) (c - c / 2))
      exact ⟨m₂, hloop, hmoving.directory.page_id, hmoving.header⟩
  have hcut : m₂.SameOff (old + 12) (old + 13)
      (m₂.store8 (DBPageHeader.total_slots old) (UInt8.ofNat (c / 2))) :=
    (SameOff.refl _ _ m₂).store8 (by simp) _ (by simp)
  refine ⟨_, ?_, ?_, SameHeader.trans hheader (sameHeader_of_sameOff hcut (by omega))⟩
  · simp only [split_slots, hm, hc, hloop]
    rfl
  · rw [header_page_id, hcut.load16 (Or.inl (by simp)), ← hlabel, header_page_id]

end Split

/-! ## §4. The root after an insertion. -/

/-- `get_free_page` can number a page that was not used before. -/
structure PagesLeft (pager : Pager) : Prop where
  highest : pager.highest_page ≠ 65535
  fits : pager.ListFits

theorem PagesLeft.of_sameHeader {pager pager' : Pager} (h : PagesLeft pager)
    (hsame : SameHeader pager.mem pager'.mem) : PagesLeft pager' := by
  refine ⟨?_, ?_⟩
  · rw [hsame.highest_page]
    exact h.highest
  · rw [Pager.ListFits, hsame.free_page_count]
    exact h.fits

theorem PagesLeft.mark_page_free {pager : Pager} (h : PagesLeft pager) (page_no : UInt16) :
    PagesLeft (mark_page_free pager page_no) := by
  obtain ⟨hhigh, hfits⟩ := mark_page_free_header pager page_no h.fits
  exact ⟨hhigh ▸ h.highest, hfits⟩

theorem PagesLeft.get_free_page {pager : Pager} (h : PagesLeft pager) :
    (get_free_page pager).1 ≠ 0 ∧ PagesLeft (Db.get_free_page pager).2 := by
  obtain ⟨hhigh, hfits⟩ := get_free_page_header pager h.fits
  exact ⟨get_free_page_ne_zero h.highest, hhigh ▸ h.highest, hfits⟩

/-- Neither can a page be handed out that cannot be read. -/
structure ReadableLeft (pager : Pager) : Prop where
  fits : pager.ListFits
  highest : pager.highest_page.toNat + 1 < MAX_PAGES
  free : ∀ p ∈ Radix.pages pager.free_page_map.tree, p.toNat < MAX_PAGES

theorem ReadableLeft.pagesLeft {pager : Pager} (h : ReadableLeft pager) : PagesLeft pager := by
  refine ⟨fun hlast => ?_, h.fits⟩
  have hlt := h.highest
  rw [hlast] at hlt
  exact absurd hlt (by decide)

theorem ReadableLeft.of_sameHeader {pager : Pager} {m' : Mem} (h : ReadableLeft pager)
    (hsame : SameHeader pager.mem m') : ReadableLeft (pager.withMem m') := by
  refine ⟨(h.pagesLeft.of_sameHeader hsame).fits, ?_, h.free⟩
  have hhigh : (pager.withMem m').highest_page = pager.highest_page := SameHeader.highest_page hsame
  rw [hhigh]
  exact h.highest

theorem ReadableLeft.get_free_page {pager : Pager} (h : ReadableLeft pager) :
    (get_free_page pager).1.toNat < MAX_PAGES ∧ ReadableLeft (Db.get_free_page pager).2 := by
  obtain ⟨hhigh, hfits⟩ := get_free_page_header pager h.fits
  have hlt := h.highest
  rcases get_free_page_cases pager with hgrow | ⟨p, hmem, hne, hpage, htree⟩
  · rw [hgrow]
    refine ⟨?_, h⟩
    rw [UInt16.toNat_add]
    exact Nat.lt_of_le_of_lt (Nat.mod_le _ _) hlt
  · rw [hpage]
    refine ⟨h.free p hmem, hfits, by rwa [hhigh], fun q hq => h.free q ?_⟩
    rw [htree, Radix.pages_delete _ hne] at hq
    exact Finset.mem_of_mem_erase hq

/-- The root is a leaf with `c` slots, -/
structure LeafRoot (root_page_id : UInt16) (pager : Pager) (c : Nat) : Prop where
  ne_zero : root_page_id ≠ 0
  packed : ∃ page, pager_get_page pager root_page_id = some page
    ∧ Packed pager.mem page root_page_id PAGE_INDEX_LEAF c

/-- or an inner page with two slots, -/
structure InnerRoot (root_page_id : UInt16) (pager : Pager) : Prop where
  ne_zero : root_page_id ≠ 0
  packed : ∃ page, pager_get_page pager root_page_id = some page
    ∧ Packed pager.mem page root_page_id PAGE_INDEX_INTERNAL 2

/-- or cannot be read. -/
def LostRoot (root_page_id : UInt16) (pager : Pager) : Prop :=
  pager_get_page pager root_page_id = none

/-- A new root has the two slots that were written to it, or cannot be read. -/
theorem new_root_slots_inner {pager : Pager} {new_root_id : UInt16} (hne : new_root_id ≠ 0)
    (left_page_id new_page_id : UInt16) (junk : Junk) :
    let pager₁ := ((init_index_internal_page pager new_root_id).map Prod.snd).getD pager
    let pager₂ := new_root_slots pager₁ new_root_id left_page_id new_page_id junk
    InnerRoot new_root_id pager₂ ∨ LostRoot new_root_id pager₂ := by
  intro pager₁ pager₂
  cases hinit : init_index_internal_page pager new_root_id with
  | none =>
      -- the new root cannot be read
      have hlost : LostRoot new_root_id pager := init_index_page_eq_none hinit
      exact Or.inr hlost
  | some r =>
      obtain ⟨page, pager'⟩ := r
      obtain ⟨hpage, hpacked, -⟩ := init_index_page_packed hinit
      have hpager₁ : pager₁ = pager' := by
        simp only [pager₁, hinit, Option.map_some, Option.getD_some]
      obtain ⟨m₁, hwrite₁, hpacked₁, -⟩ := write_index_slot_packed hpacked hpage
        { read_index_slot pager' new_page_id 0 .zero with next_page_id := left_page_id } (junk.call 0)
      have hpacked₁ : Packed (pager'.withMem m₁).mem page new_root_id PAGE_INDEX_INTERNAL 1 :=
        hpacked₁
      obtain ⟨m₂, hwrite₂, hpacked₂, -⟩ := write_index_slot_packed hpacked₁ hpage
        { read_index_slot pager' new_page_id 0 .zero with next_page_id := new_page_id } (junk.call 1)
      left
      refine ⟨hne, page, hpage, ?_⟩
      simp only [pager₂, hpager₁, new_root_slots, hwrite₁, hwrite₂]
      exact hpacked₂

theorem update_parent_root {pager : Pager} {root_page_id : UInt16} {page : Nat}
    (hleft : PagesLeft pager) (hlabel : header_page_id pager.mem page = root_page_id)
    (new_page_id : UInt16) (junk : Junk) :
    let r := update_parent pager root_page_id page new_page_id junk
    InnerRoot r.2.1 r.2.2 ∨ LostRoot r.2.1 r.2.2 := by
  simp only [update_parent, if_pos hlabel, if_neg hleft.get_free_page.1]
  exact new_root_slots_inner hleft.get_free_page.1 _ _ _

/-- A new root that can be read is an inner page. -/
theorem update_parent_inner {pager : Pager} {root_page_id : UInt16} {page : Nat}
    (hleft : ReadableLeft pager) (hlabel : header_page_id pager.mem page = root_page_id)
    (new_page_id : UInt16) (junk : Junk) :
    let r := update_parent pager root_page_id page new_page_id junk
    r.1 = PSQL_STATUS_OK ∧ InnerRoot r.2.1 r.2.2 := by
  have hne := hleft.pagesLeft.get_free_page.1
  have hroot := update_parent_root hleft.pagesLeft hlabel new_page_id junk
  simp only [update_parent, if_pos hlabel, if_neg hne] at hroot ⊢
  refine ⟨trivial, hroot.resolve_right fun hlost => ?_⟩
  rw [LostRoot, pager_get_page, if_neg (Nat.not_le.mpr hleft.get_free_page.1)] at hlost
  cases hlost

section InsertLeaf

variable {pager : Pager} {root_page_id : UInt16} {page c : Nat}
  (hpage : pager_get_page pager root_page_id = some page)
  (hpacked : Packed pager.mem page root_page_id PAGE_INDEX_LEAF c)

include hpage hpacked

/-- **An insertion into a leaf with room** puts one slot more on it. -/
theorem insert_leaf_room (hroom : c < 67) (key : List UInt8) (data_page_id : UInt16)
    (data_slot_id : UInt8) (junk : Junk) :
    ∃ m', insert_leaf pager root_page_id page key data_page_id data_slot_id junk
        = (PSQL_STATUS_OK, root_page_id, pager.withMem m')
      ∧ Packed m' page root_page_id PAGE_INDEX_LEAF (c + 1)
      ∧ pager.mem.SameOff page (page + PAGE_SIZE) m' := by
  obtain ⟨m', hwrite, hpacked', hsame⟩ := write_index_slot_packed hpacked hpage
    { IndexSlotData.zero with
      key := padded_key key, next_page_id := data_page_id, next_slot_id := data_slot_id }
    (junk.call 1)
  rw [Nat.min_eq_left (by omega)] at hpacked'
  refine ⟨m', ?_, hpacked', hsame⟩
  simp only [insert_leaf, hpacked.label, hwrite, Pager.withMem_mem, hpacked'.used_space,
    FULL_THRESHOLD_10, MAX_USABLE_PAGE_SIZE_eq]
  rw [if_neg (by omega)]

/-- **Splitting a root that is a leaf**: a page handed out for the new leaf is given back when
it cannot be read, and otherwise the old leaf is labelled as before. -/
theorem split_leaf_root (hne : root_page_id ≠ 0) (hfits : pager.ListFits)
    (hnew0 : (get_free_page pager).1 ≠ 0) (junk : Junk) :
    let new_leaf_id := (get_free_page pager).1
    let pager₁ := (get_free_page pager).2
    let r := btree_split_leaf pager root_page_id junk
    ¬ new_leaf_id.toNat < MAX_PAGES
        ∧ r = (PSQL_STATUS_IO_ERROR, 0, mark_page_free pager₁ new_leaf_id)
      ∨ new_leaf_id.toNat < MAX_PAGES ∧ ∃ m', r = (PSQL_STATUS_OK, new_leaf_id, pager₁.withMem m')
        ∧ header_page_id m' page = root_page_id ∧ SameHeader pager₁.mem m' := by
  have hpage0 := page_ne_zero hne hpage
  have hpacked₁ : Packed (get_free_page pager).2.mem page root_page_id PAGE_INDEX_LEAF c :=
    hpacked.frame (get_free_page_frame pager hfits) (Or.inl hpage0)
  simp only [btree_split_leaf, hpage, hpacked.leaf.1, not_true_eq_false, if_false, if_neg hnew0]
  generalize hnext : get_free_page pager = next at *
  obtain ⟨new_leaf_id, pager₁⟩ := next
  cases hinit : init_index_leaf_page pager₁ new_leaf_id with
  | none =>
      -- the new page cannot be read: it is freed again
      have hunreadable := init_index_page_eq_none hinit
      refine Or.inl ⟨fun hread => ?_, rfl⟩
      rw [pager_get_page, if_neg (Nat.not_le.mpr hread)] at hunreadable
      cases hunreadable
  | some r =>
      obtain ⟨new_leaf, pager₂⟩ := r
      obtain ⟨hnew, hempty, hsame⟩ := init_index_page_packed hinit
      obtain ⟨m₂, rfl⟩ := init_index_page_withMem hinit
      have hnew_page := page_ne_zero hnew0 hnew
      have hold : pager_get_page (pager₁.withMem m₂) root_page_id = some page := hpage
      -- the new leaf is another page, or the root itself
      obtain ⟨c', hpacked₂⟩ : ∃ c', Packed (pager₁.withMem m₂).mem page root_page_id
          PAGE_INDEX_LEAF c' := by
        by_cases heq : root_page_id = new_leaf_id
        · subst heq
          obtain rfl : page = new_leaf := Option.some.inj (hold.symm.trans hnew)
          exact ⟨0, hempty⟩
        · have hapart := pages_apart heq
          rw [← (pager_get_page_eq_some hold).2, ← (pager_get_page_eq_some hnew).2] at hapart
          exact ⟨c, hpacked₁.frame hsame (by omega)⟩
      obtain ⟨m', hsplit, hlabel, hheader⟩ :=
        split_slots_keeps hold hnew hne hnew0 hpacked₂.directoryOk hempty junk
      refine Or.inr ⟨(pager_get_page_eq_some hnew).1, m', ?_, hlabel,
        SameHeader.trans (sameHeader_of_sameOff hsame hnew_page) hheader⟩
      simp only [hsplit]
      rfl

/-- **Any insertion into a root that is a leaf**, while page numbers are left. -/
theorem insert_leaf_root (hne : root_page_id ≠ 0) (hleft : PagesLeft pager) (key : List UInt8)
    (data_page_id : UInt16) (data_slot_id : UInt8) (junk : Junk) :
    let r := insert_leaf pager root_page_id page key data_page_id data_slot_id junk
    LeafRoot r.2.1 r.2.2 (min (c + 1) 68) ∧ PagesLeft r.2.2
      ∨ InnerRoot r.2.1 r.2.2 ∨ LostRoot r.2.1 r.2.2 := by
  obtain ⟨m', hwrite, hpacked', hsame⟩ := write_index_slot_packed hpacked hpage
    { IndexSlotData.zero with
      key := padded_key key, next_page_id := data_page_id, next_slot_id := data_slot_id }
    (junk.call 1)
  have hpage' : pager_get_page (pager.withMem m') root_page_id = some page := hpage
  have hheader := sameHeader_of_sameOff hsame (page_ne_zero hne hpage)
  have hleft' : PagesLeft (pager.withMem m') := hleft.of_sameHeader hheader
  have hstay : LeafRoot root_page_id (pager.withMem m') (min (c + 1) 68) :=
    ⟨hne, page, hpage', hpacked'⟩
  simp only [insert_leaf, hpacked.label, hwrite, Pager.withMem_mem, hpacked'.label]
  split
  next =>
    -- the leaf is full
    rcases split_leaf_root hpage' hpacked' hne hleft'.fits hleft'.get_free_page.1 (junk.call 2) with
      ⟨-, hsplit⟩ | ⟨-, m₁, hsplit, hlabel₁, hheader₁⟩
    · have hpacked₁ := (hpacked'.frame (get_free_page_frame _ hleft'.fits)
        (Or.inl (page_ne_zero hne hpage))).frame (mark_page_free_frame _ (get_free_page (pager.withMem m')).1)
        (Or.inl (page_ne_zero hne hpage))
      rw [hsplit]
      exact Or.inl ⟨⟨hne, page, hpage, hpacked₁⟩, hleft'.get_free_page.2.mark_page_free _⟩
    · rw [hsplit]
      have hleft₁ : PagesLeft ((get_free_page (pager.withMem m')).2.withMem m₁) :=
        hleft'.get_free_page.2.of_sameHeader hheader₁
      exact Or.inr (update_parent_root hleft₁ hlabel₁ _ (junk.call 3))
  next => exact Or.inl ⟨hstay, hleft'⟩

/-- **An insertion into a full root** puts an inner page above it. -/
theorem insert_leaf_full (hne : root_page_id ≠ 0) (hleft : ReadableLeft pager) (hfull : 67 ≤ c)
    (key : List UInt8) (data_page_id : UInt16) (data_slot_id : UInt8) (junk : Junk) :
    let r := insert_leaf pager root_page_id page key data_page_id data_slot_id junk
    r.1 = PSQL_STATUS_OK ∧ InnerRoot r.2.1 r.2.2 := by
  obtain ⟨m', hwrite, hpacked', hsame⟩ := write_index_slot_packed hpacked hpage
    { IndexSlotData.zero with
      key := padded_key key, next_page_id := data_page_id, next_slot_id := data_slot_id }
    (junk.call 1)
  rw [Nat.min_eq_right (by omega)] at hpacked'
  have hpage' : pager_get_page (pager.withMem m') root_page_id = some page := hpage
  have hleft' : ReadableLeft (pager.withMem m') :=
    hleft.of_sameHeader (sameHeader_of_sameOff hsame (page_ne_zero hne hpage))
  have hsplits : 10 * USED_SPACE m' page > FULL_THRESHOLD_10 := by
    rw [hpacked'.used_space, FULL_THRESHOLD_10, MAX_USABLE_PAGE_SIZE_eq]
    decide
  have hreadable := hleft'.get_free_page
  obtain ⟨-, m₁, hsplit, hlabel₁, hheader₁⟩ := (split_leaf_root hpage' hpacked' hne hleft'.fits
    hleft'.pagesLeft.get_free_page.1 (junk.call 2)).resolve_left fun h => h.1 hreadable.1
  simp only [insert_leaf, hpacked.label, hwrite, Pager.withMem_mem, hpacked'.label, if_pos hsplits,
    hsplit, ne_eq, not_true_eq_false, if_false]
  have hleft₁ : ReadableLeft ((get_free_page (pager.withMem m')).2.withMem m₁) :=
    hreadable.2.of_sameHeader hheader₁
  exact update_parent_inner hleft₁ hlabel₁ _ (junk.call 3)

end InsertLeaf

end PreSeQL.Index
