/-
  PreSeQL.Pager.Neighbour — what initialising a page does to the bytes around it.

  `DBPage` is two bytes longer than `PAGE_SIZE`, so `allocate_page` clears `page_id` of
  the page behind the one it initialises.

    • `allocate_page_next_page_id` — the number of the next page afterwards,
    • `allocate_page_frame_iff` — when nothing but the page and `highest_page` changes.
-/
import PreSeQL.Pager.ReadOnly

namespace PreSeQL.Db

open PreSeQL.Lib PreSeQL.Lib.Mem

/-- Nothing outside the page changes, other than `highest_page`. -/
def TouchesOnly (page_no : UInt16) (m m' : Mem) : Prop :=
  ∀ i, (i < page_no.toNat * PAGE_SIZE ∨ (page_no.toNat + 1) * PAGE_SIZE ≤ i) →
    (i < DatabaseHeader.highest_page database_header
      ∨ DatabaseHeader.highest_page database_header + 2 ≤ i) → m' i = m i

/-- `page->header.page_id` of the page behind. -/
def next_page_id (m : Mem) (page_no : UInt16) : UInt16 :=
  m.load16 (DBPageHeader.page_id ((page_no.toNat + 1) * PAGE_SIZE))

variable (pager : Pager) {page_no : UInt16} (flag : UInt8)

/-- Recording the page changes `highest_page` only. -/
theorem mark_page_used_touches (page_no : UInt16) :
    pager.mem.SameOff (DatabaseHeader.highest_page database_header)
      (DatabaseHeader.highest_page database_header + 2) (mark_page_used pager page_no).mem := by
  rw [mark_page_used_mem]
  split
  · exact sameOff_store _ _ _ _
  · exact SameOff.refl _ _ _

/-- The last two bytes cleared are the number of the next page. -/
theorem allocate_page_next_page_id (h : 1 ≤ page_no) :
    next_page_id (allocate_page pager page_no flag).2.mem page_no = 0 := by
  have hpos : 1 ≤ page_no.toNat := UInt16.le_iff_toNat_le.mp h
  have hfresh := freshPage_allocate_page_header pager.mem (page_no.toNat * PAGE_SIZE) page_no flag
  have hsame := mark_page_used_touches (pager.withMem (allocate_page_header pager.mem
    (page_no.toNat * PAGE_SIZE) page_no flag)) page_no
  have hlater : next_page_id (allocate_page pager page_no flag).2.mem page_no
      = next_page_id (allocate_page_header pager.mem (page_no.toNat * PAGE_SIZE) page_no flag)
          page_no :=
    hsame.load16 (Or.inr (by simp; omega))
  have hclear : ∀ j < 2, allocate_page_header pager.mem (page_no.toNat * PAGE_SIZE) page_no flag
      ((page_no.toNat + 1) * PAGE_SIZE + j) = 0 :=
    fun j hj => hfresh.rest _ (Or.inr (by simp; omega))
  have hfirst := hclear 0 (by decide)
  have hsecond := hclear 1 (by decide)
  rw [hlater, next_page_id, ← UInt16.toNat_inj, load16_toNat]
  simp only [Nat.add_zero] at hfirst
  simp only [DBPageHeader.page_id, Mem.load, hfirst, hsecond]
  rfl

/-- **Initialising a page touches that page only** when the next page has number 0. -/
theorem allocate_page_frame_iff (h : 1 ≤ page_no) :
    TouchesOnly page_no pager.mem (allocate_page pager page_no flag).2.mem
      ↔ next_page_id pager.mem page_no = 0 := by
  have hpos : 1 ≤ page_no.toNat := UInt16.le_iff_toNat_le.mp h
  have hcleared := allocate_page_next_page_id pager flag h
  constructor
  · -- the two bytes are among those that do not change
    intro htouches
    rw [← hcleared]
    refine congrArg UInt16.ofNat (load_congr 2 _ fun i h₁ h₂ => ?_).symm
    refine htouches i (Or.inr h₁) (Or.inr ?_)
    simp only [DBPageHeader.page_id, DatabaseHeader.highest_page, database_header, DBPage.data,
      DBPageHeader.sizeof, PAGE_SIZE] at h₁ ⊢
    omega
  · intro hzero i hout hhigh
    have hheader := sameOff_allocate_page_header pager.mem (page_no.toNat * PAGE_SIZE) page_no flag
    have hused := mark_page_used_touches (pager.withMem (allocate_page_header pager.mem
      (page_no.toNat * PAGE_SIZE) page_no flag)) page_no i hhigh
    by_cases hin : (page_no.toNat + 1) * PAGE_SIZE ≤ i
        ∧ i < (page_no.toNat + 1) * PAGE_SIZE + 2
    · exact eq_of_load16_eq (hcleared.trans hzero.symm) hin.1 hin.2
    · refine hused.trans (hheader i ?_)
      simp only [PAGE_SIZE, DBPage.sizeof, DBPageHeader.sizeof, MAX_USABLE_PAGE_SIZE,
        MAX_PAGE_HEADER_SIZE, MAX_JOURNAL_HEADER_SIZE] at hout hin ⊢
      omega

/-- Page 1 of a file that is new. -/
theorem allocate_page_frame_iff_fresh :
    TouchesOnly 1 fresh_pager.mem (allocate_page fresh_pager 1 PAGE_DATA).2.mem :=
  (allocate_page_frame_iff fresh_pager PAGE_DATA (by decide)).mpr (by decide)

/-- Page 2 is initialised, then page 1: page 2 has lost its number. -/
theorem next_page_id_cleared :
    let pager := (init_data_page fresh_pager 2).2
    let pager' := (init_data_page pager 1).2
    pager.mem.load16 (DBPageHeader.page_id (2 * PAGE_SIZE)) = 2
    ∧ pager'.mem.load16 (DBPageHeader.page_id (2 * PAGE_SIZE)) = 0
    ∧ ¬ TouchesOnly 1 pager.mem pager'.mem := by
  intro pager pager'
  have hbefore : pager.mem.load16 (DBPageHeader.page_id (2 * PAGE_SIZE)) = 2 := by decide +kernel
  have hafter : pager'.mem.load16 (DBPageHeader.page_id (2 * PAGE_SIZE)) = 0 :=
    allocate_page_next_page_id pager PAGE_DATA (by decide)
  refine ⟨hbefore, hafter, fun htouches => ?_⟩
  -- both bytes lie behind page 1 and page 0
  have hsame : pager'.mem.load16 (DBPageHeader.page_id (2 * PAGE_SIZE))
      = pager.mem.load16 (DBPageHeader.page_id (2 * PAGE_SIZE)) :=
    congrArg UInt16.ofNat (load_congr 2 _ fun i h₁ _ =>
      htouches i (Or.inr h₁) (Or.inr (Nat.le_trans (by decide) h₁)))
  rw [hafter, hbefore] at hsame
  exact absurd hsame (by decide)

end PreSeQL.Db
