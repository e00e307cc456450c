/-
  PreSeQL.Pager.NewPages — the numbers of new pages.

  The file grows without a limit, while a page number has 16 bits and
  `pager_get_page` takes those below `MAX_PAGES`.  `ftruncate` comes before the calls
  that replace the mapping, and is not undone when one of them fails.

    • `Growth` — the three outcomes of a call, the same for one page and for several,
    • `Growth.numbers_iff` — which of them return a true number,
    • `new_page_numbers_iff` — both functions, at every length of the file.
-/
import PreSeQL.Pager.Mapping

namespace PreSeQL.Db

open PreSeQL.Lib

/-! ## §1. Results. -/

/-- The file is longer by `num_pages` pages, and the number is that of the last one, which
`pager_get_page` takes. -/
structure Extended (n num_pages : Nat) (r : UInt16 × Pager) : Prop where
  length : r.2.db_pager.file_end = (n + num_pages) * PAGE_SIZE
  number : r.1.toNat = n + num_pages - 1
  accepted : ∃ page, pager_get_page r.2 r.1 = some page ∧ n * PAGE_SIZE ≤ page
    ∧ page + PAGE_SIZE ≤ r.2.db_pager.file_end

/-- The result of growing a file of `n` pages is 0 with the length unchanged, or the true
number of a new page. -/
structure Numbers (n num_pages : Nat) (r : UInt16 × Pager) : Prop where
  result : r.1 = 0 ∧ r.2.db_pager.file_end = n * PAGE_SIZE ∨ Extended n num_pages r
  not_old : r.1 ≠ 0 → n ≤ r.1.toNat

/-- The length asked for, in 64-bit arithmetic. -/
def grown_size (n num_pages : Nat) : Nat :=
  (n * PAGE_SIZE + num_pages * PAGE_SIZE % 2 ^ 64) % 2 ^ 64

/-- The file is not touched. -/
def Refused (sys : Syscalls) (new_size : Nat) : Prop :=
  sys.lseek = false ∨ sys.ftruncate = false ∨ 2 ^ 63 ≤ new_size

/-- The mapping is replaced. -/
def Remaps (sys : Syscalls) : Prop := sys.munmap = true ∧ sys.mmap = true

/-- The condition of a growth by `num_pages` pages.  The last two lines are about a length
that wraps around to the present one, and about the first page of an empty file. -/
def GrowsTruly (sys : Syscalls) (n num_pages : Nat) : Prop :=
  Refused sys (grown_size n num_pages)
  ∨ Remaps sys ∧ n + num_pages ≤ MAX_PAGES
  ∨ grown_size n num_pages = n * PAGE_SIZE ∧ (Remaps sys → n % 2 ^ 16 = 1)
  ∨ ¬ Remaps sys ∧ n + num_pages = 1

/-! ## §2. Outcomes. -/

/-- What comes of a call that asks for `new_size` and means to return `page_no`. -/
inductive Growth (sys : Syscalls) (pager : Pager) (new_size : Nat) (page_no : UInt16) :
    UInt16 × Pager → Prop where
  | refused : Refused sys new_size → Growth sys pager new_size page_no (0, pager)
  | lost {pager' : Pager} : ¬ Refused sys new_size → ¬ Remaps sys →
      pager'.db_pager.file_end = new_size → Growth sys pager new_size page_no (0, pager')
  | grown {pager' : Pager} : ¬ Refused sys new_size → Remaps sys →
      pager'.db_pager.file_end = new_size → Growth sys pager new_size page_no (page_no, pager')

/-- The common end of both functions. -/
theorem growth_resize (sys : Syscalls) (pager : Pager) (new_size : Nat) (page_no : UInt16)
    (hlseek : ¬ sys.lseek = false) :
    Growth sys pager new_size page_no
      (match resize_mmap sys pager.db_pager new_size with
        | (db, false) => (0, { pager with db_pager := db })
        | (db, true) => (page_no, { pager with db_pager := db })) := by
  unfold resize_mmap
  by_cases htrunc : sys.ftruncate = false ∨ 2 ^ 63 ≤ new_size
  · rw [if_pos htrunc]
    exact .refused (Or.inr htrunc)
  · have hgoes : ¬ Refused sys new_size := not_or.mpr ⟨hlseek, htrunc⟩
    rw [if_neg htrunc]
    by_cases hmunmap : sys.munmap = false
    · rw [if_pos hmunmap]
      exact .lost hgoes (fun h => Bool.false_ne_true (hmunmap.symm.trans h.1)) rfl
    rw [if_neg hmunmap]
    by_cases hmmap : sys.mmap = false
    · rw [if_pos hmmap]
      exact .lost hgoes (fun h => Bool.false_ne_true (hmmap.symm.trans h.2)) rfl
    · rw [if_neg hmmap]
      exact .grown hgoes ⟨Bool.eq_true_of_not_eq_false hmunmap,
        Bool.eq_true_of_not_eq_false hmmap⟩ rfl

theorem growth_one (sys : Syscalls) (pager : Pager) :
    Growth sys pager (pager.db_pager.file_end + PAGE_SIZE)
      (UInt16.ofNat (pager.db_pager.file_end / PAGE_SIZE)) (allocate_new_db_page sys pager) := by
  unfold allocate_new_db_page
  by_cases hlseek : sys.lseek = false
  · rw [if_pos hlseek]
    exact .refused (Or.inl hlseek)
  · rw [if_neg hlseek]
    exact growth_resize sys pager _ _ hlseek

theorem growth_pages (sys : Syscalls) (pager : Pager) {num_pages : Nat} (h : num_pages ≠ 0) :
    Growth sys pager ((pager.db_pager.file_end + num_pages * PAGE_SIZE % 2 ^ 64) % 2 ^ 64)
      (UInt16.ofNat ((UInt16.ofNat (pager.db_pager.file_end / PAGE_SIZE)).toNat + num_pages - 1))
      (allocate_new_db_pages sys pager num_pages) := by
  unfold allocate_new_db_pages
  rw [if_neg h]
  by_cases hlseek : sys.lseek = false
  · rw [if_pos hlseek]
    exact .refused (Or.inl hlseek)
  · rw [if_neg hlseek]
    exact growth_resize sys pager _ _ hlseek

/-! ## §3. True numbers. -/

section

variable {sys : Syscalls} {pager : Pager} {n num_pages : Nat} {page_no : UInt16} {r : UInt16 × Pager}

/-- A length that asks for no more pages than there are numbers does not wrap. -/
theorem grown_size_eq (h : n + num_pages ≤ MAX_PAGES) :
    grown_size n num_pages = (n + num_pages) * PAGE_SIZE := by
  simp only [MAX_PAGES] at h
  simp only [grown_size, PAGE_SIZE]
  omega

theorem Numbers.of_extended (h1 : 1 ≤ num_pages) (h : Extended n num_pages r) :
    Numbers n num_pages r := by
  refine ⟨Or.inr h, fun _ => ?_⟩
  rw [h.number]
  omega

/-- The pages added have numbers up to `MAX_PAGES`. -/
theorem extended_iff (h1 : 1 ≤ num_pages) (hnumber : r.1.toNat = (n + num_pages - 1) % 2 ^ 16)
    (hlength : r.2.db_pager.file_end = grown_size n num_pages) :
    Extended n num_pages r ↔ n + num_pages ≤ MAX_PAGES := by
  constructor
  · rintro ⟨-, hexact, page, hpage, -, -⟩
    obtain ⟨hlt, -⟩ := pager_get_page_eq_some hpage
    simp only [MAX_PAGES] at hlt ⊢
    omega
  · intro hfits
    have hsize := grown_size_eq hfits
    have hexact : r.1.toNat = n + num_pages - 1 := by
      simp only [MAX_PAGES] at hfits
      omega
    have hread : r.1.toNat < MAX_PAGES := by omega
    refine ⟨hlength.trans hsize, hexact, r.1.toNat * PAGE_SIZE, if_neg (Nat.not_le.mpr hread), ?_, ?_⟩
    · rw [hexact]
      exact Nat.mul_le_mul_right _ (by omega)
    · rw [hlength, hsize, hexact, ← Nat.succ_mul]
      exact Nat.mul_le_mul_right _ (by omega)

/-- **Each outcome** against the condition. -/
theorem Growth.numbers_iff (h1 : 1 ≤ num_pages) (hfile : pager.db_pager.file_end = n * PAGE_SIZE)
    (hnumber : page_no.toNat = (n + num_pages - 1) % 2 ^ 16)
    (h : Growth sys pager (grown_size n num_pages) page_no r) :
    Numbers n num_pages r ↔ GrowsTruly sys n num_pages := by
  cases h with
  | refused hrefused => exact iff_of_true ⟨Or.inl ⟨rfl, hfile⟩, fun h => absurd rfl h⟩ (Or.inl hrefused)
  | @lost pager' hgoes hlost hlength =>
      unfold GrowsTruly
      rw [or_iff_right hgoes, or_iff_right fun h => hlost h.1, and_iff_left fun h => absurd h hlost,
        and_iff_right hlost]
      constructor
      · rintro ⟨⟨-, hsame⟩ | hextended, -⟩
        · exact Or.inl (hlength.symm.trans hsame)
        · -- 0 is the number of the last page
          have hzero : 0 = n + num_pages - 1 := hextended.number
          exact Or.inr (by omega)
      · rintro (hsame | hone)
        · exact ⟨Or.inl ⟨rfl, hlength.trans hsame⟩, fun h => absurd rfl h⟩
        · refine .of_extended h1 ((extended_iff h1 ?_ hlength).mpr ?_)
          · rw [hone]
            rfl
          · rw [hone]
            decide
  | @grown pager' hgoes hremaps hlength =>
      unfold GrowsTruly
      rw [or_iff_right hgoes, and_iff_right hremaps]
      -- the mapping is there: the length wrapped around, or the numbers fit
      have hwrap : page_no = 0 ∧ pager'.db_pager.file_end = n * PAGE_SIZE ↔
          grown_size n num_pages = n * PAGE_SIZE ∧ n % 2 ^ 16 = 1 := by
        rw [hlength, ← UInt16.toNat_inj, hnumber, and_comm]
        refine and_congr_right fun hsame => ?_
        simp only [grown_size, PAGE_SIZE, UInt16.toNat_zero] at hsame ⊢
        omega
      have hfits : Extended n num_pages (page_no, pager') ↔ n + num_pages ≤ MAX_PAGES :=
        extended_iff h1 hnumber hlength
      constructor
      · rintro ⟨hzero | hextended, -⟩
        · obtain ⟨hsame, hone⟩ := hwrap.mp hzero
          exact Or.inr (Or.inl ⟨hsame, fun _ => hone⟩)
        · exact Or.inl (hfits.mp hextended)
      · rintro (hle | ⟨hsame, hone⟩ | ⟨hlost, -⟩)
        · exact .of_extended h1 (hfits.mpr hle)
        · have hzero := hwrap.mpr ⟨hsame, hone hremaps⟩
          exact ⟨Or.inl hzero, fun h => absurd hzero.1 h⟩
        · exact absurd hremaps hlost

end

/-- **The numbers of new pages are true** exactly when the growth is refused at once, or
the mapping is replaced and no page number reaches `MAX_PAGES` (or nothing grows at all).
The length of a file is an `off_t`. -/
theorem new_page_numbers_iff (sys : Syscalls) (pager : Pager) {n : Nat}
    (hfile : pager.db_pager.file_end = n * PAGE_SIZE) (hoff : n * PAGE_SIZE < 2 ^ 63) :
    (Numbers n 1 (allocate_new_db_page sys pager) ↔ GrowsTruly sys n 1)
    ∧ ∀ num_pages : UInt64, 1 ≤ num_pages →
        (Numbers n num_pages.toNat (allocate_new_db_pages sys pager num_pages.toNat)
          ↔ GrowsTruly sys n num_pages.toNat) := by
  have hdiv : pager.db_pager.file_end / PAGE_SIZE = n := by
    rw [hfile]
    exact Nat.mul_div_cancel n (by decide)
  constructor
  · have hgrowth := growth_one sys pager
    have hsize : pager.db_pager.file_end + PAGE_SIZE = grown_size n 1 := by
      rw [hfile]
      simp only [grown_size, PAGE_SIZE] at hoff ⊢
      omega
    rw [hsize, hdiv] at hgrowth
    exact hgrowth.numbers_iff (Nat.le_refl _) hfile UInt16.toNat_ofNat'
  · intro num_pages h1
    have hpos : 1 ≤ num_pages.toNat := UInt64.le_iff_toNat_le.mp h1
    have hgrowth := growth_pages sys pager (Nat.ne_of_gt hpos)
    rw [hfile, ← grown_size, ← hfile, hdiv] at hgrowth
    refine hgrowth.numbers_iff hpos hfile ?_
    rw [UInt16.toNat_ofNat', UInt16.toNat_ofNat']
    omega

/-- The first pages of a new file. -/
theorem new_page_numbers_iff_fresh :
    Numbers 1 1 (allocate_new_db_page .ok fresh_pager)
    ∧ Numbers 1 4 (allocate_new_db_pages .ok fresh_pager 4) :=
  ⟨(new_page_numbers_iff .ok fresh_pager (n := 1) rfl (by decide)).1.mpr
      (Or.inr (Or.inl ⟨⟨rfl, rfl⟩, by decide⟩)),
    ((new_page_numbers_iff .ok fresh_pager (n := 1) rfl (by decide)).2 4 (by decide)).mpr
      (Or.inr (Or.inl ⟨⟨rfl, rfl⟩, by decide⟩))⟩

/-- A file of `n` pages. -/
def file_of_pages (n : Nat) : Pager :=
  { fresh_pager with db_pager := { fresh_pager.db_pager with
      file_end := n * PAGE_SIZE, mapped := some (n * PAGE_SIZE), file_size := n * PAGE_SIZE } }

/-- The page behind 65537 others gets the number of a catalog page; and a file whose new
mapping fails has grown all the same. -/
theorem page_number_wraps :
    (allocate_new_db_page .ok (file_of_pages 65537)).1 = 1
    ∧ ¬ Numbers 65537 1 (allocate_new_db_page .ok (file_of_pages 65537))
    ∧ (allocate_new_db_page ⟨true, true, true, false⟩ (file_of_pages 5)).1 = 0
    ∧ (allocate_new_db_page ⟨true, true, true, false⟩ (file_of_pages 5)).2.db_pager.file_end
      = 6 * PAGE_SIZE
    ∧ ¬ Numbers 5 1 (allocate_new_db_page ⟨true, true, true, false⟩ (file_of_pages 5)) := by
  have hwrap : (allocate_new_db_page .ok (file_of_pages 65537)).1 = 1 := by decide +kernel
  have hlost : (allocate_new_db_page ⟨true, true, true, false⟩ (file_of_pages 5)).2.db_pager.file_end
      = 6 * PAGE_SIZE := by decide +kernel
  refine ⟨hwrap, fun h => ?_, by decide +kernel, hlost, fun h => ?_⟩
  · have hold := h.not_old (by rw [hwrap]; decide)
    rw [hwrap] at hold
    exact absurd hold (by decide)
  · rcases h.result with ⟨-, hsame⟩ | hextended
    · rw [hlost] at hsame
      exact absurd hsame (by decide)
    · have hnumber := hextended.number
      exact absurd hnumber (by decide +kernel)

end PreSeQL.Db
