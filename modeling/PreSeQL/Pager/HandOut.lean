/-
  PreSeQL.Pager.HandOut — no page is handed out twice.

  Pages come from two places: `get_free_page` (a tracked free page, else
  `highest_page + 1`) and `allocate_new_db_page` (the end of the file).  A page is
  initialised as soon as it is handed out.  `allocate_page` records it in
  `highest_page`; the initialisers of `index_page.c` do not, and the two places do
  not know of each other.

  §1 is the run with its trace of uses, §2 the invariant, §3 the conditions under
  which a step keeps it, §4 the law for runs.
-/
import PreSeQL.Pager.NewDb

namespace PreSeQL.Db

open PreSeQL.Lib PreSeQL.Lib.Run PreSeQL.Radix

/-! ## §1. Runs. -/

inductive Initialiser where
  | index_leaf | index_internal | data | overflow

/-- The initialisers that go through `allocate_page`. -/
def Initialiser.Records : Initialiser → Prop
  | data | overflow => True
  | index_leaf | index_internal => False

/-- The pager after the page was initialised; an index initialiser refuses a page number
that `pager_get_page` refuses, and changes nothing then. -/
def Initialiser.run (pager : Pager) (page_no : UInt16) : Initialiser → Pager
  | index_leaf => ((Index.init_index_leaf_page pager page_no).map Prod.snd).getD pager
  | index_internal => ((Index.init_index_internal_page pager page_no).map Prod.snd).getD pager
  | data => (init_data_page pager page_no).2
  | overflow => (init_overflow_page pager page_no).2

inductive HandOutOp where
  | get_free_page (init : Initialiser)
  | allocate_new_db_page (sys : Syscalls) (init : Initialiser)
  | mark_page_free (page_no : UInt16)

/-- Initialise a page that was handed out; 0 stands for no page. -/
def hand_out (init : Initialiser) : UInt16 × Pager → Pager × List (Use UInt16)
  | (page_no, pager) =>
      if page_no = 0 then (pager, []) else (init.run pager page_no, [.acquire page_no])

/-- The pager after a call, and the use of a page it makes. -/
def HandOutOp.run (pager : Pager) : HandOutOp → Pager × List (Use UInt16)
  | .get_free_page init => hand_out init (Db.get_free_page pager)
  | .allocate_new_db_page sys init => hand_out init (Db.allocate_new_db_page sys pager)
  | .mark_page_free page_no => (Db.mark_page_free pager page_no, [.release page_no])

/-- All uses in a run, in order. -/
def uses : Pager → List HandOutOp → List (Use UInt16)
  | _, [] => []
  | pager, op :: ops => (op.run pager).2 ++ uses (op.run pager).1 ops

def HandOutOp.exec (s : Allocation) (op : HandOutOp) : Allocation :=
  ⟨(op.run s.pager).1, (op.run s.pager).2.foldl Use.apply s.in_use⟩

/-- The database created in an empty file. -/
def new_database : Allocation := new_allocation (pager_init_new_db .ok fresh_pager).2

/-! ## §2. The invariant. -/

/-- Free pages and pages in use are different and both are recorded, but for the free pages
that were loaded from an old header. -/
structure Allocation.Sound (loaded : Finset UInt16) (s : Allocation) : Prop where
  tree : TreeOk s.pager.free_page_map.tree
  fits : s.pager.ListFits
  free_le : ∀ p ∈ pages s.pager.free_page_map.tree, p ∈ loaded ∨ p ≤ s.pager.highest_page
  used_le : ∀ p ∈ s.in_use, p ≤ s.pager.highest_page
  used_ne : 0 ∉ s.in_use
  disjoint : Disjoint (pages s.pager.free_page_map.tree) s.in_use
  file : PAGE_SIZE ≤ s.pager.db_pager.file_end

theorem allocate_page_keeps (pager : Pager) {page_no : UInt16} (h0 : page_no ≠ 0)
    (flag : UInt8) :
    let pager' := (allocate_page pager page_no flag).2
    pager'.free_page_map = ⟨count_down pager.free_page_map.num_frees,
        radix_tree_delete pager.free_page_map.tree page_no⟩
    ∧ pager'.highest_page = max pager.highest_page page_no
    ∧ pager'.free_page_count = pager.free_page_count
    ∧ pager'.db_pager.file_end = pager.db_pager.file_end := by
  obtain ⟨hhigh, hcount⟩ := allocate_page_header_spec pager h0 flag
  exact ⟨allocate_page_map _ _ _, hhigh, hcount, allocate_page_file_end _ _ _⟩

theorem Initialiser.run_records (pager : Pager) {page_no : UInt16} (h0 : page_no ≠ 0)
    {init : Initialiser} (h : init.Records) :
    (init.run pager page_no).free_page_map
        = ⟨count_down pager.free_page_map.num_frees,
            radix_tree_delete pager.free_page_map.tree page_no⟩
    ∧ (init.run pager page_no).highest_page = max pager.highest_page page_no
    ∧ (init.run pager page_no).free_page_count = pager.free_page_count
    ∧ (init.run pager page_no).db_pager.file_end = pager.db_pager.file_end := by
  cases init with
  | index_leaf => cases h
  | index_internal => cases h
  | data => exact allocate_page_keeps pager h0 _
  | overflow => exact allocate_page_keeps pager h0 _

theorem init_index_page_keeps (pager : Pager) {page_no : UInt16} (h0 : page_no ≠ 0)
    (flag : UInt8) :
    let pager' := ((Index.init_index_page pager page_no flag).map Prod.snd).getD pager
    pager'.free_page_map = pager.free_page_map
    ∧ pager'.highest_page = pager.highest_page
    ∧ pager'.free_page_count = pager.free_page_count
    ∧ pager'.db_pager.file_end = pager.db_pager.file_end := by
  cases hinit : Index.init_index_page pager page_no flag with
  | none => exact ⟨rfl, rfl, rfl, rfl⟩
  | some r =>
      have hsame := sameHeader_init_index_page h0 hinit
      have hrest : r.2.free_page_map = pager.free_page_map
          ∧ r.2.db_pager.file_end = pager.db_pager.file_end := by
        unfold Index.init_index_page at hinit
        split at hinit
        · cases hinit
        · cases hinit
          exact ⟨rfl, rfl⟩
      exact ⟨hrest.1, hsame.highest_page, hsame.free_page_count, hrest.2⟩

theorem Initialiser.run_of_not_records (pager : Pager) {page_no : UInt16} (h0 : page_no ≠ 0)
    {init : Initialiser} (h : ¬ init.Records) :
    (init.run pager page_no).free_page_map = pager.free_page_map
    ∧ (init.run pager page_no).highest_page = pager.highest_page
    ∧ (init.run pager page_no).free_page_count = pager.free_page_count
    ∧ (init.run pager page_no).db_pager.file_end = pager.db_pager.file_end := by
  cases init with
  | index_leaf => exact init_index_page_keeps pager h0 _
  | index_internal => exact init_index_page_keeps pager h0 _
  | data => exact absurd trivial h
  | overflow => exact absurd trivial h

/-- **Initialising** a page puts it in use, provided it is recorded, or neither free nor
beyond `highest_page`. -/
theorem Allocation.Sound.initialise {loaded : Finset UInt16} {pager : Pager} {U : Finset UInt16}
    {page_no : UInt16} {init : Initialiser} (h : Sound loaded ⟨pager, U⟩) (h0 : page_no ≠ 0)
    (hinit : init.Records
      ∨ page_no ∉ pages pager.free_page_map.tree ∧ page_no ≤ pager.highest_page) :
    Sound loaded ⟨init.run pager page_no, insert page_no U⟩ := by
  -- page 0 stands for no page, so it is never in use
  have hne : (0 : UInt16) ∉ insert page_no U := by
    rw [Finset.mem_insert, not_or]
    exact ⟨h0.symm, h.used_ne⟩
  by_cases hrec : init.Records
  · -- the page leaves the tree, and `highest_page` moves up to it
    obtain ⟨hmap, hhigh, hcount, hfile⟩ := init.run_records pager h0 hrec
    have hpages := pages_delete pager.free_page_map.tree h0
    refine ⟨?_, ?_, ?_, ?_, hne, ?_, hfile ▸ h.file⟩
    · rw [hmap]
      exact h.tree.delete h0
    · rw [Pager.ListFits, hcount]
      exact h.fits
    · intro p hp
      rw [hmap, hpages] at hp
      rw [hhigh]
      exact (h.free_le p (Finset.mem_of_mem_erase hp)).imp_right fun hle => le_max_of_le_left hle
    · intro p hp
      rw [hhigh]
      rcases Finset.mem_insert.mp hp with rfl | hp
      · exact le_max_right _ _
      · exact le_trans (h.used_le p hp) (le_max_left _ _)
    · rw [hmap, hpages]
      exact Finset.disjoint_insert_right.mpr
        ⟨Finset.notMem_erase _ _, h.disjoint.mono_left (Finset.erase_subset _ _)⟩
  · -- nothing is recorded, so the page must lie within `highest_page` already
    obtain ⟨hfree, hle⟩ := hinit.resolve_left hrec
    obtain ⟨hmap, hhigh, hcount, hfile⟩ := init.run_of_not_records pager h0 hrec
    refine ⟨hmap ▸ h.tree, ?_, ?_, ?_, hne, ?_, hfile ▸ h.file⟩
    · rw [Pager.ListFits, hcount]
      exact h.fits
    · rw [hmap, hhigh]
      exact h.free_le
    · intro p hp
      rw [hhigh]
      rcases Finset.mem_insert.mp hp with rfl | hp
      · exact hle
      · exact h.used_le p hp
    · rw [hmap]
      exact Finset.disjoint_insert_right.mpr ⟨hfree, h.disjoint⟩

/-! ## §3. One step. -/

/-- Only pages in use are freed. -/
def HandOutOp.Legal (s : Allocation) : HandOutOp → Prop
  | .mark_page_free page_no => page_no ∈ s.in_use
  | _ => True

/-- The hand-outs that are recorded: a tracked page, unless it was loaded from an old header
and lies beyond `highest_page`, or a page that an initialiser going through `allocate_page`
takes; and the end of the file is taken only when it lies beyond `highest_page` and has a
16-bit number. -/
def HandOutOp.Recorded (loaded : Finset UInt16) (s : Allocation) : HandOutOp → Prop
  | .get_free_page init =>
      init.Records
      ∨ s.pager.free_page_map.num_frees > 0 ∧ (pages s.pager.free_page_map.tree).Nonempty
        ∧ (radix_tree_peek_min s.pager.free_page_map.tree ∈ loaded →
          radix_tree_peek_min s.pager.free_page_map.tree ≤ s.pager.highest_page)
  | .allocate_new_db_page sys init =>
      sys = .ok →
        init.Records ∧ s.pager.highest_page.toNat < s.pager.db_pager.file_end / PAGE_SIZE
        ∧ s.pager.db_pager.file_end / PAGE_SIZE < 2 ^ 16
  | .mark_page_free _ => True

/-- What a step owes: the invariant, and that no page in use is handed out. -/
def HandOutOp.Fair (loaded : Finset UInt16) (s : Allocation) (op : HandOutOp) : Prop :=
  (op.exec s).Sound loaded ∧ Use.Exclusive s.in_use (op.run s.pager).2

variable {loaded : Finset UInt16}

theorem hand_out_fair (r : UInt16 × Pager) {U : Finset UInt16} (init : Initialiser)
    (h : Allocation.Sound loaded ⟨r.2, U⟩)
    (hpage : r.1 ≠ 0 → r.1 ∉ U
      ∧ (init.Records ∨ r.1 ∉ pages r.2.free_page_map.tree ∧ r.1 ≤ r.2.highest_page)) :
    (⟨(hand_out init r).1, (hand_out init r).2.foldl Use.apply U⟩ : Allocation).Sound loaded
    ∧ Use.Exclusive U (hand_out init r).2 := by
  obtain ⟨page_no, pager⟩ := r
  unfold hand_out
  by_cases h0 : page_no = 0
  · simp only [if_pos h0]
    exact ⟨h, trivial⟩
  · obtain ⟨hU, hinit⟩ := hpage h0
    simp only [if_neg h0]
    exact ⟨h.initialise h0 hinit, hU, trivial⟩

/-- `highest_page + 1` is beyond `highest_page` unless it wraps to 0. -/
theorem lt_add_one_of_ne_zero {p : UInt16} (h : p + 1 ≠ 0) : p < p + 1 := by
  have hlt : p.toNat < 65536 := p.toNat_lt
  have hadd : (p + 1).toNat = (p.toNat + 1) % 65536 := UInt16.toNat_add p 1
  have hne : (p + 1).toNat ≠ 0 := fun h0 => h (UInt16.toNat_inj.mp h0)
  rw [UInt16.lt_iff_toNat_lt]
  omega

/-- The smallest free page leaves the tree; it was not in use. -/
theorem get_free_page_fair_take {s : Allocation} (h : s.Sound loaded) {init : Initialiser}
    (hpos : s.pager.free_page_map.num_frees > 0)
    (hne : (pages s.pager.free_page_map.tree).Nonempty)
    (hrec : (HandOutOp.get_free_page init).Recorded loaded s) :
    (HandOutOp.get_free_page init).Fair loaded s := by
  obtain ⟨hhigh, hfits⟩ := get_free_page_header s.pager h.fits
  have hfile := get_free_page_file_end s.pager
  obtain ⟨hfst, hmap⟩ := get_free_page_take h.tree hpos hne
  have hmin := Finset.min'_mem _ hne
  have h0 := h.tree.min'_ne_zero hne
  have hpages := pages_delete s.pager.free_page_map.tree h0
  have hsound : Allocation.Sound loaded ⟨(get_free_page s.pager).2, s.in_use⟩ := by
    refine ⟨?_, hfits, ?_, ?_, h.used_ne, ?_, ?_⟩
    · rw [hmap]
      exact h.tree.delete h0
    · intro p hp
      rw [hmap, hpages] at hp
      rw [hhigh]
      exact h.free_le p (Finset.mem_of_mem_erase hp)
    · rw [hhigh]
      exact h.used_le
    · rw [hmap, hpages]
      exact h.disjoint.mono_left (Finset.erase_subset _ _)
    · rw [hfile]
      exact h.file
  refine hand_out_fair (get_free_page s.pager) init hsound fun _ =>
    ⟨?_, hrec.imp_right fun ⟨_, _, hold⟩ => ⟨?_, ?_⟩⟩
  · rw [hfst]
    exact Finset.disjoint_left.mp h.disjoint hmin
  · rw [hmap, hpages, hfst]
    exact Finset.notMem_erase _ _
  · -- the page was recorded, or else it is a loaded one
    rw [radix_tree_peek_min_of_nonempty h.tree.wellFormed hne] at hold
    rw [hfst, hhigh]
    exact (h.free_le _ hmin).elim hold id

/-- A new page lies beyond everything in use. -/
theorem get_free_page_fair_grow {s : Allocation} (h : s.Sound loaded) {init : Initialiser}
    (hgrow : s.pager.free_page_map.num_frees = 0 ∨ pages s.pager.free_page_map.tree = ∅)
    (hinit : init.Records) : (HandOutOp.get_free_page init).Fair loaded s := by
  have hget := get_free_page_grow hgrow
  refine hand_out_fair (get_free_page s.pager) init ?_ fun h0 => ?_
  · rw [hget]
    exact h
  · rw [hget] at h0 ⊢
    have hlt := lt_add_one_of_ne_zero h0
    exact ⟨fun hU => absurd (h.used_le _ hU) (not_le.mpr hlt), Or.inl hinit⟩

theorem get_free_page_fair {s : Allocation} (h : s.Sound loaded) (init : Initialiser)
    (hrec : (HandOutOp.get_free_page init).Recorded loaded s) :
    (HandOutOp.get_free_page init).Fair loaded s := by
  by_cases htake : s.pager.free_page_map.num_frees > 0
      ∧ (pages s.pager.free_page_map.tree).Nonempty
  · exact get_free_page_fair_take h htake.1 htake.2 hrec
  · refine get_free_page_fair_grow h ?_ (hrec.resolve_right fun hrec => htake ⟨hrec.1, hrec.2.1⟩)
    rcases not_and_or.mp htake with hz | hemp
    · exact Or.inl (not_not.mp (mt UInt8.pos_iff_ne_zero.mpr hz))
    · exact Or.inr (Finset.not_nonempty_iff_eq_empty.mp hemp)

theorem allocate_new_db_page_fair {s : Allocation} (h : s.Sound loaded) (sys : Syscalls)
    (init : Initialiser) (hrec : (HandOutOp.allocate_new_db_page sys init).Recorded loaded s) :
    (HandOutOp.allocate_new_db_page sys init).Fair loaded s := by
  obtain ⟨hpage, hmap, hfile, hmem⟩ := allocate_new_db_page_spec sys s.pager
  -- the call writes behind the old end of the file only
  have hsame : SameHeader s.pager.mem (allocate_new_db_page sys s.pager).2.mem :=
    fun i hi => hmem i (Nat.lt_of_lt_of_le hi h.file)
  have hhigh := hsame.highest_page
  refine hand_out_fair (allocate_new_db_page sys s.pager) init
    ⟨?_, ?_, ?_, ?_, h.used_ne, ?_, Nat.le_trans h.file hfile⟩ fun h0 => ?_
  · rw [hmap]
    exact h.tree
  · rw [Pager.ListFits, hsame.free_page_count]
    exact h.fits
  · rw [hmap, hhigh]
    exact h.free_le
  · rw [hhigh]
    exact h.used_le
  · rw [hmap]
    exact h.disjoint
  · -- the call succeeded: the page is the end of the file, beyond `highest_page`
    obtain ⟨hsys, hpage⟩ := hpage.resolve_left h0
    obtain ⟨hinit, hbeyond, h16⟩ := hrec hsys
    have hlt : s.pager.highest_page < (allocate_new_db_page sys s.pager).1 := by
      rw [hpage, UInt16.lt_iff_toNat_lt, UInt16.toNat_ofNat_of_lt' h16]
      exact hbeyond
    exact ⟨fun hU => absurd (h.used_le _ hU) (not_le.mpr hlt), Or.inl hinit⟩

theorem mark_page_free_fair {s : Allocation} (h : s.Sound loaded) {page_no : UInt16}
    (huse : page_no ∈ s.in_use) : (HandOutOp.mark_page_free page_no).Fair loaded s := by
  obtain ⟨hhigh, hfits⟩ := mark_page_free_header s.pager page_no h.fits
  have hmap := mark_page_free_map s.pager page_no
  have h0 : page_no ≠ 0 := fun h0 => h.used_ne (h0 ▸ huse)
  -- the page moves from the pages in use to the free ones
  refine ⟨⟨?_, hfits, ?_, ?_, ?_, ?_, ?_⟩, trivial, trivial⟩
  · rw [HandOutOp.exec, HandOutOp.run, hmap]
    exact h.tree.insert h0
  · intro p hp
    rw [HandOutOp.exec, HandOutOp.run] at hp ⊢
    rw [hmap, pages_insert] at hp
    rw [hhigh]
    rcases Finset.mem_insert.mp hp with rfl | hp
    · exact Or.inr (h.used_le p huse)
    · exact h.free_le p hp
  · intro p hp
    rw [HandOutOp.exec, HandOutOp.run] at hp ⊢
    rw [hhigh]
    exact h.used_le p (Finset.mem_of_mem_erase hp)
  · exact fun hz => h.used_ne (Finset.mem_of_mem_erase hz)
  · rw [HandOutOp.exec, HandOutOp.run, hmap, pages_insert]
    refine Finset.disjoint_insert_left.mpr ⟨Finset.notMem_erase _ _, ?_⟩
    exact h.disjoint.mono_right (Finset.erase_subset _ _)
  · rw [HandOutOp.exec, HandOutOp.run, mark_page_free_file_end]
    exact h.file

/-- **One call** keeps the invariant and hands out no page in use. -/
theorem HandOutOp.fair {s : Allocation} (h : s.Sound loaded) {op : HandOutOp}
    (hlegal : op.Legal s) (hrec : op.Recorded loaded s) : op.Fair loaded s := by
  cases op with
  | get_free_page init => exact get_free_page_fair h init hrec
  | allocate_new_db_page sys init => exact allocate_new_db_page_fair h sys init hrec
  | mark_page_free page_no => exact mark_page_free_fair h hlegal

/-! ## §4. Runs. -/

theorem uses_exclusive (ops : List HandOutOp) : ∀ s : Allocation, s.Sound loaded →
    EachStep HandOutOp.exec (fun s op => op.Legal s ∧ op.Recorded loaded s) s ops →
    Use.Exclusive s.in_use (uses s.pager ops) := by
  induction ops with
  | nil => intro s _ _; trivial
  | cons op ops ih =>
      intro s h hops
      obtain ⟨⟨hlegal, hrec⟩, hrest⟩ := hops
      obtain ⟨hsound, hexcl⟩ := HandOutOp.fair h hlegal hrec
      rw [uses, Use.exclusive_append]
      exact ⟨hexcl, ih _ hsound hrest⟩

/-- A database that was just created, with what its tracker kept of an old header. -/
theorem NewDb.sound {pager : Pager} (h : NewDb pager) :
    (new_allocation pager).Sound (pages pager.free_page_map.tree) := by
  have hcreated := h.created
  have hcatalog : ∀ p : UInt16, p ∈ (new_allocation pager).in_use → p ≠ 0 ∧ p ≤ 3 := by
    intro p hp
    rw [new_allocation, Finset.mem_insert, Finset.mem_insert, Finset.mem_singleton] at hp
    rcases hp with rfl | rfl | rfl <;> decide
  refine ⟨hcreated.tracked.tree, hcreated.tracked.fits, fun p hp => Or.inl hp, fun p hp => ?_,
    fun h0 => (hcatalog 0 h0).1 rfl, h.catalog_used, hcreated.file⟩
  show p ≤ pager.highest_page
  rw [hcreated.highest]
  exact (hcatalog p hp).2

/-- **No page is handed out twice** in a run on a new database in which every hand-out is
recorded: between two hand-outs of one page it is freed. -/
theorem no_page_handed_out_twice (pager : Pager) (h : NewDb pager) (ops : List HandOutOp)
    (hops : EachStep HandOutOp.exec
      (fun s op => op.Legal s ∧ op.Recorded (pages pager.free_page_map.tree) s)
      (new_allocation pager) ops) :
    Use.ReleasedBetween (uses pager ops) :=
  (uses_exclusive ops (new_allocation pager) h.sound hops).releasedBetween

/-- A file of 20 pages whose header lists pages 9 to 12. -/
def listed_file : Mem :=
  let list := DatabaseHeader.free_page_list database_header
  let m : Mem := fun _ => 0
  let m := m.store16 (freelist_cell list 0) 9
  let m := m.store16 (freelist_cell list 1) 10
  let m := m.store16 (freelist_cell list 2) 11
  let m := m.store16 (freelist_cell list 3) 12
  m.store16 (DatabaseHeader.free_page_count database_header) 4

/-- The database created in it: the pages stay in the tree, and one of them in the count. -/
def listed_database : Pager :=
  (pager_init_new_db .ok (init_free_page_map (opened_pager listed_file (20 * PAGE_SIZE)))).2

theorem newDb_listed : NewDb listed_database :=
  .mk (by decide) (init_pager_ok listed_file (20 * PAGE_SIZE)) (Prod.ext (by decide +kernel) rfl)

/-- Page 9 is taken from the tree and page 10 by growth, which is then freed and taken again;
the last page is the end of the file. -/
theorem no_page_handed_out_twice_listed :
    Use.ReleasedBetween (uses listed_database
      [.get_free_page .data, .get_free_page .data, .mark_page_free 10, .get_free_page .index_leaf,
        .allocate_new_db_page .ok .overflow]) :=
  no_page_handed_out_twice _ newDb_listed _
    ⟨⟨trivial, Or.inl trivial⟩, ⟨trivial, Or.inl trivial⟩,
      ⟨(by decide +kernel : (10 : UInt16) ∈ Allocation.in_use _), trivial⟩,
      ⟨trivial, Or.inr ⟨by decide +kernel, ⟨10, by
        rw [mem_pages]
        decide +kernel⟩, fun _ => by decide +kernel⟩⟩,
      ⟨trivial, fun _ => ⟨trivial, by decide +kernel, by decide +kernel⟩⟩, trivial⟩

/-- A leaf and then an internal page take page 4: initialising the leaf does not record
it, as when `btree_insert` splits the root leaf and makes a new root. -/
theorem page_four_handed_out_twice :
    let ops : List HandOutOp := [.get_free_page .index_leaf, .get_free_page .index_internal]
    EachStep HandOutOp.exec (fun s op => op.Legal s) new_database ops
    ∧ uses new_database.pager ops = [.acquire 4, .acquire 4]
    ∧ ¬ Use.ReleasedBetween (uses new_database.pager ops) := by
  intro ops
  have htrace : uses new_database.pager ops = [.acquire 4, .acquire 4] := by decide +kernel
  refine ⟨⟨trivial, trivial, trivial⟩, htrace, fun h => ?_⟩
  have hmem := h 4 [] [] [] htrace
  exact absurd hmem (List.not_mem_nil)

end PreSeQL.Db
