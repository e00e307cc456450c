/-
  PreSeQL.Pager.NewDb — the state `pager_init_new_db` leaves.

  Whatever file was opened: the header starts with the magic number, its free list is
  empty and `highest_page` is 3.  The free tree is the one loaded from the old header
  without the catalog pages.  §4 is the law of the free list for the runs that start
  here.
-/
import PreSeQL.Pager.HeaderList

namespace PreSeQL.Db

open PreSeQL.Lib PreSeQL.Lib.Mem PreSeQL.Lib.Run PreSeQL.Radix

/-! ## §1. The new header. -/

/-- `memcmp(header->magic, MAGIC_NUMBER, MAGIC_NUMBER_SIZE) == 0`. -/
def header_magic_ok (m : Mem) (header : Nat) : Bool :=
  m.bytes (DatabaseHeader.magic header) MAGIC_NUMBER.length == MAGIC_NUMBER

theorem header_magic_ok_congr {m m' : Mem} {header : Nat}
    (h : ∀ i, header ≤ i → i < header + 8 → m' i = m i) :
    header_magic_ok m' header = header_magic_ok m header := by
  unfold header_magic_ok
  rw [bytes_congr MAGIC_NUMBER.length (DatabaseHeader.magic header) fun i h₁ h₂ => h i h₁ h₂]

theorem header_magic_ok_fill (m : Mem) (header : Nat) :
    header_magic_ok (m.fill (DatabaseHeader.magic header) MAGIC_NUMBER.length
      fun i => MAGIC_NUMBER.getD i 0) header = true := by
  rw [header_magic_ok, bytes_fill_same]
  rfl

theorem new_database_header_magic (m : Mem) (header : Nat) :
    header_magic_ok (new_database_header m header) header = true := by
  unfold new_database_header
  simp only
  rw [header_magic_ok_congr (m := (m.memset header 0 DatabaseHeader.sizeof).fill
    (DatabaseHeader.magic header) MAGIC_NUMBER.length fun i => MAGIC_NUMBER.getD i 0) ?_,
    header_magic_ok_fill]
  -- every other field stands behind the magic number
  intro i _ hi
  rw [store32_outside, store16_outside, store16_outside, store16_outside, store16_outside,
    store16_outside, store16_outside, store16_outside, store16_outside, store16_outside]
  all_goals exact Or.inl (Nat.lt_of_lt_of_le hi (by simp))

theorem new_database_header_count (m : Mem) (header : Nat) :
    (new_database_header m header).load16 (DatabaseHeader.free_page_count header) = 0 := by
  unfold new_database_header
  simp only
  rw [load16_store32_of_disjoint _ _ (by simp), load16_store16_of_disjoint _ _ (by simp),
    load16_store16_of_disjoint _ _ (by simp), load16_store16_of_disjoint _ _ (by simp),
    load16_store16_same]

theorem new_database_header_highest (m : Mem) (header : Nat) :
    (new_database_header m header).load16 (DatabaseHeader.highest_page header) = 3 := by
  unfold new_database_header
  simp only
  rw [load16_store32_of_disjoint _ _ (by simp), load16_store16_of_disjoint _ _ (by simp),
    load16_store16_of_disjoint _ _ (by simp), load16_store16_same]

/-! ## §2. Opening. -/

/-- The bytes of the file: nothing behind its end is kept. -/
def DatabasePager.file (db : DatabasePager) : Mem :=
  fun i => if i < db.file_end then db.mem i else 0

/-- The pager `init_pager` has when it calls `init_free_page_map`. -/
def opened_pager (bytes : Mem) (length : Nat) : Pager :=
  let file_size := if length = 0 then PAGE_SIZE else length
  { db_pager :=
      { mem := if length = 0 then fun _ => 0 else bytes, file_end := file_size,
        mapped := some file_size, file_size := file_size, free_page_map := ⟨0, radix_tree_create⟩ },
    flags := 0, read_only := false }

theorem init_pager_ok (bytes : Mem) (length : Nat) :
    init_pager .ok bytes length = some (init_free_page_map (opened_pager bytes length)) := by
  simp [init_pager, OpenCalls.ok, opened_pager]

theorem init_pager_eq_some {sys : OpenCalls} {bytes : Mem} {length : Nat} {pager : Pager}
    (h : init_pager sys bytes length = some pager) :
    pager = init_free_page_map (opened_pager bytes length) := by
  unfold init_pager at h
  split at h
  · cases h
  split at h
  · cases h
  split at h
  · cases h
  split at h
  · cases h
  simp only at h
  split at h
  · cases h
  · exact (Option.some.inj h).symm

theorem opened_pager_file_end {bytes : Mem} {length : Nat} (h : length < 2 ^ 63) :
    (init_free_page_map (opened_pager bytes length)).db_pager.file_end < 2 ^ 63 := by
  show (if length = 0 then PAGE_SIZE else length) < 2 ^ 63
  split
  · decide
  · exact h

/-! ## §3. Creating. -/

theorem resize_mmap_map (sys : Syscalls) (db : DatabasePager) (new_size : Nat) :
    (resize_mmap sys db new_size).1.free_page_map = db.free_page_map := by
  unfold resize_mmap
  split
  · rfl
  split
  · rfl
  split <;> rfl

theorem allocate_new_db_pages_map (sys : Syscalls) (pager : Pager) (num_pages : Nat) :
    (allocate_new_db_pages sys pager num_pages).2.free_page_map = pager.free_page_map := by
  unfold allocate_new_db_pages
  split
  · rfl
  split
  · rfl
  simp only
  -- growing the file does not touch the tracker
  split
  next db h => exact (congrArg (·.1.free_page_map) h).symm.trans (resize_mmap_map _ _ _)
  next db h => exact (congrArg (·.1.free_page_map) h).symm.trans (resize_mmap_map _ _ _)

/-- A new mapping covers the file, which has the new length. -/
theorem resize_mmap_ok {sys : Syscalls} {db db' : DatabasePager} {new_size : Nat}
    (h : resize_mmap sys db new_size = (db', true)) :
    new_size < 2 ^ 63 ∧ db' = { db.extend new_size with mapped := some new_size } := by
  unfold resize_mmap at h
  split at h
  · cases h
  next hsize =>
    split at h
    · cases h
    split at h
    · cases h
    · exact ⟨Nat.not_le.mp (not_or.mp hsize).2, (Prod.mk.inj h).1.symm⟩

/-- A page number other than 0 is returned when the file has grown. -/
theorem allocate_new_db_pages_ok {sys : Syscalls} {pager : Pager} {num_pages : Nat}
    (h : (allocate_new_db_pages sys pager num_pages).1 ≠ 0) :
    let new_size := (pager.db_pager.file_end + num_pages * PAGE_SIZE % 2 ^ 64) % 2 ^ 64
    new_size < 2 ^ 63 ∧ (allocate_new_db_pages sys pager num_pages).2.db_pager
      = { pager.db_pager.extend new_size with mapped := some new_size } := by
  unfold allocate_new_db_pages at h ⊢
  split at h
  · exact absurd rfl h
  next hnum =>
    split at h
    · exact absurd rfl h
    next hseek =>
      rw [if_neg hnum, if_neg hseek]
      simp only at h ⊢
      split at h
      · exact absurd rfl h
      next db hresize => exact resize_mmap_ok hresize

/-- Four pages more, when they are granted. -/
theorem allocate_new_db_pages_file_end {sys : Syscalls} {pager : Pager}
    (hend : pager.db_pager.file_end < 2 ^ 63)
    (h : 3 ≤ (allocate_new_db_pages sys pager 4).1) :
    PAGE_SIZE ≤ (allocate_new_db_pages sys pager 4).2.db_pager.file_end := by
  have hne : (allocate_new_db_pages sys pager 4).1 ≠ 0 := by
    intro h0
    rw [h0] at h
    exact absurd h (by decide)
  obtain ⟨-, hgrown⟩ := allocate_new_db_pages_ok hne
  rw [hgrown]
  show PAGE_SIZE ≤ (pager.db_pager.file_end + 4 * PAGE_SIZE % 2 ^ 64) % 2 ^ 64
  simp only [PAGE_SIZE]
  omega

theorem pager_init_new_db_ok {sys : Syscalls} {start pager : Pager}
    (h : pager_init_new_db sys start = (.PSQL_OK, pager)) :
    3 ≤ (allocate_new_db_pages sys start 4).1 ∧
    let grown := (allocate_new_db_pages sys start 4).2
    let pager₀ := grown.withMem (new_database_header grown.mem database_header)
    let pager₁ := (init_index_internal_page pager₀ 1).2
    let pager₂ := (init_index_internal_page pager₁ 2).2
    pager = (init_index_internal_page pager₂ 3).2 := by
  unfold pager_init_new_db at h
  split at h
  · cases h
  split at h
  next highest_page grown hgrown =>
    simp only [pager_get_page_zero] at h
    rw [hgrown]
    split at h
    · cases h
    next hhigh => exact ⟨UInt16.not_lt.mp hhigh, (Prod.mk.inj h).2.symm⟩

/-- A page up to `highest_page` is initialised without touching page 0. -/
theorem sameHeader_allocate_page {pager : Pager} {page_no : UInt16} (h0 : page_no ≠ 0)
    (hle : page_no ≤ pager.highest_page) (flag : UInt8) :
    SameHeader pager.mem (allocate_page pager page_no flag).2.mem := by
  have hsame := sameHeader_allocate_page_header pager h0 flag
  rw [allocate_page, mark_page_used_mem, hsame.highest_page, if_neg (not_lt.mpr hle)]
  exact hsame

/-- A database that was just created, in whatever file; `st_size` is a signed 64-bit
number. -/
inductive NewDb : Pager → Prop where
  | mk {open_sys : OpenCalls} {sys : Syscalls} {bytes : Mem} {length : Nat} {start pager : Pager} :
      length < 2 ^ 63 → init_pager open_sys bytes length = some start →
      pager_init_new_db sys start = (.PSQL_OK, pager) → NewDb pager

/-- What holds of it. -/
structure Created (pager : Pager) : Prop where
  tracked : Tracked pager
  magic : header_magic_ok pager.mem database_header = true
  highest : pager.highest_page = 3
  list : pager.header_list = []
  file : PAGE_SIZE ≤ pager.db_pager.file_end

/-- A catalog page is initialised. -/
theorem Created.initialise {pager : Pager} (h : Created pager) {page_no : UInt16}
    (h0 : page_no ≠ 0) (hle : page_no ≤ 3) (flag : UInt8) :
    Created (allocate_page pager page_no flag).2 := by
  have hsame := sameHeader_allocate_page h0 (h.highest ▸ hle) flag
  refine ⟨⟨?_, ?_⟩, ?_, ?_, ?_, ?_⟩
  · rw [allocate_page_map]
    exact h.tracked.tree.delete h0
  · unfold Pager.ListFits
    rw [hsame.free_page_count]
    exact h.tracked.fits
  · rw [header_magic_ok_congr fun i _ hi => hsame i (Nat.lt_trans hi (by decide))]
    exact h.magic
  · rw [hsame.highest_page, h.highest]
  · rw [allocate_page_list pager h0 flag h.tracked.fits, h.list]
  · rw [allocate_page_file_end]
    exact h.file

theorem created_new_header {pager : Pager} (h : TreeOk pager.free_page_map.tree)
    (hfile : PAGE_SIZE ≤ pager.db_pager.file_end) :
    Created (pager.withMem (new_database_header pager.mem database_header)) := by
  have hcount : (pager.withMem (new_database_header pager.mem database_header)).free_page_count
      = 0 := new_database_header_count _ _
  refine ⟨⟨h, ?_⟩, new_database_header_magic _ _, new_database_header_highest _ _, ?_, hfile⟩
  · unfold Pager.ListFits
    rw [hcount]
    exact Nat.zero_le _
  · rw [← List.length_eq_zero_iff, length_header_list, hcount]
    rfl

theorem NewDb.created {pager : Pager} (h : NewDb pager) : Created pager := by
  cases h with
  | @mk open_sys sys bytes length start _ hlength hopen hnew =>
      -- the tracker is the one that was loaded when the file was opened
      have htree := (init_free_page_map_spec (opened_pager bytes length)).1
      rw [← init_pager_eq_some hopen, ← allocate_new_db_pages_map sys start 4] at htree
      obtain ⟨hgrown, hpager⟩ := pager_init_new_db_ok hnew
      have hend : start.db_pager.file_end < 2 ^ 63 := by
        rw [init_pager_eq_some hopen]
        exact opened_pager_file_end hlength
      have hheader := created_new_header htree (allocate_new_db_pages_file_end hend hgrown)
      rw [hpager]
      exact ((hheader.initialise (by decide) (by decide) _).initialise (by decide) (by decide)
        _).initialise (by decide) (by decide) _

/-- The catalog pages are not tracked as free. -/
theorem NewDb.catalog_used {pager : Pager} (h : NewDb pager) :
    Disjoint (pages pager.free_page_map.tree) {1, 2, 3} := by
  cases h with
  | mk _ _ hnew =>
      have hpager := (pager_init_new_db_ok hnew).2
      simp only at hpager
      rw [hpager, init_index_internal_page, allocate_page_map, init_index_internal_page,
        allocate_page_map, init_index_internal_page, allocate_page_map,
        pages_delete _ (by decide), pages_delete _ (by decide), pages_delete _ (by decide)]
      rw [Finset.disjoint_right]
      intro p hp
      rw [Finset.mem_insert, Finset.mem_insert, Finset.mem_singleton] at hp
      rcases hp with rfl | rfl | rfl <;> simp

/-- The database created in an empty file. -/
theorem newDb_fresh : NewDb (pager_init_new_db .ok fresh_pager).2 :=
  .mk (Nat.two_pow_pos 63) (init_pager_fresh fun _ => 0) (Prod.ext (by decide +kernel) rfl)

/-! ## §4. The free list over runs. -/

/-- `pager_init_new_db` has marked the three catalog pages used. -/
def new_allocation (pager : Pager) : Allocation := ⟨pager, {1, 2, 3}⟩

/-- **The free list names no page in use**, in every state of a run on a new database,
exactly when every call meets its condition. -/
theorem free_list_safe_iff (pager : Pager) (h : NewDb pager) (ops : List FreePageOp) :
    Throughout FreePageOp.track ListSafe (new_allocation pager) ops
      ↔ EachStep FreePageOp.track FreePageOp.KeepsList (new_allocation pager) ops := by
  have hcreated := h.created
  have hsafe : ListSafe (new_allocation pager) := by
    rw [listSafe_iff hcreated.tracked.tree, new_allocation, hcreated.list]
    exact ⟨List.nodup_nil, fun p hp => absurd hp List.not_mem_nil⟩
  rw [throughout_iff_eachStep (I := fun s : Allocation => Tracked s.pager)
    (fun _ op h => op.tracked_exec h) (fun _ op h hq => op.listSafe_track_iff h hq) ops
    (new_allocation pager) hcreated.tracked]
  exact and_iff_right hsafe

/-- Pages are freed, taken, initialised, marked and handed out by growth, and the list is synced
between the calls. -/
def list_calls : List FreePageOp :=
  [.mark_page_free ⟨9, by decide⟩, .mark_page_free ⟨7, by decide⟩, .get_free_page,
    .allocate_page ⟨7, by decide⟩ PAGE_DATA, .mark_page_free ⟨5, by decide⟩,
    .sync_free_page_list, .get_free_page, .mark_page_used ⟨4, by decide⟩, .get_free_page,
    .get_free_page, .sync_free_page_list, .mark_page_free ⟨7, by decide⟩]

theorem free_list_safe_iff_list_calls :
    EachStep FreePageOp.track FreePageOp.KeepsList
        (new_allocation (pager_init_new_db .ok fresh_pager).2) list_calls
    ∧ Throughout FreePageOp.track ListSafe (new_allocation (pager_init_new_db .ok fresh_pager).2)
        list_calls := by
  have hsteps : EachStep FreePageOp.track FreePageOp.KeepsList
      (new_allocation (pager_init_new_db .ok fresh_pager).2) list_calls := by decide +kernel
  exact ⟨hsteps, (free_list_safe_iff _ newDb_fresh list_calls).mpr hsteps⟩

/-- On a new database a page that is freed and then taken by number stays listed. -/
theorem Created.used_listed {pager : Pager} (h : Created pager) (p : UserPage) :
    let pager' := mark_page_used (mark_page_free pager p) p
    pager'.header_list = [p.1]
    ∧ radix_tree_lookup pager'.free_page_map.tree p = false
    ∧ radix_tree_lookup (init_free_page_map pager').free_page_map.tree p = true := by
  intro pager'
  have htracked := FreePageOp.tracked_exec h.tracked (.mark_page_free p)
  have hcount : pager.free_page_count.toNat = 0 := by
    rw [← length_header_list, h.list]
    rfl
  have hlist : pager'.header_list = [p.1] := by
    have hfreed := mark_page_free_list pager p
    rw [hcount, if_pos (by decide), h.list] at hfreed
    exact (mark_page_used_list _ p.1 htracked.fits).trans hfreed
  refine ⟨hlist, ?_, (radix_tree_lookup_iff _ _).mpr ⟨p.ne_zero, ?_⟩⟩
  · rw [Bool.eq_false_iff]
    intro hlook
    have hused := ((radix_tree_lookup_iff _ _).mp hlook).2
    rw [mark_page_used_map, pages_delete _ p.ne_zero] at hused
    exact Finset.notMem_erase _ _ hused
  · rw [(init_free_page_map_spec pager').2.1, List.mem_toFinset]
    refine List.mem_filter.mpr ⟨(?_ : p.1 ∈ pager'.header_list), by simpa using p.ne_zero⟩
    rw [hlist]
    exact List.mem_singleton_self _

/-- Page 5 is freed and marked used: the list keeps it, and a tracker loaded from the
header reports it as free. -/
theorem used_page_listed :
    let ops : List FreePageOp := [.mark_page_free ⟨5, by decide⟩, .mark_page_used ⟨5, by decide⟩]
    let s := ops.foldl FreePageOp.track (new_allocation (pager_init_new_db .ok fresh_pager).2)
    s.pager.header_list = [5]
    ∧ radix_tree_lookup s.pager.free_page_map.tree 5 = false
    ∧ radix_tree_lookup (init_free_page_map s.pager).free_page_map.tree 5 = true
    ∧ 5 ∈ s.in_use
    ∧ ¬ ListSafe s := by
  intro ops s
  obtain ⟨hlist, hused, hloaded⟩ := newDb_fresh.created.used_listed ⟨5, by decide⟩
  have huse : 5 ∈ s.in_use := Finset.mem_insert_self _ _
  refine ⟨hlist, hused, hloaded, huse, fun h => ?_⟩
  exact Finset.disjoint_left.mp h.unused ((radix_tree_lookup_iff _ _).mp hloaded).2 huse

end PreSeQL.Db
