/-
  PreSeQL.Pager.Close — the file a close leaves.

  `pager_close_db` writes the free list and then the checksum, so the file it leaves
  passes `pager_verify_db`, and loading its header restores the tracker up to the 32
  pages the list has room for.  What the function does behind the last system call,
  and that it never returns, is in `OpenDb.lean`.

    • `FreePageOp.frame` — the magic number and the catalog roots are never touched,
    • `close_file_spec` — what is in the file after the last system call,
    • `Closable.restored` — that file, opened again.
-/
import PreSeQL.Pager.NewDb

namespace PreSeQL.Db

open PreSeQL.Lib PreSeQL.Lib.Mem PreSeQL.Radix PreSeQL.Crc PSqlStatus

/-! ## §1. The operations. -/

/-- Which system calls of `pager_close_db` succeed; the first `msync` is that of
`pager_flush_cache`. -/
structure CloseCalls where
  flush_msync : Bool
  msync : Bool
  munmap : Bool

def CloseCalls.ok : CloseCalls := ⟨true, true, true⟩

/-- Writing the mapping back changes none of the bytes seen through it. -/
def pager_flush_cache (sys : CloseCalls) (pager : Pager) : PSqlStatus :=
  if pager.read_only then PSQL_OK
  else if sys.flush_msync = false then PSQL_IOERR
  else PSQL_OK

/-- `calculate_crc32(header, offsetof(DatabaseHeader, checksum))`. -/
def database_checksum (m : Mem) (header : Nat) : UInt32 :=
  calculate_crc32 (m.bytes header (DatabaseHeader.checksum 0))

/-- `pager_close_db` up to the closing of the files; "Free resources" comes behind it. -/
def close_file (sys : CloseCalls) (pager : Pager) : PSqlStatus × Pager :=
  match pager_flush_cache sys pager with
  | PSQL_OK =>
      match sync_free_page_list pager with
      | (PSQL_OK, pager) =>
          match pager_get_page pager 0 with
          | none => (PSQL_ERROR, pager)
          | some header_page =>
              let header := DBPage.data header_page
              let pager := pager.withMem (pager.mem.store32 (DatabaseHeader.checksum header)
                (database_checksum pager.mem header))
              if sys.msync = false then (PSQL_IOERR, pager)
              else if sys.munmap = false then (PSQL_IOERR, pager)
              else (PSQL_OK, { pager with db_pager := { pager.db_pager with mapped := none } })
      | (status, pager) => (status, pager)
  | status => (status, pager)

/-- The header's checksum is zeroed for the calculation and put back. -/
def pager_verify_db (pager : Pager) : PSqlStatus :=
  match pager_get_page pager 0 with
  | none => PSQL_ERROR
  | some header_page =>
      let header := DBPage.data header_page
      if header_magic_ok pager.mem header = false then PSQL_CORRUPT
      else
        let stored_checksum :=
          UInt32.ofNat (pager.mem.load (DatabaseHeader.checksum header) 4)
        let calculated_checksum :=
          database_checksum (pager.mem.store32 (DatabaseHeader.checksum header) 0) header
        if stored_checksum ≠ calculated_checksum then PSQL_CORRUPT else PSQL_OK

/-! ## §2. Runs. -/

/-- **Frame**: in page 0 only the list, its count and `highest_page` are written. -/
theorem FreePageOp.frame {pager : Pager} (h : Tracked pager) (op : FreePageOp) {i : Nat}
    (hi : i < DatabaseHeader.free_page_list database_header) :
    (op.exec pager).mem i = pager.mem i := by
  cases op with
  | mark_page_free p =>
      rw [exec, mark_page_free_mem]
      split
      next hlt =>
        rw [store16_outside _ _ (Or.inl (Nat.lt_of_lt_of_le hi (by simp))),
          store16_outside _ _ (Or.inl (Nat.lt_of_lt_of_le hi (by simp)))]
      next => rfl
  | mark_page_used p =>
      rw [exec, mark_page_used_mem]
      split
      · exact store16_outside _ _ (Or.inl (Nat.lt_of_lt_of_le hi (by simp)))
      · rfl
  | get_free_page =>
      simp only [exec, Db.get_free_page, pager_get_page_zero]
      split
      · split
        · exact (remove_from_free_list_frame _ database_header (2 ^ 16) pager.mem 0 h.fits).1 i
            (Or.inl hi)
        · rfl
      · rfl
  | allocate_page p flag =>
      have hpage : PAGE_SIZE ≤ p.1.toNat * PAGE_SIZE := PAGE_SIZE_le_page p.ne_zero
      have hzero : i < p.1.toNat * PAGE_SIZE :=
        Nat.lt_of_lt_of_le (Nat.lt_trans hi (by decide)) hpage
      have hpageheader := sameOff_allocate_page_header pager.mem (p.1.toNat * PAGE_SIZE) p.1 flag i
        (Or.inl hzero)
      rw [exec, Db.allocate_page, mark_page_used_mem]
      split
      · rw [store16_outside _ _ (Or.inl (Nat.lt_of_lt_of_le hi (by simp)))]
        exact hpageheader
      · exact hpageheader
  | sync_free_page_list => exact (sync_free_page_list_spec pager).2.2 i (Or.inl hi)

theorem FreePageOp.file_end (pager : Pager) (op : FreePageOp) :
    (op.exec pager).db_pager.file_end = pager.db_pager.file_end := by
  cases op with
  | mark_page_free p => exact mark_page_free_file_end _ _
  | mark_page_used p => exact mark_page_used_file_end _ _
  | get_free_page => exact get_free_page_file_end _
  | allocate_page p flag => exact allocate_page_file_end _ _ _
  | sync_free_page_list =>
      simp only [exec, Db.sync_free_page_list, pager_get_page_zero]
      rfl

/-- What a database that can be closed and opened again has in its file. -/
structure Closable (pager : Pager) : Prop where
  tracked : Tracked pager
  magic : header_magic_ok pager.mem database_header = true
  file : PAGE_SIZE ≤ pager.db_pager.file_end

theorem Closable.exec {pager : Pager} (h : Closable pager) (op : FreePageOp) :
    Closable (op.exec pager) := by
  refine ⟨op.tracked_exec h.tracked, ?_, ?_⟩
  · rw [header_magic_ok_congr fun i _ hi => op.frame h.tracked (Nat.lt_trans hi (by simp))]
    exact h.magic
  · rw [op.file_end]
    exact h.file

theorem Closable.run (ops : List FreePageOp) :
    ∀ {pager : Pager}, Closable pager → Closable (ops.foldl FreePageOp.exec pager) :=
  fun h => List.foldlRecOn ops _ h fun _ hbefore op _ => hbefore.exec op

/-! ## §3. The close. -/

theorem data_zero : DBPage.data 0 = database_header := rfl

theorem sync_free_page_list_ok (pager : Pager) :
    sync_free_page_list pager = (PSQL_OK, (sync_free_page_list pager).2) :=
  Prod.ext (by simp only [sync_free_page_list, pager_get_page_zero]) rfl

/-- **Closing** syncs the list and then writes the checksum of the header. -/
theorem close_file_spec (pager : Pager) :
    let synced := (sync_free_page_list pager).2
    let closed := (close_file .ok pager).2
    (close_file .ok pager).1 = PSQL_OK
    ∧ closed.mem = synced.mem.store32 (DatabaseHeader.checksum database_header)
        (database_checksum synced.mem database_header)
    ∧ closed.db_pager.file_end = pager.db_pager.file_end := by
  have hflush : pager_flush_cache .ok pager = PSQL_OK := by
    unfold pager_flush_cache
    split <;> rfl
  unfold close_file
  rw [hflush]
  simp only
  rw [sync_free_page_list_ok pager]
  simp only [pager_get_page_zero, data_zero, CloseCalls.ok, Bool.true_eq_false, if_false]
  have hend : (sync_free_page_list pager).2.db_pager.file_end = pager.db_pager.file_end :=
    FreePageOp.file_end pager .sync_free_page_list
  exact ⟨trivial, rfl, (Pager.withMem_file_end _ _).trans hend⟩

theorem database_checksum_congr {m m' : Mem} {header : Nat}
    (h : ∀ i, header ≤ i → i < DatabaseHeader.checksum header → m' i = m i) :
    database_checksum m' header = database_checksum m header := by
  unfold database_checksum
  rw [bytes_congr (DatabaseHeader.checksum 0) header fun i h₁ h₂ => h i h₁ (by
    simp only [DatabaseHeader.checksum] at h₂ ⊢
    omega)]

/-- The checksum of a header does not look at the field it is stored in. -/
theorem database_checksum_store32 (m : Mem) (header : Nat) (v : UInt32) :
    database_checksum (m.store32 (DatabaseHeader.checksum header) v) header
      = database_checksum m header :=
  database_checksum_congr fun _ _ hi => store32_outside _ _ (Or.inl hi)

/-- A header with the magic number and its own checksum passes. -/
theorem verify_db_ok {pager : Pager} {m : Mem}
    (hmagic : header_magic_ok pager.mem database_header = true)
    (hmem : SameHeader (m.store32 (DatabaseHeader.checksum database_header)
      (database_checksum m database_header)) pager.mem) :
    pager_verify_db pager = PSQL_OK := by
  have hstored : UInt32.ofNat (pager.mem.load (DatabaseHeader.checksum database_header) 4)
      = database_checksum m database_header := by
    rw [load_congr 4 _ fun i _ hi => hmem i (Nat.lt_of_lt_of_le hi (by simp)),
      ofNat_load_store32_same]
  have hsum : database_checksum (pager.mem.store32 (DatabaseHeader.checksum database_header) 0)
      database_header = database_checksum m database_header := by
    rw [database_checksum_store32, database_checksum_congr fun i _ hi =>
      hmem i (Nat.lt_trans hi (by simp)), database_checksum_store32]
  simp only [pager_verify_db, pager_get_page_zero]
  split
  next hfailed => exact absurd (hfailed.symm.trans hmagic) Bool.false_ne_true
  next =>
    split
    next hfailed => exact absurd (hstored.trans hsum.symm) hfailed
    next => rfl

/-! ## §4. Opening again. -/

theorem init_free_page_map_mem (pager : Pager) : (init_free_page_map pager).mem = pager.mem := by
  simp only [init_free_page_map, pager_get_page_zero]
  rfl

/-- The reopened database is verified and has the header of the closed one; its tracker
holds the smallest free pages, as many as the list has room for, and counts them. -/
structure Restored (last reopened : Pager) : Prop where
  verified : pager_verify_db reopened = PSQL_OK
  root_table : reopened.mem.load16 (DatabaseHeader.root_table_catalog database_header)
    = last.mem.load16 (DatabaseHeader.root_table_catalog database_header)
  root_column : reopened.mem.load16 (DatabaseHeader.root_column_catalog database_header)
    = last.mem.load16 (DatabaseHeader.root_column_catalog database_header)
  root_fk : reopened.mem.load16 (DatabaseHeader.root_fk_catalog database_header)
    = last.mem.load16 (DatabaseHeader.root_fk_catalog database_header)
  highest : reopened.highest_page = last.highest_page
  smallest : pages reopened.free_page_map.tree
    = ((sorted_pages last.free_page_map.tree).take FREE_PAGE_LIST_SIZE).toFinset
  all : (pages last.free_page_map.tree).card ≤ FREE_PAGE_LIST_SIZE →
    pages reopened.free_page_map.tree = pages last.free_page_map.tree
  counted : reopened.free_page_map.num_frees.toNat = (pages reopened.free_page_map.tree).card

/-- The pager of the file that a close leaves. -/
def reopened_pager (pager : Pager) : Pager :=
  let closed := (close_file .ok pager).2
  init_free_page_map (opened_pager closed.db_pager.file closed.db_pager.file_end)

/-- Page 0 of the reopened file is that of the closed mapping. -/
theorem reopened_header {pager : Pager} (h : PAGE_SIZE ≤ pager.db_pager.file_end) :
    SameHeader (close_file .ok pager).2.mem (reopened_pager pager).mem := by
  obtain ⟨-, -, hend⟩ := close_file_spec pager
  intro i hi
  have hpos : (close_file .ok pager).2.db_pager.file_end ≠ 0 := by
    rw [hend]
    exact Nat.ne_of_gt (Nat.lt_of_lt_of_le (by decide) h)
  have hbytes : (opened_pager (close_file .ok pager).2.db_pager.file
      (close_file .ok pager).2.db_pager.file_end).mem
      = (close_file .ok pager).2.db_pager.file := if_neg hpos
  rw [reopened_pager, init_free_page_map_mem, hbytes]
  exact if_pos (hend ▸ Nat.lt_of_lt_of_le hi h)

/-- The tracker loaded from a list of the smallest free pages. -/
theorem reopened_tracker {pager : Pager} (h : TreeOk pager.free_page_map.tree)
    (hlist : (reopened_pager pager).header_list
      = (sorted_pages pager.free_page_map.tree).take FREE_PAGE_LIST_SIZE) :
    pages (reopened_pager pager).free_page_map.tree
        = ((sorted_pages pager.free_page_map.tree).take FREE_PAGE_LIST_SIZE).toFinset
    ∧ (reopened_pager pager).free_page_map.num_frees.toNat
        = (pages (reopened_pager pager).free_page_map.tree).card := by
  have hnodup := (nodup_sorted_pages pager.free_page_map.tree).sublist
    (List.take_sublist FREE_PAGE_LIST_SIZE _)
  -- page 0 is not listed, so no entry is skipped
  have hall : ((sorted_pages pager.free_page_map.tree).take FREE_PAGE_LIST_SIZE).filter (· ≠ 0)
      = (sorted_pages pager.free_page_map.tree).take FREE_PAGE_LIST_SIZE := by
    refine List.filter_eq_self.mpr fun p hp => decide_eq_true fun h0 => h.zero_notMem ?_
    exact h0 ▸ mem_sorted_pages.mp (List.mem_of_mem_take hp)
  obtain ⟨-, hpages, hnum⟩ := init_free_page_map_spec
    (opened_pager (close_file .ok pager).2.db_pager.file
      (close_file .ok pager).2.db_pager.file_end)
  have hloaded : loaded_pages (opened_pager (close_file .ok pager).2.db_pager.file
      (close_file .ok pager).2.db_pager.file_end)
      = (sorted_pages pager.free_page_map.tree).take FREE_PAGE_LIST_SIZE := by
    rw [← hall, ← hlist, reopened_pager, Pager.header_list, init_free_page_map_mem]
    rfl
  rw [hloaded] at hpages hnum
  refine ⟨hpages, hnum.trans ?_⟩
  rw [reopened_pager, hpages, List.toFinset_card_of_nodup hnodup]
  refine Nat.mod_eq_of_lt (Nat.lt_of_le_of_lt (List.length_take_le _ _) (by decide))

/-- **Closing and opening again** restores a closable database. -/
theorem Closable.restored {pager : Pager} (h : Closable pager) :
    Restored pager (reopened_pager pager) := by
  obtain ⟨-, hmem, -⟩ := close_file_spec pager
  obtain ⟨hlist, hfits, hsync⟩ := sync_free_page_list_spec pager
  have hheader := reopened_header h.file
  rw [hmem] at hheader
  -- away from the checksum page 0 is that of the synced pager
  have hsynced : ∀ i < DatabaseHeader.checksum database_header,
      (reopened_pager pager).mem i = (sync_free_page_list pager).2.mem i := fun i hi =>
    (hheader i (Nat.lt_trans hi (by simp))).trans (store32_outside _ _ (Or.inl hi))
  -- away from the list too, it is that of the pager before the close
  have hfield : ∀ a, (a + 2 ≤ DatabaseHeader.free_page_list database_header
      ∨ DatabaseHeader.highest_page database_header ≤ a) →
      a + 2 ≤ DatabaseHeader.checksum database_header →
      (reopened_pager pager).mem.load16 a = pager.mem.load16 a := by
    intro a ha hle
    rw [load16, load_congr 2 a fun i _ hi => hsynced i (Nat.lt_of_lt_of_le hi hle), ← load16]
    exact hsync.load16 ha
  have hlisted : (reopened_pager pager).header_list
      = (sorted_pages pager.free_page_map.tree).take FREE_PAGE_LIST_SIZE := by
    rw [← hlist]
    exact list_at_congr (fun i _ hi => hsynced i (Nat.lt_trans hi (by simp))) hfits
  have hmagic : header_magic_ok (reopened_pager pager).mem database_header = true := by
    rw [header_magic_ok_congr fun i _ hi => (hsynced i (Nat.lt_trans hi (by simp))).trans
      (hsync i (Or.inl (Nat.lt_trans hi (by simp))))]
    exact h.magic
  obtain ⟨hpages, hnum⟩ := reopened_tracker h.tracked.tree hlisted
  refine ⟨verify_db_ok hmagic hheader, hfield _ (by simp) (by simp), hfield _ (by simp) (by simp),
    hfield _ (by simp) (by simp), hfield _ (by simp) (by simp), hpages, fun hle => ?_, hnum⟩
  rw [hpages, List.take_of_length_le (by rwa [length_sorted_pages])]
  exact Finset.sort_toFinset _ _

end PreSeQL.Db
