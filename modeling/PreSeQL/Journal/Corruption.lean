/-
  PreSeQL.Journal.Corruption — damaged headers are refused.

  Both file headers end in a checksum of what stands in front of it.  A change within
  four consecutive bytes of that part changes the checksum, so a header that passed
  its check does not pass it any more:

    • `verify_db_corrupt` — for the database header,
    • `journal_init_corrupt` — for the header of a journal with something behind it,
    • `damaged_headers_refused` — both, and the checksum itself.
-/
import PreSeQL.Algorithm.CrcBits
import PreSeQL.Journal.Spec
import PreSeQL.Pager.Close

namespace PreSeQL.Rollback

open PreSeQL.Lib PreSeQL.Lib.Mem PreSeQL.Crc PreSeQL.Db PSqlStatus

/-! ## §1. Changes of a range of bytes. -/

/-- The `n` bytes from address `a` are changed by a burst, and no other byte is. -/
structure Damaged (a n : Nat) (m m' : Mem) : Prop where
  burst : Burst (m.bytes a n) (m'.bytes a n)
  frame : m.SameOff a (a + n) m'

theorem getElem?_bytes (m : Mem) (a n i : Nat) :
    (m.bytes a n)[i]? = if i < n then some (m (a + i)) else none := by
  rw [bytes_eq_map]
  by_cases h : i < n
  · simp [h]
  · simp [h]

/-- One other byte is a burst. -/
theorem damaged_store8 (m : Mem) {a n i : Nat} (hi : i < n) {v : UInt8} (hv : v ≠ m (a + i)) :
    Damaged a n m (m.store8 (a + i) v) := by
  have hat : (m.store8 (a + i) v) (a + i) = v := load8_store8_same m (a + i) v
  have hoff : ∀ j, j ≠ a + i → (m.store8 (a + i) v) j = m j := by
    intro j hj
    exact sameOff_store m (a + i) 1 v.toNat j (by omega)
  constructor
  · constructor
    · rw [bytes_eq_map, bytes_eq_map, List.length_map, List.length_map]
    · intro h
      have hbyte := congrArg (fun l : List UInt8 => l[i]?) h
      simp only [getElem?_bytes, hi, if_true, hat, Option.some.injEq] at hbyte
      exact hv hbyte.symm
    · refine ⟨i, fun j hj => ?_⟩
      rw [getElem?_bytes, getElem?_bytes, hoff (a + j) (by omega)]
  · intro j hj
    exact hoff j (by omega)

/-! ## §2. The two checks. -/

/-- **A damaged database header** is refused. -/
theorem verify_db_corrupt {pager : Pager} {m : Mem} (hok : pager_verify_db pager = PSQL_OK)
    (h : Damaged database_header (DatabaseHeader.checksum 0) pager.mem m) :
    pager_verify_db (pager.withMem m) = PSQL_CORRUPT := by
  have hsum : database_checksum pager.mem database_header
      ≠ database_checksum m database_header := crc32_burst_ne h.burst
  have hstored : m.load (DatabaseHeader.checksum database_header) 4
      = pager.mem.load (DatabaseHeader.checksum database_header) 4 :=
    h.frame.load (Or.inr (by simp))
  simp only [pager_verify_db, pager_get_page_zero, data_zero, database_checksum_store32] at hok
  simp only [pager_verify_db, pager_get_page_zero, data_zero, database_checksum_store32,
    Pager.withMem_mem]
  split at hok
  next => cases hok
  next =>
    split at hok
    next => cases hok
    next hsame =>
      -- the stored checksum is that of the bytes before
      split
      next => rfl
      next =>
        rw [if_pos]
        rw [hstored, not_ne_iff.mp hsame]
        exact hsum

/-- The status of opening a journal that has something behind its header. -/
theorem journal_init_existing (sys : Syscalls) {journal : Journal}
    (hentries : JournalHeader.sizeof < journal.file.length) :
    (journal_init sys journal).1 =
      if sys.openFile = false ∨ sys.fstat = false ∨ sys.mmap = false then PSQL_IOERR
      else if magic_ok journal.file.bytes = true ∧ checksum_ok journal.file.bytes = true then
        PSQL_OK
      else PSQL_CORRUPT := by
  have hnew : journal.file.length ≠ 0 := by omega
  have hsize : journal.file.length ≠ JournalHeader.sizeof := by omega
  simp only [journal_init, hnew, hsize, if_false, false_and]
  cases sys.openFile <;> cases sys.fstat <;> cases sys.mmap <;>
    cases magic_ok journal.file.bytes <;> cases checksum_ok journal.file.bytes <;> rfl

/-- **A damaged journal header** is refused, when anything stands behind it. -/
theorem journal_init_corrupt {sys : Syscalls} {journal : Journal} {m : Mem}
    (hok : (journal_init sys journal).1 = PSQL_OK)
    (hentries : JournalHeader.sizeof < journal.file.length)
    (h : Damaged 0 JournalHeader.checksum journal.file.bytes m) :
    (journal_init sys (journal.withBytes m)).1 = PSQL_CORRUPT := by
  have hsum : header_checksum journal.file.bytes ≠ header_checksum m := crc32_burst_ne h.burst
  have hstored : m.load JournalHeader.checksum 4
      = journal.file.bytes.load JournalHeader.checksum 4 := h.frame.load (Or.inr (by simp))
  rw [journal_init_existing sys hentries] at hok
  rw [journal_init_existing sys (show JournalHeader.sizeof < (journal.withBytes m).file.length
    from hentries)]
  split at hok
  next => cases hok
  next hcalls =>
    split at hok
    next hpassed =>
      -- the stored checksum is that of the bytes before
      have hbefore := beq_iff_eq.mp hpassed.2
      rw [if_neg hcalls, if_neg]
      intro hafter
      have hnow : UInt32.ofNat (m.load JournalHeader.checksum 4) = header_checksum m :=
        beq_iff_eq.mp hafter.2
      apply hsum
      rw [← hbefore, ← hnow, hstored]
    next => cases hok

/-- **Every short burst is noticed**: by the checksum of any two strings, by the check of a
database that had passed it, and by the opening of a journal that holds entries. -/
theorem damaged_headers_refused :
    (∀ xs ys : List UInt8, Burst xs ys → calculate_crc32 xs ≠ calculate_crc32 ys)
    ∧ (∀ (pager : Pager) (m : Mem), pager_verify_db pager = PSQL_OK →
        Damaged database_header (DatabaseHeader.checksum 0) pager.mem m →
        pager_verify_db (pager.withMem m) = PSQL_CORRUPT)
    ∧ (∀ (sys : Syscalls) (journal : Journal) (m : Mem),
        (journal_init sys journal).1 = PSQL_OK → JournalHeader.sizeof < journal.file.length →
        Damaged 0 JournalHeader.checksum journal.file.bytes m →
        (journal_init sys (journal.withBytes m)).1 = PSQL_CORRUPT) :=
  ⟨fun _ _ => crc32_burst_ne, fun _ _ => verify_db_corrupt, fun _ _ _ => journal_init_corrupt⟩

/-- A new database that was closed and opened again. -/
abbrev reopened_fresh : Pager := reopened_pager (pager_init_new_db .ok fresh_pager).2

/-- A journal with a new header and one entry of zeros. -/
def one_entry_journal : Journal where
  file := ⟨new_journal_header fun _ => 0, JournalHeader.sizeof + packed_layout.sizeof⟩
  fdOpen := false
  journal_mem := none
  journal_size := 0

/-- One byte changed: in a string, and after the magic number of both headers. -/
theorem damaged_headers_refused_once :
    calculate_crc32 [1, 2] ≠ calculate_crc32 [1, 3]
    ∧ (∃ v, pager_verify_db (reopened_fresh.withMem
        (reopened_fresh.mem.store8 (database_header + 8) v)) = PSQL_CORRUPT)
    ∧ (∃ v, (journal_init .ok (one_entry_journal.withBytes
        (one_entry_journal.file.bytes.store8 (0 + 8) v))).1 = PSQL_CORRUPT) := by
  have hother : ∀ v : UInt8, v + 1 ≠ v := by
    intro v
    simp
  refine ⟨?_, ?_, ?_⟩
  · apply damaged_headers_refused.1
    refine ⟨rfl, by decide, 0, fun i hi => ?_⟩
    have htwo : 2 ≤ i := by omega
    rw [List.getElem?_eq_none htwo, List.getElem?_eq_none htwo]
  · have hverified : pager_verify_db reopened_fresh = PSQL_OK :=
      (Closable.restored ⟨newDb_fresh.created.tracked, newDb_fresh.created.magic,
        newDb_fresh.created.file⟩).verified
    exact ⟨_, damaged_headers_refused.2.1 _ _ hverified
      (damaged_store8 _ (by simp) (hother _))⟩
  · have hopened : (journal_init .ok one_entry_journal).1 = PSQL_OK := by
      obtain ⟨hmagic, hsum⟩ := (new_journal_header_spec fun _ => 0).1
      rw [journal_init_existing _ (by decide), if_neg (by decide)]
      exact if_pos ⟨hmagic, hsum⟩
    exact ⟨_, damaged_headers_refused.2.2 _ _ _ hopened (by decide)
      (damaged_store8 _ (by decide) (hother _))⟩

end PreSeQL.Rollback
