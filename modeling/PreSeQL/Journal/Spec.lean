/-
  PreSeQL.Journal.Spec — what a journal operation has done.

  One inversion lemma per operation lists the exits and the state at each (`f_exits`);
  from it, the state behind `PSQL_OK` (`f_ok`).  The header lemmas say when a header would
  be accepted by `journal_init`.
-/
import PreSeQL.Journal.Journal

namespace PreSeQL.Rollback

open PreSeQL.Lib PreSeQL.Lib.Mem PreSeQL.Crc PreSeQL.Db PSqlStatus

/-! ## §1. Headers. -/

/-- The header passes the checks of `journal_init`. -/
structure HeaderOk (bytes : Mem) : Prop where
  magic : magic_ok bytes = true
  checksum : checksum_ok bytes = true

/-- The transaction a header names. -/
def header_txn (bytes : Mem) : UInt32 :=
  UInt32.ofNat (bytes.load JournalHeader.highest_txn_id 4)

/-- Equal headers. -/
def SameHeader (m m' : Mem) : Prop := ∀ i < JournalHeader.sizeof, m' i = m i

theorem magic_ok_congr {m m' : Mem} (h : ∀ i < JournalHeader.version, m' i = m i) :
    magic_ok m' = magic_ok m := by
  unfold magic_ok
  rw [bytes_congr MAGIC_NUMBER.length JournalHeader.magic fun i _ hi =>
    h i (Nat.lt_of_lt_of_eq hi rfl)]

theorem header_checksum_congr {m m' : Mem} (h : ∀ i < JournalHeader.checksum, m' i = m i) :
    header_checksum m' = header_checksum m := by
  unfold header_checksum
  rw [bytes_congr JournalHeader.checksum 0 fun i _ hi => h i (Nat.lt_of_lt_of_eq hi rfl)]

theorem SameHeader.ok {m m' : Mem} (h : SameHeader m m') (hok : HeaderOk m) : HeaderOk m' := by
  refine ⟨?_, ?_⟩
  · rw [magic_ok_congr fun i hi => h i (Nat.lt_trans hi (by decide))]
    exact hok.magic
  · unfold checksum_ok
    rw [header_checksum_congr fun i hi => h i (Nat.lt_trans hi (by decide)),
      load_congr 4 JournalHeader.checksum fun i _ hi => h i hi]
    exact hok.checksum

theorem SameHeader.txn {m m' : Mem} (h : SameHeader m m') : header_txn m' = header_txn m := by
  unfold header_txn
  rw [load_congr 4 JournalHeader.highest_txn_id fun i _ hi => h i (Nat.lt_trans hi (by decide))]

theorem checksum_ok_write_checksum (m : Mem) : checksum_ok (write_checksum m) = true := by
  -- the checksum is taken of what stands in front of it
  have hsum : header_checksum (write_checksum m) = header_checksum m :=
    header_checksum_congr fun i hi => store32_outside m _ (Or.inl hi)
  unfold checksum_ok
  rw [hsum, write_checksum, ofNat_load_store32_same, beq_self_eq_true]

/-- A 32-bit field behind the magic number leaves it alone. -/
theorem magic_ok_store32 (m : Mem) {a : Nat} (v : UInt32) (h : JournalHeader.version ≤ a) :
    magic_ok (m.store32 a v) = magic_ok m :=
  magic_ok_congr fun _ hi => store32_outside m v (Or.inl (Nat.lt_of_lt_of_le hi h))

theorem headerOk_write_checksum {m : Mem} (h : magic_ok m = true) :
    HeaderOk (write_checksum m) := by
  refine ⟨?_, checksum_ok_write_checksum m⟩
  rw [write_checksum, magic_ok_store32 m _ (by decide)]
  exact h

theorem headerOk_write_highest {m : Mem} (h : magic_ok m = true) (txn_id : UInt32) :
    HeaderOk (write_highest m txn_id) := by
  refine headerOk_write_checksum ?_
  rw [magic_ok_store32 m _ (by decide)]
  exact h

theorem magic_ok_write_magic (m : Mem) :
    magic_ok (m.fill JournalHeader.magic MAGIC_NUMBER.length fun i => MAGIC_NUMBER.getD i 0)
      = true := by
  simp [magic_ok, MAGIC_NUMBER, bytes, fill]

theorem header_txn_write_checksum (m : Mem) : header_txn (write_checksum m) = header_txn m := by
  unfold header_txn write_checksum
  rw [store32, load_store_of_disjoint _ (Or.inl (by decide))]

theorem header_txn_write_highest (m : Mem) (txn_id : UInt32) :
    header_txn (write_highest m txn_id) = txn_id := by
  rw [write_highest, header_txn_write_checksum]
  exact ofNat_load_store32_same _ _ _

/-- **A new header** passes the checks and names transaction 0. -/
theorem new_journal_header_spec (m : Mem) :
    HeaderOk (new_journal_header m) ∧ header_txn (new_journal_header m) = 0 := by
  unfold new_journal_header
  refine ⟨headerOk_write_checksum ?_, ?_⟩
  · rw [magic_ok_store32 _ _ (by decide), magic_ok_store32 _ _ (by decide),
      magic_ok_store32 _ _ (by decide)]
    exact magic_ok_write_magic _
  · rw [header_txn_write_checksum]
    exact ofNat_load_store32_same _ _ _

/-! ## §2. Writes behind the header. -/

theorem sameHeader_truncate {file : JournalFile} {n : Nat} (h : JournalHeader.sizeof ≤ file.length)
    (hn : JournalHeader.sizeof ≤ n) : SameHeader file.bytes (file.truncate n).bytes :=
  fun _ hi => if_pos (Nat.lt_min.mpr ⟨Nat.lt_of_lt_of_le hi h, Nat.lt_of_lt_of_le hi hn⟩)

/-- An entry is written from its address on. -/
theorem write_entry_before (layout : EntryLayout) (m : Mem) {a i : Nat} (h : i < a)
    (txn_id page_no : UInt32) (page_data : Nat → UInt8) (data_size : UInt16) :
    write_entry layout m a txn_id page_no page_data data_size i = m i := by
  have hlt : ∀ offset, i < a + offset := fun offset => by omega
  unfold write_entry
  rw [fill_outside _ _ (Or.inl (hlt _)), store8, store, fill_outside _ _ (Or.inl (hlt _)),
    store16, store, fill_outside _ _ (Or.inl (hlt _)), store32_outside _ _ (Or.inl (hlt _)),
    store32_outside _ _ (Or.inl (hlt _))]

/-- Entries lie behind the header. -/
theorem sameHeader_write_entry (layout : EntryLayout) (m : Mem) {a : Nat}
    (h : JournalHeader.sizeof ≤ a) (txn_id page_no : UInt32) (page_data : Nat → UInt8)
    (data_size : UInt16) :
    SameHeader m (write_entry layout m a txn_id page_no page_data data_size) :=
  fun _ hi => write_entry_before layout m (Nat.lt_of_lt_of_le hi h) txn_id page_no page_data
    data_size

/-! ## §3. The exits of an operation. -/

/-- The mapping is replaced. -/
def Syscalls.Remapped (sys : Syscalls) : Prop := sys.munmap = true ∧ sys.mmap = true

theorem not_remapped_of_munmap {sys : Syscalls} (h : sys.munmap = false) : ¬ sys.Remapped :=
  fun hmaps => Bool.false_ne_true (h.symm.trans hmaps.1)

theorem not_remapped_of_mmap {sys : Syscalls} (h : sys.mmap = false) : ¬ sys.Remapped :=
  fun hmaps => Bool.false_ne_true (h.symm.trans hmaps.2)

theorem remapped_of_not {sys : Syscalls} (hmunmap : ¬ sys.munmap = false)
    (hmmap : ¬ sys.mmap = false) : sys.Remapped :=
  ⟨Bool.eq_true_of_not_eq_false hmunmap, Bool.eq_true_of_not_eq_false hmmap⟩

/-! ### Begin. -/

/-- The journal a transaction begins on. -/
def begin_base (journal : Journal) (txn_id : UInt32) : Journal :=
  if txn_id ≠ journal.highest_txn_id + 1 then reset_journal journal txn_id else journal

inductive BeginTransaction (journal : Journal) (txn_id : UInt32) : PSqlStatus × Journal → Prop where
  | refused {status : PSqlStatus} : status ≠ PSQL_OK →
      BeginTransaction journal txn_id (status, journal)
  | begun {status : PSqlStatus} : journal.isOpen = true →
      BeginTransaction journal txn_id (status, (begin_base journal txn_id).withBytes
        (write_highest (begin_base journal txn_id).file.bytes txn_id))

theorem begin_exits (sys : Syscalls) (journal : Journal) (txn_id : UInt32) :
    BeginTransaction journal txn_id (journal_begin_transaction sys journal txn_id) := by
  unfold journal_begin_transaction
  split
  · exact .refused (by decide)
  next hopen =>
    have hopen := Bool.eq_true_of_not_eq_false hopen
    split
    · exact .refused (by decide)
    · simp only
      split
      · exact .begun hopen
      · exact .begun hopen

theorem begin_state {sys : Syscalls} {journal journal' : Journal} {txn_id : UInt32}
    (h : journal_begin_transaction sys journal txn_id = (PSQL_OK, journal')) :
    journal.isOpen = true ∧ journal' = (begin_base journal txn_id).withBytes
      (write_highest (begin_base journal txn_id).file.bytes txn_id) := by
  have hexits := begin_exits sys journal txn_id
  rw [h] at hexits
  cases hexits with
  | refused hstatus => exact absurd rfl hstatus
  | begun hopen => exact ⟨hopen, rfl⟩

/-- A transaction begins on the present entries, or on a journal that was cleared. -/
theorem begin_ok {sys : Syscalls} {journal journal' : Journal} {txn_id : UInt32}
    (h : journal_begin_transaction sys journal txn_id = (PSQL_OK, journal')) :
    journal.isOpen = true ∧ ∃ base, (base = journal ∨ base = reset_journal journal txn_id)
      ∧ journal' = base.withBytes (write_highest base.file.bytes txn_id) := by
  obtain ⟨hopen, hstate⟩ := begin_state h
  exact ⟨hopen, begin_base journal txn_id, (ite_eq_or_eq _ _ _).symm, hstate⟩

/-! ### Recording a page. -/

/-- The file after an entry was written at `journal_size`. -/
def written_file (layout : EntryLayout) (journal : Journal) (txn_id page_no : UInt32)
    (data : Nat → UInt8) (data_size : UInt16) : JournalFile :=
  ⟨write_entry layout (journal.file.truncate (journal.journal_size + layout.sizeof)).bytes
      journal.journal_size txn_id page_no data data_size,
    journal.journal_size + layout.sizeof⟩

/-- The file is not touched. -/
def AddRefused (sys : Syscalls) (journal : Journal) (txn_id : UInt32)
    (page_data : Option (Nat → UInt8)) : Prop :=
  page_data = none ∨ journal.isOpen = false ∨ txn_id ≠ journal.highest_txn_id
    ∨ sys.ftruncate = false

inductive AddPage (layout : EntryLayout) (sys : Syscalls) (journal : Journal)
    (txn_id page_no : UInt32) (page_data : Option (Nat → UInt8)) (data_size : UInt16) :
    PSqlStatus × Journal → Prop where
  | refused {status : PSqlStatus} : AddRefused sys journal txn_id page_data → status ≠ PSQL_OK →
      AddPage layout sys journal txn_id page_no page_data data_size (status, journal)
  | unmapped {journal_mem : Option Nat} : ¬ AddRefused sys journal txn_id page_data →
      ¬ sys.Remapped → AddPage layout sys journal txn_id page_no page_data data_size
        (PSQL_IOERR, { journal with
          file := journal.file.truncate (journal.journal_size + layout.sizeof),
          journal_mem := journal_mem })
  | written {status : PSqlStatus} {data : Nat → UInt8} :
      ¬ AddRefused sys journal txn_id page_data → sys.Remapped → page_data = some data →
      (status = PSQL_OK ↔ sys.msync = true) →
      AddPage layout sys journal txn_id page_no page_data data_size
        (status, ⟨written_file layout journal txn_id page_no data data_size, journal.fdOpen,
          some (journal.journal_size + layout.sizeof), journal.journal_size + layout.sizeof⟩)

section

variable {sys : Syscalls} {journal : Journal} {txn_id : UInt32} {page_data : Option (Nat → UInt8)}

theorem AddRefused.isOpen (h : ¬ AddRefused sys journal txn_id page_data) :
    journal.isOpen = true :=
  Bool.eq_true_of_not_eq_false fun hclosed => h (Or.inr (Or.inl hclosed))

theorem AddRefused.highest (h : ¬ AddRefused sys journal txn_id page_data) :
    txn_id = journal.highest_txn_id :=
  not_not.mp fun htxn => h (Or.inr (Or.inr (Or.inl htxn)))

end

theorem add_page_exits (layout : EntryLayout) (sys : Syscalls) (journal : Journal)
    (txn_id page_no : UInt32) (page_data : Option (Nat → UInt8)) (data_size : UInt16) :
    AddPage layout sys journal txn_id page_no page_data data_size
      (journal_add_page layout sys journal txn_id page_no page_data data_size) := by
  unfold journal_add_page
  cases page_data with
  | none => exact .refused (Or.inl rfl) (by decide)
  | some data =>
      simp only
      split
      next hclosed => exact .refused (Or.inr (Or.inl hclosed)) (by decide)
      next hopen =>
        split
        next htxn => exact .refused (Or.inr (Or.inr (Or.inl htxn))) (by decide)
        next htxn =>
          split
          next htrunc => exact .refused (Or.inr (Or.inr (Or.inr htrunc))) (by decide)
          next htrunc =>
            have hgoes : ¬ AddRefused sys journal txn_id (some data) := by
              rintro (h | h | h | h)
              · cases h
              · exact hopen h
              · exact htxn h
              · exact htrunc h
            split
            next hmunmap => exact .unmapped hgoes (not_remapped_of_munmap hmunmap)
            next hmunmap =>
              split
              next hmmap => exact .unmapped hgoes (not_remapped_of_mmap hmmap)
              next hmmap =>
                have hmaps := remapped_of_not hmunmap hmmap
                split
                next hmsync =>
                  exact .written hgoes hmaps rfl
                    (iff_of_false (by decide) fun h => Bool.false_ne_true (hmsync.symm.trans h))
                next hmsync =>
                  exact .written hgoes hmaps rfl
                    (iff_of_true rfl (Bool.eq_true_of_not_eq_false hmsync))

/-- An entry is appended at `journal_size`. -/
theorem add_page_ok {layout : EntryLayout} {sys : Syscalls} {journal journal' : Journal}
    {txn_id page_no : UInt32} {page_data : Option (Nat → UInt8)} {data_size : UInt16}
    (h : journal_add_page layout sys journal txn_id page_no page_data data_size
      = (PSQL_OK, journal')) :
    journal.isOpen = true ∧ txn_id = journal.highest_txn_id ∧ ∃ data, page_data = some data
      ∧ journal' =
        { file := ⟨write_entry layout
            (journal.file.truncate (journal.journal_size + layout.sizeof)).bytes
            journal.journal_size txn_id page_no data data_size,
            journal.journal_size + layout.sizeof⟩,
          fdOpen := journal.fdOpen,
          journal_mem := some (journal.journal_size + layout.sizeof),
          journal_size := journal.journal_size + layout.sizeof } := by
  have hexits := add_page_exits layout sys journal txn_id page_no page_data data_size
  rw [h] at hexits
  cases hexits with
  | refused _ hstatus => exact absurd rfl hstatus
  | @written _ data hgoes _ hdata =>
      exact ⟨AddRefused.isOpen hgoes, AddRefused.highest hgoes, data, hdata, rfl⟩

/-! ### Commit and rollback. -/

inductive FinishTransaction (sys : Syscalls) (journal : Journal) (txn_id highest : UInt32) :
    PSqlStatus × Journal → Prop where
  | refused {status : PSqlStatus} : status ≠ PSQL_OK →
      FinishTransaction sys journal txn_id highest (status, journal)
  | unmapped {journal_mem : Option Nat} {journal_size : Nat} : journal.isOpen = true →
      ¬ sys.Remapped →
      (journal_size = journal.journal_size ∨ journal_size = JournalHeader.sizeof) →
      FinishTransaction sys journal txn_id highest
        (PSQL_IOERR, ⟨journal.file.truncate JournalHeader.sizeof, journal.fdOpen, journal_mem,
          journal_size⟩)
  | cut {status : PSqlStatus} : journal.isOpen = true → txn_id = journal.highest_txn_id →
      FinishTransaction sys journal txn_id highest
        (status, ⟨⟨write_highest (journal.file.truncate JournalHeader.sizeof).bytes highest,
            JournalHeader.sizeof⟩, journal.fdOpen, some JournalHeader.sizeof,
          JournalHeader.sizeof⟩)

theorem finish_exits (sys : Syscalls) (journal : Journal) (txn_id highest : UInt32) :
    FinishTransaction sys journal txn_id highest
      (finish_transaction sys journal txn_id highest) := by
  unfold finish_transaction
  split
  · exact .refused (by decide)
  next hopen =>
    have hopen := Bool.eq_true_of_not_eq_false hopen
    split
    · exact .refused (by decide)
    next htxn =>
      split
      · exact .refused (by decide)
      simp only
      split
      next hmunmap =>
        -- the mapping is still there: the size is the old one
        exact .unmapped hopen (not_remapped_of_munmap hmunmap) (Or.inl rfl)
      split
      next hmmap => exact .unmapped hopen (not_remapped_of_mmap hmmap) (Or.inr rfl)
      split
      · exact .cut hopen (not_not.mp htxn)
      · exact .cut hopen (not_not.mp htxn)

/-- Commit and rollback cut the journal to its header. -/
theorem finish_ok {sys : Syscalls} {journal journal' : Journal} {txn_id highest : UInt32}
    (h : finish_transaction sys journal txn_id highest = (PSQL_OK, journal')) :
    journal.isOpen = true ∧ txn_id = journal.highest_txn_id ∧ journal' =
      { file := ⟨write_highest (journal.file.truncate JournalHeader.sizeof).bytes highest,
          JournalHeader.sizeof⟩,
        fdOpen := journal.fdOpen,
        journal_mem := some JournalHeader.sizeof,
        journal_size := JournalHeader.sizeof } := by
  have hexits := finish_exits sys journal txn_id highest
  rw [h] at hexits
  cases hexits with
  | refused hstatus => exact absurd rfl hstatus
  | cut hopen htxn => exact ⟨hopen, htxn, rfl⟩

/-! ### Opening and closing. -/

/-- The file `journal_init` goes on with. -/
def initial_file (file : JournalFile) : JournalFile :=
  if file.length = 0 then file.truncate JournalHeader.sizeof else file

inductive JournalInit (journal : Journal) : PSqlStatus × Journal → Prop where
  /-- The file may have been grown to a header, or been given a new one. -/
  | failed {status : PSqlStatus} {file : JournalFile} {journal_size : Nat} : status ≠ PSQL_OK →
      (file = journal.file ∨ file.length = JournalHeader.sizeof) →
      JournalInit journal (status, ⟨file, false, none, journal_size⟩)
  | new : (initial_file journal.file).length = JournalHeader.sizeof →
      JournalInit journal (PSQL_OK, ⟨⟨new_journal_header (initial_file journal.file).bytes,
          (initial_file journal.file).length⟩, true, some (initial_file journal.file).length,
        (initial_file journal.file).length⟩)
  | taken : journal.file.length ≠ 0 → journal.file.length ≠ JournalHeader.sizeof →
      HeaderOk journal.file.bytes → JournalInit journal (PSQL_OK,
        ⟨journal.file, true, some journal.file.length, journal.file.length⟩)

theorem init_exits (sys : Syscalls) (journal : Journal) :
    JournalInit journal (journal_init sys journal) := by
  unfold journal_init
  split
  · exact .failed (by decide) (Or.inl rfl)
  split
  · exact .failed (by decide) (Or.inl rfl)
  by_cases hz : journal.file.length = 0
  · -- no file yet: it gets the length of a header, and a header
    have hinitial : initial_file journal.file = journal.file.truncate JournalHeader.sizeof :=
      if_pos hz
    simp only [hz, true_and, if_true]
    split
    · exact .failed (by decide) (Or.inl rfl)
    split
    · exact .failed (by decide) (Or.inr rfl)
    split
    · exact .failed (by decide) (Or.inr rfl)
    · have hexit := JournalInit.new (show (initial_file journal.file).length = _ by rw [hinitial]; rfl)
      rw [hinitial] at hexit
      exact hexit
  · -- a file: its length decides
    have hinitial : initial_file journal.file = journal.file := if_neg hz
    simp only [hz, false_and, if_false]
    split
    · exact .failed (by decide) (Or.inl rfl)
    split
    next hnew =>
      split
      · exact .failed (by decide) (Or.inr hnew)
      · have hexit := JournalInit.new (hinitial.symm ▸ hnew)
        rw [hinitial] at hexit
        exact hexit
    next hold =>
      split
      · exact .failed (by decide) (Or.inl rfl)
      next hmagic =>
        split
        · exact .failed (by decide) (Or.inl rfl)
        next hsum =>
          exact .taken hz hold ⟨Bool.eq_true_of_not_eq_false hmagic,
            Bool.eq_true_of_not_eq_false hsum⟩

/-- Opening: a file of exactly header length gets a new header, a longer one is taken as
it is when its header passes the checks. -/
theorem init_ok {sys : Syscalls} {journal journal' : Journal}
    (h : journal_init sys journal = (PSQL_OK, journal')) :
    let file := initial_file journal.file
    journal' = ⟨journal'.file, true, some file.length, file.length⟩
    ∧ (file.length = JournalHeader.sizeof
        ∧ journal'.file = ⟨new_journal_header file.bytes, file.length⟩
      ∨ file.length ≠ JournalHeader.sizeof ∧ journal'.file = file ∧ HeaderOk file.bytes) := by
  have hexits := init_exits sys journal
  rw [h] at hexits
  intro file
  cases hexits with
  | failed hstatus => exact absurd rfl hstatus
  | new hlen => exact ⟨rfl, Or.inl ⟨hlen, rfl⟩⟩
  | taken hz hold hheader =>
      have hinitial : file = journal.file := if_neg hz
      rw [hinitial]
      exact ⟨rfl, Or.inr ⟨hold, rfl, hheader⟩⟩

theorem close_exits (sys : Syscalls) (journal : Journal) :
    (journal_close sys journal).2 = journal
    ∨ (journal_close sys journal).2 = { journal.closed with journal_size := 0 } := by
  unfold journal_close
  split
  · exact Or.inl rfl
  split
  · exact Or.inl rfl
  split
  · exact Or.inl rfl
  · exact Or.inr rfl

/-- Closing keeps the file. -/
theorem close_ok {sys : Syscalls} {journal journal' : Journal}
    (h : journal_close sys journal = (PSQL_OK, journal')) : journal'.file = journal.file := by
  have hexits := close_exits sys journal
  rw [h] at hexits
  rcases hexits with rfl | rfl
  · rfl
  · rfl

end PreSeQL.Rollback
