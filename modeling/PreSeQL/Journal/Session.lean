/-
  PreSeQL.Journal.Session — the states in which an open journal can be.

  A session starts with `journal_init` on an absent or empty file, goes on with
  operations that return `PSQL_OK`, and may close the journal and open it again.  In
  every such state the header passes the checks of `journal_init`, the size variable
  is the length of the file, and whole entries follow the header.
-/
import PreSeQL.Journal.Spec

namespace PreSeQL.Rollback

open PreSeQL.Lib PreSeQL.Lib.Mem PreSeQL.Db PSqlStatus

/-! ## §1. Operations and sessions. -/

inductive JournalOp where
  | begin_transaction (txn_id : UInt32)
  | add_page (txn_id page_no : UInt32) (page_data : Option (Nat → UInt8)) (data_size : UInt16)
  | commit_transaction (txn_id : UInt32)
  | rollback_transaction (txn_id : UInt32)

def JournalOp.run (layout : EntryLayout) (sys : Syscalls) (journal : Journal) :
    JournalOp → PSqlStatus × Journal
  | begin_transaction txn_id => journal_begin_transaction sys journal txn_id
  | add_page txn_id page_no page_data data_size =>
      journal_add_page layout sys journal txn_id page_no page_data data_size
  | commit_transaction txn_id => journal_commit_transaction sys journal txn_id
  | rollback_transaction txn_id => journal_rollback_transaction sys journal txn_id

/-- No journal file, and none open. -/
def no_journal : Journal := ⟨⟨fun _ => 0, 0⟩, false, none, 0⟩

/-- The states of an open journal. -/
inductive Session (layout : EntryLayout) : Journal → Prop where
  | init {sys : Syscalls} {journal : Journal} :
      journal_init sys no_journal = (PSQL_OK, journal) → Session layout journal
  | op {sys : Syscalls} {journal journal' : Journal} (op : JournalOp) :
      Session layout journal → op.run layout sys journal = (PSQL_OK, journal') →
        Session layout journal'
  | reopen {sys sys' : Syscalls} {journal journal₁ journal₂ : Journal} :
      Session layout journal → journal_close sys journal = (PSQL_OK, journal₁) →
        journal_init sys' journal₁ = (PSQL_OK, journal₂) → Session layout journal₂

/-- A session goes on after a call that returned `PSQL_OK`. -/
theorem Session.next {layout : EntryLayout} {journal : Journal} (h : Session layout journal)
    (sys : Syscalls) (op : JournalOp) (hok : (op.run layout sys journal).1 = PSQL_OK) :
    Session layout (op.run layout sys journal).2 :=
  .op op h (show op.run layout sys journal = (PSQL_OK, (op.run layout sys journal).2) from
    Prod.ext hok rfl)

/-! ## §2. The invariant. -/

structure Sound (layout : EntryLayout) (journal : Journal) : Prop where
  isOpen : journal.isOpen = true
  header : HeaderOk journal.file.bytes
  size_eq : journal.journal_size = journal.file.length
  whole : ∃ k, journal.file.length = JournalHeader.sizeof + k * layout.sizeof

variable {layout : EntryLayout} {journal journal' : Journal}

theorem Sound.sizeof_le (h : Sound layout journal) :
    JournalHeader.sizeof ≤ journal.file.length := by
  obtain ⟨k, hk⟩ := h.whole
  exact hk ▸ Nat.le_add_right _ _

/-- The magic number survives cutting the file to its header. -/
theorem Sound.header_truncate (h : Sound layout journal) {n : Nat} (hn : JournalHeader.sizeof ≤ n) :
    HeaderOk (journal.file.truncate n).bytes :=
  (sameHeader_truncate h.sizeof_le hn).ok h.header

theorem Sound.begin {sys : Syscalls} {txn_id : UInt32} (h : Sound layout journal)
    (hrun : journal_begin_transaction sys journal txn_id = (PSQL_OK, journal')) :
    Sound layout journal' ∧ journal'.highest_txn_id = txn_id := by
  obtain ⟨-, base, hbase, rfl⟩ := begin_ok hrun
  refine ⟨?_, header_txn_write_highest _ _⟩
  rcases hbase with rfl | rfl
  · exact ⟨h.isOpen, headerOk_write_highest h.header.magic txn_id, h.size_eq, h.whole⟩
  · have hmagic := (h.header_truncate (Nat.le_refl _)).magic
    rw [← magic_ok_store32 _ (txn_id - 1)
      (show JournalHeader.version ≤ JournalHeader.highest_txn_id by decide)] at hmagic
    exact ⟨h.isOpen, headerOk_write_highest hmagic txn_id, rfl, 0, by simp [reset_journal,
      Journal.withBytes, JournalFile.truncate]⟩

theorem Sound.add_page {sys : Syscalls} {txn_id page_no : UInt32}
    {page_data : Option (Nat → UInt8)} {data_size : UInt16} (h : Sound layout journal)
    (hrun : journal_add_page layout sys journal txn_id page_no page_data data_size
      = (PSQL_OK, journal')) :
    Sound layout journal' ∧ journal'.highest_txn_id = journal.highest_txn_id := by
  obtain ⟨-, -, data, -, rfl⟩ := add_page_ok hrun
  have hlen : JournalHeader.sizeof ≤ journal.journal_size := h.size_eq ▸ h.sizeof_le
  -- the header survives growing the file and writing behind it
  have hcut := sameHeader_truncate h.sizeof_le
    (Nat.le_trans hlen (Nat.le_add_right _ layout.sizeof))
  have hentry := sameHeader_write_entry layout
    (journal.file.truncate (journal.journal_size + layout.sizeof)).bytes hlen txn_id page_no data
    data_size
  obtain ⟨hfd, -⟩ := (Bool.and_eq_true _ _).mp h.isOpen
  obtain ⟨k, hk⟩ := h.whole
  refine ⟨⟨?_, hentry.ok (hcut.ok h.header), rfl, k + 1, ?_⟩, hentry.txn.trans hcut.txn⟩
  · simp [Journal.isOpen, hfd]
  · -- one entry more
    rw [h.size_eq, hk, Nat.succ_mul, Nat.add_assoc]

theorem Sound.finish {sys : Syscalls} {txn_id highest : UInt32} (h : Sound layout journal)
    (hrun : finish_transaction sys journal txn_id highest = (PSQL_OK, journal')) :
    Sound layout journal' ∧ journal'.highest_txn_id = highest
    ∧ journal'.file.length = JournalHeader.sizeof := by
  obtain ⟨-, -, rfl⟩ := finish_ok hrun
  obtain ⟨hfd, -⟩ := (Bool.and_eq_true _ _).mp h.isOpen
  -- the file is cut behind the header, so the magic number is still there
  have hmagic := (h.header_truncate (Nat.le_refl _)).magic
  refine ⟨⟨?_, headerOk_write_highest hmagic highest, rfl, 0, ?_⟩,
    header_txn_write_highest _ _, rfl⟩
  · simp [Journal.isOpen, hfd]
  · simp

/-- **One operation** keeps the invariant. -/
theorem Sound.run {sys : Syscalls} {op : JournalOp} (h : Sound layout journal)
    (hrun : op.run layout sys journal = (PSQL_OK, journal')) : Sound layout journal' := by
  cases op with
  | begin_transaction txn_id => exact (h.begin hrun).1
  | add_page txn_id page_no page_data data_size => exact (h.add_page hrun).1
  | commit_transaction txn_id => exact (h.finish hrun).1
  | rollback_transaction txn_id => exact (h.finish hrun).1

/-- Opening a file that is empty or made of a header and whole entries. -/
theorem sound_init {sys : Syscalls} (hrun : journal_init sys journal = (PSQL_OK, journal'))
    (h : ∃ k, (initial_file journal.file).length = JournalHeader.sizeof + k * layout.sizeof) :
    Sound layout journal' := by
  obtain ⟨hstate, hfile⟩ := init_ok hrun
  obtain ⟨k, hk⟩ := h
  rcases hfile with ⟨hlen, hfile⟩ | ⟨-, hfile, hheader⟩
  · refine ⟨?_, ?_, ?_, k, ?_⟩
    · rw [hstate]
      rfl
    · rw [hfile]
      exact (new_journal_header_spec _).1
    · rw [hstate, hfile]
    · rw [hfile]
      exact hk
  · refine ⟨?_, ?_, ?_, k, ?_⟩
    · rw [hstate]
      rfl
    · rw [hfile]
      exact hheader
    · rw [hstate, hfile]
    · rw [hfile]
      exact hk

theorem Sound.initial_file (h : Sound layout journal) : initial_file journal.file = journal.file :=
  if_neg (Nat.ne_of_gt (Nat.lt_of_lt_of_le (by decide) h.sizeof_le))

/-- **Every session** keeps the invariant. -/
theorem Session.sound (h : Session layout journal) : Sound layout journal := by
  induction h with
  | init hinit => exact sound_init hinit ⟨0, by rw [Nat.zero_mul]; rfl⟩
  | op op _ hrun ih => exact ih.run hrun
  | reopen _ hclose hinit ih =>
      refine sound_init hinit ?_
      -- closing keeps the file, and it is not empty
      rw [close_ok hclose, ih.initial_file]
      exact ih.whole

/-! ## §3. Runs without I/O failure. -/

/-- Begin is always accepted. -/
theorem begin_accepted (h : journal.isOpen = true) (txn_id : UInt32) :
    (journal_begin_transaction .ok journal txn_id).1 = PSQL_OK := by
  simp [journal_begin_transaction, h, Syscalls.ok]

/-- Commit and rollback are accepted for the highest transaction; refused, they change
nothing. -/
theorem finish_accepted_iff (h : journal.isOpen = true) (txn_id highest : UInt32) :
    ((finish_transaction .ok journal txn_id highest).1 = PSQL_OK
      ↔ txn_id = journal.highest_txn_id)
    ∧ ((finish_transaction .ok journal txn_id highest).1 ≠ PSQL_OK →
      (finish_transaction .ok journal txn_id highest).2 = journal) := by
  by_cases ht : txn_id = journal.highest_txn_id
  · simp [finish_transaction, h, ht, Syscalls.ok]
  · simp [finish_transaction, h, ht]

/-- An entry is refused without any change unless it is for the highest transaction. -/
theorem add_page_refused (h : journal.isOpen = true) {txn_id page_no : UInt32}
    {page_data : Option (Nat → UInt8)} {data_size : UInt16}
    (hrefused : (journal_add_page layout .ok journal txn_id page_no page_data data_size).1
      ≠ PSQL_OK) :
    (journal_add_page layout .ok journal txn_id page_no page_data data_size).2 = journal := by
  cases page_data with
  | none => rfl
  | some data =>
      by_cases ht : txn_id = journal.highest_txn_id
      · simp [journal_add_page, h, ht, Syscalls.ok] at hrefused
      · simp [journal_add_page, h, ht]

/-- The journal of a new file. -/
def new_journal : Journal :=
  ⟨⟨new_journal_header (no_journal.file.truncate JournalHeader.sizeof).bytes,
    JournalHeader.sizeof⟩, true, some JournalHeader.sizeof, JournalHeader.sizeof⟩

theorem session_new_journal (layout : EntryLayout) : Session layout new_journal :=
  Session.init (show journal_init .ok no_journal = (PSQL_OK, new_journal) from rfl)

/-- The new journal with transaction 1 begun. -/
def begun_journal : Journal := (journal_begin_transaction .ok new_journal 1).2

theorem session_begun_journal (layout : EntryLayout) : Session layout begun_journal :=
  (session_new_journal layout).next .ok (.begin_transaction 1) (begin_accepted rfl 1)

theorem begun_journal_highest (layout : EntryLayout) : begun_journal.highest_txn_id = 1 :=
  ((session_new_journal layout).sound.begin (Prod.ext (begin_accepted rfl 1) rfl)).2

end PreSeQL.Rollback
