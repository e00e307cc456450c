/-
  PreSeQL.Journal.Bookkeeping — the recorded size, the file and the mapping.

  `journal_size` is what the next `munmap` and `msync` go by.  Opening, appending, commit
  and rollback set it together with the file and the mapping; a transaction that does not
  follow the last one cuts the file and sets the size, but leaves the mapping.

    • `journal_init_covered` — opening, for any file and whatever fails,
    • `JournalCall.covered_exec_iff` — one call without I/O failure,
    • `journal_size_covered_iff` — every run of such calls.
-/
import PreSeQL.Journal.Exits
import PreSeQL.Lib.Run

namespace PreSeQL.Rollback

open PreSeQL.Lib PreSeQL.Lib.Run PreSeQL.Db PSqlStatus

variable {layout : EntryLayout} {journal : Journal}

/-- The recorded size is the length of the file and of the mapping. -/
structure Covered (journal : Journal) : Prop where
  size_eq : journal.journal_size = journal.file.length
  mapping_eq : journal.journal_mem = some journal.journal_size

/-- So it is whenever the journal is open. -/
def CoveredOpen (journal : Journal) : Prop := journal.isOpen = true → Covered journal

theorem coveredOpen_of_closed (h : journal.isOpen = false) : CoveredOpen journal :=
  fun ho => absurd (h.symm.trans ho) Bool.false_ne_true

/-! ## §1. One call. -/

theorem journal_init_covered (sys : Syscalls) (journal : Journal) :
    CoveredOpen (journal_init sys journal).2 := by
  have hexits := init_exits sys journal
  generalize journal_init sys journal = r at hexits ⊢
  cases hexits with
  | failed => exact coveredOpen_of_closed rfl
  | new => exact fun _ => ⟨rfl, rfl⟩
  | taken => exact fun _ => ⟨rfl, rfl⟩

/-- The journal after a call none of whose system calls fails. -/
def JournalCall.exec (layout : EntryLayout) (journal : Journal) (call : JournalCall) : Journal :=
  (JournalCall.run layout journal (.ok, call)).2

/-- A transaction follows the last one, or begins on a journal of header length. -/
def JournalCall.Follows (journal : Journal) : JournalCall → Prop
  | within (.begin_transaction txn_id) => journal.isOpen = true →
      txn_id = journal.highest_txn_id + 1 ∨ journal.journal_size = JournalHeader.sizeof
  | _ => True

/-- A begin opens and closes nothing. -/
theorem begin_isOpen (sys : Syscalls) (journal : Journal) (txn_id : UInt32) :
    (journal_begin_transaction sys journal txn_id).2.isOpen = journal.isOpen := by
  have hexits := begin_exits sys journal txn_id
  generalize journal_begin_transaction sys journal txn_id = r at hexits ⊢
  cases hexits with
  | refused => rfl
  | begun =>
      by_cases hnext : txn_id ≠ journal.highest_txn_id + 1
      · rw [begin_base, if_pos hnext]
        rfl
      · rw [begin_base, if_neg hnext]
        rfl

theorem begin_covered_iff (hopen : journal.isOpen = true) (h : Covered journal)
    (txn_id : UInt32) :
    Covered (journal_begin_transaction .ok journal txn_id).2
      ↔ txn_id = journal.highest_txn_id + 1 ∨ journal.journal_size = JournalHeader.sizeof := by
  obtain ⟨-, hstate⟩ := begin_state (show journal_begin_transaction .ok journal txn_id
    = (PSQL_OK, (journal_begin_transaction .ok journal txn_id).2) from
      Prod.ext (begin_accepted hopen txn_id) rfl)
  rw [hstate, begin_base]
  by_cases hnext : txn_id = journal.highest_txn_id + 1
  · -- the header is written, nothing else
    rw [if_neg (not_not.mpr hnext)]
    exact iff_of_true ⟨h.size_eq, h.mapping_eq⟩ (Or.inl hnext)
  · rw [if_pos hnext, or_iff_right hnext]
    -- the mapping keeps the length it had
    constructor
    · intro hcovered
      exact Option.some.inj (h.mapping_eq.symm.trans hcovered.mapping_eq)
    · intro hheader
      exact ⟨rfl, h.mapping_eq.trans (congrArg some hheader)⟩

theorem add_page_covered (h : CoveredOpen journal) (txn_id page_no : UInt32)
    (page_data : Option (Nat → UInt8)) (data_size : UInt16) :
    CoveredOpen (journal_add_page layout .ok journal txn_id page_no page_data data_size).2 := by
  have hexits := add_page_exits layout .ok journal txn_id page_no page_data data_size
  generalize journal_add_page layout .ok journal txn_id page_no page_data data_size = r at hexits ⊢
  cases hexits with
  | refused => exact h
  | unmapped _ hlost => exact absurd ⟨rfl, rfl⟩ hlost
  | written => exact fun _ => ⟨rfl, rfl⟩

theorem finish_covered (h : CoveredOpen journal) (txn_id highest : UInt32) :
    CoveredOpen (finish_transaction .ok journal txn_id highest).2 := by
  have hexits := finish_exits .ok journal txn_id highest
  generalize finish_transaction .ok journal txn_id highest = r at hexits ⊢
  cases hexits with
  | refused => exact h
  | unmapped _ hlost => exact absurd ⟨rfl, rfl⟩ hlost
  | cut => exact fun _ => ⟨rfl, rfl⟩

/-- **One call** keeps the sizes together exactly when it meets its condition. -/
theorem JournalCall.covered_exec_iff (h : CoveredOpen journal) (call : JournalCall) :
    CoveredOpen (call.exec layout journal) ↔ call.Follows journal := by
  cases call with
  | init => exact iff_of_true (journal_init_covered .ok journal) trivial
  | close =>
      refine iff_of_true ?_ trivial
      show CoveredOpen (journal_close .ok journal).2
      rcases close_exits .ok journal with hsame | hclosed
      · rw [hsame]
        exact h
      · rw [hclosed]
        exact coveredOpen_of_closed rfl
  | within op =>
      cases op with
      | begin_transaction txn_id =>
          have hsame := begin_isOpen .ok journal txn_id
          by_cases hopen : journal.isOpen = true
          · have hafter : CoveredOpen (journal_begin_transaction .ok journal txn_id).2
                ↔ Covered (journal_begin_transaction .ok journal txn_id).2 :=
              ⟨fun h => h (hsame.trans hopen), fun h _ => h⟩
            exact hafter.trans ((begin_covered_iff hopen (h hopen) txn_id).trans
              ⟨fun hfollows _ => hfollows, fun hfollows => hfollows hopen⟩)
          · exact iff_of_true (fun ho => absurd (hsame.symm.trans ho) hopen)
              fun ho => absurd ho hopen
      | add_page txn_id page_no page_data data_size =>
          exact iff_of_true (add_page_covered h txn_id page_no page_data data_size) trivial
      | commit_transaction txn_id => exact iff_of_true (finish_covered h txn_id _) trivial
      | rollback_transaction txn_id => exact iff_of_true (finish_covered h txn_id _) trivial

/-! ## §2. Runs. -/

/-- Before the first call: any file, no journal open. -/
def not_open (file : JournalFile) : Journal := ⟨file, false, none, 0⟩

/-- **The sizes stay together** in every run without I/O failure exactly when every
transaction begun follows the last one or begins on a journal of header length. -/
theorem journal_size_covered_iff (layout : EntryLayout) (file : JournalFile)
    (calls : List JournalCall) :
    Throughout (JournalCall.exec layout) CoveredOpen (not_open file) calls
      ↔ EachStep (JournalCall.exec layout) JournalCall.Follows (not_open file) calls := by
  have hstart : CoveredOpen (not_open file) := coveredOpen_of_closed rfl
  have hstep : ∀ (journal : Journal) (call : JournalCall), True → CoveredOpen journal →
      (CoveredOpen (call.exec layout journal) ↔ call.Follows journal) :=
    fun _ call _ h => call.covered_exec_iff h
  rw [throughout_iff_eachStep (fun _ _ _ => trivial) hstep calls _ trivial]
  exact and_iff_right hstart

/-- An entry is recorded under transaction 1, then transaction 5 begins: the mapping is
longer than the file. -/
theorem mapping_outlives_file :
    let calls : List JournalCall :=
      [.init, .within (.begin_transaction 1), .within (.add_page 1 7 (some fun _ => 0) 4096),
        .within (.begin_transaction 5)]
    let journal := calls.foldl (JournalCall.exec packed_layout) (not_open ⟨fun _ => 0, 0⟩)
    journal.isOpen = true ∧ journal.journal_size = 24 ∧ journal.file.length = 24
    ∧ journal.journal_mem = some 4132 ∧ ¬ CoveredOpen journal := by
  intro calls journal
  have hopen : journal.isOpen = true := by decide +kernel
  have hsize : journal.journal_size = 24 := by decide +kernel
  have hmapping : journal.journal_mem = some 4132 := by decide +kernel
  refine ⟨hopen, hsize, by decide +kernel, hmapping, fun h => ?_⟩
  have heq := (h hopen).mapping_eq
  rw [hmapping, hsize] at heq
  exact absurd heq (by decide)

end PreSeQL.Rollback
