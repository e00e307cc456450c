/-
  PreSeQL.Journal.Discipline — which transactions commit and rollback accept.

  A transaction is active from its begin to its commit or rollback.  The journal
  records one number only, and accepts commit and rollback for exactly that number:
  the last one begun, also after its commit, and one below it after its rollback.
  §2 is the effect of one call on the history, §3 the law for runs.
-/
import PreSeQL.Journal.Session
import PreSeQL.Lib.Run
import Mathlib.Data.Finset.Insert
import Mathlib.Data.Finset.Basic

namespace PreSeQL.Rollback

open PreSeQL.Lib.Run PSqlStatus

/-! ## §1. Histories. -/

/-- What the last accepted begin, commit or rollback was. -/
inductive LastCall where
  | none | begun | committed | rolledBack
  deriving DecidableEq

/-- The journal, the active transactions, and the last call. -/
structure History where
  journal : Journal
  active : Finset UInt32
  last : LastCall

/-- The history after an accepted call. -/
def JournalOp.record (s : History) (journal : Journal) : JournalOp → History
  | begin_transaction txn_id => ⟨journal, insert txn_id s.active, .begun⟩
  | add_page .. => ⟨journal, s.active, s.last⟩
  | commit_transaction txn_id => ⟨journal, s.active.erase txn_id, .committed⟩
  | rollback_transaction txn_id => ⟨journal, s.active.erase txn_id, .rolledBack⟩

variable (layout : EntryLayout)

/-- The history after a call, without I/O failure. -/
def JournalOp.exec (s : History) (op : JournalOp) : History :=
  match op.run layout .ok s.journal with
  | (PSQL_OK, journal) => op.record s journal
  | (_, journal) => ⟨journal, s.active, s.last⟩

/-- Commit and rollback are accepted for active transactions only, and change nothing
when they are refused. -/
def JournalOp.Disciplined (s : History) (op : JournalOp) : Prop :=
  match op with
  | commit_transaction txn_id | rollback_transaction txn_id =>
      ((op.run layout .ok s.journal).1 = PSQL_OK → txn_id ∈ s.active)
      ∧ ((op.run layout .ok s.journal).1 ≠ PSQL_OK → (op.run layout .ok s.journal).2 = s.journal)
  | _ => True

/-- A commit or rollback of the highest transaction comes in turn: after a begin, never
after a commit, and otherwise while that transaction is active. -/
def JournalOp.InTurn (s : History) : JournalOp → Prop
  | commit_transaction txn_id | rollback_transaction txn_id =>
      txn_id = s.journal.highest_txn_id →
        match s.last with
        | .begun => True
        | .committed => False
        | .none | .rolledBack => txn_id ∈ s.active
  | _ => True

/-! ## §2. One call. -/

/-- The highest transaction is active after a begin and not after a commit. -/
structure History.Consistent (s : History) : Prop where
  sound : Sound layout s.journal
  begun : s.last = .begun → s.journal.highest_txn_id ∈ s.active
  committed : s.last = .committed → s.journal.highest_txn_id ∉ s.active

variable {layout} {s : History}

theorem exec_accepted {op : JournalOp} (h : (op.run layout .ok s.journal).1 = PSQL_OK) :
    op.exec layout s = op.record s (op.run layout .ok s.journal).2 := by
  have hrun : op.run layout .ok s.journal = (PSQL_OK, (op.run layout .ok s.journal).2) :=
    Prod.ext h rfl
  rw [JournalOp.exec, hrun]

theorem exec_refused {op : JournalOp} (h : (op.run layout .ok s.journal).1 ≠ PSQL_OK)
    (hsame : (op.run layout .ok s.journal).2 = s.journal) : op.exec layout s = s := by
  unfold JournalOp.exec
  split
  next hrun => exact absurd (congrArg Prod.fst hrun) h
  next journal _ hrun =>
    rw [show journal = s.journal from (congrArg Prod.snd hrun).symm.trans hsame]

/-- **One call** keeps the history consistent. -/
theorem History.Consistent.exec (h : s.Consistent layout) (op : JournalOp) :
    (op.exec layout s).Consistent layout := by
  have hopen := h.sound.isOpen
  -- an accepted call is recorded, a refused one changes nothing
  by_cases hok : (op.run layout .ok s.journal).1 = PSQL_OK
  · rw [exec_accepted hok]
    have hrun : op.run layout .ok s.journal = (PSQL_OK, (op.run layout .ok s.journal).2) :=
      Prod.ext hok rfl
    refine ⟨?_, ?_, ?_⟩
    · cases op <;> exact h.sound.run hrun
    · cases op with
      | begin_transaction txn_id =>
          intro _
          rw [JournalOp.record, (h.sound.begin hrun).2]
          exact Finset.mem_insert_self _ _
      | add_page txn_id page_no page_data data_size =>
          rw [JournalOp.record, (h.sound.add_page hrun).2]
          exact h.begun
      | commit_transaction txn_id => exact nofun
      | rollback_transaction txn_id => exact nofun
    · cases op with
      | begin_transaction txn_id => exact nofun
      | add_page txn_id page_no page_data data_size =>
          rw [JournalOp.record, (h.sound.add_page hrun).2]
          exact h.committed
      | commit_transaction txn_id =>
          intro _
          rw [JournalOp.record, (h.sound.finish hrun).2.1]
          exact Finset.notMem_erase _ _
      | rollback_transaction txn_id => exact nofun
  · suffices hsame : (op.run layout .ok s.journal).2 = s.journal by
      rw [exec_refused hok hsame]
      exact h
    cases op with
    | begin_transaction txn_id => exact absurd (begin_accepted hopen txn_id) hok
    | add_page txn_id page_no page_data data_size => exact add_page_refused hopen hok
    | commit_transaction txn_id => exact (finish_accepted_iff hopen txn_id _).2 hok
    | rollback_transaction txn_id => exact (finish_accepted_iff hopen txn_id _).2 hok

/-- The highest transaction is active exactly when a commit or rollback of it is in turn. -/
theorem History.Consistent.mem_active_iff (h : s.Consistent layout) :
    s.journal.highest_txn_id ∈ s.active ↔
      match s.last with
      | .begun => True
      | .committed => False
      | .none | .rolledBack => s.journal.highest_txn_id ∈ s.active := by
  cases hlast : s.last with
  | none => exact Iff.rfl
  | begun => exact iff_true_intro (h.begun hlast)
  | committed => exact iff_false_intro (h.committed hlast)
  | rolledBack => exact Iff.rfl

theorem finish_disciplined_iff (h : s.Consistent layout) (txn_id highest : UInt32) :
    (((finish_transaction .ok s.journal txn_id highest).1 = PSQL_OK → txn_id ∈ s.active)
      ∧ ((finish_transaction .ok s.journal txn_id highest).1 ≠ PSQL_OK →
        (finish_transaction .ok s.journal txn_id highest).2 = s.journal))
    ↔ (txn_id = s.journal.highest_txn_id →
        match s.last with
        | .begun => True
        | .committed => False
        | .none | .rolledBack => txn_id ∈ s.active) := by
  obtain ⟨haccept, hrefuse⟩ := finish_accepted_iff h.sound.isOpen txn_id highest
  -- refusals are harmless, and acceptance is being the highest transaction
  rw [and_iff_left hrefuse, haccept]
  refine forall_congr' fun htxn => ?_
  rw [htxn]
  exact h.mem_active_iff

/-- **One call** is disciplined exactly when it comes in turn. -/
theorem JournalOp.disciplined_iff (h : s.Consistent layout) (op : JournalOp) :
    op.Disciplined layout s ↔ op.InTurn s := by
  cases op with
  | begin_transaction txn_id => exact Iff.rfl
  | add_page txn_id page_no page_data data_size => exact Iff.rfl
  | commit_transaction txn_id => exact finish_disciplined_iff h txn_id _
  | rollback_transaction txn_id => exact finish_disciplined_iff h txn_id _

/-! ## §3. Runs. -/

/-- **Transaction discipline** holds in a run, from any journal and any transactions that
are active there, exactly when every commit and rollback comes in turn. -/
theorem journal_discipline_iff (layout : EntryLayout) (journal : Journal)
    (h : Session layout journal) (active : Finset UInt32) (ops : List JournalOp) :
    EachStep (JournalOp.exec layout) (JournalOp.Disciplined layout) ⟨journal, active, .none⟩ ops
      ↔ EachStep (JournalOp.exec layout) JournalOp.InTurn ⟨journal, active, .none⟩ ops :=
  eachStep_congr (I := History.Consistent layout) (fun _ op hs => hs.exec op)
    (fun _ op hs => JournalOp.disciplined_iff hs op) ops _ ⟨h.sound, nofun, nofun⟩

/-- A new journal: transaction 1 is begun and committed. -/
theorem journal_discipline_new :
    EachStep (JournalOp.exec packed_layout) (JournalOp.Disciplined packed_layout)
        ⟨new_journal, ∅, .none⟩ [.begin_transaction 1, .commit_transaction 1]
      ↔ EachStep (JournalOp.exec packed_layout) JournalOp.InTurn
        ⟨new_journal, ∅, .none⟩ [.begin_transaction 1, .commit_transaction 1] :=
  journal_discipline_iff _ _ (session_new_journal packed_layout) _ _

/-- Transaction 1 is begun, committed and then rolled back. -/
theorem journal_rolls_back_committed :
    let ops : List JournalOp :=
      [.begin_transaction 1, .commit_transaction 1, .rollback_transaction 1]
    let committed := (journal_commit_transaction .ok begun_journal 1).2
    Session packed_layout new_journal
    ∧ (journal_rollback_transaction .ok committed 1).1 = PSQL_OK
    ∧ ¬ EachStep (JournalOp.exec packed_layout) (JournalOp.Disciplined packed_layout)
        ⟨new_journal, ∅, .none⟩ ops := by
  intro ops committed
  have hbegun := (session_begun_journal packed_layout).sound
  have hcommit : (journal_commit_transaction .ok begun_journal 1).1 = PSQL_OK :=
    (finish_accepted_iff hbegun.isOpen 1 1).1.mpr (begun_journal_highest packed_layout).symm
  obtain ⟨hsound, hhigh, -⟩ := hbegun.finish (Prod.ext hcommit rfl)
  have hrollback : (journal_rollback_transaction .ok committed 1).1 = PSQL_OK :=
    (finish_accepted_iff hsound.isOpen 1 _).1.mpr hhigh.symm
  refine ⟨session_new_journal packed_layout, hrollback, fun h => ?_⟩
  have h₁ : JournalOp.exec packed_layout ⟨new_journal, ∅, .none⟩ (.begin_transaction 1)
      = ⟨begun_journal, insert 1 ∅, .begun⟩ := exec_accepted (begin_accepted rfl 1)
  have h₂ : JournalOp.exec packed_layout ⟨begun_journal, insert 1 ∅, .begun⟩
      (.commit_transaction 1) = ⟨committed, (insert 1 ∅ : Finset UInt32).erase 1, .committed⟩ :=
    exec_accepted hcommit
  obtain ⟨-, -, hlast, -⟩ := h
  rw [h₁, h₂] at hlast
  exact absurd (hlast.1 hrollback) (Finset.notMem_erase _ _)

end PreSeQL.Rollback
