/-
  PreSeQL.Journal.Reopen — what closing and opening the journal preserves.

  A journal with entries comes back as it was.  One without entries has exactly the
  length of a header, which `journal_init` takes for a new file: its transaction
  number starts again at 0.
-/
import PreSeQL.Journal.Session

namespace PreSeQL.Rollback

open PreSeQL.Lib PreSeQL.Lib.Mem PreSeQL.Db PSqlStatus

variable {layout : EntryLayout} {journal : Journal}

/-- `journal_close`, then `journal_init` on the same file. -/
def reopen (journal : Journal) : PSqlStatus × Journal :=
  journal_init .ok (journal_close .ok journal).2

/-- The state before closing is the state after opening. -/
structure ReopenPreserves (layout : EntryLayout) (journal : Journal) : Prop where
  status : (reopen journal).1 = PSQL_OK
  highest : (reopen journal).2.highest_txn_id = journal.highest_txn_id
  entries : journal_entries layout (reopen journal).2.file = journal_entries layout journal.file
  valid : ∀ txn_id, journal_is_valid_transaction (reopen journal).2 txn_id
    = journal_is_valid_transaction journal txn_id

theorem journal_close_ok (h : journal.isOpen = true) :
    journal_close .ok journal = (PSQL_OK, { journal.closed with journal_size := 0 }) := by
  simp [journal_close, h, Syscalls.ok]

/-- A sound journal without entries is reinitialised. -/
theorem reopen_of_empty (h : Sound layout journal)
    (hlen : journal.file.length = JournalHeader.sizeof) :
    reopen journal = (PSQL_OK,
      ⟨⟨new_journal_header journal.file.bytes, JournalHeader.sizeof⟩, true,
        some JournalHeader.sizeof, JournalHeader.sizeof⟩) := by
  rw [reopen, journal_close_ok h.isOpen]
  simp [journal_init, Syscalls.ok, Journal.closed, Journal.withBytes, hlen]

/-- A sound journal with entries is taken as it is. -/
theorem reopen_of_entries (h : Sound layout journal)
    (hlen : journal.file.length ≠ JournalHeader.sizeof) :
    reopen journal = (PSQL_OK,
      ⟨journal.file, true, some journal.file.length, journal.file.length⟩) := by
  have hne : journal.file.length ≠ 0 :=
    Nat.ne_of_gt (Nat.lt_of_lt_of_le (by decide) h.sizeof_le)
  rw [reopen, journal_close_ok h.isOpen]
  simp only [JournalHeader.sizeof] at hlen
  simp [journal_init, Syscalls.ok, Journal.closed, hne, hlen, h.header.magic, h.header.checksum]

theorem journal_entries_eq_nil_iff (h : Sound layout journal) :
    journal_entries layout journal.file = [] ↔ journal.file.length = JournalHeader.sizeof := by
  obtain ⟨k, hk⟩ := h.whole
  have hcount : (journal.file.length - JournalHeader.sizeof) / layout.sizeof = k := by
    rw [hk, Nat.add_sub_cancel_left, Nat.mul_div_cancel _ layout.sizeof_pos]
  rw [journal_entries, List.map_eq_nil_iff, hcount, List.range_eq_nil, hk, Nat.add_eq_left]
  exact ⟨fun h0 => by rw [h0, Nat.zero_mul],
    fun h0 => (Nat.mul_eq_zero.mp h0).resolve_right (Nat.ne_of_gt layout.sizeof_pos)⟩

/-- Transaction numbers are accepted alike when the highest number is the same. -/
theorem is_valid_congr {journal' : Journal} (h : journal.isOpen = true)
    (h' : journal'.isOpen = true) (heq : journal'.highest_txn_id = journal.highest_txn_id)
    (txn_id : UInt32) :
    journal_is_valid_transaction journal' txn_id = journal_is_valid_transaction journal txn_id := by
  rw [journal_is_valid_transaction, journal_is_valid_transaction, h, h', heq]

/-- **Reopening restores the state** exactly of a journal that holds entries or whose
transaction number is 0. -/
theorem reopen_preserves_iff (layout : EntryLayout) (journal : Journal)
    (h : Session layout journal) :
    ReopenPreserves layout journal
      ↔ journal_entries layout journal.file ≠ [] ∨ journal.highest_txn_id = 0 := by
  have hsound := h.sound
  rw [Ne, journal_entries_eq_nil_iff hsound]
  -- the length of the file alone decides what `journal_init` makes of it
  by_cases hlen : journal.file.length = JournalHeader.sizeof
  · have hreopen := reopen_of_empty hsound hlen
    have hzero : (reopen journal).2.highest_txn_id = 0 := by
      rw [hreopen]
      exact (new_journal_header_spec _).2
    constructor
    · intro hp
      exact Or.inr (hp.highest.symm.trans hzero)
    · intro hcond
      have h0 := hzero.trans (hcond.resolve_left (not_not.mpr hlen)).symm
      refine ⟨?_, h0, ?_, is_valid_congr hsound.isOpen ?_ h0⟩
      · rw [hreopen]
      · rw [(journal_entries_eq_nil_iff hsound).mpr hlen, hreopen]
        simp [journal_entries]
      · rw [hreopen]
        rfl
  · have hreopen := reopen_of_entries hsound hlen
    refine iff_of_true ⟨?_, ?_, ?_, is_valid_congr hsound.isOpen ?_ ?_⟩ (Or.inl hlen) <;>
      rw [hreopen] <;> rfl

/-- A new journal, transaction 1 begun. -/
theorem reopen_preserves_begun :
    ReopenPreserves packed_layout begun_journal
      ↔ journal_entries packed_layout begun_journal.file ≠ []
        ∨ begun_journal.highest_txn_id = 0 :=
  reopen_preserves_iff _ _ (session_begun_journal packed_layout)

/-- Transaction 1 is begun and committed: after reopening, the journal names transaction 0. -/
theorem reopen_loses_txn_id :
    let journal := (journal_commit_transaction .ok begun_journal 1).2
    Session packed_layout journal ∧ journal.highest_txn_id = 1
    ∧ (reopen journal).1 = PSQL_OK ∧ (reopen journal).2.highest_txn_id = 0
    ∧ ¬ ReopenPreserves packed_layout journal := by
  intro journal
  have hbegun := session_begun_journal packed_layout
  have hok : (journal_commit_transaction .ok begun_journal 1).1 = PSQL_OK :=
    (finish_accepted_iff hbegun.sound.isOpen 1 1).1.mpr (begun_journal_highest packed_layout).symm
  have hsession : Session packed_layout journal := hbegun.next .ok (.commit_transaction 1) hok
  obtain ⟨-, hhigh, hlen⟩ := hbegun.sound.finish (Prod.ext hok rfl)
  have hreopen := reopen_of_empty hsession.sound hlen
  have hzero : (reopen journal).2.highest_txn_id = 0 := by
    rw [hreopen]
    exact (new_journal_header_spec _).2
  refine ⟨hsession, hhigh, by rw [hreopen], hzero, fun hp => ?_⟩
  have heq : (0 : UInt32) = 1 := hzero.symm.trans (hp.highest.trans hhigh)
  exact absurd heq (by decide)

end PreSeQL.Rollback
