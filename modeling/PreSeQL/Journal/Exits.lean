/-
  PreSeQL.Journal.Exits — the journal file at every exit of every call.

  Calls come in any order and with any arguments, and any of their system calls may
  fail.  Whenever a call has returned, the file is empty, or as long as a header (then
  `journal_init` writes a new one), or its header passes the checks.

    • `Intact` — the invariant; an open journal has a header that passes the checks,
    • `Intact.run` — one call, over all its exits,
    • `journal_never_corrupt` — every run, followed by `journal_init`.
-/
import PreSeQL.Journal.Session

namespace PreSeQL.Rollback

open PreSeQL.Lib PreSeQL.Lib.Mem PreSeQL.Db PSqlStatus

/-! ## §1. Runs with failing system calls. -/

inductive JournalCall where
  | init
  | close
  | within (op : JournalOp)

variable (layout : EntryLayout)

/-- A call, and which of its system calls succeed. -/
def JournalCall.run (journal : Journal) (call : Syscalls × JournalCall) : PSqlStatus × Journal :=
  match call.2 with
  | init => journal_init call.1 journal
  | close => journal_close call.1 journal
  | within op => op.run layout call.1 journal

/-- The journal after a list of calls. -/
def run_calls (journal : Journal) (calls : List (Syscalls × JournalCall)) : Journal :=
  calls.foldl (fun journal call => (JournalCall.run layout journal call).2) journal

variable {layout}

/-! ## §2. The invariant. -/

/-- `journal_init` writes a new header to the file, or accepts the one it has. -/
def FileOk (file : JournalFile) : Prop :=
  file.length = 0 ∨ file.length = JournalHeader.sizeof
    ∨ JournalHeader.sizeof ≤ file.length ∧ HeaderOk file.bytes

structure Intact (journal : Journal) : Prop where
  file : FileOk journal.file
  header : journal.isOpen = true → HeaderOk journal.file.bytes
  length_le : journal.isOpen = true → JournalHeader.sizeof ≤ journal.file.length
  size_le : journal.isOpen = true → JournalHeader.sizeof ≤ journal.journal_size

variable {journal : Journal}

/-- A header that passes the checks, in a file that holds it. -/
theorem intact_of_header (hheader : HeaderOk journal.file.bytes)
    (hlen : JournalHeader.sizeof ≤ journal.file.length)
    (hsize : JournalHeader.sizeof ≤ journal.journal_size) : Intact journal :=
  ⟨Or.inr (Or.inr ⟨hlen, hheader⟩), fun _ => hheader, fun _ => hlen, fun _ => hsize⟩

/-- Only the file counts when no journal is open. -/
theorem intact_of_closed (hfile : FileOk journal.file) (hclosed : journal.isOpen = false) :
    Intact journal := by
  have hnot : journal.isOpen ≠ true := by rw [hclosed]; decide
  exact ⟨hfile, fun h => absurd h hnot, fun h => absurd h hnot, fun h => absurd h hnot⟩

theorem intact_no_journal : Intact no_journal := intact_of_closed (Or.inl rfl) rfl

/-- What the checks of an operation say about the journal it works on. -/
theorem Intact.opened (h : Intact journal) (hopen : journal.isOpen = true) :
    HeaderOk journal.file.bytes ∧ JournalHeader.sizeof ≤ journal.file.length
    ∧ JournalHeader.sizeof ≤ journal.journal_size :=
  ⟨h.header hopen, h.length_le hopen, h.size_le hopen⟩

/-! ## §3. One call. -/

theorem Intact.init (h : Intact journal) (sys : Syscalls) :
    Intact (journal_init sys journal).2 := by
  have hexits := init_exits sys journal
  generalize journal_init sys journal = r at hexits ⊢
  cases hexits with
  | failed _ hfile =>
      rcases hfile with rfl | hlen
      · exact intact_of_closed h.file rfl
      · exact intact_of_closed (Or.inr (Or.inl hlen)) rfl
  | new hlen =>
      -- header length: the header is written again
      exact intact_of_header (new_journal_header_spec _).1 (Nat.le_of_eq hlen.symm)
        (Nat.le_of_eq hlen.symm)
  | taken hz hold hheader =>
      -- longer: the file is left as it is
      obtain ⟨hlen, -⟩ := (h.file.resolve_left hz).resolve_left hold
      exact intact_of_header hheader hlen hlen

theorem Intact.close (h : Intact journal) (sys : Syscalls) :
    Intact (journal_close sys journal).2 := by
  rcases close_exits sys journal with hsame | hclosed
  · rw [hsame]
    exact h
  · rw [hclosed]
    exact intact_of_closed h.file rfl

theorem Intact.begin (h : Intact journal) (sys : Syscalls) (txn_id : UInt32) :
    Intact (journal_begin_transaction sys journal txn_id).2 := by
  have hexits := begin_exits sys journal txn_id
  generalize journal_begin_transaction sys journal txn_id = r at hexits ⊢
  cases hexits with
  | refused => exact h
  | begun hopen =>
      obtain ⟨hheader, hlen, hsize⟩ := h.opened hopen
      by_cases hnext : txn_id ≠ journal.highest_txn_id + 1
      · rw [begin_base, if_pos hnext]
        have hcut := ((sameHeader_truncate hlen (Nat.le_refl _)).ok hheader).magic
        rw [← magic_ok_store32 _ (txn_id - 1)
          (show JournalHeader.version ≤ JournalHeader.highest_txn_id by decide)] at hcut
        exact intact_of_header (headerOk_write_highest hcut txn_id) (Nat.le_refl _) (Nat.le_refl _)
      · rw [begin_base, if_neg hnext]
        exact intact_of_header (headerOk_write_highest hheader.magic txn_id) hlen hsize

/-- The file is grown before the entry is written, the mapping replaced in between. -/
theorem Intact.add_page (h : Intact journal) (sys : Syscalls) (txn_id page_no : UInt32)
    (page_data : Option (Nat → UInt8)) (data_size : UInt16) :
    Intact (journal_add_page layout sys journal txn_id page_no page_data data_size).2 := by
  have hexits := add_page_exits layout sys journal txn_id page_no page_data data_size
  generalize journal_add_page layout sys journal txn_id page_no page_data data_size = r at hexits ⊢
  have hnew : JournalHeader.sizeof ≤ journal.journal_size →
      JournalHeader.sizeof ≤ journal.journal_size + layout.sizeof :=
    fun hsize => Nat.le_trans hsize (Nat.le_add_right _ _)
  cases hexits with
  | refused => exact h
  | unmapped hgoes =>
      obtain ⟨hheader, hlen, hsize⟩ := h.opened (AddRefused.isOpen hgoes)
      exact intact_of_header ((sameHeader_truncate hlen (hnew hsize)).ok hheader) (hnew hsize) hsize
  | @written _ data hgoes =>
      obtain ⟨hheader, hlen, hsize⟩ := h.opened (AddRefused.isOpen hgoes)
      have hgrown := (sameHeader_truncate hlen (hnew hsize)).ok hheader
      -- the entry lies behind the header
      have hwritten := (sameHeader_write_entry layout
        (journal.file.truncate (journal.journal_size + layout.sizeof)).bytes hsize txn_id page_no
        data data_size).ok hgrown
      exact intact_of_header hwritten (hnew hsize) (hnew hsize)

theorem Intact.finish (h : Intact journal) (sys : Syscalls) (txn_id highest : UInt32) :
    Intact (finish_transaction sys journal txn_id highest).2 := by
  have hexits := finish_exits sys journal txn_id highest
  generalize finish_transaction sys journal txn_id highest = r at hexits ⊢
  cases hexits with
  | refused => exact h
  | unmapped hopen _ hsize =>
      obtain ⟨hheader, hlen, hold⟩ := h.opened hopen
      have hcut := (sameHeader_truncate hlen (Nat.le_refl _)).ok hheader
      rcases hsize with rfl | rfl
      · exact intact_of_header hcut (Nat.le_refl _) hold
      · exact intact_of_header hcut (Nat.le_refl _) (Nat.le_refl _)
  | cut hopen =>
      obtain ⟨hheader, hlen, -⟩ := h.opened hopen
      have hcut := (sameHeader_truncate hlen (Nat.le_refl _)).ok hheader
      exact intact_of_header (headerOk_write_highest hcut.magic highest) (Nat.le_refl _)
        (Nat.le_refl _)

/-- **One call** keeps the invariant, whatever fails in it. -/
theorem Intact.run (h : Intact journal) (call : Syscalls × JournalCall) :
    Intact (JournalCall.run layout journal call).2 := by
  obtain ⟨sys, call⟩ := call
  cases call with
  | init => exact h.init sys
  | close => exact h.close sys
  | within op =>
      cases op with
      | begin_transaction txn_id => exact h.begin sys txn_id
      | add_page txn_id page_no page_data data_size =>
          exact h.add_page sys txn_id page_no page_data data_size
      | commit_transaction txn_id => exact h.finish sys txn_id txn_id
      | rollback_transaction txn_id => exact h.finish sys txn_id (txn_id - 1)

theorem Intact.run_calls (calls : List (Syscalls × JournalCall)) (h : Intact journal) :
    Intact (run_calls layout journal calls) :=
  List.foldlRecOn calls _ h fun _ hbefore call _ => hbefore.run call

/-! ## §4. Opening again. -/

/-- An intact file is accepted, or a system call of `journal_init` has failed. -/
theorem Intact.init_status (h : Intact journal) (sys : Syscalls) :
    (journal_init sys journal).1 = PSQL_OK
    ∨ (journal_init sys journal).1 = PSQL_IOERR ∧ sys ≠ .ok := by
  -- a call that failed is one that `ok` lets succeed
  have hfailed : ∀ call : Syscalls → Bool, call .ok = true → call sys = false → sys ≠ .ok := by
    intro call hok hfalse heq
    rw [heq, hok] at hfalse
    cases hfalse
  unfold journal_init
  split
  next hc => exact Or.inr ⟨rfl, hfailed Syscalls.openFile rfl hc⟩
  split
  next hc => exact Or.inr ⟨rfl, hfailed Syscalls.fstat rfl hc⟩
  by_cases hz : journal.file.length = 0
  · simp only [hz, true_and, if_true]
    split
    next hc => exact Or.inr ⟨rfl, hfailed Syscalls.ftruncate rfl hc⟩
    split
    next hc => exact Or.inr ⟨rfl, hfailed Syscalls.mmap rfl hc⟩
    split
    next hc => exact Or.inr ⟨rfl, hfailed Syscalls.msync rfl hc⟩
    · exact Or.inl rfl
  · simp only [hz, false_and, if_false]
    split
    next hc => exact Or.inr ⟨rfl, hfailed Syscalls.mmap rfl hc⟩
    split
    next hnew =>
      split
      next hc => exact Or.inr ⟨rfl, hfailed Syscalls.msync rfl hc⟩
      · exact Or.inl rfl
    next hold =>
      -- neither check fails on a header that passes them
      obtain ⟨-, hheader⟩ := (h.file.resolve_left hz).resolve_left hold
      rw [hheader.magic, hheader.checksum]
      exact Or.inl rfl

/-- **A journal written by these calls is never reported corrupt**: after every run, with
any system calls failing, `journal_init` makes a new header or finds one that passes its
checks, and returns `PSQL_OK` when its own system calls succeed. -/
theorem journal_never_corrupt (layout : EntryLayout) (calls : List (Syscalls × JournalCall))
    (sys : Syscalls) :
    let journal := run_calls layout no_journal calls
    (journal_init sys journal).1 ≠ PSQL_CORRUPT
    ∧ (journal_init .ok journal).1 = PSQL_OK
    ∧ FileOk journal.file := by
  intro journal
  have h : Intact journal := intact_no_journal.run_calls calls
  refine ⟨?_, ?_, h.file⟩
  · rcases h.init_status sys with hok | ⟨herr, -⟩
    · rw [hok]
      decide
    · rw [herr]
      decide
  · exact (h.init_status .ok).resolve_right fun hne => hne.2 rfl

end PreSeQL.Rollback
