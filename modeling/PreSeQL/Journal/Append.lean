/-
  PreSeQL.Journal.Append — is appending to the journal all or nothing?

  `journal_add_page` extends the file, replaces the mapping, writes the entry and syncs
  it, with an exit after each.  The file is not cut back when a later step fails, the
  length it gets is counted from `journal_size`, and nothing compares `data_size` with
  the room there is.

    • `Whole` — every reachable file has whole entries,
    • `reopened` — what a reopen shows of a reachable file,
    • `append_all_or_nothing_iff` — for every reachable journal, any arguments and any
      failing system calls.
-/
import PreSeQL.Journal.Bookkeeping
import PreSeQL.Journal.Rollback

namespace PreSeQL.Rollback

open PreSeQL.Lib PreSeQL.Lib.Mem PreSeQL.Db PSqlStatus

variable {layout : EntryLayout} {sys : Syscalls} {journal journal' : Journal}
  {txn_id page_no : UInt32} {page_data : Option (Nat → UInt8)} {data_size : UInt16}

/-! ## §1. Whole entries. -/

/-- The file is a header and whole entries, and so is what an open journal takes for its
length, which need not be the same. -/
structure Whole (layout : EntryLayout) (journal : Journal) : Prop where
  file : journal.file.length = 0
    ∨ ∃ k, journal.file.length = JournalHeader.sizeof + k * layout.sizeof
  size : journal.isOpen = true →
    ∃ k, journal.journal_size = JournalHeader.sizeof + k * layout.sizeof

/-- Lengths that stay as they are, or become that of a header. -/
theorem Whole.of_cut (h : Whole layout journal)
    (hopen : journal'.isOpen = true → journal.isOpen = true)
    (hfile : journal'.file.length = journal.file.length
      ∨ journal'.file.length = JournalHeader.sizeof)
    (hsize : journal'.journal_size = journal.journal_size
      ∨ journal'.journal_size = JournalHeader.sizeof) : Whole layout journal' := by
  have hheader : ∃ k, JournalHeader.sizeof = JournalHeader.sizeof + k * layout.sizeof :=
    ⟨0, by rw [Nat.zero_mul, Nat.add_zero]⟩
  constructor
  · rcases hfile with heq | heq
    · exact heq ▸ h.file
    · exact Or.inr (heq ▸ hheader)
  · intro ho
    rcases hsize with heq | heq
    · exact heq ▸ h.size (hopen ho)
    · exact heq ▸ hheader

/-- The length of the file after `journal_init`. -/
theorem journal_init_length (sys : Syscalls) (journal : Journal) :
    (journal_init sys journal).2.file.length = journal.file.length
      ∨ (journal_init sys journal).2.file.length = JournalHeader.sizeof := by
  have hexits := init_exits sys journal
  generalize journal_init sys journal = r at hexits ⊢
  cases hexits with
  | failed _ hfile => exact hfile.imp_left fun heq => congrArg JournalFile.length heq
  | new hlen => exact Or.inr hlen
  | taken => exact Or.inl rfl

/-- One entry more. -/
theorem one_more (h : ∃ k, journal.journal_size = JournalHeader.sizeof + k * layout.sizeof) :
    ∃ k, journal.journal_size + layout.sizeof = JournalHeader.sizeof + k * layout.sizeof := by
  obtain ⟨k, hk⟩ := h
  exact ⟨k + 1, by rw [hk, Nat.succ_mul, Nat.add_assoc]⟩

theorem Whole.init (h : Whole layout journal) (hintact : Intact journal) (sys : Syscalls) :
    Whole layout (journal_init sys journal).2 := by
  have hcut : Whole layout { (journal_init sys journal).2 with
      fdOpen := false, journal_size := journal.journal_size } :=
    h.of_cut (fun ho => nomatch ho) (journal_init_length sys journal) (Or.inl rfl)
  refine ⟨hcut.file, fun ho => ?_⟩
  -- what is opened is as long as the file, which is not empty
  have hne : (journal_init sys journal).2.file.length ≠ 0 :=
    Nat.ne_of_gt (Nat.lt_of_lt_of_le (by decide) ((hintact.init sys).length_le ho))
  rw [(journal_init_covered sys journal ho).size_eq]
  exact hcut.file.resolve_left hne

theorem Whole.close (h : Whole layout journal) (sys : Syscalls) :
    Whole layout (journal_close sys journal).2 := by
  rcases close_exits sys journal with hsame | hclosed
  · rw [hsame]
    exact h
  · rw [hclosed]
    exact ⟨h.file, fun ho => nomatch ho⟩

theorem Whole.begin (h : Whole layout journal) (sys : Syscalls) (txn_id : UInt32) :
    Whole layout (journal_begin_transaction sys journal txn_id).2 := by
  have hexits := begin_exits sys journal txn_id
  generalize journal_begin_transaction sys journal txn_id = r at hexits ⊢
  cases hexits with
  | refused => exact h
  | begun =>
      by_cases hnext : txn_id ≠ journal.highest_txn_id + 1
      · rw [begin_base, if_pos hnext]
        exact h.of_cut id (Or.inr rfl) (Or.inr rfl)
      · rw [begin_base, if_neg hnext]
        exact h.of_cut id (Or.inl rfl) (Or.inl rfl)

theorem Whole.finish (h : Whole layout journal) (sys : Syscalls) (txn_id highest : UInt32) :
    Whole layout (finish_transaction sys journal txn_id highest).2 := by
  have hexits := finish_exits sys journal txn_id highest
  generalize finish_transaction sys journal txn_id highest = r at hexits ⊢
  cases hexits with
  | refused => exact h
  | unmapped hopen _ hsize => exact h.of_cut (fun _ => hopen) (Or.inr rfl) hsize
  | cut hopen => exact h.of_cut (fun _ => hopen) (Or.inr rfl) (Or.inr rfl)

theorem Whole.add_page (h : Whole layout journal) (sys : Syscalls) (txn_id page_no : UInt32)
    (page_data : Option (Nat → UInt8)) (data_size : UInt16) :
    Whole layout (journal_add_page layout sys journal txn_id page_no page_data data_size).2 := by
  have hexits := add_page_exits layout sys journal txn_id page_no page_data data_size
  generalize journal_add_page layout sys journal txn_id page_no page_data data_size = r at hexits ⊢
  cases hexits with
  | refused => exact h
  | unmapped hgoes =>
      have hsize := h.size (AddRefused.isOpen hgoes)
      exact ⟨Or.inr (one_more hsize), fun _ => hsize⟩
  | written hgoes =>
      have hgrown := one_more (h.size (AddRefused.isOpen hgoes))
      exact ⟨Or.inr hgrown, fun _ => hgrown⟩

theorem Whole.run (h : Whole layout journal) (hintact : Intact journal)
    (call : Syscalls × JournalCall) : Whole layout (JournalCall.run layout journal call).2 := by
  obtain ⟨sys, call⟩ := call
  cases call with
  | init => exact h.init hintact sys
  | close => exact h.close sys
  | within op =>
      cases op with
      | begin_transaction txn_id => exact h.begin sys txn_id
      | add_page txn_id page_no page_data data_size =>
          exact h.add_page sys txn_id page_no page_data data_size
      | commit_transaction txn_id => exact h.finish sys txn_id txn_id
      | rollback_transaction txn_id => exact h.finish sys txn_id (txn_id - 1)

theorem Whole.run_calls (calls : List (Syscalls × JournalCall)) (h : Whole layout journal)
    (hintact : Intact journal) : Whole layout (run_calls layout journal calls) := by
  have hboth := List.foldlRecOn (motive := fun journal => Whole layout journal ∧ Intact journal)
    calls _ ⟨h, hintact⟩ fun _ hbefore call _ =>
      ⟨hbefore.1.run hbefore.2 call, hbefore.2.run call⟩
  exact hboth.1

/-- How many entries an open file has, and how many its journal counts. -/
theorem Whole.counts (h : Whole layout journal) (hintact : Intact journal)
    (hopen : journal.isOpen = true) :
    ∃ a, journal.file.length = JournalHeader.sizeof + a * layout.sizeof
      ∧ ∃ b, journal.journal_size = JournalHeader.sizeof + b * layout.sizeof
        ∧ JournalHeader.sizeof ≤ journal.file.length := by
  have hlen := hintact.length_le hopen
  have hne : journal.file.length ≠ 0 := Nat.ne_of_gt (Nat.lt_of_lt_of_le (by decide) hlen)
  obtain ⟨a, ha⟩ := h.file.resolve_left hne
  obtain ⟨b, hb⟩ := h.size hopen
  exact ⟨a, ha, b, hb, hlen⟩

/-! ## §2. What comes of a call. -/

/-- The entries are the previous ones and a new one for this page, the header is as it
was, and no byte behind the file is set. -/
structure Appended (layout : EntryLayout) (journal : Journal) (txn_id page_no : UInt32)
    (data : Nat → UInt8) (data_size : UInt16) (journal' : Journal) : Prop where
  entries : ∃ entry : JournalEntry, entry.Records txn_id page_no data data_size
    ∧ journal_entries layout journal'.file = journal_entries layout journal.file ++ [entry]
  header : SameHeader journal.file.bytes journal'.file.bytes
  outside : ∀ i, journal'.file.length ≤ i → journal'.file.bytes i = 0

/-- A reopen is accepted and shows the previous entries. -/
structure Restored (layout : EntryLayout) (journal journal' : Journal) : Prop where
  status : (journal_init .ok journal').1 = PSQL_OK
  entries : journal_entries layout (journal_init .ok journal').2.file
    = journal_entries layout journal.file

/-- `PSQL_OK` for one entry more, an error for none. -/
structure AllOrNothing (layout : EntryLayout) (journal : Journal) (txn_id page_no : UInt32)
    (page_data : Option (Nat → UInt8)) (data_size : UInt16) (r : PSqlStatus × Journal) :
    Prop where
  all : r.1 = PSQL_OK → ∃ data, page_data = some data
    ∧ Appended layout journal txn_id page_no data data_size r.2
  nothing : r.1 ≠ PSQL_OK → Restored layout journal r.2

/-- A reopen shows the entries of an intact file. -/
theorem reopened (layout : EntryLayout) (h : Intact journal) :
    (journal_init .ok journal).1 = PSQL_OK
    ∧ journal_entries layout (journal_init .ok journal).2.file
      = journal_entries layout journal.file := by
  have hok : (journal_init .ok journal).1 = PSQL_OK :=
    (h.init_status .ok).resolve_right fun hne => hne.2 rfl
  refine ⟨hok, ?_⟩
  obtain ⟨-, hfile⟩ := init_ok (show journal_init .ok journal
    = (PSQL_OK, (journal_init .ok journal).2) from Prod.ext hok rfl)
  by_cases hz : journal.file.length = 0
  · rcases hfile with ⟨hlen, hnew⟩ | ⟨hlen, -, -⟩
    · simp [journal_entries, hnew, hlen, hz]
    · exact absurd (by rw [initial_file, if_pos hz]; rfl) hlen
  · rw [initial_file, if_neg hz] at hfile
    rcases hfile with ⟨hlen, hnew⟩ | ⟨-, hsame, -⟩
    · simp [journal_entries, hnew, hlen]
    · rw [hsame]

theorem restored_iff (h : Intact journal') : Restored layout journal journal'
    ↔ journal_entries layout journal'.file = journal_entries layout journal.file := by
  obtain ⟨hok, hentries⟩ := reopened layout h
  exact ⟨fun hr => hentries.symm.trans hr.entries, fun he => ⟨hok, hentries.trans he⟩⟩

/-- An error must leave nothing behind. -/
theorem allOrNothing_iff_of_error {r : PSqlStatus × Journal} (h : r.1 ≠ PSQL_OK) :
    AllOrNothing layout journal txn_id page_no page_data data_size r
      ↔ Restored layout journal r.2 :=
  ⟨fun hr => hr.nothing h, fun hr => ⟨fun hok => absurd hok h, fun _ => hr⟩⟩

/-- And `PSQL_OK` must leave all of the entry. -/
theorem allOrNothing_iff_of_ok {r : PSqlStatus × Journal} {data : Nat → UInt8}
    (hdata : page_data = some data) (h : r.1 = PSQL_OK) :
    AllOrNothing layout journal txn_id page_no page_data data_size r
      ↔ Appended layout journal txn_id page_no data data_size r.2 := by
  constructor
  · intro hr
    obtain ⟨data', hdata', happended⟩ := hr.all h
    obtain rfl := Option.some.inj (hdata.symm.trans hdata')
    exact happended
  · intro happended
    exact ⟨fun _ => ⟨data, hdata, happended⟩, fun hne => absurd h hne⟩

theorem length_entries {file : JournalFile} {k : Nat}
    (hk : file.length = JournalHeader.sizeof + k * layout.sizeof) :
    (journal_entries layout file).length = k := by
  rw [entries_eq hk, List.length_map, List.length_range]

/-- A byte is written whatever was there, or kept. -/
theorem write_entry_congr (layout : EntryLayout) {m m' : Mem} {a i : Nat} (h : m i = m' i)
    (txn_id page_no : UInt32) (page_data : Nat → UInt8) (data_size : UInt16) :
    write_entry layout m a txn_id page_no page_data data_size i
      = write_entry layout m' a txn_id page_no page_data data_size i := by
  simp only [write_entry, store32, store16, store8, store, fill, h]

/-- An entry whose data fits ends before the next. -/
theorem write_entry_after (layout : EntryLayout) (m : Mem) {a i : Nat}
    (h : a + layout.sizeof ≤ i) (txn_id page_no : UInt32) (page_data : Nat → UInt8)
    {data_size : UInt16} (hsize : data_size.toNat ≤ layout.payload) :
    write_entry layout m a txn_id page_no page_data data_size i = m i := by
  obtain ⟨htxn, hpage, hds, hres, hdata⟩ := field_ends layout
  unfold write_entry
  rw [fill_outside _ _ (by omega), store8, store, fill_outside _ _ (by omega), store16, store,
    fill_outside _ _ (by omega), store32_outside _ _ (by omega), store32_outside _ _ (by omega)]

/-! ## §3. The condition. -/

/-- The entry that would be written at `journal_size` already reads like that. -/
def AlreadyWritten (layout : EntryLayout) (journal : Journal) (txn_id page_no : UInt32)
    (data : Nat → UInt8) (data_size : UInt16) : Prop :=
  read_entry layout
      (write_entry layout journal.file.bytes journal.journal_size txn_id page_no data data_size)
      journal.journal_size
    = read_entry layout journal.file.bytes journal.journal_size

/-- When a call is all or nothing.  An earlier call may have left the file one entry longer
than `journal_size`; extending it then changes nothing. -/
def Appends (layout : EntryLayout) (sys : Syscalls) (journal : Journal) (txn_id page_no : UInt32)
    (page_data : Option (Nat → UInt8)) (data_size : UInt16) : Prop :=
  AddRefused sys journal txn_id page_data
  ∨ ¬ sys.Remapped ∧ journal.file.length = journal.journal_size + layout.sizeof
  ∨ sys.Remapped ∧ sys.msync = true ∧ journal.file.length = journal.journal_size
    ∧ data_size.toNat ≤ layout.payload
  ∨ sys.Remapped ∧ sys.msync = false ∧ journal.file.length = journal.journal_size + layout.sizeof
    ∧ ∃ data, page_data = some data
      ∧ AlreadyWritten layout journal txn_id page_no data data_size

/-! ## §4. The file at each exit. -/

/-- An entry written over the last one. -/
theorem read_entry_written_last
    (hsame : journal.file.length = journal.journal_size + layout.sizeof) (data : Nat → UInt8) :
    read_entry layout (written_file layout journal txn_id page_no data data_size).bytes
        journal.journal_size
      = read_entry layout (write_entry layout journal.file.bytes journal.journal_size txn_id
          page_no data data_size) journal.journal_size := by
  refine read_entry_congr fun i _ hi => write_entry_congr layout ?_ txn_id page_no data data_size
  exact if_pos (Nat.lt_min.mpr ⟨hsame ▸ hi, hi⟩)

section

variable {a b : Nat} (ha : journal.file.length = JournalHeader.sizeof + a * layout.sizeof)
  (hb : journal.journal_size = JournalHeader.sizeof + b * layout.sizeof)
include ha hb

/-- Equally many entries, equally many bytes. -/
theorem extended_length_iff :
    journal.file.length = journal.journal_size + layout.sizeof ↔ b + 1 = a := by
  rw [ha, hb, Nat.add_assoc, ← Nat.succ_mul, Nat.add_left_cancel_iff,
    Nat.mul_left_inj (Nat.ne_of_gt layout.sizeof_pos), eq_comm]

theorem truncated_entries_iff :
    journal_entries layout (journal.file.truncate (journal.journal_size + layout.sizeof))
        = journal_entries layout journal.file
      ↔ journal.file.length = journal.journal_size + layout.sizeof := by
  have hnew : journal.journal_size + layout.sizeof
      = JournalHeader.sizeof + (b + 1) * layout.sizeof := by
    rw [hb, Nat.succ_mul, Nat.add_assoc]
  constructor
  · intro h
    have hlen := congrArg List.length h
    rw [length_entries (k := b + 1) hnew, length_entries ha] at hlen
    exact (extended_length_iff ha hb).mpr hlen
  · intro hsame
    refine entries_congr ha hsame.symm fun i _ hi => if_pos (Nat.lt_min.mpr ⟨hi, ?_⟩)
    rwa [← hsame]

theorem written_entries_iff (data : Nat → UInt8) :
    journal_entries layout (written_file layout journal txn_id page_no data data_size)
        = journal_entries layout journal.file
      ↔ journal.file.length = journal.journal_size + layout.sizeof
        ∧ AlreadyWritten layout journal txn_id page_no data data_size := by
  have hnew := written_file_length txn_id page_no data data_size hb
  constructor
  · intro h
    have hlen := congrArg List.length h
    rw [length_entries hnew, length_entries ha] at hlen
    have hsame := (extended_length_iff ha hb).mpr hlen
    subst hlen
    refine ⟨hsame, ?_⟩
    -- the last entries are equal too
    rw [entries_eq hnew, entries_eq ha, List.map_inj_left] at h
    have hlast := h b (List.mem_range.mpr (Nat.lt_succ_self b))
    rw [← hb, read_entry_written_last hsame] at hlast
    exact hlast
  · rintro ⟨hsame, hwritten⟩
    obtain rfl := (extended_length_iff ha hb).mp hsame
    rw [entries_eq hnew, entries_eq ha]
    refine List.map_congr_left fun i hi => ?_
    rcases Nat.lt_or_eq_of_le (Nat.le_of_lt_succ (List.mem_range.mp hi)) with hlt | rfl
    · have hend := entry_end_le layout hlt
      exact read_entry_written_file _ _ _ _ (by omega) (by omega)
    · rw [← hb, read_entry_written_last hsame]
      exact hwritten

theorem appended_iff (hheader : JournalHeader.sizeof ≤ journal.file.length)
    (data : Nat → UInt8) {fdOpen : Bool} {journal_mem : Option Nat} {journal_size : Nat} :
    Appended layout journal txn_id page_no data data_size
        ⟨written_file layout journal txn_id page_no data data_size, fdOpen, journal_mem,
          journal_size⟩
      ↔ journal.file.length = journal.journal_size ∧ data_size.toNat ≤ layout.payload := by
  have hnew := written_file_length txn_id page_no data data_size hb
  constructor
  · rintro ⟨⟨entry, hrecords, hentries⟩, -, -⟩
    have hlen := congrArg List.length hentries
    rw [length_entries hnew, List.length_append, length_entries ha, List.length_singleton] at hlen
    have hsame : journal.file.length = journal.journal_size := by
      rw [ha, hb, Nat.succ_injective hlen]
    refine ⟨hsame, ?_⟩
    -- the array has no more bytes than it has
    rw [written_file_entries txn_id page_no data data_size ha hsame.symm] at hentries
    have hentry := List.singleton_inj.mp (List.append_cancel_left hentries)
    have hbytes := congrArg List.length hrecords.page_data
    rw [← hentry, List.length_take, List.length_map, List.length_range, read_entry, bytes_eq_map,
      List.length_map, List.length_range] at hbytes
    exact min_eq_left_iff.mp hbytes
  · rintro ⟨hsame, hsize⟩
    have hlen : JournalHeader.sizeof ≤ journal.journal_size := hsame ▸ hheader
    refine ⟨⟨_, read_entry_write_entry _ _ txn_id page_no data hsize,
      written_file_entries txn_id page_no data data_size ha hsame.symm⟩, ?_, fun i hi => ?_⟩
    · intro i hi
      exact (sameHeader_write_entry layout _ hlen txn_id page_no data data_size i hi).trans
        (sameHeader_truncate hheader (Nat.le_trans hlen (Nat.le_add_right _ layout.sizeof)) i hi)
    · -- beyond the end of the extended file
      refine (write_entry_after layout _ hi txn_id page_no data hsize).trans (if_neg fun hlt => ?_)
      exact Nat.not_lt.mpr hi (Nat.lt_min.mp hlt).2

end

/-! ## §5. Every reachable journal. -/

/-- **Appending is all or nothing** exactly when the call meets its condition. -/
theorem append_all_or_nothing_iff (layout : EntryLayout) (calls : List (Syscalls × JournalCall))
    (sys : Syscalls) (txn_id page_no : UInt32) (page_data : Option (Nat → UInt8))
    (data_size : UInt16) :
    let journal := run_calls layout no_journal calls
    AllOrNothing layout journal txn_id page_no page_data data_size
        (journal_add_page layout sys journal txn_id page_no page_data data_size)
      ↔ Appends layout sys journal txn_id page_no page_data data_size := by
  intro journal
  have hintact : Intact journal := intact_no_journal.run_calls calls
  have hwhole : Whole layout journal :=
    Whole.run_calls calls ⟨Or.inl rfl, fun ho => nomatch ho⟩ intact_no_journal
  have hafter : Intact (journal_add_page layout sys journal txn_id page_no page_data data_size).2 :=
    hintact.add_page sys txn_id page_no page_data data_size
  have hexits := add_page_exits layout sys journal txn_id page_no page_data data_size
  generalize journal_add_page layout sys journal txn_id page_no page_data data_size = r
    at hexits hafter ⊢
  unfold Appends
  cases hexits with
  | refused hrefused hstatus =>
      rw [allOrNothing_iff_of_error hstatus]
      exact iff_of_true ((restored_iff hintact).mpr rfl) (Or.inl hrefused)
  | unmapped hgoes hlost =>
      -- nothing is written, and the file is extended
      obtain ⟨a, ha, b, hb, -⟩ := hwhole.counts hintact (AddRefused.isOpen hgoes)
      have herr : PSQL_IOERR ≠ PSQL_OK := by decide
      rw [allOrNothing_iff_of_error herr, restored_iff hafter, truncated_entries_iff ha hb,
        or_iff_right hgoes, and_iff_right hlost, or_iff_left]
      rintro (⟨hmaps, -⟩ | ⟨hmaps, -⟩)
      · exact hlost hmaps
      · exact hlost hmaps
  | @written status data hgoes hmaps hdata hstatus =>
      obtain ⟨a, ha, b, hb, hheader⟩ := hwhole.counts hintact (AddRefused.isOpen hgoes)
      rw [or_iff_right hgoes, or_iff_right fun h => h.1 hmaps, and_iff_right hmaps,
        and_iff_right hmaps]
      by_cases hsync : sys.msync = true
      · rw [allOrNothing_iff_of_ok hdata (hstatus.mpr hsync), appended_iff ha hb hheader data,
          and_iff_right hsync, or_iff_left fun h => Bool.false_ne_true (h.1.symm.trans hsync)]
      · have hexists : (∃ data', page_data = some data'
              ∧ AlreadyWritten layout journal txn_id page_no data' data_size)
            ↔ AlreadyWritten layout journal txn_id page_no data data_size := by
          rw [hdata]
          simp
        rw [allOrNothing_iff_of_error fun hok => hsync (hstatus.mp hok), restored_iff hafter,
          written_entries_iff ha hb data, or_iff_right fun h => hsync h.1,
          and_iff_right (Bool.eq_false_of_not_eq_true hsync), hexists]

/-- Transaction 1 is begun in a new journal. -/
def begun_calls : List (Syscalls × JournalCall) :=
  [(.ok, .init), (.ok, .within (.begin_transaction 1))]

/-- More data than an entry holds is written, one byte behind the file, and accepted when the
entry is synced.  Its address is that of byte 24, where no page starts: an `msync` that
refuses it makes an error that leaves one entry more.  So does a new mapping that fails. -/
theorem append_half_done :
    let journal := run_calls packed_layout no_journal begun_calls
    let data : Option (Nat → UInt8) := some fun _ => 7
    let long := journal_add_page packed_layout .ok journal 1 2 data 4097
    let unsynced :=
      journal_add_page packed_layout { Syscalls.ok with msync := false } journal 1 2 data 4097
    let unmapped :=
      journal_add_page packed_layout { Syscalls.ok with mmap := false } journal 1 2 data 4096
    journal.journal_size = 24
    ∧ (journal_entries packed_layout journal.file).length = 0
    ∧ (long.1 = PSQL_OK ∧ long.2.file.length = 4132 ∧ long.2.file.bytes 4132 = 7
      ∧ ¬ AllOrNothing packed_layout journal 1 2 data 4097 long)
    ∧ (unsynced.1 = PSQL_IOERR ∧ unsynced.2.file = long.2.file
      ∧ (journal_entries packed_layout (journal_init .ok unsynced.2).2.file).length = 1
      ∧ ¬ AllOrNothing packed_layout journal 1 2 data 4097 unsynced)
    ∧ (unmapped.1 = PSQL_IOERR
      ∧ (journal_entries packed_layout (journal_init .ok unmapped.2).2.file).length = 1
      ∧ ¬ AllOrNothing packed_layout journal 1 2 data 4096 unmapped) := by
  intro journal data long unsynced unmapped
  have hlength : long.2.file.length = 4132 := by decide +kernel
  have hbehind : long.2.file.bytes 4132 = 7 := by decide +kernel
  have hlong : long.1 = PSQL_OK := by decide +kernel
  have hbefore : (journal_entries packed_layout journal.file).length = 0 := by decide +kernel
  -- an error must leave no entry
  have hnothing : ∀ (data_size : UInt16) (r : PSqlStatus × Journal), r.1 = PSQL_IOERR →
      (journal_entries packed_layout (journal_init .ok r.2).2.file).length = 1 →
      ¬ AllOrNothing packed_layout journal 1 2 data data_size r := by
    intro data_size r hstatus hafter h
    have hsame := congrArg List.length (h.nothing (by rw [hstatus]; decide)).entries
    rw [hbefore, hafter] at hsame
    exact absurd hsame (by decide)
  refine ⟨by decide +kernel, hbefore, ⟨hlong, hlength, hbehind, fun h => ?_⟩, ?_, ?_⟩
  · -- the last byte lies behind the file
    obtain ⟨_, -, happended⟩ := h.all hlong
    have hzero := happended.outside 4132 (Nat.le_of_eq hlength)
    rw [hbehind] at hzero
    exact absurd hzero (by decide)
  · have hunsynced : unsynced.1 = PSQL_IOERR := by decide +kernel
    have hafter : (journal_entries packed_layout (journal_init .ok unsynced.2).2.file).length
        = 1 := by decide +kernel
    exact ⟨hunsynced, rfl, hafter, hnothing _ _ hunsynced hafter⟩
  · have hunmapped : unmapped.1 = PSQL_IOERR := by decide +kernel
    have hafter : (journal_entries packed_layout (journal_init .ok unmapped.2).2.file).length
        = 1 := by decide +kernel
    exact ⟨hunmapped, hafter, hnothing _ _ hunmapped hafter⟩

end PreSeQL.Rollback
