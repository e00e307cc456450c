/-
  PreSeQL.Journal.Rollback — rolling back transactions one at a time.

  Transactions n, n+1, …, m are open together and their entries stand in one file.
  A rollback cuts the file to its header, whoever recorded what stands behind it:

    • `begin_entries`, `add_page_entries`, `rollback_entries` — what an operation makes
      of the entries,
    • `Begun` — the histories in which n, …, m are begun one after another,
    • `rollback_in_turn_iff` — each rollback removes the entries of its own transaction
      and no others exactly when the last transaction has recorded all there are.
-/
import PreSeQL.Journal.Reopen

namespace PreSeQL.Rollback

open PreSeQL.Lib PreSeQL.Lib.Mem PreSeQL.Db PSqlStatus

variable {layout : EntryLayout} {journal journal' : Journal}

/-! ## §1. Entries in the file. -/

/-- Every field lies inside the entry. -/
theorem field_ends (layout : EntryLayout) : layout.txn_id + 4 ≤ layout.sizeof
    ∧ layout.original_page + 4 ≤ layout.sizeof ∧ layout.data_size + 2 ≤ layout.sizeof
    ∧ layout.reserved + 1 ≤ layout.sizeof
    ∧ layout.page_data + layout.payload ≤ layout.sizeof := by simpa using layout.inside

theorem read_entry_congr {m m' : Mem} {a : Nat}
    (h : ∀ i, a ≤ i → i < a + layout.sizeof → m' i = m i) :
    read_entry layout m' a = read_entry layout m a := by
  have hload : ∀ offset n, offset + n ≤ layout.sizeof →
      m'.load (a + offset) n = m.load (a + offset) n := fun offset n hn =>
    load_congr n _ fun i h₁ h₂ => h i (by omega) (by omega)
  obtain ⟨htxn, hpage, hsize, -, hdata⟩ := field_ends layout
  have hbytes := @bytes_congr m m' layout.payload (a + layout.page_data)
    fun i h₁ h₂ => h i (by omega) (by omega)
  rw [read_entry, read_entry, hload _ _ htxn, hload _ _ hpage, load16, load16, hload _ _ hsize,
    hbytes]

/-- The entry names this transaction and page, and its data begins with these bytes. -/
structure JournalEntry.Records (entry : JournalEntry) (txn page : UInt32) (data : Nat → UInt8)
    (size : UInt16) : Prop where
  txn_id : entry.txn_id = txn
  original_page : entry.original_page = page
  data_size : entry.data_size = size
  page_data : entry.page_data.take size.toNat = (List.range size.toNat).map data

/-- An entry reads as it was written when its data fits. -/
theorem read_entry_write_entry (m : Mem) (a : Nat) (txn page : UInt32) (data : Nat → UInt8)
    {size : UInt16} (hsize : size.toNat ≤ layout.payload) :
    (read_entry layout (write_entry layout m a txn page data size) a).Records txn page data
      size := by
  -- no field overlaps another
  obtain ⟨htxn, hpage, hds, hres⟩ := List.pairwise_cons.mp layout.disjoint |>.imp_right
    fun h => (List.pairwise_cons.mp h).imp_right fun h => (List.pairwise_cons.mp h).imp_right
      fun h => (List.pairwise_cons.mp h).1
  simp only [List.forall_mem_cons, List.not_mem_nil, false_implies, implies_true,
    and_true] at htxn hpage hds hres
  constructor <;> unfold read_entry write_entry
  · simp only
    rw [load_fill_of_disjoint _ _ (by omega), store8, load_store_of_disjoint _ (by omega), store16,
      load_store_of_disjoint _ (by omega), store32, load_store_of_disjoint _ (by omega),
      ofNat_load_store32_same]
  · simp only
    rw [load_fill_of_disjoint _ _ (by omega), store8, load_store_of_disjoint _ (by omega), store16,
      load_store_of_disjoint _ (by omega), ofNat_load_store32_same]
  · simp only
    rw [load16, load_fill_of_disjoint _ _ (by omega), ← load16,
      load16_store8_of_disjoint _ _ (by omega), load16_store16_same]
  · simp only
    rw [bytes_eq_map, ← List.map_take, List.take_range, Nat.min_eq_left hsize, ← bytes_eq_map,
      bytes_fill_same]

theorem entries_eq {file : JournalFile} {k : Nat}
    (hk : file.length = JournalHeader.sizeof + k * layout.sizeof) :
    journal_entries layout file = (List.range k).map fun i =>
      read_entry layout file.bytes (JournalHeader.sizeof + i * layout.sizeof) := by
  rw [journal_entries, hk, Nat.add_sub_cancel_left, Nat.mul_div_cancel _ layout.sizeof_pos]

/-- Entry `i` of `k` ends in front of the end of the file. -/
theorem entry_end_le (layout : EntryLayout) {i k : Nat} (h : i < k) :
    JournalHeader.sizeof + i * layout.sizeof + layout.sizeof
      ≤ JournalHeader.sizeof + k * layout.sizeof := by
  have := Nat.mul_le_mul_right layout.sizeof (Nat.succ_le_of_lt h)
  rw [Nat.succ_mul] at this
  omega

/-- Equal bytes behind the header are equal entries. -/
theorem entries_congr {file file' : JournalFile} {k : Nat}
    (hk : file.length = JournalHeader.sizeof + k * layout.sizeof)
    (hlen : file'.length = file.length)
    (h : ∀ i, JournalHeader.sizeof ≤ i → i < file.length → file'.bytes i = file.bytes i) :
    journal_entries layout file' = journal_entries layout file := by
  rw [entries_eq hk, entries_eq (hlen.trans hk)]
  refine List.map_congr_left fun i hi => read_entry_congr fun b hb₁ hb₂ => ?_
  have hend := entry_end_le layout (List.mem_range.mp hi)
  exact h b (by omega) (by omega)

/-- Beginning the next transaction keeps the entries, any other begin drops them. -/
theorem begin_entries {sys : Syscalls} {txn_id : UInt32} (h : Sound layout journal)
    (hrun : journal_begin_transaction sys journal txn_id = (PSQL_OK, journal')) :
    journal_entries layout journal'.file =
      if txn_id = journal.highest_txn_id + 1 then journal_entries layout journal.file else [] := by
  obtain ⟨hsound, -⟩ := h.begin hrun
  obtain ⟨-, rfl⟩ := begin_state hrun
  by_cases hnext : txn_id = journal.highest_txn_id + 1
  · -- the writes stay in the header
    rw [begin_base, if_neg (not_not.mpr hnext), if_pos hnext]
    obtain ⟨k, hk⟩ := h.whole
    refine entries_congr hk rfl fun i hi _ => ?_
    have hsum := store32_outside (journal.file.bytes.store32 JournalHeader.highest_txn_id txn_id)
      (header_checksum (journal.file.bytes.store32 JournalHeader.highest_txn_id txn_id))
      (show i < JournalHeader.checksum ∨ JournalHeader.checksum + 4 ≤ i from Or.inr hi)
    have htxn := store32_outside journal.file.bytes txn_id
      (show i < JournalHeader.highest_txn_id ∨ JournalHeader.highest_txn_id + 4 ≤ i from
        Or.inr (Nat.le_trans (by decide) hi))
    exact hsum.trans htxn
  · rw [if_neg hnext, journal_entries_eq_nil_iff hsound, begin_base, if_pos hnext]
    rfl

/-- An entry in front of the one written is as it was. -/
theorem read_entry_written_file {a : Nat} (txn_id page_no : UInt32) (data : Nat → UInt8)
    (data_size : UInt16) (hfile : a + layout.sizeof ≤ journal.file.length)
    (hold : a + layout.sizeof ≤ journal.journal_size) :
    read_entry layout (written_file layout journal txn_id page_no data data_size).bytes a
      = read_entry layout journal.file.bytes a := by
  refine read_entry_congr fun b _ hb => ?_
  have hgrown : b < journal.journal_size + layout.sizeof := by omega
  exact (write_entry_before layout _ (Nat.lt_of_lt_of_le hb hold) txn_id page_no data
    data_size).trans (if_pos (Nat.lt_min.mpr ⟨Nat.lt_of_lt_of_le hb hfile, hgrown⟩))

/-- The journal is one entry longer. -/
theorem written_file_length (txn_id page_no : UInt32) (data : Nat → UInt8) (data_size : UInt16)
    {k : Nat} (hk : journal.journal_size = JournalHeader.sizeof + k * layout.sizeof) :
    (written_file layout journal txn_id page_no data data_size).length
      = JournalHeader.sizeof + (k + 1) * layout.sizeof := by
  rw [written_file, hk, Nat.succ_mul, Nat.add_assoc]

/-- A page is recorded behind the other entries. -/
theorem written_file_entries (txn_id page_no : UInt32) (data : Nat → UInt8) (data_size : UInt16)
    {k : Nat} (hk : journal.file.length = JournalHeader.sizeof + k * layout.sizeof)
    (hsize : journal.journal_size = journal.file.length) :
    journal_entries layout (written_file layout journal txn_id page_no data data_size)
      = journal_entries layout journal.file
        ++ [read_entry layout (written_file layout journal txn_id page_no data data_size).bytes
          journal.journal_size] := by
  have hk' := written_file_length txn_id page_no data data_size (hsize.trans hk)
  rw [entries_eq hk', entries_eq hk, List.range_succ, List.map_append, List.map_singleton, ← hk,
    ← hsize]
  congr 1
  refine List.map_congr_left fun i hi => ?_
  have hend := entry_end_le layout (List.mem_range.mp hi)
  exact read_entry_written_file _ _ _ _ (by omega) (by omega)

theorem add_page_entries {sys : Syscalls} {txn_id page_no : UInt32}
    {page_data : Option (Nat → UInt8)} {data_size : UInt16} (h : Sound layout journal)
    (hsize : data_size.toNat ≤ layout.payload)
    (hrun : journal_add_page layout sys journal txn_id page_no page_data data_size
      = (PSQL_OK, journal')) :
    ∃ entry, entry.txn_id = txn_id
      ∧ journal_entries layout journal'.file = journal_entries layout journal.file ++ [entry] := by
  obtain ⟨-, -, data, -, rfl⟩ := add_page_ok hrun
  obtain ⟨k, hk⟩ := h.whole
  exact ⟨_, (read_entry_write_entry _ _ txn_id page_no data hsize).txn_id,
    written_file_entries txn_id page_no data data_size hk h.size_eq⟩

/-- A rollback leaves no entry. -/
theorem rollback_entries {sys : Syscalls} {txn_id : UInt32} (h : Sound layout journal)
    (hrun : journal_rollback_transaction sys journal txn_id = (PSQL_OK, journal')) :
    journal_entries layout journal'.file = [] := by
  obtain ⟨hsound, -, hlen⟩ := h.finish hrun
  exact (journal_entries_eq_nil_iff hsound).mpr hlen

/-! ## §2. Transactions open together. -/

/-- The last begun of the transactions n, n+1, …, as many as `counts` has items. -/
def newest (n : UInt32) (counts : List Nat) : UInt32 := n + UInt32.ofNat (counts.length - 1)

/-- The journals in which n, n+1, … have been begun one after another, none of them
finished.  `counts` says how many pages each has recorded, the newest transaction
first. -/
inductive Begun (layout : EntryLayout) (start : Journal) (n : UInt32) :
    List Nat → Journal → Prop where
  | first {sys : Syscalls} {journal : Journal} :
      journal_begin_transaction sys start n = (PSQL_OK, journal) → Begun layout start n [0] journal
  | page {sys : Syscalls} {k : Nat} {older : List Nat} {journal journal' : Journal}
      {page_no : UInt32} {page_data : Option (Nat → UInt8)} {data_size : UInt16} :
      Begun layout start n (k :: older) journal → data_size.toNat ≤ layout.payload →
      journal_add_page layout sys journal (newest n (k :: older)) page_no page_data data_size
        = (PSQL_OK, journal') → Begun layout start n ((k + 1) :: older) journal'
  | next {sys : Syscalls} {counts : List Nat} {journal journal' : Journal} :
      Begun layout start n counts journal → n.toNat + counts.length < UInt32.size →
      journal_begin_transaction sys journal (newest n (0 :: counts)) = (PSQL_OK, journal') →
      Begun layout start n (0 :: counts) journal'

/-- The transactions the pages were recorded under, the oldest first. -/
def recorded (n : UInt32) : List Nat → List UInt32
  | [] => []
  | k :: older => recorded n older ++ List.replicate k (newest n (k :: older))

/-- The entries that are in the journal when `n` has been begun. -/
def held (layout : EntryLayout) (start : Journal) (n : UInt32) : List JournalEntry :=
  if n = start.highest_txn_id + 1 then journal_entries layout start.file else []

/-- What a history has come to. -/
structure BegunState (layout : EntryLayout) (start : Journal) (n : UInt32) (counts : List Nat)
    (journal : Journal) : Prop where
  sound : Sound layout journal
  highest : journal.highest_txn_id = newest n counts
  nonempty : 0 < counts.length
  no_wrap : n.toNat + counts.length ≤ UInt32.size
  entries : (journal_entries layout journal.file).map (·.txn_id)
    = (held layout start n).map (·.txn_id) ++ recorded n counts

variable {start : Journal} {n : UInt32} {counts : List Nat}

/-- The numbers are consecutive. -/
theorem newest_succ (h : 0 < counts.length) : newest n (0 :: counts) = newest n counts + 1 := by
  have hlen : counts.length = counts.length - 1 + 1 := (Nat.sub_add_cancel h).symm
  rw [newest, newest, List.length_cons, Nat.add_sub_cancel, UInt32.add_assoc,
    show (1 : UInt32) = UInt32.ofNat 1 from rfl, ← UInt32.ofNat_add, ← hlen]

/-- **Every history**: the entries are those that were there, then those of n, n+1, …. -/
theorem Begun.state (hstart : Session layout start) (h : Begun layout start n counts journal) :
    BegunState layout start n counts journal := by
  induction h with
  | first hrun =>
      obtain ⟨hsound, hhighest⟩ := hstart.sound.begin hrun
      refine ⟨hsound, hhighest.trans ?_, Nat.one_pos, n.toNat_lt, ?_⟩
      · simp [newest]
      · rw [begin_entries hstart.sound hrun, held, recorded, recorded]
        simp
  | page _ hsize hrun ih =>
      obtain ⟨hsound, hhighest⟩ := ih.sound.add_page hrun
      obtain ⟨entry, htxn, hentries⟩ := add_page_entries ih.sound hsize hrun
      refine ⟨hsound, hhighest.trans ih.highest, Nat.succ_pos _, ih.no_wrap, ?_⟩
      rw [hentries, List.map_append, ih.entries, List.map_singleton, htxn, recorded, recorded,
        List.replicate_succ', List.append_assoc, List.append_assoc]
      rfl
  | next _ hlt hrun ih =>
      obtain ⟨hsound, hhighest⟩ := ih.sound.begin hrun
      refine ⟨hsound, hhighest, Nat.succ_pos _, hlt, ?_⟩
      -- the number follows the highest one, so nothing is cleared
      rw [begin_entries ih.sound hrun, if_pos (by rw [newest_succ ih.nonempty, ih.highest]),
        ih.entries, recorded]
      simp

/-! ## §3. Rolling back in turn. -/

/-- The `count` transactions from `txn_id` down are rolled back one after another; each
rollback removes exactly the entries of its transaction. -/
def RolledBackInTurn (layout : EntryLayout) : Journal → UInt32 → Nat → Prop
  | _, _, 0 => True
  | journal, txn_id, count + 1 =>
      (journal_rollback_transaction .ok journal txn_id).1 = PSQL_OK
      ∧ journal_entries layout (journal_rollback_transaction .ok journal txn_id).2.file
        = (journal_entries layout journal.file).filter (fun entry => entry.txn_id ≠ txn_id)
      ∧ RolledBackInTurn layout (journal_rollback_transaction .ok journal txn_id).2 (txn_id - 1)
        count

/-- One rollback of the highest transaction. -/
theorem rollback_highest (h : Sound layout journal) :
    let result := journal_rollback_transaction .ok journal journal.highest_txn_id
    result.1 = PSQL_OK ∧ Sound layout result.2
    ∧ result.2.highest_txn_id = journal.highest_txn_id - 1
    ∧ journal_entries layout result.2.file = [] := by
  intro result
  have hok : result.1 = PSQL_OK := (finish_accepted_iff h.isOpen _ _).1.mpr rfl
  have hrun : journal_rollback_transaction .ok journal journal.highest_txn_id
      = (PSQL_OK, result.2) := Prod.ext hok rfl
  obtain ⟨hsound, hhighest, -⟩ := h.finish hrun
  exact ⟨hok, hsound, hhighest, rollback_entries h hrun⟩

/-- A journal without entries has none to lose. -/
theorem rolledBackInTurn_of_empty (count : Nat) :
    ∀ {journal : Journal}, Sound layout journal → journal_entries layout journal.file = [] →
      RolledBackInTurn layout journal journal.highest_txn_id count := by
  induction count with
  | zero => exact fun _ _ => trivial
  | succ count ih =>
      intro journal h hnil
      obtain ⟨hok, hsound, hhighest, hnil'⟩ := rollback_highest h
      have hrest := ih hsound hnil'
      rw [hhighest] at hrest
      exact ⟨hok, hnil'.trans (by rw [hnil, List.filter_nil]), hrest⟩

/-- Entries survive no rollback: there must be none but those of the transaction. -/
theorem rolledBackInTurn_iff (h : Sound layout journal) (count : Nat) :
    RolledBackInTurn layout journal journal.highest_txn_id (count + 1)
      ↔ ∀ entry ∈ journal_entries layout journal.file, entry.txn_id = journal.highest_txn_id := by
  obtain ⟨hok, hsound, hhighest, hnil⟩ := rollback_highest h
  have hrest := rolledBackInTurn_of_empty count hsound hnil
  rw [hhighest] at hrest
  rw [RolledBackInTurn, hnil, eq_comm (a := ([] : List JournalEntry)), List.filter_eq_nil_iff]
  simp only [hok, hrest, true_and, and_true, decide_eq_true_eq, not_not]

/-- Pages recorded under other transactions than `txn_id`. -/
theorem recorded_iff {txn_id : UInt32} (counts : List Nat)
    (hne : ∀ i < counts.length, n + UInt32.ofNat i ≠ txn_id) :
    (∀ id ∈ recorded n counts, id = txn_id) ↔ ∀ count ∈ counts, count = 0 := by
  induction counts with
  | nil => simp [recorded]
  | cons k older ih =>
      have hk : newest n (k :: older) ≠ txn_id := hne older.length (Nat.lt_succ_self _)
      have holder := ih fun i hi => hne i (Nat.lt_succ_of_lt hi)
      rw [recorded, List.forall_mem_append, List.forall_mem_cons, holder, and_comm]
      refine and_congr_left fun _ => ?_
      -- the last group has no page, or one of another transaction
      constructor
      · intro h
        refine Nat.eq_zero_of_not_pos fun hpos => hk (h _ ?_)
        exact List.mem_replicate.mpr ⟨Nat.ne_of_gt hpos, rfl⟩
      · rintro rfl id hid
        cases hid

/-- Among the recorded pages only those of the newest transaction name it. -/
theorem recorded_newest_iff (k : Nat) (older : List Nat)
    (hwrap : n.toNat + (k :: older).length ≤ UInt32.size) :
    (∀ txn_id ∈ recorded n (k :: older), txn_id = newest n (k :: older))
      ↔ ∀ count ∈ older, count = 0 := by
  have hne : ∀ i < older.length, n + UInt32.ofNat i ≠ newest n (k :: older) := by
    intro i hi heq
    have hnat := congrArg UInt32.toNat heq
    rw [List.length_cons, UInt32.size] at hwrap
    simp only [newest, List.length_cons, Nat.add_sub_cancel, UInt32.toNat_add,
      UInt32.toNat_ofNat'] at hnat
    omega
  rw [recorded, List.forall_mem_append, recorded_iff older hne]
  exact and_iff_left fun id hid => List.eq_of_mem_replicate hid

/-- **Rollback one at a time** works exactly when the newest transaction recorded every
entry of the journal: no older transaction of the history has recorded a page, and
`n` began on a journal without entries of other transactions, or cleared it. -/
theorem rollback_in_turn_iff (layout : EntryLayout) (start : Journal)
    (hstart : Session layout start) (n : UInt32) (k : Nat) (older : List Nat) (journal : Journal)
    (h : Begun layout start n (k :: older) journal) :
    RolledBackInTurn layout journal (newest n (k :: older)) (older.length + 1)
      ↔ (∀ count ∈ older, count = 0)
        ∧ (n = start.highest_txn_id + 1 → ∀ entry ∈ journal_entries layout start.file,
            entry.txn_id = newest n (k :: older)) := by
  have hstate := h.state hstart
  have hentries : (∀ entry ∈ journal_entries layout journal.file,
      entry.txn_id = newest n (k :: older))
      ↔ ∀ id ∈ (journal_entries layout journal.file).map (·.txn_id),
        id = newest n (k :: older) := by
    rw [List.forall_mem_map]
  have hheld : (∀ id ∈ (held layout start n).map (·.txn_id), id = newest n (k :: older))
      ↔ (n = start.highest_txn_id + 1 → ∀ entry ∈ journal_entries layout start.file,
          entry.txn_id = newest n (k :: older)) := by
    rw [List.forall_mem_map, held]
    split
    next hnext => simp [hnext]
    next hother => simp [hother]
  rw [← hstate.highest, rolledBackInTurn_iff hstate.sound, hstate.highest, hentries,
    hstate.entries, List.forall_mem_append, hheld, recorded_newest_iff k older hstate.no_wrap,
    and_comm]

/-- A page is accepted for the highest transaction. -/
theorem add_page_accepted (h : journal.isOpen = true) {txn_id page_no : UInt32}
    {data : Nat → UInt8} {data_size : UInt16} (htxn : txn_id = journal.highest_txn_id) :
    (journal_add_page layout .ok journal txn_id page_no (some data) data_size).1 = PSQL_OK := by
  simp [journal_add_page, h, htxn, Syscalls.ok]

/-- Page 7 is recorded under transaction 1, then page 9 under transaction 2. -/
def two_journal : Journal :=
  let first := (journal_add_page packed_layout .ok begun_journal 1 7 (some fun _ => 0) 16).2
  let second := (journal_begin_transaction .ok first 2).2
  (journal_add_page packed_layout .ok second 2 9 (some fun _ => 0) 16).2

theorem begun_two_journal : Begun packed_layout new_journal 1 [1, 1] two_journal := by
  have hstart := session_new_journal packed_layout
  -- each call is accepted in the state the calls before it leave
  have h₁ : Begun packed_layout new_journal 1 [0] begun_journal :=
    .first (show journal_begin_transaction .ok new_journal 1 = (PSQL_OK, _) from
      Prod.ext (begin_accepted rfl 1) rfl)
  have s₁ := h₁.state hstart
  have h₂ := h₁.page (by decide)
    (show journal_add_page packed_layout .ok begun_journal 1 7 (some fun _ => 0) 16 = (PSQL_OK, _)
      from Prod.ext (add_page_accepted s₁.sound.isOpen s₁.highest.symm) rfl)
  have s₂ := h₂.state hstart
  have h₃ := h₂.next (by decide)
    (show journal_begin_transaction .ok _ 2 = (PSQL_OK, _) from
      Prod.ext (begin_accepted s₂.sound.isOpen 2) rfl)
  have s₃ := h₃.state hstart
  exact h₃.page (by decide)
    (show journal_add_page packed_layout .ok _ 2 9 (some fun _ => 0) 16 = (PSQL_OK, _) from
      Prod.ext (add_page_accepted s₃.sound.isOpen s₃.highest.symm) rfl)

/-- Transaction 1 has a page, which transaction 2 would have to leave. -/
theorem rollback_in_turn_iff_two :
    RolledBackInTurn packed_layout two_journal 2 2
      ↔ (∀ count ∈ [1], count = 0)
        ∧ ((1 : UInt32) = new_journal.highest_txn_id + 1 →
          ∀ entry ∈ journal_entries packed_layout new_journal.file, entry.txn_id = 2) :=
  rollback_in_turn_iff packed_layout new_journal (session_new_journal _) 1 1 [1] two_journal
    begun_two_journal

/-- Rolling back transaction 2 throws the page of transaction 1 away. -/
theorem rollback_drops_older :
    (journal_entries packed_layout two_journal.file).map (·.txn_id) = [1, 2]
    ∧ (journal_rollback_transaction .ok two_journal 2).1 = PSQL_OK
    ∧ journal_entries packed_layout (journal_rollback_transaction .ok two_journal 2).2.file = []
    ∧ ¬ RolledBackInTurn packed_layout two_journal 2 2 := by
  have hstart := session_new_journal packed_layout
  have hstate := begun_two_journal.state hstart
  have hhighest : two_journal.highest_txn_id = 2 := hstate.highest
  obtain ⟨hok, -, -, hnil⟩ := rollback_highest hstate.sound
  rw [hhighest] at hok hnil
  have hids : (journal_entries packed_layout two_journal.file).map (·.txn_id) = [1, 2] := by
    rw [hstate.entries, held, (journal_entries_eq_nil_iff hstart.sound).mpr rfl, ite_self]
    rfl
  refine ⟨hids, hok, hnil, fun h => ?_⟩
  rw [← hhighest, rolledBackInTurn_iff hstate.sound, hhighest] at h
  -- the page recorded under 1 would be one of 2
  obtain ⟨entry, hentry, htxn⟩ :=
    List.mem_map.mp (show 1 ∈ (journal_entries packed_layout two_journal.file).map (·.txn_id) by
      rw [hids]
      decide)
  exact absurd (htxn.symm.trans (h entry hentry)) (by decide)

end PreSeQL.Rollback
