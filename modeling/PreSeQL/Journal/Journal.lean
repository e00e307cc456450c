/-
  PreSeQL.Journal.Journal — the rollback journal (`journal.c`).

  The static variables and the file are one state.  The file is seen through its
  shared mapping; a byte beyond its end reads as zero.  System calls may fail; which
  of them do is an argument.  `journal_filename` is left out, and `malloc` succeeds.

  `RollbackJournalPage` is not declared in the repository: its layout is a parameter,
  of which the code relies on the fields lying inside the entry without overlap.
-/
import PreSeQL.Algorithm.Crc
import PreSeQL.Pager.Layout
import PreSeQL.Status

namespace PreSeQL.Rollback

open PreSeQL.Lib PreSeQL.Crc PreSeQL.Db PSqlStatus

/-! ## §1. Layout. -/

namespace JournalHeader

@[simp] def magic : Nat := 0

@[simp] def version : Nat := 8

@[simp] def page_size : Nat := 12

@[simp] def highest_txn_id : Nat := 16

@[simp] def checksum : Nat := 20

@[simp] def sizeof : Nat := 24

end JournalHeader

/-- Layout of `RollbackJournalPage`: offsets of the fields `journal_add_page` writes, with
the width of what it writes there, and the capacity of `page_data`. -/
structure EntryLayout where
  sizeof : Nat
  txn_id : Nat
  original_page : Nat
  data_size : Nat
  reserved : Nat
  page_data : Nat
  payload : Nat
  inside : ∀ field ∈ [(txn_id, 4), (original_page, 4), (data_size, 2), (reserved, 1),
    (page_data, payload)], field.1 + field.2 ≤ sizeof
  disjoint : [(txn_id, 4), (original_page, 4), (data_size, 2), (reserved, 1),
    (page_data, payload)].Pairwise fun f g => f.1 + f.2 ≤ g.1 ∨ g.1 + g.2 ≤ f.1

theorem EntryLayout.sizeof_pos (layout : EntryLayout) : 0 < layout.sizeof := by
  have := layout.inside (layout.txn_id, 4) (by simp)
  simp only at this
  omega

/-- The fields one after another, with room for a page. -/
def packed_layout : EntryLayout where
  sizeof := 4108
  txn_id := 0
  original_page := 4
  data_size := 8
  reserved := 10
  page_data := 12
  payload := 4096
  inside := by decide
  disjoint := by decide

/-! ## §2. State. -/

structure JournalFile where
  bytes : Mem
  length : Nat

/-- `ftruncate`: bytes behind the old or the new end are zero. -/
def JournalFile.truncate (file : JournalFile) (n : Nat) : JournalFile :=
  ⟨fun i => if i < min file.length n then file.bytes i else 0, n⟩

structure Journal where
  file : JournalFile
  /-- `journal_fd >= 0`. -/
  fdOpen : Bool
  /-- Length of the mapping at `journal_mem`, none for `NULL`. -/
  journal_mem : Option Nat
  journal_size : Nat

namespace Journal

def highest_txn_id (journal : Journal) : UInt32 :=
  UInt32.ofNat (journal.file.bytes.load JournalHeader.highest_txn_id 4)

/-- The guard of every operation: `journal_fd >= 0 && journal_mem`. -/
def isOpen (journal : Journal) : Bool := journal.fdOpen && journal.journal_mem.isSome

def withBytes (journal : Journal) (bytes : Mem) : Journal :=
  { journal with file := { journal.file with bytes := bytes } }

/-- The state after `journal_fd = -1`. -/
def closed (journal : Journal) : Journal :=
  { journal with fdOpen := false, journal_mem := none }

end Journal

/-- `calculate_crc32` of the header up to the checksum. -/
def header_checksum (bytes : Mem) : UInt32 :=
  calculate_crc32 (bytes.bytes 0 JournalHeader.checksum)

def write_checksum (bytes : Mem) : Mem :=
  bytes.store32 JournalHeader.checksum (header_checksum bytes)

/-- Which system calls of an operation succeed; each makes every one of them at most once. -/
structure Syscalls where
  openFile : Bool
  fstat : Bool
  ftruncate : Bool
  munmap : Bool
  mmap : Bool
  msync : Bool

def Syscalls.ok : Syscalls := ⟨true, true, true, true, true, true⟩

/-! ## §3. Opening and closing. -/

/-- The header of a new journal. -/
def new_journal_header (bytes : Mem) : Mem :=
  let m := bytes.memset 0 0 JournalHeader.sizeof
  let m := m.fill JournalHeader.magic MAGIC_NUMBER.length fun i => MAGIC_NUMBER.getD i 0
  let m := m.store32 JournalHeader.version 1
  let m := m.store32 JournalHeader.page_size (UInt32.ofNat PAGE_SIZE)
  let m := m.store32 JournalHeader.highest_txn_id 0
  write_checksum m

/-- `memcmp(journal_header->magic, MAGIC_NUMBER, MAGIC_NUMBER_SIZE) == 0`. -/
def magic_ok (bytes : Mem) : Bool :=
  bytes.bytes JournalHeader.magic MAGIC_NUMBER.length == MAGIC_NUMBER

def checksum_ok (bytes : Mem) : Bool :=
  UInt32.ofNat (bytes.load JournalHeader.checksum 4) == header_checksum bytes

def journal_init (sys : Syscalls) (journal : Journal) : PSqlStatus × Journal :=
  if sys.openFile = false then (PSQL_IOERR, journal.closed)
  else if sys.fstat = false then (PSQL_IOERR, journal.closed)
  else
    -- a file without any byte is grown to a header
    let isNew := journal.file.length = 0
    let journal_size := if isNew then JournalHeader.sizeof else journal.file.length
    let journal := { journal with journal_size := journal_size }
    if isNew ∧ sys.ftruncate = false then (PSQL_IOERR, journal.closed)
    else
      let file := if isNew then journal.file.truncate journal_size else journal.file
      let journal := { journal with file := file }
      if sys.mmap = false then (PSQL_IOERR, journal.closed)
      else
        let journal := { journal with fdOpen := true, journal_mem := some journal_size }
        -- the test for a new journal looks at the size only
        if journal_size = JournalHeader.sizeof then
          let journal := journal.withBytes (new_journal_header file.bytes)
          if sys.msync = false then (PSQL_IOERR, journal.closed) else (PSQL_OK, journal)
        else if magic_ok file.bytes = false then (PSQL_CORRUPT, journal.closed)
        else if checksum_ok file.bytes = false then (PSQL_CORRUPT, journal.closed)
        else (PSQL_OK, journal)

def journal_close (sys : Syscalls) (journal : Journal) : PSqlStatus × Journal :=
  if journal.isOpen = false then (PSQL_OK, journal)
  else if sys.msync = false then (PSQL_IOERR, journal)
  else if sys.munmap = false then (PSQL_IOERR, journal)
  else (PSQL_OK, { journal.closed with journal_size := 0 })

/-! ## §4. Transactions. -/

/-- Set `highest_txn_id` and the checksum. -/
def write_highest (bytes : Mem) (txn_id : UInt32) : Mem :=
  write_checksum (bytes.store32 JournalHeader.highest_txn_id txn_id)

/-- Clear the journal and reset, for a transaction that does not follow the last one. -/
def reset_journal (journal : Journal) (txn_id : UInt32) : Journal :=
  let file := journal.file.truncate JournalHeader.sizeof
  { journal with
    file := { file with
      bytes := file.bytes.store32 JournalHeader.highest_txn_id (txn_id - 1) },
    journal_size := JournalHeader.sizeof }

def journal_begin_transaction (sys : Syscalls) (journal : Journal) (txn_id : UInt32) :
    PSqlStatus × Journal :=
  if journal.isOpen = false then (PSQL_ERROR, journal)
  else if txn_id ≠ journal.highest_txn_id + 1 ∧ sys.ftruncate = false then (PSQL_IOERR, journal)
  else
    let journal :=
      if txn_id ≠ journal.highest_txn_id + 1 then reset_journal journal txn_id else journal
    let journal := journal.withBytes (write_highest journal.file.bytes txn_id)
    if sys.msync = false then (PSQL_IOERR, journal) else (PSQL_OK, journal)

/-- The entry written by `journal_add_page` at address `a`. -/
def write_entry (layout : EntryLayout) (bytes : Mem) (a : Nat) (txn_id page_no : UInt32)
    (page_data : Nat → UInt8) (data_size : UInt16) : Mem :=
  let m := bytes.store32 (a + layout.txn_id) txn_id
  let m := m.store32 (a + layout.original_page) page_no
  let m := m.store16 (a + layout.data_size) data_size
  let m := m.store8 (a + layout.reserved) 0
  m.fill (a + layout.page_data) data_size.toNat page_data

/-- `page_data` is none for a `NULL` pointer. -/
def journal_add_page (layout : EntryLayout) (sys : Syscalls) (journal : Journal)
    (txn_id page_no : UInt32) (page_data : Option (Nat → UInt8)) (data_size : UInt16) :
    PSqlStatus × Journal :=
  match page_data with
  | none => (PSQL_ERROR, journal)
  | some page_data =>
      if journal.isOpen = false then (PSQL_ERROR, journal)
      else if txn_id ≠ journal.highest_txn_id then (PSQL_ERROR, journal)
      else if sys.ftruncate = false then (PSQL_IOERR, journal)
      else
        -- room for one entry behind the last one
        let new_size := journal.journal_size + layout.sizeof
        let journal := { journal with file := journal.file.truncate new_size }
        if sys.munmap = false then (PSQL_IOERR, journal)
        else if sys.mmap = false then (PSQL_IOERR, { journal with journal_mem := none })
        else
          let bytes := write_entry layout journal.file.bytes journal.journal_size txn_id page_no
            page_data data_size
          let journal := { journal.withBytes bytes with
            journal_mem := some new_size, journal_size := new_size }
          if sys.msync = false then (PSQL_IOERR, journal) else (PSQL_OK, journal)

/-- The common body of commit and rollback: cut the journal to its header, which then
names the transaction `highest`. -/
def finish_transaction (sys : Syscalls) (journal : Journal) (txn_id highest : UInt32) :
    PSqlStatus × Journal :=
  if journal.isOpen = false then (PSQL_ERROR, journal)
  else if txn_id ≠ journal.highest_txn_id then (PSQL_ERROR, journal)
  else if sys.ftruncate = false then (PSQL_IOERR, journal)
  else
    let journal := { journal with file := journal.file.truncate JournalHeader.sizeof }
    if sys.munmap = false then (PSQL_IOERR, journal)
    else
      let journal := { journal with journal_size := JournalHeader.sizeof }
      if sys.mmap = false then (PSQL_IOERR, { journal with journal_mem := none })
      else
        let journal := { journal.withBytes (write_highest journal.file.bytes highest) with
          journal_mem := some JournalHeader.sizeof }
        if sys.msync = false then (PSQL_IOERR, journal) else (PSQL_OK, journal)

def journal_commit_transaction (sys : Syscalls) (journal : Journal) (txn_id : UInt32) :
    PSqlStatus × Journal :=
  finish_transaction sys journal txn_id txn_id

def journal_rollback_transaction (sys : Syscalls) (journal : Journal) (txn_id : UInt32) :
    PSqlStatus × Journal :=
  finish_transaction sys journal txn_id (txn_id - 1)

def journal_is_valid_transaction (journal : Journal) (txn_id : UInt32) : PSqlStatus :=
  if journal.isOpen = false then PSQL_ERROR
  else if txn_id ≠ journal.highest_txn_id + 1 then PSQL_ERROR
  else PSQL_OK

/-! ## §5. Entries. -/

/-- A page entry as its fields read. -/
structure JournalEntry where
  txn_id : UInt32
  original_page : UInt32
  data_size : UInt16
  page_data : List UInt8
  deriving DecidableEq

def read_entry (layout : EntryLayout) (bytes : Mem) (a : Nat) : JournalEntry where
  txn_id := UInt32.ofNat (bytes.load (a + layout.txn_id) 4)
  original_page := UInt32.ofNat (bytes.load (a + layout.original_page) 4)
  data_size := bytes.load16 (a + layout.data_size)
  page_data := bytes.bytes (a + layout.page_data) layout.payload

/-- The entries behind the header. -/
def journal_entries (layout : EntryLayout) (file : JournalFile) : List JournalEntry :=
  (List.range ((file.length - JournalHeader.sizeof) / layout.sizeof)).map fun k =>
    read_entry layout file.bytes (JournalHeader.sizeof + k * layout.sizeof)

end PreSeQL.Rollback
