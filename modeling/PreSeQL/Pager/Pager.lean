/-
  PreSeQL.Pager.Pager — the pager of the database file (`pager.c`).

  The file is seen through its shared mapping, so its bytes are one memory and a
  page is the address `page_no * PAGE_SIZE` in it.  System calls may fail; which of
  them do is an argument.  `pager_write_page` changes no byte and every caller drops
  its status, so it does not appear.  Allocation with `malloc` succeeds.
-/
import PreSeQL.Algorithm.Crc
import PreSeQL.Algorithm.FreeList
import PreSeQL.Pager.Layout
import PreSeQL.Status

namespace PreSeQL.Db

open PreSeQL.Lib PreSeQL.Radix PreSeQL.Crc

/-! ## §1. State. -/

/-- Free pages: a counter and the tree of their numbers. -/
structure PageTracker where
  num_frees : UInt8
  tree : RadixTree

/-- The open database file. -/
structure DatabasePager where
  /-- The bytes of the file. -/
  mem : Mem
  /-- The length of the file. -/
  file_end : Nat
  /-- The length of the mapping at `mem_start`, when there is one. -/
  mapped : Option Nat
  file_size : Nat
  free_page_map : PageTracker

structure Pager where
  db_pager : DatabasePager
  flags : UInt8
  read_only : Bool

def PAGER_READONLY : UInt8 := 0x01

namespace Pager

abbrev mem (pager : Pager) : Mem := pager.db_pager.mem

abbrev free_page_map (pager : Pager) : PageTracker := pager.db_pager.free_page_map

def withMem (pager : Pager) (m : Mem) : Pager :=
  { pager with db_pager := { pager.db_pager with mem := m } }

def withMap (pager : Pager) (map : PageTracker) : Pager :=
  { pager with db_pager := { pager.db_pager with free_page_map := map } }

variable (pager : Pager) (m : Mem) (map : PageTracker)

@[simp] theorem withMem_mem : (pager.withMem m).mem = m := rfl

@[simp] theorem withMem_map : (pager.withMem m).free_page_map = pager.free_page_map := rfl

@[simp] theorem withMem_file_end :
    (pager.withMem m).db_pager.file_end = pager.db_pager.file_end := rfl

@[simp] theorem withMap_mem : (pager.withMap map).mem = pager.mem := rfl

@[simp] theorem withMap_map : (pager.withMap map).free_page_map = map := rfl

end Pager

/-! ## §2. Growing the file. -/

/-- Which of the system calls made by an operation succeed. -/
structure Syscalls where
  lseek : Bool
  ftruncate : Bool
  munmap : Bool
  mmap : Bool

def Syscalls.ok : Syscalls := ⟨true, true, true, true⟩

/-- `ftruncate` to at least the present length: the new bytes are zero. -/
def DatabasePager.extend (db : DatabasePager) (new_size : Nat) : DatabasePager :=
  { db with mem := db.mem.memset db.file_end 0 (new_size - db.file_end), file_end := new_size }

/-- The file afterwards, and whether a new mapping was returned. -/
def resize_mmap (sys : Syscalls) (db : DatabasePager) (new_size : Nat) : DatabasePager × Bool :=
  if sys.ftruncate = false ∨ 2 ^ 63 ≤ new_size then (db, false)
  else if sys.munmap = false then (db.extend new_size, false)
  else if sys.mmap = false then ({ db.extend new_size with mapped := none }, false)
  else ({ db.extend new_size with mapped := some new_size }, true)

def allocate_new_db_page (sys : Syscalls) (pager : Pager) : UInt16 × Pager :=
  if sys.lseek = false then (0, pager)
  else
    let current_size := pager.db_pager.file_end
    let new_size := current_size + PAGE_SIZE
    match resize_mmap sys pager.db_pager new_size with
    | (db, false) => (0, { pager with db_pager := db })
    | (db, true) => (UInt16.ofNat (current_size / PAGE_SIZE), { pager with db_pager := db })

def allocate_new_db_pages (sys : Syscalls) (pager : Pager) (num_pages : Nat) : UInt16 × Pager :=
  if num_pages = 0 then (0, pager)
  else if sys.lseek = false then (0, pager)
  else
    let old_size := pager.db_pager.file_end
    let growth := num_pages * PAGE_SIZE % 2 ^ 64
    let new_size := (old_size + growth) % 2 ^ 64
    match resize_mmap sys pager.db_pager new_size with
    | (db, false) => (0, { pager with db_pager := db })
    | (db, true) =>
        -- the number of the last of the new pages
        let start_page_id := UInt16.ofNat (old_size / PAGE_SIZE)
        (UInt16.ofNat (start_page_id.toNat + num_pages - 1), { pager with db_pager := db })

/-! ## §3. Page access. -/

def pager_get_page (_pager : Pager) (page_no : UInt16) : Option Nat :=
  if MAX_PAGES ≤ page_no.toNat then none else some (page_no.toNat * PAGE_SIZE)

theorem pager_get_page_eq_some {pager : Pager} {page_no : UInt16} {page : Nat}
    (h : pager_get_page pager page_no = some page) :
    page_no.toNat < MAX_PAGES ∧ page = page_no.toNat * PAGE_SIZE := by
  unfold pager_get_page at h
  split at h
  · cases h
  · exact ⟨by omega, (Option.some.inj h).symm⟩

@[simp] theorem pager_get_page_zero (pager : Pager) : pager_get_page pager 0 = some 0 := rfl

/-- `(DatabaseHeader*)header_page->data` of page 0. -/
@[simp] def database_header : Nat := DBPage.data 0

def Pager.free_page_count (pager : Pager) : UInt16 :=
  pager.mem.load16 (DatabaseHeader.free_page_count database_header)

def Pager.highest_page (pager : Pager) : UInt16 :=
  pager.mem.load16 (DatabaseHeader.highest_page database_header)

/-! ## §4. Free pages. -/

/-- The loop body of `init_free_page_map`. -/
def load_free_page (map : PageTracker) (page_no : UInt16) : PageTracker :=
  if page_no > 0 then ⟨map.num_frees + 1, radix_tree_insert map.tree page_no⟩ else map

def init_free_page_map (pager : Pager) : Pager :=
  let pager := pager.withMap ⟨0, radix_tree_create⟩
  match pager_get_page pager 0 with
  | none => pager
  | some header_page =>
      let header := DBPage.data header_page
      let count := pager.mem.load16 (DatabaseHeader.free_page_count header)
      pager.withMap ((freelist_entries pager.mem (DatabaseHeader.free_page_list header)
        count.toNat).foldl load_free_page pager.free_page_map)

def mark_page_free (pager : Pager) (page_no : UInt16) : Pager :=
  let map := pager.free_page_map
  let pager := pager.withMap ⟨map.num_frees + 1, radix_tree_insert map.tree page_no⟩
  match pager_get_page pager 0 with
  | none => pager
  | some header_page =>
      let header := DBPage.data header_page
      let count := pager.mem.load16 (DatabaseHeader.free_page_count header)
      if count.toNat < FREE_PAGE_LIST_SIZE then
        let m := pager.mem.store16
          (freelist_cell (DatabaseHeader.free_page_list header) count.toNat) page_no
        pager.withMem (m.store16 (DatabaseHeader.free_page_count header) (count + 1))
      else pager

/-- `if (num_frees > 0) num_frees--`. -/
def count_down (num_frees : UInt8) : UInt8 :=
  if num_frees > 0 then num_frees - 1 else num_frees

def mark_page_used (pager : Pager) (page_no : UInt16) : Pager :=
  let map := pager.free_page_map
  let pager := pager.withMap ⟨count_down map.num_frees, radix_tree_delete map.tree page_no⟩
  match pager_get_page pager 0 with
  | none => pager
  | some header_page =>
      let header := DBPage.data header_page
      if page_no > pager.mem.load16 (DatabaseHeader.highest_page header) then
        pager.withMem (pager.mem.store16 (DatabaseHeader.highest_page header) page_no)
      else pager

/-- The inner loop of `get_free_page`, from `j` on; `j` stays below the 16-bit count,
so the fuel of `remove_from_free_list` is never used up. -/
def shift_free_list (header : Nat) : Nat → Mem → Nat → Mem
  | 0, m, _ => m
  | fuel + 1, m, j =>
      if j + 1 < (m.load16 (DatabaseHeader.free_page_count header)).toNat then
        let list := DatabaseHeader.free_page_list header
        shift_free_list header fuel
          (m.store16 (freelist_cell list j) (m.load16 (freelist_cell list (j + 1)))) (j + 1)
      else m

/-- The outer loop of `get_free_page`, from `i` on. -/
def remove_from_free_list (header : Nat) (page_no : UInt16) : Nat → Mem → Nat → Mem
  | 0, m, _ => m
  | fuel + 1, m, i =>
      if i < (m.load16 (DatabaseHeader.free_page_count header)).toNat then
        if m.load16 (freelist_cell (DatabaseHeader.free_page_list header) i) = page_no then
          let m := shift_free_list header (2 ^ 16) m i
          m.store16 (DatabaseHeader.free_page_count header)
            (m.load16 (DatabaseHeader.free_page_count header) - 1)
        else remove_from_free_list header page_no fuel m (i + 1)
      else m

/-- The last lines of `get_free_page`, when no free page was taken. -/
def next_new_page (pager : Pager) : UInt16 :=
  match pager_get_page pager 0 with
  | none => 0
  | some header_page =>
      pager.mem.load16 (DatabaseHeader.highest_page (DBPage.data header_page)) + 1

def get_free_page (pager : Pager) : UInt16 × Pager :=
  let map := pager.free_page_map
  if map.num_frees > 0 then
    match radix_tree_pop_min map.tree with
    | (page_no, tree) =>
        if page_no > 0 then
          let pager := pager.withMap ⟨map.num_frees - 1, tree⟩
          match pager_get_page pager 0 with
          | none => (0, pager)
          | some header_page =>
              (page_no, pager.withMem
                (remove_from_free_list (DBPage.data header_page) page_no (2 ^ 16) pager.mem 0))
        else
          -- `pop_min` found nothing: the counter stays as it is
          let pager := pager.withMap ⟨map.num_frees, tree⟩
          (next_new_page pager, pager)
  else (next_new_page pager, pager)

def sync_free_page_list (pager : Pager) : PSqlStatus × Pager :=
  match pager_get_page pager 0 with
  | none => (.PSQL_ERROR, pager)
  | some header_page =>
      let header := DBPage.data header_page
      let m := pager.mem.store16 (DatabaseHeader.free_page_count header) 0
      match radix_to_freelist m pager.free_page_map.tree (DatabaseHeader.free_page_list header)
          FREE_PAGE_LIST_SIZE with
      | (m, count) =>
          (.PSQL_OK, pager.withMem
            (m.store16 (DatabaseHeader.free_page_count header) (UInt16.ofNat count)))

/-! ## §5. Initialising pages. -/

/-- The page header written by `allocate_page`. -/
def allocate_page_header (m : Mem) (page : Nat) (page_no : UInt16) (flag : UInt8) : Mem :=
  let m := m.memset page 0 DBPage.sizeof
  let m := m.store16 (DBPageHeader.page_id page) page_no
  let m := m.store16 (DBPageHeader.ref_counter page) 1
  let m := m.store8 (DBPageHeader.flag page) flag
  let m := m.store16 (DBPageHeader.free_start page) (UInt16.ofNat DBPageHeader.sizeof)
  let m := m.store16 (DBPageHeader.free_end page) (UInt16.ofNat MAX_USABLE_PAGE_SIZE)
  let m := m.store16 (DBPageHeader.free_total page)
    (UInt16.ofNat (MAX_USABLE_PAGE_SIZE - DBPageHeader.sizeof))
  let m := m.store8 (DBPageHeader.total_slots page) 0
  let m := m.store8 (DBPageHeader.highest_slot page) 0
  m.store8 (DBPageHeader.free_slot_count page) 0

/-- The pager and the address of the page. -/
def allocate_page (pager : Pager) (page_no : UInt16) (flag : UInt8) : Nat × Pager :=
  let page := page_no.toNat * PAGE_SIZE
  (page, mark_page_used (pager.withMem (allocate_page_header pager.mem page page_no flag)) page_no)

def init_data_page (pager : Pager) (page_no : UInt16) : Nat × Pager :=
  allocate_page pager page_no PAGE_DATA

def init_index_leaf_page (pager : Pager) (page_no : UInt16) : Nat × Pager :=
  allocate_page pager page_no PAGE_INDEX_LEAF

def init_index_internal_page (pager : Pager) (page_no : UInt16) : Nat × Pager :=
  allocate_page pager page_no PAGE_INDEX_INTERNAL

def init_overflow_page (pager : Pager) (page_no : UInt16) : Nat × Pager :=
  allocate_page pager page_no PAGE_OVERFLOW

/-! ## §6. Opening and creating a database. -/

/-- Which system calls of `init_pager` succeed. -/
structure OpenCalls where
  openFile : Bool
  fstat : Bool
  ftruncate : Bool
  mmap : Bool
  openJournal : Bool

def OpenCalls.ok : OpenCalls := ⟨true, true, true, true, true⟩

/-- Open the file with the given bytes and length.  `O_RDONLY` is 0, so
`(flags & O_RDONLY) != 0` never holds and `read_only` is always false. -/
def init_pager (sys : OpenCalls) (bytes : Mem) (length : Nat) : Option Pager :=
  if sys.openFile = false then none
  else if sys.fstat = false then none
  else if length = 0 ∧ sys.ftruncate = false then none
  else if sys.mmap = false then none
  else
    -- an empty file is grown to one page of zeros
    let mem := if length = 0 then fun _ => 0 else bytes
    let file_size := if length = 0 then PAGE_SIZE else length
    let pager := init_free_page_map
      { db_pager :=
          { mem := mem, file_end := file_size, mapped := some file_size, file_size := file_size,
            free_page_map := ⟨0, radix_tree_create⟩ },
        flags := 0, read_only := false }
    if sys.openJournal = false then none else some pager

/-- The pager of a file that did not exist. -/
def fresh_pager : Pager :=
  init_free_page_map
    { db_pager :=
        { mem := fun _ => 0, file_end := PAGE_SIZE, mapped := some PAGE_SIZE,
          file_size := PAGE_SIZE, free_page_map := ⟨0, radix_tree_create⟩ },
      flags := 0, read_only := false }

theorem init_pager_fresh (bytes : Mem) : init_pager .ok bytes 0 = some fresh_pager := rfl

/-- The header written by `pager_init_new_db`. -/
def new_database_header (m : Mem) (header : Nat) : Mem :=
  let m := m.memset header 0 DatabaseHeader.sizeof
  let m := m.fill (DatabaseHeader.magic header) MAGIC_NUMBER.length
    fun i => MAGIC_NUMBER.getD i 0
  let m := m.store16 (DatabaseHeader.page_size header) (UInt16.ofNat PAGE_SIZE)
  let m := m.store16 (DatabaseHeader.db_version header) 1
  let m := m.store16 (DatabaseHeader.root_table_catalog header) 1
  let m := m.store16 (DatabaseHeader.root_column_catalog header) 2
  let m := m.store16 (DatabaseHeader.root_fk_catalog header) 3
  let m := m.store16 (DatabaseHeader.free_page_count header) 0
  let m := m.store16 (DatabaseHeader.highest_page header) 3
  let m := m.store16 (DatabaseHeader.transaction_state header) 0
  let m := m.store16 (DatabaseHeader.flags header) 0
  m.store32 (DatabaseHeader.checksum header)
    (calculate_crc32 (m.bytes header (DatabaseHeader.checksum 0)))

def pager_init_new_db (sys : Syscalls) (pager : Pager) : PSqlStatus × Pager :=
  if pager.flags &&& PAGER_READONLY ≠ 0 then (.PSQL_READONLY, pager)
  else
    match allocate_new_db_pages sys pager 4 with
    | (highest_page, pager) =>
        if highest_page < 3 then (.PSQL_NOMEM, pager)
        else
          match pager_get_page pager 0 with
          | none => (.PSQL_ERROR, pager)
          | some header_page =>
              let pager := pager.withMem
                (new_database_header pager.mem (DBPage.data header_page))
              let pager := (init_index_internal_page pager 1).2
              let pager := (init_index_internal_page pager 2).2
              let pager := (init_index_internal_page pager 3).2
              (.PSQL_OK, pager)

end PreSeQL.Db
