/-
  PreSeQL.Index.Page — slotted index pages (first part of `index_page.c`).

  A loop that leaves at the first index with some property is `List.find?` over the
  range of its counter.  A local `IndexSlotData` that is not initialised holds
  whatever was there: such a value is taken from a `Junk`, which gives every
  declaration its own arbitrary contents.
-/
import PreSeQL.Pager.Pager

namespace PreSeQL.Index

open PreSeQL.Lib PreSeQL.Db

/-! ## §1. Records. -/

def MAX_DATA_PER_INDEX_SLOT : Nat := 16

/-- Key, page, slot and overflow pointer. -/
def INDEX_SLOT_DATA_SIZE : Nat := MAX_DATA_PER_INDEX_SLOT + 7

def SLOT_ENTRY_SIZE : Nat := SlotEntry.sizeof

structure OverflowPointer where
  next_page_id : UInt16
  next_chunk_id : UInt16
  deriving DecidableEq

structure IndexSlotData where
  key : Vector UInt8 MAX_DATA_PER_INDEX_SLOT
  next_page_id : UInt16
  next_slot_id : UInt8
  overflow : OverflowPointer
  deriving DecidableEq

/-- The contents of uninitialised locals, by place in the run of a function. -/
abbrev Junk := List Nat → IndexSlotData

/-- The part of the contents that belongs to call `i` of a function. -/
def Junk.call (junk : Junk) (i : Nat) : Junk := fun place => junk (i :: place)

/-- `memcmp` on the first `key_size` bytes: negative, zero or positive. -/
def compare_keys : List UInt8 → List UInt8 → Nat → Int
  | a :: key1, b :: key2, key_size + 1 =>
      if a < b then -1 else if b < a then 1 else compare_keys key1 key2 key_size
  | _, _, _ => 0

def encode_int_key (value : Int64) : UInt64 := value.toUInt64 ^^^ 0x8000000000000000

/-! ## §2. Page headers. -/

def IS_LEAF (m : Mem) (page : Nat) : Bool :=
  m.load8 (DBPageHeader.flag page) &&& PAGE_INDEX_LEAF != 0

def IS_INTERNAL (m : Mem) (page : Nat) : Bool :=
  m.load8 (DBPageHeader.flag page) &&& PAGE_INDEX_INTERNAL != 0

def USED_SPACE (m : Mem) (page : Nat) : Int :=
  MAX_USABLE_PAGE_SIZE - ((m.load16 (DBPageHeader.free_total page)).toNat : Int)

/-- Ten times `MAX_USABLE_PAGE_SIZE * INDEX_FULL_OCCUPANCY`, to be compared with ten
times the used space. -/
def FULL_THRESHOLD_10 : Int := 8 * MAX_USABLE_PAGE_SIZE

/-- The page header written by `init_index_internal_page` and `init_index_leaf_page`. -/
def init_index_header (m : Mem) (page : Nat) (page_no : UInt16) (flag : UInt8) : Mem :=
  let m := m.memset page 0 DBPageHeader.sizeof
  let m := m.store16 (DBPageHeader.page_id page) page_no
  let m := m.store8 (DBPageHeader.flag page) flag
  let m := m.store16 (DBPageHeader.free_start page) (UInt16.ofNat DBPageHeader.sizeof)
  let m := m.store16 (DBPageHeader.free_end page) (UInt16.ofNat MAX_USABLE_PAGE_SIZE)
  let m := m.store16 (DBPageHeader.free_total page)
    (UInt16.ofNat (MAX_USABLE_PAGE_SIZE - DBPageHeader.sizeof))
  m.store16 (DBPageHeader.right_sibling_page_id page) 0

def init_index_page (pager : Pager) (page_no : UInt16) (flag : UInt8) : Option (Nat × Pager) :=
  match pager_get_page pager page_no with
  | none => none
  | some page => some (page, pager.withMem (init_index_header pager.mem page page_no flag))

def init_index_internal_page (pager : Pager) (page_no : UInt16) : Option (Nat × Pager) :=
  init_index_page pager page_no PAGE_INDEX_INTERNAL

def init_index_leaf_page (pager : Pager) (page_no : UInt16) : Option (Nat × Pager) :=
  init_index_page pager page_no PAGE_INDEX_LEAF

/-! ## §3. The slot directory. -/

/-- `(SlotEntry*)(page->data + page->header.free_start)`. -/
def slot_entries (m : Mem) (page : Nat) : Nat :=
  DBPage.data page + (m.load16 (DBPageHeader.free_start page)).toNat

/-- Address of `entries[i]`. -/
def slot_entry (entries i : Nat) : Nat := entries + i * SlotEntry.sizeof

def total_slots (m : Mem) (page : Nat) : Nat := (m.load8 (DBPageHeader.total_slots page)).toNat

/-- The index of the first entry with this id, in the loops of `read_index_slot` and
`free_index_slot`. -/
def find_entry (m : Mem) (page : Nat) (slot_id : UInt8) : Option Nat :=
  (List.range (total_slots m page)).find? fun i =>
    m.load8 (SlotEntry.slot_id (slot_entry (slot_entries m page) i)) == slot_id

/-- A slot id that is free or new, 0 when the page is full; the list or `highest_slot`
is updated. -/
def find_empty_index_slot (pager : Pager) (page_id : UInt16) (key_size : Nat) :
    UInt8 × Pager :=
  match pager_get_page pager page_id with
  | none => (0, pager)
  | some page =>
      let m := pager.mem
      if key_size > MAX_DATA_PER_INDEX_SLOT then (0, pager)
      else
        let free_slot_count := m.load8 (DBPageHeader.free_slot_count page)
        if free_slot_count > 0 then
          -- a slot that was freed is taken again, the last one first
          (m.load8 (DBPageHeader.free_slot_list page (free_slot_count.toNat - 1)),
            pager.withMem (m.store8 (DBPageHeader.free_slot_count page) (free_slot_count - 1)))
        else if 10 * USED_SPACE m page < FULL_THRESHOLD_10
            ∧ (m.load16 (DBPageHeader.free_total page)).toNat
              ≥ INDEX_SLOT_DATA_SIZE + SLOT_ENTRY_SIZE then
          -- ids start at 1: the counter moves before it is read
          let highest_slot := m.load8 (DBPageHeader.highest_slot page) + 1
          (highest_slot, pager.withMem (m.store8 (DBPageHeader.highest_slot page) highest_slot))
        else (0, pager)

/-! ## §4. Reading and writing slots. -/

/-- The record at address `a`; `size` key bytes are copied over those of `slot`. -/
def read_record (m : Mem) (a size : Nat) (slot : IndexSlotData) : IndexSlotData :=
  { key := Vector.ofFn fun j => if j.val < size then m.load8 (a + j.val) else slot.key[j],
    next_page_id := m.load16 (a + size),
    next_slot_id := m.load8 (a + size + 2),
    overflow := ⟨m.load16 (a + size + 3), m.load16 (a + size + 5)⟩ }

/-- The record an entry names. -/
def entry_record (m : Mem) (page entry : Nat) (slot : IndexSlotData) : IndexSlotData :=
  read_record m (DBPage.data page + m.load (SlotEntry.offset entry) 8)
    (m.load (SlotEntry.size entry) 8) slot

/-- The contents of `slot` after the call. -/
def read_index_slot (pager : Pager) (page_id : UInt16) (slot_id : UInt8)
    (slot : IndexSlotData) : IndexSlotData :=
  match pager_get_page pager page_id with
  | none => slot
  | some page =>
      let m := pager.mem
      if total_slots m page ≤ slot_id.toNat then slot
      else
        match find_entry m page slot_id with
        | none => slot
        | some i => entry_record m page (slot_entry (slot_entries m page) i) slot

/-- The position at which the key belongs. -/
def insert_position (pager : Pager) (page_id : UInt16) (page : Nat) (slot : IndexSlotData)
    (junk : Junk) : Nat :=
  let m := pager.mem
  ((List.range (total_slots m page)).find? fun i =>
    let id := m.load8 (SlotEntry.slot_id (slot_entry (slot_entries m page) i))
    let existing := read_index_slot pager page_id id (junk [i])
    compare_keys slot.key.toList existing.key.toList MAX_DATA_PER_INDEX_SLOT < 0).getD
      (total_slots m page)

/-- The record of `slot` at address `a`. -/
def write_record (m : Mem) (a : Nat) (slot : IndexSlotData) : Mem :=
  let m := m.fill a MAX_DATA_PER_INDEX_SLOT fun j => slot.key.toList.getD j 0
  let m := m.store16 (a + MAX_DATA_PER_INDEX_SLOT) slot.next_page_id
  let m := m.store8 (a + MAX_DATA_PER_INDEX_SLOT + 2) slot.next_slot_id
  let m := m.store16 (a + MAX_DATA_PER_INDEX_SLOT + 3) slot.overflow.next_page_id
  m.store16 (a + MAX_DATA_PER_INDEX_SLOT + 5) slot.overflow.next_chunk_id

def write_entry (m : Mem) (entry : Nat) (slot_id : UInt8) (offset : UInt64) : Mem :=
  let m := m.store8 (SlotEntry.slot_id entry) slot_id
  let m := m.store (SlotEntry.offset entry) 8 offset.toNat
  m.store (SlotEntry.size entry) 8 MAX_DATA_PER_INDEX_SLOT

/-- Make room at `insert_pos` in a directory of `total` entries. -/
def shift_entries (m : Mem) (entries insert_pos total : Nat) : Mem :=
  if insert_pos < total then
    m.memmove (slot_entry entries (insert_pos + 1)) (slot_entry entries insert_pos)
      ((total - insert_pos) * SlotEntry.sizeof)
  else m

/-- The header after a record was put at `offset`. -/
def count_slot (m : Mem) (page : Nat) (offset : UInt64) : Mem :=
  let m := m.store8 (DBPageHeader.total_slots page)
    (m.load8 (DBPageHeader.total_slots page) + 1)
  let m := m.store16 (DBPageHeader.free_end page) offset.toUInt16
  m.store16 (DBPageHeader.free_total page)
    (m.load16 (DBPageHeader.free_total page)
      - UInt16.ofNat (INDEX_SLOT_DATA_SIZE + SLOT_ENTRY_SIZE))

/-- The last part of `write_index_slot`, with the slot id and the position found. -/
def insert_slot (m : Mem) (page : Nat) (slot_id : UInt8) (insert_pos : Nat)
    (slot : IndexSlotData) : Mem :=
  let entries := slot_entries m page
  let m := shift_entries m entries insert_pos (total_slots m page)
  let offset : UInt64 :=
    (m.load16 (DBPageHeader.free_end page)).toUInt64 - UInt64.ofNat INDEX_SLOT_DATA_SIZE
  let m := write_record m (DBPage.data page + offset.toNat) slot
  let m := write_entry m (slot_entry entries insert_pos) slot_id offset
  count_slot m page offset

def write_index_slot (pager : Pager) (page_id : UInt16) (slot : IndexSlotData) (junk : Junk) :
    Pager :=
  match pager_get_page pager page_id with
  | none => pager
  | some page =>
      if 10 * USED_SPACE pager.mem page ≥ FULL_THRESHOLD_10 then pager
      else
        match find_empty_index_slot pager page_id MAX_DATA_PER_INDEX_SLOT with
        | (slot_id, pager) =>
            -- 0 stands for a full page
            if slot_id = 0 then pager
            else
              let insert_pos := insert_position pager page_id page slot junk
              pager.withMem (insert_slot pager.mem page slot_id insert_pos slot)

/-- The header after an entry was taken out of the directory.  The size added to
`free_total` is that of the entry that has moved into its place. -/
def uncount_slot (m : Mem) (page : Nat) (slot_id : UInt8) (entry : Nat) : Mem :=
  let m := m.store8 (DBPageHeader.total_slots page)
    (m.load8 (DBPageHeader.total_slots page) - 1)
  let free_slot_count := m.load8 (DBPageHeader.free_slot_count page)
  let m := m.store8 (DBPageHeader.free_slot_count page) (free_slot_count + 1)
  let m := m.store8 (DBPageHeader.free_slot_list page free_slot_count.toNat) slot_id
  m.store16 (DBPageHeader.free_total page)
    (m.load16 (DBPageHeader.free_total page)
      + UInt16.ofNat (m.load (SlotEntry.size entry) 8 + SlotEntry.sizeof))

def free_index_slot (pager : Pager) (page_id : UInt16) (slot_id : UInt8) : Pager :=
  match pager_get_page pager page_id with
  | none => pager
  | some page =>
      let m := pager.mem
      let total := total_slots m page
      if total ≤ slot_id.toNat then pager
      else
        match find_entry m page slot_id with
        | none => pager
        | some i =>
            let entries := slot_entries m page
            let m := m.memmove (slot_entry entries i) (slot_entry entries (i + 1))
              ((total - i - 1) * SlotEntry.sizeof)
            pager.withMem (uncount_slot m page slot_id (slot_entry entries i))

end PreSeQL.Index
