/-
  PreSeQL.Pager.Layout — constants and struct layouts of the database file
  (`constants.h`, `db/base/page.h`, `types.h`).

  A page, a header or a slot entry is an address; a field of it is an address too.
  The offsets are those of natural alignment on 64-bit gcc.  All of them are simp
  lemmas, so that `simp` turns a question about overlap into linear arithmetic.
-/
import PreSeQL.Lib.ByteMem

namespace PreSeQL.Db

open PreSeQL.Lib

/-! ## §1. Sizes. -/

@[simp] def PAGE_SIZE : Nat := 4096

@[simp] def MAX_PAGES : Nat := 65535

@[simp] def MAX_PAGE_HEADER_SIZE : Nat := 32

@[simp] def MAX_JOURNAL_HEADER_SIZE : Nat := 32

@[simp] def MAX_USABLE_PAGE_SIZE : Nat := PAGE_SIZE - MAX_PAGE_HEADER_SIZE - MAX_JOURNAL_HEADER_SIZE

theorem MAX_USABLE_PAGE_SIZE_eq : MAX_USABLE_PAGE_SIZE = 4032 := rfl

@[simp] def FREE_PAGE_LIST_SIZE : Nat := 32

@[simp] def FREE_SLOT_LIST_SIZE : Nat := 16

/-- `"SQLSHITE"`. -/
def MAGIC_NUMBER : List UInt8 := [83, 81, 76, 83, 72, 73, 84, 69]

/-! ## §2. Page flags, as the values their macros spell. -/

def PAGE_INDEX_INTERNAL : UInt8 := 0x01

def PAGE_INDEX_LEAF : UInt8 := 0x02

def PAGE_DATA : UInt8 := 0x04

def PAGE_OVERFLOW : UInt8 := 0x08

/-! ## §3. `DBPage` and its `DBPageHeader`, at the start of the page. -/

namespace DBPageHeader

@[simp] def page_id (page : Nat) : Nat := page

@[simp] def ref_counter (page : Nat) : Nat := page + 2

@[simp] def flag (page : Nat) : Nat := page + 4

@[simp] def free_start (page : Nat) : Nat := page + 6

@[simp] def free_end (page : Nat) : Nat := page + 8

@[simp] def free_total (page : Nat) : Nat := page + 10

@[simp] def total_slots (page : Nat) : Nat := page + 12

@[simp] def highest_slot (page : Nat) : Nat := page + 13

@[simp] def free_slot_count (page : Nat) : Nat := page + 14

@[simp] def free_slot_list (page i : Nat) : Nat := page + 15 + i

@[simp] def right_sibling_page_id (page : Nat) : Nat := page + 32

@[simp] def sizeof : Nat := 34

end DBPageHeader

namespace DBPage

/-- `page->data`. -/
@[simp] def data (page : Nat) : Nat := page + DBPageHeader.sizeof

/-- Header, `data` and `reserved`: two bytes more than `PAGE_SIZE`. -/
@[simp] def sizeof : Nat := DBPageHeader.sizeof + MAX_USABLE_PAGE_SIZE + MAX_JOURNAL_HEADER_SIZE

end DBPage

/-! ## §4. `DatabaseHeader`, in the data of page 0. -/

namespace DatabaseHeader

@[simp] def magic (header : Nat) : Nat := header

@[simp] def page_size (header : Nat) : Nat := header + 8

@[simp] def db_version (header : Nat) : Nat := header + 10

@[simp] def root_table_catalog (header : Nat) : Nat := header + 12

@[simp] def root_column_catalog (header : Nat) : Nat := header + 14

@[simp] def root_fk_catalog (header : Nat) : Nat := header + 16

@[simp] def free_page_list (header : Nat) : Nat := header + 18

@[simp] def free_page_count (header : Nat) : Nat := header + 82

@[simp] def highest_page (header : Nat) : Nat := header + 84

@[simp] def transaction_state (header : Nat) : Nat := header + 86

@[simp] def flags (header : Nat) : Nat := header + 88

@[simp] def checksum (header : Nat) : Nat := header + 92

@[simp] def sizeof : Nat := 96

end DatabaseHeader

/-! ## §5. `SlotEntry`. -/

namespace SlotEntry

@[simp] def slot_id (entry : Nat) : Nat := entry

@[simp] def offset (entry : Nat) : Nat := entry + 8

@[simp] def size (entry : Nat) : Nat := entry + 16

@[simp] def sizeof : Nat := 24

end SlotEntry

end PreSeQL.Db
