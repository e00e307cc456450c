/-
  PreSeQL.Index.BTree — search and insertion (second part of `index_page.c`).

  A walk down the tree takes fuel; `none` stands for a walk that uses it up and for a
  `NULL` page that is used.  `btree_insert` leaves it to the caller to follow the root
  when it is replaced, so the root behind the call is part of its result.
-/
import PreSeQL.Index.Page

namespace PreSeQL.Index

open PreSeQL.Lib PreSeQL.Db

/-- The status codes of `index_page.c`. -/
inductive IndexStatus where
  | PSQL_STATUS_OK | PSQL_STATUS_NOT_FOUND | PSQL_STATUS_INVALID_ARGUMENT
  | PSQL_STATUS_INVALID_PAGE | PSQL_STATUS_OUT_OF_MEMORY | PSQL_STATUS_IO_ERROR
  deriving DecidableEq, Repr

open IndexStatus

/-- `page->header.page_id` -/
def header_page_id (m : Mem) (page : Nat) : UInt16 := m.load16 (DBPageHeader.page_id page)

/-! ## §1. Search. -/

/-- The key of slot id `i` of the page; the variable it is read to holds `slot`. -/
def slot_key (pager : Pager) (page i : Nat) (slot : IndexSlotData) : List UInt8 :=
  (read_index_slot pager (header_page_id pager.mem page) (UInt8.ofNat i) slot).key.toList

/-- The child of an inner page to go on with. -/
def next_child (pager : Pager) (page : Nat) (key : List UInt8) (junk : Junk) : UInt16 :=
  let total := total_slots pager.mem page
  let i := ((List.range total).find? fun i =>
    compare_keys key (slot_key pager page i (junk [0, i])) key.length < 0).getD total
  (read_index_slot pager (header_page_id pager.mem page) (UInt8.ofNat i)
    (junk [1])).next_page_id

/-- The loop over the slots of a leaf: it ends at the first key that is not smaller. -/
def search_leaf (pager : Pager) (page : Nat) (key : List UInt8) (junk : Junk) :
    IndexStatus × Option (UInt16 × UInt8) :=
  let cmp i := compare_keys key (slot_key pager page i (junk [i])) key.length
  match (List.range (total_slots pager.mem page)).find? fun i => cmp i ≤ 0 with
  | some i =>
      if cmp i = 0 then
        (PSQL_STATUS_OK, some (header_page_id pager.mem page, UInt8.ofNat i))
      else (PSQL_STATUS_NOT_FOUND, none)
  | none => (PSQL_STATUS_NOT_FOUND, none)

/-- `while (page)`. -/
def search_loop : Nat → Pager → Option Nat → List UInt8 → Junk →
    Option (IndexStatus × Option (UInt16 × UInt8))
  | _, _, none, _, _ => some (PSQL_STATUS_NOT_FOUND, none)
  | 0, _, some _, _, _ => none
  | fuel + 1, pager, some page, key, junk =>
      if IS_LEAF pager.mem page then some (search_leaf pager page key (junk.call 0))
      else
        search_loop fuel pager
          (pager_get_page pager (next_child pager page key (junk.call 0))) key (junk.call 1)

/-- The status, and what is stored through the two result pointers. -/
def btree_search (fuel : Nat) (pager : Pager) (root_page_id : UInt16) (key : List UInt8)
    (junk : Junk) : Option (IndexStatus × Option (UInt16 × UInt8)) :=
  if key.length > MAX_DATA_PER_INDEX_SLOT then some (PSQL_STATUS_INVALID_ARGUMENT, none)
  else
    match pager_get_page pager root_page_id with
    | none => some (PSQL_STATUS_INVALID_PAGE, none)
    | some page => search_loop fuel pager (some page) key junk

/-! ## §2. Splitting a leaf. -/

/-- One round of the loop that moves slots. -/
def move_slot (leaf_page_id new_leaf_id : UInt16) (junk : Junk) (pager : Pager) (i : Nat) :
    Pager :=
  let slot := read_index_slot pager leaf_page_id (UInt8.ofNat i) (junk [i, 0])
  let pager := write_index_slot pager new_leaf_id slot ((junk.call i).call 1)
  free_index_slot pager leaf_page_id (UInt8.ofNat i)

/-- What is done once both pages are there. -/
def split_slots (pager : Pager) (leaf_page_id new_leaf_id : UInt16) (leaf_page new_leaf : Nat)
    (junk : Junk) : Pager :=
  let m := pager.mem
  let m := m.store16 (DBPageHeader.right_sibling_page_id new_leaf)
    (m.load16 (DBPageHeader.right_sibling_page_id leaf_page))
  -- the new leaf comes between the old one and its sibling
  let m := m.store16 (DBPageHeader.right_sibling_page_id leaf_page) new_leaf_id
  let slot_count := total_slots m leaf_page
  let mid := slot_count / 2
  -- slot ids, not places in the directory
  let pager := (List.range' mid (slot_count - mid)).foldl
    (move_slot leaf_page_id new_leaf_id junk) (pager.withMem m)
  pager.withMem (pager.mem.store8 (DBPageHeader.total_slots leaf_page) (UInt8.ofNat mid))

/-- The status, the new page and the pager. -/
def btree_split_leaf (pager : Pager) (leaf_page_id : UInt16) (junk : Junk) :
    IndexStatus × UInt16 × Pager :=
  match pager_get_page pager leaf_page_id with
  | none => (PSQL_STATUS_INVALID_PAGE, 0, pager)
  | some leaf_page =>
      if ¬ IS_LEAF pager.mem leaf_page then (PSQL_STATUS_INVALID_PAGE, 0, pager)
      else
        match get_free_page pager with
        | (new_leaf_id, pager) =>
            if new_leaf_id = 0 then (PSQL_STATUS_OUT_OF_MEMORY, 0, pager)
            else
              match init_index_leaf_page pager new_leaf_id with
              | none => (PSQL_STATUS_IO_ERROR, 0, mark_page_free pager new_leaf_id)
              | some (new_leaf, pager) =>
                  (PSQL_STATUS_OK, new_leaf_id,
                    split_slots pager leaf_page_id new_leaf_id leaf_page new_leaf junk)

/-! ## §3. Insertion. -/

/-- `while (IS_INTERNAL(page))`. -/
def find_leaf : Nat → Pager → Nat → List UInt8 → Junk → Option Nat
  | 0, _, _, _, _ => none
  | fuel + 1, pager, page, key, junk =>
      if IS_INTERNAL pager.mem page then
        match pager_get_page pager (next_child pager page key (junk.call 0)) with
        | none => none
        | some page => find_leaf fuel pager page key (junk.call 1)
      else some page

/-- `{0}` -/
def IndexSlotData.zero : IndexSlotData := ⟨Vector.replicate _ 0, 0, 0, ⟨0, 0⟩⟩

/-- `memcpy(new_slot.key, key, key_size)` into a zeroed slot. -/
def padded_key (key : List UInt8) : Vector UInt8 MAX_DATA_PER_INDEX_SLOT :=
  Vector.ofFn fun j => key.getD j 0

/-- The two slots written to a new root above the pages of a split. -/
def new_root_slots (pager : Pager) (new_root_id left_page_id new_page_id : UInt16)
    (junk : Junk) : Pager :=
  let parent_slot := read_index_slot pager new_page_id 0 .zero
  let pager := write_index_slot pager new_root_id
    { parent_slot with next_page_id := left_page_id } (junk.call 0)
  write_index_slot pager new_root_id { parent_slot with next_page_id := new_page_id }
    (junk.call 1)

/-- The last part of `btree_insert`, behind a split: the status, the root and the pager. -/
def update_parent (pager : Pager) (root_page_id : UInt16) (page : Nat) (new_page_id : UInt16)
    (junk : Junk) : IndexStatus × UInt16 × Pager :=
  if header_page_id pager.mem page = root_page_id then
    match get_free_page pager with
    | (new_root_id, pager) =>
        if new_root_id = 0 then (PSQL_STATUS_OUT_OF_MEMORY, root_page_id, pager)
        else
          let pager := ((init_index_internal_page pager new_root_id).map Prod.snd).getD pager
          (PSQL_STATUS_OK, new_root_id,
            new_root_slots pager new_root_id (header_page_id pager.mem page) new_page_id junk)
  else (PSQL_STATUS_OK, root_page_id, pager)

/-- The part of `btree_insert` behind the walk down, with the leaf found. -/
def insert_leaf (pager : Pager) (root_page_id : UInt16) (page : Nat) (key : List UInt8)
    (data_page_id : UInt16) (data_slot_id : UInt8) (junk : Junk) :
    IndexStatus × UInt16 × Pager :=
  let new_slot : IndexSlotData :=
    { IndexSlotData.zero with
      key := padded_key key, next_page_id := data_page_id, next_slot_id := data_slot_id }
  let pager := write_index_slot pager (header_page_id pager.mem page) new_slot (junk.call 1)
  -- a leaf that is more than 80 percent full is split
  if 10 * USED_SPACE pager.mem page > FULL_THRESHOLD_10 then
    match btree_split_leaf pager (header_page_id pager.mem page) (junk.call 2) with
    | (status, new_page_id, pager) =>
        if status ≠ PSQL_STATUS_OK then (status, root_page_id, pager)
        else update_parent pager root_page_id page new_page_id (junk.call 3)
  else (PSQL_STATUS_OK, root_page_id, pager)

/-- The status, the root and the pager.  `catalog_add_table` has no body in the repository
and is not handed the pager; the status it returns is an argument. -/
def btree_init (catalog_add_table : IndexStatus) (pager : Pager) :
    IndexStatus × Option UInt16 × Pager :=
  match get_free_page pager with
  | (root_page_id, pager) =>
      if root_page_id = 0 then (PSQL_STATUS_OUT_OF_MEMORY, none, pager)
      else
        match init_index_leaf_page pager root_page_id with
        | none => (PSQL_STATUS_IO_ERROR, none, mark_page_free pager root_page_id)
        | some (_, pager) =>
            if catalog_add_table ≠ PSQL_STATUS_OK then
              (catalog_add_table, none, mark_page_free pager root_page_id)
            else (PSQL_STATUS_OK, some root_page_id, pager)

/-- The root of an insertion without one: an empty leaf, 0 when no page is left. -/
def create_root (pager : Pager) (root_page_id : UInt16) : UInt16 × Pager :=
  if root_page_id = 0 then
    match get_free_page pager with
    | (root_page_id, pager) =>
        if root_page_id = 0 then (0, pager)
        else (root_page_id, ((init_index_leaf_page pager root_page_id).map Prod.snd).getD pager)
  else (root_page_id, pager)

/-- The status, the root and the pager. -/
def btree_insert (fuel : Nat) (pager : Pager) (root_page_id : UInt16) (key : List UInt8)
    (data_page_id : UInt16) (data_slot_id : UInt8) (junk : Junk) :
    Option (IndexStatus × UInt16 × Pager) :=
  if key.length > MAX_DATA_PER_INDEX_SLOT then
    some (PSQL_STATUS_INVALID_ARGUMENT, root_page_id, pager)
  else
    match create_root pager root_page_id with
    | (root_page_id, pager) =>
        if root_page_id = 0 then some (PSQL_STATUS_OUT_OF_MEMORY, root_page_id, pager)
        else
          match pager_get_page pager root_page_id with
          | none => some (PSQL_STATUS_INVALID_PAGE, root_page_id, pager)
          | some page =>
              match find_leaf fuel pager page key (junk.call 0) with
              | none => none
              | some page =>
                  some (insert_leaf pager root_page_id page key data_page_id data_slot_id junk)

end PreSeQL.Index
