/-
  PreSeQL.Index.Removal — `btree_delete` and `btree_destroy` (third part of
  `index_page.c`).

  As in `BTree`, a walk takes fuel, and `none` stands for a walk that uses it up and
  for a `NULL` page that is used.  `vaccum_page`, which `btree_destroy` calls, is
  declared nowhere in the repository; it is an argument.
-/
import PreSeQL.Index.BTree

namespace PreSeQL.Index

open PreSeQL.Lib PreSeQL.Db
open IndexStatus

/-! ## §1. The walk. -/

/-- Ten times `MAX_USABLE_PAGE_SIZE * INDEX_MIN_OCCUPANCY`. -/
def MIN_THRESHOLD_10 : Int := 4 * MAX_USABLE_PAGE_SIZE

/-- The index of the slot that `next_child` follows. -/
def child_index (pager : Pager) (page : Nat) (key : List UInt8) (junk : Junk) : Nat :=
  ((List.range (total_slots pager.mem page)).find? fun i =>
    compare_keys key (slot_key pager page i (junk [0, i])) key.length < 0).getD
      (total_slots pager.mem page)

/-- `while (IS_INTERNAL(page))`: the parent, the index in it, and the leaf. -/
def find_leaf_parent : Nat → Pager → Option Nat → Nat → Nat → List UInt8 → Junk →
    Option (Option Nat × Nat × Nat)
  | 0, _, _, _, _, _, _ => none
  | fuel + 1, pager, parent, parent_idx, page, key, junk =>
      if IS_INTERNAL pager.mem page then
        match pager_get_page pager (next_child pager page key (junk.call 0)) with
        | none => none
        | some child =>
            find_leaf_parent fuel pager (some page) (child_index pager page key (junk.call 0)) child
              key (junk.call 1)
      else some (parent, parent_idx, page)

/-! ## §2. Deletion. -/

/-- "Find and delete entry": the first slot id whose key begins with the given one. -/
def delete_entry (pager : Pager) (page : Nat) (key : List UInt8) (junk : Junk) : Pager :=
  match (List.range (total_slots pager.mem page)).find? fun i =>
      compare_keys key (slot_key pager page i (junk [i])) key.length = 0 with
  | some i => free_index_slot pager (header_page_id pager.mem page) (UInt8.ofNat i)
  | none => pager

/-- "Borrow from sibling". -/
def borrow_slot (pager : Pager) (parent page sibling : Nat) (parent_slot : IndexSlotData)
    (junk : Junk) : Pager :=
  let sibling_slot :=
    read_index_slot pager (header_page_id pager.mem sibling) 0 (junk [0])
  let pager :=
    write_index_slot pager (header_page_id pager.mem page) sibling_slot (junk.call 1)
  let pager := free_index_slot pager (header_page_id pager.mem sibling) 0
  let parent_slot :=
    read_index_slot pager (header_page_id pager.mem sibling) 0 parent_slot
  write_index_slot pager (header_page_id pager.mem parent) parent_slot (junk.call 2)

/-- The loop of "Merge with sibling", from `i` on.  The sibling may be the page itself, so
`total_slots` is read again; it is a byte, so 256 rounds are enough. -/
def merge_slots (page sibling : Nat) (junk : Junk) : Nat → Nat → Pager → Pager
  | 0, _, pager => pager
  | rounds + 1, i, pager =>
      if i < total_slots pager.mem sibling then
        let sibling_slot := read_index_slot pager (header_page_id pager.mem sibling) (UInt8.ofNat i)
          (junk [i, 0])
        merge_slots page sibling junk rounds (i + 1)
          (write_index_slot pager (header_page_id pager.mem page) sibling_slot
            ((junk.call i).call 1))
      else pager

/-- "Merge with sibling". -/
def merge_sibling (pager : Pager) (parent parent_idx page sibling : Nat) (junk : Junk) : Pager :=
  let pager := merge_slots page sibling junk 256 0 pager
  let pager := pager.withMem (pager.mem.store16 (DBPageHeader.right_sibling_page_id page)
    (pager.mem.load16 (DBPageHeader.right_sibling_page_id sibling)))
  let pager :=
    free_index_slot pager (header_page_id pager.mem parent) (UInt8.ofNat parent_idx)
  mark_page_free pager (header_page_id pager.mem sibling)

/-- "Rebalance if underflow", below a parent. -/
def rebalance (pager : Pager) (parent parent_idx page : Nat) (junk : Junk) : Option Pager :=
  let parent_slot := read_index_slot pager (header_page_id pager.mem parent)
    (UInt8.ofNat parent_idx) (junk [0])
  match pager_get_page pager parent_slot.next_page_id with
  | none => none
  | some sibling =>
      if 10 * USED_SPACE pager.mem sibling > MIN_THRESHOLD_10 then
        some (borrow_slot pager parent page sibling parent_slot (junk.call 1))
      else some (merge_sibling pager parent parent_idx page sibling (junk.call 2))

/-- The part of `btree_delete` behind the walk down. -/
def delete_leaf (pager : Pager) (parent : Option Nat) (parent_idx page : Nat) (key : List UInt8)
    (junk : Junk) : Option (IndexStatus × Pager) :=
  let pager := delete_entry pager page key (junk.call 0)
  match parent with
  | none => some (PSQL_STATUS_OK, pager)
  | some parent =>
      if 10 * USED_SPACE pager.mem page < MIN_THRESHOLD_10 then
        (rebalance pager parent parent_idx page (junk.call 1)).map (PSQL_STATUS_OK, ·)
      else some (PSQL_STATUS_OK, pager)

def btree_delete (fuel : Nat) (pager : Pager) (root_page_id : UInt16) (key : List UInt8)
    (junk : Junk) : Option (IndexStatus × Pager) :=
  if key.length > MAX_DATA_PER_INDEX_SLOT then some (PSQL_STATUS_INVALID_ARGUMENT, pager)
  else
    match pager_get_page pager root_page_id with
    | none => some (PSQL_STATUS_INVALID_PAGE, pager)
    | some page =>
        match find_leaf_parent fuel pager none 0 page key (junk.call 0) with
        | none => none
        | some (parent, parent_idx, page) =>
            delete_leaf pager parent parent_idx page key (junk.call 1)

/-! ## §3. Destruction. -/

/-- `for (i = 0; i < page->header.total_slots; i++)` with a body that may end the run; the
count is read again in every round, and 256 rounds are enough for a byte. -/
def for_slots (page : Nat) (body : Pager → Nat → Option Pager) : Nat → Nat → Pager → Option Pager
  | 0, _, pager => some pager
  | rounds + 1, i, pager =>
      if i < total_slots pager.mem page then
        (body pager i).bind (for_slots page body rounds (i + 1))
      else some pager

/-- What each round keeps, the loop keeps. -/
theorem for_slots_keeps {page : Nat} {body : Pager → Nat → Option Pager} {J : Nat → Pager → Prop}
    (hbody : ∀ i pager, J i pager → i < total_slots pager.mem page →
      ∃ pager', body pager i = some pager' ∧ J (i + 1) pager') (rounds : Nat) :
    ∀ i pager, J i pager → ∃ i' pager', for_slots page body rounds i pager = some pager'
      ∧ J i' pager' := by
  induction rounds with
  | zero => intro i pager h; exact ⟨i, pager, rfl, h⟩
  | succ rounds ih =>
      intro i pager h
      rw [for_slots]
      split
      next hi =>
        obtain ⟨pager₁, hround, h₁⟩ := hbody i pager h hi
        rw [hround, Option.bind_some]
        exact ih (i + 1) pager₁ h₁
      next => exact ⟨i, pager, rfl, h⟩

/-- The body of the second loop of `btree_destroy`. -/
def release_slot (vaccum_page : Mem → Nat → Mem) (root_page_id : UInt16) (page : Nat) (junk : Junk)
    (pager : Pager) (i : Nat) : Pager :=
  let slot := read_index_slot pager root_page_id (UInt8.ofNat i) (junk [i])
  let pager :=
    if slot.overflow.next_page_id ≠ 0 then mark_page_free pager slot.overflow.next_page_id
    else pager
  if IS_LEAF pager.mem page then
    match pager_get_page pager slot.next_page_id with
    | none => pager
    | some data_page =>
        let ref_counter := pager.mem.load16 (DBPageHeader.ref_counter data_page) - 1
        let pager := pager.withMem
          (pager.mem.store16 (DBPageHeader.ref_counter data_page) ref_counter)
        if ref_counter = 0 then mark_page_free pager slot.next_page_id
        else pager.withMem (vaccum_page pager.mem data_page)
  else pager

def btree_destroy (vaccum_page : Mem → Nat → Mem) : Nat → Pager → UInt16 → Junk →
    Option (IndexStatus × Pager)
  | 0, _, _, _ => none
  | fuel + 1, pager, root_page_id, junk =>
      match pager_get_page pager root_page_id with
      | none => some (PSQL_STATUS_INVALID_PAGE, pager)
      | some page =>
          let children :=
            if IS_INTERNAL pager.mem page then
              for_slots page (fun pager i =>
                let slot := read_index_slot pager root_page_id (UInt8.ofNat i) (junk [0, i])
                (btree_destroy vaccum_page fuel pager slot.next_page_id
                  ((junk.call 1).call i)).map Prod.snd) 256 0 pager
            else some pager
          (children.bind (for_slots page (fun pager i =>
            some (release_slot vaccum_page root_page_id page (junk.call 2) pager i)) 256 0)).map
              fun pager => (PSQL_STATUS_OK, mark_page_free pager root_page_id)

end PreSeQL.Index
