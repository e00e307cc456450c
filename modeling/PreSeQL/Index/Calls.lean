/-
  PreSeQL.Index.Calls — what the tree functions do to index pages, call by call.

  An insertion or a deletion works on pages through `init_index_page`,
  `write_index_slot` and `free_index_slot`, and sets `right_sibling_page_id` and
  `total_slots` itself; it takes pages from the tracker and gives them back.  For every
  function `f` of `index_page.c` that does so, `f_calls` lists these calls in order, each
  with the pager it is made in.

  `Replays` says of such a list that every call is made in the pager the calls before it
  have left; `Allowed`, that every call is made on a page initialised before it and keeps
  to its part of the page.
-/
import PreSeQL.Index.Removal
import PreSeQL.Index.SlotHistory

namespace PreSeQL.Index

open PreSeQL.Lib PreSeQL.Db
open IndexStatus

/-! ## §1. Calls. -/

inductive PageCall where
  | init_index_page (page_no : UInt16) (flag : UInt8)
  | write_index_slot (page_no : UInt16) (slot : IndexSlotData) (junk : Junk)
  | free_index_slot (page_no : UInt16) (slot_id : UInt8)
  /-- `page->header.right_sibling_page_id = …` at an address. -/
  | set_right_sibling (page : Nat) (page_no : UInt16)
  /-- `page->header.total_slots = …` -/
  | set_total_slots (page : Nat) (count : UInt8)
  | get_free_page
  | mark_page_free (page_no : UInt16)

/-- The pager behind the call. -/
def PageCall.run (pager : Pager) : PageCall → Pager
  | .init_index_page page_no flag =>
      ((Index.init_index_page pager page_no flag).map Prod.snd).getD pager
  | .write_index_slot page_no slot junk => Index.write_index_slot pager page_no slot junk
  | .free_index_slot page_no slot_id => Index.free_index_slot pager page_no slot_id
  | .set_right_sibling page page_no =>
      pager.withMem (pager.mem.store16 (DBPageHeader.right_sibling_page_id page) page_no)
  | .set_total_slots page count =>
      pager.withMem (pager.mem.store8 (DBPageHeader.total_slots page) count)
  | .get_free_page => (Db.get_free_page pager).2
  | .mark_page_free page_no => Db.mark_page_free pager page_no

/-- Calls with the pager each is made in. -/
abbrev Calls := List (Pager × PageCall)

/-- Made one after another, the calls lead from the one pager to the other. -/
def Replays : Pager → Calls → Pager → Prop
  | pager, [], pager' => pager' = pager
  | pager, (at_pager, call) :: calls, pager' =>
      at_pager = pager ∧ Replays (call.run pager) calls pager'

theorem Replays.trans {pager' pager'' : Pager} {calls calls' : Calls} : ∀ {pager},
    Replays pager calls pager' → Replays pager' calls' pager'' →
    Replays pager (calls ++ calls') pager'' := by
  induction calls with
  | nil => intro pager h h'; exact h ▸ h'
  | cons call calls ih => intro pager h h'; exact ⟨h.1, ih h.2 h'⟩

/-! ## §2. Insertion. -/

def move_slot_calls (leaf_page_id new_leaf_id : UInt16) (junk : Junk) (pager : Pager) (i : Nat) :
    Calls :=
  let slot := read_index_slot pager leaf_page_id (UInt8.ofNat i) (junk [i, 0])
  [(pager, .write_index_slot new_leaf_id slot ((junk.call i).call 1)),
   (write_index_slot pager new_leaf_id slot ((junk.call i).call 1),
    .free_index_slot leaf_page_id (UInt8.ofNat i))]

/-- The rounds of the loop of `btree_split_leaf`. -/
def move_slots_calls (leaf_page_id new_leaf_id : UInt16) (junk : Junk) : Pager → List Nat → Calls
  | _, [] => []
  | pager, i :: rest =>
      move_slot_calls leaf_page_id new_leaf_id junk pager i
        ++ move_slots_calls leaf_page_id new_leaf_id junk
          (move_slot leaf_page_id new_leaf_id junk pager i) rest

def split_slots_calls (pager : Pager) (leaf_page_id new_leaf_id : UInt16)
    (leaf_page new_leaf : Nat) (junk : Junk) : Calls :=
  let m := pager.mem
  let right_sibling := m.load16 (DBPageHeader.right_sibling_page_id leaf_page)
  let m := m.store16 (DBPageHeader.right_sibling_page_id new_leaf) right_sibling
  let pager₁ := pager.withMem m
  let m := m.store16 (DBPageHeader.right_sibling_page_id leaf_page) new_leaf_id
  let slot_count := total_slots m leaf_page
  let mid := slot_count / 2
  let ids := List.range' mid (slot_count - mid)
  (pager, .set_right_sibling new_leaf right_sibling)
    :: (pager₁, .set_right_sibling leaf_page new_leaf_id)
    :: move_slots_calls leaf_page_id new_leaf_id junk (pager.withMem m) ids
    ++ [(ids.foldl (move_slot leaf_page_id new_leaf_id junk) (pager.withMem m),
      .set_total_slots leaf_page (UInt8.ofNat mid))]

def btree_split_leaf_calls (pager : Pager) (leaf_page_id : UInt16) (junk : Junk) : Calls :=
  match pager_get_page pager leaf_page_id with
  | none => []
  | some leaf_page =>
      if ¬ IS_LEAF pager.mem leaf_page then []
      else
        (pager, .get_free_page) :: match get_free_page pager with
        | (new_leaf_id, pager) =>
            if new_leaf_id = 0 then []
            else
              (pager, .init_index_page new_leaf_id PAGE_INDEX_LEAF)
                :: match init_index_leaf_page pager new_leaf_id with
                  | none => [(pager, .mark_page_free new_leaf_id)]
                  | some (new_leaf, pager) =>
                      split_slots_calls pager leaf_page_id new_leaf_id leaf_page new_leaf junk

def new_root_slots_calls (pager : Pager) (new_root_id left_page_id new_page_id : UInt16)
    (junk : Junk) : Calls :=
  let parent_slot := read_index_slot pager new_page_id 0 .zero
  let left_slot := { parent_slot with next_page_id := left_page_id }
  let new_slot := { parent_slot with next_page_id := new_page_id }
  [(pager, .write_index_slot new_root_id left_slot (junk.call 0)),
   (write_index_slot pager new_root_id left_slot (junk.call 0),
    .write_index_slot new_root_id new_slot (junk.call 1))]

def update_parent_calls (pager : Pager) (root_page_id : UInt16) (page : Nat)
    (new_page_id : UInt16) (junk : Junk) : Calls :=
  if header_page_id pager.mem page = root_page_id then
    (pager, .get_free_page) :: match get_free_page pager with
    | (new_root_id, pager) =>
        if new_root_id = 0 then []
        else
          let pager₁ := ((init_index_internal_page pager new_root_id).map Prod.snd).getD pager
          (pager, .init_index_page new_root_id PAGE_INDEX_INTERNAL)
            :: new_root_slots_calls pager₁ new_root_id (header_page_id pager₁.mem page)
              new_page_id junk
  else []

def insert_leaf_calls (pager : Pager) (root_page_id : UInt16) (page : Nat) (key : List UInt8)
    (data_page_id : UInt16) (data_slot_id : UInt8) (junk : Junk) : Calls :=
  let new_slot : IndexSlotData :=
    { IndexSlotData.zero with
      key := padded_key key, next_page_id := data_page_id, next_slot_id := data_slot_id }
  let page_id := header_page_id pager.mem page
  let pager₁ := write_index_slot pager page_id new_slot (junk.call 1)
  (pager, .write_index_slot page_id new_slot (junk.call 1))
    :: if 10 * USED_SPACE pager₁.mem page > FULL_THRESHOLD_10 then
        btree_split_leaf_calls pager₁ (header_page_id pager₁.mem page) (junk.call 2)
          ++ match btree_split_leaf pager₁ (header_page_id pager₁.mem page) (junk.call 2) with
            | (status, new_page_id, pager₂) =>
                if status ≠ PSQL_STATUS_OK then []
                else update_parent_calls pager₂ root_page_id page new_page_id (junk.call 3)
      else []

def btree_init_calls (catalog_add_table : IndexStatus) (pager : Pager) : Calls :=
  (pager, .get_free_page) :: match get_free_page pager with
  | (root_page_id, pager) =>
      if root_page_id = 0 then []
      else
        (pager, .init_index_page root_page_id PAGE_INDEX_LEAF)
          :: match init_index_leaf_page pager root_page_id with
            | none => [(pager, .mark_page_free root_page_id)]
            | some (_, pager) =>
                if catalog_add_table ≠ PSQL_STATUS_OK then [(pager, .mark_page_free root_page_id)]
                else []

def create_root_calls (pager : Pager) (root_page_id : UInt16) : Calls :=
  if root_page_id = 0 then
    (pager, .get_free_page) :: match get_free_page pager with
    | (root_page_id, pager) =>
        if root_page_id = 0 then []
        else [(pager, .init_index_page root_page_id PAGE_INDEX_LEAF)]
  else []

def btree_insert_calls (fuel : Nat) (pager : Pager) (root_page_id : UInt16) (key : List UInt8)
    (data_page_id : UInt16) (data_slot_id : UInt8) (junk : Junk) : Calls :=
  if key.length > MAX_DATA_PER_INDEX_SLOT then []
  else
    create_root_calls pager root_page_id
      ++ match create_root pager root_page_id with
        | (root_page_id, pager) =>
            if root_page_id = 0 then []
            else
              match pager_get_page pager root_page_id with
              | none => []
              | some page =>
                  match find_leaf fuel pager page key (junk.call 0) with
                  | none => []
                  | some page =>
                      insert_leaf_calls pager root_page_id page key data_page_id data_slot_id junk

/-! ## §3. Deletion. -/

def delete_entry_calls (pager : Pager) (page : Nat) (key : List UInt8) (junk : Junk) : Calls :=
  match (List.range (total_slots pager.mem page)).find? fun i =>
      compare_keys key (slot_key pager page i (junk [i])) key.length = 0 with
  | some i => [(pager, .free_index_slot (header_page_id pager.mem page) (UInt8.ofNat i))]
  | none => []

def borrow_slot_calls (pager : Pager) (parent page sibling : Nat) (parent_slot : IndexSlotData)
    (junk : Junk) : Calls :=
  let sibling_slot := read_index_slot pager (header_page_id pager.mem sibling) 0 (junk [0])
  let page_id := header_page_id pager.mem page
  let pager₁ := write_index_slot pager page_id sibling_slot (junk.call 1)
  let pager₂ := free_index_slot pager₁ (header_page_id pager₁.mem sibling) 0
  let parent_slot := read_index_slot pager₂ (header_page_id pager₂.mem sibling) 0 parent_slot
  [(pager, .write_index_slot page_id sibling_slot (junk.call 1)),
   (pager₁, .free_index_slot (header_page_id pager₁.mem sibling) 0),
   (pager₂, .write_index_slot (header_page_id pager₂.mem parent) parent_slot (junk.call 2))]

def merge_slots_calls (page sibling : Nat) (junk : Junk) : Nat → Nat → Pager → Calls
  | 0, _, _ => []
  | rounds + 1, i, pager =>
      if i < total_slots pager.mem sibling then
        let sibling_slot := read_index_slot pager (header_page_id pager.mem sibling) (UInt8.ofNat i)
          (junk [i, 0])
        let page_id := header_page_id pager.mem page
        (pager, .write_index_slot page_id sibling_slot ((junk.call i).call 1))
          :: merge_slots_calls page sibling junk rounds (i + 1)
            (write_index_slot pager page_id sibling_slot ((junk.call i).call 1))
      else []

def merge_sibling_calls (pager : Pager) (parent parent_idx page sibling : Nat) (junk : Junk) :
    Calls :=
  let pager₁ := merge_slots page sibling junk 256 0 pager
  let right_sibling := pager₁.mem.load16 (DBPageHeader.right_sibling_page_id sibling)
  let pager₂ :=
    pager₁.withMem (pager₁.mem.store16 (DBPageHeader.right_sibling_page_id page) right_sibling)
  let parent_id := header_page_id pager₂.mem parent
  let pager₃ := free_index_slot pager₂ parent_id (UInt8.ofNat parent_idx)
  merge_slots_calls page sibling junk 256 0 pager
    ++ [(pager₁, .set_right_sibling page right_sibling),
      (pager₂, .free_index_slot parent_id (UInt8.ofNat parent_idx)),
      (pager₃, .mark_page_free (header_page_id pager₃.mem sibling))]

def rebalance_calls (pager : Pager) (parent parent_idx page : Nat) (junk : Junk) : Calls :=
  let parent_slot := read_index_slot pager (header_page_id pager.mem parent)
    (UInt8.ofNat parent_idx) (junk [0])
  match pager_get_page pager parent_slot.next_page_id with
  | none => []
  | some sibling =>
      if 10 * USED_SPACE pager.mem sibling > MIN_THRESHOLD_10 then
        borrow_slot_calls pager parent page sibling parent_slot (junk.call 1)
      else merge_sibling_calls pager parent parent_idx page sibling (junk.call 2)

def delete_leaf_calls (pager : Pager) (parent : Option Nat) (parent_idx page : Nat)
    (key : List UInt8) (junk : Junk) : Calls :=
  let pager₁ := delete_entry pager page key (junk.call 0)
  delete_entry_calls pager page key (junk.call 0)
    ++ match parent with
      | none => []
      | some parent =>
          if 10 * USED_SPACE pager₁.mem page < MIN_THRESHOLD_10 then
            rebalance_calls pager₁ parent parent_idx page (junk.call 1)
          else []

def btree_delete_calls (fuel : Nat) (pager : Pager) (root_page_id : UInt16) (key : List UInt8)
    (junk : Junk) : Calls :=
  if key.length > MAX_DATA_PER_INDEX_SLOT then []
  else
    match pager_get_page pager root_page_id with
    | none => []
    | some page =>
        match find_leaf_parent fuel pager none 0 page key (junk.call 0) with
        | none => []
        | some (parent, parent_idx, page) =>
            delete_leaf_calls pager parent parent_idx page key (junk.call 1)

/-! ## §4. Calls on initialised pages. -/

/-- The call is made on an initialised page and keeps to its part of it: a write that is
not refused finds room, and a free that takes a slot out finds fewer than `limit` free
ids. -/
def PageCall.Allowed (limit : Nat) (pages : Set UInt16) (pager : Pager) : PageCall → Prop
  | .init_index_page page_no flag =>
      page_no ≠ 0 ∧ (flag = PAGE_INDEX_LEAF ∨ flag = PAGE_INDEX_INTERNAL)
  | .write_index_slot page_no slot junk =>
      page_no ∈ pages ∧ ∀ page, pager_get_page pager page_no = some page →
        (SlotOp.write_index_slot slot junk).Fits page pager
  | .free_index_slot page_no slot_id =>
      page_no ∈ pages ∧ ∀ page, pager_get_page pager page_no = some page →
        slot_id.toNat < total_slots pager.mem page → find_entry pager.mem page slot_id ≠ none →
          (pager.mem.load8 (DBPageHeader.free_slot_count page)).toNat < limit
  | .set_right_sibling page _ => ∃ page_no ∈ pages, page = page_no.toNat * PAGE_SIZE
  -- `total_slots` is written behind the loop of a split only; the tracker is on page 0
  | .set_total_slots _ _ | .get_free_page | .mark_page_free _ => True

/-- The initialised pages after a call. -/
def PageCall.opens (pages : Set UInt16) : PageCall → Set UInt16
  | .init_index_page page_no _ => insert page_no pages
  | _ => pages

/-- The initialised pages after the calls. -/
def opened (pages : Set UInt16) : Calls → Set UInt16
  | [] => pages
  | (_, call) :: calls => opened (call.opens pages) calls

/-- Every call is allowed with the pages initialised before it. -/
def Allowed (limit : Nat) (pages : Set UInt16) : Calls → Prop
  | [] => True
  | (pager, call) :: calls => call.Allowed limit pages pager ∧ Allowed limit (call.opens pages) calls

section

variable {limit : Nat} {pages : Set UInt16} {calls calls' : Calls}

theorem opened_append : ∀ pages, opened pages (calls ++ calls') = opened (opened pages calls) calls' := by
  induction calls with
  | nil => intro pages; rfl
  | cons call calls ih => intro pages; exact ih _

theorem allowed_append : ∀ pages, Allowed limit pages (calls ++ calls') ↔
    Allowed limit pages calls ∧ Allowed limit (opened pages calls) calls' := by
  induction calls with
  | nil => intro pages; simp [Allowed, opened]
  | cons call calls ih =>
      intro pages
      rw [List.cons_append, Allowed, ih, Allowed, opened, and_assoc]

theorem subset_opened : ∀ pages, pages ⊆ opened pages calls := by
  induction calls with
  | nil => intro pages; exact Set.Subset.refl _
  | cons call calls ih =>
      intro pages
      refine Set.Subset.trans ?_ (ih _)
      obtain ⟨-, call⟩ := call
      cases call with
      | init_index_page page_no flag => exact Set.subset_insert _ _
      | write_index_slot => exact Set.Subset.refl _
      | free_index_slot => exact Set.Subset.refl _
      | set_right_sibling => exact Set.Subset.refl _
      | set_total_slots => exact Set.Subset.refl _
      | get_free_page => exact Set.Subset.refl _
      | mark_page_free => exact Set.Subset.refl _

end

end PreSeQL.Index
