/-
  PreSeQL.Index.HandedOut — the pages handed out are in the file.

  `get_free_page` returns a tracked page, or `highest_page + 1` without a look at the
  length of the file.  Growing the file is left to somebody else, and no operation on
  pages or trees does it.

    • `PageExists` — `pager_get_page` takes the number, and the mapping has the page,
    • `handed_iff` — when the page that one call returns exists,
    • `Hands` — what a function does that calls `get_free_page`, and the rules for it,
    • `handed_out_exist_iff` — runs on a new database.
-/
import PreSeQL.Index.BTree
import PreSeQL.Pager.NewDb
import PreSeQL.Pager.Neighbour

namespace PreSeQL.Index

open PreSeQL.Lib PreSeQL.Lib.Mem PreSeQL.Lib.Run PreSeQL.Radix PreSeQL.Db
open IndexStatus

/-! ## §1. Pages of the file. -/

/-- `pager_get_page` takes the number, and all of the `DBPage` there is mapped. -/
def PageExists (pager : Pager) (page_no : UInt16) : Prop :=
  ∃ page length, pager_get_page pager page_no = some page
    ∧ pager.db_pager.mapped = some length ∧ page + DBPage.sizeof ≤ length

/-- An initialiser leaves everything behind the mapping as it is. -/
def InitialisedInside (pager : Pager) (page_no : UInt16) : Prop :=
  ∀ length, pager.db_pager.mapped = some length → ∀ flag i, length ≤ i →
    (allocate_page pager page_no flag).2.mem i = pager.mem i
    ∧ (((init_index_page pager page_no flag).map Prod.snd).getD pager).mem i = pager.mem i

/-- The page that `get_free_page` returns here, if it returns one, exists and can be
initialised. -/
def Handed (pager : Pager) : Prop :=
  (get_free_page pager).1 ≠ 0 →
    PageExists (get_free_page pager).2 (get_free_page pager).1
    ∧ InitialisedInside (get_free_page pager).2 (get_free_page pager).1

/-- The tracker has no page to hand out.  Page 0 stands for none, and hides the others. -/
def Grows (pager : Pager) : Prop :=
  pager.free_page_map.num_frees = 0 ∨ pages pager.free_page_map.tree = ∅
  ∨ 0 ∈ pages pager.free_page_map.tree

/-- The mapping has a page behind `highest_page`, or `highest_page` is the last number. -/
def RoomBehind (pager : Pager) : Prop :=
  pager.highest_page.toNat = 2 ^ 16 - 1
  ∨ pager.highest_page.toNat + 1 < MAX_PAGES
    ∧ ∃ length, pager.db_pager.mapped = some length
      ∧ (pager.highest_page.toNat + 1) * PAGE_SIZE + DBPage.sizeof ≤ length

/-- The condition of a call of `get_free_page`. -/
def HasRoom (pager : Pager) : Prop := Grows pager → RoomBehind pager

section

variable {pager pager' : Pager} {page_no : UInt16}

theorem pageExists_iff : PageExists pager page_no ↔ page_no.toNat < MAX_PAGES
    ∧ ∃ length, pager.db_pager.mapped = some length
      ∧ page_no.toNat * PAGE_SIZE + DBPage.sizeof ≤ length := by
  constructor
  · rintro ⟨page, length, hpage, hmapped, hle⟩
    obtain ⟨hlt, rfl⟩ := pager_get_page_eq_some hpage
    exact ⟨hlt, length, hmapped, hle⟩
  · rintro ⟨hlt, length, hmapped, hle⟩
    exact ⟨_, length, if_neg (Nat.not_le.mpr hlt), hmapped, hle⟩

/-- It is a question about the mapping only. -/
theorem PageExists.congr (hmapped : pager'.db_pager.mapped = pager.db_pager.mapped)
    (h : PageExists pager page_no) : PageExists pager' page_no := by
  rw [pageExists_iff] at h ⊢
  rw [hmapped]
  exact h

/-- **A page that exists is initialised inside the mapping**: the page header is at its
start, and `highest_page` in page 0. -/
theorem PageExists.initialised_inside (h : PageExists pager page_no) :
    InitialisedInside pager page_no := by
  obtain ⟨page, length, hpage, hmapped, hle⟩ := h
  obtain ⟨-, rfl⟩ := pager_get_page_eq_some hpage
  intro length' hmapped' flag i hi
  obtain rfl := Option.some.inj (hmapped.symm.trans hmapped')
  constructor
  · have hused := mark_page_used_touches (pager.withMem (allocate_page_header pager.mem
      (page_no.toNat * PAGE_SIZE) page_no flag)) page_no i (Or.inr ?_)
    · exact hused.trans (sameOff_allocate_page_header _ _ _ _ i (Or.inr (by omega)))
    · simp only [DBPage.sizeof, DBPageHeader.sizeof, MAX_USABLE_PAGE_SIZE_eq] at hle
      simp only [DatabaseHeader.highest_page, database_header, DBPage.data, DBPageHeader.sizeof]
      omega
  · rw [init_index_page, hpage]
    refine sameOff_init_index_header _ _ _ _ i (Or.inr ?_)
    simp only [DBPage.sizeof, DBPageHeader.sizeof] at hle ⊢
    omega

/-! ## §2. One call of `get_free_page`. -/

theorem get_free_page_mapped (pager : Pager) :
    (get_free_page pager).2.db_pager.mapped = pager.db_pager.mapped := by
  simp only [get_free_page, pager_get_page_zero]
  split
  · split <;> rfl
  · rfl

/-- The tracked pages exist. -/
structure FreeExist (pager : Pager) : Prop where
  wellFormed : WellFormed pager.free_page_map.tree
  exist : ∀ p ∈ pages pager.free_page_map.tree, p ≠ 0 → PageExists pager p

theorem FreeExist.congr (hmap : pager'.free_page_map = pager.free_page_map)
    (hmapped : pager'.db_pager.mapped = pager.db_pager.mapped) (h : FreeExist pager) :
    FreeExist pager' := by
  refine ⟨hmap ▸ h.wellFormed, fun p hp h0 => ?_⟩
  rw [hmap] at hp
  exact (h.exist p hp h0).congr hmapped

/-- Taking pages out of the tree. -/
theorem FreeExist.delete (h : FreeExist pager)
    (htree : pager'.free_page_map.tree = radix_tree_delete pager.free_page_map.tree page_no)
    (hmapped : pager'.db_pager.mapped = pager.db_pager.mapped) : FreeExist pager' := by
  refine ⟨htree ▸ wellFormed_delete h.wellFormed page_no, fun p hp h0 => ?_⟩
  have hmem : p ∈ pages pager.free_page_map.tree := by
    by_cases hzero : page_no = 0
    · -- page 0 is never deleted
      rwa [htree, radix_tree_delete, if_pos hzero] at hp
    · rw [htree, pages_delete _ hzero] at hp
      exact Finset.mem_of_mem_erase hp
  exact (h.exist p hmem h0).congr hmapped

theorem FreeExist.mark_page_free (h : FreeExist pager)
    (hexists : page_no ≠ 0 → PageExists pager page_no) :
    FreeExist (mark_page_free pager page_no) := by
  have hmapped : (Db.mark_page_free pager page_no).db_pager.mapped = pager.db_pager.mapped := by
    simp only [Db.mark_page_free, pager_get_page_zero]
    split <;> rfl
  have hmap := mark_page_free_map pager page_no
  refine ⟨hmap ▸ wellFormed_insert h.wellFormed page_no, fun p hp h0 => ?_⟩
  rw [hmap, pages_insert] at hp
  rcases Finset.mem_insert.mp hp with rfl | hp
  · exact (hexists h0).congr hmapped
  · exact (h.exist p hp h0).congr hmapped

theorem FreeExist.allocate_page (h : FreeExist pager) (page_no : UInt16) (flag : UInt8) :
    FreeExist (allocate_page pager page_no flag).2 := by
  refine h.delete (congrArg PageTracker.tree (allocate_page_map pager page_no flag)) ?_
  simp only [Db.allocate_page, mark_page_used, pager_get_page_zero]
  split <;> rfl

theorem FreeExist.get_free_page (h : FreeExist pager) : FreeExist (get_free_page pager).2 := by
  rcases get_free_page_cases pager with hgrow | ⟨p, -, -, -, htree⟩
  · rw [hgrow]
    exact h
  · exact h.delete htree (get_free_page_mapped pager)

theorem get_free_page_of_grows (hwf : WellFormed pager.free_page_map.tree) (h : Grows pager) :
    get_free_page pager = (pager.highest_page + 1, pager) := by
  rcases h with hnum | hempty | hzero
  · exact get_free_page_grow (Or.inl hnum)
  · exact get_free_page_grow (Or.inr hempty)
  · -- page 0 is the smallest, so `pop_min` returns 0 and deletes nothing
    have hmin : (pages pager.free_page_map.tree).min' ⟨0, hzero⟩ = 0 :=
      le_antisymm (Finset.min'_le _ _ hzero) (UInt16.zero_le)
    rw [Db.get_free_page]
    split
    · simp only [radix_tree_pop_min_of_nonempty hwf ⟨0, hzero⟩, hmin, radix_tree_delete,
        if_true]
      rw [if_neg (by decide), next_new_page_eq]
      rfl
    · rw [next_new_page_eq]

/-- A new page is `highest_page + 1` in 16 bits. -/
theorem roomBehind_iff (pager : Pager) : RoomBehind pager ↔
    (pager.highest_page + 1 ≠ 0 → PageExists pager (pager.highest_page + 1)) := by
  have hlt : pager.highest_page.toNat < 65536 := pager.highest_page.toNat_lt
  have hadd : (pager.highest_page + 1).toNat = (pager.highest_page.toNat + 1) % 65536 :=
    UInt16.toNat_add pager.highest_page 1
  rw [pageExists_iff, Ne, ← UInt16.toNat_inj, hadd, UInt16.toNat_zero]
  unfold RoomBehind
  by_cases hlast : pager.highest_page.toNat = 2 ^ 16 - 1
  · exact iff_of_true (Or.inl hlast) fun hne => absurd (by omega) hne
  · rw [or_iff_right hlast, Nat.mod_eq_of_lt (by omega)]
    exact (imp_iff_right (Nat.succ_ne_zero _)).symm

/-- **One call**: the page exists exactly when the tracker has one, or the mapping has
room behind `highest_page`. -/
theorem handed_iff (h : FreeExist pager) : Handed pager ↔ HasRoom pager := by
  have hexists : Handed pager ↔ ((get_free_page pager).1 ≠ 0 →
      PageExists (get_free_page pager).2 (get_free_page pager).1) :=
    imp_congr_right fun _ => and_iff_left_of_imp PageExists.initialised_inside
  rw [hexists]
  by_cases hgrows : Grows pager
  · rw [get_free_page_of_grows h.wellFormed hgrows, ← roomBehind_iff]
    exact (imp_iff_right hgrows).symm
  · refine iff_of_true (fun _ => ?_) fun hg => absurd hg hgrows
    obtain ⟨hnum, hrest⟩ := not_or.mp hgrows
    obtain ⟨hempty, hzero⟩ := not_or.mp hrest
    have hne := Finset.nonempty_iff_ne_empty.mpr hempty
    have htree : TreeOk pager.free_page_map.tree := ⟨h.wellFormed, hzero⟩
    rw [(get_free_page_take htree (UInt8.pos_iff_ne_zero.mpr hnum) hne).1]
    exact (h.exist _ (Finset.min'_mem _ hne) (htree.min'_ne_zero hne)).congr
      (get_free_page_mapped pager)

/-! ## §3. Functions that call it. -/

/-- The pagers that a function calls `get_free_page` with, in order. -/
abbrev Takes := List Pager

/-- If the tracked pages exist before the function: the pages handed out exist exactly when
every call has room, and then the tracked pages exist behind it. -/
def Hands (pager : Pager) (takes : Takes) (pager' : Pager) : Prop :=
  FreeExist pager →
    ((∀ t ∈ takes, Handed t) ↔ ∀ t ∈ takes, HasRoom t)
    ∧ ((∀ t ∈ takes, Handed t) → FreeExist pager')

/-- The tracker and the mapping are as they were. -/
structure SameTracker (pager pager' : Pager) : Prop where
  map : pager'.free_page_map = pager.free_page_map
  mapped : pager'.db_pager.mapped = pager.db_pager.mapped

variable {pager₁ pager₂ : Pager} {takes takes' : Takes}

theorem SameTracker.refl : SameTracker pager pager := ⟨rfl, rfl⟩

theorem SameTracker.trans (h : SameTracker pager pager₁) (h' : SameTracker pager₁ pager₂) :
    SameTracker pager pager₂ := ⟨h'.map.trans h.map, h'.mapped.trans h.mapped⟩

/-- Writes to the file do not reach the tracker. -/
theorem SameTracker.withMem (h : SameTracker pager pager₁) (m : Mem) :
    SameTracker pager (pager₁.withMem m) := ⟨h.map, h.mapped⟩

theorem SameTracker.freeExist (h : SameTracker pager pager') (hfree : FreeExist pager) :
    FreeExist pager' := hfree.congr h.map h.mapped

/-- A function that does not call `get_free_page`. -/
theorem SameTracker.hands (h : SameTracker pager pager') : Hands pager [] pager' :=
  fun hfree => ⟨by simp, fun _ => h.freeExist hfree⟩

theorem Hands.trans (h : Hands pager takes pager₁) (h' : Hands pager₁ takes' pager₂) :
    Hands pager (takes ++ takes') pager₂ := by
  intro hfree
  obtain ⟨hiff, hkept⟩ := h hfree
  rw [List.forall_mem_append, List.forall_mem_append, ← hiff]
  exact ⟨and_congr_right fun hhanded => (h' (hkept hhanded)).1,
    fun hhanded => (h' (hkept hhanded.1)).2 hhanded.2⟩

theorem SameTracker.before (h : SameTracker pager pager₁) (h' : Hands pager₁ takes pager₂) :
    Hands pager takes pager₂ := h.hands.trans h'

/-- One call, with the page it returns and the rest of the function. -/
theorem hands_take {r : UInt16 × Pager} (hnext : get_free_page pager = r)
    (hrest : FreeExist r.2 → (r.1 ≠ 0 → PageExists r.2 r.1) → FreeExist pager') :
    Hands pager [pager] pager' := by
  subst hnext
  intro hfree
  simp only [List.mem_singleton, forall_eq]
  exact ⟨handed_iff hfree, fun hhanded => hrest hfree.get_free_page fun h0 => (hhanded h0).1⟩

/-! ### Slots. -/

theorem sameTracker_init_index_page (pager : Pager) (page_no : UInt16) (flag : UInt8) :
    SameTracker pager (((init_index_page pager page_no flag).map Prod.snd).getD pager) := by
  unfold init_index_page
  split
  · exact .refl
  · exact SameTracker.refl.withMem _

theorem sameTracker_find_empty_index_slot (pager : Pager) (page_id : UInt16) (key_size : Nat) :
    SameTracker pager (find_empty_index_slot pager page_id key_size).2 := by
  unfold find_empty_index_slot
  split
  · exact .refl
  simp only
  split
  · exact .refl
  split
  · exact SameTracker.refl.withMem _
  split
  · exact SameTracker.refl.withMem _
  · exact .refl

theorem sameTracker_write_index_slot (pager : Pager) (page_id : UInt16) (slot : IndexSlotData)
    (junk : Junk) : SameTracker pager (write_index_slot pager page_id slot junk) := by
  have hfind := sameTracker_find_empty_index_slot pager page_id MAX_DATA_PER_INDEX_SLOT
  unfold write_index_slot
  split
  · exact .refl
  split
  · exact .refl
  simp only
  split
  · exact hfind
  · exact hfind.withMem _

theorem sameTracker_free_index_slot (pager : Pager) (page_id : UInt16) (slot_id : UInt8) :
    SameTracker pager (free_index_slot pager page_id slot_id) := by
  unfold free_index_slot
  split
  · exact .refl
  simp only
  split
  · exact .refl
  split
  · exact .refl
  · exact SameTracker.refl.withMem _

theorem sameTracker_move_slot (leaf_page_id new_leaf_id : UInt16) (junk : Junk) (pager : Pager)
    (i : Nat) : SameTracker pager (move_slot leaf_page_id new_leaf_id junk pager i) :=
  (sameTracker_write_index_slot _ _ _ _).trans (sameTracker_free_index_slot _ _ _)

/-- The slots are moved one after another. -/
theorem sameTracker_move_slots (leaf_page_id new_leaf_id : UInt16) (junk : Junk) (pager : Pager)
    (ids : List Nat) :
    SameTracker pager (ids.foldl (move_slot leaf_page_id new_leaf_id junk) pager) :=
  List.foldlRecOn ids _ .refl fun _ hbefore _ _ => hbefore.trans (sameTracker_move_slot _ _ _ _ _)

theorem sameTracker_split_slots (pager : Pager) (leaf_page_id new_leaf_id : UInt16)
    (leaf_page new_leaf : Nat) (junk : Junk) :
    SameTracker pager (split_slots pager leaf_page_id new_leaf_id leaf_page new_leaf junk) :=
  ((SameTracker.refl.withMem _).trans (sameTracker_move_slots _ _ _ _ _)).withMem _

theorem sameTracker_new_root_slots (pager : Pager) (new_root_id left_page_id new_page_id : UInt16)
    (junk : Junk) :
    SameTracker pager (new_root_slots pager new_root_id left_page_id new_page_id junk) :=
  (sameTracker_write_index_slot _ _ _ _).trans (sameTracker_write_index_slot _ _ _ _)

/-! ### Insertion. -/

def btree_split_leaf_takes (pager : Pager) (leaf_page_id : UInt16) : Takes :=
  match pager_get_page pager leaf_page_id with
  | none => []
  | some leaf_page => if ¬ IS_LEAF pager.mem leaf_page then [] else [pager]

theorem hands_split_leaf (leaf_page_id : UInt16) (junk : Junk) :
    Hands pager (btree_split_leaf_takes pager leaf_page_id)
      (btree_split_leaf pager leaf_page_id junk).2.2 := by
  unfold btree_split_leaf_takes btree_split_leaf
  cases hpage : pager_get_page pager leaf_page_id with
  | none => exact SameTracker.refl.hands
  | some leaf_page =>
      by_cases hleaf : IS_LEAF pager.mem leaf_page = true
      · rcases hnext : get_free_page pager with ⟨new_leaf_id, pager₁⟩
        simp only [hleaf, not_true_eq_false, if_false]
        refine hands_take hnext fun hfree hexists => ?_
        by_cases h0 : new_leaf_id = 0
        · simp only [if_pos h0]
          exact hfree
        · simp only [if_neg h0]
          have hinit := sameTracker_init_index_page pager₁ new_leaf_id PAGE_INDEX_LEAF
          cases hnew : init_index_leaf_page pager₁ new_leaf_id with
          | none => exact hfree.mark_page_free hexists
          | some r =>
              obtain ⟨new_leaf, pager₂⟩ := r
              rw [show init_index_page pager₁ new_leaf_id PAGE_INDEX_LEAF = some (new_leaf, pager₂)
                from hnew] at hinit
              exact (hinit.trans (sameTracker_split_slots _ _ _ _ _ _)).freeExist hfree
      · simp only [if_pos hleaf]
        exact SameTracker.refl.hands

def update_parent_takes (pager : Pager) (root_page_id : UInt16) (page : Nat) : Takes :=
  if header_page_id pager.mem page = root_page_id then [pager] else []

theorem hands_update_parent (root_page_id : UInt16) (page : Nat) (new_page_id : UInt16)
    (junk : Junk) :
    Hands pager (update_parent_takes pager root_page_id page)
      (update_parent pager root_page_id page new_page_id junk).2.2 := by
  unfold update_parent_takes update_parent
  by_cases hroot : header_page_id pager.mem page = root_page_id
  · rcases hnext : get_free_page pager with ⟨new_root_id, pager₁⟩
    simp only [if_pos hroot]
    refine hands_take hnext fun hfree _ => ?_
    by_cases h0 : new_root_id = 0
    · simp only [if_pos h0]
      exact hfree
    · simp only [if_neg h0]
      have hinit := sameTracker_init_index_page pager₁ new_root_id PAGE_INDEX_INTERNAL
      exact (hinit.trans (sameTracker_new_root_slots _ _ _ _ _)).freeExist hfree
  · simp only [if_neg hroot]
    exact SameTracker.refl.hands

def insert_leaf_takes (pager : Pager) (root_page_id : UInt16) (page : Nat) (key : List UInt8)
    (data_page_id : UInt16) (data_slot_id : UInt8) (junk : Junk) : Takes :=
  let new_slot : IndexSlotData :=
    { IndexSlotData.zero with
      key := padded_key key, next_page_id := data_page_id, next_slot_id := data_slot_id }
  let pager := write_index_slot pager (header_page_id pager.mem page) new_slot (junk.call 1)
  if 10 * USED_SPACE pager.mem page > FULL_THRESHOLD_10 then
    btree_split_leaf_takes pager (header_page_id pager.mem page)
      ++ match btree_split_leaf pager (header_page_id pager.mem page) (junk.call 2) with
        | (status, _, pager) =>
            if status ≠ PSQL_STATUS_OK then [] else update_parent_takes pager root_page_id page
  else []

theorem hands_insert_leaf (root_page_id : UInt16) (page : Nat) (key : List UInt8)
    (data_page_id : UInt16) (data_slot_id : UInt8) (junk : Junk) :
    Hands pager (insert_leaf_takes pager root_page_id page key data_page_id data_slot_id junk)
      (insert_leaf pager root_page_id page key data_page_id data_slot_id junk).2.2 := by
  unfold insert_leaf_takes insert_leaf
  simp only
  generalize hwritten : write_index_slot pager _ _ _ = pager₁
  have hwrite : SameTracker pager pager₁ := hwritten ▸ sameTracker_write_index_slot _ _ _ _
  refine hwrite.before ?_
  split
  · -- the leaf is split
    have hsplit := @hands_split_leaf pager₁ (header_page_id pager₁.mem page) (junk.call 2)
    rcases hresult : btree_split_leaf pager₁ (header_page_id pager₁.mem page) (junk.call 2)
      with ⟨status, new_page_id, pager₂⟩
    rw [hresult] at hsplit
    refine hsplit.trans ?_
    by_cases hok : status ≠ PSQL_STATUS_OK
    · simp only [if_pos hok]
      exact SameTracker.refl.hands
    · simp only [if_neg hok]
      exact hands_update_parent _ _ _ _
  · exact SameTracker.refl.hands

def create_root_takes (pager : Pager) (root_page_id : UInt16) : Takes :=
  if root_page_id = 0 then [pager] else []

theorem hands_create_root (root_page_id : UInt16) :
    Hands pager (create_root_takes pager root_page_id) (create_root pager root_page_id).2 := by
  unfold create_root_takes create_root
  by_cases hroot : root_page_id = 0
  · rcases hnext : get_free_page pager with ⟨root_page_id, pager₁⟩
    simp only [if_pos hroot]
    refine hands_take hnext fun hfree _ => ?_
    by_cases h0 : root_page_id = 0
    · simp only [if_pos h0]
      exact hfree
    · simp only [if_neg h0]
      exact (sameTracker_init_index_page _ _ _).freeExist hfree
  · simp only [if_neg hroot]
    exact SameTracker.refl.hands

def btree_insert_takes (fuel : Nat) (pager : Pager) (root_page_id : UInt16) (key : List UInt8)
    (data_page_id : UInt16) (data_slot_id : UInt8) (junk : Junk) : Takes :=
  if key.length > MAX_DATA_PER_INDEX_SLOT then []
  else
    create_root_takes pager root_page_id
      ++ match create_root pager root_page_id with
        | (root_page_id, pager) =>
            if root_page_id = 0 then []
            else
              match pager_get_page pager root_page_id with
              | none => []
              | some page =>
                  match find_leaf fuel pager page key (junk.call 0) with
                  | none => []
                  | some page =>
                      insert_leaf_takes pager root_page_id page key data_page_id data_slot_id junk

/-- An insertion, up to the point where a walk does not return. -/
theorem hands_btree_insert (fuel : Nat) (root_page_id : UInt16) (key : List UInt8)
    (data_page_id : UInt16) (data_slot_id : UInt8) (junk : Junk) :
    ∃ pager', Hands pager
        (btree_insert_takes fuel pager root_page_id key data_page_id data_slot_id junk) pager'
      ∧ ∀ r ∈ btree_insert fuel pager root_page_id key data_page_id data_slot_id junk,
        r.2.2 = pager' := by
  unfold btree_insert btree_insert_takes
  by_cases hlong : key.length > MAX_DATA_PER_INDEX_SLOT
  · simp only [if_pos hlong, Option.mem_some_iff, forall_eq']
    exact ⟨pager, SameTracker.refl.hands, rfl⟩
  · simp only [if_neg hlong]
    have hcreate := @hands_create_root pager root_page_id
    rcases hroot : create_root pager root_page_id with ⟨root, pager₁⟩
    rw [hroot] at hcreate
    simp only
    have hstop : Hands pager (create_root_takes pager root_page_id ++ []) pager₁ :=
      hcreate.trans SameTracker.refl.hands
    by_cases h0 : root = 0
    · simp only [if_pos h0, Option.mem_some_iff, forall_eq']
      exact ⟨pager₁, hstop, rfl⟩
    · simp only [if_neg h0]
      cases hpage : pager_get_page pager₁ root with
      | none =>
          simp only [Option.mem_some_iff, forall_eq']
          exact ⟨pager₁, hstop, rfl⟩
      | some page =>
          simp only
          cases hleaf : find_leaf fuel pager₁ page key (junk.call 0) with
          | none =>
              refine ⟨pager₁, hstop, fun r hr => ?_⟩
              cases hr
          | some leaf =>
              simp only [Option.mem_some_iff, forall_eq']
              exact ⟨_, hcreate.trans (hands_insert_leaf _ _ _ _ _ _), rfl⟩

theorem hands_btree_init (catalog_add_table : IndexStatus) :
    Hands pager [pager] (btree_init catalog_add_table pager).2.2 := by
  unfold btree_init
  rcases hnext : get_free_page pager with ⟨root_page_id, pager₁⟩
  refine hands_take hnext fun hfree hexists => ?_
  by_cases h0 : root_page_id = 0
  · simp only [if_pos h0]
    exact hfree
  · simp only [if_neg h0]
    have hinit := sameTracker_init_index_page pager₁ root_page_id PAGE_INDEX_LEAF
    cases hnew : init_index_leaf_page pager₁ root_page_id with
    | none => exact hfree.mark_page_free hexists
    | some r =>
        rw [show init_index_page pager₁ root_page_id PAGE_INDEX_LEAF = some r from hnew] at hinit
        by_cases hcatalog : catalog_add_table ≠ PSQL_STATUS_OK
        · simp only [if_pos hcatalog]
          exact (hinit.freeExist hfree).mark_page_free fun hne => (hexists hne).congr hinit.mapped
        · simp only [if_neg hcatalog]
          exact hinit.freeExist hfree

end

/-! ## §4. Runs. -/

/-- The operations on pages and trees. -/
inductive PageOp where
  | get_free_page
  | mark_page_free (page_no : UInt16)
  /-- The initialisers of `pager.c`, by the flag they set. -/
  | allocate_page (page_no : UInt16) (flag : UInt8)
  /-- Those of `index_page.c`. -/
  | init_index_page (page_no : UInt16) (flag : UInt8)
  | btree_init (catalog_add_table : IndexStatus)
  | btree_insert (fuel : Nat) (root_page_id : UInt16) (key : List UInt8) (data_page_id : UInt16)
      (data_slot_id : UInt8) (junk : Junk)

namespace PageOp

/-- The pager behind the operation; an insertion that does not return is no step. -/
def exec (pager : Pager) : PageOp → Pager
  | .get_free_page => (Db.get_free_page pager).2
  | .mark_page_free page_no => Db.mark_page_free pager page_no
  | .allocate_page page_no flag => (Db.allocate_page pager page_no flag).2
  | .init_index_page page_no flag =>
      ((Index.init_index_page pager page_no flag).map Prod.snd).getD pager
  | .btree_init catalog_add_table => (Index.btree_init catalog_add_table pager).2.2
  | .btree_insert fuel root_page_id key data_page_id data_slot_id junk =>
      ((Index.btree_insert fuel pager root_page_id key data_page_id data_slot_id junk).map
        (·.2.2)).getD pager

def takes (pager : Pager) : PageOp → Takes
  | .get_free_page | .btree_init _ => [pager]
  | .btree_insert fuel root_page_id key data_page_id data_slot_id junk =>
      btree_insert_takes fuel pager root_page_id key data_page_id data_slot_id junk
  | _ => []

/-- Only pages of the file are freed. -/
def FreesExisting (pager : Pager) : PageOp → Prop
  | .mark_page_free page_no => page_no ≠ 0 → PageExists pager page_no
  | _ => True

/-- **One operation.** -/
theorem hands {pager : Pager} (op : PageOp) (hfrees : op.FreesExisting pager) :
    ∃ pager', Hands pager (op.takes pager) pager'
      ∧ (op.exec pager = pager' ∨ op.exec pager = pager) := by
  cases op with
  | get_free_page => exact ⟨_, hands_take rfl fun hfree _ => hfree, Or.inl rfl⟩
  | mark_page_free page_no =>
      exact ⟨_, fun hfree => ⟨by simp [takes], fun _ => hfree.mark_page_free hfrees⟩,
        Or.inl rfl⟩
  | allocate_page page_no flag =>
      exact ⟨_, fun hfree => ⟨by simp [takes], fun _ => hfree.allocate_page page_no flag⟩,
        Or.inl rfl⟩
  | init_index_page page_no flag =>
      exact ⟨_, (sameTracker_init_index_page pager page_no flag).hands, Or.inl rfl⟩
  | btree_init catalog_add_table => exact ⟨_, hands_btree_init catalog_add_table, Or.inl rfl⟩
  | btree_insert fuel root_page_id key data_page_id data_slot_id junk =>
      obtain ⟨pager', hhands, hresult⟩ := @hands_btree_insert pager fuel root_page_id key
        data_page_id data_slot_id junk
      refine ⟨pager', hhands, ?_⟩
      cases hinsert : Index.btree_insert fuel pager root_page_id key data_page_id data_slot_id
          junk with
      | none => exact Or.inr (by rw [exec, hinsert]; rfl)
      | some r =>
          left
          rw [exec, hinsert, ← hresult r hinsert]
          rfl

/-- The pages that the operation is handed exist. -/
def HandsExisting (pager : Pager) (op : PageOp) : Prop := ∀ t ∈ op.takes pager, Handed t

/-- Every call has room. -/
def HasRoom (pager : Pager) (op : PageOp) : Prop := ∀ t ∈ op.takes pager, Index.HasRoom t

theorem handsExisting_iff {pager : Pager} (h : FreeExist pager) {op : PageOp}
    (hfrees : op.FreesExisting pager) : op.HandsExisting pager ↔ op.HasRoom pager := by
  obtain ⟨_, hhands, -⟩ := op.hands hfrees
  exact (hhands h).1

/-- The tracked pages exist after an operation that was handed existing pages. -/
theorem freeExist_exec {pager : Pager} (h : FreeExist pager) {op : PageOp}
    (hfrees : op.FreesExisting pager) (hhanded : op.HandsExisting pager) :
    FreeExist (op.exec pager) := by
  obtain ⟨pager', hhands, hexec | hexec⟩ := op.hands hfrees
  · rw [hexec]
    exact (hhands h).2 hhanded
  · rw [hexec]
    exact h

end PageOp

/-- **The pages handed out exist**, in a run on a new database whose tracked pages exist
and that frees pages of the file only, exactly when every call of `get_free_page` that
finds no tracked page has room behind `highest_page`. -/
theorem handed_out_exist_iff (pager : Pager) (h : NewDb pager)
    (htracked : ∀ p ∈ pages pager.free_page_map.tree, p ≠ 0 → PageExists pager p)
    (ops : List PageOp)
    (hfrees : EachStep PageOp.exec (fun s op => op.FreesExisting s) pager ops) :
    EachStep PageOp.exec (fun s op => op.HandsExisting s) pager ops
      ↔ EachStep PageOp.exec (fun s op => op.HasRoom s) pager ops :=
  eachStep_iff_within (I := FreeExist)
    (fun _ _ hfree hlegal hroom =>
      PageOp.freeExist_exec hfree hlegal ((PageOp.handsExisting_iff hfree hlegal).mpr hroom))
    (fun _ _ hfree hlegal => PageOp.handsExisting_iff hfree hlegal) ops pager
    ⟨h.created.tracked.tree.wellFormed, htracked⟩ hfrees

/-- A tracked page leaves no need for room. -/
theorem hasRoom_of_tracked {pager : Pager} {p : UInt16} (hnum : pager.free_page_map.num_frees ≠ 0)
    (hmem : p ∈ pages pager.free_page_map.tree) (hzero : 0 ∉ pages pager.free_page_map.tree) :
    HasRoom pager := by
  rintro (h | h | h)
  · exact absurd h hnum
  · exact absurd (h ▸ hmem) (Finset.notMem_empty p)
  · exact absurd h hzero

/-- The database created in an empty file has five pages and tracks none. -/
theorem new_db_tracks_none :
    pages (pager_init_new_db .ok fresh_pager).2.free_page_map.tree = ∅ := by
  have hmap : (pager_init_new_db .ok fresh_pager).2.free_page_map.tree = radix_tree_create := by rfl
  rw [hmap, pages_create]

/-- Two catalog pages are freed, and handed out again. -/
theorem handed_out_exist_iff_fresh :
    EachStep PageOp.exec (fun s op => op.HandsExisting s) (pager_init_new_db .ok fresh_pager).2
      [.mark_page_free 3, .mark_page_free 2, .btree_init PSQL_STATUS_OK, .get_free_page] := by
  refine (handed_out_exist_iff _ newDb_fresh (fun p hp => ?_)
    [.mark_page_free 3, .mark_page_free 2, .btree_init PSQL_STATUS_OK, .get_free_page]
    ⟨fun _ => ?_, fun _ => ?_, trivial, trivial, trivial⟩).mpr
    ⟨by simp [PageOp.HasRoom, PageOp.takes], by simp [PageOp.HasRoom, PageOp.takes],
      fun t ht => ?_, fun t ht => ?_, trivial⟩
  · rw [new_db_tracks_none] at hp
    exact absurd hp (Finset.notMem_empty p)
  · exact pageExists_iff.mpr ⟨by decide, 5 * PAGE_SIZE, by decide +kernel, by decide⟩
  · exact pageExists_iff.mpr ⟨by decide, 5 * PAGE_SIZE, by decide +kernel, by decide⟩
  · obtain rfl := List.mem_singleton.mp ht
    refine hasRoom_of_tracked (p := 2) (by decide +kernel) ?_ ?_
    · rw [mem_pages]
      decide +kernel
    · rw [mem_pages]
      decide +kernel
  · obtain rfl := List.mem_singleton.mp ht
    refine hasRoom_of_tracked (p := 3) (by decide +kernel) ?_ ?_
    · rw [mem_pages]
      decide +kernel
    · rw [mem_pages]
      decide +kernel

/-- Five pages are mapped.  The first page handed out is page 4, and once it is a data
page, the next one is page 5, which starts at the end of the mapping. -/
theorem page_five_outside :
    let pager := (pager_init_new_db .ok fresh_pager).2
    let pager' := (init_data_page pager 4).2
    NewDb pager ∧ (get_free_page pager).1 = 4 ∧ (get_free_page pager').1 = 5
    ∧ pager_get_page pager' 5 = some (5 * PAGE_SIZE)
    ∧ pager'.db_pager.mapped = some (5 * PAGE_SIZE)
    ∧ ¬ EachStep PageOp.exec (fun s op => op.HandsExisting s) pager
        [.get_free_page, .allocate_page 4 PAGE_DATA, .get_free_page] := by
  intro pager pager'
  have hgrow : get_free_page pager = (pager.highest_page + 1, pager) :=
    get_free_page_grow (Or.inl (by decide +kernel))
  have hfirst : (get_free_page pager).1 = 4 := by decide +kernel
  have hnext : (get_free_page pager').1 = 5 := by decide +kernel
  have hmapped : pager'.db_pager.mapped = some (5 * PAGE_SIZE) := by rfl
  refine ⟨newDb_fresh, hfirst, hnext, rfl, hmapped, fun ⟨_, _, hlast, _⟩ => ?_⟩
  have hsame : PageOp.exec (PageOp.exec pager .get_free_page) (.allocate_page 4 PAGE_DATA)
      = pager' := by
    simp only [PageOp.exec, hgrow]
    rfl
  rw [hsame] at hlast
  obtain ⟨hexists, -⟩ := hlast pager' List.mem_cons_self (by rw [hnext]; decide)
  obtain ⟨-, length, hlength, hle⟩ := pageExists_iff.mp hexists
  rw [get_free_page_mapped, hmapped, Option.some.injEq] at hlength
  rw [← hlength, hnext] at hle
  exact absurd hle (by decide)

end PreSeQL.Index
