/-
  PreSeQL.Pager.ReadOnly — which calls leave the file alone.

  `PAGER_READONLY` is looked at in `pager_init_new_db` and in `pager_write_page`; the
  other operations have edited the mapped page by the time they call the latter, if
  they do.  So a call changes no byte only when there is nothing for it to write:

    • one lemma an operation, `…_mem_iff`: when the bytes are as before,
    • `PagerOp.unchanged_iff` — the condition of one call,
    • `read_only_unchanged` — every run.
-/
import PreSeQL.Index.Growth
import PreSeQL.Pager.Close

namespace PreSeQL.Db

open PreSeQL.Lib PreSeQL.Lib.Mem PreSeQL.Lib.Run PreSeQL.Radix PreSeQL.Index PSqlStatus

/-! ## §1. The header page. -/

theorem mark_page_free_mem_iff (pager : Pager) (page_no : UInt16) :
    (mark_page_free pager page_no).mem = pager.mem
      ↔ FREE_PAGE_LIST_SIZE ≤ pager.free_page_count.toNat := by
  rw [mark_page_free_mem]
  split
  next hlt =>
    -- the list gets longer
    refine iff_of_false (fun h => ?_) (Nat.not_le.mpr hlt)
    have hlist := mark_page_free_list pager page_no
    rw [if_pos hlt, Pager.header_list, mark_page_free_mem, if_pos hlt, h] at hlist
    simpa [Pager.header_list] using congrArg List.length hlist
  next hfull => exact iff_of_true rfl (Nat.not_lt.mp hfull)

theorem mark_page_used_mem_iff (pager : Pager) (page_no : UInt16) :
    (mark_page_used pager page_no).mem = pager.mem ↔ page_no ≤ pager.highest_page := by
  rw [mark_page_used_mem]
  split
  next hlt =>
    rw [store16_eq_self_iff]
    exact iff_of_false (fun h => absurd (h ▸ hlt) (lt_irrefl _)) (not_le.mpr hlt)
  next hle => exact iff_of_true rfl (not_lt.mp hle)

/-- A page that is not listed is not removed. -/
theorem remove_from_free_list_notMem (header : Nat) (page_no : UInt16) (fuel : Nat) :
    ∀ (m : Mem) (i : Nat), page_no ∉ (list_at m header).drop i →
      remove_from_free_list header page_no fuel m i = m := by
  induction fuel with
  | zero => intro m i _; rfl
  | succ fuel ih =>
      intro m i hnot
      rw [remove_from_free_list]
      split
      next hi =>
        have hi : i < (list_at m header).length := by rwa [length_list_at]
        rw [List.drop_eq_getElem_cons hi, List.mem_cons, not_or, list_at_getElem m header hi]
          at hnot
        rw [if_neg fun h => hnot.1 h.symm]
        exact ih m (i + 1) hnot.2
      next => rfl

/-- There is no page for `get_free_page` to take out of the list. -/
def NothingListed (pager : Pager) : Prop :=
  pager.free_page_map.num_frees = 0 ∨ radix_tree_peek_min pager.free_page_map.tree = 0
  ∨ radix_tree_peek_min pager.free_page_map.tree ∉ pager.header_list

theorem get_free_page_mem_of_nothingListed {pager : Pager} (h : NothingListed pager) :
    (get_free_page pager).2.mem = pager.mem := by
  rw [get_free_page_mem]
  split
  next hpos =>
    rcases h with hzero | hzero | hnot
    · exact absurd hzero (UInt8.pos_iff_ne_zero.mp hpos.1)
    · exact absurd hzero (UInt16.pos_iff_ne_zero.mp hpos.2)
    · exact remove_from_free_list_notMem _ _ _ _ _ hnot
  next => rfl

theorem get_free_page_mem_iff {pager : Pager} (hfits : pager.ListFits) :
    (get_free_page pager).2.mem = pager.mem ↔ NothingListed pager := by
  refine ⟨fun h => ?_, get_free_page_mem_of_nothingListed⟩
  by_contra hlisted
  obtain ⟨hnum, hrest⟩ := not_or.mp hlisted
  obtain ⟨hmin, hmem⟩ := not_or.mp hrest
  -- the page is taken out, so the list gets shorter
  rw [get_free_page_mem, if_pos ⟨UInt8.pos_iff_ne_zero.mpr hnum, UInt16.pos_iff_ne_zero.mpr hmin⟩]
    at h
  have hremove := list_at_remove (radix_tree_peek_min pager.free_page_map.tree) database_header
    (2 ^ 16) pager.mem 0 hfits
    (Nat.le_trans hfits (Nat.le_trans (by decide) (Nat.le_add_left _ _)))
  rw [h, List.take_zero, List.nil_append, List.drop_zero] at hremove
  have hlength := congrArg List.length hremove
  have hmem : radix_tree_peek_min pager.free_page_map.tree ∈ list_at pager.mem database_header :=
    not_not.mp hmem
  have hpos := List.length_pos_of_mem hmem
  rw [List.length_erase_of_mem hmem] at hlength
  omega

/-- The list holds what a sync would write. -/
def Synced (pager : Pager) : Prop :=
  pager.header_list = (sorted_pages pager.free_page_map.tree).take FREE_PAGE_LIST_SIZE

/-- Writing the pages that are there changes nothing. -/
theorem foldl_collect_pages_self (freelist max_size : Nat) (l : List UInt16) :
    ∀ (m : Mem) (count : Nat),
      (∀ i p, (l.take (max_size - count))[i]? = some p →
        m.load16 (freelist_cell freelist (count + i)) = p) →
      (l.foldl (collect_pages freelist max_size) (m, count)).1 = m := by
  induction l with
  | nil => intro m count _; rfl
  | cons p l ih =>
      intro m count h
      rw [List.foldl_cons, collect_pages]
      split
      next hlt =>
        have htake : max_size - count = max_size - (count + 1) + 1 := by
          simp only at hlt
          omega
        rw [htake, List.take_succ_cons] at h
        have hp : m.load16 (freelist_cell freelist count) = p := h 0 p rfl
        rw [(store16_eq_self_iff m _ p).mpr hp]
        refine ih m (count + 1) fun i q hq => ?_
        rw [Nat.add_assoc, Nat.add_comm 1 i]
        exact h (i + 1) q (by rw [List.getElem?_cons_succ]; exact hq)
      next hfull =>
        refine ih m count fun i q hq => ?_
        have hzero : max_size - count = 0 := Nat.sub_eq_zero_of_le (Nat.not_lt.mp hfull)
        rw [hzero, List.take_zero] at hq
        cases hq

theorem sync_free_page_list_mem_iff (pager : Pager) :
    (sync_free_page_list pager).2.mem = pager.mem ↔ Synced pager := by
  constructor
  · intro h
    have hlist := (sync_free_page_list_spec pager).1
    rw [Pager.header_list, h] at hlist
    exact hlist
  · intro h
    rw [sync_free_page_list_mem]
    simp only
    generalize hm₀ : pager.mem.store16 (DatabaseHeader.free_page_count database_header) 0 = m₀
    -- every cell gets the page it holds
    have hcells : (radix_to_freelist m₀ pager.free_page_map.tree
        (DatabaseHeader.free_page_list database_header) FREE_PAGE_LIST_SIZE).1 = m₀ := by
      rw [radix_to_freelist, radix_tree_walk_eq]
      refine foldl_collect_pages_self _ _ _ m₀ 0 fun i p hp => ?_
      have hi : i < FREE_PAGE_LIST_SIZE := by
        have := (List.getElem?_eq_some_iff.mp hp).1
        exact Nat.lt_of_lt_of_le this (List.length_take_le _ _)
      rw [Nat.zero_add, ← hm₀, cell_store_count _ database_header hi]
      rw [Nat.sub_zero, ← h] at hp
      obtain ⟨hlt, hget⟩ := List.getElem?_eq_some_iff.mp hp
      exact (list_at_getElem pager.mem database_header hlt).symm.trans hget
    -- and the count is the number of pages written
    have hcount : UInt16.ofNat (radix_to_freelist m₀ pager.free_page_map.tree
        (DatabaseHeader.free_page_list database_header) FREE_PAGE_LIST_SIZE).2
        = pager.free_page_count := by
      have hlen := congrArg List.length h
      rw [length_header_list, List.length_take, length_sorted_pages, Nat.min_comm] at hlen
      rw [(radix_to_freelist_spec _ _ _ _).1, ← hlen, UInt16.ofNat_toNat]
    rw [hcells, hcount, ← hm₀, store16_store16_same, store16_eq_self_iff]
    rfl

/-! ## §2. Whole pages. -/

/-- Nothing of a fresh page is left open. -/
theorem FreshPage.ext {m m' : Mem} {page : Nat} {page_no : UInt16} {flag : UInt8}
    (h : FreshPage m page page_no flag) (h' : FreshPage m' page page_no flag)
    (hsame : m.SameOff page (page + DBPage.sizeof) m') : m' = m := by
  funext i
  by_cases hout : i < page ∨ page + DBPage.sizeof ≤ i
  · exact hsame i hout
  · obtain ⟨hlo, hhi⟩ := not_or.mp hout
    by_cases hrest : i = page + 5 ∨ page + 12 ≤ i
    · have hrest : i = page + 5 ∨ page + 12 ≤ i ∧ i < page + DBPage.sizeof :=
        hrest.imp_right fun h => ⟨h, Nat.not_le.mp hhi⟩
      rw [h.rest i hrest, h'.rest i hrest]
    · -- one of the fields in front of the counters
      obtain h₀ | h₂ | h₄ | h₆ | h₈ | h₁₀ : (page ≤ i ∧ i < page + 2)
          ∨ (page + 2 ≤ i ∧ i < page + 2 + 2) ∨ i = page + 4
          ∨ (page + 6 ≤ i ∧ i < page + 6 + 2) ∨ (page + 8 ≤ i ∧ i < page + 8 + 2)
          ∨ (page + 10 ≤ i ∧ i < page + 10 + 2) := by omega
      · exact eq_of_load16_eq (h'.page_id.trans h.page_id.symm) h₀.1 h₀.2
      · exact eq_of_load16_eq (h'.ref_counter.trans h.ref_counter.symm) h₂.1 h₂.2
      · rw [h₄]
        exact h'.flag.trans h.flag.symm
      · exact eq_of_load16_eq (h'.free_start.trans h.free_start.symm) h₆.1 h₆.2
      · exact eq_of_load16_eq (h'.free_end.trans h.free_end.symm) h₈.1 h₈.2
      · exact eq_of_load16_eq (h'.free_total.trans h.free_total.symm) h₁₀.1 h₁₀.2

theorem allocate_page_header_eq_self_iff (m : Mem) (page : Nat) (page_no : UInt16)
    (flag : UInt8) :
    allocate_page_header m page page_no flag = m ↔ FreshPage m page page_no flag :=
  ⟨fun h => h ▸ freshPage_allocate_page_header m page page_no flag,
    fun h => h.ext (freshPage_allocate_page_header m page page_no flag)
      (sameOff_allocate_page_header m page page_no flag)⟩

theorem allocate_page_mem_iff (pager : Pager) (page_no : UInt16) (flag : UInt8) :
    (allocate_page pager page_no flag).2.mem = pager.mem
      ↔ FreshPage pager.mem (page_no.toNat * PAGE_SIZE) page_no flag
        ∧ page_no ≤ pager.highest_page := by
  rw [← allocate_page_header_eq_self_iff, allocate_page, mark_page_used_mem]
  constructor
  · intro h
    split at h
    next hlt =>
      -- the number written was there, and the page header is not on page 0
      have hstored : pager.highest_page = page_no := by
        rw [Pager.highest_page, ← h]
        exact load16_store16_same _ _ _
      have hne : page_no ≠ 0 := fun h0 => absurd (h0 ▸ hlt) (not_lt.mpr UInt16.zero_le)
      rw [(sameHeader_allocate_page_header pager hne flag).highest_page, hstored] at hlt
      exact absurd hlt (lt_irrefl _)
    next hle =>
      rw [Pager.withMem_mem] at h
      rw [h] at hle
      exact ⟨h, not_lt.mp hle⟩
  · rintro ⟨h, hle⟩
    rw [h]
    exact if_neg (not_lt.mpr hle)

/-! ## §3. Slots. -/

/-- The page cannot be read, or it is 80 percent full. -/
def NoRoom (pager : Pager) (page_id : UInt16) : Prop :=
  ∀ page, pager_get_page pager page_id = some page →
    FULL_THRESHOLD_10 ≤ 10 * USED_SPACE pager.mem page

/-- Looking for a slot id writes one counter. -/
theorem find_empty_index_slot_changes {pager : Pager} {page_id : UInt16} {page : Nat}
    (hpage : pager_get_page pager page_id = some page)
    (hroom : 10 * USED_SPACE pager.mem page < FULL_THRESHOLD_10) :
    ∃ m', (find_empty_index_slot pager page_id MAX_DATA_PER_INDEX_SLOT).2 = pager.withMem m'
      ∧ pager.mem.SameOff (page + 13) (page + 15) m' ∧ m' ≠ pager.mem := by
  simp only [find_empty_index_slot, hpage, Nat.lt_irrefl, gt_iff_lt, if_false]
  split
  next hpos =>
    refine ⟨_, rfl, (SameOff.refl _ _ _).store8 (by simp) _ (by simp), fun h => ?_⟩
    have hcount := load8_store8_same pager.mem (DBPageHeader.free_slot_count page)
      (pager.mem.load8 (DBPageHeader.free_slot_count page) - 1)
    rw [h] at hcount
    grind
  next hzero =>
    -- below 80 percent there is space for one slot more
    have hspace : 10 * USED_SPACE pager.mem page < FULL_THRESHOLD_10
        ∧ (pager.mem.load16 (DBPageHeader.free_total page)).toNat
          ≥ INDEX_SLOT_DATA_SIZE + SLOT_ENTRY_SIZE := by
      refine ⟨hroom, ?_⟩
      simp only [USED_SPACE, FULL_THRESHOLD_10, MAX_USABLE_PAGE_SIZE_eq] at hroom
      simp only [INDEX_SLOT_DATA_SIZE, MAX_DATA_PER_INDEX_SLOT, SLOT_ENTRY_SIZE, SlotEntry.sizeof]
      omega
    rw [if_pos hspace]
    refine ⟨_, rfl, (SameOff.refl _ _ _).store8 (by simp) _ (by simp), fun h => ?_⟩
    have hhigh := load8_store8_same pager.mem (DBPageHeader.highest_slot page)
      (pager.mem.load8 (DBPageHeader.highest_slot page) + 1)
    rw [h] at hhigh
    grind

/-- The free space ends one record lower. -/
theorem insert_slot_free_end (m : Mem) (page : Nat) (slot_id : UInt8) (insert_pos : Nat)
    (slot : IndexSlotData) :
    (insert_slot m page slot_id insert_pos slot).load16 (DBPageHeader.free_end page)
      = m.load16 (DBPageHeader.free_end page) - 23 := by
  have hshift : m.SameOff (slot_entries m page)
      (slot_entry (slot_entries m page) (total_slots m page + 1))
      (shift_entries m (slot_entries m page) insert_pos (total_slots m page)) :=
    shift_entries_frame m (slot_entries m page)
  simp only [insert_slot, count_slot_end]
  rw [hshift.load16 (Or.inl (by simp [slot_entries]; omega)), UInt64.toUInt16_sub,
    UInt16.toUInt16_toUInt64]
  rfl

theorem write_index_slot_mem_iff (pager : Pager) (page_id : UInt16) (slot : IndexSlotData)
    (junk : Junk) :
    (write_index_slot pager page_id slot junk).mem = pager.mem ↔ NoRoom pager page_id := by
  unfold NoRoom
  cases hpage : pager_get_page pager page_id with
  | none => simp [write_index_slot, hpage]
  | some page =>
      simp only [write_index_slot, hpage, Option.some.injEq, forall_eq']
      by_cases hfull : FULL_THRESHOLD_10 ≤ 10 * USED_SPACE pager.mem page
      · exact iff_of_true (by rw [if_pos hfull]) hfull
      · refine iff_of_false (fun h => ?_) hfull
        obtain ⟨m', hfind, hsame, hne⟩ :=
          find_empty_index_slot_changes hpage (Int.not_le.mp hfull)
        rw [if_neg hfull] at h
        generalize find_empty_index_slot pager page_id MAX_DATA_PER_INDEX_SLOT = r at h hfind
        obtain ⟨slot_id, pager'⟩ := r
        simp only at h hfind
        rw [hfind] at h
        split at h
        next => exact hne h
        next =>
          have hend := insert_slot_free_end (pager.withMem m').mem page slot_id
            (insert_position (pager.withMem m') page_id page slot junk) slot
          rw [Pager.withMem_mem] at h
          rw [h, Pager.withMem_mem, hsame.load16 (Or.inl (by simp))] at hend
          grind

/-- The page cannot be read, or no entry of its directory has this id; an id from
`total_slots` on is refused. -/
def NoSuchSlot (pager : Pager) (page_id : UInt16) (slot_id : UInt8) : Prop :=
  ∀ page, pager_get_page pager page_id = some page →
    total_slots pager.mem page ≤ slot_id.toNat ∨ ∀ i < total_slots pager.mem page,
      pager.mem.load8 (SlotEntry.slot_id (slot_entry (slot_entries pager.mem page) i)) ≠ slot_id

theorem free_index_slot_mem_iff (pager : Pager) (page_id : UInt16) (slot_id : UInt8) :
    (free_index_slot pager page_id slot_id).mem = pager.mem
      ↔ NoSuchSlot pager page_id slot_id := by
  unfold NoSuchSlot
  cases hpage : pager_get_page pager page_id with
  | none => simp [free_index_slot, hpage]
  | some page =>
      simp only [free_index_slot, hpage, Option.some.injEq, forall_eq']
      by_cases hguard : total_slots pager.mem page ≤ slot_id.toNat
      · exact iff_of_true (by rw [if_pos hguard]) (Or.inl hguard)
      · rw [if_neg hguard]
        cases hfind : find_entry pager.mem page slot_id with
        | none =>
            refine iff_of_true rfl (Or.inr fun i hi => ?_)
            rw [find_entry, List.find?_eq_none] at hfind
            simpa using hfind i (List.mem_range.mpr hi)
        | some i =>
            have hid := List.find?_some hfind
            have hi := List.mem_range.mp (List.mem_of_find?_eq_some hfind)
            refine iff_of_false (fun h => ?_) (not_or.mpr ⟨hguard, fun hno => hno i hi ?_⟩)
            · -- the directory stands behind the counter
              simp only [Pager.withMem_mem] at h
              generalize hm₁ : pager.mem.memmove (slot_entry (slot_entries pager.mem page) i)
                (slot_entry (slot_entries pager.mem page) (i + 1))
                ((total_slots pager.mem page - i - 1) * SlotEntry.sizeof) = m₁ at h
              have hmove : m₁.load8 (DBPageHeader.total_slots page)
                  = pager.mem.load8 (DBPageHeader.total_slots page) := by
                rw [← hm₁, Mem.memmove, Mem.load8, fill_outside _ _ (Or.inl ?_), Mem.load8]
                simp only [slot_entries, slot_entry, DBPage.data, DBPageHeader.sizeof,
                  DBPageHeader.total_slots]
                omega
              have htotal := uncount_slot_total m₁ page slot_id
                (slot_entry (slot_entries pager.mem page) i)
              rw [h, hmove] at htotal
              grind
            · simpa using hid

/-! ## §4. The close. -/

theorem close_file_mem (sys : CloseCalls) (pager : Pager) :
    (close_file sys pager).2.mem =
      if pager.read_only = false ∧ sys.flush_msync = false then pager.mem
      else (sync_free_page_list pager).2.mem.store32 (DatabaseHeader.checksum database_header)
        (database_checksum (sync_free_page_list pager).2.mem database_header) := by
  unfold close_file pager_flush_cache
  rw [sync_free_page_list_ok pager]
  simp only [pager_get_page_zero, data_zero]
  cases pager.read_only <;> cases sys.flush_msync <;> cases sys.msync <;> cases sys.munmap <;> rfl

/-- The header is as the close would write it, the list and the checksum. -/
structure Settled (pager : Pager) : Prop where
  list : Synced pager
  checksum : UInt32.ofNat (pager.mem.load (DatabaseHeader.checksum database_header) 4)
    = database_checksum pager.mem database_header

theorem close_file_mem_iff (sys : CloseCalls) (pager : Pager) :
    (close_file sys pager).2.mem = pager.mem
      ↔ (pager.read_only = false ∧ sys.flush_msync = false) ∨ Settled pager := by
  rw [close_file_mem]
  split
  next hflush => exact iff_of_true rfl (Or.inl hflush)
  next hflush =>
    rw [or_iff_right hflush]
    constructor
    · intro h
      -- the checksum is written behind the list
      have hlist : (sync_free_page_list pager).2.header_list = pager.header_list := by
        refine (list_at_congr (fun i _ hi => ?_) (sync_free_page_list_spec pager).2.1).symm
        rw [← h]
        exact store32_outside _ _ (Or.inl (Nat.lt_trans hi (by simp)))
      have hsynced : Synced pager := by
        rw [Synced, ← hlist]
        exact (sync_free_page_list_spec pager).1
      refine ⟨hsynced, ?_⟩
      rwa [(sync_free_page_list_mem_iff pager).mpr hsynced, store32_eq_self_iff] at h
    · rintro ⟨hsynced, hsum⟩
      rwa [(sync_free_page_list_mem_iff pager).mpr hsynced, store32_eq_self_iff]

/-! ## §5. Runs. -/

/-- The calls, on any page.  Of `pager_close_db` it is what comes before the release, which
touches no byte of the file; a run that goes on behind it has the pager it leaves. -/
inductive PagerOp where
  | mark_page_free (page_no : UInt16)
  | mark_page_used (page_no : UInt16)
  | get_free_page
  | sync_free_page_list
  | allocate_page (page_no : UInt16) (flag : UInt8)
  | write_index_slot (page_id : UInt16) (slot : IndexSlotData) (junk : Junk)
  | free_index_slot (page_id : UInt16) (slot_id : UInt8)
  | pager_init_new_db (sys : Syscalls)
  | pager_close_db (sys : CloseCalls)

def PagerOp.exec (pager : Pager) : PagerOp → Pager
  | .mark_page_free p => Db.mark_page_free pager p
  | .mark_page_used p => Db.mark_page_used pager p
  | .get_free_page => (Db.get_free_page pager).2
  | .sync_free_page_list => (Db.sync_free_page_list pager).2
  | .allocate_page p flag => (Db.allocate_page pager p flag).2
  | .write_index_slot page_id slot junk => Index.write_index_slot pager page_id slot junk
  | .free_index_slot page_id slot_id => Index.free_index_slot pager page_id slot_id
  | .pager_init_new_db sys => (Db.pager_init_new_db sys pager).2
  | .pager_close_db sys => (Db.close_file sys pager).2

/-- The calls that find nothing to write. -/
def PagerOp.Leaves (pager : Pager) : PagerOp → Prop
  | .mark_page_free _ => FREE_PAGE_LIST_SIZE ≤ pager.free_page_count.toNat
  | .mark_page_used p => p ≤ pager.highest_page
  | .get_free_page => NothingListed pager
  | .sync_free_page_list => Synced pager
  | .allocate_page p flag =>
      FreshPage pager.mem (p.toNat * PAGE_SIZE) p flag ∧ p ≤ pager.highest_page
  | .write_index_slot page_id _ _ => NoRoom pager page_id
  | .free_index_slot page_id slot_id => NoSuchSlot pager page_id slot_id
  | .pager_init_new_db _ => True
  | .pager_close_db sys => (pager.read_only = false ∧ sys.flush_msync = false) ∨ Settled pager

def ReadOnly (pager : Pager) : Prop := pager.flags &&& PAGER_READONLY ≠ 0

instance decidableReadOnly (pager : Pager) : Decidable (ReadOnly pager) :=
  inferInstanceAs (Decidable (_ ≠ _))

theorem pager_init_new_db_readonly {pager : Pager} (h : ReadOnly pager) (sys : Syscalls) :
    pager_init_new_db sys pager = (PSQL_READONLY, pager) := if_pos h

theorem PagerOp.unchanged_of_leaves {pager : Pager} (h : ReadOnly pager) (op : PagerOp)
    (hleaves : op.Leaves pager) : (op.exec pager).mem = pager.mem := by
  cases op with
  | mark_page_free p => exact (mark_page_free_mem_iff pager p).mpr hleaves
  | mark_page_used p => exact (mark_page_used_mem_iff pager p).mpr hleaves
  | get_free_page => exact get_free_page_mem_of_nothingListed hleaves
  | sync_free_page_list => exact (sync_free_page_list_mem_iff pager).mpr hleaves
  | allocate_page p flag => exact (allocate_page_mem_iff pager p flag).mpr hleaves
  | write_index_slot page_id slot junk =>
      exact (write_index_slot_mem_iff pager page_id slot junk).mpr hleaves
  | free_index_slot page_id slot_id =>
      exact (free_index_slot_mem_iff pager page_id slot_id).mpr hleaves
  | pager_init_new_db sys => rw [exec, pager_init_new_db_readonly h]
  | pager_close_db sys => exact (close_file_mem_iff sys pager).mpr hleaves

/-- **One call**, when the list is within its array. -/
theorem PagerOp.unchanged_iff {pager : Pager} (h : ReadOnly pager) (hfits : pager.ListFits)
    (op : PagerOp) : (op.exec pager).mem = pager.mem ↔ op.Leaves pager := by
  refine ⟨fun hmem => ?_, op.unchanged_of_leaves h⟩
  cases op with
  | mark_page_free p => exact (mark_page_free_mem_iff pager p).mp hmem
  | mark_page_used p => exact (mark_page_used_mem_iff pager p).mp hmem
  | get_free_page => exact (get_free_page_mem_iff hfits).mp hmem
  | sync_free_page_list => exact (sync_free_page_list_mem_iff pager).mp hmem
  | allocate_page p flag => exact (allocate_page_mem_iff pager p flag).mp hmem
  | write_index_slot page_id slot junk =>
      exact (write_index_slot_mem_iff pager page_id slot junk).mp hmem
  | free_index_slot page_id slot_id =>
      exact (free_index_slot_mem_iff pager page_id slot_id).mp hmem
  | pager_init_new_db sys => exact trivial
  | pager_close_db sys => exact (close_file_mem_iff sys pager).mp hmem

theorem find_empty_index_slot_flags (pager : Pager) (page_id : UInt16) (key_size : Nat) :
    (find_empty_index_slot pager page_id key_size).2.flags = pager.flags := by
  unfold find_empty_index_slot
  split
  · rfl
  simp only
  split
  · rfl
  split
  · rfl
  split <;> rfl

/-- No call changes the flags. -/
theorem PagerOp.readOnly_exec {pager : Pager} (h : ReadOnly pager) (op : PagerOp) :
    ReadOnly (op.exec pager) := by
  suffices hflags : (op.exec pager).flags = pager.flags by
    unfold ReadOnly
    rwa [hflags]
  cases op with
  | mark_page_free p =>
      simp only [exec, Db.mark_page_free, pager_get_page_zero]
      split <;> rfl
  | mark_page_used p =>
      simp only [exec, Db.mark_page_used, pager_get_page_zero]
      split <;> rfl
  | get_free_page =>
      simp only [exec, Db.get_free_page, pager_get_page_zero]
      split
      · split <;> rfl
      · rfl
  | sync_free_page_list =>
      simp only [exec, Db.sync_free_page_list, pager_get_page_zero]
      rfl
  | allocate_page p flag =>
      simp only [exec, Db.allocate_page, Db.mark_page_used, pager_get_page_zero]
      split <;> rfl
  | write_index_slot page_id slot junk =>
      have hfind := find_empty_index_slot_flags pager page_id MAX_DATA_PER_INDEX_SLOT
      simp only [exec, Index.write_index_slot]
      split
      · rfl
      split
      · rfl
      split
      · exact hfind
      · exact hfind
  | free_index_slot page_id slot_id =>
      simp only [exec, Index.free_index_slot]
      split
      · rfl
      split
      · rfl
      split <;> rfl
  | pager_init_new_db sys => rw [exec, pager_init_new_db_readonly h]
  | pager_close_db sys =>
      have hsync : (Db.sync_free_page_list pager).2.flags = pager.flags := by
        simp only [Db.sync_free_page_list, pager_get_page_zero]
        rfl
      unfold exec Db.close_file pager_flush_cache
      rw [sync_free_page_list_ok pager]
      generalize (Db.sync_free_page_list pager).2 = synced at hsync
      simp only [pager_get_page_zero]
      cases pager.read_only <;> cases sys.flush_msync <;> cases sys.msync <;>
        cases sys.munmap <;> first | rfl | exact hsync

/-- **A read-only pager**: no byte changes in a run whose calls find nothing to write, and
when the free list is within its array a run that changes no byte has no other calls. -/
theorem read_only_unchanged (pager : Pager) (h : ReadOnly pager) (ops : List PagerOp) :
    (EachStep PagerOp.exec PagerOp.Leaves pager ops →
      Throughout PagerOp.exec (fun pager' => pager'.mem = pager.mem) pager ops)
    ∧ (pager.ListFits →
      (Throughout PagerOp.exec (fun pager' => pager'.mem = pager.mem) pager ops
        ↔ EachStep PagerOp.exec PagerOp.Leaves pager ops)) := by
  constructor
  · refine throughout_of_eachStep (fun _ op h => op.readOnly_exec h) (fun s op h hmem hleaves => ?_)
      ops pager h rfl
    exact (op.unchanged_of_leaves h hleaves).trans hmem
  · intro hfits
    rw [throughout_iff_eachStep (fun _ op h => op.readOnly_exec h) (fun s op h hmem => ?_)
      ops pager h]
    · exact and_iff_right rfl
    · -- the count is that of the start
      have hfits : s.ListFits := by
        unfold Pager.ListFits Pager.free_page_count
        rw [hmem]
        exact hfits
      rw [← hmem]
      exact op.unchanged_iff h hfits

/-- A new file, opened for reading only. -/
def read_only_pager : Pager := { fresh_pager with flags := PAGER_READONLY, read_only := true }

theorem read_only_unchanged_fresh :
    let ops : List PagerOp := [.pager_init_new_db .ok, .get_free_page, .sync_free_page_list]
    Throughout PagerOp.exec (fun pager' => pager'.mem = read_only_pager.mem) read_only_pager ops
      ↔ EachStep PagerOp.exec PagerOp.Leaves read_only_pager ops :=
  (read_only_unchanged read_only_pager (by decide) _).2 (by decide +kernel)

/-- Page 5 is appended to the free list in the mapping, and nothing refuses it. -/
theorem read_only_page_listed :
    ReadOnly read_only_pager
    ∧ (mark_page_free read_only_pager 5).mem (DatabaseHeader.free_page_list database_header) = 5
    ∧ read_only_pager.mem (DatabaseHeader.free_page_list database_header) = 0 := by
  decide +kernel

end PreSeQL.Db
