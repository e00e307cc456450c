/-
  PreSeQL.Pager.HeaderList — the free list in the header beside the free tree.

  The first `free_page_count` cells of `free_page_list` are what `init_free_page_map`
  loads the tracker from.  §1 says what each operation does to them, as a list: freeing
  appends while there is room, `get_free_page` removes the first copy of the page it
  returns, a sync writes the smallest free pages, and no other operation touches them.
  §3 is the law for one call: the list names free pages only, none twice, and no page that
  was handed out or marked used.
-/
import PreSeQL.Algorithm.SortedWalk
import PreSeQL.Lib.Exclusive
import PreSeQL.Pager.HeaderFrame

namespace PreSeQL.Db

open PreSeQL.Lib PreSeQL.Lib.Mem PreSeQL.Lib.Run PreSeQL.Radix

/-! ## §1. The list. -/

/-- The cells of the list that count. -/
def list_at (m : Mem) (header : Nat) : List UInt16 :=
  freelist_entries m (DatabaseHeader.free_page_list header)
    (m.load16 (DatabaseHeader.free_page_count header)).toNat

def Pager.header_list (pager : Pager) : List UInt16 := list_at pager.mem database_header

@[simp] theorem length_list_at (m : Mem) (header : Nat) :
    (list_at m header).length = (m.load16 (DatabaseHeader.free_page_count header)).toNat :=
  length_freelist_entries _ _ _

theorem length_header_list (pager : Pager) :
    pager.header_list.length = pager.free_page_count.toNat := length_list_at _ _

theorem list_at_getElem (m : Mem) (header : Nat) {i : Nat} (h : i < (list_at m header).length) :
    (list_at m header)[i] = m.load16 (freelist_cell (DatabaseHeader.free_page_list header) i) := by
  simp [list_at, freelist_entries]

/-- The cells of the array stand in front of the count. -/
theorem freelist_cell_le (header : Nat) {i : Nat} (h : i < FREE_PAGE_LIST_SIZE) :
    freelist_cell (DatabaseHeader.free_page_list header) i + 2
      ≤ DatabaseHeader.free_page_count header := by
  simp only [FREE_PAGE_LIST_SIZE] at h
  simp only [freelist_cell, DatabaseHeader.free_page_list, DatabaseHeader.free_page_count]
  omega

/-- Storing into the array leaves the count as it is. -/
theorem count_store_cell (m : Mem) (header : Nat) {j : Nat} (hj : j < FREE_PAGE_LIST_SIZE)
    (page_no : UInt16) :
    (m.store16 (freelist_cell (DatabaseHeader.free_page_list header) j) page_no).load16
      (DatabaseHeader.free_page_count header) = m.load16 (DatabaseHeader.free_page_count header) :=
  load16_store16_of_disjoint m _ (Or.inr (freelist_cell_le header hj))

/-- Storing the count leaves the array as it is. -/
theorem cell_store_count (m : Mem) (header : Nat) {j : Nat} (hj : j < FREE_PAGE_LIST_SIZE)
    (count : UInt16) :
    (m.store16 (DatabaseHeader.free_page_count header) count).load16
        (freelist_cell (DatabaseHeader.free_page_list header) j)
      = m.load16 (freelist_cell (DatabaseHeader.free_page_list header) j) :=
  load16_store16_of_disjoint m _ (Or.inl (freelist_cell_le header hj))

/-- Equal cells and an equal count make equal lists. -/
theorem list_at_congr {m m' : Mem} {header : Nat}
    (h : ∀ i, DatabaseHeader.free_page_list header ≤ i → i < DatabaseHeader.highest_page header →
      m' i = m i)
    (hfits : (m.load16 (DatabaseHeader.free_page_count header)).toNat ≤ FREE_PAGE_LIST_SIZE) :
    list_at m' header = list_at m header := by
  have hload : ∀ a, DatabaseHeader.free_page_list header ≤ a →
      a + 2 ≤ DatabaseHeader.highest_page header → m'.load16 a = m.load16 a := by
    intro a h₁ h₂
    rw [load16, load16, load_congr 2 a fun i hi₁ hi₂ => h i (by omega) (by omega)]
  rw [list_at, list_at, hload _ (by simp) (by simp)]
  refine List.map_congr_left fun i hi => hload _ (by simp) ?_
  exact Nat.le_trans (freelist_cell_le header (Nat.lt_of_lt_of_le (List.mem_range.mp hi) hfits))
    (by simp)

/-- The inner loop of `get_free_page` moves the cells behind `j` down by one. -/
theorem shift_free_list_cell (header fuel : Nat) : ∀ (m : Mem) (j : Nat),
    (m.load16 (DatabaseHeader.free_page_count header)).toNat ≤ FREE_PAGE_LIST_SIZE →
    (m.load16 (DatabaseHeader.free_page_count header)).toNat ≤ j + fuel →
    ∀ i, (shift_free_list header fuel m j).load16
        (freelist_cell (DatabaseHeader.free_page_list header) i)
      = if j ≤ i ∧ i + 1 < (m.load16 (DatabaseHeader.free_page_count header)).toNat then
          m.load16 (freelist_cell (DatabaseHeader.free_page_list header) (i + 1))
        else m.load16 (freelist_cell (DatabaseHeader.free_page_list header) i) := by
  induction fuel with
  | zero =>
      intro m j _ hfuel i
      rw [shift_free_list, if_neg (by omega)]
  | succ fuel ih =>
      intro m j hfits hfuel i
      rw [shift_free_list]
      split
      next hj =>
        -- cell `j` gets the value behind it, the others and the count are as before
        have hcell : ∀ i, (m.store16 (freelist_cell (DatabaseHeader.free_page_list header) j)
            (m.load16 (freelist_cell (DatabaseHeader.free_page_list header) (j + 1)))).load16
              (freelist_cell (DatabaseHeader.free_page_list header) i)
            = m.load16 (freelist_cell (DatabaseHeader.free_page_list header)
                (if i = j then j + 1 else i)) := by
          intro i
          split
          next hi => rw [hi, load16_store16_same]
          next hi => exact load16_store16_of_disjoint m _ (by simp only [freelist_cell]; omega)
        have hcount := count_store_cell m header (j := j) (by omega)
          (m.load16 (freelist_cell (DatabaseHeader.free_page_list header) (j + 1)))
        rw [ih _ (j + 1) (by rwa [hcount]) (by rw [hcount]; omega) i, hcount, hcell, hcell]
        by_cases hi : j ≤ i ∧ i + 1 < (m.load16 (DatabaseHeader.free_page_count header)).toNat
        · rw [if_pos hi]
          rcases Nat.eq_or_lt_of_le hi.1 with rfl | hlt
          · rw [if_neg (by omega), if_pos rfl]
          · rw [if_pos (by omega), if_neg (by omega)]
        · rw [if_neg hi, if_neg (by omega), if_neg (by omega)]
      next hj => rw [if_neg (by omega)]

/-- Closing the gap at cell `i` takes one item out of the list. -/
theorem list_at_shift {m : Mem} {header i : Nat}
    (hfits : (m.load16 (DatabaseHeader.free_page_count header)).toNat ≤ FREE_PAGE_LIST_SIZE)
    (hi : i < (list_at m header).length) :
    let m' := shift_free_list header (2 ^ 16) m i
    list_at (m'.store16 (DatabaseHeader.free_page_count header)
      (m'.load16 (DatabaseHeader.free_page_count header) - 1)) header
      = (list_at m header).eraseIdx i := by
  intro m'
  have hcount : m'.load16 (DatabaseHeader.free_page_count header)
      = m.load16 (DatabaseHeader.free_page_count header) :=
    (shift_free_list_frame header (2 ^ 16) m i hfits).load16 (Or.inr (Nat.le_refl _))
  rw [length_list_at] at hi
  have hone : (1 : UInt16) ≤ m.load16 (DatabaseHeader.free_page_count header) := by
    rw [UInt16.le_iff_toNat_le]
    exact Nat.lt_of_le_of_lt (Nat.zero_le i) hi
  have hlen : (m.load16 (DatabaseHeader.free_page_count header) - 1).toNat
      = (m.load16 (DatabaseHeader.free_page_count header)).toNat - 1 :=
    UInt16.toNat_sub_of_le _ _ hone
  refine List.ext_getElem ?_ fun k hk hk' => ?_
  · rw [length_list_at, load16_store16_same, hcount, hlen, List.length_eraseIdx_of_lt
      (by rwa [length_list_at]), length_list_at]
  · rw [length_list_at, load16_store16_same, hcount, hlen] at hk
    have hfuel : (m.load16 (DatabaseHeader.free_page_count header)).toNat ≤ i + 2 ^ 16 :=
      Nat.le_trans hfits (Nat.le_trans (by decide) (Nat.le_add_left _ _))
    rw [list_at_getElem, cell_store_count _ header (by omega),
      shift_free_list_cell header (2 ^ 16) m i hfits hfuel, List.getElem_eraseIdx]
    split
    next hmoved => rw [dif_neg (by omega), list_at_getElem]
    next hkept => rw [dif_pos (by omega), list_at_getElem]

/-- The outer loop of `get_free_page` from `i` on: the first copy behind `i` goes. -/
theorem list_at_remove (page_no : UInt16) (header fuel : Nat) : ∀ (m : Mem) (i : Nat),
    (m.load16 (DatabaseHeader.free_page_count header)).toNat ≤ FREE_PAGE_LIST_SIZE →
    (m.load16 (DatabaseHeader.free_page_count header)).toNat ≤ i + fuel →
    list_at (remove_from_free_list header page_no fuel m i) header
      = (list_at m header).take i ++ ((list_at m header).drop i).erase page_no := by
  induction fuel with
  | zero =>
      intro m i _ hfuel
      rw [remove_from_free_list, List.drop_of_length_le (by rw [length_list_at]; omega),
        List.take_of_length_le (by rw [length_list_at]; omega)]
      simp
  | succ fuel ih =>
      intro m i hfits hfuel
      rw [remove_from_free_list]
      split
      next hi =>
        have hi' : i < (list_at m header).length := by rwa [length_list_at]
        have hget := list_at_getElem m header hi'
        split
        next heq =>
          -- the item is found
          rw [list_at_shift hfits hi', List.eraseIdx_eq_take_drop_succ,
            List.drop_eq_getElem_cons hi', hget, heq, List.erase_cons_head]
        next hne =>
          rw [ih m (i + 1) hfits (by omega), List.drop_eq_getElem_cons hi', hget,
            List.erase_cons_tail (by simpa using hne), List.take_succ_eq_append_getElem hi', hget,
            List.append_assoc, List.singleton_append]
      next hi =>
        rw [List.drop_of_length_le (by rw [length_list_at]; omega),
          List.take_of_length_le (by rw [length_list_at]; omega)]
        simp

/-! ## §2. The list after each operation. -/

theorem mark_page_free_list (pager : Pager) (page_no : UInt16) :
    (mark_page_free pager page_no).header_list
      = if pager.free_page_count.toNat < FREE_PAGE_LIST_SIZE then pager.header_list ++ [page_no]
        else pager.header_list := by
  rw [Pager.header_list, mark_page_free_mem]
  split
  next hlt =>
    have hcount : (pager.free_page_count + 1).toNat = pager.free_page_count.toNat + 1 := by
      rw [UInt16.toNat_add]
      exact Nat.mod_eq_of_lt (Nat.lt_trans (Nat.succ_lt_succ hlt) (by decide))
    rw [list_at, load16_store16_same, hcount, Pager.header_list, list_at,
      ← freelist_entries_store16]
    refine List.map_congr_left fun i hi => ?_
    have hi := List.mem_range.mp hi
    exact cell_store_count _ database_header (Nat.lt_of_lt_of_le hi hlt) _
  next => rfl

/-- `highest_page` stands behind the list. -/
theorem mark_page_used_list (pager : Pager) (page_no : UInt16) (hfits : pager.ListFits) :
    (mark_page_used pager page_no).header_list = pager.header_list := by
  rw [Pager.header_list, mark_page_used_mem]
  split
  · exact list_at_congr (fun i _ hi => store16_outside _ _ (Or.inl hi)) hfits
  · rfl

theorem allocate_page_list (pager : Pager) {page_no : UInt16} (h0 : page_no ≠ 0) (flag : UInt8)
    (hfits : pager.ListFits) :
    (allocate_page pager page_no flag).2.header_list = pager.header_list := by
  have hsame := sameHeader_allocate_page_header pager h0 flag
  have hfits' : (pager.withMem
      (allocate_page_header pager.mem (page_no.toNat * PAGE_SIZE) page_no flag)).ListFits := by
    unfold Pager.ListFits
    rw [hsame.free_page_count]
    exact hfits
  rw [allocate_page, mark_page_used_list _ _ hfits']
  exact list_at_congr (fun i _ hi => hsame i (Nat.lt_trans hi (by decide))) hfits

/-- A page that is taken leaves the list. -/
theorem get_free_page_take_list {pager : Pager} (h : TreeOk pager.free_page_map.tree)
    (hfits : pager.ListFits) (hpos : pager.free_page_map.num_frees > 0)
    (hne : (pages pager.free_page_map.tree).Nonempty) :
    (get_free_page pager).2.header_list
      = pager.header_list.erase ((pages pager.free_page_map.tree).min' hne) := by
  have hmin := UInt16.pos_iff_ne_zero.mpr (h.min'_ne_zero hne)
  have hremove := list_at_remove ((pages pager.free_page_map.tree).min' hne) database_header
    (2 ^ 16) pager.mem 0 hfits
    (Nat.le_trans hfits (Nat.le_trans (by decide) (Nat.le_add_left _ _)))
  simp only [get_free_page, if_pos hpos, radix_tree_pop_min_of_nonempty h.wellFormed hne,
    if_pos hmin, pager_get_page_zero]
  exact hremove

theorem sync_free_page_list_mem (pager : Pager) :
    (sync_free_page_list pager).2.mem =
      let m := pager.mem.store16 (DatabaseHeader.free_page_count database_header) 0
      let r := radix_to_freelist m pager.free_page_map.tree
        (DatabaseHeader.free_page_list database_header) FREE_PAGE_LIST_SIZE
      r.1.store16 (DatabaseHeader.free_page_count database_header) (UInt16.ofNat r.2) := by
  simp only [sync_free_page_list, pager_get_page_zero, Pager.withMem_mem]
  rfl

/-- **A sync** writes the smallest free pages, as many as fit, and nothing else. -/
theorem sync_free_page_list_spec (pager : Pager) :
    (sync_free_page_list pager).2.header_list
        = (sorted_pages pager.free_page_map.tree).take FREE_PAGE_LIST_SIZE
    ∧ (sync_free_page_list pager).2.ListFits
    ∧ pager.mem.SameOff (DatabaseHeader.free_page_list database_header)
        (DatabaseHeader.highest_page database_header) (sync_free_page_list pager).2.mem := by
  have hspec := radix_to_freelist_spec
    (pager.mem.store16 (DatabaseHeader.free_page_count database_header) 0)
    pager.free_page_map.tree (DatabaseHeader.free_page_list database_header) FREE_PAGE_LIST_SIZE
  have hframe := radix_to_freelist_frame
    (pager.mem.store16 (DatabaseHeader.free_page_count database_header) 0)
    pager.free_page_map.tree (DatabaseHeader.free_page_list database_header) FREE_PAGE_LIST_SIZE
  have hmem := sync_free_page_list_mem pager
  simp only at hmem
  revert hspec hframe hmem
  generalize radix_to_freelist
    (pager.mem.store16 (DatabaseHeader.free_page_count database_header) 0)
    pager.free_page_map.tree (DatabaseHeader.free_page_list database_header)
    FREE_PAGE_LIST_SIZE = r
  rintro ⟨-, hentries⟩ ⟨hsame, hle⟩ hmem
  have hcount : (UInt16.ofNat r.2).toNat = r.2 := by
    rw [UInt16.toNat_ofNat']
    exact Nat.mod_eq_of_lt (Nat.lt_of_le_of_lt hle (by decide))
  refine ⟨?_, ?_, ?_⟩
  · rw [Pager.header_list, hmem, list_at, load16_store16_same, hcount, ← hentries]
    -- the count stands behind the array
    refine List.map_congr_left fun i hi => cell_store_count _ database_header ?_ _
    exact Nat.lt_of_lt_of_le (List.mem_range.mp hi) hle
  · unfold Pager.ListFits
    rw [Pager.free_page_count, hmem, load16_store16_same, hcount]
    exact hle
  · rw [hmem]
    have hzero : pager.mem.SameOff (DatabaseHeader.free_page_list database_header)
        (DatabaseHeader.highest_page database_header)
        (pager.mem.store16 (DatabaseHeader.free_page_count database_header) 0) :=
      (SameOff.refl _ _ pager.mem).store16 (by simp) _ (by simp)
    exact (hzero.trans (hsame.mono (Nat.le_refl _) (by simp))).store16 (by simp) _ (by simp)

/-! ## §3. The list names no page in use. -/

/-- The pager together with the pages in use. -/
structure Allocation where
  pager : Pager
  in_use : Finset UInt16

/-- Which pages a call hands out, marks used or frees; 0 is no page. -/
def FreePageOp.uses (pager : Pager) : FreePageOp → List (Use UInt16)
  | .mark_page_free p => [.release p]
  | .mark_page_used p | .allocate_page p _ => [.acquire p]
  | .get_free_page =>
      if (Db.get_free_page pager).1 = 0 then [] else [.acquire (Db.get_free_page pager).1]
  | .sync_free_page_list => []

def FreePageOp.track (s : Allocation) (op : FreePageOp) : Allocation :=
  ⟨op.exec s.pager, (op.uses s.pager).foldl Use.apply s.in_use⟩

/-- No page is listed twice, every page listed is free, and so is every page of the tracker that
would be loaded from the header now: it has not been handed out or marked used. -/
structure ListSafe (s : Allocation) : Prop where
  nodup : s.pager.header_list.Nodup
  free : ∀ p ∈ s.pager.header_list, p ∈ pages s.pager.free_page_map.tree
  rebuilt : pages (init_free_page_map s.pager).free_page_map.tree
    ⊆ pages s.pager.free_page_map.tree
  unused : Disjoint (pages (init_free_page_map s.pager).free_page_map.tree) s.in_use

/-- The rebuilt tracker holds what the list names. -/
theorem listSafe_iff {s : Allocation} (h : TreeOk s.pager.free_page_map.tree) : ListSafe s
    ↔ s.pager.header_list.Nodup
      ∧ ∀ p ∈ s.pager.header_list, p ∈ pages s.pager.free_page_map.tree ∧ p ∉ s.in_use := by
  have hloaded : pages (init_free_page_map s.pager).free_page_map.tree
      = (s.pager.header_list.filter (· ≠ 0)).toFinset := (init_free_page_map_spec s.pager).2.1
  constructor
  · rintro ⟨hnodup, hfree, -, hunused⟩
    refine ⟨hnodup, fun p hp => ⟨hfree p hp, ?_⟩⟩
    -- a free page is not page 0, so the entry is loaded
    refine Finset.disjoint_left.mp hunused ?_
    rw [hloaded, List.mem_toFinset]
    exact List.mem_filter.mpr
      ⟨hp, decide_eq_true fun h0 => h.zero_notMem (h0 ▸ hfree p hp)⟩
  · rintro ⟨hnodup, hlist⟩
    have hsub : ∀ p ∈ pages (init_free_page_map s.pager).free_page_map.tree,
        p ∈ s.pager.header_list := by
      intro p hp
      rw [hloaded, List.mem_toFinset] at hp
      exact List.mem_of_mem_filter hp
    exact ⟨hnodup, fun p hp => (hlist p hp).1, fun p hp => (hlist p (hsub p hp)).1,
      Finset.disjoint_left.mpr fun p hp => (hlist p (hsub p hp)).2⟩

/-- The calls that keep the list safe: a page is freed only when it is not listed or the
list is full, taken by number only when it is not listed, and handed out by growth only when it
is not listed; a sync finds no page in use among those it writes. -/
def FreePageOp.KeepsList (s : Allocation) : FreePageOp → Prop
  | .mark_page_free p =>
      p.1 ∉ s.pager.header_list ∨ FREE_PAGE_LIST_SIZE ≤ s.pager.header_list.length
  | .mark_page_used p | .allocate_page p _ => p.1 ∉ s.pager.header_list
  | .get_free_page =>
      s.pager.free_page_map.num_frees = 0 → s.pager.highest_page + 1 ∉ s.pager.header_list
  | .sync_free_page_list =>
      ∀ p ∈ (sorted_pages s.pager.free_page_map.tree).take FREE_PAGE_LIST_SIZE, p ∉ s.in_use

instance decidableKeepsList (s : Allocation) : ∀ op : FreePageOp, Decidable (op.KeepsList s)
  | .mark_page_free _ => inferInstanceAs (Decidable (_ ∨ _))
  | .mark_page_used _ | .allocate_page _ _ => inferInstanceAs (Decidable (_ ∉ _))
  | .get_free_page => inferInstanceAs (Decidable (_ → _))
  | .sync_free_page_list =>
      -- the words of the tree are its pages in order
      @decidable_of_iff _ (∀ p ∈ ((Trie.words 4 s.pager.free_page_map.tree.root).map
          fun w => UInt16.ofNat (Trie.value w)).take FREE_PAGE_LIST_SIZE, p ∉ s.in_use)
        (by rw [words_eq_sorted_pages]; rfl) (List.decidableBAll _ _)

/-- What the operations need of a pager. -/
structure Tracked (pager : Pager) : Prop where
  tree : TreeOk pager.free_page_map.tree
  fits : pager.ListFits

theorem FreePageOp.tracked_exec {pager : Pager} (h : Tracked pager) (op : FreePageOp) :
    Tracked (op.exec pager) := by
  refine ⟨op.treeOk_exec h.tree, ?_⟩
  cases op with
  | mark_page_free p => exact (mark_page_free_header pager p.1 h.fits).2
  | mark_page_used p =>
      unfold Pager.ListFits
      rw [exec, (mark_page_used_header pager p.1).2]
      exact h.fits
  | get_free_page => exact (get_free_page_header pager h.fits).2
  | allocate_page p flag =>
      unfold Pager.ListFits
      rw [exec, (allocate_page_header_spec pager p.ne_zero flag).2]
      exact h.fits
  | sync_free_page_list => exact (sync_free_page_list_spec pager).2.1

theorem listSafe_track {s : Allocation} (h : Tracked s.pager) (op : FreePageOp) :
    ListSafe (op.track s) ↔ (op.exec s.pager).header_list.Nodup
      ∧ ∀ p ∈ (op.exec s.pager).header_list, p ∈ pages (op.exec s.pager).free_page_map.tree
        ∧ p ∉ (op.uses s.pager).foldl Use.apply s.in_use :=
  listSafe_iff (op.treeOk_exec h.tree)

section

variable {l : List UInt16} {S U : Finset UInt16} {p : UInt16}

/-- A page taken by number keeps a list of free pages safe unless it is listed. -/
theorem list_take_iff (h : ∀ q ∈ l, q ∈ S ∧ q ∉ U) :
    (∀ q ∈ l, q ∈ S.erase p ∧ q ∉ insert p U) ↔ p ∉ l := by
  constructor
  · intro htaken hp
    exact Finset.notMem_erase p S (htaken p hp).1
  · intro hp q hq
    have hne : q ≠ p := fun heq => hp (heq ▸ hq)
    exact ⟨Finset.mem_erase.mpr ⟨hne, (h q hq).1⟩,
      fun hin => (h q hq).2 (Finset.mem_of_mem_insert_of_ne hin hne)⟩

/-- A page handed out by growth stays in the tree if it was there. -/
theorem list_grow_iff (h : ∀ q ∈ l, q ∈ S ∧ q ∉ U) :
    (∀ q ∈ l, q ∈ S ∧ q ∉ insert p U) ↔ p ∉ l := by
  constructor
  · intro hgrown hp
    exact (hgrown p hp).2 (Finset.mem_insert_self p U)
  · intro hp q hq
    have hne : q ≠ p := fun heq => hp (heq ▸ hq)
    exact ⟨(h q hq).1, fun hin => (h q hq).2 (Finset.mem_of_mem_insert_of_ne hin hne)⟩

/-- A page that is freed is in use no more. -/
theorem list_free (h : ∀ q ∈ l, q ∈ S ∧ q ∉ U) :
    ∀ q ∈ l ++ [p], q ∈ insert p S ∧ q ∉ U.erase p := by
  intro q hq
  rcases List.mem_append.mp hq with hq | hq
  · exact ⟨Finset.mem_insert_of_mem (h q hq).1, fun hin => (h q hq).2 (Finset.mem_of_mem_erase hin)⟩
  · rw [List.mem_singleton.mp hq]
    exact ⟨Finset.mem_insert_self _ _, Finset.notMem_erase _ _⟩

end

/-- **Growth** hands out a page that may be listed. -/
theorem listSafe_grow_iff {s : Allocation} (h : Tracked s.pager) (hq : ListSafe s)
    (hgrow : s.pager.free_page_map.num_frees = 0 ∨ pages s.pager.free_page_map.tree = ∅) :
    ListSafe (FreePageOp.get_free_page.track s) ↔ FreePageOp.get_free_page.KeepsList s := by
  obtain ⟨hnodup, hfree⟩ := (listSafe_iff h.tree).mp hq
  -- in an empty tree nothing is listed, so the counter does not matter
  have hkeeps : FreePageOp.get_free_page.KeepsList s
      ↔ s.pager.highest_page + 1 ∉ s.pager.header_list := by
    refine ⟨fun hkeeps hlisted => ?_, fun hnot _ => hnot⟩
    refine hgrow.elim (fun hzero => hkeeps hzero hlisted) fun hempty => ?_
    exact Finset.notMem_empty _ (hempty ▸ (hfree _ hlisted).1)
  rw [listSafe_track h, FreePageOp.uses, FreePageOp.exec, get_free_page_grow hgrow,
    and_iff_right hnodup, hkeeps]
  by_cases h0 : s.pager.highest_page + 1 = 0
  · -- no page is handed out, and page 0 is never listed
    rw [if_pos h0, h0]
    exact iff_of_true hfree fun hlisted => h.tree.zero_notMem (hfree 0 hlisted).1
  · rw [if_neg h0]
    exact list_grow_iff hfree

/-- A page taken out of the tracker leaves the list as well. -/
theorem listSafe_take {s : Allocation} (h : Tracked s.pager) (hq : ListSafe s)
    (hpos : s.pager.free_page_map.num_frees > 0)
    (hne : (pages s.pager.free_page_map.tree).Nonempty) :
    ListSafe (FreePageOp.get_free_page.track s) := by
  obtain ⟨hnodup, hfree⟩ := (listSafe_iff h.tree).mp hq
  obtain ⟨hpage, hmap⟩ := get_free_page_take h.tree hpos hne
  have h0 := h.tree.min'_ne_zero hne
  rw [listSafe_track h, FreePageOp.uses, hpage, if_neg h0, FreePageOp.exec,
    get_free_page_take_list h.tree h.fits hpos hne, hmap, pages_delete _ h0]
  refine ⟨hnodup.erase _, (list_take_iff fun q hq => ?_).mpr hnodup.not_mem_erase⟩
  exact hfree q (List.mem_of_mem_erase hq)

/-- **One call**, from a safe list: it is safe afterwards exactly when the call meets its
condition. -/
theorem FreePageOp.listSafe_track_iff {s : Allocation} (h : Tracked s.pager) (hq : ListSafe s)
    (op : FreePageOp) : ListSafe (op.track s) ↔ op.KeepsList s := by
  obtain ⟨hnodup, hfree⟩ := (listSafe_iff h.tree).mp hq
  cases op with
  | mark_page_free p =>
      rw [listSafe_track h, exec, uses, mark_page_free_map, pages_insert, mark_page_free_list, KeepsList,
        length_header_list]
      split
      next hlt =>
        -- the page is appended, so it must not be there
        rw [List.nodup_append_comm, List.singleton_append, List.nodup_cons,
          or_iff_left (Nat.not_le.mpr hlt)]
        exact ⟨fun hsafe => hsafe.1.1, fun hp => ⟨⟨hp, hnodup⟩, fun q hq => list_free hfree q hq⟩⟩
      next hfull =>
        refine iff_of_true ⟨hnodup, fun q hq => ?_⟩ (Or.inr (Nat.not_lt.mp hfull))
        exact list_free hfree q (List.mem_append_left _ hq)
  | mark_page_used p =>
      rw [listSafe_track h, exec, uses, mark_page_used_map, pages_delete _ p.ne_zero,
        mark_page_used_list _ _ h.fits, KeepsList]
      exact (and_iff_right hnodup).trans (list_take_iff hfree)
  | allocate_page p flag =>
      rw [listSafe_track h, exec, uses, allocate_page_map, pages_delete _ p.ne_zero,
        allocate_page_list _ p.ne_zero flag h.fits, KeepsList]
      exact (and_iff_right hnodup).trans (list_take_iff hfree)
  | get_free_page =>
      by_cases hgrow : s.pager.free_page_map.num_frees = 0 ∨ pages s.pager.free_page_map.tree = ∅
      · exact listSafe_grow_iff h hq hgrow
      · obtain ⟨hpos, hemp⟩ := not_or.mp hgrow
        exact iff_of_true (listSafe_take h hq (UInt8.pos_iff_ne_zero.mpr hpos)
          (Finset.nonempty_iff_ne_empty.mpr hemp)) fun hzero => absurd hzero hpos
  | sync_free_page_list =>
      rw [listSafe_track h, exec, uses, (sync_free_page_list_spec s.pager).1, sync_free_page_list_map,
        KeepsList, and_iff_right ((nodup_sorted_pages _).sublist (List.take_sublist _ _))]
      exact ⟨fun hlist p hp => (hlist p hp).2,
        fun hunused p hp => ⟨mem_sorted_pages.mp (List.mem_of_mem_take hp), hunused p hp⟩⟩

end PreSeQL.Db
