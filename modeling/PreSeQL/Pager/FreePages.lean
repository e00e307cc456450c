/-
  PreSeQL.Pager.FreePages — the free-page tracker over whole runs.

  The tracker keeps two things that should agree: a set of pages (the tree) and an
  8-bit count of them.  §1 says what each operation does to both, §2 what
  `get_free_page` returns when they agree, §3 when a step keeps them in agreement,
  and §4 when a whole run does.
-/
import PreSeQL.Algorithm.RadixSet
import PreSeQL.Lib.Run
import PreSeQL.Pager.Pager

namespace PreSeQL.Db

open PreSeQL.Lib PreSeQL.Lib.Run PreSeQL.Radix

/-! ## §1. The operations on the tracker. -/

theorem mark_page_free_map (pager : Pager) (page_no : UInt16) :
    (mark_page_free pager page_no).free_page_map
      = ⟨pager.free_page_map.num_frees + 1,
          radix_tree_insert pager.free_page_map.tree page_no⟩ := by
  simp only [mark_page_free, pager_get_page_zero]
  split <;> rfl

theorem count_down_toNat (num_frees : UInt8) :
    (count_down num_frees).toNat = num_frees.toNat - 1 := by
  unfold count_down
  split
  next h =>
    -- above 0 the subtraction does not wrap
    have hle : (1 : UInt8) ≤ num_frees := UInt8.le_iff_toNat_le.mpr (UInt8.lt_iff_toNat_lt.mp h)
    rw [UInt8.toNat_sub_of_le _ _ hle]
    rfl
  next h =>
    have hz : ¬ 0 < num_frees.toNat := fun hlt => h (UInt8.lt_iff_toNat_lt.mpr hlt)
    omega

theorem mark_page_used_map (pager : Pager) (page_no : UInt16) :
    (mark_page_used pager page_no).free_page_map
      = ⟨count_down pager.free_page_map.num_frees,
          radix_tree_delete pager.free_page_map.tree page_no⟩ := by
  simp only [mark_page_used, pager_get_page_zero]
  split <;> rfl

theorem allocate_page_map (pager : Pager) (page_no : UInt16) (flag : UInt8) :
    (allocate_page pager page_no flag).2.free_page_map
      = ⟨count_down pager.free_page_map.num_frees,
          radix_tree_delete pager.free_page_map.tree page_no⟩ := by
  rw [allocate_page, mark_page_used_map, Pager.withMem_map]

theorem sync_free_page_list_map (pager : Pager) :
    (sync_free_page_list pager).2.free_page_map = pager.free_page_map := by
  simp only [sync_free_page_list, pager_get_page_zero]
  rfl

theorem next_new_page_eq (pager : Pager) : next_new_page pager = pager.highest_page + 1 := by
  simp only [next_new_page, pager_get_page_zero]
  rfl

/-- A tree without page 0 and without childless inner nodes. -/
structure TreeOk (tree : RadixTree) : Prop where
  wellFormed : WellFormed tree
  zero_notMem : 0 ∉ pages tree

theorem TreeOk.create : TreeOk radix_tree_create :=
  ⟨wellFormed_create, by simp⟩

theorem TreeOk.insert {tree : RadixTree} (h : TreeOk tree) {p : UInt16} (hp : p ≠ 0) :
    TreeOk (radix_tree_insert tree p) := by
  refine ⟨wellFormed_insert h.wellFormed p, ?_⟩
  rw [pages_insert, Finset.mem_insert]
  rintro (h0 | h0)
  · exact hp h0.symm
  · exact h.zero_notMem h0

theorem TreeOk.delete {tree : RadixTree} (h : TreeOk tree) {p : UInt16} (hp : p ≠ 0) :
    TreeOk (radix_tree_delete tree p) := by
  refine ⟨wellFormed_delete h.wellFormed p, ?_⟩
  rw [pages_delete tree hp]
  exact fun h0 => h.zero_notMem (Finset.mem_of_mem_erase h0)

theorem TreeOk.min'_ne_zero {tree : RadixTree} (h : TreeOk tree) (hne : (pages tree).Nonempty) :
    (pages tree).min' hne ≠ 0 :=
  fun h0 => h.zero_notMem (h0 ▸ Finset.min'_mem _ hne)

/-- Whatever the tree: the database grows and nothing changes, or a free page is taken. -/
theorem get_free_page_cases (pager : Pager) :
    get_free_page pager = (pager.highest_page + 1, pager)
    ∨ ∃ p ∈ pages pager.free_page_map.tree, p ≠ 0 ∧ (get_free_page pager).1 = p
      ∧ (get_free_page pager).2.free_page_map.tree = radix_tree_delete pager.free_page_map.tree p := by
  by_cases hpos : pager.free_page_map.num_frees > 0
  · cases hmin : min_path levels pager.free_page_map.tree.root 0 with
    | none =>
        left
        rw [get_free_page]
        simp only [if_pos hpos, radix_tree_pop_min, hmin]
        rw [if_neg (by decide), next_new_page_eq]
        rfl
    | some p =>
        by_cases h0 : p = 0
        · -- page 0 stands for none, and is never deleted
          left
          subst h0
          rw [get_free_page]
          simp only [if_pos hpos, radix_tree_pop_min, hmin, radix_tree_delete, if_true]
          rw [if_neg (by decide), next_new_page_eq]
          rfl
        · right
          refine ⟨p, mem_pages_of_min_path hmin, h0, ?_⟩
          rw [get_free_page]
          simp only [if_pos hpos, radix_tree_pop_min, hmin, if_pos (UInt16.pos_iff_ne_zero.mpr h0),
            pager_get_page_zero]
          exact ⟨trivial, rfl⟩
  · left
    rw [get_free_page, if_neg hpos, next_new_page_eq]

/-- Without a page to hand out nothing changes. -/
theorem get_free_page_zero {pager : Pager} (h : (get_free_page pager).1 = 0) :
    (get_free_page pager).2 = pager := by
  rcases get_free_page_cases pager with hgrow | ⟨p, -, h0, hnext, -⟩
  · rw [hgrow]
  · exact absurd (hnext.symm.trans h) h0

/-- The page handed out is free no longer; the others are as they were. -/
theorem insert_pages_get_free_page (pager : Pager) :
    insert (get_free_page pager).1 (pages (get_free_page pager).2.free_page_map.tree)
      = insert (get_free_page pager).1 (pages pager.free_page_map.tree) := by
  rcases get_free_page_cases pager with hgrow | ⟨p, hmem, hne, hnext, htree⟩
  · rw [hgrow]
  · rw [hnext, htree, pages_delete _ hne, Finset.insert_erase hmem, Finset.insert_eq_of_mem hmem]

section GetFreePage

variable {pager : Pager} (h : TreeOk pager.free_page_map.tree)

include h

/-- With a positive counter and a free page: the smallest one is taken. -/
theorem get_free_page_take (hpos : pager.free_page_map.num_frees > 0)
    (hne : (pages pager.free_page_map.tree).Nonempty) :
    (get_free_page pager).1 = (pages pager.free_page_map.tree).min' hne
    ∧ (get_free_page pager).2.free_page_map = ⟨pager.free_page_map.num_frees - 1,
        radix_tree_delete pager.free_page_map.tree ((pages pager.free_page_map.tree).min' hne)⟩ := by
  have hmin := UInt16.pos_iff_ne_zero.mpr (h.min'_ne_zero hne)
  simp only [get_free_page, if_pos hpos, radix_tree_pop_min_of_nonempty h.wellFormed hne,
    if_pos hmin, pager_get_page_zero]
  exact ⟨trivial, rfl⟩

omit h in
/-- With a zero counter or no free page: the database grows. -/
theorem get_free_page_grow
    (hgrow : pager.free_page_map.num_frees = 0 ∨ pages pager.free_page_map.tree = ∅) :
    get_free_page pager = (pager.highest_page + 1, pager) := by
  rw [get_free_page]
  by_cases hpos : pager.free_page_map.num_frees > 0
  · -- a positive counter over an empty tree: `pop_min` returns 0
    have hemp := hgrow.resolve_left (UInt8.pos_iff_ne_zero.mp hpos)
    simp only [if_pos hpos, radix_tree_pop_min_of_empty hemp]
    rw [if_neg (by decide), next_new_page_eq]
    rfl
  · rw [if_neg hpos, next_new_page_eq]

end GetFreePage

/-! ## §2. Agreement of the counter and the tree. -/

/-- The counter is the number of free pages, and `get_free_page` returns the smallest
of them, or grows the database when there is none. -/
structure FreePagesReused (pager : Pager) : Prop where
  counted : pager.free_page_map.num_frees.toNat = (pages pager.free_page_map.tree).card
  smallest : ∀ hne : (pages pager.free_page_map.tree).Nonempty,
    (get_free_page pager).1 = (pages pager.free_page_map.tree).min' hne
  grows : pages pager.free_page_map.tree = ∅ → (get_free_page pager).1 = pager.highest_page + 1

/-- What `get_free_page` returns follows from the count. -/
theorem freePagesReused_iff {pager : Pager} (h : TreeOk pager.free_page_map.tree) :
    FreePagesReused pager
      ↔ pager.free_page_map.num_frees.toNat = (pages pager.free_page_map.tree).card := by
  refine ⟨FreePagesReused.counted, fun hcount => ⟨hcount, fun hne => ?_, fun hemp => ?_⟩⟩
  · -- the counter is the number of free pages, so it is not 0
    have hpos : pager.free_page_map.num_frees > 0 := by
      rw [gt_iff_lt, UInt8.lt_iff_toNat_lt, hcount]
      exact hne.card_pos
    exact (get_free_page_take h hpos hne).1
  · rw [get_free_page_grow (Or.inr hemp)]

/-! ## §3. One step. -/

/-- A page that can be freed: neither the header page nor the last page number. -/
abbrev UserPage := { p : UInt16 // 1 ≤ p.toNat ∧ p.toNat ≤ 65534 }

theorem UserPage.ne_zero (p : UserPage) : p.1 ≠ 0 := by
  intro h
  have := p.2.1
  rw [h] at this
  exact absurd this (by decide)

inductive FreePageOp where
  | mark_page_free (page_no : UserPage)
  | mark_page_used (page_no : UserPage)
  | get_free_page
  | allocate_page (page_no : UserPage) (flag : UInt8)
  | sync_free_page_list

def FreePageOp.exec (pager : Pager) : FreePageOp → Pager
  | .mark_page_free p => Db.mark_page_free pager p
  | .mark_page_used p => Db.mark_page_used pager p
  | .get_free_page => (Db.get_free_page pager).2
  | .allocate_page p flag => (Db.allocate_page pager p flag).2
  | .sync_free_page_list => (Db.sync_free_page_list pager).2

/-- The calls that keep the count right: a page is freed only when it is not free and
fewer than 255 pages are, and a page is taken by number only when it is free or none is. -/
def FreePageOp.Keeps (pager : Pager) : FreePageOp → Prop
  | .mark_page_free p =>
      p.1 ∉ pages pager.free_page_map.tree ∧ (pages pager.free_page_map.tree).card < 255
  | .mark_page_used p | .allocate_page p _ =>
      p.1 ∈ pages pager.free_page_map.tree ∨ pages pager.free_page_map.tree = ∅
  | .get_free_page | .sync_free_page_list => True

theorem FreePageOp.treeOk_exec {pager : Pager} (h : TreeOk pager.free_page_map.tree)
    (op : FreePageOp) : TreeOk (op.exec pager).free_page_map.tree := by
  cases op with
  | mark_page_free p =>
      rw [exec, mark_page_free_map]
      exact h.insert p.ne_zero
  | mark_page_used p =>
      rw [exec, mark_page_used_map]
      exact h.delete p.ne_zero
  | allocate_page p flag =>
      rw [exec, allocate_page_map]
      exact h.delete p.ne_zero
  | sync_free_page_list =>
      rw [exec, sync_free_page_list_map]
      exact h
  | get_free_page =>
      rw [exec]
      by_cases hgrow : pager.free_page_map.num_frees = 0 ∨ pages pager.free_page_map.tree = ∅
      · rw [get_free_page_grow hgrow]
        exact h
      · -- the page taken is deleted from the tree
        obtain ⟨hpos, hemp⟩ := not_or.mp hgrow
        have hne := Finset.nonempty_iff_ne_empty.mpr hemp
        rw [(get_free_page_take h (UInt8.pos_iff_ne_zero.mpr hpos) hne).2]
        exact h.delete (h.min'_ne_zero hne)

/-- Counting an insertion with an 8-bit counter. -/
theorem count_insert_iff {n : UInt8} {S : Finset UInt16} (p : UInt16) (h : n.toNat = S.card) :
    (n + 1).toNat = (insert p S).card ↔ p ∉ S ∧ S.card < 255 := by
  have hlt : n.toNat < 256 := n.toNat_lt
  have hadd : (n + 1).toNat = (n.toNat + 1) % 256 := UInt8.toNat_add n 1
  rw [hadd, h]
  by_cases hp : p ∈ S
  · -- a page that was free is counted again
    rw [Finset.insert_eq_of_mem hp]
    simp only [hp, not_true, false_and, iff_false]
    omega
  · -- a new page is counted, up to the wrap at 256
    rw [Finset.card_insert_of_notMem hp]
    simp only [hp, not_false_iff, true_and]
    omega

/-- Counting a removal with a counter that stops at 0. -/
theorem count_erase_iff {n : UInt8} {S : Finset UInt16} (p : UInt16) (h : n.toNat = S.card) :
    (count_down n).toNat = (S.erase p).card ↔ p ∈ S ∨ S = ∅ := by
  rw [count_down_toNat, h, Finset.card_erase_eq_ite]
  by_cases hp : p ∈ S
  · -- a free page is counted off
    simp [hp]
  · -- any other page too, unless the counter is at 0
    have hzero : S = ∅ ↔ S.card = 0 := Finset.card_eq_zero.symm
    simp only [hp, if_false, false_or, hzero]
    omega

/-- Taking a page counts it off, and growing the database counts nothing. -/
theorem get_free_page_counted {pager : Pager} (h : TreeOk pager.free_page_map.tree)
    (hcount : pager.free_page_map.num_frees.toNat = (pages pager.free_page_map.tree).card) :
    (get_free_page pager).2.free_page_map.num_frees.toNat
      = (pages (get_free_page pager).2.free_page_map.tree).card := by
  -- with a right count, the counter is 0 exactly when the tree is empty
  rcases (pages pager.free_page_map.tree).eq_empty_or_nonempty with hemp | hne
  · rw [get_free_page_grow (Or.inr hemp)]
    exact hcount
  · have hpos : 0 < pager.free_page_map.num_frees := by
      rw [UInt8.lt_iff_toNat_lt, hcount]
      exact hne.card_pos
    have hdown : count_down pager.free_page_map.num_frees
        = pager.free_page_map.num_frees - 1 := if_pos hpos
    rw [(get_free_page_take h hpos hne).2, pages_delete _ (h.min'_ne_zero hne), ← hdown]
    exact (count_erase_iff _ hcount).mpr (Or.inl (Finset.min'_mem _ hne))

/-- **One call**, from a right count: it is right afterwards exactly when the call
meets its condition. -/
theorem FreePageOp.reused_exec_iff {pager : Pager} (h : TreeOk pager.free_page_map.tree)
    (hq : FreePagesReused pager) (op : FreePageOp) :
    FreePagesReused (op.exec pager) ↔ op.Keeps pager := by
  have hcount := hq.counted
  rw [freePagesReused_iff (op.treeOk_exec h)]
  cases op with
  | mark_page_free p =>
      rw [exec, mark_page_free_map, pages_insert]
      exact count_insert_iff p.1 hcount
  | mark_page_used p =>
      rw [exec, mark_page_used_map, pages_delete _ p.ne_zero]
      exact count_erase_iff p.1 hcount
  | allocate_page p flag =>
      rw [exec, allocate_page_map, pages_delete _ p.ne_zero]
      exact count_erase_iff p.1 hcount
  | sync_free_page_list =>
      rw [exec, sync_free_page_list_map]
      simp only [Keeps, iff_true]
      exact hcount
  | get_free_page =>
      simp only [exec, Keeps, iff_true]
      exact get_free_page_counted h hcount

/-! ## §4. Loading, and whole runs. -/

/-- The page numbers `init_free_page_map` loads: the entries of the list in the header,
zeros skipped. -/
def loaded_pages (pager : Pager) : List UInt16 :=
  (freelist_entries pager.mem (DatabaseHeader.free_page_list database_header)
    pager.free_page_count.toNat).filter (· ≠ 0)

theorem load_free_page_foldl (entries : List UInt16) : ∀ map : PageTracker, TreeOk map.tree →
    TreeOk (entries.foldl load_free_page map).tree
    ∧ pages (entries.foldl load_free_page map).tree
        = pages map.tree ∪ (entries.filter (· ≠ 0)).toFinset
    ∧ (entries.foldl load_free_page map).num_frees
        = map.num_frees + UInt8.ofNat (entries.filter (· ≠ 0)).length := by
  induction entries with
  | nil => intro map h; simp [h]
  | cons p entries ih =>
      intro map h
      by_cases hp : p = 0
      · -- a zero in the list is skipped
        subst hp
        simpa [load_free_page] using ih map h
      · have hload : load_free_page map p = ⟨map.num_frees + 1, radix_tree_insert map.tree p⟩ :=
          if_pos (UInt16.pos_iff_ne_zero.mpr hp)
        -- one entry more in the tree, and one more counted, twice or not
        obtain ⟨hok, hpages, hnum⟩ := ih (load_free_page map p) (hload ▸ h.insert hp)
        rw [List.foldl_cons]
        refine ⟨hok, ?_, ?_⟩
        · rw [hpages, hload, pages_insert]
          ext q
          simp [hp]
        · rw [hnum, hload]
          simp [hp, UInt8.add_assoc, UInt8.ofNat_add, UInt8.add_comm]

theorem init_free_page_map_spec (pager : Pager) :
    TreeOk (init_free_page_map pager).free_page_map.tree
    ∧ pages (init_free_page_map pager).free_page_map.tree = (loaded_pages pager).toFinset
    ∧ (init_free_page_map pager).free_page_map.num_frees.toNat
        = (loaded_pages pager).length % 256 := by
  obtain ⟨hok, hpages, hnum⟩ := load_free_page_foldl
    (freelist_entries pager.mem (DatabaseHeader.free_page_list database_header)
      pager.free_page_count.toNat) ⟨0, radix_tree_create⟩ TreeOk.create
  refine ⟨hok, hpages.trans ?_, (congrArg UInt8.toNat hnum).trans ?_⟩
  · rw [pages_create, Finset.empty_union]
    rfl
  · rw [UInt8.zero_add, UInt8.toNat_ofNat']
    rfl

/-- The list in the header loads to a right count. -/
def LoadsCounted (pager : Pager) : Prop :=
  (loaded_pages pager).length % 256 = (loaded_pages pager).toFinset.card

instance decidableLoadsCounted (pager : Pager) : Decidable (LoadsCounted pager) :=
  inferInstanceAs (Decidable (_ = _))

/-- **Free pages are reused** in every state of a run after loading exactly when the
loaded list is counted right and every call meets its condition. -/
theorem free_pages_reused_iff (pager : Pager) (ops : List FreePageOp) :
    Throughout FreePageOp.exec FreePagesReused (init_free_page_map pager) ops
      ↔ LoadsCounted pager
        ∧ EachStep FreePageOp.exec FreePageOp.Keeps (init_free_page_map pager) ops := by
  obtain ⟨hok, hpages, hnum⟩ := init_free_page_map_spec pager
  rw [throughout_iff_eachStep (I := fun pager => TreeOk pager.free_page_map.tree)
    (fun _ op h => op.treeOk_exec h) (fun _ op h hq => op.reused_exec_iff h hq) ops _ hok,
    freePagesReused_iff hok, hpages, hnum]
  rfl

/-- Pages 5 and 7 are freed, 5 is handed out and initialised: initialising it counts it
a second time, so page 7 is free but `get_free_page` returns the new page 6. -/
theorem free_page_not_reused :
    let ops : List FreePageOp :=
      [.mark_page_free ⟨5, by decide⟩, .mark_page_free ⟨7, by decide⟩, .get_free_page,
        .allocate_page ⟨5, by decide⟩ PAGE_DATA]
    let pager := ops.foldl FreePageOp.exec (init_free_page_map fresh_pager)
    LoadsCounted fresh_pager
    ∧ radix_tree_lookup pager.free_page_map.tree 7 = true
    ∧ pager.free_page_map.num_frees = 0
    ∧ (get_free_page pager).1 = 6
    ∧ ¬ FreePagesReused pager := by
  intro ops pager
  have hlook : radix_tree_lookup pager.free_page_map.tree 7 = true := by decide +kernel
  have hnum : pager.free_page_map.num_frees = 0 := by decide +kernel
  refine ⟨by decide +kernel, hlook, hnum, by decide +kernel, fun h => ?_⟩
  have hcount := h.counted
  rw [hnum] at hcount
  have hmem := ((radix_tree_lookup_iff _ _).mp hlook).2
  exact absurd (Finset.card_eq_zero.mp hcount.symm ▸ hmem) (Finset.notMem_empty _)

end PreSeQL.Db
