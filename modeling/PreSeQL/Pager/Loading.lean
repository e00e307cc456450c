/-
  PreSeQL.Pager.Loading — opening a file with any contents.

  `init_pager` loads the free pages from the header before anything has checked it: the
  count is taken as it stands in the file, and so is a list that names a page twice.

    • `ListOp.exec_actsOn` — the indices listed for an operation are those it uses,
    • `ListOp.indices_lt` — a count that fits keeps every later index in the array,
    • `counted_iff` — the pages loaded are counted right when none is listed twice,
    • `opens_safely_iff` — opening and every later operation, for any file.
-/
import PreSeQL.Pager.HeaderList
import PreSeQL.Pager.NewDb
import PreSeQL.Lib.Footprint

namespace PreSeQL.Db

open PreSeQL.Lib PreSeQL.Lib.Mem PreSeQL.Lib.Run PreSeQL.Radix

/-! ## §1. The indices of `free_page_list`. -/

/-- The indices `init_free_page_map` reads. -/
def init_free_page_map_indices (pager : Pager) : List Nat :=
  match pager_get_page pager 0 with
  | none => []
  | some header_page =>
      List.range
        (pager.mem.load16 (DatabaseHeader.free_page_count (DBPage.data header_page))).toNat

/-- The index `mark_page_free` writes. -/
def mark_page_free_indices (pager : Pager) : List Nat :=
  match pager_get_page pager 0 with
  | none => []
  | some header_page =>
      let count := pager.mem.load16 (DatabaseHeader.free_page_count (DBPage.data header_page))
      if count.toNat < FREE_PAGE_LIST_SIZE then [count.toNat] else []

/-- The inner loop of `get_free_page`: cell `j + 1` is read and cell `j` written. -/
def shift_free_list_indices (header : Nat) : Nat → Mem → Nat → List Nat
  | 0, _, _ => []
  | fuel + 1, m, j =>
      if j + 1 < (m.load16 (DatabaseHeader.free_page_count header)).toNat then
        let list := DatabaseHeader.free_page_list header
        (j + 1) :: j :: shift_free_list_indices header fuel
          (m.store16 (freelist_cell list j) (m.load16 (freelist_cell list (j + 1)))) (j + 1)
      else []

/-- The outer loop of `get_free_page`: cell `i` is compared. -/
def remove_from_free_list_indices (header : Nat) (page_no : UInt16) : Nat → Mem → Nat → List Nat
  | 0, _, _ => []
  | fuel + 1, m, i =>
      if i < (m.load16 (DatabaseHeader.free_page_count header)).toNat then
        if m.load16 (freelist_cell (DatabaseHeader.free_page_list header) i) = page_no then
          i :: shift_free_list_indices header (2 ^ 16) m i
        else i :: remove_from_free_list_indices header page_no fuel m (i + 1)
      else []

def get_free_page_indices (pager : Pager) : List Nat :=
  if pager.free_page_map.num_frees > 0 then
    let page_no := (radix_tree_pop_min pager.free_page_map.tree).1
    if page_no > 0 then
      match pager_get_page pager 0 with
      | none => []
      | some header_page =>
          remove_from_free_list_indices (DBPage.data header_page) page_no (2 ^ 16) pager.mem 0
    else []
  else []

/-- The callback of `radix_to_freelist`: the state is `count` and the indices so far. -/
def collect_pages_indices (max_size : Nat) (data : Nat × List Nat) (_page : UInt16) :
    Nat × List Nat :=
  if data.1 < max_size then (data.1 + 1, data.2 ++ [data.1]) else data

def sync_free_page_list_indices (pager : Pager) : List Nat :=
  match pager_get_page pager 0 with
  | none => []
  | some _ =>
      (radix_tree_walk pager.free_page_map.tree (collect_pages_indices FREE_PAGE_LIST_SIZE)
        (0, [])).2

/-! ## §2. The operations. -/

/-- What may follow, with any page numbers; only the initialisers need a page other
than 0, which they would overwrite. -/
inductive ListOp where
  | mark_page_free (page_no : UInt16)
  | mark_page_used (page_no : UInt16)
  | get_free_page
  | sync_free_page_list
  | allocate_page (page_no : UserPage) (flag : UInt8)

namespace ListOp

def exec (pager : Pager) : ListOp → Pager
  | mark_page_free p => Db.mark_page_free pager p
  | mark_page_used p => Db.mark_page_used pager p
  | get_free_page => (Db.get_free_page pager).2
  | sync_free_page_list => (Db.sync_free_page_list pager).2
  | allocate_page p flag => (Db.allocate_page pager p.1 flag).2

/-- The indices the operation uses. -/
def indices (pager : Pager) : ListOp → List Nat
  | mark_page_free _ => mark_page_free_indices pager
  | mark_page_used _ | allocate_page _ _ => []
  | get_free_page => get_free_page_indices pager
  | sync_free_page_list => sync_free_page_list_indices pager

end ListOp

/-! ## §3. The indices are those of the operations. -/

/-- The bytes of the cells with these indices, and of the two fields behind the list. -/
def list_bytes (header : Nat) (indices : List Nat) : Set Nat :=
  {a | DatabaseHeader.free_page_count header ≤ a ∧ a < DatabaseHeader.highest_page header + 2
    ∨ ∃ i ∈ indices, freelist_cell (DatabaseHeader.free_page_list header) i ≤ a
      ∧ a < freelist_cell (DatabaseHeader.free_page_list header) i + 2}

section

variable {header : Nat} {S : Set Nat} {indices : List Nat}

theorem count_bytes (h : list_bytes header indices ⊆ S) :
    Set.Ico (DatabaseHeader.free_page_count header) (DatabaseHeader.free_page_count header + 2)
      ⊆ S := by
  rintro a ⟨hlo, hhi⟩
  refine h (Or.inl ⟨hlo, ?_⟩)
  simp only [DatabaseHeader.free_page_count, DatabaseHeader.highest_page] at hhi ⊢
  omega

theorem cell_bytes (h : list_bytes header indices ⊆ S) {i : Nat} (hi : i ∈ indices) :
    Set.Ico (freelist_cell (DatabaseHeader.free_page_list header) i)
      (freelist_cell (DatabaseHeader.free_page_list header) i + 2) ⊆ S :=
  fun _ ha => h (Or.inr ⟨i, hi, ha.1, ha.2⟩)

theorem count_eqOn (h : list_bytes header indices ⊆ S) {m m' : Mem} (heq : Set.EqOn m' m S) :
    m'.load16 (DatabaseHeader.free_page_count header)
      = m.load16 (DatabaseHeader.free_page_count header) :=
  load16_eqOn heq (count_bytes h)

/-- Fewer cells are fewer bytes. -/
theorem list_bytes_sub {rest : List Nat} (h : list_bytes header indices ⊆ S)
    (hsub : ∀ i ∈ rest, i ∈ indices) : list_bytes header rest ⊆ S := by
  refine fun a ha => h (ha.imp_right ?_)
  rintro ⟨i, hi, hcell⟩
  exact ⟨i, hsub i hi, hcell⟩

theorem shift_free_list_actsOn (header : Nat) {S : Set Nat} (fuel : Nat) : ∀ (m : Mem) (j : Nat),
    list_bytes header (shift_free_list_indices header fuel m j) ⊆ S →
    ActsOn S (fun m => shift_free_list header fuel m j) m := by
  induction fuel with
  | zero => intro m j _; exact actsOn_id S m
  | succ fuel ih =>
      intro m j h
      have hcount := fun (m' : Mem) (heq : Set.EqOn m' m S) => count_eqOn h heq
      rw [shift_free_list_indices] at h
      split at h
      next hj =>
        have hstore := actsOn_store16 (m := m)
          (cell_bytes h (List.mem_cons_of_mem _ List.mem_cons_self))
          (m.load16 (freelist_cell (DatabaseHeader.free_page_list header) (j + 1)))
        have hrest := ih _ (j + 1) (list_bytes_sub h fun i hi =>
          List.mem_cons_of_mem _ (List.mem_cons_of_mem _ hi))
        refine (hstore.comp hrest).congr fun m' heq => ?_
        -- the value that is moved is the same
        have hload := load16_eqOn heq (cell_bytes h List.mem_cons_self)
        rw [shift_free_list, hcount m' heq, if_pos hj]
        simp only [hload]
      next hj =>
        refine (actsOn_id S m).congr fun m' heq => ?_
        rw [shift_free_list, hcount m' heq, if_neg hj]

theorem remove_from_free_list_actsOn (header : Nat) (page_no : UInt16) {S : Set Nat} {m : Mem}
    (fuel : Nat) : ∀ i,
    list_bytes header (remove_from_free_list_indices header page_no fuel m i) ⊆ S →
    ActsOn S (fun m => remove_from_free_list header page_no fuel m i) m := by
  induction fuel with
  | zero => intro i _; exact actsOn_id S m
  | succ fuel ih =>
      intro i h
      have hcount := fun (m' : Mem) (heq : Set.EqOn m' m S) => count_eqOn h heq
      rw [remove_from_free_list_indices] at h
      split at h
      next hi =>
        split at h
        next hfound =>
          have hshift := shift_free_list_actsOn header (2 ^ 16) m i
            (list_bytes_sub h fun k hk => List.mem_cons_of_mem _ hk)
          have hstore := actsOn_store16 (m := shift_free_list header (2 ^ 16) m i) (count_bytes h)
            ((shift_free_list header (2 ^ 16) m i).load16 (DatabaseHeader.free_page_count header) - 1)
          refine (hshift.comp hstore).congr fun m' heq => ?_
          -- the count that is lowered is the same
          have hlower := load16_eqOn (hshift m' heq).1 (count_bytes h)
          rw [remove_from_free_list, hcount m' heq, if_pos hi,
            load16_eqOn heq (cell_bytes h List.mem_cons_self), if_pos hfound]
          simp only [hlower]
        next hother =>
          refine (ih (i + 1) (list_bytes_sub h fun k hk => List.mem_cons_of_mem _ hk)).congr
            fun m' heq => ?_
          rw [remove_from_free_list, hcount m' heq, if_pos hi,
            load16_eqOn heq (cell_bytes h List.mem_cons_self), if_neg hother]
      next hi =>
        refine (actsOn_id S m).congr fun m' heq => ?_
        rw [remove_from_free_list, hcount m' heq, if_neg hi]

/-- The callback uses one cell after the other, from `count` on. -/
theorem mem_collect_pages_indices (max_size : Nat) (l : List UInt16) :
    ∀ (count : Nat) (indices : List Nat), ∀ i,
      i ∈ (l.foldl (collect_pages_indices max_size) (count, indices)).2
        ↔ i ∈ indices ∨ count ≤ i ∧ i < min (count + l.length) max_size := by
  induction l with
  | nil =>
      intro count indices i
      rw [List.foldl_nil, List.length_nil]
      exact (or_iff_left (by omega)).symm
  | cons page l ih =>
      intro count indices i
      rw [List.foldl_cons, collect_pages_indices, List.length_cons]
      split
      next hlt =>
        have hlt : count < max_size := hlt
        rw [ih, List.mem_append, List.mem_singleton, or_assoc]
        exact or_congr_right (by simp only; omega)
      next hfull =>
        have hfull : ¬ count < max_size := hfull
        rw [ih]
        exact or_congr_right (by omega)

theorem collect_pages_actsOn (freelist max_size : Nat) {S : Set Nat} (l : List UInt16) :
    ∀ (m : Mem) (count : Nat),
    (∀ i, count ≤ i → i < min (count + l.length) max_size →
      Set.Ico (freelist_cell freelist i) (freelist_cell freelist i + 2) ⊆ S) →
    ActsOn S (fun m => (l.foldl (collect_pages freelist max_size) (m, count)).1) m := by
  induction l with
  | nil => intro m count _; exact actsOn_id S m
  | cons page l ih =>
      intro m count h
      rw [List.length_cons] at h
      by_cases hlt : count < max_size
      · have hstore := actsOn_store16 (m := m) (h count (Nat.le_refl _) (by omega)) page
        have hrest := ih (m.store16 (freelist_cell freelist count) page) (count + 1)
          fun i hi hi' => h i (by omega) (by omega)
        refine (hstore.comp hrest).congr fun m' _ => ?_
        simp only [List.foldl_cons, collect_pages, if_pos hlt]
      · refine (ih m count fun i hi hi' => h i hi (by omega)).congr fun m' _ => ?_
        simp only [List.foldl_cons, collect_pages, if_neg hlt]

/-- The header of a new page does not depend on what was there. -/
theorem allocate_page_header_actsOn {page : Nat}
    (h : Set.Ico page (page + DBPage.sizeof) ⊆ S) (page_no : UInt16) (flag : UInt8) (m : Mem) :
    ActsOn S (fun m => allocate_page_header m page page_no flag) m := by
  have hfield : ∀ {a n : Nat}, page ≤ a → a + n ≤ page + DBPage.sizeof →
      Set.Ico a (a + n) ⊆ S :=
    fun hlo hhi => (Set.Ico_subset_Ico hlo hhi).trans h
  have hclear := actsOn_memset (m := m) h 0
  have hpage_id := hclear.comp (actsOn_store16 (a := DBPageHeader.page_id page)
    (hfield (by simp) (by simp)) page_no)
  have href := hpage_id.comp (actsOn_store16 (a := DBPageHeader.ref_counter page)
    (hfield (by simp) (by simp)) 1)
  have hflag := href.comp (actsOn_store8 (a := DBPageHeader.flag page)
    (hfield (by simp) (by simp)) flag)
  have hstart := hflag.comp (actsOn_store16 (a := DBPageHeader.free_start page)
    (hfield (by simp) (by simp)) (UInt16.ofNat DBPageHeader.sizeof))
  have hend := hstart.comp (actsOn_store16 (a := DBPageHeader.free_end page)
    (hfield (by simp) (by simp)) (UInt16.ofNat MAX_USABLE_PAGE_SIZE))
  have htotal := hend.comp (actsOn_store16 (a := DBPageHeader.free_total page)
    (hfield (by simp) (by simp)) (UInt16.ofNat (MAX_USABLE_PAGE_SIZE - DBPageHeader.sizeof)))
  have hslots := htotal.comp (actsOn_store8 (a := DBPageHeader.total_slots page)
    (hfield (by simp) (by simp)) 0)
  have hhighest := hslots.comp (actsOn_store8 (a := DBPageHeader.highest_slot page)
    (hfield (by simp) (by simp)) 0)
  exact hhighest.comp (actsOn_store8 (a := DBPageHeader.free_slot_count page)
    (hfield (by simp) (by simp)) 0)

end

section

variable {pager : Pager} {S : Set Nat}

theorem mark_page_used_actsOn (h : list_bytes database_header [] ⊆ S) (page_no : UInt16) (m : Mem) :
    ActsOn S (fun m => (mark_page_used (pager.withMem m) page_no).mem) m := by
  have hhigh : Set.Ico (DatabaseHeader.highest_page database_header)
      (DatabaseHeader.highest_page database_header + 2) ⊆ S := by
    rintro a ⟨hlo, hhi⟩
    refine h (Or.inl ⟨?_, hhi⟩)
    simp only [DatabaseHeader.free_page_count, DatabaseHeader.highest_page] at hlo ⊢
    omega
  have hload : ∀ m' : Mem, Set.EqOn m' m S →
      (pager.withMem m').highest_page = (pager.withMem m).highest_page :=
    fun m' heq => load16_eqOn heq hhigh
  by_cases hlt : page_no > (pager.withMem m).highest_page
  · refine (actsOn_store16 hhigh page_no).congr fun m' heq => ?_
    rw [mark_page_used_mem, hload m' heq, if_pos hlt]
    rfl
  · refine (actsOn_id S m).congr fun m' heq => ?_
    rw [mark_page_used_mem, hload m' heq, if_neg hlt]
    rfl

theorem mark_page_free_actsOn (page_no : UInt16)
    (h : list_bytes database_header (mark_page_free_indices pager) ⊆ S) :
    ActsOn S (fun m => (mark_page_free (pager.withMem m) page_no).mem) pager.mem := by
  have hload : ∀ m' : Mem, Set.EqOn m' pager.mem S →
      (pager.withMem m').free_page_count = pager.free_page_count :=
    fun m' heq => count_eqOn h heq
  have hindices : mark_page_free_indices pager
      = if pager.free_page_count.toNat < FREE_PAGE_LIST_SIZE then [pager.free_page_count.toNat]
        else [] := rfl
  by_cases hlt : pager.free_page_count.toNat < FREE_PAGE_LIST_SIZE
  · rw [hindices, if_pos hlt] at h
    have hcell := actsOn_store16 (m := pager.mem) (cell_bytes h (List.mem_singleton_self _)) page_no
    refine (hcell.comp (actsOn_store16 (count_bytes h) (pager.free_page_count + 1))).congr
      fun m' heq => ?_
    rw [mark_page_free_mem, hload m' heq, if_pos hlt]
    rfl
  · refine (actsOn_id S pager.mem).congr fun m' heq => ?_
    rw [mark_page_free_mem, hload m' heq, if_neg hlt]
    rfl

theorem get_free_page_actsOn
    (h : list_bytes database_header (get_free_page_indices pager) ⊆ S) :
    ActsOn S (fun m => (get_free_page (pager.withMem m)).2.mem) pager.mem := by
  unfold get_free_page_indices at h
  rw [radix_tree_pop_min_fst] at h
  by_cases htake : pager.free_page_map.num_frees > 0
      ∧ radix_tree_peek_min pager.free_page_map.tree > 0
  · simp only [pager_get_page_zero] at h
    rw [if_pos htake.1, if_pos htake.2] at h
    refine (remove_from_free_list_actsOn _ _ _ 0 h).congr fun m' _ => ?_
    rw [get_free_page_mem]
    exact if_pos htake
  · refine (actsOn_id S pager.mem).congr fun m' _ => ?_
    rw [get_free_page_mem]
    exact if_neg htake

theorem sync_free_page_list_actsOn
    (h : list_bytes database_header (sync_free_page_list_indices pager) ⊆ S) :
    ActsOn S (fun m => (sync_free_page_list (pager.withMem m)).2.mem) pager.mem := by
  have hindices : ∀ i, i ∈ sync_free_page_list_indices pager
      ↔ i < min (sorted_pages pager.free_page_map.tree).length FREE_PAGE_LIST_SIZE := by
    intro i
    simp only [sync_free_page_list_indices, pager_get_page_zero, radix_tree_walk_eq,
      mem_collect_pages_indices]
    simp
  have hclear := actsOn_store16 (m := pager.mem) (count_bytes h) 0
  have hcollect := collect_pages_actsOn (DatabaseHeader.free_page_list database_header)
    FREE_PAGE_LIST_SIZE (S := S) (sorted_pages pager.free_page_map.tree)
    (pager.mem.store16 (DatabaseHeader.free_page_count database_header) 0) 0
    fun i _ hi => cell_bytes h ((hindices i).mpr (by rwa [Nat.zero_add] at hi))
  -- the number of pages does not depend on the memory
  have hcount : ∀ m : Mem, (radix_to_freelist m pager.free_page_map.tree
      (DatabaseHeader.free_page_list database_header) FREE_PAGE_LIST_SIZE).2
      = min (pages pager.free_page_map.tree).card FREE_PAGE_LIST_SIZE :=
    fun m => (radix_to_freelist_spec m _ _ _).1
  refine ((hclear.comp hcollect).comp (actsOn_store16 (count_bytes h) (UInt16.ofNat
    (min (pages pager.free_page_map.tree).card FREE_PAGE_LIST_SIZE)))).congr fun m' _ => ?_
  have hwalk : ∀ m : Mem, ((sorted_pages pager.free_page_map.tree).foldl
      (collect_pages (DatabaseHeader.free_page_list database_header) FREE_PAGE_LIST_SIZE) (m, 0)).1
      = (radix_to_freelist m pager.free_page_map.tree
          (DatabaseHeader.free_page_list database_header) FREE_PAGE_LIST_SIZE).1 := by
    intro m
    rw [radix_to_freelist, radix_tree_walk_eq]
  rw [hwalk, ← hcount (Mem.store16 m' (DatabaseHeader.free_page_count database_header) 0)]
  simp only [sync_free_page_list, pager_get_page_zero, Pager.withMem_mem, Pager.withMem_map,
    database_header]

end

/-- The bytes an operation uses: those of the list, and for an initialiser its page. -/
def ListOp.bytes (pager : Pager) (op : ListOp) : Set Nat :=
  list_bytes database_header (op.indices pager) ∪
    match op with
    | allocate_page p _ => Set.Ico (p.1.toNat * PAGE_SIZE) (p.1.toNat * PAGE_SIZE + DBPage.sizeof)
    | _ => ∅

/-- **The listed indices are those of the operation**: no other cell is read or written. -/
theorem ListOp.exec_actsOn (pager : Pager) (op : ListOp) :
    ActsOn (op.bytes pager) (fun m => (op.exec (pager.withMem m)).mem) pager.mem := by
  have hlist : list_bytes database_header (op.indices pager) ⊆ op.bytes pager :=
    Set.subset_union_left
  cases op with
  | mark_page_free p => exact mark_page_free_actsOn p hlist
  | mark_page_used p => exact mark_page_used_actsOn hlist p pager.mem
  | get_free_page => exact get_free_page_actsOn hlist
  | sync_free_page_list => exact sync_free_page_list_actsOn hlist
  | allocate_page p flag =>
      exact (allocate_page_header_actsOn Set.subset_union_right p.1 flag pager.mem).comp
        (mark_page_used_actsOn hlist p.1 _)

/-- Loading reads the cells with its indices, in order, and writes none. -/
theorem init_free_page_map_loads (pager : Pager) :
    init_free_page_map pager = pager.withMap
      (((init_free_page_map_indices pager).map fun i =>
        pager.mem.load16 (freelist_cell (DatabaseHeader.free_page_list database_header) i)).foldl
          load_free_page ⟨0, radix_tree_create⟩) := rfl

/-! ## §4. Operations after loading. -/

/-- Every index is in the array. -/
abbrev InList (indices : List Nat) : Prop := ∀ i ∈ indices, i < FREE_PAGE_LIST_SIZE

theorem inList_nil : InList [] := fun _ hi => nomatch hi

theorem shift_free_list_inList (header fuel : Nat) : ∀ (m : Mem) (j : Nat),
    (m.load16 (DatabaseHeader.free_page_count header)).toNat ≤ FREE_PAGE_LIST_SIZE →
    InList (shift_free_list_indices header fuel m j) := by
  induction fuel with
  | zero => intro m j _; exact inList_nil
  | succ fuel ih =>
      intro m j hcount
      rw [shift_free_list_indices]
      split
      next hj =>
        have hnext : j + 1 < FREE_PAGE_LIST_SIZE := Nat.lt_of_lt_of_le hj hcount
        have hhere : j < FREE_PAGE_LIST_SIZE := Nat.lt_of_succ_lt hnext
        -- the count is as before in the next round
        refine List.forall_mem_cons.mpr ⟨hnext, List.forall_mem_cons.mpr ⟨hhere, ih _ (j + 1) ?_⟩⟩
        rwa [count_store_cell m header hhere]
      next => exact inList_nil

theorem remove_from_free_list_inList (header : Nat) (page_no : UInt16) {m : Mem} (fuel : Nat)
    (hcount : (m.load16 (DatabaseHeader.free_page_count header)).toNat ≤ FREE_PAGE_LIST_SIZE) :
    ∀ i, InList (remove_from_free_list_indices header page_no fuel m i) := by
  induction fuel with
  | zero => intro i; exact inList_nil
  | succ fuel ih =>
      intro i
      rw [remove_from_free_list_indices]
      split
      next hi =>
        have hhere : i < FREE_PAGE_LIST_SIZE := Nat.lt_of_lt_of_le hi hcount
        split
        next =>
          exact List.forall_mem_cons.mpr ⟨hhere, shift_free_list_inList header (2 ^ 16) m i hcount⟩
        next => exact List.forall_mem_cons.mpr ⟨hhere, ih (i + 1)⟩
      next => exact inList_nil

/-- The callback checks its index, whatever the count. -/
theorem sync_free_page_list_inList (pager : Pager) :
    InList (sync_free_page_list_indices pager) := by
  refine walk_radix_induction (P := fun data : Nat × List Nat => InList data.2) ?_
    levels pager.free_page_map.tree.root 0 (0, []) inList_nil
  rintro ⟨count, indices⟩ page h
  unfold collect_pages_indices
  split
  next hlt => exact List.forall_mem_append.mpr ⟨h, List.forall_mem_singleton.mpr hlt⟩
  next => exact h

/-- **Every index is in the array** while the count fits. -/
theorem ListOp.indices_lt {pager : Pager} (h : pager.ListFits) (op : ListOp) :
    InList (op.indices pager) := by
  cases op with
  | mark_page_free p =>
      simp only [indices, mark_page_free_indices, pager_get_page_zero]
      split
      next hlt => exact List.forall_mem_singleton.mpr hlt
      next => exact inList_nil
  | mark_page_used p => exact inList_nil
  | allocate_page p flag => exact inList_nil
  | get_free_page =>
      simp only [indices, get_free_page_indices, pager_get_page_zero]
      split
      · split
        · exact remove_from_free_list_inList database_header _ (2 ^ 16) h 0
        · exact inList_nil
      · exact inList_nil
  | sync_free_page_list => exact sync_free_page_list_inList pager

theorem ListOp.listFits_exec {pager : Pager} (h : pager.ListFits) (op : ListOp) :
    (op.exec pager).ListFits := by
  cases op with
  | mark_page_free p => exact (mark_page_free_header pager p h).2
  | mark_page_used p =>
      unfold Pager.ListFits
      rw [exec, (mark_page_used_header pager p).2]
      exact h
  | get_free_page => exact (get_free_page_header pager h).2
  | sync_free_page_list => exact (sync_free_page_list_spec pager).2.1
  | allocate_page p flag =>
      unfold Pager.ListFits
      rw [exec, (allocate_page_header_spec pager p.ne_zero flag).2]
      exact h

/-! ## §5. Opening. -/

/-- Opening a file, and the operations after it. -/
structure OpensSafely (bytes : Mem) (length : Nat) (ops : List ListOp) : Prop where
  loads : InList (init_free_page_map_indices (opened_pager bytes length))
  counted : (init_free_page_map (opened_pager bytes length)).free_page_map.num_frees.toNat
    = (pages (init_free_page_map (opened_pager bytes length)).free_page_map.tree).card
  later : ∀ sys pager, init_pager sys bytes length = some pager →
    EachStep ListOp.exec (fun pager op => InList (op.indices pager)) pager ops

/-- Loading stays in the array when the count fits. -/
theorem loads_iff (pager : Pager) :
    InList (init_free_page_map_indices pager) ↔ pager.ListFits := by
  have hindices : init_free_page_map_indices pager = List.range pager.free_page_count.toNat := rfl
  rw [hindices]
  constructor
  · intro h
    by_contra hmore
    have hlast : FREE_PAGE_LIST_SIZE ∈ List.range pager.free_page_count.toNat :=
      List.mem_range.mpr (Nat.not_le.mp hmore)
    exact Nat.lt_irrefl _ (h _ hlast)
  · intro h i hi
    exact Nat.lt_of_lt_of_le (List.mem_range.mp hi) h

/-- The pages loaded are counted right when none is listed twice. -/
theorem counted_iff {pager : Pager} (h : pager.ListFits) :
    (init_free_page_map pager).free_page_map.num_frees.toNat
        = (pages (init_free_page_map pager).free_page_map.tree).card
      ↔ (loaded_pages pager).Nodup := by
  obtain ⟨-, hpages, hnum⟩ := init_free_page_map_spec pager
  have hshort : (loaded_pages pager).length ≤ FREE_PAGE_LIST_SIZE :=
    calc (loaded_pages pager).length ≤ _ := List.length_filter_le _ _
      _ = pager.free_page_count.toNat := length_freelist_entries _ _ _
      _ ≤ FREE_PAGE_LIST_SIZE := h
  rw [hnum, hpages, Nat.mod_eq_of_lt (Nat.lt_of_le_of_lt hshort (by decide))]
  exact ⟨fun heq => Multiset.toFinset_card_eq_card_iff_nodup.mp heq.symm,
    fun hnodup => (List.toFinset_card_of_nodup hnodup).symm⟩

/-- **Opening is safe**, for whatever comes later, exactly when the count in the header
fits and no page is listed twice. -/
theorem opens_safely_iff (bytes : Mem) (length : Nat) (ops : List ListOp) :
    OpensSafely bytes length ops
      ↔ (opened_pager bytes length).ListFits ∧ (loaded_pages (opened_pager bytes length)).Nodup := by
  constructor
  · intro h
    have hfits := (loads_iff _).mp h.loads
    exact ⟨hfits, (counted_iff hfits).mp h.counted⟩
  · rintro ⟨hfits, hnodup⟩
    refine ⟨(loads_iff _).mpr hfits, (counted_iff hfits).mpr hnodup, fun sys pager hopen => ?_⟩
    rw [init_pager_eq_some hopen]
    exact eachStep_of_kept (I := Pager.ListFits) (G := fun _ _ => True)
      (fun _ op h _ => op.listFits_exec h) (fun _ op h _ => op.indices_lt h) ops _ hfits
      ((eachStep_iff_forall ops _).mpr fun _ _ => trivial)

/-- A file of zeros but for the count and the first two cells of the list. -/
def corrupt_file (count first second : UInt16) : Mem :=
  let list := DatabaseHeader.free_page_list database_header
  let m : Mem := fun _ => 0
  let m := m.store16 (freelist_cell list 0) first
  let m := m.store16 (freelist_cell list 1) second
  m.store16 (DatabaseHeader.free_page_count database_header) count

/-- A count of 33 reads the cell behind the array; page 5 listed twice is counted twice. -/
theorem opens_unsafely :
    32 ∈ init_free_page_map_indices (opened_pager (corrupt_file 33 0 0) PAGE_SIZE)
    ∧ (init_free_page_map (opened_pager (corrupt_file 2 5 5) PAGE_SIZE)).free_page_map.num_frees = 2
    ∧ pages (init_free_page_map (opened_pager (corrupt_file 2 5 5) PAGE_SIZE)).free_page_map.tree
      = {5}
    ∧ ¬ OpensSafely (corrupt_file 33 0 0) PAGE_SIZE []
    ∧ ¬ OpensSafely (corrupt_file 2 5 5) PAGE_SIZE [] := by
  have hbehind : 32 ∈ init_free_page_map_indices (opened_pager (corrupt_file 33 0 0) PAGE_SIZE) := by
    decide +kernel
  have htwice : (init_free_page_map
      (opened_pager (corrupt_file 2 5 5) PAGE_SIZE)).free_page_map.num_frees = 2 := by
    decide +kernel
  have hone : pages (init_free_page_map
      (opened_pager (corrupt_file 2 5 5) PAGE_SIZE)).free_page_map.tree = {5} := by
    rw [(init_free_page_map_spec _).2.1]
    decide +kernel
  refine ⟨hbehind, htwice, hone, fun h => ?_, fun h => ?_⟩
  · exact absurd (h.loads 32 hbehind) (by decide)
  · have hcounted := h.counted
    rw [htwice, hone] at hcounted
    exact absurd hcounted (by decide)

end PreSeQL.Db
