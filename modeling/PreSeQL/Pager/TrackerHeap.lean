/-
  PreSeQL.Pager.TrackerHeap — the page tracker's memory (`pager.c`).

  `init_free_page_map` allocates a `PageTracker` and assigns `*radix_tree_create()` to the
  tree inside it: a copy of the struct, whose own block nobody refers to any more.
  `pager_close_db` then calls `radix_tree_destroy` on the copy, whose last line passes the
  address of a field to `free`.  Here is what that means for every run: until the close
  everything is in order (`Keeps`), and no close gets past the call.

  What the functions do to the header page is in `Pager.lean`; here they do what concerns the
  tracker.
-/
import PreSeQL.Algorithm.RadixProgram
import PreSeQL.Pager.FreePages

namespace PreSeQL.TrackerHeap

open PreSeQL.Lib PreSeQL.Allocator PreSeQL.RadixHeap
open PreSeQL.Db (PageTracker count_down FREE_PAGE_LIST_SIZE)

/-! ## §1. The functions. -/

/-- `sizeof(PageTracker)` -/
abbrev TRACKER_SIZE : Nat := 152

/-- Address of `map->num_frees`. -/
def num_frees_at (map : Nat) : Nat := map

/-- Address of `map->tree`. -/
def tree_at (map : Nat) : Nat := map + 8

/-- `*dst = *src` for `n` bytes. -/
def assign (h : Heap) (dst src n : Nat) : Checked Heap :=
  if h.Valid dst n ∧ h.Valid src n then .ok (h.setMem (h.mem.memmove dst src n))
  else .error .invalid

/-- `init_free_page_map` up to the loop: the tracker's address, 0 when it returns early. -/
def init_tracker (M : Malloc) (h : Heap) : Checked (Nat × Heap) :=
  let (map, h) := h.malloc M TRACKER_SIZE
  if map = 0 then .ok (0, h)
  else do
    let h ← h.store (num_frees_at map) 1 0
    let (tree, h) ← radix_tree_create M h
    let h ← assign h (tree_at map) tree TREE_SIZE
    return (map, h)

/-- The tracker's part of `mark_page_free`, and the body of the loop of `init_free_page_map`. -/
def mark_page_free (M : Malloc) (h : Heap) (map : Nat) (page_no : UInt16) : Checked Heap := do
  let h ← radix_tree_insert M h (tree_at map) page_no
  let n ← h.load (num_frees_at map) 1
  h.store (num_frees_at map) 1 (n + 1)

def mark_page_used (h : Heap) (map : Nat) (page_no : UInt16) : Checked Heap := do
  let h ← radix_tree_delete h (tree_at map) page_no
  let n ← h.load (num_frees_at map) 1
  if n > 0 then h.store (num_frees_at map) 1 (n - 1) else return h

/-- The tracker's part of `get_free_page`: the page, 0 when there is none. -/
def get_free_page (h : Heap) (map : Nat) : Checked (UInt16 × Heap) := do
  let n ← h.load (num_frees_at map) 1
  if n > 0 then do
    let (page_no, h) ← radix_tree_pop_min h (tree_at map)
    if page_no > 0 then do
      let h ← h.store (num_frees_at map) 1 (n - 1)
      return (page_no, h)
    else return (0, h)
  else return (0, h)

/-- The tracker's part of `sync_free_page_list`; `list` is the header's `free_page_list`. -/
def sync_tracker (h : Heap) (map list : Nat) : Checked Heap := do
  let (h, _) ← radix_to_freelist h (tree_at map) list FREE_PAGE_LIST_SIZE
  return h

/-- The first two lines of "Free resources" in `pager_close_db`. -/
def release_tracker (h : Heap) (map : Nat) : Checked Heap := do
  let h ← radix_tree_destroy h (tree_at map)
  h.free map

/-- The tracker's part of `pager_close_db`. -/
def close_tracker (h : Heap) (map list : Nat) : Checked Heap := do
  let h ← sync_tracker h map list
  release_tracker h map

/-! ## §2. The tracker as a value. -/

/-- The heap holds the tracker `t` at `map`; `base` are the other blocks, with the contents
`m`. -/
def Keeps (base : List Block) (m : Mem) (h : Heap) (map : Nat) (t : PageTracker) : Prop :=
  ∃ client, Holding ⟨map, TRACKER_SIZE⟩ base client h (tree_at map) t.tree
    ∧ client (num_frees_at map) = t.num_frees ∧ ∀ b ∈ base, ∀ i, b.Holds i 1 → client i = m i

/-- The counter is outside the tree. -/
theorem mine_num_frees (base : List Block) (map : Nat) :
    Mine ⟨map, TRACKER_SIZE⟩ base (tree_at map) ⟨num_frees_at map, 1⟩ := by
  right
  simp only [Block.Holds, Block.Disjoint, num_frees_at, tree_at, TRACKER_SIZE, TREE_SIZE]
  omega

theorem num_frees_holds (map : Nat) :
    (⟨num_frees_at map, 1⟩ : Block).Holds (num_frees_at map) 1 :=
  ⟨Nat.le_refl _, Nat.le_refl _⟩

theorem toNat_pos {n : UInt8} : n.toNat > 0 ↔ n > 0 :=
  (UInt8.lt_iff_toNat_lt (a := 0) (b := n)).symm

theorem ofNat_pred {n : UInt8} (h : n > 0) : UInt8.ofNat (n.toNat - 1) = n - 1 := by
  have hpos : 0 < n.toNat := toNat_pos.mpr h
  have hle : (1 : UInt8) ≤ n := UInt8.le_iff_toNat_le.mpr hpos
  rw [← UInt8.toNat_inj, UInt8.toNat_sub_of_le _ _ hle, UInt8.toNat_ofNat']
  have hlt := n.toNat_lt
  exact Nat.mod_eq_of_lt (by omega)

namespace Keeps

variable {base : List Block} {m : Mem} {h : Heap} {map : Nat} {t : PageTracker}
  (k : Keeps base m h map t)

include k

theorem load_num_frees : h.load (num_frees_at map) 1 = .ok t.num_frees.toNat := by
  obtain ⟨client, hT, hn, -⟩ := k
  rw [hT.read (mine_num_frees base map) (num_frees_holds map), load_byte, hn]

/-- The tracker is in none of the other blocks. -/
theorem num_frees_base {b : Block} (hb : b ∈ base) : ¬ b.Holds (num_frees_at map) 1 := by
  obtain ⟨client, hT, -⟩ := k
  obtain ⟨A, s, ps, g⟩ := hT.grown
  have hpairwise := (g.live.pairwise_iff fun h => h.symm).mp h.apart
  have hdisjoint := ((List.pairwise_cons.mp (List.pairwise_append.mp hpairwise).2.1).1 b hb).2
  simp only [Block.Disjoint, Block.Holds, num_frees_at, TRACKER_SIZE] at hdisjoint ⊢
  omega

theorem store_num_frees (n : Nat) : ∃ h', h.store (num_frees_at map) 1 n = .ok h'
    ∧ h'.live = h.live ∧ Keeps base m h' map ⟨UInt8.ofNat n, t.tree⟩ := by
  have hapart := fun b (hb : b ∈ base) => k.num_frees_base hb
  obtain ⟨client, hT, -, hm⟩ := k
  obtain ⟨hrun, hT'⟩ := hT.write (mine_num_frees base map) (num_frees_holds map) n
  refine ⟨_, hrun, rfl, client.store (num_frees_at map) 1 n, hT', ?_, fun b hb i hi => ?_⟩
  · rw [Mem.store, Mem.fill_inside _ _ (Nat.le_refl _) (Nat.lt_succ_self _), Nat.sub_self,
      Nat.pow_zero, Nat.div_one]
  · rw [← hm b hb i hi, Mem.store, Mem.fill_outside]
    have hne : i ≠ num_frees_at map := fun heq => hapart b hb (heq ▸ hi)
    omega

theorem mark_page_free (M : Malloc) (page_no : UInt16) :
    Safe (M.address h.live REGION_SIZE = 0) (TrackerHeap.mark_page_free M h map page_no) fun h' =>
      Keeps base m h' map ⟨t.num_frees + 1, Radix.radix_tree_insert t.tree page_no⟩ := by
  obtain ⟨client, hT, hn, hm⟩ := k
  refine Safe.bind (hT.insert M page_no) fun h₁ hT₁ => ?_
  have k₁ : Keeps base m h₁ map ⟨t.num_frees, Radix.radix_tree_insert t.tree page_no⟩ :=
    ⟨client, hT₁, hn, hm⟩
  obtain ⟨h', hrun, -, k'⟩ := k₁.store_num_frees (t.num_frees.toNat + 1)
  rw [k₁.load_num_frees, ok_bind, hrun]
  have hcount : UInt8.ofNat (t.num_frees.toNat + 1) = t.num_frees + 1 := by
    rw [UInt8.ofNat_add, UInt8.ofNat_toNat]
    rfl
  rw [hcount] at k'
  exact k'

theorem mark_page_used (page_no : UInt16) :
    ∃ h', TrackerHeap.mark_page_used h map page_no = .ok h' ∧ h'.live = h.live
      ∧ Keeps base m h' map
        ⟨count_down t.num_frees, Radix.radix_tree_delete t.tree page_no⟩ := by
  obtain ⟨client, hT, hn, hm⟩ := k
  obtain ⟨m₁, hdelete, hT₁⟩ := hT.delete page_no
  have k₁ : Keeps base m (h.setMem m₁) map ⟨t.num_frees, Radix.radix_tree_delete t.tree page_no⟩ :=
    ⟨client, hT₁, hn, hm⟩
  simp only [TrackerHeap.mark_page_used, hdelete, k₁.load_num_frees, ok_bind, count_down]
  by_cases hpos : t.num_frees > 0
  · obtain ⟨h', hrun, hlive, k'⟩ := k₁.store_num_frees (t.num_frees.toNat - 1)
    rw [if_pos (toNat_pos.mpr hpos), if_pos hpos, ← ofNat_pred hpos]
    exact ⟨h', hrun, hlive, k'⟩
  · rw [if_neg fun hlt => hpos (toNat_pos.mp hlt), if_neg hpos]
    exact ⟨_, rfl, rfl, k₁⟩

theorem used_of_ok {page_no : UInt16} {h' : Heap}
    (hrun : TrackerHeap.mark_page_used h map page_no = .ok h') :
    Keeps base m h' map ⟨count_down t.num_frees, Radix.radix_tree_delete t.tree page_no⟩ := by
  obtain ⟨h₁, hrun₁, -, k'⟩ := k.mark_page_used page_no
  rw [hrun] at hrun₁
  cases hrun₁
  exact k'

omit k in
/-- The page that `get_free_page` takes out of the tracker, and the tracker afterwards, are those of
the pager `pager`. -/
theorem get_free_page {pager : Db.Pager} (k : Keeps base m h map pager.free_page_map) :
    ∃ page_no h', TrackerHeap.get_free_page h map = .ok (page_no, h') ∧ h'.live = h.live
      ∧ (Db.get_free_page pager).1 = (if page_no = 0 then Db.next_new_page pager else page_no)
      ∧ Keeps base m h' map (Db.get_free_page pager).2.free_page_map := by
  have hload := k.load_num_frees
  simp only [TrackerHeap.get_free_page, hload, ok_bind]
  by_cases hpos : pager.free_page_map.num_frees > 0
  · obtain ⟨client, hT, hn, hm⟩ := k
    obtain ⟨m₁, hpop, hT₁⟩ := hT.pop_min
    have k₁ : Keeps base m (h.setMem m₁) map ⟨pager.free_page_map.num_frees,
      (Radix.radix_tree_pop_min pager.free_page_map.tree).2⟩ := ⟨client, hT₁, hn, hm⟩
    rw [if_pos (toNat_pos.mpr hpos), hpop, ok_bind, Db.get_free_page]
    simp only [if_pos hpos]
    by_cases hpage : (Radix.radix_tree_pop_min pager.free_page_map.tree).1 > 0
    · obtain ⟨h', hrun, hlive, k'⟩ :=
        k₁.store_num_frees (pager.free_page_map.num_frees.toNat - 1)
      rw [ofNat_pred hpos] at k'
      simp only [if_pos hpage, hrun, ok_bind, Db.pager_get_page_zero]
      exact ⟨_, h', rfl, hlive, (if_neg (UInt16.pos_iff_ne_zero.mp hpage)).symm, k'⟩
    · simp only [if_neg hpage]
      exact ⟨_, _, rfl, rfl, (if_pos rfl).symm, k₁⟩
  · rw [if_neg fun hlt => hpos (toNat_pos.mp hlt), Db.get_free_page, if_neg hpos]
    exact ⟨0, h, rfl, rfl, (if_pos rfl).symm, k⟩

/-- The program writes into one of the other blocks. -/
theorem write {b : Block} (hb : b ∈ base) {a n : Nat} (ha : b.Holds a n) (v : Nat) :
    ∃ h', h.store a n v = .ok h' ∧ h'.live = h.live ∧ Keeps base (m.store a n v) h' map t := by
  have hout := k.num_frees_base hb
  obtain ⟨client, hT, hn, hm⟩ := k
  obtain ⟨hrun, hT'⟩ := hT.write (.inl hb) ha v
  refine ⟨_, hrun, rfl, client.store a n v, hT', ?_, fun c hc i hi => ?_⟩
  · rw [← hn, Mem.store, Mem.fill_outside]
    unfold Block.Holds at hout ha
    omega
  · have hsame := hm c hc i hi
    simp only [Mem.store, Mem.fill]
    split
    next => rfl
    next => exact hsame

/-- The sync writes into the header's page and reads the tree. -/
theorem sync_tracker {b : Block} (hb : b ∈ base) {list : Nat} (h0 : list ≠ 0)
    (hin : b.Holds list (2 * FREE_PAGE_LIST_SIZE)) :
    ∃ m' h', TrackerHeap.sync_tracker h map list = .ok h' ∧ Keeps base m' h' map t := by
  have hout := k.num_frees_base hb
  obtain ⟨client, hT, hn, -⟩ := k
  obtain ⟨m₁, hsync, hT₁⟩ := hT.to_freelist (.inl hb) h0 hin
  have hframe := (Radix.radix_to_freelist_frame client t.tree list FREE_PAGE_LIST_SIZE).1
  refine ⟨_, h.setMem m₁, ?_, _, hT₁, ?_, fun _ _ _ _ => rfl⟩
  · rw [TrackerHeap.sync_tracker, hsync]
    rfl
  · -- the counter is not in the array
    rw [← hn]
    refine hframe _ ?_
    unfold Block.Holds at hout hin
    omega

/-- **No release gets past `radix_tree_destroy`**: it frees the nodes and then an address inside
the tracker. -/
theorem release_tracker : TrackerHeap.release_tracker h map = .error .invalid := by
  obtain ⟨client, hT, -, -⟩ := k
  have hlt : (⟨map, TRACKER_SIZE⟩ : Block).addr < tree_at map := Nat.lt_add_of_pos_right (by decide)
  rw [TrackerHeap.release_tracker, hT.destroy_inside hlt]
  rfl

/-- So no close does. -/
theorem close_tracker {list : Nat}
    (hlist : list = 0 ∨ ∃ b ∈ base, b.Holds list (2 * FREE_PAGE_LIST_SIZE)) :
    TrackerHeap.close_tracker h map list = .error .invalid := by
  by_cases h0 : list = 0
  · have hsync : radix_to_freelist h (tree_at map) list FREE_PAGE_LIST_SIZE = .ok (h, 0) :=
      if_pos (.inr h0)
    rw [TrackerHeap.close_tracker, TrackerHeap.sync_tracker, hsync]
    exact k.release_tracker
  · obtain ⟨b, hb, hin⟩ := hlist.resolve_left h0
    obtain ⟨m', h', hsync, k'⟩ := k.sync_tracker hb h0 hin
    rw [TrackerHeap.close_tracker, hsync]
    exact k'.release_tracker

end Keeps

/-! ## §3. The new tracker. -/

/-- What `init_tracker` has done when it returns `map`: the tracker is empty, and `tree`, a block
that nothing points to, stays allocated. -/
structure Started (h₀ : Heap) (map tree : Nat) (h : Heap) : Prop where
  keeps : Keeps (⟨tree, TREE_SIZE⟩ :: h₀.live) h.mem h map ⟨0, Radix.radix_tree_create⟩
  kept : ∀ b ∈ h₀.live, ∀ i, b.Holds i 1 → h.mem i = h₀.mem i

/-- The tracker's own block, with the counter set. -/
theorem init_tracker_block (M : Malloc) (h₀ : Heap) {map : Nat}
    (hmap : M.address h₀.live TRACKER_SIZE = map) (hne : map ≠ 0) : ∃ h₁ : Heap,
    h₁.live = ⟨map, TRACKER_SIZE⟩ :: h₀.live ∧ h₁.mem = h₀.mem.store (num_frees_at map) 1 0
    ∧ init_tracker M h₀ = (do
        let (tree, h) ← radix_tree_create M h₁
        let h ← assign h (tree_at map) tree TREE_SIZE
        return (map, h)) := by
  subst hmap
  obtain ⟨haddr, hlive, hmem⟩ := Heap.malloc_of_ne hne
  generalize hm : h₀.malloc M TRACKER_SIZE = v at haddr hlive hmem
  obtain ⟨map, h⟩ := v
  simp only at haddr hlive hmem
  subst haddr
  have hvalid : h.Valid (num_frees_at (M.address h₀.live TRACKER_SIZE)) 1 := by
    refine ⟨_, hlive ▸ List.mem_cons_self, ?_⟩
    simp only [Block.Holds, num_frees_at, TRACKER_SIZE]
    omega
  refine ⟨h.setMem (h.mem.store (num_frees_at (M.address h₀.live TRACKER_SIZE)) 1 0), hlive, ?_, ?_⟩
  · rw [Heap.setMem_mem, hmem]
  · simp only [init_tracker, hm, if_neg hne, Heap.store_of_valid hvalid, ok_bind]

/-- **The tree is refused**: `*radix_tree_create()` reads through `NULL`. -/
theorem init_tracker_null (M : Malloc) (h₀ : Heap) {map : Nat}
    (hmap : M.address h₀.live TRACKER_SIZE = map) (hne : map ≠ 0)
    (htree : M.address (⟨map, TRACKER_SIZE⟩ :: h₀.live) TREE_SIZE = 0) :
    init_tracker M h₀ = .error .invalid := by
  obtain ⟨h₁, hlive, -, hrun⟩ := init_tracker_block M h₀ hmap hne
  rcases radix_tree_create_spec M h₁ with ⟨-, hcreate⟩ | ⟨tree, h, -, haddr, hne', -⟩
  · -- no block holds the address 0
    have hinvalid : ¬ (h₁.Valid (tree_at map) TREE_SIZE ∧ h₁.Valid 0 TREE_SIZE) := by
      rintro ⟨-, b, hb, hholds⟩
      have hplaced := (h₁.placed b hb).1
      unfold Block.Holds at hholds
      omega
    rw [hrun, hcreate, ok_bind]
    simp only [assign, if_neg hinvalid]
    rfl
  · rw [hlive, htree] at haddr
    exact absurd haddr.symm hne'

theorem init_tracker_spec (M : Malloc) (h₀ : Heap) {map : Nat}
    (hmap : M.address h₀.live TRACKER_SIZE = map) (hne : map ≠ 0)
    (htree : M.address (⟨map, TRACKER_SIZE⟩ :: h₀.live) TREE_SIZE ≠ 0) :
    ∃ tree h, init_tracker M h₀ = .ok (map, h) ∧ Started h₀ map tree h := by
  obtain ⟨h₁, hlive, hmem, hrun⟩ := init_tracker_block M h₀ hmap hne
  rcases radix_tree_create_spec M h₁ with ⟨hz, -⟩ | ⟨tree, h, hcreate, -, -, hcreated⟩
  · rw [hlive] at hz
    exact absurd hz htree
  have hlive' : h.live = ⟨tree, TREE_SIZE⟩ :: ⟨map, TRACKER_SIZE⟩ :: h₀.live := by
    rw [hcreated.live, hlive]
  have hpairwise := hlive' ▸ h.apart
  have hfirst := (List.pairwise_cons.mp hpairwise).1
  have hsecond := (List.pairwise_cons.mp (List.pairwise_cons.mp hpairwise).2).1
  -- the two structs share no byte
  have hapart := (hfirst _ List.mem_cons_self).2
  simp only [Block.Disjoint, TRACKER_SIZE, TREE_SIZE] at hapart
  have hdst : h.Valid (tree_at map) TREE_SIZE := by
    refine ⟨⟨map, TRACKER_SIZE⟩, hlive' ▸ List.mem_cons_of_mem _ List.mem_cons_self, ?_⟩
    simp only [Block.Holds, tree_at, TRACKER_SIZE, TREE_SIZE]
    omega
  have hsrc : h.Valid tree TREE_SIZE :=
    ⟨_, hlive' ▸ List.mem_cons_self, Nat.le_refl _, Nat.le_refl _⟩
  have hassign : assign h (tree_at map) tree TREE_SIZE
      = .ok (h.setMem (h.mem.memmove (tree_at map) tree TREE_SIZE)) := if_pos ⟨hdst, hsrc⟩
  -- what the copy has written
  have hcopy : ∀ i, (⟨tree_at map, TREE_SIZE⟩ : Block).Holds i 1 →
      h.mem.memmove (tree_at map) tree TREE_SIZE i = 0 := by
    intro i hi
    simp only [Block.Holds] at hi
    rw [Mem.memmove, Mem.fill_inside _ _ (by omega) (by omega)]
    refine hcreated.zero _ ?_
    simp only [Block.Holds]
    omega
  have hrest : ∀ i, ¬ (⟨tree_at map, TREE_SIZE⟩ : Block).Holds i 1 →
      ¬ (⟨tree, TREE_SIZE⟩ : Block).Holds i 1 →
      h.mem.memmove (tree_at map) tree TREE_SIZE i = h₀.mem.store (num_frees_at map) 1 0 i := by
    intro i hi hi'
    simp only [Block.Holds] at hi
    rw [Mem.memmove, Mem.fill_outside _ _ (by omega), hcreated.kept i hi', hmem]
  refine ⟨tree, h.setMem (h.mem.memmove (tree_at map) tree TREE_SIZE), ?_,
    ⟨h.mem.memmove (tree_at map) tree TREE_SIZE, ?_, ?_, fun _ _ _ _ => rfl⟩, ?_⟩
  · rw [hrun, hcreate, ok_bind]
    simp only [hassign, ok_bind]
    rfl
  · refine holding_zero ?_ ?_ ?_ hcopy fun _ _ _ _ => rfl
    · rw [Heap.setMem_live, hlive']
      exact List.Perm.swap ..
    · simp only [Block.Holds, tree_at, TRACKER_SIZE, TREE_SIZE]
      omega
    · unfold tree_at
      omega
  · rw [hrest, Mem.store, Mem.fill_inside _ _ (Nat.le_refl _) (Nat.lt_succ_self _)]
    · simp
    · simp only [Block.Holds, tree_at, num_frees_at]
      omega
    · simp only [Block.Holds, num_frees_at, TREE_SIZE]
      omega
  · intro b hb i hi
    have hb₁ := (hfirst b (List.mem_cons_of_mem _ hb)).2
    have hb₂ := (hsecond b hb).2
    simp only [Block.Disjoint, Block.Holds, TRACKER_SIZE, TREE_SIZE] at hb₁ hb₂ hi
    rw [Heap.setMem_mem, hrest, Mem.store, Mem.fill_outside]
    · unfold num_frees_at
      omega
    · simp only [Block.Holds, tree_at, TREE_SIZE]
      omega
    · simp only [Block.Holds, TREE_SIZE]
      omega

/-! ## §4. Runs. -/

/-- A call on the tracker, or a write of the program into another block. -/
inductive Call where
  | mark_page_free (M : Malloc) (page_no : UInt16)
  | mark_page_used (page_no : UInt16)
  | get_free_page
  | write (a n v : Nat)

/-- The pager, and the contents of the other blocks. -/
abbrev View := Db.Pager × Mem

def View.step (v : View) : Call → View
  | .mark_page_free _ page_no => (Db.mark_page_free v.1 page_no, v.2)
  | .mark_page_used page_no => (Db.mark_page_used v.1 page_no, v.2)
  | .get_free_page => ((Db.get_free_page v.1).2, v.2)
  | .write a n x => (v.1, v.2.store a n x)

/-- The heap, the tracker's address and the last page taken. -/
structure Program where
  heap : Heap
  map : Nat
  page : UInt16

def Program.step (x : Program) : Call → Checked Program
  | .mark_page_free M page_no => do
      let h ← mark_page_free M x.heap x.map page_no
      return { x with heap := h }
  | .mark_page_used page_no => do
      let h ← mark_page_used x.heap x.map page_no
      return { x with heap := h }
  | .get_free_page => do
      let (page_no, h) ← get_free_page x.heap x.map
      return ⟨h, x.map, page_no⟩
  | .write a n v => do
      let h ← x.heap.store a n v
      return { x with heap := h }

def Call.Allows (base : List Block) : Call → Prop
  | .write a n _ => ∃ b ∈ base, b.Holds a n
  | _ => True

instance (base : List Block) : ∀ call : Call, Decidable (call.Allows base)
  | .write a n _ => inferInstanceAs (Decidable (∃ b ∈ base, b.Holds a n))
  | .mark_page_free _ _ | .mark_page_used _ | .get_free_page => inferInstanceAs (Decidable True)

def Denied (x : Program) : Call → Prop
  | .mark_page_free M _ => M.address x.heap.live REGION_SIZE = 0
  | _ => False

/-- The tracker is the pager's, the other blocks are the program's, the block of the first tree
is still allocated, and a close would fail. -/
structure Follows (base : List Block) (lost : Block) (v : View) (x : Program) : Prop where
  num_frees : x.heap.load (num_frees_at x.map) 1 = .ok v.1.free_page_map.num_frees.toNat
  lookup : ∀ page_no, radix_tree_lookup x.heap (tree_at x.map) page_no
    = .ok (Radix.radix_tree_lookup v.1.free_page_map.tree page_no)
  kept : ∀ b ∈ base, b ∈ x.heap.live ∧ ∀ i, b.Holds i 1 → x.heap.mem i = v.2 i
  lost : lost ∈ x.heap.live
  close : ∀ list, (list = 0 ∨ ∃ b ∈ base, b.Holds list (2 * FREE_PAGE_LIST_SIZE)) →
    close_tracker x.heap x.map list = .error .invalid

theorem Keeps.follows {base : List Block} {lost : Block} {v : View} {x : Program}
    (k : Keeps (lost :: base) v.2 x.heap x.map v.1.free_page_map) : Follows base lost v x := by
  refine ⟨k.load_num_frees, fun page_no => ?_, fun b hb => ?_, ?_, fun list hlist => ?_⟩
  · obtain ⟨client, hT, -⟩ := k
    exact hT.lookup page_no
  · obtain ⟨client, hT, -, hm⟩ := k
    obtain ⟨A, s, ps, g⟩ := hT.grown
    have hb' : b ∈ lost :: base := List.mem_cons_of_mem _ hb
    refine ⟨g.live.mem_iff.mpr (List.mem_append_right _ (List.mem_cons_of_mem _ hb')), ?_⟩
    exact fun i hi => (g.kept b (.inl hb') i hi).trans (hm b hb' i hi)
  · obtain ⟨client, hT, -⟩ := k
    obtain ⟨A, s, ps, g⟩ := hT.grown
    exact g.live.mem_iff.mpr
      (List.mem_append_right _ (List.mem_cons_of_mem _ List.mem_cons_self))
  · exact k.close_tracker (hlist.imp_right fun ⟨b, hb, hin⟩ => ⟨b, List.mem_cons_of_mem _ hb, hin⟩)

/-- `get_free_page` returns the page it takes out, and a new page when there is none. -/
def Replies (x : View × Program) (call : Call) (x' : View × Program) : Prop :=
  call = .get_free_page → (Db.get_free_page x.1.1).1
    = if x'.2.page = 0 then Db.next_new_page x.1.1 else x'.2.page

def Call.wp (x : View × Program) (call : Call) (R : View × Program → Prop) : Prop :=
  Safe (Denied x.2 call) (x.2.step call) fun x' => R (x.1.step call, x')

/-- **One call**. -/
theorem Keeps.step {base : List Block} {lost : Block} {v : View} {x : Program}
    (k : Keeps (lost :: base) v.2 x.heap x.map v.1.free_page_map) {call : Call}
    (hallow : call.Allows base) :
    Safe (Denied x call) (x.step call) fun x' => Replies (v, x) call (v.step call, x')
      ∧ x'.map = x.map
      ∧ Keeps (lost :: base) (v.step call).2 x'.heap x.map (v.step call).1.free_page_map := by
  cases call with
  | mark_page_free M page_no =>
      refine Safe.bind (k.mark_page_free M page_no) fun h' k' =>
        ⟨fun hc => (by cases hc), rfl, ?_⟩
      rw [View.step, Db.mark_page_free_map]
      exact k'
  | mark_page_used page_no =>
      obtain ⟨h', hrun, -, k'⟩ := k.mark_page_used page_no
      simp only [Program.step, hrun, ok_bind]
      refine ⟨fun hc => (by cases hc), rfl, ?_⟩
      rw [View.step, Db.mark_page_used_map]
      exact k'
  | get_free_page =>
      obtain ⟨page_no, h', hrun, -, hpage, k'⟩ := Keeps.get_free_page k
      simp only [Program.step, hrun, ok_bind]
      exact ⟨fun _ => hpage, rfl, k'⟩
  | write a n w =>
      obtain ⟨b, hb, hin⟩ := hallow
      obtain ⟨h', hrun, -, k'⟩ := k.write (List.mem_cons_of_mem _ hb) hin w
      simp only [Program.step, hrun, ok_bind]
      exact ⟨fun hc => (by cases hc), rfl, k'⟩

/-- **The page tracker is never released.**  When `malloc` has both blocks, the tracker on the
heap follows the pager's in every run and no call faults, but from no state does a close
complete; and the first tree's block stays allocated.  When it has only the tracker's,
`*radix_tree_create()` reads through `NULL`. -/
theorem page_tracker_never_released (M : Malloc) (h₀ : Heap) (pager : Db.Pager) {map : Nat}
    (hmap : M.address h₀.live TRACKER_SIZE = map) (hne : map ≠ 0)
    (hpager : pager.free_page_map = ⟨0, Radix.radix_tree_create⟩) (calls : List Call)
    (hallow : ∀ call ∈ calls, call.Allows h₀.live) :
    (M.address (⟨map, TRACKER_SIZE⟩ :: h₀.live) TREE_SIZE = 0 →
        init_tracker M h₀ = .error .invalid)
      ∧ (M.address (⟨map, TRACKER_SIZE⟩ :: h₀.live) TREE_SIZE ≠ 0 →
        ∃ tree h, init_tracker M h₀ = .ok (map, h)
          ∧ (∀ b ∈ h₀.live, ∀ i, b.Holds i 1 → h.mem i = h₀.mem i)
          ∧ Follows h₀.live ⟨tree, TREE_SIZE⟩ (pager, h.mem) ⟨h, map, 0⟩
          ∧ Wp.Surely Call.wp
              (fun x call x' => Replies x call x'
                ∧ Follows h₀.live ⟨tree, TREE_SIZE⟩ x'.1 x'.2)
              ((pager, h.mem), ⟨h, map, 0⟩) calls) := by
  refine ⟨init_tracker_null M h₀ hmap hne, fun htree => ?_⟩
  obtain ⟨tree, h, hrun, hkeeps, hkept⟩ := init_tracker_spec M h₀ hmap hne htree
  have hstart : Keeps (⟨tree, TREE_SIZE⟩ :: h₀.live) h.mem h map pager.free_page_map :=
    hpager ▸ hkeeps
  refine ⟨tree, h, hrun, hkept,
    Keeps.follows (v := (pager, h.mem)) (x := ⟨h, map, 0⟩) hstart, ?_⟩
  refine @Wp.surely_of_tracked _ _ _ Call.wp _
    (fun v x => x.1 = v ∧ Keeps (⟨tree, TREE_SIZE⟩ :: h₀.live) v.2 x.2.heap x.2.map
      v.1.free_page_map)
    View.step (fun _ _ => True) (fun _ call => call.Allows h₀.live)
    (fun x call R R' hR hx => hx.mono id fun x' hx' => hR _ hx') ?_ calls (pager, h.mem) _
    ⟨rfl, hstart⟩ ?_ ?_
  · rintro v ⟨_, x⟩ call ⟨rfl, k⟩ - hcall
    refine (k.step hcall).mono id ?_
    rintro ⟨h', map', page⟩ ⟨hreply, rfl, k'⟩
    exact ⟨⟨hreply, k'.follows⟩, rfl, k'⟩
  · exact (Run.eachStep_iff_forall (P := fun _ => True) calls _).mpr fun _ _ => trivial
  · exact (Run.eachStep_iff_forall (P := fun call => call.Allows h₀.live) calls _).mpr hallow

/-- A heap with the header's page. -/
def pager_heap : Heap := ⟨fun _ => 0, [⟨4096, 4096⟩], by decide, by decide⟩

/-- Pages are freed, taken and used, and the header's list is written. -/
theorem page_tracker_never_released_witness :
    (Malloc.bump.address (⟨8208, TRACKER_SIZE⟩ :: pager_heap.live) TREE_SIZE = 0 →
        init_tracker .bump pager_heap = .error .invalid)
      ∧ (Malloc.bump.address (⟨8208, TRACKER_SIZE⟩ :: pager_heap.live) TREE_SIZE ≠ 0 →
        ∃ tree h, init_tracker .bump pager_heap = .ok (8208, h)
          ∧ (∀ b ∈ pager_heap.live, ∀ i, b.Holds i 1 → h.mem i = pager_heap.mem i)
          ∧ Follows pager_heap.live ⟨tree, TREE_SIZE⟩ (Db.fresh_pager, h.mem) ⟨h, 8208, 0⟩
          ∧ Wp.Surely Call.wp
              (fun x call x' => Replies x call x'
                ∧ Follows pager_heap.live ⟨tree, TREE_SIZE⟩ x'.1 x'.2)
              ((Db.fresh_pager, h.mem), ⟨h, 8208, 0⟩)
              [.mark_page_free .bump 7, .mark_page_free .bump 300, .write 4200 2 7,
                .get_free_page, .mark_page_used 300, .get_free_page]) :=
  page_tracker_never_released .bump pager_heap Db.fresh_pager (by decide) (by decide) rfl _
    (by decide)

end PreSeQL.TrackerHeap
