/-
  PreSeQL.Algorithm.RadixProgram — programs that use a radix tree.

  A program creates a tree, calls its operations in any order, converts it from and to
  arrays in its own blocks, and destroys it.  `radix_tree_realises`: all the while the code
  on the heap returns what the functions of `RadixTree.lean` and `FreeList.lean` return on
  the value, and when the tree is destroyed the program is left with its own blocks.

    • `Holding` — the tree of the heap, as a value,
    • `Holding.insert`, `Holding.delete`, … — one operation,
    • `radix_tree_realises` — all runs.
-/
import PreSeQL.Algorithm.RadixGrowth
import PreSeQL.Algorithm.RadixSet
import PreSeQL.Lib.Wp

namespace PreSeQL.RadixHeap

open PreSeQL.Lib PreSeQL.Lib.PointerTrie PreSeQL.Allocator
open PreSeQL.Radix (RADIX_SIZE RadixNode RadixTree radix_index levels radix_path freelist_cell
  WellFormed)

/-! ## §1. The walk of `radix_to_freelist`. -/

/-- The walk on the heap beside the walk over the value. -/
def Collecting (owner : Block) (base : List Block) (h : Heap) (tree : Nat) (N : Set Path)
    (A : Path → Nat) (s : Space) (ps : List Piece) (x : Heap × Nat) (y : Mem × Nat) : Prop :=
  ∃ m, x.1 = h.setMem m ∧ x.2 = y.2 ∧ Grown owner base y.1 (h.setMem m) tree N A s ps

theorem Collecting.collect_pages {owner : Block} {base : List Block} {h : Heap} {tree : Nat}
    {N : Set Path} {A : Path → Nat} {s : Space} {ps : List Piece} {x : Heap × Nat} {y : Mem × Nat}
    (hxy : Collecting owner base h tree N A s ps x y) {b : Block}
    (hb : Mine owner base tree b) {freelist max_size : Nat} (hin : b.Holds freelist (2 * max_size))
    (page : UInt16) : ∃ x', RadixHeap.collect_pages freelist max_size x page = .ok x'
      ∧ Collecting owner base h tree N A s ps x'
        (Radix.collect_pages freelist max_size y page) := by
  obtain ⟨_, n⟩ := x
  obtain ⟨client', _⟩ := y
  obtain ⟨m, rfl, rfl, g⟩ := hxy
  by_cases hlt : n < max_size
  · have hcell : b.Holds (freelist_cell freelist n) 2 := by
      simp only [Block.Holds, Radix.freelist_cell] at hin ⊢
      omega
    have hstore := Heap.store_of_valid (g.sites.mine_valid hb hcell) page.toNat
    refine ⟨((h.setMem m).setMem (m.store (freelist_cell freelist n) 2 page.toNat), n + 1), ?_,
      m.store (freelist_cell freelist n) 2 page.toNat, rfl, ?_, ?_⟩
    · simp only [RadixHeap.collect_pages, if_pos hlt, hstore, ok_bind]
      rfl
    · simp only [Radix.collect_pages, if_pos hlt]
    · simp only [Radix.collect_pages, if_pos hlt]
      exact g.write hb hcell page.toNat
  · refine ⟨(h.setMem m, n), if_neg hlt, m, rfl, ?_, ?_⟩
    · simp only [Radix.collect_pages, if_neg hlt]
    · simpa only [Radix.collect_pages, if_neg hlt] using g

/-! ## §2. The tree as a value. -/

/-- The heap holds the value `T` as a tree in the block `owner`. -/
structure Holding (owner : Block) (base : List Block) (client : Mem) (h : Heap) (tree : Nat)
    (T : RadixTree) : Prop where
  wellFormed : WellFormed T
  grown : ∃ A s ps, Grown owner base client h tree (paths T.root) A s ps

namespace Holding

variable {owner : Block} {base : List Block} {client : Mem} {h : Heap} {tree : Nat}
  {T : RadixTree} (hT : Holding owner base client h tree T)

include hT

/-- The root is at the tree's address. -/
theorem built : ∃ A, A [] = tree ∧ tree ≠ 0 ∧ Built h A (paths T.root) := by
  obtain ⟨A, s, ps, g⟩ := hT.grown
  exact ⟨A, g.root, g.root ▸ g.laid.nonzero g.laid.tree.nil, g.built⟩

theorem tree_ne_zero : tree ≠ 0 := by
  obtain ⟨-, -, hne, -⟩ := hT.built
  exact hne

theorem lookup (page_no : UInt16) :
    radix_tree_lookup h tree page_no = .ok (Radix.radix_tree_lookup T page_no) := by
  obtain ⟨A, rfl, -, hb⟩ := hT.built
  rw [radix_tree_lookup, Radix.radix_tree_lookup, hb.lookup_path_eq page_no levels (below_paths _)]
  split <;> rfl

theorem min_path : RadixHeap.min_path h levels tree 0 = .ok (Radix.min_path levels T.root 0) := by
  obtain ⟨A, rfl, -, hb⟩ := hT.built
  exact hb.min_path_eq levels 0 (below_paths _)

theorem peek_min : radix_tree_peek_min h tree = .ok (Radix.radix_tree_peek_min T) := by
  rw [radix_tree_peek_min, if_neg hT.tree_ne_zero, hT.min_path]
  rfl

/-- **Insertion** asks `malloc` for at most one region. -/
theorem insert (M : Malloc) (page_no : UInt16) :
    Safe (M.address h.live REGION_SIZE = 0) (radix_tree_insert M h tree page_no) fun h' =>
      Holding owner base client h' tree (Radix.radix_tree_insert T page_no) := by
  obtain ⟨A, s, ps, g⟩ := hT.grown
  have hspec := Grown.insert_path_spec M page_no levels (by decide) g g.laid.tree.nil (.inl rfl)
  rw [g.root] at hspec
  refine hspec.mono id ?_
  rintro h' ⟨A', s', ps', g'⟩
  refine ⟨Radix.wellFormed_insert hT.wellFormed page_no, A', s', ps', ?_⟩
  rwa [Radix.radix_tree_insert_root, paths_insert]

/-- **Deletion** never fails, and gives no block back. -/
theorem delete (page_no : UInt16) : ∃ m, radix_tree_delete h tree page_no = .ok (h.setMem m)
    ∧ Holding owner base client (h.setMem m) tree (Radix.radix_tree_delete T page_no) := by
  obtain ⟨A, s, ps, g⟩ := hT.grown
  have hwf := Radix.wellFormed_delete hT.wellFormed page_no
  have hnil := g.laid.tree.nil
  have hroot := g.root
  have hself : ∀ T' : RadixTree, WellFormed T' → T'.root = T.root →
      Holding owner base client (h.setMem h.mem) tree T' :=
    fun T' hwf' heq => ⟨hwf', A, s, ps, heq ▸ g⟩
  by_cases hout : page_no = 0 ∨ radix_path page_no ∉ paths T.root
  · -- nothing to delete
    refine ⟨h.mem, ?_, hself _ hwf ?_⟩
    · unfold radix_tree_delete
      split
      next => rfl
      next hne =>
        have hfind := find_path_of_notMem g.built page_no levels [] hnil
          (hout.resolve_left fun h0 => hne (.inl h0))
        rw [hroot] at hfind
        rw [hfind]
        rfl
    · rw [Radix.radix_tree_delete_root, if_pos]
      exact hout.imp_right fun hn => Bool.eq_false_iff.mpr hn
  · obtain ⟨h0, hin⟩ := not_or.mp hout
    rw [not_not] at hin
    obtain ⟨m, N', hrun, hremoved⟩ := clean_parents_eq (n := 4) g.built
      (Reduced.pruned hT.wellFormed)
      (q := [radix_index page_no 0, radix_index page_no 1, radix_index page_no 2])
      (e := radix_index page_no 3) rfl hin
    have hfind := find_path_of_mem g.built page_no levels (v := []) hin
    rw [hroot] at hfind
    refine ⟨m, ?_, hwf, A, s, ps, ?_⟩
    · rw [radix_tree_delete, if_neg fun hor => hor.elim h0 hT.tree_ne_zero]
      have hfind' : find_path h page_no levels tree [] = .ok (some (trail A
        ([radix_index page_no 0, radix_index page_no 1, radix_index page_no 2]
          ++ [radix_index page_no 3]).reverse)) := hfind
      rw [hfind', ok_bind]
      exact hrun
    · -- what is left is the set of paths of the value
      have hN' : N' = paths (Radix.radix_tree_delete T page_no).root := by
        refine Pruned.ext hremoved.built.laid.tree (isTree_paths _) hremoved.pruned
          (Reduced.pruned hwf) fun u hu => ?_
        rw [hremoved.words u hu, Radix.radix_tree_delete_root, if_neg, mem_paths, mem_paths,
          Trie.contains_erase (radix_path page_no) u _ (Radix.radix_path_ne_nil page_no) hu,
          and_comm]
        · rfl
        · rintro (h0' | hf)
          · exact h0 h0'
          · rw [mem_paths, hf] at hin
            cases hin
      rw [← hN']
      exact g.inside hremoved.inside hremoved.subset hremoved.built.laid

theorem pop_min : ∃ m, radix_tree_pop_min h tree
      = .ok ((Radix.radix_tree_pop_min T).1, h.setMem m)
    ∧ Holding owner base client (h.setMem m) tree (Radix.radix_tree_pop_min T).2 := by
  rw [radix_tree_pop_min, if_neg hT.tree_ne_zero, hT.min_path, ok_bind, Radix.radix_tree_pop_min]
  cases Radix.min_path levels T.root 0 with
  | none => exact ⟨h.mem, rfl, hT⟩
  | some page_num =>
      obtain ⟨m, hrun, hT'⟩ := hT.delete page_num
      refine ⟨m, ?_, hT'⟩
      simp only [hrun, ok_bind]
      rfl

/-! ## §3. Arrays of page numbers. -/

/-- The program writes into one of its own blocks. -/
theorem write {b : Block} (hb : Mine owner base tree b) {a n : Nat} (ha : b.Holds a n) (v : Nat) :
    h.store a n v = .ok (h.setMem (h.mem.store a n v))
    ∧ Holding owner base (client.store a n v) (h.setMem (h.mem.store a n v)) tree T := by
  obtain ⟨A, s, ps, g⟩ := hT.grown
  exact ⟨Heap.store_of_valid (g.sites.mine_valid hb ha) v, hT.wellFormed, A, s, ps, g.write hb ha v⟩

theorem read {b : Block} (hb : Mine owner base tree b) {a n : Nat} (ha : b.Holds a n) :
    h.load a n = .ok (client.load a n) := by
  obtain ⟨A, s, ps, g⟩ := hT.grown
  exact g.load_mine hb ha

/-- **From the tree to an array** of the program. -/
theorem to_freelist {b : Block} (hb : Mine owner base tree b) {freelist max_size : Nat}
    (hf : freelist ≠ 0) (hin : b.Holds freelist (2 * max_size)) :
    ∃ m, radix_to_freelist h tree freelist max_size
        = .ok (h.setMem m, (Radix.radix_to_freelist client T freelist max_size).2)
      ∧ Holding owner base (Radix.radix_to_freelist client T freelist max_size).1 (h.setMem m)
        tree T := by
  have hne := hT.tree_ne_zero
  obtain ⟨A, s, ps, g⟩ := hT.grown
  have hbuilt : ∀ x y, Collecting owner base h tree (paths T.root) A s ps x y →
      Built x.1 A (paths T.root) := by
    rintro ⟨_, n⟩ y ⟨m, rfl, -, g'⟩
    exact g'.built
  obtain ⟨x, hrun, m, hx, hcount, g'⟩ := walk_radix_eq hbuilt
    (fun x y page hxy => hxy.collect_pages hb hin page) levels 0 (below_paths T.root)
    (x := (h, 0)) (y := (client, 0)) ⟨h.mem, rfl, rfl, g⟩
  refine ⟨m, ?_, hT.wellFormed, A, s, ps, g'⟩
  rw [radix_to_freelist, if_neg fun hor => hor.elim hne hf, radix_tree_walk, if_neg hne,
    ← g.root, hrun]
  exact congrArg Except.ok (Prod.ext hx hcount)

/-- **From an array** of the program to the tree.  An abort is at an entry where `malloc` has no
region. -/
theorem from_freelist (M : Malloc) {b : Block} (hb : Mine owner base tree b) {freelist : Nat}
    (hf : freelist ≠ 0) (count : Nat) (hin : b.Holds freelist (2 * count)) :
    Safe (∃ i < count, ∃ h', freelist_to_radix M h tree freelist i = .ok h'
        ∧ M.address h'.live REGION_SIZE = 0)
      (freelist_to_radix M h tree freelist count) fun h' =>
        Holding owner base client h' tree (Radix.freelist_to_radix T client freelist count) := by
  have hguard : ¬ (tree = 0 ∨ freelist = 0) := fun hor => hor.elim hT.tree_ne_zero hf
  simp only [freelist_to_radix, if_neg hguard]
  induction count with
  | zero => exact hT
  | succ n ih =>
      have hin' : b.Holds freelist (2 * n) := by
        unfold Block.Holds at hin ⊢
        omega
      have hcell : b.Holds (freelist_cell freelist n) 2 := by
        simp only [Block.Holds, Radix.freelist_cell] at hin ⊢
        omega
      rw [List.range_succ, List.foldlM_append]
      refine Safe.bind ((ih hin').with_eq.mono ?_ fun _ => id) ?_
      · rintro ⟨i, hi, h', hrun, hdenied⟩
        exact ⟨i, by omega, h', hrun, hdenied⟩
      · rintro h' ⟨hrun, hT'⟩
        obtain ⟨A, s, ps, g⟩ := hT'.grown
        -- the entry is read in the state that the earlier ones have left
        have hentry : (client.load16 (freelist_cell freelist n)).toNat
            = client.load (freelist_cell freelist n) 2 := Mem.load16_toNat _ _
        simp only [List.foldlM_cons, List.foldlM_nil, g.load_mine hb hcell, ok_bind, bind_pure]
        rw [Radix.freelist_to_radix, Radix.freelist_entries, List.range_succ, List.map_append,
          List.foldl_append, List.map_singleton, List.foldl_cons, List.foldl_nil]
        by_cases hz : client.load (freelist_cell freelist n) 2 = 0
        · have hz' : client.load16 (freelist_cell freelist n) = 0 :=
            UInt16.toNat_inj.mp (hentry.trans hz)
          simp only [hz, hz', ne_eq, not_true_eq_false, if_false]
          exact hT'
        · have hz' : client.load16 (freelist_cell freelist n) ≠ 0 := by
            intro heq
            rw [heq] at hentry
            exact hz hentry.symm
          simp only [ne_eq, hz, hz', not_false_eq_true, if_true]
          exact (hT'.insert M _).mono (fun hdenied => ⟨n, by omega, h', hrun, hdenied⟩) fun _ => id

/-! ## §4. The tree's life. -/

/-- Everything but the last line of `radix_tree_destroy`: the nodes are gone. -/
theorem destroy_nodes : ∃ h' : Heap, radix_tree_destroy h tree = h'.free tree
    ∧ h'.live.Perm (owner :: base)
    ∧ ∀ b, Mine owner base tree b → ∀ i, b.Holds i 1 → h'.mem i = client i := by
  have hne := hT.tree_ne_zero
  obtain ⟨A, s, ps, g⟩ := hT.grown
  obtain ⟨h₁, hrun, hmem, hlive, -⟩ := g.held.free_eq
  have hperm := live_filter g.live g.held.laid 0
  rw [List.drop_zero, ← hlive, List.take_zero, List.map_nil, List.nil_append] at hperm
  have hvalid : h₁.Valid tree TREE_SIZE :=
    ⟨owner, hperm.mem_iff.mpr List.mem_cons_self, g.holds⟩
  refine ⟨h₁.setMem (with_arena h₁.mem tree ⟨0, 0⟩), ?_, hperm, fun b hb i hi => ?_⟩
  · rw [radix_tree_destroy, if_neg hne, load_arena_eq g.sites.valid_tree, ok_bind, hrun, ok_bind]
    simp only [store_arena_eq hvalid, ok_bind]
  · have hapart := g.sites.mine_fields hb
    rw [← g.kept b hb i hi, ← hmem]
    refine with_arena_outside _ _ _ fun hin => ?_
    simp only [Block.Disjoint, Block.Holds] at hapart hi hin
    omega

/-- **The destroyed tree** leaves the program's blocks, and nothing else. -/
theorem destroy (howner : owner.addr = tree) : ∃ h', radix_tree_destroy h tree = .ok h'
    ∧ h'.live.Perm base ∧ ∀ b ∈ base, ∀ i, b.Holds i 1 → h'.mem i = client i := by
  obtain ⟨h₁, hrun, hperm, hkept⟩ := hT.destroy_nodes
  have hfree := Heap.free_of_mem (hperm.mem_iff.mpr List.mem_cons_self : owner ∈ h₁.live)
  rw [howner] at hfree
  refine ⟨h₁.drop tree, hrun.trans hfree, ?_, fun b hb i hi => hkept b (.inl hb) i hi⟩
  -- the struct's block goes with its address
  have hbase : ∀ b ∈ base, b.addr ≠ tree := by
    intro b hb
    have hpairwise := (hperm.pairwise_iff fun h => h.symm).mp h₁.apart
    exact howner ▸ ((List.pairwise_cons.mp hpairwise).1 b hb).1.symm
  have hfilter := hperm.filter fun b => decide (b.addr ≠ tree)
  rw [List.filter_cons_of_neg (by simp [howner]), List.filter_eq_self.mpr
    fun b hb => decide_eq_true (hbase b hb)] at hfilter
  exact hfilter

/-- **A struct inside another block** cannot be destroyed: `free` gets an address that `malloc`
has not returned. -/
theorem destroy_inside (hlt : owner.addr < tree) :
    radix_tree_destroy h tree = .error .invalid := by
  obtain ⟨h₁, hrun, hperm, -⟩ := hT.destroy_nodes
  obtain ⟨A, s, ps, g⟩ := hT.grown
  have hin := g.holds
  rw [hrun, Heap.free, if_neg hT.tree_ne_zero, if_neg]
  rintro ⟨b, hb, heq⟩
  have hpairwise := (hperm.pairwise_iff fun h => h.symm).mp h₁.apart
  rcases List.mem_cons.mp (hperm.mem_iff.mp hb) with rfl | hb
  · omega
  · have hdisjoint := ((List.pairwise_cons.mp hpairwise).1 b hb).2
    simp only [Block.Disjoint, Block.Holds, TREE_SIZE] at hdisjoint hin
    omega

end Holding

/-- A zeroed struct is an empty tree. -/
theorem holding_zero {owner : Block} {base : List Block} {client : Mem} {h : Heap} {tree : Nat}
    (hlive : h.live.Perm (owner :: base)) (hin : owner.Holds tree TREE_SIZE) (hne : tree ≠ 0)
    (hzero : ∀ i, (⟨tree, TREE_SIZE⟩ : Block).Holds i 1 → h.mem i = 0)
    (hclient : ∀ b, Mine owner base tree b → ∀ i, b.Holds i 1 → h.mem i = client i) :
    Holding owner base client h tree Radix.radix_tree_create := by
  have hpaths : paths Radix.radix_tree_create.root = {[]} := paths_empty
  have hnot : ∀ {w : Path} {d : Fin RADIX_SIZE}, w ++ [d] ∉ ({[]} : Set Path) := by simp
  have hload : ∀ a, tree ≤ a → a + 8 ≤ tree + TREE_SIZE → h.mem.load a 8 = 0 := by
    intro a h₁ h₂
    refine Mem.load_of_zero 8 a fun i hi₁ hi₂ => hzero i ?_
    simp only [Block.Holds]
    omega
  have harena : tree_arena h.mem tree = ⟨0, 0⟩ := by
    unfold tree_arena begin_at end_at
    rw [hload _ (by omega) (by simp only [TREE_SIZE]; omega),
      hload _ (by omega) (by simp only [TREE_SIZE]; omega)]
  refine ⟨Radix.wellFormed_create, fun _ => tree, Space.empty, [], ?_⟩
  rw [hpaths]
  refine ⟨⟨⟨rfl, fun hpre hw => ?_⟩, fun hd => absurd hd hnot, fun {w d} _ _ => ?_, fun _ => hne,
    fun hv hw _ => hv.trans hw.symm⟩, ?_, hlive, hin, ⟨by simp, by simp, List.Pairwise.nil⟩, rfl,
    fun w hw hw0 => absurd hw hw0, hclient⟩
  · rw [Set.mem_singleton_iff.mp hw] at hpre
    exact List.prefix_nil.mp hpre
  · -- no pointer of the root is set
    have hd : d.val < 16 := d.isLt
    refine hload _ (Nat.le_add_right _ _) ?_
    simp only [children_at, TREE_SIZE]
    omega
  · rw [harena]
    exact held_empty h

/-- The struct after `memset` and the two assignments. -/
theorem new_struct_zero (m : Mem) (tree : Nat) {i : Nat}
    (hi : (⟨tree, TREE_SIZE⟩ : Block).Holds i 1) :
    with_arena (m.memset tree 0 TREE_SIZE) tree ⟨0, 0⟩ i = 0 := by
  simp only [Block.Holds] at hi
  simp only [with_arena, Mem.store, Mem.memset, Mem.fill, Nat.zero_div]
  split
  · rfl
  · split
    · rfl
    · rw [if_pos (by omega)]

/-- What `radix_tree_create` has done when it returns `tree`. -/
structure Created (h₀ : Heap) (tree : Nat) (h : Heap) : Prop where
  live : h.live = ⟨tree, TREE_SIZE⟩ :: h₀.live
  zero : ∀ i, (⟨tree, TREE_SIZE⟩ : Block).Holds i 1 → h.mem i = 0
  kept : ∀ i, ¬ (⟨tree, TREE_SIZE⟩ : Block).Holds i 1 → h.mem i = h₀.mem i

/-- Without memory for a new tree nothing has happened. -/
theorem radix_tree_create_spec (M : Malloc) (h₀ : Heap) :
    (M.address h₀.live TREE_SIZE = 0 ∧ radix_tree_create M h₀ = .ok (0, h₀))
    ∨ ∃ tree h, radix_tree_create M h₀ = .ok (tree, h) ∧ M.address h₀.live TREE_SIZE = tree
      ∧ tree ≠ 0 ∧ Created h₀ tree h := by
  by_cases hz : M.address h₀.live TREE_SIZE = 0
  · refine .inl ⟨hz, ?_⟩
    simp only [radix_tree_create, Heap.malloc_of_eq hz, if_true]
  · obtain ⟨haddr, hlive, hmem⟩ := Heap.malloc_of_ne hz
    generalize hm : h₀.malloc M TREE_SIZE = v at haddr hlive hmem
    obtain ⟨tree, h⟩ := v
    simp only at haddr hlive hmem
    subst haddr
    have hvalid : h.Valid (M.address h₀.live TREE_SIZE) TREE_SIZE := by
      refine ⟨⟨M.address h₀.live TREE_SIZE, TREE_SIZE⟩, ?_, Nat.le_refl _, Nat.le_refl _⟩
      rw [hlive]
      exact List.mem_cons_self
    have hvalid' : (h.setMem (h.mem.memset (M.address h₀.live TREE_SIZE) 0 TREE_SIZE)).Valid
      (M.address h₀.live TREE_SIZE) TREE_SIZE := hvalid
    have hcreate : radix_tree_create M h₀ = .ok (M.address h₀.live TREE_SIZE,
        h.setMem (with_arena (h.mem.memset (M.address h₀.live TREE_SIZE) 0 TREE_SIZE)
          (M.address h₀.live TREE_SIZE) ⟨0, 0⟩)) := by
      simp only [radix_tree_create, hm, if_neg hz, Heap.memset_of_valid hvalid, ok_bind,
        store_arena_eq hvalid']
      rfl
    refine .inr ⟨_, _, hcreate, rfl, hz, hlive, fun i => new_struct_zero _ _, fun i hi => ?_⟩
    simp only [Block.Holds] at hi
    rw [Heap.setMem_mem, with_arena_outside, Mem.memset, Mem.fill_outside _ _ (by omega), hmem]
    simp only [Block.Holds, begin_at, TREE_SIZE] at hi ⊢
    omega

/-- **A new tree** is empty. -/
theorem Created.holding {h₀ h : Heap} {tree : Nat} (hc : Created h₀ tree h) (hne : tree ≠ 0) :
    Holding ⟨tree, TREE_SIZE⟩ h₀.live h₀.mem h tree Radix.radix_tree_create := by
  refine holding_zero (List.Perm.of_eq hc.live) ⟨Nat.le_refl _, Nat.le_refl _⟩ hne hc.zero
    fun b hb i hi => hc.kept i fun hin => ?_
  -- a byte of the struct is in none of the other blocks
  rcases hb with hb | ⟨-, hdisjoint⟩
  · have hdisjoint := ((List.pairwise_cons.mp (hc.live ▸ h.apart)).1 b hb).2
    simp only [Block.Disjoint, Block.Holds] at hdisjoint hi hin
    omega
  · simp only [Block.Disjoint, Block.Holds] at hdisjoint hi hin
    omega

/-! ## §5. Programs. -/

/-- What a call returns. -/
inductive Reply where
  | nothing
  | found (b : Bool)
  | page (page_no : UInt16)
  | count (n : Nat)

inductive Call where
  | insert (M : Malloc) (page_no : UInt16)
  | lookup (page_no : UInt16)
  | delete (page_no : UInt16)
  | peek_min
  | pop_min
  | to_freelist (freelist max_size : Nat)
  | from_freelist (M : Malloc) (freelist count : Nat)
  /-- the program stores a page number into a block of its own -/
  | write (a : Nat) (page_no : UInt16)

/-- The tree as a value, the contents of the program's blocks, and the last reply. -/
structure View where
  tree : RadixTree
  mem : Mem
  reply : Reply

def View.step (v : View) : Call → View
  | .insert _ page_no =>
      { v with tree := Radix.radix_tree_insert v.tree page_no, reply := .nothing }
  | .lookup page_no => { v with reply := .found (Radix.radix_tree_lookup v.tree page_no) }
  | .delete page_no => { v with tree := Radix.radix_tree_delete v.tree page_no, reply := .nothing }
  | .peek_min => { v with reply := .page (Radix.radix_tree_peek_min v.tree) }
  | .pop_min =>
      let r := Radix.radix_tree_pop_min v.tree
      { v with tree := r.2, reply := .page r.1 }
  | .to_freelist freelist max_size =>
      if freelist = 0 then { v with reply := .count 0 }
      else
        let r := Radix.radix_to_freelist v.mem v.tree freelist max_size
        { v with mem := r.1, reply := .count r.2 }
  | .from_freelist _ freelist count =>
      if freelist = 0 then { v with reply := .nothing }
      else { v with
        tree := Radix.freelist_to_radix v.tree v.mem freelist count
        reply := .nothing }
  | .write a page_no => { v with mem := v.mem.store16 a page_no, reply := .nothing }

/-- The heap, the tree's address and the last reply. -/
structure Program where
  heap : Heap
  tree : Nat
  reply : Reply

def Program.step (x : Program) : Call → Checked Program
  | .insert M page_no => do
      let h ← radix_tree_insert M x.heap x.tree page_no
      return ⟨h, x.tree, .nothing⟩
  | .lookup page_no => do
      let b ← radix_tree_lookup x.heap x.tree page_no
      return { x with reply := .found b }
  | .delete page_no => do
      let h ← radix_tree_delete x.heap x.tree page_no
      return ⟨h, x.tree, .nothing⟩
  | .peek_min => do
      let page ← radix_tree_peek_min x.heap x.tree
      return { x with reply := .page page }
  | .pop_min => do
      let (page, h) ← radix_tree_pop_min x.heap x.tree
      return ⟨h, x.tree, .page page⟩
  | .to_freelist freelist max_size => do
      let (h, n) ← radix_to_freelist x.heap x.tree freelist max_size
      return ⟨h, x.tree, .count n⟩
  | .from_freelist M freelist count => do
      let h ← freelist_to_radix M x.heap x.tree freelist count
      return ⟨h, x.tree, .nothing⟩
  | .write a page_no => do
      let h ← x.heap.store a 2 page_no.toNat
      return ⟨h, x.tree, .nothing⟩

/-- Arrays are in the program's own blocks, or `NULL`. -/
def Call.Allows (base : List Block) : Call → Prop
  | .to_freelist freelist n | .from_freelist _ freelist n =>
      freelist = 0 ∨ ∃ b ∈ base, b.Holds freelist (2 * n)
  | .write a _ => ∃ b ∈ base, b.Holds a 2
  | _ => True

instance (base : List Block) : ∀ call : Call, Decidable (call.Allows base)
  | .to_freelist freelist n | .from_freelist _ freelist n =>
      inferInstanceAs (Decidable (freelist = 0 ∨ ∃ b ∈ base, b.Holds freelist (2 * n)))
  | .write a _ => inferInstanceAs (Decidable (∃ b ∈ base, b.Holds a 2))
  | .insert _ _ | .lookup _ | .delete _ | .peek_min | .pop_min => inferInstanceAs (Decidable True)

/-- `malloc` has no region for the nodes of a page that is inserted. -/
def Denied (x : Program) : Call → Prop
  | .insert M _ => M.address x.heap.live REGION_SIZE = 0
  | .from_freelist M freelist count => ∃ i < count, ∃ h,
      freelist_to_radix M x.heap x.tree freelist i = .ok h ∧ M.address h.live REGION_SIZE = 0
  | _ => False

/-- The program's state follows the value: the same reply, the program's blocks with the contents
they should have, and a tree that can be destroyed, which leaves nothing else behind. -/
structure Serves (base : List Block) (v : View) (x : Program) : Prop where
  reply : x.reply = v.reply
  kept : ∀ b ∈ base, b ∈ x.heap.live ∧ ∀ i, b.Holds i 1 → x.heap.mem i = v.mem i
  destroyed : ∃ h, radix_tree_destroy x.heap x.tree = .ok h ∧ h.live.Perm base
    ∧ ∀ b ∈ base, ∀ i, b.Holds i 1 → h.mem i = v.mem i

theorem Holding.serves {base : List Block} {v : View} {x : Program}
    (hT : Holding ⟨x.tree, TREE_SIZE⟩ base v.mem x.heap x.tree v.tree)
    (hreply : x.reply = v.reply) : Serves base v x := by
  refine ⟨hreply, fun b hb => ?_, hT.destroy rfl⟩
  obtain ⟨A, s, ps, g⟩ := hT.grown
  exact ⟨g.live.mem_iff.mpr (List.mem_append_right _ (List.mem_cons_of_mem _ hb)),
    g.kept b (.inl hb)⟩

/-- **One call** of the program. -/
theorem Holding.step {base : List Block} {v : View} {x : Program}
    (hT : Holding ⟨x.tree, TREE_SIZE⟩ base v.mem x.heap x.tree v.tree) {call : Call}
    (hallow : call.Allows base) :
    Safe (Denied x call) (x.step call) fun x' => x'.tree = x.tree ∧ x'.reply = (v.step call).reply
      ∧ Holding ⟨x.tree, TREE_SIZE⟩ base (v.step call).mem x'.heap x.tree (v.step call).tree := by
  cases call with
  | insert M page_no => exact Safe.bind (hT.insert M page_no) fun h' hT' => ⟨rfl, rfl, hT'⟩
  | lookup page_no =>
      simp only [Program.step, hT.lookup, ok_bind]
      exact ⟨rfl, rfl, hT⟩
  | delete page_no =>
      obtain ⟨m, hrun, hT'⟩ := hT.delete page_no
      simp only [Program.step, hrun, ok_bind]
      exact ⟨rfl, rfl, hT'⟩
  | peek_min =>
      simp only [Program.step, hT.peek_min, ok_bind]
      exact ⟨rfl, rfl, hT⟩
  | pop_min =>
      obtain ⟨m, hrun, hT'⟩ := hT.pop_min
      simp only [Program.step, hrun, ok_bind]
      exact ⟨rfl, rfl, hT'⟩
  | to_freelist freelist max_size =>
      by_cases h0 : freelist = 0
      · have hrun : radix_to_freelist x.heap x.tree freelist max_size = .ok (x.heap, 0) :=
          if_pos (.inr h0)
        simp only [Program.step, hrun, ok_bind, View.step, if_pos h0]
        exact ⟨rfl, rfl, hT⟩
      · obtain ⟨b, hb, hin⟩ := hallow.resolve_left h0
        obtain ⟨m, hrun, hT'⟩ := hT.to_freelist (.inl hb) h0 hin
        simp only [Program.step, hrun, ok_bind, View.step, if_neg h0]
        exact ⟨rfl, rfl, hT'⟩
  | from_freelist M freelist count =>
      by_cases h0 : freelist = 0
      · have hrun : freelist_to_radix M x.heap x.tree freelist count = .ok x.heap :=
          if_pos (.inr h0)
        simp only [Program.step, hrun, ok_bind, View.step, if_pos h0]
        exact ⟨rfl, rfl, hT⟩
      · obtain ⟨b, hb, hin⟩ := hallow.resolve_left h0
        simp only [View.step, if_neg h0]
        exact Safe.bind (hT.from_freelist M (.inl hb) h0 count hin) fun h' hT' => ⟨rfl, rfl, hT'⟩
  | write a page_no =>
      obtain ⟨b, hb, hin⟩ := hallow
      obtain ⟨hrun, hT'⟩ := hT.write (.inl hb) hin page_no.toNat
      simp only [Program.step, hrun, ok_bind]
      exact ⟨rfl, rfl, hT'⟩

/-- A call of the program, beside the call on the value. -/
def Call.wp (x : View × Program) (call : Call) (R : View × Program → Prop) : Prop :=
  Safe (Denied x.2 call) (x.2.step call) fun x' => R (x.1.step call, x')

/-- **The tree on the heap is the tree of values**, in every program: no call accesses memory
outside live blocks or aborts while `malloc` has a region; all replies and arrays are those of
the value; and the tree can be destroyed at any time, which gives every block back. -/
theorem radix_tree_realises (M : Malloc) (h₀ : Heap) (calls : List Call)
    (hallow : ∀ call ∈ calls, call.Allows h₀.live) :
    ∃ tree h, radix_tree_create M h₀ = .ok (tree, h)
      ∧ (tree = 0 → h = h₀ ∧ M.address h₀.live TREE_SIZE = 0)
      ∧ (tree ≠ 0 → Wp.Surely Call.wp (fun _ _ x => Serves h₀.live x.1 x.2)
          (⟨Radix.radix_tree_create, h₀.mem, .nothing⟩, ⟨h, tree, .nothing⟩) calls) := by
  rcases radix_tree_create_spec M h₀ with ⟨hz, hrun⟩ | ⟨tree, h, hrun, -, hne, hcreated⟩
  · exact ⟨0, h₀, hrun, fun _ => ⟨rfl, hz⟩, fun hne => absurd rfl hne⟩
  refine ⟨tree, h, hrun, fun h0 => absurd h0 hne, fun hne => ?_⟩
  refine @Wp.surely_of_tracked _ _ _ Call.wp _
    (fun v x => x.1 = v ∧ Holding ⟨x.2.tree, TREE_SIZE⟩ h₀.live v.mem x.2.heap x.2.tree v.tree)
    View.step (fun _ _ => True) (fun _ call => call.Allows h₀.live)
    (fun x call R R' hR hx => hx.mono id fun x' hx' => hR _ hx') ?_ calls
    ⟨Radix.radix_tree_create, h₀.mem, .nothing⟩ _ ⟨rfl, hcreated.holding hne⟩ ?_ ?_
  · rintro v ⟨_, x⟩ call ⟨rfl, hT⟩ - hcall
    refine (hT.step hcall).mono id ?_
    rintro ⟨h', tree', reply⟩ ⟨rfl, hreply, hT'⟩
    exact ⟨hT'.serves hreply, rfl, hT'⟩
  · exact (Run.eachStep_iff_forall (P := fun _ => True) calls _).mpr fun _ _ => trivial
  · exact (Run.eachStep_iff_forall (P := fun call => call.Allows h₀.live) calls _).mpr hallow

/-- A heap in which the program has room for 25 page numbers. -/
def program_heap : Heap := ⟨fun _ => 0, [⟨1000, 50⟩], by decide, by decide⟩

/-- Two pages go in, one comes out by its number and one as the smallest; an array is read and
written. -/
theorem radix_tree_realises_witness :
    ∃ tree h, radix_tree_create .bump program_heap = .ok (tree, h)
      ∧ (tree = 0 → h = program_heap ∧ Malloc.bump.address program_heap.live TREE_SIZE = 0)
      ∧ (tree ≠ 0 → Wp.Surely Call.wp (fun _ _ x => Serves program_heap.live x.1 x.2)
          (⟨Radix.radix_tree_create, program_heap.mem, .nothing⟩, ⟨h, tree, .nothing⟩)
          [.insert .bump 300, .insert .bump 5, .delete 300, .write 1000 7, .write 1002 6,
            .from_freelist .bump 1000 2, .lookup 7, .pop_min, .to_freelist 1010 20, .peek_min]) :=
  radix_tree_realises .bump program_heap _ (by decide)

end PreSeQL.RadixHeap
