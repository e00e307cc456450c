/-
  PreSeQL.Algorithm.RadixGrowth — a radix tree that grows in its arena.

  The tree's struct is inside a block `owner`, the nodes behind the root are pieces of the
  tree's own arena, and the other live blocks belong to the program.  `Sites` says where all
  of these are, and its lemmas that no two of them share a byte; `Grown` adds what the
  bytes say.

    • `add_node_spec` — one node,
    • `Grown.insert` — a page.
-/
import PreSeQL.Algorithm.RadixNodes
import PreSeQL.Allocator.Copy

namespace PreSeQL.RadixHeap

open PreSeQL.Lib PreSeQL.Lib.PointerTrie PreSeQL.Allocator
open PreSeQL.Radix (RADIX_SIZE RadixNode RadixTree radix_index levels radix_path)

/-! ## §1. Where everything is. -/

/-- Blocks of the program: those that have nothing to do with the tree, and the parts of `owner`
outside the tree's struct. -/
def Mine (owner : Block) (base : List Block) (tree : Nat) (b : Block) : Prop :=
  b ∈ base ∨ owner.Holds b.addr b.size ∧ b.Disjoint ⟨tree, TREE_SIZE⟩

structure Sites (h : Heap) (owner : Block) (base : List Block) (tree : Nat) (N : Set Path)
    (A : Path → Nat) (s : Space) (ps : List Piece) : Prop where
  laid : Allocator.Laid h s.regions
  live : h.live.Perm (s.regions.map Region.block ++ owner :: base)
  holds : owner.Holds tree TREE_SIZE
  stacked : Stacked s ps
  root : A [] = tree
  nodes : ∀ w ∈ N, w ≠ [] → ∃ p ∈ ps, p.block s.regions = node_block (A w)
  injective : ∀ v ∈ N, ∀ w ∈ N, A v = A w → v = w

namespace Sites

variable {h : Heap} {owner : Block} {base : List Block} {tree : Nat} {N : Set Path}
  {A : Path → Nat} {s : Space} {ps : List Piece} (hs : Sites h owner base tree N A s ps)

include hs

theorem valid_tree : h.Valid tree TREE_SIZE :=
  ⟨owner, hs.live.mem_iff.mpr (List.mem_append_right _ List.mem_cons_self), hs.holds⟩

/-- The struct is in none of the regions. -/
theorem region_tree {r : Region} (hr : r ∈ s.regions) :
    r.block.Disjoint ⟨tree, TREE_SIZE⟩ := by
  have hdisjoint := (region_apart_base hs.live hr List.mem_cons_self).2
  have hholds := hs.holds
  simp only [Block.Disjoint, Block.Holds] at hdisjoint hholds ⊢
  omega

/-- The program's blocks are apart from the struct. -/
theorem mine_tree {b : Block} (hb : Mine owner base tree b) : b.Disjoint ⟨tree, TREE_SIZE⟩ := by
  rcases hb with hb | ⟨-, hdisjoint⟩
  · have hpairwise := (hs.live.pairwise_iff fun h => h.symm).mp h.apart
    have hdisjoint := ((List.pairwise_cons.mp (List.pairwise_append.mp hpairwise).2.1).1 b hb).2
    have hholds := hs.holds
    simp only [Block.Disjoint, Block.Holds] at hdisjoint hholds ⊢
    omega
  · exact hdisjoint

/-- They are apart from the regions. -/
theorem mine_region {b : Block} (hb : Mine owner base tree b) {r : Region} (hr : r ∈ s.regions) :
    b.Disjoint r.block := by
  rcases hb with hb | ⟨hin, -⟩
  · exact (region_apart_base hs.live hr (List.mem_cons_of_mem _ hb)).2.symm
  · have hdisjoint := (region_apart_base hs.live hr List.mem_cons_self).2
    simp only [Block.Disjoint, Block.Holds] at hdisjoint hin ⊢
    omega

/-- A node is the root or among the words of a region. -/
theorem place {w : Path} (hw : w ∈ N) : (w = [] ∧ A w = tree)
    ∨ ∃ r ∈ s.regions, r.block.Holds (A w) NODE_SIZE := by
  by_cases hne : w = []
  · subst hne
    exact .inl ⟨rfl, hs.root⟩
  · obtain ⟨p, hp, hblock⟩ := hs.nodes w hw hne
    obtain ⟨r, hr, -, hholds⟩ := hs.stacked.holds hp
    rw [hblock] at hholds
    exact .inr ⟨r, hr, hholds⟩

theorem valid_node {w : Path} (hw : w ∈ N) : h.Valid (A w) NODE_SIZE := by
  rcases hs.place hw with ⟨-, heq⟩ | ⟨r, hr, hholds⟩
  · rw [heq]
    exact hs.valid_tree.sub (Nat.le_refl _) (Nat.add_le_add_left (by decide) _)
  · exact ⟨r.block, hs.laid.mem_live hr, hholds⟩

/-- A node in a region is not in the struct. -/
theorem node_tree {r : Region} (hr : r ∈ s.regions) {a : Nat} (ha : r.block.Holds a NODE_SIZE) :
    (node_block a).Disjoint ⟨tree, TREE_SIZE⟩ := by
  have hdisjoint := hs.region_tree hr
  simp only [Block.Disjoint, Block.Holds, node_block] at hdisjoint ha ⊢
  omega

/-- The fields of the arena are in no node. -/
theorem fields_node {w : Path} (hw : w ∈ N) :
    (⟨begin_at tree, 16⟩ : Block).Disjoint (node_block (A w)) := by
  rcases hs.place hw with ⟨-, heq⟩ | ⟨r, hr, hholds⟩
  · rw [heq]
    exact .inr (Nat.le_refl _)
  · have hdisjoint := hs.node_tree hr hholds
    simp only [Block.Disjoint, node_block, begin_at, TREE_SIZE] at hdisjoint ⊢
    omega

/-- No header is in a node. -/
theorem header_node {r : Region} (hr : r ∈ s.regions) {w : Path} (hw : w ∈ N) :
    r.header.Disjoint (node_block (A w)) := by
  by_cases hne : w = []
  · subst hne
    have hdisjoint := hs.region_tree hr
    rw [hs.root]
    simp only [Block.Disjoint, Region.block, Region.header, node_block, NODE_SIZE, TREE_SIZE]
      at hdisjoint ⊢
    omega
  · obtain ⟨p, hp, hblock⟩ := hs.nodes w hw hne
    exact hblock ▸ hs.stacked.disjoint_header hs.laid hp _ (List.mem_map_of_mem hr)

theorem header_fields {r : Region} (hr : r ∈ s.regions) :
    r.header.Disjoint ⟨begin_at tree, 16⟩ := by
  have hdisjoint := hs.region_tree hr
  simp only [Block.Disjoint, Region.block, Region.header, begin_at, TREE_SIZE] at hdisjoint ⊢
  omega

theorem mine_node {b : Block} (hb : Mine owner base tree b) {w : Path} (hw : w ∈ N) :
    b.Disjoint (node_block (A w)) := by
  rcases hs.place hw with ⟨-, heq⟩ | ⟨r, hr, hholds⟩
  · rw [heq]
    have hdisjoint := hs.mine_tree hb
    simp only [Block.Disjoint, node_block, NODE_SIZE, TREE_SIZE] at hdisjoint ⊢
    omega
  · have hdisjoint := hs.mine_region hb hr
    simp only [Block.Disjoint, Block.Holds, node_block] at hdisjoint hholds ⊢
    omega

theorem mine_fields {b : Block} (hb : Mine owner base tree b) :
    b.Disjoint ⟨begin_at tree, 16⟩ := by
  have hdisjoint := hs.mine_tree hb
  simp only [Block.Disjoint, begin_at, TREE_SIZE] at hdisjoint ⊢
  omega

theorem mine_header {b : Block} (hb : Mine owner base tree b) {r : Region}
    (hr : r ∈ s.regions) : b.Disjoint r.header := by
  have hdisjoint := hs.mine_region hb hr
  simp only [Block.Disjoint, Region.block, Region.header] at hdisjoint ⊢
  omega

theorem mine_valid {b : Block} (hb : Mine owner base tree b) {a n : Nat} (ha : b.Holds a n) :
    h.Valid a n := by
  rcases hb with hb | ⟨hin, -⟩
  · exact ⟨b, hs.live.mem_iff.mpr (List.mem_append_right _ (List.mem_cons_of_mem _ hb)), ha⟩
  · refine ⟨owner, hs.live.mem_iff.mpr (List.mem_append_right _ List.mem_cons_self), ?_⟩
    unfold Block.Holds at hin ha ⊢
    omega

/-- **No two nodes share a byte.** -/
theorem apart {v w : Path} (hv : v ∈ N) (hw : w ∈ N) (hne : v ≠ w) :
    (node_block (A v)).Disjoint (node_block (A w)) := by
  have hroot : ∀ {u : Path} {r : Region}, r ∈ s.regions → r.block.Holds (A u) NODE_SIZE →
      (node_block (A u)).Disjoint (node_block tree) := by
    intro u r hr hholds
    have hdisjoint := hs.node_tree hr hholds
    simp only [Block.Disjoint, node_block, NODE_SIZE, TREE_SIZE] at hdisjoint ⊢
    omega
  by_cases hv0 : v = []
  · subst hv0
    rcases hs.place hw with ⟨rfl, -⟩ | ⟨r, hr, hholds⟩
    · exact absurd rfl hne
    · exact hs.root ▸ (hroot hr hholds).symm
  · by_cases hw0 : w = []
    · subst hw0
      rcases hs.place hv with ⟨rfl, -⟩ | ⟨r, hr, hholds⟩
      · exact absurd rfl hne
      · exact hs.root ▸ hroot hr hholds
    · obtain ⟨p, hp, hpv⟩ := hs.nodes v hv hv0
      obtain ⟨q, hq, hqw⟩ := hs.nodes w hw hw0
      have hblocks : node_block (A v) ≠ node_block (A w) :=
        fun heq => hne (hs.injective v hv w hw (congrArg Block.addr heq))
      rw [← hpv, ← hqw] at hblocks ⊢
      exact (hs.stacked.disjoint hs.laid).forall (List.mem_map_of_mem hp) (List.mem_map_of_mem hq)
        hblocks

end Sites

/-! ## §2. What the bytes say. -/

/-- What `malloc` is asked for when the tree's arena needs a region. -/
abbrev REGION_SIZE : Nat := 24 + 8 * ARENA_REGION_DEFAULT_CAPACITY

/-- The arena in the tree's struct. -/
def tree_arena (m : Mem) (tree : Nat) : Arena :=
  ⟨m.load (begin_at tree) 8, m.load (end_at tree) 8⟩

/-- A tree with the paths `N` whose nodes are the pieces `ps` of its arena; the program's blocks
have the contents `client`. -/
structure Grown (owner : Block) (base : List Block) (client : Mem) (h : Heap) (tree : Nat)
    (N : Set Path) (A : Path → Nat) (s : Space) (ps : List Piece) : Prop where
  laid : PointerTrie.Laid (links h.mem) A N
  held : Held h (tree_arena h.mem tree) s
  live : h.live.Perm (s.regions.map Region.block ++ owner :: base)
  holds : owner.Holds tree TREE_SIZE
  stacked : Stacked s ps
  root : A [] = tree
  nodes : ∀ w ∈ N, w ≠ [] → ∃ p ∈ ps, p.block s.regions = node_block (A w)
  kept : ∀ b, Mine owner base tree b → ∀ i, b.Holds i 1 → h.mem i = client i

theorem tree_arena_congr {m m' : Mem} {tree : Nat}
    (hm : ∀ i, (⟨begin_at tree, 16⟩ : Block).Holds i 1 → m' i = m i) :
    tree_arena m' tree = tree_arena m tree := by
  unfold tree_arena
  rw [Mem.load_congr 8 (begin_at tree) fun i h₁ h₂ => hm i ?_,
    Mem.load_congr 8 (end_at tree) fun i h₁ h₂ => hm i ?_]
  all_goals
    simp only [Block.Holds, begin_at, end_at] at h₁ h₂ ⊢
    omega

theorem valid_fields {h : Heap} {tree : Nat} (hv : h.Valid tree TREE_SIZE) :
    h.Valid (begin_at tree) 8 ∧ h.Valid (end_at tree) 8 := by
  constructor <;> refine hv.sub ?_ ?_ <;> simp only [begin_at, end_at, TREE_SIZE] <;> omega

theorem load_arena_eq {h : Heap} {tree : Nat} (hv : h.Valid tree TREE_SIZE) :
    load_arena h tree = .ok (tree_arena h.mem tree) := by
  obtain ⟨hbegin, hend⟩ := valid_fields hv
  simp only [load_arena, Heap.load_of_valid hbegin, Heap.load_of_valid hend, ok_bind]
  rfl

/-- The memory with the arena `a` in the struct. -/
def with_arena (m : Mem) (tree : Nat) (a : Arena) : Mem :=
  (m.store (begin_at tree) 8 a.begin_).store (end_at tree) 8 a.end_

theorem store_arena_eq {h : Heap} {tree : Nat} (hv : h.Valid tree TREE_SIZE) (a : Arena) :
    store_arena h tree a = .ok (h.setMem (with_arena h.mem tree a)) := by
  obtain ⟨hbegin, hend⟩ := valid_fields hv
  simp only [store_arena, Heap.store_of_valid hbegin, ok_bind, Heap.store_setMem hend]
  rfl

theorem tree_arena_with_arena (m : Mem) (tree : Nat) {a : Arena} (hbegin : a.begin_ < 2 ^ 64)
    (hend : a.end_ < 2 ^ 64) : tree_arena (with_arena m tree a) tree = a := by
  unfold tree_arena with_arena
  have hapart : begin_at tree + 8 ≤ end_at tree ∨ end_at tree + 8 ≤ begin_at tree :=
    .inl (Nat.le_refl _)
  rw [Mem.load_store_of_disjoint _ hapart, load_store_word _ _ hbegin, load_store_word _ _ hend]

theorem with_arena_outside (m : Mem) (tree : Nat) (a : Arena) {i : Nat}
    (hi : ¬ (⟨begin_at tree, 16⟩ : Block).Holds i 1) : with_arena m tree a i = m i := by
  simp only [Block.Holds, begin_at] at hi
  rw [with_arena, Mem.store, Mem.fill_outside _ _ (by unfold end_at; omega), Mem.store,
    Mem.fill_outside _ _ (by unfold begin_at; omega)]

namespace Grown

variable {owner : Block} {base : List Block} {client : Mem} {h : Heap} {tree : Nat}
  {N : Set Path} {A : Path → Nat} {s : Space} {ps : List Piece}
  (g : Grown owner base client h tree N A s ps)

include g

theorem sites : Sites h owner base tree N A s ps :=
  ⟨g.held.laid, g.live, g.holds, g.stacked, g.root, g.nodes,
    fun _ hv _ hw => g.laid.injective hv hw⟩

theorem built : Built h A N :=
  ⟨g.laid, fun _ hw => g.sites.valid_node hw, fun _ hv _ hw hne => g.sites.apart hv hw hne⟩

/-- **Other contents**: the struct's arena and the headers stay, fewer paths are laid out. -/
theorem setMem {m client' : Mem} {N' : Set Path} (hsub : N' ⊆ N)
    (hlaid : PointerTrie.Laid (links m) A N')
    (hfields : ∀ i, (⟨begin_at tree, 16⟩ : Block).Holds i 1 → m i = h.mem i)
    (hheaders : ∀ r ∈ s.regions, ∀ i, r.header.Holds i 1 → m i = h.mem i)
    (hkept : ∀ b, Mine owner base tree b → ∀ i, b.Holds i 1 → m i = client' i) :
    Grown owner base client' (h.setMem m) tree N' A s ps where
  laid := hlaid
  held := by
    rw [Heap.setMem_mem, tree_arena_congr hfields]
    exact g.held.of_headers hheaders
  live := g.live
  holds := g.holds
  stacked := g.stacked
  root := g.root
  nodes w hw := g.nodes w (hsub hw)
  kept := hkept

/-- What changes only inside the nodes leaves everything else. -/
theorem inside {m : Mem} {N' : Set Path} (hm : Inside A N h.mem m) (hsub : N' ⊆ N)
    (hlaid : PointerTrie.Laid (links m) A N') :
    Grown owner base client (h.setMem m) tree N' A s ps := by
  have hoff : ∀ b : Block, (∀ w ∈ N, b.Disjoint (node_block (A w))) → ∀ i, b.Holds i 1 →
      m i = h.mem i := by
    refine fun b hb i hi => hm i fun w hw hin => ?_
    have hdisjoint := hb w hw
    simp only [Block.Disjoint, Block.Holds] at hdisjoint hi hin
    omega
  refine g.setMem hsub hlaid (hoff _ fun w hw => g.sites.fields_node hw)
    (fun r hr => hoff _ fun w hw => g.sites.header_node hr hw) fun b hb i hi => ?_
  rw [← g.kept b hb i hi]
  exact hoff b (fun w hw => g.sites.mine_node hb hw) i hi

/-- The program writes into one of its own blocks. -/
theorem write {b : Block} (hb : Mine owner base tree b) {a n : Nat} (ha : b.Holds a n) (v : Nat) :
    Grown owner base (client.store a n v) (h.setMem (h.mem.store a n v)) tree N A s ps := by
  have hoff : ∀ c : Block, b.Disjoint c → ∀ i, c.Holds i 1 → h.mem.store a n v i = h.mem i := by
    intro c hc i hi
    refine Mem.fill_outside _ _ ?_
    simp only [Block.Disjoint, Block.Holds] at hc hi ha
    omega
  refine g.setMem (Set.Subset.refl N) (g.built.setMem fun w hw => ?_).laid
    (hoff _ (g.sites.mine_fields hb)) (fun r hr => hoff _ (g.sites.mine_header hb hr))
    fun c hc i hi => ?_
  · exact hoff _ (g.sites.mine_node hb hw)
  · have hsame := g.kept c hc i hi
    simp only [Mem.store, Mem.fill]
    split
    next => rfl
    next => exact hsame

/-- What the program reads from its own blocks. -/
theorem load_mine {b : Block} (hb : Mine owner base tree b) {a n : Nat} (ha : b.Holds a n) :
    h.load a n = .ok (client.load a n) := by
  rw [Heap.load_of_valid (g.sites.mine_valid hb ha)]
  refine congrArg Except.ok (Mem.load_congr n a fun i h₁ h₂ => g.kept b hb i ?_)
  unfold Block.Holds at ha ⊢
  omega

/-! ## §3. A further node. -/

/-- Where everything is once a node has been allocated for the path `w ++ [d]`. -/
theorem sites_pushed {w : Path} {d : Fin RADIX_SIZE} {fresh : Nat} {l : Bytes}
    {v : Nat × Arena × Heap} (hv : Pushed h s NODE_SIZE fresh l v) :
    Sites v.2.2 owner base tree (insert (w ++ [d]) N) (Function.update A (w ++ [d]) v.1)
      (s.alloc (words NODE_SIZE) fresh).2 (ps ++ [s.top NODE_SIZE fresh]) := by
  have hs' : Stacked (s.alloc (words NODE_SIZE) fresh).2 (ps ++ [s.top NODE_SIZE fresh]) :=
    g.stacked.alloc g.held.cur_lt NODE_SIZE fresh
  have hlive := hv.live_perm g.live
  have hblock : (s.top NODE_SIZE fresh).block (s.alloc (words NODE_SIZE) fresh).2.regions
      = node_block v.1 := hv.block_eq
  have htop : s.top NODE_SIZE fresh ∈ ps ++ [s.top NODE_SIZE fresh] :=
    List.mem_append_right _ (List.mem_singleton_self _)
  have hroot : Function.update A (w ++ [d]) v.1 [] = tree := by
    rw [Function.update_of_ne (by simp), g.root]
  have hold : Sites v.2.2 owner base tree {u ∈ N | u ≠ w ++ [d]} A
      (s.alloc (words NODE_SIZE) fresh).2 (ps ++ [s.top NODE_SIZE fresh]) := by
    refine ⟨hv.held.laid, hlive, g.holds, hs', g.root, fun u hu hne => ?_,
      fun _ hu _ hu' => g.laid.injective hu.1 hu'.1⟩
    obtain ⟨p, hp, hpu⟩ := g.nodes u hu.1 hne
    exact ⟨p, List.mem_append_left _ hp, (g.stacked.block_alloc hp _ _).trans hpu⟩
  -- the new node is at none of the old addresses
  have hfresh : ∀ u ∈ N, u ≠ w ++ [d] → A u ≠ v.1 := by
    intro u hu hne heq
    have hdisjoint : (node_block (A u)).Disjoint (node_block v.1) := by
      by_cases hu0 : u = []
      · subst hu0
        obtain ⟨r, hr, -, hholds⟩ := hs'.holds htop
        rw [hblock] at hholds
        have := hold.node_tree hr hholds
        rw [g.root]
        simp only [Block.Disjoint, node_block, NODE_SIZE, TREE_SIZE] at this ⊢
        omega
      · obtain ⟨p, hp, hpu⟩ := g.nodes u hu hu0
        have hpairwise := hs'.disjoint hv.held.laid
        rw [List.map_append, List.pairwise_append] at hpairwise
        have := hpairwise.2.2 _ (List.mem_map_of_mem hp) _
          (List.mem_map_of_mem (List.mem_singleton_self _))
        rwa [hblock, g.stacked.block_alloc hp, hpu] at this
    rw [heq] at hdisjoint
    simp only [Block.Disjoint, node_block, NODE_SIZE] at hdisjoint
    omega
  refine ⟨hv.held.laid, hlive, g.holds, hs', hroot, ?_, ?_⟩
  · intro u hu hne
    by_cases heq : u = w ++ [d]
    · subst heq
      rw [Function.update_self]
      exact ⟨_, htop, hblock⟩
    · rw [Function.update_of_ne heq]
      exact hold.nodes u ⟨hu.resolve_left heq, heq⟩ hne
  · intro u hu u' hu' heq
    by_cases h₁ : u = w ++ [d] <;> by_cases h₂ : u' = w ++ [d]
    · rw [h₁, h₂]
    · rw [h₁, Function.update_self, Function.update_of_ne h₂] at heq
      exact absurd heq.symm (hfresh u' (hu'.resolve_left h₂) h₂)
    · rw [h₂, Function.update_self, Function.update_of_ne h₁] at heq
      exact absurd heq (hfresh u (hu.resolve_left h₁) h₁)
    · rw [Function.update_of_ne h₁, Function.update_of_ne h₂] at heq
      exact g.laid.injective (hu.resolve_left h₁) (hu'.resolve_left h₂) heq

/-- **A zeroed node** under the pointer at `d` of the node of `w`. -/
theorem push {w : Path} (hw : w ∈ N) {d : Fin RADIX_SIZE} (hd : w ++ [d] ∉ N) {fresh : Nat}
    {l : Bytes} {v : Nat × Arena × Heap} (hv : Pushed h s NODE_SIZE fresh l v) {m : Mem}
    (hzero : ∀ e, links m v.1 e = 0) (hset : links m (A w) d = v.1)
    (harena : tree_arena m tree = v.2.1)
    (hm : ∀ i, ¬ (node_block v.1).Holds i 1 → ¬ (⟨children_at (A w) d, 8⟩ : Block).Holds i 1 →
      ¬ (⟨begin_at tree, 16⟩ : Block).Holds i 1 → m i = v.2.2.mem i) :
    Grown owner base client (v.2.2.setMem m) tree (insert (w ++ [d]) N)
      (Function.update A (w ++ [d]) v.1) (s.alloc (words NODE_SIZE) fresh).2
      (ps ++ [s.top NODE_SIZE fresh]) := by
  have hs := g.sites_pushed (w := w) (d := d) hv
  have hA : ∀ u ∈ N, Function.update A (w ++ [d]) v.1 u = A u := by
    intro u hu
    refine Function.update_of_ne ?_ _ _
    rintro rfl
    exact hd hu
  have hwN : w ∈ insert (w ++ [d]) N := .inr hw
  have hnew : w ++ [d] ∈ insert (w ++ [d]) N := .inl rfl
  have hchild := node_holds_child (A w) d
  -- what the store to the pointer has touched is in the node of `w`
  have hoff : ∀ b : Block, b.Disjoint (node_block (A w)) → ∀ i, b.Holds i 1 →
      ¬ (⟨children_at (A w) d, 8⟩ : Block).Holds i 1 := by
    intro b hb i hi hin
    simp only [Block.Disjoint, Block.Holds] at hb hi hin hchild
    omega
  have hheaders : ∀ r ∈ (s.alloc (words NODE_SIZE) fresh).2.regions, ∀ i, r.header.Holds i 1 →
      m i = v.2.2.mem i := by
    intro r hr i hi
    have hnode := hs.header_node hr hnew
    have hheader := hs.header_node hr hwN
    have hfields := hs.header_fields hr
    rw [Function.update_self] at hnode
    rw [hA w hw] at hheader
    refine hm i (fun hin => ?_) (hoff _ hheader i hi) fun hin => ?_
    · simp only [Block.Disjoint, Block.Holds] at hnode hi hin
      omega
    · simp only [Block.Disjoint, Block.Holds] at hfields hi hin
      omega
  -- everything else is as it was before the allocation
  have hrest : ∀ b : Block, b.Disjoint (node_block v.1) → b.Disjoint ⟨begin_at tree, 16⟩ →
      (∀ r ∈ (s.alloc (words NODE_SIZE) fresh).2.regions, r.header.Disjoint b) → ∀ i,
      b.Holds i 1 → ¬ (⟨children_at (A w) d, 8⟩ : Block).Holds i 1 → m i = h.mem i := by
    intro b hnode hfields hheader i hi hoff
    have hsame : v.2.2.mem i = h.mem i := by
      refine hv.within.at_of_disjoint (c := b) (fun c hc => ?_) hi
      rcases List.mem_cons.mp hc with rfl | hc
      · exact hnode.symm
      · obtain ⟨r, hr, rfl⟩ := List.mem_map.mp hc
        exact hheader r hr
    rw [← hsame]
    refine hm i (fun hin => ?_) hoff fun hin => ?_
    · simp only [Block.Disjoint, Block.Holds] at hnode hi hin
      omega
    · simp only [Block.Disjoint, Block.Holds] at hfields hi hin
      omega
  refine ⟨?_, ?_, hs.live, hs.holds, hs.stacked, hs.root, hs.nodes, ?_⟩
  · refine g.laid.link hw hd ?_ ?_ hzero hset ?_
    · obtain ⟨b, hb, hholds⟩ := hs.valid_node hnew
      have hplaced := v.2.2.placed b hb
      rw [Function.update_self] at hholds
      unfold Block.Holds at hholds
      unfold Block.Placed at hplaced
      omega
    · intro u hu heq
      have := hs.injective u (.inr hu) _ hnew (by rw [hA u hu, Function.update_self, heq])
      exact hd (this ▸ hu)
    · intro u hu e hue
      have huN : u ∈ insert (w ++ [d]) N := .inr hu
      have hne : u ≠ w ++ [d] := fun heq => hd (heq ▸ hu)
      have hnode := hs.apart huN hnew hne
      have hfields := hs.fields_node huN
      rw [Function.update_self] at hnode
      rw [hA u hu] at hnode hfields
      refine Mem.load_congr 8 _ fun i h₁ h₂ => hrest (node_block (A u)) hnode hfields.symm
        (fun r hr => hA u hu ▸ hs.header_node hr huN) i ?_ ?_
      · have hin := node_holds_child (A u) e
        unfold Block.Holds at hin ⊢
        omega
      · -- another pointer
        intro hin
        by_cases huw : u = w
        · subst huw
          have hed : e.val ≠ d.val := fun heq => hue ⟨rfl, Fin.ext heq⟩
          simp only [Block.Holds] at hin
          unfold children_at at h₁ h₂ hin
          omega
        · have hdisjoint := hA u hu ▸ hA w hw ▸ hs.apart huN hwN huw
          refine hoff _ hdisjoint i ?_ hin
          have hin' := node_holds_child (A u) e
          unfold Block.Holds at hin' ⊢
          omega
  · rw [Heap.setMem_mem, harena]
    exact hv.held.of_headers hheaders
  · intro b hb i hi
    have hnode := hs.mine_node hb hnew
    rw [Function.update_self] at hnode
    rw [← g.kept b hb i hi]
    exact hrest b hnode (hs.mine_fields hb) (fun r hr => (hs.mine_header hb hr).symm) i hi
      (hoff b (hA w hw ▸ hs.mine_node hb hwN) i hi)

/-- **One node** of the insertion loop. -/
theorem add_node_spec (M : Malloc) {w : Path} (hw : w ∈ N) {d : Fin RADIX_SIZE}
    (hd : w ++ [d] ∉ N) :
    Safe (Refused M h s (words NODE_SIZE)) (add_node M h tree (children_at (A w) d)) fun h' =>
      let s' := (s.alloc (words NODE_SIZE) (fresh_region M h (words NODE_SIZE))).2
      h'.live = (s'.regions.drop s.regions.length).map Region.block ++ h.live
      ∧ ∃ node, Grown owner base client h' tree (insert (w ++ [d]) N)
        (Function.update A (w ++ [d]) node) s'
        (ps ++ [s.top NODE_SIZE (fresh_region M h (words NODE_SIZE))]) := by
  simp only [add_node, load_arena_eq g.sites.valid_tree, ok_bind]
  have hheld := g.held
  generalize tree_arena h.mem tree = a₀ at hheld ⊢
  refine Safe.bind (arena_alloc_pushed hheld M (by decide)) fun v hv => ?_
  obtain ⟨node, a, h₁⟩ := v
  have hs := g.sites_pushed (w := w) (d := d) hv
  have hnew : w ++ [d] ∈ insert (w ++ [d]) N := .inl rfl
  have hwN : w ∈ insert (w ++ [d]) N := .inr hw
  have hne : w ≠ w ++ [d] := by simp
  have hA : Function.update A (w ++ [d]) node w = A w := Function.update_of_ne hne _ _
  have hnode : Function.update A (w ++ [d]) node (w ++ [d]) = node := Function.update_self ..
  have hchild := node_holds_child (A w) d
  have hvalid := hs.valid_node hwN
  have hvalid' := hs.valid_node hnew
  have hapart := hs.apart hwN hnew hne
  have hfields := hs.fields_node hwN
  have hfields' := hs.fields_node hnew
  rw [hA] at hvalid hapart hfields
  rw [hnode] at hvalid' hapart hfields'
  have hslot : h₁.Valid (children_at (A w) d) 8 := by
    unfold Block.Holds node_block at hchild
    exact hvalid.sub hchild.1 hchild.2
  -- addresses are words
  have hword : ∀ i, addrAt (s.alloc (words NODE_SIZE)
      (fresh_region M h (words NODE_SIZE))).2.regions i < 2 ^ 64 := by
    intro i
    unfold addrAt
    cases hr : (s.alloc (words NODE_SIZE)
        (fresh_region M h (words NODE_SIZE))).2.regions[i]? with
    | none => exact Nat.two_pow_pos 64
    | some r =>
        have hblock := block_le (hs.laid.live i r hr)
        simp only [Option.elim_some]
        omega
  have hnode64 : node < 2 ^ 64 := by
    obtain ⟨b, hb, hholds⟩ := hvalid'
    have hplaced := (h₁.placed b hb).2
    unfold Block.Holds at hholds
    simp only [NODE_SIZE] at hholds
    omega
  have harena := tree_arena_with_arena h₁.mem tree (a := a) (hv.held.begin_eq ▸ hword _)
    (hv.held.end_eq ▸ hword _)
  simp only [store_arena_eq hs.valid_tree, ok_bind, Heap.store_setMem hslot,
    Heap.load_setMem hslot, load_store_word _ _ hnode64, Heap.memset_setMem hvalid']
  refine ⟨hv.live, node, g.push hw hd hv (fun e => ?_) ?_ ?_ fun i h₁ h₂ h₃ => ?_⟩
  · have hin := node_holds_child node e
    simp only [Block.Holds, node_block] at hin
    refine Mem.load_of_zero 8 (children_at node e) fun i h₁ h₂ => ?_
    rw [Mem.memset, Mem.fill_inside _ _ (by omega) (by omega)]
  · unfold links Mem.memset
    rw [Mem.load_fill_of_disjoint, load_store_word _ _ hnode64]
    simp only [Block.Disjoint, Block.Holds, node_block] at hapart hchild
    omega
  · refine (tree_arena_congr fun i hi => ?_).trans harena
    simp only [Block.Disjoint, Block.Holds, node_block] at hfields hfields' hchild hi
    rw [Mem.memset, Mem.fill_outside _ _ (by omega), Mem.store,
      Mem.fill_outside _ _ (by omega)]
  · simp only [Block.Holds, node_block] at h₁ h₂
    rw [Mem.memset, Mem.fill_outside _ _ (by omega), Mem.store,
      Mem.fill_outside _ _ (by omega), with_arena_outside _ _ _ h₃]

omit g in
/-- **The insertion loop** creates the nodes on the path that are missing.  It asks `malloc` for at
most one region, and does so before any other. -/
theorem insert_path_spec (M : Malloc) (page_no : UInt16) {live₀ : List Block} (ls : List Nat) :
    16 * ls.length ≤ ARENA_REGION_DEFAULT_CAPACITY → ∀ {h : Heap} {N : Set Path}
    {A : Path → Nat} {s : Space} {ps : List Piece} {v : Path},
      Grown owner base client h tree N A s ps → v ∈ N →
      (h.live = live₀ ∨ s.Room (16 * ls.length)) →
      Safe (M.address live₀ REGION_SIZE = 0) (insert_path M tree page_no ls h (A v)) fun h' =>
        ∃ A' s' ps', Grown owner base client h' tree
          (N ∪ {u | u <+: v ++ ls.map (radix_index page_no)}) A' s' ps' := by
  induction ls with
  | nil =>
      intro _ h N A s ps v g hv _
      refine ⟨A, s, ps, ?_⟩
      have hN : N ∪ {u | u <+: v ++ List.map (radix_index page_no) []} = N := by
        refine Set.union_eq_self_of_subset_right fun u hu => ?_
        rw [List.map_nil, List.append_nil] at hu
        exact g.laid.tree.closed hu hv
      rwa [hN]
  | cons level ls ih =>
      intro hlen h N A s ps v g hv hroom
      rw [List.length_cons] at hlen hroom
      have hwords : words NODE_SIZE = 16 := rfl
      have hfits : words NODE_SIZE ≤ 16 * (ls.length + 1) := by rw [hwords]; omega
      have hleft : 16 * (ls.length + 1) - words NODE_SIZE = 16 * ls.length := by
        rw [hwords]
        omega
      have happend : v ++ (level :: ls).map (radix_index page_no)
          = (v ++ [radix_index page_no level]) ++ ls.map (radix_index page_no) := by simp
      rw [happend]
      simp only [insert_path, g.built.load_links hv, ok_bind]
      by_cases hd : v ++ [radix_index page_no level] ∈ N
      · -- the child is there
        simp only [g.laid.child hd, if_neg (g.laid.nonzero hd)]
        refine ih (by omega) g hd (hroom.imp_right fun hr => ?_)
        obtain ⟨r, hr, hle⟩ := hr
        exact ⟨r, hr, by omega⟩
      · simp only [if_pos (g.laid.absent hv hd)]
        refine Safe.bind ((g.add_node_spec M hv hd).mono (fun hrefused => ?_) fun _ h' => h')
          fun h' hh' => ?_
        · rcases hroom with hlive | hroom
          · rw [← hlive]
            exact hrefused.2
          · have hfit : firstFit (words NODE_SIZE) _ _ = some 0 := hroom.firstFit_eq hfits
            rw [hrefused.1] at hfit
            cases hfit
        · obtain ⟨hlive', node, g'⟩ := hh'
          have hnew : v ++ [radix_index page_no level]
              ∈ insert (v ++ [radix_index page_no level]) N := .inl rfl
          have hA : Function.update A (v ++ [radix_index page_no level]) node v = A v :=
            Function.update_of_ne (by simp) _ _
          have hload := g'.built.load_links (.inr hv : v ∈ insert _ N) (radix_index page_no level)
          rw [hA, ← hA, g'.laid.child hnew, hA] at hload
          simp only [hload, ok_bind]
          have hsub : insert (v ++ [radix_index page_no level]) N
              ∪ {u | u <+: v ++ [radix_index page_no level] ++ ls.map (radix_index page_no)}
              = N ∪ {u | u <+: v ++ [radix_index page_no level] ++ ls.map (radix_index page_no)} := by
            rw [Set.insert_union]
            exact Set.insert_eq_of_mem (.inr (List.prefix_append _ _))
          have hsame : ∀ {s' : Space}, s'.regions = s.regions →
              (s'.regions.drop s.regions.length).map Region.block ++ h.live = h.live := by
            intro s' heq
            rw [heq, List.drop_length, List.map_nil, List.nil_append]
          rw [← hsub]
          refine ih (by omega) g' hnew ?_
          rcases hroom with hlive | hroom
          · rcases s.alloc_room (words NODE_SIZE) (fresh_region M h (words NODE_SIZE)) hfits hlen
              with hr | hr
            · exact .inl (hlive'.trans ((hsame hr).trans hlive))
            · rw [hleft] at hr
              exact .inr hr
          · have hr := (hroom.alloc hfits (fresh_region M h (words NODE_SIZE))).2
            rw [hleft] at hr
            exact .inr hr

end Grown

end PreSeQL.RadixHeap
