/-
  PreSeQL.Algorithm.RadixNodes — the nodes of a radix tree in memory.

  `Built h A N` says that the heap `h` holds a tree with the paths `N`, the node of the
  path `w` at the address `A w`.  Reading goes down the pointers as the functions of
  `RadixTree.lean` go down the children (`Below`); deletion clears pointers:

    • `lookup_path_eq`, `min_path_eq`, `walk_radix_eq` — the reading loops,
    • `find_path_eq`, `clean_parents_eq` — the two loops of `radix_tree_delete`.
-/
import PreSeQL.Lib.PointerTrie
import PreSeQL.Algorithm.RadixHeap
import PreSeQL.Allocator.Space

namespace PreSeQL.RadixHeap

open PreSeQL.Lib PreSeQL.Lib.PointerTrie PreSeQL.Allocator
open PreSeQL.Radix (RADIX_SIZE RadixNode radix_index levels)

/-! ## §1. Nodes in memory. -/

abbrev Path := List (Fin RADIX_SIZE)

/-- The pointers of the node at `a`. -/
def links (m : Mem) (a : Nat) (d : Fin RADIX_SIZE) : Nat := m.load (children_at a d) 8

def node_block (a : Nat) : Block := ⟨a, NODE_SIZE⟩

/-- A pointer is inside its node. -/
theorem node_holds_child (a : Nat) (d : Fin RADIX_SIZE) :
    (node_block a).Holds (children_at a d) 8 := by
  have hd : d.val < 16 := d.isLt
  simp only [node_block, Block.Holds, children_at, NODE_SIZE]
  omega

structure Built (h : Heap) (A : Path → Nat) (N : Set Path) : Prop where
  laid : Laid (links h.mem) A N
  valid : ∀ w ∈ N, h.Valid (A w) NODE_SIZE
  apart : ∀ v ∈ N, ∀ w ∈ N, v ≠ w → (node_block (A v)).Disjoint (node_block (A w))

/-- `m'` differs from `m` at most inside the nodes of `N`. -/
def Inside (A : Path → Nat) (N : Set Path) (m m' : Mem) : Prop :=
  ∀ i, (∀ w ∈ N, ¬ (node_block (A w)).Holds i 1) → m' i = m i

theorem Inside.refl (A : Path → Nat) (N : Set Path) (m : Mem) : Inside A N m m := fun _ _ => rfl

namespace Built

variable {h : Heap} {A : Path → Nat} {N : Set Path} (hb : Built h A N)

include hb

theorem valid_child {w : Path} (hw : w ∈ N) (d : Fin RADIX_SIZE) :
    h.Valid (children_at (A w) d) 8 := by
  have hd : d.val < 16 := d.isLt
  refine (hb.valid w hw).sub ?_ ?_ <;> simp only [children_at, NODE_SIZE] <;> omega

theorem load_links {w : Path} (hw : w ∈ N) (d : Fin RADIX_SIZE) :
    h.load (children_at (A w) d) 8 = .ok (links h.mem (A w) d) :=
  Heap.load_of_valid (hb.valid_child hw d)

/-- Memory that agrees on the nodes holds the same tree. -/
theorem setMem {m : Mem} (hm : ∀ w ∈ N, ∀ i, (node_block (A w)).Holds i 1 → m i = h.mem i) :
    Built (h.setMem m) A N where
  laid := by
    refine hb.laid.congr fun w hw d => Mem.load_congr 8 _ fun i h₁ h₂ => hm w hw i ?_
    have hin := node_holds_child (A w) d
    unfold Block.Holds at hin ⊢
    omega
  valid := hb.valid
  apart := hb.apart

/-- A store to one pointer is a store to that pointer only. -/
theorem links_store {w : Path} (hw : w ∈ N) (d : Fin RADIX_SIZE) {v : Nat} (hv : v < 2 ^ 64)
    {u : Path} (hu : u ∈ N) (e : Fin RADIX_SIZE) :
    links (h.mem.store (children_at (A w) d) 8 v) (A u) e
      = setLink (links h.mem) (A w) d v (A u) e := by
  by_cases huw : u = w
  · subst huw
    by_cases hed : e = d
    · subst hed
      rw [setLink, if_pos ⟨rfl, rfl⟩]
      exact load_store_word _ _ hv
    · rw [setLink, if_neg fun hc => hed hc.2]
      refine Mem.load_store_of_disjoint _ ?_
      have hne : e.val ≠ d.val := fun heq => hed (Fin.ext heq)
      unfold children_at
      omega
  · rw [setLink, if_neg fun hc => huw (hb.laid.injective hu hw hc.1)]
    refine Mem.load_store_of_disjoint _ ?_
    have hdisjoint := hb.apart u hu w hw huw
    have hd : d.val < 16 := d.isLt
    have he : e.val < 16 := e.isLt
    simp only [node_block, NODE_SIZE, Block.Disjoint] at hdisjoint
    unfold children_at
    omega

/-- **A pointer is cleared**: the paths through it are gone. -/
theorem unlink {w : Path} (hw : w ∈ N) (d : Fin RADIX_SIZE) :
    Built (h.setMem (h.mem.store (children_at (A w) d) 8 0)) A (Cut N (w ++ [d])) where
  laid := (hb.laid.unlink hw d).congr fun _ hu e => hb.links_store hw d (by decide) hu.1 e
  valid u hu := hb.valid u hu.1
  apart u hu v hv := hb.apart u hu.1 v hv.1

/-! ## §2. Reading. -/

variable {v : Path} {node : RadixNode} {d : Fin RADIX_SIZE}

theorem load_none (hn : Below N v node) (hc : node.child d = none) :
    h.load (children_at (A v) d) 8 = .ok 0 := by
  rw [hb.load_links hn.mem, hb.laid.absent hn.mem (hn.child_none hc)]

theorem load_some {c : RadixNode} (hn : Below N v node) (hc : node.child d = some c) :
    h.load (children_at (A v) d) 8 = .ok (A (v ++ [d])) ∧ A (v ++ [d]) ≠ 0 := by
  have hd := (hn.child_some hc).mem
  rw [hb.load_links hn.mem, hb.laid.child hd]
  exact ⟨rfl, hb.laid.nonzero hd⟩

theorem lookup_path_eq (page_no : UInt16) (ls : List Nat) : ∀ {v : Path} {node : RadixNode},
    Below N v node → lookup_path h page_no ls (A v) = .ok (Radix.lookup_path page_no ls node) := by
  induction ls with
  | nil => intro _ _ _; rfl
  | cons level ls ih =>
      intro v node hn
      rw [lookup_path, Radix.lookup_path]
      cases hc : node.child (radix_index page_no level) with
      | none => rw [hb.load_none hn hc]; rfl
      | some c =>
          obtain ⟨hload, hne⟩ := hb.load_some hn hc
          rw [hload, ok_bind, if_neg hne]
          exact ih (hn.child_some hc)

theorem first_child_eq (hn : Below N v node) (is : List (Fin RADIX_SIZE)) :
    first_child h (A v) is
      = .ok ((is.findSome? fun d => (node.child d).map fun c => (d, c)).map
          fun dc => (dc.1, A (v ++ [dc.1]))) := by
  induction is with
  | nil => rfl
  | cons i is ih =>
      rw [first_child, List.findSome?_cons]
      cases hc : node.child i with
      | none => rw [hb.load_none hn hc]; exact ih
      | some c =>
          obtain ⟨hload, hne⟩ := hb.load_some hn hc
          rw [hload, ok_bind, if_pos hne]
          rfl

theorem min_path_eq (ls : List Nat) : ∀ {v : Path} {node : RadixNode} (page_num : UInt16),
    Below N v node → min_path h ls (A v) page_num = .ok (Radix.min_path ls node page_num) := by
  induction ls with
  | nil => intro _ _ _ _; rfl
  | cons level ls ih =>
      intro v node page_num hn
      have hfirst : first_child h (A v) (List.finRange RADIX_SIZE)
          = .ok (node.firstChild.map fun dc => (dc.1, A (v ++ [dc.1]))) := hb.first_child_eq hn _
      rw [min_path, Radix.min_path, hfirst]
      cases hf : node.firstChild with
      | none => rfl
      | some dc =>
          obtain ⟨d, c⟩ := dc
          exact ih _ (hn.child_some (Trie.firstChild_eq_some hf).1)

/-- The search of `radix_tree_delete` looks at the same children as the lookup. -/
theorem has_children_eq {w : Path} (hw : w ∈ N) (is : List (Fin RADIX_SIZE)) :
    ∃ b, has_children h (A w) is = .ok b ∧ (b = true ↔ ∃ d ∈ is, w ++ [d] ∈ N) := by
  induction is with
  | nil => exact ⟨false, rfl, by simp⟩
  | cons i is ih =>
      rw [has_children, hb.load_links hw, ok_bind]
      by_cases hi : w ++ [i] ∈ N
      · rw [if_pos ((hb.laid.link_ne_zero hw i).mpr hi)]
        exact ⟨true, rfl, by simp [hi]⟩
      · rw [if_neg fun hne => hi ((hb.laid.link_ne_zero hw i).mp hne)]
        obtain ⟨b, hrun, hiff⟩ := ih
        exact ⟨b, hrun, by simp [hiff, hi]⟩

end Built

/-- **The walk** calls back as the walk over the value does, when the callback leaves the tree
alone. -/
theorem walk_radix_eq {σ τ : Type} {A : Path → Nat} {N : Set Path}
    {cb : Heap × σ → UInt16 → Checked (Heap × σ)} {cb' : τ → UInt16 → τ}
    {R : Heap × σ → τ → Prop} (hbuilt : ∀ x y, R x y → Built x.1 A N)
    (hcb : ∀ x y page, R x y → ∃ x', cb x page = .ok x' ∧ R x' (cb' y page)) (ls : List Nat) :
    ∀ {v : Path} {node : RadixNode} (pre : UInt16) {x : Heap × σ} {y : τ}, Below N v node →
      R x y → ∃ x', walk_radix cb ls (A v) pre x = .ok x'
        ∧ R x' (Radix.walk_radix cb' ls node pre y) := by
  induction ls with
  | nil =>
      intro v node pre x y hn hxy
      rw [walk_radix, if_neg ((hbuilt x y hxy).laid.nonzero hn.mem)]
      exact hcb x y pre hxy
  | cons level ls ih =>
      intro v node pre x y hn hxy
      rw [walk_radix, if_neg ((hbuilt x y hxy).laid.nonzero hn.mem), Radix.walk_radix]
      -- the indices one after the other
      generalize List.finRange RADIX_SIZE = is
      induction is generalizing x y with
      | nil => exact ⟨x, rfl, hxy⟩
      | cons i is ihi =>
          rw [List.foldlM_cons, List.foldl_cons]
          cases hc : node.child i with
          | none =>
              rw [(hbuilt x y hxy).load_none hn hc]
              exact ihi hxy
          | some c =>
              obtain ⟨hload, hne⟩ := (hbuilt x y hxy).load_some hn hc
              obtain ⟨x', hrun, hxy'⟩ := ih ((pre <<< 4) ||| UInt16.ofNat i.val)
                (hn.child_some hc) hxy
              rw [hload, ok_bind, if_neg hne, hrun]
              exact ihi hxy'

/-! ## §3. Deletion. -/

/-- The nodes above the end of a path and the letters taken, deepest first; the path is given
backwards. -/
def trail (A : Path → Nat) : Path → List (Nat × Fin RADIX_SIZE)
  | [] => []
  | d :: r => (A r.reverse, d) :: trail A r

section Delete

variable {h : Heap} {A : Path → Nat} {N : Set Path}

theorem find_path_of_mem (hb : Built h A N) (page_no : UInt16) (ls : List Nat) : ∀ {v : Path},
    v ++ ls.map (radix_index page_no) ∈ N →
      find_path h page_no ls (A v) (trail A v.reverse)
        = .ok (some (trail A (v ++ ls.map (radix_index page_no)).reverse)) := by
  induction ls with
  | nil => intro v _; simp [find_path]
  | cons level ls ih =>
      intro v hin
      have hin' : (v ++ [radix_index page_no level]) ++ ls.map (radix_index page_no) ∈ N := by
        simpa using hin
      have hd := hb.laid.tree.closed (List.prefix_append _ _) hin'
      have hv := hb.laid.tree.closed (List.prefix_append _ _) hd
      have hih := ih hin'
      rw [find_path, hb.load_links hv, ok_bind, if_neg ((hb.laid.link_ne_zero hv _).mpr hd),
        hb.laid.child hd]
      simpa [trail] using hih

theorem find_path_of_notMem (hb : Built h A N) (page_no : UInt16) (ls : List Nat) :
    ∀ {v : Path} (path : List (Nat × Fin RADIX_SIZE)), v ∈ N →
      v ++ ls.map (radix_index page_no) ∉ N → find_path h page_no ls (A v) path = .ok none := by
  induction ls with
  | nil => intro v path hv hout; simp [hv] at hout
  | cons level ls ih =>
      intro v path hv hout
      rw [find_path, hb.load_links hv, ok_bind]
      by_cases hd : v ++ [radix_index page_no level] ∈ N
      · rw [if_neg ((hb.laid.link_ne_zero hv _).mpr hd), hb.laid.child hd]
        exact ih _ hd (by simpa using hout)
      · rw [if_pos (hb.laid.absent hv hd)]
        rfl

/-- What deletion of the full word `w` leaves. -/
structure Removed (h : Heap) (A : Path → Nat) (N : Set Path) (n : Nat) (w : Path) (m : Mem)
    (N' : Set Path) : Prop where
  built : Built (h.setMem m) A N'
  pruned : Pruned n N'
  words : ∀ u : Path, u.length = n → (u ∈ N' ↔ u ∈ N ∧ u ≠ w)
  subset : N' ⊆ N
  inside : Inside A N h.mem m

theorem Inside.unlink {m : Mem} (hm : Inside A N h.mem m) {w : Path} (hw : w ∈ N)
    (d : Fin RADIX_SIZE) (v : Nat) : Inside A N h.mem (m.store (children_at (A w) d) 8 v) := by
  intro i hi
  rw [← hm i hi]
  refine Mem.fill_outside _ _ ?_
  have hout := hi w hw
  have hin := node_holds_child (A w) d
  unfold Block.Holds at hout hin
  omega

/-- The climb above level 3: the child at `f` of the node at the end of `r` was unlinked last. -/
theorem climb {n : Nat} {w : Path} (htree : IsTree N) (hpruned : Pruned n N) (hlen : w.length = n)
    (hw : w ∈ N) (r : Path) : ∀ {f : Fin RADIX_SIZE} {m : Mem},
      Built (h.setMem m) A (Cut N (r.reverse ++ [f])) → Lone n N w (r.reverse ++ [f]) →
      r.reverse ++ [f] <+: w → Inside A N h.mem m →
      ∃ m' N', clean_parents (h.setMem m) false (trail A r) = .ok (h.setMem m')
        ∧ Removed h A N n w m' N' := by
  induction r with
  | nil =>
      intro f m hb hlone hpre hm
      exact ⟨m, _, rfl, hb, hpruned.cut (.inl rfl), fun u => hlone.mem_cut hpre,
        fun _ hu => hu.1, hm⟩
  | cons e r ih =>
      intro f m hb hlone hpre hm
      rw [List.reverse_cons] at hb hlone hpre
      have hpre' : r.reverse ++ [e] <+: w := (List.prefix_append _ _).trans hpre
      have hlt : (r.reverse ++ [e]).length < n := by
        have := hpre.length_le
        rw [List.length_append, List.length_singleton] at this
        omega
      have hp : r.reverse ++ [e] ∈ Cut N (r.reverse ++ [e] ++ [f]) :=
        ⟨htree.closed hpre' hw, fun hcon => by simpa using hcon.length_le⟩
      have hq : r.reverse ∈ Cut N (r.reverse ++ [e] ++ [f]) :=
        hb.laid.tree.closed (List.prefix_append _ _) hp
      obtain ⟨b, hrun, hiff⟩ := hb.has_children_eq hp (List.finRange RADIX_SIZE)
      simp only [trail, clean_parents, hb.load_links hq, hb.laid.child hp, ok_bind, hrun]
      cases b with
      | true =>
          -- another child keeps the node
          obtain ⟨d, -, hd⟩ := hiff.mp rfl
          exact ⟨m, _, rfl, hb, hpruned.cut (.inr ⟨d, hd⟩), fun u => hlone.mem_cut hpre,
            fun _ hu => hu.1, hm⟩
      | false =>
          have hnone : ∀ d, r.reverse ++ [e] ++ [d] ∉ Cut N (r.reverse ++ [e] ++ [f]) :=
            fun d hd => Bool.false_ne_true (hiff.mpr ⟨d, List.mem_finRange d, hd⟩)
          have hstore := Heap.store_of_valid (hb.valid_child hq e) 0
          have hunlink := hb.unlink hq e
          rw [cut_cut] at hunlink
          simp only [hstore]
          exact ih hunlink (hlone.up htree hlt hnone) hpre' (hm.unlink hq.1 e 0)

/-- **Deletion of a full word**: its leaf is unlinked, and every node that this leaves without
children. -/
theorem clean_parents_eq {n : Nat} (hb : Built h A N) (hpruned : Pruned n N) {q : Path}
    {e : Fin RADIX_SIZE} (hlen : (q ++ [e]).length = n) (hw : q ++ [e] ∈ N) :
    ∃ m' N', clean_parents h true (trail A (q ++ [e]).reverse) = .ok (h.setMem m')
      ∧ Removed h A N n (q ++ [e]) m' N' := by
  have hq := hb.laid.tree.closed (List.prefix_append _ _) hw
  have hlone : Lone n N (q ++ [e]) (q.reverse.reverse ++ [e]) := by
    rw [List.reverse_reverse]
    exact fun u _ hu hpre => (hpre.eq_of_length (hlen.trans hu.symm)).symm
  have hstore := Heap.store_of_valid (hb.valid_child hq e) 0
  have hunlink := hb.unlink hq e
  rw [← List.reverse_reverse q] at hunlink
  obtain ⟨m', N', hrun, hremoved⟩ := climb (h := h) hb.laid.tree hpruned hlen hw q.reverse
    (by simpa using hunlink) hlone (by simp) ((Inside.refl A N h.mem).unlink hq e 0)
  refine ⟨m', N', ?_, hremoved⟩
  rw [← hrun]
  simp [trail, clean_parents, hstore]

end Delete

end PreSeQL.RadixHeap
