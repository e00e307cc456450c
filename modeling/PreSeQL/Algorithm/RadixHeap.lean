/-
  PreSeQL.Algorithm.RadixHeap — `radix_tree.c` on the heap.

  `RadixTree.lean` takes a node for a value.  Here a node is what it is in C: 128 bytes
  with sixteen pointers, from the arena that lies behind the root inside the tree's own
  struct.  Every access goes through the heap, so a dangling pointer or a node that was
  not zeroed would show as a fault.  The names are those of the source; the loops over
  `level` are recursions on the list of levels, as there.
-/
import PreSeQL.Allocator.Arena
import PreSeQL.Algorithm.FreeList

namespace PreSeQL.RadixHeap

open PreSeQL.Lib PreSeQL.Allocator
open PreSeQL.Radix (RADIX_SIZE radix_index levels freelist_cell)

/-! ## §1. Layout. -/

/-- `sizeof(RadixNode)` -/
abbrev NODE_SIZE : Nat := 128

/-- `sizeof(RadixTree)` -/
abbrev TREE_SIZE : Nat := 144

/-- Address of `node->children[idx]`; the root is at the address of the tree. -/
def children_at (node : Nat) (idx : Fin RADIX_SIZE) : Nat := node + 8 * idx.val

/-- Address of `tree->arena.begin`. -/
def begin_at (tree : Nat) : Nat := tree + 128

/-- Address of `tree->arena.end`. -/
def end_at (tree : Nat) : Nat := tree + 136

/-- The fields of `tree->arena`. -/
def load_arena (h : Heap) (tree : Nat) : Checked Arena := do
  let begin_ ← h.load (begin_at tree) 8
  let end_ ← h.load (end_at tree) 8
  return ⟨begin_, end_⟩

def store_arena (h : Heap) (tree : Nat) (a : Arena) : Checked Heap := do
  let h ← h.store (begin_at tree) 8 a.begin_
  h.store (end_at tree) 8 a.end_

/-! ## §2. Creation and destruction. -/

/-- The address of the new tree, 0 when `malloc` has no block for it. -/
def radix_tree_create (M : Malloc) (h : Heap) : Checked (Nat × Heap) :=
  let (tree, h) := h.malloc M TREE_SIZE
  if tree = 0 then .ok (0, h)
  else do
    let h ← h.memset tree 0 TREE_SIZE
    let h ← store_arena h tree ⟨0, 0⟩
    return (tree, h)

def radix_tree_destroy (h : Heap) (tree : Nat) : Checked Heap :=
  if tree = 0 then .ok h
  else do
    let a ← load_arena h tree
    let (a, h) ← arena_free h a
    let h ← store_arena h tree a
    h.free tree

/-! ## §3. The operations. -/

/-- `*child = arena_alloc(&tree->arena, sizeof(RadixNode)); memset(*child, 0, …);` -/
def add_node (M : Malloc) (h : Heap) (tree child : Nat) : Checked Heap := do
  let a ← load_arena h tree
  let (node, a, h) ← arena_alloc M h a NODE_SIZE
  let h ← store_arena h tree a
  let h ← h.store child 8 node
  let node ← h.load child 8
  h.memset node 0 NODE_SIZE

/-- The insertion loop from `current` on. -/
def insert_path (M : Malloc) (tree : Nat) (page_no : UInt16) :
    List Nat → Heap → Nat → Checked Heap
  | [], h, _ => .ok h
  | level :: ls, h, current => do
      let child := children_at current (radix_index page_no level)
      let next ← h.load child 8
      let h ← if next = 0 then add_node M h tree child else .ok h
      let next ← h.load child 8
      insert_path M tree page_no ls h next

def radix_tree_insert (M : Malloc) (h : Heap) (tree : Nat) (page_no : UInt16) : Checked Heap :=
  insert_path M tree page_no levels h tree

def lookup_path (h : Heap) (page_no : UInt16) : List Nat → Nat → Checked Bool
  | [], _ => .ok true
  | level :: ls, current => do
      let next ← h.load (children_at current (radix_index page_no level)) 8
      if next = 0 then return false else lookup_path h page_no ls next

def radix_tree_lookup (h : Heap) (tree : Nat) (page_no : UInt16) : Checked Bool :=
  if page_no = 0 then .ok false else lookup_path h page_no levels tree

/-- The loop of `has_children` over the indices that are left. -/
def has_children (h : Heap) (node : Nat) : List (Fin RADIX_SIZE) → Checked Bool
  | [] => .ok false
  | i :: is => do
      let c ← h.load (children_at node i) 8
      if c ≠ 0 then return true else has_children h node is

/-- First loop of `radix_tree_delete`: `path[]` and `indices[]`, deepest level first. -/
def find_path (h : Heap) (page_no : UInt16) :
    List Nat → Nat → List (Nat × Fin RADIX_SIZE) → Checked (Option (List (Nat × Fin RADIX_SIZE)))
  | [], _, path => .ok (some path)
  | level :: ls, current, path => do
      let idx := radix_index page_no level
      let next ← h.load (children_at current idx) 8
      if next = 0 then return none else find_path h page_no ls next ((current, idx) :: path)

/-- Second loop of `radix_tree_delete`; `leaf` at level 3, where the child is not looked into. -/
def clean_parents (h : Heap) : Bool → List (Nat × Fin RADIX_SIZE) → Checked Heap
  | _, [] => .ok h
  | leaf, (parent, idx) :: path => do
      let keep ←
        if leaf then (.ok false : Checked Bool)
        else do
          let child ← h.load (children_at parent idx) 8
          has_children h child (List.finRange RADIX_SIZE)
      if keep then return h
      else do
        let h ← h.store (children_at parent idx) 8 0
        clean_parents h false path

def radix_tree_delete (h : Heap) (tree : Nat) (page_no : UInt16) : Checked Heap :=
  if page_no = 0 ∨ tree = 0 then .ok h
  else do
    match ← find_path h page_no levels tree [] with
    | none => return h
    | some path => clean_parents h true path

/-- `while (idx < RADIX_SIZE && !current->children[idx]) idx++;`, with the child found. -/
def first_child (h : Heap) (node : Nat) :
    List (Fin RADIX_SIZE) → Checked (Option (Fin RADIX_SIZE × Nat))
  | [] => .ok none
  | idx :: is => do
      let c ← h.load (children_at node idx) 8
      if c ≠ 0 then return some (idx, c) else first_child h node is

/-- The descent of `radix_tree_peek_min` and `radix_tree_pop_min`. -/
def min_path (h : Heap) : List Nat → Nat → UInt16 → Checked (Option UInt16)
  | [], _, page_num => .ok (some page_num)
  | _ :: ls, current, page_num => do
      match ← first_child h current (List.finRange RADIX_SIZE) with
      | none => return none
      | some (idx, next) =>
          min_path h ls next ((page_num <<< 4) ||| UInt16.ofNat idx.val)

def radix_tree_peek_min (h : Heap) (tree : Nat) : Checked UInt16 :=
  if tree = 0 then .ok 0
  else do
    let page ← min_path h levels tree 0
    return page.getD 0

def radix_tree_pop_min (h : Heap) (tree : Nat) : Checked (UInt16 × Heap) :=
  if tree = 0 then .ok (0, h)
  else do
    match ← min_path h levels tree 0 with
    | none => return (0, h)
    | some page_num => do
        let h ← radix_tree_delete h tree page_num
        return (page_num, h)

/-! ## §4. Walks and free lists. -/

/-- `walk_radix`; the callback changes the heap and its `user_data`, the list holds the levels
from `depth` on. -/
def walk_radix {σ : Type} (cb : Heap × σ → UInt16 → Checked (Heap × σ)) :
    List Nat → Nat → UInt16 → Heap × σ → Checked (Heap × σ)
  | [], node, pre, x => if node = 0 then .ok x else cb x pre
  | _ :: ls, node, pre, x =>
      if node = 0 then .ok x
      else
        (List.finRange RADIX_SIZE).foldlM
          (fun x i => do
            let next ← x.1.load (children_at node i) 8
            if next = 0 then return x
            else
              walk_radix cb ls next ((pre <<< 4) ||| UInt16.ofNat i.val) x)
          x

def radix_tree_walk {σ : Type} (tree : Nat) (cb : Heap × σ → UInt16 → Checked (Heap × σ))
    (x : Heap × σ) : Checked (Heap × σ) :=
  if tree = 0 then .ok x else walk_radix cb levels tree 0 x

/-- The callback of `radix_to_freelist`; its `user_data` is `count`. -/
def collect_pages (freelist max_size : Nat) (x : Heap × Nat) (page : UInt16) :
    Checked (Heap × Nat) :=
  if x.2 < max_size then do
    let h ← x.1.store (freelist_cell freelist x.2) 2 page.toNat
    return (h, x.2 + 1)
  else .ok x

def radix_to_freelist (h : Heap) (tree freelist max_size : Nat) : Checked (Heap × Nat) :=
  if tree = 0 ∨ freelist = 0 then .ok (h, 0)
  else radix_tree_walk tree (collect_pages freelist max_size) (h, 0)

def freelist_to_radix (M : Malloc) (h : Heap) (tree freelist count : Nat) : Checked Heap :=
  if tree = 0 ∨ freelist = 0 then .ok h
  else
    (List.range count).foldlM
      (fun h i => do
        let page ← h.load (freelist_cell freelist i) 2
        if page ≠ 0 then radix_tree_insert M h tree (UInt16.ofNat page) else return h)
      h

end PreSeQL.RadixHeap
