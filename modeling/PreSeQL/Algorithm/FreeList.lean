/-
  PreSeQL.Algorithm.FreeList — walking a radix tree, and the conversion between a
  tree and an array of page numbers (second half of `radix_tree.c`).

  The callback and its `user_data` are a function on a state; the array is a range
  of 16-bit cells in memory.
-/
import PreSeQL.Algorithm.RadixTree
import PreSeQL.Lib.ByteMem

namespace PreSeQL.Radix

open PreSeQL.Lib

/-- `walk_radix`; the list holds the levels from `depth` on. -/
def walk_radix {σ : Type} (cb : σ → UInt16 → σ) : List Nat → RadixNode → UInt16 → σ → σ
  | [], _, pre, user_data => cb user_data pre
  | _ :: ls, node, pre, user_data =>
      (List.finRange RADIX_SIZE).foldl
        (fun data i =>
          match node.child i with
          | some next => walk_radix cb ls next ((pre <<< 4) ||| UInt16.ofNat i.val) data
          | none => data)
        user_data

def radix_tree_walk {σ : Type} (tree : RadixTree) (cb : σ → UInt16 → σ) (user_data : σ) : σ :=
  walk_radix cb levels tree.root 0 user_data

/-- Address of `freelist[i]`. -/
@[simp] def freelist_cell (freelist i : Nat) : Nat := freelist + 2 * i

/-- The callback of `radix_to_freelist`: the state is the memory and `count`. -/
def collect_pages (freelist max_size : Nat) (data : Mem × Nat) (page : UInt16) : Mem × Nat :=
  if data.2 < max_size then (data.1.store16 (freelist_cell freelist data.2) page, data.2 + 1)
  else data

/-- The memory with the array written, and the number of cells used. -/
def radix_to_freelist (m : Mem) (tree : RadixTree) (freelist max_size : Nat) : Mem × Nat :=
  radix_tree_walk tree (collect_pages freelist max_size) (m, 0)

/-- The cells of an array of `count` page numbers. -/
def freelist_entries (m : Mem) (freelist count : Nat) : List UInt16 :=
  (List.range count).map fun i => m.load16 (freelist_cell freelist i)

def freelist_to_radix (tree : RadixTree) (m : Mem) (freelist count : Nat) : RadixTree :=
  (freelist_entries m freelist count).foldl
    (fun tree page => if page ≠ 0 then radix_tree_insert tree page else tree) tree

/-! ## Frames. -/

/-- A property the callback keeps holds after the walk. -/
theorem walk_radix_induction {σ : Type} {cb : σ → UInt16 → σ} {P : σ → Prop}
    (hcb : ∀ s page, P s → P (cb s page)) (ls : List Nat) :
    ∀ (node : RadixNode) (pre : UInt16) (s : σ), P s → P (walk_radix cb ls node pre s) := by
  induction ls with
  | nil => intro _ pre s h; exact hcb s pre h
  | cons _ ls ih =>
      intro node pre s h
      refine List.foldlRecOn (List.finRange RADIX_SIZE) _ h ?_
      intro s' h' i _
      cases hc : node.child i with
      | none => exact h'
      | some next => exact ih next _ s' h'

/-- Only the first `max_size` cells of the array are written, and at most that many
are counted. -/
theorem radix_to_freelist_frame (m : Mem) (tree : RadixTree) (freelist max_size : Nat) :
    m.SameOff freelist (freelist + 2 * max_size) (radix_to_freelist m tree freelist max_size).1
    ∧ (radix_to_freelist m tree freelist max_size).2 ≤ max_size := by
  refine walk_radix_induction
    (P := fun s : Mem × Nat => m.SameOff freelist (freelist + 2 * max_size) s.1 ∧ s.2 ≤ max_size)
    ?_ levels tree.root 0 (m, 0) ⟨Mem.SameOff.refl _ _ m, Nat.zero_le _⟩
  rintro ⟨m', count⟩ page ⟨hsame, hcount⟩
  unfold collect_pages
  split
  next hlt =>
    -- the next cell is one of the first `max_size`
    have hcell : Mem.SameOff freelist (freelist + 2 * max_size) m'
        (m'.store16 (freelist_cell freelist count) page) := by
      refine (Mem.sameOff_store m' _ _ _).mono ?_ ?_
      all_goals
        simp only [freelist_cell] at hlt ⊢
        omega
    exact ⟨hsame.trans hcell, hlt⟩
  next => exact ⟨hsame, hcount⟩

end PreSeQL.Radix
