/-
  PreSeQL.Algorithm.Draining — taking pages out until there is none left.

  The callers of `radix_tree_pop_min` take its 0 for an empty tree.  Page 0 can be
  stored, is what a tree that holds it gives first, and is never deleted.

    • `drain_sorted` — without page 0 the loop takes every page, in ascending order,
    • `drain_zero` — with page 0 it stops at once,
    • `drains_all_iff` — every tree built by insertions.
-/
import PreSeQL.Algorithm.RadixSet
import Mathlib.Data.Finset.Sort

namespace PreSeQL.Radix

open PreSeQL.Lib

/-! ## §1. The loop. -/

/-- `while ((page = radix_tree_pop_min(tree)) != 0)`: the pages taken and the tree left.
`fuel` bounds the calls. -/
def drain : Nat → RadixTree → Option (List UInt16 × RadixTree)
  | 0, _ => none
  | fuel + 1, tree =>
      match radix_tree_pop_min tree with
      | (page, tree) =>
          if page = 0 then some ([], tree)
          else (drain fuel tree).map fun r => (page :: r.1, r.2)

/-- The loop ends, with every page but 0 taken once, in ascending order. -/
def DrainsAll (tree : RadixTree) : Prop :=
  ∃ fuel taken rest, drain fuel tree = some (taken, rest)
    ∧ taken.Pairwise (· < ·)
    ∧ (∀ p, p ∈ taken ↔ p ≠ 0 ∧ p ∈ pages tree)
    ∧ ∀ p, p ≠ 0 → p ∉ pages rest

/-! ## §2. Trees without page 0. -/

/-- The smallest member comes first. -/
theorem sort_eq_min'_cons {α : Type} [LinearOrder α] (S : Finset α) (h : S.Nonempty) :
    S.sort (· ≤ ·) = S.min' h :: (S.erase (S.min' h)).sort (· ≤ ·) := by
  have hle : ∀ b ∈ S.erase (S.min' h), S.min' h ≤ b :=
    fun b hb => S.min'_le b (Finset.mem_of_mem_erase hb)
  have hsort := Finset.sort_insert (r := (· ≤ ·)) hle (Finset.notMem_erase _ _)
  rwa [Finset.insert_erase (S.min'_mem h)] at hsort

/-- **The loop sorts**: each round takes the smallest page left, by induction on their
number. -/
theorem drain_sorted (n : Nat) : ∀ (tree : RadixTree) (S : Finset UInt16), Represents tree S →
    S.card = n → ∃ rest, drain (n + 1) tree = some (S.sort (· ≤ ·), rest) ∧ pages rest = ∅ := by
  induction n with
  | zero =>
      intro tree S h hcard
      obtain rfl := Finset.card_eq_zero.mp hcard
      have hpages : pages tree = ∅ := h.pages_eq
      rw [drain, radix_tree_pop_min_of_empty hpages]
      exact ⟨tree, by simp, hpages⟩
  | succ n ih =>
      intro tree S h hcard
      have hne : (pages tree).Nonempty := by
        rw [h.pages_eq]
        exact Finset.card_pos.mp (hcard ▸ Nat.succ_pos n)
      have hpop := radix_tree_pop_min_of_nonempty h.wellFormed hne
      have hnext := h.exec .pop_min
      obtain ⟨hwf, rfl, hzero⟩ := h
      have hmem : (pages tree).min' hne ∈ pages tree := Finset.min'_mem _ hne
      have hmin0 : (pages tree).min' hne ≠ 0 := fun h0 => hzero (h0 ▸ hmem)
      -- one page fewer
      simp only [RadixOp.exec, RadixOp.abs, PageSet.apply, dif_pos hne, hpop] at hnext
      have hfewer : ((pages tree).erase ((pages tree).min' hne)).card = n := by
        rw [Finset.card_erase_of_mem hmem, hcard, Nat.succ_sub_one]
      obtain ⟨rest, hdrain, hrest⟩ := ih _ _ hnext hfewer
      refine ⟨rest, ?_, hrest⟩
      rw [drain, hpop]
      simp only [if_neg hmin0, hdrain, Option.map_some]
      rw [← sort_eq_min'_cons]

theorem Represents.drains_all {tree : RadixTree} {S : Finset UInt16} (h : Represents tree S) :
    DrainsAll tree := by
  obtain ⟨rest, hdrain, hrest⟩ := drain_sorted S.card tree S h rfl
  refine ⟨_, _, rest, hdrain, (Finset.sortedLT_sort S).pairwise, fun p => ?_, fun p _ => ?_⟩
  · rw [Finset.mem_sort, h.pages_eq]
    exact ⟨fun hp => ⟨fun h0 => h.zero_notMem (h0 ▸ hp), hp⟩, fun hp => hp.2⟩
  · rw [hrest]
    exact Finset.notMem_empty p

/-! ## §3. Trees with page 0. -/

/-- Page 0 is the smallest, and is not deleted: the first call gives it back. -/
theorem drain_zero {tree : RadixTree} (hwf : WellFormed tree) (h0 : 0 ∈ pages tree) (fuel : Nat) :
    drain (fuel + 1) tree = some ([], tree) := by
  have hne : (pages tree).Nonempty := ⟨0, h0⟩
  have hmin : (pages tree).min' hne = 0 :=
    le_antisymm (Finset.min'_le _ _ h0) (UInt16.le_iff_toNat_le.mpr (Nat.zero_le _))
  rw [drain, radix_tree_pop_min_of_nonempty hwf hne, hmin]
  rfl

/-- Then only page 0 may be there. -/
theorem drains_all_of_zero_iff {tree : RadixTree} (hwf : WellFormed tree) (h0 : 0 ∈ pages tree) :
    DrainsAll tree ↔ ∀ p ∈ pages tree, p = 0 := by
  constructor
  · rintro ⟨fuel, taken, rest, hdrain, -, -, hrest⟩ p hp
    cases fuel with
    | zero => cases hdrain
    | succ fuel =>
        rw [drain_zero hwf h0] at hdrain
        cases hdrain
        by_contra hne
        exact hrest p hne hp
  · intro honly
    refine ⟨1, [], tree, drain_zero hwf h0 0, List.Pairwise.nil, fun p => ?_, fun p hne hp => ?_⟩
    · refine iff_of_false (List.not_mem_nil) ?_
      rintro ⟨hne, hp⟩
      exact hne (honly p hp)
    · exact hne (honly p hp)

/-! ## §4. Insertions. -/

/-- Insertions of any pages build a well-formed tree of these pages. -/
theorem insertions_spec (page_nos : List UInt16) : ∀ tree : RadixTree, WellFormed tree →
    WellFormed (page_nos.foldl radix_tree_insert tree)
    ∧ pages (page_nos.foldl radix_tree_insert tree) = pages tree ∪ page_nos.toFinset := by
  induction page_nos with
  | nil => intro tree h; exact ⟨h, by simp⟩
  | cons p page_nos ih =>
      intro tree h
      obtain ⟨hwf, hpages⟩ := ih _ (wellFormed_insert h p)
      refine ⟨hwf, ?_⟩
      rw [List.foldl_cons, hpages, pages_insert, List.toFinset_cons, Finset.insert_union,
        Finset.union_insert]

theorem mem_pages_insertions (page_nos : List UInt16) (p : UInt16) :
    p ∈ pages (page_nos.foldl radix_tree_insert radix_tree_create) ↔ p ∈ page_nos := by
  rw [(insertions_spec page_nos _ wellFormed_create).2, pages_create, Finset.empty_union,
    List.mem_toFinset]

/-- **Draining reaches every page** of a tree unless page 0 is in it together with
another one. -/
theorem drains_all_iff (page_nos : List UInt16) :
    DrainsAll (page_nos.foldl radix_tree_insert radix_tree_create)
      ↔ 0 ∉ page_nos ∨ ∀ p ∈ page_nos, p = 0 := by
  have hwf := (insertions_spec page_nos _ wellFormed_create).1
  by_cases h0 : 0 ∈ page_nos
  · rw [drains_all_of_zero_iff hwf ((mem_pages_insertions page_nos 0).mpr h0),
      or_iff_right (not_not.mpr h0)]
    exact forall_congr' fun p => imp_congr_left (mem_pages_insertions page_nos p)
  · have hzero : 0 ∉ pages (page_nos.foldl radix_tree_insert radix_tree_create) :=
      fun hmem => h0 ((mem_pages_insertions page_nos 0).mp hmem)
    exact iff_of_true (Represents.drains_all ⟨hwf, rfl, hzero⟩) (Or.inl h0)

/-- Page 0 hides page 5. -/
theorem page_zero_stops_drain :
    drain 2 ([0, 5].foldl radix_tree_insert radix_tree_create)
      = some ([], [0, 5].foldl radix_tree_insert radix_tree_create)
    ∧ 5 ∈ pages ([0, 5].foldl radix_tree_insert radix_tree_create)
    ∧ ¬ DrainsAll ([0, 5].foldl radix_tree_insert radix_tree_create) := by
  have hwf := (insertions_spec [0, 5] _ wellFormed_create).1
  have h0 : 0 ∈ pages ([0, 5].foldl radix_tree_insert radix_tree_create) :=
    (mem_pages_insertions [0, 5] 0).mpr (by decide)
  have h5 : 5 ∈ pages ([0, 5].foldl radix_tree_insert radix_tree_create) :=
    (mem_pages_insertions [0, 5] 5).mpr (by decide)
  refine ⟨drain_zero hwf h0 1, h5, fun h => ?_⟩
  exact absurd ((drains_all_of_zero_iff hwf h0).mp h 5 h5) (by decide)

end PreSeQL.Radix
