/-
  PreSeQL.Lib.PointerTrie — tries whose nodes are cells with pointers.

  A trie in memory is a set of words, its paths, and an address for each of them:
  `Laid links A N` says that the pointers `links` lay out the paths `N` with the
  addresses `A`.  Two edits are enough for insertion and deletion, and each is local:

    • `Laid.link` — a fresh cell without pointers becomes a child,
    • `Laid.unlink` — a pointer is cleared, and with it goes everything below.

  A deletion unlinks nodes upwards while they have no children.  What this leaves is
  the set of paths that `Pruned.ext` determines from its full words.
-/
import PreSeQL.Lib.Trie
import Mathlib.Data.Set.Insert
import Mathlib.Data.List.Infix

namespace PreSeQL.Lib.PointerTrie

variable {k : Nat}

/-! ## §1. Sets of paths. -/

/-- The empty path is there, and with a path all that lead to it. -/
structure IsTree (N : Set (List (Fin k))) : Prop where
  nil : [] ∈ N
  closed : ∀ {u w : List (Fin k)}, u <+: w → w ∈ N → u ∈ N

/-- No path is longer than `n`, and only the empty one and those of length `n` may end. -/
def Pruned (n : Nat) (N : Set (List (Fin k))) : Prop :=
  ∀ u ∈ N, u.length ≤ n ∧ (u ≠ [] → u.length < n → ∃ d, u ++ [d] ∈ N)

variable {n : Nat} {N N' : Set (List (Fin k))}

/-- Every path of a pruned set leads to a full word. -/
theorem Pruned.extends (hp : Pruned n N) {u : List (Fin k)} (hu : u ∈ N) (hne : u ≠ []) :
    ∃ v ∈ N, v.length = n ∧ u <+: v := by
  have hle := (hp u hu).1
  obtain ⟨j, hj⟩ := Nat.exists_eq_add_of_le hle
  induction j generalizing u with
  | zero => exact ⟨u, hu, hj.symm, List.prefix_rfl⟩
  | succ j ih =>
      obtain ⟨d, hd⟩ := (hp u hu).2 hne (by omega)
      obtain ⟨v, hv, hlen, hpre⟩ := ih hd (by simp) (hp _ hd).1 (by simp; omega)
      exact ⟨v, hv, hlen, (List.prefix_append u [d]).trans hpre⟩

/-- **A pruned set of paths is determined by its full words.** -/
theorem Pruned.ext (hN : IsTree N) (hN' : IsTree N') (hp : Pruned n N) (hp' : Pruned n N')
    (hwords : ∀ v : List (Fin k), v.length = n → (v ∈ N ↔ v ∈ N')) : N = N' := by
  ext u
  by_cases hne : u = []
  · subst hne
    exact iff_of_true hN.nil hN'.nil
  · constructor
    · intro hu
      obtain ⟨v, hv, hlen, hpre⟩ := hp.extends hu hne
      exact hN'.closed hpre ((hwords v hlen).mp hv)
    · intro hu
      obtain ⟨v, hv, hlen, hpre⟩ := hp'.extends hu hne
      exact hN.closed hpre ((hwords v hlen).mpr hv)

/-! ## §2. Cuts. -/

/-- The paths that do not go through `p`. -/
def Cut (N : Set (List (Fin k))) (p : List (Fin k)) : Set (List (Fin k)) := {u ∈ N | ¬ p <+: u}

theorem mem_cut {p u : List (Fin k)} : u ∈ Cut N p ↔ u ∈ N ∧ ¬ p <+: u := Iff.rfl

theorem IsTree.cut (hN : IsTree N) {p : List (Fin k)} (hp : p ≠ []) : IsTree (Cut N p) where
  nil := ⟨hN.nil, fun h => hp (List.prefix_nil.mp h)⟩
  closed hpre hw := ⟨hN.closed hpre hw.1, fun h => hw.2 (h.trans hpre)⟩

/-- A cut further up contains the cut below. -/
theorem cut_cut (N : Set (List (Fin k))) (q : List (Fin k)) (e : Fin k) :
    Cut (Cut N (q ++ [e])) q = Cut N q := by
  ext u
  simp only [mem_cut]
  exact ⟨fun h => ⟨h.1.1, h.2⟩,
    fun h => ⟨⟨h.1, fun hpre => h.2 ((List.prefix_append q [e]).trans hpre)⟩, h.2⟩⟩

theorem prefix_snoc {p u : List (Fin k)} {d : Fin k} (h : p <+: u ++ [d]) (hu : ¬ p <+: u) :
    p = u ++ [d] := by
  rcases List.prefix_concat_iff.mp h with h | h
  · exact h
  · exact absurd h hu

/-- Of the full words only `w` goes through `p`. -/
def Lone (n : Nat) (N : Set (List (Fin k))) (w p : List (Fin k)) : Prop :=
  ∀ u ∈ N, u.length = n → p <+: u → u = w

/-- A node whose only child was cut is on no other word either. -/
theorem Lone.up (hN : IsTree N) {w q : List (Fin k)} {e : Fin k} (h : Lone n N w (q ++ [e]))
    (hq : q.length < n) (hchild : ∀ d, q ++ [d] ∉ Cut N (q ++ [e])) : Lone n N w q := by
  rintro u hu hlen ⟨r, rfl⟩
  cases r with
  | nil => simp only [List.append_nil] at hlen; omega
  | cons d r =>
      have hpre : q ++ [d] <+: q ++ d :: r := ⟨r, by simp⟩
      have hqd := hN.closed hpre hu
      have hcut : q ++ [e] <+: q ++ [d] := by
        by_contra hnot
        exact hchild d ⟨hqd, hnot⟩
      exact h _ hu hlen (hcut.trans hpre)

/-- The full words after a cut. -/
theorem Lone.mem_cut {w p : List (Fin k)} (h : Lone n N w p) (hp : p <+: w) {u : List (Fin k)}
    (hlen : u.length = n) : u ∈ Cut N p ↔ u ∈ N ∧ u ≠ w := by
  refine and_congr_right fun hu => not_congr ⟨h u hu hlen, ?_⟩
  rintro rfl
  exact hp

/-- A cut below a node that keeps another child leaves no childless node. -/
theorem Pruned.cut (hp : Pruned n N) {q : List (Fin k)} {e : Fin k}
    (hkeep : q = [] ∨ ∃ d, q ++ [d] ∈ Cut N (q ++ [e])) : Pruned n (Cut N (q ++ [e])) := by
  rintro u ⟨hu, hpre⟩
  refine ⟨(hp u hu).1, fun hne hlen => ?_⟩
  obtain ⟨d, hd⟩ := (hp u hu).2 hne hlen
  by_cases hcut : q ++ [e] <+: u ++ [d]
  · -- the child is gone: `u` is the node above the cut
    obtain ⟨rfl, -⟩ := List.append_inj' (prefix_snoc hcut hpre) rfl
    exact hkeep.resolve_left hne
  · exact ⟨d, hd, hcut⟩

/-! ## §3. Pointers. -/

/-- The pointer at letter `d` of the cell `a` is set to `v`. -/
def setLink (links : Nat → Fin k → Nat) (a : Nat) (d : Fin k) (v : Nat) : Nat → Fin k → Nat :=
  fun b e => if b = a ∧ e = d then v else links b e

/-- The cell of the path `w` is at `A w`, and its pointers lead to the cells of the paths that
are one letter longer. -/
structure Laid (links : Nat → Fin k → Nat) (A : List (Fin k) → Nat) (N : Set (List (Fin k))) :
    Prop where
  tree : IsTree N
  child : ∀ {w : List (Fin k)} {d : Fin k}, w ++ [d] ∈ N → links (A w) d = A (w ++ [d])
  absent : ∀ {w : List (Fin k)} {d : Fin k}, w ∈ N → w ++ [d] ∉ N → links (A w) d = 0
  nonzero : ∀ {w : List (Fin k)}, w ∈ N → A w ≠ 0
  injective : ∀ {v w : List (Fin k)}, v ∈ N → w ∈ N → A v = A w → v = w

namespace Laid

variable {links links' : Nat → Fin k → Nat} {A : List (Fin k) → Nat}

/-- A pointer is set exactly where the path goes on. -/
theorem link_ne_zero (h : Laid links A N) {w : List (Fin k)} (hw : w ∈ N) (d : Fin k) :
    links (A w) d ≠ 0 ↔ w ++ [d] ∈ N := by
  constructor
  · intro hne
    by_contra hnot
    exact hne (h.absent hw hnot)
  · intro hd
    rw [h.child hd]
    exact h.nonzero hd

/-- Only the pointers of the cells matter. -/
theorem congr (h : Laid links A N) (hl : ∀ w ∈ N, ∀ d, links' (A w) d = links (A w) d) :
    Laid links' A N where
  tree := h.tree
  child hd := (hl _ (h.tree.closed (List.prefix_append _ _) hd) _).trans (h.child hd)
  absent hw hd := (hl _ hw _).trans (h.absent hw hd)
  nonzero := h.nonzero
  injective := h.injective

/-- **Clearing a pointer** takes everything below it away. -/
theorem unlink (h : Laid links A N) {w : List (Fin k)} (hw : w ∈ N) (d : Fin k) :
    Laid (setLink links (A w) d 0) A (Cut N (w ++ [d])) where
  tree := h.tree.cut (by simp)
  child := by
    rintro v e ⟨hv, hcut⟩
    have hvN := h.tree.closed (List.prefix_append _ _) hv
    rw [setLink, if_neg, h.child hv]
    rintro ⟨heq, rfl⟩
    rw [h.injective hvN hw heq] at hcut
    exact hcut List.prefix_rfl
  absent := by
    rintro v e ⟨hv, hpre⟩ hnot
    unfold setLink
    split
    next => rfl
    next hne =>
      refine h.absent hv fun hve => ?_
      have hcut : w ++ [d] <+: v ++ [e] := by
        by_contra hcut
        exact hnot ⟨hve, hcut⟩
      obtain ⟨rfl, hde⟩ := List.append_inj' (prefix_snoc hcut hpre) rfl
      exact hne ⟨rfl, (List.cons.inj hde).1.symm⟩
  nonzero hv := h.nonzero hv.1
  injective hv hw := h.injective hv.1 hw.1

/-- **A fresh cell** becomes a child: `links'` differs in its pointers and in the one to it. -/
theorem link (h : Laid links A N) {w : List (Fin k)} (hw : w ∈ N) {d : Fin k}
    (hd : w ++ [d] ∉ N) {a : Nat} (ha : a ≠ 0) (hfresh : ∀ v ∈ N, A v ≠ a)
    (hzero : ∀ e, links' a e = 0) (hset : links' (A w) d = a)
    (hrest : ∀ v ∈ N, ∀ e, ¬ (v = w ∧ e = d) → links' (A v) e = links (A v) e) :
    Laid links' (Function.update A (w ++ [d]) a) (insert (w ++ [d]) N) := by
  have hA : ∀ v ∈ N, Function.update A (w ++ [d]) a v = A v := by
    intro v hv
    refine Function.update_of_ne ?_ _ _
    rintro rfl
    exact hd hv
  have hlong : ∀ {v : List (Fin k)} {e : Fin k}, v ++ [e] ∈ N → v ∈ N :=
    fun hv => h.tree.closed (List.prefix_append _ _) hv
  constructor
  · refine ⟨.inr h.tree.nil, fun {u v} hpre hv => ?_⟩
    rcases hv with rfl | hv
    · rcases List.prefix_concat_iff.mp hpre with rfl | hpre
      · exact .inl rfl
      · exact .inr (h.tree.closed hpre hw)
    · exact .inr (h.tree.closed hpre hv)
  · intro v e hve
    rcases hve with hve | hve
    · obtain ⟨rfl, hde⟩ := List.append_inj' hve rfl
      obtain rfl : e = d := (List.cons.inj hde).1
      rw [Function.update_self, hA v hw, hset]
    · rw [hA _ hve, hA v (hlong hve), hrest v (hlong hve), h.child hve]
      rintro ⟨rfl, rfl⟩
      exact hd hve
  · intro v e hv hve
    rcases hv with rfl | hv
    · -- the new cell has no pointers
      rw [Function.update_self, hzero]
    · rw [hA v hv, hrest v hv]
      · exact h.absent hv fun hin => hve (.inr hin)
      · rintro ⟨rfl, rfl⟩
        exact hve (.inl rfl)
  · rintro v (rfl | hv)
    · rwa [Function.update_self]
    · rw [hA v hv]
      exact h.nonzero hv
  · rintro u v (rfl | hu) (rfl | hv) heq
    · rfl
    · rw [Function.update_self, hA v hv] at heq
      exact absurd heq.symm (hfresh v hv)
    · rw [Function.update_self, hA u hu] at heq
      exact absurd heq (hfresh u hu)
    · rw [hA u hu, hA v hv] at heq
      exact h.injective hu hv heq

end Laid

/-! ## §4. The paths of a trie. -/

/-- The node `t` of a trie is at the end of the path `v`. -/
def Below (N : Set (List (Fin k))) (v : List (Fin k)) (t : Trie k) : Prop :=
  ∀ u, Trie.contains u t = true ↔ v ++ u ∈ N

namespace Below

variable {v : List (Fin k)} {t c : Trie k} {d : Fin k}

theorem mem (h : Below N v t) : v ∈ N := by
  have := (h []).mp rfl
  rwa [List.append_nil] at this

theorem child_none (h : Below N v t) (hc : t.child d = none) : v ++ [d] ∉ N := by
  intro hin
  have := (h [d]).mpr hin
  simp [Trie.contains, hc] at this

theorem child_some (h : Below N v t) (hc : t.child d = some c) : Below N (v ++ [d]) c := by
  intro u
  have := h (d :: u)
  simpa [Trie.contains, hc] using this

/-- A node has children exactly where the path goes on. -/
theorem hasChildren_iff (h : Below N v t) : t.hasChildren = true ↔ ∃ d, v ++ [d] ∈ N := by
  rw [Trie.hasChildren_iff]
  constructor
  · rintro ⟨d, c, hc⟩
    exact ⟨d, (h.child_some hc).mem⟩
  · rintro ⟨d, hd⟩
    cases hc : t.child d with
    | none => exact absurd hd (h.child_none hc)
    | some c => exact ⟨d, c, hc⟩

end Below

/-- The paths of a trie. -/
def paths (t : Trie k) : Set (List (Fin k)) := {w | Trie.contains w t = true}

theorem mem_paths {t : Trie k} {w : List (Fin k)} :
    w ∈ paths t ↔ Trie.contains w t = true := Iff.rfl

theorem below_paths (t : Trie k) : Below (paths t) [] t := fun _ => Iff.rfl

theorem contains_of_append (u : List (Fin k)) : ∀ (r : List (Fin k)) (t : Trie k),
    Trie.contains (u ++ r) t = true → Trie.contains u t = true := by
  induction u with
  | nil => intro _ _ _; rfl
  | cons d u ih =>
      intro r t h
      obtain ⟨c, hc, hr⟩ := (Trie.contains_cons d (u ++ r) t).mp h
      exact (Trie.contains_cons d u t).mpr ⟨c, hc, ih r c hr⟩

theorem isTree_paths (t : Trie k) : IsTree (paths t) := by
  refine ⟨rfl, ?_⟩
  rintro u _ ⟨r, rfl⟩ hw
  exact contains_of_append u r t hw

theorem paths_empty : paths (Trie.empty : Trie k) = {[]} := by
  ext w
  cases w with
  | nil => simp [mem_paths, Trie.contains]
  | cons d w => simp [mem_paths]

/-- Insertion creates the paths that lead to the word. -/
theorem paths_insert (w : List (Fin k)) : ∀ (t : Trie k),
    paths (Trie.insert w t) = paths t ∪ {u | u <+: w} := by
  induction w with
  | nil =>
      intro t
      ext u
      simp only [Trie.insert, Set.mem_union, Set.mem_ofPred_eq, List.prefix_nil]
      refine ⟨.inl, ?_⟩
      rintro (h | rfl)
      · exact h
      · exact (isTree_paths t).nil
  | cons d w ih =>
      intro t
      ext u
      cases u with
      | nil => simp [mem_paths, Trie.contains]
      | cons e u =>
          simp only [Set.mem_union, Set.mem_ofPred_eq, mem_paths, Trie.insert, Trie.contains_cons,
            List.cons_prefix_cons]
          by_cases hed : e = d
          · subst hed
            have hu := Set.ext_iff.mp (ih ((t.child e).getD Trie.empty)) u
            simp only [Set.mem_union, Set.mem_ofPred_eq, mem_paths] at hu
            simp only [Trie.child_setChild_self, Option.some.injEq, exists_eq_left', true_and, hu]
            cases hc : t.child e with
            | some c => simp
            | none =>
                -- below a missing child there is only the path itself
                cases u with
                | nil => simp [Trie.contains]
                | cons f u => simp
          · simp [Trie.child_setChild_of_ne _ _ hed, hed]

/-- A reduced trie has no childless path. -/
theorem pruned_paths (u : List (Fin k)) : ∀ {n : Nat} {t : Trie k}, Trie.Reduced n t →
    Trie.contains u t = true →
    u.length ≤ n ∧ (u ≠ [] → u.length < n → ∃ d, Trie.contains (u ++ [d]) t = true) := by
  induction u with
  | nil => intro n t _ _; exact ⟨Nat.zero_le _, fun h => absurd rfl h⟩
  | cons e u ih =>
      intro n t hred hu
      obtain ⟨c, hc, hcu⟩ := (Trie.contains_cons e u t).mp hu
      cases n with
      | zero => rw [Trie.child_eq_none_of_not_hasChildren hred e] at hc; cases hc
      | succ n =>
          obtain ⟨hchild, hredc⟩ := hred e c hc
          obtain ⟨hlen, hext⟩ := ih hredc hcu
          refine ⟨Nat.succ_le_succ hlen, fun _ hlt => ?_⟩
          rw [List.length_cons] at hlt
          have hd : ∃ d, Trie.contains (u ++ [d]) c = true := by
            by_cases hne : u = []
            · subst hne
              obtain ⟨d, c', hc'⟩ := (Trie.hasChildren_iff c).mp (hchild (by simp at hlt; omega))
              exact ⟨d, by simp [Trie.contains, hc']⟩
            · exact hext hne (by omega)
          obtain ⟨d, hd⟩ := hd
          exact ⟨d, (Trie.contains_cons e (u ++ [d]) t).mpr ⟨c, hc, hd⟩⟩

theorem Reduced.pruned {n : Nat} {t : Trie k} (h : Trie.Reduced n t) : Pruned n (paths t) :=
  fun u hu => pruned_paths u h hu

end PreSeQL.Lib.PointerTrie
