/-
  PreSeQL.Lib.Orbit — the orbit of a state, seen through a finite view.

  A step is deterministic, and what it does to a view of the state depends on the view
  alone, as long as the target has not been reached.  Then a state on the way to the target
  has a view that no other state on the way has:

    • `view_iterate` — two states with one view keep a common view,
    • `views_injective` — up to the first time in the target no view comes twice,
    • `reaches_within` — the target is reached within as many steps as there are views.
-/
import Mathlib.Data.Finset.Card
import Mathlib.Logic.Function.Iterate

namespace PreSeQL.Lib.Orbit

variable {σ ι : Type*} {step : σ → σ} {view : σ → ι} {I T : σ → Prop}

section

variable (hkept : ∀ s, I s → ¬ T s → I (step s))
  (hview : ∀ s s', I s → I s' → ¬ T s → ¬ T s' → view s = view s' →
    view (step s) = view (step s') ∧ (T (step s) ↔ T (step s')))

include hkept

theorem kept_iterate {s : σ} (h : I s) (n : Nat) (hn : ∀ k < n, ¬ T (step^[k] s)) :
    I (step^[n] s) := by
  induction n with
  | zero => exact h
  | succ n ih =>
      rw [Function.iterate_succ_apply']
      exact hkept _ (ih fun k hk => hn k (Nat.lt_succ_of_lt hk)) (hn n (Nat.lt_succ_self n))

include hview

/-- In front of the target the view of the orbit depends on the view of its start. -/
theorem view_iterate {s s' : σ} (h : I s) (h' : I s') (heq : view s = view s') (n : Nat)
    (hn : ∀ k < n, ¬ T (step^[k] s)) (hn' : ∀ k < n, ¬ T (step^[k] s')) :
    view (step^[n] s) = view (step^[n] s') := by
  induction n with
  | zero => exact heq
  | succ n ih =>
      have hbefore : ∀ k < n, ¬ T (step^[k] s) := fun k hk => hn k (Nat.lt_succ_of_lt hk)
      have hbefore' : ∀ k < n, ¬ T (step^[k] s') := fun k hk => hn' k (Nat.lt_succ_of_lt hk)
      rw [Function.iterate_succ_apply', Function.iterate_succ_apply']
      exact (hview _ _ (kept_iterate hkept h n hbefore) (kept_iterate hkept h' n hbefore')
        (hn n (Nat.lt_succ_self n)) (hn' n (Nat.lt_succ_self n)) (ih hbefore hbefore')).1

/-- **No view comes twice** before the first state in the target. -/
theorem views_injective {s : σ} (h : I s) {n : Nat} (hfirst : ∀ k < n, ¬ T (step^[k] s))
    (htarget : T (step^[n] s)) {i j : Nat} (hlt : i < j) (hj : j < n) :
    view (step^[i] s) ≠ view (step^[j] s) := by
  intro heq
  have hi : I (step^[i] s) :=
    kept_iterate hkept h i fun k hk => hfirst k (by omega)
  have hij : I (step^[j] s) :=
    kept_iterate hkept h j fun k hk => hfirst k (by omega)
  -- `j` is `n - 1 - j` steps before the last state in front of the target, and so is `i`
  have hbefore : ∀ k < n - 1 - j, ¬ T (step^[k] (step^[i] s)) := by
    intro k hk
    rw [← Function.iterate_add_apply]
    exact hfirst _ (by omega)
  have hbefore' : ∀ k < n - 1 - j, ¬ T (step^[k] (step^[j] s)) := by
    intro k hk
    rw [← Function.iterate_add_apply]
    exact hfirst _ (by omega)
  have hlast := view_iterate hkept hview hi hij heq (n - 1 - j) hbefore hbefore'
  have hl := kept_iterate hkept hi _ hbefore
  have hl' := kept_iterate hkept hij _ hbefore'
  rw [← Function.iterate_add_apply] at hlast hl hl'
  rw [← Function.iterate_add_apply] at hlast
  have hstep := (hview _ _ hl hl' (hfirst _ (by omega)) (hfirst _ (by omega)) hlast).2
  rw [← Function.iterate_succ_apply' step, ← Function.iterate_succ_apply' step] at hstep
  have hend : (n - 1 - j + j).succ = n := by omega
  rw [hend] at hstep
  exact hfirst _ (by omega) (hstep.mpr htarget)

/-- **The target is reached within as many steps as there are views**, or never. -/
theorem reaches_within {s : σ} (h : I s) (views : Finset ι)
    (hviews : ∀ s, I s → ¬ T s → view s ∈ views) {n : Nat}
    (hfirst : ∀ k < n, ¬ T (step^[k] s)) (htarget : T (step^[n] s)) : n ≤ views.card := by
  have hmaps : ∀ k ∈ Finset.range n, view (step^[k] s) ∈ views := by
    intro k hk
    have hk' := Finset.mem_range.mp hk
    exact hviews _ (kept_iterate hkept h k fun l hl => hfirst l (by omega)) (hfirst k hk')
  have hinjective : Set.InjOn (fun k => view (step^[k] s)) (Finset.range n) := by
    intro i hi j hj heq
    have hi' := Finset.mem_range.mp hi
    have hj' := Finset.mem_range.mp hj
    by_contra hne
    rcases Nat.lt_or_gt_of_ne hne with hlt | hlt
    · exact views_injective hkept hview h hfirst htarget hlt hj' heq
    · exact views_injective hkept hview h hfirst htarget hlt hi' heq.symm
  have hcard := Finset.card_le_card_of_injOn _ hmaps hinjective
  rwa [Finset.card_range] at hcard

end

end PreSeQL.Lib.Orbit
