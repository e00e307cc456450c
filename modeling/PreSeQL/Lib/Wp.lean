/-
  PreSeQL.Lib.Wp — runs whose calls depend on values nobody controls.

  What a call guarantees is its weakest precondition: `wp s a R` says that call `a`,
  made in state `s`, returns and leads to a state with `R` whatever those values are.
  `Surely` asks this of all calls of a run, one after the other.  The rules compare
  such a run with the run of an abstract, deterministic system that tracks it:

    • `surely_of_tracked` — calls that are good in the abstract run are good,
    • `surely_iff_tracked` — and no others are.
-/
import PreSeQL.Lib.Run

namespace PreSeQL.Lib.Wp

open PreSeQL.Lib.Run

variable {σ τ α : Type*}

/-- Whatever happens in each call, it returns, `P` holds of the states around it, and so
for the rest of the run. -/
def Surely (wp : σ → α → (σ → Prop) → Prop) (P : σ → α → σ → Prop) : σ → List α → Prop
  | _, [] => True
  | s, a :: as => wp s a fun s' => P s a s' ∧ Surely wp P s' as

variable {wp : σ → α → (σ → Prop) → Prop} {P : σ → α → σ → Prop} {I : τ → σ → Prop}
  {track : τ → α → τ} {H G : τ → α → Prop}

section

variable (hmono : ∀ s a (R R' : σ → Prop), (∀ s', R s' → R' s') → wp s a R → wp s a R')
  (hstep : ∀ t s a, I t s → H t a → G t a → wp s a fun s' => P s a s' ∧ I (track t a) s')

include hmono hstep

theorem surely_of_tracked (as : List α) :
    ∀ t s, I t s → EachStep track H t as → EachStep track G t as → Surely wp P s as := by
  induction as with
  | nil => intro _ _ _ _ _; trivial
  | cons a as ih =>
      rintro t s h ⟨hh, hhrest⟩ ⟨hg, hgrest⟩
      refine hmono s a _ _ (fun s' hs' => ?_) (hstep t s a h hh hg)
      exact ⟨hs'.1, ih _ _ hs'.2 hhrest hgrest⟩

/-- **Exact conditions**, in runs that stay within `H`: a call that is not good in the
abstract run may fail, and what a good call guarantees holds in some state that is tracked. -/
theorem surely_iff_tracked
    (hmeet : ∀ t s a (R : σ → Prop), I t s → H t a → G t a → wp s a R →
      ∃ s', I (track t a) s' ∧ R s')
    (hgood : ∀ t s a, I t s → H t a → wp s a (P s a) → G t a) (as : List α) :
    ∀ t s, I t s → EachStep track H t as → (Surely wp P s as ↔ EachStep track G t as) := by
  refine fun t s h hwithin => ⟨fun hrun => ?_, surely_of_tracked hmono hstep as t s h hwithin⟩
  induction as generalizing t s with
  | nil => trivial
  | cons a as ih =>
      have hg := hgood t s a h hwithin.1 (hmono s a _ _ (fun _ hs' => hs'.1) hrun)
      obtain ⟨s', h', hs'⟩ := hmeet t s a _ h hwithin.1 hg hrun
      exact ⟨hg, ih _ _ h' hwithin.2 hs'.2⟩

end

end PreSeQL.Lib.Wp
