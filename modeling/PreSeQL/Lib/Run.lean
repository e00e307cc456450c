/-
  PreSeQL.Lib.Run — runs of a deterministic component under a list of calls.

  `step s a` is the state after call `a`.  Two things are said of a run: a
  property of every state it reaches (`Throughout`) and a property of every call
  in the state it is made in (`EachStep`).  The rules turn a fact about one step
  into a fact about every run:

    • `throughout_of_eachStep` — what every good step keeps holds throughout,
    • `throughout_of_kept` — so does what an invariant of the good steps says,
    • `throughout_iff_of_kept` — if, under an invariant, a step keeps `Q` exactly when
      it meets `G`, then a run keeps `Q` exactly when every step meets `G`,
    • `eachStep_of_kept` — what an invariant of the good steps says of each of them,
    • `eachStep_congr` — per-step equivalence lifts to runs,
    • `eachStep_iff_of_kept` — the same under an invariant that only the good steps keep,
    • `eachStep_iff_within` — the same in runs whose steps stay within a condition,
    • `eachStep_of_simulates` — conditions of an abstract run are conditions of the run that
      follows it.
-/
import Mathlib.Tactic.Common

namespace PreSeQL.Lib.Run

variable {σ α : Type*} (step : σ → α → σ)

/-- `Q` holds in the start state and in every state the calls reach. -/
def Throughout (Q : σ → Prop) : σ → List α → Prop
  | s, [] => Q s
  | s, a :: as => Q s ∧ Throughout Q (step s a) as

/-- Every call is made in a state that satisfies `P` for it. -/
def EachStep (P : σ → α → Prop) : σ → List α → Prop
  | _, [] => True
  | s, a :: as => P s a ∧ EachStep P (step s a) as

variable {step}

instance decidableEachStep {P : σ → α → Prop} [∀ s a, Decidable (P s a)] :
    ∀ s as, Decidable (EachStep step P s as)
  | _, [] => isTrue trivial
  | s, a :: as =>
      have : Decidable (EachStep step P (step s a) as) := decidableEachStep (step s a) as
      inferInstanceAs (Decidable (P s a ∧ EachStep step P (step s a) as))

theorem eachStep_iff_forall {P : α → Prop} (as : List α) :
    ∀ s, EachStep step (fun _ a => P a) s as ↔ ∀ a ∈ as, P a := by
  induction as with
  | nil => intro s; simp [EachStep]
  | cons a as ih => intro s; rw [EachStep, ih, List.forall_mem_cons]

theorem eachStep_append {P : σ → α → Prop} (as bs : List α) :
    ∀ s, EachStep step P s (as ++ bs)
      ↔ EachStep step P s as ∧ EachStep step P (as.foldl step s) bs := by
  induction as with
  | nil => intro s; simp [EachStep]
  | cons a as ih => intro s; simp only [List.cons_append, EachStep, ih, List.foldl_cons, and_assoc]

theorem eachStep_concat {P : σ → α → Prop} (as : List α) (a : α) (s : σ) :
    EachStep step P s (as ++ [a]) ↔ EachStep step P s as ∧ P (as.foldl step s) a := by
  rw [eachStep_append, EachStep, EachStep, and_true]

/-- What holds of every state holds throughout. -/
theorem throughout_of_forall {Q : σ → Prop} (hq : ∀ s, Q s) (as : List α) :
    ∀ s, Throughout step Q s as := by
  induction as with
  | nil => intro s; exact hq s
  | cons a as ih => intro s; exact ⟨hq s, ih _⟩

theorem throughout_of_eachStep {I Q : σ → Prop} {G : σ → α → Prop}
    (hinv : ∀ s a, I s → I (step s a))
    (hstep : ∀ s a, I s → Q s → G s a → Q (step s a)) (as : List α) :
    ∀ s, I s → Q s → EachStep step G s as → Throughout step Q s as := by
  induction as with
  | nil => intro s _ hq _; exact hq
  | cons a as ih =>
      intro s h hq hsteps
      exact ⟨hq, ih _ (hinv s a h) (hstep s a h hq hsteps.1) hsteps.2⟩

/-- What an invariant of the good steps says holds throughout a run of them. -/
theorem throughout_of_kept {I Q : σ → Prop} {G : σ → α → Prop}
    (hkept : ∀ s a, I s → G s a → I (step s a)) (hq : ∀ s, I s → Q s) (as : List α) :
    ∀ s, I s → EachStep step G s as → Throughout step Q s as := by
  induction as with
  | nil => intro s h _; exact hq s h
  | cons a as ih =>
      intro s h hsteps
      exact ⟨hq s h, ih _ (hkept s a h hsteps.1) hsteps.2⟩

/-- **Exact conditions lift from steps to runs**, under an invariant that the good steps
keep. -/
theorem throughout_iff_of_kept {I Q : σ → Prop} {G : σ → α → Prop}
    (hkept : ∀ s a, I s → Q s → G s a → I (step s a))
    (hstep : ∀ s a, I s → Q s → (Q (step s a) ↔ G s a)) (as : List α) :
    ∀ s, I s → (Throughout step Q s as ↔ Q s ∧ EachStep step G s as) := by
  induction as with
  | nil => intro s _; simp [Throughout, EachStep]
  | cons a as ih =>
      intro s h
      rw [Throughout, EachStep]
      refine and_congr_right fun hq => ⟨fun hrest => ?_, fun ⟨hg, hrest⟩ => ?_⟩
      · -- the state after the call is the first of the rest
        have hq' : Q (step s a) := by cases as <;> [exact hrest; exact hrest.1]
        have hg := (hstep s a h hq).mp hq'
        exact ⟨hg, ((ih _ (hkept s a h hq hg)).mp hrest).2⟩
      · exact (ih _ (hkept s a h hq hg)).mpr ⟨(hstep s a h hq).mpr hg, hrest⟩

/-- The same under an invariant of every step. -/
theorem throughout_iff_eachStep {I Q : σ → Prop} {G : σ → α → Prop}
    (hinv : ∀ s a, I s → I (step s a))
    (hstep : ∀ s a, I s → Q s → (Q (step s a) ↔ G s a)) (as : List α) :
    ∀ s, I s → (Throughout step Q s as ↔ Q s ∧ EachStep step G s as) :=
  throughout_iff_of_kept (fun s a h _ _ => hinv s a h) hstep as

/-- The same in runs whose steps stay within `H`. -/
theorem throughout_iff_within {I Q : σ → Prop} {H G : σ → α → Prop}
    (hkept : ∀ s a, I s → H s a → I (step s a))
    (hstep : ∀ s a, I s → H s a → Q s → (Q (step s a) ↔ G s a)) (as : List α) :
    ∀ s, I s → EachStep step H s as → (Throughout step Q s as ↔ Q s ∧ EachStep step G s as) := by
  induction as with
  | nil => intro s _ _; simp [Throughout, EachStep]
  | cons a as ih =>
      intro s h hwithin
      rw [Throughout, EachStep, ih _ (hkept s a h hwithin.1) hwithin.2]
      refine and_congr_right fun hq => ?_
      rw [hstep s a h hwithin.1 hq]

/-- What an invariant of the good steps says of each of them. -/
theorem eachStep_of_kept {I : σ → Prop} {G P : σ → α → Prop}
    (hkept : ∀ s a, I s → G s a → I (step s a)) (hp : ∀ s a, I s → G s a → P s a) (as : List α) :
    ∀ s, I s → EachStep step G s as → EachStep step P s as := by
  induction as with
  | nil => intro s _ _; trivial
  | cons a as ih =>
      intro s h hsteps
      exact ⟨hp s a h hsteps.1, ih _ (hkept s a h hsteps.1) hsteps.2⟩

theorem eachStep_congr {I : σ → Prop} {P P' : σ → α → Prop}
    (hinv : ∀ s a, I s → I (step s a))
    (hstep : ∀ s a, I s → (P s a ↔ P' s a)) (as : List α) :
    ∀ s, I s → (EachStep step P s as ↔ EachStep step P' s as) := by
  induction as with
  | nil => intro s _; rfl
  | cons a as ih =>
      intro s h
      rw [EachStep, EachStep, hstep s a h, ih _ (hinv s a h)]

/-- As long as the steps are good, the invariant under which `P` and `P'` agree holds. -/
theorem eachStep_iff_of_kept {I : σ → Prop} {P P' : σ → α → Prop}
    (hkept : ∀ s a, I s → P s a → I (step s a))
    (hstep : ∀ s a, I s → (P s a ↔ P' s a)) (as : List α) :
    ∀ s, I s → (EachStep step P s as ↔ EachStep step P' s as) := by
  induction as with
  | nil => intro s _; rfl
  | cons a as ih =>
      intro s h
      rw [EachStep, EachStep, ← hstep s a h]
      exact and_congr_right fun hp => ih _ (hkept s a h hp)

/-- The same in runs whose steps stay within `H`. -/
theorem eachStep_iff_within {I : σ → Prop} {H P P' : σ → α → Prop}
    (hkept : ∀ s a, I s → H s a → P' s a → I (step s a))
    (hstep : ∀ s a, I s → H s a → (P s a ↔ P' s a)) (as : List α) :
    ∀ s, I s → EachStep step H s as → (EachStep step P s as ↔ EachStep step P' s as) := by
  induction as with
  | nil => intro s _ _; rfl
  | cons a as ih =>
      intro s h hwithin
      rw [EachStep, EachStep, hstep s a h hwithin.1]
      exact and_congr_right fun hp => ih _ (hkept s a h hwithin.1 hp) hwithin.2

/-- **A run that follows another** meets at every step what the other one's step says, and
follows it to its end. -/
theorem eachStep_of_simulates {τ β : Type*} {abstract_step : τ → β → τ} {P : σ → α → Prop}
    {Q : τ → β → Prop} {R : σ → τ → Prop} (f : β → α)
    (hstep : ∀ s t b, R s t → Q t b → P s (f b) ∧ R (step s (f b)) (abstract_step t b))
    (bs : List β) : ∀ s t, R s t → EachStep abstract_step Q t bs →
      EachStep step P s (bs.map f) ∧ R ((bs.map f).foldl step s) (bs.foldl abstract_step t) := by
  induction bs with
  | nil => intro s t hr _; exact ⟨trivial, hr⟩
  | cons b bs ih =>
      intro s t hr hsteps
      obtain ⟨hp, hr'⟩ := hstep s t b hr hsteps.1
      obtain ⟨hrest, hend⟩ := ih _ _ hr' hsteps.2
      exact ⟨⟨hp, hrest⟩, hend⟩

end PreSeQL.Lib.Run
