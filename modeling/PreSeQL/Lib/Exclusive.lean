/-
  PreSeQL.Lib.Exclusive — traces of a resource pool.

  A trace acquires and releases members of a type.  It is exclusive over a set of
  members in use when nothing in use is acquired.  In such a trace two acquisitions
  of one member always have a release of it between them.
-/
import Mathlib.Data.Finset.Insert
import Mathlib.Data.Finset.Basic

namespace PreSeQL.Lib

inductive Use (α : Type*) where
  | acquire (a : α)
  | release (a : α)
  deriving DecidableEq

namespace Use

variable {α : Type*} [DecidableEq α]

/-- The members in use after an event. -/
def apply (U : Finset α) : Use α → Finset α
  | acquire a => insert a U
  | release a => U.erase a

/-- Nothing in use is acquired. -/
def Fresh (U : Finset α) : Use α → Prop
  | acquire a => a ∉ U
  | release _ => True

/-- No event of the trace acquires what is in use. -/
def Exclusive : Finset α → List (Use α) → Prop
  | _, [] => True
  | U, e :: t => e.Fresh U ∧ Exclusive (e.apply U) t

theorem exclusive_append (t₁ t₂ : List (Use α)) : ∀ U : Finset α,
    Exclusive U (t₁ ++ t₂) ↔ Exclusive U t₁ ∧ Exclusive (t₁.foldl apply U) t₂ := by
  induction t₁ with
  | nil => intro U; simp [Exclusive]
  | cons e t₁ ih =>
      intro U
      rw [List.cons_append, Exclusive, Exclusive, ih, and_assoc, List.foldl_cons]

theorem mem_apply_of_ne_release {U : Finset α} {a : α} {e : Use α} (h : a ∈ U)
    (he : e ≠ release a) : a ∈ e.apply U := by
  cases e with
  | acquire b => exact Finset.mem_insert_of_mem h
  | release b =>
      refine Finset.mem_erase.mpr ⟨?_, h⟩
      rintro rfl
      exact he rfl

/-- What is in use is released before it is acquired again. -/
theorem release_mem_of_exclusive {a : α} (l r : List (Use α)) : ∀ U : Finset α, a ∈ U →
    Exclusive U (l ++ acquire a :: r) → release a ∈ l := by
  induction l with
  | nil => intro U h ht; exact absurd h ht.1
  | cons e l ih =>
      intro U h ht
      -- either this event releases `a`, or `a` is still in use behind it
      by_cases he : e = release a
      · exact he ▸ List.mem_cons_self
      · exact List.mem_cons_of_mem _ (ih _ (mem_apply_of_ne_release h he) ht.2)

/-- Two acquisitions of one member have a release of it between them. -/
def ReleasedBetween (t : List (Use α)) : Prop :=
  ∀ (a : α) (before between after : List (Use α)),
    t = before ++ acquire a :: (between ++ acquire a :: after) → release a ∈ between

/-- **Exclusive traces release between acquisitions.** -/
theorem Exclusive.releasedBetween {U : Finset α} {t : List (Use α)} (h : Exclusive U t) :
    ReleasedBetween t := by
  rintro a before between after rfl
  obtain ⟨-, -, hrest⟩ := (exclusive_append _ _ U).mp h
  exact release_mem_of_exclusive between after _ (Finset.mem_insert_self a _) hrest

end Use

end PreSeQL.Lib
