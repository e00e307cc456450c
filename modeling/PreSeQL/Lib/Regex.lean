/-
  PreSeQL.Lib.Regex — regular expressions whose atoms are classes of characters.

  `accepts` runs an expression over a word by derivatives; `accepts_iff` says that
  it decides the expression's language, which is given in Mathlib's `Language`
  algebra.  (`RegularExpression` of Mathlib has single characters as atoms, so the
  complement of a character over an unbounded alphabet is out of its reach.)
-/
import Mathlib.Computability.Language
import Mathlib.Tactic.Common

namespace PreSeQL.Lib

open Computability

/-! ## §1. Syntax and language. -/

inductive Regex (α : Type*) where
  | empty
  | epsilon
  | cls (p : α → Bool)
  | seq (r s : Regex α)
  | alt (r s : Regex α)
  | star (r : Regex α)

namespace Regex

variable {α : Type*}

/-- A single character. -/
def char [DecidableEq α] (a : α) : Regex α := cls (fun b => b = a)

/-- The words of one character of the class. -/
def classLanguage (p : α → Bool) : Language α := {w | ∃ a, p a = true ∧ w = [a]}

def language : Regex α → Language α
  | empty => 0
  | epsilon => 1
  | cls p => classLanguage p
  | seq r s => r.language * s.language
  | alt r s => r.language + s.language
  | star r => r.language∗

/-! ## §2. The matcher. -/

/-- The expression accepts the empty word. -/
def nullable : Regex α → Bool
  | empty => false
  | epsilon => true
  | cls _ => false
  | seq r s => r.nullable && s.nullable
  | alt r s => r.nullable || s.nullable
  | star _ => true

/-- What may follow the character `a`. -/
def deriv (a : α) : Regex α → Regex α
  | empty => empty
  | epsilon => empty
  | cls p => if p a then epsilon else empty
  -- past a nullable `r`, the character may begin `s`
  | seq r s => if r.nullable then alt (seq (deriv a r) s) (deriv a s) else seq (deriv a r) s
  | alt r s => alt (deriv a r) (deriv a s)
  | star r => seq (deriv a r) (star r)

def accepts (r : Regex α) : List α → Bool
  | [] => r.nullable
  | a :: w => (r.deriv a).accepts w

/-- A word of the expression may start with the character. -/
def starts (a : α) : Regex α → Bool
  | empty => false
  | epsilon => false
  | cls p => p a
  | seq r s => r.starts a || (r.nullable && s.starts a)
  | alt r s => r.starts a || s.starts a
  | star r => r.starts a

/-! ## §3. Words with a first character, in the algebra of languages. -/

theorem nil_mem_mul {l m : Language α} : [] ∈ l * m ↔ [] ∈ l ∧ [] ∈ m := by
  rw [Language.mem_mul]
  constructor
  · rintro ⟨u, hu, v, hv, h⟩
    obtain ⟨rfl, rfl⟩ := List.append_eq_nil_iff.mp h
    exact ⟨hu, hv⟩
  · rintro ⟨hl, hm⟩
    exact ⟨[], hl, [], hm, rfl⟩

theorem cons_mem_mul {l m : Language α} {a : α} {w : List α} :
    a :: w ∈ l * m ↔
      (∃ u v, a :: u ∈ l ∧ v ∈ m ∧ u ++ v = w) ∨ ([] ∈ l ∧ a :: w ∈ m) := by
  rw [Language.mem_mul]
  constructor
  · rintro ⟨u, hu, v, hv, h⟩
    cases u with
    -- an empty left part leaves the whole word to the right one
    | nil => exact .inr ⟨hu, h ▸ hv⟩
    | cons b u =>
        obtain ⟨rfl, rfl⟩ := List.cons_eq_cons.mp h
        exact .inl ⟨u, v, hu, hv, rfl⟩
  · rintro (⟨u, v, hu, hv, rfl⟩ | ⟨hl, hm⟩)
    · exact ⟨a :: u, hu, v, hv, rfl⟩
    · exact ⟨[], hl, a :: w, hm, rfl⟩

/-- The first character of a repetition lies in a non-empty round. -/
theorem cons_mem_kstar {l : Language α} {a : α} {w : List α} :
    a :: w ∈ l∗ ↔ ∃ u v, a :: u ∈ l ∧ v ∈ l∗ ∧ u ++ v = w := by
  constructor
  · intro h
    -- `l∗` may be read with rounds that are not empty, so the first one holds `a`
    obtain ⟨rounds, hw, hrounds⟩ := Language.mem_kstar_iff_exists_nonempty.mp h
    cases rounds with
    | nil => simp at hw
    | cons round rounds =>
        obtain ⟨hround, hne⟩ := hrounds round (by simp)
        obtain ⟨b, u, rfl⟩ := List.exists_cons_of_ne_nil hne
        obtain ⟨rfl, rfl⟩ := List.cons_eq_cons.mp hw
        have hrest : rounds.flatten ∈ l∗ :=
          Language.join_mem_kstar fun y hy => (hrounds y (by simp [hy])).1
        exact ⟨u, rounds.flatten, hround, hrest, rfl⟩
  · rintro ⟨u, v, hu, hv, rfl⟩
    obtain ⟨rounds, rfl, hrounds⟩ := Language.mem_kstar.mp hv
    have h : ((a :: u) :: rounds).flatten ∈ l∗ :=
      Language.join_mem_kstar fun y hy => by
        rcases List.mem_cons.mp hy with rfl | hy
        · exact hu
        · exact hrounds y hy
    simpa using h

theorem nil_notMem_classLanguage (p : α → Bool) : [] ∉ classLanguage p := by
  rintro ⟨a, -, h⟩
  simp at h

theorem cons_mem_classLanguage {p : α → Bool} {a : α} {w : List α} :
    a :: w ∈ classLanguage p ↔ p a = true ∧ w = [] := by
  constructor
  · rintro ⟨b, hb, h⟩
    obtain ⟨rfl, rfl⟩ := List.cons_eq_cons.mp h
    exact ⟨hb, rfl⟩
  · rintro ⟨ha, rfl⟩
    exact ⟨a, ha, rfl⟩

/-! ## §4. The matcher decides the language. -/

theorem nullable_iff (r : Regex α) : r.nullable = true ↔ [] ∈ r.language := by
  induction r with
  | empty => simp [nullable, language, Language.notMem_zero]
  | epsilon => simp [nullable, language]
  | cls p => simp [nullable, language, nil_notMem_classLanguage]
  | seq r s ihr ihs => simp [nullable, language, nil_mem_mul, ihr, ihs]
  | alt r s ihr ihs =>
      rw [nullable, Bool.or_eq_true, ihr, ihs, language, Language.mem_add]
  | star r => simp [nullable, language, Language.nil_mem_kstar]

/-- The derivative's words are what may follow `a`. -/
theorem mem_deriv (a : α) (r : Regex α) :
    ∀ w, w ∈ (r.deriv a).language ↔ a :: w ∈ r.language := by
  induction r with
  | empty => intro w; simp [deriv, language, Language.notMem_zero]
  | epsilon => intro w; simp [deriv, language, Language.notMem_zero, Language.mem_one]
  | cls p =>
      intro w
      by_cases ha : p a = true
      · simp [deriv, language, cons_mem_classLanguage, ha, Language.mem_one]
      · simp [deriv, language, cons_mem_classLanguage, ha, Language.notMem_zero]
  | seq r s ihr ihs =>
      intro w
      -- the character comes from `r`, and the rest is split as before
      have hfirst : w ∈ (r.deriv a).language * s.language ↔
          ∃ u v, a :: u ∈ r.language ∧ v ∈ s.language ∧ u ++ v = w := by
        rw [Language.mem_mul]
        constructor
        · rintro ⟨u, hu, v, hv, h⟩
          exact ⟨u, v, (ihr u).mp hu, hv, h⟩
        · rintro ⟨u, v, hu, hv, h⟩
          exact ⟨u, (ihr u).mpr hu, v, hv, h⟩
      -- with `r` nullable it may come from `s` instead
      by_cases hr : r.nullable = true
      · simp only [deriv, hr, if_true, language, Language.mem_add, hfirst, ihs, cons_mem_mul,
          (nullable_iff r).mp hr, true_and]
      · have hnil : [] ∉ r.language := fun h => hr ((nullable_iff r).mpr h)
        simp only [deriv, hr, if_false, language, hfirst, cons_mem_mul, hnil, false_and, or_false,
          Bool.false_eq_true]
  | alt r s ihr ihs =>
      intro w
      rw [deriv, language, Language.mem_add, ihr, ihs, language, Language.mem_add]
  | star r ih =>
      intro w
      simp only [deriv, language, cons_mem_kstar, Language.mem_mul]
      constructor
      · rintro ⟨u, hu, v, hv, h⟩
        exact ⟨u, v, (ih u).mp hu, hv, h⟩
      · rintro ⟨u, v, hu, hv, h⟩
        exact ⟨u, (ih u).mpr hu, v, hv, h⟩

/-- **The matcher decides the language.** -/
theorem accepts_iff (w : List α) : ∀ r : Regex α, r.accepts w = true ↔ w ∈ r.language := by
  induction w with
  | nil => exact nullable_iff
  | cons a w ih => intro r; rw [accepts, ih, mem_deriv]

/-- Only a character `starts` admits begins a word. -/
theorem starts_of_cons_mem {a : α} (r : Regex α) :
    ∀ {w}, a :: w ∈ r.language → r.starts a = true := by
  induction r with
  | empty => intro w h; exact absurd h (Language.notMem_zero _)
  | epsilon => intro w h; simp [language, Language.mem_one] at h
  | cls p => intro w h; exact (cons_mem_classLanguage.mp h).1
  | seq r s ihr ihs =>
      intro w h
      rcases cons_mem_mul.mp h with ⟨u, v, hu, -, -⟩ | ⟨hnil, hs⟩
      · simp [starts, ihr hu]
      · simp [starts, ihs hs, (nullable_iff r).mpr hnil]
  | alt r s ihr ihs =>
      intro w h
      rcases (Language.mem_add _ _ _).mp h with hr | hs
      · simp [starts, ihr hr]
      · simp [starts, ihs hs]
  | star r ih =>
      intro w h
      obtain ⟨u, v, hu, -, -⟩ := cons_mem_kstar.mp h
      exact ih hu

/-! ## §5. Words by their characters. -/

theorem cons_mem_seq_cls {p : α → Bool} {r : Regex α} {a : α} {w : List α} :
    a :: w ∈ (seq (cls p) r).language ↔ p a = true ∧ w ∈ r.language := by
  show a :: w ∈ classLanguage p * r.language ↔ p a = true ∧ w ∈ r.language
  rw [cons_mem_mul]
  constructor
  · rintro (⟨u, v, hu, hv, rfl⟩ | ⟨hnil, -⟩)
    · -- the class takes one character, so the rest is all of `r`'s
      obtain ⟨ha, rfl⟩ := cons_mem_classLanguage.mp hu
      exact ⟨ha, hv⟩
    · exact absurd hnil (nil_notMem_classLanguage p)
  · intro h
    exact .inl ⟨[], w, cons_mem_classLanguage.mpr ⟨h.1, rfl⟩, h.2, rfl⟩

theorem mem_seq_char [DecidableEq α] {a : α} {r : Regex α} {w : List α} :
    w ∈ (seq (char a) r).language ↔ ∃ v, w = a :: v ∧ v ∈ r.language := by
  cases w with
  | nil =>
      show [] ∈ (char a).language * r.language ↔ _
      rw [nil_mem_mul]
      simp [char, language, nil_notMem_classLanguage]
  | cons b w =>
      rw [char, cons_mem_seq_cls, decide_eq_true_eq]
      constructor
      · rintro ⟨rfl, h⟩; exact ⟨w, rfl, h⟩
      · rintro ⟨v, hv, h⟩
        obtain ⟨rfl, rfl⟩ := List.cons_eq_cons.mp hv
        exact ⟨rfl, h⟩

/-- A repeated class has the words made of its characters. -/
theorem mem_star_cls {p : α → Bool} (w : List α) :
    w ∈ (star (cls p)).language ↔ ∀ a ∈ w, p a = true := by
  induction w with
  | nil => simp [language, Language.nil_mem_kstar]
  | cons a w ih =>
      have hcons : a :: w ∈ (star (cls p)).language ↔
          p a = true ∧ w ∈ (star (cls p)).language := by
        show a :: w ∈ (classLanguage p)∗ ↔ p a = true ∧ w ∈ (classLanguage p)∗
        rw [cons_mem_kstar]
        constructor
        · rintro ⟨u, v, hu, hv, rfl⟩
          obtain ⟨ha, rfl⟩ := cons_mem_classLanguage.mp hu
          exact ⟨ha, hv⟩
        · intro h
          exact ⟨[], w, cons_mem_classLanguage.mpr ⟨h.1, rfl⟩, h.2, rfl⟩
      rw [hcons, ih, List.forall_mem_cons]

end Regex

end PreSeQL.Lib
