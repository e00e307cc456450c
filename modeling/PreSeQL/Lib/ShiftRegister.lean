/-
  PreSeQL.Lib.ShiftRegister — the reflected shift register of a cyclic code.

  A register of `w` bits moves down one place at every step and takes the polynomial
  `p` in when a one falls out.  Message bits are exclusive-ored into the lowest place
  before a step.  Everything is linear over exclusive or:

    • `step_iterate_xor` — any number of steps of a sum,
    • `feed_eq_step_iterate` — up to `w` message bits can be added at once,
    • `step_injective` — no step loses information when `p` has its top bit,
    • `feed_window_ne` — two messages that differ within `w` places leave different
      registers.
-/
import Mathlib.Logic.Function.Iterate
import Mathlib.Tactic.Common

namespace PreSeQL.Lib.ShiftRegister

variable {w : Nat}

/-! ## §1. One step. -/

/-- Move down one place, with the polynomial when a one falls out. -/
def step (p c : BitVec w) : BitVec w :=
  if c.getLsbD 0 = true then p ^^^ (c >>> 1) else c >>> 1

theorem getLsbD_step (p c : BitVec w) (i : Nat) :
    (step p c).getLsbD i = ((c.getLsbD 0 && p.getLsbD i) ^^ c.getLsbD (1 + i)) := by
  unfold step
  cases c.getLsbD 0 <;> simp

theorem step_xor (p c d : BitVec w) : step p (c ^^^ d) = step p c ^^^ step p d := by
  apply BitVec.eq_of_getLsbD_eq
  intro i _
  simp only [BitVec.getLsbD_xor, getLsbD_step]
  cases c.getLsbD 0 <;> cases d.getLsbD 0 <;> cases p.getLsbD i <;> simp

theorem step_iterate_xor (p : BitVec w) (n : Nat) :
    ∀ c d : BitVec w, (step p)^[n] (c ^^^ d) = (step p)^[n] c ^^^ (step p)^[n] d := by
  induction n with
  | zero => intro c d; rfl
  | succ n ih =>
      intro c d
      simp only [Function.iterate_succ_apply, step_xor, ih]

theorem step_eq_shift {p c : BitVec w} (h : c.getLsbD 0 = false) : step p c = c >>> 1 := by
  rw [step, if_neg (by simp [h])]

/-- A register whose lowest places are clear only moves down. -/
theorem step_iterate_clear (p : BitVec w) (n : Nat) :
    ∀ c : BitVec w, (∀ i, i < n → c.getLsbD i = false) → (step p)^[n] c = c >>> n := by
  induction n with
  | zero => intro c _; simp
  | succ n ih =>
      intro c hclear
      rw [Function.iterate_succ_apply, step_eq_shift (hclear 0 (Nat.succ_pos n)), ih]
      · rw [← BitVec.shiftRight_add, Nat.add_comm]
      · intro i hi
        rw [BitVec.getLsbD_ushiftRight]
        exact hclear (1 + i) (by omega)

/-- `n` steps of a register: those of its `n` lowest places, and the others moved down. -/
theorem step_iterate_low (p : BitVec w) (n : Nat) {c low : BitVec w}
    (hlow : ∀ i, low.getLsbD i = (decide (i < n) && c.getLsbD i)) :
    (step p)^[n] c = (step p)^[n] low ^^^ (c >>> n) := by
  have hsplit : c = low ^^^ (low ^^^ c) := by
    rw [← BitVec.xor_assoc, BitVec.xor_self, BitVec.zero_xor]
  have hhigh : (step p)^[n] (low ^^^ c) = (low ^^^ c) >>> n := by
    apply step_iterate_clear
    intro i hi
    simp [hlow, hi]
  have hmove : (low ^^^ c) >>> n = c >>> n := by
    apply BitVec.eq_of_getLsbD_eq
    intro i _
    simp [hlow, show ¬ n + i < n by omega]
  calc (step p)^[n] c = (step p)^[n] (low ^^^ (low ^^^ c)) := by rw [← hsplit]
    _ = (step p)^[n] low ^^^ (step p)^[n] (low ^^^ c) := step_iterate_xor p n _ _
    _ = (step p)^[n] low ^^^ (c >>> n) := by rw [hhigh, hmove]

/-- Only the zero register steps to zero, when the polynomial has its top bit. -/
theorem step_eq_zero {p c : BitVec w} (hp : p.getLsbD (w - 1) = true) (h : step p c = 0#w) :
    c = 0#w := by
  have hw : 0 < w := by
    apply Nat.pos_of_ne_zero
    intro h0
    subst h0
    simp at hp
  have hbit : ∀ i, (step p c).getLsbD i = false := by
    intro i
    rw [h, BitVec.getLsbD_zero]
  -- the top place of the result is the bit that fell out
  have hlast : c.getLsbD (1 + (w - 1)) = false := BitVec.getLsbD_of_ge c _ (by omega)
  have hout : c.getLsbD 0 = false := by
    have htop := hbit (w - 1)
    rw [getLsbD_step, hp, hlast] at htop
    simpa using htop
  apply BitVec.eq_of_getLsbD_eq
  intro i _
  cases i with
  | zero => rw [hout, BitVec.getLsbD_zero]
  | succ i =>
      have hi := hbit i
      rw [getLsbD_step, hout, Nat.add_comm] at hi
      simpa using hi

/-- **No step loses information.** -/
theorem step_injective {p : BitVec w} (hp : p.getLsbD (w - 1) = true) :
    Function.Injective (step p) := by
  intro c d h
  have hzero : step p (c ^^^ d) = 0#w := by
    rw [step_xor, h, BitVec.xor_self]
  exact BitVec.xor_eq_zero_iff.mp (step_eq_zero hp hzero)

/-! ## §2. Messages. -/

/-- A message bit in the lowest place. -/
def place (b : Bool) : BitVec w := (BitVec.ofBool b).setWidth w

/-- Take one message bit in. -/
def feed (p c : BitVec w) (b : Bool) : BitVec w := step p (c ^^^ place b)

/-- The bits of a message in the lowest places, the first one lowest. -/
def word : List Bool → BitVec w
  | [] => 0#w
  | b :: bs => (word bs <<< 1) ^^^ place b

theorem getLsbD_place (b : Bool) (i : Nat) (hi : i < w) :
    (place b : BitVec w).getLsbD i = (decide (i = 0) && b) := by
  cases i with
  | zero => cases b <;> simp [place, hi]
  | succ i => cases b <;> simp [place]

theorem getLsbD_word (bs : List Bool) :
    ∀ i, i < w → (word bs : BitVec w).getLsbD i = bs.getD i false := by
  induction bs with
  | nil => intro i _; simp [word]
  | cons b bs ih =>
      intro i hi
      rw [word, BitVec.getLsbD_xor, getLsbD_place b i hi, BitVec.getLsbD_shiftLeft]
      cases i with
      | zero => simp
      | succ i => simp [ih i (by omega), hi]

/-- Messages that fit the register are told apart by their words. -/
theorem word_injective {bs cs : List Bool} (hlen : bs.length = cs.length) (hw : bs.length ≤ w)
    (h : (word bs : BitVec w) = word cs) : bs = cs := by
  apply List.ext_getElem hlen
  intro i hi hi'
  have hbit := congrArg (fun c : BitVec w => c.getLsbD i) h
  simpa [getLsbD_word _ i (show i < w by omega), hi, hi'] using hbit

/-- **Feeding bit by bit is adding the word first**, as long as the message fits. -/
theorem feed_eq_step_iterate (p : BitVec w) (bs : List Bool) :
    ∀ c : BitVec w, bs.length ≤ w →
      bs.foldl (feed p) c = (step p)^[bs.length] (c ^^^ word bs) := by
  induction bs with
  | nil => intro c _; simp [word]
  | cons b bs ih =>
      intro c hlen
      rw [List.length_cons] at hlen
      -- the rest of the message waits one place up
      have hclear : step p (word bs <<< 1) = word bs := by
        rw [step_eq_shift (by simp)]
        apply BitVec.eq_of_getLsbD_eq
        intro i hi
        rw [BitVec.getLsbD_ushiftRight, BitVec.getLsbD_shiftLeft, Nat.add_sub_cancel_left]
        by_cases hfit : 1 + i < w
        · simp [hfit]
        · rw [getLsbD_word bs i hi]
          simp [hfit, show bs.length ≤ i by omega]
      have hxor : c ^^^ ((word bs <<< 1) ^^^ place b) = (c ^^^ place b) ^^^ (word bs <<< 1) := by
        rw [BitVec.xor_comm (word bs <<< 1), BitVec.xor_assoc]
      rw [List.foldl_cons, ih _ (by omega), List.length_cons, Function.iterate_succ_apply, word,
        hxor, step_xor, hclear]
      rfl

theorem feed_injective {p : BitVec w} (hp : p.getLsbD (w - 1) = true) (bs : List Bool) :
    ∀ c d : BitVec w, bs.foldl (feed p) c = bs.foldl (feed p) d → c = d := by
  induction bs with
  | nil => intro c d h; exact h
  | cons b bs ih =>
      intro c d h
      have hstep := step_injective hp (ih _ _ h)
      rwa [BitVec.xor_left_inj] at hstep

/-- **A burst is noticed**: two messages that differ within as many places as the register
has leave different registers. -/
theorem feed_window_ne {p : BitVec w} (hp : p.getLsbD (w - 1) = true) {us vs : List Bool}
    (hlen : us.length = vs.length) (hw : us.length ≤ w) (hne : us ≠ vs) (c : BitVec w)
    (pre post : List Bool) :
    (pre ++ us ++ post).foldl (feed p) c ≠ (pre ++ vs ++ post).foldl (feed p) c := by
  intro h
  rw [List.foldl_append, List.foldl_append, List.foldl_append, List.foldl_append] at h
  have hmid := feed_injective hp post _ _ h
  rw [feed_eq_step_iterate p us _ hw, feed_eq_step_iterate p vs _ (hlen ▸ hw), ← hlen] at hmid
  have hword := (step_injective hp).iterate us.length hmid
  rw [BitVec.xor_right_inj] at hword
  exact hne (word_injective hlen hw hword)

end PreSeQL.Lib.ShiftRegister
