/-
  PreSeQL.Lib.ByteMem — a flat byte memory with little-endian words.

  Every write is one operation, `fill`: replace a range of bytes.  Stores of
  words, `memset` and `memmove` are instances of it, so one pair of lemmas (inside
  the range, outside the range) carries all reasoning about aliasing.

    • `load_store_same` — a stored word reads back (modulo its size),
    • `load_fill_of_disjoint` — a word outside the range is unchanged,
    • `SameOff` — the frame of a computation: a range outside which nothing changed.
-/
import Mathlib.Tactic.Ring

namespace PreSeQL.Lib

/-- The byte at every address. -/
abbrev Mem := Nat → UInt8

namespace Mem

/-! ## §1. Ranges of bytes. -/

/-- Replace the `n` bytes from address `a` by `f 0, f 1, …`. -/
def fill (m : Mem) (a n : Nat) (f : Nat → UInt8) : Mem :=
  fun i => if a ≤ i ∧ i < a + n then f (i - a) else m i

def memset (m : Mem) (a : Nat) (v : UInt8) (n : Nat) : Mem := m.fill a n fun _ => v

/-- Copy `n` bytes; all are read before any is written. -/
def memmove (m : Mem) (dst src n : Nat) : Mem := m.fill dst n fun j => m (src + j)

/-- The `n` bytes from address `a`. -/
def bytes (m : Mem) (a : Nat) : Nat → List UInt8
  | 0 => []
  | n + 1 => m a :: m.bytes (a + 1) n

theorem fill_inside (m : Mem) {a n i : Nat} (f : Nat → UInt8) (h₁ : a ≤ i) (h₂ : i < a + n) :
    m.fill a n f i = f (i - a) := if_pos ⟨h₁, h₂⟩

theorem fill_outside (m : Mem) {a n i : Nat} (f : Nat → UInt8) (h : i < a ∨ a + n ≤ i) :
    m.fill a n f i = m i := if_neg (by omega)

/-! ## §2. Little-endian words of `n` bytes. -/

/-- The number in the `n` bytes from address `a`. -/
def load (m : Mem) (a : Nat) : Nat → Nat
  | 0 => 0
  | n + 1 => (m a).toNat + 256 * m.load (a + 1) n

/-- Write the low `n` bytes of `v`. -/
def store (m : Mem) (a n v : Nat) : Mem := m.fill a n fun j => UInt8.ofNat (v / 256 ^ j)

theorem load_lt (m : Mem) (n : Nat) : ∀ a, m.load a n < 256 ^ n := by
  induction n with
  | zero => intro a; simp [load]
  | succ n ih =>
      intro a
      have hb : (m a).toNat < 256 := (m a).toNat_lt
      have hr := ih (a + 1)
      rw [load, Nat.pow_succ]
      omega

theorem load_congr {m m' : Mem} (n : Nat) :
    ∀ a, (∀ i, a ≤ i → i < a + n → m' i = m i) → m'.load a n = m.load a n := by
  induction n with
  | zero => intro a _; rfl
  | succ n ih =>
      intro a h
      rw [load, load, h a (Nat.le_refl a) (by omega),
        ih (a + 1) fun i h₁ h₂ => h i (by omega) (by omega)]

/-- Equal bytes at two addresses make equal words. -/
theorem load_eq_of_bytes {m m' : Mem} (n : Nat) :
    ∀ a b, (∀ j < n, m' (a + j) = m (b + j)) → m'.load a n = m.load b n := by
  induction n with
  | zero => intro a b _; rfl
  | succ n ih =>
      intro a b h
      have hrest : ∀ j < n, m' (a + 1 + j) = m (b + 1 + j) := by
        intro j hj
        rw [Nat.add_assoc, Nat.add_assoc, Nat.add_comm 1 j]
        exact h (j + 1) (Nat.succ_lt_succ hj)
      have hfirst : m' a = m b := h 0 (Nat.succ_pos n)
      rw [load, load, hfirst, ih (a + 1) (b + 1) hrest]

theorem memmove_at (m : Mem) (dst src : Nat) {n j : Nat} (h : j < n) :
    m.memmove dst src n (dst + j) = m (src + j) := by
  rw [memmove, fill_inside m _ (by omega) (by omega), Nat.add_sub_cancel_left]

theorem load_fill_of_disjoint (m : Mem) {a b n k : Nat} (f : Nat → UInt8)
    (h : a + n ≤ b ∨ b + k ≤ a) : (m.fill b k f).load a n = m.load a n :=
  load_congr n a fun i h₁ h₂ => fill_outside m f (by omega)

theorem load_store_of_disjoint (m : Mem) {a b n k v : Nat} (h : a + n ≤ b ∨ b + k ≤ a) :
    (m.store b k v).load a n = m.load a n :=
  load_fill_of_disjoint m _ h

/-- Reading inside a filled range reads the filler. -/
theorem load_fill_inside (m : Mem) {b k : Nat} (f : Nat → UInt8) (n : Nat) :
    ∀ a, b ≤ a → a + n ≤ b + k → (m.fill b k f).load a n = load (fun i => f (i - b)) a n :=
  fun a h₁ h₂ => load_congr n a fun i hi₁ hi₂ => fill_inside m f (by omega) (by omega)

theorem load_of_zero {m : Mem} (n : Nat) : ∀ a, (∀ i, a ≤ i → i < a + n → m i = 0) →
    m.load a n = 0 := by
  induction n with
  | zero => intro a _; rfl
  | succ n ih =>
      intro a hzero
      rw [load, hzero a (Nat.le_refl a) (by omega),
        ih (a + 1) fun i h₁ h₂ => hzero i (by omega) (by omega)]
      rfl

theorem load_digits (v : Nat) (n : Nat) :
    ∀ a b, b ≤ a → load (fun i => UInt8.ofNat (v / 256 ^ (i - b))) a n
      = v / 256 ^ (a - b) % 256 ^ n := by
  induction n with
  | zero => intro a b _; simp [load, Nat.mod_one]
  | succ n ih =>
      intro a b hab
      -- one byte on means one digit less
      have hsplit : v / 256 ^ (a + 1 - b) = v / 256 ^ (a - b) / 256 := by
        rw [Nat.sub_add_comm hab, Nat.pow_succ, Nat.div_div_eq_div_mul]
      -- the byte itself is the lowest digit
      have hlow : (UInt8.ofNat (v / 256 ^ (a - b))).toNat = v / 256 ^ (a - b) % 256 :=
        UInt8.toNat_ofNat'
      rw [load, ih (a + 1) b (by omega), hsplit, hlow, Nat.pow_succ',
        Nat.mod_mul]

/-- **A stored word reads back**, modulo its size. -/
theorem load_store_same (m : Mem) (a n v : Nat) : (m.store a n v).load a n = v % 256 ^ n := by
  rw [store, load_fill_inside m _ n a (Nat.le_refl a) (Nat.le_refl _),
    load_digits v n a a (Nat.le_refl a), Nat.sub_self, Nat.pow_zero, Nat.div_one]

theorem bytes_congr {m m' : Mem} (n : Nat) :
    ∀ a, (∀ i, a ≤ i → i < a + n → m' i = m i) → m'.bytes a n = m.bytes a n := by
  induction n with
  | zero => intro a _; rfl
  | succ n ih =>
      intro a h
      rw [bytes, bytes, h a (Nat.le_refl a) (by omega),
        ih (a + 1) fun i h₁ h₂ => h i (by omega) (by omega)]

theorem bytes_eq_map (m : Mem) (n : Nat) :
    ∀ a, m.bytes a n = (List.range n).map fun i => m (a + i) := by
  induction n with
  | zero => intro a; rfl
  | succ n ih =>
      intro a
      rw [bytes, ih (a + 1), List.range_succ_eq_map, List.map_cons, List.map_map]
      refine congrArg₂ _ rfl (List.map_congr_left fun i _ => ?_)
      rw [Function.comp_apply, Nat.add_assoc, Nat.add_comm 1 i]

/-- A filled range reads back. -/
theorem bytes_fill_same (m : Mem) (a n : Nat) (f : Nat → UInt8) :
    (m.fill a n f).bytes a n = (List.range n).map f := by
  rw [bytes_eq_map]
  refine List.map_congr_left fun i hi => ?_
  rw [fill_inside m f (Nat.le_add_right _ _) (Nat.add_lt_add_left (List.mem_range.mp hi) _),
    Nat.add_sub_cancel_left]

/-! ## §3. Machine words. -/

def load8 (m : Mem) (a : Nat) : UInt8 := m a

def load16 (m : Mem) (a : Nat) : UInt16 := UInt16.ofNat (m.load a 2)

def store8 (m : Mem) (a : Nat) (v : UInt8) : Mem := m.store a 1 v.toNat

def store16 (m : Mem) (a : Nat) (v : UInt16) : Mem := m.store a 2 v.toNat

def store32 (m : Mem) (a : Nat) (v : UInt32) : Mem := m.store a 4 v.toNat

theorem load_one (m : Mem) (a : Nat) : m.load a 1 = (m.load8 a).toNat := by
  simp [load, load8]

theorem load16_toNat (m : Mem) (a : Nat) : (m.load16 a).toNat = m.load a 2 := by
  have := load_lt m 2 a
  rw [load16, UInt16.toNat_ofNat']
  exact Nat.mod_eq_of_lt this

@[simp] theorem load8_store8_same (m : Mem) (a : Nat) (v : UInt8) :
    (m.store8 a v).load8 a = v := by
  rw [← UInt8.toNat_inj, ← load_one, store8, load_store_same]
  exact Nat.mod_eq_of_lt v.toNat_lt

@[simp] theorem load16_store16_same (m : Mem) (a : Nat) (v : UInt16) :
    (m.store16 a v).load16 a = v := by
  rw [← UInt16.toNat_inj, load16_toNat, store16, load_store_same]
  exact Nat.mod_eq_of_lt v.toNat_lt

section Disjoint

variable (m : Mem) {a b n : Nat}

theorem load8_store8_of_disjoint (v : UInt8) (h : a + 1 ≤ b ∨ b + 1 ≤ a) :
    (m.store8 b v).load8 a = m.load8 a := by
  rw [load8, store8, store, fill_outside m _ (by omega), load8]

theorem load8_store16_of_disjoint (v : UInt16) (h : a + 1 ≤ b ∨ b + 2 ≤ a) :
    (m.store16 b v).load8 a = m.load8 a := by
  rw [load8, store16, store, fill_outside m _ (by omega), load8]

theorem load16_store8_of_disjoint (v : UInt8) (h : a + 2 ≤ b ∨ b + 1 ≤ a) :
    (m.store8 b v).load16 a = m.load16 a := by
  rw [load16, load16, store8, load_store_of_disjoint m h]

theorem load16_store16_of_disjoint (v : UInt16) (h : a + 2 ≤ b ∨ b + 2 ≤ a) :
    (m.store16 b v).load16 a = m.load16 a := by
  rw [load16, load16, store16, load_store_of_disjoint m h]

theorem load16_store32_of_disjoint (v : UInt32) (h : a + 2 ≤ b ∨ b + 4 ≤ a) :
    (m.store32 b v).load16 a = m.load16 a := by
  rw [load16, load16, store32, load_store_of_disjoint m h]

theorem load8_memset_zero (h₁ : b ≤ a) (h₂ : a + 1 ≤ b + n) : (m.memset b 0 n).load8 a = 0 := by
  rw [load8, memset, fill_inside m _ h₁ (by omega)]

end Disjoint

theorem store16_outside (m : Mem) {a i : Nat} (v : UInt16) (h : i < a ∨ a + 2 ≤ i) :
    m.store16 a v i = m i := by
  rw [store16, store, fill_outside m _ h]

theorem store32_outside (m : Mem) {a i : Nat} (v : UInt32) (h : i < a ∨ a + 4 ≤ i) :
    m.store32 a v i = m i := by
  rw [store32, store, fill_outside m _ h]

theorem ofNat_load_store32_same (m : Mem) (a : Nat) (v : UInt32) :
    UInt32.ofNat ((m.store32 a v).load a 4) = v := by
  rw [store32, load_store_same]
  exact (congrArg UInt32.ofNat (Nat.mod_eq_of_lt v.toNat_lt)).trans UInt32.ofNat_toNat

/-- The digits of a loaded number are the bytes. -/
theorem ofNat_load_div (m : Mem) (n : Nat) : ∀ a j, j < n →
    UInt8.ofNat (m.load a n / 256 ^ j) = m (a + j) := by
  induction n with
  | zero => intro a j h; cases h
  | succ n ih =>
      intro a j hj
      have hb : (m a).toNat < 256 := (m a).toNat_lt
      cases j with
      | zero =>
          show UInt8.ofNat (m.load a (n + 1) / 256 ^ 0) = m a
          rw [← UInt8.toNat_inj, UInt8.toNat_ofNat', load, Nat.pow_zero, Nat.div_one]
          omega
      | succ j =>
          -- the lowest byte is shifted out
          have hshift : m.load a (n + 1) / 256 ^ (j + 1) = m.load (a + 1) n / 256 ^ j := by
            rw [load, Nat.pow_succ', ← Nat.div_div_eq_div_mul, Nat.add_mul_div_left _ _ (by decide),
              Nat.div_eq_of_lt hb, Nat.zero_add]
          rw [hshift, ih (a + 1) j (Nat.lt_of_succ_lt_succ hj), Nat.add_assoc, Nat.add_comm 1 j]

/-- Writing the number that is there changes nothing. -/
theorem store_load_self (m : Mem) (a n : Nat) : m.store a n (m.load a n) = m := by
  funext i
  by_cases h : a ≤ i ∧ i < a + n
  · rw [store, fill_inside m _ h.1 h.2, ofNat_load_div m n a (i - a) (by omega),
      Nat.add_sub_cancel' h.1]
  · exact fill_outside m _ (by omega)

theorem fill_fill_same (m : Mem) (a n : Nat) (f g : Nat → UInt8) :
    (m.fill a n f).fill a n g = m.fill a n g := by
  funext i
  by_cases h : a ≤ i ∧ i < a + n
  · rw [fill_inside _ _ h.1 h.2, fill_inside _ _ h.1 h.2]
  · rw [fill_outside _ _ (by omega), fill_outside _ _ (by omega), fill_outside _ _ (by omega)]

theorem store16_store16_same (m : Mem) (a : Nat) (v w : UInt16) :
    (m.store16 a v).store16 a w = m.store16 a w := by
  rw [store16, store16, store16, store, store, store, fill_fill_same]

theorem store16_eq_self_iff (m : Mem) (a : Nat) (v : UInt16) :
    m.store16 a v = m ↔ m.load16 a = v := by
  constructor
  · intro h
    have hload := load16_store16_same m a v
    rwa [h] at hload
  · rintro rfl
    rw [store16, load16_toNat, store_load_self]

/-- A word determines its bytes. -/
theorem eq_of_load16_eq {m m' : Mem} {a i : Nat} (h : m'.load16 a = m.load16 a) (h₁ : a ≤ i)
    (h₂ : i < a + 2) : m' i = m i := by
  have hm : m.store16 a (m'.load16 a) = m := (store16_eq_self_iff m a _).mpr h.symm
  have hm' : m'.store16 a (m'.load16 a) = m' := (store16_eq_self_iff m' a _).mpr rfl
  calc m' i = (m'.store16 a (m'.load16 a)) i := by rw [hm']
    _ = (m.store16 a (m'.load16 a)) i := by
        rw [store16, store16, store, store, fill_inside _ _ h₁ h₂, fill_inside _ _ h₁ h₂]
    _ = m i := by rw [hm]

theorem store32_eq_self_iff (m : Mem) (a : Nat) (v : UInt32) :
    m.store32 a v = m ↔ UInt32.ofNat (m.load a 4) = v := by
  constructor
  · intro h
    have hload := ofNat_load_store32_same m a v
    rwa [h] at hload
  · rintro rfl
    have hlt : m.load a 4 < 2 ^ 32 := load_lt m 4 a
    rw [store32, UInt32.toNat_ofNat', Nat.mod_eq_of_lt hlt, store_load_self]

/-! ## §4. Frames. -/

/-- `m'` differs from `m` at most inside `[lo, hi)`. -/
def SameOff (lo hi : Nat) (m m' : Mem) : Prop := ∀ i, i < lo ∨ hi ≤ i → m' i = m i

theorem SameOff.refl (lo hi : Nat) (m : Mem) : SameOff lo hi m m := fun _ _ => rfl

theorem SameOff.trans {lo hi : Nat} {m₁ m₂ m₃ : Mem} (h₁ : SameOff lo hi m₁ m₂)
    (h₂ : SameOff lo hi m₂ m₃) : SameOff lo hi m₁ m₃ :=
  fun i hi => (h₂ i hi).trans (h₁ i hi)

theorem SameOff.mono {lo hi lo' hi' : Nat} {m m' : Mem} (h : SameOff lo hi m m')
    (hlo : lo' ≤ lo) (hhi : hi ≤ hi') : SameOff lo' hi' m m' :=
  fun i hi => h i (by omega)

theorem sameOff_fill (m : Mem) {a n lo hi : Nat} (f : Nat → UInt8) (h₁ : lo ≤ a)
    (h₂ : a + n ≤ hi) : SameOff lo hi m (m.fill a n f) :=
  fun i hi => fill_outside m f (by omega)

theorem sameOff_store (m : Mem) (a n v : Nat) : SameOff a (a + n) m (m.store a n v) :=
  sameOff_fill m _ (Nat.le_refl _) (Nat.le_refl _)

section Extend

variable {lo hi a n : Nat} {m m' : Mem} (h : SameOff lo hi m m') (h₁ : lo ≤ a)

include h h₁

/-- A further write inside the range. -/
theorem SameOff.fill (f : Nat → UInt8) (h₂ : a + n ≤ hi) : SameOff lo hi m (m'.fill a n f) :=
  h.trans (sameOff_fill m' f h₁ h₂)

theorem SameOff.memset (v : UInt8) (h₂ : a + n ≤ hi) : SameOff lo hi m (m'.memset a v n) :=
  h.fill h₁ _ h₂

theorem SameOff.memmove {src : Nat} (h₂ : a + n ≤ hi) : SameOff lo hi m (m'.memmove a src n) :=
  h.fill h₁ _ h₂

theorem SameOff.store (v : Nat) (h₂ : a + n ≤ hi) : SameOff lo hi m (m'.store a n v) :=
  h.fill h₁ _ h₂

theorem SameOff.store8 (v : UInt8) (h₂ : a + 1 ≤ hi) : SameOff lo hi m (m'.store8 a v) :=
  h.store h₁ _ h₂

theorem SameOff.store32 (v : UInt32) (h₂ : a + 4 ≤ hi) : SameOff lo hi m (m'.store32 a v) :=
  h.store h₁ _ h₂

theorem SameOff.store16 (v : UInt16) (h₂ : a + 2 ≤ hi) : SameOff lo hi m (m'.store16 a v) :=
  h.store h₁ _ h₂

end Extend

theorem SameOff.load {lo hi a n : Nat} {m m' : Mem} (h : SameOff lo hi m m')
    (hd : a + n ≤ lo ∨ hi ≤ a) : m'.load a n = m.load a n :=
  load_congr n a fun i h₁ h₂ => h i (by omega)

theorem SameOff.load8 {lo hi a : Nat} {m m' : Mem} (h : SameOff lo hi m m')
    (hd : a + 1 ≤ lo ∨ hi ≤ a) : m'.load8 a = m.load8 a := h a (by omega)

theorem SameOff.load16 {lo hi a : Nat} {m m' : Mem} (h : SameOff lo hi m m')
    (hd : a + 2 ≤ lo ∨ hi ≤ a) : m'.load16 a = m.load16 a := by
  rw [Mem.load16, Mem.load16, h.load hd]

end Mem

end PreSeQL.Lib
