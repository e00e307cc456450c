/-
  PreSeQL.Index.KeyOrder — the order of integer keys (`encode_int_key`, `compare_keys`).

  As unsigned words the encoded keys are in the order of the integers.  The machine
  lays the lowest byte of a word first, and `memcmp` decides by the first byte that
  differs.

    • `encode_int_key_lt_iff` — the order of the words,
    • `compare_first` — what decides a comparison,
    • `compare_digits_iff` — when the lowest differing byte decides it the right way,
    • `sorts_as_integers_iff` — for which integers that is so.
-/
import PreSeQL.Index.Page
import Mathlib.Tactic.IntervalCases

namespace PreSeQL.Index

open PreSeQL.Lib PreSeQL.Lib.Mem

/-! ## §1. The encoded words. -/

theorem xor_top_bit {w : Nat} (h : w < 2 ^ 64) : w ^^^ 2 ^ 63 = (w + 2 ^ 63) % 2 ^ 64 := by
  have hlow : (w ^^^ 2 ^ 63) % 2 ^ 63 = w % 2 ^ 63 := by
    rw [Nat.xor_mod_two_pow, Nat.mod_self, Nat.xor_zero]
  have hhigh : (w ^^^ 2 ^ 63) / 2 ^ 63 = w / 2 ^ 63 ^^^ 1 := by
    rw [Nat.xor_div_two_pow, Nat.div_self (Nat.two_pow_pos 63)]
  -- the top bit is flipped, the others stay
  have hbit : w / 2 ^ 63 = 0 ∨ w / 2 ^ 63 = 1 := by omega
  cases hbit with
  | inl hzero =>
      rw [hzero, Nat.zero_xor] at hhigh
      omega
  | inr hone =>
      rw [hone, Nat.xor_self] at hhigh
      omega

theorem encode_int_key_toNat (value : Int64) :
    (encode_int_key value).toNat = (value.toUInt64.toNat + 2 ^ 63) % 2 ^ 64 := by
  rw [encode_int_key, UInt64.toNat_xor]
  exact xor_top_bit value.toUInt64.toNat_lt

theorem toInt_eq (value : Int64) :
    value.toInt = if 2 * value.toUInt64.toNat < 2 ^ 64 then (value.toUInt64.toNat : Int)
      else value.toUInt64.toNat - 2 ^ 64 :=
  BitVec.toInt_eq_toNat_cond value.toBitVec

/-- The encoding moves the integers up by 2^63. -/
theorem encode_int_key_offset (value : Int64) :
    ((encode_int_key value).toNat : Int) = value.toInt + 2 ^ 63 := by
  have hlt := value.toUInt64.toNat_lt
  rw [encode_int_key_toNat, toInt_eq]
  split
  all_goals omega

/-- **As words the keys are in order.** -/
theorem encode_int_key_lt_iff (a b : Int64) :
    (encode_int_key a).toNat < (encode_int_key b).toNat ↔ a < b := by
  have ha := encode_int_key_offset a
  have hb := encode_int_key_offset b
  rw [Int64.lt_iff_toInt_lt]
  omega

theorem encode_int_key_inj (a b : Int64) :
    (encode_int_key a).toNat = (encode_int_key b).toNat ↔ a = b := by
  have ha := encode_int_key_offset a
  have hb := encode_int_key_offset b
  rw [← Int64.toInt_inj]
  omega

/-! ## §2. The first difference decides. -/

theorem compare_self (key : List UInt8) : ∀ n, compare_keys key key n = 0 := by
  induction key with
  | nil => intro n; cases n <;> rfl
  | cons a key ih =>
      intro n
      cases n with
      | zero => rfl
      | succ n => rw [compare_keys, if_neg (UInt8.lt_irrefl a), if_neg (UInt8.lt_irrefl a), ih]

/-- Two keys that agree below `k` and differ there. -/
theorem compare_first {k : Nat} : ∀ {n : Nat} {f g : Nat → UInt8}, k < n →
    (∀ j < k, f j = g j) → f k ≠ g k →
    compare_keys ((List.range n).map f) ((List.range n).map g) n = if f k < g k then -1 else 1 := by
  induction k with
  | zero =>
      intro n f g hk _ hne
      obtain ⟨n, rfl⟩ := Nat.exists_eq_succ_of_ne_zero (Nat.ne_of_gt hk)
      rw [List.range_succ_eq_map, List.map_cons, List.map_cons, compare_keys]
      by_cases hlt : f 0 < g 0
      · rw [if_pos hlt, if_pos hlt]
      · have hgt : g 0 < f 0 := UInt8.lt_of_le_of_ne (UInt8.not_lt.mp hlt) hne.symm
        rw [if_neg hlt, if_pos hgt, if_neg hlt]
  | succ k ih =>
      intro n f g hk hsame hne
      obtain ⟨n, rfl⟩ := Nat.exists_eq_succ_of_ne_zero (Nat.ne_zero_of_lt hk)
      have hfirst : f 0 = g 0 := hsame 0 (Nat.succ_pos k)
      rw [List.range_succ_eq_map, List.map_cons, List.map_cons, compare_keys, hfirst,
        if_neg (UInt8.lt_irrefl _), if_neg (UInt8.lt_irrefl _), List.map_map, List.map_map]
      exact ih (Nat.lt_of_succ_lt_succ hk) (fun j hj => hsame (j + 1) (Nat.succ_lt_succ hj)) hne

/-! ## §3. Numbers, lowest byte first. -/

/-- Byte `j` of a number. -/
def digit (v j : Nat) : UInt8 := UInt8.ofNat (v / 256 ^ j)

theorem digit_toNat (v j : Nat) : (digit v j).toNat = v / 256 ^ j % 256 := UInt8.toNat_ofNat'

/-- The low bytes determine the number modulo their range. -/
theorem mod_eq_of_digits {u v : Nat} (k : Nat) (h : ∀ j < k, digit u j = digit v j) :
    u % 256 ^ k = v % 256 ^ k := by
  induction k with
  | zero => rw [Nat.pow_zero, Nat.mod_one, Nat.mod_one]
  | succ k ih =>
      have hdigit : u / 256 ^ k % 256 = v / 256 ^ k % 256 := by
        rw [← digit_toNat, ← digit_toNat, h k (Nat.lt_succ_self k)]
      rw [Nat.mod_pow_succ, Nat.mod_pow_succ, hdigit, ih fun j hj => h j (Nat.lt_succ_of_lt hj)]

theorem eq_of_digits {n u v : Nat} (hu : u < 256 ^ n) (hv : v < 256 ^ n)
    (h : ∀ j < n, digit u j = digit v j) : u = v := by
  have hmod := mod_eq_of_digits n h
  rwa [Nat.mod_eq_of_lt hu, Nat.mod_eq_of_lt hv] at hmod

/-- Numbers that differ have a lowest byte in which they do. -/
theorem first_difference {n u v : Nat} (hu : u < 256 ^ n) (hv : v < 256 ^ n) (hne : u ≠ v) :
    ∃ k < n, (∀ j < k, digit u j = digit v j) ∧ digit u k ≠ digit v k := by
  have hex : ∃ k, k < n ∧ digit u k ≠ digit v k := by
    by_contra hnone
    refine hne (eq_of_digits hu hv fun j hj => ?_)
    by_contra hdiff
    exact hnone ⟨j, hj, hdiff⟩
  obtain ⟨hlt, hdiff⟩ := Nat.find_spec hex
  refine ⟨Nat.find hex, hlt, fun j hj => ?_, hdiff⟩
  by_contra hdiff'
  exact Nat.find_min hex hj ⟨Nat.lt_trans hj hlt, hdiff'⟩

/-- A difference in the highest byte alone is one of the numbers. -/
theorem top_digit_lt_iff {n u v : Nat} (hu : u < 256 ^ (n + 1)) (hv : v < 256 ^ (n + 1))
    (hsame : ∀ j < n, digit u j = digit v j) : digit u n < digit v n ↔ u < v := by
  have hmod := mod_eq_of_digits n hsame
  have hu' : u / 256 ^ n < 256 := Nat.div_lt_of_lt_mul (by rwa [← Nat.pow_succ])
  have hv' : v / 256 ^ n < 256 := Nat.div_lt_of_lt_mul (by rwa [← Nat.pow_succ])
  rw [UInt8.lt_iff_toNat_lt, digit_toNat, digit_toNat, Nat.mod_eq_of_lt hu', Nat.mod_eq_of_lt hv']
  have hsplit := Nat.div_add_mod u (256 ^ n)
  have hsplit' := Nat.div_add_mod v (256 ^ n)
  constructor
  · intro hlt
    calc u < 256 ^ n * (u / 256 ^ n + 1) := Nat.lt_mul_div_succ u (Nat.pow_pos (by decide))
      _ ≤ 256 ^ n * (v / 256 ^ n) := Nat.mul_le_mul_left _ hlt
      _ ≤ v := Nat.mul_div_le v _
  · intro hlt
    by_contra hge
    have hle := Nat.mul_le_mul_left (256 ^ n) (Nat.not_lt.mp hge)
    omega

/-! ## §4. Comparing numbers by their bytes. -/

/-- The result of a comparison says how `x` and `y` lie. -/
def SignOf {α : Type} [LT α] (cmp : Int) (x y : α) : Prop :=
  (cmp < 0 ↔ x < y) ∧ (cmp = 0 ↔ x = y) ∧ (0 < cmp ↔ y < x)

/-- The lowest of the first `n` bytes in which two numbers differ orders them by `lt`. -/
def LowestDigitOrders (n u v : Nat) (lt : Prop) : Prop :=
  ∀ k < n, (∀ j < k, digit u j = digit v j) → digit u k ≠ digit v k →
    (digit u k < digit v k ↔ lt)

instance (n u v : Nat) (lt : Prop) [Decidable lt] : Decidable (LowestDigitOrders n u v lt) :=
  inferInstanceAs (Decidable (∀ k < n, (∀ j < k, digit u j = digit v j) →
    digit u k ≠ digit v k → (digit u k < digit v k ↔ lt)))

theorem compare_digits_iff {n u v : Nat} (hu : u < 256 ^ n) (hv : v < 256 ^ n) :
    SignOf (compare_keys ((List.range n).map (digit u)) ((List.range n).map (digit v)) n) u v
      ↔ LowestDigitOrders n u v (u < v) := by
  by_cases heq : u = v
  · subst heq
    refine iff_of_true ?_ fun k _ _ hdiff => absurd rfl hdiff
    rw [compare_self]
    exact ⟨by omega, by omega, by omega⟩
  · obtain ⟨k, hk, hsame, hdiff⟩ := first_difference hu hv heq
    rw [compare_first hk hsame hdiff]
    -- there is one lowest difference
    have hunique : LowestDigitOrders n u v (u < v) ↔ (digit u k < digit v k ↔ u < v) := by
      refine ⟨fun h => h k hk hsame hdiff, fun h k' hk' hsame' hdiff' => ?_⟩
      have hkk' : k' = k := by
        rcases Nat.lt_trichotomy k' k with hlt | heq' | hgt
        · exact absurd (hsame k' hlt) hdiff'
        · exact heq'
        · exact absurd (hsame' k hgt) hdiff
      rwa [hkk']
    rw [hunique, SignOf]
    split
    next hlt =>
      rw [iff_true_left hlt]
      omega
    next hnlt =>
      rw [iff_false_left hnlt]
      omega

/-- Of `n + 1` bytes the highest never misleads. -/
theorem lowestDigitOrders_succ {n u v : Nat} (hu : u < 256 ^ (n + 1)) (hv : v < 256 ^ (n + 1)) :
    LowestDigitOrders (n + 1) u v (u < v) ↔ LowestDigitOrders n u v (u < v) := by
  refine ⟨fun h k hk => h k (Nat.lt_succ_of_lt hk), fun h k hk hsame hdiff => ?_⟩
  rcases Nat.lt_succ_iff_lt_or_eq.mp hk with hlt | rfl
  · exact h k hlt hsame hdiff
  · exact top_digit_lt_iff hu hv hsame

/-! ## §5. Integer keys in index slots. -/

/-- The bytes of a 64-bit word in memory, lowest first. -/
def word_bytes (w : UInt64) : List UInt8 := (Mem.store (fun _ => 0) 0 8 w.toNat).bytes 0 8

theorem word_bytes_eq (w : UInt64) : word_bytes w = (List.range 8).map (digit w.toNat) :=
  bytes_fill_same _ 0 8 _

/-- An INT uses the first 8 bytes of the key. -/
def HoldsInt (key : Vector UInt8 MAX_DATA_PER_INDEX_SLOT) (value : Int64) : Prop :=
  key.toList.take 8 = word_bytes (encode_int_key value)

/-- The first 8 bytes of the keys compare as the integers do. -/
def SortsAsIntegers (a b : Int64) : Prop :=
  ∀ key1 key2, HoldsInt key1 a → HoldsInt key2 b →
    SignOf (compare_keys key1.toList key2.toList 8) a b

/-- The lowest byte in which the integers differ, if it is not the one with the sign, orders
them. -/
def LowestByteOrders (a b : Int64) : Prop :=
  LowestDigitOrders 7 a.toUInt64.toNat b.toUInt64.toNat (a < b)

instance (a b : Int64) : Decidable (LowestByteOrders a b) :=
  inferInstanceAs (Decidable (LowestDigitOrders 7 _ _ _))

theorem exists_holdsInt (value : Int64) : ∃ key, HoldsInt key value := by
  have hlen : (word_bytes (encode_int_key value)).length = 8 := by rw [word_bytes_eq]; rfl
  refine ⟨⟨(word_bytes (encode_int_key value) ++ List.replicate 8 0).toArray, ?_⟩, ?_⟩
  · rw [List.size_toArray, List.length_append, hlen, List.length_replicate]
    rfl
  · exact List.take_left' hlen

theorem compare_take (key1 : List UInt8) : ∀ key2 n,
    compare_keys (key1.take n) (key2.take n) n = compare_keys key1 key2 n := by
  induction key1 with
  | nil => intro key2 n; rw [List.take_nil]; rfl
  | cons a key1 ih =>
      intro key2 n
      cases n with
      | zero => cases key2 <;> rfl
      | succ n =>
          cases key2 with
          | nil => rfl
          | cons b key2 =>
              rw [List.take_succ_cons, List.take_succ_cons, compare_keys, compare_keys, ih]

/-- The sign bit is in the highest byte. -/
theorem digit_encode (value : Int64) {j : Nat} (h : j < 7) :
    digit (encode_int_key value).toNat j = digit value.toUInt64.toNat j := by
  rw [← UInt8.toNat_inj, digit_toNat, digit_toNat, encode_int_key_toNat]
  have hlt := value.toUInt64.toNat_lt
  interval_cases j <;> omega

/-- **Integer keys sort as integers** where the lowest differing byte says so. -/
theorem sorts_as_integers_iff (a b : Int64) : SortsAsIntegers a b ↔ LowestByteOrders a b := by
  have ha : (encode_int_key a).toNat < 256 ^ 8 := (encode_int_key a).toNat_lt
  have hb : (encode_int_key b).toNat < 256 ^ 8 := (encode_int_key b).toNat_lt
  have hwords : SortsAsIntegers a b ↔ SignOf (compare_keys
      ((List.range 8).map (digit (encode_int_key a).toNat))
      ((List.range 8).map (digit (encode_int_key b).toNat)) 8) a b := by
    constructor
    · intro h
      obtain ⟨key1, hkey1⟩ := exists_holdsInt a
      obtain ⟨key2, hkey2⟩ := exists_holdsInt b
      have hsign := h key1 key2 hkey1 hkey2
      rwa [← compare_take, hkey1, hkey2, word_bytes_eq, word_bytes_eq] at hsign
    · intro h key1 key2 hkey1 hkey2
      rwa [← compare_take, hkey1, hkey2, word_bytes_eq, word_bytes_eq]
  -- the words lie as the integers, and the bytes in front of the last are theirs
  have hsign := compare_digits_iff ha hb
  rw [lowestDigitOrders_succ ha hb] at hsign
  rw [hwords, LowestByteOrders]
  simp only [SignOf, encode_int_key_lt_iff, encode_int_key_inj] at hsign ⊢
  rw [hsign]
  refine forall_congr' fun k => forall_congr' fun hk => ?_
  have hsame : (∀ j < k, digit (encode_int_key a).toNat j = digit (encode_int_key b).toNat j)
      ↔ ∀ j < k, digit a.toUInt64.toNat j = digit b.toUInt64.toNat j :=
    forall_congr' fun j => forall_congr' fun hj => by
      rw [digit_encode a (Nat.lt_trans hj hk), digit_encode b (Nat.lt_trans hj hk)]
  rw [hsame, digit_encode a hk, digit_encode b hk]

example : LowestByteOrders 1 258 ∧ LowestByteOrders (-2) (-1) ∧ ¬ LowestByteOrders (-1) 0 := by
  decide

/-- 256 has a 0 in the lowest byte, 1 has not. -/
theorem one_sorts_above_256 : ¬ SortsAsIntegers 1 256 := by
  intro h
  obtain ⟨key1, hkey1⟩ := exists_holdsInt 1
  obtain ⟨key2, hkey2⟩ := exists_holdsInt 256
  have hless := (h key1 key2 hkey1 hkey2).1.mpr (by decide)
  rw [← compare_take, hkey1, hkey2] at hless
  exact absurd hless (by decide)

end PreSeQL.Index
