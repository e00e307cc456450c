/-
  PreSeQL.Algorithm.CrcBits — the checksum as the code of a bit string.

  The definition of the reflected CRC-32 takes the message bit by bit, the least
  significant bit of each byte first; `crc.c` takes it byte by byte through a table.
  Both are a shift register of 32 places:

    • `crc32_byte_eq` — one table lookup is eight bits,
    • `crc32_eq_bitwise` — the table-driven checksum is the definition,
    • `crc32_burst_ne` — a change within four consecutive bytes changes the checksum.
-/
import PreSeQL.Algorithm.Crc
import PreSeQL.Lib.ShiftRegister

namespace PreSeQL.Crc

open PreSeQL.Lib

/-! ## §1. The definition. -/

/-- The bits of a byte, least significant first. -/
def byte_bits (b : UInt8) : List Bool := (List.range 8).map b.toBitVec.getLsbD

def message_bits (data : List UInt8) : List Bool := data.flatMap byte_bits

/-- One message bit: the register is shifted, and the polynomial taken in when the bit
that falls out differs from the message bit. -/
def crc32_bit (crc : UInt32) (bit : Bool) : UInt32 :=
  if (decide (crc &&& 1 ≠ 0) ^^ bit) = true then (0xEDB88320 : UInt32) ^^^ (crc >>> 1)
  else crc >>> 1

def bitwise_crc32 (data : List UInt8) : UInt32 :=
  ~~~((message_bits data).foldl crc32_bit 0xFFFFFFFF)

/-! ## §2. Both are one shift register. -/

/-- The polynomial as the register takes it. -/
abbrev register_polynomial : BitVec 32 := polynomial.toBitVec

theorem register_polynomial_top : register_polynomial.getLsbD (32 - 1) = true := rfl

theorem low_bit_iff (crc : UInt32) : crc &&& 1 ≠ 0 ↔ crc.toBitVec.getLsbD 0 = true := by
  have hmask : (crc &&& 1).toBitVec = crc.toBitVec &&& 1#32 := rfl
  rw [← UInt32.toBitVec_inj.ne, hmask, BitVec.and_one_eq_setWidth_ofBool_getLsbD]
  cases crc.toBitVec.getLsbD 0 <;> decide

theorem crc32_step_toBitVec (c : UInt32) :
    (crc32_step c).toBitVec = ShiftRegister.step register_polynomial c.toBitVec := by
  unfold crc32_step ShiftRegister.step
  by_cases h : c &&& 1 ≠ 0
  · rw [if_pos h, if_pos ((low_bit_iff c).mp h)]
    rfl
  · rw [if_neg h, if_neg fun hbit => h ((low_bit_iff c).mpr hbit)]
    rfl

theorem crc32_steps_toBitVec (n : Nat) :
    ∀ c : UInt32, (crc32_step^[n] c).toBitVec
      = (ShiftRegister.step register_polynomial)^[n] c.toBitVec := by
  induction n with
  | zero => intro c; rfl
  | succ n ih =>
      intro c
      rw [Function.iterate_succ_apply, Function.iterate_succ_apply, ih, crc32_step_toBitVec]

theorem crc32_bit_toBitVec (crc : UInt32) (bit : Bool) :
    (crc32_bit crc bit).toBitVec
      = ShiftRegister.feed register_polynomial crc.toBitVec bit := by
  have hlow : (crc.toBitVec ^^^ ShiftRegister.place bit).getLsbD 0
      = (decide (crc &&& 1 ≠ 0) ^^ bit) := by
    have hout : decide (crc &&& 1 ≠ 0) = crc.toBitVec.getLsbD 0 := by
      rw [Bool.eq_iff_iff, decide_eq_true_iff]
      exact low_bit_iff crc
    rw [BitVec.getLsbD_xor, ShiftRegister.getLsbD_place bit 0 (by decide), hout]
    simp
  have hmove : (crc.toBitVec ^^^ ShiftRegister.place bit) >>> 1 = crc.toBitVec >>> 1 := by
    apply BitVec.eq_of_getLsbD_eq
    intro i hi
    rw [BitVec.getLsbD_ushiftRight, BitVec.getLsbD_ushiftRight, BitVec.getLsbD_xor]
    by_cases hfit : 1 + i < 32
    · simp [ShiftRegister.getLsbD_place bit (1 + i) hfit]
    · simp [BitVec.getLsbD_of_ge _ (1 + i) (show 32 ≤ 1 + i by omega)]
  unfold ShiftRegister.feed ShiftRegister.step crc32_bit
  rw [hlow, hmove]
  split <;> rfl

/-- A byte in the lowest places of the register. -/
theorem word_byte_bits (b : UInt8) :
    (ShiftRegister.word (byte_bits b) : BitVec 32) = b.toUInt32.toBitVec := by
  apply BitVec.eq_of_getLsbD_eq
  intro i hi
  have hext : b.toUInt32.toBitVec = b.toBitVec.setWidth 32 := rfl
  rw [ShiftRegister.getLsbD_word _ i hi, hext, BitVec.getLsbD_setWidth]
  by_cases hbyte : i < 8
  · simp [byte_bits, hbyte, hi]
  · simp [byte_bits, hbyte, BitVec.getLsbD_of_ge b.toBitVec i (show 8 ≤ i by omega)]

@[simp] theorem length_byte_bits (b : UInt8) : (byte_bits b).length = 8 := rfl

theorem crc32_bits_toBitVec (bits : List Bool) :
    ∀ crc : UInt32, (bits.foldl crc32_bit crc).toBitVec
      = bits.foldl (ShiftRegister.feed register_polynomial) crc.toBitVec := by
  induction bits with
  | nil => intro crc; rfl
  | cons bit bits ih =>
      intro crc
      rw [List.foldl_cons, List.foldl_cons, ih, crc32_bit_toBitVec]

/-- The table holds eight steps of the low byte; the other three bytes only move down. -/
theorem crc32_byte_toBitVec (crc : UInt32) (b : UInt8) :
    (crc32_byte crc b).toBitVec
      = (ShiftRegister.step register_polynomial)^[8] (crc.toBitVec ^^^ b.toUInt32.toBitVec) := by
  have hlow : ∀ i, ((crc ^^^ b.toUInt32) &&& 0xFF).toBitVec.getLsbD i
      = (decide (i < 8) && (crc ^^^ b.toUInt32).toBitVec.getLsbD i) := by
    intro i
    have hmask : (0xFF : UInt32).toBitVec = (BitVec.allOnes 8).setWidth 32 := rfl
    rw [UInt32.toBitVec_and, hmask, BitVec.getLsbD_and, BitVec.getLsbD_setWidth,
      BitVec.getLsbD_allOnes]
    by_cases hbyte : i < 8
    · simp [hbyte, show i < 32 by omega]
    · simp [hbyte]
  have hmove : (crc.toBitVec ^^^ b.toUInt32.toBitVec) >>> 8 = crc.toBitVec >>> 8 := by
    have hext : b.toUInt32.toBitVec = b.toBitVec.setWidth 32 := rfl
    apply BitVec.eq_of_getLsbD_eq
    intro i _
    rw [hext, BitVec.getLsbD_ushiftRight, BitVec.getLsbD_ushiftRight, BitVec.getLsbD_xor,
      BitVec.getLsbD_setWidth, BitVec.getLsbD_of_ge b.toBitVec (8 + i) (Nat.le_add_right 8 i),
      Bool.and_false, Bool.xor_false]
  have hsplit := ShiftRegister.step_iterate_low register_polynomial 8 hlow
  rw [UInt32.toBitVec_xor] at hsplit
  rw [hsplit, hmove, ← UInt32.toBitVec_xor, ← crc32_steps_toBitVec]
  rfl

/-- **One table lookup is eight bits.** -/
theorem crc32_byte_eq (crc : UInt32) (b : UInt8) :
    crc32_byte crc b = (byte_bits b).foldl crc32_bit crc := by
  apply UInt32.toBitVec_inj.mp
  rw [crc32_bits_toBitVec, ShiftRegister.feed_eq_step_iterate _ _ _ (by simp), word_byte_bits,
    crc32_byte_toBitVec]
  rfl

theorem crc32_bytes_eq (data : List UInt8) :
    ∀ crc : UInt32, data.foldl crc32_byte crc = (message_bits data).foldl crc32_bit crc := by
  induction data with
  | nil => intro crc; rfl
  | cons b data ih =>
      intro crc
      rw [List.foldl_cons, ih, crc32_byte_eq, ← List.foldl_append]
      rfl

/-- **The table-driven checksum is the definition.** -/
theorem crc32_eq_bitwise (data : List UInt8) : calculate_crc32 data = bitwise_crc32 data := by
  unfold calculate_crc32 bitwise_crc32
  rw [crc32_bytes_eq]

/-! ## §3. Bursts. -/

/-- The strings differ, and only within four consecutive bytes. -/
structure Burst (xs ys : List UInt8) : Prop where
  length_eq : xs.length = ys.length
  ne : xs ≠ ys
  window : ∃ k, ∀ i, i < k ∨ k + 4 ≤ i → xs[i]? = ys[i]?

theorem byte_bits_injective {b c : UInt8} (h : byte_bits b = byte_bits c) : b = c := by
  have hword : b.toUInt32 = c.toUInt32 := by
    rw [← UInt32.toBitVec_inj, ← word_byte_bits, ← word_byte_bits, h]
  have hnat := congrArg UInt32.toNat hword
  rw [UInt8.toNat_toUInt32, UInt8.toNat_toUInt32] at hnat
  exact UInt8.toNat_inj.mp hnat

theorem length_message_bits (data : List UInt8) :
    (message_bits data).length = 8 * data.length := by
  induction data with
  | nil => rfl
  | cons b data ih =>
      show (byte_bits b ++ message_bits data).length = _
      rw [List.length_append, ih, length_byte_bits, List.length_cons]
      omega

theorem message_bits_injective (xs : List UInt8) :
    ∀ ys : List UInt8, message_bits xs = message_bits ys → xs = ys := by
  induction xs with
  | nil =>
      intro ys h
      cases ys with
      | nil => rfl
      | cons c ys => simp [message_bits, byte_bits] at h
  | cons b xs ih =>
      intro ys h
      cases ys with
      | nil => simp [message_bits, byte_bits] at h
      | cons c ys =>
          have happ : byte_bits b ++ message_bits xs = byte_bits c ++ message_bits ys := h
          obtain ⟨hbyte, hrest⟩ := List.append_inj happ (by simp)
          rw [byte_bits_injective hbyte, ih ys hrest]

/-- A burst, cut out of the two strings. -/
theorem Burst.cut {xs ys : List UInt8} (h : Burst xs ys) :
    ∃ pre us vs post, xs = pre ++ us ++ post ∧ ys = pre ++ vs ++ post
      ∧ us.length = vs.length ∧ us.length ≤ 4 ∧ us ≠ vs := by
  obtain ⟨hlen, hne, k, hsame⟩ := h
  have hpre : xs.take k = ys.take k := by
    apply List.ext_getElem?
    intro i
    by_cases hi : i < k
    · rw [List.getElem?_take_of_lt hi, List.getElem?_take_of_lt hi, hsame i (Or.inl hi)]
    · rw [List.getElem?_take, List.getElem?_take, if_neg hi, if_neg hi]
  have hpost : xs.drop (k + 4) = ys.drop (k + 4) := by
    apply List.ext_getElem?
    intro i
    rw [List.getElem?_drop, List.getElem?_drop]
    exact hsame _ (Or.inr (Nat.le_add_right _ _))
  have hcut : ∀ zs : List UInt8, zs = zs.take k ++ (zs.drop k).take 4 ++ zs.drop (k + 4) := by
    intro zs
    rw [List.append_assoc, ← List.drop_drop, List.take_append_drop, List.take_append_drop]
  refine ⟨xs.take k, (xs.drop k).take 4, (ys.drop k).take 4, xs.drop (k + 4), hcut xs, ?_,
    by simp [hlen], List.length_take_le 4 _, ?_⟩
  · rw [hpre, hpost]
    exact hcut ys
  · intro hmid
    apply hne
    rw [hcut xs, hcut ys, hpre, hmid, hpost]

/-- **A change within four consecutive bytes changes the checksum.** -/
theorem crc32_burst_ne {xs ys : List UInt8} (h : Burst xs ys) :
    calculate_crc32 xs ≠ calculate_crc32 ys := by
  obtain ⟨pre, us, vs, post, rfl, rfl, hlen, hfour, hne⟩ := h.cut
  have hbits : message_bits us ≠ message_bits vs := fun heq =>
    hne (message_bits_injective us vs heq)
  intro hcrc
  unfold calculate_crc32 at hcrc
  have hfold := congrArg UInt32.toBitVec (UInt32.not_inj.mp hcrc)
  rw [crc32_bytes_eq, crc32_bytes_eq, crc32_bits_toBitVec, crc32_bits_toBitVec] at hfold
  simp only [message_bits, List.flatMap_append] at hfold
  refine ShiftRegister.feed_window_ne register_polynomial_top ?_ ?_ hbits _ _ _ hfold
  · rw [length_message_bits, length_message_bits, hlen]
  · rw [length_message_bits]
    omega

end PreSeQL.Crc
