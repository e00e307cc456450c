/-
  PreSeQL.Algorithm.Crc — the checksum of the two file headers (`crc.c`).

  The table entry of an index is eight conditional shift-and-xor steps; a message
  byte is folded in by one table lookup.  `crc32_initialized` only caches the table.
-/
import Mathlib.Logic.Function.Iterate
import Mathlib.Tactic.Common

namespace PreSeQL.Crc

/-- The ZIP polynomial, reflected. -/
def polynomial : UInt32 := 0xEDB88320

/-- One step of the inner loop of `init_crc32_table`. -/
def crc32_step (c : UInt32) : UInt32 :=
  if c &&& 1 ≠ 0 then polynomial ^^^ (c >>> 1) else c >>> 1

/-- `crc32_table[i]` as `init_crc32_table` fills it. -/
def crc32_table (i : UInt32) : UInt32 := crc32_step^[8] i

/-- The loop body of `calculate_crc32`. -/
def crc32_byte (crc : UInt32) (b : UInt8) : UInt32 :=
  crc32_table ((crc ^^^ b.toUInt32) &&& 0xFF) ^^^ (crc >>> 8)

def calculate_crc32 (data : List UInt8) : UInt32 :=
  ~~~(data.foldl crc32_byte 0xFFFFFFFF)

/-- The check value of CRC-32 on the ASCII digits 1 to 9. -/
example : calculate_crc32 [49, 50, 51, 52, 53, 54, 55, 56, 57] = 0xCBF43926 := by
  decide +kernel

end PreSeQL.Crc
