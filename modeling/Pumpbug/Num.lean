import Mathlib.Data.Rat.Floor

/-!
# Machine numbers

The fixed-width integers of the firmware.  Signed ones are the same words read with `toInt`.
Floating-point values are exact rationals, rounded only where a threshold turns on it (the pump's decay);
a `float` that may be NaN or infinite is an optional rational.  Counters that advance once per shot, tick
or reading are natural numbers; where the word of one comes round, the modules that compare it say so.
-/

namespace Pumpbug

abbrev U8 := BitVec 8
abbrev U16 := BitVec 16
abbrev U32 := BitVec 32
abbrev I16 := BitVec 16
abbrev I32 := BitVec 32

/-- The cast of an integer to `int16_t`. -/
def i16 (v : ℤ) : I16 := BitVec.ofInt 16 v

/-- The cast of an integer to `int32_t`. -/
def i32 (v : ℤ) : I32 := BitVec.ofInt 32 v

/-- The cast of a `float` to an integer type: towards zero. -/
def truncate (q : ℚ) : ℤ := if q < 0 then -⌊-q⌋ else ⌊q⌋

/-- `std::round` and `std::lround`: to the nearest integer, halves away from zero. -/
def round (q : ℚ) : ℤ := if q < 0 then -⌊-q + 1 / 2⌋ else ⌊q + 1 / 2⌋

theorem toInt_i16 {v : ℤ} (h : -32768 ≤ v) (h' : v ≤ 32767) : (i16 v).toInt = v := by
  unfold i16
  rw [BitVec.toInt_ofInt, Int.bmod_eq_of_le] <;> norm_num <;> omega

theorem i16_toInt (c : I16) : i16 c.toInt = c := BitVec.ofInt_toInt

theorem toInt_i32 {v : ℤ} (h : -2147483648 ≤ v) (h' : v ≤ 2147483647) : (i32 v).toInt = v := by
  unfold i32
  rw [BitVec.toInt_ofInt, Int.bmod_eq_of_le] <;> norm_num <;> omega

theorem toInt_bounds (c : I16) : -32768 ≤ c.toInt ∧ c.toInt ≤ 32767 := by
  have h₁ := BitVec.le_toInt c
  have h₂ := @BitVec.toInt_lt 16 c
  norm_num at h₁ h₂
  omega

end Pumpbug
