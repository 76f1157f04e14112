import Mathlib.Data.BitVec
import Mathlib.Tactic.Ring

/-!
# Wrapping counters

A clock that counts modulo `2 ^ w`.  `since b t` is the unsigned distance from `b` to `t`: the true
distance whenever less than one turn lies between the two readings.  The sign of `t - b` orders two
readings that are less than half a turn apart.
-/

namespace Lib.Clock

variable {w : ℕ}

/-- The reading of the counter `T` ticks after zero. -/
def reading (w T : ℕ) : BitVec w := BitVec.ofNat w T

/-- Unsigned distance from `b` to `t` along the counter. -/
def since (b t : BitVec w) : ℕ := (t - b).toNat

theorem since_lt (b t : BitVec w) : since b t < 2 ^ w := (t - b).isLt

@[simp] theorem since_self (b : BitVec w) : since b b = 0 := by
  unfold since; simp

/-- The difference of two readings is the reading of the difference. -/
theorem reading_sub {B T : ℕ} (h : B ≤ T) : reading w T - reading w B = reading w (T - B) := by
  unfold reading
  rw [BitVec.sub_eq_iff_eq_add, ← BitVec.ofNat_add, Nat.sub_add_cancel h]

/-- Within one turn the distance is the true one. -/
theorem since_reading {B T : ℕ} (h : B ≤ T) (hw : T - B < 2 ^ w) :
    since (reading w B) (reading w T) = T - B := by
  unfold since
  rw [reading_sub h, reading, BitVec.toNat_ofNat, Nat.mod_eq_of_lt hw]

/-- Distances add along the counter as long as they stay within one turn. -/
theorem since_add {b s t : BitVec w} (h : since b s + since s t < 2 ^ w) :
    since b t = since b s + since s t := by
  unfold since at *
  have e : t - b = (s - b) + (t - s) := by ring
  rw [e, BitVec.toNat_add, Nat.mod_eq_of_lt h]

/-- The distance between two readings is the difference of their distances from a third. -/
theorem since_of_le {b s t : BitVec w} (h : since b s ≤ since b t) :
    since s t = since b t - since b s := by
  unfold since at *
  have e : t - s = (t - b) - (s - b) := by ring
  rw [e, BitVec.toNat_sub_of_le h]

/-- The distance, by whether the counter wraps on the way. -/
theorem since_eq_ite (b t : BitVec w) :
    since b t = if b.toNat ≤ t.toNat then t.toNat - b.toNat else t.toNat + 2 ^ w - b.toNat := by
  have hb := b.isLt
  have ht := t.isLt
  unfold since
  rw [BitVec.toNat_sub]
  by_cases h : b.toNat ≤ t.toNat
  · rw [if_pos h, show 2 ^ w - b.toNat + t.toNat = (t.toNat - b.toNat) + 2 ^ w by omega,
      Nat.add_mod_right, Nat.mod_eq_of_lt (by omega)]
  · rw [if_neg h, Nat.mod_eq_of_lt (by omega)]
    omega

/-- If the counter wraps from `k` to `i`, it does not wrap again before a full turn from `k`: what
comes after `i` also reads above `i`. -/
theorem lt_of_wrapped {b k i l : BitVec w} (hk : since b k ≤ since b i)
    (hl : since b i < since b l) (h : i < k) : i < l := by
  rw [BitVec.lt_def] at *
  have := since_lt b l
  have hb := b.isLt
  rw [since_eq_ite] at hk hl
  rw [since_eq_ite b] at hk hl
  have := k.isLt
  have := i.isLt
  have := l.isLt
  split_ifs at * <;> omega

/-! ## The sign of a difference -/

theorem toInt_nonneg_iff {x : BitVec (w + 1)} : 0 ≤ x.toInt ↔ x.toNat < 2 ^ w := by
  rw [BitVec.toInt_eq_toNat_cond, Nat.pow_succ]
  have := x.isLt
  rw [Nat.pow_succ] at this
  split <;> omega

theorem toInt_nonpos_iff {x : BitVec (w + 1)} : x.toInt ≤ 0 ↔ x.toNat = 0 ∨ 2 ^ w ≤ x.toNat := by
  rw [BitVec.toInt_eq_toNat_cond, Nat.pow_succ]
  have := x.isLt
  rw [Nat.pow_succ] at this
  split <;> omega

theorem toInt_pos_iff {x : BitVec (w + 1)} : 0 < x.toInt ↔ x.toNat ≠ 0 ∧ x.toNat < 2 ^ w := by
  rw [← not_le, toInt_nonpos_iff, not_or, not_le]

/-- The reading `t` is later than `p`, as the sign of their difference has it. -/
def Ahead (p t : BitVec w) : Prop := 0 < (t - p).toInt

instance (p t : BitVec w) : Decidable (Ahead p t) := inferInstanceAs (Decidable (_ < _))

theorem ahead_iff {p t : BitVec (w + 1)} : Ahead p t ↔ since p t ≠ 0 ∧ since p t < 2 ^ w :=
  toInt_pos_iff

end Lib.Clock
