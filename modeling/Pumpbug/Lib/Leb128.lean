import Mathlib.Data.BitVec
import Pumpbug.Lib.Reader

/-!
# Variable-length integers

Unsigned LEB128: seven bits a byte, least significant first, the top bit set on every byte but the
last.  The writer shifts the value down; the reader collects the groups where they belong.
-/

namespace Lib.Leb128

open Reader

variable {w : ℕ}

/-- At most `n + 1` bytes. -/
def write : ℕ → BitVec w → Bytes
  | 0, v => [v.setWidth 8]
  | n + 1, v =>
    if 0x80 ≤ v.toNat then (v.setWidth 8 ||| 0x80) :: write n (v >>> 7) else [v.setWidth 8]

/-- At most `n` more bytes; group number `i` comes next and `v` holds those before it. -/
def read : ℕ → ℕ → BitVec w → Reader (BitVec w)
  | 0, _, _ => failure
  | n + 1, i, v => do
    let b ← byte
    let v := v ||| (b &&& 0x7F).setWidth w <<< (7 * i)
    if b &&& 0x80 = 0 then pure v else read n (i + 1) v

theorem length_write_le (n : ℕ) (v : BitVec w) : (write n v).length ≤ n + 1 := by
  induction n generalizing v with
  | zero => exact le_rfl
  | succ n ih =>
    unfold write
    split_ifs
    · exact Nat.succ_le_succ (ih _)
    · exact Nat.succ_le_succ (Nat.zero_le _)

/-- A small value needs few bytes, however many are allowed. -/
theorem length_write_of_lt {n k : ℕ} {v : BitVec w} (h : v.toNat < 2 ^ (7 * (k + 1))) :
    (write n v).length ≤ k + 1 := by
  induction k generalizing n v with
  | zero =>
    cases n with
    | zero => exact le_rfl
    | succ n =>
      unfold write
      rw [if_neg (by simpa using h)]
      exact le_rfl
  | succ k ih =>
    cases n with
    | zero => exact Nat.succ_le_succ (Nat.zero_le _)
    | succ n =>
      unfold write
      split_ifs
      · refine Nat.succ_le_succ (ih ?_)
        rw [BitVec.toNat_ushiftRight, Nat.shiftRight_eq_div_pow]
        refine Nat.div_lt_of_lt_mul ?_
        rw [← Nat.pow_add]
        exact lt_of_lt_of_eq h (by congr 1; omega)
      · exact Nat.succ_le_succ (Nat.zero_le _)

/-! ## Groups of seven bits -/

theorem getLsbD_low (b : BitVec 8) (k : ℕ) :
    (b &&& 0x7F).getLsbD k = (decide (k < 7) && b.getLsbD k) := by
  have h127 : BitVec.getLsbD (0x7F : BitVec 8) k = (decide (k < 8) && decide (k < 7)) := by
    rw [show (0x7F : BitVec 8) = BitVec.ofNat 8 (2 ^ 7 - 1) from rfl, BitVec.getLsbD_ofNat,
      Nat.testBit_two_pow_sub_one]
  rw [BitVec.getLsbD_and, h127]
  by_cases hk : k < 7
  · simp [hk, show k < 8 by omega]
  · simp [hk]

theorem continues (b : BitVec 8) : ¬ (b ||| 0x80) &&& 0x80 = 0 := by
  revert b; decide

theorem low_of_continues (b : BitVec 8) : (b ||| 0x80) &&& 0x7F = b &&& 0x7F := by
  revert b; decide

theorem stops {b : BitVec 8} : b.toNat < 0x80 → b &&& 0x80 = 0 := by
  revert b; decide

/-- The low group of a value. -/
theorem getLsbD_group (v : BitVec w) (k : ℕ) :
    (((v.setWidth 8) &&& 0x7F).setWidth w).getLsbD k = (decide (k < 7) && v.getLsbD k) := by
  rw [BitVec.getLsbD_setWidth, getLsbD_low, BitVec.getLsbD_setWidth]
  by_cases hw : k < w
  · by_cases hk : k < 7
    · simp [hw, hk, show k < 8 by omega]
    · simp [hk]
  · have hv : v.getLsbD k = false := BitVec.getLsbD_of_ge v k (not_lt.1 hw)
    simp [hw, hv]

/-- A value is its low group and the rest. -/
theorem group_or_rest (v : BitVec w) (i : ℕ) :
    ((v.setWidth 8) &&& 0x7F).setWidth w <<< (7 * i) ||| (v >>> 7) <<< (7 * (i + 1)) =
      v <<< (7 * i) := by
  apply BitVec.eq_of_getLsbD_eq
  intro k hk
  rw [BitVec.getLsbD_or, BitVec.getLsbD_shiftLeft, BitVec.getLsbD_shiftLeft,
    BitVec.getLsbD_shiftLeft, getLsbD_group, BitVec.getLsbD_ushiftRight]
  by_cases h0 : k < 7 * i
  · simp [h0, show k < 7 * (i + 1) by omega]
  · by_cases h1 : k < 7 * (i + 1)
    · simp [h0, h1, hk, show k - 7 * i < 7 by omega]
    · rw [show 7 + (k - 7 * (i + 1)) = k - 7 * i by omega]
      simp [h0, h1, hk, show ¬ k - 7 * i < 7 by omega]

theorem group_of_lt {v : BitVec w} (h : v.toNat < 0x80) :
    ((v.setWidth 8) &&& 0x7F).setWidth w = v := by
  apply BitVec.eq_of_getLsbD_eq
  intro k hk
  rw [getLsbD_group]
  by_cases hk7 : k < 7
  · simp [hk7]
  · have hv : v.getLsbD k = false := by
      rw [BitVec.getLsbD]
      have h7 : 2 ^ 7 ≤ 2 ^ k := Nat.pow_le_pow_right (by omega) (not_lt.1 hk7)
      exact Nat.testBit_lt_two_pow (lt_of_lt_of_le h h7)
    simp [hk7, hv]

/-! ## Round trip -/

/-- **Varints read back**, on top of the groups read so far. -/
theorem reads_write {n : ℕ} {v : BitVec w} (h : v.toNat < 2 ^ (7 * (n + 1))) (i : ℕ)
    (acc : BitVec w) : Reads (read (n + 1) i acc) (write n v) (acc ||| v <<< (7 * i)) := by
  induction n generalizing v i acc with
  | zero =>
    unfold read write
    refine (reads_byte _).bind_pure ?_
    rw [if_pos (stops (by simp at h ⊢; omega)), group_of_lt (by simpa using h)]
    exact reads_pure _
  | succ n ih =>
    unfold read write
    by_cases hv : 0x80 ≤ v.toNat
    · rw [if_pos hv]
      show Reads _ ([v.setWidth 8 ||| 0x80] ++ write n (v >>> 7)) _
      refine (reads_byte (v.setWidth 8 ||| 0x80)).bind ?_
      rw [if_neg (continues _), low_of_continues, ← group_or_rest v i, ← BitVec.or_assoc]
      apply ih
      rw [BitVec.toNat_ushiftRight, Nat.shiftRight_eq_div_pow]
      refine Nat.div_lt_of_lt_mul ?_
      rw [← Nat.pow_add]
      exact lt_of_lt_of_eq h (by congr 1; omega)
    · rw [if_neg hv]
      refine (reads_byte _).bind_pure ?_
      have hlt : v.toNat < 0x80 := not_le.1 hv
      rw [if_pos (stops (by rw [BitVec.toNat_setWidth]; exact lt_of_le_of_lt (Nat.mod_le _ _) hlt)),
        group_of_lt hlt]
      exact reads_pure _

end Lib.Leb128
