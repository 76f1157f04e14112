import Mathlib.Algebra.BigOperators.Intervals
import Mathlib.Algebra.BigOperators.Ring.Finset
import Mathlib.Tactic.Ring

/-!
# The discrete Fourier transform, by halves

The transform of `2n` values is made of those of the values at even and at odd places; where the
recursion takes its inputs from is the bit reversal of the place.
-/

namespace Lib

/-! ## Bit reversal -/

/-- The lowest `m` bits of `j`, the other way round. -/
def bitReverse : ℕ → ℕ → ℕ
  | 0, _ => 0
  | m + 1, j => j % 2 * 2 ^ m + bitReverse m (j / 2)

theorem bitReverse_lt (m j : ℕ) : bitReverse m j < 2 ^ m := by
  induction m generalizing j with
  | zero => simp [bitReverse]
  | succ m ih =>
    have hrest := ih (j / 2)
    rw [bitReverse, pow_succ]
    obtain hbit | hbit : j % 2 = 0 ∨ j % 2 = 1 := by omega
    · rw [hbit]
      omega
    · rw [hbit]
      omega

@[simp] theorem bitReverse_zero_right (m : ℕ) : bitReverse m 0 = 0 := by
  induction m with
  | zero => rfl
  | succ m ih => simp [bitReverse, ih]

theorem bitReverse_two_mul (m j : ℕ) : bitReverse (m + 1) (2 * j) = bitReverse m j := by
  rw [bitReverse, Nat.mul_mod_right, Nat.mul_div_cancel_left j Nat.two_pos, zero_mul, zero_add]

theorem bitReverse_two_mul_add_one (m j : ℕ) :
    bitReverse (m + 1) (2 * j + 1) = 2 ^ m + bitReverse m j := by
  have hbit : (2 * j + 1) % 2 = 1 := by omega
  have hrest : (2 * j + 1) / 2 = j := by omega
  rw [bitReverse, hbit, hrest, one_mul]

/-- The highest bit becomes the lowest. -/
theorem bitReverse_high {m i j : ℕ} (hi : i < m) (hj : j < 2 ^ i) :
    bitReverse m (2 ^ i + j) = 2 ^ (m - 1 - i) + bitReverse m j := by
  induction i generalizing m j with
  | zero =>
    obtain ⟨m, rfl⟩ := Nat.exists_eq_add_of_lt hi
    obtain rfl : j = 0 := by simpa using hj
    rw [Nat.zero_add]
    simpa using bitReverse_two_mul_add_one m 0
  | succ i ih =>
    obtain ⟨m, rfl⟩ : ∃ m', m = m' + 1 := ⟨m - 1, by omega⟩
    have hhalf : (2 ^ (i + 1) + j) / 2 = 2 ^ i + j / 2 := by rw [pow_succ]; omega
    have hbit : (2 ^ (i + 1) + j) % 2 = j % 2 := by rw [pow_succ]; omega
    have hexp : m + 1 - 1 - (i + 1) = m - 1 - i := by omega
    rw [bitReverse, bitReverse, hhalf, hbit, hexp, ih (by omega) (by rw [pow_succ] at hj; omega)]
    ring

theorem bitReverse_two_pow {m i : ℕ} (hi : i < m) : bitReverse m (2 ^ i) = 2 ^ (m - 1 - i) := by
  simpa using bitReverse_high hi (Nat.two_pow_pos i)

theorem bitReverse_of_lt {m j : ℕ} (hj : j < 2 ^ m) : bitReverse (m + 1) j = 2 * bitReverse m j := by
  induction m generalizing j with
  | zero =>
    obtain rfl : j = 0 := by simpa using hj
    simp
  | succ m ih =>
    rw [bitReverse, ih (by rw [pow_succ] at hj; omega), bitReverse]
    ring

/-- The lowest bit of the reversed is the highest of the given. -/
theorem bitReverse_succ_high (m : ℕ) {j : ℕ} (hj : j < 2 ^ (m + 1)) :
    bitReverse (m + 1) j = 2 * bitReverse m (j % 2 ^ m) + j / 2 ^ m := by
  have hlow : j % 2 ^ m < 2 ^ m := Nat.mod_lt j (Nat.two_pow_pos m)
  have hsplit := Nat.div_add_mod j (2 ^ m)
  have hdiv : j / 2 ^ m < 2 := Nat.div_lt_of_lt_mul (by rwa [pow_succ] at hj)
  obtain htop | htop := Nat.le_one_iff_eq_zero_or_eq_one.1 (Nat.le_of_lt_succ hdiv)
  · rw [htop, mul_zero, zero_add] at hsplit
    rw [htop, hsplit, bitReverse_of_lt (hsplit ▸ hlow), add_zero]
  · rw [htop, mul_one] at hsplit
    rw [htop, ← bitReverse_of_lt hlow, ← hsplit, bitReverse_high (Nat.lt_succ_self m) hlow]
    simp [Nat.add_comm]

theorem bitReverse_bitReverse {m j : ℕ} (hj : j < 2 ^ m) : bitReverse m (bitReverse m j) = j := by
  induction m generalizing j with
  | zero => simp_all [bitReverse]
  | succ m ih =>
    have hhalf : j / 2 < 2 ^ m := by rw [pow_succ] at hj; omega
    have hlt := bitReverse_lt m (j / 2)
    have hsplit : (j % 2 * 2 ^ m + bitReverse m (j / 2)) % 2 ^ m = bitReverse m (j / 2) := by
      rw [mul_comm, Nat.mul_add_mod, Nat.mod_eq_of_lt hlt]
    have htop : (j % 2 * 2 ^ m + bitReverse m (j / 2)) / 2 ^ m = j % 2 := by
      rw [mul_comm, Nat.mul_add_div (Nat.two_pow_pos m), Nat.div_eq_of_lt hlt, add_zero]
    rw [bitReverse_succ_high m (bitReverse_lt (m + 1) j), bitReverse, hsplit, htop, ih hhalf]
    omega

/-! ## The transform -/

section Transform

variable {K : Type*} [CommRing K]

/-- The sum of `u j * ζ ^ (j * k)`. -/
def dft (ζ : K) (n : ℕ) (u : ℕ → K) (k : ℕ) : K := ∑ j ∈ Finset.range n, u j * ζ ^ (j * k)

theorem dft_one (ζ : K) (u : ℕ → K) (k : ℕ) : dft ζ 1 u k = u 0 := by
  simp [dft]

theorem sum_range_double (n : ℕ) (f : ℕ → K) :
    ∑ j ∈ Finset.range (2 * n), f j =
      (∑ j ∈ Finset.range n, f (2 * j)) + ∑ j ∈ Finset.range n, f (2 * j + 1) := by
  induction n with
  | zero => simp
  | succ n ih =>
    rw [Nat.mul_succ, Finset.sum_range_succ, Finset.sum_range_succ, ih, Finset.sum_range_succ,
      Finset.sum_range_succ]
    ring

/-- **The transform by halves.** -/
theorem dft_double (ζ : K) (n : ℕ) (u : ℕ → K) (k : ℕ) :
    dft ζ (2 * n) u k =
      dft (ζ ^ 2) n (fun j => u (2 * j)) k + ζ ^ k * dft (ζ ^ 2) n (fun j => u (2 * j + 1)) k := by
  unfold dft
  rw [sum_range_double, Finset.mul_sum]
  congr 1
  · refine Finset.sum_congr rfl fun j _ => ?_
    rw [← pow_mul]
    ring_nf
  · refine Finset.sum_congr rfl fun j _ => ?_
    rw [← pow_mul]
    ring

/-- Half a turn further the second half counts the other way. -/
theorem dft_double_add {ζ : K} {n : ℕ} (hζ : ζ ^ n = -1) (u : ℕ → K) (k : ℕ) :
    dft ζ (2 * n) u (k + n) =
      dft (ζ ^ 2) n (fun j => u (2 * j)) k - ζ ^ k * dft (ζ ^ 2) n (fun j => u (2 * j + 1)) k := by
  have hsquare : (ζ ^ 2) ^ n = 1 := by rw [← pow_mul, mul_comm, pow_mul, hζ]; ring
  have hperiod : ∀ v : ℕ → K, dft (ζ ^ 2) n v (k + n) = dft (ζ ^ 2) n v k := by
    intro v
    refine Finset.sum_congr rfl fun j _ => ?_
    rw [mul_add, pow_add, mul_comm j n, pow_mul _ n j, hsquare, one_pow, mul_one]
  rw [dft_double, hperiod, hperiod, pow_add, hζ]
  ring

end Transform

end Lib
