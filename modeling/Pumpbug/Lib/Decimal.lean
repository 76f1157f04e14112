import Mathlib.Data.List.Basic
import Mathlib.Data.List.Induction
import Mathlib.Tactic.Ring

/-!
# Decimal numerals of a fixed width

`%0*u`: a number in decimal, padded with zeros to a width.  Numerals of one width that are all
digits and their values determine each other.
-/

namespace Lib.Decimal

/-- The decimal numeral of `n`, with zeros in front up to the width `w`. -/
def format (w n : ℕ) : List Char := List.leftpad w '0' (Nat.toDigits 10 n)

/-- The number that a string of digits stands for. -/
def value (cs : List Char) : ℕ := Nat.ofDigitChars 10 cs 0

theorem value_append (cs : List Char) (c : Char) :
    value (cs ++ [c]) = 10 * value cs + (c.toNat - '0'.toNat) := by
  unfold value
  rw [Nat.ofDigitChars_append, Nat.ofDigitChars_cons, Nat.ofDigitChars_nil]

theorem value_format (w n : ℕ) : value (format w n) = n := by
  unfold value format List.leftpad
  rw [Nat.ofDigitChars_append, Nat.ofDigitChars_replicate_zero, Nat.mul_zero,
    Nat.ofDigitChars_ten_toDigits]

theorem length_format {w n : ℕ} (hw : 0 < w) (h : n < 10 ^ w) : (format w n).length = w := by
  unfold format
  rw [List.length_leftpad]
  exact max_eq_left ((Nat.length_toDigits_le_iff (by decide) hw).2 h)

theorem isDigit_of_mem_format {w n : ℕ} {c : Char} (h : c ∈ format w n) : c.isDigit = true := by
  unfold format List.leftpad at h
  rcases List.mem_append.1 h with h | h
  · rw [List.eq_of_mem_replicate h]
    rfl
  · exact Nat.isDigit_of_mem_toDigits (by decide) (by decide) h

theorem toNat_bounds {c : Char} (h : c.isDigit = true) : '0'.toNat ≤ c.toNat ∧ c.toNat ≤ '9'.toNat := by
  unfold Char.isDigit at h
  rw [Bool.and_eq_true, decide_eq_true_eq, decide_eq_true_eq] at h
  exact h

/-- Numerals of the same width with the same value are the same. -/
theorem eq_of_value_eq {cs ds : List Char} (hlen : cs.length = ds.length)
    (hcs : ∀ c ∈ cs, c.isDigit = true) (hds : ∀ d ∈ ds, d.isDigit = true)
    (h : value cs = value ds) : cs = ds := by
  induction cs using List.reverseRecOn generalizing ds with
  | nil => exact (List.eq_nil_of_length_eq_zero hlen.symm).symm
  | append_singleton cs c ih =>
    rcases List.eq_nil_or_concat ds with rfl | ⟨ds, d, rfl⟩
    · simp at hlen
    · obtain ⟨hc₀, hc₉⟩ := toNat_bounds (hcs c (by simp))
      obtain ⟨hd₀, hd₉⟩ := toNat_bounds (hds d (by simp))
      rw [List.concat_eq_append] at h hlen hds ⊢
      rw [value_append, value_append] at h
      have hz : '0'.toNat = 48 := rfl
      have hn : '9'.toNat = 57 := rfl
      rw [hz] at hc₀ hd₀ h
      rw [hn] at hc₉ hd₉
      have hlast : c = d := Char.toNat_inj.1 (by omega)
      have hfront : value cs = value ds := by omega
      rw [ih (by simpa using hlen) (fun c hc => hcs c (by simp [hc]))
        (fun d hd => hds d (by simp [hd])) hfront, hlast]

theorem value_lt {cs : List Char} (h : ∀ c ∈ cs, c.isDigit = true) : value cs < 10 ^ cs.length := by
  induction cs using List.reverseRecOn with
  | nil => exact Nat.one_pos
  | append_singleton cs c ih =>
    obtain ⟨-, hc⟩ := toNat_bounds (h c (by simp))
    have hcs := ih fun d hd => h d (by simp [hd])
    have hz : '0'.toNat = 48 := rfl
    have hn : '9'.toNat = 57 := rfl
    rw [value_append, List.length_append, List.length_singleton, pow_succ]
    omega

/-- A string of `w` digits is the numeral of its value. -/
theorem format_value {w : ℕ} {cs : List Char} (hw : 0 < w) (hlen : cs.length = w)
    (h : ∀ c ∈ cs, c.isDigit = true) : format w (value cs) = cs := by
  have hlt := value_lt h
  rw [hlen] at hlt
  exact eq_of_value_eq ((length_format hw hlt).trans hlen.symm)
    (fun _ hc => isDigit_of_mem_format hc) h (value_format w _)

end Lib.Decimal
