import Mathlib.Algebra.Order.Group.Abs
import Mathlib.Algebra.Order.Group.Int
import Mathlib.Data.List.Basic

/-!
# Nearest elements

The first of the elements of a list that are nearest to a target.  In a sorted list it moves forward
with the target, so a search for it may begin where the last one ended.
-/

namespace Lib

/-- `t`, at index `j`, is nearest to the target, and everything before it is farther off. -/
structure Nearest (l : List ℤ) (target : ℤ) (j : ℕ) (t : ℤ) : Prop where
  value : l[j]? = some t
  least : ∀ u ∈ l, |t - target| ≤ |u - target|
  first : ∀ k < j, ∀ u, l[k]? = some u → |t - target| < |u - target|

namespace Nearest

variable {l p q : List ℤ} {target target' t t' u : ℤ} {i j : ℕ}

theorem lt_length (h : Nearest l target j t) : j < l.length :=
  (List.getElem?_eq_some_iff.1 h.value).1

theorem mem (h : Nearest l target j t) : t ∈ l := List.mem_of_getElem? h.value

theorem unique (h : Nearest l target i t) (h' : Nearest l target j t') : i = j := by
  rcases lt_trichotomy i j with hij | hij | hij
  · exact absurd (h'.first i hij t h.value) (not_lt.2 (h.least t' h'.mem))
  · exact hij
  · exact absurd (h.first j hij t' h'.value) (not_lt.2 (h'.least t h.mem))

theorem singleton (t target : ℤ) : Nearest [t] target 0 t where
  value := rfl
  least u hu := by rw [List.mem_singleton.1 hu]
  first k hk := absurd hk (Nat.not_lt_zero k)

/-- Elements that are no nearer, behind the others. -/
theorem append (h : Nearest p target j t) (hq : ∀ u ∈ q, |t - target| ≤ |u - target|) :
    Nearest (p ++ q) target j t where
  value := by
    rw [List.getElem?_append_left h.lt_length]
    exact h.value
  least u hu := (List.mem_append.1 hu).elim (h.least u) (hq u)
  first k hk u hu := by
    rw [List.getElem?_append_left (hk.trans h.lt_length)] at hu
    exact h.first k hk u hu

/-- A nearer element, behind the others. -/
theorem concat (h : Nearest p target j t) (hu : |u - target| < |t - target|) :
    Nearest (p ++ [u]) target p.length u where
  value := by
    rw [List.getElem?_append_right (Nat.le_refl _), Nat.sub_self]
    rfl
  least v hv := by
    rcases List.mem_append.1 hv with hv | hv
    · exact (le_of_lt hu).trans (h.least v hv)
    · rw [List.mem_singleton.1 hv]
  first k hk v hv := by
    rw [List.getElem?_append_left hk] at hv
    exact lt_of_lt_of_le hu (h.least v (List.mem_of_getElem? hv))

/-- A search that begins no later finds the same element. -/
theorem drop (h : Nearest l target j t) {n : ℕ} (hn : n ≤ j) :
    Nearest (l.drop n) target (j - n) t where
  value := by
    rw [List.getElem?_drop, Nat.add_sub_cancel' hn]
    exact h.value
  least u hu := h.least u (List.mem_of_mem_drop hu)
  first k hk u hu := by
    rw [List.getElem?_drop] at hu
    exact h.first (n + k) (by omega) u hu

theorem le_of_index (hs : l.Pairwise (· ≤ ·)) (hij : i < j) (ht : l[i]? = some t)
    (ht' : l[j]? = some t') : t ≤ t' := by
  obtain ⟨hi, rfl⟩ := List.getElem?_eq_some_iff.1 ht
  obtain ⟨hj, rfl⟩ := List.getElem?_eq_some_iff.1 ht'
  exact List.pairwise_iff_getElem.1 hs i j hi hj hij

/-- **Monotonicity.** A later target has its nearest element no earlier. -/
theorem mono (hs : l.Pairwise (· ≤ ·)) (htarget : target ≤ target') (h : Nearest l target i t)
    (h' : Nearest l target' j t') : i ≤ j := by
  by_contra hij
  have hji : j < i := not_le.1 hij
  have hle := le_of_index hs hji h'.value h.value
  have hfar := h.first j hji t' h'.value
  have hnear := h'.least t h.mem
  -- the earlier element lies before the first target
  have hbefore : t' < target := by
    by_contra hnot
    rw [abs_of_nonneg (by omega), abs_of_nonneg (by omega)] at hfar
    omega
  have htriangle := abs_sub_le t target target'
  rw [abs_of_nonpos (show t' - target ≤ 0 by omega)] at hfar
  rw [abs_of_nonpos (show t' - target' ≤ 0 by omega)] at hnear
  rw [abs_of_nonpos (show target - target' ≤ 0 by omega)] at htriangle
  omega

/-- The nearest element is no later than one at or past the target. -/
theorem le_of_past (hs : l.Pairwise (· ≤ ·)) (h : Nearest l target j t) (hu : l[i]? = some u)
    (hpast : target ≤ u) : j ≤ i := by
  by_contra hji
  have hij : i < j := not_le.1 hji
  have hle := le_of_index hs hij hu h.value
  have hfar := h.first i hij u hu
  rw [abs_of_nonneg (by omega), abs_of_nonneg (by omega)] at hfar
  omega

end Nearest

end Lib
