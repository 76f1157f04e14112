import Mathlib.Data.List.Basic
import Mathlib.Data.List.GetD

/-!
# Entries of a list

Reading an entry with a default, behind an update of the list and at its end.
-/

namespace Lib

variable {α : Type*} {l : List α} {a : α}

theorem getD_set (d a : α) {i : ℕ} (hi : i < l.length) (k : ℕ) :
    (l.set i a).getD k d = if k = i then a else l.getD k d := by
  rw [List.getD_eq_getElem?_getD, List.getElem?_set, List.getD_eq_getElem?_getD]
  by_cases h : k = i
  · rw [if_pos h.symm, if_pos h, if_pos hi]
    rfl
  · rw [if_neg (Ne.symm h), if_neg h]

theorem getD_concat (l : List α) (d a : α) (k : ℕ) :
    (l ++ [a]).getD k d = if k < l.length then l.getD k d else if k = l.length then a else d := by
  split_ifs with h₁ h₂
  · exact List.getD_append _ _ _ _ h₁
  · rw [h₂, List.getD_append_right _ _ _ _ (Nat.le_refl _), Nat.sub_self]
    rfl
  · rw [List.getD_eq_default]
    rw [List.length_append, List.length_singleton]
    omega

theorem getD_getLast (d : α) (h : a ∈ l.getLast?) : l.getD (l.length - 1) d = a := by
  rw [List.getD_eq_getElem?_getD, ← List.getLast?_eq_getElem?, Option.mem_def.1 h]
  rfl

end Lib
