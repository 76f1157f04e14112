import Mathlib.Data.List.DropRight
import Mathlib.Data.List.Pairwise
import Pumpbug.Lib.Clock

/-!
# Sorted logs, and cutting them at a time

A log whose items are sorted by a key is the items up to a bound followed by the later ones.
Cutting it from the end by a test that need not agree with the key keeps the part up to the bound
exactly if the test spares the last item of that part.
-/

namespace Lib

variable {α : Type*}

/-- The log is sorted by `key`. -/
def SortedBy (key : α → ℕ) (l : List α) : Prop := l.Pairwise fun a b => key a ≤ key b

/-- The items with key at most `bound`. -/
def upTo (key : α → ℕ) (bound : ℕ) (l : List α) : List α := l.filter (key · ≤ bound)

/-- The items with key above `bound`. -/
def later (key : α → ℕ) (bound : ℕ) (l : List α) : List α := l.filter (bound < key ·)

variable {key : α → ℕ} {bound : ℕ} {l : List α}

theorem mem_upTo {a : α} : a ∈ upTo key bound l ↔ a ∈ l ∧ key a ≤ bound := by
  unfold upTo; rw [List.mem_filter, decide_eq_true_eq]

theorem mem_later {a : α} : a ∈ later key bound l ↔ a ∈ l ∧ bound < key a := by
  unfold later; rw [List.mem_filter, decide_eq_true_eq]

/-- A sorted log is its part up to a bound, then the rest. -/
theorem SortedBy.eq_append (h : SortedBy key l) (bound : ℕ) :
    l = upTo key bound l ++ later key bound l := by
  unfold SortedBy at h
  unfold upTo later
  induction l with
  | nil => rfl
  | cons a l ih =>
    obtain ⟨ha, hl⟩ := List.pairwise_cons.1 h
    by_cases hk : key a ≤ bound
    · rw [List.filter_cons_of_pos (by simpa using hk), List.filter_cons_of_neg (by simpa using hk),
        List.cons_append, ← ih hl]
    · have hnone : ∀ b ∈ l, ¬ decide (key b ≤ bound) = true := by
        intro b hb hle
        exact hk (le_trans (ha b hb) (by simpa using hle))
      have hall : ∀ b ∈ l, decide (bound < key b) = true := by
        intro b hb
        have := hnone b hb
        simp only [decide_eq_true_eq] at this ⊢
        omega
      rw [List.filter_cons_of_neg (by simpa using hk),
        List.filter_cons_of_pos (by simpa using hk), List.filter_eq_nil_iff.2 hnone,
        List.filter_eq_self.2 hall, List.nil_append]

theorem SortedBy.append_last (h : SortedBy key l) {a : α} (ha : ∀ b ∈ l, key b ≤ key a) :
    SortedBy key (l ++ [a]) := by
  unfold SortedBy
  rw [List.pairwise_append]
  refine ⟨h, List.pairwise_singleton _ _, fun b hb c hc => ?_⟩
  rw [List.mem_singleton.1 hc]
  exact ha b hb

/-! ## Cutting from the end -/

section Cut

variable (p : α → Bool)

/-- A cut does not reach past an item that the test spares. -/
theorem rdropWhile_append_of_not {front back : List α} {a : α} (ha : ¬ p a = true) :
    (front ++ [a] ++ back).rdropWhile p = front ++ [a] ++ back.rdropWhile p := by
  induction back using List.reverseRecOn with
  | nil => rw [List.append_nil, List.rdropWhile_nil, List.append_nil,
      List.rdropWhile_concat_neg p front a ha]
  | append_singleton back b ih =>
    rw [← List.append_assoc, List.rdropWhile_concat, List.rdropWhile_concat]
    by_cases hb : p b = true
    · rw [if_pos hb, if_pos hb, ih]
    · rw [if_neg hb, if_neg hb, List.append_assoc]

/-- A cut removes every item at the end that fails the test. -/
theorem rdropWhile_append_of_all {front back : List α} (h : ∀ b ∈ back, p b = true) :
    (front ++ back).rdropWhile p = front.rdropWhile p := by
  induction back using List.reverseRecOn with
  | nil => rw [List.append_nil]
  | append_singleton back b ih =>
    rw [← List.append_assoc, List.rdropWhile_concat_pos p _ b (h b (by simp)),
      ih fun c hc => h c (by simp [hc])]

variable {p} {last : α}

/-- **Cut kept.** The cut keeps the part up to the bound if the test spares its last item. -/
theorem SortedBy.upTo_prefix_rdropWhile (h : SortedBy key l)
    (hlast : (upTo key bound l).getLast? = some last) (hp : ¬ p last = true) :
    upTo key bound l <+: l.rdropWhile p := by
  obtain ⟨front, hfront⟩ := List.getLast?_eq_some_iff.1 hlast
  conv_rhs => rw [h.eq_append bound, hfront, rdropWhile_append_of_not p hp]
  rw [hfront]
  exact List.prefix_append _ _

/-- **Cut short.** The cut loses an item up to the bound if the test fails on it and on all later
ones. -/
theorem SortedBy.length_rdropWhile_lt (h : SortedBy key l)
    (hlast : (upTo key bound l).getLast? = some last) (hp : p last = true)
    (hlater : ∀ b ∈ later key bound l, p b = true) :
    (l.rdropWhile p).length < (upTo key bound l).length := by
  obtain ⟨front, hfront⟩ := List.getLast?_eq_some_iff.1 hlast
  conv_lhs => rw [h.eq_append bound, rdropWhile_append_of_all p hlater, hfront,
    List.rdropWhile_concat_pos p _ _ hp]
  rw [hfront, List.length_append, List.length_singleton]
  exact Nat.lt_succ_of_le (List.rdropWhile_prefix p front).length_le

end Cut

end Lib
