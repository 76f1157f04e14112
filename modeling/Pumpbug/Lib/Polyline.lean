import Mathlib.Algebra.Order.Field.Basic
import Mathlib.Tactic.FieldSimp
import Mathlib.Tactic.Linarith
import Mathlib.Tactic.Ring

/-!
# Polylines

A polyline joins its points, sorted by time, with straight segments.  `crossing c` walks along it
and interpolates on the first segment that ends at `c` or above: this is the earliest time at which
the polyline has a value of `c` or more, and it depends on no point behind that segment.
-/

namespace Lib.Polyline

variable {𝕜 : Type*} [Field 𝕜] [LinearOrder 𝕜] [IsStrictOrderedRing 𝕜]

/-- The polyline passes through the value `v` at the time `τ`. -/
def On : List (𝕜 × 𝕜) → 𝕜 → 𝕜 → Prop
  | [], _, _ => False
  | [a], τ, v => τ = a.1 ∧ v = a.2
  | a :: b :: l, τ, v =>
    (∃ f, 0 ≤ f ∧ f ≤ 1 ∧ τ = a.1 + f * (b.1 - a.1) ∧ v = a.2 + f * (b.2 - a.2)) ∨ On (b :: l) τ v

/-- The first crossing of the level `c`. -/
def crossing (c : 𝕜) : List (𝕜 × 𝕜) → Option 𝕜
  | [] => none
  | [a] => if c ≤ a.2 then some a.1 else none
  | a :: b :: l =>
    if c ≤ a.2 then some a.1
    else if c ≤ b.2 then some (a.1 + (c - a.2) / (b.2 - a.2) * (b.1 - a.1))
    else crossing c (b :: l)

/-- The points are sorted by time. -/
def Timed (l : List (𝕜 × 𝕜)) : Prop := l.Pairwise fun a b => a.1 ≤ b.1

variable {a b : 𝕜 × 𝕜} {l : List (𝕜 × 𝕜)} {c c' τ τ' v : 𝕜}

theorem on_first (a : 𝕜 × 𝕜) (l : List (𝕜 × 𝕜)) : On (a :: l) a.1 a.2 := by
  cases l with
  | nil => exact ⟨rfl, rfl⟩
  | cons b l => exact .inl ⟨0, le_refl 0, zero_le_one, by ring, by ring⟩

/-- A polyline does not go back before its first point. -/
theorem On.first_le (ht : Timed (a :: l)) (h : On (a :: l) τ v) : a.1 ≤ τ := by
  induction l generalizing a with
  | nil => exact h.1.ge
  | cons b l ih =>
    have hab : a.1 ≤ b.1 := (List.pairwise_cons.1 ht).1 b List.mem_cons_self
    rcases h with ⟨f, hf, -, rfl, -⟩ | h
    · have := mul_nonneg hf (sub_nonneg.2 hab)
      linarith
    · exact hab.trans (ih (List.pairwise_cons.1 ht).2 h)

/-- A segment between two points below a level stays below it. -/
theorem segment_lt {f : 𝕜} (hf : 0 ≤ f) (hf' : f ≤ 1) (ha : a.2 < c) (hb : b.2 < c) :
    a.2 + f * (b.2 - a.2) < c := by
  have hmix : a.2 + f * (b.2 - a.2) = (1 - f) * a.2 + f * b.2 := by ring
  rw [hmix]
  rcases hf.eq_or_lt with rfl | hpos
  · linarith
  · have h₁ : (1 - f) * a.2 ≤ (1 - f) * c := mul_le_mul_of_nonneg_left ha.le (sub_nonneg.2 hf')
    have h₂ : f * b.2 < f * c := mul_lt_mul_of_pos_left hb hpos
    linarith

/-- A rising segment meets a level at the interpolated share of it. -/
theorem share_mem (ha : a.2 < c) (hb : c ≤ b.2) :
    0 ≤ (c - a.2) / (b.2 - a.2) ∧ (c - a.2) / (b.2 - a.2) ≤ 1 ∧
      a.2 + (c - a.2) / (b.2 - a.2) * (b.2 - a.2) = c := by
  have hpos : 0 < b.2 - a.2 := by linarith
  refine ⟨div_nonneg (by linarith) hpos.le, ?_, ?_⟩
  · rw [div_le_one hpos]
    linarith
  · rw [div_mul_cancel₀ _ hpos.ne']
    ring

/-- The polyline is at the level or above where it crosses it. -/
theorem on_crossing (h : crossing c l = some τ) : ∃ v, c ≤ v ∧ On l τ v := by
  induction l with
  | nil => exact absurd h nofun
  | cons a l ih =>
    cases l with
    | nil =>
      unfold crossing at h
      split_ifs at h with ha
      exact ⟨a.2, ha, (Option.some.inj h).symm, rfl⟩
    | cons b l =>
      unfold crossing at h
      split_ifs at h with ha hb
      · rw [← Option.some.inj h]
        exact ⟨a.2, ha, on_first a (b :: l)⟩
      · obtain ⟨hf, hf', hc⟩ := share_mem (not_le.1 ha) hb
        exact ⟨c, le_refl c, .inl ⟨_, hf, hf', (Option.some.inj h).symm, hc.symm⟩⟩
      · obtain ⟨v, hv, hon⟩ := ih h
        exact ⟨v, hv, .inr hon⟩

/-- **The crossing is the earliest.** -/
theorem crossing_le (ht : Timed l) (h : crossing c l = some τ) (hon : On l τ' v) (hv : c ≤ v) :
    τ ≤ τ' := by
  induction l with
  | nil => exact hon.elim
  | cons a l ih =>
    cases l with
    | nil =>
      unfold crossing at h
      split_ifs at h
      rw [← Option.some.inj h, hon.1]
    | cons b l =>
      have hab : a.1 ≤ b.1 := (List.pairwise_cons.1 ht).1 b List.mem_cons_self
      have htail : Timed (b :: l) := (List.pairwise_cons.1 ht).2
      unfold crossing at h
      split_ifs at h with ha hb
      · rw [← Option.some.inj h]
        exact hon.first_le ht
      · obtain ⟨-, hf', hc⟩ := share_mem (not_le.1 ha) hb
        rw [← Option.some.inj h]
        have hpos : 0 < b.2 - a.2 := by linarith [not_le.1 ha]
        rcases hon with ⟨g, -, -, rfl, rfl⟩ | hon
        · have hshare : (c - a.2) / (b.2 - a.2) ≤ g := by
            rw [div_le_iff₀ hpos]
            linarith
          have := mul_le_mul_of_nonneg_right hshare (sub_nonneg.2 hab)
          linarith
        · have hle := hon.first_le htail
          have := mul_le_mul_of_nonneg_right hf' (sub_nonneg.2 hab)
          linarith
      · rcases hon with ⟨f, hf, hf', -, rfl⟩ | hon
        · exact absurd hv (not_le.2 (segment_lt hf hf' (not_le.1 ha) (not_le.1 hb)))
        · exact ih htail h hon

/-- A higher level is crossed later. -/
theorem crossing_mono (ht : Timed l) (hc : c ≤ c') (h : crossing c l = some τ)
    (h' : crossing c' l = some τ') : τ ≤ τ' := by
  obtain ⟨v, hv, hon⟩ := on_crossing h'
  exact crossing_le ht h hon (hc.trans hv)

/-- What comes behind the crossing does not move it. -/
theorem crossing_append (h : crossing c l = some τ) (m : List (𝕜 × 𝕜)) :
    crossing c (l ++ m) = some τ := by
  induction l with
  | nil => exact absurd h nofun
  | cons a l ih =>
    cases l with
    | nil =>
      unfold crossing at h
      split_ifs at h with ha
      cases m with
      | nil =>
        show crossing c [a] = some τ
        unfold crossing
        rw [if_pos ha, h]
      | cons b m =>
        show crossing c (a :: b :: m) = some τ
        unfold crossing
        rw [if_pos ha, h]
    | cons b l =>
      show crossing c (a :: b :: (l ++ m)) = some τ
      unfold crossing at h ⊢
      split_ifs at h ⊢ with ha hb
      · exact h
      · exact h
      · exact ih h

end Lib.Polyline
