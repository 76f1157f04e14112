import Pumpbug.FlowSeries
import Pumpbug.Lib.Nearest
import Mathlib.Algebra.Order.Group.Int

/-!
# The search of the flow series

`findNearestSample` begins at the neighbour that the last flow was measured from.  Window edges move
forward from sample to sample, and so does the sample nearest to them: the search finds what a
search of all samples would.
-/

namespace Pumpbug

open Lib

/-- The times of the samples, as numbers. -/
def times (samples : List Sample) : List ℤ := samples.map fun s => (s.tMs.toNat : ℤ)

theorem toNat_missMs (t target : U32) :
    ((missMs t target).toNat : ℤ) = |(t.toNat : ℤ) - target.toNat| := by
  unfold missMs
  by_cases h : target < t
  · have hlt : target.toNat < t.toNat := h
    rw [if_pos h, BitVec.toNat_sub_of_le (BitVec.le_of_lt h), abs_of_pos (by omega)]
    omega
  · have hle : t.toNat ≤ target.toNat := Nat.not_lt.1 h
    rw [if_neg h, BitVec.toNat_sub_of_le (BitVec.not_lt.1 h), abs_of_nonpos (by omega)]
    omega

theorem missMs_lt (s u : Sample) (target : U32) :
    missMs s.tMs target < missMs u.tMs target ↔
      |(s.tMs.toNat : ℤ) - target.toNat| < |(u.tMs.toNat : ℤ) - target.toNat| := by
  rw [← toNat_missMs, ← toNat_missMs]
  exact Int.ofNat_lt.symm

theorem times_getElem? (samples : List Sample) (i : ℕ) :
    (times samples)[i]? = samples[i]?.map fun s => (s.tMs.toNat : ℤ) := List.getElem?_map

/-! ## The scan -/

section

variable {target : U32} {seen l : List Sample} {j : ℕ} {best : Sample}

/-- **Step lemma.** The better of the best sample so far and the next one. -/
theorem nearest_step (start : ℕ) (hbest : seen[j]? = some best)
    (h : Nearest (times seen) target.toNat j best.tMs.toNat) (s : Sample) :
    ∃ j' best', (if missMs s.tMs target < missMs best.tMs target then
        (some (start + seen.length), missMs s.tMs target)
      else (some (start + j), missMs best.tMs target)) = (some (start + j'), missMs best'.tMs target) ∧
      (seen ++ [s])[j']? = some best' ∧
      Nearest (times (seen ++ [s])) target.toNat j' best'.tMs.toNat ∧
      missMs best'.tMs target ≤ missMs best.tMs target ∧
      missMs best'.tMs target ≤ missMs s.tMs target := by
  have htimes : times (seen ++ [s]) = times seen ++ [(s.tMs.toNat : ℤ)] := List.map_append
  rw [htimes]
  by_cases hlt : missMs s.tMs target < missMs best.tMs target
  · refine ⟨seen.length, s, if_pos hlt, ?_, ?_, BitVec.le_of_lt hlt, BitVec.le_refl _⟩
    · rw [List.getElem?_append_right (Nat.le_refl _), Nat.sub_self]
      rfl
    · rw [← List.length_map (fun s : Sample => (s.tMs.toNat : ℤ))]
      exact h.concat ((missMs_lt s best target).1 hlt)
  · have hle := BitVec.not_lt.1 hlt
    refine ⟨j, best, if_neg hlt, ?_, h.append fun u hu => ?_, BitVec.le_refl _, hle⟩
    · rw [List.getElem?_append_left (List.getElem?_eq_some_iff.1 hbest).1]
      exact hbest
    · rw [List.mem_singleton.1 hu]
      exact not_lt.1 fun hnear => hlt ((missMs_lt s best target).2 hnear)

/-- **Run lemma.** With a best sample so far, the scan ends at the nearest one. -/
theorem nearestScan_nearest (hs : (times (seen ++ l)).Pairwise (· ≤ ·)) (start : ℕ)
    (hbest : seen[j]? = some best) (h : Nearest (times seen) target.toNat j best.tMs.toNat)
    (hmax : missMs best.tMs target < UINT32_MAX) :
    ∃ j' t, nearestScan target (start + seen.length) l (some (start + j)) (missMs best.tMs target) =
      some (start + j') ∧ Nearest (times (seen ++ l)) target.toNat j' t := by
  induction l generalizing seen j best with
  | nil =>
    rw [List.append_nil]
    exact ⟨j, _, rfl, h⟩
  | cons s rest ih =>
    have hsplit : seen ++ s :: rest = (seen ++ [s]) ++ rest := by
      rw [List.append_assoc, List.singleton_append]
    have hlength : start + seen.length + 1 = start + (seen ++ [s]).length := by
      rw [List.length_append, List.length_singleton, Nat.add_assoc]
    rw [hsplit] at hs ⊢
    obtain ⟨j', best', hnext, hbest', hnear, hle, hles⟩ := nearest_step start hbest h s
    have hmax' : missMs best'.tMs target < UINT32_MAX := Nat.lt_of_le_of_lt hle hmax
    rw [nearestScan]
    dsimp only
    rw [hnext]
    dsimp only
    by_cases hpast : target < s.tMs
    · rw [if_pos ⟨hpast, hmax'⟩]
      have htimes : times (seen ++ [s] ++ rest) = times (seen ++ [s]) ++ times rest :=
        List.map_append
      rw [htimes] at hs ⊢
      refine ⟨j', _, rfl, hnear.append fun u hu => ?_⟩
      have hlater : (s.tMs.toNat : ℤ) ≤ u := by
        refine (List.pairwise_append.1 hs).2.2 _ ?_ u hu
        exact List.mem_map_of_mem (List.mem_append_right _ (List.mem_singleton_self s))
      have hclose : |(best'.tMs.toNat : ℤ) - target.toNat| ≤ |(s.tMs.toNat : ℤ) - target.toNat| :=
        not_lt.1 fun hfar => BitVec.not_lt.2 hles ((missMs_lt s best' target).2 hfar)
      have hpast' : target.toNat < s.tMs.toNat := hpast
      rw [abs_of_nonneg (show (0 : ℤ) ≤ s.tMs.toNat - target.toNat by omega)] at hclose
      rw [abs_of_nonneg (show (0 : ℤ) ≤ u - target.toNat by omega)]
      omega
    · rw [if_neg fun hc => hpast hc.1, hlength]
      exact ih hs hbest' hnear hmax'

end

/-! ## The search -/

section

variable {samples : List Sample} {target : U32} {hint : ℕ}

/-- From any hint the search finds what is nearest from there on. -/
theorem findNearestSample_nearest (hs : (times samples).Pairwise (· ≤ ·)) {first : Sample}
    (hfirst : samples[hint]? = some first) (hmax : missMs first.tMs target < UINT32_MAX) :
    ∃ j t, findNearestSample samples target hint = some (hint + j) ∧
      Nearest ((times samples).drop hint) target.toNat j t := by
  obtain ⟨hlt, rfl⟩ := List.getElem?_eq_some_iff.1 hfirst
  have hdrop : (times samples).drop hint = times (samples.drop hint) := by
    unfold times
    rw [List.map_drop]
  have hcons := List.drop_eq_getElem_cons hlt
  rw [hdrop, hcons]
  unfold findNearestSample
  rw [hcons, nearestScan]
  dsimp only
  rw [if_pos hmax]
  dsimp only
  have hsorted : (times ([samples[hint]] ++ samples.drop (hint + 1))).Pairwise (· ≤ ·) := by
    rw [List.singleton_append, ← hcons, ← hdrop]
    exact hs.sublist (List.drop_sublist _ _)
  have hone : Nearest (times [samples[hint]]) target.toNat 0 samples[hint].tMs.toNat :=
    Nearest.singleton _ _
  by_cases hpast : target < samples[hint].tMs
  · rw [if_pos ⟨hpast, hmax⟩]
    refine ⟨0, samples[hint].tMs.toNat, rfl, ?_⟩
    have hall := hone.append (q := times (samples.drop (hint + 1))) fun u hu => ?_
    · exact hall
    · have hlater : (samples[hint].tMs.toNat : ℤ) ≤ u := (List.pairwise_cons.1 hsorted).1 u hu
      have hpast' : target.toNat < samples[hint].tMs.toNat := hpast
      rw [abs_of_nonneg (by omega), abs_of_nonneg (by omega)]
      omega
  · rw [if_neg fun hc => hpast hc.1]
    exact nearestScan_nearest hsorted hint rfl hone hmax

/-- **The hint is free.** Where the nearest of all samples is not before the hint, the search finds
it. -/
theorem findNearestSample_of_nearest (hs : (times samples).Pairwise (· ≤ ·)) {first : Sample}
    (hfirst : samples[hint]? = some first) (hmax : missMs first.tMs target < UINT32_MAX) {j : ℕ} {t : ℤ}
    (h : Nearest (times samples) target.toNat j t) (hhint : hint ≤ j) :
    findNearestSample samples target hint = some j := by
  obtain ⟨k, u, hfind, hk⟩ := findNearestSample_nearest hs hfirst hmax
  rw [hfind, hk.unique (h.drop hhint), Nat.add_sub_cancel' hhint]

end

/-! ## The hint -/

theorem toNat_windowStart (tCenter : U32) : (windowStart tCenter).toNat = tCenter.toNat - 500 := by
  unfold windowStart
  by_cases h : kFlowHalfWindowMs < tCenter
  · rw [if_pos h, BitVec.toNat_sub_of_le (BitVec.le_of_lt h)]
    rfl
  · have hle : ¬ 500 < tCenter.toNat := h
    rw [if_neg h, Nat.sub_eq_zero_of_le (not_lt.1 hle)]
    rfl

/-- No sample up to the centre is as far from the start of the window as the scan's "none yet". -/
theorem missMs_windowStart {s center : Sample} (h : s.tMs.toNat ≤ center.tMs.toNat) :
    missMs s.tMs (windowStart center.tMs) < UINT32_MAX := by
  have hmiss := toNat_missMs s.tMs (windowStart center.tMs)
  have hlt := center.tMs.isLt
  rw [toNat_windowStart] at hmiss
  show (missMs s.tMs (windowStart center.tMs)).toNat < 0xFFFFFFFF
  rcases abs_choice ((s.tMs.toNat : ℤ) - (center.tMs.toNat - 500 : ℕ)) with ha | ha
  · omega
  · omega

section

variable {samples : List Sample} {i hint : ℕ}

theorem time_le_of_index (hs : (times samples).Pairwise (· ≤ ·)) {k : ℕ} {s center : Sample}
    (hk : samples[k]? = some s) (hc : samples[i]? = some center) (hki : k ≤ i) :
    s.tMs.toNat ≤ center.tMs.toNat := by
  rcases Nat.lt_or_eq_of_le hki with hlt | rfl
  · have hs' : (times samples)[k]? = some (s.tMs.toNat : ℤ) := by
      rw [times_getElem?, hk]
      rfl
    have hc' : (times samples)[i]? = some (center.tMs.toNat : ℤ) := by
      rw [times_getElem?, hc]
      rfl
    exact Int.ofNat_le.1 (Nearest.le_of_index hs hlt hs' hc')
  · rw [Option.some.inj (hk.symm.trans hc)]

theorem robustSampleFlow_before {f : ℚ} {iBefore : ℕ}
    (h : robustSampleFlow samples i hint = some (f, iBefore)) :
    ∃ center, samples[i]? = some center ∧
      findNearestSample samples (windowStart center.tMs) hint = some iBefore := by
  unfold robustSampleFlow at h
  obtain ⟨center, hc, h⟩ := Option.bind_eq_some_iff.1 h
  obtain ⟨iBefore', hbefore, h⟩ := Option.bind_eq_some_iff.1 h
  obtain ⟨iAfter, -, h⟩ := Option.bind_eq_some_iff.1 h
  obtain ⟨flow, -, h⟩ := Option.bind_eq_some_iff.1 h
  rw [← (Prod.mk.inj (Option.some.inj h)).2]
  exact ⟨center, hc, hbefore⟩

/-- The start of the window of a sample is found at or before it. -/
theorem findNearestSample_le (hs : (times samples).Pairwise (· ≤ ·)) {center : Sample}
    (hc : samples[i]? = some center) (hhint : hint ≤ i) {j : ℕ}
    (h : findNearestSample samples (windowStart center.tMs) hint = some j) : j ≤ i := by
  have hlt := (List.getElem?_eq_some_iff.1 hc).1
  obtain ⟨first, hfirst⟩ : ∃ first, samples[hint]? = some first :=
    ⟨_, List.getElem?_eq_getElem (lt_of_le_of_lt hhint hlt)⟩
  have hmax := missMs_windowStart (time_le_of_index hs hfirst hc hhint)
  obtain ⟨k, t, hfind, hk⟩ := findNearestSample_nearest hs hfirst hmax
  have hcenter : ((times samples).drop hint)[i - hint]? = some (center.tMs.toNat : ℤ) := by
    rw [List.getElem?_drop, Nat.add_sub_cancel' hhint, times_getElem?, hc]
    rfl
  have hle := hk.le_of_past (hs.sublist (List.drop_sublist _ _)) hcenter (by
    rw [toNat_windowStart]
    omega)
  rw [hfind] at h
  have := Option.some.inj h
  omega

theorem flowSweep_succ (samples : List Sample) (n : ℕ) :
    flowSweep samples (n + 1) =
      match robustSampleFlow samples n (flowSweep samples n).2 with
      | some (f, beforeHint) => ((flowSweep samples n).1 ++ [some f], beforeHint)
      | none => ((flowSweep samples n).1 ++ [none], (flowSweep samples n).2) := by
  unfold flowSweep
  rw [List.range_succ, List.foldl_append]
  rfl

/-- The hint is the first sample, or the one nearest to the start of an earlier window. -/
def HintFrom (samples : List Sample) (n hint : ℕ) : Prop :=
  hint = 0 ∨ ∃ i < n, ∃ center t, samples[i]? = some center ∧
    Nearest (times samples) (windowStart center.tMs).toNat hint t

/-- **Step lemma.** With such a hint the search finds what a search of all samples finds. -/
theorem findNearestSample_hintFrom (hs : (times samples).Pairwise (· ≤ ·)) {center : Sample}
    (hc : samples[i]? = some center) (hhint : HintFrom samples i hint) :
    ∃ j t, findNearestSample samples (windowStart center.tMs) hint = some j ∧
      findNearestSample samples (windowStart center.tMs) 0 = some j ∧
      Nearest (times samples) (windowStart center.tMs).toNat j t ∧ j ≤ i := by
  have hlt := (List.getElem?_eq_some_iff.1 hc).1
  obtain ⟨first, hzero⟩ : ∃ first, samples[0]? = some first :=
    ⟨_, List.getElem?_eq_getElem (Nat.zero_lt_of_lt hlt)⟩
  obtain ⟨j, t, hfind, hj⟩ := findNearestSample_nearest hs hzero
    (missMs_windowStart (time_le_of_index hs hzero hc (Nat.zero_le i)))
  rw [List.drop_zero] at hj
  rw [Nat.zero_add] at hfind
  have hji : j ≤ i := findNearestSample_le hs hc (Nat.zero_le i) hfind
  have hle : hint ≤ j := by
    rcases hhint with rfl | ⟨k, hk, center', t', hc', hnear⟩
    · exact Nat.zero_le j
    · refine hnear.mono hs ?_ hj
      have hearlier := time_le_of_index hs hc' hc (Nat.le_of_lt hk)
      rw [toNat_windowStart, toNat_windowStart]
      omega
  obtain ⟨first, hfirst⟩ : ∃ first, samples[hint]? = some first :=
    ⟨_, List.getElem?_eq_getElem (lt_of_le_of_lt (hle.trans hji) hlt)⟩
  exact ⟨j, t, findNearestSample_of_nearest hs hfirst
    (missMs_windowStart (time_le_of_index hs hfirst hc (hle.trans hji))) hj hle, hfind, hj, hji⟩

/-- **Run lemma.** -/
theorem hintFrom_flowSweep (hs : (times samples).Pairwise (· ≤ ·)) (n : ℕ) :
    HintFrom samples n (flowSweep samples n).2 := by
  induction n with
  | zero => exact .inl rfl
  | succ n ih =>
    rw [flowSweep_succ]
    cases hf : robustSampleFlow samples n (flowSweep samples n).2 with
    | none =>
      rcases ih with hzero | ⟨i, hi, hnear⟩
      · exact .inl hzero
      · exact .inr ⟨i, Nat.lt_succ_of_lt hi, hnear⟩
    | some flow =>
      obtain ⟨f, iBefore⟩ := flow
      obtain ⟨center, hc, hbefore⟩ := robustSampleFlow_before hf
      obtain ⟨j, t, hj, -, hnear, -⟩ := findNearestSample_hintFrom hs hc ih
      obtain rfl : iBefore = j := Option.some.inj (hbefore.symm.trans hj)
      exact .inr ⟨n, Nat.lt_succ_self n, center, t, hc, hnear⟩

end

theorem times_sorted {samples : List Sample} (hs : (samples.map Sample.tMs).Pairwise (· ≤ ·)) :
    (times samples).Pairwise (· ≤ ·) := by
  unfold times
  rw [List.pairwise_map] at hs ⊢
  exact hs.imp fun hab => Int.ofNat_le.2 hab

/-- **Result.** In a sweep over the samples every flow is the one that a search of all samples
gives, from the same neighbours; the one before the window is the first of the samples nearest to
its start. -/
theorem robustSampleFlow_hint_free (samples : List Sample)
    (hs : (samples.map Sample.tMs).Pairwise (· ≤ ·)) :
    (∀ i, robustSampleFlow samples i (flowSweep samples i).2 = robustSampleFlow samples i 0) ∧
      ∀ i center, samples[i]? = some center → ∃ iBefore t,
        findNearestSample samples (windowStart center.tMs) (flowSweep samples i).2 = some iBefore ∧
        findNearestSample samples (windowStart center.tMs) 0 = some iBefore ∧
        Nearest (times samples) (windowStart center.tMs).toNat iBefore t := by
  have hsearch (i : ℕ) (center : Sample) (hc : samples[i]? = some center) :=
    findNearestSample_hintFrom (times_sorted hs) hc (hintFrom_flowSweep (times_sorted hs) i)
  constructor
  · intro i
    unfold robustSampleFlow
    cases hc : samples[i]? with
    | none => rfl
    | some center =>
      obtain ⟨j, t, hj, hzero, -, -⟩ := hsearch i center hc
      show (findNearestSample samples (windowStart center.tMs) (flowSweep samples i).2).bind _ =
        (findNearestSample samples (windowStart center.tMs) 0).bind _
      rw [hj, hzero]
  · intro i center hc
    obtain ⟨j, t, hj, hzero, hnear, -⟩ := hsearch i center hc
    exact ⟨j, t, hj, hzero, hnear⟩

/-- Samples with equal times, ties and a gap. -/
def unevenSamples : List Sample :=
  [0, 250, 250, 600, 1100, 1100, 1600, 4000, 4100].map fun tMs => { tMs := tMs, cg := 100 }

theorem robustSampleFlow_hint_free_uneven :
    (flowSweep unevenSamples 6).2 = 3 ∧
      robustSampleFlow unevenSamples 6 (flowSweep unevenSamples 6).2 =
        robustSampleFlow unevenSamples 6 0 :=
  ⟨by decide +kernel, (robustSampleFlow_hint_free unevenSamples (by decide)).1 6⟩

end Pumpbug
