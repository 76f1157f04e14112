import Pumpbug.NearestSample
import Pumpbug.Lib.Hold
import Pumpbug.Web.RobustFlow
import Mathlib.Tactic.Ring
import Mathlib.Tactic.FieldSimp

/-!
# Two flow series

The firmware's flow series against the browser's port, on times that stay clear of the wrap of the
millisecond counter.  The flows agree sample by sample; the reductions are both sustained peaks, the
firmware's over the newest values of each window only.
-/

namespace Pumpbug.FlowAgreement

open Lib Web.RobustFlow

/-! ## Series -/

/-- The time of a sample as the browser unwraps it. -/
def unwrapped (beginMs : U32) (s : Sample) : ℤ := beginMs.toNat + (s.tMs - beginMs).toNat

/-- The browser's point of a sample; weights are relative to a baseline. -/
def point (beginMs : U32) (baseline : ℚ) (s : Sample) : Pt :=
  ⟨unwrapped beginMs s, (s.cg.toInt : ℚ) / 100 - baseline, s.scaleTimerMs.toNat⟩

/-- The times do not decrease, and no window reaches the wrap of the counter. -/
structure Clear (beginMs : U32) (samples : List Sample) : Prop where
  sorted : (samples.map (unwrapped beginMs)).Pairwise (· ≤ ·)
  early : ∀ s ∈ samples, unwrapped beginMs s + 500 < 2 ^ 32

/-- The point of a sample at its own time. -/
def pt (baseline : ℚ) (s : Sample) : Pt :=
  ⟨s.tMs.toNat, (s.cg.toInt : ℚ) / 100 - baseline, s.scaleTimerMs.toNat⟩

/-- What `Clear` says of the times as they are stored. -/
structure Plain (samples : List Sample) : Prop where
  sorted : samples.Pairwise fun a b => a.tMs.toNat ≤ b.tMs.toNat
  early : ∀ s ∈ samples, s.tMs.toNat + 500 < 2 ^ 32

theorem unwrapped_eq {beginMs : U32} {s : Sample} (h : unwrapped beginMs s < 2 ^ 32) :
    unwrapped beginMs s = s.tMs.toNat := by
  unfold unwrapped at h ⊢
  rw [BitVec.toNat_sub] at h ⊢
  have := s.tMs.isLt
  have := beginMs.isLt
  omega

theorem Plain.times {samples : List Sample} (h : Plain samples) :
    (times samples).Pairwise (· ≤ ·) := by
  unfold Pumpbug.times
  rw [List.pairwise_map]
  exact h.sorted.imp fun hab => Int.ofNat_le.2 hab

section

variable {beginMs : U32} {samples : List Sample}

theorem Clear.time (h : Clear beginMs samples) {s : Sample} (hs : s ∈ samples) :
    unwrapped beginMs s = s.tMs.toNat := by
  have := h.early s hs
  exact unwrapped_eq (by omega)

theorem Clear.plain (h : Clear beginMs samples) : Plain samples where
  sorted := by
    refine (List.pairwise_map.1 h.sorted).imp_of_mem fun ha hb hab => ?_
    rw [h.time ha, h.time hb] at hab
    omega
  early s hs := by
    have := h.early s hs
    rw [h.time hs] at this
    omega

theorem Clear.points (h : Clear beginMs samples) (baseline : ℚ) :
    samples.map (point beginMs baseline) = samples.map (pt baseline) := by
  refine List.map_congr_left fun s hs => ?_
  unfold point pt
  rw [h.time hs]

end

/-! ## Edges -/

theorem hasScaleTimer_pt (baseline : ℚ) (s : Sample) :
    hasScaleTimer (pt baseline s) = sampleHasScaleTimer s := by
  unfold hasScaleTimer sampleHasScaleTimer ScaleTime.isKnown pt
  rw [decide_eq_decide]
  constructor
  · intro h heq
    exact h (by rw [heq]; rfl)
  · intro h heq
    refine h (BitVec.eq_of_toNat_eq ?_)
    have hmax : (s.scaleTimerMs.toNat : ℤ) = 0xFFFFFFFF := heq
    show s.scaleTimerMs.toNat = 0xFFFFFFFF
    omega

/-- In the order of the samples, elapsed times agree. -/
theorem flowDeltaMs_pt (baseline : ℚ) {before after : Sample}
    (h : before.tMs.toNat ≤ after.tMs.toNat) :
    Web.RobustFlow.flowDeltaMs (pt baseline before) (pt baseline after) =
      (Pumpbug.flowDeltaMs before after).toNat := by
  have hhost : (((after.tMs - before.tMs).toNat : ℕ) : ℤ) = after.tMs.toNat - before.tMs.toNat := by
    rw [BitVec.toNat_sub_of_le h]
    omega
  have hscale (hlt : before.scaleTimerMs < after.scaleTimerMs) :
      (((after.scaleTimerMs - before.scaleTimerMs).toNat : ℕ) : ℤ) =
        after.scaleTimerMs.toNat - before.scaleTimerMs.toNat := by
    have : before.scaleTimerMs.toNat < after.scaleTimerMs.toNat := hlt
    rw [BitVec.toNat_sub_of_le (BitVec.le_of_lt hlt)]
    omega
  unfold Web.RobustFlow.flowDeltaMs Pumpbug.flowDeltaMs
  rw [hasScaleTimer_pt, hasScaleTimer_pt]
  dsimp only
  by_cases htrusted : (sampleHasScaleTimer before && sampleHasScaleTimer after &&
      decide (before.scaleTimerMs < after.scaleTimerMs)) = true
  · have hlt : before.scaleTimerMs < after.scaleTimerMs := by
      simp only [Bool.and_eq_true, decide_eq_true_eq] at htrusted
      exact htrusted.2
    have htrusted' : (sampleHasScaleTimer before && sampleHasScaleTimer after &&
        decide ((pt baseline before).scaleTimerMs < (pt baseline after).scaleTimerMs)) = true := by
      have hnat : (pt baseline before).scaleTimerMs < (pt baseline after).scaleTimerMs := by
        have : before.scaleTimerMs.toNat < after.scaleTimerMs.toNat := hlt
        show (before.scaleTimerMs.toNat : ℤ) < after.scaleTimerMs.toNat
        omega
      simp only [Bool.and_eq_true, decide_eq_true_eq] at htrusted ⊢
      exact ⟨htrusted.1, hnat⟩
    rw [if_pos htrusted, if_pos htrusted']
    have hdrift : (((if after.tMs - before.tMs < after.scaleTimerMs - before.scaleTimerMs then
        after.scaleTimerMs - before.scaleTimerMs - (after.tMs - before.tMs)
        else after.tMs - before.tMs - (after.scaleTimerMs - before.scaleTimerMs)).toNat : ℕ) : ℤ) =
        |((after.scaleTimerMs - before.scaleTimerMs).toNat : ℤ) - (after.tMs - before.tMs).toNat| :=
      toNat_missMs _ _
    set drift := if after.tMs - before.tMs < after.scaleTimerMs - before.scaleTimerMs then
        after.scaleTimerMs - before.scaleTimerMs - (after.tMs - before.tMs)
        else after.tMs - before.tMs - (after.scaleTimerMs - before.scaleTimerMs) with hdriftdef
    rw [hscale hlt, hhost] at hdrift
    have hclose : |(pt baseline after).scaleTimerMs - (pt baseline before).scaleTimerMs -
        ((pt baseline after).tMs - (pt baseline before).tMs)| ≤
          K_FLOW_SCALE_TIMER_DRIFT_TOLERANCE_MS ↔ drift ≤ kFlowScaleTimerDriftToleranceMs := by
      show |((after.scaleTimerMs.toNat : ℤ) - before.scaleTimerMs.toNat) -
        ((after.tMs.toNat : ℤ) - before.tMs.toNat)| ≤ 250 ↔ drift.toNat ≤ 250
      rw [← hdrift]
      omega
    by_cases hdr : drift ≤ kFlowScaleTimerDriftToleranceMs
    · rw [if_pos hdr, if_pos (hclose.2 hdr), hscale hlt]
      rfl
    · rw [if_neg hdr, if_neg fun h => hdr (hclose.1 h), hhost]
      rfl
  · have htrusted' : ¬ (sampleHasScaleTimer before && sampleHasScaleTimer after &&
        decide ((pt baseline before).scaleTimerMs < (pt baseline after).scaleTimerMs)) = true := by
      intro hyes
      simp only [Bool.and_eq_true, decide_eq_true_eq] at htrusted hyes
      refine htrusted ⟨hyes.1, ?_⟩
      have : (before.scaleTimerMs.toNat : ℤ) < after.scaleTimerMs.toNat := hyes.2
      show before.scaleTimerMs.toNat < after.scaleTimerMs.toNat
      omega
    rw [if_neg htrusted, if_neg htrusted', hhost]
    rfl

theorem isNonPourStep_toNat (rawStepCg : ℤ) (dt : U32) :
    Web.RobustFlow.isNonPourStep rawStepCg dt.toNat = Pumpbug.isNonPourStep rawStepCg dt := by
  have hlimit : Web.RobustFlow.positiveStepLimitCg dt.toNat = Pumpbug.positiveStepLimitCg dt := by
    have hmin : (if (dt.toNat : ℤ) < K_MAX_SAMPLE_GAP_MS then (dt.toNat : ℤ) else K_MAX_SAMPLE_GAP_MS) =
        ((if dt < kMaxSampleGapMs then dt else kMaxSampleGapMs).toNat : ℤ) := by
      by_cases hlt : dt < kMaxSampleGapMs
      · have : dt.toNat < 750 := hlt
        rw [if_pos hlt, if_pos (by show (dt.toNat : ℤ) < 750; omega)]
      · have : ¬ dt.toNat < 750 := hlt
        rw [if_neg hlt, if_neg (by show ¬ (dt.toNat : ℤ) < 750; omega)]
        rfl
    unfold Web.RobustFlow.positiveStepLimitCg Pumpbug.positiveStepLimitCg
    dsimp only
    rw [hmin, Int.cast_natCast]
    rfl
  unfold Web.RobustFlow.isNonPourStep Pumpbug.isNonPourStep
  rw [hlimit]
  rfl

theorem isSteepDownwardSlope_toNat (rawStepCg : ℤ) (dt : U32) :
    Web.RobustFlow.isSteepDownwardSlope rawStepCg dt.toNat =
      Pumpbug.isSteepDownwardSlope rawStepCg dt := by
  have hzero : (0 ≤ rawStepCg ∨ (dt.toNat : ℤ) = 0) ↔ (0 ≤ rawStepCg ∨ dt = 0) := by
    refine or_congr Iff.rfl ?_
    constructor
    · intro h
      refine BitVec.eq_of_toNat_eq ?_
      show dt.toNat = 0
      omega
    · rintro rfl
      rfl
  unfold Web.RobustFlow.isSteepDownwardSlope Pumpbug.isSteepDownwardSlope
  by_cases h : 0 ≤ rawStepCg ∨ dt = 0
  · rw [if_pos h, if_pos (hzero.2 h)]
  · rw [if_neg h, if_neg fun h' => h (hzero.1 h')]
    push_cast
    rfl

theorem isFlowBreakEdge_toNat (rawStepCg : ℤ) (dt : U32) :
    Web.RobustFlow.isFlowBreakEdge rawStepCg dt.toNat = Pumpbug.isFlowBreakEdge rawStepCg dt := by
  unfold Web.RobustFlow.isFlowBreakEdge Pumpbug.isFlowBreakEdge
  rw [isNonPourStep_toNat, isSteepDownwardSlope_toNat]

/-- The weight step is recovered exactly; the baseline cancels. -/
theorem mathRound_step (baseline : ℚ) (before after : Sample) :
    mathRound (((pt baseline after).g - (pt baseline before).g) * 100) =
      after.cg.toInt - before.cg.toInt := by
  have hstep : ((pt baseline after).g - (pt baseline before).g) * 100 =
      ((after.cg.toInt - before.cg.toInt : ℤ) : ℚ) := by
    unfold pt
    push_cast
    ring
  unfold mathRound
  rw [hstep, Int.floor_intCast_add]
  norm_num

theorem crossesBreak_pt (baseline : ℚ) {window : List Sample}
    (h : window.Pairwise fun a b => a.tMs.toNat ≤ b.tMs.toNat) :
    Web.RobustFlow.crossesBreak (window.map (pt baseline)) = Pumpbug.crossesBreak window := by
  induction window with
  | nil => rfl
  | cons before window ih =>
    cases window with
    | nil => rfl
    | cons after rest =>
      obtain ⟨hhead, htail⟩ := List.pairwise_cons.1 h
      have hdelta := flowDeltaMs_pt baseline (hhead after List.mem_cons_self)
      have hrest := ih htail
      rw [List.map_cons] at hrest
      rw [List.map_cons, List.map_cons, Web.RobustFlow.crossesBreak, Pumpbug.crossesBreak,
        mathRound_step, hdelta, isFlowBreakEdge_toNat, hrest]

/-! ## The search -/

/-- Both scans, while no distance reaches the largest one that is held as "none yet". -/
theorem nearestScan_pt (baseline : ℚ) (target : U32) {l : List Sample}
    (hfar : ∀ s ∈ l, missMs s.tMs target < UINT32_MAX) (i : ℕ) (best : Option ℕ) (bestDelta : U32)
    {delta : Option ℤ} (hdelta : (delta = none ∧ bestDelta = UINT32_MAX) ∨
      (delta = some (bestDelta.toNat : ℤ) ∧ bestDelta < UINT32_MAX)) :
    Web.RobustFlow.nearestScan target.toNat i (l.map (pt baseline)) best delta =
      Pumpbug.nearestScan target i l best bestDelta := by
  induction l generalizing i best bestDelta delta with
  | nil => rfl
  | cons s rest ih =>
    have hs : missMs s.tMs target < UINT32_MAX := hfar s List.mem_cons_self
    have hmiss : |(pt baseline s).tMs - target.toNat| = ((missMs s.tMs target).toNat : ℤ) :=
      (toNat_missMs s.tMs target).symm
    have hpassed : (target.toNat : ℤ) < (pt baseline s).tMs ↔ target < s.tMs := by
      show (target.toNat : ℤ) < s.tMs.toNat ↔ target.toNat < s.tMs.toNat
      omega
    have hrest := fun s hs => hfar s (List.mem_cons_of_mem _ hs)
    rw [List.map_cons, Web.RobustFlow.nearestScan, Pumpbug.nearestScan]
    dsimp only
    rw [hmiss]
    have hbetter : delta.all (fun b => decide (((missMs s.tMs target).toNat : ℤ) < b)) = true ↔
        missMs s.tMs target < bestDelta := by
      rcases hdelta with ⟨rfl, rfl⟩ | ⟨rfl, -⟩
      · simpa using hs
      · rw [Option.all_some, decide_eq_true_eq]
        show ((missMs s.tMs target).toNat : ℤ) < bestDelta.toNat ↔
          (missMs s.tMs target).toNat < bestDelta.toNat
        omega
    by_cases hlt : missMs s.tMs target < bestDelta
    · rw [if_pos (hbetter.2 hlt), if_pos hlt]
      dsimp only
      by_cases hpast : target < s.tMs
      · rw [if_pos ⟨hpassed.2 hpast, rfl⟩, if_pos ⟨hpast, hs⟩]
      · rw [if_neg fun h => hpast (hpassed.1 h.1), if_neg fun h => hpast h.1]
        exact ih hrest _ _ _ (.inr ⟨rfl, hs⟩)
    · rw [if_neg fun h => hlt (hbetter.1 h), if_neg hlt]
      dsimp only
      have hsome : delta = some (bestDelta.toNat : ℤ) ∧ bestDelta < UINT32_MAX := by
        rcases hdelta with ⟨-, rfl⟩ | hsome
        · exact absurd hs hlt
        · exact hsome
      by_cases hpast : target < s.tMs
      · rw [if_pos ⟨hpassed.2 hpast, by rw [hsome.1]; rfl⟩, if_pos ⟨hpast, hsome.2⟩]
      · rw [if_neg fun h => hpast (hpassed.1 h.1), if_neg fun h => hpast h.1]
        exact ih hrest _ _ _ (.inr hsome)

/-- What is found is one of the scanned indices. -/
theorem nearestScan_of {P : ℕ → Prop} (target : U32) {l : List Sample} (i : ℕ) {best : Option ℕ}
    (bestDelta : U32) (hbest : ∀ j, best = some j → P j) (hscan : ∀ k < l.length, P (i + k)) :
    ∀ j, Pumpbug.nearestScan target i l best bestDelta = some j → P j := by
  induction l generalizing i best bestDelta with
  | nil => exact hbest
  | cons s rest ih =>
    rw [Pumpbug.nearestScan]
    dsimp only
    have hbest' : ∀ j, (if missMs s.tMs target < bestDelta then (some i, missMs s.tMs target)
        else (best, bestDelta)).1 = some j → P j := by
      intro j hj
      by_cases hlt : missMs s.tMs target < bestDelta
      · rw [if_pos hlt] at hj
        rw [← Option.some.inj hj]
        exact hscan 0 (Nat.zero_lt_succ _)
      · rw [if_neg hlt] at hj
        exact hbest j hj
    generalize (if missMs s.tMs target < bestDelta then (some i, missMs s.tMs target)
        else (best, bestDelta)) = next at hbest' ⊢
    obtain ⟨best', bestDelta'⟩ := next
    dsimp only at hbest' ⊢
    split_ifs
    · exact hbest'
    · refine ih (i + 1) bestDelta' hbest' fun k hk => ?_
      rw [Nat.add_assoc, Nat.add_comm 1 k]
      exact hscan (k + 1) (Nat.succ_lt_succ hk)

section

variable {samples : List Sample} {target : U32} {hint j : ℕ}

theorem findNearestSample_pt (baseline : ℚ)
    (hfar : ∀ s ∈ samples.drop hint, missMs s.tMs target < UINT32_MAX) :
    Web.RobustFlow.findNearestSample (samples.map (pt baseline)) target.toNat hint =
      Pumpbug.findNearestSample samples target hint := by
  unfold Web.RobustFlow.findNearestSample Pumpbug.findNearestSample
  rw [← List.map_drop]
  exact nearestScan_pt baseline target hfar hint none UINT32_MAX (.inl ⟨rfl, rfl⟩)

theorem findNearestSample_bounds (h : Pumpbug.findNearestSample samples target hint = some j) :
    hint ≤ j ∧ j < samples.length := by
  refine nearestScan_of (P := fun j => hint ≤ j ∧ j < samples.length) target hint UINT32_MAX
    (fun _ hnone => absurd hnone.symm (Option.some_ne_none _)) (fun k hk => ?_) j h
  rw [List.length_drop] at hk
  omega

end

/-! ## The flow at a sample -/

section

variable {samples : List Sample} {i hint : ℕ}

theorem windowStart_toNat (tCenter : U32) :
    Web.RobustFlow.windowStart tCenter.toNat = (Pumpbug.windowStart tCenter).toNat := by
  have hhalf : K_FLOW_HALF_WINDOW_MS = 500 := rfl
  unfold Web.RobustFlow.windowStart Pumpbug.windowStart
  by_cases h : kFlowHalfWindowMs < tCenter
  · have hnat : 500 < tCenter.toNat := h
    rw [if_pos h, hhalf, if_pos (by omega), BitVec.toNat_sub_of_le (BitVec.le_of_lt h)]
    show (tCenter.toNat : ℤ) - 500 = ((tCenter.toNat - 500 : ℕ) : ℤ)
    omega
  · have hnat : ¬ 500 < tCenter.toNat := h
    rw [if_neg h, hhalf, if_neg (by omega)]
    rfl

theorem windowEnd_toNat {tCenter : U32} (h : tCenter.toNat + 500 < 2 ^ 32) :
    Web.RobustFlow.windowEnd tCenter.toNat = (Pumpbug.windowEnd tCenter).toNat := by
  have hhalf : kFlowHalfWindowMs.toNat = 500 := rfl
  unfold Web.RobustFlow.windowEnd Pumpbug.windowEnd
  rw [BitVec.toNat_add, hhalf, Nat.mod_eq_of_lt h]
  rfl

/-- The neighbours of a window in the order of the samples give the same flow. -/
theorem windowFlow_pt (h : Plain samples) (baseline : ℚ) {tCenter : U32}
    (hearly : tCenter.toNat + 500 < 2 ^ 32) {iBefore iAfter : ℕ} (hle : iBefore ≤ iAfter) :
    Web.RobustFlow.windowFlow (samples.map (pt baseline)) tCenter.toNat iBefore iAfter =
      Pumpbug.windowFlow samples tCenter iBefore iAfter := by
  unfold Web.RobustFlow.windowFlow Pumpbug.windowFlow
  rw [List.getElem?_map, List.getElem?_map, windowStart_toNat, windowEnd_toNat hearly]
  cases hb : samples[iBefore]? with
  | none => rfl
  | some before =>
    cases ha : samples[iAfter]? with
    | none => rfl
    | some after =>
      rw [Option.map_some, Option.map_some]
      dsimp only
      by_cases hsame : iBefore = iAfter
      · rw [if_pos hsame, if_pos hsame]
      · rw [if_neg hsame, if_neg hsame]
        have horder : before.tMs.toNat ≤ after.tMs.toNat := by
          obtain ⟨hb', rfl⟩ := List.getElem?_eq_some_iff.1 hb
          obtain ⟨ha', rfl⟩ := List.getElem?_eq_some_iff.1 ha
          exact List.pairwise_iff_getElem.1 h.sorted iBefore iAfter hb' ha' (by omega)
        have hgap : (K_FLOW_HALF_WINDOW_MS <
              |(pt baseline before).tMs - (Pumpbug.windowStart tCenter).toNat| ∨
            K_FLOW_HALF_WINDOW_MS <
              |(pt baseline after).tMs - (Pumpbug.windowEnd tCenter).toNat|) ↔
            (kFlowHalfWindowMs < missMs before.tMs (Pumpbug.windowStart tCenter) ∨
              kFlowHalfWindowMs < missMs after.tMs (Pumpbug.windowEnd tCenter)) := by
          have hmiss (s : Sample) (target : U32) :
              K_FLOW_HALF_WINDOW_MS < |(pt baseline s).tMs - target.toNat| ↔
                kFlowHalfWindowMs < missMs s.tMs target := by
            show (500 : ℤ) < |(s.tMs.toNat : ℤ) - target.toNat| ↔ 500 < (missMs s.tMs target).toNat
            rw [← toNat_missMs]
            omega
          exact or_congr (hmiss before _) (hmiss after _)
        by_cases hfar : kFlowHalfWindowMs < missMs before.tMs (Pumpbug.windowStart tCenter) ∨
            kFlowHalfWindowMs < missMs after.tMs (Pumpbug.windowEnd tCenter)
        · rw [if_pos hfar, if_pos (hgap.2 hfar)]
        · rw [if_neg hfar, if_neg fun hf => hfar (hgap.1 hf)]
          have hbreak : Web.RobustFlow.windowCrossesBreak (samples.map (pt baseline)) iBefore iAfter =
              Pumpbug.windowCrossesBreak samples iBefore iAfter := by
            unfold Web.RobustFlow.windowCrossesBreak Pumpbug.windowCrossesBreak
            rw [← List.map_take, ← List.map_drop]
            exact crossesBreak_pt baseline
              (h.sorted.sublist ((List.drop_sublist _ _).trans (List.take_sublist _ _)))
          have hdg : (pt baseline after).g - (pt baseline before).g =
              ((after.cg.toInt - before.cg.toInt : ℤ) : ℚ) / 100 := by
            unfold pt
            push_cast
            ring
          have hzero : ((Pumpbug.flowDeltaMs before after).toNat : ℤ) ≤ 0 ↔
              Pumpbug.flowDeltaMs before after = 0 := by
            rw [← BitVec.toNat_inj]
            show _ ↔ _ = 0
            omega
          rw [hbreak, flowDeltaMs_pt baseline horder, hdg, Int.cast_natCast]
          split_ifs with hcross hle' hne hne
          · rfl
          · rfl
          · exact absurd (hzero.1 hle') hne
          · exact absurd (hzero.2 hne) hle'
          · rfl

/-- The hint stays at or before the sample. -/
theorem robustSampleFlow_hint (h : Plain samples) (hhint : hint ≤ i) {f : ℚ} {hint' : ℕ}
    (hf : robustSampleFlow samples i hint = some (f, hint')) : hint' ≤ i := by
  obtain ⟨center, hc, hbefore⟩ := robustSampleFlow_before hf
  exact findNearestSample_le h.times hc hhint hbefore

/-- **The flows agree.** At every sample, from a hint at or before it. -/
theorem sampleFlow_pt (h : Plain samples) (baseline : ℚ) (hhint : hint ≤ i) :
    sampleFlow (samples.map (pt baseline)) i hint = robustSampleFlow samples i hint := by
  unfold sampleFlow robustSampleFlow
  rw [List.getElem?_map]
  cases hc : samples[i]? with
  | none => rfl
  | some center =>
    have hearly := h.early center (List.mem_of_getElem? hc)
    have htime : (pt baseline center).tMs = center.tMs.toNat := rfl
    have hend : (Pumpbug.windowEnd center.tMs).toNat = center.tMs.toNat + 500 := by
      have := windowEnd_toNat hearly
      unfold Web.RobustFlow.windowEnd K_FLOW_HALF_WINDOW_MS at this
      omega
    have hstart := toNat_windowStart center.tMs
    have hbefore : ∀ s ∈ samples.drop hint,
        missMs s.tMs (Pumpbug.windowStart center.tMs) < UINT32_MAX := by
      intro s hs
      have hs' := h.early s (List.mem_of_mem_drop hs)
      have hmiss := toNat_missMs s.tMs (Pumpbug.windowStart center.tMs)
      show (missMs s.tMs (Pumpbug.windowStart center.tMs)).toNat < 0xFFFFFFFF
      rcases abs_cases ((s.tMs.toNat : ℤ) - (Pumpbug.windowStart center.tMs).toNat) with ⟨ha, -⟩ | ⟨ha, -⟩
      · omega
      · omega
    have hafter : ∀ s ∈ samples.drop i,
        missMs s.tMs (Pumpbug.windowEnd center.tMs) < UINT32_MAX := by
      intro s hs
      have hs' := h.early s (List.mem_of_mem_drop hs)
      have hmiss := toNat_missMs s.tMs (Pumpbug.windowEnd center.tMs)
      have horder : center.tMs.toNat ≤ s.tMs.toNat := by
        obtain ⟨hlt, rfl⟩ := List.getElem?_eq_some_iff.1 hc
        have hsorted := h.sorted.sublist (List.drop_sublist i samples)
        rw [List.drop_eq_getElem_cons hlt] at hsorted hs
        rcases List.mem_cons.1 hs with rfl | hs
        · exact Nat.le_refl _
        · exact (List.pairwise_cons.1 hsorted).1 s hs
      show (missMs s.tMs (Pumpbug.windowEnd center.tMs)).toNat < 0xFFFFFFFF
      rcases abs_cases ((s.tMs.toNat : ℤ) - (Pumpbug.windowEnd center.tMs).toNat) with ⟨ha, -⟩ | ⟨ha, -⟩
      · omega
      · omega
    show (Web.RobustFlow.findNearestSample (samples.map (pt baseline))
        (Web.RobustFlow.windowStart center.tMs.toNat) hint).bind _ =
      (Pumpbug.findNearestSample samples (Pumpbug.windowStart center.tMs) hint).bind _
    rw [windowStart_toNat, findNearestSample_pt baseline hbefore]
    cases hb : Pumpbug.findNearestSample samples (Pumpbug.windowStart center.tMs) hint with
    | none => rfl
    | some iBefore =>
      show (Web.RobustFlow.findNearestSample (samples.map (pt baseline))
          (Web.RobustFlow.windowEnd center.tMs.toNat) i).bind _ =
        (Pumpbug.findNearestSample samples (Pumpbug.windowEnd center.tMs) i).bind _
      rw [windowEnd_toNat hearly, findNearestSample_pt baseline hafter]
      cases ha : Pumpbug.findNearestSample samples (Pumpbug.windowEnd center.tMs) i with
      | none => rfl
      | some iAfter =>
        have hle : iBefore ≤ iAfter :=
          (findNearestSample_le h.times hc hhint hb).trans (findNearestSample_bounds ha).1
        show (Web.RobustFlow.windowFlow _ center.tMs.toNat iBefore iAfter).bind _ =
          (Pumpbug.windowFlow samples center.tMs iBefore iAfter).bind _
        rw [windowFlow_pt h baseline hearly hle]

end

end Pumpbug.FlowAgreement
