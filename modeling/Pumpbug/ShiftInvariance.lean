import Pumpbug.EvidenceGrowth

/-!
# Tares and clocks

Two runs of pour detection, the second over the same readings on a scale with another zero and under
a clock that started at another time.  Every decision is the same; every remembered weight is larger
by the difference of the zeros.
-/

namespace Pumpbug

open Lib

variable {τ : U32} {d : ℤ}

/-- A reading under another clock, on a scale with another zero. -/
def Sample.shift (τ : U32) (d : ℤ) (s : Sample) : Sample :=
  { s with tMs := s.tMs + τ, cg := i16 (s.cg.toInt + d) }

/-- A weight that can be read on the other scale. -/
def InRange (d : ℤ) (cg : I16) : Prop := -32768 ≤ cg.toInt + d ∧ cg.toInt + d ≤ 32767

instance (d : ℤ) (cg : I16) : Decidable (InRange d cg) := inferInstanceAs (Decidable (_ ∧ _))

theorem sub_shift (t₁ t₂ τ : U32) : t₁ + τ - (t₂ + τ) = t₁ - t₂ := by
  bv_omega

theorem shift_inj (t₁ t₂ τ : U32) : t₁ + τ = t₂ + τ ↔ t₁ = t₂ := by
  constructor
  · intro h
    bv_omega
  · rintro rfl
    rfl

/-! ## The slope -/

section Slope

variable {α : Type} (pts : List α) (t w : α → ℚ) (c : ℚ)

theorem sum_add_const : (pts.map fun p => w p + c).sum = (pts.map w).sum + pts.length * c := by
  induction pts with
  | nil => simp
  | cons p pts ih =>
    rw [List.map_cons, List.sum_cons, ih, List.map_cons, List.sum_cons, List.length_cons]
    push_cast
    ring

theorem sum_mul_add_const : (pts.map fun p => t p * (w p + c)).sum =
    (pts.map fun p => t p * w p).sum + c * (pts.map t).sum := by
  induction pts with
  | nil => simp
  | cons p pts ih =>
    simp only [List.map_cons, List.sum_cons, ih]
    ring

/-- The numerator of a least-squares slope does not see a constant. -/
theorem covariance_add_const :
    pts.length * (pts.map fun p => t p * (w p + c)).sum -
        (pts.map t).sum * (pts.map fun p => w p + c).sum =
      pts.length * (pts.map fun p => t p * w p).sum - (pts.map t).sum * (pts.map w).sum := by
  rw [sum_add_const, sum_mul_add_const]
  ring

end Slope

/-! ## The estimator -/

namespace FlowPt

def shift (τ : U32) (d : ℤ) (p : FlowPt) : FlowPt := ⟨p.tMs + τ, i16 (p.cg.toInt + d)⟩

theorem toInt_shift {p : FlowPt} (h : InRange d p.cg) : (p.shift τ d).cg.toInt = p.cg.toInt + d :=
  toInt_i16 h.1 h.2

end FlowPt

namespace FlowEstimator

theorem windowTime_shift (newestT : U32) (p : FlowPt) :
    windowTime (newestT + τ) (p.shift τ d) = windowTime newestT p := by
  unfold windowTime FlowPt.shift
  rw [sub_shift]

theorem window_shift (ring : List FlowPt) (newestT : U32) :
    window (ring.map (FlowPt.shift τ d)) (newestT + τ) =
      (window ring newestT).map (FlowPt.shift τ d) := by
  unfold window
  rw [List.takeWhile_map]
  congr 2
  funext p
  show decide (newestT + τ - (p.tMs + τ) ≤ kWindowMs) = _
  rw [sub_shift]

theorem mem_window {ring : List FlowPt} {newestT : U32} {p : FlowPt} (h : p ∈ window ring newestT) :
    p ∈ ring := (List.takeWhile_prefix _).subset h

/-- The sums of the fit. -/
theorem sums_shift {pts : List FlowPt} (h : ∀ p ∈ pts, InRange d p.cg) (newestT : U32) :
    (pts.map (FlowPt.shift τ d)).map (windowTime (newestT + τ)) = pts.map (windowTime newestT) ∧
    (pts.map (FlowPt.shift τ d)).map (fun p => (p.cg.toInt : ℚ)) =
      pts.map (fun p => (p.cg.toInt : ℚ) + d) ∧
    ((pts.map (FlowPt.shift τ d)).map fun p =>
        windowTime (newestT + τ) p * windowTime (newestT + τ) p) =
      pts.map (fun p => windowTime newestT p * windowTime newestT p) ∧
    ((pts.map (FlowPt.shift τ d)).map fun p => windowTime (newestT + τ) p * (p.cg.toInt : ℚ)) =
      pts.map (fun p => windowTime newestT p * ((p.cg.toInt : ℚ) + d)) := by
  have hw : ∀ p ∈ pts, ((p.shift τ d).cg.toInt : ℚ) = (p.cg.toInt : ℚ) + d := by
    intro p hp
    rw [FlowPt.toInt_shift (h p hp), Int.cast_add]
  simp only [List.map_map]
  refine ⟨?_, ?_, ?_, ?_⟩
  · exact List.map_congr_left fun p _ => windowTime_shift newestT p
  · exact List.map_congr_left hw
  · refine List.map_congr_left fun p _ => ?_
    rw [Function.comp_apply, windowTime_shift]
  · refine List.map_congr_left fun p hp => ?_
    rw [Function.comp_apply, windowTime_shift, hw p hp]

theorem maxAge_shift (pts : List FlowPt) (newestT : U32) :
    (pts.map (FlowPt.shift τ d)).foldl (fun m p => max m (newestT + τ - p.tMs).toNat) 0 =
      pts.foldl (fun m p => max m (newestT - p.tMs).toNat) 0 := by
  rw [List.foldl_map]
  congr 1
  funext m p
  show max m (newestT + τ - (p.tMs + τ)).toNat = _
  rw [sub_shift]

/-- **The slope does not see the shift.** -/
theorem estimateRaw_shift {ring : List FlowPt} (h : ∀ p ∈ ring, InRange d p.cg) :
    estimateRaw (ring.map (FlowPt.shift τ d)) = estimateRaw ring := by
  cases ring with
  | nil => rfl
  | cons newest rest =>
    have hnewest : (newest.shift τ d).tMs = newest.tMs + τ := rfl
    have hin : ∀ p ∈ window (newest :: rest) newest.tMs, InRange d p.cg :=
      fun p hp => h p (mem_window hp)
    obtain ⟨hT, hW, hTT, hTW⟩ := @sums_shift τ d _ hin newest.tMs
    have hcov := covariance_add_const (window (newest :: rest) newest.tMs) (windowTime newest.tMs)
      (fun p => (p.cg.toInt : ℚ)) d
    rw [List.map_cons]
    unfold estimateRaw
    dsimp only
    rw [← List.map_cons, hnewest, window_shift, hT, hW, hTT, hTW, maxAge_shift, List.length_map,
      List.length_map, hcov]

/-- The two estimators over corresponding readings. -/
structure Shifted (τ : U32) (d : ℤ) (f f' : FlowEstimator) : Prop where
  inRange : ∀ p ∈ f.ring, InRange d p.cg
  ring : f'.ring = f.ring.map (FlowPt.shift τ d)
  newestT : f.estimable = true → f'.newestT = f.newestT + τ
  estimable : f'.estimable = f.estimable
  ema : f'.ema = f.ema

theorem shifted_push {f f' : FlowEstimator} (h : Shifted τ d f f') (tMs : U32) {cg : I16}
    (hcg : InRange d cg) :
    Shifted τ d (f.push tMs cg) (f'.push (tMs + τ) (i16 (cg.toInt + d))) := by
  have hring : (⟨tMs + τ, i16 (cg.toInt + d)⟩ :: f'.ring).take kRingSize =
      ((⟨tMs, cg⟩ :: f.ring).take kRingSize).map (FlowPt.shift τ d) := by
    rw [h.ring, List.map_take, List.map_cons]
    rfl
  have hin : ∀ p ∈ (⟨tMs, cg⟩ :: f.ring).take kRingSize, InRange d p.cg := by
    intro p hp
    rcases List.mem_cons.1 (List.mem_of_mem_take hp) with rfl | hp
    · exact hcg
    · exact h.inRange p hp
  unfold push
  rw [hring]
  dsimp only
  rw [estimateRaw_shift hin]
  cases estimateRaw ((⟨tMs, cg⟩ :: f.ring).take kRingSize) with
  | none => exact ⟨hin, rfl, fun hno => absurd hno Bool.false_ne_true, rfl, h.ema⟩
  | some raw => exact ⟨hin, rfl, fun _ => rfl, rfl, by rw [h.ema]⟩

theorem shifted_flow {f f' : FlowEstimator} (h : Shifted τ d f f') (nowMs : U32) :
    f'.flow (nowMs + τ) = f.flow nowMs := by
  unfold flow
  rw [h.estimable, h.ema]
  by_cases he : f.estimable = true
  · rw [h.newestT he, sub_shift]
  · rw [Bool.eq_false_iff.2 he]
    rfl

end FlowEstimator

/-! ## The classifier -/

/-- The weight `cg'` is `cg` on the other scale. -/
def Heavier (d : ℤ) (cg cg' : I16) : Prop := cg'.toInt = cg.toInt + d

theorem heavier_shift {cg : I16} (h : InRange d cg) : Heavier d cg (i16 (cg.toInt + d)) :=
  toInt_i16 h.1 h.2

/-- The two classified samples. -/
structure CausalPourSample.Shifted (τ : U32) (d : ℤ) (s s' : CausalPourSample) : Prop where
  accepted : s'.accepted = s.accepted
  tMs : s'.tMs = s.tMs + τ
  rawCg : Heavier d s.rawCg s'.rawCg
  trustedStep : s'.trustedStep = s.trustedStep
  flow : s'.flow = s.flow
  band : s'.band = s.band
  candidate : s.accepted = true → Heavier d s.pourStartCandidateCg s'.pourStartCandidateCg

namespace CausalPourClassifier

/-- The two classifiers after corresponding samples. -/
structure Shifted (τ : U32) (d : ℤ) (c c' : CausalPourClassifier) : Prop where
  flow : FlowEstimator.Shifted τ d c.flow c'.flow
  haveLast : c'.haveLast = c.haveLast
  lastTMs : c.haveLast = true → c'.lastTMs = c.lastTMs + τ
  prevCg : c.haveLast = true → Heavier d c.prevCg c'.prevCg
  haveSettled : c'.haveSettled = c.haveSettled
  lastSettledCg : c.haveSettled = true → Heavier d c.lastSettledCg c'.lastSettledCg
  flatRun : c'.flatRun = c.flatRun

theorem shifted_init : Shifted τ d {} {} where
  flow := ⟨by simp, rfl, fun h => absurd h (by decide), rfl, rfl⟩
  haveLast := rfl
  lastTMs := fun h => absurd h (by decide)
  prevCg := fun h => absurd h (by decide)
  haveSettled := rfl
  lastSettledCg := fun h => absurd h (by decide)
  flatRun := rfl

/-- Steps and gaps are differences. -/
theorem shifted_step {c c' : CausalPourClassifier} (h : Shifted τ d c c') (tMs : U32) {cg : I16}
    (hcg : InRange d cg) :
    (if c'.haveLast then tMs + τ - c'.lastTMs else 0) = (if c.haveLast then tMs - c.lastTMs else 0) ∧
    (if c'.haveLast then (i16 (cg.toInt + d)).toInt - c'.prevCg.toInt else 0) =
      (if c.haveLast then cg.toInt - c.prevCg.toInt else 0) ∧
    (c'.haveLast && decide (tMs + τ = c'.lastTMs)) = (c.haveLast && decide (tMs = c.lastTMs)) := by
  have hraw := heavier_shift hcg
  unfold Heavier at hraw
  rw [h.haveLast]
  by_cases hl : c.haveLast = true
  · have hprev := h.prevCg hl
    unfold Heavier at hprev
    rw [if_pos hl, if_pos hl, if_pos hl, if_pos hl, h.lastTMs hl, hraw, hprev, sub_shift]
    refine ⟨rfl, by omega, ?_⟩
    rw [decide_eq_decide.2 (shift_inj tMs c.lastTMs τ)]
  · rw [if_neg hl, if_neg hl, if_neg hl, if_neg hl, Bool.eq_false_iff.2 hl, Bool.false_and,
      Bool.false_and]
    exact ⟨rfl, rfl, rfl⟩

/-- The candidate for the start of a pour. -/
theorem heavier_candidate {cg cg' last last' : I16} {kept seeds : Bool} (hraw : Heavier d cg cg')
    (hlast : kept = true → Heavier d last last') (h : (kept || seeds) = true) :
    Heavier d (if seeds then cg else last) (if seeds then cg' else last') := by
  cases seeds with
  | true => exact hraw
  | false => exact hlast (by simpa using h)

theorem heavier_start {cg cg' last last' : I16} {kept seeds : Bool} (hraw : Heavier d cg cg')
    (hlast : kept = true → Heavier d last last') :
    Heavier d (if kept || seeds then (if seeds then cg else last) else cg)
      (if kept || seeds then (if seeds then cg' else last') else cg') := by
  by_cases h : (kept || seeds) = true
  · rw [if_pos h, if_pos h]
    exact heavier_candidate hraw hlast h
  · rw [if_neg h, if_neg h]
    exact hraw

theorem shifted_update {c c' : CausalPourClassifier} (h : Shifted τ d c c') (tMs : U32) {cg : I16}
    (hcg : InRange d cg) :
    Shifted τ d (c.update tMs cg).1 (c'.update (tMs + τ) (i16 (cg.toInt + d))).1 ∧
      CausalPourSample.Shifted τ d (c.update tMs cg).2
        (c'.update (tMs + τ) (i16 (cg.toInt + d))).2 := by
  obtain ⟨hdt, hstep, hdup⟩ := shifted_step h tMs hcg
  have hpush := FlowEstimator.shifted_push h.flow tMs hcg
  have hflow := FlowEstimator.shifted_flow hpush tMs
  have hraw := heavier_shift hcg
  unfold update
  rw [hdup]
  by_cases hd : (c.haveLast && decide (tMs = c.lastTMs)) = true
  · rw [if_pos hd, if_pos hd]
    exact ⟨h, ⟨rfl, rfl, hraw, rfl, rfl, rfl, fun hno => absurd hno Bool.false_ne_true⟩⟩
  · rw [if_neg hd, if_neg hd]
    dsimp only
    rw [hdt, hstep, hflow, h.haveSettled, h.flatRun]
    have hkept : ∀ b b' : Bool, (c.haveSettled && b && b') = true →
        Heavier d c.lastSettledCg c'.lastSettledCg := by
      intro b b' hk
      rw [Bool.and_eq_true, Bool.and_eq_true] at hk
      exact h.lastSettledCg hk.1.1
    refine ⟨⟨hpush, rfl, fun _ => rfl, fun _ => hraw, rfl, fun hs => ?_, rfl⟩,
      ⟨rfl, rfl, hraw, rfl, rfl, rfl, fun _ => ?_⟩⟩
    · exact heavier_candidate hraw (hkept _ _) hs
    · exact heavier_start hraw (hkept _ _)

end CausalPourClassifier

/-! ## The live tracker -/

namespace LivePourTracker

/-- The two trackers after corresponding samples. -/
structure Shifted (τ : U32) (d : ℤ) (t t' : LivePourTracker) : Prop where
  classifier : CausalPourClassifier.Shifted τ d t.classifier t'.classifier
  haveSample : t'.haveSample = t.haveSample
  lastTMs : t.haveSample = true → t'.lastTMs = t.lastTMs + τ
  prevCg : t.haveSample = true → Heavier d t.prevCg t'.prevCg
  lastSampleTrusted : t'.lastSampleTrusted = t.lastSampleTrusted
  lastTrustedCg : t.lastSampleTrusted = true → Heavier d t.lastTrustedCg t'.lastTrustedCg
  haveFirstStart : t'.haveFirstStart = t.haveFirstStart
  firstStartCg : t.haveFirstStart = true → Heavier d t.firstStartCg t'.firstStartCg
  pourActive : t'.pourActive = t.pourActive
  sawPourBand : t'.sawPourBand = t.sawPourBand
  settledCount : t'.settledCount = t.settledCount
  settledSinceLastPour : t'.settledSinceLastPour = t.settledSinceLastPour
  meaningfulYield : t'.meaningfulYield = t.meaningfulYield
  lastBand : t'.lastBand = t.lastBand
  lastFlow : t'.lastFlow = t.lastFlow

theorem shifted_init : Shifted τ d {} {} where
  classifier := CausalPourClassifier.shifted_init
  haveSample := rfl
  lastTMs := fun h => absurd h (by decide)
  prevCg := fun h => absurd h (by decide)
  lastSampleTrusted := rfl
  lastTrustedCg := fun h => absurd h (by decide)
  haveFirstStart := rfl
  firstStartCg := fun h => absurd h (by decide)
  pourActive := rfl
  sawPourBand := rfl
  settledCount := rfl
  settledSinceLastPour := rfl
  meaningfulYield := rfl
  lastBand := rfl
  lastFlow := rfl

theorem shifted_advanceLivePour {t t' : LivePourTracker} {s s' : CausalPourSample}
    (h : Shifted τ d t t') (hs : s.Shifted τ d s') (ha : s.accepted = true) :
    Shifted τ d (t.advanceLivePour s) (t'.advanceLivePour s') := by
  unfold advanceLivePour
  rw [hs.band, hs.trustedStep, hs.flow, h.settledCount]
  by_cases hp : (isPourBand s.band && s.trustedStep) = true
  · rw [if_pos hp, if_pos hp]
    refine ⟨h.classifier, h.haveSample, h.lastTMs, h.prevCg, h.lastSampleTrusted, h.lastTrustedCg, rfl,
      fun _ => ?_, rfl, rfl, rfl, rfl, h.meaningfulYield, h.lastBand, h.lastFlow⟩
    dsimp only
    rw [h.haveFirstStart]
    by_cases hf : t.haveFirstStart = true
    · rw [if_pos hf, if_pos hf]
      exact h.firstStartCg hf
    · rw [if_neg hf, if_neg hf]
      exact hs.candidate ha
  · rw [if_neg hp, if_neg hp]
    by_cases hsettled : isSettledBand s.band = true
    · rw [if_pos hsettled, if_pos hsettled]
      dsimp only
      generalize (if t.settledCount < kRunCloseSamples then t.settledCount + 1
        else t.settledCount) = count
      split_ifs
      · exact ⟨h.classifier, h.haveSample, h.lastTMs, h.prevCg, h.lastSampleTrusted, h.lastTrustedCg,
          h.haveFirstStart, h.firstStartCg, rfl, h.sawPourBand, rfl, rfl, h.meaningfulYield,
          h.lastBand, h.lastFlow⟩
      · exact ⟨h.classifier, h.haveSample, h.lastTMs, h.prevCg, h.lastSampleTrusted, h.lastTrustedCg,
          h.haveFirstStart, h.firstStartCg, h.pourActive, h.sawPourBand, rfl, h.settledSinceLastPour,
          h.meaningfulYield, h.lastBand, h.lastFlow⟩
    · rw [if_neg hsettled, if_neg hsettled]
      split_ifs
      · exact ⟨h.classifier, h.haveSample, h.lastTMs, h.prevCg, h.lastSampleTrusted, h.lastTrustedCg,
          h.haveFirstStart, h.firstStartCg, h.pourActive, h.sawPourBand, rfl, h.settledSinceLastPour,
          h.meaningfulYield, h.lastBand, h.lastFlow⟩
      · exact h

theorem shifted_updateMeaningfulYield {t t' : LivePourTracker} {s s' : CausalPourSample}
    (h : Shifted τ d t t') (hs : s.Shifted τ d s') :
    Shifted τ d (t.updateMeaningfulYield s) (t'.updateMeaningfulYield s') := by
  have hcond : (t'.haveFirstStart && s'.trustedStep &&
        decide (kMeaningfulYieldCg ≤ s'.rawCg.toInt - t'.firstStartCg.toInt)) =
      (t.haveFirstStart && s.trustedStep &&
        decide (kMeaningfulYieldCg ≤ s.rawCg.toInt - t.firstStartCg.toInt)) := by
    rw [h.haveFirstStart, hs.trustedStep]
    by_cases hf : t.haveFirstStart = true
    · -- the yield is a difference of two weights
      have hstart := h.firstStartCg hf
      have hraw := hs.rawCg
      unfold Heavier at hstart hraw
      have hyield : s'.rawCg.toInt - t'.firstStartCg.toInt = s.rawCg.toInt - t.firstStartCg.toInt := by
        omega
      rw [hyield]
    · rw [Bool.eq_false_iff.2 hf, Bool.false_and, Bool.false_and, Bool.false_and]
  unfold updateMeaningfulYield
  rw [hcond]
  split_ifs
  · exact ⟨h.classifier, h.haveSample, h.lastTMs, h.prevCg, h.lastSampleTrusted, h.lastTrustedCg,
      h.haveFirstStart, h.firstStartCg, h.pourActive, h.sawPourBand, h.settledCount,
      h.settledSinceLastPour, rfl, h.lastBand, h.lastFlow⟩
  · exact h

/-- **Step lemma** of the tracker. -/
theorem shifted_update {t t' : LivePourTracker} (h : Shifted τ d t t') (tMs : U32) {cg : I16}
    (hcg : InRange d cg) :
    Shifted τ d (t.update tMs cg) (t'.update (tMs + τ) (i16 (cg.toInt + d))) := by
  obtain ⟨hc, hs⟩ := CausalPourClassifier.shifted_update h.classifier tMs hcg
  unfold update
  revert hc hs
  generalize t.classifier.update tMs cg = x
  generalize t'.classifier.update (tMs + τ) (i16 (cg.toInt + d)) = x'
  obtain ⟨c, s⟩ := x
  obtain ⟨c', s'⟩ := x'
  dsimp only
  intro hc hs
  rw [hs.accepted]
  by_cases ha : s.accepted = true
  · rw [ha, Bool.not_true, if_neg Bool.false_ne_true, if_neg Bool.false_ne_true]
    refine shifted_updateMeaningfulYield (shifted_advanceLivePour ?_ hs ha) hs
    refine ⟨hc, rfl, fun _ => hs.tMs, fun _ => hs.rawCg, hs.trustedStep, fun htrusted => ?_,
      h.haveFirstStart, h.firstStartCg, h.pourActive, h.sawPourBand, h.settledCount,
      h.settledSinceLastPour, h.meaningfulYield, hs.band, hs.flow⟩
    dsimp only at htrusted ⊢
    rw [hs.trustedStep, if_pos htrusted, if_pos htrusted]
    exact hs.rawCg
  · rw [Bool.eq_false_iff.2 ha, Bool.not_false, if_pos rfl, if_pos rfl]
    exact ⟨hc, h.haveSample, h.lastTMs, h.prevCg, h.lastSampleTrusted, h.lastTrustedCg,
      h.haveFirstStart, h.firstStartCg, h.pourActive, h.sawPourBand, h.settledCount,
      h.settledSinceLastPour, h.meaningfulYield, h.lastBand, h.lastFlow⟩

end LivePourTracker

/-! ## The shot-end pass -/

/-- The two results. -/
structure PourEvidence.Shifted (d : ℤ) (e e' : PourEvidence) : Prop where
  pourMs : e'.pourMs = e.pourMs
  gainCg : e'.gainCg = e.gainCg
  hasPour : e'.hasPour = e.hasPour
  hasStartRawCg : e'.hasStartRawCg = e.hasStartRawCg
  startRawCg : e.hasStartRawCg = true → Heavier d e.startRawCg e'.startRawCg

namespace EvidencePass

/-- The two passes after corresponding samples. -/
structure Shifted (τ : U32) (d : ℤ) (p p' : EvidencePass) : Prop where
  evidence : p.evidence.Shifted d p'.evidence
  classifier : CausalPourClassifier.Shifted τ d p.classifier p'.classifier
  inRun : p'.inRun = p.inRun
  outRun : p'.outRun = p.outRun
  settleRun : p'.settleRun = p.settleRun
  startMs : p.inRun = true → p'.startMs = p.startMs + τ
  startCg : p.inRun = true → Heavier d p.startCg p'.startCg
  activeEndMs : p.inRun = true → p'.activeEndMs = p.activeEndMs + τ
  peakCg : p.inRun = true → Heavier d p.peakCg p'.peakCg

theorem shifted_init : Shifted τ d {} {} where
  evidence := ⟨rfl, rfl, rfl, rfl, fun h => absurd h (by decide)⟩
  classifier := CausalPourClassifier.shifted_init
  inRun := rfl
  outRun := rfl
  settleRun := rfl
  startMs := fun h => absurd h (by decide)
  startCg := fun h => absurd h (by decide)
  activeEndMs := fun h => absurd h (by decide)
  peakCg := fun h => absurd h (by decide)

theorem shifted_closeRun {p p' : EvidencePass} (h : Shifted τ d p p') (hrun : p.inRun = true) :
    Shifted τ d p.closeRun p'.closeRun := by
  have hpeak := h.peakCg hrun
  have hstart := h.startCg hrun
  unfold Heavier at hpeak hstart
  have hgain : p'.evidence.gainCg + (p'.peakCg.toInt - p'.startCg.toInt) =
      p.evidence.gainCg + (p.peakCg.toInt - p.startCg.toInt) := by
    rw [h.evidence.gainCg]
    omega
  have hdur : p'.evidence.pourMs + (p'.activeEndMs - p'.startMs) =
      p.evidence.pourMs + (p.activeEndMs - p.startMs) := by
    rw [h.evidence.pourMs, h.activeEndMs hrun, h.startMs hrun, sub_shift]
  exact ⟨⟨hdur, hgain, h.evidence.hasPour, h.evidence.hasStartRawCg, h.evidence.startRawCg⟩,
    h.classifier, rfl, rfl, rfl, fun hno => absurd hno Bool.false_ne_true,
    fun hno => absurd hno Bool.false_ne_true, fun hno => absurd hno Bool.false_ne_true,
    fun hno => absurd hno Bool.false_ne_true⟩

theorem shifted_liftPeak {p p' : EvidencePass} {s s' : CausalPourSample} (h : Shifted τ d p p')
    (hs : s.Shifted τ d s') (hrun : p.inRun = true) :
    Shifted τ d (p.liftPeak s) (p'.liftPeak s') := by
  have hpeak := h.peakCg hrun
  have hraw := hs.rawCg
  have hcond : (s'.trustedStep && decide (p'.peakCg.toInt < s'.rawCg.toInt)) =
      (s.trustedStep && decide (p.peakCg.toInt < s.rawCg.toInt)) := by
    unfold Heavier at hpeak hraw
    rw [hs.trustedStep, hpeak, hraw, decide_eq_decide.2 (Int.add_lt_add_iff_right d)]
  unfold liftPeak
  rw [hcond]
  split_ifs
  · exact ⟨h.evidence, h.classifier, h.inRun, h.outRun, h.settleRun, h.startMs, h.startCg,
      h.activeEndMs, fun _ => hraw⟩
  · exact h

theorem shifted_openRun {p p' : EvidencePass} {s s' : CausalPourSample} (h : Shifted τ d p p')
    (hs : s.Shifted τ d s') (ha : s.accepted = true) :
    Shifted τ d (p.openRun s) (p'.openRun s') := by
  have hcandidate := hs.candidate ha
  refine ⟨⟨h.evidence.pourMs, h.evidence.gainCg, rfl, rfl, fun _ => ?_⟩, h.classifier, rfl, rfl, rfl,
    fun _ => hs.tMs, fun _ => hcandidate, fun _ => hs.tMs, fun _ => hs.rawCg⟩
  unfold openRun
  dsimp only
  rw [h.evidence.hasStartRawCg]
  by_cases hf : p.evidence.hasStartRawCg = true
  · rw [if_pos hf, if_pos hf]
    exact h.evidence.startRawCg hf
  · rw [if_neg hf, if_neg hf]
    exact hcandidate

/-- Only the counts of a run change. -/
theorem Shifted.counts {p p' : EvidencePass} (h : Shifted τ d p p') (outRun settleRun : ℕ) :
    Shifted τ d { p with outRun := outRun, settleRun := settleRun }
      { p' with outRun := outRun, settleRun := settleRun } :=
  ⟨h.evidence, h.classifier, h.inRun, rfl, rfl, h.startMs, h.startCg, h.activeEndMs, h.peakCg⟩

theorem shifted_fold {p p' : EvidencePass} {s s' : CausalPourSample} (h : Shifted τ d p p')
    (hs : s.Shifted τ d s') (ha : s.accepted = true) : Shifted τ d (p.fold s) (p'.fold s') := by
  unfold fold
  rw [hs.band, hs.trustedStep]
  by_cases hrun : p.inRun = true
  · have hmoved : Shifted τ d { p with activeEndMs := s.tMs } { p' with activeEndMs := s'.tMs } :=
      ⟨h.evidence, h.classifier, h.inRun, h.outRun, h.settleRun, h.startMs, h.startCg,
        fun _ => hs.tMs, h.peakCg⟩
    have hlift := shifted_liftPeak h hs hrun
    have hrun' : (p.liftPeak s).inRun = true := (extends_liftPeak hrun s).inRun
    have hno : ¬ (!p.inRun) = true := by rw [hrun]; decide
    have hno' : ¬ (!p'.inRun) = true := by rw [h.inRun, hrun]; decide
    rw [if_neg hno, if_neg hno']
    by_cases hp : isPourBand s.band = true
    · rw [if_pos hp, if_pos hp]
      exact (shifted_liftPeak hmoved hs hrun).counts 0 0
    · rw [if_neg hp, if_neg hp]
      dsimp only
      rw [h.outRun, hlift.settleRun]
      split_ifs
      · exact shifted_closeRun (h.counts _ _) hrun
      · exact h.counts _ _
      · exact shifted_closeRun (hlift.counts _ _) hrun'
      · exact hlift.counts _ _
      · exact hlift.counts _ _
  · have hno : (!p.inRun) = true := by rw [Bool.eq_false_iff.2 hrun]; rfl
    have hno' : (!p'.inRun) = true := by rw [h.inRun]; exact hno
    rw [if_pos hno, if_pos hno']
    split_ifs
    · exact shifted_openRun h hs ha
    · exact h

/-- **Step lemma** of the pass. -/
theorem shifted_step {p p' : EvidencePass} (h : Shifted τ d p p') {sample : Sample}
    (hcg : InRange d sample.cg) : Shifted τ d (p.step sample) (p'.step (sample.shift τ d)) := by
  obtain ⟨hc, hs⟩ := CausalPourClassifier.shifted_update h.classifier sample.tMs hcg
  unfold step Sample.shift
  dsimp only
  revert hc hs
  generalize p.classifier.update sample.tMs sample.cg = x
  generalize p'.classifier.update (sample.tMs + τ) (i16 (sample.cg.toInt + d)) = x'
  obtain ⟨c, s⟩ := x
  obtain ⟨c', s'⟩ := x'
  dsimp only
  intro hc hs
  have hp : Shifted τ d { p with classifier := c } { p' with classifier := c' } :=
    ⟨h.evidence, hc, h.inRun, h.outRun, h.settleRun, h.startMs, h.startCg, h.activeEndMs, h.peakCg⟩
  rw [hs.accepted]
  by_cases ha : s.accepted = true
  · rw [if_pos ha, if_pos ha]
    exact shifted_fold hp hs ha
  · rw [if_neg ha, if_neg ha]
    exact hp

theorem shifted_settle {p p' : EvidencePass} (h : Shifted τ d p p') :
    p.settle.Shifted d p'.settle := by
  unfold settle
  rw [h.inRun]
  by_cases hrun : p.inRun = true
  · rw [if_pos hrun, if_pos hrun]
    exact (shifted_closeRun h hrun).evidence
  · rw [if_neg hrun, if_neg hrun]
    exact h.evidence

end EvidencePass

/-! ## Whole series -/

/-- **Pour detection sees differences only.** On a scale with another zero and under another clock
the evidence is the same but for the start, larger by the difference of the zeros; and so it is with
the live tracker after every sample. -/
theorem pourDetection_shift (samples : List Sample) (τ : U32) (d : ℤ)
    (h : ∀ sample ∈ samples, InRange d sample.cg) :
    (computePourEvidence samples).Shifted d (computePourEvidence (samples.map (Sample.shift τ d))) ∧
    ∀ l, l <+: samples →
      LivePourTracker.Shifted τ d (trackAll l) (trackAll (l.map (Sample.shift τ d))) := by
  constructor
  · rw [EvidencePass.computePourEvidence_eq, EvidencePass.computePourEvidence_eq]
    have hstep : ∀ (p p' : EvidencePass) (sample : Sample), p.Shifted τ d p' → InRange d sample.cg →
        EvidencePass.Shifted τ d (p.step sample) (p'.step (sample.shift τ d)) :=
      fun _ _ _ hp hcg => EvidencePass.shifted_step hp hcg
    exact EvidencePass.shifted_settle (exec_map_rel hstep h EvidencePass.shifted_init)
  · rintro l ⟨rest, rfl⟩
    have hl : ∀ sample ∈ l, InRange d sample.cg := fun s hs => h s (List.mem_append_left rest hs)
    have htrack : ∀ (t t' : LivePourTracker) (sample : Sample), t.Shifted τ d t' →
        InRange d sample.cg → LivePourTracker.Shifted τ d (t.update sample.tMs sample.cg)
          (t'.update (sample.shift τ d).tMs (sample.shift τ d).cg) :=
      fun _ _ sample ht hcg => LivePourTracker.shifted_update ht sample.tMs hcg
    exact exec_map_rel htrack hl LivePourTracker.shifted_init

/-- A tare of 5 g, and a clock that wraps after 2 s. -/
theorem pourDetection_shift_knockedPour :
    (computePourEvidence knockedPour).Shifted 500
      (computePourEvidence (knockedPour.map (Sample.shift 0xFFFFF830 500))) ∧
    ∀ l, l <+: knockedPour →
      LivePourTracker.Shifted 0xFFFFF830 500 (trackAll l)
        (trackAll (l.map (Sample.shift 0xFFFFF830 500))) :=
  pourDetection_shift knockedPour 0xFFFFF830 500 (by decide +kernel)

end Pumpbug
