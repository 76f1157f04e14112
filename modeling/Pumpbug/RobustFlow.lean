import Pumpbug.Pour

/-!
# Pour evidence

`RobustFlow.h`, the shot-end pass over the stored samples: the pour runs found by the shared
classifier, and the last endpoint before the cup was moved.
-/

namespace Pumpbug

def kFlowScaleTimerDriftToleranceMs : U32 := 250

/-- Time spanned by a before/after pair: the scale's own timer when it agrees with arrival time. -/
def flowDeltaMs (before after : Sample) : U32 :=
  let hostDt := after.tMs - before.tMs
  if sampleHasScaleTimer before && sampleHasScaleTimer after &&
      before.scaleTimerMs < after.scaleTimerMs then
    let scaleDt := after.scaleTimerMs - before.scaleTimerMs
    let drift := if hostDt < scaleDt then scaleDt - hostDt else hostDt - scaleDt
    if drift ≤ kFlowScaleTimerDriftToleranceMs then scaleDt else hostDt
  else hostDt

/-- The scan of `endpointBeforePostPumpDiscontinuity` from the sample after `before`. -/
def endpointScan (pumpOffConfirmedMs : U32) : Sample → List Sample → Option I16
  | _, [] => none
  | before, s :: rest =>
    if (s.tMs - pumpOffConfirmedMs).toInt < 0 then endpointScan pumpOffConfirmedMs s rest
    else if isNonPourStep (s.cg.toInt - before.cg.toInt) (flowDeltaMs before s) then
      some before.cg
    else endpointScan pumpOffConfirmedMs s rest

/-- The weight before the first material step after the final pump-off, if there is such a step. -/
def endpointBeforePostPumpDiscontinuity (samples : List Sample) (pumpOffConfirmedMs : U32) :
    Option I16 :=
  if pumpOffConfirmedMs = 0 then none
  else
    match samples with
    | [] => none
    | first :: rest => endpointScan pumpOffConfirmedMs first rest

/-! ## The evidence pass -/

structure PourEvidence where
  /-- Summed duration of the pour runs. -/
  pourMs : U32 := 0
  /-- Summed gain of the pour runs. -/
  gainCg : ℤ := 0
  hasPour : Bool := false
  hasStartRawCg : Bool := false
  /-- Last flat weight before the first pour run. -/
  startRawCg : I16 := 0
  deriving DecidableEq

/-- The locals of the pass. -/
structure EvidencePass where
  evidence : PourEvidence := {}
  classifier : CausalPourClassifier := {}
  inRun : Bool := false
  outRun : ℕ := 0
  settleRun : ℕ := 0
  startMs : U32 := 0
  startCg : I16 := 0
  activeEndMs : U32 := 0
  /-- The run's gain is its peak weight minus its start. -/
  peakCg : I16 := 0
  deriving DecidableEq

namespace EvidencePass

def closeRun (p : EvidencePass) : EvidencePass :=
  { p with
    evidence := { p.evidence with
      gainCg := p.evidence.gainCg + (p.peakCg.toInt - p.startCg.toInt)
      pourMs := p.evidence.pourMs + (p.activeEndMs - p.startMs) }
    inRun := false
    outRun := 0
    settleRun := 0 }

def liftPeak (p : EvidencePass) (s : CausalPourSample) : EvidencePass :=
  if s.trustedStep && p.peakCg.toInt < s.rawCg.toInt then { p with peakCg := s.rawCg } else p

/-- A run opens at this sample. -/
def openRun (p : EvidencePass) (s : CausalPourSample) : EvidencePass :=
  { p with
    evidence := { p.evidence with
      hasStartRawCg := true
      startRawCg :=
        if p.evidence.hasStartRawCg then p.evidence.startRawCg else s.pourStartCandidateCg
      hasPour := true }
    inRun := true
    startMs := s.tMs
    startCg := s.pourStartCandidateCg
    activeEndMs := s.tMs
    peakCg := s.rawCg
    outRun := 0
    settleRun := 0 }

/-- The run logic for one classified sample. -/
def fold (p : EvidencePass) (s : CausalPourSample) : EvidencePass :=
  if !p.inRun then
    if isPourBand s.band && s.trustedStep then p.openRun s else p
  else if isPourBand s.band then
    { { p with activeEndMs := s.tMs }.liftPeak s with outRun := 0, settleRun := 0 }
  else if isRunBreakBand s.band then
    let p := { p with settleRun := 0, outRun := p.outRun + 1 }
    if kRunCloseSamples ≤ p.outRun then p.closeRun else p
  else
    let p := { p.liftPeak s with outRun := 0 }
    if isSettledBand s.band then
      let p := { p with settleRun := p.settleRun + 1 }
      if kRunCloseSamples ≤ p.settleRun then p.closeRun else p
    else { p with settleRun := 0 }

/-- One iteration of the pass. -/
def step (p : EvidencePass) (sample : Sample) : EvidencePass :=
  let (classifier, s) := p.classifier.update sample.tMs sample.cg
  let p := { p with classifier := classifier }
  if s.accepted then p.fold s else p

end EvidencePass

def computePourEvidence (samples : List Sample) : PourEvidence :=
  let p := samples.foldl EvidencePass.step {}
  (if p.inRun then p.closeRun else p).evidence

/-- A record with enough sustained, pour-shaped weight gain to be an espresso extraction. -/
def isLikelyRealShot (e : Extraction) : Bool :=
  5000 ≤ e.pourMs && 1000 ≤ e.decisionGainCg.toInt

end Pumpbug
