import Pumpbug.Flow

/-!
# Pour classification

`CausalPourClassifier.h` and `LivePourTracker.h`: the per-sample flow band shared by the live and
the shot-end pass, and the live pour state that drives the gauge and the settle decisions.
-/

namespace Pumpbug

/-! ## Bands -/

inductive CausalPourBand
  /-- No sample has been classified yet. -/
  | unknown
  | settled
  /-- Still moving, but too slowly to fit any other band. -/
  | tail
  | pour
  | step
  | discontinuity
  /-- No flow estimate exists at this sample. -/
  | dropout
  deriving DecidableEq

def classifyCausalPourBand (flow : Option ℚ) : CausalPourBand :=
  match flow with
  | none => .dropout
  | some f =>
    if kCeilingCgPerS < f then .step
    else if f ≤ kDiscontinuityCgPerS then .discontinuity
    else if kFloorCgPerS ≤ f then .pour
    else if -kSettleEpsCgPerS < f ∧ f < kSettleEpsCgPerS then .settled
    else .tail

def isPourBand (band : CausalPourBand) : Bool := band = .pour

def isSettledBand (band : CausalPourBand) : Bool := band = .settled

def isRunBreakBand (band : CausalPourBand) : Bool :=
  band = .dropout || band = .step || band = .discontinuity

/-- Consecutive samples outside the pour band that close an open pour run. -/
def kRunCloseSamples : ℕ := 4

structure CausalPourSample where
  /-- False for duplicate timestamps. -/
  accepted : Bool := false
  tMs : U32 := 0
  rawCg : I16 := 0
  trustedStep : Bool := false
  /-- The smoothed flow, when there is one. -/
  flow : Option ℚ := none
  band : CausalPourBand := .unknown
  /-- The starting weight if a run opens at this sample. -/
  pourStartCandidateCg : I16 := 0
  deriving DecidableEq

/-! ## The classifier -/

structure CausalPourClassifier where
  flow : FlowEstimator := {}
  lastTMs : U32 := 0
  haveLast : Bool := false
  prevCg : I16 := 0
  lastSettledCg : I16 := 0
  haveSettled : Bool := false
  /-- Consecutive flat, trusted steps. -/
  flatRun : ℕ := 0
  deriving DecidableEq

namespace CausalPourClassifier

/-- The raw step over the gap stays within the settled flow rate. -/
def isFlatStep (rawStepCg : ℤ) (dtMs : U32) : Bool :=
  if dtMs = 0 then true
  else |(rawStepCg : ℚ)| * 1000 ≤ kSettleEpsCgPerS * dtMs.toNat

def update (c : CausalPourClassifier) (tMs : U32) (cg : I16) :
    CausalPourClassifier × CausalPourSample :=
  if c.haveLast && tMs = c.lastTMs then (c, { tMs := tMs, rawCg := cg })
  else
    let dtMs := if c.haveLast then tMs - c.lastTMs else 0
    let rawStep := if c.haveLast then cg.toInt - c.prevCg.toInt else 0
    let trustedStep := !isNonPourStep rawStep dtMs
    -- a step no pour can make, or a gap, ends the trust in the saved settled weight
    let keptSettled := c.haveSettled && trustedStep && dtMs ≤ kMaxSampleGapMs
    let flatStep := trustedStep && dtMs ≤ kMaxSampleGapMs && isFlatStep rawStep dtMs
    let flatRun :=
      if flatStep then (if c.flatRun < kRunCloseSamples then c.flatRun + 1 else c.flatRun) else 0
    let estimator := c.flow.push tMs cg
    let f := estimator.flow tMs
    let band := classifyCausalPourBand f
    let seeds := (isSettledBand band && flatStep) || kRunCloseSamples ≤ flatRun
    let lastSettledCg := if seeds then cg else c.lastSettledCg
    let haveSettled := keptSettled || seeds
    ({ flow := estimator, lastTMs := tMs, haveLast := true, prevCg := cg,
       lastSettledCg := lastSettledCg, haveSettled := haveSettled, flatRun := flatRun },
     { accepted := true, tMs := tMs, rawCg := cg, trustedStep := trustedStep, flow := f,
       band := band, pourStartCandidateCg := if haveSettled then lastSettledCg else cg })

end CausalPourClassifier

/-! ## The live tracker -/

structure LivePourTracker where
  classifier : CausalPourClassifier := {}
  lastTMs : U32 := 0
  haveSample : Bool := false
  prevCg : I16 := 0
  lastTrustedCg : I16 := 0
  lastSampleTrusted : Bool := false
  haveFirstStart : Bool := false
  firstStartCg : I16 := 0
  pourActive : Bool := false
  sawPourBand : Bool := false
  settledCount : ℕ := 0
  settledSinceLastPour : Bool := true
  /-- `_hasMeaningfulYield`. -/
  meaningfulYield : Bool := false
  lastBand : CausalPourBand := .unknown
  lastFlow : Option ℚ := none
  deriving DecidableEq

namespace LivePourTracker

/-- Yield from the pour start that proves coffee actually flowed. -/
def kMeaningfulYieldCg : ℤ := 300

/-- The state `reset` leaves; a new tracker starts in it. -/
def reset : LivePourTracker := {}

def advanceLivePour (t : LivePourTracker) (s : CausalPourSample) : LivePourTracker :=
  if isPourBand s.band && s.trustedStep then
    { t with
      firstStartCg := if t.haveFirstStart then t.firstStartCg else s.pourStartCandidateCg
      haveFirstStart := true
      pourActive := true
      sawPourBand := true
      settledCount := 0
      settledSinceLastPour := false }
  else if isSettledBand s.band then
    let count := if t.settledCount < kRunCloseSamples then t.settledCount + 1 else t.settledCount
    if kRunCloseSamples ≤ count then
      { t with settledCount := count, pourActive := false, settledSinceLastPour := true }
    else { t with settledCount := count }
  else if s.flow.isSome then { t with settledCount := 0 }
  else t

def updateMeaningfulYield (t : LivePourTracker) (s : CausalPourSample) : LivePourTracker :=
  if t.haveFirstStart && s.trustedStep &&
      kMeaningfulYieldCg ≤ s.rawCg.toInt - t.firstStartCg.toInt then
    { t with meaningfulYield := true }
  else t

def update (t : LivePourTracker) (tMs : U32) (cg : I16) : LivePourTracker :=
  let (classifier, s) := t.classifier.update tMs cg
  if !s.accepted then { t with classifier := classifier }
  else
    let t := { t with
      classifier := classifier
      lastTMs := s.tMs
      haveSample := true
      prevCg := s.rawCg
      lastSampleTrusted := s.trustedStep
      lastTrustedCg := if s.trustedStep then s.rawCg else t.lastTrustedCg
      lastFlow := s.flow
      lastBand := s.band }
    (t.advanceLivePour s).updateMeaningfulYield s

def hasPourStartWeight (t : LivePourTracker) : Bool := t.haveFirstStart

def firstPourStartRawCg (t : LivePourTracker) : I16 :=
  if t.haveFirstStart then t.firstStartCg else 0

def hasMeaningfulYield (t : LivePourTracker) : Bool := t.meaningfulYield

def hasUnsettledPour (t : LivePourTracker) : Bool := t.sawPourBand && !t.settledSinceLastPour

def settledCountReached (t : LivePourTracker) : Bool :=
  t.meaningfulYield && kRunCloseSamples ≤ t.settledCount

def lastTrustedRawCg (t : LivePourTracker) : I16 := t.lastTrustedCg

def lastSampleWasTrusted (t : LivePourTracker) : Bool := t.lastSampleTrusted

end LivePourTracker

end Pumpbug
