import Pumpbug.Extraction

/-!
# Flow bands and the flow estimator

`FlowBands.h` and `FlowEstimator.h`: the thresholds that separate a pour from a transient, and the
smoothed least-squares slope of the recent weight readings.
-/

namespace Pumpbug

/-! ## Flow bands -/

def kFloorCgPerS : ℚ := 30
def kCeilingCgPerS : ℚ := 1000
def kSettleEpsCgPerS : ℚ := 10
def kDiscontinuityCgPerS : ℚ := -500
def kStepDiscontinuityCg : ℤ := 300
def kStepMarginCg : ℤ := 150
def kMaxSampleGapMs : U32 := 750

/-- The largest upward step that could still be a real pour over the gap `dtMs`. -/
def positiveStepLimitCg (dtMs : U32) : ℤ :=
  let stepDtMs := if dtMs < kMaxSampleGapMs then dtMs else kMaxSampleGapMs
  truncate (kCeilingCgPerS * stepDtMs.toNat / 1000) + kStepMarginCg

/-- A single-sample step too big to be a pour, in either direction. -/
def isNonPourStep (rawStepCg : ℤ) (dtMs : U32) : Bool :=
  rawStepCg ≤ -kStepDiscontinuityCg || positiveStepLimitCg dtMs ≤ rawStepCg

/-! ## Exponential moving average -/

structure EMA where
  alpha : ℚ
  y : ℚ := 0
  primed : Bool := false
  deriving DecidableEq

/-- The first sample primes the filter. -/
def EMA.update (m : EMA) (x : ℚ) : EMA :=
  if m.primed then { m with y := m.y + m.alpha * (x - m.y) }
  else { m with y := x, primed := true }

/-! ## Flow estimator -/

/-- One weight reading of the estimator's ring. -/
structure FlowPt where
  tMs : U32
  cg : I16
  deriving DecidableEq

structure FlowEstimator where
  /-- The readings of the ring, newest first. -/
  ring : List FlowPt := []
  newestT : U32 := 0
  /-- Whether the last push's fit succeeded. -/
  estimable : Bool := false
  ema : EMA := { alpha := 1 / 4 }
  deriving DecidableEq

namespace FlowEstimator

def kRingSize : ℕ := 16
def kWindowMs : U32 := 750
def kMinSpanMs : U32 := 200
def kMinPoints : ℕ := 3

/-- Time of a reading measured from the start of the window. -/
def windowTime (newestT : U32) (p : FlowPt) : ℚ := (kWindowMs - (newestT - p.tMs)).toNat

/-- The readings inside the window, newest first. -/
def window (ring : List FlowPt) (newestT : U32) : List FlowPt :=
  ring.takeWhile fun p => newestT - p.tMs ≤ kWindowMs

/-- The slope of the least-squares line through the readings of the window, in cg/s. -/
def estimateRaw (ring : List FlowPt) : Option ℚ :=
  match ring with
  | [] => none
  | newest :: _ =>
    if ring.length < kMinPoints then none
    else
      let pts := window ring newest.tMs
      let n : ℚ := pts.length
      let sumT := (pts.map (windowTime newest.tMs)).sum
      let sumW := (pts.map fun p => (p.cg.toInt : ℚ)).sum
      let sumTT := (pts.map fun p => windowTime newest.tMs p * windowTime newest.tMs p).sum
      let sumTW := (pts.map fun p => windowTime newest.tMs p * (p.cg.toInt : ℚ)).sum
      let maxAge := pts.foldl (fun m p => max m (newest.tMs - p.tMs).toNat) 0
      let denom := n * sumTT - sumT * sumT
      if pts.length < kMinPoints then none
      else if maxAge < kMinSpanMs.toNat then none
      else if denom = 0 then none
      else some ((n * sumTW - sumT * sumW) / denom * 1000)

/-- Take one new reading, whose duplicates the caller has already dropped. -/
def push (f : FlowEstimator) (tMs : U32) (cg : I16) : FlowEstimator :=
  let ring := (⟨tMs, cg⟩ :: f.ring).take kRingSize
  match estimateRaw ring with
  | some raw => { ring := ring, newestT := tMs, estimable := true, ema := f.ema.update raw }
  | none => { ring := ring, newestT := tMs, estimable := false, ema := f.ema }

/-- The smoothed flow, if there is enough to say. -/
def flow (f : FlowEstimator) (nowMs : U32) : Option ℚ :=
  if !f.estimable || !f.ema.primed then none
  else if kWindowMs < nowMs - f.newestT then none
  else some f.ema.y

end FlowEstimator

end Pumpbug
