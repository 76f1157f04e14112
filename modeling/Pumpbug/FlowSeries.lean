import Pumpbug.RobustFlow

/-!
# The flow series

The per-sample flow of `RobustFlow.h`, with the break edges of `FlowBands.h`: the centred difference
of the weight over a window of half a second to each side, where the window has neighbours and
crosses no transient.  The statistics keep the flows of the trailing hold time in a ring.
-/

namespace Pumpbug

/-! ## Breaks -/

/-- A drop from one sample to the next that is steeper than any tail of a pour. -/
def isSteepDownwardSlope (rawStepCg : ℤ) (dtMs : U32) : Bool :=
  if 0 ≤ rawStepCg ∨ dtMs = 0 then false
  else (rawStepCg : ℚ) * 1000 ≤ kDiscontinuityCgPerS * dtMs.toNat

/-- An edge that the flow series treats as a transient. -/
def isFlowBreakEdge (rawStepCg : ℤ) (dtMs : U32) : Bool :=
  isNonPourStep rawStepCg dtMs || isSteepDownwardSlope rawStepCg dtMs

/-! ## The flow at a sample -/

def kFlowHalfWindowMs : U32 := 500

def UINT32_MAX : U32 := 0xFFFFFFFF

/-- How far a time is from another. -/
def missMs (t target : U32) : U32 := if target < t then t - target else target - t

/-- The scan of `findNearestSample` from the `i`-th sample. -/
def nearestScan (target : U32) : ℕ → List Sample → Option ℕ → U32 → Option ℕ
  | _, [], best, _ => best
  | i, s :: rest, best, bestDelta =>
    let d := missMs s.tMs target
    let (best, bestDelta) := if d < bestDelta then (some i, d) else (best, bestDelta)
    if target < s.tMs ∧ bestDelta < UINT32_MAX then best
    else nearestScan target (i + 1) rest best bestDelta

/-- The sample nearest to a time, from the hint on. -/
def findNearestSample (samples : List Sample) (target : U32) (startHint : ℕ) : Option ℕ :=
  nearestScan target startHint (samples.drop startHint) none UINT32_MAX

/-- A window with a transient edge. -/
def crossesBreak : List Sample → Bool
  | before :: after :: rest =>
    isFlowBreakEdge (after.cg.toInt - before.cg.toInt) (flowDeltaMs before after) ||
      crossesBreak (after :: rest)
  | _ => false

def windowCrossesBreak (samples : List Sample) (iBefore iAfter : ℕ) : Bool :=
  crossesBreak ((samples.take (iAfter + 1)).drop iBefore)

/-- `tBefore` -/
def windowStart (tCenter : U32) : U32 :=
  if kFlowHalfWindowMs < tCenter then tCenter - kFlowHalfWindowMs else 0

/-- `tAfter` -/
def windowEnd (tCenter : U32) : U32 := tCenter + kFlowHalfWindowMs

/-- The flow over the window of a sample at `tCenter`, from its neighbours. -/
def windowFlow (samples : List Sample) (tCenter : U32) (iBefore iAfter : ℕ) : Option ℚ :=
  match samples[iBefore]?, samples[iAfter]? with
  | some before, some after =>
    if iBefore = iAfter then none
    -- a neighbour too far off: there is a gap in the stream
    else if kFlowHalfWindowMs < missMs before.tMs (windowStart tCenter) ∨
        kFlowHalfWindowMs < missMs after.tMs (windowEnd tCenter) then none
    else if windowCrossesBreak samples iBefore iAfter then none
    else
      let dt := flowDeltaMs before after
      if dt = 0 then none
      else
        let dg : ℚ := ((after.cg.toInt - before.cg.toInt : ℤ) : ℚ) / 100
        some (dg * 1000 / dt.toNat)
  | _, _ => none

/-- The flow at the `i`-th sample and the hint for the next one, unless there is no flow. -/
def robustSampleFlow (samples : List Sample) (i beforeHint : ℕ) : Option (ℚ × ℕ) := do
  let center ← samples[i]?
  let iBefore ← findNearestSample samples (windowStart center.tMs) beforeHint
  let iAfter ← findNearestSample samples (windowEnd center.tMs) i
  let flow ← windowFlow samples center.tMs iBefore iAfter
  some (flow, iBefore)

/-! ## Statistics -/

def kPeakHoldMs : U32 := 700

/-- The capacity of the ring. -/
def kCap : ℕ := 32

structure FlowSeriesStats where
  /-- `have`: a sustained flow was found. -/
  found : Bool := false
  sustainedPeakGPerS : ℚ := 0
  deriving DecidableEq

/-- The locals of the pass. -/
structure FlowStatsPass where
  stats : FlowSeriesStats := {}
  /-- The ring, oldest first. -/
  win : List (U32 × ℚ) := []
  /-- The start of the run, while it is valid. -/
  runStartT : Option U32 := none
  beforeHint : ℕ := 0

namespace FlowStatsPass

/-- One more window minimum. -/
def score (stats : FlowSeriesStats) (windowMin : ℚ) : FlowSeriesStats :=
  if !stats.found || stats.sustainedPeakGPerS < windowMin then ⟨true, windowMin⟩ else stats

def minFrom (v : ℚ) (win : List (U32 × ℚ)) : ℚ :=
  win.foldl (fun m x => if x.2 < m then x.2 else m) v

/-- The flow of a sample joins the window. -/
def take (p : FlowStatsPass) (t : U32) (f : ℚ) : FlowStatsPass :=
  let runStartT := p.runStartT.getD t
  let cutoff := if kPeakHoldMs ≤ t then t - kPeakHoldMs else 0
  let win := p.win.dropWhile fun x => x.1 < cutoff
  let win := (if win.length = kCap then win.tail else win) ++ [(t, f)]
  let stats :=
    if kPeakHoldMs ≤ t - runStartT then
      match win with
      | [] => p.stats
      | first :: rest => score p.stats (minFrom first.2 rest)
    else p.stats
  { p with stats := stats, win := win, runStartT := some runStartT }

def step (samples : List Sample) (p : FlowStatsPass) (i : ℕ) : FlowStatsPass :=
  match samples[i]?, robustSampleFlow samples i p.beforeHint with
  | some s, some (f, beforeHint) => { p.take s.tMs f with beforeHint := beforeHint }
  | _, _ => { p with win := [], runStartT := none }

end FlowStatsPass

def computeFlowSeriesStats (samples : List Sample) : FlowSeriesStats :=
  ((List.range samples.length).foldl (FlowStatsPass.step samples) {}).stats

/-- The flows of a sweep over all samples, and the hint at its end. -/
def flowSweep (samples : List Sample) (n : ℕ) : List (Option ℚ) × ℕ :=
  (List.range n).foldl (fun sweep i =>
    match robustSampleFlow samples i sweep.2 with
    | some (f, beforeHint) => (sweep.1 ++ [some f], beforeHint)
    | none => (sweep.1 ++ [none], sweep.2)) ([], 0)

end Pumpbug
