import Pumpbug.Flow
import Pumpbug.Web.Protocol

/-!
# The browser's flow series

`robust-flow.js`, the hand-kept port of the flow series, on the chart's points.  A division by 0 and
`Infinity` do not reach a result: `none` stands for both.
-/

namespace Pumpbug.Web.RobustFlow

def K_CEILING_CG_PER_S : ℚ := 1000
def K_DISCONTINUITY_CG_PER_S : ℚ := -500
def K_STEP_DISCONTINUITY_CG : ℤ := 300
def K_STEP_MARGIN_CG : ℤ := 150
def K_MAX_SAMPLE_GAP_MS : ℤ := 750
def K_FLOW_HALF_WINDOW_MS : ℤ := 500
def K_FLOW_SCALE_TIMER_DRIFT_TOLERANCE_MS : ℤ := 250

/-- A point of the chart; `g` is relative to the baseline. -/
structure Pt where
  tMs : ℤ
  g : ℚ
  scaleTimerMs : ℤ
  deriving DecidableEq

/-- `Math.round`: to the nearest integer, halves upwards. -/
def mathRound (q : ℚ) : ℤ := ⌊q + 1 / 2⌋

def positiveStepLimitCg (dtMs : ℤ) : ℤ :=
  let stepDtMs := if dtMs < K_MAX_SAMPLE_GAP_MS then dtMs else K_MAX_SAMPLE_GAP_MS
  truncate (K_CEILING_CG_PER_S * stepDtMs / 1000) + K_STEP_MARGIN_CG

def isNonPourStep (rawStepCg dtMs : ℤ) : Bool :=
  rawStepCg ≤ -K_STEP_DISCONTINUITY_CG || positiveStepLimitCg dtMs ≤ rawStepCg

def isSteepDownwardSlope (rawStepCg dtMs : ℤ) : Bool :=
  if 0 ≤ rawStepCg ∨ dtMs = 0 then false
  else ((rawStepCg * 1000 : ℤ) : ℚ) ≤ K_DISCONTINUITY_CG_PER_S * dtMs

def isFlowBreakEdge (rawStepCg dtMs : ℤ) : Bool :=
  isNonPourStep rawStepCg dtMs || isSteepDownwardSlope rawStepCg dtMs

def hasScaleTimer (s : Pt) : Bool := s.scaleTimerMs ≠ SCALE_TIMER_UNKNOWN_MS

def flowDeltaMs (before after : Pt) : ℤ :=
  let hostDt := after.tMs - before.tMs
  if hasScaleTimer before && hasScaleTimer after && before.scaleTimerMs < after.scaleTimerMs then
    let scaleDt := after.scaleTimerMs - before.scaleTimerMs
    if |scaleDt - hostDt| ≤ K_FLOW_SCALE_TIMER_DRIFT_TOLERANCE_MS then scaleDt else hostDt
  else hostDt

/-- The loop of `findNearestSample`; there is no best distance before the first point. -/
def nearestScan (target : ℤ) : ℕ → List Pt → Option ℕ → Option ℤ → Option ℕ
  | _, [], best, _ => best
  | i, p :: rest, best, bestDelta =>
    let d := |p.tMs - target|
    let (best, bestDelta) :=
      if bestDelta.all fun b => d < b then (some i, some d) else (best, bestDelta)
    if target < p.tMs ∧ bestDelta.isSome then best
    else nearestScan target (i + 1) rest best bestDelta

def findNearestSample (pts : List Pt) (target : ℤ) (startHint : ℕ) : Option ℕ :=
  nearestScan target startHint (pts.drop startHint) none none

/-- A window with a transient edge. -/
def crossesBreak : List Pt → Bool
  | before :: after :: rest =>
    isFlowBreakEdge (mathRound ((after.g - before.g) * 100)) (flowDeltaMs before after) ||
      crossesBreak (after :: rest)
  | _ => false

def windowCrossesBreak (pts : List Pt) (iBefore iAfter : ℕ) : Bool :=
  crossesBreak ((pts.take (iAfter + 1)).drop iBefore)

/-- `tBefore` -/
def windowStart (tCenter : ℤ) : ℤ :=
  if K_FLOW_HALF_WINDOW_MS < tCenter then tCenter - K_FLOW_HALF_WINDOW_MS else 0

/-- `tAfter` -/
def windowEnd (tCenter : ℤ) : ℤ := tCenter + K_FLOW_HALF_WINDOW_MS

/-- The flow over the window of a point at `tCenter`, from its neighbours. -/
def windowFlow (pts : List Pt) (tCenter : ℤ) (iBefore iAfter : ℕ) : Option ℚ :=
  match pts[iBefore]?, pts[iAfter]? with
  | some before, some after =>
    if iBefore = iAfter then none
    else if K_FLOW_HALF_WINDOW_MS < |before.tMs - windowStart tCenter| ∨
        K_FLOW_HALF_WINDOW_MS < |after.tMs - windowEnd tCenter| then none
    else if windowCrossesBreak pts iBefore iAfter then none
    else
      let dtMs := flowDeltaMs before after
      if dtMs ≤ 0 then none else some ((after.g - before.g) * 1000 / dtMs)
  | _, _ => none

/-- The flow at `pts[i]` and the advanced hint. -/
def sampleFlow (pts : List Pt) (i hint : ℕ) : Option (ℚ × ℕ) := do
  let center ← pts[i]?
  let iBefore ← findNearestSample pts (windowStart center.tMs) hint
  let iAfter ← findNearestSample pts (windowEnd center.tMs) i
  let flow ← windowFlow pts center.tMs iBefore iAfter
  some (flow, iBefore)

/-! ## Statistics -/

def K_PEAK_HOLD_MS : ℤ := 700

structure Stats where
  /-- `have` -/
  found : Bool := false
  sustainedPeakGPerS : ℚ := 0
  deriving DecidableEq

/-- The locals of `computeFlowSeriesStats`. -/
structure Pass where
  stats : Stats := {}
  win : List (ℤ × ℚ) := []
  runStartT : Option ℤ := none
  hint : ℕ := 0

namespace Pass

/-- One more window minimum. -/
def score (stats : Stats) (windowMin : ℚ) : Stats :=
  if !stats.found || stats.sustainedPeakGPerS < windowMin then ⟨true, windowMin⟩ else stats

def minFrom (v : ℚ) (win : List (ℤ × ℚ)) : ℚ :=
  win.foldl (fun m x => if x.2 < m then x.2 else m) v

/-- The flow of a point joins the window. -/
def take (p : Pass) (t : ℤ) (f : ℚ) : Pass :=
  let runStartT := p.runStartT.getD t
  let win := (p.win.dropWhile fun x => x.1 < t - K_PEAK_HOLD_MS) ++ [(t, f)]
  let stats :=
    if K_PEAK_HOLD_MS ≤ t - runStartT then
      match win with
      | [] => p.stats
      | first :: rest => score p.stats (minFrom first.2 rest)
    else p.stats
  { p with stats := stats, win := win, runStartT := some runStartT }

def step (pts : List Pt) (p : Pass) (i : ℕ) : Pass :=
  match pts[i]?, sampleFlow pts i p.hint with
  | some pt, some (f, hint) => { p.take pt.tMs f with hint := hint }
  | _, _ => { p with win := [], runStartT := none }

end Pass

def computeFlowSeriesStats (pts : List Pt) : Stats :=
  ((List.range pts.length).foldl (Pass.step pts) {}).stats

/-- The flows of a sweep over the first points, and the hint at its end. -/
def flowSweep (pts : List Pt) (n : ℕ) : List (Option ℚ) × ℕ :=
  (List.range n).foldl (fun sweep i =>
    match sampleFlow pts i sweep.2 with
    | some (f, hint) => (sweep.1 ++ [some f], hint)
    | none => (sweep.1 ++ [none], sweep.2)) ([], 0)

end Pumpbug.Web.RobustFlow
