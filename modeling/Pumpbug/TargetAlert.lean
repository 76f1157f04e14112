import Pumpbug.Flow

/-!
# The target alert

`TargetAlert.cpp`: the live "cut the pump now" prediction.  The flow of the trusted yield says how
much more will reach the cup after the pump stops; `STOP_NOW` turns on when the projection reaches
the target and stays on for the shot.
-/

namespace Pumpbug

/-- Clamp to the range of a weight, then round. -/
def clampToInt16 (v : ℚ) : I16 :=
  if 32767 < v then i16 32767 else if v < -32767 then i16 (-32767) else i16 (round v)

inductive AlertLevel where
  /-- Not enabled, no target, or no usable signal yet. -/
  | off
  | approaching
  | stopNow
  deriving DecidableEq

structure AlertState where
  level : AlertLevel := .off
  /-- Until the cut point. -/
  tRemainingMs : ℤ := 0
  flowCgPerS : I16 := 0
  flowValid : Bool := false
  projectedFinalCg : I16 := 0
  /-- The tick on which `STOP_NOW` first turns on. -/
  stopNowEdge : Bool := false
  stopNowFired : Bool := false
  deriving DecidableEq

structure TargetAlert where
  flow : FlowEstimator := {}
  coeffs : TargetCoeffs := {}
  state : AlertState := {}
  lastSeq : ℕ := 0
  haveLastSeq : Bool := false
  stopNowFired : Bool := false
  lastYieldCg : I16 := 0
  haveSample : Bool := false
  deriving DecidableEq

namespace TargetAlert

def kFlowFloorCgPerS : ℚ := 30
def kMaxOvershootCg : ℚ := 1000
def kApproachWindowMs : ℤ := 5000

def setCoeffs (t : TargetAlert) (c : TargetCoeffs) : TargetAlert := { t with coeffs := c }

/-- Start-of-shot reset; the coefficients stay. -/
def onRunningEntry (t : TargetAlert) : TargetAlert := { coeffs := t.coeffs, lastSeq := t.lastSeq }

def reset (t : TargetAlert) : TargetAlert := t.onRunningEntry

/-- Take in a new trusted sample while the pump runs; a repeated `seq` is no new one. -/
def ingest (t : TargetAlert) (phaseRunning : Bool) (sample : TrustedYieldSample) : TargetAlert :=
  if phaseRunning && sample.have_ then
    let t := { t with lastYieldCg := sample.yieldCg, haveSample := true }
    if !t.haveLastSeq || sample.seq ≠ t.lastSeq then
      { t with lastSeq := sample.seq, haveLastSeq := true,
               flow := t.flow.push sample.tMs sample.yieldCg }
    else t
  else t

/-- The smoothed flow, if it is above the floor. -/
def validFlow (t : TargetAlert) (nowMs : U32) : Option ℚ :=
  if t.haveSample then (t.flow.flow nowMs).filter (kFlowFloorCgPerS ≤ ·) else none

/-- The coffee that still reaches the cup after a cut. -/
def overshootCg (t : TargetAlert) (flow : Option ℚ) : ℤ :=
  let ov : ℚ :=
    match flow with
    | some f => f * (t.coeffs.tauMs.toNat / 1000) + t.coeffs.cCg.toInt
    | none => t.coeffs.cCg.toInt
  round (min (max ov 0) kMaxOvershootCg)

def projectedCg (t : TargetAlert) (flow : Option ℚ) : I16 :=
  if t.haveSample then clampToInt16 (t.lastYieldCg.toInt + t.overshootCg flow) else t.lastYieldCg

def tRemainingMs (t : TargetAlert) (flow : Option ℚ) : ℤ :=
  match t.haveSample, flow with
  | true, some f =>
    round (((t.coeffs.targetCg.toInt - t.lastYieldCg.toInt - t.overshootCg flow : ℤ) : ℚ) * 1000 / f) -
      t.coeffs.reactionLeadMs.toNat
  | _, _ => 0

/-- One tick. -/
def update (t : TargetAlert) (nowMs : U32) (phaseRunning : Bool) (sample : TrustedYieldSample) :
    TargetAlert :=
  let t := t.ingest phaseRunning sample
  let flow := t.validFlow nowMs
  let projected := t.projectedCg flow
  let tRemaining := t.tRemainingMs flow
  let alertEnabled := t.coeffs.armed && 0 < t.coeffs.targetCg.toInt && phaseRunning
  let usable := alertEnabled && t.haveSample
  let fired := t.stopNowFired || (usable && t.coeffs.targetCg.toInt ≤ projected.toInt)
  { t with
    stopNowFired := fired
    state := {
      level :=
        if usable && fired then .stopNow
        else if usable && flow.isSome && 0 < tRemaining && tRemaining ≤ kApproachWindowMs then
          .approaching
        else .off
      tRemainingMs := tRemaining
      flowCgPerS := (flow.map clampToInt16).getD 0
      flowValid := flow.isSome
      projectedFinalCg := projected
      stopNowEdge := !t.stopNowFired && fired
      stopNowFired := fired } }

/-- The values that an alarm records. -/
def snapshotAtStop (t : TargetAlert) : AlarmContext where
  yieldCg := t.lastYieldCg
  flowCgPerS := t.state.flowCgPerS
  flowValid := t.state.flowValid
  projectedFinalCg := t.state.projectedFinalCg

/-- The alert fires on a running shot only. -/
theorem stopNowEdge_of_not_running (t : TargetAlert) (nowMs : U32) (sample : TrustedYieldSample) :
    (t.update nowMs false sample).state.stopNowEdge = false := by
  unfold update
  dsimp only
  rw [Bool.and_false, Bool.false_and, Bool.false_and, Bool.or_false]
  exact Bool.not_and_self _

end TargetAlert

end Pumpbug
