import Pumpbug.Num

/-!
# The backflush cycle

`BackflushCycle.cpp` times five periods with the pump on, with a rest between them.  A pump change
counts from its first report, once it has lasted; one that comes before the period's target has to
last longer.
-/

namespace Pumpbug

namespace BackflushCycle

def CYCLE_COUNT : ℕ := 5
def PHASE_TARGET_MS : U32 := 10000
def BEFORE_TARGET_PUMP_CHANGE_CONFIRM_MS : U32 := 5000
def AFTER_TARGET_PUMP_CHANGE_CONFIRM_MS : U32 := 1500

inductive Phase
  | waitingForPump
  | pumpOn
  | pumpOff
  | complete
  deriving DecidableEq

/-- Duration of each period in milliseconds. -/
structure Results where
  onMs : List U32 := List.replicate CYCLE_COUNT 0
  offMs : List U32 := List.replicate CYCLE_COUNT 0
  deriving DecidableEq

end BackflushCycle

structure BackflushCycle where
  phase : BackflushCycle.Phase := .waitingForPump
  cycleIndex : ℕ := 0
  phaseStartedMs : U32 := 0
  pumpChangeStartedMs : U32 := 0
  pumpChangePending : Bool := false
  results : BackflushCycle.Results := {}
  deriving DecidableEq

namespace BackflushCycle

def clearPumpChange (c : BackflushCycle) : BackflushCycle :=
  { c with pumpChangePending := false, pumpChangeStartedMs := 0 }

def beginPhase (c : BackflushCycle) (phase : Phase) (startedMs : U32) : BackflushCycle :=
  { c with phase := phase, phaseStartedMs := startedMs }.clearPumpChange

def rememberPumpChange (c : BackflushCycle) (nowMs : U32) : BackflushCycle :=
  if c.pumpChangePending then c
  else { c with pumpChangePending := true, pumpChangeStartedMs := nowMs }

def phaseElapsedMs (c : BackflushCycle) (nowMs : U32) : U32 :=
  match c.phase with
  | .pumpOn | .pumpOff => nowMs - c.phaseStartedMs
  | .waitingForPump | .complete => 0

/-- The period with the pump on has ended. -/
def onRecorded (c : BackflushCycle) (cycle : ℕ) : Bool :=
  if CYCLE_COUNT ≤ cycle ∨ c.cycleIndex < cycle then false
  else if cycle < c.cycleIndex then true
  else
    match c.phase with
    | .pumpOff | .complete => true
    | .waitingForPump | .pumpOn => false

/-- The rest has ended. -/
def offRecorded (c : BackflushCycle) (cycle : ℕ) : Bool :=
  cycle < CYCLE_COUNT && cycle < c.cycleIndex

/-- Whether a pending pump change has lasted long enough to end the running period. -/
def shouldApplyPumpChange (c : BackflushCycle) (nowMs : U32) : Bool :=
  if !c.pumpChangePending then false
  else
    let beganAfterTarget := PHASE_TARGET_MS ≤ c.pumpChangeStartedMs - c.phaseStartedMs
    let confirmMs :=
      if beganAfterTarget then AFTER_TARGET_PUMP_CHANGE_CONFIRM_MS
      else BEFORE_TARGET_PUMP_CHANGE_CONFIRM_MS
    confirmMs ≤ nowMs - c.pumpChangeStartedMs

/-- Record the period with the pump on, and begin the rest, or finish. -/
def endPumpOn (c : BackflushCycle) : BackflushCycle :=
  let c' := { c with results := { c.results with
    onMs := c.results.onMs.set c.cycleIndex (c.pumpChangeStartedMs - c.phaseStartedMs) } }
  if c.cycleIndex + 1 = CYCLE_COUNT then c'.beginPhase .complete c.pumpChangeStartedMs
  else c'.beginPhase .pumpOff c.pumpChangeStartedMs

/-- Record the rest, and begin the next period with the pump on. -/
def endPumpOff (c : BackflushCycle) : BackflushCycle :=
  let c' := { c with
    results := { c.results with
      offMs := c.results.offMs.set c.cycleIndex (c.pumpChangeStartedMs - c.phaseStartedMs) }
    cycleIndex := c.cycleIndex + 1 }
  c'.beginPhase .pumpOn c.pumpChangeStartedMs

/-- Apply the pump state detected at `nowMs`; true when a new period started or the run finished. -/
def update (c : BackflushCycle) (nowMs : U32) (pumpDetected : Bool) : BackflushCycle × Bool :=
  match c.phase with
  | .waitingForPump => if !pumpDetected then (c, false) else (c.beginPhase .pumpOn nowMs, true)
  | .pumpOn =>
    if pumpDetected then (c.clearPumpChange, false)
    else
      let c := c.rememberPumpChange nowMs
      if !c.shouldApplyPumpChange nowMs then (c, false) else (c.endPumpOn, true)
  | .pumpOff =>
    if !pumpDetected then (c.clearPumpChange, false)
    else
      let c := c.rememberPumpChange nowMs
      if !c.shouldApplyPumpChange nowMs then (c, false) else (c.endPumpOff, true)
  | .complete => (c, false)

end BackflushCycle

end Pumpbug
