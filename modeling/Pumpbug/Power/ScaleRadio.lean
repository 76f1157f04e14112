import Pumpbug.Num

/-!
# The scale radio

`ScaleRadioStateMachine`: every update asks `radioTarget` what the Bluetooth controller should be
doing and takes at most one step toward the answer.

    Monitoring --- radio unwanted --> Suspending --- service Off --> Stopping
        ^                                 |                              |
        + <------ radio wanted again -----+                      controller Stopped
        |                                                                v
        + <-- controller Running -- Starting <-- radio wanted -- ControllerStopped

`PowerManager` performs the returned action and reports its immediate result with `resolve`.
-/

namespace Pumpbug.Power

/-! ## Controller transitions -/

/-- `ble::ControllerState`. -/
inductive ControllerState where
  | running | stopping | stopped | starting
  /-- A lifecycle operation failed; recovery needs a reboot. -/
  | failed
  deriving DecidableEq

inductive TransitionTarget where
  | running | stopped
  deriving DecidableEq

def TransitionTarget.state : TransitionTarget → ControllerState
  | running => .running
  | stopped => .stopped

inductive TransitionResult where
  | inactive | pending | succeeded | failed | timedOut
  deriving DecidableEq

def kDefaultTimeoutMs : U32 := 5000

/-- Tracks the result and the timeout of one asynchronous controller transition. -/
structure ControllerTransition where
  target : TransitionTarget := .running
  result : TransitionResult := .inactive
  startedMs : U32 := 0
  timeoutMs : U32 := 0
  deriving DecidableEq

namespace ControllerTransition

def pending (t : ControllerTransition) : Bool := t.result = .pending

/-- Refused while another transition is pending. -/
def begin (t : ControllerTransition) (target : TransitionTarget) (nowMs : U32) :
    Option ControllerTransition :=
  if t.result = .pending then none
  else
    some { target := target, result := .pending, startedMs := nowMs,
           timeoutMs := kDefaultTimeoutMs }

def update (t : ControllerTransition) (state : ControllerState) (nowMs : U32) :
    ControllerTransition :=
  if t.result ≠ .pending then t
  else if state = .failed then { t with result := .failed }
  else if state = t.target.state then { t with result := .succeeded }
  else if t.timeoutMs ≤ nowMs - t.startedMs then { t with result := .timedOut }
  else t

def reset (t : ControllerTransition) : ControllerTransition := { t with result := .inactive }

@[simp] theorem pending_reset (t : ControllerTransition) : t.reset.pending = false := rfl

end ControllerTransition

/-! ## What the radio should be doing -/

inductive ScaleServiceState where
  | off | disconnected | connecting | ready
  deriving DecidableEq

structure ScaleRadioConditions where
  service : ScaleServiceState := .off
  screenDimmed : Bool := false
  connectWanted : Bool := false
  diagnosticScanWanted : Bool := false
  deriving DecidableEq

inductive ScaleRadioPolicy where
  /-- Releases a disconnected controller after display dimming. -/
  | demand
  | forceRunning
  | forceStopped
  /-- The application drives the controller itself. -/
  | externalControl
  deriving DecidableEq

def controllerShouldRun (c : ScaleRadioConditions) : Bool :=
  if c.diagnosticScanWanted then true
  else if !c.connectWanted then false
  else if !c.screenDimmed then true
  else c.service = .ready || c.service = .connecting

/-- What the policy wants the controller to be doing. -/
def radioTarget (policy : ScaleRadioPolicy) (c : ScaleRadioConditions) : Bool :=
  match policy with
  | .forceRunning => true
  | .forceStopped => false
  | .externalControl => false
  | .demand => controllerShouldRun c

/-! ## The machine -/

namespace ScaleRadio

inductive State where
  | monitoring | suspending | stopping | controllerStopped | starting | failed
  deriving DecidableEq

inductive Action where
  | none | stopController | startController
  deriving DecidableEq

inductive EventKind where
  | none | stopStarted | controllerStopped | wakeRequested | controllerRestarted | failure
  deriving DecidableEq

inductive FailureArea where
  | serviceStop | controllerStop | controllerStart | controllerUnusable
  deriving DecidableEq

structure Inputs where
  service : ScaleServiceState := .off
  controller : ControllerState := .stopped
  nowMs : U32 := 0
  screenDimmed : Bool := false
  connectWanted : Bool := false
  diagnosticScanWanted : Bool := false
  deriving DecidableEq

structure Event where
  kind : EventKind := .none
  failureArea : FailureArea := .serviceStop
  reason : Option String := none
  deriving DecidableEq

/-- At most one action and one event. -/
structure Decision where
  action : Action := .none
  event : Event := {}
  deriving DecidableEq

def Decision.ofAction (requested : Action) : Decision := { action := requested }

def Decision.ofEvent (kind : EventKind) : Decision := { event := { kind := kind } }

def Decision.failure (area : FailureArea) (reason : String) : Decision :=
  { event := { kind := .failure, failureArea := area, reason := some reason } }

/-- The observation as the policy sees it. -/
def Inputs.conditions (i : Inputs) : ScaleRadioConditions where
  service := i.service
  screenDimmed := i.screenDimmed
  connectWanted := i.connectWanted
  diagnosticScanWanted := i.diagnosticScanWanted

structure Machine where
  controllerTransition : ControllerTransition := {}
  state : State := .monitoring
  policy : ScaleRadioPolicy := .demand
  /-- Permits one more attempt after a failure. -/
  activityPending : Bool := false
  stageStartedMs : U32 := 0
  deriving DecidableEq

def kServiceStopTimeoutMs : U32 := 5000

namespace Machine

/-- The scale service stays suspended until a restart has landed; `Failed` lifts the suspension. -/
def wantsServiceSuspended (m : Machine) : Bool :=
  match m.state with
  | .suspending | .stopping | .controllerStopped | .starting => true
  | .monitoring | .failed => false

def inTransition (m : Machine) : Bool :=
  m.state = .suspending || m.state = .stopping || m.state = .starting

def hasFailed (m : Machine) : Bool := m.state = .failed

def notifyActivity (m : Machine) : Machine := { m with activityPending := true }

/-- The machine after the call, and whether the policy is the requested one. -/
def setPolicy (m : Machine) (policy : ScaleRadioPolicy) : Machine × Bool :=
  if policy = m.policy then (m, true)
  else if m.policy = .externalControl then (m, false)
  else if policy = .externalControl && (m.inTransition || m.hasFailed || m.wantsServiceSuspended) then
    (m, false)
  else ({ m with policy := policy, activityPending := true }, true)

def fail (m : Machine) (area : FailureArea) (reason : String) : Machine × Decision :=
  ({ m with controllerTransition := m.controllerTransition.reset, state := .failed,
            activityPending := false }, .failure area reason)

/-- Wait for a transition to land, reporting `decision`; `busy` if another one is pending. -/
def awaitTransition (m : Machine) (target : TransitionTarget) (nowMs : U32) (state : State)
    (decision : Decision) (area : FailureArea) (busy : String) : Machine × Decision :=
  match m.controllerTransition.begin target nowMs with
  | none => m.fail area busy
  | some t => ({ m with controllerTransition := t, state := state }, decision)

def beginControllerStop (m : Machine) (i : Inputs) : Machine × Decision :=
  match i.controller with
  | .stopped => ({ m with state := .controllerStopped }, .ofEvent .controllerStopped)
  | .failed => m.fail .controllerStop "stop unavailable"
  | .starting => m.fail .controllerStop "stop busy"
  | .running => ({ m with state := .stopping }, .ofAction .stopController)
  -- already stopping under someone else's request
  | .stopping => m.awaitTransition .stopped i.nowMs .stopping {} .controllerStop "stop wait busy"

def beginControllerStart (m : Machine) (i : Inputs) : Machine × Decision :=
  let m := { m with activityPending := false }
  match i.controller with
  | .failed => m.fail .controllerStart "start unavailable"
  -- already starting under someone else's request
  | .starting =>
    m.awaitTransition .running i.nowMs .starting (.ofEvent .wakeRequested) .controllerStart
      "start wait busy"
  | _ =>
    ({ m with state := .starting },
      { action := .startController, event := { kind := .wakeRequested } })

def advanceTransition (m : Machine) (i : Inputs) : Machine × Decision :=
  let starting := decide (m.state = .starting)
  let m := { m with controllerTransition := m.controllerTransition.update i.controller i.nowMs }
  let area : FailureArea := if starting then .controllerStart else .controllerStop
  match m.controllerTransition.result with
  | .succeeded =>
    let m := { m with controllerTransition := m.controllerTransition.reset }
    if starting then
      ({ m with state := .monitoring, activityPending := false }, .ofEvent .controllerRestarted)
    else ({ m with state := .controllerStopped }, .ofEvent .controllerStopped)
  | .failed => m.fail area (if starting then "start failed" else "stop failed")
  | .timedOut => m.fail area (if starting then "start timed out" else "stop timed out")
  | _ => (m, {})

def updateMonitoring (m : Machine) (i : Inputs) (shouldRun : Bool) : Machine × Decision :=
  if i.controller = .stopped then ({ m with state := .controllerStopped }, {})
  else if i.controller = .failed then m.fail .controllerUnusable "controller unusable"
  else if shouldRun || i.controller ≠ .running then (m, {})
  else ({ m with state := .suspending, stageStartedMs := i.nowMs }, .ofEvent .stopStarted)

def updateSuspending (m : Machine) (i : Inputs) (shouldRun : Bool) : Machine × Decision :=
  if shouldRun then ({ m with state := .monitoring }, {})
  else if i.service = .off then m.beginControllerStop i
  else if kServiceStopTimeoutMs ≤ i.nowMs - m.stageStartedMs then
    m.fail .serviceStop "service stop timed out"
  else (m, {})

def updateControllerStopped (m : Machine) (i : Inputs) (shouldRun : Bool) : Machine × Decision :=
  if i.controller = .running then ({ m with state := .monitoring }, {})
  else if !shouldRun then (m, {})
  else m.beginControllerStart i

def updateFailed (m : Machine) (i : Inputs) (shouldRun : Bool) : Machine × Decision :=
  let running := decide (i.controller = .running)
  let stopped := decide (i.controller = .stopped)
  if !running && !stopped then (m, {})
  else if running ≠ shouldRun && !m.activityPending then (m, {})
  else ({ m with state := if running then .monitoring else .controllerStopped }, {})

def update (m : Machine) (i : Inputs) : Machine × Decision :=
  if m.policy = .externalControl then (m, {})
  else
    let shouldRun := radioTarget m.policy i.conditions
    match m.state with
    | .stopping | .starting =>
      if m.controllerTransition.pending then m.advanceTransition i else (m, {})
    | .monitoring => m.updateMonitoring i shouldRun
    | .suspending => m.updateSuspending i shouldRun
    | .controllerStopped => m.updateControllerStopped i shouldRun
    | .failed => m.updateFailed i shouldRun

/-- The immediate result of a returned request. -/
def resolve (m : Machine) (resolved : Action) (accepted : Bool) (i : Inputs) : Machine × Decision :=
  match resolved with
  | .stopController =>
    if i.controller = .stopped then
      ({ m with state := .controllerStopped }, .ofEvent .controllerStopped)
    else if i.controller = .failed then m.fail .controllerStop "stop failed"
    else if !accepted && i.controller ≠ .stopping then m.fail .controllerStop "stop rejected"
    else m.awaitTransition .stopped i.nowMs .stopping {} .controllerStop "stop wait busy"
  | .startController =>
    if i.controller = .running then ({ m with state := .monitoring }, .ofEvent .controllerRestarted)
    else if i.controller = .failed then m.fail .controllerStart "start failed"
    else if !accepted && i.controller ≠ .starting then m.fail .controllerStart "start rejected"
    else m.awaitTransition .running i.nowMs .starting {} .controllerStart "start wait busy"
  | .none => (m, {})

end Machine

/-! ## The power manager -/

/-- How the service answers a request, and what is observed right after it. -/
structure Answer where
  accepted : Bool := true
  inputs : Inputs := {}

def kDecisionCycleLimit : ℕ := 4

/-- `applyRadioDecision`: perform a decision and whatever resolving it leads to.  The result lists
the decisions performed. -/
def applyRadioDecision (answers : ℕ → Action → Answer) :
    ℕ → Machine → Decision → Machine × List Decision
  | 0, m, _ => (m, [])
  | fuel + 1, m, d =>
    match d.action with
    | .none => (m, [d])
    | .stopController | .startController =>
      let answer := answers fuel d.action
      let resolved := m.resolve d.action answer.accepted answer.inputs
      let rest := applyRadioDecision answers fuel resolved.1 resolved.2
      (rest.1, d :: rest.2)

/-- The radio's part of `PowerManager::update`. -/
def Machine.tick (m : Machine) (i : Inputs) (answers : ℕ → Action → Answer) :
    Machine × List Decision :=
  applyRadioDecision answers kDecisionCycleLimit (m.update i).1 (m.update i).2

end ScaleRadio

end Pumpbug.Power
