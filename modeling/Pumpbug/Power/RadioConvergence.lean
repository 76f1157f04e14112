import Pumpbug.Lib.Run
import Pumpbug.Power.ScaleRadio

/-!
# The radio settles

The closed loop of the convergence test: accepted requests complete before the next update, a
suspended service is `Off` by the next update, and an unsuspended service that is wanted goes from
`Off` to `Disconnected`.  Once its surroundings stay as they are, the machine has at most four
updates to go.
-/

namespace Pumpbug.Power.ScaleRadio

open Lib

/-! ## The closed loop -/

/-- What the controller reports while it carries out a request. -/
def Action.interim : Action → ControllerState → ControllerState
  | .stopController, _ => .stopping
  | .startController, _ => .starting
  | .none, c => c

/-- Where a controller is one step later. -/
def completed : ControllerState → ControllerState
  | .stopping => .stopped
  | .starting => .running
  | c => c

/-- Stands in for the controller and the scale service. -/
structure Simulation where
  machine : Machine := {}
  inputs : Inputs := {}
  releasesStarted : ℕ := 0
  stopsRequested : ℕ := 0
  startsRequested : ℕ := 0

namespace Simulation

/-- A fresh machine over a controller that runs or is stopped. -/
def fresh (running : Bool) (i : Inputs) : Simulation :=
  { inputs := { i with controller := if running then .running else .stopped } }

/-- Every request is accepted, and the controller sets out at once. -/
def answers (i : Inputs) (_ : ℕ) (a : Action) : Answer :=
  { accepted := true, inputs := { i with controller := a.interim i.controller } }

def ticked (s : Simulation) (nowMs : U32) : Machine × List Decision :=
  s.machine.tick { s.inputs with nowMs := nowMs } (answers { s.inputs with nowMs := nowMs })

def decisions (s : Simulation) (nowMs : U32) : List Decision := (s.ticked nowMs).2

/-- The service after an update of the machine. -/
def settleService (m : Machine) (i : Inputs) : ScaleServiceState :=
  if m.wantsServiceSuspended then .off
  else if i.connectWanted && i.service = .off then .disconnected
  else i.service

def step (s : Simulation) (nowMs : U32) : Simulation :=
  let r := s.ticked nowMs
  { machine := r.1
    inputs := { s.inputs with
      nowMs := nowMs
      controller :=
        completed (r.2.foldl (fun c d => d.action.interim c) s.inputs.controller)
      service := settleService r.1 s.inputs }
    releasesStarted := s.releasesStarted + r.2.countP (·.event.kind = .stopStarted)
    stopsRequested := s.stopsRequested + r.2.countP (·.action = .stopController)
    startsRequested := s.startsRequested + r.2.countP (·.action = .startController) }

def radioRunning (s : Simulation) : Bool := s.inputs.controller = .running

def policyWantsRadio (s : Simulation) : Bool := radioTarget s.machine.policy s.inputs.conditions

end Simulation

/-- Everything about the loop that may change between updates. -/
structure Surroundings where
  connectWanted : Bool := false
  diagnosticScanWanted : Bool := false
  screenDimmed : Bool := false
  /-- How far the link has got, if the service is not suspended. -/
  service : ScaleServiceState := .off
  activity : Bool := false
  policy : ScaleRadioPolicy := .demand
  managed : policy ≠ .externalControl := by decide

inductive LoopMove where
  | change (c : Surroundings)
  | update (nowMs : U32)

namespace Simulation

def change (s : Simulation) (c : Surroundings) : Simulation :=
  let m := if c.activity then s.machine.notifyActivity else s.machine
  { s with
    machine := (m.setPolicy c.policy).1
    inputs := { s.inputs with
      connectWanted := c.connectWanted
      diagnosticScanWanted := c.diagnosticScanWanted
      screenDimmed := c.screenDimmed
      service := if s.machine.wantsServiceSuspended then s.inputs.service else c.service } }

def move (s : Simulation) : LoopMove → Simulation
  | .change c => s.change c
  | .update nowMs => s.step nowMs

/-! ## Where the loop can be -/

/-- The places of the loop between updates. -/
inductive Place (s : Simulation) : Prop where
  | running (h : s.machine.state = .monitoring) (hc : s.inputs.controller = .running)
  /-- A machine that has not looked yet. -/
  | unseen (h : s.machine.state = .monitoring) (hc : s.inputs.controller = .stopped)
  | releasing (h : s.machine.state = .suspending) (hc : s.inputs.controller = .running)
      (hs : s.inputs.service = .off)
  | stopping (h : s.machine.state = .stopping) (hc : s.inputs.controller = .stopped)
      (hs : s.inputs.service = .off) (hp : s.machine.controllerTransition.result = .pending)
      (ht : s.machine.controllerTransition.target = .stopped)
  | stopped (h : s.machine.state = .controllerStopped) (hc : s.inputs.controller = .stopped)
      (hs : s.inputs.service = .off)
  | starting (h : s.machine.state = .starting) (hc : s.inputs.controller = .running)
      (hs : s.inputs.service = .off) (hp : s.machine.controllerTransition.result = .pending)
      (ht : s.machine.controllerTransition.target = .running)

/-- The loop invariant. -/
structure Sane (s : Simulation) : Prop where
  managed : s.machine.policy ≠ .externalControl
  idle : s.machine.state ≠ .stopping → s.machine.state ≠ .starting →
    s.machine.controllerTransition.result ≠ .pending
  place : s.Place

theorem sane_fresh (running : Bool) (i : Inputs) : (fresh running i).Sane := by
  refine ⟨nofun, fun _ _ => nofun, ?_⟩
  cases running with
  | true => exact .running rfl rfl
  | false => exact .unseen rfl rfl

theorem setPolicy_eq (m : Machine) {policy : ScaleRadioPolicy} (hm : m.policy ≠ .externalControl)
    (hp : policy ≠ .externalControl) :
    (m.setPolicy policy).1.state = m.state ∧ (m.setPolicy policy).1.policy = policy ∧
      (m.setPolicy policy).1.controllerTransition = m.controllerTransition := by
  unfold Machine.setPolicy
  by_cases h : policy = m.policy
  · rw [if_pos h]
    exact ⟨rfl, h.symm, rfl⟩
  · rw [if_neg h, if_neg hm, if_neg (by simp [hp])]
    exact ⟨rfl, rfl, rfl⟩

theorem sane_change {s : Simulation} (c : Surroundings) (h : s.Sane) : (s.change c).Sane := by
  obtain ⟨m, hm, hstate, hpol, htrans⟩ : ∃ m : Machine,
      m = (if c.activity then s.machine.notifyActivity else s.machine) ∧
      m.state = s.machine.state ∧ m.policy = s.machine.policy ∧
      m.controllerTransition = s.machine.controllerTransition := by
    refine ⟨_, rfl, ?_⟩
    split_ifs <;> exact ⟨rfl, rfl, rfl⟩
  obtain ⟨h₁, h₂, h₃⟩ := setPolicy_eq m (by rw [hpol]; exact h.managed) c.managed
  have hs : (s.change c).machine = (m.setPolicy c.policy).1 := by rw [hm]; rfl
  have hoff : s.machine.wantsServiceSuspended = true →
      (s.change c).inputs.service = s.inputs.service := fun hw => if_pos hw
  refine ⟨by rw [hs, h₂]; exact c.managed, ?_, ?_⟩
  · rw [hs, h₁, h₃, hstate, htrans]
    exact h.idle
  · have hst : (s.change c).machine.state = s.machine.state := by rw [hs, h₁, hstate]
    have htr : (s.change c).machine.controllerTransition = s.machine.controllerTransition := by
      rw [hs, h₃, htrans]
    have hsus : ∀ st, s.machine.state = st → st ≠ .monitoring → st ≠ .failed →
        s.machine.wantsServiceSuspended = true := by
      intro st hst h₁ h₂
      unfold Machine.wantsServiceSuspended
      rw [hst]
      cases st <;> simp_all
    rcases h.place with ⟨h, hc⟩ | ⟨h, hc⟩ | ⟨h, hc, hso⟩ | ⟨h, hc, hso, hp, ht⟩ | ⟨h, hc, hso⟩ |
      ⟨h, hc, hso, hp, ht⟩
    · exact .running (hst.trans h) hc
    · exact .unseen (hst.trans h) hc
    · exact .releasing (hst.trans h) hc ((hoff (hsus _ h (by decide) (by decide))).trans hso)
    · exact .stopping (hst.trans h) hc ((hoff (hsus _ h (by decide) (by decide))).trans hso)
        (by rw [htr]; exact hp) (by rw [htr]; exact ht)
    · exact .stopped (hst.trans h) hc ((hoff (hsus _ h (by decide) (by decide))).trans hso)
    · exact .starting (hst.trans h) hc ((hoff (hsus _ h (by decide) (by decide))).trans hso)
        (by rw [htr]; exact hp) (by rw [htr]; exact ht)

/-! ## What is left to do -/

/-- The target while the service is down. -/
def restingTarget (s : Simulation) : Bool :=
  radioTarget s.machine.policy { s.inputs.conditions with service := .off }

/-- The target does not tell a service that is off from one that searches. -/
theorem radioTarget_disconnected (policy : ScaleRadioPolicy) (c : ScaleRadioConditions) :
    radioTarget policy { c with service := .disconnected } =
      radioTarget policy { c with service := .off } := by
  unfold radioTarget controllerShouldRun
  cases policy <;> simp

/-- Losing the link never makes the radio wanted. -/
theorem radioTarget_of_resting {policy : ScaleRadioPolicy} {c : ScaleRadioConditions}
    (h : radioTarget policy { c with service := .off } = true) : radioTarget policy c = true := by
  unfold radioTarget controllerShouldRun at h ⊢
  cases policy with
  | demand =>
    split_ifs at h ⊢ <;> simp_all
  | _ => exact h

/-- Updates until the loop rests. -/
def stepsLeft (s : Simulation) : ℕ :=
  match s.machine.state with
  | .monitoring =>
    if s.inputs.controller = .stopped then (if s.restingTarget then 3 else 1)
    else if s.policyWantsRadio then 0 else 3
  | .suspending => if s.restingTarget then 1 else 2
  | .stopping => if s.restingTarget then 3 else 1
  | .controllerStopped => if s.restingTarget then 2 else 0
  | .starting => if s.restingTarget then 1 else 4
  | .failed => 0

def releasesLeft (s : Simulation) : ℕ :=
  match s.machine.state with
  | .monitoring => if s.inputs.controller ≠ .stopped ∧ s.policyWantsRadio = false then 1 else 0
  | .starting => if s.restingTarget then 0 else 1
  | _ => 0

def stopsLeft (s : Simulation) : ℕ :=
  match s.machine.state with
  | .monitoring => if s.inputs.controller ≠ .stopped ∧ s.policyWantsRadio = false then 1 else 0
  | .suspending | .starting => if s.restingTarget then 0 else 1
  | _ => 0

def startsLeft (s : Simulation) : ℕ :=
  match s.machine.state with
  | .monitoring => if s.inputs.controller = .stopped ∧ s.restingTarget = true then 1 else 0
  | .stopping | .controllerStopped => if s.restingTarget then 1 else 0
  | _ => 0

theorem stepsLeft_le (s : Simulation) : s.stepsLeft ≤ 4 := by
  unfold stepsLeft
  split
  case h_6 => omega
  all_goals split_ifs <;> omega

theorem budgets_le (s : Simulation) :
    s.releasesLeft ≤ 1 ∧ s.stopsLeft ≤ 1 ∧ s.startsLeft ≤ 1 := by
  refine ⟨?_, ?_, ?_⟩
  · unfold releasesLeft
    split
    case h_3 => omega
    all_goals split_ifs <;> omega
  · unfold stopsLeft
    split
    case h_4 => omega
    all_goals split_ifs <;> omega
  · unfold startsLeft
    split
    case h_4 => omega
    all_goals split_ifs <;> omega

/-- What an update does to the loop. -/
structure Advances (s : Simulation) (nowMs : U32) : Prop where
  sane : (s.step nowMs).Sane
  steps : (s.step nowMs).stepsLeft = s.stepsLeft - 1
  releases : (s.step nowMs).releasesStarted + (s.step nowMs).releasesLeft =
    s.releasesStarted + s.releasesLeft
  stops : (s.step nowMs).stopsRequested + (s.step nowMs).stopsLeft = s.stopsRequested + s.stopsLeft
  starts : (s.step nowMs).startsRequested + (s.step nowMs).startsLeft =
    s.startsRequested + s.startsLeft
  rests : s.stepsLeft = 0 → ∀ d ∈ s.decisions nowMs, d = {}

/-! ## One update from each place -/

/-- The observation of an update. -/
def observed (s : Simulation) (nowMs : U32) : Inputs := { s.inputs with nowMs := nowMs }

theorem ticked_quiet {s : Simulation} {nowMs : U32} {m : Machine} {d : Decision}
    (h : s.machine.update (s.observed nowMs) = (m, d)) (hd : d.action = .none) :
    s.ticked nowMs = (m, [d]) := by
  unfold ticked Machine.tick kDecisionCycleLimit
  rw [show ({ s.inputs with nowMs := nowMs } : Inputs) = s.observed nowMs from rfl, h]
  unfold applyRadioDecision
  rw [hd]

theorem ticked_request {s : Simulation} {nowMs : U32} {m m' : Machine} {d d' : Decision}
    (h : s.machine.update (s.observed nowMs) = (m, d)) (hd : d.action ≠ .none)
    (hr : m.resolve d.action true
      { s.observed nowMs with controller := d.action.interim s.inputs.controller } = (m', d'))
    (hd' : d'.action = .none) : s.ticked nowMs = (m', [d, d']) := by
  unfold ticked Machine.tick kDecisionCycleLimit
  rw [show ({ s.inputs with nowMs := nowMs } : Inputs) = s.observed nowMs from rfl, h]
  unfold applyRadioDecision answers
  have hr' : m.resolve d.action true
      { s.observed nowMs with controller := d.action.interim (s.observed nowMs).controller } =
      (m', d') := hr
  cases ha : d.action with
  | none => exact absurd ha hd
  | stopController =>
    rw [ha] at hr'
    dsimp only
    rw [hr']
    unfold applyRadioDecision
    rw [hd']
  | startController =>
    rw [ha] at hr'
    dsimp only
    rw [hr']
    unfold applyRadioDecision
    rw [hd']

/-- A transition just begun. -/
def awaiting (target : TransitionTarget) (nowMs : U32) : ControllerTransition :=
  { target := target, result := .pending, startedMs := nowMs, timeoutMs := kDefaultTimeoutMs }

theorem begin_of_idle {t : ControllerTransition} (target : TransitionTarget) (nowMs : U32)
    (h : t.result ≠ .pending) : t.begin target nowMs = some (awaiting target nowMs) := if_neg h

theorem update_of_landed {t : ControllerTransition} (nowMs : U32) (h : t.result = .pending) :
    (t.update t.target.state nowMs).result = .succeeded := by
  have hnf : t.target.state ≠ .failed := by cases t.target <;> decide
  unfold ControllerTransition.update
  rw [if_neg (by rw [h]; decide), if_neg hnf, if_pos rfl]

theorem ticked_running {s : Simulation} (nowMs : U32) (hs : s.Sane)
    (h : s.machine.state = .monitoring) (hc : s.inputs.controller = .running) :
    s.ticked nowMs =
      if s.policyWantsRadio then (s.machine, [{}])
      else ({ s.machine with state := .suspending, stageStartedMs := nowMs },
        [.ofEvent .stopStarted]) := by
  have hu : s.machine.update (s.observed nowMs) =
      s.machine.updateMonitoring (s.observed nowMs) s.policyWantsRadio := by
    unfold Machine.update
    rw [if_neg hs.managed, h]
    rfl
  have hco : (s.observed nowMs).controller = .running := hc
  unfold Machine.updateMonitoring at hu
  rw [hco, if_neg (by decide), if_neg (by decide)] at hu
  by_cases hw : s.policyWantsRadio = true
  · rw [hw] at hu ⊢
    exact ticked_quiet hu rfl
  · have hw' : s.policyWantsRadio = false := by simpa using hw
    rw [hw'] at hu ⊢
    exact ticked_quiet hu rfl

theorem ticked_unseen {s : Simulation} (nowMs : U32) (hs : s.Sane)
    (h : s.machine.state = .monitoring) (hc : s.inputs.controller = .stopped) :
    s.ticked nowMs = ({ s.machine with state := .controllerStopped }, [{}]) := by
  apply ticked_quiet _ rfl
  have hco : (s.observed nowMs).controller = .stopped := hc
  unfold Machine.update
  rw [if_neg hs.managed, h]
  dsimp only
  unfold Machine.updateMonitoring
  rw [if_pos hco]

theorem restingTarget_of_off {s : Simulation} (hs : s.inputs.service = .off) :
    s.policyWantsRadio = s.restingTarget := by
  unfold policyWantsRadio restingTarget Inputs.conditions
  rw [hs]

theorem ticked_releasing {s : Simulation} (nowMs : U32) (hs : s.Sane)
    (h : s.machine.state = .suspending) (hc : s.inputs.controller = .running)
    (ho : s.inputs.service = .off) :
    s.ticked nowMs =
      if s.restingTarget then ({ s.machine with state := .monitoring }, [{}])
      else ({ s.machine with
                state := .stopping
                controllerTransition := awaiting .stopped nowMs },
        [.ofAction .stopController, {}]) := by
  have hu : s.machine.update (s.observed nowMs) =
      s.machine.updateSuspending (s.observed nowMs) s.restingTarget := by
    rw [← restingTarget_of_off ho]
    unfold Machine.update
    rw [if_neg hs.managed, h]
    rfl
  have hco : (s.observed nowMs).controller = .running := hc
  have hso : (s.observed nowMs).service = .off := ho
  unfold Machine.updateSuspending Machine.beginControllerStop at hu
  rw [hco, if_pos hso] at hu
  by_cases hw : s.restingTarget = true
  · rw [hw] at hu ⊢
    exact ticked_quiet hu rfl
  · have hw' : s.restingTarget = false := by simpa using hw
    rw [hw'] at hu ⊢
    refine ticked_request hu (by decide) ?_ rfl
    have hidle := hs.idle (by rw [h]; decide) (by rw [h]; decide)
    unfold Machine.resolve Machine.awaitTransition
    dsimp only
    rw [begin_of_idle _ _ hidle]
    rfl

theorem ticked_stopped {s : Simulation} (nowMs : U32) (hs : s.Sane)
    (h : s.machine.state = .controllerStopped) (hc : s.inputs.controller = .stopped)
    (ho : s.inputs.service = .off) :
    s.ticked nowMs =
      if s.restingTarget then
        ({ s.machine with
             activityPending := false
             state := .starting
             controllerTransition := awaiting .running nowMs },
          [{ action := .startController, event := { kind := .wakeRequested } }, {}])
      else (s.machine, [{}]) := by
  have hu : s.machine.update (s.observed nowMs) =
      s.machine.updateControllerStopped (s.observed nowMs) s.restingTarget := by
    rw [← restingTarget_of_off ho]
    unfold Machine.update
    rw [if_neg hs.managed, h]
    rfl
  have hco : (s.observed nowMs).controller = .stopped := hc
  unfold Machine.updateControllerStopped Machine.beginControllerStart at hu
  rw [hco, if_neg (by decide)] at hu
  by_cases hw : s.restingTarget = true
  · rw [hw] at hu ⊢
    refine ticked_request hu (by decide) ?_ rfl
    have hidle := hs.idle (by rw [h]; decide) (by rw [h]; decide)
    unfold Machine.resolve Machine.awaitTransition
    dsimp only
    rw [begin_of_idle _ _ hidle]
    rfl
  · have hw' : s.restingTarget = false := by simpa using hw
    rw [hw'] at hu ⊢
    exact ticked_quiet hu rfl

theorem ticked_stopping {s : Simulation} (nowMs : U32) (hs : s.Sane)
    (h : s.machine.state = .stopping) (hc : s.inputs.controller = .stopped)
    (hp : s.machine.controllerTransition.result = .pending)
    (ht : s.machine.controllerTransition.target = .stopped) :
    s.ticked nowMs =
      ({ s.machine with
           controllerTransition := (s.machine.controllerTransition.update .stopped nowMs).reset
           state := .controllerStopped }, [.ofEvent .controllerStopped]) := by
  apply ticked_quiet _ rfl
  have hco : (s.observed nowMs).controller = .stopped := hc
  have hland : (s.machine.controllerTransition.update .stopped nowMs).result = .succeeded := by
    have := update_of_landed nowMs hp
    rwa [ht] at this
  have hpend : s.machine.controllerTransition.pending = true := by
    unfold ControllerTransition.pending
    exact decide_eq_true hp
  unfold Machine.update
  rw [if_neg hs.managed, h]
  dsimp only
  rw [if_pos hpend]
  unfold Machine.advanceTransition
  dsimp only
  rw [hco, show (s.observed nowMs).nowMs = nowMs from rfl, hland, h]
  rfl

theorem ticked_starting {s : Simulation} (nowMs : U32) (hs : s.Sane)
    (h : s.machine.state = .starting) (hc : s.inputs.controller = .running)
    (hp : s.machine.controllerTransition.result = .pending)
    (ht : s.machine.controllerTransition.target = .running) :
    s.ticked nowMs =
      ({ s.machine with
           controllerTransition := (s.machine.controllerTransition.update .running nowMs).reset
           state := .monitoring
           activityPending := false }, [.ofEvent .controllerRestarted]) := by
  apply ticked_quiet _ rfl
  have hco : (s.observed nowMs).controller = .running := hc
  have hland : (s.machine.controllerTransition.update .running nowMs).result = .succeeded := by
    have := update_of_landed nowMs hp
    rwa [ht] at this
  have hpend : s.machine.controllerTransition.pending = true := by
    unfold ControllerTransition.pending
    exact decide_eq_true hp
  unfold Machine.update
  rw [if_neg hs.managed, h]
  dsimp only
  rw [if_pos hpend]
  unfold Machine.advanceTransition
  dsimp only
  rw [hco, show (s.observed nowMs).nowMs = nowMs from rfl, hland, h]
  rfl

/-! ## The measure -/

theorem step_of_ticked {s : Simulation} {nowMs : U32} {m : Machine} {log : List Decision}
    (h : s.ticked nowMs = (m, log)) :
    s.step nowMs =
      { machine := m
        inputs := { s.inputs with
          nowMs := nowMs
          controller := completed (log.foldl (fun c d => d.action.interim c) s.inputs.controller)
          service := settleService m s.inputs }
        releasesStarted := s.releasesStarted + log.countP (·.event.kind = .stopStarted)
        stopsRequested := s.stopsRequested + log.countP (·.action = .stopController)
        startsRequested := s.startsRequested + log.countP (·.action = .startController) } := by
  unfold step
  rw [h]

/-- The target does not change while the service only goes off or begins to search. -/
theorem restingTarget_step {s : Simulation} {nowMs : U32} {m : Machine} {log : List Decision}
    (h : s.ticked nowMs = (m, log)) (hp : m.policy = s.machine.policy) :
    (s.step nowMs).restingTarget = s.restingTarget := by
  rw [step_of_ticked h]
  unfold restingTarget Inputs.conditions
  rw [hp]

/-- After an update that leaves the service to itself, the target is as before. -/
theorem policyWantsRadio_step {s : Simulation} {nowMs : U32} {m : Machine} {log : List Decision}
    (h : s.ticked nowMs = (m, log)) (hp : m.policy = s.machine.policy)
    (hm : m.wantsServiceSuspended = false) :
    (s.step nowMs).policyWantsRadio = s.policyWantsRadio := by
  rw [step_of_ticked h]
  unfold policyWantsRadio Inputs.conditions settleService
  dsimp only
  rw [hp, hm, if_neg Bool.false_ne_true]
  by_cases hd : (s.inputs.connectWanted && decide (s.inputs.service = .off)) = true
  · rw [if_pos hd]
    have hoff : s.inputs.service = .off := by
      simp only [Bool.and_eq_true, decide_eq_true_eq] at hd
      exact hd.2
    rw [hoff]
    exact radioTarget_disconnected s.machine.policy
      { screenDimmed := s.inputs.screenDimmed, connectWanted := s.inputs.connectWanted,
        diagnosticScanWanted := s.inputs.diagnosticScanWanted }
  · rw [if_neg hd]

theorem advances_running {s : Simulation} (nowMs : U32) (hs : s.Sane)
    (h : s.machine.state = .monitoring) (hc : s.inputs.controller = .running) :
    s.Advances nowMs := by
  have ht := ticked_running nowMs hs h hc
  have hidle := hs.idle (by rw [h]; decide) (by rw [h]; decide)
  by_cases hw : s.policyWantsRadio = true
  · rw [if_pos hw] at ht
    have hsusp : s.machine.wantsServiceSuspended = false := by
      unfold Machine.wantsServiceSuspended
      rw [h]
    have hw' := policyWantsRadio_step ht rfl hsusp
    have he := step_of_ticked ht
    have hst : (s.step nowMs).machine.state = .monitoring := by rw [he]; exact h
    have hco : (s.step nowMs).inputs.controller = .running := by
      rw [he]
      show completed s.inputs.controller = _
      rw [hc]
      rfl
    rw [hw] at hw'
    refine ⟨⟨?_, ?_, .running hst hco⟩, ?_, ?_, ?_, ?_, ?_⟩
    · rw [he]
      exact hs.managed
    · rw [he]
      exact fun _ _ => hidle
    · simp [stepsLeft, hst, hco, hw', h, hc, hw]
    · simp [releasesLeft, hst, hw', h, hw]
      rw [he]
      rfl
    · simp [stopsLeft, hst, hw', h, hw]
      rw [he]
      rfl
    · simp [startsLeft, hst, hco, h, hc]
      rw [he]
      rfl
    · intro _ d hd
      unfold decisions at hd
      rw [ht] at hd
      exact List.mem_singleton.1 hd
  · have hw' : s.policyWantsRadio = false := by simpa using hw
    have hrest : s.restingTarget = false := by
      by_contra hr
      exact hw (radioTarget_of_resting (by simpa [restingTarget] using hr))
    rw [if_neg hw] at ht
    have he := step_of_ticked ht
    have hrest' := restingTarget_step ht rfl
    have hst : (s.step nowMs).machine.state = .suspending := by rw [he]
    have hco : (s.step nowMs).inputs.controller = .running := by
      rw [he]
      show completed s.inputs.controller = _
      rw [hc]
      rfl
    refine ⟨⟨?_, ?_, .releasing hst hco ?_⟩, ?_, ?_, ?_, ?_, ?_⟩
    · rw [he]
      exact hs.managed
    · rw [he]
      exact fun _ _ => hidle
    · rw [he]
      rfl
    · simp [stepsLeft, hst, h, hc, hw', hrest', hrest]
    · simp [releasesLeft, hst, h, hc, hw']
      rw [he]
      rfl
    · simp [stopsLeft, hst, h, hc, hw', hrest', hrest]
      rw [he]
      rfl
    · simp [startsLeft, hst, h, hc]
      rw [he]
      rfl
    · intro h0
      simp [stepsLeft, h, hc, hw'] at h0

theorem advances_unseen {s : Simulation} (nowMs : U32) (hs : s.Sane)
    (h : s.machine.state = .monitoring) (hc : s.inputs.controller = .stopped) :
    s.Advances nowMs := by
  have ht := ticked_unseen nowMs hs h hc
  have he := step_of_ticked ht
  have hrest := restingTarget_step ht rfl
  have hst : (s.step nowMs).machine.state = .controllerStopped := by rw [he]
  have hco : (s.step nowMs).inputs.controller = .stopped := by
    rw [he]
    show completed s.inputs.controller = _
    rw [hc]
    rfl
  refine ⟨⟨?_, ?_, .stopped hst hco ?_⟩, ?_, ?_, ?_, ?_, ?_⟩
  · rw [he]
    exact hs.managed
  · rw [he]
    exact fun _ _ => hs.idle (by rw [h]; decide) (by rw [h]; decide)
  · rw [he]
    rfl
  · simp only [stepsLeft, hst, h, hc, hrest]
    split_ifs <;> rfl
  · simp only [releasesLeft, hst, h, hc]
    rw [he]
    rfl
  · simp only [stopsLeft, hst, h, hc]
    rw [he]
    rfl
  · simp only [startsLeft, hst, h, hc, hrest, true_and]
    rw [he]
    rfl
  · intro h0
    simp only [stepsLeft, h, hc] at h0
    split_ifs at h0

theorem advances_releasing {s : Simulation} (nowMs : U32) (hs : s.Sane)
    (h : s.machine.state = .suspending) (hc : s.inputs.controller = .running)
    (ho : s.inputs.service = .off) : s.Advances nowMs := by
  have ht := ticked_releasing nowMs hs h hc ho
  by_cases hw : s.restingTarget = true
  · rw [if_pos hw] at ht
    have he := step_of_ticked ht
    have hwants := policyWantsRadio_step ht rfl rfl
    rw [restingTarget_of_off ho, hw] at hwants
    have hst : (s.step nowMs).machine.state = .monitoring := by rw [he]
    have hco : (s.step nowMs).inputs.controller = .running := by
      rw [he]
      show completed s.inputs.controller = _
      rw [hc]
      rfl
    refine ⟨⟨?_, ?_, .running hst hco⟩, ?_, ?_, ?_, ?_, ?_⟩
    · rw [he]
      exact hs.managed
    · rw [he]
      exact fun _ _ => hs.idle (by rw [h]; decide) (by rw [h]; decide)
    · simp [stepsLeft, hst, hco, hwants, h, hw]
    · simp [releasesLeft, hst, hwants, h]
      rw [he]
      rfl
    · simp [stopsLeft, hst, hwants, h, hw]
      rw [he]
      rfl
    · simp [startsLeft, hst, hco, h]
      rw [he]
      rfl
    · intro h0
      simp [stepsLeft, h, hw] at h0
  · have hw' : s.restingTarget = false := by simpa using hw
    rw [if_neg hw] at ht
    have he := step_of_ticked ht
    have hrest := restingTarget_step ht rfl
    have hst : (s.step nowMs).machine.state = .stopping := by rw [he]
    have hco : (s.step nowMs).inputs.controller = .stopped := by rw [he]; rfl
    refine ⟨⟨?_, ?_, .stopping hst hco ?_ ?_ ?_⟩, ?_, ?_, ?_, ?_, ?_⟩
    · rw [he]
      exact hs.managed
    · exact fun h₁ => absurd hst h₁
    · rw [he]
      rfl
    · rw [he]
      rfl
    · rw [he]
      rfl
    · simp [stepsLeft, hst, h, hrest, hw']
    · simp [releasesLeft, hst, h]
      rw [he]
      rfl
    · simp [stopsLeft, hst, h, hw']
      rw [he]
      rfl
    · simp [startsLeft, hst, h, hrest, hw']
      rw [he]
      rfl
    · intro h0
      simp [stepsLeft, h, hw'] at h0

theorem advances_stopping {s : Simulation} (nowMs : U32) (hs : s.Sane)
    (h : s.machine.state = .stopping) (hc : s.inputs.controller = .stopped)
    (hp : s.machine.controllerTransition.result = .pending)
    (htgt : s.machine.controllerTransition.target = .stopped) : s.Advances nowMs := by
  have ht := ticked_stopping nowMs hs h hc hp htgt
  have he := step_of_ticked ht
  have hrest := restingTarget_step ht rfl
  have hst : (s.step nowMs).machine.state = .controllerStopped := by rw [he]
  have hco : (s.step nowMs).inputs.controller = .stopped := by
    rw [he]
    show completed s.inputs.controller = _
    rw [hc]
    rfl
  refine ⟨⟨?_, ?_, .stopped hst hco ?_⟩, ?_, ?_, ?_, ?_, ?_⟩
  · rw [he]
    exact hs.managed
  · rw [he]
    exact fun _ _ => nofun
  · rw [he]
    rfl
  · simp only [stepsLeft, hst, h, hrest]
    split_ifs <;> rfl
  · simp only [releasesLeft, hst, h]
    rw [he]
    rfl
  · simp only [stopsLeft, hst, h]
    rw [he]
    rfl
  · simp only [startsLeft, hst, h, hrest]
    rw [he]
    rfl
  · intro h0
    simp only [stepsLeft, h] at h0
    split_ifs at h0

theorem advances_stopped {s : Simulation} (nowMs : U32) (hs : s.Sane)
    (h : s.machine.state = .controllerStopped) (hc : s.inputs.controller = .stopped)
    (ho : s.inputs.service = .off) : s.Advances nowMs := by
  have ht := ticked_stopped nowMs hs h hc ho
  by_cases hw : s.restingTarget = true
  · rw [if_pos hw] at ht
    have he := step_of_ticked ht
    have hrest := restingTarget_step ht rfl
    have hst : (s.step nowMs).machine.state = .starting := by rw [he]
    have hco : (s.step nowMs).inputs.controller = .running := by rw [he]; rfl
    refine ⟨⟨?_, ?_, .starting hst hco ?_ ?_ ?_⟩, ?_, ?_, ?_, ?_, ?_⟩
    · rw [he]
      exact hs.managed
    · exact fun _ h₂ => absurd hst h₂
    · rw [he]
      rfl
    · rw [he]
      rfl
    · rw [he]
      rfl
    · simp [stepsLeft, hst, h, hrest, hw]
    · simp [releasesLeft, hst, h, hrest, hw]
      rw [he]
      rfl
    · simp [stopsLeft, hst, h, hrest, hw]
      rw [he]
      rfl
    · simp [startsLeft, hst, h, hw]
      rw [he]
      rfl
    · intro h0
      simp [stepsLeft, h, hw] at h0
  · have hw' : s.restingTarget = false := by simpa using hw
    rw [if_neg hw] at ht
    have he := step_of_ticked ht
    have hrest := restingTarget_step ht rfl
    have hst : (s.step nowMs).machine.state = .controllerStopped := by rw [he]; exact h
    have hco : (s.step nowMs).inputs.controller = .stopped := by
      rw [he]
      show completed s.inputs.controller = _
      rw [hc]
      rfl
    refine ⟨⟨?_, ?_, .stopped hst hco ?_⟩, ?_, ?_, ?_, ?_, ?_⟩
    · rw [he]
      exact hs.managed
    · rw [he]
      exact hs.idle
    · have hsusp : s.machine.wantsServiceSuspended = true := by
        unfold Machine.wantsServiceSuspended
        rw [h]
      rw [he]
      exact if_pos hsusp
    · simp [stepsLeft, hst, h, hrest, hw']
    · simp [releasesLeft, hst, h]
      rw [he]
      rfl
    · simp [stopsLeft, hst, h]
      rw [he]
      rfl
    · simp [startsLeft, hst, h, hrest, hw']
      rw [he]
      rfl
    · intro _ d hd
      unfold decisions at hd
      rw [ht] at hd
      exact List.mem_singleton.1 hd

theorem advances_starting {s : Simulation} (nowMs : U32) (hs : s.Sane)
    (h : s.machine.state = .starting) (hc : s.inputs.controller = .running)
    (ho : s.inputs.service = .off) (hp : s.machine.controllerTransition.result = .pending)
    (htgt : s.machine.controllerTransition.target = .running) : s.Advances nowMs := by
  have ht := ticked_starting nowMs hs h hc hp htgt
  have he := step_of_ticked ht
  have hwants := policyWantsRadio_step ht rfl rfl
  rw [restingTarget_of_off ho] at hwants
  have hst : (s.step nowMs).machine.state = .monitoring := by rw [he]
  have hco : (s.step nowMs).inputs.controller = .running := by
    rw [he]
    show completed s.inputs.controller = _
    rw [hc]
    rfl
  refine ⟨⟨?_, ?_, .running hst hco⟩, ?_, ?_, ?_, ?_, ?_⟩
  · rw [he]
    exact hs.managed
  · rw [he]
    exact fun _ _ => nofun
  · simp only [stepsLeft, hst, hco, hwants, h]
    cases s.restingTarget <;> rfl
  · simp only [releasesLeft, hst, hco, hwants, h]
    rw [he]
    cases s.restingTarget <;> rfl
  · simp only [stopsLeft, hst, hco, hwants, h]
    rw [he]
    cases s.restingTarget <;> rfl
  · simp only [startsLeft, hst, hco, h]
    rw [he]
    rfl
  · intro h0
    simp only [stepsLeft, h] at h0
    split_ifs at h0

/-- **Step lemma.** Every update takes the loop one step further. -/
theorem advances {s : Simulation} (nowMs : U32) (hs : s.Sane) : s.Advances nowMs := by
  rcases hs.place with ⟨h, hc⟩ | ⟨h, hc⟩ | ⟨h, hc, ho⟩ | ⟨h, hc, -, hp, ht⟩ | ⟨h, hc, ho⟩ |
    ⟨h, hc, ho, hp, ht⟩
  · exact advances_running nowMs hs h hc
  · exact advances_unseen nowMs hs h hc
  · exact advances_releasing nowMs hs h hc ho
  · exact advances_stopping nowMs hs h hc hp ht
  · exact advances_stopped nowMs hs h hc ho
  · exact advances_starting nowMs hs h hc ho hp ht

/-- A loop with nothing left to do is where the policy wants it. -/
theorem radioRunning_of_rest {s : Simulation} (hs : s.Sane) (h0 : s.stepsLeft = 0) :
    s.radioRunning = s.policyWantsRadio := by
  unfold radioRunning
  rcases hs.place with ⟨h, hc⟩ | ⟨h, hc⟩ | ⟨h, hc, ho⟩ | ⟨h, hc, -, hp, ht⟩ | ⟨h, hc, ho⟩ |
    ⟨h, hc, ho, hp, ht⟩
  · rw [hc]
    by_contra hne
    have hw : s.policyWantsRadio = false := by simpa using hne
    simp [stepsLeft, h, hc, hw] at h0
  · simp only [stepsLeft, h, hc] at h0
    split_ifs at h0
  · simp only [stepsLeft, h] at h0
    split_ifs at h0
  · simp only [stepsLeft, h] at h0
    split_ifs at h0
  · rw [hc, restingTarget_of_off ho]
    simp only [stepsLeft, h] at h0
    split_ifs at h0 with hr
    · simpa using hr
  · simp only [stepsLeft, h] at h0
    split_ifs at h0

/-! ## Runs of the loop -/

theorem sane_move {s : Simulation} (mv : LoopMove) (hs : s.Sane) : (s.move mv).Sane := by
  cases mv with
  | change c => exact sane_change c hs
  | update nowMs => exact (advances nowMs hs).sane

/-- `n` updates at the given times. -/
def updates (s : Simulation) (times : ℕ → U32) (n : ℕ) : Simulation :=
  exec step s ((List.range n).map times)

theorem updates_succ (s : Simulation) (times : ℕ → U32) (n : ℕ) :
    s.updates times (n + 1) = (s.updates times n).step (times n) := by
  unfold updates
  rw [List.range_succ, List.map_append, exec_append]
  rfl

/-- Run lemma: what is left after `n` updates. -/
structure Progress (s : Simulation) (times : ℕ → U32) (n : ℕ) : Prop where
  sane : (s.updates times n).Sane
  steps : (s.updates times n).stepsLeft = s.stepsLeft - n
  releases : (s.updates times n).releasesStarted + (s.updates times n).releasesLeft =
    s.releasesStarted + s.releasesLeft
  stops : (s.updates times n).stopsRequested + (s.updates times n).stopsLeft =
    s.stopsRequested + s.stopsLeft
  starts : (s.updates times n).startsRequested + (s.updates times n).startsLeft =
    s.startsRequested + s.startsLeft

theorem progress {s : Simulation} (hs : s.Sane) (times : ℕ → U32) (n : ℕ) :
    s.Progress times n := by
  induction n with
  | zero => exact ⟨hs, rfl, rfl, rfl, rfl⟩
  | succ n ih =>
    have ha := advances (times n) ih.sane
    have hsteps := ha.steps
    have hrel := ha.releases
    have hstop := ha.stops
    have hstart := ha.starts
    rw [← updates_succ] at hsteps hrel hstop hstart
    exact ⟨updates_succ s times n ▸ ha.sane, by rw [hsteps, ih.steps]; omega,
      hrel.trans ih.releases, hstop.trans ih.stops, hstart.trans ih.starts⟩

/-- The loop has come to rest where the policy wants it. -/
structure AtRest (s : Simulation) (nowMs : U32) : Prop where
  runs : s.radioRunning = s.policyWantsRadio
  /-- The next update does nothing. -/
  quiet : ∀ d ∈ s.decisions nowMs, d = {}

/-- **The radio settles.** From wherever a run has led, four updates in unchanged surroundings bring
the controller to where the policy wants it, for good, with at most one release, one stop and one
start. -/
theorem settles (running : Bool) (i : Inputs) (moves : List LoopMove) (times : ℕ → U32) :
    let s := exec move (fresh running i) moves
    (∀ n, 4 ≤ n → (s.updates times n).AtRest (times n)) ∧
      ∀ n, (s.updates times n).releasesStarted ≤ s.releasesStarted + 1 ∧
        (s.updates times n).stopsRequested ≤ s.stopsRequested + 1 ∧
        (s.updates times n).startsRequested ≤ s.startsRequested + 1 := by
  intro s
  have hs : s.Sane := by
    have hall : Along move (fun _ _ => True) (fresh running i) moves :=
      along_iff_forall_split.2 fun _ _ _ _ => trivial
    exact hall.exec_invariant Sane (fun s mv h _ => sane_move mv h) (sane_fresh running i)
  obtain ⟨hr, hst, hsa⟩ := budgets_le s
  refine ⟨fun n hn => ?_, fun n => ?_⟩
  · have hp := progress hs times n
    have h0 : (s.updates times n).stepsLeft = 0 := by
      have hle := stepsLeft_le s
      rw [hp.steps]
      omega
    exact ⟨radioRunning_of_rest hp.sane h0, (advances (times n) hp.sane).rests h0⟩
  · have hp := progress hs times n
    have h₁ := hp.releases
    have h₂ := hp.stops
    have h₃ := hp.starts
    exact ⟨by omega, by omega, by omega⟩

end Simulation

end Pumpbug.Power.ScaleRadio
