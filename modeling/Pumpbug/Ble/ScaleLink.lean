import Pumpbug.Ble.AcaiaV2Codec
import Pumpbug.Power.ScaleRadio
import Pumpbug.ScaleService

/-!
# The link to the scale

`BleScaleService.cpp` as three kinds of tasks that interleave: callers that request a tare or
another command, the manager that drains commands and drives the connection, and the Bluetooth host
that runs the callbacks.  A step of the manager touches what it shares with the others at most once;
what the radio answers is part of the step.

A notification callback is a step that begins it and one for every event it hands on.  Callbacks run
one at a time, and those of a connection that was torn down are finished before a later connect
returns.
-/

namespace Pumpbug.Ble

open Lib AcaiaV2

def CMD_QUEUE_DEPTH : ℕ := 8

inductive Mode
  | idle | connect | diagScan
  deriving DecidableEq

/-- A request for a tare with the epoch it captured.  The rest is for the record: who asked, how
many sessions there had been, and which one was current. -/
structure Tare where
  epoch : U32
  id : ℕ
  seen : ℕ
  session : Option ℕ
  deriving DecidableEq

inductive Cmd
  | tare (t : Tare)
  | stopController
  | startController
  /-- The message log and the scan policy. -/
  | other
  deriving DecidableEq

/-- A tare command that was written, and the session it was written in. -/
structure Write where
  tare : Tare
  session : Option ℕ
  deriving DecidableEq

/-- Where the manager is. -/
inductive Pc
  /-- At the queue. -/
  | drain
  /-- The queue is drained. -/
  | select
  | run
  /-- Ends the connection, on the way to a state and a mode. -/
  | teardown (next : ScaleState) (mode : Mode)
  | leave (next : ScaleState) (mode : Mode)
  | tryConnect
  /-- `doHandshake`: the reading is cleared, a generation is issued, the subscription is made, and
  written to. -/
  | clear
  | issue
  | subscribe
  | identify
  | enter
  deriving DecidableEq

structure Link where
  /-- State, reading, and the number of sessions so far; `_connectionEpoch` is that modulo
  `2 ^ 32`. -/
  service : BleScaleService
  -- the manager's
  pc : Pc
  mode : Mode
  hadReadyThisEnable : Bool
  rxGenerationIssued : U32
  hasWriteChar : Bool
  -- shared
  controllerState : Power.ControllerState
  foundDevice : Bool
  disconnectFlag : Bool
  rxAcceptedGeneration : U32
  cmdQueue : List Cmd
  /-- Requests between the capture of the epoch and the queue. -/
  requests : List Tare
  -- the Bluetooth host's
  /-- The generation that the latest subscription's callback captured. -/
  subscription : Option U32
  rxHostGeneration : U32
  rxReceiver : Bytes
  /-- The events that the running callback has still to hand on. -/
  pending : List AcaiaV2.Event
  -- for the record
  tares : ℕ
  writes : List Write
  /-- Generations issued so far, and how many there were when the host last took one up. -/
  issued : ℕ
  taken : ℕ
  /-- The bytes accepted under the latest generation. -/
  heard : Bytes

namespace Link

variable (l : Link)

def boot : Link where
  service := {}
  pc := .drain
  mode := .idle
  hadReadyThisEnable := false
  rxGenerationIssued := 0
  hasWriteChar := false
  controllerState := .running
  foundDevice := false
  disconnectFlag := false
  rxAcceptedGeneration := 0
  cmdQueue := []
  requests := []
  subscription := none
  rxHostGeneration := 0
  rxReceiver := []
  pending := []
  tares := 0
  writes := []
  issued := 0
  taken := 0
  heard := []

def connectionEpoch : U32 := BitVec.ofNat 32 l.service.connectionEpoch

/-- The current session, if the link is ready. -/
def session : Option ℕ :=
  if l.service.state = .ready then some l.service.connectionEpoch else none

/-! ## Callers -/

/-- `requestTare`, up to the release of the mutex. -/
def captureTare : Link :=
  { l with
    requests := l.requests ++ [⟨l.connectionEpoch, l.tares, l.service.connectionEpoch, l.session⟩]
    tares := l.tares + 1 }

def xQueueSend (cmd : Cmd) : Link :=
  if l.cmdQueue.length < CMD_QUEUE_DEPTH then { l with cmdQueue := l.cmdQueue ++ [cmd] } else l

/-- The rest of a `requestTare`. -/
def sendTare (i : ℕ) : Link :=
  match l.requests[i]? with
  | none => l
  | some t => { l with requests := l.requests.eraseIdx i }.xQueueSend (.tare t)

/-! ## The manager -/

/-- What the radio and the others tell the manager in a step. -/
structure Env where
  /-- The mode that demand and the power suspension select. -/
  desired : Mode
  /-- The Bluetooth call of the step succeeds. -/
  ok : Bool
  /-- The stream stayed silent through all retries of the handshake. -/
  silent : Bool
  deriving DecidableEq

def transition (next : ScaleState) : Link := { l with service := l.service.transition next }

/-- One command, or the end of the queue. -/
def drainCommands : Link :=
  match l.cmdQueue with
  | [] => { l with pc := .select }
  | cmd :: rest =>
    let l := { l with cmdQueue := rest }
    match cmd with
    | .tare t =>
      if l.mode = .connect ∧ l.service.state = .ready ∧ t.epoch = l.connectionEpoch then
        if l.hasWriteChar then { l with writes := l.writes ++ [⟨t, l.session⟩] } else l
      else l
    | .stopController =>
      if l.controllerState = .running then { l with controllerState := .stopping } else l
    | .startController =>
      if l.controllerState = .stopped then { l with controllerState := .starting } else l
    | .other => l

def enterMode (mode : Mode) : Link :=
  let l := { l with mode := mode }
  match mode with
  | .connect => { l with foundDevice := false, hadReadyThisEnable := false }
  | .diagScan => l
  | .idle => l

/-- The controller's transitions and the mode; leaving the connect mode ends the connection
first. -/
def selectMode (env : Env) : Link :=
  match l.controllerState with
  | .running =>
    if env.desired = l.mode then { l with pc := .run }
    else if l.mode = .connect then { l with pc := .teardown .off env.desired }
    else { l.enterMode env.desired with pc := .run }
  | .stopping =>
    if l.mode = .connect then { l with pc := .teardown .off .idle }
    else
      { l.enterMode .idle with
        controllerState := if env.ok then .stopped else .failed
        pc := .drain }
  | .starting => { l with controllerState := if env.ok then .running else .failed, pc := .drain }
  | .stopped => { l with pc := .drain }
  | .failed => { l with pc := .drain }

/-- The first half of `teardownClient`. -/
def teardownClient (next : ScaleState) (mode : Mode) : Link :=
  { l with rxAcceptedGeneration := 0, pc := .leave next mode }

/-- The client is gone and the state is left. -/
def leaveState (next : ScaleState) (mode : Mode) : Link :=
  let l := { l with hasWriteChar := false, foundDevice := false }.transition next
  if next = .off then
    -- `exitMode`: on to the other mode, or to the stop of the controller
    { l.enterMode mode with pc := if l.controllerState = .running then .run else .select }
  else { l with pc := .drain }

/-- `runMode`, in the connect mode `runStateMachine`. -/
def runMode (env : Env) : Link :=
  let l := { l with pc := .drain }
  match l.mode with
  | .idle => l
  | .diagScan => l
  | .connect =>
    match l.service.state with
    | .off =>
      let l := { l with foundDevice := false, hadReadyThisEnable := false }
      if env.ok then l.transition .scanning else l
    | .scanning => if l.foundDevice then l.transition .connecting else l
    | .reconnecting => if l.foundDevice then l.transition .connecting else l
    | .connecting => { l with disconnectFlag := false, pc := .tryConnect }
    | .ready =>
      if l.disconnectFlag then { l with disconnectFlag := false, pc := .teardown .reconnecting .connect }
      else if env.silent then { l with pc := .teardown .reconnecting .connect }
      else l

/-- A connect attempt that fails ends in scanning, or in reconnecting once there was a session. -/
def giveUp : Link :=
  { l with
    pc := .teardown (if l.hadReadyThisEnable then .reconnecting else .scanning) .connect }

/-- A connect returns only when the callbacks of earlier connections are finished. -/
def tryConnect (env : Env) : Link :=
  if env.ok then (if l.pending = [] then { l with subscription := none, pc := .clear } else l)
  else l.giveUp

/-- The GATT profile is resolved and the reading cleared. -/
def clearReading (env : Env) : Link :=
  if env.ok then { l with hasWriteChar := true, service := l.service.doHandshake, pc := .issue }
  else l.giveUp

def nextGeneration (issued : U32) : U32 :=
  let rxGeneration := issued + 1
  if rxGeneration = 0 then rxGeneration + 1 else rxGeneration

def issueGeneration : Link :=
  let rxGeneration := nextGeneration l.rxGenerationIssued
  { l with
    rxGenerationIssued := rxGeneration
    rxAcceptedGeneration := rxGeneration
    pc := .subscribe
    issued := l.issued + 1
    heard := [] }

/-- From here on the callback can be called. -/
def subscribe : Link := { l with subscription := some l.rxGenerationIssued, pc := .identify }

/-- The subscription and both writes succeed, or the generation is revoked. -/
def identify (env : Env) : Link :=
  if env.ok then { l with pc := .enter } else { l with rxAcceptedGeneration := 0 }.giveUp

def enterReady : Link := { { l with hadReadyThisEnable := true }.transition .ready with pc := .drain }

def manage (env : Env) : Link :=
  match l.pc with
  | .drain => l.drainCommands
  | .select => l.selectMode env
  | .run => l.runMode env
  | .teardown next mode => l.teardownClient next mode
  | .leave next mode => l.leaveState next mode
  | .tryConnect => l.tryConnect env
  | .clear => l.clearReading env
  | .issue => l.issueGeneration
  | .subscribe => l.subscribe
  | .identify => l.identify env
  | .enter => l.enterReady

/-! ## The Bluetooth host -/

/-- The events of the frames that the framer reported. -/
def eventsOf : List FrameFramer.Report → List AcaiaV2.Event
  | [] => []
  | .frame frame :: reports => ((decodeFrame frame).join).toList ++ eventsOf reports
  | .rejected _ :: reports => eventsOf reports

/-- `onNotify`, up to the first event.  The drain of the framer takes at most 65 rounds. -/
def onNotify (generation : U32) (data : Bytes) : Link :=
  if generation = 0 ∨ generation ≠ l.rxAcceptedGeneration then l
  else
    let buf := if l.rxHostGeneration ≠ generation then [] else l.rxReceiver
    match FrameFramer.push (MAX_FRAME + 1) buf data with
    | none => l
    | some (reports, buf) =>
      { l with
        rxHostGeneration := generation
        rxReceiver := buf
        pending := eventsOf reports
        taken := l.issued
        heard := l.heard ++ data }

/-- The callback of the latest subscription is called. -/
def notify (data : Bytes) : Link :=
  match l.subscription with
  | none => l
  | some generation => if l.pending = [] then l.onNotify generation data else l

/-- A notification changes nothing, or is accepted: the framer is reset if the generation is new to
it. -/
theorem notify_cases (data : Bytes) : l.notify data = l ∨
    ∃ generation reports buf, l.subscription = some generation ∧ l.pending = [] ∧
      generation ≠ 0 ∧ generation = l.rxAcceptedGeneration ∧
      FrameFramer.push (MAX_FRAME + 1)
        (if l.rxHostGeneration ≠ generation then [] else l.rxReceiver) data = some (reports, buf) ∧
      l.notify data =
        { l with
          rxHostGeneration := generation
          rxReceiver := buf
          pending := eventsOf reports
          taken := l.issued
          heard := l.heard ++ data } := by
  unfold notify
  cases hsub : l.subscription with
  | none => exact .inl rfl
  | some generation =>
    dsimp only
    by_cases hidle : l.pending = []
    · rw [if_pos hidle]
      unfold onNotify
      by_cases hstale : generation = 0 ∨ generation ≠ l.rxAcceptedGeneration
      · rw [if_pos hstale]
        exact .inl rfl
      · rw [if_neg hstale]
        rw [not_or, not_not] at hstale
        dsimp only
        cases hpush : FrameFramer.push (MAX_FRAME + 1)
            (if l.rxHostGeneration ≠ generation then [] else l.rxReceiver) data with
        | none => exact .inl rfl
        | some result =>
          right
          exact ⟨generation, result.1, result.2, rfl, hidle, hstale.1, hstale.2, hpush, by rw [hsub]⟩
    · rw [if_neg hidle]
      exact .inl rfl

/-- The running callback hands on its next event. -/
def onEvent (arrivalMs : U32) : Link :=
  match l.pending with
  | [] => l
  | ev :: rest =>
    let l := { l with pending := rest }
    match ev with
    | .weight grams stable scaleTimerMs =>
      { l with service := l.service.onEvent arrivalMs ⟨some grams, stable, scaleTimerMs⟩ }
    | _ => l

/-! ## Steps -/

inductive Step
  | captureTare
  | sendTare (i : ℕ)
  /-- Any other command, or a request that some other caller sends. -/
  | send (cmd : Cmd)
  | manage (env : Env)
  | notify (data : Bytes)
  | event (arrivalMs : U32)
  | disconnected
  | deviceFound

def step : Step → Link
  | .captureTare => l.captureTare
  | .sendTare i => l.sendTare i
  | .send cmd =>
    match cmd with
    | .tare _ => l
    | cmd => l.xQueueSend cmd
  | .manage env => l.manage env
  | .notify data => l.notify data
  | .event arrivalMs => l.onEvent arrivalMs
  | .disconnected => { l with disconnectFlag := true }
  | .deviceFound => { l with foundDevice := true }

end Link

end Pumpbug.Ble
