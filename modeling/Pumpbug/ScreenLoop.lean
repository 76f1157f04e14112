import Pumpbug.Graduation

/-!
# The screen's loop

`ExtractionScreen.cpp`, as far as the controller hears of it: when the screen is entered, left and
ticked, what it passes on of the scale, and what it calls during a replay.  Every call is taken apart
into moments, between which the stream's task may run.
-/

namespace Pumpbug

open Lib

namespace Controller

/-- The sections of some calls, in the order in which the main task runs them. -/
def trace : Controller → List Section → List Section
  | _, [] => []
  | c, sec :: secs => sec :: (c.followUp sec ++ trace (c.perform sec) secs)

theorem foldl_trace (c : Controller) (secs : List Section) :
    (c.trace secs).foldl execSection c = c.performAll secs := by
  induction secs generalizing c with
  | nil => rfl
  | cons sec secs ih =>
    show (c.followUp sec ++ trace (c.perform sec) secs).foldl execSection (c.execSection sec) = _
    rw [List.foldl_append]
    exact ih (c.perform sec)

theorem trace_append (c : Controller) (secs secs' : List Section) :
    c.trace (secs ++ secs') = c.trace secs ++ (c.performAll secs).trace secs' := by
  induction secs generalizing c with
  | nil => rfl
  | cons sec secs ih =>
    show sec :: (c.followUp sec ++ trace (c.perform sec) (secs ++ secs')) = _
    rw [ih, ← List.append_assoc]
    rfl

end Controller

namespace MainLoop

/-- The calls of `step`. -/
def sections (s : MainLoop) : Op → List Controller.Section
  | .beginSession => Controller.beginSession
  | .endSession => Controller.deactivate
  | .tick i newScaleSample scaleStateChanged load saveOk =>
    if s.replaying then [] else Controller.tick i newScaleSample scaleStateChanged load saveOk
  | .contextAction => [.contextAction]
  | .setTargetCoeffs coeffs => [.setTargetCoeffs coeffs]
  | .startReplay => Controller.resetInFlightAndNotify
  | .replayTick nowMs pumpOn scale => if s.replaying then [.replayTick nowMs pumpOn scale] else []
  | .stopReplay => Controller.resetInFlightAndNotify

theorem step_controller (s : MainLoop) (op : Op) :
    (s.step op).controller = s.controller.performAll (s.sections op) := by
  cases op with
  | tick i a b load ok =>
    unfold step sections
    split_ifs <;> rfl
  | replayTick nowMs pumpOn scale =>
    unfold step sections
    split_ifs <;> rfl
  | _ => rfl

end MainLoop

structure ExtractionScreen where
  loop : MainLoop := {}
  lastScaleSnap : ScaleStatus := {}
  lastScaleState : ScaleState := .off
  /-- The state of the scale service, as the last call of the controller found it. -/
  scaleState : ScaleState := .off

namespace ExtractionScreen

inductive Op
  | beginSession
  | deactivate
  | resetInFlightAndNotify
  | tick (scale : ScaleStatus) (nowMs : U32) (pumpSignal : PumpSignalObservation) (utcSec : U32)
      (load : Controller.LoadOutcome) (saveOk : Bool)
  | contextAction
  | startReplay
  | replayTick (scale : ScaleStatus) (nowMs : U32) (pumpOn : Bool) (snap : ScaleSnapshot)
  /-- A tick while the replay is paused. -/
  | pausedTick (scale : ScaleStatus)

def newScaleSample (s : ExtractionScreen) (scale : ScaleStatus) : Bool :=
  scale.weight.sequence ≠ s.lastScaleSnap.weight.sequence && scale.weight.timestampMs ≠ 0

def scaleStateChanged (s : ExtractionScreen) (scale : ScaleStatus) : Bool :=
  scale.state ≠ s.lastScaleState

/-- The screen's one read of the scale service in a tick. -/
def look (s : ExtractionScreen) (scale : ScaleStatus) : ExtractionScreen :=
  { s with lastScaleSnap := scale, lastScaleState := scale.state }

/-- What the screen keeps of the scale, before it calls the controller. -/
def looks (s : ExtractionScreen) : Op → ExtractionScreen
  | .beginSession => { s with lastScaleSnap := {} }
  | .tick scale _ _ _ _ _ => s.look scale
  | .replayTick scale _ _ _ => s.look scale
  | .pausedTick scale => s.look scale
  | _ => s

/-- The input of a live tick. -/
def tickInput (scale : ScaleStatus) (nowMs : U32) (pumpSignal : PumpSignalObservation)
    (utcSec : U32) : Recorder.Input where
  nowMs := nowMs
  pumpSignal := pumpSignal
  scale := scaleSnapshotFromBle scale
  utcSec := utcSec

/-- What the screen calls on the controller. -/
def call (s : ExtractionScreen) : Op → Option MainLoop.Op
  | .beginSession => some .beginSession
  | .deactivate => some .endSession
  | .resetInFlightAndNotify => some .stopReplay
  | .tick scale nowMs pumpSignal utcSec load saveOk =>
    some (.tick (tickInput scale nowMs pumpSignal utcSec) (s.newScaleSample scale)
      (s.scaleStateChanged scale) load saveOk)
  | .contextAction => some .contextAction
  | .startReplay => some .startReplay
  | .replayTick _ nowMs pumpOn snap => some (.replayTick nowMs pumpOn snap)
  | .pausedTick _ => none

def step (s : ExtractionScreen) (op : Op) : ExtractionScreen :=
  match s.call op with
  | none => s.looks op
  | some call =>
    { s.looks op with loop := s.loop.step call, scaleState := (s.looks op).lastScaleState }

/-- Live ticks and the A button's hold belong to the live views, replayed ticks to the replay. -/
def Allowed (s : ExtractionScreen) : Op → Prop
  | .tick _ _ _ _ _ _ => s.loop.replaying = false
  | .contextAction => s.loop.replaying = false
  | .replayTick _ _ _ _ => s.loop.replaying = true
  | .pausedTick _ => s.loop.replaying = true
  | _ => True

/-- `onExit`: once inactive, the controller is told next to reset. -/
def Exits (ops : List Op) : Prop :=
  ∀ pre op post, ops = pre ++ .deactivate :: op :: post → op = .resetInFlightAndNotify

/-! ## Moments -/

/-- What the readers of the controller find: its state, and the scale's. -/
structure Device where
  controller : Controller := {}
  scaleState : ScaleState := .off

inductive Moment
  | scale (state : ScaleState)
  | run (sec : Controller.Section)

def Device.exec (d : Device) : Moment → Device
  | .scale state => { d with scaleState := state }
  | .run sec => { d with controller := d.controller.execSection sec }

def device (s : ExtractionScreen) : Device := ⟨s.loop.controller, s.scaleState⟩

/-- The moments of an operation. -/
def moments (s : ExtractionScreen) (op : Op) : List Moment :=
  match s.call op with
  | none => []
  | some call =>
    .scale (s.looks op).lastScaleState ::
      (s.loop.controller.trace (s.loop.sections call)).map Moment.run

/-- The moments of a run. -/
def allMoments : ExtractionScreen → List Op → List Moment
  | _, [] => []
  | s, op :: ops => s.moments op ++ allMoments (s.step op) ops

theorem foldl_run (d : Device) (secs : List Controller.Section) :
    (secs.map Moment.run).foldl Device.exec d =
      { d with controller := secs.foldl Controller.execSection d.controller } := by
  induction secs generalizing d with
  | nil => rfl
  | cons sec secs ih => exact ih (d.exec (.run sec))

theorem looks_loop (s : ExtractionScreen) (op : Op) : (s.looks op).loop = s.loop := by
  cases op <;> rfl

theorem looks_scaleState (s : ExtractionScreen) (op : Op) :
    (s.looks op).scaleState = s.scaleState := by
  cases op <;> rfl

/-- The moments of an operation lead where the operation leads. -/
theorem foldl_moments (s : ExtractionScreen) (op : Op) :
    (s.moments op).foldl Device.exec s.device = (s.step op).device := by
  cases hcall : s.call op with
  | none =>
    have hstep : s.step op = s.looks op := by simp [step, hcall]
    have hmoments : s.moments op = [] := by simp [moments, hcall]
    rw [hstep, hmoments]
    simp [device, looks_loop, looks_scaleState]
  | some call =>
    have hmoments : s.moments op = .scale (s.looks op).lastScaleState ::
        (s.loop.controller.trace (s.loop.sections call)).map Moment.run := by simp [moments, hcall]
    have hstep : (s.step op).device = ⟨(s.loop.step call).controller, (s.looks op).lastScaleState⟩ := by
      simp [step, hcall, device]
    rw [hmoments, hstep, List.foldl_cons, foldl_run, MainLoop.step_controller,
      ← Controller.foldl_trace]
    rfl

theorem foldl_allMoments (s : ExtractionScreen) (ops : List Op) :
    (s.allMoments ops).foldl Device.exec s.device = (Lib.exec step s ops).device := by
  induction ops generalizing s with
  | nil => rfl
  | cons op ops ih =>
    show (s.moments op ++ allMoments (s.step op) ops).foldl Device.exec s.device = _
    rw [List.foldl_append, foldl_moments, ih]
    rfl

end ExtractionScreen

end Pumpbug
