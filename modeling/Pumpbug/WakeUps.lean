import Pumpbug.Lib.WakeUp
import Pumpbug.QuietTicks

/-!
# Wake-ups

The readers of the controller look again only when `liveSeq` has moved.  Every operation of the main
task announces what it changes, with one exception: a quiet tick announces nothing, and still changes
the shot on display when a queued load fails, and the reported weight when the frame of the scale is
not the one before.  Such a change stays unseen until an operation that does announce something.
-/

namespace Pumpbug

open Lib

namespace Controller

/-- A status as its readers compare it: without the running clock. -/
def StatusSnapshot.untimed (status : StatusSnapshot) : StatusSnapshot :=
  { status with currentElapsedMs := 0 }

/-- What a frame of the scale shows as the weight. -/
def weighs (c : Controller) (scale : ScaleSnapshot) : Option I16 × ℕ :=
  if c.active && scale.present then (gramsToCg scale.grams, scale.sequence) else (none, 0)

def LoadOutcome.fails : LoadOutcome → Bool
  | .failed => true
  | _ => false

/-- Outside the pump window the scale's part of the status is its weight. -/
theorem snapshotStatus_outside {c : Controller} (hw : ¬ c.recorder.current.inPumpWindow = true)
    (scaleState : ScaleState) (storageState : MountState) (millis : U32) :
    (c.snapshotStatus scaleState storageState millis).untimed =
      { active := c.active
        currentPhase := c.recorder.current.phase
        acceptedSeq := c.lastAcceptedSeq
        savedSeq := c.lastSavedSeq
        storageState := storageState
        currentBeginMs := c.recorder.current.beginMs
        currentSampleCount := c.recorder.current.samples.count
        scaleState := scaleState
        currentWeightCg := (c.weighs c.statusScale).1
        currentWeightSequence := (c.weighs c.statusScale).2
        pumpSignalState := c.statusPumpSignalState
        hasDisplayShot := c.effectiveLastShot.isSome
        displayShotSeq := c.displayShotSeq } := by
  have hyield : c.recorder.currentYieldCg c.statusScale = none := by
    simp [Recorder.currentYieldCg, hw]
  have hpouring : c.currentIsPouring = false := by simp [currentIsPouring, hw]
  by_cases hweighing : (c.active && c.statusScale.present) = true <;>
    simp [snapshotStatus, readLocked, readSaved, readActive, StatusSnapshot.untimed, weighs, hyield,
      hpouring, hweighing]

end Controller

namespace ExtractionScreen

/-! ## What the readers find -/

structure Report where
  status : Controller.StatusSnapshot
  display : Extraction × ℕ
  inFlight : Extraction × ℕ

def Device.report (storage : MountState) (d : Device) : Report where
  status := (d.controller.snapshotStatus d.scaleState storage 0).untimed
  display := d.controller.snapshotExtraction true
  inFlight := d.controller.snapshotExtraction false

/-- Every change of what the readers find comes before an advance of `liveSeq`. -/
abbrev Announced (storage : MountState) : Device → List Moment → Prop :=
  Announces Device.exec (Device.report storage) (.run .notify)

/-- No lost wake-up: an operation announces what it changes, or the next one does. -/
def Wakes (storage : MountState) (ops : List Op) : Prop :=
  ∀ pre op op' post, ops = pre ++ op :: op' :: post →
    Announced storage (exec step {} pre).device ((exec step {} pre).moments op) ∨
      Moment.run .notify ∈ (exec step {} (pre ++ [op])).moments op'

/-! ## When it is lost -/

/-- The tick asks for no frame: no shot is in flight, the pump is off, and the scale and the loaded
shot are as they were. -/
structure Quiet (s : ExtractionScreen) (scale : ScaleStatus) (pumpSignal : PumpSignalObservation)
    (load : Controller.LoadOutcome) : Prop where
  window : ¬ s.loop.controller.recorder.current.inPumpWindow = true
  pump : pumpSignal.isOn = false
  sample : s.newScaleSample scale = false
  state : s.scaleStateChanged scale = false
  load : load.changed = false

/-- A quiet tick that drops the loaded shot, or shows another weight. -/
def Unannounced (s : ExtractionScreen) : Op → Prop
  | .tick scale _ pumpSignal _ load _ =>
    s.Quiet scale pumpSignal load ∧ (load.fails = true ∨
      s.loop.controller.weighs (scaleSnapshotFromBle scale) ≠
        s.loop.controller.weighs s.loop.controller.statusScale)
  | _ => False

/-- An operation that announces nothing. -/
def Silent (s : ExtractionScreen) : Op → Prop
  | .tick scale _ pumpSignal _ load _ => s.Quiet scale pumpSignal load
  | .contextAction => s.loop.controller.recorder.current.phase ≠ .done
  | .deactivate => True
  | .pausedTick _ => True
  | _ => False

/-! ## The moments of a tick -/

theorem trace_load (c : Controller) (load : Controller.LoadOutcome) :
    c.trace load.sections = load.sections := by
  cases load <;> rfl

/-- What a live tick runs: the load, the locked part and what follows it. -/
theorem trace_tick (c : Controller) (i : Recorder.Input) (a b : Bool)
    (load : Controller.LoadOutcome) (ok : Bool) :
    c.trace (Controller.tick i a b load ok) =
      load.sections ++ (.tick i ⟨a, b, load.changed⟩ ok ::
        (c.performAll load.sections).followUp (.tick i ⟨a, b, load.changed⟩ ok)) := by
  unfold Controller.tick
  rw [Controller.trace_append, trace_load]
  show _ ++ (_ :: (_ ++ [])) = _
  rw [List.append_nil]

/-- A tick that asks for a frame notifies last. -/
theorem followUp_of_frame {c : Controller} {i : Recorder.Input} {flags : Controller.TickFlags}
    (ok : Bool) (h : Controller.frameNeeded c (c.liveTick i) flags = true) :
    ∃ secs, c.followUp (.tick i flags ok) = secs ++ [.notify] := by
  unfold Controller.followUp Controller.persistAcceptedShot
  dsimp only
  rw [if_pos h]
  split_ifs
  · exact ⟨[.notify, .attemptSave, .publishSaved], rfl⟩
  · exact ⟨[.notify, .attemptSave], rfl⟩
  · exact ⟨[], rfl⟩

theorem followUp_of_quiet {c : Controller} {i : Recorder.Input} {flags : Controller.TickFlags}
    (ok : Bool) (h : Controller.frameNeeded c (c.liveTick i) flags = false)
    (hdue : (c.liveTick i).saveDue = false) : c.followUp (.tick i flags ok) = [] := by
  simp [Controller.followUp, Controller.persistAcceptedShot, h, hdue]

/-! ## The invariant -/

/-- What holds between the operations. -/
structure Still (s : ExtractionScreen) : Prop where
  kept : s.loop.Kept
  synced : s.loop.Synced
  resting : s.loop.controller.Resting
  scaleState : s.loop.replaying = false → s.scaleState = s.lastScaleState

theorem still_init : Still {} :=
  ⟨MainLoop.kept_init, MainLoop.synced_init, Controller.resting_init, fun _ => rfl⟩

/-- **Step lemma.** Every operation keeps the invariant. -/
theorem still_step {s : ExtractionScreen} (op : Op) (h : s.Still) (ha : s.Allowed op) :
    (s.step op).Still := by
  cases hcall : s.call op with
  | none =>
    have hstep : s.step op = s.looks op := by simp [step, hcall]
    rw [hstep]
    refine ⟨?_, ?_, ?_, fun hr => ?_⟩
    · rw [looks_loop]
      exact h.kept
    · rw [looks_loop]
      exact h.synced
    · rw [looks_loop]
      exact h.resting
    · cases op with
      | pausedTick scale => exact absurd (hr.symm.trans ha) Bool.false_ne_true
      | _ => cases hcall
  | some call =>
    have hstep : s.step op =
        { s.looks op with loop := s.loop.step call, scaleState := (s.looks op).lastScaleState } := by
      simp [step, hcall]
    obtain ⟨hkept, hsynced, -⟩ := MainLoop.kept_step call h.kept h.synced
    rw [hstep]
    refine ⟨hkept, hsynced, ?_, fun _ => rfl⟩
    show (s.loop.step call).controller.Resting
    rw [MainLoop.step_controller]
    exact Controller.resting_performAll h.resting _

/-! ## One operation -/

section Tick

variable {s : ExtractionScreen} {scale : ScaleStatus} {nowMs : U32}
  {pumpSignal : PumpSignalObservation} {utcSec : U32} {load : Controller.LoadOutcome} {ok : Bool}

/-- The tick's locked part, as a section. -/
def tickSection (s : ExtractionScreen) (scale : ScaleStatus) (nowMs : U32)
    (pumpSignal : PumpSignalObservation) (utcSec : U32) (load : Controller.LoadOutcome) (ok : Bool) :
    Controller.Section :=
  .tick (tickInput scale nowMs pumpSignal utcSec)
    ⟨s.newScaleSample scale, s.scaleStateChanged scale, load.changed⟩ ok

theorem moments_tick (hr : s.loop.replaying = false) :
    s.moments (.tick scale nowMs pumpSignal utcSec load ok) =
      .scale scale.state :: (load.sections ++
        (s.tickSection scale nowMs pumpSignal utcSec load ok ::
          (s.loop.controller.performAll load.sections).followUp
            (s.tickSection scale nowMs pumpSignal utcSec load ok))).map Moment.run := by
  have hsections : s.loop.sections (.tick (tickInput scale nowMs pumpSignal utcSec)
      (s.newScaleSample scale) (s.scaleStateChanged scale) load ok) =
      Controller.tick (tickInput scale nowMs pumpSignal utcSec)
        (s.newScaleSample scale) (s.scaleStateChanged scale) load ok := by
    simp [MainLoop.sections, hr]
  show _ :: List.map Moment.run (s.loop.controller.trace (s.loop.sections _)) = _
  rw [hsections, trace_tick]
  rfl

/-- The controller after the load: what the tick looks at is as before. -/
theorem loaded_still (h : s.Still) (load : Controller.LoadOutcome) :
    (s.loop.controller.performAll load.sections).Resting ∧
      (s.loop.controller.performAll load.sections).recorder = s.loop.controller.recorder ∧
      (s.loop.controller.performAll load.sections).lastObservedFinishedSeq =
        s.loop.controller.lastObservedFinishedSeq ∧
      (s.loop.controller.performAll load.sections).saveDue = false := by
  have hresting := Controller.resting_performAll h.resting load.sections
  obtain ⟨has, shot, seq, hload⟩ := s.loop.controller.performAll_load load
  rw [hload] at hresting ⊢
  exact ⟨hresting, rfl, rfl, h.synced.attempted⟩

/-- A tick is quiet exactly if it notifies no one; otherwise it notifies last. -/
theorem notifies_tick (h : s.Still) (hr : s.loop.replaying = false) (scale : ScaleStatus)
    (nowMs : U32) (pumpSignal : PumpSignalObservation) (utcSec : U32)
    (load : Controller.LoadOutcome) (ok : Bool) :
    (s.Quiet scale pumpSignal load ∧
      s.moments (.tick scale nowMs pumpSignal utcSec load ok) =
        .scale scale.state :: (load.sections ++
          [s.tickSection scale nowMs pumpSignal utcSec load ok]).map Moment.run) ∨
    (¬ s.Quiet scale pumpSignal load ∧
      ∃ ms, s.moments (.tick scale nowMs pumpSignal utcSec load ok) = ms ++ [.run .notify]) := by
  obtain ⟨hresting, hrecorder, hobserved, hattempted⟩ := loaded_still h load
  have hobs : (s.loop.controller.performAll load.sections).lastObservedFinishedSeq =
      (s.loop.controller.performAll load.sections).recorder.finishedSeq := by
    rw [hobserved, hrecorder]
    exact h.synced.observed hr
  have hiff := Controller.frameNeeded_eq_false_iff (tickInput scale nowMs pumpSignal utcSec)
    ⟨s.newScaleSample scale, s.scaleStateChanged scale, load.changed⟩ hresting hobs
  rw [moments_tick hr]
  cases hframe : Controller.frameNeeded (s.loop.controller.performAll load.sections)
      ((s.loop.controller.performAll load.sections).liveTick
        (tickInput scale nowMs pumpSignal utcSec))
      ⟨s.newScaleSample scale, s.scaleStateChanged scale, load.changed⟩ with
  | false =>
    left
    obtain ⟨hw, hoff, hflags⟩ := hiff.1 hframe
    obtain ⟨hsample, hstate, hload⟩ := Controller.TickFlags.mk.inj hflags
    rw [hrecorder] at hw
    refine ⟨⟨hw, hoff, hsample, hstate, hload⟩, ?_⟩
    rw [← hrecorder] at hw
    unfold tickSection
    rw [followUp_of_quiet ok hframe (Controller.saveDue_of_quiet hresting hobs hattempted hw hoff)]
  | true =>
    right
    constructor
    · intro hq
      have hno : Controller.frameNeeded (s.loop.controller.performAll load.sections)
          ((s.loop.controller.performAll load.sections).liveTick
            (tickInput scale nowMs pumpSignal utcSec))
          ⟨s.newScaleSample scale, s.scaleStateChanged scale, load.changed⟩ = false := by
        rw [hiff, hrecorder, hq.sample, hq.state, hq.load]
        exact ⟨hq.window, hq.pump, rfl⟩
      rw [hno] at hframe
      exact absurd hframe Bool.false_ne_true
    · obtain ⟨secs, hsecs⟩ := followUp_of_frame ok hframe
      unfold tickSection
      rw [hsecs]
      refine ⟨.scale scale.state :: (load.sections ++ (s.tickSection scale nowMs pumpSignal utcSec
        load ok :: secs)).map Moment.run, ?_⟩
      simp [tickSection]

/-- What the readers find after a quiet tick's locked part differs in the weight only. -/
theorem report_quiet (storage : MountState) {c : Controller} {i : Recorder.Input}
    (flags : Controller.TickFlags) (ok : Bool) (scaleState : ScaleState) (hc : c.Resting)
    (hobs : c.lastObservedFinishedSeq = c.recorder.finishedSeq)
    (hw : ¬ c.recorder.current.inPumpWindow = true) (hoff : i.pumpSignal.isOn = false) :
    Device.report storage (Device.exec ⟨c, scaleState⟩ (.run (.tick i flags ok))) =
        Device.report storage ⟨c, scaleState⟩ ↔ c.weighs i.scale = c.weighs c.statusScale := by
  obtain ⟨alert, -, htick⟩ := Controller.liveTick_quiet hc hobs hw hoff
  have hw' : ¬ (c.liveTick i).recorder.current.inPumpWindow = true := by
    rw [htick]
    exact hw
  have hstatus : ((c.liveTick i).snapshotStatus scaleState storage 0).untimed =
      { (c.snapshotStatus scaleState storage 0).untimed with
        currentWeightCg := (c.weighs i.scale).1
        currentWeightSequence := (c.weighs i.scale).2 } := by
    rw [Controller.snapshotStatus_outside hw', Controller.snapshotStatus_outside hw, htick,
      hc.pumpOff hw]
    rfl
  have hexec : Device.exec ⟨c, scaleState⟩ (.run (.tick i flags ok)) = ⟨c.liveTick i, scaleState⟩ := rfl
  rw [hexec]
  unfold Device.report
  simp only [Report.mk.injEq, hstatus]
  constructor
  · rintro ⟨hsame, -, -⟩
    rw [Controller.snapshotStatus_outside hw] at hsame
    simp only [Controller.StatusSnapshot.mk.injEq] at hsame
    exact Prod.ext (by tauto) (by tauto)
  · intro hweighs
    rw [hweighs, Controller.snapshotStatus_outside hw, htick]
    exact ⟨rfl, rfl, rfl⟩

/-- A failed load is never announced by the quiet tick that services it. -/
theorem not_announced_fails {storage : MountState} {d : Device} {state : ScaleState}
    {sec : Controller.Section} (hsec : sec ≠ .notify) :
    ¬ Announced storage d (.scale state ::
      (Controller.LoadOutcome.failed.sections ++ [sec]).map Moment.run) := by
  intro h
  have hsilent : Moment.run .notify ∉ [Moment.run sec] := by
    intro hmem
    exact hsec (Moment.run.inj (List.mem_singleton.1 hmem)).symm
  have hclear := ((announces_cons_of_silent hsilent).1 h.2.2).1
  have hseq := congrArg (fun r : Report => r.status.displayShotSeq) hclear
  exact absurd hseq (Nat.succ_ne_self _)

/-- A quiet tick announces what it changes if it changes nothing. -/
theorem announced_quiet (h : s.Still) (hr : s.loop.replaying = false) (storage : MountState)
    (hq : s.Quiet scale pumpSignal load) :
    Announced storage s.device (.scale scale.state :: (load.sections ++
        [s.tickSection scale nowMs pumpSignal utcSec load ok]).map Moment.run) ↔
      ¬ (load.fails = true ∨ s.loop.controller.weighs (scaleSnapshotFromBle scale) ≠
        s.loop.controller.weighs s.loop.controller.statusScale) := by
  have hstate : scale.state = s.scaleState := by
    have hsame := hq.state
    unfold scaleStateChanged at hsame
    rw [h.scaleState hr]
    simpa using hsame
  have hsec : s.tickSection scale nowMs pumpSignal utcSec load ok ≠ .notify := by
    unfold tickSection
    simp
  cases hfails : load.fails with
  | true =>
    cases load with
    | failed => exact iff_of_false (not_announced_fails hsec) (by simp)
    | _ => cases hfails
  | false =>
    have hsections : load.sections = [] := by
      cases load with
      | nothingQueued => rfl
      | dropped => rfl
      | loaded shot => exact absurd hq.load (by simp [Controller.LoadOutcome.changed])
      | failed => cases hfails
    have hsilent : Moment.run .notify ∉
        [Moment.run (s.tickSection scale nowMs pumpSignal utcSec load ok)] := by
      intro hmem
      exact hsec (Moment.run.inj (List.mem_singleton.1 hmem)).symm
    have hscale : Device.exec s.device (.scale scale.state) = s.device := by
      rw [hstate]
      rfl
    have hpump : (tickInput scale nowMs pumpSignal utcSec).pumpSignal.isOn = false := hq.pump
    have hreport := report_quiet storage
      ⟨s.newScaleSample scale, s.scaleStateChanged scale, load.changed⟩ ok s.scaleState h.resting
      (h.synced.observed hr) hq.window hpump
    rw [hsections]
    show Announces Device.exec (Device.report storage) (.run .notify) s.device (.scale scale.state ::
      [Moment.run (s.tickSection scale nowMs pumpSignal utcSec load ok)]) ↔ _
    rw [announces_cons_of_silent hsilent, hscale, announces_cons_of_silent List.not_mem_nil]
    simp only [true_and, announces_nil, and_true, Bool.false_eq_true, false_or, not_not]
    exact hreport

end Tick

section Operation

variable {s : ExtractionScreen} {op : Op}

theorem report_notify (storage : MountState) (d : Device) :
    Device.report storage (Device.exec d (.run .notify)) = Device.report storage d := rfl

/-- Only a section that notifies, or a tick or an A hold that is not silent, ends with a wake-up. -/
theorem notifies_iff (h : s.Still) (ha : s.Allowed op) :
    (¬ s.Silent op ∧ ∃ ms, s.moments op = ms ++ [.run .notify]) ∨
      (s.Silent op ∧ Moment.run .notify ∉ s.moments op) := by
  cases op with
  | beginSession => exact Or.inl ⟨id, [.scale _, .run .clearForSession, .run (.setActive true)], rfl⟩
  | deactivate => exact Or.inr ⟨trivial, by simp [moments, call, MainLoop.sections,
      Controller.deactivate, Controller.trace, Controller.followUp]⟩
  | resetInFlightAndNotify => exact Or.inl ⟨id, [.scale _, .run .resetInFlight], rfl⟩
  | tick scale nowMs pumpSignal utcSec load ok =>
    obtain ⟨hq, hmoments⟩ | ⟨hq, hends⟩ := notifies_tick h ha scale nowMs pumpSignal
      utcSec load ok
    · refine Or.inr ⟨hq, ?_⟩
      rw [hmoments]
      cases load <;> simp [tickSection, Controller.LoadOutcome.sections]
    · exact Or.inl ⟨hq, hends⟩
  | contextAction =>
    by_cases hdone : s.loop.controller.recorder.current.phase = .done
    · left
      refine ⟨fun hno => hno hdone, [.scale s.lastScaleState, .run .contextAction], ?_⟩
      simp [moments, call, looks, MainLoop.sections, Controller.trace, Controller.followUp, hdone]
    · right
      refine ⟨hdone, ?_⟩
      simp [moments, call, looks, MainLoop.sections, Controller.trace, Controller.followUp, hdone]
  | startReplay => exact Or.inl ⟨id, [.scale _, .run .resetInFlight], rfl⟩
  | replayTick scale nowMs pumpOn snap =>
    left
    have hr : s.loop.replaying = true := ha
    refine ⟨id, [.scale scale.state, .run (.replayTick nowMs pumpOn snap)], ?_⟩
    simp [moments, call, looks, look, MainLoop.sections, Controller.trace, Controller.followUp, hr]
  | pausedTick scale => exact Or.inr ⟨trivial, List.not_mem_nil⟩

/-- An operation leaves a change unannounced only if it is a quiet tick, or the screen is left. -/
theorem announced_iff (storage : MountState) (h : s.Still) (ha : s.Allowed op)
    (hexit : op ≠ .deactivate) :
    Announced storage s.device (s.moments op) ↔ ¬ s.Unannounced op := by
  obtain ⟨hloud, ms, hends⟩ | ⟨hsilent, -⟩ := notifies_iff h ha
  · rw [hends]
    refine iff_of_true (announces_concat (report_notify storage) ms) fun hun => ?_
    cases op with
    | tick scale nowMs pumpSignal utcSec load ok => exact hloud hun.1
    | _ => exact hun
  · cases op with
    | deactivate => exact absurd rfl hexit
    | tick scale nowMs pumpSignal utcSec load ok =>
      have hq : s.Quiet scale pumpSignal load := hsilent
      obtain ⟨-, hmoments⟩ | ⟨hno, -⟩ := notifies_tick h ha scale nowMs pumpSignal
        utcSec load ok
      · rw [hmoments, announced_quiet h ha storage hq]
        show _ ↔ ¬ (s.Quiet scale pumpSignal load ∧ _)
        rw [and_iff_right hq]
      · exact absurd hq hno
    | contextAction =>
      have hstays : s.loop.controller.applyContextAction = s.loop.controller := by
        unfold Controller.applyContextAction
        split
        · exact absurd ‹_› hsilent
        · rfl
      have hmoments : s.moments .contextAction = [.scale s.scaleState, .run .contextAction] := by
        rw [h.scaleState ha]
        simp [moments, call, looks, MainLoop.sections, Controller.trace, Controller.followUp,
          show ¬ s.loop.controller.recorder.current.phase = .done from hsilent]
      rw [hmoments]
      refine iff_of_true ⟨fun hchange => absurd rfl hchange, fun hchange => ?_, trivial⟩ id
      exfalso
      apply hchange
      show Device.report storage ⟨s.loop.controller.applyContextAction, s.scaleState⟩ = _
      rw [hstays]
      rfl
    | pausedTick scale => exact iff_of_true trivial id
    | _ => exact hsilent.elim

end Operation

end ExtractionScreen

end Pumpbug
