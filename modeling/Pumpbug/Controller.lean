import Pumpbug.RecordStep
import Pumpbug.ScaleService
import Pumpbug.TargetAlert

/-!
# The extraction controller

`ExtractionController.cpp`: the main task advances the recorder, lets finished shots graduate,
selects the shot on display, and wakes the readers through `liveSeq`; the stream's task takes
snapshots.  A `Section` is what one task does in one go: the body of one lock, or one access to an
atomic.

The sequence numbers count without end; the words that the source keeps are their residues, and the
verdict, the save and the frame compare words.
-/

namespace Pumpbug

/-- `storage::MountState`. -/
inductive MountState where
  | ready | unavailable
  deriving DecidableEq

structure Controller where
  recorder : Recorder := {}
  /-- The last `finishedSeq` observed. -/
  lastObservedFinishedSeq : ℕ := 0
  /-- The last finished record that passed `isLikelyRealShot`, and its sequence number. -/
  lastAcceptedShot : Extraction := {}
  lastAcceptedSeq : ℕ := 0
  lastAttemptedSeq : ℕ := 0
  lastSavedSeq : ℕ := 0
  targetAlert : TargetAlert := {}
  targetCoeffs : TargetCoeffs := {}
  /-- `beginMs` of the shot the alert tracks. -/
  alertShotBeginMs : U32 := 0
  loadedShot : Option Extraction := none
  hasLoadedShot : Bool := false
  /-- Advances with every change of the shot on display. -/
  displayShotSeq : ℕ := 0
  /-- The frame and the clock of the recorder's last advance, and whether it was a replay's. -/
  statusScale : ScaleSnapshot := {}
  statusNowMs : U32 := 0
  replaying : Bool := false
  statusPumpSignalState : PumpSignalState := .off
  active : Bool := false
  /-- The wake-up counter. -/
  liveSeq : ℕ := 0
  deriving DecidableEq

namespace Controller

/-- The `uint32_t` of a sequence number. -/
def word (seq : ℕ) : U32 := BitVec.ofNat 32 seq

theorem word_succ (n : ℕ) : word (n + 1) ≠ word n := by
  intro h
  have hmod := congrArg BitVec.toNat h
  unfold word at hmod
  rw [BitVec.toNat_ofNat, BitVec.toNat_ofNat] at hmod
  omega

theorem word_inj {m n : ℕ} (hm : m < 2 ^ 32) (hn : n < 2 ^ 32) : word m = word n ↔ m = n := by
  refine ⟨fun h => ?_, congrArg word⟩
  have hmod := congrArg BitVec.toNat h
  unfold word at hmod
  rwa [BitVec.toNat_ofNat, BitVec.toNat_ofNat, Nat.mod_eq_of_lt hm, Nat.mod_eq_of_lt hn] at hmod

/-! ## The shot on display -/

/-- The loaded shot if there is one, otherwise the last accepted shot, of fewer than `2 ^ 32`. -/
def effectiveLastShot (c : Controller) : Option Extraction :=
  if c.hasLoadedShot then c.loadedShot
  else if c.lastAcceptedSeq ≠ 0 then some c.lastAcceptedShot
  else none

def clearLoadedShot (c : Controller) : Controller :=
  { c with hasLoadedShot := false, loadedShot := none, displayShotSeq := c.displayShotSeq + 1 }

def unpublishLoadedShot (c : Controller) : Controller := { c with hasLoadedShot := false }

def publishLoadedShot (c : Controller) (shot : Extraction) : Controller :=
  { c with hasLoadedShot := true, loadedShot := some shot, displayShotSeq := c.displayShotSeq + 1 }

/-! ## Sessions -/

/-- The locked part of `beginSession`. -/
def clearForSession (c : Controller) : Controller :=
  { c with recorder := c.recorder.clear, statusPumpSignalState := .off,
           lastObservedFinishedSeq := c.recorder.clear.finishedSeq }

/-- The locked part of `deactivate`. -/
def dropPumpSignal (c : Controller) : Controller := { c with statusPumpSignalState := .off }

def setActive (c : Controller) (active : Bool) : Controller := { c with active := active }

/-- The locked part of `resetInFlightAndNotify`. -/
def resetInFlight (c : Controller) : Controller :=
  { c with recorder := c.recorder.clear, lastObservedFinishedSeq := c.recorder.clear.finishedSeq,
           targetAlert := c.targetAlert.reset, alertShotBeginMs := 0, statusPumpSignalState := .off }

/-- The release of `liveSeq`. -/
def notify (c : Controller) : Controller := { c with liveSeq := c.liveSeq + 1 }

/-! ## The tick -/

inductive FinalizeOutcome where
  | none | rejected | accepted
  deriving DecidableEq

/-- The verdict on the most recent finalize, if it is a new one. -/
def finalizeOutcome (c : Controller) : FinalizeOutcome :=
  if word c.recorder.finishedSeq = word c.lastObservedFinishedSeq then .none
  else if isLikelyRealShot c.recorder.lastFinished then .accepted
  else .rejected

def observeFinishedExtraction (c : Controller) : Controller :=
  match c.finalizeOutcome with
  | .none => c
  | .rejected => { c with lastObservedFinishedSeq := c.recorder.finishedSeq }
  | .accepted =>
    { c with lastObservedFinishedSeq := c.recorder.finishedSeq,
             lastAcceptedShot := c.recorder.lastFinished,
             lastAcceptedSeq := c.recorder.finishedSeq }

/-- Apply the verdict: a rejected shot does not stay in `DONE`, an accepted one supersedes the
loaded shot. -/
def settleFinalize (c : Controller) : Controller :=
  match c.finalizeOutcome with
  | .none => c.observeFinishedExtraction
  | .rejected =>
    let c := c.observeFinishedExtraction
    if c.recorder.current.phase = .done then { c with recorder := c.recorder.clear } else c
  | .accepted => c.observeFinishedExtraction.clearLoadedShot

/-- A new shot for the alert; its settings go into the record. -/
def startAlert (c : Controller) (curBeginMs : U32) : Controller :=
  let alert := c.targetAlert.onRunningEntry.setCoeffs c.targetCoeffs
  { c with alertShotBeginMs := curBeginMs, targetAlert := alert,
           recorder := c.recorder.setTargetSnapshot alert.coeffs }

/-- `_runTargetAlert`. -/
def runTargetAlert (c : Controller) (nowMs : U32) (phaseRunning : Bool)
    (sample : TrustedYieldSample) (curBeginMs : U32) : Controller :=
  let c := if phaseRunning && curBeginMs ≠ c.alertShotBeginMs then c.startAlert curBeginMs else c
  let c := { c with targetAlert := c.targetAlert.update nowMs phaseRunning sample }
  if c.targetAlert.state.stopNowEdge then
    { c with recorder :=
        c.recorder.triggerAlarm { tMs := nowMs, ctx := c.targetAlert.snapshotAtStop } }
  else c

/-- The alert's part of a tick, live or replayed. -/
def advanceAlert (c : Controller) (nowMs : U32) : Controller :=
  c.runTargetAlert nowMs (c.recorder.current.phase = .running) c.recorder.lastTrustedYieldSample
    c.recorder.current.beginMs

/-- The locked part of `tick`. -/
def liveTick (c : Controller) (i : Recorder.Input) : Controller :=
  let c := { c with statusPumpSignalState := i.pumpSignal.state, recorder := c.recorder.update i }
  { (c.settleFinalize).advanceAlert i.nowMs with
    statusScale := i.scale, statusNowMs := i.nowMs, replaying := false }

/-- What a replayed tick feeds the recorder. -/
def replayInput (nowMs : U32) (pumpOn : Bool) (scale : ScaleSnapshot) : Recorder.Input where
  nowMs := nowMs
  pumpSignal := { state := if pumpOn then .on else .off }
  scale := scale

/-- The locked part of `replayTick`. -/
def replayTick (c : Controller) (nowMs : U32) (pumpOn : Bool) (scale : ScaleSnapshot) : Controller :=
  let c := { c with statusPumpSignalState := .off,
                    recorder := c.recorder.update (replayInput nowMs pumpOn scale) }
  { c.advanceAlert nowMs with statusScale := scale, statusNowMs := nowMs, replaying := true }

/-- What the view observed besides the recorder's input. -/
structure TickFlags where
  newScaleSample : Bool := false
  scaleStateChanged : Bool := false
  loadedShotChanged : Bool := false
  deriving DecidableEq

/-- Something wants a fresh frame after the tick that led from `before` to `after`. -/
def frameNeeded (before after : Controller) (flags : TickFlags) : Bool :=
  after.recorder.current.inPumpWindow ||
    after.recorder.current.phase ≠ before.recorder.current.phase ||
    after.recorder.current.samples.count ≠ before.recorder.current.samples.count ||
    word after.recorder.finishedSeq ≠ word before.recorder.finishedSeq ||
    flags.newScaleSample || flags.scaleStateChanged ||
    after.targetAlert.state.stopNowEdge || flags.loadedShotChanged

/-- The latest accepted shot has not been handed to the store yet. -/
def saveDue (c : Controller) : Bool := word c.lastAcceptedSeq ≠ word c.lastAttemptedSeq

/-- The locked part of `contextAction`. -/
def applyContextAction (c : Controller) : Controller :=
  match c.recorder.current.phase with
  | .done => { c with recorder := c.recorder.clear }
  | _ => c

/-! ## Sections of the main task -/

inductive Section where
  | clearForSession
  | setActive (active : Bool)
  | dropPumpSignal
  | resetInFlight
  | notify
  | unpublishLoadedShot
  | publishLoadedShot (shot : Extraction)
  | clearLoadedShot
  | tick (i : Recorder.Input) (flags : TickFlags) (saveOk : Bool)
  | attemptSave
  | publishSaved
  | contextAction
  | replayTick (nowMs : U32) (pumpOn : Bool) (scale : ScaleSnapshot)
  | setTargetCoeffs (coeffs : TargetCoeffs)

def execSection (c : Controller) : Section → Controller
  | .clearForSession => c.clearForSession
  | .setActive active => c.setActive active
  | .dropPumpSignal => c.dropPumpSignal
  | .resetInFlight => c.resetInFlight
  | .notify => c.notify
  | .unpublishLoadedShot => c.unpublishLoadedShot
  | .publishLoadedShot shot => c.publishLoadedShot shot
  | .clearLoadedShot => c.clearLoadedShot
  | .tick i _ _ => c.liveTick i
  | .attemptSave => { c with lastAttemptedSeq := c.lastAcceptedSeq }
  | .publishSaved => { c with lastSavedSeq := c.lastAcceptedSeq }
  | .contextAction => c.applyContextAction
  | .replayTick nowMs pumpOn scale => c.replayTick nowMs pumpOn scale
  | .setTargetCoeffs coeffs => { c with targetCoeffs := coeffs }

/-- `persistAcceptedShot`, after a tick that led to `c`. -/
def persistAcceptedShot (c : Controller) (saveOk : Bool) : List Section :=
  if c.saveDue then
    .attemptSave :: (if saveOk then [.publishSaved, .notify] else [.notify])
  else []

/-- What a section makes the main task do before anything else. -/
def followUp (c : Controller) : Section → List Section
  | .tick i flags saveOk =>
    (if frameNeeded c (c.liveTick i) flags then [.notify] else []) ++
      (c.liveTick i).persistAcceptedShot saveOk
  | .contextAction => if c.recorder.current.phase = .done then [.notify] else []
  | .replayTick _ _ _ => [.notify]
  | _ => []

/-- How the store answers a queued load. -/
inductive LoadOutcome where
  | nothingQueued
  /-- The record could not be allocated. -/
  | dropped
  | loaded (shot : Extraction)
  | failed

/-- `processPendingLoad`. -/
def LoadOutcome.sections : LoadOutcome → List Section
  | .nothingQueued => []
  | .dropped => []
  | .loaded shot => [.unpublishLoadedShot, .publishLoadedShot shot]
  | .failed => [.unpublishLoadedShot, .clearLoadedShot]

def LoadOutcome.changed : LoadOutcome → Bool
  | .loaded _ => true
  | _ => false

def beginSession : List Section := [.clearForSession, .setActive true, .notify]

def deactivate : List Section := [.dropPumpSignal, .setActive false]

def resetInFlightAndNotify : List Section := [.resetInFlight, .notify]

def tick (i : Recorder.Input) (newScaleSample scaleStateChanged : Bool) (load : LoadOutcome)
    (saveOk : Bool) : List Section :=
  load.sections ++
    [.tick i { newScaleSample := newScaleSample, scaleStateChanged := scaleStateChanged,
               loadedShotChanged := load.changed } saveOk]

/-! ## Snapshots -/

structure StatusSnapshot where
  active : Bool := false
  currentPhase : Phase := .idle
  acceptedSeq : ℕ := 0
  savedSeq : ℕ := 0
  storageState : MountState := .unavailable
  currentBeginMs : U32 := 0
  currentElapsedMs : U32 := 0
  currentSampleCount : ℕ := 0
  scaleState : ScaleState := .off
  currentWeightCg : Option I16 := none
  currentWeightSequence : ℕ := 0
  currentYieldCg : Option I16 := none
  currentPouring : Bool := false
  pumpSignalState : PumpSignalState := .off
  hasDisplayShot : Bool := false
  displayShotSeq : ℕ := 0
  deriving DecidableEq

/-- `currentIsPouring`. -/
def currentIsPouring (c : Controller) : Bool :=
  c.recorder.current.inPumpWindow && c.recorder.tracker.hasMeaningfulYield

/-- The first two reads of `snapshotStatus`. -/
def readActive (c : Controller) (scaleState : ScaleState) : StatusSnapshot :=
  { active := c.active, scaleState := scaleState }

def readSaved (c : Controller) (storageState : MountState) (out : StatusSnapshot) :
    StatusSnapshot :=
  { out with savedSeq := c.lastSavedSeq, storageState := storageState }

/-- The locked part of `snapshotStatus`. -/
def readLocked (c : Controller) (millis : U32) (out : StatusSnapshot) : StatusSnapshot :=
  let cur := c.recorder.current
  let weighing := out.active && c.statusScale.present
  { out with
    currentPhase := cur.phase
    currentBeginMs := cur.beginMs
    currentSampleCount := cur.samples.count
    currentWeightCg := if weighing then gramsToCg c.statusScale.grams else none
    currentWeightSequence := if weighing then c.statusScale.sequence else 0
    currentYieldCg := if weighing then c.recorder.currentYieldCg c.statusScale else none
    currentPouring := c.currentIsPouring
    pumpSignalState := c.statusPumpSignalState
    currentElapsedMs := extractionElapsedMs cur (if c.replaying then c.statusNowMs else millis)
    acceptedSeq := c.lastAcceptedSeq
    hasDisplayShot := c.effectiveLastShot.isSome
    displayShotSeq := c.displayShotSeq }

/-- `snapshotStatus`, when nothing comes between its reads. -/
def snapshotStatus (c : Controller) (scaleState : ScaleState) (storageState : MountState)
    (millis : U32) : StatusSnapshot :=
  c.readLocked millis (c.readSaved storageState (c.readActive scaleState))

/-- `snapshotExtraction`: a record, and the accepted-shot sequence captured under the same lock. -/
def snapshotExtraction (c : Controller) (wantDisplayShot : Bool) : Extraction × ℕ :=
  (if wantDisplayShot then c.effectiveLastShot.getD c.lastAcceptedShot else c.recorder.current,
    c.lastAcceptedSeq)

end Controller

end Pumpbug
