import Pumpbug.SampleBatch
import Pumpbug.ScreenLoop

/-!
# The stream's sessions

`_runSession` of `ExtractionStream.cpp`: the initial dispatch to a new client, then the poll loop.
A step ends with one read of the controller at most, so that the main task may run between any two
reads.  A failed write ends the session; heartbeats, which change nothing else, are left out.
-/

namespace Pumpbug

open Lib

namespace ExtractionStream

open Controller (StatusSnapshot)
open ExtractionScreen (Device Moment)

def kStateMinIntervalMs : U32 := 200

/-- A packet, with what it is built from; a batch with the cursor it starts at. -/
inductive Packet
  | state (snap : StatusSnapshot)
  | currentRecord (ext : Extraction) (shotSeq : ℕ)
  | sampleBatch (samples : SentSamples) (ext : Extraction) (shotSeq : ℕ)
  | finalRecord (ext : Extraction) (shotSeq : ℕ)
  deriving DecidableEq

/-- What the session does next. -/
inductive Stage
  | poll | active | saved | locked | display | inFlight
  deriving DecidableEq

structure Session where
  stage : Stage := .poll
  /-- The initial dispatch is over. -/
  connected : Bool := false
  /-- The time of the last poll. -/
  now : U32 := 0
  snap : StatusSnapshot := {}
  lastSeenLiveSeq : ℕ := 0
  lastDisplaySeq : ℕ := 0
  /-- `beginMs` of the last record in flight that was sent whole; 0 for none. -/
  lastInFlightBeginMs : U32 := 0
  lastSentRecordPhase : Phase := .idle
  lastSentRecordInit : Bool := false
  samples : SentSamples := {}
  lastSentState : Option StatusSnapshot := none
  lastStateMs : U32 := 0
  /-- The packets written so far. -/
  packets : List Packet := []
  deriving DecidableEq

namespace Session

def send (s : Session) (packet : Packet) : Session := { s with packets := s.packets ++ [packet] }

/-! ## Packets -/

def sendState (s : Session) (millis : U32) : Session :=
  { s.send (.state s.snap) with lastSentState := some s.snap, lastStateMs := millis }

def sendCurrentRecord (s : Session) (ext : Extraction) (shotSeq : ℕ) : Session :=
  { s.send (.currentRecord ext shotSeq) with
    lastInFlightBeginMs := ext.beginMs
    lastSentRecordPhase := ext.phase
    lastSentRecordInit := true
    samples := .afterCurrentRecord ext }

def sendSampleBatch (s : Session) (ext : Extraction) (shotSeq : ℕ) : Session :=
  if ext.samples.count ≤ s.samples.lastSentSampleIdx then s
  else
    { s.send (.sampleBatch s.samples ext shotSeq) with samples := s.samples.afterSampleBatch ext }

/-- The display shot, if there is one; the next update in flight starts with a full record. -/
def sendDisplayRecord (s : Session) (c : Controller) : Session :=
  let record := c.snapshotExtraction true
  { if s.snap.hasDisplayShot then s.send (.finalRecord record.1 record.2) else s with
    lastDisplaySeq := s.snap.displayShotSeq
    lastInFlightBeginMs := 0
    lastSentRecordPhase := .idle
    lastSentRecordInit := false
    samples := {} }

/-- Something that the client renders has changed, and may be sent now. -/
def stateShouldSend (s : Session) : Bool :=
  match s.lastSentState with
  | none => true
  | some last =>
    let cur := s.snap
    cur.active ≠ last.active || cur.currentPhase ≠ last.currentPhase ||
      cur.scaleState ≠ last.scaleState || cur.acceptedSeq ≠ last.acceptedSeq ||
      cur.savedSeq ≠ last.savedSeq || cur.storageState ≠ last.storageState ||
      cur.currentWeightCg.isSome ≠ last.currentWeightCg.isSome ||
      cur.currentYieldCg.isSome ≠ last.currentYieldCg.isSome ||
      cur.currentPouring ≠ last.currentPouring ||
      decide (cur.pumpSignalState = .decayCandidate) ≠
        decide (last.pumpSignalState = .decayCandidate) ||
      cur.hasDisplayShot ≠ last.hasDisplayShot ||
      ((cur.currentElapsedMs ≠ last.currentElapsedMs ||
          cur.currentWeightCg ≠ last.currentWeightCg ||
          cur.currentYieldCg ≠ last.currentYieldCg) &&
        kStateMinIntervalMs ≤ s.now - s.lastStateMs)

/-! ## The record in flight -/

/-- The status says that there may be a record in flight. -/
def mayBeInFlight (s : Session) : Bool := s.snap.active && s.snap.currentPhase ≠ .idle

/-- The record may go out: it is in its pump window, and no shot has graduated since the status. -/
def inOrder (s : Session) (record : Extraction × ℕ) : Bool :=
  record.1.inPumpWindow && record.2 = s.snap.acceptedSeq

/-- The record in flight, in the initial dispatch. -/
def connectInFlight (s : Session) (c : Controller) : Session :=
  let record := c.snapshotExtraction false
  if s.mayBeInFlight && s.inOrder record then s.sendCurrentRecord record.1 record.2 else s

/-- The status calls for a copy of the record. -/
def wantsRecord (s : Session) : Bool :=
  s.snap.currentBeginMs ≠ s.lastInFlightBeginMs ||
    (s.lastSentRecordInit && s.snap.currentPhase ≠ s.lastSentRecordPhase) ||
    s.samples.lastSentSampleIdx < s.snap.currentSampleCount

def needFullRecord (s : Session) (ext : Extraction) : Bool :=
  ext.beginMs ≠ s.lastInFlightBeginMs ||
    (s.lastSentRecordInit && ext.phase ≠ s.lastSentRecordPhase)

/-- The record in flight, in the poll loop. -/
def refreshInFlight (s : Session) (c : Controller) : Session :=
  let record := c.snapshotExtraction false
  if s.mayBeInFlight && s.wantsRecord && s.inOrder record then
    if s.needFullRecord record.1 then s.sendCurrentRecord record.1 record.2
    else s.sendSampleBatch record.1 record.2
  else s

/-! ## The loop -/

/-- The session's next step. -/
def step (storage : MountState) (d : Device) (s : Session) (millis : U32) : Session :=
  match s.stage with
  | .poll =>
    if s.connected && s.lastSeenLiveSeq = d.controller.liveSeq then s
    else { s with now := millis, lastSeenLiveSeq := d.controller.liveSeq, stage := .active }
  | .active => { s with snap := d.controller.readActive d.scaleState, stage := .saved }
  | .saved => { s with snap := d.controller.readSaved storage s.snap, stage := .locked }
  | .locked =>
    let s := { s with snap := d.controller.readLocked millis s.snap, stage := .display }
    if s.connected then s else s.sendState millis
  | .display =>
    { if s.connected && s.snap.displayShotSeq = s.lastDisplaySeq then s
      else s.sendDisplayRecord d.controller with
      stage := .inFlight }
  | .inFlight =>
    if s.connected then
      let s := s.refreshInFlight d.controller
      { if s.stateShouldSend then s.sendState millis else s with stage := .poll }
    else { s.connectInFlight d.controller with stage := .poll, connected := true }

end Session

/-! ## Turns -/

/-- A turn of the main task, or of the stream's. -/
inductive Turn
  | device (m : Moment)
  | session (millis : U32)

def Turn.moment? : Turn → Option Moment
  | .device m => some m
  | .session _ => none

structure World where
  device : Device := {}
  session : Session := {}

def World.step (storage : MountState) (w : World) : Turn → World
  | .device m => { w with device := w.device.exec m }
  | .session millis => { w with session := w.session.step storage w.device millis }

end ExtractionStream

end Pumpbug
