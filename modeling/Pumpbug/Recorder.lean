import Pumpbug.RobustFlow

/-!
# The extraction recorder

`ExtractionRecorder.cpp`: pump activity and scale readings become an extraction record.

    IDLE --pump starts--> RUNNING --pump stops--> POST_PUMP
      ^                       ^                     |
      |                       +--same extraction---+
      +-------clear or next extraction-- DONE <-----+

`transitionTo` is the only function that writes the phase; `update` is one tick.
-/

namespace Pumpbug

open Lib

/-- `ensureMonotonicTimestamp`: at least one past `lastTs`, and never 0. -/
def ensureMonotonicTimestamp (ts lastTs : U32) : U32 :=
  let ts := if (ts - lastTs).toInt ≤ 0 then lastTs + 1 else ts
  if ts = 0 then ts + 1 else ts

/-! ## Timeouts -/

def NO_NEW_SAMPLE_TIMEOUT_MS : U32 := 3000
def OPEN_POUR_SETTLE_TIMEOUT_MS : U32 := 12000
def NO_SCALE_TIMEOUT_MS : U32 := 5000
def EMPTY_SCALE_TIMEOUT_MS : U32 := NO_SCALE_TIMEOUT_MS
def MIN_CREDIBLE_ENDPOINT_GAIN_NUMERATOR : ℤ := 3
def MIN_CREDIBLE_ENDPOINT_GAIN_DENOMINATOR : ℤ := 4

/-- Two event slots are reserved for the finalize events. -/
def MAX_NONFINALIZE_EVENTS : ℕ := MAX_EVENTS - 2

/-! ## Appending events and samples -/

/-- Store an event outside the reserved slots, or note that it was dropped. -/
def storeEvent (e : Extraction) (event : Event) : Extraction :=
  if MAX_NONFINALIZE_EVENTS ≤ e.events.count then { e with eventsOverflowed := true }
  else { e with events := e.events.push event }

def appendEvent (e : Extraction) (tMs : U32) (kind : EventKind) : Extraction :=
  storeEvent e { tMs := tMs, kind := kind }

/-- `signalDecayLeadMsPlusOne` of a confirmation; 0 when there is no onset or it is too far. -/
def decayLeadMsPlusOne (confirmedMs : U32) (pumpSignal : PumpSignalObservation) : U16 :=
  if pumpSignal.hasAcceptedDecayOnset then
    let leadMs := confirmedMs - pumpSignal.acceptedDecayOnsetMs
    if leadMs < 0xFFFF then (leadMs + 1).setWidth 16 else 0
  else 0

def appendPumpOffConfirmedEvent (e : Extraction) (confirmedMs : U32)
    (pumpSignal : PumpSignalObservation) : Extraction :=
  storeEvent e { tMs := confirmedMs, kind := .pumpOffConfirmed,
                 payload := { signalDecayLeadMsPlusOne := decayLeadMsPlusOne confirmedMs pumpSignal } }

/-- Bypasses the reservation; drops the event only when the array is full. -/
def appendFinalizeEvent (e : Extraction) (tMs : U32) (kind : EventKind) : Extraction :=
  { e with events := e.events.push { tMs := tMs, kind := kind } }

def appendSample (e : Extraction) (tMs : U32) (cg : I16) (scaleTimerMs : U32) : Extraction :=
  { e with samples := e.samples.push { tMs := tMs, cg := cg, scaleTimerMs := scaleTimerMs } }

/-! ## The state -/

structure Recorder where
  current : Extraction := { version := kCurrentExtractionVersion }
  /-- Arrival time of the last processed reading; 0 for none yet this shot. -/
  lastScaleTimestampMs : U32 := 0
  lastScalePresent : Bool := false
  lastPumpOn : Bool := false
  pumpOnIntervalStartMs : U32 := 0
  /-- Most recent accepted raw sample, stored or not. -/
  lastRawCg : I16 := NO_WEIGHT
  lastTrustedSampleTMs : U32 := 0
  /-- Bumps with every trusted sample; not reset between shots. -/
  lastTrustedSeq : ℕ := 0
  lastRawSampleTMs : U32 := 0
  tracker : LivePourTracker := {}
  /-- The latest finalized record; survives `clear`. -/
  lastFinished : Extraction := {}
  /-- The records finished so far; the source keeps the count modulo `2 ^ 32`. -/
  finishedSeq : ℕ := 0
  deriving DecidableEq

namespace Recorder

/-! ## Entering a phase -/

/-- Hard reset; only the BLE-link bookkeeping and the finished record survive. -/
def enterIdle (r : Recorder) : Recorder :=
  { r with
    current := { version := kCurrentExtractionVersion }
    lastScaleTimestampMs := 0
    lastPumpOn := false
    pumpOnIntervalStartMs := 0
    lastRawCg := NO_WEIGHT
    lastTrustedSampleTMs := 0
    lastRawSampleTMs := 0
    tracker := LivePourTracker.reset }

def enterRunning (r : Recorder) (nowMs utcSec : U32) : Recorder :=
  let e :=
    if r.current.phase = .idle then
      appendEvent { r.current with beginMs := nowMs, startUtcSec := utcSec } nowMs .begin
    else r.current
  { r with
    pumpOnIntervalStartMs := nowMs
    current := { appendEvent e nowMs .pumpOn with phase := .running } }

def enterPostPump (r : Recorder) (nowMs : U32) (pumpSignal : PumpSignalObservation) : Recorder :=
  let e := { r.current with
    totalPumpOnMs := r.current.totalPumpOnMs + (nowMs - r.pumpOnIntervalStartMs)
    lastPumpOffConfirmedMs := nowMs }
  { r with current := { appendPumpOffConfirmedEvent e nowMs pumpSignal with phase := .postPump } }

end Recorder

/-- The yield block of the `DONE` entry: evidence, endpoints, yield and status. -/
def settleYield (e : Extraction) (lastRawCg : I16) : Extraction :=
  let evidence := computePourEvidence e.samples.items
  let e := { e with
    pourMs := evidence.pourMs
    decisionGainCg := i32 evidence.gainCg
    yieldStatus := if evidence.hasPour then .ok else .none
    startRawCg := if evidence.hasStartRawCg then evidence.startRawCg else lastRawCg
    settledRawCg := lastRawCg }
  let realShot := isLikelyRealShot e
  let preDiscontinuityCg :=
    if realShot && evidence.hasPour then
      endpointBeforePostPumpDiscontinuity e.samples.items e.lastPumpOffConfirmedMs
    else none
  let endpointCg := preDiscontinuityCg.getD e.settledRawCg
  let yieldCg :=
    if e.startRawCg ≠ NO_WEIGHT ∧ endpointCg ≠ NO_WEIGHT then
      saturateCg (endpointCg.toInt - e.startRawCg.toInt)
    else NO_WEIGHT
  let e := { e with
    yieldCg := yieldCg
    yieldStatus := if preDiscontinuityCg.isSome then .disturbed else e.yieldStatus }
  if realShot ∧ yieldCg ≠ NO_WEIGHT ∧ 0 < evidence.gainCg ∧
      yieldCg.toInt * MIN_CREDIBLE_ENDPOINT_GAIN_DENOMINATOR ≤
        evidence.gainCg * MIN_CREDIBLE_ENDPOINT_GAIN_NUMERATOR then
    { e with yieldCg := saturateCg e.decisionGainCg.toInt, yieldStatus := .disturbed }
  else e

/-- A no-scale timeout ends the record at pump-off rather than at the later timeout. -/
def intendedEndMs (e : Extraction) (nowMs : U32) (cause : EndCause) : U32 :=
  if cause = .timeout ∧ ¬ e.hasSampleData then e.lastPumpOffConfirmedMs else nowMs

/-- Drop the trailing events whose raw timestamp lies past the intended end. -/
def trimEvents (e : Extraction) (intendedEndMs : U32) : Extraction :=
  { e with events := e.events.dropLastWhile fun event => intendedEndMs < event.tMs }

/-- The last block of the `DONE` entry: trim the events, clamp the end and append `END`. -/
def closeRecord (e : Extraction) (nowMs : U32) (cause : EndCause) : Extraction :=
  let intended := intendedEndMs e nowMs cause
  let e := trimEvents e intended
  let endMs :=
    match e.events.items.getLast? with
    | some last => ensureMonotonicTimestamp intended last.tMs
    | none => intended
  appendFinalizeEvent { e with endMs := endMs, endCause := cause } endMs .end_

namespace Recorder

/-- The record that entering `DONE` publishes. -/
def finished (r : Recorder) (nowMs : U32) (cause : EndCause) : Extraction :=
  let e :=
    if cause = .stable then
      { appendFinalizeEvent r.current nowMs .stableDetected with stableMs := nowMs }
    else r.current
  { closeRecord (settleYield e r.lastRawCg) nowMs cause with phase := .done }

def enterDone (r : Recorder) (nowMs : U32) (cause : EndCause) : Recorder :=
  { r with
    current := r.finished nowMs cause
    lastFinished := r.finished nowMs cause
    finishedSeq := r.finishedSeq + 1 }

/-- `cause` is only consulted for transitions into `DONE`, `utcSec` for `IDLE` to `RUNNING`. -/
def transitionTo (r : Recorder) (next : Phase) (nowMs : U32) (pumpSignal : PumpSignalObservation)
    (cause : EndCause) (utcSec : U32) : Recorder :=
  if r.current.phase = next then r
  else
    match next with
    | .idle => r.enterIdle
    | .running => r.enterRunning nowMs utcSec
    | .postPump => r.enterPostPump nowMs pumpSignal
    | .done => r.enterDone nowMs cause
    | .unnamed code h => { r with current := { r.current with phase := .unnamed code h } }

/-! ## One tick of scale data -/

/-- Scale connect and disconnect, recorded as events on the shot. -/
def noteScalePresence (r : Recorder) (scale : ScaleSnapshot) (nowMs : U32) : Extraction :=
  if scale.present && !r.lastScalePresent then appendEvent r.current nowMs .scaleConnected
  else if !scale.present && r.lastScalePresent then appendEvent r.current nowMs .scaleDisconnected
  else r.current

/-- The reading, if it is genuinely new: present, not processed yet, and finite. -/
def newRawSample (r : Recorder) (scale : ScaleSnapshot) : Option I16 :=
  if scale.present ∧ scale.timestampMs ≠ 0 ∧ scale.timestampMs ≠ r.lastScaleTimestampMs then
    gramsToCg scale.grams
  else none

/-- Feed the tracker, publish the pour start and store the sample. -/
def acceptSample (r : Recorder) (scale : ScaleSnapshot) (rawCg : I16) (nowMs : U32) : Recorder :=
  let tracker := r.tracker.update scale.timestampMs rawCg
  let e :=
    if tracker.hasPourStartWeight ∧ r.current.startRawCg = NO_WEIGHT then
      { r.current with startRawCg := tracker.firstPourStartRawCg }
    else r.current
  let e := appendSample e scale.timestampMs rawCg scale.scaleTimerMs
  { r with
    tracker := tracker
    lastRawSampleTMs := nowMs
    lastTrustedSeq := if tracker.lastSampleWasTrusted then r.lastTrustedSeq + 1 else r.lastTrustedSeq
    lastTrustedSampleTMs :=
      if tracker.lastSampleWasTrusted then nowMs else r.lastTrustedSampleTMs
    current := { e with
      observedSampleCount :=
        if e.observedSampleCount < 0xFFFF then e.observedSampleCount + 1 else e.observedSampleCount }
    lastRawCg := rawCg }

/-- Fold one tick's scale data into the in-flight record. -/
def recordLiveTick (r : Recorder) (scale : ScaleSnapshot) (nowMs : U32) : Recorder :=
  let r := { r with current := r.noteScalePresence scale nowMs }
  match r.newRawSample scale with
  | none => r
  | some rawCg =>
    let r := { r with lastScaleTimestampMs := scale.timestampMs }
    -- a cached reading from before the shot
    if (scale.timestampMs - r.current.beginMs).toInt < 0 then r
    else r.acceptSample scale rawCg nowMs

/-! ## One handler per state -/

def onIdle (r : Recorder) (pumpRising : Bool) (nowMs utcSec : U32) : Recorder :=
  if pumpRising then r.transitionTo .running nowMs {} .none utcSec else r

def onRunning (r : Recorder) (pumpFalling : Bool) (nowMs : U32)
    (pumpSignal : PumpSignalObservation) : Recorder :=
  if pumpFalling then r.transitionTo .postPump nowMs pumpSignal .none 0 else r

/-- The pump's return joins the shot in flight. -/
def coalesces (r : Recorder) (nowMs : U32) (scale : ScaleSnapshot) : Bool :=
  if scale.present then
    if !r.tracker.hasMeaningfulYield then
      nowMs - r.current.lastPumpOffConfirmedMs ≤ EMPTY_SCALE_TIMEOUT_MS
    else r.tracker.hasUnsettledPour
  else nowMs - r.current.lastPumpOffConfirmedMs ≤ NO_SCALE_TIMEOUT_MS

/-- The end cause of a shot that the pump's return splits off. -/
def splitCause (r : Recorder) (scale : ScaleSnapshot) : EndCause :=
  if scale.present && r.tracker.hasMeaningfulYield then .stable else .timeout

def resumeOrSplitShot (r : Recorder) (nowMs : U32) (scale : ScaleSnapshot) (utcSec : U32) :
    Recorder :=
  if r.coalesces nowMs scale then r.transitionTo .running nowMs {} .none 0
  else
    (((r.transitionTo .done nowMs {} (r.splitCause scale) 0).transitionTo .idle nowMs {} .none
      0).transitionTo .running nowMs {} .none utcSec)

/-- How a shot whose pump stays off ends at this tick, if it does. -/
def endOfShot (r : Recorder) (nowMs : U32) : Option EndCause :=
  if r.tracker.settledCountReached then some .stable
  else if r.tracker.hasUnsettledPour then
    let streamStalled :=
      r.lastRawSampleTMs ≠ 0 && NO_NEW_SAMPLE_TIMEOUT_MS < nowMs - r.lastRawSampleTMs
    let settleBackstop :=
      OPEN_POUR_SETTLE_TIMEOUT_MS < nowMs - r.current.lastPumpOffConfirmedMs
    if streamStalled || settleBackstop then some .timeout else none
  else
    let timeoutMs := if r.current.hasSampleData then EMPTY_SCALE_TIMEOUT_MS else NO_SCALE_TIMEOUT_MS
    if timeoutMs < nowMs - r.current.lastPumpOffConfirmedMs then some .timeout else none

def finalizeIfShotEnded (r : Recorder) (nowMs : U32) : Recorder :=
  match r.endOfShot nowMs with
  | some cause => r.transitionTo .done nowMs {} cause 0
  | none => r

def onPostPump (r : Recorder) (pumpRising : Bool) (nowMs : U32) (scale : ScaleSnapshot)
    (utcSec : U32) : Recorder :=
  if pumpRising then r.resumeOrSplitShot nowMs scale utcSec else r.finalizeIfShotEnded nowMs

def onDone (r : Recorder) (pumpRising : Bool) (nowMs utcSec : U32) : Recorder :=
  if pumpRising then
    (r.transitionTo .idle nowMs {} .none 0).transitionTo .running nowMs {} .none utcSec
  else r

/-! ## The tick -/

/-- What one tick is fed. -/
structure Input where
  nowMs : U32
  pumpSignal : PumpSignalObservation := {}
  scale : ScaleSnapshot := {}
  utcSec : U32 := 0
  deriving DecidableEq

/-- The first half of a tick: the scale data and the edge detector's memory. -/
def sense (r : Recorder) (i : Input) : Recorder :=
  { (if r.current.inPumpWindow then r.recordLiveTick i.scale i.nowMs else r) with
    lastScalePresent := i.scale.present
    lastPumpOn := i.pumpSignal.isOn }

def update (r : Recorder) (i : Input) : Recorder :=
  let pumpOn := i.pumpSignal.isOn
  let pumpRising := pumpOn && !r.lastPumpOn
  let pumpFalling := !pumpOn && r.lastPumpOn
  let s := r.sense i
  match s.current.phase with
  | .idle => s.onIdle pumpRising i.nowMs i.utcSec
  | .running => s.onRunning pumpFalling i.nowMs i.pumpSignal
  | .postPump => s.onPostPump pumpRising i.nowMs i.scale i.utcSec
  | .done => s.onDone pumpRising i.nowMs i.utcSec
  | .unnamed _ _ => s

def clear (r : Recorder) : Recorder := r.transitionTo .idle 0 {} .none 0

def setTargetSnapshot (r : Recorder) (tc : TargetCoeffs) : Recorder :=
  if r.current.inPumpWindow then
    { r with current := { r.current with hasTargetSnapshot := true, target := tc } }
  else r

def triggerAlarm (r : Recorder) (a : AlarmTrigger) : Recorder :=
  if r.current.alarm.tMs ≠ 0 ∨ r.current.phase ≠ .running then r
  else { r with current := appendEvent { r.current with alarm := a } a.tMs .alarmTriggered }

/-! ## Observations -/

/-- Raw weight minus the first-pour start weight. -/
def endpointYieldCg (r : Recorder) (rawCg : I16) : I16 :=
  saturateCg (rawCg.toInt - r.tracker.firstPourStartRawCg.toInt)

def currentYieldCg (r : Recorder) (scale : ScaleSnapshot) : Option I16 :=
  if r.current.inPumpWindow && scale.present && r.tracker.hasPourStartWeight then
    (gramsToCg scale.grams).map r.endpointYieldCg
  else none

def lastTrustedYieldSample (r : Recorder) : TrustedYieldSample :=
  if r.lastTrustedSeq = 0 || !r.tracker.hasPourStartWeight then {}
  else { have_ := true, yieldCg := r.endpointYieldCg r.tracker.lastTrustedRawCg,
         tMs := r.lastTrustedSampleTMs, seq := r.lastTrustedSeq }

end Recorder

end Pumpbug
