import Pumpbug.Lib.Run
import Pumpbug.Recorder

/-!
# What one tick of the recorder changes

A tick reads the scale (`sense`) and then lets the handler of the current phase act.  Reading the
scale touches the samples, the events and what is derived from them, and nothing else of the
record.  Every handler amounts to one of a few phase entries.
-/

namespace Pumpbug

open Lib

/-- The record without its events, its samples and what they determine. -/
def Extraction.header (e : Extraction) : Extraction :=
  { e with events := .empty, samples := .empty, eventsOverflowed := false,
           startRawCg := NO_WEIGHT, observedSampleCount := 0 }

/-- A field that `header` keeps can be read off the header. -/
theorem field_of_header {β : Type} (f : Extraction → β) (hf : ∀ e, f e.header = f e)
    {e e' : Extraction} (h : e.header = e') : f e = f e' := by
  rw [← hf e, h]

/-- A field that `header` keeps is equal in records with equal headers. -/
theorem field_eq_of_header {β : Type} (f : Extraction → β) (hf : ∀ e, f e.header = f e)
    {e e' : Extraction} (h : e.header = e'.header) : f e = f e' := by
  rw [field_of_header f hf h, hf e']

@[simp] theorem header_storeEvent (e : Extraction) (event : Event) :
    (storeEvent e event).header = e.header := by
  unfold storeEvent
  split <;> rfl

@[simp] theorem header_appendEvent (e : Extraction) (tMs : U32) (kind : EventKind) :
    (appendEvent e tMs kind).header = e.header := header_storeEvent e _

@[simp] theorem header_appendPumpOffConfirmedEvent (e : Extraction) (nowMs : U32)
    (o : PumpSignalObservation) :
    (appendPumpOffConfirmedEvent e nowMs o).header = e.header := header_storeEvent e _

/-- The event buffer with an event appended outside the reserved slots. -/
def storedEvents (events : Buffer Event MAX_EVENTS) (event : Event) : Buffer Event MAX_EVENTS :=
  if MAX_NONFINALIZE_EVENTS ≤ events.count then events else events.push event

@[simp] theorem storeEvent_events (e : Extraction) (event : Event) :
    (storeEvent e event).events = storedEvents e.events event := by
  unfold storeEvent storedEvents
  split_ifs <;> rfl

@[simp] theorem appendEvent_events (e : Extraction) (tMs : U32) (kind : EventKind) :
    (appendEvent e tMs kind).events = storedEvents e.events { tMs := tMs, kind := kind } :=
  storeEvent_events e _

namespace Recorder

/-! ## Reading the scale -/

theorem header_noteScalePresence (r : Recorder) (scale : ScaleSnapshot) (nowMs : U32) :
    (r.noteScalePresence scale nowMs).header = r.current.header := by
  unfold noteScalePresence
  split_ifs <;> simp

theorem header_acceptSample (r : Recorder) (scale : ScaleSnapshot) (rawCg : I16) (nowMs : U32) :
    (r.acceptSample scale rawCg nowMs).current.header = r.current.header := by
  unfold acceptSample
  by_cases h : (r.tracker.update scale.timestampMs rawCg).hasPourStartWeight ∧
      r.current.startRawCg = NO_WEIGHT
  · simp only [if_pos h]; rfl
  · simp only [if_neg h]; rfl

/-- How a tick treats the reading: it is old, from before the shot, or accepted. -/
theorem recordLiveTick_cases (r : Recorder) (scale : ScaleSnapshot) (nowMs : U32) :
    r.recordLiveTick scale nowMs = { r with current := r.noteScalePresence scale nowMs } ∨
    r.recordLiveTick scale nowMs =
      { r with current := r.noteScalePresence scale nowMs,
               lastScaleTimestampMs := scale.timestampMs } ∨
    ∃ rawCg, gramsToCg scale.grams = some rawCg ∧ scale.present = true ∧ scale.timestampMs ≠ 0 ∧
      0 ≤ (scale.timestampMs - r.current.beginMs).toInt ∧
      r.recordLiveTick scale nowMs =
        { r with current := r.noteScalePresence scale nowMs,
                 lastScaleTimestampMs := scale.timestampMs }.acceptSample scale rawCg nowMs := by
  have hb : (r.noteScalePresence scale nowMs).beginMs = r.current.beginMs :=
    field_eq_of_header _ (fun _ => rfl) (r.header_noteScalePresence scale nowMs)
  unfold recordLiveTick newRawSample
  by_cases hnew : scale.present ∧ scale.timestampMs ≠ 0 ∧
      scale.timestampMs ≠ r.lastScaleTimestampMs
  · simp only [if_pos hnew]
    cases hg : gramsToCg scale.grams with
    | none => exact Or.inl rfl
    | some rawCg =>
      by_cases hbefore : (scale.timestampMs - r.current.beginMs).toInt < 0
      · right; left
        simp only [hb, if_pos hbefore]
      · right; right
        refine ⟨rawCg, rfl, hnew.1, hnew.2.1, not_lt.1 hbefore, ?_⟩
        simp only [hb, if_neg hbefore]
  · left
    simp only [if_neg hnew]

theorem header_recordLiveTick (r : Recorder) (scale : ScaleSnapshot) (nowMs : U32) :
    (r.recordLiveTick scale nowMs).current.header = r.current.header := by
  obtain h | h | ⟨rawCg, -, -, -, -, h⟩ := r.recordLiveTick_cases scale nowMs
  · rw [h]; exact r.header_noteScalePresence scale nowMs
  · rw [h]; exact r.header_noteScalePresence scale nowMs
  · rw [h, header_acceptSample]; exact r.header_noteScalePresence scale nowMs

/-- The part of the recorder that reading the scale leaves alone. -/
structure SameShot (r s : Recorder) : Prop where
  header : s.current.header = r.current.header
  pumpOnIntervalStartMs : s.pumpOnIntervalStartMs = r.pumpOnIntervalStartMs
  lastFinished : s.lastFinished = r.lastFinished
  finishedSeq : s.finishedSeq = r.finishedSeq

theorem sameShot_recordLiveTick (r : Recorder) (scale : ScaleSnapshot) (nowMs : U32) :
    SameShot r (r.recordLiveTick scale nowMs) := by
  have hh := r.header_recordLiveTick scale nowMs
  obtain h | h | ⟨rawCg, -, -, -, -, h⟩ := r.recordLiveTick_cases scale nowMs
  · rw [h] at hh ⊢; exact ⟨hh, rfl, rfl, rfl⟩
  · rw [h] at hh ⊢; exact ⟨hh, rfl, rfl, rfl⟩
  · rw [h] at hh ⊢; exact ⟨hh, rfl, rfl, rfl⟩

theorem sameShot_sense (r : Recorder) (i : Input) : SameShot r (r.sense i) := by
  unfold sense
  by_cases h : r.current.inPumpWindow
  · rw [if_pos h]
    obtain ⟨h₁, h₂, h₃, h₄⟩ := r.sameShot_recordLiveTick i.scale i.nowMs
    exact ⟨h₁, h₂, h₃, h₄⟩
  · rw [if_neg h]
    exact ⟨rfl, rfl, rfl, rfl⟩

@[simp] theorem sense_phase (r : Recorder) (i : Input) :
    (r.sense i).current.phase = r.current.phase :=
  field_eq_of_header _ (fun _ => rfl) (r.sameShot_sense i).header

@[simp] theorem sense_beginMs (r : Recorder) (i : Input) :
    (r.sense i).current.beginMs = r.current.beginMs :=
  field_eq_of_header _ (fun _ => rfl) (r.sameShot_sense i).header

@[simp] theorem sense_totalPumpOnMs (r : Recorder) (i : Input) :
    (r.sense i).current.totalPumpOnMs = r.current.totalPumpOnMs :=
  field_eq_of_header _ (fun _ => rfl) (r.sameShot_sense i).header

@[simp] theorem sense_lastPumpOffConfirmedMs (r : Recorder) (i : Input) :
    (r.sense i).current.lastPumpOffConfirmedMs = r.current.lastPumpOffConfirmedMs :=
  field_eq_of_header _ (fun _ => rfl) (r.sameShot_sense i).header

@[simp] theorem sense_pumpOnIntervalStartMs (r : Recorder) (i : Input) :
    (r.sense i).pumpOnIntervalStartMs = r.pumpOnIntervalStartMs :=
  (r.sameShot_sense i).pumpOnIntervalStartMs

@[simp] theorem sense_lastFinished (r : Recorder) (i : Input) :
    (r.sense i).lastFinished = r.lastFinished := (r.sameShot_sense i).lastFinished

@[simp] theorem sense_finishedSeq (r : Recorder) (i : Input) :
    (r.sense i).finishedSeq = r.finishedSeq := (r.sameShot_sense i).finishedSeq

@[simp] theorem sense_lastPumpOn (r : Recorder) (i : Input) :
    (r.sense i).lastPumpOn = i.pumpSignal.isOn := rfl

@[simp] theorem sense_lastScalePresent (r : Recorder) (i : Input) :
    (r.sense i).lastScalePresent = i.scale.present := rfl

/-! ## Phase entries -/

section
variable {r : Recorder} {nowMs utcSec : U32} {o : PumpSignalObservation} {cause : EndCause}

theorem transitionTo_of_eq {p : Phase} (h : r.current.phase = p) :
    r.transitionTo p nowMs o cause utcSec = r := by
  unfold transitionTo; rw [if_pos h]

theorem transitionTo_idle (h : r.current.phase ≠ .idle) :
    r.transitionTo .idle nowMs o cause utcSec = r.enterIdle := by
  unfold transitionTo; rw [if_neg h]

theorem transitionTo_running (h : r.current.phase ≠ .running) :
    r.transitionTo .running nowMs o cause utcSec = r.enterRunning nowMs utcSec := by
  unfold transitionTo; rw [if_neg h]

theorem transitionTo_postPump (h : r.current.phase ≠ .postPump) :
    r.transitionTo .postPump nowMs o cause utcSec = r.enterPostPump nowMs o := by
  unfold transitionTo; rw [if_neg h]

theorem transitionTo_done (h : r.current.phase ≠ .done) :
    r.transitionTo .done nowMs o cause utcSec = r.enterDone nowMs cause := by
  unfold transitionTo; rw [if_neg h]

end

@[simp] theorem enterIdle_phase (r : Recorder) : r.enterIdle.current.phase = .idle := rfl

@[simp] theorem enterRunning_phase (r : Recorder) (nowMs utcSec : U32) :
    (r.enterRunning nowMs utcSec).current.phase = .running := rfl

@[simp] theorem enterPostPump_phase (r : Recorder) (nowMs : U32) (o : PumpSignalObservation) :
    (r.enterPostPump nowMs o).current.phase = .postPump := rfl

@[simp] theorem enterDone_phase (r : Recorder) (nowMs : U32) (cause : EndCause) :
    (r.enterDone nowMs cause).current.phase = .done := rfl

theorem enterPostPump_header (r : Recorder) (nowMs : U32) (o : PumpSignalObservation) :
    (r.enterPostPump nowMs o).current.header =
      { r.current.header with
        phase := .postPump, lastPumpOffConfirmedMs := nowMs,
        totalPumpOnMs := r.current.totalPumpOnMs + (nowMs - r.pumpOnIntervalStartMs) } := by
  have h := header_appendPumpOffConfirmedEvent { r.current with
    totalPumpOnMs := r.current.totalPumpOnMs + (nowMs - r.pumpOnIntervalStartMs)
    lastPumpOffConfirmedMs := nowMs } nowMs o
  exact congrArg (fun e : Extraction => { e with phase := .postPump }) h

theorem enterPostPump_events (r : Recorder) (nowMs : U32) (o : PumpSignalObservation) :
    (r.enterPostPump nowMs o).current.events = storedEvents r.current.events
      { tMs := nowMs, kind := .pumpOffConfirmed,
        payload := { signalDecayLeadMsPlusOne := decayLeadMsPlusOne nowMs o } } :=
  storeEvent_events _ _

/-- The pump's return to a shot in flight. -/
theorem enterRunning_of_ne_idle {r : Recorder} (h : r.current.phase ≠ .idle)
    (nowMs utcSec : U32) : (r.enterRunning nowMs utcSec).current =
      { appendEvent r.current nowMs .pumpOn with phase := .running } := by
  unfold enterRunning
  rw [if_neg h]

theorem resume_header {r : Recorder} (h : r.current.phase ≠ .idle) (nowMs utcSec : U32) :
    (r.enterRunning nowMs utcSec).current.header = { r.current.header with phase := .running } := by
  rw [enterRunning_of_ne_idle h]
  exact congrArg (fun e : Extraction => { e with phase := .running })
    (header_appendEvent r.current nowMs .pumpOn)

theorem resume_events {r : Recorder} (h : r.current.phase ≠ .idle) (nowMs utcSec : U32) :
    (r.enterRunning nowMs utcSec).current.events =
      storedEvents r.current.events { tMs := nowMs, kind := .pumpOn } := by
  rw [enterRunning_of_ne_idle h]
  exact appendEvent_events r.current nowMs .pumpOn

/-- The beginning of a new shot. -/
theorem enterRunning_of_idle {r : Recorder} (h : r.current.phase = .idle) (nowMs utcSec : U32) :
    (r.enterRunning nowMs utcSec).current =
      { appendEvent (appendEvent { r.current with beginMs := nowMs, startUtcSec := utcSec } nowMs
          .begin) nowMs .pumpOn with phase := .running } := by
  unfold enterRunning
  rw [if_pos h]

theorem begin_header {r : Recorder} (h : r.current.phase = .idle) (nowMs utcSec : U32) :
    (r.enterRunning nowMs utcSec).current.header =
      { r.current.header with beginMs := nowMs, startUtcSec := utcSec, phase := .running } := by
  rw [enterRunning_of_idle h]
  exact congrArg (fun e : Extraction => { e with phase := .running })
    ((header_appendEvent _ nowMs .pumpOn).trans (header_appendEvent _ nowMs .begin))

theorem begin_events {r : Recorder} (h : r.current.phase = .idle) (nowMs utcSec : U32) :
    (r.enterRunning nowMs utcSec).current.events =
      storedEvents (storedEvents r.current.events { tMs := nowMs, kind := .begin })
        { tMs := nowMs, kind := .pumpOn } := by
  rw [enterRunning_of_idle h]
  exact (appendEvent_events _ nowMs .pumpOn).trans (by rw [appendEvent_events])

/-! ## The tick, phase by phase -/

/-- The pump was off at the last tick and is on now. -/
def rises (r : Recorder) (i : Input) : Bool := i.pumpSignal.isOn && !r.lastPumpOn

/-- The pump was on at the last tick and is off now. -/
def falls (r : Recorder) (i : Input) : Bool := !i.pumpSignal.isOn && r.lastPumpOn

theorem update_of_idle {r : Recorder} {i : Input} (h : r.current.phase = .idle) :
    r.update i = if r.rises i then (r.sense i).enterRunning i.nowMs i.utcSec else r.sense i := by
  have hs : (r.sense i).current.phase = .idle := by rw [sense_phase, h]
  unfold update
  simp only [hs, onIdle]
  rw [transitionTo_running (by rw [hs]; decide)]
  rfl

theorem update_of_running {r : Recorder} {i : Input} (h : r.current.phase = .running) :
    r.update i = if r.falls i then (r.sense i).enterPostPump i.nowMs i.pumpSignal
      else r.sense i := by
  have hs : (r.sense i).current.phase = .running := by rw [sense_phase, h]
  unfold update
  simp only [hs, onRunning]
  rw [transitionTo_postPump (by rw [hs]; decide)]
  rfl

theorem update_of_done {r : Recorder} {i : Input} (h : r.current.phase = .done) :
    r.update i = if r.rises i then (r.sense i).enterIdle.enterRunning i.nowMs i.utcSec
      else r.sense i := by
  have hs : (r.sense i).current.phase = .done := by rw [sense_phase, h]
  unfold update
  simp only [hs, onDone]
  rw [transitionTo_idle (by rw [hs]; decide), transitionTo_running (by simp)]
  rfl

/-- A settled shot ends and a new one starts, within one tick. -/
def split (r : Recorder) (i : Input) : Recorder :=
  ((r.enterDone i.nowMs (r.splitCause i.scale)).enterIdle).enterRunning i.nowMs i.utcSec

theorem update_of_postPump {r : Recorder} {i : Input} (h : r.current.phase = .postPump) :
    r.update i =
      if r.rises i then
        if (r.sense i).coalesces i.nowMs i.scale then (r.sense i).enterRunning i.nowMs 0
        else (r.sense i).split i
      else
        match (r.sense i).endOfShot i.nowMs with
        | some cause => (r.sense i).enterDone i.nowMs cause
        | none => r.sense i := by
  have hs : (r.sense i).current.phase = .postPump := by rw [sense_phase, h]
  unfold update
  simp only [hs, onPostPump, resumeOrSplitShot, finalizeIfShotEnded, split]
  rw [transitionTo_running (by rw [hs]; decide), transitionTo_done (by rw [hs]; decide),
    transitionTo_idle (by simp), transitionTo_running (by simp)]
  simp only [transitionTo_done (show (r.sense i).current.phase ≠ .done by rw [hs]; decide)]
  rfl

theorem update_of_unnamed {r : Recorder} {i : Input} {code : U8} {hc : 4 ≤ code}
    (h : r.current.phase = .unnamed code hc) : r.update i = r.sense i := by
  unfold update
  simp only [sense_phase, h]

theorem clear_eq (r : Recorder) :
    r.clear = if r.current.phase = .idle then r else r.enterIdle := by
  unfold clear
  by_cases h : r.current.phase = .idle
  · rw [if_pos h, transitionTo_of_eq h]
  · rw [if_neg h, transitionTo_idle h]

end Recorder

end Pumpbug
