import Pumpbug.EventLog

/-!
# Every record the recorder publishes

Runs of the recorder against a clock that counts true milliseconds: the ticks carry its readings
modulo `2 ^ 32`, and a shot in flight is younger than `2 ^ 31` milliseconds.  The in-flight log is
an invariant of these runs, whatever overflows and wherever the counter wraps.  So a published
record can only go wrong where it is closed.
-/

namespace Pumpbug

open Lib

/-! ## What an update publishes -/

namespace Recorder

/-- The update starts a new shot. -/
def begins (r : Recorder) (i : Input) : Bool :=
  (r.rises i && r.current.phase = .idle) || r.restarts i

/-- The cause with which the update finalizes the shot in flight, if it does. -/
def finalizes (r : Recorder) (i : Input) : Option EndCause :=
  if r.current.phase = .postPump then
    if r.rises i then
      if (r.sense i).coalesces i.nowMs i.scale then none
      else some ((r.sense i).splitCause i.scale)
    else (r.sense i).endOfShot i.nowMs
  else none

theorem finalizes_cause {r : Recorder} {i : Input} {cause : EndCause}
    (h : r.finalizes i = some cause) : cause = .stable ∨ cause = .timeout := by
  unfold finalizes splitCause endOfShot at h
  dsimp only at h
  split_ifs at h <;> cases h <;> simp

theorem phase_of_finalizes {r : Recorder} {i : Input} {cause : EndCause}
    (h : r.finalizes i = some cause) : r.current.phase = .postPump := by
  unfold finalizes at h
  by_contra hp
  rw [if_neg hp] at h
  exact absurd h (by simp)

/-- An update that finalizes a shot publishes its record; any other leaves the last one. -/
theorem update_publishes (r : Recorder) (i : Input) :
    (r.finalizes i = none ∧ (r.update i).lastFinished = r.lastFinished ∧
      (r.update i).finishedSeq = r.finishedSeq) ∨
    ∃ cause, r.finalizes i = some cause ∧
      (r.update i).lastFinished = (r.sense i).finished i.nowMs cause ∧
      (r.update i).finishedSeq = r.finishedSeq + 1 := by
  unfold finalizes
  cases hp : r.current.phase with
  | idle =>
    left
    rw [update_of_idle hp]
    refine ⟨if_neg (by decide), ?_⟩
    split_ifs
    · exact ⟨r.sense_lastFinished i, r.sense_finishedSeq i⟩
    · exact ⟨r.sense_lastFinished i, r.sense_finishedSeq i⟩
  | running =>
    left
    rw [update_of_running hp]
    refine ⟨if_neg (by decide), ?_⟩
    split_ifs
    · exact ⟨r.sense_lastFinished i, r.sense_finishedSeq i⟩
    · exact ⟨r.sense_lastFinished i, r.sense_finishedSeq i⟩
  | postPump =>
    rw [update_of_postPump hp, if_pos rfl]
    by_cases hrise : r.rises i = true
    · rw [if_pos hrise, if_pos hrise]
      by_cases hc : (r.sense i).coalesces i.nowMs i.scale = true
      · rw [if_pos hc, if_pos hc]
        exact Or.inl ⟨rfl, r.sense_lastFinished i, r.sense_finishedSeq i⟩
      · rw [if_neg hc, if_neg hc]
        refine Or.inr ⟨_, rfl, rfl, ?_⟩
        exact congrArg (· + 1) (r.sense_finishedSeq i)
    · rw [if_neg hrise, if_neg hrise]
      cases (r.sense i).endOfShot i.nowMs with
      | none => exact Or.inl ⟨rfl, r.sense_lastFinished i, r.sense_finishedSeq i⟩
      | some cause =>
        refine Or.inr ⟨cause, rfl, rfl, ?_⟩
        exact congrArg (· + 1) (r.sense_finishedSeq i)
  | done =>
    left
    rw [update_of_done hp]
    refine ⟨if_neg (by decide), ?_⟩
    split_ifs
    · exact ⟨r.sense_lastFinished i, r.sense_finishedSeq i⟩
    · exact ⟨r.sense_lastFinished i, r.sense_finishedSeq i⟩
  | unnamed code hc =>
    left
    rw [update_of_unnamed hp]
    exact ⟨if_neg (by simp), r.sense_lastFinished i, r.sense_finishedSeq i⟩

end Recorder

/-! ## Runs against a clock -/

/-- The recorder, the time of its last tick, and the time its shot in flight began. -/
structure Timed where
  recorder : Recorder := {}
  now : ℕ := 0
  beginAt : ℕ := 0

namespace Timed

/-- One call; an update carries the time of its tick. -/
def step (s : Timed) (c : ℕ × Call) : Timed :=
  match c.2 with
  | .update i =>
    { recorder := s.recorder.update i, now := c.1,
      beginAt := if s.recorder.begins i then c.1 else s.beginAt }
  | .clear => { s with recorder := s.recorder.clear }
  | .setTargetSnapshot tc => { s with recorder := s.recorder.setTargetSnapshot tc }
  | .triggerAlarm a => { s with recorder := s.recorder.triggerAlarm a }

/-- Ticks come in order and carry the counter's reading, shots in flight are younger than `2 ^ 31`
milliseconds, and an alarm carries the time of the last tick. -/
def Admits (s : Timed) (c : ℕ × Call) : Prop :=
  match c.2 with
  | .update i => s.now ≤ c.1 ∧ i.nowMs = Clock.reading 32 c.1 ∧
      (s.recorder.current.inPumpWindow = true → c.1 - s.beginAt < 2 ^ 31)
  | .triggerAlarm a => a.tMs = Clock.reading 32 s.now
  | _ => True

theorem exec_recorder (s : Timed) (calls : List (ℕ × Call)) :
    (exec step s calls).recorder = exec Recorder.call s.recorder (calls.map Prod.snd) := by
  induction calls generalizing s with
  | nil => rfl
  | cons c calls ih =>
    rw [exec_cons, List.map_cons, exec_cons, ih]
    obtain ⟨T, c⟩ := c
    cases c <;> rfl

end Timed

/-! ## The invariant -/

/-- A shot in flight that began at `beginAt`, at the time `now`. -/
structure InFlight (r : Recorder) (now beginAt : ℕ) : Prop where
  beginMs : r.current.beginMs = Clock.reading 32 beginAt
  le : beginAt ≤ now
  short : now - beginAt < 2 ^ 31
  log : InFlightLog r.current.beginMs r.current.events (now - beginAt)
  pumpOff : r.current.phase = .postPump →
    Clock.since r.current.beginMs r.current.lastPumpOffConfirmedMs ≤ now - beginAt

/-- An idle recorder has no events, and a shot in flight has a sound log. -/
structure SoundLog (s : Timed) : Prop where
  idle : s.recorder.current.phase = .idle → s.recorder.current.events.items = []
  inFlight : s.recorder.current.inPumpWindow = true → InFlight s.recorder s.now s.beginAt

theorem Extraction.inPumpWindow_iff {e : Extraction} :
    e.inPumpWindow = true ↔ e.phase = .running ∨ e.phase = .postPump := by
  unfold Extraction.inPumpWindow
  rw [Bool.or_eq_true, decide_eq_true_eq, decide_eq_true_eq]

namespace Recorder

/-! ## Steps of a shot in flight -/

section

variable {r : Recorder} {now beginAt T : ℕ}

theorem sense_of_idleWindow {i : Input} (h : ¬ r.current.inPumpWindow = true) :
    (r.sense i).current = r.current := by
  unfold sense; rw [if_neg h]

/-- Reading the scale appends at most a connection event. -/
theorem sense_events {i : Input} (h : r.current.inPumpWindow = true) :
    (r.sense i).current.events = (r.noteScalePresence i.scale i.nowMs).events := by
  unfold sense
  rw [if_pos h]
  obtain h | h | ⟨rawCg, -, -, -, -, h⟩ := r.recordLiveTick_cases i.scale i.nowMs
  · rw [h]
  · rw [h]
  · rw [h]
    unfold acceptSample appendSample
    dsimp only
    split_ifs <;> rfl

theorem inFlightLog_noteScalePresence {scale : ScaleSnapshot} {nowMs : U32}
    {elapsed later : ℕ} (h : InFlightLog r.current.beginMs r.current.events elapsed)
    (hle : elapsed ≤ later) (hnow : Clock.since r.current.beginMs nowMs = later) :
    InFlightLog r.current.beginMs (r.noteScalePresence scale nowMs).events later := by
  unfold noteScalePresence
  split_ifs
  · rw [appendEvent_events]
    exact h.stored hle hnow ⟨nofun, nofun, nofun⟩
  · rw [appendEvent_events]
    exact h.stored hle hnow ⟨nofun, nofun, nofun⟩
  · exact h.mono hle

theorem inFlight_sense {i : Input} (h : InFlight r now beginAt)
    (hw : r.current.inPumpWindow = true) (hT : now ≤ T) (hshort : T - beginAt < 2 ^ 31)
    (hi : i.nowMs = Clock.reading 32 T) : InFlight (r.sense i) T beginAt := by
  have hle : beginAt ≤ T := le_trans h.le hT
  have hsince : Clock.since r.current.beginMs i.nowMs = T - beginAt := by
    rw [h.beginMs, hi]
    exact Clock.since_reading hle (lt_trans hshort (by decide))
  refine ⟨by rw [sense_beginMs, h.beginMs], hle, hshort, ?_, ?_⟩
  · rw [sense_beginMs, sense_events hw]
    exact inFlightLog_noteScalePresence h.log (by omega) hsince
  · intro hp
    rw [sense_phase] at hp
    rw [sense_beginMs, sense_lastPumpOffConfirmedMs]
    have := h.pumpOff hp
    omega

/-- The last tick of a shot in flight is the elapsed time after its beginning. -/
theorem InFlight.since_now (h : InFlight r T beginAt) :
    Clock.since r.current.beginMs (Clock.reading 32 T) = T - beginAt := by
  rw [h.beginMs]
  exact Clock.since_reading h.le (lt_trans h.short (by decide))

theorem inFlight_enterPostPump (h : InFlight r T beginAt) (o : PumpSignalObservation) :
    InFlight (r.enterPostPump (Clock.reading 32 T) o) T beginAt := by
  have hnow := InFlight.since_now h
  have hh := r.enterPostPump_header (Clock.reading 32 T) o
  have hb : (r.enterPostPump (Clock.reading 32 T) o).current.beginMs = r.current.beginMs :=
    (field_of_header Extraction.beginMs (fun _ => rfl) hh).trans rfl
  have hoff : (r.enterPostPump (Clock.reading 32 T) o).current.lastPumpOffConfirmedMs =
      Clock.reading 32 T :=
    (field_of_header Extraction.lastPumpOffConfirmedMs (fun _ => rfl) hh).trans rfl
  refine ⟨hb.trans h.beginMs, h.le, h.short, ?_, fun _ => ?_⟩
  · rw [hb, enterPostPump_events]
    exact h.log.stored le_rfl hnow ⟨nofun, nofun, nofun⟩
  · rw [hb, hoff, hnow]

/-- The pump's return to a shot in flight. -/
theorem inFlight_resume (h : InFlight r T beginAt) (hp : r.current.phase ≠ .idle) (utcSec : U32) :
    InFlight (r.enterRunning (Clock.reading 32 T) utcSec) T beginAt := by
  have hnow := InFlight.since_now h
  have hb : (r.enterRunning (Clock.reading 32 T) utcSec).current.beginMs = r.current.beginMs :=
    (field_of_header Extraction.beginMs (fun _ => rfl)
      (resume_header hp (Clock.reading 32 T) utcSec)).trans rfl
  refine ⟨hb.trans h.beginMs, h.le, h.short, ?_, fun hp => absurd hp (by simp)⟩
  rw [hb, resume_events hp]
  exact h.log.stored le_rfl hnow ⟨nofun, nofun, nofun⟩

/-- The first tick of a new shot. -/
theorem inFlight_begin (hp : r.current.phase = .idle) (hev : r.current.events.items = [])
    (utcSec : U32) : InFlight (r.enterRunning (Clock.reading 32 T) utcSec) T T := by
  have hempty : r.current.events = .empty := Buffer.ext hev
  have hb : (r.enterRunning (Clock.reading 32 T) utcSec).current.beginMs = Clock.reading 32 T :=
    (field_of_header Extraction.beginMs (fun _ => rfl)
      (begin_header hp (Clock.reading 32 T) utcSec)).trans rfl
  refine ⟨hb, le_rfl, by simp, ?_, fun hp => absurd hp (by simp)⟩
  rw [hb, begin_events hp, hempty, Nat.sub_self]
  exact (InFlightLog.begins_empty _).stored le_rfl (Clock.since_self _) ⟨nofun, nofun, nofun⟩

theorem inFlight_triggerAlarm {a : AlarmTrigger} (h : InFlight r T beginAt)
    (ha : a.tMs = Clock.reading 32 T) : InFlight (r.triggerAlarm a) T beginAt := by
  have hnow := InFlight.since_now h
  obtain ⟨hp, heq⟩ | heq := r.triggerAlarm_cases a
  · have hh := header_appendEvent { r.current with alarm := a } a.tMs .alarmTriggered
    have hb : (appendEvent { r.current with alarm := a } a.tMs .alarmTriggered).beginMs =
        r.current.beginMs := (field_of_header Extraction.beginMs (fun _ => rfl) hh).trans rfl
    have hphase : (appendEvent { r.current with alarm := a } a.tMs .alarmTriggered).phase =
        r.current.phase := (field_of_header Extraction.phase (fun _ => rfl) hh).trans rfl
    rw [heq]
    refine ⟨hb.trans h.beginMs, h.le, h.short, ?_, fun hpost => ?_⟩
    · show InFlightLog (appendEvent _ _ _).beginMs (appendEvent _ _ _).events _
      rw [hb, appendEvent_events, ha]
      exact h.log.stored le_rfl hnow ⟨nofun, nofun, nofun⟩
    · rw [show _ = r.current.phase from hphase, hp] at hpost
      exact absurd hpost (by decide)
  · rw [heq]; exact h

end

/-- A restart passes through a wiped record. -/
theorem inFlight_restart (r : Recorder) (T : ℕ) (utcSec : U32) :
    InFlight (r.enterIdle.enterRunning (Clock.reading 32 T) utcSec) T T :=
  inFlight_begin rfl rfl utcSec

end Recorder

/-! ## Whole runs -/

theorem soundLog_init : SoundLog {} where
  idle := fun _ => rfl
  inFlight := fun h => absurd h (by decide)

/-- Outside the pump window there is nothing to show but that an idle record is empty. -/
theorem soundLog_of_not_inFlight {s : Timed} (h : ¬ s.recorder.current.inPumpWindow = true)
    (hi : s.recorder.current.phase = .idle → s.recorder.current.events.items = []) :
    SoundLog s := ⟨hi, fun hw => absurd hw h⟩

theorem soundLog_of_inFlight {s : Timed} (hp : s.recorder.current.phase ≠ .idle)
    (h : InFlight s.recorder s.now s.beginAt) : SoundLog s :=
  ⟨fun hi => absurd hi hp, fun _ => h⟩

/-- The recorder after reading the scale, at the time of the tick. -/
theorem soundLog_sense {s : Timed} {T : ℕ} {i : Recorder.Input} (h : SoundLog s)
    (ha : s.Admits (T, .update i)) : SoundLog { s with recorder := s.recorder.sense i, now := T } := by
  obtain ⟨hT, hi, hshort⟩ := ha
  by_cases hw : s.recorder.current.inPumpWindow = true
  · refine ⟨fun hidle => ?_, fun _ => ?_⟩
    · have hidle' : s.recorder.current.phase = .idle := by rw [← hidle]; exact (s.recorder.sense_phase i).symm
      rw [Extraction.inPumpWindow_iff, hidle'] at hw
      exact absurd hw (by decide)
    · exact Recorder.inFlight_sense (h.inFlight hw) hw hT (hshort hw) hi
  · have hsame := Recorder.sense_of_idleWindow (i := i) hw
    refine soundLog_of_not_inFlight ?_ ?_
    · show ¬ (s.recorder.sense i).current.inPumpWindow = true
      rw [hsame]; exact hw
    · show (s.recorder.sense i).current.phase = .idle → (s.recorder.sense i).current.events.items = []
      rw [hsame]; exact h.idle

/-- After the pump went off the shot goes on, ends, or gives way to the next. -/
theorem soundLog_update_postPump {s : Timed} {T : ℕ} {i : Recorder.Input}
    (hs : SoundLog { s with recorder := s.recorder.sense i, now := T })
    (hi : i.nowMs = Clock.reading 32 T) (hp : s.recorder.current.phase = .postPump) :
    SoundLog (s.step (T, .update i)) := by
  have hphase := s.recorder.sense_phase i
  have hw : (s.recorder.sense i).current.inPumpWindow = true :=
    Extraction.inPumpWindow_iff.2 (Or.inr (hphase.trans hp))
  show SoundLog ⟨s.recorder.update i, T, if s.recorder.begins i then T else s.beginAt⟩
  rw [Recorder.update_of_postPump hp]
  by_cases hrise : s.recorder.rises i = true
  · rw [if_pos hrise]
    by_cases hc : (s.recorder.sense i).coalesces i.nowMs i.scale = true
    · have hb : s.recorder.begins i = false := by
        unfold Recorder.begins Recorder.restarts; simp [hp, hc]
      rw [if_pos hc, hb, if_neg Bool.false_ne_true, hi]
      exact soundLog_of_inFlight (by simp)
        (Recorder.inFlight_resume (hs.inFlight hw) (by rw [hphase, hp]; decide) 0)
    · have hb : s.recorder.begins i = true := by
        unfold Recorder.begins Recorder.restarts; simp [hrise, hp, hc]
      rw [if_neg hc, if_pos hb]
      unfold Recorder.split
      rw [hi]
      exact soundLog_of_inFlight (by simp) (Recorder.inFlight_restart _ T i.utcSec)
  · have hb : s.recorder.begins i = false := by
      unfold Recorder.begins Recorder.restarts; simp [hrise]
    rw [if_neg hrise, hb, if_neg Bool.false_ne_true]
    cases (s.recorder.sense i).endOfShot i.nowMs with
    | none => exact hs
    | some cause =>
      refine soundLog_of_not_inFlight ?_ fun hidle => absurd hidle (by simp)
      rw [Extraction.inPumpWindow_iff]
      simp

theorem soundLog_update {s : Timed} {T : ℕ} {i : Recorder.Input} (h : SoundLog s)
    (ha : s.Admits (T, .update i)) : SoundLog (s.step (T, .update i)) := by
  have hs := soundLog_sense h ha
  obtain ⟨-, hi, -⟩ := ha
  have hphase := s.recorder.sense_phase i
  cases hp : s.recorder.current.phase with
  | postPump => exact soundLog_update_postPump hs hi hp
  | idle =>
    show SoundLog ⟨s.recorder.update i, T, if s.recorder.begins i then T else s.beginAt⟩
    rw [Recorder.update_of_idle hp]
    by_cases hrise : s.recorder.rises i = true
    · have hb : s.recorder.begins i = true := by unfold Recorder.begins; simp [hrise, hp]
      rw [if_pos hrise, if_pos hb, hi]
      exact soundLog_of_inFlight (by simp)
        (Recorder.inFlight_begin (hphase.trans hp) (hs.idle (hphase.trans hp)) i.utcSec)
    · rw [if_neg hrise]
      refine soundLog_of_not_inFlight ?_ hs.idle
      rw [Extraction.inPumpWindow_iff, hphase, hp]
      decide
  | running =>
    have hb : s.recorder.begins i = false := by
      unfold Recorder.begins Recorder.restarts; simp [hp]
    have hw : (s.recorder.sense i).current.inPumpWindow = true :=
      Extraction.inPumpWindow_iff.2 (Or.inl (hphase.trans hp))
    show SoundLog ⟨s.recorder.update i, T, if s.recorder.begins i then T else s.beginAt⟩
    rw [Recorder.update_of_running hp, hb, if_neg Bool.false_ne_true]
    by_cases hfall : s.recorder.falls i = true
    · rw [if_pos hfall, hi]
      exact soundLog_of_inFlight (by simp)
        (Recorder.inFlight_enterPostPump (hs.inFlight hw) i.pumpSignal)
    · rw [if_neg hfall]; exact hs
  | done =>
    show SoundLog ⟨s.recorder.update i, T, if s.recorder.begins i then T else s.beginAt⟩
    rw [Recorder.update_of_done hp]
    by_cases hrise : s.recorder.rises i = true
    · have hb : s.recorder.begins i = true := by
        unfold Recorder.begins Recorder.restarts; simp [hrise, hp]
      rw [if_pos hrise, if_pos hb, hi]
      exact soundLog_of_inFlight (by simp) (Recorder.inFlight_restart _ T i.utcSec)
    · rw [if_neg hrise]
      refine soundLog_of_not_inFlight ?_ hs.idle
      rw [Extraction.inPumpWindow_iff, hphase, hp]
      decide
  | unnamed code hc =>
    show SoundLog ⟨s.recorder.update i, T, if s.recorder.begins i then T else s.beginAt⟩
    rw [Recorder.update_of_unnamed hp]
    refine soundLog_of_not_inFlight ?_ hs.idle
    rw [Extraction.inPumpWindow_iff, hphase, hp]
    simp

theorem soundLog_clear {s : Timed} (h : SoundLog s) :
    SoundLog { s with recorder := s.recorder.clear } := by
  rw [Recorder.clear_eq]
  by_cases hi : s.recorder.current.phase = .idle
  · rw [if_pos hi]; exact h
  · rw [if_neg hi]
    refine soundLog_of_not_inFlight ?_ fun _ => rfl
    rw [Extraction.inPumpWindow_iff]
    simp

theorem soundLog_setTargetSnapshot {s : Timed} (h : SoundLog s) (tc : TargetCoeffs) :
    SoundLog { s with recorder := s.recorder.setTargetSnapshot tc } := by
  obtain heq | heq := s.recorder.setTargetSnapshot_cases tc
  · rw [heq]
    refine ⟨h.idle, fun hw => ?_⟩
    obtain ⟨h₁, h₂, h₃, h₄, h₅⟩ := h.inFlight hw
    exact ⟨h₁, h₂, h₃, h₄, h₅⟩
  · rw [heq]; exact h

theorem soundLog_triggerAlarm {s : Timed} (h : SoundLog s) {a : AlarmTrigger}
    (ha : a.tMs = Clock.reading 32 s.now) :
    SoundLog { s with recorder := s.recorder.triggerAlarm a } := by
  obtain ⟨hp, -⟩ | heq := s.recorder.triggerAlarm_cases a
  · have hw := Extraction.inPumpWindow_iff.2 (Or.inl hp)
    refine soundLog_of_inFlight ?_ (Recorder.inFlight_triggerAlarm (h.inFlight hw) ha)
    show (s.recorder.triggerAlarm a).current.phase ≠ .idle
    rw [(s.recorder.sameEdge_triggerAlarm a).phase, hp]
    decide
  · rw [heq]; exact h

/-- **Step lemma.** Every admitted call keeps the log sound. -/
theorem soundLog_step {s : Timed} {c : ℕ × Call} (h : SoundLog s) (ha : s.Admits c) :
    SoundLog (s.step c) := by
  obtain ⟨T, c⟩ := c
  cases c with
  | update i => exact soundLog_update h ha
  | clear => exact soundLog_clear h
  | setTargetSnapshot tc => exact soundLog_setTargetSnapshot h tc
  | triggerAlarm a => exact soundLog_triggerAlarm h ha

/-- A run whose ticks follow the clock and whose shots last less than `2 ^ 31` milliseconds. -/
def Clocked (calls : List (ℕ × Call)) : Prop := Along Timed.step Timed.Admits {} calls

/-- **Run lemma.** The log is sound after every clocked run. -/
theorem soundLog_exec {calls : List (ℕ × Call)} (h : Clocked calls) :
    SoundLog (exec Timed.step {} calls) :=
  Along.exec_invariant SoundLog (fun _ _ => soundLog_step) h soundLog_init

/-- The recorder after a run. -/
def afterRun (calls : List (ℕ × Call)) : Recorder := exec Recorder.call {} (calls.map Prod.snd)

/-- Every update that publishes a record publishes a well-formed one, with all the events that the
shot had in flight up to the record's intended end. -/
def PublishesWellFormed (calls : List (ℕ × Call)) : Prop :=
  ∀ pre T i post, calls = pre ++ (T, .update i) :: post →
    let r := afterRun pre
    (r.update i).finishedSeq ≠ r.finishedSeq →
      (r.update i).lastFinished.WellFormed ∧
      (r.sense i).current.eventsUpTo (intendedEndMs (r.sense i).current i.nowMs
          (r.update i).lastFinished.endCause) <+: (r.update i).lastFinished.events.items

/-- Whenever an update times a shot out, the counter does not wrap between the shot's last event at
or before the intended end and that end. -/
def TimeoutsUnwrapped (calls : List (ℕ × Call)) : Prop :=
  ∀ pre T i post, calls = pre ++ (T, .update i) :: post →
    let r := afterRun pre
    r.finalizes i = some .timeout →
      (r.sense i).current.EndNotWrapped (intendedEndMs (r.sense i).current i.nowMs .timeout)

/-- What one finalizing update publishes. -/
theorem publishes_iff {s : Timed} {T : ℕ} {i : Recorder.Input} {cause : EndCause}
    (h : SoundLog s) (ha : s.Admits (T, .update i)) (hc : s.recorder.finalizes i = some cause) :
    ((s.recorder.sense i).finished i.nowMs cause).WellFormed ∧
        (s.recorder.sense i).current.eventsUpTo
            (intendedEndMs (s.recorder.sense i).current i.nowMs cause) <+:
          ((s.recorder.sense i).finished i.nowMs cause).events.items ↔
      (cause = .timeout → (s.recorder.sense i).current.EndNotWrapped
        (intendedEndMs (s.recorder.sense i).current i.nowMs .timeout)) := by
  have hp : (s.recorder.sense i).current.phase = .postPump := by
    rw [Recorder.sense_phase, Recorder.phase_of_finalizes hc]
  have hf := (soundLog_sense h ha).inFlight (Extraction.inPumpWindow_iff.2 (Or.inr hp))
  have hi : i.nowMs = Clock.reading 32 T := ha.2.1
  have hnow : Clock.since (s.recorder.sense i).current.beginMs i.nowMs = T - s.beginAt := by
    rw [hi]; exact Recorder.InFlight.since_now hf
  rcases Recorder.finalizes_cause hc with rfl | rfl
  · obtain ⟨hwf, hpre⟩ := Recorder.finished_stable hf.log hf.short hnow
    constructor
    · intro _ habs
      exact absurd habs (by decide)
    · intro _
      refine ⟨hwf, List.IsPrefix.trans ?_ hpre⟩
      have hall := hf.log.sorted.eq_append (Clock.since (s.recorder.sense i).current.beginMs
        (intendedEndMs (s.recorder.sense i).current i.nowMs .stable))
      conv_rhs => rw [hall]
      exact List.prefix_append _ _
  · rw [Recorder.finished_timeout_iff hf.log hf.short hnow (hf.pumpOff hp)]
    exact ⟨fun h _ => h, fun h => h rfl⟩

/-- **Published records are well formed** and keep the events up to their intended end, exactly on
the runs in which no timeout closes a record across a wrap of the counter. -/
theorem publishesWellFormed_iff (calls : List (ℕ × Call)) (h : Clocked calls) :
    PublishesWellFormed calls ↔ TimeoutsUnwrapped calls := by
  -- at each update, the two conditions are those of `publishes_iff`
  have hstep : ∀ pre T i post, calls = pre ++ (T, .update i) :: post →
      ∃ s : Timed, s.recorder = afterRun pre ∧ SoundLog s ∧ s.Admits (T, .update i) := by
    rintro pre T i post rfl
    refine ⟨exec Timed.step {} pre, Timed.exec_recorder {} pre, soundLog_exec (along_append.1 h).1, ?_⟩
    exact Along.at_step h
  constructor
  · intro hwf pre T i post hsplit
    obtain ⟨s, hs, hsound, ha⟩ := hstep pre T i post hsplit
    have hpub := hwf pre T i post hsplit
    rw [← hs] at hpub ⊢
    intro r hc
    obtain ⟨hnone, -⟩ | ⟨cause, hcause, hlast, hseq⟩ := s.recorder.update_publishes i
    · rw [show s.recorder.finalizes i = some .timeout from hc] at hnone
      exact absurd hnone (by simp)
    · obtain rfl : .timeout = cause := Option.some.inj (hc.symm.trans hcause)
      dsimp only at hpub
      rw [hlast] at hpub
      exact (publishes_iff hsound ha hcause).1 (hpub (by omega)) rfl
  · intro hnw pre T i post hsplit
    obtain ⟨s, hs, hsound, ha⟩ := hstep pre T i post hsplit
    have hcond := hnw pre T i post hsplit
    rw [← hs] at hcond ⊢
    intro r hseq
    obtain ⟨-, -, hsame⟩ | ⟨cause, hcause, hlast, -⟩ := s.recorder.update_publishes i
    · exact absurd hsame hseq
    · show (s.recorder.update i).lastFinished.WellFormed ∧ _
      have hpub := (publishes_iff hsound ha hcause).2 (by rintro rfl; exact hcond hcause)
      rw [← hlast] at hpub
      have hcauseEq : (s.recorder.update i).lastFinished.endCause = cause := by rw [hlast]; rfl
      rw [hcauseEq]
      exact hpub

/-- A tick at a true time. -/
def tickAt (T : ℕ) (state : PumpSignalState) (scale : ScaleSnapshot) : ℕ × Call :=
  (T, .update { nowMs := Clock.reading 32 T, pumpSignal := { state := state }, scale := scale })

/-- Ticks in order, none later than `2 ^ 31` milliseconds from the start, are a clocked run. -/
theorem clocked_ticks {ticks : List (ℕ × PumpSignalState × ScaleSnapshot)}
    (horder : (ticks.map Prod.fst).Pairwise (· ≤ ·)) (hlt : ∀ t ∈ ticks, t.1 < 2 ^ 31) :
    Clocked (ticks.map fun t => tickAt t.1 t.2.1 t.2.2) := by
  have hfrom : ∀ s : Timed, (∀ t ∈ ticks, s.now ≤ t.1) →
      Along Timed.step Timed.Admits s (ticks.map fun t => tickAt t.1 t.2.1 t.2.2) := by
    induction ticks with
    | nil => exact fun s _ => along_nil _
    | cons t ticks ih =>
      intro s hnow
      rw [List.map_cons, List.pairwise_cons] at horder
      have hshort := hlt t List.mem_cons_self
      refine ⟨⟨hnow t List.mem_cons_self, rfl, fun _ => by simp only [tickAt]; omega⟩, ?_⟩
      refine ih horder.2 (fun t' h' => hlt t' (List.mem_cons_of_mem t h')) _ fun t' h' => ?_
      exact horder.1 t'.1 (List.mem_map_of_mem h')
  exact hfrom {} fun t _ => Nat.zero_le _

/-- The `k`th tick of a pour that ends with the thirtieth, with a reading of `cg` centigrams. -/
def pourTick (k : ℕ) (cg : ℤ) : ℕ × PumpSignalState × ScaleSnapshot :=
  (1000 + 300 * k, if k < 30 then .on else .off,
    { present := true, grams := some (cg / 100), timestampMs := Clock.reading 32 (1000 + 300 * k) })

/-- A pour of 12 g in 6 s, and a late tick without a reading. -/
def pouredShot : List (ℕ × Call) :=
  ((List.range 10).map (fun k => pourTick k 0) ++
    (List.range 20).map (fun k => pourTick (10 + k) (60 + 60 * k)) ++
    [pourTick 30 1200, (16000, .off, { present := true })]).map fun t => tickAt t.1 t.2.1 t.2.2

/-- The late tick publishes the record. -/
theorem publishesWellFormed_iff_pouredShot :
    (afterRun pouredShot).finishedSeq = 1 ∧
      (PublishesWellFormed pouredShot ↔ TimeoutsUnwrapped pouredShot) :=
  ⟨by decide +kernel, publishesWellFormed_iff pouredShot (clocked_ticks (by decide) (by decide))⟩

/-- A shot with one scale reading that begins seven seconds before the counter wraps and times out
just after it. -/
def timeoutAcrossWrap : List (ℕ × Call) :=
  [tickAt 4294960296 .on {},
   tickAt 4294960396 .on { present := true, timestampMs := 4294960396 },
   tickAt 4294961296 .off { present := true, timestampMs := 4294960396 },
   tickAt 4294967396 .off { present := true, timestampMs := 4294960396 }]

theorem clocked_timeoutAcrossWrap : Clocked timeoutAcrossWrap := by
  unfold Clocked timeoutAcrossWrap
  simp only [along_cons, along_nil, and_true]
  refine ⟨⟨by decide, rfl, by decide⟩, ⟨by decide, rfl, fun _ => by decide⟩,
    ⟨by decide, rfl, fun _ => by decide⟩, by decide, rfl, fun _ => by decide⟩

/-- Closing the record trims every event of the shot, `BEGIN` and `PUMP_ON` included. -/
theorem not_publishesWellFormed_timeoutAcrossWrap :
    Clocked timeoutAcrossWrap ∧ ¬ PublishesWellFormed timeoutAcrossWrap := by
  refine ⟨clocked_timeoutAcrossWrap, fun h => ?_⟩
  have hpub := h (timeoutAcrossWrap.take 3) 4294967396
    { nowMs := Clock.reading 32 4294967396, pumpSignal := { state := .off },
      scale := { present := true, timestampMs := 4294960396 } } [] rfl
  have hfirst := (hpub (by decide +kernel)).1.first
  revert hfirst
  decide +kernel

end Pumpbug
