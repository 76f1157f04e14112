import Pumpbug.RecordStep

/-!
# The alarm of a record

A record carries one alarm context and lists its alarm among the events.  Only `triggerAlarm` writes
either; a tick keeps the context and appends events of other kinds, until a new record starts
without.
-/

namespace Pumpbug

open Lib

/-- How many alarms the record lists. -/
def Extraction.alarms (e : Extraction) : ℕ :=
  e.events.items.countP fun event => event.kind = .alarmTriggered

/-- `e'` has the alarm context of `e` and lists no further alarm. -/
structure KeepsAlarm (e e' : Extraction) : Prop where
  alarm : e'.alarm = e.alarm
  alarms : e'.alarms ≤ e.alarms

theorem KeepsAlarm.refl (e : Extraction) : KeepsAlarm e e := ⟨rfl, le_rfl⟩

theorem KeepsAlarm.trans {e f g : Extraction} (h : KeepsAlarm e f) (h' : KeepsAlarm f g) :
    KeepsAlarm e g :=
  ⟨h'.alarm.trans h.alarm, h'.alarms.trans h.alarms⟩

/-- A record without an alarm. -/
structure Extraction.NoAlarm (e : Extraction) : Prop where
  alarm : e.alarm.tMs = 0
  alarms : e.alarms = 0

theorem KeepsAlarm.noAlarm {e e' : Extraction} (h : KeepsAlarm e e') (he : e.NoAlarm) : e'.NoAlarm :=
  ⟨by rw [h.alarm]; exact he.alarm, Nat.le_zero.1 (he.alarms ▸ h.alarms)⟩

/-! ## Appending events -/

theorem countP_push_le {events : Buffer Event MAX_EVENTS} {event : Event}
    (h : event.kind ≠ .alarmTriggered) :
    ((events.push event).items.countP fun e => e.kind = .alarmTriggered) ≤
      events.items.countP fun e => e.kind = .alarmTriggered := by
  by_cases hfull : events.count < MAX_EVENTS
  · rw [Buffer.items_push_of_lt hfull, List.countP_append, List.countP_cons_of_neg (by simpa using h),
      List.countP_nil, Nat.add_zero]
  · rw [Buffer.push_of_full hfull]

theorem keepsAlarm_storeEvent (e : Extraction) {event : Event} (h : event.kind ≠ .alarmTriggered) :
    KeepsAlarm e (storeEvent e event) := by
  unfold storeEvent
  split_ifs
  · exact ⟨rfl, le_rfl⟩
  · exact ⟨rfl, countP_push_le h⟩

theorem keepsAlarm_appendFinalizeEvent (e : Extraction) (tMs : U32) {kind : EventKind}
    (h : kind ≠ .alarmTriggered) : KeepsAlarm e (appendFinalizeEvent e tMs kind) :=
  ⟨rfl, countP_push_le h⟩

/-- The alarm itself is one more event at most. -/
theorem alarms_appendEvent_le (e : Extraction) (tMs : U32) (kind : EventKind) :
    (appendEvent e tMs kind).alarms ≤ e.alarms + 1 := by
  unfold appendEvent storeEvent Extraction.alarms
  split_ifs
  · exact Nat.le_succ _
  · show ((e.events.push _).items.countP _) ≤ _
    by_cases hfull : e.events.count < MAX_EVENTS
    · rw [Buffer.items_push_of_lt hfull, List.countP_append]
      exact Nat.add_le_add_left List.countP_le_length _
    · rw [Buffer.push_of_full hfull]
      exact Nat.le_succ _

namespace Recorder

/-! ## A tick -/

theorem keepsAlarm_sense (r : Recorder) (i : Input) : KeepsAlarm r.current (r.sense i).current := by
  refine ⟨field_eq_of_header Extraction.alarm (fun _ => rfl) (r.sameShot_sense i).header, ?_⟩
  by_cases hw : r.current.inPumpWindow = true
  · have hnote : KeepsAlarm r.current (r.noteScalePresence i.scale i.nowMs) := by
      unfold noteScalePresence
      split_ifs
      · exact keepsAlarm_storeEvent _ nofun
      · exact keepsAlarm_storeEvent _ nofun
      · exact KeepsAlarm.refl _
    unfold Extraction.alarms
    rw [sense_events hw]
    exact hnote.alarms
  · rw [sense_of_idleWindow hw]

theorem keepsAlarm_enterPostPump (r : Recorder) (nowMs : U32) (o : PumpSignalObservation) :
    KeepsAlarm r.current (r.enterPostPump nowMs o).current := by
  obtain ⟨halarm, halarms⟩ := keepsAlarm_storeEvent
    { r.current with
      totalPumpOnMs := r.current.totalPumpOnMs + (nowMs - r.pumpOnIntervalStartMs)
      lastPumpOffConfirmedMs := nowMs }
    (show ({ tMs := nowMs, kind := .pumpOffConfirmed,
             payload := { signalDecayLeadMsPlusOne := decayLeadMsPlusOne nowMs o } } : Event).kind ≠
      .alarmTriggered from nofun)
  exact ⟨halarm, halarms⟩

theorem keepsAlarm_resume {r : Recorder} (h : r.current.phase ≠ .idle) (nowMs utcSec : U32) :
    KeepsAlarm r.current (r.enterRunning nowMs utcSec).current := by
  rw [enterRunning_of_ne_idle h]
  obtain ⟨halarm, halarms⟩ := keepsAlarm_storeEvent r.current
    (show ({ tMs := nowMs, kind := .pumpOn } : Event).kind ≠ .alarmTriggered from nofun)
  exact ⟨halarm, halarms⟩

theorem keepsAlarm_closeRecord (e : Extraction) (nowMs : U32) (cause : EndCause) :
    KeepsAlarm e (closeRecord e nowMs cause) := by
  refine ⟨rfl, ?_⟩
  have hend : (closeRecord e nowMs cause).alarms ≤
      (keptEvents e nowMs cause).countP fun event => event.kind = .alarmTriggered :=
    countP_push_le nofun
  exact hend.trans (( keptEvents_prefix e nowMs cause).sublist.countP_le)

theorem keepsAlarm_finished (r : Recorder) (nowMs : U32) (cause : EndCause) :
    KeepsAlarm r.current (r.finished nowMs cause) := by
  have hstable : KeepsAlarm r.current
      (if cause = .stable then
        { appendFinalizeEvent r.current nowMs .stableDetected with stableMs := nowMs }
      else r.current) := by
    split_ifs
    · obtain ⟨halarm, halarms⟩ := keepsAlarm_appendFinalizeEvent r.current nowMs
        (show EventKind.stableDetected ≠ .alarmTriggered from nofun)
      exact ⟨halarm, halarms⟩
    · exact KeepsAlarm.refl _
  have hsettle : ∀ e, KeepsAlarm e (settleYield e r.lastRawCg) := by
    intro e
    refine ⟨settleYield_field Extraction.alarm (fun _ => rfl) e _, ?_⟩
    unfold Extraction.alarms
    rw [settleYield_events]
  have hclose := hstable.trans ((hsettle _).trans (keepsAlarm_closeRecord _ nowMs cause))
  exact ⟨hclose.alarm, hclose.alarms⟩

theorem noAlarm_begin {r : Recorder} (h : r.current.phase = .idle) (hno : r.current.NoAlarm)
    (nowMs utcSec : U32) : (r.enterRunning nowMs utcSec).current.NoAlarm := by
  rw [enterRunning_of_idle h]
  have hbegin := keepsAlarm_storeEvent { r.current with beginMs := nowMs, startUtcSec := utcSec }
    (show ({ tMs := nowMs, kind := .begin } : Event).kind ≠ .alarmTriggered from nofun)
  have hon := keepsAlarm_storeEvent
    (appendEvent { r.current with beginMs := nowMs, startUtcSec := utcSec } nowMs .begin)
    (show ({ tMs := nowMs, kind := .pumpOn } : Event).kind ≠ .alarmTriggered from nofun)
  have hstart : ({ r.current with beginMs := nowMs, startUtcSec := utcSec } : Extraction).NoAlarm :=
    ⟨hno.alarm, hno.alarms⟩
  obtain ⟨halarm, halarms⟩ := (hbegin.trans hon).noAlarm hstart
  exact ⟨halarm, halarms⟩

theorem noAlarm_fresh : (Recorder.enterIdle {}).current.NoAlarm := ⟨rfl, rfl⟩

/-- **A tick keeps the alarm of the record in flight**, and begins new records without one. -/
theorem update_alarm (r : Recorder) (i : Input)
    (hidle : r.current.phase = .idle → r.current.NoAlarm) :
    (r.begins i = true → (r.update i).current.NoAlarm) ∧
      (r.begins i = false → KeepsAlarm r.current (r.update i).current) := by
  constructor
  · intro hb
    obtain ⟨hp, h⟩ | ⟨s, h⟩ := update_of_begins hb
    · rw [h]
      have hw : ¬ r.current.inPumpWindow = true := by
        rw [Extraction.inPumpWindow_iff, hp]
        decide
      refine noAlarm_begin (by rw [sense_phase, hp]) ?_ _ _
      rw [sense_of_idleWindow hw]
      exact hidle hp
    · rw [h]
      exact noAlarm_begin rfl noAlarm_fresh _ _
  · intro hb
    have hb' : ¬ r.begins i = true := by
      rw [hb]
      decide
    have hsense := r.keepsAlarm_sense i
    cases hp : r.current.phase with
    | idle =>
      rw [update_of_idle hp, if_neg (begins_of_rises hb' (Or.inl hp))]
      exact hsense
    | running =>
      rw [update_of_running hp]
      split_ifs
      · exact hsense.trans (keepsAlarm_enterPostPump _ _ _)
      · exact hsense
    | postPump =>
      rw [update_of_postPump hp]
      by_cases hrise : r.rises i = true
      · have hco : (r.sense i).coalesces i.nowMs i.scale = true := by
          by_contra hco
          apply hb'
          unfold begins restarts
          simp [hrise, hp, Bool.eq_false_iff.2 hco]
        rw [if_pos hrise, if_pos hco]
        exact hsense.trans (keepsAlarm_resume (by rw [sense_phase, hp]; decide) _ _)
      · rw [if_neg hrise]
        cases (r.sense i).endOfShot i.nowMs with
        | none => exact hsense
        | some cause => exact hsense.trans (keepsAlarm_finished _ _ _)
    | done =>
      rw [update_of_done hp, if_neg (begins_of_rises hb' (Or.inr hp))]
      exact hsense
    | unnamed code hc =>
      rw [update_of_unnamed hp]
      exact hsense

/-- A record that the tick publishes keeps the alarm of the shot it ends. -/
theorem finished_alarm {r : Recorder} {i : Input} {cause : EndCause} :
    KeepsAlarm r.current ((r.sense i).finished i.nowMs cause) :=
  (r.keepsAlarm_sense i).trans (keepsAlarm_finished _ _ _)

/-- The first alarm of a running shot is recorded, and no second one. -/
theorem triggerAlarm_first {r : Recorder} {a : AlarmTrigger} (hp : r.current.phase = .running)
    (hno : r.current.alarm.tMs = 0) :
    (r.triggerAlarm a).current.alarm = a ∧
      (r.triggerAlarm a).current.alarms ≤ r.current.alarms + 1 := by
  unfold triggerAlarm
  rw [if_neg (by rw [hno, hp]; decide)]
  exact ⟨field_of_header Extraction.alarm (fun _ => rfl)
    (header_appendEvent { r.current with alarm := a } a.tMs .alarmTriggered),
    alarms_appendEvent_le { r.current with alarm := a } a.tMs .alarmTriggered⟩

end Recorder

end Pumpbug
