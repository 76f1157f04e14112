import Pumpbug.PublishedRecord

/-!
# The record in flight across ticks

A tick either begins a new record or goes on with the one there is.  A record that goes on keeps its
beginning and only gains samples, also when the tick closes it.
-/

namespace Pumpbug

open Lib

namespace Recorder

/-! ## Reading the scale -/

@[simp] theorem storeEvent_samples (e : Extraction) (event : Event) :
    (storeEvent e event).samples = e.samples := by
  unfold storeEvent
  split_ifs <;> rfl

@[simp] theorem appendEvent_samples (e : Extraction) (tMs : U32) (kind : EventKind) :
    (appendEvent e tMs kind).samples = e.samples := storeEvent_samples e _

@[simp] theorem noteScalePresence_samples (r : Recorder) (scale : ScaleSnapshot) (nowMs : U32) :
    (r.noteScalePresence scale nowMs).samples = r.current.samples := by
  unfold noteScalePresence
  split_ifs
  · exact appendEvent_samples _ _ _
  · exact appendEvent_samples _ _ _
  · rfl

/-- The sample of an accepted reading. -/
theorem acceptSample_samples (r : Recorder) (scale : ScaleSnapshot) (rawCg : I16) (nowMs : U32) :
    (r.acceptSample scale rawCg nowMs).current.samples =
      r.current.samples.push
        { tMs := scale.timestampMs, cg := rawCg, scaleTimerMs := scale.scaleTimerMs } := by
  unfold acceptSample appendSample
  dsimp only
  split_ifs <;> rfl

/-- A tick stores at most one sample, of the weight the scale reports. -/
theorem sense_samples (r : Recorder) (i : Input) :
    (r.sense i).current.samples = r.current.samples ∨
    r.current.inPumpWindow = true ∧ ∃ rawCg, gramsToCg i.scale.grams = some rawCg ∧
      (r.sense i).current.samples = r.current.samples.push
        { tMs := i.scale.timestampMs, cg := rawCg, scaleTimerMs := i.scale.scaleTimerMs } := by
  by_cases hw : r.current.inPumpWindow = true
  · unfold sense
    rw [if_pos hw]
    obtain h | h | ⟨rawCg, hg, -, -, -, h⟩ := r.recordLiveTick_cases i.scale i.nowMs
    · left
      rw [h]
      exact noteScalePresence_samples _ _ _
    · left
      rw [h]
      exact noteScalePresence_samples _ _ _
    · right
      refine ⟨hw, rawCg, hg, ?_⟩
      rw [h, acceptSample_samples, noteScalePresence_samples]
  · left
    rw [sense_of_idleWindow hw]

theorem growsTo_sense (r : Recorder) (i : Input) : GrowsTo r.current (r.sense i).current := by
  refine ⟨sense_beginMs r i, ?_⟩
  obtain h | ⟨-, rawCg, -, h⟩ := r.sense_samples i
  · rw [h]
  · rw [h]
    exact Buffer.items_prefix_push _ _

theorem weighed_sense {r : Recorder} (i : Input) (h : r.current.Weighed) :
    (r.sense i).current.Weighed := by
  unfold Extraction.Weighed
  obtain hs | ⟨-, rawCg, hg, hs⟩ := r.sense_samples i
  · rw [hs]
    exact h
  · rw [hs]
    by_cases hfull : r.current.samples.count < MAX_SAMPLES
    · rw [Buffer.items_push_of_lt hfull]
      intro sample hmem
      rcases List.mem_append.1 hmem with hmem | hmem
      · exact h sample hmem
      · rw [List.mem_singleton.1 hmem]
        exact gramsToCg_ne_noWeight hg
    · rw [Buffer.push_of_full hfull]
      exact h

/-! ## Phase entries -/

/-- The record that the yield is settled on, with the mark of a stable end. -/
def marked (r : Recorder) (nowMs : U32) (cause : EndCause) : Extraction :=
  if cause = .stable then
    { appendFinalizeEvent r.current nowMs .stableDetected with stableMs := nowMs }
  else r.current

theorem finished_eq (r : Recorder) (nowMs : U32) (cause : EndCause) :
    r.finished nowMs cause =
      { closeRecord (settleYield (r.marked nowMs cause) r.lastRawCg) nowMs cause with
        phase := .done } := rfl

theorem marked_field {α : Type*} (f : Extraction → α)
    (hf : ∀ (e : Extraction) (events : Lib.Buffer Event MAX_EVENTS) (stableMs : U32),
      f { e with events := events, stableMs := stableMs } = f e)
    (r : Recorder) (nowMs : U32) (cause : EndCause) : f (r.marked nowMs cause) = f r.current := by
  unfold marked
  split_ifs
  · exact hf r.current _ nowMs
  · rfl

section

variable {α : Type*} (f : Extraction → α)
  (hf : ∀ (e : Extraction) (events : Lib.Buffer Event MAX_EVENTS) (endMs : U32) (cause : EndCause)
    (phase : Phase),
    f { e with events := events, endMs := endMs, endCause := cause, phase := phase } = f e)

include hf

theorem closeRecord_field (e : Extraction) (nowMs : U32) (cause : EndCause) :
    f { closeRecord e nowMs cause with phase := .done } = f e :=
  hf e (closeRecord e nowMs cause).events (closeRecord e nowMs cause).endMs cause .done

/-- What the end of the record does not touch is as the yield was settled with. -/
theorem finished_field (r : Recorder) (nowMs : U32) (cause : EndCause) :
    f (r.finished nowMs cause) = f (settleYield (r.marked nowMs cause) r.lastRawCg) := by
  rw [finished_eq]
  exact closeRecord_field f hf _ nowMs cause

end

theorem finished_samples (r : Recorder) (nowMs : U32) (cause : EndCause) :
    (r.finished nowMs cause).samples = r.current.samples := by
  rw [finished_field Extraction.samples fun _ _ _ _ _ => rfl,
    settleYield_field Extraction.samples fun _ => rfl]
  exact marked_field Extraction.samples (fun _ _ _ => rfl) r nowMs cause

theorem finished_beginMs (r : Recorder) (nowMs : U32) (cause : EndCause) :
    (r.finished nowMs cause).beginMs = r.current.beginMs := by
  rw [finished_field Extraction.beginMs fun _ _ _ _ _ => rfl, settleYield_beginMs]
  exact marked_field Extraction.beginMs (fun _ _ _ => rfl) r nowMs cause

theorem growsTo_enterDone (r : Recorder) (nowMs : U32) (cause : EndCause) :
    GrowsTo r.current (r.enterDone nowMs cause).current :=
  growsTo_of_eq (r.finished_beginMs nowMs cause) (r.finished_samples nowMs cause)

theorem growsTo_enterPostPump (r : Recorder) (nowMs : U32) (o : PumpSignalObservation) :
    GrowsTo r.current (r.enterPostPump nowMs o).current := by
  apply growsTo_of_eq
  · exact (field_of_header Extraction.beginMs (fun _ => rfl)
      (r.enterPostPump_header nowMs o)).trans rfl
  · exact storeEvent_samples _ _

theorem growsTo_resume {r : Recorder} (h : r.current.phase ≠ .idle) (nowMs utcSec : U32) :
    GrowsTo r.current (r.enterRunning nowMs utcSec).current := by
  apply growsTo_of_eq
  · exact (field_of_header Extraction.beginMs (fun _ => rfl)
      (resume_header h nowMs utcSec)).trans rfl
  · rw [enterRunning_of_ne_idle h]
    exact appendEvent_samples _ _ _

/-! ## The tick -/

/-- A record that begins at `nowMs`. -/
structure Begun (nowMs : U32) (e : Extraction) : Prop where
  phase : e.phase = .running
  beginMs : e.beginMs = nowMs
  samples : e.samples.items = []

theorem begun_enterRunning {r : Recorder} (h : r.current.phase = .idle)
    (hs : r.current.samples.items = []) (nowMs utcSec : U32) :
    Begun nowMs (r.enterRunning nowMs utcSec).current := by
  refine ⟨rfl, ?_, ?_⟩
  · exact (field_of_header Extraction.beginMs (fun _ => rfl)
      (begin_header h nowMs utcSec)).trans rfl
  · rw [enterRunning_of_idle h]
    show (appendEvent (appendEvent _ nowMs .begin) nowMs .pumpOn).samples.items = []
    rw [appendEvent_samples, appendEvent_samples]
    exact hs

/-- How a record goes on: it grows, and an idle or done one stays as it is. -/
structure GoesOn (e e' : Extraction) : Prop where
  grows : GrowsTo e e'
  weighed : e.Weighed → e'.Weighed
  idle : e'.phase = .idle ↔ e.phase = .idle
  window : e'.inPumpWindow = true → e.inPumpWindow = true
  fixed : ¬ e.inPumpWindow = true → e' = e
  running : e.phase = .running → e'.inPumpWindow = true

theorem weighed_of_samples {e e' : Extraction} (h : e'.samples = e.samples) (he : e.Weighed) :
    e'.Weighed := by
  unfold Extraction.Weighed
  rw [h]
  exact he

theorem begins_of_rises {r : Recorder} {i : Input} (hb : ¬ r.begins i = true)
    (hp : r.current.phase = .idle ∨ r.current.phase = .done) : ¬ r.rises i = true := by
  intro hr
  apply hb
  unfold begins restarts
  rcases hp with hp | hp
  · simp [hr, hp]
  · simp [hr, hp]

/-- An idle recorder holds no samples. -/
def Clean (r : Recorder) : Prop := r.current.phase = .idle → r.current.samples.items = []

/-- The ways a tick begins a record. -/
theorem update_of_begins {r : Recorder} {i : Input} (h : r.begins i = true) :
    (r.current.phase = .idle ∧ r.update i = (r.sense i).enterRunning i.nowMs i.utcSec) ∨
    ∃ s : Recorder, r.update i = s.enterIdle.enterRunning i.nowMs i.utcSec := by
  unfold begins restarts at h
  simp only [Bool.or_eq_true, Bool.and_eq_true, decide_eq_true_eq, Bool.not_eq_true'] at h
  obtain ⟨hrise, hp⟩ | ⟨hrise, hp | ⟨hp, hsplit⟩⟩ := h
  · left
    rw [update_of_idle hp, if_pos hrise]
    exact ⟨hp, rfl⟩
  · right
    rw [update_of_done hp, if_pos hrise]
    exact ⟨_, rfl⟩
  · right
    rw [update_of_postPump hp, if_pos hrise, if_neg (by rw [hsplit]; decide)]
    exact ⟨_, rfl⟩

theorem goesOn_of_inWindow {r : Recorder} {e' : Extraction} (i : Input)
    (hw : r.current.inPumpWindow = true) (hgrow : GrowsTo (r.sense i).current e')
    (hsamples : e'.samples = (r.sense i).current.samples) (hp : e'.phase ≠ .idle)
    (hrun : r.current.phase = .running → e'.inPumpWindow = true) : GoesOn r.current e' where
  grows := (r.growsTo_sense i).trans hgrow
  weighed := fun h => weighed_of_samples hsamples (weighed_sense i h)
  idle := by
    constructor
    · intro h
      exact absurd h hp
    · intro h
      rw [Extraction.inPumpWindow_iff, h] at hw
      exact absurd hw (by decide)
  window := fun _ => hw
  fixed := fun h => absurd hw h
  running := hrun

theorem goesOn_refl {e : Extraction} (h : e.phase = .running → e.inPumpWindow = true) :
    GoesOn e e :=
  ⟨GrowsTo.refl e, id, Iff.rfl, id, fun _ => rfl, h⟩

/-- A tick that finds no shot in flight and begins none leaves the record. -/
theorem goesOn_sense_outside {r : Recorder} (i : Input) (h : ¬ r.current.inPumpWindow = true) :
    GoesOn r.current (r.sense i).current := by
  rw [sense_of_idleWindow h]
  exact goesOn_refl fun hr => Extraction.inPumpWindow_iff.2 (Or.inl hr)

theorem goesOn_sense_inside {r : Recorder} (i : Input) (h : r.current.inPumpWindow = true) :
    GoesOn r.current (r.sense i).current := by
  refine goesOn_of_inWindow i h (GrowsTo.refl _) rfl ?_ ?_
  · rw [sense_phase]
    intro hi
    rw [Extraction.inPumpWindow_iff, hi] at h
    exact absurd h (by decide)
  · intro hr
    rw [Extraction.inPumpWindow_iff, sense_phase, hr]
    exact Or.inl rfl

/-- What is left for a tick that begins no shot. -/
theorem update_continues {r : Recorder} {i : Input} (hb : r.begins i = false) :
    r.update i = r.sense i ∨
    r.current.phase = .running ∧ r.update i = (r.sense i).enterPostPump i.nowMs i.pumpSignal ∨
    r.current.phase = .postPump ∧ r.update i = (r.sense i).enterRunning i.nowMs 0 ∨
    r.current.phase = .postPump ∧ ∃ cause, r.update i = (r.sense i).enterDone i.nowMs cause := by
  have hb' : ¬ r.begins i = true := by
    rw [hb]
    decide
  cases hp : r.current.phase with
  | idle =>
    rw [update_of_idle hp, if_neg (begins_of_rises hb' (Or.inl hp))]
    exact .inl rfl
  | running =>
    rw [update_of_running hp]
    by_cases hfall : r.falls i = true
    · rw [if_pos hfall]
      exact .inr (.inl ⟨rfl, rfl⟩)
    · rw [if_neg hfall]
      exact .inl rfl
  | postPump =>
    rw [update_of_postPump hp]
    by_cases hrise : r.rises i = true
    · by_cases hco : (r.sense i).coalesces i.nowMs i.scale = true
      · rw [if_pos hrise, if_pos hco]
        exact .inr (.inr (.inl ⟨rfl, rfl⟩))
      · exfalso
        apply hb'
        unfold begins restarts
        simp [hrise, hp, Bool.eq_false_iff.2 hco]
    · rw [if_neg hrise]
      cases (r.sense i).endOfShot i.nowMs with
      | none => exact .inl rfl
      | some cause => exact .inr (.inr (.inr ⟨rfl, cause, rfl⟩))
  | done =>
    rw [update_of_done hp, if_neg (begins_of_rises hb' (Or.inr hp))]
    exact .inl rfl
  | unnamed code hc =>
    rw [update_of_unnamed hp]
    exact .inl rfl

/-- **A tick begins a record or goes on with it.** -/
theorem update_record (r : Recorder) (i : Input) (hidle : r.Clean) :
    (r.begins i = true ∧ Begun i.nowMs (r.update i).current) ∨
    (r.begins i = false ∧ GoesOn r.current (r.update i).current) := by
  by_cases hb : r.begins i = true
  · left
    refine ⟨hb, ?_⟩
    obtain ⟨hp, h⟩ | ⟨s, h⟩ := update_of_begins hb
    · rw [h]
      refine begun_enterRunning (by rw [sense_phase, hp]) ?_ _ _
      have hw : ¬ r.current.inPumpWindow = true := by
        rw [Extraction.inPumpWindow_iff, hp]
        decide
      rw [sense_of_idleWindow hw]
      exact hidle hp
    · rw [h]
      exact begun_enterRunning rfl rfl _ _
  · right
    have hb' : r.begins i = false := Bool.eq_false_iff.2 hb
    refine ⟨hb', ?_⟩
    have hpost (hp : r.current.phase = .postPump) :
        r.current.inPumpWindow = true ∧ (r.sense i).current.phase ≠ .idle ∧
          r.current.phase ≠ .running := by
      refine ⟨Extraction.inPumpWindow_iff.2 (Or.inr hp), ?_, ?_⟩
      · rw [sense_phase, hp]
        decide
      · rw [hp]
        decide
    obtain heq | ⟨hp, heq⟩ | ⟨hp, heq⟩ | ⟨hp, cause, heq⟩ := update_continues hb'
    · rw [heq]
      by_cases hw : r.current.inPumpWindow = true
      · exact goesOn_sense_inside i hw
      · exact goesOn_sense_outside i hw
    · rw [heq]
      exact goesOn_of_inWindow i (Extraction.inPumpWindow_iff.2 (Or.inl hp))
        (growsTo_enterPostPump _ _ _) (storeEvent_samples _ _)
        (by rw [enterPostPump_phase]; decide) fun _ => rfl
    · obtain ⟨hw, hsp, -⟩ := hpost hp
      rw [heq]
      refine goesOn_of_inWindow i hw (growsTo_resume hsp _ _) ?_
        (by rw [enterRunning_phase]; decide) fun _ => rfl
      rw [enterRunning_of_ne_idle hsp]
      exact appendEvent_samples _ _ _
    · obtain ⟨hw, -, hnr⟩ := hpost hp
      rw [heq]
      refine goesOn_of_inWindow i hw (growsTo_enterDone _ _ _) (finished_samples _ _ _) ?_
        fun h => absurd h hnr
      rw [enterDone_phase]
      decide

theorem clean_update {r : Recorder} (i : Input) (h : r.Clean) : (r.update i).Clean := by
  intro hp
  obtain ⟨-, hb⟩ | ⟨-, hg⟩ := update_record r i h
  · rw [hb.phase] at hp
    exact absurd hp (by decide)
  · have hi := hg.idle.1 hp
    have hw : ¬ r.current.inPumpWindow = true := by
      rw [Extraction.inPumpWindow_iff, hi]
      decide
    rw [hg.fixed hw]
    exact h hi

/-! ## The other calls -/

theorem clear_phase (r : Recorder) : r.clear.current.phase = .idle := by
  rw [clear_eq]
  by_cases h : r.current.phase = .idle
  · rw [if_pos h]; exact h
  · rw [if_neg h]; rfl

theorem clean_clear {r : Recorder} (h : r.Clean) : r.clear.Clean := by
  rw [clear_eq]
  by_cases hi : r.current.phase = .idle
  · rw [if_pos hi]; exact h
  · rw [if_neg hi]; exact fun _ => rfl

/-- The calls that leave the record in flight to itself. -/
structure SameFlight (r s : Recorder) : Prop where
  phase : s.current.phase = r.current.phase
  beginMs : s.current.beginMs = r.current.beginMs
  samples : s.current.samples = r.current.samples

theorem sameFlight_setTargetSnapshot (r : Recorder) (tc : TargetCoeffs) :
    SameFlight r (r.setTargetSnapshot tc) := by
  obtain h | h := r.setTargetSnapshot_cases tc
  · rw [h]; exact ⟨rfl, rfl, rfl⟩
  · rw [h]; exact ⟨rfl, rfl, rfl⟩

theorem sameFlight_triggerAlarm (r : Recorder) (a : AlarmTrigger) :
    SameFlight r (r.triggerAlarm a) := by
  obtain ⟨-, h⟩ | h := r.triggerAlarm_cases a
  · have hh := header_appendEvent { r.current with alarm := a } a.tMs .alarmTriggered
    rw [h]
    refine ⟨?_, ?_, ?_⟩
    · exact (field_eq_of_header Extraction.phase (fun _ => rfl) hh).trans rfl
    · exact (field_eq_of_header Extraction.beginMs (fun _ => rfl) hh).trans rfl
    · exact appendEvent_samples _ _ _
  · rw [h]; exact ⟨rfl, rfl, rfl⟩

theorem SameFlight.clean {r s : Recorder} (h : SameFlight r s) (hr : r.Clean) : s.Clean := by
  intro hp
  rw [h.samples]
  exact hr (h.phase ▸ hp)

theorem SameFlight.inPumpWindow {r s : Recorder} (h : SameFlight r s) :
    s.current.inPumpWindow = r.current.inPumpWindow := by
  unfold Extraction.inPumpWindow
  rw [h.phase]

end Recorder

end Pumpbug
