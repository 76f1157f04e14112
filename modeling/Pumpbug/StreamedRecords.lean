import Pumpbug.PumpEdge
import Pumpbug.StreamReader
import Pumpbug.Web.LivePackets

/-!
# The records that a session copies

What the sections of the main task do to the record in flight, to the accepted shots and to the shot
on display: every record stays one that can be sent, and the record in flight grows unless it is
renewed.
-/

namespace Pumpbug

open Lib

namespace Recorder

/-! ## Versions -/

theorem version_enterRunning (r : Recorder) (nowMs utcSec : U32) :
    (r.enterRunning nowMs utcSec).current.version = r.current.version := by
  by_cases h : r.current.phase = .idle
  · exact (field_of_header Extraction.version (fun _ => rfl) (begin_header h nowMs utcSec)).trans rfl
  · exact (field_of_header Extraction.version (fun _ => rfl) (resume_header h nowMs utcSec)).trans rfl

theorem version_enterPostPump (r : Recorder) (nowMs : U32) (o : PumpSignalObservation) :
    (r.enterPostPump nowMs o).current.version = r.current.version :=
  (field_of_header Extraction.version (fun _ => rfl) (r.enterPostPump_header nowMs o)).trans rfl

theorem version_finished (r : Recorder) (nowMs : U32) (cause : EndCause) :
    (r.finished nowMs cause).version = r.current.version := by
  rw [finished_field Extraction.version fun _ _ _ _ _ => rfl,
    settleYield_field Extraction.version fun _ => rfl]
  exact marked_field Extraction.version (fun _ _ _ => rfl) r nowMs cause

theorem version_sense (r : Recorder) (i : Input) :
    (r.sense i).current.version = r.current.version :=
  field_eq_of_header Extraction.version (fun _ => rfl) (r.sameShot_sense i).header

/-- A tick keeps the version of the record, or starts one in the current version. -/
theorem version_update (r : Recorder) (i : Input) :
    (r.update i).current.version = r.current.version ∨
      (r.update i).current.version = kCurrentExtractionVersion := by
  by_cases hb : r.begins i = true
  · obtain ⟨-, h⟩ | ⟨s, h⟩ := update_of_begins hb
    · left
      rw [h, version_enterRunning, version_sense]
    · right
      rw [h, version_enterRunning]
      rfl
  · left
    obtain h | ⟨-, h⟩ | ⟨-, h⟩ | ⟨-, cause, h⟩ := update_continues (Bool.eq_false_iff.2 hb)
    · rw [h, version_sense]
    · rw [h, version_enterPostPump, version_sense]
    · rw [h, version_enterRunning, version_sense]
    · rw [h]
      exact (version_finished _ _ _).trans (version_sense r i)

/-! ## Phases -/

theorem named_update {r : Recorder} (h : r.current.phase.Named) (i : Input) :
    (r.update i).current.phase.Named := by
  by_cases hb : r.begins i = true
  · obtain ⟨-, hu⟩ | ⟨s, hu⟩ := update_of_begins hb
    · simp [hu, Phase.Named]
    · simp [hu, Phase.Named]
  · obtain hu | ⟨-, hu⟩ | ⟨-, hu⟩ | ⟨-, cause, hu⟩ := update_continues (Bool.eq_false_iff.2 hb)
    · rw [hu, sense_phase]
      exact h
    · simp [hu, Phase.Named]
    · simp [hu, Phase.Named]
    · simp [hu, Phase.Named]

/-! ## The recorder's records -/

/-- The records of the recorder can be sent. -/
structure Sendable (r : Recorder) : Prop where
  clean : r.Clean
  named : r.current.phase.Named
  current : r.current.Sendable
  lastFinished : isLikelyRealShot r.lastFinished = true → r.lastFinished.Sendable

theorem sendable_current : ({ version := kCurrentExtractionVersion } : Extraction).Sendable :=
  ⟨by decide, fun _ hmem => absurd hmem List.not_mem_nil⟩

theorem sendable_init : Sendable {} where
  clean := fun _ => rfl
  named := Or.inl rfl
  current := sendable_current
  lastFinished := fun hreal => absurd hreal (by decide)

theorem sendable_clear {r : Recorder} (h : r.Sendable) : r.clear.Sendable := by
  refine ⟨clean_clear h.clean, Or.inl (clear_phase r), ?_, ?_⟩
  · rw [clear_eq]
    split_ifs
    · exact h.current
    · exact sendable_current
  · rw [clear_eq]
    split_ifs <;> exact h.lastFinished

theorem sendable_update {r : Recorder} (h : r.Sendable) (i : Input) : (r.update i).Sendable := by
  refine ⟨clean_update i h.clean, named_update h.named i, ⟨?_, ?_⟩, ?_⟩
  · obtain hv | hv := r.version_update i
    · rw [hv]
      exact h.current.version
    · rw [hv]
      decide
  · obtain ⟨-, hb⟩ | ⟨-, hg⟩ := update_record r i h.clean
    · intro sample hmem
      rw [hb.samples] at hmem
      exact absurd hmem List.not_mem_nil
    · exact hg.weighed h.current.weighed
  · obtain ⟨-, hlast, -⟩ | ⟨cause, -, hlast, -⟩ := r.update_publishes i
    · rw [hlast]
      exact h.lastFinished
    · intro _
      rw [hlast]
      refine ⟨?_, weighed_of_samples (finished_samples _ _ _) (weighed_sense i h.current.weighed)⟩
      rw [version_finished, version_sense]
      exact h.current.version

/-- What the alert's settings and its alarm leave of a recorder. -/
structure SameRecords (r s : Recorder) : Prop where
  flight : SameFlight r s
  version : s.current.version = r.current.version
  lastFinished : s.lastFinished = r.lastFinished
  finishedSeq : s.finishedSeq = r.finishedSeq

theorem SameRecords.refl (r : Recorder) : SameRecords r r := ⟨⟨rfl, rfl, rfl⟩, rfl, rfl, rfl⟩

theorem SameRecords.trans {r s t : Recorder} (h : SameRecords r s) (h' : SameRecords s t) :
    SameRecords r t where
  flight := ⟨h'.flight.phase.trans h.flight.phase, h'.flight.beginMs.trans h.flight.beginMs,
    h'.flight.samples.trans h.flight.samples⟩
  version := h'.version.trans h.version
  lastFinished := h'.lastFinished.trans h.lastFinished
  finishedSeq := h'.finishedSeq.trans h.finishedSeq

theorem sameRecords_setTargetSnapshot (r : Recorder) (tc : TargetCoeffs) :
    SameRecords r (r.setTargetSnapshot tc) := by
  refine ⟨r.sameFlight_setTargetSnapshot tc, ?_, ?_, ?_⟩
  all_goals
    obtain h | h := r.setTargetSnapshot_cases tc
    · rw [h]
    · rw [h]

theorem sameRecords_triggerAlarm (r : Recorder) (a : AlarmTrigger) :
    SameRecords r (r.triggerAlarm a) := by
  refine ⟨r.sameFlight_triggerAlarm a, ?_, ?_, ?_⟩
  · obtain ⟨-, h⟩ | h := r.triggerAlarm_cases a
    · rw [h]
      have hh := header_appendEvent { r.current with alarm := a } a.tMs .alarmTriggered
      exact (field_eq_of_header Extraction.version (fun _ => rfl) hh).trans rfl
    · rw [h]
  all_goals
    obtain ⟨-, h⟩ | h := r.triggerAlarm_cases a
    · rw [h]
    · rw [h]

theorem SameRecords.sendable {r s : Recorder} (h : SameRecords r s) (hr : r.Sendable) :
    s.Sendable where
  clean := h.flight.clean hr.clean
  named := by
    rw [h.flight.phase]
    exact hr.named
  current := by
    refine ⟨?_, weighed_of_samples h.flight.samples hr.current.weighed⟩
    rw [h.version]
    exact hr.current.version
  lastFinished := by
    rw [h.lastFinished]
    exact hr.lastFinished

end Recorder

namespace Controller

/-- What the alert's two calls of the recorder keep, the alert keeps. -/
theorem sameRecords_advanceAlert (c : Controller) (nowMs : U32) :
    Recorder.SameRecords c.recorder (c.advanceAlert nowMs).recorder := by
  have hstart (curBeginMs : U32) :
      Recorder.SameRecords c.recorder (c.startAlert curBeginMs).recorder :=
    c.recorder.sameRecords_setTargetSnapshot _
  unfold advanceAlert runTargetAlert
  generalize decide (c.recorder.current.phase = .running) = phaseRunning
  by_cases hnew :
      (phaseRunning && decide (c.recorder.current.beginMs ≠ c.alertShotBeginMs)) = true
  · rw [if_pos hnew]
    dsimp only
    split_ifs
    · exact (hstart c.recorder.current.beginMs).trans (Recorder.sameRecords_triggerAlarm _ _)
    · exact hstart c.recorder.current.beginMs
  · rw [if_neg hnew]
    dsimp only
    split_ifs
    · exact Recorder.sameRecords_triggerAlarm _ _
    · exact .refl _

/-- The rest of the controller is not the alert's. -/
theorem advanceAlert_rest (c : Controller) (nowMs : U32) :
    ∃ r alert beginMs, c.advanceAlert nowMs =
      { c with recorder := r, targetAlert := alert, alertShotBeginMs := beginMs } := by
  obtain ⟨r, alert, beginMs, heq, -⟩ := c.runTargetAlert_frame nowMs
    (c.recorder.current.phase = .running) c.recorder.lastTrustedYieldSample
    c.recorder.current.beginMs
  exact ⟨r, alert, beginMs, heq⟩

/-! ## The controller's records -/

/-- Every record that a snapshot copies can be sent. -/
structure Sendable (c : Controller) : Prop where
  recorder : c.recorder.Sendable
  acceptedSeq : c.lastAcceptedSeq ≤ c.recorder.finishedSeq
  accepted : c.lastAcceptedSeq ≠ 0 → c.lastAcceptedShot.Sendable
  loaded : c.hasLoadedShot = true → ∃ shot, c.loadedShot = some shot ∧ shot.Sendable

theorem sendable_init : Sendable {} where
  recorder := Recorder.sendable_init
  acceptedSeq := le_rfl
  accepted := fun h => absurd rfl h
  loaded := fun h => absurd h (by decide)

theorem sendable_of_records {c : Controller} (h : c.Sendable) {r : Recorder}
    (hr : r.Sendable) (hseq : c.recorder.finishedSeq ≤ r.finishedSeq) :
    ({ c with recorder := r } : Controller).Sendable :=
  ⟨hr, h.acceptedSeq.trans hseq, h.accepted, h.loaded⟩

theorem sendable_clearRecorder {c : Controller} (h : c.Sendable) :
    ({ c with recorder := c.recorder.clear } : Controller).Sendable :=
  sendable_of_records h (Recorder.sendable_clear h.recorder) (MainLoop.clear_finishedSeq _).ge

theorem finishedSeq_update (r : Recorder) (i : Recorder.Input) :
    r.finishedSeq ≤ (r.update i).finishedSeq := by
  obtain ⟨-, -, hseq⟩ | ⟨-, -, -, hseq⟩ := r.update_publishes i
  · exact hseq.ge
  · omega

theorem sendable_settleFinalize {c : Controller} (h : c.Sendable) : c.settleFinalize.Sendable := by
  cases hv : c.finalizeOutcome with
  | none =>
    rw [settleFinalize_of_none hv]
    exact h
  | accepted =>
    rw [settleFinalize_of_accepted hv]
    have hreal : isLikelyRealShot c.recorder.lastFinished = true := by
      unfold finalizeOutcome at hv
      split_ifs at hv with hsame hreal
      exact hreal
    exact ⟨h.recorder, le_rfl, fun _ => h.recorder.lastFinished hreal,
      fun hloaded => absurd hloaded Bool.false_ne_true⟩
  | rejected =>
    rw [settleFinalize_of_rejected hv]
    split_ifs
    · have hclear := sendable_clearRecorder h
      exact ⟨hclear.recorder, hclear.acceptedSeq, hclear.accepted, hclear.loaded⟩
    · exact ⟨h.recorder, h.acceptedSeq, h.accepted, h.loaded⟩

theorem sendable_advanceAlert {c : Controller} (h : c.Sendable) (nowMs : U32) :
    (c.advanceAlert nowMs).Sendable := by
  have hsame := c.sameRecords_advanceAlert nowMs
  obtain ⟨r, alert, beginMs, heq⟩ := c.advanceAlert_rest nowMs
  rw [heq] at hsame ⊢
  exact ⟨hsame.sendable h.recorder, h.acceptedSeq.trans hsame.finishedSeq.ge, h.accepted, h.loaded⟩

theorem sendable_liveTick {c : Controller} (h : c.Sendable) (i : Recorder.Input) :
    (c.liveTick i).Sendable := by
  have hupdate : ({ c with statusPumpSignalState := i.pumpSignal.state
                           recorder := c.recorder.update i } : Controller).Sendable := by
    have hrecords := sendable_of_records h (Recorder.sendable_update h.recorder i)
      (finishedSeq_update c.recorder i)
    exact ⟨hrecords.recorder, hrecords.acceptedSeq, hrecords.accepted, hrecords.loaded⟩
  have hticked := sendable_advanceAlert (sendable_settleFinalize hupdate) i.nowMs
  exact ⟨hticked.recorder, hticked.acceptedSeq, hticked.accepted, hticked.loaded⟩

theorem sendable_replayTick {c : Controller} (h : c.Sendable) (nowMs : U32) (pumpOn : Bool)
    (scale : ScaleSnapshot) : (c.replayTick nowMs pumpOn scale).Sendable := by
  have hupdate : ({ c with statusPumpSignalState := .off
                           recorder := c.recorder.update (replayInput nowMs pumpOn scale) } :
      Controller).Sendable := by
    have hrecords := sendable_of_records h
      (Recorder.sendable_update h.recorder (replayInput nowMs pumpOn scale))
      (finishedSeq_update c.recorder (replayInput nowMs pumpOn scale))
    exact ⟨hrecords.recorder, hrecords.acceptedSeq, hrecords.accepted, hrecords.loaded⟩
  have hticked := sendable_advanceAlert hupdate nowMs
  exact ⟨hticked.recorder, hticked.acceptedSeq, hticked.accepted, hticked.loaded⟩

/-- A stored shot can be sent. -/
def Section.LoadsSendable (sec : Section) : Prop :=
  ∀ shot, sec = .publishLoadedShot shot → shot.Sendable

/-- **Step lemma.** Every section keeps the records sendable. -/
theorem sendable_execSection {c : Controller} (h : c.Sendable) (sec : Section)
    (hload : sec.LoadsSendable) : (c.execSection sec).Sendable := by
  have hclear := sendable_clearRecorder h
  cases sec with
  | clearForSession => exact ⟨hclear.recorder, hclear.acceptedSeq, hclear.accepted, hclear.loaded⟩
  | resetInFlight => exact ⟨hclear.recorder, hclear.acceptedSeq, hclear.accepted, hclear.loaded⟩
  | unpublishLoadedShot =>
    exact ⟨h.recorder, h.acceptedSeq, h.accepted, fun hl => absurd hl Bool.false_ne_true⟩
  | publishLoadedShot shot =>
    exact ⟨h.recorder, h.acceptedSeq, h.accepted, fun _ => ⟨shot, rfl, hload shot rfl⟩⟩
  | clearLoadedShot =>
    exact ⟨h.recorder, h.acceptedSeq, h.accepted, fun hl => absurd hl Bool.false_ne_true⟩
  | tick i flags saveOk => exact sendable_liveTick h i
  | contextAction =>
    show c.applyContextAction.Sendable
    unfold applyContextAction
    split
    · exact hclear
    · exact h
  | replayTick nowMs pumpOn scale => exact sendable_replayTick h nowMs pumpOn scale
  | _ => exact ⟨h.recorder, h.acceptedSeq, h.accepted, h.loaded⟩

/-- The shot on display can be sent, and there is one once a shot was accepted. -/
theorem sendable_display {c : Controller} (h : c.Sendable) :
    (∀ shot, c.effectiveLastShot = some shot → shot.Sendable) ∧
      (c.lastAcceptedSeq ≠ 0 → c.effectiveLastShot.isSome = true) := by
  unfold effectiveLastShot
  by_cases hl : c.hasLoadedShot = true
  · obtain ⟨shot, hshot, hsend⟩ := h.loaded hl
    rw [if_pos hl, hshot]
    refine ⟨fun s hs => ?_, fun _ => rfl⟩
    rw [← Option.some.inj hs]
    exact hsend
  · rw [if_neg hl]
    by_cases ha : c.lastAcceptedSeq ≠ 0
    · rw [if_pos ha]
      refine ⟨fun shot hs => ?_, fun _ => rfl⟩
      rw [← Option.some.inj hs]
      exact h.accepted ha
    · rw [if_neg ha]
      exact ⟨fun _ hs => absurd hs (Option.some_ne_none _).symm, fun hne => absurd hne ha⟩

/-! ## The two counters -/

/-- The accepted shots, and the changes of the shot on display. -/
def mark (c : Controller) : ℕ × ℕ := (c.lastAcceptedSeq, c.displayShotSeq)

end Controller

/-- A later reading of two counters, the first of which moves only if the second does. -/
structure Later (a b : ℕ × ℕ) : Prop where
  fst : a.1 ≤ b.1
  snd : a.2 ≤ b.2
  same : a.2 = b.2 → a.1 = b.1

theorem Later.refl (a : ℕ × ℕ) : Later a a := ⟨le_rfl, le_rfl, fun _ => rfl⟩

theorem Later.trans {a b c : ℕ × ℕ} (h : Later a b) (h' : Later b c) : Later a c := by
  refine ⟨h.fst.trans h'.fst, h.snd.trans h'.snd, fun heq => ?_⟩
  have hab : a.2 = b.2 := by
    have h₁ := h.snd
    have h₂ := h'.snd
    omega
  exact (h.same hab).trans (h'.same (hab.symm.trans heq))

namespace Controller

theorem mark_advanceAlert (c : Controller) (nowMs : U32) : (c.advanceAlert nowMs).mark = c.mark := by
  obtain ⟨r, alert, beginMs, heq⟩ := c.advanceAlert_rest nowMs
  rw [heq]
  rfl

theorem later_settleFinalize {c : Controller} (h : c.lastAcceptedSeq ≤ c.recorder.finishedSeq) :
    Later c.mark c.settleFinalize.mark := by
  cases hv : c.finalizeOutcome with
  | none =>
    rw [settleFinalize_of_none hv]
    exact .refl _
  | accepted =>
    rw [settleFinalize_of_accepted hv]
    refine ⟨h, Nat.le_succ _, fun heq => ?_⟩
    exact absurd heq (Nat.succ_ne_self c.displayShotSeq).symm
  | rejected =>
    rw [settleFinalize_of_rejected hv]
    exact .refl _

/-- A section accepts a shot only if it changes the shot on display. -/
theorem later_execSection {c : Controller} (h : c.Sendable) (sec : Section) :
    Later c.mark (c.execSection sec).mark := by
  have hdisplay (c' : Controller) (hseq : c'.lastAcceptedSeq = c.lastAcceptedSeq)
      (hnext : c'.displayShotSeq = c.displayShotSeq + 1) : Later c.mark c'.mark :=
    ⟨hseq.ge, by simp [mark, hnext], fun _ => hseq.symm⟩
  cases sec with
  | publishLoadedShot shot => exact hdisplay _ rfl rfl
  | clearLoadedShot => exact hdisplay _ rfl rfl
  | tick i flags saveOk =>
    have hsettle := @later_settleFinalize { c with statusPumpSignalState := i.pumpSignal.state
                                                   recorder := c.recorder.update i }
      (h.acceptedSeq.trans (finishedSeq_update c.recorder i))
    have hmark := mark_advanceAlert
      (settleFinalize { c with statusPumpSignalState := i.pumpSignal.state
                               recorder := c.recorder.update i }) i.nowMs
    show Later c.mark (c.liveTick i).mark
    rw [show (c.liveTick i).mark = _ from hmark]
    exact hsettle
  | contextAction =>
    show Later c.mark c.applyContextAction.mark
    unfold applyContextAction
    split <;> exact .refl _
  | replayTick nowMs pumpOn scale =>
    have hmark := mark_advanceAlert
      { c with statusPumpSignalState := .off
               recorder := c.recorder.update (replayInput nowMs pumpOn scale) } nowMs
    show Later c.mark (c.replayTick nowMs pumpOn scale).mark
    rw [show (c.replayTick nowMs pumpOn scale).mark = c.mark from hmark]
    exact .refl _
  | _ => exact .refl _

/-! ## Renewals -/

/-- The section begins a record, or clears the one there is. -/
def renews (c : Controller) : Section → Bool
  | .clearForSession => true
  | .resetInFlight => true
  | .tick i _ _ =>
    c.recorder.begins i ||
      (c.verdict i = .rejected && (c.recorder.update i).current.phase = .done)
  | .contextAction => c.recorder.current.phase = .done
  | .replayTick nowMs pumpOn scale => c.recorder.begins (replayInput nowMs pumpOn scale)
  | _ => false

/-- The record in flight is the same one as before. -/
structure KeepsRecord (c c' : Controller) : Prop where
  grows : GrowsTo c.recorder.current c'.recorder.current
  idle : c'.recorder.current.phase = .idle ↔ c.recorder.current.phase = .idle

theorem KeepsRecord.refl (c : Controller) : KeepsRecord c c := ⟨.refl _, Iff.rfl⟩

theorem KeepsRecord.of_eq {c c' : Controller} (h : c'.recorder = c.recorder) : KeepsRecord c c' := by
  refine ⟨?_, ?_⟩
  · rw [h]
    exact .refl _
  · rw [h]

/-- A tick that begins no record goes on with the one there is, and so does the alert. -/
theorem keepsRecord_update {c s : Controller} {i : Recorder.Input} (h : c.recorder.Clean)
    (hb : c.recorder.begins i = false) (hs : s.recorder = c.recorder.update i) (nowMs : U32) :
    KeepsRecord c (s.advanceAlert nowMs) := by
  have hgoes : Recorder.GoesOn c.recorder.current (c.recorder.update i).current := by
    obtain ⟨hbegins, -⟩ | ⟨-, hgoes⟩ := Recorder.update_record c.recorder i h
    · rw [hb] at hbegins
      cases hbegins
    · exact hgoes
  obtain ⟨hflight, -⟩ := s.sameRecords_advanceAlert nowMs
  rw [hs] at hflight
  refine ⟨hgoes.grows.trans (growsTo_of_eq hflight.beginMs hflight.samples), ?_⟩
  rw [hflight.phase]
  exact hgoes.idle

/-- **A record grows until it is renewed.** -/
theorem keepsRecord_execSection {c : Controller} (h : c.Sendable) {sec : Section}
    (hr : c.renews sec = false) : KeepsRecord c (c.execSection sec) := by
  cases sec with
  | clearForSession => cases hr
  | resetInFlight => cases hr
  | tick i flags saveOk =>
    simp only [renews, Bool.or_eq_false_iff, Bool.and_eq_false_iff, decide_eq_false_iff_not] at hr
    obtain ⟨hb, hv⟩ := hr
    have hsettle : (settleFinalize { c with
        statusPumpSignalState := i.pumpSignal.state, recorder := c.recorder.update i }).recorder =
        c.recorder.update i := ?settle
    · have hkeeps := keepsRecord_update h.recorder.clean hb hsettle i.nowMs
      exact ⟨hkeeps.grows, hkeeps.idle⟩
    cases hout : finalizeOutcome { c with statusPumpSignalState := i.pumpSignal.state
                                          recorder := c.recorder.update i } with
    | none => rw [settleFinalize_of_none hout]
    | accepted =>
      rw [settleFinalize_of_accepted hout]
      rfl
    | rejected =>
      rw [settleFinalize_of_rejected hout]
      exact if_neg (hv.resolve_left fun hno => hno hout)
  | contextAction =>
    simp only [renews, decide_eq_false_iff_not] at hr
    show KeepsRecord c c.applyContextAction
    unfold applyContextAction
    split
    · next hdone => exact absurd hdone hr
    · exact .refl c
  | replayTick nowMs pumpOn scale =>
    have hkeeps := keepsRecord_update
      (s := { c with statusPumpSignalState := .off
                     recorder := c.recorder.update (replayInput nowMs pumpOn scale) })
      h.recorder.clean hr rfl nowMs
    exact ⟨hkeeps.grows, hkeeps.idle⟩
  | _ => exact .of_eq rfl

theorem phase_of_begins {r : Recorder} {i : Recorder.Input} (h : r.begins i = true) :
    r.current.phase ≠ .running := by
  intro hrunning
  simp [Recorder.begins, Recorder.restarts, hrunning] at h

/-- A record in its pump window is another one once it is renewed. -/
theorem changes_of_renews {c : Controller} (h : c.Sendable) {sec : Section}
    (hr : c.renews sec = true) (hw : c.recorder.current.inPumpWindow = true) :
    (c.execSection sec).recorder.current ≠ c.recorder.current := by
  have hidle {e : Extraction} (he : e.phase = .idle) : e ≠ c.recorder.current := by
    rintro rfl
    simp [Extraction.inPumpWindow, he] at hw
  have hbegins {i : Recorder.Input} (hb : c.recorder.begins i = true) {e : Extraction}
      (he : e.phase = .running) : e ≠ c.recorder.current := by
    rintro rfl
    exact phase_of_begins hb he
  have hupdate {i : Recorder.Input} (hb : c.recorder.begins i = true) :
      (c.recorder.update i).current.phase = .running := by
    obtain ⟨-, hbegun⟩ | ⟨hno, -⟩ := Recorder.update_record c.recorder i h.recorder.clean
    · exact hbegun.phase
    · rw [hb] at hno
      cases hno
  cases sec with
  | clearForSession => exact hidle c.recorder.clear_phase
  | resetInFlight => exact hidle c.recorder.clear_phase
  | tick i flags saveOk =>
    let s : Controller := { c with
      statusPumpSignalState := i.pumpSignal.state, recorder := c.recorder.update i }
    have hphase : (c.liveTick i).recorder.current.phase = s.settleFinalize.recorder.current.phase :=
      (s.settleFinalize.sameRecords_advanceAlert i.nowMs).flight.phase
    simp only [renews, Bool.or_eq_true, Bool.and_eq_true, decide_eq_true_eq] at hr
    obtain hb | ⟨hv, hdone⟩ := hr
    · refine hbegins hb (hphase.trans ?_)
      cases hout : s.finalizeOutcome with
      | none =>
        rw [settleFinalize_of_none hout]
        exact hupdate hb
      | accepted =>
        rw [settleFinalize_of_accepted hout]
        exact hupdate hb
      | rejected =>
        rw [settleFinalize_of_rejected hout]
        have hnot : ¬ s.recorder.current.phase = .done := by
          rw [show s.recorder.current.phase = .running from hupdate hb]
          decide
        rw [if_neg hnot]
        exact hupdate hb
    · refine hidle (hphase.trans ?_)
      have hout : s.finalizeOutcome = .rejected := hv
      rw [settleFinalize_of_rejected hout, if_pos hdone]
      exact (c.recorder.update i).clear_phase
  | contextAction =>
    have hdone : c.recorder.current.phase = .done := of_decide_eq_true hr
    simp [Extraction.inPumpWindow, hdone] at hw
  | replayTick nowMs pumpOn scale =>
    let s : Controller := { c with statusPumpSignalState := .off,
                                   recorder := c.recorder.update (replayInput nowMs pumpOn scale) }
    have hphase : (c.replayTick nowMs pumpOn scale).recorder.current.phase =
        s.recorder.current.phase := (s.sameRecords_advanceAlert nowMs).flight.phase
    exact hbegins hr (hphase.trans (hupdate hr))
  | _ => cases hr

end Controller

end Pumpbug
