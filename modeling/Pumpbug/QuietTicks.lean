import Pumpbug.PumpEdge
import Pumpbug.ScreenLoop

/-!
# Quiet ticks

A live tick asks for no frame exactly if nothing in its input does and no shot is in flight: the pump
is off, outside the pump window.  Such a tick leaves everything the readers see but the frame of the
scale.
-/

namespace Pumpbug

open Lib

namespace Recorder

/-- The recorder is in a phase of the diagram, and remembers the pump as on in `RUNNING` only. -/
structure Resting (r : Recorder) : Prop where
  named : r.current.phase.Named
  off : r.current.phase ≠ .running → r.lastPumpOn = false

theorem resting_init : Resting {} := ⟨Or.inl rfl, fun _ => rfl⟩

theorem SameEdge.trans {r s t : Recorder} (h : SameEdge r s) (h' : SameEdge s t) : SameEdge r t where
  phase := h'.phase.trans h.phase
  totalPumpOnMs := h'.totalPumpOnMs.trans h.totalPumpOnMs
  lastPumpOn := h'.lastPumpOn.trans h.lastPumpOn
  pumpOnIntervalStartMs := h'.pumpOnIntervalStartMs.trans h.pumpOnIntervalStartMs

theorem SameEdge.inPumpWindow {r s : Recorder} (h : SameEdge r s) :
    s.current.inPumpWindow = r.current.inPumpWindow := by
  unfold Extraction.inPumpWindow
  rw [h.phase]

theorem SameEdge.resting {r s : Recorder} (h : SameEdge r s) (hr : r.Resting) : s.Resting where
  named := by
    rw [h.phase]
    exact hr.named
  off := by
    rw [h.phase, h.lastPumpOn]
    exact hr.off

theorem Resting.clear {r : Recorder} (h : r.Resting) : r.clear.Resting := by
  rw [clear_eq]
  split_ifs
  · exact h
  · exact ⟨Or.inl rfl, fun _ => rfl⟩

/-- A tick keeps the recorder at rest; outside the pump window it has found the pump off. -/
theorem resting_update {r : Recorder} (h : r.Resting) (i : Input) :
    (r.update i).Resting ∧
      (¬ (r.update i).current.inPumpWindow = true → i.pumpSignal.isOn = false) := by
  by_cases hrun : r.current.phase = .running
  · rw [update_of_running hrun]
    by_cases hfall : r.falls i = true
    · have hoff : i.pumpSignal.isOn = false := by
        unfold falls at hfall
        simp only [Bool.and_eq_true, Bool.not_eq_true'] at hfall
        exact hfall.1
      rw [if_pos hfall]
      exact ⟨⟨Or.inr (Or.inr (Or.inl rfl)), fun _ => hoff⟩, fun _ => hoff⟩
    · have hphase : (r.sense i).current.phase = .running := by rw [sense_phase, hrun]
      rw [if_neg hfall]
      refine ⟨⟨Or.inr (Or.inl hphase), fun hno => absurd hphase hno⟩, fun hno => ?_⟩
      exact absurd (Extraction.inPumpWindow_iff.2 (Or.inl hphase)) hno
  · obtain ⟨hnamed, hon, hmemory⟩ := update_from_off (i := i) h.named hrun (h.off hrun)
    have hstays : (r.update i).current.phase ≠ .running → i.pumpSignal.isOn = false := by
      intro hno
      by_contra hoff
      apply hno
      exact hon.2 (by simpa using hoff)
    refine ⟨⟨hnamed, fun hno => ?_⟩, fun hno => hstays fun hp => ?_⟩
    · have hoff := hstays hno
      rw [hmemory (by simp [restarts, rises, hoff]), hoff]
    · exact hno (Extraction.inPumpWindow_iff.2 (Or.inl hp))

/-- Outside the pump window, with the pump off, a tick notes the scale's presence and no more. -/
theorem update_quiet {r : Recorder} {i : Input} (h : r.current.phase.Named)
    (hw : ¬ r.current.inPumpWindow = true) (hoff : i.pumpSignal.isOn = false) :
    r.update i = r.sense i := by
  have hrise : ¬ r.rises i = true := by simp [rises, hoff]
  rw [Extraction.inPumpWindow_iff] at hw
  rcases h with hp | hp | hp | hp
  · rw [update_of_idle hp, if_neg hrise]
  · exact absurd (Or.inl hp) hw
  · exact absurd (Or.inr hp) hw
  · rw [update_of_done hp, if_neg hrise]

/-- Outside the pump window, the pump's start begins a shot. -/
theorem update_starts {r : Recorder} {i : Input} (h : r.Resting)
    (hw : ¬ r.current.inPumpWindow = true) (hon : i.pumpSignal.isOn = true) :
    (r.update i).current.phase = .running ∧ (r.update i).finishedSeq = r.finishedSeq := by
  have hrun : r.current.phase ≠ .running := fun hp => hw (Extraction.inPumpWindow_iff.2 (Or.inl hp))
  have hpost : r.current.phase ≠ .postPump := fun hp => hw (Extraction.inPumpWindow_iff.2 (Or.inr hp))
  constructor
  · exact (update_from_off h.named hrun (h.off hrun)).2.1.2 hon
  · apply (update_of_publishes_none _).2
    simp [publishes, finalizes, hpost]

end Recorder

namespace Controller

/-! ## What a tick leaves of the pump -/

theorem sameEdge_runTargetAlert (c : Controller) (nowMs : U32) (phaseRunning : Bool)
    (sample : TrustedYieldSample) (curBeginMs : U32) :
    Recorder.SameEdge c.recorder
      (c.runTargetAlert nowMs phaseRunning sample curBeginMs).recorder := by
  have hstart : Recorder.SameEdge c.recorder (c.startAlert curBeginMs).recorder :=
    c.recorder.sameEdge_setTargetSnapshot _
  have hrefl : Recorder.SameEdge c.recorder c.recorder := ⟨rfl, rfl, rfl, rfl⟩
  unfold runTargetAlert
  by_cases hnew : (phaseRunning && decide (curBeginMs ≠ c.alertShotBeginMs)) = true
  · rw [if_pos hnew]
    dsimp only
    split_ifs
    · exact hstart.trans (Recorder.sameEdge_triggerAlarm _ _)
    · exact hstart
  · rw [if_neg hnew]
    dsimp only
    split_ifs
    · exact Recorder.sameEdge_triggerAlarm _ _
    · exact hrefl

/-- The recorder is at rest, and outside the pump window the pump shows as off. -/
structure Resting (c : Controller) : Prop where
  recorder : c.recorder.Resting
  pumpOff : ¬ c.recorder.current.inPumpWindow = true → c.statusPumpSignalState = .off

theorem resting_init : Resting {} := ⟨Recorder.resting_init, fun _ => rfl⟩

/-- What `Resting` depends on. -/
theorem Resting.of_eq {c c' : Controller} (h : c.Resting) (hrecorder : c'.recorder = c.recorder)
    (hpump : c'.statusPumpSignalState = c.statusPumpSignalState) : c'.Resting where
  recorder := by
    rw [hrecorder]
    exact h.recorder
  pumpOff := by
    rw [hrecorder, hpump]
    exact h.pumpOff

/-- The verdict leaves the recorder at rest, and the pump as the tick found it. -/
theorem resting_settleFinalize {c : Controller} (h : c.Resting) :
    c.settleFinalize.Resting := by
  cases hv : c.finalizeOutcome with
  | none =>
    rw [settleFinalize_of_none hv]
    exact h
  | accepted =>
    rw [settleFinalize_of_accepted hv]
    exact h.of_eq rfl rfl
  | rejected =>
    rw [settleFinalize_of_rejected hv]
    by_cases hdone : c.recorder.current.phase = .done
    · rw [if_pos hdone]
      refine ⟨h.recorder.clear, fun _ => h.pumpOff ?_⟩
      rw [Extraction.inPumpWindow_iff, hdone]
      decide
    · rw [if_neg hdone]
      exact h.of_eq rfl rfl

theorem resting_advanceAlert {c : Controller} (h : c.Resting) (nowMs : U32) :
    (c.advanceAlert nowMs).Resting := by
  have hedge := c.sameEdge_runTargetAlert nowMs (c.recorder.current.phase = .running)
    c.recorder.lastTrustedYieldSample c.recorder.current.beginMs
  obtain ⟨r, alert, beginMs, heq, -⟩ := c.runTargetAlert_frame nowMs
    (c.recorder.current.phase = .running) c.recorder.lastTrustedYieldSample
    c.recorder.current.beginMs
  refine ⟨hedge.resting h.recorder, fun hw => ?_⟩
  have hpump : (c.advanceAlert nowMs).statusPumpSignalState = c.statusPumpSignalState := by
    unfold advanceAlert
    rw [heq]
  rw [hpump]
  apply h.pumpOff
  rwa [← hedge.inPumpWindow]

theorem off_of_not_isOn {o : PumpSignalObservation} (h : o.isOn = false) : o.state = .off := by
  unfold PumpSignalObservation.isOn at h
  simpa using h

theorem resting_liveTick {c : Controller} (h : c.Resting) (i : Recorder.Input) :
    (c.liveTick i).Resting := by
  obtain ⟨hrecorder, hoff⟩ := Recorder.resting_update h.recorder i
  have hupdated : Resting { c with statusPumpSignalState := i.pumpSignal.state
                                   recorder := c.recorder.update i } :=
    ⟨hrecorder, fun hw => off_of_not_isOn (hoff hw)⟩
  exact (resting_advanceAlert (resting_settleFinalize hupdated) i.nowMs).of_eq rfl rfl

theorem resting_replayTick {c : Controller} (h : c.Resting) (nowMs : U32) (pumpOn : Bool)
    (scale : ScaleSnapshot) : (c.replayTick nowMs pumpOn scale).Resting := by
  have hupdated : Resting { c with statusPumpSignalState := .off
                                   recorder := c.recorder.update (replayInput nowMs pumpOn scale) } :=
    ⟨(Recorder.resting_update h.recorder _).1, fun _ => rfl⟩
  exact (resting_advanceAlert hupdated nowMs).of_eq rfl rfl

theorem resting_applyContextAction {c : Controller} (h : c.Resting) :
    c.applyContextAction.Resting := by
  unfold applyContextAction
  split
  · next hdone =>
    refine ⟨h.recorder.clear, fun _ => h.pumpOff ?_⟩
    rw [Extraction.inPumpWindow_iff, hdone]
    decide
  · exact h

/-- Every section of the main task keeps the recorder at rest. -/
theorem resting_execSection {c : Controller} (h : c.Resting) (sec : Section) :
    (c.execSection sec).Resting := by
  cases sec with
  | clearForSession => exact ⟨h.recorder.clear, fun _ => rfl⟩
  | dropPumpSignal => exact ⟨h.recorder, fun _ => rfl⟩
  | resetInFlight => exact ⟨h.recorder.clear, fun _ => rfl⟩
  | tick i flags saveOk => exact resting_liveTick h i
  | contextAction => exact resting_applyContextAction h
  | replayTick nowMs pumpOn scale => exact resting_replayTick h nowMs pumpOn scale
  | _ => exact h.of_eq rfl rfl

theorem resting_performAll {c : Controller} (h : c.Resting) (secs : List Section) :
    (c.performAll secs).Resting := by
  rw [← foldl_trace]
  generalize c.trace secs = secs
  induction secs generalizing c with
  | nil => exact h
  | cons sec secs ih => exact ih (resting_execSection h sec)

/-! ## The tick that asks for no frame -/

section Quiet

variable {c : Controller} {i : Recorder.Input}

/-- A tick outside the pump window, with the pump off. -/
theorem liveTick_quiet (h : c.Resting) (hobs : c.lastObservedFinishedSeq = c.recorder.finishedSeq)
    (hw : ¬ c.recorder.current.inPumpWindow = true) (hoff : i.pumpSignal.isOn = false) :
    ∃ alert : TargetAlert, alert.state.stopNowEdge = false ∧ c.liveTick i =
      { c with
        statusPumpSignalState := .off
        recorder := { c.recorder with lastScalePresent := i.scale.present, lastPumpOn := false }
        targetAlert := alert
        statusScale := i.scale
        statusNowMs := i.nowMs
        replaying := false } := by
  have hsense : c.recorder.sense i =
      { c.recorder with lastScalePresent := i.scale.present, lastPumpOn := false } := by
    unfold Recorder.sense
    rw [if_neg hw, hoff]
  have hrun : ¬ c.recorder.current.phase = .running := fun hp =>
    hw (Extraction.inPumpWindow_iff.2 (Or.inl hp))
  refine ⟨c.targetAlert.update i.nowMs false (c.recorder.sense i).lastTrustedYieldSample,
    TargetAlert.stopNowEdge_of_not_running _ _ _, ?_⟩
  have hnone : finalizeOutcome
      { c with statusPumpSignalState := i.pumpSignal.state
               recorder := c.recorder.sense i } = .none := by
    unfold finalizeOutcome
    rw [if_pos]
    rw [hsense]
    exact congrArg word hobs.symm
  unfold liveTick
  dsimp only
  rw [Recorder.update_quiet h.recorder.named hw hoff, settleFinalize_of_none hnone, hsense,
    off_of_not_isOn hoff]
  unfold advanceAlert runTargetAlert
  simp only [hrun, decide_false, Bool.false_and, Bool.false_eq_true, if_false,
    TargetAlert.stopNowEdge_of_not_running]

theorem frameNeeded_of_quiet (h : c.Resting)
    (hobs : c.lastObservedFinishedSeq = c.recorder.finishedSeq)
    (hw : ¬ c.recorder.current.inPumpWindow = true) (hoff : i.pumpSignal.isOn = false) :
    frameNeeded c (c.liveTick i) {} = false := by
  obtain ⟨alert, hedge, htick⟩ := liveTick_quiet h hobs hw hoff
  rw [htick]
  simp [frameNeeded, hedge, hw]

/-- A tick asks for no frame exactly if it is quiet. -/
theorem frameNeeded_eq_false_iff (i : Recorder.Input) (flags : TickFlags) (h : c.Resting)
    (hobs : c.lastObservedFinishedSeq = c.recorder.finishedSeq) :
    frameNeeded c (c.liveTick i) flags = false ↔
      ¬ c.recorder.current.inPumpWindow = true ∧ i.pumpSignal.isOn = false ∧ flags = {} := by
  constructor
  · intro hno
    simp only [frameNeeded, Bool.or_eq_false_iff, decide_eq_false_iff_not, not_not] at hno
    obtain ⟨⟨⟨⟨⟨⟨⟨hwin, hphase⟩, -⟩, -⟩, hsample⟩, hstate⟩, -⟩, hload⟩ := hno
    have hw : ¬ c.recorder.current.inPumpWindow = true := by
      have hsame : c.recorder.current.inPumpWindow =
          (c.liveTick i).recorder.current.inPumpWindow := by
        unfold Extraction.inPumpWindow
        rw [hphase]
      rw [hsame, hwin]
      decide
    refine ⟨hw, ?_, ?_⟩
    · by_contra hoff
      have hon : i.pumpSignal.isOn = true := by simpa using hoff
      obtain ⟨hstarts, hseq⟩ := Recorder.update_starts h.recorder hw hon
      have hnone : finalizeOutcome
          { c with statusPumpSignalState := i.pumpSignal.state
                   recorder := c.recorder.update i } = .none := by
        unfold finalizeOutcome
        exact if_pos (congrArg word (hseq.trans hobs.symm))
      have hrun := (liveTick_frame (settleFinalize_of_none hnone)).2.2.2.2.2.2.1
      rw [hphase] at hrun
      apply hw
      exact Extraction.inPumpWindow_iff.2 (Or.inl (hrun.trans hstarts))
    · cases flags
      simp_all
  · rintro ⟨hw, hoff, rfl⟩
    exact frameNeeded_of_quiet h hobs hw hoff

/-- A save is due only after a tick that asks for a frame. -/
theorem saveDue_of_quiet (h : c.Resting)
    (hobs : c.lastObservedFinishedSeq = c.recorder.finishedSeq)
    (hatt : c.saveDue = false)
    (hw : ¬ c.recorder.current.inPumpWindow = true) (hoff : i.pumpSignal.isOn = false) :
    (c.liveTick i).saveDue = false := by
  obtain ⟨alert, -, htick⟩ := liveTick_quiet h hobs hw hoff
  rw [htick]
  exact hatt

end Quiet

end Controller

end Pumpbug
