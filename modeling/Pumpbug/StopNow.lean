import Pumpbug.AlarmEvents
import Pumpbug.Graduation

/-!
# STOP_NOW over an extraction

The alert latches, the recorder records once, and the controller resets the alert for a new
extraction, which it knows by its begin time.  The three stay aligned, and the report follows the
extraction's own projection, unless an extraction begins at the reading of the clock that the alert
is kept for.
-/

namespace Pumpbug

open Lib

/-! ## The trusted sample -/

namespace LivePourTracker

/-- The pour bookkeeping leaves the trust alone, and at an untrusted step the pour start. -/
theorem advance_trust (t : LivePourTracker) (s : CausalPourSample) :
    ((t.advanceLivePour s).updateMeaningfulYield s).lastTrustedCg = t.lastTrustedCg ∧
      ((t.advanceLivePour s).updateMeaningfulYield s).lastSampleTrusted = t.lastSampleTrusted ∧
      (s.trustedStep = false →
        ((t.advanceLivePour s).updateMeaningfulYield s).haveFirstStart = t.haveFirstStart ∧
        ((t.advanceLivePour s).updateMeaningfulYield s).firstStartCg = t.firstStartCg) := by
  have hyield : ∀ t : LivePourTracker, t.updateMeaningfulYield s = t ∨
      t.updateMeaningfulYield s = { t with meaningfulYield := true } := by
    intro t
    unfold updateMeaningfulYield
    split_ifs
    · exact Or.inr rfl
    · exact Or.inl rfl
  have hadvance : (t.advanceLivePour s).lastTrustedCg = t.lastTrustedCg ∧
      (t.advanceLivePour s).lastSampleTrusted = t.lastSampleTrusted ∧
      (s.trustedStep = false →
        (t.advanceLivePour s).haveFirstStart = t.haveFirstStart ∧
        (t.advanceLivePour s).firstStartCg = t.firstStartCg) := by
    unfold advanceLivePour
    dsimp only
    by_cases hpour : (isPourBand s.band && s.trustedStep) = true
    · rw [if_pos hpour]
      refine ⟨rfl, rfl, fun hs => ?_⟩
      rw [hs, Bool.and_false] at hpour
      cases hpour
    · rw [if_neg hpour]
      split_ifs <;> exact ⟨rfl, rfl, fun _ => ⟨rfl, rfl⟩⟩
  rcases hyield (t.advanceLivePour s) with h | h
  · rw [h]
    exact hadvance
  · rw [h]
    exact hadvance

/-- An update takes a trusted sample, or leaves the trusted weight and the pour start. -/
theorem update_trust (t : LivePourTracker) (tMs : U32) (cg : I16)
    (h : (t.update tMs cg).lastSampleTrusted = false) :
    (t.update tMs cg).lastTrustedCg = t.lastTrustedCg ∧
      (t.update tMs cg).haveFirstStart = t.haveFirstStart ∧
      (t.update tMs cg).firstStartCg = t.firstStartCg := by
  cases hacc : (t.classifier.update tMs cg).2.accepted with
  | false =>
    have heq : t.update tMs cg = { t with classifier := (t.classifier.update tMs cg).1 } := by
      unfold update
      dsimp only
      rw [hacc, if_pos (by decide)]
    rw [heq]
    exact ⟨rfl, rfl, rfl⟩
  | true =>
    obtain ⟨h₁, h₂, h₃⟩ := advance_trust { t with
      classifier := (t.classifier.update tMs cg).1
      lastTMs := (t.classifier.update tMs cg).2.tMs
      haveSample := true
      prevCg := (t.classifier.update tMs cg).2.rawCg
      lastSampleTrusted := (t.classifier.update tMs cg).2.trustedStep
      lastTrustedCg := if (t.classifier.update tMs cg).2.trustedStep = true then
        (t.classifier.update tMs cg).2.rawCg else t.lastTrustedCg
      lastFlow := (t.classifier.update tMs cg).2.flow
      lastBand := (t.classifier.update tMs cg).2.band } (t.classifier.update tMs cg).2
    unfold update at h ⊢
    dsimp only at h ⊢
    rw [hacc, if_neg (by decide)] at h ⊢
    have hs : (t.classifier.update tMs cg).2.trustedStep = false := h₂.symm.trans h
    refine ⟨h₁.trans (if_neg (by rw [hs]; decide)), h₃ hs⟩

end LivePourTracker

namespace Recorder

/-- The trusted sample is the same one, or a newer one. -/
def SameTrust (r s : Recorder) : Prop :=
  r.lastTrustedSeq < s.lastTrustedSeq ∨
    (s.lastTrustedSeq = r.lastTrustedSeq ∧ s.tracker.lastTrustedCg = r.tracker.lastTrustedCg ∧
      s.tracker.haveFirstStart = r.tracker.haveFirstStart ∧
      s.tracker.firstStartCg = r.tracker.firstStartCg)

theorem sameTrust_sense (r : Recorder) (i : Input) : SameTrust r (r.sense i) := by
  unfold sense
  by_cases hw : r.current.inPumpWindow = true
  · rw [if_pos hw]
    obtain h | h | ⟨rawCg, -, -, -, -, h⟩ := r.recordLiveTick_cases i.scale i.nowMs
    · rw [h]
      exact Or.inr ⟨rfl, rfl, rfl, rfl⟩
    · rw [h]
      exact Or.inr ⟨rfl, rfl, rfl, rfl⟩
    · rw [h]
      unfold acceptSample
      dsimp only
      cases ht : (r.tracker.update i.scale.timestampMs rawCg).lastSampleTrusted with
      | true =>
        left
        have hseq : (if (r.tracker.update i.scale.timestampMs rawCg).lastSampleWasTrusted then
            r.lastTrustedSeq + 1 else r.lastTrustedSeq) = r.lastTrustedSeq + 1 := if_pos ht
        exact (Nat.lt_succ_self _).trans_eq hseq.symm
      | false =>
        right
        refine ⟨?_, LivePourTracker.update_trust _ _ _ ht⟩
        exact if_neg (by unfold LivePourTracker.lastSampleWasTrusted; rw [ht]; decide)
  · rw [if_neg hw]
    exact Or.inr ⟨rfl, rfl, rfl, rfl⟩

/-- What a tick does to the trusted sample: a new record begins without one. -/
theorem update_trust (r : Recorder) (i : Input)
    (hidle : r.current.phase = .idle → r.tracker.haveFirstStart = false) :
    r.lastTrustedSeq ≤ (r.update i).lastTrustedSeq ∧
      (r.begins i = true → (r.update i).tracker.haveFirstStart = false) ∧
      (r.begins i = false → SameTrust r (r.update i)) := by
  have hsense := r.sameTrust_sense i
  have hle : r.lastTrustedSeq ≤ (r.sense i).lastTrustedSeq := by
    rcases hsense with h | h
    · exact h.le
    · exact h.1.ge
  have hseq : (r.update i).lastTrustedSeq = (r.sense i).lastTrustedSeq := by
    cases hp : r.current.phase with
    | idle =>
      rw [update_of_idle hp]
      split_ifs <;> rfl
    | running =>
      rw [update_of_running hp]
      split_ifs <;> rfl
    | postPump =>
      rw [update_of_postPump hp]
      split_ifs
      · rfl
      · rfl
      · cases (r.sense i).endOfShot i.nowMs <;> rfl
    | done =>
      rw [update_of_done hp]
      split_ifs <;> rfl
    | unnamed code hc => rw [update_of_unnamed hp]
  refine ⟨hle.trans hseq.ge, fun hb => ?_, fun hb => ?_⟩
  · obtain ⟨hp, h⟩ | ⟨s, h⟩ := update_of_begins hb
    · have hw : ¬ r.current.inPumpWindow = true := by
        rw [Extraction.inPumpWindow_iff, hp]
        decide
      have hsame : (r.sense i).tracker = r.tracker := by
        unfold sense
        rw [if_neg hw]
      rw [h]
      show (r.sense i).tracker.haveFirstStart = false
      rw [hsame]
      exact hidle hp
    · rw [h]
      rfl
  · have hb' : ¬ r.begins i = true := by
      rw [hb]
      decide
    have htracker : (r.update i).tracker = (r.sense i).tracker := by
      cases hp : r.current.phase with
      | idle => rw [update_of_idle hp, if_neg (begins_of_rises hb' (Or.inl hp))]
      | running =>
        rw [update_of_running hp]
        split_ifs <;> rfl
      | postPump =>
        rw [update_of_postPump hp]
        by_cases hrise : r.rises i = true
        · have hco : (r.sense i).coalesces i.nowMs i.scale = true := by
            by_contra hco
            apply hb'
            unfold begins restarts
            simp [hrise, hp, Bool.eq_false_iff.2 hco]
          rw [if_pos hrise, if_pos hco]
          rfl
        · rw [if_neg hrise]
          cases (r.sense i).endOfShot i.nowMs <;> rfl
      | done => rw [update_of_done hp, if_neg (begins_of_rises hb' (Or.inr hp))]
      | unnamed code hc => rw [update_of_unnamed hp]
    unfold SameTrust
    rw [hseq, htracker]
    exact hsense

/-- The recorder's samples and finished record are the same. -/
structure SameTracking (r s : Recorder) : Prop where
  lastTrustedSeq : s.lastTrustedSeq = r.lastTrustedSeq
  lastTrustedSampleTMs : s.lastTrustedSampleTMs = r.lastTrustedSampleTMs
  tracker : s.tracker = r.tracker
  lastFinished : s.lastFinished = r.lastFinished

theorem SameTracking.trans {r s t : Recorder} (h : SameTracking r s) (h' : SameTracking s t) :
    SameTracking r t :=
  ⟨h'.1.trans h.1, h'.2.trans h.2, h'.3.trans h.3, h'.4.trans h.4⟩

theorem sameTracking_setTargetSnapshot (r : Recorder) (tc : TargetCoeffs) :
    SameTracking r (r.setTargetSnapshot tc) := by
  unfold setTargetSnapshot
  split_ifs <;> exact ⟨rfl, rfl, rfl, rfl⟩

theorem sameTracking_triggerAlarm (r : Recorder) (a : AlarmTrigger) :
    SameTracking r (r.triggerAlarm a) := by
  unfold triggerAlarm
  split_ifs <;> exact ⟨rfl, rfl, rfl, rfl⟩

theorem SameTracking.endpointYieldCg {r s : Recorder} (h : SameTracking r s) (cg : I16) :
    s.endpointYieldCg cg = r.endpointYieldCg cg := by
  unfold Recorder.endpointYieldCg
  rw [h.tracker]

theorem SameTracking.sample {r s : Recorder} (h : SameTracking r s) :
    s.lastTrustedYieldSample = r.lastTrustedYieldSample := by
  unfold lastTrustedYieldSample
  rw [h.lastTrustedSeq, h.lastTrustedSampleTMs, h.tracker, h.endpointYieldCg]

/-- There is no sample to feed, or it is the trusted one. -/
theorem lastTrustedYieldSample_cases (r : Recorder) :
    (r.lastTrustedYieldSample.have_ = false ∧ r.lastTrustedYieldSample.seq = 0) ∨
      (r.lastTrustedYieldSample.have_ = true ∧ r.tracker.haveFirstStart = true ∧
        r.lastTrustedSeq ≠ 0 ∧ r.lastTrustedYieldSample.seq = r.lastTrustedSeq ∧
        r.lastTrustedYieldSample.yieldCg = r.endpointYieldCg r.tracker.lastTrustedCg) := by
  unfold lastTrustedYieldSample
  by_cases hno : (decide (r.lastTrustedSeq = 0) || !r.tracker.hasPourStartWeight) = true
  · rw [if_pos hno]
    exact Or.inl ⟨rfl, rfl⟩
  · rw [if_neg hno]
    rw [Bool.or_eq_true, not_or, decide_eq_true_eq] at hno
    exact Or.inr ⟨rfl, by simpa [LivePourTracker.hasPourStartWeight] using hno.2, hno.1, rfl, rfl⟩

theorem SameFlight.trans {r s t : Recorder} (h : SameFlight r s) (h' : SameFlight s t) :
    SameFlight r t :=
  ⟨h'.phase.trans h.phase, h'.beginMs.trans h.beginMs, h'.samples.trans h.samples⟩

theorem keepsAlarm_setTargetSnapshot (r : Recorder) (tc : TargetCoeffs) :
    KeepsAlarm r.current (r.setTargetSnapshot tc).current := by
  unfold setTargetSnapshot
  split_ifs <;> exact ⟨rfl, le_rfl⟩

end Recorder

/-! ## The alert -/

namespace TargetAlert

/-- The samples taken in, with the settings, project an enabled target. -/
def projectsTarget (t : TargetAlert) (nowMs : U32) : Bool :=
  t.haveSample && t.coeffs.armed && 0 < t.coeffs.targetCg.toInt &&
    t.coeffs.targetCg.toInt ≤ (t.projectedCg (t.validFlow nowMs)).toInt

/-- The same settings and the same samples, whatever number the latest of none had. -/
structure SameEstimate (t u : TargetAlert) : Prop where
  coeffs : u.coeffs = t.coeffs
  flow : u.flow = t.flow
  haveSample : u.haveSample = t.haveSample
  lastYieldCg : u.lastYieldCg = t.lastYieldCg
  haveLastSeq : u.haveLastSeq = t.haveLastSeq
  lastSeq : t.haveLastSeq = true → u.lastSeq = t.lastSeq

theorem SameEstimate.projectsTarget {t u : TargetAlert} (h : SameEstimate t u) (nowMs : U32) :
    u.projectsTarget nowMs = t.projectsTarget nowMs := by
  unfold TargetAlert.projectsTarget projectedCg validFlow overshootCg
  rw [h.coeffs, h.flow, h.haveSample, h.lastYieldCg]

/-- Both take in a sample, or neither. -/
theorem SameEstimate.ingest {t u : TargetAlert} (h : SameEstimate t u) (running : Bool)
    (sample : TrustedYieldSample) :
    SameEstimate (t.ingest running sample) (u.ingest running sample) := by
  have hnew : (!u.haveLastSeq || decide (sample.seq ≠ u.lastSeq)) =
      (!t.haveLastSeq || decide (sample.seq ≠ t.lastSeq)) := by
    rw [h.haveLastSeq]
    cases hhave : t.haveLastSeq with
    | false => rfl
    | true => rw [h.lastSeq hhave]
  unfold TargetAlert.ingest
  dsimp only
  rw [hnew, h.flow]
  split_ifs
  · exact ⟨h.coeffs, rfl, rfl, rfl, rfl, fun _ => rfl⟩
  · exact ⟨h.coeffs, rfl, rfl, rfl, h.haveLastSeq, h.lastSeq⟩
  · exact h

/-- The alert has only fired for an enabled target and on a sample. -/
def Armed (t : TargetAlert) : Prop :=
  t.stopNowFired = true → t.haveSample = true ∧ t.coeffs.armed = true ∧ 0 < t.coeffs.targetCg.toInt

theorem ingest_fired (t : TargetAlert) (running : Bool) (sample : TrustedYieldSample) :
    (t.ingest running sample).stopNowFired = t.stopNowFired ∧
      (t.ingest running sample).coeffs = t.coeffs ∧
      (t.haveSample = true → (t.ingest running sample).haveSample = true) := by
  unfold ingest
  dsimp only
  split_ifs
  · exact ⟨rfl, rfl, fun _ => rfl⟩
  · exact ⟨rfl, rfl, fun _ => rfl⟩
  · exact ⟨rfl, rfl, id⟩

/-- A sample that counts is the alert's latest, and one with the same number adds nothing to the
flow. -/
theorem ingest_taken (t : TargetAlert) {sample : TrustedYieldSample} (h : sample.have_ = true) :
    (t.ingest true sample).haveLastSeq = true ∧ (t.ingest true sample).lastSeq = sample.seq ∧
      (t.ingest true sample).lastYieldCg = sample.yieldCg ∧
      (t.haveLastSeq = true → sample.seq = t.lastSeq → (t.ingest true sample).flow = t.flow) := by
  unfold ingest
  rw [h]
  dsimp only
  rw [if_pos (Bool.and_self true)]
  by_cases hnew : (!t.haveLastSeq || decide (sample.seq ≠ t.lastSeq)) = true
  · rw [if_pos hnew]
    refine ⟨rfl, rfl, rfl, fun hhave heq => ?_⟩
    rw [hhave, heq] at hnew
    simp at hnew
  · rw [if_neg hnew]
    rw [Bool.or_eq_true, not_or, decide_eq_true_eq, not_not] at hnew
    exact ⟨by simpa using hnew.1, hnew.2.symm, rfl, fun _ _ => rfl⟩

/-- A tick without a sample leaves what the alert holds. -/
theorem ingest_held (t : TargetAlert) {sample : TrustedYieldSample} (h : sample.have_ = false) :
    t.ingest true sample = t := by
  unfold ingest
  rw [h]
  exact if_neg (by decide)

/-- One tick of the alert on a running shot. -/
theorem update_running {t : TargetAlert} (nowMs : U32) (sample : TrustedYieldSample) (h : t.Armed) :
    (t.update nowMs true sample).stopNowFired =
        (t.stopNowFired || (t.ingest true sample).projectsTarget nowMs) ∧
      (t.update nowMs true sample).state.stopNowEdge =
        (!t.stopNowFired && (t.update nowMs true sample).stopNowFired) ∧
      ((t.update nowMs true sample).state.level = .stopNow ↔
        (t.update nowMs true sample).stopNowFired = true) ∧
      (t.update nowMs true sample).Armed := by
  obtain ⟨hfired, hcoeffs, hsample⟩ := t.ingest_fired true sample
  have hreach : (t.ingest true sample).projectsTarget nowMs =
      ((t.ingest true sample).coeffs.armed && 0 < (t.ingest true sample).coeffs.targetCg.toInt &&
        true && (t.ingest true sample).haveSample &&
        (t.ingest true sample).coeffs.targetCg.toInt ≤
          ((t.ingest true sample).projectedCg ((t.ingest true sample).validFlow nowMs)).toInt) := by
    unfold projectsTarget
    rw [Bool.and_true, Bool.and_assoc (t.ingest true sample).haveSample,
      Bool.and_comm (t.ingest true sample).haveSample]
  have hstop : (t.update nowMs true sample).stopNowFired =
      (t.stopNowFired || (t.ingest true sample).projectsTarget nowMs) := by
    rw [hreach, ← hfired]
    rfl
  have harmed : (t.update nowMs true sample).Armed := by
    intro hf
    rw [hstop, Bool.or_eq_true] at hf
    rcases hf with hf | hf
    · obtain ⟨h₁, h₂, h₃⟩ := h hf
      refine ⟨hsample h₁, ?_, ?_⟩
      · show (t.ingest true sample).coeffs.armed = true
        rw [hcoeffs]
        exact h₂
      · show 0 < (t.ingest true sample).coeffs.targetCg.toInt
        rw [hcoeffs]
        exact h₃
    · unfold projectsTarget at hf
      simp only [Bool.and_eq_true, decide_eq_true_eq] at hf
      exact ⟨hf.1.1.1, hf.1.1.2, hf.1.2⟩
  refine ⟨hstop, ?_, ?_, harmed⟩
  · rw [← hfired]
    rfl
  · constructor
    · intro hl
      by_contra hf
      have hf' : ((t.ingest true sample).stopNowFired || _) = false := Bool.eq_false_iff.2 hf
      unfold update at hl
      dsimp only at hl
      rw [hf', Bool.and_false, if_neg Bool.false_ne_true] at hl
      split_ifs at hl
    · intro hf
      obtain ⟨h₁, h₂, h₃⟩ := harmed hf
      have h₁' : (t.ingest true sample).haveSample = true := h₁
      have h₂' : (t.ingest true sample).coeffs.armed = true := h₂
      have h₃' : 0 < (t.ingest true sample).coeffs.targetCg.toInt := h₃
      have hf' : ((t.ingest true sample).stopNowFired || _) = true := hf
      unfold update
      dsimp only
      rw [if_pos]
      rw [hf', h₁', h₂', decide_eq_true h₃']
      rfl

/-- One tick of the alert while the pump is off. -/
theorem update_off (t : TargetAlert) (nowMs : U32) (sample : TrustedYieldSample) :
    (t.update nowMs false sample).stopNowFired = t.stopNowFired ∧
      (t.update nowMs false sample).coeffs = t.coeffs ∧
      (t.update nowMs false sample).haveSample = t.haveSample ∧
      (t.update nowMs false sample).haveLastSeq = t.haveLastSeq ∧
      (t.update nowMs false sample).lastSeq = t.lastSeq ∧
      (t.update nowMs false sample).lastYieldCg = t.lastYieldCg ∧
      (t.update nowMs false sample).flow = t.flow := by
  refine ⟨?_, rfl, rfl, rfl, rfl, rfl, rfl⟩
  unfold update
  dsimp only
  rw [Bool.and_false, Bool.false_and, Bool.false_and, Bool.or_false]
  rfl

end TargetAlert

namespace Controller

/-- The alert's part of a tick while the pump is off. -/
theorem advanceAlert_off {c : Controller} (nowMs : U32) (h : c.recorder.current.phase ≠ .running) :
    c.advanceAlert nowMs =
      { c with targetAlert := c.targetAlert.update nowMs false c.recorder.lastTrustedYieldSample } := by
  unfold advanceAlert runTargetAlert
  rw [decide_eq_false h]
  simp only [Bool.false_and, Bool.false_eq_true, if_false]
  rw [TargetAlert.stopNowEdge_of_not_running, if_neg Bool.false_ne_true]

/-- The alert and the record that the alert's part of a tick starts from: new ones for a new
shot. -/
def tracked (c : Controller) : TargetAlert × Recorder :=
  if c.recorder.current.beginMs ≠ c.alertShotBeginMs then
    (c.targetAlert.onRunningEntry.setCoeffs c.targetCoeffs,
      c.recorder.setTargetSnapshot c.targetCoeffs)
  else (c.targetAlert, c.recorder)

/-- The alert's part of a tick on a running shot. -/
theorem advanceAlert_running {c : Controller} (nowMs : U32)
    (h : c.recorder.current.phase = .running) :
    (c.advanceAlert nowMs).targetAlert =
        c.tracked.1.update nowMs true c.recorder.lastTrustedYieldSample ∧
      (c.advanceAlert nowMs).alertShotBeginMs = c.recorder.current.beginMs ∧
      (c.advanceAlert nowMs).recorder =
        if (c.advanceAlert nowMs).targetAlert.state.stopNowEdge then
          c.tracked.2.triggerAlarm
            { tMs := nowMs, ctx := (c.advanceAlert nowMs).targetAlert.snapshotAtStop }
        else c.tracked.2 := by
  unfold advanceAlert runTargetAlert tracked
  rw [decide_eq_true h, Bool.true_and]
  by_cases hnew : c.recorder.current.beginMs ≠ c.alertShotBeginMs
  · rw [decide_eq_true hnew, if_pos rfl, if_pos hnew]
    dsimp only
    split_ifs <;> exact ⟨rfl, rfl, rfl⟩
  · rw [decide_eq_false hnew, if_neg Bool.false_ne_true, if_neg hnew]
    have hkey : c.alertShotBeginMs = c.recorder.current.beginMs := (not_not.1 hnew).symm
    dsimp only
    split_ifs
    · exact ⟨rfl, hkey, rfl⟩
    · exact ⟨rfl, hkey, rfl⟩

theorem advanceAlert_targetCoeffs (c : Controller) (nowMs : U32) :
    c.targetCoeffs = (c.advanceAlert nowMs).targetCoeffs := by
  unfold advanceAlert runTargetAlert startAlert
  dsimp only
  split_ifs <;> rfl

/-- The locked part of a live tick before the alert's. -/
def settled (c : Controller) (i : Recorder.Input) : Controller :=
  { c with statusPumpSignalState := i.pumpSignal.state,
           recorder := c.recorder.update i }.settleFinalize

theorem liveTick_alert (c : Controller) (i : Recorder.Input) :
    (c.liveTick i).recorder = ((c.settled i).advanceAlert i.nowMs).recorder ∧
      (c.liveTick i).targetAlert = ((c.settled i).advanceAlert i.nowMs).targetAlert ∧
      (c.liveTick i).alertShotBeginMs = ((c.settled i).advanceAlert i.nowMs).alertShotBeginMs :=
  ⟨rfl, rfl, rfl⟩

theorem settled_alert (c : Controller) (i : Recorder.Input) :
    (c.settled i).targetAlert = c.targetAlert ∧
      (c.settled i).alertShotBeginMs = c.alertShotBeginMs ∧
      ((c.settled i).recorder = c.recorder.update i ∨
        (c.recorder.update i).current.phase = .done ∧
          (c.settled i).recorder = (c.recorder.update i).clear) := by
  unfold settled
  cases hf : ({ c with statusPumpSignalState := i.pumpSignal.state,
                       recorder := c.recorder.update i } : Controller).finalizeOutcome with
  | none =>
    rw [settleFinalize_of_none hf]
    exact ⟨rfl, rfl, Or.inl rfl⟩
  | accepted =>
    rw [settleFinalize_of_accepted hf]
    exact ⟨rfl, rfl, Or.inl rfl⟩
  | rejected =>
    rw [settleFinalize_of_rejected hf]
    refine ⟨rfl, rfl, ?_⟩
    dsimp only
    split_ifs with hdone
    · exact Or.inr ⟨hdone, rfl⟩
    · exact Or.inl rfl

end Controller

/-! ## What is to be recorded -/

/-- The controller's runs, with what the alert has reported of the extraction in flight. -/
structure AlertLog where
  loop : MainLoop := {}
  /-- The extraction's own estimate: its settings, and the trusted samples of its `RUNNING` ticks. -/
  own : TargetAlert := {}
  /-- That estimate has projected the target at a `RUNNING` tick of the extraction. -/
  reached : Bool := false
  /-- The values of the first `RUNNING` tick of the extraction that reported `STOP_NOW`. -/
  reported : Option AlarmTrigger := none
  /-- The same for the latest finished extraction. -/
  finishedReport : Option AlarmTrigger := none

namespace AlertLog

/-- What the recorder is fed, where the call is a tick. -/
def tickInput (s : MainLoop) : MainLoop.Op → Option Recorder.Input
  | .tick i _ _ _ _ => if s.replaying then none else some i
  | .replayTick nowMs pumpOn scale =>
    if s.replaying then some (Controller.replayInput nowMs pumpOn scale) else none
  | _ => none

/-- A report that stands, or the first one. -/
def firstReport (reported : Option AlarmTrigger) (nowMs : U32) (running : Bool) (alert : TargetAlert) :
    Option AlarmTrigger :=
  match reported with
  | some report => some report
  | none =>
    if running ∧ alert.state.level = .stopNow then
      some { tMs := nowMs, ctx := alert.snapshotAtStop }
    else none

/-- A new extraction is estimated anew, with the settings of its first tick. -/
def ownBefore (own : TargetAlert) (begun : Bool) (coeffs : TargetCoeffs) : TargetAlert :=
  if begun then ({} : TargetAlert).setCoeffs coeffs else own

def step (a : AlertLog) (op : MainLoop.Op) : AlertLog :=
  let loop := a.loop.step op
  match tickInput a.loop op with
  | none => { a with loop := loop }
  | some i =>
    let begun := a.loop.controller.recorder.begins i
    let alert := loop.controller.targetAlert
    let running : Bool := loop.controller.recorder.current.phase = .running
    let own := (ownBefore a.own begun loop.controller.targetCoeffs).ingest running
      loop.controller.recorder.lastTrustedYieldSample
    { loop := loop
      own := own
      reached := (!begun && a.reached) || (running && own.projectsTarget i.nowMs)
      reported := firstReport (if begun then none else a.reported) i.nowMs running alert
      finishedReport :=
        if (a.loop.controller.recorder.publishes i).isSome then a.reported else a.finishedReport }

/-- The recorded alarm is the reported one. -/
def Records (alarm : AlarmTrigger) : Option AlarmTrigger → Prop
  | none => alarm.tMs = 0
  | some report => alarm = report ∧ report.tMs ≠ 0

theorem Records.tMs_ne {alarm : AlarmTrigger} {o : Option AlarmTrigger} (h : Records alarm o)
    (ho : o.isSome = true) : alarm.tMs ≠ 0 := by
  cases o with
  | none => cases ho
  | some report =>
    rw [h.1]
    exact h.2

def recorder (a : AlertLog) : Recorder := a.loop.controller.recorder
def alert (a : AlertLog) : TargetAlert := a.loop.controller.targetAlert

/-- What one call may do. -/
structure Sound (a : AlertLog) (op : MainLoop.Op) : Prop where
  /-- No record lists a second alarm. -/
  once : (a.step op).recorder.current.alarms ≤ 1 ∧ (a.step op).recorder.lastFinished.alarms ≤ 1
  /-- The alarm context is the first report's. -/
  context : (a.step op).recorder.current.phase ≠ .idle →
    Records (a.step op).recorder.current.alarm (a.step op).reported
  finished : Records (a.step op).recorder.lastFinished.alarm (a.step op).finishedReport
  /-- `STOP_NOW` is reported from the tick on at which the extraction's own projection reaches the
  target. -/
  level : ∀ i, tickInput a.loop op = some i → (a.step op).recorder.current.phase = .running →
    ((a.step op).alert.state.level = .stopNow ↔ (a.step op).reached = true)
  /-- Repeated samples, and ticks without the pump, change no estimate. -/
  held : ∀ i, tickInput a.loop op = some i →
    (a.step op).recorder.current.phase ≠ .running ∨
      (a.alert.haveLastSeq = true ∧
        (a.step op).recorder.lastTrustedYieldSample.seq = a.alert.lastSeq) →
    (a.step op).alert.lastYieldCg = a.alert.lastYieldCg ∧ (a.step op).alert.flow = a.alert.flow

/-- No extraction begins at the reading of the clock that the alert is kept for. -/
def Safe (a : AlertLog) (op : MainLoop.Op) : Prop :=
  ∀ i ∈ tickInput a.loop op, a.recorder.begins i = true →
    i.nowMs ≠ a.loop.controller.alertShotBeginMs

instance (a : AlertLog) (op : MainLoop.Op) : Decidable (Safe a op) := by
  unfold Safe
  infer_instance

/-- The time of a tick. -/
def tickMs : MainLoop.Op → Option U32
  | .tick i _ _ _ _ => some i.nowMs
  | .replayTick nowMs _ _ => some nowMs
  | _ => none

/-! ## The latch, the record and the key stay aligned -/

structure Aligned (a : AlertLog) : Prop where
  clean : a.recorder.Clean
  idle : a.recorder.current.phase = .idle →
    a.recorder.current.NoAlarm ∧ a.recorder.tracker.haveFirstStart = false
  key : a.recorder.current.inPumpWindow = true →
    a.loop.controller.alertShotBeginMs = a.recorder.current.beginMs
  armed : a.alert.Armed
  own : a.recorder.current.inPumpWindow = true → a.alert.SameEstimate a.own
  reached : a.recorder.current.inPumpWindow = true → a.alert.stopNowFired = a.reached
  reported : a.recorder.current.inPumpWindow = true → a.reported.isSome = a.reached
  context : a.recorder.current.phase ≠ .idle → Records a.recorder.current.alarm a.reported ∧
    a.recorder.current.alarms ≤ if a.reported.isSome then 1 else 0
  finished : Records a.recorder.lastFinished.alarm a.finishedReport ∧
    a.recorder.lastFinished.alarms ≤ 1
  seq : a.alert.haveLastSeq = true →
    a.alert.lastSeq ≠ 0 ∧ a.alert.lastSeq ≤ a.recorder.lastTrustedSeq
  yield : a.alert.haveLastSeq = true → a.recorder.lastTrustedSeq = a.alert.lastSeq →
    a.recorder.tracker.haveFirstStart = true →
    a.recorder.endpointYieldCg a.recorder.tracker.lastTrustedCg = a.alert.lastYieldCg

theorem aligned_init : Aligned {} :=
  ⟨fun _ => rfl, fun _ => ⟨⟨rfl, rfl⟩, rfl⟩, nofun, nofun, nofun, nofun, nofun,
    fun h => absurd rfl h, ⟨rfl, Nat.zero_le _⟩, nofun, nofun⟩

/-- The call leaves the recorder and the alert, or clears the recorder and perhaps resets the
alert. -/
theorem aligned_clear {a a' : AlertLog} (h : a.Aligned)
    (hrec : a'.recorder = a.recorder.clear)
    (halert : a'.alert = a.alert ∨ a'.alert = a.alert.reset)
    (hfin : a'.finishedReport = a.finishedReport) : a'.Aligned := by
  have hphase : a'.recorder.current.phase = .idle := by
    rw [hrec]
    exact a.recorder.clear_phase
  have hw : ¬ a'.recorder.current.inPumpWindow = true := by
    rw [Extraction.inPumpWindow_iff, hphase]
    decide
  have hclear : a.recorder.clear = a.recorder ∧ a.recorder.current.phase = .idle ∨
      a.recorder.clear = a.recorder.enterIdle := by
    rw [Recorder.clear_eq]
    by_cases hp : a.recorder.current.phase = .idle
    · rw [if_pos hp]
      exact Or.inl ⟨rfl, hp⟩
    · rw [if_neg hp]
      exact Or.inr rfl
  have hseq : a'.alert.haveLastSeq = true →
      a.alert.haveLastSeq = true ∧ a'.alert.lastSeq = a.alert.lastSeq ∧
        a'.alert.lastYieldCg = a.alert.lastYieldCg := by
    rcases halert with ha | ha
    · rw [ha]
      exact fun hh => ⟨hh, rfl, rfl⟩
    · rw [ha]
      exact nofun
  have harmed : a'.alert.Armed := by
    rcases halert with ha | ha
    · rw [ha]
      exact h.armed
    · rw [ha]
      exact nofun
  have hfirst : a'.recorder.tracker.haveFirstStart = false := by
    rw [hrec]
    rcases hclear with ⟨hc, hp⟩ | hc
    · rw [hc]
      exact (h.idle hp).2
    · rw [hc]
      rfl
  refine ⟨?_, fun _ => ⟨?_, hfirst⟩, fun hin => absurd hin hw, harmed, fun hin => absurd hin hw,
    fun hin => absurd hin hw, fun hin => absurd hin hw, fun hne => absurd hphase hne, ?_, ?_, ?_⟩
  · rw [hrec]
    exact Recorder.clean_clear h.clean
  · rw [hrec]
    rcases hclear with ⟨hc, hp⟩ | hc
    · rw [hc]
      exact (h.idle hp).1
    · rw [hc]
      exact Recorder.noAlarm_fresh
  · rw [hrec, hfin]
    rcases hclear with ⟨hc, -⟩ | hc
    · rw [hc]
      exact h.finished
    · rw [hc]
      exact h.finished
  · intro hh
    obtain ⟨hh', hl, -⟩ := hseq hh
    have hsame : a.recorder.clear.lastTrustedSeq = a.recorder.lastTrustedSeq := by
      rcases hclear with ⟨hc, -⟩ | hc
      · rw [hc]
      · rw [hc]
        rfl
    rw [hl, hrec, hsame]
    exact h.seq hh'
  · intro _ _ hstart
    exact absurd (hstart.symm.trans hfirst) nofun

/-! ## The tick -/

/-- The recorder as the alert finds it in a tick. -/
def Fed (r : Recorder) (i : Recorder.Input) (r₁ : Recorder) : Prop :=
  r₁ = r.update i ∨ (r.update i).current.phase = .done ∧ r₁ = (r.update i).clear

/-- A tick, live or replayed, advances the recorder and then the alert. -/
theorem loop_tick {s : MainLoop} {op : MainLoop.Op} {i : Recorder.Input}
    (h : tickInput s op = some i) :
    ∃ c : Controller, Fed s.controller.recorder i c.recorder ∧
      c.targetAlert = s.controller.targetAlert ∧
      c.alertShotBeginMs = s.controller.alertShotBeginMs ∧
      c.targetCoeffs = (s.step op).controller.targetCoeffs ∧
      (s.step op).controller.recorder = (c.advanceAlert i.nowMs).recorder ∧
      (s.step op).controller.targetAlert = (c.advanceAlert i.nowMs).targetAlert ∧
      (s.step op).controller.alertShotBeginMs = (c.advanceAlert i.nowMs).alertShotBeginMs := by
  cases op with
  | tick j a b load ok =>
    cases hr : s.replaying with
    | true =>
      have hnone : tickInput s (.tick j a b load ok) = none := if_pos hr
      rw [hnone] at h
      cases h
    | false =>
      have hsome : tickInput s (.tick j a b load ok) = some j := if_neg (by rw [hr]; decide)
      rw [hsome] at h
      cases h
      obtain ⟨has, shot, seq, liveSeq, c, hc, -, hstep⟩ := MainLoop.step_tick i a b load ok hr
      obtain ⟨hrec, halert, hkey⟩ := c.liveTick_alert i
      obtain ⟨halert', hkey', hfed⟩ := c.settled_alert i
      have hsame : c.recorder = s.controller.recorder ∧ c.targetAlert = s.controller.targetAlert ∧
          c.alertShotBeginMs = s.controller.alertShotBeginMs := by
        rw [hc]
        exact ⟨rfl, rfl, rfl⟩
      obtain ⟨h₁, h₂, h₃⟩ := hsame
      rw [h₁] at hfed
      rw [hstep]
      exact ⟨c.settled i, hfed, halert'.trans h₂, hkey'.trans h₃,
        (c.settled i).advanceAlert_targetCoeffs i.nowMs, hrec, halert, hkey⟩
  | replayTick nowMs pumpOn scale =>
    cases hr : s.replaying with
    | false =>
      have hnone : tickInput s (.replayTick nowMs pumpOn scale) = none :=
        if_neg (by rw [hr]; decide)
      rw [hnone] at h
      cases h
    | true =>
      have hsome : tickInput s (.replayTick nowMs pumpOn scale) =
        some (Controller.replayInput nowMs pumpOn scale) := if_pos hr
      rw [hsome] at h
      cases h
      have hstep : s.step (.replayTick nowMs pumpOn scale) =
          { s with controller := (s.controller.replayTick nowMs pumpOn scale).notify } := if_pos hr
      obtain ⟨c, hc⟩ : ∃ c : Controller, c = { s.controller with
          statusPumpSignalState := .off
          recorder := s.controller.recorder.update
            (Controller.replayInput nowMs pumpOn scale) } := ⟨_, rfl⟩
      have hreplay : s.controller.replayTick nowMs pumpOn scale =
          { c.advanceAlert nowMs with
            statusScale := scale, statusNowMs := nowMs, replaying := true } := by
        rw [hc]
        rfl
      have hsame : c.recorder = s.controller.recorder.update
            (Controller.replayInput nowMs pumpOn scale) ∧
          c.targetAlert = s.controller.targetAlert ∧
          c.alertShotBeginMs = s.controller.alertShotBeginMs := by
        rw [hc]
        exact ⟨rfl, rfl, rfl⟩
      obtain ⟨h₁, h₂, h₃⟩ := hsame
      rw [hstep, hreplay]
      exact ⟨c, .inl h₁, h₂, h₃, c.advanceAlert_targetCoeffs nowMs, rfl, rfl, rfl⟩
  | _ => cases h

/-- Between the recorder's and the alert's part of a tick. -/
structure Between (a : AlertLog) (i : Recorder.Input) (r : Recorder) : Prop where
  clean : r.Clean
  idle : r.current.phase = .idle → r.current.NoAlarm ∧ r.tracker.haveFirstStart = false
  begun : a.recorder.begins i = true → r.current.phase = .running ∧ r.current.beginMs = i.nowMs ∧
    r.current.NoAlarm ∧ r.tracker.haveFirstStart = false
  goesOn : a.recorder.begins i = false → r.current.inPumpWindow = true →
    a.recorder.current.inPumpWindow = true ∧ r.current.beginMs = a.recorder.current.beginMs
  context : a.recorder.begins i = false → r.current.phase ≠ .idle →
    Records r.current.alarm a.reported ∧ r.current.alarms ≤ if a.reported.isSome then 1 else 0
  finished : Records r.lastFinished.alarm
      (if (a.recorder.publishes i).isSome then a.reported else a.finishedReport) ∧
    r.lastFinished.alarms ≤ 1
  seq : a.alert.haveLastSeq = true →
    a.alert.lastSeq ≠ 0 ∧ a.alert.lastSeq ≤ r.lastTrustedSeq
  yield : a.alert.haveLastSeq = true → r.lastTrustedSeq = a.alert.lastSeq →
    r.tracker.haveFirstStart = true →
    r.endpointYieldCg r.tracker.lastTrustedCg = a.alert.lastYieldCg

theorem Records.keeps {e e' : Extraction} {o : Option AlarmTrigger} (h : KeepsAlarm e e')
    (hr : Records e.alarm o ∧ e.alarms ≤ if o.isSome then 1 else 0) :
    Records e'.alarm o ∧ e'.alarms ≤ if o.isSome then 1 else 0 :=
  ⟨by rw [h.alarm]; exact hr.1, h.alarms.trans hr.2⟩

/-- The recorder's part of a tick. -/
theorem between_update {a : AlertLog} (i : Recorder.Input) (h : a.Aligned) :
    Between a i (a.recorder.update i) := by
  have halarm := a.recorder.update_alarm i fun hp => (h.idle hp).1
  obtain ⟨hseq, hbegun, htrust⟩ := a.recorder.update_trust i fun hp => (h.idle hp).2
  have hrecord := a.recorder.update_record i h.clean
  have hgoes : a.recorder.begins i = false →
      Recorder.GoesOn a.recorder.current (a.recorder.update i).current := by
    intro hb
    rcases hrecord with ⟨hb', -⟩ | ⟨-, hg⟩
    · exact absurd (hb'.symm.trans hb) nofun
    · exact hg
  refine ⟨Recorder.clean_update i h.clean, ?_, ?_, ?_, ?_, ?_, ?_, ?_⟩
  · intro hp
    cases hb : a.recorder.begins i with
    | true =>
      rcases hrecord with ⟨-, hb'⟩ | ⟨hb', -⟩
      · exact absurd (hb'.phase.symm.trans hp) nofun
      · exact absurd (hb'.symm.trans hb) nofun
    | false =>
      have hidle := (hgoes hb).idle.1 hp
      refine ⟨(halarm.2 hb).noAlarm (h.idle hidle).1, ?_⟩
      rcases htrust hb with hlt | ⟨-, -, hfirst, -⟩
      · exfalso
        have hw : ¬ a.recorder.current.inPumpWindow = true := by
          rw [Extraction.inPumpWindow_iff, hidle]
          decide
        have hno : ¬ a.recorder.rises i = true := by
          apply Recorder.begins_of_rises _ (Or.inl hidle)
          rw [hb]
          decide
        rw [Recorder.update_of_idle hidle, if_neg hno] at hlt
        unfold Recorder.sense at hlt
        rw [if_neg hw] at hlt
        exact absurd hlt (lt_irrefl _)
      · exact hfirst.trans (h.idle hidle).2
  · intro hb
    rcases hrecord with ⟨-, hnew⟩ | ⟨hb', -⟩
    · exact ⟨hnew.phase, hnew.beginMs, halarm.1 hb, hbegun hb⟩
    · exact absurd (hb'.symm.trans hb) nofun
  · intro hb hw
    exact ⟨(hgoes hb).window hw, (hgoes hb).grows.1⟩
  · intro hb hp
    have hp' : a.recorder.current.phase ≠ .idle := fun hidle => hp ((hgoes hb).idle.2 hidle)
    exact Records.keeps (halarm.2 hb) (h.context hp')
  · cases hpub : a.recorder.publishes i with
    | none =>
      rw [(Recorder.update_of_publishes_none hpub).1]
      exact h.finished
    | some shot =>
      rw [(Recorder.update_of_publishes hpub).1]
      unfold Recorder.publishes at hpub
      obtain ⟨cause, hcause, hshot⟩ := Option.map_eq_some_iff.1 hpub
      have hp : a.recorder.current.phase ≠ .idle := by
        rw [Recorder.phase_of_finalizes hcause]
        decide
      obtain ⟨hctx, hle⟩ := Records.keeps (@Recorder.finished_alarm a.recorder i cause) (h.context hp)
      rw [← hshot]
      refine ⟨hctx, hle.trans ?_⟩
      split_ifs <;> decide
  · intro hh
    obtain ⟨hne, hle⟩ := h.seq hh
    exact ⟨hne, hle.trans hseq⟩
  · intro hh heq hfirst
    cases hb : a.recorder.begins i with
    | true => exact absurd (hfirst.symm.trans (hbegun hb)) nofun
    | false =>
      rcases htrust hb with hlt | ⟨hs, hcg, hstart, hfirstCg⟩
      · have hle := (h.seq hh).2
        omega
      · rw [← h.yield hh (hs.symm.trans heq) (hstart.symm.trans hfirst)]
        unfold Recorder.endpointYieldCg LivePourTracker.firstPourStartRawCg
        rw [hcg, hstart, hfirstCg]

theorem Between.clear {a : AlertLog} {i : Recorder.Input} {r : Recorder} (h : Between a i r)
    (hp : r.current.phase = .done) : Between a i r.clear := by
  have hclear : r.clear = r.enterIdle := by
    rw [Recorder.clear_eq, if_neg (by rw [hp]; decide)]
  have hb : a.recorder.begins i = false := by
    by_contra hb
    have hrun := (h.begun (by simpa using hb)).1
    exact absurd (hrun.symm.trans hp) nofun
  rw [hclear]
  refine ⟨fun _ => rfl, fun _ => ⟨Recorder.noAlarm_fresh, rfl⟩, ?_, nofun, ?_, h.finished, h.seq, nofun⟩
  · intro hb'
    exact absurd (hb.symm.trans hb') nofun
  · intro _ hne
    exact absurd rfl hne

theorem between_fed {a : AlertLog} {i : Recorder.Input} {r : Recorder} (h : a.Aligned)
    (hfed : Fed a.recorder i r) : Between a i r := by
  rcases hfed with rfl | ⟨hp, rfl⟩
  · exact between_update i h
  · exact (between_update i h).clear hp

/-! ## The alert's part -/

/-- The alert that a tick on a running shot starts from. -/
structure Started (a : AlertLog) (i : Recorder.Input) (coeffs : TargetCoeffs) (r : Recorder)
    (t : TargetAlert) : Prop where
  fired : t.stopNowFired = (!a.recorder.begins i && a.reached)
  armed : t.Armed
  own : t.SameEstimate (ownBefore a.own (a.recorder.begins i) coeffs)
  same : a.recorder.begins i = false → t = a.alert
  seq : t.haveLastSeq = true → t.lastSeq ≠ 0 ∧ t.lastSeq ≤ r.lastTrustedSeq
  yield : t.haveLastSeq = true → r.lastTrustedSeq = t.lastSeq → r.tracker.haveFirstStart = true →
    r.endpointYieldCg r.tracker.lastTrustedCg = t.lastYieldCg

theorem started_tracked {a : AlertLog} {i : Recorder.Input} {c : Controller} (h : a.Aligned)
    (hb : Between a i c.recorder) (halert : c.targetAlert = a.alert)
    (hkey : c.alertShotBeginMs = a.loop.controller.alertShotBeginMs)
    (hrun : c.recorder.current.phase = .running)
    (hsafe : a.recorder.begins i = true → i.nowMs ≠ a.loop.controller.alertShotBeginMs) :
    Started a i c.targetCoeffs c.recorder c.tracked.1 := by
  have hw : c.recorder.current.inPumpWindow = true := Extraction.inPumpWindow_iff.2 (Or.inl hrun)
  unfold Controller.tracked
  by_cases hnew : c.recorder.current.beginMs ≠ c.alertShotBeginMs
  · rw [if_pos hnew]
    have hbegun : a.recorder.begins i = true := by
      by_contra hno
      obtain ⟨hw', hsame⟩ := hb.goesOn (by simpa using hno) hw
      exact hnew (hsame.trans ((h.key hw').symm.trans hkey.symm))
    refine ⟨?_, nofun, ?_, fun hno => absurd (hno.symm.trans hbegun) nofun, nofun, nofun⟩
    · rw [hbegun]
      rfl
    · rw [hbegun]
      exact ⟨rfl, rfl, rfl, rfl, rfl, nofun⟩
  · rw [if_neg hnew, halert]
    have hbegun : a.recorder.begins i = false := by
      by_contra hbegun
      rw [Bool.not_eq_false] at hbegun
      exact hsafe hbegun ((hb.begun hbegun).2.1.symm.trans ((not_not.1 hnew).trans hkey))
    obtain ⟨hw', -⟩ := hb.goesOn hbegun hw
    refine ⟨?_, h.armed, ?_, fun _ => rfl, hb.seq, hb.yield⟩
    · rw [h.reached hw', hbegun, Bool.not_false, Bool.true_and]
    · rw [hbegun]
      exact h.own hw'

/-- The record that the alert's part of a tick starts from is the recorder's, with its target. -/
theorem tracked_recorder (c : Controller) :
    Recorder.SameTracking c.recorder c.tracked.2 ∧
      Recorder.SameFlight c.recorder c.tracked.2 ∧
      KeepsAlarm c.recorder.current c.tracked.2.current := by
  unfold Controller.tracked
  split_ifs
  · exact ⟨Recorder.sameTracking_setTargetSnapshot _ _, Recorder.sameFlight_setTargetSnapshot _ _,
      Recorder.keepsAlarm_setTargetSnapshot _ _⟩
  · exact ⟨⟨rfl, rfl, rfl, rfl⟩, ⟨rfl, rfl, rfl⟩, KeepsAlarm.refl _⟩

/-- A tick from the two parts of its work: `c` is the controller between them. -/
structure Advances (a : AlertLog) (op : MainLoop.Op) (i : Recorder.Input) (c : Controller) : Prop where
  between : Between a i c.recorder
  before : c.targetAlert = a.alert
  keyBefore : c.alertShotBeginMs = a.loop.controller.alertShotBeginMs
  recorder : (a.step op).recorder = (c.advanceAlert i.nowMs).recorder
  alert : (a.step op).alert = (c.advanceAlert i.nowMs).targetAlert
  key : (a.step op).loop.controller.alertShotBeginMs = (c.advanceAlert i.nowMs).alertShotBeginMs
  own : (a.step op).own = (ownBefore a.own (a.recorder.begins i) c.targetCoeffs).ingest
    (decide ((a.step op).recorder.current.phase = .running))
    (a.step op).recorder.lastTrustedYieldSample
  reached : (a.step op).reached = ((!a.recorder.begins i && a.reached) ||
    (decide ((a.step op).recorder.current.phase = .running) &&
      (a.step op).own.projectsTarget i.nowMs))
  reported : (a.step op).reported = firstReport (if a.recorder.begins i then none else a.reported)
    i.nowMs (decide ((a.step op).recorder.current.phase = .running)) (a.step op).alert
  finishedReport : (a.step op).finishedReport =
    if (a.recorder.publishes i).isSome then a.reported else a.finishedReport

theorem advances {a : AlertLog} {op : MainLoop.Op} {i : Recorder.Input} (h : a.Aligned)
    (hi : tickInput a.loop op = some i) : ∃ c, Advances a op i c := by
  obtain ⟨c, hfed, hbefore, hkeyBefore, hcoeffs, hrec, halert, hkey⟩ := loop_tick hi
  have hstep : a.step op =
      { loop := a.loop.step op
        own := (ownBefore a.own (a.recorder.begins i) (a.loop.step op).controller.targetCoeffs).ingest
          (decide ((a.loop.step op).controller.recorder.current.phase = .running))
          (a.loop.step op).controller.recorder.lastTrustedYieldSample
        reached := (!a.recorder.begins i && a.reached) ||
          (decide ((a.loop.step op).controller.recorder.current.phase = .running) &&
            TargetAlert.projectsTarget ((ownBefore a.own (a.recorder.begins i)
              (a.loop.step op).controller.targetCoeffs).ingest
                (decide ((a.loop.step op).controller.recorder.current.phase = .running))
                (a.loop.step op).controller.recorder.lastTrustedYieldSample) i.nowMs)
        reported := firstReport (if a.recorder.begins i then none else a.reported) i.nowMs
          (decide ((a.loop.step op).controller.recorder.current.phase = .running))
          (a.loop.step op).controller.targetAlert
        finishedReport :=
          if (a.recorder.publishes i).isSome then a.reported else a.finishedReport } := by
    unfold step
    dsimp only
    rw [hi]
    rfl
  refine ⟨c, between_fed h hfed, hbefore, hkeyBefore, ?_, ?_, ?_, ?_, ?_, ?_, ?_⟩
  · rw [hstep]
    exact hrec
  · rw [hstep]
    exact halert
  · rw [hstep]
    exact hkey
  · rw [hstep, hcoeffs]
    rfl
  · rw [hstep]
    rfl
  · rw [hstep]
    rfl
  · rw [hstep]

section Tick

variable {a : AlertLog} {op : MainLoop.Op} {i : Recorder.Input} {c : Controller}

/-- What is left to show for a sound tick. -/
theorem sound_of_aligned (hi : tickInput a.loop op = some i) (h' : (a.step op).Aligned)
    (hlevel : (a.step op).recorder.current.phase = .running →
      ((a.step op).alert.state.level = .stopNow ↔ (a.step op).reached = true))
    (hheld : (a.step op).recorder.current.phase ≠ .running ∨
      (a.alert.haveLastSeq = true ∧
        (a.step op).recorder.lastTrustedYieldSample.seq = a.alert.lastSeq) →
      (a.step op).alert.lastYieldCg = a.alert.lastYieldCg ∧ (a.step op).alert.flow = a.alert.flow) :
    Sound a op := by
  refine ⟨⟨?_, h'.finished.2⟩, fun hp => (h'.context hp).1, h'.finished.1, ?_, ?_⟩
  · by_cases hp : (a.step op).recorder.current.phase = .idle
    · exact ((h'.idle hp).1.alarms).le.trans (Nat.zero_le _)
    · refine (h'.context hp).2.trans ?_
      split_ifs <;> decide
  · intro j hj
    rw [hi] at hj
    cases hj
    exact hlevel
  · intro j hj
    rw [hi] at hj
    cases hj
    exact hheld

/-- A tick while the pump is off keeps the latch, the record and what the alert holds. -/
theorem tick_off (hi : tickInput a.loop op = some i) (h : a.Aligned) (ht : Advances a op i c)
    (hoff : c.recorder.current.phase ≠ .running) : (a.step op).Aligned ∧ Sound a op := by
  have hbegun : a.recorder.begins i = false := by
    by_contra hb
    exact hoff (ht.between.begun (by simpa using hb)).1
  have hrec : (a.step op).recorder = c.recorder := by
    rw [ht.recorder, Controller.advanceAlert_off i.nowMs hoff]
  have hkey : (a.step op).loop.controller.alertShotBeginMs = a.loop.controller.alertShotBeginMs := by
    rw [ht.key, Controller.advanceAlert_off i.nowMs hoff]
    exact ht.keyBefore
  have halert : (a.step op).alert = a.alert.update i.nowMs false c.recorder.lastTrustedYieldSample := by
    rw [ht.alert, Controller.advanceAlert_off i.nowMs hoff, ← ht.before]
  obtain ⟨hfired, hcoeffs, hsample, hhave, hseq, hyield, hflow⟩ :=
    a.alert.update_off i.nowMs c.recorder.lastTrustedYieldSample
  have hnotRunning : decide ((a.step op).recorder.current.phase = .running) = false := by
    rw [hrec]
    exact decide_eq_false hoff
  have hown : (a.step op).own = a.own := by
    rw [ht.own, hbegun, hnotRunning]
    exact if_neg (by simp)
  have hreached : (a.step op).reached = a.reached := by
    rw [ht.reached, hbegun, hnotRunning, Bool.false_and, Bool.or_false, Bool.not_false, Bool.true_and]
  have hreported : (a.step op).reported = a.reported := by
    rw [ht.reported, hbegun, hnotRunning, if_neg Bool.false_ne_true]
    unfold firstReport
    cases a.reported with
    | none => exact if_neg (by simp)
    | some report => rfl
  have hb := ht.between
  have haligned : (a.step op).Aligned := by
    refine ⟨?_, ?_, ?_, ?_, ?_, ?_, ?_, ?_, ?_, ?_, ?_⟩
    · rw [hrec]
      exact hb.clean
    · rw [hrec]
      exact hb.idle
    · rw [hrec, hkey]
      intro hw
      obtain ⟨hw', hsame⟩ := hb.goesOn hbegun hw
      exact (h.key hw').trans hsame.symm
    · rw [halert]
      intro hf
      rw [hsample, hcoeffs]
      exact h.armed (hfired.symm.trans hf)
    · rw [hrec, halert, hown]
      intro hw
      have hsame := h.own (hb.goesOn hbegun hw).1
      exact ⟨hsame.coeffs, hsame.flow, hsame.haveSample, hsame.lastYieldCg, hsame.haveLastSeq,
        hsame.lastSeq⟩
    · rw [hrec, halert, hreached, hfired]
      intro hw
      exact h.reached (hb.goesOn hbegun hw).1
    · rw [hrec, hreached, hreported]
      intro hw
      exact h.reported (hb.goesOn hbegun hw).1
    · rw [hrec, hreported]
      exact hb.context hbegun
    · rw [hrec, ht.finishedReport]
      exact hb.finished
    · rw [hrec, halert, hhave, hseq]
      exact hb.seq
    · rw [hrec, halert, hhave, hseq, hyield]
      exact hb.yield
  refine ⟨haligned, sound_of_aligned hi haligned ?_ ?_⟩
  · rw [hrec]
    exact fun hrun => absurd hrun hoff
  · rw [halert, hyield, hflow]
    exact fun _ => ⟨rfl, rfl⟩

/-- What stands of the report when a tick begins, and the record that goes with it. -/
theorem reported_before (h : a.Aligned) (hb : Between a i c.recorder)
    (hrun : c.recorder.current.phase = .running) :
    (if a.recorder.begins i then none else a.reported).isSome =
        (!a.recorder.begins i && a.reached) ∧
      Records c.recorder.current.alarm (if a.recorder.begins i then none else a.reported) ∧
      c.recorder.current.alarms ≤
        if (if a.recorder.begins i then none else a.reported).isSome then 1 else 0 := by
  cases hbegun : a.recorder.begins i with
  | true =>
    obtain ⟨-, -, hno, -⟩ := hb.begun hbegun
    rw [if_pos rfl]
    exact ⟨rfl, hno.alarm, hno.alarms.le⟩
  | false =>
    have hw := Extraction.inPumpWindow_iff.2 (Or.inl hrun)
    rw [if_neg Bool.false_ne_true, Bool.not_false, Bool.true_and]
    exact ⟨h.reported (hb.goesOn hbegun hw).1, hb.context hbegun (by rw [hrun]; decide)⟩

/-- The latch, the report and the record after the alert's part of a tick on a running shot. -/
theorem recorded (h : a.Aligned) (ht : Advances a op i c) (hrun : c.recorder.current.phase = .running)
    (hnow : i.nowMs ≠ 0) (hs : Started a i c.targetCoeffs c.recorder c.tracked.1) :
    ((a.step op).alert.state.level = .stopNow ↔ (a.step op).alert.stopNowFired = true) ∧
      (a.step op).alert.Armed ∧ (a.step op).alert.SameEstimate (a.step op).own ∧
      (a.step op).alert.stopNowFired = (a.step op).reached ∧
      (a.step op).reported.isSome = (a.step op).reached ∧
      (Records (a.step op).recorder.current.alarm (a.step op).reported ∧
        (a.step op).recorder.current.alarms ≤ if (a.step op).reported.isSome then 1 else 0) ∧
      Recorder.SameTracking c.recorder (a.step op).recorder ∧
      Recorder.SameFlight c.recorder (a.step op).recorder := by
  obtain ⟨halert, -, hrec⟩ := Controller.advanceAlert_running (c := c) i.nowMs hrun
  rw [← ht.alert] at halert
  rw [← ht.recorder, ← ht.alert] at hrec
  obtain ⟨htracking, hflight, hkeeps⟩ := tracked_recorder c
  obtain ⟨hfired, hedge, hlevel, harmed⟩ := TargetAlert.update_running i.nowMs
    c.recorder.lastTrustedYieldSample hs.armed
  rw [← halert] at hfired hedge hlevel harmed
  rw [hs.fired] at hfired hedge
  have hflight' : Recorder.SameFlight c.recorder (a.step op).recorder := by
    rw [hrec]
    split_ifs
    · exact hflight.trans (Recorder.sameFlight_triggerAlarm _ _)
    · exact hflight
  have htracking' : Recorder.SameTracking c.recorder (a.step op).recorder := by
    rw [hrec]
    split_ifs
    · exact htracking.trans (Recorder.sameTracking_triggerAlarm _ _)
    · exact htracking
  have hrunning : decide ((a.step op).recorder.current.phase = .running) = true :=
    decide_eq_true (hflight'.phase.trans hrun)
  have hown : (c.tracked.1.ingest true c.recorder.lastTrustedYieldSample).SameEstimate
      (a.step op).own := by
    rw [ht.own, hrunning, htracking'.sample]
    exact hs.own.ingest true c.recorder.lastTrustedYieldSample
  have hreached : (a.step op).alert.stopNowFired = (a.step op).reached := by
    rw [ht.reached, hrunning, Bool.true_and, hown.projectsTarget]
    exact hfired
  obtain ⟨hsome, hrecords⟩ := reported_before h ht.between hrun
  have hrecords' := Records.keeps hkeeps hrecords
  have hreported := ht.reported
  rw [hrunning] at hreported
  have hown' : (a.step op).alert.SameEstimate (a.step op).own := by
    rw [halert]
    exact ⟨hown.coeffs, hown.flow, hown.haveSample, hown.lastYieldCg, hown.haveLastSeq, hown.lastSeq⟩
  refine ⟨hlevel, harmed, hown', hreached, and_assoc.1 ⟨?_, htracking', hflight'⟩⟩
  rw [← hreached, hreported]
  generalize (if a.recorder.begins i then none else a.reported) = before at hsome hrecords'
  cases before with
  | some report =>
    rw [← hsome] at hfired hedge
    have hon : (a.step op).alert.stopNowFired = true := hfired
    rw [hrec, hedge, if_neg (by simp), hon]
    exact ⟨rfl, hrecords'⟩
  | none =>
    rw [← hsome] at hedge
    have hedge' : (a.step op).alert.state.stopNowEdge = (a.step op).alert.stopNowFired := hedge
    rw [hrec, hedge']
    unfold firstReport
    dsimp only
    cases hon : (a.step op).alert.stopNowFired with
    | false =>
      rw [hon] at hlevel
      have hno : ¬ (true = true ∧ (a.step op).alert.state.level = .stopNow) :=
        fun hl => Bool.false_ne_true (hlevel.1 hl.2)
      rw [if_neg hno, if_neg Bool.false_ne_true]
      exact ⟨rfl, hrecords'⟩
    | true =>
      rw [if_pos ⟨rfl, hlevel.2 hon⟩, if_pos rfl]
      obtain ⟨halarm, halarms⟩ := Recorder.triggerAlarm_first
        (a := { tMs := i.nowMs, ctx := (a.step op).alert.snapshotAtStop })
        (hflight.phase.trans hrun) hrecords'.1
      exact ⟨rfl, ⟨halarm, hnow⟩, halarms.trans (Nat.succ_le_succ hrecords'.2)⟩

/-- The sample that the alert holds after its part of a tick on a running shot. -/
theorem sampled (ht : Advances a op i c) (hrun : c.recorder.current.phase = .running)
    (hs : Started a i c.targetCoeffs c.recorder c.tracked.1)
    (htracking : Recorder.SameTracking c.recorder (a.step op).recorder) :
    ((a.step op).alert.haveLastSeq = true → (a.step op).alert.lastSeq ≠ 0 ∧
        (a.step op).alert.lastSeq ≤ (a.step op).recorder.lastTrustedSeq) ∧
      ((a.step op).alert.haveLastSeq = true →
        (a.step op).recorder.lastTrustedSeq = (a.step op).alert.lastSeq →
        (a.step op).recorder.tracker.haveFirstStart = true →
        (a.step op).recorder.endpointYieldCg (a.step op).recorder.tracker.lastTrustedCg =
          (a.step op).alert.lastYieldCg) := by
  obtain ⟨halert, -, -⟩ := Controller.advanceAlert_running (c := c) i.nowMs hrun
  rw [← ht.alert] at halert
  rw [htracking.lastTrustedSeq, htracking.tracker, htracking.endpointYieldCg, halert]
  show ((c.tracked.1.ingest true c.recorder.lastTrustedYieldSample).haveLastSeq = true → _) ∧
    ((c.tracked.1.ingest true c.recorder.lastTrustedYieldSample).haveLastSeq = true → _)
  rcases c.recorder.lastTrustedYieldSample_cases with ⟨hno, -⟩ | ⟨hyes, -, hne, hseq, hyield⟩
  · have hingest := c.tracked.1.ingest_held hno
    refine ⟨?_, ?_⟩
    · rw [hingest]
      intro hh
      have hseq := hs.seq hh
      rw [← hingest] at hseq
      exact hseq
    · rw [hingest]
      intro hh heq hstart
      have hlast : c.recorder.lastTrustedSeq = c.tracked.1.lastSeq := by
        rw [← hingest]
        exact heq
      have hyield := hs.yield hh hlast hstart
      rw [← hingest] at hyield
      exact hyield
  · obtain ⟨-, hlast, hcg, -⟩ := c.tracked.1.ingest_taken hyes
    refine ⟨fun _ => ?_, fun _ _ _ => ?_⟩
    · have hlast' : (c.tracked.1.update i.nowMs true c.recorder.lastTrustedYieldSample).lastSeq =
          c.recorder.lastTrustedSeq := hlast.trans hseq
      rw [hlast']
      exact ⟨hne, le_rfl⟩
    · exact hyield.symm.trans hcg.symm

/-- A repeated sample leaves what the alert holds. -/
theorem held (ht : Advances a op i c) (hrun : c.recorder.current.phase = .running)
    (hs : Started a i c.targetCoeffs c.recorder c.tracked.1)
    (htracking : Recorder.SameTracking c.recorder (a.step op).recorder)
    (hhave : a.alert.haveLastSeq = true)
    (hrepeat : (a.step op).recorder.lastTrustedYieldSample.seq = a.alert.lastSeq) :
    (a.step op).alert.lastYieldCg = a.alert.lastYieldCg ∧
      (a.step op).alert.flow = a.alert.flow := by
  obtain ⟨halert, -, -⟩ := Controller.advanceAlert_running (c := c) i.nowMs hrun
  rw [← ht.alert] at halert
  rw [htracking.sample] at hrepeat
  rw [halert]
  show (c.tracked.1.ingest true c.recorder.lastTrustedYieldSample).lastYieldCg = _ ∧
    (c.tracked.1.ingest true c.recorder.lastTrustedYieldSample).flow = _
  have hseq₀ := (ht.between.seq hhave).1
  rcases c.recorder.lastTrustedYieldSample_cases with ⟨-, hzero⟩ | ⟨hyes, hstart, -, hseq, hyield⟩
  · exact absurd (hrepeat.symm.trans hzero) hseq₀
  · have hbegun : a.recorder.begins i = false := by
      by_contra hb
      have hno := (ht.between.begun (by simpa using hb)).2.2.2
      exact absurd (hstart.symm.trans hno) nofun
    rw [hs.same hbegun]
    obtain ⟨-, -, hcg, hflow⟩ := a.alert.ingest_taken hyes
    refine ⟨?_, hflow hhave hrepeat⟩
    rw [hcg, hyield]
    exact ht.between.yield hhave (hseq.symm.trans hrepeat) hstart

/-- A tick on a running shot keeps the latch, the report and the record together. -/
theorem tick_running (hi : tickInput a.loop op = some i) (h : a.Aligned) (ht : Advances a op i c)
    (hrun : c.recorder.current.phase = .running) (hnow : i.nowMs ≠ 0)
    (hs : Started a i c.targetCoeffs c.recorder c.tracked.1) : (a.step op).Aligned ∧ Sound a op := by
  obtain ⟨hlevel, harmed, hown, hreached, hreported, hrecords, htracking, hflight⟩ :=
    recorded h ht hrun hnow hs
  obtain ⟨hseq, hyield⟩ := sampled ht hrun hs htracking
  obtain ⟨-, hkey, -⟩ := Controller.advanceAlert_running (c := c) i.nowMs hrun
  have hrun' : (a.step op).recorder.current.phase = .running := hflight.phase.trans hrun
  have haligned : (a.step op).Aligned := by
    refine ⟨hflight.clean ht.between.clean, ?_, ?_, harmed, fun _ => hown, fun _ => hreached,
      fun _ => hreported, fun _ => hrecords, ?_, hseq, hyield⟩
    · rw [hrun']
      exact nofun
    · rw [ht.key, hkey]
      exact fun _ => hflight.beginMs.symm
    · rw [htracking.lastFinished, ht.finishedReport]
      exact ht.between.finished
  refine ⟨haligned, sound_of_aligned hi haligned ?_ ?_⟩
  · rw [hlevel, hreached]
    exact fun _ => Iff.rfl
  · rintro (hoff | ⟨hhave, hrepeat⟩)
    · exact absurd hrun' hoff
    · exact held ht hrun hs htracking hhave hrepeat

end Tick

/-! ## Every call -/

/-- A call that changes neither the record nor the alert. -/
theorem aligned_same {a : AlertLog} {loop : MainLoop} (h : a.Aligned)
    (hrec : loop.controller.recorder = a.loop.controller.recorder)
    (halert : loop.controller.targetAlert = a.loop.controller.targetAlert)
    (hkey : loop.controller.alertShotBeginMs = a.loop.controller.alertShotBeginMs) :
    ({ a with loop := loop } : AlertLog).Aligned := by
  have hrec' : ({ a with loop := loop } : AlertLog).recorder = a.recorder := hrec
  have halert' : ({ a with loop := loop } : AlertLog).alert = a.alert := halert
  refine ⟨?_, ?_, ?_, ?_, ?_, ?_, ?_, ?_, ?_, ?_, ?_⟩
  · rw [hrec']
    exact h.clean
  · rw [hrec']
    exact h.idle
  · rw [hrec']
    exact fun hw => hkey.trans (h.key hw)
  · rw [halert']
    exact h.armed
  · rw [hrec', halert']
    exact h.own
  · rw [hrec', halert']
    exact h.reached
  · rw [hrec']
    exact h.reported
  · rw [hrec']
    exact h.context
  · rw [hrec']
    exact h.finished
  · rw [hrec', halert']
    exact h.seq
  · rw [hrec', halert']
    exact h.yield

/-- The context action clears a record in `DONE`, and leaves any other. -/
theorem aligned_contextAction {a : AlertLog} (h : a.Aligned) :
    ({ a with loop := a.loop.step .contextAction } : AlertLog).Aligned := by
  have hstep : ∃ liveSeq, (a.loop.step .contextAction).controller =
      { a.loop.controller.applyContextAction with liveSeq := liveSeq } := by
    unfold MainLoop.step MainLoop.perform Controller.performAll Controller.perform Controller.followUp
    rw [List.foldl_cons, List.foldl_nil]
    split_ifs <;> exact ⟨_, rfl⟩
  obtain ⟨liveSeq, hstep⟩ := hstep
  by_cases hdone : a.loop.controller.recorder.current.phase = .done
  · have happly : a.loop.controller.applyContextAction =
        { a.loop.controller with recorder := a.loop.controller.recorder.clear } := by
      unfold Controller.applyContextAction
      rw [hdone]
    rw [happly] at hstep
    refine aligned_clear h ?_ (Or.inl ?_) rfl
    · exact (congrArg Controller.recorder hstep).trans rfl
    · exact (congrArg Controller.targetAlert hstep).trans rfl
  · have happly : a.loop.controller.applyContextAction = a.loop.controller := by
      unfold Controller.applyContextAction
      split
      · exact absurd ‹_› hdone
      · rfl
    rw [happly] at hstep
    exact aligned_same h ((congrArg Controller.recorder hstep).trans rfl)
      ((congrArg Controller.targetAlert hstep).trans rfl)
      ((congrArg Controller.alertShotBeginMs hstep).trans rfl)

/-- **Step lemma** for the calls that are no ticks. -/
theorem aligned_call {a : AlertLog} {op : MainLoop.Op} (h : a.Aligned)
    (hi : tickInput a.loop op = none) : (a.step op).Aligned := by
  have hstep : a.step op = { a with loop := a.loop.step op } := by
    unfold step
    dsimp only
    rw [hi]
  rw [hstep]
  cases op with
  | beginSession => exact aligned_clear h rfl (Or.inl rfl) rfl
  | endSession => exact aligned_same h rfl rfl rfl
  | tick i x y load ok =>
    cases hr : a.loop.replaying with
    | true =>
      have hsame : a.loop.step (.tick i x y load ok) = a.loop := if_pos hr
      rw [hsame]
      exact h
    | false =>
      have hsome : tickInput a.loop (.tick i x y load ok) = some i := if_neg (by rw [hr]; decide)
      rw [hsome] at hi
      cases hi
  | contextAction => exact aligned_contextAction h
  | setTargetCoeffs coeffs => exact aligned_same h rfl rfl rfl
  | startReplay => exact aligned_clear h rfl (Or.inr rfl) rfl
  | replayTick nowMs pumpOn scale =>
    cases hr : a.loop.replaying with
    | false =>
      have hsame : a.loop.step (.replayTick nowMs pumpOn scale) = a.loop :=
        if_neg (by rw [hr]; decide)
      rw [hsame]
      exact h
    | true =>
      have hsome : tickInput a.loop (.replayTick nowMs pumpOn scale) =
        some (Controller.replayInput nowMs pumpOn scale) := if_pos hr
      rw [hsome] at hi
      cases hi
  | stopReplay => exact aligned_clear h rfl (Or.inr rfl) rfl

theorem tickMs_of_tickInput {s : MainLoop} {op : MainLoop.Op} {i : Recorder.Input}
    (h : tickInput s op = some i) : tickMs op = some i.nowMs := by
  cases op with
  | tick j x y load ok =>
    unfold tickInput at h
    split_ifs at h
    cases h
    rfl
  | replayTick nowMs pumpOn scale =>
    unfold tickInput at h
    split_ifs at h
    cases h
    rfl
  | _ => cases h

/-- **Step lemma.** A safe call keeps the latch, the report and the record together. -/
theorem aligned_step {a : AlertLog} {op : MainLoop.Op} (h : a.Aligned) (hnow : tickMs op ≠ some 0)
    (hsafe : a.Safe op) : (a.step op).Aligned ∧ Sound a op := by
  cases hi : tickInput a.loop op with
  | none =>
    have h' := aligned_call h hi
    refine ⟨h', ⟨?_, h'.finished.2⟩, fun hp => (h'.context hp).1, h'.finished.1, ?_, ?_⟩
    · by_cases hp : (a.step op).recorder.current.phase = .idle
      · exact ((h'.idle hp).1.alarms).le.trans (Nat.zero_le _)
      · refine (h'.context hp).2.trans ?_
        split_ifs <;> decide
    · intro i hi'
      rw [hi] at hi'
      cases hi'
    · intro i hi'
      rw [hi] at hi'
      cases hi'
  | some i =>
    obtain ⟨c, ht⟩ := advances h hi
    by_cases hrun : c.recorder.current.phase = .running
    · have hs := started_tracked h ht.between ht.before ht.keyBefore hrun (hsafe i hi)
      refine tick_running hi h ht hrun ?_ hs
      intro hzero
      rw [tickMs_of_tickInput hi, hzero] at hnow
      exact hnow rfl
    · exact tick_off hi h ht hrun

/-- An extraction that begins at the reading the alert has fired for is reported and not
recorded. -/
theorem unsound_of_fired {a : AlertLog} {op : MainLoop.Op} {i : Recorder.Input} (h : a.Aligned)
    (hi : tickInput a.loop op = some i) (hbegun : a.recorder.begins i = true)
    (hkey : i.nowMs = a.loop.controller.alertShotBeginMs) (hfired : a.alert.stopNowFired = true) :
    ¬ Sound a op := by
  intro hsound
  obtain ⟨c, ht⟩ := advances h hi
  obtain ⟨hrun, hbegin, hno, -⟩ := ht.between.begun hbegun
  obtain ⟨halert, -, hrec⟩ := Controller.advanceAlert_running (c := c) i.nowMs hrun
  have htracked : c.tracked = (a.alert, c.recorder) := by
    unfold Controller.tracked
    rw [if_neg, ht.before]
    rw [not_not, hbegin, ht.keyBefore]
    exact hkey
  rw [htracked] at halert hrec
  rw [← ht.alert] at halert
  rw [← ht.recorder, ← ht.alert] at hrec
  obtain ⟨hstays, hedge, hlevel, -⟩ := TargetAlert.update_running i.nowMs
    c.recorder.lastTrustedYieldSample h.armed
  rw [← halert, hfired] at hstays hedge
  rw [← halert] at hlevel
  have hrec' : (a.step op).recorder = c.recorder := by
    rw [hrec, hedge]
    exact if_neg (by simp)
  have hrun' : (a.step op).recorder.current.phase = .running := by
    rw [hrec']
    exact hrun
  have hreport : (a.step op).reported =
      some { tMs := i.nowMs, ctx := (a.step op).alert.snapshotAtStop } := by
    rw [ht.reported, hbegun, if_pos rfl]
    unfold firstReport
    exact if_pos ⟨decide_eq_true hrun', hlevel.2 (hstays.trans (Bool.true_or _))⟩
  have hcontext := hsound.context (by rw [hrun']; decide)
  rw [hreport, hrec'] at hcontext
  obtain ⟨halarm, hne⟩ := hcontext
  exact hne ((congrArg AlarmTrigger.tMs halarm).symm.trans hno.alarm)

/-- **The alarm context is the first `STOP_NOW` of its extraction.**  Over every run of the main
loop without a tick at time zero in which no extraction begins at the reading of the clock that the
alert is kept for, the report follows the extraction's own projection and the record keeps its first
values.  Where the alert has fired for that reading, the tick that begins the extraction reports and
does not record. -/
theorem sound_of_safe (ops : List MainLoop.Op) (h : ∀ op ∈ ops, tickMs op ≠ some 0)
    (hsafe : Along step Safe {} ops) :
    Along step Sound {} ops ∧
      ∀ op, ∀ i ∈ tickInput (exec step {} ops).loop op, (exec step {} ops).recorder.begins i = true →
        i.nowMs = (exec step {} ops).loop.controller.alertShotBeginMs →
        (exec step {} ops).alert.stopNowFired = true → ¬ Along step Sound {} (ops ++ [op]) := by
  have hnow : Along step (fun _ op => tickMs op ≠ some 0) {} ops := by
    rw [along_iff_forall_split]
    rintro pre op post rfl
    exact h op (by simp)
  have haligned : Aligned (exec step {} ops) :=
    (hsafe.and hnow).exec_invariant Aligned
      (fun a op ha hop => (aligned_step ha hop.2 hop.1).1) aligned_init
  refine ⟨(hsafe.and hnow).imp Aligned (fun a op ha hop => aligned_step ha hop.2 hop.1)
    aligned_init, fun op i hi hbegun hkey hfired hsound => ?_⟩
  exact unsound_of_fired haligned hi hbegun hkey hfired (along_append.1 hsound).2.1

/-- A tick with the pump on and a reading `cg` centigrams, `k` tenths of a second into a shot. -/
def pumpingLoop (k : ℕ) (cg : ℤ) : MainLoop.Op :=
  let nowMs : U32 := BitVec.ofNat 32 (1000 + 100 * k)
  .tick { nowMs := nowMs, pumpSignal := { state := .on },
          scale := { present := true, grams := some (cg / 100), timestampMs := nowMs } }
    true false .nothingQueued true

/-- A short pour with a target of 1 g; the pump stops, and then the scale goes. -/
def shortRun : List MainLoop.Op :=
  [.beginSession, .setTargetCoeffs { targetCg := 100, armed := true }] ++
    (List.range 7).map (fun k => pumpingLoop k 500) ++
    (List.range 6).map (fun k => pumpingLoop (7 + k) (520 + 20 * k)) ++
    [.tick { nowMs := 2300, scale := { present := true } } false false .nothingQueued true,
      .tick { nowMs := 9000 } false true .nothingQueued true]

/-- A second pour of the session, at another reading. -/
def nextRun : List MainLoop.Op :=
  (List.range 7).map (fun k => pumpingLoop (200 + k) 500) ++
    (List.range 6).map (fun k => pumpingLoop (207 + k) (520 + 20 * k))

theorem sound_of_safe_shortRun : Along step Sound {} (shortRun ++ nextRun) :=
  (sound_of_safe (shortRun ++ nextRun) (by decide) (by decide +kernel)).1

/-- The next extraction begins when the 32-bit clock reads 1000 again: `STOP_NOW` is reported at
once and not recorded. -/
theorem not_sound_sameReading : ¬ ∀ ops : List MainLoop.Op, (∀ op ∈ ops, tickMs op ≠ some 0) →
    Along step Sound {} ops := by
  intro hall
  have hsound : Sound (exec step {} shortRun) (pumpingLoop 0 500) :=
    (along_append.1 (hall (shortRun ++ [pumpingLoop 0 500]) (by decide))).2.1
  have hrun : ((exec step {} shortRun).step (pumpingLoop 0 500)).recorder.current.phase = .running := by
    decide +kernel
  have hreported : ((exec step {} shortRun).step (pumpingLoop 0 500)).reported.isSome = true := by
    decide +kernel
  have halarm : ((exec step {} shortRun).step (pumpingLoop 0 500)).recorder.current.alarm.tMs = 0 := by
    decide +kernel
  generalize exec step {} shortRun = a at hsound hrun hreported halarm
  generalize pumpingLoop 0 500 = op at hsound hrun hreported halarm
  exact (hsound.context (by rw [hrun]; decide)).tMs_ne hreported halarm

end AlertLog

end Pumpbug
