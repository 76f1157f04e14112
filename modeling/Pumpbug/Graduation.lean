import Pumpbug.Controller
import Pumpbug.Lib.Run

/-!
# Graduation

Which finalized records become history.  A live tick applies the verdict to a record as it is
finalized; what a replay finalizes is forgotten when the replay ends.
-/

namespace Pumpbug

open Lib

namespace Recorder

/-- The record that the update publishes, if it finalizes a shot. -/
def publishes (r : Recorder) (i : Input) : Option Extraction :=
  (r.finalizes i).map ((r.sense i).finished i.nowMs)

theorem update_of_publishes_none {r : Recorder} {i : Input} (h : r.publishes i = none) :
    (r.update i).lastFinished = r.lastFinished ∧ (r.update i).finishedSeq = r.finishedSeq := by
  obtain ⟨-, hlast, hseq⟩ | ⟨cause, hf, -, -⟩ := r.update_publishes i
  · exact ⟨hlast, hseq⟩
  · unfold publishes at h
    rw [hf] at h
    cases h

theorem update_of_publishes {r : Recorder} {i : Input} {shot : Extraction}
    (h : r.publishes i = some shot) :
    (r.update i).lastFinished = shot ∧ (r.update i).finishedSeq = r.finishedSeq + 1 := by
  unfold publishes at h
  obtain ⟨hf, -, -⟩ | ⟨cause, hf, hlast, hseq⟩ := r.update_publishes i
  · rw [hf] at h
    cases h
  · rw [hf] at h
    cases h
    exact ⟨hlast, hseq⟩

/-- A record in `DONE` has just been published, or stays as it was. -/
theorem update_done {r : Recorder} {i : Input} (h : (r.update i).current.phase = .done) :
    r.publishes i = some (r.update i).current ∨
      (r.publishes i = none ∧ r.current.phase = .done ∧ (r.update i).current = r.current) := by
  cases hp : r.current.phase with
  | idle =>
    rw [update_of_idle hp] at h
    split_ifs at h
    · cases h
    · rw [sense_phase, hp] at h
      cases h
  | running =>
    rw [update_of_running hp] at h
    split_ifs at h
    · cases h
    · rw [sense_phase, hp] at h
      cases h
  | postPump =>
    left
    unfold publishes finalizes
    rw [update_of_postPump hp] at h ⊢
    rw [if_pos hp]
    split_ifs at h ⊢ with hrise hco
    · cases h
    · cases h
    · cases hend : (r.sense i).endOfShot i.nowMs with
      | some cause => rfl
      | none =>
        rw [hend] at h
        dsimp only at h
        rw [sense_phase, hp] at h
        cases h
  | done =>
    right
    have hno : r.publishes i = none := by
      unfold publishes finalizes
      rw [if_neg (by rw [hp]; decide)]
      rfl
    have hw : ¬ r.current.inPumpWindow = true := by
      rw [Extraction.inPumpWindow_iff, hp]
      decide
    rw [update_of_done hp] at h ⊢
    split_ifs at h ⊢
    · cases h
    · exact ⟨hno, rfl, by rw [sense_of_idleWindow hw]⟩
  | unnamed code hc =>
    rw [update_of_unnamed hp, sense_phase, hp] at h
    cases h

/-! ## Counting on from another number -/

/-- The recorder, had it finished `k` more records before. -/
def finishedBefore (r : Recorder) (k : ℕ) : Recorder := { r with finishedSeq := k + r.finishedSeq }

theorem transitionTo_finishedBefore (r : Recorder) (k : ℕ) (next : Phase) (nowMs : U32)
    (pumpSignal : PumpSignalObservation) (cause : EndCause) (utcSec : U32) :
    (r.finishedBefore k).transitionTo next nowMs pumpSignal cause utcSec =
      (r.transitionTo next nowMs pumpSignal cause utcSec).finishedBefore k := by
  unfold transitionTo
  by_cases hp : r.current.phase = next
  · rw [if_pos hp]
    exact if_pos hp
  · rw [if_neg hp]
    refine (if_neg hp).trans ?_
    cases next <;> rfl

theorem recordLiveTick_finishedBefore (r : Recorder) (k : ℕ) (scale : ScaleSnapshot) (nowMs : U32) :
    (r.finishedBefore k).recordLiveTick scale nowMs =
      (r.recordLiveTick scale nowMs).finishedBefore k := by
  have hnote : (r.finishedBefore k).noteScalePresence scale nowMs =
      r.noteScalePresence scale nowMs := rfl
  have hnew : ({ r.finishedBefore k with
      current := r.noteScalePresence scale nowMs } : Recorder).newRawSample scale =
        ({ r with current := r.noteScalePresence scale nowMs } : Recorder).newRawSample scale := rfl
  unfold recordLiveTick
  dsimp only
  rw [hnote, hnew]
  cases ({ r with current := r.noteScalePresence scale nowMs } : Recorder).newRawSample scale with
  | none => rfl
  | some rawCg =>
    dsimp only
    split_ifs <;> rfl

theorem sense_finishedBefore (r : Recorder) (k : ℕ) (i : Input) :
    (r.finishedBefore k).sense i = (r.sense i).finishedBefore k := by
  unfold sense
  rw [recordLiveTick_finishedBefore]
  by_cases hw : r.current.inPumpWindow = true
  · rw [if_pos hw]
    exact congrArg (fun s : Recorder => ({ s with
      lastScalePresent := i.scale.present, lastPumpOn := i.pumpSignal.isOn } : Recorder)) (if_pos hw)
  · rw [if_neg hw]
    exact congrArg (fun s : Recorder => ({ s with
      lastScalePresent := i.scale.present, lastPumpOn := i.pumpSignal.isOn } : Recorder)) (if_neg hw)

/-- What is recorded does not depend on how much was finished before. -/
theorem update_finishedBefore (r : Recorder) (k : ℕ) (i : Input) :
    (r.finishedBefore k).update i = (r.update i).finishedBefore k := by
  unfold update
  dsimp only
  rw [sense_finishedBefore]
  generalize r.sense i = s
  have hphase : (s.finishedBefore k).current.phase = s.current.phase := rfl
  have hpumpOn : (r.finishedBefore k).lastPumpOn = r.lastPumpOn := rfl
  rw [hphase, hpumpOn]
  generalize (i.pumpSignal.isOn && !r.lastPumpOn) = rising
  generalize (!i.pumpSignal.isOn && r.lastPumpOn) = falling
  cases s.current.phase with
  | idle =>
    unfold onIdle
    cases rising <;> simp [transitionTo_finishedBefore]
  | running =>
    unfold onRunning
    cases falling <;> simp [transitionTo_finishedBefore]
  | postPump =>
    unfold onPostPump
    cases rising with
    | true =>
      unfold resumeOrSplitShot
      have hco : (s.finishedBefore k).coalesces i.nowMs i.scale = s.coalesces i.nowMs i.scale := rfl
      have hcause : (s.finishedBefore k).splitCause i.scale = s.splitCause i.scale := rfl
      simp only [if_true, hco, hcause, transitionTo_finishedBefore]
      split_ifs <;> rfl
    | false =>
      unfold finalizeIfShotEnded
      have hend : (s.finishedBefore k).endOfShot i.nowMs = s.endOfShot i.nowMs := rfl
      simp only [Bool.false_eq_true, if_false, hend, transitionTo_finishedBefore]
      cases s.endOfShot i.nowMs <;> rfl
  | done =>
    unfold onDone
    cases rising <;> simp [transitionTo_finishedBefore]
  | unnamed code h => rfl

end Recorder

namespace Controller

/-! ## What the main task does in one call -/

/-- A section with what it makes the main task do next. -/
def perform (c : Controller) (sec : Section) : Controller :=
  (c.followUp sec).foldl execSection (c.execSection sec)

def performAll (c : Controller) (sections : List Section) : Controller := sections.foldl perform c

/-- A call that leaves the controller. -/
inductive Effect where
  /-- `ShotCounter::increment`. -/
  | increment
  /-- `ShotStore::save`, and its answer. -/
  | save (shot : Extraction) (ok : Bool)
  deriving DecidableEq

def Effect.saved? : Effect → Option Extraction
  | .increment => none
  | .save shot _ => some shot

def Effect.answer? : Effect → Option Bool
  | .increment => none
  | .save _ ok => some ok

/-- The verdict of a live tick. -/
def verdict (c : Controller) (i : Recorder.Input) : FinalizeOutcome :=
  { c with statusPumpSignalState := i.pumpSignal.state, recorder := c.recorder.update i }.finalizeOutcome

/-- The shot that a live tick graduates: its copy of an accepted record. -/
def graduates (c : Controller) (i : Recorder.Input) : Option Extraction :=
  if c.verdict i = .accepted then some (c.liveTick i).lastAcceptedShot else none

/-- The calls that the unlocked part of `tick` makes. -/
def tickEffects (c : Controller) (i : Recorder.Input) (saveOk : Bool) : List Effect :=
  (if c.verdict i = .accepted then [.increment] else []) ++
    if (c.liveTick i).saveDue then [.save (c.liveTick i).lastAcceptedShot saveOk] else []

/-! ## The parts of a tick -/

/-- The alert touches the record in flight, its own state and nothing else. -/
theorem runTargetAlert_frame (c : Controller) (nowMs : U32) (phaseRunning : Bool)
    (sample : TrustedYieldSample) (curBeginMs : U32) :
    ∃ r alert beginMs, c.runTargetAlert nowMs phaseRunning sample curBeginMs =
        { c with recorder := r, targetAlert := alert, alertShotBeginMs := beginMs } ∧
      r.finishedSeq = c.recorder.finishedSeq ∧ r.lastFinished = c.recorder.lastFinished ∧
      r.current.phase = c.recorder.current.phase ∧ (phaseRunning = false → r = c.recorder) := by
  have hsnapshot : ∀ tc, (c.recorder.setTargetSnapshot tc).finishedSeq = c.recorder.finishedSeq ∧
      (c.recorder.setTargetSnapshot tc).lastFinished = c.recorder.lastFinished ∧
      (c.recorder.setTargetSnapshot tc).current.phase = c.recorder.current.phase := by
    intro tc
    rcases c.recorder.setTargetSnapshot_cases tc with h | h
    · rw [h]
      exact ⟨rfl, rfl, rfl⟩
    · rw [h]
      exact ⟨rfl, rfl, rfl⟩
  have halarm : ∀ (r : Recorder) a, (r.triggerAlarm a).finishedSeq = r.finishedSeq ∧
      (r.triggerAlarm a).lastFinished = r.lastFinished ∧
      (r.triggerAlarm a).current.phase = r.current.phase := by
    intro r a
    refine ⟨?_, ?_, (r.sameFlight_triggerAlarm a).phase⟩
    · unfold Recorder.triggerAlarm
      split_ifs <;> rfl
    · unfold Recorder.triggerAlarm
      split_ifs <;> rfl
  cases phaseRunning with
  | false =>
    refine ⟨c.recorder, c.targetAlert.update nowMs false sample, c.alertShotBeginMs, ?_, rfl, rfl, rfl,
      fun _ => rfl⟩
    unfold runTargetAlert
    simp only [Bool.false_and, Bool.false_eq_true, if_false]
    rw [TargetAlert.stopNowEdge_of_not_running, if_neg Bool.false_ne_true]
  | true =>
    unfold runTargetAlert
    rw [Bool.true_and]
    by_cases hnew : decide (curBeginMs ≠ c.alertShotBeginMs) = true
    · rw [if_pos hnew]
      obtain ⟨h₁, h₂, h₃⟩ := hsnapshot (c.startAlert curBeginMs).targetAlert.coeffs
      dsimp only
      split_ifs
      · obtain ⟨h₁', h₂', h₃'⟩ := halarm (c.startAlert curBeginMs).recorder
          { tMs := nowMs,
            ctx := ((c.startAlert curBeginMs).targetAlert.update nowMs true sample).snapshotAtStop }
        exact ⟨_, _, _, rfl, h₁'.trans h₁, h₂'.trans h₂, h₃'.trans h₃, nofun⟩
      · exact ⟨_, _, _, rfl, h₁, h₂, h₃, nofun⟩
    · rw [if_neg hnew]
      dsimp only
      split_ifs
      · obtain ⟨h₁', h₂', h₃'⟩ := halarm c.recorder
          { tMs := nowMs, ctx := (c.targetAlert.update nowMs true sample).snapshotAtStop }
        exact ⟨_, _, _, rfl, h₁', h₂', h₃', nofun⟩
      · exact ⟨_, _, _, rfl, rfl, rfl, rfl, nofun⟩

/-- What a live tick leaves of the finalize bookkeeping. -/
structure Ticked (c c' : Controller) (i : Recorder.Input) : Prop where
  finishedSeq : c'.recorder.finishedSeq = (c.recorder.update i).finishedSeq
  observed : c'.lastObservedFinishedSeq = c'.recorder.finishedSeq
  attempted : c'.lastAttemptedSeq = c.lastAttemptedSeq
  savedSeq : c'.lastSavedSeq = c.lastSavedSeq
  /-- No verdict, -/
  quiet : c.recorder.publishes i = none → c.verdict i = .none ∧
    c'.lastAcceptedSeq = c.lastAcceptedSeq ∧ c'.lastAcceptedShot = c.lastAcceptedShot ∧
    (c'.recorder.current.phase = .done → c.recorder.current.phase = .done ∧
      c'.recorder.current = c.recorder.current)
  /-- a shot that graduates, -/
  accepted : ∀ shot, c.recorder.publishes i = some shot → isLikelyRealShot shot = true →
    c.verdict i = .accepted ∧ c'.lastAcceptedSeq = c.recorder.finishedSeq + 1 ∧
    c'.lastAcceptedShot = shot ∧ (c'.recorder.current.phase = .done → c'.recorder.current = shot)
  /-- or one that is rejected. -/
  rejected : ∀ shot, c.recorder.publishes i = some shot → isLikelyRealShot shot = false →
    c.verdict i = .rejected ∧ c'.lastAcceptedSeq = c.lastAcceptedSeq ∧
    c'.lastAcceptedShot = c.lastAcceptedShot ∧ c'.recorder.current.phase ≠ .done

/-- The alert leaves the finalize bookkeeping, and a record that is not running. -/
theorem liveTick_frame {c s : Controller} {i : Recorder.Input}
    (hs : { c with statusPumpSignalState := i.pumpSignal.state,
                   recorder := c.recorder.update i }.settleFinalize = s) :
    (c.liveTick i).recorder.finishedSeq = s.recorder.finishedSeq ∧
      (c.liveTick i).lastObservedFinishedSeq = s.lastObservedFinishedSeq ∧
      (c.liveTick i).lastAttemptedSeq = s.lastAttemptedSeq ∧
      (c.liveTick i).lastSavedSeq = s.lastSavedSeq ∧
      (c.liveTick i).lastAcceptedSeq = s.lastAcceptedSeq ∧
      (c.liveTick i).lastAcceptedShot = s.lastAcceptedShot ∧
      (c.liveTick i).recorder.current.phase = s.recorder.current.phase ∧
      (s.recorder.current.phase = .done → (c.liveTick i).recorder.current = s.recorder.current) := by
  obtain ⟨r, alert, beginMs, heq, hseq, hlast, hphase, hquiet⟩ := s.runTargetAlert_frame i.nowMs
    (s.recorder.current.phase = .running) s.recorder.lastTrustedYieldSample s.recorder.current.beginMs
  have htick : c.liveTick i =
      { s with recorder := r, targetAlert := alert, alertShotBeginMs := beginMs,
               statusScale := i.scale, statusNowMs := i.nowMs, replaying := false } := by
    unfold liveTick advanceAlert
    dsimp only
    rw [hs, heq]
  rw [htick]
  refine ⟨hseq, rfl, rfl, rfl, rfl, rfl, hphase, fun hdone => ?_⟩
  rw [show r = s.recorder from hquiet (by rw [hdone]; rfl)]

theorem settleFinalize_of_none {c : Controller} (h : c.finalizeOutcome = .none) :
    c.settleFinalize = c := by
  unfold settleFinalize observeFinishedExtraction
  rw [h]

theorem settleFinalize_of_accepted {c : Controller} (h : c.finalizeOutcome = .accepted) :
    c.settleFinalize =
      { c with lastObservedFinishedSeq := c.recorder.finishedSeq,
               lastAcceptedShot := c.recorder.lastFinished,
               lastAcceptedSeq := c.recorder.finishedSeq }.clearLoadedShot := by
  unfold settleFinalize observeFinishedExtraction
  rw [h]

theorem settleFinalize_of_rejected {c : Controller} (h : c.finalizeOutcome = .rejected) :
    c.settleFinalize =
      { c with lastObservedFinishedSeq := c.recorder.finishedSeq,
               recorder := if c.recorder.current.phase = .done then c.recorder.clear
                 else c.recorder } := by
  unfold settleFinalize observeFinishedExtraction
  rw [h]
  dsimp only
  split_ifs <;> rfl

theorem ticked_of_none {c : Controller} {i : Recorder.Input}
    (h : c.lastObservedFinishedSeq = c.recorder.finishedSeq) (hp : c.recorder.publishes i = none) :
    Ticked c (c.liveTick i) i := by
  obtain ⟨hlast, hseq⟩ := Recorder.update_of_publishes_none hp
  have hverdict : c.verdict i = .none := by
    unfold verdict finalizeOutcome
    exact if_pos (congrArg word (hseq.trans h.symm))
  obtain ⟨h₁, h₂, h₃, h₄, h₅, h₆, h₇, h₈⟩ := liveTick_frame (settleFinalize_of_none hverdict)
  refine ⟨h₁, ?_, h₃, h₄, fun _ => ⟨hverdict, h₅, h₆, fun hdone => ?_⟩, ?_, ?_⟩
  · exact h₂.trans (h.trans (hseq.symm.trans h₁.symm))
  · have hdone' : (c.recorder.update i).current.phase = .done := h₇.symm.trans hdone
    rcases Recorder.update_done hdone' with hsome | ⟨-, hbefore, hsame⟩
    · rw [hp] at hsome
      cases hsome
    · exact ⟨hbefore, (h₈ hdone').trans hsame⟩
  · intro shot hs
    rw [hp] at hs
    cases hs
  · intro shot hs
    rw [hp] at hs
    cases hs

theorem ticked_of_real {c : Controller} {i : Recorder.Input} {shot : Extraction}
    (h : c.lastObservedFinishedSeq = c.recorder.finishedSeq)
    (hp : c.recorder.publishes i = some shot) (hreal : isLikelyRealShot shot = true) :
    Ticked c (c.liveTick i) i := by
  obtain ⟨hlast, hseq⟩ := Recorder.update_of_publishes hp
  have hverdict : c.verdict i = .accepted := by
    unfold verdict finalizeOutcome
    rw [if_neg, if_pos]
    · exact (congrArg (fun e => isLikelyRealShot e = true) hlast).mpr hreal
    · show ¬ word (c.recorder.update i).finishedSeq = word c.lastObservedFinishedSeq
      rw [hseq, h]
      exact word_succ c.recorder.finishedSeq
  obtain ⟨h₁, h₂, h₃, h₄, h₅, h₆, h₇, h₈⟩ := liveTick_frame (settleFinalize_of_accepted hverdict)
  refine ⟨h₁, h₂.trans h₁.symm, h₃, h₄, ?_, ?_, ?_⟩
  · intro hs
    rw [hp] at hs
    cases hs
  · intro shot' hs _
    rw [hp] at hs
    cases hs
    refine ⟨hverdict, h₅.trans hseq, h₆.trans hlast, fun hdone => ?_⟩
    have hdone' : (c.recorder.update i).current.phase = .done := h₇.symm.trans hdone
    rcases Recorder.update_done hdone' with hsome | ⟨hnone, -⟩
    · rw [hp] at hsome
      exact (h₈ hdone').trans (Option.some.inj hsome).symm
    · rw [hp] at hnone
      cases hnone
  · intro shot' hs hfake
    rw [hp] at hs
    cases hs
    exact absurd (hfake.symm.trans hreal) nofun

theorem ticked_of_fake {c : Controller} {i : Recorder.Input} {shot : Extraction}
    (h : c.lastObservedFinishedSeq = c.recorder.finishedSeq)
    (hp : c.recorder.publishes i = some shot) (hfake : isLikelyRealShot shot = false) :
    Ticked c (c.liveTick i) i := by
  obtain ⟨hlast, hseq⟩ := Recorder.update_of_publishes hp
  have hverdict : c.verdict i = .rejected := by
    unfold verdict finalizeOutcome
    rw [if_neg, if_neg]
    · rw [show isLikelyRealShot (c.recorder.update i).lastFinished = false from hlast ▸ hfake]
      decide
    · show ¬ word (c.recorder.update i).finishedSeq = word c.lastObservedFinishedSeq
      rw [hseq, h]
      exact word_succ c.recorder.finishedSeq
  obtain ⟨h₁, h₂, h₃, h₄, h₅, h₆, h₇, -⟩ := liveTick_frame (settleFinalize_of_rejected hverdict)
  have hfinished : (if (c.recorder.update i).current.phase = .done then
      (c.recorder.update i).clear else c.recorder.update i).finishedSeq =
        (c.recorder.update i).finishedSeq := by
    split_ifs
    · rw [Recorder.clear_eq]
      split_ifs <;> rfl
    · rfl
  refine ⟨h₁.trans hfinished, h₂.trans (h₁.trans hfinished).symm, h₃, h₄, ?_, ?_, ?_⟩
  · intro hs
    rw [hp] at hs
    cases hs
  · intro shot' hs hreal
    rw [hp] at hs
    cases hs
    exact absurd (hfake.symm.trans hreal) nofun
  · intro shot' hs _
    refine ⟨hverdict, h₅, h₆, ?_⟩
    rw [h₇]
    dsimp only
    split_ifs with hdone
    · rw [Recorder.clear_phase]
      decide
    · exact hdone

theorem ticked_liveTick {c : Controller} (i : Recorder.Input)
    (h : c.lastObservedFinishedSeq = c.recorder.finishedSeq) : Ticked c (c.liveTick i) i := by
  cases hp : c.recorder.publishes i with
  | none => exact ticked_of_none h hp
  | some shot =>
    cases hreal : isLikelyRealShot shot with
    | true => exact ticked_of_real h hp hreal
    | false => exact ticked_of_fake h hp hreal

theorem replayTick_frame (c : Controller) (nowMs : U32) (pumpOn : Bool) (scale : ScaleSnapshot) :
    ∃ r alert beginMs, c.replayTick nowMs pumpOn scale =
        { c with
          statusPumpSignalState := .off, recorder := r, targetAlert := alert
          alertShotBeginMs := beginMs, statusScale := scale, statusNowMs := nowMs
          replaying := true } ∧
      r.finishedSeq = (c.recorder.update (replayInput nowMs pumpOn scale)).finishedSeq := by
  let c' : Controller :=
    { c with statusPumpSignalState := .off
             recorder := c.recorder.update (replayInput nowMs pumpOn scale) }
  obtain ⟨r, alert, beginMs, heq, hseq, -, -, -⟩ := c'.runTargetAlert_frame nowMs
    (c'.recorder.current.phase = .running) c'.recorder.lastTrustedYieldSample
    c'.recorder.current.beginMs
  refine ⟨r, alert, beginMs, ?_, hseq⟩
  unfold replayTick advanceAlert
  dsimp only
  rw [heq]

/-- A load changes the shot on display only. -/
theorem performAll_load (c : Controller) (load : LoadOutcome) :
    ∃ has shot seq, c.performAll load.sections =
      { c with hasLoadedShot := has, loadedShot := shot, displayShotSeq := seq } := by
  cases load with
  | nothingQueued => exact ⟨_, _, _, rfl⟩
  | dropped => exact ⟨_, _, _, rfl⟩
  | loaded shot => exact ⟨_, _, _, rfl⟩
  | failed => exact ⟨_, _, _, rfl⟩

/-- After the tick's locked part: a save attempt if one is due, and wake-ups. -/
theorem perform_tick (c : Controller) (i : Recorder.Input) (flags : TickFlags) (saveOk : Bool) :
    ∃ liveSeq, c.perform (.tick i flags saveOk) =
      { c.liveTick i with
        liveSeq := liveSeq
        lastAttemptedSeq := if (c.liveTick i).saveDue then (c.liveTick i).lastAcceptedSeq
          else (c.liveTick i).lastAttemptedSeq
        lastSavedSeq := if (c.liveTick i).saveDue && saveOk then (c.liveTick i).lastAcceptedSeq
          else (c.liveTick i).lastSavedSeq } := by
  have hnotify : ∀ b : Bool, ∃ liveSeq,
      (if b then [Section.notify] else []).foldl execSection (c.liveTick i) =
        { c.liveTick i with liveSeq := liveSeq } := by
    intro b
    cases b <;> exact ⟨_, rfl⟩
  obtain ⟨liveSeq, hseq⟩ := hnotify (frameNeeded c (c.liveTick i) flags)
  unfold perform followUp
  rw [List.foldl_append]
  show ∃ n, (persistAcceptedShot (c.liveTick i) saveOk).foldl execSection
    ((if frameNeeded c (c.liveTick i) flags then [Section.notify] else []).foldl execSection
      (c.liveTick i)) = _
  rw [hseq]
  clear hseq hnotify
  generalize c.liveTick i = d
  unfold persistAcceptedShot
  by_cases hdue : d.saveDue = true
  · rw [if_pos hdue, hdue]
    cases saveOk <;> exact ⟨_, rfl⟩
  · rw [if_neg hdue, Bool.eq_false_iff.2 hdue]
    exact ⟨_, rfl⟩

/-! ## Counting on from another number -/

/-- The controller, had `k` more records been finished and `j` more wake-ups been made before. -/
def countedBefore (c : Controller) (k j : ℕ) : Controller :=
  { c with recorder := c.recorder.finishedBefore k, liveSeq := j + c.liveSeq,
           lastObservedFinishedSeq := k + c.lastObservedFinishedSeq }

theorem startAlert_countedBefore (c : Controller) (k j : ℕ) (beginMs : U32) :
    (c.countedBefore k j).startAlert beginMs = (c.startAlert beginMs).countedBefore k j := by
  unfold startAlert Recorder.setTargetSnapshot
  dsimp only
  by_cases hw : c.recorder.current.inPumpWindow = true
  · have hw' : (c.countedBefore k j).recorder.current.inPumpWindow = true := hw
    rw [if_pos hw, if_pos hw']
    rfl
  · have hw' : ¬ (c.countedBefore k j).recorder.current.inPumpWindow = true := hw
    rw [if_neg hw, if_neg hw']
    rfl

theorem triggerAlarm_finishedBefore (r : Recorder) (k : ℕ) (a : AlarmTrigger) :
    (r.finishedBefore k).triggerAlarm a = (r.triggerAlarm a).finishedBefore k := by
  unfold Recorder.triggerAlarm
  by_cases h : r.current.alarm.tMs ≠ 0 ∨ r.current.phase ≠ .running
  · rw [if_pos h]
    exact if_pos h
  · rw [if_neg h]
    exact if_neg h

theorem advanceAlert_countedBefore (c : Controller) (k j : ℕ) (nowMs : U32) :
    (c.countedBefore k j).advanceAlert nowMs = (c.advanceAlert nowMs).countedBefore k j := by
  have hphase : (c.countedBefore k j).recorder.current = c.recorder.current := rfl
  have hsample : (c.countedBefore k j).recorder.lastTrustedYieldSample =
      c.recorder.lastTrustedYieldSample := rfl
  have hkey : (c.countedBefore k j).alertShotBeginMs = c.alertShotBeginMs := rfl
  have hcounted (d : Controller) : (d.countedBefore k j).targetAlert = d.targetAlert ∧
      (d.countedBefore k j).recorder = d.recorder.finishedBefore k := ⟨rfl, rfl⟩
  unfold advanceAlert runTargetAlert
  rw [hphase, hsample, hkey, startAlert_countedBefore, ← apply_ite (countedBefore · k j)]
  generalize (if (decide (c.recorder.current.phase = .running) &&
      decide (c.recorder.current.beginMs ≠ c.alertShotBeginMs)) = true then
    c.startAlert c.recorder.current.beginMs else c) = d
  dsimp only
  rw [(hcounted d).1, (hcounted d).2, triggerAlarm_finishedBefore]
  split_ifs <;> rfl

theorem resetInFlight_countedBefore (c : Controller) (k j : ℕ) :
    (c.countedBefore k j).resetInFlight = c.resetInFlight.countedBefore k j := by
  have hclear : (c.countedBefore k j).recorder.clear = c.recorder.clear.finishedBefore k :=
    Recorder.transitionTo_finishedBefore c.recorder k .idle 0 {} .none 0
  unfold resetInFlight
  rw [hclear]
  rfl

theorem replayTick_countedBefore (c : Controller) (k j : ℕ) (nowMs : U32) (pumpOn : Bool)
    (scale : ScaleSnapshot) :
    (c.countedBefore k j).replayTick nowMs pumpOn scale =
      (c.replayTick nowMs pumpOn scale).countedBefore k j := by
  have hupdate : (c.countedBefore k j).recorder.update (replayInput nowMs pumpOn scale) =
      (c.recorder.update (replayInput nowMs pumpOn scale)).finishedBefore k :=
    c.recorder.update_finishedBefore k _
  unfold replayTick
  rw [hupdate]
  exact congrArg (fun d : Controller => ({ d with
      statusScale := scale, statusNowMs := nowMs, replaying := true } : Controller))
    (advanceAlert_countedBefore { c with
      statusPumpSignalState := .off
      recorder := c.recorder.update (replayInput nowMs pumpOn scale) } k j nowMs)

end Controller

/-! ## The main loop -/

structure MainLoop where
  controller : Controller := {}
  /-- Between the two `resetInFlightAndNotify` of a replay. -/
  replaying : Bool := false
  /-- What the live ticks finalized and graduated, and the calls they made. -/
  finalized : List Extraction := []
  graduated : List Extraction := []
  effects : List Controller.Effect := []

namespace MainLoop

inductive Op where
  | beginSession
  | endSession
  | tick (i : Recorder.Input) (newScaleSample scaleStateChanged : Bool)
      (load : Controller.LoadOutcome) (saveOk : Bool)
  | contextAction
  | setTargetCoeffs (coeffs : TargetCoeffs)
  | startReplay
  | replayTick (nowMs : U32) (pumpOn : Bool) (scale : ScaleSnapshot)
  | stopReplay

def perform (s : MainLoop) (sections : List Controller.Section) : MainLoop :=
  { s with controller := s.controller.performAll sections }

/-- Live ticks come outside replays, replayed ones inside. -/
def step (s : MainLoop) : Op → MainLoop
  | .beginSession => s.perform Controller.beginSession
  | .endSession => s.perform Controller.deactivate
  | .tick i newScaleSample scaleStateChanged load saveOk =>
    if s.replaying then s
    else
      let c := s.controller.performAll load.sections
      { s.perform (Controller.tick i newScaleSample scaleStateChanged load saveOk) with
        finalized := s.finalized ++ (c.recorder.publishes i).toList
        graduated := s.graduated ++ (c.graduates i).toList
        effects := s.effects ++ c.tickEffects i saveOk }
  | .contextAction => s.perform [.contextAction]
  | .setTargetCoeffs coeffs => s.perform [.setTargetCoeffs coeffs]
  | .startReplay => { s.perform Controller.resetInFlightAndNotify with replaying := true }
  | .replayTick nowMs pumpOn scale =>
    if s.replaying then s.perform [.replayTick nowMs pumpOn scale] else s
  | .stopReplay => { s.perform Controller.resetInFlightAndNotify with replaying := false }

/-- What the history is owed after the runs so far. -/
structure Kept (s : MainLoop) : Prop where
  /-- The shots that graduated are the real ones among those that live ticks finalized. -/
  graduated : s.graduated = s.finalized.filter fun shot => isLikelyRealShot shot
  /-- Each was counted once, -/
  counted : s.effects.count .increment = s.graduated.length
  /-- and saved once, while the word of the count has not come round. -/
  saved : s.controller.recorder.finishedSeq < 2 ^ 32 →
    s.effects.filterMap Controller.Effect.saved? = s.graduated
  /-- The last accepted shot is the last one that graduated. -/
  last : s.graduated.getLast? =
    if s.controller.lastAcceptedSeq = 0 then none else some s.controller.lastAcceptedShot
  /-- Till then `savedSeq` is behind exactly while the latest save has failed. -/
  savedSeq : s.controller.recorder.finishedSeq < 2 ^ 32 →
    (Controller.word s.controller.lastSavedSeq = Controller.word s.controller.lastAcceptedSeq ↔
      s.graduated = [] ∨ (s.effects.filterMap Controller.Effect.answer?).getLast? = some true)
  /-- Outside replays, what shows as `DONE` is a real shot. -/
  done : s.replaying = false → s.controller.recorder.current.phase = .done →
    isLikelyRealShot s.controller.recorder.current = true

/-- The bookkeeping between the calls. -/
structure Synced (s : MainLoop) : Prop where
  observed : s.replaying = false →
    s.controller.lastObservedFinishedSeq = s.controller.recorder.finishedSeq
  accepted : s.controller.lastAcceptedSeq ≤ s.controller.recorder.finishedSeq
  attempted : s.controller.saveDue = false
  saved : s.controller.lastSavedSeq ≤ s.controller.lastAcceptedSeq

theorem synced_init : Synced {} := ⟨fun _ => rfl, le_rfl, rfl, le_rfl⟩

theorem kept_init : Kept {} :=
  ⟨rfl, rfl, fun _ => rfl, rfl, fun _ => iff_of_true rfl (Or.inl rfl), nofun⟩

/-- A call that leaves the accepted shot, and the recorder's record unless it is cleared. -/
structure Quiet (s s' : MainLoop) : Prop where
  finalized : s'.finalized = s.finalized
  graduated : s'.graduated = s.graduated
  effects : s'.effects = s.effects
  acceptedSeq : s'.controller.lastAcceptedSeq = s.controller.lastAcceptedSeq
  acceptedShot : s'.controller.lastAcceptedShot = s.controller.lastAcceptedShot
  attempted : s'.controller.lastAttemptedSeq = s.controller.lastAttemptedSeq
  savedSeq : s'.controller.lastSavedSeq = s.controller.lastSavedSeq
  finishedSeq : s.controller.recorder.finishedSeq ≤ s'.controller.recorder.finishedSeq
  done : s'.replaying = false → s'.controller.recorder.current.phase = .done →
    s.replaying = false ∧ s'.controller.recorder.current = s.controller.recorder.current

theorem Quiet.kept {s s' : MainLoop} (hq : Quiet s s') (h : s.Kept) : s'.Kept := by
  obtain ⟨h₁, h₂, h₃, h₄, h₅, h₆⟩ := h
  refine ⟨?_, ?_, ?_, ?_, ?_, ?_⟩
  · rw [hq.graduated, hq.finalized]
    exact h₁
  · rw [hq.effects, hq.graduated]
    exact h₂
  · rw [hq.effects, hq.graduated]
    exact fun hlt => h₃ (hq.finishedSeq.trans_lt hlt)
  · rw [hq.graduated, hq.acceptedSeq, hq.acceptedShot]
    exact h₄
  · rw [hq.savedSeq, hq.acceptedSeq, hq.graduated, hq.effects]
    exact fun hlt => h₅ (hq.finishedSeq.trans_lt hlt)
  · intro hr hp
    obtain ⟨hr', heq⟩ := hq.done hr hp
    rw [heq] at hp ⊢
    exact h₆ hr' hp

theorem Quiet.synced {s s' : MainLoop} (hq : Quiet s s') (h : s.Synced)
    (hobserved : s'.replaying = false →
      s'.controller.lastObservedFinishedSeq = s'.controller.recorder.finishedSeq) : s'.Synced := by
  refine ⟨hobserved, ?_, ?_, ?_⟩
  · rw [hq.acceptedSeq]
    exact h.accepted.trans hq.finishedSeq
  · unfold Controller.saveDue
    rw [hq.attempted, hq.acceptedSeq]
    exact h.attempted
  · rw [hq.savedSeq, hq.acceptedSeq]
    exact h.saved

theorem clear_done (r : Recorder) : r.clear.current.phase ≠ .done := by
  rw [r.clear_phase]
  decide

theorem clear_finishedSeq (r : Recorder) : r.clear.finishedSeq = r.finishedSeq := by
  rw [r.clear_eq]
  split_ifs <;> rfl

/-- What a call that publishes nothing leaves to do: the bookkeeping with it. -/
theorem quiet_beginSession (s : MainLoop) :
    Quiet s (s.step .beginSession) ∧ (s.step .beginSession).controller.lastObservedFinishedSeq =
      (s.step .beginSession).controller.recorder.finishedSeq :=
  ⟨⟨rfl, rfl, rfl, rfl, rfl, rfl, rfl, (clear_finishedSeq _).ge,
    fun _ hp => absurd hp (clear_done _)⟩, rfl⟩

theorem quiet_startReplay (s : MainLoop) :
    Quiet s (s.step .startReplay) ∧ (s.step .startReplay).controller.lastObservedFinishedSeq =
      (s.step .startReplay).controller.recorder.finishedSeq :=
  ⟨⟨rfl, rfl, rfl, rfl, rfl, rfl, rfl, (clear_finishedSeq _).ge,
    fun _ hp => absurd hp (clear_done _)⟩, rfl⟩

theorem quiet_stopReplay (s : MainLoop) :
    Quiet s (s.step .stopReplay) ∧ (s.step .stopReplay).controller.lastObservedFinishedSeq =
      (s.step .stopReplay).controller.recorder.finishedSeq :=
  ⟨⟨rfl, rfl, rfl, rfl, rfl, rfl, rfl, (clear_finishedSeq _).ge,
    fun _ hp => absurd hp (clear_done _)⟩, rfl⟩

theorem quiet_contextAction (s : MainLoop) :
    Quiet s (s.step .contextAction) ∧
      (s.step .contextAction).controller.lastObservedFinishedSeq =
        s.controller.lastObservedFinishedSeq ∧
      (s.step .contextAction).controller.recorder.finishedSeq =
        s.controller.recorder.finishedSeq := by
  have hstep : ∃ liveSeq, s.step .contextAction =
      { s with controller := { s.controller.applyContextAction with liveSeq := liveSeq } } := by
    unfold step perform Controller.performAll Controller.perform Controller.followUp
    rw [List.foldl_cons, List.foldl_nil]
    split_ifs <;> exact ⟨_, rfl⟩
  obtain ⟨liveSeq, hstep⟩ := hstep
  rw [hstep]
  have happly : s.controller.applyContextAction = s.controller ∨
      s.controller.applyContextAction =
        { s.controller with recorder := s.controller.recorder.clear } := by
    unfold Controller.applyContextAction
    split
    · exact Or.inr rfl
    · exact Or.inl rfl
  rcases happly with h | h
  · rw [h]
    exact ⟨⟨rfl, rfl, rfl, rfl, rfl, rfl, rfl, le_rfl, fun hr _ => ⟨hr, rfl⟩⟩, rfl, rfl⟩
  · rw [h]
    exact ⟨⟨rfl, rfl, rfl, rfl, rfl, rfl, rfl, (clear_finishedSeq _).ge,
      fun _ hp => absurd hp (clear_done _)⟩, rfl, clear_finishedSeq _⟩

/-- What a replayed tick finalizes stays inside the replay. -/
theorem quiet_replayTick (s : MainLoop) (nowMs : U32) (pumpOn : Bool) (scale : ScaleSnapshot)
    (h : s.replaying = true) : Quiet s (s.step (.replayTick nowMs pumpOn scale)) ∧
      (s.step (.replayTick nowMs pumpOn scale)).replaying = true := by
  have hstep : s.step (.replayTick nowMs pumpOn scale) =
      { s with controller := (s.controller.replayTick nowMs pumpOn scale).notify } := if_pos h
  obtain ⟨r, alert, beginMs, htick, hseq⟩ := s.controller.replayTick_frame nowMs pumpOn scale
  rw [hstep, htick]
  refine ⟨⟨rfl, rfl, rfl, rfl, rfl, rfl, rfl, ?_, fun hr => absurd (hr.symm.trans h) nofun⟩, h⟩
  show s.controller.recorder.finishedSeq ≤ r.finishedSeq
  rw [hseq]
  obtain ⟨-, -, hle⟩ | ⟨cause, -, -, hle⟩ :=
    s.controller.recorder.update_publishes (Controller.replayInput nowMs pumpOn scale)
  · exact hle.ge
  · exact (Nat.le_succ _).trans hle.ge

/-- The main loop after a live tick whose locked part led from `c` on. -/
def ticked (s : MainLoop) (c : Controller) (i : Recorder.Input) (ok : Bool) (liveSeq : ℕ) : MainLoop :=
  { s with
    controller :=
      { c.liveTick i with
        liveSeq := liveSeq
        lastAttemptedSeq := if (c.liveTick i).saveDue then (c.liveTick i).lastAcceptedSeq
          else (c.liveTick i).lastAttemptedSeq
        lastSavedSeq := if (c.liveTick i).saveDue && ok then (c.liveTick i).lastAcceptedSeq
          else (c.liveTick i).lastSavedSeq }
    finalized := s.finalized ++ (c.recorder.publishes i).toList
    graduated := s.graduated ++ (c.graduates i).toList
    effects := s.effects ++ c.tickEffects i ok }

/-- What a live tick does to the bookkeeping. -/
theorem step_tick {s : MainLoop} (i : Recorder.Input) (a b : Bool) (load : Controller.LoadOutcome)
    (ok : Bool) (h : s.replaying = false) :
    ∃ has shot seq liveSeq c, c = { s.controller with
        hasLoadedShot := has, loadedShot := shot, displayShotSeq := seq } ∧
      s.controller.performAll load.sections = c ∧
      s.step (.tick i a b load ok) = s.ticked c i ok liveSeq := by
  obtain ⟨has, shot, seq, hload⟩ := s.controller.performAll_load load
  obtain ⟨liveSeq, htick⟩ := Controller.perform_tick
    { s.controller with hasLoadedShot := has, loadedShot := shot, displayShotSeq := seq } i
    { newScaleSample := a, scaleStateChanged := b, loadedShotChanged := load.changed } ok
  refine ⟨has, shot, seq, liveSeq, _, rfl, hload, ?_⟩
  have hstep : s.step (.tick i a b load ok) =
      { s.perform (Controller.tick i a b load ok) with
        finalized := s.finalized ++ ((s.controller.performAll load.sections).recorder.publishes i).toList
        graduated := s.graduated ++ ((s.controller.performAll load.sections).graduates i).toList
        effects := s.effects ++ (s.controller.performAll load.sections).tickEffects i ok } :=
    if_neg (by rw [h]; decide)
  have hall : s.controller.performAll (Controller.tick i a b load ok) =
      (s.controller.performAll load.sections).perform
        (.tick i { newScaleSample := a, scaleStateChanged := b, loadedShotChanged := load.changed }
          ok) := List.foldl_append
  rw [hstep]
  unfold perform ticked
  rw [hall, hload, htick]

/-- A rejected shot shows neither as `DONE` nor as the last shot. -/
def Rejects (s : MainLoop) (op : Op) : Prop :=
  ∀ i a b load ok shot, op = .tick i a b load ok → s.replaying = false →
    s.controller.recorder.publishes i = some shot → isLikelyRealShot shot = false →
    (s.step op).controller.recorder.current.phase ≠ .done ∧
      (s.step op).controller.lastAcceptedSeq = s.controller.lastAcceptedSeq ∧
      (s.step op).controller.lastAcceptedShot = s.controller.lastAcceptedShot

section Tick

variable {s : MainLoop} {c : Controller} {i : Recorder.Input} {ok : Bool} {liveSeq : ℕ} {s' : MainLoop}

/-- A tick without a graduation leaves nothing to save or to count. -/
theorem nothing_due (ok : Bool) (hs : s.Synced)
    (hatt : c.lastAttemptedSeq = s.controller.lastAttemptedSeq)
    (ht : Controller.Ticked c (c.liveTick i) i) (hverdict : c.verdict i ≠ .accepted)
    (hseq : (c.liveTick i).lastAcceptedSeq = s.controller.lastAcceptedSeq) :
    (c.liveTick i).saveDue = false ∧ c.graduates i = none ∧ c.tickEffects i ok = [] := by
  have hdue : (c.liveTick i).saveDue = false := by
    unfold Controller.saveDue
    rw [hseq, ht.attempted, hatt]
    exact hs.attempted
  refine ⟨hdue, if_neg hverdict, ?_⟩
  unfold Controller.tickEffects
  rw [hdue, if_neg hverdict]
  rfl

theorem kept_tick_quiet (hr : s.replaying = false) (h : s.Kept) (hs : s.Synced)
    (hrec : c.recorder = s.controller.recorder)
    (haccSeq : c.lastAcceptedSeq = s.controller.lastAcceptedSeq)
    (haccShot : c.lastAcceptedShot = s.controller.lastAcceptedShot)
    (hatt : c.lastAttemptedSeq = s.controller.lastAttemptedSeq)
    (hsaved : c.lastSavedSeq = s.controller.lastSavedSeq)
    (ht : Controller.Ticked c (c.liveTick i) i) (hp : c.recorder.publishes i = none)
    (hstep : s' = s.ticked c i ok liveSeq) : s'.Kept ∧ s'.Synced := by
  obtain ⟨hverdict, hseq, hshot, hdone⟩ := ht.quiet hp
  obtain ⟨hdue, hgrad, heff⟩ := nothing_due ok hs hatt ht (by rw [hverdict]; decide)
    (hseq.trans haccSeq)
  unfold ticked at hstep
  rw [hp, hgrad, heff, hdue, Option.toList_none, List.append_nil, List.append_nil,
    List.append_nil] at hstep
  have hquiet : Quiet s s' := by
    rw [hstep]
    refine ⟨rfl, rfl, rfl, hseq.trans haccSeq, hshot.trans haccShot, ht.attempted.trans hatt,
      ht.savedSeq.trans hsaved, ?_, fun _ hphase => ⟨hr, (hdone hphase).2.trans (by rw [hrec])⟩⟩
    · rw [← hrec]
      exact ((Recorder.update_of_publishes_none hp).2.symm.trans ht.finishedSeq.symm).le
  refine ⟨hquiet.kept h, hquiet.synced hs fun _ => ?_⟩
  rw [hstep]
  exact ht.observed

theorem kept_tick_fake (h : s.Kept) (hs : s.Synced)
    {shot : Extraction} (hrec : c.recorder = s.controller.recorder)
    (haccSeq : c.lastAcceptedSeq = s.controller.lastAcceptedSeq)
    (haccShot : c.lastAcceptedShot = s.controller.lastAcceptedShot)
    (hatt : c.lastAttemptedSeq = s.controller.lastAttemptedSeq)
    (hsaved : c.lastSavedSeq = s.controller.lastSavedSeq)
    (ht : Controller.Ticked c (c.liveTick i) i) (hp : c.recorder.publishes i = some shot)
    (hfake : isLikelyRealShot shot = false) (hstep : s' = s.ticked c i ok liveSeq) :
    s'.Kept ∧ s'.Synced := by
  obtain ⟨hverdict, hseq, hshot, hphase⟩ := ht.rejected shot hp hfake
  obtain ⟨hdue, hgrad, heff⟩ := nothing_due ok hs hatt ht (by rw [hverdict]; decide)
    (hseq.trans haccSeq)
  unfold ticked at hstep
  rw [hp, hgrad, heff, hdue, Option.toList_none, Option.toList_some, List.append_nil,
    List.append_nil] at hstep
  rw [hstep]
  have hfinished : s.controller.recorder.finishedSeq ≤ (c.liveTick i).recorder.finishedSeq := by
    rw [ht.finishedSeq, (Recorder.update_of_publishes hp).2, hrec]
    exact Nat.le_succ _
  refine ⟨⟨?_, h.counted, fun hlt => h.saved (hfinished.trans_lt hlt), ?_, fun hlt => ?_,
    fun _ hdone => absurd hdone hphase⟩, ⟨fun _ => ht.observed, ?_, hdue, ?_⟩⟩
  · rw [h.graduated]
    show _ = (s.finalized ++ [shot]).filter _
    rw [List.filter_append, List.filter_cons_of_neg (by rw [hfake]; decide), List.filter_nil,
      List.append_nil]
  · show s.graduated.getLast? =
      if (c.liveTick i).lastAcceptedSeq = 0 then none else some (c.liveTick i).lastAcceptedShot
    rw [hseq, hshot, haccSeq, haccShot]
    exact h.last
  · show Controller.word (c.liveTick i).lastSavedSeq =
      Controller.word (c.liveTick i).lastAcceptedSeq ↔ _
    rw [hseq, haccSeq, ht.savedSeq, hsaved]
    exact h.savedSeq (hfinished.trans_lt hlt)
  · show (c.liveTick i).lastAcceptedSeq ≤ (c.liveTick i).recorder.finishedSeq
    rw [hseq, haccSeq]
    exact hs.accepted.trans hfinished
  · show (c.liveTick i).lastSavedSeq ≤ (c.liveTick i).lastAcceptedSeq
    rw [hseq, haccSeq, ht.savedSeq, hsaved]
    exact hs.saved

/-- A shot that graduates is due, while the word of the count has not come round. -/
theorem saveDue_of_graduates (hs : s.Synced)
    (hatt : c.lastAttemptedSeq = s.controller.lastAttemptedSeq)
    (ht : Controller.Ticked c (c.liveTick i) i)
    (hseq : (c.liveTick i).lastAcceptedSeq = s.controller.recorder.finishedSeq + 1)
    (hlt : s.controller.recorder.finishedSeq + 1 < 2 ^ 32) : (c.liveTick i).saveDue = true := by
  have hle := hs.accepted
  have hattempted : Controller.word s.controller.lastAcceptedSeq =
      Controller.word s.controller.lastAttemptedSeq := by
    have hdue := hs.attempted
    unfold Controller.saveDue at hdue
    simpa using hdue
  unfold Controller.saveDue
  rw [hseq, ht.attempted, hatt, ← hattempted]
  refine decide_eq_true fun heq => ?_
  have hsame := (Controller.word_inj hlt (by omega)).1 heq
  omega

/-- After a tick the latest shot has been handed to the store. -/
theorem saveDue_ticked (s : MainLoop) (c : Controller) (i : Recorder.Input) (ok : Bool)
    (liveSeq : ℕ) : (s.ticked c i ok liveSeq).controller.saveDue = false := by
  unfold ticked Controller.saveDue
  dsimp only
  split_ifs with hdue
  · exact decide_eq_false (not_not.2 rfl)
  · exact Bool.eq_false_iff.2 hdue

theorem kept_tick_real (h : s.Kept) (hs : s.Synced) {shot : Extraction}
    (hrec : c.recorder = s.controller.recorder)
    (hatt : c.lastAttemptedSeq = s.controller.lastAttemptedSeq)
    (hsaved : c.lastSavedSeq = s.controller.lastSavedSeq)
    (ht : Controller.Ticked c (c.liveTick i) i) (hp : c.recorder.publishes i = some shot)
    (hreal : isLikelyRealShot shot = true) (hstep : s' = s.ticked c i ok liveSeq) :
    s'.Kept ∧ s'.Synced := by
  obtain ⟨hverdict, hseq, hshot, hdone⟩ := ht.accepted shot hp hreal
  have hseq' : (c.liveTick i).lastAcceptedSeq = s.controller.recorder.finishedSeq + 1 := by
    rw [hseq, hrec]
  have hfinished : (c.liveTick i).recorder.finishedSeq = s.controller.recorder.finishedSeq + 1 := by
    rw [ht.finishedSeq, (Recorder.update_of_publishes hp).2, hrec]
  have hbehind : s.controller.lastSavedSeq < (c.liveTick i).lastAcceptedSeq := by
    have h₁ := hs.saved
    have h₂ := hs.accepted
    omega
  have hgrad : c.graduates i = some shot := by
    unfold Controller.graduates
    rw [if_pos hverdict, hshot]
  have heff : c.tickEffects i ok =
      .increment :: if (c.liveTick i).saveDue then [.save shot ok] else [] := by
    unfold Controller.tickEffects
    rw [if_pos hverdict, hshot]
    rfl
  have hattempted := saveDue_ticked s c i ok liveSeq
  have hdue : s.controller.recorder.finishedSeq + 1 < 2 ^ 32 → (c.liveTick i).saveDue = true :=
    saveDue_of_graduates hs hatt ht hseq'
  rw [← hstep] at hattempted
  unfold ticked at hstep
  rw [hp, hgrad, heff, Option.toList_some] at hstep
  rw [hstep] at hattempted ⊢
  refine ⟨⟨?_, ?_, fun hlt => ?_, ?_, fun hlt => ?_, ?_⟩, ⟨fun _ => ht.observed, ?_, hattempted, ?_⟩⟩
  · show s.graduated ++ [shot] = (s.finalized ++ [shot]).filter _
    rw [h.graduated, List.filter_append, List.filter_cons_of_pos hreal, List.filter_nil]
  · show (s.effects ++ Controller.Effect.increment :: _).count .increment =
      (s.graduated ++ [shot]).length
    rw [List.count_append, h.counted, List.length_append]
    split_ifs <;> rfl
  · have hlt' : s.controller.recorder.finishedSeq + 1 < 2 ^ 32 := hfinished.symm.trans_lt hlt
    rw [hdue hlt']
    show (s.effects ++ [Controller.Effect.increment, .save shot ok]).filterMap Controller.Effect.saved? =
      s.graduated ++ [shot]
    rw [List.filterMap_append, h.saved (by omega)]
    rfl
  · show (s.graduated ++ [shot]).getLast? =
      if (c.liveTick i).lastAcceptedSeq = 0 then none else some (c.liveTick i).lastAcceptedShot
    rw [List.getLast?_concat, if_neg (by omega), hshot]
  · have hlt' : s.controller.recorder.finishedSeq + 1 < 2 ^ 32 := hfinished.symm.trans_lt hlt
    rw [hdue hlt', Bool.true_and]
    show Controller.word (if ok then (c.liveTick i).lastAcceptedSeq else (c.liveTick i).lastSavedSeq) =
      Controller.word (c.liveTick i).lastAcceptedSeq ↔ s.graduated ++ [shot] = [] ∨
        ((s.effects ++ [Controller.Effect.increment, .save shot ok]).filterMap
          Controller.Effect.answer?).getLast? = some true
    have hanswer : ((s.effects ++ [Controller.Effect.increment, .save shot ok]).filterMap
        Controller.Effect.answer?).getLast? = some ok := by
      rw [List.filterMap_append]
      exact List.getLast?_concat
    rw [hanswer]
    cases ok with
    | true => exact iff_of_true rfl (Or.inr rfl)
    | false =>
      refine iff_of_false ?_ (by simp)
      show ¬ Controller.word (c.liveTick i).lastSavedSeq = Controller.word (c.liveTick i).lastAcceptedSeq
      rw [ht.savedSeq, hsaved, Controller.word_inj (by omega) (by omega)]
      exact hbehind.ne
  · intro _ hphase
    show isLikelyRealShot (c.liveTick i).recorder.current = true
    rw [hdone hphase]
    exact hreal
  · show (c.liveTick i).lastAcceptedSeq ≤ (c.liveTick i).recorder.finishedSeq
    omega
  · show (if ((c.liveTick i).saveDue && ok) = true then (c.liveTick i).lastAcceptedSeq
      else (c.liveTick i).lastSavedSeq) ≤ (c.liveTick i).lastAcceptedSeq
    rw [ht.savedSeq, hsaved]
    split_ifs
    · exact le_rfl
    · exact hbehind.le

end Tick

/-- **Step lemma.** A live tick keeps the history. -/
theorem kept_tick {s : MainLoop} (i : Recorder.Input) (a b : Bool) (load : Controller.LoadOutcome)
    (ok : Bool) (hr : s.replaying = false) (h : s.Kept) (hs : s.Synced) :
    (s.step (.tick i a b load ok)).Kept ∧ (s.step (.tick i a b load ok)).Synced ∧
      s.Rejects (.tick i a b load ok) := by
  obtain ⟨has, shot, seq, liveSeq, c, hc, -, hstep⟩ := step_tick i a b load ok hr
  have hrec : c.recorder = s.controller.recorder := by rw [hc]
  have haccSeq : c.lastAcceptedSeq = s.controller.lastAcceptedSeq := by rw [hc]
  have haccShot : c.lastAcceptedShot = s.controller.lastAcceptedShot := by rw [hc]
  have hatt : c.lastAttemptedSeq = s.controller.lastAttemptedSeq := by rw [hc]
  have hsaved : c.lastSavedSeq = s.controller.lastSavedSeq := by rw [hc]
  have hobs : c.lastObservedFinishedSeq = c.recorder.finishedSeq := by
    rw [hrec, ← hs.observed hr, hc]
  have ht := Controller.ticked_liveTick i hobs
  have hrejects : ∀ shot, c.recorder.publishes i ≠ some shot ∨ isLikelyRealShot shot = true ∨
      ((s.step (.tick i a b load ok)).controller.recorder.current.phase ≠ .done ∧
        (s.step (.tick i a b load ok)).controller.lastAcceptedSeq = s.controller.lastAcceptedSeq ∧
        (s.step (.tick i a b load ok)).controller.lastAcceptedShot = s.controller.lastAcceptedShot) := by
    intro shot
    by_cases hp : c.recorder.publishes i = some shot
    · right
      cases hreal : isLikelyRealShot shot with
      | true => exact Or.inl rfl
      | false =>
        obtain ⟨-, hseq, hshot, hphase⟩ := ht.rejected shot hp hreal
        rw [hstep]
        exact Or.inr ⟨hphase, hseq.trans haccSeq, hshot.trans haccShot⟩
    · exact Or.inl hp
  refine and_assoc.1 ⟨?_, ?_⟩
  · clear hc hrejects
    cases hp : c.recorder.publishes i with
    | none => exact kept_tick_quiet hr h hs hrec haccSeq haccShot hatt hsaved ht hp hstep
    | some shot =>
      cases hreal : isLikelyRealShot shot with
      | true => exact kept_tick_real h hs hrec hatt hsaved ht hp hreal hstep
      | false => exact kept_tick_fake h hs hrec haccSeq haccShot hatt hsaved ht hp hreal hstep
  · rintro _ _ _ _ _ shot ⟨⟩ - hp hfake
    rw [← hrec] at hp
    rcases hrejects shot with hno | hreal | hgood
    · exact absurd hp hno
    · exact absurd (hfake.symm.trans hreal) nofun
    · exact hgood

def Op.isTick : Op → Bool
  | .tick _ _ _ _ _ => true
  | _ => false

theorem rejects_of_not_tick {s : MainLoop} {op : Op} (h : op.isTick = false) : s.Rejects op := by
  rintro i a b load ok shot rfl
  cases h

/-- **Step lemma.** Every call of the main loop keeps the history. -/
theorem kept_step {s : MainLoop} (op : Op) (h : s.Kept) (hs : s.Synced) :
    (s.step op).Kept ∧ (s.step op).Synced ∧ s.Rejects op := by
  cases op with
  | beginSession =>
    obtain ⟨hq, hobs⟩ := quiet_beginSession s
    exact ⟨hq.kept h, hq.synced hs fun _ => hobs, rejects_of_not_tick rfl⟩
  | endSession =>
    have hq : Quiet s (s.step .endSession) :=
      ⟨rfl, rfl, rfl, rfl, rfl, rfl, rfl, le_rfl, fun hr _ => ⟨hr, rfl⟩⟩
    exact ⟨hq.kept h, hq.synced hs hs.observed, rejects_of_not_tick rfl⟩
  | tick i a b load ok =>
    cases hr : s.replaying with
    | true =>
      have hstep : s.step (.tick i a b load ok) = s := if_pos hr
      rw [hstep]
      refine ⟨h, hs, ?_⟩
      rintro _ _ _ _ _ _ - hr'
      exact absurd (hr.symm.trans hr') Bool.false_ne_true.symm
    | false => exact kept_tick i a b load ok hr h hs
  | contextAction =>
    obtain ⟨hq, hobs, hfin⟩ := quiet_contextAction s
    refine ⟨hq.kept h, hq.synced hs fun hr => ?_, rejects_of_not_tick rfl⟩
    rw [hobs, hfin]
    exact hs.observed hr
  | setTargetCoeffs coeffs =>
    have hq : Quiet s (s.step (.setTargetCoeffs coeffs)) :=
      ⟨rfl, rfl, rfl, rfl, rfl, rfl, rfl, le_rfl, fun hr _ => ⟨hr, rfl⟩⟩
    exact ⟨hq.kept h, hq.synced hs hs.observed, rejects_of_not_tick rfl⟩
  | startReplay =>
    obtain ⟨hq, hobs⟩ := quiet_startReplay s
    exact ⟨hq.kept h, hq.synced hs fun _ => hobs, rejects_of_not_tick rfl⟩
  | replayTick nowMs pumpOn scale =>
    cases hr : s.replaying with
    | true =>
      obtain ⟨hq, hr'⟩ := quiet_replayTick s nowMs pumpOn scale hr
      refine ⟨hq.kept h, hq.synced hs fun hno => ?_, rejects_of_not_tick rfl⟩
      exact absurd (hr'.symm.trans hno) Bool.false_ne_true.symm
    | false =>
      have hstep : s.step (.replayTick nowMs pumpOn scale) = s := if_neg (by rw [hr]; decide)
      rw [hstep]
      exact ⟨h, hs, rejects_of_not_tick rfl⟩
  | stopReplay =>
    obtain ⟨hq, hobs⟩ := quiet_stopReplay s
    exact ⟨hq.kept h, hq.synced hs fun _ => hobs, rejects_of_not_tick rfl⟩

/-- **Graduation.** Over every run of the main loop, the shots that graduate and are counted are the
real ones that live ticks finalized, each once and in order, and what is rejected shows neither as
`DONE` nor as the last shot.  While fewer than `2 ^ 32` records have been finished, each is saved
once, and `savedSeq` is behind exactly while the latest save has failed. -/
theorem graduates_run (ops : List Op) :
    Kept (exec step {} ops) ∧ Along step (fun s op => (s.step op).Kept ∧ s.Rejects op) {} ops := by
  have hall : Along step (fun _ _ => True) {} ops :=
    along_iff_forall_split.2 fun _ _ _ _ => trivial
  constructor
  · have hinv := hall.exec_invariant (fun s => s.Kept ∧ s.Synced)
      (fun s op hs _ => ⟨(kept_step op hs.1 hs.2).1, (kept_step op hs.1 hs.2).2.1⟩)
      ⟨kept_init, synced_init⟩
    exact hinv.1
  · refine hall.imp (fun s => s.Kept ∧ s.Synced) (fun s op hs _ => ?_) ⟨kept_init, synced_init⟩
    obtain ⟨hkept, hsynced, hrejects⟩ := kept_step op hs.1 hs.2
    exact ⟨⟨hkept, hsynced⟩, hkept, hrejects⟩

/-- A replay of a flush: the pump runs for a second, and no scale is there. -/
def replayedFlush : List Op :=
  [.startReplay, .replayTick 1000 true {}, .replayTick 2000 false {}, .replayTick 20000 false {},
    .stopReplay]

/-- The controller's part of it. -/
def afterFlush (c : Controller) : Controller :=
  let c := c.resetInFlight.notify
  let c := (c.replayTick 1000 true {}).notify
  let c := (c.replayTick 2000 false {}).notify
  let c := (c.replayTick 20000 false {}).notify
  c.resetInFlight.notify

theorem afterFlush_countedBefore (c : Controller) (k j : ℕ) :
    afterFlush (c.countedBefore k j) = (afterFlush c).countedBefore k j := by
  have hnotify (c : Controller) : (c.countedBefore k j).notify = c.notify.countedBefore k j := rfl
  unfold afterFlush
  simp only [Controller.resetInFlight_countedBefore, hnotify, Controller.replayTick_countedBefore]

theorem exec_replayedFlush (c : Controller) (finalized graduated : List Extraction)
    (effects : List Controller.Effect) :
    exec step ⟨c, false, finalized, graduated, effects⟩ replayedFlush =
      ⟨afterFlush c, false, finalized, graduated, effects⟩ := rfl

theorem afterFlush_again : afterFlush (afterFlush {}) = (afterFlush {}).countedBefore 1 5 := by
  decide +kernel

theorem countedBefore_zero (c : Controller) : c.countedBefore 0 0 = c := by
  unfold Controller.countedBefore Recorder.finishedBefore
  rw [Nat.zero_add, Nat.zero_add, Nat.zero_add]

theorem countedBefore_add (c : Controller) (k j k' j' : ℕ) :
    (c.countedBefore k j).countedBefore k' j' = c.countedBefore (k' + k) (j' + j) := by
  unfold Controller.countedBefore Recorder.finishedBefore
  dsimp only
  rw [Nat.add_assoc, Nat.add_assoc, Nat.add_assoc]

/-- Flushes in replays only advance the counts. -/
theorem exec_replayedFlushes (n : ℕ) :
    exec step {} (List.replicate (n + 1) replayedFlush).flatten =
      { controller := (afterFlush {}).countedBefore n (5 * n) } := by
  induction n with
  | zero =>
    rw [countedBefore_zero]
    exact exec_replayedFlush {} [] [] []
  | succ n ih =>
    rw [List.replicate_succ', List.flatten_append, exec_append, ih, List.flatten_singleton,
      exec_replayedFlush, afterFlush_countedBefore, afterFlush_again, countedBefore_add, Nat.mul_succ]

/-- The `k`th tick of a shot, with a reading of `cg` centigrams; the store would not save it. -/
def unsavedTick (k : ℕ) (cg : ℤ) (pumpOn : Bool) : Op :=
  let nowMs : U32 := BitVec.ofNat 32 (1000 + 300 * k)
  .tick { nowMs := nowMs, pumpSignal := { state := if pumpOn then .on else .off },
          scale := { present := true, grams := some (cg / 100), timestampMs := nowMs } }
    true false .nothingQueued false

/-- A pour of 12 g in 6 s; the readings stop with the pump. -/
def unsavedShot : List Op :=
  (List.range 10).map (fun k => unsavedTick k 0 true) ++
    (List.range 20).map (fun k => unsavedTick (10 + k) (60 + 60 * k) true) ++
    [unsavedTick 30 1200 false,
      .tick { nowMs := 16000, scale := { present := true } } false false .nothingQueued false]

/-- `2 ^ 32 - 1` flushes in replays, and a shot. -/
def comeRound : List Op := (List.replicate (2 ^ 32 - 2 + 1) replayedFlush).flatten ++ unsavedShot

theorem exec_comeRound : exec step {} comeRound = exec step
    { controller := (afterFlush {}).countedBefore (2 ^ 32 - 2) (5 * (2 ^ 32 - 2)) } unsavedShot := by
  unfold comeRound
  rw [exec_append, exec_replayedFlushes]

/-- The word of the count is 0 again, as that of the latest attempt is: the shot is not saved, and
`savedSeq` does not show it. -/
theorem not_graduates_comeRound :
    (¬ ∀ ops : List Op, (exec step {} ops).effects.filterMap Controller.Effect.saved? =
      (exec step {} ops).graduated) ∧
    ¬ ∀ ops : List Op, (Controller.word (exec step {} ops).controller.lastSavedSeq =
        Controller.word (exec step {} ops).controller.lastAcceptedSeq ↔
      (exec step {} ops).graduated = [] ∨
        ((exec step {} ops).effects.filterMap Controller.Effect.answer?).getLast? = some true) := by
  have hwords : Controller.word (exec step {} comeRound).controller.lastSavedSeq =
      Controller.word (exec step {} comeRound).controller.lastAcceptedSeq := by
    rw [exec_comeRound]
    decide +kernel
  have hgraduated : (exec step {} comeRound).graduated.length = 1 := by
    rw [exec_comeRound]
    decide +kernel
  have heffects : (exec step {} comeRound).effects = [.increment] := by
    rw [exec_comeRound]
    decide +kernel
  have hne : (exec step {} comeRound).graduated ≠ [] := by
    intro hnil
    rw [hnil] at hgraduated
    cases hgraduated
  constructor
  · intro hall
    have hsaved := hall comeRound
    rw [heffects] at hsaved
    exact hne hsaved.symm
  · intro hall
    rcases (hall comeRound).1 hwords with hnil | hanswer
    · exact hne hnil
    · rw [heffects] at hanswer
      cases hanswer

end MainLoop

end Pumpbug
