import Pumpbug.LiveBatches
import Pumpbug.WakeUpRuns

/-!
# The page when the device is quiet

Once everything is announced and the stream's task is left alone for eleven steps, the page has the
record in flight that the device has.
-/

namespace Pumpbug

open Lib

namespace LiveStream

open Controller (StatusSnapshot)
open ExtractionScreen (Device Moment Report Announced)
open ExtractionStream

/-- The poll takes the record in flight for the one that it sent whole, which it is not, or for none. -/
structure Confuses (w : Watched) : Prop where
  stage : w.world.session.stage = .inFlight
  connected : w.world.session.connected = true
  mayBeInFlight : w.world.session.mayBeInFlight = true
  inOrder : w.world.session.inOrder (copied w.world.device.controller) = true
  same : w.world.session.needFullRecord (copied w.world.device.controller).1 = false
  stale : w.world.session.lastSentRecordInit = false ∨ w.renewed = true

theorem Mistakes.confuses {w : Watched} (h : Mistakes w) : Confuses w :=
  ⟨h.stage, h.connected, h.copies.mayBeInFlight, h.copies.inOrder, h.batch, h.stale⟩

/-- What a session between two polls has of the record in flight: it was sent whole, with every
sample since, under the number of the shots before it. -/
def HasRecord (kept : Web.LiveModel) (s : Session) (renewed : Bool) (r : Report) : Prop :=
  s.stage = .poll → s.connected = true → r.status.active = true →
    r.inFlight.1.inPumpWindow = true →
      s.lastSentRecordInit = true ∧ renewed = false ∧
        s.samples.lastSentSampleIdx = r.inFlight.1.samples.count ∧
        ∀ f, Shows kept s.packets f → f.shotSeq = r.inFlight.2

section Rest

variable {kept : Web.LiveModel} {storage : MountState} {d : Device} {s : Session}
  {renewed : Bool} {a : ℕ} {ms : List Moment} {m : Moment}

theorem hasRecord_of_stage {r : Report} (h : s.stage ≠ .poll) : HasRecord kept s renewed r :=
  fun hpoll => absurd hpoll h

/-- What the status tells of the record in flight. -/
theorem status_record (h : s.snap.untimed = (d.report storage).status) :
    s.snap.active = (d.report storage).status.active ∧
      s.snap.currentPhase = d.controller.recorder.current.phase ∧
      s.snap.currentBeginMs = d.controller.recorder.current.beginMs ∧
      s.snap.currentSampleCount = d.controller.recorder.current.samples.count ∧
      s.snap.acceptedSeq = d.controller.lastAcceptedSeq := by
  have hactive : s.snap.untimed.active = _ := congrArg StatusSnapshot.active h
  have hphase : s.snap.untimed.currentPhase = _ := congrArg StatusSnapshot.currentPhase h
  have hbegin : s.snap.untimed.currentBeginMs = _ := congrArg StatusSnapshot.currentBeginMs h
  have hcount : s.snap.untimed.currentSampleCount = _ :=
    congrArg StatusSnapshot.currentSampleCount h
  have hseq : s.snap.untimed.acceptedSeq = _ := congrArg StatusSnapshot.acceptedSeq h
  exact ⟨hactive, hphase, hbegin, hcount, hseq⟩

/-- A poll that knows the status gets the record. -/
theorem hasRecord_refreshInFlight (hfed : Fed kept s d.controller.recorder.current renewed)
    (hstage : s.stage = .inFlight) (hc : s.connected = true)
    (hknows : s.snap.untimed = (d.report storage).status) (hno : ¬ Confuses ⟨⟨d, s⟩, renewed⟩)
    (hactive : (d.report storage).status.active = true)
    (hwindow : d.controller.recorder.current.inPumpWindow = true) :
    (s.refreshInFlight d.controller).lastSentRecordInit = true ∧
      (renewed && !sendsWhole s (s.refreshInFlight d.controller)) = false ∧
      (s.refreshInFlight d.controller).samples.lastSentSampleIdx =
        d.controller.recorder.current.samples.count := by
  obtain ⟨hsame, hphase, hbegin, hcount, hseq⟩ := status_record hknows
  have hmay : s.mayBeInFlight = true :=
    mayBeInFlight_iff.2 ⟨hsame.trans hactive, by
      rw [hphase]
      exact phase_of_inPumpWindow hwindow⟩
  have hin : s.inOrder (copied d.controller) = true := inOrder_iff.2 ⟨hwindow, hseq.symm⟩
  have hkept (hfull : s.needFullRecord (copied d.controller).1 = false) :
      s.lastSentRecordInit = true ∧ renewed = false ∧
        s.samples.lastSentSampleIdx ≤ d.controller.recorder.current.samples.count := by
    have hsure : s.lastSentRecordInit = true ∧ renewed = false := by
      by_contra hstale
      refine hno ⟨hstage, hc, hmay, hin, hfull, ?_⟩
      rw [not_and_or, Bool.not_eq_false, Bool.not_eq_true] at hstale
      exact hstale
    obtain ⟨-, f, -, hfollows⟩ := hfed.follows hsure.1 hsure.2
    exact ⟨hsure.1, hsure.2, hfollows.delivered.tracks.le⟩
  have hwants : s.wantsRecord = false → s.needFullRecord (copied d.controller).1 = false ∧
      d.controller.recorder.current.samples.count ≤ s.samples.lastSentSampleIdx := by
    intro hwants
    simp only [Session.wantsRecord, hphase, hbegin, hcount, Bool.or_eq_false_iff,
      decide_eq_false_iff_not, not_lt] at hwants
    refine ⟨?_, hwants.2⟩
    simp only [Session.needFullRecord, Controller.snapshotExtraction, Bool.or_eq_false_iff,
      decide_eq_false_iff_not]
    exact hwants.1
  cases hw : s.wantsRecord with
  | false =>
    obtain ⟨hfull, hge⟩ := hwants hw
    obtain ⟨hinit, hsure, hle⟩ := hkept hfull
    have heq : s.refreshInFlight d.controller = s := by simp [Session.refreshInFlight, hw]
    rw [heq, hsure]
    exact ⟨hinit, rfl, le_antisymm hle hge⟩
  | true =>
    have hgo : (s.mayBeInFlight && s.wantsRecord && s.inOrder (copied d.controller)) = true := by
      rw [hmay, hw, hin]
      rfl
    cases hfull : s.needFullRecord (copied d.controller).1 with
    | true =>
      have heq : s.refreshInFlight d.controller =
          s.sendCurrentRecord (copied d.controller).1 (copied d.controller).2 := by
        simp only [Session.refreshInFlight, hgo, hfull, if_true]
      rw [heq, sendsWhole_concat (p := .currentRecord _ _) rfl]
      exact ⟨rfl, Bool.and_false renewed, afterCurrentRecord_idx _⟩
    | false =>
      obtain ⟨hinit, hsure, hle⟩ := hkept hfull
      have heq : s.refreshInFlight d.controller =
          s.sendSampleBatch (copied d.controller).1 (copied d.controller).2 := by
        simp only [Session.refreshInFlight, hgo, hfull, if_true, Bool.false_eq_true, if_false]
      rw [heq, hsure, Bool.false_and]
      unfold Session.sendSampleBatch
      split_ifs with hsent
      · exact ⟨hinit, rfl, le_antisymm hle hsent⟩
      · exact ⟨hinit, rfl, afterSampleBatch_idx (not_le.1 hsent)⟩

/-- A step that ends a poll leaves the session with the record. -/
theorem hasRecord_inFlight (hfed : Fed kept s d.controller.recorder.current renewed)
    (hd : d.controller.Sendable) (ho : Ordered s d a) (hheld : Held kept False s a)
    (hstage : s.stage = .inFlight) (hknows : s.snap.untimed = (d.report storage).status)
    (hno : ¬ Confuses ⟨⟨d, s⟩, renewed⟩) (millis : U32) :
    HasRecord kept (s.step storage d millis) (renewed && !sendsWhole s (s.step storage d millis))
      (d.report storage) := by
  intro _ _ hactive hwindow
  have hseq : ∀ f, Shows kept (s.step storage d millis).packets f →
      f.shotSeq = ((d.report storage).inFlight).2 := by
    intro f hf
    have hnext : Held kept False (s.step storage d millis) a :=
      held_inFlight hheld ho hd hstage False.elim millis
    obtain ⟨-, hseq⟩ := ho.same hstage
    obtain ⟨-, -, -, -, haccepted⟩ := status_record hknows
    exact (hnext.held f hf).trans (hseq.trans haccepted)
  by_cases hc : s.connected = true
  · obtain ⟨hinit, hsure, hcount⟩ :=
      hasRecord_refreshInFlight hfed hstage hc hknows hno hactive hwindow
    have hwhole := sendsWhole_sendState (length_refreshInFlight s d.controller) millis
    have hstep : (s.step storage d millis).lastSentRecordInit =
          (s.refreshInFlight d.controller).lastSentRecordInit ∧
        sendsWhole s (s.step storage d millis) = sendsWhole s (s.refreshInFlight d.controller) ∧
        (s.step storage d millis).samples = (s.refreshInFlight d.controller).samples := by
      simp only [Session.step, hstage, if_pos hc]
      split_ifs
      · exact ⟨rfl, hwhole, rfl⟩
      · exact ⟨rfl, rfl, rfl⟩
    rw [hstep.1, hstep.2.1, hstep.2.2]
    exact ⟨hinit, hsure, hcount, hseq⟩
  · obtain ⟨hsame, hphase, -, -, haccepted⟩ := status_record hknows
    have hmay : s.mayBeInFlight = true :=
      mayBeInFlight_iff.2 ⟨hsame.trans hactive, by
        rw [hphase]
        exact phase_of_inPumpWindow hwindow⟩
    have hin : s.inOrder (copied d.controller) = true := inOrder_iff.2 ⟨hwindow, haccepted.symm⟩
    have hstep : s.step storage d millis =
        { s.sendCurrentRecord (copied d.controller).1 (copied d.controller).2 with
          stage := .poll, connected := true } := by
      simp only [Session.step, hstage, if_neg hc, Session.connectInFlight, hmay, hin, Bool.and_self,
        if_true]
    refine ⟨?_, ?_, ?_, hseq⟩
    · rw [hstep]
      rfl
    · rw [hstep, sendsWhole_concat (p := .currentRecord _ _) rfl]
      exact Bool.and_false renewed
    · rw [hstep]
      exact afterCurrentRecord_idx _

/-- A look at the record that nothing has changed since. -/
theorem hasRecord_device (hd : d.controller.Sendable)
    (hsame : (d.exec m).report storage = d.report storage)
    (h : HasRecord kept s renewed (d.report storage)) :
    HasRecord kept s (renewed || renewsAt d m) ((d.exec m).report storage) := by
  rw [hsame]
  intro hstage hc hactive hwindow
  obtain ⟨hinit, hold, hcount, hseq⟩ := h hstage hc hactive hwindow
  refine ⟨hinit, ?_, hcount, hseq⟩
  rw [hold, Bool.false_or]
  cases m with
  | scale state => rfl
  | run sec =>
    by_contra hrenews
    have hrecord : (d.exec (.run sec)).controller.recorder.current = d.controller.recorder.current :=
      congrArg (fun r : Report => r.inFlight.1) hsame
    exact Controller.changes_of_renews hd (Bool.not_eq_false _ ▸ hrenews) hwindow hrecord

end Rest

/-! ## Runs -/

/-- What a session knows of a report, with the record in flight. -/
def KnowsAll (kept : Web.LiveModel) (s : Session) (renewed : Bool) (r : Report) : Prop :=
  s.Knows r ∧ HasRecord kept s renewed r

/-- What a session has read, when the main task has the moments `ms` still before it. -/
structure Rests (kept : Web.LiveModel) (storage : MountState) (w : Watched) (ms : List Moment) :
    Prop where
  fed : FedWorld kept w
  announced : Announced storage w.world.device ms
  behind : Behind liveSeqOf w.world.session.seen w.world.device
  known : Due liveSeqOf (.run .notify) w.world.session.seen w.world.device ms ∨
    KnowsAll kept w.world.session w.renewed (w.world.device.report storage)

/-- A turn at which the session does not take the record in flight for another one. -/
def Certain (w : Watched) : Turn → Prop
  | .device _ => True
  | .session _ => ¬ Confuses w

section Runs

variable {kept : Web.LiveModel} {storage : MountState} {w : Watched} {m : Moment} {ms : List Moment}

theorem rests_device (h : Rests kept storage w (m :: ms)) (hload : LoadsSendable m) :
    Rests kept storage (w.step storage (.device m)) ms where
  fed := fedWorld_step h.fed hload trivial
  announced := h.announced.2
  behind := h.behind.step liveSeqOf_notify liveSeqOf_exec
  known := by
    by_cases hsame : (w.world.device.exec m).report storage = w.world.device.report storage
    · have hnext := due_or_known_step liveSeqOf_notify liveSeqOf_exec h.announced h.behind h.known
      refine hnext.imp id ?_
      rintro ⟨hknows, hrecord⟩
      rw [hsame] at hrecord
      exact ⟨hknows, hasRecord_device h.fed.sendable hsame hrecord⟩
    · exact Or.inl (Or.inr (h.announced.1 hsame))

/-- The record in flight comes with the step that ends the poll. -/
theorem knowsAll_session (h : Rests kept storage w ms) (hno : ¬ Confuses w) (millis : U32) :
    Due liveSeqOf (.run .notify) (w.world.session.step storage w.world.device millis).seen
        w.world.device ms ∨
      KnowsAll kept (w.world.session.step storage w.world.device millis)
        (w.step storage (.session millis)).renewed (w.world.device.report storage) := by
  have hmid (hstage : (w.world.session.step storage w.world.device millis).stage ≠ .poll) :=
    (known_step millis (h.known.imp id And.left)).imp id fun hknows =>
      (⟨hknows, hasRecord_of_stage hstage⟩ :
        KnowsAll kept (w.world.session.step storage w.world.device millis)
          (w.step storage (.session millis)).renewed (w.world.device.report storage))
  cases hstage : w.world.session.stage with
  | poll =>
    by_cases hidle : w.world.session.connected = true ∧
        w.world.session.lastSeenLiveSeq = w.world.device.controller.liveSeq
    · have hsame : w.world.session.step storage w.world.device millis = w.world.session :=
        step_idle millis hstage hidle.1 hidle.2
      have hold : (w.step storage (.session millis)).renewed = w.renewed := by
        show (w.renewed && !sendsWhole w.world.session
          (w.world.session.step storage w.world.device millis)) = w.renewed
        rw [hsame, sendsWhole_self rfl, Bool.not_false, Bool.and_true]
      rw [hsame, hold]
      exact h.known
    · apply hmid
      rw [step_poll millis hstage fun hc hseen => hidle ⟨hc, hseen⟩]
      simp
  | active =>
    apply hmid
    rw [step_active millis hstage]
    simp
  | saved =>
    apply hmid
    rw [step_saved millis hstage]
    simp
  | locked =>
    apply hmid
    simp [(step_locked storage w.world.device millis hstage).2]
  | display =>
    apply hmid
    simp [(step_display_snap storage w.world.device millis hstage).2.2]
  | inFlight =>
    obtain ⟨a, ho, hheld⟩ := h.fed.held
    have hknown := known_step millis (h.known.imp id And.left)
    obtain hdue | ⟨hknows, -⟩ := h.known
    · left
      obtain ⟨hsame, -⟩ := step_inFlight storage w.world.device millis hstage
      have hseen : (w.world.session.step storage w.world.device millis).seen =
          some w.world.session.lastSeenLiveSeq := by
        simp [Session.seen, hsame.connected, hsame.lastSeenLiveSeq]
      rw [hseen, ← seen_of_stage (by simp [hstage])]
      exact hdue
    · refine hknown.imp id fun hnext => ⟨hnext, ?_⟩
      simp only [Session.Knows, hstage] at hknows
      exact hasRecord_inFlight h.fed.fed h.fed.sendable ho hheld hstage hknows hno millis

theorem rests_session (h : Rests kept storage w ms) (hno : ¬ Confuses w) (millis : U32) :
    Rests kept storage (w.step storage (.session millis)) ms where
  fed := fedWorld_step h.fed trivial fun hm => hno hm.confuses
  announced := h.announced
  behind := behind_step millis h.behind
  known := knowsAll_session h hno millis

/-- **Run lemma.** Any turns that end the moments of the main task. -/
theorem rests_turns (turns : List Turn) (h : Rests kept storage w (turns.filterMap Turn.moment?))
    (hload : ∀ m ∈ turns.filterMap Turn.moment?, LoadsSendable m)
    (hc : Along (Watched.step storage) Certain w turns) :
    Rests kept storage (exec (Watched.step storage) w turns) [] := by
  induction turns generalizing w with
  | nil => exact h
  | cons turn turns ih =>
    cases turn with
    | device m =>
      refine ih (rests_device h (hload m (by simp [Turn.moment?]))) ?_ hc.2
      intro m' hm'
      exact hload m' (by simp [Turn.moment?, hm'])
    | session millis => exact ih (rests_session h hc.1 millis) hload hc.2

/-- The page has the record in flight that the controller has, with every sample. -/
def ShowsRecord (m : Web.LiveModel) (c : Controller) : Prop :=
  ∃ f, m.inflight = some f ∧ f.shotSeq = c.lastAcceptedSeq ∧
    f.ext.beginMs = c.recorder.current.beginMs ∧
    List.Forall₂ (SameSample c.recorder.current.beginMs) c.recorder.current.samples.items
      f.ext.samples

/-- A session at rest has the record in flight, if there is one. -/
theorem record_of_rests (h : Rests kept storage w [])
    (hrest : w.world.session.stepsLeft w.world.device = 0)
    (hactive : w.world.device.controller.active = true)
    (hwindow : w.world.device.controller.recorder.current.inPumpWindow = true) :
    ShowsRecord (page kept w.world.session.packets) w.world.device.controller := by
  obtain ⟨hpoll, hseen⟩ := settled_of_stepsLeft hrest
  have hconnected : w.world.session.connected = true := by
    by_contra hc
    simp [Session.seen, hpoll, hc] at hseen
  obtain ⟨-, hrecord⟩ : KnowsAll kept w.world.session w.renewed (w.world.device.report storage) := by
    apply h.known.resolve_left
    rintro (hdue | hmem)
    · exact hdue hseen
    · exact List.not_mem_nil hmem
  obtain ⟨hinit, hsure, hcount, hseq⟩ := hrecord hpoll hconnected hactive hwindow
  obtain ⟨-, f, hf, hfollows⟩ := h.fed.fed.follows hinit hsure
  exact ⟨f, hf, hseq f ⟨Or.inr (h.fed.fed.came hinit), hf⟩, hfollows.beginMs, hfollows.whole hcount⟩

theorem device_turns (w : World) (turns : List Turn) :
    (exec (World.step storage) w turns).device =
      (turns.filterMap Turn.moment?).foldl Device.exec w.device := by
  induction turns generalizing w with
  | nil => rfl
  | cons turn turns ih =>
    cases turn with
    | device m => exact ih (w.step storage (.device m))
    | session millis => exact ih (w.step storage (.session millis))

end Runs

end LiveStream

namespace ExtractionScreen

open ExtractionStream (Turn World)
open LiveStream (Watched Confuses ShowsRecord page)

/-- **The page ends up with the record in flight.** Once everything is announced and the stream's
task has had eleven steps to itself, the page has the record that the device has in its pump window,
with every sample, whatever it keeps from before the stream, unless a poll took it for another
one. -/
theorem page_catches_up (kept : Web.LiveModel) (storage : MountState) (ops : List Op)
    (hload : ∀ op ∈ ops, op.LoadsStored) (ha : Announced storage {} (allMoments {} ops))
    (turns : List Turn) (hturns : turns.filterMap Turn.moment? = allMoments {} ops)
    (later : List U32) (hlen : 11 ≤ later.length)
    (hactive : (exec step {} ops).loop.controller.active = true)
    (hwindow : (exec step {} ops).loop.controller.recorder.current.inPumpWindow = true) :
    ShowsRecord
        (page kept (exec (World.step storage) {} (turns ++ later.map Turn.session)).session.packets)
        (exec step {} ops).loop.controller ∨
      ∃ pre millis post, turns ++ later.map Turn.session = pre ++ .session millis :: post ∧
        Confuses (exec (Watched.step storage) {} pre) := by
  have hmoments : (turns ++ later.map Turn.session).filterMap Turn.moment? = allMoments {} ops := by
    rw [List.filterMap_append, ExtractionStream.moments_later, List.append_nil, hturns]
  by_cases hs : Along (Watched.step storage) LiveStream.Certain {} (turns ++ later.map Turn.session)
  · left
    have hrests := LiveStream.rests_turns (turns ++ later.map Turn.session)
      ⟨LiveStream.fedWorld_init kept, by rwa [hmoments], by simp [Behind, ExtractionStream.Session.seen],
        Or.inl (Or.inl (by simp [ExtractionStream.Session.seen]))⟩
      (by
        rw [hmoments]
        exact loadsSendable_allMoments hload) hs
    have hworld : (exec (Watched.step storage) {} (turns ++ later.map Turn.session)).world =
        exec (World.step storage) {} (turns ++ later.map Turn.session) :=
      LiveStream.watched_world storage {} _
    have hdevice : (exec (World.step storage) {} (turns ++ later.map Turn.session)).device =
        (exec step {} ops).device := by
      rw [LiveStream.device_turns, hmoments]
      exact foldl_allMoments {} ops
    have hcontroller := congrArg Device.controller hdevice
    have hrest : (exec (World.step storage) {} (turns ++ later.map Turn.session)).session.stepsLeft
        (exec (World.step storage) {} (turns ++ later.map Turn.session)).device = 0 := by
      have hsame : (exec (World.step storage) {} (turns ++ later.map Turn.session)).device =
          (exec (World.step storage) {} turns).device := by
        rw [hdevice, LiveStream.device_turns, hturns]
        exact (foldl_allMoments {} ops).symm
      rw [hsame, exec_append, ExtractionStream.stepsLeft_later]
      have hle := ExtractionStream.stepsLeft_le (exec (World.step storage) {} turns).session
        (exec (World.step storage) {} turns).device
      omega
    have hshows := LiveStream.record_of_rests hrests
    rw [hworld, hcontroller] at hshows
    exact hshows hrest hactive hwindow
  · right
    rw [along_iff_forall_split] at hs
    push Not at hs
    obtain ⟨pre, turn, post, heq, hno⟩ := hs
    cases turn with
    | device m => exact absurd trivial hno
    | session millis => exact ⟨pre, millis, post, heq, not_not.1 hno⟩

/-- A pump that starts. -/
def startRun : List Op := [.beginSession, .tick {} 1000 { state := .on } 0 .nothingQueued true]

theorem startRun_announced : Announced .ready {} (allMoments {} startRun) := by
  let s : ExtractionScreen := exec step {} [.beginSession]
  have hstill : s.Still := still_step .beginSession still_init trivial
  have hallowed : s.Allowed (.tick {} 1000 { state := .on } 0 .nothingQueued true) := rfl
  obtain ⟨-, ms, hends⟩ | ⟨hquiet, -⟩ := notifies_iff hstill hallowed
  · have hmoments : allMoments {} startRun =
        (moments {} .beginSession ++ ms) ++ [.run .notify] := by
      rw [List.append_assoc, ← hends]
      simp [startRun, allMoments, s]
    rw [hmoments]
    exact announces_concat (report_notify .ready) _
  · have hoff : PumpSignalObservation.isOn { state := .on } = false := hquiet.pump
    exact absurd hoff (by decide)

theorem page_catches_up_startRun :
    ShowsRecord
        (page brokenOff (exec (World.step .ready) {} (attended (allMoments {} startRun) ++
          (List.replicate 11 1000).map Turn.session)).session.packets)
        (exec step {} startRun).loop.controller ∨
      ∃ pre millis post, attended (allMoments {} startRun) ++
          (List.replicate 11 1000).map Turn.session = pre ++ .session millis :: post ∧
        Confuses (exec (Watched.step .ready) {} pre) := by
  have hload : ∀ op ∈ startRun, op.LoadsStored := by simp [startRun, Op.LoadsStored]
  exact page_catches_up brokenOff .ready startRun hload startRun_announced _ (moments_attended _)
    (List.replicate 11 1000) (by simp) (by decide +kernel) (by decide +kernel)

end ExtractionScreen

end Pumpbug
