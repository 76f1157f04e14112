import Pumpbug.LiveEnds

/-!
# The samples of the record in flight

A batch continues the record that the session sent whole, if it is still the record in flight.  The
session goes by `beginMs` and the phase; a history variable remembers what it cannot see, whether the
record was renewed in between.
-/

namespace Pumpbug

open Lib

namespace LiveStream

open Controller (StatusSnapshot)
open ExtractionScreen (Device Moment)
open ExtractionStream

/-! ## The record that was sent whole -/

/-- The moment begins a record, or clears the one there is. -/
def renewsAt (d : Device) : Moment → Bool
  | .scale _ => false
  | .run sec => d.controller.renews sec

/-- A step of the session sends the record whole. -/
def sendsWhole (s s' : Session) : Bool := (s'.packets.drop s.packets.length).any isWhole

/-- A world, with whether the record in flight was renewed since the session last sent it whole. -/
structure Watched where
  world : World := {}
  renewed : Bool := false

def Watched.step (storage : MountState) (w : Watched) (turn : Turn) : Watched :=
  let next := w.world.step storage turn
  match turn with
  | .device m => ⟨next, w.renewed || renewsAt w.world.device m⟩
  | .session _ => ⟨next, w.renewed && !sendsWhole w.world.session next.session⟩

theorem watched_world (storage : MountState) (w : Watched) (turns : List Turn) :
    (exec (Watched.step storage) w turns).world = exec (World.step storage) w.world turns := by
  induction turns generalizing w with
  | nil => rfl
  | cons turn turns ih =>
    have hstep : (w.step storage turn).world = w.world.step storage turn := by
      cases turn <;> rfl
    rw [exec_cons, exec_cons, ih, hstep]

/-- The poll sends a batch although the record is not the one that it sent whole, or it sent none. -/
structure Mistakes (w : Watched) : Prop where
  stage : w.world.session.stage = .inFlight
  connected : w.world.session.connected = true
  copies : Copies w.world.session w.world.device.controller
  batch : w.world.session.needFullRecord (copied w.world.device.controller).1 = false
  more : w.world.session.samples.lastSentSampleIdx <
    (copied w.world.device.controller).1.samples.count
  stale : w.world.session.lastSentRecordInit = false ∨ w.renewed = true

/-- With a packet of the record in flight, the page has the whole record, as it was copied. -/
def Faithful (kept : Web.LiveModel) (pre : List Packet) (p : Packet) : Prop :=
  ∀ e q, (p = .currentRecord e q ∨ ∃ samples, p = .sampleBatch samples e q) →
    ∃ f, (page kept (pre ++ [p])).inflight = some f ∧ f.shotSeq = q ∧ f.ext.beginMs = e.beginMs ∧
      List.Forall₂ (SameSample e.beginMs) e.samples.items f.ext.samples

theorem Follows.whole {f : Web.LiveRecord} {samples : SentSamples} {e : Extraction}
    (h : Follows f samples e) (hall : samples.lastSentSampleIdx = e.samples.count) :
    List.Forall₂ (SameSample e.beginMs) e.samples.items f.ext.samples := by
  have hsamples := h.delivered.samples
  rwa [hall, Buffer.count, List.take_length] at hsamples

theorem afterCurrentRecord_idx (e : Extraction) :
    (SentSamples.afterCurrentRecord e).lastSentSampleIdx = e.samples.count := by
  unfold SentSamples.afterCurrentRecord
  split <;> rfl

theorem afterSampleBatch_idx {samples : SentSamples} {e : Extraction}
    (h : samples.lastSentSampleIdx < e.samples.count) :
    (samples.afterSampleBatch e).lastSentSampleIdx = e.samples.count := by
  unfold SentSamples.afterSampleBatch
  rw [if_neg (not_le.2 h)]
  split <;> rfl

/-! ## The page and the record -/

/-- What the page has of the record `e`, `renewed` since it was sent whole or not. -/
structure Fed (kept : Web.LiveModel) (s : Session) (e : Extraction) (renewed : Bool) : Prop where
  inSync : (page kept s.packets).outOfSync = false
  faithful : Each (Faithful kept) s.packets
  came : s.lastSentRecordInit = true → s.packets.any isWhole = true
  fresh : s.connected = false → s.lastSentRecordInit = false
  follows : s.lastSentRecordInit = true → renewed = false →
    e.phase ≠ .idle ∧ ∃ f, (page kept s.packets).inflight = some f ∧ Follows f s.samples e
  named : s.stage = .display ∨ s.stage = .inFlight → s.snap.currentPhase.Named
  live : s.stage = .display ∨ s.stage = .inFlight → s.lastSentRecordInit = true →
    renewed = false → s.snap.currentPhase ≠ .idle

theorem fed_init (kept : Web.LiveModel) (e : Extraction) (renewed : Bool) :
    Fed kept {} e renewed where
  inSync := rfl
  faithful := each_nil _
  came := fun h => absurd h Bool.false_ne_true
  fresh := fun _ => rfl
  follows := fun h => absurd h Bool.false_ne_true
  named := fun h => absurd h (by decide)
  live := fun _ h => absurd h Bool.false_ne_true

section Fed

variable {kept : Web.LiveModel} {s s' : Session} {e : Extraction} {renewed : Bool}

/-- The record in flight goes on, or is renewed. -/
theorem Fed.grow {c c' : Controller} (h : Fed kept s c.recorder.current renewed) {again : Bool}
    (hkeeps : again = false → c.KeepsRecord c') :
    Fed kept s c'.recorder.current (renewed || again) where
  inSync := h.inSync
  faithful := h.faithful
  came := h.came
  fresh := h.fresh
  follows := by
    intro hinit hsame
    rw [Bool.or_eq_false_iff] at hsame
    obtain ⟨hidle, f, hf, hfollows⟩ := h.follows hinit hsame.1
    have hkeep := hkeeps hsame.2
    exact ⟨fun hi => hidle (hkeep.idle.1 hi), f, hf, hfollows.grow hkeep.grows⟩
  named := h.named
  live := by
    intro hstage hinit hsame
    rw [Bool.or_eq_false_iff] at hsame
    exact h.live hstage hinit hsame.1

/-- A session that goes on without a packet. -/
theorem Fed.of_same (h : Fed kept s e renewed) (hpackets : s'.packets = s.packets)
    (hconnected : s'.connected = false → s.connected = false)
    (hinit : s'.lastSentRecordInit = s.lastSentRecordInit)
    (hsamples : s'.samples = s.samples)
    (hnamed : s'.stage = .display ∨ s'.stage = .inFlight →
      s'.snap.currentPhase.Named)
    (hlive : s'.stage = .display ∨ s'.stage = .inFlight → s'.lastSentRecordInit = true →
      renewed = false → s'.snap.currentPhase ≠ .idle) : Fed kept s' e renewed where
  inSync := by
    rw [hpackets]
    exact h.inSync
  faithful := by
    rw [hpackets]
    exact h.faithful
  came := by
    rw [hpackets, hinit]
    exact h.came
  fresh := by
    rw [hinit]
    exact fun hc => h.fresh (hconnected hc)
  follows := by
    rw [hpackets, hinit, hsamples]
    exact h.follows
  named := hnamed
  live := hlive

theorem sendsWhole_self (h : s'.packets = s.packets) : sendsWhole s s' = false := by
  simp [sendsWhole, h]

theorem sendsWhole_sendState (h : s.packets.length ≤ s'.packets.length) (millis : U32) :
    sendsWhole s (s'.sendState millis) = sendsWhole s s' := by
  simp [sendsWhole, Session.sendState, Session.send, List.drop_append_of_le_length h, isWhole]

theorem sendsWhole_concat {p : Packet} (h : s'.packets = s.packets ++ [p]) :
    sendsWhole s s' = isWhole p := by
  simp [sendsWhole, h]

theorem reads_named {snap : StatusSnapshot} (h : snap.currentPhase.Named)
    (hidle : snap.currentPhase ≠ .idle) : ¬ readsIdle snap := by
  unfold readsIdle Web.State.ofSnapshot Web.phaseName
  rcases h with hp | hp | hp | hp
  · exact absurd hp hidle
  · simp [hp, Phase.toByte]
  · simp [hp, Phase.toByte]
  · simp [hp, Phase.toByte]

/-- A status leaves the record in flight alone, unless it is idle. -/
theorem fed_sendState (h : Fed kept s e renewed) (hnamed : s.snap.currentPhase.Named)
    (hlive : s.lastSentRecordInit = true → renewed = false → s.snap.currentPhase ≠ .idle)
    (millis : U32) : Fed kept (s.sendState millis) e renewed := by
  have hpage : page kept (s.sendState millis).packets =
      { page kept s.packets with
        inflight := if (page kept s.packets).abandoned (Web.State.ofSnapshot s.snap) then none
          else (page kept s.packets).inflight
        lastRecord := if s.snap.hasDisplayShot then (page kept s.packets).lastRecord else none
        state := some (Web.State.ofSnapshot s.snap) } :=
    (page_concat kept s.packets (.state s.snap)).trans (receive_state h.inSync s.snap)
  refine ⟨?_, ?_, fun hinit => ?_, h.fresh, fun hinit hsame => ?_, fun _ => hnamed, fun _ => hlive⟩
  · rw [hpage]
    exact h.inSync
  · exact h.faithful.concat fun e' q hp => by simp at hp
  · simp [Session.sendState, Session.send, h.came hinit]
  · obtain ⟨hidle, f, hf, hfollows⟩ := h.follows hinit hsame
    refine ⟨hidle, f, ?_, hfollows⟩
    have hphase : (Web.State.ofSnapshot s.snap).phase ≠ .IDLE := reads_named hnamed (hlive hinit hsame)
    rw [hpage]
    simp [Web.LiveModel.abandoned, hphase, hf]

/-- The record goes out whole. -/
theorem fed_sendCurrentRecord (h : Fed kept s e renewed) (he : e.Sendable)
    (hidle : e.phase ≠ .idle)
    (hnamed : s.snap.currentPhase.Named) (hlive : s.snap.currentPhase ≠ .idle)
    (hc : s.connected = true) (q : ℕ) : Fed kept (s.sendCurrentRecord e q) e false := by
  obtain ⟨js, hsame, hreceive⟩ := receive_currentRecord h.inSync he q
  have hpage : page kept (s.packets ++ [.currentRecord e q]) =
      { page kept s.packets with inflight := some ⟨js, q⟩ } :=
    (page_concat kept s.packets (.currentRecord e q)).trans hreceive
  have hfollows := follows_currentRecord hsame q
  refine ⟨?_, ?_, fun _ => ?_, fun hno => ?_, fun _ _ => ⟨hidle, ⟨js, q⟩, ?_, hfollows⟩,
    fun _ => hnamed, fun _ _ _ => hlive⟩
  · show (page kept (s.packets ++ [.currentRecord e q])).outOfSync = false
    rw [hpage]
    exact h.inSync
  · refine h.faithful.concat fun e' q' hp => ?_
    obtain ⟨rfl, rfl⟩ : e = e' ∧ q = q' := by simpa using hp
    rw [hpage]
    exact ⟨_, rfl, rfl, hfollows.beginMs, hfollows.whole (afterCurrentRecord_idx e)⟩
  · simp [Session.sendCurrentRecord, Session.send, isWhole]
  · exact absurd (hc.symm.trans hno) (by simp)
  · show (page kept (s.packets ++ [.currentRecord e q])).inflight = _
    rw [hpage]

/-- A batch goes out, of the record that was sent whole. -/
theorem fed_sampleBatch (h : Fed kept s e false) (he : e.Sendable)
    (hinit : s.lastSentRecordInit = true)
    (hmore : s.samples.lastSentSampleIdx < e.samples.count) {q : ℕ}
    (hseq : ∀ f, Shows kept s.packets f → f.shotSeq = q) :
    Fed kept { s.send (.sampleBatch s.samples e q) with samples := s.samples.afterSampleBatch e } e
      false := by
  obtain ⟨hidle, f, hf, hfollows⟩ := h.follows hinit rfl
  obtain rfl := hseq f ⟨Or.inr (h.came hinit), hf⟩
  obtain ⟨f', hreceive, hshot, hfollows'⟩ :=
    receive_sampleBatch h.inSync hf hfollows he.weighed hmore
  have hpage : page kept (s.packets ++ [.sampleBatch s.samples e f.shotSeq]) =
      { page kept s.packets with inflight := some f' } :=
    (page_concat kept s.packets _).trans hreceive
  refine ⟨?_, ?_, fun _ => ?_, h.fresh, fun _ _ => ⟨hidle, f', ?_, hfollows'⟩, h.named, h.live⟩
  · show (page kept (s.packets ++ [.sampleBatch s.samples e f.shotSeq])).outOfSync = false
    rw [hpage]
    exact h.inSync
  · refine h.faithful.concat fun e' q' hp => ?_
    obtain ⟨rfl, rfl⟩ : e = e' ∧ f.shotSeq = q' := by
      obtain hp | ⟨samples, hp⟩ := hp
      · cases hp
      · exact ⟨(Packet.sampleBatch.inj hp).2.1, (Packet.sampleBatch.inj hp).2.2⟩
    rw [hpage]
    exact ⟨f', rfl, hshot, hfollows'.beginMs, hfollows'.whole (afterSampleBatch_idx hmore)⟩
  · simp [Session.send, h.came hinit]
  · show (page kept (s.packets ++ [.sampleBatch s.samples e f.shotSeq])).inflight = _
    rw [hpage]

end Fed

/-! ## Steps -/

section Steps

variable {kept : Web.LiveModel} {storage : MountState} {d : Device} {s : Session} {a : ℕ}
  {renewed : Bool}

theorem receive_finalRecord_sync (m : Web.LiveModel) (e : Extraction) (q : ℕ) :
    (m.receive (.finalRecord e q)).outOfSync = m.outOfSync := by
  unfold Web.LiveModel.receive Web.LiveModel.handleFinalRecordPacket
  split_ifs with ho
  · rfl
  · dsimp only
    split
    · rfl
    · split <;> rfl

theorem Fed.silent {s' : Session} {e : Extraction} (h : Fed kept s' e renewed)
    (hpackets : s'.packets = s.packets) : Fed kept s' e (renewed && !sendsWhole s s') := by
  rw [sendsWhole_self hpackets, Bool.not_false, Bool.and_true]
  exact h

theorem fed_display (h : Fed kept s d.controller.recorder.current renewed)
    (hstage : s.stage = .display) (millis : U32) :
    Fed kept (s.step storage d millis) d.controller.recorder.current
      (renewed && !sendsWhole s (s.step storage d millis)) := by
  rw [step_display millis hstage]
  by_cases hlast : s.connected = true ∧ s.snap.displayShotSeq = s.lastDisplaySeq
  · rw [if_pos (by simp [hlast])]
    refine Fed.silent (h.of_same rfl id rfl rfl (fun _ => ?_) fun _ => ?_) rfl
    · exact h.named (Or.inl hstage)
    · exact h.live (Or.inl hstage)
  · rw [if_neg (by simpa using hlast)]
    by_cases hhas : s.snap.hasDisplayShot = true
    · simp only [Session.sendDisplayRecord, hhas, if_true, Session.send]
      refine ⟨?_, h.faithful.concat fun e' q hp => by simp at hp,
        fun hinit => absurd hinit Bool.false_ne_true, fun _ => rfl,
        fun hinit => absurd hinit Bool.false_ne_true, fun _ => h.named (Or.inl hstage),
        fun _ hinit => absurd hinit Bool.false_ne_true⟩
      rw [page_concat, receive_finalRecord_sync]
      exact h.inSync
    · simp only [Session.sendDisplayRecord, hhas]
      exact ⟨h.inSync, h.faithful, fun hinit => absurd hinit Bool.false_ne_true, fun _ => rfl,
        fun hinit => absurd hinit Bool.false_ne_true, fun _ => h.named (Or.inl hstage),
        fun _ hinit => absurd hinit Bool.false_ne_true⟩

theorem fed_locked (h : Fed kept s d.controller.recorder.current renewed)
    (hd : d.controller.Sendable) (hstage : s.stage = .locked) (millis : U32) :
    Fed kept (s.step storage d millis) d.controller.recorder.current
      (renewed && !sendsWhole s (s.step storage d millis)) := by
  have hread : Fed kept { s with snap := d.controller.readLocked millis s.snap, stage := .display }
      d.controller.recorder.current renewed :=
    h.of_same rfl id rfl rfl (fun _ => hd.recorder.named) fun _ hinit hsame =>
      (h.follows hinit hsame).1
  simp only [Session.step, hstage]
  by_cases hc : s.connected = true
  · rw [if_pos hc]
    exact hread.silent rfl
  · rw [if_neg hc, sendsWhole_concat (p := .state (d.controller.readLocked millis s.snap)) rfl]
    show Fed kept _ _ (renewed && !false)
    rw [Bool.not_false, Bool.and_true]
    refine fed_sendState hread hd.recorder.named (fun hinit => ?_) millis
    have hno := h.fresh (Bool.eq_false_iff.2 hc)
    exact absurd (hno.symm.trans hinit) (by simp)

theorem phase_of_inPumpWindow {e : Extraction} (h : e.inPumpWindow = true) : e.phase ≠ .idle := by
  intro hidle
  simp [Extraction.inPumpWindow, hidle] at h

/-- A record that goes out has the number that the page was told. -/
theorem fed_refreshInFlight (h : Fed kept s d.controller.recorder.current renewed)
    (hd : d.controller.Sendable) (hstage : s.stage = .inFlight) (hc : s.connected = true)
    (hno : ¬ Mistakes ⟨⟨d, s⟩, renewed⟩)
    (hseq : ∀ f, Shows kept s.packets f → s.inOrder (copied d.controller) = true →
      f.shotSeq = (copied d.controller).2) :
    Fed kept (s.refreshInFlight d.controller) d.controller.recorder.current
      (renewed && !sendsWhole s (s.refreshInFlight d.controller)) := by
  obtain heq | ⟨hcopy, -, heq⟩ | ⟨hcopy, hbatch, hmore, heq⟩ := refreshInFlight_cases s d.controller
  · rw [heq]
    exact h.silent rfl
  · have hwhole : sendsWhole s (s.refreshInFlight d.controller) = true := by
      rw [heq]
      exact sendsWhole_concat (p := .currentRecord _ _) rfl
    rw [hwhole, heq, Bool.not_true, Bool.and_false]
    have hwindow := phase_of_inPumpWindow (inOrder_iff.1 hcopy.inOrder).1
    have hlive := (mayBeInFlight_iff.1 hcopy.mayBeInFlight).2
    exact fed_sendCurrentRecord h hd.recorder.current hwindow (h.named (Or.inr hstage)) hlive hc _
  · have hsame : renewed = false ∧ s.lastSentRecordInit = true := by
      by_contra hstale
      refine hno ⟨hstage, hc, hcopy, hbatch, hmore, ?_⟩
      rw [not_and_or, Bool.not_eq_false, Bool.not_eq_true] at hstale
      exact hstale.symm
    obtain ⟨rfl, hinit⟩ := hsame
    rw [heq, Bool.false_and]
    exact fed_sampleBatch h hd.recorder.current hinit hmore fun f hf => hseq f hf hcopy.inOrder

theorem length_refreshInFlight (s : Session) (c : Controller) :
    s.packets.length ≤ (s.refreshInFlight c).packets.length := by
  obtain heq | ⟨-, -, heq⟩ | ⟨-, -, -, heq⟩ := refreshInFlight_cases s c
  · rw [heq]
  · simp [heq, Session.sendCurrentRecord, Session.send]
  · simp [heq, Session.send]

theorem fed_inFlight (h : Fed kept s d.controller.recorder.current renewed)
    (hd : d.controller.Sendable) (hstage : s.stage = .inFlight) (hno : ¬ Mistakes ⟨⟨d, s⟩, renewed⟩)
    (hseq : ∀ f, Shows kept s.packets f → s.inOrder (copied d.controller) = true →
      f.shotSeq = (copied d.controller).2) (millis : U32) :
    Fed kept (s.step storage d millis) d.controller.recorder.current
      (renewed && !sendsWhole s (s.step storage d millis)) := by
  by_cases hc : s.connected = true
  · have hfed := fed_refreshInFlight h hd hstage hc hno hseq
    have hsnap := (sameReads_refreshInFlight s d.controller).snap
    have hkeptStage : (s.refreshInFlight d.controller).stage = .inFlight := by
      obtain heq | ⟨-, -, heq⟩ | ⟨-, -, -, heq⟩ := refreshInFlight_cases s d.controller
      all_goals
        rw [heq]
        exact hstage
    simp only [Session.step, hstage, if_pos hc]
    split_ifs
    · have hsent := fed_sendState hfed (hfed.named (Or.inr hkeptStage))
        (hfed.live (Or.inr hkeptStage)) millis
      have hwhole := sendsWhole_sendState (length_refreshInFlight s d.controller) millis
      show Fed kept _ _ (renewed && !sendsWhole s ((s.refreshInFlight d.controller).sendState millis))
      rw [hwhole]
      exact hsent.of_same rfl id rfl rfl (by simp) (by simp)
    · exact hfed.of_same rfl id rfl rfl (by simp) (by simp)
  · simp only [Session.step, hstage, if_neg hc]
    have hopen : Fed kept { s with connected := true } d.controller.recorder.current renewed :=
      h.of_same rfl (by simp) rfl rfl h.named h.live
    obtain heq | ⟨hmay, hin, heq⟩ := connectInFlight_cases s d.controller
    · rw [heq]
      exact Fed.silent (hopen.of_same rfl id rfl rfl (by simp) (by simp)) rfl
    · rw [heq, sendsWhole_concat (p := .currentRecord _ _) rfl]
      show Fed kept _ _ (renewed && !true)
      rw [Bool.not_true, Bool.and_false]
      have hwindow := phase_of_inPumpWindow (inOrder_iff.1 hin).1
      have hsent := fed_sendCurrentRecord hopen hd.recorder.current hwindow
        (h.named (Or.inr hstage)) (mayBeInFlight_iff.1 hmay).2 rfl (copied d.controller).2
      exact hsent.of_same rfl id rfl rfl (by simp) (by simp)

/-- **Step lemma.** The page has the record that the session sends from. -/
theorem fed_session (h : Fed kept s d.controller.recorder.current renewed)
    (hd : d.controller.Sendable) (ho : Ordered s d a)
    (hheld : ∀ f, Shows kept s.packets f → f.shotSeq = a) (hno : ¬ Mistakes ⟨⟨d, s⟩, renewed⟩)
    (millis : U32) :
    Fed kept (s.step storage d millis) d.controller.recorder.current
      (renewed && !sendsWhole s (s.step storage d millis)) := by
  cases hstage : s.stage with
  | poll =>
    by_cases hidle : s.connected = true ∧ s.lastSeenLiveSeq = d.controller.liveSeq
    · rw [step_idle millis hstage hidle.1 hidle.2]
      exact h.silent rfl
    · rw [step_poll millis hstage fun hc hseen => hidle ⟨hc, hseen⟩]
      exact Fed.silent (h.of_same rfl id rfl rfl (by simp) (by simp)) rfl
  | active =>
    rw [step_active millis hstage]
    exact Fed.silent (h.of_same rfl id rfl rfl (by simp) (by simp)) rfl
  | saved =>
    rw [step_saved millis hstage]
    exact Fed.silent (h.of_same rfl id rfl rfl (by simp) (by simp)) rfl
  | locked => exact fed_locked h hd hstage millis
  | display => exact fed_display h hstage millis
  | inFlight =>
    refine fed_inFlight h hd hstage hno (fun f hf hin => ?_) millis
    rw [hheld f hf, (ho.same hstage).2]
    exact (inOrder_iff.1 hin).2.symm

end Steps

/-! ## Runs -/

/-- The invariant of a page that is fed the record in flight. -/
structure FedWorld (kept : Web.LiveModel) (w : Watched) : Prop where
  sendable : w.world.device.controller.Sendable
  held : ∃ a, Ordered w.world.session w.world.device a ∧ Held kept False w.world.session a
  fed : Fed kept w.world.session w.world.device.controller.recorder.current w.renewed

theorem fedWorld_init (kept : Web.LiveModel) : FedWorld kept {} :=
  ⟨Controller.sendable_init, ⟨0, ordered_init, held_init _ _⟩, fed_init _ _ _⟩

/-- A turn at which the session does not take another record for the one that it sent whole. -/
def Sure (w : Watched) : Turn → Prop
  | .device _ => True
  | .session _ => ¬ Mistakes w

theorem fedWorld_step {kept : Web.LiveModel} {storage : MountState} {w : Watched}
    (h : FedWorld kept w) {turn : Turn} (hload : Loads turn) (hsure : Sure w turn) :
    FedWorld kept (w.step storage turn) := by
  obtain ⟨hd, ⟨a, ho, hheld⟩, hfed⟩ := h
  cases turn with
  | device m =>
    refine ⟨sendable_exec hd hload, ⟨a, ho.later (later_exec hd m), hheld⟩, hfed.grow ?_⟩
    intro hno
    cases m with
    | scale state => exact .refl _
    | run sec => exact Controller.keepsRecord_execSection hd hno
  | session millis =>
    refine ⟨hd, ⟨_, ordered_session ho hd millis, held_session hheld ho hd False.elim millis⟩, ?_⟩
    exact fed_session hfed hd ho hheld.held hsure millis

end LiveStream

namespace ExtractionScreen

open ExtractionStream (Turn World)
open LiveStream (Each Faithful Watched Mistakes page)

/-- **The page has every sample.** However the tasks interleave, and whatever the page keeps from
before the stream, it stays in sync, and with every packet of the record in flight it has the record
whole, unless the session sends a batch of another record than the one that it sent whole. -/
theorem page_has_record (kept : Web.LiveModel) (storage : MountState) (ops : List Op)
    (hload : ∀ op ∈ ops, op.LoadsStored) (turns : List Turn)
    (hturns : turns.filterMap Turn.moment? = allMoments {} ops) :
    ((page kept (exec (World.step storage) {} turns).session.packets).outOfSync = false ∧
        Each (Faithful kept) (exec (World.step storage) {} turns).session.packets) ∨
      ∃ pre millis post, turns = pre ++ .session millis :: post ∧
        Mistakes (exec (Watched.step storage) {} pre) := by
  by_cases hs : Along (Watched.step storage) LiveStream.Sure {} turns
  · left
    have hloads : Along (Watched.step storage) (fun _ => LiveStream.Loads) {} turns := by
      apply LiveStream.along_loads
      rw [hturns]
      exact loadsSendable_allMoments hload
    obtain ⟨-, -, hfed⟩ := (hloads.and hs).exec_invariant (LiveStream.FedWorld kept)
      (fun w turn hw hturn => LiveStream.fedWorld_step hw hturn.1 hturn.2)
      (LiveStream.fedWorld_init kept)
    rw [LiveStream.watched_world] at hfed
    exact ⟨hfed.inSync, hfed.faithful⟩
  · right
    rw [along_iff_forall_split] at hs
    push Not at hs
    obtain ⟨pre, turn, post, heq, hno⟩ := hs
    cases turn with
    | device m => exact absurd trivial hno
    | session millis => exact ⟨pre, millis, post, heq, not_not.1 hno⟩

theorem page_has_record_pumpRun :
    ((page brokenOff (exec (World.step .ready) {}
          (attended (allMoments {} pumpRun))).session.packets).outOfSync = false ∧
        Each (Faithful brokenOff) (exec (World.step .ready) {}
          (attended (allMoments {} pumpRun))).session.packets) ∨
      ∃ pre millis post, attended (allMoments {} pumpRun) = pre ++ .session millis :: post ∧
        Mistakes (exec (Watched.step .ready) {} pre) :=
  page_has_record brokenOff .ready pumpRun pumpRun_loads _ (moments_attended _)

end ExtractionScreen

end Pumpbug
