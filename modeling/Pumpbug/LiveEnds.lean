import Pumpbug.LiveRuns

/-!
# How a record in flight ends on the page

A record that graduates is dropped with the `FINAL_RECORD` that says so; one that is abandoned, with
the first `STATE` that is idle, unless the page was told something else in between.  This is about
the records that came with the stream: a page that reconnects keeps the one it had.
-/

namespace Pumpbug

open Lib

namespace LiveStream

open Controller (StatusSnapshot)
open ExtractionScreen (Device Moment)
open ExtractionStream

/-! ## What a packet leaves -/

section Packets

variable {m : Web.LiveModel}

theorem receive_outOfSync (h : m.outOfSync = true) (p : Packet) : m.receive p = m := by
  unfold Web.LiveModel.receive
  rw [if_pos h]

/-- The record in flight of a page whose stream is open. -/
def Synced (m : Web.LiveModel) : Prop := m.outOfSync = true → m.inflight = none

theorem Synced.open_of_inflight (h : Synced m) {f : Web.LiveRecord} (hf : m.inflight = some f) :
    m.outOfSync = false := by
  cases ho : m.outOfSync with
  | false => rfl
  | true =>
    rw [h ho] at hf
    cases hf

/-- A page keeps its status, and stays out of sync if it was. -/
structure SameStatus (m m' : Web.LiveModel) : Prop where
  synced : Synced m'
  state : m'.state = m.state
  opened : m'.outOfSync = false → m.outOfSync = false

theorem SameStatus.refl (h : Synced m) : SameStatus m m := ⟨h, rfl, id⟩

/-- A record in flight survives a status only if it is not abandoned with it. -/
theorem state_packet (h : Synced m) (snap : StatusSnapshot) :
    Synced (m.receive (.state snap)) ∧
      ((m.receive (.state snap)).outOfSync = false →
        (m.receive (.state snap)).state = some (Web.State.ofSnapshot snap)) ∧
      ((m.receive (.state snap)).outOfSync = false → m.outOfSync = false) ∧
      ∀ f, (m.receive (.state snap)).inflight = some f →
        m.inflight = some f ∧ m.abandoned (Web.State.ofSnapshot snap) = false := by
  cases ho : m.outOfSync with
  | true =>
    rw [receive_outOfSync ho]
    refine ⟨h, fun h' => ?_, fun h' => ?_, fun f hf => ?_⟩
    · rw [ho] at h'
      cases h'
    · rw [ho] at h'
      cases h'
    · rw [h ho] at hf
      cases hf
  | false =>
    rw [receive_state ho]
    refine ⟨fun h' => absurd h' (by simp [ho]), fun _ => rfl, fun _ => rfl, fun f hf => ?_⟩
    dsimp only at hf
    split_ifs at hf with hab
    exact ⟨hf, Bool.eq_false_iff.2 hab⟩

theorem currentRecord_packet (h : Synced m) {e : Extraction} (he : e.Sendable) (q : ℕ) :
    SameStatus m (m.receive (.currentRecord e q)) ∧
      ∀ f, (m.receive (.currentRecord e q)).inflight = some f → f.shotSeq = q := by
  cases ho : m.outOfSync with
  | true =>
    rw [receive_outOfSync ho]
    refine ⟨.refl h, fun f hf => ?_⟩
    rw [h ho] at hf
    cases hf
  | false =>
    obtain ⟨js, -, heq⟩ := receive_currentRecord ho he q
    rw [heq]
    refine ⟨⟨fun h' => absurd h' (by simp [ho]), rfl, fun _ => ho⟩, fun f hf => ?_⟩
    rw [← Option.some.inj hf]

/-- A record in flight survives a `FINAL_RECORD` only with its number. -/
theorem finalRecord_packet (h : Synced m) (e : Extraction) (q : ℕ) :
    SameStatus m (m.receive (.finalRecord e q)) ∧
      ∀ f, (m.receive (.finalRecord e q)).inflight = some f →
        m.inflight = some f ∧ (e.Sendable → f.shotSeq = q) := by
  cases ho : m.outOfSync with
  | true =>
    rw [receive_outOfSync ho]
    refine ⟨.refl h, fun f hf => ?_⟩
    rw [h ho] at hf
    cases hf
  | false =>
    refine ⟨?_, fun f hf => ⟨?_, fun he => ?_⟩⟩
    · unfold Web.LiveModel.receive Web.LiveModel.handleFinalRecordPacket
      rw [if_neg (by simp [ho])]
      dsimp only
      split
      · exact .refl h
      · split
        · exact .refl h
        · exact ⟨fun h' => absurd h' (by simp [ho]), rfl, fun _ => ho⟩
    · unfold Web.LiveModel.receive Web.LiveModel.handleFinalRecordPacket at hf
      rw [if_neg (by simp [ho])] at hf
      dsimp only at hf
      split at hf
      · exact hf
      · split at hf
        · exact hf
        · exact (Option.filter_eq_some_iff.1 hf).1
    · obtain ⟨js, -, heq⟩ := receive_finalRecord ho he q
      rw [heq] at hf
      exact (of_decide_eq_true (Option.filter_eq_some_iff.1 hf).2).symm

/-- A batch brings no record in flight. -/
theorem sampleBatch_packet (h : Synced m) (samples : SentSamples) (e : Extraction) (q : ℕ) :
    SameStatus m (m.receive (.sampleBatch samples e q)) ∧
      ∀ f', (m.receive (.sampleBatch samples e q)).inflight = some f' →
        ∃ f, m.inflight = some f ∧ f'.shotSeq = f.shotSeq := by
  have hgone : Synced m.forceReconnect := fun _ => rfl
  cases ho : m.outOfSync with
  | true =>
    rw [receive_outOfSync ho]
    exact ⟨.refl h, fun f' hf' => ⟨f', hf', rfl⟩⟩
  | false =>
    have hreconnect : SameStatus m m.forceReconnect ∧
        ∀ f', m.forceReconnect.inflight = some f' →
          ∃ f, m.inflight = some f ∧ f'.shotSeq = f.shotSeq :=
      ⟨⟨hgone, rfl, fun _ => ho⟩, fun f' hf' => by cases hf'⟩
    have hstay : SameStatus m m ∧
        ∀ f', m.inflight = some f' → ∃ f, m.inflight = some f ∧ f'.shotSeq = f.shotSeq :=
      ⟨.refl h, fun f' hf' => ⟨f', hf', rfl⟩⟩
    unfold Web.LiveModel.receive
    rw [if_neg (by simp [ho])]
    dsimp only
    split
    · exact hstay
    · unfold Web.LiveModel.handleSampleBatchPacket
      split
      · exact hreconnect
      · next f hf =>
        split_ifs
        · exact hreconnect
        · split
          · exact hstay
          · split_ifs
            · exact hreconnect
            · refine ⟨⟨fun h' => absurd h' (by simp [ho]), rfl, fun _ => ho⟩, fun f' hf' => ⟨f, hf, ?_⟩⟩
              rw [← Option.some.inj hf']

end Packets

/-! ## The record in flight on the page -/

/-- The packet brings the record whole. -/
def isWhole : Packet → Bool
  | .currentRecord _ _ => true
  | _ => false

/-- The page holds the record `f`, and has none from before the stream. -/
def Shows (kept : Web.LiveModel) (packets : List Packet) (f : Web.LiveRecord) : Prop :=
  (kept.inflight = none ∨ packets.any isWhole = true) ∧ (page kept packets).inflight = some f

section Shows

variable {kept : Web.LiveModel} {packets : List Packet} {p : Packet} {f f' : Web.LiveRecord}

/-- What the page holds after a packet that brings no record, it has from one that it held. -/
theorem Shows.before (h : Shows kept (packets ++ [p]) f') (hp : isWhole p = false)
    (hf : ((page kept packets).receive p).inflight = some f' → (page kept packets).inflight = some f) :
    Shows kept packets f := by
  obtain ⟨hcame, hpage⟩ := h
  rw [page_concat] at hpage
  rw [List.any_append, List.any_cons, hp, List.any_nil, Bool.or_false, Bool.or_false] at hcame
  exact ⟨hcame, hf hpage⟩

theorem Shows.received (h : Shows kept (packets ++ [p]) f) :
    ((page kept packets).receive p).inflight = some f := by
  obtain ⟨-, hpage⟩ := h
  rwa [page_concat] at hpage

end Shows

/-- Live activity, as the page sees a status. -/
def inWindow (snap : StatusSnapshot) : Bool := Web.inPumpWindow (some (Web.State.ofSnapshot snap))

def readsIdle (snap : StatusSnapshot) : Prop := (Web.State.ofSnapshot snap).phase = .IDLE

theorem not_readsIdle_of_inWindow {snap : StatusSnapshot} (h : inWindow snap = true) :
    ¬ readsIdle snap := by
  intro hidle
  unfold readsIdle at hidle
  simp [inWindow, Web.inPumpWindow, hidle] at h

theorem inWindow_congr {snap last : StatusSnapshot} (ha : snap.active = last.active)
    (hp : snap.currentPhase = last.currentPhase) : inWindow snap = inWindow last := by
  show (snap.active && (decide (Web.phaseName snap.currentPhase.toByte = .RUNNING) ||
    decide (Web.phaseName snap.currentPhase.toByte = .POST_PUMP))) = _
  rw [ha, hp]
  rfl

/-- A record in flight that the page holds after a status has not graduated before it. -/
def Ungraduated (kept : Web.LiveModel) (pre : List Packet) (p : Packet) : Prop :=
  ∀ snap f, p = .state snap → Shows kept (pre ++ [p]) f → f.shotSeq = snap.acceptedSeq

/-- After an idle status the page holds no record in flight. -/
def Dropped (kept : Web.LiveModel) (pre : List Packet) (p : Packet) : Prop :=
  ∀ snap, p = .state snap → readsIdle snap → ∀ f, ¬ Shows kept (pre ++ [p]) f

/-- The status that the poll has read is neither idle nor in its pump window, and the page holds a
record in flight, or the poll is about to send one. -/
def Astray (kept : Web.LiveModel) (s : Session) (c : Controller) : Prop :=
  s.stage = .inFlight ∧ inWindow s.snap = false ∧
    ((¬ readsIdle s.snap ∧ ∃ f, Shows kept s.packets f) ∨
      (s.mayBeInFlight = true ∧ s.inOrder (copied c) = true))

/-- What a session has told its page; `a` is the number of the shots it was told of, and `Straight`
says that no poll went astray. -/
structure Told (kept : Web.LiveModel) (Straight : Prop) (s : Session) (a : ℕ) : Prop where
  synced : Synced (page kept s.packets)
  state : ∀ last, s.lastSentState = some last → (page kept s.packets).outOfSync = false →
    (page kept s.packets).state = some (Web.State.ofSnapshot last)
  held : ∀ f, Shows kept s.packets f → f.shotSeq = a
  ungraduated : Each (Ungraduated kept) s.packets
  dropped : Straight → Each (Dropped kept) s.packets

/-- The last status that was sent tells of a record in flight. -/
def Announces (Straight : Prop) (s : Session) (a : ℕ) : Prop :=
  ∃ last, s.lastSentState = some last ∧ last.acceptedSeq = a ∧ (Straight → inWindow last = true)

/-- The page of a session between two steps. -/
structure Held (kept : Web.LiveModel) (Straight : Prop) (s : Session) (a : ℕ) : Prop
    extends Told kept Straight s a where
  fresh : s.connected = false → ∀ f, ¬ Shows kept s.packets f
  spoken : s.connected = false → s.stage = .display ∨ s.stage = .inFlight →
    s.lastSentState = some s.snap
  last : ∀ f, Shows kept s.packets f → Announces Straight s a

theorem not_shows_nil (kept : Web.LiveModel) (f : Web.LiveRecord) : ¬ Shows kept [] f := by
  rintro ⟨hcame, hpage⟩
  obtain hnone | hwhole := hcame
  · have hkept : kept.inflight = some f := hpage
    rw [hnone] at hkept
    cases hkept
  · cases hwhole

theorem held_init (kept : Web.LiveModel) (Straight : Prop) : Held kept Straight {} 0 where
  synced := fun h => by cases h
  state := fun last h => by cases h
  fresh := fun _ => not_shows_nil kept
  spoken := fun _ h => absurd h (by decide)
  held := fun f h => absurd h (not_shows_nil kept f)
  last := fun f h => absurd h (not_shows_nil kept f)
  ungraduated := each_nil _
  dropped := fun _ => each_nil _

section Held

variable {kept : Web.LiveModel} {Straight : Prop} {storage : MountState} {d : Device}
  {s s' : Session} {a : ℕ}

theorem Held.of_same (h : Held kept Straight s a) (hpackets : s'.packets = s.packets)
    (hlast : s'.lastSentState = s.lastSentState) (hconnected : s'.connected = s.connected)
    (hspoken : s'.connected = false → s'.stage = .display ∨ s'.stage = .inFlight →
      s'.lastSentState = some s'.snap) : Held kept Straight s' a where
  synced := by
    rw [hpackets]
    exact h.synced
  state := by
    rw [hpackets, hlast]
    exact h.state
  fresh := by
    rw [hpackets, hconnected]
    exact h.fresh
  spoken := hspoken
  held := by
    rw [hpackets]
    exact h.held
  last := by
    unfold Announces
    rw [hpackets, hlast]
    exact h.last
  ungraduated := by
    rw [hpackets]
    exact h.ungraduated
  dropped := by
    rw [hpackets]
    exact h.dropped

/-- What the poll knows of a record in flight that the page holds when the status goes out: the status
is in the pump window, or it ends the window that the page was told of. -/
def Continues (kept : Web.LiveModel) (Straight : Prop) (s : Session) (a : ℕ) : Prop :=
  ∀ f, Shows kept s.packets f →
    s.snap.acceptedSeq = a ∧
      (Straight → inWindow s.snap = true ∨ (readsIdle s.snap ∧ Announces Straight s a))

/-- An idle status makes the page drop a record of the window that it was told of. -/
theorem abandoned_of_announces (h : Told kept Straight s a) {f : Web.LiveRecord}
    (hf : (page kept s.packets).inflight = some f) (hseq : s.snap.acceptedSeq = a) (hs : Straight)
    (hidle : readsIdle s.snap) (hlast : Announces Straight s a) :
    (page kept s.packets).abandoned (Web.State.ofSnapshot s.snap) = true := by
  obtain ⟨last, hlast, hlastSeq, hw⟩ := hlast
  have hstate := h.state last hlast (h.synced.open_of_inflight hf)
  have hpump : Web.inPumpWindow (some (Web.State.ofSnapshot last)) = true := hw hs
  have hphase : (Web.State.ofSnapshot s.snap).phase = .IDLE := hidle
  unfold Web.LiveModel.abandoned
  rw [hf, hstate, hpump, decide_eq_true hphase]
  simp [Web.State.ofSnapshot, hseq, hlastSeq]

/-- A status goes out. -/
theorem held_sendState (h : Told kept Straight s a)
    (hfresh : s.connected = false → ∀ f, ¬ Shows kept s.packets f)
    (hcont : Continues kept Straight s a) (millis : U32) :
    Held kept Straight (s.sendState millis) a := by
  obtain ⟨hsynced, hstate, -, hkept⟩ := state_packet h.synced s.snap
  have hpackets : page kept (s.sendState millis).packets =
      (page kept s.packets).receive (.state s.snap) := page_concat kept s.packets (.state s.snap)
  have hbefore (f : Web.LiveRecord) (hf : Shows kept (s.packets ++ [.state s.snap]) f) :
      Shows kept s.packets f := hf.before rfl fun hreceived => (hkept f hreceived).1
  have hidle : Straight → readsIdle s.snap →
      ∀ f, ¬ Shows kept (s.packets ++ [.state s.snap]) f := by
    intro hs hreads f hf
    obtain ⟨hheld, hab⟩ := hkept f hf.received
    obtain ⟨hseq, hw⟩ := hcont f (hbefore f hf)
    obtain hw | ⟨-, hlast⟩ := hw hs
    · exact not_readsIdle_of_inWindow hw hreads
    · rw [abandoned_of_announces h hheld hseq hs hreads hlast] at hab
      cases hab
  refine ⟨⟨?_, ?_, fun f hf => h.held f (hbefore f hf), ?_, ?_⟩,
    fun hc f hf => hfresh hc f (hbefore f hf), fun _ _ => rfl, ?_⟩
  · rw [hpackets]
    exact hsynced
  · intro last hlast
    obtain rfl := Option.some.inj hlast
    rw [hpackets]
    exact hstate
  · refine h.ungraduated.concat fun snap f heq hf => ?_
    obtain rfl := Packet.state.inj heq
    exact (h.held f (hbefore f hf)).trans (hcont f (hbefore f hf)).1.symm
  · intro hs
    refine (h.dropped hs).concat fun snap heq hreads => ?_
    obtain rfl := Packet.state.inj heq
    exact hidle hs hreads
  · intro f hf
    obtain ⟨hseq, hw⟩ := hcont f (hbefore f hf)
    refine ⟨s.snap, rfl, hseq, fun hs => (hw hs).resolve_right fun hreads => ?_⟩
    exact hidle hs hreads.1 f hf

/-- A status that need not go out has gone out before. -/
theorem held_of_not_shouldSend (h : Told kept Straight s a) (hc : s.connected = true)
    (hcont : Continues kept Straight s a) (hsend : s.stateShouldSend = false) :
    Held kept Straight s a := by
  refine ⟨h, fun hc' => absurd hc' (by simp [hc]), fun hc' => absurd hc' (by simp [hc]), ?_⟩
  intro f hf
  obtain ⟨hseq, hw⟩ := hcont f hf
  obtain ⟨last, hlast, hactive, hphase, haccepted⟩ := same_of_not_shouldSend hsend
  refine ⟨last, hlast, haccepted.symm.trans hseq, fun hs => ?_⟩
  obtain hw | ⟨-, last', hlast', -, hw⟩ := hw hs
  · rw [← inWindow_congr hactive hphase]
    exact hw
  · obtain rfl := Option.some.inj (hlast.symm.trans hlast')
    exact hw hs

/-- A packet of the record in flight tells nothing new. -/
theorem told_record (h : Told kept Straight s a) {p : Packet} (hp : ∀ snap, p ≠ .state snap)
    (hsame : SameStatus (page kept s.packets) ((page kept s.packets).receive p))
    (hseq : ∀ f, Shows kept (s.packets ++ [p]) f → f.shotSeq = a) :
    Told kept Straight (s.send p) a := by
  have hpackets : page kept (s.send p).packets = (page kept s.packets).receive p :=
    page_concat kept s.packets p
  refine ⟨?_, ?_, hseq, ?_, ?_⟩
  · rw [hpackets]
    exact hsame.synced
  · intro last hlast
    rw [hpackets, hsame.state]
    exact fun ho => h.state last hlast (hsame.opened ho)
  · exact h.ungraduated.concat fun snap f heq => absurd heq (hp snap)
  · exact fun hs => (h.dropped hs).concat fun snap heq => absurd heq (hp snap)

theorem sendable_copied (hd : d.controller.Sendable) : (copied d.controller).1.Sendable :=
  hd.recorder.current

/-- The record goes out only with a status in its pump window. -/
theorem inWindow_of_copied (hstage : s.stage = .inFlight) (hs : ¬ Astray kept s d.controller)
    (hmay : s.mayBeInFlight = true) (hin : s.inOrder (copied d.controller) = true) :
    inWindow s.snap = true := by
  by_contra hw
  exact hs ⟨hstage, Bool.eq_false_iff.2 hw, Or.inr ⟨hmay, hin⟩⟩

/-- The poll loop, up to the record in flight. -/
theorem told_refreshInFlight (h : Held kept Straight s a) (ho : Ordered s d a)
    (hd : d.controller.Sendable) (hstage : s.stage = .inFlight)
    (hs : Straight → ¬ Astray kept s d.controller) :
    Told kept Straight (s.refreshInFlight d.controller) a ∧
      Continues kept Straight (s.refreshInFlight d.controller) a := by
  obtain ⟨-, hseq⟩ := ho.same hstage
  have hnumber (hin : s.inOrder (copied d.controller) = true) : (copied d.controller).2 = a :=
    (inOrder_iff.1 hin).2.trans hseq.symm
  obtain heq | ⟨hcopy, -, heq⟩ | ⟨hcopy, -, -, heq⟩ := refreshInFlight_cases s d.controller
  · rw [heq]
    refine ⟨h.toTold, fun f hf => ⟨hseq.symm, fun hstraight => ?_⟩⟩
    by_cases hw : inWindow s.snap = true
    · exact Or.inl hw
    · right
      refine ⟨?_, h.last f hf⟩
      by_contra hidle
      exact hs hstraight ⟨hstage, Bool.eq_false_iff.2 hw, Or.inl ⟨hidle, f, hf⟩⟩
  · rw [heq]
    obtain ⟨hsame, hrecord⟩ := currentRecord_packet h.synced (sendable_copied hd) (copied d.controller).2
    have htold : Told kept Straight (s.send (.currentRecord (copied d.controller).1
        (copied d.controller).2)) a := by
      refine told_record h.toTold (fun snap => by simp) hsame fun f hf => ?_
      exact (hrecord f hf.received).trans (hnumber hcopy.inOrder)
    refine ⟨⟨htold.synced, htold.state, htold.held, htold.ungraduated, htold.dropped⟩,
      fun f _ => ⟨hseq.symm, fun hstraight => Or.inl ?_⟩⟩
    show inWindow s.snap = true
    exact inWindow_of_copied hstage (hs hstraight) hcopy.mayBeInFlight hcopy.inOrder
  · rw [heq]
    obtain ⟨hsame, hrecord⟩ := sampleBatch_packet h.synced s.samples (copied d.controller).1
      (copied d.controller).2
    have htold : Told kept Straight (s.send (.sampleBatch s.samples (copied d.controller).1
        (copied d.controller).2)) a := by
      refine told_record h.toTold (fun snap => by simp) hsame fun f' hf' => ?_
      obtain ⟨f, hf, hshot⟩ := hrecord f' hf'.received
      exact hshot.trans (h.held f (hf'.before rfl fun _ => hf))
    refine ⟨⟨htold.synced, htold.state, htold.held, htold.ungraduated, htold.dropped⟩,
      fun f _ => ⟨hseq.symm, fun hstraight => Or.inl ?_⟩⟩
    show inWindow s.snap = true
    exact inWindow_of_copied hstage (hs hstraight) hcopy.mayBeInFlight hcopy.inOrder

/-- The initial dispatch, up to the record in flight. -/
theorem held_connectInFlight (h : Held kept Straight s a) (ho : Ordered s d a)
    (hd : d.controller.Sendable) (hstage : s.stage = .inFlight) (hc : s.connected = false)
    (hs : Straight → ¬ Astray kept s d.controller) (t : Session)
    (ht : t = { s.connectInFlight d.controller with stage := .poll, connected := true }) :
    Held kept Straight t a := by
  obtain ⟨-, hseq⟩ := ho.same hstage
  obtain heq | ⟨hmay, hin, heq⟩ := connectInFlight_cases s d.controller
  · rw [ht, heq]
    refine ⟨⟨h.synced, h.state, h.held, h.ungraduated, h.dropped⟩, by simp, by simp, ?_⟩
    intro f hf
    exact h.last f hf
  · obtain ⟨hsame, hrecord⟩ := currentRecord_packet h.synced (sendable_copied hd) (copied d.controller).2
    have htold : Told kept Straight (s.send (.currentRecord (copied d.controller).1
        (copied d.controller).2)) a := by
      refine told_record h.toTold (fun snap => by simp) hsame fun f hf => ?_
      exact (hrecord f hf.received).trans ((inOrder_iff.1 hin).2.trans hseq.symm)
    rw [ht, heq]
    refine ⟨⟨htold.synced, htold.state, htold.held, htold.ungraduated, htold.dropped⟩, by simp,
      by simp, ?_⟩
    intro f _
    refine ⟨s.snap, h.spoken hc (Or.inr hstage), hseq.symm, fun hstraight => ?_⟩
    exact inWindow_of_copied hstage (hs hstraight) hmay hin

theorem refreshInFlight_frame (s : Session) (c : Controller) :
    (s.refreshInFlight c).snap = s.snap ∧ (s.refreshInFlight c).connected = s.connected := by
  have h := sameReads_refreshInFlight s c
  exact ⟨h.snap, h.connected⟩

theorem held_inFlight (h : Held kept Straight s a) (ho : Ordered s d a) (hd : d.controller.Sendable)
    (hstage : s.stage = .inFlight) (hs : Straight → ¬ Astray kept s d.controller) (millis : U32) :
    Held kept Straight (s.step storage d millis) a := by
  by_cases hc : s.connected = true
  · obtain ⟨htold, hcont⟩ := told_refreshInFlight h ho hd hstage hs
    obtain ⟨-, hconnected⟩ := refreshInFlight_frame s d.controller
    have hlive : Held kept Straight (if (s.refreshInFlight d.controller).stateShouldSend then
        (s.refreshInFlight d.controller).sendState millis else s.refreshInFlight d.controller) a := by
      split_ifs with hsend
      · exact held_sendState htold (fun hc' => absurd hc' (by simp [hconnected, hc])) hcont millis
      · exact held_of_not_shouldSend htold (hconnected.trans hc) hcont (Bool.eq_false_iff.2 hsend)
    simp only [Session.step, hstage, if_pos hc]
    exact hlive.of_same rfl rfl rfl (by simp)
  · refine held_connectInFlight h ho hd hstage (Bool.eq_false_iff.2 hc) hs _ ?_
    simp only [Session.step, hstage, if_neg hc]

/-- A record in flight outlives the display shot only if nothing has graduated. -/
theorem same_of_outlives (h : Held kept Straight s a) (ho : Ordered s d a)
    (hd : d.controller.Sendable) (hstage : s.stage = .display) {f : Web.LiveRecord}
    (hf : Shows kept s.packets f)
    (hnumber : s.snap.hasDisplayShot = true →
      (d.controller.snapshotExtraction true).1.Sendable → f.shotSeq = d.controller.lastAcceptedSeq) :
    s.snap.acceptedSeq = a := by
  have hc : s.connected = true := by
    by_contra hc
    exact h.fresh (Bool.eq_false_iff.2 hc) f hf
  have hle : a ≤ s.snap.acceptedSeq := (ho.read hc hstage).fst
  by_cases hzero : s.snap.acceptedSeq = 0
  · omega
  · have hupto : s.snap.acceptedSeq ≤ d.controller.lastAcceptedSeq := (ho.status (Or.inl hstage)).fst
    obtain ⟨hshot, hsome⟩ := Controller.sendable_display hd
    obtain ⟨shot, hdisplay⟩ := Option.isSome_iff_exists.1 (hsome (by omega))
    have hsend : (d.controller.snapshotExtraction true).1.Sendable := by
      simp only [Controller.snapshotExtraction, if_true, hdisplay, Option.getD_some]
      exact hshot shot hdisplay
    have hseq := hnumber (ho.has hstage hzero) hsend
    have hheld := h.held f hf
    omega

theorem held_display (h : Held kept Straight s a) (ho : Ordered s d a) (hd : d.controller.Sendable)
    (hstage : s.stage = .display) (millis : U32) :
    Held kept Straight (s.step storage d millis) (tells s a) := by
  rw [step_display millis hstage]
  by_cases hlast : s.connected = true ∧ s.snap.displayShotSeq = s.lastDisplaySeq
  · rw [if_pos (by simp [hlast]), tells, if_neg fun h' => h'.2 hlast]
    exact h.of_same rfl rfl rfl (by simp [hlast.1])
  · rw [if_neg (by simpa using hlast), tells, if_pos ⟨hstage, hlast⟩]
    by_cases hhas : s.snap.hasDisplayShot = true
    · let record := d.controller.snapshotExtraction true
      obtain ⟨hsame, hkept⟩ := finalRecord_packet h.synced record.1 record.2
      have hseq (f : Web.LiveRecord)
          (hf : Shows kept (s.packets ++ [.finalRecord record.1 record.2]) f) :
          Shows kept s.packets f ∧ s.snap.acceptedSeq = a := by
        have hbefore := hf.before rfl fun hreceived => (hkept f hreceived).1
        have hnumber := (hkept f hf.received).2
        exact ⟨hbefore, same_of_outlives h ho hd hstage hbefore fun _ => hnumber⟩
      have hpackets : page kept (s.packets ++ [.finalRecord record.1 record.2]) =
          (page kept s.packets).receive (.finalRecord record.1 record.2) :=
        page_concat kept s.packets _
      simp only [Session.sendDisplayRecord, hhas, if_true, Session.send]
      refine ⟨⟨?_, ?_, ?_, ?_, ?_⟩, ?_, fun hc _ => h.spoken hc (Or.inl hstage), ?_⟩
      · rw [hpackets]
        exact hsame.synced
      · intro last hlast
        rw [hpackets, hsame.state]
        exact fun hopen => h.state last hlast (hsame.opened hopen)
      · intro f hf
        obtain ⟨hbefore, hnow⟩ := hseq f hf
        exact (h.held f hbefore).trans hnow.symm
      · exact h.ungraduated.concat fun snap f heq => by cases heq
      · exact fun hs => (h.dropped hs).concat fun snap heq => by cases heq
      · intro hc f hf
        exact h.fresh hc f (hseq f hf).1
      · intro f hf
        obtain ⟨hbefore, hnow⟩ := hseq f hf
        rw [hnow]
        exact h.last f hbefore
    · have hnow (f : Web.LiveRecord) (hf : Shows kept s.packets f) :
          s.snap.acceptedSeq = a :=
        same_of_outlives h ho hd hstage hf fun hhas' => absurd hhas' hhas
      simp only [Session.sendDisplayRecord, hhas]
      refine ⟨⟨h.synced, h.state, fun f hf => ?_, h.ungraduated, h.dropped⟩, h.fresh,
        fun hc _ => h.spoken hc (Or.inl hstage), fun f hf => ?_⟩
      · rw [hnow f hf]
        exact h.held f hf
      · rw [hnow f hf]
        exact h.last f hf

/-- The status is complete; a new client gets it at once. -/
theorem held_locked (h : Held kept Straight s a) (hstage : s.stage = .locked) (millis : U32) :
    Held kept Straight (s.step storage d millis) a := by
  simp only [Session.step, hstage]
  by_cases hc : s.connected = true
  · rw [if_pos hc]
    exact h.of_same rfl rfl rfl (by simp [hc])
  · rw [if_neg hc]
    have hfresh := h.fresh (Bool.eq_false_iff.2 hc)
    have htold : Told kept Straight
        { s with snap := d.controller.readLocked millis s.snap, stage := .display } a :=
      ⟨h.synced, h.state, h.held, h.ungraduated, h.dropped⟩
    exact held_sendState htold (fun _ => hfresh) (fun f hf => absurd hf (hfresh f)) millis

/-- **Step lemma.** What the page holds is of the shots it was told of. -/
theorem held_session (h : Held kept Straight s a) (ho : Ordered s d a) (hd : d.controller.Sendable)
    (hs : Straight → ¬ Astray kept s d.controller) (millis : U32) :
    Held kept Straight (s.step storage d millis) (tells s a) := by
  cases hstage : s.stage with
  | poll =>
    rw [tells_of_stage (by simp [hstage])]
    by_cases hidle : s.connected = true ∧ s.lastSeenLiveSeq = d.controller.liveSeq
    · rwa [step_idle millis hstage hidle.1 hidle.2]
    · rw [step_poll millis hstage fun hc hseen => hidle ⟨hc, hseen⟩]
      exact h.of_same rfl rfl rfl (by simp)
  | active =>
    rw [step_active millis hstage, tells_of_stage (by simp [hstage])]
    exact h.of_same rfl rfl rfl (by simp)
  | saved =>
    rw [step_saved millis hstage, tells_of_stage (by simp [hstage])]
    exact h.of_same rfl rfl rfl (by simp)
  | locked =>
    rw [tells_of_stage (by simp [hstage])]
    exact held_locked h hstage millis
  | display => exact held_display h ho hd hstage millis
  | inFlight =>
    rw [tells_of_stage (by simp [hstage])]
    exact held_inFlight h ho hd hstage hs millis

end Held

/-! ## Runs -/

/-- The invariant of a page among the turns, as far as no poll went astray. -/
structure InStep (kept : Web.LiveModel) (Straight : Prop) (w : World) : Prop where
  sendable : w.device.controller.Sendable
  held : ∃ a, Ordered w.session w.device a ∧ Held kept Straight w.session a

theorem inStep_init (kept : Web.LiveModel) (Straight : Prop) : InStep kept Straight {} :=
  ⟨Controller.sendable_init, 0, ordered_init, held_init _ _⟩

/-- A turn at which no poll goes astray. -/
def OnTrack (kept : Web.LiveModel) (w : World) : Turn → Prop
  | .device _ => True
  | .session _ => ¬ Astray kept w.session w.device.controller

theorem inStep_step {kept : Web.LiveModel} {storage : MountState} {Straight : Prop} {w : World}
    (h : InStep kept Straight w) {turn : Turn} (hload : Loads turn)
    (hs : Straight → OnTrack kept w turn) : InStep kept Straight (w.step storage turn) := by
  obtain ⟨hd, a, ho, hheld⟩ := h
  cases turn with
  | device m => exact ⟨sendable_exec hd hload, a, ho.later (later_exec hd m), hheld⟩
  | session millis => exact ⟨hd, _, ordered_session ho hd millis, held_session hheld ho hd hs millis⟩

end LiveStream

namespace ExtractionScreen

open ExtractionStream (Turn World)
open LiveStream (Each Ungraduated Dropped Astray)

/-- **No record in flight that has graduated.** However the tasks interleave, and whatever the page
keeps from before the stream, a record in flight that came with it and that the page holds after a
status is of the shot after the accepted ones that the status counts. -/
theorem no_graduated_in_flight (kept : Web.LiveModel) (storage : MountState) (ops : List Op)
    (hload : ∀ op ∈ ops, op.LoadsStored) (turns : List Turn)
    (hturns : turns.filterMap Turn.moment? = allMoments {} ops) :
    Each (Ungraduated kept) (exec (World.step storage) {} turns).session.packets := by
  have hloads : Along (World.step storage) (fun _ => LiveStream.Loads) {} turns := by
    apply LiveStream.along_loads
    rw [hturns]
    exact loadsSendable_allMoments hload
  obtain ⟨-, a, -, hheld⟩ := hloads.exec_invariant (LiveStream.InStep kept False)
    (fun w turn hw hturn => LiveStream.inStep_step hw hturn False.elim) (LiveStream.inStep_init _ _)
  exact hheld.ungraduated

/-- A page that lost its stream amid a pour. -/
def brokenOff : Web.LiveModel := Web.LiveModel.receive {} (.currentRecord {} 5)

theorem no_graduated_in_flight_pumpRun :
    Each (Ungraduated brokenOff)
      (exec (World.step .ready) {} (attended (allMoments {} pumpRun))).session.packets :=
  no_graduated_in_flight brokenOff .ready pumpRun pumpRun_loads _ (moments_attended _)

/-- **An abandoned record goes with the first idle status**, unless a poll went astray. -/
theorem abandoned_dropped (kept : Web.LiveModel) (storage : MountState) (ops : List Op)
    (hload : ∀ op ∈ ops, op.LoadsStored) (turns : List Turn)
    (hturns : turns.filterMap Turn.moment? = allMoments {} ops) :
    Each (Dropped kept) (exec (World.step storage) {} turns).session.packets ∨
      ∃ pre millis post, turns = pre ++ .session millis :: post ∧
        Astray kept (exec (World.step storage) {} pre).session
          (exec (World.step storage) {} pre).device.controller := by
  by_cases hs : Along (World.step storage) (LiveStream.OnTrack kept) {} turns
  · left
    have hloads : Along (World.step storage) (fun _ => LiveStream.Loads) {} turns := by
      apply LiveStream.along_loads
      rw [hturns]
      exact loadsSendable_allMoments hload
    obtain ⟨-, a, -, hheld⟩ := (hloads.and hs).exec_invariant (LiveStream.InStep kept True)
      (fun w turn hw hturn => LiveStream.inStep_step hw hturn.1 fun _ => hturn.2)
      (LiveStream.inStep_init _ _)
    exact hheld.dropped trivial
  · right
    rw [along_iff_forall_split] at hs
    push Not at hs
    obtain ⟨pre, turn, post, heq, hno⟩ := hs
    cases turn with
    | device m => exact absurd trivial hno
    | session millis => exact ⟨pre, millis, post, heq, not_not.1 hno⟩

theorem abandoned_dropped_pumpRun :
    Each (Dropped brokenOff)
        (exec (World.step .ready) {} (attended (allMoments {} pumpRun))).session.packets ∨
      ∃ pre millis post, attended (allMoments {} pumpRun) = pre ++ .session millis :: post ∧
        Astray brokenOff (exec (World.step .ready) {} pre).session
          (exec (World.step .ready) {} pre).device.controller :=
  abandoned_dropped brokenOff .ready pumpRun pumpRun_loads _ (moments_attended _)

end ExtractionScreen

end Pumpbug
