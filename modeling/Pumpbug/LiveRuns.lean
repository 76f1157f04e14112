import Pumpbug.StreamedRecords

/-!
# Sessions and their pages

A session among the moments of the main task, with the page at its other end, which receives the
packets in order.  Whatever comes between two reads, the page has the last graduated shot before it
gets a record in flight that begins after it, and never keeps a record in flight that has graduated.
-/

namespace Pumpbug

open Lib

namespace ExtractionStream

open Controller (StatusSnapshot)

/-- The number that a `FINAL_RECORD` carries. -/
def Packet.finalSeq? : Packet → Option ℕ
  | .finalRecord _ shotSeq => some shotSeq
  | _ => none

/-- The number that a packet of the record in flight carries. -/
def Packet.inFlightSeq? : Packet → Option ℕ
  | .currentRecord _ shotSeq => some shotSeq
  | .sampleBatch _ _ shotSeq => some shotSeq
  | _ => none

/-- The two counters, as a status has them. -/
def mark (snap : StatusSnapshot) : ℕ × ℕ := (snap.acceptedSeq, snap.displayShotSeq)

end ExtractionStream

namespace LiveStream

open Controller (StatusSnapshot)
open ExtractionScreen (Device Moment)
open ExtractionStream

/-- The number of the last `FINAL_RECORD`. -/
def finalSeq (packets : List Packet) : Option ℕ := (packets.filterMap Packet.finalSeq?).getLast?

theorem finalSeq_concat {packets : List Packet} {p : Packet} (h : p.finalSeq? = none) :
    finalSeq (packets ++ [p]) = finalSeq packets := by
  simp [finalSeq, h]

theorem finalSeq_final (packets : List Packet) (ext : Extraction) (shotSeq : ℕ) :
    finalSeq (packets ++ [.finalRecord ext shotSeq]) = some shotSeq := by
  simp [finalSeq, Packet.finalSeq?]

/-- What the page has made of the packets of a stream; `kept` is what it has from before. -/
def page (kept : Web.LiveModel) (packets : List Packet) : Web.LiveModel :=
  packets.foldl Web.LiveModel.receive kept.openStream

theorem page_concat (kept : Web.LiveModel) (packets : List Packet) (p : Packet) :
    page kept (packets ++ [p]) = (page kept packets).receive p := by
  simp [page, List.foldl_append]

/-- A packet that arrives after the packets `pre` meets `P`. -/
def Each (P : List Packet → Packet → Prop) (packets : List Packet) : Prop :=
  ∀ pre p post, packets = pre ++ p :: post → P pre p

theorem each_nil (P : List Packet → Packet → Prop) : Each P [] := by
  intro pre p post h
  simp at h

theorem Each.concat {P : List Packet → Packet → Prop} {packets : List Packet} {p : Packet}
    (h : Each P packets) (hp : P packets p) : Each P (packets ++ [p]) := by
  intro pre q post heq
  obtain ⟨rfl, hlast⟩ | ⟨post', rfl, hinit⟩ : (post = [] ∧ packets ++ [p] = pre ++ [q]) ∨
      ∃ post', post = post' ++ [p] ∧ packets = pre ++ q :: post' := by
    rcases List.eq_nil_or_concat post with rfl | ⟨post', last, rfl⟩
    · exact Or.inl ⟨rfl, heq⟩
    · right
      have happ : packets ++ [p] = (pre ++ q :: post') ++ [last] := by simpa using heq
      obtain ⟨hinit, hlast⟩ := List.append_inj' happ rfl
      obtain rfl := (List.cons.inj hlast).1
      exact ⟨post', by simp, hinit⟩
  · obtain ⟨rfl, hq⟩ := List.append_inj' hlast rfl
    obtain rfl := (List.cons.inj hq).1
    exact hp
  · exact h pre q post' hinit

/-! ## What a poll sends -/

section Sends

variable {s : Session} {c : Controller}

/-- The record that the poll copies. -/
abbrev copied (c : Controller) : Extraction × ℕ := c.snapshotExtraction false

theorem connectInFlight_cases (s : Session) (c : Controller) :
    s.connectInFlight c = s ∨
      (s.mayBeInFlight = true ∧ s.inOrder (copied c) = true ∧
        s.connectInFlight c = s.sendCurrentRecord (copied c).1 (copied c).2) := by
  unfold Session.connectInFlight
  dsimp only
  split_ifs with h
  · rw [Bool.and_eq_true] at h
    exact Or.inr ⟨h.1, h.2, rfl⟩
  · exact Or.inl rfl

/-- The status calls for the record, and the record is in order. -/
structure Copies (s : Session) (c : Controller) : Prop where
  mayBeInFlight : s.mayBeInFlight = true
  wantsRecord : s.wantsRecord = true
  inOrder : s.inOrder (copied c) = true

theorem refreshInFlight_cases (s : Session) (c : Controller) :
    s.refreshInFlight c = s ∨
      (Copies s c ∧ s.needFullRecord (copied c).1 = true ∧
        s.refreshInFlight c = s.sendCurrentRecord (copied c).1 (copied c).2) ∨
      (Copies s c ∧ s.needFullRecord (copied c).1 = false ∧
        s.samples.lastSentSampleIdx < (copied c).1.samples.count ∧
        s.refreshInFlight c =
          { s.send (.sampleBatch s.samples (copied c).1 (copied c).2) with
            samples := s.samples.afterSampleBatch (copied c).1 }) := by
  unfold Session.refreshInFlight
  dsimp only
  split_ifs with h hfull
  · simp only [Bool.and_eq_true] at h
    exact Or.inr (Or.inl ⟨⟨h.1.1, h.1.2, h.2⟩, hfull, rfl⟩)
  · simp only [Bool.and_eq_true] at h
    unfold Session.sendSampleBatch
    split_ifs with hle
    · exact Or.inl rfl
    · exact Or.inr (Or.inr ⟨⟨h.1.1, h.1.2, h.2⟩, Bool.eq_false_iff.2 hfull, not_le.1 hle, rfl⟩)
  · exact Or.inl rfl

theorem inOrder_iff {s : Session} {c : Controller} : s.inOrder (copied c) = true ↔
    c.recorder.current.inPumpWindow = true ∧ c.lastAcceptedSeq = s.snap.acceptedSeq := by
  simp [Session.inOrder, Controller.snapshotExtraction]

theorem mayBeInFlight_iff {s : Session} : s.mayBeInFlight = true ↔
    s.snap.active = true ∧ s.snap.currentPhase ≠ .idle := by
  simp [Session.mayBeInFlight]

/-- A status that is not sent differs in nothing that the page goes by. -/
theorem same_of_not_shouldSend (h : s.stateShouldSend = false) :
    ∃ last, s.lastSentState = some last ∧ s.snap.active = last.active ∧
      s.snap.currentPhase = last.currentPhase ∧ s.snap.acceptedSeq = last.acceptedSeq := by
  unfold Session.stateShouldSend at h
  cases hlast : s.lastSentState with
  | none => simp [hlast] at h
  | some last =>
    simp only [hlast, Bool.or_eq_false_iff, decide_eq_false_iff_not, not_not] at h
    exact ⟨last, rfl, by tauto, by tauto, by tauto⟩

end Sends

/-! ## The order of the packets -/

/-- A record in flight that begins after the shot `q` graduated comes after that shot. -/
def Preceded (pre : List Packet) (p : Packet) : Prop :=
  ∀ q, p.inFlightSeq? = some q → q ≠ 0 → finalSeq pre = some q

/-- What a session has told of the accepted shots; `a` is their number in the last status that it
went through the display shot with. -/
structure Ordered (s : Session) (d : Device) (a : ℕ) : Prop where
  now : s.shownOnce = true → Later (a, s.lastDisplaySeq) d.controller.mark
  status : s.stage = .display ∨ s.stage = .inFlight → Later (mark s.snap) d.controller.mark
  read : s.connected = true → s.stage = .display → Later (a, s.lastDisplaySeq) (mark s.snap)
  same : s.stage = .inFlight → s.lastDisplaySeq = s.snap.displayShotSeq ∧ a = s.snap.acceptedSeq
  has : s.stage = .display → s.snap.acceptedSeq ≠ 0 → s.snap.hasDisplayShot = true
  final : s.shownOnce = true → a ≠ 0 → ∃ r, finalSeq s.packets = some r ∧ a ≤ r
  upto : ∀ r, finalSeq s.packets = some r → r ≤ d.controller.lastAcceptedSeq
  sent : Each Preceded s.packets

theorem ordered_init : Ordered {} {} 0 where
  now := fun h => absurd h (by decide)
  status := fun h => absurd h (by decide)
  read := fun h => absurd h (by decide)
  same := fun h => absurd h (by decide)
  has := fun h => absurd h (by decide)
  final := fun h => absurd h (by decide)
  upto := fun _ h => absurd h (by simp [finalSeq])
  sent := each_nil _

section Ordered

variable {storage : MountState} {d : Device} {s s' : Session} {a : ℕ}

/-- A reading of the device stays behind it. -/
theorem Ordered.later {d' : Device} (h : Ordered s d a)
    (hl : Later d.controller.mark d'.controller.mark) : Ordered s d' a where
  now := fun honce => (h.now honce).trans hl
  status := fun hstage => (h.status hstage).trans hl
  read := h.read
  same := h.same
  has := h.has
  final := h.final
  upto := fun r hr => (h.upto r hr).trans hl.fst
  sent := h.sent

/-- A session that goes on without a look at the display shot. -/
theorem Ordered.of_same (h : Ordered s d a) (hdisplay : s'.lastDisplaySeq = s.lastDisplaySeq)
    (hfinal : finalSeq s'.packets = finalSeq s.packets) (hsent : Each Preceded s'.packets)
    (honce : s'.shownOnce = true → s.shownOnce = true) (hd : s'.stage ≠ .display)
    (hf : s'.stage ≠ .inFlight) : Ordered s' d a where
  now := by
    rw [hdisplay]
    exact fun h' => h.now (honce h')
  status := fun hstage => absurd hstage (by simp [hd, hf])
  read := fun _ hstage => absurd hstage hd
  same := fun hstage => absurd hstage hf
  has := fun hstage => absurd hstage hd
  final := by
    rw [hfinal]
    exact fun h' => h.final (honce h')
  upto := by
    rw [hfinal]
    exact h.upto
  sent := hsent

/-- The record that is copied in order has the number of the last graduated shot. -/
theorem Ordered.preceded (h : Ordered s d a) (hstage : s.stage = .inFlight)
    (hin : s.inOrder (copied d.controller) = true) {p : Packet}
    (hp : p.inFlightSeq? = some (copied d.controller).2) : Preceded s.packets p := by
  intro q hq hne
  obtain rfl : (copied d.controller).2 = q := Option.some.inj (hp.symm.trans hq)
  obtain ⟨-, hseq⟩ := inOrder_iff.1 hin
  obtain ⟨-, ha⟩ := h.same hstage
  have hnow : (copied d.controller).2 = a := hseq.trans ha.symm
  rw [hnow] at hne ⊢
  obtain ⟨r, hr, hle⟩ := h.final (by simp [Session.shownOnce, hstage]) hne
  have hge : r ≤ a := (h.upto r hr).trans (hseq.trans ha.symm).le
  rw [hr, le_antisymm hge hle]

theorem ordered_inFlight (h : Ordered s d a) (hstage : s.stage = .inFlight) (millis : U32) :
    Ordered (s.step storage d millis) d a := by
  obtain ⟨hsame, hnext⟩ := step_inFlight storage d millis hstage
  have honce : s.shownOnce = true := by simp [Session.shownOnce, hstage]
  have hpackets : finalSeq (s.step storage d millis).packets = finalSeq s.packets ∧
      Each Preceded (s.step storage d millis).packets := by
    simp only [Session.step, hstage]
    by_cases hc : s.connected = true
    · rw [if_pos hc]
      have hrefresh : finalSeq (s.refreshInFlight d.controller).packets = finalSeq s.packets ∧
          Each Preceded (s.refreshInFlight d.controller).packets := by
        obtain heq | ⟨hcopy, -, heq⟩ | ⟨hcopy, -, -, heq⟩ := refreshInFlight_cases s d.controller
        · rw [heq]
          exact ⟨rfl, h.sent⟩
        · rw [heq]
          exact ⟨finalSeq_concat rfl, h.sent.concat (h.preceded hstage hcopy.inOrder rfl)⟩
        · rw [heq]
          exact ⟨finalSeq_concat rfl, h.sent.concat (h.preceded hstage hcopy.inOrder rfl)⟩
      split_ifs
      · exact ⟨(finalSeq_concat rfl).trans hrefresh.1, hrefresh.2.concat fun q hq => by cases hq⟩
      · exact hrefresh
    · rw [if_neg hc]
      obtain heq | ⟨-, hin, heq⟩ := connectInFlight_cases s d.controller
      · rw [heq]
        exact ⟨rfl, h.sent⟩
      · rw [heq]
        exact ⟨finalSeq_concat rfl, h.sent.concat (h.preceded hstage hin rfl)⟩
  exact h.of_same hsame.lastDisplaySeq hpackets.1 hpackets.2 (fun _ => honce) (by simp [hnext])
    (by simp [hnext])

theorem ordered_locked (h : Ordered s d a) (hd : d.controller.Sendable) (hstage : s.stage = .locked)
    (millis : U32) : Ordered (s.step storage d millis) d a := by
  obtain ⟨hsame, hnext⟩ := step_locked storage d millis hstage
  have hmark : mark (s.step storage d millis).snap = d.controller.mark := by
    rw [hsame.snap]
    rfl
  have hpackets : finalSeq (s.step storage d millis).packets = finalSeq s.packets ∧
      Each Preceded (s.step storage d millis).packets := by
    simp only [Session.step, hstage]
    split_ifs
    · exact ⟨rfl, h.sent⟩
    · exact ⟨finalSeq_concat rfl, h.sent.concat fun q hq => by cases hq⟩
  have hconnected : (s.step storage d millis).connected = s.connected := hsame.connected
  have honce : (s.step storage d millis).shownOnce = true → s.shownOnce = true := by
    simp [Session.shownOnce, hconnected, hnext, hstage]
  refine ⟨?_, fun _ => ?_, ?_, by simp [hnext], fun _ hne => ?_, ?_, ?_, hpackets.2⟩
  · rw [hsame.lastDisplaySeq]
    exact fun h' => h.now (honce h')
  · rw [hmark]
    exact .refl _
  · rw [hsame.lastDisplaySeq, hmark, hconnected]
    exact fun hc _ => h.now (by simp [Session.shownOnce, hc])
  · rw [hsame.snap] at hne ⊢
    exact (Controller.sendable_display hd).2 hne
  · rw [hpackets.1]
    exact fun h' => h.final (honce h')
  · rw [hpackets.1]
    exact h.upto

/-- The number after the next step: the display shot is gone through with the status just read. -/
def tells (s : Session) (a : ℕ) : ℕ :=
  if s.stage = .display ∧ ¬ (s.connected = true ∧ s.snap.displayShotSeq = s.lastDisplaySeq) then
    s.snap.acceptedSeq
  else a

theorem tells_of_stage (h : s.stage ≠ .display) (a : ℕ) : tells s a = a := if_neg fun h' => h h'.1

/-- A display record goes out with the number of the accepted shots. -/
theorem ordered_display (h : Ordered s d a) (hstage : s.stage = .display) (millis : U32) :
    Ordered (s.step storage d millis) d (tells s a) := by
  rw [step_display millis hstage]
  by_cases hlast : s.connected = true ∧ s.snap.displayShotSeq = s.lastDisplaySeq
  · rw [if_pos (by simp [hlast]), tells, if_neg fun h' => h'.2 hlast]
    have honce : s.shownOnce = true := by simp [Session.shownOnce, hlast.1]
    have hread := h.read hlast.1 hstage
    exact ⟨fun _ => h.now honce, fun _ => h.status (Or.inl hstage), by simp,
      fun _ => ⟨hlast.2.symm, hread.same hlast.2.symm⟩, by simp, fun _ => h.final honce, h.upto,
      h.sent⟩
  · rw [if_neg (by simpa using hlast), tells, if_pos ⟨hstage, hlast⟩]
    have hstatus := h.status (Or.inl hstage)
    have hsnap := (sendDisplayRecord_snap s d.controller).1
    refine ⟨fun _ => hstatus, fun _ => ?_, by simp, fun _ => ?_, by simp, fun _ hne => ?_, ?_, ?_⟩
    · show Later (mark (s.sendDisplayRecord d.controller).snap) _
      rw [hsnap]
      exact hstatus
    · show _ = (s.sendDisplayRecord d.controller).snap.displayShotSeq ∧
        _ = (s.sendDisplayRecord d.controller).snap.acceptedSeq
      rw [hsnap]
      exact ⟨rfl, rfl⟩
    · refine ⟨d.controller.lastAcceptedSeq, ?_, hstatus.fst⟩
      simp [Session.sendDisplayRecord, Session.send, h.has hstage hne, finalSeq_final,
        Controller.snapshotExtraction]
    · intro r hr
      by_cases hhas : s.snap.hasDisplayShot = true
      · simp [Session.sendDisplayRecord, Session.send, hhas, finalSeq_final,
          Controller.snapshotExtraction] at hr
        exact hr.ge
      · simp only [Session.sendDisplayRecord, hhas] at hr
        exact h.upto r hr
    · show Each Preceded (s.sendDisplayRecord d.controller).packets
      by_cases hhas : s.snap.hasDisplayShot = true
      · simp only [Session.sendDisplayRecord, hhas, if_pos]
        exact h.sent.concat fun q hq => by cases hq
      · simp only [Session.sendDisplayRecord, hhas]
        exact h.sent

/-- **Step lemma.** A session keeps its packets in order. -/
theorem ordered_session (h : Ordered s d a) (hd : d.controller.Sendable) (millis : U32) :
    Ordered (s.step storage d millis) d (tells s a) := by
  cases hstage : s.stage with
  | poll =>
    rw [tells_of_stage (by simp [hstage])]
    by_cases hidle : s.connected = true ∧ s.lastSeenLiveSeq = d.controller.liveSeq
    · rwa [step_idle millis hstage hidle.1 hidle.2]
    · rw [step_poll millis hstage fun hc hseen => hidle ⟨hc, hseen⟩]
      exact h.of_same rfl rfl h.sent (by simp +contextual [Session.shownOnce]) (by simp) (by simp)
  | active =>
    rw [step_active millis hstage, tells_of_stage (by simp [hstage])]
    exact h.of_same rfl rfl h.sent (by simp +contextual [Session.shownOnce]) (by simp) (by simp)
  | saved =>
    rw [step_saved millis hstage, tells_of_stage (by simp [hstage])]
    exact h.of_same rfl rfl h.sent (by simp +contextual [Session.shownOnce]) (by simp) (by simp)
  | locked =>
    rw [tells_of_stage (by simp [hstage])]
    exact ordered_locked h hd hstage millis
  | display => exact ordered_display h hstage millis
  | inFlight =>
    rw [tells_of_stage (by simp [hstage])]
    exact ordered_inFlight h hstage millis

end Ordered

/-! ## Runs -/

/-- What a moment loads, a session can send. -/
def LoadsSendable : Moment → Prop
  | .scale _ => True
  | .run sec => sec.LoadsSendable

theorem later_exec {d : Device} (h : d.controller.Sendable) (m : Moment) :
    Later d.controller.mark (d.exec m).controller.mark := by
  cases m with
  | scale state => exact .refl _
  | run sec => exact Controller.later_execSection h sec

theorem sendable_exec {d : Device} (h : d.controller.Sendable) {m : Moment}
    (hload : LoadsSendable m) : (d.exec m).controller.Sendable := by
  cases m with
  | scale state => exact h
  | run sec => exact Controller.sendable_execSection h sec hload

/-- What a turn loads, a session can send. -/
def Loads : Turn → Prop
  | .device m => LoadsSendable m
  | .session _ => True

theorem along_loads {σ : Type} {step : σ → Turn → σ} {w : σ} {turns : List Turn}
    (h : ∀ m ∈ turns.filterMap Turn.moment?, LoadsSendable m) :
    Along step (fun _ => Loads) w turns := by
  rw [along_iff_forall_split]
  rintro pre turn post rfl
  cases turn with
  | device m => exact h m (by simp [Turn.moment?])
  | session millis => trivial

/-- The invariant of a session among the moments of the main task. -/
structure InOrder (w : World) : Prop where
  sendable : w.device.controller.Sendable
  ordered : ∃ a, Ordered w.session w.device a

theorem inOrder_init : InOrder {} := ⟨Controller.sendable_init, 0, ordered_init⟩

theorem inOrder_step {storage : MountState} {w : World} (h : InOrder w) {turn : Turn}
    (hload : Loads turn) : InOrder (w.step storage turn) := by
  obtain ⟨hd, a, ha⟩ := h
  cases turn with
  | device m => exact ⟨sendable_exec hd hload, a, ha.later (later_exec hd m)⟩
  | session millis => exact ⟨hd, _, ordered_session ha hd millis⟩

end LiveStream

namespace ExtractionScreen

open LiveStream (LoadsSendable)

/-- A load brings a record that the history holds. -/
def Op.LoadsStored : Op → Prop
  | .tick _ _ _ _ (.loaded shot) _ => ∃ bs rest, decodeCompact bs = some (shot, rest)
  | _ => True

theorem loadsSendable_load {load : Controller.LoadOutcome}
    (h : ∀ shot, load = .loaded shot → shot.Sendable) :
    ∀ sec ∈ load.sections, sec.LoadsSendable := by
  intro sec hmem shot heq
  cases load with
  | loaded stored =>
    rw [heq] at hmem
    simp only [Controller.LoadOutcome.sections, List.mem_cons, reduceCtorEq, List.not_mem_nil,
      or_false, false_or] at hmem
    obtain rfl := Controller.Section.publishLoadedShot.inj hmem
    exact h shot rfl
  | _ =>
    rw [heq] at hmem
    simp [Controller.LoadOutcome.sections] at hmem

/-- Only the calls themselves publish a loaded shot. -/
theorem loadsSendable_trace {c : Controller} {secs : List Controller.Section}
    (h : ∀ sec ∈ secs, sec.LoadsSendable) : ∀ sec ∈ c.trace secs, sec.LoadsSendable := by
  induction secs generalizing c with
  | nil =>
    intro sec hmem
    exact absurd hmem List.not_mem_nil
  | cons first secs ih =>
    intro sec hmem
    simp only [Controller.trace, List.mem_cons, List.mem_append] at hmem
    obtain rfl | hfollow | hrest := hmem
    · exact h sec List.mem_cons_self
    · rintro shot rfl
      exact absurd hfollow ((ExtractionStream.not_mem_followUp c first).2 shot)
    · exact ih (fun sec' hmem' => h sec' (List.mem_cons_of_mem first hmem')) sec hrest

theorem loadsSendable_moments {s : ExtractionScreen} {op : Op} (h : op.LoadsStored) :
    ∀ m ∈ s.moments op, LoadsSendable m := by
  have hsections (call : MainLoop.Op) (hcall : s.call op = some call) :
      ∀ sec ∈ s.loop.sections call, sec.LoadsSendable := by
    cases op with
    | tick scale nowMs pumpSignal utcSec load ok =>
      obtain rfl := Option.some.inj hcall
      intro sec hmem
      unfold MainLoop.sections at hmem
      split_ifs at hmem
      · exact absurd hmem List.not_mem_nil
      · rcases List.mem_append.1 hmem with hload | htick
        · refine loadsSendable_load (fun shot heq => ?_) sec hload
          rw [heq] at h
          obtain ⟨bs, rest, hdecode⟩ := h
          exact sendable_of_decoded hdecode
        · rintro shot rfl
          simp at htick
    | pausedTick scale => cases hcall
    | replayTick scale nowMs pumpOn snap =>
      obtain rfl := Option.some.inj hcall
      rintro sec hmem shot rfl
      unfold MainLoop.sections at hmem
      split_ifs at hmem <;> simp at hmem
    | _ =>
      obtain rfl := Option.some.inj hcall
      rintro sec hmem shot rfl
      simp [MainLoop.sections, Controller.beginSession, Controller.deactivate,
        Controller.resetInFlightAndNotify] at hmem
  intro m hmem
  unfold moments at hmem
  cases hcall : s.call op with
  | none =>
    rw [hcall] at hmem
    exact absurd hmem List.not_mem_nil
  | some call =>
    simp only [hcall, List.mem_cons, List.mem_map] at hmem
    obtain rfl | ⟨sec, hsec, rfl⟩ := hmem
    · trivial
    · exact loadsSendable_trace (hsections call hcall) sec hsec

theorem loadsSendable_allMoments {s : ExtractionScreen} {ops : List Op}
    (h : ∀ op ∈ ops, op.LoadsStored) : ∀ m ∈ s.allMoments ops, LoadsSendable m := by
  induction ops generalizing s with
  | nil =>
    intro m hmem
    exact absurd hmem List.not_mem_nil
  | cons op ops ih =>
    intro m hmem
    rcases List.mem_append.1 hmem with hop | hrest
    · exact loadsSendable_moments (h op List.mem_cons_self) m hop
    · exact ih (fun op' hmem' => h op' (List.mem_cons_of_mem op hmem')) m hrest

open ExtractionStream (Turn World)

/-- **A shot comes before the records after it.** However the stream's task interleaves with the
main task, a packet of the record in flight has the number of the last `FINAL_RECORD` before it. -/
theorem records_follow_shots (storage : MountState) (ops : List Op)
    (hload : ∀ op ∈ ops, op.LoadsStored) (turns : List Turn)
    (hturns : turns.filterMap Turn.moment? = allMoments {} ops) :
    LiveStream.Each LiveStream.Preceded (exec (World.step storage) {} turns).session.packets := by
  have hloads : Along (World.step storage) (fun _ => LiveStream.Loads) {} turns := by
    apply LiveStream.along_loads
    rw [hturns]
    exact loadsSendable_allMoments hload
  obtain ⟨-, a, ha⟩ := hloads.exec_invariant LiveStream.InOrder
    (fun w turn hw hturn => LiveStream.inOrder_step hw hturn) LiveStream.inOrder_init
  exact ha.sent

/-- A pump that starts and stops, without a scale. -/
def pumpRun : List Op :=
  [.beginSession, .tick {} 1000 { state := .on } 0 .nothingQueued true,
    .tick {} 1020 { state := .on } 0 .nothingQueued true,
    .tick {} 1040 {} 0 .nothingQueued true]

theorem pumpRun_loads : ∀ op ∈ pumpRun, op.LoadsStored := by
  simp [pumpRun, Op.LoadsStored]

/-- The stream's task takes six steps after every moment. -/
def attended (moments : List Moment) : List Turn :=
  moments.flatMap fun m => .device m :: List.replicate 6 (.session 0)

theorem moments_attended (moments : List Moment) :
    (attended moments).filterMap Turn.moment? = moments := by
  induction moments with
  | nil => rfl
  | cons m moments ih =>
    rw [attended, List.flatMap_cons, List.filterMap_append]
    show [m] ++ (attended moments).filterMap Turn.moment? = m :: moments
    rw [ih, List.singleton_append]

theorem records_follow_shots_pumpRun :
    LiveStream.Each LiveStream.Preceded
      (exec (World.step .ready) {} (attended (allMoments {} pumpRun))).session.packets :=
  records_follow_shots .ready pumpRun pumpRun_loads _ (moments_attended _)

end ExtractionScreen

end Pumpbug
