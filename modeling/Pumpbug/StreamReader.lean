import Pumpbug.ExtractionStream
import Pumpbug.WakeUps

/-!
# The stream as a reader

A session polls `liveSeq`, and takes the status anew, in three reads, and the display shot if its
counter has moved.  While nothing tells it to look again, it knows the status; and it has sent the
display shot of the counter it has seen.
-/

namespace Pumpbug

open Lib

namespace ExtractionStream

open Controller (StatusSnapshot)
open ExtractionScreen (Device Moment Report Announced)

/-- The reading of `liveSeq` that the session compares with; none before its first poll. -/
def Session.seen (s : Session) : Option ℕ :=
  if s.connected || s.stage ≠ .poll then some s.lastSeenLiveSeq else none

/-- What the session knows of a report, by the reads it has made since its last poll. -/
def Session.Knows (s : Session) (r : Report) : Prop :=
  match s.stage with
  | .poll => s.snap.untimed = r.status
  | .active => True
  | .saved => s.snap = { active := r.status.active, scaleState := r.status.scaleState }
  | .locked =>
    s.snap =
      { active := r.status.active, scaleState := r.status.scaleState, savedSeq := r.status.savedSeq,
        storageState := r.status.storageState }
  | .display => s.snap.untimed = r.status
  | .inFlight => s.snap.untimed = r.status

def liveSeqOf (d : Device) : ℕ := d.controller.liveSeq

def Packet.final? : Packet → Option Extraction
  | .finalRecord ext _ => some ext
  | _ => none

/-- The record of the last `FINAL_RECORD`. -/
def lastFinal (packets : List Packet) : Option Extraction := (packets.filterMap Packet.final?).getLast?

theorem lastFinal_concat {packets : List Packet} {packet : Packet} (h : packet.final? = none) :
    lastFinal (packets ++ [packet]) = lastFinal packets := by
  simp [lastFinal, h]

theorem lastFinal_final (packets : List Packet) (ext : Extraction) (shotSeq : ℕ) :
    lastFinal (packets ++ [.finalRecord ext shotSeq]) = some ext := by
  simp [lastFinal, Packet.final?]

/-! ## Steps -/

section Steps

variable {storage : MountState} {d : Device} {s : Session} (millis : U32)

/-- A session that has nothing new to look at stays where it is. -/
theorem step_idle (hstage : s.stage = .poll) (hc : s.connected = true)
    (hseen : s.lastSeenLiveSeq = d.controller.liveSeq) : s.step storage d millis = s := by
  simp [Session.step, hstage, hc, hseen]

theorem step_poll (hstage : s.stage = .poll)
    (hnew : s.connected = true → s.lastSeenLiveSeq ≠ d.controller.liveSeq) :
    s.step storage d millis =
      { s with now := millis, lastSeenLiveSeq := d.controller.liveSeq, stage := .active } := by
  cases hc : s.connected with
  | false => simp [Session.step, hstage, hc]
  | true => simp [Session.step, hstage, hc, hnew hc]

theorem step_active (hstage : s.stage = .active) : s.step storage d millis =
    { s with snap := d.controller.readActive d.scaleState, stage := .saved } := by
  simp only [Session.step, hstage]

theorem step_saved (hstage : s.stage = .saved) : s.step storage d millis =
    { s with snap := d.controller.readSaved storage s.snap, stage := .locked } := by
  simp only [Session.step, hstage]

/-- A session that a packet or two leaves where it is. -/
structure SameReads (s s' : Session) : Prop where
  connected : s'.connected = s.connected
  snap : s'.snap = s.snap
  lastSeenLiveSeq : s'.lastSeenLiveSeq = s.lastSeenLiveSeq
  lastDisplaySeq : s'.lastDisplaySeq = s.lastDisplaySeq
  lastFinal : lastFinal s'.packets = lastFinal s.packets

theorem SameReads.refl (s : Session) : SameReads s s := ⟨rfl, rfl, rfl, rfl, rfl⟩

theorem SameReads.trans {s t u : Session} (h : SameReads s t) (h' : SameReads t u) : SameReads s u where
  connected := h'.connected.trans h.connected
  snap := h'.snap.trans h.snap
  lastSeenLiveSeq := h'.lastSeenLiveSeq.trans h.lastSeenLiveSeq
  lastDisplaySeq := h'.lastDisplaySeq.trans h.lastDisplaySeq
  lastFinal := h'.lastFinal.trans h.lastFinal

theorem sameReads_sendState (s : Session) : SameReads s (s.sendState millis) :=
  ⟨rfl, rfl, rfl, rfl, lastFinal_concat rfl⟩

theorem sameReads_sendCurrentRecord (s : Session) (ext : Extraction) (shotSeq : ℕ) :
    SameReads s (s.sendCurrentRecord ext shotSeq) :=
  ⟨rfl, rfl, rfl, rfl, lastFinal_concat rfl⟩

theorem sameReads_sendSampleBatch (s : Session) (ext : Extraction) (shotSeq : ℕ) :
    SameReads s (s.sendSampleBatch ext shotSeq) := by
  unfold Session.sendSampleBatch
  split_ifs
  · exact .refl s
  · exact ⟨rfl, rfl, rfl, rfl, lastFinal_concat rfl⟩

theorem sameReads_connectInFlight (s : Session) (c : Controller) :
    SameReads s (s.connectInFlight c) := by
  unfold Session.connectInFlight
  dsimp only
  split_ifs
  · exact sameReads_sendCurrentRecord s _ _
  · exact .refl s

theorem sameReads_refreshInFlight (s : Session) (c : Controller) :
    SameReads s (s.refreshInFlight c) := by
  unfold Session.refreshInFlight
  dsimp only
  split_ifs
  · exact sameReads_sendCurrentRecord s _ _
  · exact sameReads_sendSampleBatch s _ _
  · exact .refl s

/-- The status is complete. -/
theorem step_locked (storage : MountState) (d : Device) (millis : U32) (hstage : s.stage = .locked) :
    SameReads { s with snap := d.controller.readLocked millis s.snap } (s.step storage d millis) ∧
      (s.step storage d millis).stage = .display := by
  simp only [Session.step, hstage]
  split_ifs
  · exact ⟨⟨rfl, rfl, rfl, rfl, rfl⟩, rfl⟩
  · exact ⟨⟨rfl, rfl, rfl, rfl, lastFinal_concat rfl⟩, rfl⟩

/-- The display shot goes out to a new client, and when its counter has moved. -/
theorem step_display (hstage : s.stage = .display) : s.step storage d millis =
    { if s.connected && s.snap.displayShotSeq = s.lastDisplaySeq then s
      else s.sendDisplayRecord d.controller with stage := .inFlight } := by
  simp only [Session.step, hstage]

/-- The record in flight and the status go out. -/
theorem step_inFlight (storage : MountState) (d : Device) (millis : U32) (hstage : s.stage = .inFlight) :
    SameReads { s with connected := true } (s.step storage d millis) ∧
      (s.step storage d millis).stage = .poll := by
  simp only [Session.step, hstage]
  by_cases hc : s.connected = true
  · rw [if_pos hc]
    have hrefresh := sameReads_refreshInFlight s d.controller
    have hsame : SameReads { s with connected := true } (s.refreshInFlight d.controller) :=
      ⟨hrefresh.connected.trans hc, hrefresh.snap, hrefresh.lastSeenLiveSeq,
        hrefresh.lastDisplaySeq, hrefresh.lastFinal⟩
    split_ifs
    · have hsend := hsame.trans (sameReads_sendState millis (s.refreshInFlight d.controller))
      exact ⟨⟨hsend.connected, hsend.snap, hsend.lastSeenLiveSeq, hsend.lastDisplaySeq,
        hsend.lastFinal⟩, rfl⟩
    · exact ⟨⟨hsame.connected, hsame.snap, hsame.lastSeenLiveSeq, hsame.lastDisplaySeq,
        hsame.lastFinal⟩, rfl⟩
  · rw [if_neg hc]
    have hsame := sameReads_connectInFlight s d.controller
    exact ⟨⟨rfl, hsame.snap, hsame.lastSeenLiveSeq, hsame.lastDisplaySeq, hsame.lastFinal⟩, rfl⟩

theorem sendDisplayRecord_snap (s : Session) (c : Controller) :
    (s.sendDisplayRecord c).snap = s.snap ∧
      (s.sendDisplayRecord c).lastSeenLiveSeq = s.lastSeenLiveSeq ∧
      (s.sendDisplayRecord c).connected = s.connected := by
  unfold Session.sendDisplayRecord
  dsimp only
  split_ifs <;> exact ⟨rfl, rfl, rfl⟩

/-- Sending the display shot changes neither the status nor what the session has seen. -/
theorem step_display_snap (storage : MountState) (d : Device) (millis : U32) (hstage : s.stage = .display) :
    (s.step storage d millis).snap = s.snap ∧
      (s.step storage d millis).lastSeenLiveSeq = s.lastSeenLiveSeq ∧
      (s.step storage d millis).stage = .inFlight := by
  rw [step_display millis hstage]
  obtain ⟨hsnap, hseen, -⟩ := sendDisplayRecord_snap s d.controller
  split_ifs
  · exact ⟨rfl, rfl, rfl⟩
  · exact ⟨hsnap, hseen, rfl⟩

end Steps

/-! ## The status -/

section Status

variable {storage : MountState} {d : Device} {s : Session} {ms : List Moment}

theorem seen_of_stage (h : s.stage ≠ .poll) : s.seen = some s.lastSeenLiveSeq := by
  simp [Session.seen, h]

/-- The reads are those of `snapshotStatus`. -/
theorem untimed_readLocked (storage : MountState) (d : Device) (millis : U32) :
    (d.controller.readLocked millis
      { active := (d.report storage).status.active
        scaleState := (d.report storage).status.scaleState
        savedSeq := (d.report storage).status.savedSeq
        storageState := (d.report storage).status.storageState }).untimed =
      (d.report storage).status := rfl

/-- **Step lemma.** A step keeps what the session knows, unless the counter tells it to look again. -/
theorem known_step (millis : U32)
    (h : Due liveSeqOf (.run .notify) s.seen d ms ∨ s.Knows (d.report storage)) :
    Due liveSeqOf (.run .notify) (s.step storage d millis).seen d ms ∨
      (s.step storage d millis).Knows (d.report storage) := by
  cases hstage : s.stage with
  | poll =>
    by_cases hidle : s.connected = true ∧ s.lastSeenLiveSeq = d.controller.liveSeq
    · rwa [step_idle millis hstage hidle.1 hidle.2]
    · right
      rw [step_poll millis hstage fun hc hseen => hidle ⟨hc, hseen⟩]
      trivial
  | active =>
    right
    rw [step_active millis hstage]
    rfl
  | saved =>
    rw [step_saved millis hstage, seen_of_stage (by simp)]
    rw [seen_of_stage (by simp [hstage])] at h
    apply h.imp id
    intro hknows
    simp only [Session.Knows, hstage] at hknows
    simp only [Session.Knows]
    rw [hknows]
    rfl
  | locked =>
    obtain ⟨hsame, hnext⟩ := step_locked storage d millis hstage
    rw [seen_of_stage (by simp [hnext]), hsame.lastSeenLiveSeq]
    rw [seen_of_stage (by simp [hstage])] at h
    apply h.imp id
    intro hknows
    simp only [Session.Knows, hstage] at hknows
    simp only [Session.Knows, hnext, hsame.snap]
    rw [hknows]
    exact untimed_readLocked storage d millis
  | display =>
    obtain ⟨hsnap, hseen, hnext⟩ := step_display_snap storage d millis hstage
    rw [seen_of_stage (by simp [hnext]), hseen]
    rw [seen_of_stage (by simp [hstage])] at h
    apply h.imp id
    intro hknows
    simp only [Session.Knows, hstage] at hknows
    simp only [Session.Knows, hnext]
    rw [hsnap, hknows]
  | inFlight =>
    obtain ⟨hsame, hnext⟩ := step_inFlight storage d millis hstage
    have hseen : (s.step storage d millis).seen = some s.lastSeenLiveSeq := by
      simp [Session.seen, hsame.connected, hsame.lastSeenLiveSeq]
    rw [hseen]
    rw [seen_of_stage (by simp [hstage])] at h
    apply h.imp id
    intro hknows
    simp only [Session.Knows, hstage] at hknows
    simp only [Session.Knows, hnext]
    rw [hsame.snap, hknows]

/-- What the session compares with is a reading of the counter. -/
theorem behind_step (millis : U32) (h : Behind liveSeqOf s.seen d) :
    Behind liveSeqOf (s.step storage d millis).seen d := by
  cases hstage : s.stage with
  | poll =>
    by_cases hidle : s.connected = true ∧ s.lastSeenLiveSeq = d.controller.liveSeq
    · rwa [step_idle millis hstage hidle.1 hidle.2]
    · rw [step_poll millis hstage fun hc hseen => hidle ⟨hc, hseen⟩]
      intro n hn
      rw [seen_of_stage (by simp)] at hn
      exact (Option.some.inj hn).ge
  | active =>
    rw [step_active millis hstage, seen_of_stage (by simp)]
    rwa [seen_of_stage (by simp [hstage])] at h
  | saved =>
    rw [step_saved millis hstage, seen_of_stage (by simp)]
    rwa [seen_of_stage (by simp [hstage])] at h
  | locked =>
    obtain ⟨hsame, hnext⟩ := step_locked storage d millis hstage
    rw [seen_of_stage (by simp [hnext]), hsame.lastSeenLiveSeq]
    rwa [seen_of_stage (by simp [hstage])] at h
  | display =>
    obtain ⟨-, hseen, hnext⟩ := step_display_snap storage d millis hstage
    rw [seen_of_stage (by simp [hnext]), hseen]
    rwa [seen_of_stage (by simp [hstage])] at h
  | inFlight =>
    obtain ⟨hsame, hnext⟩ := step_inFlight storage d millis hstage
    rw [seen_of_stage (by simp [hstage])] at h
    simpa [Session.seen, hsame.connected, hsame.lastSeenLiveSeq] using h

/-- The steps left to a session that the main task leaves alone. -/
def Session.stepsLeft (s : Session) (d : Device) : ℕ :=
  (match s.stage with
    | .poll => 0
    | .active => 5
    | .saved => 4
    | .locked => 3
    | .display => 2
    | .inFlight => 1) +
  if s.seen = some d.controller.liveSeq then 0 else 6

theorem stepsLeft_step (millis : U32) :
    (s.step storage d millis).stepsLeft d = s.stepsLeft d - 1 := by
  cases hstage : s.stage with
  | poll =>
    by_cases hidle : s.connected = true ∧ s.lastSeenLiveSeq = d.controller.liveSeq
    · rw [step_idle millis hstage hidle.1 hidle.2]
      simp [Session.stepsLeft, Session.seen, hstage, hidle]
    · rw [step_poll millis hstage fun hc hseen => hidle ⟨hc, hseen⟩]
      have hnew : s.seen ≠ some d.controller.liveSeq := by
        unfold Session.seen
        split_ifs with hc
        · intro heq
          exact hidle ⟨by simpa [hstage] using hc, Option.some.inj heq⟩
        · exact nofun
      unfold Session.stepsLeft
      rw [seen_of_stage (by simp), if_pos rfl, if_neg hnew, hstage]
      rfl
  | active =>
    rw [step_active millis hstage]
    unfold Session.stepsLeft
    rw [seen_of_stage (by simp), seen_of_stage (by simp [hstage]), hstage]
    dsimp only
    omega
  | saved =>
    rw [step_saved millis hstage]
    unfold Session.stepsLeft
    rw [seen_of_stage (by simp), seen_of_stage (by simp [hstage]), hstage]
    dsimp only
    omega
  | locked =>
    obtain ⟨hsame, hnext⟩ := step_locked storage d millis hstage
    unfold Session.stepsLeft
    rw [seen_of_stage (by simp [hnext]), seen_of_stage (by simp [hstage]), hsame.lastSeenLiveSeq,
      hnext, hstage]
    dsimp only
    omega
  | display =>
    obtain ⟨-, hseen, hnext⟩ := step_display_snap storage d millis hstage
    unfold Session.stepsLeft
    rw [seen_of_stage (by simp [hnext]), seen_of_stage (by simp [hstage]), hseen, hnext, hstage]
    dsimp only
    omega
  | inFlight =>
    obtain ⟨hsame, hnext⟩ := step_inFlight storage d millis hstage
    have hseen : (s.step storage d millis).seen = some s.lastSeenLiveSeq := by
      simp [Session.seen, hsame.connected, hsame.lastSeenLiveSeq]
    unfold Session.stepsLeft
    rw [hseen, seen_of_stage (by simp [hstage]), hnext, hstage]
    dsimp only
    omega

theorem stepsLeft_le (s : Session) (d : Device) : s.stepsLeft d ≤ 11 := by
  unfold Session.stepsLeft
  cases s.stage <;> split_ifs <;> decide

theorem settled_of_stepsLeft (h : s.stepsLeft d = 0) :
    s.stage = .poll ∧ s.seen = some d.controller.liveSeq := by
  unfold Session.stepsLeft at h
  by_cases hseen : s.seen = some d.controller.liveSeq
  · cases hstage : s.stage <;> simp_all
  · simp_all

end Status

/-! ## The shot on display -/

end ExtractionStream

namespace Controller

/-- The verdict of a tick changes the shot on display, or neither it nor its counter. -/
theorem display_settleFinalize (c : Controller) :
    c.settleFinalize.displayShotSeq = c.displayShotSeq + 1 ∨
      (c.settleFinalize.displayShotSeq = c.displayShotSeq ∧
        c.settleFinalize.effectiveLastShot = c.effectiveLastShot) := by
  cases hv : c.finalizeOutcome with
  | none =>
    rw [settleFinalize_of_none hv]
    exact Or.inr ⟨rfl, rfl⟩
  | accepted =>
    rw [settleFinalize_of_accepted hv]
    exact Or.inl rfl
  | rejected =>
    rw [settleFinalize_of_rejected hv]
    exact Or.inr ⟨rfl, rfl⟩

theorem display_advanceAlert (c : Controller) (nowMs : U32) :
    (c.advanceAlert nowMs).displayShotSeq = c.displayShotSeq ∧
      (c.advanceAlert nowMs).effectiveLastShot = c.effectiveLastShot := by
  obtain ⟨r, alert, beginMs, heq, -⟩ := c.runTargetAlert_frame nowMs
    (c.recorder.current.phase = .running) c.recorder.lastTrustedYieldSample
    c.recorder.current.beginMs
  unfold advanceAlert
  rw [heq]
  exact ⟨rfl, rfl⟩

/-- The section that a load ends with. -/
def Section.endsLoad : Section → Bool
  | .publishLoadedShot _ => true
  | .clearLoadedShot => true
  | _ => false

/-- A section moves the display counter on, or leaves the shot on display, unless it begins a load. -/
theorem display_execSection (c : Controller) (sec : Section) :
    (c.execSection sec).displayShotSeq = c.displayShotSeq + 1 ∨
      ((c.execSection sec).displayShotSeq = c.displayShotSeq ∧ sec.endsLoad = false ∧
        (sec = .unpublishLoadedShot ∨
          (c.execSection sec).effectiveLastShot = c.effectiveLastShot)) := by
  cases sec with
  | publishLoadedShot shot => exact Or.inl rfl
  | clearLoadedShot => exact Or.inl rfl
  | unpublishLoadedShot => exact Or.inr ⟨rfl, rfl, Or.inl rfl⟩
  | tick i flags saveOk =>
    obtain ⟨hseq, hshot⟩ := display_advanceAlert
      { c with statusPumpSignalState := i.pumpSignal.state
               recorder := c.recorder.update i }.settleFinalize i.nowMs
    obtain hnext | ⟨hsame, hdisplay⟩ := display_settleFinalize
      { c with statusPumpSignalState := i.pumpSignal.state, recorder := c.recorder.update i }
    · exact Or.inl (hseq.trans hnext)
    · exact Or.inr ⟨hseq.trans hsame, rfl, Or.inr (hshot.trans hdisplay)⟩
  | contextAction =>
    right
    show c.applyContextAction.displayShotSeq = _ ∧ _ ∧ (_ ∨ c.applyContextAction.effectiveLastShot = _)
    unfold applyContextAction
    split <;> exact ⟨rfl, rfl, Or.inr rfl⟩
  | replayTick nowMs pumpOn scale =>
    obtain ⟨hseq, hshot⟩ := display_advanceAlert
      { c with statusPumpSignalState := .off
               recorder := c.recorder.update (replayInput nowMs pumpOn scale) } nowMs
    exact Or.inr ⟨hseq, rfl, Or.inr hshot⟩
  | _ => exact Or.inr ⟨rfl, rfl, Or.inr rfl⟩

end Controller

namespace ExtractionStream

open ExtractionScreen (Device Moment Report Announced)

/-- A load is under way. -/
def MidLoad : List Moment → Prop
  | .run sec :: _ => sec.endsLoad = true
  | _ => False

/-- A load that has begun ends before anything else happens. -/
def LoadsWhole : List Moment → Prop
  | [] => True
  | m :: ms => (m = .run .unpublishLoadedShot → MidLoad ms) ∧ LoadsWhole ms

theorem MidLoad.append {ms : List Moment} (h : MidLoad ms) (ns : List Moment) :
    MidLoad (ms ++ ns) := by
  cases ms with
  | nil => exact h.elim
  | cons m ms =>
    cases m with
    | scale state => exact h.elim
    | run sec => exact h

theorem loadsWhole_append {ms ns : List Moment} (hm : LoadsWhole ms) (hn : LoadsWhole ns) :
    LoadsWhole (ms ++ ns) := by
  induction ms with
  | nil => exact hn
  | cons m ms ih => exact ⟨fun hload => (hm.1 hload).append ns, ih hm.2⟩

theorem loadsWhole_cons {m : Moment} {ms : List Moment} (h : m ≠ .run .unpublishLoadedShot)
    (hms : LoadsWhole ms) : LoadsWhole (m :: ms) := ⟨fun heq => absurd heq h, hms⟩

theorem loadsWhole_of_not_mem {ms : List Moment} (h : Moment.run .unpublishLoadedShot ∉ ms) :
    LoadsWhole ms := by
  induction ms with
  | nil => trivial
  | cons m ms ih =>
    refine ⟨fun hm => ?_, ih fun hmem => h (List.mem_cons_of_mem m hmem)⟩
    exact absurd (hm ▸ List.mem_cons_self) h

section

open ExtractionScreen

/-- The sections after a call leave the loaded shot alone. -/
theorem not_mem_followUp (c : Controller) (sec : Controller.Section) :
    Controller.Section.unpublishLoadedShot ∉ c.followUp sec ∧
      ∀ shot, Controller.Section.publishLoadedShot shot ∉ c.followUp sec := by
  cases sec with
  | tick i flags ok =>
    simp only [Controller.followUp, Controller.persistAcceptedShot]
    split_ifs <;> simp
  | contextAction =>
    simp only [Controller.followUp]
    split_ifs <;> simp
  | _ => simp [Controller.followUp]

theorem loadsWhole_moments (s : ExtractionScreen) (op : Op) (ha : s.Allowed op) :
    LoadsWhole (s.moments op) := by
  cases op with
  | tick scale nowMs pumpSignal utcSec load ok =>
    have hrest : LoadsWhole ((s.tickSection scale nowMs pumpSignal utcSec load ok ::
        (s.loop.controller.performAll load.sections).followUp
          (s.tickSection scale nowMs pumpSignal utcSec load ok)).map Moment.run) := by
      apply loadsWhole_of_not_mem
      rw [List.mem_map]
      rintro ⟨sec, hmem, hsec⟩
      obtain rfl := Moment.run.inj hsec
      rcases List.mem_cons.1 hmem with htick | hfollow
      · exact absurd htick (by simp [tickSection])
      · exact (not_mem_followUp _ _).1 hfollow
    rw [moments_tick ha, List.map_append]
    apply loadsWhole_cons (by simp)
    cases load with
    | nothingQueued => exact hrest
    | dropped => exact hrest
    | loaded shot => exact ⟨fun _ => rfl, loadsWhole_cons (by simp) hrest⟩
    | failed => exact ⟨fun _ => rfl, loadsWhole_cons (by simp) hrest⟩
  | contextAction =>
    apply loadsWhole_of_not_mem
    simp only [moments, call, MainLoop.sections, Controller.trace, Controller.followUp]
    split_ifs <;> simp
  | replayTick scale nowMs pumpOn snap =>
    apply loadsWhole_of_not_mem
    have hr : s.loop.replaying = true := ha
    simp [moments, call, MainLoop.sections, Controller.trace, Controller.followUp, hr]
  | pausedTick scale => trivial
  | _ =>
    apply loadsWhole_of_not_mem
    simp [moments, call, MainLoop.sections, Controller.trace, Controller.followUp,
      Controller.beginSession, Controller.deactivate, Controller.resetInFlightAndNotify]

theorem loadsWhole_allMoments {s : ExtractionScreen} {ops : List Op}
    (h : Along ExtractionScreen.step Allowed s ops) : LoadsWhole (s.allMoments ops) := by
  induction ops generalizing s with
  | nil => trivial
  | cons op ops ih => exact loadsWhole_append (loadsWhole_moments s op h.1) (ih h.2)

end

/-- A display record has been sent, or its place has been passed. -/
def Session.shownOnce (s : Session) : Bool := s.connected || s.stage = .inFlight

/-- What the session has of the shot on display. -/
structure Shows (s : Session) (d : Device) (ms : List Moment) : Prop where
  behind : s.shownOnce = true → s.lastDisplaySeq ≤ d.controller.displayShotSeq
  snap : s.stage = .display → s.snap.displayShotSeq ≤ d.controller.displayShotSeq
  shown : s.shownOnce = true → s.lastDisplaySeq = d.controller.displayShotSeq → MidLoad ms ∨
    ∀ shot, d.controller.effectiveLastShot = some shot → lastFinal s.packets = some shot
  has : s.stage = .display → s.snap.displayShotSeq = d.controller.displayShotSeq → MidLoad ms ∨
    s.snap.hasDisplayShot = d.controller.effectiveLastShot.isSome
  sent : s.stage = .inFlight ∨ (s.stage = .poll ∧ s.connected = true) →
    s.lastDisplaySeq = s.snap.displayShotSeq

theorem shows_init (ms : List Moment) : Shows {} {} ms :=
  ⟨nofun, nofun, nofun, nofun, nofun⟩

section Display

variable {storage : MountState} {d : Device} {s : Session} {m : Moment} {ms : List Moment}

/-- The shot on display and its counter, after a moment. -/
theorem display_exec (d : Device) (m : Moment) (ms : List Moment) (hl : LoadsWhole (m :: ms)) :
    (d.exec m).controller.displayShotSeq = d.controller.displayShotSeq + 1 ∨
      ((d.exec m).controller.displayShotSeq = d.controller.displayShotSeq ∧ ¬ MidLoad (m :: ms) ∧
        (MidLoad ms ∨
          (d.exec m).controller.effectiveLastShot = d.controller.effectiveLastShot)) := by
  cases m with
  | scale state => exact Or.inr ⟨rfl, id, Or.inr rfl⟩
  | run sec =>
    obtain hnext | ⟨hsame, hends, hdisplay⟩ := d.controller.display_execSection sec
    · exact Or.inl hnext
    · refine Or.inr ⟨hsame, ?_, hdisplay.imp (fun hsec => hl.1 (by rw [hsec])) id⟩
      show ¬ sec.endsLoad = true
      rw [hends]
      decide

/-- **Step lemma.** What the main task does to the shot on display, the session is told. -/
theorem shows_device (h : Shows s d (m :: ms)) (hl : LoadsWhole (m :: ms)) :
    Shows s (d.exec m) ms := by
  obtain hnext | ⟨hsame, hno, hdisplay⟩ := display_exec d m ms hl
  · refine ⟨fun honce => ?_, fun hstage => ?_, fun honce heq => ?_, fun hstage heq => ?_, h.sent⟩
    · have hle := h.behind honce
      omega
    · have hle := h.snap hstage
      omega
    · have hle := h.behind honce
      omega
    · have hle := h.snap hstage
      omega
  · refine ⟨?_, ?_, ?_, ?_, h.sent⟩
    · rw [hsame]
      exact h.behind
    · rw [hsame]
      exact h.snap
    · rw [hsame]
      intro honce heq
      have hshown := (h.shown honce heq).resolve_left hno
      exact hdisplay.imp id fun hshot => by rwa [hshot]
    · rw [hsame]
      intro hstage heq
      have hhas := (h.has hstage heq).resolve_left hno
      exact hdisplay.imp id fun hshot => by rwa [hshot]

/-- A step that neither reads nor sends the shot on display. -/
theorem Shows.of_sameReads {s' : Session} (h : Shows s d ms)
    (hdisplay : s'.lastDisplaySeq = s.lastDisplaySeq)
    (hfinal : lastFinal s'.packets = lastFinal s.packets) (honce : s'.shownOnce = s.shownOnce)
    (hsnap : s'.stage ≠ .display)
    (hsent : s'.stage = .inFlight ∨ (s'.stage = .poll ∧ s'.connected = true) →
      s'.lastDisplaySeq = s'.snap.displayShotSeq) : Shows s' d ms where
  behind := by
    rw [honce, hdisplay]
    exact h.behind
  snap := fun hstage => absurd hstage hsnap
  shown := by
    rw [honce, hdisplay, hfinal]
    exact h.shown
  has := fun hstage => absurd hstage hsnap
  sent := hsent

/-- **Step lemma.** Once it has read the shot on display, the session has it. -/
theorem shows_session (h : Shows s d ms) (millis : U32) :
    Shows (s.step storage d millis) d ms := by
  cases hstage : s.stage with
  | poll =>
    by_cases hidle : s.connected = true ∧ s.lastSeenLiveSeq = d.controller.liveSeq
    · rwa [step_idle millis hstage hidle.1 hidle.2]
    · rw [step_poll millis hstage fun hc hseen => hidle ⟨hc, hseen⟩]
      exact h.of_sameReads rfl rfl (by simp [Session.shownOnce, hstage]) nofun (by simp)
  | active =>
    rw [step_active millis hstage]
    exact h.of_sameReads rfl rfl (by simp [Session.shownOnce, hstage]) nofun (by simp)
  | saved =>
    rw [step_saved millis hstage]
    exact h.of_sameReads rfl rfl (by simp [Session.shownOnce, hstage]) nofun (by simp)
  | locked =>
    obtain ⟨hsame, hnext⟩ := step_locked storage d millis hstage
    have honce : (s.step storage d millis).shownOnce = s.shownOnce := by
      simp [Session.shownOnce, hsame.connected, hnext, hstage]
    refine ⟨?_, fun _ => ?_, ?_, fun _ _ => ?_, by simp [hnext]⟩
    · rw [honce, hsame.lastDisplaySeq]
      exact h.behind
    · rw [hsame.snap]
      exact le_rfl
    · rw [honce, hsame.lastDisplaySeq, hsame.lastFinal]
      exact h.shown
    · rw [hsame.snap]
      exact Or.inr rfl
  | display =>
    rw [step_display millis hstage]
    by_cases hlast : s.connected = true ∧ s.snap.displayShotSeq = s.lastDisplaySeq
    · rw [if_pos (by simp [hlast])]
      exact h.of_sameReads rfl rfl (by simp [Session.shownOnce, hlast.1]) nofun fun _ => hlast.2.symm
    · rw [if_neg (by simpa using hlast)]
      have hle := h.snap hstage
      refine ⟨fun _ => hle, nofun, fun _ heq => ?_, nofun, fun _ => ?_⟩
      · refine (h.has hstage heq).imp id fun hhas shot hshot => ?_
        have htrue : s.snap.hasDisplayShot = true := by rw [hhas, hshot, Option.isSome_some]
        show lastFinal (s.sendDisplayRecord d.controller).packets = some shot
        simp [Session.sendDisplayRecord, htrue, Session.send, lastFinal_final,
          Controller.snapshotExtraction, hshot]
      · exact congrArg Controller.StatusSnapshot.displayShotSeq
          (sendDisplayRecord_snap s d.controller).1.symm
  | inFlight =>
    obtain ⟨hsame, hnext⟩ := step_inFlight storage d millis hstage
    refine h.of_sameReads hsame.lastDisplaySeq hsame.lastFinal ?_ (by simp [hnext]) fun _ => ?_
    · simp [Session.shownOnce, hsame.connected, hstage]
    · rw [hsame.lastDisplaySeq, hsame.snap]
      exact h.sent (Or.inl hstage)

end Display

end ExtractionStream

end Pumpbug
