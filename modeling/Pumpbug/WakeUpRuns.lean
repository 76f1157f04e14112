import Pumpbug.StreamReader

/-!
# No lost wake-up

Over every run of the main task: what an operation changes is announced by the end of the next one,
unless a quiet tick that changes something is followed by an operation that announces nothing.  A
stream session then ends up with the current status and the current display shot, however its reads
fall between the steps of the main task.
-/

namespace Pumpbug

open Lib

namespace Controller

/-- Only `notify` advances the counter. -/
theorem liveSeq_execSection (c : Controller) {sec : Section} (h : sec ≠ .notify) :
    (c.execSection sec).liveSeq = c.liveSeq := by
  have hadvance : ∀ (c : Controller) (nowMs : U32), (c.advanceAlert nowMs).liveSeq = c.liveSeq := by
    intro c nowMs
    obtain ⟨r, alert, beginMs, heq, -⟩ := c.runTargetAlert_frame nowMs
      (c.recorder.current.phase = .running) c.recorder.lastTrustedYieldSample
      c.recorder.current.beginMs
    unfold advanceAlert
    rw [heq]
  have hsettle : ∀ c : Controller, c.settleFinalize.liveSeq = c.liveSeq := by
    intro c
    cases hv : c.finalizeOutcome with
    | none => rw [settleFinalize_of_none hv]
    | accepted =>
      rw [settleFinalize_of_accepted hv]
      rfl
    | rejected => rw [settleFinalize_of_rejected hv]
  cases sec with
  | notify => exact absurd rfl h
  | tick i flags saveOk => exact (hadvance _ _).trans (hsettle _)
  | contextAction =>
    show c.applyContextAction.liveSeq = _
    unfold applyContextAction
    split <;> rfl
  | replayTick nowMs pumpOn scale => exact hadvance _ _
  | _ => rfl

end Controller

namespace ExtractionStream

open Controller (StatusSnapshot)
open ExtractionScreen (Device Moment Report Announced)

theorem liveSeqOf_exec (d : Device) (m : Moment) (h : m ≠ .run .notify) :
    liveSeqOf (d.exec m) = liveSeqOf d := by
  cases m with
  | scale state => rfl
  | run sec => exact d.controller.liveSeq_execSection fun heq => h (by rw [heq])

theorem liveSeqOf_notify (d : Device) : liveSeqOf (d.exec (.run .notify)) = liveSeqOf d + 1 := rfl

theorem moments_later (later : List U32) : (later.map Turn.session).filterMap Turn.moment? = [] := by
  induction later with
  | nil => rfl
  | cons millis later ih => exact ih

/-! ## A session among the turns -/

/-- What a session has read, when the main task has the moments `ms` still before it. -/
structure Reads (storage : MountState) (w : World) (ms : List Moment) : Prop where
  announced : Announced storage w.device ms
  whole : LoadsWhole ms
  behind : Behind liveSeqOf w.session.seen w.device
  known : Due liveSeqOf (.run .notify) w.session.seen w.device ms ∨
    w.session.Knows (w.device.report storage)
  shows : Shows w.session w.device ms

section Turns

variable {storage : MountState} {w : World} {m : Moment} {ms : List Moment}

theorem reads_device (h : Reads storage w (m :: ms)) :
    Reads storage (w.step storage (.device m)) ms where
  announced := h.announced.2
  whole := h.whole.2
  behind := h.behind.step liveSeqOf_notify liveSeqOf_exec
  known := due_or_known_step liveSeqOf_notify liveSeqOf_exec h.announced h.behind h.known
  shows := shows_device h.shows h.whole

theorem reads_session (h : Reads storage w ms) (millis : U32) :
    Reads storage (w.step storage (.session millis)) ms where
  announced := h.announced
  whole := h.whole
  behind := behind_step millis h.behind
  known := known_step millis h.known
  shows := shows_session h.shows millis

/-- **Run lemma.** Any turns that end the moments of the main task. -/
theorem reads_turns (turns : List Turn) (h : Reads storage w (turns.filterMap Turn.moment?)) :
    Reads storage (exec (World.step storage) w turns) [] ∧
      (exec (World.step storage) w turns).device =
        (turns.filterMap Turn.moment?).foldl Device.exec w.device := by
  induction turns generalizing w with
  | nil => exact ⟨h, rfl⟩
  | cons turn turns ih =>
    cases turn with
    | device m => exact ih (reads_device h)
    | session millis => exact ih (reads_session h millis)

/-- Left alone, a session comes to rest. -/
theorem stepsLeft_later (w : World) (later : List U32) :
    (exec (World.step storage) w (later.map Turn.session)).session.stepsLeft w.device =
      w.session.stepsLeft w.device - later.length := by
  induction later generalizing w with
  | nil => rfl
  | cons millis later ih =>
    rw [List.map_cons, exec_cons]
    refine (ih (w.step storage (.session millis))).trans ?_
    show (w.session.step storage w.device millis).stepsLeft w.device - later.length = _
    rw [stepsLeft_step, List.length_cons]
    omega

/-- A session that has come to rest has the current status and the current display shot. -/
theorem current_of_reads (h : Reads storage w []) (hrest : w.session.stepsLeft w.device = 0) :
    w.session.snap.untimed = (w.device.report storage).status ∧
      ∀ shot, w.device.controller.effectiveLastShot = some shot →
        lastFinal w.session.packets = some shot := by
  obtain ⟨hpoll, hseen⟩ := settled_of_stepsLeft hrest
  have hconnected : w.session.connected = true := by
    by_contra hno
    simp [Session.seen, hpoll, hno] at hseen
  have hknows : w.session.Knows (w.device.report storage) := by
    apply h.known.resolve_left
    rintro (hdue | hmem)
    · exact hdue hseen
    · exact List.not_mem_nil hmem
  simp only [Session.Knows, hpoll] at hknows
  have hsent := h.shows.sent (Or.inr ⟨hpoll, hconnected⟩)
  have hseq : w.session.snap.displayShotSeq = w.device.controller.displayShotSeq :=
    congrArg StatusSnapshot.displayShotSeq hknows
  rw [hseq] at hsent
  have honce : w.session.shownOnce = true := by simp [Session.shownOnce, hconnected]
  exact ⟨hknows, (h.shows.shown honce hsent).resolve_left id⟩

end Turns

end ExtractionStream

namespace ExtractionScreen

open ExtractionStream (Turn World)

/-- Once the device is quiet, so that nothing is left to announce, every stream session ends up with
the current status and the current display shot. -/
def CatchesUp (storage : MountState) (ops : List Op) : Prop :=
  (∀ pre op, ops = pre ++ [op] →
    Announced storage (exec step {} pre).device ((exec step {} pre).moments op)) →
  ∀ turns : List Turn, turns.filterMap Turn.moment? = allMoments {} ops →
  ∀ later : List U32, 11 ≤ later.length →
    let w := exec (World.step storage) {} (turns ++ later.map Turn.session)
    w.session.snap.untimed = ((exec step {} ops).device.report storage).status ∧
      ∀ shot, (exec step {} ops).loop.controller.effectiveLastShot = some shot →
        ExtractionStream.lastFinal w.session.packets = some shot

/-- No quiet tick that changes what the readers find comes right before a silent operation. -/
def ChangesAloud (ops : List Op) : Prop :=
  ∀ pre op op' post, ops = pre ++ op :: op' :: post →
    (exec step {} pre).Unannounced op → ¬ (exec step {} (pre ++ [op])).Silent op'

/-- A run announces its changes if its operations do, each at the latest by the next. -/
theorem announced_allMoments {storage : MountState} {s : ExtractionScreen} {ops : List Op}
    (hnext : ∀ pre op op' post, ops = pre ++ op :: op' :: post →
      Announced storage (exec step s pre).device ((exec step s pre).moments op) ∨
        Moment.run .notify ∈ (exec step s (pre ++ [op])).moments op')
    (hlast : ∀ pre op, ops = pre ++ [op] →
      Announced storage (exec step s pre).device ((exec step s pre).moments op)) :
    Announced storage s.device (s.allMoments ops) := by
  induction ops generalizing s with
  | nil => trivial
  | cons op ops ih =>
    have hrest : Announced storage (s.step op).device ((s.step op).allMoments ops) := by
      apply ih
      · intro pre o o' post heq
        exact hnext (op :: pre) o o' post (by rw [heq, List.cons_append])
      · intro pre o heq
        exact hlast (op :: pre) o (by rw [heq, List.cons_append])
    apply announces_append
    · cases ops with
      | nil => exact Or.inl (hlast [] op rfl)
      | cons op' ops =>
        exact (hnext [] op op' ops rfl).imp id fun hmem => List.mem_append.2 (Or.inl hmem)
    · rw [foldl_moments]
      exact hrest

/-- A session catches up with a run whose changes are announced. -/
theorem catchesUp_of_wakes {storage : MountState} {ops : List Op}
    (h : Along step Allowed {} ops) (hw : Wakes storage ops) : CatchesUp storage ops := by
  intro hquiet turns hturns later hlen
  have hreads : ExtractionStream.Reads storage {} (turns.filterMap Turn.moment?) := by
    rw [hturns]
    exact ⟨announced_allMoments hw hquiet, ExtractionStream.loadsWhole_allMoments h, nofun,
      Or.inl (Or.inl nofun), ExtractionStream.shows_init _⟩
  obtain ⟨hend, hdevice⟩ := ExtractionStream.reads_turns turns hreads
  have hlater : ExtractionStream.Reads storage (exec (World.step storage) {} turns)
      ((later.map Turn.session).filterMap Turn.moment?) := by
    rw [ExtractionStream.moments_later]
    exact hend
  obtain ⟨hrests, hsame⟩ := ExtractionStream.reads_turns (later.map Turn.session) hlater
  rw [ExtractionStream.moments_later] at hsame
  have hcurrent := ExtractionStream.current_of_reads hrests (by
    rw [hsame]
    refine (ExtractionStream.stepsLeft_later _ later).trans ?_
    have hle := ExtractionStream.stepsLeft_le (exec (World.step storage) {} turns).session
      (exec (World.step storage) {} turns).device
    omega)
  rw [hsame] at hcurrent
  have hfinal : (exec (World.step storage) {} turns).device = (exec step {} ops).device := by
    rw [hdevice, hturns]
    exact foldl_allMoments {} ops
  rw [exec_append]
  rw [List.foldl_nil, hfinal] at hcurrent
  exact hcurrent

/-- No wake-up is lost exactly if the changes come aloud. -/
theorem wakes_iff {storage : MountState} {ops : List Op} (h : Along step Allowed {} ops)
    (hexit : Exits ops) : Wakes storage ops ↔ ChangesAloud ops := by
  have hstill : ∀ pre op post, ops = pre ++ op :: post →
      (exec step {} pre).Still ∧ (exec step {} pre).Allowed op := by
    rintro pre op post rfl
    obtain ⟨hpre, hop⟩ := along_append.1 h
    exact ⟨hpre.exec_invariant Still (fun s o hs ha => still_step o hs ha) still_init, hop.1⟩
  have hpair : ∀ pre op op' post, ops = pre ++ op :: op' :: post →
      ((Announced storage (exec step {} pre).device ((exec step {} pre).moments op) ∨
          Moment.run .notify ∈ (exec step {} (pre ++ [op])).moments op') ↔
        ((exec step {} pre).Unannounced op → ¬ (exec step {} (pre ++ [op])).Silent op')) := by
    intro pre op op' post heq
    obtain ⟨hs, ha⟩ := hstill pre op (op' :: post) heq
    obtain ⟨hs', ha'⟩ := hstill (pre ++ [op]) op' post (by rw [heq, List.append_assoc]; rfl)
    have hnext : Moment.run .notify ∈ (exec step {} (pre ++ [op])).moments op' ↔
        ¬ (exec step {} (pre ++ [op])).Silent op' := by
      obtain ⟨hloud, ms, hends⟩ | ⟨hsilent, hno⟩ := notifies_iff hs' ha'
      · rw [hends]
        exact iff_of_true (by simp) hloud
      · exact iff_of_false hno (not_not.2 hsilent)
    by_cases hleft : op = .deactivate
    · have hreset : op' = .resetInFlightAndNotify := hexit pre op' post (by rw [heq, hleft])
      rw [hnext, hleft, hreset]
      exact iff_of_true (Or.inr id) nofun
    · rw [announced_iff storage hs ha hleft, hnext, imp_iff_not_or]
  constructor
  · intro hw pre op op' post heq
    exact (hpair pre op op' post heq).1 (hw pre op op' post heq)
  · intro hc pre op op' post heq
    exact (hpair pre op op' post heq).2 (hc pre op op' post heq)

/-- **No lost wake-up.** Over every run of the main task, what an operation changes is announced by
the end of the next one, and every stream session catches up, exactly if no quiet tick that changes
something comes right before a silent operation. -/
theorem no_lost_wake_up_iff (storage : MountState) (ops : List Op) (h : Along step Allowed {} ops)
    (hexit : Exits ops) : (Wakes storage ops ∧ CatchesUp storage ops) ↔ ChangesAloud ops := by
  have hiff : Wakes storage ops ↔ ChangesAloud ops := wakes_iff h hexit
  rw [← hiff]
  exact and_iff_left_of_imp fun hw => catchesUp_of_wakes h hw

/-- A tick of an idle screen, without a scale. -/
def idleTick (nowMs : U32) (load : Controller.LoadOutcome) : Op := .tick {} nowMs {} 0 load true

/-- A stored shot is loaded, and the next load fails. -/
def failedLoadRun : List Op :=
  [.beginSession, idleTick 1000 (.loaded {}), idleTick 1020 .failed, idleTick 1040 .nothingQueued]

theorem failedLoadRun_allowed : Along step Allowed {} failedLoadRun :=
  ⟨trivial, rfl, rfl, rfl, trivial⟩

theorem failedLoadRun_exits : Exits failedLoadRun := by
  intro pre op post h
  have hmem : Op.deactivate ∈ failedLoadRun := by
    rw [h]
    simp
  simp [failedLoadRun, idleTick] at hmem

/-- The load that failed goes unannounced. -/
theorem not_no_lost_wake_up : ¬ ∀ (storage : MountState) (ops : List Op),
    Along step Allowed {} ops → Exits ops → Wakes storage ops ∧ CatchesUp storage ops := by
  intro h
  have hw := (h .ready failedLoadRun failedLoadRun_allowed failedLoadRun_exits).1
  rw [wakes_iff failedLoadRun_allowed failedLoadRun_exits] at hw
  refine hw [.beginSession, idleTick 1000 (.loaded {})] (idleTick 1020 .failed)
    (idleTick 1040 .nothingQueued) [] rfl ⟨⟨?_, rfl, ?_, ?_, rfl⟩, Or.inl rfl⟩ ⟨?_, rfl, ?_, ?_, rfl⟩
  all_goals decide +kernel

/-- The theorem at that run. -/
theorem no_lost_wake_up_failedLoadRun :
    (Wakes .ready failedLoadRun ∧ CatchesUp .ready failedLoadRun) ↔ ChangesAloud failedLoadRun :=
  no_lost_wake_up_iff .ready failedLoadRun failedLoadRun_allowed failedLoadRun_exits

end ExtractionScreen

end Pumpbug
