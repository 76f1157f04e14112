import Pumpbug.RecorderFacts

/-!
# The pump edges

The recorder leaves `RUNNING` on the falling edge of the pump, which it detects against
`lastPumpOn`.  `sense` writes that memory early in the tick; entering `IDLE` clears it again, and
the two ways a tick can restart a shot (out of `DONE`, or by splitting a settled shot) pass through
`IDLE` with the pump on.  So the recorder follows the pump exactly as long as no restart is
answered by an `off` at once.
-/

namespace Pumpbug

open Lib

/-! ## Runs of the recorder -/

/-- One call on the recorder. -/
inductive Call
  | update (i : Recorder.Input)
  | clear
  | setTargetSnapshot (tc : TargetCoeffs)
  | triggerAlarm (a : AlarmTrigger)
  deriving DecidableEq

def Recorder.call (r : Recorder) : Call → Recorder
  | .update i => r.update i
  | .clear => r.clear
  | .setTargetSnapshot tc => r.setTargetSnapshot tc
  | .triggerAlarm a => r.triggerAlarm a

namespace Recorder

/-- The tick starts a shot out of `DONE` or splits one off a settled shot. -/
def restarts (r : Recorder) (i : Input) : Bool :=
  r.rises i && (r.current.phase = .done ||
    (r.current.phase = .postPump && !(r.sense i).coalesces i.nowMs i.scale))

/-- The tick opens a pump-on interval. -/
def opens (r : Recorder) (i : Input) : Prop :=
  r.current.phase ≠ .running ∧ (r.update i).current.phase = .running

end Recorder

/-- The recorder, the pump level its last update saw, and whether that update restarted a shot. -/
structure Watch where
  recorder : Recorder := {}
  seenOn : Bool := false
  restarted : Bool := false

namespace Watch

def step (w : Watch) : Call → Watch
  | .update i => { recorder := w.recorder.update i, seenOn := i.pumpSignal.isOn,
                   restarted := w.recorder.restarts i }
  | .clear => { w with recorder := w.recorder.clear }
  | .setTargetSnapshot tc => { w with recorder := w.recorder.setTargetSnapshot tc }
  | .triggerAlarm a => { w with recorder := w.recorder.triggerAlarm a }

/-- The caller clears only while the pump was last seen off. -/
def Allowed (w : Watch) (c : Call) : Prop := c = .clear → w.seenOn = false

/-- An update right after a restart still finds the pump on. -/
def HoldsRestart (w : Watch) (c : Call) : Prop :=
  ∀ i, c = .update i → w.restarted = true → i.pumpSignal.isOn = true

theorem exec_recorder (w : Watch) (calls : List Call) :
    (exec step w calls).recorder = exec Recorder.call w.recorder calls := by
  induction calls generalizing w with
  | nil => rfl
  | cons c calls ih =>
    rw [exec_cons, exec_cons, ih]
    cases c <;> rfl

end Watch

/-! ## What the recorder promises -/

/-- After every update the phase is `RUNNING` exactly if the pump is on. -/
def FollowsPump (calls : List Call) : Prop :=
  ∀ pre i post, calls = pre ++ .update i :: post →
    (((exec Recorder.call {} pre).update i).current.phase = .running ↔ i.pumpSignal.isOn = true)

/-- An interval that `i` opens and that the updates of `mid` continue is closed by the first update
that reports the pump off, and counts with its exact length. -/
def ClosesIntervals (calls : List Call) : Prop :=
  ∀ pre i mid j post, calls = pre ++ .update i :: (mid ++ .update j :: post) →
    (exec Recorder.call {} pre).opens i →
    (∀ k, .update k ∈ mid → k.pumpSignal.isOn = true) → j.pumpSignal.isOn = false →
    let opened := (exec Recorder.call {} pre).update i
    let closed := (exec Recorder.call opened mid).update j
    closed.current.phase = .postPump ∧
      closed.current.totalPumpOnMs = opened.current.totalPumpOnMs + (j.nowMs - i.nowMs)

/-! ## One call -/

namespace Recorder

/-- A tick with the pump on leaves a running shot to itself. -/
theorem update_running_on {r : Recorder} {i : Input} (h : r.current.phase = .running)
    (hon : i.pumpSignal.isOn = true) : r.update i = r.sense i := by
  rw [update_of_running h, if_neg (by simp [falls, hon])]

theorem setTargetSnapshot_cases (r : Recorder) (tc : TargetCoeffs) :
    r.setTargetSnapshot tc =
        { r with current := { r.current with hasTargetSnapshot := true, target := tc } } ∨
      r.setTargetSnapshot tc = r := by
  unfold setTargetSnapshot
  by_cases h : r.current.inPumpWindow
  · left; rw [if_pos h]
  · right; rw [if_neg h]

theorem triggerAlarm_cases (r : Recorder) (a : AlarmTrigger) :
    r.current.phase = .running ∧ r.triggerAlarm a =
        { r with current := appendEvent { r.current with alarm := a } a.tMs .alarmTriggered } ∨
      r.triggerAlarm a = r := by
  unfold triggerAlarm
  by_cases h : r.current.alarm.tMs ≠ 0 ∨ r.current.phase ≠ .running
  · right; rw [if_pos h]
  · left
    rw [if_neg h]
    exact ⟨by tauto, rfl⟩

/-- The part of the recorder that the pump edges depend on. -/
structure SameEdge (r s : Recorder) : Prop where
  phase : s.current.phase = r.current.phase
  totalPumpOnMs : s.current.totalPumpOnMs = r.current.totalPumpOnMs
  lastPumpOn : s.lastPumpOn = r.lastPumpOn
  pumpOnIntervalStartMs : s.pumpOnIntervalStartMs = r.pumpOnIntervalStartMs

theorem sameEdge_setTargetSnapshot (r : Recorder) (tc : TargetCoeffs) :
    SameEdge r (r.setTargetSnapshot tc) := by
  obtain h | h := r.setTargetSnapshot_cases tc <;> rw [h] <;> exact ⟨rfl, rfl, rfl, rfl⟩

theorem sameEdge_triggerAlarm (r : Recorder) (a : AlarmTrigger) :
    SameEdge r (r.triggerAlarm a) := by
  obtain ⟨-, h⟩ | h := r.triggerAlarm_cases a
  · have hh := header_appendEvent { r.current with alarm := a } a.tMs .alarmTriggered
    rw [h]
    refine ⟨?_, ?_, rfl, rfl⟩
    · exact (field_eq_of_header Extraction.phase (fun _ => rfl) hh).trans rfl
    · exact (field_eq_of_header Extraction.totalPumpOnMs (fun _ => rfl) hh).trans rfl
  · rw [h]; exact ⟨rfl, rfl, rfl, rfl⟩

end Recorder

/-! ## The invariant -/

/-- A phase of the state diagram. -/
def Phase.Named (p : Phase) : Prop := p = .idle ∨ p = .running ∨ p = .postPump ∨ p = .done

/-- The recorder is running exactly while the pump was last seen on, and remembers that level unless
its last update restarted a shot. -/
structure FollowsSeen (w : Watch) : Prop where
  named : w.recorder.current.phase.Named
  running : w.recorder.current.phase = .running ↔ w.seenOn = true
  memory : w.restarted = false → w.recorder.lastPumpOn = w.seenOn

/-- A restart leaves the shot running and the detector's memory off. -/
def Forgets (w : Watch) : Prop :=
  w.restarted = true →
    w.recorder.current.phase = .running ∧ w.recorder.lastPumpOn = false ∧ w.seenOn = true

namespace Recorder

theorem rises_on {r : Recorder} {i : Input} (h : r.rises i = true) : i.pumpSignal.isOn = true := by
  unfold rises at h; simp only [Bool.and_eq_true] at h; exact h.1

/-- A restart runs the new shot without remembering that the pump is on. -/
theorem update_of_restarts {r : Recorder} {i : Input} (h : r.restarts i = true) :
    (r.update i).current.phase = .running ∧ (r.update i).lastPumpOn = false := by
  unfold restarts at h
  simp only [Bool.and_eq_true, Bool.or_eq_true, decide_eq_true_eq, Bool.not_eq_true'] at h
  obtain ⟨hrise, hdone | ⟨hpost, hsplit⟩⟩ := h
  · rw [update_of_done hdone, if_pos hrise]; exact ⟨rfl, rfl⟩
  · rw [update_of_postPump hpost, if_pos hrise, if_neg (by simp [hsplit])]; exact ⟨rfl, rfl⟩

/-- With the pump off so far, a tick starts a shot exactly if it sees the pump on. -/
theorem update_from_off {r : Recorder} {i : Input} (hn : r.current.phase.Named)
    (hr : r.current.phase ≠ .running) (hoff : r.lastPumpOn = false) :
    (r.update i).current.phase.Named ∧
      ((r.update i).current.phase = .running ↔ i.pumpSignal.isOn = true) ∧
      (r.restarts i = false → (r.update i).lastPumpOn = i.pumpSignal.isOn) := by
  have hrise : r.rises i = i.pumpSignal.isOn := by unfold rises; simp [hoff]
  rcases hn with h | h | h | h
  · rw [update_of_idle h, hrise]
    by_cases hon : i.pumpSignal.isOn = true
    · rw [if_pos hon]; exact ⟨Or.inr (Or.inl rfl), by simp [hon], fun _ => rfl⟩
    · rw [if_neg hon]; exact ⟨by simp [Phase.Named, h], by simp [h, hon], fun _ => rfl⟩
  · exact absurd h hr
  · rw [update_of_postPump h]
    by_cases hon : i.pumpSignal.isOn = true
    · rw [if_pos (hrise.trans hon)]
      by_cases hc : (r.sense i).coalesces i.nowMs i.scale = true
      · rw [if_pos hc]
        exact ⟨Or.inr (Or.inl rfl), by simp [hon], fun _ => rfl⟩
      · rw [if_neg hc]
        refine ⟨Or.inr (Or.inl rfl), by simp [split, hon], fun hrestart => ?_⟩
        exact absurd hrestart (by simp [restarts, hrise, hon, h, hc])
    · rw [if_neg (by rw [hrise]; exact hon)]
      cases (r.sense i).endOfShot i.nowMs with
      | none => exact ⟨by simp [Phase.Named, h], by simp [h, hon], fun _ => rfl⟩
      | some cause => exact ⟨by simp [Phase.Named], by simp [hon], fun _ => rfl⟩
  · rw [update_of_done h, hrise]
    by_cases hon : i.pumpSignal.isOn = true
    · rw [if_pos hon]
      refine ⟨Or.inr (Or.inl rfl), by simp [hon], fun hrestart => ?_⟩
      exact absurd hrestart (by simp [restarts, hrise, hon, h])
    · rw [if_neg hon]; exact ⟨by simp [Phase.Named, h], by simp [h, hon], fun _ => rfl⟩

/-- A tick ends a running shot's interval exactly if it sees the pump off. -/
theorem update_from_on {r : Recorder} {i : Input} (hr : r.current.phase = .running)
    (hmem : i.pumpSignal.isOn = false → r.lastPumpOn = true) :
    (r.update i).current.phase.Named ∧
      ((r.update i).current.phase = .running ↔ i.pumpSignal.isOn = true) ∧
      (r.update i).lastPumpOn = i.pumpSignal.isOn := by
  by_cases hon : i.pumpSignal.isOn = true
  · rw [update_running_on hr hon]; exact ⟨by simp [Phase.Named, hr], by simp [hr, hon], rfl⟩
  · have hfall : r.falls i = true := by
      unfold falls
      simp only [Bool.not_eq_true] at hon
      simp [hon, hmem hon]
    rw [update_of_running hr, if_pos hfall]
    exact ⟨by simp [Phase.Named], by simp [hon], rfl⟩

end Recorder

theorem followsSeen_of_sameEdge {w : Watch} {s : Recorder} (h : FollowsSeen w)
    (hs : Recorder.SameEdge w.recorder s) : FollowsSeen { w with recorder := s } where
  named := by have hn := h.named; rw [← hs.phase] at hn; exact hn
  running := by have hr := h.running; rw [← hs.phase] at hr; exact hr
  memory := fun hr => hs.lastPumpOn.trans (h.memory hr)

theorem forgets_of_sameEdge {w : Watch} {s : Recorder} (h : Forgets w)
    (hs : Recorder.SameEdge w.recorder s) : Forgets { w with recorder := s } := fun hr =>
  ⟨hs.phase.trans (h hr).1, hs.lastPumpOn.trans (h hr).2.1, (h hr).2.2⟩

theorem forgets_step {w : Watch} {c : Call} (h : Forgets w) (ha : w.Allowed c) :
    Forgets (w.step c) := by
  cases c with
  | update i =>
    intro hr
    have hr' : w.recorder.restarts i = true := hr
    refine ⟨(Recorder.update_of_restarts hr').1, (Recorder.update_of_restarts hr').2, ?_⟩
    unfold Recorder.restarts at hr'
    exact Recorder.rises_on (Bool.and_eq_true_iff.1 hr').1
  | clear =>
    intro hr
    have hoff := ha rfl
    rw [(h hr).2.2] at hoff
    exact absurd hoff (by decide)
  | setTargetSnapshot tc => exact forgets_of_sameEdge h (w.recorder.sameEdge_setTargetSnapshot tc)
  | triggerAlarm a => exact forgets_of_sameEdge h (w.recorder.sameEdge_triggerAlarm a)

/-- **Step lemma.** A call that does not answer a restart with `off` keeps the recorder in step with
the pump. -/
theorem followsSeen_step {w : Watch} {c : Call} (h : FollowsSeen w) (hf : Forgets w)
    (ha : w.Allowed c) (hr : w.HoldsRestart c) : FollowsSeen (w.step c) := by
  cases c with
  | update i =>
    by_cases hrun : w.recorder.current.phase = .running
    · obtain ⟨h₁, h₂, h₃⟩ := Recorder.update_from_on (i := i) hrun (by
        intro hoff
        have hres : w.restarted = false := by
          by_contra hres
          rw [hr i rfl (by simpa using hres)] at hoff
          exact absurd hoff (by decide)
        rw [h.memory hres]
        exact h.running.1 hrun)
      exact ⟨h₁, h₂, fun _ => h₃⟩
    · have hseen : w.seenOn = false := by
        by_contra hseen
        exact hrun (h.running.2 (by simpa using hseen))
      have hres : w.restarted = false := by
        by_contra hres
        exact hrun (hf (by simpa using hres)).1
      obtain ⟨h₁, h₂, h₃⟩ := Recorder.update_from_off (i := i) h.named hrun
        (by rw [h.memory hres, hseen])
      exact ⟨h₁, h₂, h₃⟩
  | clear =>
    have hoff := ha rfl
    show FollowsSeen { w with recorder := w.recorder.clear }
    rw [Recorder.clear_eq]
    by_cases hi : w.recorder.current.phase = .idle
    · rw [if_pos hi]; exact h
    · rw [if_neg hi]
      refine ⟨Or.inl rfl, ?_, fun _ => ?_⟩
      · show Phase.idle = Phase.running ↔ w.seenOn = true
        simp [hoff]
      · show false = w.seenOn
        rw [hoff]
  | setTargetSnapshot tc =>
    exact followsSeen_of_sameEdge h (w.recorder.sameEdge_setTargetSnapshot tc)
  | triggerAlarm a => exact followsSeen_of_sameEdge h (w.recorder.sameEdge_triggerAlarm a)

/-! ## Whole runs -/

/-- The recorder was cleared only with the pump seen off. -/
def ClearedOff (calls : List Call) : Prop := Along Watch.step Watch.Allowed {} calls

/-- No restart was answered by `off` at once. -/
def RestartsHold (calls : List Call) : Prop := Along Watch.step Watch.HoldsRestart {} calls

theorem followsSeen_init : FollowsSeen {} where
  named := Or.inl rfl
  running := by decide
  memory := fun _ => rfl

theorem forgets_exec {calls : List Call} (h : ClearedOff calls) :
    Forgets (exec Watch.step {} calls) :=
  Along.exec_invariant Forgets (fun _ _ hf ha => forgets_step hf ha) h
    (fun hr => absurd hr (by decide))

/-- **Run lemma.** While no restart is answered by `off`, the recorder stays in step with the
pump. -/
theorem followsSeen_exec {calls : List Call} (ha : ClearedOff calls) (hr : RestartsHold calls) :
    FollowsSeen (exec Watch.step {} calls) ∧ Forgets (exec Watch.step {} calls) := by
  refine Along.exec_invariant (fun w => FollowsSeen w ∧ Forgets w) ?_ (ha.and hr)
    ⟨followsSeen_init, fun hr => absurd hr (by decide)⟩
  rintro w c ⟨hs, hf⟩ ⟨ha, hr⟩
  exact ⟨followsSeen_step hs hf ha hr, forgets_step hf ha⟩

/-- The recorder is inside an interval that began at `startMs`, with `totalMs` counted before. -/
structure InInterval (startMs totalMs : U32) (w : Watch) : Prop where
  phase : w.recorder.current.phase = .running
  seenOn : w.seenOn = true
  start : w.recorder.pumpOnIntervalStartMs = startMs
  total : w.recorder.current.totalPumpOnMs = totalMs

theorem inInterval_of_sameEdge {startMs totalMs : U32} {w : Watch} {s : Recorder}
    (h : InInterval startMs totalMs w) (hs : Recorder.SameEdge w.recorder s) :
    InInterval startMs totalMs { w with recorder := s } :=
  ⟨hs.phase.trans h.phase, h.seenOn, hs.pumpOnIntervalStartMs.trans h.start,
    hs.totalPumpOnMs.trans h.total⟩

theorem inInterval_step {startMs totalMs : U32} {w : Watch} {c : Call}
    (h : InInterval startMs totalMs w) (ha : w.Allowed c)
    (hon : ∀ k, c = .update k → k.pumpSignal.isOn = true) :
    InInterval startMs totalMs (w.step c) := by
  cases c with
  | update i =>
    have hi := hon i rfl
    refine ⟨?_, hi, ?_, ?_⟩
    · show (w.recorder.update i).current.phase = .running
      rw [Recorder.update_running_on h.phase hi, Recorder.sense_phase, h.phase]
    · show (w.recorder.update i).pumpOnIntervalStartMs = startMs
      rw [Recorder.update_running_on h.phase hi, Recorder.sense_pumpOnIntervalStartMs, h.start]
    · show (w.recorder.update i).current.totalPumpOnMs = totalMs
      rw [Recorder.update_running_on h.phase hi, Recorder.sense_totalPumpOnMs, h.total]
  | clear =>
    have hoff := ha rfl
    rw [h.seenOn] at hoff
    exact absurd hoff (by decide)
  | setTargetSnapshot tc =>
    exact inInterval_of_sameEdge h (w.recorder.sameEdge_setTargetSnapshot tc)
  | triggerAlarm a => exact inInterval_of_sameEdge h (w.recorder.sameEdge_triggerAlarm a)

/-- An opening tick starts its interval at its own time. -/
theorem Recorder.opens_intervalStart {r : Recorder} {i : Recorder.Input}
    (hn : r.current.phase.Named) (h : r.opens i) : (r.update i).pumpOnIntervalStartMs = i.nowMs := by
  obtain ⟨hr, hrun⟩ := h
  rcases hn with hp | hp | hp | hp
  · rw [update_of_idle hp] at hrun ⊢
    by_cases hrise : r.rises i = true
    · rw [if_pos hrise]; rfl
    · rw [if_neg hrise, sense_phase, hp] at hrun
      exact absurd hrun (by decide)
  · exact absurd hp hr
  · rw [update_of_postPump hp] at hrun ⊢
    by_cases hrise : r.rises i = true
    · rw [if_pos hrise]
      by_cases hc : (r.sense i).coalesces i.nowMs i.scale = true
      · rw [if_pos hc]; rfl
      · rw [if_neg hc]; rfl
    · rw [if_neg hrise] at hrun
      cases he : (r.sense i).endOfShot i.nowMs with
      | none =>
        simp only [he, sense_phase, hp] at hrun
        exact absurd hrun (by decide)
      | some cause =>
        simp only [he, enterDone_phase] at hrun
        exact absurd hrun (by decide)
  · rw [update_of_done hp] at hrun ⊢
    by_cases hrise : r.rises i = true
    · rw [if_pos hrise]; rfl
    · rw [if_neg hrise, sense_phase, hp] at hrun
      exact absurd hrun (by decide)

theorem followsPump_of_restartsHold {calls : List Call} (ha : ClearedOff calls)
    (hr : RestartsHold calls) : FollowsPump calls := by
  rintro pre i post rfl
  have hsplit : pre ++ Call.update i :: post = (pre ++ [.update i]) ++ post := by simp
  unfold ClearedOff at ha
  unfold RestartsHold at hr
  rw [hsplit] at ha hr
  obtain ⟨hs, -⟩ := followsSeen_exec (along_append.1 ha).1 (along_append.1 hr).1
  have hrun := hs.running
  rw [exec_append, exec_cons, exec_nil] at hrun
  rw [← Watch.exec_recorder {} pre]
  exact hrun

theorem closesIntervals_of_restartsHold {calls : List Call} (ha : ClearedOff calls)
    (hr : RestartsHold calls) : ClosesIntervals calls := by
  rintro pre i mid j post rfl hopen hmid hoff
  unfold ClearedOff at ha
  unfold RestartsHold at hr
  rw [along_append] at ha hr
  obtain ⟨hs, hf⟩ := followsSeen_exec ha.1 hr.1
  rw [← Watch.exec_recorder {} pre] at hopen ⊢
  generalize exec Watch.step {} pre = w at *
  obtain ⟨-, ha⟩ := ha
  obtain ⟨-, hr⟩ := hr
  rw [along_cons, along_append, along_cons] at ha hr
  -- the interval is open after `i`
  have hs₁ : FollowsSeen (w.step (.update i)) := followsSeen_step hs hf ha.1 hr.1
  have hf₁ : Forgets (w.step (.update i)) := forgets_step hf ha.1
  have hin : InInterval i.nowMs (w.recorder.update i).current.totalPumpOnMs
      (w.step (.update i)) :=
    ⟨hopen.2, hs₁.running.1 hopen.2, w.recorder.opens_intervalStart hs.named hopen, rfl⟩
  generalize hw₁ : w.step (.update i) = w₁ at *
  have hw₁' : w.recorder.update i = w₁.recorder := by rw [← hw₁]; rfl
  -- and still open after `mid`
  have hon : Along Watch.step (fun _ c => ∀ k, c = .update k → k.pumpSignal.isOn = true) w₁ mid := by
    rw [along_iff_forall_split]
    rintro p c q rfl k rfl
    exact hmid k (by simp)
  have hend := Along.exec_invariant
    (fun v => (FollowsSeen v ∧ Forgets v) ∧
      InInterval i.nowMs (w.recorder.update i).current.totalPumpOnMs v)
    (fun v c hv hc => ⟨⟨followsSeen_step hv.1.1 hv.1.2 hc.1.1 hc.1.2, forgets_step hv.1.2 hc.1.1⟩,
      inInterval_step hv.2 hc.1.1 hc.2⟩)
    ((ha.2.1.and hr.2.1).and hon) ⟨⟨hs₁, hf₁⟩, hin⟩
  have hexec := Watch.exec_recorder w₁ mid
  have hj := hr.2.2.1
  generalize exec Watch.step w₁ mid = v at *
  obtain ⟨⟨hsv, -⟩, hiv⟩ := hend
  -- so the detector remembers the pump on, and `j` is a falling edge
  have hres : v.restarted = false := by
    by_contra hres
    have := hj j rfl (by simpa using hres)
    rw [hoff] at this
    exact absurd this (by decide)
  have hfall : v.recorder.falls j = true := by
    unfold Recorder.falls
    rw [hsv.memory hres, hiv.seenOn, hoff]
    rfl
  intro opened closed
  have hclosed : closed = (v.recorder.sense j).enterPostPump j.nowMs j.pumpSignal := by
    show (exec Recorder.call (w.recorder.update i) mid).update j = _
    rw [hw₁', ← hexec, Recorder.update_of_running hiv.phase, if_pos hfall]
  rw [hclosed]
  refine ⟨rfl, ?_⟩
  have htotal : ∀ (r : Recorder) (now : U32) o, (r.enterPostPump now o).current.totalPumpOnMs =
      r.current.totalPumpOnMs + (now - r.pumpOnIntervalStartMs) := by
    intro r now o
    exact field_eq_of_header Extraction.totalPumpOnMs (fun _ => rfl)
      (header_appendPumpOffConfirmedEvent _ now o)
  rw [htotal, Recorder.sense_totalPumpOnMs, Recorder.sense_pumpOnIntervalStartMs, hiv.start,
    hiv.total]

/-- An `off` right after a restart leaves the shot running. -/
theorem restartsHold_of_followsPump {calls : List Call} (ha : ClearedOff calls)
    (h : FollowsPump calls) : RestartsHold calls := by
  unfold RestartsHold
  rw [along_iff_forall_split]
  rintro pre c post rfl i rfl hres
  by_contra hoff
  unfold ClearedOff at ha
  rw [along_append] at ha
  obtain ⟨hrun, hmem, -⟩ := forgets_exec ha.1 hres
  have hp := h pre i post rfl
  rw [← Watch.exec_recorder {} pre, Recorder.update_of_running hrun,
    if_neg (by unfold Recorder.falls; rw [hmem, Bool.and_false]; decide), Recorder.sense_phase] at hp
  exact hoff (hp.1 hrun)

/-- **The recorder follows the pump** and closes every interval it opens, exactly on the runs in
which no tick that restarts a shot is followed by an update that finds the pump off. -/
theorem followsPump_iff_restartsHold (calls : List Call) (ha : ClearedOff calls) :
    FollowsPump calls ∧ ClosesIntervals calls ↔ RestartsHold calls := by
  constructor
  · rintro ⟨h, -⟩
    exact restartsHold_of_followsPump ha h
  · intro hr
    exact ⟨followsPump_of_restartsHold ha hr, closesIntervals_of_restartsHold ha hr⟩

/-- A shot without a scale, and a new one out of `DONE` that only one tick sees running. -/
def briefRestart : List Call :=
  [.update { nowMs := 1000, pumpSignal := { state := .on } }, .update { nowMs := 3000 },
   .update { nowMs := 9000 }, .update { nowMs := 10000, pumpSignal := { state := .on } },
   .update { nowMs := 10500 }]

theorem followsPump_iff_restartsHold_briefRestart :
    FollowsPump (briefRestart.take 4) ∧ ClosesIntervals (briefRestart.take 4) ↔
      RestartsHold (briefRestart.take 4) :=
  followsPump_iff_restartsHold _ (by
    unfold ClearedOff briefRestart
    simp [Watch.Allowed])

/-- The falling edge of the new shot is lost. -/
theorem not_followsPump_briefRestart :
    ClearedOff briefRestart ∧ ¬ FollowsPump briefRestart := by
  constructor
  · unfold ClearedOff briefRestart
    simp [Watch.Allowed]
  · intro h
    have hoff := h (briefRestart.take 4) { nowMs := 10500 } [] rfl
    have hrun : ((exec Recorder.call {} (briefRestart.take 4)).update
        { nowMs := 10500 }).current.phase = .running := by decide
    exact absurd (hoff.1 hrun) (by decide)

end Pumpbug
