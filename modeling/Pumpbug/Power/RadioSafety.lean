import Pumpbug.Lib.Run
import Pumpbug.Power.ScaleRadio

/-!
# The radio machine never pulls the controller from under a live service

Requests come out of `update` alone, each from one state and under one observation.  A failure parks
the machine until activity or a policy change earns a retry, or the controller is seen where the
policy wants it.
-/

namespace Pumpbug.Power.ScaleRadio

open Lib

namespace Machine

/-! ## One call -/

/-- A pending transition belongs to a stage that waits for it. -/
def Coherent (m : Machine) : Prop :=
  m.controllerTransition.pending = true → m.state = .stopping ∨ m.state = .starting

/-- Failed, with no retry earned. -/
def Parked (m : Machine) : Prop := m.state = .failed ∧ m.activityPending = false

/-- Reporting a failure parks the machine. -/
def ReportsFailure (r : Machine × Decision) : Prop :=
  r.2.event.kind = .failure → r.2.action = .none ∧ r.1.Parked

/-- What a call that issues no request leaves behind. -/
structure Harmless (r : Machine × Decision) : Prop where
  quiet : r.2.action = .none
  coherent : r.1.Coherent
  failure : ReportsFailure r

theorem harmless_fail (m : Machine) (area : FailureArea) (reason : String) :
    Harmless (m.fail area reason) :=
  ⟨rfl, fun h => absurd h Bool.false_ne_true, fun _ => ⟨rfl, rfl, rfl⟩⟩

theorem harmless_settle {m : Machine} {d : Decision} (hd : d.action = .none)
    (hk : d.event.kind ≠ .failure) (hp : m.controllerTransition.pending = false) :
    Harmless (m, d) := by
  refine ⟨hd, fun h => ?_, fun h => absurd h hk⟩
  rw [show (m, d).1 = m from rfl, hp] at h
  exact absurd h Bool.false_ne_true

theorem harmless_awaitTransition (m : Machine) (target : TransitionTarget) (nowMs : U32)
    {state : State} {d : Decision} (area : FailureArea) (busy : String)
    (hstate : state = .stopping ∨ state = .starting) (hd : d.action = .none)
    (hk : d.event.kind ≠ .failure) :
    Harmless (m.awaitTransition target nowMs state d area busy) := by
  unfold awaitTransition
  cases m.controllerTransition.begin target nowMs with
  | none => exact harmless_fail m area busy
  | some t => exact ⟨hd, fun _ => hstate, fun h => absurd h hk⟩

theorem harmless_advanceTransition {m : Machine} (i : Inputs)
    (hstate : m.state = .stopping ∨ m.state = .starting) : Harmless (m.advanceTransition i) := by
  unfold advanceTransition
  dsimp only
  cases (m.controllerTransition.update i.controller i.nowMs).result with
  | succeeded =>
    dsimp only
    split_ifs
    · exact harmless_settle rfl nofun rfl
    · exact harmless_settle rfl nofun rfl
  | failed => exact harmless_fail _ _ _
  | timedOut => exact harmless_fail _ _ _
  | inactive => exact ⟨rfl, fun _ => hstate, nofun⟩
  | pending => exact ⟨rfl, fun _ => hstate, nofun⟩

/-! ## Where requests come from -/

/-- The one way to a stop request. -/
structure AsksToStop (m : Machine) (i : Inputs) (r : Machine × Decision) : Prop where
  suspending : m.state = .suspending
  service : i.service = .off
  controller : i.controller = .running
  target : radioTarget m.policy i.conditions = false
  result : r = ({ m with state := .stopping }, .ofAction .stopController)

/-- The one way to a start request. -/
structure AsksToStart (m : Machine) (i : Inputs) (r : Machine × Decision) : Prop where
  stopped : m.state = .controllerStopped
  controller : i.controller ≠ .running ∧ i.controller ≠ .starting ∧ i.controller ≠ .failed
  target : radioTarget m.policy i.conditions = true
  result : r = ({ m with activityPending := false, state := .starting },
    { action := .startController, event := { kind := .wakeRequested } })

theorem updateSuspending_cases {m : Machine} (i : Inputs) (hm : m.Coherent)
    (hs : m.state = .suspending) :
    Harmless (m.updateSuspending i (radioTarget m.policy i.conditions)) ∨
      AsksToStop m i (m.updateSuspending i (radioTarget m.policy i.conditions)) := by
  have hp : m.controllerTransition.pending = false := by
    by_contra h
    rcases hm (by simpa using h) with h | h <;> simp [hs] at h
  unfold updateSuspending
  by_cases ht : radioTarget m.policy i.conditions = true
  · rw [if_pos ht]
    exact Or.inl (harmless_settle rfl nofun hp)
  · rw [if_neg ht]
    by_cases hoff : i.service = .off
    · rw [if_pos hoff]
      unfold beginControllerStop
      cases hc : i.controller with
      | stopped => exact Or.inl (harmless_settle rfl nofun hp)
      | failed => exact Or.inl (harmless_fail _ _ _)
      | starting => exact Or.inl (harmless_fail _ _ _)
      | running => exact Or.inr ⟨hs, hoff, hc, by simpa using ht, rfl⟩
      | stopping =>
        exact Or.inl (harmless_awaitTransition _ _ _ _ _ (Or.inl rfl) rfl nofun)
    · rw [if_neg hoff]
      left
      split_ifs
      · exact harmless_fail _ _ _
      · exact harmless_settle rfl nofun hp

theorem updateControllerStopped_cases {m : Machine} (i : Inputs) (hm : m.Coherent)
    (hs : m.state = .controllerStopped) :
    Harmless (m.updateControllerStopped i (radioTarget m.policy i.conditions)) ∨
      AsksToStart m i (m.updateControllerStopped i (radioTarget m.policy i.conditions)) := by
  have hp : m.controllerTransition.pending = false := by
    by_contra h
    rcases hm (by simpa using h) with h | h <;> simp [hs] at h
  unfold updateControllerStopped
  by_cases hr : i.controller = .running
  · rw [if_pos hr]
    exact Or.inl (harmless_settle rfl nofun hp)
  · rw [if_neg hr]
    by_cases ht : radioTarget m.policy i.conditions = true
    · rw [if_neg (by rw [ht]; decide)]
      unfold beginControllerStart
      cases hc : i.controller with
      | running => exact absurd hc hr
      | failed => exact Or.inl (harmless_fail _ _ _)
      | starting =>
        exact Or.inl (harmless_awaitTransition _ _ _ _ _ (Or.inr rfl) rfl nofun)
      | stopped =>
        exact Or.inr ⟨hs, by rw [hc]; exact ⟨nofun, nofun, nofun⟩, ht, rfl⟩
      | stopping =>
        exact Or.inr ⟨hs, by rw [hc]; exact ⟨nofun, nofun, nofun⟩, ht, rfl⟩
    · rw [if_pos (by simpa using ht)]
      exact Or.inl (harmless_settle rfl nofun hp)

/-- **What an update can do**: nothing under external control, otherwise something harmless or one
of the two requests. -/
theorem update_cases {m : Machine} (i : Inputs) (hm : m.Coherent) :
    Harmless (m.update i) ∨
      (m.policy ≠ .externalControl ∧
        (AsksToStop m i (m.update i) ∨ AsksToStart m i (m.update i))) := by
  unfold update
  by_cases hx : m.policy = .externalControl
  · rw [if_pos hx]
    exact Or.inl ⟨rfl, hm, nofun⟩
  · rw [if_neg hx]
    dsimp only
    cases hs : m.state with
    | monitoring =>
      left
      have hp : m.controllerTransition.pending = false := by
        by_contra h
        rcases hm (by simpa using h) with h | h <;> simp [hs] at h
      dsimp only
      unfold updateMonitoring
      split_ifs
      · exact harmless_settle rfl nofun hp
      · exact harmless_fail _ _ _
      · exact harmless_settle rfl nofun hp
      · exact harmless_settle rfl nofun hp
    | suspending =>
      rcases updateSuspending_cases i hm hs with h | h
      · exact Or.inl h
      · exact Or.inr ⟨hx, Or.inl h⟩
    | controllerStopped =>
      rcases updateControllerStopped_cases i hm hs with h | h
      · exact Or.inl h
      · exact Or.inr ⟨hx, Or.inr h⟩
    | stopping =>
      left
      dsimp only
      split_ifs
      · exact harmless_advanceTransition i (Or.inl hs)
      · exact ⟨rfl, hm, nofun⟩
    | starting =>
      left
      dsimp only
      split_ifs
      · exact harmless_advanceTransition i (Or.inr hs)
      · exact ⟨rfl, hm, nofun⟩
    | failed =>
      left
      have hp : m.controllerTransition.pending = false := by
        by_contra h
        rcases hm (by simpa using h) with h | h <;> simp [hs] at h
      dsimp only
      unfold updateFailed
      dsimp only
      split_ifs
      all_goals exact harmless_settle rfl nofun hp

theorem harmless_resolve {m : Machine} (resolved : Action) (accepted : Bool) (i : Inputs)
    (hp : m.controllerTransition.pending = false) :
    Harmless (m.resolve resolved accepted i) := by
  unfold resolve
  cases resolved with
  | none => exact harmless_settle rfl nofun hp
  | stopController =>
    dsimp only
    split_ifs
    · exact harmless_settle rfl nofun hp
    · exact harmless_fail _ _ _
    · exact harmless_fail _ _ _
    · exact harmless_awaitTransition _ _ _ _ _ (Or.inl rfl) rfl nofun
  | startController =>
    dsimp only
    split_ifs
    · exact harmless_settle rfl nofun hp
    · exact harmless_fail _ _ _
    · exact harmless_fail _ _ _
    · exact harmless_awaitTransition _ _ _ _ _ (Or.inr rfl) rfl nofun

/-! ## The policy stays -/

@[simp] theorem fail_policy (m : Machine) (area : FailureArea) (reason : String) :
    (m.fail area reason).1.policy = m.policy := rfl

@[simp] theorem awaitTransition_policy (m : Machine) (target : TransitionTarget) (nowMs : U32)
    (state : State) (d : Decision) (area : FailureArea) (busy : String) :
    (m.awaitTransition target nowMs state d area busy).1.policy = m.policy := by
  unfold awaitTransition
  cases m.controllerTransition.begin target nowMs <;> rfl

theorem update_policy (m : Machine) (i : Inputs) : (m.update i).1.policy = m.policy := by
  unfold update
  split
  · rfl
  · dsimp only
    cases m.state with
    | monitoring =>
      dsimp only
      unfold updateMonitoring
      split_ifs <;> rfl
    | suspending =>
      dsimp only
      unfold updateSuspending beginControllerStop
      cases i.controller <;> split_ifs <;> simp
    | controllerStopped =>
      dsimp only
      unfold updateControllerStopped beginControllerStart
      cases i.controller <;> split_ifs <;> simp
    | failed =>
      dsimp only
      unfold updateFailed
      dsimp only
      split_ifs <;> rfl
    | stopping | starting =>
      dsimp only
      unfold advanceTransition
      dsimp only
      cases (m.controllerTransition.update i.controller i.nowMs).result <;> split_ifs <;> rfl

theorem resolve_policy (m : Machine) (resolved : Action) (accepted : Bool) (i : Inputs) :
    (m.resolve resolved accepted i).1.policy = m.policy := by
  unfold resolve
  cases resolved <;> dsimp only <;> split_ifs <;> simp

/-! ## One tick of the power manager -/

theorem tick_of_harmless {m : Machine} {i : Inputs} (answers : ℕ → Action → Answer)
    (h : Harmless (m.update i)) : m.tick i answers = ((m.update i).1, [(m.update i).2]) := by
  unfold tick kDecisionCycleLimit applyRadioDecision
  rw [h.quiet]

/-- The answer to the request that an update issues. -/
def firstAnswer (m : Machine) (i : Inputs) (answers : ℕ → Action → Answer) : Machine × Decision :=
  (m.update i).1.resolve (m.update i).2.action (answers 3 (m.update i).2.action).accepted
    (answers 3 (m.update i).2.action).inputs

theorem tick_of_request {m : Machine} {i : Inputs} {answers : ℕ → Action → Answer}
    (h : (m.update i).2.action ≠ .none) (hr : (m.firstAnswer i answers).2.action = .none) :
    m.tick i answers =
      ((m.firstAnswer i answers).1, [(m.update i).2, (m.firstAnswer i answers).2]) := by
  unfold firstAnswer at hr ⊢
  unfold tick kDecisionCycleLimit applyRadioDecision
  cases ha : (m.update i).2.action with
  | none => exact absurd ha h
  | stopController =>
    rw [ha] at hr
    dsimp only
    unfold applyRadioDecision
    rw [hr]
  | startController =>
    rw [ha] at hr
    dsimp only
    unfold applyRadioDecision
    rw [hr]

/-- What an update that issues a request does, and the answer to it. -/
structure Requests (m : Machine) (i : Inputs) (answers : ℕ → Action → Answer) : Prop where
  policy : m.policy ≠ .externalControl
  asks : AsksToStop m i (m.update i) ∨ AsksToStart m i (m.update i)
  idle : m.controllerTransition.pending = false
  answer : Harmless (m.firstAnswer i answers)
  tick : m.tick i answers =
    ((m.firstAnswer i answers).1, [(m.update i).2, (m.firstAnswer i answers).2])

theorem not_pending_of_state {m : Machine} (hm : m.Coherent) (h₁ : m.state ≠ .stopping)
    (h₂ : m.state ≠ .starting) : m.controllerTransition.pending = false := by
  by_contra h
  exact (hm (by simpa using h)).elim h₁ h₂

/-- **A tick of the power manager** performs one harmless decision, or a request and its answer. -/
theorem tick_cases {m : Machine} (i : Inputs) (answers : ℕ → Action → Answer) (hm : m.Coherent) :
    (Harmless (m.update i) ∧ m.tick i answers = ((m.update i).1, [(m.update i).2])) ∨
      Requests m i answers := by
  rcases update_cases i hm with h | ⟨hx, h⟩
  · exact Or.inl ⟨h, tick_of_harmless answers h⟩
  · right
    have hidle : m.controllerTransition.pending = false := by
      rcases h with h | h
      · exact not_pending_of_state hm (by rw [h.suspending]; decide) (by rw [h.suspending]; decide)
      · exact not_pending_of_state hm (by rw [h.stopped]; decide) (by rw [h.stopped]; decide)
    have hafter : (m.update i).1.controllerTransition = m.controllerTransition := by
      rcases h with h | h
      · rw [h.result]
      · rw [h.result]
    have hanswer : Harmless (m.firstAnswer i answers) :=
      harmless_resolve _ _ _ (by rw [hafter]; exact hidle)
    have hne : (m.update i).2.action ≠ .none := by
      rcases h with h | h
      · rw [h.result]
        exact nofun
      · rw [h.result]
        exact nofun
    exact ⟨hx, h, hidle, hanswer, tick_of_request hne hanswer.quiet⟩

theorem coherent_tick {m : Machine} (i : Inputs) (answers : ℕ → Action → Answer)
    (hm : m.Coherent) : (m.tick i answers).1.Coherent := by
  rcases tick_cases i answers hm with ⟨h, ht⟩ | h
  · rw [ht]
    exact h.coherent
  · rw [h.tick]
    exact h.answer.coherent

theorem tick_policy {m : Machine} (i : Inputs) (answers : ℕ → Action → Answer) (hm : m.Coherent) :
    (m.tick i answers).1.policy = m.policy := by
  rcases tick_cases i answers hm with ⟨-, ht⟩ | h
  · rw [ht]
    exact update_policy m i
  · rw [h.tick]
    exact (resolve_policy _ _ _ _).trans (update_policy m i)

/-- A tick that reports a failure parks the machine. -/
theorem parked_of_failure {m : Machine} {i : Inputs} {answers : ℕ → Action → Answer}
    (hm : m.Coherent) (h : ∃ d ∈ (m.tick i answers).2, d.event.kind = .failure) :
    (m.tick i answers).1.Parked := by
  obtain ⟨d, hd, hk⟩ := h
  rcases tick_cases i answers hm with ⟨hh, ht⟩ | hr
  · rw [ht] at hd ⊢
    rw [List.mem_singleton.1 hd] at hk
    exact (hh.failure hk).2
  · rw [hr.tick] at hd ⊢
    rcases List.mem_cons.1 hd with rfl | hd
    · rcases hr.asks with h | h
      · rw [h.result] at hk
        exact absurd hk nofun
      · rw [h.result] at hk
        exact absurd hk nofun
    · rw [List.mem_singleton.1 hd] at hk
      exact (hr.answer.failure hk).2

/-- A parked machine that does not see the controller where the policy wants it stays parked. -/
theorem tick_of_parked {m : Machine} (i : Inputs) (answers : ℕ → Action → Answer) (h : m.Parked) :
    (∀ d ∈ (m.tick i answers).2, d.action = .none) ∧
      (i.controller ≠ (if radioTarget m.policy i.conditions then .running else .stopped) →
        (m.tick i answers).1.Parked) := by
  obtain ⟨hs, ha⟩ := h
  have hquiet : (m.update i).2.action = .none ∧
      (i.controller ≠ (if radioTarget m.policy i.conditions then .running else .stopped) →
        (m.update i).1.Parked) := by
    unfold update
    by_cases hx : m.policy = .externalControl
    · rw [if_pos hx]
      exact ⟨rfl, fun _ => ⟨hs, ha⟩⟩
    · rw [if_neg hx, hs]
      dsimp only
      unfold updateFailed
      rw [ha]
      cases hc : i.controller <;> cases ht : radioTarget m.policy i.conditions <;>
        simp [Parked, hs, ha]
  have htick : m.tick i answers = ((m.update i).1, [(m.update i).2]) := by
    unfold tick kDecisionCycleLimit applyRadioDecision
    rw [hquiet.1]
  rw [htick]
  refine ⟨fun d hd => ?_, hquiet.2⟩
  rw [List.mem_singleton.1 hd]
  exact hquiet.1

end Machine

/-! ## Runs -/

/-- What happens to the machine. -/
inductive Move where
  | notifyActivity
  | setPolicy (policy : ScaleRadioPolicy)
  | tick (i : Inputs) (answers : ℕ → Action → Answer)

def step (m : Machine) : Move → Machine
  | .notifyActivity => m.notifyActivity
  | .setPolicy policy => (m.setPolicy policy).1
  | .tick i answers => (m.tick i answers).1

/-- The decisions that a move makes the power manager perform. -/
def decisions (m : Machine) : Move → List Decision
  | .tick i answers => (m.tick i answers).2
  | _ => []

theorem setPolicy_cases (m : Machine) (policy : ScaleRadioPolicy) :
    (m.setPolicy policy).1 = m ∨
      (policy ≠ m.policy ∧ m.policy ≠ .externalControl ∧
        (policy = .externalControl →
          m.inTransition = false ∧ m.hasFailed = false ∧ m.wantsServiceSuspended = false) ∧
        (m.setPolicy policy).1 = { m with policy := policy, activityPending := true }) := by
  unfold Machine.setPolicy
  split_ifs with h₁ h₂ h₃
  · exact Or.inl rfl
  · exact Or.inl rfl
  · exact Or.inl rfl
  · refine Or.inr ⟨h₁, h₂, fun hp => ?_, rfl⟩
    simpa [hp, and_assoc] using h₃

theorem coherent_step {m : Machine} (move : Move) (hm : m.Coherent) : (step m move).Coherent := by
  cases move with
  | notifyActivity => exact hm
  | setPolicy policy =>
    rcases setPolicy_cases m policy with h | ⟨-, -, -, h⟩
    · show (m.setPolicy policy).1.Coherent
      rw [h]
      exact hm
    · show (m.setPolicy policy).1.Coherent
      rw [h]
      exact hm
  | tick i answers => exact Machine.coherent_tick i answers hm

theorem coherent_exec (moves : List Move) : (exec step {} moves).Coherent := by
  have hall : Along step (fun _ _ => True) {} moves :=
    along_iff_forall_split.2 fun _ _ _ _ => trivial
  exact hall.exec_invariant Machine.Coherent (fun m move hm _ => coherent_step move hm) nofun

/-! ## What every run respects -/

/-- What one move may do. -/
structure Sound (m : Machine) (move : Move) : Prop where
  /-- A stop is requested under an idle service and a running controller that is not wanted. -/
  stop : ∀ i answers, move = .tick i answers →
    (∃ d ∈ (m.tick i answers).2, d.action = .stopController) →
    i.service = .off ∧ i.controller = .running ∧ radioTarget m.policy i.conditions = false
  /-- A start is requested of a controller that is wanted and rests. -/
  start : ∀ i answers, move = .tick i answers →
    (∃ d ∈ (m.tick i answers).2, d.action = .startController) →
    radioTarget m.policy i.conditions = true ∧
      i.controller ≠ .running ∧ i.controller ≠ .starting ∧ i.controller ≠ .failed
  once : ((decisions m move).filter (·.action ≠ .none)).length ≤ 1
  /-- No request while an earlier one is awaited. -/
  idle : (∃ d ∈ decisions m move, d.action ≠ .none) → m.controllerTransition.pending = false
  external : m.policy = .externalControl →
    (step m move).policy = .externalControl ∧ ∀ d ∈ decisions m move, d = {}
  handover : (step m move).policy = .externalControl → m.policy = .externalControl ∨
    (m.controllerTransition.pending = false ∧ m.inTransition = false ∧ m.hasFailed = false ∧
      m.wantsServiceSuspended = false)

theorem sound_of_coherent {m : Machine} (move : Move) (hm : m.Coherent) : Sound m move := by
  have hsettled : m.inTransition = false → m.controllerTransition.pending = false := by
    intro h
    unfold Machine.inTransition at h
    simp only [Bool.or_eq_false_iff, decide_eq_false_iff_not] at h
    exact Machine.not_pending_of_state hm h.1.2 h.2
  cases move with
  | notifyActivity =>
    exact ⟨nofun, nofun, by simp [decisions], by simp [decisions], fun h => ⟨h, by simp [decisions]⟩,
      Or.inl⟩
  | setPolicy policy =>
    refine ⟨nofun, nofun, by simp [decisions], by simp [decisions], ?_, ?_⟩
    · intro hx
      refine ⟨?_, by simp [decisions]⟩
      rcases setPolicy_cases m policy with h | ⟨-, hne, -, -⟩
      · show (m.setPolicy policy).1.policy = _
        rw [h]
        exact hx
      · exact absurd hx hne
    · intro hx
      rcases setPolicy_cases m policy with h | ⟨-, -, hrefuse, h⟩
      · left
        rw [← h]
        exact hx
      · right
        have hp : policy = .externalControl := by
          have hx' : (m.setPolicy policy).1.policy = .externalControl := hx
          rw [h] at hx'
          exact hx'
        obtain ⟨h₁, h₂, h₃⟩ := hrefuse hp
        exact ⟨hsettled h₁, h₁, h₂, h₃⟩
  | tick i answers =>
    have hpolicy := Machine.tick_policy i answers hm
    have hhandover : (step m (.tick i answers)).policy = .externalControl →
        m.policy = .externalControl := fun h => hpolicy ▸ h
    rcases Machine.tick_cases i answers hm with ⟨hh, ht⟩ | hr
    · have hnone : ∀ d ∈ (m.tick i answers).2, d.action = .none := by
        intro d hd
        rw [ht] at hd
        rw [List.mem_singleton.1 hd]
        exact hh.quiet
      refine ⟨?_, ?_, ?_, ?_, ?_, fun h => Or.inl (hhandover h)⟩
      · rintro i' answers' heq ⟨d, hd, ha⟩
        obtain ⟨rfl, rfl⟩ := Move.tick.inj heq
        exact absurd ((hnone d hd).symm.trans ha) nofun
      · rintro i' answers' heq ⟨d, hd, ha⟩
        obtain ⟨rfl, rfl⟩ := Move.tick.inj heq
        exact absurd ((hnone d hd).symm.trans ha) nofun
      · show ((m.tick i answers).2.filter _).length ≤ 1
        rw [ht]
        exact List.length_filter_le _ _
      · rintro ⟨d, hd, ha⟩
        exact absurd (hnone d hd) ha
      · intro hx
        refine ⟨hpolicy.trans hx, fun d hd => ?_⟩
        have hd' : d ∈ (m.tick i answers).2 := hd
        rw [ht] at hd'
        rw [List.mem_singleton.1 hd']
        unfold Machine.update
        rw [if_pos hx]
    · have hlog : decisions m (.tick i answers) =
          [(m.update i).2, (m.firstAnswer i answers).2] := by
        show (m.tick i answers).2 = _
        rw [hr.tick]
      have hmem : ∀ {a : Action}, a ≠ .none →
          (∃ d ∈ (m.tick i answers).2, d.action = a) → (m.update i).2.action = a := by
        rintro a ha ⟨d, hd, hda⟩
        rw [hr.tick] at hd
        rcases List.mem_cons.1 hd with rfl | hd
        · exact hda
        · rw [List.mem_singleton.1 hd, hr.answer.quiet] at hda
          exact absurd hda.symm ha
      refine ⟨?_, ?_, ?_, fun _ => hr.idle, fun hx => absurd hx hr.policy,
        fun h => Or.inl (hhandover h)⟩
      · rintro i' answers' heq h
        obtain ⟨rfl, rfl⟩ := Move.tick.inj heq
        have ha := hmem (a := .stopController) nofun h
        rcases hr.asks with hs | hs
        · exact ⟨hs.service, hs.controller, hs.target⟩
        · rw [hs.result] at ha
          exact absurd ha nofun
      · rintro i' answers' heq h
        obtain ⟨rfl, rfl⟩ := Move.tick.inj heq
        have ha := hmem (a := .startController) nofun h
        rcases hr.asks with hs | hs
        · rw [hs.result] at ha
          exact absurd ha nofun
        · exact ⟨hs.target, hs.controller⟩
      · rw [hlog, List.filter_cons, List.filter_cons,
          if_neg (by simp [hr.answer.quiet] : ¬ decide ((m.firstAnswer i answers).2.action ≠ .none)
            = true)]
        split_ifs <;> simp

/-- Neither activity nor a policy change, and no observation of the controller where the policy
wants it. -/
def Unmoved (m : Machine) : Move → Prop
  | .notifyActivity => False
  | .setPolicy policy => (m.setPolicy policy).1.policy = m.policy
  | .tick i _ =>
    i.controller ≠ (if radioTarget m.policy i.conditions then .running else .stopped)

theorem parked_step {m : Machine} (move : Move) (h : m.Parked) (hu : Unmoved m move) :
    (step m move).Parked := by
  cases move with
  | notifyActivity => exact hu.elim
  | setPolicy policy =>
    show (m.setPolicy policy).1.Parked
    rcases setPolicy_cases m policy with hs | ⟨hne, -, -, hs⟩
    · rw [hs]
      exact h
    · have hsame : (m.setPolicy policy).1.policy = m.policy := hu
      rw [hs] at hsame
      exact absurd hsame hne
  | tick i answers => exact (Machine.tick_of_parked i answers h).2 hu

/-- Only a tick makes the machine suspend the service. -/
theorem suspended_of_not_tick {m : Machine} {move : Move} (hm : ¬ m.wantsServiceSuspended = true)
    (h : (step m move).wantsServiceSuspended = true) : ∃ i answers, move = .tick i answers := by
  cases move with
  | notifyActivity => exact absurd h hm
  | setPolicy policy =>
    have h' : (m.setPolicy policy).1.wantsServiceSuspended = true := h
    rcases setPolicy_cases m policy with hs | ⟨-, -, -, hs⟩
    · rw [hs] at h'
      exact absurd h' hm
    · rw [hs] at h'
      exact absurd h' hm
  | tick i answers => exact ⟨i, answers, rfl⟩

/-- A stop is requested by a machine that already suspends the service. -/
theorem suspended_of_stop {m : Machine} {i : Inputs} {answers : ℕ → Action → Answer}
    (hm : m.Coherent) (h : ∃ d ∈ (m.tick i answers).2, d.action = .stopController) :
    m.wantsServiceSuspended = true := by
  obtain ⟨d, hd, ha⟩ := h
  rcases Machine.tick_cases i answers hm with ⟨hh, ht⟩ | hr
  · rw [ht] at hd
    rw [List.mem_singleton.1 hd] at ha
    exact absurd (hh.quiet.symm.trans ha) nofun
  · rcases hr.asks with hs | hs
    · unfold Machine.wantsServiceSuspended
      rw [hs.suspending]
    · rw [hr.tick] at hd
      rcases List.mem_cons.1 hd with rfl | hd
      · rw [hs.result] at ha
        exact absurd ha nofun
      · rw [List.mem_singleton.1 hd] at ha
        exact absurd (hr.answer.quiet.symm.trans ha) nofun

/-! ## Waiting for an answer -/

/-- The decision says how a controller request ended. -/
def Decision.lands (d : Decision) : Bool :=
  d.event.kind = .controllerStopped || d.event.kind = .controllerRestarted ||
    d.event.kind = .failure

/-- The machine is waiting, or something in the log says how the request ended. -/
def AwaitsOrLands (r : Machine × List Decision) : Prop :=
  r.1.controllerTransition.pending = true ∨ ∃ d ∈ r.2, d.lands = true

theorem Machine.awaits_awaitTransition {m : Machine} (target : TransitionTarget) (nowMs : U32)
    (state : State) (d : Decision) (area : FailureArea) (busy : String)
    (hp : m.controllerTransition.pending = false) :
    (m.awaitTransition target nowMs state d area busy).1.controllerTransition.pending = true := by
  have hne : m.controllerTransition.result ≠ .pending := by
    unfold ControllerTransition.pending at hp
    simpa using hp
  unfold Machine.awaitTransition ControllerTransition.begin
  rw [if_neg hne]
  rfl

/-- A request waits for its answer or has it at once. -/
theorem Machine.awaits_resolve {m : Machine} {resolved : Action} (accepted : Bool) (i : Inputs)
    (hr : resolved ≠ .none) (hp : m.controllerTransition.pending = false) :
    (m.resolve resolved accepted i).1.controllerTransition.pending = true ∨
      (m.resolve resolved accepted i).2.lands = true := by
  unfold Machine.resolve
  cases resolved with
  | none => exact absurd rfl hr
  | stopController =>
    dsimp only
    split_ifs
    · exact Or.inr rfl
    · exact Or.inr rfl
    · exact Or.inr rfl
    · exact Or.inl (Machine.awaits_awaitTransition _ _ _ _ _ _ hp)
  | startController =>
    dsimp only
    split_ifs
    · exact Or.inr rfl
    · exact Or.inr rfl
    · exact Or.inr rfl
    · exact Or.inl (Machine.awaits_awaitTransition _ _ _ _ _ _ hp)

theorem ControllerTransition.update_of_pending {t : ControllerTransition} (s : ControllerState)
    (nowMs : U32) (h : t.pending = true) : (t.update s nowMs).result ≠ .inactive := by
  have hp : t.result = .pending := by simpa [ControllerTransition.pending] using h
  unfold ControllerTransition.update
  split_ifs <;> simp_all

theorem Machine.awaits_update {m : Machine} (i : Inputs) (hm : m.Coherent)
    (hp : m.controllerTransition.pending = true) :
    (m.update i).1.controllerTransition.pending = true ∨ (m.update i).2.lands = true := by
  have hadvance : (m.advanceTransition i).1.controllerTransition.pending = true ∨
      (m.advanceTransition i).2.lands = true := by
    have hne := ControllerTransition.update_of_pending i.controller i.nowMs hp
    unfold Machine.advanceTransition
    dsimp only
    cases hres : (m.controllerTransition.update i.controller i.nowMs).result with
    | succeeded =>
      dsimp only
      split_ifs <;> exact Or.inr rfl
    | failed => exact Or.inr rfl
    | timedOut => exact Or.inr rfl
    | inactive => exact absurd hres hne
    | pending =>
      left
      unfold ControllerTransition.pending
      exact decide_eq_true hres
  unfold Machine.update
  by_cases hx : m.policy = .externalControl
  · rw [if_pos hx]
    exact Or.inl hp
  · rw [if_neg hx]
    dsimp only
    rcases hm hp with hs | hs
    · rw [hs]
      dsimp only
      rw [if_pos hp]
      exact hadvance
    · rw [hs]
      dsimp only
      rw [if_pos hp]
      exact hadvance

theorem awaits_tick {m : Machine} (i : Inputs) (answers : ℕ → Action → Answer) (hm : m.Coherent)
    (h : m.controllerTransition.pending = true ∨
      ∃ d ∈ (m.tick i answers).2, d.action ≠ .none) : AwaitsOrLands (m.tick i answers) := by
  rcases Machine.tick_cases i answers hm with ⟨hh, ht⟩ | hr
  · rw [ht] at h ⊢
    have hp : m.controllerTransition.pending = true := by
      rcases h with h | ⟨d, hd, ha⟩
      · exact h
      · rw [List.mem_singleton.1 hd] at ha
        exact absurd hh.quiet ha
    rcases Machine.awaits_update i hm hp with h | h
    · exact Or.inl h
    · exact Or.inr ⟨_, List.mem_singleton.2 rfl, h⟩
  · rw [hr.tick]
    have hne : (m.update i).2.action ≠ .none := by
      rcases hr.asks with h | h
      · rw [h.result]
        exact nofun
      · rw [h.result]
        exact nofun
    have hidle : (m.update i).1.controllerTransition.pending = false := by
      rcases hr.asks with h | h
      · rw [h.result]
        exact hr.idle
      · rw [h.result]
        exact hr.idle
    rcases Machine.awaits_resolve _ _ hne hidle with h | h
    · exact Or.inl h
    · exact Or.inr ⟨_, List.mem_cons_of_mem _ (List.mem_singleton.2 rfl), h⟩

/-- No decision of the move says how a request ended. -/
def Unanswered (m : Machine) (move : Move) : Prop := ∀ d ∈ decisions m move, d.lands = false

theorem awaiting_step {m : Machine} (move : Move)
    (h : m.Coherent ∧ m.controllerTransition.pending = true) (hu : Unanswered m move) :
    (step m move).Coherent ∧ (step m move).controllerTransition.pending = true := by
  refine ⟨coherent_step move h.1, ?_⟩
  cases move with
  | notifyActivity => exact h.2
  | setPolicy policy =>
    show (m.setPolicy policy).1.controllerTransition.pending = true
    rcases setPolicy_cases m policy with hs | ⟨-, -, -, hs⟩
    · rw [hs]
      exact h.2
    · rw [hs]
      exact h.2
  | tick i answers =>
    rcases awaits_tick i answers h.1 (Or.inl h.2) with hp | ⟨d, hd, hl⟩
    · exact hp
    · exact absurd hl (by rw [hu d hd]; decide)

/-- What a whole run respects. -/
structure Disciplined (moves : List Move) : Prop where
  sound : Along step Sound {} moves
  /-- A stop request finds the service suspended ever since some earlier update. -/
  suspendedSince : ∀ pre i answers post, moves = pre ++ .tick i answers :: post →
    (∃ d ∈ ((exec step {} pre).tick i answers).2, d.action = .stopController) →
    ∃ before j earlier mid, pre = before ++ .tick j earlier :: mid ∧
      ∀ seen, seen <+: mid →
        (exec step {} (before ++ .tick j earlier :: seen)).wantsServiceSuspended = true
  /-- After a request, none is issued before something says how it ended. -/
  oneAtATime : ∀ pre i answers mid j later post,
    moves = pre ++ .tick i answers :: (mid ++ .tick j later :: post) →
    (∃ d ∈ ((exec step {} pre).tick i answers).2, d.action ≠ .none) →
    Along step Unanswered (exec step {} pre) (.tick i answers :: mid) →
    ∀ d ∈ ((exec step {} (pre ++ .tick i answers :: mid)).tick j later).2, d.action = .none
  /-- A failure is not followed by a request before something has changed. -/
  noRetry : ∀ pre i answers mid j later post,
    moves = pre ++ .tick i answers :: (mid ++ .tick j later :: post) →
    (∃ d ∈ ((exec step {} pre).tick i answers).2, d.event.kind = .failure) →
    Along step Unmoved (exec step {} (pre ++ [.tick i answers])) mid →
    ∀ d ∈ ((exec step {} (pre ++ .tick i answers :: mid)).tick j later).2, d.action = .none

/-- **The radio machine under the power manager**, whatever it observes and is asked: it stops the
controller only under a service it has suspended before, starts it only at rest, asks for one thing
at a time, does not loop on failures, and hands the controller over only when settled. -/
theorem disciplined (moves : List Move) : Disciplined moves where
  sound := by
    rw [along_iff_forall_split]
    intro pre move post _
    exact sound_of_coherent move (coherent_exec pre)
  suspendedSince := by
    intro pre i answers post _ hstop
    have hsus := suspended_of_stop (coherent_exec pre) hstop
    have hfresh : ¬ ({} : Machine).wantsServiceSuspended = true := by decide
    obtain ⟨before, move, mid, rfl, hnot, hall⟩ :=
      holds_since (P := fun m : Machine => m.wantsServiceSuspended = true) hfresh hsus
    have hone := hall [] List.nil_prefix
    rw [exec_append, exec_cons, exec_nil] at hone
    obtain ⟨j, earlier, rfl⟩ := suspended_of_not_tick hnot hone
    exact ⟨before, j, earlier, mid, rfl, hall⟩
  oneAtATime := by
    intro pre i answers mid j later post _ hreq hun
    have hcoh := coherent_exec pre
    have hp : (step (exec step {} pre) (.tick i answers)).controllerTransition.pending = true := by
      rcases awaits_tick i answers hcoh (Or.inr hreq) with h | ⟨d, hd, hl⟩
      · exact h
      · exact absurd hl (by rw [hun.1 d hd]; decide)
    have hstill := hun.2.exec_invariant
      (fun m : Machine => m.Coherent ∧ m.controllerTransition.pending = true)
      (fun m move h hu => awaiting_step move h hu) ⟨coherent_step _ hcoh, hp⟩
    rw [← exec_cons, ← exec_append] at hstill
    intro d hd
    by_contra ha
    have hidle := (sound_of_coherent (.tick j later) hstill.1).idle ⟨d, hd, ha⟩
    rw [hstill.2] at hidle
    exact absurd hidle nofun
  noRetry := by
    intro pre i answers mid j later post _ hfail hmid
    have hparked : (exec step {} (pre ++ [.tick i answers])).Parked := by
      rw [exec_append]
      exact Machine.parked_of_failure (coherent_exec pre) hfail
    have hstill := hmid.exec_invariant Machine.Parked
      (fun m move hp hu => parked_step move hp hu) hparked
    rw [← exec_append, List.append_assoc] at hstill
    exact (Machine.tick_of_parked j later hstill).1

end Pumpbug.Power.ScaleRadio
