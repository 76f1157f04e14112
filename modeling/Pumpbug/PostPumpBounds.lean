import Pumpbug.YieldDecision

/-!
# How long a shot waits behind pump-off

While the pump stays off, a shot in `POST_PUMP` ends with the first tick that finds its pour
settled, its sample stream stalled, or its time run out; and a finished record stays as it is.
-/

namespace Pumpbug

open Lib

/-- The tick that accepted the latest sample of the shot, if it has one. -/
def latestTick (calls : List Call) : Option U32 :=
  (exec noteAccepted ({}, []) calls).2.getLast?.map Prod.snd

namespace Recorder

/-- At `nowMs` the shot has waited too long behind the pump-off at `offMs`, as the recorder `s` that
has read the scale sees it; the latest sample was accepted at `latest`. -/
def Overdue (s : Recorder) (offMs : U32) (latest : Option U32) (nowMs : U32) : Prop :=
  12000 < nowMs - offMs ∨
    (5000 < nowMs - offMs ∧ s.tracker.hasUnsettledPour = false) ∨
    (s.tracker.hasUnsettledPour = true ∧ ∃ t, latest = some t ∧ 3000 < nowMs - t)

/-- What a tick with the pump off does behind the pump-off at `offMs`. -/
structure WaitsAt (r : Recorder) (offMs : U32) (latest : Option U32) (i : Input) : Prop where
  phase : (r.update i).current.phase = .postPump ∨ (r.update i).current.phase = .done
  overdue : (r.sense i).Overdue offMs latest i.nowMs → (r.update i).current.phase = .done
  stable : r.current.phase = .postPump →
    ((r.update i).current.phase = .done ∧ (r.update i).current.endCause = .stable ↔
      (r.sense i).tracker.hasMeaningfulYield = true ∧
        kRunCloseSamples ≤ (r.sense i).tracker.settledCount)
  published : r.current.phase = .postPump → (r.update i).current.phase = .done →
    (r.update i).lastFinished = (r.update i).current
  closed : r.current.phase = .done → (r.update i).current = r.current ∧
    (r.update i).lastFinished = r.lastFinished ∧ (r.update i).finishedSeq = r.finishedSeq

/-- The recorder behind the pump-off at `offMs`. -/
structure Waits (r : Recorder) (offMs : U32) : Prop where
  phase : r.current.phase = .postPump ∨ r.current.phase = .done
  off : r.current.phase = .postPump → r.current.lastPumpOffConfirmedMs = offMs

section

variable {r : Recorder} {offMs : U32} {i : Input}

theorem not_rises_of_off (h : i.pumpSignal.isOn = false) : ¬ r.rises i = true := by
  unfold rises
  rw [h, Bool.false_and]
  exact Bool.false_ne_true

theorem not_begins_of_off (h : i.pumpSignal.isOn = false) : r.begins i = false := by
  unfold begins restarts rises
  simp [h]

/-- The update of a waiting recorder. -/
theorem update_waiting (hp : r.current.phase = .postPump) (h : i.pumpSignal.isOn = false) :
    r.update i =
      match (r.sense i).endOfShot i.nowMs with
      | some cause => (r.sense i).enterDone i.nowMs cause
      | none => r.sense i := by
  rw [update_of_postPump hp]
  exact if_neg (not_rises_of_off h)

theorem update_closed (hp : r.current.phase = .done) (h : i.pumpSignal.isOn = false) :
    r.update i = r.sense i := by
  rw [update_of_done hp, if_neg (not_rises_of_off h)]

theorem sense_closed (hp : r.current.phase = .done) : (r.sense i).current = r.current := by
  have hw : ¬ r.current.inPumpWindow = true := by
    rw [Extraction.inPumpWindow_iff, hp]
    decide
  rw [sense_of_idleWindow hw]

/-- **Step lemma.** -/
theorem waits_update (hr : r.Waits offMs) (h : i.pumpSignal.isOn = false) :
    (r.update i).Waits offMs := by
  rcases hr.phase with hp | hp
  · rw [update_waiting hp h]
    cases (r.sense i).endOfShot i.nowMs with
    | none =>
      refine ⟨.inl ((sense_phase r i).trans hp), fun _ => ?_⟩
      exact (sense_lastPumpOffConfirmedMs r i).trans (hr.off hp)
    | some cause => exact ⟨.inr rfl, fun hpost => absurd hpost (by rw [enterDone_phase]; decide)⟩
  · have hdone : (r.update i).current.phase = .done := by
      rw [update_closed hp h, sense_phase, hp]
    refine ⟨.inr hdone, fun hpost => ?_⟩
    rw [hdone] at hpost
    exact absurd hpost (by decide)

/-- A shot that has waited too long ends. -/
theorem endOfShot_of_overdue {s : Recorder} {latest : Option U32} {nowMs : U32}
    (hoff : s.current.lastPumpOffConfirmedMs = offMs)
    (hlatest : ∀ t, latest = some t → s.lastRawSampleTMs = t ∧ t ≠ 0)
    (h : s.Overdue offMs latest nowMs) : ∃ cause, s.endOfShot nowMs = some cause := by
  unfold endOfShot
  by_cases hsettled : s.tracker.settledCountReached = true
  · rw [if_pos hsettled]
    exact ⟨.stable, rfl⟩
  · rw [if_neg hsettled, hoff]
    by_cases hopen : s.tracker.hasUnsettledPour = true
    · rw [if_pos hopen]
      have hends : (s.lastRawSampleTMs ≠ 0 && NO_NEW_SAMPLE_TIMEOUT_MS < nowMs - s.lastRawSampleTMs ||
          OPEN_POUR_SETTLE_TIMEOUT_MS < nowMs - offMs) = true := by
        rw [Bool.or_eq_true, Bool.and_eq_true, decide_eq_true_eq, decide_eq_true_eq,
          decide_eq_true_eq]
        rcases h with h | ⟨-, hno⟩ | ⟨-, t, ht, h⟩
        · exact .inr h
        · exact absurd (hno.symm.trans hopen) Bool.false_ne_true
        · obtain ⟨hraw, hne⟩ := hlatest t ht
          rw [hraw]
          exact .inl ⟨hne, h⟩
      dsimp only
      rw [if_pos hends]
      exact ⟨.timeout, rfl⟩
    · rw [if_neg hopen]
      have hlate : (5000 : U32) < nowMs - offMs := by
        rcases h with h | ⟨h, -⟩ | ⟨hsome, -⟩
        · bv_omega
        · exact h
        · exact absurd hsome hopen
      have htimeout : (if s.current.hasSampleData then EMPTY_SCALE_TIMEOUT_MS
          else NO_SCALE_TIMEOUT_MS) = (5000 : U32) := by
        split_ifs <;> rfl
      dsimp only
      rw [htimeout, if_pos hlate]
      exact ⟨.timeout, rfl⟩

theorem endOfShot_stable_iff (s : Recorder) (nowMs : U32) :
    s.endOfShot nowMs = some .stable ↔ s.tracker.settledCountReached = true := by
  unfold endOfShot
  by_cases hsettled : s.tracker.settledCountReached = true
  · rw [if_pos hsettled]
    exact iff_of_true rfl hsettled
  · rw [if_neg hsettled]
    refine iff_of_false ?_ hsettled
    dsimp only
    split_ifs <;> simp

/-- What a waiting recorder does at one tick. -/
theorem waitsAt_of_waits (hr : r.Waits offMs) (h : i.pumpSignal.isOn = false) {latest : Option U32}
    (hlatest : r.current.phase = .postPump →
      ∀ t, latest = some t → (r.sense i).lastRawSampleTMs = t ∧ t ≠ 0) :
    r.WaitsAt offMs latest i := by
  have hnext := waits_update hr h
  rcases hr.phase with hp | hp
  · have hstable : ((r.sense i).tracker.hasMeaningfulYield = true ∧
        kRunCloseSamples ≤ (r.sense i).tracker.settledCount) ↔
          (r.sense i).endOfShot i.nowMs = some .stable := by
      rw [endOfShot_stable_iff]
      unfold LivePourTracker.settledCountReached
      rw [Bool.and_eq_true, decide_eq_true_eq]
      rfl
    have hoff : (r.sense i).current.lastPumpOffConfirmedMs = offMs :=
      (sense_lastPumpOffConfirmedMs r i).trans (hr.off hp)
    have hnot : r.current.phase ≠ .done := by
      rw [hp]
      decide
    have hupdate := update_waiting hp h
    have hsense : (r.sense i).current.phase ≠ .done := by
      rw [sense_phase]
      exact hnot
    cases hend : (r.sense i).endOfShot i.nowMs with
    | none =>
      rw [hend] at hupdate
      rw [hend] at hstable
      refine ⟨hnext.phase, fun hover => ?_, fun _ => ?_, fun _ hdone => ?_, fun hd => absurd hd hnot⟩
      · obtain ⟨cause, hcause⟩ := endOfShot_of_overdue hoff (hlatest hp) hover
        rw [hend] at hcause
        exact absurd hcause (by simp)
      · rw [hupdate, hstable]
        exact iff_of_false (fun hboth => hsense hboth.1) (by simp)
      · rw [hupdate] at hdone
        exact absurd hdone hsense
    | some cause =>
      rw [hend] at hupdate
      rw [hend] at hstable
      refine ⟨hnext.phase, fun _ => by rw [hupdate, enterDone_phase], fun _ => ?_, fun _ _ => ?_,
        fun hd => absurd hd hnot⟩
      · rw [hupdate, hstable, Option.some_inj]
        exact ⟨fun hboth => hboth.2, fun hcause => ⟨rfl, hcause⟩⟩
      · rw [hupdate]
        rfl
  · have hnot : r.current.phase ≠ .postPump := by
      rw [hp]
      decide
    have hupdate := update_closed hp h
    have hdone : (r.update i).current.phase = .done := by rw [hupdate, sense_phase, hp]
    refine ⟨.inr hdone, fun _ => hdone, fun hpost => absurd hpost hnot,
      fun hpost => absurd hpost hnot, fun _ => ?_⟩
    rw [hupdate]
    exact ⟨sense_closed hp, sense_lastFinished r i, sense_finishedSeq r i⟩

end

end Recorder

/-! ## Runs -/

/-- Ticks of a run that never reads time 0. -/
theorem ticks_ne_zero {calls : List Call} (h : ∀ i, Call.update i ∈ calls → i.nowMs ≠ 0) :
    ∀ x ∈ (exec noteAccepted ({}, []) calls).2, x.2 ≠ 0 := by
  induction calls using List.reverseRecOn with
  | nil => exact fun x hx => absurd hx List.not_mem_nil
  | append_singleton calls c ih =>
    have hseen := ih fun i hi => h i (List.mem_append_left _ hi)
    have hlast (i : Recorder.Input) (hi : Call.update i = c) : i.nowMs ≠ 0 :=
      h i (List.mem_append_right _ (List.mem_singleton.2 hi))
    rw [exec_append]
    generalize exec noteAccepted ({}, []) calls = x at hseen ⊢
    show ∀ y ∈ (noteAccepted x c).2, y.2 ≠ 0
    unfold noteAccepted
    cases c with
    | update i =>
      dsimp only
      split_ifs
      · exact fun y hy => absurd hy List.not_mem_nil
      · intro y hy
        rcases List.mem_append.1 hy with hy | hy
        · exact hseen y hy
        · rw [Option.mem_toList, Option.map_eq_some_iff] at hy
          obtain ⟨s, -, rfl⟩ := hy
          exact hlast i rfl
    | clear => exact fun y hy => absurd hy List.not_mem_nil
    | setTargetSnapshot tc => exact hseen
    | triggerAlarm a => exact hseen

/-- The recorder knows the tick of the latest sample. -/
theorem latestTick_sense {calls : List Call} {i : Recorder.Input}
    (hp : (exec Recorder.call {} calls).current.phase = .postPump) (h : i.pumpSignal.isOn = false)
    (hne : ∀ j, Call.update j ∈ calls ++ [.update i] → j.nowMs ≠ 0) (t : U32)
    (ht : latestTick (calls ++ [.update i]) = some t) :
    ((exec Recorder.call {} calls).sense i).lastRawSampleTMs = t ∧ t ≠ 0 := by
  have hw : (exec Recorder.call {} calls).current.inPumpWindow = true :=
    Extraction.inPumpWindow_iff.2 (Or.inr hp)
  have htallies := Recorder.tallies_sense ((Recorder.tallied_exec calls).window hw) i
  have hseen : (exec noteAccepted ({}, []) (calls ++ [.update i])).2 =
      (exec noteAccepted ({}, []) calls).2 ++
        (((exec Recorder.call {} calls).acceptedSample i).map fun s => (s, i.nowMs)).toList := by
    have hfst := exec_noteAccepted ({}, []) calls
    rw [exec_append]
    generalize exec noteAccepted ({}, []) calls = x at hfst
    show (if x.1.begins i then _ else _) = _
    rw [hfst, Recorder.not_begins_of_off h, if_neg Bool.false_ne_true]
  rw [← hseen] at htallies
  unfold latestTick at ht
  obtain ⟨x, hx, rfl⟩ := Option.map_eq_some_iff.1 ht
  refine ⟨?_, ticks_ne_zero hne x (List.mem_of_getLast? hx)⟩
  rw [htallies.tick]
  unfold Recorder.lastTick
  rw [hx]
  rfl

/-- **Run lemma.** Behind a pump-off the recorder waits as long as the pump stays off. -/
theorem waits_exec {r : Recorder} {offMs : U32} (hr : r.Waits offMs) {post : List Recorder.Input}
    (h : ∀ i ∈ post, i.pumpSignal.isOn = false) : (exec Recorder.update r post).Waits offMs := by
  induction post generalizing r with
  | nil => exact hr
  | cons i post ih =>
    exact ih (Recorder.waits_update hr (h i List.mem_cons_self))
      fun j hj => h j (List.mem_cons_of_mem i hj)

/-- A finished record stays as it is while the pump stays off. -/
theorem closed_exec {r : Recorder} (hp : r.current.phase = .done) {post : List Recorder.Input}
    (h : ∀ i ∈ post, i.pumpSignal.isOn = false) :
    (exec Recorder.update r post).current = r.current := by
  induction post generalizing r with
  | nil => rfl
  | cons i post ih =>
    have hcurrent : (r.update i).current = r.current := by
      rw [Recorder.update_closed hp (h i List.mem_cons_self), Recorder.sense_closed hp]
    have hdone : (r.update i).current.phase = .done := by rw [hcurrent, hp]
    exact (ih hdone fun j hj => h j (List.mem_cons_of_mem i hj)).trans hcurrent

theorem exec_updates (r : Recorder) (post : List Recorder.Input) :
    exec Recorder.call r (post.map .update) = exec Recorder.update r post := by
  induction post generalizing r with
  | nil => rfl
  | cons i post ih => exact ih (r.update i)

/-- **Result.** From a confirmed pump-off on, with the pump off: every tick keeps the bounds, and
once the record is finalized it stays as it is. -/
theorem post_pump_bounded (pre : List Call) (off : Recorder.Input) (post : List Recorder.Input)
    (hrunning : (exec Recorder.call {} pre).current.phase = .running)
    (hoff : (exec Recorder.call {} pre).falls off = true)
    (hpost : ∀ i ∈ post, i.pumpSignal.isOn = false)
    (hne : ∀ i, Call.update i ∈ pre ++ .update off :: post.map .update → i.nowMs ≠ 0) :
    ∀ before i after, post = before ++ i :: after →
      let run := pre ++ .update off :: before.map .update
      let r := exec Recorder.call {} run
      r.WaitsAt off.nowMs (latestTick (run ++ [.update i])) i ∧
        ((r.update i).current.phase = .done →
          (exec Recorder.update (r.update i) after).current = (r.update i).current) := by
  rintro before i after rfl run r
  have hi : i.pumpSignal.isOn = false := hpost i (List.mem_append_right _ List.mem_cons_self)
  have hbefore : ∀ j ∈ before, j.pumpSignal.isOn = false :=
    fun j hj => hpost j (List.mem_append_left _ hj)
  have hafter : ∀ j ∈ after, j.pumpSignal.isOn = false :=
    fun j hj => hpost j (List.mem_append_right _ (List.mem_cons_of_mem i hj))
  -- the tick that confirms the pump-off
  have hconfirmed : ((exec Recorder.call {} pre).update off).Waits off.nowMs := by
    rw [Recorder.update_of_running hrunning, if_pos hoff]
    exact ⟨.inl rfl, fun _ => field_of_header Extraction.lastPumpOffConfirmedMs (fun _ => rfl)
      (Recorder.enterPostPump_header _ _ _)⟩
  have hr : r.Waits off.nowMs := by
    show (exec Recorder.call {} (pre ++ .update off :: before.map .update)).Waits off.nowMs
    rw [exec_append, exec_cons, exec_updates]
    exact waits_exec hconfirmed hbefore
  refine ⟨Recorder.waitsAt_of_waits hr hi fun hp t ht => ?_, fun hd => closed_exec hd hafter⟩
  refine latestTick_sense hp hi (fun j hj => hne j ?_) t ht
  rw [List.append_assoc, List.cons_append] at hj
  rcases List.mem_append.1 hj with hj | hj
  · exact List.mem_append_left _ hj
  · refine List.mem_append_right _ ?_
    rcases List.mem_cons.1 hj with hj | hj
    · exact List.mem_cons.2 (.inl hj)
    · refine List.mem_cons_of_mem _ ?_
      rw [List.map_append, List.map_cons]
      rcases List.mem_append.1 hj with hj | hj
      · exact List.mem_append_left _ hj
      · rw [List.mem_singleton.1 hj]
        exact List.mem_append_right _ List.mem_cons_self

theorem post_pump_bounded_dryRun :
    let run := [Call.update { nowMs := 1000, pumpSignal := { state := .on } }] ++
      .update { nowMs := 2000 } :: [Call.update { nowMs := 8000 }]
    let r := exec Recorder.call {} run
    r.WaitsAt 2000 (latestTick (run ++ [.update { nowMs := 9000 }])) { nowMs := 9000 } ∧
      ((r.update { nowMs := 9000 }).current.phase = .done →
        (exec Recorder.update (r.update { nowMs := 9000 }) [{ nowMs := 9500 }]).current =
          (r.update { nowMs := 9000 }).current) :=
  post_pump_bounded [.update { nowMs := 1000, pumpSignal := { state := .on } }] { nowMs := 2000 }
    [{ nowMs := 8000 }, { nowMs := 9000 }, { nowMs := 9500 }] (by decide +kernel) (by decide +kernel)
    (by decide) (by simp) [{ nowMs := 8000 }] { nowMs := 9000 } [{ nowMs := 9500 }] rfl

end Pumpbug
