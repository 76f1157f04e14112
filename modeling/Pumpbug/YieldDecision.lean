import Pumpbug.EvidenceGrowth

/-!
# The yield of a finalized record

Entering `DONE` decides the yield in sequence: the evidence of the stored samples, the endpoints, a
material step after pump-off, and an endpoint too low to be believed.  The last raw sample moves on
when the sample buffer is full.
-/

namespace Pumpbug

open Lib

/-! ## Evidence of a bounded series -/

namespace EvidencePass

/-- Without a pour there is no evidence. -/
def Unpoured (p : EvidencePass) : Prop :=
  p.evidence.hasPour = false → p.inRun = false ∧ p.evidence = {}

theorem step_of_opening {p : EvidencePass} {sample : Sample} (h : p.opening sample = true) :
    (p.step sample).evidence.hasPour = true := by
  unfold opening at h
  rw [Bool.and_eq_true, Bool.not_eq_true'] at h
  obtain ⟨hrun, hopens⟩ := h
  unfold CausalPourSample.opens at hopens
  unfold step
  revert hopens
  generalize p.classifier.update sample.tMs sample.cg = x
  obtain ⟨c, s⟩ := x
  intro hopens
  dsimp only at hopens ⊢
  rw [Bool.and_eq_true, Bool.and_eq_true] at hopens
  obtain ⟨⟨ha, hp⟩, ht⟩ := hopens
  rw [if_pos ha, @fold_outside { p with classifier := c } hrun, hp, ht, Bool.and_self, if_pos rfl]
  rfl

theorem unpoured_step {p : EvidencePass} (h : p.Unpoured) (sample : Sample) :
    (p.step sample).Unpoured := by
  rcases step_cases p sample with ⟨-, hopen, -⟩ | ⟨-, c, hstep⟩ | ⟨hrun, -, q, hq, hstep⟩
  · intro hno
    rw [step_of_opening hopen] at hno
    exact absurd hno (by decide)
  · rw [hstep]
    exact h
  · have hpour : q.evidence.hasPour = true := by
      rw [hq.evidence]
      by_contra hno
      rw [(h (Bool.eq_false_iff.2 hno)).1] at hrun
      exact Bool.false_ne_true hrun
    have hstays : (p.step sample).evidence.hasPour = true := by
      rcases hstep with hstep | hstep
      · rw [hstep]
        exact hpour
      · rw [hstep]
        exact hpour
    intro hno
    rw [hstays] at hno
    exact absurd hno (by decide)

/-- A sample books the gain of at most one run. -/
theorem booked_bound (p : EvidencePass) (sample : Sample) :
    |(p.step sample).evidence.gainCg| ≤ |p.evidence.gainCg| + 65535 := by
  have hroom : |p.evidence.gainCg| ≤ |p.evidence.gainCg| + 65535 := by omega
  rcases step_cases p sample with ⟨-, -, ho⟩ | ⟨-, c, hstep⟩ | ⟨-, -, q, hq, hstep⟩
  · rw [ho.gain]
    exact hroom
  · rw [hstep]
    exact hroom
  · rcases hstep with hstep | hstep
    · rw [hstep, hq.evidence]
      exact hroom
    · have hpeak := toInt_bounds q.peakCg
      have hstart := toInt_bounds q.startCg
      have hgain : (p.step sample).evidence.gainCg =
          p.evidence.gainCg + (q.peakCg.toInt - q.startCg.toInt) := by
        rw [hstep, ← hq.evidence]
        rfl
      have hone : |q.peakCg.toInt - q.startCg.toInt| ≤ 65535 := abs_le.2 ⟨by omega, by omega⟩
      rw [hgain]
      exact (abs_add_le _ _).trans (by omega)

theorem exec_bound (samples : List Sample) :
    (exec step {} samples).Unpoured ∧
      |(exec step {} samples).evidence.gainCg| ≤ 65535 * samples.length := by
  induction samples using List.reverseRecOn with
  | nil => exact ⟨fun _ => ⟨rfl, rfl⟩, le_rfl⟩
  | append_singleton samples sample ih =>
    rw [exec_append]
    refine ⟨unpoured_step ih.1 sample, (booked_bound _ sample).trans ?_⟩
    have := ih.2
    rw [List.length_append, List.length_singleton]
    omega

end EvidencePass

theorem evidence_unpoured {samples : List Sample}
    (h : (computePourEvidence samples).hasPour = false) : computePourEvidence samples = {} := by
  rw [EvidencePass.computePourEvidence_eq] at h ⊢
  have hnone := (EvidencePass.exec_bound samples).1
  cases hrun : (exec EvidencePass.step {} samples).inRun with
  | true =>
    rw [EvidencePass.settle_of_inRun hrun] at h
    rw [(hnone h).1] at hrun
    exact absurd hrun (by decide)
  | false =>
    rw [EvidencePass.settle_of_not_inRun hrun] at h ⊢
    exact (hnone h).2

/-- The gain of a full sample buffer fits its field. -/
theorem evidence_gain {samples : List Sample} (h : samples.length ≤ MAX_SAMPLES) :
    (i32 (computePourEvidence samples).gainCg).toInt = (computePourEvidence samples).gainCg := by
  have hbound := (EvidencePass.exec_bound samples).2
  have hfew : samples.length ≤ 768 := h
  rw [EvidencePass.computePourEvidence_eq]
  generalize exec EvidencePass.step {} samples = p at hbound
  rw [abs_le] at hbound
  cases hrun : p.inRun with
  | true =>
    rw [EvidencePass.settle_of_inRun hrun]
    show (i32 (p.evidence.gainCg + (p.peakCg.toInt - p.startCg.toInt))).toInt = _
    have hpeak := toInt_bounds p.peakCg
    have hstart := toInt_bounds p.startCg
    exact toInt_i32 (by omega) (by omega)
  | false =>
    rw [EvidencePass.settle_of_not_inRun hrun]
    exact toInt_i32 (by omega) (by omega)

/-! ## A step after pump-off -/

/-- The two samples are further apart in weight than a pour can be, and the second one comes at or
after `pumpOffMs`. -/
def StepsAfter (pumpOffMs : U32) (before s : Sample) : Prop :=
  0 ≤ (s.tMs - pumpOffMs).toInt ∧
    isNonPourStep (s.cg.toInt - before.cg.toInt) (flowDeltaMs before s) = true

/-- Two adjacent stored samples show a step at or after the last confirmed pump-off. -/
def Extraction.MovedAfterPump (e : Extraction) : Prop :=
  ∃ before s, [before, s] <:+: e.samples.items ∧ StepsAfter e.lastPumpOffConfirmedMs before s

theorem endpointScan_isSome (pumpOffMs : U32) (first : Sample) (rest : List Sample) :
    (endpointScan pumpOffMs first rest).isSome = true ↔
      ∃ before s, [before, s] <:+: first :: rest ∧ StepsAfter pumpOffMs before s := by
  induction rest generalizing first with
  | nil =>
    refine iff_of_false (by unfold endpointScan; decide) ?_
    rintro ⟨before, s, hin, -⟩
    exact absurd hin.length_le (by simp)
  | cons s rest ih =>
    have hsplit : (∃ before t, [before, t] <:+: first :: s :: rest ∧ StepsAfter pumpOffMs before t) ↔
        StepsAfter pumpOffMs first s ∨
          ∃ before t, [before, t] <:+: s :: rest ∧ StepsAfter pumpOffMs before t := by
      constructor
      · rintro ⟨before, t, hin, hstep⟩
        rcases List.infix_cons_iff.1 hin with hpre | hin
        · rw [List.cons_prefix_cons, List.cons_prefix_cons] at hpre
          obtain ⟨rfl, rfl, -⟩ := hpre
          exact .inl hstep
        · exact .inr ⟨before, t, hin, hstep⟩
      · rintro (hstep | ⟨before, t, hin, hstep⟩)
        · exact ⟨first, s, (List.prefix_append [first, s] rest).isInfix, hstep⟩
        · exact ⟨before, t, hin.trans (List.suffix_cons first _).isInfix, hstep⟩
    have hscan : endpointScan pumpOffMs first (s :: rest) =
        if (s.tMs - pumpOffMs).toInt < 0 then endpointScan pumpOffMs s rest
        else if isNonPourStep (s.cg.toInt - first.cg.toInt) (flowDeltaMs first s) then some first.cg
        else endpointScan pumpOffMs s rest := rfl
    rw [hsplit, ← ih s, hscan]
    unfold StepsAfter
    by_cases hearly : (s.tMs - pumpOffMs).toInt < 0
    · rw [if_pos hearly]
      exact ⟨.inr, fun h => h.elim (fun hstep => absurd hstep.1 (by omega)) id⟩
    · rw [if_neg hearly]
      by_cases hstep : isNonPourStep (s.cg.toInt - first.cg.toInt) (flowDeltaMs first s) = true
      · rw [if_pos hstep]
        exact iff_of_true rfl (.inl ⟨by omega, hstep⟩)
      · rw [if_neg hstep]
        exact ⟨.inr, fun h => h.elim (fun hboth => absurd hboth.2 hstep) id⟩

/-- The scan is not made for a pump-off at time 0. -/
theorem endpointBefore_isSome (e : Extraction) :
    (endpointBeforePostPumpDiscontinuity e.samples.items e.lastPumpOffConfirmedMs).isSome = true ↔
      e.lastPumpOffConfirmedMs ≠ 0 ∧ e.MovedAfterPump := by
  unfold endpointBeforePostPumpDiscontinuity Extraction.MovedAfterPump
  by_cases hzero : e.lastPumpOffConfirmedMs = 0
  · rw [if_pos hzero]
    exact iff_of_false (by decide) fun h => h.1 hzero
  · rw [if_neg hzero]
    cases hitems : e.samples.items with
    | nil =>
      refine iff_of_false Bool.false_ne_true ?_
      rintro ⟨-, before, s, hin, -⟩
      exact absurd hin.length_le (by simp)
    | cons first rest =>
      rw [endpointScan_isSome]
      exact ⟨fun h => ⟨hzero, h⟩, fun h => h.2⟩

theorem endpointScan_mem {pumpOffMs : U32} {first : Sample} {rest : List Sample} {cg : I16}
    (h : endpointScan pumpOffMs first rest = some cg) : ∃ s ∈ first :: rest, s.cg = cg := by
  induction rest generalizing first with
  | nil =>
    unfold endpointScan at h
    exact absurd h (by simp)
  | cons s rest ih =>
    have hlater (hl : endpointScan pumpOffMs s rest = some cg) :
        ∃ t ∈ first :: s :: rest, t.cg = cg := by
      obtain ⟨t, ht, hcg⟩ := ih hl
      exact ⟨t, List.mem_cons_of_mem first ht, hcg⟩
    unfold endpointScan at h
    split_ifs at h
    · exact hlater h
    · exact ⟨first, List.mem_cons_self, Option.some.inj h⟩
    · exact hlater h

theorem endpointBefore_weighed {e : Extraction} (hw : e.Weighed) {cg : I16}
    (h : endpointBeforePostPumpDiscontinuity e.samples.items e.lastPumpOffConfirmedMs = some cg) :
    cg ≠ NO_WEIGHT := by
  unfold endpointBeforePostPumpDiscontinuity at h
  unfold Extraction.Weighed at hw
  by_cases hzero : e.lastPumpOffConfirmedMs = 0
  · rw [if_pos hzero] at h
    exact absurd h (by simp)
  · rw [if_neg hzero] at h
    cases hitems : e.samples.items with
    | nil =>
      rw [hitems] at h
      exact absurd h (by simp)
    | cons first rest =>
      rw [hitems] at h hw
      obtain ⟨s, hs, rfl⟩ := endpointScan_mem h
      exact hw s hs

/-! ## The decision -/

/-- What a finalized record says of its yield, when `accepted` are the samples of the shot. -/
structure YieldDecided (e : Extraction) (accepted : List Sample) : Prop where
  none_iff : e.yieldStatus = .none ↔ (computePourEvidence e.samples.items).hasPour = false
  none_yield : e.yieldStatus = .none → e.yieldCg = if accepted = [] then NO_WEIGHT else 0
  disturbed_iff : e.yieldStatus = .disturbed ↔ isLikelyRealShot e = true ∧
    (e.lastPumpOffConfirmedMs ≠ 0 ∧ e.MovedAfterPump ∨
      4 * (saturateCg (e.settledRawCg.toInt - e.startRawCg.toInt)).toInt ≤ 3 * e.decisionGainCg.toInt)
  ok_yield : e.yieldStatus = .ok → e.yieldCg = saturateCg (e.settledRawCg.toInt - e.startRawCg.toInt)
  real_yield : isLikelyRealShot e = true → e.decisionGainCg.toInt ≤ 32767 →
    e.yieldStatus ≠ .none ∧ e.yieldCg ≠ NO_WEIGHT ∧ 0 < e.yieldCg.toInt ∧
      3 * e.decisionGainCg.toInt < 4 * e.yieldCg.toInt
  settled : e.settledRawCg = lastWeight accepted

/-- The record once the evidence and the endpoints are in, before the yield is. -/
def withEvidence (e : Extraction) (lastRawCg : I16) : Extraction :=
  let evidence := computePourEvidence e.samples.items
  { e with
    pourMs := evidence.pourMs
    decisionGainCg := i32 evidence.gainCg
    yieldStatus := if evidence.hasPour then .ok else .none
    startRawCg := if evidence.hasStartRawCg then evidence.startRawCg else lastRawCg
    settledRawCg := lastRawCg }

/-- The rest of the decision, on the record `f` with its evidence and endpoints. -/
def decideYield (f : Extraction) (realShot : Bool) (evidence : PourEvidence) : Extraction :=
  let preDiscontinuityCg :=
    if realShot && evidence.hasPour then
      endpointBeforePostPumpDiscontinuity f.samples.items f.lastPumpOffConfirmedMs
    else none
  let endpointCg := preDiscontinuityCg.getD f.settledRawCg
  let yieldCg :=
    if f.startRawCg ≠ NO_WEIGHT ∧ endpointCg ≠ NO_WEIGHT then
      saturateCg (endpointCg.toInt - f.startRawCg.toInt)
    else NO_WEIGHT
  let g := { f with
    yieldCg := yieldCg
    yieldStatus := if preDiscontinuityCg.isSome then .disturbed else f.yieldStatus }
  if realShot ∧ yieldCg ≠ NO_WEIGHT ∧ 0 < evidence.gainCg ∧
      yieldCg.toInt * MIN_CREDIBLE_ENDPOINT_GAIN_DENOMINATOR ≤
        evidence.gainCg * MIN_CREDIBLE_ENDPOINT_GAIN_NUMERATOR then
    { g with yieldCg := saturateCg g.decisionGainCg.toInt, yieldStatus := .disturbed }
  else g

theorem settleYield_eq (e : Extraction) (lastRawCg : I16) :
    settleYield e lastRawCg =
      decideYield (withEvidence e lastRawCg) (isLikelyRealShot (withEvidence e lastRawCg))
        (computePourEvidence e.samples.items) := rfl

section

variable {f : Extraction} {evidence : PourEvidence}

/-- A record that is no real shot keeps its status. -/
theorem decideYield_not_real : decideYield f false evidence = { f with
    yieldCg :=
      if f.startRawCg ≠ NO_WEIGHT ∧ f.settledRawCg ≠ NO_WEIGHT then
        saturateCg (f.settledRawCg.toInt - f.startRawCg.toInt)
      else NO_WEIGHT } := by
  unfold decideYield
  dsimp only
  rw [if_neg fun h => Bool.false_ne_true h.1, Bool.false_and, if_neg Bool.false_ne_true]
  rfl

/-- A real shot whose weights are known. -/
theorem decideYield_real (hpour : evidence.hasPour = true) {moved : Option I16}
    (hmoved : endpointBeforePostPumpDiscontinuity f.samples.items f.lastPumpOffConfirmedMs = moved)
    (hstart : f.startRawCg ≠ NO_WEIGHT) (hend : moved.getD f.settledRawCg ≠ NO_WEIGHT) :
    let yieldCg := saturateCg ((moved.getD f.settledRawCg).toInt - f.startRawCg.toInt)
    decideYield f true evidence =
      if 0 < evidence.gainCg ∧ yieldCg.toInt * 4 ≤ evidence.gainCg * 3 then
        { f with yieldCg := saturateCg f.decisionGainCg.toInt, yieldStatus := .disturbed }
      else
        { f with
          yieldCg := yieldCg
          yieldStatus := if moved.isSome then .disturbed else f.yieldStatus } := by
  intro yieldCg
  have hknown : yieldCg ≠ NO_WEIGHT := saturateCg_ne_noWeight _
  have hy : (if f.startRawCg ≠ NO_WEIGHT ∧ moved.getD f.settledRawCg ≠ NO_WEIGHT then yieldCg
      else NO_WEIGHT) = yieldCg := if_pos ⟨hstart, hend⟩
  unfold decideYield
  dsimp only
  rw [hpour, Bool.and_self, if_pos (rfl : true = true), hmoved, hy]
  by_cases hlow : 0 < evidence.gainCg ∧ yieldCg.toInt * 4 ≤ evidence.gainCg * 3
  · rw [if_pos hlow, if_pos ⟨rfl, hknown, hlow⟩]
  · rw [if_neg hlow, if_neg fun h => hlow h.2.2]

end

section

variable {e : Extraction} {accepted : List Sample} {lastRawCg : I16}

theorem lastWeight_weighed (hw : ∀ s ∈ accepted, s.cg ≠ NO_WEIGHT) (h : accepted ≠ []) :
    lastWeight accepted ≠ NO_WEIGHT := by
  unfold lastWeight
  rw [List.getLast?_eq_getLast_of_ne_nil h]
  exact hw _ (List.getLast_mem h)

/-- A pour starts from a weight that a sample has shown. -/
theorem evidence_start_weighed (hw : e.Weighed)
    (hpour : (computePourEvidence e.samples.items).hasPour = true) :
    (computePourEvidence e.samples.items).hasStartRawCg = true ∧
      (computePourEvidence e.samples.items).startRawCg ≠ NO_WEIGHT := by
  obtain ⟨hhas, hstart, hcg⟩ := computePourEvidence_start e.samples.items
  rw [hhas] at hpour
  refine ⟨hstart.trans hpour, ?_⟩
  rw [hcg hpour]
  exact (fromReadings_trackAll hw).start hpour

theorem isLikelyRealShot_iff (f : Extraction) :
    isLikelyRealShot f = true ↔ 5000 ≤ f.pourMs ∧ 1000 ≤ f.decisionGainCg.toInt := by
  unfold isLikelyRealShot
  rw [Bool.and_eq_true, decide_eq_true_eq, decide_eq_true_eq]

/-- The decision on a record without a pour. -/
theorem decided_unpoured (hw : ∀ s ∈ accepted, s.cg ≠ NO_WEIGHT)
    (hnone : (computePourEvidence e.samples.items).hasPour = false) :
    YieldDecided (settleYield e (lastWeight accepted)) accepted := by
  have hnothing := evidence_unpoured hnone
  have hreal : isLikelyRealShot (withEvidence e (lastWeight accepted)) = false := by
    unfold withEvidence isLikelyRealShot
    rw [hnothing]
    rfl
  have hstatus : (withEvidence e (lastWeight accepted)).yieldStatus = .none := by
    unfold withEvidence
    rw [hnothing]
    rfl
  have hstart : (withEvidence e (lastWeight accepted)).startRawCg = lastWeight accepted := by
    unfold withEvidence
    rw [hnothing]
    rfl
  have hsettled : (withEvidence e (lastWeight accepted)).settledRawCg = lastWeight accepted := rfl
  have hsamples : (withEvidence e (lastWeight accepted)).samples = e.samples := rfl
  rw [settleYield_eq, hreal, decideYield_not_real, hstart, hsettled]
  generalize withEvidence e (lastWeight accepted) = f at hreal hstatus hstart hsettled hsamples
  have hnot : ¬ isLikelyRealShot f = true := by
    rw [hreal]
    exact Bool.false_ne_true
  refine ⟨iff_of_true hstatus ?_, fun _ => ?_, iff_of_false ?_ fun h => hnot h.1, fun hok => ?_,
    fun h => absurd h hnot, rfl⟩
  · show (computePourEvidence f.samples.items).hasPour = false
    rw [hsamples, hnone]
  · show (if lastWeight accepted ≠ NO_WEIGHT ∧ lastWeight accepted ≠ NO_WEIGHT then _ else _) = _
    by_cases hempty : accepted = []
    · rw [if_pos hempty, hempty]
      rfl
    · have hknown := lastWeight_weighed hw hempty
      rw [if_neg hempty, if_pos ⟨hknown, hknown⟩, Int.sub_self]
      rfl
  · show f.yieldStatus ≠ .disturbed
    rw [hstatus]
    exact nofun
  · exact absurd (hstatus.symm.trans hok) nofun

/-- The decision on a record with a pour. -/
theorem decided_poured (hw : ∀ s ∈ accepted, s.cg ≠ NO_WEIGHT)
    (hstored : e.samples.items = accepted.take MAX_SAMPLES)
    (hpour : (computePourEvidence e.samples.items).hasPour = true) :
    YieldDecided (settleYield e (lastWeight accepted)) accepted := by
  have hweighed : e.Weighed := by
    intro s hs
    rw [hstored] at hs
    exact hw s (List.mem_of_mem_take hs)
  have hfew : e.samples.items.length ≤ MAX_SAMPLES := by
    rw [hstored]
    exact List.length_take_le _ _
  have hne : accepted ≠ [] := by
    rintro rfl
    rw [hstored] at hpour
    exact absurd hpour (by decide)
  obtain ⟨hhas, hstart⟩ := evidence_start_weighed hweighed hpour
  have hlast := lastWeight_weighed hw hne
  -- the record `f` with its evidence
  have hf : (withEvidence e (lastWeight accepted)).yieldStatus = .ok ∧
      (withEvidence e (lastWeight accepted)).startRawCg ≠ NO_WEIGHT ∧
      (withEvidence e (lastWeight accepted)).decisionGainCg.toInt =
        (computePourEvidence e.samples.items).gainCg := by
    unfold withEvidence
    dsimp only
    rw [hpour, hhas, if_pos rfl, if_pos rfl]
    exact ⟨rfl, hstart, evidence_gain hfew⟩
  obtain ⟨hstatus, hstart, hgain⟩ := hf
  have hsettled : (withEvidence e (lastWeight accepted)).settledRawCg = lastWeight accepted := rfl
  have hsamples : (withEvidence e (lastWeight accepted)).samples = e.samples := rfl
  have hoff : (withEvidence e (lastWeight accepted)).lastPumpOffConfirmedMs =
      e.lastPumpOffConfirmedMs := rfl
  rw [settleYield_eq]
  generalize withEvidence e (lastWeight accepted) = f at hstatus hstart hgain hsettled hsamples hoff
  have hitems : (computePourEvidence f.samples.items).hasPour = true := by
    rw [hsamples, hpour]
  have hsome : ¬ (computePourEvidence f.samples.items).hasPour = false := by
    rw [hitems]
    exact Bool.false_ne_true.symm
  cases hreal : isLikelyRealShot f with
  | false =>
    have hnot : ¬ isLikelyRealShot f = true := by
      rw [hreal]
      exact Bool.false_ne_true
    rw [decideYield_not_real]
    refine ⟨iff_of_false ?_ hsome, fun hno => ?_, iff_of_false ?_ fun h => hnot h.1, fun _ => ?_,
      fun h => absurd h hnot, hsettled⟩
    · show f.yieldStatus ≠ .none
      rw [hstatus]
      exact nofun
    · exact absurd (hstatus.symm.trans hno) nofun
    · show f.yieldStatus ≠ .disturbed
      rw [hstatus]
      exact nofun
    · exact if_pos ⟨hstart, by rw [hsettled]; exact hlast⟩
  | true =>
    have hmoved := endpointBefore_isSome f
    obtain ⟨-, hlarge⟩ := (isLikelyRealShot_iff f).1 hreal
    generalize hopt :
      endpointBeforePostPumpDiscontinuity f.samples.items f.lastPumpOffConfirmedMs = moved at hmoved
    have hend : moved.getD f.settledRawCg ≠ NO_WEIGHT := by
      cases moved with
      | none =>
        rw [Option.getD_none, hsettled]
        exact hlast
      | some cg =>
        rw [hsamples, hoff] at hopt
        exact endpointBefore_weighed hweighed hopt
    rw [decideYield_real hpour hopt hstart hend, ← hgain]
    have hyield := toInt_saturateCg ((moved.getD f.settledRawCg).toInt - f.startRawCg.toInt)
    have hsame : moved.isSome = false → moved.getD f.settledRawCg = f.settledRawCg := by
      intro hno
      rw [Option.isSome_eq_false_iff, Option.isNone_iff_eq_none] at hno
      rw [hno, Option.getD_none]
    have hpositive : 0 < f.decisionGainCg.toInt := by omega
    generalize hy : saturateCg ((moved.getD f.settledRawCg).toInt - f.startRawCg.toInt) = y at hyield
    have hown : moved.isSome = false →
        saturateCg (f.settledRawCg.toInt - f.startRawCg.toInt) = y := by
      intro hno
      rw [← hy, hsame hno]
    by_cases hlow : y.toInt * 4 ≤ f.decisionGainCg.toInt * 3
    · rw [if_pos ⟨hpositive, hlow⟩]
      refine ⟨iff_of_false nofun hsome, nofun, iff_of_true rfl ⟨hreal, ?_⟩, nofun,
        fun _ hfits => ⟨nofun, saturateCg_ne_noWeight _, ?_⟩, hsettled⟩
      · by_cases hs : moved.isSome = true
        · exact .inl (hmoved.1 hs)
        · right
          show 4 * (saturateCg (f.settledRawCg.toInt - f.startRawCg.toInt)).toInt ≤
            3 * f.decisionGainCg.toInt
          rw [hown (Bool.eq_false_iff.2 hs)]
          omega
      · show 0 < (saturateCg f.decisionGainCg.toInt).toInt ∧
          3 * f.decisionGainCg.toInt < 4 * (saturateCg f.decisionGainCg.toInt).toInt
        have hfits' : f.decisionGainCg.toInt ≤ 32767 := hfits
        rw [toInt_saturateCg]
        omega
    · rw [if_neg fun h => hlow h.2]
      have hcredible : 0 < y.toInt ∧ 3 * f.decisionGainCg.toInt < 4 * y.toInt := by omega
      have hknown : y ≠ NO_WEIGHT := by
        rw [← hy]
        exact saturateCg_ne_noWeight _
      by_cases hs : moved.isSome = true
      · rw [if_pos hs]
        exact ⟨iff_of_false nofun hsome, nofun, iff_of_true rfl ⟨hreal, .inl (hmoved.1 hs)⟩, nofun,
          fun _ _ => ⟨nofun, hknown, hcredible⟩, hsettled⟩
      · have hs' : moved.isSome = false := Bool.eq_false_iff.2 hs
        rw [if_neg hs, hstatus]
        refine ⟨iff_of_false nofun hsome, nofun, iff_of_false nofun ?_, fun _ => (hown hs').symm,
          fun _ _ => ⟨nofun, hknown, hcredible⟩, hsettled⟩
        rintro ⟨-, hstep | hclose⟩
        · exact hs (hmoved.2 hstep)
        · have hclose' : 4 * (saturateCg (f.settledRawCg.toInt - f.startRawCg.toInt)).toInt ≤
              3 * f.decisionGainCg.toInt := hclose
          rw [hown hs'] at hclose'
          omega

end

/-! ## The record that entering `DONE` publishes -/

namespace Recorder

/-- Closing a record leaves what the decision reads and writes. -/
theorem decided_closed {e : Extraction} {seen : List Sample} (h : YieldDecided e seen)
    (nowMs : U32) (cause : EndCause) :
    YieldDecided { closeRecord e nowMs cause with phase := .done } seen := by
  generalize hf : ({ closeRecord e nowMs cause with phase := .done } : Extraction) = f
  have hsamples : f.samples = e.samples := by rw [← hf]; rfl
  have hoff : f.lastPumpOffConfirmedMs = e.lastPumpOffConfirmedMs := by rw [← hf]; rfl
  have hstatus : f.yieldStatus = e.yieldStatus := by rw [← hf]; rfl
  have hyield : f.yieldCg = e.yieldCg := by rw [← hf]; rfl
  have hstart : f.startRawCg = e.startRawCg := by rw [← hf]; rfl
  have hsettled : f.settledRawCg = e.settledRawCg := by rw [← hf]; rfl
  have hpour : f.pourMs = e.pourMs := by rw [← hf]; rfl
  have hgain : f.decisionGainCg = e.decisionGainCg := by rw [← hf]; rfl
  obtain ⟨hnone, hnoneYield, hdisturbed, hok, hreal, hlast⟩ := h
  unfold Extraction.MovedAfterPump isLikelyRealShot at hdisturbed
  unfold isLikelyRealShot at hreal
  constructor
  · rw [hstatus, hsamples]
    exact hnone
  · rw [hstatus, hyield]
    exact hnoneYield
  · unfold Extraction.MovedAfterPump isLikelyRealShot
    rw [hstatus, hsamples, hoff, hstart, hsettled, hpour, hgain]
    exact hdisturbed
  · rw [hstatus, hyield, hstart, hsettled]
    exact hok
  · unfold isLikelyRealShot
    rw [hstatus, hyield, hpour, hgain]
    exact hreal
  · rw [hsettled]
    exact hlast

/-- The record that entering `DONE` publishes has the yield of its samples. -/
theorem decided_finished {r : Recorder} {seen : List (Sample × U32)} (h : Tallies r seen) (nowMs : U32)
    (cause : EndCause) : YieldDecided (r.finished nowMs cause) (seen.map Prod.fst) := by
  have hdecided (e : Extraction) (he : e.samples = r.current.samples) :
      YieldDecided (settleYield e r.lastRawCg) (seen.map Prod.fst) := by
    have hstored : e.samples.items = (seen.map Prod.fst).take MAX_SAMPLES := by
      rw [he, h.records.stored]
    rw [h.last]
    cases hpour : (computePourEvidence e.samples.items).hasPour with
    | false => exact decided_unpoured h.records.weighed hpour
    | true => exact decided_poured h.records.weighed hstored hpour
  rw [finished_eq]
  exact decided_closed
    (hdecided _ (marked_field Extraction.samples (fun _ _ _ => rfl) r nowMs cause)) nowMs cause

end Recorder

/-- **Result.** Every finalized record has the yield, and the status, of the samples of its shot. -/
theorem yield_decided (pre : List Call) (i : Recorder.Input) (cause : EndCause)
    (h : (exec Recorder.call {} pre).finalizes i = some cause) :
    let r := exec Recorder.call {} pre
    YieldDecided (r.update i).lastFinished (shotSamples pre ++ (r.acceptedSample i).toList) := by
  intro r
  have hw : r.current.inPumpWindow = true :=
    Extraction.inPumpWindow_iff.2 (Or.inr (Recorder.phase_of_finalizes h))
  obtain ⟨hnone, -⟩ | ⟨cause', -, hlast, -⟩ := r.update_publishes i
  · rw [show r.finalizes i = some cause from h] at hnone
    exact absurd hnone nofun
  · have htallies := Recorder.tallies_sense ((Recorder.tallied_exec pre).window hw) i
    have hsamples : ((exec noteAccepted ({}, []) pre).2 ++
        ((r.acceptedSample i).map fun s => (s, i.nowMs)).toList).map Prod.fst =
          shotSamples pre ++ (r.acceptedSample i).toList := by
      rw [List.map_append]
      cases r.acceptedSample i <;> rfl
    rw [hlast, ← hsamples]
    exact Recorder.decided_finished htallies i.nowMs cause'

/-- The `k`th tick of a shot whose thirtieth falls on time 0, with a reading of `cg` centigrams. -/
def wrapTick (k : ℕ) (cg : ℤ) : Call :=
  let nowMs : U32 := BitVec.ofInt 32 (300 * (k : ℤ) - 9000)
  .update { nowMs := nowMs, pumpSignal := { state := if k < 30 then .on else .off },
            scale := { present := true, grams := some (cg / 100), timestampMs := nowMs - 1 } }

/-- A pour of 12 g in 6 s; the pump is confirmed off at time 0, and 7 g are put on the scale right
after. -/
def wrapShot : List Call :=
  (List.range 10).map (fun k => wrapTick k 0) ++
    (List.range 20).map (fun k => wrapTick (10 + k) (60 + 60 * k)) ++
    [wrapTick 30 1200, wrapTick 31 1900]

theorem yield_decided_wrapShot :
    YieldDecided ((exec Recorder.call {} wrapShot).update { nowMs := 6000 }).lastFinished
      (shotSamples wrapShot ++
        ((exec Recorder.call {} wrapShot).acceptedSample { nowMs := 6000 }).toList) :=
  yield_decided wrapShot { nowMs := 6000 } .timeout (by decide +kernel)

/-- A pump-off at time 0 is taken for none: the step goes unseen, and the record counts as
undisturbed. -/
theorem not_disturbed_wrapShot : ¬ ∀ (pre : List Call) (i : Recorder.Input) (cause : EndCause),
    (exec Recorder.call {} pre).finalizes i = some cause →
      let e := ((exec Recorder.call {} pre).update i).lastFinished
      e.yieldStatus = .disturbed ↔ isLikelyRealShot e = true ∧
        (e.MovedAfterPump ∨
          4 * (saturateCg (e.settledRawCg.toInt - e.startRawCg.toInt)).toInt ≤
            3 * e.decisionGainCg.toInt) := by
  intro h
  have hdone : (exec Recorder.call {} wrapShot).finalizes { nowMs := 6000 } = some .timeout := by
    decide +kernel
  have hiff := h wrapShot { nowMs := 6000 } .timeout hdone
  dsimp only at hiff
  generalize he : ((exec Recorder.call {} wrapShot).update { nowMs := 6000 }).lastFinished = e at hiff
  have hok : e.yieldStatus = .ok ∧ isLikelyRealShot e = true ∧ e.lastPumpOffConfirmedMs = 0 ∧
      e.samples.items.drop 29 = [⟨4294967295, 1200, ScaleTime.UNKNOWN_MS⟩,
        ⟨299, 1900, ScaleTime.UNKNOWN_MS⟩] := by
    rw [← he]
    decide +kernel
  obtain ⟨hstatus, hreal, hoff, hitems⟩ := hok
  have hmoved : e.MovedAfterPump := by
    refine ⟨_, _, hitems ▸ (List.drop_suffix 29 _).isInfix, ?_⟩
    unfold StepsAfter
    rw [hoff]
    decide +kernel
  exact absurd (hstatus.symm.trans (hiff.2 ⟨hreal, .inl hmoved⟩)) nofun

end Pumpbug
