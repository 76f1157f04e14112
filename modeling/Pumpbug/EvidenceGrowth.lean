import Pumpbug.Lib.Run
import Pumpbug.PourAgreement

/-!
# Evidence over more samples

The shot-end pass over a series, compared with the pass over its prefixes.  A prefix closes the run
that is open at its end; what it books for that run is what the run has earned so far.
-/

namespace Pumpbug

open Lib Lib.Clock

/-- Times that increase from the first sample on, less than one turn of the clock apart. -/
def IncreasingTimes : List Sample → Prop
  | [] => True
  | first :: rest => (first :: rest).Pairwise fun a b => since first.tMs a.tMs < since first.tMs b.tMs

instance : DecidablePred IncreasingTimes
  | [] => isTrue trivial
  | first :: rest => inferInstanceAs (Decidable ((first :: rest).Pairwise _))

namespace EvidencePass

/-- The evidence if the series ends here. -/
def settle (p : EvidencePass) : PourEvidence := (if p.inRun then p.closeRun else p).evidence

theorem computePourEvidence_eq (samples : List Sample) :
    computePourEvidence samples = (exec step {} samples).settle := rfl

/-- The gain of every run, in the order in which the runs are closed. -/
def bookedGains : EvidencePass → List Sample → List ℤ
  | p, [] => if p.inRun then [p.peakCg.toInt - p.startCg.toInt] else []
  | p, sample :: samples =>
    if p.inRun && !(p.step sample).inRun then
      ((p.step sample).evidence.gainCg - p.evidence.gainCg) :: bookedGains (p.step sample) samples
    else bookedGains (p.step sample) samples

/-! ## One sample -/

theorem settle_of_inRun {p : EvidencePass} (h : p.inRun = true) :
    p.settle = p.closeRun.evidence := by
  unfold settle; rw [if_pos h]

theorem settle_of_not_inRun {p : EvidencePass} (h : p.inRun = false) : p.settle = p.evidence := by
  unfold settle; rw [if_neg (by rw [h]; decide)]

theorem settle_classifier (p : EvidencePass) (c : CausalPourClassifier) :
    settle { p with classifier := c } = p.settle := by
  unfold settle
  split_ifs <;> rfl

/-- A run opens at this sample. -/
structure OpensAt (p q : EvidencePass) (sample : Sample) (startCg : I16) : Prop where
  inRun : q.inRun = true
  gain : q.evidence.gainCg = p.evidence.gainCg
  pourMs : q.evidence.pourMs = p.evidence.pourMs
  startMs : q.startMs = sample.tMs
  activeEndMs : q.activeEndMs = sample.tMs
  startCg : q.startCg = startCg
  peakCg : q.peakCg = sample.cg

/-- The run goes on at this sample. -/
structure Extends (p q : EvidencePass) (tMs : U32) : Prop where
  inRun : q.inRun = true
  evidence : q.evidence = p.evidence
  startMs : q.startMs = p.startMs
  startCg : q.startCg = p.startCg
  activeEndMs : q.activeEndMs = p.activeEndMs ∨ q.activeEndMs = tMs
  peakCg : p.peakCg.toInt ≤ q.peakCg.toInt

theorem extends_liftPeak {p : EvidencePass} (h : p.inRun = true) (s : CausalPourSample) :
    Extends p (p.liftPeak s) s.tMs := by
  unfold liftPeak
  by_cases hlift : (s.trustedStep && p.peakCg.toInt < s.rawCg.toInt) = true
  · rw [if_pos hlift]
    rw [Bool.and_eq_true, decide_eq_true_eq] at hlift
    exact ⟨h, rfl, rfl, rfl, .inl rfl, hlift.2.le⟩
  · rw [if_neg hlift]
    exact ⟨h, rfl, rfl, rfl, .inl rfl, le_rfl⟩

theorem Extends.counts {p q : EvidencePass} {tMs : U32} (h : Extends p q tMs) (outRun settleRun : ℕ) :
    Extends p { q with outRun := outRun, settleRun := settleRun } tMs :=
  ⟨h.inRun, h.evidence, h.startMs, h.startCg, h.activeEndMs, h.peakCg⟩

/-- A sample inside a run extends the run, and may close it. -/
theorem fold_inRun {p : EvidencePass} (h : p.inRun = true) (s : CausalPourSample) :
    ∃ q, Extends p q s.tMs ∧ (p.fold s = q ∨ p.fold s = q.closeRun) := by
  have hsame : Extends p p s.tMs := ⟨h, rfl, rfl, rfl, .inl rfl, le_rfl⟩
  have hlift := extends_liftPeak h s
  unfold fold
  rw [if_neg (by rw [h]; decide)]
  by_cases hp : isPourBand s.band = true
  · rw [if_pos hp]
    have hend := @extends_liftPeak { p with activeEndMs := s.tMs } h s
    have hmoved : Extends p (liftPeak { p with activeEndMs := s.tMs } s) s.tMs :=
      ⟨hend.inRun, hend.evidence, hend.startMs, hend.startCg, .inr (hend.activeEndMs.elim id id),
        hend.peakCg⟩
    exact ⟨_, hmoved.counts 0 0, .inl rfl⟩
  · rw [if_neg hp]
    by_cases hb : isRunBreakBand s.band = true
    · rw [if_pos hb]
      refine ⟨_, hsame.counts (p.outRun + 1) 0, ?_⟩
      dsimp only
      split_ifs
      · exact .inr rfl
      · exact .inl rfl
    · rw [if_neg hb]
      dsimp only
      by_cases hs : isSettledBand s.band = true
      · rw [if_pos hs]
        refine ⟨_, hlift.counts 0 ((p.liftPeak s).settleRun + 1), ?_⟩
        split_ifs
        · exact .inr rfl
        · exact .inl rfl
      · rw [if_neg hs]
        exact ⟨_, hlift.counts 0 0, .inl rfl⟩

/-- The sample opens a run. -/
def opening (p : EvidencePass) (sample : Sample) : Bool :=
  !p.inRun && (p.classifier.update sample.tMs sample.cg).2.opens

/-- A run that opens at this sample starts no higher than the sample. -/
def OpensAbove (p : EvidencePass) (sample : Sample) : Prop :=
  p.opening sample = true →
    (p.classifier.update sample.tMs sample.cg).2.pourStartCandidateCg.toInt ≤ sample.cg.toInt

instance (p : EvidencePass) (sample : Sample) : Decidable (p.OpensAbove sample) :=
  inferInstanceAs (Decidable (_ → _))

/-- The sample as the classifier hands it on. -/
theorem classified (c : CausalPourClassifier) (tMs : U32) (cg : I16) :
    (c.update tMs cg).2.tMs = tMs ∧ (c.update tMs cg).2.rawCg = cg ∧
      (c.update tMs cg).1.haveLast = true ∧ (c.update tMs cg).1.lastTMs = tMs := by
  unfold CausalPourClassifier.update
  by_cases h : (c.haveLast && decide (tMs = c.lastTMs)) = true
  · rw [if_pos h]
    rw [Bool.and_eq_true, decide_eq_true_eq] at h
    exact ⟨rfl, rfl, h.1, h.2.symm⟩
  · rw [if_neg h]
    exact ⟨rfl, rfl, rfl, rfl⟩

/-- **Step lemma.** A sample opens a run, is passed over, or extends the open run and may close
it. -/
theorem step_cases (p : EvidencePass) (sample : Sample) :
    (p.inRun = false ∧ p.opening sample = true ∧ OpensAt p (p.step sample) sample
      (p.classifier.update sample.tMs sample.cg).2.pourStartCandidateCg) ∨
    (p.opening sample = false ∧ ∃ c, p.step sample = { p with classifier := c }) ∨
    (p.inRun = true ∧ p.opening sample = false ∧
      ∃ q, Extends p q sample.tMs ∧ (p.step sample = q ∨ p.step sample = q.closeRun)) := by
  obtain ⟨ht, hcg, -, -⟩ := classified p.classifier sample.tMs sample.cg
  unfold step opening CausalPourSample.opens
  revert ht hcg
  generalize p.classifier.update sample.tMs sample.cg = x
  obtain ⟨c, s⟩ := x
  dsimp only
  intro ht hcg
  by_cases ha : s.accepted = true
  · rw [if_pos ha, ha, Bool.true_and]
    by_cases hrun : p.inRun = true
    · obtain ⟨q, hq, hstep⟩ := @fold_inRun { p with classifier := c } hrun s
      rw [ht] at hq
      refine .inr (.inr ⟨hrun, by rw [hrun]; rfl, q, ?_, hstep⟩)
      exact ⟨hq.inRun, hq.evidence, hq.startMs, hq.startCg, hq.activeEndMs, hq.peakCg⟩
    · have hrun' : p.inRun = false := Bool.eq_false_iff.2 hrun
      rw [@fold_outside { p with classifier := c } hrun', hrun', Bool.not_false, Bool.true_and]
      by_cases ho : (isPourBand s.band && s.trustedStep) = true
      · rw [if_pos ho]
        exact .inl ⟨rfl, ho, ⟨rfl, rfl, rfl, ht, ht, rfl, hcg⟩⟩
      · rw [if_neg ho]
        exact .inr (.inl ⟨Bool.eq_false_iff.2 ho, c, rfl⟩)
  · rw [if_neg ha, Bool.eq_false_iff.2 ha]
    exact .inr (.inl ⟨by simp, c, rfl⟩)

theorem step_classifier (p : EvidencePass) (sample : Sample) :
    (p.step sample).classifier = (p.classifier.update sample.tMs sample.cg).1 := by
  unfold step
  generalize p.classifier.update sample.tMs sample.cg = x
  obtain ⟨c, s⟩ := x
  dsimp only
  split_ifs
  · by_cases hrun : p.inRun = true
    · exact (keepsStart_fold (p := { p with classifier := c }) hrun s).classifier
    · rw [@fold_outside { p with classifier := c } (Bool.eq_false_iff.2 hrun)]
      split_ifs <;> rfl
  · rfl

/-! ## Time -/

/-- The time of the last sample, from `t0` on. -/
def now (t0 : U32) (p : EvidencePass) : ℕ :=
  if p.classifier.haveLast then since t0 p.classifier.lastTMs else 0

theorem now_step (t0 : U32) (p : EvidencePass) (sample : Sample) :
    (p.step sample).now t0 = since t0 sample.tMs := by
  obtain ⟨-, -, hhave, hlast⟩ := classified p.classifier sample.tMs sample.cg
  unfold now
  rw [step_classifier, hhave, hlast, if_pos rfl]

/-- Booked time lies before the open run, and the run before the last sample. -/
structure Timed (t0 : U32) (p : EvidencePass) : Prop where
  booked : p.inRun = false → p.evidence.pourMs.toNat ≤ p.now t0
  start : p.inRun = true → p.evidence.pourMs.toNat ≤ since t0 p.startMs
  run : p.inRun = true → since t0 p.startMs ≤ since t0 p.activeEndMs
  ended : p.inRun = true → since t0 p.activeEndMs ≤ p.now t0

theorem timed_init (t0 : U32) : Timed t0 {} :=
  ⟨fun _ => Nat.zero_le _, fun h => absurd h (by decide), fun h => absurd h (by decide),
    fun h => absurd h (by decide)⟩

/-- What an open run adds when it is closed. -/
theorem toNat_closed {t0 : U32} {q : EvidencePass}
    (hstart : q.evidence.pourMs.toNat ≤ since t0 q.startMs)
    (hrun : since t0 q.startMs ≤ since t0 q.activeEndMs) :
    q.closeRun.evidence.pourMs.toNat =
      q.evidence.pourMs.toNat + (since t0 q.activeEndMs - since t0 q.startMs) := by
  have hlt := since_lt t0 q.activeEndMs
  have hdur : (q.activeEndMs - q.startMs).toNat = since t0 q.activeEndMs - since t0 q.startMs :=
    since_of_le hrun
  show (q.evidence.pourMs + (q.activeEndMs - q.startMs)).toNat = _
  rw [BitVec.toNat_add, hdur, Nat.mod_eq_of_lt (by omega)]

/-- The evidence so far spans no more time than the samples. -/
theorem settle_pourMs_le {t0 : U32} {p : EvidencePass} (h : Timed t0 p) :
    p.settle.pourMs.toNat ≤ p.now t0 := by
  by_cases hr : p.inRun = true
  · have hstart := h.start hr
    have hrun := h.run hr
    have hended := h.ended hr
    rw [settle_of_inRun hr, toNat_closed hstart hrun]
    omega
  · rw [settle_of_not_inRun (Bool.eq_false_iff.2 hr)]
    exact h.booked (Bool.eq_false_iff.2 hr)

/-- An open run stays timed when it goes on. -/
theorem timed_extends {t0 : U32} {p q : EvidencePass} {tMs : U32} (h : Timed t0 p)
    (hrun : p.inRun = true) (hq : Extends p q tMs) (hs : p.now t0 ≤ since t0 tMs) :
    q.evidence.pourMs.toNat ≤ since t0 q.startMs ∧ since t0 q.startMs ≤ since t0 q.activeEndMs ∧
      since t0 q.activeEndMs ≤ since t0 tMs ∧ since t0 p.activeEndMs ≤ since t0 q.activeEndMs := by
  have hended := (h.ended hrun).trans hs
  have hlen := h.run hrun
  rw [hq.evidence, hq.startMs]
  rcases hq.activeEndMs with he | he
  · rw [he]
    exact ⟨h.start hrun, hlen, hended, le_rfl⟩
  · rw [he]
    exact ⟨h.start hrun, hlen.trans hended, le_rfl, hended⟩

/-- **Time.** A sample that comes no earlier than the last takes nothing from the evidence's
time. -/
theorem timed_step {t0 : U32} {p : EvidencePass} (h : Timed t0 p) {sample : Sample}
    (hs : p.now t0 ≤ since t0 sample.tMs) :
    Timed t0 (p.step sample) ∧ p.settle.pourMs.toNat ≤ (p.step sample).settle.pourMs.toNat := by
  have hnow := now_step t0 p sample
  have hle := settle_pourMs_le h
  rcases step_cases p sample with ⟨hrun, -, ho⟩ | ⟨-, c, hstep⟩ | ⟨hrun, -, q, hq, hstep⟩
  · have hstart : (p.step sample).evidence.pourMs.toNat ≤ since t0 sample.tMs := by
      rw [ho.pourMs]
      rw [settle_of_not_inRun hrun] at hle
      exact hle.trans hs
    refine ⟨⟨fun hno => absurd ho.inRun (by rw [hno]; decide), fun _ => ?_, fun _ => ?_, fun _ => ?_⟩, ?_⟩
    · rw [ho.startMs]; exact hstart
    · rw [ho.startMs, ho.activeEndMs]
    · rw [ho.activeEndMs, hnow]
    · rw [settle_of_not_inRun hrun, settle_of_inRun ho.inRun]
      show _ ≤ (_ + ((p.step sample).activeEndMs - (p.step sample).startMs)).toNat
      rw [ho.activeEndMs, ho.startMs, ho.pourMs, BitVec.sub_self, BitVec.add_zero]
  · rw [hstep] at hnow ⊢
    exact ⟨⟨fun hno => by rw [hnow]; exact (h.booked hno).trans hs, h.start, h.run,
      fun hr => by rw [hnow]; exact (h.ended hr).trans hs⟩, by rw [settle_classifier p c]⟩
  · obtain ⟨h₁, h₂, h₃, h₄⟩ := timed_extends h hrun hq hs
    have hclosed := toNat_closed (h.start hrun) (h.run hrun)
    have hclosed' := toNat_closed h₁ h₂
    have hgrows : p.closeRun.evidence.pourMs.toNat ≤ q.closeRun.evidence.pourMs.toNat := by
      rw [hclosed, hclosed', hq.evidence, hq.startMs]
      omega
    have hbooked : q.closeRun.evidence.pourMs.toNat ≤ since t0 sample.tMs := by
      rw [hclosed']
      omega
    rw [settle_of_inRun hrun]
    rcases hstep with hstep | hstep
    · rw [hstep] at hnow ⊢
      rw [settle_of_inRun hq.inRun]
      exact ⟨⟨fun hno => absurd hq.inRun (by rw [hno]; decide), fun _ => h₁, fun _ => h₂,
        fun _ => by rw [hnow]; exact h₃⟩, hgrows⟩
    · rw [hstep] at hnow ⊢
      rw [settle_of_not_inRun rfl]
      exact ⟨⟨fun _ => by rw [hnow]; exact hbooked, fun hr => absurd hr (by simp [closeRun]),
        fun hr => absurd hr (by simp [closeRun]), fun hr => absurd hr (by simp [closeRun])⟩, hgrows⟩

/-! ## Gain -/

/-- Every open run has reached its start. -/
def Reached (p : EvidencePass) : Prop := p.inRun = true → p.startCg.toInt ≤ p.peakCg.toInt

/-- What a sample adds to the gain: at an opening the weight over the start, else never less than
nothing. -/
theorem gain_step (p : EvidencePass) (sample : Sample) :
    (p.opening sample = true ∧ (p.step sample).settle.gainCg = p.settle.gainCg + (sample.cg.toInt -
      (p.classifier.update sample.tMs sample.cg).2.pourStartCandidateCg.toInt)) ∨
    (p.opening sample = false ∧ p.settle.gainCg ≤ (p.step sample).settle.gainCg) := by
  rcases step_cases p sample with ⟨hrun, hopen, ho⟩ | ⟨hno, c, hstep⟩ | ⟨hrun, hno, q, hq, hstep⟩
  · refine .inl ⟨hopen, ?_⟩
    rw [settle_of_inRun ho.inRun, settle_of_not_inRun hrun]
    show (p.step sample).evidence.gainCg + ((p.step sample).peakCg.toInt - _) = _
    rw [ho.gain, ho.peakCg, ho.startCg]
  · refine .inr ⟨hno, ?_⟩
    rw [hstep, settle_classifier p c]
  · refine .inr ⟨hno, ?_⟩
    have hpeak := hq.peakCg
    have hgrows : p.closeRun.evidence.gainCg ≤ q.closeRun.evidence.gainCg := by
      show p.evidence.gainCg + (_ - _) ≤ q.evidence.gainCg + (_ - _)
      rw [hq.evidence, hq.startCg]
      omega
    rw [settle_of_inRun hrun]
    rcases hstep with hstep | hstep
    · rw [hstep, settle_of_inRun hq.inRun]
      exact hgrows
    · rw [hstep, settle_of_not_inRun rfl]
      exact hgrows

theorem gain_le_step {p : EvidencePass} {sample : Sample} (h : p.OpensAbove sample) :
    p.settle.gainCg ≤ (p.step sample).settle.gainCg := by
  rcases gain_step p sample with ⟨hopen, hgain⟩ | ⟨-, hle⟩
  · have := h hopen
    rw [hgain]
    omega
  · exact hle

theorem reached_step {p : EvidencePass} {sample : Sample} (hr : p.Reached)
    (h : p.OpensAbove sample) : (p.step sample).Reached := by
  intro hrun'
  rcases step_cases p sample with ⟨-, hopen, ho⟩ | ⟨-, c, hstep⟩ | ⟨hrun, -, q, hq, hstep⟩
  · rw [ho.startCg, ho.peakCg]
    exact h hopen
  · rw [hstep] at hrun' ⊢
    exact hr hrun'
  · rcases hstep with hstep | hstep
    · rw [hstep, hq.startCg]
      exact (hr hrun).trans hq.peakCg
    · rw [hstep] at hrun'
      exact absurd hrun' (by simp [closeRun])

/-- The gain of a run that the sample closes. -/
theorem booked_step {p : EvidencePass} {sample : Sample} (hr : p.Reached) (hrun : p.inRun = true)
    (hclosed : (p.step sample).inRun = false) :
    0 ≤ (p.step sample).evidence.gainCg - p.evidence.gainCg := by
  rcases step_cases p sample with ⟨hno, -, -⟩ | ⟨-, c, hstep⟩ | ⟨-, -, q, hq, hstep⟩
  · rw [hno] at hrun
    exact absurd hrun (by decide)
  · rw [hstep]
    show 0 ≤ p.evidence.gainCg - p.evidence.gainCg
    omega
  · rcases hstep with hstep | hstep
    · rw [hstep, hq.inRun] at hclosed
      exact absurd hclosed (by decide)
    · have hpeak := (hr hrun).trans hq.peakCg
      rw [hstep]
      show 0 ≤ q.evidence.gainCg + (q.peakCg.toInt - q.startCg.toInt) - p.evidence.gainCg
      rw [hq.evidence, hq.startCg]
      omega

theorem bookedGains_nonneg {p : EvidencePass} {samples : List Sample} (hr : p.Reached)
    (h : Along step OpensAbove p samples) : ∀ gain ∈ bookedGains p samples, 0 ≤ gain := by
  induction samples generalizing p with
  | nil =>
    intro gain hgain
    unfold bookedGains at hgain
    split_ifs at hgain with hrun
    · obtain rfl := List.mem_singleton.1 hgain
      have := hr hrun
      omega
    · exact absurd hgain (by simp)
  | cons sample samples ih =>
    have htail := ih (reached_step hr h.1) h.2
    intro gain hgain
    unfold bookedGains at hgain
    split_ifs at hgain with hclose
    · rw [Bool.and_eq_true, Bool.not_eq_true'] at hclose
      rcases List.mem_cons.1 hgain with rfl | hgain
      · exact booked_step hr hclose.1 hclose.2
      · exact htail gain hgain
    · exact htail gain hgain

/-- The totals are the booked gains. -/
theorem settle_gain_eq (p : EvidencePass) (samples : List Sample) :
    (exec step p samples).settle.gainCg = p.evidence.gainCg + (bookedGains p samples).sum := by
  induction samples generalizing p with
  | nil =>
    unfold bookedGains
    rw [exec_nil]
    split_ifs with hrun
    · rw [settle_of_inRun hrun, List.sum_singleton]
      rfl
    · rw [settle_of_not_inRun (Bool.eq_false_iff.2 hrun), List.sum_nil, Int.add_zero]
  | cons sample samples ih =>
    rw [exec_cons, ih, bookedGains]
    split_ifs with hclose
    · rw [List.sum_cons]
      omega
    · have hsame : (p.step sample).evidence.gainCg = p.evidence.gainCg := by
        rcases step_cases p sample with ⟨-, -, ho⟩ | ⟨-, c, hstep⟩ | ⟨hrun, -, q, hq, hstep⟩
        · exact ho.gain
        · rw [hstep]
        · rcases hstep with hstep | hstep
          · rw [hstep, hq.evidence]
          · rw [hrun, hstep] at hclose
            exact absurd rfl hclose
      rw [hsame]

/-! ## Runs -/

/-- Each sample comes no earlier than the one before it. -/
def Timely (t0 : U32) (p : EvidencePass) (sample : Sample) : Prop := p.now t0 ≤ since t0 sample.tMs

theorem along_timely {t0 : U32} {p : EvidencePass} {samples : List Sample}
    (hp : ∀ sample ∈ samples, p.now t0 ≤ since t0 sample.tMs)
    (h : samples.Pairwise fun a b => since t0 a.tMs < since t0 b.tMs) :
    Along step (Timely t0) p samples := by
  induction samples generalizing p with
  | nil => exact along_nil _
  | cons sample samples ih =>
    obtain ⟨hlater, hrest⟩ := List.pairwise_cons.1 h
    refine ⟨hp sample List.mem_cons_self, ih (fun s hs => ?_) hrest⟩
    rw [now_step]
    exact (hlater s hs).le

/-- The evidence of a longer series has at least the time. -/
theorem pourMs_le_exec {t0 : U32} {p : EvidencePass} {samples : List Sample} (hp : Timed t0 p)
    (h : Along step (Timely t0) p samples) :
    p.settle.pourMs.toNat ≤ (exec step p samples).settle.pourMs.toNat := by
  induction samples generalizing p with
  | nil => exact le_rfl
  | cons sample samples ih =>
    obtain ⟨hp', hle⟩ := timed_step hp h.1
    exact hle.trans (ih hp' h.2)

theorem gain_le_exec {p : EvidencePass} {samples : List Sample}
    (h : Along step OpensAbove p samples) :
    p.settle.gainCg ≤ (exec step p samples).settle.gainCg := by
  induction samples generalizing p with
  | nil => exact le_rfl
  | cons sample samples ih => exact (gain_le_step h.1).trans (ih h.2)

/-- A time that increases from the first sample on never goes back. -/
theorem timely_series {first : Sample} {rest : List Sample}
    (h : IncreasingTimes (first :: rest)) :
    Along step (Timely first.tMs) {} (first :: rest) :=
  along_timely (fun _ _ => Nat.zero_le _) h

theorem timed_exec {t0 : U32} {samples : List Sample} (h : Along step (Timely t0) {} samples) :
    Timed t0 (exec step {} samples) :=
  h.exec_invariant (Timed t0) (fun _ _ hp hs => (timed_step hp hs).1) (timed_init t0)

end EvidencePass

/-! ## The series and its prefixes -/

open EvidencePass

/-- What the evidence of a series keeps when the series goes on. -/
structure KeepsPour (e e' : PourEvidence) : Prop where
  pourMs : e.pourMs.toNat ≤ e'.pourMs.toNat
  hasPour : e.hasPour = true → e'.hasPour = true
  hasStart : e.hasStartRawCg = true → e'.hasStartRawCg = true
  startRawCg : e.hasStartRawCg = true → e'.startRawCg = e.startRawCg

/-- Over its prefixes, the series only ever credits coffee. -/
structure CreditsCoffee (samples : List Sample) : Prop where
  /-- No run is booked with a loss, also where a prefix ends. -/
  booked : ∀ l, l <+: samples → ∀ gain ∈ bookedGains {} l, 0 ≤ gain
  /-- The gain grows with the series. -/
  gain : ∀ l l', l <+: l' → l' <+: samples →
    (computePourEvidence l).gainCg ≤ (computePourEvidence l').gainCg
  keeps : ∀ l l', l <+: l' → l' <+: samples →
    KeepsPour (computePourEvidence l) (computePourEvidence l')
  /-- The evidence spans no more time than the samples. -/
  span : ∀ first rest, first :: rest <+: samples → (computePourEvidence (first :: rest)).pourMs.toNat ≤
    since first.tMs ((first :: rest).getLast (List.cons_ne_nil first rest)).tMs

theorem increasingTimes_initial {l samples : List Sample} (hl : l <+: samples)
    (h : IncreasingTimes samples) : IncreasingTimes l := by
  obtain ⟨more, rfl⟩ := hl
  cases l with
  | nil => exact trivial
  | cons first rest =>
    have hpairwise : (first :: rest ++ more).Pairwise fun a b =>
        since first.tMs a.tMs < since first.tMs b.tMs := h
    exact (List.pairwise_append.1 hpairwise).1

theorem pourMs_le_longer {l l' : List Sample} (h : IncreasingTimes l') (hl : l <+: l') :
    (computePourEvidence l).pourMs.toNat ≤ (computePourEvidence l').pourMs.toNat := by
  cases l' with
  | nil => rw [List.prefix_nil.1 hl]
  | cons first rest =>
    have halong := timely_series h
    obtain ⟨more, hmore⟩ := hl
    rw [computePourEvidence_eq, computePourEvidence_eq, ← hmore, exec_append]
    rw [← hmore, along_append] at halong
    exact pourMs_le_exec (timed_exec halong.1) halong.2

theorem keepsPour_longer {l l' : List Sample} (h : IncreasingTimes l') (hl : l <+: l') :
    KeepsPour (computePourEvidence l) (computePourEvidence l') := by
  obtain ⟨hpour, hstart, hweight⟩ := computePourEvidence_start l
  obtain ⟨hpour', hstart', hweight'⟩ := computePourEvidence_start l'
  refine ⟨pourMs_le_longer h hl, fun hh => ?_, fun hh => ?_, fun hh => ?_⟩
  · rw [hpour] at hh
    rw [hpour']
    exact ( trackAll_prefix hl hh).1
  · rw [hstart] at hh
    rw [hstart']
    exact ( trackAll_prefix hl hh).1
  · rw [hstart] at hh
    obtain ⟨hh', hsame⟩ := trackAll_prefix hl hh
    rw [hweight' hh', hweight hh, hsame]

/-- The last sample is the last that the pass has seen. -/
theorem now_exec (t0 : U32) (p : EvidencePass) {samples : List Sample} (h : samples ≠ []) :
    (exec EvidencePass.step p samples).now t0 = since t0 (samples.getLast h).tMs := by
  induction samples using List.reverseRecOn with
  | nil => exact absurd rfl h
  | append_singleton pre sample ih =>
    rw [exec_append, exec_cons, exec_nil, now_step, List.getLast_append_singleton]

theorem pourMs_le_span {first : Sample} {rest : List Sample} (h : IncreasingTimes (first :: rest)) :
    (computePourEvidence (first :: rest)).pourMs.toNat ≤
      since first.tMs ((first :: rest).getLast (List.cons_ne_nil first rest)).tMs := by
  have hle := settle_pourMs_le (timed_exec (timely_series h))
  rwa [now_exec first.tMs {} (List.cons_ne_nil first rest)] at hle

/-- A run that opens below its start is a loss at that sample. -/
theorem opensAbove_of_gain {samples : List Sample}
    (h : ∀ l l', l <+: l' → l' <+: samples →
      (computePourEvidence l).gainCg ≤ (computePourEvidence l').gainCg) :
    Along EvidencePass.step OpensAbove {} samples := by
  rw [along_iff_forall_split]
  rintro pre sample post rfl hopen
  have hle := h pre (pre ++ [sample]) (List.prefix_append _ _) ⟨post, by simp⟩
  rw [computePourEvidence_eq, computePourEvidence_eq, exec_append, exec_cons, exec_nil] at hle
  rcases gain_step (exec EvidencePass.step {} pre) sample with ⟨-, hgain⟩ | ⟨hno, -⟩
  · rw [hgain] at hle
    omega
  · rw [hno] at hopen
    exact absurd hopen (by decide)

theorem gain_of_opensAbove {samples l l' : List Sample}
    (h : Along EvidencePass.step OpensAbove {} samples) (hl : l <+: l') (hl' : l' <+: samples) :
    (computePourEvidence l).gainCg ≤ (computePourEvidence l').gainCg := by
  obtain ⟨more, rfl⟩ := hl
  obtain ⟨rest, rfl⟩ := hl'
  rw [computePourEvidence_eq, computePourEvidence_eq, exec_append]
  exact gain_le_exec (along_append.1 (along_append.1 h).1).2

theorem booked_of_opensAbove {samples l : List Sample}
    (h : Along EvidencePass.step OpensAbove {} samples) (hl : l <+: samples) :
    ∀ gain ∈ bookedGains {} l, 0 ≤ gain := by
  obtain ⟨rest, rfl⟩ := hl
  have hreached : Reached {} := fun hr => absurd hr (by decide)
  exact bookedGains_nonneg hreached (along_append.1 h).1

/-- **Evidence grows with the series.** The time, the pour and its start always do, and the time
stays within the series'; the gain does, and no run is booked with a loss, if and only if every run
opens at a sample that weighs at least the start it opens against. -/
theorem creditsCoffee_iff (samples : List Sample) (h : IncreasingTimes samples) :
    (∀ l l', l <+: l' → l' <+: samples →
      KeepsPour (computePourEvidence l) (computePourEvidence l')) ∧
    (∀ first rest, first :: rest <+: samples →
      (computePourEvidence (first :: rest)).pourMs.toNat ≤
        since first.tMs ((first :: rest).getLast (List.cons_ne_nil first rest)).tMs) ∧
    (CreditsCoffee samples ↔ Along EvidencePass.step OpensAbove {} samples) := by
  have hkeeps : ∀ l l', l <+: l' → l' <+: samples →
      KeepsPour (computePourEvidence l) (computePourEvidence l') :=
    fun l l' hl hl' => keepsPour_longer (increasingTimes_initial hl' h) hl
  have hspan : ∀ first rest, first :: rest <+: samples →
      (computePourEvidence (first :: rest)).pourMs.toNat ≤
        since first.tMs ((first :: rest).getLast (List.cons_ne_nil first rest)).tMs :=
    fun first rest hl => pourMs_le_span (increasingTimes_initial hl h)
  refine ⟨hkeeps, hspan, fun hc => opensAbove_of_gain hc.gain, fun ho => ?_⟩
  exact ⟨fun l hl => booked_of_opensAbove ho hl, fun l l' hl hl' => gain_of_opensAbove ho hl hl',
    hkeeps, hspan⟩

/-- A cup that rests at 10 g, is knocked to 7.1 g and fills at 1 g/s up to 9.7 g. -/
def knockedPour : List Sample :=
  (List.replicate 6 1000 ++ (List.range 14).map fun k => 710 + 20 * (k : ℤ)).zipIdx.map
    fun (cg, k) => { tMs := BitVec.ofNat 32 (200 * (k + 1)), cg := i16 cg }

theorem creditsCoffee_iff_knockedPour :
    (∀ l l', l <+: l' → l' <+: knockedPour →
      KeepsPour (computePourEvidence l) (computePourEvidence l')) ∧
    (∀ first rest, first :: rest <+: knockedPour →
      (computePourEvidence (first :: rest)).pourMs.toNat ≤
        since first.tMs ((first :: rest).getLast (List.cons_ne_nil first rest)).tMs) ∧
    (CreditsCoffee knockedPour ↔ Along EvidencePass.step OpensAbove {} knockedPour) :=
  creditsCoffee_iff knockedPour (by decide +kernel)

/-- Its only run opens against the 10 g of the rest and is booked with a loss. -/
theorem not_creditsCoffee_knockedPour :
    ¬ ∀ samples, IncreasingTimes samples → CreditsCoffee samples := by
  intro h
  have hincreasing : IncreasingTimes knockedPour := by decide +kernel
  have hbooked := (h knockedPour hincreasing).booked knockedPour List.prefix_rfl
  revert hbooked
  decide +kernel

end Pumpbug
