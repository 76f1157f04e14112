import Pumpbug.PourAgreement
import Mathlib.Data.List.DropRight
import Mathlib.Data.List.Infix

/-!
# Where a pour ends

The live tracker ends a pour at four settled samples, with dropouts in between or not; the shot-end
pass at four settled samples in a row, or four samples in a row that break a run.  Behind the last
sample that opens a pour, each counter is a count over the samples since.
-/

namespace Pumpbug

open Lib

/-! ## Classified samples -/

/-- A sample joins those classified so far. -/
def classifyNext (c : CausalPourClassifier × List CausalPourSample) (sample : Sample) :
    CausalPourClassifier × List CausalPourSample :=
  let (classifier, s) := c.1.update sample.tMs sample.cg
  (classifier, if s.accepted then c.2 ++ [s] else c.2)

/-- The accepted samples of a series, as the shared classifier sees them. -/
def classified (samples : List Sample) : List CausalPourSample :=
  (samples.foldl classifyNext ({}, [])).2

/-- How many settled samples the series ends in. -/
def settledRun (w : List CausalPourSample) : ℕ :=
  (w.rtakeWhile fun s => isSettledBand s.band).length

/-- How many samples that break a run the series ends in. -/
def breakRun (w : List CausalPourSample) : ℕ :=
  (w.rtakeWhile fun s => isRunBreakBand s.band).length

/-- How many settled samples there are among those that the series ends in, where samples without a
flow do not count. -/
def settledAmongDropouts (w : List CausalPourSample) : ℕ :=
  (w.rtakeWhile fun s => isSettledBand s.band || s.flow.isNone).countP fun s => isSettledBand s.band

/-- Behind a sample that opens a pour, and before the next one, neither four samples in a row that
break a run nor four settled ones among dropouts come before four settled ones in a row. -/
def SettlesFirst (l : List CausalPourSample) : Prop :=
  ∀ pre o w, pre ++ o :: w <+: l → o.opens = true → (∀ s ∈ w, s.opens = false) →
    kRunCloseSamples ≤ breakRun w ∨ kRunCloseSamples ≤ settledAmongDropouts w →
      ∃ v, v <+: w ∧ kRunCloseSamples ≤ settledRun v

/-! ## Counting -/

section

variable {w : List CausalPourSample} {s : CausalPourSample}

theorem settledRun_concat (w : List CausalPourSample) (s : CausalPourSample) :
    settledRun (w ++ [s]) = if isSettledBand s.band then settledRun w + 1 else 0 := by
  unfold settledRun
  by_cases h : isSettledBand s.band = true
  · rw [List.rtakeWhile_concat_pos (fun u => isSettledBand u.band) w s h, if_pos h, List.length_append,
      List.length_singleton]
  · rw [List.rtakeWhile_concat_neg (fun u => isSettledBand u.band) w s h, if_neg h, List.length_nil]

theorem breakRun_concat (w : List CausalPourSample) (s : CausalPourSample) :
    breakRun (w ++ [s]) = if isRunBreakBand s.band then breakRun w + 1 else 0 := by
  unfold breakRun
  by_cases h : isRunBreakBand s.band = true
  · rw [List.rtakeWhile_concat_pos (fun u => isRunBreakBand u.band) w s h, if_pos h, List.length_append,
      List.length_singleton]
  · rw [List.rtakeWhile_concat_neg (fun u => isRunBreakBand u.band) w s h, if_neg h, List.length_nil]

theorem settledAmongDropouts_concat (w : List CausalPourSample) (s : CausalPourSample) :
    settledAmongDropouts (w ++ [s]) =
      if isSettledBand s.band then settledAmongDropouts w + 1
      else if s.flow.isSome then 0 else settledAmongDropouts w := by
  unfold settledAmongDropouts
  set counted : CausalPourSample → Bool := fun u => isSettledBand u.band || u.flow.isNone with hcounted
  by_cases h : isSettledBand s.band = true
  · have hpos : counted s = true := by
      rw [hcounted]
      simp [h]
    rw [List.rtakeWhile_concat_pos counted w s hpos, if_pos h, List.countP_append,
      List.countP_singleton, if_pos h]
  · rw [if_neg h]
    cases hf : s.flow with
    | none =>
      have hpos : counted s = true := by
        rw [hcounted]
        simp [hf]
      rw [List.rtakeWhile_concat_pos counted w s hpos, List.countP_append, List.countP_singleton, if_neg h,
        Nat.add_zero]
      rfl
    | some f =>
      have hneg : ¬ counted s = true := by
        rw [hcounted]
        simp [hf, h]
      rw [List.rtakeWhile_concat_neg counted w s hneg, List.countP_nil]
      rfl

/-- Settled samples in a row are settled samples among dropouts. -/
theorem settledRun_le (w : List CausalPourSample) : settledRun w ≤ settledAmongDropouts w := by
  induction w using List.reverseRecOn with
  | nil => exact Nat.le_refl 0
  | append_singleton w s ih =>
    rw [settledRun_concat, settledAmongDropouts_concat]
    split_ifs
    · exact Nat.succ_le_succ ih
    · exact Nat.zero_le _
    · exact Nat.zero_le _

theorem not_settled_of_break (h : isRunBreakBand s.band = true) : isSettledBand s.band = false := by
  unfold isRunBreakBand at h
  unfold isSettledBand
  cases hb : s.band with
  | settled =>
    rw [hb] at h
    exact absurd h (by decide)
  | _ => rfl

end

/-! ## The two run logics -/

/-- What each of the two has since the last sample that opened a pour. -/
structure Since (w : List CausalPourSample) (t : LivePourTracker) (p : EvidencePass) : Prop where
  settledCount : t.settledCount = min kRunCloseSamples (settledAmongDropouts w)
  active : t.pourActive = true ↔ ∀ v, v <+: w → settledAmongDropouts v < kRunCloseSamples
  inRun : p.inRun = true ↔
    ∀ v, v <+: w → settledRun v < kRunCloseSamples ∧ breakRun v < kRunCloseSamples
  counts : p.inRun = true → p.settleRun = settledRun w ∧ p.outRun = breakRun w

/-- A condition on all prefixes, when one more sample follows. -/
theorem forall_prefix_concat {α : Type*} {P : List α → Prop} {w : List α} {s : α} :
    (∀ v, v <+: w ++ [s] → P v) ↔ (∀ v, v <+: w → P v) ∧ P (w ++ [s]) := by
  constructor
  · intro h
    exact ⟨fun v hv => h v (hv.trans (List.prefix_append w [s])), h _ (List.prefix_refl _)⟩
  · rintro ⟨h, hlast⟩ v hv
    rcases List.prefix_concat_iff.1 hv with rfl | hv
    · exact hlast
    · exact h v hv

theorem since_nil {t : LivePourTracker} {p : EvidencePass} (hcount : t.settledCount = 0)
    (hactive : t.pourActive = true) (hrun : p.inRun = true) (hsettle : p.settleRun = 0)
    (hout : p.outRun = 0) : Since [] t p where
  settledCount := hcount
  active := by
    refine iff_of_true hactive fun v hv => ?_
    rw [List.prefix_nil.1 hv]
    decide
  inRun := by
    refine iff_of_true hrun fun v hv => ?_
    rw [List.prefix_nil.1 hv]
    decide
  counts _ := ⟨hsettle, hout⟩

/-! ### One more sample -/

/-- The live tracker at a sample that opens no pour. -/
theorem Since.live {w : List CausalPourSample} {t : LivePourTracker} {p : EvidencePass}
    (h : Since w t p) {s : CausalPourSample} (hno : (isPourBand s.band && s.trustedStep) = false) :
    (t.advanceLivePour s).settledCount =
        min kRunCloseSamples (settledAmongDropouts (w ++ [s])) ∧
      ((t.advanceLivePour s).pourActive = true ↔
        ∀ v, v <+: w ++ [s] → settledAmongDropouts v < kRunCloseSamples) := by
  have hclose : kRunCloseSamples = 4 := rfl
  have hcount := h.settledCount
  have hactive := h.active
  rw [forall_prefix_concat, settledAmongDropouts_concat, ← hactive]
  unfold LivePourTracker.advanceLivePour
  rw [hno, if_neg Bool.false_ne_true]
  by_cases hs : isSettledBand s.band = true
  · have hnext : (if t.settledCount < kRunCloseSamples then t.settledCount + 1 else t.settledCount) =
        min kRunCloseSamples (settledAmongDropouts w + 1) := by
      split_ifs <;> omega
    rw [if_pos hs, if_pos hs]
    dsimp only
    rw [hnext]
    by_cases hfull : kRunCloseSamples ≤ min kRunCloseSamples (settledAmongDropouts w + 1)
    · rw [if_pos hfull]
      refine ⟨rfl, iff_of_false Bool.false_ne_true fun hopen => ?_⟩
      have := hopen.2
      omega
    · rw [if_neg hfull]
      refine ⟨rfl, ?_⟩
      have hroom : settledAmongDropouts w + 1 < kRunCloseSamples := by omega
      exact ⟨fun ha => ⟨ha, hroom⟩, fun ha => ha.1⟩
  · rw [if_neg hs, if_neg hs]
    by_cases hf : s.flow.isSome = true
    · rw [if_pos hf, if_pos hf]
      refine ⟨rfl, ?_⟩
      exact ⟨fun ha => ⟨ha, by decide⟩, fun ha => ha.1⟩
    · rw [if_neg hf, if_neg hf]
      refine ⟨hcount, ?_⟩
      exact ⟨fun ha => ⟨ha, hactive.1 ha w (List.prefix_refl w)⟩, fun ha => ha.1⟩

namespace EvidencePass

theorem liftPeak_run (p : EvidencePass) (s : CausalPourSample) :
    (p.liftPeak s).inRun = p.inRun ∧ (p.liftPeak s).settleRun = p.settleRun := by
  unfold liftPeak
  split_ifs
  · exact ⟨rfl, rfl⟩
  · exact ⟨rfl, rfl⟩

/-- Inside a run, a sample counts towards its end or starts the count anew. -/
theorem fold_counts {p : EvidencePass} (h : p.inRun = true) (s : CausalPourSample) :
    let settle := if isSettledBand s.band then p.settleRun + 1 else 0
    let out := if isRunBreakBand s.band then p.outRun + 1 else 0
    ((p.fold s).inRun = true ↔ settle < kRunCloseSamples ∧ out < kRunCloseSamples) ∧
      ((p.fold s).inRun = true → (p.fold s).settleRun = settle ∧ (p.fold s).outRun = out) := by
  intro settle out
  obtain ⟨hlift, hsettle⟩ := liftPeak_run p s
  have hfew : 0 < kRunCloseSamples := by decide
  have hinside : ¬ (!p.inRun) = true := by simp [h]
  unfold fold
  rw [if_neg hinside]
  by_cases hp : isPourBand s.band = true
  · have hband : s.band = .pour := of_decide_eq_true hp
    obtain ⟨hlift', -⟩ := liftPeak_run { p with activeEndMs := s.tMs } s
    have hs : settle = 0 := by
      show (if isSettledBand s.band then _ else _) = 0
      rw [hband]
      rfl
    have ho : out = 0 := by
      show (if isRunBreakBand s.band then _ else _) = 0
      rw [hband]
      rfl
    rw [if_pos hp, hs, ho]
    exact ⟨iff_of_true (hlift'.trans h) ⟨hfew, hfew⟩, fun _ => ⟨rfl, rfl⟩⟩
  · rw [if_neg hp]
    by_cases hb : isRunBreakBand s.band = true
    · have hs : settle = 0 := by
        show (if isSettledBand s.band then _ else _) = 0
        rw [not_settled_of_break hb]
        rfl
      have ho : out = p.outRun + 1 := if_pos hb
      rw [if_pos hb, hs, ho]
      dsimp only
      by_cases hfull : kRunCloseSamples ≤ p.outRun + 1
      · rw [if_pos hfull]
        refine ⟨iff_of_false Bool.false_ne_true fun hopen => ?_, fun hopen => ?_⟩
        · exact absurd hfull (Nat.not_le.2 hopen.2)
        · exact absurd hopen Bool.false_ne_true
      · rw [if_neg hfull]
        exact ⟨iff_of_true h ⟨hfew, Nat.not_le.1 hfull⟩, fun _ => ⟨rfl, rfl⟩⟩
    · have ho : out = 0 := if_neg hb
      rw [if_neg hb, ho]
      dsimp only
      by_cases hs' : isSettledBand s.band = true
      · have hs : settle = p.settleRun + 1 := if_pos hs'
        rw [if_pos hs', hs, hsettle]
        by_cases hfull : kRunCloseSamples ≤ p.settleRun + 1
        · rw [if_pos hfull]
          refine ⟨iff_of_false Bool.false_ne_true fun hopen => ?_, fun hopen => ?_⟩
          · exact absurd hfull (Nat.not_le.2 hopen.1)
          · exact absurd hopen Bool.false_ne_true
        · rw [if_neg hfull]
          exact ⟨iff_of_true (hlift.trans h) ⟨Nat.not_le.1 hfull, hfew⟩, fun _ => ⟨rfl, rfl⟩⟩
      · have hs : settle = 0 := if_neg hs'
        rw [if_neg hs', hs]
        exact ⟨iff_of_true (hlift.trans h) ⟨hfew, hfew⟩, fun _ => ⟨rfl, rfl⟩⟩

end EvidencePass

/-- The shot-end pass at a sample that opens no pour. -/
theorem Since.batch {w : List CausalPourSample} {t : LivePourTracker} {p : EvidencePass}
    (h : Since w t p) {s : CausalPourSample} (hno : (isPourBand s.band && s.trustedStep) = false) :
    ((p.fold s).inRun = true ↔
        ∀ v, v <+: w ++ [s] → settledRun v < kRunCloseSamples ∧ breakRun v < kRunCloseSamples) ∧
      ((p.fold s).inRun = true →
        (p.fold s).settleRun = settledRun (w ++ [s]) ∧ (p.fold s).outRun = breakRun (w ++ [s])) := by
  rw [forall_prefix_concat, ← h.inRun, settledRun_concat, breakRun_concat]
  by_cases hrun : p.inRun = true
  · obtain ⟨hsettle, hout⟩ := h.counts hrun
    obtain ⟨hiff, hcounts⟩ := EvidencePass.fold_counts hrun s
    rw [hsettle, hout] at hiff hcounts
    refine ⟨hiff.trans ⟨fun hboth => ⟨hrun, hboth⟩, fun hboth => hboth.2⟩, hcounts⟩
  · have hrun' : p.inRun = false := Bool.eq_false_iff.2 hrun
    rw [EvidencePass.fold_outside hrun', hno, if_neg Bool.false_ne_true]
    refine ⟨iff_of_false hrun fun hopen => hrun hopen.1, fun hopen => absurd hopen hrun⟩

theorem Since.concat {w : List CausalPourSample} {t : LivePourTracker} {p : EvidencePass}
    (h : Since w t p) {s : CausalPourSample} (hno : (isPourBand s.band && s.trustedStep) = false) :
    Since (w ++ [s]) (t.advanceLivePour s) (p.fold s) :=
  ⟨(h.live hno).1, (h.live hno).2, (h.batch hno).1, (h.batch hno).2⟩

/-! ## Series -/

/-- Both run logics over the classified samples so far. -/
structure PassFollows (l : List CausalPourSample) (t : LivePourTracker) (p : EvidencePass) : Prop where
  unopened : (∀ s ∈ l, s.opens = false) → t.pourActive = false ∧ p.inRun = false
  since : ∀ pre o w, l = pre ++ o :: w → o.opens = true → (∀ s ∈ w, s.opens = false) → Since w t p

theorem Since.congr {w : List CausalPourSample} {t t' : LivePourTracker} {p : EvidencePass}
    (h : Since w t p) (hactive : t'.pourActive = t.pourActive)
    (hcount : t'.settledCount = t.settledCount) : Since w t' p :=
  ⟨hcount.trans h.settledCount, hactive ▸ h.active, h.inRun, h.counts⟩

theorem PassFollows.congr {l : List CausalPourSample} {t t' : LivePourTracker} {p : EvidencePass}
    (h : PassFollows l t p) (hactive : t'.pourActive = t.pourActive)
    (hcount : t'.settledCount = t.settledCount) : PassFollows l t' p where
  unopened hno := ⟨hactive.trans (h.unopened hno).1, (h.unopened hno).2⟩
  since pre o w hl ho hw := (h.since pre o w hl ho hw).congr hactive hcount

theorem passFollows_nil : PassFollows [] {} {} where
  unopened _ := ⟨rfl, rfl⟩
  since pre o w hl := absurd hl.symm (by simp)

/-- A sample that opens a pour starts all counts anew, in the tracker and in the pass. -/
theorem since_opened (t : LivePourTracker) (p : EvidencePass) {s : CausalPourSample}
    (ho : (isPourBand s.band && s.trustedStep) = true) :
    Since [] (t.advanceLivePour s) (p.fold s) := by
  have hpour : isPourBand s.band = true := (Bool.and_eq_true_iff.1 ho).1
  have hlive : (t.advanceLivePour s).settledCount = 0 ∧ (t.advanceLivePour s).pourActive = true := by
    unfold LivePourTracker.advanceLivePour
    rw [if_pos ho]
    exact ⟨rfl, rfl⟩
  have hbatch : (p.fold s).inRun = true ∧ (p.fold s).settleRun = 0 ∧ (p.fold s).outRun = 0 := by
    by_cases hrun : p.inRun = true
    · obtain ⟨hlift, -⟩ := EvidencePass.liftPeak_run { p with activeEndMs := s.tMs } s
      have hinside : ¬ (!p.inRun) = true := by simp [hrun]
      unfold EvidencePass.fold
      rw [if_neg hinside, if_pos hpour]
      exact ⟨hlift.trans hrun, rfl, rfl⟩
    · rw [EvidencePass.fold_outside (Bool.eq_false_iff.2 hrun), if_pos ho]
      exact ⟨rfl, rfl, rfl⟩
  exact since_nil hlive.1 hlive.2 hbatch.1 hbatch.2.1 hbatch.2.2

/-- **Step lemma.** -/
theorem PassFollows.concat {l : List CausalPourSample} {t : LivePourTracker} {p : EvidencePass}
    (h : PassFollows l t p) {s : CausalPourSample} (hs : s.accepted = true) :
    PassFollows (l ++ [s]) (t.advanceLivePour s) (p.fold s) := by
  have hopens : s.opens = (isPourBand s.band && s.trustedStep) := by
    unfold CausalPourSample.opens
    rw [hs, Bool.true_and]
  constructor
  · intro hno
    obtain ⟨hactive, hrun⟩ := h.unopened fun u hu => hno u (List.mem_append_left _ hu)
    have hns := hno s (List.mem_append_right _ (List.mem_singleton_self s))
    rw [hopens] at hns
    rw [EvidencePass.fold_outside hrun, hns, if_neg Bool.false_ne_true]
    refine ⟨?_, hrun⟩
    have hclosed : ¬ (isPourBand s.band && s.trustedStep) = true := by simp [hns]
    unfold LivePourTracker.advanceLivePour
    rw [if_neg hclosed]
    by_cases hsettled : isSettledBand s.band = true
    · rw [if_pos hsettled]
      dsimp only
      split_ifs
      · rfl
      · exact hactive
      · rfl
      · exact hactive
    · rw [if_neg hsettled]
      split_ifs
      · exact hactive
      · exact hactive
  · intro pre o w hl ho hw
    rcases List.eq_nil_or_concat w with rfl | ⟨w, u, rfl⟩
    · obtain ⟨-, hlast⟩ := List.append_inj' hl rfl
      obtain rfl : s = o := List.singleton_inj.1 hlast
      exact since_opened t p (hopens.symm.trans ho)
    · rw [List.concat_eq_append] at hl hw ⊢
      rw [← List.cons_append, ← List.append_assoc] at hl
      obtain ⟨hinit, hlast⟩ := List.append_inj' hl rfl
      obtain rfl : s = u := List.singleton_inj.1 hlast
      have hns := hw s (List.mem_append_right _ (List.mem_singleton_self s))
      exact (h.since pre o w hinit ho fun u hu => hw u (List.mem_append_left _ hu)).concat
        (hopens.symm.trans hns)

namespace LivePourTracker

theorem updateMeaningfulYield_pour (t : LivePourTracker) (s : CausalPourSample) :
    (t.updateMeaningfulYield s).pourActive = t.pourActive ∧
      (t.updateMeaningfulYield s).settledCount = t.settledCount := by
  unfold updateMeaningfulYield
  split_ifs
  · exact ⟨rfl, rfl⟩
  · exact ⟨rfl, rfl⟩

end LivePourTracker

/-- **Run lemma.** Over any series the two run logics see the same classified samples. -/
theorem passFollows_trackAll (samples : List Sample) :
    (samples.foldl classifyNext ({}, [])).1 = (trackAll samples).classifier ∧
      PassFollows (classified samples) (trackAll samples) (samples.foldl EvidencePass.step {}) := by
  induction samples using List.reverseRecOn with
  | nil => exact ⟨rfl, passFollows_nil⟩
  | append_singleton samples sample ih =>
    obtain ⟨hc, hfollows⟩ := ih
    have hsame := (sameStart_foldl samples).classifier
    unfold classified at hfollows ⊢
    rw [trackAll_snoc, List.foldl_append, List.foldl_append, List.foldl_cons, List.foldl_cons,
      List.foldl_nil, List.foldl_nil]
    generalize trackAll samples = t at hc hfollows hsame ⊢
    generalize samples.foldl EvidencePass.step {} = p at hfollows hsame ⊢
    generalize samples.foldl classifyNext ({}, []) = c at hc hfollows ⊢
    unfold classifyNext LivePourTracker.update EvidencePass.step
    rw [hc, ← hsame]
    generalize t.classifier.update sample.tMs sample.cg = x
    obtain ⟨classifier, s⟩ := x
    dsimp only
    by_cases hs : s.accepted = true
    · rw [if_pos hs, hs, Bool.not_true, if_neg Bool.false_ne_true, if_pos rfl]
      set t' : LivePourTracker := { t with
        classifier := classifier, lastTMs := s.tMs, haveSample := true, prevCg := s.rawCg,
        lastSampleTrusted := s.trustedStep,
        lastTrustedCg := if s.trustedStep then s.rawCg else t.lastTrustedCg,
        lastFlow := s.flow, lastBand := s.band } with ht'
      obtain ⟨hactive, hcount⟩ := (t'.advanceLivePour s).updateMeaningfulYield_pour s
      have hkeeps : PassFollows c.2 t' { p with classifier := classifier } :=
        ⟨hfollows.unopened, fun pre o w hl ho hw =>
          have h := hfollows.since pre o w hl ho hw
          ⟨h.settledCount, h.active, h.inRun, h.counts⟩⟩
      refine ⟨?_, (hkeeps.concat hs).congr hactive hcount⟩
      rw [LivePourTracker.updateMeaningfulYield_classifier,
        (LivePourTracker.advanceLivePour_start t' s).1]
    · rw [if_neg hs, Bool.eq_false_iff.2 hs, Bool.not_false, if_pos rfl, if_neg Bool.false_ne_true]
      refine ⟨rfl, ⟨hfollows.unopened, fun pre o w hl ho hw => ?_⟩⟩
      have h := hfollows.since pre o w hl ho hw
      exact ⟨h.settledCount, h.active, h.inRun, h.counts⟩

theorem classified_concat (samples : List Sample) (sample : Sample) :
    classified (samples ++ [sample]) = classified samples ∨
      ∃ s, classified (samples ++ [sample]) = classified samples ++ [s] := by
  unfold classified
  rw [List.foldl_append, List.foldl_cons, List.foldl_nil]
  generalize samples.foldl classifyNext ({}, []) = c
  unfold classifyNext
  dsimp only
  split_ifs
  · exact .inr ⟨_, rfl⟩
  · exact .inl rfl

/-- A beginning of the classified samples is what a beginning of the series is classified as. -/
theorem classified_prefix {samples : List Sample} {l : List CausalPourSample}
    (h : l <+: classified samples) : ∃ seen, seen <+: samples ∧ classified seen = l := by
  induction samples using List.reverseRecOn with
  | nil => exact ⟨[], List.prefix_refl [], (List.prefix_nil.1 h).symm⟩
  | append_singleton samples sample ih =>
    have hearlier (hl : l <+: classified samples) :
        ∃ seen, seen <+: samples ++ [sample] ∧ classified seen = l := by
      obtain ⟨seen, hseen, hclass⟩ := ih hl
      exact ⟨seen, hseen.trans (List.prefix_append samples [sample]), hclass⟩
    rcases classified_concat samples sample with hsame | ⟨s, hmore⟩
    · rw [hsame] at h
      exact hearlier h
    · rw [hmore] at h
      rcases List.prefix_concat_iff.1 h with rfl | hl
      · exact ⟨samples ++ [sample], List.prefix_refl _, hmore⟩
      · exact hearlier hl

theorem classified_mono {seen samples : List Sample} (h : seen <+: samples) :
    classified seen <+: classified samples := by
  induction samples using List.reverseRecOn with
  | nil => rw [List.prefix_nil.1 h]
  | append_singleton samples sample ih =>
    rcases List.prefix_concat_iff.1 h with rfl | hseen
    · exact List.prefix_refl _
    · refine (ih hseen).trans ?_
      rcases classified_concat samples sample with hsame | ⟨s, hmore⟩
      · rw [hsame]
      · rw [hmore]
        exact List.prefix_append _ _

/-! ## Both ends -/

/-- A series either opens no pour, or is what follows the last sample that does. -/
theorem last_opener (l : List CausalPourSample) :
    (∀ s ∈ l, s.opens = false) ∨
      ∃ pre o w, l = pre ++ o :: w ∧ o.opens = true ∧ ∀ s ∈ w, s.opens = false := by
  induction l using List.reverseRecOn with
  | nil => exact .inl fun s hs => absurd hs List.not_mem_nil
  | append_singleton l s ih =>
    by_cases hs : s.opens = true
    · exact .inr ⟨l, s, [], rfl, hs, fun u hu => absurd hu List.not_mem_nil⟩
    · have hlast : s.opens = false := Bool.eq_false_iff.2 hs
      have hmore {w : List CausalPourSample} (hw : ∀ u ∈ w, u.opens = false) :
          ∀ u ∈ w ++ [s], u.opens = false := by
        intro u hu
        rcases List.mem_append.1 hu with hu | hu
        · exact hw u hu
        · rw [List.mem_singleton.1 hu]
          exact hlast
      rcases ih with hno | ⟨pre, o, w, rfl, ho, hw⟩
      · exact .inl (hmore hno)
      · exact .inr ⟨pre, o, w ++ [s], by rw [List.append_assoc, List.cons_append], ho, hmore hw⟩

/-- As long as the two agree, four settled samples in a row come first. -/
theorem settles_of_agrees {samples : List Sample}
    (h : ∀ seen, seen <+: samples →
      (trackAll seen).pourActive = (seen.foldl EvidencePass.step {}).inRun)
    {pre w : List CausalPourSample} {o : CausalPourSample}
    (hl : pre ++ o :: w <+: classified samples) (ho : o.opens = true)
    (hw : ∀ s ∈ w, s.opens = false) :
    ∀ v, v <+: w → kRunCloseSamples ≤ breakRun v ∨ kRunCloseSamples ≤ settledAmongDropouts v →
      ∃ u, u <+: v ∧ kRunCloseSamples ≤ settledRun u := by
  induction w using List.reverseRecOn with
  | nil =>
    intro v hv hends
    rw [List.prefix_nil.1 hv] at hends
    rcases hends with hends | hends <;> exact absurd hends (by decide)
  | append_singleton w s ih =>
    have hinit : pre ++ o :: w <+: pre ++ o :: (w ++ [s]) := by
      rw [← List.cons_append, ← List.append_assoc]
      exact List.prefix_append _ _
    have hbefore := ih (hinit.trans hl) fun u hu => hw u (List.mem_append_left _ hu)
    refine forall_prefix_concat.2 ⟨hbefore, fun hends => ?_⟩
    by_contra hnone
    have hsettled : ∀ v, v <+: w ++ [s] → settledRun v < kRunCloseSamples :=
      fun v hv => Nat.not_le.1 fun hfull => hnone ⟨v, hv, hfull⟩
    -- nothing ended the pour before the last sample
    have hcounts : ∀ v, v <+: w →
        breakRun v < kRunCloseSamples ∧ settledAmongDropouts v < kRunCloseSamples := by
      intro v hv
      by_contra hfull
      rw [Classical.not_and_iff_not_or_not, Nat.not_lt, Nat.not_lt] at hfull
      obtain ⟨u, hu, hsettled⟩ := hbefore v hv hfull
      exact hnone ⟨u, (hu.trans hv).trans (List.prefix_append w [s]), hsettled⟩
    -- so at the last one the live tracker ends it exactly when the pass does
    have hlast : settledAmongDropouts (w ++ [s]) < kRunCloseSamples ↔
        breakRun (w ++ [s]) < kRunCloseSamples := by
      obtain ⟨seen, hseen, hclass⟩ := classified_prefix hl
      have hsince := (passFollows_trackAll seen).2.since pre o (w ++ [s]) hclass ho hw
      have hagree := h seen hseen
      rw [Bool.eq_iff_iff, hsince.active, hsince.inRun, forall_prefix_concat,
        forall_prefix_concat] at hagree
      constructor
      · intro hlive
        exact (hagree.1 ⟨fun v hv => (hcounts v hv).2, hlive⟩).2.2
      · intro hbatch
        refine (hagree.2 ⟨fun v hv => ⟨?_, (hcounts v hv).1⟩, ?_, hbatch⟩).2
        · exact hsettled v (hv.trans (List.prefix_append w [s]))
        · exact hsettled (w ++ [s]) (List.prefix_refl _)
    have hbreak : kRunCloseSamples ≤ breakRun (w ++ [s]) := by omega
    have hcount : kRunCloseSamples ≤ settledAmongDropouts (w ++ [s]) := by omega
    have hroom := hcounts w (List.prefix_refl w)
    -- a sample that breaks a run is no settled one
    have hfew : 0 < kRunCloseSamples := by decide
    rw [breakRun_concat] at hbreak
    rw [settledAmongDropouts_concat] at hcount
    by_cases hb : isRunBreakBand s.band = true
    · rw [if_neg (Bool.eq_false_iff.1 (not_settled_of_break hb))] at hcount
      split_ifs at hcount
      · omega
      · omega
    · rw [if_neg hb] at hbreak
      omega

theorem settlesFirst_of_agrees {samples : List Sample}
    (h : ∀ seen, seen <+: samples →
      (trackAll seen).pourActive = (seen.foldl EvidencePass.step {}).inRun) :
    SettlesFirst (classified samples) :=
  fun _pre _o w hl ho hw hends => settles_of_agrees h hl ho hw w (List.prefix_refl w) hends

theorem agrees_of_settlesFirst {samples : List Sample} (h : SettlesFirst (classified samples))
    {seen : List Sample} (hseen : seen <+: samples) :
    (trackAll seen).pourActive = (seen.foldl EvidencePass.step {}).inRun := by
  have hfollows := (passFollows_trackAll seen).2
  rcases last_opener (classified seen) with hno | ⟨pre, o, w, hl, ho, hw⟩
  · obtain ⟨hactive, hrun⟩ := hfollows.unopened hno
    rw [hactive, hrun]
  · have hsince := hfollows.since pre o w hl ho hw
    have hopen {v : List CausalPourSample} (hv : v <+: w) :
        pre ++ o :: v <+: classified samples := by
      refine List.IsPrefix.trans ?_ (classified_mono hseen)
      rw [hl]
      exact (List.prefix_append_right_inj pre).2 (List.cons_prefix_cons.2 ⟨rfl, hv⟩)
    have hfirst (v : List CausalPourSample) (hv : v <+: w)
        (hends : kRunCloseSamples ≤ breakRun v ∨ kRunCloseSamples ≤ settledAmongDropouts v) :
        ∃ u, u <+: v ∧ kRunCloseSamples ≤ settledRun u :=
      h pre o v (hopen hv) ho (fun s hs => hw s (hv.subset hs)) hends
    rw [Bool.eq_iff_iff, hsince.active, hsince.inRun]
    constructor
    · intro hlive v hv
      refine ⟨(settledRun_le v).trans_lt (hlive v hv), Nat.not_le.1 fun hfull => ?_⟩
      obtain ⟨u, hu, hsettled⟩ := hfirst v hv (.inl hfull)
      exact absurd (hsettled.trans (settledRun_le u)) (Nat.not_le.2 (hlive u (hu.trans hv)))
    · intro hbatch v hv
      refine Nat.not_le.1 fun hfull => ?_
      obtain ⟨u, hu, hsettled⟩ := hfirst v hv (.inr hfull)
      exact absurd hsettled (Nat.not_le.2 (hbatch u (hu.trans hv)).1)

/-- **Result.** The live tracker and the shot-end pass have a pour open at the same samples of a
series exactly when, behind each sample that opens one, four settled samples in a row come first. -/
theorem pour_ends_together_iff (samples : List Sample) :
    (∀ seen, seen <+: samples →
      (trackAll seen).pourActive = (seen.foldl EvidencePass.step {}).inRun) ↔
        SettlesFirst (classified samples) :=
  ⟨settlesFirst_of_agrees, fun h _seen hseen => agrees_of_settlesFirst h hseen⟩

/-- Five samples of a pour, then a scale that reports the weight every one and a half seconds. -/
def silentPour : List Sample :=
  [⟨0, 0, 0⟩, ⟨150, 30, 0⟩, ⟨300, 60, 0⟩, ⟨450, 90, 0⟩, ⟨600, 120, 0⟩, ⟨2100, 120, 0⟩,
    ⟨3600, 120, 0⟩, ⟨5100, 120, 0⟩, ⟨6600, 120, 0⟩]

/-- The fourth sample without a flow ends the run in the pass, and leaves the live pour open. -/
theorem not_pour_ends_together : ¬ ∀ samples : List Sample,
    (trackAll samples).pourActive = (samples.foldl EvidencePass.step {}).inRun := by
  intro h
  have hlive : (trackAll silentPour).pourActive = true := by decide +kernel
  have hbatch : (silentPour.foldl EvidencePass.step {}).inRun = false := by decide +kernel
  have hsame := h silentPour
  rw [hlive, hbatch] at hsame
  exact absurd hsame (by decide)

end Pumpbug
