import Pumpbug.ShotSamples

/-!
# The live tracker and the shot-end pass

Both feed the same classifier, the tracker with every sample the recorder accepts and the pass with
the samples that fit the buffer.  Over the same samples they open the first pour at the same one.
-/

namespace Pumpbug

open Lib

/-! ## Over the same samples -/

/-- The tracker and the pass agree on the first pour so far. -/
structure SameStart (t : LivePourTracker) (p : EvidencePass) : Prop where
  classifier : t.classifier = p.classifier
  pour : p.evidence.hasPour = t.haveFirstStart
  start : p.evidence.hasStartRawCg = t.haveFirstStart
  weight : t.haveFirstStart = true → p.evidence.startRawCg = t.firstStartCg
  inRun : p.inRun = true → t.haveFirstStart = true

theorem sameStart_init : SameStart {} {} :=
  ⟨rfl, rfl, rfl, fun h => absurd h (by decide), fun h => absurd h (by decide)⟩

namespace EvidencePass

/-- The pass `q` has what `p` has of the first pour. -/
structure KeepsStart (p q : EvidencePass) : Prop where
  classifier : q.classifier = p.classifier
  pour : q.evidence.hasPour = p.evidence.hasPour
  start : q.evidence.hasStartRawCg = p.evidence.hasStartRawCg
  weight : q.evidence.startRawCg = p.evidence.startRawCg

theorem KeepsStart.trans {p q r : EvidencePass} (h : KeepsStart p q) (h' : KeepsStart q r) :
    KeepsStart p r :=
  ⟨h'.classifier.trans h.classifier, h'.pour.trans h.pour, h'.start.trans h.start,
    h'.weight.trans h.weight⟩

theorem keepsStart_liftPeak (p : EvidencePass) (s : CausalPourSample) :
    KeepsStart p (p.liftPeak s) := by
  unfold liftPeak
  split_ifs
  · exact ⟨rfl, rfl, rfl, rfl⟩
  · exact ⟨rfl, rfl, rfl, rfl⟩

/-- Inside a run nothing happens to the start of the first pour. -/
theorem keepsStart_fold {p : EvidencePass} (h : p.inRun = true) (s : CausalPourSample) :
    KeepsStart p (p.fold s) := by
  have hlift := keepsStart_liftPeak p s
  unfold fold
  rw [if_neg (by rw [h]; decide)]
  by_cases hp : isPourBand s.band = true
  · rw [if_pos hp]
    have hlift' := keepsStart_liftPeak { p with activeEndMs := s.tMs } s
    exact ⟨hlift'.classifier, hlift'.pour, hlift'.start, hlift'.weight⟩
  · rw [if_neg hp]
    by_cases hb : isRunBreakBand s.band = true
    · rw [if_pos hb]
      dsimp only
      split_ifs
      · exact ⟨rfl, rfl, rfl, rfl⟩
      · exact ⟨rfl, rfl, rfl, rfl⟩
    · rw [if_neg hb]
      dsimp only
      split_ifs
      · exact ⟨hlift.classifier, hlift.pour, hlift.start, hlift.weight⟩
      · exact ⟨hlift.classifier, hlift.pour, hlift.start, hlift.weight⟩
      · exact ⟨hlift.classifier, hlift.pour, hlift.start, hlift.weight⟩

/-- What one classified sample does outside a run. -/
theorem fold_outside {p : EvidencePass} (h : p.inRun = false) (s : CausalPourSample) :
    p.fold s = if isPourBand s.band && s.trustedStep then p.openRun s else p := by
  unfold fold
  rw [h, Bool.not_false, if_pos rfl]

end EvidencePass

/-- A sample that neither of the two accepts. -/
theorem sameStart_of_keepsStart {t t' : LivePourTracker} {p p' : EvidencePass} (h : SameStart t p)
    (hc : t'.classifier = p'.classifier) (ht : t'.haveFirstStart = t.haveFirstStart)
    (hw : t'.firstStartCg = t.firstStartCg) (hp : p'.evidence.hasPour = p.evidence.hasPour)
    (hs : p'.evidence.hasStartRawCg = p.evidence.hasStartRawCg)
    (hv : p'.evidence.startRawCg = p.evidence.startRawCg)
    (hrun : p'.inRun = true → t.haveFirstStart = true) : SameStart t' p' where
  classifier := hc
  pour := by rw [hp, ht, h.pour]
  start := by rw [hs, ht, h.start]
  weight := fun hh => by rw [hv, hw, h.weight (ht ▸ hh)]
  inRun := fun hr => ht.trans (hrun hr)

/-- **Step lemma.** -/
theorem sameStart_step {t : LivePourTracker} {p : EvidencePass} (h : SameStart t p)
    (sample : Sample) : SameStart (t.update sample.tMs sample.cg) (p.step sample) := by
  obtain ⟨hc, hhave, hcg⟩ := t.update_start sample.tMs sample.cg
  unfold EvidencePass.step
  rw [h.classifier] at hc hhave hcg
  revert hc hhave hcg
  generalize p.classifier.update sample.tMs sample.cg = x
  obtain ⟨c, s⟩ := x
  intro hc hhave hcg
  dsimp only at hc hhave hcg ⊢
  unfold CausalPourSample.opens at hhave hcg
  by_cases ha : s.accepted = true
  · rw [if_pos ha]
    rw [ha, Bool.true_and] at hhave hcg
    by_cases hrun : p.inRun = true
    · -- a pour is open, for the tracker too
      have hfirst := h.inRun hrun
      rw [hfirst] at hhave hcg
      have hk := EvidencePass.keepsStart_fold (p := { p with classifier := c }) hrun s
      refine sameStart_of_keepsStart h (hc.trans hk.classifier.symm) (hhave.trans hfirst.symm) ?_
        hk.pour hk.start hk.weight fun _ => hfirst
      rw [hcg, Bool.not_true, Bool.and_false, if_neg (by decide)]
    · have hrun' : ({ p with classifier := c } : EvidencePass).inRun = false :=
        Bool.eq_false_iff.2 hrun
      rw [EvidencePass.fold_outside hrun']
      by_cases ho : (isPourBand s.band && s.trustedStep) = true
      · rw [if_pos ho]
        rw [ho, Bool.or_true] at hhave
        rw [ho, Bool.true_and] at hcg
        refine ⟨hc, hhave.symm, hhave.symm, fun _ => ?_, fun _ => hhave⟩
        show (if p.evidence.hasStartRawCg then p.evidence.startRawCg else s.pourStartCandidateCg) = _
        rw [hcg, h.start]
        cases hf : t.haveFirstStart with
        | false => rfl
        | true => exact h.weight hf
      · rw [if_neg ho]
        rw [Bool.eq_false_iff.2 ho, Bool.or_false] at hhave
        rw [Bool.eq_false_iff.2 ho, Bool.false_and, if_neg (by decide)] at hcg
        exact sameStart_of_keepsStart h hc hhave hcg rfl rfl rfl h.inRun
  · rw [if_neg ha]
    rw [Bool.eq_false_iff.2 ha, Bool.false_and, Bool.false_and, Bool.or_false] at hhave
    rw [Bool.eq_false_iff.2 ha, Bool.false_and, Bool.false_and, Bool.false_and,
      if_neg (by decide)] at hcg
    exact sameStart_of_keepsStart h hc hhave hcg rfl rfl rfl h.inRun

/-- **The two passes agree** over the same samples. -/
theorem sameStart_foldl (samples : List Sample) :
    SameStart (trackAll samples) (samples.foldl EvidencePass.step {}) := by
  unfold trackAll
  exact List.foldl_rel sameStart_init fun sample _ _ _ h => sameStart_step h sample

theorem computePourEvidence_start (samples : List Sample) :
    (computePourEvidence samples).hasPour = (trackAll samples).haveFirstStart ∧
    (computePourEvidence samples).hasStartRawCg = (trackAll samples).haveFirstStart ∧
    ((trackAll samples).haveFirstStart = true →
      (computePourEvidence samples).startRawCg = (trackAll samples).firstStartCg) := by
  have h := sameStart_foldl samples
  unfold computePourEvidence
  dsimp only
  by_cases hr : (samples.foldl EvidencePass.step {}).inRun = true
  · rw [if_pos hr]
    exact ⟨h.pour, h.start, h.weight⟩
  · rw [if_neg hr]
    exact ⟨h.pour, h.start, h.weight⟩

/-! ## The published record -/

namespace Recorder

theorem finished_observed (r : Recorder) (nowMs : U32) (cause : EndCause) :
    (r.finished nowMs cause).observedSampleCount = r.current.observedSampleCount := by
  rw [finished_field Extraction.observedSampleCount fun _ _ _ _ _ => rfl,
    settleYield_field Extraction.observedSampleCount fun _ => rfl]
  exact marked_field Extraction.observedSampleCount (fun _ _ _ => rfl) r nowMs cause

theorem settleYield_startRawCg (e : Extraction) (lastRawCg : I16) :
    (settleYield e lastRawCg).startRawCg =
      if (computePourEvidence e.samples.items).hasStartRawCg then
        (computePourEvidence e.samples.items).startRawCg
      else lastRawCg := by
  unfold settleYield
  dsimp only
  exact iteInduction (motive := fun f : Extraction => f.startRawCg = _) (fun _ => rfl) fun _ => rfl

/-- The display zero of a published record is that of the evidence, if there is a pour. -/
theorem finished_start (r : Recorder) (nowMs : U32) (cause : EndCause)
    (h : (computePourEvidence r.current.samples.items).hasStartRawCg = true) :
    (r.finished nowMs cause).startRawCg =
      (computePourEvidence r.current.samples.items).startRawCg := by
  have hsamples : (r.marked nowMs cause).samples = r.current.samples :=
    marked_field Extraction.samples (fun _ _ _ => rfl) r nowMs cause
  rw [finished_field Extraction.startRawCg fun _ _ _ _ _ => rfl, settleYield_startRawCg, hsamples,
    if_pos h]

end Recorder

/-- The live tracker `t` and the evidence pass find the same first pour, if any. -/
structure SamePour (t : LivePourTracker) (evidence : PourEvidence) : Prop where
  whether : t.hasPourStartWeight = true ↔ evidence.hasPour = true
  start : t.hasPourStartWeight = true → t.firstPourStartRawCg = evidence.startRawCg

/-- **The tracker and the shot-end pass agree.**  When an update publishes a record, the tracker at
that point and the evidence of the record's samples have the same first pour, and whatever display
zero the record had at any earlier point of the shot is the published one; this for every record
whose samples all fit the buffer, and for longer ones whose stored samples show a pour. -/
theorem livePourTracker_agrees (pre : List Call) (i : Recorder.Input) (cause : EndCause)
    (h : (exec Recorder.call {} pre).finalizes i = some cause) :
    let r := exec Recorder.call {} pre
    let e := (r.update i).lastFinished
    let evidence := computePourEvidence e.samples.items
    e.observedSampleCount.toNat ≤ MAX_SAMPLES ∨ evidence.hasPour = true →
      SamePour (r.sense i).tracker evidence ∧
      ∀ pre₁ mid, pre = pre₁ ++ mid → Recorder.WithinShot (exec Recorder.call {} pre₁) mid →
        (exec Recorder.call {} pre₁).current.startRawCg ≠ NO_WEIGHT →
        e.startRawCg = (exec Recorder.call {} pre₁).current.startRawCg := by
  intro r e evidence hfits
  have hpost : r.current.phase = .postPump := Recorder.phase_of_finalizes h
  have hw : r.current.inPumpWindow = true := Extraction.inPumpWindow_iff.2 (Or.inr hpost)
  have hlast : e = (r.sense i).finished i.nowMs cause := by
    obtain ⟨hnone, -⟩ | ⟨cause', hcause', hlast, -⟩ := r.update_publishes i
    · rw [show r.finalizes i = some cause from h] at hnone
      exact absurd hnone nofun
    · obtain rfl : cause = cause' := Option.some.inj (h.symm.trans hcause')
      exact hlast
  obtain ⟨seen, hseen⟩ : ∃ seen, Records (r.sense i) seen :=
    ⟨_, Recorder.records_sense ((Recorder.tallied_exec pre).window hw).records i⟩
  have hstored : e.samples.items = seen.take MAX_SAMPLES := by
    rw [hlast, Recorder.finished_samples, hseen.stored]
  obtain ⟨hpour, hstart, hweight⟩ := computePourEvidence_start (seen.take MAX_SAMPLES)
  rw [← hstored] at hpour hstart hweight
  have hsame : (trackAll e.samples.items).haveFirstStart = (trackAll seen).haveFirstStart ∧
      (trackAll e.samples.items).firstStartCg = (trackAll seen).firstStartCg := by
    rw [hstored]
    rcases hfits with hfits | hfits
    · have hobs := hseen.observed
      rw [hlast, Recorder.finished_observed, hobs] at hfits
      unfold MAX_SAMPLES at hfits ⊢
      rw [List.take_of_length_le (by omega)]
      exact ⟨rfl, rfl⟩
    · have hfirst : (trackAll (seen.take MAX_SAMPLES)).haveFirstStart = true := by
        rw [← hstored, ← hpour]
        exact hfits
      obtain ⟨h₁, h₂⟩ := trackAll_prefix (List.take_prefix MAX_SAMPLES seen) hfirst
      exact ⟨hfirst.trans h₁.symm, h₂.symm⟩
  rw [hsame.1] at hpour hstart hweight
  rw [hsame.2] at hweight
  constructor
  · rw [hseen.tracker]
    refine ⟨?_, fun ht => ?_⟩
    · show _ ↔ (computePourEvidence e.samples.items).hasPour = true
      rw [hpour]
      rfl
    · have ht' : (trackAll seen).haveFirstStart = true := ht
      exact (if_pos ht').trans (hweight ht').symm
  · intro pre₁ mid hsplit hwithin hne
    have hexec : exec Recorder.call (exec Recorder.call {} pre₁) mid = r := by
      rw [← exec_append, ← hsplit]
    have hw₁ : (exec Recorder.call {} pre₁).current.inPumpWindow = true := by
      cases mid with
      | nil =>
        rw [exec_nil] at hexec
        rw [hexec]
        exact hw
      | cons c mid => exact hwithin.1.1
    obtain ⟨seen₁, hseen₁⟩ : ∃ seen₁, Records (exec Recorder.call {} pre₁) seen₁ :=
      ⟨_, ((Recorder.tallied_exec pre₁).window hw₁).records⟩
    obtain ⟨seen₂, hpre₂, hseen₂⟩ := Recorder.records_exec hseen₁ hwithin (by rw [hexec]; exact hw)
    rw [hexec] at hseen₂
    obtain ⟨seen₃, hpre₃, hseen₃⟩ : ∃ seen₃, seen₂ <+: seen₃ ∧ Records (r.sense i) seen₃ :=
      ⟨_, List.prefix_append _ _, Recorder.records_sense hseen₂ i⟩
    -- the tracker at that point already had the start weight
    have hfirst₁ : (trackAll seen₁).haveFirstStart = true := by
      by_contra hn
      exact hne (hseen₁.start.trans (if_neg hn))
    obtain ⟨hfirst₃, hcg₃⟩ := trackAll_prefix (hpre₂.trans hpre₃) hfirst₁
    rw [← hseen₃.tracker, hseen.tracker] at hfirst₃ hcg₃
    rw [hseen₁.start, if_pos hfirst₁, ← hcg₃, ← hweight hfirst₃]
    have hsamples : e.samples.items = (r.sense i).current.samples.items := by
      rw [hlast, Recorder.finished_samples]
    rw [hsamples] at hstart ⊢
    rw [hlast]
    exact Recorder.finished_start _ _ _ (hstart.trans hfirst₃)

/-- A tick with the pump on and a reading `cg` centigrams. -/
def pumpingTick (k : ℕ) (cg : ℤ) : Call :=
  let nowMs : U32 := BitVec.ofNat 32 (1000 + 100 * k)
  .update { nowMs := nowMs, pumpSignal := { state := .on },
            scale := { present := true, grams := some (cg / 100), timestampMs := nowMs } }

/-- A shot that rests on the scale at 5 g, pours 2 g every second, and stops. -/
def shortPour : List Call :=
  (List.range 7).map (fun k => pumpingTick k 500) ++
    (List.range 6).map (fun k => pumpingTick (7 + k) (520 + 20 * k)) ++
    [.update { nowMs := 2300, pumpSignal := { state := .off }, scale := { present := true } }]

theorem livePourTracker_agrees_shortPour :
    SamePour ((exec Recorder.call {} shortPour).sense { nowMs := 6000 }).tracker
      (computePourEvidence
        ((exec Recorder.call {} shortPour).update { nowMs := 6000 }).lastFinished.samples.items) :=
  (livePourTracker_agrees shortPour { nowMs := 6000 } .timeout (by decide +kernel)
    (Or.inl (by decide +kernel))).1

end Pumpbug
