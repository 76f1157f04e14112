import Pumpbug.Web.FlowAgreement

/-!
# Two sustained peaks

The statistics of the firmware and of the browser, each as a sustained peak of the one flow series
that both see.  The browser looks at all flows of a window and the firmware at the newest ones that
its ring holds.
-/

namespace Pumpbug.FlowAgreement

open Lib Lib.Hold Web.RobustFlow

/-! ## The series -/

section

variable {samples : List Sample}

theorem webSweep_succ (pts : List Pt) (n : ℕ) :
    Web.RobustFlow.flowSweep pts (n + 1) =
      match sampleFlow pts n (Web.RobustFlow.flowSweep pts n).2 with
      | some (f, hint) => ((Web.RobustFlow.flowSweep pts n).1 ++ [some f], hint)
      | none => ((Web.RobustFlow.flowSweep pts n).1 ++ [none], (Web.RobustFlow.flowSweep pts n).2) := by
  unfold Web.RobustFlow.flowSweep
  rw [List.range_succ, List.foldl_append]
  rfl

theorem flowSweep_length (samples : List Sample) (n : ℕ) :
    (Pumpbug.flowSweep samples n).1.length = n := by
  induction n with
  | zero => rfl
  | succ n ih =>
    rw [flowSweep_succ]
    split
    · rw [List.length_append, ih, List.length_singleton]
    · rw [List.length_append, ih, List.length_singleton]

theorem flowSweep_hint (h : Plain samples) (n : ℕ) : (Pumpbug.flowSweep samples n).2 ≤ n := by
  induction n with
  | zero => exact Nat.le_refl 0
  | succ n ih =>
    rw [flowSweep_succ]
    split
    · next f beforeHint hf => exact (robustSampleFlow_hint h ih hf).trans (Nat.le_succ n)
    · exact ih.trans (Nat.le_succ n)

/-- **Run lemma.** The sweeps agree. -/
theorem flowSweep_pt (h : Plain samples) (baseline : ℚ) (n : ℕ) :
    Web.RobustFlow.flowSweep (samples.map (pt baseline)) n = Pumpbug.flowSweep samples n := by
  induction n with
  | zero => rfl
  | succ n ih =>
    have hstep := webSweep_succ (samples.map (pt baseline)) n
    rw [ih, sampleFlow_pt h baseline (flowSweep_hint h n)] at hstep
    exact hstep.trans (flowSweep_succ samples n).symm

/-- The flows of the first samples, each with its time. -/
def timed (samples : List Sample) (n : ℕ) : List (ℤ × Option ℚ) :=
  ((samples.take n).map fun s => (s.tMs.toNat : ℤ)).zip (Pumpbug.flowSweep samples n).1

/-- The flow that the sweep finds at a sample. -/
def flowAt (samples : List Sample) (n : ℕ) : Option ℚ :=
  (robustSampleFlow samples n (Pumpbug.flowSweep samples n).2).map Prod.fst

theorem timed_succ {n : ℕ} (hn : n < samples.length) :
    timed samples (n + 1) = timed samples n ++ [((samples[n].tMs.toNat : ℤ), flowAt samples n)] := by
  have hflows : (Pumpbug.flowSweep samples (n + 1)).1 =
      (Pumpbug.flowSweep samples n).1 ++ [flowAt samples n] := by
    unfold flowAt
    rw [flowSweep_succ]
    cases robustSampleFlow samples n (Pumpbug.flowSweep samples n).2 with
    | none => rfl
    | some f => rfl
  unfold timed
  rw [hflows, List.take_succ_eq_append_getElem hn, List.map_append, List.zip_append]
  · rfl
  · rw [List.length_map, List.length_take, flowSweep_length]
    omega

theorem timed_times (samples : List Sample) (n : ℕ) :
    (timed samples n).map Prod.fst = (samples.take n).map fun s => (s.tMs.toNat : ℤ) := by
  unfold timed
  refine List.map_fst_zip ?_
  rw [List.length_map, List.length_take, flowSweep_length]
  omega

theorem timed_sorted (h : Plain samples) (n : ℕ) :
    ((timed samples n).map Prod.fst).Pairwise (· ≤ ·) := by
  rw [timed_times, List.pairwise_map]
  exact (h.sorted.sublist (List.take_sublist n samples)).imp fun hab => by omega

end

/-! ## The firmware's pass -/

/-- The statistics that report a peak. -/
def statsOf : Option ℚ → FlowSeriesStats
  | none => {}
  | some peak => ⟨true, peak⟩

theorem score_statsOf (best : Option ℚ) (windowMin : ℚ) :
    FlowStatsPass.score (statsOf best) windowMin = statsOf (some (raise best windowMin)) := by
  cases best with
  | none => rfl
  | some peak =>
    unfold FlowStatsPass.score statsOf
    rw [raise_some]
    by_cases h : peak < windowMin
    · rw [if_pos (by simp [h]), max_eq_right (le_of_lt h)]
    · rw [if_neg (by simp [not_lt.1 h]), max_eq_left (not_lt.1 h)]

/-- An entry of the ring with the time as a number. -/
def entry (x : U32 × ℚ) : ℤ × ℚ := (x.1.toNat, x.2)

theorem min_of_lt (m v : ℚ) : (if v < m then v else m) = min m v := by
  by_cases h : v < m
  · rw [if_pos h, min_eq_right (le_of_lt h)]
  · rw [if_neg h, min_eq_left (not_lt.1 h)]

theorem minFrom_eq (first : U32 × ℚ) (rest : List (U32 × ℚ)) :
    (((first :: rest).map entry).map Prod.snd).min? = some (FlowStatsPass.minFrom first.2 rest) := by
  unfold FlowStatsPass.minFrom
  simp only [min_of_lt]
  rw [List.map_map, List.map_cons, List.min?_cons', List.foldl_map]
  rfl

/-- The ring after one more flow: what is too old leaves, and the oldest if there is no room. -/
theorem ring_push (win : List (U32 × ℚ)) (t : U32) (f : ℚ) :
    ((if (win.dropWhile fun x => x.1 < if kPeakHoldMs ≤ t then t - kPeakHoldMs else 0).length = kCap
      then (win.dropWhile fun x => x.1 < if kPeakHoldMs ≤ t then t - kPeakHoldMs else 0).tail
      else win.dropWhile fun x => x.1 < if kPeakHoldMs ≤ t then t - kPeakHoldMs else 0) ++
        [(t, f)]).map entry =
      push (some kCap) ((win.map entry).dropWhile fun x => decide (x.1 < (t.toNat : ℤ) - 700))
        ((t.toNat : ℤ), f) := by
  have hlate : (win.map entry).dropWhile (fun x => decide (x.1 < (t.toNat : ℤ) - 700)) =
      (win.dropWhile fun x => x.1 < if kPeakHoldMs ≤ t then t - kPeakHoldMs else 0).map entry := by
    rw [List.dropWhile_map]
    congr 2
    funext x
    refine decide_eq_decide.2 ?_
    show (x.1.toNat : ℤ) < (t.toNat : ℤ) - 700 ↔ x.1 < _
    by_cases h : kPeakHoldMs ≤ t
    · have hle : 700 ≤ t.toNat := h
      have hcutoff : (t - kPeakHoldMs).toNat = t.toNat - 700 := BitVec.toNat_sub_of_le h
      rw [if_pos h, BitVec.lt_def, hcutoff]
      omega
    · have hlt : ¬ 700 ≤ t.toNat := h
      rw [if_neg h, BitVec.lt_def]
      show _ ↔ x.1.toNat < 0
      omega
  rw [hlate]
  generalize win.dropWhile (fun x => x.1 < if kPeakHoldMs ≤ t then t - kPeakHoldMs else 0) = late
  unfold push
  rw [List.length_map, List.map_append]
  by_cases hfull : late.length = kCap
  · rw [if_pos hfull, if_pos (congrArg some hfull.symm), List.map_tail]
    rfl
  · rw [if_neg hfull, if_neg fun h => hfull (Option.some.inj h).symm]
    rfl

section

variable {p : FlowStatsPass} {series : List (ℤ × Option ℚ)} {best : Option ℚ}

/-- **Step lemma.** A flow joins the window. -/
theorem tracks_take
    (h : Tracks 700 (some kCap) series (p.win.map entry) (p.runStartT.map fun t => (t.toNat : ℤ)) best)
    (hs : p.stats = statsOf best) {t : U32} {f : ℚ}
    (hsorted : ((series ++ [((t.toNat : ℤ), some f)]).map Prod.fst).Pairwise (· ≤ ·)) :
    ∃ best', Tracks 700 (some kCap) (series ++ [((t.toNat : ℤ), some f)]) ((p.take t f).win.map entry)
        ((p.take t f).runStartT.map fun t => (t.toNat : ℤ)) best' ∧
      (p.take t f).stats = statsOf best' := by
  have hvalue := h.value (by decide) (by decide) hsorted
  have hle := h.start_le hsorted
  rw [← ring_push] at hvalue
  rw [Option.getD_map] at hvalue hle
  refine ⟨_, hvalue, ?_⟩
  have hspan : kPeakHoldMs ≤ t - p.runStartT.getD t ↔
      (700 : ℤ) ≤ (t.toNat : ℤ) - (p.runStartT.getD t).toNat := by
    have hle' : p.runStartT.getD t ≤ t := Int.ofNat_le.1 hle
    rw [BitVec.le_def, BitVec.toNat_sub_of_le hle']
    show 700 ≤ _ ↔ _
    omega
  unfold FlowStatsPass.take
  dsimp only
  by_cases hheld : kPeakHoldMs ≤ t - p.runStartT.getD t
  · rw [if_pos hheld, if_pos (hspan.1 hheld)]
    split
    · next hnil => exact absurd hnil (List.concat_ne_nil _ _)
    · next first rest hwin =>
      rw [hwin, minFrom_eq, hs, score_statsOf]
      rfl
  · rw [if_neg hheld, if_neg fun hlong => hheld (hspan.2 hlong)]
    exact hs

end

/-- What the pass has after the first samples. -/
structure Reduced (samples : List Sample) (n : ℕ) (p : FlowStatsPass) : Prop where
  hint : p.beforeHint = (Pumpbug.flowSweep samples n).2
  tracks : ∃ best, Tracks 700 (some kCap) (timed samples n) (p.win.map entry)
    (p.runStartT.map fun t => (t.toNat : ℤ)) best ∧ p.stats = statsOf best

/-- **Run lemma.** -/
theorem reduced_foldl {samples : List Sample} (h : Plain samples) {n : ℕ} (hn : n ≤ samples.length) :
    Reduced samples n ((List.range n).foldl (FlowStatsPass.step samples) {}) := by
  induction n with
  | zero => exact ⟨rfl, none, tracks_nil _ _, rfl⟩
  | succ n ih =>
    have hlt : n < samples.length := hn
    obtain ⟨hhint, best, htracks, hstats⟩ := ih (Nat.le_of_succ_le hn)
    rw [List.range_succ, List.foldl_append]
    generalize (List.range n).foldl (FlowStatsPass.step samples) {} = p at hhint htracks hstats
    have hsorted := timed_sorted h (n + 1)
    have htimed := timed_succ hlt
    have hsweep := flowSweep_succ samples n
    show Reduced samples (n + 1) (p.step samples n)
    unfold FlowStatsPass.step
    rw [List.getElem?_eq_getElem hlt, hhint]
    unfold flowAt at htimed
    cases hflow : robustSampleFlow samples n (Pumpbug.flowSweep samples n).2 with
    | none =>
      rw [hflow] at hsweep htimed
      refine ⟨by rw [hsweep], best, ?_, hstats⟩
      rw [htimed]
      exact htracks.gap _
    | some flow =>
      obtain ⟨f, beforeHint⟩ := flow
      rw [hflow] at hsweep htimed
      rw [htimed] at hsorted
      obtain ⟨best', htracks', hstats'⟩ := tracks_take htracks hstats hsorted
      refine ⟨by rw [hsweep], best', ?_, hstats'⟩
      rw [htimed]
      exact htracks'

/-! ## The browser's pass -/

/-- The statistics that report a peak. -/
def webStatsOf : Option ℚ → Stats
  | none => {}
  | some peak => ⟨true, peak⟩

theorem score_webStatsOf (best : Option ℚ) (windowMin : ℚ) :
    Pass.score (webStatsOf best) windowMin = webStatsOf (some (raise best windowMin)) := by
  cases best with
  | none => rfl
  | some peak =>
    unfold Pass.score webStatsOf
    rw [raise_some]
    by_cases h : peak < windowMin
    · rw [if_pos (by simp [h]), max_eq_right (le_of_lt h)]
    · rw [if_neg (by simp [not_lt.1 h]), max_eq_left (not_lt.1 h)]

theorem webMinFrom_eq (first : ℤ × ℚ) (rest : List (ℤ × ℚ)) :
    ((first :: rest).map Prod.snd).min? = some (Pass.minFrom first.2 rest) := by
  unfold Pass.minFrom
  simp only [min_of_lt]
  rw [List.map_cons, List.min?_cons', List.foldl_map]

section

variable {p : Pass} {series : List (ℤ × Option ℚ)} {best : Option ℚ}

/-- **Step lemma.** A flow joins the window. -/
theorem tracks_webTake (h : Tracks 700 none series p.win p.runStartT best)
    (hs : p.stats = webStatsOf best) {t : ℤ} {f : ℚ}
    (hsorted : ((series ++ [(t, some f)]).map Prod.fst).Pairwise (· ≤ ·)) :
    ∃ best', Tracks 700 none (series ++ [(t, some f)]) (p.take t f).win (p.take t f).runStartT best' ∧
      (p.take t f).stats = webStatsOf best' := by
  have hvalue := h.value (by decide) (by decide) hsorted
  refine ⟨_, hvalue, ?_⟩
  unfold Pass.take
  dsimp only
  by_cases hheld : K_PEAK_HOLD_MS ≤ t - p.runStartT.getD t
  · have hlong : (700 : ℤ) ≤ t - p.runStartT.getD t := hheld
    rw [if_pos hheld, if_pos hlong]
    have hpush : push none (p.win.dropWhile fun x => decide (x.1 < t - 700)) (t, f) =
        (p.win.dropWhile fun x => x.1 < t - K_PEAK_HOLD_MS) ++ [(t, f)] := rfl
    rw [hpush]
    split
    · next hnil => exact absurd hnil (List.concat_ne_nil _ _)
    · next first rest hwin =>
      rw [hwin, webMinFrom_eq, hs, score_webStatsOf]
      rfl
  · have hshort : ¬ (700 : ℤ) ≤ t - p.runStartT.getD t := hheld
    rw [if_neg hheld, if_neg hshort]
    exact hs

end

/-- What the pass has after the first points. -/
structure WebReduced (samples : List Sample) (n : ℕ) (p : Pass) : Prop where
  hint : p.hint = (Pumpbug.flowSweep samples n).2
  tracks : ∃ best, Tracks 700 none (timed samples n) p.win p.runStartT best ∧
    p.stats = webStatsOf best

/-- **Run lemma.** -/
theorem webReduced_foldl {samples : List Sample} (h : Plain samples) (baseline : ℚ) {n : ℕ}
    (hn : n ≤ samples.length) :
    WebReduced samples n ((List.range n).foldl (Pass.step (samples.map (pt baseline))) {}) := by
  induction n with
  | zero => exact ⟨rfl, none, tracks_nil _ _, rfl⟩
  | succ n ih =>
    have hlt : n < samples.length := hn
    obtain ⟨hhint, best, htracks, hstats⟩ := ih (Nat.le_of_succ_le hn)
    rw [List.range_succ, List.foldl_append]
    generalize (List.range n).foldl (Pass.step (samples.map (pt baseline))) {} = p
      at hhint htracks hstats
    have hsorted := timed_sorted h (n + 1)
    have htimed := timed_succ hlt
    have hsweep := flowSweep_succ samples n
    show WebReduced samples (n + 1) (p.step (samples.map (pt baseline)) n)
    unfold Pass.step
    rw [List.getElem?_map, List.getElem?_eq_getElem hlt, hhint,
      sampleFlow_pt h baseline (flowSweep_hint h n)]
    unfold flowAt at htimed
    cases hflow : robustSampleFlow samples n (Pumpbug.flowSweep samples n).2 with
    | none =>
      rw [hflow] at hsweep htimed
      refine ⟨by rw [hsweep]; rfl, best, ?_, hstats⟩
      rw [htimed]
      exact htracks.gap _
    | some flow =>
      obtain ⟨f, beforeHint⟩ := flow
      rw [hflow] at hsweep htimed
      rw [htimed] at hsorted
      obtain ⟨best', htracks', hstats'⟩ := tracks_webTake htracks hstats hsorted
      refine ⟨by rw [hsweep]; rfl, best', ?_, hstats'⟩
      rw [htimed]
      exact htracks'

/-! ## Agreement -/

/-- The flows of a shot, each with the time that the browser has for its sample. -/
def flowSeries (beginMs : U32) (samples : List Sample) : List (ℤ × Option ℚ) :=
  (samples.map (unwrapped beginMs)).zip (Pumpbug.flowSweep samples samples.length).1

theorem flowSeries_eq {beginMs : U32} {samples : List Sample} (h : Clear beginMs samples) :
    flowSeries beginMs samples = timed samples samples.length := by
  unfold flowSeries timed
  rw [List.take_length, List.map_congr_left fun s hs => h.time hs]

/-- **Result.** The browser has the flows of the firmware, sample by sample, and its statistics are
the sustained peak of the series.  The firmware's are the sustained peak over the newest flows of
each window, as many as its ring holds. -/
theorem flow_series_agrees (beginMs : U32) (baseline : ℚ) (samples : List Sample)
    (h : Clear beginMs samples) :
    let pts := samples.map (point beginMs baseline)
    let series := flowSeries beginMs samples
    let js := Web.RobustFlow.computeFlowSeriesStats pts
    let firmware := Pumpbug.computeFlowSeriesStats samples
    (Web.RobustFlow.flowSweep pts pts.length).1 = (Pumpbug.flowSweep samples samples.length).1 ∧
      js = webStatsOf (peak 700 none series) ∧
      firmware = statsOf (peak 700 (some kCap) series) ∧
      firmware.found = js.found ∧
      ((∀ p, p <+: series → (trailing 700 (run p)).length ≤ kCap) →
        firmware.sustainedPeakGPerS = js.sustainedPeakGPerS) := by
  have hpts : (samples.map (point beginMs baseline)).length = samples.length := List.length_map _
  have hjs : Web.RobustFlow.computeFlowSeriesStats (samples.map (point beginMs baseline)) =
      webStatsOf (peak 700 none (flowSeries beginMs samples)) := by
    obtain ⟨best, htracks, hstats⟩ :=
      (webReduced_foldl h.plain baseline (Nat.le_refl samples.length)).tracks
    unfold Web.RobustFlow.computeFlowSeriesStats
    rw [hpts, h.points, flowSeries_eq h, hstats, htracks.best]
  have hfirmware : Pumpbug.computeFlowSeriesStats samples =
      statsOf (peak 700 (some kCap) (flowSeries beginMs samples)) := by
    obtain ⟨best, htracks, hstats⟩ := (reduced_foldl h.plain (Nat.le_refl samples.length)).tracks
    unfold Pumpbug.computeFlowSeriesStats
    rw [flowSeries_eq h, hstats, htracks.best]
  have hfound (peak : Option ℚ) : (statsOf peak).found = peak.isSome ∧
      (webStatsOf peak).found = peak.isSome ∧
        (statsOf peak).sustainedPeakGPerS = (webStatsOf peak).sustainedPeakGPerS := by
    cases peak with
    | none => exact ⟨rfl, rfl, rfl⟩
    | some peak => exact ⟨rfl, rfl, rfl⟩
  refine ⟨?_, hjs, hfirmware, ?_, fun hfew => ?_⟩
  · rw [hpts, h.points, flowSweep_pt h.plain]
  · rw [hjs, hfirmware, (hfound _).1, (hfound _).2.1]
    exact isSome_peak (by decide) _
  · rw [hjs, hfirmware, peak_of_few hfew]
    exact (hfound _).2.2

/-- Samples every `gapMs` from `beginMs` on, of a flow that rises. -/
def rising (beginMs : U32) (gapMs count : ℕ) : List Sample :=
  (List.range count).map fun k =>
    { tMs := beginMs + BitVec.ofNat 32 (gapMs * k), cg := BitVec.ofNat 16 (k * k) }

theorem flow_series_agrees_rising :
    let samples := rising 1000 100 11
    let pts := samples.map (point 1000 3)
    Clear 1000 samples ∧
      (Web.RobustFlow.flowSweep pts pts.length).1 = (Pumpbug.flowSweep samples samples.length).1 ∧
      (Pumpbug.computeFlowSeriesStats samples).sustainedPeakGPerS =
        (Web.RobustFlow.computeFlowSeriesStats pts).sustainedPeakGPerS := by
  have hclear : Clear 1000 (rising 1000 100 11) := ⟨by decide +kernel, by decide +kernel⟩
  have hfew : ∀ p ∈ (flowSeries 1000 (rising 1000 100 11)).inits,
      (trailing 700 (run p)).length ≤ kCap := by decide +kernel
  obtain ⟨hflows, -, -, -, hpeak⟩ := flow_series_agrees 1000 3 (rising 1000 100 11) hclear
  exact ⟨hclear, hflows, hpeak fun p hp => hfew p ((List.mem_inits p _).2 hp)⟩

/-- Over the wrap of the counter the firmware has no flow.  At 50 samples a second the hold time has
more samples than the ring. -/
theorem not_flow_series_agrees :
    (¬ ∀ (beginMs : U32) (baseline : ℚ) (samples : List Sample),
      (samples.map (unwrapped beginMs)).Pairwise (· ≤ ·) →
        (Web.RobustFlow.flowSweep (samples.map (point beginMs baseline)) samples.length).1 =
          (Pumpbug.flowSweep samples samples.length).1) ∧
      ¬ ∀ (beginMs : U32) (baseline : ℚ) (samples : List Sample), Clear beginMs samples →
        (Pumpbug.computeFlowSeriesStats samples).sustainedPeakGPerS =
          (Web.RobustFlow.computeFlowSeriesStats
            (samples.map (point beginMs baseline))).sustainedPeakGPerS := by
  constructor
  · intro hall
    exact absurd (hall 0xFFFFFE0C 0 (rising 0xFFFFFE0C 100 11) (by decide +kernel))
      (by decide +kernel)
  · intro hall
    exact absurd (hall 1000 0 (rising 1000 20 37) ⟨by decide +kernel, by decide +kernel⟩)
      (by decide +kernel)

end Pumpbug.FlowAgreement
