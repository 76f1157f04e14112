import Pumpbug.Web.FlowProfile

/-!
# Yield crossings

The pass over the points follows the polyline that joins the running maxima at the samples.  On it
every crossing is the earliest, later points do not move it, and the balance is a share of the
active window.
-/

namespace Pumpbug.Web.FlowProfile

open Lib

/-! ## The running maximum -/

/-- The running maxima at the points, from `prevCg` on. -/
def envelopeFrom : ℚ → List Point → List (ℚ × ℚ)
  | _, [] => []
  | prevCg, p :: pts =>
    let curCg := max prevCg (max 0 (mathRound p.cg))
    (p.tMs, curCg) :: envelopeFrom curCg pts

/-- The running maximum of the non-negative yield, in whole centigrams. -/
def envelope (pts : List Point) : List (ℚ × ℚ) := envelopeFrom 0 pts

section Envelope

variable {c prevT prevCg : ℚ}

theorem crossFrom_eq (h : prevCg < c) (pts : List Point) : crossFrom c prevT prevCg pts =
    Polyline.crossing c ((prevT, prevCg) :: envelopeFrom prevCg pts) := by
  induction pts generalizing prevT prevCg with
  | nil =>
    show none = if c ≤ prevCg then some prevT else none
    rw [if_neg (not_le.2 h)]
  | cons p pts ih =>
    unfold crossFrom envelopeFrom Polyline.crossing
    dsimp only
    rw [if_neg (not_le.2 h)]
    by_cases hreach : c ≤ max prevCg (max 0 (mathRound p.cg : ℚ))
    · have hrise : max prevCg (max 0 (mathRound p.cg : ℚ)) ≠ prevCg := (h.trans_le hreach).ne'
      rw [if_pos hreach, if_pos hreach, if_neg hrise]
    · rw [if_neg hreach, if_neg hreach]
      exact ih (not_le.1 hreach)

/-- **The pass follows the running maximum.** -/
theorem crossingTimeMs_eq (pts : List Point) (c : ℚ) :
    crossingTimeMs pts c = Polyline.crossing c (envelope pts) := by
  cases pts with
  | nil => rfl
  | cons p pts =>
    have hfirst : max 0 (max 0 (mathRound p.cg : ℚ)) = max 0 (mathRound p.cg : ℚ) :=
      max_eq_right (le_max_left _ _)
    unfold crossingTimeMs envelope envelopeFrom
    dsimp only
    rw [hfirst]
    by_cases hreach : c ≤ max 0 (mathRound p.cg : ℚ)
    · rw [if_pos hreach]
      cases envelopeFrom (max 0 (mathRound p.cg : ℚ)) pts with
      | nil =>
        unfold Polyline.crossing
        rw [if_pos hreach]
      | cons b l =>
        unfold Polyline.crossing
        rw [if_pos hreach]
    · rw [if_neg hreach, crossFrom_eq (not_le.1 hreach)]

theorem envelopeFrom_append (prevCg : ℚ) (pre post : List Point) :
    ∃ m, envelopeFrom prevCg (pre ++ post) = envelopeFrom prevCg pre ++ envelopeFrom m post := by
  induction pre generalizing prevCg with
  | nil => exact ⟨prevCg, rfl⟩
  | cons p pre ih =>
    obtain ⟨m, hm⟩ := ih (max prevCg (max 0 (mathRound p.cg)))
    refine ⟨m, ?_⟩
    show (_ :: envelopeFrom _ (pre ++ post)) = _
    rw [hm]
    rfl

theorem envelopeFrom_fst (pts : List Point) :
    (envelopeFrom prevCg pts).map Prod.fst = pts.map Point.tMs := by
  induction pts generalizing prevCg with
  | nil => rfl
  | cons p pts ih =>
    show p.tMs :: (envelopeFrom _ pts).map Prod.fst = p.tMs :: pts.map Point.tMs
    rw [ih]

theorem envelope_timed {pts : List Point} (h : pts.Pairwise fun a b => a.tMs ≤ b.tMs) :
    Polyline.Timed (envelope pts) := by
  have htimes : ((envelope pts).map Prod.fst).Pairwise (· ≤ ·) := by
    unfold envelope
    rw [envelopeFrom_fst, List.pairwise_map]
    exact h
  exact List.pairwise_map.1 htimes

theorem buildYieldPoints_pairwise (extraction : Extraction) :
    (buildYieldPoints extraction).Pairwise fun a b => a.tMs ≤ b.tMs := by
  have hpairs := @List.pairwise_mergeSort Point (fun a b => decide (a.tMs ≤ b.tMs))
    (fun a b c hab hbc => decide_eq_true ((of_decide_eq_true hab).trans (of_decide_eq_true hbc)))
    (fun a b => by simpa using le_total a.tMs b.tMs)
    (extraction.samples.filterMap (yieldPoint extraction))
  refine hpairs.imp ?_
  intro a b h
  exact of_decide_eq_true h

end Envelope

/-! ## The final yield -/

theorem runningMaxYieldCg_nonneg (pts : List Point) : 0 ≤ runningMaxYieldCg pts := by
  have hkeep : ∀ m, 0 ≤ m → 0 ≤ pts.foldl (fun maxCg pt => max maxCg (mathRound pt.cg)) m := by
    induction pts with
    | nil => exact fun m hm => hm
    | cons p pts ih => exact fun m hm => ih _ (hm.trans (le_max_left _ _))
  exact hkeep 0 le_rfl

theorem finalYieldCg_nonneg (extraction : Extraction) (pts : List Point) :
    0 ≤ finalYieldCg extraction pts := by
  unfold finalYieldCg
  split_ifs with hyield hgain
  · exact hyield.2.le
  · exact hgain.le
  · exact Int.cast_nonneg (runningMaxYieldCg_nonneg pts)

/-! ## The profile -/

/-- `τ` is the earliest time at which the running maximum of the points reaches `c`, and later
points do not move it. -/
structure Crosses (pts : List Point) (c τ : ℚ) : Prop where
  reached : ∃ v, c ≤ v ∧ Polyline.On (envelope pts) τ v
  earliest : ∀ τ' v, Polyline.On (envelope pts) τ' v → c ≤ v → τ ≤ τ'
  kept : ∀ pre post, pts = pre ++ post → crossingTimeMs pre c = some τ →
    ∀ post', crossingTimeMs (pre ++ post') c = some τ

section Profile

variable {pts : List Point} {c c' τ τ' : ℚ}

theorem crosses_of_crossingTimeMs (ht : pts.Pairwise fun a b => a.tMs ≤ b.tMs)
    (h : crossingTimeMs pts c = some τ) : Crosses pts c τ := by
  rw [crossingTimeMs_eq] at h
  refine ⟨Polyline.on_crossing h, ?_, ?_⟩
  · intro τ' v hon hv
    exact Polyline.crossing_le (envelope_timed ht) h hon hv
  · intro pre post _ hpre post'
    obtain ⟨m, hm⟩ := envelopeFrom_append 0 pre post'
    rw [crossingTimeMs_eq] at hpre ⊢
    unfold envelope at hpre ⊢
    rw [hm]
    exact Polyline.crossing_append hpre _

theorem crossingTimeMs_mono (ht : pts.Pairwise fun a b => a.tMs ≤ b.tMs) (hc : c ≤ c')
    (h : crossingTimeMs pts c = some τ) (h' : crossingTimeMs pts c' = some τ') : τ ≤ τ' := by
  rw [crossingTimeMs_eq] at h h'
  exact Polyline.crossing_mono (envelope_timed ht) hc h h'

/-- A share of a window, in permille. -/
theorem mathRound_permille {a b : ℚ} (ha : 0 ≤ a) (hab : a ≤ b) (hb : 0 < b) :
    0 ≤ mathRound (a * 1000 / b) ∧ mathRound (a * 1000 / b) ≤ 1000 := by
  have hshare : a * 1000 / b ≤ 1000 := by
    rw [div_le_iff₀ hb]
    linarith
  have hpos : 0 ≤ a * 1000 / b := div_nonneg (by linarith) hb.le
  unfold mathRound
  refine ⟨Int.floor_nonneg.2 (by linarith), ?_⟩
  have hlt : ⌊a * 1000 / b + 1 / 2⌋ < 1001 := by
    rw [Int.floor_lt]
    push_cast
    linarith
  omega

/-- What makes a profile valid. -/
theorem compute_ok {extraction : Extraction} {t : Thresholds} {p : Profile}
    (h : compute extraction t = .ok p) :
    p.points = buildYieldPoints extraction ∧ p.yieldCg = finalYieldCg extraction p.points ∧
      crossingTimeMs p.points (p.yieldCg * (5 / 100)) = some p.t5Ms ∧
      crossingTimeMs p.points (p.yieldCg * (25 / 100)) = some p.t25Ms ∧
      crossingTimeMs p.points (p.yieldCg * (50 / 100)) = some p.t50Ms ∧
      crossingTimeMs p.points (p.yieldCg * (75 / 100)) = some p.t75Ms ∧
      crossingTimeMs p.points (p.yieldCg * (95 / 100)) = some p.t95Ms ∧
      t.minActiveMs ≤ p.t95Ms - p.t5Ms ∧
      p.balancePermille = mathRound ((p.t50Ms - p.t5Ms) * 1000 / (p.t95Ms - p.t5Ms)) := by
  unfold compute at h
  dsimp only at h
  split_ifs at h with hfew hsmall
  split at h
  · rename_i t5 t25 t50 t75 t95 h5 h25 h50 h75 h95
    split_ifs at h with hshort
    obtain rfl := Except.ok.inj h
    exact ⟨rfl, rfl, h5, h25, h50, h75, h95, not_lt.1 hshort, rfl⟩
  · exact absurd h nofun

/-- **The crossings of a valid profile.** They come in order, each is the earliest on the running
maximum, and the balance is a share of the active window. -/
theorem profile_crossings {extraction : Extraction} {p : Profile}
    (h : compute extraction DEFAULT_THRESHOLDS = .ok p) :
    (p.t5Ms ≤ p.t25Ms ∧ p.t25Ms ≤ p.t50Ms ∧ p.t50Ms ≤ p.t75Ms ∧ p.t75Ms ≤ p.t95Ms) ∧
      (Crosses (buildYieldPoints extraction) (p.yieldCg * (5 / 100)) p.t5Ms ∧
        Crosses (buildYieldPoints extraction) (p.yieldCg * (25 / 100)) p.t25Ms ∧
        Crosses (buildYieldPoints extraction) (p.yieldCg * (50 / 100)) p.t50Ms ∧
        Crosses (buildYieldPoints extraction) (p.yieldCg * (75 / 100)) p.t75Ms ∧
        Crosses (buildYieldPoints extraction) (p.yieldCg * (95 / 100)) p.t95Ms) ∧
      p.yieldCg = finalYieldCg extraction (buildYieldPoints extraction) ∧
      0 ≤ p.balancePermille ∧ p.balancePermille ≤ 1000 := by
  obtain ⟨hpoints, hyield, h5, h25, h50, h75, h95, hactive, hbalance⟩ := compute_ok h
  rw [hpoints] at hyield h5 h25 h50 h75 h95
  have ht := buildYieldPoints_pairwise extraction
  have hnonneg : 0 ≤ p.yieldCg := by
    rw [hyield]
    exact finalYieldCg_nonneg extraction _
  have h₁ := crossingTimeMs_mono ht (by linarith) h5 h25
  have h₂ := crossingTimeMs_mono ht (by linarith) h25 h50
  have h₃ := crossingTimeMs_mono ht (by linarith) h50 h75
  have h₄ := crossingTimeMs_mono ht (by linarith) h75 h95
  have hwindow : (2000 : ℚ) ≤ p.t95Ms - p.t5Ms := hactive
  refine ⟨⟨h₁, h₂, h₃, h₄⟩, ?_, hyield, ?_⟩
  · exact ⟨crosses_of_crossingTimeMs ht h5, crosses_of_crossingTimeMs ht h25,
      crosses_of_crossingTimeMs ht h50, crosses_of_crossingTimeMs ht h75,
      crosses_of_crossingTimeMs ht h95⟩
  · rw [hbalance]
    exact mathRound_permille (by linarith) (by linarith) (by linarith)

/-! ## A record with a dip -/

/-- A pour whose cup is lifted for a moment. -/
def dippedExtraction : Extraction where
  samples := [(0, 0), (500, 100), (1000, 200), (1500, 500), (2000, 0), (2500, 1500), (3000, 1600),
    (3500, 1700), (4000, 1800), (4500, 2000)].map fun s => { tMs := some s.1, cg := some s.2 }
  yieldCg := some 2000

def dippedPoints : List Point :=
  [(0, 0), (500, 100), (1000, 200), (1500, 500), (2000, 0), (2500, 1500), (3000, 1600),
    (3500, 1700), (4000, 1800), (4500, 2000)].map fun s =>
      { tMs := s.1, cg := s.2, g := s.2 / 100, scaleTimerMs := SCALE_TIMER_UNKNOWN_MS }

theorem buildYieldPoints_dipped : buildYieldPoints dippedExtraction = dippedPoints := by
  have hpoints : dippedExtraction.samples.filterMap (yieldPoint dippedExtraction) = dippedPoints := by
    decide +kernel
  unfold buildYieldPoints
  rw [hpoints]
  exact List.mergeSort_of_pairwise (by decide +kernel)

def dippedProfile : Profile where
  points := dippedPoints
  yieldCg := 2000
  t5Ms := 500
  t25Ms := 1500
  t50Ms := 2250
  t75Ms := 2500
  t95Ms := 4250
  activeMs := 3750
  tempoCgPerS := 480
  balancePermille := 467

theorem compute_dipped : compute dippedExtraction DEFAULT_THRESHOLDS = .ok dippedProfile := by
  unfold compute
  rw [buildYieldPoints_dipped]
  decide +kernel

theorem profile_crossings_dipped :
    (dippedProfile.t5Ms ≤ dippedProfile.t25Ms ∧ dippedProfile.t25Ms ≤ dippedProfile.t50Ms ∧
      dippedProfile.t50Ms ≤ dippedProfile.t75Ms ∧ dippedProfile.t75Ms ≤ dippedProfile.t95Ms) ∧
    Crosses (buildYieldPoints dippedExtraction) (dippedProfile.yieldCg * (50 / 100)) 2250 ∧
    0 ≤ dippedProfile.balancePermille ∧ dippedProfile.balancePermille ≤ 1000 := by
  obtain ⟨hsorted, ⟨-, -, h50, -, -⟩, -, hbalance⟩ := profile_crossings compute_dipped
  exact ⟨hsorted, h50, hbalance⟩

/-- The non-negative yield of the points, joined as it is. -/
def yieldLine (pts : List Point) : List (ℚ × ℚ) := pts.map fun p => (p.tMs, max 0 p.cg)

/-- Behind a dip the pass is ahead of the yield that is interpolated between the samples. -/
theorem not_interpolated_reached :
    ¬ ∀ extraction p, compute extraction DEFAULT_THRESHOLDS = .ok p →
      ∃ τ' v, τ' ≤ p.t50Ms ∧ p.yieldCg * (50 / 100) ≤ v ∧
        Polyline.On (yieldLine (buildYieldPoints extraction)) τ' v := by
  intro hall
  obtain ⟨τ', v, hτ', hv, hon⟩ := hall dippedExtraction dippedProfile compute_dipped
  rw [buildYieldPoints_dipped] at hon
  have htimed : Polyline.Timed (yieldLine dippedPoints) := by
    unfold Polyline.Timed
    decide +kernel
  have hcross : Polyline.crossing (dippedProfile.yieldCg * (50 / 100)) (yieldLine dippedPoints) =
      some (7000 / 3) := by
    decide +kernel
  have hlate := Polyline.crossing_le htimed hcross hon hv
  have hearly : τ' ≤ 2250 := hτ'
  linarith

end Profile

end Pumpbug.Web.FlowProfile
