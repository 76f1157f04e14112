import Pumpbug.TargetAlert
import Pumpbug.Lib.Run
import Mathlib.Tactic.Linarith
import Mathlib.Tactic.Positivity
import Mathlib.Tactic.FieldSimp

/-!
# The cut decision and the cadence clock

The header has `STOP_NOW` turn on exactly when the clock has run down.  The decision compares the
projection with the target; the clock divides the room that is left by the flow, rounds, and takes
off the reaction lead.
-/

namespace Pumpbug

open Lib

/-! ## Rounding -/

theorem round_intCast (n : ℤ) : round n = n := by
  unfold round
  have hhalf : ⌊(1 / 2 : ℚ)⌋ = 0 := by norm_num
  split_ifs
  · rw [← Int.cast_neg, Int.floor_intCast_add, hhalf]
    omega
  · rw [Int.floor_intCast_add, hhalf, add_zero]

theorem round_nonpos {q : ℚ} (h : q ≤ 0) : round q ≤ 0 := by
  unfold round
  split_ifs with hneg
  · have : 0 ≤ ⌊-q + 1 / 2⌋ := Int.floor_nonneg.2 (by linarith)
    omega
  · have hzero : q = 0 := le_antisymm h (not_lt.1 hneg)
    rw [hzero]
    norm_num

/-- A count is passed by a rounded value exactly when the value is at least halfway to the next
one. -/
theorem lt_round_iff {q : ℚ} (h : 0 ≤ q) (n : ℤ) : n < round q ↔ n + 1 / 2 ≤ q := by
  unfold round
  rw [if_neg (not_lt.2 h), ← Int.add_one_le_iff, Int.le_floor]
  push_cast
  constructor
  · intro hle
    linarith
  · intro hle
    linarith

theorem toInt_clampToInt16 (n : ℤ) : (clampToInt16 n).toInt = max (-32767) (min n 32767) := by
  have hint : round (n : ℚ) = n := round_intCast n
  unfold clampToInt16
  rw [hint]
  split_ifs with hhigh hlow
  · have : (32767 : ℤ) < n := by exact_mod_cast hhigh
    rw [toInt_i16 (by omega) (by omega)]
    omega
  · have : n < -32767 := by exact_mod_cast hlow
    rw [toInt_i16 (by omega) (by omega)]
    omega
  · have h₁ : ¬ (32767 : ℤ) < n := fun h => hhigh (by exact_mod_cast h)
    have h₂ : ¬ n < -32767 := fun h => hlow (by exact_mod_cast h)
    rw [toInt_i16 (by omega) (by omega)]
    omega

namespace TargetAlert

/-! ## One tick -/

structure Tick where
  nowMs : U32
  phaseRunning : Bool
  sample : TrustedYieldSample
  deriving DecidableEq

def tick (t : TargetAlert) (k : Tick) : TargetAlert := t.update k.nowMs k.phaseRunning k.sample

/-- A running tick of an armed alert with a target that has not fired, with a sample ingested and a
flow of `f`. -/
def Decides (t : TargetAlert) (k : Tick) (f : ℚ) : Prop :=
  t.coeffs.armed = true ∧ 0 < t.coeffs.targetCg.toInt ∧ k.phaseRunning = true ∧
    t.stopNowFired = false ∧ (t.ingest k.phaseRunning k.sample).haveSample = true ∧
    (t.ingest k.phaseRunning k.sample).validFlow k.nowMs = some f

/-- The level is the one that the clock says. -/
def FollowsClock (s : AlertState) : Prop :=
  (s.level = .stopNow ↔ s.tRemainingMs ≤ 0) ∧
    (s.level = .approaching ↔ 0 < s.tRemainingMs ∧ s.tRemainingMs ≤ 5000) ∧
    (s.level = .off ↔ 5000 < s.tRemainingMs)

/-- The weight that a cut at flow `f` still adds, in whole centigrams between 0 and 10 g. -/
def postCutCg (c : TargetCoeffs) (f : ℚ) : ℤ :=
  round (min (max (f * (c.tauMs.toNat / 1000) + c.cCg.toInt) 0) 1000)

/-- What is missing to the target if the pump is cut at the yield `yieldCg`. -/
def roomCg (c : TargetCoeffs) (yieldCg : I16) (f : ℚ) : ℤ :=
  c.targetCg.toInt - yieldCg.toInt - postCutCg c f

/-- No room is left, or more than the operator's reaction lead takes up. -/
def LeadFits (c : TargetCoeffs) (yieldCg : I16) (f : ℚ) : Prop :=
  roomCg c yieldCg f ≤ 0 ∨
    (c.reactionLeadMs.toNat + 1 / 2 : ℚ) * f ≤ roomCg c yieldCg f * 1000

section

variable {t : TargetAlert} {k : Tick} {f : ℚ}

theorem ingest_coeffs (t : TargetAlert) (phaseRunning : Bool) (sample : TrustedYieldSample) :
    (t.ingest phaseRunning sample).coeffs = t.coeffs ∧
      (t.ingest phaseRunning sample).stopNowFired = t.stopNowFired := by
  unfold ingest
  split_ifs
  · dsimp only
    split_ifs <;> exact ⟨rfl, rfl⟩
  · exact ⟨rfl, rfl⟩

/-- A valid flow is above the floor. -/
theorem validFlow_pos {t : TargetAlert} {nowMs : U32} (h : t.validFlow nowMs = some f) : 0 < f := by
  unfold validFlow at h
  split_ifs at h
  obtain ⟨-, hfloor⟩ := Option.filter_eq_some_iff.1 h
  have hmin : kFlowFloorCgPerS ≤ f := of_decide_eq_true hfloor
  unfold kFlowFloorCgPerS at hmin
  linarith

/-- What a deciding tick reports. -/
theorem tick_state (h : t.Decides k f) :
    let room := roomCg t.coeffs (t.ingest k.phaseRunning k.sample).lastYieldCg f
    let s := (t.tick k).state
    s.tRemainingMs = round ((room : ℚ) * 1000 / f) - t.coeffs.reactionLeadMs.toNat ∧
      s.level = if room ≤ 0 then .stopNow
        else if 0 < s.tRemainingMs ∧ s.tRemainingMs ≤ 5000 then .approaching else .off := by
  obtain ⟨harmed, htarget, hrunning, hfired, hhave, hflow⟩ := h
  obtain ⟨hcoeffs, hsame⟩ := t.ingest_coeffs k.phaseRunning k.sample
  unfold tick update
  generalize t.ingest k.phaseRunning k.sample = u at hhave hflow hcoeffs hsame ⊢
  intro room s
  have hover : u.overshootCg (some f) = postCutCg t.coeffs f := by
    unfold overshootCg
    rw [hcoeffs]
    rfl
  have hclock : u.tRemainingMs (some f) =
      round ((room : ℚ) * 1000 / f) - t.coeffs.reactionLeadMs.toNat := by
    unfold tRemainingMs
    rw [hhave, hover, hcoeffs]
    rfl
  have hreached : t.coeffs.targetCg.toInt ≤ (u.projectedCg (some f)).toInt ↔ room ≤ 0 := by
    have hroom : room = t.coeffs.targetCg.toInt - u.lastYieldCg.toInt - postCutCg t.coeffs f := rfl
    have hrange := toInt_bounds t.coeffs.targetCg
    unfold projectedCg
    rw [hhave, if_pos rfl, hover, ← Int.cast_add, toInt_clampToInt16]
    omega
  have hrem : s.tRemainingMs = u.tRemainingMs (some f) := by
    rw [← hflow]
  refine ⟨hrem.trans hclock, ?_⟩
  rw [hrem]
  show (if _ then AlertLevel.stopNow else if _ then AlertLevel.approaching else AlertLevel.off) = _
  rw [hflow, hhave, hcoeffs, hsame, harmed, hrunning, hfired, decide_eq_true htarget]
  by_cases hfull : room ≤ 0
  · simp [hreached.2 hfull, hfull]
  · have hmiss : ¬ t.coeffs.targetCg.toInt ≤ (u.projectedCg (some f)).toInt := by
      rw [hreached]
      exact hfull
    have hwindow : kApproachWindowMs = 5000 := rfl
    rw [hwindow]
    simp [hmiss, hfull]

/-- **Step lemma.** A deciding tick follows its clock exactly when the reaction lead fits the
room. -/
theorem followsClock_iff (h : t.Decides k f) :
    FollowsClock (t.tick k).state ↔
      LeadFits t.coeffs (t.ingest k.phaseRunning k.sample).lastYieldCg f := by
  have hf : 0 < f := validFlow_pos h.2.2.2.2.2
  obtain ⟨hclock, hlevel⟩ := tick_state h
  unfold FollowsClock LeadFits
  generalize (t.tick k).state = s at hclock hlevel ⊢
  generalize roomCg t.coeffs (t.ingest k.phaseRunning k.sample).lastYieldCg f = room at *
  by_cases hfull : room ≤ 0
  · -- the clock has run down before the lead is taken off
    have hq : (room : ℚ) * 1000 / f ≤ 0 := by
      have : (room : ℚ) ≤ 0 := by exact_mod_cast hfull
      exact div_nonpos_of_nonpos_of_nonneg (by linarith) hf.le
    have hdown := round_nonpos hq
    rw [if_pos hfull] at hlevel
    rw [hlevel]
    refine iff_of_true ⟨?_, ?_, ?_⟩ (.inl hfull)
    · exact iff_of_true rfl (by omega)
    · exact iff_of_false nofun (by omega)
    · exact iff_of_false nofun (by omega)
  · have hroom : (0 : ℚ) < room := by exact_mod_cast not_le.1 hfull
    have hfits : (t.coeffs.reactionLeadMs.toNat + 1 / 2 : ℚ) * f ≤ room * 1000 ↔
        0 < s.tRemainingMs := by
      rw [hclock, sub_pos, lt_round_iff (by positivity), le_div_iff₀ hf]
      push_cast
      rfl
    rw [or_iff_right hfull, hfits]
    rw [if_neg hfull] at hlevel
    constructor
    · rintro ⟨hstop, -, -⟩
      by_contra hdown
      have hnow := hstop.2 (not_lt.1 hdown)
      rw [hlevel] at hnow
      split_ifs at hnow
    · intro hleft
      rw [hlevel]
      by_cases hnear : s.tRemainingMs ≤ 5000
      · rw [if_pos ⟨hleft, hnear⟩]
        refine ⟨iff_of_false nofun (by omega), iff_of_true rfl ⟨hleft, hnear⟩,
          iff_of_false nofun (by omega)⟩
      · rw [if_neg fun h => hnear h.2]
        refine ⟨iff_of_false nofun (by omega), iff_of_false nofun fun h => hnear h.2,
          iff_of_true rfl (by omega)⟩

end

/-! ## Runs -/

/-- **Result.** In every run the level follows the clock at all deciding ticks exactly when the
reaction lead fits the room at all of them. -/
theorem cut_follows_clock_iff (t : TargetAlert) (ticks : List Tick) :
    Along tick (fun t k => ∀ f, t.Decides k f → FollowsClock (t.tick k).state) t ticks ↔
      Along tick (fun t k => ∀ f, t.Decides k f →
        LeadFits t.coeffs (t.ingest k.phaseRunning k.sample).lastYieldCg f) t ticks := by
  rw [along_iff_forall_split, along_iff_forall_split]
  refine forall_congr' fun pre => forall_congr' fun k => forall_congr' fun post => ?_
  refine forall_congr' fun _ => forall_congr' fun f => ?_
  exact forall_congr' fun h => followsClock_iff h

/-- Three readings of a shot that gains 2 g a second, the last 40 cg short of the target. -/
def shortOfTarget : List Tick :=
  [⟨1000, true, { have_ := true, yieldCg := 3000, tMs := 1000, seq := 1 }⟩,
    ⟨1150, true, { have_ := true, yieldCg := 3030, tMs := 1150, seq := 2 }⟩,
    ⟨1300, true, { have_ := true, yieldCg := 3060, tMs := 1300, seq := 3 }⟩]

/-- An alert for 31 g with a reaction lead of a quarter of a second. -/
def leadingAlert : TargetAlert :=
  { coeffs := { armed := true, targetCg := 3100, tauMs := 0, cCg := 0, reactionLeadMs := 250 } }

/-- The clock has run down by the reaction lead, and the alert is off. -/
theorem not_cut_follows_clock : ¬ ∀ (t : TargetAlert) (ticks : List Tick),
    Along tick (fun t k => ∀ f, t.Decides k f → FollowsClock (t.tick k).state) t ticks := by
  intro h
  obtain ⟨-, -, hlast, -⟩ := h leadingAlert shortOfTarget
  have hdecides : ((leadingAlert.tick shortOfTarget[0]).tick shortOfTarget[1]).Decides
      shortOfTarget[2] 200 := by
    unfold Decides
    decide +kernel
  have hstop := (hlast 200 hdecides).1.2 (by decide +kernel)
  have hoff : (((leadingAlert.tick shortOfTarget[0]).tick shortOfTarget[1]).tick
      shortOfTarget[2]).state.level = .off := by decide +kernel
  exact absurd (hoff.symm.trans hstop) nofun

end TargetAlert

end Pumpbug
