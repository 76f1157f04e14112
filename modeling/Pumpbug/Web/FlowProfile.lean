import Pumpbug.Lib.Polyline
import Mathlib.Algebra.Order.Field.Rat
import Mathlib.Data.Rat.Floor
import Mathlib.Data.List.Sort

/-!
# The flow profile

`flow-profile.js` up to the balance: the samples become yield points, the final yield is chosen, and
five crossings of it bound the active window.  A number that need not be finite is an optional
rational.
-/

namespace Pumpbug.Web.FlowProfile

open Lib

/-- `Math.round`: halves go up. -/
def mathRound (q : ℚ) : ℤ := ⌊q + 1 / 2⌋

def NO_WEIGHT_CG : ℚ := -32768
def SCALE_TIMER_UNKNOWN_MS : ℚ := 4294967295

structure Thresholds where
  minSamples : ℕ := 10
  minYieldCg : ℚ := 1500
  minActiveMs : ℚ := 2000
  deriving DecidableEq

def DEFAULT_THRESHOLDS : Thresholds := {}

structure Sample where
  tMs : Option ℚ := none
  cg : Option ℚ := none
  rawCg : Option ℚ := none
  yieldCg : Option ℚ := none
  scaleTimerMs : Option ℚ := none
  deriving DecidableEq

structure Extraction where
  samples : List Sample := []
  startRawCg : Option ℚ := none
  yieldCg : Option ℚ := none
  decisionGainCg : Option ℚ := none
  deriving DecidableEq

structure Point where
  tMs : ℚ
  cg : ℚ
  g : ℚ
  scaleTimerMs : ℚ
  deriving DecidableEq

def hasWeight (v : Option ℚ) : Bool := v.isSome && v ≠ some NO_WEIGHT_CG

def sampleYieldCg (extraction : Extraction) (sample : Sample) : Option ℚ :=
  let startRawCg := if hasWeight extraction.startRawCg then extraction.startRawCg else none
  match sample.cg with
  | some cg =>
    match startRawCg with
    | none => some cg
    | some start => some (cg - start)
  | none =>
    match sample.rawCg with
    | some rawCg =>
      match startRawCg with
      | none => some rawCg
      | some start => some (rawCg - start)
    | none => sample.yieldCg

/-- The point of a sample with a time and a weight. -/
def yieldPoint (extraction : Extraction) (sample : Sample) : Option Point :=
  match sample.tMs with
  | none => none
  | some tMs =>
    match sampleYieldCg extraction sample with
    | none => none
    | some cg =>
      some { tMs := tMs, cg := cg, g := cg / 100,
             scaleTimerMs := sample.scaleTimerMs.getD SCALE_TIMER_UNKNOWN_MS }

/-- The points, stably sorted by time. -/
def buildYieldPoints (extraction : Extraction) : List Point :=
  (extraction.samples.filterMap (yieldPoint extraction)).mergeSort fun a b => decide (a.tMs ≤ b.tMs)

def runningMaxYieldCg (pts : List Point) : ℤ :=
  pts.foldl (fun maxCg pt => max maxCg (mathRound pt.cg)) 0

/-- The sample maximum can be much larger than the amount poured; it is the last resort. -/
def finalYieldCg (extraction : Extraction) (pts : List Point) : ℚ :=
  if hasWeight extraction.yieldCg ∧ 0 < extraction.yieldCg.getD 0 then extraction.yieldCg.getD 0
  else if 0 < extraction.decisionGainCg.getD 0 then extraction.decisionGainCg.getD 0
  else runningMaxYieldCg pts

/-- The rest of the pass, from the time and the running maximum of the point before. -/
def crossFrom (targetCg : ℚ) : ℚ → ℚ → List Point → Option ℚ
  | _, _, [] => none
  | prevT, prevCg, p :: pts =>
    let curRawCg : ℚ := max 0 (mathRound p.cg)
    let curCg := max prevCg curRawCg
    if targetCg ≤ curCg then
      if curCg = prevCg then some p.tMs
      else
        let frac := (targetCg - prevCg) / (curCg - prevCg)
        some (prevT + frac * (p.tMs - prevT))
    else crossFrom targetCg p.tMs curCg pts

def crossingTimeMs (pts : List Point) (targetCg : ℚ) : Option ℚ :=
  match pts with
  | [] => none
  | p :: pts =>
    let prevCg : ℚ := max 0 (mathRound p.cg)
    if targetCg ≤ prevCg then some p.tMs else crossFrom targetCg p.tMs prevCg pts

/-- The profile, as far as its balance. -/
structure Profile where
  points : List Point
  yieldCg : ℚ
  t5Ms : ℚ
  t25Ms : ℚ
  t50Ms : ℚ
  t75Ms : ℚ
  t95Ms : ℚ
  activeMs : ℚ
  tempoCgPerS : ℚ
  balancePermille : ℤ
  deriving DecidableEq

/-- The profile, or why it is not valid. -/
def compute (extraction : Extraction) (t : Thresholds) : Except String Profile :=
  let pts := buildYieldPoints extraction
  if pts.length < t.minSamples then .error "too few samples"
  else
    let yieldCg := finalYieldCg extraction pts
    if yieldCg < t.minYieldCg then .error "yield too small"
    else
      match crossingTimeMs pts (yieldCg * (5 / 100)), crossingTimeMs pts (yieldCg * (25 / 100)),
          crossingTimeMs pts (yieldCg * (50 / 100)), crossingTimeMs pts (yieldCg * (75 / 100)),
          crossingTimeMs pts (yieldCg * (95 / 100)) with
      | some t5, some t25, some t50, some t75, some t95 =>
        let activeMs := t95 - t5
        if activeMs < t.minActiveMs then .error "active window too short"
        else
          .ok { points := pts, yieldCg := yieldCg, t5Ms := t5, t25Ms := t25, t50Ms := t50,
                t75Ms := t75, t95Ms := t95, activeMs := activeMs,
                tempoCgPerS := yieldCg * 900 / activeMs,
                balancePermille := mathRound ((t50 - t5) * 1000 / activeMs) }
      | _, _, _, _, _ => .error "incomplete yield crossings"

end Pumpbug.Web.FlowProfile
