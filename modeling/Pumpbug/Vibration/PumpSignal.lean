import Pumpbug.Extraction
import Mathlib.Data.List.Sort

/-!
# The pump signal

`VibrationWindowTrigger.h` opens and closes the window in which the pump is heard, and
`PumpDecayTracker.h` notes when its signal may have begun to decay.  `VibrationSensor::analyze`
feeds both with the features of each frame.  A feature that is not finite is `none`.
-/

namespace Pumpbug

/-! ## The window trigger -/

structure VibrationWindowTrigger where
  active : Bool := false
  onCount : ℕ := 0
  offCount : ℕ := 0
  offFailureMask : U8 := 0
  deriving DecidableEq

namespace VibrationWindowTrigger

inductive Event
  | none
  | opened
  | closed
  deriving DecidableEq

def FailureMoving : U8 := 1 <<< 0
def FailureLowSnr : U8 := 1 <<< 1
def FailureSnrInvalid : U8 := 1 <<< 2
def FailurePeakOutOfRange : U8 := 1 <<< 3
def FailurePeakInvalid : U8 := 1 <<< 4

structure StepResult where
  active : Bool := false
  event : Event := .none
  closeFailureMask : U8 := 0
  deriving DecidableEq

/-- Entry SNR floor. -/
def SNR_ON_DB : ℚ := 14

/-- Hysteresis stay floor. -/
def SNR_STAY_DB : ℚ := 11

def PEAK_MIN_HZ : ℚ := 90
def PEAK_MAX_HZ : ℚ := 130

/-- Consecutive frames to open. -/
def N_ON : ℕ := 2

/-- Consecutive frames to close. -/
def N_OFF : ℕ := 4

/-- The stay conditions that the frame fails. -/
def failureMask (stationary : Bool) (snrDb peakHz : Option ℚ) : U8 :=
  (if !stationary then FailureMoving else 0) |||
    (match snrDb with
      | none => FailureSnrInvalid
      | some snr => if snr < SNR_STAY_DB then FailureLowSnr else 0) |||
    (match peakHz with
      | none => FailurePeakInvalid
      | some peak => if peak < PEAK_MIN_HZ ∨ PEAK_MAX_HZ < peak then FailurePeakOutOfRange else 0)

/-- The frame meets the entry conditions. -/
def enter (stationary : Bool) (snrDb peakHz : Option ℚ) : Bool :=
  match snrDb, peakHz with
  | some snr, some peak =>
    stationary && SNR_ON_DB ≤ snr && PEAK_MIN_HZ ≤ peak && peak ≤ PEAK_MAX_HZ
  | _, _ => false

/-- The frame meets the stay conditions. -/
def stay (stationary : Bool) (snrDb peakHz : Option ℚ) : Bool :=
  failureMask stationary snrDb peakHz = 0

/-- Process one set of vibration features. -/
def stepDetailed (t : VibrationWindowTrigger) (stationary : Bool) (snrDb peakHz : Option ℚ) :
    VibrationWindowTrigger × StepResult :=
  let mask := failureMask stationary snrDb peakHz
  if !t.active then
    if enter stationary snrDb peakHz then
      let t := { t with onCount := t.onCount + 1 }
      if N_ON ≤ t.onCount then
        ({ t with active := true, offCount := 0, offFailureMask := 0 },
          { active := true, event := .opened })
      else (t, { active := false })
    else ({ t with onCount := 0 }, { active := false })
  else if stay stationary snrDb peakHz then
    ({ t with offCount := 0, offFailureMask := 0 }, { active := true })
  else
    let t := { t with offCount := t.offCount + 1, offFailureMask := t.offFailureMask ||| mask }
    if N_OFF ≤ t.offCount then
      ({ active := false, onCount := 0, offCount := 0, offFailureMask := 0 },
        { active := false, event := .closed, closeFailureMask := t.offFailureMask })
    else (t, { active := true })

end VibrationWindowTrigger

/-! ## The decay tracker -/

structure PumpDecayTracker where
  /-- The reference readings, oldest first. -/
  reference : List ℚ := []
  candidate : Bool := false
  onsetMs : U32 := 0
  accepted : Bool := false
  acceptedOnsetMs : U32 := 0
  deriving DecidableEq

namespace PumpDecayTracker

def REFERENCE_FRAMES : ℕ := 6
def MIN_REFERENCE_FRAMES : ℕ := 4
def START_DROP_DB : ℚ := 4
def RECOVERY_DROP_DB : ℚ := 2
def MAX_CARRY_MS : U32 := 2000

/-- The reference with a new reading, which pushes out the oldest of a full one. -/
def appendTo (reference : List ℚ) (snrDb : ℚ) : List ℚ :=
  if reference.length < REFERENCE_FRAMES then reference ++ [snrDb] else reference.tail ++ [snrDb]

def appendReference (t : PumpDecayTracker) (snrDb : ℚ) : PumpDecayTracker :=
  { t with reference := appendTo t.reference snrDb }

/-- The largest `e` with `2 ^ e` at most `q`, for a positive `q`. -/
def binaryExponent (q : ℚ) : ℤ :=
  let e : ℤ := q.num.toNat.log2 - q.den.log2
  if (2 : ℚ) ^ e ≤ q then e else e - 1

/-- The nearest integer, of two the even one. -/
def roundEven (q : ℚ) : ℤ :=
  let below := ⌊q⌋
  if q - below < 1 / 2 then below
  else if 1 / 2 < q - below then below + 1
  else if below % 2 = 0 then below else below + 1

/-- The `float` nearest to `q`: 24 significant bits, none of them below `2 ^ -149`. -/
def toFloat (q : ℚ) : ℚ :=
  if q = 0 then 0
  else
    let ulp := (2 : ℚ) ^ max (binaryExponent |q| - 23) (-149)
    roundEven (q / ulp) * ulp

/-- The median of the readings, between the middle two of an even number.  The sum, and the
thresholds below, are rounded as `float` arithmetic rounds them. -/
def referenceMedian (reference : List ℚ) : ℚ :=
  let sorted := reference.insertionSort (· ≤ ·)
  let middle := reference.length / 2
  if reference.length % 2 = 1 then sorted.getD middle 0
  else toFloat (toFloat (sorted.getD (middle - 1) 0 + sorted.getD middle 0) / 2)

def clearReference (t : PumpDecayTracker) : PumpDecayTracker := { t with reference := [] }

def clearWindowState (t : PumpDecayTracker) : PumpDecayTracker :=
  { t.clearReference with candidate := false, onsetMs := 0 }

def clearAll (t : PumpDecayTracker) : PumpDecayTracker :=
  { t.clearWindowState with accepted := false, acceptedOnsetMs := 0 }

/-- Enough readings for a reference. -/
def haveReference (reference : List ℚ) : Bool := MIN_REFERENCE_FRAMES ≤ reference.length

/-- The frame recovers from a drop against the reference. -/
def recovers (reference : List ℚ) (usable : Bool) (rawSnrDb : ℚ) : Bool :=
  usable && haveReference reference &&
    toFloat (referenceMedian reference - RECOVERY_DROP_DB) ≤ rawSnrDb

/-- The frame is a drop against the reference. -/
def drops (reference : List ℚ) (usable : Bool) (rawSnrDb : ℚ) : Bool :=
  haveReference reference &&
    (!usable || rawSnrDb ≤ toFloat (referenceMedian reference - START_DROP_DB))

/-- The first block of `step`, for a frame of an open window. -/
def follow (t : PumpDecayTracker) (nowMs : U32) (usable : Bool) (rawSnrDb : ℚ) : PumpDecayTracker :=
  if t.candidate then
    let recovered := recovers t.reference usable rawSnrDb
    let expired := MAX_CARRY_MS < nowMs - t.onsetMs
    if recovered || expired then
      let t := { t with candidate := false, onsetMs := 0 }
      let t := if expired then t.clearReference else t
      if usable then t.appendReference rawSnrDb else t
    else t
  else if drops t.reference usable rawSnrDb then { t with candidate := true, onsetMs := nowMs }
  else if usable then t.appendReference rawSnrDb
  else t

/-- Advance from one vibration frame, with the window before and after it. -/
def step (t : PumpDecayTracker) (nowMs : U32) (windowWasActive windowIsActive usable : Bool)
    (rawSnrDb : ℚ) : PumpDecayTracker × PumpSignalObservation :=
  let t := if windowWasActive then t.follow nowMs usable rawSnrDb else t
  let t :=
    if !windowWasActive && windowIsActive then
      if usable then t.clearAll.appendReference rawSnrDb else t.clearAll
    else if windowWasActive && !windowIsActive then
      { t with accepted := t.candidate
               acceptedOnsetMs := if t.candidate then t.onsetMs else 0 }.clearWindowState
    else if !windowIsActive then t.clearWindowState
    else t
  (t, { state :=
          if windowIsActive then (if t.candidate then .decayCandidate else .on) else .off
        acceptedDecayOnsetMs := t.acceptedOnsetMs
        hasAcceptedDecayOnset := t.accepted })

end PumpDecayTracker

/-! ## Both together -/

/-- The features of one frame. -/
structure VibrationFrame where
  stationary : Bool
  /-- The smoothed SNR. -/
  snrDb : Option ℚ
  /-- The SNR of the selected cluster. -/
  rawSnrDb : Option ℚ
  peakHz : Option ℚ
  hasCluster : Bool
  nowMs : U32
  deriving DecidableEq

namespace VibrationFrame

/-- `hasUsablePumpMeasurement`. -/
def usable (f : VibrationFrame) : Bool :=
  f.stationary && f.hasCluster && f.rawSnrDb.isSome &&
    match f.peakHz with
    | some peak =>
      VibrationWindowTrigger.PEAK_MIN_HZ ≤ peak && peak ≤ VibrationWindowTrigger.PEAK_MAX_HZ
    | none => false

def enter (f : VibrationFrame) : Bool :=
  VibrationWindowTrigger.enter f.stationary f.snrDb f.peakHz

def stay (f : VibrationFrame) : Bool := VibrationWindowTrigger.stay f.stationary f.snrDb f.peakHz

def failureMask (f : VibrationFrame) : U8 :=
  VibrationWindowTrigger.failureMask f.stationary f.snrDb f.peakHz

/-- The reading of the frame, where it is usable. -/
def raw (f : VibrationFrame) : ℚ := f.rawSnrDb.getD 0

end VibrationFrame

structure VibrationSensor where
  trigger : VibrationWindowTrigger := {}
  pumpDecayTracker : PumpDecayTracker := {}
  deriving DecidableEq

/-- What a frame is answered with. -/
structure Detection where
  triggerResult : VibrationWindowTrigger.StepResult
  pumpSignal : PumpSignalObservation
  deriving DecidableEq

/-- `VibrationSensor::analyze`, from the features on. -/
def VibrationSensor.analyze (s : VibrationSensor) (f : VibrationFrame) :
    VibrationSensor × Detection :=
  let (trigger, triggerResult) := s.trigger.stepDetailed f.stationary f.snrDb f.peakHz
  let (tracker, pumpSignal) :=
    s.pumpDecayTracker.step f.nowMs s.trigger.active triggerResult.active f.usable f.raw
  ({ trigger := trigger, pumpDecayTracker := tracker },
    { triggerResult := triggerResult, pumpSignal := pumpSignal })

end Pumpbug
