import Pumpbug.Lib.Buffer
import Pumpbug.Num

/-!
# The extraction record

The data model of `Extraction.h`: the record of one espresso extraction, its events and samples,
and the readings the recorder is fed.  An enumeration is stored in one byte, and a decoded record
can carry a byte that no enumerator names; `unnamed` stands for those.
-/

namespace Pumpbug

open Lib

/-! ## Enumerations -/

/-- States of the extraction detection. -/
inductive Phase
  | idle
  /-- Pump on. -/
  | running
  /-- Pump off, waiting for the scale to settle. -/
  | postPump
  | done
  | unnamed (code : U8) (h : 4 ≤ code)
  deriving DecidableEq

namespace Phase

def toByte : Phase → U8
  | idle => 0
  | running => 1
  | postPump => 2
  | done => 3
  | unnamed code _ => code

/-- `static_cast<Phase>`. -/
def ofByte (b : U8) : Phase :=
  if h : 4 ≤ b then unnamed b h
  else if b = 0 then idle
  else if b = 1 then running
  else if b = 2 then postPump
  else done

@[simp] theorem ofByte_toByte (p : Phase) : ofByte p.toByte = p := by
  cases p with
  | unnamed code h => unfold ofByte toByte; rw [dif_pos h]
  | _ => rfl

@[simp] theorem toByte_ofByte (b : U8) : (ofByte b).toByte = b := by
  unfold ofByte
  split_ifs with h h0 h1 h2
  · rfl
  · exact h0.symm
  · exact h1.symm
  · exact h2.symm
  · show 3#8 = b
    bv_omega

end Phase

inductive EndCause
  | none
  /-- The pour settled; the shot ended cleanly. -/
  | stable
  /-- `POST_PUMP` exceeded a safety backstop. -/
  | timeout
  deriving DecidableEq

namespace EndCause

def toByte : EndCause → U8
  | none => 0
  | stable => 1
  | timeout => 2

/-- The decoder refuses a byte above `TIMEOUT`. -/
def ofByte? (b : U8) : Option EndCause :=
  if 2 < b then Option.none
  else if b = 0 then some none
  else if b = 1 then some stable
  else some timeout

@[simp] theorem ofByte?_toByte (c : EndCause) : ofByte? c.toByte = some c := by
  cases c <;> rfl

theorem toByte_of_ofByte? {b : U8} {c : EndCause} (h : ofByte? b = some c) : c.toByte = b := by
  unfold ofByte? at h
  split_ifs at h with h2 h0 h1
  · cases h; exact h0.symm
  · cases h; exact h1.symm
  · cases h; show 2#8 = b; bv_omega

end EndCause

/-- How `yieldCg` was set at the end of the recording. -/
inductive YieldStatus
  /-- No usable pour formed. -/
  | none
  /-- The yield is the difference between the final and starting weights. -/
  | ok
  /-- The final endpoint was replaced after cup or scale movement. -/
  | disturbed
  | unnamed (code : U8) (h : 3 ≤ code)
  deriving DecidableEq

namespace YieldStatus

def toByte : YieldStatus → U8
  | none => 0
  | ok => 1
  | disturbed => 2
  | unnamed code _ => code

/-- `static_cast<YieldStatus>`. -/
def ofByte (b : U8) : YieldStatus :=
  if h : 3 ≤ b then unnamed b h
  else if b = 0 then none
  else if b = 1 then ok
  else disturbed

@[simp] theorem ofByte_toByte (s : YieldStatus) : ofByte s.toByte = s := by
  cases s with
  | unnamed code h => unfold ofByte toByte; rw [dif_pos h]
  | _ => rfl

@[simp] theorem toByte_ofByte (b : U8) : (ofByte b).toByte = b := by
  unfold ofByte
  split_ifs with h h0 h1
  · rfl
  · exact h0.symm
  · exact h1.symm
  · show 2#8 = b
    bv_omega

end YieldStatus

inductive EventKind
  | begin
  | tare
  | pumpOn
  | pumpOffConfirmed
  | scaleConnected
  | scaleDisconnected
  | stableDetected
  | end_
  /-- The target alert fired `STOP_NOW`. -/
  | alarmTriggered
  | unnamed (code : U8) (h : 9 ≤ code)
  deriving DecidableEq

namespace EventKind

def toByte : EventKind → U8
  | begin => 0
  | tare => 1
  | pumpOn => 2
  | pumpOffConfirmed => 3
  | scaleConnected => 4
  | scaleDisconnected => 5
  | stableDetected => 6
  | end_ => 7
  | alarmTriggered => 8
  | unnamed code _ => code

/-- `static_cast<EventKind>`. -/
def ofByte (b : U8) : EventKind :=
  if h : 9 ≤ b then unnamed b h
  else if b = 0 then begin
  else if b = 1 then tare
  else if b = 2 then pumpOn
  else if b = 3 then pumpOffConfirmed
  else if b = 4 then scaleConnected
  else if b = 5 then scaleDisconnected
  else if b = 6 then stableDetected
  else if b = 7 then end_
  else alarmTriggered

@[simp] theorem ofByte_toByte (k : EventKind) : ofByte k.toByte = k := by
  cases k with
  | unnamed code h => unfold ofByte toByte; rw [dif_pos h]
  | _ => rfl

@[simp] theorem toByte_ofByte (b : U8) : (ofByte b).toByte = b := by
  unfold ofByte
  split_ifs with h h0 h1 h2 h3 h4 h5 h6 h7
  · rfl
  · exact h0.symm
  · exact h1.symm
  · exact h2.symm
  · exact h3.symm
  · exact h4.symm
  · exact h5.symm
  · exact h6.symm
  · exact h7.symm
  · show 8#8 = b
    bv_omega

theorem toByte_eq_three {k : EventKind} : k.toByte = 3 ↔ k = pumpOffConfirmed := by
  constructor
  · intro h
    rw [← ofByte_toByte k, h]
    rfl
  · rintro rfl; rfl

end EventKind

/-- The version of a persisted record. -/
inductive ExtractionVersion
  | unknown
  | v6
  | v7
  deriving DecidableEq

def ExtractionVersion.toByte : ExtractionVersion → U8
  | unknown => 0
  | v6 => 6
  | v7 => 7

def kCurrentExtractionVersion : ExtractionVersion := .v7

/-! ## Events and samples -/

structure PumpOffConfirmedPayload where
  /-- Zero means that confirmation carried no decay estimate. -/
  signalDecayLeadMsPlusOne : U16 := 0
  deriving DecidableEq

structure Event where
  tMs : U32
  kind : EventKind
  payload : PumpOffConfirmedPayload := {}
  deriving DecidableEq

namespace ScaleTime

/-- The sentinel for a weight sample without a scale timer. -/
def UNKNOWN_MS : U32 := 0xFFFFFFFF

def isKnown (timerMs : U32) : Bool := timerMs ≠ UNKNOWN_MS

end ScaleTime

/-- The scale weight exactly as the scale reported it. -/
structure Sample where
  /-- Host `millis()` at BLE weight arrival. -/
  tMs : U32
  /-- Raw scale weight in centigrams. -/
  cg : I16
  scaleTimerMs : U32 := ScaleTime.UNKNOWN_MS
  deriving DecidableEq

def sampleHasScaleTimer (sample : Sample) : Bool := ScaleTime.isKnown sample.scaleTimerMs

def sampleRangeHasScaleTimer (samples : List Sample) : Bool := samples.any sampleHasScaleTimer

/-! ## Target alert settings -/

/-- `INT16_MIN`, "no reading". -/
def NO_WEIGHT : I16 := 0x8000

/-- Target-weight alert settings recorded with each extraction. -/
structure TargetCoeffs where
  /-- Target shot yield; 0 means no target. -/
  targetCg : I16 := 0
  armed : Bool := false
  /-- Flow-proportional drip lead. -/
  tauMs : U16 := 1000
  /-- Constant drip. -/
  cCg : I16 := 0
  /-- Manual reaction lag. -/
  reactionLeadMs : U16 := 0
  deriving DecidableEq

/-- Measurements captured at alarm time. -/
structure AlarmContext where
  yieldCg : I16 := NO_WEIGHT
  flowCgPerS : I16 := 0
  flowValid : Bool := false
  projectedFinalCg : I16 := NO_WEIGHT
  deriving DecidableEq

/-- The first time the target alert fired `STOP_NOW`; `tMs` is 0 when it never did. -/
structure AlarmTrigger where
  tMs : U32 := 0
  ctx : AlarmContext := {}
  deriving DecidableEq

/-! ## The record -/

def MAX_SAMPLES : ℕ := 768
def MAX_EVENTS : ℕ := 64

structure Extraction where
  version : ExtractionVersion := .unknown
  phase : Phase := .idle
  endCause : EndCause := .none
  /-- All `Ms` fields but `totalPumpOnMs` and `pourMs` are `millis()` values, not offsets. -/
  beginMs : U32 := 0
  lastPumpOffConfirmedMs : U32 := 0
  stableMs : U32 := 0
  endMs : U32 := 0
  totalPumpOnMs : U32 := 0
  startUtcSec : U32 := 0
  yieldStatus : YieldStatus := .none
  yieldCg : I16 := NO_WEIGHT
  /-- The display zero: the raw weight at the start of the first pour. -/
  startRawCg : I16 := NO_WEIGHT
  settledRawCg : I16 := NO_WEIGHT
  /-- Samples observed across the shot, not limited by the sample buffer. -/
  observedSampleCount : U16 := 0
  pourMs : U32 := 0
  decisionGainCg : I32 := 0
  /-- Some non-finalize event was dropped because the events buffer was full. -/
  eventsOverflowed : Bool := false
  events : Buffer Event MAX_EVENTS := .empty
  samples : Buffer Sample MAX_SAMPLES := .empty
  hasTargetSnapshot : Bool := false
  target : TargetCoeffs := {}
  alarm : AlarmTrigger := {}
  deriving DecidableEq

instance : Inhabited Extraction := ⟨{}⟩

namespace Extraction

/-- The in-flight phases: the pump window. -/
def inPumpWindow (e : Extraction) : Bool := e.phase = .running || e.phase = .postPump

def hasSampleData (e : Extraction) : Bool := 0 < e.observedSampleCount

end Extraction

/-- Time elapsed since `BEGIN`, or 0 if `IDLE`; `nowMs` is ignored for finished extractions. -/
def extractionElapsedMs (e : Extraction) (nowMs : U32) : U32 :=
  if e.phase = .idle then 0
  else if e.phase = .done then e.endMs - e.beginMs
  else nowMs - e.beginMs

/-! ## Readings -/

/-- BLE scale snapshot at tick time; `grams` is `none` when it is not finite. -/
structure ScaleSnapshot where
  present : Bool := false
  grams : Option ℚ := some 0
  /-- Host BLE-arrival time; 0 means no reading available. -/
  timestampMs : U32 := 0
  scaleTimerMs : U32 := ScaleTime.UNKNOWN_MS
  sequence : ℕ := 0
  deriving DecidableEq

/-- A yield reading that an abrupt knock does not move; `seq` changes with each new one. -/
structure TrustedYieldSample where
  have_ : Bool := false
  yieldCg : I16 := 0
  tMs : U32 := 0
  seq : ℕ := 0
  deriving DecidableEq

/-- Saturate into the representable range, never producing the `NO_WEIGHT` sentinel. -/
def saturateCg (v : ℤ) : I16 :=
  if v < -32767 then i16 (-32767) else if 32767 < v then i16 32767 else i16 v

/-- Convert grams to saturated centigrams; `none` for a reading that is not finite. -/
def gramsToCg (grams : Option ℚ) : Option I16 :=
  grams.map fun g => saturateCg (round (g * 100))

theorem toInt_saturateCg (v : ℤ) : (saturateCg v).toInt = max (-32767) (min v 32767) := by
  unfold saturateCg
  split_ifs
  · rw [toInt_i16 (by omega) (by omega)]; omega
  · rw [toInt_i16 (by omega) (by omega)]; omega
  · rw [toInt_i16 (by omega) (by omega)]; omega

theorem saturateCg_ne_noWeight (v : ℤ) : saturateCg v ≠ NO_WEIGHT := by
  intro h
  have h' := congrArg BitVec.toInt h
  rw [toInt_saturateCg, show NO_WEIGHT.toInt = -32768 from rfl] at h'
  omega

theorem ne_noWeight_iff {c : I16} : c ≠ NO_WEIGHT ↔ -32767 ≤ c.toInt := by
  have h := toInt_bounds c
  rw [ne_eq, ← BitVec.toInt_inj, show NO_WEIGHT.toInt = -32768 from rfl]
  omega

/-- A reading that is not the sentinel is its own saturation. -/
theorem saturateCg_toInt {c : I16} (h : c ≠ NO_WEIGHT) : saturateCg c.toInt = c := by
  have h₁ := toInt_bounds c
  have h₂ := ne_noWeight_iff.1 h
  unfold saturateCg
  rw [if_neg (by omega), if_neg (by omega), i16_toInt]

theorem gramsToCg_ne_noWeight {grams : Option ℚ} {c : I16} (h : gramsToCg grams = some c) :
    c ≠ NO_WEIGHT := by
  unfold gramsToCg at h
  obtain ⟨g, -, rfl⟩ := Option.map_eq_some_iff.1 h
  exact saturateCg_ne_noWeight _

/-- Pump state reported by vibration analysis; a decay candidate still counts as on. -/
inductive PumpSignalState
  | off
  | on
  | decayCandidate
  deriving DecidableEq

structure PumpSignalObservation where
  state : PumpSignalState := .off
  acceptedDecayOnsetMs : U32 := 0
  hasAcceptedDecayOnset : Bool := false
  deriving DecidableEq

def PumpSignalObservation.isOn (o : PumpSignalObservation) : Bool := o.state ≠ .off

/-! ## Records that gain samples -/

/-- Every sample has a weight. -/
def Extraction.Weighed (e : Extraction) : Prop := ∀ sample ∈ e.samples.items, sample.cg ≠ NO_WEIGHT

/-- The record `e'` is `e` with more samples. -/
structure GrowsTo (e e' : Extraction) : Prop where
  beginMs : e'.beginMs = e.beginMs
  samples : e.samples.items <+: e'.samples.items

theorem GrowsTo.refl (e : Extraction) : GrowsTo e e := ⟨rfl, List.prefix_rfl⟩

theorem GrowsTo.trans {e e' e'' : Extraction} (h : GrowsTo e e') (h' : GrowsTo e' e'') :
    GrowsTo e e'' :=
  ⟨h'.beginMs.trans h.beginMs, h.samples.trans h'.samples⟩

theorem growsTo_of_eq {e e' : Extraction} (hb : e'.beginMs = e.beginMs)
    (hs : e'.samples = e.samples) : GrowsTo e e' :=
  ⟨hb, hs ▸ List.prefix_rfl⟩

end Pumpbug
