import Pumpbug.Recorder

/-!
# The scale service

The weight readings of `BleScaleService.cpp`: a session with the scale begins with an empty reading,
and every weight event stamps the reading with its arrival time, made monotonic.
-/

namespace Pumpbug

inductive ScaleState where
  | off | scanning | connecting | ready | reconnecting
  deriving DecidableEq

/-- `timestampMs` is 0 while there is no reading in this session; `sequence` survives reconnects. -/
structure WeightReading where
  grams : Option ℚ := some 0
  stable : Bool := false
  scaleTimerMs : U32 := ScaleTime.UNKNOWN_MS
  sequence : ℕ := 0
  timestampMs : U32 := 0
  deriving DecidableEq

/-- A decoded weight event; `scaleTimerMs` is `none` when the scale sent no timer. -/
structure WeightEvent where
  grams : Option ℚ
  stable : Bool := false
  scaleTimerMs : Option U32 := none
  deriving DecidableEq

structure BleScaleService where
  state : ScaleState := .off
  weight : WeightReading := {}
  rxWeightCount : ℕ := 0
  /-- Advances with every entry into `ready`. -/
  connectionEpoch : ℕ := 0
  deriving DecidableEq

namespace BleScaleService

def transition (b : BleScaleService) (next : ScaleState) : BleScaleService :=
  if b.state = next then b
  else
    { b with
      state := next
      connectionEpoch := if next = .ready then b.connectionEpoch + 1 else b.connectionEpoch
      -- weight is live data: it goes with the link
      weight := if b.state = .ready ∨ next = .off then {} else b.weight }

/-- What `doHandshake` does to the reading before it subscribes to the notifications. -/
def doHandshake (b : BleScaleService) : BleScaleService := { b with weight := {} }

/-- The `WEIGHT` case of `onEvent`. -/
def onEvent (b : BleScaleService) (arrivalMs : U32) (ev : WeightEvent) : BleScaleService :=
  { b with
    rxWeightCount := b.rxWeightCount + 1
    weight := {
      grams := ev.grams
      stable := ev.stable
      scaleTimerMs := ev.scaleTimerMs.getD ScaleTime.UNKNOWN_MS
      sequence := b.rxWeightCount + 1
      timestampMs := ensureMonotonicTimestamp arrivalMs b.weight.timestampMs } }

end BleScaleService

/-- What the service tells the other tasks, in one coherent read. -/
structure ScaleStatus where
  state : ScaleState := .off
  weight : WeightReading := {}
  deriving DecidableEq

def BleScaleService.snapshot (b : BleScaleService) : ScaleStatus where
  state := b.state
  weight := b.weight

/-- The reading as the recorder gets it, if the scale is connected and has sent one. -/
def scaleSnapshotFromBle (snap : ScaleStatus) : ScaleSnapshot :=
  if snap.state = .ready ∧ snap.weight.timestampMs ≠ 0 then
    { present := true, grams := snap.weight.grams, timestampMs := snap.weight.timestampMs,
      scaleTimerMs := snap.weight.scaleTimerMs, sequence := snap.weight.sequence }
  else {}

end Pumpbug
