import Pumpbug.Lib.Clock
import Pumpbug.Lib.Cursor
import Pumpbug.Num

/-!
# The browser's decoder

`protocol.js` and the payload parsers of `stream.js`.  A JavaScript number is an integer here: every
number these functions handle is exact in a double.  Bitwise operators work on 32-bit words, and a
read past the end of the buffer throws.
-/

namespace Pumpbug.Web

open Lib

def SAMPLE_BATCH_FLAG_SCALE_TIMERS : U8 := 0x01
def RECORD_FLAG_SCALE_TIMERS : U8 := 0x02
def SCALE_TIMER_UNKNOWN_MS : ℤ := 0xFFFFFFFF
def U32_WRAP_MS : ℤ := 0x100000000
def U32_HALF_WRAP_MS : ℤ := 0x80000000

/-! ## Reading a `DataView` -/

def getUint8 (dv : Bytes) (k : ℕ) : Option U8 := dv[k]?

/-- Little-endian, as every multi-byte read here. -/
def getUint16 (dv : Bytes) (k : ℕ) : Option U16 := do
  let b₀ ← getUint8 dv k
  let b₁ ← getUint8 dv (k + 1)
  pure (b₀.setWidth 16 ||| b₁.setWidth 16 <<< 8)

def getUint32 (dv : Bytes) (k : ℕ) : Option U32 := do
  let b₀ ← getUint8 dv k
  let b₁ ← getUint8 dv (k + 1)
  let b₂ ← getUint8 dv (k + 2)
  let b₃ ← getUint8 dv (k + 3)
  pure (b₀.setWidth 32 ||| b₁.setWidth 32 <<< 8 ||| b₂.setWidth 32 <<< 16 |||
    b₃.setWidth 32 <<< 24)

/-- An unsigned word as a number. -/
def num {w : ℕ} (v : BitVec w) : ℤ := v.toNat

/-- The loop of `uv` and `readUvarintAt`.  Past the end of the buffer `getUint8` throws, so the
bytes left bound the rounds. -/
def uvLoop : ℕ → U32 → ℕ → Cursor U32
  | 0, _, _ => failure
  | fuel + 1, v, s => do
    let b ← Cursor.byte
    -- a shift count counts modulo 32
    let v := v ||| (b &&& 0x7F).setWidth 32 <<< (s % 32)
    if b &&& 0x80 ≠ 0 then uvLoop fuel v (s + 7) else pure v

def uv : Cursor U32 := fun dv p => uvLoop (dv.length - p) 0 0 dv p

/-- A signed 32-bit result of `^`. -/
def sv : Cursor ℤ := do
  let u ← uv
  pure ((u >>> 1) ^^^ (-(u &&& 1)) : I32).toInt

/-! ## Timestamps -/

def unwrapTimestamp (rawMs beginMs : U32) : ℤ :=
  let unsignedDelta := rawMs - beginMs
  if num rawMs < num beginMs ∧ num unsignedDelta < U32_HALF_WRAP_MS then num rawMs + U32_WRAP_MS
  else num rawMs

def unwrapOptionalTimestamp (rawMs beginMs : U32) : ℤ :=
  if rawMs = 0 then 0 else unwrapTimestamp rawMs beginMs

/-! ## Records -/

structure Event where
  tMs : ℤ
  kind : ℤ
  signalDecayLeadMs : Option ℤ := none
  signalDecayOnsetMs : Option ℤ := none
  deriving DecidableEq

structure Sample where
  tMs : ℤ
  cg : ℤ
  scaleTimerMs : ℤ
  deriving DecidableEq

structure Target where
  targetCg : ℤ
  armed : Bool
  tauMs : ℤ
  cCg : ℤ
  reactionLeadMs : ℤ
  deriving DecidableEq

structure Extraction where
  version : ℤ
  phase : ℤ
  endCause : ℤ
  flags : U8
  beginMs : U32
  lastPumpOffConfirmedMs : ℤ
  stableMs : ℤ
  endMs : ℤ
  totalPumpOnMs : ℤ
  startUtcSec : ℤ
  yieldCg : ℤ
  startRawCg : ℤ
  settledRawCg : ℤ
  yieldStatus : ℤ
  pourMs : ℤ
  decisionGainCg : ℤ
  observedSampleCount : ℤ
  eventCount : ℤ
  sampleCount : ℤ
  events : List Event
  samples : List Sample
  target : Target
  alarmTriggeredMs : ℤ
  alarmYieldCg : ℤ
  alarmFlowCgPerS : ℤ
  alarmFlowValid : Bool
  alarmProjectedFinalCg : ℤ
  deriving DecidableEq

/-- One round of the event loop; `tEv` stays in the unsigned 32-bit range. -/
def parseEvent (version : U8) (beginMs tEv : U32) : Cursor (Event × U32) := do
  let delta ← uv
  let tEv := tEv + delta
  let k ← Cursor.byte
  let event : Event := { tMs := unwrapTimestamp tEv beginMs, kind := num k }
  if 7 ≤ version ∧ k = 3 then
    let leadMsPlusOne ← uv
    guard (leadMsPlusOne ≤ 0xFFFF)
    if leadMsPlusOne ≠ 0 then
      let lead := num leadMsPlusOne - 1
      pure ({ event with signalDecayLeadMs := some lead,
                         signalDecayOnsetMs := some (event.tMs - lead) }, tEv)
    else pure (event, tEv)
  else pure (event, tEv)

def parseScaleTimer (hasScaleTimerFields : Bool) : Cursor ℤ :=
  if hasScaleTimerFields then num <$> uv else pure SCALE_TIMER_UNKNOWN_MS

/-- One round of the sample loops of records and batches; the weight is a plain number. -/
def parseSample (hasScaleTimerFields : Bool) (beginMs : U32) (totals : U32 × ℤ) :
    Cursor (Sample × (U32 × ℤ)) := do
  let dt ← uv
  let dc ← sv
  let tMs := totals.1 + dt
  let cg := totals.2 + dc
  let scaleTimerMs ← parseScaleTimer hasScaleTimerFields
  pure ({ tMs := unwrapTimestamp tMs beginMs, cg := cg, scaleTimerMs := scaleTimerMs }, (tMs, cg))

def parseExtractionFromDv (dv : Bytes) (off : ℕ) : Option Extraction := do
  let m₀ ← getUint8 dv (off + 0)
  let m₁ ← getUint8 dv (off + 1)
  let m₂ ← getUint8 dv (off + 2)
  let m₃ ← getUint8 dv (off + 3)
  guard (m₀ = 0x45 ∧ m₁ = 0x58 ∧ m₂ = 0x54 ∧ m₃ = 0x52)
  let version ← getUint8 dv (off + 4)
  guard (version = 6 ∨ version = 7)
  let phase ← getUint8 dv (off + 5)
  let endCause ← getUint8 dv (off + 6)
  let flags ← getUint8 dv (off + 7)
  let beginMs ← getUint32 dv (off + 8)
  let lastPumpOffConfirmedMs ← getUint32 dv (off + 12)
  let stableMs ← getUint32 dv (off + 16)
  let endMs ← getUint32 dv (off + 20)
  let totalPumpOnMs ← getUint32 dv (off + 24)
  let startUtcSec ← getUint32 dv (off + 28)
  let yieldCg ← getUint16 dv (off + 32)
  let startRawCg ← getUint16 dv (off + 34)
  let settledRawCg ← getUint16 dv (off + 36)
  let observedSampleCount ← getUint16 dv (off + 38)
  let eventCount ← getUint16 dv (off + 40)
  let sampleCount ← getUint16 dv (off + 42)
  let yieldStatus ← getUint8 dv (off + 44)
  let pourMs ← getUint32 dv (off + 46)
  let decisionGainCg ← getUint32 dv (off + 50)
  let (events, p) ← loop (parseEvent version beginMs) eventCount.toNat beginMs dv (off + 54)
  let hasScaleTimerFields := flags &&& RECORD_FLAG_SCALE_TIMERS ≠ 0
  let (samples, p) ←
    loop (parseSample hasScaleTimerFields beginMs) sampleCount.toNat (beginMs, 0) dv p
  let targetCg ← getUint16 dv (p + 0)
  let armed ← getUint8 dv (p + 2)
  let tauMs ← getUint16 dv (p + 3)
  let cCg ← getUint16 dv (p + 5)
  let reactionLeadMs ← getUint16 dv (p + 7)
  let alarmTriggeredMs ← getUint32 dv (p + 9)
  let alarmYieldCg ← getUint16 dv (p + 13)
  let alarmFlowCgPerS ← getUint16 dv (p + 15)
  let alarmFlowValid ← getUint8 dv (p + 17)
  let alarmProjectedFinalCg ← getUint16 dv (p + 18)
  pure {
    version := num version
    phase := num phase
    endCause := num endCause
    flags := flags
    beginMs := beginMs
    lastPumpOffConfirmedMs := unwrapOptionalTimestamp lastPumpOffConfirmedMs beginMs
    stableMs := unwrapOptionalTimestamp stableMs beginMs
    endMs := unwrapOptionalTimestamp endMs beginMs
    totalPumpOnMs := num totalPumpOnMs
    startUtcSec := num startUtcSec
    yieldCg := yieldCg.toInt
    startRawCg := startRawCg.toInt
    settledRawCg := settledRawCg.toInt
    yieldStatus := num yieldStatus
    pourMs := num pourMs
    decisionGainCg := decisionGainCg.toInt
    observedSampleCount := num observedSampleCount
    eventCount := num eventCount
    sampleCount := num sampleCount
    events := events
    samples := samples
    target := {
      targetCg := num targetCg
      armed := armed ≠ 0
      tauMs := num tauMs
      cCg := cCg.toInt
      reactionLeadMs := num reactionLeadMs }
    alarmTriggeredMs := unwrapOptionalTimestamp alarmTriggeredMs beginMs
    alarmYieldCg := alarmYieldCg.toInt
    alarmFlowCgPerS := alarmFlowCgPerS.toInt
    alarmFlowValid := alarmFlowValid ≠ 0
    alarmProjectedFinalCg := alarmProjectedFinalCg.toInt }

def parseExtraction (buf : Bytes) : Option Extraction := parseExtractionFromDv buf 0

/-! ## Sample batches -/

structure SampleBatch where
  firstIdx : ℕ
  samples : List Sample
  deriving DecidableEq

def parseSampleBatchPayload (dv : Bytes) (off : ℕ) (beginMs : U32) : Option SampleBatch := do
  let firstIdx ← getUint16 dv off
  let count ← getUint16 dv (off + 2)
  let anchorTMs ← getUint32 dv (off + 4)
  let anchorCg ← getUint16 dv (off + 8)
  let flags ← getUint8 dv (off + 10)
  let hasScaleTimerFields := flags &&& SAMPLE_BATCH_FLAG_SCALE_TIMERS ≠ 0
  let (samples, _) ←
    loop (parseSample hasScaleTimerFields beginMs) count.toNat (anchorTMs, anchorCg.toInt) dv
      (off + 11)
  pure { firstIdx := firstIdx.toNat, samples := samples }

end Pumpbug.Web
