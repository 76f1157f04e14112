import Pumpbug.Encoding

/-!
# The compact record format

`ExtractionWire.cpp`: a fixed header of 54 bytes, the events and the samples as delta streams, and a
trailing block of 20 bytes.  The HTTP API, the event stream and the history on flash share it.
-/

namespace Pumpbug

open Lib Lib.Reader

def kCompactHeaderBytes : ℕ := 54
def kCompactTargetBlockBytes : ℕ := 20
def kCompactVersion : U8 := kCurrentExtractionVersion.toByte
def FLAG_EVENTS_OVERFLOWED : U8 := 0x01
def FLAG_SCALE_TIMERS : U8 := 0x02

def isCompactVersionSupported (version : U8) : Bool :=
  version = ExtractionVersion.v6.toByte || version = ExtractionVersion.v7.toByte

/-- `static_cast<ExtractionVersion>` of a supported version. -/
def ExtractionVersion.ofByte (version : U8) : ExtractionVersion :=
  if version = ExtractionVersion.v6.toByte then .v6
  else if version = ExtractionVersion.v7.toByte then .v7
  else .unknown

def boolByte (b : Bool) : U8 := if b then 1 else 0

/-! ## The chunked writer -/

/-- Collects bytes in a buffer of 256 and hands every full one to the sink. -/
structure ChunkedWriter where
  sink : List Bytes := []
  buf : Bytes := []

namespace ChunkedWriter

def flush (w : ChunkedWriter) : ChunkedWriter :=
  if w.buf = [] then w else { sink := w.sink ++ [w.buf], buf := [] }

def putByte (w : ChunkedWriter) (b : U8) : ChunkedWriter :=
  let w := if 256 ≤ w.buf.length then w.flush else w
  { w with buf := w.buf ++ [b] }

def put (w : ChunkedWriter) (data : Bytes) : ChunkedWriter := data.foldl putByte w

/-- All bytes written so far. -/
def written (w : ChunkedWriter) : Bytes := w.sink.flatten ++ w.buf

theorem flush_written (w : ChunkedWriter) : w.flush.written = w.written := by
  unfold flush
  split_ifs with h
  · rfl
  · simp [written]

theorem put_written (w : ChunkedWriter) (data : Bytes) :
    (w.put data).written = w.written ++ data := by
  unfold put
  induction data generalizing w with
  | nil => rw [List.foldl_nil, List.append_nil]
  | cons b data ih =>
    have hb : (w.putByte b).written = w.written ++ [b] := by
      unfold putByte
      by_cases h : 256 ≤ w.buf.length
      · simp only [if_pos h]
        rw [← flush_written w]
        simp [written]
      · simp only [if_neg h]
        simp [written]
    rw [List.foldl_cons, ih, hb, List.append_assoc, List.singleton_append]

/-- After the last flush everything written has reached the sink. -/
theorem flush_sink (w : ChunkedWriter) : w.flush.sink.flatten = w.written := by
  unfold flush
  split_ifs with h
  · simp [written, h]
  · simp [written]

end ChunkedWriter

/-! ## Encoding -/

/-- The delta to the previous event, the kind, and the payload of a pump-off confirmation. -/
def writeEvent (previousTMs : U32) (event : Event) : Bytes :=
  writeUvarint (event.tMs - previousTMs) ++
    ([event.kind.toByte] ++
      if event.kind = .pumpOffConfirmed then
        writeUvarint (event.payload.signalDecayLeadMsPlusOne.setWidth 32)
      else [])

def flagsByte (e : Extraction) : U8 :=
  (if e.eventsOverflowed then FLAG_EVENTS_OVERFLOWED else 0) |||
    (if sampleRangeHasScaleTimer e.samples.items then FLAG_SCALE_TIMERS else 0)

def encodeHeader (e : Extraction) : Bytes :=
  [0x45, 0x58, 0x54, 0x52, kCompactVersion, e.phase.toByte, e.endCause.toByte, flagsByte e] ++
    writeU32LE e.beginMs ++ writeU32LE e.lastPumpOffConfirmedMs ++ writeU32LE e.stableMs ++
    writeU32LE e.endMs ++ writeU32LE e.totalPumpOnMs ++ writeU32LE e.startUtcSec ++
    writeI16LE e.yieldCg ++ writeI16LE e.startRawCg ++ writeI16LE e.settledRawCg ++
    writeU16LE e.observedSampleCount ++ writeU16LE (BitVec.ofNat 16 e.events.count) ++
    writeU16LE (BitVec.ofNat 16 e.samples.count) ++ [e.yieldStatus.toByte, 0] ++
    writeU32LE e.pourMs ++ writeI32LE e.decisionGainCg

def writeTargetBlock (e : Extraction) : Bytes :=
  writeU16LE e.target.targetCg ++ [boolByte e.target.armed] ++ writeU16LE e.target.tauMs ++
    writeI16LE e.target.cCg ++ writeU16LE e.target.reactionLeadMs ++ writeU32LE e.alarm.tMs ++
    writeI16LE e.alarm.ctx.yieldCg ++ writeI16LE e.alarm.ctx.flowCgPerS ++
    [boolByte e.alarm.ctx.flowValid] ++ writeI16LE e.alarm.ctx.projectedFinalCg

/-- The event stream from a previous timestamp on. -/
def encodeEvents (previousTMs : U32) (events : List Event) : Bytes :=
  writeAll writeEvent (fun _ event => event.tMs) previousTMs events

/-- The sample stream from a cursor on. -/
def encodeSamples (cursor : SampleDeltaCursor) (samples : List Sample) : Bytes :=
  writeAll writeSampleDelta SampleDeltaCursor.advance cursor samples

/-- The cursor before the first sample of a record. -/
def Extraction.sampleCursor (e : Extraction) : SampleDeltaCursor :=
  { prevTMs := e.beginMs, prevCg := 0, includeScaleTimers := sampleRangeHasScaleTimer e.samples.items }

/-- The chunks that the sink receives, or `none` for a version that has no encoding. -/
def encodeCompact (e : Extraction) : Option (List Bytes) :=
  if isCompactVersionSupported e.version.toByte then
    let w : ChunkedWriter := {}
    let w := w.put (encodeHeader e)
    let w := w.put (encodeEvents e.beginMs e.events.items)
    let w := w.put (encodeSamples e.sampleCursor e.samples.items)
    let w := w.put (writeTargetBlock e)
    some w.flush.sink
  else none

/-- The bytes of an encoded record. -/
def compactBytes (e : Extraction) : Bytes :=
  encodeHeader e ++ (encodeEvents e.beginMs e.events.items ++
    (encodeSamples e.sampleCursor e.samples.items ++ writeTargetBlock e))

theorem encodeCompact_flatten {e : Extraction} {chunks : List Bytes}
    (h : encodeCompact e = some chunks) : chunks.flatten = compactBytes e := by
  unfold encodeCompact at h
  by_cases hv : isCompactVersionSupported e.version.toByte = true
  · rw [if_pos hv] at h
    obtain rfl := Option.some.inj h
    rw [ChunkedWriter.flush_sink]
    simp only [ChunkedWriter.put_written]
    rw [List.append_assoc, List.append_assoc, List.append_assoc]
    rfl
  · rw [if_neg hv] at h
    exact absurd h (by simp)

/-- The event stream's size, event by event. -/
def eventsEncodedSize : U32 → List Event → ℕ
  | _, [] => 0
  | previousTMs, event :: events =>
    (writeEvent previousTMs event).length + eventsEncodedSize event.tMs events

def samplesEncodedSize : SampleDeltaCursor → List Sample → ℕ
  | _, [] => 0
  | cursor, sample :: samples =>
    sampleDeltaEncodedSize cursor sample + samplesEncodedSize (cursor.advance sample) samples

def encodeCompactSize (e : Extraction) : Option ℕ :=
  if isCompactVersionSupported e.version.toByte then
    some (kCompactHeaderBytes + eventsEncodedSize e.beginMs e.events.items +
      samplesEncodedSize e.sampleCursor e.samples.items + kCompactTargetBlockBytes)
  else none

/-! ## Decoding -/

/-- An unsigned LEB128 value of at most five bytes. -/
def readUvarintSrc : Reader U32 := Leb128.read 5 0 0

def readSvarintSrc : Reader I32 := do
  let u ← readUvarintSrc
  pure (unzigzag u)

/-- One event, and the timestamp it leaves behind. -/
def readEvent (version : U8) (previousTMs : U32) : Reader (Event × U32) := do
  let delta ← readUvarintSrc
  let previousTMs := previousTMs + delta
  let kindByte ← byte
  let kind := EventKind.ofByte kindByte
  if ExtractionVersion.v7.toByte ≤ version ∧ kind = .pumpOffConfirmed then
    let leadMsPlusOne ← readUvarintSrc
    guard (leadMsPlusOne ≤ 0xFFFF)
    pure ({ tMs := previousTMs, kind := kind,
            payload := { signalDecayLeadMsPlusOne := leadMsPlusOne.setWidth 16 } }, previousTMs)
  else pure ({ tMs := previousTMs, kind := kind }, previousTMs)

/-- The decoder's running time and weight. -/
structure SampleTotals where
  tMs : U32
  cg : I32
  deriving DecidableEq

/-- The scale-timer field, present in every sample or in none. -/
def readScaleTimer (haveScaleTimers : Bool) : Reader U32 :=
  if haveScaleTimers then readUvarintSrc else pure ScaleTime.UNKNOWN_MS

/-- One sample with the running weight it is clamped from, and the totals it leaves behind. -/
def readSample (haveScaleTimers : Bool) (totals : SampleTotals) :
    Reader ((I32 × Sample) × SampleTotals) := do
  let dt ← readUvarintSrc
  let dc ← readSvarintSrc
  let sPrevT := totals.tMs + dt
  let prevCg := totals.cg + dc
  let scaleTimerMs ← readScaleTimer haveScaleTimers
  pure ((prevCg, { tMs := sPrevT, cg := saturateCg prevCg.toInt, scaleTimerMs := scaleTimerMs }),
    { tMs := sPrevT, cg := prevCg })

/-- What the decoder has read before the trailing block. -/
structure CompactBody where
  record : Extraction
  /-- The running weight at every sample, before clamping. -/
  runningCg : List I32

/-- The record with the fields of a header and with decoded streams. -/
def assembleBody (hdr : Bytes) (endCause : EndCause) (events : List Event)
    (samples : List (I32 × Sample)) : CompactBody where
  record := {
    version := .ofByte (byteAt hdr 4)
    phase := .ofByte (byteAt hdr 5)
    endCause := endCause
    beginMs := readU32LE hdr 8
    lastPumpOffConfirmedMs := readU32LE hdr 12
    stableMs := readU32LE hdr 16
    endMs := readU32LE hdr 20
    totalPumpOnMs := readU32LE hdr 24
    startUtcSec := readU32LE hdr 28
    yieldStatus := .ofByte (byteAt hdr 44)
    yieldCg := readI16LE hdr 32
    startRawCg := readI16LE hdr 34
    settledRawCg := readI16LE hdr 36
    observedSampleCount := readU16LE hdr 38
    pourMs := readU32LE hdr 46
    decisionGainCg := readI32LE hdr 50
    eventsOverflowed := byteAt hdr 7 &&& FLAG_EVENTS_OVERFLOWED ≠ 0
    events := Buffer.ofList events
    samples := Buffer.ofList (samples.map Prod.snd) }
  runningCg := samples.map Prod.fst

def readBody : Reader CompactBody := do
  let hdr ← take kCompactHeaderBytes
  guard (byteAt hdr 0 = 0x45 ∧ byteAt hdr 1 = 0x58 ∧ byteAt hdr 2 = 0x54 ∧ byteAt hdr 3 = 0x52)
  guard (isCompactVersionSupported (byteAt hdr 4))
  let endCause ← StateT.lift (EndCause.ofByte? (byteAt hdr 6))
  let eventCount := readU16LE hdr 40
  let sampleCount := readU16LE hdr 42
  -- a corrupt or forged count must never overrun the fixed arrays
  guard (eventCount.toNat ≤ MAX_EVENTS)
  guard (sampleCount.toNat ≤ MAX_SAMPLES)
  let events ← loop (readEvent (byteAt hdr 4)) eventCount.toNat (readU32LE hdr 8)
  let samples ← loop (readSample (byteAt hdr 7 &&& FLAG_SCALE_TIMERS ≠ 0)) sampleCount.toNat
    { tMs := readU32LE hdr 8, cg := 0 }
  pure (assembleBody hdr endCause events samples)

def readTargetBlock : Reader (TargetCoeffs × AlarmTrigger) := do
  let buf ← take kCompactTargetBlockBytes
  pure (
    { targetCg := readU16LE buf 0
      armed := byteAt buf 2 ≠ 0
      tauMs := readU16LE buf 3
      cCg := readI16LE buf 5
      reactionLeadMs := readU16LE buf 7 },
    { tMs := readU32LE buf 9
      ctx := {
        yieldCg := readI16LE buf 13
        flowCgPerS := readI16LE buf 15
        flowValid := byteAt buf 17 ≠ 0
        projectedFinalCg := readI16LE buf 18 } })

def decodeCompact : Reader Extraction := do
  let body ← readBody
  let (target, alarm) ← readTargetBlock
  pure { body.record with target := target, alarm := alarm, hasTargetSnapshot := true }

end Pumpbug
