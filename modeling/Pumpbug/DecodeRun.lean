import Pumpbug.Lib.Traced
import Pumpbug.WireRoundTrip

/-!
# Runs of the decoder

The decoder of `ExtractionWire.cpp` over any byte source, with a log of what it does on the way: the
bytes it asks for, the slots it writes, the signed additions it makes.  The log stays when the
decoder gives up.  Over a string of bytes the decoder is `decodeCompact`.
-/

namespace Pumpbug

open Lib Lib.Traced

/-- A byte source: an answered request has as many bytes as were asked for. -/
structure WireSource (σ : Type) where
  read : ℕ → σ → Option (Bytes × σ)
  length_read : ∀ {n s bs s'}, read n s = some (bs, s') → bs.length = n

inductive DecodeOp
  /-- A request for bytes, answered or not. -/
  | request (len : ℕ)
  /-- A write to `out.events`. -/
  | storeEvent (i : ℕ)
  /-- A write to `out.samples`. -/
  | storeSample (i : ℕ)
  /-- `prevCg += dc`. -/
  | addCg (prevCg dc : I32)
  deriving DecidableEq

namespace DecodeRun

variable {σ : Type} (src : WireSource σ)

def request (n : ℕ) : Traced σ DecodeOp Bytes := fun s => ([.request n], src.read n s)

/-- `count` more bytes of a varint, of which byte number `i` comes next. -/
def readUvarintFrom : ℕ → ℕ → U32 → Traced σ DecodeOp U32
  | 0, _, _ => fail
  | count + 1, i, v => do
    let b ← request src 1
    let v := v ||| (byteAt b 0 &&& 0x7F).setWidth 32 <<< (7 * i)
    if byteAt b 0 &&& 0x80 = 0 then pure v else readUvarintFrom count (i + 1) v

def readUvarintSrc : Traced σ DecodeOp U32 := readUvarintFrom src 5 0 0

def readSvarintSrc : Traced σ DecodeOp I32 := do
  let u ← readUvarintSrc src
  pure (unzigzag u)

def readEvent (version : U8) (i : ℕ) (previousTMs : U32) : Traced σ DecodeOp (Event × U32) := do
  let delta ← readUvarintSrc src
  let previousTMs := previousTMs + delta
  let kindByte ← request src 1
  let kind := EventKind.ofByte (byteAt kindByte 0)
  if ExtractionVersion.v7.toByte ≤ version ∧ kind = .pumpOffConfirmed then
    let leadMsPlusOne ← readUvarintSrc src
    require (leadMsPlusOne ≤ 0xFFFF)
    log (.storeEvent i)
    pure ({ tMs := previousTMs, kind := kind,
            payload := { signalDecayLeadMsPlusOne := leadMsPlusOne.setWidth 16 } }, previousTMs)
  else
    log (.storeEvent i)
    pure ({ tMs := previousTMs, kind := kind }, previousTMs)

def readScaleTimer (haveScaleTimers : Bool) : Traced σ DecodeOp U32 :=
  if haveScaleTimers then readUvarintSrc src else pure ScaleTime.UNKNOWN_MS

def readSample (haveScaleTimers : Bool) (i : ℕ) (totals : SampleTotals) :
    Traced σ DecodeOp ((I32 × Sample) × SampleTotals) := do
  let dt ← readUvarintSrc src
  let dc ← readSvarintSrc src
  let sPrevT := totals.tMs + dt
  log (.addCg totals.cg dc)
  let prevCg := totals.cg + dc
  let scaleTimerMs ← readScaleTimer src haveScaleTimers
  log (.storeSample i)
  pure ((prevCg, { tMs := sPrevT, cg := saturateCg prevCg.toInt, scaleTimerMs := scaleTimerMs }),
    { tMs := sPrevT, cg := prevCg })

/-- What the decoder knows when it comes to the samples. -/
structure Preamble where
  hdr : Bytes
  endCause : EndCause
  events : List Event

namespace Preamble

def sampleCount (p : Preamble) : ℕ := (readU16LE p.hdr 42).toNat

def haveScaleTimers (p : Preamble) : Bool := byteAt p.hdr 7 &&& FLAG_SCALE_TIMERS ≠ 0

/-- The totals before the first sample. -/
def totals (p : Preamble) : SampleTotals := { tMs := readU32LE p.hdr 8, cg := 0 }

end Preamble

def readPreamble : Traced σ DecodeOp Preamble := do
  let hdr ← request src kCompactHeaderBytes
  require (byteAt hdr 0 = 0x45 ∧ byteAt hdr 1 = 0x58 ∧ byteAt hdr 2 = 0x54 ∧ byteAt hdr 3 = 0x52)
  require (isCompactVersionSupported (byteAt hdr 4))
  let endCause ← lift (EndCause.ofByte? (byteAt hdr 6))
  require ((readU16LE hdr 40).toNat ≤ MAX_EVENTS)
  require ((readU16LE hdr 42).toNat ≤ MAX_SAMPLES)
  let events ← forCount (readEvent src (byteAt hdr 4)) (readU16LE hdr 40).toNat 0 (readU32LE hdr 8)
  pure { hdr := hdr, endCause := endCause, events := events }

def readSamples (p : Preamble) : Traced σ DecodeOp (List (I32 × Sample)) :=
  forCount (readSample src p.haveScaleTimers) p.sampleCount 0 p.totals

def readTargetBlock : Traced σ DecodeOp (TargetCoeffs × AlarmTrigger) := do
  let buf ← request src kCompactTargetBlockBytes
  pure (
    { targetCg := readU16LE buf 0
      armed := byteAt buf 2 ≠ 0
      tauMs := readU16LE buf 3
      cCg := readI16LE buf 5
      reactionLeadMs := readU16LE buf 7 },
    { tMs := readU32LE buf 9
      ctx := {
        yieldCg := readI16LE buf 13
        flowCgPerS := readI16LE buf 15
        flowValid := byteAt buf 17 ≠ 0
        projectedFinalCg := readI16LE buf 18 } })

def decode : Traced σ DecodeOp Extraction := do
  let p ← readPreamble src
  let samples ← readSamples src p
  let (target, alarm) ← readTargetBlock src
  pure { (assembleBody p.hdr p.endCause p.events samples).record with
    target := target, alarm := alarm, hasTargetSnapshot := true }

end DecodeRun

/-! ## Over a string of bytes -/

/-- The memory cursor. -/
def memorySource : WireSource Bytes where
  read n := Reader.take n
  length_read := by
    intro n s bs s' h
    unfold Reader.take at h
    split_ifs at h with hle
    obtain ⟨rfl, -⟩ := Prod.mk.inj (Option.some.inj h)
    rw [List.length_take, Nat.min_eq_left hle]

namespace DecodeRun

theorem implements_request (n : ℕ) : Implements (request memorySource n) (Reader.take n) :=
  fun _ => rfl

/-- One byte by request, or by the reader of bytes. -/
theorem implements_requestByte {α : Type} {f : Bytes → Traced Bytes DecodeOp α}
    {g : U8 → Reader α} (h : ∀ b, Implements (f [b]) (g b)) :
    Implements (request memorySource 1 >>= f) (Reader.byte >>= g) := by
  intro bs
  cases bs with
  | nil => rfl
  | cons b bs =>
    have hread : (request memorySource 1 (b :: bs)).2 = some ([b], bs) := rfl
    rw [bind_of_some hread, Reader.bind_apply]
    exact h b bs

theorem implements_readUvarintFrom (count i : ℕ) (v : U32) :
    Implements (readUvarintFrom memorySource count i v) (Leb128.read count i v) := by
  induction count generalizing i v with
  | zero => exact fun _ => rfl
  | succ count ih =>
    unfold readUvarintFrom Leb128.read
    refine implements_requestByte fun b => ?_
    rw [byteAt_cons_zero]
    dsimp only
    split_ifs
    · exact implements_pure _
    · exact ih _ _

theorem implements_readUvarintSrc :
    Implements (readUvarintSrc memorySource) Pumpbug.readUvarintSrc :=
  implements_readUvarintFrom 5 0 0

theorem implements_readSvarintSrc :
    Implements (readSvarintSrc memorySource) Pumpbug.readSvarintSrc :=
  implements_readUvarintSrc.bind fun u => implements_pure (unzigzag u)

theorem implements_readEvent (version : U8) (i : ℕ) (previousTMs : U32) :
    Implements (readEvent memorySource version i previousTMs)
      (Pumpbug.readEvent version previousTMs) := by
  unfold readEvent Pumpbug.readEvent
  refine implements_readUvarintSrc.bind fun delta => ?_
  refine implements_requestByte fun b => ?_
  rw [byteAt_cons_zero]
  dsimp only
  split_ifs
  · refine implements_readUvarintSrc.bind fun lead => ?_
    refine (implements_require _).bind fun _ => ?_
    exact Implements.log_bind _ (implements_pure _)
  · exact Implements.log_bind _ (implements_pure _)

theorem implements_readScaleTimer (haveScaleTimers : Bool) :
    Implements (readScaleTimer memorySource haveScaleTimers)
      (Pumpbug.readScaleTimer haveScaleTimers) := by
  unfold readScaleTimer Pumpbug.readScaleTimer
  split_ifs
  · exact implements_readUvarintSrc
  · exact implements_pure _

theorem implements_readSample (haveScaleTimers : Bool) (i : ℕ) (totals : SampleTotals) :
    Implements (readSample memorySource haveScaleTimers i totals)
      (Pumpbug.readSample haveScaleTimers totals) := by
  unfold readSample Pumpbug.readSample
  refine implements_readUvarintSrc.bind fun dt => ?_
  refine implements_readSvarintSrc.bind fun dc => ?_
  refine Implements.log_bind _ ?_
  refine (implements_readScaleTimer haveScaleTimers).bind fun timer => ?_
  exact Implements.log_bind _ (implements_pure _)

theorem implements_readTargetBlock :
    Implements (readTargetBlock memorySource) Pumpbug.readTargetBlock :=
  (implements_request _).bind fun _ => implements_pure _

/-- The reader's part before the samples. -/
def readPreambleBytes : Reader Preamble := do
  let hdr ← Reader.take kCompactHeaderBytes
  guard (byteAt hdr 0 = 0x45 ∧ byteAt hdr 1 = 0x58 ∧ byteAt hdr 2 = 0x54 ∧ byteAt hdr 3 = 0x52)
  guard (isCompactVersionSupported (byteAt hdr 4))
  let endCause ← StateT.lift (EndCause.ofByte? (byteAt hdr 6))
  guard ((readU16LE hdr 40).toNat ≤ MAX_EVENTS)
  guard ((readU16LE hdr 42).toNat ≤ MAX_SAMPLES)
  let events ← loop (Pumpbug.readEvent (byteAt hdr 4)) (readU16LE hdr 40).toNat (readU32LE hdr 8)
  pure { hdr := hdr, endCause := endCause, events := events }

theorem implements_readPreamble : Implements (readPreamble memorySource) readPreambleBytes := by
  unfold readPreamble readPreambleBytes
  refine (implements_request _).bind fun hdr => ?_
  refine (implements_require _).bind fun _ => ?_
  refine (implements_require _).bind fun _ => ?_
  refine (implements_lift _).bind fun endCause => ?_
  refine (implements_require _).bind fun _ => ?_
  refine (implements_require _).bind fun _ => ?_
  refine (implements_forCount (implements_readEvent (byteAt hdr 4)) _ _ _).bind fun events => ?_
  exact implements_pure _

/-- **Over a string of bytes, a run of the decoder ends as `decodeCompact` does.** -/
theorem implements_decode : Implements (decode memorySource) decodeCompact := by
  have hsplit : decodeCompact = readPreambleBytes >>= fun p =>
      loop (Pumpbug.readSample p.haveScaleTimers) p.sampleCount p.totals >>= fun samples =>
      Pumpbug.readTargetBlock >>= fun block =>
      pure { (assembleBody p.hdr p.endCause p.events samples).record with
        target := block.1, alarm := block.2, hasTargetSnapshot := true } := by
    unfold decodeCompact readBody readPreambleBytes
    simp only [bind_assoc, pure_bind]
    rfl
  rw [hsplit]
  refine implements_readPreamble.bind fun p => ?_
  refine (implements_forCount (implements_readSample p.haveScaleTimers) _ _ _).bind fun samples => ?_
  exact implements_readTargetBlock.bind fun block => implements_pure _

end DecodeRun

end Pumpbug
