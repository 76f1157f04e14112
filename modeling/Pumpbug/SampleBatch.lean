import Pumpbug.Wire

/-!
# Sample batches

The part of `ExtractionStream` that ships samples: a full record resets the session's sample cursor,
a batch carries what the record gained since, as deltas from the last sample sent.
-/

namespace Pumpbug

open Lib

def SAMPLE_BATCH_FLAG_SCALE_TIMERS : U8 := 0x01
def kPacketSampleBatch : U8 := 3
def kPacketHeaderBytes : ℕ := 14

/-- How far the session has sent the samples of the record in flight. -/
structure SentSamples where
  lastSentSampleIdx : ℕ := 0
  lastSentTMs : U32 := 0
  lastSentCg : I32 := 0
  deriving DecidableEq

namespace SentSamples

/-- The cursor after all samples of a record were sent. -/
def afterCurrentRecord (ext : Extraction) : SentSamples :=
  match ext.samples.items.getLast? with
  | some last =>
    { lastSentSampleIdx := ext.samples.count, lastSentTMs := last.tMs,
      lastSentCg := last.cg.signExtend 32 }
  | none => { lastSentSampleIdx := ext.samples.count, lastSentTMs := ext.beginMs, lastSentCg := 0 }

/-- The samples of the record that the session has not sent. -/
def unsent (s : SentSamples) (ext : Extraction) : List Sample :=
  ext.samples.items.drop s.lastSentSampleIdx

/-- Where the first delta of a batch starts from. -/
def batchCursor (s : SentSamples) (ext : Extraction) : SampleDeltaCursor where
  prevTMs := if s.lastSentSampleIdx = 0 then ext.beginMs else s.lastSentTMs
  prevCg := if s.lastSentSampleIdx = 0 then 0 else s.lastSentCg
  includeScaleTimers := sampleRangeHasScaleTimer (s.unsent ext)

def batchFlags (s : SentSamples) (ext : Extraction) : U8 :=
  if (s.batchCursor ext).includeScaleTimers then SAMPLE_BATCH_FLAG_SCALE_TIMERS else 0

/-- The payload of the next batch, if there is anything to send. -/
def sampleBatchPayload (s : SentSamples) (ext : Extraction) : Option Bytes :=
  if ext.samples.count ≤ s.lastSentSampleIdx then none
  else
    some (writeU16LE (BitVec.ofNat 16 s.lastSentSampleIdx) ++
      (writeU16LE (BitVec.ofNat 16 (ext.samples.count - s.lastSentSampleIdx)) ++
      (writeU32LE (s.batchCursor ext).prevTMs ++
      (writeI16LE ((s.batchCursor ext).prevCg.setWidth 16) ++
      ([s.batchFlags ext] ++ encodeSamples (s.batchCursor ext) (s.unsent ext))))))

/-- `_writePacketHeader`. -/
def writePacketHeader (type : U8) (streamSeq shotSeq : U32) : Bytes :=
  [0x53, 0x54, 0x4B, 0x50, 4, type] ++ writeU32LE streamSeq ++ writeU32LE shotSeq

/-- The sizing pass over the next batch: the length of the buffer that it is written into. -/
def sampleBatchLen (s : SentSamples) (ext : Extraction) : ℕ :=
  kPacketHeaderBytes + (2 + 2 + 4 + 2 + 1 + samplesEncodedSize (s.batchCursor ext) (s.unsent ext))

/-- The packet of the next batch, if there is anything to send. -/
def sampleBatchPacket (s : SentSamples) (ext : Extraction) (streamSeq shotSeq : U32) :
    Option Bytes :=
  (s.sampleBatchPayload ext).map (writePacketHeader kPacketSampleBatch streamSeq shotSeq ++ ·)

/-- The cursor after a batch was sent. -/
def afterSampleBatch (s : SentSamples) (ext : Extraction) : SentSamples :=
  if ext.samples.count ≤ s.lastSentSampleIdx then s
  else
    match ext.samples.items.getLast? with
    | some last =>
      { lastSentSampleIdx := ext.samples.count, lastSentTMs := last.tMs,
        lastSentCg := last.cg.signExtend 32 }
    | none => { s with lastSentSampleIdx := ext.samples.count }

end SentSamples

end Pumpbug
