import Pumpbug.SampleBatch
import Pumpbug.WireRoundTrip

/-!
# Sizes on the wire

The size pass of a record agrees with its encoding, every item fits its scratch buffer, and the
whole record fits the bound that buffers and file readers rely on.  Where the writer's buffer is
flushed does not matter.
-/

namespace Pumpbug

open Lib Lib.Reader

def kMaxVarint32Bytes : ℕ := 5
def kMaxEventPayloadVarintBytes : ℕ := 3
def kMaxWeightDeltaVarintBytes : ℕ := 3

def kMaxCompactRecordBytes : ℕ :=
  kCompactHeaderBytes + MAX_EVENTS * (kMaxVarint32Bytes + 1 + kMaxEventPayloadVarintBytes) +
    MAX_SAMPLES * (2 * kMaxVarint32Bytes + kMaxWeightDeltaVarintBytes) + kCompactTargetBlockBytes

/-- The scratch buffer of `encodeCompact`. -/
def kMaxSampleDeltaBytes : ℕ := 16

/-- `eventBytes`, the scratch buffer of `encodeCompactSize`. -/
def kEventScratchBytes : ℕ := kMaxVarint32Bytes + 1 + kMaxEventPayloadVarintBytes

/-! ## Varints -/

theorem length_writeUvarint_le (v : U32) : (writeUvarint v).length ≤ kMaxVarint32Bytes :=
  Leb128.length_write_le 4 v

theorem length_writeUvarint_of_lt {v : U32} (h : v.toNat < 2 ^ 21) : (writeUvarint v).length ≤ 3 :=
  Leb128.length_write_of_lt (k := 2) h

/-- A difference of two weights. -/
theorem toNat_zigzag_lt {v : I32} (h : -65536 ≤ v.toInt) (h' : v.toInt ≤ 65536) :
    (zigzag v).toNat < 2 ^ 21 := by
  have hv := v.isLt
  rw [BitVec.toInt_eq_toNat_cond] at h h'
  unfold zigzag
  by_cases hneg : v.toInt < 0
  · rw [if_pos hneg]
    rw [BitVec.toInt_eq_toNat_cond] at hneg
    have hall : (0xFFFFFFFF : U32) = BitVec.allOnes 32 := rfl
    rw [hall, BitVec.xor_allOnes, BitVec.toNat_not, BitVec.toNat_shiftLeft, Nat.shiftLeft_eq]
    split_ifs at h h' hneg <;> omega
  · rw [if_neg hneg]
    rw [BitVec.toInt_eq_toNat_cond] at hneg
    have hzero : (0 : U32) = 0#32 := rfl
    rw [hzero, BitVec.xor_zero, BitVec.toNat_shiftLeft, Nat.shiftLeft_eq]
    split_ifs at h h' hneg <;> omega

/-! ## Items -/

theorem length_writeEvent_le (previousTMs : U32) (event : Event) :
    (writeEvent previousTMs event).length ≤ kEventScratchBytes := by
  have hdelta := length_writeUvarint_le (event.tMs - previousTMs)
  have hlead : (writeUvarint (event.payload.signalDecayLeadMsPlusOne.setWidth 32)).length ≤ 3 := by
    apply length_writeUvarint_of_lt
    have := event.payload.signalDecayLeadMsPlusOne.isLt
    rw [BitVec.toNat_setWidth]
    omega
  unfold writeEvent
  unfold kMaxVarint32Bytes at hdelta
  unfold kEventScratchBytes kMaxVarint32Bytes kMaxEventPayloadVarintBytes
  rw [List.length_append, List.length_append, List.length_singleton]
  split_ifs
  · omega
  · rw [List.length_nil]
    omega

/-- The cursor's weight is a weight of 16 bits. -/
def SampleDeltaCursor.Weighs (cursor : SampleDeltaCursor) : Prop :=
  -32768 ≤ cursor.prevCg.toInt ∧ cursor.prevCg.toInt ≤ 32767

theorem weighs_advance (cursor : SampleDeltaCursor) (sample : Sample) :
    (cursor.advance sample).Weighs := by
  have h := toInt_bounds sample.cg
  unfold SampleDeltaCursor.Weighs SampleDeltaCursor.advance
  rwa [BitVec.toInt_signExtend_of_le (by decide)]

theorem toInt_delta {cursor : SampleDeltaCursor} (h : cursor.Weighs) (sample : Sample) :
    (sample.cg.signExtend 32 - cursor.prevCg).toInt = sample.cg.toInt - cursor.prevCg.toInt := by
  have hc := toInt_bounds sample.cg
  obtain ⟨h₁, h₂⟩ := h
  rw [BitVec.toInt_sub, BitVec.toInt_signExtend_of_le (by decide), Int.bmod_eq_of_le] <;>
    norm_num <;> omega

/-- The bound that `kMaxCompactRecordBytes` counts for a sample. -/
theorem length_writeSampleDelta_le {cursor : SampleDeltaCursor} (h : cursor.Weighs)
    (sample : Sample) : (writeSampleDelta cursor sample).length ≤
      2 * kMaxVarint32Bytes + kMaxWeightDeltaVarintBytes := by
  have hc := toInt_bounds sample.cg
  have hdelta := toInt_delta h sample
  have htime := length_writeUvarint_le (sample.tMs - cursor.prevTMs)
  have htimer := length_writeUvarint_le sample.scaleTimerMs
  obtain ⟨h₁, h₂⟩ := h
  have hcg : (writeSvarint (sample.cg.signExtend 32 - cursor.prevCg)).length ≤ 3 := by
    apply length_writeUvarint_of_lt
    apply toNat_zigzag_lt <;> omega
  unfold writeSampleDelta
  unfold kMaxVarint32Bytes at htime htimer
  unfold kMaxVarint32Bytes kMaxWeightDeltaVarintBytes
  rw [List.length_append, List.length_append]
  split_ifs
  · omega
  · rw [List.length_nil]
    omega

/-! ## Streams -/

/-- What the event loop writes, event by event. -/
def eventPieces (e : Extraction) : List Bytes :=
  emitted writeEvent (fun _ event => event.tMs) e.beginMs e.events.items

/-- What the sample loop writes, sample by sample. -/
def samplePieces (e : Extraction) : List Bytes :=
  emitted writeSampleDelta SampleDeltaCursor.advance e.sampleCursor e.samples.items

theorem length_eventPieces_le (e : Extraction) :
    ∀ piece ∈ eventPieces e, piece.length ≤ kEventScratchBytes :=
  forall_emitted (fun _ => True) (fun _ _ _ => trivial)
    (fun previousTMs event _ => length_writeEvent_le previousTMs event) trivial _

theorem length_samplePieces_le (e : Extraction) :
    ∀ piece ∈ samplePieces e,
      piece.length ≤ 2 * kMaxVarint32Bytes + kMaxWeightDeltaVarintBytes := by
  have hstart : e.sampleCursor.Weighs := by
    unfold SampleDeltaCursor.Weighs Extraction.sampleCursor
    simp
  exact forall_emitted SampleDeltaCursor.Weighs (fun cursor sample _ => weighs_advance cursor sample)
    (fun cursor sample h => length_writeSampleDelta_le h sample) hstart _

/-- The bytes of pieces of bounded length. -/
theorem length_flatten_le {pieces : List Bytes} {n : ℕ} (h : ∀ piece ∈ pieces, piece.length ≤ n) :
    pieces.flatten.length ≤ pieces.length * n := by
  induction pieces with
  | nil => simp
  | cons piece pieces ih =>
    have hhead := h piece List.mem_cons_self
    have htail := ih fun p hp => h p (List.mem_cons_of_mem piece hp)
    rw [List.flatten_cons, List.length_append, List.length_cons, Nat.add_mul]
    omega

theorem length_compactBytes_le (e : Extraction) :
    (compactBytes e).length ≤ kMaxCompactRecordBytes := by
  have hevents := length_flatten_le (length_eventPieces_le e)
  have hsamples := length_flatten_le (length_samplePieces_le e)
  unfold eventPieces at hevents
  unfold samplePieces at hsamples
  rw [flatten_emitted, length_emitted] at hevents hsamples
  have hec := Nat.mul_le_mul_right kEventScratchBytes e.events.fits
  have hsc := Nat.mul_le_mul_right (2 * kMaxVarint32Bytes + kMaxWeightDeltaVarintBytes)
    e.samples.fits
  unfold compactBytes encodeEvents encodeSamples
  rw [List.length_append, List.length_append, List.length_append, length_encodeHeader,
    length_writeTargetBlock]
  unfold kEventScratchBytes at hevents hec
  unfold kMaxCompactRecordBytes
  omega

/-! ## Flushes -/

/-- A use of the writer. -/
inductive WriterCall
  | put (data : Bytes)
  | flush

namespace WriterCall

def apply (w : ChunkedWriter) : WriterCall → ChunkedWriter
  | put data => w.put data
  | flush => w.flush

/-- What the call adds to the output. -/
def data : WriterCall → Bytes
  | put data => data
  | flush => []

/-- The data of a put. -/
def put? : WriterCall → Option Bytes
  | put data => some data
  | flush => none

theorem apply_written (w : ChunkedWriter) (call : WriterCall) :
    (apply w call).written = w.written ++ call.data := by
  cases call with
  | put data => exact ChunkedWriter.put_written w data
  | flush => exact (ChunkedWriter.flush_written w).trans (List.append_nil _).symm

theorem calls_written (w : ChunkedWriter) (calls : List WriterCall) :
    (calls.foldl apply w).written = w.written ++ (calls.map data).flatten := by
  induction calls generalizing w with
  | nil => exact (List.append_nil _).symm
  | cons call calls ih =>
    rw [List.foldl_cons, ih, apply_written, List.map_cons, List.flatten_cons, List.append_assoc]

/-- **Flushes are not seen.** After the last flush the sink has the data, however it was cut. -/
theorem sink_of_calls (calls : List WriterCall) :
    (calls.foldl apply {}).flush.sink.flatten = (calls.map data).flatten := by
  rw [ChunkedWriter.flush_sink, calls_written]
  rfl

end WriterCall

/-! ## Sample batches -/

theorem length_writeU16LE (v : U16) : (writeU16LE v).length = 2 := rfl

theorem length_writeU32LE (v : U32) : (writeU32LE v).length = 4 := rfl

theorem length_writePacketHeader (type : U8) (streamSeq shotSeq : U32) :
    (SentSamples.writePacketHeader type streamSeq shotSeq).length = kPacketHeaderBytes := rfl

theorem length_sampleBatchPacket {s : SentSamples} {ext : Extraction} {streamSeq shotSeq : U32}
    {packet : Bytes} (h : s.sampleBatchPacket ext streamSeq shotSeq = some packet) :
    packet.length = s.sampleBatchLen ext := by
  unfold SentSamples.sampleBatchPacket SentSamples.sampleBatchPayload at h
  by_cases hle : ext.samples.count ≤ s.lastSentSampleIdx
  · rw [if_pos hle] at h
    exact absurd h (by simp)
  · rw [if_neg hle, Option.map_some] at h
    obtain rfl := Option.some.inj h
    unfold SentSamples.sampleBatchLen writeI16LE
    rw [samplesEncodedSize_eq]
    simp only [List.length_append, length_writePacketHeader, length_writeU16LE, length_writeU32LE,
      List.length_singleton]
    omega

/-! ## Whole records -/

/-- What the encoder hands to its writer, call by call. -/
def encodePuts (e : Extraction) : List Bytes :=
  [encodeHeader e] ++ (eventPieces e ++ (samplePieces e ++ [writeTargetBlock e]))

theorem flatten_encodePuts (e : Extraction) : (encodePuts e).flatten = compactBytes e := by
  unfold encodePuts eventPieces samplePieces compactBytes encodeEvents encodeSamples
  simp only [List.flatten_append, flatten_emitted, List.flatten_singleton]

theorem foldl_put (w : ChunkedWriter) (pieces : List Bytes) :
    pieces.foldl ChunkedWriter.put w = w.put pieces.flatten := by
  induction pieces generalizing w with
  | nil => rfl
  | cons piece pieces ih =>
    rw [List.foldl_cons, ih, List.flatten_cons]
    unfold ChunkedWriter.put
    rw [List.foldl_append]

/-- The encoder's loops put one piece at a time. -/
theorem encodeCompact_eq_puts (e : Extraction)
    (hv : isCompactVersionSupported e.version.toByte = true) :
    encodeCompact e = some ((encodePuts e).foldl ChunkedWriter.put {}).flush.sink := by
  unfold encodeCompact
  rw [if_pos hv, foldl_put, flatten_encodePuts]
  unfold compactBytes ChunkedWriter.put
  rw [List.foldl_append, List.foldl_append, List.foldl_append]

/-- The data of the calls is what their puts carry. -/
theorem WriterCall.flatten_data (calls : List WriterCall) :
    (calls.map data).flatten = (calls.filterMap put?).flatten := by
  induction calls with
  | nil => rfl
  | cons call calls ih =>
    cases call with
    | put bytes =>
      rw [List.map_cons, List.flatten_cons, ih]
      rfl
    | flush =>
      rw [List.map_cons, List.flatten_cons, ih]
      rfl

/-- **Sizes.** The size pass counts the bytes that the sink receives, they fit the record bound,
every event and sample fits its scratch buffer, flushes at other places change nothing in the
output, and the size pass of a sample batch counts the bytes of its packet. -/
theorem encodeCompact_sizes (e : Extraction) (hv : isCompactVersionSupported e.version.toByte = true) :
    ∃ chunks total, encodeCompact e = some chunks ∧ encodeCompactSize e = some total ∧
      (chunks.map List.length).sum = total ∧ total ≤ kMaxCompactRecordBytes ∧
      (∀ piece ∈ eventPieces e,
        piece.length ≤ kEventScratchBytes ∧ piece.length ≤ kMaxSampleDeltaBytes) ∧
      (∀ piece ∈ samplePieces e, piece.length ≤ kMaxSampleDeltaBytes) ∧
      chunks = ((encodePuts e).foldl ChunkedWriter.put {}).flush.sink ∧
      (∀ calls : List WriterCall, calls.filterMap WriterCall.put? = encodePuts e →
        (calls.foldl WriterCall.apply {}).flush.sink.flatten = chunks.flatten) ∧
      ∀ (s : SentSamples) (streamSeq shotSeq : U32) (packet : Bytes),
        s.sampleBatchPacket e streamSeq shotSeq = some packet → packet.length = s.sampleBatchLen e := by
  obtain ⟨chunks, henc, hbytes⟩ := encodeCompact_of_supported hv
  have hsize : encodeCompactSize e = some chunks.flatten.length := by
    rw [encodeCompactSize_eq, henc, Option.map_some]
  refine ⟨chunks, chunks.flatten.length, henc, hsize, List.length_flatten.symm, ?_, ?_, ?_, ?_, ?_,
    ?_⟩
  · rw [hbytes]
    exact length_compactBytes_le e
  · intro piece hp
    have h := length_eventPieces_le e piece hp
    exact ⟨h, h.trans (by decide)⟩
  · intro piece hp
    exact (length_samplePieces_le e piece hp).trans (by decide)
  · rw [encodeCompact_eq_puts e hv] at henc
    exact (Option.some.inj henc).symm
  · intro calls hcalls
    rw [WriterCall.sink_of_calls, WriterCall.flatten_data, hcalls, flatten_encodePuts, hbytes]
  · intro s streamSeq shotSeq packet hpacket
    exact length_sampleBatchPacket hpacket

theorem encodeCompact_sizes_olderRecord :
    ∃ chunks total, encodeCompact olderRecord = some chunks ∧
      encodeCompactSize olderRecord = some total ∧
      (chunks.map List.length).sum = total ∧ total ≤ kMaxCompactRecordBytes ∧
      (∀ piece ∈ eventPieces olderRecord,
        piece.length ≤ kEventScratchBytes ∧ piece.length ≤ kMaxSampleDeltaBytes) ∧
      (∀ piece ∈ samplePieces olderRecord, piece.length ≤ kMaxSampleDeltaBytes) ∧
      chunks = ((encodePuts olderRecord).foldl ChunkedWriter.put {}).flush.sink ∧
      (∀ calls : List WriterCall, calls.filterMap WriterCall.put? = encodePuts olderRecord →
        (calls.foldl WriterCall.apply {}).flush.sink.flatten = chunks.flatten) ∧
      ∀ (s : SentSamples) (streamSeq shotSeq : U32) (packet : Bytes),
        s.sampleBatchPacket olderRecord streamSeq shotSeq = some packet →
          packet.length = s.sampleBatchLen olderRecord :=
  encodeCompact_sizes olderRecord (by decide)

end Pumpbug
