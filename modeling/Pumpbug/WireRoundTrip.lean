import Pumpbug.Wire

/-!
# Records come back from the wire

The decoder reads exactly the bytes that the encoder emits, and returns the record up to what the
format does not keep: the version, and the payload of an event that is not a pump-off confirmation.
-/

namespace Pumpbug

open Lib Lib.Reader

/-! ## Varints -/

theorem reads_readUvarintSrc (v : U32) : Reads readUvarintSrc (writeUvarint v) v := by
  have h := Leb128.reads_write (n := 4) (lt_trans v.isLt (by decide)) 0 0
  rwa [Nat.mul_zero, BitVec.shiftLeft_zero, show (0 : U32) ||| v = v from BitVec.zero_or] at h

theorem reads_readSvarintSrc (v : I32) : Reads readSvarintSrc (writeSvarint v) v := by
  refine (reads_readUvarintSrc (zigzag v)).bind_pure ?_
  rw [unzigzag_zigzag]
  exact reads_pure v

/-! ## Events -/

/-- An event without a payload that its kind does not have. -/
def Event.normalize (event : Event) : Event :=
  if event.kind = .pumpOffConfirmed then event else { event with payload := {} }

theorem reads_readEvent (previousTMs : U32) (event : Event) :
    Reads (readEvent kCompactVersion previousTMs) (writeEvent previousTMs event)
      (event.normalize, event.tMs) := by
  unfold readEvent writeEvent Event.normalize
  refine (reads_readUvarintSrc _).bind ?_
  refine (reads_byte _).bind ?_
  rw [EventKind.ofByte_toByte, BitVec.add_comm, BitVec.sub_add_cancel]
  by_cases hk : event.kind = .pumpOffConfirmed
  · rw [if_pos ⟨by decide, hk⟩, if_pos hk, if_pos hk]
    refine (reads_readUvarintSrc _).bind_pure ?_
    have hle : event.payload.signalDecayLeadMsPlusOne.setWidth 32 ≤ 0xFFFF := by
      have := event.payload.signalDecayLeadMsPlusOne.isLt
      bv_omega
    refine (reads_guard hle).bind_nil ?_
    rw [BitVec.setWidth_setWidth_of_le _ (by decide), BitVec.setWidth_eq]
    exact reads_pure _
  · rw [if_neg fun h => hk h.2, if_neg hk, if_neg hk]
    exact reads_pure _

theorem reads_events (beginMs : U32) (events : List Event) :
    Reads (loop (readEvent kCompactVersion) events.length beginMs) (encodeEvents beginMs events)
      (events.map Event.normalize) :=
  reads_loop id (fun _ => True) (fun _ _ _ _ => trivial)
    (fun previousTMs event _ _ => reads_readEvent previousTMs event) trivial

/-! ## Samples -/

/-- The reader's totals where the writer's cursor stands. -/
def SampleDeltaCursor.totals (cursor : SampleDeltaCursor) : SampleTotals :=
  { tMs := cursor.prevTMs, cg := cursor.prevCg }

theorem reads_readScaleTimer {includeScaleTimers : Bool} {sample : Sample}
    (h : includeScaleTimers = false → sampleHasScaleTimer sample = false) :
    Reads (readScaleTimer includeScaleTimers)
      (if includeScaleTimers then writeUvarint sample.scaleTimerMs else []) sample.scaleTimerMs := by
  unfold readScaleTimer
  by_cases hi : includeScaleTimers = true
  · rw [if_pos hi, if_pos hi]
    exact reads_readUvarintSrc _
  · rw [if_neg hi, if_neg hi]
    have hunknown : sample.scaleTimerMs = ScaleTime.UNKNOWN_MS := by
      have hno := h (by simpa using hi)
      unfold sampleHasScaleTimer ScaleTime.isKnown at hno
      simpa using hno
    rw [hunknown]
    exact reads_pure _

theorem reads_readSample {cursor : SampleDeltaCursor} {sample : Sample}
    (hcg : sample.cg ≠ NO_WEIGHT)
    (htimer : cursor.includeScaleTimers = false → sampleHasScaleTimer sample = false) :
    Reads (readSample cursor.includeScaleTimers cursor.totals) (writeSampleDelta cursor sample)
      ((sample.cg.signExtend 32, sample), (cursor.advance sample).totals) := by
  have ht : cursor.totals.tMs + (sample.tMs - cursor.prevTMs) = sample.tMs := by
    show cursor.prevTMs + (sample.tMs - cursor.prevTMs) = sample.tMs
    rw [BitVec.add_comm, BitVec.sub_add_cancel]
  have hc : cursor.totals.cg + (sample.cg.signExtend 32 - cursor.prevCg) =
      sample.cg.signExtend 32 := by
    show cursor.prevCg + (sample.cg.signExtend 32 - cursor.prevCg) = sample.cg.signExtend 32
    rw [BitVec.add_comm, BitVec.sub_add_cancel]
  have hsat : saturateCg (sample.cg.signExtend 32).toInt = sample.cg := by
    rw [BitVec.toInt_signExtend_of_le (by decide)]
    exact saturateCg_toInt hcg
  unfold readSample writeSampleDelta
  refine (reads_readUvarintSrc _).bind ?_
  refine (reads_readSvarintSrc _).bind ?_
  refine (reads_readScaleTimer htimer).bind_pure ?_
  rw [ht, hc, hsat]
  exact reads_pure _

theorem reads_encodeSamples {cursor : SampleDeltaCursor} {samples : List Sample}
    (hcg : ∀ sample ∈ samples, sample.cg ≠ NO_WEIGHT)
    (htimers : cursor.includeScaleTimers = sampleRangeHasScaleTimer samples) :
    Reads (loop (readSample (sampleRangeHasScaleTimer samples)) samples.length cursor.totals)
      (encodeSamples cursor samples)
      (samples.map fun sample => (sample.cg.signExtend 32, sample)) := by
  have hnext : ∀ c : SampleDeltaCursor, ∀ sample ∈ samples,
      c.includeScaleTimers = sampleRangeHasScaleTimer samples →
      (c.advance sample).includeScaleTimers = sampleRangeHasScaleTimer samples :=
    fun _ _ _ h => h
  refine reads_loop SampleDeltaCursor.totals _ hnext (fun c sample hs h => ?_) htimers
  rw [← h]
  refine reads_readSample (hcg sample hs) fun hno => ?_
  rw [h] at hno
  unfold sampleRangeHasScaleTimer at hno
  rw [List.any_eq_false] at hno
  simpa using hno sample hs

/-! ## Header and trailing block -/

theorem length_encodeHeader (e : Extraction) : (encodeHeader e).length = kCompactHeaderBytes := by
  unfold encodeHeader
  simp only [List.length_append]
  rfl

theorem length_writeTargetBlock (e : Extraction) :
    (writeTargetBlock e).length = kCompactTargetBlockBytes := by
  unfold writeTargetBlock
  simp only [List.length_append]
  rfl

/-- The bytes of the header, where the decoder looks for them. -/
theorem encodeHeader_bytes (e : Extraction) :
    byteAt (encodeHeader e) 0 = 0x45 ∧ byteAt (encodeHeader e) 1 = 0x58 ∧
    byteAt (encodeHeader e) 2 = 0x54 ∧ byteAt (encodeHeader e) 3 = 0x52 ∧
    byteAt (encodeHeader e) 4 = kCompactVersion ∧ byteAt (encodeHeader e) 5 = e.phase.toByte ∧
    byteAt (encodeHeader e) 6 = e.endCause.toByte ∧ byteAt (encodeHeader e) 7 = flagsByte e ∧
    byteAt (encodeHeader e) 44 = e.yieldStatus.toByte := by
  unfold encodeHeader writeI16LE writeI32LE
  simp only [List.append_assoc, List.cons_append, List.nil_append, byteAt_cons_zero,
    byteAt_cons_succ, byteAt_skipU32, byteAt_skipU16, and_self]

/-- The 32-bit fields of the header. -/
theorem encodeHeader_words (e : Extraction) :
    readU32LE (encodeHeader e) 8 = e.beginMs ∧
    readU32LE (encodeHeader e) 12 = e.lastPumpOffConfirmedMs ∧
    readU32LE (encodeHeader e) 16 = e.stableMs ∧ readU32LE (encodeHeader e) 20 = e.endMs ∧
    readU32LE (encodeHeader e) 24 = e.totalPumpOnMs ∧
    readU32LE (encodeHeader e) 28 = e.startUtcSec ∧ readU32LE (encodeHeader e) 46 = e.pourMs ∧
    readI32LE (encodeHeader e) 50 = e.decisionGainCg := by
  have hlast : ∀ v, readU32LE (writeU32LE v) 0 = v := fun v => readU32LE_eq rfl rfl rfl rfl
  unfold encodeHeader writeI16LE writeI32LE readI32LE
  simp only [List.append_assoc, List.cons_append, List.nil_append, readU32LE_write, hlast,
    readU32LE_cons_succ, readU32LE_skipU32, readU32LE_skipU16, and_self]

/-- The 16-bit fields of the header. -/
theorem encodeHeader_halves (e : Extraction) :
    readI16LE (encodeHeader e) 32 = e.yieldCg ∧ readI16LE (encodeHeader e) 34 = e.startRawCg ∧
    readI16LE (encodeHeader e) 36 = e.settledRawCg ∧
    readU16LE (encodeHeader e) 38 = e.observedSampleCount ∧
    readU16LE (encodeHeader e) 40 = BitVec.ofNat 16 e.events.count ∧
    readU16LE (encodeHeader e) 42 = BitVec.ofNat 16 e.samples.count := by
  unfold encodeHeader writeI16LE writeI32LE readI16LE
  simp only [List.append_assoc, List.cons_append, List.nil_append, readU16LE_write,
    readU16LE_cons_succ, readU16LE_skipU32, readU16LE_skipU16, and_self]

theorem boolByte_ne_zero (b : Bool) : decide (boolByte b ≠ 0) = b := by
  revert b; decide

theorem reads_targetBlock (e : Extraction) :
    Reads readTargetBlock (writeTargetBlock e) (e.target, e.alarm) := by
  have hlast : ∀ v, readU16LE (writeU16LE v) 0 = v := fun v => readU16LE_eq rfl rfl
  have htake : Reads (take kCompactTargetBlockBytes) (writeTargetBlock e) (writeTargetBlock e) :=
    length_writeTargetBlock e ▸ reads_take (writeTargetBlock e)
  refine htake.bind_pure ?_
  unfold writeTargetBlock writeI16LE readI16LE
  simp only [List.append_assoc, List.cons_append, List.nil_append, readU16LE_write, hlast,
    readU16LE_cons_succ, readU16LE_skipU32, readU16LE_skipU16, readU32LE_write,
    readU32LE_cons_succ, readU32LE_skipU16, byteAt_cons_zero, byteAt_cons_succ, byteAt_skipU32,
    byteAt_skipU16, boolByte_ne_zero]
  exact reads_pure _

/-! ## Whole records -/

/-- The record as a reader of the current format gets it back. -/
def Extraction.normalize (e : Extraction) : Extraction :=
  { e with version := kCurrentExtractionVersion, hasTargetSnapshot := true,
           events := e.events.map Event.normalize }

theorem flagsByte_overflowed (e : Extraction) :
    decide (flagsByte e &&& FLAG_EVENTS_OVERFLOWED ≠ 0) = e.eventsOverflowed := by
  unfold flagsByte
  generalize e.eventsOverflowed = o
  generalize sampleRangeHasScaleTimer e.samples.items = t
  revert o t; decide

theorem flagsByte_scaleTimers (e : Extraction) :
    decide (flagsByte e &&& FLAG_SCALE_TIMERS ≠ 0) = sampleRangeHasScaleTimer e.samples.items := by
  unfold flagsByte
  generalize e.eventsOverflowed = o
  generalize sampleRangeHasScaleTimer e.samples.items = t
  revert o t; decide

theorem toNat_count {α : Type} {cap : ℕ} (b : Buffer α cap) (h : cap < 2 ^ 16) :
    (BitVec.ofNat 16 b.count).toNat = b.items.length := by
  rw [BitVec.toNat_ofNat]
  exact Nat.mod_eq_of_lt (lt_of_le_of_lt b.fits h)

theorem reads_body (e : Extraction) (hcg : ∀ sample ∈ e.samples.items, sample.cg ≠ NO_WEIGHT) :
    Reads readBody
      (encodeHeader e ++ (encodeEvents e.beginMs e.events.items ++
        encodeSamples e.sampleCursor e.samples.items))
      { record := { e.normalize with hasTargetSnapshot := false, target := {}, alarm := {} }
        runningCg := e.samples.items.map fun sample => sample.cg.signExtend 32 } := by
  have htake : Reads (take kCompactHeaderBytes) (encodeHeader e) (encodeHeader e) :=
    length_encodeHeader e ▸ reads_take (encodeHeader e)
  obtain ⟨b₀, b₁, b₂, b₃, b₄, b₅, b₆, b₇, b₄₄⟩ := encodeHeader_bytes e
  obtain ⟨w₈, w₁₂, w₁₆, w₂₀, w₂₄, w₂₈, w₄₆, w₅₀⟩ := encodeHeader_words e
  obtain ⟨h₃₂, h₃₄, h₃₆, h₃₈, h₄₀, h₄₂⟩ := encodeHeader_halves e
  have hevents := e.events.fits
  have hsamples := e.samples.fits
  have hce := toNat_count e.events (by decide)
  have hcs := toNat_count e.samples (by decide)
  refine htake.bind ?_
  refine (reads_guard ⟨b₀, b₁, b₂, b₃⟩).bind_nil ?_
  unfold assembleBody
  dsimp only
  rw [b₄, b₅, b₆, b₇, b₄₄, w₈, w₁₂, w₁₆, w₂₀, w₂₄, w₂₈, w₄₆, w₅₀, h₃₂, h₃₄, h₃₆, h₃₈, h₄₀, h₄₂,
    hce, hcs, flagsByte_overflowed, flagsByte_scaleTimers, EndCause.ofByte?_toByte,
    Phase.ofByte_toByte, YieldStatus.ofByte_toByte]
  refine (reads_guard (by decide)).bind_nil ?_
  refine Reads.bind_nil (a := e.endCause) (fun _ => rfl) ?_
  refine (reads_guard hevents).bind_nil ?_
  refine (reads_guard hsamples).bind_nil ?_
  refine (reads_events e.beginMs e.events.items).bind ?_
  have hread := @reads_encodeSamples e.sampleCursor e.samples.items hcg rfl
  refine hread.bind_pure ?_
  rw [List.map_map, List.map_map]
  have hev : Buffer.ofList (e.events.items.map Event.normalize) = e.events.map Event.normalize :=
    Buffer.ofList_items (e.events.map Event.normalize)
  have hsa : Buffer.ofList (e.samples.items.map (Prod.snd ∘ fun sample : Sample =>
      (sample.cg.signExtend 32, sample))) = e.samples := by
    have hid : (Prod.snd ∘ fun sample : Sample => ((sample.cg.signExtend 32 : I32), sample)) = id :=
      rfl
    rw [hid, List.map_id, Buffer.ofList_items]
  rw [hev, hsa]
  exact reads_pure _

theorem reads_compactBytes (e : Extraction)
    (hcg : ∀ sample ∈ e.samples.items, sample.cg ≠ NO_WEIGHT) :
    Reads decodeCompact (compactBytes e) e.normalize := by
  unfold compactBytes
  rw [← List.append_assoc (encodeEvents _ _), ← List.append_assoc (encodeHeader e)]
  refine (reads_body e hcg).bind ?_
  refine (reads_targetBlock e).bind_pure ?_
  exact reads_pure _

/-! ## Decoded records -/

/-- What the decoder has established when it accepts. -/
theorem readBody_eq_some {bs rest : Bytes} {body : CompactBody}
    (h : readBody bs = some (body, rest)) :
    ∃ hdr cause events samples bs₁ bs₂,
      take kCompactHeaderBytes bs = some (hdr, bs₁) ∧
      (byteAt hdr 0 = 0x45 ∧ byteAt hdr 1 = 0x58 ∧ byteAt hdr 2 = 0x54 ∧ byteAt hdr 3 = 0x52) ∧
      isCompactVersionSupported (byteAt hdr 4) = true ∧
      EndCause.ofByte? (byteAt hdr 6) = some cause ∧
      (readU16LE hdr 40).toNat ≤ MAX_EVENTS ∧ (readU16LE hdr 42).toNat ≤ MAX_SAMPLES ∧
      loop (readEvent (byteAt hdr 4)) (readU16LE hdr 40).toNat (readU32LE hdr 8) bs₁ =
        some (events, bs₂) ∧
      loop (readSample (byteAt hdr 7 &&& FLAG_SCALE_TIMERS ≠ 0)) (readU16LE hdr 42).toNat
        { tMs := readU32LE hdr 8, cg := 0 } bs₂ = some (samples, rest) ∧
      body = assembleBody hdr cause events samples := by
  unfold readBody at h
  obtain ⟨hdr, bs₁, htake, h⟩ := bind_eq_some.1 h
  obtain ⟨_, m₁, hg, h⟩ := bind_eq_some.1 h
  obtain ⟨hmagic, rfl⟩ := guard_eq_some.1 hg
  obtain ⟨_, m₂, hg, h⟩ := bind_eq_some.1 h
  obtain ⟨hversion, rfl⟩ := guard_eq_some.1 hg
  obtain ⟨cause, m₃, hg, h⟩ := bind_eq_some.1 h
  obtain ⟨hcause, rfl⟩ := lift_eq_some.1 hg
  obtain ⟨_, m₄, hg, h⟩ := bind_eq_some.1 h
  obtain ⟨hec, rfl⟩ := guard_eq_some.1 hg
  obtain ⟨_, m₅, hg, h⟩ := bind_eq_some.1 h
  obtain ⟨hsc, rfl⟩ := guard_eq_some.1 hg
  obtain ⟨events, bs₂, hevents, h⟩ := bind_eq_some.1 h
  obtain ⟨samples, bs₃, hsamples, h⟩ := bind_eq_some.1 h
  obtain ⟨rfl, rfl⟩ := pure_eq_some.1 h
  exact ⟨hdr, cause, events, samples, _, bs₂, htake, hmagic, hversion, hcause, hec, hsc, hevents,
    hsamples, rfl⟩

theorem normalize_of_readEvent {version : U8} {s s' : U32} {event : Event} {bs rest : Bytes}
    (h : readEvent version s bs = some ((event, s'), rest)) : event.normalize = event := by
  unfold readEvent at h
  obtain ⟨delta, m₁, -, h⟩ := bind_eq_some.1 h
  obtain ⟨kind, m₂, -, h⟩ := bind_eq_some.1 h
  unfold Event.normalize
  by_cases hk : ExtractionVersion.v7.toByte ≤ version ∧ EventKind.ofByte kind = .pumpOffConfirmed
  · rw [if_pos hk] at h
    obtain ⟨lead, m₃, -, h⟩ := bind_eq_some.1 h
    obtain ⟨-, m₄, -, h⟩ := bind_eq_some.1 h
    obtain ⟨h, -⟩ := pure_eq_some.1 h
    obtain ⟨rfl, -⟩ := Prod.mk.inj h
    exact if_pos hk.2
  · rw [if_neg hk] at h
    obtain ⟨h, -⟩ := pure_eq_some.1 h
    obtain ⟨rfl, -⟩ := Prod.mk.inj h
    split_ifs <;> rfl

theorem cg_of_readSample {timers : Bool} {s s' : SampleTotals} {item : I32 × Sample}
    {bs rest : Bytes} (h : readSample timers s bs = some ((item, s'), rest)) :
    item.2.cg = saturateCg item.1.toInt := by
  unfold readSample at h
  obtain ⟨dt, m₁, -, h⟩ := bind_eq_some.1 h
  obtain ⟨dc, m₂, -, h⟩ := bind_eq_some.1 h
  obtain ⟨timer, m₃, -, h⟩ := bind_eq_some.1 h
  obtain ⟨h, -⟩ := pure_eq_some.1 h
  obtain ⟨rfl, -⟩ := Prod.mk.inj h
  rfl

/-- A decoded record has an encoding, and loses only its version in it. -/
theorem decodeCompact_reencodes {bs rest : Bytes} {e : Extraction}
    (h : decodeCompact bs = some (e, rest)) :
    isCompactVersionSupported e.version.toByte = true ∧
      (∀ sample ∈ e.samples.items, sample.cg ≠ NO_WEIGHT) ∧
      e.normalize = { e with version := kCurrentExtractionVersion } := by
  unfold decodeCompact at h
  obtain ⟨body, m₁, hbody, h⟩ := bind_eq_some.1 h
  obtain ⟨⟨target, alarm⟩, m₂, -, h⟩ := bind_eq_some.1 h
  obtain ⟨rfl, -⟩ := pure_eq_some.1 h
  obtain ⟨hdr, cause, events, samples, bs₁, bs₂, -, -, hversion, -, hec, hsc, hevents, hsamples, rfl⟩ :=
    readBody_eq_some hbody
  have hevn := forall_of_loop (fun _ _ _ _ _ => normalize_of_readEvent) hevents
  have hsat := forall_of_loop (fun _ _ _ _ _ => cg_of_readSample) hsamples
  have hele : events.length ≤ MAX_EVENTS := by rw [length_of_loop hevents]; exact hec
  have hsle : (samples.map Prod.snd).length ≤ MAX_SAMPLES := by
    rw [List.length_map, length_of_loop hsamples]; exact hsc
  refine ⟨?_, ?_, ?_⟩
  · show isCompactVersionSupported (ExtractionVersion.ofByte (byteAt hdr 4)).toByte = true
    unfold ExtractionVersion.ofByte
    unfold isCompactVersionSupported at hversion
    rw [Bool.or_eq_true, decide_eq_true_eq, decide_eq_true_eq] at hversion
    rcases hversion with hv | hv
    · rw [if_pos hv]; decide
    · rw [hv]; decide
  · intro sample hs
    have hs' : sample ∈ (Buffer.ofList (samples.map Prod.snd) : Buffer Sample MAX_SAMPLES).items := hs
    rw [Buffer.items_ofList_of_le hsle] at hs'
    obtain ⟨item, hitem, rfl⟩ := List.mem_map.1 hs'
    rw [hsat item hitem]
    exact saturateCg_ne_noWeight _
  · unfold Extraction.normalize
    congr 1
    apply Buffer.ext
    show (Buffer.ofList events : Buffer Event MAX_EVENTS).items.map Event.normalize =
      (Buffer.ofList events : Buffer Event MAX_EVENTS).items
    rw [Buffer.items_ofList_of_le hele]
    exact (List.map_congr_left hevn).trans (List.map_id events)

/-! ## The round trip -/

theorem encodeCompact_of_supported {e : Extraction}
    (hv : isCompactVersionSupported e.version.toByte = true) :
    ∃ chunks, encodeCompact e = some chunks ∧ chunks.flatten = compactBytes e := by
  have henc : ∃ chunks, encodeCompact e = some chunks := by
    unfold encodeCompact
    rw [if_pos hv]
    exact ⟨_, rfl⟩
  obtain ⟨chunks, hchunks⟩ := henc
  exact ⟨chunks, hchunks, encodeCompact_flatten hchunks⟩

/-- **Round trip.** A record with a supported version comes back from its encoding up to
`normalize`, and the decoder consumes exactly the encoding.  Every decoded record qualifies,
whatever its version, and only its version changes. -/
theorem decodeCompact_encodeCompact (e : Extraction)
    (hv : isCompactVersionSupported e.version.toByte = true)
    (hcg : ∀ sample ∈ e.samples.items, sample.cg ≠ NO_WEIGHT) :
    (∃ chunks, encodeCompact e = some chunks ∧ Reads decodeCompact chunks.flatten e.normalize) ∧
      ∀ bs rest d, decodeCompact bs = some (d, rest) →
        ∃ chunks, encodeCompact d = some chunks ∧
          Reads decodeCompact chunks.flatten { d with version := kCurrentExtractionVersion } := by
  constructor
  · obtain ⟨chunks, henc, hbytes⟩ := encodeCompact_of_supported hv
    refine ⟨chunks, henc, ?_⟩
    rw [hbytes]
    exact reads_compactBytes e hcg
  · intro bs rest d hd
    obtain ⟨hv', hcg', hnorm⟩ := decodeCompact_reencodes hd
    obtain ⟨chunks, henc, hbytes⟩ := encodeCompact_of_supported hv'
    refine ⟨chunks, henc, ?_⟩
    rw [hbytes, ← hnorm]
    exact reads_compactBytes d hcg'

/-- An older record that wraps the counter, with a sample from before it began. -/
def olderRecord : Extraction :=
  { version := .v6, phase := .done, endCause := .timeout, beginMs := 0xFFFFFF00, endMs := 0x200,
    events := Buffer.ofList [{ tMs := 0xFFFFFF00, kind := .begin },
      { tMs := 0x10, kind := .pumpOffConfirmed, payload := { signalDecayLeadMsPlusOne := 7 } },
      { tMs := 0x200, kind := .end_ }],
    samples := Buffer.ofList [{ tMs := 0xFFFFFE00, cg := 0xFFFF, scaleTimerMs := 12 },
      { tMs := 0x20, cg := 0x7FFF }] }

theorem decodeCompact_encodeCompact_olderRecord :
    (∃ chunks, encodeCompact olderRecord = some chunks ∧
        Reads decodeCompact chunks.flatten olderRecord.normalize) ∧
      ∀ bs rest d, decodeCompact bs = some (d, rest) →
        ∃ chunks, encodeCompact d = some chunks ∧
          Reads decodeCompact chunks.flatten { d with version := kCurrentExtractionVersion } :=
  decodeCompact_encodeCompact olderRecord (by decide) (by decide)

/-! ## Sizes -/

theorem eventsEncodedSize_eq (previousTMs : U32) (events : List Event) :
    eventsEncodedSize previousTMs events = (encodeEvents previousTMs events).length := by
  unfold encodeEvents
  induction events generalizing previousTMs with
  | nil => rfl
  | cons event events ih =>
    unfold eventsEncodedSize writeAll
    rw [ih, List.length_append]

theorem samplesEncodedSize_eq (cursor : SampleDeltaCursor) (samples : List Sample) :
    samplesEncodedSize cursor samples = (encodeSamples cursor samples).length := by
  unfold encodeSamples
  induction samples generalizing cursor with
  | nil => rfl
  | cons sample samples ih =>
    unfold samplesEncodedSize writeAll
    rw [ih, sampleDeltaEncodedSize_eq, List.length_append]

/-- The size that callers allocate is the size of the encoding. -/
theorem encodeCompactSize_eq (e : Extraction) :
    encodeCompactSize e = (encodeCompact e).map fun chunks => chunks.flatten.length := by
  by_cases hv : isCompactVersionSupported e.version.toByte = true
  · obtain ⟨chunks, henc, hbytes⟩ := encodeCompact_of_supported hv
    rw [henc, Option.map_some, hbytes]
    unfold encodeCompactSize compactBytes
    rw [if_pos hv, eventsEncodedSize_eq, samplesEncodedSize_eq, List.length_append,
      List.length_append, List.length_append, length_encodeHeader, length_writeTargetBlock]
    congr 1
    omega
  · unfold encodeCompactSize encodeCompact
    rw [if_neg hv, if_neg hv]
    rfl

end Pumpbug
