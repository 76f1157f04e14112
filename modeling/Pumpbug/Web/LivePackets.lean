import Pumpbug.Web.LiveModel

/-!
# What a packet does to the live model

The page reads from every packet what the session built it from; a batch continues a record that has
the samples before it.
-/

namespace Pumpbug

open Lib Lib.Reader

/-- A record that the encoder takes, and that the browser decodes. -/
structure Extraction.Sendable (e : Extraction) : Prop where
  version : isCompactVersionSupported e.version.toByte = true
  weighed : e.Weighed

/-- What comes back from flash can be sent. -/
theorem sendable_of_decoded {bs rest : Bytes} {e : Extraction}
    (h : decodeCompact bs = some (e, rest)) : e.Sendable := by
  obtain ⟨hversion, hweighed, -⟩ := decodeCompact_reencodes h
  exact ⟨hversion, hweighed⟩

namespace Web

open Controller (StatusSnapshot)
open ExtractionStream (Packet statePayload stateFlags)

/-! ## Status -/

/-- What the page keeps of a status. -/
def State.ofSnapshot (snap : StatusSnapshot) : State where
  active := snap.active
  pouring := snap.currentPouring
  pumpDecayCandidate := snap.pumpSignalState = .decayCandidate
  hasDisplayShot := snap.hasDisplayShot
  phase := phaseName snap.currentPhase.toByte
  scale := scaleName snap.scaleState.toByte
  storage := storageName snap.storageState.toByte
  elapsedMs := num snap.currentElapsedMs
  savedSeq := num (BitVec.ofNat 32 snap.savedSeq)
  currentWeightCg := snap.currentWeightCg.map BitVec.toInt
  currentYieldCg := snap.currentYieldCg.map BitVec.toInt
  acceptedSeq := snap.acceptedSeq

theorem stateFlags_bits (snap : StatusSnapshot) :
    decide (stateFlags snap &&& 0x01 ≠ 0) = snap.active ∧
      decide (stateFlags snap &&& 0x02 ≠ 0) = snap.currentWeightCg.isSome ∧
      decide (stateFlags snap &&& 0x04 ≠ 0) = snap.currentYieldCg.isSome ∧
      decide (stateFlags snap &&& 0x08 ≠ 0) = snap.currentPouring ∧
      decide (stateFlags snap &&& 0x10 ≠ 0) = snap.hasDisplayShot ∧
      decide (stateFlags snap &&& 0x20 ≠ 0) = decide (snap.pumpSignalState = .decayCandidate) := by
  unfold stateFlags
  generalize snap.active = a
  generalize snap.currentWeightCg.isSome = w
  generalize snap.currentYieldCg.isSome = y
  generalize snap.currentPouring = p
  generalize snap.hasDisplayShot = d
  by_cases hs : snap.pumpSignalState = .decayCandidate
  · rw [if_pos hs, decide_eq_true hs]
    revert a w y p d
    decide
  · rw [if_neg hs, decide_eq_false hs]
    revert a w y p d
    decide

/-- The fixed part of a `STATE` packet, where the page looks for it. -/
theorem statePayload_words (snap : StatusSnapshot) :
    let dv := statePayload snap
    getUint8 dv 0 = some (stateFlags snap) ∧ getUint8 dv 1 = some snap.currentPhase.toByte ∧
      getUint8 dv 2 = some snap.scaleState.toByte ∧
      getUint8 dv 3 = some snap.storageState.toByte ∧
      getUint32 dv 4 = some snap.currentElapsedMs ∧
      getUint32 dv 8 = some (BitVec.ofNat 32 snap.savedSeq) ∧
      getUint16 dv 12 = some (snap.currentWeightCg.getD NO_WEIGHT) ∧
      getUint16 dv 14 = some (snap.currentYieldCg.getD NO_WEIGHT) := by
  intro dv
  have hlen : dv.length = 16 := rfl
  have hblk : take 16 (dv.drop 0) = some (dv, []) := by
    unfold take
    rw [List.drop_zero, if_pos hlen.ge, List.take_of_length_le hlen.le,
      List.drop_of_length_le hlen.le]
  have h32 {k : ℕ} {v : U32} (hk : k + 4 ≤ 16) (hv : readU32LE dv k = v) :
      getUint32 dv k = some v := by
    have h := getUint32_of_take hblk hk
    rwa [Nat.zero_add, hv] at h
  have h16 {k : ℕ} {v : U16} (hk : k + 2 ≤ 16) (hv : readU16LE dv k = v) :
      getUint16 dv k = some v := by
    have h := getUint16_of_take hblk hk
    rwa [Nat.zero_add, hv] at h
  refine ⟨rfl, rfl, rfl, rfl, ?_, ?_, ?_, ?_⟩
  · exact h32 (by decide) (readU32LE_eq rfl rfl rfl rfl)
  · exact h32 (by decide) (readU32LE_eq rfl rfl rfl rfl)
  · exact h16 (by decide) (readU16LE_eq rfl rfl)
  · exact h16 (by decide) (readU16LE_eq rfl rfl)

theorem weight_of_flag {p : Prop} [Decidable p] {cg : Option I16} (h : decide p = cg.isSome) :
    (if p then some (cg.getD NO_WEIGHT).toInt else none) = cg.map BitVec.toInt := by
  cases cg with
  | none => exact if_neg (of_decide_eq_false h)
  | some v => exact if_pos (of_decide_eq_true h)

/-- **The page reads the status that was sent.** -/
theorem parse_statePayload (snap : StatusSnapshot) :
    parseStatePayload (statePayload snap) 0 snap.acceptedSeq = some (State.ofSnapshot snap) := by
  obtain ⟨hflags, hphase, hscale, hstorage, helapsed, hsaved, hweight, hyield⟩ :=
    statePayload_words snap
  obtain ⟨h₁, h₂, h₄, h₈, h₁₆, h₃₂⟩ := stateFlags_bits snap
  unfold parseStatePayload
  refine bind_step hflags <| bind_step hphase <| bind_step hscale <| bind_step hstorage ?_
  refine bind_step helapsed <| bind_step hsaved <| bind_step hweight <| bind_step hyield ?_
  rw [h₁, h₈, h₁₆, h₃₂, weight_of_flag h₂, weight_of_flag h₄]
  rfl

/-! ## Packets -/

end Web

namespace LiveStream

open Controller (StatusSnapshot)

variable {m : Web.LiveModel}

theorem receive_state (h : m.outOfSync = false) (snap : StatusSnapshot) :
    m.receive (.state snap) =
      { m with
        inflight := if m.abandoned (Web.State.ofSnapshot snap) then none else m.inflight
        lastRecord := if snap.hasDisplayShot then m.lastRecord else none
        state := some (Web.State.ofSnapshot snap) } := by
  unfold Web.LiveModel.receive
  rw [if_neg (by simp [h])]
  show m.handleStatePacket (ExtractionStream.statePayload snap) snap.acceptedSeq = _
  unfold Web.LiveModel.handleStatePacket
  rw [Web.parse_statePayload]
  rfl

/-- The browser's copy of a record that is sent. -/
theorem parse_sent {e : Extraction} (h : e.Sendable) :
    ∃ chunks js, encodeCompact e = some chunks ∧
      Web.parseExtractionFromDv chunks.flatten 0 = some js ∧ SameRecord e.normalize js := by
  obtain ⟨chunks, henc, hbytes⟩ := encodeCompact_of_supported h.version
  have hdecode : decodeCompact (chunks.flatten.drop 0) = some (e.normalize, []) := by
    have hreads := reads_compactBytes e h.weighed []
    rwa [List.append_nil, ← hbytes] at hreads
  obtain ⟨js, hparse, hsame⟩ :=
    parseExtractionFromDv_agrees hdecode (runningCgs_encodeCompact henc h.weighed)
  exact ⟨chunks, js, henc, hparse, hsame⟩

theorem receive_currentRecord (h : m.outOfSync = false) {e : Extraction} (he : e.Sendable)
    (shotSeq : ℕ) : ∃ js, SameRecord e.normalize js ∧
      m.receive (.currentRecord e shotSeq) = { m with inflight := some ⟨js, shotSeq⟩ } := by
  obtain ⟨chunks, js, henc, hparse, hsame⟩ := parse_sent he
  refine ⟨js, hsame, ?_⟩
  unfold Web.LiveModel.receive
  rw [if_neg (by simp [h])]
  simp only [henc]
  unfold Web.LiveModel.handleCurrentRecordPacket
  rw [hparse]

theorem receive_finalRecord (h : m.outOfSync = false) {e : Extraction} (he : e.Sendable)
    (shotSeq : ℕ) : ∃ js, SameRecord e.normalize js ∧
      m.receive (.finalRecord e shotSeq) =
        { m with
          inflight := m.inflight.filter fun f => shotSeq = f.shotSeq
          lastRecord := some ⟨js, shotSeq⟩ } := by
  obtain ⟨chunks, js, henc, hparse, hsame⟩ := parse_sent he
  refine ⟨js, hsame, ?_⟩
  unfold Web.LiveModel.receive
  rw [if_neg (by simp [h])]
  simp only [henc]
  unfold Web.LiveModel.handleFinalRecordPacket
  rw [hparse]

/-- The record in flight that the page has, of the record that the session sends from. -/
structure Follows (f : Web.LiveRecord) (samples : SentSamples) (e : Extraction) : Prop where
  beginMs : f.ext.beginMs = e.beginMs
  delivered : Delivered e (samples, f.ext.samples)

theorem Follows.grow {f : Web.LiveRecord} {samples : SentSamples} {e e' : Extraction}
    (h : Follows f samples e) (hgrow : GrowsTo e e') : Follows f samples e' :=
  ⟨h.beginMs.trans hgrow.beginMs.symm, h.delivered.grow hgrow⟩

/-- A record that was sent whole. -/
theorem follows_currentRecord {e : Extraction} {js : Web.Extraction} (h : SameRecord e.normalize js)
    (shotSeq : ℕ) : Follows ⟨js, shotSeq⟩ (.afterCurrentRecord e) e := by
  obtain ⟨hdel, -⟩ := delivered_record h
  exact ⟨h.beginMs, ⟨⟨hdel.tracks.le, hdel.tracks.anchor⟩, hdel.samples⟩⟩

/-- **A batch continues the record that it was built from.** -/
theorem receive_sampleBatch (h : m.outOfSync = false) {f : Web.LiveRecord}
    (hf : m.inflight = some f) {samples : SentSamples} {e : Extraction}
    (hfollows : Follows f samples e) (he : e.Weighed)
    (hmore : samples.lastSentSampleIdx < e.samples.count) :
    ∃ f', m.receive (.sampleBatch samples e f.shotSeq) = { m with inflight := some f' } ∧
      f'.shotSeq = f.shotSeq ∧ Follows f' (samples.afterSampleBatch e) e := by
  obtain ⟨y, hy, hdel, -⟩ := delivered_deliver [] hfollows.delivered he
  unfold deliver at hy
  unfold Web.LiveModel.receive
  rw [if_neg (by simp [h])]
  cases hpay : samples.sampleBatchPayload e with
  | none =>
    unfold SentSamples.sampleBatchPayload at hpay
    rw [if_neg (not_le.2 hmore)] at hpay
    cases hpay
  | some payload =>
    simp only [hpay] at hy ⊢
    obtain ⟨batch, hparse, hy⟩ := Option.bind_eq_some_iff.1 hy
    obtain ⟨all, happ, hy⟩ := Option.bind_eq_some_iff.1 hy
    obtain rfl := Option.some.inj hy
    unfold appendBatch at happ
    by_cases hidx : batch.firstIdx = f.ext.samples.length
    · rw [if_pos hidx] at happ
      obtain rfl := Option.some.inj happ
      refine ⟨{ f with ext := { f.ext with
          samples := f.ext.samples ++ batch.samples
          sampleCount := (f.ext.samples ++ batch.samples).length } }, ?_, rfl, hfollows.beginMs, hdel⟩
      unfold Web.LiveModel.handleSampleBatchPacket
      simp only [hf]
      rw [if_neg (by simp), hfollows.beginMs]
      have hparse' : Web.parseSampleBatchPayload payload 0 e.beginMs = some batch := hparse
      simp only [hparse']
      rw [if_neg (by simp [hidx])]
    · rw [if_neg hidx] at happ
      cases happ

end LiveStream

end Pumpbug
