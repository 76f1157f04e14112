import Pumpbug.SampleBatch
import Pumpbug.Lib.Timeline
import Pumpbug.Web.Agreement

/-!
# Samples delivered in batches

A client that has the samples of a record up to the session's cursor has, after each batch, those of
the record the batch was built from.
-/

namespace Pumpbug

open Lib Lib.Reader

/-! ## One batch -/

/-- What the browser does with a batch: append it where its index says, or give up. -/
def appendBatch (samples : List Web.Sample) (batch : Web.SampleBatch) : Option (List Web.Sample) :=
  if batch.firstIdx = samples.length then some (samples ++ batch.samples) else none

/-- The cursor stands at the end of the first `lastSentSampleIdx` samples of the record. -/
structure SentSamples.Tracks (s : SentSamples) (ext : Extraction) : Prop where
  le : s.lastSentSampleIdx ≤ ext.samples.count
  anchor : ∀ last, (ext.samples.items.take s.lastSentSampleIdx).getLast? = some last →
    s.lastSentTMs = last.tMs ∧ s.lastSentCg = last.cg.signExtend 32

theorem tracks_afterCurrentRecord (ext : Extraction) :
    (SentSamples.afterCurrentRecord ext).Tracks ext := by
  unfold SentSamples.afterCurrentRecord
  cases h : ext.samples.items.getLast? with
  | none =>
    refine ⟨le_rfl, fun last hlast => ?_⟩
    unfold Buffer.count at hlast
    rw [List.take_length, h] at hlast
    exact absurd hlast nofun
  | some l =>
    refine ⟨le_rfl, fun last hlast => ?_⟩
    unfold Buffer.count at hlast
    rw [List.take_length, h] at hlast
    obtain rfl := Option.some.inj hlast
    exact ⟨rfl, rfl⟩

theorem tracks_afterSampleBatch {s : SentSamples} {ext : Extraction} (h : s.Tracks ext) :
    (s.afterSampleBatch ext).Tracks ext ∧
      (s.afterSampleBatch ext).lastSentSampleIdx = ext.samples.count := by
  unfold SentSamples.afterSampleBatch
  by_cases hle : ext.samples.count ≤ s.lastSentSampleIdx
  · rw [if_pos hle]
    exact ⟨h, le_antisymm h.le hle⟩
  · rw [if_neg hle]
    have ht := tracks_afterCurrentRecord ext
    unfold SentSamples.afterCurrentRecord at ht
    have hne : ext.samples.items ≠ [] := by
      rintro hnil
      unfold Buffer.count at hle
      rw [hnil] at hle
      exact hle (Nat.zero_le _)
    rw [List.getLast?_eq_some_getLast hne] at ht ⊢
    exact ⟨ht, rfl⟩

/-- A record that gained samples is still tracked. -/
theorem SentSamples.Tracks.grow {s : SentSamples} {e e' : Extraction} (h : s.Tracks e)
    (hgrow : e.samples.items <+: e'.samples.items) : s.Tracks e' := by
  obtain ⟨more, hmore⟩ := hgrow
  have hle := h.le
  unfold Buffer.count at hle
  refine ⟨?_, fun last hlast => h.anchor last ?_⟩
  · unfold Buffer.count
    rw [← hmore, List.length_append]
    omega
  · rwa [← hmore, List.take_append_of_le_length hle] at hlast

theorem batchCursor_sameTotals {s : SentSamples} {ext : Extraction} (h : s.Tracks ext)
    (hcg : ∀ sample ∈ ext.samples.items, sample.cg ≠ NO_WEIGHT) :
    SameTotals (s.batchCursor ext).totals
      ((s.batchCursor ext).prevTMs, ((s.batchCursor ext).prevCg.setWidth 16 : I16).toInt) := by
  by_cases h0 : s.lastSentSampleIdx = 0
  · have hc : (s.batchCursor ext).prevCg = 0 := if_pos h0
    refine ⟨rfl, ?_, ?_⟩
    · show CgInRange (s.batchCursor ext).prevCg
      rw [hc]
      decide
    · show (s.batchCursor ext).prevCg.toInt = _
      rw [hc]
      rfl
  · obtain ⟨last, hlast⟩ : ∃ last,
        (ext.samples.items.take s.lastSentSampleIdx).getLast? = some last := by
      have hle := h.le
      unfold Buffer.count at hle
      have hne : ext.samples.items.take s.lastSentSampleIdx ≠ [] := by
        intro hnil
        have := congrArg List.length hnil
        rw [List.length_take, List.length_nil] at this
        omega
      exact ⟨_, List.getLast?_eq_some_getLast hne⟩
    have hc : (s.batchCursor ext).prevCg = last.cg.signExtend 32 :=
      (if_neg h0).trans (h.anchor last hlast).2
    have hmem := List.mem_of_mem_take (List.mem_of_getLast? hlast)
    have hlow := ne_noWeight_iff.1 (hcg last hmem)
    have hhigh := (toInt_bounds last.cg).2
    have hext : (last.cg.signExtend 32 : I32).toInt = last.cg.toInt :=
      BitVec.toInt_signExtend_of_le (by decide)
    have hback : (last.cg.signExtend 32 : I32).setWidth 16 = last.cg := by
      apply BitVec.eq_of_getLsbD_eq
      intro i hi
      rw [BitVec.getLsbD_setWidth, BitVec.getLsbD_signExtend]
      simp [hi, show i < 32 by omega]
    refine ⟨rfl, ?_, ?_⟩
    · show CgInRange (s.batchCursor ext).prevCg
      rw [hc]
      unfold CgInRange
      rw [hext]
      exact ⟨hlow, hhigh⟩
    · show (s.batchCursor ext).prevCg.toInt = ((s.batchCursor ext).prevCg.setWidth 16 : I16).toInt
      rw [hc, hback, hext]

/-- The fixed part of a batch, where the browser looks for it. -/
theorem sampleBatch_words (pre rest : Bytes) (firstIdx count anchorCg : U16) (anchorTMs : U32)
    (flags : U8) :
    let dv := pre ++ (writeU16LE firstIdx ++ (writeU16LE count ++ (writeU32LE anchorTMs ++
      (writeU16LE anchorCg ++ ([flags] ++ rest)))))
    Web.getUint16 dv pre.length = some firstIdx ∧ Web.getUint16 dv (pre.length + 2) = some count ∧
      Web.getUint32 dv (pre.length + 4) = some anchorTMs ∧
      Web.getUint16 dv (pre.length + 8) = some anchorCg ∧
      Web.getUint8 dv (pre.length + 10) = some flags ∧ dv.drop (pre.length + 11) = rest := by
  intro dv
  have hblk : take 11 (dv.drop pre.length) =
      some (writeU16LE firstIdx ++ (writeU16LE count ++ (writeU32LE anchorTMs ++
        (writeU16LE anchorCg ++ [flags]))), rest) := by
    rw [List.drop_left]
    have h := reads_take (writeU16LE firstIdx ++ (writeU16LE count ++ (writeU32LE anchorTMs ++
      (writeU16LE anchorCg ++ [flags])))) rest
    simp only [List.append_assoc] at h
    exact h
  refine ⟨?_, ?_, ?_, ?_, ?_, drop_of_take hblk⟩
  · rw [show pre.length = pre.length + 0 from rfl, getUint16_of_take hblk (by decide), readU16LE_write]
  · rw [getUint16_of_take hblk (by decide), readU16LE_skipU16, readU16LE_write]
  · rw [getUint32_of_take hblk (by decide)]
    simp only [readU32LE_skipU16, readU32LE_write]
  · rw [getUint16_of_take hblk (by decide)]
    simp only [readU16LE_skipU16, readU16LE_skipU32, readU16LE_write]
  · rw [getUint8_of_take hblk (by decide)]
    simp only [byteAt_skipU16, byteAt_skipU32, byteAt_cons_zero]

theorem batchFlags_scaleTimers (s : SentSamples) (ext : Extraction) :
    decide (s.batchFlags ext &&& Web.SAMPLE_BATCH_FLAG_SCALE_TIMERS ≠ 0) =
      sampleRangeHasScaleTimer (s.unsent ext) := by
  have hinclude : (s.batchCursor ext).includeScaleTimers =
      sampleRangeHasScaleTimer (s.unsent ext) := rfl
  unfold SentSamples.batchFlags
  rw [hinclude]
  generalize sampleRangeHasScaleTimer (s.unsent ext) = t
  revert t; decide

/-- **A batch delivers the unsent samples**, at the index the session has reached. -/
theorem parseSampleBatchPayload_agrees {s : SentSamples} {ext : Extraction} {payload : Bytes}
    (h : s.Tracks ext) (hcg : ∀ sample ∈ ext.samples.items, sample.cg ≠ NO_WEIGHT)
    (hpay : s.sampleBatchPayload ext = some payload) (pre : Bytes) :
    ∃ batch, Web.parseSampleBatchPayload (pre ++ payload) pre.length ext.beginMs = some batch ∧
      batch.firstIdx = s.lastSentSampleIdx ∧
      List.Forall₂ (SameSample ext.beginMs) (s.unsent ext) batch.samples := by
  unfold SentSamples.sampleBatchPayload at hpay
  by_cases hle : ext.samples.count ≤ s.lastSentSampleIdx
  · rw [if_pos hle] at hpay
    exact absurd hpay nofun
  rw [if_neg hle] at hpay
  obtain rfl := Option.some.inj hpay
  have hfits : ext.samples.count ≤ 768 := ext.samples.fits
  obtain ⟨hfirst, hcount, htms, hcgw, hflags, hdrop⟩ := sampleBatch_words pre
    (encodeSamples (s.batchCursor ext) (s.unsent ext)) (BitVec.ofNat 16 s.lastSentSampleIdx)
    (BitVec.ofNat 16 (ext.samples.count - s.lastSentSampleIdx))
    ((s.batchCursor ext).prevCg.setWidth 16) (s.batchCursor ext).prevTMs (s.batchFlags ext)
  have hlen : (BitVec.ofNat 16 (ext.samples.count - s.lastSentSampleIdx)).toNat =
      (s.unsent ext).length := by
    unfold SentSamples.unsent
    rw [BitVec.toNat_ofNat, Nat.mod_eq_of_lt (by omega), List.length_drop]
    rfl
  have hidx : (BitVec.ofNat 16 s.lastSentSampleIdx).toNat = s.lastSentSampleIdx := by
    rw [BitVec.toNat_ofNat, Nat.mod_eq_of_lt (by omega)]
  -- the firmware's own loop reads the stream back, and the browser's follows it
  have hread := @reads_encodeSamples (s.batchCursor ext) (s.unsent ext)
    (fun sample hs => hcg sample (List.mem_of_mem_drop hs)) rfl []
  have htested := loop_tested (P := fun item : I32 × Sample => CgInRange item.1) hread (by
    intro item hi
    obtain ⟨sample, hs, rfl⟩ := List.mem_map.1 hi
    unfold CgInRange
    rw [BitVec.toInt_signExtend_of_le (by decide)]
    exact ⟨ne_noWeight_iff.1 (hcg sample (List.mem_of_mem_drop hs)), (toInt_bounds _).2⟩)
  rw [List.append_nil, ← hdrop] at htested
  obtain ⟨samples, q, hsamples, -, hsame⟩ :=
    follows_samples (batchCursor_sameTotals h hcg) _ _ _ _ _ htested
  rw [List.forall₂_map_left_iff] at hsame
  refine ⟨{ firstIdx := s.lastSentSampleIdx, samples := samples }, ?_, rfl, hsame⟩
  unfold Web.parseSampleBatchPayload
  refine bind_step hfirst <| bind_step hcount <| bind_step htms <| bind_step hcgw <|
    bind_step hflags ?_
  dsimp only
  rw [hlen, batchFlags_scaleTimers, hidx]
  exact bind_step hsamples rfl

/-! ## Whole deliveries -/

/-- One batch on its way to a client: the session's cursor and the client's samples after it, or
`none` if the client gives up. -/
def deliver (pre : Bytes) (x : SentSamples × List Web.Sample) (ext : Extraction) :
    Option (SentSamples × List Web.Sample) :=
  match x.1.sampleBatchPayload ext with
  | none => some x
  | some payload => do
    let batch ← Web.parseSampleBatchPayload (pre ++ payload) pre.length ext.beginMs
    let samples ← appendBatch x.2 batch
    pure (x.1.afterSampleBatch ext, samples)

/-- A batch for every state of the record in turn. -/
def deliverAll (pre : Bytes) (x : SentSamples × List Web.Sample) (exts : List Extraction) :
    Option (SentSamples × List Web.Sample) := exts.foldlM (deliver pre) x

/-- The record gained samples, and they all have a weight. -/
structure GainsSamples (e e' : Extraction) : Prop extends GrowsTo e e' where
  weighed : e'.Weighed

/-- The client has the samples of the record up to the session's cursor. -/
structure Delivered (ext : Extraction) (x : SentSamples × List Web.Sample) : Prop where
  tracks : x.1.Tracks ext
  samples : List.Forall₂ (SameSample ext.beginMs)
    (ext.samples.items.take x.1.lastSentSampleIdx) x.2

theorem Delivered.grow {e e' : Extraction} {x : SentSamples × List Web.Sample}
    (h : Delivered e x) (hgrow : GrowsTo e e') : Delivered e' x := by
  obtain ⟨hb, hpre⟩ := hgrow
  refine ⟨h.tracks.grow hpre, ?_⟩
  obtain ⟨more, hmore⟩ := hpre
  have hle := h.tracks.le
  unfold Buffer.count at hle
  rw [← hmore, List.take_append_of_le_length hle, hb]
  exact h.samples

/-- **Step lemma.** A batch brings the client up to the record it is built from. -/
theorem delivered_deliver {ext : Extraction} {x : SentSamples × List Web.Sample} (pre : Bytes)
    (h : Delivered ext x) (hcg : ∀ sample ∈ ext.samples.items, sample.cg ≠ NO_WEIGHT) :
    ∃ y, deliver pre x ext = some y ∧ Delivered ext y ∧
      y.1.lastSentSampleIdx = ext.samples.count := by
  have hlen := h.samples.length_eq
  have hle := h.tracks.le
  unfold Buffer.count at hle
  rw [List.length_take_of_le hle] at hlen
  unfold deliver
  cases hpay : x.1.sampleBatchPayload ext with
  | none =>
    refine ⟨x, rfl, h, le_antisymm h.tracks.le ?_⟩
    unfold SentSamples.sampleBatchPayload at hpay
    by_contra hlt
    rw [if_neg (fun hle => hlt hle)] at hpay
    exact absurd hpay nofun
  | some payload =>
    obtain ⟨batch, hparse, hfirst, hsame⟩ :=
      parseSampleBatchPayload_agrees h.tracks hcg hpay pre
    obtain ⟨htracks, hidx⟩ := tracks_afterSampleBatch h.tracks
    refine ⟨(x.1.afterSampleBatch ext, x.2 ++ batch.samples), ?_, ⟨htracks, ?_⟩, hidx⟩
    · have happ : appendBatch x.2 batch = some (x.2 ++ batch.samples) :=
        if_pos (hfirst.trans hlen)
      exact bind_step hparse (bind_step happ rfl)
    · show List.Forall₂ _ (ext.samples.items.take (x.1.afterSampleBatch ext).lastSentSampleIdx) _
      rw [hidx]
      unfold Buffer.count
      rw [List.take_length]
      conv_lhs => rw [← List.take_append_drop x.1.lastSentSampleIdx ext.samples.items]
      exact List.rel_append h.samples hsame

theorem getLast_cons_getD {α : Type} (a b : α) (l : List α) :
    (b :: l).getLast?.getD a = l.getLast?.getD b := by
  cases l with
  | nil => rfl
  | cons c l =>
    rw [List.getLast?_cons_cons, List.getLast?_eq_some_getLast (List.cons_ne_nil c l)]
    rfl

/-- **Run lemma.** Any sequence of batches of a growing record arrives. -/
theorem delivered_deliverAll {ext : Extraction} {x : SentSamples × List Web.Sample} (pre : Bytes)
    (h : Delivered ext x) (hidx : x.1.lastSentSampleIdx = ext.samples.count)
    {exts : List Extraction} (hchain : (ext :: exts).IsChain GainsSamples) :
    ∃ y, deliverAll pre x exts = some y ∧ Delivered (exts.getLast?.getD ext) y ∧
      y.1.lastSentSampleIdx = (exts.getLast?.getD ext).samples.count := by
  unfold deliverAll
  induction exts generalizing ext x with
  | nil => exact ⟨x, rfl, h, hidx⟩
  | cons e exts ih =>
    obtain ⟨hgrow, htail⟩ := List.isChain_cons_cons.1 hchain
    obtain ⟨y, hy, hdel, hyidx⟩ := delivered_deliver pre (h.grow hgrow.toGrowsTo) hgrow.weighed
    obtain ⟨z, hz, hzdel, hzidx⟩ := ih hdel hyidx htail
    refine ⟨z, ?_, ?_⟩
    · rw [List.foldlM_cons, hy]
      exact hz
    · rw [getLast_cons_getD]
      exact ⟨hzdel, hzidx⟩

theorem beginMs_getLast {ext : Extraction} {exts : List Extraction}
    (hchain : (ext :: exts).IsChain GainsSamples) : (exts.getLast?.getD ext).beginMs = ext.beginMs := by
  induction exts generalizing ext with
  | nil => rfl
  | cons e exts ih =>
    obtain ⟨hgrow, htail⟩ := List.isChain_cons_cons.1 hchain
    rw [getLast_cons_getD, ih htail, hgrow.beginMs]

theorem delivered_record {ext : Extraction} {js : Web.Extraction} (h : SameRecord ext js) :
    Delivered ext (SentSamples.afterCurrentRecord ext, js.samples) ∧
      (SentSamples.afterCurrentRecord ext).lastSentSampleIdx = ext.samples.count := by
  have hidx : (SentSamples.afterCurrentRecord ext).lastSentSampleIdx = ext.samples.count := by
    unfold SentSamples.afterCurrentRecord
    split <;> rfl
  refine ⟨⟨tracks_afterCurrentRecord ext, ?_⟩, hidx⟩
  rw [hidx]
  unfold Buffer.count
  rw [List.take_length]
  exact h.samples

/-! ## The two decoders -/

/-- The JavaScript times of a sorted log are in order. -/
theorem pairwise_of_sameTime {α β : Type} {time : α → U32} {jsTime : β → ℤ} {beginMs : U32}
    {l : List α} {js : List β}
    (h : List.Forall₂ (fun a b => SameTime beginMs (time a) (jsTime b)) l js)
    (hshort : ∀ a ∈ l, Clock.since beginMs (time a) < 2 ^ 31)
    (hsorted : SortedBy (fun a => Clock.since beginMs (time a)) l) :
    js.Pairwise fun a b => jsTime a ≤ jsTime b := by
  rw [List.pairwise_iff_getElem]
  intro i j hi hj hij
  have hlen := h.length_eq
  have hget := List.forall₂_iff_get.1 h
  have hi' : i < l.length := by omega
  have hj' : j < l.length := by omega
  have hle := List.pairwise_iff_getElem.1 hsorted i j hi' hj' hij
  exact (hget.2 i hi' hi).mono (hget.2 j hj' hj) hle (hshort _ (List.getElem_mem hj'))

/-- The JavaScript record has its events and samples in order wherever the record has. -/
structure TimesInOrder (e : Extraction) (js : Web.Extraction) : Prop where
  events : (∀ event ∈ e.events.items, Clock.since e.beginMs event.tMs < 2 ^ 31) →
    SortedBy (fun event => Clock.since e.beginMs event.tMs) e.events.items →
    js.events.Pairwise fun a b => a.tMs ≤ b.tMs
  samples : (∀ sample ∈ e.samples.items, Clock.since e.beginMs sample.tMs < 2 ^ 31) →
    SortedBy (fun sample => Clock.since e.beginMs sample.tMs) e.samples.items →
    js.samples.Pairwise fun a b => a.tMs ≤ b.tMs

theorem timesInOrder_of_sameRecord {e : Extraction} {js : Web.Extraction} (h : SameRecord e js) :
    TimesInOrder e js where
  events := pairwise_of_sameTime (h.events.imp fun _ _ same => same.time)
  samples := pairwise_of_sameTime (h.samples.imp fun _ _ same => same.time)

/-- What the encoder writes never runs out of the 16-bit range. -/
theorem runningCgs_encodeCompact {e : Extraction} {chunks : List Bytes}
    (h : encodeCompact e = some chunks)
    (hcg : ∀ sample ∈ e.samples.items, sample.cg ≠ NO_WEIGHT) :
    ∀ cg ∈ runningCgs chunks.flatten, CgInRange cg := by
  have hread := reads_body e hcg (writeTargetBlock e)
  have hbytes : chunks.flatten = encodeHeader e ++ (encodeEvents e.beginMs e.events.items ++
      encodeSamples e.sampleCursor e.samples.items) ++ writeTargetBlock e := by
    rw [encodeCompact_flatten h]
    unfold compactBytes
    rw [List.append_assoc, List.append_assoc]
  unfold runningCgs
  rw [hbytes, hread]
  intro cg hmem
  obtain ⟨sample, hs, rfl⟩ := List.mem_map.1 hmem
  unfold CgInRange
  rw [BitVec.toInt_signExtend_of_le (by decide)]
  exact ⟨ne_noWeight_iff.1 (hcg sample hs), (toInt_bounds _).2⟩

/-- The browser reads the record `e` from `bs`, and whatever batches follow deliver the samples that
the record gains. -/
def SameToBrowser (bs : Bytes) (e : Extraction) : Prop :=
  ∃ js, Web.parseExtraction bs = some js ∧ SameRecord e js ∧
    js.target.targetCg = e.target.targetCg.toInt ∧ TimesInOrder e js ∧
    ∀ (pre : Bytes) (exts : List Extraction), (e :: exts).IsChain GainsSamples →
      ∃ s samples,
        deliverAll pre (SentSamples.afterCurrentRecord e, js.samples) exts = some (s, samples) ∧
        List.Forall₂ (SameSample e.beginMs) (exts.getLast?.getD e).samples.items samples

/-- **The browser's decoders agree with the firmware's** on every byte string the firmware decodes,
if the target is not negative and the running weights fit 16 bits.  What the encoder writes has such
weights. -/
theorem parseExtraction_agrees :
    (∀ (bs rest : Bytes) (e : Extraction), decodeCompact bs = some (e, rest) →
      0 ≤ e.target.targetCg.toInt → (∀ cg ∈ runningCgs bs, CgInRange cg) → SameToBrowser bs e) ∧
    ∀ (e : Extraction) (chunks : List Bytes), encodeCompact e = some chunks →
      (∀ sample ∈ e.samples.items, sample.cg ≠ NO_WEIGHT) →
      ∀ cg ∈ runningCgs chunks.flatten, CgInRange cg := by
  refine ⟨?_, fun e chunks henc hcg => runningCgs_encodeCompact henc hcg⟩
  intro bs rest e h htarget hcg
  have h₀ : decodeCompact (bs.drop 0) = some (e, rest) := h
  obtain ⟨js, hparse, hsame⟩ := parseExtractionFromDv_agrees h₀ hcg
  refine ⟨js, hparse, hsame, hsame.targetCg htarget, timesInOrder_of_sameRecord hsame, ?_⟩
  intro pre exts hchain
  obtain ⟨hdel, hidx⟩ := delivered_record hsame
  obtain ⟨⟨s, samples⟩, hy, hydel, hyidx⟩ := delivered_deliverAll pre hdel hidx hchain
  refine ⟨s, samples, hy, ?_⟩
  have hall := hydel.samples
  rw [hyidx] at hall
  unfold Buffer.count at hall
  rw [List.take_length] at hall
  rwa [beginMs_getLast hchain] at hall

/-- A shot across the counter's wrap. -/
def wrappingRecord : Extraction :=
  { version := .v7, phase := .done, endCause := .stable, beginMs := 0xFFFFFF00, endMs := 0x200,
    events := Buffer.ofList [{ tMs := 0xFFFFFF00, kind := .begin }, { tMs := 0x200, kind := .end_ }],
    samples := Buffer.ofList [{ tMs := 0xFFFFFF10, cg := 0xFFFF, scaleTimerMs := 12 },
      { tMs := 0x20, cg := 0x7FFF }],
    hasTargetSnapshot := true }

/-- The shot as a file of the older version. -/
def storedFile : Bytes := (compactBytes wrappingRecord).set 4 6

theorem parseExtraction_agrees_storedFile :
    SameToBrowser storedFile { wrappingRecord with version := .v6 } ∧
      ∀ cg ∈ runningCgs (compactBytes wrappingRecord), CgInRange cg := by
  have hweights : (runningCgs storedFile).all (decide <| CgInRange ·) = true := by decide +kernel
  constructor
  · exact parseExtraction_agrees.1 storedFile [] _ (by decide +kernel) (by decide)
      fun cg hmem => of_decide_eq_true (List.all_eq_true.1 hweights cg hmem)
  · obtain ⟨chunks, henc, hbytes⟩ := encodeCompact_of_supported (e := wrappingRecord) (by decide)
    rw [← hbytes]
    exact parseExtraction_agrees.2 wrappingRecord chunks henc (by decide)

end Pumpbug
