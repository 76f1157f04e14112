import Pumpbug.Web.Protocol
import Pumpbug.WireRoundTrip

/-!
# The two decoders agree

Wherever the firmware's decoder accepts a byte string, the browser's accepts it and reads the same
record: the loops follow each other varint by varint, and the header fields stand at the same
places. Timestamps differ by the unwrapping only.
-/

namespace Pumpbug

open Lib Lib.Reader

/-! ## Timestamps -/

/-- A JavaScript timestamp of the raw timestamp `tMs`: congruent to it, and at the right distance
from the beginning when it lies less than `2 ^ 31` milliseconds after it. -/
structure SameTime (beginMs tMs : U32) (js : ℤ) : Prop where
  congruent : js % 2 ^ 32 = Web.num tMs
  distance : Clock.since beginMs tMs < 2 ^ 31 → js - Web.num beginMs = Clock.since beginMs tMs

/-- The same for a timestamp with 0 for "unset". -/
structure SameOptionalTime (beginMs tMs : U32) (js : ℤ) : Prop where
  congruent : js % 2 ^ 32 = Web.num tMs
  unset : tMs = 0 → js = 0
  distance : tMs ≠ 0 → Clock.since beginMs tMs < 2 ^ 31 →
    js - Web.num beginMs = Clock.since beginMs tMs

theorem sameTime_unwrapTimestamp (beginMs tMs : U32) :
    SameTime beginMs tMs (Web.unwrapTimestamp tMs beginMs) := by
  have ht := tMs.isLt
  have hb := beginMs.isLt
  have hs := Clock.since_eq_ite beginMs tMs
  have hd : Web.num (tMs - beginMs) = Clock.since beginMs tMs := rfl
  unfold Web.unwrapTimestamp Web.U32_WRAP_MS Web.U32_HALF_WRAP_MS
  simp only [hd]
  constructor
  · unfold Web.num
    split_ifs <;> omega
  · intro hlt
    unfold Web.num
    split_ifs at hs ⊢ <;> omega

theorem sameOptionalTime_unwrapOptionalTimestamp (beginMs tMs : U32) :
    SameOptionalTime beginMs tMs (Web.unwrapOptionalTimestamp tMs beginMs) := by
  obtain ⟨hcong, hdist⟩ := sameTime_unwrapTimestamp beginMs tMs
  unfold Web.unwrapOptionalTimestamp
  by_cases h0 : tMs = 0
  · rw [if_pos h0, h0]
    exact ⟨rfl, fun _ => rfl, fun h => absurd rfl h⟩
  · rw [if_neg h0]
    exact ⟨hcong, fun h => absurd h h0, fun _ => hdist⟩

/-- Later offsets have later JavaScript times. -/
theorem SameTime.mono {beginMs s t : U32} {jsS jsT : ℤ} (hs : SameTime beginMs s jsS)
    (ht : SameTime beginMs t jsT) (hle : Clock.since beginMs s ≤ Clock.since beginMs t)
    (hshort : Clock.since beginMs t < 2 ^ 31) : jsS ≤ jsT := by
  have h₁ := hs.distance (lt_of_le_of_lt hle hshort)
  have h₂ := ht.distance hshort
  omega

/-! ## Records -/

structure SameEvent (beginMs : U32) (event : Event) (js : Web.Event) : Prop where
  time : SameTime beginMs event.tMs js.tMs
  kind : js.kind = Web.num event.kind.toByte
  lead : js.signalDecayLeadMs =
    if event.payload.signalDecayLeadMsPlusOne = 0 then none
    else some (Web.num event.payload.signalDecayLeadMsPlusOne - 1)
  onset : js.signalDecayOnsetMs = js.signalDecayLeadMs.map fun lead => js.tMs - lead

structure SameSample (beginMs : U32) (sample : Sample) (js : Web.Sample) : Prop where
  time : SameTime beginMs sample.tMs js.tMs
  cg : js.cg = sample.cg.toInt
  scaleTimerMs : js.scaleTimerMs = Web.num sample.scaleTimerMs

/-- A JavaScript record of the same extraction. -/
structure SameRecord (e : Extraction) (js : Web.Extraction) : Prop where
  version : js.version = Web.num e.version.toByte
  phase : js.phase = Web.num e.phase.toByte
  endCause : js.endCause = Web.num e.endCause.toByte
  eventsOverflowed : decide (js.flags &&& FLAG_EVENTS_OVERFLOWED ≠ 0) = e.eventsOverflowed
  beginMs : js.beginMs = e.beginMs
  lastPumpOffConfirmedMs :
    SameOptionalTime e.beginMs e.lastPumpOffConfirmedMs js.lastPumpOffConfirmedMs
  stableMs : SameOptionalTime e.beginMs e.stableMs js.stableMs
  endMs : SameOptionalTime e.beginMs e.endMs js.endMs
  totalPumpOnMs : js.totalPumpOnMs = Web.num e.totalPumpOnMs
  startUtcSec : js.startUtcSec = Web.num e.startUtcSec
  yieldCg : js.yieldCg = e.yieldCg.toInt
  startRawCg : js.startRawCg = e.startRawCg.toInt
  settledRawCg : js.settledRawCg = e.settledRawCg.toInt
  yieldStatus : js.yieldStatus = Web.num e.yieldStatus.toByte
  pourMs : js.pourMs = Web.num e.pourMs
  decisionGainCg : js.decisionGainCg = e.decisionGainCg.toInt
  observedSampleCount : js.observedSampleCount = Web.num e.observedSampleCount
  eventCount : js.eventCount = e.events.count
  sampleCount : js.sampleCount = e.samples.count
  events : List.Forall₂ (SameEvent e.beginMs) e.events.items js.events
  samples : List.Forall₂ (SameSample e.beginMs) e.samples.items js.samples
  targetCg : 0 ≤ e.target.targetCg.toInt → js.target.targetCg = e.target.targetCg.toInt
  armed : js.target.armed = e.target.armed
  tauMs : js.target.tauMs = Web.num e.target.tauMs
  cCg : js.target.cCg = e.target.cCg.toInt
  reactionLeadMs : js.target.reactionLeadMs = Web.num e.target.reactionLeadMs
  alarmTriggeredMs : SameOptionalTime e.beginMs e.alarm.tMs js.alarmTriggeredMs
  alarmYieldCg : js.alarmYieldCg = e.alarm.ctx.yieldCg.toInt
  alarmFlowCgPerS : js.alarmFlowCgPerS = e.alarm.ctx.flowCgPerS.toInt
  alarmFlowValid : js.alarmFlowValid = e.alarm.ctx.flowValid
  alarmProjectedFinalCg : js.alarmProjectedFinalCg = e.alarm.ctx.projectedFinalCg.toInt

/-! ## Varints -/

/-- The browser's loop reads what the firmware's reads, within its five bytes. -/
theorem follows_uvLoop {n i fuel : ℕ} {v a : U32} {dv rest : Bytes} {p : ℕ} (hi : n + i ≤ 5)
    (hfuel : dv.length - p ≤ fuel) (h : Leb128.read n i v (dv.drop p) = some (a, rest)) :
    ∃ p', Web.uvLoop fuel v (7 * i) dv p = some (a, p') ∧ dv.drop p' = rest := by
  induction n generalizing i fuel v p with
  | zero => cases h
  | succ n ih =>
    unfold Leb128.read at h
    obtain ⟨b, mid, hb, h⟩ := bind_eq_some.1 h
    obtain ⟨b', p', hcur, hdrop, rfl⟩ := follows_byte dv p b mid hb
    have hlt : p < dv.length := by
      by_contra hge
      rw [List.drop_eq_nil_of_le (not_lt.1 hge)] at hb
      cases hb
    have hp' : p' = p + 1 := by
      unfold Cursor.byte at hcur
      rw [List.getElem?_eq_getElem hlt] at hcur
      exact (Prod.mk.inj (Option.some.inj hcur)).2.symm
    obtain ⟨fuel, rfl⟩ : ∃ f, fuel = f + 1 := ⟨fuel - 1, by omega⟩
    unfold Web.uvLoop
    rw [Cursor.bind_apply, hcur, Option.bind_some, Nat.mod_eq_of_lt (show 7 * i < 32 by omega)]
    dsimp only at h ⊢
    by_cases hlast : b &&& 0x80 = 0
    · rw [if_pos hlast] at h
      obtain ⟨rfl, rfl⟩ := pure_eq_some.1 h
      refine ⟨p', ?_, hdrop⟩
      rw [if_neg (not_not.2 hlast)]
      rfl
    · rw [if_neg hlast, ← hdrop] at h
      rw [if_pos hlast]
      exact ih (by omega) (by omega) h

theorem follows_uv : Follows readUvarintSrc Web.uv Eq := by
  intro dv p v rest h
  obtain ⟨p', hp', hdrop⟩ := follows_uvLoop (i := 0) le_rfl le_rfl h
  exact ⟨v, p', hp', hdrop, rfl⟩

theorem follows_sv : Follows readSvarintSrc Web.sv fun a b => b = a.toInt := by
  refine follows_uv.bind ?_
  rintro u _ rfl
  refine follows_pure ?_
  unfold unzigzag
  rw [show (0 : U32) - (u &&& 1) = -(u &&& 1) from BitVec.zero_sub _]

/-! ## Events -/

theorem sameEvent_plain (beginMs tMs : U32) (k : U8) :
    SameEvent beginMs { tMs := tMs, kind := EventKind.ofByte k }
      { tMs := Web.unwrapTimestamp tMs beginMs, kind := Web.num k } where
  time := sameTime_unwrapTimestamp beginMs tMs
  kind := by rw [EventKind.toByte_ofByte]
  lead := rfl
  onset := rfl

theorem ofByte_eq_pumpOffConfirmed {k : U8} :
    EventKind.ofByte k = .pumpOffConfirmed ↔ k = 3 := by
  rw [← EventKind.toByte_eq_three, EventKind.toByte_ofByte]

theorem follows_parseEvent (version : U8) (beginMs tEv : U32) :
    Follows (readEvent version tEv) (Web.parseEvent version beginMs tEv)
      fun x y => SameEvent beginMs x.1 y.1 ∧ x.2 = y.2 := by
  unfold readEvent Web.parseEvent
  refine follows_uv.bind ?_
  rintro delta _ rfl
  refine follows_byte.bind ?_
  rintro k _ rfl
  by_cases hk : 7 ≤ version ∧ k = 3
  · have hk' : ExtractionVersion.v7.toByte ≤ version ∧ EventKind.ofByte k = .pumpOffConfirmed :=
      ⟨hk.1, ofByte_eq_pumpOffConfirmed.2 hk.2⟩
    rw [if_pos hk, if_pos hk']
    refine follows_uv.bind ?_
    rintro lead _ rfl
    refine (follows_guard id).bind fun _ _ hle => ?_
    have hsmall : lead.toNat ≤ 0xFFFF := hle
    have hzero : lead.setWidth 16 = 0 ↔ lead = 0 := by
      constructor
      · intro h
        have := congrArg BitVec.toNat h
        rw [BitVec.toNat_setWidth, Nat.mod_eq_of_lt (by omega)] at this
        exact BitVec.eq_of_toNat_eq this
      · rintro rfl; rfl
    have hnum : Web.num (lead.setWidth 16) = Web.num lead := by
      unfold Web.num
      rw [BitVec.toNat_setWidth, Nat.mod_eq_of_lt (by omega)]
    by_cases h0 : lead = 0
    · rw [if_neg (not_not.2 h0)]
      refine follows_pure ⟨⟨sameTime_unwrapTimestamp _ _, by rw [EventKind.toByte_ofByte], ?_, rfl⟩, rfl⟩
      rw [if_pos (hzero.2 h0)]
    · rw [if_pos h0]
      refine follows_pure ⟨⟨sameTime_unwrapTimestamp _ _, by rw [EventKind.toByte_ofByte], ?_, rfl⟩, rfl⟩
      rw [if_neg (mt hzero.1 h0), hnum]
  · have hk' : ¬ (ExtractionVersion.v7.toByte ≤ version ∧ EventKind.ofByte k = .pumpOffConfirmed) :=
      fun h => hk ⟨h.1, ofByte_eq_pumpOffConfirmed.1 h.2⟩
    rw [if_neg hk, if_neg hk']
    exact follows_pure ⟨sameEvent_plain beginMs (tEv + delta) k, rfl⟩

theorem follows_events (version : U8) (beginMs : U32) (n : ℕ) :
    Follows (loop (readEvent version) n beginMs) (loop (Web.parseEvent version beginMs) n beginMs)
      (List.Forall₂ (SameEvent beginMs)) := by
  refine follows_loop Eq ?_ rfl n
  rintro tEv _ rfl
  exact follows_parseEvent version beginMs tEv

/-! ## Samples -/

/-- A running weight that a 16-bit sample can hold. -/
def CgInRange (cg : I32) : Prop := -32767 ≤ cg.toInt ∧ cg.toInt ≤ 32767

instance : DecidablePred CgInRange := fun _ => inferInstanceAs (Decidable (_ ∧ _))

theorem toInt_add_of_inRange {a b : I32} (ha : CgInRange a) (hab : CgInRange (a + b)) :
    (a + b).toInt = a.toInt + b.toInt := by
  unfold CgInRange at *
  have h₁ := BitVec.le_toInt b
  have h₂ := @BitVec.toInt_lt 32 b
  rw [BitVec.toInt_add, Int.bmod_def] at *
  norm_num at *
  split_ifs at * <;> omega

theorem follows_parseScaleTimer (timers : Bool) :
    Follows (readScaleTimer timers) (Web.parseScaleTimer timers) fun a b => b = Web.num a := by
  unfold readScaleTimer Web.parseScaleTimer
  by_cases h : timers = true
  · rw [if_pos h, if_pos h, map_eq_pure_bind, ← bind_pure readUvarintSrc]
    refine follows_uv.bind ?_
    rintro u _ rfl
    exact follows_pure rfl
  · rw [if_neg h, if_neg h]
    exact follows_pure rfl

/-- Where the browser's totals stand for the firmware's. -/
def SameTotals (totals : SampleTotals) (js : U32 × ℤ) : Prop :=
  totals.tMs = js.1 ∧ CgInRange totals.cg ∧ totals.cg.toInt = js.2

theorem follows_parseSample {timers : Bool} {beginMs : U32} {totals : SampleTotals} {js : U32 × ℤ}
    (h : SameTotals totals js) :
    Follows (tested (readSample timers) (fun item => CgInRange item.1) totals)
      (Web.parseSample timers beginMs js)
      fun x y => SameSample beginMs x.1.2 y.1 ∧ SameTotals x.2 y.2 := by
  obtain ⟨ht, hrange, hcg⟩ := h
  intro dv p x rest hx
  obtain ⟨⟨item, totals'⟩, mid, hread, hx⟩ := bind_eq_some.1 hx
  obtain ⟨_, m₁, hg, hx⟩ := bind_eq_some.1 hx
  obtain ⟨hin, rfl⟩ := guard_eq_some.1 hg
  obtain ⟨rfl, rfl⟩ := pure_eq_some.1 hx
  have hfollows : Follows (readSample timers totals) (Web.parseSample timers beginMs js)
      fun x y => CgInRange x.1.1 → SameSample beginMs x.1.2 y.1 ∧ SameTotals x.2 y.2 := by
    unfold readSample Web.parseSample
    refine follows_uv.bind ?_
    rintro dt _ rfl
    refine follows_sv.bind ?_
    rintro dc _ rfl
    refine (follows_parseScaleTimer timers).bind ?_
    rintro timer _ rfl
    refine follows_pure fun hin => ?_
    have hadd := toInt_add_of_inRange hrange hin
    have hsat : (saturateCg (totals.cg + dc).toInt).toInt = (totals.cg + dc).toInt := by
      rw [toInt_saturateCg]
      have h₁ := hin.1
      have h₂ := hin.2
      dsimp only at h₁ h₂
      omega
    refine ⟨⟨?_, ?_, rfl⟩, ?_, hin, ?_⟩
    · rw [← ht]; exact sameTime_unwrapTimestamp _ _
    · show js.2 + dc.toInt = (saturateCg (totals.cg + dc).toInt).toInt
      rw [hsat, hadd, hcg]
    · show totals.tMs + dt = js.1 + dt
      rw [ht]
    · show (totals.cg + dc).toInt = js.2 + dc.toInt
      rw [hadd, hcg]
  obtain ⟨y, p', hy, hp, hR⟩ := hfollows dv p _ _ hread
  exact ⟨y, p', hy, hp, hR hin⟩

theorem follows_samples {timers : Bool} {beginMs : U32} {totals : SampleTotals} {js : U32 × ℤ}
    (h : SameTotals totals js) (n : ℕ) :
    Follows (loop (tested (readSample timers) fun item => CgInRange item.1) n totals)
      (loop (Web.parseSample timers beginMs) n js)
      (List.Forall₂ fun item => SameSample beginMs item.2) :=
  follows_loop SameTotals (fun _ _ => follows_parseSample) h n

/-! ## Fixed blocks -/

section Block

variable {n k off : ℕ} {dv blk rest : Bytes}

/-- A byte of a block that the firmware takes whole. -/
theorem getUint8_of_take (h : take n (dv.drop off) = some (blk, rest)) (hk : k < n) :
    Web.getUint8 dv (off + k) = some (byteAt blk k) := by
  unfold take at h
  by_cases hn : n ≤ (dv.drop off).length
  · rw [if_pos hn] at h
    obtain ⟨rfl, -⟩ := Prod.mk.inj (Option.some.inj h)
    rw [List.length_drop] at hn
    have hlt : off + k < dv.length := by omega
    unfold Web.getUint8 byteAt
    rw [List.getElem?_eq_getElem hlt, List.getD_eq_getElem?_getD, List.getElem?_take_of_lt hk,
      List.getElem?_drop, List.getElem?_eq_getElem hlt]
    rfl
  · rw [if_neg hn] at h
    exact absurd h nofun

theorem getUint16_of_take (h : take n (dv.drop off) = some (blk, rest)) (hk : k + 2 ≤ n) :
    Web.getUint16 dv (off + k) = some (readU16LE blk k) := by
  unfold Web.getUint16
  rw [getUint8_of_take h (k := k) (by omega), Nat.add_assoc,
    getUint8_of_take h (k := k + 1) (by omega)]
  rfl

theorem getUint32_of_take (h : take n (dv.drop off) = some (blk, rest)) (hk : k + 4 ≤ n) :
    Web.getUint32 dv (off + k) = some (readU32LE blk k) := by
  unfold Web.getUint32
  rw [getUint8_of_take h (k := k) (by omega), Nat.add_assoc, Nat.add_assoc, Nat.add_assoc,
    getUint8_of_take h (k := k + 1) (by omega), getUint8_of_take h (k := k + 2) (by omega),
    getUint8_of_take h (k := k + 3) (by omega)]
  rfl

theorem drop_of_take (h : take n (dv.drop off) = some (blk, rest)) : dv.drop (off + n) = rest := by
  unfold take at h
  by_cases hn : n ≤ (dv.drop off).length
  · rw [if_pos hn] at h
    rw [← (Prod.mk.inj (Option.some.inj h)).2, List.drop_drop]
  · rw [if_neg hn] at h
    exact absurd h nofun

end Block

/-! ## Whole records -/

/-- The running weights that the decoder goes through. -/
def runningCgs (bs : Bytes) : List I32 :=
  match readBody bs with
  | some (body, _) => body.runningCg
  | none => []

theorem num_toNat_of_nonneg {v : I16} (h : 0 ≤ v.toInt) : Web.num v = v.toInt := by
  unfold Web.num
  rw [BitVec.toInt_eq_toNat_cond] at *
  have := v.isLt
  split_ifs at * <;> omega

theorem endCause_of_ofByte? {b : U8} {cause : EndCause} (h : EndCause.ofByte? b = some cause) :
    Web.num b = Web.num cause.toByte := by rw [EndCause.toByte_of_ofByte? h]

theorem ofByte_version {b : U8} (h : isCompactVersionSupported b = true) :
    (ExtractionVersion.ofByte b).toByte = b ∧ (b = 6 ∨ b = 7) := by
  unfold isCompactVersionSupported at h
  rw [Bool.or_eq_true, decide_eq_true_eq, decide_eq_true_eq] at h
  rcases h with h | h
  · rw [h]; decide
  · rw [h]; decide

theorem bind_step {α β : Type} {o : Option α} {f : α → Option β} {a : α} {x : Option β}
    (h : o = some a) (hf : f a = x) : (o >>= f) = x := by
  rw [h]
  exact hf

/-- **The browser reads what the firmware reads**, at any offset of its buffer. -/
theorem parseExtractionFromDv_agrees {dv rest : Bytes} {off : ℕ} {e : Extraction}
    (h : decodeCompact (dv.drop off) = some (e, rest))
    (hcg : ∀ cg ∈ runningCgs (dv.drop off), CgInRange cg) :
    ∃ js, Web.parseExtractionFromDv dv off = some js ∧ SameRecord e js := by
  unfold decodeCompact at h
  obtain ⟨body, mid, hbody, h⟩ := bind_eq_some.1 h
  unfold runningCgs at hcg
  rw [hbody] at hcg
  obtain ⟨⟨target, alarm⟩, m₂, hblock, h⟩ := bind_eq_some.1 h
  obtain ⟨rfl, -⟩ := pure_eq_some.1 h
  obtain ⟨buf, m₃, hbuf, hblock⟩ := bind_eq_some.1 hblock
  obtain ⟨htc, -⟩ := pure_eq_some.1 hblock
  obtain ⟨rfl, rfl⟩ := Prod.mk.inj htc
  obtain ⟨hdr, cause, events, samples, bs₁, bs₂, htake, hmagic, hversion, hcause, hec, hsc, hevents,
    hsamples, rfl⟩ := readBody_eq_some hbody
  obtain ⟨hverByte, hver⟩ := ofByte_version hversion
  have hele : events.length ≤ MAX_EVENTS := by rw [length_of_loop hevents]; exact hec
  have hsle : (samples.map Prod.snd).length ≤ MAX_SAMPLES := by
    rw [List.length_map, length_of_loop hsamples]; exact hsc
  -- the streams
  have htested := loop_tested (P := fun item : I32 × Sample => CgInRange item.1) hsamples
    fun item hi => hcg item.1 (List.mem_map_of_mem hi)
  rw [← drop_of_take htake] at hevents
  obtain ⟨jsEvents, p, hjsEvents, hp, hsameEvents⟩ := follows_events _ _ _ _ _ _ _ hevents
  rw [← hp] at htested
  have hzero : SameTotals { tMs := readU32LE hdr 8, cg := 0 } (readU32LE hdr 8, 0) :=
    ⟨rfl, show CgInRange 0 by decide, rfl⟩
  obtain ⟨jsSamples, q, hjsSamples, hq, hsameSamples⟩ := follows_samples hzero _ _ _ _ _ htested
  rw [← hq] at hbuf
  refine ⟨?js, ?parse, ?same⟩
  case parse =>
    have h8 := fun k => @getUint8_of_take _ k _ _ _ _ htake
    have h16 := fun k => @getUint16_of_take _ k _ _ _ _ htake
    have h32 := fun k => @getUint32_of_take _ k _ _ _ _ htake
    have t8 := fun k => @getUint8_of_take _ k _ _ _ _ hbuf
    have t16 := fun k => @getUint16_of_take _ k _ _ _ _ hbuf
    have t32 := fun k => @getUint32_of_take _ k _ _ _ _ hbuf
    unfold Web.parseExtractionFromDv
    refine bind_step (h8 0 (by decide)) <|
      bind_step (h8 1 (by decide)) <|
      bind_step (h8 2 (by decide)) <|
      bind_step (h8 3 (by decide)) ?_
    refine bind_step (if_pos hmagic) <|
      bind_step (h8 4 (by decide)) <|
      bind_step (if_pos hver) ?_
    refine bind_step (h8 5 (by decide)) <|
      bind_step (h8 6 (by decide)) <|
      bind_step (h8 7 (by decide)) ?_
    refine bind_step (h32 8 (by decide)) <|
      bind_step (h32 12 (by decide)) <|
      bind_step (h32 16 (by decide)) ?_
    refine bind_step (h32 20 (by decide)) <|
      bind_step (h32 24 (by decide)) <|
      bind_step (h32 28 (by decide)) ?_
    refine bind_step (h16 32 (by decide)) <|
      bind_step (h16 34 (by decide)) <|
      bind_step (h16 36 (by decide)) ?_
    refine bind_step (h16 38 (by decide)) <|
      bind_step (h16 40 (by decide)) <|
      bind_step (h16 42 (by decide)) ?_
    refine bind_step (h8 44 (by decide)) <|
      bind_step (h32 46 (by decide)) <|
      bind_step (h32 50 (by decide)) ?_
    refine bind_step hjsEvents <| bind_step hjsSamples ?_
    refine bind_step (t16 0 (by decide)) <|
      bind_step (t8 2 (by decide)) <|
      bind_step (t16 3 (by decide)) <|
      bind_step (t16 5 (by decide)) <|
      bind_step (t16 7 (by decide)) ?_
    refine bind_step (t32 9 (by decide)) <|
      bind_step (t16 13 (by decide)) <|
      bind_step (t16 15 (by decide)) <|
      bind_step (t8 17 (by decide)) <|
      bind_step (t16 18 (by decide)) ?_
    rfl
  case same =>
    have htime := sameOptionalTime_unwrapOptionalTimestamp (readU32LE hdr 8)
    have hevItems : (Buffer.ofList events : Buffer Event MAX_EVENTS).items = events :=
      Buffer.items_ofList_of_le hele
    have hsaItems : (Buffer.ofList (samples.map Prod.snd) : Buffer Sample MAX_SAMPLES).items =
        samples.map Prod.snd := Buffer.items_ofList_of_le hsle
    refine {
      version := by rw [← hverByte]; rfl
      phase := by
        show Web.num _ = Web.num (Phase.ofByte (byteAt hdr 5)).toByte
        rw [Phase.toByte_ofByte]
      endCause := endCause_of_ofByte? hcause
      eventsOverflowed := rfl
      beginMs := rfl
      lastPumpOffConfirmedMs := htime _
      stableMs := htime _
      endMs := htime _
      totalPumpOnMs := rfl
      startUtcSec := rfl
      yieldCg := rfl
      startRawCg := rfl
      settledRawCg := rfl
      yieldStatus := by
        show Web.num _ = Web.num (YieldStatus.ofByte (byteAt hdr 44)).toByte
        rw [YieldStatus.toByte_ofByte]
      pourMs := rfl
      decisionGainCg := rfl
      observedSampleCount := rfl
      eventCount := ?_
      sampleCount := ?_
      events := ?_
      samples := ?_
      targetCg := num_toNat_of_nonneg
      armed := rfl
      tauMs := rfl
      cCg := rfl
      reactionLeadMs := rfl
      alarmTriggeredMs := htime _
      alarmYieldCg := rfl
      alarmFlowCgPerS := rfl
      alarmFlowValid := rfl
      alarmProjectedFinalCg := rfl }
    · show Web.num (readU16LE hdr 40) = ((Buffer.ofList events : Buffer Event MAX_EVENTS).items.length : ℤ)
      rw [hevItems, length_of_loop hevents]
      rfl
    · show Web.num (readU16LE hdr 42) =
        ((Buffer.ofList (samples.map Prod.snd) : Buffer Sample MAX_SAMPLES).items.length : ℤ)
      rw [hsaItems, List.length_map, length_of_loop hsamples]
      rfl
    · show List.Forall₂ _ (Buffer.ofList events : Buffer Event MAX_EVENTS).items jsEvents
      rw [hevItems]
      exact hsameEvents
    · show List.Forall₂ _ (Buffer.ofList (samples.map Prod.snd) : Buffer Sample MAX_SAMPLES).items
        jsSamples
      rw [hsaItems, List.forall₂_map_left_iff]
      exact hsameSamples

end Pumpbug
