import Pumpbug.DecodeRun

/-!
# Forged records

Whatever a byte source answers, the decoder asks for a bounded number of bytes and stays inside the
record's arrays.  Its running weight is the exact sum of the deltas as long as that sum fits 32
bits.
-/

namespace Pumpbug

open Lib Lib.Traced

/-- The range of `int32_t`. -/
def InI32 (v : ℤ) : Prop := -2147483648 ≤ v ∧ v ≤ 2147483647

instance (v : ℤ) : Decidable (InI32 v) := inferInstanceAs (Decidable (_ ∧ _))

/-- The exact sums of deltas, one after each. -/
def runningSums : ℤ → List I32 → List ℤ
  | _, [] => []
  | sum, dc :: dcs => (sum + dc.toInt) :: runningSums (sum + dc.toInt) dcs

namespace DecodeOp

/-- The bytes asked for. -/
def bytes : DecodeOp → ℕ
  | request len => len
  | _ => 0

/-- A write lands in its array. -/
def InArrays : DecodeOp → Prop
  | storeEvent i => i < MAX_EVENTS
  | storeSample i => i < MAX_SAMPLES
  | _ => True

/-- An addition has a result. -/
def NoOverflow : DecodeOp → Prop
  | addCg prevCg dc => InI32 (prevCg.toInt + dc.toInt)
  | _ => True

instance : DecidablePred NoOverflow
  | request _ => isTrue trivial
  | storeEvent _ => isTrue trivial
  | storeSample _ => isTrue trivial
  | addCg prevCg dc => inferInstanceAs (Decidable (InI32 (prevCg.toInt + dc.toInt)))

end DecodeOp

namespace DecodeRun

variable {σ : Type} (src : WireSource σ)

/-- The weight deltas that a source carries for `count` samples, up to the first it breaks off
at. -/
def carriedDeltas (haveScaleTimers : Bool) : ℕ → σ → List I32
  | 0, _ => []
  | count + 1, s =>
    match (readUvarintSrc src s).2 with
    | none => []
    | some (_, s₁) =>
      match (readSvarintSrc src s₁).2 with
      | none => []
      | some (dc, s₂) =>
        dc :: match (readScaleTimer src haveScaleTimers s₂).2 with
          | none => []
          | some (_, s₃) => carriedDeltas haveScaleTimers count s₃

/-- The weight deltas of the record that a source carries. -/
def centigramDeltas (s : σ) : List I32 :=
  match (readPreamble src s).2 with
  | none => []
  | some (p, s') => carriedDeltas src p.haveScaleTimers p.sampleCount s'

/-- The sums of the deltas fit the decoder's accumulator. -/
def SumsFit (s : σ) : Prop := ∀ v ∈ runningSums 0 (centigramDeltas src s), InI32 v

/-! ## Bytes -/

theorem costs_request (n : ℕ) : Costs DecodeOp.bytes n (request src n) := by
  intro s
  show ([DecodeOp.request n].map DecodeOp.bytes).sum ≤ n
  simp [DecodeOp.bytes]

theorem costs_readUvarintFrom (count i : ℕ) (v : U32) :
    Costs DecodeOp.bytes count (readUvarintFrom src count i v) := by
  induction count generalizing i v with
  | zero => exact costs_fail
  | succ count ih =>
    unfold readUvarintFrom
    rw [Nat.add_comm]
    refine (costs_request src 1).bind fun b => ?_
    dsimp only
    split_ifs
    · exact (costs_pure _).mono (Nat.zero_le count)
    · exact ih _ _

theorem costs_readUvarintSrc : Costs DecodeOp.bytes 5 (readUvarintSrc src) :=
  costs_readUvarintFrom src 5 0 0

theorem costs_readSvarintSrc : Costs DecodeOp.bytes 5 (readSvarintSrc src) :=
  (costs_readUvarintSrc src).bind fun u => costs_pure (unzigzag u)

theorem costs_readEvent (version : U8) (i : ℕ) (previousTMs : U32) :
    Costs DecodeOp.bytes 11 (readEvent src version i previousTMs) := by
  unfold readEvent
  refine Costs.mono (n := 5 + (1 + 5)) ?_ le_rfl
  refine (costs_readUvarintSrc src).bind fun delta => ?_
  refine (costs_request src 1).bind fun b => ?_
  dsimp only
  split_ifs
  · refine (costs_readUvarintSrc src).bind (m := 0) fun lead => ?_
    refine (costs_require _).bind (m := 0) fun _ => ?_
    exact (costs_log _).bind fun _ => costs_pure _
  · refine Costs.mono (n := 0) ?_ (by omega)
    exact (costs_log _).bind fun _ => costs_pure _

theorem costs_readScaleTimer (haveScaleTimers : Bool) :
    Costs DecodeOp.bytes 5 (readScaleTimer src haveScaleTimers) := by
  unfold readScaleTimer
  split_ifs
  · exact costs_readUvarintSrc src
  · exact (costs_pure _).mono (Nat.zero_le 5)

theorem costs_readSample (haveScaleTimers : Bool) (i : ℕ) (totals : SampleTotals) :
    Costs DecodeOp.bytes 15 (readSample src haveScaleTimers i totals) := by
  unfold readSample
  refine Costs.mono (n := 5 + (5 + (0 + (5 + (0 + 0))))) ?_ le_rfl
  refine (costs_readUvarintSrc src).bind fun dt => ?_
  refine (costs_readSvarintSrc src).bind fun dc => ?_
  refine (costs_log _).bind fun _ => ?_
  refine (costs_readScaleTimer src haveScaleTimers).bind fun timer => ?_
  exact (costs_log _).bind fun _ => costs_pure _

/-- The bytes of a longest record that the decoder can be led to read. -/
def kMaxDecodeBytes : ℕ :=
  kCompactHeaderBytes + MAX_EVENTS * 11 + MAX_SAMPLES * 15 + kCompactTargetBlockBytes

theorem costs_readPreamble :
    Costs DecodeOp.bytes (kCompactHeaderBytes + MAX_EVENTS * 11) (readPreamble src) := by
  unfold readPreamble
  refine (costs_request src _).bind fun hdr => ?_
  refine Costs.mono (n := 0 + (0 + (0 + (0 + (0 + (MAX_EVENTS * 11 + 0)))))) ?_ (by omega)
  refine (costs_require _).bind fun _ => ?_
  refine (costs_require _).bind fun _ => ?_
  refine (costs_lift _).bind fun endCause => ?_
  refine (costs_require _).bind_returns returns_require fun _ hec => ?_
  refine (costs_require _).bind fun _ => ?_
  refine Costs.bind ?_ fun events => costs_pure _
  exact (costs_forCount (costs_readEvent src _) _ _ _).mono (Nat.mul_le_mul_right 11 hec)

/-- The counts have been checked. -/
theorem returns_readPreamble : Returns (fun p => p.sampleCount ≤ MAX_SAMPLES) (readPreamble src) := by
  unfold readPreamble
  refine (returns_any _).bind fun hdr _ => ?_
  refine (returns_any _).bind fun _ _ => ?_
  refine (returns_any _).bind fun _ _ => ?_
  refine (returns_any _).bind fun endCause _ => ?_
  refine (returns_any _).bind fun _ _ => ?_
  refine returns_require.bind fun _ hsc => ?_
  exact (returns_any _).bind fun events _ => returns_pure hsc

theorem costs_decode : Costs DecodeOp.bytes kMaxDecodeBytes (decode src) := by
  unfold decode
  refine Costs.mono (n := kCompactHeaderBytes + MAX_EVENTS * 11 +
    (MAX_SAMPLES * 15 + (kCompactTargetBlockBytes + 0 + 0))) ?_ (by unfold kMaxDecodeBytes; omega)
  refine (costs_readPreamble src).bind_returns (returns_readPreamble src) fun p hp => ?_
  refine Costs.bind ?_ fun samples => ?_
  · exact (costs_forCount (costs_readSample src _) _ _ _).mono (Nat.mul_le_mul_right 15 hp)
  · exact ((costs_request src _).bind fun buf => costs_pure _).bind fun block => costs_pure _

/-! ## Arrays -/

theorem logs_request {P : DecodeOp → Prop} {n : ℕ} (h : P (.request n)) :
    Logs P (request src n) := by
  intro s op hop
  obtain rfl := List.mem_singleton.1 hop
  exact h

theorem logs_readUvarintFrom {P : DecodeOp → Prop} (h : P (.request 1)) (count i : ℕ) (v : U32) :
    Logs P (readUvarintFrom src count i v) := by
  induction count generalizing i v with
  | zero => exact logs_fail
  | succ count ih =>
    unfold readUvarintFrom
    refine (logs_request src h).bind fun b => ?_
    dsimp only
    split_ifs
    · exact logs_pure _
    · exact ih _ _

theorem logs_readUvarintSrc {P : DecodeOp → Prop} (h : P (.request 1)) :
    Logs P (readUvarintSrc src) := logs_readUvarintFrom src h 5 0 0

theorem logs_readSvarintSrc {P : DecodeOp → Prop} (h : P (.request 1)) :
    Logs P (readSvarintSrc src) := (logs_readUvarintSrc src h).bind fun u => logs_pure (unzigzag u)

theorem logs_readScaleTimer {P : DecodeOp → Prop} (h : P (.request 1)) (haveScaleTimers : Bool) :
    Logs P (readScaleTimer src haveScaleTimers) := by
  unfold readScaleTimer
  split_ifs
  · exact logs_readUvarintSrc src h
  · exact logs_pure _

theorem logs_readEvent {P : DecodeOp → Prop} (h : P (.request 1)) {i : ℕ} (hi : P (.storeEvent i))
    (version : U8) (previousTMs : U32) : Logs P (readEvent src version i previousTMs) := by
  unfold readEvent
  refine (logs_readUvarintSrc src h).bind fun delta => ?_
  refine (logs_request src h).bind fun b => ?_
  dsimp only
  split_ifs
  · refine (logs_readUvarintSrc src h).bind fun lead => ?_
    refine (logs_require _).bind fun _ => ?_
    exact (logs_log hi).bind fun _ => logs_pure _
  · exact (logs_log hi).bind fun _ => logs_pure _

theorem logs_readPreamble {P : DecodeOp → Prop} (h : ∀ n, P (.request n))
    (hi : ∀ i < MAX_EVENTS, P (.storeEvent i)) : Logs P (readPreamble src) := by
  unfold readPreamble
  refine (logs_request src (h _)).bind fun hdr => ?_
  refine (logs_require _).bind fun _ => ?_
  refine (logs_require _).bind fun _ => ?_
  refine (logs_lift _).bind fun endCause => ?_
  refine (logs_require _).bind_returns returns_require fun _ hec => ?_
  refine (logs_require _).bind fun _ => ?_
  refine Logs.bind ?_ fun events => logs_pure _
  refine logs_forCount (fun i t _ hlt => ?_) _
  exact logs_readEvent src (h 1) (hi i (by omega)) _ t

theorem inArrays_readSample {i : ℕ} (hi : i < MAX_SAMPLES) (haveScaleTimers : Bool)
    (totals : SampleTotals) : Logs DecodeOp.InArrays (readSample src haveScaleTimers i totals) := by
  have hstore : (DecodeOp.storeSample i).InArrays := hi
  unfold readSample
  refine (logs_readUvarintSrc src trivial).bind fun dt => ?_
  refine (logs_readSvarintSrc src trivial).bind fun dc => ?_
  refine (logs_log trivial).bind fun _ => ?_
  refine (logs_readScaleTimer src trivial haveScaleTimers).bind fun timer => ?_
  exact (logs_log hstore).bind fun _ => logs_pure _

theorem inArrays_decode : Logs DecodeOp.InArrays (decode src) := by
  unfold decode
  refine (logs_readPreamble src (fun _ => trivial) fun i hi => hi).bind_returns
    (returns_readPreamble src) fun p hp => ?_
  refine Logs.bind ?_ fun samples => ?_
  · exact logs_forCount (fun i t _ hlt => inArrays_readSample src (by omega) _ t) _
  · exact ((logs_request src trivial).bind fun buf => logs_pure _).bind fun block => logs_pure _

/-! ## The running weight -/

/-- Nothing in the log overflows. -/
def Quiet (ops : List DecodeOp) : Prop := ∀ op ∈ ops, op.NoOverflow

theorem quiet_append {l l' : List DecodeOp} : Quiet (l ++ l') ↔ Quiet l ∧ Quiet l' :=
  List.forall_mem_append

theorem quiet_cons {op : DecodeOp} {l : List DecodeOp} :
    Quiet (op :: l) ↔ op.NoOverflow ∧ Quiet l := List.forall_mem_cons

/-- How a sample is read: its delta does not come, its scale timer does not, or all of it does. -/
theorem readSample_cases (haveScaleTimers : Bool) (i : ℕ) (totals : SampleTotals) (s : σ) :
    (∃ l, Quiet l ∧ readSample src haveScaleTimers i totals s = (l, none) ∧
      ∀ n, carriedDeltas src haveScaleTimers (n + 1) s = []) ∨
    (∃ dc l l', Quiet l ∧ Quiet l' ∧
      readSample src haveScaleTimers i totals s = (l ++ .addCg totals.cg dc :: l', none) ∧
      ∀ n, carriedDeltas src haveScaleTimers (n + 1) s = [dc]) ∨
    ∃ dc l l' t timer s', Quiet l ∧ Quiet l' ∧
      readSample src haveScaleTimers i totals s = (l ++ .addCg totals.cg dc :: l',
        some (((totals.cg + dc, ⟨t, saturateCg (totals.cg + dc).toInt, timer⟩),
          ⟨t, totals.cg + dc⟩), s')) ∧
      ∀ n, carriedDeltas src haveScaleTimers (n + 1) s =
        dc :: carriedDeltas src haveScaleTimers n s' := by
  have hdt := logs_readUvarintSrc src (P := DecodeOp.NoOverflow) trivial s
  cases h₁ : (readUvarintSrc src s).2 with
  | none =>
    refine .inl ⟨_, hdt, bind_of_none h₁ _, fun n => ?_⟩
    unfold carriedDeltas
    rw [h₁]
  | some x =>
    obtain ⟨dt, s₁⟩ := x
    have hdc := logs_readSvarintSrc src (P := DecodeOp.NoOverflow) trivial s₁
    cases h₂ : (readSvarintSrc src s₁).2 with
    | none =>
      refine .inl ⟨_, quiet_append.2 ⟨hdt, hdc⟩, ?_, fun n => ?_⟩
      · unfold readSample
        rw [bind_of_some h₁, bind_of_none h₂]
      · unfold carriedDeltas
        rw [h₁]
        dsimp only
        rw [h₂]
    | some y =>
      obtain ⟨dc, s₂⟩ := y
      have htimer := logs_readScaleTimer src (P := DecodeOp.NoOverflow) trivial haveScaleTimers s₂
      have hlog : ∀ op, ((log op : Traced σ DecodeOp Unit) s₂).2 = some ((), s₂) := fun _ => rfl
      cases h₃ : (readScaleTimer src haveScaleTimers s₂).2 with
      | none =>
        refine .inr (.inl ⟨dc, _, _, quiet_append.2 ⟨hdt, hdc⟩, htimer, ?_, fun n => ?_⟩)
        · unfold readSample
          rw [bind_of_some h₁, bind_of_some h₂, bind_of_some (hlog _), bind_of_none h₃,
            List.append_assoc]
          rfl
        · unfold carriedDeltas
          rw [h₁]
          dsimp only
          rw [h₂]
          dsimp only
          rw [h₃]
      | some z =>
        obtain ⟨timer, s₃⟩ := z
        have hstore : Quiet [.storeSample i] := fun op hop => by
          obtain rfl := List.mem_singleton.1 hop
          trivial
        refine .inr (.inr ⟨dc, _, _, totals.tMs + dt, timer, s₃, quiet_append.2 ⟨hdt, hdc⟩,
          quiet_append.2 ⟨htimer, hstore⟩, ?_, fun n => ?_⟩)
        · unfold readSample
          rw [bind_of_some h₁, bind_of_some h₂, bind_of_some (hlog _), bind_of_some h₃,
            List.append_assoc]
          rfl
        · rw [carriedDeltas, h₁]
          dsimp only
          rw [h₂]
          dsimp only
          rw [h₃]

/-- One sample's part of the log. -/
theorem quiet_sample {l l' : List DecodeOp} (hl : Quiet l) (hl' : Quiet l') {prevCg dc : I32} :
    Quiet (l ++ .addCg prevCg dc :: l') ↔ InI32 (prevCg.toInt + dc.toInt) := by
  rw [quiet_append, quiet_cons]
  exact ⟨fun h => h.2.1, fun h => ⟨hl, h, hl'⟩⟩

theorem toInt_add_of_inI32 {a b : I32} (h : InI32 (a.toInt + b.toInt)) :
    (a + b).toInt = a.toInt + b.toInt := by
  obtain ⟨h₁, h₂⟩ := h
  rw [BitVec.toInt_add, Int.bmod_eq_of_le] <;> norm_num <;> omega

variable {src} in
/-- **The sample loop.** From a weight that is the exact sum so far, the loop overflows nowhere if
and only if the sums of the deltas still to come fit, and then its samples are those sums,
saturated. -/
theorem readSamples_spec {haveScaleTimers : Bool} (count i : ℕ) (totals : SampleTotals) (s : σ) :
    (Quiet (forCount (readSample src haveScaleTimers) count i totals s).1 ↔
      ∀ v ∈ runningSums totals.cg.toInt (carriedDeltas src haveScaleTimers count s), InI32 v) ∧
    ∀ samples s', (forCount (readSample src haveScaleTimers) count i totals s).2 =
        some (samples, s') →
      (∀ v ∈ runningSums totals.cg.toInt (carriedDeltas src haveScaleTimers count s), InI32 v) →
      samples.map (fun x => x.2.cg) =
        (runningSums totals.cg.toInt (carriedDeltas src haveScaleTimers count s)).map saturateCg := by
  induction count generalizing i totals s with
  | zero =>
    refine ⟨by simp [forCount, carriedDeltas, runningSums, pure_apply, Quiet], fun samples s' h _ => ?_⟩
    obtain ⟨rfl, -⟩ := Prod.mk.inj (Option.some.inj h)
    rfl
  | succ count ih =>
    unfold forCount
    rcases readSample_cases src haveScaleTimers i totals s with ⟨l, hl, hread, hcarried⟩ |
      ⟨dc, l, l', hl, hl', hread, hcarried⟩ | ⟨dc, l, l', t, timer, s₁, hl, hl', hread, hcarried⟩
    · have hnone := congrArg Prod.snd hread
      rw [bind_of_none hnone, hcarried, hread]
      refine ⟨⟨fun _ v hv => absurd hv (by simp [runningSums]), fun _ => hl⟩, fun _ _ h => ?_⟩
      exact absurd h (by simp)
    · have hnone := congrArg Prod.snd hread
      rw [bind_of_none hnone, hcarried, hread]
      refine ⟨?_, fun _ _ h => absurd h (by simp)⟩
      rw [quiet_sample hl hl']
      simp [runningSums]
    · have hsome := congrArg Prod.snd hread
      obtain ⟨hquiet, hexact⟩ := ih (i + 1) ⟨t, totals.cg + dc⟩ s₁
      rw [bind_of_some hsome, hcarried, hread]
      dsimp only
      rw [log_bind_pure, quiet_append, quiet_sample hl hl']
      unfold runningSums
      rw [List.forall_mem_cons]
      dsimp only at hquiet hexact
      -- an addition that fits is exact, so the sum so far stays exact
      constructor
      · refine and_congr_right fun hfits => ?_
        rwa [← toInt_add_of_inI32 hfits]
      · intro samples s' h hsums
        obtain ⟨hfits, hrest⟩ := hsums
        rw [← toInt_add_of_inI32 hfits] at hrest ⊢
        obtain ⟨as, s₂, has, h⟩ := bind_eq_some.1 h
        obtain ⟨rfl, -⟩ := Prod.mk.inj (Option.some.inj h)
        rw [List.map_cons, List.map_cons, hexact as s₂ has hrest]

/-- What follows without overflow does not matter. -/
theorem quiet_bind {α β : Type} {r : Traced σ DecodeOp α} {f : α → Traced σ DecodeOp β}
    (hf : ∀ a, Logs DecodeOp.NoOverflow (f a)) (s : σ) :
    Quiet ((r >>= f) s).1 ↔ Quiet (r s).1 := by
  cases h : (r s).2 with
  | none => rw [bind_of_none h]
  | some x =>
    rw [bind_of_some h, quiet_append]
    exact ⟨fun h => h.1, fun h => ⟨h, hf x.1 x.2⟩⟩

/-- The decoder overflows nowhere if and only if the sums fit. -/
theorem quiet_decode (s : σ) : Quiet (decode src s).1 ↔ SumsFit src s := by
  have hpre := logs_readPreamble src (P := DecodeOp.NoOverflow) (fun _ => trivial)
    (fun _ _ => trivial) s
  unfold decode SumsFit centigramDeltas
  cases h : (readPreamble src s).2 with
  | none =>
    rw [bind_of_none h]
    exact ⟨fun _ v hv => absurd hv (by simp [runningSums]), fun _ => hpre⟩
  | some x =>
    obtain ⟨p, s'⟩ := x
    rw [bind_of_some h, quiet_append, quiet_bind]
    · exact ⟨fun hq => (readSamples_spec _ _ _ _).1.1 hq.2,
        fun hfit => ⟨hpre, (readSamples_spec _ _ _ _).1.2 hfit⟩⟩
    · intro samples
      refine Logs.bind ?_ fun block => logs_pure _
      exact (logs_request src trivial).bind fun buf => logs_pure _

theorem returns_readSample (haveScaleTimers : Bool) (i : ℕ) (totals : SampleTotals) :
    Returns (fun x => x.1.2.cg ≠ NO_WEIGHT) (readSample src haveScaleTimers i totals) := by
  unfold readSample
  refine (returns_any _).bind fun dt _ => ?_
  refine (returns_any _).bind fun dc _ => ?_
  refine (returns_any _).bind fun _ _ => ?_
  refine (returns_any _).bind fun timer _ => ?_
  exact (returns_any _).bind fun _ _ => returns_pure (saturateCg_ne_noWeight _)

/-- What an accepted record is made of. -/
theorem decode_eq_some {s s' : σ} {e : Extraction} (h : (decode src s).2 = some (e, s')) :
    ∃ p s₁ samples s₂, (readPreamble src s).2 = some (p, s₁) ∧
      (readSamples src p s₁).2 = some (samples, s₂) ∧ e.samples.items = samples.map Prod.snd ∧
      ∀ x ∈ samples, x.2.cg ≠ NO_WEIGHT := by
  obtain ⟨p, s₁, hp, h⟩ := bind_eq_some.1 h
  obtain ⟨samples, s₂, hsamples, h⟩ := bind_eq_some.1 h
  obtain ⟨block, s₃, -, h⟩ := bind_eq_some.1 h
  obtain ⟨rfl, -⟩ := Prod.mk.inj (Option.some.inj h)
  have hcount := returns_readPreamble src s p s₁ hp
  obtain ⟨hlen, hcg⟩ := returns_forCount (Q := fun x : I32 × Sample => x.2.cg ≠ NO_WEIGHT)
    (returns_readSample src p.haveScaleTimers) _ _ _ s₁ samples s₂ hsamples
  refine ⟨p, s₁, samples, s₂, hp, hsamples, ?_, hcg⟩
  refine Buffer.items_ofList_of_le ?_
  rw [List.length_map, hlen]
  exact hcount

/-! ## Safety -/

/-- What a run of the decoder is to guarantee. -/
structure Safe (s : σ) : Prop where
  /-- It asks for a bounded number of bytes. -/
  bounded : ((decode src s).1.map DecodeOp.bytes).sum ≤ kMaxDecodeBytes
  /-- It writes inside the arrays. -/
  inArrays : ∀ op ∈ (decode src s).1, op.InArrays
  /-- Its additions have results. -/
  noOverflow : ∀ op ∈ (decode src s).1, op.NoOverflow
  /-- Decoded weights are weights. -/
  weighed : ∀ e s', (decode src s).2 = some (e, s') → e.Weighed
  /-- They are the exact sums of the deltas, saturated. -/
  exact_ : ∀ e s', (decode src s).2 = some (e, s') →
    e.samples.items.map Sample.cg = (runningSums 0 (centigramDeltas src s)).map saturateCg

theorem weighed_decode {s s' : σ} {e : Extraction} (h : (decode src s).2 = some (e, s')) :
    e.Weighed := by
  obtain ⟨p, s₁, samples, s₂, -, -, hitems, hcg⟩ := decode_eq_some src h
  unfold Extraction.Weighed
  rw [hitems]
  intro sample hsample
  obtain ⟨x, hx, rfl⟩ := List.mem_map.1 hsample
  exact hcg x hx

theorem exact_decode {s s' : σ} {e : Extraction} (h : (decode src s).2 = some (e, s'))
    (hfit : SumsFit src s) :
    e.samples.items.map Sample.cg = (runningSums 0 (centigramDeltas src s)).map saturateCg := by
  obtain ⟨p, s₁, samples, s₂, hp, hsamples, hitems, -⟩ := decode_eq_some src h
  unfold SumsFit at hfit
  have hdeltas : centigramDeltas src s = carriedDeltas src p.haveScaleTimers p.sampleCount s₁ := by
    unfold centigramDeltas
    rw [hp]
  rw [hdeltas] at hfit ⊢
  rw [hitems, List.map_map]
  exact (readSamples_spec _ _ p.totals s₁).2 samples s₂ hsamples hfit

/-- **Forged records.** Every run asks for a bounded number of bytes, stays inside the arrays and
decodes weights; it also overflows nowhere and decodes the exact sums if and only if the sums of the
deltas that the source carries fit 32 bits. -/
theorem safe_iff (s : σ) :
    ((decode src s).1.map DecodeOp.bytes).sum ≤ kMaxDecodeBytes ∧
      (∀ op ∈ (decode src s).1, op.InArrays) ∧
      (∀ e s', (decode src s).2 = some (e, s') → e.Weighed) ∧
      (Safe src s ↔ SumsFit src s) := by
  refine ⟨costs_decode src s, inArrays_decode src s, fun e s' h => weighed_decode src h, ?_, ?_⟩
  · intro h
    exact (quiet_decode src s).1 h.noOverflow
  · intro hfit
    exact ⟨costs_decode src s, inArrays_decode src s, (quiet_decode src s).2 hfit,
      fun e s' h => weighed_decode src h, fun e s' h => exact_decode src h hfit⟩

/-- Two samples whose deltas are the largest there is and one more. -/
def forgedRecord : Bytes :=
  [0x45, 0x58, 0x54, 0x52, 7] ++ List.replicate 37 0 ++ [2] ++ List.replicate 11 0 ++
    [0, 0xFE, 0xFF, 0xFF, 0xFF, 0x0F, 0, 2] ++ List.replicate 20 0

/-- The record is accepted, and the addition for its second sample overflows. -/
theorem not_safe_forgedRecord :
    ¬ ∀ (τ : Type) (source : WireSource τ) (s : τ), Safe source s := by
  intro h
  have hall := (h Bytes memorySource forgedRecord).noOverflow
  revert hall
  decide +kernel

end DecodeRun

end Pumpbug
