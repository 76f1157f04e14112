import Pumpbug.Ble.AcaiaV2Codec

/-!
# Classification against decoding

The message log counts a frame under the kind `classifyInbound` gives it, before the frame is
decoded. Nested samples are given their kind only when they are long enough to be decoded; direct
ones always.
-/

namespace Pumpbug.AcaiaV2

open Lib

/-! ## What the decoders emit -/

/-- The kind of the event that a decoder emits; `none` outside if it reads past the end. -/
def emits (decoded : Option (Option Event)) : Option (Option InboundKind) :=
  decoded.map (Option.map Event.kind)

/-- The kind of a sample, if it is as long as its decoder asks. -/
def ifLong (kind : InboundKind) (need : ℕ) (d : Bytes) : Option InboundKind :=
  if need ≤ d.length then some kind else none

theorem getElem?_of_lt {d : Bytes} {i : ℕ} (h : i < d.length) : ∃ b, d[i]? = some b :=
  ⟨d[i], List.getElem?_eq_getElem h⟩

theorem decodeTimerMs_isSome (d : Bytes) :
    ∃ ms, decodeTimerMs d = some ms ∧ (ms.isSome ↔ 3 ≤ d.length) := by
  unfold decodeTimerMs
  by_cases h : d.length < 3
  · rw [if_pos h]
    exact ⟨none, rfl, by simp; omega⟩
  · obtain ⟨d0, h0⟩ := @getElem?_of_lt d 0 (by omega)
    obtain ⟨d1, h1⟩ := @getElem?_of_lt d 1 (by omega)
    obtain ⟨d2, h2⟩ := @getElem?_of_lt d 2 (by omega)
    rw [if_neg h, h0, h1, h2]
    exact ⟨_, rfl, by simp; omega⟩

theorem emits_decodeTimer (d : Bytes) : emits (decodeTimer d) = some (ifLong .timer 3 d) := by
  obtain ⟨ms, hms, hlong⟩ := decodeTimerMs_isSome d
  unfold decodeTimer ifLong
  rw [hms]
  cases ms with
  | none =>
    rw [if_neg fun h => Bool.false_ne_true (hlong.2 h)]
    rfl
  | some ms =>
    rw [if_pos (hlong.1 rfl)]
    rfl

/-- The appended timer is never read past the end. -/
theorem decodeScaleTimer_isSome (d : Bytes) : ∃ ms, decodeScaleTimer d = some ms := by
  unfold decodeScaleTimer
  by_cases h : 10 ≤ d.length
  · obtain ⟨marker, hmarker⟩ := @getElem?_of_lt d 6 (by omega)
    obtain ⟨ms, hms, -⟩ := decodeTimerMs_isSome (d.drop 7)
    rw [if_pos h, hmarker]
    by_cases hm : marker = 0x07
    · exact ⟨ms, by rw [Option.bind_eq_bind, Option.bind_some, if_pos hm, hms]⟩
    · exact ⟨none, by rw [Option.bind_eq_bind, Option.bind_some, if_neg hm]⟩
  · rw [if_neg h]
    exact ⟨none, rfl⟩

theorem emits_decodeWeight (d : Bytes) : emits (decodeWeight d) = some (ifLong .weight 6 d) := by
  unfold decodeWeight ifLong
  by_cases h : d.length < 6
  · rw [if_pos h, if_neg (by omega)]
    rfl
  · obtain ⟨d0, h0⟩ := @getElem?_of_lt d 0 (by omega)
    obtain ⟨d1, h1⟩ := @getElem?_of_lt d 1 (by omega)
    obtain ⟨d2, h2⟩ := @getElem?_of_lt d 2 (by omega)
    obtain ⟨d3, h3⟩ := @getElem?_of_lt d 3 (by omega)
    obtain ⟨d4, h4⟩ := @getElem?_of_lt d 4 (by omega)
    obtain ⟨d5, h5⟩ := @getElem?_of_lt d 5 (by omega)
    obtain ⟨ms, hms⟩ := decodeScaleTimer_isSome d
    rw [if_neg h, if_pos (by omega), h0, h1, h2, h3, h4, h5, hms]
    rfl

/-- A single byte event. -/
theorem emits_byte (kind : InboundKind) (event : U8 → Event) (hkind : ∀ b, (event b).kind = kind)
    (d : Bytes) :
    emits (if d.length < 1 then some none else do
      let b ← d[0]?
      some (some (event b))) = some (ifLong kind 1 d) := by
  unfold ifLong
  by_cases h : d.length < 1
  · rw [if_pos h, if_neg (by omega)]
    rfl
  · obtain ⟨b, hb⟩ := @getElem?_of_lt d 0 (by omega)
    rw [if_neg h, if_pos (by omega), hb]
    show some (some (event b).kind) = _
    rw [hkind]

/-- The kind of the event behind an event type. -/
def emittedKind (evType : U8) (d : Bytes) : Option InboundKind :=
  if evType = 0x05 then ifLong .weight 6 d
  else if evType = 0x06 then ifLong .battery 1 d
  else if evType = 0x07 then ifLong .timer 3 d
  else if evType = 0x08 then ifLong .key 1 d
  else if evType = 0x0B ∧ 4 ≤ d.length ∧ byteAt d 2 = 0x05 then ifLong .weight 9 d
  else if evType = 0x0B ∧ 4 ≤ d.length ∧ byteAt d 2 = 0x07 then ifLong .timer 6 d
  else some .unknown

theorem ifLong_drop (kind : InboundKind) (need n : ℕ) (d : Bytes) (h : 0 < need) :
    ifLong kind need (d.drop n) = ifLong kind (need + n) d := by
  unfold ifLong
  rw [List.length_drop]
  by_cases hlong : need + n ≤ d.length
  · rw [if_pos hlong, if_pos (by omega)]
  · rw [if_neg hlong, if_neg (by omega)]

theorem emits_decodeAndEmit (evType : U8) (d : Bytes) :
    emits (decodeAndEmit evType d) = some (emittedKind evType d) := by
  unfold decodeAndEmit emittedKind
  by_cases h₅ : evType = 0x05
  · rw [if_pos h₅, if_pos h₅]
    exact emits_decodeWeight d
  rw [if_neg h₅, if_neg h₅]
  by_cases h₆ : evType = 0x06
  · rw [if_pos h₆, if_pos h₆]
    exact emits_byte .battery .battery (fun _ => rfl) d
  rw [if_neg h₆, if_neg h₆]
  by_cases h₇ : evType = 0x07
  · rw [if_pos h₇, if_pos h₇]
    exact emits_decodeTimer d
  rw [if_neg h₇, if_neg h₇]
  by_cases h₈ : evType = 0x08
  · rw [if_pos h₈, if_pos h₈]
    exact emits_byte .key .key (fun _ => rfl) d
  rw [if_neg h₈, if_neg h₈]
  by_cases hB : evType = 0x0B
  · rw [if_pos hB]
    by_cases hlong : 4 ≤ d.length
    · obtain ⟨nested, hnested⟩ := @getElem?_of_lt d 2 (by omega)
      have hbyte : byteAt d 2 = nested := by
        unfold byteAt
        rw [List.getD_eq_getElem?_getD, hnested, Option.getD_some]
      rw [if_pos hlong, hnested, hbyte, Option.bind_eq_bind, Option.bind_some]
      by_cases hn₅ : nested = 0x05
      · rw [if_pos hn₅, if_pos ⟨hB, hlong, hn₅⟩, emits_decodeWeight,
          ifLong_drop _ _ _ _ (by omega)]
      · have hno₅ : ¬ (evType = 0x0B ∧ 4 ≤ d.length ∧ nested = 0x05) := fun h => hn₅ h.2.2
        rw [if_neg hn₅, if_neg hno₅]
        by_cases hn₇ : nested = 0x07
        · rw [if_pos hn₇, if_pos ⟨hB, hlong, hn₇⟩, emits_decodeTimer,
            ifLong_drop _ _ _ _ (by omega)]
        · have hno₇ : ¬ (evType = 0x0B ∧ 4 ≤ d.length ∧ nested = 0x07) := fun h => hn₇ h.2.2
          rw [if_neg hn₇, if_neg hno₇]
          rfl
    · rw [if_neg hlong, if_neg fun h => hlong h.2.1, if_neg fun h => hlong h.2.1]
      rfl
  · rw [if_neg hB, if_neg fun h => hB h.1, if_neg fun h => hB h.1]
    rfl

/-! ## Agreement -/

/-- Decoding stays within the payload, and a frame counts as a sample exactly if one is emitted. -/
def Agrees (frame : Frame) : Prop :=
  decodeFrame frame ≠ none ∧
    ∀ kind ∈ [InboundKind.weight, .battery, .timer, .key],
      classifyInbound frame = kind ↔
        ∃ event, decodeFrame frame = some (some event) ∧ event.kind = kind

/-- A direct sample is as long as its decoder asks. -/
def Complete (payload : Bytes) : Prop :=
  (byteAt payload 0 = 0x05 → 7 ≤ payload.length) ∧ (byteAt payload 0 = 0x06 → 2 ≤ payload.length) ∧
    (byteAt payload 0 = 0x07 → 4 ≤ payload.length) ∧ (byteAt payload 0 = 0x08 → 2 ≤ payload.length)

instance (payload : Bytes) : Decidable (Complete payload) :=
  inferInstanceAs (Decidable (_ ∧ _ ∧ _ ∧ _))

theorem exists_event_iff {decoded : Option (Option Event)} {emitted : Option InboundKind}
    (h : emits decoded = some emitted) (kind : InboundKind) :
    (∃ event, decoded = some (some event) ∧ event.kind = kind) ↔ emitted = some kind := by
  unfold emits at h
  cases decoded with
  | none => cases h
  | some decoded =>
    cases decoded with
    | none =>
      obtain rfl : none = emitted := Option.some.inj h
      simp
    | some event =>
      obtain rfl : some event.kind = emitted := Option.some.inj h
      simp

/-- The kind of a frame with a payload. -/
theorem classifyInbound_cons {frame : Frame} (htype : frame.type = Msg.EVENT) {evType : U8}
    {d : Bytes} (hpayload : frame.payload = evType :: d) :
    classifyInbound frame =
      if evType = 0x0B then heartbeatResponseKind (evType :: d) else eventKind evType := by
  unfold classifyInbound
  rw [htype, if_neg (by decide), if_neg (by decide), if_neg (not_not_intro rfl), hpayload,
    if_neg (by simp)]
  rfl

theorem ifLong_of_le {kind : InboundKind} {need : ℕ} {d : Bytes} (h : need ≤ d.length) :
    ifLong kind need d = some kind := by
  rw [ifLong, if_pos h]

theorem ifLong_of_lt {kind : InboundKind} {need : ℕ} {d : Bytes} (h : d.length < need) :
    ifLong kind need d = none := by
  rw [ifLong, if_neg (by omega)]

theorem emittedKind_nested (d : Bytes) :
    emittedKind 0x0B d =
      if 4 ≤ d.length ∧ byteAt d 2 = 0x05 then ifLong .weight 9 d
      else if 4 ≤ d.length ∧ byteAt d 2 = 0x07 then ifLong .timer 6 d
      else some .unknown := by
  have h₅ : ¬ (0x0B : U8) = 0x05 := by decide
  have h₆ : ¬ (0x0B : U8) = 0x06 := by decide
  have h₇ : ¬ (0x0B : U8) = 0x07 := by decide
  have h₈ : ¬ (0x0B : U8) = 0x08 := by decide
  unfold emittedKind
  rw [if_neg h₅, if_neg h₆, if_neg h₇, if_neg h₈]
  simp only [true_and]

/-- A nested sample is given its kind exactly if it is emitted. -/
theorem heartbeatResponseKind_cons (evType : U8) (d : Bytes) :
    heartbeatResponseKind (evType :: d) = (emittedKind 0x0B d).getD .unknown := by
  have hbyte : byteAt (evType :: d) 3 = byteAt d 2 := rfl
  unfold heartbeatResponseKind
  rw [hbyte, List.length_cons, emittedKind_nested]
  by_cases hlong : 4 ≤ d.length
  swap
  · -- too short for a nested sample, on both sides
    have hno (b : U8) : ¬ (4 ≤ d.length ∧ byteAt d 2 = b) := fun h => hlong h.1
    have hweight : ¬ 10 ≤ d.length + 1 := by omega
    have htimer : ¬ 7 ≤ d.length + 1 := by omega
    rw [if_neg (hno _), if_neg (hno _), if_neg hweight, if_neg htimer, Option.getD_some]
    split_ifs <;> rfl
  have hshort : ¬ d.length + 1 < 4 := by omega
  have hnested (b : U8) : (4 ≤ d.length ∧ byteAt d 2 = b) = (byteAt d 2 = b) :=
    propext (and_iff_right hlong)
  rw [if_neg hshort]
  simp only [hnested]
  by_cases h₅ : byteAt d 2 = 0x05
  · rw [if_pos h₅, if_pos h₅]
    by_cases hweight : 9 ≤ d.length
    · have hlength : 10 ≤ d.length + 1 := by omega
      rw [if_pos hlength, ifLong_of_le hweight, Option.getD_some]
    · have hlength : ¬ 10 ≤ d.length + 1 := by omega
      rw [if_neg hlength, ifLong_of_lt (by omega), Option.getD_none]
  rw [if_neg h₅, if_neg h₅]
  by_cases h₇ : byteAt d 2 = 0x07
  · rw [if_pos h₇, if_pos h₇]
    by_cases htimer : 6 ≤ d.length
    · have hlength : 7 ≤ d.length + 1 := by omega
      rw [if_pos hlength, ifLong_of_le htimer, Option.getD_some]
    · have hlength : ¬ 7 ≤ d.length + 1 := by omega
      rw [if_neg hlength, ifLong_of_lt (by omega), Option.getD_none]
  · rw [if_neg h₇, if_neg h₇, Option.getD_some]

theorem getD_unknown_eq_iff {emitted : Option InboundKind} {kind : InboundKind}
    (h : kind ≠ .unknown) : emitted.getD .unknown = kind ↔ emitted = some kind := by
  cases emitted with
  | none =>
    refine ⟨fun he => absurd he.symm h, fun he => ?_⟩
    cases he
  | some _ => simp

/-- A direct sample has the kind of its event type, and is emitted if it is complete. -/
theorem emittedKind_direct {evType : U8} (h : evType ≠ 0x0B) (d : Bytes) :
    (Complete (evType :: d) → eventKind evType = (emittedKind evType d).getD .unknown) ∧
      (¬ Complete (evType :: d) → emittedKind evType d = none ∧
        eventKind evType ∈ [InboundKind.weight, .battery, .timer, .key]) := by
  have hsample (kind : InboundKind) (need : ℕ)
      (hkind : kind ∈ [InboundKind.weight, .battery, .timer, .key]) :
      (need + 1 ≤ d.length + 1 → kind = (ifLong kind need d).getD .unknown) ∧
        (¬ need + 1 ≤ d.length + 1 → ifLong kind need d = none ∧
          kind ∈ [InboundKind.weight, .battery, .timer, .key]) := by
    constructor
    · intro hlong
      rw [ifLong_of_le (by omega), Option.getD_some]
    · intro hshort
      exact ⟨ifLong_of_lt (by omega), hkind⟩
  have hhead : byteAt (evType :: d) 0 = evType := rfl
  unfold Complete
  rw [hhead, List.length_cons]
  by_cases h₅ : evType = 0x05
  · subst h₅
    simpa [eventKind, emittedKind] using hsample .weight 6 (by decide)
  by_cases h₆ : evType = 0x06
  · subst h₆
    simpa [eventKind, emittedKind] using hsample .battery 1 (by decide)
  by_cases h₇ : evType = 0x07
  · subst h₇
    simpa [eventKind, emittedKind] using hsample .timer 3 (by decide)
  by_cases h₈ : evType = 0x08
  · subst h₈
    simpa [eventKind, emittedKind] using hsample .key 1 (by decide)
  · have hnested : ∀ b : U8, ¬ (evType = 0x0B ∧ 4 ≤ d.length ∧ byteAt d 2 = b) := fun _ hh => h hh.1
    have hkind : eventKind evType = .unknown := by
      rw [eventKind, if_neg h₅, if_neg h₆, if_neg h₇, if_neg h₈]
    have hemitted : emittedKind evType d = some .unknown := by
      rw [emittedKind, if_neg h₅, if_neg h₆, if_neg h₇, if_neg h₈, if_neg (hnested _),
        if_neg (hnested _)]
    refine ⟨fun _ => by rw [hkind, hemitted, Option.getD_some], fun hno => absurd ?_ hno⟩
    exact ⟨fun hh => absurd hh h₅, fun hh => absurd hh h₆, fun hh => absurd hh h₇,
      fun hh => absurd hh h₈⟩

/-- **A frame counts as the sample it holds exactly if its payload is complete.** -/
theorem agrees_iff (frame : Frame) (htype : frame.type = Msg.EVENT) :
    Agrees frame ↔ Complete frame.payload := by
  have hsamples : ∀ kind ∈ [InboundKind.weight, .battery, .timer, .key], kind ≠ .unknown := by
    decide
  cases hpayload : frame.payload with
  | nil =>
    -- nothing to count and nothing to emit
    have hdecode : decodeFrame frame = some none := by
      unfold decodeFrame
      rw [hpayload, if_pos (.inr (by simp))]
    have hkind : classifyInbound frame = .rejected := by
      unfold classifyInbound
      rw [htype, if_neg (by decide), if_neg (by decide), if_neg (not_not_intro rfl), hpayload]
      rfl
    refine iff_of_true ⟨by rw [hdecode]; simp, fun kind hmem => ?_⟩ (by decide)
    rw [hdecode, hkind, @exists_event_iff (some none) none rfl]
    refine iff_of_false ?_ (by simp)
    rintro rfl
    exact absurd hmem (by decide)
  | cons evType d =>
    have hdecode : decodeFrame frame = decodeAndEmit evType d := by
      unfold decodeFrame
      rw [htype, hpayload, if_neg (by simp)]
      rfl
    have hemits := emits_decodeAndEmit evType d
    have hreads : decodeAndEmit evType d ≠ none := by
      intro hnone
      rw [hnone] at hemits
      cases hemits
    unfold Agrees
    rw [hdecode, classifyInbound_cons htype hpayload]
    by_cases hB : evType = 0x0B
    · subst hB
      refine iff_of_true ⟨hreads, fun kind hkind => ?_⟩ ?_
      · rw [if_pos rfl, exists_event_iff hemits, heartbeatResponseKind_cons]
        exact getD_unknown_eq_iff (hsamples kind hkind)
      · refine ⟨fun h => ?_, fun h => ?_, fun h => ?_, fun h => ?_⟩ <;>
          exact absurd h (by simp [byteAt])
    · obtain ⟨hcomplete, hshort⟩ := emittedKind_direct hB d
      rw [if_neg hB]
      constructor
      · rintro ⟨-, hagree⟩
        by_contra hno
        obtain ⟨hnone, hmem⟩ := hshort hno
        have hemitted := (hagree _ hmem).1 rfl
        rw [exists_event_iff hemits, hnone] at hemitted
        cases hemitted
      · intro hc
        refine ⟨hreads, fun kind hkind => ?_⟩
        rw [exists_event_iff hemits, hcomplete hc]
        exact getD_unknown_eq_iff (hsamples kind hkind)

/-- A weight event of one byte. -/
def shortWeightFrame : Bytes := [0xEF, 0xDD, 0x0C, 0x02, 0x05, 0x02, 0x05]

theorem agrees_iff_shortWeight :
    ∃ frame, parseWireFrame shortWeightFrame = some frame ∧
      (Agrees frame ↔ Complete frame.payload) :=
  ⟨_, rfl, agrees_iff _ rfl⟩

/-- It is counted as a weight, and dropped. -/
theorem not_agrees_shortWeight :
    ∃ frame, parseWireFrame shortWeightFrame = some frame ∧ frame.type = Msg.EVENT ∧
      classifyInbound frame = .weight ∧ decodeFrame frame = some none ∧ ¬ Agrees frame := by
  refine ⟨⟨0x0C, [0x02, 0x05], [0x05], shortWeightFrame⟩, by decide, rfl, by decide, by decide, ?_⟩
  rintro ⟨-, hagree⟩
  obtain ⟨event, hevent, -⟩ := (hagree .weight (by decide)).1 (by decide)
  have hdropped : decodeFrame ⟨0x0C, [0x02, 0x05], [0x05], shortWeightFrame⟩ = some none := by
    decide
  rw [hdropped] at hevent
  cases hevent

end Pumpbug.AcaiaV2
