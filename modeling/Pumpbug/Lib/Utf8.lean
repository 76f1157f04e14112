import Mathlib

/-!
# Texts and their bytes

A text in UTF-8, where a list of bytes is a list of characters below 256.  What treats the characters
above ASCII alike may be done to a text or to its bytes.
-/

namespace Lib.Utf8

/-- The bytes of a text. -/
def encode (s : List Char) : List Char :=
  s.flatMap fun c => (String.utf8EncodeChar c).map Char.ofUInt8

/-- The text of some bytes, if there is one. -/
def decode (bs : List Char) : Option (List Char) :=
  (bs.map Char.toUInt8).toByteArray.utf8Decode?.map Array.toList

@[simp] theorem encode_nil : encode [] = [] := rfl

@[simp] theorem encode_append (s t : List Char) : encode (s ++ t) = encode s ++ encode t :=
  List.flatMap_append

theorem toUInt8_ofUInt8 (b : UInt8) : (Char.ofUInt8 b).toUInt8 = b := by
  simp [Char.ofUInt8, Char.toUInt8]

/-- The bytes of a text are the text's. -/
theorem decode_encode (s : List Char) : decode (encode s) = some s := by
  have hbytes : (encode s).map Char.toUInt8 = s.flatMap String.utf8EncodeChar := by
    simp [encode, List.map_flatMap, Function.comp_def, toUInt8_ofUInt8]
  rw [decode, hbytes]
  change (List.utf8Encode s).utf8Decode?.map Array.toList = some s
  simp

theorem encode_injective {s t : List Char} (h : encode s = encode t) : s = t := by
  have hs := decode_encode s
  rw [h, decode_encode] at hs
  exact (Option.some.inj hs).symm

/-! ## Characters above ASCII -/

def Ascii (c : Char) : Prop := c.toNat < 128

instance : DecidablePred Ascii := fun c => inferInstanceAs (Decidable (c.toNat < 128))

theorem toNat_ofUInt8 (b : UInt8) : (Char.ofUInt8 b).toNat = b.toNat := rfl

theorem encode_ascii {c : Char} (h : Ascii c) : encode [c] = [c] := by
  have hle : c.val.toNat ≤ 0x7f := Nat.le_of_lt_succ h
  have hchar : Char.ofUInt8 (UInt8.ofNat c.val.toNat) = c := by
    apply Char.toNat_inj.1
    rw [toNat_ofUInt8, UInt8.toNat_ofNat']
    exact Nat.mod_eq_of_lt (hle.trans_lt (by decide))
  unfold encode String.utf8EncodeChar
  rw [List.flatMap_singleton, if_pos hle, List.map_singleton, hchar]

theorem encode_cons {c : Char} (h : Ascii c) (s : List Char) : encode (c :: s) = c :: encode s := by
  rw [← List.singleton_append, encode_append, encode_ascii h, List.singleton_append]

/-- No byte of a character above ASCII is ASCII. -/
theorem not_ascii_of_mem_encode {c b : Char} (h : ¬ Ascii c) (hb : b ∈ encode [c]) : ¬ Ascii b := by
  have hgt : ¬ c.val.toNat ≤ 0x7f := fun hle => h (Nat.lt_succ_of_le hle)
  have hbyte : ∀ n, 128 ≤ n → n < 256 → ¬ Ascii (Char.ofUInt8 (UInt8.ofNat n)) := by
    intro n hn hlt hascii
    unfold Ascii at hascii
    rw [toNat_ofUInt8, UInt8.toNat_ofNat', Nat.mod_eq_of_lt (by simpa using hlt)] at hascii
    omega
  unfold encode String.utf8EncodeChar at hb
  rw [List.flatMap_singleton, if_neg hgt] at hb
  obtain ⟨byte, hmem, rfl⟩ := List.mem_map.1 hb
  split_ifs at hmem
  all_goals
    simp only [List.mem_cons, List.not_mem_nil, or_false] at hmem
    rcases hmem with rfl | rfl | rfl | rfl
  all_goals exact hbyte _ (by omega) (by omega)

theorem encode_of_ascii {s : List Char} (h : ∀ c ∈ s, Ascii c) : encode s = s := by
  induction s with
  | nil => rfl
  | cons c s ih =>
    rw [encode_cons (h c List.mem_cons_self), ih fun d hd => h d (List.mem_cons_of_mem c hd)]

/-- A map that leaves the characters above ASCII alone, and makes others of the ASCII ones only. -/
theorem flatMap_encode {f : Char → List Char} (hascii : ∀ c, Ascii c → ∀ d ∈ f c, Ascii d)
    (hother : ∀ c, ¬ Ascii c → f c = [c]) (s : List Char) :
    (encode s).flatMap f = encode (s.flatMap f) := by
  induction s with
  | nil => rfl
  | cons c s ih =>
    have hc : (encode [c]).flatMap f = encode (f c) := by
      by_cases h : Ascii c
      · rw [encode_ascii h, List.flatMap_singleton, encode_of_ascii (hascii c h)]
      · have hf : ∀ b ∈ encode [c], f b = [b] := fun b hb => hother b (not_ascii_of_mem_encode h hb)
        rw [hother c h, List.flatMap_congr hf, List.flatMap_singleton']
    rw [← List.singleton_append, encode_append, List.flatMap_append, hc, ih, List.flatMap_append,
      encode_append, List.flatMap_singleton]

/-- What is cut off at an ASCII character. -/
theorem takeWhile_encode {p : Char → Bool} (hother : ∀ c, ¬ Ascii c → p c = true) (s : List Char) :
    (encode s).takeWhile p = encode (s.takeWhile p) := by
  induction s with
  | nil => rfl
  | cons c s ih =>
    by_cases h : Ascii c
    · rw [encode_cons h, List.takeWhile_cons, List.takeWhile_cons]
      split_ifs
      · rw [ih, encode_cons h]
      · rfl
    · have hall : ∀ b ∈ encode [c], p b = true := fun b hb => hother b (not_ascii_of_mem_encode h hb)
      rw [← List.singleton_append, encode_append, List.takeWhile_append_of_pos hall, ih,
        List.singleton_append, List.takeWhile_cons, if_pos (hother c h),
        ← List.singleton_append (l := s.takeWhile p), encode_append]

end Lib.Utf8
