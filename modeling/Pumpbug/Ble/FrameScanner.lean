import Pumpbug.Ble.AcaiaV2Codec
import Pumpbug.Lib.Scan

/-!
# The framer against a scanner of the whole stream

A reference scanner that sees the stream at once: at a header with an acceptable length it takes the
frame if its checksum holds, resumes right behind the header's first byte if not, and waits where
the frame is not complete.  The framer, one byte at a time, finds the same frames.
-/

namespace Pumpbug.AcaiaV2

open Lib Lib.Scan

/-- The verdict at a header, by what follows it. -/
def headerVerdict : Bytes → Verdict
  | type :: len :: more =>
    if len.toNat = 0 ∨ MAX_FRAME - 5 < len.toNat then .skip
    else if more.length + 2 < len.toNat + 3 then .wait
    else if checksum ((len :: more).take len.toNat) =
        (byteAt (type :: len :: more) (len.toNat + 1),
          byteAt (type :: len :: more) (len.toNat + 2)) then .accept (len.toNat + 5)
    else .skip
  | _ => .wait

/-- The verdict of the reference scanner on the front of a stream. -/
def verdict : Bytes → Verdict
  | [] => .wait
  | [b] => if b = HDR1 then .wait else .skip
  | b₀ :: b₁ :: rest => if b₀ = HDR1 ∧ b₁ = HDR2 then headerVerdict rest else .skip

/-- The frames of a stream, and what is left to wait at. -/
def scanFrames (stream : Bytes) : List Bytes × Bytes := scan verdict stream

/-! ## Verdicts stand -/

theorem verdict_no_header {b₀ b₁ : U8} {rest : Bytes} (h : ¬ (b₀ = HDR1 ∧ b₁ = HDR2)) :
    verdict (b₀ :: b₁ :: rest) = .skip := by
  rw [verdict, if_neg h]

/-- The verdict at a header. -/
theorem verdict_header (rest : Bytes) : verdict (HDR1 :: HDR2 :: rest) = headerVerdict rest := by
  have hh : HDR1 = HDR1 ∧ HDR2 = HDR2 := ⟨rfl, rfl⟩
  rw [verdict, if_pos hh]

/-- A stream is short, has no header in front, or has one with its length byte. -/
theorem stream_cases (l : Bytes) :
    l.length < 2 ∨ (∃ b₀ b₁ rest, l = b₀ :: b₁ :: rest ∧ ¬ (b₀ = HDR1 ∧ b₁ = HDR2)) ∨
      (∃ rest, l = HDR1 :: HDR2 :: rest ∧ rest.length < 2) ∨
      ∃ type len more, l = HDR1 :: HDR2 :: type :: len :: more := by
  match l with
  | [] => exact .inl (by simp)
  | [_] => exact .inl (by simp)
  | b₀ :: b₁ :: rest =>
    by_cases h : b₀ = HDR1 ∧ b₁ = HDR2
    · obtain ⟨rfl, rfl⟩ := h
      match rest with
      | [] => exact .inr (.inr (.inl ⟨[], rfl, by simp⟩))
      | [b] => exact .inr (.inr (.inl ⟨[b], rfl, by simp⟩))
      | type :: len :: more => exact .inr (.inr (.inr ⟨type, len, more, rfl⟩))
    · exact .inr (.inl ⟨b₀, b₁, rest, rfl, h⟩)

theorem verdict_short_header {rest : Bytes} (h : rest.length < 2) :
    verdict (HDR1 :: HDR2 :: rest) = .wait := by
  rw [verdict_header]
  match rest with
  | [] => rfl
  | [_] => rfl
  | _ :: _ :: _ => exact absurd h (by simp)

theorem byteAt_append {l m : Bytes} {i : ℕ} (h : i < l.length) : byteAt (l ++ m) i = byteAt l i := by
  unfold byteAt
  rw [List.getD_eq_getElem?_getD, List.getD_eq_getElem?_getD, List.getElem?_append_left h]

/-- Past the length byte, a verdict other than waiting does not depend on what follows the frame. -/
theorem verdict_header_append {type len : U8} {more : Bytes}
    (h : ¬ more.length + 2 < len.toNat + 3 ∨ len.toNat = 0 ∨ MAX_FRAME - 5 < len.toNat) (m : Bytes) :
    verdict (HDR1 :: HDR2 :: type :: len :: (more ++ m)) =
      verdict (HDR1 :: HDR2 :: type :: len :: more) := by
  rw [verdict_header, verdict_header, headerVerdict, headerVerdict]
  by_cases hbad : len.toNat = 0 ∨ MAX_FRAME - 5 < len.toNat
  · rw [if_pos hbad, if_pos hbad]
  · have hlong : ¬ more.length + 2 < len.toNat + 3 := h.resolve_right hbad
    have hlong' : ¬ (more ++ m).length + 2 < len.toNat + 3 := by
      rw [List.length_append]
      omega
    have htake : (len :: (more ++ m)).take len.toNat = (len :: more).take len.toNat := by
      rw [← List.cons_append, List.take_append_of_le_length (by rw [List.length_cons]; omega)]
    have hbyte : ∀ i < len.toNat + 3, byteAt (type :: len :: (more ++ m)) i =
        byteAt (type :: len :: more) i := by
      intro i hi
      rw [← List.cons_append, ← List.cons_append]
      apply byteAt_append
      rw [List.length_cons, List.length_cons]
      omega
    rw [if_neg hbad, if_neg hbad, if_neg hlong, if_neg hlong', htake, hbyte _ (by omega),
      hbyte _ (by omega)]

theorem verdict_accept {type len : U8} {more : Bytes} {n : ℕ}
    (h : verdict (HDR1 :: HDR2 :: type :: len :: more) = .accept n) :
    n = len.toNat + 5 ∧ ¬ more.length + 2 < len.toNat + 3 := by
  rw [verdict_header, headerVerdict] at h
  split_ifs at h with h₁ h₂ h₃
  exact ⟨(Verdict.accept.inj h).symm, h₂⟩

theorem verdict_skip {type len : U8} {more : Bytes}
    (h : verdict (HDR1 :: HDR2 :: type :: len :: more) = .skip) :
    ¬ more.length + 2 < len.toNat + 3 ∨ len.toNat = 0 ∨ MAX_FRAME - 5 < len.toNat := by
  rw [verdict_header, headerVerdict] at h
  split_ifs at h with h₁ h₂ h₃
  · exact .inr h₁
  · exact .inl h₂

/-- A short stream is never a frame. -/
theorem verdict_short {l : Bytes} (h : l.length < 2) (n : ℕ) : verdict l ≠ .accept n := by
  match l with
  | [] => exact Verdict.noConfusion
  | [b] =>
    rw [verdict]
    split_ifs
    · exact Verdict.noConfusion
    · exact Verdict.noConfusion
  | _ :: _ :: _ => exact absurd h (by simp)

theorem verdict_stable : Stable verdict where
  skip := by
    intro l hne h m
    rcases stream_cases l with hshort | ⟨b₀, b₁, rest, rfl, hno⟩ | ⟨rest, rfl, hrest⟩ |
      ⟨type, len, more, rfl⟩
    · match l with
      | [] => exact absurd rfl hne
      | [b] =>
        -- a single byte is skipped if no header can start with it
        have hb : b ≠ HDR1 := by
          rintro rfl
          rw [show verdict [HDR1] = .wait from rfl] at h
          exact Verdict.noConfusion h
        cases m with
        | nil => exact h
        | cons b₁ rest => exact verdict_no_header fun hh => hb hh.1
      | _ :: _ :: _ => exact absurd hshort (by simp)
    · exact verdict_no_header hno
    · rw [verdict_short_header hrest] at h
      exact Verdict.noConfusion h
    · exact (verdict_header_append (verdict_skip h) m).trans h
  accept := by
    intro l n h m
    rcases stream_cases l with hshort | ⟨b₀, b₁, rest, rfl, hno⟩ | ⟨rest, rfl, hrest⟩ |
      ⟨type, len, more, rfl⟩
    · exact absurd h (verdict_short hshort n)
    · rw [verdict_no_header hno] at h
      exact Verdict.noConfusion h
    · rw [verdict_short_header hrest] at h
      exact Verdict.noConfusion h
    · exact (verdict_header_append (.inl (verdict_accept h).2) m).trans h
  pos := by
    intro l n h
    rcases stream_cases l with hshort | ⟨b₀, b₁, rest, rfl, hno⟩ | ⟨rest, rfl, hrest⟩ |
      ⟨type, len, more, rfl⟩
    · exact absurd h (verdict_short hshort n)
    · rw [verdict_no_header hno] at h
      exact Verdict.noConfusion h
    · rw [verdict_short_header hrest] at h
      exact Verdict.noConfusion h
    · have := (verdict_accept h).1
      omega
  fits := by
    intro l n h
    rcases stream_cases l with hshort | ⟨b₀, b₁, rest, rfl, hno⟩ | ⟨rest, rfl, hrest⟩ |
      ⟨type, len, more, rfl⟩
    · exact absurd h (verdict_short hshort n)
    · rw [verdict_no_header hno] at h
      exact Verdict.noConfusion h
    · rw [verdict_short_header hrest] at h
      exact Verdict.noConfusion h
    · obtain ⟨rfl, hlong⟩ := verdict_accept h
      simp only [List.length_cons]
      omega

end Pumpbug.AcaiaV2
