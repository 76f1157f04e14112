import Mathlib.Tactic.Ring
import Pumpbug.Extraction
import Pumpbug.Lib.Leb128

/-!
# Integers on the wire

`extraction_encoding.cpp`: little-endian words, LEB128 varints, zigzag, and the delta coding of a
sample against a running cursor.
-/

namespace Pumpbug

open Lib Lib.Reader

/-! ## Little-endian words -/

/-- `src[k]`. -/
def byteAt (src : Bytes) (k : ℕ) : U8 := src.getD k 0

def readU16LE (src : Bytes) (k : ℕ) : U16 :=
  (byteAt src k).setWidth 16 ||| (byteAt src (k + 1)).setWidth 16 <<< 8

def readU32LE (src : Bytes) (k : ℕ) : U32 :=
  (byteAt src k).setWidth 32 ||| (byteAt src (k + 1)).setWidth 32 <<< 8 |||
    (byteAt src (k + 2)).setWidth 32 <<< 16 ||| (byteAt src (k + 3)).setWidth 32 <<< 24

def readI16LE (src : Bytes) (k : ℕ) : I16 := readU16LE src k

def readI32LE (src : Bytes) (k : ℕ) : I32 := readU32LE src k

def writeU16LE (v : U16) : Bytes := [v.setWidth 8, (v >>> 8).setWidth 8]

def writeU32LE (v : U32) : Bytes :=
  [v.setWidth 8, (v >>> 8).setWidth 8, (v >>> 16).setWidth 8, (v >>> 24).setWidth 8]

def writeI16LE (v : I16) : Bytes := writeU16LE v

def writeI32LE (v : I32) : Bytes := writeU32LE v

/-- A word read where its bytes stand. -/
theorem readU16LE_eq {src : Bytes} {k : ℕ} {v : U16} (h₀ : byteAt src k = v.setWidth 8)
    (h₁ : byteAt src (k + 1) = (v >>> 8).setWidth 8) : readU16LE src k = v := by
  unfold readU16LE
  rw [h₀, h₁]
  apply BitVec.eq_of_getLsbD_eq
  intro i hi
  simp only [BitVec.getLsbD_or, BitVec.getLsbD_shiftLeft, BitVec.getLsbD_setWidth,
    BitVec.getLsbD_ushiftRight]
  by_cases h8 : i < 8
  · simp [hi, h8]
  · simp [hi, h8, show i - 8 < 16 by omega, show i - 8 < 8 by omega, show 8 + (i - 8) = i by omega]

theorem readU32LE_eq {src : Bytes} {k : ℕ} {v : U32} (h₀ : byteAt src k = v.setWidth 8)
    (h₁ : byteAt src (k + 1) = (v >>> 8).setWidth 8)
    (h₂ : byteAt src (k + 2) = (v >>> 16).setWidth 8)
    (h₃ : byteAt src (k + 3) = (v >>> 24).setWidth 8) : readU32LE src k = v := by
  unfold readU32LE
  rw [h₀, h₁, h₂, h₃]
  apply BitVec.eq_of_getLsbD_eq
  intro i hi
  simp only [BitVec.getLsbD_or, BitVec.getLsbD_shiftLeft, BitVec.getLsbD_setWidth,
    BitVec.getLsbD_ushiftRight]
  by_cases h8 : i < 8
  · simp [hi, h8, show i < 16 by omega, show i < 24 by omega]
  · by_cases h16 : i < 16
    · simp [hi, h8, h16, show i < 24 by omega, show i - 8 < 32 by omega, show i - 8 < 8 by omega,
        show 8 + (i - 8) = i by omega]
    · by_cases h24 : i < 24
      · simp [hi, h8, h16, h24, show ¬ i - 8 < 8 by omega, show i - 16 < 32 by omega,
          show i - 16 < 8 by omega, show 16 + (i - 16) = i by omega]
      · simp [hi, h8, h16, h24, show ¬ i - 8 < 8 by omega, show ¬ i - 16 < 8 by omega,
          show i - 24 < 32 by omega, show i - 24 < 8 by omega, show 24 + (i - 24) = i by omega]

/-! ### Fields of a written block -/

section Fields

variable (b : U8) (v : U32) (u : U16) (bs : Bytes) (k : ℕ)

@[simp] theorem byteAt_cons_zero : byteAt (b :: bs) 0 = b := rfl

@[simp] theorem byteAt_cons_succ : byteAt (b :: bs) (k + 1) = byteAt bs k := rfl

@[simp] theorem byteAt_skipU32 : byteAt (writeU32LE v ++ bs) (k + 4) = byteAt bs k := rfl

@[simp] theorem byteAt_skipU16 : byteAt (writeU16LE u ++ bs) (k + 2) = byteAt bs k := rfl

@[simp] theorem readU16LE_write : readU16LE (writeU16LE u ++ bs) 0 = u := readU16LE_eq rfl rfl

@[simp] theorem readU16LE_cons_succ : readU16LE (b :: bs) (k + 1) = readU16LE bs k := rfl

@[simp] theorem readU16LE_skipU32 : readU16LE (writeU32LE v ++ bs) (k + 4) = readU16LE bs k := rfl

@[simp] theorem readU16LE_skipU16 : readU16LE (writeU16LE u ++ bs) (k + 2) = readU16LE bs k := rfl

@[simp] theorem readU32LE_write : readU32LE (writeU32LE v ++ bs) 0 = v :=
  readU32LE_eq rfl rfl rfl rfl

@[simp] theorem readU32LE_cons_succ : readU32LE (b :: bs) (k + 1) = readU32LE bs k := rfl

@[simp] theorem readU32LE_skipU32 : readU32LE (writeU32LE v ++ bs) (k + 4) = readU32LE bs k := rfl

@[simp] theorem readU32LE_skipU16 : readU32LE (writeU16LE u ++ bs) (k + 2) = readU32LE bs k := rfl

end Fields

/-! ## Varints -/

/-- `writeUvarint`: five bytes hold every 32-bit value. -/
def writeUvarint (v : U32) : Bytes := Leb128.write 4 v

/-- The loop of `uvarintSize`, with `n` bytes counted so far. -/
def uvarintSizeLoop : ℕ → U32 → ℕ → ℕ
  | 0, _, n => n
  | fuel + 1, v, n => if 0x80 ≤ v.toNat then uvarintSizeLoop fuel (v >>> 7) (n + 1) else n

def uvarintSize (v : U32) : ℕ := uvarintSizeLoop 4 v 1

def zigzag (v : I32) : U32 := (v <<< 1) ^^^ (if v.toInt < 0 then 0xFFFFFFFF else 0)

def unzigzag (v : U32) : I32 := (v >>> 1) ^^^ (0 - (v &&& 1))

def writeSvarint (v : I32) : Bytes := writeUvarint (zigzag v)

theorem unzigzag_zigzag (v : I32) : unzigzag (zigzag v) = v := by
  have hneg : v.toInt < 0 ↔ v.getLsbD 31 = true := by
    rw [← BitVec.msb_eq_getLsbD_last v, BitVec.msb_eq_toInt, decide_eq_true_eq]
  have hone : ∀ b : U32, b &&& 1 = if b.getLsbD 0 then 1 else 0 := by
    intro b
    apply BitVec.eq_of_getLsbD_eq
    intro i hi
    by_cases h0 : b.getLsbD 0 = true
    · rw [if_pos h0, BitVec.getLsbD_and]
      cases i with
      | zero => rw [h0, Bool.true_and]
      | succ i => simp
    · have hfalse : b.getLsbD 0 = false := Bool.eq_false_iff.2 h0
      rw [if_neg h0, BitVec.getLsbD_and]
      cases i with
      | zero => rw [hfalse]; rfl
      | succ i => simp
  unfold unzigzag zigzag
  by_cases h : v.toInt < 0
  · have h31 := hneg.1 h
    rw [if_pos h, hone, if_pos (by simp)]
    apply BitVec.eq_of_getLsbD_eq
    intro i hi
    rw [show (0 : U32) - 1 = BitVec.allOnes 32 from rfl,
      show (0xFFFFFFFF : U32) = BitVec.allOnes 32 from rfl]
    simp only [BitVec.getLsbD_xor, BitVec.getLsbD_ushiftRight, BitVec.getLsbD_shiftLeft,
      BitVec.getLsbD_allOnes]
    by_cases hi31 : i = 31
    · subst hi31; simp [h31]
    · simp [hi, show 1 + i < 32 by omega, show 1 + i - 1 = i by omega]
  · have h31 : v.getLsbD 31 = false := by simpa using mt hneg.2 h
    rw [if_neg h, hone, if_neg (by simp)]
    apply BitVec.eq_of_getLsbD_eq
    intro i hi
    simp only [BitVec.getLsbD_xor, BitVec.getLsbD_ushiftRight, BitVec.getLsbD_shiftLeft]
    by_cases hi31 : i = 31
    · subst hi31; rw [h31]; rfl
    · simp [hi, show 1 + i < 32 by omega, show 1 + i - 1 = i by omega]

theorem uvarintSizeLoop_eq (fuel : ℕ) (v : U32) (n : ℕ) :
    uvarintSizeLoop fuel v (n + 1) = n + (Leb128.write fuel v).length := by
  induction fuel generalizing v n with
  | zero => rfl
  | succ fuel ih =>
    unfold uvarintSizeLoop Leb128.write
    by_cases h : 0x80 ≤ v.toNat
    · rw [if_pos h, if_pos h, ih, List.length_cons]
      omega
    · rw [if_neg h, if_neg h]
      rfl

theorem uvarintSize_eq (v : U32) : uvarintSize v = (writeUvarint v).length := by
  unfold uvarintSize writeUvarint
  rw [uvarintSizeLoop_eq 4 v 0, Nat.zero_add]

/-! ## Sample deltas -/

structure SampleDeltaCursor where
  prevTMs : U32
  prevCg : I32
  includeScaleTimers : Bool
  deriving DecidableEq

namespace SampleDeltaCursor

/-- Both helpers leave the cursor at the sample. -/
def advance (cursor : SampleDeltaCursor) (sample : Sample) : SampleDeltaCursor :=
  { cursor with prevTMs := sample.tMs, prevCg := sample.cg.signExtend 32 }

end SampleDeltaCursor

def sampleDeltaEncodedSize (cursor : SampleDeltaCursor) (sample : Sample) : ℕ :=
  uvarintSize (sample.tMs - cursor.prevTMs) +
    uvarintSize (zigzag (sample.cg.signExtend 32 - cursor.prevCg)) +
    if cursor.includeScaleTimers then uvarintSize sample.scaleTimerMs else 0

def writeSampleDelta (cursor : SampleDeltaCursor) (sample : Sample) : Bytes :=
  writeUvarint (sample.tMs - cursor.prevTMs) ++
    (writeSvarint (sample.cg.signExtend 32 - cursor.prevCg) ++
      if cursor.includeScaleTimers then writeUvarint sample.scaleTimerMs else [])

theorem sampleDeltaEncodedSize_eq (cursor : SampleDeltaCursor) (sample : Sample) :
    sampleDeltaEncodedSize cursor sample = (writeSampleDelta cursor sample).length := by
  unfold sampleDeltaEncodedSize writeSampleDelta writeSvarint
  rw [uvarintSize_eq, uvarintSize_eq, List.length_append, List.length_append, Nat.add_assoc]
  congr 2
  split_ifs
  · exact uvarintSize_eq _
  · rfl

end Pumpbug
