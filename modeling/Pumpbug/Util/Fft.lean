import Mathlib
import Pumpbug.Lib.Cells

/-!
# The FFT engine

`fft.cpp`: the tables of `begin`, the butterflies in place, and the calibrated magnitudes.  The
floats are exact, those of a field with a cosine; `cos q` is the cosine of `q` turns.  An access past
the end of a block, and a read of what was never written, is `none`.
-/

namespace Pumpbug.Util

open Lib

inductive FftWindow
  | rectangular
  | hann
  | hamming
  deriving DecidableEq

structure FftEngine (R : Type) where
  bits : ℕ := 0
  /-- Peak-amplitude calibration. -/
  outScale : R
  fr : Cells R := .alloc 0
  fi : Cells R := .alloc 0
  wnd : Option (Cells R) := none
  br : Cells ℕ := .alloc 0
  w : Cells R := .alloc 0

namespace FftEngine

/-! ## Tables -/

def bitReversalFill (je j : ℕ) (br : Cells ℕ) : Option (Cells ℕ) := do
  let b ← br.read je
  let c ← br.read (j + 1)
  br.write (je + (j + 1)) ((b + c) % 2 ^ 16)

/-- The table is filled up to `2 * je`, which it is before as far as `je`. -/
def bitReversalRound (s : Cells ℕ × ℕ) : Option (Cells ℕ × ℕ) := do
  let b ← s.1.read s.2
  let je := 2 * s.2
  let br ← s.1.write je (b / 2)
  let br ← countTo (je - 1) (bitReversalFill je) br
  return (br, je)

def initBitReversal (bits : ℕ) (br : Cells ℕ) : Option (Cells ℕ) := do
  let br ← br.write 0 0
  let br ← br.write 1 (2 ^ bits / 2 % 2 ^ 16)
  let s ← countTo (bits - 1) (fun _ => bitReversalRound) (br, 1)
  return s.1

variable {R : Type} [Field R]

def twiddleRound (cos : ℚ → R) (n j : ℕ) (w : Cells R) : Option (Cells R) := do
  let i := j + 1
  let f := cos (i / n)
  let w ← w.write (n / 4 + i) f
  let w ← w.write (n / 4 - i) f
  w.write (n / 4 + n / 2 - i) (-f)

def initTwiddles (cos : ℚ → R) (n : ℕ) (w : Cells R) : Option (Cells R) := do
  let w ← w.write 0 0
  let w ← w.write (n / 2) 0
  let w ← w.write (n / 4) 1
  countTo (n / 4 - 1) (twiddleRound cos n) w

/-- The window's value at `i` of `n`. -/
def windowAt (cos : ℚ → R) (window : FftWindow) (n i : ℕ) : R :=
  match window with
  | .rectangular => 1
  | .hann => 1 / 2 * (1 - cos (i / (n - 1)))
  | .hamming => 27 / 50 - 23 / 50 * cos (i / (n - 1))

def initWindow (cos : ℚ → R) (window : FftWindow) (n : ℕ) (wnd : Cells R) : Option (Cells R) :=
  countTo n (fun i wnd => wnd.write i (windowAt cos window n i)) wnd

def addAt (wnd : Cells R) (i : ℕ) (sum : R) : Option R := do
  let x ← wnd.read i
  return sum + x

def coherentGain (n : ℕ) (wnd : Option (Cells R)) : Option R :=
  match wnd with
  | none => some 1
  | some wnd => do
    let sum ← countTo n (addAt wnd) 0
    return sum / n

/-- The engine with its tables; the cells of the transform are not written yet. -/
def withTables (bits : ℕ) (gain : R) (wnd : Option (Cells R)) (br : Cells ℕ) (w : Cells R) :
    FftEngine R where
  bits := bits
  outScale := 2 / ((2 ^ bits : ℕ) * gain)
  fr := .alloc (2 ^ bits)
  fi := .alloc (2 ^ bits)
  wnd := wnd
  br := br
  w := w

/-- The answer, and the engine after it; `heap` and `wndHeap` tell whether there is room for the
blocks and for the window's. -/
def begin (cos : ℚ → R) (bits : ℕ) (window : FftWindow) (heap wndHeap : Bool) :
    Option (Bool × FftEngine R) :=
  if bits < 2 ∨ 14 < bits ∨ !heap ∨ (window ≠ .rectangular ∧ !wndHeap) then
    some (false, { outScale := 1 })
  else do
    let n := 2 ^ bits
    let br ← initBitReversal bits (.alloc n)
    let w ← initTwiddles cos n (.alloc (n * 3 / 4))
    let wnd ←
      if window = .rectangular then some none
      else (initWindow cos window n (.alloc n)).map some
    let gain ← coherentGain n wnd
    return (true, withTables bits gain wnd br w)

/-! ## The transform -/

/-- One butterfly, of the cells `m + k` and `l + k`. -/
def butterfly (w : Cells R) (s4 je m l k : ℕ) (z : Cells R × Cells R) :
    Option (Cells R × Cells R) := do
  let wi ← w.read (k * je)
  let wr ← w.read (s4 + k * je)
  let frm ← z.1.read (m + k)
  let fim ← z.2.read (m + k)
  let Wxmr := frm * wr + fim * wi
  let Wxmi := fim * wr - frm * wi
  let frl ← z.1.read (l + k)
  let fil ← z.2.read (l + k)
  let fr ← z.1.write (m + k) (frl - Wxmr)
  let fr ← fr.write (l + k) (frl + Wxmr)
  let fi ← z.2.write (m + k) (fil - Wxmi)
  let fi ← fi.write (l + k) (fil + Wxmi)
  return (fr, fi)

/-- What the sweeps over the cells keep. -/
structure Sweep (R : Type) where
  s : ℕ
  je : ℕ
  z : Cells R × Cells R

def sweep (w : Cells R) (s4 : ℕ) (v : Sweep R) : Option (Sweep R) := do
  let ke := v.s
  let s := 2 * v.s
  let je := v.je / 2
  let z ← countTo je
    (fun j => countTo ke (butterfly w s4 je (ke * (2 * j + 1)) (s * j))) v.z
  return { s, je, z }

/-- `_butterflies`. -/
def butterflies (bits : ℕ) (w : Cells R) (z : Cells R × Cells R) : Option (Cells R × Cells R) := do
  let v ← countTo bits (fun _ => sweep w (2 ^ bits / 4)) { s := 1, je := 2 ^ bits, z }
  return v.z

/-- The samples, through the window, to their places. -/
def load (samples : Cells R) (wnd : Option (Cells R)) (br : Cells ℕ) (i : ℕ) (fr : Cells R) :
    Option (Cells R) := do
  let x ← samples.read i
  let x ← match wnd with
    | none => some x
    | some wnd => (wnd.read i).map (x * ·)
  fr.write (← br.read i) x

def store (z : Cells R × Cells R) (k2 : R) (k : ℕ) (mag_sq : Cells R) : Option (Cells R) := do
  let re ← z.1.read k
  let im ← z.2.read k
  mag_sq.write k ((re * re + im * im) * k2)

/-- The engine and the caller's `mag_sq` after it. -/
def computeMagSq (e : FftEngine R) (samples mag_sq : Cells R) : Option (FftEngine R × Cells R) :=
  if e.bits = 0 then some (e, mag_sq)
  else do
    let n := 2 ^ e.bits
    let fr ← countTo n (load samples e.wnd e.br) e.fr
    let fi ← countTo n (fun i fi => fi.write i 0) e.fi
    let z ← butterflies e.bits e.w (fr, fi)
    let mag_sq ← countTo (n / 2) (store z (e.outScale * e.outScale)) mag_sq
    return ({ e with fr := z.1, fi := z.2 }, mag_sq)

def root (sqrt : R → R) (k : ℕ) (mag : Cells R) : Option (Cells R) := do
  let x ← mag.read k
  mag.write k (sqrt x)

def compute (sqrt : R → R) (e : FftEngine R) (samples mag : Cells R) :
    Option (FftEngine R × Cells R) :=
  if e.bits = 0 then some (e, mag)
  else do
    let (e, mag) ← e.computeMagSq samples mag
    let mag ← countTo (2 ^ e.bits / 2) (root sqrt) mag
    return (e, mag)

/-- One block of samples after another. -/
def computeAll (sqrt : R → R) (e : FftEngine R) (blocks : List (Cells R × Cells R)) :
    Option (FftEngine R) :=
  blocks.foldlM (fun e c => (e.compute sqrt c.1 c.2).map Prod.fst) e

/-! ## Turns

The cosine that `begin` stands on, and the signals that the results are about. -/

open Real in
/-- The cosine of `q` turns. -/
noncomputable def cosTurns (q : ℚ) : ℝ := cos (2 * π * q)

open Real in
/-- The sine of `j` of `n` parts of a turn. -/
noncomputable def sinPart (n j : ℕ) : ℝ := sin (2 * π * (j / n))

open Real in
/-- One of `n` parts of a turn, clockwise. -/
noncomputable def rotation (n : ℕ) : ℂ := Complex.exp ((-(2 * π / n) : ℝ) * Complex.I)

/-- `2` over the sum of the window. -/
noncomputable def calibration (b : ℕ) (window : FftWindow) : ℝ :=
  2 / ∑ i ∈ Finset.range (2 ^ b), windowAt cosTurns window (2 ^ b) i

/-- A tone with `f` turns in `n` samples, of the amplitude `A`. -/
noncomputable def tone (n f : ℕ) (A φ : ℝ) (i : ℕ) : ℝ :=
  A * Real.cos (2 * Real.pi * ((f * i : ℕ) / n) + φ)

end FftEngine

end Pumpbug.Util
