import Pumpbug.Util.FftTables

/-!
# The spectrum

The butterflies turn the samples, in the places that the bit reversal gives them, into their discrete
Fourier transform: after each sweep a block holds the transform of samples that lie evenly apart.
What `compute` leaves is the calibrated modulus; a tone of amplitude 1 reads 1 at its bin.
-/

namespace Pumpbug.Util

open Lib

namespace FftEngine

/-! ## Rotations -/

theorem rotation_pow (n j : ℕ) :
    rotation n ^ j = Complex.exp ((-(2 * Real.pi * (j / n)) : ℝ) * Complex.I) := by
  rw [rotation, ← Complex.exp_nat_mul]
  congr 1
  push_cast
  ring

theorem rotation_pow_re {m : ℕ} (hm : 0 < m) (j : ℕ) :
    (rotation (4 * m) ^ j).re = sinPart (4 * m) (m + j) := by
  rw [rotation_pow, Complex.exp_ofReal_mul_I_re, Real.cos_neg, sinPart_add_quarter hm, cosTurns_part]

theorem rotation_pow_im (n j : ℕ) : (rotation n ^ j).im = -sinPart n j := by
  rw [rotation_pow, Complex.exp_ofReal_mul_I_im, Real.sin_neg, sinPart]

theorem rotation_pow_self {n : ℕ} (hn : 0 < n) : rotation (2 * n) ^ n = -1 := by
  have hn' : (n : ℝ) ≠ 0 := Nat.cast_ne_zero.2 hn.ne'
  have hhalf : -(2 * Real.pi * ((n : ℝ) / (2 * n : ℕ))) = -Real.pi := by
    push_cast
    field_simp
  rw [rotation_pow, hhalf]
  push_cast
  rw [neg_mul, Complex.exp_neg, Complex.exp_pi_mul_I]
  norm_num

/-- A part of fewer parts is so many parts. -/
theorem rotation_pow_mul {n m : ℕ} (hm : 0 < m) : rotation (n * m) ^ m = rotation n := by
  have hm' : (m : ℝ) ≠ 0 := Nat.cast_ne_zero.2 hm.ne'
  have hpart : -(2 * Real.pi * ((m : ℝ) / (n * m : ℕ))) = -(2 * Real.pi / n) := by
    push_cast
    rw [div_mul_cancel_right₀ hm', mul_div_assoc, div_eq_mul_inv]
    ring
  rw [rotation_pow, hpart, rotation]

/-! ## Butterflies -/

/-- The two blocks hold the real and the imaginary parts of the first `n` values of `f`. -/
structure Held (z : Cells ℝ × Cells ℝ) (n : ℕ) (f : ℕ → ℂ) : Prop where
  re_size : z.1.size = n
  im_size : z.2.size = n
  re : z.1.Holds n fun p => (f p).re
  im : z.2.Holds n fun p => (f p).im

theorem Held.congr {z : Cells ℝ × Cells ℝ} {n : ℕ} {f g : ℕ → ℂ} (h : Held z n f)
    (heq : ∀ p < n, g p = f p) : Held z n g where
  re_size := h.re_size
  im_size := h.im_size
  re := fun p hp => by simpa only [heq p hp] using h.re p hp
  im := fun p hp => by simpa only [heq p hp] using h.im p hp

theorem holds_update {c : Cells ℝ} {n p : ℕ} {f : ℕ → ℝ} {a : ℝ} (h : c.Holds n f) (hn : c.size = n)
    (hp : p < n) : (c.put p a).Holds n (Function.update f p a) := by
  intro q hq
  rw [Cells.read_put (by omega), Function.update_apply]
  split_ifs
  · rfl
  · exact h q hq

theorem Held.put {z : Cells ℝ × Cells ℝ} {n p : ℕ} {f : ℕ → ℂ} (h : Held z n f) (hp : p < n) (x : ℂ) :
    Held (z.1.put p x.re, z.2.put p x.im) n (Function.update f p x) where
  re_size := h.re_size
  im_size := h.im_size
  re := by
    convert holds_update h.re h.re_size hp using 1
    funext q
    simp only [Function.update_apply]
    split_ifs <;> rfl
  im := by
    convert holds_update h.im h.im_size hp using 1
    funext q
    simp only [Function.update_apply]
    split_ifs <;> rfl

/-- A butterfly adds to the one cell, and takes from the other, what is turned by its twiddle. -/
theorem butterfly_spec {q je m l k : ℕ} {w : Cells ℝ} {z : Cells ℝ × Cells ℝ} {f : ℕ → ℂ}
    (hq : 0 < q) (hw : w.Holds (3 * q) (sinPart (4 * q))) (hturn : k * je < 2 * q)
    (hm : m + k < 4 * q) (hl : l + k < 4 * q) (h : Held z (4 * q) f) :
    ∃ z', butterfly w q je m l k z = some z' ∧ Held z' (4 * q)
      (Function.update
        (Function.update f (m + k) (f (l + k) - rotation (4 * q) ^ (k * je) * f (m + k)))
        (l + k) (f (l + k) + rotation (4 * q) ^ (k * je) * f (m + k))) := by
  have hwi := hw (k * je) (by omega)
  have hwr := hw (q + k * je) (by omega)
  have hrot : ∀ x : ℂ, rotation (4 * q) ^ (k * je) * x =
      ⟨x.re * sinPart (4 * q) (q + k * je) + x.im * sinPart (4 * q) (k * je),
        x.im * sinPart (4 * q) (q + k * je) - x.re * sinPart (4 * q) (k * je)⟩ := by
    intro x
    apply Complex.ext
    · rw [Complex.mul_re, rotation_pow_re hq, rotation_pow_im]
      ring
    · rw [Complex.mul_im, rotation_pow_re hq, rotation_pow_im]
      ring
  have hput := (h.put hm (f (l + k) - rotation (4 * q) ^ (k * je) * f (m + k))).put hl
    (f (l + k) + rotation (4 * q) ^ (k * je) * f (m + k))
  refine ⟨_, ?_, hput⟩
  have hre := h.re_size
  have him := h.im_size
  simp only [butterfly, hwi, hwr, h.re _ hm, h.im _ hm, h.re _ hl, h.im _ hl, Option.bind_eq_bind,
    Option.bind_some, hrot, Complex.add_re, Complex.add_im, Complex.sub_re, Complex.sub_im]
  rw [Cells.write_eq (by omega), Option.bind_some, Cells.write_eq (by rw [Cells.size_put]; omega),
    Option.bind_some, Cells.write_eq (by omega), Option.bind_some,
    Cells.write_eq (by rw [Cells.size_put]; omega), Option.bind_some]
  rfl

/-! ## Sweeps -/

/-- What a sweep leaves at the place `r` of the block `a` of `ke` cells. -/
def crossed (f W : ℕ → ℂ) (ke a r : ℕ) : ℂ :=
  if a % 2 = 0 then f (ke * (2 * (a / 2)) + r) + W r * f (ke * (2 * (a / 2) + 1) + r)
  else f (ke * (2 * (a / 2)) + r) - W r * f (ke * (2 * (a / 2) + 1) + r)

/-- The sweep is done before the pair `j` of blocks, and in it before the place `k`. -/
def Swept (f W : ℕ → ℂ) (ke j k : ℕ) (g : ℕ → ℂ) : Prop :=
  ∀ a r, r < ke → g (ke * a + r) =
    if a / 2 < j ∨ (a / 2 = j ∧ r < k) then crossed f W ke a r else f (ke * a + r)

theorem place_inj {ke a b r k : ℕ} (hr : r < ke) (hk : k < ke) (h : ke * a + r = ke * b + k) :
    a = b ∧ r = k := by
  have hpos : 0 < ke := by omega
  constructor
  · simpa [Nat.mul_add_div hpos, Nat.div_eq_of_lt hr, Nat.div_eq_of_lt hk] using congrArg (· / ke) h
  · simpa [Nat.mul_add_mod, Nat.mod_eq_of_lt hr, Nat.mod_eq_of_lt hk] using congrArg (· % ke) h

theorem Swept.step {f W g : ℕ → ℂ} {ke j k : ℕ} (h : Swept f W ke j k g) (hk : k < ke) :
    Swept f W ke j (k + 1)
      (Function.update
        (Function.update g (ke * (2 * j + 1) + k)
          (g (2 * ke * j + k) - W k * g (ke * (2 * j + 1) + k)))
        (2 * ke * j + k) (g (2 * ke * j + k) + W k * g (ke * (2 * j + 1) + k))) := by
  have hl : 2 * ke * j + k = ke * (2 * j) + k := by ring
  have hgl : g (2 * ke * j + k) = f (ke * (2 * j) + k) := by
    rw [hl, h (2 * j) k hk, if_neg (by omega)]
  have hgm : g (ke * (2 * j + 1) + k) = f (ke * (2 * j + 1) + k) := by
    rw [h (2 * j + 1) k hk, if_neg (by omega)]
  intro a r hr
  rw [hgl, hgm, hl, Function.update_apply, Function.update_apply]
  by_cases heven : ke * a + r = ke * (2 * j) + k
  · obtain ⟨rfl, rfl⟩ := place_inj hr hk heven
    have hhalf : 2 * j / 2 = j := by omega
    have hbit : 2 * j % 2 = 0 := by omega
    rw [if_pos rfl, crossed, hhalf, if_pos hbit, if_pos (by omega)]
  · by_cases hodd : ke * a + r = ke * (2 * j + 1) + k
    · obtain ⟨rfl, rfl⟩ := place_inj hr hk hodd
      have hhalf : (2 * j + 1) / 2 = j := by omega
      have hbit : ¬(2 * j + 1) % 2 = 0 := by omega
      rw [if_neg heven, if_pos rfl, crossed, hhalf, if_neg hbit, if_pos (by omega)]
    · have hfirst : ¬(a = 2 * j ∧ r = k) := by
        rintro ⟨rfl, rfl⟩
        exact heven rfl
      have hsecond : ¬(a = 2 * j + 1 ∧ r = k) := by
        rintro ⟨rfl, rfl⟩
        exact hodd rfl
      have hsame : (a / 2 < j ∨ a / 2 = j ∧ r < k) ↔ (a / 2 < j ∨ a / 2 = j ∧ r < k + 1) := by omega
      rw [if_neg heven, if_neg hodd, h a r hr]
      simp only [hsame]

theorem Swept.next {f W g : ℕ → ℂ} {ke j : ℕ} (h : Swept f W ke j ke g) : Swept f W ke (j + 1) 0 g := by
  intro a r hr
  have hsame : (a / 2 < j ∨ a / 2 = j ∧ r < ke) ↔ (a / 2 < j + 1 ∨ a / 2 = j + 1 ∧ r < 0) := by omega
  rw [h a r hr]
  simp only [hsame]

/-- The sweep's inner loop, over one pair of blocks. -/
theorem pair_spec {q ke je j : ℕ} {w : Cells ℝ} {z : Cells ℝ × Cells ℝ} {f g : ℕ → ℂ} (hq : 0 < q)
    (hcells : ke * (2 * je) = 4 * q) (hw : w.Holds (3 * q) (sinPart (4 * q))) (hj : j < je)
    (h : Held z (4 * q) g) (hswept : Swept f (fun k => rotation (4 * q) ^ (k * je)) ke j 0 g) :
    ∃ z', countTo ke (butterfly w q je (ke * (2 * j + 1)) (2 * ke * j)) z = some z' ∧
      ∃ g', Held z' (4 * q) g' ∧ Swept f (fun k => rotation (4 * q) ^ (k * je)) ke (j + 1) 0 g' := by
  have hlast : ke * (2 * j + 1) + ke ≤ 4 * q := by
    calc ke * (2 * j + 1) + ke = ke * (2 * (j + 1)) := by ring
      _ ≤ ke * (2 * je) := Nat.mul_le_mul_left ke (by omega)
      _ = 4 * q := hcells
  have hrounds : ∀ k < ke, ∀ z : Cells ℝ × Cells ℝ,
      (∃ g', Held z (4 * q) g' ∧ Swept f (fun k => rotation (4 * q) ^ (k * je)) ke j k g') →
        ∃ z', butterfly w q je (ke * (2 * j + 1)) (2 * ke * j) k z = some z' ∧
          ∃ g', Held z' (4 * q) g' ∧
            Swept f (fun k => rotation (4 * q) ^ (k * je)) ke j (k + 1) g' := by
    rintro k hk z ⟨g', hheld, hdone⟩
    have hturn : k * je < 2 * q := by
      have hlt := Nat.mul_lt_mul_of_pos_right hk (show 0 < je by omega)
      have hhalf : ke * je = 2 * q := by linarith
      omega
    have hl : 2 * ke * j + k < 4 * q := by
      have hsplit : ke * (2 * j + 1) = 2 * ke * j + ke := by ring
      omega
    obtain ⟨z', hbutterfly, hheld'⟩ :=
      butterfly_spec (m := ke * (2 * j + 1)) hq hw hturn (by omega) hl hheld
    exact ⟨z', hbutterfly, _, hheld', hdone.step hk⟩
  obtain ⟨z', hloop, g', hheld, hdone⟩ := countTo_spec _ ⟨g, h, hswept⟩ hrounds
  exact ⟨z', hloop, g', hheld, hdone.next⟩

/-- What one sweep leaves of cells in blocks of `ke`. -/
theorem sweep_spec {q ke je : ℕ} {w : Cells ℝ} {z : Cells ℝ × Cells ℝ} {f : ℕ → ℂ} (hq : 0 < q)
    (hcells : ke * (2 * je) = 4 * q) (hw : w.Holds (3 * q) (sinPart (4 * q)))
    (h : Held z (4 * q) f) :
    ∃ z' g, sweep w q { s := ke, je := 2 * je, z := z } = some { s := 2 * ke, je := je, z := z' } ∧
      Held z' (4 * q) g ∧ ∀ a r, a / 2 < je → r < ke →
        g (ke * a + r) = crossed f (fun k => rotation (4 * q) ^ (k * je)) ke a r := by
  have hbegin : Swept f (fun k => rotation (4 * q) ^ (k * je)) ke 0 0 f :=
    fun a r hr => (if_neg (by omega)).symm
  have hpairs : ∀ j < je, ∀ z : Cells ℝ × Cells ℝ,
      (∃ g, Held z (4 * q) g ∧ Swept f (fun k => rotation (4 * q) ^ (k * je)) ke j 0 g) →
        ∃ z', countTo ke (butterfly w q je (ke * (2 * j + 1)) (2 * ke * j)) z = some z' ∧
          ∃ g, Held z' (4 * q) g ∧
            Swept f (fun k => rotation (4 * q) ^ (k * je)) ke (j + 1) 0 g := by
    rintro j hj z ⟨g, hheld, hdone⟩
    exact pair_spec hq hcells hw hj hheld hdone
  obtain ⟨z', hloop, g, hheld, hdone⟩ := countTo_spec _ ⟨f, h, hbegin⟩ hpairs
  refine ⟨z', g, ?_, hheld, fun a r ha hr => ?_⟩
  · simp only [sweep, Nat.mul_div_cancel_left je Nat.two_pos, hloop]
    rfl
  · rw [hdone a r hr, if_pos (Or.inl ha)]

/-! ## The transform -/

/-- Of `2 ^ b` inputs `x`, the block `a` of `2 ^ i` cells holds the transform of those that are
`2 ^ (b - i)` apart, from the bit reversal of `a` on. -/
def Transformed (b i : ℕ) (x f : ℕ → ℂ) : Prop :=
  ∀ a r, a < 2 ^ (b - i) → r < 2 ^ i →
    f (2 ^ i * a + r) =
      dft (rotation (2 ^ i)) (2 ^ i) (fun n => x (n * 2 ^ (b - i) + bitReverse (b - i) a)) r

/-- **Decimation in time.** -/
theorem Transformed.step {b i : ℕ} {x f g : ℕ → ℂ} (hi : i < b) (h : Transformed b i x f)
    (hg : ∀ a r, a / 2 < 2 ^ (b - (i + 1)) → r < 2 ^ i →
      g (2 ^ i * a + r) = crossed f (fun k => rotation (2 ^ (i + 1)) ^ k) (2 ^ i) a r) :
    Transformed b (i + 1) x g := by
  intro a r ha hr
  obtain ⟨M, hM, hM'⟩ : ∃ M, b - i = M + 1 ∧ b - (i + 1) = M := ⟨b - (i + 1), by omega, rfl⟩
  rw [hM'] at ha hg ⊢
  have hpow : 2 ^ (M + 1) = 2 * 2 ^ M := by ring
  have hsize : 2 * 2 ^ i = 2 ^ (i + 1) := by ring
  have hsquare : rotation (2 ^ (i + 1)) ^ 2 = rotation (2 ^ i) := by
    rw [pow_succ 2 i, rotation_pow_mul Nat.two_pos]
  have hturn : rotation (2 ^ (i + 1)) ^ 2 ^ i = -1 := by
    rw [pow_succ' 2 i, rotation_pow_self (Nat.two_pow_pos i)]
  set u : ℕ → ℂ := fun n => x (n * 2 ^ M + bitReverse M a) with hu
  have heven : ∀ k < 2 ^ i, f (2 ^ i * (2 * a) + k) =
      dft (rotation (2 ^ (i + 1)) ^ 2) (2 ^ i) (fun n => u (2 * n)) k := by
    intro k hk
    rw [h (2 * a) k (by rw [hM]; omega) hk, hM, hsquare, bitReverse_two_mul]
    congr 1
    funext n
    simp only [hu]
    ring_nf
  have hodd : ∀ k < 2 ^ i, f (2 ^ i * (2 * a + 1) + k) =
      dft (rotation (2 ^ (i + 1)) ^ 2) (2 ^ i) (fun n => u (2 * n + 1)) k := by
    intro k hk
    rw [h (2 * a + 1) k (by rw [hM]; omega) hk, hM, hsquare, bitReverse_two_mul_add_one]
    congr 1
    funext n
    simp only [hu]
    ring_nf
  by_cases hlow : r < 2 ^ i
  · have hplace : 2 ^ (i + 1) * a + r = 2 ^ i * (2 * a) + r := by ring
    have hhalf : 2 * a / 2 = a := by omega
    rw [hplace, hg (2 * a) r (by omega) hlow, crossed, hhalf, if_pos (Nat.mul_mod_right 2 a),
      heven r hlow, hodd r hlow, ← dft_double, hsize]
  · obtain ⟨k, rfl⟩ : ∃ k, r = k + 2 ^ i := ⟨r - 2 ^ i, by omega⟩
    have hk : k < 2 ^ i := by rw [pow_succ] at hr; omega
    have hplace : 2 ^ (i + 1) * a + (k + 2 ^ i) = 2 ^ i * (2 * a + 1) + k := by ring
    have hhalf : (2 * a + 1) / 2 = a := by omega
    rw [hplace, hg (2 * a + 1) k (by omega) hk, crossed, hhalf, if_neg (by omega), heven k hk,
      hodd k hk, ← dft_double_add hturn, hsize]

/-- **The butterflies** turn values in bit-reversed places into their transform. -/
theorem butterflies_spec {b : ℕ} {w : Cells ℝ} {z : Cells ℝ × Cells ℝ} {x : ℕ → ℂ} (hb : 2 ≤ b)
    (hw : w.Holds (2 ^ b * 3 / 4) (sinPart (2 ^ b)))
    (h : Held z (2 ^ b) fun p => x (bitReverse b p)) :
    ∃ z', butterflies b w z = some z' ∧ Held z' (2 ^ b) (dft (rotation (2 ^ b)) (2 ^ b) x) := by
  obtain ⟨q, hq, hn, hthree, hquarter⟩ :
      ∃ q, 0 < q ∧ 2 ^ b = 4 * q ∧ 2 ^ b * 3 / 4 = 3 * q ∧ 2 ^ b / 4 = q := by
    obtain ⟨c, rfl⟩ : ∃ c, b = c + 2 := ⟨b - 2, by omega⟩
    have hn : 2 ^ (c + 2) = 4 * 2 ^ c := by ring
    exact ⟨2 ^ c, Nat.two_pow_pos c, hn, by omega, by omega⟩
  have hrounds : ∀ i < b, ∀ v : Sweep ℝ,
      (v.s = 2 ^ i ∧ v.je = 2 ^ (b - i) ∧ ∃ f, Held v.z (2 ^ b) f ∧ Transformed b i x f) →
        ∃ v', sweep w q v = some v' ∧ v'.s = 2 ^ (i + 1) ∧ v'.je = 2 ^ (b - (i + 1)) ∧
          ∃ f, Held v'.z (2 ^ b) f ∧ Transformed b (i + 1) x f := by
    rintro i hi ⟨s, je, z⟩ ⟨rfl, rfl, f, hheld, hdone⟩
    have hhalf : 2 ^ (b - i) = 2 * 2 ^ (b - (i + 1)) := by
      rw [← pow_succ', show b - (i + 1) + 1 = b - i by omega]
    have hcells : 2 ^ i * (2 * 2 ^ (b - (i + 1))) = 4 * q := by
      rw [← hhalf, ← pow_add, ← hn, show i + (b - i) = b by omega]
    have hparts : 4 * q = 2 ^ (i + 1) * 2 ^ (b - (i + 1)) := by
      rw [← hcells]
      ring
    rw [hthree, hn] at hw
    rw [hn] at hheld
    obtain ⟨z', g, hsweep, hheld', hg⟩ := sweep_spec hq hcells hw hheld
    refine ⟨_, by rw [hhalf]; exact hsweep, by ring, rfl, g, by rwa [hn], ?_⟩
    apply hdone.step hi
    intro a r ha hr
    rw [hg a r ha hr]
    congr 1
    funext k
    rw [hparts, mul_comm k, pow_mul, rotation_pow_mul (Nat.two_pow_pos _)]
  have hbegin : Transformed b 0 x fun p => x (bitReverse b p) := by
    intro a r ha hr
    obtain rfl : r = 0 := by simpa using hr
    simp [dft_one]
  obtain ⟨v, hloop, -, -, f, hheld, hdone⟩ := countTo_spec (s := (⟨1, 2 ^ b, z⟩ : Sweep ℝ)) _
    ⟨rfl, rfl, _, h, hbegin⟩ hrounds
  refine ⟨v.z, ?_, hheld.congr fun p hp => ?_⟩
  · simp only [butterflies, hquarter, hloop]
    rfl
  · have hlast := hdone 0 p (by simp) hp
    simpa [bitReverse] using hlast.symm

/-! ## Magnitudes -/

/-- The transform of the samples as the window shows them. -/
noncomputable def spectrum (b : ℕ) (window : FftWindow) (x : ℕ → ℝ) (k : ℕ) : ℂ :=
  dft (rotation (2 ^ b)) (2 ^ b) (fun n => ((x n * windowAt cosTurns window (2 ^ b) n : ℝ) : ℂ)) k

variable {b : ℕ} {window : FftWindow} {e : FftEngine ℝ} {samples : Cells ℝ} {x : ℕ → ℝ}

theorem load_eq (h : Ready b window e) (hx : samples.Holds (2 ^ b) x) {i : ℕ} (hi : i < 2 ^ b)
    {fr : Cells ℝ} (hfr : fr.size = 2 ^ b) :
    load samples e.wnd e.br i fr =
      some (fr.put (bitReverse b i) (x i * windowAt cosTurns window (2 ^ b) i)) := by
  have hwnd := h.wnd
  have hplace : bitReverse b i < fr.size := hfr ▸ bitReverse_lt b i
  unfold load
  rw [hx i hi, h.br i hi]
  cases hw : e.wnd with
  | none =>
    rw [hw] at hwnd
    simp [hwnd, windowAt, Cells.write_eq hplace]
  | some wnd =>
    rw [hw] at hwnd
    simp [hwnd i hi, Cells.write_eq hplace]

/-- Every cell is loaded, whatever the transform before has left. -/
theorem load_spec (h : Ready b window e) (hx : samples.Holds (2 ^ b) x) :
    ∃ fr, countTo (2 ^ b) (load samples e.wnd e.br) e.fr = some fr ∧ fr.size = 2 ^ b ∧
      fr.Holds (2 ^ b) fun p =>
        x (bitReverse b p) * windowAt cosTurns window (2 ^ b) (bitReverse b p) := by
  have hrounds : ∀ i < 2 ^ b, ∀ fr : Cells ℝ,
      (fr.size = 2 ^ b ∧ fr.Agrees {p | p < 2 ^ b ∧ bitReverse b p < i} fun p =>
        x (bitReverse b p) * windowAt cosTurns window (2 ^ b) (bitReverse b p)) →
        ∃ fr', load samples e.wnd e.br i fr = some fr' ∧ fr'.size = 2 ^ b ∧
          fr'.Agrees {p | p < 2 ^ b ∧ bitReverse b p < i + 1} fun p =>
            x (bitReverse b p) * windowAt cosTurns window (2 ^ b) (bitReverse b p) := by
    rintro i hi fr ⟨hsize, hheld⟩
    have hput := hheld.put (i := bitReverse b i) (hsize ▸ bitReverse_lt b i)
    rw [bitReverse_bitReverse hi] at hput
    refine ⟨_, load_eq h hx hi hsize, hsize, hput.mono ?_⟩
    rintro p ⟨hp, hlt⟩
    rcases Nat.lt_succ_iff_lt_or_eq.1 hlt with hlt | heq
    · exact Or.inr ⟨hp, hlt⟩
    · exact Or.inl (by rw [← heq, bitReverse_bitReverse hp])
  obtain ⟨fr, hloop, hsize, hheld⟩ := countTo_spec _
    ⟨h.fr, fun p hp => absurd hp.2 (Nat.not_lt_zero _)⟩ hrounds
  exact ⟨fr, hloop, hsize, fun p hp => hheld p ⟨hp, bitReverse_lt b p⟩⟩

theorem computeMagSq_spec (h : Ready b window e) (hx : samples.Holds (2 ^ b) x) {mag_sq : Cells ℝ}
    (hroom : 2 ^ b / 2 ≤ mag_sq.size) :
    ∃ e' out, e.computeMagSq samples mag_sq = some (e', out) ∧ Ready b window e' ∧
      out.size = mag_sq.size ∧ out.Holds (2 ^ b / 2) fun k =>
        Complex.normSq (spectrum b window x k) * (calibration b window * calibration b window) := by
  obtain ⟨fr, hload, hfr, hheld⟩ := load_spec h hx
  obtain ⟨fi, hclear, hfi, hzero⟩ := countTo_fill (f := fun _ => (0 : ℝ)) h.fi.ge
    (fun i _ (c : Cells ℝ) => (rfl : c.write i 0 = c.write i 0))
  have hbegin : Held (fr, fi) (2 ^ b) fun p =>
      ((x (bitReverse b p) * windowAt cosTurns window (2 ^ b) (bitReverse b p) : ℝ) : ℂ) :=
    ⟨hfr, hfi.trans h.fi, hheld, hzero⟩
  obtain ⟨z, hbutterflies, hz⟩ := butterflies_spec
    (x := fun n => ((x n * windowAt cosTurns window (2 ^ b) n : ℝ) : ℂ)) h.low h.w hbegin
  have hstored : ∀ k < 2 ^ b / 2, ∀ c : Cells ℝ, store z (e.outScale * e.outScale) k c =
      c.write k (Complex.normSq (spectrum b window x k) * (e.outScale * e.outScale)) := by
    intro k hk c
    have hk' : k < 2 ^ b := by omega
    simp only [store, hz.re k hk', hz.im k hk', Option.bind_eq_bind, Option.bind_some,
      Complex.normSq_apply]
    rfl
  obtain ⟨out, hstore, hsize, hout⟩ := countTo_fill hroom hstored
  refine ⟨{ e with fr := z.1, fi := z.2 }, out, ?_, ?_, hsize, ?_⟩
  · have hb : e.bits ≠ 0 := by
      have hlow := h.low
      rw [h.bits]
      omega
    rw [computeMagSq, if_neg hb, h.bits]
    simp only [hload, hclear, hbutterflies, hstore, Option.bind_eq_bind, Option.bind_some]
    rfl
  · exact ⟨h.bits, h.low, hz.re_size, hz.im_size, h.br, h.w, h.wnd, h.outScale⟩
  · rwa [h.outScale] at hout

theorem compute_spec (h : Ready b window e) (hx : samples.Holds (2 ^ b) x) {mag : Cells ℝ}
    (hroom : 2 ^ b / 2 ≤ mag.size) :
    ∃ e' out, e.compute Real.sqrt samples mag = some (e', out) ∧ Ready b window e' ∧
      out.Holds (2 ^ b / 2) fun k => ‖calibration b window * spectrum b window x k‖ := by
  obtain ⟨e', out, hsq, hready, hsize, hout⟩ := computeMagSq_spec h hx hroom
  have hroot : ∀ k < 2 ^ b / 2, ∀ c : Cells ℝ,
      (c.size = mag.size ∧ c.Agrees {p | p < 2 ^ b / 2 ∧ k ≤ p} (fun k =>
          Complex.normSq (spectrum b window x k) * (calibration b window * calibration b window)) ∧
        c.Holds k fun k => ‖calibration b window * spectrum b window x k‖) →
        ∃ c', root Real.sqrt k c = some c' ∧ c'.size = mag.size ∧
          c'.Agrees {p | p < 2 ^ b / 2 ∧ k + 1 ≤ p} (fun k =>
            Complex.normSq (spectrum b window x k) * (calibration b window * calibration b window)) ∧
          c'.Holds (k + 1) fun k => ‖calibration b window * spectrum b window x k‖ := by
    rintro k hk c ⟨hc, hrest, hdone⟩
    have hin : k < c.size := by omega
    have hsqrt : Real.sqrt (Complex.normSq (spectrum b window x k) *
        (calibration b window * calibration b window)) =
          ‖calibration b window * spectrum b window x k‖ := by
      rw [Complex.normSq_eq_norm_sq, ← sq, ← mul_pow, Real.sqrt_sq_eq_abs, abs_mul, abs_norm, norm_mul,
        Complex.norm_real, Real.norm_eq_abs, mul_comm]
    refine ⟨c.put k ‖calibration b window * spectrum b window x k‖, ?_, hc, ?_, hdone.put hin⟩
    · simp only [root, hrest k ⟨hk, le_rfl⟩, Option.bind_eq_bind, Option.bind_some, hsqrt]
      exact Cells.write_eq hin _
    · rintro p ⟨hp, hlater⟩
      rw [Cells.read_put_of_ne (by omega)]
      exact hrest p ⟨hp, by omega⟩
  obtain ⟨out', hloop, -, -, hdone⟩ := countTo_spec _
    ⟨hsize, fun p hp => hout p hp.1, fun p hp => absurd hp (Nat.not_lt_zero p)⟩ hroot
  refine ⟨e', out', ?_, hready, hdone⟩
  have hb : e.bits ≠ 0 := by
    have hlow := h.low
    rw [h.bits]
    omega
  rw [compute, if_neg hb]
  simp only [hsq, hready.bits, hloop, Option.bind_eq_bind, Option.bind_some]
  rfl

theorem computeAll_spec {blocks : List (Cells ℝ × Cells ℝ)} (h : Ready b window e)
    (hblocks : ∀ c ∈ blocks, (∃ x, c.1.Holds (2 ^ b) x) ∧ 2 ^ b / 2 ≤ c.2.size) :
    ∃ e', e.computeAll Real.sqrt blocks = some e' ∧ Ready b window e' := by
  induction blocks generalizing e with
  | nil => exact ⟨e, rfl, h⟩
  | cons c blocks ih =>
    obtain ⟨⟨x, hx⟩, hroom⟩ := hblocks c List.mem_cons_self
    obtain ⟨e', out, hcompute, hready, -⟩ := compute_spec h hx hroom
    obtain ⟨e'', hrest, hlast⟩ := ih hready fun c' hc' => hblocks c' (List.mem_cons_of_mem c hc')
    refine ⟨e'', ?_, hlast⟩
    simp only [computeAll, List.foldlM_cons, hcompute, Option.map_some, Option.bind_eq_bind,
      Option.bind_some]
    exact hrest

/-- Whatever blocks were computed before, the next one is left as its spectrum. -/
theorem computes_spec {blocks : List (Cells ℝ × Cells ℝ)} {mag : Cells ℝ} (h : Ready b window e)
    (hblocks : ∀ c ∈ blocks, (∃ x, c.1.Holds (2 ^ b) x) ∧ 2 ^ b / 2 ≤ c.2.size)
    (hx : samples.Holds (2 ^ b) x) (hroom : 2 ^ b / 2 ≤ mag.size) :
    ∃ e₁ e₂ out, e.computeAll Real.sqrt blocks = some e₁ ∧
      e₁.compute Real.sqrt samples mag = some (e₂, out) ∧
      out.Holds (2 ^ b / 2) fun k => ‖calibration b window * spectrum b window x k‖ := by
  obtain ⟨e₁, hall, hready₁⟩ := computeAll_spec h hblocks
  obtain ⟨e₂, out, hcompute, -, hout⟩ := compute_spec hready₁ hx hroom
  exact ⟨e₁, e₂, out, hall, hcompute, hout⟩

/-- **The engine computes the spectrum.**  `begin` answers for every size and window, and `true` for 4
to 16384 samples where there is heap.  Then, whatever blocks were computed before: `compute` accesses no
cell that it should not, and leaves at each bin the calibrated modulus of the discrete Fourier transform
of the samples, as the window shows them. -/
theorem compute_spectrum (heap wndHeap : Bool) {blocks : List (Cells ℝ × Cells ℝ)} {mag : Cells ℝ}
    (hblocks : ∀ c ∈ blocks, (∃ x, c.1.Holds (2 ^ b) x) ∧ 2 ^ b / 2 ≤ c.2.size)
    (hx : samples.Holds (2 ^ b) x) (hroom : 2 ^ b / 2 ≤ mag.size) :
    ∃ ok e, begin cosTurns b window heap wndHeap = some (ok, e) ∧
      (ok = true ↔ 2 ≤ b ∧ b ≤ 14 ∧ heap = true ∧ (window ≠ .rectangular → wndHeap = true)) ∧
      (ok = true → ∃ e₁ e₂ out, e.computeAll Real.sqrt blocks = some e₁ ∧
        e₁.compute Real.sqrt samples mag = some (e₂, out) ∧
        out.Holds (2 ^ b / 2) fun k => ‖calibration b window * spectrum b window x k‖) := by
  obtain ⟨ok, e, hbegin, hok, hready, -⟩ := begin_spec b window heap wndHeap
  exact ⟨ok, e, hbegin, hok, fun h => computes_spec (hready h) hblocks hx hroom⟩

theorem compute_spectrum_ramp :
    ∃ e e₁ e₂ out, begin cosTurns 8 .hann true true = some (true, e) ∧
      e.computeAll Real.sqrt [(.ofFn 256 fun _ => 1, .alloc 128)] = some e₁ ∧
      e₁.compute Real.sqrt (.ofFn 256 fun n => n) (.alloc 128) = some (e₂, out) ∧
      out.Holds 128 fun k => ‖calibration 8 .hann * spectrum 8 .hann (fun n => n) k‖ := by
  have hblocks : ∀ c ∈ [((Cells.ofFn 256 fun _ => (1 : ℝ)), (Cells.alloc 128 : Cells ℝ))],
      (∃ x, c.1.Holds (2 ^ 8) x) ∧ 2 ^ 8 / 2 ≤ c.2.size := by
    intro c hc
    rw [List.mem_singleton] at hc
    rw [hc]
    exact ⟨⟨fun _ => 1, fun i hi => Cells.read_ofFn hi _⟩, le_rfl⟩
  have hx : (Cells.ofFn 256 fun n => (n : ℝ)).Holds (2 ^ 8) fun n => n :=
    fun i hi => Cells.read_ofFn hi _
  have hroom : 2 ^ 8 / 2 ≤ (Cells.alloc 128 : Cells ℝ).size := le_rfl
  obtain ⟨ok, e, hbegin, hok, hrun⟩ := @compute_spectrum 8 .hann _ _ true true _ _ hblocks hx hroom
  obtain rfl : ok = true := hok.2 (by simp)
  obtain ⟨e₁, e₂, out, hall, hcompute, hout⟩ := hrun rfl
  exact ⟨e, e₁, e₂, out, hbegin, hall, hcompute, hout⟩

/-! ## Tones -/

theorem rotation_isPrimitiveRoot {n : ℕ} (hn : 0 < n) : IsPrimitiveRoot (rotation n) n := by
  have hinv := (Complex.isPrimitiveRoot_exp n hn.ne').inv
  rwa [← Complex.exp_neg, show -(2 * (Real.pi : ℂ) * Complex.I / n) =
    (-(2 * Real.pi / n) : ℝ) * Complex.I by push_cast; ring] at hinv

/-- Rotations by the same part all the way round cancel. -/
theorem sum_rotation {n j : ℕ} (hn : 0 < n) :
    ∑ i ∈ Finset.range n, (rotation n ^ j) ^ i = if n ∣ j then (n : ℂ) else 0 := by
  have hroot := rotation_isPrimitiveRoot hn
  split_ifs with hdvd
  · rw [(hroot.pow_eq_one_iff_dvd j).2 hdvd]
    simp
  · have hne : rotation n ^ j ≠ 1 := fun h => hdvd ((hroot.pow_eq_one_iff_dvd j).1 h)
    rw [geom_sum_eq hne, ← pow_mul, mul_comm, pow_mul, hroot.pow_eq_one]
    simp

/-- A tone is made of two rotations, one each way. -/
theorem tone_eq {n f : ℕ} (hn : 0 < n) (hf : f ≤ n) (A φ : ℝ) (i : ℕ) :
    ((tone n f A φ i : ℝ) : ℂ) =
      A / 2 * (Complex.exp (φ * Complex.I) * (rotation n ^ (n - f)) ^ i +
        Complex.exp (-φ * Complex.I) * (rotation n ^ f) ^ i) := by
  have hback : (rotation n ^ f) ^ i =
      Complex.exp (-(2 * Real.pi * ((f * i : ℕ) / n) : ℝ) * Complex.I) := by
    rw [← pow_mul, rotation_pow]
    push_cast
    rfl
  have hround : (rotation n ^ (n - f)) ^ i * (rotation n ^ f) ^ i = 1 := by
    rw [← mul_pow, ← pow_add, Nat.sub_add_cancel hf, (rotation_isPrimitiveRoot hn).pow_eq_one, one_pow]
  have hforth : (rotation n ^ (n - f)) ^ i =
      Complex.exp ((2 * Real.pi * ((f * i : ℕ) / n) : ℝ) * Complex.I) := by
    rw [eq_inv_of_mul_eq_one_left hround, hback, ← Complex.exp_neg]
    congr 1
    ring
  rw [hback, hforth, tone, Complex.ofReal_mul, Complex.ofReal_cos, Complex.cos, ← Complex.exp_add,
    ← Complex.exp_add]
  push_cast
  ring_nf

/-- The spectrum of a tone is at its bin. -/
theorem spectrum_tone {b f k : ℕ} (hf : 0 < f) (hf' : f < 2 ^ b / 2) (hk : k < 2 ^ b / 2) (A φ : ℝ) :
    spectrum b .rectangular (tone (2 ^ b) f A φ) k =
      if k = f then A / 2 * Complex.exp (φ * Complex.I) * (2 ^ b : ℕ) else 0 := by
  have hn := Nat.two_pow_pos b
  have hforth : 2 ^ b ∣ 2 ^ b - f + k ↔ k = f := by
    constructor
    · rintro ⟨c, hc⟩
      have hc1 : c = 1 := by
        rcases Nat.lt_trichotomy c 1 with h | h | h
        · obtain rfl : c = 0 := by omega
          omega
        · exact h
        · have := Nat.mul_le_mul_left (2 ^ b) h
          omega
      rw [hc1] at hc
      omega
    · rintro rfl
      rw [Nat.sub_add_cancel (by omega)]
  have hback : ¬2 ^ b ∣ f + k := Nat.not_dvd_of_pos_of_lt (by omega) (by omega)
  calc spectrum b .rectangular (tone (2 ^ b) f A φ) k
      = ∑ i ∈ Finset.range (2 ^ b), A / 2 * (Complex.exp (φ * Complex.I) *
          (rotation (2 ^ b) ^ (2 ^ b - f + k)) ^ i +
            Complex.exp (-φ * Complex.I) * (rotation (2 ^ b) ^ (f + k)) ^ i) := by
        rw [spectrum, dft]
        refine Finset.sum_congr rfl fun i _ => ?_
        rw [windowAt, mul_one, tone_eq hn (by omega), mul_comm i k, pow_mul (rotation (2 ^ b)) k i,
          pow_add, pow_add, mul_pow, mul_pow]
        ring
    _ = A / 2 * (Complex.exp (φ * Complex.I) * (if k = f then ((2 ^ b : ℕ) : ℂ) else 0)) := by
        rw [← Finset.mul_sum, Finset.sum_add_distrib, ← Finset.mul_sum, ← Finset.mul_sum,
          sum_rotation hn, sum_rotation hn, if_neg hback, mul_zero, add_zero]
        simp only [hforth]
    _ = _ := by
        split_ifs
        · ring
        · ring

/-- **A tone reads its amplitude.**  Without a window, a tone of amplitude `A` at a bin reads `|A|` there
and nothing at any other bin, at whatever phase it begins. -/
theorem compute_tone {b f : ℕ} {e : FftEngine ℝ} {heap wndHeap : Bool}
    {blocks : List (Cells ℝ × Cells ℝ)} {samples mag : Cells ℝ} {A φ : ℝ}
    (hbegin : begin cosTurns b .rectangular heap wndHeap = some (true, e))
    (hblocks : ∀ c ∈ blocks, (∃ x, c.1.Holds (2 ^ b) x) ∧ 2 ^ b / 2 ≤ c.2.size)
    (hf : 0 < f) (hf' : f < 2 ^ b / 2) (hx : samples.Holds (2 ^ b) (tone (2 ^ b) f A φ))
    (hroom : 2 ^ b / 2 ≤ mag.size) :
    ∃ e₁ e₂ out, e.computeAll Real.sqrt blocks = some e₁ ∧
      e₁.compute Real.sqrt samples mag = some (e₂, out) ∧
      out.Holds (2 ^ b / 2) fun k => if k = f then |A| else 0 := by
  obtain ⟨ok, e₀, heq, -, hready, -⟩ := begin_spec b .rectangular heap wndHeap
  rw [hbegin, Option.some.injEq, Prod.mk.injEq] at heq
  obtain ⟨rfl, rfl⟩ := heq
  obtain ⟨e₁, e₂, out, hall, hcompute, hout⟩ := computes_spec (hready rfl) hblocks hx hroom
  refine ⟨e₁, e₂, out, hall, hcompute, fun k hk => ?_⟩
  have hn : ((2 ^ b : ℕ) : ℂ) ≠ 0 := Nat.cast_ne_zero.2 (Nat.two_pow_pos b).ne'
  have hgain : (calibration b .rectangular : ℂ) = 2 / (2 ^ b : ℕ) := by
    simp [calibration, windowAt]
  rw [hout k hk]
  simp only [spectrum_tone hf hf' hk, hgain]
  split_ifs with heq
  · congr 1
    rw [show (2 : ℂ) / (2 ^ b : ℕ) * (A / 2 * Complex.exp (φ * Complex.I) * (2 ^ b : ℕ)) =
      A * Complex.exp (φ * Complex.I) by field_simp, norm_mul, Complex.norm_exp_ofReal_mul_I,
      Complex.norm_real, Real.norm_eq_abs, mul_one]
  · simp

theorem compute_tone_middle :
    ∃ e e₁ e₂ out, begin cosTurns 8 .rectangular true false = some (true, e) ∧
      e.computeAll Real.sqrt [] = some e₁ ∧
      e₁.compute Real.sqrt (.ofFn 256 (tone 256 64 3 1)) (.alloc 128) = some (e₂, out) ∧
      out.Holds 128 fun k => if k = 64 then |3| else 0 := by
  obtain ⟨ok, e, hbegin, hok, -⟩ := begin_spec 8 .rectangular true false
  obtain rfl : ok = true := hok.2 (by simp)
  have hx : (Cells.ofFn 256 (tone 256 64 3 1)).Holds (2 ^ 8) (tone (2 ^ 8) 64 3 1) :=
    fun i hi => Cells.read_ofFn hi _
  have hroom : 2 ^ 8 / 2 ≤ (Cells.alloc 128 : Cells ℝ).size := le_rfl
  obtain ⟨e₁, e₂, out, hall, hcompute, hout⟩ :=
    compute_tone hbegin (fun _ hc => absurd hc List.not_mem_nil) (by omega) (by omega) hx hroom
  exact ⟨e, e₁, e₂, out, hbegin, hall, hcompute, hout⟩

end FftEngine

end Pumpbug.Util
