import Pumpbug.Lib.Fourier
import Pumpbug.Util.Fft

/-!
# The tables of the FFT engine

`begin` leaves the bit reversal of every place, the sine and the cosine of every angle that the
butterflies ask for, and the window; it reads nothing that it has not written.
-/

namespace Pumpbug.Util

open Lib

namespace FftEngine

/-! ## Bit reversal -/

theorem bitReversal_mod {bits : ℕ} (hbits : bits ≤ 14) (j : ℕ) :
    bitReverse bits j % 2 ^ 16 = bitReverse bits j := by
  apply Nat.mod_eq_of_lt
  calc bitReverse bits j < 2 ^ bits := bitReverse_lt bits j
    _ ≤ 2 ^ 16 := Nat.pow_le_pow_right Nat.two_pos (by omega)

/-- The entry at `je` being there, those above it come from those below. -/
theorem bitReversalFill_spec {bits i k : ℕ} (hbits : bits ≤ 14) (hi : i + 1 < bits)
    (hk : k < 2 ^ (i + 1) - 1) {br : Cells ℕ} (hsize : br.size = 2 ^ bits)
    (h : br.Holds (2 ^ (i + 1) + 1 + k) (bitReverse bits)) :
    ∃ br', bitReversalFill (2 ^ (i + 1)) k br = some br' ∧ br'.size = 2 ^ bits ∧
      br'.Holds (2 ^ (i + 1) + 1 + (k + 1)) (bitReverse bits) := by
  have hroom : 2 ^ (i + 2) ≤ br.size := hsize ▸ Nat.pow_le_pow_right Nat.two_pos (by omega)
  have hpow : 2 ^ (i + 2) = 2 * 2 ^ (i + 1) := by ring
  have hnew : (bitReverse bits (2 ^ (i + 1)) + bitReverse bits (k + 1)) % 2 ^ 16 =
      bitReverse bits (2 ^ (i + 1) + (k + 1)) := by
    rw [bitReverse_two_pow hi, ← bitReverse_high hi (by omega), bitReversal_mod hbits]
  refine ⟨br.put (2 ^ (i + 1) + (k + 1)) (bitReverse bits (2 ^ (i + 1) + (k + 1))), ?_, hsize,
    fun p hp => ?_⟩
  · have hje := h (2 ^ (i + 1)) (by omega)
    have hj := h (k + 1) (by omega)
    simp only [bitReversalFill, hje, hj, Option.bind_eq_bind, Option.bind_some, hnew]
    exact Cells.write_eq (by omega) _
  · rw [Cells.read_put (by omega)]
    split_ifs with heq
    · rw [heq]
    · exact h p (by omega)

theorem bitReversalRound_spec {bits i : ℕ} (hbits : bits ≤ 14) (hi : i + 1 < bits) {br : Cells ℕ}
    (hsize : br.size = 2 ^ bits) (h : br.Holds (2 ^ (i + 1)) (bitReverse bits)) :
    ∃ br', bitReversalRound (br, 2 ^ i) = some (br', 2 ^ (i + 1)) ∧ br'.size = 2 ^ bits ∧
      br'.Holds (2 ^ (i + 2)) (bitReverse bits) := by
  have hpow : 2 * 2 ^ i = 2 ^ (i + 1) := by ring
  have hpow' : 2 ^ (i + 2) = 2 * 2 ^ (i + 1) := by ring
  have hroom : 2 ^ (i + 2) ≤ br.size := hsize ▸ Nat.pow_le_pow_right Nat.two_pos (by omega)
  have hpos := Nat.two_pow_pos i
  have hfirst : br.read (2 ^ i) = some (2 ^ (bits - 1 - i)) := by
    rw [h _ (by omega), bitReverse_two_pow (by omega)]
  have hhalf : 2 ^ (bits - 1 - i) / 2 = bitReverse bits (2 ^ (i + 1)) := by
    rw [bitReverse_two_pow hi, show bits - 1 - i = bits - 1 - (i + 1) + 1 by omega, pow_succ,
      Nat.mul_div_cancel _ Nat.two_pos]
  have hbegin : Cells.Holds (br.put (2 ^ (i + 1)) (bitReverse bits (2 ^ (i + 1)))) (2 ^ (i + 1) + 1 + 0)
      (bitReverse bits) := by
    intro p hp
    rw [Cells.read_put (by omega)]
    split_ifs with heq
    · rw [heq]
    · exact h p (by omega)
  obtain ⟨br', hfill, hsize', hheld⟩ := countTo_spec
    (s := br.put (2 ^ (i + 1)) (bitReverse bits (2 ^ (i + 1))))
    (fun k b => b.size = 2 ^ bits ∧ b.Holds (2 ^ (i + 1) + 1 + k) (bitReverse bits))
    ⟨hsize, hbegin⟩ fun k hk b hb => bitReversalFill_spec hbits hi hk hb.1 hb.2
  refine ⟨br', ?_, hsize', ?_⟩
  · simp only [bitReversalRound, hfirst, hpow, hhalf, Option.bind_eq_bind, Option.bind_some]
    rw [Cells.write_eq (by omega), Option.bind_some, hfill]
    rfl
  · rwa [show 2 ^ (i + 1) + 1 + (2 ^ (i + 1) - 1) = 2 ^ (i + 2) by omega] at hheld

theorem initBitReversal_spec {bits : ℕ} (hlow : 2 ≤ bits) (hbits : bits ≤ 14) {br : Cells ℕ}
    (hsize : br.size = 2 ^ bits) :
    ∃ br', initBitReversal bits br = some br' ∧ br'.Holds (2 ^ bits) (bitReverse bits) := by
  obtain ⟨m, rfl⟩ : ∃ m, bits = m + 2 := ⟨bits - 2, by omega⟩
  have hpow : 2 ^ (m + 2) = 4 * 2 ^ m := by ring
  have hpos := Nat.two_pow_pos m
  have hone : 2 ^ (m + 2) / 2 % 2 ^ 16 = bitReverse (m + 2) 1 := by
    have hrev := bitReverse_two_pow (m := m + 2) (i := 0) (by omega)
    rw [pow_zero] at hrev
    rw [← bitReversal_mod hbits, hrev, show m + 2 - 1 - 0 = m + 1 by omega, pow_succ,
      Nat.mul_div_cancel _ Nat.two_pos]
  have hbegin : Cells.Holds ((br.put 0 0).put 1 (bitReverse (m + 2) 1)) (2 ^ (0 + 1))
      (bitReverse (m + 2)) := by
    intro p hp
    rw [Cells.read_put (by rw [Cells.size_put]; omega)]
    split_ifs with heq
    · rw [heq]
    · obtain rfl : p = 0 := by simp at hp; omega
      rw [Cells.read_put_self (by omega), bitReverse_zero_right]
  have hrounds : ∀ k < m + 1, ∀ s : Cells ℕ × ℕ,
      (s.2 = 2 ^ k ∧ s.1.size = 2 ^ (m + 2) ∧ s.1.Holds (2 ^ (k + 1)) (bitReverse (m + 2))) →
        ∃ s', bitReversalRound s = some s' ∧ s'.2 = 2 ^ (k + 1) ∧ s'.1.size = 2 ^ (m + 2) ∧
          s'.1.Holds (2 ^ (k + 1 + 1)) (bitReverse (m + 2)) := by
    rintro k hk ⟨b, je⟩ ⟨rfl, hb, hheld⟩
    obtain ⟨b', hround, hb', hheld'⟩ := bitReversalRound_spec hbits (by omega) hb hheld
    exact ⟨_, hround, rfl, hb', hheld'⟩
  obtain ⟨s, hloop, -, -, hheld⟩ := countTo_spec
    (s := ((br.put 0 0).put 1 (bitReverse (m + 2) 1), 1)) _ ⟨rfl, hsize, hbegin⟩ hrounds
  refine ⟨s.1, ?_, hheld⟩
  simp only [initBitReversal, hone, Option.bind_eq_bind]
  rw [Cells.write_eq (by omega), Option.bind_some,
    Cells.write_eq (by rw [Cells.size_put]; omega), Option.bind_some,
    show m + 2 - 1 = m + 1 by omega, hloop]
  rfl

/-! ## Twiddles -/

/-- What the rounds before `k` have written, of a table with the quarter `m`. -/
def written (m k : ℕ) : Set ℕ :=
  {p | p = 0 ∨ p = m ∨ p = 2 * m ∨ ∃ i, 1 ≤ i ∧ i ≤ k ∧ (p = m + i ∨ p = m - i ∨ p = 3 * m - i)}

theorem cosTurns_part {n : ℕ} (i : ℕ) :
    cosTurns ((i : ℚ) / n) = Real.cos (2 * Real.pi * (i / n)) := by
  simp [cosTurns]

theorem part_add {m : ℕ} (hm : 0 < m) (i : ℕ) :
    2 * Real.pi * (((m + i : ℕ) : ℝ) / (4 * m : ℕ)) =
      2 * Real.pi * ((i : ℝ) / (4 * m : ℕ)) + Real.pi / 2 := by
  have hm' : (m : ℝ) ≠ 0 := Nat.cast_ne_zero.2 hm.ne'
  push_cast
  field_simp
  ring

/-- A quarter of a turn further the sine is the cosine. -/
theorem sinPart_add_quarter {m : ℕ} (hm : 0 < m) (i : ℕ) :
    sinPart (4 * m) (m + i) = cosTurns ((i : ℚ) / (4 * m : ℕ)) := by
  rw [cosTurns_part, sinPart, part_add hm, Real.sin_add_pi_div_two]

theorem sinPart_quarter_sub {m i : ℕ} (hm : 0 < m) (hi : i ≤ m) :
    sinPart (4 * m) (m - i) = cosTurns ((i : ℚ) / (4 * m : ℕ)) := by
  have hadd := part_add hm i
  have hsub : 2 * Real.pi * (((m - i : ℕ) : ℝ) / (4 * m : ℕ)) =
      Real.pi / 2 - 2 * Real.pi * ((i : ℝ) / (4 * m : ℕ)) := by
    have hm' : (m : ℝ) ≠ 0 := Nat.cast_ne_zero.2 hm.ne'
    rw [Nat.cast_sub hi]
    push_cast
    field_simp
    ring
  rw [cosTurns_part, sinPart, hsub, Real.sin_pi_div_two_sub]

theorem sinPart_three_quarters_sub {m i : ℕ} (hm : 0 < m) (hi : i ≤ m) :
    sinPart (4 * m) (3 * m - i) = -cosTurns ((i : ℚ) / (4 * m : ℕ)) := by
  have hsub : 2 * Real.pi * (((3 * m - i : ℕ) : ℝ) / (4 * m : ℕ)) =
      Real.pi / 2 - 2 * Real.pi * ((i : ℝ) / (4 * m : ℕ)) + Real.pi := by
    have hm' : (m : ℝ) ≠ 0 := Nat.cast_ne_zero.2 hm.ne'
    rw [Nat.cast_sub (by omega)]
    push_cast
    field_simp
    ring
  rw [cosTurns_part, sinPart, hsub, Real.sin_add_pi, Real.sin_pi_div_two_sub]

theorem written_succ (m k : ℕ) :
    written m (k + 1) =
      insert (3 * m - (k + 1)) (insert (m - (k + 1)) (insert (m + (k + 1)) (written m k))) := by
  ext p
  simp only [written, Set.mem_ofPred_eq, Set.mem_insert_iff]
  constructor
  · rintro (h | h | h | ⟨i, hlow, hhigh, h⟩)
    · simp [h]
    · simp [h]
    · simp [h]
    · obtain hlt | rfl := Nat.lt_or_eq_of_le hhigh
      · exact Or.inr (Or.inr (Or.inr (Or.inr (Or.inr (Or.inr ⟨i, hlow, by omega, h⟩)))))
      · omega
  · rintro (h | h | h | h | h | h | ⟨i, hlow, hhigh, h⟩)
    · exact Or.inr (Or.inr (Or.inr ⟨k + 1, by omega, le_rfl, Or.inr (Or.inr h)⟩))
    · exact Or.inr (Or.inr (Or.inr ⟨k + 1, by omega, le_rfl, Or.inr (Or.inl h)⟩))
    · exact Or.inr (Or.inr (Or.inr ⟨k + 1, by omega, le_rfl, Or.inl h⟩))
    · exact Or.inl h
    · exact Or.inr (Or.inl h)
    · exact Or.inr (Or.inr (Or.inl h))
    · exact Or.inr (Or.inr (Or.inr ⟨i, hlow, by omega, h⟩))

theorem twiddleRound_spec {m k : ℕ} (hk : k + 1 < m) {w : Cells ℝ} (hsize : w.size = 3 * m)
    (h : w.Agrees (written m k) (sinPart (4 * m))) :
    ∃ w', twiddleRound cosTurns (4 * m) k w = some w' ∧ w'.size = 3 * m ∧
      w'.Agrees (written m (k + 1)) (sinPart (4 * m)) := by
  have hm : 0 < m := by omega
  have hquarter : 4 * m / 4 = m := Nat.mul_div_cancel_left m (by omega)
  have hhalf : 4 * m / 2 = 2 * m := by omega
  have hthree : m + 2 * m - (k + 1) = 3 * m - (k + 1) := by omega
  have hfirst := h.put (i := m + (k + 1)) (by omega)
  have hsecond := hfirst.put (i := m - (k + 1)) (by rw [Cells.size_put]; omega)
  have hthird := hsecond.put (i := 3 * m - (k + 1)) (by simp only [Cells.size_put]; omega)
  rw [← written_succ, sinPart_add_quarter hm, sinPart_quarter_sub hm (by omega),
    sinPart_three_quarters_sub hm (by omega)] at hthird
  refine ⟨_, ?_, ?_, hthird⟩
  · simp only [twiddleRound, hquarter, hhalf, hthree, Option.bind_eq_bind]
    rw [Cells.write_eq (by omega), Option.bind_some, Cells.write_eq (by rw [Cells.size_put]; omega),
      Option.bind_some, Cells.write_eq (by simp only [Cells.size_put]; omega)]
  · exact hsize

theorem initTwiddles_spec {m : ℕ} (hm : 0 < m) {w : Cells ℝ} (hsize : w.size = 3 * m) :
    ∃ w', initTwiddles cosTurns (4 * m) w = some w' ∧ w'.Holds (3 * m) (sinPart (4 * m)) := by
  have hquarter : 4 * m / 4 = m := Nat.mul_div_cancel_left m (by omega)
  have hhalf : 4 * m / 2 = 2 * m := by omega
  have hzero : sinPart (4 * m) 0 = 0 := by simp [sinPart]
  have hone : sinPart (4 * m) m = 1 := by simpa [cosTurns] using sinPart_add_quarter hm 0
  have htwo : sinPart (4 * m) (2 * m) = 0 := by
    have hquarter' := sinPart_add_quarter hm m
    have hpart : 2 * Real.pi * ((m : ℝ) / (4 * m : ℕ)) = Real.pi / 2 := by
      simpa using part_add hm 0
    rw [cosTurns_part, hpart, Real.cos_pi_div_two] at hquarter'
    rwa [two_mul]
  have hnone : w.Agrees ∅ (sinPart (4 * m)) := fun p hp => absurd hp (Set.notMem_empty p)
  have hfirst := ((hnone.put (i := 0) (by omega)).put (i := 2 * m) (by rw [Cells.size_put]; omega)).put
    (i := m) (by simp only [Cells.size_put]; omega)
  rw [hzero, hone, htwo] at hfirst
  have hbegin : (((w.put 0 0).put (2 * m) 0).put m 1).Agrees (written m 0) (sinPart (4 * m)) := by
    apply hfirst.mono
    rintro p (h | h | h | ⟨i, hlow, hhigh, -⟩)
    · simp [h]
    · simp [h]
    · simp [h]
    · omega
  have hrounds : ∀ k < m - 1, ∀ w : Cells ℝ,
      w.size = 3 * m ∧ w.Agrees (written m k) (sinPart (4 * m)) →
        ∃ w', twiddleRound cosTurns (4 * m) k w = some w' ∧ w'.size = 3 * m ∧
          w'.Agrees (written m (k + 1)) (sinPart (4 * m)) :=
    fun k hk w hw => twiddleRound_spec (by omega) hw.1 hw.2
  obtain ⟨w', hloop, -, hheld⟩ := countTo_spec
    (s := ((w.put 0 0).put (2 * m) 0).put m 1)
    (fun k w => w.size = 3 * m ∧ w.Agrees (written m k) (sinPart (4 * m))) ⟨hsize, hbegin⟩ hrounds
  refine ⟨w', ?_, fun p hp => hheld p ?_⟩
  · simp only [initTwiddles, hquarter, hhalf, Option.bind_eq_bind]
    rw [Cells.write_eq (by omega), Option.bind_some, Cells.write_eq (by rw [Cells.size_put]; omega),
      Option.bind_some, Cells.write_eq (by simp only [Cells.size_put]; omega), Option.bind_some]
    exact hloop
  · by_cases hlow : p < m
    · rcases Nat.eq_zero_or_pos p with hp0 | hp0
      · exact Or.inl hp0
      · exact Or.inr (Or.inr (Or.inr ⟨m - p, by omega, by omega, Or.inr (Or.inl (by omega))⟩))
    · by_cases hmid : p < 2 * m
      · rcases Nat.eq_or_lt_of_not_lt hlow with heq | hlt
        · exact Or.inr (Or.inl heq)
        · exact Or.inr (Or.inr (Or.inr ⟨p - m, by omega, by omega, Or.inl (by omega)⟩))
      · rcases Nat.eq_or_lt_of_not_lt hmid with heq | hlt
        · exact Or.inr (Or.inr (Or.inl heq))
        · exact Or.inr (Or.inr (Or.inr ⟨3 * m - p, by omega, by omega, Or.inr (Or.inr (by omega))⟩))

/-! ## The engine -/

/-- The engine is set up for `2 ^ b` samples. -/
structure Ready (b : ℕ) (window : FftWindow) (e : FftEngine ℝ) : Prop where
  bits : e.bits = b
  low : 2 ≤ b
  fr : e.fr.size = 2 ^ b
  fi : e.fi.size = 2 ^ b
  br : e.br.Holds (2 ^ b) (bitReverse b)
  w : e.w.Holds (2 ^ b * 3 / 4) (sinPart (2 ^ b))
  wnd : match e.wnd with
    | none => window = .rectangular
    | some wnd => wnd.Holds (2 ^ b) (windowAt cosTurns window (2 ^ b))
  outScale : e.outScale = 2 / ∑ i ∈ Finset.range (2 ^ b), windowAt cosTurns window (2 ^ b) i

theorem coherentGain_spec {n : ℕ} {wnd : Cells ℝ} {f : ℕ → ℝ} (h : wnd.Holds n f) :
    coherentGain n (some wnd) = some ((∑ i ∈ Finset.range n, f i) / n) := by
  have hadd : ∀ k < n, ∀ sum, sum = ∑ i ∈ Finset.range k, f i →
      ∃ sum', addAt wnd k sum = some sum' ∧ sum' = ∑ i ∈ Finset.range (k + 1), f i := by
    rintro k hk sum rfl
    exact ⟨_, by rw [addAt, h k hk]; rfl, (Finset.sum_range_succ f k).symm⟩
  obtain ⟨sum, hloop, hsum⟩ := countTo_spec (s := (0 : ℝ)) _ (Finset.sum_range_zero f).symm hadd
  simp only [coherentGain, hloop, hsum]
  rfl

theorem initWindow_spec (window : FftWindow) {n : ℕ} {wnd : Cells ℝ} (hsize : wnd.size = n) :
    ∃ wnd', initWindow cosTurns window n wnd = some wnd' ∧
      wnd'.Holds n (windowAt cosTurns window n) := by
  obtain ⟨wnd', hloop, -, hheld⟩ := countTo_fill (f := windowAt cosTurns window n) hsize.ge
    fun _ _ _ => rfl
  exact ⟨wnd', hloop, hheld⟩

/-- What `begin` does once there is heap. -/
theorem begin_tables {b : ℕ} (hlow : 2 ≤ b) (hhigh : b ≤ 14) :
    ∃ br w, initBitReversal b (.alloc (2 ^ b)) = some br ∧ br.Holds (2 ^ b) (bitReverse b) ∧
      initTwiddles cosTurns (2 ^ b) (.alloc (2 ^ b * 3 / 4)) = some w ∧
      w.Holds (2 ^ b * 3 / 4) (sinPart (2 ^ b)) := by
  obtain ⟨br, hbr, hrev⟩ := initBitReversal_spec hlow hhigh (Cells.size_alloc (2 ^ b))
  obtain ⟨c, rfl⟩ : ∃ c, b = c + 2 := ⟨b - 2, by omega⟩
  have hquarter : 2 ^ (c + 2) = 4 * 2 ^ c := by ring
  have hthree : 2 ^ (c + 2) * 3 / 4 = 3 * 2 ^ c := by omega
  obtain ⟨w, hw, hsin⟩ := initTwiddles_spec (Nat.two_pow_pos c) (Cells.size_alloc (3 * 2 ^ c))
  exact ⟨br, w, hbr, hrev, by rw [hthree, hquarter, hw], by rwa [hthree, hquarter]⟩

/-- **The tables.**  Whatever it is asked for, `begin` accesses no cell that it should not; it answers
`true` for 4 to 16384 samples where there is heap, and then the engine is ready. -/
theorem begin_spec (b : ℕ) (window : FftWindow) (heap wndHeap : Bool) :
    ∃ ok e, begin cosTurns b window heap wndHeap = some (ok, e) ∧
      (ok = true ↔ 2 ≤ b ∧ b ≤ 14 ∧ heap = true ∧ (window ≠ .rectangular → wndHeap = true)) ∧
      (ok = true → Ready b window e) ∧ (ok = false → e.bits = 0) := by
  by_cases hno : b < 2 ∨ 14 < b ∨ !heap ∨ (window ≠ .rectangular ∧ !wndHeap)
  · refine ⟨false, _, if_pos hno, ?_, fun h => absurd h Bool.false_ne_true, fun _ => rfl⟩
    constructor
    · intro h
      cases h
    · rintro ⟨hlow, hhigh, hheap, hwnd⟩
      obtain h | h | h | ⟨hwindow, h⟩ := hno
      · omega
      · omega
      · simp [hheap] at h
      · simp [hwnd hwindow] at h
  · have hyes : 2 ≤ b ∧ b ≤ 14 ∧ heap = true ∧ (window ≠ .rectangular → wndHeap = true) := by
      push Not at hno
      simpa using hno
    obtain ⟨br, w, hbr, hrev, hw, hsin⟩ := begin_tables hyes.1 hyes.2.1
    have hn : ((2 ^ b : ℕ) : ℝ) ≠ 0 := Nat.cast_ne_zero.2 (Nat.two_pow_pos b).ne'
    by_cases hwindow : window = .rectangular
    · refine ⟨true, withTables b 1 none br w, ?_, by simpa using hyes, fun _ => ?_, by simp⟩
      · rw [begin, if_neg hno]
        simp only [hbr, hw, if_pos hwindow]
        rfl
      · refine ⟨rfl, hyes.1, rfl, rfl, hrev, hsin, hwindow, ?_⟩
        simp [withTables, hwindow, windowAt]
    · obtain ⟨wnd, hwnd, hheld⟩ := initWindow_spec window (Cells.size_alloc (2 ^ b))
      have hgain := coherentGain_spec hheld
      set sum := ∑ i ∈ Finset.range (2 ^ b), windowAt cosTurns window (2 ^ b) i with hsum
      refine ⟨true, withTables b (sum / (2 ^ b : ℕ)) (some wnd) br w, ?_, by simpa using hyes,
        fun _ => ?_, by simp⟩
      · rw [begin, if_neg hno]
        simp only [hbr, hw, if_neg hwindow, hwnd, Option.bind_eq_bind, Option.bind_some,
          Option.map_some, hgain]
        rfl
      · refine ⟨rfl, hyes.1, rfl, rfl, hrev, hsin, hheld, ?_⟩
        rw [withTables, mul_div_cancel₀ _ hn]

end FftEngine

end Pumpbug.Util
