import Mathlib.Data.List.Basic

/-!
# Scanning a stream for frames

A scanner looks at the front of a stream and skips one item, accepts a frame of some length, or
waits for more.  If a verdict once given stands when the stream grows, the scan of a stream can be
resumed from what the scanner was left waiting at; so it does not matter where the stream was cut.
-/

namespace Lib.Scan

inductive Verdict
  | skip
  | wait
  | accept (len : ℕ)
  deriving DecidableEq

variable {α : Type*} (verdict : List α → Verdict)

/-- The frames of the stream behind its first items, and what the scanner is left waiting at. -/
def scanFrom : ℕ → List α → List (List α) × List α
  | _, [] => ([], [])
  | k + 1, _ :: l => scanFrom k l
  | 0, a :: l =>
    match verdict (a :: l) with
    | .skip => scanFrom 0 l
    | .wait => ([], a :: l)
    | .accept len => ((a :: l).take len :: (scanFrom (len - 1) l).1, (scanFrom (len - 1) l).2)

def scan (l : List α) : List (List α) × List α := scanFrom verdict 0 l

/-- Verdicts stand when the stream grows, and accepted frames are there. -/
structure Stable : Prop where
  skip : ∀ {l}, l ≠ [] → verdict l = .skip → ∀ m, verdict (l ++ m) = .skip
  accept : ∀ {l len}, verdict l = .accept len → ∀ m, verdict (l ++ m) = .accept len
  pos : ∀ {l len}, verdict l = .accept len → 0 < len
  fits : ∀ {l len}, verdict l = .accept len → len ≤ l.length

variable {verdict}

theorem scanFrom_eq (k : ℕ) (l : List α) : scanFrom verdict k l = scan verdict (l.drop k) := by
  induction k generalizing l with
  | zero => rfl
  | succ k ih =>
    cases l with
    | nil => rfl
    | cons a l =>
      unfold scanFrom
      rw [ih, List.drop_succ_cons]

@[simp] theorem scan_nil : scan verdict [] = ([], []) := rfl

theorem scan_skip {a : α} {l : List α} (h : verdict (a :: l) = .skip) :
    scan verdict (a :: l) = scan verdict l := by
  unfold scan
  rw [scanFrom, h]

theorem scan_wait {l : List α} (h : verdict l = .wait) : scan verdict l = ([], l) := by
  cases l with
  | nil => rfl
  | cons a l =>
    unfold scan
    rw [scanFrom, h]

theorem scan_accept {l : List α} {len : ℕ} (hs : Stable verdict) (h : verdict l = .accept len) :
    scan verdict l =
      (l.take len :: (scan verdict (l.drop len)).1, (scan verdict (l.drop len)).2) := by
  have hpos := hs.pos h
  have hfits := hs.fits h
  cases l with
  | nil =>
    rw [List.length_nil] at hfits
    omega
  | cons a l =>
    obtain ⟨k, rfl⟩ : ∃ k, len = k + 1 := ⟨len - 1, by omega⟩
    rw [List.drop_succ_cons, ← scanFrom_eq]
    show scanFrom verdict 0 (a :: l) = _
    rw [scanFrom, h]
    rfl

/-- The scanner is left with nothing, or waiting. -/
theorem scan_rest (hs : Stable verdict) (l : List α) :
    (scan verdict l).2 = [] ∨ verdict (scan verdict l).2 = .wait := by
  induction hn : l.length using Nat.strongRecOn generalizing l with
  | ind n ih =>
    subst hn
    cases l with
    | nil => exact .inl rfl
    | cons a l =>
      cases h : verdict (a :: l) with
      | skip =>
        rw [scan_skip h]
        exact ih l.length (by simp) l rfl
      | wait =>
        rw [scan_wait h]
        exact .inr h
      | accept len =>
        have hpos := hs.pos h
        rw [scan_accept hs h]
        refine ih _ ?_ _ rfl
        rw [List.length_drop, List.length_cons]
        omega

/-- Accepted frames are stretches of the stream. -/
theorem scan_infix (hs : Stable verdict) (l : List α) : ∀ frame ∈ (scan verdict l).1, frame <:+: l := by
  induction hn : l.length using Nat.strongRecOn generalizing l with
  | ind n ih =>
    subst hn
    intro frame hframe
    cases l with
    | nil => exact absurd hframe List.not_mem_nil
    | cons a l =>
      cases h : verdict (a :: l) with
      | skip =>
        rw [scan_skip h] at hframe
        exact (ih l.length (by simp) l rfl frame hframe).trans (List.suffix_cons a l).isInfix
      | wait =>
        rw [scan_wait h] at hframe
        exact absurd hframe List.not_mem_nil
      | accept len =>
        have hpos := hs.pos h
        rw [scan_accept hs h] at hframe
        rcases List.mem_cons.1 hframe with rfl | hrest
        · exact (List.take_prefix len _).isInfix
        · have hlt : ((a :: l).drop len).length < (a :: l).length := by
            rw [List.length_drop, List.length_cons]
            omega
          exact (ih _ hlt _ rfl frame hrest).trans (List.drop_suffix len _).isInfix

/-- **Resuming.** The scan of a longer stream goes on from where the scan of the shorter one
waits. -/
theorem scan_append (hs : Stable verdict) (l m : List α) :
    scan verdict (l ++ m) = ((scan verdict l).1 ++ (scan verdict ((scan verdict l).2 ++ m)).1,
      (scan verdict ((scan verdict l).2 ++ m)).2) := by
  induction hn : l.length using Nat.strongRecOn generalizing l with
  | ind n ih =>
    subst hn
    cases l with
    | nil => simp
    | cons a l =>
      cases h : verdict (a :: l) with
      | skip =>
        have h' := hs.skip (by simp) h m
        rw [List.cons_append] at h'
        rw [List.cons_append, scan_skip h', scan_skip h]
        exact ih l.length (by simp) l rfl
      | wait =>
        rw [scan_wait h]
        simp
      | accept len =>
        have hpos := hs.pos h
        have hfits := hs.fits h
        have hlt : ((a :: l).drop len).length < (a :: l).length := by
          rw [List.length_drop, List.length_cons]
          omega
        rw [scan_accept hs (hs.accept h m), scan_accept hs h, List.take_append_of_le_length hfits,
          List.drop_append_of_le_length hfits, ih _ hlt _ rfl]
        simp

end Lib.Scan
