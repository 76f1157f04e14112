import Mathlib

/-!
# Rings of the last entries

A ring of `N` slots with a 32-bit count of what was written since it was cleared.  It stands for the
entries since then, newest first, as long as the count does not wrap; a snapshot is their first `N`.
-/

namespace Lib

structure Ring (α : Type*) (N : ℕ) where
  items : Fin N → α
  writes : BitVec 32

namespace Ring

variable {α : Type*} {N : ℕ} [NeZero N]

def push (r : Ring α N) (e : α) : Ring α N where
  items := Function.update r.items (Fin.ofNat N r.writes.toNat) e
  writes := r.writes + 1

def clear (r : Ring α N) : Ring α N := { r with writes := 0 }

/-- The newest entries first, at most `max` of them. -/
def snapshot (r : Ring α N) (max : ℕ) : List α :=
  let count := if r.writes.toNat < N then r.writes.toNat else N
  let n := if count < max then count else max
  (List.range n).map fun i => r.items (Fin.ofNat N (r.writes.toNat - 1 - i))

/-- The entries `hist`, newest first, were written since the ring was cleared. -/
structure Holds (r : Ring α N) (hist : List α) : Prop where
  writes : r.writes.toNat = hist.length
  slot : ∀ i (h : i < hist.length), i < N → r.items (Fin.ofNat N (hist.length - 1 - i)) = hist.get ⟨i, h⟩

variable {r : Ring α N} {hist : List α}

theorem holds_nil (h : r.writes = 0) : r.Holds [] where
  writes := by rw [h]; rfl
  slot i hi := absurd hi (Nat.not_lt_zero i)

theorem holds_clear (r : Ring α N) : r.clear.Holds [] := holds_nil rfl

/-- Two of the last `N` counts have different slots. -/
theorem ofNat_ne {m i : ℕ} (hi : 0 < i) (hiN : i < N) (him : i ≤ m) :
    Fin.ofNat N (m - i) ≠ Fin.ofNat N m := by
  intro heq
  have hmod : (m - i) % N = m % N := congrArg Fin.val heq
  have hdvd : N ∣ m - (m - i) := (Nat.modEq_iff_dvd' (Nat.sub_le m i)).1 hmod
  have hle := Nat.le_of_dvd (by omega) hdvd
  omega

theorem Holds.push (h : r.Holds hist) (hfew : hist.length + 1 < 2 ^ 32) (e : α) :
    (r.push e).Holds (e :: hist) where
  writes := by
    rw [Ring.push, BitVec.toNat_add, h.writes, List.length_cons]
    exact Nat.mod_eq_of_lt hfew
  slot i hi hiN := by
    rw [Ring.push, h.writes]
    cases i with
    | zero => simp
    | succ i =>
      have hi' : i < hist.length := by simpa using hi
      have hne : Fin.ofNat N (hist.length - (i + 1)) ≠ Fin.ofNat N hist.length :=
        ofNat_ne (Nat.succ_pos i) hiN (by omega)
      have hslot := h.slot i hi' (by omega)
      have hidx : hist.length - 1 - i = hist.length - (i + 1) := by omega
      rw [hidx] at hslot
      simp only [List.length_cons, Nat.add_sub_cancel]
      rw [Function.update_of_ne hne, hslot]
      rfl

theorem Holds.snapshot (h : r.Holds hist) (max : ℕ) :
    r.snapshot max = (hist.take N).take max := by
  have hcount : (if r.writes.toNat < N then r.writes.toNat else N) = (hist.take N).length := by
    rw [h.writes, List.length_take]
    split <;> omega
  have hn : (if (hist.take N).length < max then (hist.take N).length else max) =
      ((hist.take N).take max).length := by
    simp only [List.length_take]
    split <;> omega
  rw [Ring.snapshot, hcount, hn]
  refine List.ext_get (by simp) fun i hi hi' => ?_
  have hlen : i < hist.length ∧ i < N := by
    simp only [List.length_take] at hi'
    omega
  simp only [List.get_eq_getElem, List.getElem_map, List.getElem_range, List.getElem_take]
  rw [h.writes, h.slot i hlen.1 hlen.2]
  rfl

end Ring

end Lib
