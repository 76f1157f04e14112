import Mathlib.Data.List.Basic
import Mathlib.Data.Set.Insert
import Mathlib.Logic.Function.Basic

/-!
# Memory blocks

A block of cells as the heap gives it: it has a size, and a cell has no value before it is written.
To read such a cell, and to read or write past the end, fails; so what succeeds has done neither.
`countTo` is a counted loop over steps that may fail.
-/

namespace Lib

structure Cells (α : Type*) where
  size : ℕ
  cell : ℕ → Option α

namespace Cells

variable {α : Type*} {c : Cells α}

/-- A new block. -/
def alloc (n : ℕ) : Cells α := ⟨n, fun _ => none⟩

/-- A block with the values of `f`. -/
def ofFn (n : ℕ) (f : ℕ → α) : Cells α := ⟨n, fun i => some (f i)⟩

def read (c : Cells α) (i : ℕ) : Option α := if i < c.size then c.cell i else none

/-- The block with the value `a` at `i`. -/
def put (c : Cells α) (i : ℕ) (a : α) : Cells α :=
  { c with cell := Function.update c.cell i (some a) }

def write (c : Cells α) (i : ℕ) (a : α) : Option (Cells α) :=
  if i < c.size then some (c.put i a) else none

@[simp] theorem size_alloc (n : ℕ) : (alloc n : Cells α).size = n := rfl

@[simp] theorem size_ofFn (n : ℕ) (f : ℕ → α) : (ofFn n f).size = n := rfl

@[simp] theorem size_put (c : Cells α) (i : ℕ) (a : α) : (c.put i a).size = c.size := rfl

theorem read_ofFn {n i : ℕ} (h : i < n) (f : ℕ → α) : (ofFn n f).read i = some (f i) := if_pos h

theorem write_eq {i : ℕ} (h : i < c.size) (a : α) : c.write i a = some (c.put i a) := if_pos h

theorem read_put_self {i : ℕ} (h : i < c.size) (a : α) : (c.put i a).read i = some a := by
  simp [read, put, h]

theorem read_put_of_ne {i j : ℕ} (h : i ≠ j) (a : α) : (c.put j a).read i = c.read i := by
  simp [read, put, h]

theorem read_put {i j : ℕ} (h : j < c.size) (a : α) :
    (c.put j a).read i = if i = j then some a else c.read i := by
  split_ifs with heq
  · rw [heq, read_put_self h]
  · exact read_put_of_ne heq a

/-- The block has the values of `f` at the places of `S`. -/
def Agrees (c : Cells α) (S : Set ℕ) (f : ℕ → α) : Prop := ∀ i ∈ S, c.read i = some (f i)

theorem Agrees.mono {S T : Set ℕ} {f : ℕ → α} (h : c.Agrees S f) (hT : T ⊆ S) : c.Agrees T f :=
  fun i hi => h i (hT hi)

theorem Agrees.put {S : Set ℕ} {f : ℕ → α} (h : c.Agrees S f) {i : ℕ} (hi : i < c.size) :
    (c.put i (f i)).Agrees (insert i S) f := by
  intro j hj
  rw [read_put hi]
  split_ifs with heq
  · rw [heq]
  · exact h j (hj.resolve_left heq)

/-- The block begins with the first `n` values of `f`. -/
def Holds (c : Cells α) (n : ℕ) (f : ℕ → α) : Prop := ∀ i < n, c.read i = some (f i)

theorem Holds.put {n : ℕ} {f : ℕ → α} (h : c.Holds n f) (hn : n < c.size) :
    (c.put n (f n)).Holds (n + 1) f := by
  have hput := Agrees.put (S := {i | i < n}) h hn
  intro i hi
  apply hput
  rcases Nat.lt_succ_iff_lt_or_eq.1 hi with hlt | heq
  · exact Or.inr hlt
  · exact Or.inl heq

end Cells

/-! ## Counted loops -/

section Loop

variable {σ : Type*}

/-- `body 0`, …, `body (n - 1)`, one after another. -/
def countTo (n : ℕ) (body : ℕ → σ → Option σ) (s : σ) : Option σ :=
  (List.range n).foldlM (fun s i => body i s) s

/-- **Loop rule.** Where the body keeps the invariant and does not fail, the loop does not fail, and
the invariant holds after it. -/
theorem countTo_spec {n : ℕ} {body : ℕ → σ → Option σ} {s : σ} (Inv : ℕ → σ → Prop) (h0 : Inv 0 s)
    (hstep : ∀ i < n, ∀ s, Inv i s → ∃ s', body i s = some s' ∧ Inv (i + 1) s') :
    ∃ s', countTo n body s = some s' ∧ Inv n s' := by
  induction n with
  | zero => exact ⟨s, rfl, h0⟩
  | succ n ih =>
    obtain ⟨s', hloop, hinv⟩ := ih fun i hi => hstep i (Nat.lt_succ_of_lt hi)
    obtain ⟨s'', hbody, hinv'⟩ := hstep n (Nat.lt_succ_self n) s' hinv
    refine ⟨s'', ?_, hinv'⟩
    unfold countTo at hloop ⊢
    rw [List.range_succ, List.foldlM_append, hloop]
    simpa using hbody

/-- A loop that fills a block from its beginning. -/
theorem countTo_fill {α : Type*} {n : ℕ} {body : ℕ → Cells α → Option (Cells α)} {c : Cells α}
    {f : ℕ → α} (hroom : n ≤ c.size)
    (hbody : ∀ i < n, ∀ c : Cells α, body i c = c.write i (f i)) :
    ∃ c', countTo n body c = some c' ∧ c'.size = c.size ∧ c'.Holds n f := by
  apply countTo_spec (fun i (c' : Cells α) => c'.size = c.size ∧ c'.Holds i f)
  · exact ⟨rfl, fun i hi => absurd hi (Nat.not_lt_zero i)⟩
  · rintro i hi c' ⟨hsize, hheld⟩
    have hin : i < c'.size := by omega
    exact ⟨c'.put i (f i), by rw [hbody i hi, Cells.write_eq hin], hsize, hheld.put hin⟩

end Loop

end Lib
