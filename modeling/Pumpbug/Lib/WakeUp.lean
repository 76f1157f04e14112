import Mathlib.Logic.Basic
import Mathlib.Data.List.Basic

/-!
# Wake-up counters

A device takes one step after another; some steps change what a reader can see of it, and some bump
a counter.  The reader looks only when the counter has moved.  It sees the final view of a run if
every change of the view is followed by a bump: the run *announces* its changes.
-/

namespace Lib

variable {δ μ β : Type*}

/-- Every step of the run from `d` that changes the view comes before a bump. -/
def Announces (exec : δ → μ → δ) (view : δ → β) (bump : μ) : δ → List μ → Prop
  | _, [] => True
  | d, m :: ms => (view (exec d m) ≠ view d → bump ∈ ms) ∧ Announces exec view bump (exec d m) ms

section Announces

variable {exec : δ → μ → δ} {view : δ → β} {bump : μ} {d : δ}

@[simp] theorem announces_nil : Announces exec view bump d [] := trivial

@[simp] theorem announces_cons {m : μ} {ms : List μ} :
    Announces exec view bump d (m :: ms) ↔
      (view (exec d m) ≠ view d → bump ∈ ms) ∧ Announces exec view bump (exec d m) ms := Iff.rfl

/-- Two runs in a row: the changes of the first may be left to a bump of the second. -/
theorem announces_append {ms ns : List μ} (hm : Announces exec view bump d ms ∨ bump ∈ ns)
    (hn : Announces exec view bump (ms.foldl exec d) ns) : Announces exec view bump d (ms ++ ns) := by
  induction ms generalizing d with
  | nil => exact hn
  | cons m ms ih =>
    rw [List.cons_append, announces_cons]
    constructor
    · intro hchange
      apply List.mem_append.2
      rcases hm with hm | hbump
      · exact Or.inl (hm.1 hchange)
      · exact Or.inr hbump
    · apply ih
      · exact hm.imp (fun hm => hm.2) id
      · exact hn

/-- A run that ends with a bump announces everything. -/
theorem announces_concat (hview : ∀ d, view (exec d bump) = view d) (ms : List μ) :
    Announces exec view bump d (ms ++ [bump]) := by
  apply announces_append
  · exact Or.inr (List.mem_singleton_self bump)
  · simp [hview]

/-- A run without a bump announces its changes if there are none. -/
theorem announces_cons_of_silent {m : μ} {ms : List μ} (h : bump ∉ ms) :
    Announces exec view bump d (m :: ms) ↔
      view (exec d m) = view d ∧ Announces exec view bump (exec d m) ms := by
  rw [announces_cons]
  constructor
  · rintro ⟨hm, hms⟩
    exact ⟨by_contra fun hchange => h (hm hchange), hms⟩
  · rintro ⟨hm, hms⟩
    exact ⟨fun hchange => absurd hm hchange, hms⟩

end Announces

/-! ## A reader of the counter -/

section Reader

variable {exec : δ → μ → δ} {view : δ → β} {bump : μ} {count : δ → ℕ}

/-- The reader has a reason to look again: the counter is not what it saw last, or will not stay so. -/
def Due (count : δ → ℕ) (bump : μ) (seen : Option ℕ) (d : δ) (ms : List μ) : Prop :=
  seen ≠ some (count d) ∨ bump ∈ ms

/-- What the reader saw last is not ahead of the counter. -/
def Behind (count : δ → ℕ) (seen : Option ℕ) (d : δ) : Prop := ∀ n, seen = some n → n ≤ count d

theorem Behind.step {seen : Option ℕ} {d : δ} {m : μ} (hbump : ∀ d, count (exec d bump) = count d + 1)
    (hother : ∀ d m, m ≠ bump → count (exec d m) = count d) (h : Behind count seen d) :
    Behind count seen (exec d m) := by
  intro n hn
  have hle := h n hn
  by_cases hm : m = bump
  · rw [hm, hbump]
    omega
  · rw [hother d m hm]
    exact hle

/-- **Step lemma.** As the device goes on with a run that announces its changes, a reader that has no
reason to look again knows what it knew: its view is still the device's. -/
theorem due_or_known_step {seen : Option ℕ} {d : δ} {m : μ} {ms : List μ} {Knows : β → Prop}
    (hbump : ∀ d, count (exec d bump) = count d + 1)
    (hother : ∀ d m, m ≠ bump → count (exec d m) = count d)
    (ha : Announces exec view bump d (m :: ms)) (hbehind : Behind count seen d)
    (h : Due count bump seen d (m :: ms) ∨ Knows (view d)) :
    Due count bump seen (exec d m) ms ∨ Knows (view (exec d m)) := by
  by_cases hm : m = bump
  · left
    left
    intro hseen
    have hle := hbehind _ hseen
    rw [hm, hbump] at hle
    omega
  · by_cases hchange : view (exec d m) = view d
    · rw [hchange]
      refine h.imp_left fun hdue => hdue.imp (fun hseen => ?_) fun hmem => ?_
      · rwa [hother d m hm]
      · exact (List.mem_cons.1 hmem).resolve_left fun heq => hm heq.symm
    · exact Or.inl (Or.inr (ha.1 hchange))

end Reader

end Lib
