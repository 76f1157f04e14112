import Mathlib.Logic.Basic
import Mathlib.Data.List.Basic
import Mathlib.Data.List.Induction

/-!
# Runs of a step function

A system that takes one input after another: `exec` is the state after a list of inputs, and
`Along P` says that `P` holds of every step a run takes, of the state before it and the input.
An invariant established step by step turns a condition along a run into a conclusion along it.
-/

namespace Lib

variable {σ ι : Type*}

/-- The state after the inputs `is`. -/
def exec (step : σ → ι → σ) (s : σ) (is : List ι) : σ := is.foldl step s

/-- Every step of the run from `s` satisfies `P`. -/
def Along (step : σ → ι → σ) (P : σ → ι → Prop) : σ → List ι → Prop
  | _, [] => True
  | s, i :: is => P s i ∧ Along step P (step s i) is

instance Along.decidable {step : σ → ι → σ} {P : σ → ι → Prop} [∀ s i, Decidable (P s i)] :
    ∀ s is, Decidable (Along step P s is)
  | _, [] => isTrue trivial
  | s, i :: is =>
    have : Decidable (Along step P (step s i) is) := Along.decidable (step s i) is
    inferInstanceAs (Decidable (P s i ∧ Along step P (step s i) is))

variable {step : σ → ι → σ} {s : σ}

@[simp] theorem exec_nil : exec step s [] = s := rfl

@[simp] theorem exec_cons (i : ι) (is : List ι) :
    exec step s (i :: is) = exec step (step s i) is := rfl

theorem exec_append (is js : List ι) : exec step s (is ++ js) = exec step (exec step s is) js :=
  List.foldl_append

@[simp] theorem along_nil (P : σ → ι → Prop) : Along step P s [] := trivial

@[simp] theorem along_cons {P : σ → ι → Prop} {i : ι} {is : List ι} :
    Along step P s (i :: is) ↔ P s i ∧ Along step P (step s i) is := Iff.rfl

theorem along_append {P : σ → ι → Prop} {is js : List ι} :
    Along step P s (is ++ js) ↔ Along step P s is ∧ Along step P (exec step s is) js := by
  induction is generalizing s with
  | nil => simp
  | cons i is ih =>
    rw [List.cons_append, along_cons, along_cons, ih, exec_cons, and_assoc]

/-- What holds along a run holds at each of its steps. -/
theorem Along.at_step {P : σ → ι → Prop} {pre post : List ι} {i : ι}
    (h : Along step P s (pre ++ i :: post)) : P (exec step s pre) i :=
  (along_append.1 h).2.1

/-- A property holds along a run when it holds at each step. -/
theorem along_iff_forall_split {P : σ → ι → Prop} {is : List ι} :
    Along step P s is ↔ ∀ pre i post, is = pre ++ i :: post → P (exec step s pre) i := by
  constructor
  · rintro h pre i post rfl
    exact h.at_step
  · intro h
    induction is generalizing s with
    | nil => exact along_nil P
    | cons i is ih =>
      refine ⟨h [] i is rfl, ih fun pre j post e => ?_⟩
      exact h (i :: pre) j post (by rw [e, List.cons_append])

theorem Along.and {P Q : σ → ι → Prop} {is : List ι} (hP : Along step P s is)
    (hQ : Along step Q s is) : Along step (fun s i => P s i ∧ Q s i) s is := by
  induction is generalizing s with
  | nil => exact along_nil _
  | cons i is ih => exact ⟨⟨hP.1, hQ.1⟩, ih hP.2 hQ.2⟩

/-- **Run invariant.** What one admissible step preserves, an admissible run preserves. -/
theorem Along.exec_invariant {P : σ → ι → Prop} (Inv : σ → Prop)
    (hstep : ∀ s i, Inv s → P s i → Inv (step s i)) {is : List ι} (h : Along step P s is)
    (hs : Inv s) : Inv (exec step s is) := by
  induction is generalizing s with
  | nil => exact hs
  | cons i is ih => exact ih h.2 (hstep s i hs h.1)

/-- What every step of a run preserves, the run preserves. -/
theorem exec_invariant (Inv : σ → Prop) {is : List ι} (hstep : ∀ s, ∀ i ∈ is, Inv s → Inv (step s i))
    (hs : Inv s) : Inv (exec step s is) := by
  induction is generalizing s with
  | nil => exact hs
  | cons i is ih =>
    exact ih (fun s j hj => hstep s j (List.mem_cons_of_mem i hj)) (hstep s i List.mem_cons_self hs)

/-- **Transfer along a run.** Under an invariant, a condition on each step gives a property of
it. -/
theorem Along.imp {P Q : σ → ι → Prop} (Inv : σ → Prop)
    (hstep : ∀ s i, Inv s → P s i → Inv (step s i) ∧ Q s i) {is : List ι}
    (h : Along step P s is) (hs : Inv s) : Along step Q s is := by
  induction is generalizing s with
  | nil => exact along_nil Q
  | cons i is ih =>
    obtain ⟨hi, hq⟩ := hstep s i hs h.1
    exact ⟨hq, ih h.2 hi⟩

/-- **Equivalence along a run.** Two conditions on a step that agree under an invariant, which the
first one keeps, hold along the same runs. -/
theorem along_congr {P Q H : σ → ι → Prop} (Inv : σ → Prop)
    (hstep : ∀ s i, Inv s → H s i → (P s i ↔ Q s i) ∧ (P s i → Inv (step s i))) {is : List ι}
    (h : Along step H s is) (hs : Inv s) : Along step P s is ↔ Along step Q s is := by
  induction is generalizing s with
  | nil => exact Iff.rfl
  | cons i is ih =>
    obtain ⟨hiff, hkeep⟩ := hstep s i hs h.1
    rw [along_cons, along_cons, ← hiff]
    exact and_congr_right fun hp => ih h.2 (hkeep hp)

/-- **Two runs.** Steps that keep a relation on corresponding inputs keep it along corresponding
runs. -/
theorem exec_map_rel {τ κ : Type*} {step' : τ → κ → τ} {f : ι → κ} {R : σ → τ → Prop} {P : ι → Prop}
    (hstep : ∀ s t i, R s t → P i → R (step s i) (step' t (f i))) {is : List ι}
    (h : ∀ i ∈ is, P i) {t : τ} (hr : R s t) : R (exec step s is) (exec step' t (is.map f)) := by
  induction is generalizing s t with
  | nil => exact hr
  | cons i is ih =>
    exact ih (fun j hj => h j (List.mem_cons_of_mem i hj)) (hstep s t i hr (h i List.mem_cons_self))

/-- What holds after a run but not before it has held since some step of the run. -/
theorem holds_since {P : σ → Prop} {is : List ι} (h₀ : ¬ P s) (h : P (exec step s is)) :
    ∃ pre i mid, is = pre ++ i :: mid ∧ ¬ P (exec step s pre) ∧
      ∀ seen, seen <+: mid → P (exec step s (pre ++ i :: seen)) := by
  induction is using List.reverseRecOn with
  | nil => exact absurd h h₀
  | append_singleton is i ih =>
    by_cases hbefore : P (exec step s is)
    · obtain ⟨pre, j, mid, rfl, hpre, hmid⟩ := ih hbefore
      refine ⟨pre, j, mid ++ [i], by rw [List.append_assoc, List.cons_append], hpre, ?_⟩
      intro seen hseen
      rcases List.prefix_concat_iff.1 hseen with rfl | hseen
      · rwa [List.append_assoc, List.cons_append] at h
      · exact hmid seen hseen
    · refine ⟨is, i, [], rfl, hbefore, ?_⟩
      intro seen hseen
      rw [List.prefix_nil.1 hseen]
      exact h

end Lib
