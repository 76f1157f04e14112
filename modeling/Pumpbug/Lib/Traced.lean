import Mathlib.Algebra.Order.Ring.Nat
import Pumpbug.Lib.Reader

/-!
# Computations that leave a log

A computation over a state that can fail, and whose log stays when it does.  The rules below bound
the log, and the cost of what it records, along the computation's own structure, whatever the state
is; over byte strings, a logging computation is compared with a reader.
-/

namespace Lib

/-- The log, and the value with the state left behind unless the computation failed. -/
def Traced (σ ω α : Type) : Type := σ → List ω × Option (α × σ)

namespace Traced

variable {σ ω α β τ : Type}

instance : Monad (Traced σ ω) where
  pure a := fun s => ([], some (a, s))
  bind r f := fun s =>
    match (r s).2 with
    | none => ((r s).1, none)
    | some (a, s') => ((r s).1 ++ (f a s').1, (f a s').2)

def fail : Traced σ ω α := fun _ => ([], none)

def require (p : Prop) [Decidable p] : Traced σ ω Unit := if p then pure () else fail

/-- Go on with the value of an option. -/
def lift : Option α → Traced σ ω α
  | some a => pure a
  | none => fail

def log (w : ω) : Traced σ ω Unit := fun s => ([w], some ((), s))

theorem pure_apply (a : α) (s : σ) : (pure a : Traced σ ω α) s = ([], some (a, s)) := rfl

theorem bind_of_none {r : Traced σ ω α} {s : σ} (h : (r s).2 = none) (f : α → Traced σ ω β) :
    (r >>= f) s = ((r s).1, none) := by
  show (match (r s).2 with
    | none => ((r s).1, none)
    | some (a, s') => ((r s).1 ++ (f a s').1, (f a s').2)) = _
  rw [h]

theorem bind_of_some {r : Traced σ ω α} {s s' : σ} {a : α} (h : (r s).2 = some (a, s'))
    (f : α → Traced σ ω β) : (r >>= f) s = ((r s).1 ++ (f a s').1, (f a s').2) := by
  show (match (r s).2 with
    | none => ((r s).1, none)
    | some (a, s') => ((r s).1 ++ (f a s').1, (f a s').2)) = _
  rw [h]

/-- A last step that only returns logs nothing. -/
theorem log_bind_pure (r : Traced σ ω α) (g : α → β) (s : σ) :
    ((r >>= fun a => pure (g a)) s).1 = (r s).1 := by
  cases h : (r s).2 with
  | none => rw [bind_of_none h]
  | some x =>
    rw [bind_of_some h, pure_apply]
    exact List.append_nil _

theorem bind_eq_some {r : Traced σ ω α} {f : α → Traced σ ω β} {s t : σ} {b : β} :
    ((r >>= f) s).2 = some (b, t) ↔ ∃ a s', (r s).2 = some (a, s') ∧ (f a s').2 = some (b, t) := by
  cases h : (r s).2 with
  | none =>
    rw [bind_of_none h]
    simp
  | some x =>
    obtain ⟨a, s'⟩ := x
    rw [bind_of_some h]
    simp

/-- `count` rounds, numbered from `i` on, with a state threaded from each to the next. -/
def forCount (body : ℕ → τ → Traced σ ω (α × τ)) : ℕ → ℕ → τ → Traced σ ω (List α)
  | 0, _, _ => pure []
  | count + 1, i, t => do
    let (a, t) ← body i t
    let as ← forCount body count (i + 1) t
    pure (a :: as)

/-- Every value the computation can return satisfies `Q`. -/
def Returns (Q : α → Prop) (r : Traced σ ω α) : Prop := ∀ s a s', (r s).2 = some (a, s') → Q a

variable {Q : α → Prop}

theorem returns_pure {a : α} (h : Q a) : Returns Q (pure a : Traced σ ω α) := by
  intro s b s' hb
  obtain ⟨rfl, -⟩ := Prod.mk.inj (Option.some.inj hb)
  exact h

theorem returns_require {p : Prop} [Decidable p] :
    Returns (fun _ => p) (require p : Traced σ ω Unit) := by
  intro s a s' h
  unfold require at h
  split_ifs at h with hp
  · exact hp
  · exact absurd h (by simp [fail])

theorem Returns.bind {r : Traced σ ω β} {f : β → Traced σ ω α} {R : β → Prop} (hr : Returns R r)
    (hf : ∀ b, R b → Returns Q (f b)) : Returns Q (r >>= f) := by
  intro s a s' h
  obtain ⟨b, t, hb, ha⟩ := bind_eq_some.1 h
  exact hf b (hr s b t hb) t a s' ha

/-- What each round returns, the loop collects; it makes exactly `count` rounds. -/
theorem returns_forCount {body : ℕ → τ → Traced σ ω (α × τ)}
    (h : ∀ i t, Returns (fun x => Q x.1) (body i t)) (count i : ℕ) (t : τ) :
    Returns (fun as => as.length = count ∧ ∀ a ∈ as, Q a) (forCount body count i t) := by
  induction count generalizing i t with
  | zero => exact returns_pure ⟨rfl, by simp⟩
  | succ count ih =>
    unfold forCount
    refine (h i t).bind fun x hx => (ih (i + 1) x.2).bind fun as has => returns_pure ⟨?_, ?_⟩
    · rw [List.length_cons, has.1]
    · exact List.forall_mem_cons.2 ⟨hx, has.2⟩

theorem returns_any (r : Traced σ ω α) : Returns (fun _ => True) r := fun _ _ _ _ => trivial

/-! ## What the log contains -/

/-- Everything in the log satisfies `P`, whether the computation fails or not. -/
def Logs (P : ω → Prop) (r : Traced σ ω α) : Prop := ∀ s, ∀ w ∈ (r s).1, P w

variable {P : ω → Prop}

theorem logs_pure (a : α) : Logs P (pure a : Traced σ ω α) := by
  intro s w hw
  rw [pure_apply] at hw
  simp at hw

theorem logs_fail : Logs P (fail : Traced σ ω α) := by
  intro s w hw
  simp [fail] at hw

theorem logs_require (p : Prop) [Decidable p] : Logs P (require p : Traced σ ω Unit) := by
  unfold require
  split_ifs
  · exact logs_pure ()
  · exact logs_fail

theorem logs_lift (o : Option α) : Logs P (lift o : Traced σ ω α) := by
  cases o with
  | none => exact logs_fail
  | some a => exact logs_pure a

theorem logs_log {w : ω} (h : P w) : Logs P (log w : Traced σ ω Unit) := by
  intro s w' hw
  obtain rfl := List.mem_singleton.1 hw
  exact h

/-- What follows need only keep to `P` on values that can be returned. -/
theorem Logs.bind_returns {r : Traced σ ω α} {f : α → Traced σ ω β} (hr : Logs P r)
    (hq : Returns Q r) (hf : ∀ a, Q a → Logs P (f a)) : Logs P (r >>= f) := by
  intro s w hw
  cases h : (r s).2 with
  | none =>
    rw [bind_of_none h] at hw
    exact hr s w hw
  | some x =>
    obtain ⟨a, s'⟩ := x
    rw [bind_of_some h] at hw
    rcases List.mem_append.1 hw with hw | hw
    · exact hr s w hw
    · exact hf a (hq s a s' h) s' w hw

theorem Logs.bind {r : Traced σ ω α} {f : α → Traced σ ω β} (hr : Logs P r)
    (hf : ∀ a, Logs P (f a)) : Logs P (r >>= f) :=
  hr.bind_returns (returns_any r) fun a _ => hf a

theorem logs_forCount {body : ℕ → τ → Traced σ ω (α × τ)} {count i : ℕ}
    (h : ∀ j t, i ≤ j → j < i + count → Logs P (body j t)) (t : τ) :
    Logs P (forCount body count i t) := by
  induction count generalizing i t with
  | zero => exact logs_pure []
  | succ count ih =>
    unfold forCount
    refine (h i t le_rfl (by omega)).bind fun x => ?_
    refine Logs.bind (ih (fun j t hj hj' => h j t (by omega) (by omega)) x.2) fun as => ?_
    exact logs_pure _

/-! ## What it costs -/

/-- The entries of the log cost at most `n` together, whether the computation fails or not. -/
def Costs (cost : ω → ℕ) (n : ℕ) (r : Traced σ ω α) : Prop := ∀ s, ((r s).1.map cost).sum ≤ n

variable {cost : ω → ℕ} {n m : ℕ}

theorem Costs.mono {r : Traced σ ω α} (h : Costs cost n r) (hnm : n ≤ m) : Costs cost m r :=
  fun s => (h s).trans hnm

theorem costs_pure (a : α) : Costs cost 0 (pure a : Traced σ ω α) := fun _ => le_rfl

theorem costs_fail : Costs cost 0 (fail : Traced σ ω α) := fun _ => le_rfl

theorem costs_require (p : Prop) [Decidable p] : Costs cost 0 (require p : Traced σ ω Unit) := by
  unfold require
  split_ifs
  · exact costs_pure ()
  · exact costs_fail

theorem costs_lift (o : Option α) : Costs cost 0 (lift o : Traced σ ω α) := by
  cases o with
  | none => exact costs_fail
  | some a => exact costs_pure a

theorem costs_log (w : ω) : Costs cost (cost w) (log w : Traced σ ω Unit) := by
  intro s
  show ([w].map cost).sum ≤ cost w
  simp

theorem Costs.bind_returns {r : Traced σ ω α} {f : α → Traced σ ω β} (hr : Costs cost n r)
    (hq : Returns Q r) (hf : ∀ a, Q a → Costs cost m (f a)) : Costs cost (n + m) (r >>= f) := by
  intro s
  have hn := hr s
  cases h : (r s).2 with
  | none =>
    rw [bind_of_none h]
    show ((r s).1.map cost).sum ≤ n + m
    omega
  | some x =>
    obtain ⟨a, s'⟩ := x
    have hm := hf a (hq s a s' h) s'
    rw [bind_of_some h, List.map_append, List.sum_append]
    omega

theorem Costs.bind {r : Traced σ ω α} {f : α → Traced σ ω β} (hr : Costs cost n r)
    (hf : ∀ a, Costs cost m (f a)) : Costs cost (n + m) (r >>= f) :=
  hr.bind_returns (returns_any r) fun a _ => hf a

theorem costs_forCount {body : ℕ → τ → Traced σ ω (α × τ)} (h : ∀ i t, Costs cost n (body i t))
    (count i : ℕ) (t : τ) : Costs cost (count * n) (forCount body count i t) := by
  induction count generalizing i t with
  | zero => exact (costs_pure []).mono (Nat.zero_le _)
  | succ count ih =>
    unfold forCount
    have hround := (h i t).bind fun x =>
      (ih (i + 1) x.2).bind fun as => (costs_pure (x.1 :: as) : Costs cost 0 _)
    exact hround.mono (by rw [Nat.succ_mul]; omega)

/-! ## Readers with a log -/

/-- Apart from its log, the computation is the reader `q`. -/
def Implements (r : Traced Bytes ω α) (q : Reader α) : Prop := ∀ bs, (r bs).2 = q bs

theorem implements_pure (a : α) : Implements (pure a : Traced Bytes ω α) (pure a) := fun _ => rfl

theorem implements_require (p : Prop) [Decidable p] :
    Implements (require p : Traced Bytes ω Unit) (guard p) := by
  intro bs
  unfold require guard
  by_cases hp : p
  · rw [if_pos hp, if_pos hp]
    rfl
  · rw [if_neg hp, if_neg hp]
    rfl

theorem implements_lift (o : Option α) :
    Implements (lift o : Traced Bytes ω α) (StateT.lift o) := by
  intro bs
  cases o <;> rfl

theorem Implements.bind {r : Traced Bytes ω α} {f : α → Traced Bytes ω β} {q : Reader α}
    {g : α → Reader β} (hr : Implements r q) (hf : ∀ a, Implements (f a) (g a)) :
    Implements (r >>= f) (q >>= g) := by
  intro bs
  rw [Reader.bind_apply, ← hr bs]
  cases h : (r bs).2 with
  | none =>
    rw [bind_of_none h]
    rfl
  | some x =>
    obtain ⟨a, rest⟩ := x
    rw [bind_of_some h]
    exact hf a rest

/-- A note in the log changes nothing. -/
theorem Implements.log_bind {f : Traced Bytes ω β} {q : Reader β} (w : ω) (hf : Implements f q) :
    Implements (log w >>= fun _ => f) q := by
  intro bs
  have hlog : (log w : Traced Bytes ω Unit) bs = ([w], some ((), bs)) := rfl
  rw [bind_of_some (congrArg Prod.snd hlog)]
  exact hf bs

theorem implements_forCount {body : ℕ → τ → Traced Bytes ω (α × τ)} {step : τ → Reader (α × τ)}
    (h : ∀ i t, Implements (body i t) (step t)) (count i : ℕ) (t : τ) :
    Implements (forCount body count i t) (loop step count t) := by
  induction count generalizing i t with
  | zero => exact implements_pure []
  | succ count ih =>
    unfold forCount loop
    exact (h i t).bind fun x => (ih (i + 1) x.2).bind fun as => implements_pure (x.1 :: as)

end Traced

end Lib
