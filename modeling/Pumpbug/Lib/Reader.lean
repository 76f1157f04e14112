import Mathlib.Data.List.Basic

/-!
# Readers of byte strings

A reader takes a value off the front of a byte string, or fails.  `Reads r bs a` says that `r` reads
exactly `bs`, whatever follows, and returns `a`; the rules below put such facts together along the
reader's own structure, so that a decoder is verified against an encoder piece by piece.
-/

namespace Lib

abbrev Bytes := List (BitVec 8)

abbrev Reader (α : Type) := StateT Bytes Option α

/-- Produce `n` items, threading a state from each item to the next. -/
def loop {m : Type → Type} [Monad m] {α σ : Type} (step : σ → m (α × σ)) : ℕ → σ → m (List α)
  | 0, _ => pure []
  | n + 1, s => do
    let (a, s) ← step s
    let as ← loop step n s
    pure (a :: as)

namespace Reader

variable {α β σ : Type}

/-- The next byte. -/
def byte : Reader (BitVec 8)
  | [] => none
  | b :: bs => some (b, bs)

/-- The next `n` bytes. -/
def take (n : ℕ) : Reader Bytes := fun bs =>
  if n ≤ bs.length then some (bs.take n, bs.drop n) else none

theorem bind_apply (r : Reader α) (f : α → Reader β) (bs : Bytes) :
    (r >>= f) bs = (r bs).bind fun x => f x.1 x.2 := rfl

/-- A sequence of reads succeeds when both succeed. -/
theorem bind_eq_some {r : Reader α} {f : α → Reader β} {bs rest : Bytes} {b : β} :
    (r >>= f) bs = some (b, rest) ↔ ∃ a mid, r bs = some (a, mid) ∧ f a mid = some (b, rest) := by
  rw [bind_apply, Option.bind_eq_some_iff]
  constructor
  · rintro ⟨⟨a, mid⟩, h, h'⟩; exact ⟨a, mid, h, h'⟩
  · rintro ⟨a, mid, h, h'⟩; exact ⟨(a, mid), h, h'⟩

theorem pure_eq_some {a b : α} {bs rest : Bytes} :
    (pure a : Reader α) bs = some (b, rest) ↔ a = b ∧ bs = rest := by
  show some (a, bs) = some (b, rest) ↔ _
  rw [Option.some.injEq, Prod.mk.injEq]

theorem guard_eq_some {p : Prop} [Decidable p] {bs rest : Bytes} {u : Unit} :
    (guard p : Reader Unit) bs = some (u, rest) ↔ p ∧ bs = rest := by
  unfold guard
  by_cases h : p
  · rw [if_pos h, pure_eq_some]
    exact ⟨fun h' => ⟨h, h'.2⟩, fun h' => ⟨rfl, h'.2⟩⟩
  · rw [if_neg h]
    constructor
    · intro h'
      have hnone : (failure : Reader Unit) bs = none := rfl
      rw [hnone] at h'
      exact absurd h' (by simp)
    · intro h'; exact absurd h'.1 h

/-! ## Reading exactly a string -/

/-- `r` reads exactly `bs` and returns `a`, whatever follows. -/
def Reads (r : Reader α) (bs : Bytes) (a : α) : Prop := ∀ rest, r (bs ++ rest) = some (a, rest)

theorem reads_pure (a : α) : Reads (pure a) [] a := fun _ => rfl

theorem reads_guard {p : Prop} [Decidable p] (h : p) : Reads (guard p) [] () := by
  intro rest
  exact guard_eq_some.2 ⟨h, rfl⟩

theorem reads_byte (b : BitVec 8) : Reads byte [b] b := fun _ => rfl

theorem reads_take (bs : Bytes) : Reads (take bs.length) bs bs := by
  intro rest
  unfold take
  rw [if_pos (by simp), List.take_left, List.drop_left]

theorem Reads.bind {r : Reader α} {f : α → Reader β} {bs cs : Bytes} {a : α} {b : β}
    (hr : Reads r bs a) (hf : Reads (f a) cs b) : Reads (r >>= f) (bs ++ cs) b := by
  intro rest
  rw [List.append_assoc, bind_eq_some]
  exact ⟨a, cs ++ rest, hr _, hf rest⟩

/-- A step that reads nothing. -/
theorem Reads.bind_nil {r : Reader α} {f : α → Reader β} {cs : Bytes} {a : α} {b : β}
    (hr : Reads r [] a) (hf : Reads (f a) cs b) : Reads (r >>= f) cs b := hr.bind hf

/-- A last step that reads nothing. -/
theorem Reads.bind_pure {r : Reader α} {bs : Bytes} {a : α} {b : β} {f : α → Reader β}
    (hr : Reads r bs a) (hf : Reads (f a) [] b) : Reads (r >>= f) bs b := by
  have h := hr.bind hf
  rwa [List.append_nil] at h

/-! ## Loops -/

/-- The bytes of a list of items, each written in the state that the items before it leave. -/
def writeAll (emit : σ → α → Bytes) (next : σ → α → σ) : σ → List α → Bytes
  | _, [] => []
  | s, a :: as => emit s a ++ writeAll emit next (next s a) as

/-- The pieces of `writeAll`, one for each item. -/
def emitted (emit : σ → α → Bytes) (next : σ → α → σ) : σ → List α → List Bytes
  | _, [] => []
  | s, a :: as => emit s a :: emitted emit next (next s a) as

theorem flatten_emitted (emit : σ → α → Bytes) (next : σ → α → σ) (s : σ) (l : List α) :
    (emitted emit next s l).flatten = writeAll emit next s l := by
  induction l generalizing s with
  | nil => rfl
  | cons a l ih =>
    unfold emitted writeAll
    rw [List.flatten_cons, ih]

/-- A bound on every piece, in the states that the items before it can leave. -/
theorem forall_emitted {emit : σ → α → Bytes} {next : σ → α → σ} {P : Bytes → Prop} (Inv : σ → Prop)
    (hnext : ∀ s a, Inv s → Inv (next s a)) (hemit : ∀ s a, Inv s → P (emit s a)) {s : σ}
    (hs : Inv s) (l : List α) : ∀ piece ∈ emitted emit next s l, P piece := by
  induction l generalizing s with
  | nil => simp [emitted]
  | cons a l ih =>
    intro piece hp
    rcases List.mem_cons.1 hp with rfl | hp
    · exact hemit s a hs
    · exact ih (hnext s a hs) piece hp

theorem length_emitted (emit : σ → α → Bytes) (next : σ → α → σ) (s : σ) (l : List α) :
    (emitted emit next s l).length = l.length := by
  induction l generalizing s with
  | nil => rfl
  | cons a l ih =>
    unfold emitted
    rw [List.length_cons, ih, List.length_cons]

/-- **Loop rule.** If one step reads back one item, up to `norm`, and advances the reader's state as
the writer's, the loop reads back the list. -/
theorem reads_loop {τ : Type} {step : τ → Reader (β × τ)} {emit : σ → α → Bytes} {next : σ → α → σ}
    (state : σ → τ) {norm : α → β} {l : List α} (Inv : σ → Prop)
    (hnext : ∀ s, ∀ a ∈ l, Inv s → Inv (next s a))
    (hstep : ∀ s, ∀ a ∈ l, Inv s → Reads (step (state s)) (emit s a) (norm a, state (next s a)))
    {s : σ} (hs : Inv s) :
    Reads (loop step l.length (state s)) (writeAll emit next s l) (l.map norm) := by
  induction l generalizing s with
  | nil => exact reads_pure []
  | cons a l ih =>
    have hhead := hstep s a List.mem_cons_self hs
    have htail := ih (fun s b hb => hnext s b (List.mem_cons_of_mem a hb))
      (fun s b hb => hstep s b (List.mem_cons_of_mem a hb)) (hnext s a List.mem_cons_self hs)
    exact hhead.bind (htail.bind_pure (reads_pure _))

theorem length_of_loop {step : σ → Reader (α × σ)} {n : ℕ} {s : σ} {bs rest : Bytes}
    {as : List α} (h : loop step n s bs = some (as, rest)) : as.length = n := by
  induction n generalizing s bs rest as with
  | zero =>
    obtain ⟨rfl, -⟩ := pure_eq_some.1 h
    rfl
  | succ n ih =>
    obtain ⟨⟨a, s'⟩, mid, -, h⟩ := bind_eq_some.1 h
    obtain ⟨as', mid', h', hp⟩ := bind_eq_some.1 h
    obtain ⟨rfl, -⟩ := pure_eq_some.1 hp
    rw [List.length_cons, ih h']

/-- What holds of every item a step can return holds of all items of the loop. -/
theorem forall_of_loop {step : σ → Reader (α × σ)} {P : α → Prop}
    (hstep : ∀ s s' a bs rest, step s bs = some ((a, s'), rest) → P a) {n : ℕ} {s : σ}
    {bs rest : Bytes} {as : List α} (h : loop step n s bs = some (as, rest)) : ∀ a ∈ as, P a := by
  induction n generalizing s bs rest as with
  | zero =>
    obtain ⟨rfl, -⟩ := pure_eq_some.1 h
    simp
  | succ n ih =>
    obtain ⟨⟨a, s'⟩, mid, ha, h⟩ := bind_eq_some.1 h
    obtain ⟨as', mid', h', hp⟩ := bind_eq_some.1 h
    obtain ⟨rfl, -⟩ := pure_eq_some.1 hp
    intro x hx
    rcases List.mem_cons.1 hx with rfl | hx
    · exact hstep _ _ _ _ _ ha
    · exact ih h' x hx

/-- A step that also tests its item. -/
def tested (step : σ → Reader (α × σ)) (P : α → Prop) [DecidablePred P] (s : σ) :
    Reader (α × σ) := do
  let x ← step s
  guard (P x.1)
  pure x

/-- A test that every item passes can be made part of the step. -/
theorem loop_tested {step : σ → Reader (α × σ)} {P : α → Prop} [DecidablePred P] {n : ℕ} {s : σ}
    {bs rest : Bytes} {as : List α} (h : loop step n s bs = some (as, rest))
    (hP : ∀ a ∈ as, P a) : loop (tested step P) n s bs = some (as, rest) := by
  induction n generalizing s bs rest as with
  | zero => exact h
  | succ n ih =>
    obtain ⟨⟨a, s'⟩, mid, ha, h⟩ := bind_eq_some.1 h
    obtain ⟨as', mid', h', hp⟩ := bind_eq_some.1 h
    obtain ⟨rfl, rfl⟩ := pure_eq_some.1 hp
    refine bind_eq_some.2 ⟨(a, s'), mid, ?_, bind_eq_some.2 ⟨as', mid', ?_, rfl⟩⟩
    · refine bind_eq_some.2 ⟨(a, s'), mid, ha, bind_eq_some.2 ⟨(), mid, ?_, rfl⟩⟩
      exact guard_eq_some.2 ⟨hP a List.mem_cons_self, rfl⟩
    · exact ih h' fun b hb => hP b (List.mem_cons_of_mem a hb)

theorem lift_eq_some {o : Option α} {a : α} {bs rest : Bytes} :
    (StateT.lift o : Reader α) bs = some (a, rest) ↔ o = some a ∧ bs = rest := by
  cases o with
  | none => exact ⟨fun h => absurd h nofun, fun h => absurd h.1 nofun⟩
  | some b =>
    show some (b, bs) = some (a, rest) ↔ some b = some a ∧ bs = rest
    rw [Option.some.injEq, Option.some.injEq, Prod.mk.injEq]

end Reader

end Lib
