import Pumpbug.Lib.Reader

/-!
# Two ways to read a byte string

A `Cursor` walks an offset over a fixed buffer, where a `Reader` takes bytes off the front of a
string.  `Follows r c R` says that wherever the reader succeeds the cursor does too, at the same
place and with a related result.  Two decoders of one format are compared along their structure.
-/

namespace Lib

abbrev Cursor (α : Type) := ReaderT Bytes (StateT ℕ Option) α

namespace Cursor

/-- The byte at the offset. -/
def byte : Cursor (BitVec 8) := fun buf p => (buf[p]?).map fun b => (b, p + 1)

theorem bind_apply {α β : Type} (c : Cursor α) (g : α → Cursor β) (buf : Bytes) (p : ℕ) :
    (c >>= g) buf p = (c buf p).bind fun z => g z.1 buf z.2 := rfl

end Cursor

namespace Reader

variable {α β γ δ σ τ : Type}

/-- Wherever `r` reads a value, `c` reads a related one over the same bytes. -/
def Follows (r : Reader α) (c : Cursor β) (R : α → β → Prop) : Prop :=
  ∀ buf p a rest, r (buf.drop p) = some (a, rest) →
    ∃ b p', c buf p = some (b, p') ∧ buf.drop p' = rest ∧ R a b

theorem Follows.mono {r : Reader α} {c : Cursor β} {R S : α → β → Prop} (h : Follows r c R)
    (hRS : ∀ a b, R a b → S a b) : Follows r c S := by
  intro buf p a rest ha
  obtain ⟨b, p', hb, hp, hR⟩ := h buf p a rest ha
  exact ⟨b, p', hb, hp, hRS a b hR⟩

theorem follows_pure {R : α → β → Prop} {a : α} {b : β} (h : R a b) :
    Follows (pure a) (pure b) R := by
  intro buf p a' rest ha
  obtain ⟨rfl, rfl⟩ := pure_eq_some.1 ha
  exact ⟨b, p, rfl, rfl, h⟩

theorem follows_byte : Follows byte Cursor.byte Eq := by
  intro buf p b rest h
  have hd : buf.drop p = b :: rest := by
    cases hb : buf.drop p with
    | nil => rw [hb] at h; exact absurd h nofun
    | cons c cs =>
      rw [hb] at h
      obtain ⟨rfl, rfl⟩ := Prod.mk.inj (Option.some.inj h)
      rfl
  have hget : buf[p]? = some b := by rw [← List.head?_drop, hd]; rfl
  refine ⟨b, p + 1, ?_, ?_, rfl⟩
  · unfold Cursor.byte
    rw [hget]
    rfl
  · rw [← List.tail_drop, hd]
    rfl

/-- Two sequences follow each other step by step. -/
theorem Follows.bind {r : Reader α} {c : Cursor β} {f : α → Reader γ} {g : β → Cursor δ}
    {R : α → β → Prop} {S : γ → δ → Prop} (hr : Follows r c R)
    (hf : ∀ a b, R a b → Follows (f a) (g b) S) : Follows (r >>= f) (c >>= g) S := by
  intro buf p x rest h
  obtain ⟨a, mid, ha, hx⟩ := bind_eq_some.1 h
  obtain ⟨b, p', hb, hp, hR⟩ := hr buf p a mid ha
  rw [← hp] at hx
  obtain ⟨y, p'', hy, hp', hS⟩ := hf a b hR buf p' x rest hx
  refine ⟨y, p'', ?_, hp', hS⟩
  rw [Cursor.bind_apply, hb]
  exact hy

/-- A test that both make. -/
theorem follows_guard {p q : Prop} [Decidable p] [Decidable q] (h : p → q) :
    Follows (guard p) (guard q : Cursor Unit) fun _ _ => p := by
  intro buf k u rest hg
  obtain ⟨hp, rfl⟩ := guard_eq_some.1 hg
  refine ⟨(), k, ?_, rfl, hp⟩
  unfold guard
  rw [if_pos (h hp)]
  rfl

/-- **Loop rule.** Loops follow each other when their steps do, from related states. -/
theorem follows_loop {step : σ → Reader (α × σ)} {step' : τ → Cursor (β × τ)}
    {R : α → β → Prop} (I : σ → τ → Prop)
    (hstep : ∀ s t, I s t → Follows (step s) (step' t) fun x y => R x.1 y.1 ∧ I x.2 y.2)
    {s : σ} {t : τ} (h : I s t) (n : ℕ) :
    Follows (loop step n s) (loop step' n t) (List.Forall₂ R) := by
  induction n generalizing s t with
  | zero => exact follows_pure List.Forall₂.nil
  | succ n ih =>
    refine (hstep s t h).bind fun x y hxy => ?_
    refine (ih hxy.2).bind fun as bs has => ?_
    exact follows_pure (List.Forall₂.cons hxy.1 has)

end Reader

end Lib
