import Mathlib.Data.List.DropRight

/-!
# Bounded buffers

A fixed array with a fill count: at most `cap` items, in order of arrival.  The bound is a field,
so a count past the end of the array cannot be built.  `push` drops what no longer fits.
-/

namespace Lib

/-- The filled part of an array of `cap` slots. -/
structure Buffer (α : Type*) (cap : ℕ) where
  items : List α
  fits : items.length ≤ cap

namespace Buffer

variable {α : Type*} {cap : ℕ}

@[ext] theorem ext {b c : Buffer α cap} (h : b.items = c.items) : b = c := by
  cases b; cases c; cases h; rfl

instance [DecidableEq α] : DecidableEq (Buffer α cap) := fun b c =>
  decidable_of_iff (b.items = c.items) ⟨ext, fun h => h ▸ rfl⟩

/-- The empty buffer. -/
def empty : Buffer α cap := ⟨[], Nat.zero_le _⟩

instance : Inhabited (Buffer α cap) := ⟨empty⟩

/-- The fill count. -/
def count (b : Buffer α cap) : ℕ := b.items.length

/-- Append an item if a slot is left. -/
def push (b : Buffer α cap) (a : α) : Buffer α cap :=
  if h : b.items.length < cap then ⟨b.items ++ [a], by simpa using Nat.succ_le_of_lt h⟩ else b

/-- The first `cap` items of a list. -/
def ofList (l : List α) : Buffer α cap := ⟨l.take cap, List.length_take_le cap l⟩

/-- Apply a function to every item. -/
def map {β : Type*} (f : α → β) (b : Buffer α cap) : Buffer β cap :=
  ⟨b.items.map f, by simpa using b.fits⟩

/-- Drop items from the end as long as `p` holds of the last one. -/
def dropLastWhile (b : Buffer α cap) (p : α → Bool) : Buffer α cap :=
  ⟨b.items.rdropWhile p, le_trans (List.rdropWhile_prefix p b.items).length_le b.fits⟩

@[simp] theorem items_empty : (empty : Buffer α cap).items = [] := rfl

@[simp] theorem items_dropLastWhile (b : Buffer α cap) (p : α → Bool) :
    (b.dropLastWhile p).items = b.items.rdropWhile p := rfl

@[simp] theorem items_map {β : Type*} (f : α → β) (b : Buffer α cap) :
    (b.map f).items = b.items.map f := rfl

theorem items_ofList_of_le {l : List α} (h : l.length ≤ cap) :
    (ofList l : Buffer α cap).items = l := List.take_of_length_le h

@[simp] theorem ofList_items (b : Buffer α cap) : ofList b.items = b :=
  ext (items_ofList_of_le b.fits)

theorem items_push_of_lt {b : Buffer α cap} (h : b.count < cap) (a : α) :
    (b.push a).items = b.items ++ [a] := by
  unfold count at h; unfold push; rw [dif_pos h]

theorem push_of_full {b : Buffer α cap} (h : ¬ b.count < cap) (a : α) : b.push a = b := by
  unfold count at h; unfold push; rw [dif_neg h]

/-- A push counts up to the capacity. -/
theorem count_push (b : Buffer α cap) (a : α) : (b.push a).count = min (b.count + 1) cap := by
  have hfits : b.count ≤ cap := b.fits
  by_cases h : b.count < cap
  · unfold count at h hfits ⊢
    rw [items_push_of_lt h, List.length_append, List.length_singleton]
    omega
  · rw [push_of_full h]
    omega

theorem mem_push {b : Buffer α cap} {a x : α} (h : x ∈ (b.push a).items) : x ∈ b.items ∨ x = a := by
  by_cases hlt : b.count < cap
  · rwa [items_push_of_lt hlt, List.mem_append, List.mem_singleton] at h
  · rw [push_of_full hlt] at h
    exact .inl h

/-- A push extends the buffer. -/
theorem items_prefix_push (b : Buffer α cap) (a : α) : b.items <+: (b.push a).items := by
  by_cases h : b.count < cap
  · rw [items_push_of_lt h]; exact List.prefix_append _ _
  · exact (push_of_full h a).symm ▸ List.prefix_rfl

end Buffer

end Lib
