import Pumpbug.Lib.Entries

/-!
# Binary heaps in a list

The heap operations of the C++ library on a whole range.  `cmp a b` says that `a` comes below `b`;
entry `j` lies under entry `(j - 1) / 2`.  `makeHeap` arranges the range as a heap, and `popHeap`
moves its greatest entry to the end and arranges the rest as a heap.
-/

namespace Lib.Heap

variable {α : Type*} [Inhabited α]

/-- The entry at `i`. -/
def entry (l : List α) (i : ℕ) : α := l.getD i default

def swap (l : List α) (i j : ℕ) : List α := (l.set i (entry l j)).set j (entry l i)

section Operations

variable (cmp : α → α → Bool)

/-- The greater child of the entry `i`. -/
def maxChild (l : List α) (i : ℕ) : Option ℕ :=
  if l.length ≤ 2 * i + 1 then none
  else if l.length ≤ 2 * i + 2 then some (2 * i + 1)
  else if cmp (entry l (2 * i + 1)) (entry l (2 * i + 2)) then some (2 * i + 2)
  else some (2 * i + 1)

/-- Move the entry at `i` down until no child of it is greater. -/
def siftDown : ℕ → List α → ℕ → List α
  | 0, l, _ => l
  | fuel + 1, l, i =>
    match maxChild cmp l i with
    | none => l
    | some j => if cmp (entry l i) (entry l j) then siftDown fuel (swap l i j) j else l

/-- Sift the entries below `s`, the last first. -/
def heapify : ℕ → List α → List α
  | 0, l => l
  | s + 1, l => heapify s (siftDown cmp l.length l s)

def makeHeap (l : List α) : List α := heapify cmp l.length l

def popHeap (l : List α) : List α :=
  let l := swap l 0 (l.length - 1)
  siftDown cmp l.length l.dropLast 0 ++ l.drop (l.length - 1)

end Operations

/-! ## Entries -/

variable {cmp : α → α → Bool} {l : List α} {i j k : ℕ}

@[simp] theorem length_swap (l : List α) (i j : ℕ) : (swap l i j).length = l.length := by
  unfold swap
  rw [List.length_set, List.length_set]

theorem entry_set (a : α) (hi : i < l.length) :
    entry (l.set i a) k = if k = i then a else entry l k := by
  unfold entry
  exact getD_set default a hi k

theorem entry_swap (hi : i < l.length) (hj : j < l.length) :
    entry (swap l i j) k = if k = j then entry l i else if k = i then entry l j else entry l k := by
  unfold swap
  rw [entry_set _ (by rw [List.length_set]; exact hj), entry_set _ hi]

theorem swap_perm (hi : i < l.length) (hj : j < l.length) : (swap l i j).Perm l := by
  unfold swap entry
  rw [List.getD_eq_getElem _ _ hi, List.getD_eq_getElem _ _ hj]
  exact List.set_set_perm hi hj

theorem maxChild_cases (h : maxChild cmp l i = some j) :
    j < l.length ∧ (j = 2 * i + 1 ∨ j = 2 * i + 2) := by
  unfold maxChild at h
  split_ifs at h with h₁ h₂ h₃ <;> have hj := Option.some.inj h <;> omega

theorem maxChild_none (h : maxChild cmp l i = none) : l.length ≤ 2 * i + 1 := by
  unfold maxChild at h
  split_ifs at h with h₁
  exact h₁

/-! ## Sifting -/

/-- `cmp` is a strict weak order. -/
structure WeakOrder (cmp : α → α → Bool) : Prop where
  asymm : ∀ a b, cmp a b = true → cmp b a = false
  negTrans : ∀ a b c, cmp a b = false → cmp b c = false → cmp a c = false

/-- Every entry from `s` on comes no lower than its children. -/
def HeapFrom (cmp : α → α → Bool) (s : ℕ) (l : List α) : Prop :=
  ∀ i j, s ≤ i → j = 2 * i + 1 ∨ j = 2 * i + 2 → j < l.length → cmp (entry l i) (entry l j) = false

/-- The entries from `s` on are in order except at `i`, whose children come no higher than the entry
over `i`. -/
structure HeapExcept (cmp : α → α → Bool) (s i : ℕ) (l : List α) : Prop where
  except : ∀ p j, s ≤ p → p ≠ i → j = 2 * p + 1 ∨ j = 2 * p + 2 → j < l.length →
    cmp (entry l p) (entry l j) = false
  grand : ∀ p j, s ≤ p → i = 2 * p + 1 ∨ i = 2 * p + 2 → j = 2 * i + 1 ∨ j = 2 * i + 2 →
    j < l.length → cmp (entry l p) (entry l j) = false

theorem HeapFrom.except {s : ℕ} (h : HeapFrom cmp (s + 1) l) : HeapExcept cmp s s l where
  except p j hs hp hj hl := h p j (by omega) hj hl
  grand p j hs hp _ _ := by omega

theorem WeakOrder.irrefl (hc : WeakOrder cmp) (a : α) : cmp a a = false := by
  by_contra h
  exact h (hc.asymm a a (Bool.of_not_eq_false h))

/-- The greater child comes no lower than the other. -/
theorem maxChild_max (hc : WeakOrder cmp) (h : maxChild cmp l i = some j)
    (hk : k = 2 * i + 1 ∨ k = 2 * i + 2) (hkl : k < l.length) : cmp (entry l j) (entry l k) = false := by
  unfold maxChild at h
  split_ifs at h with h₁ h₂ h₃
  · have hj : j = k := by
      have := Option.some.inj h
      omega
    rw [hj]
    exact hc.irrefl _
  · rw [← Option.some.inj h]
    rcases hk with rfl | rfl
    · exact hc.asymm _ _ h₃
    · exact hc.irrefl _
  · rw [← Option.some.inj h]
    rcases hk with rfl | rfl
    · exact hc.irrefl _
    · exact Bool.eq_false_iff.2 h₃

/-- One step of the sift. -/
theorem HeapExcept.swap (hc : WeakOrder cmp) {s : ℕ} (hs : s ≤ i) (h : HeapExcept cmp s i l)
    (hj : maxChild cmp l i = some j) (hlt : cmp (entry l i) (entry l j) = true) :
    HeapExcept cmp s j (Heap.swap l i j) := by
  obtain ⟨hjl, hij⟩ := maxChild_cases hj
  have hil : i < l.length := by omega
  constructor
  · intro p k hp hpj hk hkl
    rw [length_swap] at hkl
    rw [entry_swap hil hjl, entry_swap hil hjl, if_neg hpj]
    by_cases hpi : p = i
    · rw [if_pos hpi]
      by_cases hkj : k = j
      · rw [if_pos hkj]
        exact hc.asymm _ _ hlt
      · rw [if_neg hkj, if_neg (by omega)]
        exact maxChild_max hc hj (by omega) hkl
    · rw [if_neg hpi]
      by_cases hki : k = i
      · rw [if_neg (by omega), if_pos hki]
        exact h.grand p j hp (by omega) hij hjl
      · rw [if_neg (by omega), if_neg hki]
        exact h.except p k hp hpi hk hkl
  · intro p k hp hpj hk hkl
    rw [length_swap] at hkl
    have hpi : p = i := by omega
    rw [entry_swap hil hjl, entry_swap hil hjl, if_neg (by omega), if_pos hpi, if_neg (by omega),
      if_neg (by omega)]
    exact h.except j k (by omega) (by omega) hk hkl

/-- **Sifting down** restores the order, with as much fuel as there are entries. -/
theorem siftDown_heapFrom (hc : WeakOrder cmp) {s fuel : ℕ} (hs : s ≤ i) (h : HeapExcept cmp s i l)
    (hfuel : l.length ≤ fuel + i) : HeapFrom cmp s (siftDown cmp fuel l i) := by
  induction fuel generalizing l i with
  | zero =>
    intro p j hp hj hjl
    have hlen : j < l.length := hjl
    exact h.except p j hp (by omega) hj hlen
  | succ fuel ih =>
    unfold siftDown
    cases hchild : maxChild cmp l i with
    | none =>
      have hnone := maxChild_none hchild
      intro p j hp hj hjl
      have hlen : j < l.length := hjl
      exact h.except p j hp (by omega) hj hlen
    | some j =>
      dsimp only
      obtain ⟨hjl, hij⟩ := maxChild_cases hchild
      by_cases hlt : cmp (entry l i) (entry l j) = true
      · rw [if_pos hlt]
        exact ih (by omega) (h.swap hc hs hchild hlt) (by rw [length_swap]; omega)
      · rw [if_neg hlt]
        intro p k hp hk hkl
        by_cases hpi : p = i
        · rw [hpi] at hk ⊢
          exact hc.negTrans _ _ _ (Bool.eq_false_iff.2 hlt) (maxChild_max hc hchild hk hkl)
        · exact h.except p k hp hpi hk hkl

theorem siftDown_perm (fuel : ℕ) (l : List α) (i : ℕ) : (siftDown cmp fuel l i).Perm l := by
  induction fuel generalizing l i with
  | zero => exact List.Perm.refl l
  | succ fuel ih =>
    unfold siftDown
    cases hchild : maxChild cmp l i with
    | none => exact List.Perm.refl l
    | some j =>
      dsimp only
      obtain ⟨hjl, hij⟩ := maxChild_cases hchild
      split_ifs
      · exact (ih _ _).trans (swap_perm (by omega) hjl)
      · exact List.Perm.refl l

/-! ## The heap operations -/

theorem heapify_perm (s : ℕ) (l : List α) : (heapify cmp s l).Perm l := by
  induction s generalizing l with
  | zero => exact List.Perm.refl l
  | succ s ih => exact (ih _).trans (siftDown_perm _ l s)

theorem makeHeap_perm (l : List α) : (makeHeap cmp l).Perm l := heapify_perm _ l

theorem heapify_heapFrom (hc : WeakOrder cmp) {s : ℕ} (h : HeapFrom cmp s l) :
    HeapFrom cmp 0 (heapify cmp s l) := by
  induction s generalizing l with
  | zero => exact h
  | succ s ih => exact ih (siftDown_heapFrom hc (Nat.le_refl _) h.except (by omega))

/-- **Making a heap.** -/
theorem makeHeap_heapFrom (hc : WeakOrder cmp) (l : List α) : HeapFrom cmp 0 (makeHeap cmp l) := by
  refine heapify_heapFrom hc ?_
  intro i j hi hj hjl
  omega

/-- The first entry of a heap comes no lower than the others. -/
theorem HeapFrom.first_max (hc : WeakOrder cmp) (h : HeapFrom cmp 0 l) (hj : j < l.length) :
    cmp (entry l 0) (entry l j) = false := by
  induction j using Nat.strongRecOn with
  | ind j ih =>
    by_cases hzero : j = 0
    · rw [hzero]
      exact hc.irrefl _
    · exact hc.negTrans _ _ _ (ih ((j - 1) / 2) (by omega) (by omega))
        (h ((j - 1) / 2) j (by omega) (by omega) hj)

theorem mem_iff_entry {a : α} : a ∈ l ↔ ∃ j, j < l.length ∧ entry l j = a := by
  rw [List.mem_iff_getElem]
  constructor
  · rintro ⟨j, hj, rfl⟩
    exact ⟨j, hj, List.getD_eq_getElem _ _ hj⟩
  · rintro ⟨j, hj, rfl⟩
    exact ⟨j, hj, (List.getD_eq_getElem _ _ hj).symm⟩

/-- **Popping a heap.** The greatest entry goes to the end, and the rest is a heap. -/
theorem popHeap_spec (hc : WeakOrder cmp) (h : HeapFrom cmp 0 l) (hl : l ≠ []) :
    ∃ top rest, popHeap cmp l = rest ++ [top] ∧ (rest ++ [top]).Perm l ∧ HeapFrom cmp 0 rest ∧
      ∀ a ∈ l, cmp top a = false := by
  have hpos : 0 < l.length := List.length_pos_iff.2 hl
  have hperm : (Heap.swap l 0 (l.length - 1)).Perm l := swap_perm hpos (by omega)
  have hlast : (Heap.swap l 0 (l.length - 1)).drop (l.length - 1) = [entry l 0] := by
    have htop : entry (Heap.swap l 0 (l.length - 1)) (l.length - 1) = entry l 0 := by
      rw [entry_swap hpos (by omega), if_pos rfl]
    unfold entry at htop
    rw [List.getD_eq_getElem _ _ (by rw [length_swap]; omega)] at htop
    rw [List.drop_eq_getElem_cons (by rw [length_swap]; omega), htop, Nat.sub_add_cancel hpos,
      List.drop_eq_nil_of_le (Nat.le_of_eq (length_swap l 0 _))]
    rfl
  have hrest : HeapExcept cmp 0 0 (Heap.swap l 0 (l.length - 1)).dropLast := by
    refine HeapFrom.except ?_
    intro i j hi hj hjl
    rw [List.length_dropLast, length_swap] at hjl
    have hentry : ∀ k, 0 < k → k < l.length - 1 →
        entry (Heap.swap l 0 (l.length - 1)).dropLast k = entry l k := by
      intro k hk hkl
      have hsame : entry (Heap.swap l 0 (l.length - 1)).dropLast k =
          entry (Heap.swap l 0 (l.length - 1)) k := by
        unfold entry
        rw [List.getD_eq_getElem?_getD, List.getD_eq_getElem?_getD, List.getElem?_dropLast, length_swap,
          if_pos hkl]
      rw [hsame, entry_swap hpos (by omega), if_neg (by omega), if_neg (by omega)]
    rw [hentry i (by omega) (by omega), hentry j (by omega) (by omega)]
    exact h i j (by omega) hj (by omega)
  refine ⟨entry l 0, siftDown cmp l.length (Heap.swap l 0 (l.length - 1)).dropLast 0, ?_, ?_, ?_, ?_⟩
  · unfold popHeap
    dsimp only
    rw [length_swap, hlast]
  · have hsplit : (Heap.swap l 0 (l.length - 1)).dropLast ++ [entry l 0] =
        Heap.swap l 0 (l.length - 1) := by
      rw [List.dropLast_eq_take, length_swap, ← hlast, List.take_append_drop]
    refine ((siftDown_perm _ _ 0).append_right _).trans ?_
    rw [hsplit]
    exact hperm
  · refine siftDown_heapFrom hc (Nat.le_refl _) hrest ?_
    rw [List.length_dropLast, length_swap]
    omega
  · intro a ha
    obtain ⟨j, hj, rfl⟩ := mem_iff_entry.1 ha
    exact h.first_max hc hj

end Lib.Heap
