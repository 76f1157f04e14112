import Pumpbug.Lib.Heap
import Mathlib.Algebra.BigOperators.Group.List.Basic
import Mathlib.Algebra.Order.BigOperators.Group.List
import Mathlib.Algebra.Order.Ring.Rat
import Mathlib.Tactic.Linarith

/-!
# The loudest bins

`topByEnergyFraction` of `topk.h`: a heap selection in the caller's buffer.  The popped indices
gather behind the heap, the loudest last; they are reversed in place and moved to the front.
Energies are exact.
-/

namespace Pumpbug.Util

open Lib

/-- Energy of the bin `i`. -/
def energy (arr : List ℚ) (i : ℕ) : ℚ := arr.getD i 0

/-- `a` comes below `b`; of two bins of equal energy the lower index wins. -/
def cmp (arr : List ℚ) (a b : ℕ) : Bool :=
  if energy arr a ≠ energy arr b then energy arr a < energy arr b else b < a

def UINT16_MAX : ℕ := 65535

/-- Pop the largest until the accumulated energy meets `wanted`, the cap is reached, or the heap is
empty. The heap is `buf[0..m)`; the result is the buffer and how many were popped. -/
def popLoop (arr : List ℚ) (wanted : ℚ) (maxK : ℕ) : ℕ → List ℕ → ℚ → ℕ → List ℕ × ℕ
  | 0, buf, _, k => (buf, k)
  | m + 1, buf, acc, k =>
    if k < maxK ∧ acc < wanted then
      let buf := Heap.popHeap (cmp arr) (buf.take (m + 1)) ++ buf.drop (m + 1)
      popLoop arr wanted maxK m buf (acc + energy arr (buf.getD m 0)) (k + 1)
    else (buf, k)

/-- Reverse the popped indices in place, then shift them to the front. -/
def moveToFront (buf : List ℕ) (n k : ℕ) : List ℕ :=
  let buf := buf.take (n - k) ++ (buf.drop (n - k)).reverse
  (buf.drop (n - k)).take k ++ buf.drop k

/-- `buf` holds the first `n` entries of the caller's buffer; none if an assertion fails. -/
def topByEnergyFraction (arr : List ℚ) (target : ℚ) (buf : List ℕ) (maxK : ℕ) : Option (List ℕ × ℕ) :=
  let n := arr.length
  if UINT16_MAX < n then none
  else if n = 0 ∨ maxK = 0 ∨ target ≤ 0 then some (buf, 0)
  else
    let total := arr.foldl (· + ·) 0
    if total ≤ 0 then some (buf, 0)
    else
      let buf := (List.range n).map (· % 2 ^ 16)
      let buf := Heap.makeHeap (cmp arr) buf
      let (buf, k) := popLoop arr (target * total) maxK n buf 0 0
      some (moveToFront buf n k, k)

/-! ## The order of the bins -/

section Order

variable {arr : List ℚ} {a b c : ℕ}

/-- `b` does not come above `a`. -/
theorem cmp_eq_false_iff : cmp arr a b = false ↔
    energy arr b < energy arr a ∨ (energy arr a = energy arr b ∧ a ≤ b) := by
  unfold cmp
  by_cases h : energy arr a = energy arr b
  · rw [if_neg (not_not.2 h), h]
    simp
  · rw [if_pos h, decide_eq_false_iff_not, not_lt]
    constructor
    · intro hle
      exact .inl (lt_of_le_of_ne hle (Ne.symm h))
    · rintro (hlt | ⟨heq, -⟩)
      · exact hlt.le
      · exact absurd heq h

theorem cmp_weakOrder (arr : List ℚ) : Heap.WeakOrder (cmp arr) where
  asymm a b h := by
    rw [cmp_eq_false_iff]
    unfold cmp at h
    split_ifs at h with hne
    · exact .inl (of_decide_eq_true h)
    · exact .inr ⟨(not_not.1 hne).symm, (of_decide_eq_true h).le⟩
  negTrans a b c hab hbc := by
    rw [cmp_eq_false_iff] at *
    rcases hab with hab | ⟨hab, hle⟩
    · rcases hbc with hbc | ⟨hbc, hle'⟩
      · exact .inl (hbc.trans hab)
      · exact .inl (hbc ▸ hab)
    · rcases hbc with hbc | ⟨hbc, hle'⟩
      · exact .inl (hab ▸ hbc)
      · exact .inr ⟨hab.trans hbc, hle.trans hle'⟩

theorem cmp_antisymm (hab : cmp arr a b = false) (hba : cmp arr b a = false) : a = b := by
  rw [cmp_eq_false_iff] at *
  rcases hab with hab | ⟨hab, hle⟩
  · rcases hba with hba | ⟨hba, -⟩
    · exact absurd hba hab.asymm
    · exact absurd hba hab.ne
  · rcases hba with hba | ⟨-, hle'⟩
    · exact absurd hab.symm hba.ne'
    · exact le_antisymm hle hle'

/-- Sorting by the comparator. -/
theorem mergeSort_cmp_pairwise (arr : List ℚ) (l : List ℕ) :
    (l.mergeSort fun a b => !cmp arr a b).Pairwise fun a b => cmp arr a b = false := by
  have hc := cmp_weakOrder arr
  have hpairs := @List.pairwise_mergeSort ℕ (fun a b => !cmp arr a b)
    (fun a b c hab hbc => by
      rw [Bool.not_eq_true'] at *
      exact hc.negTrans a b c hab hbc)
    (fun a b => by
      cases hab : cmp arr a b with
      | false => rfl
      | true =>
        rw [hc.asymm a b hab]
        rfl) l
  refine hpairs.imp ?_
  intro a b h
  rwa [Bool.not_eq_true'] at h

/-- The bins, stably sorted by decreasing energy. -/
def sortedBins (arr : List ℚ) : List ℕ :=
  (List.range arr.length).mergeSort fun a b => decide (energy arr b ≤ energy arr a)

theorem sortedBins_perm (arr : List ℚ) : (sortedBins arr).Perm (List.range arr.length) :=
  List.mergeSort_perm _ _

/-- The stable sort puts bins of equal energy in the order of their indices. -/
theorem sortedBins_pairwise (arr : List ℚ) :
    (sortedBins arr).Pairwise fun a b => cmp arr a b = false := by
  let le : ℕ → ℕ → Bool := fun a b => decide (energy arr b ≤ energy arr a)
  have htie : (List.range arr.length).zipIdx = (List.range arr.length).map fun i => (i, i) := by
    refine List.ext_getElem (by simp) ?_
    intro i h₁ h₂
    simp
  have hsorted : sortedBins arr =
      (List.range arr.length).mergeSort fun a b => !cmp arr a b := by
    have hmap := List.map_mergeSort (l := List.range arr.length) (r := fun a b => !cmp arr a b)
      (s := List.zipIdxLE le) (f := fun i => (i, i)) ?_
    · unfold sortedBins
      rw [← List.mergeSort_zipIdx, htie, ← hmap, List.map_map]
      exact List.map_id _
    · intro a _ b _
      unfold List.zipIdxLE
      dsimp only [le]
      rw [Bool.eq_iff_iff, Bool.not_eq_true', cmp_eq_false_iff]
      by_cases h₁ : energy arr b ≤ energy arr a
      · by_cases h₂ : energy arr a ≤ energy arr b
        · have heq := le_antisymm h₁ h₂
          simp [heq]
        · simp [h₁, h₂, not_le.1 h₂]
      · simp [h₁, (not_le.1 h₁).le, (not_le.1 h₁).ne]
  rw [hsorted]
  exact mergeSort_cmp_pairwise arr _

/-- Indices in order, of which the rest comes below, are the first of the sorted bins. -/
theorem sortedBins_take {popped heap : List ℕ}
    (hperm : (popped ++ heap).Perm (List.range arr.length))
    (hsettled : popped.Pairwise fun a b => cmp arr a b = false)
    (habove : ∀ a ∈ popped, ∀ b ∈ heap, cmp arr a b = false) :
    (sortedBins arr).take popped.length = popped := by
  let rest := heap.mergeSort fun a b => !cmp arr a b
  have hrest : rest.Perm heap := List.mergeSort_perm _ _
  have hall : sortedBins arr = popped ++ rest := by
    refine @List.Perm.eq_of_pairwise ℕ (fun a b => cmp arr a b = false) _ _ ?_ (sortedBins_pairwise arr) ?_ ?_
    · intro a b _ _ hab hba
      exact cmp_antisymm hab hba
    · rw [List.pairwise_append]
      refine ⟨hsettled, mergeSort_cmp_pairwise arr heap, ?_⟩
      intro a ha b hb
      exact habove a ha b (hrest.mem_iff.1 hb)
    · exact (sortedBins_perm arr).trans (hperm.symm.trans (hrest.symm.append_left _))
  rw [hall]
  exact List.take_left' rfl

end Order

/-! ## The selection -/

section Selection

variable {arr : List ℚ} {wanted : ℚ} {maxK : ℕ}

/-- Energy of the bins `l`. -/
def totalEnergy (arr : List ℚ) (l : List ℕ) : ℚ := (l.map (energy arr)).sum

theorem totalEnergy_concat (arr : List ℚ) (l : List ℕ) (i : ℕ) :
    totalEnergy arr (l ++ [i]) = totalEnergy arr l + energy arr i := by
  unfold totalEnergy
  rw [List.map_append, List.sum_append, List.map_singleton, List.sum_singleton]

/-- The buffer of the selection: a heap, and behind it the popped indices, the last popped first. -/
structure Selected (arr : List ℚ) (wanted : ℚ) (maxK : ℕ) (heap popped : List ℕ) : Prop where
  ordered : Heap.HeapFrom (cmp arr) 0 heap
  perm : (popped ++ heap).Perm (List.range arr.length)
  settled : popped.Pairwise fun a b => cmp arr a b = false
  above : ∀ a ∈ popped, ∀ b ∈ heap, cmp arr a b = false
  capped : popped.length ≤ maxK
  short : ∀ j < popped.length, totalEnergy arr (popped.take j) < wanted

/-- One pop. -/
theorem Selected.pop {heap popped : List ℕ} (h : Selected arr wanted maxK heap popped)
    (hne : heap ≠ []) (hcap : popped.length < maxK) (hshort : totalEnergy arr popped < wanted) :
    ∃ top rest, Heap.popHeap (cmp arr) heap = rest ++ [top] ∧
      Selected arr wanted maxK rest (popped ++ [top]) := by
  obtain ⟨top, rest, hpop, hperm, hheap, htop⟩ := Heap.popHeap_spec (cmp_weakOrder arr) h.ordered hne
  refine ⟨top, rest, hpop, hheap, ?_, ?_, ?_, ?_, ?_⟩
  · rw [List.append_assoc, List.singleton_append]
    exact (((List.perm_append_singleton top rest).symm.trans hperm).append_left popped).trans h.perm
  · rw [List.pairwise_append]
    refine ⟨h.settled, List.pairwise_singleton .., ?_⟩
    intro a ha b hb
    rw [List.mem_singleton.1 hb]
    exact h.above a ha top (hperm.mem_iff.1 (by simp))
  · intro a ha b hb
    have hmem : b ∈ heap := hperm.mem_iff.1 (List.mem_append_left _ hb)
    rcases List.mem_append.1 ha with ha | ha
    · exact h.above a ha b hmem
    · rw [List.mem_singleton.1 ha]
      exact htop b hmem
  · rw [List.length_append, List.length_singleton]
    exact hcap
  · intro j hj
    rw [List.length_append, List.length_singleton] at hj
    rw [List.take_append_of_le_length (by omega)]
    rcases Nat.lt_succ_iff_lt_or_eq.1 hj with hlt | rfl
    · exact h.short j hlt
    · rw [List.take_length]
      exact hshort

/-- **The pops.** What they leave in the buffer, and why they stop. -/
theorem popLoop_spec {heap popped : List ℕ} (h : Selected arr wanted maxK heap popped) :
    ∃ heap' popped', popLoop arr wanted maxK heap.length (heap ++ popped.reverse)
        (totalEnergy arr popped) popped.length = (heap' ++ popped'.reverse, popped'.length) ∧
      Selected arr wanted maxK heap' popped' ∧
      (heap' = [] ∨ popped'.length = maxK ∨ wanted ≤ totalEnergy arr popped') := by
  induction hm : heap.length generalizing heap popped with
  | zero =>
    have hnil := List.length_eq_zero_iff.1 hm
    exact ⟨heap, popped, rfl, h, .inl hnil⟩
  | succ m ih =>
    unfold popLoop
    by_cases hgo : popped.length < maxK ∧ totalEnergy arr popped < wanted
    · rw [if_pos hgo]
      have hne : heap ≠ [] := by
        rintro rfl
        exact absurd hm nofun
      obtain ⟨top, rest, hpop, hnext⟩ := h.pop hne hgo.1 hgo.2
      have hrest : rest.length = m := by
        have hlen := (hnext.perm.trans h.perm.symm).length_eq
        simp only [List.length_append, List.length_singleton] at hlen
        omega
      have hbuf : Heap.popHeap (cmp arr) ((heap ++ popped.reverse).take (m + 1)) ++
          (heap ++ popped.reverse).drop (m + 1) = rest ++ (popped ++ [top]).reverse := by
        rw [List.take_left' hm, List.drop_left' hm, hpop, List.reverse_append, List.append_assoc]
        rfl
      have hread : (rest ++ (popped ++ [top]).reverse).getD m 0 = top := by
        rw [List.reverse_append, List.getD_append_right _ _ _ _ (by omega), hrest, Nat.sub_self]
        rfl
      dsimp only
      rw [hbuf, hread, ← totalEnergy_concat]
      obtain ⟨heap', popped', hloop, hdone⟩ := ih hnext hrest
      rw [List.length_append, List.length_singleton] at hloop
      exact ⟨heap', popped', hloop, hdone⟩
    · rw [if_neg hgo]
      refine ⟨heap, popped, rfl, h, ?_⟩
      rcases not_and_or.1 hgo with hcap | henough
      · exact .inr (.inl (le_antisymm h.capped (not_lt.1 hcap)))
      · exact .inr (.inr (not_lt.1 henough))

/-! ## The result -/

/-- The first `p` of the sorted bins reach the wanted energy. -/
def Reaches (arr : List ℚ) (wanted : ℚ) (p : ℕ) : Prop :=
  wanted ≤ totalEnergy arr ((sortedBins arr).take p)

/-- The shortest prefix of the sorted bins that reaches the wanted energy. -/
def Shortest (arr : List ℚ) (wanted : ℚ) (p : ℕ) : Prop :=
  Reaches arr wanted p ∧ ∀ j < p, ¬ Reaches arr wanted j

theorem totalEnergy_range (arr : List ℚ) :
    totalEnergy arr (List.range arr.length) = arr.foldl (· + ·) 0 := by
  rw [← List.sum_eq_foldl]
  unfold totalEnergy
  congr 1
  refine List.ext_getElem (by simp) ?_
  intro i h₁ h₂
  rw [List.getElem_map, List.getElem_range]
  exact List.getD_eq_getElem _ _ h₂

theorem reaches_all (harr : wanted ≤ arr.foldl (· + ·) 0) : Reaches arr wanted arr.length := by
  unfold Reaches
  have hlen : (sortedBins arr).length = arr.length :=
    (sortedBins_perm arr).length_eq.trans (List.length_range ..)
  rw [← hlen, List.take_length]
  unfold totalEnergy
  rw [((sortedBins_perm arr).map _).sum_eq]
  exact harr.trans (totalEnergy_range arr).ge

/-- What is selected is the shortest prefix, or as much of it as the cap allows. -/
theorem Selected.take {heap popped : List ℕ} (h : Selected arr wanted maxK heap popped)
    (hstop : heap = [] ∨ popped.length = maxK ∨ wanted ≤ totalEnergy arr popped) {p : ℕ}
    (hp : Shortest arr wanted p) (hall : Reaches arr wanted arr.length) :
    popped.length = min p maxK ∧ popped = (sortedBins arr).take popped.length := by
  have htake := sortedBins_take h.perm h.settled h.above
  have hfront : ∀ j ≤ popped.length, (sortedBins arr).take j = popped.take j := by
    intro j hj
    rw [← htake, List.take_take, min_eq_left hj]
  have hle : popped.length ≤ p := by
    by_contra hlt
    have hshort := h.short p (not_le.1 hlt)
    have hreach := hp.1
    unfold Reaches at hreach
    rw [hfront p (not_le.1 hlt).le] at hreach
    exact absurd hreach (not_le.2 hshort)
  have hreached : Reaches arr wanted popped.length → p = popped.length := by
    intro hreach
    by_contra hne
    exact hp.2 popped.length (by omega) hreach
  refine ⟨?_, htake.symm⟩
  have hcapped := h.capped
  rcases hstop with hnil | hcap | henough
  · have hlen := h.perm.length_eq
    rw [hnil, List.append_nil, List.length_range] at hlen
    have := hreached (hlen ▸ hall)
    omega
  · omega
  · have hreach : Reaches arr wanted popped.length := by
      unfold Reaches
      rw [htake]
      exact henough
    have := hreached hreach
    omega

theorem exists_shortest (hall : Reaches arr wanted arr.length) : ∃ p, Shortest arr wanted p := by
  classical
  exact ⟨Nat.find ⟨_, hall⟩, Nat.find_spec ⟨_, hall⟩, fun j hj => Nat.find_min ⟨_, hall⟩ hj⟩

theorem moveToFront_take {heap popped : List ℕ} {n : ℕ} (hn : n - popped.length = heap.length) :
    (moveToFront (heap ++ popped.reverse) n popped.length).take popped.length = popped := by
  unfold moveToFront
  dsimp only
  have htail : (heap ++ popped.reverse).drop heap.length = popped.reverse := List.drop_left' rfl
  rw [hn, List.take_left' rfl, htail, List.reverse_reverse, List.drop_left' rfl, List.take_length]
  exact List.take_left' rfl

/-- **The selection.** The shortest prefix of the sorted bins that reaches the fraction of the
total, or as much of it as the cap allows. -/
theorem topByEnergyFraction_spec {target : ℚ} (hn : arr.length ≤ UINT16_MAX)
    (htotal : 0 < arr.foldl (· + ·) 0) (hpos : 0 < target) (hone : target ≤ 1) (buf : List ℕ) (maxK : ℕ) :
    ∃ buf' k p, topByEnergyFraction arr target buf maxK = some (buf', k) ∧
      Shortest arr (target * arr.foldl (· + ·) 0) p ∧ k = min p maxK ∧
      buf'.take k = (sortedBins arr).take k := by
  have hall : Reaches arr (target * arr.foldl (· + ·) 0) arr.length := by
    refine reaches_all ?_
    calc target * arr.foldl (· + ·) 0 ≤ 1 * arr.foldl (· + ·) 0 :=
          mul_le_mul_of_nonneg_right hone htotal.le
      _ = arr.foldl (· + ·) 0 := one_mul _
  obtain ⟨p, hp⟩ := exists_shortest hall
  have hne : arr.length ≠ 0 := by
    intro hzero
    rw [List.length_eq_zero_iff.1 hzero] at htotal
    exact lt_irrefl 0 htotal
  by_cases hcap : maxK = 0
  · refine ⟨buf, 0, p, ?_, hp, ?_, rfl⟩
    · unfold topByEnergyFraction
      dsimp only
      rw [if_neg (not_lt.2 hn), if_pos (.inr (.inl hcap))]
    · rw [hcap, Nat.min_zero]
  · have hbins : (List.range arr.length).map (· % 2 ^ 16) = List.range arr.length := by
      refine (List.map_congr_left ?_).trans (List.map_id _)
      intro i hi
      have hlt := List.mem_range.1 hi
      unfold UINT16_MAX at hn
      exact Nat.mod_eq_of_lt (by omega)
    have hstart : Selected arr (target * arr.foldl (· + ·) 0) maxK
        (Heap.makeHeap (cmp arr) (List.range arr.length)) [] := by
      refine ⟨Heap.makeHeap_heapFrom (cmp_weakOrder arr) _, ?_, List.Pairwise.nil, ?_, ?_, ?_⟩
      · exact Heap.makeHeap_perm _
      · intro a ha
        exact absurd ha List.not_mem_nil
      · exact Nat.zero_le _
      · intro j hj
        exact absurd hj (Nat.not_lt_zero j)
    have hheap : (Heap.makeHeap (cmp arr) (List.range arr.length)).length = arr.length :=
      (Heap.makeHeap_perm _).length_eq.trans (List.length_range ..)
    obtain ⟨heap, popped, hloop, hdone, hstop⟩ := popLoop_spec hstart
    obtain ⟨hk, htake⟩ := hdone.take hstop hp hall
    have hlen : arr.length - popped.length = heap.length := by
      have hsize := hdone.perm.length_eq
      rw [List.length_append, List.length_range] at hsize
      omega
    rw [hheap, List.reverse_nil, List.append_nil] at hloop
    have hpopped : popLoop arr (target * arr.foldl (· + ·) 0) maxK arr.length
        (Heap.makeHeap (cmp arr) (List.range arr.length)) 0 0 =
          (heap ++ popped.reverse, popped.length) := hloop
    refine ⟨moveToFront (heap ++ popped.reverse) arr.length popped.length, popped.length, p, ?_, hp, hk, ?_⟩
    · have hgo : ¬ (arr.length = 0 ∨ maxK = 0 ∨ target ≤ 0) := by simp [hne, hcap, hpos]
      unfold topByEnergyFraction
      dsimp only
      rw [if_neg (not_lt.2 hn), if_neg hgo, if_neg (not_le.2 htotal), hbins]
      rw [hpopped]
    · rw [moveToFront_take hlen]
      exact htake

end Selection

end Pumpbug.Util
