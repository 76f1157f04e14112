import Pumpbug.Util.TopK
import Mathlib.Data.List.SplitBy

/-!
# Clusters of bins

`clusterPeaks` of `topk.h`: the bins are sorted, and one sweep closes a cluster at every gap larger
than the merge distance.  Energies are exact.
-/

namespace Pumpbug.Util

/-- `centers[i]`, `energies[i]` and `counts[i]` describe one cluster. -/
structure Peak where
  center : ℕ
  energy : ℚ
  count : ℕ
  deriving DecidableEq

/-- The loudest bin so far, ties to the earlier one, and the energy so far. -/
def louder (magSq : ℕ → ℚ) (s : ℕ × ℚ) (b : ℕ) : ℕ × ℚ :=
  (if magSq s.1 < magSq b then b else s.1, s.2 + magSq b)

/-- The peak of the bins `scratch[start..i)`. -/
def peakOf (magSq : ℕ → ℚ) (bins : List ℕ) : Peak :=
  let best := bins.getD 0 0
  let s := (bins.drop 1).foldl (louder magSq) (best, magSq best)
  { center := s.1, energy := s.2, count := bins.length % 2 ^ 16 }

/-- The rounds `i` to `k` of the sweep; the open cluster begins at `start`. -/
def sweep (scratch : List ℕ) (magSq : ℕ → ℚ) (gap centersCap : ℕ) : ℕ → ℕ → ℕ → List Peak → List Peak
  | 0, _, _, out => out
  | rounds + 1, i, start, out =>
    if ¬ (i = scratch.length ∨ (gap : ℤ) < (scratch.getD i 0 : ℤ) - scratch.getD (i - 1) 0) then
      sweep scratch magSq gap centersCap rounds (i + 1) start out
    else if centersCap ≤ out.length then out
    else
      sweep scratch magSq gap centersCap rounds (i + 1) i
        (out ++ [peakOf magSq ((scratch.drop start).take (i - start))])

/-- The clusters written. -/
def clusterPeaks (indices : List ℕ) (magSq : ℕ → ℚ) (gap centersCap : ℕ) : List Peak :=
  if indices.length = 0 ∨ centersCap = 0 then []
  else
    let scratch := indices.mergeSort
    sweep scratch magSq gap centersCap indices.length 1 0 []

/-! ## The peak of a cluster -/

section Peak

variable {magSq : ℕ → ℚ}

/-- The lowest of the loudest bins. -/
structure Loudest (magSq : ℕ → ℚ) (bins : List ℕ) (best : ℕ) : Prop where
  mem : best ∈ bins
  max : ∀ b ∈ bins, magSq b ≤ magSq best
  lowest : ∀ b ∈ bins, magSq b = magSq best → best ≤ b

theorem louder_foldl {seen : List ℕ} {s : ℕ × ℚ} (hbest : Loudest magSq seen s.1)
    (hsum : s.2 = (seen.map magSq).sum) {bins : List ℕ} (hord : (seen ++ bins).Pairwise (· ≤ ·)) :
    Loudest magSq (seen ++ bins) (bins.foldl (louder magSq) s).1 ∧
      (bins.foldl (louder magSq) s).2 = ((seen ++ bins).map magSq).sum := by
  induction bins generalizing seen s with
  | nil =>
    rw [List.append_nil]
    exact ⟨hbest, hsum⟩
  | cons b bins ih =>
    rw [← List.singleton_append, ← List.append_assoc] at hord ⊢
    have hsplit := List.pairwise_append.1 (List.pairwise_append.1 hord).1
    have hnext : Loudest magSq (seen ++ [b]) (louder magSq s b).1 := by
      unfold louder
      dsimp only
      by_cases hlt : magSq s.1 < magSq b
      · rw [if_pos hlt]
        refine ⟨by simp, ?_, ?_⟩
        · intro b' hb'
          rcases List.mem_append.1 hb' with hb' | hb'
          · exact (hbest.max b' hb').trans hlt.le
          · rw [List.mem_singleton.1 hb']
        · intro b' hb' heq
          rcases List.mem_append.1 hb' with hb' | hb'
          · exact absurd heq ((hbest.max b' hb').trans_lt hlt).ne
          · rw [List.mem_singleton.1 hb']
      · rw [if_neg hlt]
        refine ⟨List.mem_append_left _ hbest.mem, ?_, ?_⟩
        · intro b' hb'
          rcases List.mem_append.1 hb' with hb' | hb'
          · exact hbest.max b' hb'
          · rw [List.mem_singleton.1 hb']
            exact not_lt.1 hlt
        · intro b' hb' heq
          rcases List.mem_append.1 hb' with hb' | hb'
          · exact hbest.lowest b' hb' heq
          · exact hsplit.2.2 s.1 hbest.mem b' hb'
    refine ih hnext ?_ hord
    unfold louder
    dsimp only
    rw [hsum, List.map_append, List.sum_append, List.map_singleton, List.sum_singleton]

/-- **The peak of a cluster.** -/
theorem peakOf_spec (magSq : ℕ → ℚ) {bins : List ℕ} (hne : bins ≠ []) (hord : bins.Pairwise (· ≤ ·)) :
    Loudest magSq bins (peakOf magSq bins).center ∧
      (peakOf magSq bins).energy = (bins.map magSq).sum ∧
      (peakOf magSq bins).count = bins.length % 2 ^ 16 := by
  cases bins with
  | nil => exact absurd rfl hne
  | cons b bins =>
    have hfirst : Loudest magSq [b] b := by
      refine ⟨List.mem_singleton_self b, ?_, ?_⟩
      · intro b' hb'
        rw [List.mem_singleton.1 hb']
      · intro b' hb' _
        rw [List.mem_singleton.1 hb']
    have hsum : magSq b = ([b].map magSq).sum := by
      rw [List.map_singleton, List.sum_singleton]
    obtain ⟨hbest, htotal⟩ := louder_foldl (s := (b, magSq b)) hfirst hsum hord
    exact ⟨hbest, htotal, rfl⟩

end Peak

/-! ## The sweep -/

section Sweep

variable {scratch : List ℕ} {magSq : ℕ → ℚ} {gap centersCap : ℕ}

/-- `b` follows `a` within the merge distance. -/
def near (gap a b : ℕ) : Bool := b ≤ a + gap

theorem boundary_iff {a b : ℕ} : (gap : ℤ) < (b : ℤ) - a ↔ near gap a b = false := by
  unfold near
  rw [decide_eq_false_iff_not]
  omega

/-- The bins of the open cluster. -/
theorem take_concat {i start : ℕ} (hs : start < i) (hi : i < scratch.length) :
    (scratch.drop start).take (i + 1 - start) =
      (scratch.drop start).take (i - start) ++ [scratch.getD i 0] := by
  have hlen : i - start < (scratch.drop start).length := by
    rw [List.length_drop]
    omega
  rw [show i + 1 - start = i - start + 1 by omega, List.take_succ_eq_append_getElem hlen,
    List.getElem_drop, List.getD_eq_getElem _ _ hi]
  congr 3
  omega

theorem getLast?_open {i start : ℕ} (hs : start < i) (hi : i ≤ scratch.length) :
    ((scratch.drop start).take (i - start)).getLast? = some (scratch.getD (i - 1) 0) := by
  rw [List.getLast?_eq_getElem?, List.length_take, List.length_drop, min_eq_left (by omega),
    List.getElem?_take_of_lt (by omega), List.getElem?_drop, List.getD_eq_getElem _ _ (by omega),
    List.getElem?_eq_getElem (by omega)]
  congr 2
  omega

/-- A cluster closed at `i` is the first of what lies behind its start. -/
theorem splitBy_closed {i start : ℕ} (hs : start < i) (hi : i ≤ scratch.length)
    (hchain : ((scratch.drop start).take (i - start)).IsChain fun a b => near gap a b = true)
    (hgap : i < scratch.length → near gap (scratch.getD (i - 1) 0) (scratch.getD i 0) = false) :
    (scratch.drop start).splitBy (near gap) =
      (scratch.drop start).take (i - start) :: (scratch.drop i).splitBy (near gap) := by
  have hsplit : scratch.drop start = (scratch.drop start).take (i - start) ++ scratch.drop i := by
    have hdrop : (scratch.drop start).drop (i - start) = scratch.drop i := by
      rw [List.drop_drop]
      congr 1
      omega
    rw [← hdrop, List.take_append_drop]
  have hne : (scratch.drop start).take (i - start) ≠ [] := by
    intro hnil
    have hlast := getLast?_open hs hi
    rw [hnil] at hlast
    exact absurd hlast nofun
  conv_lhs => rw [hsplit]
  rw [List.splitBy_append, List.splitBy_of_isChain hne hchain, List.singleton_append]
  intro x hx y hy
  rw [getLast?_open hs hi] at hx
  rw [List.head?_drop] at hy
  obtain ⟨hlt, hy⟩ := List.getElem?_eq_some_iff.1 hy
  rw [← Option.some.inj hx, ← hy, ← List.getD_eq_getElem scratch 0 hlt]
  exact hgap hlt

/-- **The sweep** closes the clusters one by one, as far as there is room. -/
theorem sweep_eq {rounds i start : ℕ} {out : List Peak} (hs : start < i) (hi : i ≤ scratch.length)
    (hrounds : rounds + i = scratch.length + 1)
    (hchain : ((scratch.drop start).take (i - start)).IsChain fun a b => near gap a b = true) :
    sweep scratch magSq gap centersCap rounds i start out =
      out ++ (((scratch.drop start).splitBy (near gap)).map (peakOf magSq)).take
        (centersCap - out.length) := by
  induction rounds generalizing i start out with
  | zero => omega
  | succ rounds ih =>
    unfold sweep
    by_cases hclose : i = scratch.length ∨ (gap : ℤ) < (scratch.getD i 0 : ℤ) - scratch.getD (i - 1) 0
    · rw [if_neg (not_not.2 hclose)]
      have hgap : i < scratch.length → near gap (scratch.getD (i - 1) 0) (scratch.getD i 0) = false := by
        intro hlt
        exact boundary_iff.1 (hclose.resolve_left hlt.ne)
      rw [splitBy_closed hs hi hchain hgap, List.map_cons]
      by_cases hfull : centersCap ≤ out.length
      · rw [if_pos hfull, Nat.sub_eq_zero_of_le hfull, List.take_zero, List.append_nil]
      · rw [if_neg hfull, show centersCap - out.length = centersCap - (out.length + 1) + 1 by omega,
          List.take_succ_cons]
        by_cases hend : i = scratch.length
        · have hdone : rounds = 0 := by omega
          rw [hdone, hend, List.drop_length]
          simp [sweep]
        · have hnext : ((scratch.drop i).take (i + 1 - i)).IsChain fun a b => near gap a b = true := by
            rw [Nat.add_sub_cancel_left]
            cases scratch.drop i with
            | nil => exact List.isChain_nil
            | cons b bins => exact List.isChain_singleton b
          rw [ih (Nat.lt_succ_self i) (by omega) (by omega) hnext, List.append_assoc,
            List.length_append, List.length_singleton]
          rfl
    · rw [if_pos hclose]
      obtain ⟨hend, hnear⟩ := not_or.1 hclose
      have hlt : i < scratch.length := lt_of_le_of_ne hi hend
      rw [boundary_iff, Bool.not_eq_false] at hnear
      refine ih (by omega) hlt (by omega) ?_
      rw [take_concat hs hlt, List.isChain_append]
      refine ⟨hchain, List.isChain_singleton _, ?_⟩
      intro a ha b hb
      rw [getLast?_open hs hi] at ha
      rw [← Option.some.inj ha, ← Option.some.inj hb]
      exact hnear

end Sweep

/-! ## The result -/

section Result

variable {indices : List ℕ} {magSq : ℕ → ℚ} {gap centersCap : ℕ}

/-- The sorted bins, split at the gaps. -/
def clusters (indices : List ℕ) (gap : ℕ) : List (List ℕ) :=
  (indices.mergeSort).splitBy (near gap)

theorem clusterPeaks_eq : clusterPeaks indices magSq gap centersCap =
    ((clusters indices gap).map (peakOf magSq)).take centersCap := by
  unfold clusterPeaks clusters
  by_cases hnone : indices.length = 0 ∨ centersCap = 0
  · rw [if_pos hnone]
    rcases hnone with hnil | hcap
    · rw [List.length_eq_zero_iff.1 hnil, List.mergeSort_nil, List.splitBy_nil, List.map_nil,
        List.take_nil]
    · rw [hcap, List.take_zero]
  · rw [if_neg hnone]
    obtain ⟨hne, hcap⟩ := not_or.1 hnone
    have hlen : (indices.mergeSort).length = indices.length := List.length_mergeSort _
    have hchain : (((indices.mergeSort).drop 0).take (1 - 0)).IsChain fun a b => near gap a b = true := by
      rw [List.drop_zero]
      cases indices.mergeSort with
      | nil => exact List.isChain_nil
      | cons b bins => exact List.isChain_singleton b
    dsimp only
    rw [sweep_eq Nat.zero_lt_one (by omega) (by omega) hchain]
    rfl

theorem mergeSort_pairwise (l : List ℕ) : (l.mergeSort).Pairwise (· ≤ ·) := by
  have hpairs := @List.pairwise_mergeSort ℕ (fun a b => decide (a ≤ b))
    (fun a b c hab hbc => decide_eq_true ((of_decide_eq_true hab).trans (of_decide_eq_true hbc)))
    (fun a b => by simpa using le_total a b) l
  refine hpairs.imp ?_
  intro a b h
  exact of_decide_eq_true h

/-- Every cluster is sorted and has a bin. -/
theorem clusters_mem {c : List ℕ} (hc : c ∈ clusters indices gap) : c ≠ [] ∧ c.Pairwise (· ≤ ·) := by
  refine ⟨List.ne_nil_of_mem_splitBy hc, ?_⟩
  have hflat : (clusters indices gap).flatten = indices.mergeSort := List.flatten_splitBy _ _
  have hpairs := mergeSort_pairwise indices
  rw [← hflat] at hpairs
  exact hpairs.sublist (List.sublist_flatten_of_mem hc)

theorem clusters_flatten_perm (indices : List ℕ) (gap : ℕ) : (clusters indices gap).flatten.Perm indices := by
  have hflat : (clusters indices gap).flatten = indices.mergeSort := List.flatten_splitBy _ _
  rw [hflat]
  exact List.mergeSort_perm _ _

theorem clusters_length : (clusters indices gap).length ≤ indices.length := by
  have hlen := (clusters_flatten_perm indices gap).length_eq
  rw [List.length_flatten] at hlen
  rw [← hlen]
  have hle := List.length_le_sum_of_one_le ((clusters indices gap).map List.length) ?_
  · rwa [List.length_map] at hle
  · intro n hn
    obtain ⟨c, hc, rfl⟩ := List.mem_map.1 hn
    exact List.length_pos_iff.2 (clusters_mem hc).1

/-- The clusters of the bins, split exactly at the gaps, and the peak of each. -/
structure Clustered (indices : List ℕ) (magSq : ℕ → ℚ) (gap : ℕ) (cs : List (List ℕ)) : Prop where
  sorted : cs.flatten = indices.mergeSort
  perm : cs.flatten.Perm indices
  occupied : [] ∉ cs
  close : ∀ c ∈ cs, c.IsChain fun a b => b ≤ a + gap
  apart : cs.IsChain fun c d => ∃ hc hd, c.getLast hc + gap < d.head hd
  peak : ∀ c ∈ cs, Loudest magSq c (peakOf magSq c).center ∧
    (peakOf magSq c).energy = (c.map magSq).sum ∧ (peakOf magSq c).count = c.length % 2 ^ 16
  energies : ((cs.map (peakOf magSq)).map Peak.energy).sum = (indices.map magSq).sum
  counts : (∀ c ∈ cs, c.length < 2 ^ 16) →
    ((cs.map (peakOf magSq)).map Peak.count).sum = indices.length

theorem clustered (indices : List ℕ) (magSq : ℕ → ℚ) (gap : ℕ) :
    Clustered indices magSq gap (clusters indices gap) where
  sorted := List.flatten_splitBy _ _
  perm := clusters_flatten_perm indices gap
  occupied := List.nil_notMem_splitBy _ _
  close c hc := by
    refine (List.isChain_of_mem_splitBy hc).imp ?_
    intro a b h
    exact of_decide_eq_true h
  apart := by
    refine (List.isChain_getLast_head_splitBy (near gap) _).imp ?_
    rintro c d ⟨hc, hd, h⟩
    refine ⟨hc, hd, ?_⟩
    unfold near at h
    rw [decide_eq_false_iff_not, not_le] at h
    exact h
  peak c hc := peakOf_spec magSq (clusters_mem hc).1 (clusters_mem hc).2
  energies := by
    rw [← ((clusters_flatten_perm indices gap).map magSq).sum_eq, List.map_flatten, List.sum_flatten,
      List.map_map, List.map_map]
    congr 1
    refine List.map_congr_left ?_
    intro c hc
    exact (peakOf_spec magSq (clusters_mem hc).1 (clusters_mem hc).2).2.1
  counts hsmall := by
    rw [← (clusters_flatten_perm indices gap).length_eq, List.length_flatten,
      List.map_map]
    congr 1
    refine List.map_congr_left ?_
    intro c hc
    exact (peakOf_spec magSq (clusters_mem hc).1 (clusters_mem hc).2).2.2.trans
      (Nat.mod_eq_of_lt (hsmall c hc))

/-- **The loudest bins and their clusters.** The selection is the shortest prefix of the stably
sorted bins that reaches the fraction of the total, or as much of it as the cap allows; the clusters
split the sorted bins at the gaps, and less capacity drops the last of them. -/
theorem loudest_bins_clustered :
    (∀ arr : List ℚ, arr.length ≤ UINT16_MAX → (∀ e ∈ arr, 0 ≤ e) → 0 < arr.foldl (· + ·) 0 →
      ∀ target : ℚ, 0 < target → target ≤ 1 → ∀ (buf : List ℕ) (maxK : ℕ),
        ∃ buf' k p, topByEnergyFraction arr target buf maxK = some (buf', k) ∧
          Shortest arr (target * arr.foldl (· + ·) 0) p ∧ k = min p maxK ∧
          buf'.take k = (sortedBins arr).take k) ∧
    ∀ (indices : List ℕ) (magSq : ℕ → ℚ) (gap : ℕ), ∃ cs, Clustered indices magSq gap cs ∧
      (∀ cap, cs.length ≤ cap → clusterPeaks indices magSq gap cap = cs.map (peakOf magSq)) ∧
      cs.length ≤ indices.length ∧
      ∀ cap, clusterPeaks indices magSq gap cap = (cs.map (peakOf magSq)).take cap := by
  refine ⟨?_, ?_⟩
  · intro arr hn _ htotal target hpos hone buf maxK
    exact topByEnergyFraction_spec hn htotal hpos hone buf maxK
  · intro indices magSq gap
    refine ⟨clusters indices gap, clustered indices magSq gap, ?_, clusters_length, ?_⟩
    · intro cap hcap
      rw [clusterPeaks_eq, List.take_of_length_le (by rwa [List.length_map])]
    · intro cap
      exact clusterPeaks_eq

theorem loudest_bins_clustered_tie :
    (∃ buf' k p, topByEnergyFraction [1, 4, 0, 4, 1] (1 / 2) [0, 0, 0, 0, 0] 3 = some (buf', k) ∧
      Shortest [1, 4, 0, 4, 1] (1 / 2 * [(1 : ℚ), 4, 0, 4, 1].foldl (· + ·) 0) p ∧ k = min p 3 ∧
      buf'.take k = (sortedBins [1, 4, 0, 4, 1]).take k) ∧
    ∃ cs, Clustered [3, 1] (energy [1, 4, 0, 4, 1]) 2 cs ∧
      ∀ cap, clusterPeaks [3, 1] (energy [1, 4, 0, 4, 1]) 2 cap =
        (cs.map (peakOf (energy [1, 4, 0, 4, 1]))).take cap := by
  refine ⟨?_, ?_⟩
  · exact loudest_bins_clustered.1 [1, 4, 0, 4, 1] (by decide) (by norm_num) (by norm_num) (1 / 2)
      (by norm_num) (by norm_num) [0, 0, 0, 0, 0] 3
  · obtain ⟨cs, hcs, -, -, hpeaks⟩ :=
      loudest_bins_clustered.2 [3, 1] (energy [1, 4, 0, 4, 1]) 2
    exact ⟨cs, hcs, hpeaks⟩

theorem peakOf_count (magSq : ℕ → ℚ) (bins : List ℕ) :
    (peakOf magSq bins).count = bins.length % 2 ^ 16 := rfl

/-- Copies of one bin are one cluster. -/
theorem clusters_replicate {k : ℕ} (hk : k ≠ 0) (b gap : ℕ) :
    clusters (List.replicate k b) gap = [List.replicate k b] := by
  have hsorted : (List.replicate k b).mergeSort = List.replicate k b := by
    refine List.mergeSort_of_pairwise (List.pairwise_replicate.2 (.inr ?_))
    exact decide_eq_true (Nat.le_refl b)
  unfold clusters
  rw [hsorted]
  refine List.splitBy_of_isChain ?_ (List.isChain_replicate_of_rel k ?_)
  · rw [Ne, List.replicate_eq_nil_iff]
    exact hk
  · exact decide_eq_true (Nat.le_add_right b gap)

/-- As many copies of one bin as a count can no longer hold. -/
theorem not_counts_sum :
    ((clusterPeaks (List.replicate (2 ^ 16) 0) (fun _ => 1) 0 1).map Peak.count).sum ≠
      (List.replicate (2 ^ 16) 0).length := by
  have hsize : 2 ^ 16 ≠ 0 := by norm_num
  generalize hk : 2 ^ 16 = k at hsize ⊢
  rw [clusterPeaks_eq, clusters_replicate hsize, List.map_singleton, List.take_succ_cons, List.take_zero,
    List.map_singleton, List.sum_singleton, peakOf_count, List.length_replicate, hk, Nat.mod_self]
  exact hsize.symm

end Result

end Pumpbug.Util
