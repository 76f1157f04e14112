import Mathlib.Data.List.DropRight
import Mathlib.Data.List.Infix
import Mathlib.Order.Lattice
import Mathlib.Order.Defs.LinearOrder

/-!
# Sustained peaks

A series of timed values with gaps.  A value counts where the unbroken run up to it spans a hold
time, as the least value of the run in the trailing hold time; the peak is the greatest of these.
One pass with a queue of the trailing values finds it.  A queue of limited capacity holds the newest
values only.
-/

namespace Lib.Hold

variable {α : Type*}

/-! ## The queue -/

/-- The unbroken run at the end of a series. -/
def run (series : List (ℤ × Option α)) : List (ℤ × α) :=
  (series.rtakeWhile fun x => x.2.isSome).filterMap fun x => x.2.map fun v => (x.1, v)

/-- What a run has in the hold time up to its end. -/
def trailing (hold : ℤ) (r : List (ℤ × α)) : List (ℤ × α) :=
  match r.getLast? with
  | none => []
  | some last => r.filter fun x => last.1 - hold ≤ x.1

/-- All of a list, or as many of its last elements as the capacity allows. -/
def newest {β : Type*} (cap : Option ℕ) (l : List β) : List β :=
  match cap with
  | none => l
  | some n => l.rtake n

/-- Make room for one more element, and append it. -/
def push {β : Type*} (cap : Option ℕ) (l : List β) (x : β) : List β :=
  (if cap = some l.length then l.tail else l) ++ [x]

@[simp] theorem run_nil : run ([] : List (ℤ × Option α)) = [] := rfl

@[simp] theorem run_gap (p : List (ℤ × Option α)) (t : ℤ) : run (p ++ [(t, none)]) = [] := by
  unfold run
  rw [List.rtakeWhile_concat_neg _ _ _ (by simp)]
  rfl

@[simp] theorem run_value (p : List (ℤ × Option α)) (t : ℤ) (v : α) :
    run (p ++ [(t, some v)]) = run p ++ [(t, v)] := by
  unfold run
  rw [List.rtakeWhile_concat_pos _ _ _ (by simp), List.filterMap_append]
  rfl

theorem run_times (p : List (ℤ × Option α)) : ((run p).map Prod.fst).Sublist (p.map Prod.fst) := by
  induction p using List.reverseRecOn with
  | nil => exact List.Sublist.slnil
  | append_singleton p x ih =>
    obtain ⟨t, _ | v⟩ := x
    · simp
    · simp only [run_value, List.map_append]
      exact ih.append (List.Sublist.refl _)

theorem newest_concat {β : Type*} {cap : Option ℕ} (hcap : cap ≠ some 0) (l : List β) (x : β) :
    newest cap (l ++ [x]) = push cap (newest cap l) x := by
  cases cap with
  | none => simp [newest, push]
  | some n =>
    obtain ⟨n, rfl⟩ : ∃ m, n = m + 1 := ⟨n - 1, by have : n ≠ 0 := fun h => hcap (by rw [h]); omega⟩
    unfold newest push
    dsimp only
    rw [List.rtake_concat_succ]
    unfold List.rtake
    by_cases hlen : n + 1 ≤ l.length
    · rw [if_pos (by rw [List.length_drop]; congr 1; omega), List.tail_drop]
      congr 2
      omega
    · rw [if_neg fun heq => ?_]
      · congr 2
        omega
      · have := Option.some.inj heq
        rw [List.length_drop] at this
        omega

/-- In a series sorted by time, the elements from some time on are a tail. -/
theorem dropWhile_eq_filter {l : List (ℤ × α)} (h : l.Pairwise fun x y => x.1 ≤ y.1) (t : ℤ) :
    (l.dropWhile fun x => decide (x.1 < t)) = l.filter fun x => decide (t ≤ x.1) := by
  induction l with
  | nil => rfl
  | cons x l ih =>
    rw [List.pairwise_cons] at h
    by_cases hx : x.1 < t
    · rw [List.dropWhile_cons_of_pos (by simpa using hx), ih h.2,
        List.filter_cons_of_neg (by simpa using hx)]
    · rw [List.dropWhile_cons_of_neg (by simpa using hx), List.filter_eq_self.2]
      intro y hy
      rcases List.mem_cons.1 hy with rfl | hy
      · simpa using hx
      · have := h.1 y hy
        simp only [decide_eq_true_eq]
        omega

theorem filter_newest {l : List (ℤ × α)} (h : l.Pairwise fun x y => x.1 ≤ y.1) (cap : Option ℕ) (t : ℤ) :
    (newest cap l).filter (fun x => decide (t ≤ x.1)) =
      newest cap (l.filter fun x => decide (t ≤ x.1)) := by
  cases cap with
  | none => rfl
  | some n =>
    unfold newest
    dsimp only
    induction l with
    | nil => simp
    | cons x l ih =>
      have hsorted := List.pairwise_cons.1 h
      by_cases hx : t ≤ x.1
      · have hall : ∀ y ∈ x :: l, decide (t ≤ y.1) = true := by
          intro y hy
          rcases List.mem_cons.1 hy with rfl | hy
          · exact decide_eq_true hx
          · have := hsorted.1 y hy
            simp only [decide_eq_true_eq]
            omega
        rw [List.filter_eq_self.2 hall, List.filter_eq_self.2]
        exact fun y hy => hall y (List.mem_of_mem_drop hy)
      · have hfilter : ((x :: l).filter fun x => decide (t ≤ x.1)) =
            l.filter fun x => decide (t ≤ x.1) := List.filter_cons_of_neg (by simpa using hx)
        rw [hfilter, ← ih hsorted.2]
        by_cases hlen : n ≤ l.length
        · have hdrop : (x :: l).rtake n = l.rtake n := by
            unfold List.rtake
            rw [List.length_cons, Nat.succ_sub hlen, List.drop_succ_cons]
          rw [hdrop]
        · have hall : (x :: l).rtake n = x :: l := by
            unfold List.rtake
            rw [List.length_cons, Nat.sub_eq_zero_of_le (by omega), List.drop_zero]
          have hall' : l.rtake n = l := by
            unfold List.rtake
            rw [Nat.sub_eq_zero_of_le (by omega), List.drop_zero]
          rw [hall, hall', hfilter]

/-- **Step lemma.** What the queue holds after one more value: late values leave at the front. -/
theorem newest_trailing {hold : ℤ} {cap : Option ℕ} (hcap : cap ≠ some 0) {r : List (ℤ × α)} {t : ℤ}
    {v : α} (h : (r ++ [(t, v)]).Pairwise fun x y => x.1 ≤ y.1) (hhold : 0 ≤ hold) :
    newest cap (trailing hold (r ++ [(t, v)])) =
      push cap ((newest cap (trailing hold r)).dropWhile fun x => decide (x.1 < t - hold)) (t, v) := by
  obtain ⟨hr, -, hle⟩ := List.pairwise_append.1 h
  have hnew : trailing hold (r ++ [(t, v)]) = (r.filter fun x => decide (t - hold ≤ x.1)) ++ [(t, v)] := by
    unfold trailing
    rw [List.getLast?_concat]
    dsimp only
    rw [List.filter_append, List.filter_cons_of_pos (by simp; omega), List.filter_nil]
  have hold' : (trailing hold r).filter (fun x => decide (t - hold ≤ x.1)) =
      r.filter fun x => decide (t - hold ≤ x.1) := by
    unfold trailing
    cases hlast : r.getLast? with
    | none => rw [List.getLast?_eq_none_iff.1 hlast, List.filter_nil]
    | some last =>
      have := hle last (List.mem_of_getLast? hlast) (t, v) (List.mem_singleton_self _)
      rw [List.filter_filter]
      refine List.filter_congr fun x _ => ?_
      by_cases hx : t - hold ≤ x.1
      · have : last.1 - hold ≤ x.1 := by omega
        simp [hx, this]
      · simp [hx]
  have hsorted : (newest cap (trailing hold r)).Pairwise fun x y => x.1 ≤ y.1 := by
    have htrailing : (trailing hold r).Sublist r := by
      unfold trailing
      split
      · exact List.nil_sublist r
      · exact List.filter_sublist
    have hnewest : (newest cap (trailing hold r)).Sublist (trailing hold r) := by
      unfold newest
      split
      · exact List.Sublist.refl _
      · exact List.drop_sublist _ _
    exact hr.sublist (hnewest.trans htrailing)
  have htrailing : (trailing hold r).Pairwise fun x y => x.1 ≤ y.1 := by
    unfold trailing
    split
    · exact List.Pairwise.nil
    · exact hr.filter _
  rw [hnew, newest_concat hcap, dropWhile_eq_filter hsorted, filter_newest htrailing, hold']

/-! ## The peak -/

theorem inits_concat (p : List (ℤ × Option α)) (x : ℤ × Option α) :
    (p ++ [x]).inits = p.inits ++ [p ++ [x]] := by
  rw [List.inits_append]
  rfl

variable [LinearOrder α]

/-- The least value over the hold time up to the end of a run, where the run spans it. -/
def held (hold : ℤ) (cap : Option ℕ) (r : List (ℤ × α)) : Option α :=
  match r.head?, r.getLast? with
  | some first, some last =>
    if hold ≤ last.1 - first.1 then ((newest cap (trailing hold r)).map Prod.snd).min? else none
  | _, _ => none

/-- The greatest value that is held somewhere in the series. -/
def peak (hold : ℤ) (cap : Option ℕ) (series : List (ℤ × Option α)) : Option α :=
  (series.inits.filterMap fun p => held hold cap (run p)).max?

/-- One more candidate for the greatest value. -/
def raise (best : Option α) (v : α) : α :=
  match best with
  | none => v
  | some b => max b v

@[simp] theorem raise_some (b v : α) : raise (some b) v = max b v := rfl

theorem max?_concat (l : List α) (v : α) : (l ++ [v]).max? = some (raise l.max? v) := by
  cases l with
  | nil => rfl
  | cons a l =>
    rw [List.cons_append, List.max?_cons', List.max?_cons', List.foldl_append]
    rfl

theorem peak_concat (hold : ℤ) (cap : Option ℕ) (p : List (ℤ × Option α)) (x : ℤ × Option α) :
    peak hold cap (p ++ [x]) =
      match held hold cap (run (p ++ [x])) with
      | none => peak hold cap p
      | some v => some (raise (peak hold cap p) v) := by
  unfold peak
  rw [inits_concat, List.filterMap_append]
  cases hheld : held hold cap (run (p ++ [x])) with
  | none => simp [hheld]
  | some v => simp only [List.filterMap_cons, hheld, List.filterMap_nil]; exact max?_concat _ v

/-! ### The capacity -/

theorem newest_eq_nil {β : Type*} {cap : Option ℕ} (hcap : cap ≠ some 0) {l : List β} :
    newest cap l = [] ↔ l = [] := by
  cases cap with
  | none => exact Iff.rfl
  | some n =>
    have hn : n ≠ 0 := fun h => hcap (by rw [h])
    unfold newest List.rtake
    dsimp only
    rw [List.drop_eq_nil_iff, ← List.length_eq_zero_iff]
    omega

theorem newest_of_length_le {β : Type*} {n : ℕ} {l : List β} (h : l.length ≤ n) :
    newest (some n) l = l := by
  unfold newest List.rtake
  dsimp only
  rw [Nat.sub_eq_zero_of_le h, List.drop_zero]

/-- Whether a run is held does not depend on the capacity. -/
theorem held_eq_none {hold : ℤ} {cap : Option ℕ} (hcap : cap ≠ some 0) (r : List (ℤ × α)) :
    held hold cap r = none ↔ held hold none r = none := by
  unfold held
  split
  · split_ifs
    · rw [List.min?_eq_none_iff, List.min?_eq_none_iff, List.map_eq_nil_iff, List.map_eq_nil_iff,
        newest_eq_nil hcap]
      exact Iff.rfl
    · exact Iff.rfl
  · exact Iff.rfl

theorem isSome_peak {hold : ℤ} {cap : Option ℕ} (hcap : cap ≠ some 0) (series : List (ℤ × Option α)) :
    (peak hold cap series).isSome = (peak hold none series).isSome := by
  have hnone : peak hold cap series = none ↔ peak hold none series = none := by
    unfold peak
    rw [List.max?_eq_none_iff, List.max?_eq_none_iff, List.filterMap_eq_nil_iff,
      List.filterMap_eq_nil_iff]
    exact forall₂_congr fun p _ => held_eq_none hcap (run p)
  rw [Bool.eq_iff_iff, ← Option.ne_none_iff_isSome, ← Option.ne_none_iff_isSome]
  exact not_congr hnone

/-- A queue that never fills up finds the peak. -/
theorem peak_of_few {hold : ℤ} {n : ℕ} {series : List (ℤ × Option α)}
    (h : ∀ p, p <+: series → (trailing hold (run p)).length ≤ n) :
    peak hold (some n) series = peak hold none series := by
  unfold peak
  congr 1
  refine List.filterMap_congr fun p hp => ?_
  unfold held
  rw [newest_of_length_le (h p ((List.mem_inits p series).1 hp))]
  rfl

/-! ## The pass -/

/-- What a pass over a series keeps: the queue, the time at which the run began, and the peak so
far. -/
structure Tracks (hold : ℤ) (cap : Option ℕ) (p : List (ℤ × Option α)) (win : List (ℤ × α))
    (start : Option ℤ) (best : Option α) : Prop where
  win : win = newest cap (trailing hold (run p))
  start : start = (run p).head?.map Prod.fst
  best : best = peak hold cap p

variable {hold : ℤ} {cap : Option ℕ} {p : List (ℤ × Option α)} {win : List (ℤ × α)}
  {start : Option ℤ} {best : Option α}

theorem newest_nil {β : Type*} (cap : Option ℕ) : newest cap ([] : List β) = [] := by
  cases cap <;> simp [newest]

theorem tracks_nil (hold : ℤ) (cap : Option ℕ) : Tracks hold cap ([] : List (ℤ × Option α)) [] none none :=
  ⟨(newest_nil cap).symm, rfl, rfl⟩

/-- **Step lemma.** A gap ends the run. -/
theorem Tracks.gap (h : Tracks hold cap p win start best) (t : ℤ) :
    Tracks hold cap (p ++ [(t, none)]) [] none best := by
  refine ⟨?_, by rw [run_gap]; rfl, ?_⟩
  · rw [run_gap]
    exact (newest_nil cap).symm
  · rw [peak_concat, run_gap]
    exact h.best

/-- The run has begun by the end of the series. -/
theorem Tracks.start_le (h : Tracks hold cap p win start best) {t : ℤ} {o : Option α}
    (hsorted : ((p ++ [(t, o)]).map Prod.fst).Pairwise (· ≤ ·)) : start.getD t ≤ t := by
  rw [h.start]
  cases hfirst : (run p).head? with
  | none => exact le_refl t
  | some first =>
    have hmem : first.1 ∈ p.map Prod.fst :=
      (run_times p).subset (List.mem_map_of_mem (List.mem_of_mem_head? hfirst))
    rw [List.map_append] at hsorted
    exact (List.pairwise_append.1 hsorted).2.2 first.1 hmem t List.mem_cons_self

/-- **Step lemma.** A value joins the run, and counts once the run spans the hold time. -/
theorem Tracks.value (h : Tracks hold cap p win start best) (hcap : cap ≠ some 0) (hhold : 0 ≤ hold)
    {t : ℤ} {v : α} (hsorted : ((p ++ [(t, some v)]).map Prod.fst).Pairwise (· ≤ ·)) :
    let win' := push cap (win.dropWhile fun x => decide (x.1 < t - hold)) (t, v)
    Tracks hold cap (p ++ [(t, some v)]) win' (some (start.getD t))
      (if hold ≤ t - start.getD t then (win'.map Prod.snd).min?.map (raise best) else best) := by
  intro win'
  have hrun : (run p ++ [(t, v)]).Pairwise fun x y => x.1 ≤ y.1 := by
    have := hsorted.sublist (run_times (p ++ [(t, some v)]))
    rw [run_value] at this
    exact List.pairwise_map.1 this
  have hwin : newest cap (trailing hold (run (p ++ [(t, some v)]))) = win' := by
    rw [run_value, newest_trailing hcap hrun hhold, ← h.win]
  have hstart : (run (p ++ [(t, some v)])).head?.map Prod.fst = some (start.getD t) := by
    rw [run_value, h.start]
    cases run p <;> rfl
  refine ⟨hwin.symm, hstart.symm, ?_⟩
  obtain ⟨first, hfirst, htime⟩ := Option.map_eq_some_iff.1 hstart
  have hheld : held hold cap (run (p ++ [(t, some v)])) =
      if hold ≤ t - start.getD t then (win'.map Prod.snd).min? else none := by
    unfold held
    rw [hfirst, hwin, run_value, List.getLast?_concat]
    dsimp only
    rw [htime]
  rw [peak_concat, hheld, h.best]
  by_cases hspan : hold ≤ t - start.getD t
  · rw [if_pos hspan, if_pos hspan]
    cases hmin : (win'.map Prod.snd).min? with
    | some m => rfl
    | none =>
      rw [List.min?_eq_none_iff, List.map_eq_nil_iff] at hmin
      exact absurd hmin (by simp [win', push])
  · rw [if_neg hspan, if_neg hspan]

end Lib.Hold
