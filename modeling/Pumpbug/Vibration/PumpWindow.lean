import Pumpbug.Vibration.PumpSignal
import Pumpbug.Lib.Run

/-!
# The window over its history

What the trigger and the decay tracker report at a frame, in terms of the frames before it.  The
tracker follows one drop at a time: a drop inside a drop starts nothing of its own.
-/

namespace Pumpbug

open Lib

/-! ## One drop at a time -/

namespace PumpDecayTracker

/-- The frame within an open window. -/
def followFrame (t : PumpDecayTracker) (f : VibrationFrame) : PumpDecayTracker :=
  t.follow f.nowMs f.usable f.raw

/-- The tracker over the frames of a window so far, the opening one first. -/
def tracked (w : List VibrationFrame) : PumpDecayTracker := exec followFrame {} w

/-- The reference readings held after the frames of a window. -/
def held (w : List VibrationFrame) : List ℚ := (tracked w).reference

/-- A drop starts at `f`, while none is followed, and lasts to the end of the window `w`. -/
structure DropLasts (w before : List VibrationFrame) (f : VibrationFrame)
    (after : List VibrationFrame) : Prop where
  window : w = before ++ f :: after
  alone : (tracked before).candidate = false
  drops : drops (held before) f.usable f.raw = true
  lasts : ∀ g ∈ after, recovers (held before) g.usable g.raw = false ∧
    g.nowMs - f.nowMs ≤ MAX_CARRY_MS

theorem tracked_concat (w : List VibrationFrame) (f : VibrationFrame) :
    tracked (w ++ [f]) = (tracked w).followFrame f := by
  unfold tracked
  rw [exec_append]
  rfl

section

variable {w before after : List VibrationFrame} {f x : VibrationFrame}

/-- A drop that lasts over one more frame starts there or lasts so far. -/
theorem DropLasts.of_concat (h : DropLasts (w ++ [x]) before f after) :
    (after = [] ∧ w = before ∧ x = f) ∨
      ∃ rest, after = rest ++ [x] ∧ DropLasts w before f rest := by
  have hw := h.window
  rcases List.eq_nil_or_concat after with hnil | ⟨rest, y, hafter⟩
  · rw [hnil] at hw
    obtain ⟨hinit, hlast⟩ := List.append_inj' hw rfl
    exact .inl ⟨hnil, hinit, List.singleton_inj.1 hlast⟩
  · rw [List.concat_eq_append] at hafter
    rw [hafter, ← List.cons_append, ← List.append_assoc] at hw
    obtain ⟨hinit, hlast⟩ := List.append_inj' hw rfl
    obtain rfl : x = y := List.singleton_inj.1 hlast
    refine .inr ⟨rest, hafter, hinit, h.alone, h.drops, fun g hg => h.lasts g ?_⟩
    rw [hafter]
    exact List.mem_append_left _ hg

theorem follow_following {t : PumpDecayTracker} (h : t.candidate = true) (f : VibrationFrame) :
    ((t.followFrame f).candidate = true ↔ recovers t.reference f.usable f.raw = false ∧
        f.nowMs - t.onsetMs ≤ MAX_CARRY_MS) ∧
      ((t.followFrame f).candidate = true → t.followFrame f = t) := by
  unfold followFrame follow
  rw [if_pos h]
  dsimp only
  by_cases hends : (recovers t.reference f.usable f.raw ||
      decide (MAX_CARRY_MS < f.nowMs - t.onsetMs)) = true
  · rw [if_pos hends]
    have hclosed : ∀ u : PumpDecayTracker, u.candidate = false →
        (if f.usable then u.appendReference f.raw else u).candidate = false := by
      intro u hu
      split_ifs
      · exact hu
      · exact hu
    have hfalse := hclosed (if MAX_CARRY_MS < f.nowMs - t.onsetMs then
      { t with candidate := false, onsetMs := 0 }.clearReference
      else { t with candidate := false, onsetMs := 0 }) (by split_ifs <;> rfl)
    rw [hfalse]
    refine ⟨iff_of_false Bool.false_ne_true ?_, fun h => absurd h Bool.false_ne_true⟩
    rintro ⟨hno, hsoon⟩
    rw [hno, Bool.false_or, decide_eq_true_eq] at hends
    exact absurd hends (BitVec.not_lt.2 hsoon)
  · rw [if_neg hends]
    rw [Bool.or_eq_true, not_or, decide_eq_true_eq, BitVec.not_lt] at hends
    exact ⟨iff_of_true h ⟨Bool.eq_false_iff.2 hends.1, hends.2⟩, fun _ => rfl⟩

theorem follow_idle {t : PumpDecayTracker} (h : t.candidate = false) (f : VibrationFrame) :
    ((t.followFrame f).candidate = true ↔ drops t.reference f.usable f.raw = true) ∧
      ((t.followFrame f).candidate = true →
        (t.followFrame f).onsetMs = f.nowMs ∧ (t.followFrame f).reference = t.reference) := by
  unfold followFrame follow
  rw [if_neg (by rw [h]; exact Bool.false_ne_true)]
  by_cases hdrop : drops t.reference f.usable f.raw = true
  · rw [if_pos hdrop]
    exact ⟨iff_of_true rfl hdrop, fun _ => ⟨rfl, rfl⟩⟩
  · rw [if_neg hdrop]
    have hstill : (if f.usable then t.appendReference f.raw else t).candidate = false := by
      split_ifs
      · exact h
      · exact h
    rw [hstill]
    exact ⟨iff_of_false Bool.false_ne_true hdrop, fun hc => absurd hc Bool.false_ne_true⟩

end

/-- **Run lemma.** The tracker follows a drop exactly when one lasts, and knows where it started and
the reference from before it. -/
theorem tracked_candidate (w : List VibrationFrame) :
    ((tracked w).candidate = true ↔ ∃ before f after, DropLasts w before f after) ∧
      ∀ before f after, DropLasts w before f after →
        (tracked w).onsetMs = f.nowMs ∧ held w = held before := by
  induction w using List.reverseRecOn with
  | nil =>
    have hno (before : List VibrationFrame) (f : VibrationFrame) (after : List VibrationFrame) :
        ¬ DropLasts [] before f after := fun h => absurd h.window (by simp)
    refine ⟨iff_of_false Bool.false_ne_true ?_, fun before f after h => absurd h (hno _ _ _)⟩
    rintro ⟨before, f, after, h⟩
    exact hno _ _ _ h
  | append_singleton w x ih =>
    obtain ⟨hiff, honset⟩ := ih
    unfold held
    rw [tracked_concat]
    by_cases hc : (tracked w).candidate = true
    · -- a drop is followed: `x` ends it, or it lasts on
      obtain ⟨hstays, hsame⟩ := follow_following hc x
      have hearlier (before : List VibrationFrame) (f : VibrationFrame)
          (after : List VibrationFrame) (h : DropLasts (w ++ [x]) before f after) :
          ∃ rest, after = rest ++ [x] ∧ DropLasts w before f rest := by
        rcases h.of_concat with ⟨-, rfl, -⟩ | hrest
        · exact absurd (h.alone.symm.trans hc) Bool.false_ne_true
        · exact hrest
      have hgoes (before : List VibrationFrame) (f : VibrationFrame) (after : List VibrationFrame)
          (h : DropLasts (w ++ [x]) before f after) :
          ((tracked w).followFrame x).candidate = true := by
        obtain ⟨rest, hafter, hrest⟩ := hearlier before f after h
        obtain ⟨hon, href⟩ := honset before f rest hrest
        refine hstays.2 ?_
        rw [show (tracked w).reference = held before from href, hon]
        exact h.lasts x (by rw [hafter]; exact List.mem_append_right _ (List.mem_singleton_self x))
      refine ⟨⟨fun hgoing => ?_, fun ⟨before, f, after, h⟩ => hgoes before f after h⟩, ?_⟩
      · obtain ⟨before, f, after, h⟩ := hiff.1 hc
        obtain ⟨hon, href⟩ := honset before f after h
        have hx := hstays.1 hgoing
        rw [show (tracked w).reference = held before from href, hon] at hx
        refine ⟨before, f, after ++ [x], ?_, h.alone, h.drops, fun g hg => ?_⟩
        · rw [h.window, List.append_assoc, List.cons_append]
        · rcases List.mem_append.1 hg with hg | hg
          · exact h.lasts g hg
          · rw [List.mem_singleton.1 hg]
            exact hx
      · intro before f after h
        obtain ⟨rest, -, hrest⟩ := hearlier before f after h
        rw [hsame (hgoes before f after h)]
        exact honset before f rest hrest
    · -- none is followed: `x` starts one, or there is none
      have hc' : (tracked w).candidate = false := Bool.eq_false_iff.2 hc
      obtain ⟨hstarts, hstart⟩ := follow_idle hc' x
      have hnew (before : List VibrationFrame) (f : VibrationFrame) (after : List VibrationFrame)
          (h : DropLasts (w ++ [x]) before f after) : after = [] ∧ w = before ∧ x = f := by
        rcases h.of_concat with hnow | ⟨rest, -, hrest⟩
        · exact hnow
        · exact absurd (hiff.2 ⟨before, f, rest, hrest⟩) hc
      have hgoes (before : List VibrationFrame) (f : VibrationFrame) (after : List VibrationFrame)
          (h : DropLasts (w ++ [x]) before f after) :
          ((tracked w).followFrame x).candidate = true := by
        obtain ⟨-, rfl, rfl⟩ := hnew before f after h
        exact hstarts.2 h.drops
      refine ⟨⟨fun hgoing => ?_, fun ⟨before, f, after, h⟩ => hgoes before f after h⟩, ?_⟩
      · exact ⟨w, x, [], rfl, hc', hstarts.1 hgoing, fun g hg => absurd hg List.not_mem_nil⟩
      · intro before f after h
        obtain ⟨-, rfl, rfl⟩ := hnew before f after h
        exact hstart (hstarts.2 h.drops)

end PumpDecayTracker

/-! ## Histories -/

namespace VibrationSensor

/-- A history, with the frames since the window opened; none while it is closed. -/
def windowed (x : VibrationSensor × List VibrationFrame) (f : VibrationFrame) :
    VibrationSensor × List VibrationFrame :=
  ((x.1.analyze f).1,
    match (x.1.analyze f).2.triggerResult.event with
    | .opened => [f]
    | .closed => []
    | .none => if x.1.trigger.active then x.2 ++ [f] else [])

/-- The sensor after the frames of a history. -/
def after (h : List VibrationFrame) : VibrationSensor := exec (fun s f => (s.analyze f).1) {} h

/-- The frames since the window opened; none while it is closed. -/
def window (h : List VibrationFrame) : List VibrationFrame := (exec windowed ({}, []) h).2

/-- What the frame `f` behind the history `h` is answered with. -/
def detect (h : List VibrationFrame) (f : VibrationFrame) : Detection := ((after h).analyze f).2

theorem exec_windowed (h : List VibrationFrame) :
    (exec windowed ({}, []) h).1 = after h := by
  unfold after
  induction h using List.reverseRecOn with
  | nil => rfl
  | append_singleton h f ih =>
    rw [exec_append, exec_append, ← ih]
    rfl

theorem after_concat (h : List VibrationFrame) (f : VibrationFrame) :
    after (h ++ [f]) = ((after h).analyze f).1 := by
  unfold after
  rw [exec_append]
  rfl

theorem window_concat (h : List VibrationFrame) (f : VibrationFrame) :
    window (h ++ [f]) =
      match (detect h f).triggerResult.event with
      | .opened => [f]
      | .closed => []
      | .none => if (after h).trigger.active then window h ++ [f] else [] := by
  unfold window detect
  rw [exec_append, ← exec_windowed]
  rfl

/-- A frame that meets the entry conditions meets the stay conditions. -/
theorem stay_of_enter {f : VibrationFrame} (h : f.enter = true) : f.stay = true := by
  unfold VibrationFrame.enter VibrationWindowTrigger.enter at h
  unfold VibrationFrame.stay VibrationWindowTrigger.stay VibrationWindowTrigger.failureMask
  cases hsnr : f.snrDb with
  | none =>
    rw [hsnr] at h
    exact absurd h Bool.false_ne_true
  | some snr =>
    cases hpeak : f.peakHz with
    | none =>
      rw [hsnr, hpeak] at h
      exact absurd h Bool.false_ne_true
    | some peak =>
      rw [hsnr, hpeak] at h
      simp only [Bool.and_eq_true, decide_eq_true_eq] at h
      obtain ⟨⟨⟨hstill, hon⟩, hmin⟩, hmax⟩ := h
      have hlow : ¬ snr < VibrationWindowTrigger.SNR_STAY_DB := by
        unfold VibrationWindowTrigger.SNR_ON_DB at hon
        unfold VibrationWindowTrigger.SNR_STAY_DB
        linarith
      have hband : ¬ (peak < VibrationWindowTrigger.PEAK_MIN_HZ ∨
          VibrationWindowTrigger.PEAK_MAX_HZ < peak) := by
        rintro (hout | hout)
        · exact absurd hmin (not_le.2 hout)
        · exact absurd hmax (not_le.2 hout)
      simp [hstill, hlow, hband]

end VibrationSensor

/-! ### The trigger -/

namespace VibrationWindowTrigger

/-- What a trigger with a history behind it knows: whether the last frame met the entry conditions,
or how many frames have failed the stay conditions in a row, and which. -/
structure Knows (t : VibrationWindowTrigger) (h : List VibrationFrame) (closing : Bool) : Prop where
  closed : t.active = false →
    (t.onCount = 1 ∧ closing = false ∧ ∃ h' g, h = h' ++ [g] ∧ g.enter = true) ∨
      (t.onCount = 0 ∧ (closing = true ∨ ∀ h' g, h = h' ++ [g] → g.enter = false))
  open_ : t.active = true → ∃ h' g failing, h = h' ++ g :: failing ∧ g.stay = true ∧
    (∀ x ∈ failing, x.stay = false) ∧ t.offCount = failing.length ∧ failing.length < N_OFF ∧
      t.offFailureMask = failing.foldl (fun mask x => mask ||| x.failureMask) 0

section

variable {t : VibrationWindowTrigger} {h : List VibrationFrame} {closing : Bool} {f : VibrationFrame}

/-- The step on the features of a frame. -/
def stepFrame (t : VibrationWindowTrigger) (f : VibrationFrame) :
    VibrationWindowTrigger × StepResult := t.stepDetailed f.stationary f.snrDb f.peakHz

/-- The frame closes the window. -/
def closes (t : VibrationWindowTrigger) (f : VibrationFrame) : Bool :=
  (t.stepFrame f).2.event = .closed

/-- What the trigger reports at a frame, in terms of what it knows. -/
structure Reports (t : VibrationWindowTrigger) (h : List VibrationFrame) (closing : Bool)
    (f : VibrationFrame) : Prop where
  knows : (t.stepFrame f).1.Knows (h ++ [f]) (t.closes f)
  active : (t.stepFrame f).2.active = (t.stepFrame f).1.active
  opened : (t.stepFrame f).2.event = .opened ↔ t.active = false ∧ f.enter = true ∧
    closing = false ∧ ∃ h' g, h = h' ++ [g] ∧ g.enter = true
  closed : (t.stepFrame f).2.event = .closed ↔ t.active = true ∧ f.stay = false ∧
    ∃ h' a b c, h = h' ++ [a, b, c] ∧ a.stay = false ∧ b.stay = false ∧ c.stay = false
  mask : (t.stepFrame f).2.event = .closed → ∀ h' a b c, h = h' ++ [a, b, c] →
    (t.stepFrame f).2.closeFailureMask =
      a.failureMask ||| b.failureMask ||| c.failureMask ||| f.failureMask
  changes : (t.stepFrame f).1.active = true ↔
    (t.stepFrame f).2.event = .opened ∨ t.active = true ∧ (t.stepFrame f).2.event ≠ .closed

/-- Three failing frames at the end of a history come after any frame that did not fail. -/
theorem failing_suffix {h p p' failing : List VibrationFrame} {g a b c : VibrationFrame}
    (hh : h = p ++ g :: failing) (hg : g.stay = true) (hh' : h = p' ++ [a, b, c])
    (ha : a.stay = false) (hb : b.stay = false) (hc : c.stay = false) : [a, b, c] <:+ failing := by
  have hno : g ∉ [a, b, c] := by
    intro hmem
    rw [List.mem_cons, List.mem_cons, List.mem_singleton] at hmem
    rcases hmem with rfl | rfl | rfl
    · exact absurd (ha.symm.trans hg) Bool.false_ne_true
    · exact absurd (hb.symm.trans hg) Bool.false_ne_true
    · exact absurd (hc.symm.trans hg) Bool.false_ne_true
  have h₁ : [a, b, c] <:+ h := ⟨p', hh'.symm⟩
  have h₂ : g :: failing <:+ h := ⟨p, hh.symm⟩
  rcases List.suffix_or_suffix_of_suffix h₁ h₂ with hs | hs
  · rcases List.suffix_cons_iff.1 hs with heq | hs
    · exact absurd (by rw [heq]; exact List.mem_cons_self) hno
    · exact hs
  · exact absurd (hs.subset List.mem_cons_self) hno

theorem stepFrame_eq (t : VibrationWindowTrigger) (f : VibrationFrame) :
    t.stepFrame f =
      if !t.active then
        if f.enter then
          if N_ON ≤ t.onCount + 1 then
            (⟨true, t.onCount + 1, 0, 0⟩, { active := true, event := .opened })
          else ({ t with onCount := t.onCount + 1 }, { active := false })
        else ({ t with onCount := 0 }, { active := false })
      else if f.stay then ({ t with offCount := 0, offFailureMask := 0 }, { active := true })
      else if N_OFF ≤ t.offCount + 1 then
        (⟨false, 0, 0, 0⟩,
          ⟨false, .closed, t.offFailureMask ||| f.failureMask⟩)
      else
        (⟨t.active, t.onCount, t.offCount + 1, t.offFailureMask ||| f.failureMask⟩,
          { active := true }) := rfl

/-- A frame without an event. -/
theorem reports_quiet {t' : VibrationWindowTrigger} (hstep : t.stepFrame f = (t', { active := t.active }))
    (hsame : t'.active = t.active) (hknows : t'.Knows (h ++ [f]) false)
    (hopens : ¬ (t.active = false ∧ f.enter = true ∧ closing = false ∧
      ∃ h' g, h = h' ++ [g] ∧ g.enter = true))
    (hcloses : ¬ (t.active = true ∧ f.stay = false ∧
      ∃ h' a b c, h = h' ++ [a, b, c] ∧ a.stay = false ∧ b.stay = false ∧ c.stay = false)) :
    t.Reports h closing f where
  knows := by
    unfold closes
    rw [hstep]
    exact hknows
  active := by
    rw [hstep]
    exact hsame.symm
  opened := by
    rw [hstep]
    exact iff_of_false nofun hopens
  closed := by
    rw [hstep]
    exact iff_of_false nofun hcloses
  mask hc := by
    rw [hstep] at hc
    exact absurd hc nofun
  changes := by
    rw [hstep, hsame]
    exact ⟨fun ht => .inr ⟨ht, nofun⟩, fun hc => hc.elim nofun fun hc => hc.1⟩

/-- **Step lemma**, closed window. -/
theorem reports_closed (hk : t.Knows h closing) (ht : t.active = false) : t.Reports h closing f := by
  have hshut : (!t.active) = true := by rw [ht, Bool.not_false]
  have hinactive : ¬ t.active = true := by rw [ht]; exact Bool.false_ne_true
  by_cases hf : f.enter = true
  · have hstay := VibrationSensor.stay_of_enter hf
    rcases hk.closed ht with ⟨hon, hclosing, hpair⟩ | ⟨hon, hno⟩
    · -- the second frame in a row
      have hstep : t.stepFrame f = (⟨true, 2, 0, 0⟩, { active := true, event := .opened }) := by
        rw [stepFrame_eq, if_pos hshut, if_pos hf, hon, if_pos (by decide)]
      refine ⟨⟨fun hc => ?_, fun _ => ?_⟩, ?_, ?_, ?_, fun hc => ?_, ?_⟩
      · rw [hstep] at hc
        exact absurd hc.symm Bool.false_ne_true
      · rw [hstep]
        exact ⟨h, f, [], rfl, hstay, fun x hx => absurd hx List.not_mem_nil, rfl, by decide, rfl⟩
      · rw [hstep]
      · rw [hstep]
        exact iff_of_true rfl ⟨ht, hf, hclosing, hpair⟩
      · rw [hstep]
        exact iff_of_false nofun fun hc => hinactive hc.1
      · rw [hstep] at hc
        exact absurd hc nofun
      · rw [hstep]
        exact iff_of_true rfl (.inl rfl)
    · have hstep : t.stepFrame f = ({ t with onCount := 1 }, { active := t.active }) := by
        rw [stepFrame_eq, if_pos hshut, if_pos hf, hon, if_neg (by decide), ht]
      refine reports_quiet hstep rfl
        ⟨fun _ => .inl ⟨rfl, rfl, h, f, rfl, hf⟩, fun hc => absurd hc hinactive⟩ ?_
        fun hc => hinactive hc.1
      rintro ⟨-, -, hclosing, h', g, hh, hg⟩
      rcases hno with hyes | hno
      · exact absurd (hclosing.symm.trans hyes) Bool.false_ne_true
      · exact absurd ((hno h' g hh).symm.trans hg) Bool.false_ne_true
  · have hstep : t.stepFrame f = ({ t with onCount := 0 }, { active := t.active }) := by
      rw [stepFrame_eq, if_pos hshut, if_neg hf, ht]
    refine reports_quiet hstep rfl
      ⟨fun _ => .inr ⟨rfl, .inr fun h' g hh => ?_⟩, fun hc => absurd hc hinactive⟩
      (fun hc => hf hc.2.1) fun hc => hinactive hc.1
    obtain ⟨-, hlast⟩ := List.append_inj' hh rfl
    rw [← List.singleton_inj.1 hlast]
    exact Bool.eq_false_iff.2 hf

/-- **Step lemma**, open window. -/
theorem reports_open (hk : t.Knows h closing) (ht : t.active = true) : t.Reports h closing f := by
  have hopen : ¬ (!t.active) = true := by rw [ht]; exact Bool.false_ne_true
  have hactive : ¬ t.active = false := by rw [ht]; exact Bool.false_ne_true.symm
  obtain ⟨h', g, failing, hh, hg, hfail, hoff, hfew, hmask⟩ := hk.open_ ht
  by_cases hf : f.stay = true
  · have hstep : t.stepFrame f = ({ t with offCount := 0, offFailureMask := 0 },
        { active := t.active }) := by
      rw [stepFrame_eq, if_neg hopen, if_pos hf, ht]
    refine reports_quiet hstep rfl ⟨fun hc => absurd hc hactive, fun _ => ?_⟩
      (fun hc => hactive hc.1) fun hc => absurd (hc.2.1.symm.trans hf) Bool.false_ne_true
    exact ⟨h, f, [], rfl, hf, fun x hx => absurd hx List.not_mem_nil, rfl, by decide, rfl⟩
  · have hf' : f.stay = false := Bool.eq_false_iff.2 hf
    have hstep : t.stepFrame f =
        if N_OFF ≤ failing.length + 1 then
          (⟨false, 0, 0, 0⟩,
            ⟨false, .closed, t.offFailureMask ||| f.failureMask⟩)
        else
          (⟨t.active, t.onCount, failing.length + 1, t.offFailureMask ||| f.failureMask⟩,
            { active := true }) := by
      rw [stepFrame_eq, if_neg hopen, if_neg hf, hoff]
    have hfour : N_OFF = 4 := rfl
    by_cases hlast : N_OFF ≤ failing.length + 1
    · -- the fourth failing frame in a row
      rw [if_pos hlast] at hstep
      obtain ⟨a, b, c, rfl⟩ := List.length_eq_three.1 (show failing.length = 3 by omega)
      have habc : a.stay = false ∧ b.stay = false ∧ c.stay = false :=
        ⟨hfail a (by simp), hfail b (by simp), hfail c (by simp)⟩
      refine ⟨⟨fun _ => .inr ⟨?_, .inl ?_⟩, fun hc => ?_⟩, ?_, ?_, ?_, fun _ p a' b' c' hh' => ?_, ?_⟩
      · rw [hstep]
      · unfold closes
        rw [hstep]
        rfl
      · rw [hstep] at hc
        exact absurd hc Bool.false_ne_true
      · rw [hstep]
      · rw [hstep]
        exact iff_of_false nofun fun hc => hactive hc.1
      · rw [hstep]
        refine iff_of_true rfl ⟨ht, hf', h' ++ [g], a, b, c, ?_, habc⟩
        rw [hh, List.append_assoc]
        rfl
      · rw [hstep, hmask]
        rw [hh, ← List.singleton_append, ← List.append_assoc] at hh'
        obtain ⟨-, hthree⟩ := List.append_inj' hh' rfl
        simp only [List.cons.injEq, and_true] at hthree
        obtain ⟨rfl, rfl, rfl⟩ := hthree
        simp
      · rw [hstep]
        exact iff_of_false Bool.false_ne_true fun hc => hc.elim nofun fun hc => hc.2 rfl
    · rw [if_neg hlast, ← ht] at hstep
      refine reports_quiet hstep rfl
        ⟨fun hc => absurd hc hactive, fun _ => ⟨h', g, failing ++ [f], ?_, hg, ?_, ?_, ?_, ?_⟩⟩
        (fun hc => hactive hc.1) ?_
      · rw [hh, List.append_assoc, List.cons_append]
      · intro x hx
        rcases List.mem_append.1 hx with hx | hx
        · exact hfail x hx
        · rw [List.mem_singleton.1 hx]
          exact hf'
      · rw [List.length_append, List.length_singleton]
      · rw [List.length_append, List.length_singleton]
        omega
      · rw [List.foldl_append, ← hmask]
        rfl
      · rintro ⟨-, -, p, a, b, c, hh', ha, hb, hc⟩
        have hlen := (failing_suffix hh hg hh' ha hb hc).length_le
        simp only [List.length_cons, List.length_nil] at hlen
        omega

end

end VibrationWindowTrigger

/-! ### The sensor -/

namespace PumpDecayTracker

/-- The first frame of a window. -/
theorem followFrame_first (f : VibrationFrame) :
    ({} : PumpDecayTracker).followFrame f =
      if f.usable then ({} : PumpDecayTracker).appendReference f.raw else {} := by
  have hno : ¬ drops [] f.usable f.raw = true := by
    unfold drops haveReference MIN_REFERENCE_FRAMES
    simp
  unfold followFrame follow
  rw [if_neg Bool.false_ne_true, if_neg hno]

/-- Following a window does not touch the accepted onset. -/
theorem tracked_accepted (w : List VibrationFrame) :
    (tracked w).accepted = false ∧ (tracked w).acceptedOnsetMs = 0 := by
  induction w using List.reverseRecOn with
  | nil => exact ⟨rfl, rfl⟩
  | append_singleton w f ih =>
    rw [tracked_concat]
    generalize tracked w = t at ih
    have happend (u : PumpDecayTracker) (hu : u.accepted = false ∧ u.acceptedOnsetMs = 0) :
        (if f.usable then u.appendReference f.raw else u).accepted = false ∧
          (if f.usable then u.appendReference f.raw else u).acceptedOnsetMs = 0 := by
      split_ifs
      · exact hu
      · exact hu
    unfold followFrame follow
    dsimp only
    split_ifs
    · exact ih
    · exact ih
    · exact ih
    · exact ih
    · exact ih
    · exact ih
    · exact ih
    · exact ih

end PumpDecayTracker

namespace VibrationSensor

open PumpDecayTracker

/-- What the sensor knows after a history. -/
structure Heard (h : List VibrationFrame) : Prop where
  trigger : ∃ closing, (after h).trigger.Knows h closing ∧
    ∀ h' g, h = h' ++ [g] → closing = (after h').trigger.closes g
  following : (after h).trigger.active = true → (after h).pumpDecayTracker = tracked (window h)
  idle : (after h).trigger.active = false →
    (after h).pumpDecayTracker.clearWindowState = (after h).pumpDecayTracker

/-- What the sensor reports of its window at the frame `f` behind the history `h`. -/
structure HeardAt (h : List VibrationFrame) (f : VibrationFrame) : Prop where
  opened : (detect h f).triggerResult.event = .opened ↔
    (after h).trigger.active = false ∧ f.enter = true ∧
      ∃ h' g, h = h' ++ [g] ∧ g.enter = true ∧ (detect h' g).triggerResult.event ≠ .closed
  closed : (detect h f).triggerResult.event = .closed ↔
    (after h).trigger.active = true ∧ f.stay = false ∧
      ∃ h' a b c, h = h' ++ [a, b, c] ∧ a.stay = false ∧ b.stay = false ∧ c.stay = false
  mask : (detect h f).triggerResult.event = .closed → ∀ h' a b c, h = h' ++ [a, b, c] →
    (detect h f).triggerResult.closeFailureMask =
      a.failureMask ||| b.failureMask ||| c.failureMask ||| f.failureMask
  active : (detect h f).triggerResult.active = true ↔
    (detect h f).triggerResult.event = .opened ∨
      (after h).trigger.active = true ∧ (detect h f).triggerResult.event ≠ .closed
  onset : (detect h f).triggerResult.event = .closed →
    ((detect h f).pumpSignal.hasAcceptedDecayOnset = true ↔
      ∃ before g rest, DropLasts (window h ++ [f]) before g rest)
  onsetMs : (detect h f).triggerResult.event = .closed → ∀ before g rest,
    DropLasts (window h ++ [f]) before g rest →
      (detect h f).pumpSignal.acceptedDecayOnsetMs = g.nowMs
  whileOpen : (detect h f).triggerResult.active = true →
    (detect h f).pumpSignal.hasAcceptedDecayOnset = false
  whileClosed : (after h).trigger.active = false → (detect h f).triggerResult.active = false →
    (h = [] → (detect h f).pumpSignal.hasAcceptedDecayOnset = false) ∧
      ∀ h' g, h = h' ++ [g] →
        (detect h f).pumpSignal.hasAcceptedDecayOnset =
            (detect h' g).pumpSignal.hasAcceptedDecayOnset ∧
          (detect h f).pumpSignal.acceptedDecayOnsetMs =
            (detect h' g).pumpSignal.acceptedDecayOnsetMs

section

variable {h : List VibrationFrame} {f : VibrationFrame}

/-- The tracker at a frame, by what becomes of the window. -/
theorem step_cases (t : PumpDecayTracker) (was is : Bool) (f : VibrationFrame) :
    (t.step f.nowMs was is f.usable f.raw).1 =
      match was, is with
      | false, true => ({} : PumpDecayTracker).followFrame f
      | true, false =>
        { (t.followFrame f) with
          accepted := (t.followFrame f).candidate
          acceptedOnsetMs :=
            if (t.followFrame f).candidate then (t.followFrame f).onsetMs else 0 }.clearWindowState
      | false, false => t.clearWindowState
      | true, true => t.followFrame f := by
  cases was with
  | false =>
    cases is with
    | false => rfl
    | true =>
      rw [followFrame_first]
      rfl
  | true =>
    cases is with
    | false => rfl
    | true => rfl

theorem Heard.reports (hh : Heard h) (f : VibrationFrame) :
    ∃ closing, (after h).trigger.Reports h closing f ∧
      ∀ h' g, h = h' ++ [g] → closing = (after h').trigger.closes g := by
  obtain ⟨closing, hk, hclosing⟩ := hh.trigger
  refine ⟨closing, ?_, hclosing⟩
  cases ht : (after h).trigger.active with
  | false => exact VibrationWindowTrigger.reports_closed hk ht
  | true => exact VibrationWindowTrigger.reports_open hk ht

/-- The tracker of an open window after one more frame. -/
theorem Heard.follows (hh : Heard h) (ht : (after h).trigger.active = true) (f : VibrationFrame) :
    (after h).pumpDecayTracker.followFrame f = tracked (window h ++ [f]) := by
  rw [tracked_concat, hh.following ht]

theorem heardAt_of_heard (hh : Heard h) (f : VibrationFrame) : HeardAt h f := by
  obtain ⟨closing, hrep, hclosing⟩ := hh.reports f
  have hresult : (detect h f).triggerResult = ((after h).trigger.stepFrame f).2 := rfl
  have hsignal : (detect h f).pumpSignal.hasAcceptedDecayOnset =
      ((after h).analyze f).1.pumpDecayTracker.accepted ∧
      (detect h f).pumpSignal.acceptedDecayOnsetMs =
        ((after h).analyze f).1.pumpDecayTracker.acceptedOnsetMs := ⟨rfl, rfl⟩
  have hstep : ((after h).analyze f).1.pumpDecayTracker =
      ((after h).pumpDecayTracker.step f.nowMs (after h).trigger.active
        ((after h).trigger.stepFrame f).2.active f.usable f.raw).1 := rfl
  rw [step_cases] at hstep
  -- a closing frame leaves the window closed
  have hcloses : ((after h).trigger.stepFrame f).2.event = .closed →
      (after h).trigger.active = true ∧ ((after h).trigger.stepFrame f).2.active = false := by
    intro hev
    refine ⟨(hrep.closed.1 hev).1, ?_⟩
    rw [hrep.active]
    refine Bool.eq_false_iff.2 fun hact => ?_
    rcases hrep.changes.1 hact with hopen | ⟨-, hne⟩
    · rw [hev] at hopen
      exact absurd hopen nofun
    · exact hne hev
  have haccepted : ((after h).trigger.stepFrame f).2.event = .closed →
      ((after h).analyze f).1.pumpDecayTracker.accepted = (tracked (window h ++ [f])).candidate ∧
      ((after h).analyze f).1.pumpDecayTracker.acceptedOnsetMs =
        if (tracked (window h ++ [f])).candidate then (tracked (window h ++ [f])).onsetMs else 0 := by
    intro hev
    obtain ⟨hwas, his⟩ := hcloses hev
    rw [hwas, his, hh.follows hwas f] at hstep
    rw [hstep]
    exact ⟨rfl, rfl⟩
  obtain ⟨hcandidate, honset⟩ := tracked_candidate (window h ++ [f])
  constructor
  · rw [hresult, hrep.opened]
    refine and_congr_right fun _ => and_congr_right fun _ => ?_
    constructor
    · rintro ⟨hno, h', g, heq, hg⟩
      refine ⟨h', g, heq, hg, fun hev => ?_⟩
      rw [hclosing h' g heq] at hno
      exact absurd hev (of_decide_eq_false hno)
    · rintro ⟨h', g, heq, hg, hev⟩
      exact ⟨(hclosing h' g heq).trans (decide_eq_false hev), h', g, heq, hg⟩
  · exact hrep.closed
  · exact hrep.mask
  · rw [hresult, hrep.active]
    exact hrep.changes
  · intro hev
    rw [hsignal.1, (haccepted hev).1]
    exact hcandidate
  · intro hev before g rest hdrop
    rw [hsignal.2, (haccepted hev).2, if_pos (hcandidate.2 ⟨before, g, rest, hdrop⟩)]
    exact (honset before g rest hdrop).1
  · intro hact
    rw [hsignal.1, hstep, show ((after h).trigger.stepFrame f).2.active = true from hact]
    cases ht : (after h).trigger.active with
    | false => exact (tracked_accepted [f]).1
    | true =>
      rw [hh.follows ht f]
      exact (tracked_accepted _).1
  · intro hwas his
    rw [hwas, show ((after h).trigger.stepFrame f).2.active = false from his] at hstep
    rw [hsignal.1, hsignal.2, hstep]
    refine ⟨?_, ?_⟩
    · rintro rfl
      rfl
    · rintro h' g rfl
      rw [after_concat]
      exact ⟨rfl, rfl⟩

/-- **Step lemma.** -/
theorem heard_concat (hh : Heard h) (f : VibrationFrame) : Heard (h ++ [f]) := by
  obtain ⟨closing, hrep, -⟩ := hh.reports f
  have htrigger : (after (h ++ [f])).trigger = ((after h).trigger.stepFrame f).1 := by
    rw [after_concat]
    rfl
  have hstep : (after (h ++ [f])).pumpDecayTracker =
      ((after h).pumpDecayTracker.step f.nowMs (after h).trigger.active
        ((after h).trigger.stepFrame f).2.active f.usable f.raw).1 := by
    rw [after_concat]
    rfl
  rw [step_cases, hrep.active] at hstep
  refine ⟨⟨(after h).trigger.closes f, ?_, ?_⟩, fun hact => ?_, fun hact => ?_⟩
  · rw [htrigger]
    exact hrep.knows
  · intro h' g heq
    obtain ⟨hinit, hlast⟩ := List.append_inj' heq rfl
    rw [hinit, List.singleton_inj.1 hlast]
  · rw [htrigger] at hact
    rw [hact] at hstep
    rw [hstep, window_concat]
    have hevent : (detect h f).triggerResult.event = ((after h).trigger.stepFrame f).2.event := rfl
    rw [hevent]
    cases ht : (after h).trigger.active with
    | false =>
      rcases hrep.changes.1 hact with hopen | ⟨hwas, -⟩
      · rw [hopen]
        rfl
      · rw [ht] at hwas
        exact absurd hwas Bool.false_ne_true
    | true =>
      have hnone : ((after h).trigger.stepFrame f).2.event = .none := by
        cases hev : ((after h).trigger.stepFrame f).2.event with
        | none => rfl
        | opened => exact absurd ((hrep.opened.1 hev).1.symm.trans ht) Bool.false_ne_true
        | closed =>
          rcases hrep.changes.1 hact with hopen | ⟨-, hne⟩
          · rw [hev] at hopen
            exact absurd hopen nofun
          · exact absurd hev hne
      rw [hnone]
      exact hh.follows ht f
  · rw [htrigger] at hact
    rw [hact] at hstep
    rw [hstep]
    cases (after h).trigger.active with
    | false => rfl
    | true => rfl

/-- **Run lemma.** -/
theorem heard (h : List VibrationFrame) : Heard h := by
  induction h using List.reverseRecOn with
  | nil =>
    refine ⟨⟨false, ⟨fun _ => .inr ⟨rfl, .inr ?_⟩, fun hact => ?_⟩, ?_⟩, fun hact => ?_, fun _ => rfl⟩
    · exact fun h' g heq => absurd heq (by simp)
    · exact absurd hact Bool.false_ne_true
    · exact fun h' g heq => absurd heq (by simp)
    · exact absurd hact Bool.false_ne_true
  | append_singleton h f ih => exact heard_concat ih f

end

/-- **Result.** At every frame of every history the trigger and the tracker report what the frames
so far say. -/
theorem pump_window_heard (h : List VibrationFrame) (f : VibrationFrame) : HeardAt h f :=
  heardAt_of_heard (heard h) f

/-- A frame every 160 ms: the pump is heard at `rawSnrDb`, or the scale is moved. -/
def steadyFrame (k : ℕ) (rawSnrDb : Option ℚ) : VibrationFrame where
  stationary := rawSnrDb.isSome
  snrDb := some 20
  rawSnrDb := rawSnrDb
  peakHz := some 110
  hasCluster := true
  nowMs := BitVec.ofNat 32 (1000 + 160 * k)

/-- Six frames at 30 dB, fourteen at 25 dB, and three of the four that close the window. -/
def longDrop : List VibrationFrame :=
  (List.range 6).map (fun k => steadyFrame k (some 30)) ++
    (List.range 14).map (fun k => steadyFrame (6 + k) (some 25)) ++
    (List.range 3).map (fun k => steadyFrame (20 + k) none)

/-- A drop that has been followed for more than two seconds is given up, with the frames in it. -/
theorem not_onset_longDrop : ¬ ∀ (h : List VibrationFrame) (f : VibrationFrame),
    (detect h f).triggerResult.event = .closed →
      ((detect h f).pumpSignal.hasAcceptedDecayOnset = true ↔ ∃ before g rest,
        window h ++ [f] = before ++ g :: rest ∧ drops (held before) g.usable g.raw = true ∧
          (∀ x ∈ rest, recovers (held before) x.usable x.raw = false) ∧
          f.nowMs - g.nowMs ≤ MAX_CARRY_MS) := by
  intro hall
  have hiff := hall longDrop (steadyFrame 23 none) (by decide +kernel)
  have hno : (detect longDrop (steadyFrame 23 none)).pumpSignal.hasAcceptedDecayOnset = false := by
    decide +kernel
  have hwindow : window longDrop ++ [steadyFrame 23 none] =
      (window longDrop).take 15 ++ steadyFrame 16 (some 25) ::
        ((window longDrop).drop 16 ++ [steadyFrame 23 none]) := by
    decide +kernel
  rw [hno] at hiff
  refine absurd (hiff.2 ⟨_, _, _, hwindow, ?_⟩) Bool.false_ne_true
  decide +kernel

end VibrationSensor

end Pumpbug
