import Pumpbug.Power.LowBatteryShutdown
import Mathlib.Data.List.DropRight

/-!
# When a shutdown is requested

The policy keeps two flags and a start time.  They are determined by the readings since the last one
that cancelled, and by the decisions since the last input that rearmed the policy: a recovery
cancels a confirmation, but does not take a request back.
-/

namespace Pumpbug.Power.LowBatteryShutdownPolicy

open Lib

/-! ## The inputs as the law sees them -/

def Reading.valid (r : Reading) : Bool := 0 < r.voltageMv

def Reading.onBattery (r : Reading) : Bool := !r.hasExternalPower

/-- At or below the low threshold. -/
def Reading.low (r : Reading) : Bool :=
  r.onBattery && r.valid && r.voltageMv ≤ kLowBatteryConfirmationVoltageMv

def Reading.recovered (r : Reading) : Bool :=
  r.onBattery && r.valid && kRecoveryVoltageMv ≤ r.voltageMv

/-- A reset or external power. -/
def Input.rearms : Input → Bool
  | .reading r => r.hasExternalPower
  | .reset => true

/-- A reset, external power or a recovery. -/
def Input.cancels : Input → Bool
  | .reading r => r.hasExternalPower || r.recovered
  | .reset => true

def Input.lowReading : Input → Option Reading
  | .reading r => if r.low then some r else none
  | .reset => none

/-- The true times of the readings. -/
def times (h : List Input) : List ℕ :=
  h.filterMap fun
    | .reading r => some r.timeMs
    | .reset => none

/-- The first low reading since the latest input that cancels. -/
def firstLow (h : List Input) : Option Reading :=
  (h.rtakeWhile fun i => !i.cancels).findSome? Input.lowReading

/-- The inputs with the decisions they get. -/
def decisions (p : LowBatteryShutdownPolicy) : List Input → List (Input × Decision)
  | [] => []
  | i :: is => (i, (p.react i).2) :: decisions (p.step i) is

/-- A shutdown has been requested since the latest input that satisfies `p`. -/
def requestedSince (p : Input → Bool) (h : List Input) : Bool :=
  ((decisions {} h).rtakeWhile fun e => !p e.1).any fun e => e.2 = .shutdown

/-- After the inputs `h`, the reading `r` requests a shutdown. -/
def Requests (h : List Input) (r : Reading) : Prop :=
  ((policyAfter h).react (.reading r)).2 = .shutdown

instance (h : List Input) (r : Reading) : Decidable (Requests h r) :=
  inferInstanceAs (Decidable (_ = _))

/-! ## One more input -/

variable {h : List Input} {i : Input} {r : Reading}

theorem policyAfter_concat (h : List Input) (i : Input) :
    policyAfter (h ++ [i]) = (policyAfter h).step i := by
  unfold policyAfter
  rw [exec_append, exec_cons, exec_nil]

theorem decisions_append (p : LowBatteryShutdownPolicy) (h h' : List Input) :
    decisions p (h ++ h') = decisions p h ++ decisions (exec step p h) h' := by
  induction h generalizing p with
  | nil => rfl
  | cons i h ih =>
    rw [List.cons_append, decisions, decisions, ih]
    rfl

theorem requestedSince_concat (p : Input → Bool) (h : List Input) (i : Input) :
    requestedSince p (h ++ [i]) =
      (!p i && (requestedSince p h || decide (((policyAfter h).react i).2 = .shutdown))) := by
  unfold requestedSince
  rw [decisions_append]
  show List.any (List.rtakeWhile _ (_ ++ [(i, ((policyAfter h).react i).2)])) _ = _
  cases hp : p i with
  | true =>
    rw [List.rtakeWhile_concat_neg _ _ _ (by simp [hp])]
    rfl
  | false =>
    rw [List.rtakeWhile_concat_pos _ _ _ (by simp [hp]), List.any_append]
    simp

theorem firstLow_concat (h : List Input) (i : Input) :
    firstLow (h ++ [i]) = if i.cancels then none else (firstLow h).or i.lowReading := by
  unfold firstLow
  cases hc : i.cancels with
  | true =>
    rw [List.rtakeWhile_concat_neg _ _ _ (by simp [hc]), if_pos rfl]
    rfl
  | false =>
    rw [List.rtakeWhile_concat_pos _ _ _ (by simp [hc]), if_neg Bool.false_ne_true,
      List.findSome?_append, List.findSome?_singleton]

/-- A low reading stands in the history. -/
theorem firstLow_mem {r₀ : Reading} (hr : r₀ ∈ firstLow h) : Input.reading r₀ ∈ h := by
  obtain ⟨i, hi, hlow⟩ := List.exists_of_findSome?_eq_some hr
  have hmem : i ∈ h := (List.rtakeWhile_suffix _ h).subset hi
  cases i with
  | reading r =>
    unfold Input.lowReading at hlow
    dsimp only at hlow
    split_ifs at hlow
    rw [← Option.some.inj hlow]
    exact hmem
  | reset => exact absurd hlow nofun

/-! ## The flags -/

/-- What the flags of the policy say about the history. -/
structure Follows (h : List Input) (p : LowBatteryShutdownPolicy) : Prop where
  requested : p.shutdownRequested = requestedSince Input.rearms h
  observed : p.shutdownRequested = false → p.lowVoltageObserved = (firstLow h).isSome
  started : p.shutdownRequested = false →
    ∀ r₀ ∈ firstLow h, p.lowVoltageStartedMs = Clock.reading 32 r₀.timeMs

/-- The cases of a reading on battery with a voltage, with no request pending. -/
inductive Answer (p : LowBatteryShutdownPolicy) (r : Reading) :
    LowBatteryShutdownPolicy × Decision → Prop
  | quiet (ho : p.lowVoltageObserved = false) (hlow : r.low = false) : Answer p r (p, .none)
  | begins (ho : p.lowVoltageObserved = false) (hlow : r.low = true) :
    Answer p r ({ p with
      lowVoltageObserved := true, lowVoltageStartedMs := Clock.reading 32 r.timeMs }, .none)
  | recovers (ho : p.lowVoltageObserved = true) (hrec : r.recovered = true) :
    Answer p r (p.reset, .none)
  | waits (ho : p.lowVoltageObserved = true) (hrec : r.recovered = false)
      (hshort : Clock.reading 32 r.timeMs - p.lowVoltageStartedMs < kConfirmationMs) :
    Answer p r (p, .none)
  | requests (ho : p.lowVoltageObserved = true) (hrec : r.recovered = false)
      (hlong : ¬ Clock.reading 32 r.timeMs - p.lowVoltageStartedMs < kConfirmationMs) :
    Answer p r ({ p with shutdownRequested := true }, .shutdown)

variable {p : LowBatteryShutdownPolicy}

theorem react_externalPower (hr : r.hasExternalPower = true) :
    p.react (.reading r) = (p.reset, .none) := by
  unfold react update
  dsimp only
  rw [if_pos hr]

theorem react_missing (hr : r.hasExternalPower = false) (hv : r.valid = false) :
    p.react (.reading r) = (p, .none) := by
  have hle : r.voltageMv ≤ 0 := not_lt.1 (of_decide_eq_false hv)
  unfold react update
  dsimp only
  rw [hr, if_neg Bool.false_ne_true, if_pos hle]

theorem react_requested (hr : r.hasExternalPower = false) (hp : p.shutdownRequested = true) :
    p.react (.reading r) = (p, .none) := by
  unfold react update
  dsimp only
  rw [hr, if_neg Bool.false_ne_true, if_pos hp, ite_self]

theorem react_answer (hr : r.hasExternalPower = false) (hv : r.valid = true)
    (hp : p.shutdownRequested = false) : Answer p r (p.react (.reading r)) := by
  have hpos : ¬ r.voltageMv ≤ 0 := not_le.2 (of_decide_eq_true hv)
  have hlow : r.low = decide (r.voltageMv ≤ kLowBatteryConfirmationVoltageMv) := by
    simp [Reading.low, Reading.onBattery, hr, hv]
  have hrec : r.recovered = decide (kRecoveryVoltageMv ≤ r.voltageMv) := by
    simp [Reading.recovered, Reading.onBattery, hr, hv]
  have hnot : ¬ p.shutdownRequested = true := by simp [hp]
  have hseen := Bool.eq_false_or_eq_true p.lowVoltageObserved
  unfold react update
  dsimp only
  rw [hr, if_neg Bool.false_ne_true, if_neg hpos, if_neg hnot]
  rcases hseen with ho | ho
  · have hpassed : ¬ (!p.lowVoltageObserved) = true := by simp [ho]
    rw [if_neg hpassed]
    by_cases hover : kRecoveryVoltageMv ≤ r.voltageMv
    · rw [if_pos hover]
      exact .recovers ho (hrec.trans (decide_eq_true hover))
    · rw [if_neg hover]
      have hrec := hrec.trans (decide_eq_false hover)
      by_cases hshort : Clock.reading 32 r.timeMs - p.lowVoltageStartedMs < kConfirmationMs
      · rw [if_pos hshort]
        exact .waits ho hrec hshort
      · rw [if_neg hshort]
        exact .requests ho hrec hshort
  · have hfirst : (!p.lowVoltageObserved) = true := by simp [ho]
    rw [if_pos hfirst]
    by_cases hhigh : kLowBatteryConfirmationVoltageMv < r.voltageMv
    · rw [if_pos hhigh]
      exact .quiet ho (hlow.trans (decide_eq_false (not_le.2 hhigh)))
    · rw [if_neg hhigh]
      exact .begins ho (hlow.trans (decide_eq_true (not_lt.1 hhigh)))

theorem Reading.not_low_of_recovered (hr : r.recovered = true) : r.low = false := by
  unfold Reading.recovered at hr
  unfold Reading.low
  have hover := of_decide_eq_true (Bool.and_eq_true_iff.1 hr).2
  have hlow : ¬ r.voltageMv ≤ kLowBatteryConfirmationVoltageMv := by
    unfold kRecoveryVoltageMv at hover
    unfold kLowBatteryConfirmationVoltageMv
    omega
  rw [decide_eq_false hlow, Bool.and_false]

theorem cancels_eq_recovered (hr : r.hasExternalPower = false) :
    (Input.reading r).cancels = r.recovered := by
  unfold Input.cancels
  dsimp only
  rw [hr, Bool.false_or]

theorem lowReading_eq (hr : r.low = false) : (Input.reading r).lowReading = none := by
  unfold Input.lowReading
  dsimp only
  rw [if_neg (by rw [hr]; exact Bool.false_ne_true)]

theorem follows_nil : Follows [] {} where
  requested := rfl
  observed _ := rfl
  started _ _ hr₀ := absurd hr₀ nofun

theorem Input.cancels_of_rearms (hi : i.rearms = true) : i.cancels = true := by
  cases i with
  | reading r =>
    have hr : r.hasExternalPower = true := hi
    unfold Input.cancels
    dsimp only
    rw [hr, Bool.true_or]
  | reset => rfl

/-- An input that rearms. -/
theorem follows_rearmed (hi : i.rearms = true) : Follows (h ++ [i]) {} where
  requested := by
    rw [requestedSince_concat, hi]
    rfl
  observed _ := by
    rw [firstLow_concat, if_pos (Input.cancels_of_rearms hi)]
    rfl
  started _ r₀ hr₀ := by
    rw [firstLow_concat, if_pos (Input.cancels_of_rearms hi)] at hr₀
    exact absurd hr₀ nofun

/-- A reading on battery, from what it does to the request and to the first low reading. -/
theorem follows_reading (hr : r.hasExternalPower = false) {u : LowBatteryShutdownPolicy × Decision}
    (hu : (policyAfter h).react (.reading r) = u)
    (hrequested : u.1.shutdownRequested = (requestedSince Input.rearms h || decide (u.2 = .shutdown)))
    (hobserved : u.1.shutdownRequested = false →
      u.1.lowVoltageObserved = (firstLow (h ++ [.reading r])).isSome ∧
        ∀ r₀ ∈ firstLow (h ++ [.reading r]), u.1.lowVoltageStartedMs = Clock.reading 32 r₀.timeMs) :
    Follows (h ++ [.reading r]) u.1 where
  requested := by
    have hi : Input.rearms (.reading r) = false := hr
    rw [requestedSince_concat, hi, hu, hrequested]
    rfl
  observed hp := (hobserved hp).1
  started hp := (hobserved hp).2

/-- A reading that leaves the first low reading alone. -/
theorem firstLow_quiet (hc : (Input.reading r).cancels = false)
    (hlow : r.low = false ∨ (firstLow h).isSome) : firstLow (h ++ [.reading r]) = firstLow h := by
  rw [firstLow_concat, hc, if_neg Bool.false_ne_true]
  rcases hlow with hlow | hsome
  · rw [lowReading_eq hlow, Option.or_none]
  · obtain ⟨r₀, hr₀⟩ := Option.isSome_iff_exists.1 hsome
    rw [hr₀, Option.some_or]

/-- **Step.** One more reading on battery keeps the flags in line with the history. -/
theorem follows_onBattery (hf : Follows h (policyAfter h)) (hr : r.hasExternalPower = false) :
    Follows (h ++ [.reading r]) ((policyAfter h).react (.reading r)).1 := by
  have hcancels := cancels_eq_recovered hr
  cases hv : r.valid with
  | false =>
    have hlow : r.low = false := by simp [Reading.low, hv]
    have hrec : r.recovered = false := by simp [Reading.recovered, hv]
    rw [hrec] at hcancels
    have hquiet := firstLow_quiet (h := h) hcancels (Or.inl hlow)
    refine follows_reading hr rfl ?_ ?_
    · rw [react_missing hr hv]
      simpa using hf.requested
    · rw [react_missing hr hv, hquiet]
      intro hp
      exact ⟨hf.observed hp, hf.started hp⟩
  | true =>
    cases hp : (policyAfter h).shutdownRequested with
    | true =>
      refine follows_reading hr rfl ?_ ?_
      · rw [react_requested hr hp]
        simpa using hf.requested
      · rw [react_requested hr hp]
        intro hp'
        exact absurd (hp.symm.trans hp') (by decide)
    | false =>
      have hreq := hf.requested
      have hobs := hf.observed hp
      have hstart := hf.started hp
      have hanswer := react_answer hr hv hp
      refine follows_reading hr rfl ?_ ?_
      · generalize (policyAfter h).react (.reading r) = u at hanswer ⊢
        cases hanswer
        all_goals simp [← hreq, hp, reset]
      · generalize (policyAfter h).react (.reading r) = u at hanswer ⊢
        intro _
        cases hanswer with
        | quiet ho hlow =>
          rw [ho] at hobs
          have hnone : firstLow h = none :=
            Option.isNone_iff_eq_none.1 (Option.isSome_eq_false_iff.1 hobs.symm)
          rw [firstLow_concat, hnone, lowReading_eq hlow, Option.or_none, ite_self]
          exact ⟨ho, fun r₀ hr₀ => absurd hr₀ (Option.not_mem_none r₀)⟩
        | begins ho hlow =>
          rw [ho] at hobs
          have hnone : firstLow h = none :=
            Option.isNone_iff_eq_none.1 (Option.isSome_eq_false_iff.1 hobs.symm)
          have hrec : r.recovered = false := by
            by_contra hrec
            rw [Reading.not_low_of_recovered (Bool.eq_true_of_not_eq_false hrec)] at hlow
            exact absurd hlow Bool.false_ne_true
          have hsome : firstLow (h ++ [.reading r]) = some r := by
            rw [firstLow_concat, hcancels, hrec, if_neg Bool.false_ne_true, hnone, Option.none_or]
            unfold Input.lowReading
            dsimp only
            rw [if_pos hlow]
          rw [hsome]
          refine ⟨rfl, ?_⟩
          intro r₀ hr₀
          rw [Option.some.inj hr₀]
        | recovers ho hrec =>
          rw [firstLow_concat, hcancels, hrec, if_pos rfl]
          exact ⟨rfl, fun r₀ hr₀ => absurd hr₀ (Option.not_mem_none r₀)⟩
        | waits ho hrec hshort =>
          rw [hrec] at hcancels
          rw [firstLow_quiet hcancels (Or.inr (hobs.symm.trans ho))]
          exact ⟨hobs, hstart⟩
        | requests ho hrec hlong =>
          rw [hrec] at hcancels
          rw [firstLow_quiet hcancels (Or.inr (hobs.symm.trans ho))]
          exact ⟨hobs, hstart⟩

/-- **Run.** -/
theorem follows (h : List Input) : Follows h (policyAfter h) := by
  induction h using List.reverseRecOn with
  | nil => exact follows_nil
  | append_singleton h i ih =>
    rw [policyAfter_concat]
    unfold step
    cases i with
    | reset => exact follows_rearmed rfl
    | reading r =>
      cases hr : r.hasExternalPower with
      | true =>
        rw [react_externalPower hr]
        exact follows_rearmed hr
      | false => exact follows_onBattery ih hr

/-! ## The law -/

theorem kConfirmationMs_le_iff {b t : ℕ} (h : b ≤ t) :
    ¬ Clock.reading 32 t - Clock.reading 32 b < kConfirmationMs ↔ 15000 ≤ (t - b) % 2 ^ 32 := by
  rw [Clock.reading_sub h, BitVec.not_lt, BitVec.le_def]
  unfold Clock.reading
  rw [BitVec.toNat_ofNat]
  rfl

/-- While a request is pending, no input but one that rearms the policy takes it back. -/
theorem shutdownRequested_step (hp : p.shutdownRequested = true) (hi : i.rearms = false) :
    (p.step i).shutdownRequested = true := by
  unfold step
  cases i with
  | reset => exact absurd hi Bool.true_eq_false.mp
  | reading r =>
    rw [react_requested hi hp]
    exact hp

theorem shutdownRequested_exec (hp : p.shutdownRequested = true) {is : List Input}
    (his : ∀ i ∈ is, i.rearms = false) : (exec step p is).shutdownRequested = true := by
  induction is generalizing p with
  | nil => exact hp
  | cons i is ih =>
    rw [List.forall_mem_cons] at his
    exact ih (shutdownRequested_step hp his.1) his.2

/-- What requests a shutdown, in terms of the policy. -/
theorem requests_iff_policy : Requests h r ↔ r.hasExternalPower = false ∧ r.valid = true ∧
    (policyAfter h).shutdownRequested = false ∧ (policyAfter h).lowVoltageObserved = true ∧
      r.recovered = false ∧
      ¬ Clock.reading 32 r.timeMs - (policyAfter h).lowVoltageStartedMs < kConfirmationMs := by
  unfold Requests
  cases hr : r.hasExternalPower with
  | true =>
    rw [react_externalPower hr]
    simp
  | false =>
    cases hv : r.valid with
    | false =>
      rw [react_missing hr hv]
      simp
    | true =>
      cases hp : (policyAfter h).shutdownRequested with
      | true =>
        rw [react_requested hr hp]
        simp
      | false =>
        have hanswer := react_answer hr hv hp
        generalize (policyAfter h).react (.reading r) = u at hanswer ⊢
        cases hanswer with
        | quiet ho => simp [ho]
        | begins ho => simp [ho]
        | recovers ho hrec => simp [hrec]
        | waits ho hrec hshort => simp [hshort]
        | requests ho hrec hlong => simp [ho, hrec, hlong]

theorem Requests.shutdownRequested (hr : Requests h r) :
    (policyAfter (h ++ [.reading r])).shutdownRequested = true := by
  obtain ⟨hext, hv, hp, ho, hrec, hlong⟩ := requests_iff_policy.1 hr
  have hanswer := react_answer hext hv hp
  unfold Requests at hr
  rw [policyAfter_concat]
  unfold step
  generalize (policyAfter h).react (.reading r) = u at hr hanswer ⊢
  cases hanswer with
  | quiet => exact absurd hr nofun
  | begins => exact absurd hr nofun
  | recovers => exact absurd hr nofun
  | waits => exact absurd hr nofun
  | requests => rfl

/-- **When a shutdown is requested.** The reading is valid, on battery and not recovered; none has
been requested since the last reset or external power; and since the last reset, external power or
recovery a low reading came at least fifteen seconds earlier, by the clock.  A missing sample
changes nothing, and a request is the only one until a reset or external power. -/
theorem requests_iff (hord : (times (h ++ [.reading r])).Pairwise (· ≤ ·)) :
    (Requests h r ↔ r.valid = true ∧ r.onBattery = true ∧ r.voltageMv < kRecoveryVoltageMv ∧
      requestedSince Input.rearms h = false ∧
      ∃ r₀ ∈ firstLow h, 15000 ≤ (r.timeMs - r₀.timeMs) % 2 ^ 32) ∧
    (r.onBattery = true → r.valid = false →
      ¬ Requests h r ∧ policyAfter (h ++ [.reading r]) = policyAfter h) ∧
    (Requests h r → ∀ more, (∀ i ∈ more, i.rearms = false) → ∀ r',
      ¬ Requests (h ++ .reading r :: more) r') := by
  refine ⟨?_, ?_, ?_⟩
  · have hf := follows h
    have hearlier : ∀ r₀ ∈ firstLow h, r₀.timeMs ≤ r.timeMs := by
      intro r₀ hr₀
      have hmem : r₀.timeMs ∈ times h :=
        List.mem_filterMap.2 ⟨.reading r₀, firstLow_mem hr₀, rfl⟩
      unfold times at hord hmem
      rw [List.filterMap_append] at hord
      exact (List.pairwise_append.1 hord).2.2 _ hmem r.timeMs (List.mem_singleton_self _)
    rw [requests_iff_policy, ← hf.requested]
    constructor
    · rintro ⟨hext, hv, hp, ho, hrec, hlong⟩
      rw [hf.observed hp] at ho
      obtain ⟨r₀, hr₀⟩ := Option.isSome_iff_exists.1 ho
      rw [hf.started hp r₀ hr₀, kConfirmationMs_le_iff (hearlier r₀ hr₀)] at hlong
      have hbattery : r.onBattery = true := by simp [Reading.onBattery, hext]
      refine ⟨hv, hbattery, ?_, hp, r₀, hr₀, hlong⟩
      simpa [Reading.recovered, hbattery, hv] using hrec
    · rintro ⟨hv, hbattery, hunder, hp, r₀, hr₀, hlong⟩
      have hext : r.hasExternalPower = false := by simpa [Reading.onBattery] using hbattery
      refine ⟨hext, hv, hp, ?_, ?_, ?_⟩
      · rw [hf.observed hp, hr₀]
        rfl
      · simpa [Reading.recovered, hbattery, hv] using hunder
      · rw [hf.started hp r₀ hr₀, kConfirmationMs_le_iff (hearlier r₀ hr₀)]
        exact hlong
  · intro hbattery hv
    have hext : r.hasExternalPower = false := by simpa [Reading.onBattery] using hbattery
    refine ⟨?_, ?_⟩
    · intro hr
      exact absurd (hv.symm.trans (requests_iff_policy.1 hr).2.1) Bool.false_ne_true
    · rw [policyAfter_concat]
      unfold step
      rw [react_missing hext hv]
  · intro hr more hmore r' hr'
    have hpending := shutdownRequested_exec hr.shutdownRequested hmore
    have hnone := (requests_iff_policy.1 hr').2.2.1
    unfold policyAfter at hpending hnone
    rw [← exec_append, List.append_assoc, List.singleton_append, hnone] at hpending
    exact absurd hpending Bool.false_ne_true

/-- A low reading, then one missing and one between the thresholds. -/
def lowReadings : List Input :=
  [.reading ⟨3440, false, 1000⟩, .reading ⟨-1, false, 10000⟩, .reading ⟨3480, false, 15999⟩]

theorem requests_iff_lowReadings :
    Requests lowReadings ⟨3440, false, 16000⟩ ∧
      ∀ more, (∀ i ∈ more, i.rearms = false) → ∀ r',
        ¬ Requests (lowReadings ++ .reading ⟨3440, false, 16000⟩ :: more) r' :=
  have hlaw := requests_iff (h := lowReadings) (r := ⟨3440, false, 16000⟩) (by decide)
  have hrequests : Requests lowReadings ⟨3440, false, 16000⟩ := hlaw.1.2 (by decide)
  ⟨hrequests, hlaw.2.2 hrequests⟩

/-- The law if a recovery took a request back, and the clock did not wrap. -/
def RecoveryRearms (h : List Input) (r : Reading) : Prop :=
  r.valid = true ∧ r.onBattery = true ∧ r.voltageMv < kRecoveryVoltageMv ∧
    requestedSince Input.cancels h = false ∧ ∃ r₀ ∈ firstLow h, r₀.timeMs + 15000 ≤ r.timeMs

instance (h : List Input) (r : Reading) : Decidable (RecoveryRearms h r) :=
  inferInstanceAs (Decidable (_ ∧ _ ∧ _ ∧ _ ∧ _))

/-- A request, a recovery, and a battery that reads low again. -/
def recoveredReadings : List Input :=
  [.reading ⟨3440, false, 0⟩, .reading ⟨3440, false, 15000⟩, .reading ⟨3500, false, 16000⟩,
    .reading ⟨3440, false, 17000⟩]

/-- A recovery does not take a request back, and a full turn of the clock hides the low reading. -/
theorem not_recoveryRearms :
    ¬ (Requests recoveredReadings ⟨3440, false, 32000⟩ ↔
        RecoveryRearms recoveredReadings ⟨3440, false, 32000⟩) ∧
      ¬ (Requests [.reading ⟨3440, false, 0⟩] ⟨3440, false, 2 ^ 32⟩ ↔
        RecoveryRearms [.reading ⟨3440, false, 0⟩] ⟨3440, false, 2 ^ 32⟩) := by
  constructor <;> decide

end Pumpbug.Power.LowBatteryShutdownPolicy
