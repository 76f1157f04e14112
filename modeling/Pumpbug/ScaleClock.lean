import Pumpbug.RecordStep
import Pumpbug.ScaleService

/-!
# The clock of the scale's readings

A stamp ought to be the arrival time, moved on only as far as it takes to be nonzero and ahead of
the session's previous stamp.  The service keeps the previous stamp in the reading, and an empty
reading has the stamp 0: a session whose first reading arrives in the upper half of the counter is
taken to be late against that 0.
-/

namespace Pumpbug

open Lib

/-! ## Stamps -/

/-- A stamp that may follow `prev`. -/
def Admissible (prev : Option U32) (t : U32) : Prop := t ≠ 0 ∧ ∀ p ∈ prev, Clock.Ahead p t

/-- The stamp of an arrival is the first admissible time from the arrival on. -/
structure Stamps (prev : Option U32) (arrival t : U32) : Prop where
  admissible : Admissible prev t
  first : ∀ k : ℕ, k < Clock.since arrival t → ¬ Admissible prev (arrival + BitVec.ofNat 32 k)

/-- An empty reading has the stamp 0. -/
def lastStamp (stamp : U32) : Option U32 := if stamp = 0 then none else some stamp

/-- The arrival meets the clamp on its good side: a first reading is in the lower half of the
counter, and a reading at 0 is not half a turn after the last stamp. -/
def InReach (stamp arrival : U32) : Prop :=
  (stamp = 0 → arrival < 0x80000000) ∧ ¬ (arrival = 0 ∧ stamp = 0x80000001)

instance (stamp arrival : U32) : Decidable (InReach stamp arrival) :=
  inferInstanceAs (Decidable (_ ∧ _))

/-- The clamp by cases. -/
theorem ensureMonotonicTimestamp_cases (a p : U32) :
    (Clock.Ahead p a ∧ a ≠ 0 ∧ ensureMonotonicTimestamp a p = a) ∨
    (Clock.Ahead p a ∧ a = 0 ∧ ensureMonotonicTimestamp a p = 1) ∨
    (¬ Clock.Ahead p a ∧ p + 1 ≠ 0 ∧ ensureMonotonicTimestamp a p = p + 1) ∨
    (¬ Clock.Ahead p a ∧ p + 1 = 0 ∧ ensureMonotonicTimestamp a p = 1) := by
  unfold ensureMonotonicTimestamp Clock.Ahead
  by_cases h : (a - p).toInt ≤ 0
  · right; right
    rw [if_pos h]
    by_cases h0 : p + 1 = 0
    · exact Or.inr ⟨not_lt.2 h, h0, by rw [h0]; rfl⟩
    · exact Or.inl ⟨not_lt.2 h, h0, if_neg h0⟩
  · rw [if_neg h]
    by_cases h0 : a = 0
    · exact Or.inr (Or.inl ⟨not_le.1 h, h0, by rw [h0]; rfl⟩)
    · exact Or.inl ⟨not_le.1 h, h0, if_neg h0⟩

theorem ensureMonotonicTimestamp_ne_zero (a p : U32) : ensureMonotonicTimestamp a p ≠ 0 := by
  obtain ⟨-, h, e⟩ | ⟨-, -, e⟩ | ⟨-, h, e⟩ | ⟨-, -, e⟩ := ensureMonotonicTimestamp_cases a p
  · rw [e]; exact h
  · rw [e]; decide
  · rw [e]; exact h
  · rw [e]; decide

theorem mem_lastStamp {p q : U32} : q ∈ lastStamp p ↔ p ≠ 0 ∧ q = p := by
  unfold lastStamp
  by_cases h : p = 0
  · simp [h]
  · rw [if_neg h, Option.mem_some_iff]
    exact ⟨fun e => ⟨h, e.symm⟩, fun e => e.2.symm⟩

theorem admissible_iff {p t : U32} :
    Admissible (lastStamp p) t ↔ t ≠ 0 ∧ (p ≠ 0 → Clock.Ahead p t) := by
  unfold Admissible
  constructor
  · rintro ⟨h0, h⟩
    exact ⟨h0, fun hp => h p (mem_lastStamp.2 ⟨hp, rfl⟩)⟩
  · rintro ⟨h0, h⟩
    refine ⟨h0, fun q hq => ?_⟩
    obtain ⟨hp, rfl⟩ := mem_lastStamp.1 hq
    exact h hp

/-- Between an arrival that is not ahead of the last stamp and that stamp, nothing is ahead of
it. -/
theorem not_ahead_between {p a : U32} (h : ¬ Clock.Ahead p a) {k : ℕ}
    (hk : k ≤ Clock.since a p) : ¬ Clock.Ahead p (a + BitVec.ofNat 32 k) := by
  rw [Clock.ahead_iff (w := 31)] at h ⊢
  unfold Clock.since at *
  intro hahead
  have hk' : k < 2 ^ 32 := lt_of_le_of_lt hk (BitVec.isLt _)
  apply h
  constructor
  · bv_omega
  · bv_omega

/-- A stamp right after the last one. -/
theorem stamps_next {p a : U32} (hp : p + 1 ≠ 0) (h : ¬ Clock.Ahead p a) (h0 : p = 0 → a = 0) :
    Stamps (lastStamp p) a (p + 1) := by
  refine ⟨admissible_iff.2 ⟨hp, fun _ => ?_⟩, fun k hk hadm => ?_⟩
  · rw [Clock.ahead_iff (w := 31)]
    unfold Clock.since
    constructor <;> bv_omega
  · obtain ⟨hne, hahead⟩ := admissible_iff.1 hadm
    by_cases hzero : p = 0
    · rw [h0 hzero, hzero] at hk
      obtain rfl : k = 0 := Nat.lt_one_iff.1 hk
      exact hne (by rw [h0 hzero]; rfl)
    · refine not_ahead_between h (k := k) ?_ (hahead hzero)
      unfold Clock.since at *
      bv_omega

/-- The stamp that skips 0. -/
theorem stamps_skip {p a : U32} (hp : p + 1 = 0) (h : ¬ Clock.Ahead p a) :
    Stamps (lastStamp p) a 1 := by
  obtain rfl : p = 0xFFFFFFFF := by bv_omega
  refine ⟨admissible_iff.2 ⟨by decide, fun _ => by decide⟩, fun k hk hadm => ?_⟩
  obtain ⟨hne, hahead⟩ := admissible_iff.1 hadm
  refine not_ahead_between h (k := k) ?_ (hahead (by decide))
  by_contra hlt
  apply hne
  unfold Clock.since at *
  bv_omega

/-- **The clamp stamps as it should** exactly if the arrival is in reach. -/
theorem stamps_iff (p a : U32) :
    Stamps (lastStamp p) a (ensureMonotonicTimestamp a p) ↔ InReach p a := by
  unfold InReach
  constructor
  · rintro ⟨hadm, hfirst⟩
    refine ⟨?_, ?_⟩
    · rintro rfl
      by_contra hhalf
      obtain ⟨hahead, -⟩ | ⟨-, rfl, -⟩ | ⟨-, -, e⟩ | ⟨-, h, -⟩ := ensureMonotonicTimestamp_cases a 0
      · rw [Clock.ahead_iff (w := 31)] at hahead
        unfold Clock.since at hahead
        bv_omega
      · exact hhalf (by decide)
      · -- the first reading is stamped 1, though its arrival would do
        rw [e] at hfirst
        refine hfirst 0 ?_ (admissible_iff.2 ⟨?_, fun h => absurd rfl h⟩)
        · unfold Clock.since
          bv_omega
        · bv_omega
      · exact absurd h (by decide)
    · rintro ⟨rfl, rfl⟩
      exact absurd ((admissible_iff.1 hadm).2 (by decide)) (by decide)
  · rintro ⟨hhalf, hcorner⟩
    obtain ⟨hahead, h0, e⟩ | ⟨hahead, rfl, e⟩ | ⟨hahead, hp, e⟩ | ⟨hahead, hp, e⟩ :=
      ensureMonotonicTimestamp_cases a p
    · rw [e]
      refine ⟨admissible_iff.2 ⟨h0, fun _ => hahead⟩, fun k hk => ?_⟩
      rw [Clock.since_self] at hk
      exact absurd hk (Nat.not_lt_zero k)
    · rw [e]
      have hne : p ≠ 0x80000001 := fun h => hcorner ⟨rfl, h⟩
      refine ⟨admissible_iff.2 ⟨by decide, fun _ => ?_⟩, fun k hk hadm => ?_⟩
      · rw [Clock.ahead_iff (w := 31)] at hahead ⊢
        unfold Clock.since at *
        constructor <;> bv_omega
      · obtain rfl : k = 0 := Nat.lt_one_iff.1 hk
        exact hadm.1 rfl
    · rw [e]
      refine stamps_next hp hahead ?_
      rintro rfl
      have hlow := hhalf rfl
      rw [Clock.ahead_iff (w := 31)] at hahead
      unfold Clock.since at hahead
      bv_omega
    · rw [e]
      exact stamps_skip hp hahead

/-! ## The service next to the recorder -/

/-- What happens on the device. -/
inductive Occurrence where
  | transition (next : ScaleState)
  | doHandshake
  | weight (ev : WeightEvent)
  /-- A tick of the live recorder, with the reading of the moment. -/
  | tick (pumpSignal : PumpSignalObservation) (utcSec : U32)
  | clear
  | setTargetSnapshot (tc : TargetCoeffs)
  | triggerAlarm (a : AlarmTrigger)

/-- The service and the recorder, the uptime in milliseconds, when the shot in flight began, when
the last reading of the session arrived, and how many there were. -/
structure Station where
  service : BleScaleService := {}
  recorder : Recorder := {}
  now : ℕ := 0
  beginAt : ℕ := 0
  lastArrival : ℕ := 0
  readings : ℕ := 0

namespace Station

/-- The reading was emptied: a session begins. -/
def resetReadings (d : Station) (service : BleScaleService) : Station :=
  { d with service := service,
           readings := if service.weight.timestampMs = 0 then 0 else d.readings }

def tickInput (d : Station) (T : ℕ) (pumpSignal : PumpSignalObservation) (utcSec : U32) :
    Recorder.Input where
  nowMs := Clock.reading 32 T
  pumpSignal := pumpSignal
  scale := scaleSnapshotFromBle d.service.snapshot
  utcSec := utcSec

/-- One occurrence, at its uptime. -/
def step (d : Station) (c : ℕ × Occurrence) : Station :=
  let d := { d with now := c.1 }
  match c.2 with
  | .transition next => d.resetReadings (d.service.transition next)
  | .doHandshake => d.resetReadings d.service.doHandshake
  | .weight ev =>
    { d with service := d.service.onEvent (Clock.reading 32 c.1) ev,
             lastArrival := c.1, readings := d.readings + 1 }
  | .tick pumpSignal utcSec =>
    let i := d.tickInput c.1 pumpSignal utcSec
    { d with recorder := d.recorder.update i,
             beginAt := if d.recorder.begins i then c.1 else d.beginAt }
  | .clear => { d with recorder := d.recorder.clear }
  | .setTargetSnapshot tc => { d with recorder := d.recorder.setTargetSnapshot tc }
  | .triggerAlarm a => { d with recorder := d.recorder.triggerAlarm a }

/-- Occurrences come in order, and less than `2 ^ 31` milliseconds lie between two readings of one
session. -/
def Admits (d : Station) (c : ℕ × Occurrence) : Prop :=
  d.now ≤ c.1 ∧ ∀ ev, c.2 = .weight ev → d.readings ≠ 0 → c.1 - d.lastArrival < 2 ^ 31

/-- The stamp that a reading arriving at `T` gets. -/
def stampAt (d : Station) (T : ℕ) : U32 :=
  ensureMonotonicTimestamp (Clock.reading 32 T) d.service.weight.timestampMs

/-- The stamp is right, and during a shot it is not before the beginning, as the recorder compares
the two.  The shot and the lead that readings of one millisecond gain stay within `2 ^ 31`. -/
def StampsRight (d : Station) (T : ℕ) : Prop :=
  Stamps (lastStamp d.service.weight.timestampMs) (Clock.reading 32 T) (d.stampAt T) ∧
    (d.recorder.current.inPumpWindow = true → T - d.beginAt + 2 * (d.readings + 1) < 2 ^ 31 →
      ¬ (d.stampAt T - d.recorder.current.beginMs).toInt < 0)

/-- A condition on every reading of a run. -/
def EveryReading (P : Station → ℕ → Prop) (d : Station) (c : ℕ × Occurrence) : Prop :=
  ∀ ev, c.2 = .weight ev → P d c.1

/-- What holds along a run of the session's stamps and of the shot in flight. -/
structure Sound (d : Station) : Prop where
  empty : d.readings = 0 ↔ d.service.weight.timestampMs = 0
  arrived : d.lastArrival ≤ d.now
  lead : d.readings ≠ 0 →
    Clock.since (Clock.reading 32 d.lastArrival) d.service.weight.timestampMs ≤ 2 * d.readings
  clean : d.recorder.Clean
  began : d.recorder.current.inPumpWindow = true →
    d.recorder.current.beginMs = Clock.reading 32 d.beginAt ∧ d.beginAt ≤ d.now

theorem sound_init : Sound {} where
  empty := ⟨fun _ => rfl, fun _ => rfl⟩
  arrived := le_rfl
  lead := fun h => absurd rfl h
  clean := fun _ => rfl
  began := fun h => absurd h (by decide)

/-! ## The lead of a stamp -/

/-- A stamp not ahead of the last one lies before it, by no more than the last arrival did. -/
theorem since_le_of_not_ahead {l a p : U32} (hgap : Clock.since l a < 2 ^ 31)
    (h : ¬ Clock.Ahead p a) : Clock.since a p ≤ Clock.since l p := by
  by_cases hle : Clock.since l a ≤ Clock.since l p
  · rw [Clock.since_of_le hle]
    exact Nat.sub_le _ _
  · exfalso
    apply h
    rw [Clock.ahead_iff (w := 31), Clock.since_of_le (le_of_not_ge hle)]
    omega

theorem since_stamp_le {l a p : U32} (hgap : Clock.since l a < 2 ^ 31) :
    Clock.since a (ensureMonotonicTimestamp a p) ≤ Clock.since l p + 2 := by
  obtain ⟨-, -, e⟩ | ⟨-, rfl, e⟩ | ⟨h, -, e⟩ | ⟨h, hp, e⟩ := ensureMonotonicTimestamp_cases a p
  · rw [e, Clock.since_self]
    exact Nat.zero_le _
  · rw [e]
    exact le_trans (by decide) (Nat.le_add_left 2 _)
  · have hle := since_le_of_not_ahead hgap h
    rw [e]
    unfold Clock.since at *
    bv_omega
  · have hle := since_le_of_not_ahead hgap h
    rw [e]
    unfold Clock.since at *
    bv_omega

/-- The lead of a first reading in the lower half. -/
theorem since_firstStamp_le {a : U32} (h : a < 0x80000000) :
    Clock.since a (ensureMonotonicTimestamp a 0) ≤ 2 := by
  obtain ⟨-, -, e⟩ | ⟨-, rfl, e⟩ | ⟨h', -, e⟩ | ⟨-, hp, -⟩ := ensureMonotonicTimestamp_cases a 0
  · rw [e, Clock.since_self]
    exact Nat.zero_le _
  · rw [e]
    decide
  · rw [e]
    rw [Clock.ahead_iff (w := 31)] at h'
    unfold Clock.since at *
    bv_omega
  · exact absurd hp (by decide)

variable {d : Station} {T : ℕ}

theorem since_stampAt_le (h : Sound d) (hT : d.now ≤ T)
    (hgap : d.readings ≠ 0 → T - d.lastArrival < 2 ^ 31)
    (hreach : InReach d.service.weight.timestampMs (Clock.reading 32 T)) :
    Clock.since (Clock.reading 32 T) (d.stampAt T) ≤ 2 * (d.readings + 1) := by
  unfold stampAt
  by_cases h0 : d.readings = 0
  · have hp := h.empty.1 h0
    rw [hp] at hreach ⊢
    have hle := since_firstStamp_le (hreach.1 rfl)
    omega
  · have hshort := hgap h0
    have hle : d.lastArrival ≤ T := le_trans h.arrived hT
    have hsince : Clock.since (Clock.reading 32 d.lastArrival) (Clock.reading 32 T) < 2 ^ 31 := by
      rw [Clock.since_reading hle (lt_trans hshort (by decide))]
      exact hshort
    have hstamp := @since_stamp_le _ _ d.service.weight.timestampMs hsince
    have hlead := h.lead h0
    omega

/-- **A reading in reach is stamped right.** -/
theorem stampsRight_iff (h : Sound d) (hT : d.now ≤ T)
    (hgap : d.readings ≠ 0 → T - d.lastArrival < 2 ^ 31) :
    d.StampsRight T ↔ InReach d.service.weight.timestampMs (Clock.reading 32 T) := by
  unfold StampsRight
  constructor
  · rintro ⟨hs, -⟩
    exact (stamps_iff _ _).1 hs
  · intro hreach
    refine ⟨(stamps_iff _ _).2 hreach, fun hw hshort => ?_⟩
    obtain ⟨hb, hle⟩ := h.began hw
    have hlead := since_stampAt_le h hT hgap hreach
    have hsince : Clock.since (Clock.reading 32 d.beginAt) (Clock.reading 32 T) = T - d.beginAt :=
      Clock.since_reading (le_trans hle hT) (by omega)
    -- the distances from the beginning to the arrival and on to the stamp add up
    have hadd := @Clock.since_add _ (Clock.reading 32 d.beginAt) (Clock.reading 32 T) (d.stampAt T)
      (by rw [hsince]; omega)
    rw [not_lt, hb, Clock.toInt_nonneg_iff (w := 31)]
    show Clock.since (Clock.reading 32 d.beginAt) (d.stampAt T) < 2 ^ 31
    omega

/-! ## Runs -/

/-- Emptying the reading, or leaving it alone, starts no stamp. -/
theorem sound_resetReadings {b : BleScaleService} (h : Sound d) (hT : d.now ≤ T)
    (hw : b.weight = {} ∨ b.weight = d.service.weight) :
    Sound ({ d with now := T }.resetReadings b) := by
  unfold resetReadings
  have hbegan : ∀ h' : d.recorder.current.inPumpWindow = true,
      d.recorder.current.beginMs = Clock.reading 32 d.beginAt ∧ d.beginAt ≤ T := fun h' =>
    ⟨(h.began h').1, le_trans (h.began h').2 hT⟩
  rcases hw with hw | hw
  · have h0 : b.weight.timestampMs = 0 := by rw [hw]
    rw [if_pos h0]
    exact ⟨⟨fun _ => h0, fun _ => rfl⟩, le_trans h.arrived hT, fun hn => absurd rfl hn, h.clean, hbegan⟩
  · by_cases h0 : b.weight.timestampMs = 0
    · rw [if_pos h0]
      exact ⟨⟨fun _ => h0, fun _ => rfl⟩, le_trans h.arrived hT, fun hn => absurd rfl hn, h.clean,
        hbegan⟩
    · rw [if_neg h0]
      refine ⟨?_, le_trans h.arrived hT, fun hn => ?_, h.clean, hbegan⟩
      · show d.readings = 0 ↔ b.weight.timestampMs = 0
        rw [hw]
        exact h.empty
      · show Clock.since (Clock.reading 32 d.lastArrival) b.weight.timestampMs ≤ 2 * d.readings
        rw [hw]
        exact h.lead hn

theorem weight_transition (b : BleScaleService) (next : ScaleState) :
    (b.transition next).weight = {} ∨ (b.transition next).weight = b.weight := by
  unfold BleScaleService.transition
  by_cases hs : b.state = next
  · rw [if_pos hs]
    exact Or.inr rfl
  · rw [if_neg hs]
    by_cases hr : b.state = .ready ∨ next = .off
    · exact Or.inl (if_pos hr)
    · exact Or.inr (if_neg hr)

/-- A call that leaves the record in flight to itself. -/
theorem sound_of_sameFlight {s : Recorder} (h : Sound d) (hT : d.now ≤ T)
    (hs : Recorder.SameFlight d.recorder s) : Sound { d with now := T, recorder := s } := by
  refine ⟨h.empty, le_trans h.arrived hT, h.lead, hs.clean h.clean, fun hw => ?_⟩
  rw [hs.inPumpWindow] at hw
  obtain ⟨hb, hle⟩ := h.began hw
  exact ⟨hs.beginMs.trans hb, le_trans hle hT⟩

/-- **Step lemma.** -/
theorem sound_step {c : ℕ × Occurrence} (h : Sound d) (ha : d.Admits c)
    (hreach : EveryReading (fun d T => InReach d.service.weight.timestampMs (Clock.reading 32 T)) d c) :
    Sound (d.step c) := by
  obtain ⟨T, c⟩ := c
  obtain ⟨hT, hgap⟩ := ha
  cases c with
  | transition next => exact sound_resetReadings h hT (weight_transition d.service next)
  | doHandshake => exact sound_resetReadings h hT (Or.inl rfl)
  | weight ev =>
    have hlead := since_stampAt_le h hT (hgap ev rfl) (hreach ev rfl)
    refine ⟨⟨fun h0 => ?_, fun h0 => ?_⟩, le_rfl, fun _ => hlead, h.clean, fun hw => ?_⟩
    · exact absurd h0 (Nat.succ_ne_zero _)
    · exact absurd h0 (ensureMonotonicTimestamp_ne_zero _ _)
    · obtain ⟨hb, hle⟩ := h.began hw
      exact ⟨hb, le_trans hle hT⟩
  | tick pumpSignal utcSec =>
    have hclean := Recorder.clean_update (d.tickInput T pumpSignal utcSec) h.clean
    refine ⟨h.empty, le_trans h.arrived hT, h.lead, hclean, fun hw => ?_⟩
    have hw' : (d.recorder.update (d.tickInput T pumpSignal utcSec)).current.inPumpWindow = true := hw
    show (d.recorder.update (d.tickInput T pumpSignal utcSec)).current.beginMs =
      Clock.reading 32 (if d.recorder.begins (d.tickInput T pumpSignal utcSec) then T else d.beginAt) ∧
      (if d.recorder.begins (d.tickInput T pumpSignal utcSec) then T else d.beginAt) ≤ T
    obtain ⟨hb, hnew⟩ | ⟨hb, hg⟩ := d.recorder.update_record (d.tickInput T pumpSignal utcSec) h.clean
    · rw [if_pos hb]
      exact ⟨hnew.beginMs, le_rfl⟩
    · rw [hb, if_neg (by decide)]
      obtain ⟨hbegin, hle⟩ := h.began (hg.window hw')
      exact ⟨hg.grows.beginMs.trans hbegin, le_trans hle hT⟩
  | clear =>
    refine ⟨h.empty, le_trans h.arrived hT, h.lead, Recorder.clean_clear h.clean, fun hw => ?_⟩
    have hw' : d.recorder.clear.current.inPumpWindow = true := hw
    rw [Extraction.inPumpWindow_iff, Recorder.clear_phase] at hw'
    exact absurd hw' (by decide)
  | setTargetSnapshot tc =>
    have hs := sound_of_sameFlight h hT (d.recorder.sameFlight_setTargetSnapshot tc)
    exact hs
  | triggerAlarm a =>
    have hs := sound_of_sameFlight h hT (d.recorder.sameFlight_triggerAlarm a)
    exact hs

/-- A run of the device from power-up. -/
def Runs (occurrences : List (ℕ × Occurrence)) : Prop := Along step Admits {} occurrences

/-- Every reading of the run is stamped right. -/
def StampsReadings (occurrences : List (ℕ × Occurrence)) : Prop :=
  Along step (EveryReading StampsRight) {} occurrences

/-- Every first reading of a session arrives in the lower half of the counter, and none at 0 that is
half a turn after the last stamp. -/
def ReadingsInReach (occurrences : List (ℕ × Occurrence)) : Prop :=
  Along step
    (EveryReading fun d T => InReach d.service.weight.timestampMs (Clock.reading 32 T)) {} occurrences

end Station

/-- **The service stamps its readings right** exactly on the runs whose readings arrive in reach of
the clamp. -/
theorem stampsReadings_iff (occurrences : List (ℕ × Occurrence)) (h : Station.Runs occurrences) :
    Station.StampsReadings occurrences ↔ Station.ReadingsInReach occurrences := by
  constructor
  · intro hs
    have hboth := h.and hs
    exact hboth.imp (fun _ => True) (fun d c _ hc => ⟨trivial, fun ev he =>
      (stamps_iff _ _).1 (hc.2 ev he).1⟩) trivial
  · intro hr
    have hboth := h.and hr
    refine hboth.imp Station.Sound (fun d c hd hc => ⟨Station.sound_step hd hc.1 hc.2, ?_⟩)
      Station.sound_init
    intro ev he
    exact (Station.stampsRight_iff hd hc.1.1 (hc.1.2 ev he)).2 (hc.2 ev he)

/-! ## A late session -/

/-- The scale connects as the uptime nears `2 ^ 31` milliseconds, a shot begins, and the first
reading arrives at `2 ^ 31`. -/
def lateSession : List (ℕ × Occurrence) :=
  [(2147483000, .transition .scanning), (2147483100, .transition .connecting),
   (2147483200, .doHandshake), (2147483300, .transition .ready),
   (2147483400, .tick { state := .on } 0), (2147483648, .weight { grams := some 0 })]

theorem runs_lateSession : Station.Runs lateSession := by
  unfold Station.Runs lateSession
  simp only [along_cons, along_nil, and_true]
  refine ⟨⟨by decide, ?_⟩, ⟨by decide, ?_⟩, ⟨by decide, ?_⟩, ⟨by decide, ?_⟩, ⟨by decide, ?_⟩,
    by decide, fun _ _ h => absurd rfl h⟩
  all_goals
    intro _ h
    cases h

theorem stampsReadings_iff_lateSession :
    Station.StampsReadings lateSession ↔ Station.ReadingsInReach lateSession :=
  stampsReadings_iff lateSession runs_lateSession

/-- The reading is stamped 1, and the recorder takes it for one from before the shot. -/
theorem not_stampsReadings_lateSession :
    Station.Runs lateSession ∧ ¬ Station.StampsReadings lateSession := by
  refine ⟨runs_lateSession, fun h => ?_⟩
  have hlast : Station.StampsRight (exec Station.step {} (lateSession.take 5)) 2147483648 :=
    (along_append.1 (show Along _ _ _ (lateSession.take 5 ++ lateSession.drop 5) from h)).2.1 { grams := some 0 } rfl
  exact hlast.2 (by decide +kernel) (by decide +kernel) (by decide +kernel)

end Pumpbug
