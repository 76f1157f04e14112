import Mathlib.Data.List.Chain
import Pumpbug.PourAgreement
import Pumpbug.PublishedRecord

/-!
# Invariants of the shot

What finalizing a record and encoding it rest on, at every point of a run: the stored samples are
counted and stamped within the shot, a reading that is delivered again is not taken again, and the
pump has not run for longer than the shot.
-/

namespace Pumpbug

open Lib

namespace Recorder

/-! ## Reading the scale -/

/-- `s` has the readings that `r` has. -/
structure SameReadings (r s : Recorder) : Prop where
  samples : s.current.samples = r.current.samples
  observed : s.current.observedSampleCount = r.current.observedSampleCount
  tracker : s.tracker = r.tracker
  seq : s.lastTrustedSeq = r.lastTrustedSeq
  trusted : s.lastTrustedSampleTMs = r.lastTrustedSampleTMs
  processed : s.lastScaleTimestampMs = r.lastScaleTimestampMs

theorem SameReadings.refl (r : Recorder) : SameReadings r r := ⟨rfl, rfl, rfl, rfl, rfl, rfl⟩

theorem SameReadings.trans {r s t : Recorder} (h : SameReadings r s) (h' : SameReadings s t) :
    SameReadings r t where
  samples := h'.samples.trans h.samples
  observed := h'.observed.trans h.observed
  tracker := h'.tracker.trans h.tracker
  seq := h'.seq.trans h.seq
  trusted := h'.trusted.trans h.trusted
  processed := h'.processed.trans h.processed

theorem SameReadings.lastTrustedYieldSample {r s : Recorder} (h : SameReadings r s) :
    s.lastTrustedYieldSample = r.lastTrustedYieldSample := by
  unfold Recorder.lastTrustedYieldSample endpointYieldCg
  rw [h.tracker, h.seq, h.trusted]

theorem SameReadings.currentYieldCg {r s : Recorder} (h : SameReadings r s)
    (hw : s.current.inPumpWindow = r.current.inPumpWindow) :
    s.currentYieldCg = r.currentYieldCg := by
  funext scale
  unfold Recorder.currentYieldCg endpointYieldCg
  rw [h.tracker, hw]

/-- The tick processes a reading. -/
def processes (r : Recorder) (i : Input) : Bool :=
  r.current.inPumpWindow && (r.newRawSample i.scale).isSome

/-- The tick's reading was stamped before the shot. -/
def stampedBefore (r : Recorder) (i : Input) : Prop :=
  (i.scale.timestampMs - r.current.beginMs).toInt < 0

instance (r : Recorder) (i : Input) : Decidable (r.stampedBefore i) :=
  inferInstanceAs (Decidable (_ < _))

section

variable {r : Recorder} {i : Input}

theorem recordLiveTick_of_none {scale : ScaleSnapshot} (h : r.newRawSample scale = none)
    (nowMs : U32) :
    r.recordLiveTick scale nowMs = { r with current := r.noteScalePresence scale nowMs } := by
  have hsame : { r with current := r.noteScalePresence scale nowMs }.newRawSample scale = none := h
  unfold recordLiveTick
  dsimp only
  rw [hsame]

theorem sense_idles (h : r.processes i = false) : SameReadings r (r.sense i) := by
  unfold processes at h
  by_cases hw : r.current.inPumpWindow = true
  · rw [hw, Bool.true_and, Option.isSome_eq_false_iff, Option.isNone_iff_eq_none] at h
    unfold sense
    rw [if_pos hw, recordLiveTick_of_none h]
    exact ⟨noteScalePresence_samples _ _ _, (r.noteScalePresence_start _ _).2, rfl, rfl, rfl, rfl⟩
  · unfold sense
    rw [if_neg hw]
    exact ⟨rfl, rfl, rfl, rfl, rfl, rfl⟩

/-- What a processed reading adds: nothing if it was stamped before the shot, else a sample. -/
theorem sense_processes (h : r.processes i = true) :
    i.scale.timestampMs ≠ r.lastScaleTimestampMs ∧
    (r.sense i).lastScaleTimestampMs = i.scale.timestampMs ∧
    ((r.stampedBefore i ∧ (r.sense i).current.samples = r.current.samples ∧
        (r.sense i).current.observedSampleCount = r.current.observedSampleCount) ∨
      ¬ r.stampedBefore i ∧
      (∃ sample : Sample, sample.tMs = i.scale.timestampMs ∧
        (r.sense i).current.samples = r.current.samples.push sample) ∧
      (r.sense i).current.observedSampleCount =
        if r.current.observedSampleCount < 0xFFFF then r.current.observedSampleCount + 1
        else r.current.observedSampleCount) := by
  unfold processes at h
  rw [Bool.and_eq_true, Option.isSome_iff_exists] at h
  obtain ⟨hw, rawCg, hnew⟩ := h
  have hfresh : i.scale.timestampMs ≠ r.lastScaleTimestampMs := by
    intro hagain
    unfold newRawSample at hnew
    rw [if_neg fun hc => hc.2.2 hagain] at hnew
    exact absurd hnew.symm (Option.some_ne_none _)
  have hb : (r.noteScalePresence i.scale i.nowMs).beginMs = r.current.beginMs :=
    field_eq_of_header _ (fun _ => rfl) (r.header_noteScalePresence i.scale i.nowMs)
  have hsame : { r with current := r.noteScalePresence i.scale i.nowMs }.newRawSample i.scale =
      some rawCg := hnew
  have hobs := (r.noteScalePresence_start i.scale i.nowMs).2
  refine ⟨hfresh, ?_⟩
  unfold sense recordLiveTick stampedBefore
  rw [if_pos hw]
  dsimp only
  rw [hsame]
  dsimp only
  rw [hb]
  by_cases hbefore : (i.scale.timestampMs - r.current.beginMs).toInt < 0
  · rw [if_pos hbefore]
    exact ⟨rfl, .inl ⟨hbefore, noteScalePresence_samples _ _ _, hobs⟩⟩
  · rw [if_neg hbefore]
    refine ⟨rfl, .inr ⟨hbefore,
      ⟨{ tMs := i.scale.timestampMs, cg := rawCg, scaleTimerMs := i.scale.scaleTimerMs }, rfl, ?_⟩,
      ?_⟩⟩
    · rw [acceptSample_samples, noteScalePresence_samples]
    · rw [acceptSample_observed, hobs]

/-- A tick that begins no shot adds no more than the scale's reading. -/
theorem sameReadings_update (hb : r.begins i = false) : SameReadings (r.sense i) (r.update i) := by
  obtain heq | ⟨hp, heq⟩ | ⟨hp, heq⟩ | ⟨hp, cause, heq⟩ := update_continues hb
  · rw [heq]
    exact SameReadings.refl _
  · have hsame := (r.sense i).sameSamples_enterPostPump i.nowMs i.pumpSignal
    rw [heq]
    exact ⟨hsame.stored, hsame.observed, rfl, rfl, rfl, rfl⟩
  · have hidle : (r.sense i).current.phase ≠ .idle := by
      rw [sense_phase, hp]
      decide
    have hsame := sameSamples_resume hidle i.nowMs 0
    rw [heq]
    exact ⟨hsame.stored, hsame.observed, rfl, rfl, rfl, rfl⟩
  · rw [heq]
    exact ⟨finished_samples _ _ _, finished_observed _ _ _, rfl, rfl, rfl, rfl⟩

/-- A tick that begins a shot passes over what the scale reads. -/
theorem sameSamples_begins (h : r.begins i = true) :
    r.current.phase = .idle ∧ SameSamples r (r.update i) ∨
    ∃ s : Recorder, SameSamples s.enterIdle (r.update i) := by
  obtain ⟨hp, heq⟩ | ⟨s, heq⟩ := update_of_begins h
  · left
    have hw : ¬ r.current.inPumpWindow = true := by
      rw [Extraction.inPumpWindow_iff, hp]
      decide
    have hsame := sameSamples_begin (r := r.sense i) (by rw [sense_phase, hp]) i.nowMs i.utcSec
    have hsense : SameSamples r (r.sense i) := by
      unfold sense
      rw [if_neg hw]
      exact ⟨rfl, rfl, rfl, rfl⟩
    rw [heq]
    exact ⟨hp, hsense.trans hsame⟩
  · right
    refine ⟨s, ?_⟩
    rw [heq]
    exact sameSamples_begin rfl i.nowMs i.utcSec

theorem update_beginMs (hb : r.begins i = false) :
    (r.update i).current.beginMs = r.current.beginMs := by
  obtain heq | ⟨-, heq⟩ | ⟨hp, heq⟩ | ⟨-, cause, heq⟩ := update_continues hb
  · rw [heq, sense_beginMs]
  · rw [heq, (growsTo_enterPostPump _ _ _).beginMs, sense_beginMs]
  · have hidle : (r.sense i).current.phase ≠ .idle := by
      rw [sense_phase, hp]
      decide
    rw [heq, (growsTo_resume hidle _ _).beginMs, sense_beginMs]
  · rw [heq, (growsTo_enterDone _ _ _).beginMs, sense_beginMs]

end

/-! ## Counted and stamped -/

/-- The stored samples are counted, and stamped within the shot. -/
structure Sampled (r : Recorder) : Prop where
  clean : r.Clean
  count : r.current.samples.count = min r.current.observedSampleCount.toNat MAX_SAMPLES
  stamped : ∀ sample ∈ r.current.samples.items, 0 ≤ (sample.tMs - r.current.beginMs).toInt

theorem Sampled.of_same {r s : Recorder} (h : Sampled r) (hf : SameFlight r s)
    (ho : s.current.observedSampleCount = r.current.observedSampleCount) : Sampled s where
  clean := hf.clean h.clean
  count := by rw [hf.samples, ho, h.count]
  stamped := by
    rw [hf.samples, hf.beginMs]
    exact h.stamped

theorem sampled_enterIdle (r : Recorder) : Sampled r.enterIdle :=
  ⟨fun _ => rfl, rfl, fun _ h => absurd h List.not_mem_nil⟩

theorem sampled_sense {r : Recorder} (h : Sampled r) (i : Input) : Sampled (r.sense i) := by
  have hf : (r.sense i).current.samples = r.current.samples → SameFlight r (r.sense i) :=
    fun hs => ⟨sense_phase r i, sense_beginMs r i, hs⟩
  by_cases hproc : r.processes i = true
  · obtain ⟨-, -, ⟨-, hs, ho⟩ | ⟨hbefore, ⟨sample, hts, hs⟩, ho⟩⟩ := sense_processes hproc
    · exact h.of_same (hf hs) ho
    · have hw : r.current.inPumpWindow = true := (Bool.and_eq_true _ _ ▸ hproc).1
      have hcount := h.count
      refine ⟨fun hidle => ?_, ?_, ?_⟩
      · rw [sense_phase] at hidle
        rw [Extraction.inPumpWindow_iff, hidle] at hw
        exact absurd hw (by decide)
      · rw [hs, ho]
        rw [Buffer.count_push, hcount]
        unfold MAX_SAMPLES
        by_cases hsat : r.current.observedSampleCount < 0xFFFF
        · rw [if_pos hsat]
          bv_omega
        · rw [if_neg hsat]
          bv_omega
      · rw [hs, sense_beginMs]
        intro other hmem
        rcases Buffer.mem_push hmem with hmem | rfl
        · exact h.stamped other hmem
        · rw [hts]
          exact not_lt.1 hbefore
  · have hsame := sense_idles (Bool.eq_false_iff.2 hproc)
    exact h.of_same (hf hsame.samples) hsame.observed

theorem sampled_update {r : Recorder} (h : Sampled r) (i : Input) : Sampled (r.update i) := by
  by_cases hb : r.begins i = true
  · have hempty : (r.update i).current.samples.items = [] ∧
        (r.update i).current.observedSampleCount = 0 := by
      obtain ⟨hp, hsame⟩ | ⟨s, hsame⟩ := sameSamples_begins hb
      · have hitems := h.clean hp
        have hcount := h.count
        rw [hsame.stored, hsame.observed]
        unfold Buffer.count MAX_SAMPLES at hcount
        rw [hitems, List.length_nil] at hcount
        exact ⟨hitems, by bv_omega⟩
      · rw [hsame.stored, hsame.observed]
        exact ⟨rfl, rfl⟩
    refine ⟨clean_update i h.clean, ?_, ?_⟩
    · unfold Buffer.count
      rw [hempty.1, hempty.2]
      rfl
    · rw [hempty.1]
      exact fun _ hmem => absurd hmem List.not_mem_nil
  · have hb' : r.begins i = false := Bool.eq_false_iff.2 hb
    have hsense := sampled_sense h i
    have hsame := sameReadings_update hb'
    refine ⟨clean_update i h.clean, ?_, ?_⟩
    · rw [hsame.samples, hsame.observed]
      exact hsense.count
    · rw [hsame.samples, update_beginMs hb', ← sense_beginMs r i]
      exact hsense.stamped

theorem sameReadings_setTargetSnapshot (r : Recorder) (tc : TargetCoeffs) :
    SameReadings r (r.setTargetSnapshot tc) := by
  obtain heq | heq := r.setTargetSnapshot_cases tc
  · rw [heq]
    exact ⟨rfl, rfl, rfl, rfl, rfl, rfl⟩
  · rw [heq]
    exact SameReadings.refl r

theorem sameReadings_triggerAlarm (r : Recorder) (a : AlarmTrigger) :
    SameReadings r (r.triggerAlarm a) := by
  have hsame := r.sameSamples_triggerAlarm a
  refine ⟨hsame.stored, hsame.observed, hsame.tracker, ?_, ?_, ?_⟩
  all_goals
    obtain ⟨-, heq⟩ | heq := r.triggerAlarm_cases a
    · rw [heq]
    · rw [heq]

/-- **Step lemma.** -/
theorem sampled_call {r : Recorder} (h : Sampled r) (c : Call) : Sampled (r.call c) := by
  cases c with
  | update i => exact sampled_update h i
  | clear =>
    show Sampled r.clear
    rw [clear_eq]
    by_cases hi : r.current.phase = .idle
    · rw [if_pos hi]
      exact h
    · rw [if_neg hi]
      exact sampled_enterIdle r
  | setTargetSnapshot tc =>
    exact h.of_same (r.sameFlight_setTargetSnapshot tc)
      (r.sameReadings_setTargetSnapshot tc).observed
  | triggerAlarm a =>
    exact h.of_same (r.sameFlight_triggerAlarm a) (r.sameReadings_triggerAlarm a).observed

/-! ## Different stamps -/

/-- Consecutive samples have different stamps, and as long as the buffer has room, the last one has
that of the last processed reading. -/
structure Distinct (r : Recorder) : Prop where
  chain : r.current.samples.items.IsChain fun s s' => s.tMs ≠ s'.tMs
  last : r.current.samples.count < MAX_SAMPLES →
    ∀ sample ∈ r.current.samples.items.getLast?, sample.tMs = r.lastScaleTimestampMs

theorem Distinct.of_same {r s : Recorder} (h : Distinct r) (hs : SameReadings r s) : Distinct s := by
  constructor
  · rw [hs.samples]
    exact h.chain
  · rw [hs.samples, hs.processed]
    exact h.last

theorem distinct_of_empty {r : Recorder} (h : r.current.samples.items = []) : Distinct r := by
  constructor
  · rw [h]
    exact List.IsChain.nil
  · rw [h]
    exact fun _ _ hmem => absurd hmem (Option.not_mem_none _)

/-- The tick processes a reading from before the shot although the shot has a sample. -/
def backdates (r : Recorder) (i : Input) : Bool :=
  r.processes i && decide (r.stampedBefore i) && decide (r.current.samples.items ≠ [])

theorem distinct_sense {r : Recorder} {i : Input} (h : Distinct r) (hdate : r.backdates i = false) :
    Distinct (r.sense i) := by
  by_cases hproc : r.processes i = true
  · obtain ⟨hfresh, hkey, ⟨hbefore, hs, -⟩ | ⟨-, ⟨sample, hts, hs⟩, -⟩⟩ := sense_processes hproc
    · by_cases hitems : r.current.samples.items = []
      · exact distinct_of_empty (hs ▸ hitems)
      · unfold backdates at hdate
        simp [hproc, hbefore, hitems] at hdate
    · by_cases hroom : r.current.samples.count < MAX_SAMPLES
      · have hitems := Buffer.items_push_of_lt hroom sample
        constructor
        · rw [hs, hitems, List.isChain_append]
          refine ⟨h.chain, List.isChain_singleton _, fun s hs s' hs' => ?_⟩
          obtain rfl : sample = s' := by simpa using hs'
          rw [h.last hroom s hs, hts]
          exact hfresh.symm
        · rw [hs, hitems, hkey]
          intro _ s hlast
          obtain rfl : sample = s := by simpa using hlast
          exact hts
      · rw [Buffer.push_of_full hroom] at hs
        constructor
        · rw [hs]
          exact h.chain
        · rw [hs]
          exact fun hc => absurd hc hroom
  · exact h.of_same (sense_idles (Bool.eq_false_iff.2 hproc))

theorem distinct_update {r : Recorder} {i : Input} (hclean : r.Clean)
    (h : r.begins i = false → Distinct r ∧ r.backdates i = false) : Distinct (r.update i) := by
  by_cases hb : r.begins i = true
  · apply distinct_of_empty
    obtain ⟨hp, hsame⟩ | ⟨s, hsame⟩ := sameSamples_begins hb
    · rw [hsame.stored]
      exact hclean hp
    · rw [hsame.stored]
      rfl
  · have hb' : r.begins i = false := Bool.eq_false_iff.2 hb
    obtain ⟨hr, hdate⟩ := h hb'
    exact (distinct_sense hr hdate).of_same (sameReadings_update hb')

theorem distinct_clear {r : Recorder} (h : r.Clean) : Distinct r.clear := by
  apply distinct_of_empty
  exact clean_clear h (clear_phase r)

/-! ## The same reading again -/

/-- A tick without a reading. -/
def Input.silent (i : Input) : Input := { i with scale := { i.scale with timestampMs := 0 } }

/-- The calls go on with the shot, and their ticks deliver the reading stamped `tMs`. -/
def Redelivers (tMs : U32) (r : Recorder) (calls : List Call) : Prop :=
  Along Recorder.call (fun r c => c ≠ .clear ∧
    ∀ i, c = .update i → i.scale.timestampMs = tMs ∧ r.begins i = false) r calls

section

variable {r : Recorder} {i : Input}

theorem processes_again (h : i.scale.timestampMs = r.lastScaleTimestampMs) :
    r.processes i = false := by
  unfold processes newRawSample
  rw [if_neg fun hnew => hnew.2.2 h]
  exact Bool.and_false _

/-- **A reading that is delivered again counts for nothing.** -/
theorem update_silent (h : i.scale.timestampMs = r.lastScaleTimestampMs) :
    r.update i = r.update i.silent := by
  have hagain : r.newRawSample i.scale = none := if_neg fun hnew => hnew.2.2 h
  have hnone : r.newRawSample i.silent.scale = none := if_neg fun hnew => hnew.2.1 rfl
  have hsense : r.sense i = r.sense i.silent := by
    unfold sense
    rw [recordLiveTick_of_none hagain, recordLiveTick_of_none hnone]
    rfl
  unfold update
  rw [hsense]
  rfl

/-- **Run lemma.** However often a reading is delivered again, it is not taken again. -/
theorem sameReadings_exec {calls : List Call} (h : Redelivers r.lastScaleTimestampMs r calls) :
    SameReadings r (exec Recorder.call r calls) := by
  refine Along.exec_invariant (SameReadings r) (fun s c hs hc => ?_) h (SameReadings.refl r)
  obtain ⟨hclear, htick⟩ := hc
  refine hs.trans ?_
  cases c with
  | update i =>
    obtain ⟨hts, hb⟩ := htick i rfl
    exact (sense_idles (processes_again (hts.trans hs.processed.symm))).trans
      (sameReadings_update hb)
  | clear => exact absurd rfl hclear
  | setTargetSnapshot tc => exact s.sameReadings_setTargetSnapshot tc
  | triggerAlarm a => exact s.sameReadings_triggerAlarm a

end

/-! ## The pump's time -/

/-- The shot that began at `beginAt`, at the time `now`: its pump has run for no longer than it
lasts, and a pump that runs has not run before its interval began for longer than until then. -/
structure PumpTime (r : Recorder) (now beginAt : ℕ) : Prop where
  beginMs : r.current.beginMs = Clock.reading 32 beginAt
  le : beginAt ≤ now
  total : r.current.totalPumpOnMs.toNat ≤ now - beginAt
  interval : r.current.phase = .running → ∃ start, r.pumpOnIntervalStartMs = Clock.reading 32 start ∧
    start ≤ now ∧ beginAt + r.current.totalPumpOnMs.toNat ≤ start

section

variable {r : Recorder} {now beginAt T : ℕ}

theorem pumpTime_begin (hp : r.current.phase = .idle) (h : r.current.totalPumpOnMs = 0)
    (utcSec : U32) : PumpTime (r.enterRunning (Clock.reading 32 T) utcSec) T T := by
  have hheader := begin_header hp (Clock.reading 32 T) utcSec
  have hb : (r.enterRunning (Clock.reading 32 T) utcSec).current.beginMs = Clock.reading 32 T :=
    (field_of_header Extraction.beginMs (fun _ => rfl) hheader).trans rfl
  have ht : (r.enterRunning (Clock.reading 32 T) utcSec).current.totalPumpOnMs = 0 :=
    (field_of_header Extraction.totalPumpOnMs (fun _ => rfl) hheader).trans h
  refine ⟨hb, le_rfl, ?_, fun _ => ⟨T, rfl, le_rfl, ?_⟩⟩
  · rw [ht]
    exact Nat.zero_le _
  · rw [ht]
    exact le_rfl

theorem pumpTime_sense (h : PumpTime r now beginAt) (hT : now ≤ T) (i : Input) :
    PumpTime (r.sense i) T beginAt := by
  have hle := h.le
  have htotal := h.total
  refine ⟨?_, hle.trans hT, ?_, fun hp => ?_⟩
  · rw [sense_beginMs]
    exact h.beginMs
  · rw [sense_totalPumpOnMs]
    omega
  · rw [sense_phase] at hp
    obtain ⟨start, hstart, hnow, hbefore⟩ := h.interval hp
    rw [sense_pumpOnIntervalStartMs, sense_totalPumpOnMs]
    exact ⟨start, hstart, hnow.trans hT, hbefore⟩

theorem pumpTime_enterPostPump (h : PumpTime r now beginAt) (hp : r.current.phase = .running)
    (o : PumpSignalObservation) :
    PumpTime (r.enterPostPump (Clock.reading 32 now) o) now beginAt := by
  obtain ⟨start, hstart, hnow, hbefore⟩ := h.interval hp
  have hheader := r.enterPostPump_header (Clock.reading 32 now) o
  have hb : (r.enterPostPump (Clock.reading 32 now) o).current.beginMs = r.current.beginMs :=
    (field_of_header Extraction.beginMs (fun _ => rfl) hheader).trans rfl
  have ht : (r.enterPostPump (Clock.reading 32 now) o).current.totalPumpOnMs =
      r.current.totalPumpOnMs + (Clock.reading 32 now - r.pumpOnIntervalStartMs) :=
    (field_of_header Extraction.totalPumpOnMs (fun _ => rfl) hheader).trans rfl
  refine ⟨hb.trans h.beginMs, h.le, ?_, fun hrun => absurd hrun (by simp)⟩
  have hinterval : (Clock.reading 32 now - Clock.reading 32 start).toNat ≤ now - start := by
    rw [Clock.reading_sub hnow]
    unfold Clock.reading
    rw [BitVec.toNat_ofNat]
    exact Nat.mod_le _ _
  have hsum : (r.current.totalPumpOnMs + (Clock.reading 32 now - Clock.reading 32 start)).toNat ≤
      r.current.totalPumpOnMs.toNat + (Clock.reading 32 now - Clock.reading 32 start).toNat := by
    rw [BitVec.toNat_add]
    exact Nat.mod_le _ _
  rw [ht, hstart]
  omega

theorem pumpTime_resume (h : PumpTime r now beginAt) (hp : r.current.phase ≠ .idle) (utcSec : U32) :
    PumpTime (r.enterRunning (Clock.reading 32 now) utcSec) now beginAt := by
  have hheader := resume_header hp (Clock.reading 32 now) utcSec
  have hb : (r.enterRunning (Clock.reading 32 now) utcSec).current.beginMs = r.current.beginMs :=
    (field_of_header Extraction.beginMs (fun _ => rfl) hheader).trans rfl
  have ht : (r.enterRunning (Clock.reading 32 now) utcSec).current.totalPumpOnMs =
      r.current.totalPumpOnMs :=
    (field_of_header Extraction.totalPumpOnMs (fun _ => rfl) hheader).trans rfl
  have hle := h.le
  have htotal := h.total
  refine ⟨hb.trans h.beginMs, hle, ?_, fun _ => ⟨now, rfl, le_rfl, ?_⟩⟩
  · rw [ht]
    exact htotal
  · rw [ht]
    omega

theorem finished_totalPumpOnMs (r : Recorder) (nowMs : U32) (cause : EndCause) :
    (r.finished nowMs cause).totalPumpOnMs = r.current.totalPumpOnMs := by
  rw [finished_field Extraction.totalPumpOnMs fun _ _ _ _ _ => rfl,
    settleYield_field Extraction.totalPumpOnMs fun _ => rfl]
  exact marked_field Extraction.totalPumpOnMs (fun _ _ _ => rfl) r nowMs cause

theorem pumpTime_enterDone (h : PumpTime r now beginAt) (nowMs : U32) (cause : EndCause) :
    PumpTime (r.enterDone nowMs cause) now beginAt := by
  refine ⟨(r.finished_beginMs nowMs cause).trans h.beginMs, h.le, ?_, fun hp => ?_⟩
  · show (r.finished nowMs cause).totalPumpOnMs.toNat ≤ now - beginAt
    rw [finished_totalPumpOnMs]
    exact h.total
  · rw [enterDone_phase] at hp
    exact absurd hp (by decide)

end

end Recorder

/-- An idle recorder has no pump time, any other that of its shot. -/
structure SoundPumpTime (s : Timed) : Prop where
  idle : s.recorder.current.phase = .idle → s.recorder.current.totalPumpOnMs = 0
  shot : s.recorder.current.phase ≠ .idle → s.recorder.PumpTime s.now s.beginAt

/-- A tick comes no earlier than the last one and carries the counter's reading. -/
def Timed.InOrder (s : Timed) (c : ℕ × Call) : Prop :=
  ∀ i, c.2 = .update i → s.now ≤ c.1 ∧ i.nowMs = Clock.reading 32 c.1

theorem soundPumpTime_of_shot {s : Timed} (hp : s.recorder.current.phase ≠ .idle)
    (h : s.recorder.PumpTime s.now s.beginAt) : SoundPumpTime s :=
  ⟨fun hi => absurd hi hp, fun _ => h⟩

theorem soundPumpTime_update {s : Timed} {T : ℕ} {i : Recorder.Input} (h : SoundPumpTime s)
    (hT : s.now ≤ T) (hi : i.nowMs = Clock.reading 32 T) :
    SoundPumpTime (s.step (T, .update i)) := by
  have hphase := s.recorder.sense_phase i
  show SoundPumpTime ⟨s.recorder.update i, T, if s.recorder.begins i then T else s.beginAt⟩
  by_cases hb : s.recorder.begins i = true
  · have hbegun : (s.recorder.update i).PumpTime T T ∧
        (s.recorder.update i).current.phase ≠ .idle := by
      obtain ⟨hp, heq⟩ | ⟨r, heq⟩ := Recorder.update_of_begins hb
      · rw [heq, hi]
        refine ⟨Recorder.pumpTime_begin (hphase.trans hp) ?_ i.utcSec, by simp⟩
        rw [Recorder.sense_totalPumpOnMs]
        exact h.idle hp
      · rw [heq, hi]
        exact ⟨Recorder.pumpTime_begin rfl rfl i.utcSec, by simp⟩
    rw [if_pos hb]
    exact soundPumpTime_of_shot hbegun.2 hbegun.1
  · rw [if_neg hb]
    have hsense (hp : s.recorder.current.phase ≠ .idle) :
        (s.recorder.sense i).PumpTime T s.beginAt :=
      Recorder.pumpTime_sense (h.shot hp) hT i
    obtain heq | ⟨hp, heq⟩ | ⟨hp, heq⟩ | ⟨hp, cause, heq⟩ :=
      Recorder.update_continues (Bool.eq_false_iff.2 hb)
    · rw [heq]
      refine ⟨fun hidle => ?_, fun hne => hsense fun hidle => hne (hphase.trans hidle)⟩
      show (s.recorder.sense i).current.totalPumpOnMs = 0
      rw [Recorder.sense_totalPumpOnMs]
      exact h.idle (hphase.symm.trans hidle)
    · rw [heq, hi]
      exact soundPumpTime_of_shot (by simp) (Recorder.pumpTime_enterPostPump
        (hsense (by rw [hp]; decide)) (hphase.trans hp) i.pumpSignal)
    · rw [heq, hi]
      exact soundPumpTime_of_shot (by simp) (Recorder.pumpTime_resume
        (hsense (by rw [hp]; decide)) (by rw [hphase, hp]; decide) 0)
    · rw [heq]
      exact soundPumpTime_of_shot (by simp) (Recorder.pumpTime_enterDone
        (hsense (by rw [hp]; decide)) i.nowMs cause)

theorem soundPumpTime_of_same {s : Timed} {r : Recorder} (h : SoundPumpTime s)
    (he : Recorder.SameEdge s.recorder r) (hf : Recorder.SameFlight s.recorder r) :
    SoundPumpTime { s with recorder := r } := by
  refine ⟨fun hi => he.totalPumpOnMs.trans (h.idle (he.phase.symm.trans hi)), fun hp => ?_⟩
  obtain ⟨hb, hle, htotal, hinterval⟩ := h.shot fun hi => hp (he.phase.trans hi)
  refine ⟨hf.beginMs.trans hb, hle, ?_, fun hrun => ?_⟩
  · rw [he.totalPumpOnMs]
    exact htotal
  · rw [he.pumpOnIntervalStartMs, he.totalPumpOnMs]
    exact hinterval (he.phase.symm.trans hrun)

/-- **Step lemma.** -/
theorem soundPumpTime_step {s : Timed} {c : ℕ × Call} (h : SoundPumpTime s) (hc : s.InOrder c) :
    SoundPumpTime (s.step c) := by
  obtain ⟨T, c⟩ := c
  cases c with
  | update i =>
    obtain ⟨hT, hi⟩ := hc i rfl
    exact soundPumpTime_update h hT hi
  | clear =>
    show SoundPumpTime { s with recorder := s.recorder.clear }
    rw [Recorder.clear_eq]
    by_cases hi : s.recorder.current.phase = .idle
    · rw [if_pos hi]
      exact h
    · rw [if_neg hi]
      exact ⟨fun _ => rfl, fun hp => absurd rfl hp⟩
  | setTargetSnapshot tc =>
    exact soundPumpTime_of_same h (s.recorder.sameEdge_setTargetSnapshot tc)
      (s.recorder.sameFlight_setTargetSnapshot tc)
  | triggerAlarm a =>
    exact soundPumpTime_of_same h (s.recorder.sameEdge_triggerAlarm a)
      (s.recorder.sameFlight_triggerAlarm a)

/-! ## Whole runs -/

/-- A run whose ticks come in order. -/
def TicksInOrder (calls : List (ℕ × Call)) : Prop := Along Timed.step Timed.InOrder {} calls

/-- A run, with whether the last shot begun has processed a reading from before it after its first
sample. -/
def noteBackdated (x : Recorder × Bool) (c : Call) : Recorder × Bool :=
  (x.1.call c,
    match c with
    | .update i => !x.1.begins i && (x.2 || x.1.backdates i)
    | .clear => false
    | .setTargetSnapshot _ => x.2
    | .triggerAlarm _ => x.2)

/-- The last shot begun has processed a reading from before it after its first sample. -/
def Backdated (calls : List Call) : Prop := (exec noteBackdated ({}, false) calls).2 = true

instance (calls : List Call) : Decidable (Backdated calls) :=
  inferInstanceAs (Decidable (_ = true))

theorem exec_noteBackdated (x : Recorder × Bool) (calls : List Call) :
    (exec noteBackdated x calls).1 = exec Recorder.call x.1 calls := by
  induction calls generalizing x with
  | nil => rfl
  | cons c calls ih => exact ih (noteBackdated x c)

theorem sampled_exec (calls : List Call) : (exec Recorder.call {} calls).Sampled := by
  induction calls using List.reverseRecOn with
  | nil => exact ⟨fun _ => rfl, rfl, fun _ h => absurd h List.not_mem_nil⟩
  | append_singleton calls c ih =>
    rw [exec_append]
    exact Recorder.sampled_call ih c

/-- **Step lemma.** -/
theorem distinct_noteBackdated {x : Recorder × Bool} (c : Call) (hclean : x.1.Clean)
    (hx : x.2 = false → x.1.Distinct) (h : (noteBackdated x c).2 = false) :
    (noteBackdated x c).1.Distinct := by
  cases c with
  | update i =>
    refine Recorder.distinct_update hclean fun hb => ?_
    have hnot : (!x.1.begins i && (x.2 || x.1.backdates i)) = false := h
    rw [hb, Bool.not_false, Bool.true_and, Bool.or_eq_false_iff] at hnot
    exact ⟨hx hnot.1, hnot.2⟩
  | clear => exact Recorder.distinct_clear hclean
  | setTargetSnapshot tc => exact (hx h).of_same (x.1.sameReadings_setTargetSnapshot tc)
  | triggerAlarm a => exact (hx h).of_same (x.1.sameReadings_triggerAlarm a)

/-- **Run lemma.** Consecutive samples of a shot without backdated readings have different
stamps. -/
theorem distinct_exec {calls : List Call} (h : ¬ Backdated calls) :
    (exec Recorder.call {} calls).Distinct := by
  have hstart : (exec noteBackdated ({}, false) calls).1 = exec Recorder.call {} calls :=
    exec_noteBackdated _ calls
  have hnot : (exec noteBackdated ({}, false) calls).2 = false := Bool.eq_false_iff.2 h
  rw [← hstart]
  revert hnot
  clear hstart h
  induction calls using List.reverseRecOn with
  | nil => exact fun _ => Recorder.distinct_of_empty rfl
  | append_singleton calls c ih =>
    rw [exec_append, exec_cons, exec_nil]
    apply distinct_noteBackdated c _ ih
    rw [exec_noteBackdated]
    exact (sampled_exec calls).clean

/-- **What a shot rests on**, at every point of a run whose ticks come in order: the stored samples
are the observed ones as far as the buffer goes, stamped at or after the beginning, and no two in a
row alike unless the shot was given a reading from before it after its first sample; the pump has
run for no longer than the shot; and a reading that the shot has processed is not taken again,
however often it is delivered on. -/
theorem shot_invariants (calls : List (ℕ × Call)) (h : TicksInOrder calls) :
    let s := exec Timed.step {} calls
    let r := s.recorder
    r.current.phase ≠ .idle →
      r.current.samples.count = min r.current.observedSampleCount.toNat MAX_SAMPLES ∧
      (∀ sample ∈ r.current.samples.items, 0 ≤ (sample.tMs - r.current.beginMs).toInt) ∧
      (¬ Backdated (calls.map Prod.snd) →
        r.current.samples.items.IsChain fun sample next => sample.tMs ≠ next.tMs) ∧
      (r.current.beginMs = Clock.reading 32 s.beginAt ∧ s.beginAt ≤ s.now ∧
        r.current.totalPumpOnMs.toNat ≤ s.now - s.beginAt) ∧
      ∀ i again, r.processes i = true → r.begins i = false →
        Recorder.Redelivers i.scale.timestampMs (r.update i) again →
        let r' := exec Recorder.call (r.update i) again
        Recorder.SameReadings (r.update i) r' ∧
        r'.lastTrustedYieldSample = (r.update i).lastTrustedYieldSample ∧
        (r'.current.inPumpWindow = (r.update i).current.inPumpWindow →
          r'.currentYieldCg = (r.update i).currentYieldCg) ∧
        ∀ j : Recorder.Input, j.scale.timestampMs = i.scale.timestampMs →
          r'.update j = r'.update j.silent := by
  intro s r hp
  have hr : r = exec Recorder.call {} (calls.map Prod.snd) := Timed.exec_recorder {} calls
  have hsampled : r.Sampled := hr ▸ sampled_exec _
  have htime : SoundPumpTime s :=
    Along.exec_invariant SoundPumpTime (fun _ _ hs hc => soundPumpTime_step hs hc) h
      ⟨fun _ => rfl, fun hne => absurd rfl hne⟩
  obtain ⟨hbegin, hle, htotal, -⟩ := htime.shot hp
  refine ⟨hsampled.count, hsampled.stamped, fun hdate => ?_, ⟨hbegin, hle, htotal⟩, ?_⟩
  · rw [hr]
    exact (distinct_exec hdate).chain
  · intro i again hproc hb hagain r'
    have hkey : (r.update i).lastScaleTimestampMs = i.scale.timestampMs :=
      (Recorder.sameReadings_update hb).processed.trans (Recorder.sense_processes hproc).2.1
    have hsame : Recorder.SameReadings (r.update i) r' := Recorder.sameReadings_exec (hkey ▸ hagain)
    refine ⟨hsame, hsame.lastTrustedYieldSample, hsame.currentYieldCg, fun j hj => ?_⟩
    exact Recorder.update_silent (hj.trans (hkey.symm.trans hsame.processed.symm))

theorem inOrder_tickAt {s : Timed} {T : ℕ} (h : s.now ≤ T) (state : PumpSignalState)
    (scale : ScaleSnapshot) : s.InOrder (tickAt T state scale) := by
  rintro i hi
  obtain rfl := Call.update.inj hi
  exact ⟨h, rfl⟩

/-- A shot that a reading from before it reaches between two deliveries of another one. -/
def backdatedShot : List (ℕ × Call) :=
  [tickAt 1000 .on {},
   tickAt 1100 .on { present := true, timestampMs := 1100 },
   tickAt 1200 .on { present := true, timestampMs := 900 },
   tickAt 1300 .on { present := true, timestampMs := 1100 }]

/-- A shot that ends with the pump's return, at the tick of a reading. -/
def splitShot : List (ℕ × Call) :=
  [tickAt 1000 .on {},
   tickAt 2000 .off {},
   tickAt 8000 .on { present := true, timestampMs := 8000 }]

theorem ticksInOrder_backdatedShot : TicksInOrder backdatedShot :=
  ⟨inOrder_tickAt (by decide) _ _, inOrder_tickAt (by decide) _ _, inOrder_tickAt (by decide) _ _,
    inOrder_tickAt (by decide) _ _, trivial⟩

theorem ticksInOrder_splitShot : TicksInOrder splitShot :=
  ⟨inOrder_tickAt (by decide) _ _, inOrder_tickAt (by decide) _ _, inOrder_tickAt (by decide) _ _,
    trivial⟩

/-- A tick with the pump on at `nowMs` that delivers the reading stamped `tMs`. -/
def deliveryAt (nowMs tMs : U32) : Recorder.Input :=
  { nowMs := nowMs, pumpSignal := { state := .on },
    scale := { present := true, timestampMs := tMs } }

theorem shot_invariants_delivered :
    let calls := backdatedShot.take 2
    let r := (afterRun calls).update (deliveryAt 1200 1200)
    (afterRun calls).current.samples.items.IsChain (fun sample next => sample.tMs ≠ next.tMs) ∧
      Recorder.SameReadings r (r.update (deliveryAt 1300 1200)) := by
  have hordered : TicksInOrder (backdatedShot.take 2) :=
    ⟨inOrder_tickAt (by decide) _ _, inOrder_tickAt (by decide) _ _, trivial⟩
  have hrun : (exec Timed.step {} (backdatedShot.take 2)).recorder =
      afterRun (backdatedShot.take 2) :=
    Timed.exec_recorder {} _
  obtain ⟨-, -, hchain, -, hagain⟩ :=
    shot_invariants (backdatedShot.take 2) hordered (by decide +kernel)
  rw [hrun] at hchain hagain
  have hsame := hagain (deliveryAt 1200 1200) [.update (deliveryAt 1300 1200)] (by decide +kernel)
    (by decide +kernel) ⟨⟨nofun, fun i hi => Call.update.inj hi ▸ ⟨rfl, by decide +kernel⟩⟩, trivial⟩
  exact ⟨hchain (by decide +kernel), hsame.1⟩

/-- Two samples in a row with one stamp, and a reading that is taken for the shot that its tick ends
and again for the one that begins. -/
theorem not_shot_invariants :
    (TicksInOrder backdatedShot ∧ (afterRun backdatedShot).current.phase = .running ∧
      ¬ (afterRun backdatedShot).current.samples.items.IsChain
        fun sample next => sample.tMs ≠ next.tMs) ∧
    (TicksInOrder splitShot ∧ (afterRun splitShot).current.phase = .running ∧
      (afterRun (splitShot.take 2)).processes (deliveryAt 8000 8000) = true ∧
      ¬ Recorder.SameReadings (afterRun splitShot)
        ((afterRun splitShot).update (deliveryAt 8100 8000))) := by
  refine ⟨⟨ticksInOrder_backdatedShot, by decide +kernel, by decide +kernel⟩, ticksInOrder_splitShot,
    by decide +kernel, by decide +kernel, fun hsame => ?_⟩
  have hobserved := hsame.observed
  revert hobserved
  decide +kernel

end Pumpbug
