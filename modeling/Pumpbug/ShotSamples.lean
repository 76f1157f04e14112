import Pumpbug.RecordStep

/-!
# The samples of a shot

What a recorder has of its shot (the buffer, the counter, the live tracker, the display zero and the
last weight) in terms of the samples that the shot accepted, after every run.
-/

namespace Pumpbug

open Lib

/-! ## The live tracker -/

/-- A run of the live tracker. -/
def trackAll (samples : List Sample) : LivePourTracker :=
  samples.foldl (fun t sample => t.update sample.tMs sample.cg) {}

/-- The sample opens a pour for whoever has none open. -/
def CausalPourSample.opens (s : CausalPourSample) : Bool :=
  s.accepted && isPourBand s.band && s.trustedStep

namespace LivePourTracker

@[simp] theorem updateMeaningfulYield_haveFirstStart (t : LivePourTracker) (s : CausalPourSample) :
    (t.updateMeaningfulYield s).haveFirstStart = t.haveFirstStart := by
  unfold updateMeaningfulYield
  split_ifs <;> rfl

@[simp] theorem updateMeaningfulYield_firstStartCg (t : LivePourTracker) (s : CausalPourSample) :
    (t.updateMeaningfulYield s).firstStartCg = t.firstStartCg := by
  unfold updateMeaningfulYield
  split_ifs <;> rfl

@[simp] theorem updateMeaningfulYield_classifier (t : LivePourTracker) (s : CausalPourSample) :
    (t.updateMeaningfulYield s).classifier = t.classifier := by
  unfold updateMeaningfulYield
  split_ifs <;> rfl

theorem advanceLivePour_start (t : LivePourTracker) (s : CausalPourSample) :
    (t.advanceLivePour s).classifier = t.classifier ∧
    (t.advanceLivePour s).haveFirstStart =
      (t.haveFirstStart || (isPourBand s.band && s.trustedStep)) ∧
    (t.advanceLivePour s).firstStartCg =
      if isPourBand s.band && s.trustedStep && !t.haveFirstStart then s.pourStartCandidateCg
      else t.firstStartCg := by
  unfold advanceLivePour
  by_cases ho : (isPourBand s.band && s.trustedStep) = true
  · rw [if_pos ho, ho]
    cases t.haveFirstStart with
    | false => exact ⟨rfl, rfl, rfl⟩
    | true => exact ⟨rfl, rfl, rfl⟩
  · rw [if_neg ho, Bool.eq_false_iff.2 ho]
    simp only [Bool.or_false, Bool.false_and, Bool.false_eq_true, if_false]
    split_ifs <;> exact ⟨rfl, rfl, rfl⟩

/-- What one sample does to the start of the first pour. -/
theorem update_start (t : LivePourTracker) (tMs : U32) (cg : I16) :
    (t.update tMs cg).classifier = (t.classifier.update tMs cg).1 ∧
    (t.update tMs cg).haveFirstStart =
      (t.haveFirstStart || (t.classifier.update tMs cg).2.opens) ∧
    (t.update tMs cg).firstStartCg =
      if (t.classifier.update tMs cg).2.opens && !t.haveFirstStart then
        (t.classifier.update tMs cg).2.pourStartCandidateCg
      else t.firstStartCg := by
  unfold update CausalPourSample.opens
  generalize t.classifier.update tMs cg = x
  obtain ⟨c, s⟩ := x
  dsimp only
  by_cases ha : s.accepted = true
  · rw [ha, Bool.not_true, if_neg (by decide), Bool.true_and, updateMeaningfulYield_classifier,
      updateMeaningfulYield_haveFirstStart, updateMeaningfulYield_firstStartCg]
    exact advanceLivePour_start _ s
  · rw [Bool.eq_false_iff.2 ha, Bool.not_false, if_pos rfl, Bool.false_and, Bool.false_and,
      Bool.false_and, if_neg (by decide), Bool.or_false]
    exact ⟨rfl, rfl, rfl⟩

/-- The start of the first pour, once found, stays. -/
theorem update_keeps_start {t : LivePourTracker} (h : t.haveFirstStart = true) (tMs : U32)
    (cg : I16) :
    (t.update tMs cg).haveFirstStart = true ∧ (t.update tMs cg).firstStartCg = t.firstStartCg := by
  obtain ⟨-, hh, hs⟩ := t.update_start tMs cg
  rw [hh, hs, h]
  simp

end LivePourTracker

theorem foldl_keeps_start {t : LivePourTracker} (h : t.haveFirstStart = true)
    (more : List Sample) :
    let t' := more.foldl (fun t sample => t.update sample.tMs sample.cg) t
    t'.haveFirstStart = true ∧ t'.firstStartCg = t.firstStartCg := by
  induction more generalizing t with
  | nil => exact ⟨h, rfl⟩
  | cons sample more ih =>
    obtain ⟨h₁, h₂⟩ := LivePourTracker.update_keeps_start h sample.tMs sample.cg
    obtain ⟨h₃, h₄⟩ := ih h₁
    exact ⟨h₃, h₄.trans h₂⟩

/-- More samples do not move the start of the first pour. -/
theorem trackAll_prefix {l l' : List Sample} (h : l <+: l')
    (hs : (trackAll l).haveFirstStart = true) :
    (trackAll l').haveFirstStart = true ∧
      (trackAll l').firstStartCg = (trackAll l).firstStartCg := by
  obtain ⟨more, rfl⟩ := h
  unfold trackAll at *
  rw [List.foldl_append]
  exact foldl_keeps_start hs more

theorem trackAll_snoc (l : List Sample) (sample : Sample) :
    trackAll (l ++ [sample]) = (trackAll l).update sample.tMs sample.cg := by
  unfold trackAll
  rw [List.foldl_append]
  rfl

/-! ## A weight that the tracker starts from -/

/-- The weights that the classifier hands out are readings. -/
structure FromReadings (t : LivePourTracker) : Prop where
  settled : t.classifier.haveSettled = true → t.classifier.lastSettledCg ≠ NO_WEIGHT
  start : t.haveFirstStart = true → t.firstStartCg ≠ NO_WEIGHT

theorem classifier_update_settled {c : CausalPourClassifier} {tMs : U32} {cg : I16}
    (h : c.haveSettled = true → c.lastSettledCg ≠ NO_WEIGHT) (hcg : cg ≠ NO_WEIGHT) :
    ((c.update tMs cg).1.haveSettled = true → (c.update tMs cg).1.lastSettledCg ≠ NO_WEIGHT) ∧
    ((c.update tMs cg).2.accepted = true → (c.update tMs cg).2.pourStartCandidateCg ≠ NO_WEIGHT) := by
  unfold CausalPourClassifier.update
  by_cases hdup : (c.haveLast && tMs = c.lastTMs) = true
  · rw [if_pos hdup]
    exact ⟨h, fun ha => Bool.noConfusion (show false = true from ha)⟩
  · rw [if_neg hdup]
    dsimp only
    generalize (isSettledBand _ && _ || _) = seeds
    cases seeds with
    | true =>
      refine ⟨fun _ => hcg, fun _ => ?_⟩
      rw [Bool.or_true, if_pos rfl]
      exact hcg
    | false =>
      simp only [Bool.or_false, Bool.false_eq_true, if_false]
      have hkept : ∀ b b' : Bool, (c.haveSettled && b && b') = true →
          c.lastSettledCg ≠ NO_WEIGHT := by
        intro b b' hb
        simp only [Bool.and_eq_true] at hb
        exact h hb.1.1
      exact ⟨hkept _ _, fun _ =>
        iteInduction (motive := fun v : I16 => v ≠ NO_WEIGHT) (hkept _ _) fun _ => hcg⟩

theorem fromReadings_update {t : LivePourTracker} (h : FromReadings t) {tMs : U32} {cg : I16}
    (hcg : cg ≠ NO_WEIGHT) : FromReadings (t.update tMs cg) := by
  obtain ⟨hc, hhave, hstart⟩ := t.update_start tMs cg
  obtain ⟨h₁, h₂⟩ := @classifier_update_settled _ tMs _ h.settled hcg
  refine ⟨by rw [hc]; exact h₁, fun hh => ?_⟩
  rw [hstart]
  by_cases ho : ((t.classifier.update tMs cg).2.opens && !t.haveFirstStart) = true
  · rw [if_pos ho]
    apply h₂
    unfold CausalPourSample.opens at ho
    simp only [Bool.and_eq_true] at ho
    exact ho.1.1.1
  · rw [if_neg ho]
    apply h.start
    rw [hhave] at hh
    by_contra hn
    rw [Bool.eq_false_iff.2 hn] at hh ho
    rw [Bool.false_or] at hh
    exact ho (by rw [hh]; rfl)

theorem fromReadings_trackAll {l : List Sample} (h : ∀ sample ∈ l, sample.cg ≠ NO_WEIGHT) :
    FromReadings (trackAll l) := by
  induction l using List.reverseRecOn with
  | nil => exact ⟨fun h => absurd h (by decide), fun h => absurd h (by decide)⟩
  | append_singleton l sample ih =>
    rw [trackAll_snoc]
    refine fromReadings_update (ih fun s hs => h s (List.mem_append_left _ hs)) ?_
    exact h sample (List.mem_append_right _ (List.mem_singleton_self _))

/-! ## The recorder's samples -/

/-- The recorder's shot has accepted the samples `seen`. -/
structure Records (r : Recorder) (seen : List Sample) : Prop where
  tracker : r.tracker = trackAll seen
  stored : r.current.samples.items = seen.take MAX_SAMPLES
  observed : r.current.observedSampleCount.toNat = min seen.length 0xFFFF
  start : r.current.startRawCg =
    if (trackAll seen).haveFirstStart then (trackAll seen).firstStartCg else NO_WEIGHT
  weighed : ∀ sample ∈ seen, sample.cg ≠ NO_WEIGHT

theorem records_empty {r : Recorder} (ht : r.tracker = {}) (hs : r.current.samples.items = [])
    (ho : r.current.observedSampleCount = 0) (hw : r.current.startRawCg = NO_WEIGHT) :
    Records r [] := by
  refine ⟨ht, hs, ?_, hw, fun _ h => absurd h List.not_mem_nil⟩
  rw [ho]
  rfl

/-- What the invariant reads of the recorder. -/
structure SameSamples (r s : Recorder) : Prop where
  tracker : s.tracker = r.tracker
  stored : s.current.samples = r.current.samples
  observed : s.current.observedSampleCount = r.current.observedSampleCount
  start : s.current.startRawCg = r.current.startRawCg

theorem SameSamples.trans {r s t : Recorder} (h : SameSamples r s) (h' : SameSamples s t) :
    SameSamples r t :=
  ⟨h'.tracker.trans h.tracker, h'.stored.trans h.stored, h'.observed.trans h.observed,
    h'.start.trans h.start⟩

theorem Records.of_same {r s : Recorder} {seen : List Sample} (h : Records r seen)
    (hs : SameSamples r s) : Records s seen where
  tracker := hs.tracker.trans h.tracker
  stored := by rw [hs.stored, h.stored]
  observed := by rw [hs.observed, h.observed]
  start := by rw [hs.start, h.start]
  weighed := h.weighed

namespace Recorder

/-- The reading that the shot in flight accepts from the scale, if any. -/
def acceptedReading (r : Recorder) (scale : ScaleSnapshot) : Option I16 :=
  if (scale.timestampMs - r.current.beginMs).toInt < 0 then none else r.newRawSample scale

/-- The sample that a tick accepts, if any. -/
def acceptedSample (r : Recorder) (i : Input) : Option Sample :=
  if r.current.inPumpWindow then
    (r.acceptedReading i.scale).map fun rawCg =>
      { tMs := i.scale.timestampMs, cg := rawCg, scaleTimerMs := i.scale.scaleTimerMs }
  else none

theorem recordLiveTick_accepted (r : Recorder) (scale : ScaleSnapshot) (nowMs : U32) :
    (r.acceptedReading scale = none ∧ ∃ tMs, r.recordLiveTick scale nowMs =
      { r with current := r.noteScalePresence scale nowMs, lastScaleTimestampMs := tMs }) ∨
    ∃ rawCg, r.acceptedReading scale = some rawCg ∧ rawCg ≠ NO_WEIGHT ∧
      r.recordLiveTick scale nowMs =
        { r with current := r.noteScalePresence scale nowMs,
                 lastScaleTimestampMs := scale.timestampMs }.acceptSample scale rawCg nowMs := by
  have hb : (r.noteScalePresence scale nowMs).beginMs = r.current.beginMs :=
    field_eq_of_header _ (fun _ => rfl) (r.header_noteScalePresence scale nowMs)
  have hsame : { r with current := r.noteScalePresence scale nowMs }.newRawSample scale =
      r.newRawSample scale := rfl
  unfold recordLiveTick acceptedReading
  dsimp only
  rw [hsame]
  cases hnew : r.newRawSample scale with
  | none => exact .inl ⟨ite_self _, r.lastScaleTimestampMs, rfl⟩
  | some rawCg =>
    have hknown : rawCg ≠ NO_WEIGHT := by
      unfold newRawSample at hnew
      split_ifs at hnew
      exact gramsToCg_ne_noWeight hnew
    dsimp only
    rw [hb]
    by_cases hbefore : (scale.timestampMs - r.current.beginMs).toInt < 0
    · rw [if_pos hbefore, if_pos hbefore]
      exact .inl ⟨rfl, scale.timestampMs, rfl⟩
    · rw [if_neg hbefore, if_neg hbefore]
      exact .inr ⟨rawCg, rfl, hknown, rfl⟩

theorem storeEvent_start (e : Extraction) (event : Event) :
    (storeEvent e event).startRawCg = e.startRawCg ∧
      (storeEvent e event).observedSampleCount = e.observedSampleCount := by
  unfold storeEvent
  split_ifs
  · exact ⟨rfl, rfl⟩
  · exact ⟨rfl, rfl⟩

theorem noteScalePresence_start (r : Recorder) (scale : ScaleSnapshot) (nowMs : U32) :
    (r.noteScalePresence scale nowMs).startRawCg = r.current.startRawCg ∧
      (r.noteScalePresence scale nowMs).observedSampleCount = r.current.observedSampleCount := by
  unfold noteScalePresence
  split_ifs
  · exact storeEvent_start _ _
  · exact storeEvent_start _ _
  · exact ⟨rfl, rfl⟩

theorem acceptSample_observed (r : Recorder) (scale : ScaleSnapshot) (rawCg : I16)
    (nowMs : U32) : (r.acceptSample scale rawCg nowMs).current.observedSampleCount =
      if r.current.observedSampleCount < 0xFFFF then r.current.observedSampleCount + 1
      else r.current.observedSampleCount := by
  unfold acceptSample appendSample
  dsimp only
  by_cases h : (r.tracker.update scale.timestampMs rawCg).hasPourStartWeight ∧
      r.current.startRawCg = NO_WEIGHT
  · rw [if_pos h]
  · rw [if_neg h]

theorem acceptSample_start (r : Recorder) (scale : ScaleSnapshot) (rawCg : I16) (nowMs : U32) :
    (r.acceptSample scale rawCg nowMs).current.startRawCg =
      if (r.tracker.update scale.timestampMs rawCg).hasPourStartWeight ∧
          r.current.startRawCg = NO_WEIGHT then
        (r.tracker.update scale.timestampMs rawCg).firstPourStartRawCg
      else r.current.startRawCg := by
  unfold acceptSample appendSample
  dsimp only
  by_cases h : (r.tracker.update scale.timestampMs rawCg).hasPourStartWeight ∧
      r.current.startRawCg = NO_WEIGHT
  · rw [if_pos h, if_pos h]
  · rw [if_neg h, if_neg h]

/-- What a full buffer keeps. -/
theorem take_push {l : List Sample} {b : Buffer Sample MAX_SAMPLES}
    (h : b.items = l.take MAX_SAMPLES) (sample : Sample) :
    (b.push sample).items = (l ++ [sample]).take MAX_SAMPLES := by
  have hcount : b.count = min MAX_SAMPLES l.length := by
    unfold Buffer.count
    rw [h, List.length_take]
  by_cases hlt : l.length < MAX_SAMPLES
  · rw [Buffer.items_push_of_lt (by omega), h, List.take_of_length_le (le_of_lt hlt),
      List.take_of_length_le]
    rw [List.length_append, List.length_singleton]
    exact hlt
  · rw [Buffer.push_of_full (by omega), h, List.take_append_of_le_length (not_lt.1 hlt)]

/-- The start weight that a tick publishes is the tracker's. -/
theorem publish_start {seen : List Sample} (hw : ∀ sample ∈ seen, sample.cg ≠ NO_WEIGHT)
    (sample : Sample) {startRawCg : I16}
    (h : startRawCg = if (trackAll seen).haveFirstStart then (trackAll seen).firstStartCg
      else NO_WEIGHT) :
    (if (trackAll (seen ++ [sample])).hasPourStartWeight ∧ startRawCg = NO_WEIGHT then
        (trackAll (seen ++ [sample])).firstPourStartRawCg
      else startRawCg) =
      if (trackAll (seen ++ [sample])).haveFirstStart then
        (trackAll (seen ++ [sample])).firstStartCg
      else NO_WEIGHT := by
  unfold LivePourTracker.hasPourStartWeight LivePourTracker.firstPourStartRawCg
  by_cases hs : (trackAll seen).haveFirstStart = true
  · obtain ⟨hs', hfirst⟩ := trackAll_prefix (List.prefix_append seen [sample]) hs
    have hne := (fromReadings_trackAll hw).start hs
    rw [if_pos hs] at h
    rw [if_neg fun hc => hne (h ▸ hc.2), if_pos hs', hfirst, h]
  · rw [if_neg hs] at h
    by_cases hs' : (trackAll (seen ++ [sample])).haveFirstStart = true
    · rw [if_pos ⟨hs', h⟩, if_pos hs']
      exact (if_pos hs').symm
    · rw [if_neg fun hc => hs' hc.1, if_neg hs', h]

/-- An accepted reading joins the samples. -/
theorem records_acceptSample {r : Recorder} {seen : List Sample} (h : Records r seen)
    (scale : ScaleSnapshot) {rawCg : I16} (hcg : rawCg ≠ NO_WEIGHT) (nowMs : U32) :
    Records (r.acceptSample scale rawCg nowMs)
      (seen ++ [{ tMs := scale.timestampMs, cg := rawCg, scaleTimerMs := scale.scaleTimerMs }]) := by
  have hw : ∀ sample ∈ seen ++
      [{ tMs := scale.timestampMs, cg := rawCg, scaleTimerMs := scale.scaleTimerMs }],
      sample.cg ≠ NO_WEIGHT := by
    intro sample hmem
    rcases List.mem_append.1 hmem with hmem | hmem
    · exact h.weighed sample hmem
    · rw [List.mem_singleton.1 hmem]
      exact hcg
  have htrack := trackAll_snoc seen
    { tMs := scale.timestampMs, cg := rawCg, scaleTimerMs := scale.scaleTimerMs }
  refine ⟨?_, ?_, ?_, ?_, hw⟩
  · rw [htrack, ← h.tracker]
    rfl
  · rw [acceptSample_samples]
    exact take_push h.stored _
  · have hobs := h.observed
    rw [acceptSample_observed, List.length_append, List.length_singleton]
    by_cases hlt : r.current.observedSampleCount < 0xFFFF
    · rw [if_pos hlt]
      bv_omega
    · rw [if_neg hlt]
      bv_omega
  · rw [acceptSample_start, h.tracker, ← htrack]
    exact publish_start h.weighed _ h.start

theorem records_noteScalePresence {r : Recorder} {seen : List Sample} (h : Records r seen)
    (scale : ScaleSnapshot) (nowMs tMs : U32) :
    Records { r with current := r.noteScalePresence scale nowMs, lastScaleTimestampMs := tMs }
      seen := by
  obtain ⟨hs, ho⟩ := r.noteScalePresence_start scale nowMs
  exact h.of_same ⟨rfl, noteScalePresence_samples _ _ _, ho, hs⟩

theorem records_sense {r : Recorder} {seen : List Sample} (h : Records r seen) (i : Input) :
    Records (r.sense i) (seen ++ (r.acceptedSample i).toList) := by
  unfold sense acceptedSample
  by_cases hw : r.current.inPumpWindow = true
  · rw [if_pos hw, if_pos hw]
    rcases r.recordLiveTick_accepted i.scale i.nowMs with ⟨hnone, tMs, heq⟩ | ⟨rawCg, hsome, hcg, heq⟩
    · rw [hnone, Option.map_none, Option.toList_none, List.append_nil, heq]
      exact (records_noteScalePresence h i.scale i.nowMs tMs).of_same ⟨rfl, rfl, rfl, rfl⟩
    · rw [hsome, Option.map_some, Option.toList_some, heq]
      exact (records_acceptSample (records_noteScalePresence h i.scale i.nowMs i.scale.timestampMs)
        i.scale hcg i.nowMs).of_same ⟨rfl, rfl, rfl, rfl⟩
  · rw [if_neg hw, if_neg hw, Option.toList_none, List.append_nil]
    exact h.of_same ⟨rfl, rfl, rfl, rfl⟩

theorem sameSamples_enterPostPump (r : Recorder) (nowMs : U32) (o : PumpSignalObservation) :
    SameSamples r (r.enterPostPump nowMs o) := by
  obtain ⟨hs, ho⟩ := storeEvent_start { r.current with
    totalPumpOnMs := r.current.totalPumpOnMs + (nowMs - r.pumpOnIntervalStartMs)
    lastPumpOffConfirmedMs := nowMs }
    { tMs := nowMs, kind := .pumpOffConfirmed,
      payload := { signalDecayLeadMsPlusOne := decayLeadMsPlusOne nowMs o } }
  exact ⟨rfl, storeEvent_samples _ _, ho, hs⟩

theorem sameSamples_resume {r : Recorder} (h : r.current.phase ≠ .idle) (nowMs utcSec : U32) :
    SameSamples r (r.enterRunning nowMs utcSec) := by
  have he := enterRunning_of_ne_idle h nowMs utcSec
  obtain ⟨hs, ho⟩ := storeEvent_start r.current { tMs := nowMs, kind := .pumpOn }
  refine ⟨rfl, ?_, ?_, ?_⟩
  · rw [he]
    exact appendEvent_samples _ _ _
  · rw [he]
    exact ho
  · rw [he]
    exact hs

theorem sameSamples_setTargetSnapshot (r : Recorder) (tc : TargetCoeffs) :
    SameSamples r (r.setTargetSnapshot tc) := by
  obtain h | h := r.setTargetSnapshot_cases tc
  · rw [h]; exact ⟨rfl, rfl, rfl, rfl⟩
  · rw [h]; exact ⟨rfl, rfl, rfl, rfl⟩

theorem sameSamples_triggerAlarm (r : Recorder) (a : AlarmTrigger) :
    SameSamples r (r.triggerAlarm a) := by
  obtain ⟨-, h⟩ | h := r.triggerAlarm_cases a
  · obtain ⟨hs, ho⟩ := storeEvent_start { r.current with alarm := a }
      { tMs := a.tMs, kind := .alarmTriggered }
    rw [h]
    exact ⟨rfl, appendEvent_samples _ _ _, ho, hs⟩
  · rw [h]; exact ⟨rfl, rfl, rfl, rfl⟩

/-- The beginning of a shot on an idle recorder. -/
theorem sameSamples_begin {r : Recorder} (hp : r.current.phase = .idle) (nowMs utcSec : U32) :
    SameSamples r (r.enterRunning nowMs utcSec) := by
  have he := enterRunning_of_idle hp nowMs utcSec
  obtain ⟨hs, ho⟩ := storeEvent_start { r.current with beginMs := nowMs, startUtcSec := utcSec }
    { tMs := nowMs, kind := .begin }
  obtain ⟨hs', ho'⟩ := storeEvent_start
    (appendEvent { r.current with beginMs := nowMs, startUtcSec := utcSec } nowMs .begin)
    { tMs := nowMs, kind := .pumpOn }
  refine ⟨rfl, ?_, ?_, ?_⟩
  · rw [he]
    exact (appendEvent_samples _ _ _).trans (appendEvent_samples _ _ _)
  · rw [he]
    exact ho'.trans ho
  · rw [he]
    exact hs'.trans hs

theorem records_begin {r : Recorder} (h : Records r []) (hp : r.current.phase = .idle)
    (nowMs utcSec : U32) : Records (r.enterRunning nowMs utcSec) [] :=
  h.of_same (sameSamples_begin hp nowMs utcSec)

theorem records_enterIdle (r : Recorder) : Records r.enterIdle [] :=
  records_empty rfl rfl rfl rfl

/-- What is left for a tick that begins no shot and leaves one in flight. -/
theorem update_within {r : Recorder} {i : Input} (hb : r.begins i = false)
    (hw : (r.update i).current.inPumpWindow = true) :
    r.update i = r.sense i ∨ r.update i = (r.sense i).enterPostPump i.nowMs i.pumpSignal ∨
      (r.sense i).current.phase ≠ .idle ∧ r.update i = (r.sense i).enterRunning i.nowMs 0 := by
  obtain heq | ⟨-, heq⟩ | ⟨hp, heq⟩ | ⟨-, cause, heq⟩ := update_continues hb
  · exact .inl heq
  · exact .inr (.inl heq)
  · refine .inr (.inr ⟨?_, heq⟩)
    rw [sense_phase, hp]
    decide
  · rw [heq, Extraction.inPumpWindow_iff, enterDone_phase] at hw
    exact absurd hw (by decide)

/-- A tick that begins no shot and leaves one in flight adds no more than the scale's reading. -/
theorem update_samples {r : Recorder} {i : Input} (hb : r.begins i = false)
    (hw : (r.update i).current.inPumpWindow = true) : SameSamples (r.sense i) (r.update i) := by
  obtain heq | heq | ⟨hp, heq⟩ := update_within hb hw
  · rw [heq]
    exact ⟨rfl, rfl, rfl, rfl⟩
  · rw [heq]
    exact sameSamples_enterPostPump _ _ _
  · rw [heq]
    exact sameSamples_resume hp _ _

/-- The calls of a shot: the recorder has it in flight, and none clears it or begins another. -/
def WithinShot (r : Recorder) (calls : List Call) : Prop :=
  Along Recorder.call (fun r c => r.current.inPumpWindow = true ∧ c ≠ .clear ∧
    ∀ i, c = .update i → r.begins i = false) r calls

/-- **Step lemma.** A call within a shot only adds samples. -/
theorem records_call {r : Recorder} {seen : List Sample} (h : Records r seen) {c : Call}
    (hc : c ≠ .clear) (hb : ∀ i, c = .update i → r.begins i = false)
    (hw : (r.call c).current.inPumpWindow = true) :
    ∃ seen', seen <+: seen' ∧ Records (r.call c) seen' := by
  cases c with
  | update i =>
    exact ⟨_, List.prefix_append _ _, (records_sense h i).of_same (update_samples (hb i rfl) hw)⟩
  | clear => exact absurd rfl hc
  | setTargetSnapshot tc =>
    exact ⟨seen, List.prefix_rfl, h.of_same (r.sameSamples_setTargetSnapshot tc)⟩
  | triggerAlarm a => exact ⟨seen, List.prefix_rfl, h.of_same (r.sameSamples_triggerAlarm a)⟩

/-- **Run lemma.** Within a shot the accepted samples only grow. -/
theorem records_exec {r : Recorder} {seen : List Sample} (h : Records r seen) {calls : List Call}
    (hin : WithinShot r calls) (hw : (exec Recorder.call r calls).current.inPumpWindow = true) :
    ∃ seen', seen <+: seen' ∧ Records (exec Recorder.call r calls) seen' := by
  induction calls generalizing r seen with
  | nil => exact ⟨seen, List.prefix_rfl, h⟩
  | cons c calls ih =>
    obtain ⟨⟨-, hc, hb⟩, hrest⟩ := hin
    have hw' : (r.call c).current.inPumpWindow = true := by
      cases calls with
      | nil => exact hw
      | cons d calls => exact hrest.1.1
    obtain ⟨seen', hpre, h'⟩ := records_call h hc hb hw'
    obtain ⟨seen'', hpre', h''⟩ := ih h' hrest hw
    exact ⟨seen'', hpre.trans hpre', h''⟩

end Recorder

/-! ## A run with its samples -/

/-- The weight of the last sample. -/
def lastWeight (accepted : List Sample) : I16 := (accepted.getLast?.map Sample.cg).getD NO_WEIGHT

/-- A run, with the samples that the last shot begun has accepted, each with its tick. -/
def noteAccepted (x : Recorder × List (Sample × U32)) (c : Call) : Recorder × List (Sample × U32) :=
  (x.1.call c,
    match c with
    | .update i =>
      if x.1.begins i then [] else x.2 ++ ((x.1.acceptedSample i).map fun s => (s, i.nowMs)).toList
    | .clear => []
    | .setTargetSnapshot _ => x.2
    | .triggerAlarm _ => x.2)

/-- The samples that the last shot begun has accepted. -/
def shotSamples (calls : List Call) : List Sample := (exec noteAccepted ({}, []) calls).2.map Prod.fst

theorem exec_noteAccepted (x : Recorder × List (Sample × U32)) (calls : List Call) :
    (exec noteAccepted x calls).1 = exec Recorder.call x.1 calls := by
  induction calls generalizing x with
  | nil => rfl
  | cons c calls ih => exact ih (noteAccepted x c)

namespace Recorder

/-- The tick that accepted the last sample; 0 for none. -/
def lastTick (seen : List (Sample × U32)) : U32 := (seen.getLast?.map Prod.snd).getD 0

/-- The recorder's shot has accepted the samples `seen`, and the recorder knows the last one's
weight and tick. -/
structure Tallies (r : Recorder) (seen : List (Sample × U32)) : Prop where
  records : Records r (seen.map Prod.fst)
  last : r.lastRawCg = lastWeight (seen.map Prod.fst)
  tick : r.lastRawSampleTMs = lastTick seen

theorem Tallies.of_same {r s : Recorder} {seen : List (Sample × U32)} (h : Tallies r seen)
    (hs : SameSamples r s) (hlast : s.lastRawCg = r.lastRawCg)
    (htick : s.lastRawSampleTMs = r.lastRawSampleTMs) : Tallies s seen :=
  ⟨h.records.of_same hs, hlast.trans h.last, htick.trans h.tick⟩

theorem tallies_enterIdle (r : Recorder) : Tallies r.enterIdle [] := ⟨records_enterIdle r, rfl, rfl⟩

theorem tallies_sense {r : Recorder} {seen : List (Sample × U32)} (h : Tallies r seen) (i : Input) :
    Tallies (r.sense i) (seen ++ ((r.acceptedSample i).map fun s => (s, i.nowMs)).toList) := by
  have hrecords : Records (r.sense i)
      ((seen ++ ((r.acceptedSample i).map fun s => (s, i.nowMs)).toList).map Prod.fst) := by
    have hsamples : (((r.acceptedSample i).map fun s => (s, i.nowMs)).toList).map Prod.fst =
        (r.acceptedSample i).toList := by
      cases r.acceptedSample i with
      | none => rfl
      | some s => rfl
    rw [List.map_append, hsamples]
    exact records_sense h.records i
  suffices hlast : (r.sense i).lastRawCg =
        lastWeight ((seen ++ ((r.acceptedSample i).map fun s => (s, i.nowMs)).toList).map Prod.fst) ∧
      (r.sense i).lastRawSampleTMs =
        lastTick (seen ++ ((r.acceptedSample i).map fun s => (s, i.nowMs)).toList) from
    ⟨hrecords, hlast.1, hlast.2⟩
  unfold sense acceptedSample
  by_cases hw : r.current.inPumpWindow = true
  · rw [if_pos hw, if_pos hw]
    rcases r.recordLiveTick_accepted i.scale i.nowMs with ⟨hnone, tMs, heq⟩ | ⟨rawCg, hsome, -, heq⟩
    · rw [hnone, Option.map_none, Option.map_none, Option.toList_none, List.append_nil, heq]
      exact ⟨h.last, h.tick⟩
    · rw [hsome, Option.map_some, Option.map_some, Option.toList_some, heq]
      unfold lastWeight lastTick
      rw [List.map_append, List.map_singleton, List.getLast?_concat, List.getLast?_concat]
      exact ⟨rfl, rfl⟩
  · rw [if_neg hw, if_neg hw, Option.map_none, Option.toList_none, List.append_nil]
    exact ⟨h.last, h.tick⟩

/-- What is known of a recorder whose last shot begun has accepted `seen`. -/
structure Tallied (r : Recorder) (seen : List (Sample × U32)) : Prop where
  idle : r.current.phase = .idle → Tallies r []
  window : r.current.inPumpWindow = true → Tallies r seen

theorem tallied_of_window {r : Recorder} {seen : List (Sample × U32)}
    (hw : r.current.inPumpWindow = true) (h : Tallies r seen) : Tallied r seen := by
  refine ⟨fun hi => ?_, fun _ => h⟩
  rw [Extraction.inPumpWindow_iff, hi] at hw
  exact absurd hw (by decide)

theorem tallied_of_idle {r : Recorder} (h : Tallies r []) (seen : List (Sample × U32))
    (hi : r.current.phase = .idle) : Tallied r seen := by
  refine ⟨fun _ => h, fun hw => ?_⟩
  rw [Extraction.inPumpWindow_iff, hi] at hw
  exact absurd hw (by decide)

theorem tallied_update {r : Recorder} {seen : List (Sample × U32)} (h : Tallied r seen) (i : Input) :
    Tallied (r.update i) (if r.begins i then []
      else seen ++ ((r.acceptedSample i).map fun s => (s, i.nowMs)).toList) := by
  have houtside (hi : r.current.phase = .idle) : Tallies (r.sense i) [] := by
    have hw : ¬ r.current.inPumpWindow = true := by
      rw [Extraction.inPumpWindow_iff, hi]
      decide
    have hsense := tallies_sense (h.idle hi) i
    unfold acceptedSample at hsense
    rwa [if_neg hw] at hsense
  by_cases hb : r.begins i = true
  · rw [if_pos hb]
    have hbegun : Tallies (r.update i) [] ∧ (r.update i).current.phase = .running := by
      obtain ⟨hp, heq⟩ | ⟨s, heq⟩ := update_of_begins hb
      · have hs := houtside hp
        rw [heq]
        exact ⟨⟨records_begin hs.records (by rw [sense_phase, hp]) _ _, hs.last, hs.tick⟩, rfl⟩
      · have hs := tallies_enterIdle s
        rw [heq]
        exact ⟨⟨records_begin hs.records rfl _ _, hs.last, hs.tick⟩, rfl⟩
    exact tallied_of_window (Extraction.inPumpWindow_iff.2 (Or.inl hbegun.2)) hbegun.1
  · rw [if_neg hb]
    have hb' : r.begins i = false := Bool.eq_false_iff.2 hb
    have hclean : r.Clean := fun hi => by
      rw [(h.idle hi).records.stored]
      rfl
    obtain ⟨hbegins, -⟩ | ⟨-, hg⟩ := r.update_record i hclean
    · exact absurd hbegins hb
    constructor
    · intro hi
      have hp := hg.idle.1 hi
      rw [update_of_idle hp, if_neg (begins_of_rises hb (Or.inl hp))]
      exact houtside hp
    · intro hw
      have hsense := tallies_sense (h.window (hg.window hw)) i
      have hsame := update_samples hb' hw
      obtain heq | heq | ⟨-, heq⟩ := update_within hb' hw
      · exact hsense.of_same hsame (by rw [heq]) (by rw [heq])
      · exact hsense.of_same hsame (by rw [heq]; rfl) (by rw [heq]; rfl)
      · exact hsense.of_same hsame (by rw [heq]; rfl) (by rw [heq]; rfl)

theorem tallied_of_same {r s : Recorder} {seen : List (Sample × U32)} (h : Tallied r seen)
    (hf : SameFlight r s) (hs : SameSamples r s) (hlast : s.lastRawCg = r.lastRawCg)
    (htick : s.lastRawSampleTMs = r.lastRawSampleTMs) : Tallied s seen := by
  constructor
  · intro hi
    exact (h.idle (hf.phase ▸ hi)).of_same hs hlast htick
  · intro hw
    rw [hf.inPumpWindow] at hw
    exact (h.window hw).of_same hs hlast htick

/-- **Step lemma.** -/
theorem tallied_noteAccepted {x : Recorder × List (Sample × U32)} (h : Tallied x.1 x.2) (c : Call) :
    Tallied (noteAccepted x c).1 (noteAccepted x c).2 := by
  cases c with
  | update i => exact tallied_update h i
  | clear =>
    show Tallied x.1.clear []
    rw [clear_eq]
    by_cases hi : x.1.current.phase = .idle
    · rw [if_pos hi]
      exact tallied_of_idle (h.idle hi) [] hi
    · rw [if_neg hi]
      exact tallied_of_idle (tallies_enterIdle x.1) [] rfl
  | setTargetSnapshot tc =>
    have hkeeps : (x.1.setTargetSnapshot tc).lastRawCg = x.1.lastRawCg ∧
        (x.1.setTargetSnapshot tc).lastRawSampleTMs = x.1.lastRawSampleTMs := by
      obtain heq | heq := x.1.setTargetSnapshot_cases tc
      · rw [heq]; exact ⟨rfl, rfl⟩
      · rw [heq]; exact ⟨rfl, rfl⟩
    exact tallied_of_same h (x.1.sameFlight_setTargetSnapshot tc)
      (x.1.sameSamples_setTargetSnapshot tc) hkeeps.1 hkeeps.2
  | triggerAlarm a =>
    have hkeeps : (x.1.triggerAlarm a).lastRawCg = x.1.lastRawCg ∧
        (x.1.triggerAlarm a).lastRawSampleTMs = x.1.lastRawSampleTMs := by
      obtain ⟨-, heq⟩ | heq := x.1.triggerAlarm_cases a
      · rw [heq]; exact ⟨rfl, rfl⟩
      · rw [heq]; exact ⟨rfl, rfl⟩
    exact tallied_of_same h (x.1.sameFlight_triggerAlarm a) (x.1.sameSamples_triggerAlarm a)
      hkeeps.1 hkeeps.2

/-- **Run lemma.** -/
theorem tallied_exec (calls : List Call) :
    Tallied (exec Recorder.call {} calls) (exec noteAccepted ({}, []) calls).2 := by
  have hrun : Tallied (exec noteAccepted ({}, []) calls).1 (exec noteAccepted ({}, []) calls).2 := by
    induction calls using List.reverseRecOn with
    | nil => exact tallied_of_idle ⟨records_empty rfl rfl rfl rfl, rfl, rfl⟩ [] rfl
    | append_singleton calls c ih =>
      rw [exec_append]
      exact tallied_noteAccepted ih c
  rw [exec_noteAccepted] at hrun
  exact hrun

end Recorder

end Pumpbug
