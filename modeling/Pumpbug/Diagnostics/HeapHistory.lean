import Pumpbug.Diagnostics.HeapMonitor
import Pumpbug.Lib.Run

/-!
# The heap history

Every row of the history is the worst of the readings of one bucket, and the buckets since the last
clear tile the time and the readings since the main loop took notice of it.  A clear that a `tick`
spans, from before its first access to after its last, can be followed by one row of older readings.
-/

namespace Pumpbug.Diagnostics

open Lib

/-! ## Buckets -/

/-- A window that has been closed. -/
structure Bucket where
  startMs : U32
  closeMs : U32
  utcSec : U32
  readings : List HeapReading
  nonempty : readings ≠ []
  long : BUCKET_MS ≤ closeMs - startMs

/-- The buckets follow each other from `a` to `b`. -/
def Tiles : U32 → List Bucket → U32 → Prop
  | a, [], b => a = b
  | a, w :: ws, b => w.startMs = a ∧ Tiles w.closeMs ws b

theorem Tiles.concat {a b : U32} {ws : List Bucket} (h : Tiles a ws b) {w : Bucket}
    (hw : w.startMs = b) : Tiles a (ws ++ [w]) w.closeMs := by
  induction ws generalizing a with
  | nil => exact ⟨hw.trans h.symm, rfl⟩
  | cons v ws ih => exact ⟨h.1, ih h.2⟩

/-- The row is the worst of the bucket. -/
structure Bucket.Shows (b : Bucket) (s : HeapSample) : Prop where
  ms : s.ms = b.closeMs
  utcSec : s.utcSec = b.utcSec
  internalFree : IsLeast {n | ∃ r ∈ b.readings, r.internalFree.toNat = n} s.minInternalFree.toNat
  internalLargest :
    IsLeast {n | ∃ r ∈ b.readings, r.internalLargest.toNat = n} s.minInternalLargest.toNat
  dmaLargest : IsLeast {n | ∃ r ∈ b.readings, r.dmaLargest.toNat = n} s.minDmaLargest.toNat
  psramFree : IsLeast {n | ∃ r ∈ b.readings, r.psramFree.toNat = n} s.minPsramFree.toNat

def foldReadings (acc : HeapReading) (rs : List HeapReading) : HeapReading :=
  rs.foldl HeapReading.foldInto acc

theorem foldReadings_concat (acc : HeapReading) (rs : List HeapReading) (r : HeapReading) :
    foldReadings acc (rs ++ [r]) = (foldReadings acc rs).foldInto r := by
  simp [foldReadings]

section Minima

/-- One of the four accumulators. -/
def Accumulates (f : HeapReading → U32) : Prop :=
  f freshAcc = UINT32_MAX ∧ ∀ acc r, f (acc.foldInto r) = if f r < f acc then f r else f acc

variable {f : HeapReading → U32}

theorem Accumulates.fold (h : Accumulates f) (acc : HeapReading) (rs : List HeapReading) :
    (f (foldReadings acc rs)).toNat ≤ (f acc).toNat ∧
      (∀ r ∈ rs, (f (foldReadings acc rs)).toNat ≤ (f r).toNat) ∧
      (f (foldReadings acc rs) = f acc ∨ ∃ r ∈ rs, f r = f (foldReadings acc rs)) := by
  induction rs generalizing acc with
  | nil => simp [foldReadings]
  | cons r rs ih =>
    obtain ⟨hacc, hall, hone⟩ := ih (acc.foldInto r)
    have hmin := h.2 acc r
    have heq : foldReadings acc (r :: rs) = foldReadings (acc.foldInto r) rs := rfl
    rw [heq]
    by_cases hlt : f r < f acc
    · rw [if_pos hlt] at hmin
      have hlt' : (f r).toNat < (f acc).toNat := hlt
      rw [hmin] at hacc hone
      refine ⟨by omega, ?_, ?_⟩
      · simpa using ⟨hacc, hall⟩
      · refine Or.inr ?_
        obtain hone | ⟨r', hr', hone⟩ := hone
        · exact ⟨r, List.mem_cons_self, hone.symm⟩
        · exact ⟨r', List.mem_cons_of_mem _ hr', hone⟩
    · rw [if_neg hlt] at hmin
      have hle : (f acc).toNat ≤ (f r).toNat := Nat.le_of_not_lt hlt
      rw [hmin] at hacc hone
      refine ⟨hacc, ?_, ?_⟩
      · simpa using ⟨le_trans hacc hle, hall⟩
      · obtain hone | ⟨r', hr', hone⟩ := hone
        · exact Or.inl hone
        · exact Or.inr ⟨r', List.mem_cons_of_mem _ hr', hone⟩

/-- From a fresh bucket on, the accumulator is the least of the readings. -/
theorem Accumulates.isLeast (h : Accumulates f) {rs : List HeapReading} (hne : rs ≠ []) :
    IsLeast {n | ∃ r ∈ rs, (f r).toNat = n} (f (foldReadings freshAcc rs)).toNat := by
  obtain ⟨-, hall, hone⟩ := h.fold freshAcc rs
  refine ⟨?_, ?_⟩
  · obtain hone | ⟨r, hr, hone⟩ := hone
    · obtain ⟨r, hr⟩ := List.exists_mem_of_ne_nil rs hne
      refine ⟨r, hr, ?_⟩
      have hle := hall r hr
      have hmax : (f r).toNat < 2 ^ 32 := (f r).isLt
      have htop : (f (foldReadings freshAcc rs)).toNat = 2 ^ 32 - 1 := by
        rw [hone, h.1]
        rfl
      omega
    · exact ⟨r, hr, by rw [hone]⟩
  · rintro n ⟨r, hr, rfl⟩
    exact hall r hr

end Minima

/-- The bucket that `closeBucket` closes. -/
theorem shows_bucket (b : Bucket) :
    b.Shows {
      ms := b.closeMs
      utcSec := b.utcSec
      minInternalFree := (foldReadings freshAcc b.readings).internalFree
      minInternalLargest := (foldReadings freshAcc b.readings).internalLargest
      minDmaLargest := (foldReadings freshAcc b.readings).dmaLargest
      minPsramFree := (foldReadings freshAcc b.readings).psramFree } where
  ms := rfl
  utcSec := rfl
  internalFree := Accumulates.isLeast (f := HeapReading.internalFree) ⟨rfl, fun _ _ => rfl⟩ b.nonempty
  internalLargest := Accumulates.isLeast (f := HeapReading.internalLargest) ⟨rfl, fun _ _ => rfl⟩ b.nonempty
  dmaLargest := Accumulates.isLeast (f := HeapReading.dmaLargest) ⟨rfl, fun _ _ => rfl⟩ b.nonempty
  psramFree := Accumulates.isLeast (f := HeapReading.psramFree) ⟨rfl, fun _ _ => rfl⟩ b.nonempty

/-- The ring holds the rows of the buckets, the last of which is the newest. -/
def Recorded (ring : Ring HeapSample CAP) (bs : List Bucket) : Prop :=
  ∃ hist, ring.Holds hist ∧ List.Forall₂ Bucket.Shows bs.reverse hist

theorem Recorded.push {ring : Ring HeapSample CAP} {bs : List Bucket} (h : Recorded ring bs)
    (hfew : bs.length + 1 < 2 ^ 32) {b : Bucket} {s : HeapSample} (hs : b.Shows s) :
    Recorded (ring.push s) (bs ++ [b]) := by
  obtain ⟨hist, hholds, hrows⟩ := h
  have hlen : hist.length = bs.length := by rw [← hrows.length_eq, List.length_reverse]
  refine ⟨s :: hist, hholds.push (by omega) s, ?_⟩
  rw [List.reverse_append]
  exact .cons hs hrows

/-- The rows are of the last buckets, as many as there is room for. -/
theorem Recorded.snapshot {h : HeapMonitor} {bs : List Bucket} (hrec : Recorded h.ring bs) :
    List.Forall₂ Bucket.Shows (bs.reverse.take CAP) (h.snapshot CAP) := by
  obtain ⟨hist, hholds, hrows⟩ := hrec
  rw [HeapMonitor.snapshot, hholds.snapshot, List.take_take, Nat.min_self]
  exact List.forall₂_take _ hrows

/-! ## The buckets of a run -/

/-- What a run is about: its buckets, with all their readings. -/
structure HeapBuckets where
  /-- When the last `tick` began. -/
  now : U32 := 0
  /-- The open bucket. -/
  startMs : U32 := 0
  opened : List HeapReading := []
  /-- A clear has begun, and no `tick` since. -/
  pending : Bool := false
  /-- Closed since the ring was cleared. -/
  closed : List Bucket := []

namespace HeapBuckets

def step (l : HeapBuckets) : HeapMove → HeapBuckets
  | .check now =>
    if l.pending then { l with now := now, startMs := now, opened := [], pending := false }
    else { l with now := now }
  | .read r => { l with opened := l.opened ++ [r] }
  | .close utcNow =>
    if h : l.opened ≠ [] ∧ BUCKET_MS ≤ l.now - l.startMs then
      { l with
        startMs := l.now
        opened := []
        closed := l.closed ++ [⟨l.startMs, l.now, utcNow, l.opened, h.1, h.2⟩] }
    else l
  | .storeFlag => { l with pending := true }
  | .clearRing => { l with closed := [] }

end HeapBuckets

def buckets (moves : List HeapMove) : HeapBuckets := exec HeapBuckets.step {} moves

theorem buckets_append (moves more : List HeapMove) :
    buckets (moves ++ more) = exec HeapBuckets.step (buckets moves) more := exec_append _ _

/-- The time of a `tick` that begins. -/
def HeapMove.nowMs? : HeapMove → Option U32
  | .check now => some now
  | _ => none

namespace HeapTasks

theorem step_cases {s s' : HeapTasks} {m : HeapMove} (h : s.step m = some s') :
    (∃ now, m = .check now ∧ s.tick = .idle ∧ s'.monitor = s.monitor.consumeClear now ∧
      (s'.tick = .idle ∨ s'.tick = .due now)) ∨
    (∃ now r, m = .read r ∧ s.tick = .due now ∧
      s' = { monitor := s.monitor.sample now r, tick := .sampled now }) ∨
    (∃ now utcNow, m = .close utcNow ∧ s.tick = .sampled now ∧
      s' = { monitor := s.monitor.closeBucket now utcNow, tick := .idle }) ∨
    (m = .storeFlag ∧ s' = { s with monitor := { s.monitor with clearBucket := true } }) ∨
    (m = .clearRing ∧ s' = { s with monitor := { s.monitor with ring := s.monitor.ring.clear } }) := by
  cases m with
  | check now =>
    cases htick : s.tick with
    | idle =>
      simp only [step, htick, Option.some.injEq] at h
      refine .inl ⟨now, rfl, rfl, by rw [← h], ?_⟩
      rw [← h]
      split <;> simp
    | due | sampled => simp [step, htick] at h
  | read r =>
    cases htick : s.tick with
    | due now =>
      simp only [step, htick, Option.some.injEq] at h
      exact .inr (.inl ⟨now, r, rfl, rfl, h.symm⟩)
    | idle | sampled => simp [step, htick] at h
  | close utcNow =>
    cases htick : s.tick with
    | sampled now =>
      simp only [step, htick, Option.some.injEq] at h
      exact .inr (.inr (.inl ⟨now, utcNow, rfl, rfl, h.symm⟩))
    | idle | due => simp [step, htick] at h
  | storeFlag => exact .inr (.inr (.inr (.inl ⟨rfl, (Option.some.inj h).symm⟩)))
  | clearRing => exact .inr (.inr (.inr (.inr ⟨rfl, (Option.some.inj h).symm⟩)))

/-- The monitor has the open bucket. -/
structure Refines (s : HeapTasks) (l : HeapBuckets) : Prop where
  acc : s.monitor.acc = foldReadings freshAcc l.opened
  start : s.monitor.bucketStartMs = l.startMs
  flag : s.monitor.clearBucket = l.pending
  due : ∀ now, s.tick = .due now → l.now = now
  sampled : ∀ now, s.tick = .sampled now → l.now = now ∧ l.opened ≠ []

theorem refines_init : Refines {} (buckets []) where
  acc := rfl
  start := rfl
  flag := rfl
  due now h := by cases h
  sampled now h := by cases h

variable {s s' : HeapTasks} {l : HeapBuckets} {m : HeapMove}

/-- What the close of a `tick` does to the buckets, and to the monitor. -/
theorem Refines.close_cases (h : s.Refines l) {now : U32} (htick : s.tick = .sampled now) (utcNow : U32) :
    (l.step (.close utcNow) = l ∧ s.monitor.closeBucket now utcNow = s.monitor) ∨
      ∃ (b : Bucket) (row : HeapSample), b.Shows row ∧ b.startMs = l.startMs ∧ b.readings = l.opened ∧
        l.step (.close utcNow) =
          { l with startMs := b.closeMs, opened := [], closed := l.closed ++ [b] } ∧
        s.monitor.closeBucket now utcNow =
          { s.monitor with ring := s.monitor.ring.push row }.resetBucket b.closeMs := by
  obtain ⟨rfl, hne⟩ := h.sampled now htick
  rw [HeapMonitor.closeBucket, h.start, HeapBuckets.step]
  by_cases hlong : BUCKET_MS ≤ l.now - l.startMs
  · right
    let b : Bucket := ⟨l.startMs, l.now, utcNow, l.opened, hne, hlong⟩
    rw [if_pos hlong, dif_pos ⟨hne, hlong⟩]
    have hshows := shows_bucket b
    rw [show b.readings = l.opened from rfl, ← h.acc] at hshows
    exact ⟨b, _, hshows, rfl, rfl, rfl, rfl⟩
  · left
    rw [if_neg hlong, dif_neg fun hclose => hlong hclose.2]
    exact ⟨rfl, rfl⟩

/-- **Step lemma.** The monitor keeps the open bucket. -/
theorem refines_step (h : s.Refines l) (hs : s.step m = some s') : s'.Refines (l.step m) := by
  obtain ⟨now, rfl, -, hmonitor, htick⟩ | ⟨now, r, rfl, hdue, rfl⟩ | ⟨now, utcNow, rfl, hbusy, rfl⟩ |
    ⟨rfl, rfl⟩ | ⟨rfl, rfl⟩ := step_cases hs
  · have hnow : ∀ t, s'.tick = .due t → now = t := by
      intro t ht
      obtain hidle | hdue := htick
      · rw [hidle] at ht
        cases ht
      · exact Tick.due.inj (hdue.symm.trans ht)
    have hnot : ∀ t, s'.tick ≠ .sampled t := by
      intro t ht
      obtain hidle | hdue := htick
      · rw [hidle] at ht
        cases ht
      · rw [hdue] at ht
        cases ht
    rw [HeapMonitor.consumeClear, h.flag] at hmonitor
    unfold HeapBuckets.step
    cases hpending : l.pending with
    | true =>
      rw [hpending, if_pos rfl] at hmonitor
      exact ⟨by rw [hmonitor]; rfl, by rw [hmonitor]; rfl, by rw [hmonitor]; rfl, hnow,
        fun t ht => absurd ht (hnot t)⟩
    | false =>
      rw [hpending, if_neg (by simp)] at hmonitor
      exact ⟨by rw [hmonitor]; exact h.acc, by rw [hmonitor]; exact h.start,
        by rw [hmonitor, h.flag, hpending]; rfl, hnow, fun t ht => absurd ht (hnot t)⟩
  · refine ⟨?_, h.start, h.flag, by simp, fun t ht => ⟨?_, by simp [HeapBuckets.step]⟩⟩
    · show HeapReading.foldInto _ r = foldReadings freshAcc (l.opened ++ [r])
      rw [foldReadings_concat, ← h.acc]
    · exact (h.due now hdue).trans (Tick.sampled.inj ht)
  · obtain ⟨hsame, heq⟩ | ⟨b, row, -, -, -, hnext, heq⟩ := h.close_cases hbusy utcNow
    · rw [hsame, heq]
      exact ⟨h.acc, h.start, h.flag, by simp, by simp⟩
    · rw [hnext, heq]
      exact ⟨rfl, rfl, h.flag, by simp, by simp⟩
  · exact ⟨h.acc, h.start, rfl, h.due, h.sampled⟩
  · exact ⟨h.acc, h.start, h.flag, h.due, h.sampled⟩

/-- **Run lemma.** -/
theorem refines_run {moves : List HeapMove} (h : s.Refines l) (hs : s.run moves = some s') :
    s'.Refines (exec HeapBuckets.step l moves) := by
  induction moves generalizing s l with
  | nil => exact Option.some.inj hs ▸ h
  | cons m moves ih =>
    rw [run_cons, Option.bind_eq_some_iff] at hs
    obtain ⟨t, ht, hs⟩ := hs
    exact ih (refines_step h ht) hs

/-- The ring has the buckets closed since it was cleared. -/
theorem recorded_step (h : s.Refines l) (hrec : Recorded s.monitor.ring l.closed)
    (hfew : m.closes = true → l.closed.length + 1 < 2 ^ 32) (hs : s.step m = some s') :
    Recorded s'.monitor.ring (l.step m).closed ∧
      (l.step m).closed.length ≤ l.closed.length + (if m.closes then 1 else 0) := by
  obtain ⟨now, rfl, -, hmonitor, -⟩ | ⟨now, r, rfl, -, rfl⟩ | ⟨now, utcNow, rfl, hbusy, rfl⟩ |
    ⟨rfl, rfl⟩ | ⟨rfl, rfl⟩ := step_cases hs
  · rw [hmonitor, HeapMonitor.consumeClear, HeapBuckets.step]
    constructor
    · split_ifs <;> exact hrec
    · split_ifs <;> simp
  · exact ⟨hrec, by simp [HeapBuckets.step]⟩
  · obtain ⟨hsame, heq⟩ | ⟨b, row, hshows, -, -, hnext, heq⟩ := h.close_cases hbusy utcNow
    · rw [hsame, heq]
      exact ⟨hrec, by simp⟩
    · rw [hnext, heq]
      exact ⟨hrec.push (hfew rfl) hshows, by simp [HeapMove.closes]⟩
  · exact ⟨hrec, by simp [HeapBuckets.step]⟩
  · exact ⟨⟨[], Ring.holds_clear _, .nil⟩, by simp [HeapBuckets.step]⟩

theorem recorded_run {moves : List HeapMove} (h : s.Refines l) (hrec : Recorded s.monitor.ring l.closed)
    (hfew : l.closed.length + moves.countP HeapMove.closes < 2 ^ 32) (hs : s.run moves = some s') :
    Recorded s'.monitor.ring (exec HeapBuckets.step l moves).closed := by
  induction moves generalizing s l with
  | nil => exact Option.some.inj hs ▸ hrec
  | cons m moves ih =>
    rw [run_cons, Option.bind_eq_some_iff] at hs
    obtain ⟨t, ht, hs⟩ := hs
    rw [List.countP_cons] at hfew
    obtain ⟨hrec', hlen⟩ := recorded_step h hrec
      (fun hclose => by rw [if_pos hclose] at hfew; omega) ht
    exact ih (refines_step h ht) hrec' (by omega) hs

/-! ## Since a clear -/

/-- How the readings since a clear began are accounted for: `stale` went before the main loop took
notice, and `old` is the bucket that was open then, if it was closed after the clear; `gone` are the
buckets closed during the clear, whose rows it removed. -/
structure Parts where
  old : List Bucket := []
  stale : List HeapReading := []
  gone : List Bucket := []
  blocks : List Bucket := []

/-- The buckets since the main loop took notice. -/
def Parts.since (p : Parts) : List Bucket := p.gone ++ p.blocks

/-- The account of the moves `since` a clear began, at the buckets `before`. -/
structure Covers (before : HeapBuckets) (since : List HeapMove) (l : HeapBuckets) (p : Parts) : Prop where
  stale : p.stale.length ≤ 1
  old : p.old.length ≤ 1
  /-- The bucket that was open when the clear began. -/
  earlier : ∀ b ∈ p.old, b.startMs = before.startMs ∧ b.readings = before.opened ++ p.stale
  waiting : l.pending = true → since.findSome? HeapMove.nowMs? = none ∧ p.since = [] ∧
    since.flatMap HeapMove.readings = p.stale
  /-- The buckets since follow each other from the first `tick` on, and have every reading. -/
  tiles : l.pending = false → ∃ now, since.findSome? HeapMove.nowMs? = some now ∧
    Tiles now p.since l.startMs ∧ since.flatMap HeapMove.readings =
      p.stale ++ p.since.flatMap Bucket.readings ++ l.opened

/-- The account while the main loop stands at `tick`. -/
structure Account (before : HeapBuckets) (since : List HeapMove) (tick : Tick) (l : HeapBuckets)
    (p : Parts) : Prop extends Covers before since l p where
  busy : l.pending = true → tick ≠ .idle →
    p.old = [] ∧ l.startMs = before.startMs ∧ l.opened = before.opened ++ p.stale
  due : l.pending = true → ∀ now, tick = .due now → p.stale = []

theorem account_storeFlag (l : HeapBuckets) (tick : Tick) :
    Account l [] tick (l.step .storeFlag) {} where
  stale := by simp
  old := by simp
  earlier := by simp
  waiting _ := ⟨rfl, rfl, rfl⟩
  tiles h := by cases h
  busy _ _ := ⟨rfl, rfl, (List.append_nil _).symm⟩
  due _ _ _ := rfl

/-- What a step that clears nothing adds to the account. -/
structure Adds (tick : Tick) (l l' : HeapBuckets) (p p' : Parts) : Prop where
  gone : p'.gone = p.gone
  closed : l.closed = p.old ++ p.blocks → l'.closed = p'.old ++ p'.blocks
  /-- Once the main loop is between two ticks, or has taken notice. -/
  settled : (l.pending = true → tick = .idle) → p'.old = p.old ∧ p'.stale = p.stale

variable {before : HeapBuckets} {since : List HeapMove} {p : Parts}

theorem Adds.refl {tick : Tick} {l' : HeapBuckets} (h : l'.closed = l.closed) : Adds tick l l' p p where
  gone := rfl
  closed := h.trans
  settled _ := ⟨rfl, rfl⟩

/-- The main loop takes notice, or did so before. -/
theorem Account.check (h : Account before since .idle l p) (now : U32) {tick : Tick} :
    Account before (since ++ [.check now]) tick (l.step (.check now)) p := by
  unfold HeapBuckets.step
  cases hpending : l.pending with
  | true =>
    obtain ⟨hnone, hsince, hreadings⟩ := h.waiting hpending
    refine ⟨⟨h.stale, h.old, h.earlier, by simp, fun _ => ⟨now, ?_, ?_, ?_⟩⟩, by simp, by simp⟩
    · simp [List.findSome?_append, hnone, HeapMove.nowMs?]
    · rw [hsince]
      rfl
    · simp [hreadings, hsince, HeapMove.readings]
  | false =>
    obtain ⟨first, hfirst, htiles, hreadings⟩ := h.tiles hpending
    refine ⟨⟨h.stale, h.old, h.earlier, by simp, fun _ => ⟨first, ?_, htiles, ?_⟩⟩, by simp, by simp⟩
    · simp [List.findSome?_append, hfirst]
    · simp [hreadings, HeapMove.readings]

/-- A reading is stale as long as the main loop has not taken notice. -/
theorem Account.read {now : U32} (h : Account before since (.due now) l p) (r : HeapReading) :
    ∃ p', Account before (since ++ [.read r]) (.sampled now) (l.step (.read r)) p' ∧
      Adds (.due now) l (l.step (.read r)) p p' := by
  unfold HeapBuckets.step
  cases hpending : l.pending with
  | true =>
    obtain ⟨hnone, hsince, hreadings⟩ := h.waiting hpending
    obtain ⟨hold, hstart, hopened⟩ := h.busy hpending (by simp)
    have hstale := h.due hpending now rfl
    refine ⟨{ p with stale := [r] }, ⟨⟨by simp, h.old, by simp [hold], fun _ => ⟨?_, hsince, ?_⟩,
      by simp⟩, fun _ _ => ⟨hold, hstart, ?_⟩, by simp⟩, rfl, id, by simp [hpending]⟩
    · simp [List.findSome?_append, hnone, HeapMove.nowMs?]
    · simp [hreadings, hstale, HeapMove.readings]
    · simp [hopened, hstale]
  | false =>
    obtain ⟨first, hfirst, htiles, hreadings⟩ := h.tiles hpending
    refine ⟨p, ⟨⟨h.stale, h.old, h.earlier, by simp, fun _ => ⟨first, ?_, htiles, ?_⟩⟩, by simp,
      by simp⟩, .refl rfl⟩
    · simp [List.findSome?_append, hfirst]
    · simp [hreadings, HeapMove.readings]

/-- The end of a `tick` that closes no bucket. -/
theorem Account.leave {now : U32} (h : Account before since (.sampled now) l p) (utcNow : U32) :
    Account before (since ++ [.close utcNow]) .idle l p := by
  refine ⟨⟨h.stale, h.old, h.earlier, fun hpending => ?_, fun hpending => ?_⟩, by simp, by simp⟩
  · obtain ⟨hnone, hsince, hreadings⟩ := h.waiting hpending
    refine ⟨?_, hsince, ?_⟩
    · simp [List.findSome?_append, hnone, HeapMove.nowMs?]
    · simp [hreadings, HeapMove.readings]
  · obtain ⟨first, hfirst, htiles, hreadings⟩ := h.tiles hpending
    refine ⟨first, ?_, htiles, ?_⟩
    · simp [List.findSome?_append, hfirst]
    · simp [hreadings, HeapMove.readings]

/-- The end of a `tick` that closes the open bucket: the one from before, or one of those since. -/
theorem Account.close {now : U32} (h : Account before since (.sampled now) l p) (utcNow : U32)
    {b : Bucket} (hstart : b.startMs = l.startMs) (hreadings : b.readings = l.opened) :
    ∃ p', Account before (since ++ [.close utcNow]) .idle
        { l with startMs := b.closeMs, opened := [], closed := l.closed ++ [b] } p' ∧
      Adds (.sampled now) l
        { l with startMs := b.closeMs, opened := [], closed := l.closed ++ [b] } p p' := by
  have hleave := h.leave utcNow
  cases hpending : l.pending with
  | true =>
    obtain ⟨hold, hbefore, hopened⟩ := h.busy hpending (by simp)
    have hblocks : p.blocks = [] := (List.append_eq_nil_iff.1 (h.waiting hpending).2.1).2
    refine ⟨{ p with old := [b] }, ⟨⟨h.stale, by simp, ?_, fun _ => hleave.waiting hpending, by simp⟩,
      by simp, by simp⟩, rfl, fun hclosed => ?_, by simp [hpending]⟩
    · intro b' hb'
      rw [List.mem_singleton.1 hb']
      exact ⟨hstart.trans hbefore, hreadings.trans hopened⟩
    · simp [hclosed, hold, hblocks]
  | false =>
    obtain ⟨first, hfirst, htiles, hall⟩ := hleave.tiles hpending
    have hsince : Parts.since { p with blocks := p.blocks ++ [b] } = p.since ++ [b] :=
      (List.append_assoc p.gone p.blocks [b]).symm
    refine ⟨{ p with blocks := p.blocks ++ [b] }, ⟨⟨h.stale, h.old, h.earlier, by simp,
      fun _ => ⟨first, hfirst, ?_, ?_⟩⟩, by simp, by simp⟩, rfl, fun hclosed => by simp [hclosed],
      fun _ => ⟨rfl, rfl⟩⟩
    · rw [hsince]
      exact htiles.concat hstart
    · rw [hsince, hall]
      simp [hreadings]

/-- **Step lemma.** Without another clear, a step keeps the account. -/
theorem Account.step (h : Account before since s.tick l p) (href : s.Refines l) (hm : m ≠ .storeFlag)
    (hm' : m ≠ .clearRing) (hs : s.step m = some s') :
    ∃ p', Account before (since ++ [m]) s'.tick (l.step m) p' ∧ Adds s.tick l (l.step m) p p' := by
  obtain ⟨now, rfl, hidle, -, -⟩ | ⟨now, r, rfl, hdue, rfl⟩ | ⟨now, utcNow, rfl, hbusy, rfl⟩ |
    ⟨rfl, -⟩ | ⟨rfl, -⟩ := step_cases hs
  · rw [hidle] at h
    refine ⟨p, h.check now, .refl ?_⟩
    unfold HeapBuckets.step
    split_ifs <;> rfl
  · rw [hdue] at h ⊢
    exact h.read r
  · have hcases := href.close_cases hbusy utcNow
    rw [hbusy] at h ⊢
    obtain ⟨hsame, -⟩ | ⟨b, -, -, hstart, hreadings, hnext, -⟩ := hcases
    · rw [hsame]
      exact ⟨p, h.leave utcNow, .refl rfl⟩
    · rw [hnext]
      exact h.close utcNow hstart hreadings
  · exact absurd rfl hm
  · exact absurd rfl hm'

/-- Between two ticks, or with notice taken, the main loop stays so. -/
theorem settled_step (h : l.pending = true → s.tick = .idle) (hm : m ≠ .storeFlag)
    (hs : s.step m = some s') : (l.step m).pending = true → s'.tick = .idle := by
  obtain ⟨now, rfl, -, -, -⟩ | ⟨now, r, rfl, hdue, rfl⟩ | ⟨now, utcNow, rfl, hbusy, rfl⟩ |
    ⟨rfl, -⟩ | ⟨rfl, rfl⟩ := step_cases hs
  · cases hpending : l.pending <;> simp [HeapBuckets.step, hpending]
  · intro hpending
    rw [h hpending] at hdue
    cases hdue
  · exact fun _ => rfl
  · exact absurd rfl hm
  · exact h

theorem settled_run {moves : List HeapMove} (h : l.pending = true → s.tick = .idle)
    (hm : .storeFlag ∉ moves) (hs : s.run moves = some s') :
    (exec HeapBuckets.step l moves).pending = true → s'.tick = .idle := by
  induction moves generalizing s l with
  | nil => exact Option.some.inj hs ▸ h
  | cons m moves ih =>
    rw [run_cons, Option.bind_eq_some_iff] at hs
    obtain ⟨t, ht, hs⟩ := hs
    rw [List.mem_cons, not_or] at hm
    exact ih (settled_step h (Ne.symm hm.1) ht) hm.2 hs

/-- The end of a clear, of this task or of another. -/
theorem Account.clearRing {tick : Tick} (h : Account before since tick l p) :
    Account before (since ++ [.clearRing]) tick (l.step .clearRing)
      { p with old := [], gone := p.since, blocks := [] } := by
  have hsince : Parts.since { p with old := [], gone := p.since, blocks := [] } = p.since :=
    List.append_nil _
  refine ⟨⟨h.stale, by simp, by simp, fun hpending => ?_, fun hpending => ?_⟩,
    fun hpending hbusy => ⟨rfl, (h.busy hpending hbusy).2⟩, h.due⟩
  · obtain ⟨hnone, hnil, hreadings⟩ := h.waiting hpending
    refine ⟨?_, hsince.trans hnil, ?_⟩
    · simp [List.findSome?_append, hnone, HeapMove.nowMs?]
    · simp [hreadings, HeapMove.readings]
  · obtain ⟨first, hfirst, htiles, hreadings⟩ := h.tiles hpending
    refine ⟨first, ?_, ?_, ?_⟩
    · simp [List.findSome?_append, hfirst]
    · rw [hsince]
      exact htiles
    · rw [hsince, List.flatMap_append, hreadings]
      simp [HeapMove.readings, HeapBuckets.step]

/-- During a clear, other tasks may end theirs. -/
theorem Account.during {moves : List HeapMove} (h : Account before since s.tick l p) (href : s.Refines l)
    (hm : .storeFlag ∉ moves) (hs : s.run moves = some s') :
    ∃ p', Account before (since ++ moves) s'.tick (exec HeapBuckets.step l moves) p' := by
  induction moves generalizing s l since p with
  | nil => exact ⟨p, by simpa using Option.some.inj hs ▸ h⟩
  | cons m moves ih =>
    rw [run_cons, Option.bind_eq_some_iff] at hs
    obtain ⟨t, ht, hs⟩ := hs
    rw [List.mem_cons, not_or] at hm
    obtain ⟨p₁, h₁⟩ : ∃ p₁, Account before (since ++ [m]) t.tick (l.step m) p₁ := by
      by_cases hclear : m = .clearRing
      · subst hclear
        obtain rfl := Option.some.inj ht
        exact ⟨_, h.clearRing⟩
      · obtain ⟨p₁, h₁, -⟩ := h.step href (Ne.symm hm.1) hclear ht
        exact ⟨p₁, h₁⟩
    obtain ⟨p', h'⟩ := ih h₁ (refines_step href ht) hm.2 hs
    exact ⟨p', by simpa using h'⟩

/-- **Run lemma.** After the clear, without another. -/
theorem Account.after {moves : List HeapMove} (h : Account before since s.tick l p) (href : s.Refines l)
    (hclosed : l.closed = p.old ++ p.blocks) (hm : .storeFlag ∉ moves) (hm' : .clearRing ∉ moves)
    (hs : s.run moves = some s') :
    ∃ p', Account before (since ++ moves) s'.tick (exec HeapBuckets.step l moves) p' ∧
      (exec HeapBuckets.step l moves).closed = p'.old ++ p'.blocks ∧ p'.gone = p.gone ∧
      ((l.pending = true → s.tick = .idle) → p'.old = p.old ∧ p'.stale = p.stale) := by
  induction moves generalizing s l since p with
  | nil =>
    obtain rfl := Option.some.inj hs
    exact ⟨p, by simpa using h, hclosed, rfl, fun _ => ⟨rfl, rfl⟩⟩
  | cons m moves ih =>
    rw [run_cons, Option.bind_eq_some_iff] at hs
    obtain ⟨t, ht, hs⟩ := hs
    rw [List.mem_cons, not_or] at hm hm'
    obtain ⟨p₁, h₁, hadds⟩ := h.step href (Ne.symm hm.1) (Ne.symm hm'.1) ht
    obtain ⟨p', h', hclosed', hgone, hsettled⟩ :=
      ih h₁ (refines_step href ht) (hadds.closed hclosed) hm.2 hm'.2 hs
    refine ⟨p', by simpa using h', hclosed', hgone.trans hadds.gone, fun hidle => ?_⟩
    obtain ⟨hold, hstale⟩ := hsettled (settled_step hidle (Ne.symm hm.1) ht)
    obtain ⟨hold', hstale'⟩ := hadds.settled hidle
    exact ⟨hold.trans hold', hstale.trans hstale'⟩

/-- The stale reading and the closed buckets are of the readings since the clear began. -/
theorem Covers.dropped (h : Covers before since l p) :
    p.stale ++ p.since.flatMap Bucket.readings <+: since.flatMap HeapMove.readings := by
  cases hpending : l.pending with
  | true =>
    obtain ⟨-, hnil, hreadings⟩ := h.waiting hpending
    simp [hnil, hreadings]
  | false =>
    obtain ⟨-, -, -, hreadings⟩ := h.tiles hpending
    rw [hreadings]
    exact List.prefix_append _ _

/-- **The history after a clear.**  Let a task's clear begin and end, and no other begin after it.  The
rows of the history are of the last buckets closed since, each the worst of its readings over at least
a minute.  The buckets follow each other from the first `tick` after the clear has begun on, and with
the open one they have all readings made since, but for a stale one and for the buckets that were
closed during the clear; at most one row is of the bucket that was open before.  If the main loop has
been between two ticks during the clear, then there is no such row, and all that is not in the history
was read during the clear. -/
theorem history_after_clear {pre mid post : List HeapMove} {s : HeapTasks}
    (hrun : HeapTasks.run {} (pre ++ .storeFlag :: (mid ++ .clearRing :: post)) = some s)
    (hmid : .storeFlag ∉ mid) (hpost : .storeFlag ∉ post) (hlast : .clearRing ∉ post)
    (hfew : post.countP HeapMove.closes < 2 ^ 32) :
    let l := buckets (pre ++ .storeFlag :: (mid ++ .clearRing :: post))
    s.Refines l ∧ List.Forall₂ Bucket.Shows (l.closed.reverse.take CAP) (s.monitor.snapshot CAP) ∧
      ∃ p, l.closed = p.old ++ p.blocks ∧ Covers (buckets pre) (mid ++ .clearRing :: post) l p ∧
        (p.gone = [] ∨
          p.stale ++ p.gone.flatMap Bucket.readings <+: mid.flatMap HeapMove.readings) ∧
        ((∃ a b t, mid = a ++ b ∧ HeapTasks.run {} (pre ++ .storeFlag :: a) = some t ∧
            t.tick = .idle) →
          p.old = [] ∧
            p.stale ++ p.gone.flatMap Bucket.readings <+: mid.flatMap HeapMove.readings) := by
  intro l
  rw [run_append, Option.bind_eq_some_iff] at hrun
  obtain ⟨s₀, hs₀, hrun⟩ := hrun
  rw [run_cons, Option.bind_eq_some_iff] at hrun
  obtain ⟨s₁, hs₁, hrun⟩ := hrun
  rw [run_append, Option.bind_eq_some_iff] at hrun
  obtain ⟨s₂, hs₂, hrun⟩ := hrun
  rw [run_cons, Option.bind_eq_some_iff] at hrun
  obtain ⟨s₃, hs₃, hrun⟩ := hrun
  have href₀ : s₀.Refines (buckets pre) := refines_run refines_init hs₀
  have href₁ := refines_step href₀ hs₁
  have href₂ := refines_run href₁ hs₂
  have href₃ := refines_step href₂ hs₃
  have hl : l = exec HeapBuckets.step ((exec HeapBuckets.step ((buckets pre).step .storeFlag) mid).step
      .clearRing) post := by
    simp [l, buckets_append, exec_append]
  obtain ⟨p₂, h₂⟩ := (account_storeFlag (buckets pre) s₁.tick).during href₁ hmid hs₂
  rw [List.nil_append] at h₂
  have htick : s₃.tick = s₂.tick := by rw [← Option.some.inj hs₃]
  have hring : s₃.monitor.ring = s₂.monitor.ring.clear := by rw [← Option.some.inj hs₃]
  have h₃ := h₂.clearRing
  rw [← htick] at h₃
  obtain ⟨p, h, hclosed, hgone, hkept⟩ := h₃.after href₃ rfl hpost hlast hrun
  have hrec := recorded_run href₃ (hring ▸ ⟨[], Ring.holds_clear _, .nil⟩)
    (by simpa [HeapBuckets.step] using hfew) hrun
  rw [← hl] at h hclosed hrec
  have hsettled (hidle : (exec HeapBuckets.step ((buckets pre).step .storeFlag) mid).pending = true →
      s₂.tick = .idle) : p.old = [] ∧
        p.stale ++ p.gone.flatMap Bucket.readings <+: mid.flatMap HeapMove.readings := by
    obtain ⟨hold, hstale⟩ := hkept fun hpending => htick.trans (hidle hpending)
    rw [hstale, hgone]
    exact ⟨hold, h₂.dropped⟩
  refine ⟨hl ▸ refines_run href₃ hrun, hrec.snapshot, p, hclosed, by simpa using h.toCovers, ?_, ?_⟩
  · cases hpending : (exec HeapBuckets.step ((buckets pre).step .storeFlag) mid).pending with
    | true => exact Or.inl (hgone.trans (h₂.waiting hpending).2.1)
    | false => exact Or.inr (hsettled (by simp [hpending])).2
  · rintro ⟨a, b, t, rfl, ha, hidle⟩
    rw [run_append, hs₀, Option.bind_some, run_cons, hs₁, Option.bind_some] at ha
    rw [run_append, ha, Option.bind_some] at hs₂
    refine hsettled ?_
    rw [exec_append]
    exact settled_run (fun _ => hidle) (fun hmem => hmid (List.mem_append_right a hmem)) hs₂

/-- A tick, of which all values read are `n`. -/
def oneTick (now n : U32) : List HeapMove := [.check now, .read ⟨n, n, n, n⟩, .close 0]

theorem history_after_clear_quiet :
    ∃ s, HeapTasks.run {} (oneTick 1000 9 ++
          .storeFlag :: ([] ++ .clearRing :: (oneTick 62000 20 ++ oneTick 125000 30))) = some s ∧
      let l := buckets (oneTick 1000 9 ++
        .storeFlag :: ([] ++ .clearRing :: (oneTick 62000 20 ++ oneTick 125000 30)))
      s.Refines l ∧ List.Forall₂ Bucket.Shows (l.closed.reverse.take CAP) (s.monitor.snapshot CAP) ∧
        ∃ p, l.closed = p.old ++ p.blocks ∧
          Covers (buckets (oneTick 1000 9))
            ([] ++ .clearRing :: (oneTick 62000 20 ++ oneTick 125000 30)) l p ∧
          (p.gone = [] ∨ p.stale ++ p.gone.flatMap Bucket.readings <+:
            ([] : List HeapMove).flatMap HeapMove.readings) ∧
          ((∃ a b t, ([] : List HeapMove) = a ++ b ∧
              HeapTasks.run {} (oneTick 1000 9 ++ .storeFlag :: a) = some t ∧ t.tick = .idle) →
            p.old = [] ∧ p.stale ++ p.gone.flatMap Bucket.readings <+:
              ([] : List HeapMove).flatMap HeapMove.readings) :=
  ⟨_, rfl, history_after_clear rfl (by simp) (by simp [oneTick]) (by simp [oneTick]) (by decide)⟩

-- the tick has exchanged the flag when the clear begins, and records the 9 when it has ended
example :
    (HeapTasks.run {} (oneTick 1000 9 ++ [.check 61000, .storeFlag, .clearRing,
      .read ⟨20, 20, 20, 20⟩, .close 0])).map
        (fun s => (s.monitor.snapshot CAP).map (·.minInternalFree)) = some [9] := rfl

end HeapTasks

end Pumpbug.Diagnostics
