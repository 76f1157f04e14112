import Pumpbug.Lib.Ring
import Pumpbug.Num

/-!
# The heap monitor

`HeapMonitor.cpp`: each pass of the main loop may read the heap, and once a minute a bucket with the
worst of its readings goes to the history.  `clearHistory` runs on any task, so each access to what
the tasks share is a step: the exchange of the flag and the push of `tick`, the store of the flag and
the clear of the ring of `clearHistory`.
-/

namespace Pumpbug.Diagnostics

open Lib

/-- What the allocator reports. -/
structure HeapReading where
  internalFree : U32
  internalLargest : U32
  dmaLargest : U32
  psramFree : U32
  deriving DecidableEq

structure HeapSample where
  ms : U32 := 0
  utcSec : U32 := 0
  minInternalFree : U32 := 0
  minInternalLargest : U32 := 0
  minDmaLargest : U32 := 0
  minPsramFree : U32 := 0
  deriving DecidableEq

def CAP : ℕ := 30

instance : NeZero CAP := ⟨by decide⟩

def SAMPLE_MS : U32 := 1000
def BUCKET_MS : U32 := 60000

def UINT32_MAX : U32 := BitVec.allOnes 32

/-- The accumulators of a fresh bucket. -/
def freshAcc : HeapReading := ⟨UINT32_MAX, UINT32_MAX, UINT32_MAX, UINT32_MAX⟩

structure HeapMonitor where
  ring : Ring HeapSample CAP := { items := fun _ => {}, writes := 0 }
  bucketStartMs : U32 := 0
  lastSampleMs : U32 := 0
  /-- `_accInternalFree`, `_accInternalLargest`, `_accDmaLargest` and `_accPsramFree`. -/
  acc : HeapReading := freshAcc
  clearBucket : Bool := false

/-- The reading taken into the running minima. -/
def HeapReading.foldInto (acc r : HeapReading) : HeapReading where
  internalFree := if r.internalFree < acc.internalFree then r.internalFree else acc.internalFree
  internalLargest :=
    if r.internalLargest < acc.internalLargest then r.internalLargest else acc.internalLargest
  dmaLargest := if r.dmaLargest < acc.dmaLargest then r.dmaLargest else acc.dmaLargest
  psramFree := if r.psramFree < acc.psramFree then r.psramFree else acc.psramFree

namespace HeapMonitor

def resetBucket (h : HeapMonitor) (now : U32) : HeapMonitor :=
  { h with bucketStartMs := now, acc := freshAcc }

/-- The exchange of the flag, and what follows from it. -/
def consumeClear (h : HeapMonitor) (now : U32) : HeapMonitor :=
  if h.clearBucket then { h.resetBucket now with clearBucket := false } else h

def rateLimited (h : HeapMonitor) (now : U32) : Bool :=
  h.lastSampleMs ≠ 0 && now - h.lastSampleMs < SAMPLE_MS

def sample (h : HeapMonitor) (now : U32) (r : HeapReading) : HeapMonitor :=
  { h with lastSampleMs := now, acc := h.acc.foldInto r }

/-- The bucket closes once it has spanned `BUCKET_MS`. -/
def closeBucket (h : HeapMonitor) (now utcNow : U32) : HeapMonitor :=
  if BUCKET_MS ≤ now - h.bucketStartMs then
    let s : HeapSample := {
      ms := now
      utcSec := utcNow
      minInternalFree := h.acc.internalFree
      minInternalLargest := h.acc.internalLargest
      minDmaLargest := h.acc.dmaLargest
      minPsramFree := h.acc.psramFree }
    { h with ring := h.ring.push s }.resetBucket now
  else h

def tick (h : HeapMonitor) (now : U32) (r : HeapReading) (utcNow : U32) : HeapMonitor :=
  let h := h.consumeClear now
  if h.rateLimited now then h else (h.sample now r).closeBucket now utcNow

def clearHistory (h : HeapMonitor) : HeapMonitor :=
  { h with clearBucket := true, ring := h.ring.clear }

def snapshot (h : HeapMonitor) (max : ℕ) : List HeapSample := h.ring.snapshot max

end HeapMonitor

/-! ## The tasks -/

/-- Where the main loop stands. -/
inductive Tick where
  | idle
  /-- The flag is exchanged, the heap not read. -/
  | due (now : U32)
  /-- The heap is read, the bucket not closed. -/
  | sampled (now : U32)
  deriving DecidableEq

structure HeapTasks where
  monitor : HeapMonitor := {}
  tick : Tick := .idle

inductive HeapMove where
  /-- The main loop begins a `tick`. -/
  | check (now : U32)
  | read (r : HeapReading)
  | close (utcNow : U32)
  /-- A task begins a `clearHistory`. -/
  | storeFlag
  /-- It ends it. -/
  | clearRing
  deriving DecidableEq

/-- The heap reading of a move. -/
def HeapMove.readings : HeapMove → List HeapReading
  | .read r => [r]
  | _ => []

def HeapMove.closes : HeapMove → Bool
  | .close _ => true
  | _ => false

namespace HeapTasks

/-- None if the main loop stands elsewhere. -/
def step (s : HeapTasks) : HeapMove → Option HeapTasks
  | .check now =>
    match s.tick with
    | .idle =>
      let h := s.monitor.consumeClear now
      some { monitor := h, tick := if h.rateLimited now then .idle else .due now }
    | _ => none
  | .read r =>
    match s.tick with
    | .due now => some { monitor := s.monitor.sample now r, tick := .sampled now }
    | _ => none
  | .close utcNow =>
    match s.tick with
    | .sampled now => some { monitor := s.monitor.closeBucket now utcNow, tick := .idle }
    | _ => none
  | .storeFlag => some { s with monitor := { s.monitor with clearBucket := true } }
  | .clearRing => some { s with monitor := { s.monitor with ring := s.monitor.ring.clear } }

def run (s : HeapTasks) (moves : List HeapMove) : Option HeapTasks := moves.foldlM step s

@[simp] theorem run_nil (s : HeapTasks) : s.run [] = some s := rfl

theorem run_cons (s : HeapTasks) (m : HeapMove) (moves : List HeapMove) :
    s.run (m :: moves) = (s.step m).bind fun s => s.run moves := rfl

theorem run_append (s : HeapTasks) (l l' : List HeapMove) :
    s.run (l ++ l') = (s.run l).bind fun s => s.run l' := List.foldlM_append

theorem run_concat {s s' : HeapTasks} {moves : List HeapMove} {m : HeapMove}
    (h : s.run (moves ++ [m]) = some s') : ∃ t, s.run moves = some t ∧ t.step m = some s' := by
  rw [run_append, Option.bind_eq_some_iff] at h
  obtain ⟨t, ht, hm⟩ := h
  rw [run_cons, Option.bind_eq_some_iff] at hm
  obtain ⟨t', ht', heq⟩ := hm
  rw [run_nil, Option.some.injEq] at heq
  exact ⟨t, ht, heq ▸ ht'⟩

theorem run_clearHistory (s : HeapTasks) :
    s.run [.storeFlag, .clearRing] = some { s with monitor := s.monitor.clearHistory } := rfl

/-- A `tick` that no other task interrupts. -/
theorem run_tick (h : HeapMonitor) (now : U32) (r : HeapReading) (utcNow : U32) :
    ({ monitor := h } : HeapTasks).run
        (if (h.consumeClear now).rateLimited now then [.check now]
        else [.check now, .read r, .close utcNow]) =
      some { monitor := h.tick now r utcNow } := by
  rw [HeapMonitor.tick]
  by_cases hlimit : (h.consumeClear now).rateLimited now
  · rw [if_pos hlimit, if_pos hlimit, run_cons, step]
    simp [hlimit]
  · rw [if_neg hlimit, if_neg hlimit, run_cons, step]
    simp [hlimit, run_cons, step]

end HeapTasks

end Pumpbug.Diagnostics
