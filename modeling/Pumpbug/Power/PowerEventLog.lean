import Pumpbug.Num
import Pumpbug.Lib.Run

/-!
# The power event log

`PowerEventLog` keeps the last events in a ring, writes the ring to flash behind every change, and
reads it back at boot.  A flash call that fails leaves what is stored.  The mutex makes each
operation one step.
-/

namespace Pumpbug.Power

open Lib

/-! ## Events -/

structure PowerBootDiagnostics where
  flags : U16 := 0
  pm1WakeSource : U8 := 0
  pm1GpioIrq : U8 := 0
  pm1I2cConfig : U8 := 0
  deriving DecidableEq

structure PowerSleepDiagnostics where
  flags : U8 := 0
  pm1I2cConfig : U8 := 0
  deriving DecidableEq

inductive PowerEventKind where
  | wake | sleep
  deriving DecidableEq

def PowerEventKind.toByte : PowerEventKind → U8
  | wake => 0
  | sleep => 1

structure PowerEvent where
  /-- Wall-clock epoch seconds, or 0 if the clock was unset. -/
  utcSec : U32 := 0
  kind : U8 := 0
  /-- 0 to 100, or -1 if the reading failed. -/
  batteryPct : BitVec 8 := 0
  hasExternalPower : U8 := 0
  resetReason : U8 := 0
  boot : PowerBootDiagnostics := {}
  sleep : PowerSleepDiagnostics := {}
  deriving DecidableEq

/-- The arguments of `record`. -/
structure Entry where
  kind : PowerEventKind
  batteryPct : ℤ := 0
  hasExternalPower : Bool := false
  utcSec : U32 := 0
  resetReason : U8 := 0
  boot : PowerBootDiagnostics := {}
  sleep : PowerSleepDiagnostics := {}
  deriving DecidableEq

/-- What `record` puts in the slot. -/
def Entry.event (e : Entry) : PowerEvent where
  utcSec := e.utcSec
  kind := e.kind.toByte
  batteryPct :=
    if e.batteryPct < 0 then -1 else BitVec.ofInt 8 (if 100 < e.batteryPct then 100 else e.batteryPct)
  hasExternalPower := if e.hasExternalPower then 1 else 0
  resetReason := e.resetReason
  boot := if e.kind = .wake then e.boot else {}
  sleep := if e.kind = .sleep then e.sleep else {}

/-! ## Flash -/

def kVersion : U8 := 4
def CAP : ℕ := 32

structure Persisted where
  version : U8
  writes : U32
  items : List PowerEvent
  deriving DecidableEq

/-- What the key `ring` holds. -/
inductive Blob where
  | ring (p : Persisted)
  /-- A value of another size. -/
  | other
  deriving DecidableEq

/-- How the flash answers one operation: whether the namespace opens, and whether the call behind it
succeeds. -/
structure Nvs where
  opens : Bool := true
  succeeds : Bool := true
  deriving DecidableEq

def Nvs.ok (n : Nvs) : Bool := n.opens && n.succeeds

/-! ## The log -/

structure PowerEventLog where
  items : List PowerEvent := List.replicate CAP {}
  writes : U32 := 0
  revision : U32 := 0
  deriving DecidableEq

namespace PowerEventLog

/-- A missing key or a version or size mismatch leaves the log empty. -/
def begin (l : PowerEventLog) (stored : Option Blob) (n : Nvs) : PowerEventLog :=
  if !n.opens then l
  else if !n.succeeds then l
  else
    match stored with
    | some (.ring p) =>
      if p.version ≠ kVersion then l else { l with writes := p.writes, items := p.items }
    | some .other | none => l

def persist (l : PowerEventLog) (stored : Option Blob) (n : Nvs) : Option Blob × Bool :=
  let p : Persisted := { version := kVersion, writes := l.writes, items := l.items }
  if !n.opens then (stored, false)
  else if n.succeeds then (some (.ring p), true)
  else (stored, false)

def record (l : PowerEventLog) (stored : Option Blob) (e : Entry) (n : Nvs) :
    PowerEventLog × Option Blob :=
  let l := { l with
    items := l.items.set (l.writes.toNat % CAP) e.event
    writes := l.writes + 1
    revision := l.revision + 1 }
  (l, (l.persist stored n).1)

/-- The slot of the newest event. -/
def newest (l : PowerEventLog) : ℕ := (l.writes - 1).toNat % CAP

def backfillLatestWakeTimestamp (l : PowerEventLog) (stored : Option Blob) (utcSec : U32) (n : Nvs) :
    PowerEventLog × Option Blob × Bool :=
  if utcSec = 0 then (l, stored, false)
  else if l.writes = 0 then (l, stored, false)
  else
    let latest := l.items.getD l.newest {}
    if latest.kind = PowerEventKind.wake.toByte ∧ latest.utcSec = 0 then
      let l' := { l with items := l.items.set l.newest { latest with utcSec := utcSec } }
      let (stored, ok) := l'.persist stored n
      if ok then ({ l' with revision := l'.revision + 1 }, stored, true)
      else ({ l' with items := l'.items.set l.newest { latest with utcSec := 0 } }, stored, false)
    else (l, stored, false)

def clear (l : PowerEventLog) (stored : Option Blob) (n : Nvs) : PowerEventLog × Option Blob × Bool :=
  let l := { l with writes := 0, items := List.replicate CAP {}, revision := l.revision + 1 }
  if n.opens then
    if n.succeeds then (l, none, true) else (l, stored, false)
  else (l, stored, false)

/-- Newest first, at most `max`. -/
def snapshot (l : PowerEventLog) (max : ℕ) : List PowerEvent :=
  let w := l.writes
  let count := if w.toNat < CAP then w.toNat else CAP
  let n := if count < max then count else max
  (List.range n).map fun i => l.items.getD ((w - 1 - BitVec.ofNat 32 i).toNat % CAP) {}

end PowerEventLog

/-! ## The device -/

/-- The log, and what is stored. -/
structure Device where
  log : PowerEventLog := {}
  stored : Option Blob := none
  deriving DecidableEq

inductive Op where
  | record (e : Entry) (n : Nvs)
  | backfill (utcSec : U32) (n : Nvs)
  | clear (n : Nvs)
  /-- The memory is lost, and `begin` runs. -/
  | reboot (n : Nvs)
  deriving DecidableEq

namespace Device

def step (d : Device) : Op → Device
  | .record e n => let r := d.log.record d.stored e n; ⟨r.1, r.2⟩
  | .backfill utcSec n => let r := d.log.backfillLatestWakeTimestamp d.stored utcSec n; ⟨r.1, r.2.1⟩
  | .clear n => let r := d.log.clear d.stored n; ⟨r.1, r.2.1⟩
  | .reboot n => ⟨PowerEventLog.begin {} d.stored n, d.stored⟩

/-- A new device after the operations `h`. -/
def after (h : List Op) : Device := exec step {} h

/-- The operation writes the log to flash. -/
def persists (d : Device) : Op → Bool
  | .record _ n => n.ok
  | .backfill utcSec n => (d.log.backfillLatestWakeTimestamp d.stored utcSec n).2.2
  | .clear _ | .reboot _ => false

end Device

/-- A clear that returns true. -/
def Op.wipes : Op → Bool
  | .clear n => n.ok
  | _ => false

end Pumpbug.Power
