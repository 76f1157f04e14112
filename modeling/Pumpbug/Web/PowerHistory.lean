import Pumpbug.Lib.Run
import Pumpbug.Power.PowerPages

/-!
# The web client's power history

`loadPowerLog` in the logs' `api.js`, with the caller that keeps what it returns: the first page, then
the other pages unless the history is known, each of which must be of the log that the first is of.
The device goes on between the pages.
-/

namespace Pumpbug.Power

open Lib

/-- `powerHistory`. -/
structure PowerHistory where
  writes : ℚ
  total : ℚ
  firstPageKey : List PowerRow
  liveKey : Option LiveRow
  entries : List PowerRow
  deriving DecidableEq

/-- How far `loadPowerLog` is. -/
inductive PowerLoad where
  | idle
  /-- It waits for the first page. -/
  | first
  /-- It has some entries, and waits for the page at `next`. -/
  | page (body : PowerPage) (entries : List PowerRow) (next : ℚ)
  deriving DecidableEq

structure PowerLogs where
  powerHistory : Option PowerHistory := none
  load : PowerLoad := .idle
  /-- The last load returned data. -/
  succeeded : Bool := false
  /-- `logs.power`. -/
  shown : Option PowerPage := none
  deriving DecidableEq

namespace PowerLogs

def poll (c : PowerLogs) : PowerLogs := { c with load := .first, succeeded := false }

/-- A load that returns no data leaves the view. -/
def fail (c : PowerLogs) : PowerLogs := { c with load := .idle, succeeded := false }

/-- On with the next page, or the end. -/
def more (c : PowerLogs) (body : PowerPage) (entries : List PowerRow) (next : Option ℚ) : PowerLogs :=
  match next with
  | some next => { c with load := .page body entries next }
  | none =>
    { load := .idle
      succeeded := true
      shown := some { body with entries := entries, nextOffset := none }
      powerHistory := some {
        writes := body.writes
        total := body.total
        firstPageKey := body.entries
        liveKey := body.live
        entries := entries } }

def receiveFirst (c : PowerLogs) (body : PowerPage) : PowerLogs :=
  match c.powerHistory with
  | some h =>
    if h.writes = body.writes ∧ h.total = body.total ∧ h.firstPageKey = body.entries then
      { load := .idle
        succeeded := true
        shown :=
          if h.liveKey ≠ body.live then some { body with entries := h.entries, nextOffset := none }
          else c.shown
        powerHistory := some { h with liveKey := body.live } }
    else c.more body body.entries body.nextOffset
  | none => c.more body body.entries body.nextOffset

/-- A response arrives; none is one without a page. -/
def receive (c : PowerLogs) (response : Option PowerPage) : PowerLogs :=
  match c.load, response with
  | .idle, _ => c
  | _, none => c.fail
  | .first, some body => c.receiveFirst body
  | .page body entries next, some page =>
    if page.writes ≠ body.writes ∨ page.total ≠ body.total ∨ page.offset ≠ next then c.fail
    else c.more body (entries ++ page.entries) page.nextOffset

/-- The offset that the load waits for. -/
def asks (c : PowerLogs) : Option ℚ :=
  match c.load with
  | .idle => none
  | .first => some 0
  | .page _ _ next => some next

end PowerLogs

/-! ## The client and the device -/

/-- The number in the text of the argument. -/
def asOffset (q : ℚ) : Option ℕ := if q.den = 1 ∧ 0 ≤ q then some q.num.toNat else none

/-- The device's answer to a request for the page at `q`. -/
def answer (l : PowerEventLog) (battery : LiveStatus) (q : ℚ) : Option PowerPage := do
  let offset ← asOffset q
  let calls ← servePower l battery offset
  arrived calls

structure PowerSystem where
  device : Device
  client : PowerLogs := {}
  request : Option ℚ := none
  /-- A response on its way. -/
  response : Option (Option PowerPage) := none

inductive PowerMove
  | device (op : Op)
  | poll
  | serve (battery : LiveStatus)
  | receive
  /-- The request or its response is lost. -/
  | lose
  /-- The client has cleared the log. -/
  | forget

namespace PowerSystem

/-- The client goes on. -/
def goOn (s : PowerSystem) (client : PowerLogs) : PowerSystem :=
  { s with client := client, request := client.asks, response := none }

def step (s : PowerSystem) : PowerMove → PowerSystem
  | .device op => { s with device := s.device.step op }
  -- a poll during a load runs after it
  | .poll => if s.client.load = .idle then s.goOn s.client.poll else s
  | .serve battery =>
    match s.request with
    | none => s
    | some q => { s with request := none, response := some (answer s.device.log battery q) }
  | .receive =>
    match s.response with
    | none => s
    | some response => s.goOn (s.client.receive response)
  | .lose => s.goOn (s.client.receive none)
  | .forget => { s with client := { s.client with powerHistory := none } }

def run (device : Device) (moves : List PowerMove) : PowerSystem := exec step { device := device } moves

end PowerSystem

end Pumpbug.Power
