import Mathlib.Data.List.Nodup
import Pumpbug.Lib.Clock
import Pumpbug.Num

/-!
# The event-stream server

`SseServer.cpp` and the ticket route of `ExtractionStream.cpp`.  The port-80 task serves one ticket
request after the other: ask the running session to stop, mint a ticket.  The port-81 task serves
one session after the other: consume a ticket, clear a leftover stop reason, run the session, end
it.  A step is one access to what the two tasks share.
-/

namespace Pumpbug.Net

inductive StopReason where
  | none | replaced | shutdown | sleeping
  deriving DecidableEq

def kTicketTtlMs : U32 := 30000

/-- What the two tasks share. -/
structure SseServer where
  ticketToken : String := ""
  ticketMintedMs : U32 := 0
  ticketConsumed : Bool := true
  stopReason : StopReason := .none
  shouldRun : Bool := true
  sessionActive : Bool := false
  deriving DecidableEq

namespace SseServer

/-- The locked part of `mintTicket`, for a fresh random token. -/
def mintTicket (s : SseServer) (token : String) (millis : U32) : SseServer :=
  { s with ticketToken := token, ticketMintedMs := millis, ticketConsumed := false }

/-- `_consumeTicket`: the server afterwards, and whether the client is admitted. -/
def consumeTicket (s : SseServer) (token : String) (millis : U32) : SseServer × Bool :=
  if token = "" then (s, false)
  else if s.ticketConsumed then (s, false)
  else if s.ticketToken = "" then (s, false)
  else if kTicketTtlMs < millis - s.ticketMintedMs then ({ s with ticketConsumed := true }, false)
  else if s.ticketToken ≠ token then (s, false)
  else ({ s with ticketConsumed := true, ticketToken := "" }, true)

def forceStopActiveSession (s : SseServer) : SseServer := { s with stopReason := .replaced }

def isSessionStopRequested (s : SseServer) : Bool := s.stopReason ≠ .none || !s.shouldRun

/-- `compare_exchange_strong` on the stop reason, with `none` as the new value. -/
def clearStopReason (s : SseServer) (expected : StopReason) : SseServer :=
  if s.stopReason = expected then { s with stopReason := .none } else s

/-- The event of the last frame that a session's client gets. -/
def finalEvent (s : SseServer) (connected : Bool) : Option String :=
  if !connected then none
  else
    match s.stopReason with
    | .replaced => some "replaced"
    | .sleeping => some "sleeping"
    | _ => none

end SseServer

/-! ## The two tasks -/

/-- `_handleTicketRoute`. -/
inductive TicketTask where
  | idle
  /-- The stop is requested, the ticket not minted. -/
  | minting
  deriving DecidableEq

/-- `_handleRoute`, with the number of the ticket that it consumed. -/
inductive SessionTask where
  | idle
  | admitted (ticket : ℕ)
  /-- Past the reset of the stop reason. -/
  | cleared (ticket : ℕ)
  | running (ticket : ℕ)
  /-- The handler has returned. -/
  | leaving (ticket : ℕ)
  | closing
  deriving DecidableEq

structure System where
  server : SseServer := {}
  ticketTask : TicketTask := .idle
  sessionTask : SessionTask := .idle
  /-- True time; the tasks read it modulo `2 ^ 32`. -/
  nowMs : ℕ := 0
  /-- How many tickets were minted, and when and as what the latest was. -/
  minted : ℕ := 0
  mintedAt : ℕ := 0
  latest : String := ""
  /-- The numbers of the tickets admitted, latest first. -/
  admissions : List ℕ := []
  /-- How many sessions are in their handler. -/
  active : ℕ := 0
  /-- A session has started up since the latest stop request. -/
  startedSince : Bool := false
  deriving DecidableEq

inductive Move where
  | wait (ms : ℕ)
  | requestStop
  | mint (token : String)
  | connect (token : String)
  | clear
  | activate
  | check
  /-- The handler returns because the client is gone. -/
  | quit
  | deactivate
  | close (connected : Bool)
  deriving DecidableEq

namespace System

def millis (s : System) : U32 := Lib.Clock.reading 32 s.nowMs

/-- The client presents `token` and is admitted. -/
def admits (s : System) (token : String) : Bool :=
  s.sessionTask = .idle && (s.server.consumeTicket token s.millis).2

/-- A move of a task that stands elsewhere does nothing. -/
def step (s : System) : Move → System
  | .wait ms => { s with nowMs := s.nowMs + ms }
  | .requestStop =>
    match s.ticketTask with
    | .idle =>
      { s with server := s.server.forceStopActiveSession, ticketTask := .minting,
               startedSince := false }
    | .minting => s
  | .mint token =>
    match s.ticketTask with
    | .minting =>
      { s with server := s.server.mintTicket token s.millis, ticketTask := .idle,
               minted := s.minted + 1, mintedAt := s.nowMs, latest := token }
    | .idle => s
  | .connect token =>
    match s.sessionTask with
    | .idle =>
      let r := s.server.consumeTicket token s.millis
      if r.2 then
        { s with server := r.1, sessionTask := .admitted s.minted,
                 admissions := s.minted :: s.admissions }
      else { s with server := r.1 }
    | _ => s
  | .clear =>
    match s.sessionTask with
    | .admitted ticket =>
      { s with server := s.server.clearStopReason .replaced, sessionTask := .cleared ticket,
               startedSince := true }
    | _ => s
  | .activate =>
    match s.sessionTask with
    | .cleared ticket =>
      { s with server := { s.server with sessionActive := true }, sessionTask := .running ticket,
               active := s.active + 1 }
    | _ => s
  | .check =>
    match s.sessionTask with
    | .running ticket =>
      if s.server.isSessionStopRequested then { s with sessionTask := .leaving ticket } else s
    | _ => s
  | .quit =>
    match s.sessionTask with
    | .running ticket => { s with sessionTask := .leaving ticket }
    | _ => s
  | .deactivate =>
    match s.sessionTask with
    | .leaving _ =>
      { s with server := { s.server with sessionActive := false }, sessionTask := .closing,
               active := s.active - 1 }
    | _ => s
  | .close connected =>
    match s.sessionTask with
    | .closing =>
      { s with
        server :=
          if s.server.finalEvent connected = some "sleeping" then
            s.server.clearStopReason .sleeping
          else s.server
        sessionTask := .idle }
    | _ => s

/-- The ticket of a session that has started up and not left its handler. -/
def startedTicket (s : System) : Option ℕ :=
  match s.sessionTask with
  | .cleared ticket => some ticket
  | .running ticket => some ticket
  | _ => none

end System

end Pumpbug.Net
