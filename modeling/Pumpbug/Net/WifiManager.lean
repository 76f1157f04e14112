import Pumpbug.Lib.Clock
import Pumpbug.Num

/-!
# The Wi-Fi manager

`WifiManager.cpp`: the main task starts and stops the radio and drives the fallback to the access
point one access to a shared flag at a time; the driver's events wait in a queue and are handled one
by one, between any two of these accesses, by `_onWifiEvent`.  Events carry no attempt: the number
an event has here says which attempt of `startSta` it was raised for, and nothing in the manager
reads it.
-/

namespace Pumpbug.Net.Wifi

open Lib

inductive Mode where
  | off | sta | ap
  deriving DecidableEq

inductive State where
  | off | staConnecting | staConnected | apUp
  deriving DecidableEq

def kStaTimeoutMs : U32 := 15000
def WIFI_REASON_4WAY_HANDSHAKE_TIMEOUT : U8 := 15
def WIFI_REASON_NO_AP_FOUND : U8 := 201
def WIFI_REASON_AUTH_FAIL : U8 := 202

def isCredentialFailureReason (reason : U8) : Bool :=
  reason = WIFI_REASON_AUTH_FAIL || reason = WIFI_REASON_4WAY_HANDSHAKE_TIMEOUT

def isActionableFailureReason (reason : U8) : Bool :=
  isCredentialFailureReason reason || reason = WIFI_REASON_NO_AP_FOUND

/-- The flags that the main task and the event task share. -/
structure Manager where
  mode : Mode := .off
  state : State := .off
  apIsFallback : Bool := false
  /-- Once the station got an IP, ordinary drops do not fall back. -/
  staFallbackTimeoutSuppressed : Bool := false
  staAssociated : Bool := false
  lastDisconnectReason : U8 := 0
  staConnectingStartedMs : U32 := 0
  apStations : U8 := 0
  deriving DecidableEq

/-! ## Events -/

inductive Event where
  | staConnected (attempt : ℕ)
  | staGotIp (attempt : ℕ)
  | staDisconnected (reason : U8)
  | apStaConnected
  | apStaDisconnected
  | apStart
  | apStop
  deriving DecidableEq

namespace Manager

/-- The `GOT_IP` case lets the event through. -/
def acceptsIp (w : Manager) : Bool := w.mode = .sta && w.staAssociated

/-- The `DISCONNECTED` case. -/
def onDisconnected (w : Manager) (millis : U32) (reason : U8) : Manager :=
  let w := { w with staAssociated := false }
  if w.mode ≠ .sta then w
  else
    let w :=
      if w.lastDisconnectReason = 0 ∨ isActionableFailureReason reason then
        { w with lastDisconnectReason := reason }
      else w
    let w :=
      -- a credential-looking drop after a connection re-arms the timeout
      if isCredentialFailureReason reason ∧ w.staFallbackTimeoutSuppressed then
        { w with staFallbackTimeoutSuppressed := false, staConnectingStartedMs := millis }
      else w
    { w with state := .staConnecting }

/-- `_onWifiEvent`. -/
def onWifiEvent (w : Manager) (millis : U32) : Event → Manager
  | .staConnected _ => { w with staAssociated := w.mode = .sta }
  | .staGotIp _ =>
    if w.acceptsIp then
      { w with staFallbackTimeoutSuppressed := true, state := .staConnected,
               lastDisconnectReason := 0 }
    else w
  | .staDisconnected reason => w.onDisconnected millis reason
  | .apStaConnected => { w with apStations := w.apStations + 1 }
  | .apStaDisconnected => { w with apStations := w.apStations - (if w.apStations = 0 then 0 else 1) }
  | .apStart => if w.mode = .ap then { w with state := .apUp } else w
  | .apStop => if w.mode = .ap then { w with state := .off } else w

end Manager

/-! ## The main task -/

/-- One access of the main task. -/
inductive Section where
  | setMode (mode : Mode)
  | setState (state : State)
  | setFallback (fallback : Bool)
  | clearAssociated
  | clearSuppressed
  | clearReason
  | clearStations
  | stampStart
  /-- `WiFi.begin`: from here on the driver works on the attempt. -/
  | begin
  /-- The driver gives up its connection. -/
  | disconnect
  | readState (apOk : Bool)
  | readSuppressed (apOk : Bool)
  | readStarted (apOk : Bool)
  | checkTimeout (startedMs : U32) (apOk : Bool)
  deriving DecidableEq

def startSta : List Section :=
  [.setMode .sta, .setState .staConnecting, .setFallback false, .clearAssociated, .clearSuppressed,
    .clearReason, .stampStart, .begin]

/-- `apOk` is the answer of `WiFi.softAP`. -/
def startAp (apOk : Bool) : List Section :=
  [.setFallback false, .clearStations, .disconnect] ++
    if apOk then [.setMode .ap, .setState .apUp] else [.setState .off, .setMode .off]

def stop : List Section := [.disconnect, .setMode .off, .setState .off, .setFallback false]

/-- The connect timeout of `update`. -/
def update (apOk : Bool) : List Section := [.readState apOk]

/-- The fallback of `update`. -/
def fallBack (apOk : Bool) : List Section :=
  startAp apOk ++ if apOk then [.setFallback true] else []

inductive Op where
  | startSta
  | startAp (apOk : Bool)
  | stop
  | update (apOk : Bool)
  deriving DecidableEq

def Op.sections : Op → List Section
  | .startSta => Wifi.startSta
  | .startAp apOk => Wifi.startAp apOk
  | .stop => Wifi.stop
  | .update apOk => Wifi.update apOk

/-- What the main task stores, if the section stores anything. -/
def Manager.store (w : Manager) (millis : U32) : Section → Manager
  | .setMode mode => { w with mode := mode }
  | .setState state => { w with state := state }
  | .setFallback fallback => { w with apIsFallback := fallback }
  | .clearAssociated => { w with staAssociated := false }
  | .clearSuppressed => { w with staFallbackTimeoutSuppressed := false }
  | .clearReason => { w with lastDisconnectReason := 0 }
  | .clearStations => { w with apStations := 0 }
  | .stampStart => { w with staConnectingStartedMs := millis }
  | _ => w

/-- What a read of `update` makes the main task do next. -/
def Manager.followUp (w : Manager) (millis : U32) : Section → List Section
  | .readState apOk => if w.state ≠ .staConnecting then [] else [.readSuppressed apOk]
  | .readSuppressed apOk => if w.staFallbackTimeoutSuppressed then [] else [.readStarted apOk]
  | .readStarted apOk => [.checkTimeout w.staConnectingStartedMs apOk]
  | .checkTimeout startedMs apOk =>
    if millis - startedMs ≤ kStaTimeoutMs then [] else fallBack apOk
  | _ => []

/-! ## The system -/

structure System where
  manager : Manager := {}
  todo : List Section := []
  /-- True time; the tasks read it modulo `2 ^ 32`. -/
  nowMs : ℕ := 0
  /-- The attempt that the driver works on, and whether the station is associated. -/
  driving : Option ℕ := none
  associated : Bool := false
  /-- Events not handled yet, oldest first. -/
  queue : List Event := []
  /-- How often `startSta` was called, and when the latest attempt started. -/
  attempt : ℕ := 0
  startedAt : ℕ := 0
  /-- The latest attempt's own events have been handled. -/
  ownAssociated : Bool := false
  ownIp : Bool := false
  /-- The latest call was an `update` past the attempt's connect timeout, with this answer of
  `WiFi.softAP` for a fallback. -/
  late : Option Bool := none
  deriving DecidableEq

/-- What the driver does. -/
inductive Signal where
  | connected
  | gotIp
  | disconnected (reason : U8)
  | accessPoint (event : Event) (h : event = .apStaConnected ∨ event = .apStaDisconnected ∨
      event = .apStart ∨ event = .apStop)

inductive Move where
  | wait (ms : ℕ)
  | call (op : Op)
  | advance
  | raise (signal : Signal)
  /-- The event task handles the oldest event. -/
  | handle

namespace System

def millis (s : System) : U32 := Clock.reading 32 s.nowMs

/-- An update finds the latest attempt past its timeout. -/
def isLate (s : System) : Bool :=
  s.manager.mode = .sta && kStaTimeoutMs.toNat < s.nowMs - s.startedAt

def call (s : System) (op : Op) : System :=
  match s.todo with
  | [] =>
    let s' := { s with todo := op.sections }
    match op with
    | .startSta =>
      { s' with attempt := s.attempt + 1, ownAssociated := false, ownIp := false, late := none }
    | .update apOk => { s' with late := if s.isLate then some apOk else none }
    | _ => { s' with late := none }
  | _ :: _ => s

def advance (s : System) : System :=
  match s.todo with
  | [] => s
  | sec :: rest =>
    let s' := { s with manager := s.manager.store s.millis sec,
                       todo := s.manager.followUp s.millis sec ++ rest }
    match sec with
    | .stampStart => { s' with startedAt := s.nowMs }
    | .begin => { s' with driving := some s.attempt, associated := false }
    | .disconnect => { s' with driving := none, associated := false }
    | _ => s'

/-- An association precedes an address. -/
def raise (s : System) : Signal → System
  | .connected =>
    match s.driving with
    | some attempt => { s with associated := true, queue := s.queue ++ [.staConnected attempt] }
    | none => s
  | .gotIp =>
    match s.driving, s.associated with
    | some attempt, true => { s with queue := s.queue ++ [.staGotIp attempt] }
    | _, _ => s
  | .disconnected reason =>
    { s with associated := false, queue := s.queue ++ [.staDisconnected reason] }
  | .accessPoint event _ => { s with queue := s.queue ++ [event] }

def handle (s : System) : System :=
  match s.queue with
  | [] => s
  | event :: rest =>
    { s with
      manager := s.manager.onWifiEvent s.millis event
      queue := rest
      ownAssociated := s.ownAssociated || event = .staConnected s.attempt
      ownIp := s.ownIp || event = .staGotIp s.attempt }

def step (s : System) : Move → System
  | .wait ms => { s with nowMs := s.nowMs + ms }
  | .call op => s.call op
  | .advance => s.advance
  | .raise signal => s.raise signal
  | .handle => s.handle

end System

end Pumpbug.Net.Wifi
