import Mathlib.Data.List.Basic

/-!
# The web client's stream connection

`stream.js`: the handlers of the connection state machine, each running without interruption.  What
is still to come (timers, fetches) is the list of pending tasks; a handler appends to it, and may
clear timers but no fetch.
-/

namespace Pumpbug.Web.Stream

def INITIAL_BACKOFF_MS : ℕ := 1000
def MAX_BACKOFF_MS : ℕ := 30000
def SSE_FIRST_PACKET_TIMEOUT_MS : ℕ := 5000
def SSE_IDLE_TIMEOUT_MS : ℕ := 20000
def WAKE_POLL_INTERVAL_MS : ℕ := 1000
def WAKE_POLL_HIDDEN_INTERVAL_MS : ℕ := 5000

/-- What a timer calls. -/
inductive Callback
  | idle (stream : ℕ)
  | reconnect
  | poll
  deriving DecidableEq

inductive Task
  | timer (handle delayMs : ℕ) (callback : Callback)
  /-- The ticket request of a connect. -/
  | ticket (epoch : ℕ)
  /-- The body of its response. -/
  | ticketBody (epoch : ℕ)
  /-- The probe of a wake poll. -/
  | wakePoll
  deriving DecidableEq

/-- A stream object, with its EventSource. -/
structure EventStream where
  closed : Bool
  opened : Bool
  firstPacketSeen : Bool
  replaced : Bool
  sleeping : Bool
  idleTimer : Option ℕ
  deriving DecidableEq

def EventStream.fresh : EventStream := ⟨false, false, false, false, false, none⟩

/-- The module's variables, the streams it made and the tasks that are pending. -/
structure Client where
  streams : List EventStream
  currentStream : Option ℕ
  reconnectTimer : Option ℕ
  backoffMs : ℕ
  connecting : Bool
  connectEpoch : ℕ
  wakePollTimer : Option ℕ
  protocolMismatch : Bool
  tasks : List Task
  /-- Timers set so far; the next one gets this handle. -/
  handles : ℕ
  /-- Ticket requests sent so far. -/
  ticketRequests : ℕ
  deriving DecidableEq

namespace Client

variable (c : Client)

/-! ## Timers -/

/-- A new timer has the handle `c.handles`. -/
def setTimeout (delayMs : ℕ) (callback : Callback) : Client :=
  { c with tasks := c.tasks ++ [.timer c.handles delayMs callback], handles := c.handles + 1 }

def isTimer (handle : ℕ) : Task → Bool
  | .timer h _ _ => h = handle
  | _ => false

def clearTimeout : Option ℕ → Client
  | none => c
  | some handle => { c with tasks := c.tasks.filter fun task => !isTimer handle task }

/-! ## Streams -/

def modifyStream (i : ℕ) (f : EventStream → EventStream) : Client :=
  { c with streams := c.streams.modify i f }

def idleTimerOf (i : ℕ) : Option ℕ := c.streams[i]?.bind EventStream.idleTimer

def armIdleTimer (i : ℕ) : Client :=
  let c := c.clearTimeout (c.idleTimerOf i)
  let live := c.streams[i]?.any fun s => s.opened && s.firstPacketSeen
  let timeoutMs := if live then SSE_IDLE_TIMEOUT_MS else SSE_FIRST_PACKET_TIMEOUT_MS
  let handle := c.handles
  (c.setTimeout timeoutMs (.idle i)).modifyStream i fun s => { s with idleTimer := some handle }

def closeStream (i : ℕ) : Client :=
  let c := (c.clearTimeout (c.idleTimerOf i)).modifyStream i fun s => { s with closed := true }
  if c.currentStream = some i then { c with currentStream := none } else c

def closeCurrentStream : Client :=
  match c.currentStream with
  | none => c
  | some i => c.closeStream i

def openStream : Client :=
  let c := c.closeCurrentStream
  { c with streams := c.streams ++ [.fresh], currentStream := some c.streams.length }

/-! ## Connecting -/

def stopWakePolling : Client := { c.clearTimeout c.wakePollTimer with wakePollTimer := none }

/-- Up to the ticket request. -/
def connect : Client :=
  if c.protocolMismatch then c
  else if c.connecting then c
  else
    let c := c.stopWakePolling
    let c := { c.clearTimeout c.reconnectTimer with reconnectTimer := none }
    { c with
      connectEpoch := c.connectEpoch + 1
      connecting := true
      tasks := c.tasks ++ [.ticket (c.connectEpoch + 1)]
      ticketRequests := c.ticketRequests + 1 }

def scheduleReconnect : Client :=
  if c.protocolMismatch then c
  else if c.reconnectTimer.isSome then c
  else
    { c.setTimeout c.backoffMs .reconnect with
      reconnectTimer := some c.handles
      backoffMs := min (c.backoffMs * 2) MAX_BACKOFF_MS }

/-- Whatever connect is under way, its response will not count. -/
def supersede : Client := { c with connectEpoch := c.connectEpoch + 1, connecting := false }

def forceReconnect : Client :=
  if c.protocolMismatch then c
  else scheduleReconnect { c.supersede.closeCurrentStream with backoffMs := INITIAL_BACKOFF_MS }

def startWakePolling : Client :=
  if c.protocolMismatch then c
  else if c.wakePollTimer.isSome then c
  else
    let c := c.supersede.closeCurrentStream
    let c := { c.clearTimeout c.reconnectTimer with
      reconnectTimer := none
      backoffMs := INITIAL_BACKOFF_MS }
    { c.setTimeout 0 .poll with wakePollTimer := some c.handles }

def handleProtocolMismatch : Client := { c with protocolMismatch := true }.closeCurrentStream

/-! ## Handlers -/

/-- What a packet makes the client do, besides showing it. -/
inductive Packet
  | shown
  /-- Another protocol version. -/
  | mismatch
  /-- A sample batch that does not continue the record in flight: the forced resync. -/
  | outOfSync
  deriving DecidableEq

def onPacket (i : ℕ) (packet : Packet) : Client :=
  if c.currentStream ≠ some i then c
  else
    let c := (c.modifyStream i fun s => { s with firstPacketSeen := true }).armIdleTimer i
    match packet with
    | .shown => c
    | .mismatch => c.handleProtocolMismatch
    | .outOfSync => c.forceReconnect

def onReplaced (i : ℕ) : Client :=
  if c.currentStream ≠ some i then c
  else (c.modifyStream i fun s => { s with replaced := true }).closeStream i

def onSleeping (i : ℕ) : Client :=
  if c.currentStream ≠ some i then c
  else ((c.modifyStream i fun s => { s with sleeping := true }).closeStream i).startWakePolling

def onOpen (i : ℕ) : Client :=
  if c.currentStream ≠ some i then c
  else
    { (c.modifyStream i fun s => { s with opened := true }).armIdleTimer i with
      backoffMs := INITIAL_BACKOFF_MS }

def onError (i : ℕ) : Client :=
  if c.currentStream ≠ some i then c
  else
    let wasReplaced := c.streams[i]?.any EventStream.replaced
    let wasSleeping := c.streams[i]?.any EventStream.sleeping
    let c := c.closeStream i
    if !wasReplaced && !wasSleeping then c.scheduleReconnect else c

def onIdle (i : ℕ) : Client := if c.currentStream ≠ some i then c else c.startWakePolling

def onReconnect : Client := connect { c with reconnectTimer := none }

def poll : Client :=
  let c := { c with wakePollTimer := none }
  if c.currentStream.isSome || c.protocolMismatch then c
  else { c with tasks := c.tasks ++ [.wakePoll] }

/-- How a fetch ends: a response with or without success, or an error. -/
inductive Outcome
  | ok
  | refused
  /-- The network fails, the request is aborted, or the ticket is unusable. -/
  | failed
  deriving DecidableEq

/-- The `finally` of a connect. -/
def connectDone (epoch : ℕ) : Client :=
  if epoch = c.connectEpoch then { c with connecting := false } else c

def onTicket (epoch : ℕ) (outcome : Outcome) : Client :=
  if epoch ≠ c.connectEpoch then c.connectDone epoch
  else
    match outcome with
    | .ok => { c with tasks := c.tasks ++ [.ticketBody epoch] }
    | .refused => c.scheduleReconnect.connectDone epoch
    | .failed => c.scheduleReconnect.connectDone epoch

/-- The body is a ticket, an URL that no EventSource takes, or is not to be had. -/
def onTicketBody (epoch : ℕ) (outcome : Outcome) : Client :=
  if epoch ≠ c.connectEpoch then c.connectDone epoch
  else
    match outcome with
    | .ok => c.openStream.connectDone epoch
    | .refused => c.closeCurrentStream.scheduleReconnect.connectDone epoch
    | .failed => c.scheduleReconnect.connectDone epoch

def onWakePoll (hidden : Bool) (outcome : Outcome) : Client :=
  match outcome with
  | .ok => c.connect
  | .refused => c.connect
  | .failed =>
    let delayMs := if hidden then WAKE_POLL_HIDDEN_INTERVAL_MS else WAKE_POLL_INTERVAL_MS
    { c.setTimeout delayMs .poll with wakePollTimer := some c.handles }

/-! ## Events -/

inductive Event
  /-- Events of the EventSource of the stream `i`. -/
  | opened (i : ℕ)
  | packet (i : ℕ) (packet : Packet)
  | error (i : ℕ)
  | replaced (i : ℕ)
  | sleeping (i : ℕ)
  /-- A pending task comes to its end; `hidden` is whether the page is. -/
  | settled (task : Task) (outcome : Outcome) (hidden : Bool)
  deriving DecidableEq

def onTask (task : Task) (outcome : Outcome) (hidden : Bool) : Client :=
  match task with
  | .timer _ _ (.idle i) => c.onIdle i
  | .timer _ _ .reconnect => c.onReconnect
  | .timer _ _ .poll => c.poll
  | .ticket epoch => c.onTicket epoch outcome
  | .ticketBody epoch => c.onTicketBody epoch outcome
  | .wakePoll => c.onWakePoll hidden outcome

/-- An event, in any order with the others; only a pending task can come to its end. -/
def step : Event → Client
  | .opened i => c.onOpen i
  | .packet i packet => c.onPacket i packet
  | .error i => c.onError i
  | .replaced i => c.onReplaced i
  | .sleeping i => c.onSleeping i
  | .settled task outcome hidden =>
    if task ∈ c.tasks then onTask { c with tasks := c.tasks.erase task } task outcome hidden else c

/-- The page is loaded, and connects. -/
def start : Client := connect ⟨[], none, none, INITIAL_BACKOFF_MS, false, 0, none, false, [], 0, 0⟩

end Client

end Pumpbug.Web.Stream
