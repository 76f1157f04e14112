import Mathlib.Data.String.Basic
import Pumpbug.Lib.Clock
import Pumpbug.Num

/-!
# The HTTP server

`HttpServer.cpp`: the route registry, which any task may change, and the server task, which serves
the routes it has bound and binds them anew when the registry is marked dirty.  A step is one access
to what the tasks share.  mDNS, the embedded assets and the web server itself are left out; a request
comes with the number of the binding that it is routed to.
-/

namespace Pumpbug.Net

structure HttpRoute (Method Handler : Type) where
  path : String
  method : Method
  handler : Handler
  requiresAuth : Bool := true

/-- `_routeGroups`, in the order of the map. -/
abbrev RouteGroups (Method Handler : Type) := List (String × List (HttpRoute Method Handler))

/-- What a route is bound to. -/
inductive Reply (Handler Gate : Type) where
  | handler (handler : Handler)
  | gated (gate : Gate) (handler : Handler)
  /-- Authentication is required, and there is no middleware. -/
  | unavailable

/-- The handler that a request comes to, if any. -/
def Reply.admits {Handler Gate Request : Type} (accepts : Gate → Request → Bool)
    (reply : Reply Handler Gate) (req : Request) : Option Handler :=
  match reply with
  | .handler target => some target
  | .gated gate target => if accepts gate req then some target else none
  | .unavailable => none

structure Binding (Method Handler Gate : Type) where
  path : String
  method : Method
  reply : Reply Handler Gate

section Registry

variable {Method Handler Gate : Type}

/-- Further routes for a group, which is created where the map has it. -/
def RouteGroups.add (name : String) (routes : List (HttpRoute Method Handler)) :
    RouteGroups Method Handler → RouteGroups Method Handler
  | [] => [(name, routes)]
  | group :: groups =>
    if name = group.1 then (name, group.2 ++ routes) :: groups
    else if name < group.1 then (name, routes) :: group :: groups
    else group :: add name routes groups

def RouteGroups.erase (name : String) (groups : RouteGroups Method Handler) :
    RouteGroups Method Handler :=
  groups.filter fun group => group.1 ≠ name

def fullPath (name path : String) : String :=
  if path ≠ "" ∧ path.front ≠ '/' then name ++ "/" ++ path else name ++ path

def bindRoute (mw : Option Gate) (name : String) (route : HttpRoute Method Handler) :
    Binding Method Handler Gate where
  path := fullPath name route.path
  method := route.method
  reply :=
    if !route.requiresAuth then .handler route.handler
    else
      match mw with
      | some gate => .gated gate route.handler
      | none => .unavailable

/-- `_bindRoutes`, for a copy of the registry. -/
def bindRoutes (groups : RouteGroups Method Handler) (mw : Option Gate) :
    List (Binding Method Handler Gate) :=
  groups.flatMap fun group => group.2.map (bindRoute mw group.1)

end Registry

/-! ## The tasks -/

def kRebuildRetryMs : U32 := 5000

/-- The checks of `waitForRebuildRetry`, each before a delay of 100 ms. -/
def kRetryChecks : ℕ := 50

/-- What the tasks share. -/
structure HttpServer (Method Handler Gate : Type) where
  routeGroups : RouteGroups Method Handler := []
  authMiddleware : Option Gate := none
  shouldRun : Bool := false
  taskExited : Bool := true
  routesDirty : Bool := false

/-- Where the server task stands that has not published its exit. -/
inductive ServerTask (Method Handler Gate : Type) where
  | absent
  | spawned
  /-- At the head of the loop that gets the first server. -/
  | starting
  /-- About to clear the mark. -/
  | clearing
  /-- The mark is cleared, the registry not copied. -/
  | copying
  /-- With a copy of the registry. -/
  | binding (groups : RouteGroups Method Handler) (mw : Option Gate)
  /-- There was no heap for the new server. -/
  | failed
  | retrying (checks : ℕ)
  | started
  /-- At the head of the serving loop. -/
  | looping
  | polling (nowMs : U32)
  | handling
  | closing
  | leaving

/-- Where the main task stands, in `begin` and `stop`. -/
inductive MainTask where
  | idle
  | awaitingExit
  | exitSeen
  | runMarked
  | spawning
  | unmarking
  | unspawned
  | stopping
  deriving DecidableEq

structure HttpSystem (Method Handler Gate Request : Type) where
  http : HttpServer Method Handler Gate := {}
  mainTask : MainTask := .idle
  task : ServerTask Method Handler Gate := .absent
  /-- The routes that the server task serves. -/
  server : Option (List (Binding Method Handler Gate)) := none
  rebuildBackoff : Bool := false
  lastRebuildFailureMs : U32 := 0
  /-- `nowMs` of the pass in which a rebuild was begun. -/
  passMs : U32 := 0
  /-- True time; the server task reads it modulo `2 ^ 32`. -/
  nowMs : ℕ := 0
  /-- The callers that have changed the registry, and not marked it yet. -/
  marking : ℕ := 0
  /-- The server tasks there are, and those of them that have published their exit. -/
  alive : ℕ := 0
  exited : ℕ := 0
  /-- The requests that came to a handler, with the binding that they were routed to. -/
  handled : List (Binding Method Handler Gate × Handler × Request) := []

inductive HttpMove (Method Handler Gate Request : Type) where
  | wait (ms : ℕ)
  | registerRoutes (name : String) (routes : List (HttpRoute Method Handler))
  | unregisterRoutes (name : String)
  | setAuthMiddleware (mw : Option Gate)
  /-- A caller marks what it has changed. -/
  | mark
  | begin
  | stop
  /-- The main task goes on; `created` is what `xTaskCreatePinnedToCore` answers. -/
  | main (created : Bool)
  /-- The server task goes on; a rebuild has heap enough. -/
  | task
  /-- A server task that has published its exit deletes itself. -/
  | delete
  /-- A rebuild has too little heap. -/
  | rebuildFails
  /-- A client's request for the binding `choice`. -/
  | request (choice : ℕ) (req : Request)

namespace HttpSystem

variable {Method Handler Gate Request : Type}

def millis (s : HttpSystem Method Handler Gate Request) : U32 := Lib.Clock.reading 32 s.nowMs

/-- The main task's next access. -/
def goOn (s : HttpSystem Method Handler Gate Request) (created : Bool) :
    HttpSystem Method Handler Gate Request :=
  match s.mainTask with
  | .idle => s
  | .awaitingExit => if s.http.taskExited then { s with mainTask := .exitSeen } else s
  | .exitSeen => { s with http := { s.http with taskExited := false }, mainTask := .runMarked }
  | .runMarked => { s with http := { s.http with shouldRun := true }, mainTask := .spawning }
  | .spawning =>
    if created then { s with task := .spawned, alive := s.alive + 1, mainTask := .idle }
    else { s with mainTask := .unmarking }
  | .unmarking => { s with http := { s.http with shouldRun := false }, mainTask := .unspawned }
  | .unspawned => { s with http := { s.http with taskExited := true }, mainTask := .idle }
  | .stopping => if s.http.taskExited then { s with mainTask := .idle } else s

/-- A rebuild is asked for, and not put off. -/
def rebuildDue (s : HttpSystem Method Handler Gate Request) (nowMs : U32) : Bool :=
  s.http.routesDirty && (!s.rebuildBackoff || kRebuildRetryMs ≤ nowMs - s.lastRebuildFailureMs)

/-- The server task's next access. -/
def advance (s : HttpSystem Method Handler Gate Request) : HttpSystem Method Handler Gate Request :=
  match s.task with
  | .absent => s
  | .spawned => { s with task := if s.http.shouldRun then .starting else .leaving }
  | .starting => { s with task := if s.http.shouldRun then .clearing else .leaving }
  | .clearing => { s with http := { s.http with routesDirty := false }, task := .copying }
  | .copying => { s with task := .binding s.http.routeGroups s.http.authMiddleware }
  | .binding groups mw =>
    { s with
      task := if s.server.isSome then .handling else .started
      server := some (bindRoutes groups mw)
      rebuildBackoff := false }
  | .failed =>
    { s with
      http := { s.http with routesDirty := true }
      task := if s.server.isSome then .handling else .retrying kRetryChecks
      rebuildBackoff := s.server.isSome
      lastRebuildFailureMs := if s.server.isSome then s.passMs else s.lastRebuildFailureMs }
  | .retrying 0 => { s with task := if s.http.shouldRun then .starting else .leaving }
  | .retrying (checks + 1) =>
    { s with task := if s.http.shouldRun then .retrying checks else .leaving }
  | .started =>
    if s.http.shouldRun then { s with task := .looping } else { s with task := .leaving, server := none }
  | .looping => { s with task := if s.http.shouldRun then .polling s.millis else .closing }
  | .polling nowMs =>
    if s.rebuildDue nowMs then
      { s with http := { s.http with routesDirty := false }, task := .copying, passMs := nowMs }
    else { s with task := .handling }
  | .handling => { s with task := .looping }
  | .closing => { s with task := .leaving, server := none }
  | .leaving =>
    -- from here on `stop` can return, and `begin` spawn another task
    { s with http := { s.http with taskExited := true }, task := .absent, exited := s.exited + 1 }

def rebuilding (s : HttpSystem Method Handler Gate Request) : Bool :=
  match s.task with
  | .clearing => true
  | .copying => true
  | .binding _ _ => true
  | .failed => true
  | _ => false

variable (accepts : Gate → Request → Bool)

/-- A move of a task that stands elsewhere does nothing. -/
def step (s : HttpSystem Method Handler Gate Request) :
    HttpMove Method Handler Gate Request → HttpSystem Method Handler Gate Request
  | .wait ms => { s with nowMs := s.nowMs + ms }
  | .registerRoutes name routes =>
    if name = "" then s
    else
      { s with http := { s.http with routeGroups := s.http.routeGroups.add name routes }
               marking := s.marking + 1 }
  | .unregisterRoutes name =>
    if name = "" then s
    else
      { s with http := { s.http with routeGroups := s.http.routeGroups.erase name }
               marking := s.marking + 1 }
  | .setAuthMiddleware mw =>
    { s with http := { s.http with authMiddleware := mw }, marking := s.marking + 1 }
  | .mark =>
    if s.marking = 0 then s
    else { s with http := { s.http with routesDirty := true }, marking := s.marking - 1 }
  | .begin =>
    if s.mainTask ≠ .idle ∨ s.http.shouldRun then s else { s with mainTask := .awaitingExit }
  | .stop =>
    if s.mainTask ≠ .idle ∨ !s.http.shouldRun then s
    else { s with http := { s.http with shouldRun := false }, mainTask := .stopping }
  | .main created => s.goOn created
  | .task => s.advance
  | .delete =>
    if s.exited = 0 then s else { s with alive := s.alive - 1, exited := s.exited - 1 }
  | .rebuildFails =>
    match s.task with
    | .copying => { s with task := .failed }
    | .binding _ _ => { s with task := .failed }
    | _ => s
  | .request choice req =>
    match s.task with
    | .handling =>
      match (s.server.getD [])[choice]? with
      | some bound =>
        match bound.reply.admits accepts req with
        | some handler => { s with handled := s.handled ++ [(bound, handler, req)] }
        | none => s
      | none => s
    | _ => s

end HttpSystem

end Pumpbug.Net
