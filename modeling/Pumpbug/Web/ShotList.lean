import Pumpbug.History.ShotHistoryRoutes

/-!
# The web client's shot list

`ui-history.js`: the loaded pages, the validator of each page URL, and the token that lets a newer
request supersede an older one.  A refresh drops the loaded older pages and keeps their validators.
-/

namespace Pumpbug

def SHOTS_LIMIT : ℕ := 20

/-- A request on its way, with what its caller remembers. -/
structure ShotsRequest where
  before : ℕ
  ifNoneMatch : Option ShotsEtag
  token : ℕ
  /-- The `savedSeq` that a refresh acknowledges. -/
  savedSeq : ℤ := -1
  stage : ShotsStage := .arrived
  deriving DecidableEq

def ShotsRequest.response (r : ShotsRequest) : Option ShotsResponse :=
  match r.stage with
  | .answered response => some response
  | _ => none

/-- The page's globals that a refresh reads. -/
structure ShotsView where
  listShown : Bool := true
  storageUnavailable : Bool := false
  /-- `state.savedSeq`, or -1. -/
  savedSeq : ℤ := -1
  deriving DecidableEq

structure ShotList where
  shots : Option (List ShotMeta) := none
  shotsHasMore : Bool := false
  shotsTotal : ℕ := 0
  lastShotsSavedSeq : ℤ := -1
  /-- By the page's `before`. -/
  shotsEtags : AList fun _ : ℕ => ShotsEtag := ∅
  shotsRefreshSeq : ℕ := 0
  shotsRefreshInFlight : Bool := false
  shotsRefreshPending : Bool := false
  shotsRefreshPendingForce : Bool := false
  shotsLoadMoreInFlight : Bool := false

namespace ShotList

/-- `fetchShotsPage`, up to the answer. -/
def fetchShotsPage (c : ShotList) (before : ℕ) (savedSeq : ℤ) : ShotsRequest where
  before := before
  ifNoneMatch := c.shotsEtags.lookup before
  token := c.shotsRefreshSeq
  savedSeq := savedSeq

/-- `commitShotsEtag`. -/
def commitShotsEtag (c : ShotList) (before : ℕ) (etag : ShotsEtag) : ShotList :=
  { c with shotsEtags := c.shotsEtags.insert before etag }

/-- `maybeRefreshShots`, up to the answer. -/
def maybeRefreshShots (c : ShotList) (view : ShotsView) (force : Bool) :
    ShotList × Option ShotsRequest :=
  if !view.listShown then (c, none)
  else if view.storageUnavailable then (c, none)
  else if !force && c.shots.isSome && view.savedSeq = c.lastShotsSavedSeq then (c, none)
  else if c.shotsRefreshInFlight then
    ({ c with shotsRefreshPending := true
              shotsRefreshPendingForce := c.shotsRefreshPendingForce || force }, none)
  else
    let c := { c with shotsRefreshInFlight := true, shotsRefreshSeq := c.shotsRefreshSeq + 1 }
    (c, some (c.fetchShotsPage 0 view.savedSeq))

/-- What the answer to a refresh changes, unless it is superseded. -/
def applyRefresh (c : ShotList) (r : ShotsRequest) : ShotsResponse → ShotList
  | .failed => c
  | .notModified =>
    if r.token ≠ c.shotsRefreshSeq then c else { c with lastShotsSavedSeq := r.savedSeq }
  | .page etag shots hasMore total =>
    if r.token ≠ c.shotsRefreshSeq then c
    else
      { c with lastShotsSavedSeq := r.savedSeq, shots := some shots, shotsHasMore := hasMore,
               shotsTotal := total }.commitShotsEtag 0 etag

/-- `finally`, with the refresh that was asked for in the meantime. -/
def finishRefresh (c : ShotList) (view : ShotsView) : ShotList × Option ShotsRequest :=
  let c := { c with shotsRefreshInFlight := false }
  if c.shotsRefreshPending then
    { c with shotsRefreshPending := false, shotsRefreshPendingForce := false }.maybeRefreshShots view
      c.shotsRefreshPendingForce
  else (c, none)

/-- The lowest loaded id. -/
def cursor (c : ShotList) : Option ℕ := (c.shots.bind List.getLast?).map ShotMeta.id

/-- `loadMoreShots`, up to the answer. -/
def loadMoreShots (c : ShotList) : ShotList × Option ShotsRequest :=
  match c.cursor with
  | none => (c, none)
  | some before =>
    if !c.shotsHasMore then (c, none)
    else if c.shotsLoadMoreInFlight then (c, none)
    else
      let c := { c with shotsLoadMoreInFlight := true, shotsRefreshSeq := c.shotsRefreshSeq + 1 }
      (c, some (c.fetchShotsPage before (-1)))

def applyMore (c : ShotList) (r : ShotsRequest) : ShotsResponse → ShotList
  | .failed => c
  | .notModified => c
  | .page etag shots hasMore total =>
    if r.token ≠ c.shotsRefreshSeq then c
    else
      { c with shots := some (c.shots.getD [] ++ shots), shotsHasMore := hasMore,
               shotsTotal := total }.commitShotsEtag r.before etag

def finishMore (c : ShotList) : ShotList := { c with shotsLoadMoreInFlight := false }

end ShotList

/-! ## The client and the device -/

structure ShotPaging where
  store : ShotStore
  bootNonce : U32
  client : ShotList := {}
  refresh : Option ShotsRequest := none
  more : Option ShotsRequest := none

namespace ShotPaging

inductive Op where
  /-- The device saves a shot. -/
  | save (ext : Extraction)
  | maybeRefreshShots (view : ShotsView) (force : Bool)
  | loadMoreShots
  /-- The handler's next call for the refresh or the load-more request. -/
  | serveRefresh
  | serveMore
  | failRefresh
  | failMore
  /-- An answer arrives. -/
  | deliverRefresh (view : ShotsView)
  | deliverMore

/-- The handler goes on with a request. -/
def serve (s : ShotPaging) (r : ShotsRequest) : ShotsRequest :=
  { r with stage := handleShotList s.store s.bootNonce r.before (some SHOTS_LIMIT) r.ifNoneMatch r.stage }

def fail (r : ShotsRequest) : ShotsRequest := { r with stage := .answered .failed }

def step (s : ShotPaging) : Op → ShotPaging
  | .save ext => { s with store := (s.store.save ext {}).store }
  | .maybeRefreshShots view force =>
    let (client, request) := s.client.maybeRefreshShots view force
    { s with client := client, refresh := request.or s.refresh }
  | .loadMoreShots =>
    let (client, request) := s.client.loadMoreShots
    { s with client := client, more := request.or s.more }
  | .serveRefresh => { s with refresh := s.refresh.map s.serve }
  | .serveMore => { s with more := s.more.map s.serve }
  | .failRefresh => { s with refresh := s.refresh.map fail }
  | .failMore => { s with more := s.more.map fail }
  | .deliverRefresh view =>
    match s.refresh, s.refresh.bind ShotsRequest.response with
    | some r, some response =>
      let (client, request) := (s.client.applyRefresh r response).finishRefresh view
      { s with client := client, refresh := request }
    | _, _ => s
  | .deliverMore =>
    match s.more, s.more.bind ShotsRequest.response with
    | some r, some response =>
      { s with client := (s.client.applyMore r response).finishMore, more := none }
    | _, _ => s

end ShotPaging

end Pumpbug
