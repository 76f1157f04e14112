import Pumpbug.History.ShotStore

/-!
# The shot list over HTTP

`ShotStore::page` and `handleShotList` in `ShotHistoryRoutes.cpp`: a newest-first page of valid
records, cut from one directory walk, with the headers read again row by row.  The ETag names the
boot and the store's revision.
-/

namespace Pumpbug

structure ShotMeta where
  id : ℕ
  startUtcSec : U32
  beginMs : U32
  durationMs : U32
  totalPumpOnMs : U32
  yieldCg : I16
  deriving DecidableEq

namespace ShotStore

/-- `_readMetaUnlocked`. -/
def readMeta (s : ShotStore) (id : ℕ) : Option ShotMeta :=
  match s.files.lookup (fileName id) with
  | none => none
  | some .directory => none
  | some (.file bytes) =>
    let header := bytes.take kCompactHeaderBytes
    if isValidShotHeader header then
      some {
        id := id
        beginMs := readU32LE header 8
        -- unsigned subtraction keeps the duration across a wrap
        durationMs := readU32LE header 20 - readU32LE header 8
        totalPumpOnMs := readU32LE header 24
        startUtcSec := readU32LE header 28
        yieldCg := readI16LE header 32 }
    else none

/-- The id of a directory entry, if it is a valid record. -/
def validId (withDir : Bool) (entry : Sigma fun _ : FileName => DirEntry) : Option ℕ :=
  match entry.2 with
  | .directory => none
  | .file bytes =>
    let id := parseIdFromName (reportedName withDir entry.1)
    if id ≠ 0 && isValidShotHeader (bytes.take kCompactHeaderBytes) then some id else none

structure Page where
  ids : List ℕ
  hasMore : Bool
  total : ℕ
  revision : U32
  deriving DecidableEq

/-- `page`: the valid records with an id below `before`, or all of them for 0. -/
def page (s : ShotStore) (before limit : ℕ) : Page :=
  let valid := s.files.entries.filterMap (validId s.namesWithDir)
  let ids := (valid.filter fun id => before = 0 || id < before).insertionSort (· ≥ ·)
  { ids := ids.take limit
    hasMore := limit < ids.length
    total := valid.length
    revision := BitVec.ofNat 32 s.revision }

end ShotStore

/-! ## The handler -/

structure ShotsEtag where
  nonce : U32
  revision : U32
  deriving DecidableEq

/-- The validator that the handler makes of the store as it is. -/
def shotsEtag (store : ShotStore) (nonce : U32) : ShotsEtag where
  nonce := nonce
  revision := BitVec.ofNat 32 store.revision

/-- The `limit` argument; without one there is no limit. -/
def shotsLimit : Option ℕ → ℕ
  | none => 2 ^ 32 - 1
  | some l => if l < 1 then 1 else if 100 < l then 100 else l

inductive ShotsResponse where
  | notModified
  | page (etag : ShotsEtag) (shots : List ShotMeta) (hasMore : Bool) (total : ℕ)
  /-- Any other status, or no answer in time. -/
  | failed
  deriving DecidableEq

/-- How far the handler is with a request; the store may change between its calls. -/
inductive ShotsStage where
  | arrived
  /-- Past the validator. -/
  | checked
  | reading (etag : ShotsEtag) (rows : List ShotMeta) (left : List ℕ) (hasMore : Bool) (total : ℕ)
  | answered (response : ShotsResponse)
  deriving DecidableEq

/-- The next call of `handleShotList` for the arguments `before` and `limit`. -/
def handleShotList (store : ShotStore) (nonce : U32) (before : ℕ) (limit : Option ℕ)
    (ifNoneMatch : Option ShotsEtag) : ShotsStage → ShotsStage
  | .arrived =>
    if ifNoneMatch = some (shotsEtag store nonce) then .answered .notModified
    else .checked
  | .checked =>
    let page := store.page before (shotsLimit limit)
    .reading { nonce := nonce, revision := page.revision } [] page.ids page.hasMore page.total
  | .reading etag rows (id :: left) hasMore total =>
    match store.readMeta id with
    -- evicted between snapshot and read
    | none => .reading etag rows left hasMore total
    | some shot => .reading etag (rows ++ [shot]) left hasMore total
  | .reading etag rows [] hasMore total => .answered (.page etag rows hasMore total)
  | .answered response => .answered response

end Pumpbug
