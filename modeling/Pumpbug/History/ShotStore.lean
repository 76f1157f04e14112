import Pumpbug.History.ShotFiles

/-!
# The shot store

`ShotStore.cpp` and `shot_id_reservation.cpp`: a save reserves an id in NVS, writes the record
straight to its path, verifies size and header, and removes the oldest files.  Every call into
LittleFS and NVS may fail; a failed write leaves part of its effect or none.
-/

namespace Pumpbug

open Lib

/-- The persisted counter of the namespace `shots`. -/
structure Nvs where
  committed : Option ℕ := none
  /-- Written, and not committed yet. -/
  pending : Option ℕ := none
  deriving DecidableEq

/-- What `nvs_get_u32` finds; a missing key counts as 0. -/
def Nvs.lastId (n : Nvs) : ℕ := (n.pending.or n.committed).getD 0

/-- A call that writes: `some applied` fails, and has its effect or not. -/
abbrev WriteFault := Option Bool

/-- The calls that fail in one save, and what the failed writes leave. -/
structure SaveFaults where
  /-- `mountState` is not `Ready`. -/
  unmounted : Bool := false
  existsFails : Bool := false
  mkdir : WriteFault := none
  /-- `exists` before the directory walk. -/
  scanExistsFails : Bool := false
  openDirFails : Bool := false
  /-- The entries that the walk does not reach: `openNextFile` ends it where it fails. -/
  missed : List FileName := []
  nvsOpenFails : Bool := false
  nvsReadFails : Bool := false
  nvsSet : WriteFault := none
  nvsCommit : WriteFault := none
  /-- `nvs_close` drops what was not committed. -/
  closeDrops : Bool := false
  /-- The file is opened for writing, and thereby emptied. -/
  openFile : WriteFault := none
  /-- `some k` for a chunk: only `k` of its bytes are written. -/
  writes : List (Option ℕ) := []
  /-- `some k`: only the first `k` bytes survive the close. -/
  closeKeeps : Option ℕ := none
  checkOpenFails : Bool := false
  checkSizeFails : Bool := false
  /-- `some k`: only `k` bytes of the header are read back. -/
  checkReads : Option ℕ := none
  remove : WriteFault := none
  /-- One by one, the removals of the oldest files. -/
  evictions : List WriteFault := []
  deriving DecidableEq

/-- The store, with the two media below it. -/
structure ShotStore where
  /-- Whether `File::name` includes the directory. -/
  namesWithDir : Bool := false
  /-- `/shots`, once it exists. -/
  dir : Option ShotFiles := none
  nvs : Nvs := {}
  /-- The changes since the boot; `_revision` is the count modulo `2 ^ 32`. -/
  revision : ℕ := 0

namespace ShotStore

def files (s : ShotStore) : ShotFiles := s.dir.getD ∅

/-! ## The id -/

/-- `_scanIdsUnlocked`, in ascending order. -/
def scanIds (s : ShotStore) (f : SaveFaults) : Option (List ℕ) :=
  match s.dir with
  | none => some []
  | some files =>
    if f.scanExistsFails then some []
    else if f.openDirFails then none
    else
      let reached := files.entries.filter fun entry => entry.1 ∉ f.missed
      some ((reached.filterMap (entryId s.namesWithDir)).insertionSort (· ≤ ·))

/-- `nvs_close`. -/
def closeNvs (nvs : Nvs) (f : SaveFaults) : Nvs :=
  if f.closeDrops then { nvs with pending := none } else nvs

/-- Write and commit the new id; 0 if either fails. -/
def persistId (nvs : Nvs) (next : ℕ) (f : SaveFaults) : ℕ × Nvs :=
  match f.nvsSet, f.nvsCommit with
  | some false, _ => (0, closeNvs nvs f)
  | some true, _ => (0, closeNvs { nvs with pending := some next } f)
  | none, some false => (0, closeNvs { nvs with pending := some next } f)
  | none, some true => (0, { committed := some next })
  | none, none => (next, { committed := some next })

/-- `reserveNextShotId`; 0 means that allocation or persistence failed. -/
def reserveNextShotId (nvs : Nvs) (greatestExistingShotId : ℕ) (f : SaveFaults) : ℕ × Nvs :=
  if f.nvsOpenFails then (0, nvs)
  else if f.nvsReadFails then (0, nvs)
  else
    let last := max nvs.lastId greatestExistingShotId
    if kMaxShotId ≤ last then (0, nvs) else persistId nvs (last + 1) f

/-- Walk the directory and reserve an id; the ids of the walk come with it. -/
def handOut (s : ShotStore) (f : SaveFaults) : ShotStore × Option (List ℕ × ℕ) :=
  match s.scanIds f with
  | none => (s, none)
  | some ids =>
    match reserveNextShotId s.nvs (ids.getLast?.getD 0) f with
    | (0, nvs) => ({ s with nvs := nvs }, none)
    | (id + 1, nvs) => ({ s with nvs := nvs }, some (ids, id + 1))

/-- What a save does before it has an id. -/
def reserve (s : ShotStore) (ext : Extraction) (f : SaveFaults) : ShotStore × Option (List ℕ × ℕ) :=
  if f.unmounted then (s, none)
  else if ext.version ≠ kCurrentExtractionVersion then (s, none)
  else if encodeCompactSize ext = none then (s, none)
  else if (s.dir = none ∨ f.existsFails) ∧ f.mkdir.isSome then
    (if f.mkdir = some true then { s with dir := some s.files } else s, none)
  else { s with dir := some s.files }.handOut f

/-! ## The record -/

/-- The file after the chunks, and whether all writes succeeded. -/
def appendChunks : Bytes → List Bytes → List (Option ℕ) → Bytes × Bool
  | content, [], _ => (content, true)
  | content, chunk :: chunks, faults =>
    match faults.headD none with
    | none => appendChunks (content ++ chunk) chunks faults.tail
    | some k => (content ++ chunk.take k, false)

/-- What is found in the file after it was closed. -/
def closed (content : Bytes) (f : SaveFaults) : Bytes :=
  match f.closeKeeps with
  | none => content
  | some k => content.take k

/-- The check of size and header after the write. -/
def verifies (content : Bytes) (encodedSize : ℕ) (f : SaveFaults) : Bool :=
  let fileSize := if f.checkOpenFails || f.checkSizeFails then 0 else content.length
  let header :=
    if f.checkOpenFails then [] else (content.take kCompactHeaderBytes).take (f.checkReads.getD kCompactHeaderBytes)
  fileSize = encodedSize && isValidShotHeader header

/-- What is written to the opened file, checked, and removed again if it is not what was meant. -/
def writeOpened (files : ShotFiles) (ext : Extraction) (id encodedSize : ℕ) (f : SaveFaults) :
    ShotFiles × Bool :=
  let encoded := (encodeCompact ext).isSome
  let (content, writeOk) := appendChunks [] ((encodeCompact ext).getD []) f.writes
  let content := closed content f
  let files := files.insert (fileName id) (.file content)
  if encoded && writeOk && verifies content encodedSize f then (files, true)
  else (if f.remove = some false then files else files.erase (fileName id), false)

/-- `_writeRecordUnlocked`. -/
def writeRecord (files : ShotFiles) (ext : Extraction) (id encodedSize : ℕ) (f : SaveFaults) :
    ShotFiles × Bool :=
  -- a directory of that name cannot be opened for writing
  if files.lookup (fileName id) = some .directory then (files, false)
  else
    match f.openFile with
    | some applied => (if applied then files.insert (fileName id) (.file []) else files, false)
    | none => writeOpened files ext id encodedSize f

/-! ## Retention -/

structure Eviction where
  files : ShotFiles
  revision : ℕ
  failed : Bool := false

/-- Remove files one by one until a removal fails. -/
def evict : List ℕ → List WriteFault → Eviction → Eviction
  | [], _, e => e
  | id :: ids, faults, e =>
    match faults.headD none with
    | none =>
      evict ids faults.tail { e with files := e.files.erase (fileName id), revision := e.revision + 1 }
    | some applied =>
      { e with files := if applied then e.files.erase (fileName id) else e.files, failed := true }

/-- `_enforceRetentionUnlocked`. -/
def enforceRetention (s : ShotStore) (ids : List ℕ) (f : SaveFaults) : Eviction :=
  evict (ids.take (ids.length - kMaxShots)) f.evictions { files := s.files, revision := s.revision }

/-! ## The save -/

structure SaveOutcome where
  store : ShotStore
  saved : Bool := false
  removalFailed : Bool := false

/-- A save that has an id. -/
def writeAndEvict (s : ShotStore) (ext : Extraction) (ids : List ℕ) (id : ℕ) (f : SaveFaults) :
    SaveOutcome :=
  let (files, written) := writeRecord s.files ext id ((encodeCompactSize ext).getD 0) f
  let s := { s with dir := some files }
  if written then
    let s := { s with revision := s.revision + 1 }
    let e := s.enforceRetention (ids ++ [id]) f
    { store := { s with dir := some e.files, revision := e.revision }, saved := true,
      removalFailed := e.failed }
  else { store := s }

/-- `save`. -/
def save (s : ShotStore) (ext : Extraction) (f : SaveFaults) : SaveOutcome :=
  match s.reserve ext f with
  | (s, none) => { store := s }
  | (s, some (ids, id)) => s.writeAndEvict ext ids id f

/-- `erase`. -/
def erase (s : ShotStore) (id : ℕ) (fault : WriteFault) : ShotStore :=
  match s.files.lookup (fileName id), fault with
  | none, _ => s
  | some _, some false => s
  | some _, some true => { s with dir := some (s.files.erase (fileName id)) }
  | some _, none =>
    { s with dir := some (s.files.erase (fileName id)), revision := s.revision + 1 }

/-- `storage::format`: the history partition is empty again. -/
def format (s : ShotStore) : ShotStore := { s with dir := none }

/-- After a reboot the revision starts anew, and an uncommitted write is there or not. -/
def reboot (s : ShotStore) (keepsPending : Bool) : ShotStore :=
  { s with
    revision := 0
    nvs := { committed := if keepsPending then s.nvs.pending.or s.nvs.committed else s.nvs.committed } }

end ShotStore

end Pumpbug
