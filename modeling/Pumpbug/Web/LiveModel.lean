import Pumpbug.ExtractionStream
import Pumpbug.Web.BatchAgreement

/-!
# The browser's live model

The packet handlers of `stream.js`: what the page keeps of the device, as the packets of one stream
build it up.  A packet comes as its payload and the sequence number of its header; an exception
leaves the model as it was.
-/

namespace Pumpbug

open Lib Lib.Reader

/-! ## State packets -/

def ScaleState.toByte : ScaleState → U8
  | .off => 0
  | .scanning => 1
  | .connecting => 2
  | .ready => 3
  | .reconnecting => 4

def MountState.toByte : MountState → U8
  | .ready => 0
  | .unavailable => 1

namespace ExtractionStream

open Controller (StatusSnapshot)

def stateFlags (snap : StatusSnapshot) : U8 :=
  (if snap.active then 0x01 else 0) ||| (if snap.currentWeightCg.isSome then 0x02 else 0) |||
    (if snap.currentYieldCg.isSome then 0x04 else 0) ||| (if snap.currentPouring then 0x08 else 0) |||
    (if snap.hasDisplayShot then 0x10 else 0) |||
    (if snap.pumpSignalState = .decayCandidate then 0x20 else 0)

/-- The payload of a `STATE` packet; `acceptedSeq` is in its header. -/
def statePayload (snap : StatusSnapshot) : Bytes :=
  [stateFlags snap, snap.currentPhase.toByte, snap.scaleState.toByte, snap.storageState.toByte] ++
    (writeU32LE snap.currentElapsedMs ++ (writeU32LE (BitVec.ofNat 32 snap.savedSeq) ++
    (writeI16LE (snap.currentWeightCg.getD NO_WEIGHT) ++
    writeI16LE (snap.currentYieldCg.getD NO_WEIGHT))))

end ExtractionStream

namespace Web

inductive PhaseName
  | IDLE | RUNNING | POST_PUMP | DONE
  deriving DecidableEq

/-- `PHASE[b] || 'IDLE'`. -/
def phaseName (b : U8) : PhaseName :=
  if b = 1 then .RUNNING else if b = 2 then .POST_PUMP else if b = 3 then .DONE else .IDLE

inductive ScaleName
  | off | scanning | connecting | connected | reconnecting | idle
  deriving DecidableEq

/-- `SCALE_STATE[b] || 'idle'`. -/
def scaleName (b : U8) : ScaleName :=
  if b = 0 then .off else if b = 1 then .scanning else if b = 2 then .connecting
  else if b = 3 then .connected else if b = 4 then .reconnecting else .idle

inductive StorageName
  | ready | unavailable
  deriving DecidableEq

/-- `SHOT_STORAGE_STATUS[b] || 'unavailable'`. -/
def storageName (b : U8) : StorageName := if b = 0 then .ready else .unavailable

structure State where
  active : Bool
  pouring : Bool
  pumpDecayCandidate : Bool
  hasDisplayShot : Bool
  phase : PhaseName
  scale : ScaleName
  storage : StorageName
  elapsedMs : ℤ
  savedSeq : ℤ
  currentWeightCg : Option ℤ
  currentYieldCg : Option ℤ
  /-- From the header. -/
  acceptedSeq : ℕ
  deriving DecidableEq

def parseStatePayload (dv : Bytes) (off acceptedSeq : ℕ) : Option State := do
  let flags ← getUint8 dv off
  let phase ← getUint8 dv (off + 1)
  let scale ← getUint8 dv (off + 2)
  let storage ← getUint8 dv (off + 3)
  let elapsedMs ← getUint32 dv (off + 4)
  let savedSeq ← getUint32 dv (off + 8)
  let weightCg ← getUint16 dv (off + 12)
  let yieldCg ← getUint16 dv (off + 14)
  pure {
    active := flags &&& 0x01 ≠ 0
    pouring := flags &&& 0x08 ≠ 0
    pumpDecayCandidate := flags &&& 0x20 ≠ 0
    hasDisplayShot := flags &&& 0x10 ≠ 0
    phase := phaseName phase
    scale := scaleName scale
    storage := storageName storage
    elapsedMs := num elapsedMs
    savedSeq := num savedSeq
    currentWeightCg := if flags &&& 0x02 ≠ 0 then some weightCg.toInt else none
    currentYieldCg := if flags &&& 0x04 ≠ 0 then some yieldCg.toInt else none
    acceptedSeq := acceptedSeq }

/-- Live activity, on the foreground extraction screen. -/
def inPumpWindow : Option State → Bool
  | none => false
  | some s => s.active && (s.phase = .RUNNING || s.phase = .POST_PUMP)

/-! ## The model -/

/-- A record with the sequence number of the packet that it came in. -/
structure LiveRecord where
  ext : Extraction
  shotSeq : ℕ
  deriving DecidableEq

/-- The variables of `app.js` that the packets drive. -/
structure LiveModel where
  state : Option State := none
  inflight : Option LiveRecord := none
  lastRecord : Option LiveRecord := none
  /-- `forceReconnect` has closed the stream. -/
  outOfSync : Bool := false
  deriving DecidableEq

namespace LiveModel

variable (m : LiveModel)

/-- A stream opens; what the page has from the one before stays. -/
def openStream : LiveModel := { m with outOfSync := false }

def forceReconnect : LiveModel := { m with inflight := none, outOfSync := true }

/-- The record in flight was abandoned: nothing graduated, and the device went idle. -/
def abandoned (s : State) : Bool :=
  m.inflight.isSome && inPumpWindow m.state && s.phase = .IDLE &&
    m.state.any fun last => s.acceptedSeq = last.acceptedSeq

def handleStatePacket (payload : Bytes) (shotSeq : ℕ) : LiveModel :=
  match parseStatePayload payload 0 shotSeq with
  | none => m
  | some s =>
    { m with
      inflight := if m.abandoned s then none else m.inflight
      lastRecord := if s.hasDisplayShot then m.lastRecord else none
      state := some s }

def handleCurrentRecordPacket (payload : Bytes) (shotSeq : ℕ) : LiveModel :=
  match parseExtractionFromDv payload 0 with
  | none => m
  | some ext => { m with inflight := some ⟨ext, shotSeq⟩ }

def handleFinalRecordPacket (payload : Bytes) (shotSeq : ℕ) : LiveModel :=
  match parseExtractionFromDv payload 0 with
  | none => m
  | some ext =>
    { m with
      inflight := m.inflight.filter fun f => shotSeq = f.shotSeq
      lastRecord := some ⟨ext, shotSeq⟩ }

def handleSampleBatchPacket (payload : Bytes) (shotSeq : ℕ) : LiveModel :=
  match m.inflight with
  | none => m.forceReconnect
  | some f =>
    if f.shotSeq ≠ shotSeq then m.forceReconnect
    else
      match parseSampleBatchPayload payload 0 f.ext.beginMs with
      | none => m
      | some batch =>
        if batch.firstIdx ≠ f.ext.samples.length then m.forceReconnect
        else
          let samples := f.ext.samples ++ batch.samples
          { m with
            inflight := some
              { f with ext := { f.ext with samples := samples, sampleCount := samples.length } } }

open ExtractionStream (Packet statePayload)

/-- A packet arrives, unless the stream is closed. -/
def receive (p : Packet) : LiveModel :=
  if m.outOfSync then m
  else
    match p with
    | .state snap => m.handleStatePacket (statePayload snap) snap.acceptedSeq
    | .currentRecord ext shotSeq =>
      match encodeCompact ext with
      | none => m
      | some chunks => m.handleCurrentRecordPacket chunks.flatten shotSeq
    | .sampleBatch samples ext shotSeq =>
      match samples.sampleBatchPayload ext with
      | none => m
      | some payload => m.handleSampleBatchPacket payload shotSeq
    | .finalRecord ext shotSeq =>
      match encodeCompact ext with
      | none => m
      | some chunks => m.handleFinalRecordPacket chunks.flatten shotSeq

end LiveModel

end Web

end Pumpbug
