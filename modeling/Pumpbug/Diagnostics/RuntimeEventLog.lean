import Pumpbug.Extraction
import Pumpbug.Lib.Ring
import Pumpbug.Net.JsonDocument

/-!
# The runtime event log

`RuntimeEventLog.h`: for each kind of event a ring, with a revision that every change moves on.  The
routes in `diagnostics_routes.cpp` send a snapshot with a validator of the boot and the revision, and
304 to a client that has that validator.
-/

namespace Pumpbug.Diagnostics

open Lib Lib.Json
open Pumpbug.Net

/-! ## Rings -/

structure EventRing (α : Type) (N : ℕ) where
  ring : Ring α N
  revision : U32 := 0

namespace EventRing

variable {α : Type} {N : ℕ} [NeZero N]

/-- The ring at boot. -/
def empty [Inhabited α] : EventRing α N := { ring := { items := fun _ => default, writes := 0 } }

def push (r : EventRing α N) (e : α) : EventRing α N :=
  { ring := r.ring.push e, revision := r.revision + 1 }

def clear (r : EventRing α N) : EventRing α N :=
  { ring := r.ring.clear, revision := r.revision + 1 }

end EventRing

/-! ## Events -/

structure ExtractionStat where
  startUtcSec : U32 := 0
  beginMs : U32 := 0
  lastPumpOffConfirmedMs : U32 := 0
  stableMs : U32 := 0
  endMs : U32 := 0
  totalPumpOnMs : U32 := 0
  yieldCg : I16 := 0
  startRawCg : I16 := 0
  settledRawCg : I16 := 0
  pourMs : U32 := 0
  decisionGainCg : I32 := 0
  observedSampleCount : U16 := 0
  endCause : U8 := 0
  yieldStatus : U8 := 0
  isLikelyRealShot : Bool := false
  deriving Inhabited

inductive NetSource where
  | wifi | ble
  deriving DecidableEq, Inhabited

structure NetFailure where
  ms : U32 := 0
  utcSec : U32 := 0
  source : NetSource := .wifi
  code : U16 := 0
  msg : List Char := []
  deriving Inhabited

/-! ## Bodies -/

def weight (cg : I16) : JsonCall := if cg = NO_WEIGHT then .null else .i (cg.signExtend 32)

/-- A ring's object: `writeRow` writes an entry. -/
def writeRing {α : Type} (cap : U32) (writeRow : α → List JsonCall) (rows : List α) (writes : U32) :
    List JsonCall :=
  [.open, .key "cap".toList, .u cap, .key "writes".toList, .u writes, .key "entries".toList,
    .arrayOpen] ++ eachRow writeRow true rows ++ [.arrayClose, .close]

def writeStat (e : ExtractionStat) : List JsonCall :=
  [.open,
    .key "startUtcSec".toList, .u e.startUtcSec,
    .key "beginMs".toList, .u e.beginMs,
    .key "lastPumpOffConfirmedMs".toList, .u e.lastPumpOffConfirmedMs,
    .key "stableMs".toList, .u e.stableMs,
    .key "endMs".toList, .u e.endMs,
    .key "totalPumpOnMs".toList, .u e.totalPumpOnMs,
    .key "yieldCg".toList, weight e.yieldCg,
    .key "startRawCg".toList, weight e.startRawCg,
    .key "settledRawCg".toList, weight e.settledRawCg,
    .key "pourMs".toList, .u e.pourMs,
    .key "decisionGainCg".toList, .i e.decisionGainCg,
    .key "observedSampleCount".toList, .u (e.observedSampleCount.setWidth 32),
    .key "endCause".toList, .u (e.endCause.setWidth 32),
    .key "yieldStatus".toList, .u (e.yieldStatus.setWidth 32),
    .key "isLikelyRealShot".toList, .boolean e.isLikelyRealShot,
    .close]

def writeFailure (e : NetFailure) : List JsonCall :=
  [.open,
    .key "ms".toList, .u e.ms,
    .key "utcSec".toList, .u e.utcSec,
    .key "source".toList, .str (some (if e.source = .wifi then "wifi".toList else "ble".toList)),
    .key "code".toList, .u (e.code.setWidth 32),
    .key "msg".toList, .str (some e.msg),
    .close]

def EXTRACTION_CAP : ℕ := 8
def NET_CAP : ℕ := 16

instance : NeZero EXTRACTION_CAP := ⟨by decide⟩
instance : NeZero NET_CAP := ⟨by decide⟩

def writeExtraction : List ExtractionStat → U32 → List JsonCall :=
  writeRing (BitVec.ofNat 32 EXTRACTION_CAP) writeStat

def writeNet : List NetFailure → U32 → List JsonCall := writeRing (BitVec.ofNat 32 NET_CAP) writeFailure

/-! ## Documents -/

/-- A kind of event, with its name in the routes and the document of an entry. -/
structure LogKind (α : Type) where
  name : String
  cap : U32
  writeRow : α → List JsonCall
  rowDoc : α → JsonDoc
  rowDoc_calls : ∀ e, (rowDoc e).calls = writeRow e
  fits : ∀ e, (rowDoc e).Fits 7

namespace LogKind

variable {α : Type} (k : LogKind α)

def body (rows : List α) (writes : U32) : List JsonCall := writeRing k.cap k.writeRow rows writes

def doc (rows : List α) (writes : U32) : JsonDoc :=
  .obj [("cap".toList, .u k.cap), ("writes".toList, .u writes),
    ("entries".toList, .arr (rows.map k.rowDoc))]

theorem doc_calls (rows : List α) (writes : U32) : (k.doc rows writes).calls = k.body rows writes := by
  have hrow : k.writeRow = fun e => (k.rowDoc e).calls := funext fun e => (k.rowDoc_calls e).symm
  simp [doc, body, writeRing, JsonDoc.calls, JsonDoc.eachRow_eq, hrow, Function.comp_def]

theorem fits_doc (rows : List α) (writes : U32) : (k.doc rows writes).Fits JsonStream.kMaxDepth := by
  have hentries : (JsonDoc.arr (rows.map k.rowDoc)).Fits 7 := by
    refine .arr fun v hv => ?_
    obtain ⟨e, -, rfl⟩ := List.mem_map.1 hv
    exact k.fits e
  refine .obj ?_
  simp [JsonDoc.Fits.u, hentries]

/-- The body of a snapshot is read as its document. -/
theorem body_read (rows : List α) (writes : U32) :
    ((JsonStream.run {} (k.body rows writes ++ [.finish])).map fun j => j.chunks.flatten).bind parse =
      some (k.doc rows writes).value := by
  obtain ⟨j, hrun, hbody⟩ := document_sent (k.fits_doc rows writes) 1024
  rw [← k.doc_calls, hrun, Option.map_some, Option.bind_some, hbody]
  exact parse_text (k.fits_doc rows writes)

end LogKind

def weightDoc (cg : I16) : JsonDoc := if cg = NO_WEIGHT then .null else .i (cg.signExtend 32)

theorem weightDoc_calls (cg : I16) : (weightDoc cg).calls = [weight cg] := by
  unfold weightDoc weight
  split_ifs <;> simp [JsonDoc.calls]

theorem fits_weightDoc (n : ℕ) (cg : I16) : (weightDoc cg).Fits n := by
  unfold weightDoc
  split_ifs
  · exact .null
  · exact .i _

def statDoc (e : ExtractionStat) : JsonDoc :=
  .obj [("startUtcSec".toList, .u e.startUtcSec),
    ("beginMs".toList, .u e.beginMs),
    ("lastPumpOffConfirmedMs".toList, .u e.lastPumpOffConfirmedMs),
    ("stableMs".toList, .u e.stableMs),
    ("endMs".toList, .u e.endMs),
    ("totalPumpOnMs".toList, .u e.totalPumpOnMs),
    ("yieldCg".toList, weightDoc e.yieldCg),
    ("startRawCg".toList, weightDoc e.startRawCg),
    ("settledRawCg".toList, weightDoc e.settledRawCg),
    ("pourMs".toList, .u e.pourMs),
    ("decisionGainCg".toList, .i e.decisionGainCg),
    ("observedSampleCount".toList, .u (e.observedSampleCount.setWidth 32)),
    ("endCause".toList, .u (e.endCause.setWidth 32)),
    ("yieldStatus".toList, .u (e.yieldStatus.setWidth 32)),
    ("isLikelyRealShot".toList, .boolean e.isLikelyRealShot)]

def failureDoc (e : NetFailure) : JsonDoc :=
  .obj [("ms".toList, .u e.ms),
    ("utcSec".toList, .u e.utcSec),
    ("source".toList, .str (some (if e.source = .wifi then "wifi".toList else "ble".toList))),
    ("code".toList, .u (e.code.setWidth 32)),
    ("msg".toList, .str (some e.msg))]

def extractionLog : LogKind ExtractionStat where
  name := "extraction"
  cap := BitVec.ofNat 32 EXTRACTION_CAP
  writeRow := writeStat
  rowDoc := statDoc
  rowDoc_calls e := by simp [statDoc, writeStat, JsonDoc.calls, weightDoc_calls]
  fits e := by
    refine .obj ?_
    simp [fits_weightDoc, JsonDoc.Fits.u, JsonDoc.Fits.i, JsonDoc.Fits.boolean]

def netLog : LogKind NetFailure where
  name := "net"
  cap := BitVec.ofNat 32 NET_CAP
  writeRow := writeFailure
  rowDoc := failureDoc
  rowDoc_calls e := by simp [failureDoc, writeFailure, JsonDoc.calls]
  fits e := by
    refine .obj ?_
    simp [JsonDoc.Fits.u, JsonDoc.Fits.str]

theorem extractionLog_body : extractionLog.body = writeExtraction := rfl

theorem netLog_body : netLog.body = writeNet := rfl

/-! ## Validators -/

/-- The digits of `%08lx`. -/
def hex8 (v : U32) : List Char :=
  (List.range 8).map fun i => Nat.digitChar (v.toNat / 16 ^ (7 - i) % 16)

/-- The text in `conditional`. -/
def etag (name : String) (nonce changeToken : U32) : List Char :=
  "W/\"".toList ++ name.toList ++ ['-'] ++ hex8 nonce ++ ['-'] ++ Nat.toDigits 10 changeToken.toNat ++ ['"']

theorem digitChar_inj : ∀ a < 16, ∀ b < 16, Nat.digitChar a = Nat.digitChar b → a = b := by decide

theorem hex8_inj {v w : U32} (h : hex8 v = hex8 w) : v = w := by
  have hdigit : ∀ i < 8, v.toNat / 16 ^ (7 - i) % 16 = w.toNat / 16 ^ (7 - i) % 16 := by
    intro i hi
    refine digitChar_inj _ (Nat.mod_lt _ (by decide)) _ (Nat.mod_lt _ (by decide)) ?_
    exact List.map_inj_left.1 h i (List.mem_range.2 hi)
  have hv : v.toNat < 2 ^ 32 := v.isLt
  have hw : w.toNat < 2 ^ 32 := w.isLt
  have h0 := hdigit 0 (by decide)
  have h1 := hdigit 1 (by decide)
  have h2 := hdigit 2 (by decide)
  have h3 := hdigit 3 (by decide)
  have h4 := hdigit 4 (by decide)
  have h5 := hdigit 5 (by decide)
  have h6 := hdigit 6 (by decide)
  have h7 := hdigit 7 (by decide)
  norm_num at h0 h1 h2 h3 h4 h5 h6 h7 hv hw
  refine BitVec.eq_of_toNat_eq ?_
  omega

/-- A validator names its boot and its change. -/
theorem etag_inj {name : String} {nonce nonce' token token' : U32}
    (h : etag name nonce token = etag name nonce' token') : nonce = nonce' ∧ token = token' := by
  -- the equation of `etag` takes long to make
  delta etag at h
  simp only [List.append_assoc] at h
  have h₁ := List.append_cancel_left (List.append_cancel_left (List.append_cancel_left h))
  obtain ⟨hnonce, hrest⟩ := List.append_inj h₁ (by simp [hex8])
  have h₂ := List.append_cancel_right (List.append_cancel_left hrest)
  refine ⟨hex8_inj hnonce, BitVec.eq_of_toNat_eq ?_⟩
  rw [← Nat.ofDigitChars_ten_toDigits (n := token.toNat), h₂, Nat.ofDigitChars_ten_toDigits]

end Pumpbug.Diagnostics
