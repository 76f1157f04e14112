import Pumpbug.Net.JsonDocument
import Pumpbug.Power.PowerEventLog

/-!
# The power log over HTTP

`servePower` and `writePower` in `diagnostics_routes.cpp`: the newest-first history in pages that fit
the response, the live battery on the first page, and what the client reads of a page.
-/

namespace Pumpbug.Power

open Lib Lib.Json
open Pumpbug.Net

def kPowerPageCap : ℕ := 12

/-! ## The route -/

/-- `power::getBatteryStatus`, with the radio's condition. -/
structure LiveStatus where
  /-- -1 if the reading failed. -/
  percent : I32
  voltageMv : I32
  hasExternalPower : Bool
  bluetoothConditioned : Bool
  deriving DecidableEq

/-- A number, or null. -/
def optional (c : Bool) (v : U32) : JsonCall := if c then .u v else .null

def notNegative (v : I32) : JsonCall := if v.toInt < 0 then .null else .i v

def PowerEvent.wake (e : PowerEvent) : Bool := e.kind = PowerEventKind.wake.toByte

def PowerEvent.wakeSourceValid (e : PowerEvent) : Bool := e.wake && (e.boot.flags.getLsbD 5)

def PowerEvent.gpioIrqValid (e : PowerEvent) : Bool := e.wake && (e.boot.flags.getLsbD 6)

def PowerEvent.bootI2cConfigRead (e : PowerEvent) : Bool := e.wake && (e.boot.flags.getLsbD 9)

def PowerEvent.i2cConfigValid (e : PowerEvent) : Bool := !e.wake && (e.sleep.flags.getLsbD 0)

def writeEvent (e : PowerEvent) : List JsonCall :=
  [.open,
    .key "utcSec".toList, .u e.utcSec,
    .key "kind".toList, .str (some (if e.wake then "wake".toList else "sleep".toList)),
    .key "batteryPct".toList, notNegative (e.batteryPct.signExtend 32),
    .key "hasExternalPower".toList, .boolean (e.hasExternalPower ≠ 0),
    .key "resetReason".toList, .u (if e.wake then e.resetReason.setWidth 32 else 0),
    .key "bootFlags".toList, .u (if e.wake then e.boot.flags.setWidth 32 else 0),
    .key "pm1WakeSource".toList, optional e.wakeSourceValid (e.boot.pm1WakeSource.setWidth 32),
    .key "pm1GpioIrq".toList, optional e.gpioIrqValid (e.boot.pm1GpioIrq.setWidth 32),
    .key "pm1BootI2cConfig".toList, optional e.bootI2cConfigRead (e.boot.pm1I2cConfig.setWidth 32),
    .key "pm1I2cConfig".toList, optional e.i2cConfigValid (e.sleep.pm1I2cConfig.setWidth 32),
    .close]

def writeLive (live : LiveStatus) : List JsonCall :=
  [.key "live".toList, .open,
    .key "batteryPct".toList, notNegative live.percent,
    .key "batteryMv".toList, notNegative live.voltageMv,
    .key "hasExternalPower".toList, .boolean live.hasExternalPower,
    .key "bluetoothConditioned".toList, .boolean live.bluetoothConditioned,
    .close]

def writePower (live : Option LiveStatus) (rows : List PowerEvent) (writes : U32)
    (total offset : ℕ) : List JsonCall :=
  let nextOffset := offset + rows.length
  [.open,
    .key "cap".toList, .u (BitVec.ofNat 32 CAP),
    .key "writes".toList, .u writes,
    .key "total".toList, .u (BitVec.ofNat 32 total),
    .key "offset".toList, .u (BitVec.ofNat 32 offset),
    .key "nextOffset".toList, optional (nextOffset < total) (BitVec.ofNat 32 nextOffset)] ++
  (match live with
    | some live => writeLive live
    | none => []) ++
  [.key "entries".toList, .arrayOpen] ++ eachRow writeEvent true rows ++ [.arrayClose, .close]

/-- The calls of `servePower` for the argument `offset`; none is a bad request. -/
def servePower (l : PowerEventLog) (battery : LiveStatus) (offset : ℕ) : Option (List JsonCall) :=
  if CAP < offset then none
  else
    let live := if offset = 0 then some battery else none
    let rows := l.snapshot CAP
    let total := rows.length
    let offset := if total < offset then total else offset
    let n := min kPowerPageCap (total - offset)
    some (writePower live ((rows.drop offset).take n) l.writes total offset)

/-! ## What the client reads -/

structure PowerRow where
  utcSec : ℚ
  kind : List Char
  batteryPct : Option ℚ
  hasExternalPower : Bool
  resetReason : ℚ
  bootFlags : ℚ
  pm1WakeSource : Option ℚ
  pm1GpioIrq : Option ℚ
  pm1BootI2cConfig : Option ℚ
  pm1I2cConfig : Option ℚ
  deriving DecidableEq

structure LiveRow where
  batteryPct : Option ℚ
  batteryMv : Option ℚ
  hasExternalPower : Bool
  bluetoothConditioned : Bool
  deriving DecidableEq

structure PowerPage where
  writes : ℚ
  total : ℚ
  offset : ℚ
  nextOffset : Option ℚ
  live : Option LiveRow
  entries : List PowerRow
  deriving DecidableEq

/-- A number or null. -/
def asOptional : Value → Option (Option ℚ)
  | .null => some none
  | .num q => some (some q)
  | _ => none

def readRow (v : Value) : Option PowerRow := do
  some {
    utcSec := ← (v.field "utcSec".toList).bind Value.asNum
    kind := ← (v.field "kind".toList).bind Value.asStr
    batteryPct := ← (v.field "batteryPct".toList).bind asOptional
    hasExternalPower := ← (v.field "hasExternalPower".toList).bind Value.asBool
    resetReason := ← (v.field "resetReason".toList).bind Value.asNum
    bootFlags := ← (v.field "bootFlags".toList).bind Value.asNum
    pm1WakeSource := ← (v.field "pm1WakeSource".toList).bind asOptional
    pm1GpioIrq := ← (v.field "pm1GpioIrq".toList).bind asOptional
    pm1BootI2cConfig := ← (v.field "pm1BootI2cConfig".toList).bind asOptional
    pm1I2cConfig := ← (v.field "pm1I2cConfig".toList).bind asOptional }

def readLive (v : Value) : Option LiveRow := do
  some {
    batteryPct := ← (v.field "batteryPct".toList).bind asOptional
    batteryMv := ← (v.field "batteryMv".toList).bind asOptional
    hasExternalPower := ← (v.field "hasExternalPower".toList).bind Value.asBool
    bluetoothConditioned := ← (v.field "bluetoothConditioned".toList).bind Value.asBool }

def readPage (v : Value) : Option PowerPage := do
  let entries ← (v.field "entries".toList).bind Value.asArr
  some {
    writes := ← (v.field "writes".toList).bind Value.asNum
    total := ← (v.field "total".toList).bind Value.asNum
    offset := ← (v.field "offset".toList).bind Value.asNum
    nextOffset := ← (v.field "nextOffset".toList).bind asOptional
    live := (v.field "live".toList).bind readLive
    entries := ← entries.mapM readRow }

/-- The page that arrives of a body. -/
def arrived (calls : List JsonCall) : Option PowerPage := do
  let j ← JsonStream.run {} (calls ++ [.finish])
  let v ← parse j.chunks.flatten
  readPage v

/-! ## A page arrives -/

def notNegativeDoc (v : I32) : JsonDoc := if v.toInt < 0 then .null else .i v

def optionalDoc (c : Bool) (v : U32) : JsonDoc := if c then .u v else .null

def eventDoc (e : PowerEvent) : JsonDoc :=
  .obj [("utcSec".toList, .u e.utcSec),
    ("kind".toList, .str (some (if e.wake then "wake".toList else "sleep".toList))),
    ("batteryPct".toList, notNegativeDoc (e.batteryPct.signExtend 32)),
    ("hasExternalPower".toList, .boolean (e.hasExternalPower ≠ 0)),
    ("resetReason".toList, .u (if e.wake then e.resetReason.setWidth 32 else 0)),
    ("bootFlags".toList, .u (if e.wake then e.boot.flags.setWidth 32 else 0)),
    ("pm1WakeSource".toList, optionalDoc e.wakeSourceValid (e.boot.pm1WakeSource.setWidth 32)),
    ("pm1GpioIrq".toList, optionalDoc e.gpioIrqValid (e.boot.pm1GpioIrq.setWidth 32)),
    ("pm1BootI2cConfig".toList, optionalDoc e.bootI2cConfigRead (e.boot.pm1I2cConfig.setWidth 32)),
    ("pm1I2cConfig".toList, optionalDoc e.i2cConfigValid (e.sleep.pm1I2cConfig.setWidth 32))]

def liveDoc (live : LiveStatus) : JsonDoc :=
  .obj [("batteryPct".toList, notNegativeDoc live.percent),
    ("batteryMv".toList, notNegativeDoc live.voltageMv),
    ("hasExternalPower".toList, .boolean live.hasExternalPower),
    ("bluetoothConditioned".toList, .boolean live.bluetoothConditioned)]

def pageDoc (live : Option LiveStatus) (rows : List PowerEvent) (writes : U32)
    (total offset : ℕ) : JsonDoc :=
  .obj ([("cap".toList, .u (BitVec.ofNat 32 CAP)), ("writes".toList, .u writes),
      ("total".toList, .u (BitVec.ofNat 32 total)), ("offset".toList, .u (BitVec.ofNat 32 offset)),
      ("nextOffset".toList, optionalDoc (offset + rows.length < total)
        (BitVec.ofNat 32 (offset + rows.length)))] ++
    (live.toList.map fun live => ("live".toList, liveDoc live)) ++
    [("entries".toList, .arr (rows.map eventDoc))])

theorem notNegativeDoc_calls (v : I32) : (notNegativeDoc v).calls = [notNegative v] := by
  unfold notNegativeDoc notNegative
  split_ifs <;> simp [JsonDoc.calls]

theorem optionalDoc_calls (c : Bool) (v : U32) : (optionalDoc c v).calls = [optional c v] := by
  unfold optionalDoc optional
  split_ifs <;> simp [JsonDoc.calls]

theorem eventDoc_calls (e : PowerEvent) : (eventDoc e).calls = writeEvent e := by
  simp [eventDoc, writeEvent, JsonDoc.calls, notNegativeDoc_calls, optionalDoc_calls]

theorem liveDoc_calls (live : LiveStatus) :
    .key "live".toList :: (liveDoc live).calls = writeLive live := by
  simp [liveDoc, writeLive, JsonDoc.calls, notNegativeDoc_calls]

theorem pageDoc_calls (live : Option LiveStatus) (rows : List PowerEvent) (writes : U32)
    (total offset : ℕ) :
    (pageDoc live rows writes total offset).calls = writePower live rows writes total offset := by
  have hrow : writeEvent = fun e => (eventDoc e).calls := funext fun e => (eventDoc_calls e).symm
  cases live with
  | none =>
    simp [pageDoc, writePower, JsonDoc.calls, optionalDoc_calls, JsonDoc.eachRow_eq, hrow,
      Function.comp_def]
  | some live =>
    simp [pageDoc, writePower, JsonDoc.calls, optionalDoc_calls, JsonDoc.eachRow_eq, hrow,
      Function.comp_def, ← liveDoc_calls]

theorem fits_notNegativeDoc (n : ℕ) (v : I32) : (notNegativeDoc v).Fits n := by
  unfold notNegativeDoc
  split_ifs
  · exact .null
  · exact .i v

theorem fits_optionalDoc (n : ℕ) (c : Bool) (v : U32) : (optionalDoc c v).Fits n := by
  unfold optionalDoc
  split_ifs
  · exact .u v
  · exact .null

theorem fits_eventDoc (n : ℕ) (e : PowerEvent) : (eventDoc e).Fits (n + 1) := by
  refine .obj ?_
  simp [fits_notNegativeDoc, fits_optionalDoc, JsonDoc.Fits.u, JsonDoc.Fits.str, JsonDoc.Fits.boolean]

theorem fits_liveDoc (n : ℕ) (live : LiveStatus) : (liveDoc live).Fits (n + 1) := by
  refine .obj ?_
  simp [fits_notNegativeDoc, JsonDoc.Fits.boolean]

theorem fits_pageDoc (n : ℕ) (live : Option LiveStatus) (rows : List PowerEvent) (writes : U32)
    (total offset : ℕ) : (pageDoc live rows writes total offset).Fits (n + 2) := by
  refine .obj ?_
  have hentries : (JsonDoc.arr (rows.map eventDoc)).Fits (n + 1) := by
    refine .arr fun v hv => ?_
    obtain ⟨e, -, rfl⟩ := List.mem_map.1 hv
    exact fits_eventDoc n e
  cases live <;> simp [fits_optionalDoc, fits_liveDoc, JsonDoc.Fits.u, hentries]

def numberOf (v : I32) : Option ℚ := if v.toInt < 0 then none else some v.toInt

def optionOf (c : Bool) (v : U32) : Option ℚ := if c then some v.toNat else none

@[simp] theorem asOptional_notNegativeDoc (v : I32) :
    asOptional (notNegativeDoc v).value = some (numberOf v) := by
  unfold notNegativeDoc numberOf
  split_ifs <;> simp [JsonDoc.value, asOptional]

@[simp] theorem asOptional_optionalDoc (c : Bool) (v : U32) :
    asOptional (optionalDoc c v).value = some (optionOf c v) := by
  unfold optionalDoc optionOf
  split_ifs <;> simp [JsonDoc.value, asOptional]

/-- The event as the client has it. -/
def rowOf (e : PowerEvent) : PowerRow where
  utcSec := e.utcSec.toNat
  kind := if e.wake then "wake".toList else "sleep".toList
  batteryPct := numberOf (e.batteryPct.signExtend 32)
  hasExternalPower := e.hasExternalPower ≠ 0
  resetReason := (if e.wake then e.resetReason.setWidth 32 else 0 : U32).toNat
  bootFlags := (if e.wake then e.boot.flags.setWidth 32 else 0 : U32).toNat
  pm1WakeSource := optionOf e.wakeSourceValid (e.boot.pm1WakeSource.setWidth 32)
  pm1GpioIrq := optionOf e.gpioIrqValid (e.boot.pm1GpioIrq.setWidth 32)
  pm1BootI2cConfig := optionOf e.bootI2cConfigRead (e.boot.pm1I2cConfig.setWidth 32)
  pm1I2cConfig := optionOf e.i2cConfigValid (e.sleep.pm1I2cConfig.setWidth 32)

def liveOf (live : LiveStatus) : LiveRow where
  batteryPct := numberOf live.percent
  batteryMv := numberOf live.voltageMv
  hasExternalPower := live.hasExternalPower
  bluetoothConditioned := live.bluetoothConditioned

theorem readRow_event (e : PowerEvent) : readRow (eventDoc e).value = some (rowOf e) := by
  cases hwake : e.wake <;> simp [readRow, eventDoc, JsonDoc.value, Value.field, cStr, List.lookup, rowOf,
    Value.asNum, Value.asStr, Value.asBool, hwake]

theorem readLive_live (live : LiveStatus) : readLive (liveDoc live).value = some (liveOf live) := by
  simp [readLive, liveDoc, JsonDoc.value, Value.field, cStr, List.lookup, liveOf, Value.asBool]

theorem readPage_page (live : Option LiveStatus) (rows : List PowerEvent) (writes : U32)
    {total offset : ℕ} (htotal : total ≤ CAP) (hoffset : offset + rows.length ≤ CAP) :
    readPage (pageDoc live rows writes total offset).value =
      some {
        writes := writes.toNat
        total := total
        offset := offset
        nextOffset := if offset + rows.length < total then some ↑(offset + rows.length) else none
        live := live.map liveOf
        entries := rows.map rowOf } := by
  have hcap : CAP = 32 := rfl
  have hsmall : ∀ n ≤ CAP, n < 4294967296 := by omega
  have hrows : (rows.map fun e => (eventDoc e).value).mapM readRow = some (rows.map rowOf) :=
    mapM_map fun e _ => readRow_event e
  have hnext : optionOf (offset + rows.length < total) (BitVec.ofNat 32 (offset + rows.length)) =
      if offset + rows.length < total then some ((offset : ℚ) + rows.length) else none := by
    rw [optionOf, BitVec.toNat_ofNat, Nat.mod_eq_of_lt (hsmall _ hoffset)]
    simp
  cases live with
  | none =>
    simp [readPage, pageDoc, JsonDoc.value, Value.field, cStr, List.lookup, Value.asNum, Value.asArr,
      Function.comp_def, hrows, hnext, hsmall total htotal, hsmall offset (by omega)]
  | some live =>
    simp [readPage, pageDoc, JsonDoc.value, Value.field, cStr, List.lookup, Value.asNum, Value.asArr,
      Function.comp_def, hrows, hnext, hsmall total htotal, hsmall offset (by omega), readLive_live]

/-- The page that the client has of the log. -/
def pageOf (l : PowerEventLog) (battery : LiveStatus) (offset : ℕ) : PowerPage :=
  let rows := l.snapshot CAP
  let first := min offset rows.length
  let entries := ((rows.drop first).take kPowerPageCap).map rowOf
  { writes := l.writes.toNat
    total := rows.length
    offset := first
    nextOffset := if first + entries.length < rows.length then some ↑(first + entries.length) else none
    live := if offset = 0 then some (liveOf battery) else none
    entries := entries }

theorem snapshot_length_le (l : PowerEventLog) : (l.snapshot CAP).length ≤ CAP := by
  simp [PowerEventLog.snapshot]
  split_ifs <;> omega

/-- What `servePower` sends arrives as that page. -/
theorem page_arrives (l : PowerEventLog) (battery : LiveStatus) {offset : ℕ} (h : offset ≤ CAP) :
    (servePower l battery offset).bind arrived = some (pageOf l battery offset) := by
  have hlen := snapshot_length_le l
  set rows := l.snapshot CAP with hrows
  have hfirst : (if rows.length < offset then rows.length else offset) = min offset rows.length := by
    split_ifs <;> omega
  have htake : (rows.drop (min offset rows.length)).take (min kPowerPageCap (rows.length -
      min offset rows.length)) = (rows.drop (min offset rows.length)).take kPowerPageCap := by
    rw [← List.length_drop, ← List.take_take, List.take_length]
  have hfits : min offset rows.length + ((rows.drop (min offset rows.length)).take kPowerPageCap).length
      ≤ CAP := by
    rw [List.length_take, List.length_drop]
    omega
  have hservePower : servePower l battery offset =
      some (pageDoc (if offset = 0 then some battery else none)
        ((rows.drop (min offset rows.length)).take kPowerPageCap) l.writes rows.length
        (min offset rows.length)).calls := by
    rw [pageDoc_calls, servePower, if_neg (by omega), ← hrows]
    simp only [hfirst, htake]
  have hdoc := fits_pageDoc 6 (if offset = 0 then some battery else none)
    ((rows.drop (min offset rows.length)).take kPowerPageCap) l.writes rows.length
    (min offset rows.length)
  obtain ⟨j, hrun, hbody⟩ := document_sent hdoc 1024
  rw [hservePower, Option.bind_some, arrived, hrun]
  simp only [Option.bind_eq_bind, Option.bind_some, hbody, parse_text hdoc]
  rw [readPage_page _ _ _ hlen hfits, pageOf, ← hrows]
  simp only [Option.some.injEq, PowerPage.mk.injEq, List.length_map, and_true, true_and]
  split_ifs <;> rfl

end Pumpbug.Power
