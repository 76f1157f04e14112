import Pumpbug.Encoding
import Pumpbug.Num

/-!
# The Acaia packet codec

`AcaiaV2Codec.cpp`, the inbound path: notifications are cut into protocol frames, and a frame is
classified for the message log and decoded into at most one event.
-/

namespace Pumpbug.AcaiaV2

open Lib

def HDR1 : U8 := 0xEF
def HDR2 : U8 := 0xDD

/-- The largest frame that is put together from notifications. -/
def MAX_FRAME : ℕ := 64

namespace Msg

def TIMER : U8 := 0x07
def SETTINGS : U8 := 0x08
def EVENT : U8 := 0x0C

end Msg

/-! ## Frames -/

/-- The sums of the bytes at even and at odd places. -/
def checksumFrom : Bool → U8 × U8 → Bytes → U8 × U8
  | _, ck, [] => ck
  | true, ck, b :: data => checksumFrom false (ck.1 + b, ck.2) data
  | false, ck, b :: data => checksumFrom true (ck.1, ck.2 + b) data

def checksum (data : Bytes) : U8 × U8 := checksumFrom true (0, 0) data

structure Frame where
  type : U8
  /-- The length byte and the payload. -/
  body : Bytes
  payload : Bytes
  /-- `EF DD … checksum`. -/
  wire : Bytes
  deriving DecidableEq

def parseWireFrame (data : Bytes) : Option Frame :=
  if data.length < 6 then none
  else if byteAt data 0 ≠ HDR1 ∨ byteAt data 1 ≠ HDR2 then none
  else
    let bodyLen := (byteAt data 3).toNat
    if bodyLen = 0 ∨ MAX_FRAME - 5 < bodyLen then none
    else
      let wireLen := bodyLen + 5
      if data.length ≠ wireLen then none
      else
        let body := (data.drop 3).take bodyLen
        if (checksum body).1 ≠ byteAt data (wireLen - 2) ∨
            (checksum body).2 ≠ byteAt data (wireLen - 1) then none
        else some { type := byteAt data 2, body := body, payload := body.drop 1, wire := data }

/-! ## The framer -/

namespace FrameFramer

/-- A call of the frame callback. -/
inductive Report
  | frame (frame : Frame)
  | rejected (data : Bytes)
  deriving DecidableEq

/-- One byte joins the buffer, the first `_len` bytes of `_buf`. -/
def appendByte (buf : Bytes) (b : U8) : Bytes :=
  match buf with
  | [] => if b = HDR1 then [b] else []
  | [first] => if b = HDR2 then [first, b] else if b ≠ HDR1 then [] else [first]
  | _ =>
    if MAX_FRAME ≤ buf.length then (if b = HDR1 then [b] else [])
    else buf ++ [b]

def discard (buf : Bytes) (n : ℕ) : Bytes := if buf.length ≤ n then [] else buf.drop n

/-- Where the first header starts. -/
def findHeader : Bytes → Option ℕ
  | a :: b :: rest =>
    if a = HDR1 ∧ b = HDR2 then some 0 else (findHeader (b :: rest)).map (· + 1)
  | _ => none

/-- The buffer from its first header on, or the start of one at its end. -/
def syncToHeader (buf : Bytes) : Bytes :=
  if buf.length = 0 then buf
  else
    match findHeader buf with
    | some i => if i = 0 then buf else discard buf i
    | none => if buf.getLast? = some HDR1 then [HDR1] else []

/-- The same from the second byte on. -/
def resyncAfterReject (buf : Bytes) : Bytes :=
  match findHeader (buf.drop 1) with
  | some i => discard buf (i + 1)
  | none => if 0 < buf.length ∧ buf.getLast? = some HDR1 then [HDR1] else []

/-- At most `rounds` rounds of the loop; `none` if it has not come to its end by then. -/
def drain : ℕ → Bytes → Option (List Report × Bytes)
  | 0, _ => none
  | rounds + 1, buf =>
    let buf := syncToHeader buf
    if buf.length < 4 then some ([], buf)
    else
      let bodyLen := (byteAt buf 3).toNat
      if bodyLen = 0 ∨ MAX_FRAME - 5 < bodyLen then
        (drain rounds (resyncAfterReject buf)).map fun r => (.rejected (buf.take 4) :: r.1, r.2)
      else
        let need := bodyLen + 5
        if buf.length < need then some ([], buf)
        else
          match parseWireFrame (buf.take need) with
          | some frame => (drain rounds (discard buf need)).map fun r => (.frame frame :: r.1, r.2)
          | none =>
            (drain rounds (resyncAfterReject buf)).map fun r =>
              (.rejected (buf.take need) :: r.1, r.2)

/-- A notification, with `rounds` rounds for every drain. -/
def push (rounds : ℕ) (buf : Bytes) : Bytes → Option (List Report × Bytes)
  | [] => some ([], buf)
  | b :: data => do
    let (reports, buf) ← drain rounds (appendByte buf b)
    let (more, buf) ← push rounds buf data
    some (reports ++ more, buf)

end FrameFramer

/-! ## Classification -/

inductive InboundKind
  | weight
  | battery
  | timer
  | key
  | unknown
  | mixed
  | rejected
  | settings
  deriving DecidableEq

def eventKind (eventTypeId : U8) : InboundKind :=
  if eventTypeId = 0x05 then .weight
  else if eventTypeId = 0x06 then .battery
  else if eventTypeId = 0x07 then .timer
  else if eventTypeId = 0x08 then .key
  else .unknown

def heartbeatResponseKind (payload : Bytes) : InboundKind :=
  if payload.length < 4 then .unknown
  else if byteAt payload 3 = 0x05 then (if 10 ≤ payload.length then .weight else .unknown)
  else if byteAt payload 3 = 0x07 then (if 7 ≤ payload.length then .timer else .unknown)
  else .unknown

def classifyInbound (frame : Frame) : InboundKind :=
  if frame.type = Msg.SETTINGS then .settings
  else if frame.type = Msg.TIMER then .timer
  else if frame.type ≠ Msg.EVENT then .unknown
  else if frame.payload.length < 1 then .rejected
  else if byteAt frame.payload 0 = 0x0B then heartbeatResponseKind frame.payload
  else eventKind (byteAt frame.payload 0)

/-! ## Event decode -/

inductive Event
  | weight (grams : ℚ) (stable : Bool) (scaleTimerMs : Option U32)
  | battery (percent : U8)
  | timer (ms : U32)
  | key (code : U8)
  | unknown
  deriving DecidableEq

/-- The type of an event, as the message log names it. -/
def Event.kind : Event → InboundKind
  | weight _ _ _ => .weight
  | battery _ => .battery
  | timer _ => .timer
  | key _ => .key
  | unknown => .unknown

/-! A read past the end of the payload is `none`; a decoder that gives up returns `some none`. -/

def decodeTimerMs (d : Bytes) : Option (Option U32) :=
  if d.length < 3 then some none
  else do
    let d0 ← d[0]?
    let d1 ← d[1]?
    let d2 ← d[2]?
    some (some (d0.setWidth 32 * 60000 + d1.setWidth 32 * 1000 + d2.setWidth 32 * 100))

/-- The timer that current scales append to a weight. -/
def decodeScaleTimer (d : Bytes) : Option (Option U32) :=
  if 10 ≤ d.length then do
    let marker ← d[6]?
    if marker = 0x07 then decodeTimerMs (d.drop 7) else some none
  else some none

/-- `[b0, b1, b2, b3, exponent, flags]`. -/
def decodeWeight (d : Bytes) : Option (Option Event) :=
  if d.length < 6 then some none
  else do
    let d0 ← d[0]?
    let d1 ← d[1]?
    let d2 ← d[2]?
    let d3 ← d[3]?
    let raw : U32 := d0.setWidth 32 ||| d1.setWidth 32 <<< 8 ||| d2.setWidth 32 <<< 16 |||
      d3.setWidth 32 <<< 24
    let exponent ← d[4]?
    let flags ← d[5]?
    let grams : ℚ := (raw.toNat : ℚ) / 10 ^ exponent.toNat
    let scaleTimerMs ← decodeScaleTimer d
    some (some (.weight (if flags &&& 0x02 ≠ 0 then -grams else grams) (flags &&& 0x01 = 0)
      scaleTimerMs))

def decodeTimer (d : Bytes) : Option (Option Event) := do
  let ms ← decodeTimerMs d
  some (ms.map .timer)

/-- The event that `decodeAndEmit` hands to the callback. -/
def decodeAndEmit (evType : U8) (d : Bytes) : Option (Option Event) :=
  if evType = 0x05 then decodeWeight d
  else if evType = 0x06 then
    if d.length < 1 then some none
    else do
      let percent ← d[0]?
      some (some (.battery percent))
  else if evType = 0x07 then decodeTimer d
  else if evType = 0x08 then
    if d.length < 1 then some none
    else do
      let code ← d[0]?
      some (some (.key code))
  else if evType = 0x0B then
    if 4 ≤ d.length then do
      let nested ← d[2]?
      if nested = 0x05 then decodeWeight (d.drop 3)
      else if nested = 0x07 then decodeTimer (d.drop 3)
      else some (some .unknown)
    else some (some .unknown)
  else some (some .unknown)

/-- The event of a frame. -/
def decodeFrame (frame : Frame) : Option (Option Event) :=
  if frame.type ≠ Msg.EVENT ∨ frame.payload.length < 1 then some none
  else do
    let evType ← frame.payload[0]?
    decodeAndEmit evType (frame.payload.drop 1)

end Pumpbug.AcaiaV2
