import Pumpbug.Encoding
import Pumpbug.Lib.Clock
import Pumpbug.Lib.Run
import Pumpbug.Num

/-!
# The pairing window

`Auth.cpp`: a time-boxed window with two credentials, a PIN and a pair-token, of which either opens
it once.
-/

namespace Pumpbug.Net.Auth

open Lib

def kPairTokenBytes : ℕ := 6

def kDefaultPairingTtlMs : U32 := 60000

def kMaxPinAttempts : U8 := 5

/-! ## Credentials -/

/-- The PIN of a random number, `%04u` of it modulo 10000. -/
def pinText (r : U32) : Bytes :=
  let v := (r % 10000).toNat
  [v / 1000, v / 100 % 10, v / 10 % 10, v % 10].map fun digit => BitVec.ofNat 8 (0x30 + digit)

def hexDigit (nibble : U8) : U8 := if nibble < 10 then 0x30 + nibble else 0x61 + (nibble - 10)

def hexOf (data : Bytes) : Bytes :=
  data.flatMap fun b : U8 => [hexDigit (b >>> 4), hexDigit (b &&& 0xF)]

/-! ## The window -/

/-- The pairing fields; a C string is its bytes up to the terminator. -/
structure Pairing where
  pairingActive : Bool
  pin : Bytes
  pairToken : Bytes
  pinStartedMs : U32
  pinTtlMs : U32
  pinFailedAttempts : U8
  deriving DecidableEq

namespace Pairing

/-- The fields at boot. -/
def boot : Pairing := ⟨false, [], [], 0, 0, 0⟩

/-- A fresh window, from a random number and random bytes. -/
def startPairing (r : U32) (tok : Vector U8 kPairTokenBytes) (millis ttlMs : U32) : Pairing where
  pairingActive := true
  pin := pinText r
  pairToken := hexOf tok.toList
  pinStartedMs := millis
  pinTtlMs := ttlMs
  pinFailedAttempts := 0

variable (p : Pairing)

/-- The window closes and its credentials are gone. -/
def deactivate : Pairing := { p with pairingActive := false, pin := [], pairToken := [] }

def cancelPairing : Pairing := if !p.pairingActive then p else p.deactivate

def update (millis : U32) : Pairing :=
  if !p.pairingActive then p
  else if millis - p.pinStartedMs ≤ p.pinTtlMs then p
  else p.deactivate

/-- The window after a submission, and whether it was accepted. -/
def consumePairing (millis : U32) (submitted : Bytes) (isToken : Bool) : Pairing × Bool :=
  if !p.pairingActive then (p, false)
  else
    let expected := if isToken then p.pairToken else p.pin
    if p.pinTtlMs < millis - p.pinStartedMs then (p.deactivate, false)
    else if expected ≠ [] ∧ submitted = expected then (p.deactivate, true)
    else
      let p := { p with pinFailedAttempts := p.pinFailedAttempts + 1 }
      if p.pinFailedAttempts < kMaxPinAttempts then (p, false) else (p.deactivate, false)

end Pairing

/-- What a task calls. -/
inductive Call
  | startPairing (r : U32) (tok : Vector U8 kPairTokenBytes) (ttlMs : U32)
  | cancelPairing
  | update
  | consumePairing (submitted : Bytes) (isToken : Bool)
  deriving DecidableEq

/-- A call takes the mutex for all of its work. -/
def Pairing.step (p : Pairing) (millis : U32) : Call → Pairing × Bool
  | .startPairing r tok ttlMs => (.startPairing r tok millis ttlMs, false)
  | .cancelPairing => (p.cancelPairing, false)
  | .update => (p.update millis, false)
  | .consumePairing submitted isToken => p.consumePairing millis submitted isToken

end Pumpbug.Net.Auth
