import Pumpbug.Encoding

/-!
# The paired clients' tokens

`Auth.cpp`: the tokens in RAM, loaded lazily, and the blob in NVS that they come from.
-/

namespace Pumpbug.Net.Auth

open Lib

def kTokenBytes : ℕ := 16

def kMaxTokens : ℕ := 8

abbrev Token := { bytes : Bytes // bytes.length = kTokenBytes }

/-- The tokens of a blob, one behind the other. -/
def tokensOf : ℕ → Bytes → List Token
  | 0, _ => []
  | n + 1, data =>
    ⟨List.ofFn fun i : Fin kTokenBytes => byteAt data i, List.length_ofFn⟩ ::
      tokensOf n (data.drop kTokenBytes)

def bytesOf (tokens : List Token) : Bytes := tokens.flatMap Subtype.val

/-! ## NVS -/

inductive Item
  | blob (data : Bytes)
  | other

/-- The namespace, if it is there, and the item under its key for tokens. -/
abbrev Nvs := Option (Option Item)

inductive EspErr
  | notFound
  | typeMismatch
  | failed

/-- Which NVS calls of an operation fail. -/
structure Faults where
  readOpen : Bool
  getLength : Bool
  getBlob : Bool
  /-- The read returns fewer bytes than it should. -/
  short : Bool
  writeOpen : Bool
  putBytes : Bool
  clear : Bool

def noFaults : Faults := ⟨false, false, false, false, false, false, false⟩

def nvsOpen (f : Faults) (nvs : Nvs) : Except EspErr (Option Item) :=
  if f.readOpen then .error .failed
  else
    match nvs with
    | none => .error .notFound
    | some item => .ok item

def nvsBlobLength (f : Faults) (item : Option Item) : Except EspErr ℕ :=
  if f.getLength then .error .failed
  else
    match item with
    | none => .error .notFound
    | some .other => .error .typeMismatch
    | some (.blob data) => .ok data.length

def nvsGetBlob (f : Faults) (item : Option Item) : Except EspErr Bytes :=
  if f.getBlob then .error .failed
  else
    match item with
    | none => .error .notFound
    | some .other => .error .typeMismatch
    | some (.blob data) => .ok (if f.short then data.dropLast else data)

/-- Opening for writing makes the namespace. -/
def prefsBegin (nvs : Nvs) : Nvs := some nvs.join

/-- The bytes written, all or none. -/
def prefsPutBytes (f : Faults) (nvs : Nvs) (data : Bytes) : Nvs × ℕ :=
  if f.putBytes then (nvs, 0) else (some (some (.blob data)), data.length)

def prefsClear (f : Faults) (nvs : Nvs) : Nvs := if f.clear then nvs else some none

/-! ## The store -/

/-- What the reads find; `none` where storage could not be read. -/
def readTokens (f : Faults) (nvs : Nvs) : Option (List Token) :=
  match nvsOpen f nvs with
  | .error .notFound => some []
  | .error _ => none
  | .ok item =>
    match nvsBlobLength f item with
    | .error .notFound => some []
    | .error .typeMismatch => some []
    | .error .failed => none
    | .ok total =>
      if total = 0 then some []
      else if total % kTokenBytes ≠ 0 ∨ kMaxTokens * kTokenBytes < total then some []
      else
        match nvsGetBlob f item with
        | .error _ => none
        | .ok data =>
          if data.length ≠ total then none else some (tokensOf (total / kTokenBytes) data)

structure Store where
  nvs : Nvs
  tokens : List Token
  tokensLoaded : Bool

namespace Store

/-- The store after a boot. -/
def boot (nvs : Nvs) : Store := ⟨nvs, [], false⟩

variable (s : Store)

def ensureTokensLoaded (f : Faults) : Store × Bool :=
  if s.tokensLoaded then (s, true)
  else
    match readTokens f s.nvs with
    | none => (s, false)
    | some tokens => ({ s with tokens := tokens, tokensLoaded := true }, true)

def tokenCount (f : Faults) : Store × ℕ :=
  let (s, loaded) := s.ensureTokensLoaded f
  if !loaded then (s, 0) else (s, s.tokens.length)

def hasTokenBytes (f : Faults) (candidate : Bytes) : Store × Bool :=
  if candidate.length ≠ kTokenBytes then (s, false)
  else
    let (s, loaded) := s.ensureTokensLoaded f
    if !loaded then (s, false) else (s, s.tokens.any fun t => t.val = candidate)

/-- The set with one more token, the oldest of a full set evicted. -/
def candidate (token : Token) : List Token :=
  (if kMaxTokens ≤ s.tokens.length then s.tokens.drop 1 else s.tokens) ++ [token]

/-- The number of tokens after a grant, or 0 where storage failed. -/
def appendToken (f : Faults) (token : Token) : Store × ℕ :=
  let (s, loaded) := s.ensureTokensLoaded f
  if !loaded then (s, 0)
  else if f.writeOpen then (s, 0)
  else
    let total := (s.candidate token).length * kTokenBytes
    let (nvs, written) := prefsPutBytes f (prefsBegin s.nvs) (bytesOf (s.candidate token))
    if written ≠ total then ({ s with nvs := nvs }, 0)
    else ({ s with nvs := nvs, tokens := s.candidate token }, (s.candidate token).length)

def forgetAll (f : Faults) : Store :=
  let s := { s with tokens := [], tokensLoaded := true }
  if f.writeOpen then s else { s with nvs := prefsClear f (prefsBegin s.nvs) }

def reboot : Store := boot s.nvs

end Store

/-- The tokens that a reboot loads, if nothing fails. -/
def stored (nvs : Nvs) : List Token := ((Store.boot nvs).ensureTokensLoaded noFaults).1.tokens

end Pumpbug.Net.Auth
