import Pumpbug.Lib.Json
import Pumpbug.Num

/-!
# JSON bodies

`JsonStream.cpp`: a JSON body is put together in a buffer that is handed to the response, chunk by
chunk, each time it is full.  A character is a byte.  An assertion that fails, and a read past the end
of a local buffer, is `none`.  There is no negative zero.
-/

namespace Pumpbug.Net

open Lib Lib.Json

/-- A C string ends at its terminator. -/
def cStr (s : List Char) : List Char := s.takeWhile (· ≠ Char.ofNat 0)

namespace json

/-- How `escapeAppend` writes one character. -/
def escape (c : Char) : List Char :=
  if c = '"' then ['\\', '"']
  else if c = '\\' then ['\\', '\\']
  else if c = Char.ofNat 8 then ['\\', 'b']
  else if c = Char.ofNat 12 then ['\\', 'f']
  else if c = '\n' then ['\\', 'n']
  else if c = '\r' then ['\\', 'r']
  else if c = '\t' then ['\\', 't']
  else if c < ' ' then ['\\', 'u'] ++ List.leftpad 4 '0' (Nat.toDigits 16 c.toNat)
  else [c]

def escapeAppend (out s : List Char) : List Char := out ++ (cStr s).flatMap escape

end json

/-- To the nearest integer, halves to the even one. -/
def roundHalfEven (q : ℚ) : ℕ :=
  let n := ⌊q⌋.toNat
  if q - n < 1 / 2 then n
  else if 1 / 2 < q - n then n + 1
  else if n % 2 = 0 then n
  else n + 1

/-- `%d`. -/
def formatInt (v : ℤ) : List Char :=
  if v < 0 then '-' :: Nat.toDigits 10 v.natAbs else Nat.toDigits 10 v.natAbs

/-- `%.2f` of a number that is not negative. -/
def formatMagnitude (q : ℚ) : List Char :=
  let n := roundHalfEven (100 * q)
  Nat.toDigits 10 (n / 100) ++ '.' :: Decimal.format 2 (n % 100)

/-- `%.2f`. -/
def formatFixed (q : ℚ) : List Char :=
  if q < 0 then '-' :: formatMagnitude (-q) else formatMagnitude q

/-- The bytes that are read from a buffer of `size` bytes after `snprintf` has put `s` into it: as many
as `s` has. -/
def formatted (size : ℕ) (s : List Char) : Option (List Char) :=
  if s.length < size then some s
  else if s.length = size then some (s.take (size - 1) ++ [Char.ofNat 0])
  else none

inductive JsonCall
  | raw (s : List Char)
  | open
  | close
  | arrayOpen
  | arrayClose
  | comma
  | key (k : List Char)
  /-- None is a null pointer. -/
  | str (s : Option (List Char))
  | u (v : U32)
  | i (v : I32)
  /-- None is a number that is not finite. -/
  | f (v : Option ℚ)
  | boolean (v : Bool)
  | null
  | finish

structure JsonStream where
  flushAt : ℕ := 1024
  buf : List Char := []
  /-- What the response was given. -/
  chunks : List (List Char) := []
  finished : Bool := false
  /-- Of the open objects, the innermost first: whether the next key needs a comma. -/
  objectNeedComma : List Bool := []

namespace JsonStream

/-- How many objects may be open. -/
def kMaxDepth : ℕ := 8

def flush (j : JsonStream) : JsonStream :=
  if j.buf = [] then j else { j with chunks := j.chunks ++ [j.buf], buf := [] }

def flushIfFull (j : JsonStream) : JsonStream := if j.flushAt ≤ j.buf.length then j.flush else j

def raw (j : JsonStream) (s : List Char) : Option JsonStream :=
  if j.finished then none else some { j with buf := j.buf ++ s }.flushIfFull

def «open» (j : JsonStream) : Option JsonStream := do
  let j ← j.raw ['{']
  if j.objectNeedComma.length < kMaxDepth then
    some { j with objectNeedComma := false :: j.objectNeedComma }
  else none

def close (j : JsonStream) : Option JsonStream :=
  match j.objectNeedComma with
  | [] => none
  | _ :: outer => { j with objectNeedComma := outer }.raw ['}']

def key (j : JsonStream) (k : List Char) : Option JsonStream :=
  if j.finished then none
  else
    let j :=
      match j.objectNeedComma with
      | [] => j
      | needComma :: outer =>
        { j with buf := if needComma then j.buf ++ [','] else j.buf, objectNeedComma := true :: outer }
    let buf := json.escapeAppend (j.buf ++ ['"']) k ++ ['"', ':']
    some { j with buf := buf }.flushIfFull

def str (j : JsonStream) (s : Option (List Char)) : Option JsonStream :=
  if j.finished then none
  else
    let buf :=
      match s with
      | none => j.buf ++ ['n', 'u', 'l', 'l']
      | some s => json.escapeAppend (j.buf ++ ['"']) s ++ ['"']
    some { j with buf := buf }.flushIfFull

def u (j : JsonStream) (v : U32) : Option JsonStream := j.raw (Nat.toDigits 10 v.toNat)

def i (j : JsonStream) (v : I32) : Option JsonStream := j.raw (formatInt v.toInt)

def f (j : JsonStream) (v : Option ℚ) : Option JsonStream :=
  match v with
  | none => j.raw ['n', 'u', 'l', 'l']
  -- of the local buffer, which has room for 24 bytes, `snprintf` leaves the last for its terminator
  | some q => (formatted 24 (formatFixed q)).bind j.raw

def boolean (j : JsonStream) (v : Bool) : Option JsonStream :=
  j.raw (if v then ['t', 'r', 'u', 'e'] else ['f', 'a', 'l', 's', 'e'])

def finish (j : JsonStream) : JsonStream :=
  if j.finished then j else { j.flush with finished := true }

def step (j : JsonStream) : JsonCall → Option JsonStream
  | .raw s => j.raw s
  | .open => j.open
  | .close => j.close
  | .arrayOpen => j.raw ['[']
  | .arrayClose => j.raw [']']
  | .comma => j.raw [',']
  | .key k => j.key k
  | .str s => j.str s
  | .u v => j.u v
  | .i v => j.i v
  | .f v => j.f v
  | .boolean v => j.boolean v
  | .null => j.raw ['n', 'u', 'l', 'l']
  | .finish => some j.finish

def run (j : JsonStream) (calls : List JsonCall) : Option JsonStream := calls.foldlM step j

end JsonStream

/-- The loop of a route over its rows. -/
def eachRow {α : Type} (row : α → List JsonCall) (first : Bool) : List α → List JsonCall
  | [] => []
  | x :: xs => (if first then [] else [.comma]) ++ row x ++ eachRow row false xs

end Pumpbug.Net
