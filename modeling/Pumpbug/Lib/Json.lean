import Mathlib
import Pumpbug.Lib.Decimal

/-!
# JSON texts

A reader of JSON texts, and the rules by which a text that was put together piece by piece is read
back.  A text is its characters, decoded from the bytes that came; those above ASCII stand for
themselves, and of the `\u` escapes only those of ASCII characters are read.
-/

namespace Lib.Json

inductive Value
  | null
  | bool (b : Bool)
  | num (q : ℚ)
  | str (s : List Char)
  | arr (vs : List Value)
  | obj (fields : List (List Char × Value))

/-- A field of an object; of several the last. -/
def Value.field (key : List Char) : Value → Option Value
  | .obj fields => fields.reverse.lookup key
  | _ => none

def Value.asNum : Value → Option ℚ
  | .num q => some q
  | _ => none

def Value.asBool : Value → Option Bool
  | .bool b => some b
  | _ => none

def Value.asStr : Value → Option (List Char)
  | .str s => some s
  | _ => none

def Value.asArr : Value → Option (List Value)
  | .arr vs => some vs
  | _ => none

def isSpace (c : Char) : Bool := c = ' ' || c = '\t' || c = '\n' || c = '\r'

def skipWs (cs : List Char) : List Char := cs.dropWhile isSpace

/-! ## The reader -/

def hexValue (c : Char) : Option ℕ :=
  if c.isDigit then some (c.toNat - 48)
  else if 'a' ≤ c ∧ c ≤ 'f' then some (c.toNat - 87)
  else if 'A' ≤ c ∧ c ≤ 'F' then some (c.toNat - 55)
  else none

/-- What the escape `\c` stands for. -/
def shortEscape (c : Char) : Option Char :=
  if c = '"' then some '"'
  else if c = '\\' then some '\\'
  else if c = '/' then some '/'
  else if c = 'b' then some (Char.ofNat 8)
  else if c = 'f' then some (Char.ofNat 12)
  else if c = 'n' then some '\n'
  else if c = 'r' then some '\r'
  else if c = 't' then some '\t'
  else none

/-- What the escape `\uabcd` stands for. -/
def unicodeEscape (a b c d : Char) : Option Char := do
  let a ← hexValue a
  let b ← hexValue b
  let c ← hexValue c
  let d ← hexValue d
  let n := ((a * 16 + b) * 16 + c) * 16 + d
  if n < 128 then some (Char.ofNat n) else none

/-- A string, after its opening quote. -/
def string : List Char → Option (List Char × List Char)
  | [] => none
  | '\\' :: 'u' :: a :: b :: c :: d :: cs => do
    let x ← unicodeEscape a b c d
    let r ← string cs
    some (x :: r.1, r.2)
  | '\\' :: c :: cs => do
    let x ← shortEscape c
    let r ← string cs
    some (x :: r.1, r.2)
  | c :: cs =>
    if c = '"' then some ([], cs)
    else if c = '\\' ∨ c < ' ' then none
    else (string cs).map fun r => (c :: r.1, r.2)

def digits (cs : List Char) : List Char := cs.takeWhile Char.isDigit

def afterDigits (cs : List Char) : List Char := cs.dropWhile Char.isDigit

def fraction : List Char → Option (ℚ × List Char)
  | '.' :: cs =>
    if digits cs = [] then none
    else some (Decimal.value (digits cs) / 10 ^ (digits cs).length, afterDigits cs)
  | cs => some (0, cs)

/-- The power of ten at the end of a number. -/
def scale (cs : List Char) : Option (ℚ × List Char) :=
  let exponent (up : Bool) (cs : List Char) : Option (ℚ × List Char) :=
    let e := Decimal.value (digits cs)
    if digits cs = [] then none else some (if up then 10 ^ e else 1 / 10 ^ e, afterDigits cs)
  match cs with
  | c :: cs =>
    if c = 'e' ∨ c = 'E' then
      match cs with
      | '-' :: cs => exponent false cs
      | '+' :: cs => exponent true cs
      | cs => exponent true cs
    else some (1, c :: cs)
  | [] => some (1, [])

/-- A number without its sign. -/
def magnitude (cs : List Char) : Option (ℚ × List Char) :=
  let whole := digits cs
  if whole = [] ∨ (whole.head? = some '0' ∧ whole ≠ ['0']) then none
  else do
    let f ← fraction (afterDigits cs)
    let s ← scale f.2
    some ((Decimal.value whole + f.1) * s.1, s.2)

def number : List Char → Option (ℚ × List Char)
  | '-' :: cs => (magnitude cs).map fun r => (-r.1, r.2)
  | cs => magnitude cs

def word (w : List Char) : Option Value :=
  if w = ['n', 'u', 'l', 'l'] then some .null
  else if w = ['t', 'r', 'u', 'e'] then some (.bool true)
  else if w = ['f', 'a', 'l', 's', 'e'] then some (.bool false)
  else none

section Lists

variable {α : Type} (p : List Char → Option (α × List Char)) (close : Char)

/-- Items with commas between them, up to the closing bracket. -/
def items : ℕ → List Char → Option (List α × List Char)
  | 0, _ => none
  | n + 1, cs => do
    let r ← p cs
    match skipWs r.2 with
    | [] => none
    | c :: cs =>
      if c = ',' then (items n cs).map fun s => (r.1 :: s.1, s.2)
      else if c = close then some ([r.1], cs)
      else none

/-- A list, after its opening bracket. -/
def list (n : ℕ) (cs : List Char) : Option (List α × List Char) :=
  match skipWs cs with
  | [] => none
  | c :: cs => if c = close then some ([], cs) else items p close n (c :: cs)

end Lists

/-- A key and its value, as `p` reads it. -/
def member (p : List Char → Option (Value × List Char)) (cs : List Char) :
    Option ((List Char × Value) × List Char) :=
  match skipWs cs with
  | '"' :: cs => do
    let k ← string cs
    match skipWs k.2 with
    | ':' :: cs => (p cs).map fun r => ((k.1, r.1), r.2)
    | _ => none
  | _ => none

/-- The first value of a text, with fuel. -/
def value : ℕ → List Char → Option (Value × List Char)
  | 0, _ => none
  | n + 1, cs =>
    match skipWs cs with
    | [] => none
    | c :: cs =>
      if c = '"' then (string cs).map fun r => (.str r.1, r.2)
      else if c = '[' then (list (value n) ']' n cs).map fun r => (.arr r.1, r.2)
      else if c = '{' then (list (member (value n)) '}' n cs).map fun r => (.obj r.1, r.2)
      else if c.isAlpha then
        (word ((c :: cs).takeWhile Char.isAlpha)).map fun v => (v, (c :: cs).dropWhile Char.isAlpha)
      else (number (c :: cs)).map fun r => (.num r.1, r.2)

def parse (cs : List Char) : Option Value := do
  let r ← value cs.length cs
  if skipWs r.2 = [] then some r.1 else none

example : parse "[\"\\u0041\\n\", [null, true]]".toList =
    some (.arr [.str ['A', '\n'], .arr [.null, .bool true]]) := rfl

/-! ## Strings -/

/-- A string with `t` in front of it has the character `c` in front of it. -/
def ReadsChar (t : List Char) (c : Char) : Prop :=
  ∀ cs, string (t ++ cs) = (string cs).map fun r => (c :: r.1, r.2)

/-- What is read up to the next quote. -/
def ReadsString (t : List Char) (s : List Char) : Prop :=
  ∀ rest, string (t ++ '"' :: rest) = some (s, rest)

theorem readsChar_self {c : Char} (hquote : c ≠ '"') (hslash : c ≠ '\\') (hc : ¬ c < ' ') :
    ReadsChar [c] c := by
  intro cs
  simp [string, hquote, hslash, hc]

theorem readsChar_short {a c : Char} (h : shortEscape a = some c) : ReadsChar ['\\', a] c := by
  intro cs
  have ha : a ≠ 'u' := by
    rintro rfl
    simp [shortEscape] at h
  rw [List.cons_append, List.cons_append, List.nil_append, string.eq_3]
  · rw [h]
    cases string cs <;> rfl
  · intro x₁ x₂ x₃ x₄ x₅ h'
    exact absurd h' ha

theorem readsChar_unicode {a b c d x : Char} (h : unicodeEscape a b c d = some x) :
    ReadsChar ['\\', 'u', a, b, c, d] x := by
  intro cs
  simp only [List.cons_append, List.nil_append, string, h, Option.bind_eq_bind, Option.bind_some]
  cases string cs <;> rfl

/-- A string that was written character by character. -/
theorem readsString_flatMap {esc : Char → List Char} {s : List Char}
    (h : ∀ c ∈ s, ReadsChar (esc c) c) : ReadsString (s.flatMap esc) s := by
  intro rest
  induction s with
  | nil => simp [string]
  | cons c s ih =>
    rw [List.flatMap_cons, List.append_assoc, h c List.mem_cons_self,
      ih fun d hd => h d (List.mem_cons_of_mem c hd)]
    rfl

/-! ## Numbers -/

/-- What may follow a value within a text. -/
def Ends : List Char → Prop
  | [] => True
  | c :: _ => c = ',' ∨ c = ']' ∨ c = '}'

theorem Ends.digits {rest : List Char} (h : Ends rest) : digits rest = [] ∧ afterDigits rest = rest := by
  cases rest with
  | nil => exact ⟨rfl, rfl⟩
  | cons c rest => obtain rfl | rfl | rfl := h <;> exact ⟨rfl, rfl⟩

theorem Ends.fraction {rest : List Char} (h : Ends rest) : fraction rest = some (0, rest) := by
  cases rest with
  | nil => rfl
  | cons c rest => obtain rfl | rfl | rfl := h <;> rfl

theorem Ends.scale {rest : List Char} (h : Ends rest) : scale rest = some (1, rest) := by
  cases rest with
  | nil => rfl
  | cons c rest => obtain rfl | rfl | rfl := h <;> rfl

theorem digits_append {ds rest : List Char} (hds : ∀ d ∈ ds, d.isDigit = true)
    (hrest : digits rest = [] ∧ afterDigits rest = rest) :
    digits (ds ++ rest) = ds ∧ afterDigits (ds ++ rest) = rest := by
  unfold digits afterDigits at *
  rw [List.takeWhile_append_of_pos hds, List.dropWhile_append_of_pos hds, hrest.1, hrest.2,
    List.append_nil]
  exact ⟨rfl, rfl⟩

/-- The digits of a whole number: there are some, and no zero is in front of another. -/
structure Whole (ds : List Char) : Prop where
  nonempty : ds ≠ []
  isDigit : ∀ d ∈ ds, d.isDigit = true
  noZero : ds.head? = some '0' → ds = ['0']

theorem whole_toDigits (n : ℕ) : Whole (Nat.toDigits 10 n) where
  nonempty := Nat.toDigits_ne_nil
  isDigit := fun _ hd => Nat.isDigit_of_mem_toDigits (by decide) (by decide) hd
  noZero := by
    intro hhead
    obtain ⟨ds, hds⟩ : ∃ ds, Nat.toDigits 10 n = '0' :: ds := by
      cases h : Nat.toDigits 10 n with
      | nil => exact absurd h Nat.toDigits_ne_nil
      | cons d ds =>
        rw [h, List.head?_cons, Option.some.injEq] at hhead
        exact ⟨ds, by rw [hhead]⟩
    rw [hds]
    by_contra hne
    have hne' : ds ≠ [] := by
      rintro rfl
      exact hne rfl
    -- the digits after the zero stand for the same number, and there are too few of them
    have hdigit : ∀ d ∈ ds, d.isDigit = true := fun d hd =>
      Nat.isDigit_of_mem_toDigits (by decide) (by decide) (hds ▸ List.mem_cons_of_mem '0' hd)
    have hvalue : Decimal.value ds = n := by
      have h := Decimal.value_format 0 n
      have hformat : Decimal.format 0 n = '0' :: ds := by simpa [Decimal.format] using hds
      rw [hformat, Decimal.value, Nat.ofDigitChars_cons] at h
      simpa [Decimal.value] using h
    have hlt := Decimal.value_lt hdigit
    rw [hvalue, ← Nat.length_toDigits_le_iff (by decide) (List.length_pos_iff.2 hne'), hds] at hlt
    simp at hlt

theorem magnitude_whole {ds rest : List Char} (hds : Whole ds)
    (hrest : digits rest = [] ∧ afterDigits rest = rest) :
    magnitude (ds ++ rest) =
      (do let f ← fraction rest
          let s ← scale f.2
          some ((Decimal.value ds + f.1) * s.1, s.2)) := by
  obtain ⟨h₁, h₂⟩ := digits_append hds.isDigit hrest
  have hgood : ¬ (ds = [] ∨ (ds.head? = some '0' ∧ ds ≠ ['0'])) := by
    rintro (h | ⟨h, h'⟩)
    · exact hds.nonempty h
    · exact h' (hds.noZero h)
  rw [magnitude, h₁, h₂, if_neg hgood]

theorem magnitude_digits {ds rest : List Char} (hds : Whole ds) (hrest : Ends rest) :
    magnitude (ds ++ rest) = some ((Decimal.value ds : ℚ), rest) := by
  rw [magnitude_whole hds hrest.digits, hrest.fraction]
  simp [hrest.scale]

theorem magnitude_decimals {ds fs rest : List Char} (hds : Whole ds) (hfs : fs ≠ [])
    (hdigit : ∀ d ∈ fs, d.isDigit = true) (hrest : Ends rest) :
    magnitude (ds ++ '.' :: (fs ++ rest)) =
      some ((Decimal.value ds : ℚ) + Decimal.value fs / 10 ^ fs.length, rest) := by
  obtain ⟨h₁, h₂⟩ := digits_append hdigit hrest.digits
  rw [magnitude_whole hds ⟨rfl, rfl⟩, fraction, h₁, h₂, if_neg hfs]
  simp [hrest.scale]

theorem number_of_magnitude {cs : List Char} (h : cs.head? ≠ some '-') : number cs = magnitude cs := by
  unfold number
  split
  · simp at h
  · rfl

/-! ## Values -/

/-- What a value may start with. -/
def Starts (c : Char) : Prop := isSpace c = false ∧ c ≠ ']' ∧ c ≠ '}'

/-- The text stands for the value, whatever follows it. -/
structure Reads (t : List Char) (v : Value) : Prop where
  starts : ∃ c cs, t = c :: cs ∧ Starts c
  value_eq : ∀ {n rest}, t.length ≤ n → Ends rest → value n (t ++ rest) = some (v, rest)

theorem skipWs_cons {c : Char} {cs : List Char} (h : isSpace c = false) : skipWs (c :: cs) = c :: cs := by
  simp [skipWs, h]

theorem value_skip {c : Char} {cs : List Char} (h : Starts c) {n : ℕ} :
    value (n + 1) (c :: cs) =
      if c = '"' then (string cs).map fun r => (.str r.1, r.2)
      else if c = '[' then (list (value n) ']' n cs).map fun r => (.arr r.1, r.2)
      else if c = '{' then (list (member (value n)) '}' n cs).map fun r => (.obj r.1, r.2)
      else if c.isAlpha then
        (word ((c :: cs).takeWhile Char.isAlpha)).map fun v => (v, (c :: cs).dropWhile Char.isAlpha)
      else (number (c :: cs)).map fun r => (.num r.1, r.2) := by
  rw [value, skipWs_cons h.1]

/-- A text of at least one character is read with fuel for one level. -/
theorem reads_intro {c : Char} {cs : List Char} {v : Value} (h : Starts c)
    (hv : ∀ n rest, cs.length ≤ n → Ends rest → value (n + 1) (c :: (cs ++ rest)) = some (v, rest)) :
    Reads (c :: cs) v where
  starts := ⟨c, cs, rfl, h⟩
  value_eq := by
    intro n rest hn hrest
    obtain _ | n := n
    · simp at hn
    · exact hv n rest (by simpa using hn) hrest

theorem reads_word {c : Char} {cs : List Char} {v : Value} (halpha : ∀ d ∈ c :: cs, d.isAlpha = true)
    (hword : word (c :: cs) = some v) : Reads (c :: cs) v := by
  have hc := halpha c List.mem_cons_self
  have hne : ∀ d : Char, d.isAlpha = false → c ≠ d := by
    rintro d hd rfl
    rw [hc] at hd
    exact absurd hd (by simp)
  have hstart : Starts c := by
    refine ⟨?_, hne _ (by decide), hne _ (by decide)⟩
    simp [isSpace, hne ' ' (by decide), hne '\t' (by decide), hne '\n' (by decide),
      hne '\r' (by decide)]
  refine reads_intro hstart fun n rest _ hrest => ?_
  have hstop : rest.takeWhile Char.isAlpha = [] ∧ rest.dropWhile Char.isAlpha = rest := by
    cases rest with
    | nil => exact ⟨rfl, rfl⟩
    | cons d rest => obtain rfl | rfl | rfl := hrest <;> exact ⟨rfl, rfl⟩
  rw [value_skip hstart, if_neg (hne '"' (by decide)), if_neg (hne '[' (by decide)),
    if_neg (hne '{' (by decide)), if_pos hc, ← List.cons_append, List.takeWhile_append_of_pos halpha,
    List.dropWhile_append_of_pos halpha, hstop.1, hstop.2, List.append_nil, hword]
  rfl

theorem reads_null : Reads ['n', 'u', 'l', 'l'] .null :=
  reads_word (List.all_eq_true.1 rfl) rfl

theorem reads_true : Reads ['t', 'r', 'u', 'e'] (.bool true) :=
  reads_word (List.all_eq_true.1 rfl) rfl

theorem reads_false : Reads ['f', 'a', 'l', 's', 'e'] (.bool false) :=
  reads_word (List.all_eq_true.1 rfl) rfl

theorem reads_string {t s : List Char} (h : ReadsString t s) : Reads ('"' :: (t ++ ['"'])) (.str s) := by
  refine reads_intro ⟨rfl, by decide, by decide⟩ fun n rest _ _ => ?_
  rw [value_skip ⟨rfl, by decide, by decide⟩, if_pos rfl, List.append_assoc, List.singleton_append,
    h rest]
  rfl

/-- A text that starts with a digit or with a minus sign is read as a number. -/
theorem reads_number {c : Char} {cs : List Char} {q : ℚ} (hc : c.isDigit = true ∨ c = '-')
    (h : ∀ rest, Ends rest → number (c :: (cs ++ rest)) = some (q, rest)) : Reads (c :: cs) (.num q) := by
  have hne : ∀ d : Char, d.isDigit = false → d ≠ '-' → c ≠ d := by
    rintro d hd hdash rfl
    obtain h | h := hc
    · rw [h] at hd
      exact absurd hd (by simp)
    · exact hdash h
  have halpha : c.isAlpha = false := by
    obtain h | rfl := hc
    · have hle : c.val.toNat ≤ 57 := (Decimal.toNat_bounds h).2
      have hupper : 'A'.val.toNat = 65 := rfl
      have hlower : 'a'.val.toNat = 97 := rfl
      simp only [Char.isAlpha, Char.isUpper, Char.isLower, Bool.or_eq_false_iff, Bool.and_eq_false_iff,
        decide_eq_false_iff_not, ge_iff_le, UInt32.le_iff_toNat_le]
      omega
    · decide
  have hstart : Starts c := by
    refine ⟨?_, hne _ (by decide) (by decide), hne _ (by decide) (by decide)⟩
    simp [isSpace, hne ' ' (by decide) (by decide), hne '\t' (by decide) (by decide),
      hne '\n' (by decide) (by decide), hne '\r' (by decide) (by decide)]
  refine reads_intro hstart fun n rest _ hrest => ?_
  rw [value_skip hstart, if_neg (hne '"' (by decide) (by decide)),
    if_neg (hne '[' (by decide) (by decide)), if_neg (hne '{' (by decide) (by decide)), halpha,
    if_neg (by simp), h rest hrest]
  rfl

/-! ## Lists -/

/-- Texts with commas between them. -/
def commas : List (List Char) → List Char
  | [] => []
  | [t] => t
  | t :: ts => t ++ ',' :: commas ts

@[simp] theorem commas_nil : commas [] = [] := rfl

@[simp] theorem commas_singleton (t : List Char) : commas [t] = t := rfl

@[simp] theorem commas_cons_cons (t u : List Char) (ts : List (List Char)) :
    commas (t :: u :: ts) = t ++ ',' :: commas (u :: ts) := rfl

theorem commas_cons {t : List Char} {ts : List (List Char)} (h : ts ≠ []) :
    commas (t :: ts) = t ++ ',' :: commas ts := by
  cases ts with
  | nil => exact absurd rfl h
  | cons u ts => rfl

theorem length_le_commas {t : List Char} {ts : List (List Char)} (h : t ∈ ts) :
    t.length ≤ (commas ts).length := by
  induction ts with
  | nil => simp at h
  | cons u ts ih =>
    by_cases hts : ts = []
    · subst hts
      rw [List.mem_singleton.1 h]
      exact le_refl _
    · rw [commas_cons hts, List.length_append, List.length_cons]
      obtain rfl | h := List.mem_cons.1 h
      · omega
      · have := ih h
        omega

theorem card_le_commas_map {γ : Type} {text : γ → List Char} {xs : List γ} (h : ∀ x ∈ xs, text x ≠ []) :
    xs.length ≤ (commas (xs.map text)).length := by
  induction xs with
  | nil => simp
  | cons x xs ih =>
    have hx := List.length_pos_iff.2 (h x List.mem_cons_self)
    by_cases hxs : xs = []
    · subst hxs
      exact hx
    · have := ih fun y hy => h y (List.mem_cons_of_mem x hy)
      rw [List.map_cons, commas_cons (by simpa using hxs), List.length_append, List.length_cons,
        List.length_cons]
      omega

section Lists

variable {α γ : Type} {p : List Char → Option (α × List Char)} {close : Char}
  {text : γ → List Char} {val : γ → α}

theorem items_commas (hclose : close = ']' ∨ close = '}') {xs : List γ} (hxs : xs ≠ []) {n : ℕ}
    (hn : xs.length ≤ n)
    (hp : ∀ x ∈ xs, ∀ rest, Ends rest → p (text x ++ rest) = some (val x, rest)) (rest : List Char) :
    items p close n (commas (xs.map text) ++ close :: rest) = some (xs.map val, rest) := by
  have hspace : isSpace close = false := by obtain rfl | rfl := hclose <;> rfl
  have hcomma : close ≠ ',' := by obtain rfl | rfl := hclose <;> decide
  induction xs generalizing n with
  | nil => exact absurd rfl hxs
  | cons x xs ih =>
    obtain _ | n := n
    · simp at hn
    have hx := hp x List.mem_cons_self
    cases xs with
    | nil =>
      have hends : Ends (close :: rest) := Or.inr hclose
      simp only [List.map_cons, List.map_nil, commas]
      rw [items, hx _ hends]
      simp [skipWs_cons hspace, hcomma]
    | cons y xs =>
      have hends : Ends (',' :: (commas ((y :: xs).map text) ++ close :: rest)) := Or.inl rfl
      have ih := ih (by simp) (by simpa using hn) fun z hz => hp z (List.mem_cons_of_mem x hz)
      rw [List.map_cons, List.map_cons, commas_cons_cons, List.append_assoc, List.cons_append, items,
        ← List.map_cons, hx _ hends]
      simp only [Option.bind_eq_bind, Option.bind_some, skipWs_cons (c := ',') rfl, if_true, ih]
      rfl

/-- A list of texts with commas between them, up to its closing bracket. -/
theorem list_commas (hclose : close = ']' ∨ close = '}') {xs : List γ} {n : ℕ} (hn : xs.length ≤ n)
    (hstart : ∀ x ∈ xs, ∃ c cs, text x = c :: cs ∧ Starts c)
    (hp : ∀ x ∈ xs, ∀ rest, Ends rest → p (text x ++ rest) = some (val x, rest)) (rest : List Char) :
    list p close n (commas (xs.map text) ++ close :: rest) = some (xs.map val, rest) := by
  by_cases hxs : xs = []
  · subst hxs
    have hspace : isSpace close = false := by obtain rfl | rfl := hclose <;> rfl
    simp [list, skipWs_cons hspace]
  · obtain ⟨x, xs', rfl⟩ := List.exists_cons_of_ne_nil hxs
    obtain ⟨c, cs, htext, hc⟩ := hstart x List.mem_cons_self
    obtain ⟨cs', hcs'⟩ : ∃ cs', commas ((x :: xs').map text) ++ close :: rest = c :: cs' := by
      cases xs' with
      | nil => exact ⟨cs ++ close :: rest, by simp [htext]⟩
      | cons y ys => exact ⟨_, by rw [List.map_cons, List.map_cons, commas_cons_cons, htext]; rfl⟩
    have hne : c ≠ close := by
      obtain rfl | rfl := hclose
      · exact hc.2.1
      · exact hc.2.2
    rw [← items_commas hclose hxs hn hp rest, hcs', list, skipWs_cons hc.1]
    exact if_neg hne

end Lists

variable {γ : Type} {text key : γ → List Char} {name : γ → List Char} {val : γ → Value}

theorem Reads.ne_nil {t : List Char} {v : Value} (h : Reads t v) : t ≠ [] := by
  obtain ⟨c, cs, rfl, -⟩ := h.starts
  exact List.cons_ne_nil c cs

theorem reads_arr {xs : List γ} (h : ∀ x ∈ xs, Reads (text x) (val x)) :
    Reads ('[' :: (commas (xs.map text) ++ [']'])) (.arr (xs.map val)) := by
  refine reads_intro ⟨rfl, by decide, by decide⟩ fun n rest hn _ => ?_
  rw [List.length_append, List.length_singleton] at hn
  have hcard := card_le_commas_map fun x hx => (h x hx).ne_nil
  have hlist : list (value n) ']' n (commas (xs.map text) ++ ']' :: rest) = some (xs.map val, rest) := by
    refine list_commas (Or.inl rfl) (by omega) (fun x hx => (h x hx).starts) (fun x hx rest hrest => ?_) rest
    have hlen := length_le_commas (List.mem_map_of_mem (f := text) hx)
    exact (h x hx).value_eq (by omega) hrest
  rw [value_skip ⟨rfl, by decide, by decide⟩, if_neg (by decide), if_pos rfl, List.append_assoc,
    List.singleton_append, hlist]
  rfl

/-- The text of a member, whose key is written as `t`. -/
def memberText (t text : List Char) : List Char := '"' :: (t ++ '"' :: ':' :: text)

theorem member_eq {p : List Char → Option (Value × List Char)} {t k text rest : List Char} {v : Value}
    (hkey : ReadsString t k) (hp : p (text ++ rest) = some (v, rest)) :
    member p (memberText t text ++ rest) = some ((k, v), rest) := by
  have hquote : memberText t text ++ rest = '"' :: (t ++ '"' :: ':' :: (text ++ rest)) := by
    simp [memberText]
  have hk := hkey (':' :: (text ++ rest))
  rw [hquote, member, skipWs_cons rfl]
  simp only [hk, Option.bind_eq_bind, Option.bind_some, skipWs_cons (c := ':') rfl, hp]
  rfl

theorem reads_obj {xs : List γ} (hkey : ∀ x ∈ xs, ReadsString (key x) (name x))
    (h : ∀ x ∈ xs, Reads (text x) (val x)) :
    Reads ('{' :: (commas (xs.map fun x => memberText (key x) (text x)) ++ ['}']))
      (.obj (xs.map fun x => (name x, val x))) := by
  refine reads_intro ⟨rfl, by decide, by decide⟩ fun n rest hn _ => ?_
  rw [List.length_append, List.length_singleton] at hn
  have hcard : xs.length ≤ (commas (xs.map fun x => memberText (key x) (text x))).length :=
    card_le_commas_map fun x _ => List.cons_ne_nil _ _
  have hlist : list (member (value n)) '}' n
      (commas (xs.map fun x => memberText (key x) (text x)) ++ '}' :: rest) =
        some (xs.map fun x => (name x, val x), rest) := by
    refine list_commas (Or.inr rfl) (by omega)
      (fun x _ => ⟨'"', _, rfl, rfl, by decide, by decide⟩) (fun x hx rest hrest => ?_) rest
    have hlen := length_le_commas (List.mem_map_of_mem (f := fun x => memberText (key x) (text x)) hx)
    have htext : (text x).length ≤ (memberText (key x) (text x)).length := by
      simp [memberText]
      omega
    exact member_eq (hkey x hx) ((h x hx).value_eq (by omega) hrest)
  rw [value_skip ⟨rfl, by decide, by decide⟩, if_neg (by decide), if_neg (by decide), if_pos rfl,
    List.append_assoc, List.singleton_append, hlist]
  rfl

/-- A list that is taken apart item by item. -/
theorem mapM_map {α β : Type} {f : β → Option α} {g : γ → β} {h : γ → α}
    {xs : List γ} (hf : ∀ x ∈ xs, f (g x) = some (h x)) : (xs.map g).mapM f = some (xs.map h) := by
  induction xs with
  | nil => rfl
  | cons x xs ih => simp [hf x List.mem_cons_self, ih fun y hy => hf y (List.mem_cons_of_mem x hy)]

theorem parse_eq {t : List Char} {v : Value} (h : Reads t v) : parse t = some v := by
  have hv := h.value_eq (le_refl _) (show Ends [] from trivial)
  rw [List.append_nil] at hv
  rw [parse, hv]
  rfl

end Lib.Json
