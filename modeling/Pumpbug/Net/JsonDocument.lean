import Pumpbug.Lib.Utf8
import Pumpbug.Net.JsonBodies

/-!
# Documents

A document is what a route answers: objects and lists of the values that `JsonStream` writes.  The
calls for a document write its text, and its text is read back as the document, also where its strings
are in UTF-8 and the text is decoded first.
-/

namespace Pumpbug.Net

open Lib Lib.Json

/-! ## Documents and their calls -/

inductive JsonDoc
  | null
  | boolean (v : Bool)
  | u (v : U32)
  | i (v : I32)
  | f (v : Option ℚ)
  | str (s : Option (List Char))
  | arr (vs : List JsonDoc)
  | obj (fields : List (List Char × JsonDoc))

namespace JsonDoc

theorem sizeOf_item_lt {vs : List JsonDoc} {v : JsonDoc} (h : v ∈ vs) :
    sizeOf v < sizeOf (JsonDoc.arr vs) := by
  have hlt := List.sizeOf_lt_of_mem h
  simp only [arr.sizeOf_spec]
  omega

theorem sizeOf_field_lt {fields : List (List Char × JsonDoc)} {x : List Char × JsonDoc}
    (h : x ∈ fields) : sizeOf x.2 < sizeOf (JsonDoc.obj fields) := by
  have hlt := List.sizeOf_lt_of_mem h
  obtain ⟨k, v⟩ := x
  simp only [Prod.mk.sizeOf_spec, obj.sizeOf_spec] at hlt ⊢
  omega

/-- Calls with `comma` between them. -/
def separated : List (List JsonCall) → List JsonCall
  | [] => []
  | [calls] => calls
  | calls :: more => calls ++ .comma :: separated more

theorem eachRow_eq {α : Type} (row : α → List JsonCall) (xs : List α) :
    eachRow row true xs = separated (xs.map row) := by
  cases xs with
  | nil => rfl
  | cons x xs =>
    rw [eachRow, if_pos rfl, List.nil_append]
    induction xs generalizing x with
    | nil => simp [eachRow, separated]
    | cons y ys ih => simpa [eachRow, separated] using ih y

def calls : JsonDoc → List JsonCall
  | .null => [.null]
  | .boolean v => [.boolean v]
  | .u v => [.u v]
  | .i v => [.i v]
  | .f v => [.f v]
  | .str s => [.str s]
  | .arr vs => .arrayOpen :: (separated (vs.map calls) ++ [.arrayClose])
  | .obj fields => .open :: (fields.flatMap (fun x => .key x.1 :: calls x.2) ++ [.close])
termination_by d => sizeOf d
decreasing_by
  · exact sizeOf_item_lt ‹_›
  · exact sizeOf_field_lt ‹_›

/-- What `%.2f` leaves of a number. -/
def hundredths (q : ℚ) : ℚ :=
  if q < 0 then -(roundHalfEven (100 * -q) / 100) else roundHalfEven (100 * q) / 100

/-- What the document says. -/
def value : JsonDoc → Value
  | .null => .null
  | .boolean v => .bool v
  | .u v => .num v.toNat
  | .i v => .num v.toInt
  | .f none => .null
  | .f (some q) => .num (hundredths q)
  | .str none => .null
  | .str (some s) => .str (cStr s)
  | .arr vs => .arr (vs.map value)
  | .obj fields => .obj (fields.map fun x => (cStr x.1, value x.2))
termination_by d => sizeOf d
decreasing_by
  · exact sizeOf_item_lt ‹_›
  · exact sizeOf_field_lt ‹_›

/-- At most `n` objects are open at once, and every number fits into its local buffer. -/
inductive Fits : ℕ → JsonDoc → Prop
  | null {n} : Fits n .null
  | boolean {n} (v) : Fits n (.boolean v)
  | u {n} (v) : Fits n (.u v)
  | i {n} (v) : Fits n (.i v)
  | f {n} {v : Option ℚ} (h : ∀ q ∈ v, (formatFixed q).length < 24) : Fits n (.f v)
  | str {n} (s) : Fits n (.str s)
  | arr {n vs} (h : ∀ v ∈ vs, Fits n v) : Fits n (.arr vs)
  | obj {n fields} (h : ∀ x ∈ fields, Fits n x.2) : Fits (n + 1) (.obj fields)

/-! ## The text -/

def text : JsonDoc → List Char
  | .null => ['n', 'u', 'l', 'l']
  | .boolean v => if v then ['t', 'r', 'u', 'e'] else ['f', 'a', 'l', 's', 'e']
  | .u v => Nat.toDigits 10 v.toNat
  | .i v => formatInt v.toInt
  | .f none => ['n', 'u', 'l', 'l']
  | .f (some q) => formatFixed q
  | .str none => ['n', 'u', 'l', 'l']
  | .str (some s) => JsonStream.quoted s
  | .arr vs => '[' :: (commas (vs.map text) ++ [']'])
  | .obj fields =>
    '{' :: (commas (fields.map fun x => memberText ((cStr x.1).flatMap json.escape) (text x.2)) ++ ['}'])
termination_by d => sizeOf d
decreasing_by
  · exact sizeOf_item_lt ‹_›
  · exact sizeOf_field_lt ‹_›

end JsonDoc

namespace JsonStream

/-- The calls write `t`, and take the open objects from `st` to `st'`. -/
def Emits (st : List Bool) (calls : List JsonCall) (t : List Char) (st' : List Bool) : Prop :=
  ∀ j : JsonStream, j.finished = false → j.objectNeedComma = st →
    ∃ j', j.run calls = some j' ∧ j'.finished = false ∧ j'.body = j.body ++ t ∧
      j'.objectNeedComma = st'

variable {st st' st'' : List Bool} {t t' : List Char} {call : JsonCall} {calls more : List JsonCall}

theorem run_append (j : JsonStream) (calls more : List JsonCall) :
    j.run (calls ++ more) = (j.run calls).bind fun j => j.run more := List.foldlM_append

theorem emits_nil : Emits st [] [] st := by
  intro j hj hst
  exact ⟨j, rfl, hj, by simp, hst⟩

theorem emits_call (h : emit st call = some (t, st')) : Emits st [call] t st' := by
  intro j hj hst
  have hcall : call ≠ .finish := by
    rintro rfl
    simp [emit] at h
  refine ⟨j.put (t, st'), ?_, ?_, put_body j _, put_objectNeedComma j _⟩
  · rw [run_cons, step_eq hj hcall, hst, h]
    rfl
  · rw [put_finished, hj]

theorem Emits.append (h : Emits st calls t st') (h' : Emits st' more t' st'') :
    Emits st (calls ++ more) (t ++ t') st'' := by
  intro j hj hst
  obtain ⟨j₁, hrun, hj₁, hbody, hst₁⟩ := h j hj hst
  obtain ⟨j₂, hrun', hj₂, hbody', hst₂⟩ := h' j₁ hj₁ hst₁
  refine ⟨j₂, ?_, hj₂, ?_, hst₂⟩
  · rw [run_append, hrun]
    exact hrun'
  · rw [hbody', hbody, List.append_assoc]

theorem emits_cons (h : emit st call = some (t, st')) (h' : Emits st' calls t' st'') :
    Emits st (call :: calls) (t ++ t') st'' := (emits_call h).append h'

theorem emits_separated {vs : List JsonDoc} (h : ∀ v ∈ vs, Emits st v.calls v.text st) :
    Emits st (JsonDoc.separated (vs.map JsonDoc.calls)) (commas (vs.map JsonDoc.text)) st := by
  induction vs with
  | nil => exact emits_nil
  | cons v vs ih =>
    have hv := h v List.mem_cons_self
    have hvs := ih fun w hw => h w (List.mem_cons_of_mem v hw)
    cases vs with
    | nil => exact hv
    | cons w ws => exact hv.append (emits_cons (t := [',']) rfl hvs)

/-- The fields of an open object, after others or not. -/
theorem emits_fields (after : Bool) {fields : List (List Char × JsonDoc)}
    (h : ∀ x ∈ fields, ∀ b, Emits (b :: st) x.2.calls x.2.text (b :: st)) :
    ∃ b, Emits (after :: st) (fields.flatMap fun x => .key x.1 :: x.2.calls)
      ((if after ∧ fields ≠ [] then [','] else []) ++ commas (fields.map fun x =>
        memberText ((cStr x.1).flatMap json.escape) x.2.text)) (b :: st) := by
  induction fields generalizing after with
  | nil => exact ⟨after, by simpa using emits_nil⟩
  | cons x xs ih =>
    obtain ⟨b, hxs⟩ : ∃ b, Emits (true :: st) (xs.flatMap fun x => .key x.1 :: x.2.calls) _ (b :: st) :=
      ih true fun y hy => h y (List.mem_cons_of_mem x hy)
    have hkey : emit (after :: st) (.key x.1) =
        some ((if after then [','] else []) ++ (quoted x.1 ++ [':']), true :: st) := rfl
    have hall := emits_cons hkey ((h x List.mem_cons_self true).append hxs)
    refine ⟨b, ?_⟩
    rw [List.flatMap_cons, List.cons_append]
    convert hall using 1
    cases xs <;> simp [memberText, quoted]

theorem emits_doc {n : ℕ} {d : JsonDoc} (h : d.Fits n) :
    ∀ st : List Bool, st.length + n ≤ kMaxDepth → Emits st d.calls d.text st := by
  induction h with
  | null => intro st _; rw [JsonDoc.calls, JsonDoc.text]; exact emits_call rfl
  | boolean v => intro st _; rw [JsonDoc.calls, JsonDoc.text]; exact emits_call rfl
  | u v => intro st _; rw [JsonDoc.calls, JsonDoc.text]; exact emits_call rfl
  | i v => intro st _; rw [JsonDoc.calls, JsonDoc.text]; exact emits_call rfl
  | @f n v hv =>
    intro st _
    cases v with
    | none => rw [JsonDoc.calls, JsonDoc.text]; exact emits_call rfl
    | some q =>
      rw [JsonDoc.calls, JsonDoc.text]
      exact emits_call (by rw [emit, formatted, if_pos (hv q rfl), Option.map_some])
  | str s => intro st _; cases s <;> rw [JsonDoc.calls, JsonDoc.text] <;> exact emits_call rfl
  | arr h ih =>
    intro st hst
    rw [JsonDoc.calls, JsonDoc.text]
    exact emits_cons (t := ['[']) rfl
      ((emits_separated fun v hv => ih v hv st hst).append (emits_call rfl))
  | @obj n fields h ih =>
    intro st hst
    have hopen : emit st .open = some (['{'], false :: st) := if_pos (by omega)
    obtain ⟨b, hfields⟩ := emits_fields false fun x hx b =>
      ih x hx (b :: st) (by rw [List.length_cons]; omega)
    have hclose : emit (b :: st) .close = some (['}'], st) := rfl
    have hall := emits_cons hopen (hfields.append (emits_call hclose))
    rw [JsonDoc.calls, JsonDoc.text]
    simpa using hall

end JsonStream

/-! ## Reading it back -/

/-- The digits of a control character. -/
theorem control_digits : ∀ n < 32, ∃ a b, List.leftpad 4 '0' (Nat.toDigits 16 n) = ['0', '0', a, b] ∧
    unicodeEscape '0' '0' a b = some (Char.ofNat n) ∧ Utf8.Ascii a ∧ Utf8.Ascii b := by
  intro n hn
  interval_cases n <;> exact ⟨_, _, rfl, rfl, by decide, by decide⟩

theorem readsChar_escape (c : Char) : ReadsChar (json.escape c) c := by
  unfold json.escape
  split_ifs with h₁ h₂ h₃ h₄ h₅ h₆ h₇ h₈
  · exact readsChar_short (by rw [h₁]; rfl)
  · exact readsChar_short (by rw [h₂]; rfl)
  · exact readsChar_short (by rw [h₃]; rfl)
  · exact readsChar_short (by rw [h₄]; rfl)
  · exact readsChar_short (by rw [h₅]; rfl)
  · exact readsChar_short (by rw [h₆]; rfl)
  · exact readsChar_short (by rw [h₇]; rfl)
  · have hlt : c.toNat < 32 := h₈
    obtain ⟨a, b, hdigits, hescape, -, -⟩ := control_digits c.toNat hlt
    rw [hdigits]
    rw [Char.ofNat_toNat] at hescape
    exact readsChar_unicode hescape
  · exact readsChar_self h₁ h₂ h₈

theorem readsString_cStr (s : List Char) : ReadsString ((cStr s).flatMap json.escape) (cStr s) :=
  readsString_flatMap fun c _ => readsChar_escape c

theorem value_toDigits (n : ℕ) : Decimal.value (Nat.toDigits 10 n) = n := Nat.ofDigitChars_ten_toDigits

theorem number_neg (cs : List Char) : number ('-' :: cs) = (magnitude cs).map fun r => (-r.1, r.2) := rfl

/-- The digits of a number start with a digit. -/
theorem toDigits_cons (n : ℕ) : ∃ d ds, Nat.toDigits 10 n = d :: ds ∧ d.isDigit = true := by
  obtain ⟨d, ds, hds⟩ := List.exists_cons_of_ne_nil (whole_toDigits n).nonempty
  exact ⟨d, ds, hds, (whole_toDigits n).isDigit d (hds ▸ List.mem_cons_self)⟩

/-- A text that is a magnitude is read as one, and with a minus sign as its negative. -/
theorem reads_magnitude {d : Char} {ds : List Char} {q : ℚ} (hd : d.isDigit = true)
    (h : ∀ rest, Ends rest → magnitude (d :: (ds ++ rest)) = some (q, rest)) :
    Reads (d :: ds) (.num q) ∧ Reads ('-' :: d :: ds) (.num (-q)) := by
  constructor
  · refine reads_number (Or.inl hd) fun rest hrest => ?_
    rw [number_of_magnitude, h rest hrest]
    rw [List.head?_cons, ne_eq, Option.some.injEq]
    rintro rfl
    simp at hd
  · refine reads_number (Or.inr rfl) fun rest hrest => ?_
    rw [number_neg, List.cons_append, h rest hrest]
    rfl

theorem reads_toDigits (n : ℕ) :
    Reads (Nat.toDigits 10 n) (.num n) ∧ Reads ('-' :: Nat.toDigits 10 n) (.num (-n)) := by
  obtain ⟨d, ds, hds, hd⟩ := toDigits_cons n
  have h := whole_toDigits n
  rw [hds] at h ⊢
  refine reads_magnitude hd fun rest hrest => ?_
  rw [← List.cons_append, magnitude_digits h hrest, ← hds, value_toDigits]

theorem reads_formatInt (v : ℤ) : Reads (formatInt v) (.num v) := by
  unfold formatInt
  split_ifs with h
  · have heq : (v : ℚ) = -(v.natAbs : ℕ) := by
      rw [Nat.cast_natAbs, abs_of_neg h]
      push_cast
      ring
    rw [heq]
    exact (reads_toDigits v.natAbs).2
  · have heq : (v : ℚ) = (v.natAbs : ℕ) := by
      rw [Nat.cast_natAbs, abs_of_nonneg (by omega)]
    rw [heq]
    exact (reads_toDigits v.natAbs).1

theorem reads_formatMagnitude (q : ℚ) :
    Reads (formatMagnitude q) (.num (roundHalfEven (100 * q) / 100)) ∧
      Reads ('-' :: formatMagnitude q) (.num (-(roundHalfEven (100 * q) / 100))) := by
  set n := roundHalfEven (100 * q) with hn
  have heq : formatMagnitude q = Nat.toDigits 10 (n / 100) ++ '.' :: Decimal.format 2 (n % 100) := rfl
  obtain ⟨d, ds, hds, hd⟩ := toDigits_cons (n / 100)
  have hwhole := whole_toDigits (n / 100)
  have hlen : (Decimal.format 2 (n % 100)).length = 2 :=
    Decimal.length_format (by decide) (by have := Nat.mod_lt n (show 0 < 100 by decide); omega)
  have hvalue : ((n / 100 : ℕ) : ℚ) + ((n % 100 : ℕ) : ℚ) / 10 ^ 2 = n / 100 := by
    have h : ((100 * (n / 100) + n % 100 : ℕ) : ℚ) = n := by rw [Nat.div_add_mod]
    push_cast at h
    linarith
  rw [heq, hds, List.cons_append]
  refine reads_magnitude hd fun rest hrest => ?_
  rw [← List.cons_append, ← List.cons_append, ← hds, List.append_assoc, List.cons_append,
    magnitude_decimals hwhole (List.ne_nil_of_length_pos (by omega))
      (fun _ hc => Decimal.isDigit_of_mem_format hc) hrest,
    value_toDigits, Decimal.value_format, hlen, hvalue]

theorem reads_formatFixed (q : ℚ) : Reads (formatFixed q) (.num (JsonDoc.hundredths q)) := by
  unfold formatFixed JsonDoc.hundredths
  split_ifs
  · exact (reads_formatMagnitude (-q)).2
  · exact (reads_formatMagnitude q).1

theorem reads_doc {n : ℕ} {d : JsonDoc} (h : d.Fits n) : Reads d.text d.value := by
  induction h with
  | null => rw [JsonDoc.text, JsonDoc.value]; exact reads_null
  | boolean v =>
    rw [JsonDoc.text, JsonDoc.value]
    cases v
    · exact reads_false
    · exact reads_true
  | u v => rw [JsonDoc.text, JsonDoc.value]; exact (reads_toDigits v.toNat).1
  | i v => rw [JsonDoc.text, JsonDoc.value]; exact reads_formatInt v.toInt
  | @f n v hv =>
    cases v with
    | none => rw [JsonDoc.text, JsonDoc.value]; exact reads_null
    | some q => rw [JsonDoc.text, JsonDoc.value]; exact reads_formatFixed q
  | str s =>
    cases s with
    | none => rw [JsonDoc.text, JsonDoc.value]; exact reads_null
    | some s => rw [JsonDoc.text, JsonDoc.value]; exact reads_string (readsString_cStr s)
  | arr h ih => rw [JsonDoc.text, JsonDoc.value]; exact reads_arr ih
  | obj h ih => rw [JsonDoc.text, JsonDoc.value]; exact reads_obj (fun x _ => readsString_cStr x.1) ih

/-- The calls for a document of at most eight nested objects pass all assertions and send its text. -/
theorem document_sent {d : JsonDoc} (h : d.Fits JsonStream.kMaxDepth) (flushAt : ℕ) :
    ∃ j, JsonStream.run { flushAt := flushAt } (d.calls ++ [.finish]) = some j ∧
      j.chunks.flatten = d.text := by
  obtain ⟨j, hrun, hj, hbody, -⟩ :=
    JsonStream.emits_doc h [] (by simp) { flushAt := flushAt } rfl rfl
  refine ⟨j.finish, by rw [JsonStream.run_append, hrun]; rfl, ?_⟩
  have hfinish := JsonStream.finish_body j
  rw [hbody] at hfinish
  simpa [JsonStream.body, JsonStream.finish, hj] using hfinish

theorem parse_text {n : ℕ} {d : JsonDoc} (h : d.Fits n) : parse d.text = some d.value :=
  parse_eq (reads_doc h)

/-! ## Strings in UTF-8 -/

/-- `r.json()` of a body in UTF-8. -/
def readBody (body : List Char) : Option Value := (Utf8.decode body).bind parse

/-- The document with its strings as their bytes in UTF-8. -/
def JsonDoc.utf8 : JsonDoc → JsonDoc
  | .null => .null
  | .boolean v => .boolean v
  | .u v => .u v
  | .i v => .i v
  | .f v => .f v
  | .str s => .str (s.map Utf8.encode)
  | .arr vs => .arr (vs.map utf8)
  | .obj fields => .obj (fields.map fun x => (Utf8.encode x.1, utf8 x.2))
termination_by d => sizeOf d
decreasing_by
  · exact sizeOf_item_lt ‹_›
  · exact sizeOf_field_lt ‹_›

theorem JsonDoc.Fits.utf8 {n : ℕ} {d : JsonDoc} (h : d.Fits n) : d.utf8.Fits n := by
  induction h with
  | null => rw [JsonDoc.utf8]; exact .null
  | boolean v => rw [JsonDoc.utf8]; exact .boolean v
  | u v => rw [JsonDoc.utf8]; exact .u v
  | i v => rw [JsonDoc.utf8]; exact .i v
  | f hv => rw [JsonDoc.utf8]; exact .f hv
  | str s => rw [JsonDoc.utf8]; exact .str _
  | arr h ih =>
    rw [JsonDoc.utf8]
    refine .arr fun v hv => ?_
    obtain ⟨w, hw, rfl⟩ := List.mem_map.1 hv
    exact ih w hw
  | obj h ih =>
    rw [JsonDoc.utf8]
    refine .obj fun x hx => ?_
    obtain ⟨y, hy, rfl⟩ := List.mem_map.1 hx
    exact ih y hy

theorem ascii_escape {c : Char} (h : Utf8.Ascii c) : ∀ d ∈ json.escape c, Utf8.Ascii d := by
  unfold json.escape
  split_ifs with _ _ _ _ _ _ _ hlt
  · simp [Utf8.Ascii]
  · simp [Utf8.Ascii]
  · simp [Utf8.Ascii]
  · simp [Utf8.Ascii]
  · simp [Utf8.Ascii]
  · simp [Utf8.Ascii]
  · simp [Utf8.Ascii]
  · obtain ⟨a, b, hdigits, -, ha, hb⟩ := control_digits c.toNat hlt
    rw [hdigits]
    unfold Utf8.Ascii at ha hb
    simp [Utf8.Ascii, ha, hb]
  · simpa using h

theorem escape_other {c : Char} (h : ¬ Utf8.Ascii c) : json.escape c = [c] := by
  have hne : ∀ d, Utf8.Ascii d → c ≠ d := by
    rintro d hd rfl
    exact h hd
  have hsmall : ¬ c < ' ' := fun hlt => h (Nat.lt_trans hlt (by decide))
  unfold json.escape
  rw [if_neg (hne '"' (by decide)), if_neg (hne '\\' (by decide)), if_neg (hne _ (by decide)),
    if_neg (hne _ (by decide)), if_neg (hne '\n' (by decide)), if_neg (hne '\r' (by decide)),
    if_neg (hne '\t' (by decide)), if_neg hsmall]

theorem cStr_encode (s : List Char) : cStr (Utf8.encode s) = Utf8.encode (cStr s) := by
  refine Utf8.takeWhile_encode (fun c hc => decide_eq_true ?_) s
  rintro rfl
  exact hc (by decide)

/-- Escaping the bytes of a string is escaping its characters. -/
theorem escape_encode (s : List Char) :
    (cStr (Utf8.encode s)).flatMap json.escape = Utf8.encode ((cStr s).flatMap json.escape) := by
  rw [cStr_encode]
  exact Utf8.flatMap_encode (fun c hc => ascii_escape hc) (fun c hc => escape_other hc) _

theorem commas_encode (ts : List (List Char)) :
    commas (ts.map Utf8.encode) = Utf8.encode (commas ts) := by
  induction ts with
  | nil => rfl
  | cons t ts ih =>
    cases ts with
    | nil => rfl
    | cons u us =>
      rw [List.map_cons, List.map_cons, commas_cons_cons, commas_cons_cons, Utf8.encode_append,
        Utf8.encode_cons (by decide), ← ih, List.map_cons]

theorem ascii_of_isDigit {c : Char} (h : c.isDigit = true) : Utf8.Ascii c :=
  lt_of_le_of_lt (Decimal.toNat_bounds h).2 (by decide)

theorem ascii_toDigits (n : ℕ) : ∀ c ∈ Nat.toDigits 10 n, Utf8.Ascii c :=
  fun _ hc => ascii_of_isDigit ((whole_toDigits n).isDigit _ hc)

theorem ascii_formatInt (v : ℤ) : ∀ c ∈ formatInt v, Utf8.Ascii c := by
  unfold formatInt
  split_ifs
  · exact List.forall_mem_cons.2 ⟨by decide, ascii_toDigits _⟩
  · exact ascii_toDigits _

theorem ascii_formatFixed (q : ℚ) : ∀ c ∈ formatFixed q, Utf8.Ascii c := by
  have hmagnitude : ∀ q, ∀ c ∈ formatMagnitude q, Utf8.Ascii c := by
    intro q c hc
    obtain hc | hc := List.mem_append.1 hc
    · exact ascii_toDigits _ c hc
    · obtain rfl | hc := List.mem_cons.1 hc
      · decide
      · exact ascii_of_isDigit (Decimal.isDigit_of_mem_format hc)
  unfold formatFixed
  split_ifs
  · exact List.forall_mem_cons.2 ⟨by decide, hmagnitude _⟩
  · exact hmagnitude q

theorem memberText_encode (t text : List Char) :
    memberText (Utf8.encode t) (Utf8.encode text) = Utf8.encode (memberText t text) := by
  unfold memberText
  rw [Utf8.encode_cons (by decide), Utf8.encode_append, Utf8.encode_cons (by decide),
    Utf8.encode_cons (by decide)]

/-- The text of a document with its strings in UTF-8 is its text in UTF-8. -/
theorem text_utf8 {n : ℕ} {d : JsonDoc} (h : d.Fits n) : d.utf8.text = Utf8.encode d.text := by
  induction h with
  | null =>
    rw [JsonDoc.utf8, JsonDoc.text]
    rfl
  | boolean v =>
    rw [JsonDoc.utf8, JsonDoc.text]
    cases v <;> rfl
  | u v =>
    rw [JsonDoc.utf8, JsonDoc.text]
    exact (Utf8.encode_of_ascii (ascii_toDigits _)).symm
  | i v =>
    rw [JsonDoc.utf8, JsonDoc.text]
    exact (Utf8.encode_of_ascii (ascii_formatInt _)).symm
  | @f n v hv =>
    rw [JsonDoc.utf8]
    cases v with
    | none =>
      rw [JsonDoc.text]
      rfl
    | some q =>
      rw [JsonDoc.text]
      exact (Utf8.encode_of_ascii (ascii_formatFixed q)).symm
  | str s =>
    rw [JsonDoc.utf8]
    cases s with
    | none =>
      rw [Option.map_none, JsonDoc.text]
      rfl
    | some s =>
      rw [Option.map_some, JsonDoc.text, JsonDoc.text, JsonStream.quoted, JsonStream.quoted,
        escape_encode, Utf8.encode_cons (by decide), Utf8.encode_append, Utf8.encode_ascii (by decide)]
  | @arr n vs h ih =>
    rw [JsonDoc.utf8, JsonDoc.text, JsonDoc.text, Utf8.encode_cons (by decide), Utf8.encode_append,
      Utf8.encode_ascii (by decide), ← commas_encode, List.map_map, List.map_map]
    exact congrArg (fun ts => '[' :: (commas ts ++ [']'])) (List.map_congr_left ih)
  | @obj n fields h ih =>
    have hfield : ∀ x ∈ fields,
        memberText ((cStr (Utf8.encode x.1)).flatMap json.escape) x.2.utf8.text =
          Utf8.encode (memberText ((cStr x.1).flatMap json.escape) x.2.text) := by
      intro x hx
      rw [escape_encode, ih x hx, memberText_encode]
    rw [JsonDoc.utf8, JsonDoc.text, JsonDoc.text, Utf8.encode_cons (by decide), Utf8.encode_append,
      Utf8.encode_ascii (by decide), ← commas_encode, List.map_map, List.map_map]
    exact congrArg (fun ts => '{' :: (commas ts ++ ['}'])) (List.map_congr_left hfield)

/-- **A document is read back.**  Whatever the flush mark is, the calls for a document of at most eight
nested objects, with its strings in UTF-8, pass all assertions, and the chunks that they send are
together a JSON text of the document. -/
theorem document_read {d : JsonDoc} (h : d.Fits JsonStream.kMaxDepth) (flushAt : ℕ) :
    ∃ j, JsonStream.run { flushAt := flushAt } (d.utf8.calls ++ [.finish]) = some j ∧
      readBody j.chunks.flatten = some d.value := by
  obtain ⟨j, hrun, hbody⟩ := document_sent h.utf8 flushAt
  refine ⟨j, hrun, ?_⟩
  rw [hbody, text_utf8 h, readBody, Utf8.decode_encode, Option.bind_some, parse_text h]

/-- A name with an accent and a quote, and a list. -/
def accented : JsonDoc :=
  .obj [(['n'], .str (some ['é', '"', '\n'])), (['v'], .arr [.f (some (-1 / 8)), .null])]

theorem document_read_accented :
    ∃ j, JsonStream.run { flushAt := 3 } (accented.utf8.calls ++ [.finish]) = some j ∧
      readBody j.chunks.flatten = some accented.value := by
  refine document_read (.obj ?_) 3
  intro x hx
  simp only [List.mem_cons, List.not_mem_nil, or_false] at hx
  obtain rfl | rfl := hx
  · exact .str _
  · refine .arr fun v hv => ?_
    simp only [List.mem_cons, List.not_mem_nil, or_false] at hv
    obtain rfl | rfl := hv
    · refine .f fun q hq => ?_
      obtain rfl := Option.some.inj hq
      decide +kernel
    · exact .null

end Pumpbug.Net
