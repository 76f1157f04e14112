import Pumpbug.Net.JsonStream

/-!
# What a JSON body says

However its calls are cut into chunks, a body is what they add up to, no chunk ends it early, and the
calls for a document are read back as that document.
-/

namespace Pumpbug.Net

open Lib Lib.Json

namespace JsonStream

/-! ## One call -/

/-- The body so far. -/
def body (j : JsonStream) : List Char := j.chunks.flatten ++ j.buf

def quoted (s : List Char) : List Char := '"' :: ((cStr s).flatMap json.escape ++ ['"'])

/-- What a call adds to a body that is not finished, with the objects that it leaves open. -/
def emit (st : List Bool) : JsonCall → Option (List Char × List Bool)
  | .raw s => some (s, st)
  | .open => if st.length < kMaxDepth then some (['{'], false :: st) else none
  | .close =>
    match st with
    | [] => none
    | _ :: outer => some (['}'], outer)
  | .arrayOpen => some (['['], st)
  | .arrayClose => some ([']'], st)
  | .comma => some ([','], st)
  | .key k =>
    match st with
    | [] => some (quoted k ++ [':'], [])
    | needComma :: outer =>
      some ((if needComma then [','] else []) ++ (quoted k ++ [':']), true :: outer)
  | .str none => some (['n', 'u', 'l', 'l'], st)
  | .str (some s) => some (quoted s, st)
  | .u v => some (Nat.toDigits 10 v.toNat, st)
  | .i v => some (formatInt v.toInt, st)
  | .f none => some (['n', 'u', 'l', 'l'], st)
  | .f (some q) => (formatted 24 (formatFixed q)).map fun s => (s, st)
  | .boolean v => some (if v then ['t', 'r', 'u', 'e'] else ['f', 'a', 'l', 's', 'e'], st)
  | .null => some (['n', 'u', 'l', 'l'], st)
  | .finish => none

/-- The stream after a call. -/
def put (j : JsonStream) (r : List Char × List Bool) : JsonStream :=
  { j with buf := j.buf ++ r.1, objectNeedComma := r.2 }.flushIfFull

theorem flush_cases (j : JsonStream) :
    (j.buf = [] ∧ j.flush = j) ∨
      (j.buf ≠ [] ∧ j.flush = { j with chunks := j.chunks ++ [j.buf], buf := [] }) := by
  unfold flush
  split
  · exact Or.inl ⟨‹_›, rfl⟩
  · exact Or.inr ⟨‹_›, rfl⟩

@[simp] theorem flush_body (j : JsonStream) : j.flush.body = j.body := by
  obtain ⟨-, heq⟩ | ⟨-, heq⟩ := flush_cases j <;> rw [heq]
  simp [body]

@[simp] theorem flush_finished (j : JsonStream) : j.flush.finished = j.finished := by
  obtain ⟨-, heq⟩ | ⟨-, heq⟩ := flush_cases j <;> rw [heq]

@[simp] theorem flush_objectNeedComma (j : JsonStream) :
    j.flush.objectNeedComma = j.objectNeedComma := by
  obtain ⟨-, heq⟩ | ⟨-, heq⟩ := flush_cases j <;> rw [heq]

@[simp] theorem flush_flushAt (j : JsonStream) : j.flush.flushAt = j.flushAt := by
  obtain ⟨-, heq⟩ | ⟨-, heq⟩ := flush_cases j <;> rw [heq]

@[simp] theorem flush_buf (j : JsonStream) : j.flush.buf = [] := by
  obtain ⟨h, heq⟩ | ⟨-, heq⟩ := flush_cases j <;> rw [heq]
  exact h

/-- A full buffer is flushed, any other is left alone. -/
theorem flushIfFull_cases (j : JsonStream) :
    (j.flushAt ≤ j.buf.length ∧ j.flushIfFull = j.flush) ∨
      (j.buf.length < j.flushAt ∧ j.flushIfFull = j) := by
  unfold flushIfFull
  split
  · exact Or.inl ⟨‹_›, rfl⟩
  · exact Or.inr ⟨by omega, rfl⟩

@[simp] theorem flushIfFull_body (j : JsonStream) : j.flushIfFull.body = j.body := by
  obtain ⟨-, heq⟩ | ⟨-, heq⟩ := flushIfFull_cases j <;> simp [heq]

@[simp] theorem flushIfFull_finished (j : JsonStream) : j.flushIfFull.finished = j.finished := by
  obtain ⟨-, heq⟩ | ⟨-, heq⟩ := flushIfFull_cases j <;> simp [heq]

@[simp] theorem flushIfFull_objectNeedComma (j : JsonStream) :
    j.flushIfFull.objectNeedComma = j.objectNeedComma := by
  obtain ⟨-, heq⟩ | ⟨-, heq⟩ := flushIfFull_cases j <;> simp [heq]

@[simp] theorem flushIfFull_flushAt (j : JsonStream) : j.flushIfFull.flushAt = j.flushAt := by
  obtain ⟨-, heq⟩ | ⟨-, heq⟩ := flushIfFull_cases j <;> simp [heq]

theorem flushIfFull_with (j : JsonStream) (st : List Bool) :
    { j.flushIfFull with objectNeedComma := st } = { j with objectNeedComma := st }.flushIfFull := by
  unfold flushIfFull flush
  split_ifs <;> rfl

@[simp] theorem put_body (j : JsonStream) (r : List Char × List Bool) :
    (j.put r).body = j.body ++ r.1 := by
  rw [put, flushIfFull_body]
  simp [body]

@[simp] theorem put_finished (j : JsonStream) (r : List Char × List Bool) :
    (j.put r).finished = j.finished := by simp [put]

@[simp] theorem put_objectNeedComma (j : JsonStream) (r : List Char × List Bool) :
    (j.put r).objectNeedComma = r.2 := by simp [put]

@[simp] theorem put_flushAt (j : JsonStream) (r : List Char × List Bool) :
    (j.put r).flushAt = j.flushAt := by simp [put]

theorem raw_eq {j : JsonStream} (hj : j.finished = false) (s : List Char) :
    j.raw s = some (j.put (s, j.objectNeedComma)) := by
  simp [raw, put, hj]

theorem step_eq {j : JsonStream} (hj : j.finished = false) {call : JsonCall} (hcall : call ≠ .finish) :
    j.step call = (emit j.objectNeedComma call).map j.put := by
  cases call with
  | raw s => simp [step, emit, raw_eq hj]
  | «open» =>
    simp only [step, JsonStream.open, emit, raw_eq hj, Option.bind_eq_bind, Option.bind_some,
      put_objectNeedComma]
    split
    · simp only [put, flushIfFull_with, Option.map_some]
    · rfl
  | close =>
    simp only [step, close, emit]
    cases j.objectNeedComma with
    | nil => rfl
    | cons b outer => simp [raw, put, hj]
  | arrayOpen => simp [step, emit, raw_eq hj]
  | arrayClose => simp [step, emit, raw_eq hj]
  | comma => simp [step, emit, raw_eq hj]
  | key k =>
    simp only [step, key, emit, hj]
    cases hst : j.objectNeedComma with
    | nil => simp [put, json.escapeAppend, quoted, hst]
    | cons b outer => cases b <;> simp [put, json.escapeAppend, quoted, hj]
  | str s => cases s <;> simp [step, str, emit, put, json.escapeAppend, quoted, hj]
  | u v => simp [step, u, emit, raw_eq hj]
  | i v => simp [step, i, emit, raw_eq hj]
  | f v =>
    cases v with
    | none => simp [step, f, emit, raw_eq hj]
    | some q =>
      simp only [step, f, emit]
      cases formatted 24 (formatFixed q) with
      | none => rfl
      | some s => simp [raw_eq hj]
  | boolean v => simp [step, boolean, emit, raw_eq hj]
  | null => simp [step, emit, raw_eq hj]
  | finish => exact absurd rfl hcall

/-- Nothing may be written to a finished body. -/
theorem step_finished {j : JsonStream} (hj : j.finished = true) {call : JsonCall}
    (hcall : call ≠ .finish) : j.step call = none := by
  have hraw : ∀ (st : List Bool) (s : List Char), raw { j with objectNeedComma := st } s = none := by
    intro st s
    simp [raw, hj]
  have hraw' : ∀ s : List Char, j.raw s = none := hraw j.objectNeedComma
  cases call with
  | close =>
    simp only [step, close]
    cases j.objectNeedComma with
    | nil => rfl
    | cons b outer => exact hraw outer ['}']
  | f v => cases v <;> simp [step, f, hraw']
  | finish => exact absurd rfl hcall
  | _ => simp [step, JsonStream.open, key, str, u, i, boolean, hraw', hj]

/-- All that a call can do. -/
theorem step_cases {j j' : JsonStream} {call : JsonCall} (hstep : j.step call = some j') :
    (call = .finish ∧ j' = j.finish) ∨
      (call ≠ .finish ∧ j.finished = false ∧
        ∃ r, emit j.objectNeedComma call = some r ∧ j' = j.put r) := by
  by_cases hcall : call = .finish
  · subst hcall
    exact Or.inl ⟨rfl, (Option.some.inj hstep).symm⟩
  · cases hj : j.finished with
    | true => rw [step_finished hj hcall] at hstep; simp at hstep
    | false =>
      rw [step_eq hj hcall, Option.map_eq_some_iff] at hstep
      obtain ⟨r, hr, rfl⟩ := hstep
      exact Or.inr ⟨hcall, rfl, r, hr, rfl⟩

/-! ## The chunks -/

/-- The chunks so far. -/
structure Chunked (j : JsonStream) : Prop where
  nonempty : ∀ c ∈ j.chunks, c ≠ []
  /-- Only what `finish` sends may be short. -/
  full : ∀ c ∈ if j.finished then j.chunks.dropLast else j.chunks, j.flushAt ≤ c.length
  /-- The buffer is not full. -/
  room : j.buf = [] ∨ j.buf.length < j.flushAt
  done : j.finished = true → j.buf = []

theorem mem_flush_chunks {j : JsonStream} {c : List Char} (hc : c ∈ j.flush.chunks) :
    c ∈ j.chunks ∨ c = j.buf ∧ j.buf ≠ [] := by
  obtain ⟨-, heq⟩ | ⟨hne, heq⟩ := flush_cases j <;> rw [heq] at hc
  · exact Or.inl hc
  · obtain hc | hc := List.mem_append.1 hc
    · exact Or.inl hc
    · exact Or.inr ⟨List.mem_singleton.1 hc, hne⟩

theorem mem_put_chunks {j : JsonStream} {r : List Char × List Bool} {c : List Char}
    (hc : c ∈ (j.put r).chunks) : c ∈ j.chunks ∨ c ≠ [] ∧ j.flushAt ≤ c.length := by
  unfold put at hc
  obtain ⟨hlen, heq⟩ | ⟨-, heq⟩ :=
    flushIfFull_cases { j with buf := j.buf ++ r.1, objectNeedComma := r.2 } <;> rw [heq] at hc
  · obtain hc | ⟨rfl, hne⟩ := mem_flush_chunks hc
    · exact Or.inl hc
    · exact Or.inr ⟨hne, hlen⟩
  · exact Or.inl hc

theorem put_room (j : JsonStream) (r : List Char × List Bool) :
    (j.put r).buf = [] ∨ (j.put r).buf.length < j.flushAt := by
  unfold put
  obtain ⟨-, heq⟩ | ⟨hlen, heq⟩ :=
    flushIfFull_cases { j with buf := j.buf ++ r.1, objectNeedComma := r.2 } <;> rw [heq]
  · exact Or.inl (flush_buf _)
  · exact Or.inr hlen

theorem put_chunked {j : JsonStream} (h : Chunked j) (hj : j.finished = false)
    (r : List Char × List Bool) : Chunked (j.put r) where
  nonempty := by
    intro c hc
    obtain hc | ⟨hne, -⟩ := mem_put_chunks hc
    · exact h.nonempty c hc
    · exact hne
  full := by
    have hfull := h.full
    rw [hj, if_neg (by simp)] at hfull
    rw [put_finished, hj, if_neg (by simp), put_flushAt]
    intro c hc
    obtain hc | ⟨-, hlen⟩ := mem_put_chunks hc
    · exact hfull c hc
    · exact hlen
  room := by
    rw [put_flushAt]
    exact put_room j r
  done := by
    rw [put_finished, hj]
    simp

theorem finish_chunked {j : JsonStream} (h : Chunked j) : Chunked j.finish := by
  unfold finish
  split_ifs with hj
  · exact h
  · have hfull := h.full
    rw [if_neg hj] at hfull
    refine ⟨fun c hc => ?_, fun c hc => ?_, Or.inl (flush_buf j), fun _ => flush_buf j⟩
    · obtain hc | ⟨rfl, hne⟩ := mem_flush_chunks hc
      · exact h.nonempty c hc
      · exact hne
    · -- what `flush` has added is dropped again
      have hsub : j.flush.chunks.dropLast ⊆ j.chunks := by
        obtain ⟨-, heq⟩ | ⟨-, heq⟩ := flush_cases j <;> rw [heq]
        · exact List.dropLast_subset _
        · simp
      rw [flush_flushAt]
      exact hfull c (hsub hc)

theorem step_chunked {j j' : JsonStream} (h : Chunked j) {call : JsonCall}
    (hstep : j.step call = some j') : Chunked j' := by
  obtain ⟨-, rfl⟩ | ⟨-, hj, r, -, rfl⟩ := step_cases hstep
  · exact finish_chunked h
  · exact put_chunked h hj r

theorem run_cons (j : JsonStream) (call : JsonCall) (calls : List JsonCall) :
    j.run (call :: calls) = (j.step call).bind fun j => j.run calls := rfl

theorem run_chunked {j j' : JsonStream} (h : Chunked j) {calls : List JsonCall}
    (hrun : j.run calls = some j') : Chunked j' := by
  induction calls generalizing j with
  | nil =>
    obtain rfl := Option.some.inj hrun
    exact h
  | cons call calls ih =>
    rw [run_cons, Option.bind_eq_some_iff] at hrun
    obtain ⟨j₁, hstep, hrun⟩ := hrun
    exact ih (step_chunked h hstep) hrun

theorem step_flushAt {j j' : JsonStream} {call : JsonCall} (hstep : j.step call = some j') :
    j'.flushAt = j.flushAt := by
  obtain ⟨-, rfl⟩ | ⟨-, -, r, -, rfl⟩ := step_cases hstep
  · unfold finish
    split_ifs
    · rfl
    · exact flush_flushAt j
  · exact put_flushAt j r

theorem run_flushAt {j j' : JsonStream} {calls : List JsonCall} (hrun : j.run calls = some j') :
    j'.flushAt = j.flushAt := by
  induction calls generalizing j with
  | nil => exact congrArg flushAt (Option.some.inj hrun).symm
  | cons call calls ih =>
    rw [run_cons, Option.bind_eq_some_iff] at hrun
    obtain ⟨j₁, hstep, hrun⟩ := hrun
    rw [ih hrun, step_flushAt hstep]

/-! ## The body -/

/-- Two streams that differ in their flush marks only, and in what they have flushed. -/
structure SameBody (a b : JsonStream) : Prop where
  body : a.body = b.body
  finished : a.finished = b.finished
  objectNeedComma : a.objectNeedComma = b.objectNeedComma

theorem finish_body (j : JsonStream) : j.finish.body = j.body := by
  unfold finish
  split_ifs
  · rfl
  · exact flush_body j

theorem finish_finished (j : JsonStream) : j.finish.finished = true := by
  unfold finish
  split_ifs with h
  · exact h
  · rfl

theorem finish_objectNeedComma (j : JsonStream) : j.finish.objectNeedComma = j.objectNeedComma := by
  unfold finish
  split_ifs
  · rfl
  · exact flush_objectNeedComma j

theorem step_sameBody {a b a' : JsonStream} (h : SameBody a b) {call : JsonCall}
    (hstep : a.step call = some a') : ∃ b', b.step call = some b' ∧ SameBody a' b' := by
  obtain ⟨rfl, rfl⟩ | ⟨hcall, ha, r, hr, rfl⟩ := step_cases hstep
  · refine ⟨b.finish, rfl, ?_, ?_, ?_⟩
    · rw [finish_body, finish_body, h.body]
    · rw [finish_finished, finish_finished]
    · rw [finish_objectNeedComma, finish_objectNeedComma, h.objectNeedComma]
  · refine ⟨b.put r, ?_, ?_, ?_, ?_⟩
    · rw [step_eq (h.finished ▸ ha) hcall, ← h.objectNeedComma, hr]
      rfl
    · rw [put_body, put_body, h.body]
    · rw [put_finished, put_finished, h.finished]
    · rw [put_objectNeedComma, put_objectNeedComma]

theorem run_sameBody {a b a' : JsonStream} (h : SameBody a b) {calls : List JsonCall}
    (hrun : a.run calls = some a') : ∃ b', b.run calls = some b' ∧ SameBody a' b' := by
  induction calls generalizing a b with
  | nil =>
    obtain rfl := Option.some.inj hrun
    exact ⟨b, rfl, h⟩
  | cons call calls ih =>
    rw [run_cons, Option.bind_eq_some_iff] at hrun
    obtain ⟨a₁, hstep, hrun⟩ := hrun
    obtain ⟨b₁, hstep', h₁⟩ := step_sameBody h hstep
    obtain ⟨b', hrun', h'⟩ := ih h₁ hrun
    exact ⟨b', by rw [run_cons, hstep']; exact hrun', h'⟩

/-- **The chunks of a body.**  In every body that was finished no chunk is empty, which would end the
response, and each but the last is at least as long as the flush mark; and whatever the mark is, the
chunks add up to the same body. -/
theorem finished_chunks {n : ℕ} {calls : List JsonCall} {j : JsonStream}
    (hrun : run { flushAt := n } calls = some j) (hfinished : j.finished = true) :
    (∀ c ∈ j.chunks, c ≠ []) ∧ (∀ c ∈ j.chunks.dropLast, n ≤ c.length) ∧
      ∀ m, ∃ j', run { flushAt := m } calls = some j' ∧ j'.chunks.flatten = j.chunks.flatten := by
  have hinit : ∀ n, Chunked { flushAt := n } := fun _ => ⟨by simp, by simp, Or.inl rfl, by simp⟩
  have h := run_chunked (hinit n) hrun
  have hbody : j.chunks.flatten = j.body := by simp [body, h.done hfinished]
  have hfull := h.full
  rw [if_pos hfinished, run_flushAt hrun] at hfull
  refine ⟨h.nonempty, hfull, fun m => ?_⟩
  have hsame : SameBody { flushAt := n } { flushAt := m } := ⟨rfl, rfl, rfl⟩
  obtain ⟨j', hrun', hsame⟩ := run_sameBody hsame hrun
  have hdone := (run_chunked (hinit m) hrun').done (hsame.finished ▸ hfinished)
  exact ⟨j', hrun', by rw [hbody, hsame.body]; simp [body, hdone]⟩

theorem finished_chunks_true :
    (∀ c ∈ ([['{', '"', 'a', '"', ':'], ['t', 'r', 'u', 'e'], ['}']] : List (List Char)), c ≠ []) ∧
      (∀ c ∈ ([['{', '"', 'a', '"', ':'], ['t', 'r', 'u', 'e'], ['}']] : List (List Char)).dropLast,
        4 ≤ c.length) ∧
      ∀ m, ∃ j', run { flushAt := m } [.open, .key ['a'], .boolean true, .close, .finish] = some j' ∧
        j'.chunks.flatten = ([['{', '"', 'a', '"', ':'], ['t', 'r', 'u', 'e'], ['}']] :
          List (List Char)).flatten := by
  have hrun : run { flushAt := 4 } [.open, .key ['a'], .boolean true, .close, .finish] =
      some { flushAt := 4, finished := true
             chunks := [['{', '"', 'a', '"', ':'], ['t', 'r', 'u', 'e'], ['}']] } := rfl
  exact finished_chunks hrun rfl

end JsonStream

end Pumpbug.Net
