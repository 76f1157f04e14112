import Pumpbug.Diagnostics.RuntimeEventLog
import Pumpbug.Lib.Run

/-!
# The web client's view of a runtime log

`loadLog` and `clearLog` in the logs' `api.js`, with the caller that keeps what they return, and
`conditional` on the device.  The client asks with the validator of the body that it took last; the
device, which is also written, cleared and booted anew meanwhile, answers 304 if it has the same.
-/

namespace Pumpbug.Diagnostics

open Lib Lib.Json
open Pumpbug.Net

variable {α : Type} {N : ℕ}

/-! ## The device -/

structure LogDevice (α : Type) (N : ℕ) where
  bootNonce : U32
  events : EventRing α N

inductive LogOp (α : Type) where
  | push (e : α)
  | clear
  | reboot (bootNonce : U32)

namespace LogDevice

variable [NeZero N] [Inhabited α]

def boot (bootNonce : U32) : LogDevice α N := { bootNonce := bootNonce, events := .empty }

def step (d : LogDevice α N) : LogOp α → LogDevice α N
  | .push e => { d with events := d.events.push e }
  | .clear => { d with events := d.events.clear }
  | .reboot bootNonce => boot bootNonce

end LogDevice

inductive LogResponse where
  | notModified
  /-- Without a body where an assertion failed. -/
  | ok (etag : List Char) (body : Option (List Char))

/-- The route, for the header `If-None-Match`. -/
def LogKind.serve [NeZero N] (k : LogKind α) (d : LogDevice α N) (ifNoneMatch : Option (List Char)) :
    LogResponse :=
  let rows := d.events.ring.snapshot N
  let etag := etag k.name d.bootNonce d.events.revision
  if ifNoneMatch = some etag then .notModified
  else
    .ok etag ((JsonStream.run {} (k.body rows d.events.ring.writes ++ [.finish])).map fun j =>
      j.chunks.flatten)

/-! ## The client -/

structure LogView where
  /-- `etags[log]`. -/
  etag : Option (List Char) := none
  loading : Bool := false
  /-- The last load was answered with 200 or 304. -/
  succeeded : Bool := false
  /-- `logs[log]`. -/
  shown : Option Value := none

namespace LogView

def poll (c : LogView) : LogView := { c with loading := true, succeeded := false }

/-- `whole` says that the body has not been broken off; the data are null otherwise. -/
def receive (c : LogView) (response : LogResponse) (whole : Bool) : LogView :=
  match response with
  | .notModified => { c with loading := false, succeeded := true }
  | .ok etag body =>
    { etag := some etag
      loading := false
      succeeded := true
      shown := if whole then body.bind parse else none }

def fail (c : LogView) : LogView := { c with loading := false, succeeded := false }

end LogView

structure LogSystem (α : Type) (N : ℕ) where
  device : LogDevice α N
  client : LogView := {}
  /-- A request on its way, with its validator. -/
  request : Option (Option (List Char)) := none
  response : Option LogResponse := none

inductive LogMove (α : Type) where
  | device (op : LogOp α)
  | poll
  | serve
  | receive (whole : Bool)
  /-- The request or its response is lost. -/
  | lose
  /-- The client has cleared the log, and drops its validator. -/
  | forget

namespace LogSystem

variable [NeZero N] [Inhabited α] (k : LogKind α)

def step (s : LogSystem α N) : LogMove α → LogSystem α N
  | .device op => { s with device := s.device.step op }
  -- a poll during a load runs after it
  | .poll =>
    if s.client.loading then s else { s with client := s.client.poll, request := some s.client.etag }
  | .serve =>
    match s.request with
    | none => s
    | some etag => { s with request := none, response := some (k.serve s.device etag) }
  | .receive whole =>
    match s.response with
    | none => s
    | some response => { s with client := s.client.receive response whole, response := none }
  | .lose =>
    if s.client.loading then { s with client := s.client.fail, request := none, response := none } else s
  | .forget => { s with client := { s.client with etag := none } }

def run (bootNonce : U32) (moves : List (LogMove α)) : LogSystem α N :=
  exec (step k) { device := .boot bootNonce } moves

end LogSystem

/-! ## What the log is about -/

/-- The events since the last clear, newest first, and the changes since the boot. -/
structure Past (α : Type) where
  bootNonce : U32
  changes : ℕ := 0
  events : List α := []

def Past.step (p : Past α) : LogMove α → Past α
  | .device (.push e) => { p with changes := p.changes + 1, events := e :: p.events }
  | .device .clear => { p with changes := p.changes + 1, events := [] }
  | .device (.reboot bootNonce) => { bootNonce := bootNonce }
  | _ => p

def past (bootNonce : U32) (moves : List (LogMove α)) : Past α :=
  exec Past.step { bootNonce := bootNonce } moves

/-- What the client shows of the last `N` events. -/
def LogKind.view (k : LogKind α) (N : ℕ) (p : Past α) : Value :=
  (k.doc (p.events.take N) (BitVec.ofNat 32 p.events.length)).value

def Past.tag (p : Past α) (name : String) : List Char := etag name p.bootNonce (BitVec.ofNat 32 p.changes)

/-- The nonces of the boots among the moves. -/
def LogMove.boots : LogMove α → List U32
  | .device (.reboot bootNonce) => [bootNonce]
  | _ => []

def LogMove.changes : LogMove α → Bool
  | .device (.push _) => true
  | .device .clear => true
  | _ => false

section Versions

variable {p q : Past α} {moves : List (LogMove α)}

theorem past_step (p : Past α) (m : LogMove α) :
    (m.boots ≠ [] ∧ (p.step m).bootNonce ∈ m.boots ∧ (p.step m).changes = 0) ∨
      (m.boots = [] ∧ (p.step m).bootNonce = p.bootNonce ∧
        (p.step m).changes = p.changes + (if m.changes then 1 else 0) ∧
        (m.changes = false → p.step m = p)) := by
  cases m with
  | device op => cases op <;> simp [Past.step, LogMove.boots, LogMove.changes]
  | poll | serve | receive | lose | forget => simp [Past.step, LogMove.boots, LogMove.changes]

theorem changes_le (h : exec Past.step p moves = q) :
    q.changes ≤ p.changes + moves.countP LogMove.changes := by
  induction moves generalizing p with
  | nil => exact h ▸ Nat.le_add_right _ _
  | cons m moves ih =>
    have hle := ih h
    rw [List.countP_cons]
    obtain ⟨-, -, hzero⟩ | ⟨-, -, hone, -⟩ := past_step p m <;> omega

theorem past_changes_le (bootNonce : U32) (moves : List (LogMove α)) :
    (past bootNonce moves).changes ≤ moves.countP LogMove.changes := by
  have hpast : exec Past.step { bootNonce := bootNonce } moves = past bootNonce moves := rfl
  simpa using changes_le hpast

/-- A boot leaves its nonce. -/
theorem bootNonce_mem (h : exec Past.step p moves = q) :
    (moves.flatMap LogMove.boots ≠ [] → q.bootNonce ∈ moves.flatMap LogMove.boots) ∧
      (moves.flatMap LogMove.boots = [] → q.bootNonce = p.bootNonce ∧
        q.changes = p.changes + moves.countP LogMove.changes ∧
        (moves.countP LogMove.changes = 0 → q = p)) := by
  induction moves generalizing p with
  | nil => subst h; simp
  | cons m moves ih =>
    obtain ⟨hsome, hnone⟩ := ih h
    rw [List.flatMap_cons, List.countP_cons]
    obtain ⟨hboot, hmem, -⟩ | ⟨hboot, hnonce, hchanges, hsame⟩ := past_step p m
    · refine ⟨fun _ => ?_, fun hnil => absurd (List.append_eq_nil_iff.1 hnil).1 hboot⟩
      by_cases hrest : moves.flatMap LogMove.boots = []
      · rw [(hnone hrest).1]
        exact List.mem_append_left _ hmem
      · exact List.mem_append_right _ (hsome hrest)
    · rw [hboot, List.nil_append]
      refine ⟨hsome, fun hrest => ?_⟩
      obtain ⟨hn, hc, hs⟩ := hnone hrest
      refine ⟨hn.trans hnonce, by omega, fun hzero => ?_⟩
      have hm : m.changes = false := by
        by_contra hm
        simp [hm] at hzero
      rw [hs (by omega), hsame hm]

/-- Within a run whose boots have different nonces, and whose changes are fewer than the revisions, a
validator says which events there are. -/
theorem events_eq {bootNonce : U32} {moves : List (LogMove α)} {name : String}
    (hboots : (bootNonce :: moves.flatMap LogMove.boots).Nodup)
    (hfew : moves.countP LogMove.changes < 2 ^ 32) {a b c : List (LogMove α)} (hmoves : moves = a ++ b ++ c)
    (htag : (past bootNonce a).tag name = (past bootNonce (a ++ b)).tag name) :
    (past bootNonce a).events = (past bootNonce (a ++ b)).events := by
  have hb : exec Past.step (past bootNonce a) b = past bootNonce (a ++ b) := (exec_append a b).symm
  obtain ⟨hsome, hnone⟩ := bootNonce_mem hb
  obtain ⟨hnonce, hrevision⟩ := etag_inj htag
  rw [hmoves, List.flatMap_append, List.flatMap_append, List.append_assoc] at hboots
  rw [hmoves, List.countP_append, List.countP_append] at hfew
  by_cases hrest : b.flatMap LogMove.boots = []
  · obtain ⟨-, hchanges, hsame⟩ := hnone hrest
    have hle := past_changes_le bootNonce a
    have heq := congrArg BitVec.toNat hrevision
    simp only [BitVec.toNat_ofNat] at heq
    rw [Nat.mod_eq_of_lt (by omega), Nat.mod_eq_of_lt (by omega)] at heq
    rw [hsame (by omega)]
  · -- a boot between has another nonce
    exfalso
    have hmem := hsome hrest
    rw [← hnonce] at hmem
    have hpast : exec Past.step { bootNonce := bootNonce } a = past bootNonce a := rfl
    obtain ⟨hs, hn⟩ := bootNonce_mem hpast
    by_cases ha : a.flatMap LogMove.boots = []
    · rw [(hn ha).1] at hmem
      exact (List.nodup_cons.1 hboots).1 (by simp [hmem])
    · have hdisj := List.disjoint_of_nodup_append (List.nodup_cons.1 hboots).2
      exact hdisj (hs ha) (List.mem_append_left _ hmem)

end Versions

/-! ## Requests -/

theorem run_concat [NeZero N] [Inhabited α] (k : LogKind α) (bootNonce : U32)
    (moves : List (LogMove α)) (m : LogMove α) :
    (LogSystem.run k bootNonce (moves ++ [m]) : LogSystem α N) =
      LogSystem.step k (LogSystem.run k bootNonce moves) m := by
  rw [LogSystem.run, exec_append]
  rfl

/-- There is one request, or its response, and only during a load. -/
def OneRequest (s : LogSystem α N) : Prop :=
  (s.client.loading = false → s.request = none ∧ s.response = none) ∧
    (s.response ≠ none → s.request = none)

theorem OneRequest.step [NeZero N] [Inhabited α] {k : LogKind α} {s : LogSystem α N} (h : OneRequest s)
    (m : LogMove α) : OneRequest (LogSystem.step k s m) := by
  cases m with
  | device op => exact h
  | poll =>
    rw [LogSystem.step]
    split
    · exact h
    · rename_i hload
      have hidle := h.1 (by simpa using hload)
      exact ⟨by simp [LogView.poll], fun hresponse => absurd hidle.2 hresponse⟩
  | serve =>
    rw [LogSystem.step]
    split
    · exact h
    · rename_i e he
      refine ⟨fun hidle => ?_, fun _ => rfl⟩
      rw [(h.1 hidle).1] at he
      exact absurd he (by simp)
  | receive whole =>
    rw [LogSystem.step]
    split
    · exact h
    · rename_i r hr
      have hrequest := h.2 (by simp [hr])
      exact ⟨fun _ => ⟨hrequest, rfl⟩, by simp⟩
  | lose =>
    rw [LogSystem.step]
    split
    · exact ⟨fun _ => ⟨rfl, rfl⟩, fun _ => rfl⟩
    · exact h
  | forget => exact h

theorem oneRequest_run [NeZero N] [Inhabited α] (k : LogKind α) (bootNonce : U32)
    (moves : List (LogMove α)) : OneRequest (LogSystem.run k bootNonce moves : LogSystem α N) := by
  induction moves using List.reverseRecOn with
  | nil => exact ⟨fun _ => ⟨rfl, rfl⟩, fun _ => rfl⟩
  | append_singleton moves m ih =>
    rw [run_concat]
    exact ih.step m

/-! ## The account -/

section Account

variable (k : LogKind α)

/-- The view is of the log as it was, or empty since a body was broken off. -/
def LogView.Of (N : ℕ) (Broken : Prop) (c : LogView) (p : Past α) : Prop :=
  c.shown = some (k.view N p) ∨ c.shown = none ∧ Broken

/-- What is known when the log has been as in `Seen`, and during the load as in `Now`. -/
structure Account [NeZero N] (Seen Now : Past α → Prop) (Broken : Prop) (p : Past α)
    (s : LogSystem α N) : Prop where
  now : Now p
  seen : ∀ q, Now q → Seen q
  bootNonce : s.device.bootNonce = p.bootNonce
  revision : s.device.events.revision = BitVec.ofNat 32 p.changes
  holds : s.device.events.ring.Holds p.events
  few : p.events.length ≤ p.changes
  etag : ∀ t ∈ s.client.etag, ∃ q, Seen q ∧ t = q.tag k.name ∧ s.client.Of k N Broken q
  idle : s.client.loading = false → s.client.succeeded = true →
    ∃ q, Now q ∧ s.client.Of k N Broken q
  request : ∀ e, s.request = some e → ∀ t ∈ e, ∃ q, Seen q ∧ t = q.tag k.name ∧ s.client.Of k N Broken q
  notModified : s.response = some .notModified → ∃ q, Now q ∧ s.client.Of k N Broken q
  ok : ∀ t body, s.response = some (.ok t body) →
    ∃ q, Now q ∧ t = q.tag k.name ∧ body.bind parse = some (k.view N q)

variable {k} {Seen Seen' Now Now' : Past α → Prop} {Broken Broken' : Prop} {p : Past α} {s : LogSystem α N}

theorem LogView.Of.mono {c : LogView} (h : c.Of k N Broken p) (hbroken : Broken → Broken') :
    c.Of k N Broken' p := h.imp id fun h => ⟨h.1, hbroken h.2⟩

variable [NeZero N]

theorem Account.mono (h : Account k Seen Now Broken p s) (hseen : ∀ q, Seen q → Seen' q)
    (hnow : ∀ q, Now q → Now' q) (hsub : ∀ q, Now' q → Seen' q) (hbroken : Broken → Broken') :
    Account k Seen' Now' Broken' p s where
  now := hnow p h.now
  seen := hsub
  bootNonce := h.bootNonce
  revision := h.revision
  holds := h.holds
  few := h.few
  etag t ht := by
    obtain ⟨q, hq, htag, hof⟩ := h.etag t ht
    exact ⟨q, hseen q hq, htag, hof.mono hbroken⟩
  idle hidle hok := by
    obtain ⟨q, hq, hof⟩ := h.idle hidle hok
    exact ⟨q, hnow q hq, hof.mono hbroken⟩
  request e he t ht := by
    obtain ⟨q, hq, htag, hof⟩ := h.request e he t ht
    exact ⟨q, hseen q hq, htag, hof.mono hbroken⟩
  notModified hr := by
    obtain ⟨q, hq, hof⟩ := h.notModified hr
    exact ⟨q, hnow q hq, hof.mono hbroken⟩
  ok t body hr := by
    obtain ⟨q, hq, htag, hbody⟩ := h.ok t body hr
    exact ⟨q, hnow q hq, htag, hbody⟩

theorem Account.device [Inhabited α] (h : Account k Seen Now Broken p s) (op : LogOp α)
    (hp : Now (p.step (.device op)))
    (hfew : (LogMove.device op).changes = true → p.changes + 1 < 2 ^ 32) :
    Account k Seen Now Broken (p.step (.device op)) { s with device := s.device.step op } := by
  have hnext : BitVec.ofNat 32 p.changes + 1 = BitVec.ofNat 32 (p.changes + 1) := by
    rw [BitVec.ofNat_add]
    rfl
  cases op with
  | push e =>
    exact { h with
      now := hp
      bootNonce := h.bootNonce
      revision := (congrArg (· + 1) h.revision).trans hnext
      holds := h.holds.push (lt_of_le_of_lt (Nat.succ_le_succ h.few) (hfew rfl)) e
      few := Nat.succ_le_succ h.few }
  | clear =>
    exact { h with
      now := hp
      bootNonce := h.bootNonce
      revision := (congrArg (· + 1) h.revision).trans hnext
      holds := Ring.holds_clear _
      few := Nat.zero_le _ }
  | reboot bootNonce =>
    exact { h with
      now := hp
      bootNonce := rfl
      revision := rfl
      holds := Ring.holds_nil rfl
      few := le_refl _ }

/-- A load begins: only the log as it is now counts for it. -/
theorem Account.poll (h : Account k Seen Now Broken p s) (hp : Seen p) :
    Account k Seen (· = p) Broken p
      { s with client := s.client.poll, request := some s.client.etag, response := none } where
  now := rfl
  seen q hq := hq ▸ hp
  bootNonce := h.bootNonce
  revision := h.revision
  holds := h.holds
  few := h.few
  etag := h.etag
  idle hidle := by simp [LogView.poll] at hidle
  request e he t ht := h.etag t (Option.some.inj he ▸ ht)
  notModified := by simp
  ok := by simp

/-- The device's answer is of the log as it is. -/
theorem Account.serve (h : Account k Seen Now Broken p s)
    (htells : ∀ q, Seen q → q.tag k.name = p.tag k.name → q.events = p.events)
    {e : Option (List Char)} (he : s.request = some e) :
    Account k Seen Now Broken p { s with request := none, response := some (k.serve s.device e) } := by
  have htag : Diagnostics.etag k.name s.device.bootNonce s.device.events.revision = p.tag k.name := by
    rw [h.bootNonce, h.revision, Past.tag]
  have hrows : s.device.events.ring.snapshot N = p.events.take N := by
    rw [h.holds.snapshot, List.take_take, Nat.min_self]
  have hwrites : s.device.events.ring.writes = BitVec.ofNat 32 p.events.length := by
    rw [← h.holds.writes, BitVec.ofNat_toNat, BitVec.setWidth_eq]
  have hserve : k.serve s.device e = if e = some (p.tag k.name) then .notModified
      else .ok (p.tag k.name) ((JsonStream.run {} (k.body (p.events.take N)
        (BitVec.ofNat 32 p.events.length) ++ [.finish])).map fun j => j.chunks.flatten) := by
    rw [LogKind.serve, htag, hrows, hwrites]
  refine { h with
    request := by simp
    notModified := fun hr => ?_
    ok := fun t body hr => ?_ }
  · rw [Option.some.injEq, hserve] at hr
    split at hr
    · rename_i hmatch
      obtain ⟨q, hq, htagq, hof⟩ := h.request e he _ hmatch
      have hevents := htells q hq htagq.symm
      refine ⟨p, h.now, ?_⟩
      rwa [LogView.Of, LogKind.view, ← hevents]
    · exact absurd hr (by simp)
  · rw [Option.some.injEq, hserve] at hr
    split at hr
    · exact absurd hr (by simp)
    · obtain ⟨rfl, rfl⟩ := LogResponse.ok.inj hr
      exact ⟨p, h.now, rfl, k.body_read _ _⟩

theorem Account.receive (h : Account k Seen Now Broken p s) (hrequest : s.request = none)
    {r : LogResponse} (hr : s.response = some r) {whole : Bool} (hbroken : whole = false → Broken) :
    Account k Seen Now Broken p { s with client := s.client.receive r whole, response := none } := by
  cases r with
  | notModified =>
    obtain ⟨q, hq, hof⟩ := h.notModified hr
    exact { h with
      idle := fun _ _ => ⟨q, hq, hof⟩
      etag := h.etag
      request := h.request
      notModified := by simp
      ok := by simp }
  | ok t body =>
    obtain ⟨q, hq, htag, hbody⟩ := h.ok t body hr
    have hof : (s.client.receive (.ok t body) whole).Of k N Broken q := by
      cases whole with
      | true => exact Or.inl hbody
      | false => exact Or.inr ⟨rfl, hbroken rfl⟩
    exact { h with
      idle := fun _ _ => ⟨q, hq, hof⟩
      etag := fun t' ht' => ⟨q, h.seen q hq, (Option.some.inj ht').symm.trans htag, hof⟩
      request := fun e he => absurd (hrequest.symm.trans he) (by simp)
      notModified := by simp
      ok := by simp }

theorem Account.lose (h : Account k Seen Now Broken p s) :
    Account k Seen Now Broken p { s with client := s.client.fail, request := none, response := none } :=
  { h with
    etag := h.etag
    idle := by simp [LogView.fail]
    request := by simp
    notModified := by simp
    ok := by simp }

theorem Account.forget (h : Account k Seen Now Broken p s) :
    Account k Seen Now Broken p { s with client := { s.client with etag := none } } :=
  { h with
    etag := by simp
    idle := h.idle
    request := h.request
    notModified := h.notModified }

theorem Account.step [Inhabited α] (h : Account k Seen Now Broken p s) {m : LogMove α} (hp : Now (p.step m))
    (hone : OneRequest s) (hbroken : m = .receive false → Broken)
    (htells : ∀ q, Seen q → q.tag k.name = p.tag k.name → q.events = p.events)
    (hfew : m.changes = true → p.changes + 1 < 2 ^ 32) :
    Account k Seen Now Broken (p.step m) (LogSystem.step k s m) := by
  cases m with
  | device op => exact h.device op hp hfew
  | poll =>
    rw [LogSystem.step]
    split
    · exact h
    · rename_i hload
      obtain ⟨-, hresponse⟩ := hone.1 (by simpa using hload)
      have hpoll := (h.poll (h.seen p h.now)).mono (fun _ hq => hq) (fun q hq => hq ▸ h.now) h.seen id
      rwa [← hresponse] at hpoll
  | serve =>
    rw [LogSystem.step]
    split
    · exact h
    · rename_i e he
      exact h.serve htells he
  | receive whole =>
    rw [LogSystem.step]
    split
    · exact h
    · rename_i r hr
      exact h.receive (hone.2 (by simp [hr])) hr fun hwhole => hbroken (by rw [hwhole])
  | lose =>
    rw [LogSystem.step]
    split
    · exact h.lose
    · exact h
  | forget => exact h.forget

/-! ## Runs -/

/-- How the log has been. -/
def SeenBy (bootNonce : U32) (moves : List (LogMove α)) (q : Past α) : Prop :=
  ∃ a b, moves = a ++ b ∧ q = past bootNonce a

theorem past_concat (bootNonce : U32) (moves : List (LogMove α)) (m : LogMove α) :
    past bootNonce (moves ++ [m]) = (past bootNonce moves).step m := by
  rw [past, exec_append]
  rfl

theorem SeenBy.concat {bootNonce : U32} {moves : List (LogMove α)} {q : Past α}
    (h : SeenBy bootNonce moves q) (m : LogMove α) : SeenBy bootNonce (moves ++ [m]) q := by
  obtain ⟨a, b, rfl, rfl⟩ := h
  exact ⟨a, b ++ [m], (List.append_assoc a b [m]), rfl⟩

variable [Inhabited α]

section Run

variable {bootNonce : U32} {all : List (LogMove α)}
  (hboots : (bootNonce :: all.flatMap LogMove.boots).Nodup)
  (hfew : all.countP LogMove.changes < 2 ^ 32)

include hboots hfew

/-- One move of the run `all`. -/
theorem account_concat {moves rest : List (LogMove α)} {m : LogMove α} (hall : all = moves ++ m :: rest)
    (h : Account k (SeenBy bootNonce moves) Now (.receive false ∈ moves) (past bootNonce moves)
      (LogSystem.run k bootNonce moves : LogSystem α N))
    (hnow : ∀ q, Now q → Now' q) (hsub : ∀ q, Now' q → SeenBy bootNonce (moves ++ [m]) q)
    (hp : Now' (past bootNonce (moves ++ [m]))) :
    Account k (SeenBy bootNonce (moves ++ [m])) Now' (.receive false ∈ moves ++ [m])
      (past bootNonce (moves ++ [m])) (LogSystem.run k bootNonce (moves ++ [m]) : LogSystem α N) := by
  have hmono := h.mono (fun q hq => hq.concat m) hnow hsub fun hb => List.mem_append_left [m] hb
  rw [past_concat] at hp ⊢
  rw [run_concat]
  refine hmono.step hp (oneRequest_run k bootNonce moves) (fun hm => by simp [hm]) ?_ fun hm => ?_
  · rintro q ⟨a, b, hab, rfl⟩ htag
    -- the moment may be the one after the move
    obtain ⟨b', rfl⟩ | ⟨rfl, rfl⟩ : (∃ b', moves = a ++ b') ∨ b = [] ∧ a = moves ++ [m] := by
      obtain rfl | ⟨b', y, rfl⟩ := List.eq_nil_or_concat' b
      · exact .inr ⟨rfl, by simpa using hab.symm⟩
      · rw [← List.append_assoc] at hab
        exact .inl ⟨b', (List.append_inj' hab rfl).1⟩
    · exact events_eq hboots hfew (c := m :: rest) hall htag
    · exact (events_eq hboots hfew (c := rest) (by simp [hall]) htag.symm).symm
  · have hle := past_changes_le bootNonce moves
    rw [hall, List.countP_append, List.countP_cons, if_pos hm] at hfew
    omega

theorem account_run {moves rest : List (LogMove α)} (hall : all = moves ++ rest) :
    Account k (SeenBy bootNonce moves) (SeenBy bootNonce moves) (.receive false ∈ moves)
      (past bootNonce moves) (LogSystem.run k bootNonce moves : LogSystem α N) := by
  induction moves using List.reverseRecOn generalizing rest with
  | nil =>
    exact {
      now := ⟨[], [], rfl, rfl⟩
      seen := fun _ hq => hq
      bootNonce := rfl
      revision := rfl
      holds := Ring.holds_nil rfl
      few := le_refl _
      etag := by simp [LogSystem.run]
      idle := by simp [LogSystem.run]
      request := by simp [LogSystem.run]
      notModified := by simp [LogSystem.run]
      ok := by simp [LogSystem.run] }
  | append_singleton moves m ih =>
    rw [List.append_assoc] at hall
    exact account_concat hboots hfew hall (ih hall) (fun _ hq => hq.concat m) (fun _ hq => hq)
      ⟨moves ++ [m], [], (List.append_nil _).symm, rfl⟩

/-- During a load, and after it: how the log has been since the load began. -/
theorem account_load {before during rest : List (LogMove α)}
    (hidle : (LogSystem.run k bootNonce before : LogSystem α N).client.loading = false)
    (hall : all = before ++ .poll :: (during ++ rest)) :
    Account k (SeenBy bootNonce (before ++ .poll :: during))
      (fun q => ∃ a b, during = a ++ b ∧ q = past bootNonce (before ++ .poll :: a))
      (.receive false ∈ before ++ .poll :: during) (past bootNonce (before ++ .poll :: during))
      (LogSystem.run k bootNonce (before ++ .poll :: during) : LogSystem α N) := by
  induction during using List.reverseRecOn generalizing rest with
  | nil =>
    have h := account_run (k := k) (N := N) hboots hfew hall
    obtain ⟨-, hresponse⟩ := (oneRequest_run k bootNonce before).1 hidle
    have hpast : past bootNonce (before ++ [.poll]) = past bootNonce before := past_concat _ _ _
    have hrun : (LogSystem.run k bootNonce (before ++ [.poll]) : LogSystem α N) =
        { LogSystem.run k bootNonce before with
          client := (LogSystem.run k bootNonce before : LogSystem α N).client.poll
          request := some (LogSystem.run k bootNonce before : LogSystem α N).client.etag
          response := none } := by
      rw [run_concat, LogSystem.step, if_neg (by simp [hidle]), ← hresponse]
    rw [hpast, hrun]
    refine (h.poll ⟨before, [], (List.append_nil _).symm, rfl⟩).mono (fun q hq => hq.concat .poll) ?_ ?_ ?_
    · rintro q rfl
      exact ⟨[], [], rfl, hpast.symm⟩
    · rintro q ⟨a, b, hab, rfl⟩
      obtain ⟨rfl, rfl⟩ := List.append_eq_nil_iff.1 hab.symm
      exact ⟨before ++ [.poll], [], (List.append_nil _).symm, rfl⟩
    · exact fun hb => List.mem_append_left _ hb
  | append_singleton during m ih =>
    rw [List.append_assoc, List.singleton_append] at hall
    have hmoves : before ++ .poll :: (during ++ [m]) = (before ++ .poll :: during) ++ [m] := by simp
    rw [hmoves]
    refine account_concat hboots hfew (by simpa using hall) (ih hall) ?_ ?_ ?_
    · rintro q ⟨a, b, rfl, rfl⟩
      exact ⟨a, b ++ [m], by simp, rfl⟩
    · rintro q ⟨a, b, hab, rfl⟩
      exact ⟨before ++ .poll :: a, b, by rw [← hmoves, hab]; simp, rfl⟩
    · exact ⟨during ++ [m], [], by simp, by rw [hmoves]⟩

end Run

end Account

/-- **The view after a load.**  Whatever happens on the device and to the requests, and whichever of the
answers are 304: after a load that was answered, the client shows the last events since the last clear
and boot, newest first, and their number, as the log stood at one moment since the load began, or
nothing, where a body was broken off.  The boots need different nonces. -/
theorem log_view [NeZero N] [Inhabited α] {k : LogKind α} {bootNonce : U32}
    {before during : List (LogMove α)}
    (hidle : (LogSystem.run k bootNonce before : LogSystem α N).client.loading = false)
    (hboots : (bootNonce :: (before ++ .poll :: during).flatMap LogMove.boots).Nodup)
    (hfew : (before ++ .poll :: during).countP LogMove.changes < 2 ^ 32)
    (hdone : (LogSystem.run k bootNonce (before ++ .poll :: during) : LogSystem α N).client.loading = false)
    (hok :
      (LogSystem.run k bootNonce (before ++ .poll :: during) : LogSystem α N).client.succeeded = true) :
    ∃ a b, during = a ++ b ∧
      ((LogSystem.run k bootNonce (before ++ .poll :: during) : LogSystem α N).client.shown =
          some (k.view N (past bootNonce (before ++ .poll :: a))) ∨
        (LogSystem.run k bootNonce (before ++ .poll :: during) : LogSystem α N).client.shown = none ∧
          .receive false ∈ before ++ .poll :: during) := by
  have hall : before ++ .poll :: during = before ++ .poll :: (during ++ []) := by rw [List.append_nil]
  have h := account_load hboots hfew hidle hall
  obtain ⟨q, ⟨a, b, hab, rfl⟩, hof⟩ := h.idle hdone hok
  exact ⟨a, b, hab, hof⟩

/-- The second load is answered with 304. -/
theorem log_view_unchanged :
    let before : List (LogMove NetFailure) := [.device (.push default), .poll, .serve, .receive true]
    let during : List (LogMove NetFailure) := [.serve, .receive true]
    ∃ a b, during = a ++ b ∧
      ((LogSystem.run netLog 7 (before ++ .poll :: during) : LogSystem NetFailure NET_CAP).client.shown =
          some (netLog.view NET_CAP (past 7 (before ++ .poll :: a))) ∨
        (LogSystem.run netLog 7 (before ++ .poll :: during) : LogSystem NetFailure NET_CAP).client.shown =
            none ∧
          .receive false ∈ before ++ .poll :: during) :=
  log_view rfl (by simp [LogMove.boots]) (by decide) rfl rfl

/-! ## A body that was broken off -/

/-- The client has the validator of the log, but not its body. -/
structure Blank [NeZero N] (k : LogKind α) (s : LogSystem α N) : Prop where
  shown : s.client.shown = none
  current : s.client.etag = some (etag k.name s.device.bootNonce s.device.events.revision)
  request : ∀ e, s.request = some e → e = s.client.etag
  response : ∀ r, s.response = some r → r = .notModified

theorem Blank.step [NeZero N] [Inhabited α] {k : LogKind α} {s : LogSystem α N} (h : Blank k s)
    {m : LogMove α} (hchanges : m.changes = false) (hboots : m.boots = []) (hforget : m ≠ .forget) :
    Blank k (LogSystem.step k s m) := by
  cases m with
  | device op => cases op <;> simp [LogMove.changes, LogMove.boots] at hchanges hboots
  | poll =>
    rw [LogSystem.step]
    split
    · exact h
    · exact ⟨h.shown, h.current, fun e he => (Option.some.inj he).symm, h.response⟩
  | serve =>
    rw [LogSystem.step]
    split
    · exact h
    · rename_i e he
      refine ⟨h.shown, h.current, by simp, fun r hr => ?_⟩
      rw [← Option.some.inj hr, LogKind.serve, if_pos ((h.request e he).trans h.current)]
  | receive whole =>
    rw [LogSystem.step]
    split
    · exact h
    · rename_i r hr
      rw [h.response r hr]
      exact ⟨h.shown, h.current, h.request, by simp⟩
  | lose =>
    rw [LogSystem.step]
    split
    · exact ⟨h.shown, h.current, by simp, by simp⟩
    · exact h
  | forget => exact absurd rfl hforget

/-- **A broken body leaves the view blank.**  The validator of a body that was broken off is kept, so that
every later load is answered with 304: until the log changes, the device boots or the client clears
the log, no load shows it. -/
theorem view_stays_blank [NeZero N] [Inhabited α] {k : LogKind α} {bootNonce : U32}
    {before after : List (LogMove α)} {s : LogSystem α N} (hs : LogSystem.run k bootNonce before = s)
    {body : Option (List Char)}
    (hresponse : s.response = some (.ok (etag k.name s.device.bootNonce s.device.events.revision) body))
    (hquiet : ∀ m ∈ after, m.changes = false ∧ m.boots = [] ∧ m ≠ .forget) :
    let t : LogSystem α N := LogSystem.run k bootNonce (before ++ .receive false :: after)
    t.client.shown = none ∧ ∀ r, t.response = some r → r = .notModified := by
  have hrequest : s.request = none := by
    rw [← hs] at hresponse ⊢
    exact (oneRequest_run k bootNonce before).2 (by simp [hresponse])
  have hblank : Blank k (LogSystem.step k s (.receive false)) := by
    rw [LogSystem.step, hresponse]
    exact ⟨rfl, rfl, by simp [hrequest], by simp⟩
  have hrun : (LogSystem.run k bootNonce (before ++ .receive false :: after) : LogSystem α N) =
      exec (LogSystem.step k) (LogSystem.step k s (.receive false)) after := by
    rw [← hs, LogSystem.run, exec_append, exec_cons, LogSystem.run]
  rw [hrun]
  generalize LogSystem.step k s (.receive false) = t at hblank
  clear hrun hresponse hrequest
  induction after generalizing t with
  | nil => exact ⟨hblank.shown, hblank.response⟩
  | cons m after ih =>
    obtain ⟨hchanges, hboots, hforget⟩ := hquiet m List.mem_cons_self
    exact ih (fun m' hm' => hquiet m' (List.mem_cons_of_mem _ hm')) _ (hblank.step hchanges hboots hforget)

theorem view_stays_blank_again :
    let t : LogSystem NetFailure NET_CAP := LogSystem.run netLog 7
      ([.device (.push default), .poll, .serve] ++
        .receive false :: [.poll, .serve, .receive true, .poll, .serve])
    t.client.shown = none ∧ ∀ r, t.response = some r → r = .notModified := by
  refine view_stays_blank rfl rfl ?_
  simp [LogMove.changes, LogMove.boots]

end Pumpbug.Diagnostics
