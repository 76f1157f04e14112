import Pumpbug.Lib.Run
import Pumpbug.Net.HttpServer

/-!
# Route updates

However the callers, the main task and the server task interleave: there is one server task at most
that has not published its exit, no change of the registry is lost, and a handler that requires
authentication is reached through a gate only.
-/

namespace Pumpbug.Net

open Lib

variable {Method Handler Gate Request : Type}

/-! ## One server task -/

def ServerTask.gone : ServerTask Method Handler Gate → Bool
  | .absent => true
  | _ => false

/-- The server task is on its way out. -/
def ServerTask.ends : ServerTask Method Handler Gate → Bool
  | .closing => true
  | .leaving => true
  | _ => false

/-- The server task has, or has not, a server; while it gets one, either. -/
def ServerTask.serves : ServerTask Method Handler Gate → Option Bool
  | .absent => some false
  | .spawned => some false
  | .starting => some false
  | .clearing => some false
  | .copying => none
  | .binding _ _ => none
  | .failed => none
  | .retrying _ => some false
  | .started => some true
  | .looping => some true
  | .polling _ => some true
  | .handling => some true
  | .closing => some true
  | .leaving => some false

/-- What the two flags and the server task may be while the main task stands where it does. -/
def MainTask.allows (m : MainTask) (shouldRun exited gone : Bool) : Prop :=
  match m with
  | .idle => exited = gone ∧ shouldRun = !gone
  | .awaitingExit => shouldRun = false ∧ exited = true ∧ gone = true
  | .exitSeen => shouldRun = false ∧ exited = true ∧ gone = true
  | .runMarked => shouldRun = false ∧ exited = false ∧ gone = true
  | .spawning => shouldRun = true ∧ exited = false ∧ gone = true
  | .unmarking => shouldRun = true ∧ exited = false ∧ gone = true
  | .unspawned => shouldRun = false ∧ exited = false ∧ gone = true
  | .stopping => shouldRun = false ∧ exited = gone

/-- The moves of the main task and of the server task. -/
def HttpMove.ofTasks : HttpMove Method Handler Gate Request → Bool
  | .main _ => true
  | .task => true
  | .delete => true
  | .begin => true
  | .stop => true
  | .rebuildFails => true
  | _ => false

namespace HttpSystem

variable {accepts : Gate → Request → Bool} {s : HttpSystem Method Handler Gate Request}

/-- The lives of the server tasks. -/
structure Orderly (s : HttpSystem Method Handler Gate Request) : Prop where
  alive : s.alive = s.exited + if s.task.gone then 0 else 1
  flags : s.mainTask.allows s.http.shouldRun s.http.taskExited s.task.gone
  ends : s.task.ends = true → s.http.shouldRun = false
  server : ∀ b, s.task.serves = some b → s.server.isSome = b

theorem orderly_init : Orderly ({} : HttpSystem Method Handler Gate Request) where
  alive := rfl
  flags := ⟨rfl, rfl⟩
  ends := fun h => absurd h Bool.false_ne_true
  server := by simp [ServerTask.serves]

/-- A state with the same tasks and flags. -/
structure Same (s s' : HttpSystem Method Handler Gate Request) : Prop where
  mainTask : s'.mainTask = s.mainTask
  task : s'.task = s.task
  server : s'.server = s.server
  alive : s'.alive = s.alive
  exited : s'.exited = s.exited
  shouldRun : s'.http.shouldRun = s.http.shouldRun
  taskExited : s'.http.taskExited = s.http.taskExited
  rebuildBackoff : s'.rebuildBackoff = s.rebuildBackoff
  lastRebuildFailureMs : s'.lastRebuildFailureMs = s.lastRebuildFailureMs

theorem Same.refl (s : HttpSystem Method Handler Gate Request) : Same s s where
  mainTask := rfl
  task := rfl
  server := rfl
  alive := rfl
  exited := rfl
  shouldRun := rfl
  taskExited := rfl
  rebuildBackoff := rfl
  lastRebuildFailureMs := rfl

theorem Orderly.of_same {s' : HttpSystem Method Handler Gate Request} (h : s.Orderly)
    (he : Same s s') : s'.Orderly where
  alive := by
    rw [he.alive, he.exited, he.task]
    exact h.alive
  flags := by
    rw [he.mainTask, he.shouldRun, he.taskExited, he.task]
    exact h.flags
  ends := by
    rw [he.task, he.shouldRun]
    exact h.ends
  server := by
    rw [he.task, he.server]
    exact h.server

theorem absent_of_gone (h : s.task.gone = true) : s.task = .absent := by
  cases ht : s.task <;> simp_all [ServerTask.gone]

theorem not_ends_of_gone (h : s.task.gone = true) : s.task.ends = false := by
  rw [absent_of_gone h]
  rfl

theorem goOn_idle (h : s.mainTask = .idle) (created : Bool) : s.goOn created = s := by
  simp [goOn, h]

/-- The main task marks and spawns only while there is no server task. -/
theorem orderly_goOn (h : s.Orderly) (created : Bool) : (s.goOn created).Orderly := by
  have hflags := h.flags
  cases hm : s.mainTask with
  | idle =>
    rwa [goOn_idle hm created]
  | awaitingExit =>
    rw [hm] at hflags
    simp only [goOn, hm, hflags.2.1, if_true]
    exact ⟨h.alive, hflags, h.ends, h.server⟩
  | exitSeen =>
    rw [hm] at hflags
    simp only [goOn, hm]
    exact ⟨h.alive, ⟨hflags.1, rfl, hflags.2.2⟩, h.ends, h.server⟩
  | runMarked =>
    rw [hm] at hflags
    simp only [goOn, hm]
    refine ⟨h.alive, ⟨rfl, hflags.2.1, hflags.2.2⟩, fun hends => ?_, h.server⟩
    rw [not_ends_of_gone hflags.2.2] at hends
    cases hends
  | spawning =>
    rw [hm] at hflags
    have halive : s.alive = s.exited := by rw [h.alive, hflags.2.2, if_pos rfl, Nat.add_zero]
    have hserver := h.server false (by rw [absent_of_gone hflags.2.2]; rfl)
    simp only [goOn, hm]
    split_ifs
    · refine ⟨by simp [halive, ServerTask.gone], ⟨hflags.2.1, hflags.1⟩, by simp [ServerTask.ends], ?_⟩
      simpa [ServerTask.serves] using hserver
    · exact ⟨h.alive, hflags, h.ends, h.server⟩
  | unmarking =>
    rw [hm] at hflags
    simp only [goOn, hm]
    exact ⟨h.alive, ⟨rfl, hflags.2⟩, fun _ => rfl, h.server⟩
  | unspawned =>
    rw [hm] at hflags
    simp only [goOn, hm]
    refine ⟨h.alive, ⟨?_, ?_⟩, h.ends, h.server⟩
    · exact hflags.2.2.symm
    · simp [hflags.1, hflags.2.2]
  | stopping =>
    rw [hm] at hflags
    simp only [goOn, hm]
    split_ifs with hexited
    · refine ⟨h.alive, ⟨hflags.2, ?_⟩, h.ends, h.server⟩
      simp [hflags.1, ← hflags.2, hexited]
    · exact h

/-- What the server task does of the flags it does last, and it goes only when it need not run. -/
theorem advance_flags (s : HttpSystem Method Handler Gate Request) :
    s.advance.mainTask = s.mainTask ∧ s.advance.http.shouldRun = s.http.shouldRun ∧
      ((s.task.gone = true ∧ s.advance = s) ∨
        (s.task.gone = false ∧ s.advance.task.gone = true ∧ s.task = .leaving ∧
          s.advance.http.taskExited = true ∧ s.advance.alive = s.alive ∧
          s.advance.exited = s.exited + 1) ∨
        (s.task.gone = false ∧ s.advance.task.gone = false ∧
          s.advance.http.taskExited = s.http.taskExited ∧ s.advance.alive = s.alive ∧
          s.advance.exited = s.exited ∧
          (s.advance.task.ends = true → s.task.ends = true ∨ s.http.shouldRun = false))) := by
  cases ht : s.task with
  | retrying checks =>
    cases checks <;> simp only [advance, ht, ServerTask.gone] <;> split_ifs <;>
      simp_all [ServerTask.ends]
  | absent => simp [advance, ht, ServerTask.gone]
  | spawned | starting | looping | started | polling nowMs =>
    simp only [advance, ht, ServerTask.gone]
    split_ifs <;> simp_all [ServerTask.ends]
  | binding groups mw =>
    simp only [advance, ht, ServerTask.gone]
    split_ifs <;> simp [ServerTask.ends]
  | failed =>
    simp only [advance, ht, ServerTask.gone]
    split_ifs <;> simp [ServerTask.ends]
  | _ => simp [advance, ht, ServerTask.gone, ServerTask.ends]

/-- What the server task has of a server it has after its step. -/
theorem advance_server (h : ∀ b, s.task.serves = some b → s.server.isSome = b) :
    ∀ b, s.advance.task.serves = some b → s.advance.server.isSome = b := by
  cases ht : s.task with
  | retrying checks =>
    rw [ht] at h
    cases checks <;> simp only [advance, ht] <;> split_ifs <;> simp_all [ServerTask.serves]
  | spawned | starting | looping | started | polling nowMs =>
    rw [ht] at h
    simp only [advance, ht]
    split_ifs <;> simp_all [ServerTask.serves]
  | binding groups mw =>
    simp only [advance, ht]
    split_ifs <;> simp [ServerTask.serves]
  | failed =>
    simp only [advance, ht]
    split_ifs with hs <;> simp_all [ServerTask.serves]
  | _ =>
    rw [ht] at h
    simp_all [advance, ServerTask.serves]

theorem orderly_advance (h : s.Orderly) : s.advance.Orderly := by
  obtain ⟨hmain, hrun, ⟨-, hsame⟩ | ⟨hstay, hgone, htask, hexited, halive, hcount⟩ |
    ⟨hstay, hstill, hexited, halive, hcount, hends⟩⟩ := advance_flags s
  · rw [hsame]
    exact h
  · have hflags := h.flags
    have hstop : s.http.shouldRun = false := h.ends (by rw [htask]; rfl)
    refine ⟨?_, ?_, fun hends => ?_, advance_server h.server⟩
    · rw [halive, hcount, hgone, h.alive, hstay]
      rfl
    · rw [hmain, hrun, hgone, hexited, hstop]
      rw [hstay, hstop] at hflags
      cases hm : s.mainTask <;> simp_all [MainTask.allows]
    · rw [not_ends_of_gone hgone] at hends
      cases hends
  · refine ⟨?_, ?_, fun hnext => ?_, advance_server h.server⟩
    · rw [halive, hcount, hstill, h.alive, hstay]
    · rw [hmain, hrun, hexited, hstill, ← hstay]
      exact h.flags
    · rw [hrun]
      exact (hends hnext).elim h.ends id

theorem orderly_begin (h : s.Orderly) : (s.step accepts .begin).Orderly := by
  simp only [step]
  split_ifs with hno
  · exact h
  · push Not at hno
    have hflags := h.flags
    rw [hno.1] at hflags
    have hgone : s.task.gone = true := by
      have hrun := Bool.eq_false_iff.2 hno.2
      rw [hflags.2] at hrun
      simpa using hrun
    refine ⟨h.alive, ⟨Bool.eq_false_iff.2 hno.2, ?_, hgone⟩, h.ends, h.server⟩
    exact hflags.1.trans hgone

theorem orderly_stop (h : s.Orderly) : (s.step accepts .stop).Orderly := by
  simp only [step]
  split_ifs with hno
  · exact h
  · push Not at hno
    have hflags := h.flags
    rw [hno.1] at hflags
    exact ⟨h.alive, ⟨rfl, hflags.1⟩, fun _ => rfl, h.server⟩

/-- A rebuild that fails goes back to where the server task serves, or retries. -/
theorem rebuildFails_cases (accepts : Gate → Request → Bool) (s : HttpSystem Method Handler Gate Request) :
    s.step accepts .rebuildFails = s ∨
      (s.step accepts .rebuildFails = { s with task := .failed } ∧
        (s.task = .copying ∨ ∃ groups mw, s.task = .binding groups mw)) := by
  simp only [step]
  cases ht : s.task with
  | copying => exact Or.inr ⟨rfl, Or.inl rfl⟩
  | binding groups mw => exact Or.inr ⟨rfl, Or.inr ⟨groups, mw, rfl⟩⟩
  | _ => exact Or.inl rfl

theorem orderly_rebuildFails (h : s.Orderly) : (s.step accepts .rebuildFails).Orderly := by
  obtain heq | ⟨heq, htask⟩ := rebuildFails_cases accepts s
  · rw [heq]
    exact h
  · have hstay : s.task.gone = false := by
      obtain htask | ⟨groups, mw, htask⟩ := htask <;> rw [htask] <;> rfl
    have halive := h.alive
    have hflags := h.flags
    rw [hstay] at halive hflags
    rw [heq]
    exact ⟨halive, hflags, by simp [ServerTask.ends], by simp [ServerTask.serves]⟩

theorem orderly_delete (h : s.Orderly) : (s.step accepts .delete).Orderly := by
  simp only [step]
  split_ifs with hnone
  · exact h
  · have halive := h.alive
    refine ⟨?_, h.flags, h.ends, h.server⟩
    show s.alive - 1 = s.exited - 1 + if s.task.gone then 0 else 1
    omega

/-- A request adds at most one entry to what was handled. -/
theorem request_cases (accepts : Gate → Request → Bool)
    (s : HttpSystem Method Handler Gate Request) (choice : ℕ) (req : Request) :
    s.step accepts (.request choice req) = s ∨
      ∃ bindings bound handler, s.server = some bindings ∧ bound ∈ bindings ∧
        bound.reply.admits accepts req = some handler ∧
        s.step accepts (.request choice req) =
          { s with handled := s.handled ++ [(bound, handler, req)] } := by
  simp only [step]
  split
  · split
    · next bound hbound =>
      split
      · next handler hadmits =>
        right
        cases hs : s.server with
        | none => simp [hs] at hbound
        | some bindings =>
          refine ⟨bindings, bound, handler, rfl, ?_, hadmits, rfl⟩
          rw [hs] at hbound
          exact List.mem_of_getElem? hbound
      · exact Or.inl rfl
    · exact Or.inl rfl
  · exact Or.inl rfl

/-- The callers, the clients and the clock leave the two tasks where they are. -/
theorem same_step (m : HttpMove Method Handler Gate Request) (hm : m.ofTasks = false) :
    Same s (s.step accepts m) := by
  cases m with
  | main created => cases hm
  | task => cases hm
  | delete => cases hm
  | begin => cases hm
  | stop => cases hm
  | rebuildFails => cases hm
  | wait ms => constructor <;> rfl
  | setAuthMiddleware mw => constructor <;> rfl
  | request choice req =>
    obtain heq | ⟨_, _, _, _, _, _, heq⟩ := request_cases accepts s choice req
    · rw [heq]
      exact Same.refl s
    · rw [heq]
      constructor <;> rfl
  | registerRoutes name routes =>
    simp only [step]
    split_ifs
    · exact Same.refl s
    · constructor <;> rfl
  | unregisterRoutes name =>
    simp only [step]
    split_ifs
    · exact Same.refl s
    · constructor <;> rfl
  | mark =>
    simp only [step]
    split_ifs
    · exact Same.refl s
    · constructor <;> rfl

/-- **Step lemma.** -/
theorem orderly_step (h : s.Orderly) (m : HttpMove Method Handler Gate Request) :
    (s.step accepts m).Orderly := by
  cases hm : m.ofTasks with
  | false => exact h.of_same (same_step m hm)
  | true =>
    cases m with
    | main created => exact orderly_goOn h created
    | task => exact orderly_advance h
    | delete => exact orderly_delete h
    | begin => exact orderly_begin h
    | stop => exact orderly_stop h
    | rebuildFails => exact orderly_rebuildFails h
    | _ => cases hm

theorem orderly_exec (moves : List (HttpMove Method Handler Gate Request)) :
    (exec (step accepts) {} moves).Orderly :=
  exec_invariant Orderly (fun _ m _ h => orderly_step h m) orderly_init

/-- **The server task's life.**  In every run there is one server task at most that has not published
its exit; between `begin` and `stop` there is one exactly while the server is to run; and once it has
stopped, nothing is served. -/
theorem one_server_task (moves : List (HttpMove Method Handler Gate Request)) :
    let s := exec (step accepts) {} moves
    s.exited ≤ s.alive ∧ s.alive ≤ s.exited + 1 ∧
      (s.mainTask = .idle → (s.http.shouldRun = true ↔ s.alive = s.exited + 1)) ∧
      (s.mainTask = .idle → s.http.shouldRun = false → s.server = none) := by
  intro s
  have h : s.Orderly := orderly_exec moves
  have halive := h.alive
  refine ⟨by omega, ?_, fun hidle => ?_, fun hidle hstop => ?_⟩
  · split_ifs at halive <;> omega
  · have hflags := h.flags
    rw [hidle] at hflags
    rw [hflags.2, halive]
    cases s.task.gone <;> simp
  · have hflags := h.flags
    rw [hidle] at hflags
    rw [hflags.2, Bool.not_eq_false'] at hstop
    have hserver := h.server false (by rw [absent_of_gone hstop]; rfl)
    rwa [Option.isSome_eq_false_iff, Option.isNone_iff_eq_none] at hserver

/-! ## No change is lost -/

/-- What was made from a copy of the registry is what the registry gives now, or the change is marked
or about to be. -/
def Fresh {α : Type} (s : HttpSystem Method Handler Gate Request)
    (make : RouteGroups Method Handler → Option Gate → α) (made : α) : Prop :=
  made = make s.http.routeGroups s.http.authMiddleware ∨ s.http.routesDirty = true ∨ 0 < s.marking

structure UpToDate (s : HttpSystem Method Handler Gate Request) : Prop where
  copied : ∀ groups mw, s.task = .binding groups mw → s.Fresh Prod.mk (groups, mw)
  served : ∀ bindings, s.server = some bindings → s.rebuilding = false → s.Fresh bindRoutes bindings

theorem upToDate_init : UpToDate ({} : HttpSystem Method Handler Gate Request) where
  copied := fun _ _ h => by cases h
  served := fun _ h => by cases h

theorem Fresh.bindRoutes {groups : RouteGroups Method Handler} {mw : Option Gate}
    (h : s.Fresh Prod.mk (groups, mw)) : s.Fresh bindRoutes (bindRoutes groups mw) := by
  obtain hcopy | hmarked := h
  · rw [Prod.mk.injEq] at hcopy
    rw [hcopy.1, hcopy.2]
    exact Or.inl rfl
  · exact Or.inr hmarked

/-- A step with the same registry, of which no mark is lost. -/
theorem Fresh.of_http {α : Type} {make : RouteGroups Method Handler → Option Gate → α} {made : α}
    {s' : HttpSystem Method Handler Gate Request} (h : s.Fresh make made)
    (hgroups : s'.http.routeGroups = s.http.routeGroups)
    (hmw : s'.http.authMiddleware = s.http.authMiddleware)
    (hdirty : s'.http.routesDirty = s.http.routesDirty) (hmarking : s'.marking = s.marking) :
    s'.Fresh make made := by
  unfold Fresh
  rw [hgroups, hmw, hdirty, hmarking]
  exact h

theorem goOn_registry (s : HttpSystem Method Handler Gate Request) (created : Bool) :
    (s.goOn created).http.routeGroups = s.http.routeGroups ∧
      (s.goOn created).http.authMiddleware = s.http.authMiddleware ∧
      (s.goOn created).http.routesDirty = s.http.routesDirty ∧
      (s.goOn created).marking = s.marking ∧ (s.goOn created).server = s.server ∧
      ((s.goOn created).task = s.task ∨ (s.goOn created).task = .spawned) := by
  unfold goOn
  split <;> try split_ifs
  all_goals simp

/-- A caller that changes the registry has yet to mark it. -/
theorem fresh_step {α : Type} {make : RouteGroups Method Handler → Option Gate → α} {made : α}
    (h : s.Fresh make made) (m : HttpMove Method Handler Gate Request) (hm : m.ofTasks = false) :
    (s.step accepts m).Fresh make made := by
  cases m with
  | wait ms => exact h.of_http rfl rfl rfl rfl
  | setAuthMiddleware mw => exact Or.inr (Or.inr (Nat.succ_pos s.marking))
  | request choice req =>
    obtain heq | ⟨_, _, _, _, _, _, heq⟩ := request_cases accepts s choice req
    · rw [heq]
      exact h
    · rw [heq]
      exact h.of_http rfl rfl rfl rfl
  | registerRoutes name routes =>
    simp only [step]
    split_ifs
    · exact h
    · exact Or.inr (Or.inr (Nat.succ_pos s.marking))
  | unregisterRoutes name =>
    simp only [step]
    split_ifs
    · exact h
    · exact Or.inr (Or.inr (Nat.succ_pos s.marking))
  | mark =>
    simp only [step]
    split_ifs
    · exact h
    · exact Or.inr (Or.inl rfl)
  | _ => cases hm

theorem rebuilding_eq {s' : HttpSystem Method Handler Gate Request} (h : s'.task = s.task) :
    s'.rebuilding = s.rebuilding := by
  unfold rebuilding
  rw [h]

/-- The server task leaves the registry alone. -/
theorem advance_registry (s : HttpSystem Method Handler Gate Request) :
    s.advance.http.routeGroups = s.http.routeGroups ∧
      s.advance.http.authMiddleware = s.http.authMiddleware ∧ s.advance.marking = s.marking := by
  cases ht : s.task with
  | retrying checks => cases checks <;> simp [advance, ht]
  | started | polling nowMs =>
    simp only [advance, ht]
    split_ifs <;> simp
  | _ => simp [advance, ht]

/-- Outside a rebuild it leaves the mark alone too. -/
theorem advance_outside (h : s.rebuilding = false) (hpoll : ∀ nowMs, s.task ≠ .polling nowMs) :
    s.advance.http.routesDirty = s.http.routesDirty ∧
      (s.advance.server = s.server ∨ s.advance.server = none) ∧
      ∀ groups mw, s.advance.task ≠ .binding groups mw := by
  cases ht : s.task with
  | polling nowMs => exact absurd ht (hpoll nowMs)
  | clearing => simp [rebuilding, ht] at h
  | copying => simp [rebuilding, ht] at h
  | binding groups mw => simp [rebuilding, ht] at h
  | failed => simp [rebuilding, ht] at h
  | retrying checks => cases checks <;> simp only [advance, ht] <;> split_ifs <;> simp
  | spawned | starting | looping | started =>
    simp only [advance, ht]
    split_ifs <;> simp
  | _ => simp [advance, ht]

/-- The server task clears the mark before it copies the registry, and marks again where it fails. -/
theorem upToDate_advance (h : s.UpToDate) : s.advance.UpToDate := by
  cases ht : s.task with
  | copying =>
    simp only [advance, ht]
    refine ⟨fun groups mw hcopy => ?_, fun _ _ hidle => by cases hidle⟩
    rw [ServerTask.binding.injEq] at hcopy
    rw [← hcopy.1, ← hcopy.2]
    exact Or.inl rfl
  | binding groups mw =>
    have hmade := (h.copied groups mw ht).bindRoutes
    simp only [advance, ht]
    refine ⟨fun _ _ hcopy => ?_, fun bindings hserver _ => ?_⟩
    · dsimp only at hcopy
      split_ifs at hcopy
    · rw [Option.some.injEq] at hserver
      rw [← hserver]
      exact hmade.of_http rfl rfl rfl rfl
  | failed =>
    simp only [advance, ht]
    exact ⟨fun _ _ _ => Or.inr (Or.inl rfl), fun _ _ _ => Or.inr (Or.inl rfl)⟩
  | clearing =>
    simp only [advance, ht]
    exact ⟨fun _ _ hcopy => (by cases hcopy), fun _ _ hidle => (by cases hidle)⟩
  | polling nowMs =>
    simp only [advance, ht]
    split_ifs
    · exact ⟨fun _ _ hcopy => (by cases hcopy), fun _ _ hidle => (by cases hidle)⟩
    · refine ⟨fun _ _ hcopy => (by cases hcopy), fun bindings hserver _ => ?_⟩
      exact (h.served bindings hserver (by simp [rebuilding, ht])).of_http rfl rfl rfl rfl
  | _ =>
    have hstill : s.rebuilding = false := by simp [rebuilding, ht]
    obtain ⟨hgroups, hmw, hmarking⟩ := advance_registry s
    obtain ⟨hdirty, hserver, hcopy⟩ := advance_outside hstill (by simp [ht])
    refine ⟨fun groups mw hbind => absurd hbind (hcopy groups mw), fun bindings hb _ => ?_⟩
    rcases hserver with hserver | hserver
    · exact (h.served bindings (hserver ▸ hb) hstill).of_http hgroups hmw hdirty hmarking
    · rw [hserver] at hb
      cases hb

theorem upToDate_step (ho : s.Orderly) (h : s.UpToDate)
    (m : HttpMove Method Handler Gate Request) : (s.step accepts m).UpToDate := by
  cases hm : m.ofTasks with
  | false =>
    have hsame : Same s (s.step accepts m) := same_step m hm
    refine ⟨fun groups mw hcopy => ?_, fun bindings hserver hidle => ?_⟩
    · rw [hsame.task] at hcopy
      exact fresh_step (h.copied groups mw hcopy) m hm
    · rw [hsame.server] at hserver
      rw [rebuilding_eq hsame.task] at hidle
      exact fresh_step (h.served bindings hserver hidle) m hm
  | true =>
    cases m with
    | main created =>
      obtain ⟨hgroups, hmw, hdirty, hmarking, hserver, htask⟩ := goOn_registry s created
      change (s.goOn created).UpToDate
      refine ⟨fun groups mw hcopy => ?_, fun bindings hb hidle => ?_⟩
      · rcases htask with htask | htask
        · exact (h.copied groups mw (htask.symm.trans hcopy)).of_http hgroups hmw hdirty hmarking
        · exact absurd (htask.symm.trans hcopy) (by simp)
      · rcases htask with htask | htask
        · rw [hserver] at hb
          rw [rebuilding_eq htask] at hidle
          exact (h.served bindings hb hidle).of_http hgroups hmw hdirty hmarking
        · have hnone := (orderly_goOn ho created).server false (by rw [htask]; rfl)
          rw [Option.isSome_eq_false_iff, Option.isNone_iff_eq_none] at hnone
          exact absurd (hnone.symm.trans hb) (by simp)
    | task => exact upToDate_advance h
    | delete =>
      simp only [step]
      split_ifs
      · exact h
      · exact ⟨fun groups mw hcopy => (h.copied groups mw hcopy).of_http rfl rfl rfl rfl,
          fun bindings hb hidle => (h.served bindings hb hidle).of_http rfl rfl rfl rfl⟩
    | begin =>
      simp only [step]
      split_ifs
      · exact h
      · exact ⟨fun groups mw hcopy => (h.copied groups mw hcopy).of_http rfl rfl rfl rfl,
          fun bindings hb hidle => (h.served bindings hb hidle).of_http rfl rfl rfl rfl⟩
    | stop =>
      simp only [step]
      split_ifs
      · exact h
      · exact ⟨fun groups mw hcopy => (h.copied groups mw hcopy).of_http rfl rfl rfl rfl,
          fun bindings hb hidle => (h.served bindings hb hidle).of_http rfl rfl rfl rfl⟩
    | rebuildFails =>
      obtain heq | ⟨heq, -⟩ := rebuildFails_cases accepts s
      · rw [heq]
        exact h
      · rw [heq]
        exact ⟨fun _ _ hcopy => (by cases hcopy), fun _ _ hidle => (by cases hidle)⟩
    | _ => cases hm

theorem upToDate_exec (moves : List (HttpMove Method Handler Gate Request)) :
    (exec (step accepts) {} moves).UpToDate :=
  (exec_invariant (fun s => Orderly s ∧ UpToDate s)
    (fun _ m _ h => ⟨orderly_step h.1 m, upToDate_step h.1 h.2 m⟩)
    ⟨orderly_init, upToDate_init⟩).2

/-- A state that some run comes to. -/
def Reached (accepts : Gate → Request → Bool) (s : HttpSystem Method Handler Gate Request) : Prop :=
  ∃ moves, exec (step accepts) {} moves = s

theorem Reached.exec (h : s.Reached accepts) (moves : List (HttpMove Method Handler Gate Request)) :
    (exec (step accepts) s moves).Reached accepts := by
  obtain ⟨before, rfl⟩ := h
  exact ⟨before ++ moves, exec_append before moves⟩

/-- **No lost route change.**  In every state that a run comes to, whatever was registered and
unregistered meanwhile: where the server task serves, and no change is marked or about to be, what it
serves are the routes of the registry, behind the gate that is installed. -/
theorem no_lost_route_change {bindings : List (Binding Method Handler Gate)} (h : s.Reached accepts)
    (hserver : s.server = some bindings) (hidle : s.rebuilding = false)
    (hclean : s.http.routesDirty = false) (hmarked : s.marking = 0) :
    bindings = bindRoutes s.http.routeGroups s.http.authMiddleware := by
  obtain ⟨moves, rfl⟩ := h
  obtain hfresh | hdirty | hmarking := (upToDate_exec moves).served bindings hserver hidle
  · exact hfresh
  · exact absurd (hclean.symm.trans hdirty) Bool.false_ne_true
  · exact absurd hmarked hmarking.ne'

/-- The server is begun; its task starts, while a route is registered, and marked too late for the
first rebuild. -/
def firstRoutes : List (HttpMove Unit ℕ Unit Bool) :=
  [.setAuthMiddleware (some ()), .mark, .begin, .main true, .main true, .main true, .main true,
    .task, .task, .task, .task, .registerRoutes "/api" [⟨"log", (), 7, true⟩], .mark, .task, .task]

/-- The server serves no route yet, and the registry is marked. -/
def afterFirstRoutes : HttpSystem Unit ℕ Unit Bool where
  http := { routeGroups := [("/api", [⟨"log", (), 7, true⟩])], authMiddleware := some ()
            shouldRun := true, taskExited := false, routesDirty := true }
  task := .looping
  server := some []
  alive := 1

theorem exec_firstRoutes : exec (step fun _ req => req) {} firstRoutes = afterFirstRoutes := by
  simp [firstRoutes, afterFirstRoutes, step, goOn, advance, RouteGroups.add, bindRoutes]

theorem reached_firstRoutes : afterFirstRoutes.Reached fun _ req => req :=
  ⟨firstRoutes, exec_firstRoutes⟩

theorem no_lost_route_change_firstRoutes :
    let s := exec (step fun _ req => req) afterFirstRoutes [.task, .task, .task, .task]
    bindRoutes [("/api", [⟨"log", (), 7, true⟩])] (some ()) =
      bindRoutes s.http.routeGroups s.http.authMiddleware :=
  no_lost_route_change (reached_firstRoutes.exec [.task, .task, .task, .task]) rfl rfl rfl rfl

end HttpSystem

end Pumpbug.Net
