import Pumpbug.Lib.Clock
import Pumpbug.Net.RouteUpdates

/-!
# Routes served

Once the callers let the registry be, its routes come to be served within a few steps of the server
task; and whatever was served in a run, a handler that requires authentication was reached through a
gate only.
-/

namespace Pumpbug.Net

open Lib

variable {Method Handler Gate Request : Type}

/-! ## Every change is served -/

/-- A move in which the registry and the server's run are let be, and a rebuild does not fail. -/
def HttpMove.calm : HttpMove Method Handler Gate Request → Bool
  | .registerRoutes _ _ => false
  | .unregisterRoutes _ => false
  | .setAuthMiddleware _ => false
  | .stop => false
  | .rebuildFails => false
  | _ => true

def HttpMove.ofServer : HttpMove Method Handler Gate Request → Bool
  | .task => true
  | _ => false

def HttpMove.ms : HttpMove Method Handler Gate Request → ℕ
  | .wait ms => ms
  | _ => 0

/-- Enough steps of the server task for what is marked to be served. -/
def ServerTask.stepsAhead : ServerTask Method Handler Gate → ℕ
  | .retrying checks => checks + 5
  | _ => 7

namespace HttpSystem

variable (accepts : Gate → Request → Bool) {s : HttpSystem Method Handler Gate Request}

/-- The steps of the server task before what is marked is served. -/
def ahead (s : HttpSystem Method Handler Gate Request) : ℕ :=
  match s.task with
  | .spawned => 5
  | .starting => 4
  | .clearing => 3
  | .copying => if s.http.routesDirty then 7 else 2
  | .binding _ _ => if s.http.routesDirty then 6 else 1
  | .retrying checks => checks + 5
  | .started => if s.http.routesDirty then 5 else 0
  | .looping => if s.http.routesDirty then 4 else 0
  | .polling nowMs =>
    if s.http.routesDirty then if s.rebuildDue nowMs then 3 else 6 else 0
  | .handling => if s.http.routesDirty then 5 else 0
  | _ => 0

theorem ahead_le (s : HttpSystem Method Handler Gate Request) : s.ahead ≤ s.task.stepsAhead := by
  unfold ahead
  cases ht : s.task <;> simp only [ServerTask.stepsAhead] <;> try split_ifs
  all_goals omega

/-- The retry time of a failed rebuild is over, and stays so for `ms` longer. -/
def RetryOver (s : HttpSystem Method Handler Gate Request) (ms : ℕ) : Prop :=
  s.rebuildBackoff = true →
    kRebuildRetryMs.toNat ≤ Clock.since s.lastRebuildFailureMs s.millis ∧
      Clock.since s.lastRebuildFailureMs s.millis + ms < 2 ^ 32

/-- The server is to run, its task has not failed, and every change is marked. -/
structure Calm (s : HttpSystem Method Handler Gate Request) : Prop where
  orderly : s.Orderly
  upToDate : s.UpToDate
  idle : s.mainTask = .idle
  runs : s.http.shouldRun = true
  works : s.task ≠ .failed
  marked : s.marking = 0

theorem Calm.stays (h : s.Calm) : s.task ≠ .absent ∧ s.task.ends = false := by
  have hflags := h.orderly.flags
  rw [h.idle] at hflags
  refine ⟨fun habsent => ?_, Bool.eq_false_iff.2 fun hends => ?_⟩
  · have hstop := hflags.2
    rw [habsent, h.runs] at hstop
    cases hstop
  · exact absurd (h.runs.symm.trans (h.orderly.ends hends)) (by simp)

/-- Of the calm moves of others, only the clock's, the clients' and those of tasks that are gone do
anything. -/
theorem calm_other (h : s.Calm) {m : HttpMove Method Handler Gate Request} (hm : m.calm = true)
    (hother : m.ofServer = false) :
    ∃ alive exited handled, s.step accepts m =
      { s with nowMs := s.nowMs + m.ms, alive := alive, exited := exited, handled := handled } := by
  cases m with
  | wait ms => exact ⟨s.alive, s.exited, s.handled, rfl⟩
  | mark => exact ⟨s.alive, s.exited, s.handled, if_pos h.marked⟩
  | begin => exact ⟨s.alive, s.exited, s.handled, if_pos (Or.inr h.runs)⟩
  | main created => exact ⟨s.alive, s.exited, s.handled, goOn_idle h.idle created⟩
  | delete =>
    simp only [step]
    split_ifs
    · exact ⟨s.alive, s.exited, s.handled, rfl⟩
    · exact ⟨_, _, s.handled, rfl⟩
  | request choice req =>
    obtain heq | ⟨_, _, handler, _, _, _, heq⟩ := request_cases accepts s choice req
    · exact ⟨s.alive, s.exited, s.handled, heq⟩
    · exact ⟨s.alive, s.exited, _, heq⟩
  | task => cases hother
  | _ => cases hm

theorem rebuildDue_of_over {ms : ℕ} (h : s.RetryOver ms) (hdirty : s.http.routesDirty = true) :
    s.rebuildDue s.millis = true := by
  simp only [rebuildDue, hdirty, Bool.true_and, Bool.or_eq_true, Bool.not_eq_true', decide_eq_true_eq]
  cases hback : s.rebuildBackoff with
  | false => exact Or.inl rfl
  | true => exact Or.inr (BitVec.le_def.2 (h hback).1)

/-- A step of the server task that does not fail puts no rebuild off. -/
theorem retryOver_advance {ms : ℕ} (h : s.RetryOver ms) (hworks : s.task ≠ .failed) :
    s.advance.RetryOver ms := by
  have hkeep : s.advance.rebuildBackoff = false ∨ s.advance.rebuildBackoff = s.rebuildBackoff ∧
      s.advance.lastRebuildFailureMs = s.lastRebuildFailureMs ∧ s.advance.nowMs = s.nowMs := by
    cases ht : s.task with
    | failed => exact absurd ht hworks
    | retrying checks => cases checks <;> simp [advance, ht]
    | started | polling =>
      simp only [advance, ht]
      split_ifs <;> simp
    | _ => simp [advance, ht]
  obtain hoff | ⟨hback, hlast, hnow⟩ := hkeep
  · exact fun hon => absurd (hoff.symm.trans hon) Bool.false_ne_true
  · unfold RetryOver millis
    rw [hback, hlast, hnow]
    exact h

/-- The server task comes a step nearer. -/
theorem ahead_advance {ms : ℕ} (h : s.Calm) (hover : s.RetryOver ms) :
    s.advance.task ≠ .failed ∧ s.advance.ahead ≤ s.ahead - 1 := by
  obtain ⟨hthere, hends⟩ := h.stays
  cases ht : s.task with
  | absent => exact absurd ht hthere
  | failed => exact absurd ht h.works
  | closing => simp [ht, ServerTask.ends] at hends
  | leaving => simp [ht, ServerTask.ends] at hends
  | retrying checks => cases checks <;> simp [advance, ahead, ht, h.runs]
  | looping =>
    have hsame : ∀ nowMs, rebuildDue { s with task := .polling s.millis } nowMs = s.rebuildDue nowMs :=
      fun _ => rfl
    simp only [advance, ahead, ht, h.runs, if_true, hsame]
    refine ⟨by simp, ?_⟩
    split_ifs with hdirty hdue
    · exact le_rfl
    · exact absurd (rebuildDue_of_over hover hdirty) hdue
    · exact le_rfl
  | polling nowMs =>
    simp only [advance, ahead, ht]
    split_ifs with hdue hdirty <;> simp_all [rebuildDue]
  | binding groups mw =>
    simp only [advance, ahead, ht]
    split_ifs <;> simp
  | copying | started | handling =>
    cases hdirty : s.http.routesDirty <;> simp [advance, ahead, ht, h.runs, hdirty]
  | _ => simp [advance, ahead, ht, h.runs]

theorem calm_step (h : s.Calm) {m : HttpMove Method Handler Gate Request} (hm : m.calm = true)
    {rest : ℕ} (hover : s.RetryOver (m.ms + rest)) :
    (s.step accepts m).Calm ∧ (s.step accepts m).RetryOver rest ∧
      (s.step accepts m).ahead ≤ s.ahead - (if m.ofServer then 1 else 0) ∧
      (s.step accepts m).http.routeGroups = s.http.routeGroups ∧
      (s.step accepts m).http.authMiddleware = s.http.authMiddleware := by
  cases hother : m.ofServer with
  | true =>
    cases m with
    | task =>
      obtain ⟨hmain, hrun, -⟩ := advance_flags s
      obtain ⟨hgroups, hmw, hmarking⟩ := advance_registry s
      obtain ⟨hworks, hahead⟩ := ahead_advance h hover
      refine ⟨?_, ?_, hahead, hgroups, hmw⟩
      · exact ⟨orderly_advance h.orderly, upToDate_advance h.upToDate, hmain.trans h.idle,
          hrun.trans h.runs, hworks, hmarking.trans h.marked⟩
      · exact retryOver_advance (by simpa [HttpMove.ms] using hover) h.works
    | _ => cases hother
  | false =>
    have hupToDate : (s.step accepts m).UpToDate := upToDate_step h.orderly h.upToDate m
    have horderly : (s.step accepts m).Orderly := orderly_step h.orderly m
    obtain ⟨alive, exited, handled, heq⟩ := calm_other accepts h hm hother
    rw [heq] at hupToDate horderly ⊢
    refine ⟨⟨horderly, hupToDate, h.idle, h.runs, h.works, h.marked⟩, fun hback => ?_, le_rfl, rfl, rfl⟩
    obtain ⟨hlong, hshort⟩ := hover hback
    have hwaited : Clock.since s.millis (Clock.reading 32 (s.nowMs + m.ms)) = m.ms := by
      have hms := Clock.since_reading (w := 32) (Nat.le_add_right s.nowMs m.ms) (by omega)
      rwa [Nat.add_sub_cancel_left] at hms
    have hsum := Clock.since_add (b := s.lastRebuildFailureMs) (s := s.millis)
      (t := Clock.reading 32 (s.nowMs + m.ms)) (by omega)
    refine ⟨?_, ?_⟩
    · exact hlong.trans (hsum.symm ▸ Nat.le_add_right _ _)
    · show Clock.since s.lastRebuildFailureMs (Clock.reading 32 (s.nowMs + m.ms)) + rest < 2 ^ 32
      omega

/-- In a calm run the server task comes nearer with every step of its own. -/
theorem calm_exec (moves : List (HttpMove Method Handler Gate Request))
    (hmoves : ∀ m ∈ moves, m.calm = true) {s : HttpSystem Method Handler Gate Request} (h : s.Calm)
    (hover : s.RetryOver (moves.map HttpMove.ms).sum) :
    (exec (step accepts) s moves).Calm ∧
      (exec (step accepts) s moves).ahead ≤ s.ahead - moves.countP HttpMove.ofServer ∧
      (exec (step accepts) s moves).http.routeGroups = s.http.routeGroups ∧
      (exec (step accepts) s moves).http.authMiddleware = s.http.authMiddleware := by
  induction moves generalizing s with
  | nil => exact ⟨h, le_rfl, rfl, rfl⟩
  | cons m moves ih =>
    obtain ⟨hcalm, hover', hahead, hgroups, hmw⟩ :=
      calm_step accepts h (hmoves m List.mem_cons_self) hover
    obtain ⟨hlast, hnear, hgroups', hmw'⟩ :=
      ih (fun m' hm' => hmoves m' (List.mem_cons_of_mem m hm')) hcalm hover'
    refine ⟨hlast, ?_, hgroups'.trans hgroups, hmw'.trans hmw⟩
    rw [exec_cons, List.countP_cons]
    omega

/-- Where nothing is ahead of the server task, it serves the registry's routes. -/
theorem served_of_ahead (h : s.Calm) (hnone : s.ahead = 0) :
    s.server = some (bindRoutes s.http.routeGroups s.http.authMiddleware) := by
  obtain ⟨hthere, hends⟩ := h.stays
  have hserves : s.http.routesDirty = false ∧ s.rebuilding = false ∧ s.task.serves = some true := by
    cases ht : s.task with
    | absent => exact absurd ht hthere
    | failed => exact absurd ht h.works
    | closing => simp [ht, ServerTask.ends] at hends
    | leaving => simp [ht, ServerTask.ends] at hends
    | started | looping | handling => simpa [ahead, ht, rebuilding, ServerTask.serves] using hnone
    | polling nowMs =>
      simp only [ahead, ht] at hnone
      split_ifs at hnone with hdirty
      simpa [rebuilding, ht, ServerTask.serves] using hdirty
    | copying | binding =>
      simp only [ahead, ht] at hnone
      split_ifs at hnone
    | _ => simp [ahead, ht] at hnone
  obtain ⟨hclean, hidle, hthen⟩ := hserves
  have hserver := h.orderly.server true hthen
  obtain ⟨bindings, hbindings⟩ := Option.isSome_iff_exists.1 hserver
  obtain hfresh | hdirty | hmarking := h.upToDate.served bindings hbindings hidle
  · rw [hbindings, hfresh]
  · exact absurd (hclean.symm.trans hdirty) Bool.false_ne_true
  · exact absurd h.marked hmarking.ne'

/-- **Every route change is served.**  From whatever state a run has come to in which the server is to
run, its task has not just failed and every change is marked: once the callers let the registry be and
no rebuild fails, seven steps of the server task later (after a failure to start, what is left of the
retry time besides) it serves the registry's routes, behind the gate that is installed. -/
theorem route_changes_served (h : s.Reached accepts) (hidle : s.mainTask = .idle)
    (hrun : s.http.shouldRun = true) (hworks : s.task ≠ .failed) (hmarked : s.marking = 0)
    {more : List (HttpMove Method Handler Gate Request)} (hcalm : ∀ m ∈ more, m.calm = true)
    (hover : s.RetryOver (more.map HttpMove.ms).sum)
    (hsteps : s.task.stepsAhead ≤ more.countP HttpMove.ofServer) :
    (exec (step accepts) s more).server =
      some (bindRoutes s.http.routeGroups s.http.authMiddleware) := by
  obtain ⟨moves, rfl⟩ := h
  obtain ⟨hlast, hahead, hgroups, hmw⟩ := calm_exec accepts more hcalm
    ⟨orderly_exec moves, upToDate_exec moves, hidle, hrun, hworks, hmarked⟩ hover
  have hfar := ahead_le (exec (step accepts) {} moves)
  rw [← hgroups, ← hmw]
  exact served_of_ahead hlast (by omega)

theorem route_changes_served_firstRoutes :
    (exec (step fun _ req => req) afterFirstRoutes
        [.task, .wait 9, .task, .request 0 true, .task, .task, .task, .task, .task]).server =
      some (bindRoutes [("/api", [⟨"log", (), 7, true⟩])] (some ())) :=
  route_changes_served _ reached_firstRoutes rfl rfl (by simp [afterFirstRoutes]) rfl
    (by simp [HttpMove.calm]) (by simp [RetryOver, afterFirstRoutes]) (by decide)

end HttpSystem

/-! ## Gates -/

section Gates

variable (moves : List (HttpMove Method Handler Gate Request))

def Registered (name : String) (route : HttpRoute Method Handler) : Prop :=
  ∃ routes, .registerRoutes name routes ∈ moves ∧ route ∈ routes

def Installed (gate : Gate) : Prop := .setAuthMiddleware (some gate) ∈ moves

/-- A registry of what was registered and installed. -/
structure Known (groups : RouteGroups Method Handler) (mw : Option Gate) : Prop where
  registered : ∀ group ∈ groups, ∀ route ∈ group.2, Registered moves group.1 route
  installed : ∀ gate, mw = some gate → Installed moves gate

/-- The binding of a route that was registered, under a gate that was installed or none. -/
def Guarded (bound : Binding Method Handler Gate) : Prop :=
  ∃ name route mw, Registered moves name route ∧ (∀ gate, mw = some gate → Installed moves gate) ∧
    bound = bindRoute mw name route

/-- The request came to the handler of the route that the binding was made of, one that was
registered; where that route requires authentication, the binding's gate, one that was installed,
accepted it. -/
def Entitled (accepts : Gate → Request → Bool) (bound : Binding Method Handler Gate)
    (target : Handler) (req : Request) : Prop :=
  ∃ name route mw, Registered moves name route ∧ bound = bindRoute mw name route ∧
    target = route.handler ∧
    (route.requiresAuth = false ∨
      ∃ gate, mw = some gate ∧ Installed moves gate ∧ accepts gate req = true)

end Gates

variable {moves : List (HttpMove Method Handler Gate Request)}

theorem guarded_bindRoutes {groups : RouteGroups Method Handler} {mw : Option Gate}
    (h : Known moves groups mw) : ∀ bound ∈ bindRoutes groups mw, Guarded moves bound := by
  intro bound hbound
  obtain ⟨group, hgroup, hbound⟩ := List.mem_flatMap.1 hbound
  obtain ⟨route, hroute, rfl⟩ := List.mem_map.1 hbound
  exact ⟨group.1, route, mw, h.registered group hgroup route hroute, h.installed, rfl⟩

/-- What a binding admits has come to its route's handler, past its gate if the route requires one. -/
theorem bindRoute_admits {accepts : Gate → Request → Bool} {mw : Option Gate} {name : String}
    {route : HttpRoute Method Handler} {req : Request} {target : Handler}
    (h : (bindRoute mw name route).reply.admits accepts req = some target) :
    target = route.handler ∧
      (route.requiresAuth = false ∨ ∃ gate, mw = some gate ∧ accepts gate req = true) := by
  cases hauth : route.requiresAuth with
  | false =>
    simp only [bindRoute, hauth, Bool.not_false, if_true, Reply.admits, Option.some.injEq] at h
    exact ⟨h.symm, Or.inl rfl⟩
  | true =>
    simp only [bindRoute, hauth, Bool.not_true, Bool.false_eq_true, if_false] at h
    cases hmw : mw with
    | none =>
      rw [hmw] at h
      cases h
    | some gate =>
      rw [hmw] at h
      simp only [Reply.admits] at h
      split_ifs at h with haccepts
      exact ⟨(Option.some.inj h).symm, Or.inr ⟨gate, rfl, haccepts⟩⟩

theorem entitled_of_admits {accepts : Gate → Request → Bool} {bound : Binding Method Handler Gate}
    {req : Request} {target : Handler} (h : Guarded moves bound)
    (hadmits : bound.reply.admits accepts req = some target) :
    Entitled moves accepts bound target req := by
  obtain ⟨name, route, mw, hregistered, hinstalled, rfl⟩ := h
  obtain ⟨htarget, hopen | ⟨gate, hmw, haccepts⟩⟩ := bindRoute_admits hadmits
  · exact ⟨name, route, mw, hregistered, rfl, htarget, Or.inl hopen⟩
  · exact ⟨name, route, mw, hregistered, rfl, htarget, Or.inr ⟨gate, hmw, hinstalled gate hmw, haccepts⟩⟩

theorem mem_add {name : String} {routes : List (HttpRoute Method Handler)}
    {groups : RouteGroups Method Handler} {group : String × List (HttpRoute Method Handler)}
    {route : HttpRoute Method Handler} (hgroup : group ∈ groups.add name routes)
    (hroute : route ∈ group.2) :
    (group.1 = name ∧ route ∈ routes) ∨ ∃ old ∈ groups, old.1 = group.1 ∧ route ∈ old.2 := by
  induction groups with
  | nil =>
    rw [RouteGroups.add, List.mem_singleton] at hgroup
    exact Or.inl (by simpa [hgroup] using hroute)
  | cons first groups ih =>
    rw [RouteGroups.add] at hgroup
    split_ifs at hgroup with hsame hbefore
    · rcases List.mem_cons.1 hgroup with rfl | hgroup
      · rcases List.mem_append.1 hroute with hroute | hroute
        · exact Or.inr ⟨first, List.mem_cons_self, hsame.symm, hroute⟩
        · exact Or.inl ⟨rfl, hroute⟩
      · exact Or.inr ⟨group, List.mem_cons_of_mem first hgroup, rfl, hroute⟩
    · rcases List.mem_cons.1 hgroup with rfl | hgroup
      · exact Or.inl ⟨rfl, hroute⟩
      · exact Or.inr ⟨group, hgroup, rfl, hroute⟩
    · rcases List.mem_cons.1 hgroup with rfl | hgroup
      · exact Or.inr ⟨group, List.mem_cons_self, rfl, hroute⟩
      · obtain hnew | ⟨old, hold, hname, hroute⟩ := ih hgroup
        · exact Or.inl hnew
        · exact Or.inr ⟨old, List.mem_cons_of_mem first hold, hname, hroute⟩

namespace HttpSystem

variable {s : HttpSystem Method Handler Gate Request}

structure Guards (moves : List (HttpMove Method Handler Gate Request))
    (accepts : Gate → Request → Bool) (s : HttpSystem Method Handler Gate Request) : Prop where
  registry : Known moves s.http.routeGroups s.http.authMiddleware
  copied : ∀ groups mw, s.task = .binding groups mw → Known moves groups mw
  served : ∀ bindings, s.server = some bindings → ∀ bound ∈ bindings, Guarded moves bound
  handled : ∀ entry ∈ s.handled, Entitled moves accepts entry.1 entry.2.1 entry.2.2

/-- What the server task copies is the registry, and what it serves it has bound from a copy. -/
theorem advance_origin (s : HttpSystem Method Handler Gate Request) :
    (∀ groups mw, s.advance.task = .binding groups mw →
        groups = s.http.routeGroups ∧ mw = s.http.authMiddleware) ∧
      (∀ bindings, s.advance.server = some bindings → s.server = some bindings ∨
        ∃ groups mw, s.task = .binding groups mw ∧ bindings = bindRoutes groups mw) ∧
      s.advance.handled = s.handled := by
  refine ⟨fun groups mw hbind => ?_, fun bindings hb => ?_, ?_⟩
  · cases ht : s.task with
    | copying =>
      simp only [advance, ht, ServerTask.binding.injEq] at hbind
      exact ⟨hbind.1.symm, hbind.2.symm⟩
    | retrying checks =>
      cases checks <;> simp only [advance, ht] at hbind <;> split_ifs at hbind
    | spawned | starting | looping | started | polling | failed | binding =>
      simp only [advance, ht] at hbind
      split_ifs at hbind
    | _ => simp [advance, ht] at hbind
  · cases ht : s.task with
    | binding groups mw =>
      simp only [advance, ht, Option.some.injEq] at hb
      exact Or.inr ⟨groups, mw, rfl, hb.symm⟩
    | retrying checks => cases checks <;> simp only [advance, ht] at hb <;> exact Or.inl hb
    | closing => simp [advance, ht] at hb
    | started | polling =>
      simp only [advance, ht] at hb
      split_ifs at hb <;> exact Or.inl hb
    | _ =>
      simp only [advance, ht] at hb
      exact Or.inl hb
  · cases ht : s.task with
    | retrying checks => cases checks <;> simp [advance, ht]
    | started | polling =>
      simp only [advance, ht]
      split_ifs <;> rfl
    | _ => simp [advance, ht]

theorem guards_advance {accepts : Gate → Request → Bool} (h : s.Guards moves accepts) :
    s.advance.Guards moves accepts := by
  obtain ⟨hgroups, hmw, -⟩ := advance_registry s
  obtain ⟨hcopy, hserver, hhandled⟩ := advance_origin s
  refine ⟨?_, fun groups mw hbind => ?_, fun bindings hb => ?_, ?_⟩
  · rw [hgroups, hmw]
    exact h.registry
  · obtain ⟨rfl, rfl⟩ := hcopy groups mw hbind
    exact h.registry
  · obtain hold | ⟨groups, mw, hbind, rfl⟩ := hserver bindings hb
    · exact h.served bindings hold
    · exact guarded_bindRoutes (h.copied groups mw hbind)
  · rw [hhandled]
    exact h.handled

/-- A step that changes nothing but the registry, to one that is known. -/
theorem Guards.of_registry {accepts : Gate → Request → Bool} (h : s.Guards moves accepts)
    {s' : HttpSystem Method Handler Gate Request}
    (hregistry : Known moves s'.http.routeGroups s'.http.authMiddleware)
    (htask : ∀ groups mw, s'.task = .binding groups mw → s.task = .binding groups mw)
    (hserver : s'.server = s.server) (hhandled : s'.handled = s.handled) :
    s'.Guards moves accepts where
  registry := hregistry
  copied := fun groups mw hbind => h.copied groups mw (htask groups mw hbind)
  served := by
    rw [hserver]
    exact h.served
  handled := by
    rw [hhandled]
    exact h.handled

theorem guards_step {accepts : Gate → Request → Bool} (h : s.Guards moves accepts)
    (m : HttpMove Method Handler Gate Request) (hm : m ∈ moves) :
    (s.step accepts m).Guards moves accepts := by
  cases m with
  | task => exact guards_advance h
  | main created =>
    obtain ⟨hgroups, hmw, -, -, hserver, htask⟩ := goOn_registry s created
    refine h.of_registry ?_ (fun groups mw hbind => ?_) hserver ?_
    · change Known moves (s.goOn created).http.routeGroups (s.goOn created).http.authMiddleware
      rw [hgroups, hmw]
      exact h.registry
    · rcases htask with htask | htask
      · exact htask.symm.trans hbind
      · exact absurd (htask.symm.trans hbind) (by simp)
    · simp only [step, goOn]
      split <;> try split_ifs
      all_goals rfl
  | wait ms => exact h.of_registry h.registry (fun _ _ hbind => hbind) rfl rfl
  | setAuthMiddleware mw =>
    refine h.of_registry ⟨h.registry.registered, ?_⟩ (fun _ _ hbind => hbind) rfl rfl
    rintro gate rfl
    exact hm
  | registerRoutes name routes =>
    simp only [step]
    split_ifs
    · exact h
    · refine h.of_registry ⟨fun group hgroup route hroute => ?_, h.registry.installed⟩
        (fun _ _ hbind => hbind) rfl rfl
      obtain ⟨hname, hnew⟩ | ⟨old, hold, hname, hroute⟩ := mem_add hgroup hroute
      · rw [hname]
        exact ⟨routes, hm, hnew⟩
      · rw [← hname]
        exact h.registry.registered old hold route hroute
  | unregisterRoutes name =>
    simp only [step]
    split_ifs
    · exact h
    · exact h.of_registry ⟨fun group hgroup => h.registry.registered group (List.mem_of_mem_filter hgroup),
        h.registry.installed⟩ (fun _ _ hbind => hbind) rfl rfl
  | mark =>
    simp only [step]
    split_ifs
    · exact h
    · exact h.of_registry h.registry (fun _ _ hbind => hbind) rfl rfl
  | delete =>
    simp only [step]
    split_ifs
    · exact h
    · exact h.of_registry h.registry (fun _ _ hbind => hbind) rfl rfl
  | begin =>
    simp only [step]
    split_ifs
    · exact h
    · exact h.of_registry h.registry (fun _ _ hbind => hbind) rfl rfl
  | stop =>
    simp only [step]
    split_ifs
    · exact h
    · exact h.of_registry h.registry (fun _ _ hbind => hbind) rfl rfl
  | rebuildFails =>
    obtain heq | ⟨heq, -⟩ := rebuildFails_cases accepts s
    · rw [heq]
      exact h
    · rw [heq]
      exact h.of_registry h.registry (fun _ _ hbind => (by cases hbind)) rfl rfl
  | request choice req =>
    obtain heq | ⟨bindings, bound, target, hserver, hbound, hadmits, heq⟩ :=
      request_cases accepts s choice req
    · rw [heq]
      exact h
    · rw [heq]
      refine ⟨h.registry, h.copied, h.served, fun entry hentry => ?_⟩
      rcases List.mem_append.1 hentry with hentry | hentry
      · exact h.handled entry hentry
      · rw [List.mem_singleton] at hentry
        rw [hentry]
        exact entitled_of_admits (h.served bindings hserver bound hbound) hadmits

/-- **No handler without its gate.**  In every run, whatever was registered, installed and rebuilt
meanwhile: a request that came to a handler came to that of the route which its binding was made of,
one that was registered, and where that route requires authentication, the binding's gate, one that
was installed, had accepted the request. -/
theorem handled_only_entitled (accepts : Gate → Request → Bool)
    (moves : List (HttpMove Method Handler Gate Request)) :
    ∀ entry ∈ (exec (step accepts) {} moves).handled,
      Entitled moves accepts entry.1 entry.2.1 entry.2.2 := by
  have hinit : Guards moves accepts ({} : HttpSystem Method Handler Gate Request) := by
    refine ⟨⟨fun _ hgroup => ?_, fun _ hgate => ?_⟩, fun _ _ hbind => ?_, fun _ hserver => ?_,
      fun _ hentry => ?_⟩
    · cases hgroup
    · cases hgate
    · cases hbind
    · cases hserver
    · cases hentry
  exact (exec_invariant (Guards moves accepts) (fun _ m hm h => guards_step h m hm) hinit).handled

/-- The route is served, and a request comes that its gate accepts. -/
def firstRequest : List (HttpMove Unit ℕ Unit Bool) :=
  firstRoutes ++ [.task, .task, .task, .task, .request 0 true]

theorem handled_only_entitled_firstRequest :
    Entitled firstRequest (fun _ req => req) (bindRoute (some ()) "/api" ⟨"log", (), 7, true⟩) 7 true := by
  have hhandled : (bindRoute (some ()) "/api" ⟨"log", (), 7, true⟩, 7, true) ∈
      (exec (step fun _ req => req) {} firstRequest).handled := by
    rw [firstRequest, exec_append, exec_firstRoutes]
    simp [afterFirstRoutes, step, advance, rebuildDue, bindRoutes, bindRoute, Reply.admits]
  exact handled_only_entitled _ firstRequest _ hhandled

end HttpSystem

end Pumpbug.Net
