import Pumpbug.Lib.Run
import Pumpbug.Web.Stream

/-!
# One chain back to a stream

Between handlers the client is in one of seven shapes: it asks for a ticket, reads its body, has a
stream, waits for a reconnect, waits for a wake poll, polls, or is over.  Every handler leads from
one of them to another, so exactly one thing that leads to a stream is outstanding until the client
is over.
-/

namespace Pumpbug.Web.Stream

open Lib

namespace Client

/-! ## Shapes -/

/-- The variables of the client and the pending tasks; of the streams just the current one is
open. -/
structure Shape (c : Client) (current reconnect wake : Option ℕ) (connecting : Bool)
    (tasks : List Task) : Prop where
  currentStream : c.currentStream = current
  reconnectTimer : c.reconnectTimer = reconnect
  wakePollTimer : c.wakePollTimer = wake
  isConnecting : c.connecting = connecting
  pending : c.tasks = tasks
  oneOpen : ∀ i s, c.streams[i]? = some s → (s.closed = false ↔ current = some i)
  bound : ∀ i, current = some i → i < c.streams.length

/-- The client gave up: another client took over, or the firmware speaks another version. -/
def Over (c : Client) : Prop :=
  c.protocolMismatch = true ∨
    ∃ (i : ℕ) (s : EventStream), c.streams[i]? = some s ∧ s.replaced = true

/-- The tasks are the idle timer of the stream, if it has one. -/
def IdleTasks (c : Client) (i : ℕ) (tasks : List Task) : Prop :=
  c.idleTimerOf i = none ∧ tasks = [] ∨
    ∃ handle delayMs, c.idleTimerOf i = some handle ∧ tasks = [.timer handle delayMs (.idle i)]

/-- A stream is there, opening or open, and nothing else but its idle timer. -/
structure Streaming (c : Client) (i : ℕ) (tasks : List Task) : Prop where
  shape : c.Shape (some i) none none false tasks
  idle : c.IdleTasks i tasks
  awake : ∀ s, c.streams[i]? = some s → s.sleeping = false
  live : ¬ c.Over

inductive Chain (c : Client) : Prop
  | ticketing (h : c.Shape none none none true [.ticket c.connectEpoch]) (live : ¬ c.Over)
  | reading (h : c.Shape none none none true [.ticketBody c.connectEpoch]) (live : ¬ c.Over)
  | streaming (i : ℕ) (tasks : List Task) (h : c.Streaming i tasks)
  | waiting (handle delayMs : ℕ)
      (h : c.Shape none (some handle) none false [.timer handle delayMs .reconnect])
      (live : ¬ c.Over)
  | waking (handle delayMs : ℕ)
      (h : c.Shape none none (some handle) false [.timer handle delayMs .poll]) (live : ¬ c.Over)
  | polling (h : c.Shape none none none false [.wakePoll]) (live : ¬ c.Over)
  | finished (h : c.Shape none none none false []) (gone : c.Over)

/-! ## Parts of handlers -/

theorem getElem?_modifyStream {c : Client} {i j : ℕ} {f : EventStream → EventStream}
    {s : EventStream} (h : (c.modifyStream i f).streams[j]? = some s) :
    ∃ s₀, c.streams[j]? = some s₀ ∧ s = if i = j then f s₀ else s₀ := by
  have hmod : (c.modifyStream i f).streams[j]? =
      (fun s₀ => if i = j then f s₀ else s₀) <$> c.streams[j]? := List.getElem?_modify ..
  rw [hmod] at h
  obtain ⟨s₀, h₀, rfl⟩ := Option.map_eq_some_iff.1 h
  exact ⟨s₀, h₀, rfl⟩

theorem Shape.modifyStream {c : Client} {i : ℕ} {current reconnect wake : Option ℕ}
    {connecting : Bool} {tasks : List Task}
    (h : c.Shape current reconnect wake connecting tasks) {f : EventStream → EventStream}
    (hf : ∀ s, (f s).closed = s.closed) :
    (c.modifyStream i f).Shape current reconnect wake connecting tasks where
  currentStream := h.currentStream
  reconnectTimer := h.reconnectTimer
  wakePollTimer := h.wakePollTimer
  isConnecting := h.isConnecting
  pending := h.pending
  oneOpen j s hs := by
    obtain ⟨s₀, h₀, rfl⟩ := getElem?_modifyStream hs
    rw [← h.oneOpen j s₀ h₀]
    split_ifs
    · rw [hf]
    · rfl
  bound j hj := by
    show j < (c.streams.modify i f).length
    rw [List.length_modify]
    exact h.bound j hj

theorem over_modifyStream {c : Client} {i : ℕ} {f : EventStream → EventStream}
    (hf : ∀ s, (f s).replaced = s.replaced) (h : (c.modifyStream i f).Over) : c.Over := by
  rcases h with h | ⟨j, s, hs, hreplaced⟩
  · exact .inl h
  · obtain ⟨s₀, h₀, rfl⟩ := getElem?_modifyStream hs
    refine .inr ⟨j, s₀, h₀, ?_⟩
    split_ifs at hreplaced
    · rwa [hf] at hreplaced
    · exact hreplaced

theorem idleTimerOf_modifyStream {c : Client} {i : ℕ} {f : EventStream → EventStream}
    (hf : ∀ s, (f s).idleTimer = s.idleTimer) :
    (c.modifyStream i f).idleTimerOf i = c.idleTimerOf i := by
  have hmod : (c.modifyStream i f).streams[i]? =
      (fun s₀ => if i = i then f s₀ else s₀) <$> c.streams[i]? := List.getElem?_modify ..
  unfold idleTimerOf
  rw [hmod]
  cases c.streams[i]? with
  | none => rfl
  | some s => simp [hf]

theorem clearTimeout_eq (c : Client) (handle : Option ℕ) :
    c.clearTimeout handle = { c with tasks := (c.clearTimeout handle).tasks } := by
  cases handle <;> rfl

theorem clearTimeout_nil {c : Client} (h : c.tasks = []) (handle : Option ℕ) :
    (c.clearTimeout handle).tasks = [] := by
  cases handle with
  | none => exact h
  | some handle =>
    unfold clearTimeout
    rw [h]
    rfl

theorem IdleTasks.clear {c : Client} {i : ℕ} (h : c.IdleTasks i c.tasks) :
    (c.clearTimeout (c.idleTimerOf i)).tasks = [] := by
  rcases h with ⟨hnone, htasks⟩ | ⟨handle, delayMs, hsome, htasks⟩
  · exact clearTimeout_nil htasks _
  · rw [hsome]
    unfold clearTimeout
    rw [htasks]
    simp [isTimer]

theorem Shape.clearTimeout {c : Client} {current reconnect wake : Option ℕ} {connecting : Bool}
    {tasks : List Task} (h : c.Shape current reconnect wake connecting tasks) {handle : Option ℕ}
    (hclear : (c.clearTimeout handle).tasks = []) :
    (c.clearTimeout handle).Shape current reconnect wake connecting [] := by
  have hother := clearTimeout_eq c handle
  rw [hclear] at hother
  rw [hother]
  exact ⟨h.currentStream, h.reconnectTimer, h.wakePollTimer, h.isConnecting, rfl, h.oneOpen, h.bound⟩

/-- Only the streams and the firmware's version decide. -/
theorem Over.congr {c c' : Client} (h : c'.Over) (hmismatch : c'.protocolMismatch = c.protocolMismatch)
    (hstreams : c'.streams = c.streams) : c.Over := by
  unfold Over at h ⊢
  rwa [hmismatch, hstreams] at h

theorem over_clearTimeout {c : Client} {handle : Option ℕ} (h : (c.clearTimeout handle).Over) :
    c.Over := by
  rw [clearTimeout_eq] at h
  exact h.congr rfl rfl

/-- Closing the current stream leaves none open, and no task. -/
theorem Shape.closeStream {c : Client} {i : ℕ} {reconnect wake : Option ℕ} {connecting : Bool}
    {tasks : List Task} (h : c.Shape (some i) reconnect wake connecting tasks)
    (hclear : (c.clearTimeout (c.idleTimerOf i)).tasks = []) :
    (c.closeStream i).Shape none reconnect wake connecting [] := by
  have hcleared := h.clearTimeout hclear
  unfold Client.closeStream
  dsimp only
  have hcurrent : ((c.clearTimeout (c.idleTimerOf i)).modifyStream i
      fun s => { s with closed := true }).currentStream = some i := hcleared.currentStream
  rw [if_pos hcurrent]
  refine ⟨rfl, hcleared.reconnectTimer, hcleared.wakePollTimer, hcleared.isConnecting,
    hcleared.pending,
    fun j s hs => ?_, fun j hj => absurd hj (by simp)⟩
  obtain ⟨s₀, h₀, rfl⟩ := getElem?_modifyStream hs
  have hopen := hcleared.oneOpen j s₀ h₀
  by_cases hij : i = j
  · rw [if_pos hij]
    simp
  · rw [if_neg hij, hopen]
    simp [hij]

theorem over_closeStream {c : Client} {i : ℕ} (h : (c.closeStream i).Over) : c.Over := by
  have hmod : ((c.clearTimeout (c.idleTimerOf i)).modifyStream i
      fun s => { s with closed := true }).Over := by
    unfold Client.closeStream at h
    dsimp only at h
    split_ifs at h
    · exact h.congr rfl rfl
    · exact h
  have hkeeps (s : EventStream) : { s with closed := true }.replaced = s.replaced := rfl
  exact over_clearTimeout (over_modifyStream hkeeps hmod)

/-! ## Handlers -/

theorem chain_connect {c : Client} (h : c.Shape none none none false []) (live : ¬ c.Over) :
    c.connect.Chain := by
  have hmismatch : ¬ c.protocolMismatch = true := fun hm => live (.inl hm)
  have hconnecting : ¬ c.connecting = true := by
    rw [h.isConnecting]
    exact Bool.false_ne_true
  have hconnect : c.connect =
      { c with
        wakePollTimer := none
        reconnectTimer := none
        connectEpoch := c.connectEpoch + 1
        connecting := true
        tasks := [.ticket (c.connectEpoch + 1)]
        ticketRequests := c.ticketRequests + 1 } := by
    unfold connect
    rw [if_neg hmismatch, if_neg hconnecting]
    simp [stopWakePolling, clearTimeout, h.wakePollTimer, h.reconnectTimer, h.pending]
  rw [hconnect]
  refine .ticketing ⟨h.currentStream, rfl, rfl, rfl, rfl, h.oneOpen, h.bound⟩ fun hover => ?_
  exact live (hover.congr rfl rfl)

theorem shape_scheduleReconnect {c : Client} {connecting : Bool}
    (h : c.Shape none none none connecting []) (live : ¬ c.Over) :
    c.scheduleReconnect.Shape none (some c.handles) none connecting
      [.timer c.handles c.backoffMs .reconnect] ∧ ¬ c.scheduleReconnect.Over := by
  have hmismatch : ¬ c.protocolMismatch = true := fun hm => live (.inl hm)
  have hwaiting : ¬ c.reconnectTimer.isSome = true := by
    rw [h.reconnectTimer]
    exact Bool.false_ne_true
  unfold scheduleReconnect
  rw [if_neg hmismatch, if_neg hwaiting]
  refine ⟨⟨h.currentStream, rfl, h.wakePollTimer, h.isConnecting, ?_, h.oneOpen, h.bound⟩,
    fun hover => live (hover.congr rfl rfl)⟩
  show c.tasks ++ [_] = _
  rw [h.pending, List.nil_append]

theorem chain_scheduleReconnect {c : Client} (h : c.Shape none none none false [])
    (live : ¬ c.Over) : c.scheduleReconnect.Chain := by
  obtain ⟨hshape, hlive⟩ := shape_scheduleReconnect h live
  exact .waiting _ _ hshape hlive

/-- A failed connect leaves a reconnect timer. -/
theorem chain_connectFailed {c : Client} (h : c.Shape none none none true []) (live : ¬ c.Over)
    {epoch : ℕ} (hepoch : epoch = c.connectEpoch) :
    (c.scheduleReconnect.connectDone epoch).Chain := by
  obtain ⟨hshape, hlive⟩ := shape_scheduleReconnect h live
  have hsame : c.scheduleReconnect.connectEpoch = c.connectEpoch := by
    unfold scheduleReconnect
    split_ifs <;> rfl
  unfold connectDone
  rw [if_pos (hepoch.trans hsame.symm)]
  exact .waiting _ _ ⟨hshape.currentStream, hshape.reconnectTimer, hshape.wakePollTimer, rfl,
    hshape.pending, hshape.oneOpen, hshape.bound⟩ fun hover => hlive (hover.congr rfl rfl)

theorem closeCurrentStream_some {c : Client} {i : ℕ} (h : c.currentStream = some i) :
    c.closeCurrentStream = c.closeStream i := by
  unfold closeCurrentStream
  rw [h]

theorem closeCurrentStream_none {c : Client} (h : c.currentStream = none) :
    c.closeCurrentStream = c := by
  unfold closeCurrentStream
  rw [h]

theorem closeStream_tasks (c : Client) (i : ℕ) :
    (c.closeStream i).tasks = (c.clearTimeout (c.idleTimerOf i)).tasks := by
  unfold closeStream
  dsimp only
  split_ifs <;> rfl

theorem closeStream_streams (c : Client) (i : ℕ) :
    (c.closeStream i).streams = c.streams.modify i fun s => { s with closed := true } := by
  unfold closeStream
  dsimp only
  rw [clearTimeout_eq]
  split_ifs <;> rfl

theorem Shape.closeCurrentStream {c : Client} {current reconnect wake : Option ℕ} {connecting : Bool}
    {tasks : List Task} (h : c.Shape current reconnect wake connecting tasks)
    (hclear : c.closeCurrentStream.tasks = []) :
    c.closeCurrentStream.Shape none reconnect wake connecting [] := by
  have hcurrent := h.currentStream
  unfold Client.closeCurrentStream at hclear ⊢
  cases current with
  | none =>
    rw [hcurrent] at hclear ⊢
    exact ⟨hcurrent, h.reconnectTimer, h.wakePollTimer, h.isConnecting, hclear, h.oneOpen, h.bound⟩
  | some i =>
    rw [hcurrent] at hclear ⊢
    exact h.closeStream ((closeStream_tasks c i).symm.trans hclear)

theorem over_closeCurrentStream {c : Client} (h : c.closeCurrentStream.Over) : c.Over := by
  unfold closeCurrentStream at h
  split at h
  · exact h
  · exact over_closeStream h

theorem closeCurrentStream_tasks (c : Client) :
    c.closeCurrentStream.tasks =
      (c.currentStream.bind c.idleTimerOf).elim c.tasks fun handle =>
        c.tasks.filter fun task => !isTimer handle task := by
  unfold closeCurrentStream
  cases c.currentStream with
  | none => rfl
  | some i =>
    show (c.closeStream i).tasks = _
    rw [closeStream_tasks, Option.bind_some]
    cases c.idleTimerOf i <;> rfl

theorem closeCurrentStream_supersede (c : Client) :
    c.supersede.closeCurrentStream.tasks = c.closeCurrentStream.tasks := by
  rw [closeCurrentStream_tasks, closeCurrentStream_tasks]
  rfl

theorem closeCurrentStream_protocolMismatch (c : Client) :
    c.closeCurrentStream.protocolMismatch = c.protocolMismatch := by
  unfold closeCurrentStream closeStream modifyStream
  split
  · rfl
  · dsimp only
    rw [clearTimeout_eq]
    split_ifs <;> rfl

theorem Shape.supersede {c : Client} {current reconnect wake : Option ℕ} {connecting : Bool}
    {tasks : List Task} (h : c.Shape current reconnect wake connecting tasks) :
    c.supersede.Shape current reconnect wake false tasks :=
  ⟨h.currentStream, h.reconnectTimer, h.wakePollTimer, rfl, h.pending, h.oneOpen, h.bound⟩

theorem over_supersede {c : Client} (h : c.supersede.closeCurrentStream.Over) : c.Over :=
  (over_closeCurrentStream h).congr rfl rfl

/-- Where closing the stream leaves no task, a resync leaves a reconnect timer. -/
theorem chain_forceReconnect {c : Client} {current : Option ℕ} {connecting : Bool}
    {tasks : List Task} (h : c.Shape current none none connecting tasks)
    (hclear : c.closeCurrentStream.tasks = []) (live : ¬ c.Over) : c.forceReconnect.Chain := by
  have hmismatch : ¬ c.protocolMismatch = true := fun hm => live (.inl hm)
  have hclosed := h.supersede.closeCurrentStream ((closeCurrentStream_supersede c).trans hclear)
  unfold forceReconnect
  rw [if_neg hmismatch]
  refine chain_scheduleReconnect ⟨hclosed.currentStream, hclosed.reconnectTimer,
    hclosed.wakePollTimer, hclosed.isConnecting, hclosed.pending, hclosed.oneOpen, hclosed.bound⟩ ?_
  exact fun hover => live (over_supersede (hover.congr rfl rfl))

/-- Where closing the stream leaves no task, wake polling is all there is. -/
theorem chain_startWakePolling {c : Client} {current : Option ℕ} {connecting : Bool}
    {tasks : List Task} (h : c.Shape current none none connecting tasks)
    (hclear : c.closeCurrentStream.tasks = []) (live : ¬ c.Over) : c.startWakePolling.Chain := by
  have hmismatch : ¬ c.protocolMismatch = true := fun hm => live (.inl hm)
  have hwaking : ¬ c.wakePollTimer.isSome = true := by
    rw [h.wakePollTimer]
    exact Bool.false_ne_true
  have hclosed := h.supersede.closeCurrentStream ((closeCurrentStream_supersede c).trans hclear)
  have hlive : ¬ c.supersede.closeCurrentStream.Over := fun hover => live (over_supersede hover)
  unfold startWakePolling
  rw [if_neg hmismatch, if_neg hwaking]
  dsimp only
  rw [hclosed.reconnectTimer]
  refine .waking _ 0 ⟨hclosed.currentStream, rfl, rfl, hclosed.isConnecting, ?_, hclosed.oneOpen,
    hclosed.bound⟩ fun hover => hlive (hover.congr rfl rfl)
  show c.supersede.closeCurrentStream.tasks ++ [_] = _
  rw [hclosed.pending, List.nil_append]

/-- A ticket opens the one stream there is. -/
theorem chain_openStream {c : Client} (h : c.Shape none none none true []) (live : ¬ c.Over)
    {epoch : ℕ} (hepoch : epoch = c.connectEpoch) : (c.openStream.connectDone epoch).Chain := by
  have hopened (j : ℕ) (s : EventStream) (hs : (c.streams ++ [EventStream.fresh])[j]? = some s) :
      c.streams[j]? = some s ∧ j < c.streams.length ∨ s = .fresh ∧ j = c.streams.length := by
    rcases Nat.lt_trichotomy j c.streams.length with hlt | heq | hgt
    · rw [List.getElem?_append_left hlt] at hs
      exact .inl ⟨hs, hlt⟩
    · rw [heq, List.getElem?_concat_length] at hs
      exact .inr ⟨(Option.some.inj hs).symm, heq⟩
    · rw [List.getElem?_eq_none (by rw [List.length_append, List.length_singleton]; omega)] at hs
      cases hs
  unfold openStream connectDone
  rw [closeCurrentStream_none h.currentStream]
  dsimp only
  rw [if_pos hepoch]
  refine .streaming c.streams.length [] ⟨⟨rfl, h.reconnectTimer, h.wakePollTimer, rfl, h.pending,
    fun j s hs => ?_, fun j hj => ?_⟩, .inl ⟨?_, rfl⟩, fun s hs => ?_, ?_⟩
  · rcases hopened j s hs with ⟨hold, hlt⟩ | ⟨rfl, rfl⟩
    · rw [h.oneOpen j s hold]
      simp
      omega
    · simp [EventStream.fresh]
  · obtain rfl := Option.some.inj hj
    simp
  · show Option.bind (c.streams ++ [EventStream.fresh])[c.streams.length]? EventStream.idleTimer = none
    rw [List.getElem?_concat_length]
    rfl
  · rcases hopened _ s hs with ⟨-, hlt⟩ | ⟨rfl, -⟩
    · exact absurd hlt (Nat.lt_irrefl _)
    · rfl
  · rintro (hover | ⟨j, s, hs, hreplaced⟩)
    · exact live (.inl hover)
    · rcases hopened j s hs with ⟨hold, -⟩ | ⟨rfl, -⟩
      · exact live (.inr ⟨j, s, hold, hreplaced⟩)
      · exact absurd hreplaced Bool.false_ne_true

/-! ## Streaming -/

theorem Streaming.clear {c : Client} {i : ℕ} {tasks : List Task} (h : c.Streaming i tasks) :
    c.closeCurrentStream.tasks = [] := by
  unfold closeCurrentStream
  rw [h.shape.currentStream]
  show (c.closeStream i).tasks = []
  rw [closeStream_tasks]
  have hidle := h.idle
  rw [← h.shape.pending] at hidle
  exact hidle.clear

theorem Streaming.modifyStream {c : Client} {i : ℕ} {tasks : List Task} (h : c.Streaming i tasks)
    {f : EventStream → EventStream} (hclosed : ∀ s, (f s).closed = s.closed)
    (hreplaced : ∀ s, (f s).replaced = s.replaced) (hsleeping : ∀ s, (f s).sleeping = s.sleeping)
    (hidle : ∀ s, (f s).idleTimer = s.idleTimer) : (c.modifyStream i f).Streaming i tasks where
  shape := h.shape.modifyStream hclosed
  idle := by
    unfold IdleTasks
    rw [idleTimerOf_modifyStream hidle]
    exact h.idle
  awake s hs := by
    obtain ⟨s₀, h₀, rfl⟩ := getElem?_modifyStream hs
    rw [if_pos rfl, hsleeping]
    exact h.awake s₀ h₀
  live hover := h.live (over_modifyStream hreplaced hover)

/-- The idle timer is set anew. -/
theorem Streaming.setIdleTimer {c : Client} {i : ℕ} {tasks : List Task} (h : c.Streaming i tasks)
    (timeoutMs : ℕ) :
    ∃ tasks', Streaming
      (((c.clearTimeout (c.idleTimerOf i)).setTimeout timeoutMs (.idle i)).modifyStream i
        fun s => { s with idleTimer := some (c.clearTimeout (c.idleTimerOf i)).handles })
      i tasks' := by
  have hidle := h.idle
  rw [← h.shape.pending] at hidle
  have hcleared := h.shape.clearTimeout hidle.clear
  have hset : ((c.clearTimeout (c.idleTimerOf i)).setTimeout timeoutMs (.idle i)).Shape (some i) none
      none false [.timer (c.clearTimeout (c.idleTimerOf i)).handles timeoutMs (.idle i)] := by
    refine ⟨hcleared.currentStream, hcleared.reconnectTimer, hcleared.wakePollTimer,
      hcleared.isConnecting, ?_, hcleared.oneOpen, hcleared.bound⟩
    show (c.clearTimeout (c.idleTimerOf i)).tasks ++ [_] = _
    rw [hcleared.pending, List.nil_append]
  generalize hhandle : (c.clearTimeout (c.idleTimerOf i)).handles = handle at hset ⊢
  refine ⟨_, hset.modifyStream fun _ => rfl, .inr ⟨handle, timeoutMs, ?_, rfl⟩, fun s hs => ?_, ?_⟩
  · obtain ⟨s, hs⟩ : ∃ s, c.streams[i]? = some s :=
      ⟨_, List.getElem?_eq_getElem (h.shape.bound i rfl)⟩
    have hmod : (((c.clearTimeout (c.idleTimerOf i)).setTimeout timeoutMs (.idle i)).modifyStream i
        fun s => { s with idleTimer := some handle }).streams[i]? =
          (fun s₀ => if i = i then { s₀ with idleTimer := some handle } else s₀) <$>
            c.streams[i]? := by
      rw [clearTimeout_eq]
      exact List.getElem?_modify ..
    show Option.bind (Client.streams _)[i]? EventStream.idleTimer = some handle
    rw [hmod, hs]
    simp
  · obtain ⟨s₀, h₀, rfl⟩ := getElem?_modifyStream hs
    rw [if_pos rfl]
    rw [clearTimeout_eq] at h₀
    exact h.awake s₀ h₀
  · intro hover
    have hkeeps (s : EventStream) : { s with idleTimer := some handle }.replaced = s.replaced := rfl
    have hset : ((c.clearTimeout (c.idleTimerOf i)).setTimeout timeoutMs (.idle i)).Over :=
      over_modifyStream hkeeps hover
    exact h.live (over_clearTimeout (hset.congr rfl rfl))

theorem Streaming.armIdleTimer {c : Client} {i : ℕ} {tasks : List Task} (h : c.Streaming i tasks) :
    ∃ tasks', (c.armIdleTimer i).Streaming i tasks' := by
  unfold Client.armIdleTimer
  exact h.setIdleTimer _

theorem Streaming.onOpen {c : Client} {i : ℕ} {tasks : List Task} (h : c.Streaming i tasks) :
    (c.onOpen i).Chain := by
  unfold Client.onOpen
  rw [if_neg (not_not_intro h.shape.currentStream)]
  obtain ⟨tasks', h'⟩ := (h.modifyStream (f := fun s => { s with opened := true }) (fun _ => rfl)
    (fun _ => rfl) (fun _ => rfl) fun _ => rfl).armIdleTimer
  exact .streaming i tasks' ⟨⟨h'.shape.currentStream, h'.shape.reconnectTimer,
    h'.shape.wakePollTimer, h'.shape.isConnecting, h'.shape.pending, h'.shape.oneOpen,
    h'.shape.bound⟩, h'.idle, h'.awake, fun hover => h'.live (hover.congr rfl rfl)⟩

theorem Streaming.onPacket {c : Client} {i : ℕ} {tasks : List Task} (h : c.Streaming i tasks)
    (packet : Packet) : (c.onPacket i packet).Chain := by
  unfold Client.onPacket
  rw [if_neg (not_not_intro h.shape.currentStream)]
  obtain ⟨tasks', h'⟩ := (h.modifyStream (f := fun s => { s with firstPacketSeen := true })
    (fun _ => rfl) (fun _ => rfl) (fun _ => rfl) fun _ => rfl).armIdleTimer
  revert h'
  dsimp only
  generalize ((c.modifyStream i fun s => { s with firstPacketSeen := true }).armIdleTimer i) = c'
  intro h'
  cases packet with
  | shown => exact .streaming i tasks' h'
  | mismatch =>
    have hclear : { c' with protocolMismatch := true }.closeCurrentStream.tasks = [] := by
      rw [closeCurrentStream_tasks]
      have hclear := h'.clear
      rwa [closeCurrentStream_tasks] at hclear
    have hclosed : ({ c' with protocolMismatch := true } : Client).Shape (some i) none none false
        tasks' := ⟨h'.shape.currentStream, h'.shape.reconnectTimer, h'.shape.wakePollTimer,
      h'.shape.isConnecting, h'.shape.pending, h'.shape.oneOpen, h'.shape.bound⟩
    exact .finished (hclosed.closeCurrentStream hclear)
      (.inl (closeCurrentStream_protocolMismatch _))
  | outOfSync => exact chain_forceReconnect h'.shape h'.clear h'.live

theorem Streaming.onError {c : Client} {i : ℕ} {tasks : List Task} (h : c.Streaming i tasks) :
    (c.onError i).Chain := by
  obtain ⟨s, hs⟩ : ∃ s, c.streams[i]? = some s :=
    ⟨_, List.getElem?_eq_getElem (h.shape.bound i rfl)⟩
  have hreplaced : s.replaced = false := by
    by_contra hyes
    exact h.live (.inr ⟨i, s, hs, Bool.not_eq_false _ ▸ hyes⟩)
  have hclear := h.clear
  rw [closeCurrentStream_some h.shape.currentStream, closeStream_tasks] at hclear
  unfold Client.onError
  rw [if_neg (not_not_intro h.shape.currentStream), hs]
  simp only [Option.any_some, hreplaced, h.awake s hs, Bool.not_false, Bool.and_self, if_true]
  exact chain_scheduleReconnect (h.shape.closeStream hclear) fun hover => h.live (over_closeStream hover)

/-- A stream with a flag set is closed as the stream without. -/
theorem Streaming.closeFlagged {c : Client} {i : ℕ} {tasks : List Task} (h : c.Streaming i tasks)
    {f : EventStream → EventStream} (hclosed : ∀ s, (f s).closed = s.closed)
    (hidle : ∀ s, (f s).idleTimer = s.idleTimer) :
    ((c.modifyStream i f).closeStream i).Shape none none none false [] := by
  have hclear := h.clear
  rw [closeCurrentStream_some h.shape.currentStream, closeStream_tasks] at hclear
  refine (h.shape.modifyStream hclosed).closeStream ?_
  rw [idleTimerOf_modifyStream hidle]
  revert hclear
  cases c.idleTimerOf i <;> exact id

theorem Streaming.over_onReplaced {c : Client} {i : ℕ} {tasks : List Task} (h : c.Streaming i tasks) :
    (c.onReplaced i).Over := by
  unfold Client.onReplaced
  rw [if_neg (not_not_intro h.shape.currentStream)]
  obtain ⟨s, hs⟩ : ∃ s, c.streams[i]? = some s :=
    ⟨_, List.getElem?_eq_getElem (h.shape.bound i rfl)⟩
  refine .inr ⟨i, { s with replaced := true, closed := true }, ?_, rfl⟩
  rw [closeStream_streams]
  show ((c.streams.modify i _).modify i _)[i]? = _
  rw [List.getElem?_modify, List.getElem?_modify, hs]
  simp

theorem Streaming.onReplaced {c : Client} {i : ℕ} {tasks : List Task} (h : c.Streaming i tasks) :
    (c.onReplaced i).Chain := by
  refine .finished ?_ h.over_onReplaced
  unfold Client.onReplaced
  rw [if_neg (not_not_intro h.shape.currentStream)]
  exact h.closeFlagged (fun _ => rfl) fun _ => rfl

theorem Streaming.onSleeping {c : Client} {i : ℕ} {tasks : List Task} (h : c.Streaming i tasks) :
    (c.onSleeping i).Chain := by
  unfold Client.onSleeping
  rw [if_neg (not_not_intro h.shape.currentStream)]
  have hclosed := h.closeFlagged (f := fun s => { s with sleeping := true }) (fun _ => rfl)
    fun _ => rfl
  have hkeeps (s : EventStream) : { s with sleeping := true }.replaced = s.replaced := rfl
  refine chain_startWakePolling hclosed ?_ fun hover => ?_
  · rw [closeCurrentStream_none hclosed.currentStream]
    exact hclosed.pending
  · exact h.live (over_modifyStream hkeeps (over_closeStream hover))

/-! ## Steps -/

/-- Where there is a current stream, it streams. -/
theorem Chain.streaming_of_current {c : Client} (h : c.Chain) {i : ℕ} (hi : c.currentStream = some i) :
    ∃ tasks, c.Streaming i tasks := by
  have hnone : c.currentStream ≠ none := hi ▸ Option.some_ne_none i
  cases h with
  | streaming j tasks hj =>
    obtain rfl : j = i := Option.some.inj (hj.shape.currentStream.symm.trans hi)
    exact ⟨tasks, hj⟩
  | ticketing h live | reading h live | polling h live | finished h live =>
    exact absurd h.currentStream hnone
  | waiting handle delayMs h live | waking handle delayMs h live =>
    exact absurd h.currentStream hnone

/-- Events of other streams than the current one do nothing. -/
theorem chain_stream_event {c : Client} (h : c.Chain) {i : ℕ} {next : Client}
    (hother : c.currentStream ≠ some i → next = c)
    (hcurrent : ∀ tasks, c.Streaming i tasks → next.Chain) : next.Chain := by
  by_cases hi : c.currentStream = some i
  · obtain ⟨tasks, hi⟩ := h.streaming_of_current hi
    exact hcurrent tasks hi
  · rw [hother hi]
    exact h

/-- The only pending task comes to its end. -/
theorem Shape.erase {c : Client} {current reconnect wake : Option ℕ} {connecting : Bool} {t : Task}
    (h : c.Shape current reconnect wake connecting [t]) :
    Shape { c with tasks := c.tasks.erase t } current reconnect wake connecting [] := by
  refine ⟨h.currentStream, h.reconnectTimer, h.wakePollTimer, h.isConnecting, ?_, h.oneOpen, h.bound⟩
  show c.tasks.erase t = []
  rw [h.pending, List.erase_cons_head]

theorem Shape.eq_of_mem {c : Client} {current reconnect wake : Option ℕ} {connecting : Bool}
    {t task : Task} (h : c.Shape current reconnect wake connecting [t]) (hmem : task ∈ c.tasks) :
    task = t := by
  rw [h.pending] at hmem
  exact List.mem_singleton.1 hmem

theorem chain_settled {c : Client} (h : c.Chain) {task : Task} (hmem : task ∈ c.tasks)
    (outcome : Outcome) (hidden : Bool) :
    (onTask { c with tasks := c.tasks.erase task } task outcome hidden).Chain := by
  have hkeep (live : ¬ c.Over) : ¬ Over { c with tasks := c.tasks.erase task } :=
    fun hover => live (hover.congr rfl rfl)
  cases h with
  | ticketing h live =>
    obtain rfl := h.eq_of_mem hmem
    have hgone := h.erase
    unfold onTask onTicket
    dsimp only
    rw [if_neg (not_not_intro rfl)]
    cases outcome with
    | ok =>
      refine .reading ⟨hgone.currentStream, hgone.reconnectTimer, hgone.wakePollTimer,
        hgone.isConnecting, ?_, hgone.oneOpen, hgone.bound⟩ fun hover => live (hover.congr rfl rfl)
      show c.tasks.erase _ ++ [_] = _
      rw [show c.tasks.erase _ = [] from hgone.pending, List.nil_append]
    | refused => exact chain_connectFailed hgone (hkeep live) rfl
    | failed => exact chain_connectFailed hgone (hkeep live) rfl
  | reading h live =>
    obtain rfl := h.eq_of_mem hmem
    have hgone := h.erase
    unfold onTask onTicketBody
    dsimp only
    rw [if_neg (not_not_intro rfl)]
    cases outcome with
    | ok => exact chain_openStream hgone (hkeep live) rfl
    | refused =>
      show (scheduleReconnect (closeCurrentStream _)).connectDone _ |>.Chain
      rw [closeCurrentStream_none hgone.currentStream]
      exact chain_connectFailed hgone (hkeep live) rfl
    | failed => exact chain_connectFailed hgone (hkeep live) rfl
  | streaming i tasks h =>
    rcases h.idle with ⟨-, rfl⟩ | ⟨handle, delayMs, -, rfl⟩
    · rw [h.shape.pending] at hmem
      exact absurd hmem List.not_mem_nil
    · obtain rfl := h.shape.eq_of_mem hmem
      have hgone := h.shape.erase
      unfold onTask onIdle
      dsimp only
      rw [if_neg (not_not_intro h.shape.currentStream)]
      refine chain_startWakePolling hgone ?_ (hkeep h.live)
      rw [closeCurrentStream_tasks, hgone.pending]
      cases Option.bind _ _ <;> rfl
  | waiting handle delayMs h live =>
    obtain rfl := h.eq_of_mem hmem
    have hgone := h.erase
    exact chain_connect ⟨hgone.currentStream, rfl, hgone.wakePollTimer, hgone.isConnecting,
      hgone.pending, hgone.oneOpen, hgone.bound⟩ fun hover => live (hover.congr rfl rfl)
  | waking handle delayMs h live =>
    obtain rfl := h.eq_of_mem hmem
    have hgone := h.erase
    have hstill : ¬ (c.currentStream.isSome || c.protocolMismatch) = true := by
      rw [h.currentStream]
      exact fun hm => live (.inl hm)
    unfold onTask poll
    dsimp only
    rw [if_neg hstill]
    refine .polling ⟨hgone.currentStream, hgone.reconnectTimer, rfl, hgone.isConnecting, ?_,
      hgone.oneOpen, hgone.bound⟩ fun hover => live (hover.congr rfl rfl)
    show c.tasks.erase _ ++ [_] = _
    rw [show c.tasks.erase _ = [] from hgone.pending, List.nil_append]
  | polling h live =>
    obtain rfl := h.eq_of_mem hmem
    have hgone := h.erase
    unfold onTask onWakePoll
    cases outcome with
    | ok => exact chain_connect hgone (hkeep live)
    | refused => exact chain_connect hgone (hkeep live)
    | failed =>
      refine .waking c.handles
        (if hidden then WAKE_POLL_HIDDEN_INTERVAL_MS else WAKE_POLL_INTERVAL_MS)
        ⟨hgone.currentStream, hgone.reconnectTimer, rfl,
        hgone.isConnecting, ?_, hgone.oneOpen, hgone.bound⟩ fun hover => live (hover.congr rfl rfl)
      show c.tasks.erase _ ++ [_] = _
      rw [show c.tasks.erase _ = [] from hgone.pending, List.nil_append]
  | finished h gone =>
    rw [h.pending] at hmem
    exact absurd hmem List.not_mem_nil

theorem Chain.step {c : Client} (h : c.Chain) (e : Event) : (c.step e).Chain := by
  cases e with
  | opened i => exact chain_stream_event h (fun hi => if_pos hi) fun _ hs => hs.onOpen
  | packet i packet => exact chain_stream_event h (fun hi => if_pos hi) fun _ hs => hs.onPacket packet
  | error i => exact chain_stream_event h (fun hi => if_pos hi) fun _ hs => hs.onError
  | replaced i => exact chain_stream_event h (fun hi => if_pos hi) fun _ hs => hs.onReplaced
  | sleeping i => exact chain_stream_event h (fun hi => if_pos hi) fun _ hs => hs.onSleeping
  | settled task outcome hidden =>
    unfold Client.step
    by_cases hmem : task ∈ c.tasks
    · simp only [if_pos hmem]
      exact chain_settled h hmem outcome hidden
    · simp only [if_neg hmem]
      exact h

/-- EventSources that are not closed. -/
def openStreams (c : Client) : ℕ := c.streams.countP fun s => !s.closed

/-- A pending task that leads to a stream: a connect that counts, or a timer or probe before one. -/
def leads (c : Client) : Task → Bool
  | .timer _ _ (.idle _) => false
  | .timer _ _ .reconnect => true
  | .timer _ _ .poll => true
  | .ticket epoch => epoch = c.connectEpoch
  | .ticketBody epoch => epoch = c.connectEpoch
  | .wakePoll => true

/-- What is outstanding that leads to a stream, the open ones included. -/
def chains (c : Client) : ℕ := c.openStreams + c.tasks.countP c.leads

theorem Shape.openStreams_eq {c : Client} {current reconnect wake : Option ℕ} {connecting : Bool}
    {tasks : List Task} (h : c.Shape current reconnect wake connecting tasks) :
    c.openStreams = if current.isSome then 1 else 0 := by
  have hclosed (l : List EventStream) (hl : ∀ s ∈ l, s.closed = true) :
      l.countP (fun s => !s.closed) = 0 := by
    rw [List.countP_eq_zero]
    intro s hs
    simp [hl s hs]
  have hother (i : ℕ) (s : EventStream) (hs : c.streams[i]? = some s) (hi : current ≠ some i) :
      s.closed = true := by
    rw [← Bool.not_eq_false, h.oneOpen i s hs]
    exact hi
  unfold openStreams
  cases current with
  | none =>
    refine hclosed _ fun s hs => ?_
    obtain ⟨i, hi⟩ := List.getElem?_of_mem hs
    exact hother i s hi (by simp)
  | some k =>
    have hk := h.bound k rfl
    have hsplit : c.streams = c.streams.take k ++ c.streams[k] :: c.streams.drop (k + 1) := by
      rw [← List.drop_eq_getElem_cons hk, List.take_append_drop]
    have hopen : c.streams[k].closed = false :=
      (h.oneOpen k _ (List.getElem?_eq_getElem hk)).2 rfl
    have hfront : (c.streams.take k).countP (fun s => !s.closed) = 0 := by
      refine hclosed _ fun s hs => ?_
      obtain ⟨i, hi⟩ := List.getElem?_of_mem hs
      have hlt : i < k := by
        have := (List.getElem?_eq_some_iff.1 hi).1
        rw [List.length_take] at this
        omega
      rw [List.getElem?_take_of_lt hlt] at hi
      exact hother i s hi (by simp; omega)
    have hback : (c.streams.drop (k + 1)).countP (fun s => !s.closed) = 0 := by
      refine hclosed _ fun s hs => ?_
      obtain ⟨i, hi⟩ := List.getElem?_of_mem hs
      rw [List.getElem?_drop] at hi
      exact hother _ s hi (by simp; omega)
    rw [hsplit, List.countP_append, List.countP_cons, hfront, hback, hopen]
    rfl

/-- One chain while the client is live, none when it is over. -/
theorem Chain.count {c : Client} (h : c.Chain) :
    c.openStreams ≤ 1 ∧ (¬ c.Over → c.chains = 1) ∧ (c.Over → c.chains = 0) := by
  unfold chains
  cases h with
  | ticketing h live =>
    rw [h.openStreams_eq, h.pending]
    exact ⟨Nat.zero_le _, fun _ => by simp [leads], fun hover => absurd hover live⟩
  | reading h live =>
    rw [h.openStreams_eq, h.pending]
    exact ⟨Nat.zero_le _, fun _ => by simp [leads], fun hover => absurd hover live⟩
  | streaming i tasks h =>
    have hidle : tasks.countP c.leads = 0 := by
      rcases h.idle with ⟨-, rfl⟩ | ⟨handle, delayMs, -, rfl⟩ <;> rfl
    rw [h.shape.openStreams_eq, h.shape.pending, hidle]
    exact ⟨Nat.le_refl _, fun _ => rfl, fun hover => absurd hover h.live⟩
  | waiting handle delayMs h live =>
    rw [h.openStreams_eq, h.pending]
    exact ⟨Nat.zero_le _, fun _ => rfl, fun hover => absurd hover live⟩
  | waking handle delayMs h live =>
    rw [h.openStreams_eq, h.pending]
    exact ⟨Nat.zero_le _, fun _ => rfl, fun hover => absurd hover live⟩
  | polling h live =>
    rw [h.openStreams_eq, h.pending]
    exact ⟨Nat.zero_le _, fun _ => rfl, fun hover => absurd hover live⟩
  | finished h gone =>
    rw [h.openStreams_eq, h.pending]
    exact ⟨Nat.zero_le _, fun live => absurd gone live, fun _ => rfl⟩

end Client

open Client

end Pumpbug.Web.Stream
