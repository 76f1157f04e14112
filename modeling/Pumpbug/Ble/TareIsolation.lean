import Pumpbug.Ble.LinkSteps
import Pumpbug.Lib.Run
import Mathlib.Data.List.Perm.Basic

/-!
# Tares stay in their session

A request captured an epoch; what it captured stands while the service only moves on, so the epoch
of a command that matches is the current one.  A request is in one place at a time.
-/

namespace Pumpbug.Ble

open Lib

/-! ## Where a request can be -/

/-- The request that a command carries. -/
def Cmd.tares : Cmd → List Tare
  | .tare t => [t]
  | _ => []

namespace Ledger

variable (b : Ledger)

/-- Requests whose epoch has still to be compared. -/
def waiting : List Tare := b.requests ++ b.cmdQueue.flatMap Cmd.tares

/-- All requests that were not dropped. -/
def known : List Tare := b.waiting ++ b.writes.map Write.tare

end Ledger

namespace Link

/-- What a request captured is true of its past: the epoch stands for a number of sessions not
greater than now, and was captured in the session of that number unless none was current. -/
structure Captured (service : BleScaleService) (t : Tare) : Prop where
  epoch : t.epoch = BitVec.ofNat 32 t.seen
  past : t.seen ≤ service.connectionEpoch
  session : t.session = some t.seen ∨
    (t.session = none ∧ (t.seen = service.connectionEpoch → service.state ≠ .ready))

/-- A command was written in the session that was current when its epoch was captured. -/
def Write.Proper (w : Write) : Prop := w.tare.session = w.session ∧ w.session.isSome

structure TareInv (service : BleScaleService) (b : Ledger) : Prop where
  captured : ∀ t ∈ b.waiting, Captured service t
  fresh : ∀ t ∈ b.known, t.id < b.tares
  once : (b.known.map Tare.id).Nodup
  written : ∀ w ∈ b.writes, Write.Proper w

/-! ## The service moves on -/

/-- The number of sessions is kept and no session is resumed, or a session begins. -/
def Advances (service service' : BleScaleService) : Prop :=
  (service'.connectionEpoch = service.connectionEpoch ∧
    (service'.state = .ready → service.state = .ready)) ∨
  service'.connectionEpoch = service.connectionEpoch + 1

theorem Advances.refl (service : BleScaleService) : Advances service service := .inl ⟨rfl, id⟩

theorem advances_transition (service : BleScaleService) (next : ScaleState) :
    Advances service (service.transition next) := by
  unfold BleScaleService.transition
  by_cases hsame : service.state = next
  · rw [if_pos hsame]
    exact Advances.refl service
  · rw [if_neg hsame]
    by_cases hnext : next = .ready
    · right
      simp [hnext]
    · left
      simp [hnext]

theorem Captured.advance {service service' : BleScaleService} {t : Tare} (h : Captured service t)
    (hs : Advances service service') : Captured service' t where
  epoch := h.epoch
  past := by
    have := h.past
    rcases hs with ⟨he, -⟩ | he <;> omega
  session := by
    rcases h.session with hin | ⟨hnone, hnot⟩
    · exact .inl hin
    · refine .inr ⟨hnone, fun hseen => ?_⟩
      rcases hs with ⟨he, hready⟩ | he
      · exact fun hstate => hnot (hseen.trans he) (hready hstate)
      · -- the session that began is none that was seen
        have := h.past
        omega

/-! ## Steps on the ledger -/

theorem TareInv.advance {service service' : BleScaleService} {b : Ledger} (h : TareInv service b)
    (hs : Advances service service') : TareInv service' b where
  captured := fun t ht => (h.captured t ht).advance hs
  fresh := h.fresh
  once := h.once
  written := h.written

/-- Requests may move and be dropped. -/
theorem TareInv.move {service : BleScaleService} {b b' : Ledger} (h : TareInv service b)
    (hwaiting : b'.waiting.Subperm b.waiting) (hwrites : b'.writes = b.writes)
    (htares : b'.tares = b.tares) : TareInv service b' := by
  have hknown : b'.known.Subperm b.known := by
    unfold Ledger.known
    rw [hwrites]
    exact (List.subperm_append_right _).2 hwaiting
  refine ⟨?_, ?_, ?_, ?_⟩
  · exact fun t ht => h.captured t (hwaiting.subset ht)
  · rw [htares]
    exact fun t ht => h.fresh t (hknown.subset ht)
  · obtain ⟨ids, hperm, hsub⟩ := hknown
    exact (hperm.map Tare.id).nodup_iff.1 (h.once.sublist (hsub.map Tare.id))
  · rw [hwrites]
    exact h.written

theorem tareInv_boot : TareInv boot.service boot.ledger where
  captured := fun _ ht => absurd ht List.not_mem_nil
  fresh := fun _ ht => absurd ht List.not_mem_nil
  once := List.nodup_nil
  written := fun _ hw => absurd hw List.not_mem_nil

variable {l : Link}

theorem captured_now (l : Link) :
    Captured l.service ⟨l.connectionEpoch, l.tares, l.service.connectionEpoch, l.session⟩ where
  epoch := rfl
  past := Nat.le_refl _
  session := by
    unfold session
    by_cases hready : l.service.state = .ready
    · rw [if_pos hready]
      exact .inl rfl
    · rw [if_neg hready]
      exact .inr ⟨rfl, fun _ => hready⟩

/-- A new request is told from all others by its number. -/
theorem tareInv_captureTare (h : TareInv l.service l.ledger) :
    TareInv l.captureTare.service l.captureTare.ledger := by
  set t : Tare := ⟨l.connectionEpoch, l.tares, l.service.connectionEpoch, l.session⟩ with ht
  have hwaiting : l.captureTare.ledger.waiting.Perm (t :: l.ledger.waiting) := by
    show ((l.requests ++ [t]) ++ _).Perm _
    rw [List.append_assoc]
    exact List.perm_middle
  have hknown : l.captureTare.ledger.known.Perm (t :: l.ledger.known) := hwaiting.append_right _
  refine ⟨?_, ?_, ?_, h.written⟩
  · intro u hu
    rcases List.mem_cons.1 (hwaiting.mem_iff.1 hu) with rfl | hold
    · exact captured_now l
    · exact h.captured u hold
  · intro u hu
    show u.id < l.tares + 1
    rcases List.mem_cons.1 (hknown.mem_iff.1 hu) with rfl | hold
    · exact Nat.lt_succ_self _
    · have : u.id < l.tares := h.fresh u hold
      omega
  · rw [(hknown.map Tare.id).nodup_iff, List.map_cons, List.nodup_cons]
    refine ⟨fun hmem => ?_, h.once⟩
    obtain ⟨u, hu, hid⟩ := List.mem_map.1 hmem
    have : u.id < l.tares := h.fresh u hu
    have : u.id = l.tares := hid
    omega

/-- Sending takes a command to the end of the queue, or drops it. -/
theorem waiting_xQueueSend (l : Link) (cmd : Cmd) :
    (l.xQueueSend cmd).ledger.waiting.Subperm (l.ledger.waiting ++ cmd.tares) := by
  unfold xQueueSend
  by_cases hroom : l.cmdQueue.length < CMD_QUEUE_DEPTH
  · rw [if_pos hroom]
    unfold Ledger.waiting ledger
    simp only [List.flatMap_append, List.flatMap_singleton, List.append_assoc]
    exact List.Subperm.refl _
  · rw [if_neg hroom]
    exact (List.sublist_append_left _ _).subperm

theorem xQueueSend_keeps (l : Link) (cmd : Cmd) :
    (l.xQueueSend cmd).service = l.service ∧ (l.xQueueSend cmd).writes = l.writes ∧
      (l.xQueueSend cmd).tares = l.tares := by
  unfold xQueueSend
  split_ifs
  · exact ⟨rfl, rfl, rfl⟩
  · exact ⟨rfl, rfl, rfl⟩

theorem tareInv_xQueueSend (h : TareInv l.service l.ledger) {cmd : Cmd} (hcmd : cmd.tares = []) :
    TareInv (l.xQueueSend cmd).service (l.xQueueSend cmd).ledger := by
  obtain ⟨hservice, hwrites, htares⟩ := xQueueSend_keeps l cmd
  have hwaiting := waiting_xQueueSend l cmd
  rw [hcmd, List.append_nil] at hwaiting
  rw [hservice]
  exact h.move hwaiting hwrites htares

theorem tareInv_sendTare (h : TareInv l.service l.ledger) (i : ℕ) :
    TareInv (l.sendTare i).service (l.sendTare i).ledger := by
  unfold sendTare
  cases hi : l.requests[i]? with
  | none => exact h
  | some t =>
    obtain ⟨hlt, rfl⟩ := List.getElem?_eq_some_iff.1 hi
    set t := l.requests[i] with ht
    set rest : Link := { l with requests := l.requests.eraseIdx i } with hrest
    obtain ⟨hservice, hwrites, htares⟩ := xQueueSend_keeps rest (.tare t)
    have hsplit : (rest.ledger.waiting ++ [t]).Perm l.ledger.waiting := by
      have hmove : (rest.ledger.waiting ++ [t]).Perm (t :: rest.ledger.waiting) :=
        List.perm_append_singleton t _
      exact hmove.trans ((List.getElem_cons_eraseIdx_perm hlt).append_right _)
    have hwaiting := (waiting_xQueueSend rest (.tare t)).trans hsplit.subperm
    show TareInv (rest.xQueueSend (.tare t)).service (rest.xQueueSend (.tare t)).ledger
    rw [hservice]
    exact h.move hwaiting hwrites htares

/-! ## The manager -/

/-- Fewer than `2 ^ 32` sessions began since the command that is about to be drained was
captured. -/
def Prompt (l : Link) : Prop :=
  l.pc = .drain → ∀ t ∈ l.cmdQueue.head?.toList.flatMap Cmd.tares,
    l.service.connectionEpoch < t.seen + 2 ^ 32

instance : DecidablePred Prompt := fun l =>
  inferInstanceAs (Decidable (l.pc = .drain → ∀ t ∈ l.cmdQueue.head?.toList.flatMap Cmd.tares,
    l.service.connectionEpoch < t.seen + 2 ^ 32))

/-- An epoch that matches in time is the current one, and was captured in its session. -/
theorem Captured.current {t : Tare} (h : Captured l.service t)
    (htime : l.service.connectionEpoch < t.seen + 2 ^ 32) (hready : l.service.state = .ready)
    (hepoch : t.epoch = l.connectionEpoch) : t.session = l.session := by
  have hpast := h.past
  have hmod : t.seen % 2 ^ 32 = l.service.connectionEpoch % 2 ^ 32 := by
    have heq := congrArg BitVec.toNat hepoch
    rw [h.epoch, connectionEpoch, BitVec.toNat_ofNat, BitVec.toNat_ofNat] at heq
    exact heq
  have hseen : t.seen = l.service.connectionEpoch := by omega
  have hnow : l.session = some l.service.connectionEpoch := by
    unfold Link.session
    rw [if_pos hready]
  rw [hnow, ← hseen]
  rcases h.session with hin | ⟨-, hnot⟩
  · exact hin
  · exact absurd hready (hnot hseen)

theorem tareInv_drainCommands (h : TareInv l.service l.ledger) (hpc : l.pc = .drain)
    (hprompt : l.Prompt) : TareInv l.drainCommands.service l.drainCommands.ledger := by
  unfold drainCommands
  cases hqueue : l.cmdQueue with
  | nil =>
    rw [show l.ledger = ⟨l.requests, [], l.tares, l.writes⟩ by rw [ledger, hqueue]] at h
    exact h
  | cons cmd rest =>
    -- a command is taken off the queue
    have hwaiting : l.ledger.waiting = l.requests ++ (cmd.tares ++ rest.flatMap Cmd.tares) := by
      unfold Ledger.waiting ledger
      rw [hqueue, List.flatMap_cons]
    set taken : Link := { l with cmdQueue := rest } with htaken
    have hrest : taken.ledger.waiting.Subperm l.ledger.waiting := by
      rw [hwaiting]
      exact ((List.sublist_append_right _ _).append_left _).subperm
    have hdrop : TareInv taken.service taken.ledger := h.move hrest rfl rfl
    cases cmd with
    | tare t =>
      dsimp only
      split_ifs with hmatch
      · have hready : l.service.state = .ready := hmatch.2.1
        have hmem : t ∈ l.ledger.waiting := by
          rw [hwaiting]
          simp [Cmd.tares]
        have hfront : t ∈ l.cmdQueue.head?.toList.flatMap Cmd.tares := by
          rw [hqueue]
          simp [Cmd.tares]
        have hsession : t.session = l.session :=
          (h.captured t hmem).current (hprompt hpc t hfront) hready hmatch.2.2
        have hsome : l.session.isSome := by
          unfold session
          rw [if_pos hready]
          rfl
        set wrote : Link := { taken with writes := l.writes ++ [⟨t, l.session⟩] } with hwrote
        have hknown : wrote.ledger.known.Perm l.ledger.known := by
          have hlast : wrote.ledger.known =
              (taken.ledger.waiting ++ l.writes.map Write.tare) ++ [t] := by
            show taken.ledger.waiting ++ (l.writes ++ [(⟨t, l.session⟩ : Write)]).map Write.tare = _
            rw [List.map_append, List.append_assoc]
            rfl
          have hfirst : l.ledger.known.Perm
              (t :: (taken.ledger.waiting ++ l.writes.map Write.tare)) := by
            unfold Ledger.known
            rw [hwaiting]
            exact (List.perm_middle : (l.requests ++ t :: _).Perm _).append_right _
          rw [hlast]
          exact (List.perm_append_singleton t _).trans hfirst.symm
        refine ⟨hdrop.captured, ?_, ?_, ?_⟩
        · exact fun u hu => h.fresh u (hknown.mem_iff.1 hu)
        · exact (hknown.map Tare.id).nodup_iff.2 h.once
        · intro w hw
          rcases List.mem_append.1 hw with hold | hnew
          · exact h.written w hold
          · rw [List.mem_singleton.1 hnew]
            exact ⟨hsession, hsome⟩
      · exact hdrop
      · exact hdrop
    | stopController =>
      dsimp only
      split_ifs
      · exact hdrop
      · exact hdrop
    | startController =>
      dsimp only
      split_ifs
      · exact hdrop
      · exact hdrop
    | other => exact hdrop

/-- Behind the queue the manager has nothing to do with commands, and at most moves the service
on. -/
structure Onward (l l' : Link) : Prop where
  ledger : l'.ledger = l.ledger
  service : Advances l.service l'.service

theorem Onward.quiet {l l' : Link} (hledger : l'.ledger = l.ledger)
    (hservice : l'.service = l.service) : Onward l l' :=
  ⟨hledger, hservice ▸ Advances.refl _⟩

theorem Onward.transition {l l' : Link} {next : ScaleState} (hledger : l'.ledger = l.ledger)
    (hservice : l'.service = l.service.transition next) : Onward l l' :=
  ⟨hledger, hservice ▸ advances_transition _ next⟩

theorem Apart.onward {l l' : Link} (h : Apart l l') : Onward l l' := by
  rcases h.service with hsame | ⟨next, -, hnext⟩
  · exact .quiet h.ledger hsame
  · exact .transition h.ledger hnext

/-- Clearing the reading is no move of the service. -/
theorem advances_doHandshake (service : BleScaleService) : Advances service service.doHandshake :=
  .inl ⟨rfl, id⟩

theorem onward_manage (l : Link) (env : Env) (hends : l.pc.Ends) (hdrain : l.pc ≠ .drain) :
    Onward l (l.manage env) := by
  by_cases hdial : l.pc.Dialling
  · unfold manage
    cases hat : l.pc with
    | tryConnect =>
      show Onward l (l.tryConnect env)
      unfold tryConnect
      split_ifs
      · exact .quiet rfl rfl
      · exact .quiet rfl rfl
      · exact .quiet rfl rfl
    | clear =>
      show Onward l (l.clearReading env)
      unfold clearReading
      split_ifs
      · exact ⟨rfl, advances_doHandshake l.service⟩
      · exact .quiet rfl rfl
    | issue => exact .quiet rfl rfl
    | subscribe => exact .quiet rfl rfl
    | identify =>
      show Onward l (l.identify env)
      unfold identify
      split_ifs
      · exact .quiet rfl rfl
      · exact .quiet rfl rfl
    | enter => exact @Onward.transition _ _ .ready rfl rfl
    | drain | select | run | teardown _ _ | leave _ _ =>
      rw [hat] at hdial
      exact False.elim hdial
  · exact (apart_manage l env hends hdrain hdial).onward

/-! ## The host -/

theorem onward_notify (l : Link) (data : Bytes) : Onward l (l.notify data) := by
  rcases notify_cases l data with h | ⟨_, _, _, -, -, -, -, -, h⟩
  · rw [h]
    exact .quiet rfl rfl
  · rw [h]
    exact .quiet rfl rfl

theorem onward_onEvent (l : Link) (arrivalMs : U32) : Onward l (l.onEvent arrivalMs) := by
  unfold onEvent
  cases l.pending with
  | nil => exact .quiet rfl rfl
  | cons ev rest =>
    cases ev with
    | weight grams stable scaleTimerMs => exact ⟨rfl, .inl ⟨rfl, id⟩⟩
    | battery percent => exact .quiet rfl rfl
    | timer ms => exact .quiet rfl rfl
    | key code => exact .quiet rfl rfl
    | unknown => exact .quiet rfl rfl

theorem Onward.tareInv {l l' : Link} (h : Onward l l') (hinv : TareInv l.service l.ledger) :
    TareInv l'.service l'.ledger := by
  rw [h.ledger]
  exact hinv.advance h.service

/-- **One step.** Whatever task takes it. -/
theorem tareInv_step (h : TareInv l.service l.ledger) (hends : l.pc.Ends) (s : Step)
    (hprompt : ∀ env, s = .manage env → l.Prompt) :
    TareInv (l.step s).service (l.step s).ledger := by
  cases s with
  | captureTare => exact tareInv_captureTare h
  | sendTare i => exact tareInv_sendTare h i
  | send cmd =>
    cases cmd with
    | tare t => exact h
    | stopController => exact tareInv_xQueueSend h rfl
    | startController => exact tareInv_xQueueSend h rfl
    | other => exact tareInv_xQueueSend h rfl
  | manage env =>
    by_cases hpc : l.pc = .drain
    · show TareInv (l.manage env).service (l.manage env).ledger
      unfold manage
      rw [hpc]
      exact tareInv_drainCommands h hpc (hprompt env rfl)
    · exact (onward_manage l env hends hpc).tareInv h
  | notify data => exact (onward_notify l data).tareInv h
  | event arrivalMs => exact (onward_onEvent l arrivalMs).tareInv h
  | disconnected => exact h
  | deviceFound => exact h

end Link

end Pumpbug.Ble
