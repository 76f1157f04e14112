import Pumpbug.Ble.StreamIsolation
import Pumpbug.Ble.TareIsolation

/-!
# Sessions are isolated

Whatever the order of the tasks' steps, commands and weights stay in the session they belong to, as
long as neither of the two 32-bit numbers that tell sessions apart comes round unnoticed.
-/

namespace Pumpbug.Ble

open Lib AcaiaV2

namespace Link

/-- A written tare belongs to the session it was written in, no request is written twice, and the
weight of a ready link was decoded from bytes of the session's subscription. -/
structure Isolated (l : Link) : Prop where
  written : ∀ w ∈ l.writes, w.tare.session = w.session ∧ w.session.isSome
  once : (l.writes.map fun w => w.tare.id).Nodup
  weight : l.service.snapshot.state = .ready → l.service.snapshot.weight.timestampMs ≠ 0 →
    l.subscription = some l.rxGenerationIssued ∧ ReadFrom l.heard l.service.snapshot.weight

/-- Fewer than `2 ^ 32` sessions begin between the capture of a request and its turn in the queue,
and fewer than `2 ^ 32 - 1` subscriptions are made from one of which a notification is accepted to
the next. -/
def Timely (l : Link) : Step → Prop
  | .manage _ => l.Prompt
  | .notify _ => l.InTime
  | _ => True

instance (l : Link) : DecidablePred l.Timely := fun s => by
  cases s <;> unfold Timely <;> infer_instance

theorem isolated_of_inv {l : Link} (htares : TareInv l.service l.ledger) (hstream : StreamInv l) :
    Isolated l where
  written := htares.written
  once := by
    have hknown := htares.once
    unfold Ledger.known at hknown
    rw [List.map_append, List.map_map] at hknown
    exact hknown.of_append_right
  weight := fun hready hstamp => by
    refine ⟨hstream.subscribed (.inl hready), ?_⟩
    exact hstream.weight.resolve_left hstamp

/-- The step lemma of both invariants. -/
theorem inv_step (l : Link) (s : Step) (h : TareInv l.service l.ledger ∧ StreamInv l)
    (htimely : l.Timely s) :
    TareInv (l.step s).service (l.step s).ledger ∧ StreamInv (l.step s) := by
  obtain ⟨htares, hstream⟩ := h
  constructor
  · refine tareInv_step htares hstream.ends s fun env hs => ?_
    subst hs
    exact htimely
  · refine streamInv_step hstream s fun data hs => ?_
    subst hs
    exact htimely

/-- **Session isolation.** In every state of every timely run. -/
theorem session_isolation (steps : List Step) (h : Along step Timely boot steps) :
    Isolated (exec step boot steps) := by
  obtain ⟨htares, hstream⟩ := h.exec_invariant
    (fun l => TareInv l.service l.ledger ∧ StreamInv l) inv_step ⟨tareInv_boot, streamInv_boot⟩
  exact isolated_of_inv htares hstream

/-! ## Runs of many sessions -/

def online : Env := ⟨.connect, true, false⟩

/-- From boot to the first session. -/
def dial : List Step :=
  List.replicate 6 (.manage online) ++ .deviceFound :: List.replicate 12 (.manage online)

/-- A weight frame in two pieces. -/
def frontHalf : Bytes := [0xEF, 0xDD, 0x0C, 0x08, 0x05, 0x64, 0x00, 0x00, 0x00]

def backHalf : Bytes := [0x01, 0x00, 0x6D, 0x05]

def weightFrame : Frame where
  type := Msg.EVENT
  body := [0x08, 0x05, 0x64, 0x00, 0x00, 0x00, 0x01, 0x00]
  payload := [0x05, 0x64, 0x00, 0x00, 0x00, 0x01, 0x00]
  wire := frontHalf ++ backHalf

/-- A tare and a weight within the first session. -/
theorem session_isolation_dial :
    (exec step boot (dial ++ [.captureTare, .sendTare 0, .manage online, .notify frontHalf,
        .notify backHalf, .event 5])).writes = [⟨⟨1, 0, 1, some 1⟩, some 1⟩] ∧
      Isolated (exec step boot (dial ++ [.captureTare, .sendTare 0, .manage online,
        .notify frontHalf, .notify backHalf, .event 5])) :=
  ⟨by decide +kernel, session_isolation _ (by decide +kernel)⟩

/-- The link is lost in a session, and connects again. -/
def reconnect : List Step :=
  .disconnected :: (List.replicate 5 (.manage online) ++
    .deviceFound :: List.replicate 12 (.manage online))

/-- A link in its `n`-th session, under the `n`-th generation: what callers and the host hold on
to. -/
def inSession (n : ℕ) (rxGeneration : U32) (requests : List Tare) (rxHostGeneration : U32)
    (rxReceiver heard : Bytes) (taken : ℕ) : Link :=
  { boot with
    service := { state := .ready, connectionEpoch := n }
    mode := .connect
    hadReadyThisEnable := true
    rxGenerationIssued := rxGeneration
    hasWriteChar := true
    foundDevice := true
    rxAcceptedGeneration := rxGeneration
    requests := requests
    subscription := some rxGeneration
    rxHostGeneration := rxHostGeneration
    rxReceiver := rxReceiver
    tares := requests.length
    issued := n
    taken := taken
    heard := heard }

variable (n : ℕ) (requests : List Tare) (rxHostGeneration : U32) (rxReceiver heard : Bytes) (taken : ℕ)

theorem exec_reconnect :
    exec step (inSession n (generation n) requests rxHostGeneration rxReceiver heard taken) reconnect =
      inSession (n + 1) (generation (n + 1)) requests rxHostGeneration rxReceiver [] taken := by
  simp [reconnect, List.replicate, inSession, boot, step, manage, drainCommands, selectMode, online,
    runMode, teardownClient, leaveState, transition, BleScaleService.transition, tryConnect,
    clearReading, issueGeneration, subscribe, identify, enterReady, BleScaleService.doHandshake,
    generation]

/-- What callers and the host hold on to stays through any number of sessions. -/
theorem exec_reconnects (k : ℕ) :
    exec step (inSession n (generation n) requests rxHostGeneration rxReceiver heard taken)
        (List.replicate (k + 1) reconnect).flatten =
      inSession (n + 1 + k) (generation (n + 1 + k)) requests rxHostGeneration rxReceiver [] taken := by
  induction k generalizing n heard with
  | zero =>
    rw [List.replicate_one, List.flatten_singleton]
    exact exec_reconnect n requests rxHostGeneration rxReceiver heard taken
  | succ k ih =>
    rw [List.replicate_succ, List.flatten_cons, exec_append, exec_reconnect, ih,
      show n + 1 + 1 + k = n + 1 + (k + 1) by omega]

/-- A frame is longer than the back half. -/
theorem not_readFrom_backHalf (weight : WeightReading) : ¬ ReadFrom backHalf weight := by
  rintro ⟨grams, stable, scaleTimerMs, ⟨wire, frame, hwire, hparse, -⟩, -⟩
  have hlen : wire.length ≤ 4 := hwire.length_le
  unfold parseWireFrame at hparse
  rw [if_pos (by omega)] at hparse
  exact absurd hparse (Option.some_ne_none frame).symm

theorem exec_dial_captureTare :
    exec step boot (dial ++ [.captureTare]) =
      inSession 1 (generation 1) [⟨1, 0, 1, some 1⟩] 0 [] [] 0 := rfl

theorem exec_dial_frontHalf :
    exec step boot (dial ++ [.notify frontHalf]) =
      inSession 1 (generation 1) [] 1 frontHalf frontHalf 1 := rfl

/-- A caller waits through `k + 1` sessions between the capture of the epoch and the queue. -/
def lateTare (k : ℕ) : List Step :=
  dial ++ [.captureTare] ++ (List.replicate (k + 1) reconnect).flatten ++
    [.sendTare 0, .manage online]

/-- Half a frame waits in the framer through `k + 1` sessions. -/
def lateFrame (k : ℕ) : List Step :=
  dial ++ [.notify frontHalf] ++ (List.replicate (k + 1) reconnect).flatten ++
    [.notify backHalf, .event 5]

/-- A request that was captured under the same epoch is written. -/
theorem writes_sendTare {t : Tare} (g : U32) (hepoch : t.epoch = BitVec.ofNat 32 n) :
    (exec step (inSession n g [t] 0 [] [] 0) [.sendTare 0, .manage online]).writes =
      [⟨t, some n⟩] := by
  simp [inSession, boot, step, sendTare, xQueueSend, CMD_QUEUE_DEPTH, manage, drainCommands,
    connectionEpoch, session, hepoch]

theorem not_isolated_lateTare (k : ℕ) (hround : (1 : U32) = BitVec.ofNat 32 (1 + 1 + k)) :
    ¬ Isolated (exec step boot (lateTare k)) := by
  intro h
  have hwrites : (exec step boot (lateTare k)).writes =
      [⟨⟨1, 0, 1, some 1⟩, some (1 + 1 + k)⟩] := by
    unfold lateTare
    rw [exec_append, exec_append, exec_dial_captureTare, exec_reconnects]
    exact writes_sendTare _ _ hround
  have hwritten : some 1 = some (1 + 1 + k) := (h.written _ (hwrites ▸ List.mem_cons_self)).1
  have := Option.some.inj hwritten
  omega

/-- A back half that is accepted under the same generation completes the frame. -/
theorem exec_backHalf :
    exec step (inSession n 1 [] 1 frontHalf [] 1) [.notify backHalf, .event 5] =
      { inSession n 1 [] 1 [] backHalf 1 with
        service :=
          { state := .ready, connectionEpoch := n, rxWeightCount := 1,
            weight := ⟨some 10, true, ScaleTime.UNKNOWN_MS, 1, 5⟩ }
        taken := n } := by
  have hpush : FrameFramer.push (MAX_FRAME + 1) frontHalf backHalf =
      some ([.frame weightFrame], []) := by
    decide +kernel
  have hevents : eventsOf [.frame weightFrame] = [.weight 10 true none] := by
    decide +kernel
  have hnotify : (inSession n 1 [] 1 frontHalf [] 1).notify backHalf =
      { inSession n 1 [] 1 [] backHalf 1 with
        pending := [.weight 10 true none]
        taken := n } := by
    simp [notify, onNotify, inSession, boot, hpush, hevents]
  have hservice : (inSession n 1 [] 1 [] backHalf 1).service.onEvent 5 ⟨some 10, true, none⟩ =
      { state := .ready, connectionEpoch := n, rxWeightCount := 1,
        weight := ⟨some 10, true, ScaleTime.UNKNOWN_MS, 1, 5⟩ } := by
    have hstamp : ensureMonotonicTimestamp 5 0 = 5 := by decide
    simp only [inSession, boot, BleScaleService.onEvent, hstamp]
    rfl
  rw [exec_cons, step, hnotify, exec_cons, exec_nil, step, onEvent]
  dsimp only
  rw [hservice]
  rfl

theorem not_isolated_lateFrame (k : ℕ) (hround : generation (1 + 1 + k) = 1) :
    ¬ Isolated (exec step boot (lateFrame k)) := by
  intro h
  have hlate : exec step boot (lateFrame k) =
      exec step (inSession (1 + 1 + k) 1 [] 1 frontHalf [] 1) [.notify backHalf, .event 5] := by
    unfold lateFrame
    rw [exec_append, exec_append, exec_dial_frontHalf, exec_reconnects, hround]
  rw [hlate, exec_backHalf] at h
  have hstamp : (5 : U32) ≠ 0 := by decide
  exact not_readFrom_backHalf _ (h.weight rfl hstamp).2

/-- The epoch and the generation come round: a tare is written, and a weight is reported, in a
session that neither belongs to. -/
theorem not_isolated_comeRound :
    ¬ Isolated (exec step boot (lateTare (2 ^ 32 - 1))) ∧
      ¬ Isolated (exec step boot (lateFrame (2 ^ 32 - 2))) := by
  constructor
  · exact not_isolated_lateTare _ rfl
  · refine not_isolated_lateFrame _ (BitVec.eq_of_toNat_eq ?_)
    rw [show 1 + 1 + (2 ^ 32 - 2) = (2 ^ 32 - 1) + 1 from rfl, generation_succ_toNat]
    rfl

end Link

end Pumpbug.Ble
