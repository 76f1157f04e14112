import Pumpbug.Ble.ScaleLink

/-!
# What the manager does outside the handshake

Between the queue and the connect the manager leaves alone what callers and the host work with: it
picks a mode, runs down a connection, and moves the service out of a session at most.
-/

namespace Pumpbug.Ble

open Lib

/-- The part of the link that concerns commands. -/
structure Ledger where
  requests : List Tare
  cmdQueue : List Cmd
  tares : ℕ
  writes : List Write

/-- The part of the link that receives. -/
structure Rx where
  rxGenerationIssued : U32
  rxHostGeneration : U32
  rxReceiver : Bytes
  subscription : Option U32
  pending : List AcaiaV2.Event
  issued : ℕ
  taken : ℕ
  heard : Bytes

/-- From the connect on to the session. -/
def Pc.Dialling : Pc → Prop
  | .tryConnect | .clear | .issue | .subscribe | .identify | .enter => True
  | _ => False

/-- Connected, with no subscription yet. -/
def Pc.Silent : Pc → Prop
  | .clear | .issue | .subscribe => True
  | _ => False

/-- On the way to the end of a connection, no session is next. -/
def Pc.Ends (pc : Pc) : Prop :=
  ∀ next mode, pc = .teardown next mode ∨ pc = .leave next mode → next ≠ .ready

/-- Where the manager goes outside the handshake: a connect is tried only while connecting. -/
def Pc.Leads (state : ScaleState) : Pc → Prop
  | .drain | .select | .run => True
  | .teardown next _ | .leave next _ => next ≠ .ready
  | .tryConnect => state = .connecting
  | _ => False

theorem Pc.Dialling.ends {pc : Pc} (h : pc.Dialling) : pc.Ends := by
  rintro next mode (rfl | rfl)
  · exact False.elim h
  · exact False.elim h

theorem Pc.Silent.unsubscribed {pc : Pc} (h : pc.Silent) {state : ScaleState}
    (hstate : state = .connecting) : ¬ (state = .ready ∨ pc = .identify ∨ pc = .enter) := by
  subst hstate
  rintro (hready | rfl | rfl)
  · exact ScaleState.noConfusion hready
  · exact h
  · exact h

theorem Pc.Leads.ends {state : ScaleState} {pc : Pc} (h : pc.Leads state) : pc.Ends := by
  rintro next mode (rfl | rfl)
  · exact h
  · exact h

theorem Pc.Leads.not_handshake {state : ScaleState} {pc : Pc} (h : pc.Leads state) :
    ¬ pc.Silent ∧ pc ≠ .issue ∧ pc ≠ .identify ∧ pc ≠ .enter := by
  cases pc with
  | clear | issue | subscribe | identify | enter => exact False.elim h
  | _ => exact ⟨id, Pc.noConfusion, Pc.noConfusion, Pc.noConfusion⟩

theorem Pc.Leads.dialling {state : ScaleState} {pc : Pc} (h : pc.Leads state) (hpc : pc.Dialling) :
    pc = .tryConnect ∧ state = .connecting := by
  cases pc with
  | tryConnect => exact ⟨rfl, h⟩
  | drain | select | run | teardown _ _ | leave _ _ => exact False.elim hpc
  | clear | issue | subscribe | identify | enter => exact False.elim h

namespace Link

def ledger (l : Link) : Ledger := ⟨l.requests, l.cmdQueue, l.tares, l.writes⟩

def rx (l : Link) : Rx :=
  ⟨l.rxGenerationIssued, l.rxHostGeneration, l.rxReceiver, l.subscription, l.pending, l.issued, l.taken,
    l.heard⟩

/-- A step that leaves requests and receiving alone, and starts no session. -/
structure Apart (l l' : Link) : Prop where
  ledger : l'.ledger = l.ledger
  rx : l'.rx = l.rx
  leads : l'.pc.Leads l'.service.state
  service : l'.service = l.service ∨
    ∃ next, next ≠ .ready ∧ l'.service = l.service.transition next

theorem Apart.still {l l' : Link} (hledger : l'.ledger = l.ledger) (hrx : l'.rx = l.rx)
    (hservice : l'.service = l.service) (hleads : l'.pc.Leads l'.service.state) : Apart l l' :=
  ⟨hledger, hrx, hleads, .inl hservice⟩

theorem Apart.transition {l l' : Link} {next : ScaleState} (hnext : next ≠ .ready)
    (hledger : l'.ledger = l.ledger) (hrx : l'.rx = l.rx)
    (hservice : l'.service = l.service.transition next) (hleads : l'.pc.Leads l'.service.state) :
    Apart l l' :=
  ⟨hledger, hrx, hleads, .inr ⟨next, hnext, hservice⟩⟩

theorem enterMode_keeps (l : Link) (mode : Mode) :
    (l.enterMode mode).ledger = l.ledger ∧ (l.enterMode mode).rx = l.rx ∧
      (l.enterMode mode).service = l.service := by
  cases mode with
  | idle => exact ⟨rfl, rfl, rfl⟩
  | connect => exact ⟨rfl, rfl, rfl⟩
  | diagScan => exact ⟨rfl, rfl, rfl⟩

theorem apart_selectMode (l : Link) (env : Env) : Apart l (l.selectMode env) := by
  obtain ⟨hledger, hrx, hservice⟩ := enterMode_keeps l env.desired
  obtain ⟨hledger', hrx', hservice'⟩ := enterMode_keeps l .idle
  unfold selectMode
  cases l.controllerState with
  | running =>
    dsimp only
    split_ifs
    · exact .still rfl rfl rfl trivial
    · exact .still rfl rfl rfl ScaleState.noConfusion
    · exact .still hledger hrx hservice trivial
  | stopping =>
    dsimp only
    by_cases hmode : l.mode = .connect
    · rw [if_pos hmode]
      exact .still rfl rfl rfl ScaleState.noConfusion
    · rw [if_neg hmode]
      exact .still hledger' hrx' hservice' trivial
  | starting => exact .still rfl rfl rfl trivial
  | stopped => exact .still rfl rfl rfl trivial
  | failed => exact .still rfl rfl rfl trivial

theorem apart_leaveState (l : Link) {next : ScaleState} (hnext : next ≠ .ready) (mode : Mode) :
    Apart l (l.leaveState next mode) := by
  unfold leaveState
  by_cases hoff : next = .off
  · rw [if_pos hoff]
    obtain ⟨hledger, hrx, hservice⟩ := enterMode_keeps
      (({ l with hasWriteChar := false, foundDevice := false } : Link).transition next) mode
    refine .transition hnext hledger hrx hservice ?_
    dsimp only
    split_ifs
    · exact trivial
    · exact trivial
  · rw [if_neg hoff]
    exact .transition hnext rfl rfl rfl trivial

theorem apart_runMode (l : Link) (env : Env) : Apart l (l.runMode env) := by
  unfold runMode
  dsimp only
  cases l.mode with
  | idle => exact .still rfl rfl rfl trivial
  | diagScan => exact .still rfl rfl rfl trivial
  | connect =>
    dsimp only
    cases hstate : l.service.state with
    | off =>
      dsimp only
      split_ifs
      · exact @Apart.transition _ _ .scanning ScaleState.noConfusion rfl rfl rfl trivial
      · exact .still rfl rfl rfl trivial
    | scanning =>
      dsimp only
      split_ifs
      · exact @Apart.transition _ _ .connecting ScaleState.noConfusion rfl rfl rfl trivial
      · exact .still rfl rfl rfl trivial
    | reconnecting =>
      dsimp only
      split_ifs
      · exact @Apart.transition _ _ .connecting ScaleState.noConfusion rfl rfl rfl trivial
      · exact .still rfl rfl rfl trivial
    | connecting => exact .still rfl rfl rfl hstate
    | ready =>
      dsimp only
      split_ifs
      · exact .still rfl rfl rfl ScaleState.noConfusion
      · exact .still rfl rfl rfl ScaleState.noConfusion
      · exact .still rfl rfl rfl trivial

/-- A failed attempt ends in scanning or reconnecting. -/
theorem leads_giveUp (l : Link) (state : ScaleState) : l.giveUp.pc.Leads state := by
  unfold giveUp
  dsimp only
  split_ifs
  · exact ScaleState.noConfusion
  · exact ScaleState.noConfusion

/-- The manager between the queue and the connect. -/
theorem apart_manage (l : Link) (env : Env) (hends : l.pc.Ends) (hdrain : l.pc ≠ .drain)
    (hdial : ¬ l.pc.Dialling) : Apart l (l.manage env) := by
  unfold manage
  cases hpc : l.pc with
  | drain => exact absurd hpc hdrain
  | select => exact apart_selectMode l env
  | run => exact apart_runMode l env
  | teardown next mode => exact .still rfl rfl rfl (hends next mode (.inl hpc))
  | leave next mode => exact apart_leaveState l (hends next mode (.inr hpc)) mode
  | tryConnect | clear | issue | subscribe | identify | enter =>
    rw [hpc] at hdial
    exact absurd trivial hdial

end Link

end Pumpbug.Ble
