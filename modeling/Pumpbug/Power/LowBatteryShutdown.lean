import Pumpbug.Num
import Pumpbug.Lib.Run
import Pumpbug.Lib.Clock

/-!
# Shutdown on a low battery

`LowBatteryShutdownPolicy` asks for a shutdown when a battery that has read low has not recovered
fifteen seconds later.  `PowerManager::updateBatteryPolicies` polls the battery for it, and resets
it when the shutdown it asked for does not happen.
-/

namespace Pumpbug.Power

open Lib

structure LowBatteryShutdownPolicy where
  lowVoltageObserved : Bool := false
  shutdownRequested : Bool := false
  lowVoltageStartedMs : U32 := 0
  deriving DecidableEq

namespace LowBatteryShutdownPolicy

def kLowBatteryConfirmationVoltageMv : ℤ := 3450
def kRecoveryVoltageMv : ℤ := 3500
def kConfirmationMs : U32 := 15000

inductive Decision
  | none
  | shutdown
  deriving DecidableEq

def reset (_ : LowBatteryShutdownPolicy) : LowBatteryShutdownPolicy :=
  { lowVoltageObserved := false, shutdownRequested := false, lowVoltageStartedMs := 0 }

/-- A missing sample provides no evidence that the battery recovered. -/
def update (p : LowBatteryShutdownPolicy) (voltageMv : ℤ) (hasExternalPower : Bool) (nowMs : U32) :
    LowBatteryShutdownPolicy × Decision :=
  if hasExternalPower then (p.reset, .none)
  else if voltageMv ≤ 0 then (p, .none)
  else if p.shutdownRequested then (p, .none)
  else if !p.lowVoltageObserved then
    if kLowBatteryConfirmationVoltageMv < voltageMv then (p, .none)
    else ({ p with lowVoltageObserved := true, lowVoltageStartedMs := nowMs }, .none)
  else if kRecoveryVoltageMv ≤ voltageMv then (p.reset, .none)
  else if nowMs - p.lowVoltageStartedMs < kConfirmationMs then (p, .none)
  else ({ p with shutdownRequested := true }, .shutdown)

def confirmationActive (p : LowBatteryShutdownPolicy) : Bool := p.lowVoltageObserved

/-! ## Histories -/

/-- A battery reading at a true time; a voltage that is not positive is a missing sample. -/
structure Reading where
  voltageMv : ℤ
  hasExternalPower : Bool
  timeMs : ℕ
  deriving DecidableEq

inductive Input
  | reading (r : Reading)
  | reset
  deriving DecidableEq

/-- What the policy makes of one input. -/
def react (p : LowBatteryShutdownPolicy) : Input → LowBatteryShutdownPolicy × Decision
  | .reading r => p.update r.voltageMv r.hasExternalPower (Clock.reading 32 r.timeMs)
  | .reset => (p.reset, .none)

def step (p : LowBatteryShutdownPolicy) (i : Input) : LowBatteryShutdownPolicy := (p.react i).1

/-- The policy after the inputs `h`. -/
def policyAfter (h : List Input) : LowBatteryShutdownPolicy := exec step {} h

end LowBatteryShutdownPolicy

/-! ## The power manager -/

open LowBatteryShutdownPolicy (Input Reading)

structure BatteryStatus where
  voltageMv : ℤ
  hasExternalPower : Bool
  deriving DecidableEq

def kBatteryPollIntervalMs : U32 := 5000

/-- The part of `PowerManager` that polls the battery. -/
structure BatteryPolling where
  lowBatteryShutdown : LowBatteryShutdownPolicy := {}
  statusLedPowerSavingEnabled : Bool := true
  lowBatteryShutdownEnabled : Bool := true
  lowBatteryDisplayModeEnabled : Bool := false
  batteryPollStarted : Bool := false
  lastBatteryPollMs : U32 := 0
  deriving DecidableEq

namespace BatteryPolling

/-- No poll is due at `nowMs`. -/
def idle (m : BatteryPolling) (nowMs : U32) : Bool :=
  (!m.statusLedPowerSavingEnabled && !m.lowBatteryShutdownEnabled) ||
    (m.batteryPollStarted && nowMs - m.lastBatteryPollMs < kBatteryPollIntervalMs)

/-- `shutdownIfOnBattery` tells whether a shutdown that is asked for goes through. -/
def updateBatteryPolicies (m : BatteryPolling) (nowMs : U32) (battery : BatteryStatus)
    (shutdownIfOnBattery : Bool) : BatteryPolling :=
  if m.idle nowMs then m
  else
    let m := { m with batteryPollStarted := true, lastBatteryPollMs := nowMs }
    if !m.lowBatteryShutdownEnabled then m
    else
      let u := m.lowBatteryShutdown.update battery.voltageMv battery.hasExternalPower nowMs
      let m := { m with
        lowBatteryShutdown := u.1, lowBatteryDisplayModeEnabled := u.1.confirmationActive }
      if u.2 = .shutdown ∧ !shutdownIfOnBattery then
        { m with lowBatteryShutdown := m.lowBatteryShutdown.reset }
      else m

def enableLowBatteryShutdown (m : BatteryPolling) : BatteryPolling :=
  { m with lowBatteryShutdownEnabled := true, lowBatteryShutdown := m.lowBatteryShutdown.reset,
           batteryPollStarted := false }

def disableLowBatteryShutdown (m : BatteryPolling) : BatteryPolling :=
  { m with lowBatteryShutdownEnabled := false, lowBatteryShutdown := m.lowBatteryShutdown.reset,
           lowBatteryDisplayModeEnabled := false }

def enableStatusLedPowerSaving (m : BatteryPolling) : BatteryPolling :=
  { m with statusLedPowerSavingEnabled := true, batteryPollStarted := false }

def disableStatusLedPowerSaving (m : BatteryPolling) : BatteryPolling :=
  { m with statusLedPowerSavingEnabled := false }

inductive Call
  | updateBatteryPolicies (timeMs : ℕ) (battery : BatteryStatus) (shutdownIfOnBattery : Bool)
  | enableLowBatteryShutdown
  | disableLowBatteryShutdown
  | enableStatusLedPowerSaving
  | disableStatusLedPowerSaving
  deriving DecidableEq

def call (m : BatteryPolling) : Call → BatteryPolling
  | .updateBatteryPolicies timeMs battery ok =>
    m.updateBatteryPolicies (Clock.reading 32 timeMs) battery ok
  | .enableLowBatteryShutdown => m.enableLowBatteryShutdown
  | .disableLowBatteryShutdown => m.disableLowBatteryShutdown
  | .enableStatusLedPowerSaving => m.enableStatusLedPowerSaving
  | .disableStatusLedPowerSaving => m.disableStatusLedPowerSaving

/-- What a call passes on to the policy. -/
def passes (m : BatteryPolling) : Call → List Input
  | .updateBatteryPolicies timeMs battery ok =>
    let i := Input.reading ⟨battery.voltageMv, battery.hasExternalPower, timeMs⟩
    if m.idle (Clock.reading 32 timeMs) ∨ !m.lowBatteryShutdownEnabled then []
    else if (m.lowBatteryShutdown.react i).2 = .shutdown ∧ !ok then [i, .reset]
    else [i]
  | .enableLowBatteryShutdown | .disableLowBatteryShutdown => [.reset]
  | .enableStatusLedPowerSaving | .disableStatusLedPowerSaving => []

/-- One call moves the policy by what it passes on. -/
theorem call_lowBatteryShutdown (m : BatteryPolling) (c : Call) :
    (m.call c).lowBatteryShutdown =
      exec LowBatteryShutdownPolicy.step m.lowBatteryShutdown (m.passes c) := by
  cases c with
  | updateBatteryPolicies timeMs battery ok =>
    unfold call passes updateBatteryPolicies
    dsimp only
    by_cases hidle : m.idle (Clock.reading 32 timeMs) = true
    · rw [if_pos hidle, if_pos (Or.inl hidle)]
      rfl
    · rw [if_neg hidle]
      by_cases hoff : (!m.lowBatteryShutdownEnabled) = true
      · rw [if_pos hoff, if_pos (Or.inr hoff)]
        rfl
      · rw [if_neg hoff, if_neg (not_or.2 ⟨hidle, hoff⟩)]
        unfold LowBatteryShutdownPolicy.react
        dsimp only
        split_ifs <;> rfl
  | enableLowBatteryShutdown => rfl
  | disableLowBatteryShutdown => rfl
  | enableStatusLedPowerSaving => rfl
  | disableStatusLedPowerSaving => rfl

/-- What the calls `cs` pass on to the policy. -/
def heard : BatteryPolling → List Call → List Input
  | _, [] => []
  | m, c :: cs => m.passes c ++ heard (m.call c) cs

/-- **The manager runs the policy** on the readings of its polls. -/
theorem exec_lowBatteryShutdown (m : BatteryPolling) (cs : List Call) :
    (exec call m cs).lowBatteryShutdown =
      exec LowBatteryShutdownPolicy.step m.lowBatteryShutdown (m.heard cs) := by
  induction cs generalizing m with
  | nil => rfl
  | cons c cs ih => rw [exec_cons, ih, heard, exec_append, call_lowBatteryShutdown]

/-- The manager waits behind a request only if the shutdown went through. -/
theorem shutdownRequested_call {m : BatteryPolling} {c : Call}
    (hm : m.lowBatteryShutdown.shutdownRequested = false)
    (hc : (m.call c).lowBatteryShutdown.shutdownRequested = true) :
    ∃ timeMs battery, c = .updateBatteryPolicies timeMs battery true := by
  cases c with
  | updateBatteryPolicies timeMs battery ok =>
    cases ok with
    | true => exact ⟨timeMs, battery, rfl⟩
    | false =>
      exfalso
      unfold call updateBatteryPolicies at hc
      dsimp only at hc
      split_ifs at hc with hidle hoff hdecision
      · exact absurd hm (by rw [hc]; decide)
      · exact absurd hm (by rw [hc]; decide)
      · exact absurd hc Bool.false_ne_true
      · refine hdecision ⟨?_, rfl⟩
        unfold LowBatteryShutdownPolicy.update at hc ⊢
        split_ifs at hc ⊢ <;> first | rfl | exact absurd hc (by simp [LowBatteryShutdownPolicy.reset, hm])
  | enableLowBatteryShutdown => exact absurd hc Bool.false_ne_true
  | disableLowBatteryShutdown => exact absurd hc Bool.false_ne_true
  | enableStatusLedPowerSaving =>
    exact absurd (hm.symm.trans hc) Bool.false_ne_true
  | disableStatusLedPowerSaving =>
    exact absurd (hm.symm.trans hc) Bool.false_ne_true

end BatteryPolling

end Pumpbug.Power
