import Pumpbug.Num

/-!
# The two buttons

`Buttons.cpp`: each poll reads what the button library reports of the two buttons and returns at
most one gesture.  A button may hold a click back for a second one, and a hold for the other
button's.
-/

namespace Pumpbug

/-! ## Gestures -/

inductive Button
  | none
  | a
  | b
  | both
  deriving DecidableEq

def Button.code : Button → U8
  | .none => 0
  | .a => 1 <<< 4
  | .b => 1 <<< 5
  | .both => 1 <<< 4 ||| 1 <<< 5

inductive GestureKind
  | none
  | short
  | double
  | long
  | repeat_
  deriving DecidableEq

def GestureKind.code : GestureKind → U8
  | .none => 0
  | .short => 1 <<< 0
  | .double => 1 <<< 1
  | .long => 1 <<< 2
  | .repeat_ => 1 <<< 3

inductive Gesture
  | none
  | aShort
  | aDouble
  | aLong
  | aRepeat
  | bShort
  | bDouble
  | bLong
  | bRepeat
  | abLong
  deriving DecidableEq

def Gesture.code : Gesture → U8
  | .none => 0
  | .aShort => Button.code .a ||| GestureKind.code .short
  | .aDouble => Button.code .a ||| GestureKind.code .double
  | .aLong => Button.code .a ||| GestureKind.code .long
  | .aRepeat => Button.code .a ||| GestureKind.code .repeat_
  | .bShort => Button.code .b ||| GestureKind.code .short
  | .bDouble => Button.code .b ||| GestureKind.code .double
  | .bLong => Button.code .b ||| GestureKind.code .long
  | .bRepeat => Button.code .b ||| GestureKind.code .repeat_
  | .abLong => Button.code .a ||| Button.code .b ||| GestureKind.code .long

/-- The code has the bits of the button. -/
def hasButton (code : U8) (button : Button) : Bool :=
  button.code ≠ 0 && code &&& button.code = button.code

def kindOf (gesture : Gesture) : GestureKind :=
  let kindMask := GestureKind.code .short ||| GestureKind.code .double |||
    GestureKind.code .long ||| GestureKind.code .repeat_
  let kind := gesture.code &&& kindMask
  if kind = GestureKind.code .short then .short
  else if kind = GestureKind.code .double then .double
  else if kind = GestureKind.code .long then .long
  else if kind = GestureKind.code .repeat_ then .repeat_
  else .none

def makeGesture (button : Button) (kind : GestureKind) : Gesture :=
  if button = .both ∧ kind = .long then .abLong
  else
    match kind with
    | .short => if button = .a then .aShort else .bShort
    | .double => if button = .a then .aDouble else .bDouble
    | .long => if button = .a then .aLong else .bLong
    | .repeat_ => if button = .a then .aRepeat else .bRepeat
    | .none => .none

/-! ## The state -/

/-- What the button library reports of one button after its update. -/
structure ButtonClass where
  wasPressed : Bool := false
  wasClicked : Bool := false
  wasHold : Bool := false
  isPressed : Bool := false
  isHolding : Bool := false
  deriving DecidableEq

structure RepeatState where
  enabled : Bool := false
  /-- Hold time before the first repeat. -/
  initialMs : U32 := 400
  intervalMs : U32 := 200
  lastEventMs : U32 := 0
  /-- When the long gesture fired. -/
  holdStartMs : U32 := 0
  deriving DecidableEq

/-- Without `enabled` a click is reported at once, else it waits `windowMs` for a second one. -/
structure ClickState where
  enabled : Bool := false
  windowMs : U16 := 250
  count : U8 := 0
  firstClickMs : U32 := 0
  deriving DecidableEq

/-- A hold that came while the other button was pressed, too. -/
structure HoldState where
  pendingLong : Bool := false
  deferredMs : U32 := 0
  deriving DecidableEq

structure Buttons where
  wasBothHolding : Bool := false
  repeatA : RepeatState := {}
  repeatB : RepeatState := {}
  clickA : ClickState := {}
  clickB : ClickState := {}
  holdA : HoldState := {}
  holdB : HoldState := {}
  twoButtonLongEnabled : Bool := false
  twoButtonGraceMs : U32 := 75
  deriving DecidableEq

namespace Buttons

structure PollResult where
  pressed : Button := .none
  gesture : Gesture := .none
  deriving DecidableEq

/-! ## Settings -/

def onRepeat (b : Buttons) (buttons : Button) (f : RepeatState → RepeatState) : Buttons :=
  { b with
    repeatA := if hasButton buttons.code .a then f b.repeatA else b.repeatA
    repeatB := if hasButton buttons.code .b then f b.repeatB else b.repeatB }

def onClick (b : Buttons) (buttons : Button) (f : ClickState → ClickState) : Buttons :=
  { b with
    clickA := if hasButton buttons.code .a then f b.clickA else b.clickA
    clickB := if hasButton buttons.code .b then f b.clickB else b.clickB }

/-- `lastEventMs` stays, so that the cadence may change while a button is held. -/
def setAutoRepeat (b : Buttons) (initialMs intervalMs : U32) (buttons : Button) : Buttons :=
  b.onRepeat buttons fun s => { s with initialMs := initialMs, intervalMs := intervalMs }

def enableAutoRepeat (b : Buttons) (buttons : Button) : Buttons :=
  b.onRepeat buttons fun s => { s with enabled := true }

def clearAutoRepeat (b : Buttons) (buttons : Button) : Buttons :=
  b.onRepeat buttons fun s => { s with holdStartMs := 0 }

def disableAutoRepeat (b : Buttons) (buttons : Button) : Buttons :=
  b.onRepeat buttons fun s => { s with enabled := false }

def setDoublePressWindow (b : Buttons) (windowMs : U16) (buttons : Button) : Buttons :=
  b.onClick buttons fun s => { s with windowMs := windowMs }

def enableDoublePress (b : Buttons) (buttons : Button) : Buttons :=
  b.onClick buttons fun s => { s with enabled := true, count := 0 }

def disableDoublePress (b : Buttons) (buttons : Button) : Buttons :=
  b.onClick buttons fun s => { s with enabled := false, count := 0 }

def setTwoButtonGrace (b : Buttons) (graceMs : U32) : Buttons :=
  { b with twoButtonGraceMs := graceMs }

def enableTwoButtonLong (b : Buttons) : Buttons := { b with twoButtonLongEnabled := true }

def disableTwoButtonLong (b : Buttons) : Buttons :=
  { b with
    twoButtonLongEnabled := false
    holdA := { b.holdA with pendingLong := false }
    holdB := { b.holdB with pendingLong := false } }

/-- A call that configures the buttons. -/
inductive Setting
  | setAutoRepeat (initialMs intervalMs : U32) (buttons : Button)
  | enableAutoRepeat (buttons : Button)
  | clearAutoRepeat (buttons : Button)
  | disableAutoRepeat (buttons : Button)
  | setDoublePressWindow (windowMs : U16) (buttons : Button)
  | enableDoublePress (buttons : Button)
  | disableDoublePress (buttons : Button)
  | setTwoButtonGrace (graceMs : U32)
  | enableTwoButtonLong
  | disableTwoButtonLong

def configure (b : Buttons) : Setting → Buttons
  | .setAutoRepeat initialMs intervalMs buttons => b.setAutoRepeat initialMs intervalMs buttons
  | .enableAutoRepeat buttons => b.enableAutoRepeat buttons
  | .clearAutoRepeat buttons => b.clearAutoRepeat buttons
  | .disableAutoRepeat buttons => b.disableAutoRepeat buttons
  | .setDoublePressWindow windowMs buttons => b.setDoublePressWindow windowMs buttons
  | .enableDoublePress buttons => b.enableDoublePress buttons
  | .disableDoublePress buttons => b.disableDoublePress buttons
  | .setTwoButtonGrace graceMs => b.setTwoButtonGrace graceMs
  | .enableTwoButtonLong => b.enableTwoButtonLong
  | .disableTwoButtonLong => b.disableTwoButtonLong

/-! ## A poll -/

/-- What one button reports, and what it holds back from now on. -/
structure Update where
  gesture : Gesture
  hold : HoldState
  click : ClickState

/-- `_update`. -/
def update (b : Buttons) (btn : ButtonClass) (button : Button) (other : ButtonClass)
    (hold : HoldState) (cs : ClickState) (nowMs : U32) : Update :=
  if btn.wasHold then
    -- a hold cancels any pending click
    let cs := { cs with count := 0 }
    if b.twoButtonLongEnabled && other.isPressed && !other.isHolding then
      ⟨.none, { pendingLong := true, deferredMs := nowMs }, cs⟩
    else ⟨makeGesture button .long, hold, cs⟩
  else if hold.pendingLong && b.twoButtonGraceMs ≤ nowMs - hold.deferredMs then
    ⟨makeGesture button .long, { hold with pendingLong := false }, cs⟩
  else if !cs.enabled then
    ⟨if btn.wasClicked then makeGesture button .short else .none, hold, cs⟩
  else
    let cs :=
      if btn.wasClicked then
        { cs with
          firstClickMs := if cs.count = 0 then nowMs else cs.firstClickMs
          count := cs.count + 1 }
      else cs
    if btn.wasClicked && 2 ≤ cs.count then
      ⟨makeGesture button .double, hold, { cs with count := 0 }⟩
    else if cs.count = 1 && cs.windowMs.setWidth 32 ≤ nowMs - cs.firstClickMs then
      ⟨makeGesture button .short, hold, { cs with count := 0 }⟩
    else ⟨.none, hold, cs⟩

/-- Whether a `REPEAT` fires, and the state after it. -/
def checkRepeat (btn : ButtonClass) (state : RepeatState) (nowMs : U32) : Bool × RepeatState :=
  if !state.enabled then (false, state)
  else if !btn.isHolding then (false, { state with lastEventMs := 0 })
  -- held, but the repeat may have been cleared
  else if state.holdStartMs = 0 then (false, state)
  else if state.lastEventMs = 0 then
    if state.initialMs ≤ nowMs - state.holdStartMs then (true, { state with lastEventMs := nowMs })
    else (false, state)
  else if state.intervalMs ≤ nowMs - state.lastEventMs then
    (true, { state with lastEventMs := nowMs })
  else (false, state)

/-- The repeat clock starts anew for a button that is still held after a two-button gesture. -/
def leaveBothHolding (b : Buttons) (btnA btnB : ButtonClass) (now : U32) : Buttons :=
  let b :=
    if b.wasBothHolding then
      { b with
        repeatA := if btnA.isHolding then { b.repeatA with holdStartMs := now } else b.repeatA
        repeatB := if btnB.isHolding then { b.repeatB with holdStartMs := now } else b.repeatB }
    else b
  { b with wasBothHolding := false }

/-- The repeats are asked only when neither button has anything else to report. -/
def pollRepeats (b : Buttons) (pressed : Button) (btnA btnB : ButtonClass) (now : U32) :
    PollResult × Buttons :=
  let a := checkRepeat btnA b.repeatA now
  let b := { b with repeatA := a.2 }
  if a.1 then ({ pressed := pressed, gesture := .aRepeat }, b)
  else
    let r := checkRepeat btnB b.repeatB now
    let b := { b with repeatB := r.2 }
    if r.1 then ({ pressed := pressed, gesture := .bRepeat }, b)
    else ({ pressed := pressed }, b)

/-- One poll at `now`, after the library's update. -/
def poll (b : Buttons) (now : U32) (btnA btnB : ButtonClass) : PollResult × Buttons :=
  let pressed : Button := if btnA.wasPressed then .a else .none
  let pressed :=
    if btnB.wasPressed then if hasButton pressed.code .a then .both else .b else pressed
  if btnA.isHolding && btnB.isHolding then
    if b.wasBothHolding then ({ pressed := pressed }, b)
    else
      -- one gesture for both holds, and for whatever was held back
      ({ pressed := pressed, gesture := makeGesture .both .long },
        { b with
          wasBothHolding := true
          clickA := { b.clickA with count := 0 }
          clickB := { b.clickB with count := 0 }
          holdA := { b.holdA with pendingLong := false }
          holdB := { b.holdB with pendingLong := false } })
  else
    let b := b.leaveBothHolding btnA btnB now
    let a := b.update btnA .a btnB b.holdA b.clickA now
    let r := b.update btnB .b btnA b.holdB b.clickB now
    let b := { b with
      holdA := a.hold
      clickA := a.click
      holdB := r.hold
      clickB := r.click
      repeatA := if a.gesture = .aLong then { b.repeatA with holdStartMs := now } else b.repeatA
      repeatB := if r.gesture = .bLong then { b.repeatB with holdStartMs := now } else b.repeatB }
    if a.gesture ≠ .none then ({ pressed := pressed, gesture := a.gesture }, b)
    else if r.gesture ≠ .none then ({ pressed := pressed, gesture := r.gesture }, b)
    else b.pollRepeats pressed btnA btnB now

end Buttons

end Pumpbug
