import Mathlib.Data.List.Basic
import Pumpbug.Ui.Buttons

/-!
# The foreground host

`UiHost.cpp` over the navigation stack of `Navigation.h`: which screen is in the foreground, what it
is called for, and when it is drawn.  What the screens do is left open: a call changes the world, and
may ask for a draw.  The status strip, whose content no screen's call depends on, is left out; so is the
geometry.
-/

namespace Pumpbug.Ui

/-! ## Screens -/

inductive ScreenResult.Kind
  | ignored
  | stay
  | exit
  | replace
  | push
  deriving DecidableEq

structure ScreenResult (Screen : Type) where
  kind : ScreenResult.Kind := .stay
  /-- For `replace` and `push`. -/
  target : Option Screen := none

/-- What a call to a screen answers and does. -/
structure Answer (World α : Type) where
  value : α
  world : World
  requestsDraw : Bool := false

structure Screens (Screen World : Type) where
  onEnter : Screen → World → Answer World Unit
  onExit : Screen → World → Answer World Unit
  onEvent : Screen → Gesture → World → Answer World (ScreenResult Screen)
  onLayoutChanged : Screen → World → Answer World Unit
  tick : Screen → World → Answer World (ScreenResult Screen)
  /-- Whether the canvas is to be shown. -/
  onDraw : Screen → World → Answer World Bool
  onPresented : Screen → World → Answer World Unit
  allowsRootShortcut : Screen → World → Bool
  desiredTickMs : Screen → World → U32
  wantsStatusBar : Screen → World → Bool

structure RootNavigation (Screen World : Type) where
  initialScreen : World → Screen × World
  screenAfterExit : Screen → World → Screen × World
  shortcutDestination : Screen → Gesture → World → Option Screen

/-- What `MainNavigation` asks of its screens. -/
structure MainNavigation (Screen World : Type) where
  mainMenu : Screen
  mainScreen : Screen
  onboardingScreen : Screen
  storageRecoveryScreen : Screen
  /-- `_storageRecoveryScreen.shouldPresent`. -/
  shouldPresent : World → Bool
  /-- `_onboardingScreen.begin`. -/
  beginOnboarding : World → Bool × World
  completedThisVisit : World → Bool

namespace MainNavigation

variable {Screen World : Type} (nav : MainNavigation Screen World)

def ordinaryInitialScreen (world : World) : Screen × World :=
  let r := nav.beginOnboarding world
  (if r.1 then nav.onboardingScreen else nav.mainScreen, r.2)

def root [DecidableEq Screen] : RootNavigation Screen World where
  initialScreen := fun world =>
    if nav.shouldPresent world then (nav.storageRecoveryScreen, world)
    else nav.ordinaryInitialScreen world
  screenAfterExit := fun exiting world =>
    if exiting = nav.storageRecoveryScreen then nav.ordinaryInitialScreen world
    else if exiting = nav.onboardingScreen ∧ nav.completedThisVisit world then (nav.mainMenu, world)
    else if exiting = nav.mainScreen then (nav.mainMenu, world)
    else (nav.mainScreen, world)
  shortcutDestination := fun active gesture _ =>
    if gesture = .bLong ∧ active ≠ nav.mainScreen then some nav.mainScreen else none

end MainNavigation

inductive ScreenCall (Screen : Type)
  | onEnter (screen : Screen)
  | onExit (screen : Screen)
  | onEvent (screen : Screen) (event : Gesture)
  | onLayoutChanged (screen : Screen)
  | tick (screen : Screen)
  | onDraw (screen : Screen)
  | onPresented (screen : Screen)
  /-- The gesture is confirmed with a sound. -/
  | accepted (event : Gesture)
  /-- `requestDraw` between two updates. -/
  | requestDraw
  deriving DecidableEq

/-! ## The navigation stack -/

/-- The entries, the top first. -/
structure NavigationStack (Screen : Type) where
  entries : List Screen := []

namespace NavigationStack

variable {Screen : Type}

def begin (initial : Screen) : NavigationStack Screen := ⟨[initial]⟩

def top (n : NavigationStack Screen) : Option Screen := n.entries.head?

def push (n : NavigationStack Screen) (entry : Screen) : NavigationStack Screen :=
  ⟨entry :: n.entries⟩

def replace (n : NavigationStack Screen) (entry : Screen) : NavigationStack Screen :=
  ⟨entry :: n.entries.tail⟩

/-- None if nothing would be left. -/
def pop (n : NavigationStack Screen) : Option (NavigationStack Screen) :=
  if n.entries.length ≤ 1 then none else some ⟨n.entries.tail⟩

end NavigationStack

/-! ## The host -/

structure UiHost (Screen World : Type) where
  world : World
  navigation : NavigationStack Screen := {}
  activeScreen : Option Screen := none
  lastScreenTickMs : U32 := 0
  prevShowChrome : Bool := true
  dirty : Bool := true
  /-- The calls that were made, each with whether it asked for a draw. -/
  calls : List (ScreenCall Screen × Bool) := []

namespace UiHost

variable {Screen World : Type} (scr : Screens Screen World) (root : RootNavigation Screen World)

/-- After a call. -/
def told {α : Type} (s : UiHost Screen World) (call : ScreenCall Screen) (a : Answer World α) :
    UiHost Screen World :=
  { s with
    world := a.world
    dirty := s.dirty || a.requestsDraw
    calls := s.calls ++ [(call, a.requestsDraw)] }

def accept (s : UiHost Screen World) (event : Gesture) : UiHost Screen World :=
  { s with calls := s.calls ++ [(.accepted event, false)] }

def showChrome (s : UiHost Screen World) : Bool :=
  match s.activeScreen with
  | none => true
  | some active => scr.wantsStatusBar active s.world

def enterScreen (s : UiHost Screen World) (screen : Option Screen) : UiHost Screen World :=
  match screen with
  | none => s
  | some screen =>
    let s := { s with activeScreen := some screen, lastScreenTickMs := 0 }
    let s := s.told (.onEnter screen) (scr.onEnter screen s.world)
    { s with dirty := true }

def exitScreen (s : UiHost Screen World) (screen : Screen) : UiHost Screen World :=
  s.told (.onExit screen) (scr.onExit screen s.world)

/-- The host goes to the top of a new stack. -/
def goTo (s : UiHost Screen World) (navigation : NavigationStack Screen) : UiHost Screen World :=
  enterScreen scr { s with navigation := navigation } navigation.top

/-- Whether the foreground screen changed, and the host after it. -/
def applyResult (s : UiHost Screen World) (active : Screen) (result : ScreenResult Screen) :
    Bool × UiHost Screen World :=
  match result.kind, result.target with
  | .ignored, _ => (false, s)
  | .stay, _ => (false, s)
  | .push, some target =>
    let s := s.exitScreen scr active
    (true, s.goTo scr (s.navigation.push target))
  | .replace, some target =>
    let s := s.exitScreen scr active
    (true, s.goTo scr (s.navigation.replace target))
  -- A transition without a target still leaves the screen that requested it.
  | _, _ =>
    let s := s.exitScreen scr active
    match s.navigation.pop with
    | some navigation => (true, s.goTo scr navigation)
    | none =>
      let next := root.screenAfterExit active s.world
      (true, { s with world := next.2 }.goTo scr (s.navigation.replace next.1))

/-- What a gesture does to the foreground screen. -/
def handleEvent (s : UiHost Screen World) (active : Screen) (event : Gesture) (physical : Bool) :
    Bool × UiHost Screen World :=
  let a := scr.onEvent active event s.world
  let s := s.told (.onEvent active event) a
  let shortcut :=
    if a.value.kind = .ignored ∧ scr.allowsRootShortcut active s.world then
      root.shortcutDestination active event s.world
    else none
  match shortcut with
  | some destination =>
    let s := if physical then s.accept event else s
    let s := s.exitScreen scr active
    (true, s.goTo scr (.begin destination))
  | none =>
    let s := if physical ∧ a.value.kind ≠ .ignored then s.accept event else s
    s.applyResult scr root active a.value

def tickScreen (s : UiHost Screen World) (active : Screen) (nowMs : U32) : UiHost Screen World :=
  let tickMs := scr.desiredTickMs active s.world
  if tickMs = 0 ∨ tickMs ≤ nowMs - s.lastScreenTickMs then
    let s := { s with lastScreenTickMs := nowMs }
    let a := scr.tick active s.world
    ((s.told (.tick active) a).applyResult scr root active a.value).2
  else s

def updateActiveScreen (s : UiHost Screen World) (event : Gesture) (physical : Bool) (nowMs : U32) :
    UiHost Screen World :=
  match s.activeScreen with
  | none => s
  | some active =>
    let r := if event = .none then (false, s) else s.handleEvent scr root active event physical
    if r.1 then r.2 else r.2.tickScreen scr root active nowMs

/-- Whether the canvas was shown, and the host after it. -/
def drawContent (allocated : Bool) (s : UiHost Screen World) : Bool × UiHost Screen World :=
  if !allocated then (false, s)
  else
    match s.activeScreen with
    | none => (false, s)
    | some active =>
      let a := scr.onDraw active s.world
      let s := s.told (.onDraw active) a
      if a.value then (true, s.told (.onPresented active) (scr.onPresented active s.world))
      else (false, s)

/-- What an update does to the layout. -/
def syncLayout (allocated : Bool) (s : UiHost Screen World) (orientationChanged : Bool) :
    UiHost Screen World :=
  if orientationChanged ∨ s.showChrome scr ≠ s.prevShowChrome then
    let s' :=
      match s.activeScreen with
      | none => s
      | some active =>
        if orientationChanged then
          s.told (.onLayoutChanged active) (scr.onLayoutChanged active s.world)
        else s
    { (s'.drawContent scr allocated).2 with dirty := false, prevShowChrome := s.showChrome scr }
  else s

def syncLayoutAndDraw (allocated : Bool) (s : UiHost Screen World) (orientationChanged : Bool) :
    UiHost Screen World :=
  let s := s.syncLayout scr allocated orientationChanged
  if s.dirty then ({ s with dirty := false }.drawContent scr allocated).2 else s

/-- The host as `begin` leaves it. -/
def begin (allocated : Bool) (world : World) : UiHost Screen World :=
  let first := root.initialScreen world
  let s : UiHost Screen World := goTo scr { world := first.2 } (.begin first.1)
  let r := s.drawContent scr allocated
  let s := if r.1 then { r.2 with dirty := false } else r.2
  { s with prevShowChrome := s.showChrome scr }

inductive UiMove
  | update (event : Gesture) (physical orientationChanged : Bool) (nowMs : U32)
  | requestDraw

def step (allocated : Bool) (s : UiHost Screen World) : UiMove → UiHost Screen World
  | .update event physical orientationChanged nowMs =>
    (s.updateActiveScreen scr root event physical nowMs).syncLayoutAndDraw scr allocated
      orientationChanged
  | .requestDraw => { s with dirty := true, calls := s.calls ++ [(.requestDraw, true)] }

end UiHost

end Pumpbug.Ui
