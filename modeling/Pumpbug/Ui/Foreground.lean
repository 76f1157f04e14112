import Pumpbug.Lib.Run
import Pumpbug.Ui.UiHost

/-!
# The screen in the foreground

Whatever the screens answer: each is entered before it is called and left before another is entered, every
call goes to the top of the stack, every draw that is asked for comes in the same update, and a pushed
screen comes back to the one that it was pushed from.
-/

namespace Pumpbug.Ui

open Lib

/-! ## What the calls tell -/

section Calls

variable {Screen : Type} [DecidableEq Screen]

/-- The screen in the foreground after a call; none if the call is not one to be made then. -/
def ScreenCall.follow (cur : Option Screen) : ScreenCall Screen → Option (Option Screen)
  | .onEnter screen => if cur = none then some (some screen) else none
  | .onExit screen => if cur = some screen then some none else none
  | .onEvent screen _ => if cur = some screen then some cur else none
  | .onLayoutChanged screen => if cur = some screen then some cur else none
  | .tick screen => if cur = some screen then some cur else none
  | .onDraw screen => if cur = some screen then some cur else none
  | .onPresented screen => if cur = some screen then some cur else none
  | .accepted _ => some cur
  | .requestDraw => some cur

/-- The screen in the foreground after all these calls, if they are in order. -/
def foreground (calls : List (ScreenCall Screen × Bool)) : Option (Option Screen) :=
  calls.foldlM (fun cur call => call.1.follow cur) none

/-- Whether a draw is due after a call.  What a draw itself asks for is left to the next one. -/
def ScreenCall.due (due asked : Bool) : ScreenCall Screen → Bool
  | .onEnter _ => true
  | .onDraw _ => false
  | .onPresented _ => due
  | _ => due || asked

/-- Whether a draw is due after all these calls. -/
def drawDue (calls : List (ScreenCall Screen × Bool)) : Bool :=
  calls.foldl (fun due call => call.1.due due call.2) false

omit [DecidableEq Screen] in
theorem drawDue_concat (calls : List (ScreenCall Screen × Bool)) (call : ScreenCall Screen × Bool) :
    drawDue (calls ++ [call]) = call.1.due (drawDue calls) call.2 := by
  simp [drawDue]

theorem foreground_concat {calls : List (ScreenCall Screen × Bool)} {cur : Option Screen}
    (h : foreground calls = some cur) (call : ScreenCall Screen × Bool) :
    foreground (calls ++ [call]) = call.1.follow cur := by
  unfold foreground at h ⊢
  rw [List.foldlM_append, h]
  simp

end Calls

namespace UiHost

variable {Screen World : Type} [DecidableEq Screen] (scr : Screens Screen World)
  (root : RootNavigation Screen World) {allocated : Bool} {s : UiHost Screen World}

/-- The calls are in order and have left `cur` in the foreground; a draw that is due is noted. -/
structure Shows (allocated : Bool) (s : UiHost Screen World) (cur : Option Screen) : Prop where
  foreground : foreground s.calls = some cur
  noted : allocated = true → drawDue s.calls = true → s.dirty = true

theorem shows_told {α : Type} {cur cur' : Option Screen} (h : Shows allocated s cur) {call : ScreenCall Screen}
    (a : Answer World α) (hfollow : call.follow cur = some cur')
    (hdue : ∀ due asked, call.due due asked = true → due = true ∨ asked = true) :
    Shows allocated (s.told call a) cur' where
  foreground := by
    rw [told, foreground_concat h.foreground, hfollow]
  noted := by
    intro hcanvas hpending
    rw [told, drawDue_concat] at hpending
    rw [told, Bool.or_eq_true]
    exact (hdue _ _ hpending).imp_left (h.noted hcanvas)

theorem shows_accept {cur : Option Screen} (h : Shows allocated s cur) (event : Gesture) :
    Shows allocated (s.accept event) cur where
  foreground := foreground_concat h.foreground _
  noted := by
    intro hcanvas hpending
    rw [accept, drawDue_concat] at hpending
    apply h.noted hcanvas
    simpa [ScreenCall.due] using hpending

theorem exitScreen_shows {a : Screen} (h : Shows allocated s (some a)) : Shows allocated (s.exitScreen scr a) none :=
  shows_told h _ (if_pos rfl) (by simp [ScreenCall.due])

/-- The host goes to the top of the new stack, which is entered. -/
theorem goTo_shows (h : Shows allocated s none) {n : NavigationStack Screen} {x : Screen} (hx : n.top = some x) :
    Shows allocated (s.goTo scr n) (some x) ∧ (s.goTo scr n).activeScreen = some x ∧
      (s.goTo scr n).navigation = n := by
  simp only [goTo, hx, enterScreen]
  refine ⟨⟨?_, fun _ _ => rfl⟩, rfl, rfl⟩
  exact foreground_concat h.foreground _

/-- The active screen is the top of the stack, and the calls have left it in the foreground. -/
structure Rests (allocated : Bool) (s : UiHost Screen World) (a : Screen) : Prop where
  active : s.activeScreen = some a
  top : s.navigation.top = some a
  shows : Shows allocated s (some a)

/-- Where one transition leads. -/
inductive Goes (n : NavigationStack Screen) : NavigationStack Screen → Prop
  | stay : Goes n n
  | push (x : Screen) : Goes n (n.push x)
  | replace (x : Screen) : Goes n (n.replace x)
  | pop (n' : NavigationStack Screen) (h : n.pop = some n') : Goes n n'

omit [DecidableEq Screen] in
theorem top_of_pop {n n' : NavigationStack Screen} (h : n.pop = some n') : ∃ x, n'.top = some x := by
  unfold NavigationStack.pop at h
  split_ifs at h with hshort
  obtain ⟨entries⟩ := n
  obtain rfl := Option.some.inj h
  match entries with
  | [] => simp at hshort
  | [_] => simp at hshort
  | _ :: x :: _ => exact ⟨x, rfl⟩

theorem goTo_rests (h : Shows allocated s none) {n : NavigationStack Screen} {x : Screen} (hx : n.top = some x) :
    Rests allocated (s.goTo scr n) x := by
  obtain ⟨hshows, hactive, hnavigation⟩ := goTo_shows scr h hx
  exact ⟨hactive, by rw [hnavigation, hx], hshows⟩

theorem goes_rests {s₀ : UiHost Screen World} (h : Shows allocated s none) {n : NavigationStack Screen} {x : Screen}
    (hx : n.top = some x) (hgoes : Goes s₀.navigation n) :
    (∃ y, Rests allocated (s.goTo scr n) y) ∧ Goes s₀.navigation (s.goTo scr n).navigation := by
  refine ⟨⟨x, goTo_rests scr h hx⟩, ?_⟩
  rw [(goTo_shows scr h hx).2.2]
  exact hgoes

/-- What a result does to the host at rest. -/
theorem applyResult_rests {a : Screen} (h : Rests allocated s a) (result : ScreenResult Screen) :
    ((∃ x, Rests allocated (s.applyResult scr root a result).2 x) ∧
      Goes s.navigation (s.applyResult scr root a result).2.navigation) ∧
      ((s.applyResult scr root a result).1 = false → (s.applyResult scr root a result).2 = s) := by
  have hexit := exitScreen_shows scr h.shows
  have hleave : ((∃ x, Rests allocated (s.applyResult scr root a { kind := .exit }).2 x) ∧
      Goes s.navigation (s.applyResult scr root a { kind := .exit }).2.navigation) ∧
      (s.applyResult scr root a { kind := .exit }).1 = true := by
    simp only [applyResult]
    cases hpop : (s.exitScreen scr a).navigation.pop with
    | some n =>
      obtain ⟨x, hx⟩ := top_of_pop hpop
      exact ⟨goes_rests scr hexit hx (.pop n hpop), rfl⟩
    | none =>
      have hexit' : Shows allocated { s.exitScreen scr a with
          world := (root.screenAfterExit a (s.exitScreen scr a).world).2 } none :=
        ⟨hexit.foreground, hexit.noted⟩
      exact ⟨goes_rests scr hexit' rfl (.replace _), rfl⟩
  obtain ⟨kind, target⟩ := result
  cases kind with
  | ignored => exact ⟨⟨⟨a, h⟩, .stay⟩, fun _ => rfl⟩
  | stay => exact ⟨⟨⟨a, h⟩, .stay⟩, fun _ => rfl⟩
  | exit => exact ⟨hleave.1, fun hstay => absurd (hleave.2.symm.trans hstay) (by simp)⟩
  | push =>
    cases target with
    | some x => exact ⟨goes_rests scr hexit rfl (.push x), fun hstay => by cases hstay⟩
    | none => exact ⟨hleave.1, fun hstay => absurd (hleave.2.symm.trans hstay) (by simp)⟩
  | replace =>
    cases target with
    | some x => exact ⟨goes_rests scr hexit rfl (.replace x), fun hstay => by cases hstay⟩
    | none => exact ⟨hleave.1, fun hstay => absurd (hleave.2.symm.trans hstay) (by simp)⟩

/-- The foreground screen ignores the gesture and lets it leave for the screen `x`. -/
def TakesShortcut (s : UiHost Screen World) (a : Screen) (event : Gesture) (x : Screen) : Prop :=
  (scr.onEvent a event s.world).value.kind = .ignored ∧
    scr.allowsRootShortcut a (scr.onEvent a event s.world).world = true ∧
    root.shortcutDestination a event (scr.onEvent a event s.world).world = some x

/-- Where an update leads from the host at rest. -/
def Leads (s : UiHost Screen World) (a : Screen) (event : Gesture)
    (n : NavigationStack Screen) : Prop :=
  Goes s.navigation n ∨ ∃ x, TakesShortcut scr root s a event x ∧ n = .begin x

theorem rests_accept {a : Screen} (h : Rests allocated s a) (event : Gesture) : Rests allocated (s.accept event) a :=
  ⟨h.active, h.top, shows_accept h.shows event⟩

theorem rests_told {α : Type} {a : Screen} (h : Rests allocated s a) {call : ScreenCall Screen}
    (answer : Answer World α) (hfollow : call.follow (some a) = some (some a))
    (hdue : ∀ due asked, call.due due asked = true → due = true ∨ asked = true) :
    Rests allocated (s.told call answer) a :=
  ⟨h.active, h.top, shows_told h.shows answer hfollow hdue⟩

theorem handleEvent_rests {a : Screen} (h : Rests allocated s a) (event : Gesture) (physical : Bool) :
    ((∃ x, Rests allocated (s.handleEvent scr root a event physical).2 x) ∧
      Leads scr root s a event (s.handleEvent scr root a event physical).2.navigation) ∧
      ((s.handleEvent scr root a event physical).1 = false →
        Rests allocated (s.handleEvent scr root a event physical).2 a ∧
          (s.handleEvent scr root a event physical).2.navigation = s.navigation) := by
  have htold : Rests allocated (s.told (.onEvent a event) (scr.onEvent a event s.world)) a :=
    rests_told h _ (if_pos rfl) (by simp [ScreenCall.due])
  simp only [handleEvent]
  split
  · next x hx =>
    split_ifs at hx with hignored
    · have hshows : ∀ s' : UiHost Screen World, Rests allocated s' a →
          (∃ y, Rests allocated ((s'.exitScreen scr a).goTo scr (.begin x)) y) ∧
            ((s'.exitScreen scr a).goTo scr (.begin x)).navigation = .begin x := by
        intro s' hs'
        have hexit := exitScreen_shows scr hs'.shows
        exact ⟨⟨x, goTo_rests scr hexit rfl⟩, (goTo_shows scr hexit rfl).2.2⟩
      refine ⟨⟨?_, Or.inr ⟨x, ⟨hignored.1, hignored.2, hx⟩, ?_⟩⟩, fun hstay => by cases hstay⟩
      · split_ifs
        · exact (hshows _ (rests_accept htold event)).1
        · exact (hshows _ htold).1
      · split_ifs
        · exact (hshows _ (rests_accept htold event)).2
        · exact (hshows _ htold).2
  · have happly : ∀ s' : UiHost Screen World, Rests allocated s' a → s'.navigation = s.navigation →
        ((∃ x, Rests allocated (s'.applyResult scr root a (scr.onEvent a event s.world).value).2 x) ∧
          Leads scr root s a event
            (s'.applyResult scr root a (scr.onEvent a event s.world).value).2.navigation) ∧
          ((s'.applyResult scr root a (scr.onEvent a event s.world).value).1 = false →
            Rests allocated (s'.applyResult scr root a (scr.onEvent a event s.world).value).2 a ∧
              (s'.applyResult scr root a (scr.onEvent a event s.world).value).2.navigation =
                s.navigation) := by
      intro s' hs' hnavigation
      obtain ⟨⟨hrests, hgoes⟩, hstay⟩ := applyResult_rests scr root hs' _
      rw [hnavigation] at hgoes
      refine ⟨⟨hrests, Or.inl hgoes⟩, fun hfalse => ?_⟩
      rw [hstay hfalse]
      exact ⟨hs', hnavigation⟩
    split_ifs
    · exact happly _ (rests_accept htold event) rfl
    · exact happly _ htold rfl

theorem tickScreen_rests {a : Screen} (h : Rests allocated s a) (nowMs : U32) :
    (∃ x, Rests allocated (s.tickScreen scr root a nowMs) x) ∧
      Goes s.navigation (s.tickScreen scr root a nowMs).navigation := by
  simp only [tickScreen]
  split_ifs
  · have hlast : Rests allocated { s with lastScreenTickMs := nowMs } a :=
      ⟨h.active, h.top, h.shows.foreground, h.shows.noted⟩
    have htick : Rests allocated (told { s with lastScreenTickMs := nowMs } (.tick a)
        (scr.tick a s.world)) a :=
      rests_told hlast _ (if_pos rfl) (by simp [ScreenCall.due])
    exact (applyResult_rests scr root htick _).1
  · exact ⟨⟨a, h⟩, .stay⟩

theorem updateActiveScreen_rests {a : Screen} (h : Rests allocated s a) (event : Gesture) (physical : Bool)
    (nowMs : U32) :
    (∃ x, Rests allocated (s.updateActiveScreen scr root event physical nowMs) x) ∧
      Leads scr root s a event (s.updateActiveScreen scr root event physical nowMs).navigation := by
  simp only [updateActiveScreen, h.active]
  by_cases hnone : event = .none
  · obtain ⟨hrests, hgoes⟩ := tickScreen_rests scr root h nowMs
    simp only [hnone, if_true, Bool.false_eq_true, if_false]
    exact ⟨hrests, Or.inl hgoes⟩
  · obtain ⟨⟨hrests, hleads⟩, hstay⟩ := handleEvent_rests scr root h event physical
    rw [if_neg hnone]
    split_ifs with hmoved
    · exact ⟨hrests, hleads⟩
    · obtain ⟨hsame, hnavigation⟩ := hstay (Bool.eq_false_iff.2 hmoved)
      obtain ⟨hrests', hgoes⟩ := tickScreen_rests scr root hsame nowMs
      rw [hnavigation] at hgoes
      exact ⟨hrests', Or.inl hgoes⟩

/-! ## Drawing -/

/-- A draw settles what was due, whatever it asks for itself. -/
theorem drawContent_rests {a : Screen} (allocated : Bool) (hactive : s.activeScreen = some a)
    (htop : s.navigation.top = some a) (h : foreground s.calls = some (some a)) :
    Rests allocated (s.drawContent scr allocated).2 a ∧
      (s.drawContent scr allocated).2.navigation = s.navigation ∧
      (allocated = true → drawDue (s.drawContent scr allocated).2.calls = false) := by
  have hsettled : drawDue (s.told (.onDraw a) (scr.onDraw a s.world)).calls = false :=
    drawDue_concat _ _
  have hdrawn : foreground (s.told (.onDraw a) (scr.onDraw a s.world)).calls = some (some a) :=
    (foreground_concat h _).trans (if_pos rfl)
  simp only [drawContent, hactive]
  split_ifs with hcanvas hshown
  · have hno : allocated = false := by simpa using hcanvas
    exact ⟨⟨hactive, htop, h, fun hyes => absurd (hno.symm.trans hyes) Bool.false_ne_true⟩, rfl,
      fun hyes => absurd (hno.symm.trans hyes) Bool.false_ne_true⟩
  · set s₁ := s.told (.onDraw a) (scr.onDraw a s.world)
    have hsettled' : drawDue (s₁.told (.onPresented a) (scr.onPresented a s₁.world)).calls = false :=
      (drawDue_concat _ _).trans hsettled
    have hshown' : foreground (s₁.told (.onPresented a) (scr.onPresented a s₁.world)).calls =
        some (some a) := (foreground_concat hdrawn _).trans (if_pos rfl)
    exact ⟨⟨hactive, htop, hshown', fun _ hdue => absurd (hsettled'.symm.trans hdue) Bool.false_ne_true⟩,
      rfl, fun _ => hsettled'⟩
  · exact ⟨⟨hactive, htop, hdrawn, fun _ hdue => absurd (hsettled.symm.trans hdue) Bool.false_ne_true⟩,
      rfl, fun _ => hsettled⟩

theorem syncLayout_rests {a : Screen} (h : Rests allocated s a) (orientationChanged : Bool) :
    Rests allocated (s.syncLayout scr allocated orientationChanged) a ∧
      (s.syncLayout scr allocated orientationChanged).navigation = s.navigation := by
  simp only [syncLayout, h.active]
  have hdrawn : ∀ s' : UiHost Screen World, Rests allocated s' a → s'.navigation = s.navigation →
      Rests allocated { (s'.drawContent scr allocated).2 with
        dirty := false, prevShowChrome := s.showChrome scr } a ∧
        (s'.drawContent scr allocated).2.navigation = s.navigation := by
    intro s' hs' hnavigation
    obtain ⟨hrests, hsame, hsettled⟩ := drawContent_rests scr allocated hs'.active hs'.top hs'.shows.foreground
    refine ⟨⟨hrests.active, hrests.top, hrests.shows.foreground, fun hcanvas hdue => ?_⟩,
      hsame.trans hnavigation⟩
    exact absurd ((hsettled hcanvas).symm.trans hdue) Bool.false_ne_true
  split_ifs
  · exact hdrawn _ (rests_told h _ (if_pos rfl) (by simp [ScreenCall.due])) rfl
  · exact hdrawn _ h rfl
  · exact ⟨h, rfl⟩

theorem syncLayoutAndDraw_rests {a : Screen} (h : Rests allocated s a) (orientationChanged : Bool) :
    Rests allocated (s.syncLayoutAndDraw scr allocated orientationChanged) a ∧
      (s.syncLayoutAndDraw scr allocated orientationChanged).navigation = s.navigation ∧
      (allocated = true →
        drawDue (s.syncLayoutAndDraw scr allocated orientationChanged).calls = false) := by
  obtain ⟨hrests, hsame⟩ := syncLayout_rests scr h orientationChanged
  simp only [syncLayoutAndDraw]
  split_ifs with hdirty
  · set s₁ := s.syncLayout scr allocated orientationChanged
    have hdrawn : Rests allocated (drawContent scr allocated { s₁ with dirty := false }).2 a ∧
        (drawContent scr allocated { s₁ with dirty := false }).2.navigation = s₁.navigation ∧
        (allocated = true →
          drawDue (drawContent scr allocated { s₁ with dirty := false }).2.calls = false) :=
      drawContent_rests scr allocated hrests.active hrests.top hrests.shows.foreground
    exact ⟨hdrawn.1, hdrawn.2.1.trans hsame, hdrawn.2.2⟩
  · refine ⟨hrests, hsame, fun hcanvas => Bool.eq_false_iff.2 fun hdue => hdirty ?_⟩
    exact hrests.shows.noted hcanvas hdue

/-! ## Runs -/

theorem begin_rests (allocated : Bool) (world : World) :
    ∃ a, Rests allocated (begin scr root allocated world) a := by
  have hnone : Shows allocated { world := (root.initialScreen world).2 } (none : Option Screen) :=
    ⟨rfl, fun _ hdue => by cases hdue⟩
  have hfirst := goTo_rests scr hnone (n := .begin (root.initialScreen world).1) rfl
  obtain ⟨hdrawn, -, hsettled⟩ := drawContent_rests scr allocated hfirst.active hfirst.top
    hfirst.shows.foreground
  refine ⟨(root.initialScreen world).1, ?_⟩
  simp only [begin]
  split_ifs with hshown
  · refine ⟨hdrawn.active, hdrawn.top, hdrawn.shows.foreground, fun hcanvas hdue => ?_⟩
    exact absurd ((hsettled hcanvas).symm.trans hdue) Bool.false_ne_true
  · exact ⟨hdrawn.active, hdrawn.top, hdrawn.shows.foreground, hdrawn.shows.noted⟩

theorem step_rests {a : Screen} (h : Rests allocated s a) (m : UiMove) :
    ∃ x, Rests allocated (s.step scr root allocated m) x := by
  cases m with
  | update event physical orientationChanged nowMs =>
    obtain ⟨⟨x, hx⟩, -⟩ := updateActiveScreen_rests scr root h event physical nowMs
    exact ⟨x, (syncLayoutAndDraw_rests scr hx orientationChanged).1⟩
  | requestDraw =>
    exact ⟨a, h.active, h.top, foreground_concat h.shows.foreground _, fun _ _ => rfl⟩

/-- The host after these moves. -/
def run (allocated : Bool) (world : World) (moves : List UiMove) : UiHost Screen World :=
  exec (step scr root allocated) (begin scr root allocated world) moves

theorem run_rests (allocated : Bool) (world : World) (moves : List UiMove) :
    ∃ a, Rests allocated (run scr root allocated world moves) a :=
  exec_invariant (fun s => ∃ a, Rests allocated s a)
    (fun _ m _ h => step_rests scr root h.choose_spec m) (begin_rests scr root allocated world)

/-- **Every call goes to the screen in the foreground.**  In every run, whatever the screens answer:
the calls are in order, each screen entered before it is called and left before another is entered, and
the active screen is the one that was entered last, and the top of the stack. -/
theorem calls_in_order (allocated : Bool) (world : World) (moves : List UiMove) :
    let s := run scr root allocated world moves
    ∃ a, s.activeScreen = some a ∧ s.navigation.top = some a ∧ foreground s.calls = some (some a) := by
  obtain ⟨a, h⟩ := run_rests scr root allocated world moves
  exact ⟨a, h.active, h.top, h.shows.foreground⟩

/-- **Every draw comes in its update.**  In every run, where there is a canvas: at the end of an update
the active screen was drawn after it was entered, and after all that asked for a draw, other than a draw
itself. -/
theorem draws_in_update (world : World) (moves : List UiMove) (event : Gesture)
    (physical orientationChanged : Bool) (nowMs : U32) :
    drawDue (run scr root true world
      (moves ++ [.update event physical orientationChanged nowMs])).calls = false := by
  obtain ⟨a, h⟩ := run_rests scr root true world moves
  obtain ⟨⟨x, hx⟩, -⟩ := updateActiveScreen_rests scr root h event physical nowMs
  rw [run, exec_append]
  exact (syncLayoutAndDraw_rests scr hx orientationChanged).2.2 rfl

/-! ## Coming back -/

/-- The stack is `base`, with something on it. -/
def Above (base : List Screen) (n : NavigationStack Screen) : Prop :=
  ∃ above, above ≠ [] ∧ n.entries = above ++ base

omit [DecidableEq Screen] in
theorem Goes.above {n n' : NavigationStack Screen} {base : List Screen} (h : Goes n n')
    (habove : Above base n) : Above base n' ∨ n'.entries = base := by
  obtain ⟨above, hne, heq⟩ := habove
  obtain ⟨x, above, rfl⟩ := List.exists_cons_of_ne_nil hne
  cases h with
  | stay => exact Or.inl ⟨x :: above, hne, heq⟩
  | push y => exact Or.inl ⟨y :: x :: above, by simp, by rw [NavigationStack.push, heq]; rfl⟩
  | replace y => exact Or.inl ⟨y :: above, by simp, by rw [NavigationStack.replace, heq]; rfl⟩
  | pop _ hpop =>
    unfold NavigationStack.pop at hpop
    split_ifs at hpop
    obtain rfl := Option.some.inj hpop
    rw [heq]
    cases above with
    | nil => exact Or.inr rfl
    | cons y above => exact Or.inl ⟨y :: above, by simp, rfl⟩

/-- The update `m` takes the shortcut from `s` to the screen `x`. -/
def ShortcutTo (s : UiHost Screen World) (m : UiMove) (x : Screen) : Prop :=
  ∃ a event physical orientationChanged nowMs,
    m = .update event physical orientationChanged nowMs ∧ s.activeScreen = some a ∧
      TakesShortcut scr root s a event x

theorem step_above {a : Screen} (h : Rests allocated s a) {base : List Screen}
    (habove : Above base s.navigation) (m : UiMove) :
    Above base (s.step scr root allocated m).navigation ∨
      (s.step scr root allocated m).navigation.entries = base ∨
      ∃ x, ShortcutTo scr root s m x ∧ (s.step scr root allocated m).navigation.entries = [x] := by
  cases m with
  | requestDraw => exact Or.inl habove
  | update event physical orientationChanged nowMs =>
    obtain ⟨⟨x, hx⟩, hleads⟩ := updateActiveScreen_rests scr root h event physical nowMs
    have hsame := (syncLayoutAndDraw_rests scr hx orientationChanged).2.1
    rw [step, hsame]
    obtain hgoes | ⟨y, hshortcut, heq⟩ := hleads
    · exact (hgoes.above habove).imp_right Or.inl
    · refine Or.inr (Or.inr ⟨y, ⟨a, event, physical, orientationChanged, nowMs, rfl, h.active, hshortcut⟩, ?_⟩)
      rw [heq]
      rfl

/-- **A screen comes back to the one it was pushed from.**  In every run, from where the stack is `base`
with something on it: either something stays on `base`; or, at the first update after which nothing does,
the stack is `base` as it was and its top is active, or a gesture that the active screen ignored, and that
it lets pass, has taken the shortcut. -/
theorem returns_to_base (allocated : Bool) (world : World) (before more : List UiMove)
    {base : List Screen} (habove : Above base (run scr root allocated world before).navigation) :
    Above base (run scr root allocated world (before ++ more)).navigation ∨
      ∃ pre m post, more = pre ++ m :: post ∧
        Above base (run scr root allocated world (before ++ pre)).navigation ∧
        (((run scr root allocated world (before ++ (pre ++ [m]))).navigation.entries = base ∧
            (run scr root allocated world (before ++ (pre ++ [m]))).activeScreen = base.head?) ∨
          ∃ x, ShortcutTo scr root (run scr root allocated world (before ++ pre)) m x ∧
            (run scr root allocated world (before ++ (pre ++ [m]))).navigation.entries = [x]) := by
  induction more generalizing before with
  | nil => exact Or.inl (by rwa [List.append_nil])
  | cons m more ih =>
    obtain ⟨a, h⟩ := run_rests scr root allocated world before
    have hstep := step_above scr root h habove m
    have hrun : run scr root allocated world (before ++ [m]) =
        (run scr root allocated world before).step scr root allocated m := exec_append before [m]
    rw [← hrun] at hstep
    obtain hstill | hback | ⟨x, hshortcut, heq⟩ := hstep
    · obtain hend | ⟨pre, m', post, rfl, hpre, hlast⟩ := ih (before ++ [m]) hstill
      · exact Or.inl (by rwa [List.append_assoc] at hend)
      · refine Or.inr ⟨m :: pre, m', post, rfl, ?_, ?_⟩
        · rwa [List.append_assoc] at hpre
        · simpa only [List.append_assoc, List.cons_append, List.nil_append] using hlast
    · refine Or.inr ⟨[], m, more, rfl, by rwa [List.append_nil], Or.inl ⟨hback, ?_⟩⟩
      obtain ⟨b, hb⟩ := run_rests scr root allocated world (before ++ [m])
      rw [List.nil_append, hb.active, ← hb.top, NavigationStack.top, hback]
    · exact Or.inr ⟨[], m, more, rfl, by rwa [List.append_nil],
        Or.inr ⟨x, by rwa [List.append_nil], heq⟩⟩

/-- The product's shortcut is a hold of B, away from the main screen and to it. -/
theorem shortcutTo_main (nav : MainNavigation Screen World) {m : UiMove} {x : Screen}
    (h : ShortcutTo scr nav.root s m x) :
    x = nav.mainScreen ∧ s.activeScreen ≠ some nav.mainScreen ∧
      ∃ physical orientationChanged nowMs, m = .update .bLong physical orientationChanged nowMs := by
  obtain ⟨a, event, physical, orientationChanged, nowMs, rfl, hactive, -, -, hdestination⟩ := h
  simp only [MainNavigation.root] at hdestination
  split_ifs at hdestination with hlong
  refine ⟨(Option.some.inj hdestination).symm, ?_, physical, orientationChanged, nowMs, ?_⟩
  · rw [hactive]
    exact fun heq => hlong.2 (Option.some.inj heq)
  · rw [hlong.1]

/-- A menu that opens a page, which closes at the other button. -/
def twoScreens : Screens Bool Unit where
  onEnter := fun _ w => ⟨(), w, false⟩
  onExit := fun _ w => ⟨(), w, false⟩
  onEvent := fun page event w =>
    ⟨if event = .aShort then { kind := .push, target := some true }
      else if page then { kind := .exit } else { kind := .ignored }, w, false⟩
  onLayoutChanged := fun _ w => ⟨(), w, false⟩
  tick := fun _ w => ⟨{}, w, false⟩
  onDraw := fun _ w => ⟨true, w, false⟩
  onPresented := fun _ w => ⟨(), w, false⟩
  allowsRootShortcut := fun _ _ => true
  desiredTickMs := fun _ _ => 0
  wantsStatusBar := fun _ _ => true

def menuRoot : RootNavigation Bool Unit where
  initialScreen := fun w => (false, w)
  screenAfterExit := fun _ w => (false, w)
  shortcutDestination := fun _ _ _ => none

theorem returns_to_base_menu :
    let before : List UiMove := [.update .aShort true false 5]
    let more : List UiMove := [.update .none false false 9, .update .bShort true false 20]
    Above [false] (run twoScreens menuRoot true () (before ++ more)).navigation ∨
      ∃ pre m post, more = pre ++ m :: post ∧
        Above [false] (run twoScreens menuRoot true () (before ++ pre)).navigation ∧
        (((run twoScreens menuRoot true () (before ++ (pre ++ [m]))).navigation.entries = [false] ∧
            (run twoScreens menuRoot true () (before ++ (pre ++ [m]))).activeScreen = some false) ∨
          ∃ x, ShortcutTo twoScreens menuRoot (run twoScreens menuRoot true () (before ++ pre)) m x ∧
            (run twoScreens menuRoot true () (before ++ (pre ++ [m]))).navigation.entries = [x]) :=
  returns_to_base twoScreens menuRoot true () [.update .aShort true false 5]
    [.update .none false false 9, .update .bShort true false 20] ⟨[true], by simp, by decide⟩

end UiHost

end Pumpbug.Ui
