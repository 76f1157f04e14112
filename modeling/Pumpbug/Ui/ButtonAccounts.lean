import Pumpbug.Lib.Run
import Pumpbug.Ui.ButtonLedger

/-!
# Every click and every hold is reported once

A ledger keeps for each button the clicks and holds that are still to be reported; every gesture
settles some of them.  What is on the ledger after a poll has to be what the buttons still hold back
for a decision.
-/

namespace Pumpbug

open Lib

/-! ## The ledgers of the two buttons -/

/-- The kind of the gesture, if it is one of `button` alone. -/
def Gesture.kindFor (g : Gesture) (button : Button) : GestureKind :=
  if g ≠ .abLong ∧ hasButton g.code button then kindOf g else .none

/-- The ledgers of the two buttons. -/
structure ButtonLedgers where
  a : ButtonLedger := {}
  b : ButtonLedger := {}
  deriving DecidableEq

namespace ButtonLedgers

/-- What a gesture settles, if there is that much; a two-button hold takes at least one hold and
cancels whatever there is. -/
def settle (l : ButtonLedgers) (g : Gesture) : Option ButtonLedgers :=
  if g = .abLong then if l.a.holds = [] ∧ l.b.holds = [] then none else some {}
  else
    match l.a.settle (g.kindFor .a), l.b.settle (g.kindFor .b) with
    | some a, some b => some { a := a, b := b }
    | _, _ => none

theorem settle_eq_some {l l' : ButtonLedgers} {g : Gesture} (h : g ≠ .abLong) :
    l.settle g = some l' ↔
      l.a.settle (g.kindFor .a) = some l'.a ∧ l.b.settle (g.kindFor .b) = some l'.b := by
  unfold settle
  rw [if_neg h]
  cases l.a.settle (g.kindFor .a) with
  | none => simp
  | some a =>
    cases l.b.settle (g.kindFor .b) with
    | none => simp
    | some b =>
      obtain ⟨a', b'⟩ := l'
      simp

end ButtonLedgers

/-! ## A run with its ledgers -/

/-- The input of a poll: the time, and what the library reports of the two buttons. -/
structure ButtonPoll where
  nowMs : U32
  btnA : ButtonClass := {}
  btnB : ButtonClass := {}

/-- The buttons with their ledgers, and what the library reported at the last poll. -/
structure WatchedButtons where
  buttons : Buttons
  ledgers : ButtonLedgers := {}
  lastA : ButtonClass := {}
  lastB : ButtonClass := {}

namespace WatchedButtons

/-- The ledgers with what the poll adds. -/
def arrived (s : WatchedButtons) (p : ButtonPoll) : ButtonLedgers where
  a := s.ledgers.a.arrive p.btnA p.nowMs
  b := s.ledgers.b.arrive p.btnB p.nowMs

/-- The gesture that the poll returns. -/
def gesture (s : WatchedButtons) (p : ButtonPoll) : Gesture :=
  (s.buttons.poll p.nowMs p.btnA p.btnB).1.gesture

def step (s : WatchedButtons) (p : ButtonPoll) : WatchedButtons where
  buttons := (s.buttons.poll p.nowMs p.btnA p.btnB).2
  ledgers := ((s.arrived p).settle (s.gesture p)).getD (s.arrived p)
  lastA := p.btnA
  lastB := p.btnB

end WatchedButtons

/-- What the library promises of a button of which it reported `last` at the poll before: it raises
`wasHold` at the poll that a hold begins, a button that is held is pressed, and one that was clicked
is released. -/
structure ButtonClass.Follows (last btn : ButtonClass) : Prop where
  hold : btn.wasHold = true ↔ btn.isHolding = true ∧ last.isHolding = false
  pressed : btn.isHolding = true → btn.isPressed = true
  released : btn.wasClicked = true → btn.isPressed = false

/-- A poll's reports follow the last one's. -/
def WatchedButtons.Follows (s : WatchedButtons) (p : ButtonPoll) : Prop :=
  ButtonClass.Follows s.lastA p.btnA ∧ ButtonClass.Follows s.lastB p.btnB

/-- The poll loses nothing and reports nothing twice: its gesture settles what is on the ledgers,
and what is left on them is what the buttons still hold back, in time. -/
structure WatchedButtons.Accounts (s : WatchedButtons) (p : ButtonPoll) : Prop where
  settles : ((s.arrived p).settle (s.gesture p)).isSome = true
  heldA : (s.step p).ledgers.a = Buttons.heldBack (s.step p).buttons.holdA (s.step p).buttons.clickA
  heldB : (s.step p).ledgers.b = Buttons.heldBack (s.step p).buttons.holdB (s.step p).buttons.clickB
  timeA : s.buttons.InTime s.buttons.clickA (s.step p).ledgers.a p.btnA ((s.gesture p).kindFor .a)
    p.nowMs
  timeB : s.buttons.InTime s.buttons.clickB (s.step p).ledgers.b p.btnB ((s.gesture p).kindFor .b)
    p.nowMs

/-- Unless both buttons are held, at most one has something to report, and neither button's own
inputs crowd each other out. -/
def WatchedButtons.Clear (s : WatchedButtons) (p : ButtonPoll) : Prop :=
  ¬ (p.btnA.isHolding = true ∧ p.btnB.isHolding = true) →
    ¬ (s.buttons.reports p.btnA p.btnB s.buttons.holdA s.buttons.clickA p.nowMs = true ∧
      s.buttons.reports p.btnB p.btnA s.buttons.holdB s.buttons.clickB p.nowMs = true) ∧
    s.buttons.crowds p.btnA p.btnB s.buttons.holdA p.nowMs = false ∧
    s.buttons.crowds p.btnB p.btnA s.buttons.holdB p.nowMs = false

instance (s : WatchedButtons) (p : ButtonPoll) : Decidable (s.Clear p) :=
  inferInstanceAs (Decidable (¬ (_ ∧ _) → _))

/-! ## One poll -/

namespace Buttons

/-- The state of the two buttons without their repeats. -/
def withoutRepeats (b : Buttons) : Buttons := { b with repeatA := {}, repeatB := {} }

section

variable {b : Buttons} {now : U32} {btnA btnB : ButtonClass}

theorem pollRepeats_gesture (b : Buttons) (pressed : Button) (btnA btnB : ButtonClass) (now : U32) :
    let g := (b.pollRepeats pressed btnA btnB now).1.gesture
    g = .none ∨ g = .aRepeat ∨ g = .bRepeat := by
  unfold pollRepeats
  dsimp only
  split_ifs
  · exact .inr (.inl rfl)
  · exact .inr (.inr rfl)
  · exact .inl rfl

theorem pollRepeats_state (b : Buttons) (pressed : Button) (btnA btnB : ButtonClass) (now : U32) :
    (b.pollRepeats pressed btnA btnB now).2.withoutRepeats = b.withoutRepeats := by
  unfold pollRepeats
  dsimp only
  split_ifs
  · rfl
  · rfl
  · rfl

theorem leaveBothHolding_state (b : Buttons) (btnA btnB : ButtonClass) (now : U32) :
    (b.leaveBothHolding btnA btnB now).withoutRepeats =
      { b.withoutRepeats with wasBothHolding := false } := by
  unfold leaveBothHolding
  dsimp only
  split_ifs
  · rfl
  · rfl
  · rfl
  · rfl
  · rfl

/-- What a poll returns and keeps when at most one button is held. -/
structure PollsApart (b : Buttons) (u v : Update) (r : PollResult × Buttons) : Prop where
  gesture : u.gesture ≠ .none ∧ r.1.gesture = u.gesture ∨
    u.gesture = .none ∧ v.gesture ≠ .none ∧ r.1.gesture = v.gesture ∨
    u.gesture = .none ∧ v.gesture = .none ∧
      (r.1.gesture = .none ∨ r.1.gesture = .aRepeat ∨ r.1.gesture = .bRepeat)
  state : r.2.withoutRepeats = { b.withoutRepeats with
    wasBothHolding := false, holdA := u.hold, clickA := u.click, holdB := v.hold, clickB := v.click }

theorem poll_apart (b : Buttons) (now : U32)
    (h : ¬ (btnA.isHolding = true ∧ btnB.isHolding = true)) :
    PollsApart b (b.update btnA .a btnB b.holdA b.clickA now)
      (b.update btnB .b btnA b.holdB b.clickB now) (b.poll now btnA btnB) := by
  have hleave := leaveBothHolding_state b btnA btnB now
  have hA : (b.leaveBothHolding btnA btnB now).update btnA .a btnB
      (b.leaveBothHolding btnA btnB now).holdA (b.leaveBothHolding btnA btnB now).clickA now =
      b.update btnA .a btnB b.holdA b.clickA now := by
    show (b.leaveBothHolding btnA btnB now).withoutRepeats.update btnA .a btnB
      (b.leaveBothHolding btnA btnB now).withoutRepeats.holdA
      (b.leaveBothHolding btnA btnB now).withoutRepeats.clickA now = _
    rw [hleave]
    rfl
  have hB : (b.leaveBothHolding btnA btnB now).update btnB .b btnA
      (b.leaveBothHolding btnA btnB now).holdB (b.leaveBothHolding btnA btnB now).clickB now =
      b.update btnB .b btnA b.holdB b.clickB now := by
    show (b.leaveBothHolding btnA btnB now).withoutRepeats.update btnB .b btnA
      (b.leaveBothHolding btnA btnB now).withoutRepeats.holdB
      (b.leaveBothHolding btnA btnB now).withoutRepeats.clickB now = _
    rw [hleave]
    rfl
  unfold poll
  rw [if_neg (by rw [Bool.and_eq_true]; exact h)]
  dsimp only
  rw [hA, hB]
  generalize b.update btnA .a btnB b.holdA b.clickA now = u
  generalize b.update btnB .b btnA b.holdB b.clickB now = v
  have hstate (repeatA repeatB : RepeatState) :
      { b.leaveBothHolding btnA btnB now with
        repeatA := repeatA, repeatB := repeatB, holdA := u.hold, clickA := u.click, holdB := v.hold,
        clickB := v.click }.withoutRepeats =
      { b.withoutRepeats with
        wasBothHolding := false, holdA := u.hold, clickA := u.click, holdB := v.hold,
        clickB := v.click } := by
    show { (b.leaveBothHolding btnA btnB now).withoutRepeats with
      holdA := u.hold, clickA := u.click, holdB := v.hold, clickB := v.click } = _
    rw [hleave]
  by_cases hu : u.gesture = .none
  · rw [if_neg (not_not.2 hu)]
    by_cases hv : v.gesture = .none
    · rw [if_neg (not_not.2 hv)]
      refine ⟨.inr (.inr ⟨hu, hv, pollRepeats_gesture _ _ _ _ _⟩), ?_⟩
      exact (pollRepeats_state _ _ _ _ _).trans (hstate _ _)
    · rw [if_pos hv]
      exact ⟨.inr (.inl ⟨hu, hv, rfl⟩), hstate _ _⟩
  · rw [if_pos hu]
    exact ⟨.inl ⟨hu, rfl⟩, hstate _ _⟩

end

end Buttons

/-! ## The gesture and the kinds of the two buttons -/

theorem kindFor_a {kind : GestureKind} (h : kind ≠ .repeat_) :
    (makeGesture .a kind).kindFor .a = kind ∧ (makeGesture .a kind).kindFor .b = .none := by
  cases kind with
  | repeat_ => exact absurd rfl h
  | none => decide
  | short => decide
  | double => decide
  | long => decide

theorem kindFor_b {kind : GestureKind} (h : kind ≠ .repeat_) :
    (makeGesture .b kind).kindFor .a = .none ∧ (makeGesture .b kind).kindFor .b = kind := by
  cases kind with
  | repeat_ => exact absurd rfl h
  | none => decide
  | short => decide
  | double => decide
  | long => decide

theorem makeGesture_eq_none {button : Button} {kind : GestureKind} :
    makeGesture button kind = .none ↔ kind = .none := by
  cases button <;> cases kind <;> decide

theorem makeGesture_ne_abLong {button : Button} {kind : GestureKind} (h : button ≠ .both) :
    makeGesture button kind ≠ .abLong := by
  revert h
  cases button <;> cases kind <;> decide

theorem eq_none_of_cost {kind : GestureKind} (h : kind.cost = 0) (hr : kind ≠ .repeat_) :
    kind = .none := by
  cases kind with
  | none => rfl
  | repeat_ => exact absurd rfl hr
  | short => exact absurd h (by decide)
  | double => exact absurd h (by decide)
  | long => exact absurd h (by decide)

/-- A gesture of the kind `kind'` settles what one of the kind `kind` does. -/
def GestureKind.SettlesAs (kind' kind : GestureKind) : Prop :=
  kind' = kind ∨ kind' = .repeat_ ∧ kind = .none

theorem GestureKind.SettlesAs.settle {kind' kind : GestureKind} (h : kind'.SettlesAs kind)
    (l : ButtonLedger) :
    l.settle kind' = l.settle kind := by
  rcases h with rfl | ⟨rfl, rfl⟩
  · rfl
  · rfl

theorem GestureKind.SettlesAs.cost {kind' kind : GestureKind} (h : kind'.SettlesAs kind) :
    kind'.cost = kind.cost := by
  rcases h with rfl | ⟨rfl, rfl⟩
  · rfl
  · rfl

theorem GestureKind.SettlesAs.inTime {b : Buttons} {cs : ClickState} {l : ButtonLedger}
    {btn : ButtonClass} {kind' kind : GestureKind} {nowMs : U32} (h : kind'.SettlesAs kind)
    (ht : b.InTime cs l btn kind nowMs) : b.InTime cs l btn kind' nowMs := by
  rcases h with rfl | ⟨rfl, rfl⟩
  · exact ht
  · exact ⟨fun t hmem => ⟨(ht.clicks t hmem).1, (ht.clicks t hmem).2.imp_right nofun⟩, ht.holds⟩

/-- The gesture of a poll in which the two buttons report `kindA` and `kindB`: the first one's if it
has anything. -/
structure Gesture.Returned (g : Gesture) (kindA kindB : GestureKind) : Prop where
  apart : g ≠ .abLong
  settlesA : (g.kindFor .a).SettlesAs kindA
  settlesB : kindA ≠ .none ∧ g.kindFor .b = .none ∨
    kindA = .none ∧ (g.kindFor .b).SettlesAs kindB

theorem returned_of_pollsApart {b : Buttons} {u v : Buttons.Update}
    {r : Buttons.PollResult × Buttons} {kindA kindB : GestureKind} (h : b.PollsApart u v r)
    (hu : u.gesture = makeGesture .a kindA) (hA : kindA ≠ .repeat_)
    (hv : v.gesture = makeGesture .b kindB) (hB : kindB ≠ .repeat_) :
    Gesture.Returned r.1.gesture kindA kindB := by
  obtain ⟨hne, hg⟩ | ⟨hnone, -, hg⟩ | ⟨hnoneA, hnoneB, hg⟩ := h.gesture
  · obtain ⟨ha, hb⟩ := kindFor_a hA
    rw [hu] at hg hne
    rw [hg]
    exact ⟨makeGesture_ne_abLong (by decide), .inl ha,
      .inl ⟨fun hk => hne (makeGesture_eq_none.2 hk), hb⟩⟩
  · obtain ⟨ha, hb⟩ := kindFor_b hB
    rw [hu, makeGesture_eq_none] at hnone
    rw [hg, hv]
    exact ⟨makeGesture_ne_abLong (by decide), .inl (ha.trans hnone.symm), .inr ⟨hnone, .inl hb⟩⟩
  · rw [hu, makeGesture_eq_none] at hnoneA
    rw [hv, makeGesture_eq_none] at hnoneB
    rw [hnoneA, hnoneB]
    rcases hg with hg | hg | hg
    · rw [hg]
      exact ⟨by decide, .inl rfl, .inr ⟨rfl, .inl rfl⟩⟩
    · rw [hg]
      exact ⟨by decide, .inr ⟨rfl, rfl⟩, .inr ⟨rfl, .inl rfl⟩⟩
    · rw [hg]
      exact ⟨by decide, .inl rfl, .inr ⟨rfl, .inr ⟨rfl, rfl⟩⟩⟩

/-! ## The invariant -/

/-- What is on the ledgers is what the buttons hold back, and nothing while both are held. -/
structure WatchedButtons.Sound (s : WatchedButtons) : Prop where
  heldA : s.ledgers.a = Buttons.heldBack s.buttons.holdA s.buttons.clickA
  heldB : s.ledgers.b = Buttons.heldBack s.buttons.holdB s.buttons.clickB
  decidedA : Buttons.Decided s.buttons.clickA
  decidedB : Buttons.Decided s.buttons.clickB
  twoA : s.buttons.holdA.pendingLong = true → s.buttons.twoButtonLongEnabled = true
  twoB : s.buttons.holdB.pendingLong = true → s.buttons.twoButtonLongEnabled = true
  both : s.buttons.wasBothHolding = true ↔ s.lastA.isHolding = true ∧ s.lastB.isHolding = true
  settled : s.buttons.wasBothHolding = true → s.ledgers = {}

namespace WatchedButtons

section

variable {s : WatchedButtons} {p : ButtonPoll}

theorem inTime_empty (b : Buttons) (cs : ClickState) (btn : ButtonClass) (kind : GestureKind)
    (nowMs : U32) : b.InTime cs {} btn kind nowMs :=
  ⟨fun _ ht => absurd ht List.not_mem_nil, fun _ ht => absurd ht List.not_mem_nil⟩

/-- A poll that finds both buttons still held changes nothing. -/
theorem accounts_of_still_both (h : Sound s) (hf : s.Follows p)
    (hp : p.btnA.isHolding = true ∧ p.btnB.isHolding = true)
    (hw : s.buttons.wasBothHolding = true) :
    s.Accounts p ∧ Sound (s.step p) := by
  obtain ⟨hlastA, hlastB⟩ := h.both.1 hw
  have hquiet {last btn : ButtonClass} (hfb : last.Follows btn) (hl : last.isHolding = true)
      (hh : btn.isHolding = true) (l : ButtonLedger) (nowMs : U32) : l.arrive btn nowMs = l := by
    apply Buttons.arrive_of_quiet
    · intro hhold
      rw [(hfb.hold.1 hhold).2] at hl
      exact absurd hl (by decide)
    · intro hc
      have hreleased := hfb.released hc
      rw [hfb.pressed hh] at hreleased
      exact absurd hreleased (by decide)
  have harrived : s.arrived p = s.ledgers := by
    unfold arrived
    rw [hquiet hf.1 hlastA hp.1, hquiet hf.2 hlastB hp.2]
  have hpoll : s.buttons.poll p.nowMs p.btnA p.btnB =
      ({ pressed := (s.buttons.poll p.nowMs p.btnA p.btnB).1.pressed }, s.buttons) := by
    unfold Buttons.poll
    rw [hp.1, hp.2, hw]
    rfl
  have hg : s.gesture p = .none := by
    unfold gesture
    rw [hpoll]
  have hstep : s.step p = { s with lastA := p.btnA, lastB := p.btnB } := by
    unfold step
    rw [harrived, hg, hpoll]
    rfl
  have hempty := h.settled hw
  refine ⟨⟨?_, ?_, ?_, ?_, ?_⟩, ?_⟩
  · rw [hg, harrived]
    rfl
  · rw [hstep]
    exact h.heldA
  · rw [hstep]
    exact h.heldB
  · rw [hstep]
    show Buttons.InTime _ _ s.ledgers.a _ _ _
    rw [hempty]
    exact inTime_empty _ _ _ _ _
  · rw [hstep]
    show Buttons.InTime _ _ s.ledgers.b _ _ _
    rw [hempty]
    exact inTime_empty _ _ _ _ _
  · rw [hstep]
    exact ⟨h.heldA, h.heldB, h.decidedA, h.decidedB, h.twoA, h.twoB,
      ⟨fun _ => hp, fun _ => hw⟩, h.settled⟩

/-- The poll that first finds both buttons held reports the holds together. -/
theorem accounts_of_both (h : Sound s) (hf : s.Follows p)
    (hp : p.btnA.isHolding = true ∧ p.btnB.isHolding = true)
    (hw : ¬ s.buttons.wasBothHolding = true) : s.Accounts p ∧ Sound (s.step p) := by
  have hholds : ¬ ((s.arrived p).a.holds = [] ∧ (s.arrived p).b.holds = []) := by
    rintro ⟨ha, hb⟩
    apply hw
    have hlast {last btn : ButtonClass} (hfb : last.Follows btn) (hh : btn.isHolding = true)
        {l : ButtonLedger} {nowMs : U32} (he : (l.arrive btn nowMs).holds = []) :
        last.isHolding = true := by
      by_contra hn
      rw [Buttons.arrive_of_hold l (hfb.hold.2 ⟨hh, Bool.eq_false_iff.2 hn⟩)] at he
      exact List.append_ne_nil_of_right_ne_nil _ (List.cons_ne_nil _ _) he
    exact h.both.2 ⟨hlast hf.1 hp.1 ha, hlast hf.2 hp.2 hb⟩
  have hpoll : s.buttons.poll p.nowMs p.btnA p.btnB =
      ({ pressed := (s.buttons.poll p.nowMs p.btnA p.btnB).1.pressed, gesture := .abLong },
        { s.buttons with
          wasBothHolding := true
          clickA := { s.buttons.clickA with count := 0 }
          clickB := { s.buttons.clickB with count := 0 }
          holdA := { s.buttons.holdA with pendingLong := false }
          holdB := { s.buttons.holdB with pendingLong := false } }) := by
    unfold Buttons.poll
    rw [hp.1, hp.2, Bool.eq_false_iff.2 hw]
    rfl
  have hg : s.gesture p = .abLong := by
    unfold gesture
    rw [hpoll]
  have hsettle : (s.arrived p).settle (s.gesture p) = some {} := by
    rw [hg]
    unfold ButtonLedgers.settle
    rw [if_pos rfl, if_neg hholds]
  have hledgers : (s.step p).ledgers = {} := by
    unfold step
    rw [hsettle]
    rfl
  have hbuttons : (s.step p).buttons = { s.buttons with
      wasBothHolding := true
      clickA := { s.buttons.clickA with count := 0 }
      clickB := { s.buttons.clickB with count := 0 }
      holdA := { s.buttons.holdA with pendingLong := false }
      holdB := { s.buttons.holdB with pendingLong := false } } := by
    unfold step
    rw [hpoll]
  have hheldA : (s.step p).ledgers.a =
      Buttons.heldBack (s.step p).buttons.holdA (s.step p).buttons.clickA := by
    rw [hledgers, hbuttons]
    rfl
  have hheldB : (s.step p).ledgers.b =
      Buttons.heldBack (s.step p).buttons.holdB (s.step p).buttons.clickB := by
    rw [hledgers, hbuttons]
    rfl
  refine ⟨⟨by rw [hsettle]; rfl, hheldA, hheldB, ?_, ?_⟩, hheldA, hheldB, ?_, ?_, ?_, ?_, ?_, ?_⟩
  · rw [hledgers]
    exact inTime_empty _ _ _ _ _
  · rw [hledgers]
    exact inTime_empty _ _ _ _ _
  · rw [hbuttons]
    exact Buttons.Decided.cleared
  · rw [hbuttons]
    exact Buttons.Decided.cleared
  · rw [hbuttons]
    exact fun hpend => absurd hpend Bool.false_ne_true
  · rw [hbuttons]
    exact fun hpend => absurd hpend Bool.false_ne_true
  · rw [hbuttons]
    exact ⟨fun _ => hp, fun _ => rfl⟩
  · exact fun _ => hledgers

/-- What a poll that finds at most one button held comes to. -/
structure Apart (s : WatchedButtons) (p : ButtonPoll) (u v : Buttons.Update)
    (kindA kindB : GestureKind) : Prop where
  a : s.buttons.Balances p.btnA p.btnB .a s.buttons.holdA s.buttons.clickA p.nowMs u kindA
  b : s.buttons.Balances p.btnB p.btnA .b s.buttons.holdB s.buttons.clickB p.nowMs v kindB
  returned : Gesture.Returned (s.gesture p) kindA kindB
  buttons : (s.step p).buttons.withoutRepeats = { s.buttons.withoutRepeats with
    wasBothHolding := false, holdA := u.hold, clickA := u.click, holdB := v.hold, clickB := v.click }

theorem apart (h : Sound s) (hp : ¬ (p.btnA.isHolding = true ∧ p.btnB.isHolding = true)) :
    ∃ u v kindA kindB, Apart s p u v kindA kindB := by
  have hpoll := Buttons.poll_apart s.buttons p.nowMs hp
  obtain ⟨kindA, hA⟩ := Buttons.update_balances p.btnA p.btnB .a p.nowMs h.decidedA h.twoA
  obtain ⟨kindB, hB⟩ := Buttons.update_balances p.btnB p.btnA .b p.nowMs h.decidedB h.twoB
  exact ⟨_, _, kindA, kindB, hA, hB,
    returned_of_pollsApart hpoll hA.gesture hA.once hB.gesture hB.once, hpoll.state⟩

section

variable {u v : Buttons.Update} {kindA kindB : GestureKind}

theorem Apart.heldBackA (h : Apart s p u v kindA kindB) :
    Buttons.heldBack (s.step p).buttons.holdA (s.step p).buttons.clickA =
      Buttons.heldBack u.hold u.click := by
  show Buttons.heldBack (s.step p).buttons.withoutRepeats.holdA
    (s.step p).buttons.withoutRepeats.clickA = _
  rw [h.buttons]

theorem Apart.heldBackB (h : Apart s p u v kindA kindB) :
    Buttons.heldBack (s.step p).buttons.holdB (s.step p).buttons.clickB =
      Buttons.heldBack v.hold v.click := by
  show Buttons.heldBack (s.step p).buttons.withoutRepeats.holdB
    (s.step p).buttons.withoutRepeats.clickB = _
  rw [h.buttons]

theorem arrived_a (h : Sound s) : (s.arrived p).a =
    (Buttons.heldBack s.buttons.holdA s.buttons.clickA).arrive p.btnA p.nowMs :=
  congrArg (fun l : ButtonLedger => l.arrive p.btnA p.nowMs) h.heldA

theorem arrived_b (h : Sound s) : (s.arrived p).b =
    (Buttons.heldBack s.buttons.holdB s.buttons.clickB).arrive p.btnB p.nowMs :=
  congrArg (fun l : ButtonLedger => l.arrive p.btnB p.nowMs) h.heldB

/-- A clear poll accounts for everything. -/
theorem accounts_of_clear (hs : Sound s) (h : Apart s p u v kindA kindB)
    (hone : ¬ (kindA ≠ .none ∧ kindB ≠ .none))
    (hcA : s.buttons.crowds p.btnA p.btnB s.buttons.holdA p.nowMs = false)
    (hcB : s.buttons.crowds p.btnB p.btnA s.buttons.holdB p.nowMs = false) : s.Accounts p := by
  have hA := h.a.settles hcA
  have hB := h.b.settles hcB
  have hB' : ((s.arrived p).b).settle ((s.gesture p).kindFor .b) =
      some (Buttons.heldBack v.hold v.click) := by
    rw [arrived_b hs]
    obtain ⟨hne, hnone⟩ | ⟨-, hsame⟩ := h.returned.settlesB
    · have hquiet : kindB = .none := by
        by_contra hk
        exact hone ⟨hne, hk⟩
      rw [hnone, ← hB, hquiet]
    · rw [hsame.settle, hB]
  have hsettle : (s.arrived p).settle (s.gesture p) =
      some ⟨Buttons.heldBack u.hold u.click, Buttons.heldBack v.hold v.click⟩ := by
    rw [ButtonLedgers.settle_eq_some h.returned.apart]
    refine ⟨?_, hB'⟩
    rw [h.returned.settlesA.settle, arrived_a hs, hA]
  have hledgers : (s.step p).ledgers =
      ⟨Buttons.heldBack u.hold u.click, Buttons.heldBack v.hold v.click⟩ := by
    unfold step
    rw [hsettle]
    rfl
  refine ⟨by rw [hsettle]; rfl, ?_, ?_, ?_, ?_⟩
  · rw [hledgers, h.heldBackA]
  · rw [hledgers, h.heldBackB]
  · rw [hledgers]
    exact h.returned.settlesA.inTime h.a.inTime
  · rw [hledgers]
    obtain ⟨hne, hnone⟩ | ⟨-, hsame⟩ := h.returned.settlesB
    · have hquiet : kindB = .none := by
        by_contra hk
        exact hone ⟨hne, hk⟩
      rw [hnone, ← hquiet]
      exact h.b.inTime
    · exact hsame.inTime h.b.inTime

/-- A poll that accounts for everything is clear. -/
theorem clear_of_accounts (hs : Sound s) (h : Apart s p u v kindA kindB) (hacc : s.Accounts p) :
    ¬ (kindA ≠ .none ∧ kindB ≠ .none) ∧
      s.buttons.crowds p.btnA p.btnB s.buttons.holdA p.nowMs = false ∧
      s.buttons.crowds p.btnB p.btnA s.buttons.holdB p.nowMs = false := by
  obtain ⟨l, hl⟩ := Option.isSome_iff_exists.1 hacc.settles
  have hledgers : (s.step p).ledgers = l := by
    unfold step
    rw [hl]
    rfl
  obtain ⟨ha, hb⟩ := (ButtonLedgers.settle_eq_some h.returned.apart).1 hl
  have hsizeA := ButtonLedger.size_settle ha
  have hsizeB := ButtonLedger.size_settle hb
  rw [← hledgers, hacc.heldA, h.heldBackA, h.returned.settlesA.cost, arrived_a hs] at hsizeA
  rw [← hledgers, hacc.heldB, h.heldBackB, arrived_b hs] at hsizeB
  have hcA : s.buttons.crowds p.btnA p.btnB s.buttons.holdA p.nowMs = false := by
    by_contra hc
    have hlost := h.a.lost (Bool.eq_true_of_not_eq_false hc)
    omega
  have hcost : ((s.gesture p).kindFor .b).cost ≤ kindB.cost := by
    obtain ⟨-, hnone⟩ | ⟨-, hsame⟩ := h.returned.settlesB
    · rw [hnone]
      exact Nat.zero_le _
    · exact hsame.cost.le
  have hcB : s.buttons.crowds p.btnB p.btnA s.buttons.holdB p.nowMs = false := by
    by_contra hc
    have hlost := h.b.lost (Bool.eq_true_of_not_eq_false hc)
    omega
  refine ⟨?_, hcA, hcB⟩
  -- the second gesture would be dropped, and what it settles would stay on the ledger
  rintro ⟨hneA, hneB⟩
  have hsettled := ButtonLedger.size_settle (h.b.settles hcB)
  obtain ⟨-, hnone⟩ | ⟨hnone, -⟩ := h.returned.settlesB
  · rw [hnone] at hsizeB
    refine hneB (eq_none_of_cost ?_ h.b.once)
    have hzero : GestureKind.cost .none = 0 := rfl
    omega
  · exact hneA hnone

/-- The poll keeps the invariant if it accounts for everything. -/
theorem sound_of_accounts (h : Apart s p u v kindA kindB)
    (hp : ¬ (p.btnA.isHolding = true ∧ p.btnB.isHolding = true)) (hacc : s.Accounts p) :
    Sound (s.step p) := by
  have hclickA : (s.step p).buttons.clickA = u.click :=
    (congrArg Buttons.clickA h.buttons :)
  have hclickB : (s.step p).buttons.clickB = v.click :=
    (congrArg Buttons.clickB h.buttons :)
  have htwo : (s.step p).buttons.twoButtonLongEnabled = s.buttons.twoButtonLongEnabled :=
    (congrArg Buttons.twoButtonLongEnabled h.buttons :)
  have hboth : (s.step p).buttons.wasBothHolding = false :=
    (congrArg Buttons.wasBothHolding h.buttons :)
  have hpend {hold : HoldState} {cs : ClickState} (hl : hold.pendingLong = true) :
      hold.deferredMs ∈ (Buttons.heldBack hold cs).holds := by
    unfold Buttons.heldBack
    rw [hl]
    exact List.mem_singleton_self _
  refine ⟨hacc.heldA, hacc.heldB, hclickA ▸ h.a.decided, hclickB ▸ h.b.decided, fun hl => ?_,
    fun hl => ?_, ?_, ?_⟩
  · rw [htwo]
    exact (hacc.timeA.holds _ (hacc.heldA ▸ hpend hl)).1
  · rw [htwo]
    exact (hacc.timeB.holds _ (hacc.heldB ▸ hpend hl)).1
  · rw [hboth]
    exact ⟨fun hw => absurd hw Bool.false_ne_true, fun hw => absurd hw hp⟩
  · rw [hboth]
    exact fun hw => absurd hw Bool.false_ne_true

end

end

/-- **Step lemma.** A poll accounts for everything if and only if it is clear. -/
theorem accounts_iff_clear {s : WatchedButtons} {p : ButtonPoll} (hs : Sound s)
    (hf : s.Follows p) :
    (s.Accounts p ↔ s.Clear p) ∧ (s.Accounts p → Sound (s.step p)) := by
  by_cases hp : p.btnA.isHolding = true ∧ p.btnB.isHolding = true
  · obtain ⟨hacc, hsound⟩ : s.Accounts p ∧ Sound (s.step p) := by
      by_cases hw : s.buttons.wasBothHolding = true
      · exact accounts_of_still_both hs hf hp hw
      · exact accounts_of_both hs hf hp hw
    exact ⟨⟨fun _ hn => absurd hp hn, fun _ => hacc⟩, fun _ => hsound⟩
  · obtain ⟨u, v, kindA, kindB, h⟩ := apart hs hp
    refine ⟨⟨fun hacc _ => ?_, fun hclear => ?_⟩, sound_of_accounts h hp⟩
    · rw [h.a.reports, h.b.reports]
      exact clear_of_accounts hs h hacc
    · have hclear' := hclear hp
      rw [h.a.reports, h.b.reports] at hclear'
      exact accounts_of_clear hs h hclear'.1 hclear'.2.1 hclear'.2.2

end WatchedButtons

/-! ## Whole runs -/

namespace Buttons

/-- Nothing is held back. -/
structure Rests (b : Buttons) : Prop where
  countA : b.clickA.count = 0
  countB : b.clickB.count = 0
  longA : b.holdA.pendingLong = false
  longB : b.holdB.pendingLong = false
  both : b.wasBothHolding = false

theorem rests_onClick {b : Buttons} (h : b.Rests) (buttons : Button) {f : ClickState → ClickState}
    (hf : ∀ s : ClickState, s.count = 0 → (f s).count = 0) : (b.onClick buttons f).Rests :=
  ⟨iteInduction (motive := fun s : ClickState => s.count = 0) (fun _ => hf _ h.countA)
      fun _ => h.countA,
    iteInduction (motive := fun s : ClickState => s.count = 0) (fun _ => hf _ h.countB)
      fun _ => h.countB,
    h.longA, h.longB, h.both⟩

theorem rests_configure {b : Buttons} (h : b.Rests) (setting : Setting) :
    (b.configure setting).Rests := by
  obtain ⟨h₁, h₂, h₃, h₄, h₅⟩ := id h
  cases setting with
  | setAutoRepeat initialMs intervalMs buttons => exact ⟨h₁, h₂, h₃, h₄, h₅⟩
  | enableAutoRepeat buttons => exact ⟨h₁, h₂, h₃, h₄, h₅⟩
  | clearAutoRepeat buttons => exact ⟨h₁, h₂, h₃, h₄, h₅⟩
  | disableAutoRepeat buttons => exact ⟨h₁, h₂, h₃, h₄, h₅⟩
  | setDoublePressWindow windowMs buttons =>
    exact rests_onClick (f := fun s => { s with windowMs := windowMs }) h buttons fun _ hs => hs
  | enableDoublePress buttons =>
    exact rests_onClick (f := fun s => { s with enabled := true, count := 0 }) h buttons
      fun _ _ => rfl
  | disableDoublePress buttons =>
    exact rests_onClick (f := fun s => { s with enabled := false, count := 0 }) h buttons
      fun _ _ => rfl
  | setTwoButtonGrace graceMs => exact ⟨h₁, h₂, h₃, h₄, h₅⟩
  | enableTwoButtonLong => exact ⟨h₁, h₂, h₃, h₄, h₅⟩
  | disableTwoButtonLong => exact ⟨h₁, h₂, rfl, rfl, h₅⟩

theorem rests_exec (settings : List Setting) : (exec configure {} settings).Rests := by
  induction settings using List.reverseRecOn with
  | nil => exact ⟨rfl, rfl, rfl, rfl, rfl⟩
  | append_singleton settings setting ih =>
    rw [exec_append]
    exact rests_configure ih setting

end Buttons

/-- The buttons before the first poll, with the settings. -/
def configuredButtons (settings : List Buttons.Setting) : WatchedButtons :=
  { buttons := exec Buttons.configure {} settings }

theorem sound_configuredButtons (settings : List Buttons.Setting) :
    WatchedButtons.Sound (configuredButtons settings) := by
  obtain ⟨hcountA, hcountB, hlongA, hlongB, hboth⟩ := Buttons.rests_exec settings
  have hempty {hold : HoldState} {cs : ClickState} (hl : hold.pendingLong = false)
      (hc : cs.count = 0) : Buttons.heldBack hold cs = {} := by
    rw [Buttons.heldBack_count_zero hold cs hc, hl]
    rfl
  unfold configuredButtons
  refine ⟨(hempty hlongA hcountA).symm, (hempty hlongB hcountB).symm,
    ⟨.inl hcountA, fun _ => hcountA⟩, ⟨.inl hcountB, fun _ => hcountB⟩, fun hl => ?_, fun hl => ?_, ?_, fun _ => rfl⟩
  · exact absurd (hlongA.symm.trans hl) Bool.false_ne_true
  · exact absurd (hlongB.symm.trans hl) Bool.false_ne_true
  · exact ⟨fun hw => absurd (hboth.symm.trans hw) Bool.false_ne_true, fun hw =>
      absurd hw.1 Bool.false_ne_true⟩

/-- **Every click and every hold is reported once** along a run, exactly if in each poll that finds
at most one button held, at most one has something to report, no hold is withheld while an earlier
one of its button is, and no click comes when its button's withheld hold falls due. -/
theorem buttons_account_iff (settings : List Buttons.Setting) (polls : List ButtonPoll)
    (h : Along WatchedButtons.step WatchedButtons.Follows (configuredButtons settings) polls) :
    Along WatchedButtons.step WatchedButtons.Accounts (configuredButtons settings) polls ↔
      Along WatchedButtons.step WatchedButtons.Clear (configuredButtons settings) polls :=
  along_congr WatchedButtons.Sound (fun _ _ hs hf => WatchedButtons.accounts_iff_clear hs hf) h
    (sound_configuredButtons settings)

/-- Both buttons are pressed at one poll and clicked at the next. -/
def bothClicked : List ButtonPoll :=
  [{ nowMs := 1000, btnA := { wasPressed := true, isPressed := true },
     btnB := { wasPressed := true, isPressed := true } },
   { nowMs := 1100, btnA := { wasClicked := true }, btnB := { wasClicked := true } }]

/-- The buttons are clicked at different polls. -/
def clickedInTurn : List ButtonPoll :=
  [{ nowMs := 1000, btnA := { wasPressed := true, isPressed := true },
     btnB := { wasPressed := true, isPressed := true } },
   { nowMs := 1100, btnA := { wasClicked := true }, btnB := { isPressed := true } },
   { nowMs := 1110, btnB := { wasClicked := true } }]

theorem follows_of_quiet {last btn : ButtonClass} (hhold : btn.wasHold = false)
    (hholding : btn.isHolding = false) (hclick : btn.wasClicked = true → btn.isPressed = false) :
    ButtonClass.Follows last btn where
  hold := by
    rw [hhold, hholding]
    exact ⟨fun h => absurd h Bool.false_ne_true, fun h => absurd h.1 Bool.false_ne_true⟩
  pressed := by
    rw [hholding]
    exact fun h => absurd h Bool.false_ne_true
  released := hclick

theorem buttons_account_iff_clickedInTurn :
    Along WatchedButtons.step WatchedButtons.Accounts (configuredButtons []) clickedInTurn :=
  (buttons_account_iff [] clickedInTurn
    ⟨⟨follows_of_quiet rfl rfl (by decide), follows_of_quiet rfl rfl (by decide)⟩,
      ⟨follows_of_quiet rfl rfl (by decide), follows_of_quiet rfl rfl (by decide)⟩,
      ⟨follows_of_quiet rfl rfl (by decide), follows_of_quiet rfl rfl (by decide)⟩, trivial⟩).2
    (by decide)

/-- The click of the second button is lost. -/
theorem not_buttons_account :
    Along WatchedButtons.step WatchedButtons.Follows (configuredButtons []) bothClicked ∧
      ¬ Along WatchedButtons.step WatchedButtons.Accounts (configuredButtons []) bothClicked := by
  refine ⟨⟨⟨follows_of_quiet rfl rfl (by decide), follows_of_quiet rfl rfl (by decide)⟩,
    ⟨follows_of_quiet rfl rfl (by decide), follows_of_quiet rfl rfl (by decide)⟩, trivial⟩, ?_⟩
  rintro ⟨-, hacc, -⟩
  have hheld := hacc.heldB
  revert hheld
  decide

end Pumpbug
