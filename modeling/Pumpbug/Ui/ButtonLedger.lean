import Pumpbug.Ui.Buttons

/-!
# The ledger of a button

A button's ledger keeps the clicks and holds that are still to be reported; every gesture settles some of
them.  What one update leaves on it is what the button then holds back for a decision, unless its own
inputs crowd each other out.
-/

namespace Pumpbug

/-- The clicks and the holds of one button that are still to be reported, by their times. -/
structure ButtonLedger where
  clicks : List U32 := []
  holds : List U32 := []
  deriving DecidableEq

namespace ButtonLedger

/-- What a poll adds: a hold cancels the clicks before it. -/
def arrive (l : ButtonLedger) (btn : ButtonClass) (nowMs : U32) : ButtonLedger :=
  if btn.wasHold then { clicks := [], holds := l.holds ++ [nowMs] }
  else if btn.wasClicked then { l with clicks := l.clicks ++ [nowMs] }
  else l

/-- What a gesture of the kind settles, if there is that much: the first click, the first two
clicks, or the last hold. -/
def settle (l : ButtonLedger) : GestureKind → Option ButtonLedger
  | .none | .repeat_ => some l
  | .short =>
    match l.clicks with
    | _ :: clicks => some { l with clicks := clicks }
    | [] => none
  | .double =>
    match l.clicks with
    | _ :: _ :: clicks => some { l with clicks := clicks }
    | _ => none
  | .long => if l.holds = [] then none else some { l with holds := l.holds.dropLast }

/-- The number of entries. -/
def size (l : ButtonLedger) : ℕ := l.clicks.length + l.holds.length

end ButtonLedger

/-- The number of entries that a gesture of the kind settles. -/
def GestureKind.cost : GestureKind → ℕ
  | .none | .repeat_ => 0
  | .short | .long => 1
  | .double => 2

theorem ButtonLedger.size_settle {l l' : ButtonLedger} {kind : GestureKind}
    (h : l.settle kind = some l') :
    l.size = l'.size + kind.cost := by
  unfold ButtonLedger.settle at h
  cases kind with
  | none =>
    obtain rfl := Option.some.inj h
    rfl
  | repeat_ =>
    obtain rfl := Option.some.inj h
    rfl
  | short =>
    cases hc : l.clicks with
    | nil =>
      rw [hc] at h
      exact absurd h.symm (Option.some_ne_none _)
    | cons t clicks =>
      rw [hc] at h
      obtain rfl := Option.some.inj h
      simp only [ButtonLedger.size, GestureKind.cost, hc, List.length_cons]
      omega
  | double =>
    match hc : l.clicks with
    | [] =>
      rw [hc] at h
      exact absurd h.symm (Option.some_ne_none _)
    | [t] =>
      rw [hc] at h
      exact absurd h.symm (Option.some_ne_none _)
    | t :: u :: clicks =>
      rw [hc] at h
      obtain rfl := Option.some.inj h
      simp only [ButtonLedger.size, GestureKind.cost, hc, List.length_cons]
      omega
  | long =>
    by_cases hh : l.holds = []
    · rw [if_pos hh] at h
      exact absurd h.symm (Option.some_ne_none _)
    · rw [if_neg hh] at h
      obtain rfl := Option.some.inj h
      have hpos := List.length_pos_iff.2 hh
      simp only [ButtonLedger.size, GestureKind.cost, List.length_dropLast]
      omega

/-- What a button holds back: a click that waits for a second one, a hold that waits for the other
button's. -/
def Buttons.heldBack (hold : HoldState) (cs : ClickState) : ButtonLedger where
  clicks := if cs.count = 1 then [cs.firstClickMs] else []
  holds := if hold.pendingLong then [hold.deferredMs] else []

/-- What is left on a button's ledger after a poll is in time: a click while its window is open or a
`LONG` of the button took the poll, a hold in its grace or at the poll of a hold. -/
structure Buttons.InTime (b : Buttons) (cs : ClickState) (l : ButtonLedger) (btn : ButtonClass)
    (kind : GestureKind) (nowMs : U32) : Prop where
  clicks : ∀ t ∈ l.clicks, cs.enabled = true ∧
    (nowMs - t < cs.windowMs.setWidth 32 ∨ kind = .long)
  holds : ∀ t ∈ l.holds, b.twoButtonLongEnabled = true ∧
    (nowMs - t < b.twoButtonGraceMs ∨ btn.wasHold = true)

/-! ## What a button has to report -/

namespace Buttons

section

variable (b : Buttons) (btn other : ButtonClass) (hold : HoldState) (cs : ClickState) (nowMs : U32)

/-- The hold is withheld for the other button's. -/
def withholds : Bool :=
  btn.wasHold && b.twoButtonLongEnabled && other.isPressed && !other.isHolding

/-- The grace of a withheld hold is over. -/
def longDue : Bool := hold.pendingLong && decide (b.twoButtonGraceMs ≤ nowMs - hold.deferredMs)

/-- The clicks so far make a `SHORT` or a `DOUBLE`. -/
def clickDue : Bool :=
  if cs.enabled then
    if btn.wasClicked then decide (cs.count ≠ 0) || decide (cs.windowMs = 0)
    else decide (cs.count = 1) && decide (cs.windowMs.setWidth 32 ≤ nowMs - cs.firstClickMs)
  else btn.wasClicked

/-- The button has something to report. -/
def reports : Bool :=
  if btn.wasHold then !b.withholds btn other
  else b.longDue hold nowMs || clickDue btn cs nowMs

/-- A hold is withheld while an earlier one is, or a click comes when a withheld hold falls due. -/
def crowds : Bool :=
  b.withholds btn other && hold.pendingLong ||
    !btn.wasHold && b.longDue hold nowMs && btn.wasClicked

end

end Buttons

/-! ## One button -/

namespace Buttons

/-- A button that does not wait for a second click has none pending, any other one at most. -/
structure Decided (cs : ClickState) : Prop where
  count : cs.count = 0 ∨ cs.count = 1
  enabled : cs.enabled = false → cs.count = 0

section

variable {b : Buttons} {btn other : ButtonClass} {button : Button} {hold : HoldState}
  {cs : ClickState} {nowMs : U32}

theorem update_of_withholds (h : b.withholds btn other = true) :
    b.update btn button other hold cs nowMs =
      ⟨.none, { pendingLong := true, deferredMs := nowMs }, { cs with count := 0 }⟩ := by
  unfold withholds at h
  simp only [Bool.and_eq_true] at h
  obtain ⟨⟨⟨hhold, htwo⟩, hpressed⟩, hother⟩ := h
  unfold update
  rw [if_pos hhold, htwo, hpressed, hother]
  rfl

theorem update_of_hold (hh : btn.wasHold = true) (h : ¬ b.withholds btn other = true) :
    b.update btn button other hold cs nowMs =
      ⟨makeGesture button .long, hold, { cs with count := 0 }⟩ := by
  unfold withholds at h
  rw [hh, Bool.true_and] at h
  unfold update
  rw [if_pos hh, if_neg h]

theorem update_of_longDue (hh : ¬ btn.wasHold = true) (h : b.longDue hold nowMs = true) :
    b.update btn button other hold cs nowMs =
      ⟨makeGesture button .long, { hold with pendingLong := false }, cs⟩ := by
  unfold longDue at h
  unfold update
  rw [if_neg hh, if_pos h]

theorem update_of_click (hh : ¬ btn.wasHold = true) (h : ¬ b.longDue hold nowMs = true)
    (he : cs.enabled = false) :
    b.update btn button other hold cs nowMs =
      ⟨if btn.wasClicked then makeGesture button .short else .none, hold, cs⟩ := by
  unfold longDue at h
  unfold update
  rw [if_neg hh, if_neg h, he]
  rfl

/-- A second click makes a `DOUBLE`. -/
theorem update_of_second (hh : ¬ btn.wasHold = true) (h : ¬ b.longDue hold nowMs = true)
    (he : cs.enabled = true) (hc : btn.wasClicked = true) (h1 : cs.count = 1) :
    b.update btn button other hold cs nowMs =
      ⟨makeGesture button .double, hold, { cs with count := 0 }⟩ := by
  unfold longDue at h
  unfold update
  rw [if_neg hh, if_neg h, he, hc]
  simp [h1]

/-- A first click opens the window. -/
theorem update_of_first (hh : ¬ btn.wasHold = true) (h : ¬ b.longDue hold nowMs = true)
    (he : cs.enabled = true) (hc : btn.wasClicked = true) (h0 : cs.count = 0) :
    b.update btn button other hold cs nowMs =
      if cs.windowMs = 0 then ⟨makeGesture button .short, hold, { cs with firstClickMs := nowMs }⟩
      else ⟨.none, hold, { cs with firstClickMs := nowMs, count := 1 }⟩ := by
  obtain ⟨enabled, windowMs, count, firstClickMs⟩ := cs
  have hzero : windowMs.setWidth 32 = 0#32 ↔ windowMs = 0#16 := by bv_omega
  obtain rfl : enabled = true := he
  obtain rfl : count = 0 := h0
  unfold longDue at h
  unfold update
  rw [if_neg hh, if_neg h, hc]
  simp [hzero]

/-- Without a click the window may close. -/
theorem update_of_window (hh : ¬ btn.wasHold = true) (h : ¬ b.longDue hold nowMs = true)
    (he : cs.enabled = true) (hc : ¬ btn.wasClicked = true) :
    b.update btn button other hold cs nowMs =
      if cs.count = 1 ∧ cs.windowMs.setWidth 32 ≤ nowMs - cs.firstClickMs then
        ⟨makeGesture button .short, hold, { cs with count := 0 }⟩
      else ⟨.none, hold, cs⟩ := by
  obtain ⟨enabled, windowMs, count, firstClickMs⟩ := cs
  obtain rfl : enabled = true := he
  unfold longDue at h
  unfold update
  rw [if_neg hh, if_neg h, Bool.eq_false_iff.2 hc]
  simp

/-- What an update comes to for the account of its button: a gesture of the kind `kind`. -/
structure Balances (b : Buttons) (btn other : ButtonClass) (button : Button) (hold : HoldState)
    (cs : ClickState) (nowMs : U32) (u : Update) (kind : GestureKind) : Prop where
  gesture : u.gesture = makeGesture button kind
  once : kind ≠ .repeat_
  reports : b.reports btn other hold cs nowMs = true ↔ kind ≠ .none
  settles : b.crowds btn other hold nowMs = false →
    ((heldBack hold cs).arrive btn nowMs).settle kind = some (heldBack u.hold u.click)
  lost : b.crowds btn other hold nowMs = true →
    ((heldBack hold cs).arrive btn nowMs).size = (heldBack u.hold u.click).size + kind.cost + 1
  decided : Decided u.click
  inTime : b.InTime cs (heldBack u.hold u.click) btn kind nowMs

theorem heldBack_count_zero (hold : HoldState) (cs : ClickState) (h : cs.count = 0) :
    heldBack hold cs =
      { clicks := [], holds := if hold.pendingLong then [hold.deferredMs] else [] } := by
  unfold heldBack
  rw [h]
  rfl

theorem heldBack_count_one (hold : HoldState) (cs : ClickState) (h : cs.count = 1) :
    heldBack hold cs =
      { clicks := [cs.firstClickMs],
        holds := if hold.pendingLong then [hold.deferredMs] else [] } := by
  unfold heldBack
  rw [h]
  rfl

theorem Decided.cleared {cs : ClickState} : Decided { cs with count := 0 } :=
  ⟨.inl rfl, fun _ => rfl⟩

/-- Holds that are within their grace, or at the poll of a hold. -/
theorem inTime_holds (btn : ButtonClass) (h : ¬ b.longDue hold nowMs = true)
    (htwo : hold.pendingLong = true → b.twoButtonLongEnabled = true) :
    ∀ t ∈ (if hold.pendingLong then [hold.deferredMs] else []), b.twoButtonLongEnabled = true ∧
      (nowMs - t < b.twoButtonGraceMs ∨ btn.wasHold = true) := by
  intro t ht
  by_cases hp : hold.pendingLong = true
  · rw [if_pos hp, List.mem_singleton] at ht
    unfold longDue at h
    rw [hp, Bool.true_and, decide_eq_true_eq, BitVec.not_le] at h
    rw [ht]
    exact ⟨htwo hp, .inl h⟩
  · rw [if_neg hp] at ht
    exact absurd ht List.not_mem_nil

theorem arrive_of_hold (l : ButtonLedger) (h : btn.wasHold = true) :
    l.arrive btn nowMs = { clicks := [], holds := l.holds ++ [nowMs] } := if_pos h

theorem arrive_of_click (l : ButtonLedger) (h : ¬ btn.wasHold = true) (hc : btn.wasClicked = true) :
    l.arrive btn nowMs = { l with clicks := l.clicks ++ [nowMs] } := by
  unfold ButtonLedger.arrive
  rw [if_neg h, if_pos hc]

theorem arrive_of_quiet (l : ButtonLedger) (h : ¬ btn.wasHold = true)
    (hc : ¬ btn.wasClicked = true) :
    l.arrive btn nowMs = l := by
  unfold ButtonLedger.arrive
  rw [if_neg h, if_neg hc]

theorem crowds_of_hold (h : btn.wasHold = true) :
    b.crowds btn other hold nowMs = (b.withholds btn other && hold.pendingLong) := by
  unfold crowds
  rw [h, Bool.not_true, Bool.false_and, Bool.false_and, Bool.or_false]

theorem crowds_of_no_hold (h : ¬ btn.wasHold = true) :
    b.crowds btn other hold nowMs = (b.longDue hold nowMs && btn.wasClicked) := by
  have hw : b.withholds btn other = false := by
    unfold withholds
    rw [Bool.eq_false_iff.2 h]
    rfl
  unfold crowds
  rw [hw, Bool.eq_false_iff.2 h, Bool.false_and, Bool.false_or, Bool.not_false, Bool.true_and]

theorem balances_of_withholds (h : b.withholds btn other = true) :
    Balances b btn other button hold cs nowMs (b.update btn button other hold cs nowMs) .none := by
  have hw := h
  unfold withholds at hw
  simp only [Bool.and_eq_true] at hw
  obtain ⟨⟨⟨hhold, htwo⟩, -⟩, -⟩ := hw
  have hreports : b.reports btn other hold cs nowMs = false := by
    unfold reports
    rw [if_pos hhold, h]
    rfl
  have hheld : heldBack { pendingLong := true, deferredMs := nowMs } { cs with count := 0 } =
      { clicks := [], holds := [nowMs] } := heldBack_count_zero _ _ rfl
  rw [update_of_withholds h]
  refine ⟨by cases button <;> rfl, by decide, by simp [hreports], fun hc => ?_, fun hc => ?_,
    Decided.cleared, ?_⟩
  · rw [crowds_of_hold hhold, h, Bool.true_and] at hc
    rw [arrive_of_hold _ hhold, hheld]
    unfold heldBack
    rw [hc]
    rfl
  · rw [crowds_of_hold hhold, h, Bool.true_and] at hc
    rw [arrive_of_hold _ hhold, hheld]
    unfold heldBack
    rw [hc]
    rfl
  · rw [hheld]
    refine ⟨fun t ht => absurd ht List.not_mem_nil, fun t _ => ⟨htwo, .inr hhold⟩⟩

theorem balances_of_hold (hh : btn.wasHold = true) (h : ¬ b.withholds btn other = true)
    (htwo : hold.pendingLong = true → b.twoButtonLongEnabled = true) :
    Balances b btn other button hold cs nowMs (b.update btn button other hold cs nowMs) .long := by
  have hreports : b.reports btn other hold cs nowMs = true := by
    unfold reports
    rw [if_pos hh, Bool.eq_false_iff.2 h]
    rfl
  have hcrowds : b.crowds btn other hold nowMs = false := by
    rw [crowds_of_hold hh, Bool.eq_false_iff.2 h, Bool.false_and]
  have hheld := heldBack_count_zero hold { cs with count := 0 } rfl
  rw [update_of_hold hh h]
  refine ⟨rfl, by decide, by simp [hreports], fun _ => ?_, fun hc => ?_, Decided.cleared, ?_⟩
  · rw [arrive_of_hold _ hh, hheld]
    unfold ButtonLedger.settle heldBack
    simp
  · rw [hcrowds] at hc
    exact absurd hc (by decide)
  · rw [hheld]
    refine ⟨fun t ht => absurd ht List.not_mem_nil, fun t ht => ⟨?_, .inr hh⟩⟩
    by_cases hp : hold.pendingLong = true
    · exact htwo hp
    · rw [if_neg hp] at ht
      exact absurd ht List.not_mem_nil

theorem balances_of_longDue (hcs : Decided cs) (hh : ¬ btn.wasHold = true)
    (h : b.longDue hold nowMs = true) :
    Balances b btn other button hold cs nowMs (b.update btn button other hold cs nowMs) .long := by
  have hp : hold.pendingLong = true := by
    unfold longDue at h
    exact (Bool.and_eq_true _ _ ▸ h).1
  have hreports : b.reports btn other hold cs nowMs = true := by
    unfold reports
    rw [if_neg hh, h, Bool.true_or]
  have hcrowds : b.crowds btn other hold nowMs = btn.wasClicked := by
    rw [crowds_of_no_hold hh, h, Bool.true_and]
  rw [update_of_longDue hh h]
  refine ⟨rfl, by decide, by simp [hreports], fun hc => ?_, fun hc => ?_, hcs, ?_⟩
  · rw [hcrowds] at hc
    rw [arrive_of_quiet _ hh (Bool.eq_false_iff.1 hc)]
    unfold ButtonLedger.settle heldBack
    rw [hp]
    rfl
  · rw [hcrowds] at hc
    rw [arrive_of_click _ hh hc]
    unfold ButtonLedger.size heldBack GestureKind.cost
    rw [hp]
    simp
  · refine ⟨fun t ht => ⟨?_, .inr rfl⟩, fun t ht => absurd ht List.not_mem_nil⟩
    rcases hcs.count with h0 | h1
    · rw [heldBack_count_zero _ _ h0] at ht
      exact absurd ht List.not_mem_nil
    · by_contra he
      have h0 := hcs.enabled (Bool.eq_false_iff.2 he)
      rw [h1] at h0
      exact absurd h0 (by decide)

theorem reports_of_click (hh : ¬ btn.wasHold = true) (h : ¬ b.longDue hold nowMs = true) :
    b.reports btn other hold cs nowMs = clickDue btn cs nowMs := by
  unfold reports
  rw [if_neg hh, Bool.eq_false_iff.2 h, Bool.false_or]

theorem crowds_of_click (other : ButtonClass) (hh : ¬ btn.wasHold = true)
    (h : ¬ b.longDue hold nowMs = true) :
    b.crowds btn other hold nowMs = false := by
  rw [crowds_of_no_hold hh, Bool.eq_false_iff.2 h, Bool.false_and]

/-- A button that does not wait for a second click. -/
theorem balances_of_click (hcs : Decided cs) (hh : ¬ btn.wasHold = true)
    (h : ¬ b.longDue hold nowMs = true)
    (htwo : hold.pendingLong = true → b.twoButtonLongEnabled = true) (he : cs.enabled = false) :
    Balances b btn other button hold cs nowMs (b.update btn button other hold cs nowMs)
      (if btn.wasClicked then .short else .none) := by
  have hreports : b.reports btn other hold cs nowMs = btn.wasClicked := by
    rw [reports_of_click hh h]
    unfold clickDue
    rw [he]
    rfl
  have hheld := heldBack_count_zero hold cs (hcs.enabled he)
  have htime :
      b.InTime cs (heldBack hold cs) btn (if btn.wasClicked then .short else .none) nowMs := by
    rw [hheld]
    exact ⟨fun t ht => absurd ht List.not_mem_nil, inTime_holds btn h htwo⟩
  have hcrowds := crowds_of_click other hh h
  rw [update_of_click hh h he]
  by_cases hc : btn.wasClicked = true
  · rw [if_pos hc] at htime ⊢
    rw [if_pos hc]
    refine ⟨rfl, by decide, by simp [hreports, hc], fun _ => ?_, fun hlost => ?_, hcs, htime⟩
    · rw [arrive_of_click _ hh hc, hheld]
      rfl
    · rw [hcrowds] at hlost
      exact absurd hlost (by decide)
  · rw [if_neg hc] at htime ⊢
    rw [if_neg hc]
    refine ⟨by cases button <;> rfl, by decide, by simp [hreports, hc], fun _ => ?_, fun hlost => ?_,
      hcs, htime⟩
    · rw [arrive_of_quiet _ hh hc]
      rfl
    · rw [hcrowds] at hlost
      exact absurd hlost (by decide)

/-- A click that may be the first or the second of two. -/
theorem balances_of_window_click (hcs : Decided cs) (hh : ¬ btn.wasHold = true)
    (h : ¬ b.longDue hold nowMs = true)
    (htwo : hold.pendingLong = true → b.twoButtonLongEnabled = true) (he : cs.enabled = true)
    (hc : btn.wasClicked = true) :
    ∃ kind, Balances b btn other button hold cs nowMs (b.update btn button other hold cs nowMs)
      kind := by
  have hreports : b.reports btn other hold cs nowMs =
      (decide (cs.count ≠ 0) || decide (cs.windowMs = 0)) := by
    rw [reports_of_click hh h]
    unfold clickDue
    rw [if_pos he, if_pos hc]
  have hcrowds := crowds_of_click other hh h
  have hnotLost {P : Prop} (hlost : b.crowds btn other hold nowMs = true) : P := by
    rw [hcrowds] at hlost
    exact absurd hlost (by decide)
  have hholds := inTime_holds btn h htwo
  rcases hcs.count with h0 | h1
  · have hheld := heldBack_count_zero hold cs h0
    rw [update_of_first hh h he hc h0]
    by_cases hzero : cs.windowMs = 0
    · rw [if_pos hzero]
      have hheld' := heldBack_count_zero hold { cs with firstClickMs := nowMs } h0
      refine ⟨.short, rfl, by decide, by simp [hreports, hzero], fun _ => ?_, hnotLost,
        ⟨.inl h0, fun _ => h0⟩, ?_⟩
      · rw [arrive_of_click _ hh hc, hheld, hheld']
        rfl
      · rw [hheld']
        exact ⟨fun t ht => absurd ht List.not_mem_nil, hholds⟩
    · rw [if_neg hzero]
      have hheld' := heldBack_count_one hold { cs with firstClickMs := nowMs, count := 1 } rfl
      have hquiet : b.reports btn other hold cs nowMs = false := by
        rw [hreports, decide_eq_false (not_not.2 h0), decide_eq_false hzero]
        rfl
      refine ⟨.none, by cases button <;> rfl, by decide, by simp [hquiet], fun _ => ?_,
        hnotLost, ⟨.inr rfl, fun hd => absurd (hd.symm.trans he) (by decide)⟩, ?_⟩
      · rw [arrive_of_click _ hh hc, hheld, hheld']
        rfl
      · rw [hheld']
        refine ⟨fun t ht => ⟨he, .inl ?_⟩, hholds⟩
        rw [List.mem_singleton.1 ht]
        bv_omega
  · have hheld := heldBack_count_one hold cs h1
    have hheld' := heldBack_count_zero hold { cs with count := 0 } rfl
    rw [update_of_second hh h he hc h1]
    refine ⟨.double, rfl, by decide, by simp [hreports, h1], fun _ => ?_, hnotLost,
      Decided.cleared, ?_⟩
    · rw [arrive_of_click _ hh hc, hheld, hheld']
      rfl
    · rw [hheld']
      exact ⟨fun t ht => absurd ht List.not_mem_nil, hholds⟩

/-- A click that waits for a second one, or none. -/
theorem balances_of_window (hcs : Decided cs) (hh : ¬ btn.wasHold = true)
    (h : ¬ b.longDue hold nowMs = true)
    (htwo : hold.pendingLong = true → b.twoButtonLongEnabled = true) (he : cs.enabled = true)
    (hc : ¬ btn.wasClicked = true) :
    ∃ kind, Balances b btn other button hold cs nowMs (b.update btn button other hold cs nowMs)
      kind := by
  have hreports : b.reports btn other hold cs nowMs =
      (decide (cs.count = 1) && decide (cs.windowMs.setWidth 32 ≤ nowMs - cs.firstClickMs)) := by
    rw [reports_of_click hh h]
    unfold clickDue
    rw [if_pos he, if_neg hc]
  have hcrowds := crowds_of_click other hh h
  have hnotLost {P : Prop} (hlost : b.crowds btn other hold nowMs = true) : P := by
    rw [hcrowds] at hlost
    exact absurd hlost (by decide)
  have hholds := inTime_holds btn h htwo
  rw [update_of_window hh h he hc]
  by_cases hdue : cs.count = 1 ∧ cs.windowMs.setWidth 32 ≤ nowMs - cs.firstClickMs
  · rw [if_pos hdue]
    have hheld := heldBack_count_one hold cs hdue.1
    have hheld' := heldBack_count_zero hold { cs with count := 0 } rfl
    refine ⟨.short, rfl, by decide, by simp [hreports, hdue], fun _ => ?_, hnotLost,
      Decided.cleared, ?_⟩
    · rw [arrive_of_quiet _ hh hc, hheld, hheld']
      rfl
    · rw [hheld']
      exact ⟨fun t ht => absurd ht List.not_mem_nil, hholds⟩
  · rw [if_neg hdue]
    refine ⟨.none, by cases button <;> rfl, by decide, ?_, fun _ => ?_, hnotLost, hcs, ?_⟩
    · rw [hreports, Bool.and_eq_true, decide_eq_true_eq, decide_eq_true_eq]
      exact ⟨fun hd => absurd hd hdue, fun hd => absurd rfl hd⟩
    · rw [arrive_of_quiet _ hh hc]
      rfl
    · rcases hcs.count with h0 | h1
      · rw [heldBack_count_zero hold cs h0]
        exact ⟨fun t ht => absurd ht List.not_mem_nil, hholds⟩
      · rw [heldBack_count_one hold cs h1]
        refine ⟨fun t ht => ⟨he, .inl ?_⟩, hholds⟩
        rw [List.mem_singleton.1 ht]
        exact BitVec.not_le.1 fun hle => hdue ⟨h1, hle⟩

/-- **One button's update balances.** -/
theorem update_balances (btn other : ButtonClass) (button : Button) (nowMs : U32)
    (hcs : Decided cs)
    (htwo : hold.pendingLong = true → b.twoButtonLongEnabled = true) :
    ∃ kind, Balances b btn other button hold cs nowMs (b.update btn button other hold cs nowMs)
      kind := by
  by_cases hh : btn.wasHold = true
  · by_cases hw : b.withholds btn other = true
    · exact ⟨_, balances_of_withholds hw⟩
    · exact ⟨_, balances_of_hold hh hw htwo⟩
  · by_cases hlong : b.longDue hold nowMs = true
    · exact ⟨_, balances_of_longDue hcs hh hlong⟩
    · cases he : cs.enabled with
      | false => exact ⟨_, balances_of_click hcs hh hlong htwo he⟩
      | true =>
        by_cases hc : btn.wasClicked = true
        · exact balances_of_window_click hcs hh hlong htwo he hc
        · exact balances_of_window hcs hh hlong htwo he hc

end

end Buttons

end Pumpbug
