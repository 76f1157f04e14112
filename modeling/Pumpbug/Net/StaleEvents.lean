import Pumpbug.Lib.Run
import Pumpbug.Net.WifiManager

/-!
# Stale Wi-Fi events

The manager tells the events of an attempt from older ones by its mode and by an association flag,
and a late association of an older attempt sets that flag again.  What holds of the state and of the
fallback holds as long as no older attempt's address gets past the two.
-/

namespace Pumpbug.Net.Wifi

open Lib

/-! ## The events on their way -/

/-- The attempt an event was raised for. -/
def Event.attempt? : Event → Option ℕ
  | .staConnected attempt => some attempt
  | .staGotIp attempt => some attempt
  | _ => none

/-- Every address of attempt `n` comes after an association of it, or one has been `heard`. -/
def Preceded (n : ℕ) (heard : Bool) : List Event → Prop
  | [] => True
  | event :: rest =>
    (event = .staGotIp n → heard = true) ∧ Preceded n (heard || event = .staConnected n) rest

theorem Preceded.mono {n : ℕ} {queue : List Event} {heard heard' : Bool}
    (h : Preceded n heard queue) (hh : heard = true → heard' = true) : Preceded n heard' queue := by
  induction queue generalizing heard heard' with
  | nil => trivial
  | cons event rest ih =>
    refine ⟨fun he => hh (h.1 he), ih h.2 fun hor => ?_⟩
    rcases Bool.or_eq_true_iff.1 hor with hor | hor
    · rw [hh hor, Bool.true_or]
    · rw [hor, Bool.or_true]

theorem Preceded.concat {n : ℕ} {queue : List Event} {heard : Bool} {event : Event}
    (h : Preceded n heard queue)
    (he : event = .staGotIp n → heard = true ∨ .staConnected n ∈ queue) :
    Preceded n heard (queue ++ [event]) := by
  induction queue generalizing heard with
  | nil =>
    refine ⟨fun e => ?_, trivial⟩
    rcases he e with h' | h'
    · exact h'
    · cases h'
  | cons first rest ih =>
    refine ⟨h.1, ih h.2 fun e => ?_⟩
    rcases he e with h' | h'
    · exact Or.inl (by rw [h', Bool.true_or])
    · rcases List.mem_cons.1 h' with rfl | h'
      · exact Or.inl (by simp)
      · exact Or.inr h'

/-- No address of an attempt is on its way that has not begun. -/
theorem preceded_of_lt {n : ℕ} {queue : List Event} {heard : Bool}
    (h : ∀ event ∈ queue, ∀ a, event.attempt? = some a → a < n) : Preceded n heard queue := by
  induction queue generalizing heard with
  | nil => trivial
  | cons event rest ih =>
    refine ⟨?_, ih fun e he => h e (List.mem_cons_of_mem _ he)⟩
    rintro rfl
    exact absurd (h _ List.mem_cons_self n rfl) (lt_irrefl n)

namespace System

/-- The driver's events come in the order of the attempts, and addresses after associations. -/
structure Traced (s : System) : Prop where
  sorted : (s.queue.filterMap Event.attempt?).Pairwise (· ≤ ·)
  driven : ∀ a ∈ s.queue.filterMap Event.attempt?, ∀ d, s.driving = some d → a ≤ d
  begun : ∀ a ∈ s.queue.filterMap Event.attempt?, a ≤ s.attempt
  driving : ∀ d, s.driving = some d → d ≤ s.attempt
  /-- Nothing of an older attempt comes after the latest one's own events. -/
  own : s.ownAssociated = true ∨ s.ownIp = true →
    (∀ a ∈ s.queue.filterMap Event.attempt?, a = s.attempt) ∧
      ∀ d, s.driving = some d → d = s.attempt
  preceded : Preceded s.attempt s.ownAssociated s.queue
  associated : s.associated = true → s.driving = some s.attempt →
    s.ownAssociated = true ∨ .staConnected s.attempt ∈ s.queue
  ip : s.ownIp = true → s.ownAssociated = true

theorem traced_init : Traced {} := by
  refine ⟨List.Pairwise.nil, nofun, nofun, nofun, nofun, trivial, nofun, nofun⟩

theorem Traced.congr {s s' : System} (h : s.Traced) (hq : s'.queue = s.queue)
    (hd : s'.driving = s.driving) (ha : s'.attempt = s.attempt)
    (has : s'.associated = s.associated) (hoa : s'.ownAssociated = s.ownAssociated)
    (hip : s'.ownIp = s.ownIp) : s'.Traced := by
  refine ⟨?_, ?_, ?_, ?_, ?_, ?_, ?_, ?_⟩
  · rw [hq]
    exact h.sorted
  · rw [hq, hd]
    exact h.driven
  · rw [hq, ha]
    exact h.begun
  · rw [hd, ha]
    exact h.driving
  · rw [hq, hd, ha, hoa, hip]
    exact h.own
  · rw [hq, ha, hoa]
    exact h.preceded
  · rw [hq, hd, ha, has, hoa]
    exact h.associated
  · rw [hoa, hip]
    exact h.ip

theorem traced_call {s : System} (op : Op) (h : s.Traced) : (s.call op).Traced := by
  obtain ⟨manager, todo, nowMs, driving, associated, queue, attempt, startedAt, ownAssociated, ownIp,
    late⟩ := s
  cases todo with
  | cons sec rest => exact h
  | nil =>
    cases op with
    | startSta =>
      refine ⟨h.sorted, h.driven, fun a ha => (h.begun a ha).trans (Nat.le_succ _),
        fun d hd => (h.driving d hd).trans (Nat.le_succ _), ?_, ?_, ?_, nofun⟩
      · rintro (h' | h') <;> cases h'
      · apply preceded_of_lt
        intro event he a ha
        exact Nat.lt_succ_of_le (h.begun a (List.mem_filterMap.2 ⟨event, he, ha⟩))
      · intro _ hd
        have hle : attempt + 1 ≤ attempt := h.driving _ hd
        omega
    | startAp apOk => exact h.congr rfl rfl rfl rfl rfl rfl
    | stop => exact h.congr rfl rfl rfl rfl rfl rfl
    | update apOk => exact h.congr rfl rfl rfl rfl rfl rfl

/-- `WiFi.begin` turns the driver to the latest attempt. -/
theorem Traced.begin {s s' : System} (h : s.Traced) (hq : s'.queue = s.queue)
    (hd : s'.driving = some s.attempt ∨ s'.driving = none) (ha : s'.attempt = s.attempt)
    (has : s'.associated = false) (hoa : s'.ownAssociated = s.ownAssociated)
    (hip : s'.ownIp = s.ownIp) : s'.Traced := by
  have hdr : ∀ d, s'.driving = some d → d = s.attempt := by
    intro d hd'
    rcases hd with hd | hd
    · rw [hd] at hd'
      exact (Option.some.inj hd').symm
    · rw [hd] at hd'
      cases hd'
  refine ⟨?_, ?_, ?_, ?_, ?_, ?_, ?_, ?_⟩
  · rw [hq]
    exact h.sorted
  · rw [hq]
    intro a hmem d hd'
    rw [hdr d hd']
    exact h.begun a hmem
  · rw [hq, ha]
    exact h.begun
  · rw [ha]
    exact fun d hd' => (hdr d hd').le
  · rw [hq, ha, hoa, hip]
    exact fun ho => ⟨(h.own ho).1, hdr⟩
  · rw [hq, ha, hoa]
    exact h.preceded
  · rw [has]
    exact nofun
  · rw [hoa, hip]
    exact h.ip

theorem traced_advance {s : System} (h : s.Traced) : s.advance.Traced := by
  obtain ⟨manager, todo, nowMs, driving, associated, queue, attempt, startedAt, ownAssociated, ownIp,
    late⟩ := s
  cases todo with
  | nil => exact h
  | cons sec rest =>
    cases sec with
    | begin => exact h.begin rfl (Or.inl rfl) rfl rfl rfl rfl
    | disconnect => exact h.begin rfl (Or.inr rfl) rfl rfl rfl rfl
    | _ => exact h.congr rfl rfl rfl rfl rfl rfl

/-- The driver raises an event of the attempt it works on, or one without an attempt. -/
theorem Traced.concat {s s' : System} {event : Event} (h : s.Traced)
    (hq : s'.queue = s.queue ++ [event]) (hd : s'.driving = s.driving)
    (ha : s'.attempt = s.attempt) (hoa : s'.ownAssociated = s.ownAssociated)
    (hip : s'.ownIp = s.ownIp) (he : ∀ a, event.attempt? = some a → s.driving = some a)
    (hgot : event = .staGotIp s.attempt → s.ownAssociated = true ∨ .staConnected s.attempt ∈ s.queue)
    (has : s'.associated = true →
      s.associated = true ∨ ∃ a, event = .staConnected a ∧ s.driving = some a) : s'.Traced := by
  have hlabels : ∀ a ∈ (s.queue ++ [event]).filterMap Event.attempt?,
      a ∈ s.queue.filterMap Event.attempt? ∨ s.driving = some a := by
    intro a hmem
    rw [List.filterMap_append, List.mem_append] at hmem
    rcases hmem with hmem | hmem
    · exact Or.inl hmem
    · obtain ⟨e, hmem, hattempt⟩ := List.mem_filterMap.1 hmem
      rw [List.mem_singleton] at hmem
      subst hmem
      exact Or.inr (he a hattempt)
  refine ⟨?_, ?_, ?_, ?_, ?_, ?_, ?_, ?_⟩
  · rw [hq, List.filterMap_append]
    apply List.pairwise_append.2
    refine ⟨h.sorted, ?_, ?_⟩
    · cases hattempt : event.attempt? with
      | none => simp [hattempt]
      | some a => simp [hattempt]
    · intro a hmem b hb
      obtain ⟨e, hmem', hattempt⟩ := List.mem_filterMap.1 hb
      rw [List.mem_singleton] at hmem'
      subst hmem'
      exact h.driven a hmem b (he b hattempt)
  · rw [hq, hd]
    intro a hmem d hdr
    rcases hlabels a hmem with hmem | hmem
    · exact h.driven a hmem d hdr
    · rw [hmem] at hdr
      exact (Option.some.inj hdr).le
  · rw [hq, ha]
    intro a hmem
    rcases hlabels a hmem with hmem | hmem
    · exact h.begun a hmem
    · exact h.driving a hmem
  · rw [hd, ha]
    exact h.driving
  · rw [hq, hd, ha, hoa, hip]
    intro ho
    refine ⟨fun a hmem => ?_, (h.own ho).2⟩
    rcases hlabels a hmem with hmem | hmem
    · exact (h.own ho).1 a hmem
    · exact (h.own ho).2 a hmem
  · rw [hq, ha, hoa]
    exact h.preceded.concat hgot
  · rw [hq, hd, ha, hoa]
    intro hassoc hdr
    rcases has hassoc with hassoc | ⟨a, rfl, hdr'⟩
    · rcases h.associated hassoc hdr with hown | hmem
      · exact Or.inl hown
      · exact Or.inr (List.mem_append_left _ hmem)
    · rw [hdr] at hdr'
      rw [Option.some.inj hdr']
      exact Or.inr (by simp)
  · rw [hoa, hip]
    exact h.ip

theorem traced_raise {s : System} (signal : Signal) (h : s.Traced) : (s.raise signal).Traced := by
  cases signal with
  | connected =>
    unfold raise
    dsimp only
    split
    · rename_i a hdr
      refine h.concat rfl rfl rfl rfl rfl ?_ nofun (fun _ => Or.inr ⟨a, rfl, hdr⟩)
      intro b hb
      cases hb
      exact hdr
    · exact h
  | gotIp =>
    unfold raise
    dsimp only
    split
    · rename_i a hdr hassoc
      refine h.concat rfl rfl rfl rfl rfl ?_ ?_ Or.inl
      · intro b hb
        cases hb
        exact hdr
      · intro he
        cases he
        exact h.associated hassoc hdr
    · exact h
  | disconnected reason =>
    exact h.concat rfl rfl rfl rfl rfl nofun nofun nofun
  | accessPoint event hap =>
    refine h.concat rfl rfl rfl rfl rfl ?_ ?_ Or.inl
    · rcases hap with rfl | rfl | rfl | rfl <;> exact nofun
    · rcases hap with rfl | rfl | rfl | rfl <;> exact nofun

/-- The oldest event leaves the queue; an own one leaves only own ones behind it. -/
theorem traced_handle {s : System} (h : s.Traced) : s.handle.Traced := by
  obtain ⟨manager, todo, nowMs, driving, associated, queue, attempt, startedAt, ownAssociated, ownIp,
    late⟩ := s
  cases queue with
  | nil => exact h
  | cons event rest =>
    have hsub : ∀ a ∈ rest.filterMap Event.attempt?, a ∈ (event :: rest).filterMap Event.attempt? := by
      intro a hmem
      obtain ⟨e, hmem, hattempt⟩ := List.mem_filterMap.1 hmem
      exact List.mem_filterMap.2 ⟨e, List.mem_cons_of_mem _ hmem, hattempt⟩
    have hhead : event.attempt? = some attempt →
        (∀ a ∈ rest.filterMap Event.attempt?, a = attempt) ∧ ∀ d, driving = some d → d = attempt := by
      intro he
      have hcons : (event :: rest).filterMap Event.attempt? =
          attempt :: rest.filterMap Event.attempt? := List.filterMap_cons_some he
      have hsorted := h.sorted
      rw [hcons] at hsorted
      refine ⟨fun a hmem => le_antisymm (h.begun a (hsub a hmem)) ?_, fun d hd => ?_⟩
      · exact (List.pairwise_cons.1 hsorted).1 a hmem
      · refine le_antisymm (h.driving d hd) (h.driven attempt ?_ d hd)
        rw [hcons]
        exact List.mem_cons_self
    have hpreceded := h.preceded
    refine ⟨?_, fun a hmem => h.driven a (hsub a hmem), fun a hmem => h.begun a (hsub a hmem),
      h.driving, ?_, hpreceded.2, ?_, ?_⟩
    · cases he : event.attempt? with
      | none =>
        have hsorted := h.sorted
        rwa [List.filterMap_cons_none he] at hsorted
      | some a =>
        have hsorted := h.sorted
        rw [List.filterMap_cons_some he] at hsorted
        exact (List.pairwise_cons.1 hsorted).2
    · intro ho
      by_cases hown : ownAssociated = true ∨ ownIp = true
      · obtain ⟨hlabels, hdr⟩ := h.own hown
        exact ⟨fun a hmem => hlabels a (hsub a hmem), hdr⟩
      · apply hhead
        obtain ⟨hno, hno'⟩ := not_or.1 hown
        rw [Bool.not_eq_true] at hno hno'
        subst hno hno'
        rcases ho with ho | ho
        · rw [of_decide_eq_true ho]
          rfl
        · rw [of_decide_eq_true ho]
          rfl
    · intro hassoc hdr
      rcases h.associated hassoc hdr with hown | hmem
      · exact Or.inl (Bool.or_eq_true_iff.2 (Or.inl hown))
      · rcases List.mem_cons.1 hmem with heq | hmem
        · refine Or.inl (Bool.or_eq_true_iff.2 (Or.inr ?_))
          exact decide_eq_true heq.symm
        · exact Or.inr hmem
    · intro hip
      apply Bool.or_eq_true_iff.2
      rcases Bool.or_eq_true_iff.1 hip with hip | hip
      · exact Or.inl (h.ip hip)
      · exact Or.inl (hpreceded.1 (of_decide_eq_true hip))

theorem traced_step {s : System} (m : Move) (h : s.Traced) : (s.step m).Traced := by
  cases m with
  | wait ms => exact h.congr rfl rfl rfl rfl rfl rfl
  | call op => exact traced_call op h
  | advance => exact traced_advance h
  | raise signal => exact traced_raise signal h
  | handle => exact traced_handle h

end System

/-! ## What the main task has still to do -/

/-- A store of the state is still to come. -/
def StatePending (todo : List Section) : Prop := ∃ state, .setState state ∈ todo

/-- Stores of the mode or of the state are still to come. -/
def Switching (todo : List Section) : Prop := (∃ mode, .setMode mode ∈ todo) ∨ StatePending todo

/-- What the stores of the calls are followed by. -/
def Lawful (mode : Mode) : List Section → Prop
  | [] => True
  | .setMode next :: rest => (next = .sta → StatePending rest) ∧ Lawful next rest
  | .setState state :: rest =>
    state ≠ .staConnected ∧
      (mode = .sta → (∃ next, .setMode next ∈ rest) ∨
        state = .staConnecting ∧ .clearSuppressed ∈ rest ∧ .stampStart ∈ rest) ∧
      Lawful mode rest
  | .clearSuppressed :: rest => .stampStart ∈ rest ∧ Lawful mode rest
  | .readState _ :: rest => rest = []
  | .readSuppressed _ :: rest => rest = []
  | .readStarted _ :: rest => rest = []
  | .checkTimeout _ _ :: rest => rest = []
  | _ :: rest => Lawful mode rest

theorem lawful_startAp (mode : Mode) (apOk : Bool) : Lawful mode (startAp apOk) := by
  cases apOk with
  | true => simp [startAp, Lawful]
  | false => simp [startAp, Lawful]

theorem lawful_fallBack (mode : Mode) (apOk : Bool) : Lawful mode (fallBack apOk) := by
  cases apOk with
  | true => simp [fallBack, startAp, Lawful]
  | false => simp [fallBack, startAp, Lawful]

theorem lawful_sections (mode : Mode) (op : Op) : Lawful mode op.sections := by
  cases op with
  | startSta => simp [Op.sections, startSta, Lawful, StatePending]
  | startAp apOk => exact lawful_startAp mode apOk
  | stop => simp [Op.sections, stop, Lawful]
  | update apOk => rfl

/-- The mode that the stores still to come lead to. -/
def finalMode (mode : Mode) : List Section → Mode
  | [] => mode
  | .setMode next :: rest => finalMode next rest
  | _ :: rest => finalMode mode rest

def finalFallback (fallback : Bool) : List Section → Bool
  | [] => fallback
  | .setFallback next :: rest => finalFallback next rest
  | _ :: rest => finalFallback fallback rest

theorem finalMode_fallBack (mode : Mode) (apOk : Bool) :
    finalMode mode (fallBack apOk) = if apOk then .ap else .off := by
  cases apOk <;> rfl

theorem finalFallback_fallBack (fallback : Bool) :
    finalFallback fallback (fallBack true) = true := rfl

namespace System

/-- The main task is at a check of the timeout, with what it has read so far. -/
def Checking (s : System) (apOk : Bool) : Prop :=
  s.todo = [.readState apOk] ∨ s.todo = [.readSuppressed apOk] ∨ s.todo = [.readStarted apOk] ∨
    s.todo = [.checkTimeout (Clock.reading 32 s.startedAt) apOk]

/-- The flags of an attempt without an address of its own, and where a late update stands. -/
structure Steady (s : System) : Prop where
  lawful : Lawful s.manager.mode s.todo
  clock : s.startedAt ≤ s.nowMs
  /-- No older attempt's address has marked this one connected, -/
  connecting : ¬ Switching s.todo → s.manager.mode = .sta → s.ownIp = false →
    s.manager.state = .staConnecting
  /-- nor suppressed its fallback, -/
  unsuppressed : ¬ Switching s.todo → .clearSuppressed ∉ s.todo → s.manager.mode = .sta →
    s.ownIp = false → s.manager.staFallbackTimeoutSuppressed = false
  /-- nor has a drop restarted its timeout. -/
  started : ¬ Switching s.todo → .clearSuppressed ∉ s.todo → .stampStart ∉ s.todo →
    s.manager.mode = .sta → s.ownIp = false →
    s.manager.staConnectingStartedMs = Clock.reading 32 s.startedAt
  late : ∀ apOk, s.late = some apOk → s.ownIp = false →
    (s.manager.mode = .sta ∧ s.Checking apOk) ∨
      (s.todo <:+ fallBack apOk ∧
        finalMode s.manager.mode s.todo = (if apOk then .ap else .off) ∧
        (apOk = true → finalFallback s.manager.apIsFallback s.todo = true))
  connected : s.manager.state = .staConnected → ¬ StatePending s.todo →
    s.manager.mode = .sta ∧ s.ownAssociated = true ∧ s.ownIp = true

theorem steady_init : Steady {} :=
  ⟨trivial, le_rfl, nofun, nofun, nofun, nofun, nofun⟩

/-! ## What the state and the fallback promise -/

/-- The state and the fallback are the latest attempt's own. -/
structure Sound (s : System) : Prop where
  /-- The station is connected with the mode `Sta`, an association and an address of the latest
  attempt. A state that a call has yet to store is not read. -/
  connected : s.manager.state = .staConnected → ¬ StatePending s.todo →
    s.manager.mode = .sta ∧ s.ownAssociated = true ∧ s.ownIp = true
  /-- An update past the timeout leaves no attempt without an address waiting. -/
  fallsBack : ∀ apOk, s.late = some apOk → s.todo = [] → s.ownIp = false →
    if apOk then s.manager.mode = .ap ∧ s.manager.apIsFallback = true else s.manager.mode = .off

/-- The steps that keep the promise. -/
structure Safe (s : System) (m : Move) : Prop where
  /-- No address of an older attempt finds the association flag set, unless the call under way has
  yet to store the state. -/
  own : m = .handle → ∀ a rest, s.queue = .staGotIp a :: rest → s.manager.acceptsIp = true →
    a = s.attempt ∨ StatePending s.todo
  /-- A late update comes less than the timeout past a full turn of the clock only with an address. -/
  inTime : m = .advance → ∀ startedMs apOk rest, s.todo = .checkTimeout startedMs apOk :: rest →
    s.late ≠ none → s.ownIp = false → kStaTimeoutMs.toNat < (s.nowMs - s.startedAt) % 2 ^ 32
  /-- Between the two stores of an access point that fails, no address arrives. -/
  failing : m = .advance → ∀ mode rest, s.todo = .setMode mode :: rest → mode ≠ .sta →
    ¬ StatePending rest → s.manager.state ≠ .staConnected

/-- A section that only stores a flag of its own or talks to the driver. -/
def Plain : Section → Prop
  | .setFallback _ | .clearAssociated | .clearReason | .clearStations | .begin | .disconnect => True
  | _ => False

theorem statePending_cons_iff {sec : Section} {rest : List Section} (h : ∀ state, sec ≠ .setState state) :
    StatePending (sec :: rest) ↔ StatePending rest := by
  constructor
  · rintro ⟨state, hmem⟩
    rcases List.mem_cons.1 hmem with heq | hmem
    · exact absurd heq.symm (h state)
    · exact ⟨state, hmem⟩
  · rintro ⟨state, hmem⟩
    exact ⟨state, List.mem_cons_of_mem _ hmem⟩

theorem switching_cons_iff {sec : Section} {rest : List Section} (hm : ∀ mode, sec ≠ .setMode mode)
    (hs : ∀ state, sec ≠ .setState state) : Switching (sec :: rest) ↔ Switching rest := by
  unfold Switching
  rw [statePending_cons_iff hs]
  refine or_congr_left ⟨?_, ?_⟩
  · rintro ⟨mode, hmem⟩
    rcases List.mem_cons.1 hmem with heq | hmem
    · exact absurd heq.symm (hm mode)
    · exact ⟨mode, hmem⟩
  · rintro ⟨mode, hmem⟩
    exact ⟨mode, List.mem_cons_of_mem _ hmem⟩

/-- A section that only reads. -/
def Reads : Section → Prop
  | .readState _ | .readSuppressed _ | .readStarted _ | .checkTimeout _ _ => True
  | _ => False

/-- A fallback reads nothing and begins no attempt. -/
theorem of_suffix_fallBack {todo : List Section} {apOk : Bool} (h : todo <:+ fallBack apOk) :
    ∀ sec ∈ todo, ¬ Reads sec ∧ sec ≠ .stampStart := by
  intro sec hmem
  have hin := h.subset hmem
  cases apOk with
  | true =>
    simp only [fallBack, startAp, if_true, List.cons_append, List.nil_append, List.mem_cons,
      List.not_mem_nil, or_false] at hin
    rcases hin with rfl | rfl | rfl | rfl | rfl | rfl <;> exact ⟨id, nofun⟩
  | false =>
    simp only [fallBack, startAp, List.cons_append, List.nil_append, List.mem_cons, List.append_nil,
      List.not_mem_nil, or_false, Bool.false_eq_true, if_false] at hin
    rcases hin with rfl | rfl | rfl | rfl | rfl <;> exact ⟨id, nofun⟩

/-- A plain section leaves the flags steady. -/
theorem Steady.plain {s s' : System} {sec : Section} {rest : List Section} (h : s.Steady)
    (hsec : Plain sec) (htodo : s.todo = sec :: rest) (htodo' : s'.todo = rest)
    (hmode : s'.manager.mode = s.manager.mode) (hstate : s'.manager.state = s.manager.state)
    (hsup : s'.manager.staFallbackTimeoutSuppressed = s.manager.staFallbackTimeoutSuppressed)
    (hms : s'.manager.staConnectingStartedMs = s.manager.staConnectingStartedMs)
    (hfb : finalFallback s'.manager.apIsFallback rest =
      finalFallback s.manager.apIsFallback (sec :: rest))
    (hnow : s'.nowMs = s.nowMs) (hst : s'.startedAt = s.startedAt)
    (hoa : s'.ownAssociated = s.ownAssociated) (hip : s'.ownIp = s.ownIp)
    (hlate : s'.late = s.late) : s'.Steady := by
  have hm : ∀ mode, sec ≠ .setMode mode := by rintro mode rfl; exact hsec
  have hs : ∀ state, sec ≠ .setState state := by rintro state rfl; exact hsec
  have hc : Section.clearSuppressed ≠ sec := by rintro rfl; exact hsec
  have hp : Section.stampStart ≠ sec := by rintro rfl; exact hsec
  obtain ⟨hlawful, hclock, hconnecting, hunsup, hstarted, hlate', hconn⟩ := h
  rw [htodo] at hlawful hconnecting hunsup hstarted hlate' hconn
  rw [switching_cons_iff hm hs] at hconnecting hunsup hstarted
  rw [List.mem_cons, not_or] at hunsup
  rw [List.mem_cons, not_or, List.mem_cons, not_or] at hstarted
  rw [statePending_cons_iff hs] at hconn
  refine ⟨?_, ?_, ?_, ?_, ?_, ?_, ?_⟩
  · rw [htodo', hmode]
    cases sec <;> first | exact hlawful | exact absurd hsec id
  · rw [hnow, hst]
    exact hclock
  · rw [htodo', hmode, hstate, hip]
    exact hconnecting
  · rw [htodo', hmode, hip, hsup]
    exact fun hsw hmem => hunsup hsw ⟨hc, hmem⟩
  · rw [htodo', hmode, hip, hms, hst]
    exact fun hsw hmem hmem' => hstarted hsw ⟨hc, hmem⟩ ⟨hp, hmem'⟩
  · rw [hlate, hip, hmode]
    intro apOk hl ho
    rcases hlate' apOk hl ho with ⟨-, hcheck⟩ | ⟨hsuf, hfin, hfall⟩
    · unfold Checking at hcheck
      rw [htodo] at hcheck
      rcases hcheck with hcheck | hcheck | hcheck | hcheck <;> cases hcheck <;> cases hsec
    · refine Or.inr ⟨?_, ?_, ?_⟩
      · rw [htodo']
        exact (List.suffix_cons sec rest).trans hsuf
      · rw [htodo', ← hfin]
        cases sec <;> first | rfl | exact absurd hsec id
      · rw [htodo', hfb]
        exact hfall
  · rw [hstate, hoa, hip, hmode, htodo']
    exact hconn

theorem steady_call {s : System} (op : Op) (h : s.Steady) : (s.call op).Steady := by
  obtain ⟨manager, todo, nowMs, driving, associated, queue, attempt, startedAt, ownAssociated, ownIp,
    late⟩ := s
  cases todo with
  | cons sec rest => exact h
  | nil =>
    cases op with
    | startSta =>
      have hpending : StatePending startSta := ⟨.staConnecting, by decide⟩
      exact ⟨lawful_sections _ .startSta, h.clock, fun hno => absurd (Or.inr hpending) hno,
        fun hno => absurd (Or.inr hpending) hno, fun hno => absurd (Or.inr hpending) hno, nofun,
        fun _ hno => absurd hpending hno⟩
    | startAp apOk =>
      have hpending : StatePending (startAp apOk) := by
        cases apOk with
        | true => exact ⟨.apUp, by decide⟩
        | false => exact ⟨.off, by decide⟩
      exact ⟨lawful_sections _ (.startAp apOk), h.clock, fun hno => absurd (Or.inr hpending) hno,
        fun hno => absurd (Or.inr hpending) hno, fun hno => absurd (Or.inr hpending) hno, nofun,
        fun _ hno => absurd hpending hno⟩
    | stop =>
      have hpending : StatePending stop := ⟨.off, by decide⟩
      exact ⟨lawful_sections _ .stop, h.clock, fun hno => absurd (Or.inr hpending) hno,
        fun hno => absurd (Or.inr hpending) hno, fun hno => absurd (Or.inr hpending) hno, nofun,
        fun _ hno => absurd hpending hno⟩
    | update apOk =>
      have hidle : ¬ Switching [] := by
        rintro (⟨_, hmem⟩ | ⟨_, hmem⟩) <;> cases hmem
      refine ⟨rfl, h.clock, fun _ => h.connecting hidle, fun _ _ => h.unsuppressed hidle nofun,
        fun _ _ _ => h.started hidle nofun nofun, ?_, ?_⟩
      · intro ok hl ho
        have hl' : (if isLate ⟨manager, [], nowMs, driving, associated, queue, attempt, startedAt,
            ownAssociated, ownIp, late⟩ then some apOk else none) = some ok := hl
        split_ifs at hl' with hlate
        · cases hl'
          unfold isLate at hlate
          rw [Bool.and_eq_true] at hlate
          exact Or.inl ⟨of_decide_eq_true hlate.1, Or.inl rfl⟩
      · exact fun hc _ => h.connected hc nofun

theorem steady_setMode {s : System} {mode : Mode} {rest : List Section} (h : s.Steady)
    (htodo : s.todo = .setMode mode :: rest) (hsafe : s.Safe .advance) : s.advance.Steady := by
  have hfailing := hsafe.failing rfl mode rest htodo
  clear hsafe
  obtain ⟨manager, todo, nowMs, driving, associated, queue, attempt, startedAt, ownAssociated, ownIp,
    late⟩ := s
  subst htodo
  have hlawful : (mode = .sta → StatePending rest) ∧ Lawful mode rest := h.lawful
  have hpending : StatePending (.setMode mode :: rest) ↔ StatePending rest :=
    statePending_cons_iff nofun
  have hsta : ¬ Switching rest → mode ≠ .sta := fun hno he => hno (Or.inr (hlawful.1 he))
  refine ⟨hlawful.2, h.clock, fun hno he => absurd he (hsta hno), fun hno _ he => absurd he (hsta hno),
    fun hno _ _ he => absurd he (hsta hno), ?_, ?_⟩
  · intro apOk hl ho
    rcases h.late apOk hl ho with ⟨-, hcheck⟩ | ⟨hsuf, hfin, hfall⟩
    · rcases hcheck with hcheck | hcheck | hcheck | hcheck <;> cases hcheck
    · exact Or.inr ⟨(List.suffix_cons _ rest).trans hsuf, hfin, hfall⟩
  · intro hc hno
    obtain ⟨-, hown⟩ := h.connected hc (mt hpending.1 hno)
    refine ⟨?_, hown⟩
    by_contra hmode
    exact hfailing hmode hno hc

theorem steady_setState {s : System} {state : State} {rest : List Section} (h : s.Steady)
    (htodo : s.todo = .setState state :: rest) : s.advance.Steady := by
  obtain ⟨manager, todo, nowMs, driving, associated, queue, attempt, startedAt, ownAssociated, ownIp,
    late⟩ := s
  subst htodo
  have hlawful : state ≠ .staConnected ∧
      (manager.mode = .sta → (∃ next, .setMode next ∈ rest) ∨
        state = .staConnecting ∧ .clearSuppressed ∈ rest ∧ .stampStart ∈ rest) ∧
      Lawful manager.mode rest := h.lawful
  obtain ⟨hne, hsta, hrest⟩ := hlawful
  have hsta' : ¬ Switching rest → manager.mode = .sta →
      state = .staConnecting ∧ .clearSuppressed ∈ rest ∧ .stampStart ∈ rest :=
    fun hno hmode => (hsta hmode).resolve_left fun hm => hno (Or.inl hm)
  refine ⟨hrest, h.clock, fun hno hmode _ => (hsta' hno hmode).1,
    fun hno hmem hmode => absurd (hsta' hno hmode).2.1 hmem,
    fun hno hmem _ hmode => absurd (hsta' hno hmode).2.1 hmem, ?_, fun hc _ => absurd hc hne⟩
  intro apOk hl ho
  rcases h.late apOk hl ho with ⟨-, hcheck⟩ | ⟨hsuf, hfin, hfall⟩
  · rcases hcheck with hcheck | hcheck | hcheck | hcheck <;> cases hcheck
  · exact Or.inr ⟨(List.suffix_cons _ rest).trans hsuf, hfin, hfall⟩

theorem steady_clearSuppressed {s : System} {rest : List Section} (h : s.Steady)
    (htodo : s.todo = .clearSuppressed :: rest) : s.advance.Steady := by
  obtain ⟨manager, todo, nowMs, driving, associated, queue, attempt, startedAt, ownAssociated, ownIp,
    late⟩ := s
  subst htodo
  have hlawful : .stampStart ∈ rest ∧ Lawful manager.mode rest := h.lawful
  have hsw : Switching (.clearSuppressed :: rest) ↔ Switching rest := switching_cons_iff nofun nofun
  have hpending : StatePending (.clearSuppressed :: rest) ↔ StatePending rest :=
    statePending_cons_iff nofun
  refine ⟨hlawful.2, h.clock, fun hno => h.connecting (mt hsw.1 hno), fun _ _ _ _ => rfl,
    fun _ _ hmem => absurd hlawful.1 hmem, ?_, ?_⟩
  · intro apOk hl ho
    rcases h.late apOk hl ho with ⟨-, hcheck⟩ | ⟨hsuf, hfin, hfall⟩
    · rcases hcheck with hcheck | hcheck | hcheck | hcheck <;> cases hcheck
    · exact Or.inr ⟨(List.suffix_cons _ rest).trans hsuf, hfin, hfall⟩
  · intro hc
    have hbefore := h.connected hc
    rw [hpending] at hbefore
    exact hbefore

theorem steady_stampStart {s : System} {rest : List Section} (h : s.Steady)
    (htodo : s.todo = .stampStart :: rest) : s.advance.Steady := by
  obtain ⟨manager, todo, nowMs, driving, associated, queue, attempt, startedAt, ownAssociated, ownIp,
    late⟩ := s
  subst htodo
  have hsw : Switching (.stampStart :: rest) ↔ Switching rest := switching_cons_iff nofun nofun
  have hpending : StatePending (.stampStart :: rest) ↔ StatePending rest := statePending_cons_iff nofun
  refine ⟨h.lawful, le_rfl, fun hno => h.connecting (mt hsw.1 hno), ?_, fun _ _ _ _ _ => rfl, ?_, ?_⟩
  · intro hno hmem
    refine h.unsuppressed (mt hsw.1 hno) ?_
    rintro (_ | hmem')
    exact hmem ‹_›
  · intro apOk hl ho
    rcases h.late apOk hl ho with ⟨-, hcheck⟩ | ⟨hsuf, -, -⟩
    · rcases hcheck with hcheck | hcheck | hcheck | hcheck <;> cases hcheck
    · exact absurd rfl (of_suffix_fallBack hsuf _ List.mem_cons_self).2
  · intro hc
    have hbefore := h.connected hc
    rw [hpending] at hbefore
    exact hbefore

theorem advance_of_reads {s : System} {sec : Section} (hread : Reads sec) (htodo : s.todo = [sec]) :
    s.advance = { s with todo := s.manager.followUp s.millis sec } := by
  obtain ⟨manager, todo, nowMs, driving, associated, queue, attempt, startedAt, ownAssociated, ownIp,
    late⟩ := s
  subst htodo
  unfold advance
  dsimp only
  rw [List.append_nil]
  cases sec <;> first | rfl | exact absurd hread id

/-- The main task's answer to a read is lawful. -/
theorem lawful_followUp (w : Manager) (millis : U32) (sec : Section) (mode : Mode) :
    Lawful mode (w.followUp millis sec) := by
  cases sec with
  | readState apOk =>
    unfold Manager.followUp
    dsimp only
    split_ifs <;> trivial
  | readSuppressed apOk =>
    unfold Manager.followUp
    dsimp only
    split_ifs <;> trivial
  | checkTimeout startedMs apOk =>
    unfold Manager.followUp
    dsimp only
    split_ifs
    · trivial
    · exact lawful_fallBack mode apOk
  | readStarted apOk => exact rfl
  | _ => exact trivial

theorem not_mem_of_reads {sec : Section} {todo : List Section} (hread : Reads sec)
    (htodo : todo = [sec]) : ¬ Switching todo ∧ .clearSuppressed ∉ todo ∧ .stampStart ∉ todo := by
  subst htodo
  refine ⟨?_, ?_, ?_⟩
  · rintro (⟨mode, hmem⟩ | ⟨state, hmem⟩)
    · rw [← List.mem_singleton.1 hmem] at hread
      exact hread
    · rw [← List.mem_singleton.1 hmem] at hread
      exact hread
  · intro hmem
    rw [← List.mem_singleton.1 hmem] at hread
    exact hread
  · intro hmem
    rw [← List.mem_singleton.1 hmem] at hread
    exact hread

/-- The true age of an attempt is at least its age modulo a turn of the clock. -/
theorem millis_sub_reading {s : System} (h : s.startedAt ≤ s.nowMs) :
    (s.millis - Clock.reading 32 s.startedAt).toNat = (s.nowMs - s.startedAt) % 2 ^ 32 := by
  unfold millis
  rw [Clock.reading_sub h, Clock.reading, BitVec.toNat_ofNat]

/-- A late update without an address goes from check to check and then falls back. -/
theorem checking_advance {s : System} {apOk : Bool} (h : s.Steady) (hl : s.late = some apOk)
    (hip : s.ownIp = false) (hsta : s.manager.mode = .sta) (hcheck : s.Checking apOk)
    (hsafe : s.Safe .advance) : s.advance.Checking apOk ∨ s.advance.todo = fallBack apOk := by
  rcases hcheck with htodo | htodo | htodo | htodo
  · left
    obtain ⟨hno, -, -⟩ := not_mem_of_reads (by exact trivial) htodo
    rw [advance_of_reads (by exact trivial) htodo]
    have hstate := h.connecting hno hsta hip
    refine Or.inr (Or.inl ?_)
    exact if_neg (not_not.2 hstate)
  · left
    obtain ⟨hno, hmem, -⟩ := not_mem_of_reads (by exact trivial) htodo
    rw [advance_of_reads (by exact trivial) htodo]
    have hsup := h.unsuppressed hno hmem hsta hip
    refine Or.inr (Or.inr (Or.inl ?_))
    exact if_neg (by rw [hsup]; decide)
  · left
    obtain ⟨hno, hmem, hmem'⟩ := not_mem_of_reads (by exact trivial) htodo
    rw [advance_of_reads (by exact trivial) htodo]
    have hms := h.started hno hmem hmem' hsta hip
    refine Or.inr (Or.inr (Or.inr ?_))
    show [Section.checkTimeout s.manager.staConnectingStartedMs apOk] = _
    rw [hms]
  · right
    rw [advance_of_reads (by exact trivial) htodo]
    have hlate := hsafe.inTime rfl _ _ _ htodo (by rw [hl]; exact nofun) hip
    rw [← millis_sub_reading h.clock] at hlate
    exact if_neg (by bv_omega)

/-- A read of `update` leaves the flags, and goes on to where they send it. -/
theorem steady_read {s : System} {sec : Section} (h : s.Steady) (hread : Reads sec)
    (htodo : s.todo = [sec]) (hsafe : s.Safe .advance) : s.advance.Steady := by
  obtain ⟨hno, hmem, hmem'⟩ := not_mem_of_reads hread htodo
  have hpending : ¬ StatePending s.todo := fun hp => hno (Or.inr hp)
  have hlate := fun (apOk : Bool) hl hip hsta (hcheck : s.Checking apOk) =>
    checking_advance h hl hip hsta hcheck hsafe
  rw [advance_of_reads hread htodo] at hlate ⊢
  refine ⟨lawful_followUp _ _ _ _, h.clock, fun _ => h.connecting hno,
    fun _ _ => h.unsuppressed hno hmem, fun _ _ _ => h.started hno hmem hmem', ?_, ?_⟩
  · intro apOk hl hip
    rcases h.late apOk hl hip with ⟨hsta, hcheck⟩ | ⟨hsuf, -, -⟩
    · rcases hlate apOk hl hip hsta hcheck with hcheck | htodo'
      · exact Or.inl ⟨hsta, hcheck⟩
      · rw [htodo']
        refine Or.inr ⟨List.suffix_rfl, finalMode_fallBack _ apOk, ?_⟩
        rintro rfl
        exact finalFallback_fallBack _
    · rw [htodo] at hsuf
      exact absurd hread (of_suffix_fallBack hsuf sec List.mem_cons_self).1
  · exact fun hc _ => h.connected hc hpending

theorem steady_advance {s : System} (h : s.Steady) (hsafe : s.Safe .advance) :
    s.advance.Steady := by
  obtain ⟨manager, todo, nowMs, driving, associated, queue, attempt, startedAt, ownAssociated, ownIp,
    late⟩ := s
  cases todo with
  | nil => exact h
  | cons sec rest =>
    by_cases hread : Reads sec
    · have hrest : rest = [] := by
        have hlawful := h.lawful
        cases sec <;> first | exact hlawful | exact absurd hread id
      subst hrest
      exact steady_read h hread rfl hsafe
    · cases sec with
      | setMode mode => exact steady_setMode h rfl hsafe
      | setState state => exact steady_setState h rfl
      | clearSuppressed => exact steady_clearSuppressed h rfl
      | stampStart => exact steady_stampStart h rfl
      | readState apOk => exact absurd trivial hread
      | readSuppressed apOk => exact absurd trivial hread
      | readStarted apOk => exact absurd trivial hread
      | checkTimeout startedMs apOk => exact absurd trivial hread
      | _ =>
        refine h.plain ?_ rfl rfl rfl rfl rfl rfl rfl rfl rfl rfl rfl rfl
        exact trivial

/-- The events leave the main task, the mode and the fallback flag alone. -/
theorem onWifiEvent_mode (w : Manager) (millis : U32) (event : Event) :
    (w.onWifiEvent millis event).mode = w.mode ∧
      (w.onWifiEvent millis event).apIsFallback = w.apIsFallback := by
  cases event with
  | staGotIp a =>
    unfold Manager.onWifiEvent
    dsimp only
    split_ifs <;> exact ⟨rfl, rfl⟩
  | staDisconnected reason =>
    unfold Manager.onWifiEvent Manager.onDisconnected
    dsimp only
    split_ifs <;> exact ⟨rfl, rfl⟩
  | apStart =>
    unfold Manager.onWifiEvent
    dsimp only
    split_ifs <;> exact ⟨rfl, rfl⟩
  | apStop =>
    unfold Manager.onWifiEvent
    dsimp only
    split_ifs <;> exact ⟨rfl, rfl⟩
  | _ => exact ⟨rfl, rfl⟩

/-- The ways an event changes the flags of an attempt. -/
theorem onWifiEvent_cases (w : Manager) (millis : U32) (event : Event) :
    ((∃ a, event = .staGotIp a) ∧ w.acceptsIp = true ∧
      (w.onWifiEvent millis event).state = .staConnected) ∨
    ((w.mode = .sta → (w.onWifiEvent millis event).state = w.state ∨
        (w.onWifiEvent millis event).state = .staConnecting) ∧
      ((w.onWifiEvent millis event).state = .staConnected → w.state = .staConnected) ∧
      (w.staFallbackTimeoutSuppressed = false →
        (w.onWifiEvent millis event).staFallbackTimeoutSuppressed = false ∧
          (w.onWifiEvent millis event).staConnectingStartedMs = w.staConnectingStartedMs)) := by
  cases event with
  | staGotIp a =>
    unfold Manager.onWifiEvent
    dsimp only
    split_ifs with hacc
    · exact Or.inl ⟨⟨a, rfl⟩, hacc, rfl⟩
    · exact Or.inr ⟨fun _ => Or.inl rfl, id, fun hs => ⟨hs, rfl⟩⟩
  | staDisconnected reason =>
    right
    unfold Manager.onWifiEvent Manager.onDisconnected
    dsimp only
    split_ifs with hmode hreason hcred hcred
    · exact ⟨fun _ => Or.inl rfl, id, fun hs => ⟨hs, rfl⟩⟩
    · exact ⟨fun _ => Or.inr rfl, nofun, fun hs => absurd (hs.symm.trans hcred.2) nofun⟩
    · exact ⟨fun _ => Or.inr rfl, nofun, fun hs => ⟨hs, rfl⟩⟩
    · exact ⟨fun _ => Or.inr rfl, nofun, fun hs => absurd (hs.symm.trans hcred.2) nofun⟩
    · exact ⟨fun _ => Or.inr rfl, nofun, fun hs => ⟨hs, rfl⟩⟩
  | apStart =>
    right
    unfold Manager.onWifiEvent
    dsimp only
    split_ifs with hap
    · exact ⟨fun hsta => absurd (hsta.symm.trans hap) nofun, nofun, fun hs => ⟨hs, rfl⟩⟩
    · exact ⟨fun _ => Or.inl rfl, id, fun hs => ⟨hs, rfl⟩⟩
  | apStop =>
    right
    unfold Manager.onWifiEvent
    dsimp only
    split_ifs with hap
    · exact ⟨fun hsta => absurd (hsta.symm.trans hap) nofun, nofun, fun hs => ⟨hs, rfl⟩⟩
    · exact ⟨fun _ => Or.inl rfl, id, fun hs => ⟨hs, rfl⟩⟩
  | _ => exact Or.inr ⟨fun _ => Or.inl rfl, id, fun hs => ⟨hs, rfl⟩⟩

theorem steady_handle {s : System} (ht : s.Traced) (h : s.Steady) (hsafe : s.Safe .handle) :
    s.handle.Steady := by
  have hown := hsafe.own rfl
  clear hsafe
  obtain ⟨manager, todo, nowMs, driving, associated, queue, attempt, startedAt, ownAssociated, ownIp,
    late⟩ := s
  cases queue with
  | nil => exact h
  | cons event rest =>
    obtain ⟨hmode, hfallback⟩ := onWifiEvent_mode manager (Clock.reading 32 nowMs) event
    have hevent := onWifiEvent_cases manager (Clock.reading 32 nowMs) event
    have haccepted : ∀ a, event = .staGotIp a → manager.acceptsIp = true → ¬ Switching todo →
        (ownIp || event = .staGotIp attempt) = true := by
      rintro a rfl hacc hno
      rcases hown a rest rfl hacc with rfl | hp
      · rw [decide_eq_true rfl, Bool.or_true]
      · exact absurd (Or.inr hp) hno
    have hold : (ownIp || event = .staGotIp attempt) = false → ownIp = false :=
      fun ho => (Bool.or_eq_false_iff.1 ho).1
    refine ⟨?_, h.clock, ?_, ?_, ?_, ?_, ?_⟩
    · show Lawful (manager.onWifiEvent (Clock.reading 32 nowMs) event).mode todo
      rw [hmode]
      exact h.lawful
    · intro hno hsta ho
      rcases hevent with ⟨⟨a, he⟩, hacc, -⟩ | ⟨hstate, -, -⟩
      · exact absurd ((haccepted a he hacc hno).symm.trans ho) nofun
      · rcases hstate (hmode.symm.trans hsta) with hs | hs
        · exact hs.trans (h.connecting hno (hmode.symm.trans hsta) (hold ho))
        · exact hs
    · intro hno hmem hsta ho
      rcases hevent with ⟨⟨a, he⟩, hacc, -⟩ | ⟨-, -, hsup⟩
      · exact absurd ((haccepted a he hacc hno).symm.trans ho) nofun
      · exact (hsup (h.unsuppressed hno hmem (hmode.symm.trans hsta) (hold ho))).1
    · intro hno hmem hmem' hsta ho
      rcases hevent with ⟨⟨a, he⟩, hacc, -⟩ | ⟨-, -, hsup⟩
      · exact absurd ((haccepted a he hacc hno).symm.trans ho) nofun
      · have hms := (hsup (h.unsuppressed hno hmem (hmode.symm.trans hsta) (hold ho))).2
        exact hms.trans (h.started hno hmem hmem' (hmode.symm.trans hsta) (hold ho))
    · intro apOk hl ho
      show ((manager.onWifiEvent (Clock.reading 32 nowMs) event).mode = .sta ∧ _) ∨
        (_ ∧ finalMode (manager.onWifiEvent (Clock.reading 32 nowMs) event).mode todo = _ ∧
          (_ → finalFallback (manager.onWifiEvent (Clock.reading 32 nowMs) event).apIsFallback todo =
            true))
      rw [hmode, hfallback]
      exact h.late apOk hl (hold ho)
    · intro hc hno
      show (manager.onWifiEvent (Clock.reading 32 nowMs) event).mode = .sta ∧ _ ∧ _
      rw [hmode]
      rcases hevent with ⟨⟨a, he⟩, hacc, -⟩ | ⟨-, hback, -⟩
      · subst he
        obtain rfl := (hown a rest rfl hacc).resolve_right hno
        unfold Manager.acceptsIp at hacc
        rw [Bool.and_eq_true] at hacc
        have hpreceded := ht.preceded.1 rfl
        refine ⟨of_decide_eq_true hacc.1, ?_, ?_⟩
        · exact Bool.or_eq_true_iff.2 (Or.inl hpreceded)
        · exact Bool.or_eq_true_iff.2 (Or.inr (decide_eq_true rfl))
      · obtain ⟨hm, hoa, hip⟩ := h.connected (hback hc) hno
        exact ⟨hm, Bool.or_eq_true_iff.2 (Or.inl hoa), Bool.or_eq_true_iff.2 (Or.inl hip)⟩

theorem steady_raise {s : System} (signal : Signal) (h : s.Steady) : (s.raise signal).Steady := by
  cases signal with
  | connected =>
    unfold raise
    dsimp only
    split
    · exact ⟨h.1, h.2, h.3, h.4, h.5, h.6, h.7⟩
    · exact h
  | gotIp =>
    unfold raise
    dsimp only
    split
    · exact ⟨h.1, h.2, h.3, h.4, h.5, h.6, h.7⟩
    · exact h
  | disconnected reason => exact ⟨h.1, h.2, h.3, h.4, h.5, h.6, h.7⟩
  | accessPoint event hap => exact ⟨h.1, h.2, h.3, h.4, h.5, h.6, h.7⟩

/-- **Step lemma.** A safe step keeps the flags steady. -/
theorem steady_step {s : System} {m : Move} (ht : s.Traced) (h : s.Steady) (hsafe : s.Safe m) :
    (s.step m).Steady := by
  cases m with
  | wait ms =>
    exact ⟨h.lawful, h.clock.trans (Nat.le_add_right _ _), h.connecting, h.unsuppressed, h.started,
      h.late, h.connected⟩
  | call op => exact steady_call op h
  | advance => exact steady_advance h hsafe
  | raise signal => exact steady_raise signal h
  | handle => exact steady_handle ht h hsafe

/-- Steady flags keep the promise. -/
theorem Steady.sound {s : System} (h : s.Steady) : s.Sound := by
  refine ⟨h.connected, ?_⟩
  intro apOk hl htodo hip
  rcases h.late apOk hl hip with ⟨-, hcheck⟩ | ⟨-, hfin, hfall⟩
  · unfold Checking at hcheck
    rw [htodo] at hcheck
    rcases hcheck with hcheck | hcheck | hcheck | hcheck <;> cases hcheck
  · rw [htodo] at hfin hfall
    cases apOk with
    | true => exact ⟨hfin, hfall rfl⟩
    | false => exact hfin

/-- An unsafe step breaks the promise at once. -/
theorem safe_of_sound {s : System} {m : Move} (ht : s.Traced) (h : s.Steady)
    (hsound : (s.step m).Sound) : s.Safe m := by
  refine ⟨?_, ?_, ?_⟩
  · rintro rfl a rest hqueue hacc
    by_contra hno
    obtain ⟨hne, hp⟩ := not_or.1 hno
    have hstep : s.step .handle =
        { s with manager := s.manager.onWifiEvent s.millis (.staGotIp a), queue := rest,
                 ownAssociated := s.ownAssociated || Event.staGotIp a = .staConnected s.attempt,
                 ownIp := s.ownIp || Event.staGotIp a = .staGotIp s.attempt } := by
      show s.handle = _
      unfold handle
      rw [hqueue]
    have hstate : (s.manager.onWifiEvent s.millis (.staGotIp a)).state = .staConnected := by
      unfold Manager.onWifiEvent
      dsimp only
      rw [if_pos hacc]
    rw [hstep] at hsound
    obtain ⟨-, -, hip⟩ := hsound.connected hstate hp
    rcases Bool.or_eq_true_iff.1 hip with hip | he
    · refine hne ((ht.own (Or.inr hip)).1 a ?_)
      rw [hqueue]
      exact List.mem_cons_self
    · cases of_decide_eq_true he
      exact hne rfl
  · rintro rfl startedMs apOk rest htodo hlate hip
    by_contra hno
    have hread : Reads (.checkTimeout startedMs apOk) := by exact trivial
    obtain ⟨ok, hl⟩ := Option.ne_none_iff_exists'.1 hlate
    have hrest : rest = [] := by
      have hlawful := h.lawful
      rw [htodo] at hlawful
      exact hlawful
    subst hrest
    rcases h.late ok hl hip with ⟨hsta, hcheck⟩ | ⟨hsuf, -, -⟩
    · unfold Checking at hcheck
      rw [htodo, List.singleton_inj, List.singleton_inj, List.singleton_inj, List.singleton_inj]
        at hcheck
      rcases hcheck with hcheck | hcheck | hcheck | hcheck <;> cases hcheck
      rw [← millis_sub_reading h.clock] at hno
      have hempty : s.manager.followUp s.millis (.checkTimeout (Clock.reading 32 s.startedAt) apOk) = [] :=
        if_pos (by bv_omega)
      have hfalls := hsound.fallsBack
      rw [show s.step .advance = s.advance from rfl, advance_of_reads hread htodo, hempty] at hfalls
      have hmode := hfalls apOk hl rfl hip
      rw [show ({ s with todo := [] } : System).manager.mode = .sta from hsta] at hmode
      cases apOk with
      | true => exact absurd hmode.1 nofun
      | false => exact absurd hmode nofun
    · rw [htodo] at hsuf
      exact (of_suffix_fallBack hsuf _ List.mem_cons_self).1 hread
  · rintro rfl mode rest htodo hmode hp hc
    have hstep : s.step .advance =
        { s with manager := { s.manager with mode := mode }, todo := rest } := by
      show s.advance = _
      unfold advance
      rw [htodo]
      rfl
    rw [hstep] at hsound
    exact hmode (hsound.connected hc hp).1

/-- **Attempts are told apart.** Over every interleaving of the main task with the driver's events,
the state and the fallback are the latest attempt's own if and only if no older attempt's address
finds the association flag set once the state is stored, no address arrives between the two stores of a
failing access point, and no late update comes within the timeout of a full turn of the clock. -/
theorem tellsApart_iff (moves : List Move) :
    Along step (fun s m => (s.step m).Sound) {} moves ↔ Along step Safe {} moves := by
  constructor
  · intro hsound
    refine hsound.imp (fun s => s.Traced ∧ s.Steady) (fun s m hs hm => ?_) ⟨traced_init, steady_init⟩
    have hsafe := safe_of_sound hs.1 hs.2 hm
    exact ⟨⟨traced_step m hs.1, steady_step hs.1 hs.2 hsafe⟩, hsafe⟩
  · intro hsafe
    refine hsafe.imp (fun s => s.Traced ∧ s.Steady) (fun s m hs hm => ?_) ⟨traced_init, steady_init⟩
    have hsteady := steady_step hs.1 hs.2 hm
    exact ⟨⟨traced_step m hs.1, hsteady⟩, hsteady.sound⟩

/-- The first attempt's association and address are queued when the credentials are swapped; only
then are they handled, and the drop of the old connection after them. -/
def credentialSwap : List Move :=
  [.call .startSta] ++ List.replicate 8 .advance ++ [.raise .connected, .raise .gotIp] ++
    [.call .startSta] ++ List.replicate 7 .advance ++ [.raise (.disconnected 8), .advance] ++
    [.handle, .handle]

/-- An update a minute later. -/
def lateUpdate : List Move :=
  [.handle, .wait 60000, .call (.update true), .advance, .advance]

/-- The new attempt is taken for connected, and when its timeout is over nothing falls back. -/
theorem not_tellsApart_credentialSwap :
    ¬ Along step (fun s m => (s.step m).Sound) {} (credentialSwap ++ lateUpdate) ∧
      (exec step {} credentialSwap).manager.state = .staConnected ∧
      (exec step {} credentialSwap).ownAssociated = false ∧
      (exec step {} (credentialSwap ++ lateUpdate)).late = some true ∧
      (exec step {} (credentialSwap ++ lateUpdate)).todo = [] ∧
      (exec step {} (credentialSwap ++ lateUpdate)).ownIp = false ∧
      (exec step {} (credentialSwap ++ lateUpdate)).manager.mode = .sta := by
  refine ⟨fun h => ?_, by decide +kernel, by decide +kernel, by decide +kernel, by decide +kernel,
    by decide +kernel, by decide +kernel⟩
  have hlast : lateUpdate = [.handle, .wait 60000, .call (.update true), .advance] ++ [.advance] := rfl
  rw [hlast, ← List.append_assoc] at h
  have hfalls := (along_append.1 h).2.1.fallsBack true (by decide +kernel) (by decide +kernel)
    (by decide +kernel)
  exact absurd hfalls.1 (by decide +kernel)

end System

end Pumpbug.Net.Wifi
