import Pumpbug.Ble.FramerAgreement
import Pumpbug.Ble.LinkSteps

/-!
# Weights stay in their session

The receive generation tells the bytes of a subscription from those of all earlier ones, as long as
the host takes one up before the numbers come round.  What the framer waits at, the events that a
callback has still to hand on, and the cached weight then all stem from the bytes of the latest
subscription.
-/

namespace Pumpbug.Ble

open Lib Lib.Scan AcaiaV2

/-! ## Generations -/

/-- The generation that is issued as the `n`-th; none is 0. -/
def generation : ℕ → U32
  | 0 => 0
  | n + 1 => Link.nextGeneration (generation n)

theorem generation_succ_toNat (n : ℕ) : (generation (n + 1)).toNat = n % (2 ^ 32 - 1) + 1 := by
  induction n with
  | zero => rfl
  | succ n ih =>
    have hnext : (generation (n + 1) + 1).toNat = (n % (2 ^ 32 - 1) + 1 + 1) % 2 ^ 32 := by
      rw [BitVec.toNat_add, ih]
      rfl
    show (Link.nextGeneration (generation (n + 1))).toNat = _
    unfold Link.nextGeneration
    dsimp only
    by_cases hzero : generation (n + 1) + 1 = 0
    · rw [if_pos hzero, hzero]
      rw [hzero] at hnext
      have hwrap : (n % (2 ^ 32 - 1) + 1 + 1) % 2 ^ 32 = 0 := hnext.symm
      show 1 = _
      omega
    · rw [if_neg hzero, hnext]
      have hne : (n % (2 ^ 32 - 1) + 1 + 1) % 2 ^ 32 ≠ 0 := by
        rw [← hnext]
        exact fun h => hzero (BitVec.eq_of_toNat_eq h)
      omega

theorem generation_ne_zero {n : ℕ} (h : 0 < n) : generation n ≠ 0 := by
  obtain ⟨n, rfl⟩ : ∃ k, n = k + 1 := ⟨n - 1, by omega⟩
  intro hzero
  have := generation_succ_toNat n
  rw [hzero] at this
  have : 0 = n % (2 ^ 32 - 1) + 1 := this
  omega

/-- Before the numbers come round, generations differ. -/
theorem generation_ne {taken issued : ℕ} (hlt : taken < issued)
    (hsoon : taken = 0 ∨ issued < taken + (2 ^ 32 - 1)) : generation taken ≠ generation issued := by
  obtain ⟨issued, rfl⟩ : ∃ k, issued = k + 1 := ⟨issued - 1, by omega⟩
  cases taken with
  | zero => exact (generation_ne_zero (Nat.succ_pos issued)).symm
  | succ taken =>
    intro heq
    have hmod := congrArg BitVec.toNat heq
    rw [generation_succ_toNat, generation_succ_toNat] at hmod
    omega

/-! ## What stems from a stream -/

/-- An event is what a frame of the stream says. -/
def StemsFrom (stream : Bytes) (ev : AcaiaV2.Event) : Prop :=
  ∃ wire frame, wire <:+: stream ∧ parseWireFrame wire = some frame ∧
    decodeFrame frame = some (some ev)

/-- A reading is what a weight frame of the stream says. -/
def ReadFrom (stream : Bytes) (weight : WeightReading) : Prop :=
  ∃ grams stable scaleTimerMs, StemsFrom stream (.weight grams stable scaleTimerMs) ∧
    weight.grams = some grams ∧ weight.stable = stable ∧
    weight.scaleTimerMs = scaleTimerMs.getD ScaleTime.UNKNOWN_MS

theorem StemsFrom.mono {stream stream' : Bytes} {ev : AcaiaV2.Event} (h : StemsFrom stream ev)
    (hsub : stream <:+: stream') : StemsFrom stream' ev := by
  obtain ⟨wire, frame, hwire, hparse, hdecode⟩ := h
  exact ⟨wire, frame, hwire.trans hsub, hparse, hdecode⟩

theorem ReadFrom.mono {stream stream' : Bytes} {weight : WeightReading} (h : ReadFrom stream weight)
    (hsub : stream <:+: stream') : ReadFrom stream' weight := by
  obtain ⟨grams, stable, scaleTimerMs, hev, hread⟩ := h
  exact ⟨grams, stable, scaleTimerMs, hev.mono hsub, hread⟩

theorem eventsOf_delivered {reports : List FrameFramer.Report} {ev : AcaiaV2.Event}
    (h : ev ∈ Link.eventsOf reports) :
    ∃ frame ∈ FrameFramer.delivered reports, decodeFrame frame = some (some ev) := by
  induction reports with
  | nil => exact absurd h List.not_mem_nil
  | cons report reports ih =>
    cases report with
    | frame frame =>
      rcases List.mem_append.1 h with hhere | hlater
      · refine ⟨frame, List.mem_cons_self, ?_⟩
        rwa [Option.mem_toList, Option.join_eq_some_iff] at hhere
      · obtain ⟨later, hmem, hdecode⟩ := ih hlater
        exact ⟨later, List.mem_cons_of_mem frame hmem, hdecode⟩
    | rejected data => exact ih h

/-- The events of a notification stem from the stream that the notification continues. -/
theorem push_stemsFrom {stream data buf : Bytes} {reports : List FrameFramer.Report}
    (h : FrameFramer.push (MAX_FRAME + 1) (scanFrames stream).2 data = some (reports, buf)) :
    buf = (scanFrames (stream ++ data)).2 ∧
      ∀ ev ∈ Link.eventsOf reports, StemsFrom (stream ++ data) ev := by
  obtain ⟨reports', hpush, hwires⟩ :=
    FrameFramer.push_delivers (Nat.lt_succ_self MAX_FRAME) data (wait_scan stream)
  obtain ⟨rfl, rfl⟩ := Prod.mk.inj (Option.some.inj (h.symm.trans hpush))
  have happend := scanFrames_append stream data
  refine ⟨(congrArg Prod.snd happend).symm, fun ev hev => ?_⟩
  obtain ⟨frame, hframe, hdecode⟩ := eventsOf_delivered hev
  have hmem : some frame ∈ (scanFrames ((scanFrames stream).2 ++ data)).1.map parseWireFrame := by
    rw [← hwires]
    exact List.mem_map_of_mem hframe
  obtain ⟨wire, hwire, hparse⟩ := List.mem_map.1 hmem
  have hfound : wire ∈ (scanFrames (stream ++ data)).1 := by
    rw [happend]
    exact List.mem_append_right _ hwire
  exact ⟨wire, frame, scan_infix verdict_stable _ wire hfound, hparse, hdecode⟩

/-! ## The invariant -/

/-- The framer waits at the end of what was heard, once the host took up the latest generation, and
the events to hand on stem from there. -/
structure Rx.Sound (r : Rx) : Prop where
  generations : r.rxGenerationIssued = generation r.issued ∧ r.rxHostGeneration = generation r.taken
  taken_le : r.taken ≤ r.issued
  latest : ∀ g, r.subscription = some g → g = r.rxGenerationIssued
  waiting : r.taken = r.issued → r.rxReceiver = (scanFrames r.heard).2
  unheard : r.taken < r.issued → r.heard = []
  pending : ∀ ev ∈ r.pending, StemsFrom r.heard ev

namespace Link

structure StreamInv (l : Link) : Prop where
  rx : l.rx.Sound
  ends : l.pc.Ends
  dialling : l.pc.Dialling → l.service.state = .connecting
  silent : l.pc.Silent → l.subscription = none ∧ l.pending = []
  subscribed : l.service.state = .ready ∨ l.pc = .identify ∨ l.pc = .enter →
    l.subscription = some l.rxGenerationIssued
  cleared : l.pc = .issue → l.service.weight.timestampMs = 0
  weight : l.service.weight.timestampMs = 0 ∨ ReadFrom l.heard l.service.weight

theorem streamInv_boot : StreamInv boot where
  rx :=
    { generations := ⟨rfl, rfl⟩
      taken_le := le_refl _
      latest := fun _ hg => absurd hg (Option.some_ne_none _).symm
      waiting := fun _ => rfl
      unheard := fun _ => rfl
      pending := fun _ hev => absurd hev List.not_mem_nil }
  ends := @Pc.Leads.ends .ready .drain trivial
  dialling := False.elim
  silent := False.elim
  subscribed := fun h => by
    rcases h with h | h | h
    · exact ScaleState.noConfusion h
    · exact Pc.noConfusion h
    · exact Pc.noConfusion h
  cleared := fun h => Pc.noConfusion h
  weight := .inl rfl

variable {l l' : Link}

/-! ## Steps that do not receive -/

/-- No session is resumed, and the reading is kept or cleared. -/
structure Fades (service service' : BleScaleService) : Prop where
  ready : service'.state = .ready → service.state = .ready
  weight : service'.weight = service.weight ∨ service'.weight.timestampMs = 0

theorem Fades.refl (service : BleScaleService) : Fades service service := ⟨id, .inl rfl⟩

theorem fades_transition (service : BleScaleService) {next : ScaleState} (hnext : next ≠ .ready) :
    Fades service (service.transition next) := by
  unfold BleScaleService.transition
  by_cases hsame : service.state = next
  · rw [if_pos hsame]
    exact Fades.refl service
  · rw [if_neg hsame]
    refine ⟨fun h => absurd h hnext, ?_⟩
    dsimp only
    split_ifs
    · exact .inr rfl
    · exact .inl rfl

/-- Outside the handshake it is enough that receiving is left alone and no session is resumed. -/
theorem StreamInv.apart (h : StreamInv l) (hrx : l'.rx = l.rx) (hleads : l'.pc.Leads l'.service.state)
    (hservice : Fades l.service l'.service) : StreamInv l' where
  rx := hrx ▸ h.rx
  ends := hleads.ends
  dialling := fun hpc => (hleads.dialling hpc).2
  silent := fun hpc => absurd hpc hleads.not_handshake.1
  subscribed := fun hcase => by
    rcases hcase with hready | hpc | hpc
    · have hsub := h.subscribed (.inl (hservice.ready hready))
      have hissued : l'.rxGenerationIssued = l.rxGenerationIssued :=
        congrArg Rx.rxGenerationIssued hrx
      have hsame : l'.subscription = l.subscription := congrArg Rx.subscription hrx
      rw [hissued, hsame]
      exact hsub
    · exact absurd hpc hleads.not_handshake.2.2.1
    · exact absurd hpc hleads.not_handshake.2.2.2
  cleared := fun hpc => absurd hpc hleads.not_handshake.2.1
  weight := by
    have hheard : l'.heard = l.heard := congrArg Rx.heard hrx
    rcases hservice.weight with hsame | hclear
    · rw [hsame, hheard]
      exact h.weight
    · exact .inl hclear

theorem Apart.streamInv (h : Apart l l') (hinv : StreamInv l) : StreamInv l' := by
  refine hinv.apart h.rx h.leads ?_
  rcases h.service with hsame | ⟨next, hnext, hmove⟩
  · rw [hsame]
    exact Fades.refl l.service
  · rw [hmove]
    exact fades_transition l.service hnext

/-- Draining is about commands only. -/
theorem drainCommands_keeps (l : Link) (hpc : l.pc = .drain) :
    l.drainCommands.rx = l.rx ∧ l.drainCommands.service = l.service ∧
      ∀ state, l.drainCommands.pc.Leads state := by
  have hdrain : ∀ state, l.pc.Leads state := fun _ => hpc ▸ trivial
  unfold drainCommands
  cases l.cmdQueue with
  | nil => exact ⟨rfl, rfl, fun _ => trivial⟩
  | cons cmd rest =>
    cases cmd with
    | tare t =>
      dsimp only
      split_ifs
      · exact ⟨rfl, rfl, hdrain⟩
      · exact ⟨rfl, rfl, hdrain⟩
      · exact ⟨rfl, rfl, hdrain⟩
    | stopController =>
      dsimp only
      split_ifs
      · exact ⟨rfl, rfl, hdrain⟩
      · exact ⟨rfl, rfl, hdrain⟩
    | startController =>
      dsimp only
      split_ifs
      · exact ⟨rfl, rfl, hdrain⟩
      · exact ⟨rfl, rfl, hdrain⟩
    | other => exact ⟨rfl, rfl, hdrain⟩

theorem streamInv_drainCommands (h : StreamInv l) (hpc : l.pc = .drain) :
    StreamInv l.drainCommands := by
  obtain ⟨hrx, hservice, hleads⟩ := drainCommands_keeps l hpc
  refine h.apart hrx (hleads _) ?_
  rw [hservice]
  exact Fades.refl l.service

theorem streamInv_giveUp (h : StreamInv l) : StreamInv l.giveUp :=
  (Apart.still rfl rfl rfl (leads_giveUp l _) : Apart l l.giveUp).streamInv h

/-! ## The handshake -/

/-- From the connect on nothing of an earlier connection can arrive. -/
theorem streamInv_tryConnect (h : StreamInv l) (hpc : l.pc = .tryConnect) (env : Env) :
    StreamInv (l.tryConnect env) := by
  have hstate : l.service.state = .connecting := h.dialling (hpc ▸ trivial)
  unfold tryConnect
  split_ifs with hok hidle
  · exact
      { rx :=
          { generations := h.rx.generations
            taken_le := h.rx.taken_le
            latest := fun _ hg => absurd hg (Option.some_ne_none _).symm
            waiting := h.rx.waiting
            unheard := h.rx.unheard
            pending := h.rx.pending }
        ends := @Pc.Dialling.ends .clear trivial
        dialling := fun _ => hstate
        silent := fun _ => ⟨rfl, hidle⟩
        subscribed := fun hcase => absurd hcase (@Pc.Silent.unsubscribed .clear trivial _ hstate)
        cleared := fun hat => Pc.noConfusion hat
        weight := h.weight }
  · exact h
  · exact streamInv_giveUp h

theorem streamInv_clearReading (h : StreamInv l) (hpc : l.pc = .clear) (env : Env) :
    StreamInv (l.clearReading env) := by
  have hstate : l.service.state = .connecting := h.dialling (hpc ▸ trivial)
  unfold clearReading
  split_ifs with hok
  · exact
      { rx := h.rx
        ends := @Pc.Dialling.ends .issue trivial
        dialling := fun _ => hstate
        silent := fun _ => h.silent (hpc ▸ trivial)
        subscribed := fun hcase => absurd hcase (@Pc.Silent.unsubscribed .issue trivial _ hstate)
        cleared := fun _ => rfl
        weight := .inl rfl }
  · exact streamInv_giveUp h

/-- A new generation has heard nothing, and nothing is left to hand on. -/
theorem streamInv_issueGeneration (h : StreamInv l) (hpc : l.pc = .issue) :
    StreamInv l.issueGeneration := by
  have hstate : l.service.state = .connecting := h.dialling (hpc ▸ trivial)
  obtain ⟨hnone, hidle⟩ := h.silent (hpc ▸ trivial)
  have hle : l.taken ≤ l.issued := h.rx.taken_le
  exact
    { rx :=
        { generations := ⟨congrArg nextGeneration h.rx.generations.1, h.rx.generations.2⟩
          taken_le := Nat.le_succ_of_le hle
          latest := fun _ hg => absurd (hnone.symm.trans hg) (Option.some_ne_none _).symm
          waiting := fun heq => by
            have : l.taken = l.issued + 1 := heq
            omega
          unheard := fun _ => rfl
          pending := fun _ hev => by
            have hev : _ ∈ l.pending := hev
            rw [hidle] at hev
            exact absurd hev List.not_mem_nil }
      ends := @Pc.Dialling.ends .subscribe trivial
      dialling := fun _ => hstate
      silent := fun _ => ⟨hnone, hidle⟩
      subscribed := fun hcase => absurd hcase (@Pc.Silent.unsubscribed .subscribe trivial _ hstate)
      cleared := fun hat => Pc.noConfusion hat
      weight := .inl (h.cleared hpc) }

theorem streamInv_subscribe (h : StreamInv l) (hpc : l.pc = .subscribe) : StreamInv l.subscribe where
  rx :=
    { generations := h.rx.generations
      taken_le := h.rx.taken_le
      latest := fun _ hg => (Option.some.inj hg).symm
      waiting := h.rx.waiting
      unheard := h.rx.unheard
      pending := h.rx.pending }
  ends := @Pc.Dialling.ends .identify trivial
  dialling := fun _ => h.dialling (hpc ▸ trivial)
  silent := False.elim
  subscribed := fun _ => rfl
  cleared := fun hat => Pc.noConfusion hat
  weight := h.weight

theorem streamInv_identify (h : StreamInv l) (hpc : l.pc = .identify) (env : Env) :
    StreamInv (l.identify env) := by
  unfold identify
  split_ifs
  · exact
      { rx := h.rx
        ends := @Pc.Dialling.ends .enter trivial
        dialling := fun _ => h.dialling (hpc ▸ trivial)
        silent := False.elim
        subscribed := fun _ => h.subscribed (.inr (.inl hpc))
        cleared := fun hat => Pc.noConfusion hat
        weight := h.weight }
  · exact (Apart.still rfl rfl rfl (leads_giveUp _ _) :
      Apart l ({ l with rxAcceptedGeneration := 0 } : Link).giveUp).streamInv h

/-- The session begins with the reading that the subscription brought so far. -/
theorem streamInv_enterReady (h : StreamInv l) (hpc : l.pc = .enter) : StreamInv l.enterReady := by
  have hstate : l.service.state = .connecting := h.dialling (hpc ▸ trivial)
  have hweight : (l.service.transition .ready).weight = l.service.weight := by
    unfold BleScaleService.transition
    simp [hstate]
  exact
    { rx := h.rx
      ends := @Pc.Leads.ends .ready .drain trivial
      dialling := False.elim
      silent := False.elim
      subscribed := fun _ => h.subscribed (.inr (.inr hpc))
      cleared := fun hat => Pc.noConfusion hat
      weight := by
        show (l.service.transition .ready).weight.timestampMs = 0 ∨
          ReadFrom l.heard (l.service.transition .ready).weight
        rw [hweight]
        exact h.weight }

theorem streamInv_manage (h : StreamInv l) (env : Env) : StreamInv (l.manage env) := by
  by_cases hdrain : l.pc = .drain
  · unfold manage
    rw [hdrain]
    exact streamInv_drainCommands h hdrain
  · by_cases hdial : l.pc.Dialling
    · unfold manage
      cases hpc : l.pc with
      | tryConnect => exact streamInv_tryConnect h hpc env
      | clear => exact streamInv_clearReading h hpc env
      | issue => exact streamInv_issueGeneration h hpc
      | subscribe => exact streamInv_subscribe h hpc
      | identify => exact streamInv_identify h hpc env
      | enter => exact streamInv_enterReady h hpc
      | drain | select | run | teardown _ _ | leave _ _ =>
        rw [hpc] at hdial
        exact False.elim hdial
    · exact (apart_manage l env h.ends hdrain hdial).streamInv h

/-! ## The host -/

/-- Fewer than `2 ^ 32 - 1` generations were issued since the host last took one up. -/
def InTime (l : Link) : Prop := l.taken = 0 ∨ l.issued < l.taken + (2 ^ 32 - 1)

instance : DecidablePred InTime := fun l =>
  inferInstanceAs (Decidable (l.taken = 0 ∨ l.issued < l.taken + (2 ^ 32 - 1)))

/-- What the framer of the running callback waits at is the end of what was heard. -/
theorem framer_waits (h : l.rx.Sound) (hsoon : l.InTime) :
    (if l.rxHostGeneration ≠ l.rxGenerationIssued then [] else l.rxReceiver) =
      (scanFrames l.heard).2 := by
  rcases Nat.lt_or_eq_of_le h.taken_le with hlt | heq
  · have hne : l.rxHostGeneration ≠ l.rxGenerationIssued := by
      have hissued : l.rxGenerationIssued = generation l.issued := h.generations.1
      have htaken : l.rxHostGeneration = generation l.taken := h.generations.2
      rw [hissued, htaken]
      exact generation_ne hlt hsoon
    have hheard : l.heard = [] := h.unheard hlt
    rw [if_pos hne, hheard]
    rfl
  · have hsame : l.rxHostGeneration = l.rxGenerationIssued :=
      h.generations.2.trans ((congrArg generation heq).trans h.generations.1.symm)
    rw [if_neg (not_not_intro hsame)]
    exact h.waiting heq

theorem streamInv_notify (h : StreamInv l) (hsoon : l.InTime) (data : Bytes) :
    StreamInv (l.notify data) := by
  rcases notify_cases l data with hsame | ⟨g, reports, buf, hsub, hidle, -, -, hpush, hnotify⟩
  · rw [hsame]
    exact h
  · obtain rfl : g = l.rxGenerationIssued := h.rx.latest g hsub
    rw [framer_waits h.rx hsoon] at hpush
    obtain ⟨rfl, hevents⟩ := push_stemsFrom hpush
    rw [hnotify]
    exact
      { rx :=
          { generations := ⟨h.rx.generations.1, h.rx.generations.1⟩
            taken_le := le_refl _
            latest := h.rx.latest
            waiting := fun _ => rfl
            unheard := fun hlt => absurd hlt (lt_irrefl _)
            pending := hevents }
        ends := h.ends
        dialling := h.dialling
        silent := fun hpc => absurd ((h.silent hpc).1.symm.trans hsub) (Option.some_ne_none _).symm
        subscribed := h.subscribed
        cleared := h.cleared
        weight := h.weight.imp id fun hread => hread.mono (List.prefix_append _ _).isInfix }

theorem streamInv_onEvent (h : StreamInv l) (arrivalMs : U32) : StreamInv (l.onEvent arrivalMs) := by
  unfold onEvent
  cases hpending : l.pending with
  | nil => exact h
  | cons ev rest =>
    have hnot : ¬ l.pc.Silent := by
      intro hpc
      have hidle := (h.silent hpc).2
      rw [hpending] at hidle
      exact absurd hidle (List.cons_ne_nil ev rest)
    have hstem : ∀ u ∈ ev :: rest, StemsFrom l.heard u := hpending ▸ h.rx.pending
    -- the reading is kept, or is the event's
    have hinv : ∀ service : BleScaleService, service.state = l.service.state →
        (service.weight = l.service.weight ∨ ReadFrom l.heard service.weight) →
        StreamInv { l with pending := rest, service := service } := by
      intro service hstate hweight
      exact
        { rx :=
            { generations := h.rx.generations
              taken_le := h.rx.taken_le
              latest := h.rx.latest
              waiting := h.rx.waiting
              unheard := h.rx.unheard
              pending := fun u hu => hstem u (List.mem_cons_of_mem ev hu) }
          ends := h.ends
          dialling := fun hpc => hstate.trans (h.dialling hpc)
          silent := fun hpc => absurd hpc hnot
          subscribed := fun hcase => h.subscribed (hcase.imp hstate.symm.trans id)
          cleared := fun hpc => absurd (hpc ▸ trivial) hnot
          weight := by
            rcases hweight with hsame | hread
            · show service.weight.timestampMs = 0 ∨ ReadFrom l.heard service.weight
              rw [hsame]
              exact h.weight
            · exact .inr hread }
    cases ev with
    | weight grams stable scaleTimerMs =>
      refine hinv _ rfl (.inr ?_)
      exact ⟨grams, stable, scaleTimerMs, hstem _ List.mem_cons_self, rfl, rfl, rfl⟩
    | battery percent => exact hinv l.service rfl (.inl rfl)
    | timer ms => exact hinv l.service rfl (.inl rfl)
    | key code => exact hinv l.service rfl (.inl rfl)
    | unknown => exact hinv l.service rfl (.inl rfl)

/-- **One step.** Whatever task takes it. -/
theorem streamInv_step (h : StreamInv l) (s : Step) (hsoon : ∀ data, s = .notify data → l.InTime) :
    StreamInv (l.step s) := by
  have hqueue : ∀ cmd, StreamInv (l.xQueueSend cmd) := by
    intro cmd
    unfold xQueueSend
    split_ifs
    · exact { h with }
    · exact h
  cases s with
  | captureTare => exact { h with }
  | sendTare i =>
    show StreamInv (l.sendTare i)
    unfold sendTare
    cases l.requests[i]? with
    | none => exact h
    | some t =>
      dsimp only
      unfold xQueueSend
      split_ifs
      · exact { h with }
      · exact { h with }
  | send cmd =>
    cases cmd with
    | tare t => exact h
    | stopController => exact hqueue _
    | startController => exact hqueue _
    | other => exact hqueue _
  | manage env => exact streamInv_manage h env
  | notify data => exact streamInv_notify h (hsoon data rfl) data
  | event arrivalMs => exact streamInv_onEvent h arrivalMs
  | disconnected => exact { h with }
  | deviceFound => exact { h with }

end Link

end Pumpbug.Ble
