import Pumpbug.Lib.Clock
import Pumpbug.Lib.Run
import Pumpbug.Net.SseServer

/-!
# Taking over the event stream

A session whose ticket is no longer the newest finds the stop request standing, unless its own
start-up has erased it: the stop reason is cleared after the ticket is consumed, and a request that
comes between the two, or whose ticket is still to be minted, leaves nothing behind.
-/

namespace Pumpbug.Net

open Lib

namespace System

/-! ## What always holds -/

/-- The bookkeeping of the two tasks. -/
structure Wf (s : System) : Prop where
  reason : s.server.stopReason = .none ∨ s.server.stopReason = .replaced
  shouldRun : s.server.shouldRun = true
  once : s.admissions.Nodup
  admitted : ∀ n ∈ s.admissions, n ≤ s.minted
  /-- A ticket that can be consumed is the newest and unused. -/
  usable : s.server.ticketConsumed = false → s.server.ticketToken = s.latest ∧
    s.server.ticketMintedMs = Clock.reading 32 s.mintedAt ∧ s.minted ∉ s.admissions
  age : s.mintedAt ≤ s.nowMs
  ticket : ∀ t, s.sessionTask = .admitted t ∨ s.startedTicket = some t → t ≤ s.minted
  active : s.active = match s.sessionTask with
    | .running _ => 1
    | .leaving _ => 1
    | _ => 0
  /-- The stop request stands until a session starts up. -/
  standing : s.ticketTask = .minting → s.startedSince = false → s.server.stopReason = .replaced
  erased : s.startedSince = true → s.server.stopReason = .none
  /-- The request of an earlier ticket does not stop the session of the newest. -/
  fresh : ∀ t, s.startedTicket = some t → t = s.minted → s.ticketTask = .idle →
    s.server.stopReason = .none

theorem wf_init : Wf {} := by
  refine ⟨Or.inl rfl, rfl, List.nodup_nil, nofun, nofun, le_rfl, ?_, rfl, nofun, nofun, nofun⟩
  rintro t (h | h) <;> cases h

/-- The ways a client's ticket is received. -/
theorem consumeTicket_cases (s : SseServer) (token : String) (millis : U32) :
    ((s.consumeTicket token millis).2 = false ∧
      ((s.consumeTicket token millis).1 = s ∨
        (s.consumeTicket token millis).1 = { s with ticketConsumed := true })) ∨
    (s.ticketConsumed = false ∧ s.ticketToken = token ∧
      millis - s.ticketMintedMs ≤ kTicketTtlMs ∧
      s.consumeTicket token millis = ({ s with ticketConsumed := true, ticketToken := "" }, true)) := by
  unfold SseServer.consumeTicket
  split_ifs with h₁ h₂ h₃ h₄ h₅
  · exact Or.inl ⟨rfl, Or.inl rfl⟩
  · exact Or.inl ⟨rfl, Or.inl rfl⟩
  · exact Or.inl ⟨rfl, Or.inl rfl⟩
  · exact Or.inl ⟨rfl, Or.inr rfl⟩
  · exact Or.inl ⟨rfl, Or.inl rfl⟩
  · right
    exact ⟨by simpa using h₂, by simpa using h₅, by bv_omega, rfl⟩

theorem clearStopReason_replaced {s : SseServer} (h : s.stopReason = .none ∨ s.stopReason = .replaced) :
    s.clearStopReason .replaced = { s with stopReason := .none } := by
  unfold SseServer.clearStopReason
  rcases h with h | h
  · rw [if_neg (by rw [h]; decide), ← h]
  · rw [if_pos h]

theorem clearStopReason_sleeping {s : SseServer} (h : s.stopReason = .none ∨ s.stopReason = .replaced) :
    s.clearStopReason .sleeping = s := by
  unfold SseServer.clearStopReason
  exact if_neg (by rcases h with h | h <;> rw [h] <;> decide)

theorem wf_connect {s : System} (token : String) (h : s.Wf) : (s.step (.connect token)).Wf := by
  by_cases htask : s.sessionTask = .idle
  · have hstep : s.step (.connect token) =
        if (s.server.consumeTicket token s.millis).2 then
          { s with server := (s.server.consumeTicket token s.millis).1,
                   sessionTask := .admitted s.minted, admissions := s.minted :: s.admissions }
        else { s with server := (s.server.consumeTicket token s.millis).1 } := by
      unfold step
      rw [htask]
    rw [hstep]
    rcases consumeTicket_cases s.server token s.millis with ⟨hr, hs⟩ | ⟨hc, htok, -, hr⟩
    · rw [if_neg (by rw [hr]; decide)]
      rcases hs with hs | hs
      · rw [hs]
        exact h
      · rw [hs]
        exact ⟨h.reason, h.shouldRun, h.once, h.admitted, nofun, h.age, h.ticket, h.active,
          h.standing, h.erased, h.fresh⟩
    · rw [hr, if_pos rfl]
      obtain ⟨-, -, hunused⟩ := h.usable hc
      have hidle := h.active
      rw [htask] at hidle
      refine ⟨h.reason, h.shouldRun, List.nodup_cons.2 ⟨hunused, h.once⟩, ?_, nofun, h.age, ?_, hidle,
        h.standing, h.erased, nofun⟩
      · intro n hn
        rcases List.mem_cons.1 hn with rfl | hn
        · exact le_rfl
        · exact h.admitted n hn
      · rintro t (ht | ht)
        · cases ht
          exact le_rfl
        · cases ht
  · have hstep : s.step (.connect token) = s := by
      unfold step
      dsimp only
      split
      · exact absurd ‹_› htask
      · rfl
    rw [hstep]
    exact h

theorem wf_mint {s : System} (token : String) (h : s.Wf) : (s.step (.mint token)).Wf := by
  obtain ⟨server, ticketTask, sessionTask, nowMs, minted, mintedAt, latest, admissions, active,
    startedSince⟩ := s
  unfold step
  cases ticketTask with
  | idle => exact h
  | minting =>
    refine ⟨h.reason, h.shouldRun, h.once, fun n hn => (h.admitted n hn).trans (Nat.le_succ _), ?_,
      le_rfl, fun t ht => (h.ticket t ht).trans (Nat.le_succ _), h.active, nofun, h.erased, ?_⟩
    · intro _
      refine ⟨rfl, rfl, fun hmem => ?_⟩
      have hle := h.admitted _ hmem
      exact absurd hle (by simp)
    · intro t ht heq
      have hle := h.ticket t (Or.inr ht)
      have heq' : t = minted + 1 := heq
      dsimp only at hle
      omega

theorem wf_step {s : System} (m : Move) (h : s.Wf) : (s.step m).Wf := by
  obtain ⟨server, ticketTask, sessionTask, nowMs, minted, mintedAt, latest, admissions, active,
    startedSince⟩ := s
  cases m with
  | wait ms =>
    exact ⟨h.reason, h.shouldRun, h.once, h.admitted, h.usable, h.age.trans (Nat.le_add_right _ _),
      h.ticket, h.active, h.standing, h.erased, h.fresh⟩
  | requestStop =>
    unfold step
    cases ticketTask with
    | idle =>
      exact ⟨Or.inr rfl, h.shouldRun, h.once, h.admitted, h.usable, h.age, h.ticket, h.active,
        fun _ _ => rfl, nofun, fun _ _ _ => nofun⟩
    | minting => exact h
  | mint token => exact wf_mint token h
  | connect token => exact wf_connect token h
  | clear =>
    unfold step
    cases sessionTask with
    | admitted ticket =>
      dsimp only
      rw [clearStopReason_replaced h.reason]
      have hidle := h.active
      refine ⟨Or.inl rfl, h.shouldRun, h.once, h.admitted, h.usable, h.age, ?_, hidle, fun _ => nofun,
        fun _ => rfl, fun _ _ _ _ => rfl⟩
      rintro t (ht | ht)
      · cases ht
      · cases ht
        exact h.ticket _ (Or.inl rfl)
    | _ => exact h
  | activate =>
    unfold step
    cases sessionTask with
    | cleared ticket =>
      have hidle := h.active
      refine ⟨h.reason, h.shouldRun, h.once, h.admitted, h.usable, h.age, ?_, ?_, h.standing, h.erased,
        ?_⟩
      · rintro t (ht | ht)
        · cases ht
        · cases ht
          exact h.ticket _ (Or.inr rfl)
      · show active + 1 = 1
        rw [show active = 0 from hidle]
      · intro t ht
        cases ht
        exact h.fresh _ rfl
    | _ => exact h
  | check =>
    unfold step
    cases sessionTask with
    | running ticket =>
      dsimp only
      split_ifs
      · have hone := h.active
        refine ⟨h.reason, h.shouldRun, h.once, h.admitted, h.usable, h.age, ?_, hone, h.standing,
          h.erased, nofun⟩
        rintro t (ht | ht) <;> cases ht
      · exact h
    | _ => exact h
  | quit =>
    unfold step
    cases sessionTask with
    | running ticket =>
      have hone := h.active
      refine ⟨h.reason, h.shouldRun, h.once, h.admitted, h.usable, h.age, ?_, hone, h.standing,
        h.erased, nofun⟩
      rintro t (ht | ht) <;> cases ht
    | _ => exact h
  | deactivate =>
    unfold step
    cases sessionTask with
    | leaving ticket =>
      have hone := h.active
      refine ⟨h.reason, h.shouldRun, h.once, h.admitted, h.usable, h.age, ?_, ?_, h.standing,
        h.erased, nofun⟩
      · rintro t (ht | ht) <;> cases ht
      · show active - 1 = 0
        rw [show active = 1 from hone]
    | _ => exact h
  | close connected =>
    unfold step
    cases sessionTask with
    | closing =>
      have hidle := h.active
      dsimp only
      rw [clearStopReason_sleeping h.reason, ite_self]
      refine ⟨h.reason, h.shouldRun, h.once, h.admitted, h.usable, h.age, ?_, hidle, h.standing,
        h.erased, nofun⟩
      rintro t (ht | ht) <;> cases ht
    | _ => exact h

/-! ## What a takeover promises -/

/-- One session at a time, a ticket for each, and stop requests that reach whom they are for. -/
structure Orderly (s : System) : Prop where
  once : s.admissions.Nodup
  single : s.active ≤ 1
  /-- The stop request for a session that is no longer the newest stands. -/
  stopped : ∀ t, s.startedTicket = some t → t < s.minted →
    s.server.isSessionStopRequested = true
  /-- No earlier request is left over for the newest. -/
  spared : ∀ t, s.startedTicket = some t → t = s.minted → s.ticketTask = .idle →
    s.server.isSessionStopRequested = false

/-- What one step may do. -/
structure Sound (s : System) (m : Move) : Prop where
  /-- Only the newest ticket is admitted, once and within its lifetime. -/
  admission : ∀ token, m = .connect token → s.admits token = true →
    token = s.latest ∧ s.minted ∉ s.admissions ∧ s.nowMs - s.mintedAt ≤ kTicketTtlMs.toNat
  /-- A session that is no longer the newest ends at its next check. -/
  observed : m = .check → ∀ t, s.sessionTask = .running t → t < s.minted →
    (s.step m).sessionTask = .leaving t
  orderly : (s.step m).Orderly

/-- The steps that keep the promise.  A session starts up with the newest ticket, no ticket is
minted for a request that a session has started up under, and no ticket comes a turn of the clock
late. -/
structure Safe (s : System) (m : Move) : Prop where
  newest : m = .clear → ∀ t, s.sessionTask = .admitted t → t = s.minted
  apart : ∀ token, m = .mint token → s.ticketTask = .minting → s.startedTicket ≠ none →
    s.startedSince = false
  inTime : ∀ token, m = .connect token → s.admits token = true → s.nowMs - s.mintedAt < 2 ^ 32

/-- The stop request for a superseded session stands. -/
def Stands (s : System) : Prop :=
  ∀ t, s.startedTicket = some t → t < s.minted → s.server.stopReason = .replaced

theorem requested_iff {s : System} (h : s.Wf) :
    s.server.isSessionStopRequested = true ↔ s.server.stopReason = .replaced := by
  unfold SseServer.isSessionStopRequested
  rw [h.shouldRun]
  rcases h.reason with hr | hr
  · simp [hr]
  · simp [hr]

theorem orderly_of_stands {s : System} (h : s.Wf) (hst : s.Stands) : s.Orderly := by
  refine ⟨h.once, ?_, fun t ht hlt => (requested_iff h).2 (hst t ht hlt), ?_⟩
  · rw [h.active]
    split <;> omega
  · intro t ht heq hidle
    rw [Bool.eq_false_iff, ne_eq, requested_iff h, h.fresh t ht heq hidle]
    exact nofun

theorem stands_of_orderly {s : System} (h : s.Wf) (ho : s.Orderly) : s.Stands :=
  fun t ht hlt => (requested_iff h).1 (ho.stopped t ht hlt)

/-- What an admission says about the ticket. -/
theorem of_admits {s : System} {token : String} (h : s.Wf) (ha : s.admits token = true) :
    token = s.latest ∧ s.minted ∉ s.admissions ∧
      Clock.since (Clock.reading 32 s.mintedAt) (Clock.reading 32 s.nowMs) ≤ kTicketTtlMs.toNat := by
  unfold admits at ha
  rw [Bool.and_eq_true] at ha
  rcases consumeTicket_cases s.server token s.millis with ⟨hr, -⟩ | ⟨hc, htok, hage, -⟩
  · rw [hr] at ha
    exact absurd ha.2 nofun
  · obtain ⟨hlatest, hms, hunused⟩ := h.usable hc
    rw [hms] at hage
    exact ⟨htok ▸ hlatest, hunused, hage⟩

/-- **Step lemma.** A safe step leaves the stop request of a superseded session standing. -/
theorem stands_step {s : System} {m : Move} (h : s.Wf) (hst : s.Stands) (hsafe : s.Safe m) :
    (s.step m).Stands := by
  have hnewest := hsafe.newest
  have hapart := hsafe.apart
  have hstanding := h.standing
  clear hsafe h
  obtain ⟨server, ticketTask, sessionTask, nowMs, minted, mintedAt, latest, admissions, active,
    startedSince⟩ := s
  cases m with
  | wait ms => exact hst
  | requestStop =>
    cases ticketTask with
    | idle => exact fun _ _ _ => rfl
    | minting => exact hst
  | mint token =>
    cases ticketTask with
    | idle => exact hst
    | minting =>
      intro t ht _
      have hsome : startedTicket ⟨server, .minting, sessionTask, nowMs, minted, mintedAt, latest,
          admissions, active, startedSince⟩ ≠ none := by
        intro hnone
        have ht' : startedTicket ⟨server, .minting, sessionTask, nowMs, minted, mintedAt, latest,
          admissions, active, startedSince⟩ = some t := ht
        rw [hnone] at ht'
        exact absurd ht' nofun
      exact hstanding rfl (hapart token rfl rfl hsome)
  | connect token =>
    cases sessionTask with
    | idle =>
      unfold step
      dsimp only
      split_ifs
      · exact nofun
      · exact nofun
    | _ => exact hst
  | clear =>
    cases sessionTask with
    | admitted ticket =>
      intro t ht hlt
      cases ht
      have hlt' : ticket < minted := hlt
      have heq : ticket = minted := hnewest rfl ticket rfl
      omega
    | _ => exact hst
  | activate =>
    cases sessionTask with
    | cleared ticket =>
      intro t ht hlt
      cases ht
      exact hst ticket rfl hlt
    | _ => exact hst
  | check =>
    cases sessionTask with
    | running ticket =>
      unfold step
      dsimp only
      split_ifs
      · exact nofun
      · exact hst
    | _ => exact hst
  | quit =>
    cases sessionTask with
    | running ticket => exact nofun
    | _ => exact hst
  | deactivate =>
    cases sessionTask with
    | leaving ticket => exact nofun
    | _ => exact hst
  | close connected =>
    cases sessionTask with
    | closing => exact nofun
    | _ => exact hst

theorem sound_of_stands {s : System} {m : Move} (h : s.Wf) (hst : s.Stands) (hsafe : s.Safe m) :
    s.Sound m := by
  refine ⟨?_, ?_, orderly_of_stands (wf_step m h) (stands_step h hst hsafe)⟩
  · intro token hm ha
    obtain ⟨hlatest, hunused, hage⟩ := of_admits h ha
    refine ⟨hlatest, hunused, ?_⟩
    rwa [Clock.since_reading h.age (hsafe.inTime token hm ha)] at hage
  · rintro rfl t ht hlt
    have hreq := (requested_iff h).2 (hst t (by unfold startedTicket; rw [ht]) hlt)
    unfold step
    dsimp only
    split
    · rename_i ticket htask
      rw [ht] at htask
      cases htask
      rw [if_pos hreq]
    · rename_i hne
      exact absurd ht (hne t)

/-- An unsafe step breaks the promise at once. -/
theorem safe_of_sound {s : System} {m : Move} (h : s.Wf) (hsound : s.Sound m) : s.Safe m := by
  have hafter := stands_of_orderly (wf_step m h) hsound.orderly
  refine ⟨?_, ?_, ?_⟩
  · rintro rfl t ht
    by_contra hne
    have hlt : t < s.minted := lt_of_le_of_ne (h.ticket t (Or.inl ht)) hne
    have hstep : s.step .clear = { s with server := s.server.clearStopReason .replaced,
                                          sessionTask := .cleared t, startedSince := true } := by
      unfold step
      rw [ht]
    rw [hstep] at hafter
    have hrep := hafter t rfl hlt
    have hnone : (s.server.clearStopReason .replaced).stopReason = .none := by
      rw [clearStopReason_replaced h.reason]
    exact absurd (hnone.symm.trans hrep) nofun
  · rintro token rfl hminting hsome
    by_contra hne
    obtain ⟨t, ht⟩ := Option.ne_none_iff_exists'.1 hsome
    have hstep : s.step (.mint token) =
        { s with server := s.server.mintTicket token s.millis, ticketTask := .idle,
                 minted := s.minted + 1, mintedAt := s.nowMs, latest := token } := by
      unfold step
      rw [hminting]
    rw [hstep] at hafter
    have hle := h.ticket t (Or.inr ht)
    have hrep := hafter t ht (Nat.lt_succ_of_le hle)
    have hnone := h.erased (by simpa using hne)
    exact absurd (hnone.symm.trans hrep) nofun
  · intro token hm ha
    obtain ⟨-, -, hage⟩ := hsound.admission token hm ha
    have httl : kTicketTtlMs.toNat = 30000 := rfl
    omega

/-- **Takeover of the event stream.** Over every interleaving, tickets admit and stop requests reach
whom they should if and only if every session starts up with the newest ticket, apart from the
requests of later tickets, and no ticket is presented a turn of the clock late. -/
theorem handsOver_iff (moves : List Move) :
    Along step Sound {} moves ↔ Along step Safe {} moves := by
  constructor
  · intro h
    exact h.imp Wf (fun s m hw hs => ⟨wf_step m hw, safe_of_sound hw hs⟩) wf_init
  · intro h
    refine h.imp (fun s => s.Wf ∧ s.Stands) (fun s m hw hs => ?_) ⟨wf_init, nofun⟩
    exact ⟨⟨wf_step m hw.1, stands_step hw.1 hw.2 hs⟩, sound_of_stands hw.1 hw.2 hs⟩

/-- A second page asks for a ticket while the first page's session starts up. -/
def startupRace : List Move :=
  [.requestStop, .mint "first", .connect "first", .requestStop, .clear, .mint "second"]

/-- The first page's session in its handler. -/
def unstopped : System := exec step {} (startupRace ++ [.activate])

theorem exec_check_unstopped (n : ℕ) :
    exec step unstopped (List.replicate n .check) = unstopped := by
  induction n with
  | zero => rfl
  | succ n ih =>
    rw [List.replicate_succ, exec_cons, show unstopped.step .check = unstopped by decide]
    exact ih

/-- However often it checks, the first session never sees the request. -/
theorem not_handsOver_startupRace :
    ¬ Along step Sound {} startupRace ∧ unstopped.minted = 2 ∧
      ∀ n, (exec step unstopped (List.replicate n .check)).sessionTask = .running 1 := by
  refine ⟨fun h => ?_, by decide, fun n => ?_⟩
  · have hstops := h.2.2.2.2.2.1.orderly.stopped 1 rfl (by decide)
    exact absurd hstops (by decide)
  · rw [exec_check_unstopped]
    decide

end System

end Pumpbug.Net
