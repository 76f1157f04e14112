import Pumpbug.Lib.Timeline
import Pumpbug.PumpEdge

/-!
# The event log of a published record

What a shot's events satisfy while it is in flight, and what closing the record makes of them.
Closing trims the events by their raw timestamps.  That agrees with the order of the log unless the
counter wraps between the last event at or before the intended end and that end, which only a
`TIMEOUT` can bring about: then the trim removes that event too.
-/

namespace Pumpbug

open Lib

/-- Milliseconds from the beginning of the shot to the event. -/
def Event.offset (beginMs : U32) (event : Event) : ℕ := Clock.since beginMs event.tMs

namespace Extraction

/-- The events at or before a time. -/
def eventsUpTo (e : Extraction) (tMs : U32) : List Event :=
  upTo (Event.offset e.beginMs) (Clock.since e.beginMs tMs) e.events.items

/-- The counter does not wrap between the last event at or before a time and that time. -/
def EndNotWrapped (e : Extraction) (tMs : U32) : Prop :=
  ∀ k, (e.eventsUpTo tMs).getLast? = some k → k.tMs ≤ tMs

/-- What a published record promises about its events. -/
structure WellFormed (e : Extraction) : Prop where
  first : e.events.items.head? = some { tMs := e.beginMs, kind := .begin }
  last : e.events.items.getLast? = some { tMs := e.endMs, kind := .end_ }
  one_begin : e.events.items.countP (fun event => event.kind = .begin) = 1
  one_end : e.events.items.countP (fun event => event.kind = .end_) = 1
  sorted : SortedBy (Event.offset e.beginMs) e.events.items
  bounded : ∀ event ∈ e.events.items, event.offset e.beginMs ≤ Clock.since e.beginMs e.endMs
  count_le : e.events.count ≤ 64
  stable_iff : (∃ event ∈ e.events.items, event.kind = .stableDetected) ↔ e.endCause = .stable

end Extraction

/-! ## Events in flight -/

/-- A kind that the recorder appends between `BEGIN` and the finalize events. -/
def EventKind.Inner (k : EventKind) : Prop := k ≠ .begin ∧ k ≠ .end_ ∧ k ≠ .stableDetected

/-- The events of a shot in flight, `elapsed` milliseconds after its beginning. -/
structure InFlightLog (beginMs : U32) (events : Buffer Event MAX_EVENTS) (elapsed : ℕ) : Prop where
  begins : ∃ rest, events.items = { tMs := beginMs, kind := .begin } :: rest ∧
    ∀ event ∈ rest, event.kind.Inner
  sorted : SortedBy (Event.offset beginMs) events.items
  bounded : ∀ event ∈ events.items, event.offset beginMs ≤ elapsed
  reserve : events.count ≤ MAX_NONFINALIZE_EVENTS

namespace InFlightLog

variable {beginMs : U32} {events : Buffer Event MAX_EVENTS} {elapsed later : ℕ}

theorem mono (h : InFlightLog beginMs events elapsed) (hle : elapsed ≤ later) :
    InFlightLog beginMs events later :=
  ⟨h.begins, h.sorted, fun event he => le_trans (h.bounded event he) hle, h.reserve⟩

/-- `BEGIN` opens the log of a fresh record. -/
theorem begins_empty (beginMs : U32) :
    InFlightLog beginMs (storedEvents .empty { tMs := beginMs, kind := .begin }) 0 := by
  have hitems : (storedEvents .empty { tMs := beginMs, kind := .begin }).items =
      [{ tMs := beginMs, kind := .begin }] := by
    unfold storedEvents
    rw [if_neg (by decide), Buffer.items_push_of_lt (by decide)]
    rfl
  refine ⟨⟨[], hitems, by simp⟩, ?_, ?_, ?_⟩
  · unfold SortedBy; rw [hitems]; exact List.pairwise_singleton _ _
  · intro event he
    rw [hitems, List.mem_singleton] at he
    rw [he]; unfold Event.offset; rw [Clock.since_self]
  · unfold Buffer.count
    rw [hitems, List.length_singleton]
    decide

/-- An event outside the reserved slots keeps the log, whether there is room for it or not. -/
theorem stored {event : Event} (h : InFlightLog beginMs events elapsed)
    (hle : elapsed ≤ later) (hoff : event.offset beginMs = later) (hk : event.kind.Inner) :
    InFlightLog beginMs (storedEvents events event) later := by
  unfold storedEvents
  by_cases hfull : MAX_NONFINALIZE_EVENTS ≤ events.count
  · rw [if_pos hfull]; exact h.mono hle
  · rw [if_neg hfull]
    have hlt : events.count < MAX_NONFINALIZE_EVENTS := not_le.1 hfull
    have hitems : (events.push event).items = events.items ++ [event] :=
      Buffer.items_push_of_lt (lt_trans hlt (by decide)) event
    obtain ⟨rest, hrest, hinner⟩ := h.begins
    refine ⟨⟨rest ++ [event], ?_, ?_⟩, ?_, ?_, ?_⟩
    · rw [hitems, hrest, List.cons_append]
    · intro ev hev
      rcases List.mem_append.1 hev with hev | hev
      · exact hinner ev hev
      · rw [List.mem_singleton.1 hev]; exact hk
    · rw [hitems]
      exact h.sorted.append_last fun ev hev => hoff ▸ le_trans (h.bounded ev hev) hle
    · intro ev hev
      rw [hitems] at hev
      rcases List.mem_append.1 hev with hev | hev
      · exact le_trans (h.bounded ev hev) hle
      · rw [List.mem_singleton.1 hev, hoff]
    · unfold Buffer.count at hlt ⊢
      rw [hitems, List.length_append, List.length_singleton]
      exact hlt

end InFlightLog

/-! ## Closing a record -/

/-- The end stamp is never before the last event. -/
theorem since_ensureMonotonicTimestamp {b ts last : U32} (hl : Clock.since b last < 2 ^ 31)
    (ht : Clock.since b ts < 2 ^ 31) :
    Clock.since b last ≤ Clock.since b (ensureMonotonicTimestamp ts last) := by
  unfold Clock.since at *
  unfold ensureMonotonicTimestamp
  by_cases h : (ts - last).toInt ≤ 0
  · rw [if_pos h]
    by_cases h0 : last + 1 = 0
    · simp only [if_pos h0]; bv_omega
    · simp only [if_neg h0]; bv_omega
  · rw [if_neg h]
    have hpos := (Clock.toInt_pos_iff (w := 31)).1 (not_le.1 h)
    by_cases h0 : ts = 0
    · simp only [if_pos h0]; bv_omega
    · simp only [if_neg h0]; bv_omega

/-- The record without the yield block. -/
def Extraction.unsettled (e : Extraction) : Extraction :=
  { e with pourMs := 0, decisionGainCg := 0, yieldStatus := .none, startRawCg := NO_WEIGHT,
           settledRawCg := NO_WEIGHT, yieldCg := NO_WEIGHT }

/-- Settling the yield leaves the rest of the record alone. -/
theorem unsettled_settleYield (e : Extraction) (lastRawCg : I16) :
    (settleYield e lastRawCg).unsettled = e.unsettled := by
  unfold settleYield
  dsimp only
  exact iteInduction (motive := fun f : Extraction => f.unsettled = e.unsettled) (fun _ => rfl)
    (fun _ => rfl)

/-- A field that settling the yield keeps. -/
theorem settleYield_field {β : Type} (f : Extraction → β) (hf : ∀ e, f e.unsettled = f e)
    (e : Extraction) (lastRawCg : I16) : f (settleYield e lastRawCg) = f e := by
  rw [← hf (settleYield e lastRawCg), unsettled_settleYield, hf e]

@[simp] theorem settleYield_events (e : Extraction) (lastRawCg : I16) :
    (settleYield e lastRawCg).events = e.events :=
  settleYield_field Extraction.events (fun _ => rfl) e lastRawCg

@[simp] theorem settleYield_beginMs (e : Extraction) (lastRawCg : I16) :
    (settleYield e lastRawCg).beginMs = e.beginMs :=
  settleYield_field Extraction.beginMs (fun _ => rfl) e lastRawCg

@[simp] theorem settleYield_intendedEndMs (e : Extraction) (lastRawCg : I16) (nowMs : U32)
    (cause : EndCause) :
    intendedEndMs (settleYield e lastRawCg) nowMs cause = intendedEndMs e nowMs cause :=
  settleYield_field (fun e => intendedEndMs e nowMs cause) (fun _ => rfl) e lastRawCg

/-- What is left of the events after the trim. -/
def keptEvents (e : Extraction) (nowMs : U32) (cause : EndCause) : List Event :=
  (trimEvents e (intendedEndMs e nowMs cause)).events.items

theorem keptEvents_eq (e : Extraction) (nowMs : U32) (cause : EndCause) :
    keptEvents e nowMs cause =
      e.events.items.rdropWhile fun event => intendedEndMs e nowMs cause < event.tMs := rfl

theorem keptEvents_prefix (e : Extraction) (nowMs : U32) (cause : EndCause) :
    keptEvents e nowMs cause <+: e.events.items := List.rdropWhile_prefix _ _

/-- `END` follows the kept events. -/
theorem closeRecord_items {e : Extraction} {nowMs : U32} {cause : EndCause}
    (h : (keptEvents e nowMs cause).length < MAX_EVENTS) :
    (closeRecord e nowMs cause).events.items =
      keptEvents e nowMs cause ++
        [{ tMs := (closeRecord e nowMs cause).endMs, kind := .end_ }] :=
  Buffer.items_push_of_lt h _

theorem closeRecord_endMs {e : Extraction} {nowMs : U32} {cause : EndCause} {last : Event}
    (h : (keptEvents e nowMs cause).getLast? = some last) :
    (closeRecord e nowMs cause).endMs =
      ensureMonotonicTimestamp (intendedEndMs e nowMs cause) last.tMs := by
  unfold keptEvents at h
  unfold closeRecord appendFinalizeEvent
  simp only [h]

@[simp] theorem closeRecord_beginMs (e : Extraction) (nowMs : U32) (cause : EndCause) :
    (closeRecord e nowMs cause).beginMs = e.beginMs := rfl

@[simp] theorem closeRecord_endCause (e : Extraction) (nowMs : U32) (cause : EndCause) :
    (closeRecord e nowMs cause).endCause = cause := rfl

/-- A record whose kept events still start with `BEGIN` closes into a well-formed one. -/
theorem wellFormed_closeRecord {e : Extraction} {nowMs : U32} {cause : EndCause}
    (rest : List Event)
    (hkept : keptEvents e nowMs cause = { tMs := e.beginMs, kind := .begin } :: rest)
    (hrest : ∀ event ∈ rest, event.kind ≠ .begin ∧ event.kind ≠ .end_)
    (hsorted : SortedBy (Event.offset e.beginMs) (keptEvents e nowMs cause))
    (hshort : ∀ event ∈ keptEvents e nowMs cause, event.offset e.beginMs < 2 ^ 31)
    (hend : Clock.since e.beginMs (intendedEndMs e nowMs cause) < 2 ^ 31)
    (hfits : (keptEvents e nowMs cause).length < MAX_EVENTS)
    (hstable : (∃ event ∈ rest, event.kind = .stableDetected) ↔ cause = .stable) :
    (closeRecord e nowMs cause).WellFormed := by
  have hitems := closeRecord_items hfits
  -- the end comes after the last kept event, and so after all of them
  have hbound : ∀ event ∈ keptEvents e nowMs cause, event.offset e.beginMs ≤
      Clock.since e.beginMs (closeRecord e nowMs cause).endMs := by
    obtain ⟨front, last, hsplit⟩ : ∃ front last, keptEvents e nowMs cause = front ++ [last] := by
      rw [hkept]
      exact ⟨_, _, (List.dropLast_append_getLast (List.cons_ne_nil _ _)).symm⟩
    have hlast : (keptEvents e nowMs cause).getLast? = some last := by simp [hsplit]
    have hmem : last ∈ keptEvents e nowMs cause := by simp [hsplit]
    have hle := since_ensureMonotonicTimestamp (hshort last hmem) hend
    rw [← closeRecord_endMs hlast] at hle
    intro event hev
    refine le_trans ?_ hle
    rw [hsplit] at hev hsorted
    rcases List.mem_append.1 hev with hev | hev
    · exact (List.pairwise_append.1 hsorted).2.2 event hev last (by simp)
    · rw [List.mem_singleton.1 hev]; exact le_rfl
  have hbegin : rest.countP (fun event => event.kind = .begin) = 0 := by
    rw [List.countP_eq_zero]
    intro event hev
    simpa using (hrest event hev).1
  have hendc : rest.countP (fun event => event.kind = .end_) = 0 := by
    rw [List.countP_eq_zero]
    intro event hev
    simpa using (hrest event hev).2
  constructor
  · rw [hitems, hkept]; rfl
  · rw [hitems, List.getLast?_concat]
  · rw [hitems, hkept, List.countP_append, List.countP_cons, hbegin]; rfl
  · rw [hitems, hkept, List.countP_append, List.countP_cons, hendc]; rfl
  · rw [hitems]
    exact hsorted.append_last hbound
  · intro event hev
    rw [hitems] at hev
    rcases List.mem_append.1 hev with hev | hev
    · exact hbound event hev
    · rw [List.mem_singleton.1 hev]; exact le_rfl
  · exact (closeRecord e nowMs cause).events.fits
  · rw [hitems, hkept, closeRecord_endCause, ← hstable]
    simp

theorem Extraction.WellFormed.withPhase {e : Extraction} (h : e.WellFormed) (p : Phase) :
    ({ e with phase := p } : Extraction).WellFormed :=
  ⟨h.first, h.last, h.one_begin, h.one_end, h.sorted, h.bounded, h.count_le, h.stable_iff⟩

/-! ## Finalizing a shot -/

/-- `closeRecord` sees the events and the times that the shot had in flight. -/
theorem keptEvents_settleYield (e : Extraction) (lastRawCg : I16) (nowMs : U32)
    (cause : EndCause) : keptEvents (settleYield e lastRawCg) nowMs cause = keptEvents e nowMs cause := by
  rw [keptEvents_eq, keptEvents_eq, settleYield_events, settleYield_intendedEndMs]

namespace Recorder

section Finalize

variable {r : Recorder} {nowMs : U32} {elapsed : ℕ}

theorem since_intendedEndMs (hnow : Clock.since r.current.beginMs nowMs = elapsed)
    (hoff : Clock.since r.current.beginMs r.current.lastPumpOffConfirmedMs ≤ elapsed)
    (cause : EndCause) :
    Clock.since r.current.beginMs (intendedEndMs r.current nowMs cause) ≤ elapsed := by
  unfold intendedEndMs
  split_ifs
  · exact hoff
  · exact hnow.le

/-- A stable shot keeps all its events, and `STABLE_DETECTED` and `END` follow them. -/
theorem finished_stable (hlog : InFlightLog r.current.beginMs r.current.events elapsed)
    (hshort : elapsed < 2 ^ 31) (hnow : Clock.since r.current.beginMs nowMs = elapsed) :
    (r.finished nowMs .stable).WellFormed ∧
      r.current.events.items <+: (r.finished nowMs .stable).events.items := by
  let e : Extraction :=
    { appendFinalizeEvent r.current nowMs .stableDetected with stableMs := nowMs }
  have hfin : r.finished nowMs .stable =
      { closeRecord (settleYield e r.lastRawCg) nowMs .stable with phase := .done } := rfl
  have hcount : r.current.events.count ≤ 62 := hlog.reserve
  have hitems : e.events.items =
      r.current.events.items ++ [{ tMs := nowMs, kind := .stableDetected }] :=
    Buffer.items_push_of_lt (lt_of_le_of_lt hcount (by decide)) _
  have hkept : keptEvents (settleYield e r.lastRawCg) nowMs .stable = e.events.items := by
    rw [keptEvents_settleYield, keptEvents_eq, hitems]
    apply List.rdropWhile_concat_neg
    show ¬ decide (nowMs < nowMs) = true
    simp
  have hlen : (keptEvents (settleYield e r.lastRawCg) nowMs .stable).length < MAX_EVENTS := by
    rw [hkept, hitems, List.length_append, List.length_singleton]
    exact lt_of_le_of_lt (Nat.succ_le_succ hcount) (by decide)
  have hbegin : (settleYield e r.lastRawCg).beginMs = r.current.beginMs := by
    rw [settleYield_beginMs]; rfl
  obtain ⟨rest, hrest, hinner⟩ := hlog.begins
  rw [hfin]
  constructor
  · refine (wellFormed_closeRecord (rest ++ [{ tMs := nowMs, kind := .stableDetected }]) ?_ ?_ ?_ ?_ ?_ hlen ?_).withPhase
      .done
    · rw [hkept, hitems, hrest, hbegin, List.cons_append]
    · intro event hev
      rcases List.mem_append.1 hev with hev | hev
      · exact ⟨(hinner event hev).1, (hinner event hev).2.1⟩
      · rw [List.mem_singleton.1 hev]
        exact ⟨EventKind.noConfusion, EventKind.noConfusion⟩
    · rw [hkept, hitems, hbegin]
      refine hlog.sorted.append_last fun event hev => le_trans (hlog.bounded event hev) ?_
      exact hnow.ge
    · intro event hev
      rw [hkept, hitems] at hev
      rw [hbegin]
      rcases List.mem_append.1 hev with hev | hev
      · exact lt_of_le_of_lt (hlog.bounded event hev) hshort
      · rw [List.mem_singleton.1 hev]
        exact lt_of_le_of_lt hnow.le hshort
    · rw [hbegin, settleYield_intendedEndMs]
      exact lt_of_le_of_lt hnow.le hshort
    · simp
  · show r.current.events.items <+: (closeRecord _ nowMs .stable).events.items
    rw [closeRecord_items hlen, hkept, hitems, List.append_assoc]
    exact List.prefix_append _ _

/-- A timed-out shot closes well, with all its events up to the intended end, exactly if the counter
does not wrap between the last of them and that end. -/
theorem finished_timeout_iff (hlog : InFlightLog r.current.beginMs r.current.events elapsed)
    (hshort : elapsed < 2 ^ 31) (hnow : Clock.since r.current.beginMs nowMs = elapsed)
    (hoff : Clock.since r.current.beginMs r.current.lastPumpOffConfirmedMs ≤ elapsed) :
    (r.finished nowMs .timeout).WellFormed ∧
        r.current.eventsUpTo (intendedEndMs r.current nowMs .timeout) <+:
          (r.finished nowMs .timeout).events.items ↔
      r.current.EndNotWrapped (intendedEndMs r.current nowMs .timeout) := by
  have hfin : r.finished nowMs .timeout =
      { closeRecord (settleYield r.current r.lastRawCg) nowMs .timeout with phase := .done } := rfl
  have hkept := keptEvents_settleYield r.current r.lastRawCg nowMs .timeout
  have hpre := keptEvents_prefix r.current nowMs .timeout
  have hlen : (keptEvents (settleYield r.current r.lastRawCg) nowMs .timeout).length <
      MAX_EVENTS := by
    rw [hkept]
    exact lt_of_le_of_lt (le_trans hpre.length_le hlog.reserve) (by decide)
  have hpub : (r.finished nowMs .timeout).events.items =
      keptEvents r.current nowMs .timeout ++
        [{ tMs := (r.finished nowMs .timeout).endMs, kind := .end_ }] := by
    have hevents : (r.finished nowMs .timeout).events =
        (closeRecord (settleYield r.current r.lastRawCg) nowMs .timeout).events := rfl
    have hendMs : (r.finished nowMs .timeout).endMs =
        (closeRecord (settleYield r.current r.lastRawCg) nowMs .timeout).endMs := rfl
    rw [hevents, hendMs, closeRecord_items hlen, hkept]
  have hend := since_intendedEndMs hnow hoff .timeout
  obtain ⟨rest, hrest, hinner⟩ := hlog.begins
  have hne_end : ∀ event ∈ r.current.events.items, event.kind ≠ .end_ := by
    intro event hev
    rw [hrest] at hev
    rcases List.mem_cons.1 hev with rfl | hev
    · exact EventKind.noConfusion
    · exact (hinner event hev).2.1
  constructor
  · rintro ⟨-, hprefix⟩ k hk
    by_contra hwrap
    have hmem := mem_upTo.1 (List.mem_of_getLast? hk)
    -- every later event reads above the intended end as well, so the trim goes past `k`
    have hlost := hlog.sorted.length_rdropWhile_lt hk
      (p := fun event => intendedEndMs r.current nowMs .timeout < event.tMs)
      (by simpa using hwrap) fun event hev => by
        have hlt := (mem_later.1 hev).2
        simpa using Clock.lt_of_wrapped hmem.2 hlt (BitVec.not_le.1 hwrap)
    rw [← keptEvents_eq] at hlost
    rw [hpub] at hprefix
    have heq := hprefix.eq_of_length (by
      have := hprefix.length_le
      rw [List.length_append, List.length_singleton] at this ⊢
      unfold Extraction.eventsUpTo at this ⊢
      omega)
    rw [heq, List.getLast?_concat] at hk
    exact hne_end k hmem.1 (by cases hk; rfl)
  · intro hnw
    have hbegin : ({ tMs := r.current.beginMs, kind := .begin } : Event) ∈
        r.current.eventsUpTo (intendedEndMs r.current nowMs .timeout) := by
      refine mem_upTo.2 ⟨by rw [hrest]; exact List.mem_cons_self, ?_⟩
      unfold Event.offset
      rw [Clock.since_self]
      exact Nat.zero_le _
    obtain ⟨k, hk⟩ : ∃ k,
        (r.current.eventsUpTo (intendedEndMs r.current nowMs .timeout)).getLast? = some k :=
      ⟨_, List.getLast?_eq_some_getLast (List.ne_nil_of_mem hbegin)⟩
    have hup : r.current.eventsUpTo (intendedEndMs r.current nowMs .timeout) <+:
        keptEvents r.current nowMs .timeout := by
      rw [keptEvents_eq]
      exact hlog.sorted.upTo_prefix_rdropWhile hk (by simpa using hnw k hk)
    refine ⟨?_, hup.trans (hpub ▸ List.prefix_append _ _)⟩
    obtain ⟨t, ht, htrest⟩ : ∃ t, keptEvents r.current nowMs .timeout =
        { tMs := r.current.beginMs, kind := .begin } :: t ∧ t <+: rest := by
      rw [hrest] at hpre
      rcases List.prefix_cons_iff.1 hpre with hnil | h
      · rw [hnil] at hup
        have hmem := hup.subset hbegin
        exact absurd hmem List.not_mem_nil
      · exact h
    rw [hfin]
    refine (wellFormed_closeRecord t ?_ ?_ ?_ ?_ ?_ hlen ?_).withPhase .done
    · rw [hkept, ht, settleYield_beginMs]
    · intro event hev
      have h := hinner event (htrest.subset hev)
      exact ⟨h.1, h.2.1⟩
    · rw [hkept, settleYield_beginMs]
      exact hlog.sorted.sublist hpre.sublist
    · intro event hev
      rw [hkept] at hev
      rw [settleYield_beginMs]
      exact lt_of_le_of_lt (hlog.bounded event (hpre.subset hev)) hshort
    · rw [settleYield_beginMs, settleYield_intendedEndMs]
      exact lt_of_le_of_lt hend hshort
    · constructor
      · rintro ⟨event, hev, hkind⟩
        exact absurd hkind (hinner event (htrest.subset hev)).2.2
      · intro h
        exact absurd h (by decide)

end Finalize

end Recorder

end Pumpbug
