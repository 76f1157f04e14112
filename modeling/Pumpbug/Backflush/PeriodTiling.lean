import Pumpbug.Backflush.BackflushCycle
import Pumpbug.Lib.Run
import Pumpbug.Lib.Clock
import Pumpbug.Lib.Entries
import Mathlib.Data.Nat.Find

/-!
# The periods tile time

Runs of the backflush cycle against a clock that counts true milliseconds, of which the cycle reads
the remainder modulo `2 ^ 32`.  Each period ends at the first report of the change that was
confirmed later, so its boundary lies in the past when it is drawn.
-/

namespace Pumpbug

open Lib

/-- The pump state reported at a true time. -/
structure PumpReport where
  timeMs : ℕ
  pumpDetected : Bool
  deriving DecidableEq

namespace BackflushCycle

/-! ## Runs in true time -/

/-- The cycle, with the true times of its boundaries and of the first report of a pending change. -/
structure Timed where
  cycle : BackflushCycle := {}
  bounds : List ℕ := []
  changeMs : ℕ := 0
  deriving DecidableEq

def Timed.step (x : Timed) (r : PumpReport) : Timed :=
  let u := x.cycle.update (Clock.reading 32 r.timeMs) r.pumpDetected
  let changeMs := if x.cycle.pumpChangePending then x.changeMs else r.timeMs
  { cycle := u.1
    bounds := if u.2 then x.bounds ++ [changeMs] else x.bounds
    changeMs := changeMs }

def timed (h : List PumpReport) : Timed := exec Timed.step {} h

/-- The pump state of a period that runs. -/
def Phase.runs : Phase → Option Bool
  | .pumpOn => some true
  | .pumpOff => some false
  | .waitingForPump | .complete => none

/-- The phase behind `n` boundaries. -/
def phaseAfter (n : ℕ) : Phase :=
  if n = 0 then .waitingForPump
  else if n = 10 then .complete
  else if n % 2 = 1 then .pumpOn else .pumpOff

/-- How long a change that begins at `b'` has to last in a period that began at `b`. -/
def confirmTime (b b' : ℕ) : ℕ := if b + 10000 ≤ b' then 1500 else 5000

/-- The reports end with a change from `on` at `b'`, which has lasted since. -/
def Changed (h : List PumpReport) (on : Bool) (b' : ℕ) : Prop :=
  ∃ pre before first rest, h = pre ++ before :: first :: rest ∧ before.pumpDetected = on ∧
    first.timeMs = b' ∧ ∀ r ∈ first :: rest, r.pumpDetected = !on

/-- The period with the pump at `on` from `b` ends at `b'`: there the reports change, and the new
state lasts long enough. -/
def Confirmed (h : List PumpReport) (on : Bool) (b b' : ℕ) : Prop :=
  ∃ seen post, h = seen ++ post ∧ Changed seen on b' ∧
    ∃ r ∈ seen.getLast?, b' + confirmTime b b' ≤ r.timeMs

/-! ## What the cycle records -/

/-- The cycle has recorded the periods between the boundaries. -/
structure Recorded (c : BackflushCycle) (bounds : List ℕ) : Prop where
  few : bounds.length ≤ 10
  phase : c.phase = phaseAfter bounds.length
  index : c.cycleIndex = (bounds.length - 1) / 2
  sizes : c.results.onMs.length = CYCLE_COUNT ∧ c.results.offMs.length = CYCLE_COUNT
  started : ∀ b ∈ bounds.getLast?, c.phaseStartedMs = Clock.reading 32 b
  on : ∀ k, 2 * k + 1 < bounds.length →
    (c.results.onMs.getD k 0).toNat = bounds.getD (2 * k + 1) 0 - bounds.getD (2 * k) 0
  off : ∀ k, 2 * k + 2 < bounds.length →
    (c.results.offMs.getD k 0).toNat = bounds.getD (2 * k + 2) 0 - bounds.getD (2 * k + 1) 0

section

variable {c : BackflushCycle} {bounds : List ℕ}

theorem phaseAfter_runs {n : ℕ} {on : Bool} (hn : n ≤ 10) (h : (phaseAfter n).runs = some on) :
    0 < n ∧ n < 10 ∧ on = decide (n % 2 = 1) := by
  unfold phaseAfter at h
  split_ifs at h with h₀ h₁ h₂
  · exact absurd h nofun
  · exact absurd h nofun
  · exact ⟨by omega, by omega, by rw [decide_eq_true h₂]; exact (Option.some.inj h).symm⟩
  · exact ⟨by omega, by omega, by rw [decide_eq_false h₂]; exact (Option.some.inj h).symm⟩

/-- The distance between two readings less than a turn apart. -/
theorem reading_dist {b b' : ℕ} (h : b ≤ b') (hw : b' - b < 2 ^ 31) :
    (Clock.reading 32 b' - Clock.reading 32 b).toNat = b' - b :=
  Clock.since_reading h (hw.trans (by decide))

/-- The pump's first report begins the first period. -/
theorem recorded_begin (hc : c.Recorded []) (t : ℕ) :
    (c.beginPhase .pumpOn (Clock.reading 32 t)).Recorded [t] where
  few := by simp
  phase := rfl
  index := hc.index
  sizes := hc.sizes
  started b hb := by
    rw [Option.mem_def, List.getLast?_singleton] at hb
    rw [← Option.some.inj hb]
    rfl
  on k hk := absurd hk (by simp)
  off k hk := absurd hk (by simp)

/-- How many boundaries there are while a period runs. -/
theorem Recorded.length (hc : c.Recorded bounds) {on : Bool} (hp : c.phase.runs = some on) :
    c.cycleIndex < CYCLE_COUNT ∧
      bounds.length = if on then 2 * c.cycleIndex + 1 else 2 * c.cycleIndex + 2 := by
  rw [hc.phase] at hp
  obtain ⟨hpos, hlt, hon⟩ := phaseAfter_runs hc.few hp
  have hindex := hc.index
  have hfive : CYCLE_COUNT = 5 := rfl
  cases on with
  | true =>
    have hodd := of_decide_eq_true hon.symm
    rw [if_pos rfl]
    omega
  | false =>
    have heven := of_decide_eq_false hon.symm
    rw [if_neg Bool.false_ne_true]
    omega

theorem endPumpOn_fields (c : BackflushCycle) :
    c.endPumpOn.phase = (if c.cycleIndex + 1 = CYCLE_COUNT then .complete else .pumpOff) ∧
      c.endPumpOn.cycleIndex = c.cycleIndex ∧
      c.endPumpOn.phaseStartedMs = c.pumpChangeStartedMs ∧ c.endPumpOn.pumpChangePending = false ∧
      c.endPumpOn.results.offMs = c.results.offMs ∧
      c.endPumpOn.results.onMs =
        c.results.onMs.set c.cycleIndex (c.pumpChangeStartedMs - c.phaseStartedMs) := by
  unfold endPumpOn
  split_ifs <;> exact ⟨rfl, rfl, rfl, rfl, rfl, rfl⟩

/-- The end of a period with the pump on. -/
theorem recorded_endPumpOn (hc : c.Recorded bounds) (hp : c.phase = .pumpOn) {b t : ℕ}
    (hb : b ∈ bounds.getLast?) (hbt : b ≤ t) (hshort : t - b < 2 ^ 31)
    (hchange : c.pumpChangeStartedMs = Clock.reading 32 t) :
    c.endPumpOn.Recorded (bounds ++ [t]) := by
  have hfive : CYCLE_COUNT = 5 := rfl
  have hruns : c.phase.runs = some true := by rw [hp]; rfl
  obtain ⟨hci, hlen⟩ := hc.length hruns
  rw [if_pos rfl] at hlen
  obtain ⟨hphase, hindex, hstarted, -, hoffs, hons⟩ := c.endPumpOn_fields
  have hlength : (bounds ++ [t]).length = 2 * c.cycleIndex + 2 := by
    rw [List.length_append, List.length_singleton, hlen]
  have hlast := getD_getLast 0 hb
  rw [hlen, Nat.add_sub_cancel] at hlast
  constructor
  · omega
  · rw [hphase, hlength]
    unfold phaseAfter
    split_ifs <;> first | rfl | omega
  · rw [hindex, hlength]
    omega
  · rw [hons, hoffs, List.length_set]
    exact hc.sizes
  · intro b' hb'
    rw [List.getLast?_concat] at hb'
    rw [hstarted, hchange, Option.some.inj hb']
  · intro k hk
    have hodd : 2 * k + 1 < (bounds ++ [t]).length := hk
    rw [hlength] at hodd
    rw [hons, getD_set 0 _ (by rw [hc.sizes.1]; exact hci), getD_concat, getD_concat, hlen]
    by_cases hnow : k = c.cycleIndex
    · have hdist : (c.pumpChangeStartedMs - c.phaseStartedMs).toNat = t - b := by
        rw [hchange, hc.started b hb]
        exact reading_dist hbt hshort
      rw [if_pos hnow, hdist, hnow, if_neg (by omega), if_pos rfl, if_pos (by omega), hlast]
    · rw [if_neg hnow, if_pos (by omega), if_pos (by omega)]
      exact hc.on k (by omega)
  · intro k hk
    have heven : 2 * k + 2 < (bounds ++ [t]).length := hk
    rw [hlength] at heven
    rw [hoffs, getD_concat, getD_concat, hlen, if_pos (by omega), if_pos (by omega)]
    exact hc.off k (by omega)

/-- The end of a rest. -/
theorem recorded_endPumpOff (hc : c.Recorded bounds) (hp : c.phase = .pumpOff) {b t : ℕ}
    (hb : b ∈ bounds.getLast?) (hbt : b ≤ t) (hshort : t - b < 2 ^ 31)
    (hchange : c.pumpChangeStartedMs = Clock.reading 32 t) :
    c.endPumpOff.Recorded (bounds ++ [t]) := by
  have hfive : CYCLE_COUNT = 5 := rfl
  have hruns : c.phase.runs = some false := by rw [hp]; rfl
  obtain ⟨hci, hlen⟩ := hc.length hruns
  rw [if_neg Bool.false_ne_true] at hlen
  have hnotLast : bounds.length ≠ 10 := by
    intro hten
    have hphase := hc.phase
    rw [hp, hten] at hphase
    exact absurd hphase (by decide)
  have hlength : (bounds ++ [t]).length = 2 * c.cycleIndex + 3 := by
    rw [List.length_append, List.length_singleton, hlen]
  have hlast := getD_getLast 0 hb
  rw [hlen, Nat.add_sub_assoc (by decide)] at hlast
  constructor
  · omega
  · show Phase.pumpOn = _
    rw [hlength]
    unfold phaseAfter
    split_ifs <;> first | rfl | omega
  · show c.cycleIndex + 1 = _
    rw [hlength]
    omega
  · exact ⟨hc.sizes.1, (List.length_set ..).trans hc.sizes.2⟩
  · intro b' hb'
    rw [List.getLast?_concat] at hb'
    show c.pumpChangeStartedMs = _
    rw [hchange, Option.some.inj hb']
  · intro k hk
    have hodd : 2 * k + 1 < (bounds ++ [t]).length := hk
    rw [hlength] at hodd
    rw [getD_concat, getD_concat, hlen, if_pos (by omega), if_pos (by omega)]
    exact hc.on k (by omega)
  · intro k hk
    have heven : 2 * k + 2 < (bounds ++ [t]).length := hk
    rw [hlength] at heven
    show ((c.results.offMs.set c.cycleIndex (c.pumpChangeStartedMs - c.phaseStartedMs)).getD k 0).toNat
      = _
    rw [getD_set 0 _ (by rw [hc.sizes.2]; exact hci), getD_concat, getD_concat, hlen]
    by_cases hnow : k = c.cycleIndex
    · have hdist : (c.pumpChangeStartedMs - c.phaseStartedMs).toNat = t - b := by
        rw [hchange, hc.started b hb]
        exact reading_dist hbt hshort
      rw [if_pos hnow, hdist, hnow, if_neg (by omega), if_pos rfl, if_pos (by omega), hlast]
    · rw [if_neg hnow, if_pos (by omega), if_pos (by omega)]
      exact hc.off k (by omega)

end

/-! ## A change that lasts -/

section

variable {h : List PumpReport} {r : PumpReport} {on : Bool} {b b' : ℕ}

/-- A report of the other state begins a change. -/
theorem changed_begin {last : PumpReport} (hlast : last ∈ h.getLast?) (hon : last.pumpDetected = on)
    (hr : r.pumpDetected = !on) : Changed (h ++ [r]) on r.timeMs := by
  refine ⟨h.dropLast, last, r, [], ?_, hon, rfl, ?_⟩
  · rw [← List.dropLast_append_getLast? last hlast, List.append_assoc, List.dropLast_concat]
    rfl
  · intro r' hr'
    rw [List.mem_singleton.1 hr', hr]

theorem Changed.concat (hc : Changed h on b') (hr : r.pumpDetected = !on) :
    Changed (h ++ [r]) on b' := by
  obtain ⟨pre, before, first, rest, rfl, hbefore, hfirst, hrest⟩ := hc
  refine ⟨pre, before, first, rest ++ [r], by simp, hbefore, hfirst, ?_⟩
  intro r' hr'
  rw [← List.cons_append, List.mem_append, List.mem_singleton] at hr'
  rcases hr' with hr' | rfl
  · exact hrest r' hr'
  · exact hr

/-- A change has begun by its last report. -/
theorem Changed.le_last (hc : Changed h on b') (hord : h.Pairwise fun r r' => r.timeMs ≤ r'.timeMs)
    {last : PumpReport} (hlast : last ∈ h.getLast?) : b' ≤ last.timeMs := by
  obtain ⟨pre, before, first, rest, rfl, -, rfl, -⟩ := hc
  rw [Option.mem_def, List.getLast?_append, List.getLast?_cons_cons] at hlast
  have hrest := (List.pairwise_cons.1 (List.pairwise_append.1 hord).2.1).2
  cases rest with
  | nil =>
    rw [List.getLast?_singleton, Option.some_or] at hlast
    rw [Option.some.inj hlast]
  | cons r rest =>
    rw [List.getLast?_cons_cons, List.getLast?_eq_some_getLast (List.cons_ne_nil r rest),
      Option.some_or] at hlast
    rw [← Option.some.inj hlast]
    exact (List.pairwise_cons.1 hrest).1 _ (List.getLast_mem _)

theorem Confirmed.append (hc : Confirmed h on b b') (more : List PumpReport) :
    Confirmed (h ++ more) on b b' := by
  obtain ⟨seen, post, rfl, hchange⟩ := hc
  exact ⟨seen, post ++ more, List.append_assoc .., hchange⟩

end

/-! ## One report -/

section

variable {c : BackflushCycle} {on : Bool}

theorem update_waiting (hp : c.phase = .waitingForPump) (t : U32) (on : Bool) :
    c.update t on = if !on then (c, false) else (c.beginPhase .pumpOn t, true) := by
  unfold update
  rw [hp]

theorem update_complete (hp : c.phase = .complete) (t : U32) (on : Bool) :
    c.update t on = (c, false) := by
  unfold update
  rw [hp]

/-- The end of the running period. -/
def endPhase (c : BackflushCycle) (on : Bool) : BackflushCycle :=
  if on then c.endPumpOn else c.endPumpOff

/-- A report that the pump goes on as it is. -/
theorem update_same (hp : c.phase.runs = some on) (t : U32) :
    c.update t on = (c.clearPumpChange, false) := by
  unfold update
  cases hphase : c.phase with
  | waitingForPump => rw [hphase] at hp; exact absurd hp nofun
  | complete => rw [hphase] at hp; exact absurd hp nofun
  | pumpOn =>
    rw [hphase] at hp
    rw [← Option.some.inj hp]
    rfl
  | pumpOff =>
    rw [hphase] at hp
    rw [← Option.some.inj hp]
    rfl

/-- A report that the pump has changed. -/
theorem update_other (hp : c.phase.runs = some on) (t : U32) :
    c.update t (!on) =
      if !(c.rememberPumpChange t).shouldApplyPumpChange t then (c.rememberPumpChange t, false)
      else ((c.rememberPumpChange t).endPhase on, true) := by
  unfold update endPhase
  cases hphase : c.phase with
  | waitingForPump => rw [hphase] at hp; exact absurd hp nofun
  | complete => rw [hphase] at hp; exact absurd hp nofun
  | pumpOn =>
    rw [hphase] at hp
    rw [← Option.some.inj hp]
    rfl
  | pumpOff =>
    rw [hphase] at hp
    rw [← Option.some.inj hp]
    rfl

/-- Whether a change is confirmed, in true time. -/
theorem shouldApplyPumpChange_iff {b t now : ℕ} (hpend : c.pumpChangePending = true)
    (hstarted : c.phaseStartedMs = Clock.reading 32 b)
    (hchange : c.pumpChangeStartedMs = Clock.reading 32 t) (hbt : b ≤ t) (htn : t ≤ now)
    (hshort : now - b < 2 ^ 31) :
    c.shouldApplyPumpChange (Clock.reading 32 now) = true ↔ t + confirmTime b t ≤ now := by
  have hphase := reading_dist hbt (by omega)
  have hsince := reading_dist htn (by omega)
  have hpending : ¬ (!c.pumpChangePending) = true := by simp [hpend]
  have htarget : PHASE_TARGET_MS ≤ Clock.reading 32 t - Clock.reading 32 b ↔ 10000 ≤ t - b := by
    rw [BitVec.le_def, hphase]
    rfl
  unfold shouldApplyPumpChange confirmTime
  rw [if_neg hpending, hstarted, hchange]
  dsimp only
  rw [decide_eq_true_iff, BitVec.le_def, hsince]
  by_cases hlate : 10000 ≤ t - b
  · rw [if_pos (htarget.2 hlate), if_pos (by omega),
      show AFTER_TARGET_PUMP_CHANGE_CONFIRM_MS.toNat = 1500 from rfl]
    omega
  · rw [if_neg (mt htarget.1 hlate), if_neg (by omega),
      show BEFORE_TARGET_PUMP_CHANGE_CONFIRM_MS.toNat = 5000 from rfl]
    omega

end

/-! ## The tiling -/

/-- The cycle has cut the reports into periods. -/
structure Tiled (h : List PumpReport) (x : Timed) : Prop where
  recorded : x.cycle.Recorded x.bounds
  first : x.bounds.head? = (h.find? (·.pumpDetected)).map (·.timeMs)
  ordered : x.bounds.Pairwise (· ≤ ·)
  past : ∀ b ∈ x.bounds, ∃ r ∈ h.getLast?, b ≤ r.timeMs
  confirmed : ∀ i, i + 1 < x.bounds.length →
    Confirmed h (decide (i % 2 = 0)) (x.bounds.getD i 0) (x.bounds.getD (i + 1) 0)
  waiting : x.cycle.phase = .waitingForPump → x.cycle.pumpChangePending = false
  idle : ∀ on, x.cycle.phase.runs = some on → x.cycle.pumpChangePending = false →
    ∃ r ∈ h.getLast?, r.pumpDetected = on
  pending : ∀ on, x.cycle.phase.runs = some on → x.cycle.pumpChangePending = true →
    Changed h on x.changeMs ∧ x.cycle.pumpChangeStartedMs = Clock.reading 32 x.changeMs ∧
      ∀ b ∈ x.bounds, b ≤ x.changeMs

/-- While a period runs, less than half a turn of the clock lies between its beginning and a
report. -/
def Short (x : Timed) (r : PumpReport) : Prop :=
  x.cycle.phase.runs.isSome → ∀ b ∈ x.bounds.getLast?, r.timeMs - b < 2 ^ 31

instance (x : Timed) (r : PumpReport) : Decidable (Short x r) :=
  inferInstanceAs (Decidable (_ → ∀ b ∈ x.bounds.getLast?, _))

section

variable {h : List PumpReport} {x : Timed} {r : PumpReport} {on : Bool}

theorem tiled_nil : Tiled [] {} where
  recorded := ⟨by simp, rfl, rfl, ⟨rfl, rfl⟩, by simp, by simp, by simp⟩
  first := rfl
  ordered := List.Pairwise.nil
  past := by simp
  confirmed i hi := absurd hi (by simp)
  waiting _ := rfl
  idle on hon := absurd hon nofun
  pending on hon := absurd hon nofun

/-- Before the first boundary no report has the pump on. -/
theorem Tiled.bounds_ne_nil (ht : Tiled h x) (hp : x.cycle.phase ≠ .waitingForPump) :
    x.bounds ≠ [] := by
  intro hnil
  have hphase := ht.recorded.phase
  rw [hnil] at hphase
  exact hp hphase

/-- Later reports leave the boundaries in the past. -/
theorem Tiled.past_concat (ht : Tiled h x) (hord : ∀ r' ∈ h, r'.timeMs ≤ r.timeMs) :
    ∀ b ∈ x.bounds, b ≤ r.timeMs := by
  intro b hb
  obtain ⟨last, hlast, hle⟩ := ht.past b hb
  exact hle.trans (hord last (List.mem_of_getLast? hlast))

/-- The first report with the pump on stays the first. -/
theorem Tiled.first_concat (ht : Tiled h x) (hne : x.bounds ≠ []) :
    x.bounds.head? = ((h ++ [r]).find? (·.pumpDetected)).map (·.timeMs) := by
  have hfirst := ht.first
  cases hfind : h.find? (·.pumpDetected) with
  | none =>
    rw [hfind, Option.map_none, List.head?_eq_none_iff] at hfirst
    exact absurd hfirst hne
  | some r₀ => rw [List.find?_append, hfind, Option.some_or, hfirst, hfind]

/-- A report that draws no boundary. -/
theorem Tiled.keep (ht : Tiled h x) (hord : ∀ r' ∈ h, r'.timeMs ≤ r.timeMs) {c' : BackflushCycle}
    {changeMs : ℕ} (hrec : c'.Recorded x.bounds)
    (hfirst : x.bounds.head? = ((h ++ [r]).find? (·.pumpDetected)).map (·.timeMs))
    (hwaiting : c'.phase = .waitingForPump → c'.pumpChangePending = false)
    (hidle : ∀ on, c'.phase.runs = some on → c'.pumpChangePending = false → r.pumpDetected = on)
    (hpending : ∀ on, c'.phase.runs = some on → c'.pumpChangePending = true →
      Changed (h ++ [r]) on changeMs ∧ c'.pumpChangeStartedMs = Clock.reading 32 changeMs ∧
        ∀ b ∈ x.bounds, b ≤ changeMs) :
    Tiled (h ++ [r]) { cycle := c', bounds := x.bounds, changeMs := changeMs } where
  recorded := hrec
  first := hfirst
  ordered := ht.ordered
  past b hb := ⟨r, by simp, ht.past_concat hord b hb⟩
  confirmed i hi := (ht.confirmed i hi).append [r]
  waiting := hwaiting
  idle on hon hpend := ⟨r, by simp, hidle on hon hpend⟩
  pending := hpending

/-- A report that draws a boundary, at its own time or before. -/
theorem Tiled.cut (ht : Tiled h x) {c' : BackflushCycle} {b' : ℕ} (hrec : c'.Recorded (x.bounds ++ [b']))
    (hb' : b' ≤ r.timeMs) (hle : ∀ b ∈ x.bounds, b ≤ b')
    (hfirst : (x.bounds ++ [b']).head? = ((h ++ [r]).find? (·.pumpDetected)).map (·.timeMs))
    (hconfirmed : ∀ b ∈ x.bounds.getLast?,
      Confirmed (h ++ [r]) (decide ((x.bounds.length - 1) % 2 = 0)) b b')
    (hrest : c'.pumpChangePending = false)
    (hruns : ∀ on, c'.phase.runs = some on → r.pumpDetected = on) :
    Tiled (h ++ [r]) { cycle := c', bounds := x.bounds ++ [b'], changeMs := b' } where
  recorded := hrec
  first := hfirst
  ordered := by
    rw [List.pairwise_append]
    refine ⟨ht.ordered, List.pairwise_singleton .., ?_⟩
    intro b hb b'' hb''
    rw [List.mem_singleton.1 hb'']
    exact hle b hb
  past b hb := by
    refine ⟨r, by simp, ?_⟩
    rcases List.mem_append.1 hb with hb | hb
    · exact (hle b hb).trans hb'
    · rw [List.mem_singleton.1 hb]
      exact hb'
  confirmed i hi := by
    rw [List.length_append, List.length_singleton] at hi
    by_cases hlast : i + 1 = x.bounds.length
    · have hmem : x.bounds.getD i 0 ∈ x.bounds.getLast? := by
        rw [List.getLast?_eq_getElem?, ← hlast, Nat.add_sub_cancel, List.getD_eq_getElem _ _ (by omega)]
        exact List.getElem?_eq_getElem (by omega)
      have hnew := hconfirmed _ hmem
      rw [← hlast, Nat.add_sub_cancel] at hnew
      rw [getD_concat, getD_concat, if_pos (by omega), if_neg (by omega), if_pos hlast]
      exact hnew
    · have hold := (ht.confirmed i (by omega)).append [r]
      rw [getD_concat, getD_concat, if_pos (by omega), if_pos (by omega)]
      exact hold
  waiting _ := hrest
  idle on hon _ := ⟨r, by simp, hruns on hon⟩
  pending on _ hpend := absurd hpend (by rw [hrest]; exact Bool.false_ne_true)

theorem Recorded.clearPumpChange {c : BackflushCycle} {bounds : List ℕ} (hc : c.Recorded bounds) :
    c.clearPumpChange.Recorded bounds :=
  ⟨hc.few, hc.phase, hc.index, hc.sizes, hc.started, hc.on, hc.off⟩

theorem Recorded.rememberPumpChange {c : BackflushCycle} {bounds : List ℕ} (hc : c.Recorded bounds)
    (t : U32) : (c.rememberPumpChange t).Recorded bounds := by
  unfold BackflushCycle.rememberPumpChange
  split_ifs
  · exact hc
  · exact ⟨hc.few, hc.phase, hc.index, hc.sizes, hc.started, hc.on, hc.off⟩

/-- While the cycle waits, no boundary has been drawn. -/
theorem Recorded.waiting {c : BackflushCycle} {bounds : List ℕ} (hc : c.Recorded bounds)
    (hp : c.phase = .waitingForPump) : bounds = [] := by
  have hphase := hc.phase
  rw [hp] at hphase
  unfold phaseAfter at hphase
  split_ifs at hphase with h₀
  exact List.length_eq_zero_iff.1 h₀

/-- The end of the running period draws the boundary at the change. -/
theorem recorded_endPhase {c : BackflushCycle} {bounds : List ℕ} (hc : c.Recorded bounds)
    (hp : c.phase.runs = some on) {b t : ℕ} (hb : b ∈ bounds.getLast?) (hbt : b ≤ t)
    (hshort : t - b < 2 ^ 31) (hchange : c.pumpChangeStartedMs = Clock.reading 32 t) :
    (c.endPhase on).Recorded (bounds ++ [t]) ∧ (c.endPhase on).pumpChangePending = false ∧
      ∀ on', (c.endPhase on).phase.runs = some on' → on' = !on := by
  unfold endPhase
  cases hphase : c.phase with
  | waitingForPump => rw [hphase] at hp; exact absurd hp nofun
  | complete => rw [hphase] at hp; exact absurd hp nofun
  | pumpOn =>
    rw [hphase] at hp
    rw [← Option.some.inj hp, if_pos rfl]
    obtain ⟨hnext, -, -, hpend, -⟩ := c.endPumpOn_fields
    refine ⟨recorded_endPumpOn hc hphase hb hbt hshort hchange, hpend, ?_⟩
    intro on' hon'
    rw [hnext] at hon'
    split_ifs at hon'
    · exact absurd hon' nofun
    · exact (Option.some.inj hon').symm
  | pumpOff =>
    rw [hphase] at hp
    rw [← Option.some.inj hp, if_neg Bool.false_ne_true]
    refine ⟨recorded_endPumpOff hc hphase hb hbt hshort hchange, rfl, ?_⟩
    intro on' hon'
    exact (Option.some.inj hon').symm

/-- A report while the cycle waits for the pump. -/
theorem tiled_step_waiting (ht : Tiled h x) (hord : ∀ r' ∈ h, r'.timeMs ≤ r.timeMs)
    (hp : x.cycle.phase = .waitingForPump) : Tiled (h ++ [r]) (x.step r) := by
  have hnil := ht.recorded.waiting hp
  have hpend := ht.waiting hp
  have hnone : h.find? (·.pumpDetected) = none := by
    have hfirst := ht.first
    rw [hnil] at hfirst
    exact Option.map_eq_none_iff.1 hfirst.symm
  unfold Timed.step
  dsimp only
  rw [update_waiting hp, hpend, if_neg Bool.false_ne_true]
  cases hr : r.pumpDetected with
  | false =>
    rw [if_pos (show (!false) = true from rfl), if_neg Bool.false_ne_true]
    refine ht.keep hord ht.recorded ?_ ht.waiting ?_ ?_
    · rw [hnil, List.find?_append, hnone, List.find?_singleton, hr]
      rfl
    · intro on hon
      rw [hp] at hon
      exact absurd hon nofun
    · intro on hon
      rw [hp] at hon
      exact absurd hon nofun
  | true =>
    rw [if_neg (show ¬ (!true) = true by decide), if_pos rfl]
    refine ht.cut ?_ (le_refl _) (ht.past_concat hord) ?_ ?_ rfl ?_
    · have hrec := ht.recorded
      rw [hnil] at hrec ⊢
      exact recorded_begin hrec r.timeMs
    · rw [hnil, List.find?_append, hnone, List.find?_singleton, hr]
      rfl
    · intro b hb
      rw [hnil] at hb
      exact absurd hb nofun
    · intro on hon
      rw [hr]
      exact Option.some.inj hon

/-- A report that confirms the state of the running period. -/
theorem tiled_step_same (ht : Tiled h x) (hord : ∀ r' ∈ h, r'.timeMs ≤ r.timeMs)
    (hp : x.cycle.phase.runs = some on) (hr : r.pumpDetected = on) :
    Tiled (h ++ [r]) (x.step r) := by
  have hne := ht.bounds_ne_nil (by intro h₀; rw [h₀] at hp; exact absurd hp nofun)
  unfold Timed.step
  dsimp only
  rw [hr, update_same hp, if_neg Bool.false_ne_true]
  refine ht.keep hord ht.recorded.clearPumpChange (ht.first_concat hne) (fun _ => rfl) ?_ ?_
  · intro on' hon' _
    have hon : x.cycle.phase.runs = some on' := hon'
    rw [hp] at hon
    rw [hr]
    exact Option.some.inj hon
  · intro on' _ hpend
    exact absurd hpend Bool.false_ne_true

/-- What a report of the other state leaves pending. -/
theorem rememberPumpChange_pending (ht : Tiled h x) (hord : ∀ r' ∈ h, r'.timeMs ≤ r.timeMs)
    (hp : x.cycle.phase.runs = some on) (hr : r.pumpDetected = !on) {changeMs : ℕ}
    (hchange : changeMs = if x.cycle.pumpChangePending then x.changeMs else r.timeMs) :
    let c' := x.cycle.rememberPumpChange (Clock.reading 32 r.timeMs)
    Changed (h ++ [r]) on changeMs ∧ c'.pumpChangeStartedMs = Clock.reading 32 changeMs ∧
      c'.pumpChangePending = true ∧ c'.phase = x.cycle.phase ∧ ∀ b ∈ x.bounds, b ≤ changeMs := by
  unfold rememberPumpChange
  dsimp only
  cases hpend : x.cycle.pumpChangePending with
  | true =>
    obtain ⟨hchanged, hstarted, hle⟩ := ht.pending on hp hpend
    rw [hpend, if_pos rfl] at hchange
    rw [if_pos rfl, hchange]
    exact ⟨hchanged.concat hr, hstarted, hpend, rfl, hle⟩
  | false =>
    obtain ⟨last, hlast, hstate⟩ := ht.idle on hp hpend
    rw [hpend, if_neg Bool.false_ne_true] at hchange
    rw [if_neg Bool.false_ne_true, hchange]
    exact ⟨changed_begin hlast hstate hr, rfl, rfl, rfl, ht.past_concat hord⟩

/-- A report of the other state: the change stays pending, or ends the period where it began. -/
theorem tiled_step_other (ht : Tiled h x)
    (hord : (h ++ [r]).Pairwise fun r r' => r.timeMs ≤ r'.timeMs) (hshort : Short x r)
    (hp : x.cycle.phase.runs = some on) (hr : r.pumpDetected = !on) :
    Tiled (h ++ [r]) (x.step r) := by
  have hpast : ∀ r' ∈ h, r'.timeMs ≤ r.timeMs := by
    intro r' hr'
    exact (List.pairwise_append.1 hord).2.2 r' hr' r (List.mem_singleton_self r)
  have hne := ht.bounds_ne_nil (by intro h₀; rw [h₀] at hp; exact absurd hp nofun)
  have hb := List.getLast?_eq_some_getLast hne
  have hshort := hshort (by rw [hp]; rfl) _ hb
  unfold Timed.step
  dsimp only
  rw [hr, update_other hp]
  obtain ⟨hchanged, hstarted, hpend, hphase, hle⟩ := rememberPumpChange_pending ht hpast hp hr rfl
  have hrec := ht.recorded.rememberPumpChange (Clock.reading 32 r.timeMs)
  generalize (if x.cycle.pumpChangePending then x.changeMs else r.timeMs) = changeMs at *
  generalize x.cycle.rememberPumpChange (Clock.reading 32 r.timeMs) = c' at *
  rw [← hphase] at hp
  have hbt := hle _ (List.mem_of_getLast? hb)
  have htn : changeMs ≤ r.timeMs := hchanged.le_last hord (by simp)
  have happly := shouldApplyPumpChange_iff hpend (hrec.started _ hb) hstarted hbt htn hshort
  by_cases hlong : changeMs + confirmTime (x.bounds.getLast hne) changeMs ≤ r.timeMs
  · rw [happly.2 hlong, if_neg (show ¬ (!true) = true by decide), if_pos rfl]
    obtain ⟨hended, hrest, hruns⟩ := recorded_endPhase hrec hp hb hbt (by omega) hstarted
    refine ht.cut hended htn hle ?_ ?_ hrest ?_
    · rw [List.head?_append_of_ne_nil _ hne]
      exact ht.first_concat hne
    · intro b hb'
      rw [hb] at hb'
      rw [← Option.some.inj hb']
      rw [hrec.phase] at hp
      obtain ⟨hpos, -, hon⟩ := phaseAfter_runs hrec.few hp
      have hparity : decide ((x.bounds.length - 1) % 2 = 0) = on := by
        rw [hon]
        exact decide_eq_decide.2 (by omega)
      rw [hparity]
      exact ⟨h ++ [r], [], (List.append_nil _).symm, hchanged, r, by simp, hlong⟩
    · intro on' hon'
      rw [hr, hruns on' hon']
  · rw [Bool.eq_false_iff.2 (mt happly.1 hlong), if_pos (show (!false) = true from rfl),
      if_neg Bool.false_ne_true]
    refine ht.keep hpast hrec (ht.first_concat hne) ?_ ?_ ?_
    · intro hwait
      rw [hwait] at hp
      exact absurd hp nofun
    · intro on' _ hidle
      exact absurd hidle (by rw [hpend]; decide)
    · intro on' hon' _
      rw [hp] at hon'
      rw [← Option.some.inj hon']
      exact ⟨hchanged, hstarted, hle⟩

/-- **Step.** One more report keeps the tiling. -/
theorem tiled_step (ht : Tiled h x) (hord : (h ++ [r]).Pairwise fun r r' => r.timeMs ≤ r'.timeMs)
    (hshort : Short x r) : Tiled (h ++ [r]) (x.step r) := by
  have hpast : ∀ r' ∈ h, r'.timeMs ≤ r.timeMs := by
    intro r' hr'
    exact (List.pairwise_append.1 hord).2.2 r' hr' r (List.mem_singleton_self r)
  cases hruns : x.cycle.phase.runs with
  | some on =>
    by_cases hr : r.pumpDetected = on
    · exact tiled_step_same ht hpast hruns hr
    · exact tiled_step_other ht hord hshort hruns (Bool.eq_not_of_ne hr)
  | none =>
    cases hp : x.cycle.phase with
    | waitingForPump => exact tiled_step_waiting ht hpast hp
    | pumpOn => rw [hp] at hruns; exact absurd hruns nofun
    | pumpOff => rw [hp] at hruns; exact absurd hruns nofun
    | complete =>
      have hne := ht.bounds_ne_nil (by rw [hp]; decide)
      unfold Timed.step
      dsimp only
      rw [update_complete hp, if_neg Bool.false_ne_true]
      refine ht.keep hpast ht.recorded (ht.first_concat hne) ht.waiting ?_ ?_
      · intro on hon
        rw [hruns] at hon
        exact absurd hon nofun
      · intro on hon
        rw [hruns] at hon
        exact absurd hon nofun

/-- **Run.** -/
theorem tiled {h : List PumpReport} (hord : h.Pairwise fun r r' => r.timeMs ≤ r'.timeMs)
    (hshort : Along Timed.step Short {} h) : Tiled h (timed h) := by
  induction h using List.reverseRecOn with
  | nil => exact tiled_nil
  | append_singleton h r ih =>
    have hsplit := along_append.1 hshort
    unfold timed
    rw [exec_append]
    exact tiled_step (ih (List.pairwise_append.1 hord).1 hsplit.1) hord hsplit.2.1

end

/-! ## Recorded periods stay -/

/-- The cycle behind the reports. -/
def run (h : List PumpReport) : BackflushCycle :=
  exec (fun c r => (c.update (Clock.reading 32 r.timeMs) r.pumpDetected).1) {} h

theorem timed_cycle (h : List PumpReport) : (timed h).cycle = run h := by
  induction h using List.reverseRecOn with
  | nil => rfl
  | append_singleton h r ih =>
    unfold timed run at *
    rw [exec_append, exec_append, exec_cons, exec_cons, exec_nil, exec_nil, ← ih]
    rfl

theorem Timed.bounds_step (x : Timed) (r : PumpReport) : x.bounds <+: (x.step r).bounds := by
  unfold Timed.step
  dsimp only
  cases (x.cycle.update (Clock.reading 32 r.timeMs) r.pumpDetected).2 with
  | true =>
    rw [if_pos rfl]
    exact List.prefix_append ..
  | false =>
    rw [if_neg Bool.false_ne_true]

theorem bounds_isPrefix (h more : List PumpReport) :
    (timed h).bounds <+: (timed (h ++ more)).bounds := by
  induction more using List.reverseRecOn with
  | nil => rw [List.append_nil]
  | append_singleton more r ih =>
    refine ih.trans ?_
    unfold timed
    rw [← List.append_assoc, exec_append _ [r], exec_cons, exec_nil]
    exact Timed.bounds_step _ r

section

variable {c c' : BackflushCycle} {bounds bounds' : List ℕ}

theorem onRecorded_iff (hc : c.Recorded bounds) (k : ℕ) :
    c.onRecorded k = true ↔ 2 * k + 1 < bounds.length := by
  have hfive : CYCLE_COUNT = 5 := rfl
  have hfew := hc.few
  unfold onRecorded
  rw [hc.phase, hc.index]
  unfold phaseAfter
  split_ifs <;> simp <;> omega

theorem offRecorded_iff (hc : c.Recorded bounds) (k : ℕ) :
    c.offRecorded k = true ↔ 2 * k + 2 < bounds.length := by
  have hfive : CYCLE_COUNT = 5 := rfl
  have hfew := hc.few
  unfold offRecorded
  rw [hc.index, Bool.and_eq_true, decide_eq_true_iff, decide_eq_true_iff]
  omega

theorem phaseElapsedMs_eq (hc : c.Recorded bounds) {on : Bool} (hp : c.phase.runs = some on) {b now : ℕ}
    (hb : b ∈ bounds.getLast?) (hle : b ≤ now) (hshort : now - b < 2 ^ 31) :
    (c.phaseElapsedMs (Clock.reading 32 now)).toNat = now - b := by
  have hdist := reading_dist hle hshort
  rw [← hc.started b hb] at hdist
  unfold phaseElapsedMs
  cases hphase : c.phase with
  | waitingForPump => rw [hphase] at hp; exact absurd hp nofun
  | complete => rw [hphase] at hp; exact absurd hp nofun
  | pumpOn => exact hdist
  | pumpOff => exact hdist

theorem getD_of_isPrefix (hpre : bounds <+: bounds') {i : ℕ} (hi : i < bounds.length) :
    bounds'.getD i 0 = bounds.getD i 0 := by
  obtain ⟨rest, rfl⟩ := hpre
  exact List.getD_append _ _ _ _ hi

/-- What `c` has recorded, `c'` has recorded, with the same durations. -/
def Kept (c c' : BackflushCycle) : Prop :=
  ∀ k, (c.onRecorded k = true →
      c'.onRecorded k = true ∧ c'.results.onMs.getD k 0 = c.results.onMs.getD k 0) ∧
    (c.offRecorded k = true →
      c'.offRecorded k = true ∧ c'.results.offMs.getD k 0 = c.results.offMs.getD k 0)

theorem kept_of_isPrefix (hc : c.Recorded bounds) (hc' : c'.Recorded bounds')
    (hpre : bounds <+: bounds') : Kept c c' := by
  have hlen := hpre.length_le
  intro k
  rw [onRecorded_iff hc, onRecorded_iff hc', offRecorded_iff hc, offRecorded_iff hc']
  constructor
  · intro hk
    refine ⟨by omega, BitVec.eq_of_toNat_eq ?_⟩
    rw [hc.on k hk, hc'.on k (by omega), getD_of_isPrefix hpre hk, getD_of_isPrefix hpre (by omega)]
  · intro hk
    refine ⟨by omega, BitVec.eq_of_toNat_eq ?_⟩
    rw [hc.off k hk, hc'.off k (by omega), getD_of_isPrefix hpre hk, getD_of_isPrefix hpre (by omega)]

end

/-! ## The partition -/

/-- The moment `t` lies in the period `i`. -/
def InPeriod (bounds : List ℕ) (t i : ℕ) : Prop :=
  i < bounds.length ∧ bounds.getD i 0 ≤ t ∧ (i + 1 < bounds.length → t < bounds.getD (i + 1) 0)

/-- Sorted boundaries cut the time behind the first of them. -/
theorem existsUnique_inPeriod {bounds : List ℕ} (hord : bounds.Pairwise (· ≤ ·)) {b t : ℕ}
    (hb : b ∈ bounds.head?) (hbt : b ≤ t) : ∃! i, InPeriod bounds t i := by
  have hmono : ∀ i j, i ≤ j → j < bounds.length → bounds.getD i 0 ≤ bounds.getD j 0 := by
    intro i j hij hj
    rcases hij.eq_or_lt with rfl | hlt
    · exact le_refl _
    · rw [List.getD_eq_getElem _ _ (hlt.trans hj), List.getD_eq_getElem _ _ hj]
      exact List.pairwise_iff_getElem.1 hord i j (hlt.trans hj) hj hlt
  have hsome : ∃ i, i < bounds.length ∧ bounds.getD i 0 ≤ t := by
    refine ⟨0, ?_, ?_⟩
    · exact List.length_pos_of_mem (List.mem_of_head? hb)
    · rw [List.getD_eq_getElem?_getD, ← List.head?_eq_getElem?, hb]
      exact hbt
  obtain ⟨i, ⟨hi, hit⟩, hmax⟩ :
      ∃ i, (i < bounds.length ∧ bounds.getD i 0 ≤ t) ∧
        ∀ j, j < bounds.length → bounds.getD j 0 ≤ t → j ≤ i := by
    obtain ⟨i₀, hi₀⟩ := hsome
    let P : ℕ → Prop := fun i => i < bounds.length ∧ bounds.getD i 0 ≤ t
    refine ⟨Nat.findGreatest P bounds.length, Nat.findGreatest_spec (P := P) hi₀.1.le hi₀, ?_⟩
    intro j hj hjt
    exact Nat.le_findGreatest hj.le ⟨hj, hjt⟩
  refine ⟨i, ⟨hi, hit, ?_⟩, ?_⟩
  · intro hnext
    by_contra hle
    have := hmax (i + 1) hnext (Nat.le_of_not_lt hle)
    omega
  · rintro j ⟨hj, hjt, hnext⟩
    have hji := hmax j hj hjt
    by_contra hne
    have hlt : j + 1 ≤ i := by omega
    have hbefore := hnext (by omega)
    have := hmono (j + 1) i hlt hi
    omega

/-- The periods of the cycle tile the time from the first report with the pump on: `bounds` are the
times where a period begins. -/
structure Tiles (h : List PumpReport) (c : BackflushCycle) (bounds : List ℕ) : Prop where
  first : bounds.head? = (h.find? (·.pumpDetected)).map (·.timeMs)
  past : ∀ b ∈ bounds, ∃ r ∈ h.getLast?, b ≤ r.timeMs
  partition : ∀ b ∈ bounds.head?, ∀ t, b ≤ t → ∃! i, InPeriod bounds t i
  few : bounds.length ≤ 2 * CYCLE_COUNT ∧ c.cycleIndex < CYCLE_COUNT
  phase : c.phase = phaseAfter bounds.length
  onRecorded : ∀ k, c.onRecorded k = true ↔ 2 * k + 1 < bounds.length
  offRecorded : ∀ k, c.offRecorded k = true ↔ 2 * k + 2 < bounds.length
  onMs : ∀ k, c.onRecorded k = true →
    (c.results.onMs.getD k 0).toNat = bounds.getD (2 * k + 1) 0 - bounds.getD (2 * k) 0
  offMs : ∀ k, c.offRecorded k = true →
    (c.results.offMs.getD k 0).toNat = bounds.getD (2 * k + 2) 0 - bounds.getD (2 * k + 1) 0
  elapsed : c.phase.runs.isSome → ∀ b ∈ bounds.getLast?, ∀ now, b ≤ now → now - b < 2 ^ 31 →
    (c.phaseElapsedMs (Clock.reading 32 now)).toNat = now - b
  confirmed : ∀ i, i + 1 < bounds.length →
    Confirmed h (decide (i % 2 = 0)) (bounds.getD i 0) (bounds.getD (i + 1) 0)

theorem Tiled.tiles {h : List PumpReport} {x : Timed} (ht : Tiled h x) : Tiles h x.cycle x.bounds where
  first := ht.first
  past := ht.past
  partition _ hb _ hbt := existsUnique_inPeriod ht.ordered hb hbt
  few := by
    have hfew := ht.recorded.few
    have hfive : CYCLE_COUNT = 5 := rfl
    rw [ht.recorded.index]
    omega
  phase := ht.recorded.phase
  onRecorded := onRecorded_iff ht.recorded
  offRecorded := offRecorded_iff ht.recorded
  onMs k hk := ht.recorded.on k ((onRecorded_iff ht.recorded k).1 hk)
  offMs k hk := ht.recorded.off k ((offRecorded_iff ht.recorded k).1 hk)
  elapsed hp b hb now hle hshort := by
    obtain ⟨on, hon⟩ := Option.isSome_iff_exists.1 hp
    exact phaseElapsedMs_eq ht.recorded hon hb hle hshort
  confirmed := ht.confirmed

/-- **The periods tile time.** They begin with the first report of the pump, leave no gap and do not
overlap; each but the running one is recorded with its duration, which stays; and each ends at the
first report of the change that was confirmed. -/
theorem periods_tile_time {h : List PumpReport} (hord : h.Pairwise fun r r' => r.timeMs ≤ r'.timeMs)
    (hshort : Along Timed.step Short {} h) :
    Tiles h (run h) (timed h).bounds ∧ ∀ pre, pre <+: h → Kept (run pre) (run h) := by
  have ht := tiled hord hshort
  refine ⟨timed_cycle h ▸ ht.tiles, ?_⟩
  rintro pre ⟨more, rfl⟩
  have htpre := tiled (List.pairwise_append.1 hord).1 (along_append.1 hshort).1
  rw [← timed_cycle, ← timed_cycle]
  exact kept_of_isPrefix htpre.recorded ht.recorded (bounds_isPrefix pre more)

/-- A first period across the wrap of the clock, with a flicker, and a rest. -/
def wrapReports : List PumpReport :=
  [⟨4294962296, true⟩, ⟨4294966296, false⟩, ⟨4294968296, true⟩, ⟨4294972300, false⟩,
    ⟨4294973800, false⟩, ⟨4294983900, true⟩, ⟨4294985400, true⟩]

theorem periods_tile_time_wrapReports :
    (timed wrapReports).bounds = [4294962296, 4294972300, 4294983900] ∧
      Tiles wrapReports (run wrapReports) (timed wrapReports).bounds ∧
      ∀ pre, pre <+: wrapReports → Kept (run pre) (run wrapReports) :=
  ⟨by decide +kernel, periods_tile_time (by decide +kernel) (by decide +kernel)⟩

end BackflushCycle

end Pumpbug
