import Pumpbug.Power.PowerEventRuns
import Pumpbug.Web.PowerHistory

/-!
# The power history that is shown

A load puts its view together from pages of different moments, or takes most of it from an earlier
load.  What ties them together is the count of writes, which the device sends with each page.
-/

namespace Pumpbug.Power

open Lib

/-! ## The pages of one log -/

/-- The whole log as the client has it. -/
def rows (l : PowerEventLog) : List PowerRow := (l.snapshot CAP).map rowOf

theorem length_rows (l : PowerEventLog) : (rows l).length = (l.snapshot CAP).length := List.length_map _

theorem asOffset_natCast (k : ℕ) : asOffset k = some k := by
  simp [asOffset]

theorem answer_natCast (l : PowerEventLog) (battery : LiveStatus) {k : ℕ} (hk : k ≤ CAP) :
    answer l battery k = some (pageOf l battery k) := by
  have harrives := page_arrives l battery hk
  simp only [answer, asOffset_natCast, Option.bind_eq_bind, Option.bind_some]
  exact harrives

theorem pageOf_entries (l : PowerEventLog) (battery : LiveStatus) {k : ℕ} (hk : k ≤ (rows l).length) :
    (pageOf l battery k).entries = ((rows l).drop k).take kPowerPageCap := by
  rw [length_rows] at hk
  simp [pageOf, rows, Nat.min_eq_left hk, List.map_drop, List.map_take]

theorem pageOf_nextOffset (l : PowerEventLog) (battery : LiveStatus) {k : ℕ}
    (hk : k ≤ (rows l).length) :
    (pageOf l battery k).nextOffset =
      if min (k + kPowerPageCap) (rows l).length < (rows l).length then
        some ↑(min (k + kPowerPageCap) (rows l).length)
      else none := by
  have hsum : k + min kPowerPageCap ((rows l).length - k) = min (k + kPowerPageCap) (rows l).length := by
    omega
  have hk' := hk
  rw [length_rows] at hk'
  have hentries := congrArg List.length (pageOf_entries l battery hk)
  rw [List.length_take, List.length_drop] at hentries
  have hnext : (pageOf l battery k).nextOffset =
      if k + (pageOf l battery k).entries.length < (rows l).length then
        some ↑(k + (pageOf l battery k).entries.length)
      else none := by
    simp only [pageOf, Nat.min_eq_left hk', length_rows]
  rw [hnext, hentries, hsum]

/-! ## What the client has -/

/-- The history is of the log. -/
structure HistoryOf (h : PowerHistory) (l : PowerEventLog) : Prop where
  writes : h.writes = l.writes.toNat
  total : h.total = (rows l).length
  firstPageKey : h.firstPageKey = (rows l).take kPowerPageCap
  entries : h.entries = rows l

/-- The load has got the first `k` entries of the log. -/
structure Partly (l : PowerEventLog) (body : PowerPage) (entries : List PowerRow) (k : ℕ) : Prop where
  writes : body.writes = l.writes.toNat
  total : body.total = (rows l).length
  first : body.entries = (rows l).take kPowerPageCap
  entries : entries = (rows l).take k

/-- Of two logs with the same count, only the newest entries differ. -/
def Tells (seen : List PowerEventLog) : Prop :=
  ∀ l ∈ seen, ∀ l' ∈ seen, l.writes = l'.writes → (rows l).tail = (rows l').tail

theorem partly_first (l : PowerEventLog) (battery : LiveStatus) :
    Partly l (pageOf l battery 0) (pageOf l battery 0).entries (min kPowerPageCap (rows l).length) where
  writes := rfl
  total := by rw [length_rows]; rfl
  first := by rw [pageOf_entries l battery (Nat.zero_le _), List.drop_zero]
  entries := by
    rw [pageOf_entries l battery (Nat.zero_le _), List.drop_zero]
    exact List.take_eq_take_min

/-- A page of a log with the same count continues the entries. -/
theorem Partly.append {l l' : PowerEventLog} {body : PowerPage} {entries : List PowerRow} {k : ℕ}
    (h : Partly l body entries k) (hk : 0 < k) (hlt : k < (rows l).length) (battery : LiveStatus)
    (htail : (rows l).tail = (rows l').tail) :
    Partly l body (entries ++ (pageOf l' battery k).entries)
      (min (k + kPowerPageCap) (rows l).length) := by
  have hlen : (rows l').length = (rows l).length := by
    have := congrArg List.length htail
    rw [List.length_tail, List.length_tail] at this
    omega
  have hdrop : (rows l').drop k = (rows l).drop k := by
    obtain ⟨k, rfl⟩ := Nat.exists_eq_succ_of_ne_zero (by omega : k ≠ 0)
    rw [← List.drop_tail, ← List.drop_tail, htail]
  refine ⟨h.writes, h.total, h.first, ?_⟩
  rw [h.entries, pageOf_entries l' battery (by omega), hdrop, ← List.take_eq_take_min, List.take_add]

/-- Two logs with the same count and the same first page are the same to the client. -/
theorem rows_eq {l l' : PowerEventLog} (htail : (rows l).tail = (rows l').tail)
    (hfirst : (rows l).take kPowerPageCap = (rows l').take kPowerPageCap) : rows l = rows l' := by
  have hcap : kPowerPageCap = 11 + 1 := rfl
  rw [hcap] at hfirst
  cases h : rows l with
  | nil =>
    cases h' : rows l' with
    | nil => rfl
    | cons r rs => rw [h, h'] at hfirst; simp at hfirst
  | cons r rs =>
    cases h' : rows l' with
    | nil => rw [h, h'] at hfirst; simp at hfirst
    | cons r' rs' =>
      rw [h, h', List.take_succ_cons, List.take_succ_cons, List.cons.injEq] at hfirst
      rw [h, h', List.tail_cons, List.tail_cons] at htail
      rw [hfirst.1, htail]

/-! ## Every step -/

/-- What is known of the client: `seen` are the logs that were served, `now` the log at all moments
since the load was begun. -/
structure Inv (seen now : List PowerEventLog) (s : PowerSystem) : Prop where
  request : ∀ q ∈ s.request, s.client.asks = some q
  history : ∀ h ∈ s.client.powerHistory,
    (∃ l ∈ seen, HistoryOf h l) ∧ ∃ p ∈ s.client.shown, p.entries = h.entries
  idle : s.client.load = .idle → s.client.succeeded = true →
    ∃ l ∈ now, ∃ p ∈ s.client.shown, p.entries = rows l
  first : s.client.load = .first → ∀ r ∈ s.response,
    ∃ l ∈ now, l ∈ seen ∧ ∃ battery, r = some (pageOf l battery 0)
  page : ∀ body entries next, s.client.load = .page body entries next →
    ∃ k : ℕ, next = k ∧ 0 < k ∧
      (∃ l ∈ now, l ∈ seen ∧ k < (rows l).length ∧ Partly l body entries k) ∧
      ∀ r ∈ s.response, ∃ l ∈ seen, ∃ battery, r = some (pageOf l battery k)

variable {seen seen' now now' : List PowerEventLog} {s : PowerSystem}

theorem Inv.mono (h : Inv seen now s) (hseen : ∀ l ∈ seen, l ∈ seen') (hnow : ∀ l ∈ now, l ∈ now') :
    Inv seen' now' s where
  request := h.request
  history := fun p hp => by
    obtain ⟨⟨l, hl, hlog⟩, hshown⟩ := h.history p hp
    exact ⟨⟨l, hseen l hl, hlog⟩, hshown⟩
  idle := fun hload hok => by
    obtain ⟨l, hl, hshown⟩ := h.idle hload hok
    exact ⟨l, hnow l hl, hshown⟩
  first := fun hload r hr => by
    obtain ⟨l, hl, hl', hpage⟩ := h.first hload r hr
    exact ⟨l, hnow l hl, hseen l hl', hpage⟩
  page := fun body entries next hload => by
    obtain ⟨k, hk, hpos, ⟨l, hl, hl', hpartly⟩, hresponse⟩ := h.page body entries next hload
    refine ⟨k, hk, hpos, ⟨l, hnow l hl, hseen l hl', hpartly⟩, fun r hr => ?_⟩
    obtain ⟨l', hl', hpage⟩ := hresponse r hr
    exact ⟨l', hseen l' hl', hpage⟩

theorem Inv.with_device (h : Inv seen now s) (device : Device) : Inv seen now { s with device := device } :=
  ⟨h.request, h.history, h.idle, h.first, h.page⟩

theorem goOn_request (s : PowerSystem) (c : PowerLogs) : ∀ q ∈ (s.goOn c).request, c.asks = some q :=
  fun _ hq => hq

theorem inv_fail (h : Inv seen now s) : Inv seen now (s.goOn s.client.fail) where
  request := goOn_request s _
  history := h.history
  idle := fun _ hok => by simp [PowerSystem.goOn, PowerLogs.fail] at hok
  first := fun hload => by simp [PowerSystem.goOn, PowerLogs.fail] at hload
  page := fun _ _ _ hload => by simp [PowerSystem.goOn, PowerLogs.fail] at hload

/-- The load goes on to the next page, or it ends with the whole log. -/
theorem inv_more (h : Inv seen now s) {l : PowerEventLog} (hnow : l ∈ now) (hseen : l ∈ seen)
    {body : PowerPage} {entries : List PowerRow} {k : ℕ} (hpartly : Partly l body entries k)
    (hpos : k < (rows l).length → 0 < k) {next : Option ℚ}
    (hnext : next = if k < (rows l).length then some (k : ℚ) else none) :
    Inv seen now (s.goOn (s.client.more body entries next)) := by
  by_cases hlt : k < (rows l).length
  · rw [if_pos hlt] at hnext
    subst hnext
    refine ⟨goOn_request s _, h.history, ?_, ?_, ?_⟩
    · intro hload
      simp [PowerSystem.goOn, PowerLogs.more] at hload
    · intro hload
      simp [PowerSystem.goOn, PowerLogs.more] at hload
    · intro body' entries' next' hload
      obtain ⟨rfl, rfl, rfl⟩ := PowerLoad.page.inj hload
      exact ⟨k, rfl, hpos hlt, ⟨l, hnow, hseen, hlt, hpartly⟩, by simp [PowerSystem.goOn]⟩
  · rw [if_neg hlt] at hnext
    subst hnext
    have hall : entries = rows l := by rw [hpartly.entries, List.take_of_length_le (by omega)]
    refine ⟨goOn_request s _, ?_, ?_, ?_, ?_⟩
    · intro p hp
      obtain rfl := Option.some.inj hp
      exact ⟨⟨l, hseen, hpartly.writes, hpartly.total, hpartly.first, hall⟩, _, rfl, rfl⟩
    · intro _ _
      exact ⟨l, hnow, _, rfl, hall⟩
    · intro hload
      simp [PowerSystem.goOn, PowerLogs.more] at hload
    · intro _ _ _ hload
      simp [PowerSystem.goOn, PowerLogs.more] at hload

/-- The load ends with what is known. -/
theorem inv_known (s : PowerSystem) {l l' : PowerEventLog} (hnow : l ∈ now) (hseen : l' ∈ seen)
    (hrows : rows l' = rows l) {p : PowerHistory} (hof : HistoryOf p l') {shown : Option PowerPage}
    (hshown : ∃ page ∈ shown, page.entries = p.entries) (live : Option LiveRow) :
    Inv seen now (s.goOn {
      load := .idle
      succeeded := true
      shown := shown
      powerHistory := some { p with liveKey := live } }) where
  request := goOn_request s _
  history := by
    intro p' hp'
    obtain rfl := Option.some.inj hp'
    exact ⟨⟨l', hseen, hof.writes, hof.total, hof.firstPageKey, hof.entries⟩, hshown⟩
  idle := fun _ _ => by
    obtain ⟨page, hpage, hentries⟩ := hshown
    exact ⟨l, hnow, page, hpage, by rw [hentries, hof.entries, hrows]⟩
  first := fun hload => by simp [PowerSystem.goOn] at hload
  page := fun _ _ _ hload => by simp [PowerSystem.goOn] at hload

/-- The first page arrives. -/
theorem inv_receiveFirst (h : Inv seen now s) (htells : Tells seen) {l : PowerEventLog} (hnow : l ∈ now)
    (hseen : l ∈ seen) (battery : LiveStatus) :
    Inv seen now (s.goOn (s.client.receiveFirst (pageOf l battery 0))) := by
  have hpartly := partly_first l battery
  have hmore : Inv seen now (s.goOn (s.client.more (pageOf l battery 0) (pageOf l battery 0).entries
      (pageOf l battery 0).nextOffset)) := by
    refine inv_more h hnow hseen hpartly (fun _ => ?_) ?_
    · have hcap : kPowerPageCap = 12 := rfl
      omega
    · rw [pageOf_nextOffset l battery (Nat.zero_le _), Nat.zero_add]
  unfold PowerLogs.receiveFirst
  cases hhistory : s.client.powerHistory with
  | none => exact hmore
  | some p =>
    by_cases hsame : p.writes = (pageOf l battery 0).writes ∧ p.total = (pageOf l battery 0).total ∧
        p.firstPageKey = (pageOf l battery 0).entries
    · -- the history is of a log with the same count and the same first page
      obtain ⟨⟨l', hl', hof⟩, hshown⟩ := h.history p hhistory
      have hwrites : l'.writes = l.writes := by
        have hcast := hof.writes.symm.trans (hsame.1.trans hpartly.writes)
        exact BitVec.eq_of_toNat_eq (by exact_mod_cast hcast)
      have hrows : rows l' = rows l :=
        rows_eq (htells l' hl' l hseen hwrites)
          (hof.firstPageKey.symm.trans (hsame.2.2.trans hpartly.first))
      dsimp only
      rw [if_pos hsame]
      refine inv_known s hnow hl' hrows hof ?_ _
      split_ifs
      · exact ⟨_, rfl, rfl⟩
      · exact hshown
    · dsimp only
      rw [if_neg hsame]
      exact hmore

/-- A response arrives. -/
theorem inv_receive (h : Inv seen now s) (htells : Tells seen) {r : Option PowerPage}
    (hr : s.response = some r) : Inv seen now (s.goOn (s.client.receive r)) := by
  cases hload : s.client.load with
  | idle =>
    have hkeep : s.client.receive r = s.client := by simp [PowerLogs.receive, hload]
    rw [hkeep]
    exact ⟨goOn_request s _, h.history, h.idle, fun h' => by simp [PowerSystem.goOn, hload] at h',
      fun _ _ _ h' => by simp [PowerSystem.goOn, hload] at h'⟩
  | first =>
    obtain ⟨l, hnow, hseen, battery, rfl⟩ := h.first hload r hr
    have hreceive : s.client.receive (some (pageOf l battery 0)) =
        s.client.receiveFirst (pageOf l battery 0) := by simp [PowerLogs.receive, hload]
    rw [hreceive]
    exact inv_receiveFirst h htells hnow hseen battery
  | page body entries next =>
    obtain ⟨k, rfl, hpos, ⟨l, hnow, hseen, hlt, hpartly⟩, hresponse⟩ := h.page body entries next hload
    obtain ⟨l', hl', battery, rfl⟩ := hresponse r hr
    have hreceive : s.client.receive (some (pageOf l' battery k)) =
        if (pageOf l' battery k).writes ≠ body.writes ∨ (pageOf l' battery k).total ≠ body.total ∨
            (pageOf l' battery k).offset ≠ k then s.client.fail
        else s.client.more body (entries ++ (pageOf l' battery k).entries)
          (pageOf l' battery k).nextOffset := by simp [PowerLogs.receive, hload]
    rw [hreceive]
    split_ifs with hother
    · exact inv_fail h
    · push Not at hother
      obtain ⟨hwrites, htotal, -⟩ := hother
      have hwrites' : l.writes = l'.writes := by
        have hcast : (l.writes.toNat : ℚ) = l'.writes.toNat := hpartly.writes.symm.trans hwrites.symm
        exact BitVec.eq_of_toNat_eq (by exact_mod_cast hcast)
      have htail := htells l hseen l' hl' hwrites'
      have hlen : (rows l').length = (rows l).length := by
        have hcast : ((rows l').length : ℚ) = (rows l).length := by
          rw [← hpartly.total, ← htotal, length_rows]
          rfl
        exact_mod_cast hcast
      refine inv_more h hnow hseen (hpartly.append hpos hlt battery htail) (by omega) ?_
      rw [pageOf_nextOffset l' battery (by omega), hlen]

theorem inv_lose (h : Inv seen now s) : Inv seen now (s.goOn (s.client.receive none)) := by
  cases hload : s.client.load with
  | idle =>
    have hkeep : s.client.receive none = s.client := by simp [PowerLogs.receive, hload]
    rw [hkeep]
    exact ⟨goOn_request s _, h.history, h.idle, fun h' => by simp [PowerSystem.goOn, hload] at h',
      fun _ _ _ h' => by simp [PowerSystem.goOn, hload] at h'⟩
  | first =>
    have hfail : s.client.receive none = s.client.fail := by simp [PowerLogs.receive, hload]
    rw [hfail]
    exact inv_fail h
  | page body entries next =>
    have hfail : s.client.receive none = s.client.fail := by simp [PowerLogs.receive, hload]
    rw [hfail]
    exact inv_fail h

theorem inv_poll (h : Inv seen now s) (now' : List PowerEventLog) :
    Inv seen now' (s.goOn s.client.poll) where
  request := goOn_request s _
  history := h.history
  idle := fun h' => by simp [PowerSystem.goOn, PowerLogs.poll] at h'
  first := fun _ => by simp [PowerSystem.goOn]
  page := fun _ _ _ h' => by simp [PowerSystem.goOn, PowerLogs.poll] at h'

theorem inv_serve (h : Inv seen now s) (battery : LiveStatus) (hnow : s.device.log ∈ now)
    (hseen : s.device.log ∈ seen) : Inv seen now (s.step (.serve battery)) := by
  unfold PowerSystem.step
  cases hrequest : s.request with
  | none => exact h
  | some q =>
    have hasks := h.request q hrequest
    refine ⟨by simp, h.history, h.idle, fun hload r hr => ?_, fun body entries next hload => ?_⟩
    · obtain rfl : 0 = q := by simpa [PowerLogs.asks, show s.client.load = .first from hload] using hasks
      obtain rfl := Option.some.inj hr
      refine ⟨s.device.log, hnow, hseen, battery, ?_⟩
      exact_mod_cast answer_natCast s.device.log battery (Nat.zero_le CAP)
    · obtain ⟨k, rfl, hpos, ⟨l, hl, hl', hlt, hpartly⟩, -⟩ := h.page body entries next hload
      obtain rfl : (k : ℚ) = q := by
        simpa [PowerLogs.asks, show s.client.load = .page body entries k from hload] using hasks
      refine ⟨k, rfl, hpos, ⟨l, hl, hl', hlt, hpartly⟩, fun r hr => ?_⟩
      obtain rfl := Option.some.inj hr
      have hle : (rows l).length ≤ CAP := length_rows l ▸ snapshot_length_le l
      exact ⟨s.device.log, hseen, battery, answer_natCast s.device.log battery (by omega)⟩

theorem inv_forget (h : Inv seen now s) : Inv seen now (s.step .forget) where
  request := h.request
  history := fun p hp => by simp [PowerSystem.step] at hp
  idle := h.idle
  first := h.first
  page := h.page

/-! ## The log on the device -/

def PowerMove.records : PowerMove → Bool
  | .device (.record _ _) => true
  | _ => false

/-- The device clears its log, or loses its memory. -/
def PowerMove.erases : PowerMove → Bool
  | .device (.clear _) => true
  | .device (.reboot _) => true
  | _ => false

def PowerMove.serves : PowerMove → Bool
  | .serve _ => true
  | _ => false

theorem rows_of_writes_zero {l : PowerEventLog} (h : l.writes = 0) : rows l = [] := by
  have hzero : l.writes.toNat = 0 := by rw [h]; rfl
  have hcap : CAP = 32 := rfl
  refine List.eq_nil_of_length_eq_zero ?_
  rw [length_rows, PowerEventLog.snapshot, List.length_map, List.length_range]
  split_ifs <;> omega

/-- What is put in the newest slot is seen in the newest entry only. -/
theorem snapshot_set_tail (l : PowerEventLog) (e : PowerEvent) :
    (({ l with items := l.items.set l.newest e } : PowerEventLog).snapshot CAP).tail =
      (l.snapshot CAP).tail := by
  unfold PowerEventLog.snapshot
  dsimp only
  generalize hn : (if (if l.writes.toNat < CAP then l.writes.toNat else CAP) < CAP then
    if l.writes.toNat < CAP then l.writes.toNat else CAP else CAP) = n
  have hle : n ≤ CAP := by
    rw [← hn]
    split_ifs <;> omega
  rw [← List.map_tail, ← List.map_tail]
  refine List.map_congr_left fun i hi => ?_
  have hrange : 0 < i ∧ i < n := by
    rw [List.tail_range, List.mem_range'_1] at hi
    omega
  have hcap : CAP = 32 := rfl
  have hne : l.newest ≠ (l.writes - 1 - BitVec.ofNat 32 i).toNat % CAP := by
    rw [PowerEventLog.newest, BitVec.toNat_sub (l.writes - 1), BitVec.toNat_ofNat, hcap]
    have := (l.writes - 1).isLt
    omega
  rw [List.getD_eq_getElem?_getD, List.getD_eq_getElem?_getD, List.getElem?_set_ne hne]

/-- A backfill changes nothing that the count does not tell, but in the newest entry. -/
theorem step_steady {s : PowerSystem} {m : PowerMove} (hrecords : m.records = false)
    (herases : m.erases = false) :
    (s.step m).device.log.writes = s.device.log.writes ∧
      (rows (s.step m).device.log).tail = (rows s.device.log).tail := by
  cases m with
  | device op =>
    cases op with
    | record e n => simp [PowerMove.records] at hrecords
    | backfill utcSec n =>
      simp only [PowerSystem.step, Device.step, backfill_eq]
      split_ifs
      · refine ⟨rfl, ?_⟩
        have htail := snapshot_set_tail s.device.log
          { s.device.log.items.getD s.device.log.newest {} with utcSec := utcSec }
        unfold rows
        rw [← List.map_tail, ← List.map_tail, ← htail]
        rfl
      · exact ⟨rfl, rfl⟩
    | clear n => simp [PowerMove.erases] at herases
    | reboot n => simp [PowerMove.erases] at herases
  | poll =>
    simp only [PowerSystem.step]
    split_ifs <;> exact ⟨rfl, rfl⟩
  | serve battery =>
    simp only [PowerSystem.step]
    split <;> exact ⟨rfl, rfl⟩
  | receive =>
    simp only [PowerSystem.step]
    split <;> exact ⟨rfl, rfl⟩
  | lose => exact ⟨rfl, rfl⟩
  | forget => exact ⟨rfl, rfl⟩

/-- Without an erasure the count is the count of the records. -/
theorem exec_writes {s : PowerSystem} {ms : List PowerMove} (herases : ∀ m ∈ ms, m.erases = false) :
    (exec PowerSystem.step s ms).device.log.writes =
      s.device.log.writes + BitVec.ofNat 32 (ms.countP PowerMove.records) := by
  induction ms generalizing s with
  | nil => simp
  | cons m ms ih =>
    have hm := herases m List.mem_cons_self
    rw [exec_cons, ih fun m' hm' => herases m' (List.mem_cons_of_mem m hm'), List.countP_cons]
    cases hrecords : m.records with
    | false =>
      rw [(step_steady hrecords hm).1]
      rfl
    | true =>
      obtain ⟨e, n, rfl⟩ : ∃ e n, m = .device (.record e n) := by
        cases m with
        | device op => cases op with
          | record e n => exact ⟨e, n, rfl⟩
          | _ => simp [PowerMove.records] at hrecords
        | _ => simp [PowerMove.records] at hrecords
      have hwrites : (s.step (.device (.record e n))).device.log.writes = s.device.log.writes + 1 := rfl
      rw [hwrites, if_pos rfl, Nat.add_comm, BitVec.ofNat_add, BitVec.add_assoc]
      rfl

theorem exec_tail {s : PowerSystem} {ms : List PowerMove} (herases : ∀ m ∈ ms, m.erases = false)
    (hrecords : ∀ m ∈ ms, m.records = false) :
    (rows (exec PowerSystem.step s ms).device.log).tail = (rows s.device.log).tail := by
  induction ms generalizing s with
  | nil => rfl
  | cons m ms ih =>
    rw [exec_cons, ih (fun m' hm' => herases m' (List.mem_cons_of_mem m hm'))
      fun m' hm' => hrecords m' (List.mem_cons_of_mem m hm')]
    exact (step_steady (hrecords m List.mem_cons_self) (herases m List.mem_cons_self)).2

/-- Where the count is the same and nothing was erased, only the newest entry may differ. -/
theorem tail_of_writes {s : PowerSystem} {ms : List PowerMove} (hfew : ms.countP PowerMove.records < 2 ^ 32)
    (herases : ∀ m ∈ ms, m.erases = false)
    (hwrites : s.device.log.writes = (exec PowerSystem.step s ms).device.log.writes) :
    (rows s.device.log).tail = (rows (exec PowerSystem.step s ms).device.log).tail := by
  rw [exec_writes herases] at hwrites
  have hzero : ms.countP PowerMove.records = 0 := by
    have htoNat := congrArg BitVec.toNat (BitVec.self_eq_add_right.1 hwrites)
    rw [BitVec.toNat_ofNat, Nat.mod_eq_of_lt hfew] at htoNat
    simpa using htoNat
  have hrecords : ∀ m ∈ ms, m.records = false := by
    simpa [List.countP_eq_zero] using hzero
  exact (exec_tail herases hrecords).symm

/-! ## Every run -/

/-- A system that is watched: the logs that were served, and the log at all moments since the load was
begun. -/
structure Watch where
  s : PowerSystem
  seen : List PowerEventLog := []
  now : List PowerEventLog := []

def PowerMove.polls : PowerMove → Bool
  | .poll => true
  | _ => false

def Watch.step (w : Watch) (m : PowerMove) : Watch where
  s := w.s.step m
  seen := if m.serves then w.s.device.log :: w.seen else w.seen
  now :=
    if m.polls ∧ w.s.client.load = .idle then [w.s.device.log]
    else (w.s.step m).device.log :: w.now

theorem Watch.exec_s (w : Watch) (ms : List PowerMove) :
    (exec Watch.step w ms).s = exec PowerSystem.step w.s ms := by
  induction ms generalizing w with
  | nil => rfl
  | cons m ms ih => exact ih (w.step m)

theorem Watch.seen_mono (w : Watch) (ms : List PowerMove) :
    ∀ l ∈ w.seen, l ∈ (exec Watch.step w ms).seen := by
  induction ms generalizing w with
  | nil => exact fun l hl => hl
  | cons m ms ih =>
    intro l hl
    refine ih (w.step m) l ?_
    unfold Watch.step
    dsimp only
    split_ifs
    · exact List.mem_cons_of_mem _ hl
    · exact hl

/-- What was seen in a run was served in it. -/
theorem Watch.mem_seen {w : Watch} {ms : List PowerMove} {l : PowerEventLog}
    (hl : l ∈ (exec Watch.step w ms).seen) :
    l ∈ w.seen ∨ ∃ a m b, ms = a ++ m :: b ∧ m.serves = true ∧
      l = (exec PowerSystem.step w.s a).device.log := by
  induction ms generalizing w with
  | nil => exact Or.inl hl
  | cons m ms ih =>
    obtain hl | ⟨a, m', b, rfl, hm', heq⟩ := ih hl
    · unfold Watch.step at hl
      dsimp only at hl
      split_ifs at hl with hserves
      · obtain rfl | hl := List.mem_cons.1 hl
        · exact Or.inr ⟨[], m, ms, rfl, hserves, rfl⟩
        · exact Or.inl hl
      · exact Or.inl hl
    · exact Or.inr ⟨m :: a, m', b, rfl, hm', heq⟩

/-- Where no load begins, `now` is of the moments of the run. -/
theorem Watch.mem_now {w : Watch} {ms : List PowerMove} (hpoll : ∀ m ∈ ms, m.polls = false)
    {l : PowerEventLog} (hl : l ∈ (exec Watch.step w ms).now) :
    l ∈ w.now ∨ ∃ a b, ms = a ++ b ∧ l = (exec PowerSystem.step w.s a).device.log := by
  induction ms generalizing w with
  | nil => exact Or.inl hl
  | cons m ms ih =>
    obtain hl | ⟨a, b, rfl, heq⟩ := ih (fun m' hm' => hpoll m' (List.mem_cons_of_mem m hm')) hl
    · unfold Watch.step at hl
      dsimp only at hl
      rw [if_neg (by simp [hpoll m List.mem_cons_self])] at hl
      obtain rfl | hl := List.mem_cons.1 hl
      · exact Or.inr ⟨[m], ms, rfl, rfl⟩
      · exact Or.inl hl
    · exact Or.inr ⟨m :: a, b, rfl, heq⟩

theorem Watch.step_seen {w : Watch} {m : PowerMove} (hm : m.serves = false) : (w.step m).seen = w.seen :=
  if_neg (by simp [hm])

theorem Watch.step_now {w : Watch} {m : PowerMove} (hm : m.polls = true → w.s.client.load ≠ .idle) :
    (w.step m).now = (w.s.step m).device.log :: w.now :=
  if_neg fun h => hm h.1 h.2

/-- What was known is known after a move that begins no load. -/
theorem Watch.inv_keep {w : Watch} (h : Inv w.seen w.now w.s) {m : PowerMove}
    (hm : m.polls = true → w.s.client.load ≠ .idle) : Inv (w.step m).seen (w.step m).now w.s := by
  rw [Watch.step_now hm]
  refine h.mono (fun l hl => ?_) fun l hl => List.mem_cons_of_mem _ hl
  exact Watch.seen_mono w [m] l hl

theorem Watch.inv_step {w : Watch} (h : Inv w.seen w.now w.s) {m : PowerMove}
    (htells : Tells (w.step m).seen) : Inv (w.step m).seen (w.step m).now (w.s.step m) := by
  cases m with
  | device op => exact (Watch.inv_keep h (by simp [PowerMove.polls])).with_device _
  | poll =>
    by_cases hload : w.s.client.load = .idle
    · rw [Watch.step_seen rfl, PowerSystem.step, if_pos hload]
      exact inv_poll h _
    · have hkeep := Watch.inv_keep h (m := .poll) fun _ => hload
      rw [PowerSystem.step, if_neg hload]
      exact hkeep
  | serve battery =>
    have hnow : (w.step (.serve battery)).now = w.s.device.log :: w.now := by
      rw [Watch.step_now (by simp [PowerMove.polls]), PowerSystem.step]
      split <;> rfl
    have hkeep := Watch.inv_keep h (m := .serve battery) (by simp [PowerMove.polls])
    refine inv_serve hkeep battery ?_ List.mem_cons_self
    rw [hnow]
    exact List.mem_cons_self
  | receive =>
    have hkeep := Watch.inv_keep h (m := .receive) (by simp [PowerMove.polls])
    cases hresponse : w.s.response with
    | none =>
      have hsame : w.s.step .receive = w.s := by simp [PowerSystem.step, hresponse]
      rw [hsame]
      exact hkeep
    | some r =>
      have hgo : w.s.step .receive = w.s.goOn (w.s.client.receive r) := by
        simp [PowerSystem.step, hresponse]
      rw [hgo]
      exact inv_receive hkeep htells hresponse
  | lose => exact inv_lose (Watch.inv_keep h (by simp [PowerMove.polls]))
  | forget => exact inv_forget (Watch.inv_keep h (by simp [PowerMove.polls]))

theorem Watch.inv_run {w : Watch} (h : Inv w.seen w.now w.s) {ms : List PowerMove}
    (htells : Tells (exec Watch.step w ms).seen) :
    Inv (exec Watch.step w ms).seen (exec Watch.step w ms).now (exec Watch.step w ms).s := by
  induction ms generalizing w with
  | nil => exact h
  | cons m ms ih =>
    have hstep : Tells (w.step m).seen := fun l hl l' hl' =>
      htells l (Watch.seen_mono _ ms l hl) l' (Watch.seen_mono _ ms l' hl')
    exact ih (Watch.inv_step h hstep) htells

/-- What the client relies on: where it is served the same count twice, the log was not erased in
between, or it is empty. -/
def CountTells (device : Device) (moves : List PowerMove) : Prop :=
  ∀ a i b i' c, moves = a ++ i :: (b ++ i' :: c) → i.serves = true → i'.serves = true →
    (PowerSystem.run device a).device.log.writes =
        (PowerSystem.run device (a ++ i :: b)).device.log.writes →
      (PowerSystem.run device a).device.log.writes = 0 ∨ ∀ m ∈ b, m.erases = false

theorem CountTells.tails {device : Device} {moves : List PowerMove} (h : CountTells device moves)
    (hfew : moves.countP PowerMove.records < 2 ^ 32) {a b c : List PowerMove} {i i' : PowerMove}
    (heq : moves = a ++ i :: (b ++ i' :: c)) (hi : i.serves = true) (hi' : i'.serves = true)
    (hwrites : (PowerSystem.run device a).device.log.writes =
      (PowerSystem.run device (a ++ i :: b)).device.log.writes) :
    (rows (PowerSystem.run device a).device.log).tail =
      (rows (PowerSystem.run device (a ++ i :: b)).device.log).tail := by
  obtain hzero | herases := h a i b i' c heq hi hi' hwrites
  · rw [rows_of_writes_zero hzero, rows_of_writes_zero (hwrites ▸ hzero)]
  · have hb : (i :: b).countP PowerMove.records < 2 ^ 32 := by
      refine lt_of_le_of_lt (List.Sublist.countP_le ?_) hfew
      rw [heq, ← List.cons_append]
      exact (List.sublist_append_left (i :: b) _).trans (List.sublist_append_right a _)
    have hall : ∀ m ∈ i :: b, m.erases = false := by
      refine List.forall_mem_cons.2 ⟨?_, herases⟩
      cases i <;> simp_all [PowerMove.serves, PowerMove.erases]
    rw [PowerSystem.run, PowerSystem.run, exec_append] at hwrites ⊢
    exact tail_of_writes hb hall hwrites

theorem CountTells.tells {device : Device} {moves : List PowerMove} (h : CountTells device moves)
    (hfew : moves.countP PowerMove.records < 2 ^ 32) :
    Tells (exec Watch.step { s := { device := device } } moves).seen := by
  intro l hl l' hl' hwrites
  obtain hl | ⟨a, i, b, heq, hi, rfl⟩ := Watch.mem_seen hl
  · simp at hl
  obtain hl' | ⟨a', i', b', heq', hi', rfl⟩ := Watch.mem_seen hl'
  · simp at hl'
  -- one of the two was served first
  obtain ⟨d, hd, hrest⟩ | ⟨d, hd, hrest⟩ := List.append_eq_append_iff.1 (heq.symm.trans heq')
  · cases d with
    | nil => rw [hd, List.append_nil]
    | cons j d =>
      obtain ⟨rfl, rfl⟩ := List.cons.inj hrest
      subst hd
      exact h.tails hfew heq hi hi' hwrites
  · cases d with
    | nil => rw [hd, List.append_nil]
    | cons j d =>
      obtain ⟨rfl, rfl⟩ := List.cons.inj hrest
      subst hd
      exact (h.tails hfew heq' hi' hi hwrites.symm).symm

theorem inv_init (device : Device) : Inv [] [] { device := device } where
  request := by simp
  history := by simp
  idle := by simp
  first := by simp
  page := by simp

/-- **A load is of one moment.**  Whatever happens on the device and to the requests while a load is
under way: if it returns data, then the entries shown are the whole log, newest first, as it stood at
one moment of the load, as long as the count that the pages carry tells an erased log from the one
before. -/
theorem power_view {device : Device} {before during : List PowerMove}
    (hbefore : (PowerSystem.run device before).client.load = .idle)
    (hpoll : ∀ m ∈ during, m.polls = false)
    (hfew : (before ++ .poll :: during).countP PowerMove.records < 2 ^ 32)
    (htells : CountTells device (before ++ .poll :: during))
    (hdone : (PowerSystem.run device (before ++ .poll :: during)).client.load = .idle)
    (hok : (PowerSystem.run device (before ++ .poll :: during)).client.succeeded = true) :
    ∃ a b page, during = a ++ b ∧
      (PowerSystem.run device (before ++ .poll :: during)).client.shown = some page ∧
      page.entries = rows (PowerSystem.run device (before ++ .poll :: a)).device.log := by
  have hinv := Watch.inv_run (w := { s := { device := device } }) (inv_init device) (htells.tells hfew)
  have hrun : ∀ moves, (exec Watch.step { s := { device := device } } moves).s =
      PowerSystem.run device moves := Watch.exec_s _
  obtain ⟨l, hl, page, hpage, hentries⟩ := hinv.idle (hrun _ ▸ hdone) (hrun _ ▸ hok)
  rw [hrun] at hpage
  rw [exec_append, exec_cons] at hl
  have hpolled : ∀ a, exec PowerSystem.step ((exec Watch.step { s := { device := device } } before).step
      .poll).s a = PowerSystem.run device (before ++ .poll :: a) := by
    intro a
    rw [PowerSystem.run, exec_append, exec_cons, Watch.step, hrun]
    rfl
  obtain hl | ⟨a, b, rfl, rfl⟩ := Watch.mem_now hpoll hl
  · -- the log as the load was begun
    refine ⟨[], during, page, rfl, hpage, ?_⟩
    have hstart : l = (PowerSystem.run device before).device.log := by
      have hnow : (Watch.step _ .poll).now = [_] := if_pos ⟨rfl, (hrun before).symm ▸ hbefore⟩
      rw [hnow, hrun] at hl
      exact List.mem_singleton.1 hl
    have hsame : (PowerSystem.run device (before ++ [.poll])).device =
        (PowerSystem.run device before).device := by
      rw [PowerSystem.run, exec_append, exec_cons, exec_nil, PowerSystem.step]
      split_ifs <;> rfl
    rw [hentries, hstart, hsame]
  · exact ⟨a, b, page, rfl, hpage, by rw [hentries, hpolled]⟩

def wake : PowerMove := .device (.record { kind := .wake, batteryPct := 80, utcSec := 1000 } {})

def full : LiveStatus := ⟨100, 4200, true, true⟩

/-- A load of two pages that nothing comes into. -/
theorem load_two_pages {s : PowerSystem} {battery : LiveStatus} {p p' : PowerPage} {next : ℚ}
    (hload : s.client.load = .idle) (hhistory : s.client.powerHistory = none)
    (hp : answer s.device.log battery 0 = some p) (hnext : p.nextOffset = some next)
    (hp' : answer s.device.log battery next = some p') (hwrites : p'.writes = p.writes)
    (htotal : p'.total = p.total) (hoffset : p'.offset = next) (hend : p'.nextOffset = none) :
    exec PowerSystem.step s [.poll, .serve battery, .receive, .serve battery, .receive] =
      s.goOn (s.client.poll.more p (p.entries ++ p'.entries) none) := by
  simp [PowerSystem.step, PowerSystem.goOn, PowerLogs.poll, PowerLogs.asks, PowerLogs.receive,
    PowerLogs.receiveFirst, PowerLogs.more, hload, hhistory, hp, hnext, hp', hwrites, htotal, hoffset,
    hend]

/-- A load that finds its history, and an operation behind the answer. -/
theorem load_again {s : PowerSystem} {battery : LiveStatus} {p : PowerPage} {h : PowerHistory} {op : Op}
    (hload : s.client.load = .idle) (hhistory : s.client.powerHistory = some h)
    (hp : answer s.device.log battery 0 = some p) (hwrites : h.writes = p.writes)
    (htotal : h.total = p.total) (hkey : h.firstPageKey = p.entries) :
    (exec PowerSystem.step s [.poll, .serve battery, .device op, .receive]).client.load = .idle ∧
      (exec PowerSystem.step s [.poll, .serve battery, .device op, .receive]).client.succeeded = true := by
  simp [PowerSystem.step, PowerSystem.goOn, PowerLogs.poll, PowerLogs.asks, PowerLogs.receive,
    PowerLogs.receiveFirst, hload, hhistory, hp, hwrites, htotal, hkey]

/-- Thirteen wakes, and a load of their two pages. -/
def wakes : List PowerMove :=
  List.replicate 13 wake ++ [.poll, .serve full, .receive, .serve full, .receive]

/-- The next load, of the first page only, with one more wake behind the answer. -/
def nextLoad : List PowerMove := [.serve full, wake, .receive]

theorem power_view_wakes :
    ∃ a b page, nextLoad = a ++ b ∧
      (PowerSystem.run {} (wakes ++ .poll :: nextLoad)).client.shown = some page ∧
      page.entries = rows (PowerSystem.run {} (wakes ++ .poll :: a)).device.log := by
  let s : PowerSystem := PowerSystem.run {} (List.replicate 13 wake)
  have hlen : (rows s.device.log).length = 13 := by
    rw [length_rows, PowerEventLog.snapshot, List.length_map, List.length_range]
    rfl
  have hp : answer s.device.log full 0 = some (pageOf s.device.log full 0) := by
    exact_mod_cast answer_natCast s.device.log full (Nat.zero_le CAP)
  have hp' : answer s.device.log full (12 : ℕ) = some (pageOf s.device.log full 12) :=
    answer_natCast s.device.log full (by decide)
  have hnext : (pageOf s.device.log full 0).nextOffset = some ((12 : ℕ) : ℚ) := by
    rw [pageOf_nextOffset s.device.log full (Nat.zero_le _), hlen]
    rfl
  have hend : (pageOf s.device.log full 12).nextOffset = none := by
    rw [pageOf_nextOffset s.device.log full (by omega), hlen]
    rfl
  have hoffset : (pageOf s.device.log full 12).offset = ((12 : ℕ) : ℚ) := by
    rw [length_rows] at hlen
    simp [pageOf, hlen]
  have hloaded : PowerSystem.run {} wakes = s.goOn (s.client.more (pageOf s.device.log full 0)
      ((pageOf s.device.log full 0).entries ++ (pageOf s.device.log full 12).entries) none) := by
    rw [wakes, PowerSystem.run, exec_append]
    exact load_two_pages rfl rfl hp hnext hp' rfl rfl hoffset hend
  -- the next load finds the history of this one
  have hrun : PowerSystem.run {} (wakes ++ .poll :: nextLoad) =
      exec PowerSystem.step (PowerSystem.run {} wakes) (.poll :: nextLoad) := exec_append ..
  obtain ⟨hdone, hok⟩ : (exec PowerSystem.step (PowerSystem.run {} wakes)
      (.poll :: nextLoad)).client.load = .idle ∧
      (exec PowerSystem.step (PowerSystem.run {} wakes) (.poll :: nextLoad)).client.succeeded = true := by
    rw [hloaded]
    exact load_again rfl rfl hp rfl rfl rfl
  refine power_view (by rw [hloaded]; rfl) (by decide) (by decide) ?_ (by rw [hrun]; exact hdone)
    (by rw [hrun]; exact hok)
  intro a i b i' c hmoves _ _ _
  refine .inr fun m hm => ?_
  have hmem : m ∈ wakes ++ .poll :: nextLoad := by
    rw [hmoves]
    simp [hm]
  have hkeeps : ∀ m ∈ wakes ++ .poll :: nextLoad, m.erases = false := by decide
  exact hkeeps m hmem

end Pumpbug.Power
