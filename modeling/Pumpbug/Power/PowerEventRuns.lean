import Pumpbug.Power.PowerEventLog
import Pumpbug.Lib.Entries

/-!
# The power event log over runs

The book of a device is the list of the events since the last clear, and the list that a reboot
brings back. The ring is the end of that list at every position of the counter, whatever the flash
does.
-/

namespace Pumpbug.Power

open Lib

/-! ## The ring -/

/-- The ring holds the end of the log, each event in the slot of its number. -/
structure Ring (items : List PowerEvent) (writes : U32) (log : List PowerEvent) : Prop where
  count : writes.toNat = log.length
  slots : items.length = CAP
  held : ∀ j < log.length, log.length ≤ j + CAP → items.getD (j % CAP) {} = log.getD j {}

section Ring

variable {items log : List PowerEvent} {writes : U32}

theorem ring_nil : Ring (List.replicate CAP {}) 0 [] where
  count := rfl
  slots := List.length_replicate ..
  held j hj := absurd hj (Nat.not_lt_zero j)

theorem slot_lt (k : ℕ) : k % CAP < CAP := Nat.mod_lt k (by decide)

/-- Numbers less than a turn of the ring apart have different slots. -/
theorem slot_ne {j k : ℕ} (hjk : j < k) (hturn : k < j + CAP) : j % CAP ≠ k % CAP := by
  unfold CAP at *
  omega

/-- One more event, over the oldest once the ring is full. -/
theorem Ring.record (h : Ring items writes log) (hfew : log.length + 1 < 2 ^ 32) (e : PowerEvent) :
    Ring (items.set (writes.toNat % CAP) e) (writes + 1) (log ++ [e]) where
  count := by
    rw [List.length_append, List.length_singleton, BitVec.toNat_add, h.count]
    exact Nat.mod_eq_of_lt hfew
  slots := by
    rw [List.length_set]
    exact h.slots
  held j hj hlast := by
    have hcap : CAP = 32 := rfl
    rw [List.length_append, List.length_singleton] at hj hlast
    rw [h.count, getD_set ({} : PowerEvent) e (by rw [h.slots]; exact slot_lt _), getD_concat]
    by_cases hnew : j = log.length
    · rw [if_pos (by rw [hnew]), if_neg (by omega), if_pos hnew]
    · rw [if_neg (slot_ne (by omega) (by omega)), if_pos (by omega)]
      exact h.held j (by omega) (by omega)

/-- The slot of the newest event. -/
theorem Ring.newest (h : Ring items writes log) (hne : log ≠ []) :
    (writes - 1).toNat = log.length - 1 := by
  have hpos := List.length_pos_iff.2 hne
  have hcount := h.count
  have hone : (1 : U32) ≤ writes := by
    rw [BitVec.le_def]
    show 1 ≤ writes.toNat
    omega
  rw [BitVec.toNat_sub_of_le hone, hcount]
  rfl

theorem Ring.latest (h : Ring items writes log) {e : PowerEvent} (he : e ∈ log.getLast?) :
    items.getD ((writes - 1).toNat % CAP) {} = e := by
  have hne : log ≠ [] := by
    rintro rfl
    exact absurd he nofun
  have hpos := List.length_pos_iff.2 hne
  have hcap : CAP = 32 := rfl
  rw [h.newest hne, h.held _ (by omega) (by omega)]
  exact getD_getLast {} he

/-- The newest event replaced. -/
theorem Ring.replace (h : Ring items writes log) (hne : log ≠ []) (e : PowerEvent) :
    Ring (items.set ((writes - 1).toNat % CAP) e) writes (log.dropLast ++ [e]) where
  count := by
    have hpos := List.length_pos_iff.2 hne
    rw [List.length_append, List.length_singleton, List.length_dropLast, h.count]
    omega
  slots := by
    rw [List.length_set]
    exact h.slots
  held j hj hlast := by
    have hcap : CAP = 32 := rfl
    have hpos := List.length_pos_iff.2 hne
    rw [List.length_append, List.length_singleton, List.length_dropLast] at hj hlast
    rw [h.newest hne, getD_set ({} : PowerEvent) e (by rw [h.slots]; exact slot_lt _), getD_concat,
      List.length_dropLast]
    by_cases hnew : j = log.length - 1
    · rw [if_pos (by rw [hnew]), if_neg (by omega), if_pos hnew]
    · have hold : log.dropLast.getD j {} = log.getD j {} := by
        rw [List.getD_eq_getElem?_getD, List.getElem?_dropLast, if_pos (by omega),
          List.getD_eq_getElem?_getD]
      rw [if_neg (slot_ne (by omega) (by omega)), if_pos (by omega), hold]
      exact h.held j (by omega) (by omega)

/-- **Newest first.** The snapshot is the end of the log, reversed. -/
theorem Ring.snapshot {l : PowerEventLog} (h : Ring l.items l.writes log) (hfew : log.length < 2 ^ 32)
    (max : ℕ) : l.snapshot max = (log.reverse.take CAP).take max := by
  have hcap : CAP = 32 := rfl
  have hcount := h.count
  have hn : (if (if l.writes.toNat < CAP then l.writes.toNat else CAP) < max then
      (if l.writes.toNat < CAP then l.writes.toNat else CAP) else max) =
      ((log.reverse.take CAP).take max).length := by
    rw [List.length_take, List.length_take, List.length_reverse]
    split_ifs <;> omega
  unfold PowerEventLog.snapshot
  dsimp only
  rw [hn]
  refine List.ext_getElem (by rw [List.length_map, List.length_range]) ?_
  intro i h₁ h₂
  have hi : i < log.length := by
    rw [List.length_take, List.length_take, List.length_reverse] at h₂
    omega
  have hrecent : i < CAP := by
    rw [List.length_take, List.length_take] at h₂
    omega
  have hne : log ≠ [] := by
    rintro rfl
    exact absurd hi (Nat.not_lt_zero i)
  have hslot : (l.writes - 1 - BitVec.ofNat 32 i).toNat = log.length - 1 - i := by
    have hsmall : (BitVec.ofNat 32 i).toNat = i := by
      rw [BitVec.toNat_ofNat]
      exact Nat.mod_eq_of_lt (by omega)
    rw [BitVec.toNat_sub_of_le, h.newest hne, hsmall]
    rw [BitVec.le_def, h.newest hne, hsmall]
    omega
  rw [List.getElem_map, List.getElem_range, hslot, h.held _ (by omega) (by omega), List.getElem_take,
    List.getElem_take, List.getElem_reverse, List.getD_eq_getElem _ _ (by omega)]

end Ring

/-! ## The book -/

/-- The events since the last clear, and those that a reboot brings back. -/
structure Book where
  log : List PowerEvent := []
  saved : List PowerEvent := []

namespace Book

/-- A backfill gives a time to the newest event, if that is an untimed wake and the log is saved. -/
def step (b : Book) : Op → Book
  | .record e n =>
    let log := b.log ++ [e.event]
    { log := log, saved := if n.ok then log else b.saved }
  | .backfill utcSec n =>
    match b.log.getLast? with
    | some e =>
      if utcSec ≠ 0 ∧ e.kind = PowerEventKind.wake.toByte ∧ e.utcSec = 0 ∧ n.ok then
        let log := b.log.dropLast ++ [{ e with utcSec := utcSec }]
        { log := log, saved := log }
      else b
    | none => b
  | .clear n => { log := [], saved := if n.ok then [] else b.saved }
  | .reboot n => { log := if n.ok then b.saved else [], saved := b.saved }

end Book

/-- The book of the operations `h`. -/
def book (h : List Op) : Book := exec Book.step {} h

/-! ## The operations -/

section Operations

variable {l : PowerEventLog} {stored : Option Blob} {n : Nvs}

/-- The blob of a log. -/
def PowerEventLog.blob (l : PowerEventLog) : Blob :=
  .ring { version := kVersion, writes := l.writes, items := l.items }

theorem persist_eq (l : PowerEventLog) (stored : Option Blob) (n : Nvs) :
    l.persist stored n = if n.ok then (some l.blob, true) else (stored, false) := by
  unfold PowerEventLog.persist Nvs.ok
  cases n.opens with
  | false => rfl
  | true => rfl

/-- The newest event is an untimed wake. -/
def PowerEventLog.untimedWake (l : PowerEventLog) : Bool :=
  l.writes ≠ 0 && (l.items.getD l.newest {}).kind = PowerEventKind.wake.toByte &&
    (l.items.getD l.newest {}).utcSec = 0

/-- The newest event with a time. -/
def PowerEventLog.timed (l : PowerEventLog) (utcSec : U32) : List PowerEvent :=
  l.items.set l.newest { l.items.getD l.newest {} with utcSec := utcSec }

theorem set_getD (items : List PowerEvent) (i : ℕ) : items.set i (items.getD i {}) = items := by
  refine List.ext_getElem (List.length_set ..) ?_
  intro k h₁ h₂
  rw [List.getElem_set]
  split_ifs with h
  · subst h
    exact List.getD_eq_getElem _ _ h₂
  · rfl

/-- **A backfill** gives the time and saves it, or changes nothing. -/
theorem backfill_eq (l : PowerEventLog) (stored : Option Blob) (utcSec : U32) (n : Nvs) :
    l.backfillLatestWakeTimestamp stored utcSec n =
      if utcSec ≠ 0 ∧ l.untimedWake = true ∧ n.ok = true then
        ({ l with items := l.timed utcSec, revision := l.revision + 1 },
          some { l with items := l.timed utcSec }.blob, true)
      else (l, stored, false) := by
  unfold PowerEventLog.backfillLatestWakeTimestamp PowerEventLog.untimedWake
  by_cases hzero : utcSec = 0
  · rw [if_pos hzero, if_neg (by simp [hzero])]
  rw [if_neg hzero]
  by_cases hnone : l.writes = 0
  · rw [if_pos hnone, if_neg (by simp [hnone])]
  rw [if_neg hnone]
  dsimp only
  by_cases hwake : (l.items.getD l.newest {}).kind = PowerEventKind.wake.toByte ∧
      (l.items.getD l.newest {}).utcSec = 0
  · rw [if_pos hwake, persist_eq]
    cases hok : n.ok with
    | true =>
      have hgo : utcSec ≠ 0 ∧ (decide (l.writes ≠ 0) &&
          decide ((l.items.getD l.newest {}).kind = PowerEventKind.wake.toByte) &&
            decide ((l.items.getD l.newest {}).utcSec = 0)) = true ∧ true = true :=
        ⟨hzero, by rw [decide_eq_true hnone, decide_eq_true hwake.1, decide_eq_true hwake.2]; rfl, rfl⟩
      rw [if_pos rfl, if_pos hgo]
      rfl
    | false =>
      have hback : { l.items.getD l.newest {} with utcSec := (0 : U32) } = l.items.getD l.newest {} := by
        generalize l.items.getD l.newest {} = e at hwake
        rw [← hwake.2]
      rw [if_neg Bool.false_ne_true, if_neg Bool.false_ne_true, if_neg (by simp), List.set_set, hback,
        set_getD]
  · rw [if_neg hwake, if_neg]
    rintro ⟨-, h, -⟩
    simp only [Bool.and_eq_true, decide_eq_true_eq] at h
    exact hwake ⟨h.1.2, h.2⟩

theorem begin_of_not_ok (hn : n.ok = false) : l.begin stored n = l := by
  unfold Nvs.ok at hn
  unfold PowerEventLog.begin
  cases hopens : n.opens with
  | false => rfl
  | true =>
    rw [hopens, Bool.true_and] at hn
    rw [hn]
    rfl

theorem begin_blob (hn : n.ok = true) (l' : PowerEventLog) :
    l.begin (some l'.blob) n = { l with writes := l'.writes, items := l'.items } := by
  unfold Nvs.ok at hn
  obtain ⟨hopens, hsucceeds⟩ := Bool.and_eq_true_iff.1 hn
  unfold PowerEventLog.begin
  rw [hopens, hsucceeds]
  rfl

theorem begin_none (n : Nvs) : l.begin none n = l := by
  unfold PowerEventLog.begin
  split_ifs <;> rfl

end Operations

/-! ## The device keeps the book -/

/-- The blob holds the events `saved`. -/
def Holds (stored : Option Blob) (saved : List PowerEvent) : Prop :=
  (stored = none ∧ saved = []) ∨ ∃ l : PowerEventLog, stored = some l.blob ∧ Ring l.items l.writes saved

structure Kept (d : Device) (b : Book) : Prop where
  ring : Ring d.log.items d.log.writes b.log
  holds : Holds d.stored b.saved

/-- The operation records an event. -/
def Op.records : Op → Bool
  | .record .. => true
  | _ => false

section Refinement

variable {d : Device} {b : Book} {op : Op}

theorem Ring.untimedWake_iff {l : PowerEventLog} {log : List PowerEvent}
    (h : Ring l.items l.writes log) : l.untimedWake = true ↔
      ∃ e ∈ log.getLast?, e.kind = PowerEventKind.wake.toByte ∧ e.utcSec = 0 := by
  unfold PowerEventLog.untimedWake PowerEventLog.newest
  cases hlast : log.getLast? with
  | none =>
    have hzero : l.writes = 0 := by
      rw [List.getLast?_eq_none_iff] at hlast
      have hcount := h.count
      rw [hlast] at hcount
      exact BitVec.eq_of_toNat_eq hcount
    simp [hzero]
  | some e =>
    have hnonzero : l.writes ≠ 0 := by
      intro hzero
      have hcount := h.count
      rw [hzero] at hcount
      have hnil := List.length_eq_zero_iff.1 hcount.symm
      rw [hnil] at hlast
      exact absurd hlast nofun
    rw [h.latest hlast, decide_eq_true hnonzero, Bool.true_and]
    simp

theorem kept_record (h : Kept d b) (hfew : b.log.length + 1 < 2 ^ 32) (e : Entry) (n : Nvs) :
    Kept (d.step (.record e n)) (b.step (.record e n)) where
  ring := h.ring.record hfew e.event
  holds := by
    have hring := h.ring.record hfew e.event
    unfold Device.step Book.step PowerEventLog.record
    dsimp only
    rw [persist_eq]
    cases n.ok with
    | false => exact h.holds
    | true => exact .inr ⟨_, rfl, hring⟩

theorem kept_backfill (h : Kept d b) (utcSec : U32) (n : Nvs) :
    Kept (d.step (.backfill utcSec n)) (b.step (.backfill utcSec n)) := by
  have hwake := h.ring.untimedWake_iff
  unfold Device.step Book.step
  dsimp only
  rw [backfill_eq]
  cases hlast : b.log.getLast? with
  | none =>
    have hnot : ¬ (utcSec ≠ 0 ∧ d.log.untimedWake = true ∧ n.ok = true) := by
      rintro ⟨-, huntimed, -⟩
      obtain ⟨e, he, -⟩ := hwake.1 huntimed
      rw [hlast] at he
      exact absurd he nofun
    rw [if_neg hnot]
    exact h
  | some e =>
    dsimp only
    by_cases hgo : utcSec ≠ 0 ∧ e.kind = PowerEventKind.wake.toByte ∧ e.utcSec = 0 ∧ n.ok = true
    · have hne : b.log ≠ [] := by
        intro hnil
        rw [hnil] at hlast
        exact absurd hlast nofun
      have hring := h.ring.replace hne { e with utcSec := utcSec }
      have htimed : d.log.timed utcSec =
          d.log.items.set ((d.log.writes - 1).toNat % CAP) { e with utcSec := utcSec } := by
        unfold PowerEventLog.timed PowerEventLog.newest
        rw [h.ring.latest hlast]
      rw [← htimed] at hring
      rw [if_pos hgo, if_pos ⟨hgo.1, hwake.2 ⟨e, hlast, hgo.2.1, hgo.2.2.1⟩, hgo.2.2.2⟩]
      exact ⟨hring, .inr ⟨_, rfl, hring⟩⟩
    · have hnot : ¬ (utcSec ≠ 0 ∧ d.log.untimedWake = true ∧ n.ok = true) := by
        rintro ⟨hutc, huntimed, hok⟩
        obtain ⟨e', he', hkind, hzero⟩ := hwake.1 huntimed
        rw [hlast] at he'
        rw [← Option.some.inj he'] at hkind hzero
        exact hgo ⟨hutc, hkind, hzero, hok⟩
      rw [if_neg hgo, if_neg hnot]
      exact h

theorem clear_eq (l : PowerEventLog) (stored : Option Blob) (n : Nvs) :
    l.clear stored n = ({ l with
      writes := 0, items := List.replicate CAP {}, revision := l.revision + 1 },
        if n.ok then none else stored, n.ok) := by
  unfold PowerEventLog.clear Nvs.ok
  cases n.opens with
  | false => rfl
  | true =>
    cases n.succeeds with
    | false => rfl
    | true => rfl

theorem kept_clear (h : Kept d b) (n : Nvs) : Kept (d.step (.clear n)) (b.step (.clear n)) := by
  unfold Device.step Book.step
  dsimp only
  rw [clear_eq]
  refine ⟨ring_nil, ?_⟩
  cases n.ok with
  | false => exact h.holds
  | true => exact .inl ⟨rfl, rfl⟩

theorem kept_reboot (h : Kept d b) (n : Nvs) : Kept (d.step (.reboot n)) (b.step (.reboot n)) := by
  unfold Device.step Book.step
  dsimp only
  refine ⟨?_, h.holds⟩
  cases hok : n.ok with
  | false =>
    rw [begin_of_not_ok hok]
    exact ring_nil
  | true =>
    rw [if_pos rfl]
    rcases h.holds with ⟨hnone, hsaved⟩ | ⟨l, hblob, hring⟩
    · rw [hnone, hsaved, begin_none]
      exact ring_nil
    · rw [hblob, begin_blob hok]
      exact hring

/-- The lists of the book grow by one event at most. -/
theorem Book.step_length {m : ℕ} (hlog : b.log.length ≤ m) (hsaved : b.saved.length ≤ m) :
    (b.step op).log.length ≤ m + (if op.records then 1 else 0) ∧
      (b.step op).saved.length ≤ m + (if op.records then 1 else 0) := by
  cases op with
  | record e n =>
    have hone : (b.log ++ [e.event]).length ≤ m + 1 := by
      rw [List.length_append, List.length_singleton]
      omega
    refine ⟨hone, ?_⟩
    show (if n.ok then b.log ++ [e.event] else b.saved).length ≤ m + 1
    split_ifs
    · exact hone
    · omega
  | backfill utcSec n =>
    show (b.step _).log.length ≤ m ∧ (b.step _).saved.length ≤ m
    unfold Book.step
    dsimp only
    split
    · rename_i e he
      have hpos : 0 < b.log.length := List.length_pos_of_mem (List.mem_of_getLast? he)
      have hsame : (b.log.dropLast ++ [{ e with utcSec := utcSec }]).length ≤ m := by
        rw [List.length_append, List.length_singleton, List.length_dropLast]
        omega
      split_ifs
      · exact ⟨hsame, hsame⟩
      · exact ⟨hlog, hsaved⟩
    · exact ⟨hlog, hsaved⟩
  | clear n =>
    refine ⟨Nat.zero_le _, ?_⟩
    show (if n.ok then [] else b.saved).length ≤ m
    split_ifs
    · exact Nat.zero_le _
    · exact hsaved
  | reboot n =>
    refine ⟨?_, hsaved⟩
    show (if n.ok then b.saved else []).length ≤ m
    split_ifs
    · exact hsaved
    · exact Nat.zero_le _

theorem book_length (h : List Op) :
    (book h).log.length ≤ h.countP Op.records ∧ (book h).saved.length ≤ h.countP Op.records := by
  induction h using List.reverseRecOn with
  | nil => exact ⟨Nat.le_refl _, Nat.le_refl _⟩
  | append_singleton h op ih =>
    unfold book at *
    rw [exec_append, exec_cons, exec_nil, List.countP_append, List.countP_singleton]
    exact Book.step_length ih.1 ih.2

/-- **The device keeps the book.** -/
theorem kept (h : List Op) (hfew : h.countP Op.records < 2 ^ 32) : Kept (Device.after h) (book h) := by
  induction h using List.reverseRecOn with
  | nil => exact ⟨ring_nil, .inl ⟨rfl, rfl⟩⟩
  | append_singleton h op ih =>
    rw [List.countP_append, List.countP_singleton] at hfew
    have hkept := ih (by omega)
    have hlen := (book_length h).1
    unfold Device.after book at *
    rw [exec_append, exec_cons, exec_nil, exec_append, exec_cons, exec_nil]
    cases op with
    | record e n =>
      rw [if_pos (show Op.records (.record e n) = true from rfl)] at hfew
      exact kept_record hkept (by omega) e n
    | backfill utcSec n => exact kept_backfill hkept utcSec n
    | clear n => exact kept_clear hkept n
    | reboot n => exact kept_reboot hkept n

end Refinement

/-! ## What a reboot brings back -/

/-- The part of the log that is stored. -/
def PowerEventLog.memory (l : PowerEventLog) : List PowerEvent × U32 := (l.items, l.writes)

/-- No step of the run writes the log to flash or wipes it. -/
def Unsaved (d : Device) (h : List Op) : Prop :=
  Along Device.step (fun d op => d.persists op = false ∧ op.wipes = false) d h

section Reboot

variable {d d' : Device} {op : Op}

theorem after_concat (h : List Op) (op : Op) : Device.after (h ++ [op]) = (Device.after h).step op := by
  unfold Device.after
  rw [exec_append, exec_cons, exec_nil]

theorem stored_of_persists (hp : d.persists op = true) :
    (d.step op).stored = some (d.step op).log.blob := by
  cases op with
  | record e n =>
    have hok : n.ok = true := hp
    unfold Device.step PowerEventLog.record
    dsimp only
    rw [persist_eq, if_pos hok]
  | backfill utcSec n =>
    unfold Device.persists at hp
    unfold Device.step
    dsimp only at hp ⊢
    rw [backfill_eq] at hp ⊢
    split_ifs at hp ⊢
    rfl
  | clear n => exact absurd hp Bool.false_ne_true
  | reboot n => exact absurd hp Bool.false_ne_true

theorem stored_of_wipes (hw : op.wipes = true) : (d.step op).stored = none := by
  cases op with
  | clear n =>
    unfold Device.step
    dsimp only
    rw [clear_eq, if_pos (show n.ok = true from hw)]
  | record e n => exact absurd hw Bool.false_ne_true
  | backfill utcSec n => exact absurd hw Bool.false_ne_true
  | reboot n => exact absurd hw Bool.false_ne_true

/-- Any other operation leaves what is stored. -/
theorem stored_step (hp : d.persists op = false) (hw : op.wipes = false) :
    (d.step op).stored = d.stored := by
  cases op with
  | record e n =>
    have hok : ¬ n.ok = true := by
      rw [show n.ok = false from hp]
      exact Bool.false_ne_true
    unfold Device.step PowerEventLog.record
    dsimp only
    rw [persist_eq, if_neg hok]
  | backfill utcSec n =>
    unfold Device.persists at hp
    unfold Device.step
    dsimp only at hp ⊢
    rw [backfill_eq] at hp ⊢
    split_ifs at hp ⊢
    rfl
  | clear n =>
    have hok : ¬ n.ok = true := by
      rw [show n.ok = false from hw]
      exact Bool.false_ne_true
    unfold Device.step
    dsimp only
    rw [clear_eq, if_neg hok]
  | reboot n => rfl

theorem stored_unsaved {h : List Op} (hu : Unsaved d h) : (exec Device.step d h).stored = d.stored := by
  refine hu.exec_invariant (fun d' => d'.stored = d.stored) ?_ rfl
  rintro d' op hd' ⟨hp, hw⟩
  rw [stored_step hp hw, hd']

theorem reboot_of_none (hd : d.stored = none) (n : Nvs) : (d.step (.reboot n)).log = {} := by
  unfold Device.step
  dsimp only
  rw [hd, begin_none]

theorem reboot_of_blob {l : PowerEventLog} (hd : d.stored = some l.blob) {n : Nvs} (hn : n.ok = true) :
    (d.step (.reboot n)).log.memory = l.memory := by
  unfold Device.step
  dsimp only
  rw [hd, begin_blob hn]
  rfl

/-! ## A clear that succeeds -/

/-- The same but for the revision. -/
def SameMemory (d d' : Device) : Prop := d.log.memory = d'.log.memory ∧ d.stored = d'.stored

theorem SameMemory.step (h : SameMemory d d') (op : Op) : SameMemory (d.step op) (d'.step op) := by
  obtain ⟨⟨items, writes, revision⟩, stored⟩ := d
  obtain ⟨⟨items', writes', revision'⟩, stored'⟩ := d'
  obtain ⟨hmemory, hstored⟩ := h
  obtain ⟨rfl, rfl⟩ := Prod.mk.inj hmemory
  obtain rfl : stored = stored' := hstored
  cases op with
  | record e n =>
    unfold Device.step PowerEventLog.record
    dsimp only
    rw [persist_eq, persist_eq]
    exact ⟨rfl, rfl⟩
  | backfill utcSec n =>
    have hwake : PowerEventLog.untimedWake ⟨items, writes, revision⟩ =
        PowerEventLog.untimedWake ⟨items, writes, revision'⟩ := rfl
    unfold Device.step
    dsimp only
    rw [backfill_eq, backfill_eq, hwake]
    split_ifs <;> exact ⟨rfl, rfl⟩
  | clear n =>
    unfold Device.step
    dsimp only
    rw [clear_eq, clear_eq]
    exact ⟨rfl, rfl⟩
  | reboot n => exact ⟨rfl, rfl⟩

theorem SameMemory.exec (h : SameMemory d d') (post : List Op) :
    SameMemory (exec Device.step d post) (exec Device.step d' post) := by
  induction post generalizing d d' with
  | nil => exact h
  | cons op post ih => exact ih (h.step op)

/-- After a clear that returns true the device is a new one. -/
theorem sameMemory_wiped (hw : op.wipes = true) : SameMemory (d.step op) {} := by
  refine ⟨?_, stored_of_wipes hw⟩
  cases op with
  | clear n =>
    unfold Device.step
    dsimp only
    rw [clear_eq]
    rfl
  | record e n => exact absurd hw Bool.false_ne_true
  | backfill utcSec n => exact absurd hw Bool.false_ne_true
  | reboot n => exact absurd hw Bool.false_ne_true

end Reboot

/-! ## Failures within a boot -/

/-- The same operation within a boot, whatever the flash does to a record or a clear. -/
def Op.SameCall : Op → Op → Prop
  | .record e _, .record e' _ => e = e'
  | .backfill utcSec n, .backfill utcSec' n' => utcSec = utcSec' ∧ n.ok = n'.ok
  | .clear _, .clear _ => True
  | _, _ => False

theorem Book.step_log {b b' : Book} (hb : b.log = b'.log) {op op' : Op} (hop : op.SameCall op') :
    (b.step op).log = (b'.step op').log := by
  cases op with
  | record e n =>
    cases op' with
    | record e' n' =>
      obtain rfl : e = e' := hop
      show b.log ++ [e.event] = b'.log ++ [e.event]
      rw [hb]
    | _ => exact hop.elim
  | backfill utcSec n =>
    cases op' with
    | backfill utcSec' n' =>
      obtain ⟨rfl, hok⟩ := hop
      unfold Book.step
      dsimp only
      rw [hb, hok]
      split
      · split_ifs
        · rfl
        · exact hb
      · exact hb
    | _ => exact hop.elim
  | clear n =>
    cases op' with
    | clear n' => rfl
    | _ => exact hop.elim
  | reboot n =>
    cases op' with
    | _ => exact hop.elim

theorem Book.exec_log {b b' : Book} (hb : b.log = b'.log) {post post' : List Op}
    (hpost : List.Forall₂ Op.SameCall post post') :
    (exec Book.step b post).log = (exec Book.step b' post').log := by
  induction hpost generalizing b b' with
  | nil => exact hb
  | cons hop _ ih => exact ih (Book.step_log hb hop)

theorem countP_sameCall {post post' : List Op} (hpost : List.Forall₂ Op.SameCall post post') :
    post.countP Op.records = post'.countP Op.records := by
  induction hpost with
  | nil => rfl
  | @cons op op' _ _ hop _ ih =>
    have hsame : op.records = op'.records := by
      cases op with
      | record e n => cases op' with | record e' n' => rfl | _ => exact hop.elim
      | backfill utcSec n => cases op' with | backfill utcSec' n' => rfl | _ => exact hop.elim
      | clear n => cases op' with | clear n' => rfl | _ => exact hop.elim
      | reboot n => exact hop.elim
    rw [List.countP_cons, List.countP_cons, ih, hsame]

/-! ## The result -/

/-- What the log of a device keeps through the operations `h`. -/
structure Keeps (h : List Op) : Prop where
  snapshot : ∀ max, (Device.after h).log.snapshot max = ((book h).log.reverse.take CAP).take max
  independent : ∀ pre post post', h = pre ++ post → List.Forall₂ Op.SameCall post post' → ∀ max,
    (Device.after (pre ++ post')).log.snapshot max = (Device.after h).log.snapshot max
  saved : ∀ pre op post n, h = pre ++ op :: post → (Device.after pre).persists op = true →
    Unsaved (Device.after (pre ++ [op])) post → n.ok = true →
      (Device.after (h ++ [.reboot n])).log.memory = (Device.after (pre ++ [op])).log.memory
  wiped : ∀ pre op post n, h = pre ++ op :: post → op.wipes = true →
    Unsaved (Device.after (pre ++ [op])) post → (Device.after (h ++ [.reboot n])).log = {}
  unsaved : ∀ n, Unsaved {} h → (Device.after (h ++ [.reboot n])).log = {}
  unread : ∀ n : Nvs, n.ok = false → (Device.after (h ++ [.reboot n])).log = {}
  backfillFails : ∀ utcSec n, let d := Device.after h
    let r := d.log.backfillLatestWakeTimestamp d.stored utcSec n
    r.2.2 = false → r.1 = d.log ∧ r.2.1 = d.stored
  backfills : ∀ utcSec n, let d := Device.after h
    let r := d.log.backfillLatestWakeTimestamp d.stored utcSec n
    r.2.2 = true → utcSec ≠ 0 ∧ n.ok = true ∧ r.1.revision = d.log.revision + 1 ∧
      ∃ e rest, d.log.snapshot CAP = e :: rest ∧ e.kind = PowerEventKind.wake.toByte ∧ e.utcSec = 0 ∧
        r.1.snapshot CAP = { e with utcSec := utcSec } :: rest
  gone : ∀ pre op post, h = pre ++ op :: post → op.wipes = true →
    SameMemory (Device.after h) (Device.after post)

section Result

variable {h : List Op}

theorem snapshot_eq (hfew : h.countP Op.records < 2 ^ 32) (max : ℕ) :
    (Device.after h).log.snapshot max = ((book h).log.reverse.take CAP).take max :=
  (kept h hfew).ring.snapshot ((book_length h).1.trans_lt hfew) max

/-- The newest event, on top of the snapshot. -/
theorem snapshot_concat {l : PowerEventLog} {log : List PowerEvent} {e : PowerEvent}
    (hr : Ring l.items l.writes (log ++ [e])) (hfew : (log ++ [e]).length < 2 ^ 32) :
    l.snapshot CAP = e :: log.reverse.take (CAP - 1) := by
  rw [hr.snapshot hfew, List.take_take, Nat.min_self, List.reverse_append]
  rfl

theorem backfill_snapshot (hfew : h.countP Op.records < 2 ^ 32) {utcSec : U32} {n : Nvs}
    (hback : ((Device.after h).log.backfillLatestWakeTimestamp (Device.after h).stored utcSec n).2.2 =
      true) : utcSec ≠ 0 ∧ n.ok = true ∧
    ((Device.after h).log.backfillLatestWakeTimestamp (Device.after h).stored utcSec n).1.revision =
      (Device.after h).log.revision + 1 ∧
    ∃ e rest, (Device.after h).log.snapshot CAP = e :: rest ∧
      e.kind = PowerEventKind.wake.toByte ∧ e.utcSec = 0 ∧
      ((Device.after h).log.backfillLatestWakeTimestamp (Device.after h).stored utcSec n).1.snapshot CAP =
        { e with utcSec := utcSec } :: rest := by
  have hring := (kept h hfew).ring
  have hlen := (book_length h).1.trans_lt hfew
  rw [backfill_eq] at hback ⊢
  generalize Device.after h = d at *
  generalize (book h).log = log at *
  split_ifs at hback ⊢ with hgo
  obtain ⟨hutc, huntimed, hok⟩ := hgo
  obtain ⟨e, he, hkind, hzero⟩ := hring.untimedWake_iff.1 huntimed
  have hne : log ≠ [] := by
    rintro rfl
    exact absurd he nofun
  have hlog : log.dropLast ++ [e] = log := List.dropLast_append_getLast? e he
  have hnew := hring.replace hne { e with utcSec := utcSec }
  have htimed : d.log.timed utcSec =
      d.log.items.set ((d.log.writes - 1).toNat % CAP) { e with utcSec := utcSec } := by
    unfold PowerEventLog.timed PowerEventLog.newest
    rw [hring.latest he]
  rw [← htimed] at hnew
  refine ⟨hutc, hok, rfl, e, log.dropLast.reverse.take (CAP - 1), ?_, hkind, hzero, ?_⟩
  · rw [← hlog] at hring hlen
    exact snapshot_concat hring hlen
  · refine snapshot_concat hnew ?_
    rw [List.length_append, List.length_singleton, List.length_dropLast]
    have hpos := List.length_pos_iff.2 hne
    omega

/-- **The log is kept.** The snapshot is the end of the book, whatever fails within a boot; a reboot
brings back the last log that was saved, or none after a clear that succeeded, and an empty one if
the flash cannot be read; a backfill changes the newest event or nothing; and after a clear that
succeeded the device is as new. -/
theorem log_kept (hfew : h.countP Op.records < 2 ^ 32) : Keeps h where
  snapshot := snapshot_eq hfew
  independent pre post post' hsplit hpost max := by
    subst hsplit
    have hcount := countP_sameCall hpost
    rw [List.countP_append] at hfew
    rw [snapshot_eq (by rw [List.countP_append]; omega), snapshot_eq (by rw [List.countP_append]; omega)]
    unfold book
    rw [exec_append, exec_append, Book.exec_log rfl hpost]
  saved pre op post n hsplit hp hu hn := by
    have hstored := stored_unsaved hu
    rw [after_concat, stored_of_persists hp] at hstored
    rw [after_concat]
    have hsame : Device.after h = exec Device.step (Device.after (pre ++ [op])) post := by
      unfold Device.after
      rw [hsplit, ← exec_append, List.append_assoc, List.singleton_append]
    rw [after_concat] at hsame ⊢
    rw [← hsame] at hstored
    exact reboot_of_blob hstored hn
  wiped pre op post n hsplit hw hu := by
    have hstored := stored_unsaved hu
    rw [after_concat, stored_of_wipes hw] at hstored
    have hsame : Device.after h = exec Device.step (Device.after (pre ++ [op])) post := by
      unfold Device.after
      rw [hsplit, ← exec_append, List.append_assoc, List.singleton_append]
    rw [after_concat] at hsame ⊢
    rw [← hsame] at hstored
    exact reboot_of_none hstored n
  unsaved n hu := by
    rw [after_concat]
    exact reboot_of_none (stored_unsaved hu) n
  unread n hn := by
    rw [after_concat]
    exact begin_of_not_ok hn
  backfillFails utcSec n := by
    dsimp only
    rw [backfill_eq]
    split_ifs
    · intro hfalse
      exact absurd hfalse (by decide)
    · exact fun _ => ⟨rfl, rfl⟩
  backfills utcSec n hback := backfill_snapshot hfew hback
  gone pre op post hsplit hw := by
    have hsame : Device.after h = exec Device.step ((Device.after pre).step op) post := by
      unfold Device.after
      rw [hsplit, exec_append, exec_cons]
    rw [hsame]
    exact (sameMemory_wiped hw).exec post

/-- A wake saved and given a time, and a sleep that was not saved. -/
def wakeAndSleep : List Op :=
  [.record { kind := .wake } {}, .backfill 1700000000 {},
    .record { kind := .sleep } { succeeds := false }]

theorem log_kept_wakeAndSleep :
    Keeps wakeAndSleep ∧ (Device.after (wakeAndSleep ++ [.reboot {}])).log.memory =
      (Device.after [.record { kind := .wake } {}, .backfill 1700000000 {}]).log.memory := by
  have hkeeps : Keeps wakeAndSleep := log_kept (by decide)
  refine ⟨hkeeps, ?_⟩
  exact hkeeps.saved [.record { kind := .wake } {}] (.backfill 1700000000 {})
    [.record { kind := .sleep } { succeeds := false }] {} rfl (by decide +kernel)
    ⟨by decide +kernel, trivial⟩ rfl

/-- A log that was saved is not there after a boot that cannot read it. -/
theorem not_restored_unread : ¬ ∀ pre op post n, (Device.after pre).persists op = true →
    Unsaved (Device.after (pre ++ [op])) post →
      (Device.after (pre ++ op :: post ++ [.reboot n])).log.memory =
        (Device.after (pre ++ [op])).log.memory := by
  intro hall
  have hunread := hall [] (.record { kind := .wake } {}) [] { opens := false } rfl trivial
  exact absurd hunread (by decide +kernel)

end Result

end Pumpbug.Power
