import Pumpbug.Net.Auth

/-!
# What a pairing window accepts

The history of a run is kept beside the window: every call with its time and whether it was an
accepted submission.  An open window is the latest one started, and since then there were only
updates and fewer than `kMaxPinAttempts` wrong submissions.
-/

namespace Pumpbug.Net.Auth

open Lib Lib.Clock

/-! ## Histories -/

/-- A call, its time in milliseconds since boot, and whether it was an accepted submission. -/
structure Entry where
  time : ℕ
  call : Call
  accepted : Bool

structure Log where
  pairing : Pairing
  history : List Entry

def Log.boot : Log := ⟨.boot, []⟩

/-- A call at a time; the clock of the device wraps. -/
def Log.record (l : Log) (c : ℕ × Call) : Log :=
  let r := l.pairing.step (reading 32 c.1) c.2
  ⟨r.1, l.history ++ [⟨c.1, c.2, r.2⟩]⟩

/-- The time of the last update, or of boot. -/
def lastUpdate (history : List Entry) : ℕ :=
  history.foldl (fun last e => if e.call = .update then e.time else last) 0

/-- Time goes on, and an update is never more than `2 ^ 31` ms ago. -/
def InTime (l : Log) (c : ℕ × Call) : Prop :=
  (∀ e ∈ l.history, e.time ≤ c.1) ∧ c.1 ≤ lastUpdate l.history + 2 ^ 31

instance (l : Log) (c : ℕ × Call) : Decidable (InTime l c) :=
  inferInstanceAs (Decidable (_ ∧ _))

/-- A window as it was started. -/
structure Window where
  startedAt : ℕ
  r : U32
  tok : Vector U8 kPairTokenBytes
  ttlMs : U32

namespace Window

variable (w : Window)

def credential (isToken : Bool) : Bytes := if isToken then hexOf w.tok.toList else pinText w.r

/-- The history since this window was started, which is the latest in it. -/
def Opened (history during : List Entry) : Prop :=
  (∃ before, history = before ++ ⟨w.startedAt, .startPairing w.r w.tok w.ttlMs, false⟩ :: during) ∧
    ∀ e ∈ during, ∀ r tok ttlMs, e.call ≠ .startPairing r tok ttlMs

/-- A submission that is not the credential of its route. -/
def Wrong (e : Entry) : Prop :=
  e.accepted = false ∧
    ∃ submitted isToken, e.call = .consumePairing submitted isToken ∧
      submitted ≠ w.credential isToken

/-- The lifetime has not elapsed. -/
def Alive (time : ℕ) : Prop :=
  since (reading 32 w.startedAt) (reading 32 time) ≤ w.ttlMs.toNat ∧
    (w.ttlMs.toNat < 2 ^ 31 → time ≤ w.startedAt + w.ttlMs.toNat)

/-- Since the start there were only updates and wrong submissions, all within the lifetime, and too
few submissions for a lock-out. -/
def Unspent (during : List Entry) : Prop :=
  (∀ e ∈ during, w.Alive e.time ∧ (e.call = .update ∧ e.accepted = false ∨ w.Wrong e)) ∧
    during.countP (fun e => e.call ≠ .update) < kMaxPinAttempts.toNat

end Window

/-- An accepted submission is the credential that its route has in the latest window, which is alive
and in which nothing but updates and too few wrong submissions came before. -/
def Justified (history : List Entry) (e : Entry) : Prop :=
  ∃ w : Window, ∃ during submitted isToken, w.Opened history during ∧ w.Unspent during ∧
    w.Alive e.time ∧ e.call = .consumePairing submitted isToken ∧ submitted = w.credential isToken

/-! ## One call -/

theorem Window.Opened.start_mem {w : Window} {history during : List Entry}
    (h : w.Opened history during) :
    ⟨w.startedAt, .startPairing w.r w.tok w.ttlMs, false⟩ ∈ history := by
  obtain ⟨⟨before, rfl⟩, -⟩ := h
  exact List.mem_append_right _ List.mem_cons_self

theorem Window.Opened.append {w : Window} {history during : List Entry} (h : w.Opened history during)
    {e : Entry} (he : ∀ r tok ttlMs, e.call ≠ .startPairing r tok ttlMs) :
    w.Opened (history ++ [e]) (during ++ [e]) := by
  obtain ⟨⟨before, rfl⟩, hlatest⟩ := h
  refine ⟨⟨before, by rw [List.append_assoc, List.cons_append]⟩, fun e' he' => ?_⟩
  rcases List.mem_append.1 he' with he' | he'
  · exact hlatest e' he'
  · rw [List.mem_singleton.1 he']
    exact he

theorem lastUpdate_append (history : List Entry) (e : Entry) :
    lastUpdate (history ++ [e]) = if e.call = .update then e.time else lastUpdate history := by
  unfold lastUpdate
  rw [List.foldl_append, List.foldl_cons, List.foldl_nil]

/-- The window of the code is the window `w`, with the wrong submissions of `during`. -/
structure Window.Shown (w : Window) (l : Log) (during : List Entry) : Prop where
  opened : w.Opened l.history during
  unspent : w.Unspent during
  pin : l.pairing.pin = pinText w.r
  pairToken : l.pairing.pairToken = hexOf w.tok.toList
  started : l.pairing.pinStartedMs = reading 32 w.startedAt
  ttl : l.pairing.pinTtlMs = w.ttlMs
  failed : l.pairing.pinFailedAttempts.toNat = during.countP (fun e => e.call ≠ .update)
  updated : w.ttlMs.toNat < 2 ^ 31 → lastUpdate l.history ≤ w.startedAt + w.ttlMs.toNat

/-- With updates often enough the clock has not gone round when a short lifetime is checked. -/
theorem Window.Shown.alive {w : Window} {l : Log} {during : List Entry} (h : w.Shown l during)
    {c : ℕ × Call} (htime : InTime l c)
    (hcheck : reading 32 c.1 - l.pairing.pinStartedMs ≤ l.pairing.pinTtlMs) : w.Alive c.1 := by
  rw [h.started, h.ttl, BitVec.le_def] at hcheck
  refine ⟨hcheck, fun hshort => ?_⟩
  have hstart : w.startedAt ≤ c.1 := htime.1 _ h.opened.start_mem
  have hupdated := h.updated hshort
  have hlast := htime.2
  have hsince := since_reading hstart (show c.1 - w.startedAt < 2 ^ 32 by omega)
  unfold since at hsince
  omega

theorem credential_eq {w : Window} {l : Log} {during : List Entry} (h : w.Shown l during)
    (isToken : Bool) :
    (if isToken then l.pairing.pairToken else l.pairing.pin) = w.credential isToken := by
  unfold Window.credential
  rw [h.pin, h.pairToken]

theorem pinText_ne_nil (r : U32) : pinText r ≠ [] := by
  unfold pinText
  exact List.cons_ne_nil _ _

theorem hexOf_ne_nil (tok : Vector U8 kPairTokenBytes) : hexOf tok.toList ≠ [] := by
  intro h
  have hlen : tok.toList.length = kPairTokenBytes := Vector.length_toList
  cases htok : tok.toList with
  | nil =>
    rw [htok] at hlen
    exact absurd hlen (by decide)
  | cons b tok' =>
    rw [htok, hexOf, List.flatMap_cons] at h
    exact List.cons_ne_nil _ _ h

theorem Window.credential_ne_nil (w : Window) (isToken : Bool) : w.credential isToken ≠ [] := by
  cases isToken
  · exact pinText_ne_nil w.r
  · exact hexOf_ne_nil w.tok

/-- What holds of the log after every call. -/
structure Log.Inv (l : Log) : Prop where
  justified : ∀ pre e post, l.history = pre ++ e :: post → e.accepted = true → Justified pre e
  shown : l.pairing.pairingActive = true → ∃ w : Window, ∃ during, w.Shown l during

theorem Log.Inv.justified_append {l : Log} (h : l.Inv) {e : Entry}
    (he : e.accepted = true → Justified l.history e) :
    ∀ pre e' post, l.history ++ [e] = pre ++ e' :: post → e'.accepted = true → Justified pre e' := by
  intro pre e' post hsplit haccepted
  rcases List.eq_nil_or_concat post with rfl | ⟨post, last, rfl⟩
  · obtain ⟨rfl, hlast⟩ := List.append_inj' hsplit rfl
    obtain rfl : e = e' := List.singleton_inj.1 hlast
    exact he haccepted
  · rw [List.concat_eq_append, ← List.cons_append, ← List.append_assoc] at hsplit
    exact h.justified pre e' post (List.append_inj' hsplit rfl).1 haccepted

/-- A call that accepts nothing and leaves the window closed. -/
theorem Log.Inv.closed {l : Log} (h : l.Inv) {c : ℕ × Call}
    (hno : (l.pairing.step (reading 32 c.1) c.2).2 = false)
    (hclosed : (l.pairing.step (reading 32 c.1) c.2).1.pairingActive = false) :
    (l.record c).Inv where
  justified := h.justified_append fun hyes => absurd (hno.symm.trans hyes) Bool.false_ne_true
  shown hactive := absurd (hclosed.symm.trans hactive) Bool.false_ne_true

/-- A call that accepts nothing and leaves a window open. -/
theorem Log.Inv.kept {l : Log} (h : l.Inv) (c : ℕ × Call)
    (hno : (l.pairing.step (reading 32 c.1) c.2).2 = false) {w : Window} {during : List Entry}
    (hshown : w.Shown (l.record c) during) : (l.record c).Inv where
  justified := h.justified_append fun hyes => absurd (hno.symm.trans hyes) Bool.false_ne_true
  shown _ := ⟨w, during, hshown⟩

theorem lastUpdate_le {history : List Entry} {T : ℕ} (h : ∀ e ∈ history, e.time ≤ T) :
    lastUpdate history ≤ T := by
  induction history using List.reverseRecOn with
  | nil => exact Nat.zero_le T
  | append_singleton history e ih =>
    rw [lastUpdate_append]
    split_ifs
    · exact h e (List.mem_append_right _ (List.mem_singleton_self e))
    · exact ih fun e' he' => h e' (List.mem_append_left _ he')

theorem Log.Inv.startPairing {l : Log} (h : l.Inv) {T : ℕ} (r : U32)
    (tok : Vector U8 kPairTokenBytes) (ttlMs : U32)
    (htime : InTime l (T, .startPairing r tok ttlMs)) :
    (l.record (T, .startPairing r tok ttlMs)).Inv := by
  have hshown : Window.Shown ⟨T, r, tok, ttlMs⟩ (l.record (T, .startPairing r tok ttlMs)) [] := by
    refine ⟨⟨⟨l.history, rfl⟩, fun e he => absurd he List.not_mem_nil⟩,
      ⟨fun e he => absurd he List.not_mem_nil, by decide⟩, rfl, rfl, rfl, rfl, rfl, fun _ => ?_⟩
    show lastUpdate (l.history ++ [_]) ≤ T + ttlMs.toNat
    have := lastUpdate_le htime.1
    rw [lastUpdate_append, if_neg (by simp)]
    omega
  exact h.kept _ rfl hshown

theorem Log.Inv.cancelPairing {l : Log} (h : l.Inv) (T : ℕ) :
    (l.record (T, .cancelPairing)).Inv := by
  refine h.closed rfl ?_
  show l.pairing.cancelPairing.pairingActive = false
  unfold Pairing.cancelPairing
  cases hactive : l.pairing.pairingActive
  · exact hactive
  · rfl

/-- A call that leaves the code's window as it was, while one more entry is recorded. -/
theorem Window.Shown.append {w : Window} {l : Log} {during : List Entry} (h : w.Shown l during)
    {p : Pairing} {e : Entry} (hcall : ∀ r tok ttlMs, e.call ≠ .startPairing r tok ttlMs)
    (hunspent : w.Unspent (during ++ [e])) (hpin : p.pin = l.pairing.pin)
    (htoken : p.pairToken = l.pairing.pairToken)
    (hstarted : p.pinStartedMs = l.pairing.pinStartedMs) (httl : p.pinTtlMs = l.pairing.pinTtlMs)
    (hfailed : p.pinFailedAttempts.toNat = (during ++ [e]).countP (fun e => e.call ≠ .update))
    (hupdated : w.ttlMs.toNat < 2 ^ 31 →
      lastUpdate (l.history ++ [e]) ≤ w.startedAt + w.ttlMs.toNat) :
    w.Shown ⟨p, l.history ++ [e]⟩ (during ++ [e]) where
  opened := h.opened.append hcall
  unspent := hunspent
  pin := hpin.trans h.pin
  pairToken := htoken.trans h.pairToken
  started := hstarted.trans h.started
  ttl := httl.trans h.ttl
  failed := hfailed
  updated := hupdated

theorem Log.Inv.update {l : Log} (h : l.Inv) {T : ℕ} (htime : InTime l (T, .update)) :
    (l.record (T, .update)).Inv := by
  cases hactive : l.pairing.pairingActive with
  | false =>
    have hstep : l.pairing.update (reading 32 T) = l.pairing := by
      unfold Pairing.update
      rw [hactive]
      rfl
    exact h.closed rfl ((congrArg Pairing.pairingActive hstep).trans hactive)
  | true =>
    obtain ⟨w, during, hshown⟩ := h.shown hactive
    by_cases hlive : reading 32 T - l.pairing.pinStartedMs ≤ l.pairing.pinTtlMs
    · have hstep : l.pairing.update (reading 32 T) = l.pairing := by
        unfold Pairing.update
        rw [hactive, if_neg (by simp), if_pos hlive]
      have halive := hshown.alive htime hlive
      suffices hkept : w.Shown (l.record (T, .update)) (during ++ [⟨T, .update, false⟩]) from
        h.kept _ rfl hkept
      show w.Shown ⟨l.pairing.update (reading 32 T), l.history ++ [_]⟩ _
      rw [hstep]
      refine hshown.append (by simp) ⟨fun e he => ?_, ?_⟩ rfl rfl rfl rfl ?_ fun hshort => ?_
      · rcases List.mem_append.1 he with he | he
        · exact hshown.unspent.1 e he
        · rw [List.mem_singleton.1 he]
          exact ⟨halive, .inl ⟨rfl, rfl⟩⟩
      · rw [List.countP_append]
        exact hshown.unspent.2
      · rw [List.countP_append]
        exact hshown.failed
      · rw [lastUpdate_append, if_pos rfl]
        exact halive.2 hshort
    · refine h.closed rfl ?_
      show (l.pairing.update (reading 32 T)).pairingActive = false
      unfold Pairing.update
      rw [hactive, if_neg (by simp), if_neg hlive]
      rfl

/-- A submission to an open window. -/
theorem Window.Shown.consumePairing_eq {w : Window} {l : Log} {during : List Entry}
    (h : w.Shown l during) (hactive : l.pairing.pairingActive = true) (millis : U32)
    (submitted : Bytes) (isToken : Bool) :
    l.pairing.consumePairing millis submitted isToken =
      if l.pairing.pinTtlMs < millis - l.pairing.pinStartedMs then (l.pairing.deactivate, false)
      else if submitted = w.credential isToken then (l.pairing.deactivate, true)
      else
        let p := { l.pairing with pinFailedAttempts := l.pairing.pinFailedAttempts + 1 }
        if p.pinFailedAttempts < kMaxPinAttempts then (p, false) else (p.deactivate, false) := by
  have hopen : ¬ (!l.pairing.pairingActive) = true := by simp [hactive]
  unfold Pairing.consumePairing
  rw [if_neg hopen]
  simp only [credential_eq h, ne_eq, w.credential_ne_nil isToken, not_false_eq_true, true_and]

theorem Log.Inv.consumePairing {l : Log} (h : l.Inv) {T : ℕ} (submitted : Bytes) (isToken : Bool)
    (htime : InTime l (T, .consumePairing submitted isToken)) :
    (l.record (T, .consumePairing submitted isToken)).Inv := by
  cases hactive : l.pairing.pairingActive with
  | false =>
    have hstep : l.pairing.consumePairing (reading 32 T) submitted isToken = (l.pairing, false) := by
      unfold Pairing.consumePairing
      rw [hactive]
      rfl
    exact h.closed (congrArg Prod.snd hstep) ((congrArg (·.1.pairingActive) hstep).trans hactive)
  | true =>
    obtain ⟨w, during, hshown⟩ := h.shown hactive
    have hstep := hshown.consumePairing_eq hactive (reading 32 T) submitted isToken
    by_cases hexpired : l.pairing.pinTtlMs < reading 32 T - l.pairing.pinStartedMs
    · rw [if_pos hexpired] at hstep
      exact h.closed (congrArg Prod.snd hstep) (congrArg (·.1.pairingActive) hstep)
    rw [if_neg hexpired] at hstep
    have halive := hshown.alive htime (BitVec.not_lt.1 hexpired)
    by_cases hright : submitted = w.credential isToken
    · rw [if_pos hright] at hstep
      refine ⟨h.justified_append fun _ => ?_, fun hopen => ?_⟩
      · exact ⟨w, during, submitted, isToken, hshown.opened, hshown.unspent, halive, rfl, hright⟩
      · have hclosed := congrArg (·.1.pairingActive) hstep
        exact absurd (hclosed.symm.trans hopen) Bool.false_ne_true
    rw [if_neg hright] at hstep
    by_cases hmore : l.pairing.pinFailedAttempts + 1 < kMaxPinAttempts
    · have hwrong : l.pairing.consumePairing (reading 32 T) submitted isToken =
          ({ l.pairing with pinFailedAttempts := l.pairing.pinFailedAttempts + 1 }, false) :=
        hstep.trans (if_pos hmore)
      have hfailed : (l.pairing.pinFailedAttempts + 1).toNat =
          (during ++ [(⟨T, .consumePairing submitted isToken, false⟩ : Entry)]).countP
            (fun e => e.call ≠ .update) := by
        have hlow := hshown.unspent.2
        have hmax : kMaxPinAttempts.toNat = 5 := rfl
        rw [hmax] at hlow
        rw [List.countP_append, BitVec.toNat_add, hshown.failed]
        show (_ + 1) % 2 ^ 8 = _ + 1
        omega
      suffices hkept : w.Shown (l.record (T, .consumePairing submitted isToken))
          (during ++ [⟨T, .consumePairing submitted isToken, false⟩]) from
        h.kept _ (congrArg Prod.snd hwrong) hkept
      have hrecord : l.record (T, .consumePairing submitted isToken) =
          ⟨{ l.pairing with pinFailedAttempts := l.pairing.pinFailedAttempts + 1 },
            l.history ++ [⟨T, .consumePairing submitted isToken, false⟩]⟩ := by
        unfold Log.record Pairing.step
        simp only [hwrong]
      rw [hrecord]
      refine hshown.append (by simp) ⟨fun e he => ?_, ?_⟩ rfl rfl rfl rfl hfailed fun hshort => ?_
      · rcases List.mem_append.1 he with he | he
        · exact hshown.unspent.1 e he
        · rw [List.mem_singleton.1 he]
          exact ⟨halive, .inr ⟨rfl, submitted, isToken, rfl, hright⟩⟩
      · rw [← hfailed]
        exact BitVec.lt_def.1 hmore
      · rw [lastUpdate_append, if_neg (by simp)]
        exact hshown.updated hshort
    · have hlocked : l.pairing.consumePairing (reading 32 T) submitted isToken =
          ({ l.pairing with
              pinFailedAttempts := l.pairing.pinFailedAttempts + 1 }.deactivate, false) :=
        hstep.trans (if_neg hmore)
      exact h.closed (congrArg Prod.snd hlocked) (congrArg (·.1.pairingActive) hlocked)

theorem Log.Inv.record {l : Log} {c : ℕ × Call} (h : l.Inv) (htime : InTime l c) :
    (l.record c).Inv := by
  obtain ⟨T, call⟩ := c
  cases call with
  | startPairing r tok ttlMs => exact h.startPairing r tok ttlMs htime
  | cancelPairing => exact h.cancelPairing T
  | update => exact h.update htime
  | consumePairing submitted isToken => exact h.consumePairing submitted isToken htime

/-! ## Runs -/

/-- **Pairing windows.** In every run in time, an accepted submission is the credential that its
route has in the latest window, whose lifetime has not elapsed; since that window was started there
was no cancel, no expiry, no other accepted submission, and fewer wrong submissions than lock it. -/
theorem accepted_justified (calls : List (ℕ × Call)) (htime : Along Log.record InTime Log.boot calls)
    (pre post : List Entry) (e : Entry)
    (hsplit : (exec Log.record Log.boot calls).history = pre ++ e :: post)
    (haccepted : e.accepted = true) : Justified pre e := by
  have hinv : (exec Log.record Log.boot calls).Inv := by
    refine htime.exec_invariant Log.Inv (fun l c h hc => h.record hc) ⟨?_, ?_⟩
    · intro pre e post h
      exact absurd h (by simp [Log.boot])
    · intro hactive
      exact absurd hactive Bool.false_ne_true
  exact hinv.justified pre e post hsplit haccepted

/-- A wrong PIN, then the right one. -/
def secondTry : List (ℕ × Call) :=
  [(500, .startPairing 4711 (Vector.replicate kPairTokenBytes 0xAB) kDefaultPairingTtlMs),
    (900, .consumePairing (pinText 4712) false), (1000, .update),
    (1700, .consumePairing (pinText 4711) false)]

theorem accepted_justified_secondTry :
    ∃ pre e, (exec Log.record Log.boot secondTry).history = pre ++ [e] ∧ Justified pre e :=
  ⟨_, ⟨1700, .consumePairing (pinText 4711) false, true⟩, rfl,
    accepted_justified secondTry (by decide) _ [] _ rfl rfl⟩

end Pumpbug.Net.Auth
