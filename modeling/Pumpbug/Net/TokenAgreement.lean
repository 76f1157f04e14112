import Pumpbug.Lib.Run
import Pumpbug.Net.TokenStore

/-!
# RAM and NVS agree on the tokens

Beside the store runs the list of the tokens granted since everything was last forgotten.  The
stored set is the newest of them; a loaded set is the stored one.  A call that fails leaves both as
they were, `forgetAll` excepted, which empties RAM before it opens NVS.
-/

namespace Pumpbug.Net.Auth

open Lib

/-! ## Blobs -/

theorem ofFn_byteAt_append {data rest : Bytes} {n : ℕ} (h : data.length = n) :
    (List.ofFn fun i : Fin n => byteAt (data ++ rest) i) = data := by
  subst h
  apply List.ext_getElem
  · rw [List.length_ofFn]
  · intro i h₁ h₂
    rw [List.getElem_ofFn, byteAt, List.getD_eq_getElem?_getD, List.getElem?_append_left h₂,
      List.getElem?_eq_getElem h₂, Option.getD_some]

theorem tokensOf_bytesOf (tokens : List Token) : tokensOf tokens.length (bytesOf tokens) = tokens := by
  induction tokens with
  | nil => rfl
  | cons t tokens ih =>
    have hbytes : bytesOf (t :: tokens) = t.val ++ bytesOf tokens := List.flatMap_cons
    rw [List.length_cons, tokensOf, hbytes, List.drop_left' t.property, ih]
    congr 1
    exact Subtype.ext (ofFn_byteAt_append t.property)

theorem length_bytesOf (tokens : List Token) :
    (bytesOf tokens).length = tokens.length * kTokenBytes := by
  induction tokens with
  | nil => rfl
  | cons t tokens ih =>
    have hbytes : bytesOf (t :: tokens) = t.val ++ bytesOf tokens := List.flatMap_cons
    rw [hbytes, List.length_append, ih, t.property, List.length_cons, Nat.succ_mul, Nat.add_comm]

@[simp] theorem length_tokensOf (n : ℕ) (data : Bytes) : (tokensOf n data).length = n := by
  induction n generalizing data with
  | zero => rfl
  | succ n ih => rw [tokensOf, List.length_cons, ih]

/-! ## Reading -/

/-- The tokens of an item. -/
def itemTokens : Option Item → List Token
  | some (.blob data) =>
    if data.length = 0 then []
    else if data.length % kTokenBytes ≠ 0 ∨ kMaxTokens * kTokenBytes < data.length then []
    else tokensOf (data.length / kTokenBytes) data
  | _ => []

/-- Reading fails, or finds the tokens of the item. -/
theorem readTokens_cases (f : Faults) (nvs : Nvs) :
    readTokens f nvs = none ∨ readTokens f nvs = some (itemTokens nvs.join) := by
  unfold readTokens nvsOpen
  by_cases hopen : f.readOpen = true
  · rw [if_pos hopen]
    exact .inl rfl
  rw [if_neg hopen]
  cases nvs with
  | none => exact .inr rfl
  | some item =>
    dsimp only
    unfold nvsBlobLength
    by_cases hlength : f.getLength = true
    · rw [if_pos hlength]
      exact .inl rfl
    rw [if_neg hlength]
    match item with
    | none => exact .inr rfl
    | some .other => exact .inr rfl
    | some (.blob data) =>
      show (if data.length = 0 then _ else _) = _ ∨ (if data.length = 0 then _ else _) = _
      rw [Option.join_some, itemTokens]
      by_cases hzero : data.length = 0
      · rw [if_pos hzero, if_pos hzero]
        exact .inr rfl
      rw [if_neg hzero, if_neg hzero]
      by_cases hbad : data.length % kTokenBytes ≠ 0 ∨ kMaxTokens * kTokenBytes < data.length
      · rw [if_pos hbad, if_pos hbad]
        exact .inr rfl
      rw [if_neg hbad, if_neg hbad]
      unfold nvsGetBlob
      by_cases hblob : f.getBlob = true
      · rw [if_pos hblob]
        exact .inl rfl
      rw [if_neg hblob]
      dsimp only
      by_cases hshort : f.short = true
      · -- a short read is noticed: the blob is not empty
        rw [if_pos hshort, if_pos (by rw [List.length_dropLast]; omega)]
        exact .inl rfl
      · rw [if_neg hshort, if_neg (not_not_intro rfl)]
        exact .inr rfl

theorem readTokens_noFaults (nvs : Nvs) : readTokens noFaults nvs ≠ none := by
  unfold readTokens nvsOpen nvsBlobLength nvsGetBlob noFaults
  rcases nvs with _ | _ | _ | data
  · simp
  · simp
  · simp; split_ifs <;> simp
  · simp

theorem stored_eq (nvs : Nvs) : stored nvs = itemTokens nvs.join := by
  have hread : readTokens noFaults nvs = some (itemTokens nvs.join) :=
    (readTokens_cases noFaults nvs).resolve_left (readTokens_noFaults nvs)
  unfold stored Store.ensureTokensLoaded Store.boot
  rw [if_neg Bool.false_ne_true, hread]

theorem length_stored_le (nvs : Nvs) : (stored nvs).length ≤ kMaxTokens := by
  rw [stored_eq]
  unfold itemTokens
  split
  · split_ifs with hzero hbad
    · exact Nat.zero_le _
    · exact Nat.zero_le _
    · rw [length_tokensOf]
      rw [not_or, Nat.not_lt] at hbad
      exact Nat.div_le_of_le_mul (by rw [Nat.mul_comm]; exact hbad.2)
  · exact Nat.zero_le _

/-- A written set is loaded again as it is. -/
theorem stored_blob {tokens : List Token} (h : tokens.length ≤ kMaxTokens) :
    stored (some (some (.blob (bytesOf tokens)))) = tokens := by
  rw [stored_eq, Option.join_some, itemTokens, length_bytesOf]
  by_cases hzero : tokens.length * kTokenBytes = 0
  · rw [if_pos hzero]
    have hnil : tokens.length = 0 := by
      rcases Nat.mul_eq_zero.1 hzero with h | h
      · exact h
      · exact absurd h (by decide)
    exact (List.length_eq_zero_iff.1 hnil).symm
  · have hgood : ¬ (tokens.length * kTokenBytes % kTokenBytes ≠ 0 ∨
        kMaxTokens * kTokenBytes < tokens.length * kTokenBytes) := by
      rw [not_or, not_not, Nat.not_lt]
      exact ⟨Nat.mul_mod_left _ _, Nat.mul_le_mul_right _ h⟩
    rw [if_neg hzero, if_neg hgood, Nat.mul_div_cancel _ (by decide), tokensOf_bytesOf]

@[simp] theorem stored_prefsBegin (nvs : Nvs) : stored (prefsBegin nvs) = stored nvs := by
  rw [stored_eq, stored_eq, prefsBegin, Option.join_some]

/-! ## The ledger of grants -/

/-- The newest of the granted tokens, as many as the store holds. -/
def newest (granted : List Token) : List Token := granted.drop (granted.length - kMaxTokens)

theorem length_newest (granted : List Token) :
    (newest granted).length = min granted.length kMaxTokens := by
  unfold newest
  rw [List.length_drop]
  omega

/-- The oldest of a full set makes room for one more. -/
theorem newest_append (granted : List Token) (token : Token) :
    newest (granted ++ [token]) =
      (if kMaxTokens ≤ (newest granted).length then (newest granted).drop 1 else newest granted) ++
        [token] := by
  rw [length_newest]
  have hmax : 0 < kMaxTokens := by decide
  by_cases hfull : kMaxTokens ≤ granted.length
  · rw [if_pos (by omega)]
    unfold newest
    rw [List.length_append, List.length_singleton, List.drop_append_of_le_length (by omega),
      List.drop_drop]
    congr 2
    omega
  · rw [if_neg (by omega)]
    have hall : newest granted = granted := by
      unfold newest
      rw [Nat.sub_eq_zero_of_le (by omega), List.drop_zero]
    have hall' : newest (granted ++ [token]) = granted ++ [token] := by
      unfold newest
      rw [List.length_append, List.length_singleton, Nat.sub_eq_zero_of_le (by omega),
        List.drop_zero]
    rw [hall, hall']

inductive TokenCall
  | grant (f : Faults) (token : Token)
  | forgetAll (f : Faults)
  | check (f : Faults) (candidate : Bytes)
  | count (f : Faults)
  | reboot

/-- The store, and the tokens granted since everything was last forgotten. -/
structure Ledger where
  store : Store
  granted : List Token

namespace Ledger

def record (l : Ledger) : TokenCall → Ledger
  | .grant f token =>
    let r := l.store.appendToken f token
    ⟨r.1, if r.2 = 0 then l.granted else l.granted ++ [token]⟩
  | .forgetAll f => ⟨l.store.forgetAll f, []⟩
  | .check f candidate => ⟨(l.store.hasTokenBytes f candidate).1, l.granted⟩
  | .count f => ⟨(l.store.tokenCount f).1, l.granted⟩
  | .reboot => ⟨l.store.reboot, l.granted⟩

/-- A loaded set is the set that a reboot would load, and the newest of the grants. -/
def Agrees (l : Ledger) : Prop :=
  l.store.tokensLoaded = true →
    l.store.tokens = stored l.store.nvs ∧ l.store.tokens = newest l.granted ∧
      l.store.tokens.length ≤ kMaxTokens

/-- What a single call owes: a failed grant changes neither copy, a grant that cannot read changes
nothing at all, and only tokens granted since everything was last forgotten are accepted. -/
def Sound (l : Ledger) : TokenCall → Prop
  | .grant f token =>
    let r := l.store.appendToken f token
    (r.2 = 0 → r.1.nvs.join = l.store.nvs.join ∧
      (l.store.tokensLoaded = true → r.1.tokens = l.store.tokens ∧ r.1.tokensLoaded = true)) ∧
      ((l.store.ensureTokensLoaded f).2 = false → r = (l.store, 0))
  | .check f candidate =>
    (l.store.hasTokenBytes f candidate).2 = true → ∃ t ∈ l.granted, t.val = candidate
  | _ => True

/-- NVS is really cleared when everything is forgotten, or holds no tokens. -/
def Clears (l : Ledger) : TokenCall → Prop
  | .forgetAll f => f.writeOpen = false ∧ f.clear = false ∨ stored l.store.nvs = []
  | _ => True

/-- What holds between calls. -/
structure Inv (l : Ledger) : Prop where
  synced : l.store.tokensLoaded = true → l.store.tokens = stored l.store.nvs
  newest : stored l.store.nvs = newest l.granted

theorem Inv.agrees {l : Ledger} (h : l.Inv) : l.Agrees := fun hloaded =>
  ⟨h.synced hloaded, (h.synced hloaded).trans h.newest,
    (h.synced hloaded) ▸ length_stored_le l.store.nvs⟩

/-! ## One call -/

/-- Loading fails and changes nothing, or leaves the stored set in RAM. -/
theorem Inv.ensureTokensLoaded_cases {l : Ledger} (h : l.Inv) (f : Faults) :
    l.store.tokensLoaded = false ∧ l.store.ensureTokensLoaded f = (l.store, false) ∨
      l.store.ensureTokensLoaded f = (⟨l.store.nvs, stored l.store.nvs, true⟩, true) := by
  unfold Store.ensureTokensLoaded
  cases hloaded : l.store.tokensLoaded with
  | true =>
    right
    rw [if_pos rfl, ← h.synced hloaded, ← hloaded]
  | false =>
    rw [if_neg Bool.false_ne_true]
    rcases readTokens_cases f l.store.nvs with hread | hread
    · rw [hread]
      exact .inl ⟨rfl, rfl⟩
    · rw [hread, ← stored_eq]
      exact .inr rfl

theorem Inv.count {l : Ledger} (h : l.Inv) (f : Faults) : (l.record (.count f)).Inv := by
  show Inv ⟨(l.store.tokenCount f).1, l.granted⟩
  unfold Store.tokenCount
  rcases h.ensureTokensLoaded_cases f with ⟨-, hload⟩ | hload
  · rw [hload]
    exact ⟨h.synced, h.newest⟩
  · rw [hload]
    exact ⟨fun _ => rfl, h.newest⟩

theorem Inv.check {l : Ledger} (h : l.Inv) (f : Faults) (candidate : Bytes) :
    (l.record (.check f candidate)).Inv ∧ l.Sound (.check f candidate) := by
  show Inv ⟨(l.store.hasTokenBytes f candidate).1, l.granted⟩ ∧
    ((l.store.hasTokenBytes f candidate).2 = true → ∃ t ∈ l.granted, t.val = candidate)
  unfold Store.hasTokenBytes
  by_cases hlen : candidate.length ≠ kTokenBytes
  · rw [if_pos hlen]
    exact ⟨⟨h.synced, h.newest⟩, fun hyes => absurd hyes Bool.false_ne_true⟩
  rw [if_neg hlen]
  rcases h.ensureTokensLoaded_cases f with ⟨-, hload⟩ | hload
  · rw [hload]
    exact ⟨⟨h.synced, h.newest⟩, fun hyes => absurd hyes Bool.false_ne_true⟩
  · rw [hload]
    refine ⟨⟨fun _ => rfl, h.newest⟩, fun hyes => ?_⟩
    obtain ⟨t, ht, heq⟩ := List.any_eq_true.1 hyes
    rw [h.newest] at ht
    exact ⟨t, List.mem_of_mem_drop ht, of_decide_eq_true heq⟩

theorem Inv.reboot {l : Ledger} (h : l.Inv) : (l.record .reboot).Inv :=
  ⟨fun hloaded => absurd hloaded Bool.false_ne_true, h.newest⟩

/-- A grant with the set in RAM, by whether NVS takes the new set. -/
theorem appendToken_loaded {s s' : Store} {f : Faults} (hload : s.ensureTokensLoaded f = (s', true))
    (token : Token) :
    s.appendToken f token =
      if f.writeOpen then (s', 0)
      else if f.putBytes then ({ s' with nvs := prefsBegin s'.nvs }, 0)
      else (⟨some (some (.blob (bytesOf (s'.candidate token)))), s'.candidate token,
        s'.tokensLoaded⟩, (s'.candidate token).length) := by
  have hpos : 0 < (s'.candidate token).length * kTokenBytes := by
    unfold Store.candidate
    rw [List.length_append, List.length_singleton]
    exact Nat.mul_pos (Nat.succ_pos _) (by decide)
  unfold Store.appendToken
  rw [hload]
  dsimp only
  unfold prefsPutBytes
  by_cases hput : f.putBytes = true
  · rw [if_pos hput, if_pos hput]
    simp [hpos.ne]
  · rw [if_neg hput, if_neg hput, length_bytesOf]
    simp

theorem Inv.grant {l : Ledger} (h : l.Inv) (f : Faults) (token : Token) :
    (l.record (.grant f token)).Inv ∧ l.Sound (.grant f token) := by
  show Inv ⟨(l.store.appendToken f token).1, if (l.store.appendToken f token).2 = 0 then l.granted
    else l.granted ++ [token]⟩ ∧ _
  unfold Sound
  dsimp only
  rcases h.ensureTokensLoaded_cases f with ⟨hno, hload⟩ | hload
  · have happend : l.store.appendToken f token = (l.store, 0) := by
      unfold Store.appendToken
      rw [hload]
      rfl
    rw [happend]
    exact ⟨⟨h.synced, h.newest⟩,
      fun _ => ⟨rfl, fun hyes => absurd (hno.symm.trans hyes) Bool.false_ne_true⟩, fun _ => rfl⟩
  · rw [appendToken_loaded hload, hload]
    have hram (hloaded : l.store.tokensLoaded = true) : stored l.store.nvs = l.store.tokens :=
      (h.synced hloaded).symm
    by_cases hopen : f.writeOpen = true
    · rw [if_pos hopen]
      exact ⟨⟨fun _ => rfl, h.newest⟩, fun _ => ⟨rfl, fun hyes => ⟨hram hyes, rfl⟩⟩,
        fun hfail => absurd hfail.symm Bool.false_ne_true⟩
    rw [if_neg hopen]
    by_cases hput : f.putBytes = true
    · rw [if_pos hput]
      refine ⟨⟨fun _ => (stored_prefsBegin _).symm, (stored_prefsBegin _).trans h.newest⟩,
        fun _ => ⟨Option.join_some, fun hyes => ⟨hram hyes, rfl⟩⟩,
        fun hfail => absurd hfail.symm Bool.false_ne_true⟩
    rw [if_neg hput]
    -- both copies take the new set, the newest with the token at its end
    have hnew : (Store.mk l.store.nvs (stored l.store.nvs) true).candidate token =
        Auth.newest (l.granted ++ [token]) := by
      unfold Store.candidate
      rw [newest_append, ← h.newest]
    have hlen : 0 < (Auth.newest (l.granted ++ [token])).length := by
      rw [length_newest, List.length_append, List.length_singleton]
      have : 0 < kMaxTokens := by decide
      omega
    have hfits : (Auth.newest (l.granted ++ [token])).length ≤ kMaxTokens := by
      rw [length_newest]
      exact min_le_right _ _
    have hstored := stored_blob hfits
    rw [hnew]
    dsimp only
    rw [if_neg hlen.ne']
    refine ⟨⟨fun _ => ?_, ?_⟩, fun hzero => absurd hzero hlen.ne',
      fun hfail => absurd hfail.symm Bool.false_ne_true⟩
    · exact hstored.symm
    · exact hstored

/-- Forgetting empties RAM, and NVS exactly if the condition holds. -/
theorem forgetAll_iff (l : Ledger) (f : Faults) :
    (l.Clears (.forgetAll f) → (l.record (.forgetAll f)).Inv) ∧
      (¬ l.Clears (.forgetAll f) → ¬ (l.record (.forgetAll f)).Agrees) := by
  have hempty : stored (some none) = [] := stored_eq _
  have hstored : stored (l.store.forgetAll f).nvs =
      if f.writeOpen = false ∧ f.clear = false then [] else stored l.store.nvs := by
    unfold Store.forgetAll prefsClear
    cases hopen : f.writeOpen <;> cases hclear : f.clear <;> simp [hempty]
  have hram : (l.store.forgetAll f).tokens = [] ∧ (l.store.forgetAll f).tokensLoaded = true := by
    unfold Store.forgetAll
    split_ifs <;> exact ⟨rfl, rfl⟩
  constructor
  · intro hclears
    have hnil : stored (l.store.forgetAll f).nvs = [] := by
      rw [hstored]
      split_ifs with hok
      · rfl
      · exact hclears.resolve_left hok
    exact ⟨fun _ => hram.1.trans hnil.symm, hnil⟩
  · intro hno hagrees
    have hsame := (hagrees hram.2).1
    rw [show (l.record (.forgetAll f)).store = l.store.forgetAll f from rfl, hram.1, hstored,
      if_neg fun hok => hno (.inl hok)] at hsame
    exact hno (.inr hsame.symm)

/-- A call that clears what it forgets keeps everything, and does what it owes. -/
theorem Inv.record {l : Ledger} (h : l.Inv) {c : TokenCall} (hc : l.Clears c) :
    (l.record c).Inv ∧ l.Sound c := by
  cases c with
  | grant f token => exact h.grant f token
  | forgetAll f => exact ⟨(l.forgetAll_iff f).1 hc, trivial⟩
  | check f candidate => exact h.check f candidate
  | count f => exact ⟨h.count f, trivial⟩
  | reboot => exact ⟨h.reboot, trivial⟩

end Ledger

/-! ## Runs -/

/-- In every state of a run RAM agrees with NVS, and every call does what it owes. -/
def Ledger.Faithful (l : Ledger) (calls : List TokenCall) : Prop :=
  Along Ledger.record (fun l c => l.Agrees ∧ l.Sound c) l calls ∧
    (exec Ledger.record l calls).Agrees

theorem Ledger.Faithful.head {l : Ledger} {calls : List TokenCall} (h : l.Faithful calls) :
    l.Agrees := by
  cases calls with
  | nil => exact h.2
  | cons c calls => exact h.1.1.1

/-- **Two copies of the tokens.** From any content of NVS, RAM and NVS agree throughout a run, on
the newest tokens granted since everything was last forgotten, exactly if NVS is cleared, or has no
tokens, whenever everything is forgotten. -/
theorem faithful_iff (nvs : Nvs) (calls : List TokenCall) :
    Ledger.Faithful ⟨.boot nvs, stored nvs⟩ calls ↔
      Along Ledger.record Ledger.Clears ⟨.boot nvs, stored nvs⟩ calls := by
  have hinit : Ledger.Inv ⟨.boot nvs, stored nvs⟩ := by
    refine ⟨fun hloaded => absurd hloaded Bool.false_ne_true, ?_⟩
    show stored nvs = newest (stored nvs)
    rw [newest, Nat.sub_eq_zero_of_le (length_stored_le nvs), List.drop_zero]
  revert hinit
  generalize (⟨.boot nvs, stored nvs⟩ : Ledger) = l
  intro hinv
  induction calls generalizing l with
  | nil => exact iff_of_true ⟨along_nil _, hinv.agrees⟩ (along_nil _)
  | cons c calls ih =>
    rw [along_cons]
    by_cases hc : l.Clears c
    · obtain ⟨hnext, hsound⟩ := hinv.record hc
      constructor
      · intro h
        exact ⟨hc, (ih (l.record c) hnext).1 ⟨h.1.2, h.2⟩⟩
      · intro h
        obtain ⟨hsteps, hlast⟩ := (ih (l.record c) hnext).2 h.2
        exact ⟨⟨⟨hinv.agrees, hsound⟩, hsteps⟩, hlast⟩
    · refine iff_of_false (fun h => ?_) fun h => hc h.1
      have hnext : (l.record c).Faithful calls := ⟨h.1.2, h.2⟩
      cases c with
      | forgetAll f => exact (l.forgetAll_iff f).2 hc hnext.head
      | grant f token => exact hc trivial
      | check f candidate => exact hc trivial
      | count f => exact hc trivial
      | reboot => exact hc trivial

/-- Opening NVS for writing fails. -/
def writeOpenFails : Faults := { noFaults with writeOpen := true }

/-- One paired client. -/
def onePaired : Nvs := some (some (.blob (List.replicate kTokenBytes 0xA5)))

/-- Everything is forgotten while NVS cannot be opened, and the device is restarted: the token that
was forgotten is accepted. -/
theorem not_faithful_writeOpenFails :
    ¬ Ledger.Faithful ⟨.boot onePaired, stored onePaired⟩ [.forgetAll writeOpenFails, .reboot] ∧
      ((exec Ledger.record ⟨.boot onePaired, stored onePaired⟩
        [.forgetAll writeOpenFails, .reboot]).store.hasTokenBytes noFaults
          (List.replicate kTokenBytes 0xA5)).2 = true := by
  constructor
  · rintro ⟨⟨-, ⟨hagrees, -⟩, -⟩, -⟩
    have hlost : ([] : List Token) = stored onePaired := (hagrees rfl).1
    have hlen : (stored onePaired).length = 1 := by decide
    rw [← hlost] at hlen
    exact absurd hlen (by decide)
  · decide

end Pumpbug.Net.Auth
