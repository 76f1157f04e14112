import Mathlib.Data.List.TakeWhile
import Pumpbug.Net.JsonDocument

/-!
# The network scan

`WifiManager::_handleScan`, from the entries of a finished scan on: each visible network once, with its
strongest signal, the strongest first, and no more than fit.  The sort is any that sorts.
-/

namespace Pumpbug.Net

open Lib Lib.Json

structure ScanEntry where
  /-- The bytes of the radio's record. -/
  name : List Char
  rssi : I32
  secure : Bool
  deriving DecidableEq

/-- `WiFi.SSID`, a C string. -/
def ScanEntry.ssid (e : ScanEntry) : List Char := cStr e.name

def kMaxScanResults : ℕ := 15

namespace WifiScan

/-- What one entry does to the ones picked so far. -/
def pick : List ScanEntry → ScanEntry → List ScanEntry
  | [], i => [i]
  | p :: picked, i =>
    if p.ssid = i.ssid then (if p.rssi.toInt < i.rssi.toInt then i else p) :: picked
    else p :: pick picked i

/-- Hidden networks can't be picked by name. -/
def pickAll (entries : List ScanEntry) : List ScanEntry :=
  entries.foldl (fun picked i => if i.ssid = [] then picked else pick picked i) []

def row (e : ScanEntry) : List JsonCall :=
  [.open, .key "ssid".toList, .str (some e.ssid), .key "rssi".toList, .i e.rssi,
    .key "secure".toList, .boolean e.secure, .close]

/-- The calls for the answer. -/
def answer (sort : List ScanEntry → List ScanEntry) (entries : List ScanEntry) : List JsonCall :=
  let picked := (sort (pickAll entries)).take kMaxScanResults
  [.open, .key "networks".toList, .arrayOpen] ++ eachRow row true picked ++ [.arrayClose, .close]

/-! ## What is picked -/

/-- An entry of a visible network that no other entry of that network is stronger than. -/
structure Strongest (entries : List ScanEntry) (e : ScanEntry) : Prop where
  mem : e ∈ entries
  visible : e.ssid ≠ []
  strongest : ∀ e' ∈ entries, e'.ssid = e.ssid → e'.rssi.toInt ≤ e.rssi.toInt

/-- The entries picked among the first ones. -/
structure Picked (entries picked : List ScanEntry) : Prop where
  distinct : (picked.map ScanEntry.ssid).Nodup
  strongest : ∀ p ∈ picked, Strongest entries p
  covers : ∀ e ∈ entries, e.ssid ≠ [] → e.ssid ∈ picked.map ScanEntry.ssid

theorem pick_ssids (picked : List ScanEntry) (i : ScanEntry) :
    (pick picked i).map ScanEntry.ssid =
      if i.ssid ∈ picked.map ScanEntry.ssid then picked.map ScanEntry.ssid
      else picked.map ScanEntry.ssid ++ [i.ssid] := by
  induction picked with
  | nil => simp [pick]
  | cons p picked ih =>
    by_cases hp : p.ssid = i.ssid
    · have hhead : (if p.rssi.toInt < i.rssi.toInt then i else p).ssid = i.ssid := by
        split_ifs
        · rfl
        · exact hp
      simp [pick, hp, hhead]
    · have hne : i.ssid ≠ p.ssid := fun h => hp h.symm
      rw [pick, if_neg hp, List.map_cons, ih, List.map_cons]
      by_cases hmem : i.ssid ∈ picked.map ScanEntry.ssid
      · rw [if_pos hmem, if_pos (List.mem_cons_of_mem _ hmem)]
      · rw [if_neg hmem, if_neg (by simpa [hne] using hmem), List.cons_append]

/-- What is picked was picked before, or is the new entry; of one network the stronger is kept. -/
theorem mem_pick {picked : List ScanEntry} (hnodup : (picked.map ScanEntry.ssid).Nodup) {i p : ScanEntry}
    (hp : p ∈ pick picked i) :
    (p ∈ picked ∧ (p.ssid = i.ssid → i.rssi.toInt ≤ p.rssi.toInt)) ∨
      (p = i ∧ ∀ q ∈ picked, q.ssid = i.ssid → q.rssi.toInt < i.rssi.toInt) := by
  induction picked with
  | nil => exact Or.inr ⟨List.mem_singleton.1 hp, by simp⟩
  | cons q picked ih =>
    rw [List.map_cons, List.nodup_cons] at hnodup
    obtain ⟨hq, hnodup⟩ := hnodup
    rw [pick] at hp
    by_cases hsame : q.ssid = i.ssid
    · -- no other entry is of this network
      have hother : ∀ r ∈ picked, r.ssid ≠ i.ssid := fun r hr h =>
        hq (List.mem_map.2 ⟨r, hr, by rw [h, hsame]⟩)
      rw [if_pos hsame] at hp
      obtain hp | hp := List.mem_cons.1 hp
      · split_ifs at hp with hlt
        · refine Or.inr ⟨hp, fun r hr hr' => ?_⟩
          obtain rfl | hr := List.mem_cons.1 hr
          · exact hlt
          · exact absurd hr' (hother r hr)
        · subst hp
          exact Or.inl ⟨List.mem_cons_self, fun _ => by omega⟩
      · exact Or.inl ⟨List.mem_cons_of_mem q hp, fun h => absurd h (hother p hp)⟩
    · rw [if_neg hsame] at hp
      obtain rfl | hp := List.mem_cons.1 hp
      · exact Or.inl ⟨List.mem_cons_self, fun h => absurd h hsame⟩
      · obtain ⟨hp, hle⟩ | ⟨rfl, hlt⟩ := ih hnodup hp
        · exact Or.inl ⟨List.mem_cons_of_mem q hp, hle⟩
        · refine Or.inr ⟨rfl, fun r hr hr' => ?_⟩
          obtain rfl | hr := List.mem_cons.1 hr
          · exact absurd hr' hsame
          · exact hlt r hr hr'

theorem pick_picked {entries picked : List ScanEntry} (h : Picked entries picked) {i : ScanEntry}
    (hi : i.ssid ≠ []) : Picked (entries ++ [i]) (pick picked i) where
  distinct := by
    rw [pick_ssids]
    split_ifs with hmem
    · exact h.distinct
    · exact List.nodup_append.2 ⟨h.distinct, by simp, by
        rintro a ha b hb rfl
        exact hmem (List.mem_singleton.1 hb ▸ ha)⟩
  strongest := by
    intro p hp
    obtain ⟨hp, hle⟩ | ⟨rfl, hlt⟩ := mem_pick h.distinct hp
    · have hstrong := h.strongest p hp
      refine ⟨List.mem_append_left _ hstrong.mem, hstrong.visible, fun e he hsame => ?_⟩
      obtain he | he := List.mem_append.1 he
      · exact hstrong.strongest e he hsame
      · rw [List.mem_singleton.1 he] at hsame ⊢
        exact hle hsame.symm
    · refine ⟨by simp, hi, fun e he hsame => ?_⟩
      obtain he | he := List.mem_append.1 he
      · have hcover := h.covers e he (hsame ▸ hi)
        obtain ⟨q, hq, hqe⟩ := List.mem_map.1 hcover
        have hstrong := (h.strongest q hq).strongest e he hqe.symm
        have := hlt q hq (hqe.trans hsame)
        omega
      · rw [List.mem_singleton.1 he]
  covers := by
    intro e he hvisible
    rw [pick_ssids]
    obtain he | he := List.mem_append.1 he
    · have hcover := h.covers e he hvisible
      split_ifs
      · exact hcover
      · exact List.mem_append_left _ hcover
    · rw [List.mem_singleton.1 he]
      split_ifs with hmem
      · exact hmem
      · simp

theorem pickAll_picked (entries : List ScanEntry) : Picked entries (pickAll entries) := by
  induction entries using List.reverseRecOn with
  | nil => exact ⟨by simp [pickAll], by simp [pickAll], by simp⟩
  | append_singleton entries i ih =>
    rw [pickAll, List.foldl_append, List.foldl_cons, List.foldl_nil]
    split_ifs with hi
    · refine ⟨ih.distinct, fun p hp => ?_, fun e he hvisible => ?_⟩
      · have hstrong := ih.strongest p hp
        refine ⟨List.mem_append_left _ hstrong.mem, hstrong.visible, fun e he hsame => ?_⟩
        obtain he | he := List.mem_append.1 he
        · exact hstrong.strongest e he hsame
        · rw [List.mem_singleton.1 he] at hsame
          exact absurd (hsame.symm.trans hi) hstrong.visible
      · obtain he | he := List.mem_append.1 he
        · exact ih.covers e he hvisible
        · rw [List.mem_singleton.1 he] at hvisible
          exact absurd hi hvisible
    · exact pick_picked ih hi

/-! ## What is shown -/

/-- The networks to show of a scan. -/
structure Shows (entries shown : List ScanEntry) : Prop where
  few : shown.length ≤ kMaxScanResults
  /-- Each once. -/
  distinct : (shown.map ScanEntry.ssid).Nodup
  strongest : ∀ e ∈ shown, Strongest entries e
  sorted : shown.Pairwise fun a b => b.rssi.toInt ≤ a.rssi.toInt
  /-- One is left out only where there is no room, and for stronger ones. -/
  complete : ∀ e ∈ entries, e.ssid ≠ [] → e.ssid ∉ shown.map ScanEntry.ssid →
    shown.length = kMaxScanResults ∧ ∀ s ∈ shown, e.rssi.toInt ≤ s.rssi.toInt

theorem shows_take {sort : List ScanEntry → List ScanEntry} (hperm : ∀ l, (sort l).Perm l)
    (hsorted : ∀ l, (sort l).Pairwise fun a b => b.rssi.toInt ≤ a.rssi.toInt)
    (entries : List ScanEntry) :
    Shows entries ((sort (pickAll entries)).take kMaxScanResults) := by
  have h := pickAll_picked entries
  have hp := hperm (pickAll entries)
  have hs := hsorted (pickAll entries)
  generalize sort (pickAll entries) = sorted at hp hs
  refine ⟨List.length_take_le _ _, ?_, ?_, hs.sublist (List.take_sublist _ _), ?_⟩
  · have hnodup := (hp.map ScanEntry.ssid).nodup_iff.2 h.distinct
    exact hnodup.sublist ((List.take_sublist _ _).map _)
  · exact fun e he => h.strongest e (hp.subset (List.mem_of_mem_take he))
  · intro e he hvisible hout
    obtain ⟨p, hpicked, hpe⟩ := List.mem_map.1 (h.covers e he hvisible)
    have hmem : p ∈ sorted := hp.symm.subset hpicked
    have hle := (h.strongest p hpicked).strongest e he hpe.symm
    rw [← List.take_append_drop kMaxScanResults sorted] at hmem hs
    obtain hmem | hmem := List.mem_append.1 hmem
    · exact absurd (List.mem_map.2 ⟨p, hmem, hpe⟩) hout
    · constructor
      · have hlen := List.length_pos_of_mem hmem
        rw [List.length_drop] at hlen
        rw [List.length_take]
        omega
      · intro s hs'
        have := (List.pairwise_append.1 hs).2.2 s hs' p hmem
        omega

/-! ## What the client reads -/

/-- What the client takes of a network: its name, its signal and whether it is secured. -/
def readNetwork (v : Value) : Option (List Char × ℚ × Bool) := do
  let ssid ← (v.field "ssid".toList).bind Value.asStr
  let rssi ← (v.field "rssi".toList).bind Value.asNum
  let secure ← (v.field "secure".toList).bind Value.asBool
  some (ssid, rssi, secure)

def readNetworks (v : Value) : Option (List (List Char × ℚ × Bool)) := do
  let networks ← (v.field "networks".toList).bind Value.asArr
  networks.mapM readNetwork

/-- A row of the network of that name. -/
def rowDoc (name : List Char) (e : ScanEntry) : JsonDoc :=
  .obj [("ssid".toList, .str (some name)), ("rssi".toList, .i e.rssi),
    ("secure".toList, .boolean e.secure)]

/-- The answer, where `name` is what the names of the networks are in characters. -/
def answerDoc (name : ScanEntry → List Char) (shown : List ScanEntry) : JsonDoc :=
  .obj [("networks".toList, .arr (shown.map fun e => rowDoc (name e) e))]

theorem rowDoc_calls (e : ScanEntry) : (rowDoc e.ssid e).calls = row e := by
  simp [rowDoc, row, JsonDoc.calls]

theorem rowDoc_utf8 (name : List Char) (e : ScanEntry) :
    (rowDoc name e).utf8 = rowDoc (Utf8.encode name) e := by
  simp (disch := decide) [rowDoc, JsonDoc.utf8, Utf8.encode_cons]

theorem readNetwork_row {name : List Char} (h : cStr name = name) (e : ScanEntry) :
    readNetwork (rowDoc name e).value = some (name, (e.rssi.toInt : ℚ), e.secure) := by
  simp only [rowDoc, JsonDoc.value, List.map_cons, List.map_nil, h]
  rfl

/-- What is sent is the answer with the names in UTF-8. -/
theorem answer_calls {sort : List ScanEntry → List ScanEntry} {entries : List ScanEntry}
    {name : ScanEntry → List Char}
    (h : ∀ e ∈ (sort (pickAll entries)).take kMaxScanResults, e.ssid = Utf8.encode (name e)) :
    answer sort entries =
      (answerDoc name ((sort (pickAll entries)).take kMaxScanResults)).utf8.calls := by
  have hrow : ∀ e ∈ (sort (pickAll entries)).take kMaxScanResults,
      row e = (rowDoc (name e) e).utf8.calls := by
    intro e he
    rw [rowDoc_utf8, ← h e he, rowDoc_calls]
  rw [answer, JsonDoc.eachRow_eq, List.map_congr_left hrow]
  simp (disch := decide) [answerDoc, JsonDoc.utf8, JsonDoc.calls, Utf8.encode_cons,
    Function.comp_def]

theorem fits_answerDoc (name : ScanEntry → List Char) (shown : List ScanEntry) :
    (answerDoc name shown).Fits JsonStream.kMaxDepth := by
  refine .obj fun x hx => ?_
  rw [List.mem_singleton.1 hx]
  refine .arr fun v hv => ?_
  obtain ⟨e, -, rfl⟩ := List.mem_map.1 hv
  refine .obj fun y hy => ?_
  simp only [List.mem_cons, List.not_mem_nil, or_false] at hy
  obtain rfl | rfl | rfl := hy
  · exact .str _
  · exact .i _
  · exact .boolean _

theorem cStr_cStr (s : List Char) : cStr (cStr s) = cStr s := List.takeWhile_idem

/-- What the client takes of an answer. -/
theorem readNetworks_answerDoc {name : ScanEntry → List Char} {shown : List ScanEntry}
    (h : ∀ e ∈ shown, cStr (name e) = name e) :
    readNetworks (answerDoc name shown).value =
      some (shown.map fun e => (name e, (e.rssi.toInt : ℚ), e.secure)) := by
  have hvalue : (answerDoc name shown).value =
      .obj [(cStr "networks".toList, .arr (shown.map fun e => (rowDoc (name e) e).value))] := by
    simp [answerDoc, JsonDoc.value, Function.comp_def]
  have hfield : Value.field "networks".toList (.obj [(cStr "networks".toList,
      .arr (shown.map fun e => (rowDoc (name e) e).value))]) =
        some (.arr (shown.map fun e => (rowDoc (name e) e).value)) := rfl
  rw [hvalue, readNetworks, hfield]
  exact mapM_map (fun e he => readNetwork_row (h e he) e)

/-- **The scan that the client sees.**  Whatever the radio has found, where the names of the networks
are in UTF-8: the body of the answer is read back as a list of networks in which each visible network
is once, with its strongest signal, the strongest first, and from which one is missing only for want of
room. -/
theorem scan_read {sort : List ScanEntry → List ScanEntry} (hperm : ∀ l, (sort l).Perm l)
    (hsorted : ∀ l, (sort l).Pairwise fun a b => b.rssi.toInt ≤ a.rssi.toInt)
    (entries : List ScanEntry) (hnames : ∀ e ∈ entries, ∃ name, e.ssid = Utf8.encode name)
    (flushAt : ℕ) :
    ∃ j networks shown,
      JsonStream.run { flushAt := flushAt } (answer sort entries ++ [.finish]) = some j ∧
      (readBody j.chunks.flatten).bind readNetworks = some networks ∧
      networks.map (fun n => (Utf8.encode n.1, n.2)) =
        shown.map (fun e => (e.ssid, (e.rssi.toInt : ℚ), e.secure)) ∧
      Shows entries shown := by
  have hshows := shows_take hperm hsorted entries
  choose! name hname using hnames
  have hssid : ∀ e ∈ (sort (pickAll entries)).take kMaxScanResults, e.ssid = Utf8.encode (name e) :=
    fun e he => hname e (hshows.strongest e he).mem
  have hcStr : ∀ e ∈ (sort (pickAll entries)).take kMaxScanResults, cStr (name e) = name e := by
    intro e he
    apply Utf8.encode_injective
    rw [← cStr_encode, ← hssid e he, ScanEntry.ssid, cStr_cStr]
  have hfits := fits_answerDoc name ((sort (pickAll entries)).take kMaxScanResults)
  obtain ⟨j, hrun, hbody⟩ := document_sent hfits.utf8 flushAt
  refine ⟨j, ((sort (pickAll entries)).take kMaxScanResults).map
    fun e => (name e, (e.rssi.toInt : ℚ), e.secure), _, ?_, ?_, ?_, hshows⟩
  · rw [answer_calls hssid, hrun]
  · rw [hbody, text_utf8 hfits, readBody, Utf8.decode_encode, Option.bind_some, parse_text hfits,
      Option.bind_some, readNetworks_answerDoc hcStr]
  · rw [List.map_map]
    exact List.map_congr_left fun e he => by simp [hssid e he]

/-- A sort. -/
def strongestFirst (l : List ScanEntry) : List ScanEntry :=
  l.mergeSort fun a b => decide (b.rssi.toInt ≤ a.rssi.toInt)

/-- Two networks, one of them heard twice. -/
def cafe : List ScanEntry :=
  [⟨Utf8.encode ['é', '"'], -60, true⟩, ⟨['b'], -70, false⟩, ⟨Utf8.encode ['é', '"'], -50, true⟩]

theorem scan_read_cafe :
    ∃ j networks shown,
      JsonStream.run { flushAt := 16 } (answer strongestFirst cafe ++ [.finish]) = some j ∧
      (readBody j.chunks.flatten).bind readNetworks = some networks ∧
      networks.map (fun n => (Utf8.encode n.1, n.2)) =
        shown.map (fun e => (e.ssid, (e.rssi.toInt : ℚ), e.secure)) ∧
      Shows cafe shown := by
  have hsorted (l : List ScanEntry) :
      (strongestFirst l).Pairwise fun a b => b.rssi.toInt ≤ a.rssi.toInt := by
    have hpairwise : (strongestFirst l).Pairwise fun a b =>
        decide (b.rssi.toInt ≤ a.rssi.toInt) = true :=
      List.pairwise_mergeSort (by simp; omega) (by simp; omega) l
    simpa using hpairwise
  have hname (s : List Char) (rssi : I32) (secure : Bool) (hs : cStr s = s) :
      ∃ name, (ScanEntry.mk (Utf8.encode s) rssi secure).ssid = Utf8.encode name :=
    ⟨s, by rw [ScanEntry.ssid, cStr_encode, hs]⟩
  refine scan_read (fun l => List.mergeSort_perm l _) hsorted cafe (fun e he => ?_) 16
  simp only [cafe, List.mem_cons, List.not_mem_nil, or_false] at he
  obtain rfl | rfl | rfl := he
  · exact hname _ _ _ rfl
  · exact ⟨['b'], rfl⟩
  · exact hname _ _ _ rfl

end WifiScan

end Pumpbug.Net
