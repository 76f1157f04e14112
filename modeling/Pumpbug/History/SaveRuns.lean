import Pumpbug.History.ShotStore
import Pumpbug.Lib.Run
import Pumpbug.WireRoundTrip

/-!
# Saves and reboots

Over any run of saves and reboots the ids increase, since each is committed before it is handed out.
What retention keeps depends on the directory walk: an entry that the walk does not reach goes
uncounted.
-/

namespace Pumpbug

open Lib Lib.Reader

namespace ShotStore

/-! ## The walk -/

/-- The ids of the shot files that the walk reaches, -/
def seenIds (s : ShotStore) (f : SaveFaults) : List ℕ :=
  if f.scanExistsFails then []
  else (s.files.entries.filter fun entry => entry.1 ∉ f.missed).filterMap (entryId false)

/-- and of the others. -/
def unseenIds (s : ShotStore) (f : SaveFaults) : List ℕ :=
  if f.scanExistsFails then shotIds s.files
  else (s.files.entries.filter fun entry => entry.1 ∈ f.missed).filterMap (entryId false)

theorem seen_perm (s : ShotStore) (f : SaveFaults) :
    (s.seenIds f ++ s.unseenIds f).Perm (shotIds s.files) := by
  unfold seenIds unseenIds
  by_cases hno : f.scanExistsFails = true
  · rw [if_pos hno, if_pos hno]
    exact List.Perm.refl _
  · rw [if_neg hno, if_neg hno, ← List.filterMap_append]
    refine List.Perm.filterMap _ ?_
    have hperm := List.filter_append_perm (fun entry => decide (entry.1 ∉ f.missed)) s.files.entries
    have hnot : (fun entry : Sigma fun _ : FileName => DirEntry =>
        !decide (entry.1 ∉ f.missed)) = fun entry => decide (entry.1 ∈ f.missed) := by
      funext entry
      by_cases h : entry.1 ∈ f.missed <;> simp [h]
    rw [hnot] at hperm
    exact hperm

theorem scanIds_eq_some {s : ShotStore} {f : SaveFaults} {ids : List ℕ} (hdir : s.dir = some s.files)
    (h : s.scanIds f = some ids) : ids = (s.seenIds f).insertionSort (· ≤ ·) := by
  unfold scanIds at h
  rw [hdir] at h
  dsimp only at h
  unfold seenIds
  split_ifs at h ⊢ with hexists hopen
  · exact (Option.some.inj h).symm
  · have hid : entryId s.namesWithDir = entryId false := funext (entryId_eq s.namesWithDir)
    rw [hid] at h
    exact (Option.some.inj h).symm

/-- No id of the walk exceeds the last. -/
theorem le_getLast {ids : List ℕ} (h : ids.Pairwise (· ≤ ·)) {k : ℕ} (hk : k ∈ ids) :
    k ≤ ids.getLast?.getD 0 := by
  rcases List.eq_nil_or_concat ids with rfl | ⟨front, last, rfl⟩
  · cases hk
  · rw [List.concat_eq_append] at h hk ⊢
    rw [List.getLast?_concat, Option.getD_some]
    rcases List.mem_append.1 hk with hk | hk
    · exact (List.pairwise_append.1 h).2.2 k hk last (List.mem_singleton_self last)
    · exact (List.mem_singleton.1 hk).le

/-! ## The counter -/

end ShotStore

/-- The counter is at `id` or beyond it, whatever becomes of the pending write. -/
def Nvs.Covers (n : Nvs) (id : ℕ) : Prop :=
  id ≤ n.committed.getD 0 ∧ ∀ last, n.pending = some last → id ≤ last

theorem Nvs.Covers.le_lastId {n : Nvs} {id : ℕ} (h : n.Covers id) : id ≤ n.lastId := by
  unfold lastId
  cases hp : n.pending with
  | none => exact h.1
  | some last => exact h.2 last hp

theorem Nvs.Covers.dropPending {n : Nvs} {id : ℕ} (h : n.Covers id) :
    ({ n with pending := none } : Nvs).Covers id := ⟨h.1, nofun⟩

namespace ShotStore

theorem persistId_pos {nvs nvs' : Nvs} {next id : ℕ} {f : SaveFaults}
    (h : persistId nvs next f = (id, nvs')) (hid : id ≠ 0) :
    id = next ∧ nvs' = { committed := some id } := by
  unfold persistId at h
  split at h
  · exact absurd (congrArg Prod.fst h).symm hid
  · exact absurd (congrArg Prod.fst h).symm hid
  · exact absurd (congrArg Prod.fst h).symm hid
  · exact absurd (congrArg Prod.fst h).symm hid
  · cases h
    exact ⟨rfl, rfl⟩

theorem covers_persistId {nvs : Nvs} {id next : ℕ} (h : nvs.Covers id) (hnext : id ≤ next)
    (f : SaveFaults) : (persistId nvs next f).2.Covers id := by
  have hclose : ∀ n : Nvs, n.Covers id → (closeNvs n f).Covers id := by
    intro n hn
    unfold closeNvs
    split_ifs
    · exact hn.dropPending
    · exact hn
  have hpending : ({ nvs with pending := some next } : Nvs).Covers id :=
    ⟨h.1, fun last hlast => by cases hlast; exact hnext⟩
  have hcommitted : ({ committed := some next } : Nvs).Covers id := ⟨hnext, nofun⟩
  unfold persistId
  split
  · exact hclose _ h
  · exact hclose _ hpending
  · exact hclose _ hpending
  · exact hcommitted
  · exact hcommitted

/-- An id that is handed out has been committed, and is beyond the counter and the greatest file. -/
theorem reserveNextShotId_pos {nvs nvs' : Nvs} {greatest id : ℕ} {f : SaveFaults}
    (h : reserveNextShotId nvs greatest f = (id, nvs')) (hid : id ≠ 0) :
    id = max nvs.lastId greatest + 1 ∧ id ≤ kMaxShotId ∧ nvs' = { committed := some id } := by
  unfold reserveNextShotId at h
  dsimp only at h
  split_ifs at h with hopen hread hmax
  · exact absurd (congrArg Prod.fst h).symm hid
  · exact absurd (congrArg Prod.fst h).symm hid
  · exact absurd (congrArg Prod.fst h).symm hid
  · obtain ⟨hnext, hnvs⟩ := persistId_pos h hid
    exact ⟨hnext, by omega, hnvs⟩

/-- The counter never falls. -/
theorem covers_reserveNextShotId {nvs : Nvs} {id : ℕ} (h : nvs.Covers id) (greatest : ℕ)
    (f : SaveFaults) : (reserveNextShotId nvs greatest f).2.Covers id := by
  unfold reserveNextShotId
  dsimp only
  split_ifs
  · exact h
  · exact h
  · exact h
  · exact covers_persistId h (h.le_lastId.trans ((le_max_left _ _).trans (Nat.le_succ _))) f

/-! ## The reservation -/

/-- What a save without an id leaves as it was. -/
structure Idle (s s' : ShotStore) : Prop where
  files : s'.files = s.files
  covers : ∀ id, s.nvs.Covers id → s'.nvs.Covers id

theorem idle_handOut {s s' : ShotStore} {f : SaveFaults} (h : s.handOut f = (s', none)) :
    Idle s s' := by
  unfold handOut at h
  split at h
  · cases h
    exact ⟨rfl, fun _ => id⟩
  · rename_i ids hscan
    split at h
    · rename_i nvs hreserve
      cases h
      refine ⟨rfl, fun id hid => ?_⟩
      have hcovers := covers_reserveNextShotId hid (ids.getLast?.getD 0) f
      rw [hreserve] at hcovers
      exact hcovers
    · cases h

theorem idle_reserve {s s' : ShotStore} {ext : Extraction} {f : SaveFaults}
    (h : s.reserve ext f = (s', none)) : Idle s s' := by
  unfold reserve at h
  split_ifs at h
  · cases h
    exact ⟨rfl, fun _ => id⟩
  · cases h
    exact ⟨rfl, fun _ => id⟩
  · cases h
    exact ⟨rfl, fun _ => id⟩
  · cases h
    exact ⟨rfl, fun _ => id⟩
  · cases h
    exact ⟨rfl, fun _ => id⟩
  · have hidle := idle_handOut h
    exact ⟨hidle.files, hidle.covers⟩

/-- A save with an id: what the walk has seen, and the id beyond it and beyond the counter. -/
structure HandsOut (s s' : ShotStore) (f : SaveFaults) (ids : List ℕ) (id : ℕ) : Prop where
  walk : ids = (s.seenIds f).insertionSort (· ≤ ·)
  pos : id ≠ 0
  le : id ≤ kMaxShotId
  beyondCounter : s.nvs.lastId < id
  beyondWalk : ∀ k ∈ ids, k < id
  store : s' = { s with dir := some s.files, nvs := { committed := some id } }

theorem handsOut_handOut {s s' : ShotStore} {f : SaveFaults} {ids : List ℕ} {id : ℕ}
    (hdir : s.dir = some s.files) (h : s.handOut f = (s', some (ids, id))) :
    HandsOut s s' f ids id := by
  unfold handOut at h
  split at h
  · cases h
  · rename_i ids' hscan
    split at h
    · cases h
    · rename_i k nvs hreserve
      cases h
      obtain ⟨hnext, hle, hnvs⟩ := reserveNextShotId_pos hreserve (Nat.succ_ne_zero k)
      have hids := scanIds_eq_some hdir hscan
      have hsorted : ids.Pairwise (· ≤ ·) := by
        rw [hids]
        exact List.pairwise_insertionSort (· ≤ ·) _
      refine ⟨hids, Nat.succ_ne_zero k, hle, ?_, fun j hj => ?_, ?_⟩
      · have := le_max_left s.nvs.lastId (ids.getLast?.getD 0)
        omega
      · have h₁ := le_getLast hsorted hj
        have h₂ := le_max_right s.nvs.lastId (ids.getLast?.getD 0)
        omega
      · rw [hnvs, ← hdir]

theorem handsOut_reserve {s s' : ShotStore} {ext : Extraction} {f : SaveFaults} {ids : List ℕ}
    {id : ℕ} (h : s.reserve ext f = (s', some (ids, id))) :
    ext.version = kCurrentExtractionVersion ∧ (∃ n, encodeCompactSize ext = some n) ∧
      HandsOut s s' f ids id := by
  unfold reserve at h
  split_ifs at h with h₁ h₂ h₃ h₄ h₅
  · cases h
  · cases h
  · cases h
  · cases h
  · cases h
  · have hdir : ({ s with dir := some s.files } : ShotStore).dir =
        some ({ s with dir := some s.files } : ShotStore).files := rfl
    obtain ⟨hwalk, hpos, hle, hcounter, hbeyond, hstore⟩ := handsOut_handOut hdir h
    exact ⟨not_not.1 h₂, Option.ne_none_iff_exists'.1 h₃, hwalk, hpos, hle, hcounter, hbeyond, hstore⟩

/-! ## The record -/

theorem appendChunks_prefix (content : Bytes) (chunks : List Bytes) (faults : List (Option ℕ)) :
    (appendChunks content chunks faults).1 <+: content ++ chunks.flatten := by
  induction chunks generalizing content faults with
  | nil =>
    rw [List.flatten_nil, List.append_nil]
    exact List.prefix_refl _
  | cons chunk chunks ih =>
    unfold appendChunks
    rw [List.flatten_cons]
    cases faults.headD none with
    | none =>
      have := ih (content ++ chunk) faults.tail
      rw [List.append_assoc] at this
      exact this
    | some k =>
      rw [List.prefix_append_right_inj]
      exact (List.take_prefix k chunk).trans (List.prefix_append _ _)

theorem closed_prefix (content : Bytes) (f : SaveFaults) : closed content f <+: content := by
  unfold closed
  cases f.closeKeeps with
  | none => exact List.prefix_refl _
  | some k => exact List.take_prefix k content

theorem encodedSize_pos (ext : Extraction) {n : ℕ} (h : encodeCompactSize ext = some n) : n ≠ 0 := by
  unfold encodeCompactSize at h
  split_ifs at h
  have hpos : 0 < kCompactHeaderBytes := by decide
  have := Option.some.inj h
  omega

theorem length_of_verifies {content : Bytes} {n : ℕ} {f : SaveFaults} (hn : n ≠ 0)
    (h : verifies content n f = true) : content.length = n := by
  unfold verifies at h
  dsimp only at h
  rw [Bool.and_eq_true, decide_eq_true_eq] at h
  by_cases hno : (f.checkOpenFails || f.checkSizeFails) = true
  · rw [if_pos hno] at h
    exact absurd h.1.symm hn
  · rw [if_neg hno] at h
    exact h.1

/-- What a verified file has in it: the whole record. -/
theorem writeOpened_true {files files' : ShotFiles} {ext : Extraction} {id n : ℕ} {f : SaveFaults}
    (hn : encodeCompactSize ext = some n) (h : writeOpened files ext id n f = (files', true)) :
    files' = files.insert (fileName id) (.file (compactBytes ext)) := by
  have hpos := encodedSize_pos ext hn
  rw [encodeCompactSize_eq] at hn
  obtain ⟨chunks, hchunks, hlen⟩ := Option.map_eq_some_iff.1 hn
  have hbytes := encodeCompact_flatten hchunks
  rw [hbytes] at hlen
  unfold writeOpened at h
  rw [hchunks, Option.getD_some] at h
  dsimp only at h
  split_ifs at h with hverified
  · have hpre : closed (appendChunks [] chunks f.writes).1 f <+: compactBytes ext := by
      rw [← hbytes]
      exact ( closed_prefix _ f).trans ( appendChunks_prefix [] chunks f.writes)
    have hverifies := (Bool.and_eq_true_iff.1 hverified).2
    rw [hpre.eq_of_length ((length_of_verifies hpos hverifies).trans hlen.symm)] at h
    exact (congrArg Prod.fst h).symm
  · exact absurd (congrArg Prod.snd h) nofun
  · exact absurd (congrArg Prod.snd h) nofun

theorem writeRecord_true {files files' : ShotFiles} {ext : Extraction} {id n : ℕ} {f : SaveFaults}
    (hn : encodeCompactSize ext = some n) (h : writeRecord files ext id n f = (files', true)) :
    files' = files.insert (fileName id) (.file (compactBytes ext)) := by
  unfold writeRecord at h
  split_ifs at h
  · cases h
  · cases hopen : f.openFile with
    | some applied =>
      rw [hopen] at h
      cases h
    | none =>
      rw [hopen] at h
      exact writeOpened_true hn h

/-- A record that is not verified leaves all other entries, and a directory in its place. -/
theorem writeRecord_false {files files' : ShotFiles} {ext : Extraction} {id n : ℕ} {f : SaveFaults}
    (h : writeRecord files ext id n f = (files', false)) {name : FileName}
    (hname : name = fileName id → files.lookup name = some .directory) :
    files'.lookup name = files.lookup name := by
  unfold writeRecord at h
  split_ifs at h with hdir
  · cases h
    rfl
  · have hne : name ≠ fileName id := fun heq => hdir (heq ▸ hname heq)
    cases hopen : f.openFile with
    | some applied =>
      rw [hopen] at h
      obtain rfl := congrArg Prod.fst h
      dsimp only
      split_ifs
      · exact AList.lookup_insert_ne hne
      · rfl
    | none =>
      rw [hopen] at h
      unfold writeOpened at h
      dsimp only at h
      split_ifs at h
      · exact absurd (congrArg Prod.snd h) nofun
      · obtain rfl := congrArg Prod.fst h
        exact AList.lookup_insert_ne hne
      · obtain rfl := congrArg Prod.fst h
        dsimp only
        rw [AList.lookup_erase_ne hne, AList.lookup_insert_ne hne]

/-! ## Retention -/

/-- Eviction removes the files it is given and no others. -/
theorem evict_lookup (ids : List ℕ) (faults : List WriteFault) (e : Eviction) {name : FileName}
    (h : ∀ id ∈ ids, name ≠ fileName id) :
    (evict ids faults e).files.lookup name = e.files.lookup name := by
  induction ids generalizing faults e with
  | nil => rfl
  | cons id ids ih =>
    have herase : (e.files.erase (fileName id)).lookup name = e.files.lookup name :=
      AList.lookup_erase_ne (h id (by simp))
    unfold evict
    cases faults.headD none with
    | none => exact (ih faults.tail _ fun k hk => h k (by simp [hk])).trans herase
    | some applied =>
      dsimp only
      split_ifs
      · exact herase
      · rfl

/-- Without a failed removal the files are gone. -/
theorem mem_evict {ids : List ℕ} {faults : List WriteFault} {e : Eviction}
    (hle : ∀ id ∈ ids, id ≤ kMaxShotId) (h : (evict ids faults e).failed = false) {k : ℕ} :
    k ∈ shotIds (evict ids faults e).files ↔ k ∈ shotIds e.files ∧ k ∉ ids := by
  induction ids generalizing faults e with
  | nil => simp [evict]
  | cons id ids ih =>
    unfold evict at h ⊢
    cases hfault : faults.headD none with
    | none =>
      rw [hfault] at h
      dsimp only at h ⊢
      rw [ih (fun j hj => hle j (by simp [hj])) h, mem_shotIds_erase (hle id (by simp)),
        List.mem_cons, not_or]
      tauto
    | some applied =>
      rw [hfault] at h
      exact absurd h nofun

theorem evict_perm {ids : List ℕ} {faults : List WriteFault} {e : Eviction} (hnodup : ids.Nodup)
    (hids : ∀ id ∈ ids, id ∈ shotIds e.files) (h : (evict ids faults e).failed = false) :
    (ids ++ shotIds (evict ids faults e).files).Perm (shotIds e.files) := by
  have hmem : ∀ {k}, k ∈ shotIds (evict ids faults e).files ↔ k ∈ shotIds e.files ∧ k ∉ ids :=
    mem_evict (fun id hid => (mem_shotIds.1 (hids id hid)).2.1) h
  have hdisjoint : (ids ++ shotIds (evict ids faults e).files).Nodup :=
    hnodup.append (nodup_shotIds _) fun k hk hk' => (hmem.1 hk').2 hk
  rw [List.perm_ext_iff_of_nodup hdisjoint (nodup_shotIds _)]
  intro k
  rw [List.mem_append, hmem]
  constructor
  · rintro (hk | hk)
    · exact hids k hk
    · exact hk.1
  · intro hk
    by_cases hin : k ∈ ids
    · exact Or.inl hin
    · exact Or.inr ⟨hk, hin⟩

theorem insert_perm {files : ShotFiles} {id : ℕ} (h₀ : id ≠ 0) (h : id ≤ kMaxShotId)
    (hnew : id ∉ shotIds files) (bytes : Bytes) :
    (shotIds (files.insert (fileName id) (.file bytes))).Perm (id :: shotIds files) := by
  rw [List.perm_ext_iff_of_nodup (nodup_shotIds _) (List.nodup_cons.2 ⟨hnew, nodup_shotIds files⟩)]
  intro k
  rw [mem_shotIds_insert h₀ h, List.mem_cons]

/-! ## The save -/

theorem save_of_idle {s s' : ShotStore} {ext : Extraction} {f : SaveFaults}
    (h : s.reserve ext f = (s', none)) : s.save ext f = { store := s' } := by
  unfold save
  rw [h]

theorem save_of_handsOut {s s' : ShotStore} {ext : Extraction} {f : SaveFaults} {ids : List ℕ} {id : ℕ}
    (h : s.reserve ext f = (s', some (ids, id))) :
    s.save ext f = s'.writeAndEvict ext ids id f := by
  unfold save
  rw [h]

/-- A save leaves the counter that it has reserved from. -/
theorem nvs_writeAndEvict (s : ShotStore) (ext : Extraction) (ids : List ℕ) (id : ℕ) (f : SaveFaults) :
    (s.writeAndEvict ext ids id f).store.nvs = s.nvs := by
  unfold writeAndEvict
  dsimp only
  split_ifs <;> rfl

/-- A save that fails with an id has touched the new file only. -/
theorem writeAndEvict_false {s : ShotStore} {ext : Extraction} {ids : List ℕ} {id : ℕ} {f : SaveFaults}
    (h : (s.writeAndEvict ext ids id f).saved = false) {name : FileName}
    (hname : name = fileName id → s.files.lookup name = some .directory) :
    (s.writeAndEvict ext ids id f).store.files.lookup name = s.files.lookup name := by
  unfold writeAndEvict at h ⊢
  cases hw : writeRecord s.files ext id ((encodeCompactSize ext).getD 0) f with
  | mk files written =>
    rw [hw] at h
    cases written with
    | true => exact absurd h nofun
    | false => exact writeRecord_false hw hname

/-- A save that goes through: the record is written, and the oldest files are evicted. -/
theorem writeAndEvict_true {s : ShotStore} {ext : Extraction} {ids : List ℕ} {id n : ℕ} {f : SaveFaults}
    (hn : encodeCompactSize ext = some n) (h : (s.writeAndEvict ext ids id f).saved = true) :
    s.writeAndEvict ext ids id f =
      let e := evict ((ids ++ [id]).take ((ids ++ [id]).length - kMaxShots)) f.evictions
        { files := s.files.insert (fileName id) (.file (compactBytes ext)), revision := s.revision + 1 }
      { store := { s with dir := some e.files, revision := e.revision }, saved := true,
        removalFailed := e.failed } := by
  unfold writeAndEvict at h ⊢
  rw [hn, Option.getD_some] at h ⊢
  cases hw : writeRecord s.files ext id n f with
  | mk files written =>
    rw [hw] at h
    cases written with
    | false => exact absurd h nofun
    | true =>
      rw [writeRecord_true hn hw]
      rfl

end ShotStore

/-! ## Runs -/

/-- What the controller saves: a record whose samples have weights. -/
structure SavedShot where
  record : Extraction
  weighed : record.Weighed

/-- The store with the ids it has handed out. -/
structure ShotLog where
  store : ShotStore
  handed : List ℕ := []

namespace ShotLog

open ShotStore

inductive Op where
  | save (shot : SavedShot) (f : SaveFaults)
  | reboot (keepsPending : Bool)
  | erase (id : ℕ) (fault : WriteFault)
  | format

def step (s : ShotLog) : Op → ShotLog
  | .save shot f =>
    { store := (s.store.save shot.record f).store
      handed := s.handed ++ ((s.store.reserve shot.record f).2.map Prod.snd).toList }
  | .reboot keepsPending => { s with store := s.store.reboot keepsPending }
  | .erase id fault => { s with store := s.store.erase id fault }
  | .format => { s with store := s.store.format }

/-- What remains after a save that went through under the id `id`. -/
structure Retained (before after : ShotFiles) (id : ℕ) (shot : SavedShot) : Prop where
  /-- The greatest ids, at most 250 of them. -/
  newest : (shotIds after).Perm (((id :: shotIds before).insertionSort (· ≥ ·)).take kMaxShots)
  present : id ∈ shotIds after
  decodes : ∃ bytes, after.lookup (fileName id) = some (.file bytes) ∧
    Reads decodeCompact bytes shot.record.normalize

/-- What one call may do. -/
structure Sound (s : ShotLog) (op : Op) : Prop where
  increasing : (s.step op).handed.Pairwise (· < ·)
  /-- An id that is handed out is no file's. -/
  unused : ∀ id, (s.step op).handed = s.handed ++ [id] → id ∉ shotIds s.store.files
  /-- Every name that the store creates leads back to the id handed out. -/
  named : ∀ name, name ∉ s.store.files → name ∈ (s.step op).store.files →
    ∃ id, (s.step op).handed = s.handed ++ [id] ∧ name = fileName id ∧
      parseIdFromName (pathFor id) = id ∧ parseIdFromName (baseName id) = id
  /-- A save that fails leaves every file. -/
  kept : ∀ shot f, op = .save shot f → (s.store.save shot.record f).saved = false →
    ∀ name entry, s.store.files.lookup name = some entry →
      (s.step op).store.files.lookup name = some entry
  /-- A save that goes through, with all its removals, keeps the newest files. -/
  retained : ∀ shot f, op = .save shot f → (s.store.save shot.record f).saved = true →
    (s.store.save shot.record f).removalFailed = false →
    ∃ id, (s.step op).handed = s.handed ++ [id] ∧
      Retained s.store.files (s.step op).store.files id shot

/-- Where the walk of a save misses files, none of them has the id that is handed out; and unless
the save or a removal fails, there are fewer than 250 files. -/
def Safe (s : ShotLog) (op : Op) : Prop :=
  ∀ shot f, op = .save shot f → ∀ s' ids id, s.store.reserve shot.record f = (s', some (ids, id)) →
    id ∉ s.store.unseenIds f ∧
      ((s.store.save shot.record f).saved = true →
        (s.store.save shot.record f).removalFailed = false →
        s.store.unseenIds f = [] ∨ (shotIds s.store.files).length < kMaxShots)

/-- The ids so far increase, and the counter covers them. -/
structure Covered (s : ShotLog) : Prop where
  increasing : s.handed.Pairwise (· < ·)
  covers : ∀ id ∈ s.handed, s.store.nvs.Covers id

/-! ### The ids -/

theorem handed_save_idle {s : ShotLog} {shot : SavedShot} {f : SaveFaults} {s' : ShotStore}
    (h : s.store.reserve shot.record f = (s', none)) :
    s.step (.save shot f) = { store := s', handed := s.handed } := by
  unfold step
  dsimp only
  rw [save_of_idle h, h]
  exact congrArg (ShotLog.mk s') (List.append_nil _)

theorem handed_save {s : ShotLog} {shot : SavedShot} {f : SaveFaults} {s' : ShotStore} {ids : List ℕ}
    {id : ℕ} (h : s.store.reserve shot.record f = (s', some (ids, id))) :
    s.step (.save shot f) =
      { store := (s'.writeAndEvict shot.record ids id f).store, handed := s.handed ++ [id] } := by
  unfold step
  dsimp only
  rw [save_of_handsOut h, h]
  rfl

/-- **Step lemma.** The counter stays at or beyond every id handed out. -/
theorem covered_step {s : ShotLog} (op : Op) (h : s.Covered) : (s.step op).Covered := by
  cases op with
  | save shot f =>
    cases hr : s.store.reserve shot.record f with
    | mk s' r =>
      cases r with
      | none =>
        rw [handed_save_idle hr]
        exact ⟨h.increasing, fun id hid => (idle_reserve hr).covers id (h.covers id hid)⟩
      | some r =>
        obtain ⟨ids, id⟩ := r
        obtain ⟨-, -, hout⟩ := handsOut_reserve hr
        have hlt : ∀ k ∈ s.handed, k < id := fun k hk =>
          (h.covers k hk).le_lastId.trans_lt hout.beyondCounter
        rw [handed_save hr]
        constructor
        · refine List.pairwise_append.2 ⟨h.increasing, List.pairwise_singleton _ id, fun k hk j hj => ?_⟩
          rw [List.mem_singleton.1 hj]
          exact hlt k hk
        · intro k hk
          show (s'.writeAndEvict shot.record ids id f).store.nvs.Covers k
          rw [nvs_writeAndEvict, hout.store]
          refine ⟨?_, nofun⟩
          rcases List.mem_append.1 hk with hk | hk
          · exact (hlt k hk).le
          · exact (List.mem_singleton.1 hk).le
  | reboot keepsPending =>
    refine ⟨h.increasing, fun id hid => ⟨?_, nofun⟩⟩
    have hcovers := h.covers id hid
    cases keepsPending with
    | false => exact hcovers.1
    | true => exact hcovers.le_lastId
  | erase id fault =>
    refine ⟨h.increasing, fun k hk => ?_⟩
    have hnvs : (s.store.erase id fault).nvs = s.store.nvs := by
      unfold ShotStore.erase
      split <;> rfl
    show (s.store.erase id fault).nvs.Covers k
    rw [hnvs]
    exact h.covers k hk
  | format => exact ⟨h.increasing, h.covers⟩

/-! ### What retention keeps -/

section Retention

variable {s s' : ShotStore} {f : SaveFaults} {ids : List ℕ} {id : ℕ}

theorem walk_perm (h : HandsOut s s' f ids id) : (ids ++ s.unseenIds f).Perm (shotIds s.files) := by
  rw [h.walk]
  exact ((List.perm_insertionSort _ _).append_right _).trans (s.seen_perm f)

/-- An id beyond the walk that no missed file has is new. -/
theorem new_of_unseen (h : HandsOut s s' f ids id) (hid : id ∉ s.unseenIds f) :
    id ∉ shotIds s.files := by
  intro hmem
  rcases List.mem_append.1 ((walk_perm h).mem_iff.2 hmem) with hk | hk
  · exact lt_irrefl id (h.beyondWalk id hk)
  · exact hid hk

theorem walk_sorted (h : HandsOut s s' f ids id) : (ids ++ [id]).Pairwise (· < ·) := by
  have hnodup : ids.Nodup :=
    (List.nodup_append.1 ((walk_perm h).nodup_iff.2 (nodup_shotIds s.files))).1
  have hle : ids.Pairwise (· ≤ ·) := by
    rw [h.walk]
    exact List.pairwise_insertionSort (· ≤ ·) _
  have hlt : ids.Pairwise (· < ·) := by
    refine (hle.and hnodup).imp fun hab => ?_
    exact lt_of_le_of_ne hab.1 hab.2
  refine List.pairwise_append.2 ⟨hlt, List.pairwise_singleton _ id, fun k hk j hj => ?_⟩
  rw [List.mem_singleton.1 hj]
  exact h.beyondWalk k hk

/-- The evicted files and the remaining ones are the old files and the new one. -/
theorem evicted_perm (h : HandsOut s s' f ids id) (hnew : id ∉ shotIds s.files) {bytes : Bytes} {k n : ℕ}
    {e : Eviction} (he : e = evict ((ids ++ [id]).take k) f.evictions
      { files := s.files.insert (fileName id) (.file bytes), revision := n })
    (hok : e.failed = false) :
    ((ids ++ [id]).take k ++ shotIds e.files).Perm (id :: shotIds s.files) := by
  have hinsert := insert_perm h.pos h.le hnew bytes
  rw [he] at hok ⊢
  refine (evict_perm ?_ (fun j hj => ?_) hok).trans hinsert
  · exact ((walk_sorted h).imp fun hab => ne_of_lt hab).sublist (List.take_sublist _ _)
  · refine hinsert.mem_iff.2 ?_
    rcases List.mem_append.1 (List.mem_of_mem_take hj) with hj | hj
    · exact List.mem_cons_of_mem _ ((walk_perm h).mem_iff.1 (List.mem_append_left _ hj))
    · rw [List.mem_singleton.1 hj]
      exact List.mem_cons_self

/-- The greatest of a set of ids, from its ascending list. -/
theorem greatest_perm {all before : List ℕ} (hsorted : all.Pairwise (· < ·)) (hperm : all.Perm before)
    (n : ℕ) : (all.drop (all.length - n)).Perm ((before.insertionSort (· ≥ ·)).take n) := by
  have hrev : before.insertionSort (· ≥ ·) = all.reverse := by
    refine List.Perm.eq_of_pairwise (fun a b _ _ hab hba => le_antisymm hba hab)
      (List.pairwise_insertionSort (· ≥ ·) before)
      (List.pairwise_reverse.2 (hsorted.imp fun hab => hab.le)) ?_
    exact (List.perm_insertionSort _ before).trans (hperm.symm.trans (List.reverse_perm all).symm)
  rw [hrev, List.take_reverse]
  exact (List.reverse_perm _).symm

/-- Where the walk is complete, or there is room anyway, the newest files remain. -/
theorem newest_of_safe (h : HandsOut s s' f ids id)
    (hsafe : s.unseenIds f = [] ∨ (shotIds s.files).length < kMaxShots) {after : List ℕ}
    (hperm : ((ids ++ [id]).take ((ids ++ [id]).length - kMaxShots) ++ after).Perm
      (id :: shotIds s.files)) :
    after.Perm (((id :: shotIds s.files).insertionSort (· ≥ ·)).take kMaxShots) := by
  have hwalk := walk_perm h
  rcases hsafe with hall | hroom
  · rw [hall, List.append_nil] at hwalk
    have hall' : (ids ++ [id]).Perm (id :: shotIds s.files) :=
      (List.perm_append_singleton id ids).trans (hwalk.cons id)
    refine List.Perm.trans ?_ (greatest_perm (walk_sorted h) hall' kMaxShots)
    have hsplit := hperm.trans hall'.symm
    conv at hsplit => rhs; rw [← List.take_append_drop ((ids ++ [id]).length - kMaxShots) (ids ++ [id])]
    exact (List.perm_append_left_iff _).1 hsplit
  · have hle : ids.length ≤ (shotIds s.files).length := by
      rw [← hwalk.length_eq, List.length_append]
      exact Nat.le_add_right _ _
    have hzero : (ids ++ [id]).length - kMaxShots = 0 := by
      rw [List.length_append, List.length_singleton]
      omega
    rw [hzero, List.take_zero, List.nil_append] at hperm
    rw [List.take_of_length_le]
    · exact hperm.trans (List.perm_insertionSort _ _).symm
    · rw [List.length_insertionSort, List.length_cons]
      exact hroom

/-- Too many files remain where the walk misses some of a full history. -/
theorem safe_of_newest (h : HandsOut s s' f ids id) {after : List ℕ}
    (hperm : ((ids ++ [id]).take ((ids ++ [id]).length - kMaxShots) ++ after).Perm
      (id :: shotIds s.files))
    (hfew : after.length ≤ kMaxShots) :
    s.unseenIds f = [] ∨ (shotIds s.files).length < kMaxShots := by
  by_contra hno
  rw [not_or, not_lt] at hno
  have hunseen := List.length_pos_of_ne_nil hno.1
  have hwalk := (walk_perm h).length_eq
  have hlen := hperm.length_eq
  rw [List.length_append] at hwalk
  rw [List.length_append, List.length_take, List.length_append, List.length_singleton,
    List.length_cons] at hlen
  omega

/-- The new file is not among the evicted ones. -/
theorem not_mem_evicted (h : HandsOut s s' f ids id) :
    id ∉ (ids ++ [id]).take ((ids ++ [id]).length - kMaxShots) := by
  have hle : (ids ++ [id]).length - kMaxShots ≤ ids.length := by
    have : 0 < kMaxShots := by decide
    rw [List.length_append, List.length_singleton]
    omega
  rw [List.take_append_of_le_length hle]
  intro hmem
  exact lt_irrefl id (h.beyondWalk id (List.mem_of_mem_take hmem))

theorem evicted_le (h : HandsOut s s' f ids id) {n k : ℕ} (hk : k ∈ (ids ++ [id]).take n) :
    k ≤ kMaxShotId := by
  rcases List.mem_append.1 (List.mem_of_mem_take hk) with hk | hk
  · exact (mem_shotIds.1 ((walk_perm h).mem_iff.1 (List.mem_append_left _ hk))).2.1
  · rw [List.mem_singleton.1 hk]
    exact h.le

/-- The files after a save that went through. -/
theorem saved_files {ext : Extraction} (hr : s.reserve ext f = (s', some (ids, id)))
    (hsaved : (s.save ext f).saved = true) :
    ∃ e : Eviction, (s.save ext f).store.files = e.files ∧ (s.save ext f).removalFailed = e.failed ∧
      e = evict ((ids ++ [id]).take ((ids ++ [id]).length - kMaxShots)) f.evictions
        { files := s.files.insert (fileName id) (.file (compactBytes ext))
          revision := s.revision + 1 } := by
  obtain ⟨-, ⟨n, hn⟩, hout⟩ := handsOut_reserve hr
  rw [save_of_handsOut hr] at hsaved ⊢
  have hfiles : s'.files = s.files := by rw [hout.store]; rfl
  have hrevision : s'.revision = s.revision := by rw [hout.store]
  rw [writeAndEvict_true hn hsaved, hfiles, hrevision]
  generalize evict _ f.evictions _ = e
  exact ⟨e, rfl, rfl, rfl⟩

end Retention

/-! ### Every call -/

/-- A call that hands out nothing and creates nothing. -/
theorem sound_of_idle {s : ShotLog} {op : Op} (hhanded : (s.step op).handed = s.handed)
    (hinc : s.handed.Pairwise (· < ·))
    (hfiles : ∀ name, name ∈ (s.step op).store.files → name ∈ s.store.files)
    (hsave : ∀ shot f, op = .save shot f → (s.store.save shot.record f).saved = false ∧
      (s.step op).store.files = s.store.files) : Sound s op := by
  have hno : ∀ id, (s.step op).handed ≠ s.handed ++ [id] := by
    intro id h
    rw [hhanded] at h
    have := congrArg List.length h
    rw [List.length_append, List.length_singleton] at this
    omega
  refine ⟨by rw [hhanded]; exact hinc, fun id h => absurd h (hno id),
    fun name hname hin => absurd (hfiles name hin) hname, ?_, ?_⟩
  · intro shot f hop _ name entry hlookup
    rw [(hsave shot f hop).2]
    exact hlookup
  · intro shot f hop hsaved
    exact absurd (hsaved.symm.trans (hsave shot f hop).1) nofun

theorem mem_of_mem_evict {ids : List ℕ} {faults : List WriteFault} {e : Eviction} {name : FileName}
    (h : name ∈ (evict ids faults e).files) : name ∈ e.files := by
  induction ids generalizing faults e with
  | nil => exact h
  | cons id ids ih =>
    unfold evict at h
    cases hfault : faults.headD none with
    | none =>
      rw [hfault] at h
      exact (AList.mem_erase.1 (ih h)).2
    | some applied =>
      rw [hfault] at h
      dsimp only at h
      split_ifs at h
      · exact (AList.mem_erase.1 h).2
      · exact h

/-- **Step lemma.** A save whose walk misses nothing that matters keeps its promises. -/
theorem sound_save {s : ShotLog} {shot : SavedShot} {f : SaveFaults} {s' : ShotStore} {ids : List ℕ}
    {id : ℕ} (h : s.Covered) (hr : s.store.reserve shot.record f = (s', some (ids, id)))
    (hsafe : s.Safe (.save shot f)) : Sound s (.save shot f) := by
  have hcovered := covered_step (.save shot f) h
  obtain ⟨-, -, hout⟩ := handsOut_reserve hr
  obtain ⟨hunseen, hroom⟩ := hsafe shot f rfl s' ids id hr
  have hnew := new_of_unseen hout hunseen
  have hstep := handed_save hr
  have hhanded : (s.step (.save shot f)).handed = s.handed ++ [id] := by rw [hstep]
  have hstore : (s.step (.save shot f)).store = (s.store.save shot.record f).store := rfl
  have hfiles : s'.files = s.store.files := by rw [hout.store]; rfl
  -- where the save fails, only the new name can have changed
  have hothers : (s.store.save shot.record f).saved = false → ∀ name,
      (name = fileName id → s.store.files.lookup name = some .directory) →
      (s.store.save shot.record f).store.files.lookup name = s.store.files.lookup name := by
    intro hsaved name hname
    rw [save_of_handsOut hr] at hsaved ⊢
    rw [← hfiles] at hname ⊢
    exact writeAndEvict_false hsaved hname
  refine ⟨hcovered.increasing, ?_, ?_, ?_, ?_⟩
  · intro k hk
    rw [hhanded] at hk
    have hid : [id] = [k] := List.append_cancel_left hk
    cases hid
    exact hnew
  · intro name hbefore hafter
    refine ⟨id, hhanded, ?_, parseIdFromName_pathFor hout.le, parseIdFromName_baseName hout.le⟩
    by_contra hne
    rw [hstore] at hafter
    cases hsaved : (s.store.save shot.record f).saved with
    | false =>
      have hsame := hothers hsaved name fun heq => absurd heq hne
      rw [← AList.lookup_isSome, hsame, AList.lookup_isSome] at hafter
      exact hbefore hafter
    | true =>
      obtain ⟨e, hef, -, he⟩ := saved_files hr hsaved
      rw [hef, he] at hafter
      rcases (AList.mem_insert _).1 (mem_of_mem_evict hafter) with heq | hin
      · exact hne heq
      · exact hbefore hin
  · rintro shot' f' hop hsaved name entry hlookup
    cases hop
    rw [hstore, hothers hsaved, hlookup]
    rintro rfl
    cases entry with
    | directory => exact hlookup
    | file bytes => exact absurd (mem_shotIds.2 ⟨hout.pos, hout.le, bytes, hlookup⟩) hnew
  · rintro shot' f' hop hsaved hremoved
    cases hop
    obtain ⟨e, hef, hfailed, he⟩ := saved_files hr hsaved
    rw [hfailed] at hremoved
    have hperm := evicted_perm hout hnew he hremoved
    refine ⟨id, hhanded, ?_⟩
    rw [hstore, hef]
    refine ⟨newest_of_safe hout (hroom hsaved (hfailed.trans hremoved)) hperm, ?_, ?_⟩
    · have hmem := hperm.mem_iff.2 List.mem_cons_self
      exact (List.mem_append.1 hmem).resolve_left (not_mem_evicted hout)
    · refine ⟨compactBytes shot.record, ?_, reads_compactBytes shot.record shot.weighed⟩
      rw [he, evict_lookup]
      · exact AList.lookup_insert _
      · intro k hk heq
        obtain rfl := fileName_inj hout.le (evicted_le hout hk) heq
        exact not_mem_evicted hout hk

theorem files_erase (s : ShotStore) (id : ℕ) (fault : WriteFault) :
    (s.erase id fault).files = s.files ∨
      (s.erase id fault).files = s.files.erase (fileName id) := by
  unfold ShotStore.erase
  split
  · exact Or.inl rfl
  · exact Or.inl rfl
  · exact Or.inr rfl
  · exact Or.inr rfl

/-- **Step lemma.** What is safe is sound. -/
theorem sound_step {s : ShotLog} {op : Op} (h : s.Covered) (hsafe : s.Safe op) : Sound s op := by
  cases op with
  | save shot f =>
    cases hr : s.store.reserve shot.record f with
    | mk s' r =>
      cases r with
      | some r => exact sound_save h hr hsafe
      | none =>
        have hstep := handed_save_idle hr
        have hfiles := (idle_reserve hr).files
        refine sound_of_idle (by rw [hstep]) h.increasing ?_ ?_
        · rw [hstep]
          show ∀ name, name ∈ s'.files → _
          rw [hfiles]
          exact fun _ => id
        · rintro shot' f' hop
          cases hop
          rw [hstep, save_of_idle hr]
          exact ⟨rfl, hfiles⟩
  | reboot keepsPending =>
    have hfiles : (s.step (.reboot keepsPending)).store.files = s.store.files := rfl
    refine sound_of_idle rfl h.increasing ?_ fun _ _ hop => by cases hop
    rw [hfiles]
    exact fun _ hname => hname
  | erase id fault =>
    have hstep : (s.step (.erase id fault)).store = s.store.erase id fault := rfl
    refine sound_of_idle rfl h.increasing ?_ fun _ _ hop => by cases hop
    rw [hstep]
    intro name hname
    rcases files_erase s.store id fault with heq | heq
    · rw [heq] at hname
      exact hname
    · rw [heq] at hname
      exact (AList.mem_erase.1 hname).2
  | format =>
    have hfiles : (s.step .format).store.files = ∅ := rfl
    refine sound_of_idle rfl h.increasing ?_ fun _ _ hop => by cases hop
    rw [hfiles]
    exact fun name hname => absurd hname (AList.notMem_empty name)

theorem safe_of_sound {s : ShotLog} {op : Op} (h : Sound s op) : s.Safe op := by
  rintro shot f rfl s' ids id hr
  obtain ⟨-, -, hout⟩ := handsOut_reserve hr
  have hhanded : (s.step (.save shot f)).handed = s.handed ++ [id] := by rw [handed_save hr]
  have hnew := h.unused id hhanded
  refine ⟨fun hin => hnew ((walk_perm hout).mem_iff.1 (List.mem_append_right _ hin)), ?_⟩
  intro hsaved hremoved
  obtain ⟨e, hef, hfailed, he⟩ := saved_files hr hsaved
  obtain ⟨id', -, hretained⟩ := h.retained shot f rfl hsaved hremoved
  have hfew := hretained.newest.length_eq.trans_le (List.length_take_le _ _)
  have hstore : (s.step (.save shot f)).store = (s.store.save shot.record f).store := rfl
  rw [hstore, hef] at hfew
  exact safe_of_newest hout (evicted_perm hout hnew he (hfailed.symm.trans hremoved)) hfew

/-- After a sound save with all its removals, the walk was complete or the history not full. -/
theorem room_of_sound {s : ShotLog} {shot : SavedShot} {f : SaveFaults}
    (h : Sound s (.save shot f)) (hsome : (s.store.reserve shot.record f).2.isSome = true)
    (hsaved : (s.store.save shot.record f).saved = true)
    (hremoved : (s.store.save shot.record f).removalFailed = false) :
    s.store.unseenIds f = [] ∨ (shotIds s.store.files).length < kMaxShots := by
  obtain ⟨⟨ids, id⟩, hreserve⟩ := Option.isSome_iff_exists.1 hsome
  exact (safe_of_sound h shot f rfl _ ids id (Prod.ext rfl hreserve)).2 hsaved hremoved

/-- **Saves over failing media.**  From any store, over any run of saves and reboots, ids increase,
names lead back to them, failed saves leave every file and finished ones keep the newest 250,
exactly when no walk misses files at the wrong time. -/
theorem savesSoundly_iff (store : ShotStore) (ops : List Op) :
    Along step Sound { store := store } ops ↔ Along step Safe { store := store } ops := by
  have hinit : Covered { store := store } := ⟨List.Pairwise.nil, nofun⟩
  constructor
  · intro h
    exact h.imp (fun _ => True) (fun _ _ _ hsound => ⟨trivial, safe_of_sound hsound⟩) trivial
  · intro h
    exact h.imp Covered (fun s op hs hsafe => ⟨covered_step op hs, sound_step hs hsafe⟩) hinit

theorem nodupKeys_records {n : ℕ} (h : n < kMaxShotId) (content : DirEntry) :
    ((List.range n).map fun k =>
      (⟨fileName (k + 1), content⟩ : Sigma fun _ : FileName => DirEntry)).NodupKeys := by
  rw [List.nodupKeys_iff_pairwise, List.pairwise_map]
  refine List.Pairwise.imp_of_mem (fun {a b} ha hb hab heq => ?_) List.nodup_range
  have ha' := List.mem_range.1 ha
  have hb' := List.mem_range.1 hb
  have hinj := @fileName_inj (a + 1) (b + 1) (by omega) (by omega) heq
  exact hab (by omega)

/-- A full history of short records. -/
def fullHistory : ShotFiles where
  entries := (List.range kMaxShots).map fun k => ⟨fileName (k + 1), .file (compactBytes {})⟩
  nodupKeys := nodupKeys_records (by decide) _

/-- The store with that history. -/
def fullStore : ShotStore := { dir := some fullHistory, nvs := { committed := some 250 } }

def shortShot : SavedShot := ⟨{ version := kCurrentExtractionVersion }, nofun⟩

/-- The walk fails at the last of the 250 files: after the save there are 251. -/
def shortWalk : SaveFaults := { missed := [fileName 250] }

theorem not_savesSoundly_shortWalk : ¬ ∀ (store : ShotStore) (ops : List Op),
    Along step Sound { store := store } ops := by
  intro hall
  have hsound := (hall fullStore [.save shortShot shortWalk]).1
  have hrun : (fullStore.reserve shortShot.record shortWalk).2.isSome = true ∧
      (fullStore.save shortShot.record shortWalk).saved = true ∧
      (fullStore.save shortShot.record shortWalk).removalFailed = false ∧
      ¬ (fullStore.unseenIds shortWalk = [] ∨ (shotIds fullStore.files).length < kMaxShots) := by
    decide +kernel
  obtain ⟨hsome, hsaved, hremoved, hcount⟩ := hrun
  exact hcount (room_of_sound hsound hsome hsaved hremoved)

end ShotLog

end Pumpbug
