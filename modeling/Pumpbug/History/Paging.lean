import Pumpbug.History.SaveRuns
import Pumpbug.History.ShotHistoryRoutes

/-!
# Pages of a growing history

A save adds a record beyond everything the store has known, and evicts others: what was below a
bound that the store knows stays complete.  A page is a cut of the valid records below such a bound.
-/

namespace Pumpbug

open Lib

namespace ShotStore

/-! ## Valid records -/

def validIds (s : ShotStore) : List ℕ := s.files.entries.filterMap (validId false)

theorem validId_eq (withDir : Bool) (entry : Sigma fun _ : FileName => DirEntry) :
    validId withDir entry = validId false entry := by
  unfold validId
  rw [parseIdFromName_reported, parseIdFromName_reported]

theorem entryId_of_validId {entry : Sigma fun _ : FileName => DirEntry} {id : ℕ}
    (h : validId false entry = some id) : entryId false entry = some id := by
  obtain ⟨name, content⟩ := entry
  unfold validId at h
  unfold entryId
  cases content with
  | directory => cases h
  | file bytes =>
    dsimp only at h ⊢
    split_ifs at h with hvalid
    rw [Bool.and_eq_true, decide_eq_true_eq] at hvalid
    rw [if_pos hvalid.1]
    exact h

theorem validIds_sublist (s : ShotStore) : s.validIds.Sublist (shotIds s.files) := by
  unfold validIds shotIds
  induction s.files.entries with
  | nil => exact List.Sublist.slnil
  | cons entry entries ih =>
    rw [List.filterMap_cons, List.filterMap_cons]
    cases hvalid : validId false entry with
    | some id =>
      rw [entryId_of_validId hvalid]
      exact ih.cons_cons id
    | none =>
      cases entryId false entry with
      | none => exact ih
      | some id => exact ih.cons id

theorem nodup_validIds (s : ShotStore) : s.validIds.Nodup :=
  (nodup_shotIds s.files).sublist s.validIds_sublist

theorem ne_zero_of_valid {s : ShotStore} {id : ℕ} (h : id ∈ s.validIds) : id ≠ 0 :=
  (mem_shotIds.1 (s.validIds_sublist.subset h)).1

/-- A record is valid when its file is there with a valid header. -/
theorem mem_validIds {s : ShotStore} {id : ℕ} :
    id ∈ s.validIds ↔ id ≠ 0 ∧ id ≤ kMaxShotId ∧ ∃ bytes,
      s.files.lookup (fileName id) = some (.file bytes) ∧
        isValidShotHeader (bytes.take kCompactHeaderBytes) = true := by
  unfold validIds
  rw [List.mem_filterMap]
  constructor
  · rintro ⟨entry, hmem, hid⟩
    obtain ⟨hname, h₀, hle, bytes, hcontent⟩ := entryId_eq_some (entryId_of_validId hid)
    obtain ⟨name, content⟩ := entry
    dsimp only at hname hcontent
    rw [hname, hcontent] at hmem hid
    refine ⟨h₀, hle, bytes, AList.mem_lookup_iff.2 hmem, ?_⟩
    unfold validId at hid
    dsimp only at hid
    split_ifs at hid with hvalid
    exact (Bool.and_eq_true_iff.1 hvalid).2
  · rintro ⟨h₀, hle, bytes, hlookup, hheader⟩
    refine ⟨_, AList.mem_lookup_iff.1 hlookup, ?_⟩
    have hid := entryId_fileName h₀ hle bytes
    unfold entryId at hid
    unfold validId
    dsimp only at hid ⊢
    rw [hheader, Bool.and_true]
    by_cases hne : parseIdFromName (reportedName false (fileName id)) ≠ 0
    · rw [if_pos hne] at hid
      rw [if_pos (decide_eq_true hne)]
      exact hid
    · rw [if_neg hne] at hid
      cases hid

theorem readMeta_isSome {s : ShotStore} {id : ℕ} (h : id ∈ s.validIds) :
    ∃ shot, s.readMeta id = some shot := by
  obtain ⟨-, -, bytes, hlookup, hheader⟩ := mem_validIds.1 h
  unfold readMeta
  rw [hlookup]
  dsimp only
  rw [if_pos hheader]
  exact ⟨_, rfl⟩

theorem readMeta_id {s : ShotStore} {id : ℕ} {shot : ShotMeta} (h : s.readMeta id = some shot) :
    shot.id = id := by
  unfold readMeta at h
  split at h
  · cases h
  · cases h
  · dsimp only at h
    split_ifs at h
    cases h
    rfl

theorem not_valid_of_unread {s : ShotStore} {id : ℕ} (h : s.readMeta id = none) :
    id ∉ s.validIds := by
  intro hmem
  obtain ⟨shot, hshot⟩ := readMeta_isSome hmem
  rw [h] at hshot
  cases hshot

/-! ## A save without faults -/

/-- The counter or a file is at `k` or beyond it: no new id is. -/
def Below (s : ShotStore) (k : ℕ) : Prop := k ≤ s.nvs.lastId ∨ ∃ j ∈ shotIds s.files, k ≤ j

theorem Below.mono {s : ShotStore} {j k : ℕ} (h : s.Below k) (hj : j ≤ k) : s.Below j := by
  rcases h with h | ⟨i, hi, hk⟩
  · exact Or.inl (hj.trans h)
  · exact Or.inr ⟨i, hi, hj.trans hk⟩

theorem below_of_valid {s : ShotStore} {id : ℕ} (h : id ∈ s.validIds) : s.Below id :=
  Or.inr ⟨id, s.validIds_sublist.subset h, le_rfl⟩

/-- What a save does to the history. -/
structure Grown (s s' : ShotStore) : Prop where
  revision : s.revision ≤ s'.revision
  /-- The revision tells whether the valid records have changed. -/
  same : s'.revision = s.revision → ∀ id, id ∈ s'.validIds ↔ id ∈ s.validIds
  valid : ∀ id ∈ s'.validIds, id ∈ s.validIds ∨ ∀ k, s.Below k → k < id
  below : ∀ k, s.Below k → s'.Below k

theorem validIds_congr {s s' : ShotStore} (h : s'.files = s.files) (id : ℕ) :
    id ∈ s'.validIds ↔ id ∈ s.validIds := by
  unfold validIds
  rw [h]

theorem grown_of_files {s s' : ShotStore} (hfiles : s'.files = s.files)
    (hrevision : s'.revision = s.revision) (hlast : s.nvs.lastId ≤ s'.nvs.lastId) : Grown s s' := by
  refine ⟨hrevision.ge, fun _ => validIds_congr hfiles, fun id hid => ?_, fun k hk => ?_⟩
  · exact Or.inl ((validIds_congr hfiles id).1 hid)
  · rcases hk with hk | ⟨j, hj, hk⟩
    · exact Or.inl (hk.trans hlast)
    · exact Or.inr ⟨j, hfiles ▸ hj, hk⟩

theorem reserveNextShotId_clean (nvs : Nvs) (greatest : ℕ)
    (h : (reserveNextShotId nvs greatest {}).1 = 0) :
    (reserveNextShotId nvs greatest {}).2 = nvs := by
  unfold reserveNextShotId at h ⊢
  rw [if_neg (by decide), if_neg (by decide)] at h ⊢
  dsimp only at h ⊢
  by_cases hmax : kMaxShotId ≤ max nvs.lastId greatest
  · rw [if_pos hmax]
  · rw [if_neg hmax] at h
    exact absurd h (Nat.succ_ne_zero _)

theorem handOut_clean {s s' : ShotStore} (h : s.handOut {} = (s', none)) :
    s'.files = s.files ∧ s'.revision = s.revision ∧ s'.nvs = s.nvs := by
  unfold handOut at h
  split at h
  · cases h
    exact ⟨rfl, rfl, rfl⟩
  · rename_i ids hscan
    split at h
    · rename_i nvs hreserve
      cases h
      have hclean := reserveNextShotId_clean s.nvs (ids.getLast?.getD 0) (congrArg Prod.fst hreserve)
      exact ⟨rfl, rfl, (congrArg Prod.snd hreserve).symm.trans hclean⟩
    · cases h

theorem reserve_clean {s s' : ShotStore} {ext : Extraction} (h : s.reserve ext {} = (s', none)) :
    s'.files = s.files ∧ s'.revision = s.revision ∧ s'.nvs = s.nvs := by
  unfold reserve at h
  rw [if_neg (by decide)] at h
  by_cases hversion : ext.version ≠ kCurrentExtractionVersion
  · rw [if_pos hversion] at h
    cases h
    exact ⟨rfl, rfl, rfl⟩
  · rw [if_neg hversion] at h
    by_cases hsize : encodeCompactSize ext = none
    · rw [if_pos hsize] at h
      cases h
      exact ⟨rfl, rfl, rfl⟩
    · rw [if_neg hsize, if_neg fun hno => absurd hno.2 (by decide)] at h
      obtain ⟨hfiles, hrevision, hnvs⟩ := handOut_clean h
      exact ⟨hfiles, hrevision, hnvs⟩

/-- The header of an encoded record passes the check. -/
theorem isValidShotHeader_compactBytes (e : Extraction) :
    isValidShotHeader ((compactBytes e).take kCompactHeaderBytes) = true := by
  have htake : (compactBytes e).take kCompactHeaderBytes = encodeHeader e := by
    unfold compactBytes
    exact List.take_left' (length_encodeHeader e)
  obtain ⟨b₀, b₁, b₂, b₃, b₄, -⟩ := encodeHeader_bytes e
  rw [htake]
  unfold isValidShotHeader hasSupportedShotHeader
  rw [decide_eq_true (length_encodeHeader e), b₀, b₁, b₂, b₃, b₄]
  decide

theorem appendChunks_clean (content : Bytes) (chunks : List Bytes) :
    appendChunks content chunks [] = (content ++ chunks.flatten, true) := by
  induction chunks generalizing content with
  | nil =>
    rw [List.flatten_nil, List.append_nil]
    rfl
  | cons chunk chunks ih =>
    rw [List.flatten_cons, ← List.append_assoc]
    exact ih (content ++ chunk)

theorem verifies_clean (e : Extraction) :
    verifies (compactBytes e) (compactBytes e).length {} = true := by
  unfold verifies
  rw [if_neg (by decide), if_neg (by decide), Option.getD_none, List.take_take, min_self]
  dsimp only
  rw [isValidShotHeader_compactBytes, decide_eq_true rfl, Bool.true_and]

/-- Without faults only a directory in the way keeps a record from being written. -/
theorem writeRecord_clean {files : ShotFiles} {ext : Extraction} {id n : ℕ}
    (hn : encodeCompactSize ext = some n) (h : (writeRecord files ext id n {}).2 = false) :
    files.lookup (fileName id) = some .directory := by
  rw [encodeCompactSize_eq] at hn
  obtain ⟨chunks, hchunks, hlen⟩ := Option.map_eq_some_iff.1 hn
  rw [encodeCompact_flatten hchunks] at hlen
  by_contra hdir
  unfold writeRecord at h
  rw [if_neg hdir] at h
  dsimp only at h
  unfold writeOpened at h
  rw [hchunks, Option.getD_some, appendChunks_clean, List.nil_append,
    encodeCompact_flatten hchunks] at h
  dsimp only at h
  have hclosed : closed (compactBytes ext) {} = compactBytes ext := rfl
  rw [hclosed, ← hlen, verifies_clean, Option.isSome_some, Bool.and_true, Bool.and_true,
    if_pos rfl] at h
  cases h

theorem lookup_of_evict {ids : List ℕ} {faults : List WriteFault} {e : Eviction} {name : FileName}
    {entry : DirEntry} (h : (evict ids faults e).files.lookup name = some entry) :
    e.files.lookup name = some entry := by
  have herase : ∀ (files : ShotFiles) (id : ℕ), (files.erase (fileName id)).lookup name = some entry →
      files.lookup name = some entry := by
    intro files id hfound
    by_cases hname : name = fileName id
    · rw [hname, AList.lookup_erase] at hfound
      cases hfound
    · rw [AList.lookup_erase_ne hname] at hfound
      exact hfound
  induction ids generalizing faults e with
  | nil => exact h
  | cons id ids ih =>
    unfold evict at h
    cases hfault : faults.headD none with
    | none =>
      rw [hfault] at h
      exact herase e.files id (ih h)
    | some applied =>
      rw [hfault] at h
      dsimp only at h
      split_ifs at h
      · exact herase e.files id h
      · exact h

theorem revision_evict (ids : List ℕ) (faults : List WriteFault) (e : Eviction) :
    e.revision ≤ (evict ids faults e).revision := by
  induction ids generalizing faults e with
  | nil => exact le_rfl
  | cons id ids ih =>
    unfold evict
    cases faults.headD none with
    | none =>
      have h := ih faults.tail
        { e with files := e.files.erase (fileName id), revision := e.revision + 1 }
      exact (Nat.le_succ _).trans h
    | some applied => exact le_rfl

/-- The id that a clean walk hands out is beyond everything the store has known. -/
theorem beyond_of_clean {s s' : ShotStore} {ids : List ℕ} {id k : ℕ} (h : HandsOut s s' {} ids id)
    (hk : s.Below k) : k < id := by
  rcases hk with hk | ⟨j, hj, hk⟩
  · exact hk.trans_lt h.beyondCounter
  · have hunseen : s.unseenIds {} = [] := by
      unfold unseenIds
      rw [if_neg (by decide)]
      simp
    have hperm := ShotLog.walk_perm h
    rw [hunseen, List.append_nil] at hperm
    exact hk.trans_lt (h.beyondWalk j (hperm.mem_iff.2 hj))

theorem validIds_insert {id k : ℕ} {entry : DirEntry} (s : ShotStore) {s' : ShotStore}
    (hk : k ∈ s'.validIds) (hle : id ≤ kMaxShotId)
    (hfound : ∀ name e, s'.files.lookup name = some e →
      (s.files.insert (fileName id) entry).lookup name = some e) : k = id ∨ k ∈ s.validIds := by
  obtain ⟨h₀, hmax, bytes, hlookup, hheader⟩ := mem_validIds.1 hk
  by_cases heq : k = id
  · exact Or.inl heq
  · right
    have h := hfound _ _ hlookup
    rw [AList.lookup_insert_ne fun hname => heq (fileName_inj hmax hle hname)] at h
    exact mem_validIds.2 ⟨h₀, hmax, bytes, h, hheader⟩

theorem writeAndEvict_clean {s : ShotStore} {ext : Extraction} {ids : List ℕ} {id n : ℕ}
    (hn : encodeCompactSize ext = some n) (h : (s.writeAndEvict ext ids id {}).saved = false) :
    (s.writeAndEvict ext ids id {}).store = { s with dir := some s.files } := by
  unfold writeAndEvict at h ⊢
  rw [hn, Option.getD_some] at h ⊢
  cases hw : writeRecord s.files ext id n {} with
  | mk files written =>
    rw [hw] at h
    cases written with
    | true => exact absurd h nofun
    | false =>
      have hdir := writeRecord_clean hn (congrArg Prod.snd hw)
      have hsame : (writeRecord s.files ext id n {}).1 = s.files := by
        unfold writeRecord
        rw [if_pos hdir]
      rw [hw] at hsame
      dsimp only at hsame ⊢
      rw [hsame]
      rfl

/-- **Step lemma.** A save without faults lets the history grow. -/
theorem grown_save (s : ShotStore) (ext : Extraction) : Grown s (s.save ext {}).store := by
  cases hr : s.reserve ext {} with
  | mk s' r =>
    cases r with
    | none =>
      rw [save_of_idle hr]
      obtain ⟨hfiles, hrevision, hnvs⟩ := reserve_clean hr
      exact grown_of_files hfiles hrevision (congrArg Nvs.lastId hnvs).ge
    | some r =>
      obtain ⟨ids, id⟩ := r
      obtain ⟨-, ⟨n, hn⟩, hout⟩ := handsOut_reserve hr
      have hfiles : s'.files = s.files := by rw [hout.store]; rfl
      have hrevision : s'.revision = s.revision := by rw [hout.store]
      have hbelow : ∀ k, s.Below k → (s'.writeAndEvict ext ids id {}).store.Below k := by
        intro k hk
        left
        rw [nvs_writeAndEvict, hout.store]
        exact (beyond_of_clean hout hk).le
      rw [save_of_handsOut hr]
      cases hsaved : (s'.writeAndEvict ext ids id {}).saved with
      | true =>
        rw [writeAndEvict_true hn hsaved] at hbelow ⊢
        dsimp only at hbelow ⊢
        generalize hevict : evict _ _ _ = e at hbelow ⊢
        have hstep : s.revision < e.revision := by
          have hle := revision_evict ((ids ++ [id]).take ((ids ++ [id]).length - kMaxShots)) []
            { files := s'.files.insert (fileName id) (.file (compactBytes ext))
              revision := s'.revision + 1 }
          rw [hevict, hrevision] at hle
          exact hle
        refine ⟨hstep.le, fun hsame => absurd hsame hstep.ne', fun k hk => ?_, hbelow⟩
        have hfound : ∀ name entry, e.files.lookup name = some entry →
            (s.files.insert (fileName id) (.file (compactBytes ext))).lookup name = some entry := by
          intro name entry hlookup
          rw [← hevict] at hlookup
          rw [← hfiles]
          exact lookup_of_evict hlookup
        rcases validIds_insert s hk hout.le hfound with rfl | hk
        · exact Or.inr fun j => beyond_of_clean hout
        · exact Or.inl hk
      | false =>
        have hstore := writeAndEvict_clean hn hsaved
        refine grown_of_files ?_ ?_ ?_
        · rw [hstore, ← hfiles]
          rfl
        · rw [hstore]
          exact hrevision
        · rw [nvs_writeAndEvict, hout.store]
          exact hout.beyondCounter.le

/-! ## Cuts -/

/-- Listed ids, complete below a bound that the store knows, down to the last one if there are
more. -/
structure Cut (s : ShotStore) (ids : List ℕ) (bound : ℕ) (hasMore : Bool) : Prop where
  decreasing : ids.Pairwise (· > ·)
  inside : ∀ id ∈ ids, id ≠ 0 ∧ id < bound
  known : ∀ k < bound, s.Below k
  complete : ∀ id ∈ s.validIds, id < bound → id ∈ ids ∨ hasMore = true ∧ ∀ k ∈ ids, id < k

theorem Cut.grown {s s' : ShotStore} {ids : List ℕ} {bound : ℕ} {hasMore : Bool}
    (h : Cut s ids bound hasMore) (hgrown : Grown s s') : Cut s' ids bound hasMore := by
  refine ⟨h.decreasing, h.inside, fun k hk => hgrown.below k (h.known k hk), fun id hid hlt => ?_⟩
  rcases hgrown.valid id hid with hold | hnew
  · exact h.complete id hold hlt
  · exact absurd (hnew id (h.known id hlt)) (lt_irrefl id)

/-- A record that cannot be read any more may be left out. -/
theorem Cut.drop {s : ShotStore} {front back : List ℕ} {id bound : ℕ} {hasMore : Bool}
    (h : Cut s (front ++ id :: back) bound hasMore) (hid : id ∉ s.validIds) :
    Cut s (front ++ back) bound hasMore := by
  have hsub : (front ++ back).Sublist (front ++ id :: back) :=
    List.Sublist.append_left (List.sublist_cons_self id back) front
  refine ⟨h.decreasing.sublist hsub, fun k hk => h.inside k (hsub.subset hk), h.known, ?_⟩
  intro k hk hlt
  rcases h.complete k hk hlt with hmem | ⟨hmore, hbelow⟩
  · rcases List.mem_append.1 hmem with hmem | hmem
    · exact Or.inl (List.mem_append_left _ hmem)
    · rcases List.mem_cons.1 hmem with rfl | hmem
      · exact absurd hk hid
      · exact Or.inl (List.mem_append_right _ hmem)
  · exact Or.inr ⟨hmore, fun j hj => hbelow j (hsub.subset hj)⟩

theorem Cut.last_le {s : ShotStore} {ids : List ℕ} {last bound k : ℕ} {hasMore : Bool}
    (h : Cut s ids bound hasMore) (hlast : ids.getLast? = some last) (hk : k ∈ ids) : last ≤ k := by
  obtain ⟨front, rfl⟩ := List.getLast?_eq_some_iff.1 hlast
  rcases List.mem_append.1 hk with hk | hk
  · exact ((List.pairwise_append.1 h.decreasing).2.2 k hk last (List.mem_singleton_self last)).le
  · exact (List.mem_singleton.1 hk).ge

/-- The next page goes on where the list ends. -/
theorem Cut.append {s : ShotStore} {ids page : List ℕ} {last bound : ℕ} {hasMore hasMore' : Bool}
    (h : Cut s ids bound hasMore) (hlast : ids.getLast? = some last) (hpage : Cut s page last hasMore') :
    Cut s (ids ++ page) bound hasMore' := by
  have hmem := List.mem_of_getLast? hlast
  refine ⟨?_, ?_, h.known, ?_⟩
  · refine List.pairwise_append.2 ⟨h.decreasing, hpage.decreasing, fun k hk j hj => ?_⟩
    exact (hpage.inside j hj).2.trans_le (h.last_le hlast hk)
  · intro k hk
    rcases List.mem_append.1 hk with hk | hk
    · exact h.inside k hk
    · exact ⟨(hpage.inside k hk).1, (hpage.inside k hk).2.trans (h.inside last hmem).2⟩
  · intro k hk hlt
    rcases h.complete k hk hlt with hin | ⟨-, hbelow⟩
    · exact Or.inl (List.mem_append_left _ hin)
    · rcases hpage.complete k hk (hbelow last hmem) with hin | ⟨hmore, hbelow'⟩
      · exact Or.inl (List.mem_append_right _ hin)
      · refine Or.inr ⟨hmore, fun j hj => ?_⟩
        rcases List.mem_append.1 hj with hj | hj
        · exact hbelow j hj
        · exact hbelow' j hj

/-- What lies between two listed ids is listed. -/
theorem Cut.gapless {s : ShotStore} {ids : List ℕ} {bound first last id : ℕ} {hasMore : Bool}
    (h : Cut s ids bound hasMore) (hid : id ∈ s.validIds) (hfirst : first ∈ ids) (hlast : last ∈ ids)
    (hle : last ≤ id) (hge : id ≤ first) : id ∈ ids := by
  rcases h.complete id hid (hge.trans_lt (h.inside first hfirst).2) with hmem | ⟨-, hbelow⟩
  · exact hmem
  · exact absurd (hbelow last hlast) (not_lt.2 hle)

/-! ## Pages -/

theorem cut_take {s : ShotStore} {ids : List ℕ} {bound : ℕ} (limit : ℕ)
    (hdecreasing : ids.Pairwise (· > ·)) (hmem : ∀ id, id ∈ ids ↔ id ∈ s.validIds ∧ id < bound)
    (hknown : ∀ k < bound, s.Below k) :
    Cut s (ids.take limit) bound (decide (limit < ids.length)) := by
  refine ⟨hdecreasing.sublist (List.take_sublist _ _), fun id hid => ?_, hknown, fun id hid hlt => ?_⟩
  · obtain ⟨hvalid, hlt⟩ := (hmem id).1 (List.mem_of_mem_take hid)
    exact ⟨ne_zero_of_valid hvalid, hlt⟩
  · have hin := (hmem id).2 ⟨hid, hlt⟩
    rw [← List.take_append_drop limit ids] at hin hdecreasing
    rcases List.mem_append.1 hin with hin | hin
    · exact Or.inl hin
    · refine Or.inr ⟨?_, fun k hk => (List.pairwise_append.1 hdecreasing).2.2 k hk id hin⟩
      have hpos := List.length_pos_of_mem hin
      rw [List.length_drop] at hpos
      exact decide_eq_true (by omega)

/-- The valid records with an id below `before`, or all of them for 0, from the newest. -/
def newestBelow (s : ShotStore) (before : ℕ) : List ℕ :=
  (s.validIds.filter fun id => before = 0 || id < before).insertionSort (· ≥ ·)

theorem mem_newestBelow {s : ShotStore} {before id : ℕ} :
    id ∈ s.newestBelow before ↔ id ∈ s.validIds ∧ (before = 0 ∨ id < before) := by
  unfold newestBelow
  rw [List.mem_insertionSort, List.mem_filter, Bool.or_eq_true, decide_eq_true_eq, decide_eq_true_eq]

theorem newestBelow_decreasing (s : ShotStore) (before : ℕ) :
    (s.newestBelow before).Pairwise (· > ·) := by
  unfold newestBelow
  have hnodup := (List.perm_insertionSort (· ≥ ·) _).nodup_iff.2
    (s.nodup_validIds.filter fun id => before = 0 || id < before)
  refine ((List.pairwise_insertionSort (· ≥ ·) _).and hnodup).imp fun hab => ?_
  exact lt_of_le_of_ne hab.1 hab.2.symm

theorem page_eq (s : ShotStore) (before limit : ℕ) :
    s.page before limit =
      { ids := (s.newestBelow before).take limit
        hasMore := decide (limit < (s.newestBelow before).length)
        total := s.validIds.length
        revision := BitVec.ofNat 32 s.revision } := by
  have hvalid : validId s.namesWithDir = validId false := funext (validId_eq s.namesWithDir)
  unfold page newestBelow validIds
  rw [hvalid]

/-- The first page reaches up to the newest record. -/
theorem cut_first (s : ShotStore) (limit : ℕ) :
    ∃ bound, Cut s (s.page 0 limit).ids bound (s.page 0 limit).hasMore ∧
      ∀ id ∈ s.validIds, id < bound := by
  have hmem : ∀ {id}, id ∈ s.newestBelow 0 ↔ id ∈ s.validIds := fun {id} =>
    mem_newestBelow.trans (and_iff_left (Or.inl rfl))
  have hdecreasing := s.newestBelow_decreasing 0
  rw [page_eq]
  cases hids : s.newestBelow 0 with
  | nil =>
    have hnone : ∀ id, id ∉ s.validIds := by
      intro id hid
      rw [← hmem, hids] at hid
      cases hid
    rw [hids] at hdecreasing
    refine ⟨0, cut_take limit hdecreasing (fun id => ?_) (fun k hk => absurd hk (Nat.not_lt_zero k)),
      fun id hid => absurd hid (hnone id)⟩
    exact iff_of_false List.not_mem_nil fun h => hnone id h.1
  | cons first ids =>
    have hle : ∀ id ∈ s.validIds, id < first + 1 := by
      intro id hid
      rw [← hmem, hids] at hid
      rw [hids] at hdecreasing
      rcases List.mem_cons.1 hid with rfl | hid
      · exact Nat.lt_succ_self id
      · exact ((List.pairwise_cons.1 hdecreasing).1 id hid).trans (Nat.lt_succ_self first)
    have hfirst : first ∈ s.validIds := hmem.1 (hids ▸ List.mem_cons_self)
    rw [← hids]
    refine ⟨first + 1, cut_take limit hdecreasing (fun id => ?_) (fun k hk => ?_), hle⟩
    · exact hmem.trans ⟨fun h => ⟨h, hle id h⟩, And.left⟩
    · exact (below_of_valid hfirst).mono (Nat.lt_succ_iff.1 hk)

theorem cut_older {s : ShotStore} {before : ℕ} (limit : ℕ) (hbefore : before ≠ 0)
    (hknown : ∀ k < before, s.Below k) :
    Cut s (s.page before limit).ids before (s.page before limit).hasMore := by
  rw [page_eq]
  refine cut_take limit (s.newestBelow_decreasing before) (fun id => ?_) hknown
  rw [mem_newestBelow, or_iff_right hbefore]

theorem valid_of_mem_page {s : ShotStore} {before limit id : ℕ} (h : id ∈ (s.page before limit).ids) :
    id ∈ s.validIds := by
  rw [page_eq] at h
  exact (mem_newestBelow.1 (List.mem_of_mem_take h)).1

/-- A page without records is the last one. -/
theorem hasMore_of_empty {s : ShotStore} {before limit : ℕ} (hlimit : 0 < limit)
    (h : (s.page before limit).ids = []) : (s.page before limit).hasMore = false := by
  rw [page_eq] at h ⊢
  refine decide_eq_false fun hlt => ?_
  have hlen := congrArg List.length h
  rw [List.length_take, List.length_nil] at hlen
  omega

end ShotStore

end Pumpbug
