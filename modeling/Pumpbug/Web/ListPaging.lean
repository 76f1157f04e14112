import Pumpbug.History.Paging
import Pumpbug.Web.ShotList

/-!
# The shot list while shots are saved

What the client lists is a cut of the history, whatever the order of requests, answers and saves.  A
load-more that names the present revision for a page which the list has dropped gets a 304, and
paging stalls there.
-/

namespace Pumpbug

open Lib ShotStore

/-- The listed ids. -/
def ShotList.ids (c : ShotList) : List ℕ := (c.shots.getD []).map ShotMeta.id

theorem ShotList.cursor_eq (c : ShotList) : c.cursor = c.ids.getLast? := by
  unfold cursor ids
  cases c.shots with
  | none => rfl
  | some shots => exact List.getLast?_map.symm

/-- A client with the same list, validators and load-more. -/
structure ShotList.Kept (c c' : ShotList) : Prop where
  shots : c'.shots = c.shots
  hasMore : c'.shotsHasMore = c.shotsHasMore
  etags : c'.shotsEtags = c.shotsEtags
  loading : c'.shotsLoadMoreInFlight = c.shotsLoadMoreInFlight

/-- Nothing is asked for, or page 1 under a new token. -/
def ShotList.Asks (c c' : ShotList) (request : Option ShotsRequest) : Prop :=
  c'.shotsRefreshSeq = c.shotsRefreshSeq ∧ request = none ∨
    c'.shotsRefreshSeq = c.shotsRefreshSeq + 1 ∧ ∃ r, request = some r ∧ r.before = 0 ∧
      r.token = c'.shotsRefreshSeq ∧ r.stage = .arrived

namespace ShotList

theorem maybeRefreshShots_asks (c : ShotList) (view : ShotsView) (force : Bool) :
    Kept c (c.maybeRefreshShots view force).1 ∧
      Asks c (c.maybeRefreshShots view force).1 (c.maybeRefreshShots view force).2 := by
  unfold maybeRefreshShots
  split_ifs
  · exact ⟨⟨rfl, rfl, rfl, rfl⟩, Or.inl ⟨rfl, rfl⟩⟩
  · exact ⟨⟨rfl, rfl, rfl, rfl⟩, Or.inl ⟨rfl, rfl⟩⟩
  · exact ⟨⟨rfl, rfl, rfl, rfl⟩, Or.inl ⟨rfl, rfl⟩⟩
  · exact ⟨⟨rfl, rfl, rfl, rfl⟩, Or.inl ⟨rfl, rfl⟩⟩
  · exact ⟨⟨rfl, rfl, rfl, rfl⟩, Or.inr ⟨rfl, _, rfl, rfl, rfl, rfl⟩⟩

theorem finishRefresh_asks (c : ShotList) (view : ShotsView) :
    Kept c (c.finishRefresh view).1 ∧ Asks c (c.finishRefresh view).1 (c.finishRefresh view).2 := by
  unfold finishRefresh
  dsimp only
  split_ifs
  · have h := maybeRefreshShots_asks { c with
      shotsRefreshInFlight := false, shotsRefreshPending := false, shotsRefreshPendingForce := false }
      view c.shotsRefreshPendingForce
    exact ⟨⟨h.1.shots, h.1.hasMore, h.1.etags, h.1.loading⟩, h.2⟩
  · exact ⟨⟨rfl, rfl, rfl, rfl⟩, Or.inl ⟨rfl, rfl⟩⟩

/-- A load-more request that is sent. -/
structure Sends (c c' : ShotList) (r : ShotsRequest) : Prop where
  cursor : c.cursor = some r.before
  hasMore : c.shotsHasMore = true
  ifNoneMatch : r.ifNoneMatch = c.shotsEtags.lookup r.before
  token : r.token = c.shotsRefreshSeq + 1
  stage : r.stage = .arrived
  client : c' = { c with shotsLoadMoreInFlight := true, shotsRefreshSeq := c.shotsRefreshSeq + 1 }

theorem loadMoreShots_sends (c : ShotList) :
    c.loadMoreShots = (c, none) ∧
        (c.cursor = none ∨ c.shotsHasMore = false ∨ c.shotsLoadMoreInFlight = true) ∨
      ∃ c' r, c.loadMoreShots = (c', some r) ∧ Sends c c' r := by
  unfold loadMoreShots
  cases hcursor : c.cursor with
  | none => exact Or.inl ⟨rfl, Or.inl rfl⟩
  | some before =>
    dsimp only
    by_cases hmore : c.shotsHasMore = true
    · rw [if_neg (by simp [hmore])]
      by_cases hloading : c.shotsLoadMoreInFlight = true
      · rw [if_pos hloading]
        exact Or.inl ⟨rfl, Or.inr (Or.inr hloading)⟩
      · rw [if_neg hloading]
        exact Or.inr ⟨_, _, rfl, hcursor, hmore, rfl, rfl, rfl, rfl⟩
    · rw [if_pos (by simp [hmore])]
      exact Or.inl ⟨rfl, Or.inr (Or.inl (Bool.eq_false_iff.2 hmore))⟩

end ShotList

namespace ShotPaging

/-! ## What each party holds -/

/-- A page on its way: a cut of the records below `before`, and current while the revision is. -/
structure Fetched (store : ShotStore) (nonce : U32) (before : ℕ) (etag : ShotsEtag) (ids : List ℕ)
    (hasMore : Bool) : Prop where
  nonce : etag.nonce = nonce
  past : etag.revision.toNat ≤ store.revision
  cut : ∃ bound, Cut store ids bound hasMore ∧ (before ≠ 0 → bound = before) ∧
    (before = 0 → etag.revision.toNat = store.revision → ∀ id ∈ store.validIds, id < bound)
  present : etag.revision.toNat = store.revision →
    (∀ id ∈ ids, id ∈ store.validIds) ∧ (ids = [] → hasMore = false)

def Staged (store : ShotStore) (nonce : U32) (before : ℕ) : ShotsStage → Prop
  | .reading etag rows left hasMore _ =>
    Fetched store nonce before etag (rows.map ShotMeta.id ++ left) hasMore
  | .answered (.page etag rows hasMore _) =>
    Fetched store nonce before etag (rows.map ShotMeta.id) hasMore
  | _ => True

/-- The list is a cut, up to the newest record if the first page is current. -/
structure Listed (s : ShotPaging) : Prop where
  cut : ∃ bound, Cut s.store s.client.ids bound s.client.shotsHasMore ∧
    ∀ etag, s.client.shotsEtags.lookup 0 = some etag → etag.revision.toNat = s.store.revision →
      (∀ id ∈ s.store.validIds, id < bound) ∧ (s.client.ids = [] → s.client.shotsHasMore = false)
  past : ∀ before etag, s.client.shotsEtags.lookup before = some etag →
    etag.nonce = s.bootNonce ∧ etag.revision.toNat ≤ s.store.revision

structure Refreshing (s : ShotPaging) (r : ShotsRequest) : Prop where
  first : r.before = 0
  token : r.token ≤ s.client.shotsRefreshSeq
  staged : Staged s.store s.bootNonce 0 r.stage

structure LoadingMore (s : ShotPaging) (r : ShotsRequest) : Prop where
  older : r.before ≠ 0
  known : ∀ k < r.before, s.store.Below k
  token : r.token ≤ s.client.shotsRefreshSeq
  staged : Staged s.store s.bootNonce r.before r.stage
  /-- Unless it is superseded, the list still ends where it goes on. -/
  last : r.token = s.client.shotsRefreshSeq → s.client.cursor = some r.before
  asked : ∀ etag, r.ifNoneMatch = some etag → etag.revision.toNat ≤ s.store.revision
  safe : ∀ etag, r.ifNoneMatch = some etag → etag.revision.toNat = s.store.revision →
    ∀ id ∈ s.store.validIds, r.before ≤ id

structure Inv (s : ShotPaging) : Prop where
  listed : Listed s
  refreshing : ∀ r, s.refresh = some r → Refreshing s r
  loading : ∀ r, s.more = some r → LoadingMore s r
  distinct : ∀ r r', s.refresh = some r → s.more = some r' → r.token ≠ r'.token
  flight : s.client.shotsLoadMoreInFlight = s.more.isSome

/-- The validator of the store as it is. -/
def etag (s : ShotPaging) : ShotsEtag := shotsEtag s.store s.bootNonce

/-- A load-more does not ask for a page with its present validator while there are older records:
the validator is one of a page that the list has dropped.  And the 32-bit revision has not come
round when the handler looks at a load-more. -/
def Safe (s : ShotPaging) : Op → Prop
  | .loadMoreShots =>
    ∀ r ∈ s.client.loadMoreShots.2, r.ifNoneMatch = some s.etag → ∀ id ∈ s.store.validIds, r.before ≤ id
  | .serveMore => s.store.revision < 2 ^ 32
  | _ => True

instance (s : ShotPaging) : (op : Op) → Decidable (Safe s op)
  | .loadMoreShots => by
    unfold Safe
    infer_instance
  | .serveMore => inferInstanceAs (Decidable (s.store.revision < 2 ^ 32))
  | .save _ | .maybeRefreshShots _ _ | .serveRefresh | .failRefresh | .failMore
  | .deliverRefresh _ | .deliverMore => isTrue trivial

theorem toNat_etag {s : ShotPaging} (h : s.store.revision < 2 ^ 32) :
    s.etag.revision.toNat = s.store.revision :=
  (BitVec.toNat_ofNat ..).trans (Nat.mod_eq_of_lt h)

theorem etag_eq {s : ShotPaging} {etag : ShotsEtag} (hnonce : etag.nonce = s.bootNonce)
    (h : etag.revision.toNat = s.store.revision) : etag = s.etag := by
  have hrevision : etag.revision = BitVec.ofNat 32 s.store.revision := by
    rw [← h, BitVec.ofNat_toNat, BitVec.setWidth_eq]
  cases etag
  obtain rfl := hnonce
  obtain rfl := hrevision
  rfl

/-! ## A save -/

section Grown

variable {s : ShotPaging} {store store' : ShotStore} {nonce : U32}

theorem Fetched.grown {before : ℕ} {etag : ShotsEtag} {ids : List ℕ} {hasMore : Bool}
    (h : Fetched store nonce before etag ids hasMore) (hgrown : Grown store store') :
    Fetched store' nonce before etag ids hasMore := by
  obtain ⟨bound, hcut, hbound, hall⟩ := h.cut
  have hsame : etag.revision.toNat = store'.revision →
      etag.revision.toNat = store.revision ∧ ∀ id, id ∈ store'.validIds ↔ id ∈ store.validIds := by
    intro heq
    have hle := h.past
    have hrev := hgrown.revision
    exact ⟨by omega, hgrown.same (by omega)⟩
  refine ⟨h.nonce, h.past.trans hgrown.revision, ⟨bound, hcut.grown hgrown, hbound, ?_⟩, fun heq => ?_⟩
  · intro hbefore heq id hid
    exact hall hbefore (hsame heq).1 id (((hsame heq).2 id).1 hid)
  · obtain ⟨hvalid, hempty⟩ := h.present (hsame heq).1
    exact ⟨fun id hid => ((hsame heq).2 id).2 (hvalid id hid), hempty⟩

theorem Staged.grown {before : ℕ} {stage : ShotsStage} (h : Staged store nonce before stage)
    (hgrown : Grown store store') : Staged store' nonce before stage := by
  cases stage with
  | arrived => trivial
  | checked => trivial
  | reading etag rows left hasMore total => exact Fetched.grown h hgrown
  | answered response =>
    cases response with
    | notModified => trivial
    | failed => trivial
    | page etag rows hasMore total => exact Fetched.grown h hgrown

theorem Listed.grown (h : Listed s) (hgrown : Grown s.store store) :
    Listed { s with store := store } := by
  obtain ⟨bound, hcut, hall⟩ := h.cut
  refine ⟨⟨bound, hcut.grown hgrown, fun etag hetag heq => ?_⟩, fun before etag hetag => ?_⟩
  · have hle := (h.past 0 etag hetag).2
    have hrev := hgrown.revision
    have heq' : etag.revision.toNat = store.revision := heq
    obtain ⟨hvalid, hempty⟩ := hall etag hetag (by omega)
    exact ⟨fun id hid => hvalid id ((hgrown.same (by omega) id).1 hid), hempty⟩
  · obtain ⟨hnonce, hle⟩ := h.past before etag hetag
    exact ⟨hnonce, hle.trans hgrown.revision⟩

theorem LoadingMore.grown {r : ShotsRequest} (h : LoadingMore s r) (hgrown : Grown s.store store) :
    LoadingMore { s with store := store } r := by
  refine ⟨h.older, fun k hk => hgrown.below k (h.known k hk), h.token, h.staged.grown hgrown, h.last,
    fun etag hetag => (h.asked etag hetag).trans hgrown.revision, fun etag hetag hcurrent id hid => ?_⟩
  have hle : store.revision ≤ s.store.revision := hcurrent.symm.trans_le (h.asked etag hetag)
  have hsame : store.revision = s.store.revision := le_antisymm hle hgrown.revision
  exact h.safe etag hetag (hcurrent.trans hsame) id ((hgrown.same hsame id).1 hid)

theorem Inv.grown (h : Inv s) (hgrown : Grown s.store store) : Inv { s with store := store } := by
  refine ⟨h.listed.grown hgrown, fun r hr => ?_, fun r hr => (h.loading r hr).grown hgrown,
    h.distinct, h.flight⟩
  have hrefreshing := h.refreshing r hr
  exact ⟨hrefreshing.first, hrefreshing.token, hrefreshing.staged.grown hgrown⟩

end Grown

/-! ## The handler -/

theorem mem_map_id {rows : List ShotMeta} {shot : ShotMeta} {id : ℕ} {left : List ℕ}
    (hid : shot.id = id) :
    (rows ++ [shot]).map ShotMeta.id ++ left = rows.map ShotMeta.id ++ id :: left := by
  rw [List.map_append, List.append_assoc, List.map_cons, List.map_nil, List.singleton_append, hid]

/-- The page that a walk of the directory gives. -/
theorem fetched_page (store : ShotStore) (nonce : U32) {before : ℕ}
    (h : before ≠ 0 → ∀ k < before, store.Below k) :
    Fetched store nonce before (shotsEtag store nonce)
      (store.page before SHOTS_LIMIT).ids (store.page before SHOTS_LIMIT).hasMore := by
  refine ⟨rfl, (BitVec.toNat_ofNat ..).trans_le (Nat.mod_le _ _), ?_,
    fun _ => ⟨fun _ => valid_of_mem_page, hasMore_of_empty (by decide)⟩⟩
  by_cases hbefore : before = 0
  · obtain ⟨bound, hcut, hall⟩ := cut_first store SHOTS_LIMIT
    rw [hbefore]
    exact ⟨bound, hcut, fun hno => absurd rfl hno, fun _ _ => hall⟩
  · exact ⟨before, cut_older SHOTS_LIMIT hbefore (h hbefore), fun _ => rfl,
      fun hno => absurd hno hbefore⟩

/-- A record that is gone when its header is read shows that the page is no longer current. -/
theorem Fetched.drop {store : ShotStore} {nonce : U32} {before id : ℕ} {etag : ShotsEtag}
    {front back : List ℕ} {hasMore : Bool}
    (h : Fetched store nonce before etag (front ++ id :: back) hasMore) (hid : id ∉ store.validIds) :
    Fetched store nonce before etag (front ++ back) hasMore := by
  obtain ⟨bound, hcut, hbound, hall⟩ := h.cut
  refine ⟨h.nonce, h.past, ⟨bound, hcut.drop hid, hbound, hall⟩, fun heq => ?_⟩
  exact absurd ((h.present heq).1 id (List.mem_append_right _ List.mem_cons_self)) hid

/-- **Step lemma.** The handler's next call keeps the page a cut. -/
theorem Staged.handle {store : ShotStore} {nonce : U32} {before : ℕ} {stage : ShotsStage}
    (h : Staged store nonce before stage) (hknown : before ≠ 0 → ∀ k < before, store.Below k)
    (ifNoneMatch : Option ShotsEtag) :
    Staged store nonce before
      (handleShotList store nonce before (some SHOTS_LIMIT) ifNoneMatch stage) := by
  cases stage with
  | arrived =>
    unfold handleShotList
    split_ifs
    · trivial
    · trivial
  | checked => exact fetched_page store nonce hknown
  | reading etag rows left hasMore total =>
    cases left with
    | nil =>
      have hrows : Fetched store nonce before etag (rows.map ShotMeta.id ++ []) hasMore := h
      rw [List.append_nil] at hrows
      exact hrows
    | cons id left =>
      have hrows : Fetched store nonce before etag (rows.map ShotMeta.id ++ id :: left) hasMore := h
      unfold handleShotList
      dsimp only
      cases hread : store.readMeta id with
      | none => exact hrows.drop (not_valid_of_unread hread)
      | some shot =>
        rw [← mem_map_id (readMeta_id hread)] at hrows
        exact hrows
  | answered response => exact h

theorem LoadingMore.serve {s : ShotPaging} {r : ShotsRequest} (h : LoadingMore s r) :
    LoadingMore s (s.serve r) :=
  ⟨h.older, h.known, h.token, h.staged.handle (fun _ => h.known) r.ifNoneMatch, h.last, h.asked, h.safe⟩

/-! ## The client -/

theorem Listed.congr {s s' : ShotPaging} (h : Listed s) (hstore : s'.store = s.store)
    (hnonce : s'.bootNonce = s.bootNonce) (hkept : ShotList.Kept s.client s'.client) : Listed s' := by
  have hids : s'.client.ids = s.client.ids := by
    unfold ShotList.ids
    rw [hkept.shots]
  refine ⟨?_, ?_⟩
  · rw [hstore, hids, hkept.hasMore, hkept.etags]
    exact h.cut
  · rw [hstore, hnonce, hkept.etags]
    exact h.past

/-- A refresh that is asked for takes a token of its own. -/
theorem Inv.asks {s : ShotPaging} {client : ShotList} {request : Option ShotsRequest} (h : Inv s)
    (hkept : ShotList.Kept s.client client) (hasks : ShotList.Asks s.client client request) :
    Inv { s with client := client, refresh := request.or s.refresh } := by
  have hcursor : client.cursor = s.client.cursor := by
    unfold ShotList.cursor
    rw [hkept.shots]
  have hlisted : Listed { s with client := client, refresh := request.or s.refresh } :=
    h.listed.congr rfl rfl hkept
  rcases hasks with ⟨hseq, rfl⟩ | ⟨hseq, r, rfl, hfirst, htoken, hstage⟩
  · refine ⟨hlisted, fun r hr => ?_, fun r hr => ?_, h.distinct, hkept.loading.trans h.flight⟩
    · have hr' := h.refreshing r hr
      exact ⟨hr'.first, hr'.token.trans_eq hseq.symm, hr'.staged⟩
    · have hr' := h.loading r hr
      exact ⟨hr'.older, hr'.known, hr'.token.trans_eq hseq.symm, hr'.staged,
        fun htoken => hcursor.trans (hr'.last (htoken.trans hseq)), hr'.asked, hr'.safe⟩
  · have hlt : ∀ r', s.more = some r' → r'.token < r.token := by
      intro r' hr'
      have := (h.loading r' hr').token
      omega
    refine ⟨hlisted, fun r' hr' => ?_, fun r' hr' => ?_, fun r' r'' hr' hr'' => ?_,
      hkept.loading.trans h.flight⟩
    · obtain rfl : r = r' := Option.some.inj hr'
      refine ⟨hfirst, htoken.le, ?_⟩
      rw [hstage]
      trivial
    · have hr'' := h.loading r' hr'
      refine ⟨hr''.older, hr''.known, ((hlt r' hr').trans_eq htoken).le, hr''.staged, fun heq => ?_,
        hr''.asked, hr''.safe⟩
      exact absurd (heq.trans htoken.symm) (hlt r' hr').ne
    · obtain rfl : r = r' := Option.some.inj hr'
      exact (hlt r'' hr'').ne'

/-- **Step lemma.** The answer to a refresh replaces the list by the first page. -/
theorem Inv.applyRefresh {s : ShotPaging} {r : ShotsRequest} {response : ShotsResponse} (h : Inv s)
    (hr : s.refresh = some r) (hstage : r.stage = .answered response) :
    Inv { s with client := s.client.applyRefresh r response, refresh := none } := by
  have hrefreshing := h.refreshing r hr
  have hkept : ∀ client : ShotList, ShotList.Kept s.client client →
      client.shotsRefreshSeq = s.client.shotsRefreshSeq →
      Inv { s with client := client, refresh := none } := by
    intro client hkept hseq
    have hdropped : Inv { s with refresh := none } :=
      ⟨⟨h.listed.cut, h.listed.past⟩, fun r hr => (by cases hr), fun r hr => ?_,
        fun r _ hr _ => (by cases hr), h.flight⟩
    · exact hdropped.asks hkept (Or.inl ⟨hseq, rfl⟩)
    · have hr' := h.loading r hr
      exact ⟨hr'.older, hr'.known, hr'.token, hr'.staged, hr'.last, hr'.asked, hr'.safe⟩
  cases response with
  | failed => exact hkept _ ⟨rfl, rfl, rfl, rfl⟩ rfl
  | notModified =>
    unfold ShotList.applyRefresh
    dsimp only
    split_ifs
    · exact hkept _ ⟨rfl, rfl, rfl, rfl⟩ rfl
    · exact hkept _ ⟨rfl, rfl, rfl, rfl⟩ rfl
  | page etag shots hasMore total =>
    unfold ShotList.applyRefresh
    dsimp only
    by_cases htoken : r.token ≠ s.client.shotsRefreshSeq
    · rw [if_pos htoken]
      exact hkept _ ⟨rfl, rfl, rfl, rfl⟩ rfl
    · rw [if_neg htoken]
      rw [not_not] at htoken
      have hfetched : Fetched s.store s.bootNonce 0 etag (shots.map ShotMeta.id) hasMore := by
        have hstaged := hrefreshing.staged
        rw [hstage] at hstaged
        exact hstaged
      obtain ⟨bound, hcut, -, hall⟩ := hfetched.cut
      refine ⟨⟨⟨bound, hcut, fun etag' hetag heq => ?_⟩, fun before etag' hetag => ?_⟩,
        fun r' hr' => (by cases hr'),
        fun r' hr' => ?_, fun r' _ hr' _ => (by cases hr'), h.flight⟩
      · obtain rfl : etag = etag' := Option.some.inj ((AList.lookup_insert _).symm.trans hetag)
        exact ⟨hall rfl heq, (hfetched.present heq).2⟩
      · by_cases hbefore : before = 0
        · subst hbefore
          obtain rfl : etag = etag' := Option.some.inj ((AList.lookup_insert _).symm.trans hetag)
          exact ⟨hfetched.nonce, hfetched.past⟩
        · exact h.listed.past before etag' ((AList.lookup_insert_ne hbefore).symm.trans hetag)
      · have hr'' := h.loading r' hr'
        refine ⟨hr''.older, hr''.known, hr''.token, hr''.staged, fun heq => ?_, hr''.asked, hr''.safe⟩
        exact absurd (htoken.trans heq.symm) (h.distinct r r' hr hr')

/-- **Step lemma.** A load-more goes on where the list ends. -/
theorem Inv.sends {s : ShotPaging} {client : ShotList} {r : ShotsRequest} (h : Inv s)
    (hsends : ShotList.Sends s.client client r)
    (hsafe : r.ifNoneMatch = some s.etag → ∀ id ∈ s.store.validIds, r.before ≤ id) :
    Inv { s with client := client, more := some r } := by
  obtain ⟨bound, hcut, -⟩ := h.listed.cut
  have hlast : s.client.ids.getLast? = some r.before :=
    s.client.cursor_eq.symm.trans hsends.cursor
  have hmem := List.mem_of_getLast? hlast
  obtain ⟨hne, hlt⟩ := hcut.inside r.before hmem
  have hclient := hsends.client
  subst hclient
  refine ⟨⟨h.listed.cut, h.listed.past⟩, fun r' hr' => ?_, fun r' hr' => ?_, fun r' r'' hr' hr'' => ?_,
    rfl⟩
  · have hr'' := h.refreshing r' hr'
    exact ⟨hr''.first, hr''.token.trans (Nat.le_succ _), hr''.staged⟩
  · obtain rfl : r = r' := Option.some.inj hr'
    refine ⟨hne, fun k hk => hcut.known k (hk.trans hlt), hsends.token.le, ?_, fun _ => hsends.cursor,
      fun etag hetag => ?_, fun etag hetag hcurrent => ?_⟩
    · rw [hsends.stage]
      trivial
    · rw [hsends.ifNoneMatch] at hetag
      exact (h.listed.past r.before etag hetag).2
    · have hnonce := (h.listed.past r.before etag (hsends.ifNoneMatch.symm.trans hetag)).1
      rw [etag_eq hnonce hcurrent] at hetag
      exact hsafe hetag
  · obtain rfl : r = r'' := Option.some.inj hr''
    have hle := (h.refreshing r' hr').token
    rw [hsends.token]
    omega

/-- **Step lemma.** The answer to a load-more continues the list, unless it is superseded. -/
theorem Inv.applyMore {s : ShotPaging} {r : ShotsRequest} {response : ShotsResponse} (h : Inv s)
    (hr : s.more = some r) (hstage : r.stage = .answered response) :
    Inv { s with client := (s.client.applyMore r response).finishMore, more := none } := by
  have hloading := h.loading r hr
  have hsame : Inv { s with client := s.client.finishMore, more := none } := by
    refine ⟨⟨h.listed.cut, h.listed.past⟩, fun r' hr' => ?_, fun r' hr' => (by cases hr'),
      fun _ r' _ hr' => (by cases hr'), rfl⟩
    have hr'' := h.refreshing r' hr'
    exact ⟨hr''.first, hr''.token, hr''.staged⟩
  cases response with
  | failed => exact hsame
  | notModified => exact hsame
  | page etag shots hasMore total =>
    unfold ShotList.applyMore
    dsimp only
    by_cases htoken : r.token ≠ s.client.shotsRefreshSeq
    · rw [if_pos htoken]
      exact hsame
    · rw [if_neg htoken]
      rw [not_not] at htoken
      have hfetched : Fetched s.store s.bootNonce r.before etag (shots.map ShotMeta.id) hasMore := by
        have hstaged := hloading.staged
        rw [hstage] at hstaged
        exact hstaged
      obtain ⟨bound, hcut, hall⟩ := h.listed.cut
      obtain ⟨bound', hpage, hbound, -⟩ := hfetched.cut
      rw [hbound hloading.older] at hpage
      have hlast : s.client.ids.getLast? = some r.before :=
        s.client.cursor_eq.symm.trans (hloading.last htoken)
      have happend := hcut.append hlast hpage
      have hids : (s.client.shots.getD [] ++ shots).map ShotMeta.id =
          s.client.ids ++ shots.map ShotMeta.id := List.map_append
      rw [← hids] at happend
      have hzero : ∀ etag', (s.client.shotsEtags.insert r.before etag).lookup 0 = some etag' →
          s.client.shotsEtags.lookup 0 = some etag' :=
        fun etag' hetag => (AList.lookup_insert_ne (Ne.symm hloading.older)).symm.trans hetag
      refine ⟨⟨⟨bound, happend, fun etag' hetag heq => ⟨?_, fun hempty => ?_⟩⟩,
        fun before etag' hetag => ?_⟩, fun r' hr' => ?_, fun r' hr' => (by cases hr'), fun _ r' _ hr' => (by cases hr'), rfl⟩
      · exact (hall etag' (hzero etag' hetag) heq).1
      · have hnil : s.client.ids = [] := (List.append_eq_nil_iff.1 (hids.symm.trans hempty)).1
        rw [hnil] at hlast
        cases hlast
      · by_cases hbefore : before = r.before
        · subst hbefore
          obtain rfl : etag = etag' := Option.some.inj ((AList.lookup_insert _).symm.trans hetag)
          exact ⟨hfetched.nonce, hfetched.past⟩
        · exact h.listed.past before etag' ((AList.lookup_insert_ne hbefore).symm.trans hetag)
      · have hr'' := h.refreshing r' hr'
        exact ⟨hr''.first, hr''.token, hr''.staged⟩

/-! ## Runs -/

theorem answered_of_response {r : ShotsRequest} {response : ShotsResponse}
    (h : r.response = some response) : r.stage = .answered response := by
  unfold ShotsRequest.response at h
  split at h
  · rename_i response' hstage
    rw [hstage, Option.some.inj h]
  · cases h

theorem Inv.mapRefresh {s : ShotPaging} {f : ShotsRequest → ShotsRequest} (h : Inv s)
    (hf : ∀ r, s.refresh = some r → Refreshing s (f r) ∧ (f r).token = r.token) :
    Inv { s with refresh := s.refresh.map f } := by
  refine ⟨⟨h.listed.cut, h.listed.past⟩, fun r hr => ?_, fun r hr => ?_, fun r r' hr hr' => ?_, h.flight⟩
  · obtain ⟨r₀, hr₀, rfl⟩ := Option.map_eq_some_iff.1 hr
    have hrefreshing := (hf r₀ hr₀).1
    exact ⟨hrefreshing.first, hrefreshing.token, hrefreshing.staged⟩
  · have hloading := h.loading r hr
    exact ⟨hloading.older, hloading.known, hloading.token, hloading.staged, hloading.last,
      hloading.asked, hloading.safe⟩
  · obtain ⟨r₀, hr₀, rfl⟩ := Option.map_eq_some_iff.1 hr
    rw [(hf r₀ hr₀).2]
    exact h.distinct r₀ r' hr₀ hr'

theorem Inv.mapMore {s : ShotPaging} {f : ShotsRequest → ShotsRequest} (h : Inv s)
    (hf : ∀ r, s.more = some r → LoadingMore s (f r) ∧ (f r).token = r.token) :
    Inv { s with more := s.more.map f } := by
  refine ⟨⟨h.listed.cut, h.listed.past⟩, fun r hr => ?_, fun r hr => ?_, fun r r' hr hr' => ?_,
    h.flight.trans (Option.isSome_map ..).symm⟩
  · have hrefreshing := h.refreshing r hr
    exact ⟨hrefreshing.first, hrefreshing.token, hrefreshing.staged⟩
  · obtain ⟨r₀, hr₀, rfl⟩ := Option.map_eq_some_iff.1 hr
    have hloading := (hf r₀ hr₀).1
    exact ⟨hloading.older, hloading.known, hloading.token, hloading.staged, hloading.last,
      hloading.asked, hloading.safe⟩
  · obtain ⟨r₀, hr₀, rfl⟩ := Option.map_eq_some_iff.1 hr'
    rw [(hf r₀ hr₀).2]
    exact h.distinct r r₀ hr hr₀

/-- **Step lemma.** A safe step keeps the list a cut. -/
theorem inv_step {s : ShotPaging} {op : Op} (h : Inv s) (hsafe : Safe s op) : Inv (s.step op) := by
  cases op with
  | save ext => exact h.grown (grown_save s.store ext)
  | maybeRefreshShots view force =>
    obtain ⟨hkept, hasks⟩ := s.client.maybeRefreshShots_asks view force
    exact h.asks hkept hasks
  | loadMoreShots =>
    rcases s.client.loadMoreShots_sends with ⟨heq, -⟩ | ⟨client, r, heq, hsends⟩
    · have hstep : s.step .loadMoreShots = s := by
        unfold ShotPaging.step
        dsimp only
        rw [heq]
        rfl
      rw [hstep]
      exact h
    · have hstep : s.step .loadMoreShots = { s with client := client, more := some r } := by
        unfold ShotPaging.step
        dsimp only
        rw [heq]
        rfl
      rw [hstep]
      exact h.sends hsends (hsafe r (congrArg Prod.snd heq))
  | serveRefresh =>
    refine h.mapRefresh fun r hr => ⟨?_, rfl⟩
    have hrefreshing := h.refreshing r hr
    refine ⟨hrefreshing.first, hrefreshing.token, ?_⟩
    have hstaged := hrefreshing.staged.handle (fun hno => absurd rfl hno) r.ifNoneMatch
    unfold serve
    rw [hrefreshing.first]
    exact hstaged
  | serveMore => exact h.mapMore fun r hr => ⟨(h.loading r hr).serve, rfl⟩
  | failRefresh =>
    refine h.mapRefresh fun r hr => ⟨?_, rfl⟩
    have hrefreshing := h.refreshing r hr
    exact ⟨hrefreshing.first, hrefreshing.token, trivial⟩
  | failMore =>
    refine h.mapMore fun r hr => ⟨?_, rfl⟩
    have hloading := h.loading r hr
    exact ⟨hloading.older, hloading.known, hloading.token, trivial, hloading.last, hloading.asked,
      hloading.safe⟩
  | deliverRefresh view =>
    unfold ShotPaging.step
    dsimp only
    cases hr : s.refresh with
    | none => exact h
    | some r =>
      cases hresponse : r.response with
      | none =>
        rw [Option.bind_some, hresponse]
        exact h
      | some response =>
        rw [Option.bind_some, hresponse]
        have happlied := h.applyRefresh hr (answered_of_response hresponse)
        obtain ⟨hkept, hasks⟩ := (s.client.applyRefresh r response).finishRefresh_asks view
        have hfinished := happlied.asks hkept hasks
        rw [Option.or_none] at hfinished
        exact hfinished
  | deliverMore =>
    unfold ShotPaging.step
    dsimp only
    cases hr : s.more with
    | none => exact h
    | some r =>
      cases hresponse : r.response with
      | none =>
        rw [Option.bind_some, hresponse]
        exact h
      | some response =>
        rw [Option.bind_some, hresponse]
        exact h.applyMore hr (answered_of_response hresponse)

theorem inv_start (store : ShotStore) (nonce : U32) :
    Inv { store := store, bootNonce := nonce } := by
  have hcut : Cut store [] 0 false :=
    ⟨List.Pairwise.nil, fun id hid => (by cases hid), fun k hk => absurd hk (Nat.not_lt_zero k),
      fun id _ hid => absurd hid (Nat.not_lt_zero id)⟩
  refine ⟨⟨⟨0, hcut, fun etag hetag => ?_⟩, fun before etag hetag => ?_⟩, fun r hr => (by cases hr),
    fun r hr => (by cases hr), fun r _ hr _ => (by cases hr), rfl⟩
  · cases hetag
  · cases hetag

/-- What a step may do to the list. -/
structure Sound (s : ShotPaging) (op : Op) : Prop where
  decreasing : (s.step op).client.ids.Pairwise (· > ·)
  gapless : ∀ id ∈ (s.step op).store.validIds, ∀ first ∈ (s.step op).client.ids,
    ∀ last ∈ (s.step op).client.ids, last ≤ id → id ≤ first → id ∈ (s.step op).client.ids
  /-- A load-more is answered 304 for a page that the list contains. -/
  contained : op = .serveMore → ∀ r, s.more = some r → r.stage = .arrived →
    (s.serve r).stage = .answered .notModified →
      ∀ id ∈ (s.store.page r.before SHOTS_LIMIT).ids, id ∈ s.client.ids

theorem current_of_notModified {s : ShotPaging} {r : ShotsRequest} (harrived : r.stage = .arrived)
    (h : (s.serve r).stage = .answered .notModified) : r.ifNoneMatch = some s.etag := by
  unfold serve at h
  dsimp only at h
  rw [harrived] at h
  unfold handleShotList at h
  dsimp only at h
  split_ifs at h with hcurrent
  exact hcurrent

theorem page_empty {s : ShotStore} {before limit : ℕ} (hbefore : before ≠ 0)
    (h : ∀ id ∈ s.validIds, before ≤ id) : (s.page before limit).ids = [] := by
  rw [page_eq, List.eq_nil_iff_forall_not_mem]
  intro id hid
  obtain ⟨hvalid, hlt⟩ := mem_newestBelow.1 (List.mem_of_mem_take hid)
  exact absurd (hlt.resolve_left hbefore) (not_lt.2 (h id hvalid))

theorem Inv.sound {s : ShotPaging} {op : Op} (h : Inv s) (hsafe : Safe s op) : Sound s op := by
  obtain ⟨bound, hcut, -⟩ := (inv_step h hsafe).listed.cut
  refine ⟨hcut.decreasing, fun id hid first hfirst last hlast => hcut.gapless hid hfirst hlast, ?_⟩
  intro hop r hr harrived hanswer id hid
  subst hop
  have hloading := h.loading r hr
  have hcurrent := hloading.safe _ (current_of_notModified harrived hanswer) (toNat_etag hsafe)
  rw [page_empty hloading.older hcurrent] at hid
  cases hid

/-! ## Rounds -/

/-- One load-more, from the request to its answer: the handler takes two calls, one for each row,
and one to answer. -/
def round : List Op :=
  .loadMoreShots :: (List.replicate (SHOTS_LIMIT + 3) .serveMore ++ [.deliverMore])

def rounds (n : ℕ) : List Op := (List.replicate n round).flatten

/-- All valid records are listed. -/
def Complete (s : ShotPaging) : Prop := ∀ id ∈ s.store.validIds, id ∈ s.client.ids

/-- Every valid record up to the newest listed one is listed. -/
def CompleteBelow (s : ShotPaging) : Prop :=
  ∀ id ∈ s.store.validIds, ∀ first ∈ s.client.ids, id ≤ first → id ∈ s.client.ids

/-- The list begins at the newest valid record: nothing was saved after its first page. -/
def NewestListed (s : ShotPaging) : Prop :=
  ∀ id ∈ s.store.validIds, ∃ first ∈ s.client.ids, id ≤ first

/-- The list goes on where it ended, if there was one. -/
structure Older (s s' : ShotPaging) : Prop where
  store : s'.store = s.store
  ids : ∃ older, s'.client.ids = s.client.ids ++ older ∧ (s.client.ids = [] → older = [])

/-- Nothing is left to load. -/
def Finished (s : ShotPaging) : Prop :=
  s.client.shotsHasMore = false ∨
    ∀ last, s.client.cursor = some last → ∀ id ∈ s.store.validIds, last ≤ id

/-- The number of valid records below the list. -/
def rest (s : ShotPaging) : ℕ :=
  match s.client.cursor with
  | none => 0
  | some last => (s.store.validIds.filter fun id => id < last).length

theorem listed_of_finished {s : ShotPaging} (hfinished : Finished s) {id bound : ℕ}
    (hcut : Cut s.store s.client.ids bound s.client.shotsHasMore) (hid : id ∈ s.store.validIds)
    (hlt : id < bound) (hempty : s.client.ids ≠ []) : id ∈ s.client.ids := by
  rcases hcut.complete id hid hlt with hmem | ⟨hmore, hbelow⟩
  · exact hmem
  · rcases hfinished with hno | hlast
    · rw [hno] at hmore
      cases hmore
    · have hcursor := (s.client.cursor_eq).trans (List.getLast?_eq_some_getLast hempty)
      have hle := hlast _ hcursor id hid
      exact absurd (hbelow _ (List.getLast_mem hempty)) (not_lt.2 hle)

theorem completeBelow_of_finished {s : ShotPaging} (h : Inv s) (hfinished : Finished s) :
    CompleteBelow s := by
  obtain ⟨bound, hcut, -⟩ := h.listed.cut
  intro id hid first hfirst hle
  exact listed_of_finished hfinished hcut hid (hle.trans_lt (hcut.inside first hfirst).2)
    (List.ne_nil_of_mem hfirst)

/-- A list whose first page is current begins at the newest record. -/
theorem newestListed_of_current {s : ShotPaging} (h : Inv s) (hrevision : s.store.revision < 2 ^ 32)
    (hcurrent : s.client.shotsEtags.lookup 0 = some s.etag) : NewestListed s := by
  obtain ⟨bound, hcut, hall⟩ := h.listed.cut
  obtain ⟨hvalid, hempty⟩ := hall _ hcurrent (toNat_etag hrevision)
  intro id hid
  rcases hcut.complete id hid (hvalid id hid) with hmem | ⟨hmore, hbelow⟩
  · exact ⟨id, hmem, le_rfl⟩
  · cases hids : s.client.ids with
    | nil =>
      rw [hempty hids] at hmore
      cases hmore
    | cons first rest =>
      have hfirst : first ∈ s.client.ids := hids ▸ List.mem_cons_self
      exact ⟨first, List.mem_cons_self, (hbelow first hfirst).le⟩

/-- Where nothing is left to load, all records are listed exactly if the list began at the newest. -/
theorem complete_iff {s s' : ShotPaging} (h : Inv s') (hfinished : Finished s') (holder : Older s s') :
    Complete s' ↔ NewestListed s := by
  obtain ⟨older, hids, hnil⟩ := holder.ids
  constructor
  · intro hall id hid
    have hmem : id ∈ s'.client.ids := hall id (holder.store.symm ▸ hid)
    obtain ⟨bound, hcut, -⟩ := h.listed.cut
    have hdecreasing := hcut.decreasing
    cases hfirst : s.client.ids with
    | nil =>
      rw [hids, hfirst, hnil hfirst] at hmem
      cases hmem
    | cons first rest =>
      rw [hids, hfirst, List.cons_append] at hmem hdecreasing
      refine ⟨first, List.mem_cons_self, ?_⟩
      rcases List.mem_cons.1 hmem with rfl | hlater
      · exact le_rfl
      · exact (List.rel_of_pairwise_cons hdecreasing hlater).le
  · intro hnewest id hid
    obtain ⟨first, hfirst, hle⟩ := hnewest id (holder.store ▸ hid)
    refine completeBelow_of_finished h hfinished id hid first ?_ hle
    rw [hids]
    exact List.mem_append_left older hfirst

theorem Older.refl (s : ShotPaging) : Older s s := ⟨rfl, [], (List.append_nil _).symm, fun _ => rfl⟩

theorem Older.trans {s s' s'' : ShotPaging} (h : Older s s') (h' : Older s' s'') : Older s s'' := by
  obtain ⟨older, hids, hnil⟩ := h.ids
  obtain ⟨older', hids', hnil'⟩ := h'.ids
  refine ⟨h'.store.trans h.store, older ++ older', ?_, fun hempty => ?_⟩
  · rw [hids', hids, List.append_assoc]
  · have hempty' : s'.client.ids = [] := by rw [hids, hempty, hnil hempty]; rfl
    rw [hnil hempty, hnil' hempty']
    rfl

/-! ### The handler's calls -/

section Handler

variable (store : ShotStore) (nonce : U32) (before : ℕ) (ifNoneMatch : Option ShotsEtag)

theorem handle_answered (response : ShotsResponse) (n : ℕ) :
    (handleShotList store nonce before (some SHOTS_LIMIT) ifNoneMatch)^[n] (.answered response) =
      .answered response :=
  Function.iterate_fixed rfl n

theorem handle_reading {etag : ShotsEtag} {rows : List ShotMeta} {left : List ℕ} {hasMore : Bool}
    {total n : ℕ} (h : left.length < n) : ∃ rows',
    (handleShotList store nonce before (some SHOTS_LIMIT) ifNoneMatch)^[n]
      (.reading etag rows left hasMore total) = .answered (.page etag rows' hasMore total) := by
  induction left generalizing rows n with
  | nil =>
    obtain ⟨n, rfl⟩ := Nat.exists_eq_add_of_lt h
    rw [Function.iterate_succ_apply]
    exact ⟨rows, handle_answered store nonce before ifNoneMatch _ _⟩
  | cons id left ih =>
    rw [List.length_cons] at h
    obtain ⟨n, rfl⟩ : ∃ m, n = m + 1 := ⟨n - 1, by omega⟩
    rw [Function.iterate_succ_apply]
    unfold handleShotList
    dsimp only
    cases store.readMeta id with
    | none => exact ih (by omega)
    | some shot => exact ih (by omega)

/-- With the calls of a round a request is answered: 304, or a page of the present revision. -/
theorem handle_arrived :
    ifNoneMatch = some (shotsEtag store nonce) ∧
        (handleShotList store nonce before (some SHOTS_LIMIT) ifNoneMatch)^[SHOTS_LIMIT + 3] .arrived =
          .answered .notModified ∨
      ∃ rows hasMore total,
        (handleShotList store nonce before (some SHOTS_LIMIT) ifNoneMatch)^[SHOTS_LIMIT + 3] .arrived =
          .answered (.page (shotsEtag store nonce) rows hasMore total) := by
  rw [Function.iterate_succ_apply]
  by_cases hcurrent : ifNoneMatch = some (shotsEtag store nonce)
  · have harrived : handleShotList store nonce before (some SHOTS_LIMIT) ifNoneMatch .arrived =
        .answered .notModified := if_pos hcurrent
    rw [harrived]
    exact Or.inl ⟨hcurrent, handle_answered store nonce before ifNoneMatch _ _⟩
  · have harrived : handleShotList store nonce before (some SHOTS_LIMIT) ifNoneMatch .arrived =
        .checked := if_neg hcurrent
    right
    rw [harrived, Function.iterate_succ_apply]
    have hlen : (store.page before SHOTS_LIMIT).ids.length < SHOTS_LIMIT + 1 := by
      rw [page_eq]
      exact Nat.lt_succ_of_le (List.length_take_le _ _)
    obtain ⟨rows, hrows⟩ := @handle_reading store nonce before ifNoneMatch _ [] _ _ _ _ hlen
    exact ⟨rows, _, _, hrows⟩

end Handler

theorem exec_serveMore (s : ShotPaging) (n : ℕ) :
    exec step s (List.replicate n .serveMore) =
      { s with more := s.more.map fun r => { r with stage :=
        (handleShotList s.store s.bootNonce r.before (some SHOTS_LIMIT) r.ifNoneMatch)^[n] r.stage } } := by
  induction n generalizing s with
  | zero =>
    cases s with
    | mk store nonce client refresh more => cases more <;> rfl
  | succ n ih =>
    rw [List.replicate_succ, exec_cons, ih]
    cases s with
    | mk store nonce client refresh more => cases more <;> rfl

theorem serveMore_some {store : ShotStore} {nonce : U32} {client : ShotList}
    {refresh : Option ShotsRequest} {r : ShotsRequest} {n : ℕ} {stage : ShotsStage}
    (h : (handleShotList store nonce r.before (some SHOTS_LIMIT) r.ifNoneMatch)^[n] r.stage = stage) :
    exec step ⟨store, nonce, client, refresh, some r⟩ (List.replicate n .serveMore) =
      ⟨store, nonce, client, refresh, some { r with stage := stage }⟩ := by
  rw [exec_serveMore, ← h]
  rfl

/-! ### The rounds -/

/-- What is served without a save is safe. -/
theorem along_serveMore {s : ShotPaging} (h : s.store.revision < 2 ^ 32) (n : ℕ) :
    Along step Safe s (List.replicate n .serveMore) := by
  induction n generalizing s with
  | zero => trivial
  | succ n ih => exact ⟨h, ih h⟩

theorem inv_run {s : ShotPaging} {ops : List Op} (h : Inv s) (hsafe : Along step Safe s ops) :
    Inv (exec step s ops) :=
  hsafe.exec_invariant Inv (fun _ _ hs => inv_step hs) h

/-- What a round leaves: nothing more to load, or less than before. -/
structure RoundDone (s s' : ShotPaging) : Prop where
  inv : Inv s'
  idle : s'.more = none
  older : Older s s'
  progress : Finished s' ∨ ¬ Finished s ∧ rest s' < rest s

/-- A load-more that is answered by a page of the present revision. -/
theorem progress_of_page {s s' : ShotPaging} {r : ShotsRequest} {etag : ShotsEtag}
    {rows : List ShotMeta} {hasMore : Bool} (hcursor : s.client.cursor = some r.before)
    (hmore : s.client.shotsHasMore = true) (hbefore : r.before ≠ 0)
    (hfetched : Fetched s.store s.bootNonce r.before etag (rows.map ShotMeta.id) hasMore)
    (hetag : etag.revision.toNat = s.store.revision) (hstore : s'.store = s.store)
    (hids : s'.client.ids = s.client.ids ++ rows.map ShotMeta.id)
    (hhasMore : s'.client.shotsHasMore = hasMore) :
    Finished s' ∨ ¬ Finished s ∧ rest s' < rest s := by
  obtain ⟨hvalid, hempty⟩ := hfetched.present hetag
  obtain ⟨bound, hcut, hbound, -⟩ := hfetched.cut
  cases hlast : (rows.map ShotMeta.id).getLast? with
  | none =>
    rw [List.getLast?_eq_none_iff] at hlast
    exact Or.inl (Or.inl (hhasMore.trans (hempty hlast)))
  | some last =>
    have hmem := List.mem_of_getLast? hlast
    have hlt : last < r.before := (hcut.inside last hmem).2.trans_eq (hbound hbefore)
    have hcursor' : s'.client.cursor = some last := by
      rw [ShotList.cursor_eq, hids, List.getLast?_append, hlast]
      rfl
    refine Or.inr ⟨?_, ?_⟩
    · rintro (hno | hall)
      · rw [hno] at hmore
        cases hmore
      · exact absurd (hall r.before hcursor last (hvalid last hmem)) (not_le.2 hlt)
    · unfold rest
      rw [hcursor, hcursor', hstore]
      dsimp only
      have hsub : (s.store.validIds.filter fun id => id < last) =
          (s.store.validIds.filter fun id => id < r.before).filter fun id => id < last := by
        rw [List.filter_filter]
        refine List.filter_congr fun id _ => ?_
        by_cases hid : id < last
        · rw [decide_eq_true hid, decide_eq_true (hid.trans hlt)]
          rfl
        · rw [decide_eq_false hid]
          rfl
      rw [hsub, List.length_filter_lt_length_iff_exists]
      refine ⟨last, List.mem_filter.2 ⟨hvalid last hmem, decide_eq_true hlt⟩, ?_⟩
      rw [decide_eq_true_eq]
      exact lt_irrefl last

theorem deliverMore_eq {s : ShotPaging} {r : ShotsRequest} {response : ShotsResponse}
    (hmore : s.more = some r) (hstage : r.stage = .answered response) :
    s.step .deliverMore =
      { s with client := (s.client.applyMore r response).finishMore, more := none } := by
  have hresponse : r.response = some response := by
    unfold ShotsRequest.response
    rw [hstage]
  unfold ShotPaging.step
  dsimp only
  rw [hmore, Option.bind_some, hresponse]

/-- A round without a request changes nothing. -/
theorem round_of_unsent {s : ShotPaging} (heq : s.client.loadMoreShots = (s.client, none))
    (hidle : s.more = none) : exec step s round = s := by
  have hstep : s.step .loadMoreShots = s := by
    unfold ShotPaging.step
    dsimp only
    rw [heq]
    rfl
  unfold round
  rw [exec_cons, hstep, exec_append, exec_serveMore, hidle]
  cases s with
  | mk store nonce client refresh more =>
    obtain rfl : more = none := hidle
    rfl

/-- A round whose request is sent: how it is answered, and the page that comes with the answer. -/
theorem round_of_sends {s : ShotPaging} {client : ShotList} {r : ShotsRequest} (h : Inv s)
    (hsafe : Along step Safe s round) (heq : s.client.loadMoreShots = (client, some r))
    (hsends : ShotList.Sends s.client client r) :
    ∃ response, Staged s.store s.bootNonce r.before (.answered response) ∧
      (r.ifNoneMatch = some s.etag ∧ response = .notModified ∨
        ∃ rows hasMore total, response = .page s.etag rows hasMore total) ∧
      exec step s round =
        { s with client := (client.applyMore r response).finishMore, more := none } := by
  have hstep : s.step .loadMoreShots = { s with client := client, more := some r } := by
    unfold ShotPaging.step
    dsimp only
    rw [heq]
    rfl
  have hrevision : (s.step .loadMoreShots).store.revision < 2 ^ 32 := hsafe.2.1
  obtain ⟨response, hstage, hanswer⟩ : ∃ response,
      (handleShotList s.store s.bootNonce r.before (some SHOTS_LIMIT)
        r.ifNoneMatch)^[SHOTS_LIMIT + 3] r.stage = .answered response ∧
      (r.ifNoneMatch = some s.etag ∧ response = .notModified ∨
        ∃ rows hasMore total, response = .page s.etag rows hasMore total) := by
    rw [hsends.stage]
    rcases handle_arrived s.store s.bootNonce r.before r.ifNoneMatch with
      ⟨hcurrent, hanswer⟩ | ⟨rows, hasMore, total, hanswer⟩
    · exact ⟨_, hanswer, Or.inl ⟨hcurrent, rfl⟩⟩
    · exact ⟨_, hanswer, Or.inr ⟨rows, hasMore, total, rfl⟩⟩
  have hserved : exec step s (.loadMoreShots :: List.replicate (SHOTS_LIMIT + 3) .serveMore) =
      { s with client := client, more := some { r with stage := .answered response } } := by
    rw [exec_cons, hstep]
    exact serveMore_some hstage
  have hinv : Inv { s with client := client, more := some { r with stage := .answered response } } := by
    rw [← hserved]
    exact inv_run h ⟨hsafe.1, along_serveMore hrevision _⟩
  have hsplit : round =
      (.loadMoreShots :: List.replicate (SHOTS_LIMIT + 3) .serveMore) ++ [.deliverMore] := by
    unfold round
    rw [List.cons_append]
  refine ⟨response, (hinv.loading _ rfl).staged, hanswer, ?_⟩
  rw [hsplit, exec_append, hserved, exec_cons, exec_nil, deliverMore_eq rfl rfl]
  cases response <;> rfl

/-- **Step lemma.** One round. -/
theorem roundDone {s : ShotPaging} (h : Inv s) (hidle : s.more = none)
    (hsafe : Along step Safe s round) : RoundDone s (exec step s round) := by
  have hinv := inv_run h hsafe
  rcases s.client.loadMoreShots_sends with ⟨heq, hwhy⟩ | ⟨client, r, heq, hsends⟩
  · rw [round_of_unsent heq hidle]
    refine ⟨h, hidle, .refl s, Or.inl ?_⟩
    rcases hwhy with hcursor | hno | hloading
    · exact Or.inr fun last hlast => absurd (hcursor.symm.trans hlast) nofun
    · exact Or.inl hno
    · rw [h.flight, hidle] at hloading
      cases hloading
  · have hsafeSend := hsafe.1 r (congrArg Prod.snd heq)
    have holder := ((h.sends hsends hsafeSend).loading r rfl).older
    have hclient := hsends.client
    have hcursor : client.cursor = s.client.cursor := by rw [hclient]; rfl
    have hids : client.ids = s.client.ids := by rw [hclient]; rfl
    have htoken : r.token = client.shotsRefreshSeq := by rw [hclient]; exact hsends.token
    obtain ⟨response, hstaged, hanswer, hround⟩ := round_of_sends h hsafe heq hsends
    rw [hround] at hinv ⊢
    rcases hanswer with ⟨hcurrent, rfl⟩ | ⟨rows, hasMore, total, rfl⟩
    · refine ⟨hinv, rfl, ⟨rfl, [], ?_, fun _ => rfl⟩, Or.inl (Or.inr fun last hlast id hid => ?_)⟩
      · exact hids.trans (List.append_nil _).symm
      · obtain rfl : r.before = last :=
          Option.some.inj ((hsends.cursor.symm.trans hcursor.symm).trans hlast)
        exact hsafeSend hcurrent id hid
    · have happlied : (client.applyMore r (.page s.etag rows hasMore total)).finishMore.ids =
          s.client.ids ++ rows.map ShotMeta.id := by
        unfold ShotList.applyMore
        dsimp only
        rw [if_neg fun hne => hne htoken, ← hids]
        exact List.map_append
      refine ⟨hinv, rfl, ⟨rfl, _, happlied, fun hempty => ?_⟩, ?_⟩
      · have hsent := hsends.cursor
        rw [ShotList.cursor_eq, hempty] at hsent
        cases hsent
      · refine progress_of_page hsends.cursor hsends.hasMore holder hstaged
          (toNat_etag (s := s) hsafe.2.1) rfl happlied ?_
        unfold ShotList.applyMore
        dsimp only
        rw [if_neg fun hne => hne htoken]
        rfl

/-- **Run lemma.** Enough rounds leave nothing to load. -/
theorem finished_rounds {s : ShotPaging} {n : ℕ} (h : Inv s) (hidle : s.more = none)
    (hsafe : Along step Safe s (rounds n)) (hrest : Finished s ∨ rest s ≤ n) :
    Inv (exec step s (rounds n)) ∧ Finished (exec step s (rounds n)) ∧
      Older s (exec step s (rounds n)) := by
  induction n generalizing s with
  | zero =>
    refine ⟨h, hrest.elim id fun hzero => Or.inr fun last hlast id hid => ?_, .refl s⟩
    have hcursor : s.client.cursor = some last := hlast
    unfold rest at hzero
    rw [hcursor] at hzero
    dsimp only at hzero
    by_contra hlt
    have hmem : id ∈ s.store.validIds.filter fun id => id < last :=
      List.mem_filter.2 ⟨hid, decide_eq_true (not_le.1 hlt)⟩
    have := List.length_pos_of_mem hmem
    omega
  | succ n ih =>
    have hsplit : rounds (n + 1) = round ++ rounds n := by
      unfold rounds
      rw [List.replicate_succ, List.flatten_cons]
    rw [hsplit] at hsafe ⊢
    rw [exec_append]
    obtain ⟨hfirst, hothers⟩ := along_append.1 hsafe
    have hdone := roundDone h hidle hfirst
    have hless : Finished (exec step s round) ∨ rest (exec step s round) ≤ n := by
      rcases hdone.progress with hfinished | ⟨hno, hlt⟩
      · exact Or.inl hfinished
      · have := hrest.resolve_left hno
        exact Or.inr (by omega)
    obtain ⟨hinv, hfinished, holder⟩ := ih hdone.inv hdone.idle hothers hless
    exact ⟨hinv, hfinished, hdone.older.trans holder⟩

/-- From where a load-more is not safe, the handler's next call refuses a page that is not
listed. -/
theorem unsound_of_stale {s : ShotPaging} (h : Inv s) (hstale : ¬ Safe s .loadMoreShots) :
    ¬ Sound (s.step .loadMoreShots) .serveMore := by
  intro hsound
  refine hstale fun r hr hcurrent id hid => not_lt.1 fun hlt => ?_
  rcases s.client.loadMoreShots_sends with ⟨heq, -⟩ | ⟨client, r', heq, hsends⟩
  · rw [heq] at hr
    cases hr
  · rw [heq] at hr
    obtain rfl : r' = r := Option.some.inj hr
    have hstep : s.step .loadMoreShots = { s with client := client, more := some r' } := by
      unfold ShotPaging.step
      dsimp only
      rw [heq]
      rfl
    rw [hstep] at hsound
    have hanswer : (serve { s with client := client, more := some r' } r').stage =
        .answered .notModified := by
      unfold serve handleShotList
      dsimp only
      rw [hsends.stage]
      exact if_pos hcurrent
    obtain ⟨bound, hcut, -⟩ := h.listed.cut
    have hlast : s.client.ids.getLast? = some r'.before := s.client.cursor_eq.symm.trans hsends.cursor
    have hbefore := (hcut.inside r'.before (List.mem_of_getLast? hlast)).1
    have hids : client.ids = s.client.ids := by rw [hsends.client]; rfl
    have hpage := hsound.contained rfl r' rfl hsends.stage hanswer
    dsimp only at hpage
    rw [page_eq, hids] at hpage
    have hin : id ∈ s.store.newestBelow r'.before := mem_newestBelow.2 ⟨hid, Or.inr hlt⟩
    obtain ⟨first, older, holder⟩ := List.exists_cons_of_ne_nil (List.ne_nil_of_mem hin)
    have hfirst := hpage first (by rw [holder]; exact List.mem_cons_self)
    have hlt' := (mem_newestBelow.1 (holder ▸ List.mem_cons_self)).2.resolve_left hbefore
    exact absurd (hcut.last_le hlast hfirst) (not_le.2 hlt')

/-! ## Result -/

/-- **Paging while shots are saved.**  Over any run of saves, requests and answers in which no
load-more names the present revision for a page that the list has dropped, the list decreases
without gaps and no 304 stands for a page that is not listed.  Enough rounds then reach every record
up to the newest listed one, and all records exactly if the newest is listed, as it is behind a
refresh with no save after it.  Where a load-more leaves the condition, the next call of the handler
refuses a page that is not listed. -/
theorem lists_of_safe (store : ShotStore) (nonce : U32) (ops : List Op)
    (h : Along step Safe { store := store, bootNonce := nonce } ops) :
    let s := exec step { store := store, bootNonce := nonce } ops
    Along step Sound { store := store, bootNonce := nonce } ops ∧
      (∀ n, s.more = none → s.store.validIds.length ≤ n → Along step Safe s (rounds n) →
        CompleteBelow (exec step s (rounds n)) ∧
          (Complete (exec step s (rounds n)) ↔ NewestListed s)) ∧
      (s.store.revision < 2 ^ 32 → s.client.shotsEtags.lookup 0 = some s.etag → NewestListed s) ∧
      (¬ Safe s .loadMoreShots →
        ¬ Along step Sound { store := store, bootNonce := nonce }
            (ops ++ [.loadMoreShots, .serveMore])) := by
  intro s
  have hinv : Inv s := inv_run (inv_start store nonce) h
  refine ⟨h.imp Inv (fun s op hs hop => ⟨inv_step hs hop, hs.sound hop⟩) (inv_start store nonce),
    fun n hidle hn hrounds => ?_, newestListed_of_current hinv, fun hstale hsound => ?_⟩
  · have hrest : rest s ≤ n := by
      unfold rest
      cases s.client.cursor with
      | none => exact Nat.zero_le n
      | some last => exact (List.length_filter_le _ _).trans hn
    obtain ⟨hinv', hfinished, holder⟩ := finished_rounds hinv hidle hrounds (Or.inr hrest)
    exact ⟨completeBelow_of_finished hinv' hfinished, complete_iff hinv' hfinished holder⟩
  · exact unsound_of_stale hinv hstale (along_append.1 hsound).2.2.1

/-- A history of 21 records. -/
def shortHistory : ShotFiles where
  entries := (List.range 21).map fun k =>
    ⟨fileName (k + 1), .file (compactBytes { version := kCurrentExtractionVersion })⟩
  nodupKeys := ShotLog.nodupKeys_records (by decide) _

def shortStore : ShotStore := { dir := some shortHistory, nvs := { committed := some 21 } }

/-- A refresh from the request to its answer. -/
def listing : List Op :=
  .maybeRefreshShots {} true :: (List.replicate (SHOTS_LIMIT + 3) .serveRefresh ++ [.deliverRefresh {}])

set_option maxRecDepth 4000 in
/-- One refresh and one load-more list all 21 records. -/
theorem lists_of_safe_shortStore :
    Complete (exec step { store := shortStore, bootNonce := 7 } (listing ++ rounds 21)) := by
  have hsafe : Along step Safe { store := shortStore, bootNonce := 7 } listing := by decide +kernel
  have hrounds : Along step Safe (exec step { store := shortStore, bootNonce := 7 } listing)
      (rounds 21) := by decide +kernel
  obtain ⟨-, hreached, hnewest, -⟩ := lists_of_safe shortStore 7 listing hsafe
  rw [exec_append]
  exact (hreached 21 (by decide +kernel) (by decide +kernel) hrounds).2.2
    (hnewest (by decide +kernel) (by decide +kernel))

/-- A load-more while 20 shots are saved leaves the validator of a page that the next refresh drops;
after one more load-more the list ends at that page again, and the validator is current. -/
def staleValidator : List Op :=
  listing ++ List.replicate 20 (.save { version := kCurrentExtractionVersion }) ++ round ++ listing ++
    round ++ [.loadMoreShots]

set_option maxRecDepth 4000 in
theorem not_lists_staleValidator : ¬ ∀ (store : ShotStore) (nonce : U32) (ops : List Op),
    Along step Sound { store := store, bootNonce := nonce } ops := by
  intro hall
  have hsound := (along_append.1 (hall shortStore 7 (staleValidator ++ [.serveMore]))).2.1
  generalize hs : exec step { store := shortStore, bootNonce := 7 } staleValidator = s at hsound
  have hrun : (s.more.map fun r => (decide (r.stage = .arrived), (s.serve r).stage, r.before)) =
      some (true, .answered .notModified, 2) ∧ 1 ∈ (s.store.page 2 SHOTS_LIMIT).ids ∧
        1 ∉ s.client.ids := by
    rw [← hs]
    decide +kernel
  obtain ⟨hmore, hpage, hids⟩ := hrun
  obtain ⟨r, hr, heq⟩ := Option.map_eq_some_iff.1 hmore
  have harrived := of_decide_eq_true (congrArg Prod.fst heq)
  have hanswer : (s.serve r).stage = .answered .notModified := congrArg (fun x => x.2.1) heq
  have hbefore : r.before = 2 := congrArg (fun x => x.2.2) heq
  refine hids (hsound.contained rfl r hr harrived hanswer 1 ?_)
  rw [hbefore]
  exact hpage

end ShotPaging

end Pumpbug
