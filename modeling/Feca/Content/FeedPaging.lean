import Feca.Collections.GrowingPool
import Feca.Content.Feed

/-! # Following the feed

A client follows `nextCursor` from the first page. Nearby and now cut their
pages from one ranked list. Network and city rank a pool that grows with the
offset and is capped: the total counts every matching visit all the same, and a
ranking of more visits may order the first pages anew.
-/

namespace Feca.Content

open Collections Concurrency Concurrency.Prog Relational Social Paging

/-! ## The answer of a listing -/

variable {env : ContentEnv} {cities : CityDirectory} {userId : Id} {s : ContentDb}

namespace ContentDb

variable (s : ContentDb)

def tasteOf (userId : Id) : List String :=
  ((s.findUserRow userId).map (·.tastePreferenceIds)).getD []

def targetCity (userId : Id) (input : FeedInput) : Option Id :=
  (input.cityIdOverride.bind orNull).or
    ((s.findUserRow userId).bind fun user => user.cityId.bind orNull)

def locationOf (userId : Id) (input : FeedInput) : Option Location :=
  (input.lat.bind fun lat => input.lng.map fun lng => ⟨lat, lng⟩).or
    ((s.findUserRow userId).bind fun user =>
      user.lat.bind fun lat => user.lng.map fun lng => ⟨lat, lng⟩)

def visibleRecentVisits (userId : Id) : List VisitWithRelations :=
  ((s.findVisits fun _ => true).take 220).filter (visibleVisit userId (s.followedIds userId))

/-- The visits a mode counts in its total, most recent first. -/
def feedVisits (env : ContentEnv) (userId : Id) (input : FeedInput) : List VisitWithRelations :=
  match input.mode with
  | .network => s.findVisits (networkWhere (s.followedIds userId))
  | .city =>
      match s.targetCity userId input with
      | none => []
      | some cityId => s.findVisits (cityWhere userId cityId)
  | .nearby =>
      match s.locationOf userId input with
      | none => []
      | some location => (s.visibleRecentVisits userId).filter fun visit =>
          (distanceTo env location visit.place).any (· ≤ 3500)
  | .now => (s.visibleRecentVisits userId).filter fun visit =>
      (s.locationOf userId input).all fun location =>
        (distanceTo env location visit.place).any (· ≤ 6000)

/-- The ranking a request cuts its page from. -/
def feedRanking (env : ContentEnv) (userId : Id) (input : FeedInput) : List VisitWithRelations :=
  match input.mode with
  | .network => (rankNetwork env userId (s.tasteOf userId)
      ((s.feedVisits env userId input).take (networkPoolTake input))).map (·.item)
  | .city => (rankCity env userId input.limit
      ((s.feedVisits env userId input).take (cityPoolTake input))).map (·.item)
  | .nearby =>
      match s.locationOf userId input with
      | none => []
      | some location => (rankNearby env userId input.limit location (s.tasteOf userId)
          (s.visibleRecentVisits userId)).map (·.item)
  | .now => (rankNow env userId input.limit (s.locationOf userId input) (s.tasteOf userId)
      (s.visibleRecentVisits userId)).map (·.item)

end ContentDb

theorem run_viewerTaste : (viewerTaste userId).run s = ⟨s, [], .ok (s.tasteOf userId)⟩ := run_query _ s

theorem run_viewerLocation (input : FeedInput) :
    (viewerLocation userId input).run s = ⟨s, [], .ok (s.locationOf userId input)⟩ := by
  unfold viewerLocation ContentDb.locationOf
  cases input.lat with
  | none => exact run_query _ s
  | some lat =>
      cases input.lng with
      | none => exact run_query _ s
      | some lng => rfl

theorem run_targetCityId (input : FeedInput) :
    (targetCityId userId input).run s = ⟨s, [], .ok (s.targetCity userId input)⟩ := by
  unfold targetCityId ContentDb.targetCity
  cases input.cityIdOverride.bind orNull with
  | none => exact run_query _ s
  | some cityId => rfl

theorem run_listVisibleRecentVisits :
    (listVisibleRecentVisits userId 220).run s = ⟨s, [], .ok (s.visibleRecentVisits userId)⟩ := by
  simp [listVisibleRecentVisits, run_bind, Answer.andThen, ContentDb.visibleRecentVisits]

theorem sliceRanked_eq (ranked : List (ScoredCandidate VisitWithRelations)) (input : FeedInput) :
    sliceRanked ranked input = ((ranked.map (·.item)).drop input.offset).take input.limit := by
  rw [sliceRanked, List.map_take, List.map_drop]

/-- A page of the ranking, with the number of visits that count. -/
def ContentDb.feedListing (s : ContentDb) (env : ContentEnv) (userId : Id) (input : FeedInput) :
    FeedListing :=
  ⟨(s.feedVisits env userId input).length,
    ((s.feedRanking env userId input).drop input.offset).take input.limit⟩

theorem run_listNetworkFeed {input : FeedInput} (hmode : input.mode = .network) :
    (listNetworkFeed env userId input).run s =
      ⟨s, [], .ok (s.feedListing env userId input)⟩ := by
  unfold listNetworkFeed
  rw [run_bind_ok (by rw [run_query]), run_query]
  by_cases hnobody : (s.followedIds userId).length = 0
  · have hids : s.followedIds userId = [] := List.eq_nil_of_length_eq_zero hnobody
    have hnobodys : networkWhere [] = fun _ => false := by
      funext visit
      simp [networkWhere]
    have hnone : s.feedVisits env userId input = [] := by
      simp [ContentDb.feedVisits, hmode, hids, ContentDb.findVisits, hnobodys]
    rw [if_pos hnobody]
    simp [ContentDb.feedListing, ContentDb.feedRanking, hmode, hnone, FeedListing.empty,
      rankNetwork, rankCandidatesWithRotation, rankCandidatesByHash]
  · rw [if_neg hnobody]
    simp [run_bind, Answer.andThen, run_viewerTaste, ContentDb.feedListing,
      ContentDb.feedRanking, ContentDb.feedVisits, hmode, sliceRanked_eq,
      ContentDb.length_findVisits]

theorem run_listCityFeed {input : FeedInput} (hmode : input.mode = .city) :
    (listCityFeed env userId input).run s = ⟨s, [], .ok (s.feedListing env userId input)⟩ := by
  unfold listCityFeed
  rw [run_bind_ok (by rw [run_targetCityId]), run_targetCityId]
  cases hcity : s.targetCity userId input with
  | none =>
      simp [ContentDb.feedListing, ContentDb.feedRanking, ContentDb.feedVisits, hmode, hcity,
        FeedListing.empty, rankCity, rankCandidatesWithRotation, rankCandidatesByHash]
  | some cityId =>
      simp [run_bind, Answer.andThen, ContentDb.feedListing, ContentDb.feedRanking,
        ContentDb.feedVisits, hmode, hcity, sliceRanked_eq, ContentDb.length_findVisits]

theorem run_listNearbyFeed {input : FeedInput} (hmode : input.mode = .nearby) :
    (listNearbyFeed env userId input).run s = ⟨s, [], .ok (s.feedListing env userId input)⟩ := by
  unfold listNearbyFeed
  rw [run_bind_ok (by rw [run_viewerLocation]), run_viewerLocation]
  cases hlocation : s.locationOf userId input with
  | none =>
      simp [ContentDb.feedListing, ContentDb.feedRanking, ContentDb.feedVisits, hmode, hlocation,
        FeedListing.empty]
  | some location =>
      simp [run_bind, Answer.andThen, run_viewerTaste, run_listVisibleRecentVisits,
        ContentDb.feedListing, ContentDb.feedRanking, ContentDb.feedVisits, hmode, hlocation,
        sliceRanked_eq, rankNearby, length_rankCandidatesWithRotation]

theorem run_listNowFeed {input : FeedInput} (hmode : input.mode = .now) :
    (listNowFeed env userId input).run s = ⟨s, [], .ok (s.feedListing env userId input)⟩ := by
  simp [listNowFeed, run_bind, Answer.andThen, run_viewerLocation, run_viewerTaste,
    run_listVisibleRecentVisits, ContentDb.feedListing, ContentDb.feedRanking,
    ContentDb.feedVisits, hmode, sliceRanked_eq, rankNow, length_rankCandidatesWithRotation]

/-- Every mode answers a page of its ranking, read once the viewer has settings. -/
theorem run_listFeed (h : s.Settles (defaultSettings env 0 userId)) (input : FeedInput) :
    (listFeed env userId input).run s =
      ⟨s.withSettings (defaultSettings env 0 userId), [],
        .ok ((s.withSettings (defaultSettings env 0 userId)).feedListing env userId input)⟩ := by
  unfold listFeed
  rw [run_bind_ok (by rw [run_ensureUserSettings h]), run_ensureUserSettings h]
  dsimp only
  cases hmode : input.mode with
  | network => rw [run_listNetworkFeed hmode]; rfl
  | nearby => rw [run_listNearbyFeed hmode]; rfl
  | now => rw [run_listNowFeed hmode]; rfl
  | city => rw [run_listCityFeed hmode]; rfl

/-! ## The client -/

def FeedPage.page (answer : FeedPage) : Page String FeedItem := ⟨answer.items, answer.nextCursor⟩

/-- The answer to one request of the client, which starts without a cursor. -/
def feedAnswer (env : ContentEnv) (cities : CityDirectory) (userId : Id) (query : FeedQuery)
    (s : ContentDb) (cursor : Option String) : Except Failure FeedPage :=
  ((getFeed env cities userId { query with offset := 0, cursor }).run s).result

/-- The pages of a client that follows `nextCursor`, `fuel` requests at most. -/
def feedPages (env : ContentEnv) (cities : CityDirectory) (userId : Id) (query : FeedQuery)
    (s : ContentDb) (fuel : Nat) : List (Page String FeedItem) :=
  walk (fun _ cursor => (feedAnswer env cities userId query s cursor).map FeedPage.page) fuel 0 none

/-- What `number` is relied on for: it reads back the offsets a page ends with. -/
def ReadsOffsets (number : String → Option Rat) : Prop :=
  ∀ n : Nat, number (toString n) = some (n : Rat)

/-- The input of the repository for one offset. -/
def feedInput (cities : CityDirectory) (query : FeedQuery) (offset : Nat) : FeedInput where
  limit := query.limit
  offset := offset
  mode := query.mode
  lat := query.lat
  lng := query.lng
  cityIdOverride := cityIdOverride cities query

theorem resolveOffset_cursor (hnumber : ReadsOffsets env.number) (query : FeedQuery)
    (cursor : Option Nat) :
    resolveOffset env { query with offset := 0, cursor := cursor.map toString } =
      cursor.getD 0 := by
  cases cursor with
  | none => rfl
  | some n =>
      have htext : orNull n.repr = some n.repr := if_neg Nat.repr_ne_empty
      have hread : env.number n.repr = some (n : Rat) := hnumber n
      have hnonneg : ¬ (n : Rat) < 0 := not_lt.mpr (Nat.cast_nonneg n)
      have hfloor : ((n : Rat).floor).toNat = n := by
        rw [← Int.cast_natCast (R := Rat), Rat.floor_intCast, Int.toNat_natCast]
      simp [resolveOffset, htext, hread, hnonneg, hfloor]

namespace ContentDb

/-- The visits the total of a walk counts. -/
def countedVisits (s : ContentDb) (env : ContentEnv) (cities : CityDirectory) (userId : Id)
    (query : FeedQuery) : List VisitWithRelations :=
  (s.withSettings (defaultSettings env 0 userId)).feedVisits env userId (feedInput cities query 0)

/-- The ranking behind the page at an offset. -/
def rankingAt (s : ContentDb) (env : ContentEnv) (cities : CityDirectory) (userId : Id)
    (query : FeedQuery) (offset : Nat) : List VisitWithRelations :=
  (s.withSettings (defaultSettings env 0 userId)).feedRanking env userId
    (feedInput cities query offset)

end ContentDb

/-- What is counted does not depend on the offset. -/
theorem feedVisits_offset (env : ContentEnv) (cities : CityDirectory) (userId : Id) (s : ContentDb)
    (query : FeedQuery) (offset : Nat) :
    s.feedVisits env userId (feedInput cities query offset) =
      s.feedVisits env userId (feedInput cities query 0) := by
  unfold ContentDb.feedVisits
  cases query.mode <;> rfl

/-- One request answers the page of the ranking at its offset. -/
theorem feedAnswer_eq (cities : CityDirectory) (hviewer : KnownViewer env userId s)
    (hnumber : ReadsOffsets env.number) (query : FeedQuery) (cursor : Option Nat) :
    ∃ answer, feedAnswer env cities userId query s (cursor.map toString) = .ok answer ∧
      answer.total = (s.countedVisits env cities userId query).length ∧
      answer.page = (offsetPage (s.countedVisits env cities userId query).length query.limit
        (s.rankingAt env cities userId query (cursor.getD 0)) (cursor.getD 0)).map toString
          (feedItem env query (s.tasteOf userId)) := by
  have hoffset := resolveOffset_cursor hnumber query cursor
  have hlisting := run_listFeed hviewer.settles (feedInput cities query (cursor.getD 0))
  have hcount := feedVisits_offset env cities userId
    (s.withSettings (defaultSettings env 0 userId)) query (cursor.getD 0)
  unfold feedAnswer getFeed
  rw [hoffset, run_bind_ok (by rw [run_viewerTaste]), run_viewerTaste]
  dsimp only
  rw [run_bind_ok (by exact congrArg Answer.result hlisting)]
  refine ⟨_, rfl, congrArg List.length hcount, ?_⟩
  rw [offsetPage_map, ContentDb.countedVisits, ← hcount]
  rfl

/-- The pages are those of a walk by offset, as the client sees them. -/
theorem feedPages_eq (hviewer : KnownViewer env userId s) (hnumber : ReadsOffsets env.number)
    (query : FeedQuery) (fuel : Nat) :
    feedPages env cities userId query s fuel =
      (walk (serveOffsets (φ := Failure) (s.countedVisits env cities userId query).length
        query.limit (s.rankingAt env cities userId query)) fuel 0 none).map
          (Page.map toString (feedItem env query (s.tasteOf userId))) := by
  have hserve : ∀ (i : Nat) (cursor : Option Nat),
      (feedAnswer env cities userId query s (cursor.map toString)).map FeedPage.page =
        (serveOffsets (s.countedVisits env cities userId query).length query.limit
          (s.rankingAt env cities userId query) i cursor).map
            (Page.map toString (feedItem env query (s.tasteOf userId))) := by
    intro i cursor
    obtain ⟨answer, hanswer, -, hpage⟩ := feedAnswer_eq cities hviewer hnumber query cursor
    rw [hanswer, serveOffsets]
    exact congrArg Except.ok hpage
  exact walk_map hserve fuel 0 none

/-! ## Rankings and pools -/

/-- A ranking shows the visits of its pool. -/
theorem ranked_perm (score : VisitWithRelations → Rat) (options : DynamicRankingOptions)
    (pool : List VisitWithRelations) :
    ((rankCandidatesWithRotation env (pool.map (candidate score)) options).map (·.item)).Perm
      pool := by
  have hperm := rankCandidatesWithRotation_perm env options
    (pool.map (candidate score))
  have hitems : (pool.map (candidate score)).map (·.item) = pool := by
    rw [List.map_map]
    exact List.map_id pool
  rwa [hitems] at hperm

/-- The ranking of some of the visits is part of the ranking of all. -/
theorem rankNetwork_sublist (horder : Collates env.localeCompare) (taste : List String)
    {some all : List VisitWithRelations} (hsub : some.Sublist all) :
    ((rankNetwork env userId taste some).map (·.item)).Sublist
      ((rankNetwork env userId taste all).map (·.item)) := by
  refine rankCandidatesWithRotation_sublist horder (hsub.map _) ?_ ?_ rfl
  · simp
  · simp

theorem ids_feedVisits (s : ContentDb) (input : FeedInput) :
    ((s.feedVisits env userId input).map (·.id)).Nodup := by
  have hrecent : ((s.visibleRecentVisits userId).map (·.id)).Nodup := by
    have hsub : (s.visibleRecentVisits userId).Sublist (s.findVisits fun _ => true) :=
      List.filter_sublist.trans (List.take_sublist _ _)
    exact (ContentDb.nodup_findVisits _).sublist (hsub.map _)
  unfold ContentDb.feedVisits
  split
  · exact ContentDb.nodup_findVisits _
  · split
    · exact List.nodup_nil
    · exact ContentDb.nodup_findVisits _
  · split
    · exact List.nodup_nil
    · exact hrecent.sublist (List.filter_sublist.map _)
  · exact hrecent.sublist (List.filter_sublist.map _)

/-- A ranking shows some most recent of the visits that count. -/
theorem feedRanking_perm (env : ContentEnv) (userId : Id) (s : ContentDb) (input : FeedInput) :
    ∃ n, (s.feedRanking env userId input).Perm ((s.feedVisits env userId input).take n) := by
  unfold ContentDb.feedRanking
  cases hmode : input.mode with
  | network => exact ⟨_, ranked_perm _ _ _⟩
  | city => exact ⟨_, ranked_perm _ _ _⟩
  | nearby =>
      dsimp only
      cases hlocation : s.locationOf userId input with
      | none => exact ⟨0, List.Perm.refl _⟩
      | some location =>
          refine ⟨(s.feedVisits env userId input).length, ?_⟩
          rw [List.take_length, ContentDb.feedVisits, hmode]
          dsimp only
          rw [hlocation]
          exact ranked_perm _ _ _
  | now =>
      refine ⟨(s.feedVisits env userId input).length, ?_⟩
      rw [List.take_length, ContentDb.feedVisits, hmode]
      exact ranked_perm _ _ _

/-! ## When the pages are complete -/

/-- The first page reports as many visits as the mode counts; following
`nextCursor` comes to a page without one, and together the pages show each of
these visits exactly once. -/
def PagesAreComplete (env : ContentEnv) (cities : CityDirectory) (userId : Id) (query : FeedQuery)
    (s : ContentDb) : Prop :=
  (∃ first, feedAnswer env cities userId query s none = .ok first ∧
    first.total = (s.countedVisits env cities userId query).length) ∧
  ∃ fuel, Ended (feedPages env cities userId query s fuel) ∧
    ((allItems (feedPages env cities userId query s fuel)).map (·.id)).Perm
      ((s.countedVisits env cities userId query).map (·.id))

section complete

variable (hviewer : KnownViewer env userId s) (hnumber : ReadsOffsets env.number) {query : FeedQuery}

include hviewer hnumber

/-- While the lists fill their pages, the pages are complete if the slots are. -/
theorem complete_iff_perm (hlimit : 0 < query.limit)
    (hfills : Fills (s.countedVisits env cities userId query).length query.limit
      (s.rankingAt env cities userId query)) :
    PagesAreComplete env cities userId query s ↔
      (slots (s.countedVisits env cities userId query).length query.limit
        (s.rankingAt env cities userId query)).Perm (s.countedVisits env cities userId query) := by
  have hids : ∀ visits : List VisitWithRelations,
      (visits.map (feedItem env query (s.tasteOf userId))).map (·.id) = visits.map (·.id) := by
    intro visits
    rw [List.map_map]
    rfl
  constructor
  · rintro ⟨-, fuel, hended, hperm⟩
    rw [feedPages_eq hviewer hnumber] at hended hperm
    rw [allItems_map, allItems_of_ended hlimit hfills (ended_map.mp hended), hids] at hperm
    refine perm_of_map_perm (ids_feedVisits _ _) ?_ hperm
    intro visit hvisit
    obtain ⟨k, -, hslot⟩ := List.mem_flatMap.mp hvisit
    obtain ⟨n, hranking⟩ := feedRanking_perm env userId
      (s.withSettings (defaultSettings env 0 userId)) (feedInput cities query (k * query.limit))
    have hmem := hranking.subset (List.mem_of_mem_drop (List.mem_of_mem_take hslot))
    rw [feedVisits_offset] at hmem
    exact List.mem_of_mem_take hmem
  · intro hperm
    obtain ⟨first, hfirst, htotal, -⟩ := feedAnswer_eq cities hviewer hnumber query none
    obtain ⟨hended, hall⟩ := walk_offsets (φ := Failure) hlimit hfills (Nat.lt_succ_self _)
    refine ⟨⟨first, hfirst, htotal⟩,
      (lastPage (s.countedVisits env cities userId query).length query.limit).succ, ?_, ?_⟩
    · rw [feedPages_eq hviewer hnumber]
      exact ended_map.mpr hended
    · rw [feedPages_eq hviewer hnumber, allItems_map, hall, hids]
      exact hperm.map _

/-- Where no list holds as many visits as are counted, the client never stops. -/
theorem not_complete_of_short {cap : Nat}
    (hcap : ∀ offset, (s.rankingAt env cities userId query offset).length ≤ cap)
    (htotal : cap < (s.countedVisits env cities userId query).length) :
    ¬ PagesAreComplete env cities userId query s := by
  rintro ⟨-, fuel, hended, -⟩
  rw [feedPages_eq hviewer hnumber] at hended
  have hstart : (none : Option Nat).getD 0 ≤ cap := Nat.zero_le cap
  exact not_ended_of_short hcap htotal hstart (ended_map.mp hended)

end complete

/-! ## The condition -/

/-- The network ranking of visits that count. -/
def ContentDb.networkRanking (s : ContentDb) (env : ContentEnv) (userId : Id)
    (visits : List VisitWithRelations) : List VisitWithRelations :=
  (rankNetwork env userId ((s.withSettings (defaultSettings env 0 userId)).tasteOf userId)
    visits).map (·.item)

/-- By base score, the order in which the city feed first sorts its pool. -/
def cityBefore (env : ContentEnv) (a b : VisitWithRelations) : Prop :=
  byBaseScore env (candidate cityFeedScore a) (candidate cityFeedScore b)

/-- By the jittered score, the order in which a window is sorted again. -/
def rotatedAhead {α : Type} (env : ContentEnv) (options : DynamicRankingOptions)
    (a b : RankedCandidate α) : Prop :=
  byScore env (rotated env (stableUnitInterval env) options a)
    (rotated env (stableUnitInterval env) options b)

def cityAhead (env : ContentEnv) (userId : Id) (a b : VisitWithRelations) : Prop :=
  rotatedAhead env (cityRotation env userId) (candidate cityFeedScore a)
    (candidate cityFeedScore b)

instance (env : ContentEnv) : DecidableRel (cityBefore env) := fun _ _ => by
  unfold cityBefore
  infer_instance

instance {α : Type} (env : ContentEnv) (options : DynamicRankingOptions) :
    DecidableRel (rotatedAhead (α := α) env options) := fun _ _ => by
  unfold rotatedAhead
  infer_instance

instance (env : ContentEnv) (userId : Id) : DecidableRel (cityAhead env userId) := fun _ _ => by
  unfold cityAhead
  infer_instance

/-- The visits of a pool that are sorted again. -/
def cityWindow (env : ContentEnv) (limit : Nat) (pool : List VisitWithRelations) :
    List VisitWithRelations :=
  (pool.insertionSort (cityBefore env)).take (max (limit * 8) 48)

/-- A pool is large enough for the pages up to `reach` visits: it has the visits that
are ranked so far among all, and where the window of the pool reaches to visits that are
not in the window of all, the hour leaves these behind. -/
structure CityPoolFits (env : ContentEnv) (userId : Id) (limit reach : Nat)
    (visits pool : List VisitWithRelations) : Prop where
  recent : ∀ visit ∈ ((rankCity env userId limit visits).map (·.item)).take reach, visit ∈ pool
  behind : ∀ visit ∈ cityWindow env limit pool, visit ∉ cityWindow env limit visits →
    ∀ shown ∈ ((rankCity env userId limit visits).map (·.item)).take reach,
      cityAhead env userId shown visit

/-- The pages of every mode but two are cut from one list. The network feed ranks
at most 500 visits, and the best of all must be recent enough to be in the pool
of the page they belong to. The city feed ranks at most 600, and the pool of each
page must be large enough for it. -/
def FeedFits (env : ContentEnv) (cities : CityDirectory) (userId : Id) (query : FeedQuery)
    (s : ContentDb) : Prop :=
  match query.mode with
  | .nearby => True
  | .now => True
  | .network =>
      let visits := s.countedVisits env cities userId query
      visits.length ≤ 500 ∧ ∀ k, k * query.limit < visits.length →
        ∀ visit ∈ (s.networkRanking env userId visits).take ((k + 1) * query.limit),
          visit ∈ visits.take (networkPoolTake (feedInput cities query (k * query.limit)))
  | .city =>
      let visits := s.countedVisits env cities userId query
      visits.length ≤ 600 ∧ ∀ k, k * query.limit < visits.length →
        CityPoolFits env userId query.limit ((k + 1) * query.limit) visits
          (visits.take (cityPoolTake (feedInput cities query (k * query.limit))))

/-! ### One list -/

/-- Nearby and now rank the same visits whatever the offset. -/
theorem slots_of_fixed {total limit : Nat} {lists : Nat → List VisitWithRelations}
    {visits : List VisitWithRelations} (hlimit : 0 < limit) (htotal : total = visits.length)
    (hfixed : ∀ offset, lists offset = lists 0) (hperm : (lists 0).Perm visits)
    (hnodup : visits.Nodup) :
    Fills total limit lists ∧ (slots total limit lists).Perm visits := by
  have hlength : (lists 0).length = total := by rw [htotal, hperm.length_eq]
  have hfills : Fills (lists 0).length limit lists := by
    constructor
    · intro k
      rw [hfixed (k * limit)]
      exact Nat.min_le_left _ _
    · intro offset
      rw [hfixed]
  have hagrees : Agrees (lists 0) limit lists := by
    intro k _
    rw [hfixed]
  have hslots := (slots_perm_iff_agrees hlimit (hperm.nodup_iff.mpr hnodup) hfills
    (fun offset => by rw [hfixed]) (fun k _ => hfixed _)).mpr hagrees
  rw [hlength] at hfills hslots
  exact ⟨hfills, hslots.trans hperm⟩

theorem networkRanking_perm (s : ContentDb) (env : ContentEnv) (userId : Id)
    (visits : List VisitWithRelations) : (s.networkRanking env userId visits).Perm visits :=
  ranked_perm _ _ _

theorem rankingAt_network (env : ContentEnv) (cities : CityDirectory) (userId : Id)
    {query : FeedQuery} (hmode : query.mode = .network) (offset : Nat) :
    s.rankingAt env cities userId query offset =
      s.networkRanking env userId ((s.countedVisits env cities userId query).take
        (networkPoolTake (feedInput cities query offset))) := by
  rw [ContentDb.countedVisits, ← feedVisits_offset env cities userId _ query offset]
  simp only [ContentDb.rankingAt, ContentDb.feedRanking, ContentDb.networkRanking, feedInput, hmode]

theorem rankCity_perm (env : ContentEnv) (userId : Id) (limit : Nat)
    (visits : List VisitWithRelations) :
    ((rankCity env userId limit visits).map (·.item)).Perm visits :=
  ranked_perm _ _ _

/-- Ranking with rotation sorts the candidates, and a window of them once more. -/
theorem rankCandidatesWithRotation_eq {α : Type} (env : ContentEnv)
    (options : DynamicRankingOptions) {window : Nat} (hwindow : 0 < window)
    (candidates : List (RankedCandidate α)) :
    (rankCandidatesWithRotation env candidates
        { options with topWindow := some (min candidates.length window) }).map
          (·.toRankedCandidate) =
      sortTwice (byBaseScore env) (rotatedAhead env options) window candidates := by
  unfold rankCandidatesWithRotation rankCandidatesByHash
  by_cases hfew : candidates.length ≤ 1
  · rw [if_pos hfew, sortTwice_of_few hfew, List.map_map]
    exact List.map_id candidates
  · have hlength : (candidates.insertionSort (byBaseScore env)).length = candidates.length :=
      List.length_insertionSort _ _
    have htake : (candidates.insertionSort (byBaseScore env)).take (min candidates.length window) =
        (candidates.insertionSort (byBaseScore env)).take window := by
      rw [List.take_eq_take_iff]
      omega
    have hdrop : (candidates.insertionSort (byBaseScore env)).drop (min candidates.length window) =
        (candidates.insertionSort (byBaseScore env)).drop window := by
      rw [List.drop_eq_drop_iff]
      omega
    rw [if_neg hfew]
    dsimp only [Option.getD_some]
    rw [hlength, Nat.max_eq_right (by omega), ← Nat.min_assoc, Nat.min_self, htake, hdrop]
    exact map_sortWindow (fun _ => rfl) (fun _ => rfl) candidates

/-- The city ranking sorts the visits, and a window of them once more. -/
theorem rankCity_eq (env : ContentEnv) (userId : Id) (limit : Nat)
    (visits : List VisitWithRelations) : (rankCity env userId limit visits).map (·.item) =
      sortTwice (cityBefore env) (cityAhead env userId) (max (limit * 8) 48) visits := by
  have hbefore : ∀ a b, cityBefore env a b ↔
      byBaseScore env (candidate cityFeedScore a) (candidate cityFeedScore b) :=
    fun _ _ => Iff.rfl
  have hahead : ∀ a b, cityAhead env userId a b ↔ rotatedAhead env (cityRotation env userId)
      (candidate cityFeedScore a) (candidate cityFeedScore b) := fun _ _ => Iff.rfl
  have hranked := rankCandidatesWithRotation_eq env (cityRotation env userId)
    (Nat.lt_of_lt_of_le (by decide : 0 < 48) (Nat.le_max_right (limit * 8) 48))
    (visits.map (candidate cityFeedScore))
  rw [List.length_map, ← map_sortTwice (candidate cityFeedScore) hbefore hahead] at hranked
  have hitems := congrArg (List.map fun ranked => ranked.item) hranked
  rw [List.map_map, List.map_map] at hitems
  exact hitems.trans (List.map_id _)

/-- A pool is large enough exactly when its ranking begins like the one of all visits. -/
theorem cityPoolFits_iff (horder : Collates env.localeCompare) (limit reach : Nat)
    {visits pool : List VisitWithRelations} (hsub : pool.Sublist visits) (hnodup : visits.Nodup) :
    CityPoolFits env userId limit reach visits pool ↔
      ((rankCity env userId limit pool).map (·.item)).take reach =
        ((rankCity env userId limit visits).map (·.item)).take reach := by
  have htotal : ∀ a b, cityBefore env a b ∨ cityBefore env b a :=
    fun _ _ => byBaseScore_total horder _ _
  have htrans : ∀ a b c, cityBefore env a b → cityBefore env b c → cityBefore env a c :=
    fun _ _ _ => byBaseScore_trans horder _ _ _
  have htotal' : ∀ a b, cityAhead env userId a b ∨ cityAhead env userId b a :=
    fun _ _ => byScore_total horder _ _
  have htrans' : ∀ a b c, cityAhead env userId a b → cityAhead env userId b c →
      cityAhead env userId a c := fun _ _ _ => byScore_trans horder _ _ _
  rw [rankCity_eq, rankCity_eq,
    take_sortTwice_iff htotal htrans hsub hnodup htotal' htrans']
  rw [← rankCity_eq]
  exact ⟨fun h => ⟨h.recent, h.behind⟩, fun h => ⟨h.1, h.2⟩⟩

theorem rankingAt_city (env : ContentEnv) (cities : CityDirectory) (userId : Id)
    {query : FeedQuery} (hmode : query.mode = .city) (offset : Nat) :
    s.rankingAt env cities userId query offset =
      (rankCity env userId query.limit ((s.countedVisits env cities userId query).take
        (cityPoolTake (feedInput cities query offset)))).map (·.item) := by
  rw [ContentDb.countedVisits, ← feedVisits_offset env cities userId _ query offset]
  simp only [ContentDb.rankingAt, ContentDb.feedRanking, feedInput, hmode]

section modes

variable (hviewer : KnownViewer env userId s) (hnumber : ReadsOffsets env.number)
  {query : FeedQuery} (hlimit : 0 < query.limit)

include hviewer hnumber hlimit

theorem complete_of_fixed
    (hfixed : ∀ offset, s.rankingAt env cities userId query offset =
      s.rankingAt env cities userId query 0)
    (hperm : (s.rankingAt env cities userId query 0).Perm
      (s.countedVisits env cities userId query)) :
    PagesAreComplete env cities userId query s := by
  have hnodup : (s.countedVisits env cities userId query).Nodup := (ids_feedVisits _ _).of_map _
  obtain ⟨hfills, hslots⟩ := slots_of_fixed hlimit rfl hfixed hperm hnodup
  exact (complete_iff_perm hviewer hnumber hlimit hfills).mpr hslots

theorem complete_nearby (hmode : query.mode = .nearby) :
    PagesAreComplete env cities userId query s := by
  have hfixed : ∀ offset, s.rankingAt env cities userId query offset =
      s.rankingAt env cities userId query 0 := by
    intro offset
    simp only [ContentDb.rankingAt, ContentDb.feedRanking, feedInput, hmode]
    rfl
  refine complete_of_fixed hviewer hnumber hlimit hfixed ?_
  simp only [ContentDb.rankingAt, ContentDb.countedVisits, ContentDb.feedRanking,
    ContentDb.feedVisits, feedInput, hmode]
  split
  · exact List.Perm.refl _
  · exact ranked_perm _ _ _

theorem complete_now (hmode : query.mode = .now) : PagesAreComplete env cities userId query s := by
  have hfixed : ∀ offset, s.rankingAt env cities userId query offset =
      s.rankingAt env cities userId query 0 := by
    intro offset
    simp only [ContentDb.rankingAt, ContentDb.feedRanking, feedInput, hmode]
    rfl
  refine complete_of_fixed hviewer hnumber hlimit hfixed ?_
  simp only [ContentDb.rankingAt, ContentDb.countedVisits, ContentDb.feedRanking,
    ContentDb.feedVisits, feedInput, hmode]
  exact ranked_perm _ _ _

theorem complete_network_iff (horder : Collates env.localeCompare) (hmode : query.mode = .network) :
    PagesAreComplete env cities userId query s ↔ FeedFits env cities userId query s := by
  have hranking := rankingAt_network (s := s) env cities userId hmode
  have hlength : ∀ offset, (s.rankingAt env cities userId query offset).length =
      min (networkPoolTake (feedInput cities query offset))
        (s.countedVisits env cities userId query).length := by
    intro offset
    rw [hranking, (networkRanking_perm _ _ _ _).length_eq, List.length_take]
  have hnodup : (s.countedVisits env cities userId query).Nodup := (ids_feedVisits _ _).of_map _
  simp only [FeedFits, hmode]
  by_cases hcap : (s.countedVisits env cities userId query).length ≤ 500
  · have hreach : ∀ offset, min 500 (offset + query.limit) ≤
        networkPoolTake (feedInput cities query offset) := by
      intro offset
      dsimp only [networkPoolTake, feedInput]
      omega
    have hfills := fills_of_pools hcap hreach hlength
    rw [complete_iff_perm hviewer hnumber hlimit hfills]
    rw [slots_perm_iff_pools hlimit hnodup (networkRanking_perm s env userId)
      (fun _ _ hsub => rankNetwork_sublist horder _ hsub) hcap hreach hranking]
    simp [hcap]
  · have hshort : ∀ offset, (s.rankingAt env cities userId query offset).length ≤ 500 := by
      intro offset
      rw [hlength]
      dsimp only [networkPoolTake]
      omega
    have hnever := not_complete_of_short hviewer hnumber hshort (Nat.lt_of_not_le hcap)
    simp [hcap, hnever]

omit hviewer hnumber hlimit in
/-- In the city feed the condition says that every page agrees with one ranking. -/
theorem feedFits_city_iff (horder : Collates env.localeCompare) (hmode : query.mode = .city) :
    FeedFits env cities userId query s ↔
      (s.countedVisits env cities userId query).length ≤ 600 ∧
        Agrees ((rankCity env userId query.limit (s.countedVisits env cities userId query)).map
          (·.item)) query.limit (s.rankingAt env cities userId query) := by
  have hnodup : (s.countedVisits env cities userId query).Nodup := (ids_feedVisits _ _).of_map _
  simp only [FeedFits, hmode, Agrees, (rankCity_perm _ _ _ _).length_eq]
  refine and_congr_right fun _ => forall_congr' fun k => forall_congr' fun _ => ?_
  rw [cityPoolFits_iff horder _ _ (List.take_sublist _ _) hnodup,
    rankingAt_city env cities userId hmode]

omit hviewer hnumber hlimit in
theorem length_rankingAt_city (hmode : query.mode = .city) (offset : Nat) :
    (s.rankingAt env cities userId query offset).length =
      min (cityPoolTake (feedInput cities query offset))
        (s.countedVisits env cities userId query).length := by
  rw [rankingAt_city env cities userId hmode, (rankCity_perm _ _ _ _).length_eq, List.length_take]

theorem complete_city (horder : Collates env.localeCompare) (hmode : query.mode = .city)
    (h : FeedFits env cities userId query s) : PagesAreComplete env cities userId query s := by
  have hperm := rankCity_perm env userId query.limit (s.countedVisits env cities userId query)
  obtain ⟨hcap, hagrees⟩ := (feedFits_city_iff horder hmode).mp h
  have hreach : ∀ offset, min 600 (offset + query.limit) ≤
      cityPoolTake (feedInput cities query offset) := by
    intro offset
    dsimp only [cityPoolTake, feedInput]
    omega
  have hfills := fills_of_pools hcap hreach (length_rankingAt_city hmode)
  rw [complete_iff_perm hviewer hnumber hlimit hfills]
  rw [← hperm.length_eq] at hfills ⊢
  rw [slots_of_agrees hlimit hfills hagrees]
  exact hperm

omit hlimit in
theorem few_of_complete_city (hmode : query.mode = .city)
    (h : PagesAreComplete env cities userId query s) :
    (s.countedVisits env cities userId query).length ≤ 600 := by
  have hshort : ∀ offset, (s.rankingAt env cities userId query offset).length ≤ 600 := by
    intro offset
    rw [length_rankingAt_city hmode]
    dsimp only [cityPoolTake]
    omega
  by_contra hmany
  exact not_complete_of_short hviewer hnumber hshort (Nat.lt_of_not_le hmany) h

end modes

/-- Up to a hundred visits, every pool of the network feed holds them all. -/
theorem feedFits_of_few {query : FeedQuery} (hmode : query.mode = .network)
    (hfew : (s.countedVisits env cities userId query).length ≤ 100) :
    FeedFits env cities userId query s := by
  simp only [FeedFits, hmode]
  refine ⟨by omega, fun k _ visit hvisit => ?_⟩
  have hpool : 100 ≤ networkPoolTake (feedInput cities query (k * query.limit)) := by
    dsimp only [networkPoolTake, feedInput]
    omega
  rw [List.take_of_length_le (by omega)]
  exact (networkRanking_perm s env userId _).subset (List.mem_of_mem_take hvisit)

/-! ### Two stores -/

/-- A number written in digits. -/
def readDigits (text : String) : Option Rat :=
  if text.toList ≠ [] ∧ text.toList.all Char.isDigit then
    some (Nat.ofDigitChars 10 text.toList 0 : Nat)
  else none

theorem readDigits_repr (n : Nat) : readDigits n.repr = some (n : Rat) := by
  have hdigits : (Nat.toDigits 10 n).all Char.isDigit = true :=
    List.all_eq_true.mpr fun c hc => Nat.isDigit_of_mem_toDigits (by decide) (by decide) hc
  rw [readDigits, Nat.toList_repr, if_pos ⟨Nat.toDigits_ne_nil, hdigits⟩]
  simp

theorem repr_injective {m n : Nat} (h : m.repr = n.repr) : m = n := by
  have hread := readDigits_repr m
  rw [h, readDigits_repr n] at hread
  exact_mod_cast (Option.some.inj hread).symm

/-- The first hour of 1970, a Thursday, with two digests. -/
def aContentEnv : ContentEnv where
  now := 0
  settingsId _ := "s9"
  localeCompare := compareCodePoints
  toLowerCase text := text
  number := readDigits
  toFixed2 _ := "0.00"
  toISOString _ := "1970-01-01T00:00:00.000Z"
  getUTCFullYear _ := 1970
  getUTCMonth _ := 0
  getUTCDate _ := 1
  getUTCHours _ := 0
  getHours _ := 0
  getDay _ := 4
  sha256Prefix text :=
    if text = "ana:feed-network:na:na:1970-01-01h00:1970-01-01:0:v0" then 0x40a8eccf
    else if text = "ana:feed-network:na:na:1970-01-01h00:1970-01-01:0:v1" then 0x836e2cc8
    else 0
  distanceInMeters _ _ _ _ := 0

theorem readsOffsets_aContentEnv : ReadsOffsets aContentEnv.number := readDigits_repr

def noCities : CityDirectory where
  byGooglePlaceId _ := none
  fromCoordinates _ _ := none

def anaAndBeto : Table User where
  rows := [{ id := "ana", username := "ana", displayName := "Ana" },
    { id := "beto", username := "beto", displayName := "Beto" }]
  distinct := by decide

def aBar : Place := { id := "p1", name := "Bar", address := "Calle 1", city := "Tandil" }

/-- The `i`-th visit of beto. -/
def betosVisit (i : Nat) : Visit where
  id := "v" ++ toString i
  placeId := "p1"
  userId := "beto"
  rating := 5
  visitedAt := i
  createdAt := i

def betosVisits (n : Nat) : Table Visit where
  rows := (List.range n).map betosVisit
  distinct := by
    rw [List.pairwise_map]
    refine List.nodup_range.imp fun {i j} hij => ?_
    have hrepr : i.repr ≠ j.repr := fun h => hij (repr_injective h)
    simpa [conflicts, betosVisit] using hrepr

/-- Ana follows beto, whose activity is public, and who has been out `n` times. -/
def anaFollowsBeto (n : Nat) : ContentDb where
  toSocialDb := SocialDb.ofUsers anaAndBeto
    ⟨[{ id := "s1", userId := "ana" }, { id := "s2", userId := "beto" }], by decide⟩
    ⟨[{ id := "f1", followerId := "ana", followedId := "beto" }], by decide⟩
    .empty
    (.singleton aBar)
  tastePreferenceIds _ := []
  isEditor _ := false
  placeColumns _ := {}
  visits := betosVisits n
  saves := .empty
  diaries := .empty
  diaryPlaces := .empty
  user_id := by decide
  place_source := by
    intro p hp q hq _ _ _
    rw [List.mem_singleton.mp hp, List.mem_singleton.mp hq]
  visit_place := by
    intro v hv
    obtain ⟨i, -, rfl⟩ := List.mem_map.mp hv
    exact ⟨_, List.mem_cons_self, rfl⟩
  visit_user := by
    intro v hv
    obtain ⟨i, -, rfl⟩ := List.mem_map.mp hv
    exact ⟨_, List.mem_cons_of_mem _ List.mem_cons_self, rfl⟩
  save_user := by simp
  diary_creator := by simp
  entry_diary := no_entry_diary

theorem knownViewer_ana (n : Nat) : KnownViewer aContentEnv "ana" (anaFollowsBeto n) where
  stored := rfl
  fresh :=
    show ∀ r ∈ [({ id := "s1", userId := "ana" } : UserSettings), { id := "s2", userId := "beto" }],
      r.id ≠ "s9" by decide

theorem length_countedVisits_ana (n limit : Nat) :
    ((anaFollowsBeto n).countedVisits aContentEnv noCities "ana" { limit }).length = n := by
  have hstore : (anaFollowsBeto n).withSettings (defaultSettings aContentEnv 0 "ana") =
      anaFollowsBeto n := rfl
  have hfollows : (anaFollowsBeto n).followedIds "ana" = ["beto"] := rfl
  have hcount : (anaFollowsBeto n).countVisits (networkWhere ["beto"]) = n := by
    have hall : ∀ visits : List Nat, (((visits.map betosVisit).filterMap
        (anaFollowsBeto n).visitWithRelations).filter (networkWhere ["beto"])).length =
          visits.length := by
      intro visits
      induction visits with
      | nil => rfl
      | cons i visits ih =>
          rw [List.map_cons, List.length_cons, ← ih]
          rfl
    exact (hall (List.range n)).trans List.length_range
  rw [ContentDb.countedVisits, hstore, ContentDb.feedVisits]
  dsimp only [feedInput]
  rw [hfollows, ContentDb.length_findVisits, hcount]

/-- The pages are complete where the pools are large enough for them. No mode but the city feed
completes its pages otherwise; the city feed never does beyond its cap, and up to it the pools are
large enough exactly if every page agrees with the ranking of all visits. -/
theorem feed_pages_complete (hviewer : KnownViewer env userId s)
    (hnumber : ReadsOffsets env.number) (horder : Collates env.localeCompare) {query : FeedQuery}
    (hlimit : 0 < query.limit) :
    (FeedFits env cities userId query s → PagesAreComplete env cities userId query s) ∧
    (query.mode ≠ .city →
      PagesAreComplete env cities userId query s → FeedFits env cities userId query s) ∧
    (query.mode = .city → PagesAreComplete env cities userId query s →
      (s.countedVisits env cities userId query).length ≤ 600) ∧
    (query.mode = .city → (FeedFits env cities userId query s ↔
      (s.countedVisits env cities userId query).length ≤ 600 ∧
        Agrees ((rankCity env userId query.limit (s.countedVisits env cities userId query)).map
          (·.item)) query.limit (s.rankingAt env cities userId query))) := by
  refine ⟨fun hfits => ?_, fun hcity hcomplete => ?_,
    few_of_complete_city hviewer hnumber, feedFits_city_iff horder⟩
  · cases hmode : query.mode with
    | network => exact (complete_network_iff hviewer hnumber hlimit horder hmode).mpr hfits
    | city => exact complete_city hviewer hnumber hlimit horder hmode hfits
    | nearby => exact complete_nearby hviewer hnumber hlimit hmode
    | now => exact complete_now hviewer hnumber hlimit hmode
  · cases hmode : query.mode with
    | network => exact (complete_network_iff hviewer hnumber hlimit horder hmode).mp hcomplete
    | city => exact absurd hmode hcity
    | nearby => simp [FeedFits, hmode]
    | now => simp [FeedFits, hmode]

/-- Both visits of beto, one a page. -/
theorem two_visits_are_paged :
    PagesAreComplete aContentEnv noCities "ana" { limit := 1 } (anaFollowsBeto 2) := by
  have hfew : ((anaFollowsBeto 2).countedVisits aContentEnv noCities "ana"
      { limit := 1 }).length ≤ 100 := by
    rw [length_countedVisits_ana]
    decide
  exact (feed_pages_complete (knownViewer_ana 2) readsOffsets_aContentEnv
    collates_compareCodePoints (by decide)).1 (feedFits_of_few rfl hfew)

/-- Of 501 visits a client sees 500, and then empty pages for ever. -/
theorem one_visit_too_many :
    ¬ PagesAreComplete aContentEnv noCities "ana" { limit := 50 } (anaFollowsBeto 501) := by
  have hlength : ∀ offset, ((anaFollowsBeto 501).rankingAt aContentEnv noCities "ana"
      { limit := 50 } offset).length ≤ 500 := by
    intro offset
    rw [rankingAt_network aContentEnv noCities "ana" rfl, (networkRanking_perm _ _ _ _).length_eq,
      List.length_take]
    dsimp only [networkPoolTake]
    omega
  refine not_complete_of_short (knownViewer_ana 501) readsOffsets_aContentEnv hlength ?_
  rw [length_countedVisits_ana]
  decide

end Feca.Content
