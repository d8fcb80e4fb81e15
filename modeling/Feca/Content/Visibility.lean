import Feca.Content.FeedPaging
import Feca.Content.PlaceContext

/-! # Who sees which visits

The owner of a visit decides by a setting who sees it. Every listing of visits
checks the setting its own way: as a filter of the query, or afterwards. Each
way lets through only what the setting allows.
-/

namespace Feca.Content

open Collections Concurrency Concurrency.Prog Relational Social

/-- A stored visit, and the settings of its owner let the viewer see it. -/
structure ContentDb.Visible (s : ContentDb) (viewerId : Id) (visit : VisitWithRelations) : Prop where
  stored : visit.toVisit ∈ s.visits.rows
  allowed : s.deniesActivity viewerId visit.userId = false

/-- The id of a stored visit that its owner keeps from this viewer. -/
def ContentDb.Withheld (s : ContentDb) (viewerId visitId : Id) : Prop :=
  ∃ v ∈ s.visits.rows, v.id = visitId ∧ s.deniesActivity viewerId v.userId = true

variable {env : ContentEnv} {viewerId : Id} {s t : ContentDb} {visit : VisitWithRelations}

theorem not_withheld_of_visible (h : s.Visible viewerId visit) : ¬ s.Withheld viewerId visit.id := by
  rintro ⟨v, hv, hid, hdenied⟩
  have hsame : v = visit.toVisit :=
    Table.eq_of_conflicts hv h.stored (by simp [conflicts, hid])
  have hallowed := h.allowed
  rw [hsame, hallowed] at hdenied
  cases hdenied

/-! ## The checks -/

theorem followedIds_contains (s : SocialDb) (follower followed : Id) :
    (s.followedIds follower).contains followed = s.isFollowing follower followed := by
  rw [Bool.eq_iff_iff, List.contains_iff_mem, SocialDb.followedIds, SocialDb.isFollowing]
  simp [List.mem_map, List.mem_filter, List.any_eq_true, and_assoc]

/-- A visit read with its author: the row and the settings are the stored ones. -/
theorem visit_read (hs : SameContent s t) (h : visit ∈ t.visitsWithRelations) :
    visit.toVisit ∈ s.visits.rows ∧ visit.user.id = visit.userId ∧
      visit.user.settings = t.settingsOf visit.userId := by
  obtain ⟨v, hv, hread⟩ := List.mem_filterMap.mp h
  obtain ⟨hrow, -, huser⟩ := ContentDb.visitWithRelations_some hread
  obtain ⟨-, hid, hsettings⟩ := ContentDb.findUserRow_some huser
  have hauthor : visit.userId = v.userId := congrArg Visit.userId hrow
  refine ⟨?_, ?_, ?_⟩
  · rw [hrow, ← hs.visits]
    exact hv
  · rw [hid, hauthor]
  · rw [hsettings, hauthor]

theorem visible_of_read (hs : SameContent s t) (h : visit ∈ t.visitsWithRelations)
    (hallowed : viewerId = visit.userId ∨
      canViewContent (normalizeSettings visit.user.settings).activityVisibility
        (s.isFollowing viewerId visit.userId) = true) : s.Visible viewerId visit := by
  obtain ⟨hstored, -, hsettings⟩ := visit_read hs h
  refine ⟨hstored, ?_⟩
  unfold ContentDb.deniesActivity
  rcases hallowed with hself | hcan
  · rw [hself, bne_self_eq_false, Bool.false_and]
  · rw [hsettings, hs.settings] at hcan
    rw [hcan, Bool.not_true, Bool.and_false]

/-- What a query by visibility lets through, the check of the content does too. -/
theorem canView_of_settingsAllow {visibilities : List ContentVisibility} {following : Bool}
    (h : settingsAllow visibilities visit = true)
    (hcan : ∀ v ∈ visibilities, canViewContent v following = true) :
    canViewContent (normalizeSettings visit.user.settings).activityVisibility following = true := by
  unfold settingsAllow at h
  cases hrow : visit.user.settings with
  | none =>
      rw [hrow] at h
      cases h
  | some row =>
      rw [hrow] at h
      exact hcan row.activityVisibility (List.contains_iff_mem.mp h)

theorem visible_of_network (hs : SameContent s t) (h : visit ∈ t.visitsWithRelations)
    (hwhere : networkWhere (s.followedIds viewerId) visit = true) : s.Visible viewerId visit := by
  obtain ⟨hfollowed, hallow⟩ := Bool.and_eq_true_iff.mp hwhere
  have hfollowing : s.isFollowing viewerId visit.userId = true := by
    rw [← followedIds_contains, ← (visit_read hs h).2.1]
    exact hfollowed
  apply visible_of_read hs h
  right
  rw [hfollowing]
  exact canView_of_settingsAllow hallow (by decide)

theorem visible_of_city {cityId : Id} (hs : SameContent s t) (h : visit ∈ t.visitsWithRelations)
    (hwhere : cityWhere viewerId cityId visit = true) : s.Visible viewerId visit := by
  have hallow := (Bool.and_eq_true_iff.mp hwhere).2
  apply visible_of_read hs h
  right
  apply canView_of_settingsAllow hallow
  intro v hv
  rw [List.mem_singleton.mp hv]
  rfl

theorem visible_of_filter (hs : SameContent s t) (h : visit ∈ t.visitsWithRelations)
    (hfilter : visibleVisit viewerId (s.followedIds viewerId) visit = true) :
    s.Visible viewerId visit := by
  rw [visibleVisit, isVisitVisibleToViewer, followedIds_contains, Bool.or_eq_true, beq_iff_eq]
    at hfilter
  exact visible_of_read hs h hfilter

/-! ## The feed -/

/-- A page of a ranking shows visits of its pool. -/
theorem mem_sliceRanked {score : VisitWithRelations → Rat} {options : DynamicRankingOptions}
    {pool : List VisitWithRelations} {input : FeedInput}
    (h : visit ∈ sliceRanked (rankCandidatesWithRotation env (pool.map (candidate score)) options)
      input) : visit ∈ pool := by
  rw [sliceRanked_eq] at h
  exact (ranked_perm score options pool).subset (List.mem_of_mem_drop (List.mem_of_mem_take h))

section feed

variable {userId : Id} (s₀ : ContentDb)

theorem keeps_read {α : Type} (read : ContentDb → α) :
    (query read : ContentProg α).Keeps (SameContent s₀) fun a =>
      ∃ t, SameContent s₀ t ∧ a = read t :=
  keeps_query fun t ht => ⟨t, ht, rfl⟩

theorem keeps_followedIds :
    (query fun s => s.followedIds userId : ContentProg (List Id)).Keeps (SameContent s₀) fun ids =>
      ids = s₀.followedIds userId :=
  keeps_query fun _ ht => ht.followedIds userId

theorem keeps_viewerTaste : (viewerTaste userId).Keeps (SameContent s₀) fun _ => True :=
  keeps_query fun _ _ => trivial

theorem keeps_viewerLocation (input : FeedInput) :
    (viewerLocation userId input).Keeps (SameContent s₀) fun _ => True := by
  unfold viewerLocation
  split
  · exact keeps_pure trivial
  · exact keeps_query fun _ _ => trivial

theorem keeps_targetCityId (input : FeedInput) :
    (targetCityId userId input).Keeps (SameContent s₀) fun _ => True := by
  unfold targetCityId
  split
  · exact keeps_pure trivial
  · exact keeps_query fun _ _ => trivial

/-- Every visit of the listing is one its owner lets the viewer see. -/
def OnlyVisible (userId : Id) (listing : FeedListing) : Prop :=
  ∀ visit ∈ listing.visits, s₀.Visible userId visit

theorem keeps_listNetworkFeed (input : FeedInput) :
    (listNetworkFeed env userId input).Keeps (SameContent s₀) (OnlyVisible s₀ userId) := by
  unfold listNetworkFeed
  apply keeps_bind (keeps_followedIds s₀)
  intro followedIds hfollowed
  split
  · exact keeps_pure fun visit hvisit => absurd hvisit List.not_mem_nil
  · apply keeps_bind (keeps_viewerTaste s₀)
    intro taste _
    apply keeps_bind (keeps_read s₀ _)
    intro pool hpool
    obtain ⟨t, ht, rfl⟩ := hpool
    apply keeps_bind (keeps_read s₀ _)
    intro total _
    apply keeps_pure
    intro visit hvisit
    have hread := List.mem_of_mem_take (mem_sliceRanked hvisit)
    obtain ⟨hstored, hwhere⟩ := ContentDb.mem_findVisits.mp hread
    exact visible_of_network ht hstored (hfollowed ▸ hwhere)

theorem keeps_listCityFeed (input : FeedInput) :
    (listCityFeed env userId input).Keeps (SameContent s₀) (OnlyVisible s₀ userId) := by
  unfold listCityFeed
  apply keeps_bind (keeps_targetCityId s₀ input)
  intro cityId _
  split
  · exact keeps_pure fun visit hvisit => absurd hvisit List.not_mem_nil
  · apply keeps_bind (keeps_read s₀ _)
    intro pool hpool
    obtain ⟨t, ht, rfl⟩ := hpool
    apply keeps_bind (keeps_read s₀ _)
    intro total _
    apply keeps_pure
    intro visit hvisit
    have hread := List.mem_of_mem_take (mem_sliceRanked hvisit)
    obtain ⟨hstored, hwhere⟩ := ContentDb.mem_findVisits.mp hread
    exact visible_of_city ht hstored hwhere

theorem keeps_listVisibleRecentVisits (take : Nat) :
    (listVisibleRecentVisits userId take).Keeps (SameContent s₀) fun visits =>
      ∀ visit ∈ visits, s₀.Visible userId visit := by
  unfold listVisibleRecentVisits
  apply keeps_bind (keeps_followedIds s₀)
  intro followingIds hfollowing
  apply keeps_bind (keeps_read s₀ _)
  intro visits hvisits
  obtain ⟨t, ht, rfl⟩ := hvisits
  apply keeps_pure
  intro visit hvisit
  obtain ⟨hread, hfilter⟩ := List.mem_filter.mp hvisit
  have hstored := (ContentDb.mem_findVisits.mp (List.mem_of_mem_take hread)).1
  exact visible_of_filter ht hstored (hfollowing ▸ hfilter)

theorem keeps_listNearbyFeed (input : FeedInput) :
    (listNearbyFeed env userId input).Keeps (SameContent s₀) (OnlyVisible s₀ userId) := by
  unfold listNearbyFeed
  apply keeps_bind (keeps_viewerLocation s₀ input)
  intro location _
  split
  · exact keeps_pure fun visit hvisit => absurd hvisit List.not_mem_nil
  · apply keeps_bind (keeps_viewerTaste s₀)
    intro taste _
    apply keeps_bind (keeps_listVisibleRecentVisits s₀ 220)
    intro visits hvisits
    apply keeps_pure
    intro visit hvisit
    exact hvisits visit (List.mem_filter.mp (mem_sliceRanked hvisit)).1

theorem keeps_listNowFeed (input : FeedInput) :
    (listNowFeed env userId input).Keeps (SameContent s₀) (OnlyVisible s₀ userId) := by
  unfold listNowFeed
  apply keeps_bind (keeps_viewerLocation s₀ input)
  intro location _
  apply keeps_bind (keeps_viewerTaste s₀)
  intro taste _
  apply keeps_bind (keeps_listVisibleRecentVisits s₀ 220)
  intro visits hvisits
  apply keeps_pure
  intro visit hvisit
  exact hvisits visit (List.mem_filter.mp (mem_sliceRanked hvisit)).1

theorem keeps_listFeed (input : FeedInput) :
    (listFeed env userId input).Keeps (SameContent s₀) (OnlyVisible s₀ userId) := by
  unfold listFeed
  apply keeps_bind (keeps_ensureUserSettings s₀)
  intro _ _
  split
  · exact keeps_listCityFeed s₀ input
  · exact keeps_listNearbyFeed s₀ input
  · exact keeps_listNowFeed s₀ input
  · exact keeps_listNetworkFeed s₀ input

/-- No mode of the feed shows a visit its owner keeps from the viewer. -/
theorem keeps_getFeed (cities : CityDirectory) (query : FeedQuery) :
    (getFeed env cities userId query).Keeps (SameContent s₀) fun page =>
      ∀ item ∈ page.items, ¬ s₀.Withheld userId item.visit.id := by
  unfold getFeed
  apply keeps_bind (keeps_viewerTaste s₀)
  intro taste _
  apply keeps_bind (keeps_listFeed s₀ _)
  intro listing hlisting
  apply keeps_pure
  intro item hitem
  obtain ⟨visit, hvisit, rfl⟩ := List.mem_map.mp hitem
  exact not_withheld_of_visible (hlisting visit hvisit)

end feed

/-! ## Profiles and places -/

section places

variable {userId : Id} (s₀ : ContentDb)

/-- The visits of a profile are shown to those its owner shows them to. -/
theorem keeps_getUserVisits (input : PaginationInput) :
    (getUserVisits env viewerId userId input).Keeps (SameContent s₀) fun page =>
      ∀ view ∈ page.visits, ¬ s₀.Withheld viewerId view.id := by
  unfold getUserVisits
  apply keeps_bind (keeps_findUserByIdWithContext s₀)
  intro found hfound
  split
  · exact keeps_fail _
  · rename_i profile
    have hgrants := hfound profile rfl
    split
    · exact keeps_fail _
    · rename_i hcan
      have hopen : s₀.deniesActivity viewerId userId = false := by
        rw [hgrants.activity] at hcan
        simpa using hcan
      apply keeps_bind (Q := fun listing : VisitListing =>
        ∀ visit ∈ listing.visits, s₀.Visible viewerId visit)
      · unfold listVisitsByUser
        apply keeps_bind (keeps_read s₀ _)
        intro visits hvisits
        obtain ⟨t, ht, rfl⟩ := hvisits
        apply keeps_bind (keeps_read s₀ _)
        intro total _
        apply keeps_pure
        intro visit hvisit
        have hread := List.mem_of_mem_drop (List.mem_of_mem_take hvisit)
        obtain ⟨hmem, hauthor⟩ := ContentDb.mem_findVisits.mp hread
        have huser : visit.userId = userId := beq_iff_eq.mp hauthor
        exact ⟨(visit_read ht hmem).1, huser ▸ hopen⟩
      · intro listing hlisting
        apply keeps_pure
        intro view hview
        obtain ⟨visit, hvisit, rfl⟩ := List.mem_map.mp hview
        exact not_withheld_of_visible (hlisting visit hvisit)

/-- The context of a place page says nothing of other visits than visible ones. -/
theorem keeps_getPlaceSocialContext (placeId : Id) :
    (getPlaceSocialContext env viewerId placeId).Keeps (SameContent s₀) fun context =>
      ∃ shown diaryRows, (∀ visit ∈ shown, s₀.Visible viewerId visit) ∧
        context = buildPlaceSocialContext (s₀.followedIds viewerId) shown diaryRows := by
  unfold getPlaceSocialContext
  apply keeps_bind (keeps_ensureUserSettings s₀)
  intro _ _
  apply keeps_bind (keeps_followedIds s₀)
  intro followingIds hfollowing
  apply keeps_bind (keeps_read s₀ _)
  intro visits hvisits
  obtain ⟨t, ht, rfl⟩ := hvisits
  apply keeps_bind (keeps_read s₀ _)
  intro diaryRows _
  apply keeps_pure
  refine ⟨_, diaryRows, ?_, by rw [hfollowing]⟩
  intro visit hvisit
  obtain ⟨hread, hfilter⟩ := List.mem_filter.mp hvisit
  have hstored := (ContentDb.mem_findVisits.mp (List.mem_of_mem_take hread)).1
  exact visible_of_filter ht hstored (hfollowing ▸ hfilter)

/-- Chips come from visible visits, and from places saved by users whose activity
the viewer may see. -/
theorem keeps_networkSignals (googlePlaceIds : List String) :
    (getNearbyNetworkSignalsForGooglePlaces env viewerId googlePlaceIds).Keeps (SameContent s₀)
      fun signals => ∃ placeRows shown saves, (∀ visit ∈ shown, s₀.Visible viewerId visit) ∧
        (∀ save ∈ saves, save.toPlaceSave ∈ s₀.saves.rows ∧
          s₀.deniesActivity viewerId save.userId = false) ∧
        signals = signalsOf env.now (askedIds googlePlaceIds) placeRows shown saves := by
  have hnothing : ∃ (placeRows : List PlaceRow) (shown : List VisitWithRelations)
      (saves : List SaveWithUser), (∀ visit ∈ shown, s₀.Visible viewerId visit) ∧
        (∀ save ∈ saves, save.toPlaceSave ∈ s₀.saves.rows ∧
          s₀.deniesActivity viewerId save.userId = false) ∧
        signalsOf env.now (askedIds googlePlaceIds) [] [] [] =
          signalsOf env.now (askedIds googlePlaceIds) placeRows shown saves :=
    ⟨[], [], [], by simp, by simp, rfl⟩
  unfold getNearbyNetworkSignalsForGooglePlaces
  dsimp only
  split
  · exact keeps_pure hnothing
  · apply keeps_bind (keeps_ensureUserSettings s₀)
    intro _ _
    apply keeps_bind (keeps_followedIds s₀)
    intro followingIds hfollowing
    split
    · exact keeps_pure hnothing
    · apply keeps_bind (keeps_read s₀ _)
      intro placeRows _
      apply keeps_bind (keeps_read s₀ _)
      intro visits hvisits
      obtain ⟨t, ht, rfl⟩ := hvisits
      apply keeps_bind (keeps_read s₀ _)
      intro saves hsaves
      obtain ⟨u, hu, rfl⟩ := hsaves
      apply keeps_pure
      refine ⟨placeRows, _, _, ?_, ?_, rfl⟩
      · intro visit hvisit
        obtain ⟨hread, hfilter⟩ := List.mem_filter.mp hvisit
        have hstored := (ContentDb.mem_findVisits.mp (List.mem_of_mem_take hread)).1
        exact visible_of_filter ht hstored (hfollowing ▸ hfilter)
      · intro save hsave
        obtain ⟨hread, hfilter⟩ := List.mem_filter.mp hsave
        have hsorted := (List.mem_insertionSort _).mp (List.mem_of_mem_take hread)
        obtain ⟨row, hrow, hmap⟩ := List.mem_filterMap.mp (List.mem_filter.mp hsorted).1
        obtain ⟨user, huser, rfl⟩ := Option.map_eq_some_iff.mp hmap
        refine ⟨hu.saves ▸ hrow, ?_⟩
        rw [(ContentDb.findUserRow_some huser).2.2, hu.settings, hfollowing,
          followedIds_contains] at hfilter
        unfold ContentDb.deniesActivity
        rw [hfilter, Bool.not_true, Bool.and_false]

end places

end Feca.Content
