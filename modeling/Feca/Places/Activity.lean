import Feca.Content.Visibility
import Feca.Places.Profile

/-! # Reviews and activity visibility

The page of a place shows its latest visits as reviews, whoever made them: of all
listings this one alone does not look at the settings of the owners.
-/

namespace Feca.Places

open Collections Concurrency Concurrency.Prog Content Relational Social

variable {env : PlacesEnv} {config : AdminConfig} {google : GooglePlaces}
  {viewer : AccessTokenPayload} {s : ContentDb} {googlePlaceId : String} {place : PlaceRow}
  {profile : PlaceProfile}

/-! ## The profile, run alone -/

/-- The place a text names: a Google id in any spelling, or a row id. -/
def placeNamed (s : ContentDb) (googlePlaceId : String) : Option PlaceRow :=
  (getPlaceBySource s .google (normalizeGooglePlaceId googlePlaceId)).or
    (s.findPlaceRow googlePlaceId)

/-- The place is in the app, or the viewer an administrator. -/
def MayOpen (env : PlacesEnv) (config : AdminConfig) (viewer : AccessTokenPayload)
    (place : PlaceRow) : Prop :=
  place.hiddenFromApp = true → isFecaAdminEmail env config viewer.email = true

def reviewsIn (env : PlacesEnv) (s : ContentDb) : Option PlaceRow → List FecaPlaceReview
  | none => []
  | some place => (listFecaReviews s place.id 20).map (mapVisitToFecaReview env)

theorem run_findLocalPlace :
    (findLocalPlace googlePlaceId).run s = ⟨s, [], .ok (placeNamed s googlePlaceId)⟩ := by
  unfold findLocalPlace placeNamed
  rw [run_bind_ok (by rw [run_query]), run_query]
  cases getPlaceBySource s .google (normalizeGooglePlaceId googlePlaceId) with
  | none => rfl
  | some place => rfl

theorem run_reviewsOf (localPlace : Option PlaceRow) :
    (reviewsOf env localPlace).run s = ⟨s, [], .ok (reviewsIn env s localPlace)⟩ := by
  cases localPlace with
  | none => rfl
  | some place => simp [reviewsOf, reviewsIn, run_bind, Answer.andThen]

theorem run_getPlaceProfile :
    (getPlaceProfile env config google viewer googlePlaceId).run s =
      if (placeNamed s googlePlaceId).any (·.hiddenFromApp) &&
          !isFecaAdminEmail env config viewer.email then
        ⟨s, [], .error (.http (NotFoundException "Place not found"))⟩
      else (profileBody env google viewer.sub (isFecaAdminEmail env config viewer.email)
        (normalizeGooglePlaceId googlePlaceId) (placeNamed s googlePlaceId)
        (reviewsIn env s (placeNamed s googlePlaceId))).run s := by
  unfold getPlaceProfile
  dsimp only
  rw [run_bind_ok (by rw [run_findLocalPlace]), run_findLocalPlace]
  dsimp only
  split
  · rfl
  · rw [run_bind_ok (by rw [run_reviewsOf]), run_reviewsOf]
    rfl

/-! ### What a profile shows -/

section shows

variable {viewerId : Id} {isAdmin : Bool} {normalized : String} {localPlace : Option PlaceRow}
  {fecaReviews : List FecaPlaceReview}

theorem keeps_googleProfile :
    (googleProfile env google viewerId isAdmin normalized localPlace fecaReviews).Keeps
      (fun _ => True) fun profile => profile.fecaReviews = some fecaReviews := by
  unfold googleProfile
  split
  · exact keeps_fail _
  · exact keeps_bind (keeps_any _) fun _ _ => keeps_pure rfl

theorem keeps_storedProfile :
    (storedProfile env viewerId isAdmin normalized localPlace fecaReviews).Keeps
      (fun _ => True) fun profile => profile.fecaReviews = some fecaReviews := by
  unfold storedProfile
  split
  · exact keeps_fail _
  · exact keeps_bind (keeps_any _) fun _ _ => keeps_pure rfl

/-- With Google or without, the profile shows the reviews it was given. -/
theorem keeps_profileBody :
    (profileBody env google viewerId isAdmin normalized localPlace fecaReviews).Keeps
      (fun _ => True) fun profile => profile.fecaReviews = some fecaReviews := by
  unfold profileBody
  apply keeps_bind (Q := fun attempted : Except Failure PlaceProfile =>
    ∀ profile, attempted = .ok profile → profile.fecaReviews = some fecaReviews)
  · unfold tryGoogle
    split
    · exact keeps_attempt keeps_googleProfile
    · apply keeps_pure
      intro profile hprofile
      cases hprofile
  · intro attempted hattempted
    split
    · exact keeps_pure (hattempted _ rfl)
    · exact keeps_storedProfile

end shows

/-! ### Who gets a profile -/

section settled

variable {viewerId : Id} {isAdmin : Bool} {normalized : String}
  {fecaReviews : List FecaPlaceReview}

/-- A viewer who has no settings and cannot get any reads no context. -/
theorem context_of_unsettled (h : ¬ s.Settles (defaultSettings env.toContentEnv 0 viewerId))
    (placeId : Id) : ∃ e, (getPlaceSocialContext env.toContentEnv viewerId placeId).run s =
      ⟨s, [], .error e⟩ := by
  cases hupsert : s.upsertSettings (defaultSettings env.toContentEnv 0 viewerId) with
  | ok t => exact absurd ⟨t, hupsert⟩ h
  | error e =>
      have hrun : (Content.ensureUserSettings env.toContentEnv 0 viewerId).run s =
          ⟨s, [], .error (.database e)⟩ := by
        rw [Content.ensureUserSettings, run_stmt, hupsert]
      refine ⟨.database e, ?_⟩
      unfold getPlaceSocialContext
      rw [run_bind_error (by rw [hrun]), hrun]

theorem googleProfile_of_unsettled
    (h : ¬ s.Settles (defaultSettings env.toContentEnv 0 viewerId)) :
    ∃ e, (googleProfile env google viewerId isAdmin normalized (some place) fecaReviews).run s =
      ⟨s, [], .error e⟩ := by
  unfold googleProfile
  split
  · exact ⟨_, rfl⟩
  · obtain ⟨e, he⟩ := context_of_unsettled h place.id
    have hcontext : (socialContextOf env viewerId (some place)).run s = ⟨s, [], .error e⟩ := by
      unfold socialContextOf
      rw [run_map, he]
      rfl
    refine ⟨e, ?_⟩
    rw [run_bind_error (by rw [hcontext]), hcontext]

theorem profileBody_of_unsettled
    (h : ¬ s.Settles (defaultSettings env.toContentEnv 0 viewerId)) :
    ((profileBody env google viewerId isAdmin normalized (some place) fecaReviews).run s).result ≠
      .ok profile := by
  have htry : ∃ e, (tryGoogle env google viewerId isAdmin normalized (some place) fecaReviews).run s =
      ⟨s, [], .ok (.error e)⟩ := by
    unfold tryGoogle
    split
    · have hfails : ∃ e, (googleProfile env google viewerId isAdmin normalized (some place)
          fecaReviews).run s = ⟨s, [], .error e⟩ := googleProfile_of_unsettled h
      obtain ⟨e, he⟩ := hfails
      exact ⟨e, by rw [run_attempt, he]⟩
    · exact ⟨_, rfl⟩
  obtain ⟨e, he⟩ := htry
  obtain ⟨e', he'⟩ := context_of_unsettled h place.id
  unfold profileBody storedProfile
  rw [run_bind_ok (by rw [he]), he]
  dsimp only
  rw [run_bind_error (by rw [he'])]
  intro hok
  cases hok

theorem context_of_settled (h : s.Settles (defaultSettings env.toContentEnv 0 viewerId))
    (placeId : Id) : ∃ context,
      ((getPlaceSocialContext env.toContentEnv viewerId placeId).run s).result = .ok context := by
  unfold getPlaceSocialContext
  rw [run_bind_ok (by rw [run_ensureUserSettings h]), run_ensureUserSettings h]
  exact ⟨_, rfl⟩

end settled

/-- Google is not used. -/
def localOnly : GooglePlaces where
  shouldUseGooglePlaces := false
  getCachedPlaceDetailView _ := .error .other

/-- Whoever may open the page of a place gets it, with its latest reviews. -/
theorem profile_of_settled (h : s.Settles (defaultSettings env.toContentEnv 0 viewer.sub))
    (hplace : placeNamed s googlePlaceId = some place) (hopen : MayOpen env config viewer place) :
    ∃ profile, ((getPlaceProfile env config localOnly viewer googlePlaceId).run s).result =
        .ok profile ∧ profile.fecaReviews = some (reviewsIn env s (some place)) := by
  have hshown : ((placeNamed s googlePlaceId).any (·.hiddenFromApp) &&
      !isFecaAdminEmail env config viewer.email) = false := by
    rw [hplace, Option.any_some]
    cases hhidden : place.hiddenFromApp with
    | false => rfl
    | true => rw [hopen hhidden, Bool.not_true, Bool.and_false]
  obtain ⟨context, hcontext⟩ := context_of_settled h place.id
  rw [run_getPlaceProfile, if_neg (by rw [hshown]; exact Bool.false_ne_true), hplace]
  unfold profileBody tryGoogle localOnly storedProfile
  rw [if_neg Bool.false_ne_true]
  rw [run_bind_ok (by exact rfl), run_pure]
  dsimp only
  rw [run_bind_ok hcontext]
  exact ⟨_, rfl, rfl⟩

/-- A profile shows the latest reviews of a place its viewer may open. -/
theorem reviews_of_profile
    (h : ((getPlaceProfile env config google viewer googlePlaceId).run s).result = .ok profile) :
    profile.fecaReviews = some (reviewsIn env s (placeNamed s googlePlaceId)) ∧
      ∀ place, placeNamed s googlePlaceId = some place → MayOpen env config viewer place ∧
        s.Settles (defaultSettings env.toContentEnv 0 viewer.sub) := by
  rw [run_getPlaceProfile] at h
  split at h
  · cases h
  · rename_i hshown
    refine ⟨keeps_profileBody.result trivial h, ?_⟩
    intro place hplace
    constructor
    · intro hhidden
      rw [hplace, Option.any_some, hhidden] at hshown
      simpa using hshown
    · by_contra hsettles
      rw [hplace] at h
      exact profileBody_of_unsettled hsettles h

/-! ## The law -/

/-- No listing shows this viewer a visit whose owner keeps them away. A feed, a
profile and the reviews show visits by their ids; the context of a place and the
chips are computed from visits, every one of them visible. -/
structure ActivityIsEnforced (env : PlacesEnv) (config : AdminConfig) (viewer : AccessTokenPayload)
    (s : ContentDb) : Prop where
  feed : ∀ cities query page,
    ((getFeed env.toContentEnv cities viewer.sub query).run s).result = .ok page →
      ∀ item ∈ page.items, ¬ s.Withheld viewer.sub item.visit.id
  userVisits : ∀ userId input page,
    ((getUserVisits env.toContentEnv viewer.sub userId input).run s).result = .ok page →
      ∀ view ∈ page.visits, ¬ s.Withheld viewer.sub view.id
  placeContext : ∀ placeId context,
    ((getPlaceSocialContext env.toContentEnv viewer.sub placeId).run s).result = .ok context →
      ∃ shown diaryRows, (∀ visit ∈ shown, s.Visible viewer.sub visit) ∧
        context = buildPlaceSocialContext (s.followedIds viewer.sub) shown diaryRows
  networkChips : ∀ googlePlaceIds signals,
    ((getNearbyNetworkSignalsForGooglePlaces env.toContentEnv viewer.sub googlePlaceIds).run
      s).result = .ok signals →
      ∃ placeRows shown saves, (∀ visit ∈ shown, s.Visible viewer.sub visit) ∧
        (∀ save ∈ saves, save.toPlaceSave ∈ s.saves.rows ∧
          s.deniesActivity viewer.sub save.userId = false) ∧
        signals = signalsOf env.now (askedIds googlePlaceIds) placeRows shown saves
  reviews : ∀ google googlePlaceId profile reviews,
    ((getPlaceProfile env config google viewer googlePlaceId).run s).result = .ok profile →
      profile.fecaReviews = some reviews → ∀ review ∈ reviews, ¬ s.Withheld viewer.sub review.id

/-- Of every place whose page the viewer may open, the authors of the twenty
latest visits let the viewer see their activity. -/
def LatestVisitsAreOpen (env : PlacesEnv) (config : AdminConfig) (viewer : AccessTokenPayload)
    (s : ContentDb) : Prop :=
  s.Settles (defaultSettings env.toContentEnv 0 viewer.sub) → ∀ googlePlaceId place,
    placeNamed s googlePlaceId = some place → MayOpen env config viewer place →
      ∀ visit ∈ (s.findVisits (·.placeId == place.id)).take 20,
        s.deniesActivity viewer.sub visit.userId = false

theorem latestVisits_of_enforced (h : ActivityIsEnforced env config viewer s) :
    LatestVisitsAreOpen env config viewer s := by
  intro hsettles googlePlaceId place hplace hopen visit hvisit
  obtain ⟨profile, hprofile, hreviews⟩ := profile_of_settled hsettles hplace hopen
  have hshown := h.reviews localOnly googlePlaceId profile _ hprofile hreviews
    (mapVisitToFecaReview env visit) (List.mem_map_of_mem hvisit)
  have hstored := (ContentDb.mem_findVisits.mp (List.mem_of_mem_take hvisit)).1
  have hrow := (visit_read (SameContent.refl s) hstored).1
  by_contra hdenied
  exact hshown ⟨visit.toVisit, hrow, rfl, by simpa using hdenied⟩

theorem enforced_of_latestVisits (h : LatestVisitsAreOpen env config viewer s) :
    ActivityIsEnforced env config viewer s where
  feed cities query page hpage :=
    (keeps_getFeed s cities query).result (SameContent.refl s) hpage
  userVisits userId input page hpage :=
    (keeps_getUserVisits s input).result (SameContent.refl s) hpage
  placeContext placeId context hcontext :=
    (keeps_getPlaceSocialContext s placeId).result (SameContent.refl s) hcontext
  networkChips googlePlaceIds signals hsignals :=
    (keeps_networkSignals s googlePlaceIds).result (SameContent.refl s) hsignals
  reviews := by
    intro google googlePlaceId profile reviews hprofile hreviews review hreview
    obtain ⟨hshown, hplaces⟩ := reviews_of_profile hprofile
    rw [hshown] at hreviews
    cases hreviews
    cases hplace : placeNamed s googlePlaceId with
    | none =>
        rw [hplace] at hreview
        exact absurd hreview List.not_mem_nil
    | some place =>
        obtain ⟨hopen, hsettles⟩ := hplaces place hplace
        rw [hplace] at hreview
        obtain ⟨visit, hvisit, rfl⟩ := List.mem_map.mp hreview
        have hstored := (ContentDb.mem_findVisits.mp (List.mem_of_mem_take hvisit)).1
        have hallowed := h hsettles googlePlaceId place hplace hopen visit hvisit
        exact not_withheld_of_visible ⟨(visit_read (SameContent.refl s) hstored).1, hallowed⟩

/-- The settings of owners are kept on every listing exactly where the latest
visits of the places a viewer may open are no secret to them. -/
theorem activity_enforced_iff : ActivityIsEnforced env config viewer s ↔
    LatestVisitsAreOpen env config viewer s :=
  ⟨latestVisits_of_enforced, enforced_of_latestVisits⟩

/-! ### A private visit in the reviews -/

def aPlacesEnv : PlacesEnv := { aContentEnv with relativeTimeFormat := fun _ _ => "hoy" }

def betosBar : Place where
  id := "p1"
  name := "Bar"
  address := "Calle 1"
  city := "Tandil"

def betosSecret : Visit where
  id := "v1"
  placeId := "p1"
  userId := "beto"
  rating := 5
  visitedAt := 0
  createdAt := 0

/-- Ana does not follow beto, who keeps his activity private. -/
def betoIsPrivate : ContentDb where
  toSocialDb := SocialDb.ofUsers anaAndBeto
    ⟨[{ id := "s1", userId := "ana" },
      { id := "s2", userId := "beto", activityVisibility := .«private» }], by decide⟩
    .empty .empty (.singleton betosBar)
  tastePreferenceIds _ := []
  isEditor _ := false
  placeColumns _ := { sourcePlaceId := some "ChIJ1" }
  visits := .singleton betosSecret
  saves := .empty
  diaries := .empty
  diaryPlaces := .empty
  user_id := by decide
  place_source := by
    intro p hp q hq _ _ _
    rw [List.mem_singleton.mp hp, List.mem_singleton.mp hq]
  visit_place := by decide
  visit_user := by decide
  save_user := by simp
  diary_creator := by simp
  entry_diary := no_entry_diary

/-- Whoever opens the page of the bar reads about beto's visit. -/
theorem private_visit_is_reviewed : ¬ ActivityIsEnforced aPlacesEnv ⟨[]⟩
    { email := "ana@feca.app", sub := "ana" } betoIsPrivate := by
  intro henforced
  have hsettles : betoIsPrivate.Settles
      (defaultSettings aPlacesEnv.toContentEnv 0 "ana") := ⟨betoIsPrivate, rfl⟩
  have hplace : placeNamed betoIsPrivate "ChIJ1" = some (betoIsPrivate.placeRow betosBar) := rfl
  have hopen := latestVisits_of_enforced henforced hsettles "ChIJ1" _ hplace
    fun hhidden => by cases hhidden
  have hvisit : betosSecret ∈ ((betoIsPrivate.findVisits (·.placeId == "p1")).take 20).map
      (·.toVisit) := by decide
  obtain ⟨visit, hmem, hrow⟩ := List.mem_map.mp hvisit
  have hallowed := hopen visit hmem
  have hauthor : visit.userId = "beto" := congrArg Visit.userId hrow
  rw [hauthor] at hallowed
  cases hallowed

end Feca.Places
