import Feca.Collections.MergeByKey
import Feca.Places.NearbyHelpers

/-! # What merging candidates keeps

The same place comes into a nearby list from Google and from the database, and
`upsertNearbyCandidate` merges what the two know of it. Most fields are kept from
whoever knew them first. The coordinates and the link to the maps are those of
the object spread last, whether it knows them or not.
-/

namespace Feca.Places

open Collections Content Social

/-- A summary as an object. An optional field may be missing or be there with
`undefined`; the merge sets all of them itself but `googleMapsUri`. -/
structure Candidate extends GooglePlaceSummary where
  hasMapsUri : Bool := true
  missing : hasMapsUri = false → googleMapsUri = none := by exact nofun

def Candidate.ofStored (place : PlaceRow) : Candidate where
  toGooglePlaceSummary := mapStoredPlaceToNearby place

/-- `{ ...existing, ...incoming, … }`. -/
def mergeCandidates (existing incoming : Candidate) : Candidate where
  toGooglePlaceSummary :=
    { mergeGooglePlaceSummaries existing.toGooglePlaceSummary incoming.toGooglePlaceSummary with
      googleMapsUri :=
        if incoming.hasMapsUri then incoming.googleMapsUri else existing.googleMapsUri }
  hasMapsUri := existing.hasMapsUri || incoming.hasMapsUri
  missing h := by
    obtain ⟨hexisting, hincoming⟩ := Bool.or_eq_false_iff.mp h
    simp [hincoming, existing.missing hexisting]

def upsertCandidate (byId : OrderedMap String Candidate) (place : Candidate) :
    OrderedMap String Candidate :=
  if place.googlePlaceId = "" then byId
  else
    match byId.get place.googlePlaceId with
    | none => byId.set place.googlePlaceId place
    | some previous => byId.set place.googlePlaceId (mergeCandidates previous place)

/-- Not the point that stands for no coordinates. -/
def GooglePlaceSummary.HasRealCoordinates (place : GooglePlaceSummary) : Prop :=
  ¬ (place.lat = 0 ∧ place.lng = 0)

instance (place : GooglePlaceSummary) : Decidable place.HasRealCoordinates :=
  inferInstanceAs (Decidable (¬ _))

/-- Whatever one of the candidates knows, the merged place knows. -/
structure LosesNothing (candidates : List Candidate) (merged : Candidate) : Prop where
  googleMapsUri : (∃ c ∈ candidates, c.googleMapsUri.isSome) → merged.googleMapsUri.isSome
  rating : (∃ c ∈ candidates, c.rating.isSome) → merged.rating.isSome
  userRatingCount : (∃ c ∈ candidates, c.userRatingCount.isSome) → merged.userRatingCount.isSome
  primaryType : (∃ c ∈ candidates, c.primaryType.isSome) → merged.primaryType.isSome
  photoUrl : (∃ c ∈ candidates, c.photoUrl.isSome) → merged.photoUrl.isSome
  openNow : (∃ c ∈ candidates, c.openNow.isSome) → merged.openNow.isSome
  openingWeekdayLines : (∃ c ∈ candidates, c.openingWeekdayLines.isSome) →
    merged.openingWeekdayLines.isSome
  coordinates : (∃ c ∈ candidates, c.HasRealCoordinates) → merged.HasRealCoordinates

/-- The last candidate with the field `googleMapsUri`. -/
def lastWithMapsUri (candidates : List Candidate) : Option Candidate :=
  candidates.reverse.find? (·.hasMapsUri)

/-- What comes last knows the link and the coordinates, where anybody does. -/
structure KnownLast (candidates : List Candidate) : Prop where
  googleMapsUri : (∃ c ∈ candidates, c.googleMapsUri.isSome) →
    ∀ c ∈ lastWithMapsUri candidates, c.googleMapsUri.isSome
  coordinates : (∃ c ∈ candidates, c.HasRealCoordinates) →
    ∀ c ∈ candidates.getLast?, c.HasRealCoordinates

/-- The candidates with one id. -/
def ofPlace (id : String) (candidates : List Candidate) : List Candidate :=
  candidates.filter (·.googlePlaceId = id)

/-! ## The merge, field by field -/

/-- The link as a property of the object: missing, undefined or known. -/
def Candidate.mapsUri (c : Candidate) : Option (Option String) :=
  if c.hasMapsUri then some c.googleMapsUri else none

theorem Candidate.googleMapsUri_eq (c : Candidate) : c.googleMapsUri = c.mapsUri.join := by
  unfold mapsUri
  by_cases h : c.hasMapsUri = true
  · rw [if_pos h, Option.join_some]
  · rw [if_neg h, Option.join_none, c.missing (by simpa using h)]

@[simp] theorem hasMapsUri_mergeCandidates (a b : Candidate) :
    (mergeCandidates a b).hasMapsUri = (a.hasMapsUri || b.hasMapsUri) := rfl

@[simp] theorem googleMapsUri_mergeCandidates (a b : Candidate) :
    (mergeCandidates a b).googleMapsUri =
      if b.hasMapsUri then b.googleMapsUri else a.googleMapsUri := rfl

/-- A candidate that sets the link, as a stored place does, is merged as it is in the pool. -/
theorem mergeCandidates_eq (a b : Candidate) (h : b.hasMapsUri = true) :
    (mergeCandidates a b).toGooglePlaceSummary =
      mergeGooglePlaceSummaries a.toGooglePlaceSummary b.toGooglePlaceSummary := by
  unfold mergeCandidates mergeGooglePlaceSummaries
  simp [h]

theorem mapsUri_mergeCandidates (a b : Candidate) :
    (mergeCandidates a b).mapsUri = b.mapsUri.or a.mapsUri := by
  unfold Candidate.mapsUri
  rw [hasMapsUri_mergeCandidates, googleMapsUri_mergeCandidates]
  by_cases hb : b.hasMapsUri = true
  · simp [hb]
  · simp [hb]

section run

variable (first : Candidate) (rest : List Candidate)

def mergeAll : Candidate := rest.foldl mergeCandidates first

theorem mapsUri_mergeAll :
    (mergeAll first rest).googleMapsUri = (lastWithMapsUri (first :: rest)).bind (·.googleMapsUri) := by
  have hlast : (mergeAll first rest).mapsUri =
      (first :: rest).reverse.findSome? Candidate.mapsUri :=
    foldl_overwrites mapsUri_mergeCandidates first rest
  have hfind : ∀ candidates : List Candidate, candidates.findSome? Candidate.mapsUri =
      (candidates.find? (·.hasMapsUri)).map (·.googleMapsUri) := by
    intro candidates
    induction candidates with
    | nil => rfl
    | cons c candidates ih =>
      by_cases h : c.hasMapsUri = true
      · have huri : c.mapsUri = some c.googleMapsUri := if_pos h
        rw [List.findSome?_cons, huri, List.find?_cons_of_pos h]
        rfl
      · have huri : c.mapsUri = none := if_neg h
        rw [List.findSome?_cons, huri, List.find?_cons_of_neg h]
        exact ih
  rw [Candidate.googleMapsUri_eq, hlast, hfind, lastWithMapsUri]
  cases (first :: rest).reverse.find? (·.hasMapsUri) <;> rfl

theorem coordinates_mergeAll : ((mergeAll first rest).HasRealCoordinates ↔
    ((first :: rest).getLast (List.cons_ne_nil first rest)).HasRealCoordinates) := by
  have hreplaces : ∀ a b, (mergeCandidates a b).HasRealCoordinates = b.HasRealCoordinates :=
    fun _ _ => rfl
  exact iff_of_eq (@foldl_replaces _ _ mergeCandidates (·.HasRealCoordinates) hreplaces first rest)

/-- What is kept from the first to know it is known where anybody knows it. -/
theorem isSome_mergeAll {β : Type} {f : Candidate → Option β}
    (h : ∀ a b, f (mergeCandidates a b) = (f a).or (f b))
    (hknown : ∃ c ∈ first :: rest, (f c).isSome) : (f (mergeAll first rest)).isSome :=
  (isSome_foldl_keeps h first rest).mpr hknown

theorem losesNothing_mergeAll_iff :
    LosesNothing (first :: rest) (mergeAll first rest) ↔ KnownLast (first :: rest) := by
  have huri := mapsUri_mergeAll first rest
  have hcoordinates := coordinates_mergeAll first rest
  have hlast : (first :: rest).getLast? =
      some ((first :: rest).getLast (List.cons_ne_nil first rest)) :=
    List.getLast?_eq_some_getLast _
  constructor
  · intro h
    refine ⟨fun hknown c hc => ?_, fun hknown c hc => ?_⟩
    · have hsome := h.googleMapsUri hknown
      rw [huri, Option.mem_def.mp hc, Option.bind_some] at hsome
      exact hsome
    · rw [hlast, Option.mem_some_iff] at hc
      exact hc ▸ hcoordinates.mp (h.coordinates hknown)
  · intro h
    refine ⟨fun hknown => ?_, isSome_mergeAll first rest fun _ _ => rfl,
      isSome_mergeAll first rest fun _ _ => rfl, isSome_mergeAll first rest fun _ _ => rfl,
      isSome_mergeAll first rest fun _ _ => rfl, isSome_mergeAll first rest fun _ _ => rfl,
      isSome_mergeAll first rest fun _ _ => rfl, fun hknown => ?_⟩
    · -- Whoever knows the link has the field, so somebody has it last.
      obtain ⟨c, hc, hsome⟩ := hknown
      have hfield : c.hasMapsUri = true := by
        by_contra hmissing
        rw [c.missing (by simpa using hmissing)] at hsome
        cases hsome
      have hfound : (lastWithMapsUri (first :: rest)).isSome :=
        List.find?_isSome.mpr ⟨c, List.mem_reverse.mpr hc, hfield⟩
      obtain ⟨last, hlastUri⟩ := Option.isSome_iff_exists.mp hfound
      rw [huri, hlastUri, Option.bind_some]
      exact h.googleMapsUri ⟨c, hc, hsome⟩ last hlastUri
    · exact hcoordinates.mpr (h.coordinates hknown _ hlast)

end run

/-! ## In the map -/

theorem upsertCandidate_eq (byId : OrderedMap String Candidate) (place : Candidate) :
    upsertCandidate byId place = if place.googlePlaceId = "" then byId
      else OrderedMap.mergeIn (fun c : Candidate => c.googlePlaceId) mergeCandidates byId place := by
  unfold upsertCandidate OrderedMap.mergeIn
  cases byId.get place.googlePlaceId <;> rfl

theorem upsertNearbyCandidate_eq (byId : OrderedMap String GooglePlaceSummary)
    (place : GooglePlaceSummary) :
    upsertNearbyCandidate byId place = if place.googlePlaceId = "" then byId
      else OrderedMap.mergeIn (·.googlePlaceId) mergeGooglePlaceSummaries byId place := by
  unfold upsertNearbyCandidate OrderedMap.mergeIn
  cases byId.get place.googlePlaceId <;> rfl

/-- What has no id is passed over; the rest is merged by its id. -/
theorem get_foldl_upsert {α : Type} {key : α → String} {merge : α → α → α}
    {upsert : OrderedMap String α → α → OrderedMap String α}
    (h : ∀ byId a, upsert byId a = if key a = "" then byId else OrderedMap.mergeIn key merge byId a)
    (places : List α) (byId : OrderedMap String α) {id : String} (hid : id ≠ "") :
    (places.foldl upsert byId).get id =
      (places.filter (key · = id)).foldl (mergeNext merge) (byId.get id) := by
  induction places generalizing byId with
  | nil => rfl
  | cons place places ih =>
    rw [List.foldl_cons, ih, h]
    by_cases hempty : key place = ""
    · have hother : ¬ key place = id := fun hsame => hid (hsame ▸ hempty)
      rw [if_pos hempty, List.filter_cons_of_neg (by simpa using hother)]
    · rw [if_neg hempty, OrderedMap.get_mergeIn]
      by_cases hsame : key place = id
      · rw [if_pos hsame, List.filter_cons_of_pos (by simpa using hsame), List.foldl_cons]
      · rw [if_neg hsame, List.filter_cons_of_neg (by simpa using hsame)]

theorem get_foldl_upsertCandidate (candidates : List Candidate) {id : String} (hid : id ≠ "") :
    (candidates.foldl upsertCandidate .empty).get id =
      (ofPlace id candidates).foldl (mergeNext mergeCandidates) none :=
  get_foldl_upsert upsertCandidate_eq candidates .empty hid

/-- Where every candidate sets its fields, as those of the pool do, the map is the pool's. -/
theorem summaries_foldl_upsertCandidate (candidates : List Candidate) {id : String} (hid : id ≠ "")
    (hset : ∀ c ∈ candidates, c.hasMapsUri = true) :
    ((candidates.foldl upsertCandidate .empty).get id).map (·.toGooglePlaceSummary) =
      ((candidates.map (·.toGooglePlaceSummary)).foldl upsertNearbyCandidate .empty).get id := by
  have hmerge : ∀ a, ∀ b ∈ ofPlace id candidates, (mergeCandidates a b).toGooglePlaceSummary =
      mergeGooglePlaceSummaries a.toGooglePlaceSummary b.toGooglePlaceSummary :=
    fun a b hb => mergeCandidates_eq a b (hset b (List.mem_filter.mp hb).1)
  have hfilter : (candidates.map (·.toGooglePlaceSummary)).filter (·.googlePlaceId = id) =
      (ofPlace id candidates).map (·.toGooglePlaceSummary) := List.filter_map
  rw [get_foldl_upsertCandidate candidates hid, map_foldl_mergeNext _ hmerge,
    get_foldl_upsert upsertNearbyCandidate_eq _ _ hid, hfilter]
  rfl

/-- Whatever candidates come in, in whatever order: the place they are merged to
knows all that one of them knows exactly when the last of them to have a link
field knows the link and the last of all knows the coordinates. -/
theorem merging_loses_nothing_iff (candidates : List Candidate) (id : String) (hid : id ≠ "")
    (hany : ∃ c ∈ candidates, c.googlePlaceId = id) :
    ∃ merged, (candidates.foldl upsertCandidate .empty).get id = some merged ∧
      (LosesNothing (ofPlace id candidates) merged ↔ KnownLast (ofPlace id candidates)) := by
  have hget := get_foldl_upsertCandidate candidates hid
  cases hplace : ofPlace id candidates with
  | nil =>
    obtain ⟨c, hc, hsame⟩ := hany
    have hmem : c ∈ ofPlace id candidates := List.mem_filter.mpr ⟨hc, by simpa using hsame⟩
    rw [hplace] at hmem
    cases hmem
  | cons first rest =>
    rw [hplace, foldl_mergeNext_none] at hget
    exact ⟨mergeAll first rest, hget, losesNothing_mergeAll_iff first rest⟩

/-! ## A café twice -/

def cafeOfGoogle : Candidate where
  googlePlaceId := "ChIJcafe"
  name := "Café"
  address := "San Martín 100"
  lat := -33
  lng := -61
  googleMapsUri := some "https://maps.google.com/?cid=1"

def storedCafe : PlaceRow where
  id := "cafe"
  name := "Café"
  address := "San Martín 100"
  city := "Rosario"
  sourcePlaceId := some "ChIJcafe"
  ratingExternal := some 4

/-- Google after the database keeps the link and the coordinates. -/
theorem google_after_database_loses_nothing : ∃ merged,
    ([Candidate.ofStored storedCafe, cafeOfGoogle].foldl upsertCandidate .empty).get "ChIJcafe" =
        some merged ∧
      LosesNothing [Candidate.ofStored storedCafe, cafeOfGoogle] merged := by
  obtain ⟨merged, hmerged, hiff⟩ := merging_loses_nothing_iff
    [Candidate.ofStored storedCafe, cafeOfGoogle] "ChIJcafe" (by decide)
    ⟨cafeOfGoogle, by simp, rfl⟩
  refine ⟨merged, hmerged, hiff.mpr ⟨fun _ c hc => ?_, fun _ c hc => ?_⟩⟩
  · cases hc
    rfl
  · cases hc
    decide

/-- The other way round both are lost. -/
theorem database_after_google_loses_both : ¬ ∀ (candidates : List Candidate) (merged : Candidate),
    (∀ c ∈ candidates, c.googlePlaceId = "ChIJcafe") →
      (candidates.foldl upsertCandidate .empty).get "ChIJcafe" = some merged →
        LosesNothing candidates merged := by
  intro hall
  have hlost := hall [cafeOfGoogle, Candidate.ofStored storedCafe]
    (mergeCandidates cafeOfGoogle (Candidate.ofStored storedCafe)) (by
      intro c hc
      simp only [List.mem_cons, List.not_mem_nil, or_false] at hc
      rcases hc with rfl | rfl <;> rfl) rfl
  have huri := hlost.googleMapsUri ⟨cafeOfGoogle, List.mem_cons_self, rfl⟩
  cases huri

end Feca.Places
