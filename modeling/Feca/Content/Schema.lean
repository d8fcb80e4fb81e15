import Feca.Social.Permissions

/-! # Visits, saves and diaries

What users keep of their outings. The services read it together with users,
follows and places, so its tables stand beside those of the groups; the columns
of users and places that only these services read are kept by row id.
-/

namespace Feca.Content

open Concurrency Concurrency.Prog Relational Social

inductive VisitWouldReturn
  | yes
  | maybe
  | no
  deriving DecidableEq, Repr

inductive GuideVisibility
  | «private»
  | unlisted
  | «public»
  deriving DecidableEq, Repr

inductive PlaceSource
  | google
  | manual
  deriving DecidableEq, Repr

structure Visit where
  id : Id
  placeId : Id
  userId : Id
  rating : Int
  note : String := ""
  tags : List String := []
  orderedItems : Option String := none
  wouldReturn : Option VisitWouldReturn := none
  noiseLevel : Option Int := none
  wifiQuality : Option Int := none
  waitLevel : Option Int := none
  priceTier : Option Int := none
  photoUrls : List String := []
  placeDetailTags : List String := []
  hasParking : Option Bool := none
  petFriendly : Option Bool := none
  visitedAt : Date
  createdAt : Date
  deriving DecidableEq, Repr

structure PlaceSave where
  id : Id
  userId : Id
  placeId : Id
  reason : Option String := none
  createdAt : Date
  deriving DecidableEq, Repr

structure Diary where
  id : Id
  name : String
  description : Option String := none
  createdById : Id
  intro : Option String := none
  editorialReason : Option String := none
  coverImageUrl : Option String := none
  visibility : GuideVisibility := .«private»
  publishedAt : Option Date := none
  featuredCityId : Option Id := none
  createdAt : Date
  deriving DecidableEq, Repr

structure DiaryPlace where
  id : Id
  diaryId : Id
  placeId : Id
  position : Int := 0
  note : Option String := none
  createdAt : Date
  deriving DecidableEq, Repr

structure PlaceCuration where
  id : Id
  placeId : Id
  cityId : Option Id := none
  boostScore : Int := 0
  isCityPick : Bool := false
  active : Bool := true
  showRecommendedBadge : Bool := false
  expiresAt : Option Date := none
  updatedAt : Date
  deriving DecidableEq, Repr

/-- `@id` on `Visit`. -/
instance : UniqueColumns Visit where
  conflicts a b := a.id == b.id
  conflicts_self _ := by simp
  conflicts_symm a b := by rw [BEq.comm (a := a.id)]

/-- `@id` and `@@unique([userId, placeId])` on `PlaceSave`. -/
instance : UniqueColumns PlaceSave where
  conflicts a b := a.id == b.id || (a.userId == b.userId && a.placeId == b.placeId)
  conflicts_self _ := by simp
  conflicts_symm a b := by
    rw [BEq.comm (a := a.id), BEq.comm (a := a.userId), BEq.comm (a := a.placeId)]

/-- `@id` on `Diary`. -/
instance : UniqueColumns Diary where
  conflicts a b := a.id == b.id
  conflicts_self _ := by simp
  conflicts_symm a b := by rw [BEq.comm (a := a.id)]

/-- `@id` and `@@unique([diaryId, placeId])` on `DiaryPlace`. -/
instance : UniqueColumns DiaryPlace where
  conflicts a b := a.id == b.id || (a.diaryId == b.diaryId && a.placeId == b.placeId)
  conflicts_self _ := by simp
  conflicts_symm a b := by
    rw [BEq.comm (a := a.id), BEq.comm (a := a.diaryId), BEq.comm (a := a.placeId)]

/-- `@id` and `@@unique([placeId, cityId])` on `PlaceCuration`: rows without a
city never clash. -/
instance : UniqueColumns PlaceCuration where
  conflicts a b := a.id == b.id || (a.placeId == b.placeId && a.cityId == b.cityId &&
    a.cityId.isSome && b.cityId.isSome)
  conflicts_self _ := by simp
  conflicts_symm a b := by
    rw [BEq.comm (a := a.id), BEq.comm (a := a.placeId), BEq.comm (a := a.cityId), Bool.and_assoc,
      Bool.and_assoc, Bool.and_comm a.cityId.isSome]
    simp only [Bool.and_assoc]

/-! ## The store -/

/-- The columns of a place that groups and plans do not read. -/
structure PlaceColumns where
  source : PlaceSource := .google
  sourcePlaceId : Option String := none
  categories : List String := []
  ratingExternal : Option Rat := none
  ratingCountExternal : Option Int := none
  openingHours : List String := []
  googleMapsUri : Option String := none
  hiddenFromApp : Bool := false
  updatedAt : Date := 0
  deriving DecidableEq, Repr, Inhabited

/-- The ids of users are generated, so none is empty; a source id names one place. -/
structure ContentDb extends SocialDb where
  tastePreferenceIds : Id → List String
  isEditor : Id → Bool
  placeColumns : Id → PlaceColumns
  visits : Table Visit
  saves : Table PlaceSave
  diaries : Table Diary
  diaryPlaces : Table DiaryPlace
  curations : Table PlaceCuration := .empty
  user_id : ∀ u ∈ users.rows, u.id ≠ ""
  place_source : ∀ p ∈ places.rows, ∀ q ∈ places.rows, ∀ sourcePlaceId,
    (placeColumns p.id).sourcePlaceId = some sourcePlaceId →
      (placeColumns q.id).sourcePlaceId = some sourcePlaceId → p = q
  visit_place : ∀ v ∈ visits.rows, ∃ p ∈ places.rows, p.id = v.placeId
  visit_user : ∀ v ∈ visits.rows, ∃ u ∈ users.rows, u.id = v.userId
  save_user : ∀ v ∈ saves.rows, ∃ u ∈ users.rows, u.id = v.userId
  diary_creator : ∀ d ∈ diaries.rows, ∃ u ∈ users.rows, u.id = d.createdById
  entry_diary : ∀ e ∈ diaryPlaces.rows, ∃ d ∈ diaries.rows, d.id = e.diaryId
  curation_place : ∀ c ∈ curations.rows, ∃ p ∈ places.rows, p.id = c.placeId := by simp

theorem no_entry_diary : ∀ e ∈ (.empty : Table DiaryPlace).rows,
    ∃ d ∈ (.empty : Table Diary).rows, d.id = e.diaryId := by simp

/-- A store without visits, saves and diaries, and with at most one place. -/
def ContentDb.ofSocial (s : SocialDb) (columns : PlaceColumns)
    (huser : ∀ u ∈ s.users.rows, u.id ≠ "")
    (hplace : ∀ p ∈ s.places.rows, ∀ q ∈ s.places.rows, p = q) : ContentDb where
  toSocialDb := s
  tastePreferenceIds _ := []
  isEditor _ := false
  placeColumns _ := columns
  visits := .empty
  saves := .empty
  diaries := .empty
  diaryPlaces := .empty
  user_id := huser
  place_source p hp q hq _ _ _ := hplace p hp q hq
  visit_place := by simp
  visit_user := by simp
  save_user := by simp
  diary_creator := by simp
  entry_diary := no_entry_diary

/-! ## Joins -/

/-- A user with the columns the content services read, and
`include: { settings: true }`. -/
structure UserRow extends User where
  tastePreferenceIds : List String
  isEditor : Bool
  settings : Option UserSettings
  deriving DecidableEq, Repr

structure PlaceRow extends Place, PlaceColumns
  deriving DecidableEq, Repr

/-- `visitInclude`. -/
structure VisitWithRelations extends Visit where
  place : PlaceRow
  user : UserRow
  deriving DecidableEq, Repr

namespace ContentDb

variable (s : ContentDb)

def userRow (u : User) : UserRow :=
  { u with
    tastePreferenceIds := s.tastePreferenceIds u.id
    isEditor := s.isEditor u.id
    settings := s.settingsOf u.id }

def placeRow (p : Place) : PlaceRow := { p, s.placeColumns p.id with }

/-- `user.findUnique`. -/
def findUserRow (id : Id) : Option UserRow := (s.findUser id).map s.userRow

/-- `place.findUnique`. -/
def findPlaceRow (id : Id) : Option PlaceRow :=
  (s.places.rows.find? (·.id == id)).map s.placeRow

def visitWithRelations (v : Visit) : Option VisitWithRelations :=
  (s.findPlaceRow v.placeId).bind fun place =>
    (s.findUserRow v.userId).map fun user => { v with place, user }

def visitsWithRelations : List VisitWithRelations := s.visits.rows.filterMap s.visitWithRelations

end ContentDb

/-- `orderBy: [{ visitedAt: "desc" }, { createdAt: "desc" }]`. -/
def newerVisit (a b : VisitWithRelations) : Prop :=
  b.visitedAt < a.visitedAt ∨ (a.visitedAt = b.visitedAt ∧ b.createdAt ≤ a.createdAt)

instance : DecidableRel newerVisit := fun a b => by
  unfold newerVisit
  infer_instance

/-- `visit.findMany` with `visitInclude`, newest first. -/
def ContentDb.findVisits (s : ContentDb) (p : VisitWithRelations → Bool) :
    List VisitWithRelations :=
  (s.visitsWithRelations.filter p).insertionSort newerVisit

/-- `visit.count`. -/
def ContentDb.countVisits (s : ContentDb) (p : VisitWithRelations → Bool) : Nat :=
  (s.visitsWithRelations.filter p).length

namespace ContentDb

variable {s : ContentDb}

/-! What the joins keep. -/

theorem findUserRow_isSome {id : Id} (h : ∃ u ∈ s.users.rows, u.id = id) :
    (s.findUserRow id).isSome := by
  obtain ⟨u, hu, hid⟩ := h
  have hfind : (s.findUser id).isSome :=
    List.find?_isSome.mpr ⟨u, hu, by simpa using hid⟩
  simpa [findUserRow] using hfind

theorem findUserRow_some {id : Id} {u : UserRow} (h : s.findUserRow id = some u) :
    u.toUser ∈ s.users.rows ∧ u.id = id ∧ u.settings = s.settingsOf id := by
  obtain ⟨x, hx, rfl⟩ := Option.map_eq_some_iff.mp h
  have hid : x.id = id := by simpa using List.find?_some hx
  exact ⟨List.mem_of_find?_eq_some hx, hid, congrArg s.settingsOf hid⟩

/-- A visit read with its relations is a stored one, with its author and place. -/
theorem visitWithRelations_some {v : Visit} {w : VisitWithRelations}
    (h : s.visitWithRelations v = some w) : w.toVisit = v ∧
      s.findPlaceRow v.placeId = some w.place ∧ s.findUserRow v.userId = some w.user := by
  obtain ⟨place, hplace, hrest⟩ := Option.bind_eq_some_iff.mp h
  obtain ⟨user, huser, rfl⟩ := Option.map_eq_some_iff.mp hrest
  exact ⟨rfl, hplace, huser⟩

theorem mem_findVisits {p : VisitWithRelations → Bool} {w : VisitWithRelations} :
    w ∈ s.findVisits p ↔ w ∈ s.visitsWithRelations ∧ p w = true := by
  rw [findVisits, List.mem_insertionSort, List.mem_filter]

theorem length_findVisits (p : VisitWithRelations → Bool) :
    (s.findVisits p).length = s.countVisits p := by
  rw [findVisits, List.length_insertionSort, countVisits]

theorem ids_visitsWithRelations (s : ContentDb) : (s.visitsWithRelations.map (·.id)).Nodup := by
  have hids : (s.visits.rows.map (·.id)).Nodup := by
    rw [List.Nodup, List.pairwise_map]
    refine s.visits.distinct.imp fun {a b} hab hid => ?_
    simp [conflicts, hid] at hab
  have hsub : (s.visitsWithRelations.map (·.id)).Sublist (s.visits.rows.map (·.id)) := by
    rw [visitsWithRelations]
    induction s.visits.rows with
    | nil => exact List.Sublist.refl _
    | cons v vs ih =>
        cases hv : s.visitWithRelations v with
        | none =>
            rw [List.filterMap_cons_none hv]
            exact ih.cons _
        | some w =>
            have hid : w.id = v.id := congrArg Visit.id (visitWithRelations_some hv).1
            rw [List.filterMap_cons_some hv, List.map_cons, List.map_cons, hid]
            exact ih.cons_cons _
  exact hids.sublist hsub

theorem nodup_findVisits (p : VisitWithRelations → Bool) :
    ((s.findVisits p).map (·.id)).Nodup := by
  have hsub : ((s.visitsWithRelations.filter p).map (·.id)).Sublist
      (s.visitsWithRelations.map (·.id)) := List.filter_sublist.map _
  have hperm := (List.perm_insertionSort newerVisit (s.visitsWithRelations.filter p)).map (·.id)
  exact hperm.nodup_iff.mpr ((ids_visitsWithRelations s).sublist hsub)

end ContentDb

/-! ## Requests -/

/-- A request of the content services. -/
abbrev ContentProg := Prog ContentDb Empty Failure

theorem upsertSettings_eq {s t : SocialDb} {row : UserSettings}
    (h : s.upsertSettings row = .ok t) : t = { s with settings := t.settings } := by
  unfold SocialDb.upsertSettings at h
  split at h
  · cases h
    rfl
  · split at h
    · split at h
      · cases h
      · cases h
        rfl
    · cases h

/-- `userSettings.upsert` with an empty update. -/
def ContentDb.upsertSettings (s : ContentDb) (row : UserSettings) : Except Thrown ContentDb :=
  match h : s.toSocialDb.upsertSettings row with
  | .error e => .error e
  | .ok t => .ok
      { s with
        toSocialDb := t
        user_id := by rw [upsertSettings_eq h]; exact s.user_id
        place_source := by rw [upsertSettings_eq h]; exact s.place_source
        visit_place := by rw [upsertSettings_eq h]; exact s.visit_place
        visit_user := by rw [upsertSettings_eq h]; exact s.visit_user
        save_user := by rw [upsertSettings_eq h]; exact s.save_user
        diary_creator := by rw [upsertSettings_eq h]; exact s.diary_creator
        curation_place := by rw [upsertSettings_eq h]; exact s.curation_place }

end Feca.Content
