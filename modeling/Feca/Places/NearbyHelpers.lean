import Feca.Places.Curation

/-! # Candidates of a nearby list

The candidates are held by their Google ids, one for each. The curated places of
the city are merged into them, and after the ranking some are set in front once
more, straight from the database.
-/

namespace Feca.Places

open Collections Content Social

variable {α : Type}

/-! ## Limits -/

/-- How many entries `slice(0, limit)` leaves; a limit may have a fraction. -/
def slots (limit : Rat) : Nat := limit.floor.toNat

def sliceTo (limit : Rat) (xs : List α) : List α := xs.take (slots limit)

/-- `xs.length >= limit`. -/
def isFull (limit : Rat) (xs : List α) : Bool := decide (limit ≤ (xs.length : Rat))

theorem isFull_of_room {limit : Rat} {xs : List α} (h : xs.length < slots limit) :
    isFull limit xs = false := by
  have hfloor : ((slots limit : Nat) : Int) = limit.floor := by
    unfold slots at h ⊢
    omega
  have hle : (limit.floor : Rat) ≤ limit := Rat.floor_le limit
  have hlt : (xs.length : Rat) < ((slots limit : Nat) : Rat) := by exact_mod_cast h
  have hcast : ((slots limit : Nat) : Rat) = (limit.floor : Rat) := by exact_mod_cast hfloor
  unfold isFull
  simp only [decide_eq_false_iff_not, not_le]
  rw [hcast] at hlt
  exact lt_of_lt_of_le hlt hle

/-- How many entries a list has when it is full. -/
def capacity (limit : Rat) : Nat := limit.ceil.toNat

theorem le_natCast_iff {limit : Rat} {n : Nat} : limit ≤ (n : Rat) ↔ capacity limit ≤ n := by
  have hceil : limit.ceil ≤ (n : Int) ↔ limit ≤ ((n : Int) : Rat) := Rat.ceil_le_iff
  rw [Int.cast_natCast] at hceil
  rw [← hceil, capacity]
  omega

theorem capacity_natCast (n : Nat) : capacity (n : Rat) = n := by
  have hle := le_natCast_iff.mp (le_refl (n : Rat))
  have hge : (n : Rat) ≤ (capacity (n : Rat) : Rat) := le_natCast_iff.mpr (Nat.le_refl _)
  exact Nat.le_antisymm hle (by exact_mod_cast hge)

theorem isFull_iff {limit : Rat} {xs : List α} :
    isFull limit xs = true ↔ capacity limit ≤ xs.length := by
  rw [isFull, decide_eq_true_eq, le_natCast_iff]

theorem natCast_slots_le {limit : Rat} (h : 0 ≤ limit) : (slots limit : Rat) ≤ limit := by
  have hfloor : (0 : Int) ≤ limit.floor := Rat.le_floor_iff.mpr (by exact_mod_cast h)
  have hcast : ((slots limit : Nat) : Int) = limit.floor := by
    unfold slots
    omega
  have hle := Rat.floor_le limit
  rw [← hcast] at hle
  exact_mod_cast hle

theorem slots_le_capacity (limit : Rat) : slots limit ≤ capacity limit := by
  have hle : limit.floor ≤ limit.ceil := by
    have hbounds := (Rat.floor_le limit).trans (Rat.le_ceil (x := limit))
    exact_mod_cast hbounds
  unfold slots capacity
  omega

theorem capacity_le_slots_succ (limit : Rat) : capacity limit ≤ slots limit + 1 := by
  have hle : limit.ceil ≤ limit.floor + 1 := by
    rw [Rat.ceil_le_iff]
    exact (Rat.lt_floor_add_one limit).le
  unfold slots capacity
  omega

theorem natCast_le_iff {limit : Rat} (h : 0 ≤ limit) {n : Nat} :
    (n : Rat) ≤ limit ↔ n ≤ slots limit := by
  constructor
  · intro hle
    have hfloor : (n : Int) ≤ limit.floor := Rat.le_floor_iff.mpr (by exact_mod_cast hle)
    unfold slots
    omega
  · intro hle
    have hcast : (n : Rat) ≤ (slots limit : Rat) := by exact_mod_cast hle
    exact hcast.trans (natCast_slots_le h)

/-! ## Merging -/

/-- A stored place sets every field, and what was known before stays where it says more. -/
def mergeGooglePlaceSummaries (existing incoming : GooglePlaceSummary) : GooglePlaceSummary :=
  { incoming with
    photoUrl := existing.photoUrl.or incoming.photoUrl
    rating := existing.rating.or incoming.rating
    userRatingCount := existing.userRatingCount.or incoming.userRatingCount
    openNow := existing.openNow.or incoming.openNow
    openingWeekdayLines := existing.openingWeekdayLines.or incoming.openingWeekdayLines
    types := if existing.types.length > 0 then existing.types else incoming.types
    primaryType := existing.primaryType.or incoming.primaryType }

def upsertNearbyCandidate (byId : OrderedMap String GooglePlaceSummary)
    (place : GooglePlaceSummary) : OrderedMap String GooglePlaceSummary :=
  if place.googlePlaceId = "" then byId
  else
    match byId.get place.googlePlaceId with
    | none => byId.set place.googlePlaceId place
    | some previous => byId.set place.googlePlaceId (mergeGooglePlaceSummaries previous place)

def withNormalizedId (place : GooglePlaceSummary) : GooglePlaceSummary :=
  { place with googlePlaceId := normalizeGooglePlaceId place.googlePlaceId }

theorem withNormalizedId_id (place : GooglePlaceSummary) :
    (withNormalizedId place).googlePlaceId = normalizeGooglePlaceId place.googlePlaceId := by
  rw [withNormalizedId]

/-- The candidates by their normalized ids; a later one replaces an earlier. -/
def byNormalizedId (candidates : List GooglePlaceSummary) : OrderedMap String GooglePlaceSummary :=
  candidates.foldl (fun byId place =>
    if place.googlePlaceId = "" then byId
    else byId.set (normalizeGooglePlaceId place.googlePlaceId) (withNormalizedId place)) .empty

/-- `row.isCityPick || row.boostScore > 0 || row.showRecommendedBadge`. -/
def shouldInject (row : CurationRow) : Bool :=
  row.isCityPick || decide (row.boostScore > 0) || row.showRecommendedBadge

/-- The place of a row as a candidate, where it has a Google id. -/
def CurationRow.candidate (row : CurationRow) : Option GooglePlaceSummary :=
  row.googlePlaceId.map fun googlePlaceId =>
    { mapStoredPlaceToNearby row.place with googlePlaceId }

def mergeCuration (byId : OrderedMap String GooglePlaceSummary) (row : CurationRow) :
    OrderedMap String GooglePlaceSummary :=
  match row.candidate with
  | none => byId
  | some place => if shouldInject row then upsertNearbyCandidate byId place else byId

def mergeCityCurationsIntoNearbyCandidates (candidates : List GooglePlaceSummary)
    (curationRows : List CurationRow) : List GooglePlaceSummary :=
  (curationRows.foldl mergeCuration (byNormalizedId candidates)).values

/-! ## In front of the ranking -/

def hasId (googlePlaceId : String) (places : List GooglePlaceSummary) : Bool :=
  places.any (·.googlePlaceId == googlePlaceId)

/-- The same place twice is listed once, at its first position. -/
def pushNew (places : List GooglePlaceSummary) (place : GooglePlaceSummary) :
    List GooglePlaceSummary :=
  if hasId place.googlePlaceId places then places else places ++ [place]

/-- One turn of the loop over the rows; a full list stays as it is. -/
def forcePlace (limit : Rat) (forced : List GooglePlaceSummary) (row : CurationRow) :
    List GooglePlaceSummary :=
  if isFull limit forced then forced
  else
    match row.candidate with
    | none => forced
    | some place => pushNew forced place

def forcedPlaces (curationRows : List CurationRow) (limit : Rat) : List GooglePlaceSummary :=
  ((curationRows.filter shouldInject).insertionSort strongerOrNewerCuration).foldl
    (forcePlace limit) []

/-- `front`, and what of `rest` is not in it. -/
def inFront (front rest : List GooglePlaceSummary) : List GooglePlaceSummary :=
  front ++ rest.filter fun place => !hasId place.googlePlaceId front

def prependAdminCuratedPlaces (ranked : List GooglePlaceSummary) (curationRows : List CurationRow)
    (limit : Rat) : List GooglePlaceSummary :=
  sliceTo limit (inFront (forcedPlaces curationRows limit) ranked)

theorem hasId_iff {id : String} {places : List GooglePlaceSummary} :
    hasId id places = true ↔ ∃ place ∈ places, place.googlePlaceId = id := by
  simp [hasId]

/-- A stored place says nothing about its opening now. -/
theorem CurationRow.candidate_openNow {row : CurationRow} {place : GooglePlaceSummary}
    (h : row.candidate = some place) : place.openNow = none := by
  obtain ⟨id, _, rfl⟩ := Option.map_eq_some_iff.mp h
  rfl

theorem mem_forcePlace {limit : Rat} {forced : List GooglePlaceSummary} {row : CurationRow}
    {place : GooglePlaceSummary} (h : place ∈ forcePlace limit forced row) :
    place ∈ forced ∨ row.candidate = some place := by
  unfold forcePlace at h
  by_cases hfull : isFull limit forced = true
  · rw [if_pos hfull] at h
    exact .inl h
  rw [if_neg hfull] at h
  cases hrow : row.candidate with
  | none =>
    rw [hrow] at h
    exact .inl h
  | some candidate =>
    rw [hrow] at h
    dsimp only at h
    unfold pushNew at h
    by_cases hhas : hasId candidate.googlePlaceId forced = true
    · rw [if_pos hhas] at h
      exact .inl h
    · rw [if_neg hhas] at h
      cases List.mem_append.mp h with
      | inl hold => exact .inl hold
      | inr hnew => exact .inr (by rw [List.mem_singleton.mp hnew])

/-- A forced place is that of an injected row. -/
theorem mem_forcedPlaces {curationRows : List CurationRow} {limit : Rat}
    {place : GooglePlaceSummary} (h : place ∈ forcedPlaces curationRows limit) :
    ∃ row ∈ curationRows, shouldInject row = true ∧ row.candidate = some place := by
  have hfold : ∀ (rows : List CurationRow) (forced : List GooglePlaceSummary),
      place ∈ rows.foldl (forcePlace limit) forced →
        place ∈ forced ∨ ∃ row ∈ rows, row.candidate = some place := by
    intro rows
    induction rows with
    | nil => exact fun forced hmem => .inl hmem
    | cons row rows ih =>
      intro forced hmem
      cases ih _ hmem with
      | inl hforced =>
        cases mem_forcePlace hforced with
        | inl hold => exact .inl hold
        | inr hrow => exact .inr ⟨row, List.mem_cons_self, hrow⟩
      | inr hlater =>
        obtain ⟨later, hlater, hcandidate⟩ := hlater
        exact .inr ⟨later, List.mem_cons_of_mem row hlater, hcandidate⟩
  cases hfold _ _ h with
  | inl hnil => cases hnil
  | inr hrow =>
    obtain ⟨row, hrow, hcandidate⟩ := hrow
    have hmem := List.mem_filter.mp ((List.mem_insertionSort _).mp hrow)
    exact ⟨row, hmem.1, hmem.2, hcandidate⟩

end Feca.Places
