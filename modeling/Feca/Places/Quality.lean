import Feca.Content.FeedPaging
import Feca.Places.Radar
import Feca.Places.Scores

/-! # What the visitors make of a place

`getFecaQualityByGooglePlaceIds` sums up every visit to a place. Few visits exclude
nothing; behind the second one, praise never makes them exclude a place from the home
lists, and a bad word never brings it back. Its score is another matter: three stars
may lower that, and the place with it.
-/

namespace Feca.Places

open Collections Content Social

/-- What the visits to a place come to. -/
def visitStats (visits : List Visit) : FecaPlaceQualityStats where
  visitCount := visits.length
  avgRating :=
    if 0 < visits.length then some (((visits.map (·.rating)).sum : Int) / visits.length) else none
  wouldReturnYesCount := visits.countP fun visit => visit.wouldReturn == some .yes
  wouldReturnNoCount := visits.countP fun visit => visit.wouldReturn == some .no

def visitsTo (s : ContentDb) (placeId : Id) : List Visit :=
  s.visits.rows.filter (·.placeId == placeId)

def placesFrom (s : ContentDb) (sourcePlaceIds : List String) : List PlaceRow :=
  (s.places.rows.map s.placeRow).filter (sourcePlaceIdIn sourcePlaceIds)

def getFecaQualityByGooglePlaceIds (s : ContentDb) (googlePlaceIds : List String) :
    OrderedMap String FecaPlaceQualityStats :=
  if googlePlaceIds.length = 0 then .empty
  else
    setEach (fun place : PlaceRow => place.sourcePlaceId.bind orNull)
      (fun place => visitStats (visitsTo s place.id)) .empty (placesFrom s googlePlaceIds)

/-! ## The map of every store -/

section store

variable {s : ContentDb} {ids : List String} {googlePlaceId : String}

/-- The place of an id, from any source. -/
def placeOfSourceId (s : ContentDb) (sourcePlaceId : String) : Option PlaceRow :=
  (s.places.rows.map s.placeRow).find? fun place => place.sourcePlaceId == some sourcePlaceId

theorem placeOfSourceId_some {row : PlaceRow} (h : placeOfSourceId s googlePlaceId = some row) :
    (∃ p ∈ s.places.rows, s.placeRow p = row) ∧ row.sourcePlaceId = some googlePlaceId := by
  refine ⟨List.mem_map.mp (List.mem_of_find?_eq_some h), ?_⟩
  have hid := List.find?_some h
  simpa using hid

theorem placeRow_eq_of_sourceId {p q : Place} (hp : p ∈ s.places.rows) (hq : q ∈ s.places.rows)
    (hid : (s.placeRow p).sourcePlaceId = some googlePlaceId)
    (hid' : (s.placeRow q).sourcePlaceId = some googlePlaceId) : s.placeRow p = s.placeRow q := by
  rw [s.place_source p hp q hq googlePlaceId hid hid']

theorem mem_placesFrom {row : PlaceRow} : row ∈ placesFrom s ids ↔
    (∃ p ∈ s.places.rows, s.placeRow p = row) ∧ ∃ id ∈ ids, row.sourcePlaceId = some id := by
  unfold placesFrom sourcePlaceIdIn
  cases hsource : row.sourcePlaceId with
  | none => simp [hsource]
  | some id => simp [hsource]

/-- A place asked for has what all its visits come to, and nothing else has anything. -/
theorem get_quality : (getFecaQualityByGooglePlaceIds s ids).get googlePlaceId =
    if googlePlaceId ∈ ids ∧ googlePlaceId ≠ "" then
      (placeOfSourceId s googlePlaceId).map fun place => visitStats (visitsTo s place.id)
    else none := by
  unfold getFecaQualityByGooglePlaceIds
  by_cases hnone : ids.length = 0
  · rw [List.length_eq_zero_iff.mp hnone]
    simp
  rw [if_neg hnone]
  by_cases hasked : googlePlaceId ∈ ids ∧ googlePlaceId ≠ ""
  · rw [if_pos hasked]
    cases hfound : placeOfSourceId s googlePlaceId with
    | none =>
      apply get_setEach_of_absent
      intro row hrow hkey
      obtain ⟨hstored, -⟩ := mem_placesFrom.mp hrow
      have hno := List.find?_eq_none.mp hfound row (List.mem_map.mpr hstored)
      rw [eq_some_of_bind_orNull hkey] at hno
      simp at hno
    | some row =>
      obtain ⟨hstored, hid⟩ := placeOfSourceId_some hfound
      have hmem : row ∈ placesFrom s ids := mem_placesFrom.mpr ⟨hstored, _, hasked.1, hid⟩
      have hkey : (fun place : PlaceRow => place.sourcePlaceId.bind orNull) row =
          some googlePlaceId := by
        show row.sourcePlaceId.bind orNull = some googlePlaceId
        rw [hid]
        exact if_neg hasked.2
      refine get_setEach_of_unique _ _ hmem hkey ?_
      intro other hother hotherKey
      obtain ⟨⟨q, hq, rfl⟩, -⟩ := mem_placesFrom.mp hother
      obtain ⟨p, hp, rfl⟩ := hstored
      rw [placeRow_eq_of_sourceId hq hp (eq_some_of_bind_orNull hotherKey) hid]
  · rw [if_neg hasked]
    apply get_setEach_of_absent
    intro row hrow hkey
    obtain ⟨-, id, hid, hsource⟩ := mem_placesFrom.mp hrow
    have hsame := eq_some_of_bind_orNull hkey
    rw [hsource] at hsame
    cases hsame
    refine hasked ⟨hid, ?_⟩
    rintro rfl
    rw [hsource] at hkey
    cases hkey

end store

/-! ## Exclusion -/

section exclusion

variable {visits more : List Visit}

def totalRating (visits : List Visit) : Int := (visits.map (·.rating)).sum

/-- What the visits to an excluded place are like. -/
def Disliked (visits : List Visit) : Prop :=
  2 ≤ visits.length ∧ (2 * totalRating visits < 5 * visits.length ∨
    (3 ≤ (visitStats visits).wouldReturnNoCount ∧
      (visitStats visits).wouldReturnYesCount * 2 < (visitStats visits).wouldReturnNoCount))

theorem lowAverage_iff (hpos : 0 < visits.length) :
    ((totalRating visits : Rat) / visits.length < 5 / 2) ↔
      2 * totalRating visits < 5 * visits.length := by
  have hlength : (0 : Rat) < visits.length := by exact_mod_cast hpos
  rw [div_lt_div_iff₀ hlength (by norm_num)]
  constructor
  · intro h
    have hcast : ((2 * totalRating visits : Int) : Rat) < ((5 * visits.length : Int) : Rat) := by
      push_cast
      linarith
    exact_mod_cast hcast
  · intro h
    have hcast : ((2 * totalRating visits : Int) : Rat) < ((5 * visits.length : Int) : Rat) := by
      exact_mod_cast h
    push_cast at hcast
    linarith

theorem shouldExclude_iff :
    shouldExcludeByFecaQuality (some (visitStats visits)) = true ↔ Disliked visits := by
  unfold shouldExcludeByFecaQuality Disliked
  by_cases hmany : 2 ≤ visits.length
  · have hpos : 0 < visits.length := by omega
    have havg : (visitStats visits).avgRating = some ((totalRating visits : Rat) / visits.length) :=
      if_pos hpos
    have hcount : (visitStats visits).visitCount = visits.length := rfl
    simp only [Option.any_some, havg, hcount, Bool.and_eq_true, Bool.or_eq_true, decide_eq_true_eq,
      lowAverage_iff hpos, Bool.not_eq_true', decide_eq_false_iff_not, not_lt]
  · have hcount : (visitStats visits).visitCount = visits.length := rfl
    simp only [Option.any_some, hcount, Bool.and_eq_true, Bool.not_eq_true', decide_eq_false_iff_not,
      not_lt]
    exact ⟨fun h => absurd h.1 hmany, fun h => absurd h.1 hmany⟩

/-- A good word, and none against it. -/
def Praises (visit : Visit) : Prop := 3 ≤ visit.rating ∧ visit.wouldReturn ≠ some .no

/-- A bad word, and none for it. -/
def Pans (visit : Visit) : Prop := visit.rating ≤ 2 ∧ visit.wouldReturn ≠ some .yes

theorem totalRating_append : totalRating (visits ++ more) = totalRating visits + totalRating more := by
  unfold totalRating
  rw [List.map_append, List.sum_append]

theorem le_totalRating_of_praises (h : ∀ visit ∈ more, Praises visit) :
    3 * (more.length : Int) ≤ totalRating more := by
  induction more with
  | nil => simp [totalRating]
  | cons visit more ih =>
    have hfirst := (h visit List.mem_cons_self).1
    have hrest := ih fun v hv => h v (List.mem_cons_of_mem visit hv)
    unfold totalRating at hrest ⊢
    rw [List.map_cons, List.sum_cons, List.length_cons]
    push_cast
    linarith

theorem totalRating_le_of_pans (h : ∀ visit ∈ more, Pans visit) :
    totalRating more ≤ 2 * (more.length : Int) := by
  induction more with
  | nil => simp [totalRating]
  | cons visit more ih =>
    have hfirst := (h visit List.mem_cons_self).1
    have hrest := ih fun v hv => h v (List.mem_cons_of_mem visit hv)
    unfold totalRating at hrest ⊢
    rw [List.map_cons, List.sum_cons, List.length_cons]
    push_cast
    linarith

theorem countP_append_of_none {p : Visit → Bool} (h : ∀ visit ∈ more, p visit = false) :
    (visits ++ more).countP p = visits.countP p := by
  have hnone : more.countP p = 0 := List.countP_eq_zero.mpr fun visit hmem => by simp [h visit hmem]
  rw [List.countP_append, hnone, Nat.add_zero]

/-- Praise excludes no place that has been visited twice. -/
theorem disliked_of_praised (h : ∀ visit ∈ more, Praises visit) (hmany : 2 ≤ visits.length)
    (hdisliked : Disliked (visits ++ more)) : Disliked visits := by
  have hno : (visitStats (visits ++ more)).wouldReturnNoCount =
      (visitStats visits).wouldReturnNoCount :=
    countP_append_of_none fun visit hmem => by simpa using (h visit hmem).2
  have hyes : (visitStats visits).wouldReturnYesCount ≤
      (visitStats (visits ++ more)).wouldReturnYesCount := by
    show visits.countP _ ≤ (visits ++ more).countP _
    rw [List.countP_append]
    exact Nat.le_add_right _ _
  obtain ⟨-, hlow | ⟨hthree, htwice⟩⟩ := hdisliked
  · refine ⟨hmany, .inl ?_⟩
    have hpraise := le_totalRating_of_praises h
    rw [totalRating_append, List.length_append] at hlow
    push_cast at hlow
    omega
  · rw [hno] at hthree htwice
    exact ⟨hmany, .inr ⟨hthree, by omega⟩⟩

/-- A bad word takes no place back in. -/
theorem disliked_of_panned (h : ∀ visit ∈ more, Pans visit) (hdisliked : Disliked visits) :
    Disliked (visits ++ more) := by
  have hyes : (visitStats (visits ++ more)).wouldReturnYesCount =
      (visitStats visits).wouldReturnYesCount :=
    countP_append_of_none fun visit hmem => by simpa using (h visit hmem).2
  have hno : (visitStats visits).wouldReturnNoCount ≤
      (visitStats (visits ++ more)).wouldReturnNoCount := by
    show visits.countP _ ≤ (visits ++ more).countP _
    rw [List.countP_append]
    exact Nat.le_add_right _ _
  obtain ⟨hmany, hwhy⟩ := hdisliked
  have hmany' : 2 ≤ (visits ++ more).length := by
    rw [List.length_append]
    omega
  rcases hwhy with hlow | ⟨hthree, htwice⟩
  · refine ⟨hmany', .inl ?_⟩
    have hpan := totalRating_le_of_pans h
    rw [totalRating_append, List.length_append]
    push_cast
    omega
  · refine ⟨hmany', .inr ?_⟩
    rw [hyes]
    exact ⟨by omega, by omega⟩

end exclusion

/-! ## Visits that come in -/

/-- The same places, with more visits. -/
structure VisitsAdded (s s' : ContentDb) (added : List Visit) : Prop where
  places : s'.places.rows = s.places.rows
  columns : s'.placeColumns = s.placeColumns
  visits : s'.visits.rows = s.visits.rows ++ added

/-- The home lists leave the place out for what its visitors say. -/
def isExcludedByVisitors (s : ContentDb) (googlePlaceIds : List String) (googlePlaceId : String) :
    Bool :=
  shouldExcludeByFecaQuality ((getFecaQualityByGooglePlaceIds s googlePlaceIds).get googlePlaceId)

theorem isExcludedByVisitors_iff {s : ContentDb} {ids : List String} {googlePlaceId : String}
    {place : PlaceRow} (hplace : placeOfSourceId s googlePlaceId = some place) :
    isExcludedByVisitors s ids googlePlaceId = true ↔
      (googlePlaceId ∈ ids ∧ googlePlaceId ≠ "") ∧ Disliked (visitsTo s place.id) := by
  unfold isExcludedByVisitors
  rw [get_quality]
  by_cases hasked : googlePlaceId ∈ ids ∧ googlePlaceId ≠ ""
  · rw [if_pos hasked, hplace, Option.map_some, shouldExclude_iff]
    exact ⟨fun h => ⟨hasked, h⟩, And.right⟩
  · rw [if_neg hasked]
    constructor
    · intro h
      cases h
    · intro h
      exact absurd h.1 hasked

section added

variable {s s' : ContentDb} {added : List Visit}

theorem VisitsAdded.placeOfSourceId (h : VisitsAdded s s' added) (sourcePlaceId : String) :
    placeOfSourceId s' sourcePlaceId = placeOfSourceId s sourcePlaceId := by
  have hrow : s'.placeRow = s.placeRow := by
    funext p
    unfold ContentDb.placeRow
    rw [h.columns]
  unfold Places.placeOfSourceId
  rw [h.places, hrow]

theorem VisitsAdded.visitsTo (h : VisitsAdded s s' added) (placeId : Id) :
    visitsTo s' placeId = visitsTo s placeId ++ added.filter (·.placeId == placeId) := by
  unfold Places.visitsTo
  rw [h.visits, List.filter_append]

end added

/-- For every store, and any visits that come in: behind the second visit, praise makes the
visitors exclude no place; and where all speak against it, none they exclude comes back. -/
theorem praise_never_excludes (s s' : ContentDb) (added : List Visit) (h : VisitsAdded s s' added)
    (ids : List String) (googlePlaceId : String) (place : PlaceRow)
    (hplace : placeOfSourceId s googlePlaceId = some place) :
    ((∀ visit ∈ added, visit.placeId = place.id → Praises visit) →
      2 ≤ (visitsTo s place.id).length →
      isExcludedByVisitors s' ids googlePlaceId = true →
        isExcludedByVisitors s ids googlePlaceId = true) ∧
    ((∀ visit ∈ added, visit.placeId = place.id → Pans visit) →
      isExcludedByVisitors s ids googlePlaceId = true →
        isExcludedByVisitors s' ids googlePlaceId = true) := by
  have hplace' : placeOfSourceId s' googlePlaceId = some place := by
    rw [h.placeOfSourceId, hplace]
  rw [isExcludedByVisitors_iff hplace, isExcludedByVisitors_iff hplace', h.visitsTo]
  have hthere : ∀ visit ∈ added.filter (·.placeId == place.id),
      visit ∈ added ∧ visit.placeId = place.id := by
    intro visit hvisit
    obtain ⟨hmem, hid⟩ := List.mem_filter.mp hvisit
    exact ⟨hmem, beq_iff_eq.mp hid⟩
  constructor
  · intro hpraise hmany hexcluded
    refine ⟨hexcluded.1, disliked_of_praised (fun visit hvisit => ?_) hmany hexcluded.2⟩
    exact hpraise visit (hthere visit hvisit).1 (hthere visit hvisit).2
  · intro hpan hexcluded
    refine ⟨hexcluded.1, disliked_of_panned (fun visit hvisit => ?_) hexcluded.2⟩
    exact hpan visit (hthere visit hvisit).1 (hthere visit hvisit).2

/-- A bar that beto has been to `n` times. -/
def reviewedBar (n : Nat) : ContentDb :=
  { anaFollowsBeto n with
    placeColumns := fun _ => { sourcePlaceId := some "bar" }
    place_source := by
      intro p hp q hq _ _ _
      rw [List.mem_singleton.mp hp, List.mem_singleton.mp hq] }

/-- A third visit with five stars leaves the bar on the lists. -/
theorem third_praise_keeps_bar : isExcludedByVisitors (reviewedBar 3) ["bar"] "bar" = false := by
  have hadded : VisitsAdded (reviewedBar 2) (reviewedBar 3) [betosVisit 2] := ⟨rfl, rfl, rfl⟩
  have hbefore : isExcludedByVisitors (reviewedBar 2) ["bar"] "bar" = false := by decide +kernel
  by_contra hexcluded
  rw [(praise_never_excludes (reviewedBar 2) (reviewedBar 3) [betosVisit 2] hadded ["bar"] "bar"
    _ rfl).1 ?_ (by decide) (Bool.of_not_eq_false hexcluded)] at hbefore
  · cases hbefore
  · intro visit hvisit _
    rw [List.mem_singleton.mp hvisit]
    exact ⟨by decide, by decide⟩

end Feca.Places
