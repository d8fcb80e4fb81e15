import Feca.Collections.Selection
import Feca.Places.Summary

/-! # The curated places of a city

`PlaceCurationRepository` looks the curations of a city up in two ways: all of
them, or those of given Google ids.
-/

namespace Feca.Places

open Collections Content Social

/-- `include: { place: true }`. -/
structure CurationRow extends PlaceCuration where
  place : PlaceRow
  deriving DecidableEq, Repr

/-- The keys of a `where`. A later key of the same name replaces an earlier one. -/
structure CurationWhere where
  active : Option Bool := none
  notExpiredAt : Option Date := none
  cityId : Option Id := none
  isCityPick : Option Bool := none
  showRecommendedBadge : Option Bool := none
  place : PlaceRow → Bool := fun _ => true

def CurationWhere.holds (w : CurationWhere) (row : CurationRow) : Bool :=
  w.active.all (row.active == ·) &&
    w.notExpiredAt.all (fun now => row.expiresAt.all fun expiresAt => decide (now < expiresAt)) &&
    w.cityId.all (row.cityId == some ·) &&
    w.isCityPick.all (row.isCityPick == ·) &&
    w.showRecommendedBadge.all (row.showRecommendedBadge == ·) &&
    w.place row.place

/-- In the city or in none, and not hidden. -/
def shownIn (cityId : Id) (place : PlaceRow) : Bool :=
  place.hiddenFromApp == false && (place.cityId == some cityId || place.cityId == none)

def activeCurationWhere (cityId : Option Id) (now : Date) : CurationWhere :=
  let base : CurationWhere := { active := some true, notExpiredAt := some now }
  match cityId.bind orNull with
  | none => base
  | some cityId => { base with cityId := some cityId, place := shownIn cityId }

def addGoogleId (ids : OrderedSet String) (googlePlaceId : String) : OrderedSet String :=
  match orNull (normalizeGooglePlaceId googlePlaceId) with
  | none => ids
  | some normalized => OrderedSet.add ids normalized

/-- Each id once, and none empty. -/
def normalizeGoogleIds (googlePlaceIds : List String) : List String :=
  (googlePlaceIds.foldl addGoogleId .empty).keys

/-- `sourcePlaceId: { in: ids }`. -/
def sourcePlaceIdIn (ids : List String) (place : PlaceRow) : Bool :=
  place.sourcePlaceId.any ids.contains

/-! ## Rows -/

/-- `orderBy: [{ isCityPick: "desc" }, { boostScore: "desc" }]`. -/
def strongerCuration (a b : CurationRow) : Prop :=
  (a.isCityPick = true ∧ b.isCityPick = false) ∨
    (a.isCityPick = b.isCityPick ∧ b.boostScore ≤ a.boostScore)

instance : DecidableRel strongerCuration := fun a b => by
  unfold strongerCuration
  infer_instance

/-- The same, and then `{ updatedAt: "desc" }`. -/
def strongerOrNewerCuration (a b : CurationRow) : Prop :=
  (a.isCityPick = true ∧ b.isCityPick = false) ∨
    (a.isCityPick = b.isCityPick ∧ (b.boostScore < a.boostScore ∨
      (a.boostScore = b.boostScore ∧ b.updatedAt ≤ a.updatedAt)))

instance : DecidableRel strongerOrNewerCuration := fun a b => by
  unfold strongerOrNewerCuration
  infer_instance

def curationRow (s : ContentDb) (curation : PlaceCuration) : Option CurationRow :=
  (s.findPlaceRow curation.placeId).map fun place => { curation with place }

/-- `placeCuration.findMany` with the places. -/
def findCurations (s : ContentDb) (w : CurationWhere) : List CurationRow :=
  (s.curations.rows.filterMap (curationRow s)).filter w.holds

/-- The trimmed Google id, normalized, unless it is empty. -/
def CurationRow.googlePlaceId (row : CurationRow) : Option String :=
  ((row.place.sourcePlaceId.map trim).bind orNull).map normalizeGooglePlaceId

/-! ## Signals -/

structure CurationSignals where
  boosts : OrderedMap String Int
  cityPickGoogleIds : OrderedSet String
  curatedGoogleIds : OrderedSet String

def CurationSignals.empty : CurationSignals := ⟨.empty, .empty, .empty⟩

def CurationSignals.add (signals : CurationSignals) (row : CurationRow) : CurationSignals :=
  match row.googlePlaceId with
  | none => signals
  | some id =>
      { boosts :=
          if row.boostScore > 0 then
            signals.boosts.set id (max ((signals.boosts.get id).getD 0) row.boostScore)
          else signals.boosts
        cityPickGoogleIds :=
          if row.isCityPick then OrderedSet.add signals.cityPickGoogleIds id
          else signals.cityPickGoogleIds
        curatedGoogleIds := OrderedSet.add signals.curatedGoogleIds id }

/-- The loop over the rows of a lookup. -/
def curationSignals (rows : List CurationRow) : CurationSignals :=
  rows.foldl CurationSignals.add .empty

def listActiveForCity (s : ContentDb) (now : Date) (cityId : Id) : List CurationRow :=
  (findCurations s (activeCurationWhere (some cityId) now)).insertionSort strongerCuration

def getCurationSignalsForCity (s : ContentDb) (now : Date) (cityId : Id) :
    CurationSignals × List CurationRow :=
  let rows := listActiveForCity s now cityId
  (curationSignals rows, rows)

/-- The rows of `getActiveBoostsForGooglePlaceIds`: its key `place` replaces the
one of `activeCurationWhere`. -/
def curationsAmong (s : ContentDb) (now : Date) (googlePlaceIds : List String)
    (cityId : Option Id) : List CurationRow :=
  if googlePlaceIds.length = 0 ∨ cityId.bind orNull = none then []
  else findCurations s
    { activeCurationWhere cityId now with place := sourcePlaceIdIn (normalizeGoogleIds googlePlaceIds) }

def getActiveBoostsForGooglePlaceIds (s : ContentDb) (now : Date) (googlePlaceIds : List String)
    (cityId : Option Id) : CurationSignals :=
  curationSignals (curationsAmong s now googlePlaceIds cityId)

def FECA_RECOMMENDED_BADGE_LABEL : String := "Recomendado por FECA"

def addBadge (badges : OrderedMap String String) (row : CurationRow) : OrderedMap String String :=
  match row.googlePlaceId with
  | none => badges
  | some id => if badges.has id then badges else badges.set id FECA_RECOMMENDED_BADGE_LABEL

def getRecommendedBadgesByGooglePlaceIds (s : ContentDb) (now : Date) (cityId : Option Id)
    (googlePlaceIds : List String) : OrderedMap String String :=
  if googlePlaceIds.length = 0 ∨ cityId.bind orNull = none then .empty
  else
    ((findCurations s
      { activeCurationWhere cityId now with
        showRecommendedBadge := some true
        place := sourcePlaceIdIn (normalizeGoogleIds googlePlaceIds) }).insertionSort
      strongerOrNewerCuration).foldl addBadge .empty

/-! ## What the signals say -/

/-- The positive boosts of an id. -/
def boostsOf (rows : List CurationRow) (id : String) : List Int :=
  (rows.filter fun row => row.googlePlaceId == some id && decide (row.boostScore > 0)).map
    (·.boostScore)

structure SignalsOf (rows : List CurationRow) (signals : CurationSignals) : Prop where
  curated : ∀ id, signals.curatedGoogleIds.has id = true ↔
    ∃ row ∈ rows, row.googlePlaceId = some id
  cityPicks : ∀ id, signals.cityPickGoogleIds.has id = true ↔
    ∃ row ∈ rows, row.googlePlaceId = some id ∧ row.isCityPick = true
  boosts : ∀ id, signals.boosts.get id = (boostsOf rows id).max?

theorem boostsOf_append (rows rows' : List CurationRow) (id : String) :
    boostsOf (rows ++ rows') id = boostsOf rows id ++ boostsOf rows' id := by
  rw [boostsOf, List.filter_append, List.map_append]
  rfl

theorem max?_concat (boosts : List Int) {boost : Int} (hpos : 0 < boost) :
    (boosts ++ [boost]).max? = some (max (boosts.max?.getD 0) boost) := by
  cases boosts with
  | nil => exact congrArg some (max_eq_right hpos.le).symm
  | cons b boosts =>
      rw [List.cons_append, List.max?_cons', List.max?_cons', List.foldl_append]
      rfl

/-- What one more row adds. -/
theorem SignalsOf.add {rows : List CurationRow} {signals : CurationSignals}
    (h : SignalsOf rows signals) (row : CurationRow) : SignalsOf (rows ++ [row]) (signals.add row) := by
  cases hrow : row.googlePlaceId with
  | none =>
      have hadd : signals.add row = signals := by rw [CurationSignals.add, hrow]
      have hboosts : ∀ id, boostsOf [row] id = [] := by
        intro id
        simp [boostsOf, hrow]
      rw [hadd]
      refine ⟨fun id => ?_, fun id => ?_, fun id => ?_⟩
      · simp [h.curated, hrow]
      · simp [h.cityPicks, hrow]
      · rw [boostsOf_append, hboosts, List.append_nil, h.boosts]
  | some key =>
      refine ⟨fun id => ?_, fun id => ?_, fun id => ?_⟩
      · have hadd : (signals.add row).curatedGoogleIds.has id =
            (decide (id = key) || signals.curatedGoogleIds.has id) := by
          rw [CurationSignals.add, hrow]
          exact OrderedSet.has_add _ _ _
        simp only [hadd, Bool.or_eq_true, decide_eq_true_eq, h.curated, List.mem_append,
          List.mem_singleton, or_and_right, exists_or, exists_eq_left, hrow, Option.some.injEq]
        rw [or_comm, eq_comm]
      · have hadd : (signals.add row).cityPickGoogleIds.has id =
            ((row.isCityPick && decide (id = key)) || signals.cityPickGoogleIds.has id) := by
          rw [CurationSignals.add, hrow]
          cases hpick : row.isCityPick with
          | false => rfl
          | true => exact OrderedSet.has_add _ _ _
        simp only [hadd, Bool.or_eq_true, Bool.and_eq_true, decide_eq_true_eq, h.cityPicks,
          List.mem_append, List.mem_singleton, or_and_right, exists_or, exists_eq_left, hrow,
          Option.some.injEq]
        rw [or_comm, eq_comm (a := id), and_comm (a := row.isCityPick = true)]
      · by_cases hpos : 0 < row.boostScore
        · have hadd : (signals.add row).boosts =
              signals.boosts.set key (max ((signals.boosts.get key).getD 0) row.boostScore) := by
            rw [CurationSignals.add, hrow]
            exact if_pos hpos
          rw [hadd, OrderedMap.get_set, boostsOf_append]
          by_cases hid : id = key
          · have hboosts : boostsOf [row] id = [row.boostScore] := by simp [boostsOf, hrow, hid, hpos]
            rw [if_pos hid, hboosts, max?_concat _ hpos, hid, h.boosts]
          · have hboosts : boostsOf [row] id = [] := by simp [boostsOf, hrow, Ne.symm hid]
            rw [if_neg hid, hboosts, List.append_nil, h.boosts]
        · have hadd : (signals.add row).boosts = signals.boosts := by
            rw [CurationSignals.add, hrow]
            exact if_neg hpos
          have hboosts : boostsOf [row] id = [] := by simp [boostsOf, hpos]
          rw [hadd, boostsOf_append, hboosts, List.append_nil, h.boosts]

theorem signalsOf_curationSignals (rows : List CurationRow) :
    SignalsOf rows (curationSignals rows) := by
  induction rows using List.reverseRecOn with
  | nil =>
      refine ⟨fun id => ?_, fun id => ?_, fun id => rfl⟩
      · simp [curationSignals, CurationSignals.empty, OrderedMap.has]
      · simp [curationSignals, CurationSignals.empty, OrderedMap.has]
  | append_singleton rows row ih =>
      rw [curationSignals, List.foldl_concat]
      exact ih.add row

theorem has_addBadge (badges : OrderedMap String String) (row : CurationRow) (id : String) :
    (addBadge badges row).has id = (decide (row.googlePlaceId = some id) || badges.has id) := by
  unfold addBadge
  cases hrow : row.googlePlaceId with
  | none => simp
  | some key =>
      dsimp only
      by_cases hhas : badges.has key = true
      · rw [if_pos hhas]
        by_cases hid : key = id
        · rw [← hid, hhas, Bool.or_true]
        · simp [hid]
      · rw [if_neg hhas, OrderedMap.has_set]
        simp only [Option.some.injEq, eq_comm]

/-- A badge is of a row that was looked up. -/
theorem has_badges {rows : List CurationRow} {id : String} :
    (rows.foldl addBadge .empty).has id = true ↔ ∃ row ∈ rows, row.googlePlaceId = some id := by
  induction rows using List.reverseRecOn with
  | nil => simp [OrderedMap.has]
  | append_singleton rows row ih =>
      rw [List.foldl_concat, has_addBadge, Bool.or_eq_true, decide_eq_true_eq, ih]
      simp only [List.mem_append, List.mem_singleton, or_and_right, exists_or, exists_eq_left]
      exact or_comm

/-! ## The lookup by ids -/

/-- The signals of the ids, and nothing about others. -/
structure CurationSignals.RestrictedTo (ids : List String) (city lookup : CurationSignals) :
    Prop where
  curated : ∀ id, lookup.curatedGoogleIds.has id = true ↔
    id ∈ ids ∧ city.curatedGoogleIds.has id = true
  cityPicks : ∀ id, lookup.cityPickGoogleIds.has id = true ↔
    id ∈ ids ∧ city.cityPickGoogleIds.has id = true
  boosts : ∀ id, lookup.boosts.get id = if id ∈ ids then city.boosts.get id else none

/-- The lookups by ids refine the one of the city: the signals are its signals,
and a badge is of a row that it has, too. -/
structure RefinesCity (s : ContentDb) (now : Date) (cityId : Id) (ids : List String) : Prop where
  signals : (getCurationSignalsForCity s now cityId).1.RestrictedTo (normalizeGoogleIds ids)
    (getActiveBoostsForGooglePlaceIds s now ids (some cityId))
  badges : ∀ id, (getRecommendedBadgesByGooglePlaceIds s now (some cityId) ids).has id = true →
    ∃ row ∈ (getCurationSignalsForCity s now cityId).2,
      row.googlePlaceId = some id ∧ row.showRecommendedBadge = true

/-- Every row has one of the same id in the other list that does not fall behind it. -/
structure Matched (rows rows' : List CurationRow) : Prop where
  curated : ∀ row ∈ rows, ∀ id, row.googlePlaceId = some id →
    ∃ row' ∈ rows', row'.googlePlaceId = some id
  cityPicks : ∀ row ∈ rows, ∀ id, row.googlePlaceId = some id → row.isCityPick = true →
    ∃ row' ∈ rows', row'.googlePlaceId = some id ∧ row'.isCityPick = true
  boosts : ∀ row ∈ rows, ∀ id, row.googlePlaceId = some id → 0 < row.boostScore →
    ∃ row' ∈ rows', row'.googlePlaceId = some id ∧ row.boostScore ≤ row'.boostScore

theorem Matched.of_subset {rows rows' : List CurationRow} (h : ∀ row ∈ rows, row.googlePlaceId ≠ none →
    row ∈ rows') : Matched rows rows' where
  curated row hrow id hid := ⟨row, h row hrow (by simp [hid]), hid⟩
  cityPicks row hrow id hid hpick := ⟨row, h row hrow (by simp [hid]), hid, hpick⟩
  boosts row hrow id hid _ := ⟨row, h row hrow (by simp [hid]), hid, le_rfl⟩

/-- The rows with one of the ids. -/
def withIds (ids : List String) (rows : List CurationRow) : List CurationRow :=
  rows.filter fun row => row.googlePlaceId.any ids.contains

theorem mem_withIds {ids : List String} {rows : List CurationRow} {row : CurationRow} {id : String}
    (hid : row.googlePlaceId = some id) : row ∈ withIds ids rows ↔ row ∈ rows ∧ id ∈ ids := by
  simp [withIds, hid]

theorem exists_withIds {ids : List String} {rows : List CurationRow} {id : String}
    (p : CurationRow → Prop) : (∃ row ∈ withIds ids rows, row.googlePlaceId = some id ∧ p row) ↔
      id ∈ ids ∧ ∃ row ∈ rows, row.googlePlaceId = some id ∧ p row := by
  constructor
  · rintro ⟨row, hrow, hid, hp⟩
    obtain ⟨hmem, hids⟩ := (mem_withIds hid).mp hrow
    exact ⟨hids, row, hmem, hid, hp⟩
  · rintro ⟨hids, row, hmem, hid, hp⟩
    exact ⟨row, (mem_withIds hid).mpr ⟨hmem, hids⟩, hid, hp⟩

theorem boostsOf_withIds (ids : List String) (rows : List CurationRow) (id : String) :
    boostsOf (withIds ids rows) id = if id ∈ ids then boostsOf rows id else [] := by
  unfold boostsOf withIds
  rw [List.filter_filter]
  by_cases hids : id ∈ ids
  · rw [if_pos hids]
    congr 1
    refine List.filter_congr fun row _ => ?_
    by_cases hid : row.googlePlaceId = some id
    · simp [hid, hids]
    · simp [hid]
  · rw [if_neg hids, List.map_eq_nil_iff, List.filter_eq_nil_iff]
    intro row _
    by_cases hid : row.googlePlaceId = some id
    · simp [hid, hids]
    · simp [hid]

theorem mem_boostsOf {rows : List CurationRow} {id : String} {boost : Int} :
    boost ∈ boostsOf rows id ↔
      ∃ row ∈ rows, row.googlePlaceId = some id ∧ 0 < row.boostScore ∧ row.boostScore = boost := by
  simp [boostsOf, and_assoc]

/-- No boost of the one list is beyond those of the other. -/
theorem matched_boosts_iff {rows rows' : List CurationRow} :
    (∀ row ∈ rows, ∀ id, row.googlePlaceId = some id → 0 < row.boostScore →
      ∃ row' ∈ rows', row'.googlePlaceId = some id ∧ row.boostScore ≤ row'.boostScore) ↔
    ∀ id, ∀ boost ∈ boostsOf rows id, ∃ boost' ∈ boostsOf rows' id, boost ≤ boost' := by
  constructor
  · intro h id boost hboost
    obtain ⟨row, hrow, hid, hpos, rfl⟩ := mem_boostsOf.mp hboost
    obtain ⟨row', hrow', hid', hle⟩ := h row hrow id hid hpos
    exact ⟨row'.boostScore, mem_boostsOf.mpr ⟨row', hrow', hid', hpos.trans_le hle, rfl⟩, hle⟩
  · intro h row hrow id hid hpos
    obtain ⟨boost', hboost', hle⟩ := h id _ (mem_boostsOf.mpr ⟨row, hrow, hid, hpos, rfl⟩)
    obtain ⟨row', hrow', hid', -, rfl⟩ := mem_boostsOf.mp hboost'
    exact ⟨row', hrow', hid', hle⟩

/-- Signals agree where each row has its match. -/
theorem signals_restrictedTo_iff {ids : List String} {rows asked : List CurationRow} :
    (curationSignals rows).RestrictedTo ids (curationSignals asked) ↔
      Matched asked (withIds ids rows) ∧ Matched (withIds ids rows) asked := by
  have hcity := signalsOf_curationSignals rows
  have hasked := signalsOf_curationSignals asked
  have hcurated : ∀ id, (∃ row ∈ withIds ids rows, row.googlePlaceId = some id) ↔
      id ∈ ids ∧ (curationSignals rows).curatedGoogleIds.has id = true := by
    intro id
    rw [hcity.curated]
    simpa using @exists_withIds ids rows id fun _ => True
  have hcityPicks : ∀ id, (∃ row ∈ withIds ids rows, row.googlePlaceId = some id ∧
      row.isCityPick = true) ↔ id ∈ ids ∧ (curationSignals rows).cityPickGoogleIds.has id = true := by
    intro id
    rw [hcity.cityPicks]
    exact exists_withIds _
  have hboosts : ∀ id, (boostsOf (withIds ids rows) id).max? =
      if id ∈ ids then (curationSignals rows).boosts.get id else none := by
    intro id
    rw [boostsOf_withIds, hcity.boosts]
    split <;> rfl
  constructor
  · intro h
    have hmax := fun id => max?_eq_iff.mp ((hasked.boosts id).symm.trans
      ((h.boosts id).trans (hboosts id).symm))
    constructor
    · refine ⟨fun row hrow id hid => ?_, fun row hrow id hid hpick => ?_,
        matched_boosts_iff.mpr fun id => (hmax id).1⟩
      · exact (hcurated id).mpr ((h.curated id).mp ((hasked.curated id).mpr ⟨row, hrow, hid⟩))
      · exact (hcityPicks id).mpr
          ((h.cityPicks id).mp ((hasked.cityPicks id).mpr ⟨row, hrow, hid, hpick⟩))
    · refine ⟨fun row hrow id hid => ?_, fun row hrow id hid hpick => ?_,
        matched_boosts_iff.mpr fun id => (hmax id).2⟩
      · exact (hasked.curated id).mp ((h.curated id).mpr ((hcurated id).mp ⟨row, hrow, hid⟩))
      · exact (hasked.cityPicks id).mp
          ((h.cityPicks id).mpr ((hcityPicks id).mp ⟨row, hrow, hid, hpick⟩))
  · rintro ⟨hin, hout⟩
    refine ⟨fun id => ?_, fun id => ?_, fun id => ?_⟩
    · rw [hasked.curated, ← hcurated]
      constructor
      · rintro ⟨row, hrow, hid⟩
        exact hin.curated row hrow id hid
      · rintro ⟨row, hrow, hid⟩
        exact hout.curated row hrow id hid
    · rw [hasked.cityPicks, ← hcityPicks]
      constructor
      · rintro ⟨row, hrow, hid, hpick⟩
        exact hin.cityPicks row hrow id hid hpick
      · rintro ⟨row, hrow, hid, hpick⟩
        exact hout.cityPicks row hrow id hid hpick
    · rw [hasked.boosts, ← hboosts, max?_eq_iff]
      exact ⟨matched_boosts_iff.mp hin.boosts id, matched_boosts_iff.mp hout.boosts id⟩

/-! ## When the lookups agree -/

variable {s : ContentDb} {now : Date} {cityId : Id} {ids : List String} {row : CurationRow}

/-- In use, not expired, and of the city. -/
structure ActiveIn (s : ContentDb) (now : Date) (cityId : Id) (row : CurationRow) : Prop where
  stored : row ∈ s.curations.rows.filterMap (curationRow s)
  active : row.active = true
  unexpired : ∀ expiresAt, row.expiresAt = some expiresAt → now < expiresAt
  city : row.cityId = some cityId

theorem activeCurationWhere_holds (hcity : cityId ≠ "") (place : PlaceRow → Bool) :
    ({ activeCurationWhere (some cityId) now with place } : CurationWhere).holds row = true ↔
      row.active = true ∧ (∀ expiresAt, row.expiresAt = some expiresAt → now < expiresAt) ∧
        row.cityId = some cityId ∧ place row.place = true := by
  have hid : (some cityId).bind orNull = some cityId := if_neg hcity
  simp [activeCurationWhere, hid, CurationWhere.holds, and_assoc, Option.all_eq_true]

theorem mem_listActiveForCity (hcity : cityId ≠ "") : row ∈ listActiveForCity s now cityId ↔
    ActiveIn s now cityId row ∧ shownIn cityId row.place = true := by
  have hid : (some cityId).bind orNull = some cityId := if_neg hcity
  have hwhere : activeCurationWhere (some cityId) now =
      { activeCurationWhere (some cityId) now with place := shownIn cityId } := by
    simp [activeCurationWhere, hid]
  rw [listActiveForCity, List.mem_insertionSort, findCurations, List.mem_filter, hwhere,
    activeCurationWhere_holds hcity]
  constructor
  · rintro ⟨hstored, hactive, hunexpired, hrow, hshown⟩
    exact ⟨⟨hstored, hactive, hunexpired, hrow⟩, hshown⟩
  · rintro ⟨⟨hstored, hactive, hunexpired, hrow⟩, hshown⟩
    exact ⟨hstored, hactive, hunexpired, hrow, hshown⟩

theorem mem_curationsAmong : row ∈ curationsAmong s now ids (some cityId) ↔
    cityId ≠ "" ∧ ActiveIn s now cityId row ∧
      sourcePlaceIdIn (normalizeGoogleIds ids) row.place = true := by
  unfold curationsAmong
  by_cases hcity : cityId = ""
  · have hnone : (some cityId).bind orNull = none := by rw [hcity]; rfl
    rw [if_pos (.inr hnone)]
    simp [hcity]
  · have hid : (some cityId).bind orNull = some cityId := if_neg hcity
    by_cases hids : ids.length = 0
    · rw [if_pos (.inl hids), List.eq_nil_of_length_eq_zero hids]
      have hnone : sourcePlaceIdIn (normalizeGoogleIds []) row.place = false := by
        cases hsource : row.place.sourcePlaceId with
        | none => rw [sourcePlaceIdIn, hsource]; rfl
        | some id => rw [sourcePlaceIdIn, hsource]; rfl
      simp [hnone]
    · rw [if_neg (by simp [hids, hid]), findCurations, List.mem_filter,
        activeCurationWhere_holds hcity]
      constructor
      · rintro ⟨hstored, hactive, hunexpired, hrow, hin⟩
        exact ⟨hcity, ⟨hstored, hactive, hunexpired, hrow⟩, hin⟩
      · rintro ⟨-, ⟨hstored, hactive, hunexpired, hrow⟩, hin⟩
        exact ⟨hstored, hactive, hunexpired, hrow, hin⟩

theorem badgeWhere_holds (cityId : Option Id) (place : PlaceRow → Bool) :
    ({ activeCurationWhere cityId now with
        showRecommendedBadge := some true, place } : CurationWhere).holds row =
      (({ activeCurationWhere cityId now with place } : CurationWhere).holds row &&
        row.showRecommendedBadge) := by
  have hnone : (activeCurationWhere cityId now).showRecommendedBadge = none := by
    unfold activeCurationWhere
    cases cityId.bind orNull with
    | none => rfl
    | some cityId => rfl
  simp [CurationWhere.holds, hnone, Bool.and_comm, Bool.and_left_comm]

theorem has_recommendedBadges {id : String} :
    (getRecommendedBadgesByGooglePlaceIds s now (some cityId) ids).has id = true ↔
      ∃ row ∈ curationsAmong s now ids (some cityId),
        row.googlePlaceId = some id ∧ row.showRecommendedBadge = true := by
  unfold getRecommendedBadgesByGooglePlaceIds curationsAmong
  split
  · simp [OrderedMap.has]
  · rw [has_badges]
    simp only [List.mem_insertionSort, findCurations, List.mem_filter, badgeWhere_holds,
      Bool.and_eq_true]
    constructor
    · rintro ⟨row, ⟨hstored, hholds, hbadge⟩, hid⟩
      exact ⟨row, ⟨hstored, hholds⟩, hid, hbadge⟩
    · rintro ⟨row, ⟨hstored, hholds⟩, hid, hbadge⟩
      exact ⟨row, ⟨hstored, hholds, hbadge⟩, hid⟩

/-- The rows of the lookup by ids and those the city has of the ids match each
other, and a row with a badge has one with a badge in the city. -/
structure RowsAgree (s : ContentDb) (now : Date) (cityId : Id) (ids : List String) : Prop where
  among : Matched (curationsAmong s now ids (some cityId))
    (withIds (normalizeGoogleIds ids) (listActiveForCity s now cityId))
  city : Matched (withIds (normalizeGoogleIds ids) (listActiveForCity s now cityId))
    (curationsAmong s now ids (some cityId))
  badges : ∀ row ∈ curationsAmong s now ids (some cityId), row.showRecommendedBadge = true →
    ∀ id, row.googlePlaceId = some id → ∃ row' ∈ listActiveForCity s now cityId,
      row'.googlePlaceId = some id ∧ row'.showRecommendedBadge = true

theorem refinesCity_iff_rowsAgree : RefinesCity s now cityId ids ↔ RowsAgree s now cityId ids := by
  constructor
  · intro h
    obtain ⟨hamong, hcity⟩ := signals_restrictedTo_iff.mp h.signals
    refine ⟨hamong, hcity, fun row hrow hbadge id hid => ?_⟩
    exact h.badges id (has_recommendedBadges.mpr ⟨row, hrow, hid, hbadge⟩)
  · intro h
    refine ⟨signals_restrictedTo_iff.mpr ⟨h.among, h.city⟩, fun id hid => ?_⟩
    obtain ⟨row, hrow, hid, hbadge⟩ := has_recommendedBadges.mp hid
    exact h.badges row hrow hbadge id hid

/-! ## Ids stored as the lookups write them -/

/-- The Google ids of the places are stored normalized. -/
def StoresNormalizedIds (s : ContentDb) : Prop :=
  ∀ place ∈ s.places.rows, ∀ id, (s.placeColumns place.id).sourcePlaceId = some id →
    trim id = id ∧ normalizeGooglePlaceId id = id

theorem curationRow_some {curation : PlaceCuration} (h : curationRow s curation = some row) :
    row.toPlaceCuration = curation ∧ ∃ place ∈ s.places.rows,
      place.id = curation.placeId ∧ row.place = s.placeRow place := by
  obtain ⟨placeRow, hplace, rfl⟩ := Option.map_eq_some_iff.mp h
  obtain ⟨place, hfind, rfl⟩ := Option.map_eq_some_iff.mp hplace
  exact ⟨rfl, place, List.mem_of_find?_eq_some hfind, by simpa using List.find?_some hfind, rfl⟩

theorem ActiveIn.googlePlaceId (h : ActiveIn s now cityId row) (hnormal : StoresNormalizedIds s)
    {id : String} : row.googlePlaceId = some id ↔ row.place.sourcePlaceId = some id ∧ id ≠ "" := by
  obtain ⟨curation, -, hrow⟩ := List.mem_filterMap.mp h.stored
  obtain ⟨-, place, hplace, -, hplaceRow⟩ := curationRow_some hrow
  unfold CurationRow.googlePlaceId
  cases hsource : row.place.sourcePlaceId with
  | none => simp
  | some source =>
      have hstored : (s.placeColumns place.id).sourcePlaceId = some source := by
        rw [← hsource, hplaceRow]
        rfl
      obtain ⟨htrim, hnormalized⟩ := hnormal place hplace source hstored
      rw [Option.map_some, htrim, Option.bind_some]
      by_cases hempty : source = ""
      · have hnone : orNull source = none := if_pos hempty
        rw [hnone]
        constructor
        · intro h
          cases h
        · rintro ⟨hid, hne⟩
          exact absurd (Option.some.inj hid ▸ hempty) hne
      · have hsome : orNull source = some source := if_neg hempty
        rw [hsome, Option.map_some, hnormalized]
        constructor
        · intro h
          exact ⟨h, fun hid => hempty (Option.some.inj h ▸ hid)⟩
        · exact fun h => h.1

/-- A city has one curation of a place, and one place has the id. -/
theorem ActiveIn.eq_of_id {row' : CurationRow} (h : ActiveIn s now cityId row)
    (h' : ActiveIn s now cityId row') {id : String} (hid : row.place.sourcePlaceId = some id)
    (hid' : row'.place.sourcePlaceId = some id) : row = row' := by
  obtain ⟨c, hc, hrow⟩ := List.mem_filterMap.mp h.stored
  obtain ⟨c', hc', hrow'⟩ := List.mem_filterMap.mp h'.stored
  obtain ⟨hcuration, place, hplace, hplaceId, hplaceRow⟩ := curationRow_some hrow
  obtain ⟨hcuration', place', hplace', hplaceId', hplaceRow'⟩ := curationRow_some hrow'
  have hsame : place = place' := by
    refine s.place_source place hplace place' hplace' id ?_ ?_
    · rw [← hid, hplaceRow]
      rfl
    · rw [← hid', hplaceRow']
      rfl
  have hcity : c.cityId = some cityId := hcuration ▸ h.city
  have hcity' : c'.cityId = some cityId := hcuration' ▸ h'.city
  have hconflict : Relational.conflicts c c' = true := by
    simp [Relational.conflicts, hcity, hcity', ← hplaceId, ← hplaceId', hsame]
  have hcc : c = c' := Relational.Table.eq_of_conflicts hc hc' hconflict
  rw [hcc, hrow'] at hrow
  exact (Option.some.inj hrow).symm

theorem has_addGoogleId (ids : OrderedSet String) (googlePlaceId id : String) :
    OrderedMap.has (addGoogleId ids googlePlaceId) id =
      (decide (orNull (normalizeGooglePlaceId googlePlaceId) = some id) ||
        OrderedMap.has ids id) := by
  unfold addGoogleId
  cases orNull (normalizeGooglePlaceId googlePlaceId) with
  | none => simp
  | some normalized =>
      dsimp only
      rw [OrderedSet.has_add]
      simp only [Option.some.injEq, eq_comm]

theorem ne_empty_of_mem_normalizeGoogleIds {ids : List String} {id : String}
    (h : id ∈ normalizeGoogleIds ids) : id ≠ "" := by
  have hadded : ∀ ids : List String, OrderedMap.has (ids.foldl addGoogleId .empty) id = true →
      id ≠ "" := by
    intro ids
    induction ids using List.reverseRecOn with
    | nil => simp [OrderedMap.has]
    | append_singleton ids googlePlaceId ih =>
        rw [List.foldl_concat, has_addGoogleId, Bool.or_eq_true, decide_eq_true_eq]
        rintro (hid | hhas)
        · unfold orNull at hid
          split at hid
          · cases hid
          · rename_i hne
            exact Option.some.inj hid ▸ hne
        · exact ih hhas
  rw [normalizeGoogleIds, ← OrderedMap.has_iff_mem_keys] at h
  exact hadded ids h

/-- With ids stored normalized, the lookups agree exactly when all places asked
for are shown in the city. -/
theorem refinesCity_iff_shown (hcity : cityId ≠ "") (hnormal : StoresNormalizedIds s) :
    RefinesCity s now cityId ids ↔
      ∀ row ∈ curationsAmong s now ids (some cityId), shownIn cityId row.place = true := by
  rw [refinesCity_iff_rowsAgree]
  constructor
  · intro h row hrow
    obtain ⟨-, hactive, hin⟩ := mem_curationsAmong.mp hrow
    obtain ⟨id, hsource, hids⟩ : ∃ id, row.place.sourcePlaceId = some id ∧
        id ∈ normalizeGoogleIds ids := by
      simpa [sourcePlaceIdIn, Option.any_eq_true] using hin
    have hid := (hactive.googlePlaceId hnormal).mpr
      ⟨hsource, ne_empty_of_mem_normalizeGoogleIds hids⟩
    obtain ⟨row', hrow', hid'⟩ := h.among.curated row hrow id hid
    obtain ⟨hactive', hshown⟩ := (mem_listActiveForCity hcity).mp ((mem_withIds hid').mp hrow').1
    have hsource' := ((hactive'.googlePlaceId hnormal).mp hid').1
    rw [hactive.eq_of_id hactive' hsource hsource']
    exact hshown
  · intro hshown
    have hlisted : ∀ row ∈ curationsAmong s now ids (some cityId),
        row ∈ listActiveForCity s now cityId := by
      intro row hrow
      exact (mem_listActiveForCity hcity).mpr ⟨(mem_curationsAmong.mp hrow).2.1, hshown row hrow⟩
    refine ⟨.of_subset fun row hrow hsome => ?_, .of_subset fun row hrow hsome => ?_,
      fun row hrow hbadge id hid => ⟨row, hlisted row hrow, hid, hbadge⟩⟩
    · obtain ⟨id, hid⟩ := Option.ne_none_iff_exists'.mp hsome
      obtain ⟨-, hactive, hin⟩ := mem_curationsAmong.mp hrow
      rw [sourcePlaceIdIn, ((hactive.googlePlaceId hnormal).mp hid).1] at hin
      exact (mem_withIds hid).mpr ⟨hlisted row hrow, by simpa using hin⟩
    · obtain ⟨id, hid⟩ := Option.ne_none_iff_exists'.mp hsome
      obtain ⟨hmem, hids⟩ := (mem_withIds hid).mp hrow
      have hactive := ((mem_listActiveForCity hcity).mp hmem).1
      refine mem_curationsAmong.mpr ⟨hcity, hactive, ?_⟩
      rw [sourcePlaceIdIn, ((hactive.googlePlaceId hnormal).mp hid).1]
      simpa using hids

/-- The lookups by ids refine the one of the city exactly when the rows they read
match those of the city; where the ids are stored normalized, when no asked
place is hidden or of another city. -/
theorem curation_lookup_refines_iff (s : ContentDb) (now : Date) (cityId : Id) (ids : List String) :
    (RefinesCity s now cityId ids ↔ RowsAgree s now cityId ids) ∧
    (cityId ≠ "" → StoresNormalizedIds s → (RefinesCity s now cityId ids ↔
      ∀ row ∈ curationsAmong s now ids (some cityId), shownIn cityId row.place = true)) :=
  ⟨refinesCity_iff_rowsAgree, refinesCity_iff_shown⟩

/-! ## A curated place -/

/-- A café that Rosario recommends. -/
def aCuratedCafe (hiddenFromApp : Bool) : ContentDb :=
  { ContentDb.ofSocial (.ofUsers .empty .empty .empty .empty (.singleton
        { id := "p1", name := "Café", address := "San Martín 100", city := "Rosario" }))
      { sourcePlaceId := some "ChIJ1", hiddenFromApp } (by decide) (by decide) with
    curations := .singleton { id := "k1", placeId := "p1", cityId := some "rosario", boostScore := 5,
                              isCityPick := true, showRecommendedBadge := true, updatedAt := 0 }
    curation_place := by
      intro c hc
      rw [List.mem_singleton.mp hc]
      exact ⟨_, List.mem_cons_self, rfl⟩ }

theorem stored_aCuratedCafe (hiddenFromApp : Bool) :
    StoresNormalizedIds (aCuratedCafe hiddenFromApp) := by
  intro place _ id hid
  cases hid
  exact ⟨by decide, by decide⟩

theorem shown_cafe_refines : RefinesCity (aCuratedCafe false) 0 "rosario" ["places/ChIJ1"] :=
  ((curation_lookup_refines_iff _ 0 "rosario" ["places/ChIJ1"]).2 (by decide)
    (stored_aCuratedCafe false)).mpr (by decide)

/-- Hidden, the café is still boosted when its id is asked for. -/
theorem hidden_cafe_is_boosted : ¬ RefinesCity (aCuratedCafe true) 0 "rosario" ["ChIJ1"] := by
  intro h
  have hlookup : (getActiveBoostsForGooglePlaceIds (aCuratedCafe true) 0 ["ChIJ1"]
      (some "rosario")).curatedGoogleIds.has "ChIJ1" = true := by decide
  have hcity : (getCurationSignalsForCity (aCuratedCafe true) 0 "rosario").1.curatedGoogleIds.has
      "ChIJ1" = false := by decide
  have hrestricted := ((h.signals.curated "ChIJ1").mp hlookup).2
  rw [hcity] at hrestricted
  cases hrestricted

end Feca.Places
