import Feca.Collections.Fill
import Feca.Collections.Window
import Feca.Content.Signals
import Feca.Places.Nearby

/-! # The viewer's own radar

What a viewer has reviewed is taken off the radar: for good, unless they would go
back, and for a week if they would. Only the latest visit to a place counts.
-/

namespace Feca.Places

open Collections Concurrency Concurrency.Prog Content Social

def VIEWER_RETURN_REMINDER_COOLDOWN_DAYS : Int := 7

/-- A visit in the future is not a day ago. -/
def wholeDaysBetween (start stop : Date) : Int :=
  if stop - start < 0 then 0 else (stop - start) / 86400000

def formatViewerReturnReminderChip (visitedAt now : Date) : String :=
  let d := wholeDaysBetween visitedAt now
  if d < 10 then "Lo visitaste hace una semana"
  else if d < 17 then "Lo visitaste hace 2 semanas"
  else if d < 24 then "Lo visitaste hace 3 semanas"
  else if d < 45 then "Lo visitaste hace un mes"
  else if d < 75 then "Lo visitaste hace 2 meses"
  else if 3 ≤ d / 30 ∧ d / 30 ≤ 12 then "Lo visitaste hace " ++ toString (d / 30) ++ " meses"
  else if d / 30 > 12 then "Lo visitaste hace más de un año"
  else "Lo visitaste hace un tiempo"

def viewerRadarStateFromVisit (visitedAt : Date) (wouldReturn : Option VisitWouldReturn)
    (hasWrittenReview : Bool) (now : Date) : ViewerRadarPlaceState :=
  if !hasWrittenReview then .neutral
  else if wouldReturn ≠ some .yes then .excludeFromRadar
  else if wholeDaysBetween visitedAt now < VIEWER_RETURN_REMINDER_COOLDOWN_DAYS then
    .excludeFromRadar
  else .remind (formatViewerReturnReminderChip visitedAt now)

/-! ## The overlay -/

/-- The newest visits of the viewer to some places. -/
def ownVisits (s : ContentDb) (viewerId : Id) (placeIds : List Id) : List Visit :=
  (s.visits.rows.filter fun v => v.userId == viewerId && placeIds.contains v.placeId).insertionSort
    newerOwnVisit

def radarOfVisit (now : Date) : Option Visit → ViewerRadarPlaceState
  | none => .neutral
  | some latest => viewerRadarStateFromVisit latest.visitedAt latest.wouldReturn
      (decide (utf16Length (trim latest.note) > 0)) now

def getViewerRadarVisitOverlay (env : ContentEnv) (viewerId : Id) (googlePlaceIds : List String) :
    ContentProg (OrderedMap String ViewerRadarPlaceState) := do
  let uniqueIds := askedIds googlePlaceIds
  let out := setEach some (fun _ => .neutral) .empty uniqueIds
  if uniqueIds.length = 0 then pure out
  else
    let placeRows ← query fun s => s.googlePlacesIn uniqueIds
    if placeRows.length = 0 then pure out
    else
      let visits ← query fun s => (ownVisits s viewerId (placeRows.map (·.id))).take 800
      let latestByPlaceId := setMissing (·.placeId) .empty visits
      pure (setEach (fun row : PlaceRow => row.sourcePlaceId.bind orNull)
        (fun row => radarOfVisit env.now (latestByPlaceId.get row.id)) out placeRows)

/-! ## Only the latest visit counts -/

/-- The latest of the viewer's visits to a place. -/
def latestVisit (s : ContentDb) (viewerId placeId : Id) : Option Visit :=
  ((s.visits.rows.filter fun v => v.userId == viewerId && v.placeId == placeId).insertionSort
    newerOwnVisit).head?

/-- The Google place of an id. -/
def placeOfGoogleId (s : ContentDb) (googlePlaceId : String) : Option PlaceRow :=
  (s.places.rows.map s.placeRow).find? fun place =>
    place.source == .google && place.sourcePlaceId == some googlePlaceId

/-- The visits that are looked at: no more than the newest 800 to the asked places. -/
def readVisits (s : ContentDb) (viewerId : Id) (uniqueIds : List String) : List Visit :=
  (ownVisits s viewerId ((s.googlePlacesIn uniqueIds).map (·.id))).take 800

/-- The latest visit to a Google place, if it is looked at. -/
def countedVisit (s : ContentDb) (viewerId : Id) (uniqueIds : List String)
    (googlePlaceId : String) : Option Visit :=
  (placeOfGoogleId s googlePlaceId).bind fun place =>
    (latestVisit s viewerId place.id).filter fun visit =>
      decide (visit ∈ readVisits s viewerId uniqueIds)

section latest

variable {s : ContentDb} {viewerId placeId : Id} {placeIds : List Id}

theorem newerOwnVisit_total (a b : Visit) : newerOwnVisit a b ∨ newerOwnVisit b a := by
  rcases lt_trichotomy a.visitedAt b.visitedAt with hlt | heq | hgt
  · exact .inr (.inl hlt)
  · rcases le_total b.createdAt a.createdAt with hle | hge
    · exact .inl (.inr ⟨heq, hle⟩)
    · exact .inr (.inr ⟨heq.symm, hge⟩)
  · exact .inl (.inl hgt)

theorem newerOwnVisit_trans (a b c : Visit) (hab : newerOwnVisit a b) (hbc : newerOwnVisit b c) :
    newerOwnVisit a c := by
  unfold newerOwnVisit at hab hbc ⊢
  rcases hab with hab | ⟨hab, hcreated⟩
  · rcases hbc with hbc | ⟨hbc, -⟩
    · exact .inl (lt_trans hbc hab)
    · exact .inl (hbc ▸ hab)
  · rcases hbc with hbc | ⟨hbc, hcreated'⟩
    · exact .inl (hab ▸ hbc)
    · exact .inr ⟨hab.trans hbc, le_trans hcreated' hcreated⟩

/-- Sorting the visits of several places sorts those of each. -/
theorem filter_ownVisits (hplace : placeId ∈ placeIds) :
    (ownVisits s viewerId placeIds).filter (·.placeId == placeId) =
      (s.visits.rows.filter fun v => v.userId == viewerId && v.placeId == placeId).insertionSort
        newerOwnVisit := by
  unfold ownVisits
  rw [filter_insertionSort newerOwnVisit_total newerOwnVisit_trans, List.filter_filter]
  congr 1
  apply List.filter_congr
  intro v _
  by_cases hv : v.placeId = placeId
  · have hin : placeIds.contains v.placeId = true := by simpa [hv] using hplace
    simp [hv, hplace]
  · have hother : (v.placeId == placeId) = false := by simpa using hv
    simp [hother]

/-- The first row of a place among the visits read is its latest visit. -/
theorem find?_readVisits {uniqueIds : List String}
    (hplace : placeId ∈ (s.googlePlacesIn uniqueIds).map (·.id)) :
    (readVisits s viewerId uniqueIds).find? (fun v => decide (v.placeId = placeId)) =
      (latestVisit s viewerId placeId).filter fun visit =>
        decide (visit ∈ readVisits s viewerId uniqueIds) := by
  have hlatest : (ownVisits s viewerId ((s.googlePlacesIn uniqueIds).map (·.id))).find?
      (fun v => decide (v.placeId = placeId)) = latestVisit s viewerId placeId := by
    rw [latestVisit, ← filter_ownVisits hplace, List.head?_filter]
    rfl
  unfold readVisits
  generalize ownVisits s viewerId ((s.googlePlacesIn uniqueIds).map (·.id)) = own at hlatest ⊢
  rw [← hlatest]
  have hsplit : own.find? (fun v => decide (v.placeId = placeId)) =
      ((own.take 800).find? fun v => decide (v.placeId = placeId)).or
        ((own.drop 800).find? fun v => decide (v.placeId = placeId)) := by
    rw [← List.find?_append, List.take_append_drop]
  cases hfirst : (own.take 800).find? fun v => decide (v.placeId = placeId) with
  | some visit =>
    rw [hsplit, hfirst]
    have hmem := List.mem_of_find?_eq_some hfirst
    simp [Option.filter, hmem]
  | none =>
    rw [hsplit, hfirst, Option.none_or]
    cases hlater : (own.drop 800).find? fun v => decide (v.placeId = placeId) with
    | none => rfl
    | some visit =>
      have hnot : visit ∉ own.take 800 := by
        intro hmem
        have hsame : decide (visit.placeId = placeId) = true :=
          List.find?_some (p := fun v : Visit => decide (v.placeId = placeId)) hlater
        exact List.find?_eq_none.mp hfirst visit hmem hsame
      simp [Option.filter, hnot]

end latest

/-! ## The overlay of every store -/

section overlay

variable {env : ContentEnv} {s : ContentDb} {viewerId : Id} {uniqueIds : List String}

theorem mem_googlePlacesIn {row : PlaceRow} : row ∈ s.googlePlacesIn uniqueIds ↔
    (∃ p ∈ s.places.rows, s.placeRow p = row) ∧ row.source = .google ∧
      ∃ googleId ∈ uniqueIds, row.sourcePlaceId = some googleId := by
  unfold ContentDb.googlePlacesIn
  cases hsource : row.sourcePlaceId with
  | none => simp [hsource]
  | some googleId => simp [hsource]

/-- A Google id names at most one row. -/
theorem googlePlacesIn_unique {row other : PlaceRow} (hrow : row ∈ s.googlePlacesIn uniqueIds)
    (hother : other ∈ s.googlePlacesIn uniqueIds) {googleId : String}
    (hid : row.sourcePlaceId = some googleId) (hid' : other.sourcePlaceId = some googleId) :
    row = other := by
  obtain ⟨⟨p, hp, rfl⟩, -⟩ := mem_googlePlacesIn.mp hrow
  obtain ⟨⟨q, hq, rfl⟩, -⟩ := mem_googlePlacesIn.mp hother
  rw [s.place_source p hp q hq googleId hid hid']

theorem placeOfGoogleId_of_mem {row : PlaceRow} (hrow : row ∈ s.googlePlacesIn uniqueIds)
    {googleId : String} (hid : row.sourcePlaceId = some googleId) :
    placeOfGoogleId s googleId = some row := by
  obtain ⟨⟨p, hp, rfl⟩, hsource, -⟩ := mem_googlePlacesIn.mp hrow
  unfold placeOfGoogleId
  cases hfind : (s.places.rows.map s.placeRow).find? fun place =>
      place.source == .google && place.sourcePlaceId == some googleId with
  | none =>
    have hno := List.find?_eq_none.mp hfind (s.placeRow p) (List.mem_map_of_mem (f := s.placeRow) hp)
    simp [hsource, hid] at hno
  | some found =>
    obtain ⟨q, hq, rfl⟩ := List.mem_map.mp (List.mem_of_find?_eq_some hfind)
    have hfound := List.find?_some hfind
    simp only [Bool.and_eq_true, beq_iff_eq] at hfound
    rw [s.place_source p hp q hq googleId hid hfound.2]

theorem placeOfGoogleId_of_absent {googleId : String} (hasked : googleId ∈ uniqueIds)
    (h : ∀ row ∈ s.googlePlacesIn uniqueIds, row.sourcePlaceId ≠ some googleId) :
    placeOfGoogleId s googleId = none := by
  unfold placeOfGoogleId
  rw [List.find?_eq_none]
  intro row hrow hmatch
  simp only [Bool.and_eq_true, beq_iff_eq] at hmatch
  have hmem : row ∈ s.googlePlacesIn uniqueIds := mem_googlePlacesIn.mpr
    ⟨List.mem_map.mp hrow, hmatch.1, googleId, hasked, hmatch.2⟩
  exact h row hmem hmatch.2

/-- The overlay as a map: neutral for what was asked, then what each place found says. -/
theorem getViewerRadarVisitOverlay_run (googlePlaceIds : List String) :
    ((getViewerRadarVisitOverlay env viewerId googlePlaceIds).run s).result = .ok
      (setEach (fun row : PlaceRow => row.sourcePlaceId.bind orNull)
        (fun row => radarOfVisit env.now ((setMissing (·.placeId) .empty
          (readVisits s viewerId (askedIds googlePlaceIds))).get row.id))
        (setEach some (fun _ => .neutral) .empty (askedIds googlePlaceIds))
        (s.googlePlacesIn (askedIds googlePlaceIds))) := by
  unfold getViewerRadarVisitOverlay
  by_cases hnone : (askedIds googlePlaceIds).length = 0
  · have hasked := List.length_eq_zero_iff.mp hnone
    have hrows : s.googlePlacesIn [] = [] := by
      rw [List.eq_nil_iff_forall_not_mem]
      intro row hrow
      obtain ⟨-, -, googleId, hmem, -⟩ := mem_googlePlacesIn.mp hrow
      cases hmem
    dsimp only
    rw [if_pos hnone, hasked, hrows]
    rfl
  · dsimp only
    rw [if_neg hnone, result_bind, run_query]
    dsimp only [Except.bind]
    by_cases hfound : (s.googlePlacesIn (askedIds googlePlaceIds)).length = 0
    · rw [if_pos hfound, List.length_eq_zero_iff.mp hfound]
      rfl
    · rw [if_neg hfound, result_bind, run_query]
      rfl

theorem get_neutral (googleId : String) :
    (setEach some (fun _ => ViewerRadarPlaceState.neutral) .empty uniqueIds).get googleId =
      if googleId ∈ uniqueIds then some .neutral else none := by
  by_cases hasked : googleId ∈ uniqueIds
  · rw [if_pos hasked]
    exact get_setEach_of_unique (fun _ => ViewerRadarPlaceState.neutral) _ hasked rfl
      fun _ _ _ => rfl
  · rw [if_neg hasked]
    apply get_setEach_of_absent
    intro other hother heq
    cases heq
    exact hasked hother

theorem ne_empty_of_asked {googlePlaceIds : List String} {googleId : String}
    (h : googleId ∈ askedIds googlePlaceIds) : googleId ≠ "" := by
  have htext := (List.mem_filter.mp (mem_distinctIds.mp h)).2
  rintro rfl
  revert htext
  decide

/-- A place that was found has the state of its counted visit. -/
theorem get_overlay_of_place {googlePlaceIds : List String} {googleId : String} {row : PlaceRow}
    (hasked : googleId ∈ askedIds googlePlaceIds)
    (hrow : row ∈ s.googlePlacesIn (askedIds googlePlaceIds))
    (hid : row.sourcePlaceId = some googleId) (out : OrderedMap String ViewerRadarPlaceState) :
    (setEach (fun row : PlaceRow => row.sourcePlaceId.bind orNull)
      (fun row => radarOfVisit env.now ((setMissing (·.placeId) .empty
        (readVisits s viewerId (askedIds googlePlaceIds))).get row.id)) out
      (s.googlePlacesIn (askedIds googlePlaceIds))).get googleId =
        some (radarOfVisit env.now (countedVisit s viewerId (askedIds googlePlaceIds) googleId)) := by
  have hkey : row.sourcePlaceId.bind orNull = some googleId := by
    rw [hid]
    exact if_neg (ne_empty_of_asked hasked)
  have hvisit : (setMissing (·.placeId) .empty
      (readVisits s viewerId (askedIds googlePlaceIds))).get row.id =
        countedVisit s viewerId (askedIds googlePlaceIds) googleId := by
    rw [get_setMissing, countedVisit, placeOfGoogleId_of_mem hrow hid]
    exact find?_readVisits (List.mem_map_of_mem (f := (·.id)) hrow)
  rw [get_setEach_of_unique _ _ hrow hkey, hvisit]
  intro other hother hotherKey
  have hotherId := eq_some_of_bind_orNull hotherKey
  rw [googlePlacesIn_unique hother hrow hotherId hid]

/-- The state of every place in the overlay. -/
theorem get_overlay (googlePlaceIds : List String) (googleId : String) :
    ∃ overlay, ((getViewerRadarVisitOverlay env viewerId googlePlaceIds).run s).result =
        .ok overlay ∧
      overlay.get googleId = if googleId ∈ askedIds googlePlaceIds then
        some (radarOfVisit env.now (countedVisit s viewerId (askedIds googlePlaceIds) googleId))
      else none := by
  refine ⟨_, getViewerRadarVisitOverlay_run googlePlaceIds, ?_⟩
  by_cases hasked : googleId ∈ askedIds googlePlaceIds
  · rw [if_pos hasked]
    by_cases hfound : ∃ row ∈ s.googlePlacesIn (askedIds googlePlaceIds),
        row.sourcePlaceId = some googleId
    · obtain ⟨row, hrow, hid⟩ := hfound
      exact get_overlay_of_place hasked hrow hid _
    · have habsent : ∀ row ∈ s.googlePlacesIn (askedIds googlePlaceIds),
          row.sourcePlaceId ≠ some googleId := fun row hrow hid => hfound ⟨row, hrow, hid⟩
      rw [get_setEach_of_absent, get_neutral, if_pos hasked, countedVisit,
        placeOfGoogleId_of_absent hasked habsent]
      · rfl
      · intro row hrow hkey
        exact habsent row hrow (eq_some_of_bind_orNull hkey)
  · rw [if_neg hasked, get_setEach_of_absent, get_neutral, if_neg hasked]
    intro row hrow hkey
    obtain ⟨-, -, other, hother, hid⟩ := mem_googlePlacesIn.mp hrow
    rw [eq_some_of_bind_orNull hkey] at hid
    cases hid
    exact hasked hother

end overlay

/-! ## As time passes -/

theorem utf16Length_pos_iff (text : String) : 0 < utf16Length text ↔ text ≠ "" := by
  unfold utf16Length
  rw [← String.toList_inj.ne]
  cases text.toList with
  | nil => simp
  | cons c cs =>
    have hpos : 0 < if c.toNat ≤ 0xFFFF then 1 else 2 := by split <;> decide
    rw [List.map_cons, List.sum_cons, String.toList_empty]
    exact ⟨fun _ => List.cons_ne_nil c cs, fun _ => Nat.add_pos_left hpos _⟩

/-- Reviewed, and not to be gone back to: not at all, or not within a week. -/
def OffRadar (now : Date) (visit : Visit) : Prop :=
  trim visit.note ≠ "" ∧
    (visit.wouldReturn = some .yes →
      now < visit.visitedAt + VIEWER_RETURN_REMINDER_COOLDOWN_DAYS * 86400000)

/-- Reviewed, and to be gone back to after a week. -/
def BackOnRadar (now : Date) (visit : Visit) : Prop :=
  trim visit.note ≠ "" ∧ visit.wouldReturn = some .yes ∧
    visit.visitedAt + VIEWER_RETURN_REMINDER_COOLDOWN_DAYS * 86400000 ≤ now

theorem wholeDaysBetween_lt_cooldown_iff (visitedAt now : Date) :
    wholeDaysBetween visitedAt now < VIEWER_RETURN_REMINDER_COOLDOWN_DAYS ↔
      now < visitedAt + VIEWER_RETURN_REMINDER_COOLDOWN_DAYS * 86400000 := by
  unfold wholeDaysBetween VIEWER_RETURN_REMINDER_COOLDOWN_DAYS Date at *
  split <;> omega

/-- What a counted visit says at a time. -/
theorem radarOfVisit_some (now : Date) (visit : Visit) :
    (radarOfVisit now (some visit) = .excludeFromRadar ↔ OffRadar now visit) ∧
      ((∃ chip, radarOfVisit now (some visit) = .remind chip) ↔ BackOnRadar now visit) := by
  unfold radarOfVisit viewerRadarStateFromVisit OffRadar BackOnRadar
  dsimp only
  rw [← utf16Length_pos_iff]
  by_cases hnote : utf16Length (trim visit.note) > 0
  · by_cases hyes : visit.wouldReturn = some .yes
    · by_cases hsoon : wholeDaysBetween visit.visitedAt now < VIEWER_RETURN_REMINDER_COOLDOWN_DAYS
      · have hbefore := (wholeDaysBetween_lt_cooldown_iff _ _).mp hsoon
        simp [hnote, hyes, hsoon, hbefore]
      · have hafter := mt (wholeDaysBetween_lt_cooldown_iff _ _).mpr hsoon
        simp [hnote, hyes, hsoon, hafter, not_lt.mp hafter]
    · simp [hnote, hyes]
  · simp [hnote]

theorem radarOfVisit_off (now : Date) (visit : Option Visit) :
    radarOfVisit now visit = .excludeFromRadar ↔ ∃ v ∈ visit, OffRadar now v := by
  cases visit with
  | none => simp [radarOfVisit]
  | some v => simpa using (radarOfVisit_some now v).1

theorem radarOfVisit_back (now : Date) (visit : Option Visit) :
    (∃ chip, radarOfVisit now visit = .remind chip) ↔ ∃ v ∈ visit, BackOnRadar now v := by
  cases visit with
  | none => simp [radarOfVisit]
  | some v => simpa using (radarOfVisit_some now v).2

/-- The state of a place in the overlay, as time passes. -/
structure FollowsLatestVisit (asked : Prop) (visit : Option Visit)
    (state : Date → Option ViewerRadarPlaceState) : Prop where
  shown : ∀ now, (state now).isSome ↔ asked
  off : ∀ now, state now = some .excludeFromRadar ↔ asked ∧ ∃ v ∈ visit, OffRadar now v
  back : ∀ now, (∃ chip, state now = some (.remind chip)) ↔ asked ∧ ∃ v ∈ visit, BackOnRadar now v
  /-- What is on the radar is not put off it by the passing of time. -/
  stays : ∀ now later, now ≤ later → state later = some .excludeFromRadar →
    state now = some .excludeFromRadar

/-- For every store, viewer and request, and at every time: a place is off the viewer's radar
exactly if the latest of the visits looked at is a review of theirs that would not go back, or
not yet; a week after a visit they would repeat it is back with a reminder; and time alone
puts nothing off the radar. -/
theorem radar_follows_latest_visit (env : ContentEnv) (s : ContentDb) (viewerId : Id)
    (googlePlaceIds : List String) (googleId : String) :
    ∃ state : Date → Option ViewerRadarPlaceState,
      (∀ now, ∃ overlay, ((getViewerRadarVisitOverlay { env with now } viewerId
        googlePlaceIds).run s).result = .ok overlay ∧ overlay.get googleId = state now) ∧
      FollowsLatestVisit (googleId ∈ askedIds googlePlaceIds)
        (countedVisit s viewerId (askedIds googlePlaceIds) googleId) state := by
  refine ⟨fun now => if googleId ∈ askedIds googlePlaceIds then
    some (radarOfVisit now (countedVisit s viewerId (askedIds googlePlaceIds) googleId))
    else none, fun now => @get_overlay { env with now } s viewerId googlePlaceIds googleId, ?_⟩
  generalize countedVisit s viewerId (askedIds googlePlaceIds) googleId = visit
  by_cases hasked : googleId ∈ askedIds googlePlaceIds
  · have hoff : ∀ now, radarOfVisit now visit = .excludeFromRadar ↔
        ∃ v ∈ visit, OffRadar now v := fun now => radarOfVisit_off now visit
    have hback : ∀ now, (∃ chip, radarOfVisit now visit = .remind chip) ↔
        ∃ v ∈ visit, BackOnRadar now v := fun now => radarOfVisit_back now visit
    refine ⟨by simp [hasked], by simpa [hasked] using hoff, by simpa [hasked] using hback, ?_⟩
    intro now later hle hlater
    simp only [if_pos hasked, Option.some.injEq] at hlater ⊢
    rw [hoff] at hlater ⊢
    obtain ⟨v, hv, hnote, hsoon⟩ := hlater
    exact ⟨v, hv, hnote, fun hyes => lt_of_le_of_lt hle (hsoon hyes)⟩
  · refine ⟨by simp [hasked], by simp [hasked], by simp [hasked], ?_⟩
    intro now later _ hlater
    simp [hasked] at hlater

end Feca.Places
