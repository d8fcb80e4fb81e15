import Feca.Cache.Flights
import Feca.Concurrency.Invariant
import Feca.Places.Admin
import Feca.Places.Autocomplete

/-! # Hidden places and the cache

No statement of the service shows a hidden place again but the update an admin
asks for, and no answer is put in the cache that has it. So what still shows it
was in the cache when it was hidden.
-/

namespace Feca.Places

open Cache Collections Concurrency Concurrency.Prog Content Relational Social

/-! ## Hidden rows -/

/-- The place is stored under the source id, and hidden. -/
def IsHidden (placeId : Id) (googlePlaceId : String) (s : PlacesDb) : Prop :=
  ∃ p ∈ s.places.rows, p.id = placeId ∧ p.sourcePlaceId = some googlePlaceId ∧
    p.hiddenFromApp = true

variable {placeId : Id} {googlePlaceId : String} {s : PlacesDb} {calls : ResolveCalls}

/-- A source id names one place. -/
theorem eq_of_sourcePlaceId {p q : PlaceRecord} (hp : p ∈ s.places.rows) (hq : q ∈ s.places.rows)
    (hpid : p.sourcePlaceId = some googlePlaceId) (hqid : q.sourcePlaceId = some googlePlaceId) :
    p = q := by
  refine Table.eq_of_conflicts hp hq ?_
  show (p.id == q.id || _) = true
  simp [hpid, hqid]

theorem IsHidden.hidden (h : IsHidden placeId googlePlaceId s) {p : PlaceRecord}
    (hp : p ∈ s.places.rows) (hid : p.sourcePlaceId = some googlePlaceId) :
    p.hiddenFromApp = true := by
  obtain ⟨q, hq, -, hqid, hhidden⟩ := h
  rw [eq_of_sourcePlaceId hp hq hid hqid]
  exact hhidden

theorem IsHidden.source (h : IsHidden placeId googlePlaceId s) {p : PlaceRecord}
    (hp : p ∈ s.places.rows) (hid : p.id = placeId) : p.sourcePlaceId = some googlePlaceId := by
  obtain ⟨q, hq, hqid, hsource, -⟩ := h
  rw [eq_of_id hp hq (by rw [hid, hqid]; exact beq_self_eq_true _)]
  exact hsource

theorem has_foldl_addHidden {rows : List PlaceRow} {ids : OrderedSet String} {id : String}
    (h : ids.has id = true ∨ ∃ row ∈ rows, (row.sourcePlaceId.map trim).bind orNull = some id) :
    (rows.foldl addHidden ids).has id = true := by
  induction rows generalizing ids with
  | nil => exact h.resolve_right (by simp)
  | cons row rows ih =>
      apply ih
      rcases h with hhas | ⟨r, hr, hid⟩
      · refine .inl ?_
        unfold addHidden
        split
        · exact hhas
        · rw [OrderedSet.has_add, hhas, Bool.or_true]
      · rcases List.mem_cons.mp hr with rfl | hr
        · refine .inl ?_
          rw [addHidden, hid]
          simp [OrderedSet.has_add]
        · exact .inr ⟨r, hr, hid⟩

theorem IsHidden.has (h : IsHidden placeId googlePlaceId s) (hblank : trim googlePlaceId ≠ "") :
    s.getHiddenGooglePlaceIds.has (trim googlePlaceId) = true := by
  obtain ⟨p, hp, -, hid, hhidden⟩ := h
  refine has_foldl_addHidden (.inr ⟨p.toPlaceRow, ?_, ?_⟩)
  · exact List.mem_filter.mpr ⟨List.mem_map.mpr ⟨p, hp, rfl⟩, hhidden⟩
  · show (p.sourcePlaceId.map trim).bind orNull = some (trim googlePlaceId)
    rw [hid, Option.map_some, Option.bind_some, orNull, if_neg hblank]

/-! ## What is written -/

theorem keeps_awaiting {α : Type} (value : Except Thrown α) :
    (awaiting value).Keeps (IsHidden placeId googlePlaceId) fun _ => True := by
  cases value with
  | ok value => exact keeps_pure trivial
  | error e => exact keeps_fail _

theorem keeps_upsertCitySummary (summary : GoogleCitySummary) :
    (upsertCitySummary calls summary).Keeps (IsHidden placeId googlePlaceId) fun _ => True := by
  apply keeps_stmt
  · intro s hs
    have hstored : CityStored s ((upsertCitySummary calls summary).run s) :=
      upsertCitySummary_stores summary s
    have hplaces := hstored.places
    rw [upsertCitySummary, run_stmt] at hplaces
    unfold IsHidden
    rw [hplaces]
    exact hs
  · exact fun _ _ _ _ => trivial

theorem keeps_ensureStoredCityForCoordinates (lat lng : Option Rat) :
    (ensureStoredCityForCoordinates calls lat lng).Keeps (IsHidden placeId googlePlaceId)
      fun _ => True := by
  unfold ensureStoredCityForCoordinates
  split
  · split
    · exact keeps_fail _
    · refine keeps_bind (keeps_awaiting _) fun cached _ => ?_
      cases cached with
      | some city => exact keeps_upsertCitySummary city
      | none =>
          refine keeps_bind (keeps_awaiting _) fun found _ => ?_
          cases found with
          | some city => exact keeps_bind (keeps_awaiting _) fun _ _ => keeps_upsertCitySummary city
          | none => exact keeps_fail _
  · exact keeps_fail _

/-- A write that leaves the place hidden. -/
theorem keeps_writing {id : Id} {write : Table PlaceRecord → Option (Table PlaceRecord)}
    {Q : PlaceRecord → Prop}
    (h : ∀ s t : PlacesDb, IsHidden placeId googlePlaceId s → write s.places = some t.places →
      IsHidden placeId googlePlaceId t ∧ ∀ place ∈ t.places.rows, place.id = id → Q place) :
    (writing id write).Keeps (IsHidden placeId googlePlaceId) Q := by
  have hrun : ∀ s, IsHidden placeId googlePlaceId s →
      IsHidden placeId googlePlaceId ((writing id write).run s).store ∧
        ∀ place, ((writing id write).run s).result = .ok place → Q place := by
    intro s hs
    obtain ⟨e, hrun⟩ | ⟨t, place, hrun, hwrite, hplace, hid⟩ := run_writing id write s
    · rw [hrun]
      exact ⟨hs, fun _ h => by cases h⟩
    · rw [hrun]
      obtain ⟨hhidden, hQ⟩ := h s t hs hwrite
      refine ⟨hhidden, fun a ha => ?_⟩
      cases ha
      exact hQ place hplace hid
  apply keeps_stmt
  · intro s hs
    have := (hrun s hs).1
    rwa [writing, run_stmt] at this
  · intro s hs a ha
    refine (hrun s hs).2 a ?_
    rwa [writing, run_stmt]

/-- A row that is rewritten stays hidden where what becomes of it is. -/
theorem keeps_rewriting {id : Id} {f : PlaceRecord → PlaceRecord} {Q : PlaceRecord → Prop}
    (hf : id = placeId → ∀ p : PlaceRecord, p.id = placeId →
      p.sourcePlaceId = some googlePlaceId → p.hiddenFromApp = true →
        (f p).id = placeId ∧ (f p).sourcePlaceId = some googlePlaceId ∧
          (f p).hiddenFromApp = true)
    (hQ : ∀ place : PlaceRecord, place.id = id → Q place) :
    (writing id fun places => places.modify (·.id == id) f).Keeps (IsHidden placeId googlePlaceId)
      Q := by
  refine keeps_writing fun s t hs hwrite => ⟨?_, fun place _ hid => hQ place hid⟩
  obtain ⟨p, hp, hpid, hsource, hhidden⟩ := hs
  unfold IsHidden
  rw [Table.modify_eq_some hwrite]
  refine ⟨_, List.mem_map.mpr ⟨p, hp, rfl⟩, ?_⟩
  split
  · rename_i hself
    exact hf ((beq_iff_eq.mp hself).symm.trans hpid) p hpid hsource hhidden
  · exact ⟨hpid, hsource, hhidden⟩

/-- A new row has another id. -/
theorem keeps_inserting {id : Id} {row : PlaceRecord} (hrow : row.id = id) :
    (writing id fun places => places.insert row).Keeps (IsHidden placeId googlePlaceId)
      fun place => place.id ≠ placeId := by
  refine keeps_writing fun s t hs hwrite => ?_
  obtain ⟨hrows, hfree⟩ := Table.insert_eq_some hwrite
  obtain ⟨p, hp, hpid, hhidden⟩ := hs
  have hmem : p ∈ t.places.rows := by
    rw [hrows]
    exact List.mem_append_left _ hp
  refine ⟨⟨p, hmem, hpid, hhidden⟩, fun place _ hid hsame => ?_⟩
  have hclash := (Bool.or_eq_false_iff.mp (hfree p hp)).1
  have hne : p.id ≠ row.id := beq_eq_false_iff_ne.mp hclash
  exact hne (hpid.trans (hsame.symm.trans (hid.trans hrow.symm)))

/-- An input without an id finds the hidden row only by its source id. -/
theorem source_of_findExisting {input : UpsertPlaceInput} {existing : PlaceRecord}
    (hinput : input.id = none) (hs : IsHidden placeId googlePlaceId s)
    (hfound : input.findExisting s = some existing) (hid : existing.id = placeId) :
    input.sourcePlaceId = some googlePlaceId := by
  unfold UpsertPlaceInput.findExisting at hfound
  rw [hinput] at hfound
  split at hfound
  · rename_i id _ hsource
    obtain ⟨hmem, -, hstored⟩ := getPlaceBySource_some hfound
    have hsame := hs.source hmem hid
    rw [hstored] at hsame
    rw [eq_some_of_bind_orNull hsource, hsame]
  · rename_i hnone
    cases hnone
  · cases hfound

/-- No input of the service names a row by its id; it writes the hidden row only where
it names it by its source id. -/
theorem keeps_upsertPlace {input : UpsertPlaceInput} (hinput : input.id = none) :
    (upsertPlace calls input).Keeps (IsHidden placeId googlePlaceId) fun place =>
      place.id = placeId → input.sourcePlaceId = some googlePlaceId := by
  refine keeps_bind (Q := fun existing => ∀ e, existing = some e → e.id = placeId →
    input.sourcePlaceId = some googlePlaceId)
    (keeps_query fun s hs existing => source_of_findExisting hinput hs) fun existing hexisting => ?_
  cases existing with
  | some existing =>
      refine keeps_rewriting (fun hself p hpid _ hhidden => ?_) fun place hid hplace => ?_
      · exact ⟨hpid, hexisting existing rfl hself, hhidden⟩
      · exact hexisting existing rfl (hid.symm.trans hplace)
  | none => exact (keeps_inserting rfl).mono fun place hne hplace => absurd hplace hne

theorem keeps_backfill {sourcePlaceId : String} {existing : PlaceRecord}
    (hid : existing.sourcePlaceId = some sourcePlaceId) :
    (backfill calls sourcePlaceId existing).Keeps (IsHidden placeId googlePlaceId) fun place =>
      place.id = placeId → sourcePlaceId = googlePlaceId := by
  refine keeps_bind (keeps_awaiting _) fun details _ => ?_
  refine keeps_bind (keeps_ensureStoredCityForCoordinates _ _) fun city _ => ?_
  refine (keeps_upsertPlace rfl).mono fun place h hplace => ?_
  have hsource := h hplace
  rw [backfillInput, hid, Option.getD_some] at hsource
  exact Option.some.inj hsource

/-- What Google says of one id, it says of another place. -/
def NamedBy (calls : ResolveCalls) (sourcePlaceId googlePlaceId : String) : Prop :=
  ∃ details, getPlaceDetails calls sourcePlaceId = .ok details ∧
    details.sourcePlaceId = googlePlaceId

theorem keeps_storeNew (sourcePlaceId : String) :
    (storeNew calls sourcePlaceId).Keeps (IsHidden placeId googlePlaceId) fun place =>
      place.id = placeId → NamedBy calls sourcePlaceId googlePlaceId := by
  unfold storeNew
  cases hdetails : getPlaceDetails calls sourcePlaceId with
  | error e => exact keeps_fail _
  | ok details =>
      rw [awaiting_ok_bind]
      refine keeps_bind (keeps_ensureStoredCityForCoordinates _ _) fun city _ => ?_
      refine (keeps_upsertPlace rfl).mono fun place h hplace => ?_
      exact ⟨details, hdetails, Option.some.inj (h hplace)⟩

/-! ## What reaches the cache -/

/-- The curations of the place are among those with these ids. -/
def CuratedBy (curated : Id → Prop) (placeId : Id) (w : PlacesWorld) : Prop :=
  ∀ curation ∈ w.curations.rows, curation.placeId = placeId → curated curation.id

/-- The place stays hidden, no curation is made of it but those expected, and no answer
is put in the cache that shows it. -/
def hidingPlace (curated : Id → Prop) (placeId : Id) (googlePlaceId : String) :
    Contract PlacesWorld where
  inv w := IsHidden placeId googlePlaceId w.db ∧ CuratedBy curated placeId w
  guar w v := ∀ key payload, v.cache key = some payload → payload.Shows googlePlaceId →
    w.cache key = some payload
  refl _ _ _ h _ := h
  trans hwv hvu key payload hu hshows := hwv key payload (hvu key payload hu hshows) hshows

variable {curated : Id → Prop} {w : PlacesWorld}

theorem meets_onDb {α : Type} {p : PlacesProg α} {Q : α → Prop}
    (hp : p.Keeps (IsHidden placeId googlePlaceId) Q) :
    (p.onPart dbPart : WorldProg α).Meets (hidingPlace curated placeId googlePlaceId)
      (fun a _ => Q a) w := by
  induction p generalizing w with
  | done a =>
      have hresult : Q a := keeps_done_iff.mp hp
      exact hresult
  | fail e => exact trivial
  | step exec next ih =>
      intro v _ hv
      obtain ⟨hdb, hnext⟩ := keeps_step_iff.mp hp v.db hv.1
      exact ⟨⟨hdb, hv.2⟩, fun _ _ h _ => h, ih v.db hnext⟩

/-- A statement of the world that leaves the database and the cache alone, and of the
curations of the place makes none that is not expected. -/
theorem meets_aside_db {α : Type} {f : PlacesWorld → Answer PlacesWorld Empty Failure α}
    (h : ∀ v, (f v).store.db = v.db ∧ (f v).store.cache = v.cache)
    (hcurations : ∀ v, CuratedBy curated placeId v → CuratedBy curated placeId (f v).store) :
    (stmt f).Meets (hidingPlace curated placeId googlePlaceId) (fun _ _ => True) w := by
  apply meets_stmt
  intro v _ hv
  obtain ⟨hdb, hcache⟩ := h v
  refine ⟨⟨?_, hcurations v hv.2⟩, ?_, fun _ _ => trivial⟩
  · show IsHidden placeId googlePlaceId (f v).store.db
    rw [hdb]
    exact hv.1
  · intro key payload hkey _
    rw [← hcache]
    exact hkey

theorem meets_bumping {process : String} {write : PlacesProg PlaceRecord} {Q : PlaceRecord → Prop}
    (h : write.Keeps (IsHidden placeId googlePlaceId) Q) :
    (bumping process write).Meets (hidingPlace curated placeId googlePlaceId)
      (fun place _ => Q place) w := by
  refine meets_bind (meets_onDb h) fun place v _ hplace => ?_
  exact meets_bind (meets_aside_db (fun _ => ⟨rfl, rfl⟩) fun _ h => h) fun _ _ _ _ => hplace

/-- Whoever resolves an id gets the hidden place under its own id, or under one that
Google names it by. -/
theorem meets_resolve (process : String) (input : ResolvePlaceDto) :
    (PlacesProfileService.resolve calls process input).Meets (hidingPlace curated placeId googlePlaceId)
      (fun found _ => ∀ place, found = some place → place.id = placeId →
        normalizeGooglePlaceId input.sourcePlaceId = googlePlaceId ∨
          NamedBy calls (normalizeGooglePlaceId input.sourcePlaceId) googlePlaceId) w := by
  unfold PlacesProfileService.resolve resolveWith
  generalize normalizeGooglePlaceId input.sourcePlaceId = sourcePlaceId
  by_cases hempty : sourcePlaceId = ""
  · simp only [if_pos hempty]
    exact meets_fail _
  simp only [if_neg hempty]
  refine meets_bind (Q := fun existing _ => ∀ e, existing = some e →
      e.sourcePlaceId = some sourcePlaceId ∧ (e.id = placeId → sourcePlaceId = googlePlaceId)) ?_ ?_
  · refine meets_query fun v _ hv e he => ?_
    obtain ⟨hmem, -, hstored⟩ := getPlaceBySource_some he
    refine ⟨hstored, fun hid => ?_⟩
    have hsource := hv.1.source hmem hid
    rw [hstored] at hsource
    exact Option.some.inj hsource
  intro existing v _ hexisting
  split
  · exact fun place hplace hid => .inl ((hexisting place hplace).2 hid)
  cases existing with
  | some existing =>
      obtain ⟨hstored, hnamed⟩ := hexisting existing rfl
      refine meets_bind (meets_attempt (meets_bumping (keeps_backfill hstored))) ?_
      intro result u _ hresult
      cases result with
      | ok place =>
          intro found hfound hid
          cases hfound
          exact .inl (hresult place rfl hid)
      | error e =>
          intro found hfound hid
          cases hfound
          exact .inl (hnamed hid)
  | none =>
      dsimp only
      split
      · exact meets_fail _
      refine meets_bind (meets_attempt (meets_bumping (keeps_storeNew _))) ?_
      intro result u _ hresult
      cases result with
      | ok place =>
          intro found hfound hid
          cases hfound
          exact .inr (hresult place rfl hid)
      | error e => exact meets_fail _

theorem meets_createManualPlace {calls : CityCalls} (process : String)
    (input : CreateManualPlaceDto) :
    (createManualPlace process calls input).Meets (hidingPlace curated placeId googlePlaceId)
      (fun _ _ => True) w := by
  refine (meets_bumping (Q := fun place => place.id = placeId → none = some googlePlaceId)
    ?_).mono fun _ _ _ => trivial
  refine keeps_bind (Q := fun _ => True) ?_ fun city _ => (keeps_upsertPlace rfl).mono fun _ h => h
  unfold ensureStoredCityByGooglePlaceId
  split
  · exact keeps_pure trivial
  refine keeps_bind (keeps_attempt (Q := fun _ => True) ?_) fun result _ => ?_
  · refine keeps_bind (keeps_query (Q := fun _ => True) fun _ _ => trivial) fun found _ => ?_
    cases found with
    | some city => exact keeps_pure trivial
    | none =>
        dsimp only
        split
        · exact keeps_fail _
        · exact keeps_bind (keeps_awaiting _) fun city _ => keeps_upsertCitySummary city
  · cases result with
    | ok city => exact keeps_pure trivial
    | error e => exact keeps_fail _

/-! ## What admins ask for -/

section admins

variable {calls : AdminCalls}

/-- Who names a place by one of its ids may get the hidden one. -/
def MayName (calls : ResolveCalls) (named namedByGoogle : Option String) (placeId : Id)
    (googlePlaceId : String) : Prop :=
  match (named.map trim).bind orNull, (namedByGoogle.map trim).bind orNull with
  | some id, _ => id = placeId
  | none, some id => normalizeGooglePlaceId id = googlePlaceId ∨
      NamedBy calls (normalizeGooglePlaceId id) googlePlaceId
  | none, none => False

theorem meets_resolvePlaceId (process : String) (named namedByGoogle : Option String) :
    (resolvePlaceId calls process named namedByGoogle).Meets (hidingPlace curated placeId googlePlaceId)
      (fun id _ => id = placeId →
        MayName calls.toResolveCalls named namedByGoogle placeId googlePlaceId) w := by
  unfold MayName resolvePlaceId
  cases (named.map trim).bind orNull with
  | some id => exact fun hid => hid
  | none =>
      cases (namedByGoogle.map trim).bind orNull with
      | none => exact meets_fail _
      | some id =>
          refine meets_bind (meets_resolve process { sourcePlaceId := id })
            fun found v _ hfound => ?_
          cases found with
          | none => exact meets_fail _
          | some place => exact hfound place rfl

theorem keeps_setHiddenFromApp {id : Id} {hiddenFromApp : Bool}
    (h : hiddenFromApp = false → id ≠ placeId) :
    (setHiddenFromApp calls id hiddenFromApp).Keeps (IsHidden placeId googlePlaceId)
      fun _ => True := by
  refine keeps_rewriting (fun hself p hpid hsource _ => ⟨hpid, hsource, ?_⟩) fun _ _ => trivial
  cases hflag : hiddenFromApp with
  | true => rfl
  | false => exact absurd hself (h hflag)

theorem meets_setPlaceVisibility (process : String) {body : SetPlaceVisibilityDto}
    (h : body.hiddenFromApp = false →
      ¬ MayName calls.toResolveCalls body.placeId body.googlePlaceId placeId googlePlaceId) :
    (setPlaceVisibility calls process body).Meets (hidingPlace curated placeId googlePlaceId)
      (fun _ _ => True) w := by
  refine meets_bind (meets_resolvePlaceId process _ _) fun id v _ hid => ?_
  exact meets_bind (meets_onDb (keeps_setHiddenFromApp fun hflag hsame => h hflag (hid hsame)))
    fun _ _ _ _ => trivial

theorem meets_hideIfSent {id : Id} {hiddenFromApp : Option Bool}
    (h : hiddenFromApp = some false → id ≠ placeId) :
    (hideIfSent calls id hiddenFromApp).Meets (hidingPlace curated placeId googlePlaceId)
      (fun _ _ => True) w := by
  cases hiddenFromApp with
  | none => exact trivial
  | some hiddenFromApp =>
      exact meets_bind (meets_onDb (keeps_setHiddenFromApp fun hflag => h (by rw [hflag])))
        fun _ _ _ _ => trivial

theorem keeps_resolvePlaceCityId (place : PlaceRecord) :
    (resolvePlaceCityId calls place).Keeps (IsHidden placeId googlePlaceId) fun _ => True := by
  unfold resolvePlaceCityId
  split
  · exact keeps_pure trivial
  · refine keeps_bind (keeps_ensureStoredCityForCoordinates _ _) fun city _ => ?_
    refine keeps_bind (keeps_rewriting ?_ fun _ _ => trivial) fun _ _ => keeps_pure trivial
    exact fun _ p hpid hsource hhidden => ⟨hpid, hsource, hhidden⟩
  · exact keeps_fail _

theorem meets_parseOptionalExpiresAt (value : Option String) :
    (parseOptionalExpiresAt calls value).Meets (hidingPlace curated placeId googlePlaceId)
      (fun _ _ => True) w := by
  unfold parseOptionalExpiresAt
  split
  · exact trivial
  · split
    · exact trivial
    · exact meets_fail _

/-- A curation is inserted under the id that the call generates. -/
theorem meets_insertCuration {curation : PlaceCurationRecord}
    (h : curation.placeId = placeId → curated curation.id) :
    (insertCuration calls curation).Meets (hidingPlace curated placeId googlePlaceId)
      (fun _ _ => True) w := by
  refine meets_aside_db (fun v => ?_) fun v hv => ?_
  · split
    · split <;> exact ⟨rfl, rfl⟩
    · exact ⟨rfl, rfl⟩
  · split
    · split
      · rename_i curations hinsert
        intro row hrow hplace
        have hrow : row ∈ curations.rows := hrow
        rw [(Table.insert_eq_some hinsert).1, List.mem_append, List.mem_singleton] at hrow
        rcases hrow with hold | rfl
        · exact hv row hold hplace
        · exact h hplace
      · exact hv
    · exact hv

theorem meets_createCuration (process : String) (adminUserId : Id) {body : CreatePlaceCurationDto}
    (h : body.hiddenFromApp = some false →
      ¬ MayName calls.toResolveCalls body.placeId body.googlePlaceId placeId googlePlaceId)
    (hcurated : MayName calls.toResolveCalls body.placeId body.googlePlaceId placeId
      googlePlaceId → curated calls.curationId) :
    (createCuration calls process adminUserId body).Meets (hidingPlace curated placeId googlePlaceId)
      (fun _ _ => True) w := by
  refine meets_bind (meets_resolvePlaceId process _ _) fun id v _ hid => ?_
  refine meets_bind (meets_query (Q := fun _ _ => True) fun _ _ _ => trivial) fun found _ _ _ => ?_
  cases found with
  | none => exact meets_fail _
  | some place =>
      refine meets_bind (meets_onDb (keeps_resolvePlaceCityId place)) fun cityId _ _ _ => ?_
      refine meets_bind (meets_hideIfSent fun hflag hsame => h hflag (hid hsame)) fun _ _ _ _ => ?_
      refine meets_bind (meets_parseOptionalExpiresAt _) fun expiresAt _ _ _ => ?_
      exact meets_insertCuration fun hsame => hcurated (hid hsame)

theorem meets_writeCuration (id : Id) (body : UpdatePlaceCurationDto)
    (expiresAt : Option (Option Date)) :
    (writeCuration calls id body expiresAt).Meets (hidingPlace curated placeId googlePlaceId)
      (fun _ _ => True) w := by
  refine meets_aside_db (fun v => ?_) fun v hv => ?_
  · split <;> exact ⟨rfl, rfl⟩
  · split
    · exact hv
    · intro row hrow hplace
      obtain ⟨old, hold, rfl⟩ := List.mem_map.mp hrow
      -- the id and the place of a curation are not written
      split at hplace
      · rw [if_pos ‹_›]
        exact hv old hold hplace
      · rw [if_neg ‹_›]
        exact hv old hold hplace

theorem meets_updateCuration (id : Id) {body : UpdatePlaceCurationDto}
    (h : body.hiddenFromApp = some false → ¬ curated id) :
    (updateCuration calls id body).Meets (hidingPlace curated placeId googlePlaceId)
      (fun _ _ => True) w := by
  refine meets_bind (Q := fun found _ => ∀ curation, found = some curation →
    curation.placeId = placeId → curated id)
    (meets_query fun v _ hv curation hfound hplace => ?_) fun found _ _ hfound => ?_
  · unfold findCuration at hfound
    obtain ⟨hid, -⟩ := List.find?_eq_some_iff_append.mp hfound
    rw [← beq_iff_eq.mp hid]
    exact hv.2 curation (List.mem_of_find?_eq_some hfound) hplace
  cases found with
  | none => exact meets_fail _
  | some existing =>
      refine meets_bind (meets_hideIfSent fun hflag hsame =>
        h hflag (hfound existing rfl hsame)) fun _ _ _ _ => ?_
      cases body.expiresAt with
      | none => exact meets_writeCuration id body none
      | some value =>
          refine meets_bind (meets_parseOptionalExpiresAt value) fun expiresAt _ _ _ => ?_
          exact meets_writeCuration id body (some expiresAt)

theorem meets_deleteCuration (id : Id) :
    (deleteCuration id).Meets (hidingPlace curated placeId googlePlaceId) (fun _ _ => True) w := by
  refine meets_bind (meets_query (Q := fun _ _ => True) fun _ _ _ => trivial) fun found _ _ _ => ?_
  cases found with
  | none => exact meets_fail _
  | some existing =>
      refine meets_aside_db (fun v => ?_) fun v hv => ?_
      · split <;> exact ⟨rfl, rfl⟩
      · split
        · exact hv
        · exact fun row hrow => hv row (List.mem_of_mem_filter hrow)

end admins

/-! ## Answers -/

theorem meets_mergeRemote (input : AutocompletePlacesQuery) (items : List RemoteItem)
    (merged : OrderedMap String AutocompleteItem) :
    (mergeRemote input items merged).Meets (hidingPlace curated placeId googlePlaceId)
      (fun _ _ => True) w := by
  induction items generalizing merged w with
  | nil => exact trivial
  | cons item items ih =>
      exact meets_bind (meets_query (Q := fun _ _ => True) fun _ _ _ => trivial)
        fun existing v _ _ => ih _

/-- Without the hidden ids, no item is left that has one. -/
theorem not_shows_of_visible {hiddenGoogleIds : OrderedSet String}
    (hhas : hiddenGoogleIds.has (trim googlePlaceId) = true) (hblank : trim googlePlaceId ≠ "")
    {items : List AutocompleteItem} (hitems : ∀ item ∈ items, isItemVisible hiddenGoogleIds item)
    (query : String) (providerAvailable : Bool) :
    ¬ (buildAutocompletePayload items query providerAvailable).Shows googlePlaceId := by
  rintro ⟨item, hitem, hid⟩
  have hvisible := hitems item hitem
  unfold isItemVisible at hvisible
  rw [hid] at hvisible
  simp [orNull, hblank, hhas] at hvisible

theorem meets_cacheAnswer {cacheKey : String} {payload : AutocompletePayload}
    (h : ¬ payload.Shows googlePlaceId) :
    (cacheAnswer cacheKey payload).Meets (hidingPlace curated placeId googlePlaceId)
      (fun _ _ => True) w := by
  apply meets_stmt
  intro v _ hv
  refine ⟨hv, fun key other hother hshows => ?_, fun _ _ => trivial⟩
  have hwritten : Function.update v.cache cacheKey (some payload) key = some other := hother
  by_cases hkey : key = cacheKey
  · rw [hkey, Function.update_self] at hwritten
    cases hwritten
    exact absurd hshows h
  · rwa [Function.update_of_ne hkey] at hwritten

theorem meets_loadAutocomplete (hblank : trim googlePlaceId ≠ "") {env : AutocompleteEnv}
    {input : AutocompletePlacesQuery} {cacheKey : String} {localItems : List AutocompleteItem} :
    (loadAutocomplete env input cacheKey localItems).Meets (hidingPlace curated placeId googlePlaceId)
      (fun payload _ => ¬ payload.Shows googlePlaceId) w := by
  refine meets_bind (meets_onDb (keeps_awaiting _)) fun remoteItems _ _ _ => ?_
  refine meets_bind (meets_mergeRemote _ _ _) fun merged _ _ _ => ?_
  refine meets_bind (Q := fun ids _ => ids.has (trim googlePlaceId) = true)
    (meets_query fun v _ hv => hv.1.has hblank) fun ids _ _ hids => ?_
  refine meets_bind (meets_onDb (keeps_awaiting _)) fun _ _ _ _ => ?_
  have hvisible : ∀ item ∈ (merged.values.filter (isItemVisible ids)).take input.limit,
      isItemVisible ids item := fun item hitem =>
    (List.mem_filter.mp (List.mem_of_mem_take hitem)).2
  have hhides := not_shows_of_visible hids hblank hvisible input.q true
  exact meets_bind (meets_cacheAnswer hhides) fun _ _ _ _ => hhides

/-- What the database is searched for is visible. -/
theorem not_shows_of_search {env : AutocompleteEnv} (hs : IsHidden placeId googlePlaceId s)
    (query : String) (city : Option String) (limit : Nat) {item : AutocompleteItem}
    (hitem : item ∈ (env.searchPlaces s query city limit).map localItem) :
    item.sourcePlaceId ≠ some googlePlaceId := by
  intro hid
  obtain ⟨place, hplace, rfl⟩ := List.mem_map.mp hitem
  have hlisted := (List.mem_insertionSort _).mp (List.mem_of_mem_take hplace)
  obtain ⟨hmem, hmatches⟩ := List.mem_filter.mp ((env.order_perm _).mem_iff.mp hlisted)
  have hvisible : visibleInAppWhere place.toPlaceRow = true := by
    simp only [AutocompleteEnv.matchesSearch, Bool.and_eq_true] at hmatches
    exact hmatches.1.1
  simp [visibleInAppWhere, hs.hidden hmem hid] at hvisible

section flights

variable {ι : Type} {env : AutocompleteEnv} {input : AutocompletePlacesQuery} {start : PlacesWorld}
  {store : FlightStore ι PlacesWorld}

/-- An answer with the place was in the cache. -/
def CachedIfShown (googlePlaceId : String) (w : PlacesWorld) (payload : AutocompletePayload) :
    Prop :=
  payload.Shows googlePlaceId → ∃ key, w.cache key = some payload

theorem cachedIfShown_of_cached {key : String} {payload : AutocompletePayload}
    (h : (hidingPlace curated placeId googlePlaceId).guar start w)
    (hcached : w.cache key = some payload) : CachedIfShown googlePlaceId start payload :=
  fun hshows => ⟨key, h key payload hcached hshows⟩

/-- A flight begins where nothing is cached, so it finds no answer with the place. -/
theorem lands_autocomplete (hblank : trim googlePlaceId ≠ "") {process cacheKey : String}
    {localItems : List AutocompleteItem} (hmiss : start.cache cacheKey = none) :
    Lands (hidingPlace curated placeId googlePlaceId) (fun payload => ¬ payload.Shows googlePlaceId)
      start (autocompleteFlight env input process cacheKey localItems) where
  load _ _ := meets_loadAutocomplete hblank
  readCached read hread v hv := by
    cases hread
    refine meets_query fun u hvu _ payload hcached hshows => ?_
    have hstart := (hidingPlace curated placeId googlePlaceId).trans hv hvu _ _ hcached hshows
    have hkey : start.cache cacheKey = some payload := hstart
    rw [hmiss] at hkey
    cases hkey

/-- What is not a flight's was in the cache if it shows the place; a flight's does not. -/
def AnswerAllowed (googlePlaceId : String) (w : PlacesWorld) : AutocompleteEnd → Prop
  | .answered payload => CachedIfShown googlePlaceId w payload
  | .joined payload | .led payload => ¬ payload.Shows googlePlaceId

variable [DecidableEq ι] {flights : FlightEnv}

theorem meets_autocomplete (hblank : trim googlePlaceId ≠ "") (process : String) (self : ι)
    (hstart : (hidingPlace curated placeId googlePlaceId).guar start store.world) :
    (autocomplete flights env input process self).Meets
      (ofWorld (hidingPlace curated placeId googlePlaceId))
      (fun r _ => AnswerAllowed googlePlaceId start r) store := by
  have htrans := @(hidingPlace curated placeId googlePlaceId).trans
  -- what the database gave out first is what a failure of Google leaves
  refine meets_bind (Q := fun localItems _ => ∀ item ∈ localItems,
    item.sourcePlaceId ≠ some googlePlaceId)
    (meets_query fun t _ hinv item hitem => not_shows_of_search hinv.1 _ _ _ hitem)
    fun localItems t hst hlocal => ?_
  have ht := htrans hstart hst
  have hown : ∀ providerAvailable : Bool,
      ¬ (buildAutocompletePayload localItems input.q providerAvailable).Shows googlePlaceId := by
    rintro providerAvailable ⟨item, hitem, hid⟩
    exact hlocal item hitem hid
  split
  · exact fun hshows => absurd hshows (hown _)
  refine meets_bind (meets_aside _) fun version u htu _ => ?_
  have hu := htrans ht htu
  refine meets_bind (Q := fun found v =>
      found = v.world.cache (env.buildAutocompleteCacheKey version input))
    (meets_query fun _ _ _ => rfl) fun found v huv hfound => ?_
  have hv := htrans hu huv
  cases found with
  | some cached => exact cachedIfShown_of_cached hv hfound.symm
  | none =>
      refine meets_bind (meets_attempt (meets_run (lands_autocomplete hblank hfound.symm)
        (fun _ _ h _ => h))) fun result _ _ hresult => ?_
      cases result with
      | ok answer =>
          cases answer with
          | joined => exact hown false
          | settled payload => exact hresult _ rfl payload rfl
      | error e => exact fun hshows => absurd hshows (hown false)

end flights

/-! ## Runs -/

/-- Who takes part in a run: calls of the service, time, which passes, and the cache,
which drops what it pleases. -/
inductive PlacesCall
  | autocomplete (env : AutocompleteEnv) (process : String) (input : AutocompletePlacesQuery)
  | resolve (calls : ResolveCalls) (process : String) (input : ResolvePlaceDto)
  | createManualPlace (calls : CityCalls) (process : String) (input : CreateManualPlaceDto)
  | setPlaceVisibility (calls : AdminCalls) (process : String) (body : SetPlaceVisibilityDto)
  | createCuration (calls : AdminCalls) (process : String) (adminUserId : Id)
      (body : CreatePlaceCurationDto)
  | updateCuration (calls : AdminCalls) (id : Id) (body : UpdatePlaceCurationDto)
  | deleteCuration (id : Id)
  | clock (ms : Nat)
  | expire (key : String)

section calls

variable {ι : Type} [DecidableEq ι] (flights : FlightEnv) (self : ι)

/-- A call that answers with no suggestions. -/
def writingOnly {α : Type} (p : WorldProg α) :
    FlightProg ι PlacesWorld Failure (Option AutocompleteEnd) :=
  (fun _ => none) <$> p.onPart worldPart

def PlacesCall.prog :
    PlacesCall → FlightProg ι PlacesWorld Failure (Option AutocompleteEnd)
  | .autocomplete env process input => some <$> Places.autocomplete flights env input process self
  | .resolve calls process input => writingOnly (PlacesProfileService.resolve calls process input)
  | .createManualPlace calls process input =>
      writingOnly (Places.createManualPlace process calls input)
  | .setPlaceVisibility calls process body =>
      writingOnly (Places.setPlaceVisibility calls process body)
  | .createCuration calls process adminUserId body =>
      writingOnly (Places.createCuration calls process adminUserId body)
  | .updateCuration calls id body => writingOnly (Places.updateCuration calls id body)
  | .deleteCuration id => writingOnly (Places.deleteCuration id)
  | .clock ms => stmt fun s => ⟨{ s with now := s.now + ms }, [], .ok none⟩
  | .expire key => stmt fun s =>
      let cache := Function.update s.world.cache key none
      ⟨{ s with world := { s.world with cache } }, [], .ok none⟩

abbrev PlacesConfig (ι : Type) :=
  Config ι (FlightStore ι PlacesWorld) FlightEvent Failure (Option AutocompleteEnd)

/-- Nobody has called yet. -/
def beginPlaces (calls : ι → PlacesCall) (now : Int) (w : PlacesWorld) : PlacesConfig ι :=
  ⟨.start now w, fun i => (calls i).prog flights i, []⟩

end calls

/-- The call makes a curation with the id, which may be one of the place. -/
def PlacesCall.MayCurate (placeId : Id) (googlePlaceId : String) (id : Id) : PlacesCall → Prop
  | .createCuration calls _ _ body => calls.curationId = id ∧
      MayName calls.toResolveCalls body.placeId body.googlePlaceId placeId googlePlaceId
  | _ => False

/-- A curation with the id is one of the place when it is hidden, or may become one. -/
def MayBeOf {ι : Type} (calls : ι → PlacesCall) (w : PlacesWorld) (placeId : Id)
    (googlePlaceId : String) (id : Id) : Prop :=
  (∃ curation ∈ w.curations.rows, curation.id = id ∧ curation.placeId = placeId) ∨
    ∃ i, (calls i).MayCurate placeId googlePlaceId id

/-- The call asks for the place to be shown, by one of its ids or by that of a curation. -/
def PlacesCall.MayShow (curated : Id → Prop) (placeId : Id) (googlePlaceId : String) :
    PlacesCall → Prop
  | .setPlaceVisibility calls _ body => body.hiddenFromApp = false ∧
      MayName calls.toResolveCalls body.placeId body.googlePlaceId placeId googlePlaceId
  | .createCuration calls _ _ body => body.hiddenFromApp = some false ∧
      MayName calls.toResolveCalls body.placeId body.googlePlaceId placeId googlePlaceId
  | .updateCuration _ id body => body.hiddenFromApp = some false ∧ curated id
  | _ => False

/-- What call `i` answers, or may answer: what it has made itself, or what came of the
flight it joined. -/
inductive MayAnswer {ι : Type} (c : PlacesConfig ι) (i : ι) : AutocompletePayload → Prop
  | own {r : AutocompleteEnd} (h : c.returned i = some (some r)) : MayAnswer c i r.own
  | shared {leader : ι} {otherwise payload : AutocompletePayload}
      (h : c.returned i = some (some (.joined otherwise)))
      (hleader : c.returned leader = some (some (.led payload))) : MayAnswer c i payload

/-- The curations of the place that there are when it is hidden are expected. -/
theorem hidingPlace_begin {ι : Type} [DecidableEq ι] (flights : FlightEnv)
    (calls : ι → PlacesCall) (now : Int) {w : PlacesWorld}
    (hhidden : IsHidden placeId googlePlaceId w.db) :
    (ofWorld (hidingPlace (MayBeOf calls w placeId googlePlaceId) placeId googlePlaceId)).inv
      (beginPlaces flights calls now w).store :=
  ⟨hhidden, fun curation hmem hplace => .inl ⟨curation, hmem, rfl, hplace⟩⟩

section runs

variable {ι : Type} [DecidableEq ι] {flights : FlightEnv} {store : FlightStore ι PlacesWorld}

/-- What a call promises, from a world on. -/
def EndAllowed (googlePlaceId : String) (w : PlacesWorld) (r : Option AutocompleteEnd) : Prop :=
  ∀ answer, r = some answer → AnswerAllowed googlePlaceId w answer

omit [DecidableEq ι] in
theorem meets_writingOnly {α : Type} {p : WorldProg α} {start : PlacesWorld}
    {Q : α → PlacesWorld → Prop}
    (hp : p.Meets (hidingPlace curated placeId googlePlaceId) Q store.world) :
    (writingOnly p).Meets (ofWorld (hidingPlace curated placeId googlePlaceId))
      (fun r _ => EndAllowed googlePlaceId start r) store := by
  refine meets_bind (meets_onWorld hp) fun a t _ _ => ?_
  intro answer hanswer
  cases hanswer

omit [DecidableEq ι] in
/-- Time passes, or the cache drops something. -/
theorem meets_passing {f : FlightStore ι PlacesWorld → FlightStore ι PlacesWorld}
    {start : PlacesWorld} (hdb : ∀ t, (f t).world.db = t.world.db)
    (hcurations : ∀ t, (f t).world.curations = t.world.curations)
    (hcache : ∀ t key payload, (f t).world.cache key = some payload →
      t.world.cache key = some payload) :
    (stmt fun t => ⟨f t, [], .ok none⟩ :
      FlightProg ι PlacesWorld Failure (Option AutocompleteEnd)).Meets
        (ofWorld (hidingPlace curated placeId googlePlaceId))
        (fun r _ => EndAllowed googlePlaceId start r) store := by
  apply meets_stmt
  intro t _ hinv
  refine ⟨⟨?_, ?_⟩, fun key payload hkey _ => hcache t key payload hkey, ?_⟩
  · show IsHidden placeId googlePlaceId (f t).world.db
    rw [hdb]
    exact hinv.1
  · intro curation hcuration
    have hcuration : curation ∈ (f t).world.curations.rows := hcuration
    rw [hcurations] at hcuration
    exact hinv.2 curation hcuration
  · intro a ha answer hanswer
    cases ha
    cases hanswer

theorem meets_prog (hblank : trim googlePlaceId ≠ "") (self : ι) {call : PlacesCall}
    (hcall : ¬ call.MayShow curated placeId googlePlaceId)
    (hcurates : ∀ id, call.MayCurate placeId googlePlaceId id → curated id) :
    (call.prog flights self).Meets (ofWorld (hidingPlace curated placeId googlePlaceId))
      (fun r _ => EndAllowed googlePlaceId store.world r) store := by
  cases call with
  | autocomplete env process input =>
      refine meets_bind (meets_autocomplete hblank process self (fun _ _ h _ => h))
        fun answer t _ hanswer => ?_
      intro returned hreturned
      cases hreturned
      exact hanswer
  | resolve calls process input => exact meets_writingOnly (meets_resolve process input)
  | createManualPlace calls process input =>
      exact meets_writingOnly (meets_createManualPlace process input)
  | setPlaceVisibility calls process body =>
      exact meets_writingOnly (meets_setPlaceVisibility process fun h hname => hcall ⟨h, hname⟩)
  | createCuration calls process adminUserId body =>
      exact meets_writingOnly
        (meets_createCuration process adminUserId (fun h hname => hcall ⟨h, hname⟩)
          fun hname => hcurates _ ⟨rfl, hname⟩)
  | updateCuration calls id body =>
      exact meets_writingOnly (meets_updateCuration id fun h hid => hcall ⟨h, hid⟩)
  | deleteCuration id => exact meets_writingOnly (meets_deleteCuration id)
  | clock ms => exact meets_passing (fun _ => rfl) (fun _ => rfl) fun _ _ _ h => h
  | expire key =>
      refine meets_passing (fun _ => rfl) (fun _ => rfl) fun t other payload hother => ?_
      have hleft : Function.update t.world.cache key none other = some payload := hother
      by_cases hkey : other = key
      · rw [hkey, Function.update_self] at hleft
        cases hleft
      · rwa [Function.update_of_ne hkey] at hleft

omit [DecidableEq ι] in
/-- What a flight gives out does not show the place, so an answer that does is the call's own. -/
theorem cachedIfShown_of_mayAnswer {c : PlacesConfig ι} {i : ι} {mid : PlacesWorld}
    {payload : AutocompletePayload}
    (hends : ∀ j r, c.returned j = some (some r) →
      ∃ v, (j = i → v = mid) ∧ AnswerAllowed googlePlaceId v r)
    (hanswer : MayAnswer c i payload) : CachedIfShown googlePlaceId mid payload := by
  intro hshows
  cases hanswer with
  | @own r h =>
      obtain ⟨v, hv, hr⟩ := hends i r h
      rw [hv rfl] at hr
      cases r with
      | answered payload => exact hr hshows
      | joined payload => exact absurd hshows hr
      | led payload => exact absurd hshows hr
  | shared h hleader =>
      obtain ⟨v, -, hr⟩ := hends _ _ hleader
      exact absurd hshows hr

/-- Once a place is hidden, and nobody asks for it to be shown, a call that begins after
other calls gives it out only in an answer that was in the cache when the place was
hidden, and that is still there when the call begins. -/
theorem hidden_place_is_forgotten (flights : FlightEnv) (calls : ι → PlacesCall) (now : Int)
    (w : PlacesWorld) (placeId : Id) (googlePlaceId : String)
    (hhidden : IsHidden placeId googlePlaceId w.db) (hblank : trim googlePlaceId ≠ "")
    (hcalls : ∀ i, ¬ (calls i).MayShow (MayBeOf calls w placeId googlePlaceId) placeId
      googlePlaceId)
    (before after : List ι) (i : ι) (hi : i ∉ before) (payload : AutocompletePayload)
    (hanswer : MayAnswer ((beginPlaces flights calls now w).run (before ++ after)) i payload)
    (hshows : payload.Shows googlePlaceId) :
    ∃ key, w.cache key = some payload ∧
      ((beginPlaces flights calls now w).run before).store.world.cache key = some payload := by
  have hprog : ∀ j (s : FlightStore ι PlacesWorld), ((calls j).prog flights j).Meets
      (ofWorld (hidingPlace (MayBeOf calls w placeId googlePlaceId) placeId googlePlaceId))
      (fun r _ => EndAllowed googlePlaceId s.world r) s := fun j s =>
    meets_prog hblank j (hcalls j) fun _ hid => .inr ⟨j, hid⟩
  have hbegin := hidingPlace_begin flights calls now hhidden
  set c := beginPlaces flights calls now w
  obtain ⟨⟨hmid, hguar⟩, hothers⟩ := Config.contract_results
    (Q := fun _ r _ => EndAllowed googlePlaceId w r) (fun _ _ _ _ h _ => h) hbegin
    (fun j => hprog j c.store) before
  set mid := (c.run before).store.world
  -- the call has not moved yet
  have hcall : ((c.run before).calls i).Meets
      (ofWorld (hidingPlace (MayBeOf calls w placeId googlePlaceId) placeId googlePlaceId))
      (fun r _ => EndAllowed googlePlaceId mid r) (c.run before).store := by
    rw [c.run_calls_of_notMem hi]
    exact hprog i _
  obtain ⟨-, hlast⟩ := Config.contract_results
    (Q := fun j r _ => ∃ v, (j = i → v = mid) ∧ EndAllowed googlePlaceId v r)
    (fun _ _ _ _ h _ => h) hmid (fun j => by
      by_cases hj : j = i
      · rw [hj]
        exact hcall.mono fun _ _ h => ⟨mid, fun _ => rfl, h⟩
      · exact (hothers j).mono fun _ _ h => ⟨w, fun hself => absurd hself hj, h⟩) after
  rw [Config.run_append] at hanswer
  obtain ⟨key, hkey⟩ := cachedIfShown_of_mayAnswer (fun j r hr => by
    obtain ⟨v, hv, hallowed⟩ := Config.returned_of_meets (hlast j) hr
    exact ⟨v, hv, hallowed r rfl⟩) hanswer hshows
  exact ⟨key, hguar key payload hkey hshows, hkey⟩

end runs

/-! ### A cached answer -/

def hiddenBar : PlaceRecord where
  id := "bar"
  source := .google
  sourcePlaceId := some "google-bar"
  name := "Bar"
  address := ""
  city := ""
  hiddenFromApp := true

def answerWithBar : AutocompletePayload :=
  buildAutocompletePayload [localItem hiddenBar] "bar" true

def anAutocompleteEnv : AutocompleteEnv where
  isEnabled := true
  googlePlacesLocalOnly := false
  fetchSuggestions _ := .ok []
  setCachedValue := .ok ()
  containsInsensitive _ _ := true
  equalsInsensitive _ _ := true
  compareNames _ _ := 0
  toFixed3 _ := "0.000"
  toLowerCase := id
  order := id
  order_perm _ := .refl _

def hiddenCafe : PlaceRecord :=
  { hiddenBar with id := "cafe", sourcePlaceId := some "google-cafe", name := "Café" }

def cafeCuration : PlaceCurationRecord where
  id := "curated-cafe"
  placeId := "cafe"
  createdById := "admin"
  createdAt := 0
  updatedAt := 0

/-- Asked for before the bar was hidden, and the café with it. -/
def worldWithAnswer : PlacesWorld where
  db := ⟨⟨[hiddenBar, hiddenCafe], by decide⟩, .empty, by simp [hiddenBar, hiddenCafe]⟩
  curations := .singleton cafeCuration
  cache key := if key = "places:autocomplete:v1:bar::na:na:5" then some answerWithBar else none
  versions _ := 1

def adminCalls : AdminCalls :=
  { localOnlyCalls with
    parseDate := fun _ => none
    curationId := "curated"
    isStored := fun _ => true }

/-- An admin shows the café again, by its curation. -/
def showCafeThenAutocomplete : Bool → PlacesCall
  | true => .autocomplete anAutocompleteEnv "api" { q := "bar" }
  | false => .updateCuration adminCalls "curated-cafe" { hiddenFromApp := some false }

/-- The cache serves the bar for as long as it keeps the answer. -/
theorem cached_bar_is_given_out : ∃ key, worldWithAnswer.cache key = some answerWithBar ∧
    ((beginPlaces ⟨true, id⟩ showCafeThenAutocomplete 0 worldWithAnswer).run
      [false, false, false]).store.world.cache key = some answerWithBar :=
  hidden_place_is_forgotten ⟨true, id⟩ showCafeThenAutocomplete 0 worldWithAnswer "bar" "google-bar"
    ⟨hiddenBar, List.mem_cons_self, rfl, rfl, rfl⟩ (by decide)
    (fun
      | true => id
      | false => by
          rintro ⟨-, ⟨curation, hcuration, -, hplace⟩ | ⟨i, hi⟩⟩
          · rw [List.mem_singleton.mp hcuration] at hplace
            exact absurd hplace (by decide)
          · cases i <;> exact hi)
    [false, false, false] [true, true, true] true (by decide) answerWithBar
    (.own (r := .answered answerWithBar) (by decide))
    ⟨localItem hiddenBar, List.mem_singleton.mpr rfl, rfl⟩

end Feca.Places
