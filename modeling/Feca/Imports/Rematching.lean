import Feca.Imports.Ingestion

/-! # What a retry makes of a match

A retry processes the rows of an import one after the other, and writes every
one of them again: with the place that it finds and saves this time, or with none.
-/

namespace Feca.Imports

open Concurrency Concurrency.Prog Places Relational Social

variable {ω : Type} {env : ImportsEnv ω} {userId importId : Id} {s t : ImportDb ω}

/-! ## Finding a place again -/

section finding

variable (env) (userId)

abbrev lookUp (googlePlaceId : String) (s : ImportDb ω) :
    Answer (ImportDb ω) ImportEvent Failure (Option Id) :=
  (inWorld (env.getGooglePlace (normalizeGooglePlaceId googlePlaceId))).run s

abbrev resolved (googlePlaceId : String) (s : ImportDb ω) :
    Answer (ImportDb ω) ImportEvent Failure Id :=
  (inWorld (env.resolve googlePlaceId)).run s

abbrev saved (place : Id) (s : ImportDb ω) : Answer (ImportDb ω) ImportEvent Failure Unit :=
  (inWorld (env.savePlace userId place GOOGLE_DATA_PORTABILITY_IMPORT_REASON)).run s

/-- The place is stored under the Google id, or is resolved within the budget. -/
inductive Finds (googlePlaceId : String) (count : Nat) (s : ImportDb ω) : Id → ImportDb ω → Prop
  | stored {place : Id} (hlookUp : (lookUp env googlePlaceId s).result = .ok (some place)) :
      Finds googlePlaceId count s place (lookUp env googlePlaceId s).store
  | resolved {place : Id} (hlookUp : (lookUp env googlePlaceId s).result = .ok none)
      (hcount : count < MAX_REMOTE_PLACE_RESOLVES_PER_IMPORT_RUN)
      (hresolved : (resolved env googlePlaceId (lookUp env googlePlaceId s).store).result =
        .ok place) :
      Finds googlePlaceId count s place
        (resolved env googlePlaceId (lookUp env googlePlaceId s).store).store

/-- The item names a Google place, and the place is found for it and saved. -/
def Rematches (item : GoogleSavedCollectionItem) (count : Nat) (s : ImportDb ω) (place : Id) : Prop :=
  ∃ googlePlaceId t, (parseSavedCollectionItem env.parser item).googlePlaceId = some googlePlaceId ∧
    Finds env googlePlaceId count s place t ∧ (saved env userId place t).result = .ok ()

variable {env} {userId} {googlePlaceId : String} {count : Nat} {place : Id}

theorem finds_iff : Finds env googlePlaceId count s place t ↔
    t = ((findOrResolvePlace env googlePlaceId count).run s).store ∧
      ∃ n, ((findOrResolvePlace env googlePlaceId count).run s).result = .ok (some (place, n)) := by
  unfold findOrResolvePlace
  constructor
  · intro h
    cases h with
    | stored hlookUp =>
        rw [run_bind_ok hlookUp]
        exact ⟨rfl, 0, rfl⟩
    | resolved hlookUp hcount hresolved =>
        rw [run_bind_ok hlookUp]
        simp only [if_neg (Nat.not_le.mpr hcount)]
        rw [run_bind_ok hresolved]
        exact ⟨rfl, 1, rfl⟩
  · rintro ⟨ht, n, hresult⟩
    subst ht
    cases hlookUp : (lookUp env googlePlaceId s).result with
    | error e =>
        rw [run_bind_error hlookUp] at hresult
        cases hresult
    | ok found =>
        rw [run_bind_ok hlookUp] at hresult ⊢
        cases found with
        | some known =>
            cases hresult
            exact .stored hlookUp
        | none =>
            by_cases hcount : count < MAX_REMOTE_PLACE_RESOLVES_PER_IMPORT_RUN
            · simp only [if_neg (Nat.not_le.mpr hcount)] at hresult ⊢
              cases hresolved : (resolved env googlePlaceId
                  (lookUp env googlePlaceId s).store).result with
              | error e =>
                  rw [run_bind_error hresolved] at hresult
                  cases hresult
              | ok new =>
                  rw [run_bind_ok hresolved] at hresult ⊢
                  cases hresult
                  exact .resolved hlookUp hcount hresolved
            · simp only [if_pos (Nat.le_of_not_lt hcount)] at hresult
              cases hresult

theorem savedPlace_eq_some_iff : savedPlace env userId googlePlaceId count s = some place ↔
    ∃ t, Finds env googlePlaceId count s place t ∧ (saved env userId place t).result = .ok () := by
  simp only [finds_iff]
  unfold savedPlace
  dsimp only
  cases hfound : ((findOrResolvePlace env googlePlaceId count).run s).result with
  | error e => simp
  | ok found =>
      cases found with
      | none => simp
      | some found =>
          dsimp only
          cases hsaved : (saved env userId found.1
              ((findOrResolvePlace env googlePlaceId count).run s).store).result with
          | error e =>
              constructor
              · intro h
                cases h
              · rintro ⟨t, ⟨rfl, n, hn⟩, hok⟩
                cases hn
                rw [hsaved] at hok
                cases hok
          | ok _ =>
              constructor
              · intro h
                cases h
                exact ⟨_, ⟨rfl, found.2, rfl⟩, hsaved⟩
              · rintro ⟨t, ⟨rfl, n, hn⟩, hok⟩
                cases hn
                rfl

theorem matchedPlace_eq_some_iff {item : GoogleSavedCollectionItem} :
    matchedPlace env userId item count s = some place ↔ Rematches env userId item count s place := by
  unfold matchedPlace Rematches
  rw [Option.bind_eq_some_iff]
  simp only [savedPlace_eq_some_iff]
  constructor
  · rintro ⟨googlePlaceId, hid, t, hfinds, hsaved⟩
    exact ⟨googlePlaceId, t, hid, hfinds, hsaved⟩
  · rintro ⟨googlePlaceId, t, hid, hfinds, hsaved⟩
    exact ⟨googlePlaceId, hid, t, hfinds, hsaved⟩

end finding

/-! ## The turns of a retry -/

/-- A row that a retry comes to, with the count and the store it has then. -/
structure RetryTurn (ω : Type) where
  row : GoogleDataImportItem
  count : Nat
  before : ImportDb ω

section turns

variable (env) (userId importId)

def turnsOf : List GoogleDataImportItem → Nat → ImportDb ω → List (RetryTurn ω)
  | [], _, _ => []
  | row :: rows, count, s =>
      let answer := (processSavedCollectionItem env userId importId row.toItem count).run s
      { row, count, before := s } ::
        match answer.result with
        | .ok n => turnsOf rows (count + n) answer.store
        | .error _ => []

/-- What `listSavedCollectionItems` reads. -/
def savedCollectionItems (s : ImportDb ω) : List GoogleDataImportItem :=
  ((s.itemsOf importId).filter (·.resourceGroup == "saved.collections")).insertionSort
    fun a b => a.createdAt ≤ b.createdAt

/-- The turns of `executeRetry`: none for an import that the user does not own. -/
def retryTurns (s : ImportDb ω) : List (RetryTurn ω) :=
  match ((ensureImportForUser userId importId : ImportProg ω _).run s).result with
  | .ok _ => turnsOf env userId importId (savedCollectionItems importId s) 0 s
  | .error _ => []

variable {env} {userId} {importId}

/-- The row is matched to the place in this store. -/
def MatchedTo (row : GoogleDataImportItem) (place : Id) (s : ImportDb ω) : Prop :=
  ∃ stored ∈ s.items.rows, conflicts row stored = true ∧ stored.status = .matched ∧
    stored.mappedPlaceId = some place

variable {rows : List GoogleDataImportItem} {count : Nat} {turn : RetryTurn ω}

theorem turnsOf_cons (row : GoogleDataImportItem) {n : Nat}
    (h : ((processSavedCollectionItem env userId importId row.toItem count).run s).result = .ok n) :
    turnsOf env userId importId (row :: rows) count s = { row, count, before := s } ::
      turnsOf env userId importId rows (count + n)
        ((processSavedCollectionItem env userId importId row.toItem count).run s).store := by
  rw [turnsOf, h]

theorem mem_of_mem_turnsOf (h : turn ∈ turnsOf env userId importId rows count s) :
    turn.row ∈ rows := by
  induction rows generalizing s count with
  | nil => cases h
  | cons row rows ih =>
      rw [turnsOf, List.mem_cons] at h
      rcases h with rfl | h
      · exact List.mem_cons_self
      · cases hresult : ((processSavedCollectionItem env userId importId row.toItem count).run
            s).result with
        | ok n =>
            rw [hresult] at h
            exact List.mem_cons_of_mem _ (ih h)
        | error e =>
            rw [hresult] at h
            cases h

/-- Every row has its turn. -/
theorem exists_turn (himport : ∃ x ∈ s.imports.rows, x.id = importId) {row : GoogleDataImportItem}
    (hrow : row ∈ rows) : ∃ turn ∈ turnsOf env userId importId rows count s, turn.row = row := by
  induction rows generalizing s count with
  | nil => cases hrow
  | cons first rows ih =>
      obtain ⟨n, _, hresult, -, hupserts⟩ :=
        processSavedCollectionItem_run env userId himport first.toItem count
      rw [turnsOf_cons first hresult]
      rw [List.mem_cons] at hrow
      rcases hrow with rfl | hrow
      · exact ⟨_, List.mem_cons_self, rfl⟩
      · obtain ⟨turn, hturn, hturnRow⟩ := ih (by rwa [hupserts.imports]) hrow
        exact ⟨turn, List.mem_cons_of_mem _ hturn, hturnRow⟩

/-- After a row, no other row of the run is written in its place. -/
theorem stored_after_turn (himport : ∃ x ∈ s.imports.rows, x.id = importId)
    (hdistinct : rows.Pairwise fun a b => a.sourceKey ≠ b.sourceKey)
    (hturn : turn ∈ turnsOf env userId importId rows count s) :
    ∃ stored ∈ ((processItems env userId importId (rows.map (·.toItem)) count).run
        s).store.items.rows,
      RowOf importId (parseSavedCollectionItem env.parser turn.row.toItem) stored ∧
        stored.mappedPlaceId = matchedPlace env userId turn.row.toItem turn.count turn.before ∧
        stored.status = if stored.mappedPlaceId.isSome then .matched else .manualReview := by
  induction rows generalizing s count with
  | nil => cases hturn
  | cons row rows ih =>
      obtain ⟨n, written, hresult, hwritten, hupserts, hplace, hstatus⟩ :=
        storesPlace_processSavedCollectionItem env userId himport row.toItem count
      have hthere : ∃ x ∈ ((processSavedCollectionItem env userId importId row.toItem count).run
          s).store.imports.rows, x.id = importId := by
        rwa [hupserts.imports]
      rw [List.pairwise_cons] at hdistinct
      rw [turnsOf_cons row hresult, List.mem_cons] at hturn
      rw [List.map_cons]
      unfold processItems
      rw [run_bind_ok hresult]
      rcases hturn with rfl | hturn
      · obtain ⟨x, hx, hof, hdata⟩ := exists_mem_upserted hwritten s.items.rows
        rw [← hupserts.items] at hx
        have hstores := processItems_run env userId (rows.map (·.toItem)) (count + n) hthere
        refine ⟨x, hstores.mem_of_mem hx fun item hitem _ _ hsame => ?_, hof, ?_, ?_⟩
        · obtain ⟨other, hother, rfl⟩ := List.mem_map.mp hitem
          exact hdistinct.1 other hother (hof.sourceKey.symm.trans hsame.symm)
        · rw [hdata]
          exact hplace
        · rw [hdata, hstatus, hplace]
      · exact ih hthere hdistinct.2 hturn

end turns

/-! ## What a retry does to a match -/

section retry

variable {row stored : GoogleDataImportItem} {place : Id} {turn : RetryTurn ω}

theorem mem_savedCollectionItems : row ∈ savedCollectionItems importId s ↔
    row ∈ s.items.rows ∧ row.importId = importId ∧ row.resourceGroup = "saved.collections" := by
  unfold savedCollectionItems ImportDb.itemsOf
  rw [(List.perm_insertionSort _ _).mem_iff, List.mem_filter, List.mem_filter, beq_iff_eq,
    beq_iff_eq, and_assoc]

/-- Within one import and group, it is the source keys that differ. -/
theorem sourceKeys_savedCollectionItems (importId : Id) (s : ImportDb ω) :
    (savedCollectionItems importId s).Pairwise fun a b => a.sourceKey ≠ b.sourceKey := by
  unfold savedCollectionItems ImportDb.itemsOf
  rw [(List.perm_insertionSort _ _).pairwise_iff fun h => h.symm]
  have hdistinct := (s.items.distinct.filter (·.importId == importId)).filter
    (·.resourceGroup == "saved.collections")
  refine hdistinct.imp_of_mem fun {a b} ha hb hclash hsame => ?_
  rw [List.mem_filter, List.mem_filter, beq_iff_eq, beq_iff_eq] at ha hb
  have hkeys : (a.importId == b.importId && a.resourceGroup == b.resourceGroup &&
    a.sourceKey == b.sourceKey) = false := hclash
  simp [ha.1.2, hb.1.2, ha.2, hb.2, hsame] at hkeys

theorem ensureImportForUser_store (userId importId : Id) (s : ImportDb ω) :
    ((ensureImportForUser userId importId : ImportProg ω _).run s).store = s := by
  unfold ensureImportForUser getImportForUser
  rw [run_bind_ok (by rw [run_query]), run_query]
  cases ((s.findImport importId).filter (·.userId == userId)) <;> rfl

theorem owned_of_ensureImportForUser {found : GoogleDataImport × Nat}
    (h : ((ensureImportForUser userId importId : ImportProg ω _).run s).result = .ok found) :
    Owned userId importId s := by
  unfold ensureImportForUser getImportForUser at h
  rw [run_bind_ok (by rw [run_query]), run_query] at h
  cases hfind : (s.findImport importId).filter (·.userId == userId) with
  | none =>
      rw [hfind] at h
      cases h
  | some row =>
      obtain ⟨hrow, huser⟩ := Option.filter_eq_some_iff.mp hfind
      exact ⟨row, hrow, beq_iff_eq.mp huser⟩

/-- Whether there is something to retry or not, the rows are those of the run. -/
theorem executeRetry_items (env : ImportsEnv ω) (h : Owned userId importId s) :
    ((executeRetry env userId importId).run s).store.items = ((processItems env userId importId
      ((savedCollectionItems importId s).map (·.toItem)) 0).run s).store.items := by
  obtain ⟨found, hfound⟩ := ensureImportForUser_run h
  have hlist : ((listSavedCollectionItems importId : ImportProg ω _).run s) =
      ⟨s, [], .ok (savedCollectionItems importId s)⟩ := rfl
  unfold executeRetry
  rw [run_bind_ok (by rw [hfound]), hfound]
  dsimp only
  rw [run_bind_ok (by rw [hlist]), hlist]
  dsimp only
  split
  · rename_i hnone
    obtain ⟨row, hresult, hitems, -⟩ :=
      writeImport_run h (markFailed env.now noItemsToRetry) fun _ => rfl
    rw [List.length_eq_zero_iff.mp hnone, run_bind_ok hresult]
    exact hitems
  · have hstores := processItems_run env userId ((savedCollectionItems importId s).map (·.toItem)) 0
      h.mem
    exact (completeOrFail_run hstores.result (h.of_imports hstores.imports)).2

/-- The row of an item is the one that clashes with it. -/
theorem RowOf.conflicts_iff (hrow : RowOf importId (parseSavedCollectionItem env.parser row.toItem)
    stored) (himport : row.importId = importId) (hgroup : row.resourceGroup = "saved.collections") :
    ∀ x, conflicts row x = true ↔ conflicts stored x = true := by
  intro x
  have hkey : stored.sourceKey = row.sourceKey := hrow.sourceKey
  show (row.importId == x.importId && row.resourceGroup == x.resourceGroup &&
    row.sourceKey == x.sourceKey) = true ↔ (stored.importId == x.importId &&
      stored.resourceGroup == x.resourceGroup && stored.sourceKey == x.sourceKey) = true
  rw [hrow.importId, hrow.resourceGroup, hkey, himport, hgroup]

/-- A row that has its turn is matched afterwards to the place that is found then. -/
theorem matchedTo_iff_of_turn (h : Owned userId importId s)
    (hturn : turn ∈ turnsOf env userId importId (savedCollectionItems importId s) 0 s) :
    MatchedTo turn.row place ((executeRetry env userId importId).run s).store ↔
      Rematches env userId turn.row.toItem turn.count turn.before place := by
  obtain ⟨stored, hstored, hof, hplace, hstatus⟩ :=
    stored_after_turn h.mem (sourceKeys_savedCollectionItems importId s) hturn
  obtain ⟨-, himport, hgroup⟩ := mem_savedCollectionItems.mp (mem_of_mem_turnsOf hturn)
  have hclash := hof.conflicts_iff himport hgroup
  rw [← matchedPlace_eq_some_iff, ← hplace]
  unfold MatchedTo
  rw [executeRetry_items env h]
  constructor
  · rintro ⟨x, hx, hsame, -, hmapped⟩
    rw [Table.eq_of_conflicts hstored hx ((hclash x).mp hsame)]
    exact hmapped
  · intro hmapped
    refine ⟨stored, hstored, (hclash stored).mpr (conflicts_self stored), ?_, hmapped⟩
    rw [hstatus, hmapped]
    rfl

/-- A row that is matched to a place is still matched to it after a retry exactly
when its turn, if it has one, finds the place and saves it. -/
theorem retry_keeps_match_iff (env : ImportsEnv ω) (userId importId : Id)
    (hrow : row ∈ s.items.rows) (hstatus : row.status = .matched)
    (hplace : row.mappedPlaceId = some place) :
    MatchedTo row place ((executeRetry env userId importId).run s).store ↔
      ∀ turn ∈ retryTurns env userId importId s, turn.row = row →
        Rematches env userId row.toItem turn.count turn.before place := by
  unfold retryTurns
  cases hensure : ((ensureImportForUser userId importId : ImportProg ω _).run s).result with
  | error e =>
      have hstore : ((executeRetry env userId importId).run s).store = s := by
        unfold executeRetry
        rw [run_bind_error hensure]
        exact ensureImportForUser_store userId importId s
      rw [hstore]
      refine ⟨fun _ turn hturn => ?_, fun _ => ⟨row, hrow, conflicts_self row, hstatus, hplace⟩⟩
      cases hturn
  | ok found =>
      have howned := owned_of_ensureImportForUser hensure
      dsimp only
      constructor
      · rintro hmatched turn hturn rfl
        exact (matchedTo_iff_of_turn howned hturn).mp hmatched
      · intro hrematches
        by_cases hlisted : row ∈ savedCollectionItems importId s
        · obtain ⟨turn, hturn, rfl⟩ : ∃ turn ∈ turnsOf env userId importId
              (savedCollectionItems importId s) 0 s, turn.row = row := exists_turn howned.mem hlisted
          exact (matchedTo_iff_of_turn howned hturn).mpr (hrematches turn hturn rfl)
        · refine ⟨row, ?_, conflicts_self row, hstatus, hplace⟩
          rw [executeRetry_items env howned]
          have hstores := processItems_run env userId
            ((savedCollectionItems importId s).map (·.toItem)) 0 howned.mem
          refine hstores.mem_of_mem hrow fun item _ himport hgroup _ => hlisted ?_
          exact mem_savedCollectionItems.mpr ⟨hrow, himport, hgroup⟩

/-! ## A save that fails -/

def operaRow : GoogleDataImportItem where
  importId := "import"
  resourceGroup := "saved.collections"
  sourceKey := "ChIJ3S-JXmauEmsRUcIaWtf4MzE"
  rawTitle := some "Ópera"
  rawUrl := none
  rawPayload := [("id", .string "ChIJ3S-JXmauEmsRUcIaWtf4MzE")]
  mappedPlaceId := some "opera"
  kind := .savedPlace
  confidence := .high
  status := .matched
  createdAt := 0

/-- An import whose only item is matched. -/
def matchedImport : ImportDb Unit :=
  { anImportOf fetchingImport with
    items := .singleton operaRow
    item_import := by
      intro item hitem
      rw [List.mem_singleton.mp hitem]
      exact ⟨fetchingImport, List.mem_cons_self, rfl⟩ }

/-- The place is stored, and saving it fails or not. -/
def operaEnv (savePlace : Prog Unit Empty Failure Unit) : ImportsEnv Unit :=
  { anImportsEnv with
    getGooglePlace := fun _ => pure (some "opera")
    savePlace := fun _ _ _ => savePlace }

theorem saved_opera_stays_matched : MatchedTo operaRow "opera"
    ((executeRetry (operaEnv (pure ())) "ana" "import").run matchedImport).store := by
  have hturns : retryTurns (operaEnv (pure ())) "ana" "import" matchedImport =
      [⟨operaRow, 0, matchedImport⟩] := rfl
  have hmatched : matchedPlace (operaEnv (pure ())) "ana" operaRow.toItem 0 matchedImport =
      some "opera" := by decide
  refine (retry_keeps_match_iff (operaEnv (pure ())) "ana" "import" List.mem_cons_self rfl
    rfl).mpr fun turn hturn _ => ?_
  rw [hturns] at hturn
  rw [List.mem_singleton.mp hturn]
  exact matchedPlace_eq_some_iff.mp hmatched

/-- The place is found as before, but the row is not matched to it any more. -/
theorem unsaved_opera_is_lost :
    let env := operaEnv (.fail (.database recordNotFound))
    operaRow ∈ matchedImport.items.rows ∧ operaRow.status = .matched ∧
      operaRow.mappedPlaceId = some "opera" ∧
      (lookUp env "ChIJ3S-JXmauEmsRUcIaWtf4MzE" matchedImport).result = .ok (some "opera") ∧
      ¬ MatchedTo operaRow "opera" ((executeRetry env "ana" "import").run matchedImport).store := by
  refine ⟨List.mem_cons_self, rfl, rfl, rfl, ?_⟩
  rintro ⟨stored, hstored, -, -, hplace⟩
  have hplaces : ((executeRetry (operaEnv (.fail (.database recordNotFound))) "ana" "import").run
      matchedImport).store.items.rows.map (·.mappedPlaceId) = [none] := by decide
  have hnone := List.mem_map_of_mem hstored (f := fun row => row.mappedPlaceId)
  rw [hplaces, hplace, List.mem_singleton] at hnone
  cases hnone

end retry

end Feca.Imports
