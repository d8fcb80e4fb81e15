import Feca.Imports.Service
import Feca.Relational.Upsert

/-! # One row for each submitted item

A job stores its items under the source keys they were queued with. Items with
one key share a row, and the last of them is what it holds.
-/

namespace Feca.Imports

open Concurrency Concurrency.Prog Relational Social

variable {ω : Type} {env : ImportsEnv ω} {s t : ImportDb ω} {userId importId : Id}

/-! ## What the job writes -/

/-- Only the world has changed. -/
structure SameRows (s t : ImportDb ω) : Prop where
  imports : t.imports = s.imports
  items : t.items = s.items
  jobs : t.jobs = s.jobs

theorem SameRows.refl (s : ImportDb ω) : SameRows s s := ⟨rfl, rfl, rfl⟩

theorem SameRows.trans {u : ImportDb ω} (hst : SameRows s t) (htu : SameRows t u) : SameRows s u :=
  ⟨htu.imports.trans hst.imports, htu.items.trans hst.items, htu.jobs.trans hst.jobs⟩

theorem sameRows_inWorld {α : Type} (p : Prog ω Empty Failure α) :
    (inWorld p : ImportProg ω α).Always fun s t _ => SameRows s t :=
  always_onPart p fun _ _ => ⟨rfl, rfl, rfl⟩

theorem sameRows_query {α : Type} (read : ImportDb ω → α) :
    (query read : ImportProg ω α).Always fun s t _ => SameRows s t :=
  always_stmt fun s => SameRows.refl s

theorem sameRows_run {α : Type} {p : ImportProg ω α} (hp : p.Always fun s t _ => SameRows s t)
    (s : ImportDb ω) : SameRows s (p.run s).store :=
  hp.run SameRows.refl (fun _ _ _ _ _ => SameRows.trans) s

/-- The `update` of an upsert. -/
def takeData (row old : GoogleDataImportItem) : GoogleDataImportItem :=
  { old with toItemData := row.toItemData }

structure Upserts (row : GoogleDataImportItem) (s t : ImportDb ω) : Prop where
  imports : t.imports = s.imports
  jobs : t.jobs = s.jobs
  items : t.items.rows = upserted takeData s.items.rows row

theorem Upserts.of_sameRows {u : ImportDb ω} {row : GoogleDataImportItem} (hst : SameRows s t)
    (htu : Upserts row t u) : Upserts row s u := by
  refine ⟨htu.imports.trans hst.imports, htu.jobs.trans hst.jobs, ?_⟩
  rw [htu.items, hst.items]

/-- As long as the import is there, an upsert succeeds. -/
theorem upsertItem_ok (row : GoogleDataImportItem)
    (himport : ∃ x ∈ s.imports.rows, x.id = row.importId) :
    ∃ t, s.upsertItem row = .ok t ∧ Upserts row s t := by
  unfold ImportDb.upsertItem
  by_cases hany : s.items.rows.any (conflicts row) = true
  · rw [if_pos hany]
    exact ⟨_, rfl, rfl, rfl, (if_pos hany).symm⟩
  · rw [if_neg hany, dif_pos himport]
    have hfresh : ∀ x ∈ s.items.rows, conflicts row x = false := by
      intro x hx
      by_contra hclash
      exact hany (List.any_eq_true.mpr ⟨x, hx, by simpa using hclash⟩)
    split
    · rename_i hnone
      obtain ⟨x, hx, hclash⟩ := Table.insert_eq_none hnone
      rw [conflicts_symm, hfresh x hx] at hclash
      cases hclash
    · rename_i items hsome
      refine ⟨_, rfl, rfl, rfl, ?_⟩
      rw [upserted_of_fresh takeData hfresh]
      exact (Table.insert_eq_some hsome).1

/-- The row of a parsed item, whatever became of its place. -/
structure RowOf (importId : Id) (parsed : ParsedGoogleSavedPlace) (row : GoogleDataImportItem) :
    Prop where
  importId : row.importId = importId
  resourceGroup : row.resourceGroup = "saved.collections"
  sourceKey : row.sourceKey = parsed.sourceKey
  rawTitle : row.rawTitle = parsed.title
  rawUrl : row.rawUrl = parsed.url
  rawPayload : row.rawPayload = toPrismaFields parsed.rawPayload

theorem rowOf_itemRow (env : ImportsEnv ω) (parsed : ParsedGoogleSavedPlace)
    (mappedPlaceId : Option Id) (confidence : GoogleDataImportItemConfidence)
    (status : GoogleDataImportItemStatus) :
    RowOf importId parsed (itemRow env importId parsed mappedPlaceId confidence status) :=
  ⟨rfl, rfl, rfl, rfl, rfl, rfl⟩

/-- The answer of a program that stores a row of the item. -/
def Stores (importId : Id) (parsed : ParsedGoogleSavedPlace) (s : ImportDb ω)
    (answer : Answer (ImportDb ω) ImportEvent Failure Nat) : Prop :=
  ∃ count row, answer.result = .ok count ∧ RowOf importId parsed row ∧ Upserts row s answer.store

variable {parsed : ParsedGoogleSavedPlace}

theorem upsertItem_run (row : GoogleDataImportItem)
    (himport : ∃ x ∈ s.imports.rows, x.id = row.importId) (count : Nat) :
    ∃ t, (do upsertItem row; pure count : ImportProg ω Nat).run s = ⟨t, [], .ok count⟩ ∧
      Upserts row s t := by
  obtain ⟨t, ht, hupserts⟩ := upsertItem_ok row himport
  have hrun : (upsertItem row : ImportProg ω Unit).run s = ⟨t, [], .ok ()⟩ := by
    rw [upsertItem, run_stmt, ht]
  refine ⟨t, ?_, hupserts⟩
  rw [run_bind_ok (by rw [hrun]), run_pure, hrun]
  rfl

/-- The answer of a program that stores a row of the item, with the place that
has been found for it. -/
def StoresPlace (importId : Id) (parsed : ParsedGoogleSavedPlace) (place : Option Id)
    (s : ImportDb ω) (answer : Answer (ImportDb ω) ImportEvent Failure Nat) : Prop :=
  ∃ count row, answer.result = .ok count ∧ RowOf importId parsed row ∧ Upserts row s answer.store ∧
    row.mappedPlaceId = place ∧ row.status = if place.isSome then .matched else .manualReview

theorem StoresPlace.stores {place : Option Id}
    {answer : Answer (ImportDb ω) ImportEvent Failure Nat}
    (h : StoresPlace importId parsed place s answer) : Stores importId parsed s answer := by
  obtain ⟨count, row, hresult, hrow, hupserts, -⟩ := h
  exact ⟨count, row, hresult, hrow, hupserts⟩

theorem storesPlace_upsertItem (himport : ∃ x ∈ s.imports.rows, x.id = importId)
    {row : GoogleDataImportItem} (hrow : RowOf importId parsed row)
    (hstatus : row.status = if row.mappedPlaceId.isSome then .matched else .manualReview)
    (count : Nat) : StoresPlace importId parsed row.mappedPlaceId s
      ((do upsertItem row; pure count : ImportProg ω Nat).run s) := by
  obtain ⟨t, hrun, hupserts⟩ := upsertItem_run row (by rwa [hrow.importId]) count
  rw [hrun]
  exact ⟨count, row, rfl, hrow, hupserts, rfl, hstatus⟩

theorem StoresPlace.of_sameRows {place : Option Id}
    {answer : Answer (ImportDb ω) ImportEvent Failure Nat} (hst : SameRows s t)
    (h : StoresPlace importId parsed place t answer) :
    StoresPlace importId parsed place s answer := by
  obtain ⟨count, row, hresult, hrow, hupserts, hplace⟩ := h
  exact ⟨count, row, hresult, hrow, hupserts.of_sameRows hst, hplace⟩

theorem SameRows.hasImport (hst : SameRows s t) (h : ∃ x ∈ s.imports.rows, x.id = importId) :
    ∃ x ∈ t.imports.rows, x.id = importId := by
  rwa [hst.imports]

theorem sameRows_findOrResolvePlace (env : ImportsEnv ω) (googlePlaceId : String) (count : Nat) :
    (findOrResolvePlace env googlePlaceId count).Always fun s t _ => SameRows s t := by
  unfold findOrResolvePlace
  refine always_bind (sameRows_inWorld _) fun found => ?_
  cases found with
  | some place => trivial
  | none =>
      dsimp only
      split
      · trivial
      · exact always_bind (sameRows_inWorld _) fun _ => trivial

/-- The place that is found and saved for a Google id. -/
def savedPlace (env : ImportsEnv ω) (userId : Id) (googlePlaceId : String) (count : Nat)
    (s : ImportDb ω) : Option Id :=
  let found := (findOrResolvePlace env googlePlaceId count).run s
  match found.result with
  | .ok (some (place, _)) =>
      let saved : Answer (ImportDb ω) ImportEvent Failure Unit := (inWorld
        (env.savePlace userId place GOOGLE_DATA_PORTABILITY_IMPORT_REASON)).run found.store
      if saved.result.isOk then some place else none
  | _ => none

/-- The `try` stores a row, or throws before it has stored one. -/
theorem importPlace_run (env : ImportsEnv ω) (userId : Id) (parsed : ParsedGoogleSavedPlace)
    (himport : ∃ x ∈ s.imports.rows, x.id = importId) (googlePlaceId : String) (count : Nat) :
    let answer := (importPlace env userId importId parsed googlePlaceId count).run s
    let place := savedPlace env userId googlePlaceId count s
    StoresPlace importId parsed place s answer ∨
      (∃ e, answer.result = .error e) ∧ SameRows s answer.store ∧ place = none := by
  have hfound := sameRows_run (sameRows_findOrResolvePlace env googlePlaceId count) s
  unfold importPlace savedPlace
  cases hresult : ((findOrResolvePlace env googlePlaceId count).run s).result with
  | error e =>
      rw [run_bind_error hresult]
      exact .inr ⟨⟨e, rfl⟩, hfound, by dsimp only; rw [hresult]⟩
  | ok found =>
      rw [run_bind_ok hresult]
      cases found with
      | none =>
          have hstores := storesPlace_upsertItem (hfound.hasImport himport)
            (rowOf_itemRow env parsed none .high .manualReview) rfl 0
          left
          dsimp only
          rw [hresult]
          exact hstores.of_sameRows hfound
      | some found =>
          dsimp only
          rw [hresult]
          dsimp only
          have hsaved := sameRows_run (sameRows_inWorld
            (env.savePlace userId found.1 GOOGLE_DATA_PORTABILITY_IMPORT_REASON))
            ((findOrResolvePlace env googlePlaceId count).run s).store
          cases hsave : ((inWorld (env.savePlace userId found.1
              GOOGLE_DATA_PORTABILITY_IMPORT_REASON) : ImportProg ω Unit).run
                ((findOrResolvePlace env googlePlaceId count).run s).store).result with
          | error e =>
              rw [run_bind_error hsave]
              exact .inr ⟨⟨e, rfl⟩, hfound.trans hsaved, rfl⟩
          | ok _ =>
              rw [run_bind_ok hsave]
              have hstores := storesPlace_upsertItem ((hfound.trans hsaved).hasImport himport)
                (rowOf_itemRow env parsed (some found.1) .high .matched) rfl found.2
              exact .inl (hstores.of_sameRows (hfound.trans hsaved))

/-- The place with which an item is stored. -/
def matchedPlace (env : ImportsEnv ω) (userId : Id) (item : GoogleSavedCollectionItem) (count : Nat)
    (s : ImportDb ω) : Option Id :=
  (parseSavedCollectionItem env.parser item).googlePlaceId.bind fun googlePlaceId =>
    savedPlace env userId googlePlaceId count s

/-- Whatever goes wrong with its place, an item is stored. -/
theorem storesPlace_processSavedCollectionItem (env : ImportsEnv ω) (userId : Id)
    (himport : ∃ x ∈ s.imports.rows, x.id = importId) (item : GoogleSavedCollectionItem)
    (count : Nat) :
    StoresPlace importId (parseSavedCollectionItem env.parser item)
      (matchedPlace env userId item count s) s
      ((processSavedCollectionItem env userId importId item count).run s) := by
  unfold processSavedCollectionItem matchedPlace
  dsimp only
  cases hid : (parseSavedCollectionItem env.parser item).googlePlaceId with
  | none => exact storesPlace_upsertItem himport (rowOf_itemRow env _ none .low .manualReview) rfl 0
  | some googlePlaceId =>
      dsimp only
      rw [run_bind_ok (by rw [run_attempt]), run_attempt, Option.bind_some]
      dsimp only
      rcases importPlace_run env userId (parseSavedCollectionItem env.parser item) himport
        googlePlaceId count with
        ⟨found, row, hresult, hstores⟩ | ⟨⟨e, hresult⟩, hsame, hnone⟩
      · rw [hresult]
        exact ⟨found, row, rfl, hstores⟩
      · rw [hresult, hnone]
        have hstores := storesPlace_upsertItem (hsame.hasImport himport)
          (rowOf_itemRow env (parseSavedCollectionItem env.parser item) none .high .manualReview)
          rfl 0
        exact hstores.of_sameRows hsame

theorem processSavedCollectionItem_run (env : ImportsEnv ω) (userId : Id)
    (himport : ∃ x ∈ s.imports.rows, x.id = importId) (item : GoogleSavedCollectionItem)
    (count : Nat) :
    Stores importId (parseSavedCollectionItem env.parser item) s
      ((processSavedCollectionItem env userId importId item count).run s) :=
  (storesPlace_processSavedCollectionItem env userId himport item count).stores

/-! ## What a whole job writes -/

/-- One row for each item, whatever became of its place. -/
def RowsOf (env : ParserEnv) (importId : Id) (items : List GoogleSavedCollectionItem)
    (rows : List GoogleDataImportItem) : Prop :=
  List.Forall₂ (fun item row => RowOf importId (parseSavedCollectionItem env item) row) items rows

/-- The answer of a program that upserts one row after the other. -/
structure StoresAll (env : ParserEnv) (importId : Id) (items : List GoogleSavedCollectionItem)
    (s : ImportDb ω) (answer : Answer (ImportDb ω) ImportEvent Failure Unit) : Prop where
  result : answer.result = .ok ()
  imports : answer.store.imports = s.imports
  jobs : answer.store.jobs = s.jobs
  items : ∃ rows, RowsOf env importId items rows ∧
    answer.store.items.rows = rows.foldl (upserted takeData) s.items.rows

theorem processItems_run (env : ImportsEnv ω) (userId : Id)
    (items : List GoogleSavedCollectionItem) (count : Nat)
    (himport : ∃ x ∈ s.imports.rows, x.id = importId) :
    StoresAll env.parser importId items s ((processItems env userId importId items count).run s) := by
  induction items generalizing s count with
  | nil => exact ⟨rfl, rfl, rfl, [], .nil, rfl⟩
  | cons item items ih =>
      obtain ⟨resolved, row, hresult, hrow, hupserts⟩ :=
        processSavedCollectionItem_run env userId himport item count
      have hthere : ∃ x ∈ ((processSavedCollectionItem env userId importId item count).run
          s).store.imports.rows, x.id = importId := by
        rwa [hupserts.imports]
      have hrest := ih (count + resolved) hthere
      obtain ⟨rows, hrows, hitems⟩ := hrest.items
      unfold processItems
      rw [run_bind_ok hresult]
      refine ⟨hrest.result, hrest.imports.trans hupserts.imports, hrest.jobs.trans hupserts.jobs,
        row :: rows, .cons hrow hrows, ?_⟩
      rw [List.foldl_cons, ← hupserts.items]
      exact hitems

/-! ## Rows and source keys -/

section keys

variable {items : List GoogleSavedCollectionItem} {rows : List GoogleDataImportItem}

theorem RowsOf.group {parser : ParserEnv} (hrows : RowsOf parser importId items rows) :
    ∀ row ∈ rows, row.importId = importId ∧ row.resourceGroup = "saved.collections" := by
  intro row hrow
  induction hrows with
  | nil => cases hrow
  | cons hhead _ ih =>
      rw [List.mem_cons] at hrow
      rcases hrow with rfl | hrow
      · exact ⟨hhead.importId, hhead.resourceGroup⟩
      · exact ih hrow

theorem RowsOf.sourceKeys {parser : ParserEnv} (hrows : RowsOf parser importId items rows) :
    rows.map (·.sourceKey) =
      items.map fun item => (parseSavedCollectionItem parser item).sourceKey := by
  induction hrows with
  | nil => rfl
  | cons hrow _ ih => rw [List.map_cons, List.map_cons, hrow.sourceKey, ih]

/-- Rows of one import clash where their source keys are the same. -/
theorem RowsOf.distinct_iff {parser : ParserEnv} (hrows : RowsOf parser importId items rows) :
    rows.Pairwise (fun a b => conflicts a b = false) ↔
      (items.map fun item => (parseSavedCollectionItem parser item).sourceKey).Nodup := by
  rw [← hrows.sourceKeys, List.Nodup, List.pairwise_map]
  refine List.Pairwise.iff_of_mem fun {a b} ha hb => ?_
  show ((a.importId == b.importId && a.resourceGroup == b.resourceGroup &&
    a.sourceKey == b.sourceKey) = false) ↔ _
  rw [(hrows.group a ha).1, (hrows.group b hb).1, (hrows.group a ha).2, (hrows.group b hb).2]
  simp

/-- The row is there as soon as its item has been processed. -/
theorem exists_mem_upserted {parsed : ParsedGoogleSavedPlace} {row : GoogleDataImportItem}
    (hrow : RowOf importId parsed row) (old : List GoogleDataImportItem) :
    ∃ x ∈ upserted takeData old row, RowOf importId parsed x ∧ x.toItemData = row.toItemData := by
  unfold upserted
  split
  · rename_i hany
    obtain ⟨x, hx, hclash⟩ := List.any_eq_true.mp hany
    have hkeys : ((row.importId == x.importId) = true ∧
        (row.resourceGroup == x.resourceGroup) = true) ∧ (row.sourceKey == x.sourceKey) = true := by
      rw [← Bool.and_eq_true, ← Bool.and_eq_true]
      exact hclash
    simp only [beq_iff_eq] at hkeys
    refine ⟨takeData row x, List.mem_map.mpr ⟨x, hx, by rw [if_pos hclash]⟩, ?_, rfl⟩
    exact ⟨hkeys.1.1.symm.trans hrow.importId, hkeys.1.2.symm.trans hrow.resourceGroup,
      hkeys.2.symm.trans hrow.sourceKey, hrow.rawTitle, hrow.rawUrl, hrow.rawPayload⟩
  · exact ⟨row, List.mem_append_right _ List.mem_cons_self, hrow, rfl⟩

/-- A run writes the rows of its own items. -/
theorem StoresAll.mem_of_mem {parser : ParserEnv} {row : GoogleDataImportItem}
    {answer : Answer (ImportDb ω) ImportEvent Failure Unit}
    (hstores : StoresAll parser importId items s answer) (hmem : row ∈ s.items.rows)
    (hapart : ∀ item ∈ items, row.importId = importId → row.resourceGroup = "saved.collections" →
      (parseSavedCollectionItem parser item).sourceKey ≠ row.sourceKey) :
    row ∈ answer.store.items.rows := by
  obtain ⟨rows, hrows, hitems⟩ := hstores.items
  rw [hitems]
  refine mem_foldl_upserted_of_mem hmem fun other hother => ?_
  obtain ⟨himport, hgroup⟩ := hrows.group other hother
  show (other.importId == row.importId && other.resourceGroup == row.resourceGroup &&
    other.sourceKey == row.sourceKey) = false
  rw [himport, hgroup]
  by_contra hclash
  simp only [Bool.not_eq_false, Bool.and_eq_true, beq_iff_eq] at hclash
  have hamong : other.sourceKey ∈
      items.map fun item => (parseSavedCollectionItem parser item).sourceKey := by
    rw [← hrows.sourceKeys]
    exact List.mem_map_of_mem hother
  obtain ⟨item, hitem, hkey⟩ := List.mem_map.mp hamong
  exact hapart item hitem hclash.1.1.symm hclash.1.2.symm (hkey.trans hclash.2)

end keys

/-- Into an import without items, each item of a run gets a row exactly when the
source keys are different. -/
theorem rowsOf_itemsOf_iff {parser : ParserEnv} {items : List GoogleSavedCollectionItem}
    {answer : Answer (ImportDb ω) ImportEvent Failure Unit}
    (hstores : StoresAll parser importId items s answer) (hempty : s.itemsOf importId = []) :
    RowsOf parser importId items (answer.store.itemsOf importId) ↔
      (items.map fun item => (parseSavedCollectionItem parser item).sourceKey).Nodup := by
  obtain ⟨rows, hrows, hitems⟩ := hstores.items
  have hclash : ∀ row ∈ rows, ∀ old : GoogleDataImportItem, conflicts row old = true →
      (old.importId == importId) = true ∧ ((takeData row old).importId == importId) = true := by
    intro row hrow old hclash
    have hkeys : (row.importId == old.importId && row.resourceGroup == old.resourceGroup &&
      row.sourceKey == old.sourceKey) = true := hclash
    rw [Bool.and_eq_true, Bool.and_eq_true, (hrows.group row hrow).1, BEq.comm] at hkeys
    exact ⟨hkeys.1.1, hkeys.1.1⟩
  have hstored : answer.store.itemsOf importId = rows.foldl (upserted takeData) [] := by
    unfold ImportDb.itemsOf at hempty ⊢
    rw [hitems, filter_foldl_upserted (fun row hrow => by simp [(hrows.group row hrow).1]) hclash,
      hempty]
  rw [hstored, ← hrows.distinct_iff]
  constructor
  · intro h
    have hlength : (rows.foldl (upserted takeData) []).length = 0 + rows.length := by
      rw [← h.length_eq, hrows.length_eq, Nat.zero_add]
    exact (fresh_of_length_foldl_upserted hlength).1
  · intro hdistinct
    have hnothing : ∀ row ∈ rows, ∀ old ∈ ([] : List GoogleDataImportItem),
        conflicts row old = false := by
      intro _ _ old hold
      cases hold
    rw [foldl_upserted_of_fresh hdistinct hnothing, List.nil_append]
    exact hrows

/-! ## From the request to the end of its job -/

/-- The jobs, one after the other. -/
def runJobs (env : ImportsEnv ω) : List ImportJob → ImportProg ω Unit
  | [] => pure ()
  | job :: jobs => do
      let _ ← (runJob env job).attempt
      runJobs env jobs

/-- The request, and then the jobs that it has queued. -/
def ingested (env jobEnv : ImportsEnv ω) (userId importId : Id)
    (items : List GoogleSavedCollectionItem) (s : ImportDb ω) : ImportDb ω :=
  let queued := ((enqueueIngestSavedCollections env userId importId items).run s).store
  ((runJobs jobEnv (queued.jobs.drop s.jobs.length)).run queued).store

/-- An import row that the user owns is there. -/
def Owned (userId importId : Id) (s : ImportDb ω) : Prop :=
  ∃ row, s.findImport importId = some row ∧ row.userId = userId

theorem Owned.mem (h : Owned userId importId s) : ∃ x ∈ s.imports.rows, x.id = importId := by
  obtain ⟨row, hfind, -⟩ := h
  exact ⟨row, List.mem_of_find?_eq_some hfind, by simpa using List.find?_some hfind⟩

theorem Owned.of_imports (h : Owned userId importId s) (himports : t.imports = s.imports) :
    Owned userId importId t := by
  unfold Owned ImportDb.findImport at h ⊢
  rwa [himports]

theorem ensureImportForUser_run (h : Owned userId importId s) :
    ∃ found, (ensureImportForUser userId importId).run s = ⟨s, [], .ok found⟩ := by
  obtain ⟨row, hfind, hmine⟩ := h
  have hfound : ((s.findImport importId).filter (·.userId == userId)) = some row := by
    rw [hfind]
    simp [Option.filter, hmine]
  refine ⟨(row, (s.itemsOf importId).length), ?_⟩
  unfold ensureImportForUser getImportForUser
  rw [run_bind_ok (by rw [run_query]), run_query]
  rw [hfound]
  rfl

/-- A write that leaves the import to its user succeeds. -/
theorem writeImport_run (h : Owned userId importId s) (write : ImportWrite)
    (huser : ∀ row, (write.data row).userId = row.userId) :
    ∃ row, ((writeImport importId write).run s).result = .ok row ∧
      ((writeImport importId write).run s).store.items = s.items ∧
      ((writeImport importId write).run s).store.jobs = s.jobs ∧
      Owned userId importId ((writeImport importId write).run s).store := by
  obtain ⟨row, hfind, hmine⟩ := h
  have hid : row.id = importId := by simpa using List.find?_some hfind
  unfold writeImport
  rw [run_stmt, hfind]
  refine ⟨write.data row, rfl, rfl, rfl, write.data row, ?_, (huser row).trans hmine⟩
  rw [ImportDb.findImport_setImport, hfind]
  simp [hid]

/-- The request leaves the items alone and queues its job. -/
theorem enqueued_run (env : ImportsEnv ω) (h : Owned userId importId s) (job : ImportJob) :
    ((enqueued env userId importId job).run s).store.items = s.items ∧
      ((enqueued env userId importId job).run s).store.jobs = s.jobs ++ [job] ∧
      Owned userId importId ((enqueued env userId importId job).run s).store := by
  obtain ⟨row, hresult, hitems, hjobs, howned⟩ :=
    writeImport_run h (markProcessing env.now) fun _ => rfl
  unfold enqueued
  rw [run_bind_ok hresult]
  generalize ((writeImport importId (markProcessing env.now)).run s).store = u at *
  have hshown : (getImport env userId importId).Always fun s t _ => SameRows s t := by
    unfold getImport ensureImportForUser getImportForUser getCounts
    refine always_bind (always_bind (sameRows_query _) fun found => ?_) fun _ => ?_
    · cases found with
      | none => trivial
      | some found => trivial
    · exact always_bind (sameRows_query _) fun _ => always_bind (sameRows_inWorld _) fun _ => trivial
  have hqueued : ((enqueueJob job : ImportProg ω Unit).run u).result = .ok () := by
    rw [enqueueJob, run_stmt]
  rw [run_bind_ok hqueued]
  have hsame := sameRows_run (always_bind hshown fun snapshot =>
    always_pure (ImportAnswer.queued env.jobId snapshot))
    ((enqueueJob job : ImportProg ω Unit).run u).store
  refine ⟨?_, ?_, howned.of_imports ?_⟩
  · rw [← hitems]
    exact hsame.items
  · rw [← hjobs]
    exact hsame.jobs
  · exact hsame.imports

/-- A body that goes through is followed by the mark, which leaves its items. -/
theorem completeOrFail_run {fallback : String} {body : ImportProg ω Unit}
    (hbody : (body.run s).result = .ok ()) (h : Owned userId importId (body.run s).store) :
    ((completeOrFail env importId fallback body).run s).result = .ok () ∧
      ((completeOrFail env importId fallback body).run s).store.items = (body.run s).store.items := by
  obtain ⟨row, hresult, hitems, -, -⟩ :=
    writeImport_run h (markComplete env.now) fun _ => rfl
  have hdone : ((do
      body
      let _ ← writeImport importId (markComplete env.now)
      pure () : ImportProg ω Unit).run s).result = .ok () := by
    rw [run_bind_ok hbody, run_bind_ok hresult]
    rfl
  unfold completeOrFail
  rw [run_bind_ok (by rw [run_attempt])]
  rw [run_attempt]
  dsimp only
  rw [hdone]
  refine ⟨rfl, ?_⟩
  show ((do
    body
    let _ ← writeImport importId (markComplete env.now)
    pure () : ImportProg ω Unit).run s).store.items = _
  rw [run_bind_ok hbody, run_bind_ok hresult]
  exact hitems

/-- What the job of a request leaves of its items. -/
theorem executeIngestSavedCollections_run (env : ImportsEnv ω) (h : Owned userId importId s)
    (items : List IngestJobItem) :
    ∃ answer : Answer (ImportDb ω) ImportEvent Failure Unit,
      StoresAll env.parser importId (items.map (·.toItem)) s answer ∧
      ((executeIngestSavedCollections env { userId, importId, items }).run s).store.items =
        answer.store.items := by
  obtain ⟨found, hfound⟩ := ensureImportForUser_run h
  have hstores := processItems_run env userId (items.map (·.toItem)) 0 h.mem
  refine ⟨_, hstores, ?_⟩
  unfold executeIngestSavedCollections
  rw [run_bind_ok (by rw [hfound]), hfound]
  exact (completeOrFail_run hstores.result (h.of_imports hstores.imports)).2

theorem ingested_of_ne_nil (env jobEnv : ImportsEnv ω) {items : List GoogleSavedCollectionItem}
    (hitems : items ≠ []) (h : Owned userId importId s) :
    ∃ t : ImportDb ω, t.items = s.items ∧ Owned userId importId t ∧
      (ingested env jobEnv userId importId items s).items =
        ((executeIngestSavedCollections jobEnv
          { userId, importId, items := items.map queuedItem }).run t).store.items := by
  obtain ⟨found, hfound⟩ := ensureImportForUser_run h
  have hlength : ¬ items.length = 0 := fun hzero => hitems (List.length_eq_zero_iff.mp hzero)
  let job : ImportJob := .ingestSaved { userId, importId, items := items.map queuedItem }
  have hrun : ((enqueueIngestSavedCollections env userId importId items).run s).store =
      ((enqueued env userId importId job).run s).store := by
    unfold enqueueIngestSavedCollections
    rw [if_neg hlength, run_bind_ok (by rw [hfound]), hfound]
  obtain ⟨hsame, hjobs, howned⟩ := enqueued_run env h job
  refine ⟨_, hsame, howned, ?_⟩
  unfold ingested
  dsimp only
  rw [hrun, hjobs, List.drop_left]
  show ((do
    let _ ← (runJob jobEnv job).attempt
    runJobs jobEnv [] : ImportProg ω Unit).run _).store.items = _
  rw [run_bind_ok (by rw [run_attempt]), run_attempt]
  rfl

/-- Each submitted item has a row of its own in the end exactly when no two of
them are known by one name. -/
theorem rowsOf_ingested_iff (env jobEnv : ImportsEnv ω) (items : List GoogleSavedCollectionItem)
    (h : Owned userId importId s) (hempty : s.itemsOf importId = []) :
    RowsOf jobEnv.parser importId (items.map fun item => (queuedItem item).toItem)
      ((ingested env jobEnv userId importId items s).itemsOf importId) ↔
        (items.map (·.rowKey)).Nodup := by
  by_cases hnil : items = []
  · subst hnil
    have hrun : ingested env jobEnv userId importId [] s = s := by
      unfold ingested enqueueIngestSavedCollections
      simp [runJobs]
    rw [hrun, hempty]
    simp [RowsOf]
  · obtain ⟨t, hitems, howned, hrun⟩ := ingested_of_ne_nil env jobEnv hnil h
    obtain ⟨answer, hstores, hstored⟩ :=
      executeIngestSavedCollections_run jobEnv howned (items.map queuedItem)
    have hbefore : t.itemsOf importId = [] := by
      unfold ImportDb.itemsOf at hempty ⊢
      rwa [hitems]
    have hiff := rowsOf_itemsOf_iff hstores hbefore
    have hafter : (ingested env jobEnv userId importId items s).itemsOf importId =
        answer.store.itemsOf importId := by
      unfold ImportDb.itemsOf
      rw [hrun, hstored]
    rw [List.map_map, List.map_map] at hiff
    rw [hafter]
    exact hiff

/-! ## Two places in one row -/

/-- Google finishes every archive at once, and knows no place. -/
def aGoogle : Collaborators Unit where
  exchangeCode _ := pure { accessToken := "token", refreshToken := none, expiresAt := none }
  refreshAccessToken _ := pure { accessToken := "token", refreshToken := none, expiresAt := none }
  initiateArchive _ := pure { archiveJobId := "archive", accessType := none }
  getArchiveState _ _ := pure { state := "COMPLETE", urls := ["https://example.com/archive"] }
  downloadJsonDocuments _ := pure []
  getGooglePlace _ := pure none
  resolve _ := .fail (.http (NotFoundException "Place not found"))
  savePlace _ _ _ := pure ()
  learnedCategoryCount _ := pure 0

def anImportsEnv : ImportsEnv Unit where
  toCollaborators := aGoogle
  now := 0
  importId := "import"
  jobId := "job"
  parser := aParserEnv
  toISOString _ := "1970-01-01T00:00:00.000Z"
  buildAuthorizationUrl _ := none
  encrypt text := text
  decrypt text := .ok text

/-- One import without items. -/
def anImportOf (row : GoogleDataImport) : ImportDb Unit where
  imports := .singleton row
  items := .empty
  jobs := []
  issued := [row.id]
  world := ()
  import_issued := by simp
  item_import := by
    intro item hitem
    cases hitem

def fetchingImport : GoogleDataImport where
  id := "import"
  userId := "ana"
  status := .fetching
  requestedScopes := GOOGLE_DATA_PORTABILITY_MVP_SCOPES
  archiveJobId := some "archive"
  oauthAccessTokenEncrypted := some "token"
  createdAt := 0
  updatedAt := 0

theorem owned_fetchingImport : Owned "ana" "import" (anImportOf fetchingImport) :=
  ⟨fetchingImport, rfl, rfl⟩

def aTitle (title : String) : GoogleSavedCollectionItem where
  title := some title

def aLink (placeUrl : String) : GoogleSavedCollectionItem where
  placeUrl := some placeUrl

/-- A title of its own, or none where the others have one. -/
theorem titles_and_a_link_have_rows :
    let items := [aTitle "Café", aTitle "Bar", aLink "https://maps.app.goo.gl/plaza"]
    RowsOf aParserEnv "import" (items.map fun item => (queuedItem item).toItem)
      ((ingested anImportsEnv anImportsEnv "ana" "import" items
        (anImportOf fetchingImport)).itemsOf "import") :=
  (rowsOf_ingested_iff anImportsEnv anImportsEnv _ owned_fetchingImport rfl).mpr (by decide)

/-- The first datum that an item has. -/
def GoogleSavedCollectionItem.firstDatum (item : GoogleSavedCollectionItem) : Option String :=
  (((item.url.or item.placeUrl).or item.googlePlaceId).or item.title).or item.name

def twoLinks : List GoogleSavedCollectionItem :=
  [aLink "https://maps.app.goo.gl/cafe", aLink "https://maps.app.goo.gl/bar"]

/-- Neither link is in the key of its row: both rows are called "unknown". -/
theorem two_links_share_a_row :
    (∀ item ∈ twoLinks, item.Accepted ∧ item.sourceKey = none ∧ item.firstDatum ≠ none) ∧
      (twoLinks.map (·.firstDatum)).Nodup ∧
      ¬ RowsOf aParserEnv "import" (twoLinks.map fun item => (queuedItem item).toItem)
        ((ingested anImportsEnv anImportsEnv "ana" "import" twoLinks
          (anImportOf fetchingImport)).itemsOf "import") := by
  refine ⟨?_, by decide, fun hrows => ?_⟩
  · intro item hitem
    simp only [twoLinks, List.mem_cons, List.not_mem_nil, or_false] at hitem
    rcases hitem with rfl | rfl
    · exact ⟨by constructor <;> decide, rfl, by decide⟩
    · exact ⟨by constructor <;> decide, rfl, by decide⟩
  · have hlength : ((ingested anImportsEnv anImportsEnv "ana" "import" twoLinks
        (anImportOf fetchingImport)).itemsOf "import").length = 1 := by decide
    have hrow := hrows.length_eq
    rw [hlength] at hrow
    cases hrow

end Feca.Imports
