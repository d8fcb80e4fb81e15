import Feca.Imports.Service

/-! # The jobs over any statements

What the jobs of an import do to its items, over whatever their statements are:
the lookups, the saves and the upserts may then answer and fail in any pattern.
On the store they are the jobs of the service.
-/

namespace Feca.Imports

open Concurrency Concurrency.Prog Places Social

variable {ω σ ε : Type}

/-- The statements a job is made of. -/
structure JobStatements (σ ε : Type) where
  ensureImportForUser : Id → Id → Prog σ ε Failure (GoogleDataImport × Nat)
  listSavedCollectionItems : Id → Prog σ ε Failure (List GoogleDataImportItem)
  downloadJsonDocuments : List String → Prog σ ε Failure (List GoogleDataArchiveDocument)
  getGooglePlace : String → Prog σ ε Failure (Option Id)
  resolve : String → Prog σ ε Failure Id
  savePlace : Id → Id → String → Prog σ ε Failure Unit
  upsertItem : GoogleDataImportItem → Prog σ ε Failure Unit
  markComplete : Id → Prog σ ε Failure Unit
  markFailed : Id → String → Prog σ ε Failure Unit

namespace JobStatements

section jobs

variable (st : JobStatements σ ε) (env : ImportsEnv ω)

def findOrResolvePlace (googlePlaceId : String) (remoteResolveCount : Nat) :
    Prog σ ε Failure (Option (Id × Nat)) := do
  match ← st.getGooglePlace (normalizeGooglePlaceId googlePlaceId) with
  | some place => pure (some (place, 0))
  | none =>
      if remoteResolveCount ≥ MAX_REMOTE_PLACE_RESOLVES_PER_IMPORT_RUN then pure none
      else do
        let place ← st.resolve googlePlaceId
        pure (some (place, 1))

/-- The body of the `try`. -/
def importPlace (userId importId : Id) (parsed : ParsedGoogleSavedPlace) (googlePlaceId : String)
    (remoteResolveCount : Nat) : Prog σ ε Failure Nat := do
  match ← st.findOrResolvePlace googlePlaceId remoteResolveCount with
  | none => do
      st.upsertItem (itemRow env importId parsed none .high .manualReview)
      pure 0
  | some found => do
      st.savePlace userId found.1 GOOGLE_DATA_PORTABILITY_IMPORT_REASON
      st.upsertItem (itemRow env importId parsed (some found.1) .high .matched)
      pure found.2

def processSavedCollectionItem (userId importId : Id) (item : GoogleSavedCollectionItem)
    (remoteResolveCount : Nat) : Prog σ ε Failure Nat := do
  let parsed := parseSavedCollectionItem env.parser item
  match parsed.googlePlaceId with
  | none => do
      st.upsertItem (itemRow env importId parsed none .low .manualReview)
      pure 0
  | some googlePlaceId => do
      match ← (st.importPlace env userId importId parsed googlePlaceId
          remoteResolveCount).attempt with
      | .ok count => pure count
      | .error _ => do
          st.upsertItem (itemRow env importId parsed none .high .manualReview)
          pure 0

def processItems (userId importId : Id) :
    List GoogleSavedCollectionItem → Nat → Prog σ ε Failure Unit
  | [], _ => pure ()
  | item :: items, remoteResolveCount => do
      let count ← st.processSavedCollectionItem env userId importId item remoteResolveCount
      processItems userId importId items (remoteResolveCount + count)

/-- `try { …; markComplete } catch { markFailed }`. -/
def completeOrFail (importId : Id) (fallback : String) (body : Prog σ ε Failure Unit) :
    Prog σ ε Failure Unit := do
  let attempted ← (do
    body
    st.markComplete importId : Prog σ ε Failure Unit).attempt
  match attempted with
  | .ok _ => pure ()
  | .error failure => st.markFailed importId (messageOr fallback failure)

def archiveItems (urls : List String) : Prog σ ε Failure (List GoogleSavedCollectionItem) := do
  let documents ← st.downloadJsonDocuments urls
  pure (parseSavedCollectionArchiveDocuments env.parser documents)

def executeProcessCompletedArchive (userId importId : Id) : Prog σ ε Failure Unit := do
  let found ← st.ensureImportForUser userId importId
  let archiveUrls := normalizeArchiveUrls found.1.archiveUrls
  if archiveUrls.length = 0 then
    st.markFailed importId "Google archive did not include download URLs"
  else
    st.completeOrFail importId "Google archive processing failed" do
      let items ← st.archiveItems env archiveUrls
      st.processItems env userId importId items 0

def executeIngestSavedCollections (payload : IngestJobPayload) : Prog σ ε Failure Unit := do
  let _ ← st.ensureImportForUser payload.userId payload.importId
  st.completeOrFail payload.importId "Unknown import error"
    (st.processItems env payload.userId payload.importId (payload.items.map (·.toItem)) 0)

def executeRetry (userId importId : Id) : Prog σ ε Failure Unit := do
  let _ ← st.ensureImportForUser userId importId
  let items ← st.listSavedCollectionItems importId
  if items.length = 0 then st.markFailed importId noItemsToRetry
  else
    st.completeOrFail importId "Unknown retry error"
      (st.processItems env userId importId (items.map (·.toItem)) 0)

def runJob : ImportJob → Prog σ ε Failure Unit
  | .processArchive userId importId => st.executeProcessCompletedArchive env userId importId
  | .ingestSaved payload => st.executeIngestSavedCollections env payload
  | .retry userId importId => st.executeRetry env userId importId

end jobs

/-! ## On the store -/

/-- The statements of the service. -/
def onStore (env : ImportsEnv ω) : JobStatements (ImportDb ω) ImportEvent where
  ensureImportForUser := Imports.ensureImportForUser
  listSavedCollectionItems := Imports.listSavedCollectionItems
  downloadJsonDocuments urls := inWorld (env.downloadJsonDocuments urls)
  getGooglePlace sourcePlaceId := inWorld (env.getGooglePlace sourcePlaceId)
  resolve sourcePlaceId := inWorld (env.resolve sourcePlaceId)
  savePlace userId placeId reason := inWorld (env.savePlace userId placeId reason)
  upsertItem := Imports.upsertItem
  markComplete importId := do
    let _ ← writeImport importId (Imports.markComplete env.now)
    pure ()
  markFailed importId error := do
    let _ ← writeImport importId (Imports.markFailed env.now error)
    pure ()

theorem processItems_onStore (env : ImportsEnv ω) (userId importId : Id)
    (items : List GoogleSavedCollectionItem) (count : Nat) :
    (onStore env).processItems env userId importId items count =
      Imports.processItems env userId importId items count := by
  induction items generalizing count with
  | nil => rfl
  | cons item items ih =>
      unfold processItems Imports.processItems
      simp only [ih]
      rfl

/-- On the store, the jobs are those of the service. -/
theorem runJob_onStore (env : ImportsEnv ω) (job : ImportJob) :
    (onStore env).runJob env job = Imports.runJob env job := by
  cases job with
  | processArchive userId importId =>
      unfold runJob Imports.runJob executeProcessCompletedArchive
        Imports.executeProcessCompletedArchive
      simp only [processItems_onStore]
      rfl
  | ingestSaved payload =>
      unfold runJob Imports.runJob executeIngestSavedCollections
        Imports.executeIngestSavedCollections
      simp only [processItems_onStore]
      rfl
  | retry userId importId =>
      unfold runJob Imports.runJob executeRetry Imports.executeRetry
      simp only [processItems_onStore]
      rfl

/-! ## The remote calls -/

/-- The statements, with an event for each call of `placesService.resolve` only. -/
def announced (st : JobStatements σ ε) : JobStatements σ String where
  ensureImportForUser userId importId := (st.ensureImportForUser userId importId).unobserved
  listSavedCollectionItems importId := (st.listSavedCollectionItems importId).unobserved
  downloadJsonDocuments urls := (st.downloadJsonDocuments urls).unobserved
  getGooglePlace sourcePlaceId := (st.getGooglePlace sourcePlaceId).unobserved
  resolve sourcePlaceId := do
    stmt fun s => ⟨s, [sourcePlaceId], .ok ()⟩
    (st.resolve sourcePlaceId).unobserved
  savePlace userId placeId reason := (st.savePlace userId placeId reason).unobserved
  upsertItem row := (st.upsertItem row).unobserved
  markComplete importId := (st.markComplete importId).unobserved
  markFailed importId error := (st.markFailed importId error).unobserved

end JobStatements

end Feca.Imports
