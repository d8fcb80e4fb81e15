import Feca.Imports.Schema

/-! # The import service

`GoogleDataPortabilityImportService`: an import waits for the answer of Google's
consent page, fetches an archive, and a job processes what it contains, or what
the client has submitted.
-/

namespace Feca.Imports

open Concurrency Concurrency.Prog Places Relational Social

/-! ## What surrounds an import -/

structure ExchangeCodeResult where
  accessToken : String
  refreshToken : Option String
  expiresAt : Option Date

structure InitiateArchiveResult where
  archiveJobId : String
  accessType : Option String

structure ArchiveStateResult where
  state : String
  urls : List String

/-- Google, the places and the saves: what the service asks of the world `ω`. -/
structure Collaborators (ω : Type) where
  exchangeCode : String → Prog ω Empty Failure ExchangeCodeResult
  refreshAccessToken : String → Prog ω Empty Failure ExchangeCodeResult
  initiateArchive : String → Prog ω Empty Failure InitiateArchiveResult
  getArchiveState : String → String → Prog ω Empty Failure ArchiveStateResult
  downloadJsonDocuments : List String → Prog ω Empty Failure (List GoogleDataArchiveDocument)
  /-- `placesRepository.getPlaceBySource("google", sourcePlaceId)`. -/
  getGooglePlace : String → Prog ω Empty Failure (Option Id)
  /-- `placesService.resolve({ source: "google", sourcePlaceId })`. -/
  resolve : String → Prog ω Empty Failure Id
  savePlace : Id → Id → String → Prog ω Empty Failure Unit
  learnedCategoryCount : Id → Prog ω Empty Failure Nat

structure ImportsEnv (ω : Type) extends Collaborators ω where
  now : Date
  importId : Id
  jobId : Id
  parser : ParserEnv
  toISOString : Date → String
  buildAuthorizationUrl : Id → Option String
  encrypt : String → String
  decrypt : String → Except Thrown String

variable {ω : Type}

def worldPart : Part (ImportDb ω) ω where
  get s := s.world
  set world s := { s with world }
  get_set _ _ := rfl

def inWorld {α : Type} (p : Prog ω Empty Failure α) : ImportProg ω α := p.onPart worldPart

def orThrow {α : Type} : Except Thrown α → ImportProg ω α
  | .ok a => pure a
  | .error e => .fail (.database e)

/-- `error instanceof Error ? error.message : fallback`. -/
def messageOr (fallback : String) : Failure → String
  | .http exception => exception.message
  | .database error => error.messageOr fallback

/-! ## The repository -/

/-- What one of its functions writes to the row of an import. -/
structure ImportWrite where
  writer : ImportWriter
  data : GoogleDataImport → GoogleDataImport
  keepsId : ∀ row, (data row).id = row.id := by intros; rfl
  leads : ∀ row, writer.Leads row.status (data row).status := by intros; rfl

def markProcessing (now : Date) : ImportWrite where
  writer := .markProcessing
  data row := { row with status := .processing, lastError := none, updatedAt := now }

def markFetching (now : Date) (archiveJobId accessTokenEncrypted : String)
    (refreshTokenEncrypted : Option String) (tokenExpiresAt : Option Date) : ImportWrite where
  writer := .markFetching
  data row :=
    { row with
      status := .fetching
      archiveJobId := some archiveJobId
      oauthAccessTokenEncrypted := some accessTokenEncrypted
      oauthRefreshTokenEncrypted := refreshTokenEncrypted
      tokenExpiresAt
      lastError := none
      updatedAt := now }

/-- Without a refresh token the row keeps its own. -/
def updateOAuthTokens (now : Date) (accessTokenEncrypted : String)
    (tokenExpiresAt : Option Date) : ImportWrite where
  writer := .updateOAuthTokens
  data row :=
    { row with
      oauthAccessTokenEncrypted := some accessTokenEncrypted
      tokenExpiresAt
      updatedAt := now }

def updateArchiveState (now : Date) (archive : ArchiveStateResult) : ImportWrite where
  writer := .updateArchiveState
  data row :=
    { row with
      archiveState := some archive.state
      archiveUrls := some archive.urls
      status := if archive.state = "FAILED" then .failed else .fetching
      lastError := if archive.state = "FAILED" then some "Google archive job failed" else none
      updatedAt := now }
  leads row := by
    show (if archive.state = "FAILED" then GoogleDataImportStatus.failed else .fetching) = _ ∨ _ = _
    split
    · exact .inr rfl
    · exact .inl rfl

def markComplete (now : Date) : ImportWrite where
  writer := .markComplete
  data row :=
    { row with status := .complete, completedAt := some now, lastError := none, updatedAt := now }

def markFailed (now : Date) (error : String) : ImportWrite where
  writer := .markFailed
  data row := { row with status := .failed, lastError := some error, updatedAt := now }

def markRevoked (now : Date) : ImportWrite where
  writer := .markRevoked
  data row := { row with status := .revoked, updatedAt := now }

/-- `googleDataImport.update`. -/
def writeImport (importId : Id) (write : ImportWrite) : ImportProg ω GoogleDataImport :=
  stmt fun s =>
    match s.findImport importId with
    | none => ⟨s, [], .error (.database recordNotFound)⟩
    | some row =>
        ⟨s.setImport importId write.data write.keepsId,
          [.wrote importId write.writer row.status (write.data row).status], .ok (write.data row)⟩

def getImportById (importId : Id) : ImportProg ω (Option GoogleDataImport) :=
  query fun s => s.findImport importId

/-- With `_count: { select: { items: true } }`. -/
def getImportForUser (userId importId : Id) :
    ImportProg ω (Option (GoogleDataImport × Nat)) :=
  query fun s =>
    ((s.findImport importId).filter (·.userId == userId)).map fun row =>
      (row, (s.itemsOf importId).length)

def insertImport (row : GoogleDataImport) : ImportProg ω Unit :=
  stmt fun s =>
    match s.insertImport row with
    | none => ⟨s, [], .error (.database uniqueViolation)⟩
    | some t => ⟨t, [.created row.id], .ok ()⟩

def deleteImportForUser (userId importId : Id) : ImportProg ω Unit :=
  stmt fun s =>
    match (s.findImport importId).filter (·.userId == userId) with
    | none => ⟨s, [], .ok ()⟩
    | some _ => ⟨s.deleteImports (·.id == importId), [.deleted importId], .ok ()⟩

def upsertItem (row : GoogleDataImportItem) : ImportProg ω Unit :=
  stmt fun s =>
    match s.upsertItem row with
    | .error e => ⟨s, [], .error (.database e)⟩
    | .ok t => ⟨t, [], .ok ()⟩

/-- `orderBy: [{ createdAt: "asc" }]`. -/
def listSavedCollectionItems (importId : Id) : ImportProg ω (List GoogleDataImportItem) :=
  query fun s => ((s.itemsOf importId).filter (·.resourceGroup == "saved.collections")).insertionSort
    fun a b => a.createdAt ≤ b.createdAt

def enqueueJob (job : ImportJob) : ImportProg ω Unit :=
  stmt fun s => ⟨{ s with jobs := s.jobs ++ [job] }, [], .ok ()⟩

/-! ## Views -/

structure ImportView where
  id : Id
  status : GoogleDataImportStatus
  requestedScopes : List String
  consentType : GoogleDataImportConsentType
  archiveJobId : Option String
  archiveState : Option String
  archiveUrls : Option (List String)
  tokenExpiresAt : Option String
  lastError : Option String
  createdAt : String
  updatedAt : String
  completedAt : Option String
  totalItems : Nat
  deriving DecidableEq, Repr

structure ImportCounts where
  savedPlacesImported : Nat
  visitsImported : Nat
  skippedItems : Nat
  manualReviewItems : Nat
  deriving DecidableEq, Repr

structure ImportSnapshot where
  view : ImportView
  counts : ImportCounts
  learnedCategoryCount : Nat
  deriving DecidableEq, Repr

/-- What a request answers, by its kind. -/
inductive ImportAnswer
  | created (view : ImportView) (authorizationUrl : Option String)
  | shown (view : ImportView)
  | authorized (view : ImportView) (accessType : Option String)
  | queued (jobId : Id) (snapshot : ImportSnapshot)
  | snapshot (snapshot : ImportSnapshot)
  | nothing
  deriving DecidableEq, Repr

section service

variable (env : ImportsEnv ω)

def serializeImport (row : GoogleDataImport) (totalItems : Nat := 0) : ImportView where
  id := row.id
  status := row.status
  requestedScopes := row.requestedScopes
  consentType := row.consentType
  archiveJobId := row.archiveJobId
  archiveState := row.archiveState
  archiveUrls := row.archiveUrls
  tokenExpiresAt := row.tokenExpiresAt.map env.toISOString
  lastError := row.lastError
  createdAt := env.toISOString row.createdAt
  updatedAt := env.toISOString row.updatedAt
  completedAt := row.completedAt.map env.toISOString
  totalItems

/-- The loop over the groups of `countItems`. -/
def countItems (items : List GoogleDataImportItem) : ImportCounts where
  savedPlacesImported := items.countP fun i => i.kind == .savedPlace && i.status == .matched
  visitsImported := items.countP fun i => i.kind == .visit && i.status == .matched
  skippedItems := items.countP fun i => i.status == .skipped
  manualReviewItems := items.countP fun i => i.status == .manualReview

def getCounts (importId : Id) : ImportProg ω ImportCounts :=
  query fun s => countItems (s.itemsOf importId)

def importNotFound : Failure := .http (NotFoundException "Google data import not found")

def ensureImportForUser (userId importId : Id) : ImportProg ω (GoogleDataImport × Nat) := do
  match ← getImportForUser userId importId with
  | none => .fail importNotFound
  | some found => pure found

def GOOGLE_DATA_PORTABILITY_MVP_SCOPES : List String :=
  ["https://www.googleapis.com/auth/dataportability.saved.collections",
    "https://www.googleapis.com/auth/dataportability.myactivity.maps"]

def createImport (userId : Id) (consentType : GoogleDataImportConsentType := .oneTime) :
    ImportProg ω ImportAnswer := do
  let row : GoogleDataImport :=
    { id := env.importId
      userId
      status := .authorizing
      requestedScopes := GOOGLE_DATA_PORTABILITY_MVP_SCOPES
      consentType
      createdAt := env.now
      updatedAt := env.now }
  insertImport row
  pure (.created (serializeImport env row) (env.buildAuthorizationUrl row.id))

def getImport (userId importId : Id) : ImportProg ω ImportSnapshot := do
  let found ← ensureImportForUser userId importId
  let counts ← getCounts importId
  let learnedCategoryCount ← inWorld (env.learnedCategoryCount userId)
  pure { view := serializeImport env found.1 found.2, counts, learnedCategoryCount }

/-! ## Consent -/

structure OAuthCallbackInput where
  code : Option String := none
  state : Option String := none
  error : Option String := none
  deriving DecidableEq, Repr

/-- The body of the `try`. -/
def connectArchive (importId : Id) (code : String) : ImportProg ω ImportAnswer := do
  let token ← inWorld (env.exchangeCode code)
  let archive ← inWorld (env.initiateArchive token.accessToken)
  let updated ← writeImport importId (markFetching env.now archive.archiveJobId
    (env.encrypt token.accessToken) ((token.refreshToken.bind orNull).map env.encrypt)
    token.expiresAt)
  pure (.authorized (serializeImport env updated) archive.accessType)

def failCallback (importId : Id) (failure : Failure) : ImportProg ω ImportAnswer := do
  let _ ← writeImport importId (markFailed env.now (messageOr "Google OAuth callback failed" failure))
  .fail failure

def handleOAuthCallback (input : OAuthCallbackInput) : ImportProg ω ImportAnswer := do
  match input.state.bind orNull with
  | none => .fail (.http (BadRequestException "Missing OAuth state"))
  | some state =>
      match ← getImportById state with
      | none => .fail importNotFound
      | some _ =>
          match input.error.bind orNull with
          | some error => do
              let failed ← writeImport state (markFailed env.now error)
              pure (.shown (serializeImport env failed))
          | none =>
              match input.code.bind orNull with
              | none => do
                  let _ ← writeImport state (markFailed env.now "Missing OAuth code")
                  .fail (.http (BadRequestException "Missing OAuth code"))
              | some code => do
                  match ← (connectArchive env state code).attempt with
                  | .ok answer => pure answer
                  | .error failure => failCallback env state failure

def deleteImport (userId importId : Id) : ImportProg ω ImportAnswer := do
  let _ ← ensureImportForUser userId importId
  let _ ← writeImport importId (markRevoked env.now)
  deleteImportForUser userId importId
  pure .nothing

/-! ## The archive -/

/-- Usable for another minute at least. -/
def hasUsableAccessToken (row : GoogleDataImport) : Bool :=
  (row.oauthAccessTokenEncrypted.bind orNull).isSome &&
    row.tokenExpiresAt.all fun expiresAt => expiresAt == 0 || decide (expiresAt > env.now + 60000)

def refreshedToken (row : GoogleDataImport) : ImportProg ω String := do
  match row.oauthRefreshTokenEncrypted.bind orNull with
  | none => .fail (.http (BadRequestException "Google OAuth token expired"))
  | some refreshTokenEncrypted => do
      let refreshToken ← orThrow (env.decrypt refreshTokenEncrypted)
      let refreshed ← inWorld (env.refreshAccessToken refreshToken)
      let _ ← writeImport row.id
        (updateOAuthTokens env.now (env.encrypt refreshed.accessToken) refreshed.expiresAt)
      pure refreshed.accessToken

def resolveAccessToken (row : GoogleDataImport) : ImportProg ω String :=
  if hasUsableAccessToken env row then
    orThrow (env.decrypt (row.oauthAccessTokenEncrypted.getD ""))
  else refreshedToken env row

def syncArchiveState (userId importId : Id) : ImportProg ω ImportAnswer := do
  let found ← ensureImportForUser userId importId
  match found.1.archiveJobId.bind orNull with
  | none => .fail (.http (BadRequestException "Google archive job has not been initiated"))
  | some archiveJobId => do
      let accessToken ← resolveAccessToken env found.1
      let state ← inWorld (env.getArchiveState accessToken archiveJobId)
      let updated ← writeImport importId (updateArchiveState env.now state)
      pure (.shown (serializeImport env updated))

def normalizeArchiveUrls (archiveUrls : Option (List String)) : List String := archiveUrls.getD []

def hasArchiveUrls (archiveUrls : Option (List String)) : Bool :=
  decide (0 < (normalizeArchiveUrls archiveUrls).length)

def assertArchiveUrls (row : GoogleDataImport) : ImportProg ω Unit :=
  let archiveUrls := normalizeArchiveUrls row.archiveUrls
  if row.archiveState ≠ some "COMPLETE" ∧ archiveUrls.length = 0 then
    .fail (.http (BadRequestException "Google archive is not complete yet"))
  else if archiveUrls.length = 0 then
    .fail (.http (BadRequestException "Google archive did not include download URLs"))
  else pure ()

def assertArchiveReadyForProcessing (userId importId : Id) : ImportProg ω Unit := do
  let found ← ensureImportForUser userId importId
  if !hasArchiveUrls found.1.archiveUrls && (found.1.archiveJobId.bind orNull).isSome then do
    let _ ← syncArchiveState env userId importId
    let found ← ensureImportForUser userId importId
    assertArchiveUrls found.1
  else assertArchiveUrls found.1

/-! ## Items -/

def GOOGLE_DATA_PORTABILITY_IMPORT_REASON : String := "google_data_portability"

def MAX_REMOTE_PLACE_RESOLVES_PER_IMPORT_RUN : Nat := 25

mutual

/-- An entry under `__proto__` is an assignment that adds none. -/
def toPrismaJson : Json → Json
  | .null => .object []
  | .array items => .array (toPrismaItems items)
  | .object fields => .object (toPrismaFields fields)
  | value => value

def toPrismaItems : List Json → List Json
  | [] => []
  | item :: items => toPrismaJson item :: toPrismaItems items

def toPrismaFields : JsonRecord → JsonRecord
  | [] => []
  | (key, item) :: fields =>
      if key = "__proto__" then toPrismaFields fields
      else (key, toPrismaJson item) :: toPrismaFields fields

end

def itemRow (importId : Id) (parsed : ParsedGoogleSavedPlace)
    (mappedPlaceId : Option Id) (confidence : GoogleDataImportItemConfidence)
    (status : GoogleDataImportItemStatus) : GoogleDataImportItem where
  importId
  resourceGroup := "saved.collections"
  sourceKey := parsed.sourceKey
  rawTitle := parsed.title
  rawUrl := parsed.url
  rawPayload := toPrismaFields parsed.rawPayload
  mappedPlaceId
  kind := .savedPlace
  confidence
  status
  createdAt := env.now

/-- The place of an item, and whether it had to be resolved remotely; none once
the run has resolved enough. -/
def findOrResolvePlace (googlePlaceId : String) (remoteResolveCount : Nat) :
    ImportProg ω (Option (Id × Nat)) := do
  match ← inWorld (env.getGooglePlace (normalizeGooglePlaceId googlePlaceId)) with
  | some place => pure (some (place, 0))
  | none =>
      if remoteResolveCount ≥ MAX_REMOTE_PLACE_RESOLVES_PER_IMPORT_RUN then pure none
      else do
        let place ← inWorld (env.resolve googlePlaceId)
        pure (some (place, 1))

/-- The body of the `try`. -/
def importPlace (userId importId : Id) (parsed : ParsedGoogleSavedPlace) (googlePlaceId : String)
    (remoteResolveCount : Nat) : ImportProg ω Nat := do
  match ← findOrResolvePlace env googlePlaceId remoteResolveCount with
  | none => do
      upsertItem (itemRow env importId parsed none .high .manualReview)
      pure 0
  | some found => do
      inWorld (env.savePlace userId found.1 GOOGLE_DATA_PORTABILITY_IMPORT_REASON)
      upsertItem (itemRow env importId parsed (some found.1) .high .matched)
      pure found.2

/-- How many places it has resolved remotely: none or one. -/
def processSavedCollectionItem (userId importId : Id) (item : GoogleSavedCollectionItem)
    (remoteResolveCount : Nat) : ImportProg ω Nat := do
  let parsed := parseSavedCollectionItem env.parser item
  match parsed.googlePlaceId with
  | none => do
      upsertItem (itemRow env importId parsed none .low .manualReview)
      pure 0
  | some googlePlaceId => do
      match ← (importPlace env userId importId parsed googlePlaceId remoteResolveCount).attempt with
      | .ok count => pure count
      | .error _ => do
          upsertItem (itemRow env importId parsed none .high .manualReview)
          pure 0

def processItems (userId importId : Id) :
    List GoogleSavedCollectionItem → Nat → ImportProg ω Unit
  | [], _ => pure ()
  | item :: items, remoteResolveCount => do
      let count ← processSavedCollectionItem env userId importId item remoteResolveCount
      processItems userId importId items (remoteResolveCount + count)

/-! ## Jobs -/

/-- `try { …; markComplete } catch { markFailed }`. -/
def completeOrFail (importId : Id) (fallback : String) (body : ImportProg ω Unit) :
    ImportProg ω Unit := do
  let attempted ← (do
    body
    let _ ← writeImport importId (markComplete env.now)
    pure () : ImportProg ω Unit).attempt
  match attempted with
  | .ok _ => pure ()
  | .error failure => do
      let _ ← writeImport importId (markFailed env.now (messageOr fallback failure))
      pure ()

def archiveItems (urls : List String) : ImportProg ω (List GoogleSavedCollectionItem) := do
  let documents ← inWorld (env.downloadJsonDocuments urls)
  pure (parseSavedCollectionArchiveDocuments env.parser documents)

def enqueued (userId importId : Id) (job : ImportJob) : ImportProg ω ImportAnswer := do
  let _ ← writeImport importId (markProcessing env.now)
  enqueueJob job
  let snapshot ← getImport env userId importId
  pure (.queued env.jobId snapshot)

def enqueueProcessCompletedArchive (userId importId : Id) : ImportProg ω ImportAnswer := do
  assertArchiveReadyForProcessing env userId importId
  enqueued env userId importId (.processArchive userId importId)

def executeProcessCompletedArchive (userId importId : Id) : ImportProg ω Unit := do
  let found ← ensureImportForUser userId importId
  let archiveUrls := normalizeArchiveUrls found.1.archiveUrls
  if archiveUrls.length = 0 then do
    let _ ← writeImport importId
      (markFailed env.now "Google archive did not include download URLs")
    pure ()
  else
    completeOrFail env importId "Google archive processing failed" do
      let items ← archiveItems env archiveUrls
      processItems env userId importId items 0

def enqueueIngestSavedCollections (userId importId : Id)
    (items : List GoogleSavedCollectionItem) : ImportProg ω ImportAnswer := do
  if items.length = 0 then
    .fail (.http (BadRequestException "At least one saved collection item is required"))
  else do
    let _ ← ensureImportForUser userId importId
    enqueued env userId importId
      (.ingestSaved { userId, importId, items := items.map queuedItem })

def executeIngestSavedCollections (payload : IngestJobPayload) : ImportProg ω Unit := do
  let _ ← ensureImportForUser payload.userId payload.importId
  completeOrFail env payload.importId "Unknown import error"
    (processItems env payload.userId payload.importId (payload.items.map (·.toItem)) 0)

def noItemsToRetry : String := "No saved collection items to retry"

def enqueueRetry (userId importId : Id) : ImportProg ω ImportAnswer := do
  let _ ← ensureImportForUser userId importId
  let items ← listSavedCollectionItems importId
  if items.length = 0 then .fail (.http (BadRequestException noItemsToRetry))
  else
    enqueued env userId importId (.retry userId importId)

/-- A stored item, as `executeRetry` processes it again. -/
def GoogleDataImportItem.toItem (item : GoogleDataImportItem) : GoogleSavedCollectionItem :=
  { sourceKey := some item.sourceKey, title := item.rawTitle, url := item.rawUrl,
    rawPayload := some item.rawPayload }

def executeRetry (userId importId : Id) : ImportProg ω Unit := do
  let _ ← ensureImportForUser userId importId
  let items ← listSavedCollectionItems importId
  if items.length = 0 then do
    let _ ← writeImport importId (markFailed env.now noItemsToRetry)
    pure ()
  else
    completeOrFail env importId "Unknown retry error"
      (processItems env userId importId (items.map (·.toItem)) 0)

/-- `GoogleDataImportWorker`. -/
def runJob : ImportJob → ImportProg ω Unit
  | .processArchive userId importId => executeProcessCompletedArchive env userId importId
  | .ingestSaved payload => executeIngestSavedCollections env payload
  | .retry userId importId => executeRetry env userId importId

end service

end Feca.Imports
