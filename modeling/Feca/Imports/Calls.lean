import Feca.Imports.Service

/-! # What the calls do to the rows of imports

Each statement of a call leaves the imports alone, creates or deletes one, or
writes the status of one; which writers a call uses, and on which import, does
not depend on what it finds.
-/

namespace Feca.Imports

open Concurrency Concurrency.Prog Relational Social

inductive ImportCall
  | createImport (userId : Id) (consentType : GoogleDataImportConsentType)
  | getImport (userId importId : Id)
  | handleOAuthCallback (input : OAuthCallbackInput)
  | deleteImport (userId importId : Id)
  | syncArchiveState (userId importId : Id)
  | enqueueProcessCompletedArchive (userId importId : Id)
  | enqueueIngestSavedCollections (userId importId : Id) (items : List GoogleSavedCollectionItem)
  | enqueueRetry (userId importId : Id)
  | runJob (job : ImportJob)

variable {ω : Type} {s t : ImportDb ω} {es : List ImportEvent}

/-- What a call executes; nobody looks at what it answers. -/
def ImportCall.program (env : ImportsEnv ω) : ImportCall → ImportProg ω Unit
  | .createImport userId consentType => (fun _ => ()) <$> Imports.createImport env userId consentType
  | .getImport userId importId => (fun _ => ()) <$> Imports.getImport env userId importId
  | .handleOAuthCallback input => (fun _ => ()) <$> Imports.handleOAuthCallback env input
  | .deleteImport userId importId => (fun _ => ()) <$> Imports.deleteImport env userId importId
  | .syncArchiveState userId importId => (fun _ => ()) <$> Imports.syncArchiveState env userId importId
  | .enqueueProcessCompletedArchive userId importId =>
      (fun _ => ()) <$> Imports.enqueueProcessCompletedArchive env userId importId
  | .enqueueIngestSavedCollections userId importId items =>
      (fun _ => ()) <$> Imports.enqueueIngestSavedCollections env userId importId items
  | .enqueueRetry userId importId => (fun _ => ()) <$> Imports.enqueueRetry env userId importId
  | .runJob job => Imports.runJob env job

def ImportJob.importId : ImportJob → Id
  | .processArchive _ importId => importId
  | .ingestSaved payload => payload.importId
  | .retry _ importId => importId

/-- The writers of a call, by import. -/
def ImportCall.Writes (importId : Id) (writer : ImportWriter) : ImportCall → Prop
  | .createImport _ _ => False
  | .getImport _ _ => False
  | .handleOAuthCallback input =>
      input.state = some importId ∧ writer ∈ [ImportWriter.markFetching, .markFailed]
  | .deleteImport _ id => id = importId ∧ writer = .markRevoked
  | .syncArchiveState _ id =>
      id = importId ∧ writer ∈ [ImportWriter.updateOAuthTokens, .updateArchiveState]
  | .enqueueProcessCompletedArchive _ id => id = importId ∧
      writer ∈ [ImportWriter.updateOAuthTokens, .updateArchiveState, .markProcessing]
  | .enqueueIngestSavedCollections _ id _ => id = importId ∧ writer = .markProcessing
  | .enqueueRetry _ id => id = importId ∧ writer = .markProcessing
  | .runJob job => job.importId = importId ∧ writer ∈ [ImportWriter.markComplete, .markFailed]

/-! ## One statement -/

/-- Who may revoke an import may delete it. -/
inductive ImportStep (may : Id → ImportWriter → Prop) (s t : ImportDb ω) : List ImportEvent → Prop
  | quiet (imports : t.imports = s.imports) (issued : t.issued = s.issued) : ImportStep may s t []
  | created (row : GoogleDataImport) (insert : s.insertImport row = some t) :
      ImportStep may s t [.created row.id]
  | wrote (importId : Id) (write : ImportWrite) (row : GoogleDataImport)
      (allowed : may importId write.writer) (find : s.findImport importId = some row)
      (set : t = s.setImport importId write.data write.keepsId) :
      ImportStep may s t [.wrote importId write.writer row.status (write.data row).status]
  | deleted (importId : Id) (allowed : may importId .markRevoked)
      (delete : t = s.deleteImports (·.id == importId)) : ImportStep may s t [.deleted importId]

variable {may : Id → ImportWriter → Prop}

/-- What a statement does to the row of one import. -/
inductive RowStep (may : Id → ImportWriter → Prop) (id : Id) (s t : ImportDb ω)
    (es : List ImportEvent) : Prop
  | kept (row : t.findImport id = s.findImport id)
  | created (unknown : id ∉ s.issued)
  | wrote (writer : ImportWriter) (before after : GoogleDataImportStatus)
      (allowed : may id writer) (leads : writer.Leads before after)
      (found : s.statusOf id = some before) (left : t.statusOf id = some after)
      (event : es = [.wrote id writer before after])
  | deleted (allowed : may id .markRevoked) (gone : t.findImport id = none)

theorem ImportStep.row (h : ImportStep may s t es) (id : Id) : RowStep may id s t es := by
  cases h with
  | quiet imports issued =>
      apply RowStep.kept
      unfold ImportDb.findImport
      rw [imports]
  | created row insert =>
      by_cases hid : id = row.id
      · subst hid
        apply RowStep.created
        exact (ImportDb.insertImport_eq_some insert).1
      · apply RowStep.kept
        exact ImportDb.findImport_insertImport insert hid
  | wrote importId write row allowed find set =>
      subst set
      by_cases hid : id = importId
      · subst hid
        have hrow : row.id = id := by simpa using List.find?_some find
        refine RowStep.wrote write.writer row.status (write.data row).status allowed
          (write.leads row) ?_ ?_ rfl
        · unfold ImportDb.statusOf
          rw [find]
          rfl
        · unfold ImportDb.statusOf
          rw [ImportDb.findImport_setImport, find]
          simp [hrow]
      · apply RowStep.kept
        exact ImportDb.findImport_setImport_of_ne s hid
  | deleted importId allowed delete =>
      subst delete
      by_cases hid : id = importId
      · subst hid
        exact RowStep.deleted allowed (ImportDb.findImport_deleteImports_self s id)
      · exact RowStep.kept (ImportDb.findImport_deleteImports_of_ne s hid)

theorem issued_of_statusOf {id : Id} {status : GoogleDataImportStatus}
    (h : s.statusOf id = some status) : id ∈ s.issued := by
  obtain ⟨row, hfind, -⟩ := Option.map_eq_some_iff.mp h
  have hid : row.id = id := by simpa using List.find?_some hfind
  rw [← hid]
  exact s.import_issued row (List.mem_of_find?_eq_some hfind)

/-- A statement that writes an import of its own call, and what it leaves. -/
theorem ImportStep.of_wrote {id : Id} {writer : ImportWriter}
    {before after : GoogleDataImportStatus} (h : ImportStep may s t es)
    (he : .wrote id writer before after ∈ es) : may id writer ∧ writer.Leads before after ∧
      s.statusOf id = some before ∧ t.statusOf id = some after := by
  cases h with
  | quiet imports issued => cases he
  | created row insert =>
      rw [List.mem_singleton] at he
      cases he
  | deleted importId allowed delete =>
      rw [List.mem_singleton] at he
      cases he
  | wrote importId write row allowed find set =>
      rw [List.mem_singleton] at he
      cases he
      subst set
      have hrow : row.id = id := by simpa using List.find?_some find
      refine ⟨allowed, write.leads row, ?_, ?_⟩
      · unfold ImportDb.statusOf
        rw [find]
        rfl
      · unfold ImportDb.statusOf
        rw [ImportDb.findImport_setImport, find]
        simp [hrow]

/-- Ids stay issued. -/
theorem ImportStep.issued (h : ImportStep may s t es) {id : Id} (hid : id ∈ s.issued) :
    id ∈ t.issued := by
  cases h with
  | quiet imports issued => rwa [issued]
  | created row insert =>
      rw [(ImportDb.insertImport_eq_some insert).2.2]
      exact List.mem_cons_of_mem _ hid
  | wrote importId write row allowed find set => rwa [set]
  | deleted importId allowed delete => rwa [delete]

/-! ## Whole calls -/

/-- Every statement is one of those, with writers that the call may use. -/
abbrev Obeys {α : Type} (may : Id → ImportWriter → Prop) (p : ImportProg ω α) : Prop :=
  p.Always (ImportStep may)

section repository

theorem obeys_query {α : Type} (read : ImportDb ω → α) : Obeys may (query read : ImportProg ω α) :=
  always_stmt fun _ => .quiet rfl rfl

theorem obeys_inWorld {α : Type} (p : Prog ω Empty Failure α) :
    Obeys may (inWorld p : ImportProg ω α) := always_onPart p fun _ _ => .quiet rfl rfl

theorem obeys_orThrow {α : Type} (result : Except Thrown α) :
    Obeys may (orThrow result : ImportProg ω α) := by
  cases result with
  | ok a => trivial
  | error e => trivial

theorem obeys_writeImport {importId : Id} {write : ImportWrite} (h : may importId write.writer) :
    Obeys may (writeImport importId write : ImportProg ω GoogleDataImport) := by
  refine always_stmt fun s => ?_
  cases hfind : s.findImport importId with
  | none => exact .quiet rfl rfl
  | some row => exact .wrote importId write row h hfind rfl

theorem obeys_insertImport (row : GoogleDataImport) :
    Obeys may (insertImport row : ImportProg ω Unit) := by
  refine always_stmt fun s => ?_
  cases hinsert : s.insertImport row with
  | none => exact .quiet rfl rfl
  | some t => exact .created row hinsert

theorem obeys_deleteImportForUser (userId : Id) {importId : Id} (h : may importId .markRevoked) :
    Obeys may (deleteImportForUser userId importId : ImportProg ω Unit) := by
  refine always_stmt fun s => ?_
  cases (s.findImport importId).filter (·.userId == userId) with
  | none => exact .quiet rfl rfl
  | some row => exact .deleted importId h rfl

theorem obeys_upsertItem (row : GoogleDataImportItem) :
    Obeys may (upsertItem row : ImportProg ω Unit) := by
  refine always_stmt fun s => ?_
  cases hupsert : s.upsertItem row with
  | error e => exact .quiet rfl rfl
  | ok t =>
      obtain ⟨himports, hissued⟩ := ImportDb.upsertItem_keeps hupsert
      exact .quiet himports hissued

theorem obeys_enqueueJob (job : ImportJob) : Obeys may (enqueueJob job : ImportProg ω Unit) :=
  always_stmt fun _ => .quiet rfl rfl

end repository

section service

variable {env : ImportsEnv ω} {userId importId : Id}

theorem obeys_ensureImportForUser (userId importId : Id) :
    Obeys may (ensureImportForUser userId importId : ImportProg ω (GoogleDataImport × Nat)) := by
  refine always_bind (obeys_query _) fun found => ?_
  cases found with
  | none => trivial
  | some found => trivial

/-- The row it returns is the row of the import. -/
theorem returns_ensureImportForUser (userId importId : Id) :
    (ensureImportForUser userId importId : ImportProg ω (GoogleDataImport × Nat)).Returns
      fun found => found.1.id = importId := by
  refine returns_bind (R := fun found => ∀ x, found = some x → x.1.id = importId) ?_ ?_
  · refine returns_stmt fun s found hfound x hx => ?_
    cases hfound
    obtain ⟨row, hrow, rfl⟩ := Option.map_eq_some_iff.mp hx
    have hfind := (Option.filter_eq_some_iff.mp hrow).1
    simpa using List.find?_some hfind
  · intro found hfound
    cases found with
    | none => trivial
    | some found => exact hfound found rfl

theorem obeys_createImport (consentType : GoogleDataImportConsentType) :
    Obeys may (createImport env userId consentType) :=
  always_bind (obeys_insertImport _) fun _ => trivial

theorem obeys_getImport : Obeys may (getImport env userId importId) :=
  always_bind (obeys_ensureImportForUser _ _) fun _ =>
    always_bind (obeys_query _) fun _ => always_bind (obeys_inWorld _) fun _ => trivial

theorem obeys_connectArchive {code : String} (h : may importId .markFetching) :
    Obeys may (connectArchive env importId code) :=
  always_bind (obeys_inWorld _) fun _ => always_bind (obeys_inWorld _) fun _ =>
    always_bind (obeys_writeImport h) fun _ => trivial

theorem obeys_failCallback {failure : Failure} (h : may importId .markFailed) :
    Obeys may (failCallback env importId failure) :=
  always_bind (obeys_writeImport h) fun _ => trivial

theorem obeys_handleOAuthCallback {input : OAuthCallbackInput}
    (hfetching : ∀ importId, input.state = some importId → may importId .markFetching)
    (hfailed : ∀ importId, input.state = some importId → may importId .markFailed) :
    Obeys may (handleOAuthCallback env input) := by
  unfold handleOAuthCallback
  cases hstate : input.state.bind orNull with
  | none => trivial
  | some state =>
      have hinput : input.state = some state := eq_some_of_bind_orNull hstate
      refine always_bind (obeys_query _) fun found => ?_
      cases found with
      | none => trivial
      | some row =>
          dsimp only
          cases input.error.bind orNull with
          | some error => exact always_bind (obeys_writeImport (hfailed state hinput)) fun _ => trivial
          | none =>
              cases input.code.bind orNull with
              | none => exact always_bind (obeys_writeImport (hfailed state hinput)) fun _ => trivial
              | some code =>
                  refine always_bind (always_attempt (obeys_connectArchive (hfetching state hinput)))
                    fun attempted => ?_
                  cases attempted with
                  | ok answer => trivial
                  | error failure => exact obeys_failCallback (hfailed state hinput)

theorem obeys_deleteImport (h : may importId .markRevoked) :
    Obeys may (deleteImport env userId importId) :=
  always_bind (obeys_ensureImportForUser _ _) fun _ => always_bind (obeys_writeImport h) fun _ =>
    always_bind (obeys_deleteImportForUser _ h) fun _ => trivial

theorem obeys_resolveAccessToken {row : GoogleDataImport} (h : may row.id .updateOAuthTokens) :
    Obeys may (resolveAccessToken env row) := by
  unfold resolveAccessToken
  split
  · exact obeys_orThrow _
  · unfold refreshedToken
    cases row.oauthRefreshTokenEncrypted.bind orNull with
    | none => trivial
    | some refreshTokenEncrypted =>
        exact always_bind (obeys_orThrow _) fun _ => always_bind (obeys_inWorld _) fun _ =>
          always_bind (obeys_writeImport h) fun _ => trivial

theorem obeys_syncArchiveState (htokens : may importId .updateOAuthTokens)
    (hstate : may importId .updateArchiveState) :
    Obeys may (syncArchiveState env userId importId) := by
  refine always_bind_returns (obeys_ensureImportForUser _ _)
    (returns_ensureImportForUser userId importId) fun found hfound => ?_
  cases found.1.archiveJobId.bind orNull with
  | none => trivial
  | some archiveJobId =>
      have hrow : may found.1.id .updateOAuthTokens := by rwa [hfound]
      exact always_bind (obeys_resolveAccessToken hrow) fun _ => always_bind (obeys_inWorld _) fun _ =>
        always_bind (obeys_writeImport hstate) fun _ => trivial

theorem obeys_assertArchiveUrls (row : GoogleDataImport) :
    Obeys may (assertArchiveUrls row : ImportProg ω Unit) := by
  unfold assertArchiveUrls
  dsimp only
  split
  · trivial
  · split
    · trivial
    · trivial

theorem obeys_assertArchiveReadyForProcessing (htokens : may importId .updateOAuthTokens)
    (hstate : may importId .updateArchiveState) :
    Obeys may (assertArchiveReadyForProcessing env userId importId) := by
  refine always_bind (obeys_ensureImportForUser _ _) fun found => ?_
  split
  · exact always_bind (obeys_syncArchiveState htokens hstate) fun _ =>
      always_bind (obeys_ensureImportForUser _ _) fun _ => obeys_assertArchiveUrls _
  · exact obeys_assertArchiveUrls _

theorem obeys_enqueued {job : ImportJob} (h : may importId .markProcessing) :
    Obeys may (enqueued env userId importId job) :=
  always_bind (obeys_writeImport h) fun _ => always_bind (obeys_enqueueJob _) fun _ =>
    always_bind obeys_getImport fun _ => trivial

theorem obeys_findOrResolvePlace (googlePlaceId : String) (count : Nat) :
    Obeys may (findOrResolvePlace env googlePlaceId count) := by
  refine always_bind (obeys_inWorld _) fun found => ?_
  cases found with
  | some place => trivial
  | none =>
      dsimp only
      split
      · trivial
      · exact always_bind (obeys_inWorld _) fun _ => trivial

theorem obeys_importPlace (parsed : ParsedGoogleSavedPlace) (googlePlaceId : String) (count : Nat) :
    Obeys may (importPlace env userId importId parsed googlePlaceId count) := by
  refine always_bind (obeys_findOrResolvePlace _ _) fun found => ?_
  cases found with
  | none => exact always_bind (obeys_upsertItem _) fun _ => trivial
  | some found =>
      exact always_bind (obeys_inWorld _) fun _ => always_bind (obeys_upsertItem _) fun _ => trivial

theorem obeys_processSavedCollectionItem (item : GoogleSavedCollectionItem) (count : Nat) :
    Obeys may (processSavedCollectionItem env userId importId item count) := by
  unfold processSavedCollectionItem
  dsimp only
  cases (parseSavedCollectionItem env.parser item).googlePlaceId with
  | none => exact always_bind (obeys_upsertItem _) fun _ => trivial
  | some googlePlaceId =>
      refine always_bind (always_attempt (obeys_importPlace _ _ _)) fun attempted => ?_
      cases attempted with
      | ok found => trivial
      | error failure => exact always_bind (obeys_upsertItem _) fun _ => trivial

theorem obeys_processItems (items : List GoogleSavedCollectionItem) (count : Nat) :
    Obeys may (processItems env userId importId items count) := by
  induction items generalizing count with
  | nil => trivial
  | cons item items ih =>
      exact always_bind (obeys_processSavedCollectionItem _ _) fun found => ih (count + found)

/-- A job ends with one of two marks. -/
theorem obeys_completeOrFail {fallback : String} {body : ImportProg ω Unit} (hbody : Obeys may body)
    (hcomplete : may importId .markComplete) (hfailed : may importId .markFailed) :
    Obeys may (completeOrFail env importId fallback body) := by
  refine always_bind (always_attempt (always_bind hbody fun _ =>
    always_bind (obeys_writeImport hcomplete) fun _ => trivial)) fun attempted => ?_
  cases attempted with
  | ok _ => trivial
  | error failure => exact always_bind (obeys_writeImport hfailed) fun _ => trivial

theorem obeys_runJob {job : ImportJob} (hcomplete : may job.importId .markComplete)
    (hfailed : may job.importId .markFailed) : Obeys may (runJob env job) := by
  cases job with
  | processArchive userId importId =>
      refine always_bind (obeys_ensureImportForUser _ _) fun found => ?_
      dsimp only
      split
      · exact always_bind (obeys_writeImport hfailed) fun _ => trivial
      · exact obeys_completeOrFail
          (always_bind (always_bind (obeys_inWorld _) fun _ => trivial) fun _ =>
            obeys_processItems _ _) hcomplete hfailed
  | ingestSaved payload =>
      exact always_bind (obeys_ensureImportForUser _ _) fun _ =>
        obeys_completeOrFail (obeys_processItems _ _) hcomplete hfailed
  | retry userId importId =>
      refine always_bind (obeys_ensureImportForUser _ _) fun _ =>
        always_bind (obeys_query _) fun items => ?_
      split
      · exact always_bind (obeys_writeImport hfailed) fun _ => trivial
      · exact obeys_completeOrFail (obeys_processItems _ _) hcomplete hfailed

end service

/-- A call uses its own writers. -/
theorem obeys_program (env : ImportsEnv ω) (call : ImportCall) :
    Obeys (fun importId writer => call.Writes importId writer) (call.program env) := by
  cases call with
  | createImport userId consentType => exact always_map _ (obeys_createImport consentType)
  | getImport userId importId => exact always_map _ obeys_getImport
  | handleOAuthCallback input =>
      exact always_map _ (obeys_handleOAuthCallback
        (fun _ hstate => ⟨hstate, by decide⟩) fun _ hstate => ⟨hstate, by decide⟩)
  | deleteImport userId importId => exact always_map _ (obeys_deleteImport ⟨rfl, rfl⟩)
  | syncArchiveState userId importId =>
      exact always_map _ (obeys_syncArchiveState ⟨rfl, by decide⟩ ⟨rfl, by decide⟩)
  | enqueueProcessCompletedArchive userId importId =>
      exact always_map _ (always_bind
        (obeys_assertArchiveReadyForProcessing ⟨rfl, by decide⟩ ⟨rfl, by decide⟩)
        fun _ => obeys_enqueued ⟨rfl, by decide⟩)
  | enqueueIngestSavedCollections userId importId items =>
      apply always_map
      unfold enqueueIngestSavedCollections
      split
      · trivial
      · exact always_bind (obeys_ensureImportForUser _ _) fun _ => obeys_enqueued ⟨rfl, rfl⟩
  | enqueueRetry userId importId =>
      apply always_map
      refine always_bind (obeys_ensureImportForUser _ _) fun _ =>
        always_bind (obeys_query _) fun items => ?_
      split
      · trivial
      · exact obeys_enqueued ⟨rfl, rfl⟩
  | runJob job => exact obeys_runJob ⟨rfl, by decide⟩ ⟨rfl, by decide⟩

end Feca.Imports
