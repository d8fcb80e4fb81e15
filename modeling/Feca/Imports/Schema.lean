import Feca.Concurrency.Part
import Feca.Imports.Parser
import Feca.Imports.Queued
import Feca.Social.Statements

/-! # Imports of Google data

The tables of imports and of their items, and the queue. Places, saves and what
Google keeps of a user are the world around them.
-/

namespace Feca.Imports

open Concurrency Concurrency.Prog Relational Social

inductive GoogleDataImportStatus
  | pending
  | authorizing
  | fetching
  | processing
  | complete
  | failed
  | revoked
  deriving DecidableEq, Repr

inductive GoogleDataImportConsentType
  | oneTime
  | timeBased
  deriving DecidableEq, Repr

inductive GoogleDataImportItemKind
  | savedPlace
  | visit
  deriving DecidableEq, Repr

inductive GoogleDataImportItemConfidence
  | high
  | medium
  | low
  deriving DecidableEq, Repr

inductive GoogleDataImportItemStatus
  | parsed
  | matched
  | skipped
  | manualReview
  deriving DecidableEq, Repr

structure GoogleDataImport where
  id : Id
  userId : Id
  status : GoogleDataImportStatus := .pending
  requestedScopes : List String
  consentType : GoogleDataImportConsentType := .oneTime
  archiveJobId : Option String := none
  archiveState : Option String := none
  archiveUrls : Option (List String) := none
  oauthAccessTokenEncrypted : Option String := none
  oauthRefreshTokenEncrypted : Option String := none
  tokenExpiresAt : Option Date := none
  lastError : Option String := none
  createdAt : Date
  updatedAt : Date
  completedAt : Option Date := none
  deriving DecidableEq, Repr

/-- The columns an upsert writes, whether it updates or creates. -/
structure ItemData where
  rawTitle : Option String
  rawUrl : Option String
  rawPayload : JsonRecord
  mappedPlaceId : Option Id
  kind : GoogleDataImportItemKind
  confidence : GoogleDataImportItemConfidence
  status : GoogleDataImportItemStatus

structure GoogleDataImportItem extends ItemData where
  importId : Id
  resourceGroup : String
  sourceKey : String
  createdAt : Date

/-- `@id` on `GoogleDataImport`. -/
instance : UniqueColumns GoogleDataImport where
  conflicts a b := a.id == b.id
  conflicts_self _ := by simp
  conflicts_symm a b := by rw [BEq.comm (a := a.id)]

/-- `@@unique([importId, resourceGroup, sourceKey])` on `GoogleDataImportItem`. -/
instance : UniqueColumns GoogleDataImportItem where
  conflicts a b :=
    a.importId == b.importId && a.resourceGroup == b.resourceGroup && a.sourceKey == b.sourceKey
  conflicts_self _ := by simp
  conflicts_symm a b := by
    rw [BEq.comm (a := a.importId), BEq.comm (a := a.resourceGroup), BEq.comm (a := a.sourceKey)]

/-! ## The store -/

structure IngestJobPayload where
  userId : Id
  importId : Id
  items : List IngestJobItem

inductive ImportJob
  | processArchive (userId importId : Id)
  | ingestSaved (payload : IngestJobPayload)
  | retry (userId importId : Id)

/-- Generated ids are not used twice: `issued` are those of all imports there
have been. -/
structure ImportDb (ω : Type) where
  imports : Table GoogleDataImport
  items : Table GoogleDataImportItem
  jobs : List ImportJob
  issued : List Id
  world : ω
  import_issued : ∀ row ∈ imports.rows, row.id ∈ issued
  item_import : ∀ item ∈ items.rows, ∃ row ∈ imports.rows, row.id = item.importId

/-- The functions that write the row of an import. -/
inductive ImportWriter
  | markProcessing
  | markFetching
  | updateOAuthTokens
  | updateArchiveState
  | markComplete
  | markFailed
  | markRevoked
  deriving DecidableEq, Repr

/-- The status that a writer leaves. -/
def ImportWriter.Leads (before after : GoogleDataImportStatus) : ImportWriter → Prop
  | .markProcessing => after = .processing
  | .markFetching => after = .fetching
  | .updateOAuthTokens => after = before
  | .updateArchiveState => after = .fetching ∨ after = .failed
  | .markComplete => after = .complete
  | .markFailed => after = .failed
  | .markRevoked => after = .revoked

/-- What happens to the row of an import, with the status before and after. -/
inductive ImportEvent
  | created (importId : Id)
  | wrote (importId : Id) (writer : ImportWriter) (before after : GoogleDataImportStatus)
  | deleted (importId : Id)
  deriving DecidableEq, Repr

/-- The status that is written over. -/
def ImportEvent.overwrites : ImportEvent → Option GoogleDataImportStatus
  | .wrote _ _ before _ => some before
  | _ => none

abbrev ImportProg (ω : Type) := Prog (ImportDb ω) ImportEvent Failure

namespace ImportDb

variable {ω : Type} (s : ImportDb ω)

def findImport (importId : Id) : Option GoogleDataImport :=
  s.imports.rows.find? (·.id == importId)

def statusOf (importId : Id) : Option GoogleDataImportStatus :=
  (s.findImport importId).map (·.status)

/-- No import has the id, or had it. -/
def insertImport (row : GoogleDataImport) : Option (ImportDb ω) :=
  if row.id ∈ s.issued then none
  else match h : s.imports.insert row with
    | none => none
    | some imports => some
        { s with
          imports
          issued := row.id :: s.issued
          import_issued := by
            intro x hx
            rw [(Table.insert_eq_some h).1, List.mem_append, List.mem_singleton] at hx
            rcases hx with hx | rfl
            · exact List.mem_cons_of_mem _ (s.import_issued x hx)
            · exact List.mem_cons_self
          item_import := by
            intro item hitem
            obtain ⟨x, hx, hid⟩ := s.item_import item hitem
            rw [(Table.insert_eq_some h).1]
            exact ⟨x, List.mem_append_left _ hx, hid⟩ }

variable {s}

theorem insertImport_eq_some {t : ImportDb ω} {row : GoogleDataImport}
    (h : s.insertImport row = some t) : row.id ∉ s.issued ∧
      t.imports.rows = s.imports.rows ++ [row] ∧ t.issued = row.id :: s.issued := by
  unfold insertImport at h
  split at h
  · cases h
  · rename_i hunknown
    split at h
    · cases h
    · rename_i imports himports
      cases h
      exact ⟨hunknown, (Table.insert_eq_some himports).1, rfl⟩

theorem findImport_insertImport {t : ImportDb ω} {row : GoogleDataImport}
    (h : s.insertImport row = some t) {id : Id} (hid : id ≠ row.id) :
    t.findImport id = s.findImport id := by
  unfold findImport
  rw [(insertImport_eq_some h).2.1, List.find?_append, List.find?_singleton]
  have hother : ¬ (row.id == id) = true := by simpa using Ne.symm hid
  rw [if_neg hother, Option.or_none]

variable (s)

/-- Rewrite the row of an import, its id excepted. -/
def setImport (importId : Id) (data : GoogleDataImport → GoogleDataImport)
    (keeps : ∀ row, (data row).id = row.id := by intros; rfl) : ImportDb ω where
  imports := s.imports.update (·.id == importId) data fun a b => by
    show ((data a).id == b.id) = (a.id == b.id)
    rw [keeps]
  items := s.items
  jobs := s.jobs
  issued := s.issued
  world := s.world
  import_issued := by
    intro x hx
    obtain ⟨row, hrow, rfl⟩ := Table.mem_update.mp hx
    split
    · rw [keeps]
      exact s.import_issued row hrow
    · exact s.import_issued row hrow
  item_import := by
    intro item hitem
    obtain ⟨row, hrow, hid⟩ := s.item_import item hitem
    refine ⟨if row.id == importId then data row else row, Table.mem_update.mpr ⟨row, hrow, rfl⟩, ?_⟩
    split
    · rw [keeps]
      exact hid
    · exact hid

theorem findImport_setImport {importId : Id} {data : GoogleDataImport → GoogleDataImport}
    {keeps : ∀ row, (data row).id = row.id} (id : Id) :
    (s.setImport importId data keeps).findImport id =
      (s.findImport id).map fun row => if row.id == importId then data row else row := by
  have hid : ((fun row : GoogleDataImport => row.id == id) ∘ fun row =>
      if row.id == importId then data row else row) = fun row => row.id == id := by
    funext row
    show ((if row.id == importId then data row else row).id == id) = (row.id == id)
    split
    · rw [keeps]
    · rfl
  show (s.imports.rows.map fun row => if row.id == importId then data row else row).find?
    (·.id == id) = _
  rw [List.find?_map, hid]
  rfl

theorem findImport_setImport_of_ne {importId id : Id} {data : GoogleDataImport → GoogleDataImport}
    {keeps : ∀ row, (data row).id = row.id} (hid : id ≠ importId) :
    (s.setImport importId data keeps).findImport id = s.findImport id := by
  rw [findImport_setImport]
  cases hrow : s.findImport id with
  | none => rfl
  | some row =>
      have hsame : row.id = id := by simpa using List.find?_some hrow
      simp [hsame, hid]

/-- The rows that satisfy `p`, with their items. -/
def deleteImports (p : GoogleDataImport → Bool) : ImportDb ω where
  imports := s.imports.erase p
  items := s.items.erase fun item =>
    s.imports.rows.any fun row => p row && row.id == item.importId
  jobs := s.jobs
  issued := s.issued
  world := s.world
  import_issued := by
    intro x hx
    rw [Table.rows_erase] at hx
    exact s.import_issued x (List.mem_filter.mp hx).1
  item_import := by
    intro item hitem
    rw [Table.rows_erase, List.mem_filter] at hitem
    obtain ⟨row, hrow, hid⟩ := s.item_import item hitem.1
    refine ⟨row, ?_, hid⟩
    rw [Table.rows_erase, List.mem_filter]
    refine ⟨hrow, ?_⟩
    by_contra hp
    have hpos : p row = true := by simpa using hp
    have hany : (s.imports.rows.any fun row => p row && row.id == item.importId) = true :=
      List.any_eq_true.mpr ⟨row, hrow, by simp [hpos, hid]⟩
    rw [hany] at hitem
    exact Bool.noConfusion hitem.2

theorem findImport_deleteImports_self (id : Id) :
    (s.deleteImports (·.id == id)).findImport id = none := by
  show (s.imports.rows.filter fun row => !(row.id == id)).find? (·.id == id) = none
  rw [List.find?_eq_none]
  intro row hrow
  simpa using (List.mem_filter.mp hrow).2

theorem findImport_deleteImports_of_ne {importId id : Id} (hid : id ≠ importId) :
    (s.deleteImports (·.id == importId)).findImport id = s.findImport id := by
  show (s.imports.rows.filter fun row => !(row.id == importId)).find? (·.id == id) = _
  have hsame : (fun row : GoogleDataImport =>
      decide ((!(row.id == importId)) = true ∧ (row.id == id) = true)) = (·.id == id) := by
    funext row
    by_cases hrow : row.id = id
    · simp [hrow, hid]
    · simp [hrow]
  rw [List.find?_filter, hsame]
  rfl

def withItems (items : Table GoogleDataImportItem)
    (h : ∀ item ∈ items.rows, ∃ row ∈ s.imports.rows, row.id = item.importId) : ImportDb ω :=
  { s with items, item_import := h }

/-- One row per import, resource group and source key. -/
def upsertItem (row : GoogleDataImportItem) : Except Thrown (ImportDb ω) :=
  if s.items.rows.any (conflicts row) then
    .ok (s.withItems (s.items.update (conflicts row) fun item => { item with toItemData := row.toItemData })
      (by
        intro x hx
        obtain ⟨item, hitem, rfl⟩ := Table.mem_update.mp hx
        split
        · exact s.item_import item hitem
        · exact s.item_import item hitem))
  else if himport : ∃ x ∈ s.imports.rows, x.id = row.importId then
    match h : s.items.insert row with
    | none => .error uniqueViolation
    | some items => .ok (s.withItems items (by
        intro x hx
        rw [(Table.insert_eq_some h).1, List.mem_append, List.mem_singleton] at hx
        rcases hx with hx | rfl
        · exact s.item_import x hx
        · exact himport))
  else .error foreignKeyViolation

/-- The imports are not touched. -/
theorem upsertItem_keeps {s t : ImportDb ω} {row : GoogleDataImportItem}
    (h : s.upsertItem row = .ok t) : t.imports = s.imports ∧ t.issued = s.issued := by
  unfold upsertItem at h
  split at h
  · cases h
    exact ⟨rfl, rfl⟩
  · split at h
    · split at h
      · cases h
      · cases h
        exact ⟨rfl, rfl⟩
    · cases h

def itemsOf (importId : Id) : List GoogleDataImportItem :=
  s.items.rows.filter (·.importId == importId)

end ImportDb

end Feca.Imports
