import Feca.Imports.Calls
import Feca.Imports.Ingestion

/-! # Where an import goes from complete

Operations follow one another, each running alone. The writers of the status do
not look at it: while those that would put an import back do not find it
processing or complete, only a new run leads away from complete.
-/

namespace Feca.Imports

open Concurrency Concurrency.Prog Relational Social

variable {ω : Type} {s t : ImportDb ω} {es : List ImportEvent} {id : Id}
  {may : Id → ImportWriter → Prop}

structure Operation (ω : Type) where
  env : ImportsEnv ω
  call : ImportCall

def Operation.run (op : Operation ω) (s : ImportDb ω) :
    Answer (ImportDb ω) ImportEvent Failure Unit := (op.call.program op.env).run s

def performed : ImportDb ω → List (Operation ω) → ImportDb ω
  | s, [] => s
  | s, op :: ops => performed (op.run s).store ops

theorem performed_append (s : ImportDb ω) (xs ys : List (Operation ω)) :
    performed s (xs ++ ys) = performed (performed s xs) ys := by
  induction xs generalizing s with
  | nil => rfl
  | cons op xs ih => exact ih (op.run s).store

/-- A new run of the import is started. -/
def ImportCall.Starts (id : Id) : ImportCall → Prop
  | .enqueueProcessCompletedArchive _ importId => importId = id
  | .enqueueIngestSavedCollections _ importId _ => importId = id
  | .enqueueRetry _ importId => importId = id
  | _ => False

/-- The operation starts a new run of the import from the store. -/
def Operation.Starts (op : Operation ω) (id : Id) (s : ImportDb ω) : Prop :=
  op.call.Starts id ∧
    ∃ status, .wrote id .markProcessing status .processing ∈ (op.run s).events

/-- The state of the archive is asked for, and written. -/
def ImportCall.Syncs : ImportCall → Prop
  | .syncArchiveState _ _ => True
  | .enqueueProcessCompletedArchive _ _ => True
  | _ => False

/-- The life cycle over a run of operations. -/
structure Monotone (s : ImportDb ω) (ops : List (Operation ω)) : Prop where
  /-- An archive state changes no status that is past fetching; the run that
  it was asked for may start. -/
  sync : ∀ before op after, ops = before ++ op :: after → op.call.Syncs → ∀ id status,
    status = .processing ∨ status = .complete →
    (performed s before).statusOf id = some status →
    (performed s (before ++ [op])).statusOf id = some status ∨
      op.call.Starts id ∧ (performed s (before ++ [op])).statusOf id = some .processing
  /-- What was complete has another status only after an operation has started a
  new run. -/
  complete : ∀ before during after, ops = before ++ during ++ after → ∀ id status,
    (performed s before).statusOf id = some .complete →
    (performed s (before ++ during)).statusOf id = some status →
    status = .complete ∨ ∃ first op rest, during = first ++ op :: rest ∧
      op.Starts id (performed s (before ++ first))

/-- The write does not find an import that has gone further. -/
def ImportEvent.inOrder : ImportEvent → Bool
  | .wrote _ .updateArchiveState before _ => before != .processing && before != .complete
  | .wrote _ .markFetching before _ => before != .complete
  | .wrote _ .markFailed before _ => before != .complete
  | _ => true

/-- Every write of the run is in order. -/
def Orderly : ImportDb ω → List (Operation ω) → Prop
  | _, [] => True
  | s, op :: ops => (∀ e ∈ (op.run s).events, e.inOrder) ∧ Orderly (op.run s).store ops

theorem orderly_append {xs ys : List (Operation ω)} :
    Orderly s (xs ++ ys) ↔ Orderly s xs ∧ Orderly (performed s xs) ys := by
  induction xs generalizing s with
  | nil => simp [Orderly, performed]
  | cons op xs ih => simp only [List.cons_append, Orderly, performed, ih, and_assoc]

/-! ## One operation -/

/-- What each statement of an operation keeps while its events are as they should
be, the operation keeps. -/
theorem Operation.keeps {J : ImportDb ω → Prop} {E : ImportEvent → Prop} (op : Operation ω)
    (step : ∀ s t es, ImportStep (fun id writer => op.call.Writes id writer) s t es →
      (∀ e ∈ es, E e) → J s → J t)
    (hevents : ∀ e ∈ (op.run s).events, E e) (hs : J s) : J (op.run s).store := by
  have hrun := ((obeys_program op.env op.call).mono fun s t es h => step s t es h).run
    (fun _ _ h => h) (fun s t u es fs hst htu hevents h => ?_) s
  · exact hrun hevents hs
  · exact htu (fun e he => hevents e (List.mem_append_right _ he))
      (hst (fun e he => hevents e (List.mem_append_left _ he)) h)

/-- An operation reports writes of its own writers, with what they lead to. -/
theorem Operation.writes (op : Operation ω) {writer : ImportWriter}
    {before after : GoogleDataImportStatus}
    (h : .wrote id writer before after ∈ (op.run s).events) :
    op.call.Writes id writer ∧ writer.Leads before after := by
  have hlaw : (op.call.program op.env).Emits fun e =>
      e = .wrote id writer before after → op.call.Writes id writer ∧ writer.Leads before after := by
    refine (obeys_program op.env op.call).mono fun s t es hstep e he heq => ?_
    subst heq
    obtain ⟨hwrites, hleads, -, -⟩ := hstep.of_wrote he
    exact ⟨hwrites, hleads⟩
  refine hlaw.run (fun _ e he => by cases he) (fun _ _ _ es fs hes hfs e he => ?_) s _ h rfl
  rw [List.mem_append] at he
  rcases he with he | he
  · exact hes e he
  · exact hfs e he

theorem writes_of_syncs {call : ImportCall} (hsyncs : call.Syncs) {writer : ImportWriter}
    (h : call.Writes id writer) : writer = .updateOAuthTokens ∨ writer = .updateArchiveState ∨
      writer = .markProcessing ∧ call.Starts id := by
  cases call with
  | syncArchiveState userId importId =>
      obtain ⟨-, hwriter⟩ := h
      rw [List.mem_cons, List.mem_singleton] at hwriter
      rcases hwriter with rfl | rfl
      · exact .inl rfl
      · exact .inr (.inl rfl)
  | enqueueProcessCompletedArchive userId importId =>
      obtain ⟨hid, hwriter⟩ := h
      rw [List.mem_cons, List.mem_cons, List.mem_singleton] at hwriter
      rcases hwriter with rfl | rfl | rfl
      · exact .inl rfl
      · exact .inr (.inl rfl)
      · exact .inr (.inr ⟨rfl, hid⟩)
  | createImport userId consentType => cases hsyncs
  | getImport userId importId => cases hsyncs
  | handleOAuthCallback input => cases hsyncs
  | deleteImport userId importId => cases hsyncs
  | enqueueIngestSavedCollections userId importId items => cases hsyncs
  | enqueueRetry userId importId => cases hsyncs
  | runJob job => cases hsyncs

theorem sync_keeps {op : Operation ω} (hsyncs : op.call.Syncs)
    (horderly : ∀ e ∈ (op.run s).events, e.inOrder) {status : GoogleDataImportStatus}
    (hstatus : status = .processing ∨ status = .complete) (hs : s.statusOf id = some status) :
    (op.run s).store.statusOf id = some status ∨
      op.call.Starts id ∧ (op.run s).store.statusOf id = some .processing := by
  refine op.keeps (J := fun s => s.statusOf id = some status ∨
    op.call.Starts id ∧ s.statusOf id = some .processing) ?_ horderly (.inl hs)
  intro s t es hstep horder hs
  have hfound : ∃ found, s.statusOf id = some found ∧ (found = .processing ∨ found = .complete) := by
    rcases hs with hs | ⟨-, hs⟩
    · exact ⟨status, hs, hstatus⟩
    · exact ⟨.processing, hs, .inl rfl⟩
  obtain ⟨found, hfound, hpast⟩ := hfound
  cases hstep.row id with
  | kept row =>
      unfold ImportDb.statusOf at hs ⊢
      rwa [row]
  | created unknown => exact absurd (issued_of_statusOf hfound) unknown
  | deleted allowed gone =>
      rcases writes_of_syncs hsyncs allowed with hwriter | hwriter | ⟨hwriter, -⟩
      · cases hwriter
      · cases hwriter
      · cases hwriter
  | wrote writer before after allowed leads here left event =>
      have hbefore : before = found := Option.some.inj (here.symm.trans hfound)
      have hinOrder := horder (.wrote id writer before after) (by
        rw [event]
        exact List.mem_singleton_self _)
      rcases writes_of_syncs hsyncs allowed with rfl | rfl | ⟨rfl, hstarts⟩
      · have hafter : after = before := leads
        rwa [left, hafter, ← here]
      · rcases hpast with rfl | rfl
        · rw [hbefore] at hinOrder
          cases hinOrder
        · rw [hbefore] at hinOrder
          cases hinOrder
      · have hafter : after = .processing := leads
        rw [left, hafter]
        exact .inr ⟨hstarts, rfl⟩

/-! ## Complete, or gone -/

def Finished (id : Id) (s : ImportDb ω) : Prop :=
  id ∈ s.issued ∧ (s.statusOf id = some .complete ∨ s.findImport id = none)

theorem starts_of_writes {call : ImportCall} (h : call.Writes id .markProcessing) :
    call.Starts id := by
  cases call with
  | createImport userId consentType => cases h
  | getImport userId importId => cases h
  | handleOAuthCallback input => simp [ImportCall.Writes] at h
  | deleteImport userId importId => cases h.2
  | syncArchiveState userId importId => simp [ImportCall.Writes] at h
  | enqueueProcessCompletedArchive userId importId => exact h.1
  | enqueueIngestSavedCollections userId importId items => exact h.1
  | enqueueRetry userId importId => exact h.1
  | runJob job => simp [ImportCall.Writes] at h

theorem eq_of_writes_markRevoked {call : ImportCall} (h : call.Writes id .markRevoked) :
    ∃ userId, call = .deleteImport userId id := by
  cases call with
  | createImport userId consentType => cases h
  | getImport userId importId => cases h
  | handleOAuthCallback input => simp [ImportCall.Writes] at h
  | deleteImport userId importId => exact ⟨userId, by rw [h.1]⟩
  | syncArchiveState userId importId => simp [ImportCall.Writes] at h
  | enqueueProcessCompletedArchive userId importId => simp [ImportCall.Writes] at h
  | enqueueIngestSavedCollections userId importId items => cases h.2
  | enqueueRetry userId importId => cases h.2
  | runJob job => simp [ImportCall.Writes] at h

/-- Of the writes in order only those that start a run or delete lead away. -/
theorem complete_of_inOrder {writer : ImportWriter} {after : GoogleDataImportStatus}
    (hinOrder : (ImportEvent.wrote id writer .complete after).inOrder)
    (leads : writer.Leads .complete after)
    (hstarts : writer ≠ .markProcessing) (hdelete : writer ≠ .markRevoked) : after = .complete := by
  cases writer with
  | markProcessing => exact absurd rfl hstarts
  | markFetching => cases hinOrder
  | updateOAuthTokens => exact leads
  | updateArchiveState => cases hinOrder
  | markComplete => exact leads
  | markFailed => cases hinOrder
  | markRevoked => exact absurd rfl hdelete

theorem Finished.step (hs : Finished id s) (hdelete : ¬ may id .markRevoked)
    (hstep : ImportStep may s t es)
    (hevents : ∀ e ∈ es, e.inOrder ∧ ∀ status, e ≠ .wrote id .markProcessing status .processing) :
    Finished id t := by
  refine ⟨hstep.issued hs.1, ?_⟩
  cases hstep.row id with
  | kept row =>
      unfold ImportDb.statusOf
      rw [row]
      exact hs.2
  | created unknown => exact absurd hs.1 unknown
  | deleted allowed gone => exact .inr gone
  | wrote writer before after allowed leads here left event =>
      obtain ⟨hinOrder, hstarts⟩ := hevents (.wrote id writer before after) (by
        rw [event]
        exact List.mem_singleton_self _)
      rcases hs.2 with hcomplete | hgone
      · have hbefore : before = .complete := Option.some.inj (here.symm.trans hcomplete)
        subst hbefore
        have hother : writer ≠ .markProcessing := by
          rintro rfl
          have hafter : after = .processing := leads
          exact hstarts .complete (by rw [hafter])
        have hafter := complete_of_inOrder hinOrder leads hother
          fun hwriter => hdelete (hwriter ▸ allowed)
        rw [left, hafter]
        exact .inl rfl
      · unfold ImportDb.statusOf at here
        rw [hgone] at here
        cases here

/-- A deletion that comes to its mark deletes the import. -/
theorem deleteImport_run (env : ImportsEnv ω) (userId importId : Id) (s : ImportDb ω) :
    ((deleteImport env userId importId).run s).store = s ∨
      ((deleteImport env userId importId).run s).store.findImport importId = none := by
  by_cases howned : Owned userId importId s
  · right
    obtain ⟨found, hfound⟩ := ensureImportForUser_run howned
    obtain ⟨row, hresult, -, -, hrevoked⟩ :=
      writeImport_run howned (markRevoked env.now) fun _ => rfl
    have hdeleted : ((deleteImportForUser userId importId : ImportProg ω Unit).run
        ((writeImport importId (markRevoked env.now)).run s).store).store.findImport importId =
          none := by
      obtain ⟨revoked, hfind, hmine⟩ := hrevoked
      have hfilter : (((writeImport importId (markRevoked env.now)).run s).store.findImport
          importId).filter (·.userId == userId) = some revoked := by
        rw [hfind]
        simp [Option.filter, hmine]
      rw [deleteImportForUser, run_stmt, hfilter]
      exact ImportDb.findImport_deleteImports_self _ importId
    unfold deleteImport
    rw [run_bind_ok (by rw [hfound]), hfound, run_bind_ok hresult]
    show (((deleteImportForUser userId importId : ImportProg ω Unit) >>= fun _ =>
      pure ImportAnswer.nothing).run _).store.findImport importId = none
    rw [← hdeleted, run_bind, Answer.andThen]
    split
    · rfl
    · rfl
  · left
    have hnone : (s.findImport importId).filter (·.userId == userId) = none := by
      rw [Option.filter_eq_none_iff]
      intro row hfind hmine
      exact howned ⟨row, hfind, by simpa using hmine⟩
    have hensure : (ensureImportForUser userId importId : ImportProg ω _).run s =
        ⟨s, [], .error importNotFound⟩ := by
      unfold ensureImportForUser getImportForUser
      rw [run_bind_ok (by rw [run_query]), run_query, hnone]
      rfl
    unfold deleteImport
    rw [run_bind_error (by rw [hensure]), hensure]

theorem Finished.operation {op : Operation ω} (hs : Finished id s) (hstarts : ¬ op.Starts id s)
    (horderly : ∀ e ∈ (op.run s).events, e.inOrder) : Finished id (op.run s).store := by
  by_cases hdelete : op.call.Writes id .markRevoked
  · obtain ⟨userId, hcall⟩ := eq_of_writes_markRevoked hdelete
    have hissued : id ∈ (op.run s).store.issued := by
      exact op.keeps (J := fun s => id ∈ s.issued)
        (fun s t es hstep _ hissued => hstep.issued hissued) horderly hs.1
    have hstore : (op.run s).store = ((deleteImport op.env userId id).run s).store := by
      unfold Operation.run
      rw [hcall]
      show ((_ <$> deleteImport op.env userId id).run s).store = _
      rw [run_map]
    refine ⟨hissued, ?_⟩
    rw [hstore]
    rcases deleteImport_run op.env userId id s with hsame | hgone
    · rw [hsame]
      exact hs.2
    · exact .inr hgone
  · refine op.keeps (J := Finished id)
      (fun s t es hstep hevents hs => hs.step hdelete hstep hevents) (fun e he => ?_) hs
    refine ⟨horderly e he, ?_⟩
    rintro status rfl
    exact hstarts ⟨starts_of_writes (op.writes he).1, status, he⟩

/-! ## Every history -/

theorem Finished.performed {ops : List (Operation ω)} (hs : Finished id s)
    (hstarts : ∀ first op rest, ops = first ++ op :: rest → ¬ op.Starts id (performed s first))
    (horderly : Orderly s ops) : Finished id (performed s ops) := by
  induction ops generalizing s with
  | nil => exact hs
  | cons op ops ih =>
      have hfirst := hs.operation (hstarts [] op ops rfl) horderly.1
      refine ih hfirst (fun first x rest heq => ?_) horderly.2
      exact hstarts (op :: first) x rest (by rw [heq, List.cons_append])

/-- While no write finds an import that has gone further, the life cycle is monotone. -/
theorem life_cycle_is_monotone (s : ImportDb ω) (ops : List (Operation ω)) (h : Orderly s ops) :
    Monotone s ops where
  sync := by
    rintro before op after rfl hsyncs id status hstatus hbefore
    have hop := (orderly_append.mp h).2.1
    rw [performed_append]
    exact sync_keeps hsyncs hop hstatus hbefore
  complete := by
    rintro before during after rfl id status hbefore hduring
    by_cases hstarts : ∃ first op rest, during = first ++ op :: rest ∧
        op.Starts id (performed s (before ++ first))
    · exact .inr hstarts
    · left
      have hfinished : Finished id (performed s before) := ⟨issued_of_statusOf hbefore, .inl hbefore⟩
      rw [List.append_assoc] at h
      have hrest := (orderly_append.mp (orderly_append.mp h).2).1
      have hend := hfinished.performed (fun first op rest heq hstart => by
        rw [← performed_append] at hstart
        exact hstarts ⟨first, op, rest, heq, hstart⟩) hrest
      rw [performed_append] at hduring
      rcases hend.2 with hcomplete | hgone
      · exact Option.some.inj (hduring.symm.trans hcomplete)
      · unfold ImportDb.statusOf at hduring
        rw [hgone] at hduring
        cases hduring

/-! ## An archive asked for too late -/

def operation (call : ImportCall) : Operation Unit := ⟨anImportsEnv, call⟩

def anIngest : Operation Unit :=
  operation (.enqueueIngestSavedCollections "ana" "import" [aTitle "Café"])

def itsJob : Operation Unit :=
  operation (.runJob (.ingestSaved ⟨"ana", "import", [queuedItem (aTitle "Café")]⟩))

def aSync : Operation Unit := operation (.syncArchiveState "ana" "import")

/-- The archive is asked for, then some places come, and come again. -/
theorem a_sync_and_two_ingests :
    Monotone (anImportOf fetchingImport) [aSync, anIngest, itsJob, anIngest, itsJob] :=
  life_cycle_is_monotone _ _ ⟨by decide, by decide, by decide,
    by decide, by decide, trivial⟩

/-- The import has been processed, and is fetching again. -/
theorem a_late_sync_reopens_the_import :
    (performed (anImportOf fetchingImport) [anIngest, itsJob]).statusOf "import" = some .complete ∧
      (performed (anImportOf fetchingImport) [anIngest, itsJob, aSync]).statusOf "import" =
        some .fetching ∧
      ¬ Monotone (anImportOf fetchingImport) [anIngest, itsJob, aSync] := by
  have hcomplete : (performed (anImportOf fetchingImport) [anIngest, itsJob]).statusOf "import" =
      some .complete := by decide
  have hfetching : (performed (anImportOf fetchingImport) [anIngest, itsJob, aSync]).statusOf
      "import" = some .fetching := by decide
  refine ⟨hcomplete, hfetching, fun h => ?_⟩
  rcases h.complete [anIngest, itsJob] [aSync] [] rfl "import" .fetching hcomplete hfetching with
    heq | ⟨first, op, rest, heq, hstarts, -⟩
  · cases heq
  · cases first with
    | nil =>
        cases heq
        exact hstarts
    | cons x first =>
        rw [List.cons_append, List.cons.injEq] at heq
        simp at heq

end Feca.Imports
