import Feca.Imports.Calls
import Feca.Imports.Ingestion

/-! # Callbacks that come again

The callback of Google's consent page can be called by anybody, and more than
once. It finds the import by its state, and writes what the callback brings,
whatever has become of the import. While every callback that comes to its write
finds the import waiting, only one does.
-/

namespace Feca.Imports

open Concurrency Concurrency.Config Relational Social

variable {ω ι : Type} [DecidableEq ι] {s t : ImportDb ω}

def ImportCall.isCallback : ImportCall → Bool
  | .handleOAuthCallback _ => true
  | _ => false

abbrev ImportConfig (ι ω : Type) := Config ι (ImportDb ω) ImportEvent Failure Unit

/-- All calls are about to start. -/
def starting (env : ι → ImportsEnv ω) (call : ι → ImportCall) (s : ImportDb ω) :
    ImportConfig ι ω where
  store := s
  calls i := (call i).program (env i)
  trace := []

variable {env : ι → ImportsEnv ω} {call : ι → ImportCall} {c : ImportConfig ι ω}

/-- What a callback is about to write, it writes to an import that waits for it. -/
def FindsWaiting (call : ι → ImportCall) (c : ImportConfig ι ω) (i : ι) : Prop :=
  (call i).isCallback → ∀ e ∈ c.upcoming i, ∀ before ∈ e.overwrites, before = .authorizing

instance {call : ι → ImportCall} {c : ImportConfig ι ω} {i : ι} :
    Decidable (FindsWaiting call c i) :=
  inferInstanceAs (Decidable ((call i).isCallback →
    ∀ e ∈ c.upcoming i, ∀ before ∈ e.overwrites, before = .authorizing))

/-- No two callbacks have written one import. -/
def TakesEffectOnce (call : ι → ImportCall) (c : ImportConfig ι ω) : Prop :=
  ∀ i j id writer writer' before before' after after',
    (call i).isCallback → (call j).isCallback →
    (i, .wrote id writer before after) ∈ c.trace →
    (j, .wrote id writer' before' after') ∈ c.trace → i = j

/-- The statement of a callback leaves the imports alone that do not wait. -/
def LeavesOthers (call : ι → ImportCall) (c : ImportConfig ι ω) (i : ι) : Prop :=
  (call i).isCallback → ∀ id row, c.store.findImport id = some row → row.status ≠ .authorizing →
    (c.advance i).store.findImport id = some row

/-! ## An import waits once -/

/-- The import has waited, and will not again. -/
def Spent (id : Id) (s : ImportDb ω) : Prop :=
  id ∈ s.issued ∧ s.statusOf id ≠ some .authorizing

/-- No writer puts an import back into waiting. -/
theorem ImportWriter.leads_away {writer : ImportWriter} {before after : GoogleDataImportStatus}
    (h : writer.Leads before after) (hbefore : before ≠ .authorizing) : after ≠ .authorizing := by
  rintro rfl
  cases writer with
  | updateOAuthTokens => exact hbefore h.symm
  | updateArchiveState =>
      rcases h with h | h
      · cases h
      · cases h
  | markProcessing => cases h
  | markFetching => cases h
  | markComplete => cases h
  | markFailed => cases h
  | markRevoked => cases h

variable {may : Id → ImportWriter → Prop} {es : List ImportEvent}

theorem Spent.step {id : Id} (h : Spent id s) (hstep : ImportStep may s t es) : Spent id t := by
  refine ⟨hstep.issued h.1, ?_⟩
  cases hstep.row id with
  | kept row =>
      unfold ImportDb.statusOf
      rw [row]
      exact h.2
  | created unknown => exact absurd h.1 unknown
  | wrote writer before after allowed leads found left event =>
      have hbefore : before ≠ .authorizing := by
        rintro rfl
        exact h.2 found
      rw [left]
      intro heq
      cases heq
      exact ImportWriter.leads_away leads hbefore rfl
  | deleted allowed gone =>
      unfold ImportDb.statusOf
      rw [gone]
      intro heq
      cases heq

theorem ImportCall.eq_of_isCallback {importCall : ImportCall} (h : importCall.isCallback) :
    ∃ input, importCall = .handleOAuthCallback input := by
  cases importCall with
  | handleOAuthCallback input => exact ⟨input, rfl⟩
  | createImport userId consentType => cases h
  | getImport userId importId => cases h
  | deleteImport userId importId => cases h
  | syncArchiveState userId importId => cases h
  | enqueueProcessCompletedArchive userId importId => cases h
  | enqueueIngestSavedCollections userId importId items => cases h
  | enqueueRetry userId importId => cases h
  | runJob job => cases h

theorem leads_of_callback {importCall : ImportCall} (hcallback : importCall.isCallback) {id : Id}
    {writer : ImportWriter} {before after : GoogleDataImportStatus}
    (hwrites : importCall.Writes id writer) (hleads : writer.Leads before after) :
    after ≠ .authorizing := by
  obtain ⟨input, rfl⟩ := ImportCall.eq_of_isCallback hcallback
  obtain ⟨-, hwriter⟩ := hwrites
  rw [List.mem_cons, List.mem_singleton] at hwriter
  rintro rfl
  rcases hwriter with rfl | rfl
  · cases hleads
  · cases hleads

/-! ## Every interleaving -/

structure Heard (call : ι → ImportCall) (c : ImportConfig ι ω) : Prop where
  obeys : ∀ i, Obeys (fun id writer => (call i).Writes id writer) (c.calls i)
  spent : ∀ i id writer before after, (call i).isCallback →
    (i, .wrote id writer before after) ∈ c.trace → Spent id c.store
  once : TakesEffectOnce call c

omit [DecidableEq ι] in
theorem heard_starting (env : ι → ImportsEnv ω) (call : ι → ImportCall) (s : ImportDb ω) :
    Heard call (starting env call s) where
  obeys i := obeys_program (env i) (call i)
  spent := by
    intro i id writer before after _ hmem
    cases hmem
  once := by
    intro i j id writer writer' before before' after after' _ _ hmem
    cases hmem

theorem Heard.step (h : Heard call c) (i : ι) :
    ImportStep (fun id writer => (call i).Writes id writer) c.store (c.advance i).store
      (c.upcoming i) := law_of_always (h.obeys i) fun _ => .quiet rfl rfl

theorem mem_trace_advance {j : ι} {e : ImportEvent} {i : ι} :
    (j, e) ∈ (c.advance i).trace ↔ (j, e) ∈ c.trace ∨ j = i ∧ e ∈ c.upcoming i := by
  rw [advance_trace, List.mem_append, List.mem_map]
  refine or_congr Iff.rfl ⟨?_, ?_⟩
  · rintro ⟨e', he', heq⟩
    cases heq
    exact ⟨rfl, he'⟩
  · rintro ⟨rfl, he⟩
    exact ⟨e, he, rfl⟩

/-- What a callback finds waiting no callback has written before. -/
theorem Heard.fresh (h : Heard call c) {i j : ι} (hwaiting : FindsWaiting call c i)
    (hi : (call i).isCallback) (hj : (call j).isCallback) {id : Id} {writer writer' : ImportWriter}
    {before before' after after' : GoogleDataImportStatus}
    (hupcoming : .wrote id writer before after ∈ c.upcoming i) :
    (j, .wrote id writer' before' after') ∉ c.trace := by
  intro hmem
  have hfound := ((h.step i).of_wrote hupcoming).2.2.1
  rw [hwaiting hi _ hupcoming before rfl] at hfound
  exact (h.spent j id writer' before' after' hj hmem).2 hfound

theorem Heard.advance (h : Heard call c) (i : ι) (hwaiting : FindsWaiting call c i) :
    Heard call (c.advance i) where
  obeys j := always_advance i (h.obeys j)
  spent := by
    intro j id writer before after hj hmem
    rcases mem_trace_advance.mp hmem with hmem | ⟨rfl, hupcoming⟩
    · exact (h.spent j id writer before after hj hmem).step (h.step i)
    · obtain ⟨hwrites, hleads, hfound, hleft⟩ := (h.step j).of_wrote hupcoming
      refine ⟨(h.step j).issued (issued_of_statusOf hfound), ?_⟩
      rw [hleft]
      intro heq
      cases heq
      exact leads_of_callback hj hwrites hleads rfl
  once := by
    intro j k id writer writer' before before' after after' hj hk hmem hmem'
    rcases mem_trace_advance.mp hmem with hold | ⟨rfl, hnew⟩
    · rcases mem_trace_advance.mp hmem' with hold' | ⟨rfl, hnew'⟩
      · exact h.once j k id writer writer' before before' after after' hj hk hold hold'
      · exact absurd hold (h.fresh hwaiting hk hj hnew')
    · rcases mem_trace_advance.mp hmem' with hold' | ⟨rfl, hnew'⟩
      · exact absurd hold' (h.fresh hwaiting hj hk hnew)
      · rfl

theorem Heard.leavesOthers (h : Heard call c) (i : ι) (hwaiting : FindsWaiting call c i) :
    LeavesOthers call c i := by
  intro hi id row hfind hstatus
  have hstatusOf : c.store.statusOf id = some row.status := by
    unfold ImportDb.statusOf
    rw [hfind]
    rfl
  cases (h.step i).row id with
  | kept same => rwa [same]
  | created unknown => exact absurd (issued_of_statusOf hstatusOf) unknown
  | wrote writer before after allowed leads found left event =>
      have hupcoming : .wrote id writer before after ∈ c.upcoming i := by
        rw [event]
        exact List.mem_singleton_self _
      have hbefore := hwaiting hi _ hupcoming before rfl
      have hsame : row.status = before := Option.some.inj (hstatusOf.symm.trans found)
      exact absurd (hsame.trans hbefore) hstatus
  | deleted allowed gone =>
      obtain ⟨input, hinput⟩ := ImportCall.eq_of_isCallback hi
      rw [hinput] at allowed
      cases allowed.2 with
      | tail _ hwriter => cases hwriter with
        | tail _ hwriter => cases hwriter

/-- While every callback that comes to its write finds the import waiting, at
most one callback takes effect on an import, and none touches an import that
does not wait. -/
theorem callbacks_take_effect_once (env : ι → ImportsEnv ω) (call : ι → ImportCall)
    (s : ImportDb ω) (schedule : List ι)
    (h : Heeds (FindsWaiting call) (starting env call s) schedule) :
    TakesEffectOnce call ((starting env call s).run schedule) ∧
      Heeds (LeavesOthers call) (starting env call s) schedule := by
  constructor
  · exact (invariant_of_heeds (I := Heard call) (fun c i hc hwaiting => Heard.advance hc i hwaiting)
      (heard_starting env call s) h).once
  · exact heeds_of_heeds (I := Heard call) (fun c i hc hwaiting =>
      ⟨Heard.leavesOthers hc i hwaiting, Heard.advance hc i hwaiting⟩) (heard_starting env call s) h

/-! ## A callback that comes again -/

def waitingImport : GoogleDataImport where
  id := "import"
  userId := "ana"
  status := .authorizing
  requestedScopes := GOOGLE_DATA_PORTABILITY_MVP_SCOPES
  createdAt := 0
  updatedAt := 0

def aCallback : ImportCall := .handleOAuthCallback { code := some "code", state := some "import" }

/-- Nobody but Google has the code, and anybody may say that there was none. -/
def aRefusal : ImportCall :=
  .handleOAuthCallback { error := some "access_denied", state := some "import" }

/-- Two imports wait, and each has its callback. -/
def twoWaiting : ImportDb Unit :=
  { anImportOf waitingImport with
    imports := ⟨[waitingImport, { waitingImport with id := "other" }], by decide⟩
    issued := ["import", "other"]
    import_issued := by decide
    item_import := by
      intro item hitem
      cases hitem }

def twoCallbacks (first : Bool) : ImportCall :=
  if first then aCallback
  else .handleOAuthCallback { code := some "another", state := some "other" }

/-- Both read before either writes. -/
theorem two_callbacks_take_effect :
    let c := starting (fun _ => anImportsEnv) twoCallbacks twoWaiting
    TakesEffectOnce twoCallbacks (c.run [true, false, true, false]) ∧
      Heeds (LeavesOthers twoCallbacks) c [true, false, true, false] :=
  callbacks_take_effect_once _ _ _ _ (by decide)

/-- The import has its archive, and fails. -/
theorem a_late_refusal_fails_the_import :
    let call : Bool → ImportCall := fun first => if first then aCallback else aRefusal
    let c := starting (fun _ => anImportsEnv) call (anImportOf waitingImport)
    let fetching := c.run [true, true]
    let failed := c.run [true, true, false, false]
    fetching.store.statusOf "import" = some .fetching ∧
      failed.store.statusOf "import" = some .failed ∧ ¬ TakesEffectOnce call failed ∧
      ¬ Heeds (LeavesOthers call) c [true, true, false, false] := by
  intro call c fetching failed
  have hbefore : fetching.store.statusOf "import" = some .fetching := by decide
  have hafter : failed.store.statusOf "import" = some .failed := by decide
  refine ⟨hbefore, hafter, fun h => ?_, fun h => ?_⟩
  · have heq : true = false := h true false "import" .markFetching .markFailed .authorizing .fetching
      .fetching .failed rfl rfl (by decide) (by decide)
    cases heq
  · obtain ⟨row, hfind, hstatus⟩ := Option.map_eq_some_iff.mp
      (show (c.run [true, true, false]).store.statusOf "import" = some .fetching by decide)
    have hkept := h.2.2.2.1 rfl "import" row hfind (by rw [hstatus]; decide)
    have hfetching : failed.store.statusOf "import" = some .fetching :=
      Option.map_eq_some_iff.mpr ⟨row, hkept, hstatus⟩
    rw [hafter] at hfetching
    cases hfetching

end Feca.Imports
