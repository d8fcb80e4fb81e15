import Feca.Collections.Budget
import Feca.Imports.Ingestion
import Feca.Imports.Jobs

/-! # The remote budget of a run

A run may resolve twenty-five places remotely. It counts the places that have
been resolved and saved: a call that fails, or whose place cannot be saved, has
been made all the same.
-/

namespace Feca.Imports

open Collections Concurrency Concurrency.Prog Places Social

variable {ω σ ε α β : Type}

/-! ## Which calls are announced -/

/-- From `s`, the program over the announced statements does what the program
does, and makes these calls. -/
def Announces (p : Prog σ String Failure α) (p' : Prog σ ε Failure α) (s : σ)
    (calls : List String) : Prop :=
  p.run s = ⟨(p'.run s).store, calls, (p'.run s).result⟩

section announces

variable {p : Prog σ String Failure α} {p' : Prog σ ε Failure α} {s : σ} {calls : List String}

theorem announces_unobserved (p' : Prog σ ε Failure α) (s : σ) :
    Announces p'.unobserved p' s [] := run_unobserved p' s

theorem announces_pure (a : α) (s : σ) :
    Announces (pure a) (pure a : Prog σ ε Failure α) s [] := rfl

theorem announces_bind_ok {k : α → Prog σ String Failure β} {k' : α → Prog σ ε Failure β} {a : α}
    {later : List String} (h : Announces p p' s calls) (ha : (p'.run s).result = .ok a)
    (hk : Announces (k a) (k' a) (p'.run s).store later) :
    Announces (p >>= k) (p' >>= k') s (calls ++ later) := by
  unfold Announces at h hk ⊢
  have hp : (p.run s).result = .ok a := by rw [h, ha]
  rw [run_bind_ok hp, run_bind_ok ha, h]
  dsimp only
  rw [hk]

theorem announces_bind_error {k : α → Prog σ String Failure β} {k' : α → Prog σ ε Failure β}
    {e : Failure} (h : Announces p p' s calls) (he : (p'.run s).result = .error e) :
    Announces (p >>= k) (p' >>= k') s calls := by
  unfold Announces at h ⊢
  have hp : (p.run s).result = .error e := by rw [h, he]
  rw [run_bind_error hp, run_bind_error he, h]

/-- Nothing is called afterwards. -/
theorem announces_then {k : α → Prog σ String Failure β} {k' : α → Prog σ ε Failure β}
    (h : Announces p p' s calls) (hk : ∀ a t, Announces (k a) (k' a) t []) :
    Announces (p >>= k) (p' >>= k') s calls := by
  cases hresult : (p'.run s).result with
  | ok a =>
      have hbind := announces_bind_ok h hresult (hk a _)
      rwa [List.append_nil] at hbind
  | error e => exact announces_bind_error h hresult

theorem announces_attempt (h : Announces p p' s calls) :
    Announces (p.attempt : Prog σ String Failure (Except Failure α)) p'.attempt s calls := by
  unfold Announces at h ⊢
  rw [run_attempt, run_attempt, h]

end announces

namespace JobStatements

section item

variable (st : JobStatements σ ε) (env : ImportsEnv ω) (userId importId : Id)

/-! ## One item -/

/-- The place is not stored. -/
def unknown (googlePlaceId : String) (s : σ) : Bool :=
  match ((st.getGooglePlace (normalizeGooglePlaceId googlePlaceId)).run s).result with
  | .ok none => true
  | _ => false

/-- The item names a place, and it is not stored. -/
def misses (item : GoogleSavedCollectionItem) (s : σ) : Bool :=
  (parseSavedCollectionItem env.parser item).googlePlaceId.any fun id => st.unknown id s

/-- What a run does with a place that is not stored, as long as it may. -/
def importRemotely (parsed : ParsedGoogleSavedPlace) (googlePlaceId : String) :
    Prog σ ε Failure Unit := do
  let _ ← st.getGooglePlace (normalizeGooglePlaceId googlePlaceId)
  let place ← st.resolve googlePlaceId
  st.savePlace userId place GOOGLE_DATA_PORTABILITY_IMPORT_REASON
  st.upsertItem (itemRow env importId parsed (some place) .high .matched)

/-- The place can be resolved, saved and recorded. -/
def succeeds (item : GoogleSavedCollectionItem) (s : σ) : Bool :=
  let parsed := parseSavedCollectionItem env.parser item
  parsed.googlePlaceId.any fun id =>
    ((st.importRemotely env userId importId parsed id).run s).result.isOk

/-- The calls made for a place. -/
def placeCalls (googlePlaceId : String) (count : Nat) (s : σ) : List String :=
  if st.unknown googlePlaceId s && decide (count < MAX_REMOTE_PLACE_RESOLVES_PER_IMPORT_RUN)
  then [googlePlaceId] else []

/-- The calls made for an item. -/
def itemCalls (item : GoogleSavedCollectionItem) (count : Nat) (s : σ) : List String :=
  (parseSavedCollectionItem env.parser item).googlePlaceId.elim [] fun id => st.placeCalls id count s

variable {st env userId importId} {s : σ} {count : Nat} {item : GoogleSavedCollectionItem}

theorem announces_resolve (googlePlaceId : String) :
    Announces (st.announced.resolve googlePlaceId) (st.resolve googlePlaceId) s [googlePlaceId] := by
  unfold Announces
  show ((stmt fun s => ⟨s, [googlePlaceId], .ok ()⟩) >>= fun _ =>
    (st.resolve googlePlaceId).unobserved).run s = _
  rw [run_bind_ok (a := ()) (by rw [run_stmt]), run_stmt, run_unobserved]
  rfl

theorem unknown_eq {googlePlaceId : String} {found : Option Id}
    (h : ((st.getGooglePlace (normalizeGooglePlaceId googlePlaceId)).run s).result = .ok found) :
    st.unknown googlePlaceId s = found.isNone := by
  unfold unknown
  rw [h]
  cases found <;> rfl

theorem unknown_of_error {googlePlaceId : String} {e : Failure}
    (h : ((st.getGooglePlace (normalizeGooglePlaceId googlePlaceId)).run s).result = .error e) :
    st.unknown googlePlaceId s = false := by
  unfold unknown
  rw [h]

theorem announces_findOrResolvePlace (googlePlaceId : String) :
    Announces (st.announced.findOrResolvePlace googlePlaceId count)
      (st.findOrResolvePlace googlePlaceId count) s (st.placeCalls googlePlaceId count s) := by
  have hget := announces_unobserved (st.getGooglePlace (normalizeGooglePlaceId googlePlaceId)) s
  rw [← List.nil_append (st.placeCalls googlePlaceId count s)]
  cases hresult : ((st.getGooglePlace (normalizeGooglePlaceId googlePlaceId)).run s).result with
  | error e =>
      have hcalls : st.placeCalls googlePlaceId count s = [] := by
        simp [placeCalls, unknown_of_error hresult]
      rw [hcalls]
      exact announces_bind_error hget hresult
  | ok found =>
      refine announces_bind_ok hget hresult ?_
      cases found with
      | some place =>
          have hcalls : st.placeCalls googlePlaceId count s = [] := by
            simp [placeCalls, unknown_eq hresult]
          rw [hcalls]
          exact announces_pure _ _
      | none =>
          by_cases hcount : count < MAX_REMOTE_PLACE_RESOLVES_PER_IMPORT_RUN
          · have hcalls : st.placeCalls googlePlaceId count s = [googlePlaceId] := by
              simp [placeCalls, unknown_eq hresult, hcount]
            rw [hcalls]
            simp only [if_neg (Nat.not_le.mpr hcount)]
            exact announces_then (announces_resolve googlePlaceId) fun _ _ => announces_pure _ _
          · have hcalls : st.placeCalls googlePlaceId count s = [] := by
              simp [placeCalls, hcount]
            rw [hcalls]
            simp only [if_pos (Nat.le_of_not_lt hcount)]
            exact announces_pure _ _

theorem announces_importPlace (parsed : ParsedGoogleSavedPlace) (googlePlaceId : String) :
    Announces (st.announced.importPlace env userId importId parsed googlePlaceId count)
      (st.importPlace env userId importId parsed googlePlaceId count) s
      (st.placeCalls googlePlaceId count s) := by
  unfold importPlace
  refine announces_then (announces_findOrResolvePlace googlePlaceId) fun found t => ?_
  cases found with
  | none => exact announces_then (announces_unobserved _ _) fun _ _ => announces_pure _ _
  | some found =>
      refine announces_then (announces_unobserved _ _) fun _ _ => ?_
      exact announces_then (announces_unobserved _ _) fun _ _ => announces_pure _ _

/-- For one item at most one call is made. -/
theorem announces_processSavedCollectionItem :
    Announces (st.announced.processSavedCollectionItem env userId importId item count)
      (st.processSavedCollectionItem env userId importId item count) s
      (st.itemCalls env item count s) := by
  unfold processSavedCollectionItem itemCalls
  dsimp only
  cases (parseSavedCollectionItem env.parser item).googlePlaceId with
  | none => exact announces_then (announces_unobserved _ _) fun _ _ => announces_pure _ _
  | some googlePlaceId =>
      refine announces_then (announces_attempt (announces_importPlace _ googlePlaceId))
        fun attempted _ => ?_
      cases attempted with
      | ok found => exact announces_pure _ _
      | error e => exact announces_then (announces_unobserved _ _) fun _ _ => announces_pure _ _

theorem length_itemCalls : (st.itemCalls env item count s).length =
    if st.misses env item s && decide (count < MAX_REMOTE_PLACE_RESOLVES_PER_IMPORT_RUN)
    then 1 else 0 := by
  unfold itemCalls misses
  cases (parseSavedCollectionItem env.parser item).googlePlaceId with
  | none => rfl
  | some googlePlaceId =>
      show (st.placeCalls googlePlaceId count s).length =
        if st.unknown googlePlaceId s && _ then _ else _
      unfold placeCalls
      split <;> rfl

/-! ## What is charged -/

/-- Whatever the program answers is `n`. -/
def Counts (n : Nat) (p : Prog σ ε Failure Nat) : Prop :=
  ∀ s m, (p.run s).result = .ok m → m = n

theorem counts_pure (n : Nat) : Counts n (pure n : Prog σ ε Failure Nat) := by
  intro s m h
  rw [run_pure] at h
  exact (Except.ok.inj h).symm

theorem counts_bind {n : Nat} {p : Prog σ ε Failure α} {k : α → Prog σ ε Failure Nat}
    (hk : ∀ a, Counts n (k a)) : Counts n (p >>= k) := by
  intro s m h
  rw [result_bind] at h
  cases hresult : (p.run s).result with
  | error e =>
      rw [hresult] at h
      cases h
  | ok a =>
      rw [hresult] at h
      exact hk a _ m h

theorem unknown_iff {googlePlaceId : String} : st.unknown googlePlaceId s = true ↔
    ((st.getGooglePlace (normalizeGooglePlaceId googlePlaceId)).run s).result = .ok none := by
  constructor
  · intro h
    cases hresult : ((st.getGooglePlace (normalizeGooglePlaceId googlePlaceId)).run s).result with
    | error e =>
        rw [unknown_of_error hresult] at h
        cases h
    | ok found =>
        rw [unknown_eq hresult, Option.isNone_iff_eq_none] at h
        rw [h]
  · intro h
    exact unknown_eq h

/-- A place that is resolved, saved and recorded counts one. -/
theorem importPlace_remotely (parsed : ParsedGoogleSavedPlace) {googlePlaceId : String}
    (hunknown : st.unknown googlePlaceId s = true)
    (hcount : count < MAX_REMOTE_PLACE_RESOLVES_PER_IMPORT_RUN) :
    ((st.importPlace env userId importId parsed googlePlaceId count).run s).result =
      ((st.importRemotely env userId importId parsed googlePlaceId).run s).result.map fun _ => 1 := by
  have hget := unknown_iff.mp hunknown
  unfold importPlace findOrResolvePlace importRemotely
  rw [bind_bind, result_bind, result_bind, hget]
  simp only [Except.bind, if_neg (Nat.not_le.mpr hcount)]
  rw [bind_bind, result_bind, result_bind]
  generalize ((st.getGooglePlace _).run s).store = s'
  cases (st.resolve googlePlaceId).run s' with
  | mk t events resolved =>
      cases resolved with
      | error e => rfl
      | ok place =>
          show ((st.savePlace userId place GOOGLE_DATA_PORTABILITY_IMPORT_REASON >>= fun _ =>
              st.upsertItem (itemRow env importId parsed (some place) .high .matched) >>= fun _ =>
                pure 1).run t).result =
            ((st.savePlace userId place GOOGLE_DATA_PORTABILITY_IMPORT_REASON >>= fun _ =>
              st.upsertItem (itemRow env importId parsed (some place) .high .matched)).run
                t).result.map fun _ => 1
          rw [← bind_bind, result_bind]
          rfl

/-- A place that is stored counts nothing, and nor does one beyond the budget. -/
theorem importPlace_count (parsed : ParsedGoogleSavedPlace) {googlePlaceId : String} {n : Nat}
    (hnot : (st.unknown googlePlaceId s &&
      decide (count < MAX_REMOTE_PLACE_RESOLVES_PER_IMPORT_RUN)) = false)
    (h : ((st.importPlace env userId importId parsed googlePlaceId count).run s).result = .ok n) :
    n = 0 := by
  unfold importPlace findOrResolvePlace at h
  rw [bind_bind, result_bind] at h
  cases hresult : ((st.getGooglePlace (normalizeGooglePlaceId googlePlaceId)).run s).result with
  | error e =>
      rw [hresult] at h
      cases h
  | ok found =>
      rw [hresult] at h
      cases found with
      | some place =>
          exact counts_bind (fun _ => counts_bind fun _ => counts_pure 0) _ n h
      | none =>
          rw [unknown_eq hresult] at hnot
          have hcount : count ≥ MAX_REMOTE_PLACE_RESOLVES_PER_IMPORT_RUN := by
            simpa using hnot
          simp only [Except.bind, if_pos hcount] at h
          exact counts_bind (fun _ => counts_pure 0) _ n h

theorem misses_of_googlePlaceId {googlePlaceId : String}
    (hid : (parseSavedCollectionItem env.parser item).googlePlaceId = some googlePlaceId) :
    st.misses env item s = st.unknown googlePlaceId s := by
  rw [misses, hid, Option.any_some]

theorem succeeds_of_googlePlaceId {googlePlaceId : String}
    (hid : (parseSavedCollectionItem env.parser item).googlePlaceId = some googlePlaceId) :
    st.succeeds env userId importId item s = ((st.importRemotely env userId importId
      (parseSavedCollectionItem env.parser item) googlePlaceId).run s).result.isOk := by
  simp only [succeeds, hid, Option.any_some]

/-- The place is charged where it has been resolved, saved and recorded. -/
theorem processSavedCollectionItem_count {n : Nat}
    (h : ((st.processSavedCollectionItem env userId importId item count).run s).result = .ok n) :
    n = if st.misses env item s && decide (count < MAX_REMOTE_PLACE_RESOLVES_PER_IMPORT_RUN) &&
      st.succeeds env userId importId item s then 1 else 0 := by
  unfold processSavedCollectionItem at h
  dsimp only at h
  cases hid : (parseSavedCollectionItem env.parser item).googlePlaceId with
  | none =>
      have hmisses : st.misses env item s = false := by rw [misses, hid, Option.any_none]
      rw [hid] at h
      rw [hmisses]
      exact counts_bind (fun _ => counts_pure 0) _ n h
  | some googlePlaceId =>
      rw [misses_of_googlePlaceId hid, succeeds_of_googlePlaceId hid]
      rw [hid] at h
      dsimp only at h
      rw [run_bind_ok (by rw [run_attempt])] at h
      cases hunknown : st.unknown googlePlaceId s &&
          decide (count < MAX_REMOTE_PLACE_RESOLVES_PER_IMPORT_RUN) with
      | true =>
          rw [Bool.and_eq_true, decide_eq_true_eq] at hunknown
          rw [importPlace_remotely _ hunknown.1 hunknown.2] at h
          cases hremote : ((st.importRemotely env userId importId
              (parseSavedCollectionItem env.parser item) googlePlaceId).run s).result with
          | ok _ =>
              rw [hremote] at h
              exact (Except.ok.inj h).symm
          | error e =>
              rw [hremote] at h
              exact counts_bind (fun _ => counts_pure 0) _ n h
      | false =>
          rw [Bool.false_and]
          cases hresult : ((st.importPlace env userId importId
              (parseSavedCollectionItem env.parser item) googlePlaceId count).run s).result with
          | ok found =>
              rw [hresult] at h
              rw [← Except.ok.inj h]
              exact importPlace_count _ hunknown hresult
          | error e =>
              rw [hresult] at h
              exact counts_bind (fun _ => counts_pure 0) _ n h

/-! ## A run -/

variable (st env userId importId) in
/-- What comes of the items whose places are not stored, as the run reaches them. -/
def attempts : List GoogleSavedCollectionItem → Nat → σ → List Bool
  | [], _, _ => []
  | item :: items, count, s =>
      let answer := (st.processSavedCollectionItem env userId importId item count).run s
      let later :=
        match answer.result with
        | .ok n => attempts items (count + n) answer.store
        | .error _ => []
      if st.misses env item s then st.succeeds env userId importId item s :: later else later

/-- A run makes the calls that a budget allows that only successes reduce. -/
theorem length_processItems_calls (items : List GoogleSavedCollectionItem) :
    ∃ calls, Announces (st.announced.processItems env userId importId items count)
      (st.processItems env userId importId items count) s calls ∧
      calls.length = spent (MAX_REMOTE_PLACE_RESOLVES_PER_IMPORT_RUN - count)
        (st.attempts env userId importId items count s) := by
  induction items generalizing count s with
  | nil => exact ⟨[], announces_pure _ _, (spent_nil _).symm⟩
  | cons item items ih =>
      have hitem : Announces
          (st.announced.processSavedCollectionItem env userId importId item count)
          (st.processSavedCollectionItem env userId importId item count) s
          (st.itemCalls env item count s) := announces_processSavedCollectionItem
      have hspent := spent_step (st.misses env item s) (st.succeeds env userId importId item s)
        (MAX_REMOTE_PLACE_RESOLVES_PER_IMPORT_RUN - count)
      rw [show decide (0 < MAX_REMOTE_PLACE_RESOLVES_PER_IMPORT_RUN - count) =
        decide (count < MAX_REMOTE_PLACE_RESOLVES_PER_IMPORT_RUN) by
          simp only [Nat.sub_pos_iff_lt], ← length_itemCalls] at hspent
      unfold processItems attempts
      dsimp only
      rw [← hspent]
      cases hresult : ((st.processSavedCollectionItem env userId importId item count).run
          s).result with
      | error e =>
          refine ⟨_, announces_bind_error hitem hresult, ?_⟩
          rw [spent_nil, Nat.add_zero]
      | ok n =>
          obtain ⟨later, hlater, hlength⟩ := @ih
            ((st.processSavedCollectionItem env userId importId item count).run s).store (count + n)
          refine ⟨_, announces_bind_ok hitem hresult hlater, ?_⟩
          rw [List.length_append, hlength, ← Nat.sub_sub, processSavedCollectionItem_count hresult]

end item

section job

variable (st : JobStatements σ ε) (env : ImportsEnv ω)

/-- What a run does before its first item: the items it processes. -/
def source : ImportJob → Prog σ ε Failure (List GoogleSavedCollectionItem)
  | .processArchive userId importId => do
      let found ← st.ensureImportForUser userId importId
      let archiveUrls := normalizeArchiveUrls found.1.archiveUrls
      if archiveUrls.length = 0 then pure [] else st.archiveItems env archiveUrls
  | .ingestSaved payload => do
      let _ ← st.ensureImportForUser payload.userId payload.importId
      pure (payload.items.map (·.toItem))
  | .retry userId importId => do
      let _ ← st.ensureImportForUser userId importId
      let items ← st.listSavedCollectionItems importId
      pure (items.map (·.toItem))

/-- What comes of the items of a run whose places are not stored. -/
def attemptsFrom (userId importId : Id) (items : Prog σ ε Failure (List GoogleSavedCollectionItem))
    (s : σ) : List Bool :=
  match (items.run s).result with
  | .ok found => st.attempts env userId importId found 0 (items.run s).store
  | .error _ => []

def runAttempts (job : ImportJob) (s : σ) : List Bool :=
  match job with
  | .processArchive userId importId => st.attemptsFrom env userId importId (st.source env job) s
  | .ingestSaved payload => st.attemptsFrom env payload.userId payload.importId (st.source env job) s
  | .retry userId importId => st.attemptsFrom env userId importId (st.source env job) s

variable {st env} {userId importId : Id} {s : σ}
  {items : Prog σ ε Failure (List GoogleSavedCollectionItem)}

theorem attemptsFrom_bind_ok {p : Prog σ ε Failure α} {a : α}
    {k : α → Prog σ ε Failure (List GoogleSavedCollectionItem)} (h : (p.run s).result = .ok a) :
    st.attemptsFrom env userId importId (p >>= k) s =
      st.attemptsFrom env userId importId (k a) (p.run s).store := by
  unfold attemptsFrom
  rw [run_bind_ok h]

theorem attemptsFrom_bind_error {p : Prog σ ε Failure α} {e : Failure}
    {k : α → Prog σ ε Failure (List GoogleSavedCollectionItem)} (h : (p.run s).result = .error e) :
    st.attemptsFrom env userId importId (p >>= k) s = [] := by
  unfold attemptsFrom
  rw [run_bind_error h]

/-- A program that makes the calls that the budget allows for these attempts. -/
def Spends (p : Prog σ String Failure Unit) (p' : Prog σ ε Failure Unit) (s : σ)
    (attempts : List Bool) : Prop :=
  ∃ calls, Announces p p' s calls ∧
    calls.length = spent MAX_REMOTE_PLACE_RESOLVES_PER_IMPORT_RUN attempts

theorem spends_nothing {p : Prog σ String Failure Unit} {p' : Prog σ ε Failure Unit}
    (h : Announces p p' s []) : Spends p p' s [] := ⟨[], h, (spent_nil _).symm⟩

theorem Spends.completeOrFail {fallback : String} {p : Prog σ String Failure Unit}
    {p' : Prog σ ε Failure Unit} {attempts : List Bool} (h : Spends p p' s attempts) :
    Spends (st.announced.completeOrFail importId fallback p)
      (st.completeOrFail importId fallback p') s attempts := by
  obtain ⟨calls, hcalls, hlength⟩ := h
  refine ⟨calls, ?_, hlength⟩
  refine announces_then (announces_attempt (announces_then hcalls fun _ _ =>
    announces_unobserved _ _)) fun attempted _ => ?_
  cases attempted with
  | ok _ => exact announces_pure _ _
  | error e => exact announces_unobserved _ _

theorem spends_bind {p : Prog σ String Failure α} {p' : Prog σ ε Failure α}
    {k : α → Prog σ String Failure Unit} {k' : α → Prog σ ε Failure Unit}
    {items : α → Prog σ ε Failure (List GoogleSavedCollectionItem)} (h : Announces p p' s [])
    (hk : ∀ a t, Spends (k a) (k' a) t (st.attemptsFrom env userId importId (items a) t)) :
    Spends (p >>= k) (p' >>= k') s (st.attemptsFrom env userId importId (p' >>= items) s) := by
  cases hresult : (p'.run s).result with
  | error e =>
      rw [attemptsFrom_bind_error hresult]
      exact spends_nothing (announces_bind_error h hresult)
  | ok a =>
      obtain ⟨calls, hcalls, hlength⟩ := hk a (p'.run s).store
      rw [attemptsFrom_bind_ok hresult]
      exact ⟨calls, announces_bind_ok h hresult hcalls, hlength⟩

theorem spends_processItems (found : List GoogleSavedCollectionItem) (s : σ) :
    Spends (st.announced.processItems env userId importId found 0)
      (st.processItems env userId importId found 0) s
      (st.attempts env userId importId found 0 s) := length_processItems_calls found

theorem spends_runJob (job : ImportJob) (s : σ) :
    Spends (st.announced.runJob env job) (st.runJob env job) s (st.runAttempts env job s) := by
  cases job with
  | processArchive userId importId =>
      refine spends_bind (announces_unobserved _ _) fun found t => ?_
      dsimp only
      by_cases hurls : (normalizeArchiveUrls found.1.archiveUrls).length = 0
      · simp only [if_pos hurls]
        exact spends_nothing (announces_unobserved _ _)
      · simp only [if_neg hurls]
        refine Spends.completeOrFail ?_
        unfold archiveItems
        rw [bind_bind, bind_bind]
        exact spends_bind (announces_unobserved _ _) fun documents t => spends_processItems _ t
  | ingestSaved payload =>
      exact spends_bind (announces_unobserved _ _) fun _ t => (spends_processItems _ t).completeOrFail
  | retry userId importId =>
      refine spends_bind (announces_unobserved _ _) fun _ t => ?_
      refine spends_bind (announces_unobserved _ _) fun items t => ?_
      by_cases hitems : items.length = 0
      · simp only [if_pos hitems]
        have hnil := List.length_eq_zero_iff.mp hitems
        subst hnil
        exact spends_nothing (announces_unobserved _ _)
      · simp only [if_neg hitems]
        exact (spends_processItems _ t).completeOrFail

/-- Announcing its calls changes nothing about a job of the service. -/
theorem announced_runJob (env : ImportsEnv ω) (job : ImportJob) (s : ImportDb ω) :
    let announced := ((onStore env).announced.runJob env job).run s
    announced.store = ((Imports.runJob env job).run s).store ∧
      announced.result = ((Imports.runJob env job).run s).result := by
  obtain ⟨calls, hcalls, -⟩ := @spends_runJob _ _ _ (onStore env) env job s
  unfold Announces at hcalls
  rw [runJob_onStore] at hcalls
  rw [hcalls]
  exact ⟨rfl, rfl⟩

/-- A run stays within the budget when no more than twenty-five of its items have
a place that is not stored, or when the first twenty-five of them all succeed. -/
theorem resolves_within_budget_iff (st : JobStatements σ ε) (env : ImportsEnv ω) (job : ImportJob)
    (s : σ) :
    ((st.announced.runJob env job).run s).events.length ≤ MAX_REMOTE_PLACE_RESOLVES_PER_IMPORT_RUN ↔
      (st.runAttempts env job s).length ≤ MAX_REMOTE_PLACE_RESOLVES_PER_IMPORT_RUN ∨
        ∀ succeeded ∈ (st.runAttempts env job s).take MAX_REMOTE_PLACE_RESOLVES_PER_IMPORT_RUN,
          succeeded = true := by
  obtain ⟨calls, hcalls, hlength⟩ := @spends_runJob _ _ _ st env job s
  have hevents : ((st.announced.runJob env job).run s).events = calls := by
    rw [hcalls]
  rw [hevents, hlength]
  exact spent_le_iff MAX_REMOTE_PLACE_RESOLVES_PER_IMPORT_RUN (st.runAttempts env job s)

/-! ## Twenty-six places nobody knows -/

/-- A place for each letter. -/
def placesByLetter : List IngestJobItem :=
  "abcdefghijklmnopqrstuvwxyz".toList.map fun letter =>
    { sourceKey := String.ofList [letter]
      title := none
      url := none
      rawPayload := some [("place", .string ("ChIJN1t_tDeuEm" ++ String.ofList [letter]))] }

/-- Every call fails, and none of them counts. -/
theorem places_by_letter_exceed_the_budget :
    let job := ImportJob.ingestSaved { userId := "ana", importId := "import", items := placesByLetter }
    ¬ (((onStore anImportsEnv).announced.runJob anImportsEnv job).run
      (anImportOf fetchingImport)).events.length ≤ MAX_REMOTE_PLACE_RESOLVES_PER_IMPORT_RUN := by
  decide +kernel

end job

end JobStatements

end Feca.Imports
