import Feca.Content.DiaryVisibility
import Feca.Content.FeedPaging
import Feca.Push.Publish

/-! # Publishing a diary

`SocialDiariesService.createDiary` and `updateDiary`. A diary has a visibility
and a date of publication, which the two derive each in its own way.
-/

namespace Feca.Content

open Concurrency Concurrency.Prog Relational Social

inductive DiaryEvent
  | published (input : Push.PublishNotificationInput)

abbrev DiaryProg := Prog ContentDb DiaryEvent Failure

/-- The clock of a call, the id it generates and its runtime's dates. -/
structure DiaryWriteEnv extends ContentEnv where
  diaryId : Id
  /-- `new Date(text)`; none is an invalid date. -/
  parseDate : String → Option Date
  parseDate_empty : parseDate "" = none
  parseDate_toISOString : parseDate (toISOString now) = some now

structure CreateDiaryDto where
  name : String
  description : Option String := none
  intro : Option String := none
  editorialReason : Option String := none
  coverImageUrl : Option String := none
  visibility : Option GuideVisibility := none
  publishedAt : Option String := none
  deriving DecidableEq, Repr

/-- A visibility may be `null`: the validation of an optional field lets it pass. -/
structure UpdateDiaryDto where
  name : Option String := none
  description : Option String := none
  intro : Option String := none
  editorialReason : Option String := none
  coverImageUrl : Option String := none
  visibility : Option (Option GuideVisibility) := none
  publishedAt : Option String := none
  deriving DecidableEq, Repr

/-! ## The date of publication -/

def resolveDiaryPublishedAt (env : DiaryWriteEnv) (body : CreateDiaryDto) : Option String :=
  match body.publishedAt.bind orNull with
  | some publishedAt => some publishedAt
  | none =>
      if body.visibility.any (· != .«private») then some (env.toISOString env.now) else none

/-- Null, or a date, which may be invalid. -/
def resolveDiaryPublishedAtOnUpdate (env : DiaryWriteEnv) (diary : Diary) (body : UpdateDiaryDto) :
    Option (Option Date) :=
  let nextVisibility := body.visibility.getD (some diary.visibility)
  if nextVisibility = some .«private» then none
  else
    match body.publishedAt.bind orNull with
    | some publishedAt => some (env.parseDate publishedAt)
    | none =>
        match diary.publishedAt with
        | some publishedAt => some (some publishedAt)
        | none => some (some env.now)

/-! ## Statements -/

/-- What the database client answers to a value it cannot write. -/
def invalidArgument (name : String) : Thrown := .error ("Invalid value for argument: " ++ name)

namespace ContentDb

/-- `diary.create`. -/
def insertDiary (s : ContentDb) (d : Diary) : Except Thrown ContentDb :=
  if huser : ∃ u ∈ s.users.rows, u.id = d.createdById then
    match h : s.diaries.insert d with
    | none => .error uniqueViolation
    | some diaries => .ok
        { s with
          diaries
          diary_creator := by
            intro e he
            rw [(Table.insert_eq_some h).1] at he
            rcases List.mem_append.mp he with he | he
            · exact s.diary_creator e he
            · rw [List.mem_singleton.mp he]
              exact huser
          entry_diary := by
            intro e he
            obtain ⟨x, hx, hid⟩ := s.entry_diary e he
            rw [(Table.insert_eq_some h).1]
            exact ⟨x, List.mem_append_left _ hx, hid⟩ }
  else .error foreignKeyViolation

theorem insertDiary_ok {s t : ContentDb} {d : Diary} (h : s.insertDiary d = .ok t) :
    t.diaries.rows = s.diaries.rows ++ [d] := by
  unfold insertDiary at h
  split at h
  · split at h
    · cases h
    · rename_i hinsert
      cases h
      exact (Table.insert_eq_some hinsert).1
  · cases h

end ContentDb

/-- `Prisma.DiaryUpdateInput`: what is not given keeps its value. -/
structure DiaryData where
  name : Option String
  description : Option (Option String)
  intro : Option (Option String)
  editorialReason : Option (Option String)
  coverImageUrl : Option (Option String)
  visibility : Option GuideVisibility
  publishedAt : Option Date

def Diary.set (d : Diary) (data : DiaryData) : Diary :=
  { d with
    name := data.name.getD d.name
    description := data.description.getD d.description
    intro := data.intro.getD d.intro
    editorialReason := data.editorialReason.getD d.editorialReason
    coverImageUrl := data.coverImageUrl.getD d.coverImageUrl
    visibility := data.visibility.getD d.visibility
    publishedAt := data.publishedAt }

/-- `diary.update` by id. -/
def ContentDb.setDiary (s : ContentDb) (id : Id) (data : DiaryData) : ContentDb :=
  { s with
    diaries := s.diaries.update (·.id == id) (·.set data) fun _ _ => rfl
    diary_creator := by
      intro d hd
      obtain ⟨e, he, rfl⟩ := Table.mem_update.mp hd
      split
      · exact s.diary_creator e he
      · exact s.diary_creator e he
    entry_diary := by
      intro e he
      obtain ⟨d, hd, hid⟩ := s.entry_diary e he
      refine ⟨_, Table.mem_update.mpr ⟨d, hd, rfl⟩, ?_⟩
      split
      · exact hid
      · exact hid }

/-! ## createDiary -/

structure CreateDiaryInput where
  coverImageUrl : Option String
  createdById : Id
  description : Option String
  editorialReason : Option String
  intro : Option String
  name : String
  publishedAt : Option String
  visibility : Option GuideVisibility

/-- `text?.trim() || undefined`. -/
def trimmed (text : Option String) : Option String := (text.map trim).bind orNull

def CreateDiaryDto.input (env : DiaryWriteEnv) (userId : Id) (body : CreateDiaryDto) :
    CreateDiaryInput where
  coverImageUrl := trimmed body.coverImageUrl
  createdById := userId
  description := trimmed body.description
  editorialReason := trimmed body.editorialReason
  intro := trimmed body.intro
  name := trim body.name
  publishedAt := resolveDiaryPublishedAt env body
  visibility := body.visibility

/-- `input.publishedAt ? new Date(input.publishedAt) : null`. -/
def CreateDiaryInput.date (env : DiaryWriteEnv) (input : CreateDiaryInput) : Option (Option Date) :=
  (input.publishedAt.bind orNull).map env.parseDate

def CreateDiaryInput.row (env : DiaryWriteEnv) (input : CreateDiaryInput)
    (publishedAt : Option Date) : Diary where
  id := env.diaryId
  name := input.name
  description := input.description
  createdById := input.createdById
  intro := input.intro
  editorialReason := input.editorialReason
  coverImageUrl := input.coverImageUrl
  visibility := input.visibility.getD .«private»
  publishedAt := publishedAt
  createdAt := env.now

/-- A diary as a write returns it; its creator is there. -/
def returning (s : ContentDb) (d : Diary) : Answer ContentDb DiaryEvent Failure DiaryWithRelations :=
  match s.diaryWithRelations d with
  | some diary => ⟨s, [], .ok diary⟩
  | none => ⟨s, [], .error (.database recordNotFound)⟩

/-- `diary.create`, with a date that is null or valid. -/
def insertRow (env : DiaryWriteEnv) (input : CreateDiaryInput) (publishedAt : Option Date) :
    DiaryProg DiaryWithRelations :=
  stmt fun s =>
    match s.insertDiary (input.row env publishedAt) with
    | .error e => ⟨s, [], .error (.database e)⟩
    | .ok t => returning t (input.row env publishedAt)

def createDiaryRow (env : DiaryWriteEnv) (input : CreateDiaryInput) :
    DiaryProg DiaryWithRelations :=
  match input.date env with
  | none => insertRow env input none
  | some (some publishedAt) => insertRow env input (some publishedAt)
  | some none => .fail (.database (invalidArgument "publishedAt"))

def listFollowerIds (s : ContentDb) (userId : Id) : List Id :=
  (s.follows.rows.filter (·.followedId == userId)).map (·.followerId)

/-- The notification of both calls. -/
def announceDiary (userId : Id) (diary : DiaryWithRelations) : DiaryProg Unit :=
  stmt fun s =>
    ⟨s, [.published
      { actorId := some userId
        entity := some { id := diary.id, kind := .diary }
        payload := some [("diaryId", some (.string diary.id)),
          ("diaryName", some (.string diary.name))]
        recipientIds := listFollowerIds s userId
        type := .diaryPublished }], .ok ()⟩

def createDiary (env : DiaryWriteEnv) (userId : Id) (body : CreateDiaryDto) :
    DiaryProg DiaryView := do
  let diary ← createDiaryRow env (body.input env userId)
  if diary.visibility = .«public» ∧ diary.publishedAt.isSome then announceDiary userId diary
  pure (serializeDiary env.toContentEnv diary)

/-! ## updateDiary -/

structure DiaryUpdateInput where
  name : Option String
  description : Option (Option String)
  intro : Option (Option String)
  editorialReason : Option (Option String)
  coverImageUrl : Option (Option String)
  visibility : Option (Option GuideVisibility)
  publishedAt : Option (Option Date)

/-- `text.trim() || null`. -/
def trimmedOrNull (text : String) : Option String := orNull (trim text)

def UpdateDiaryDto.input (env : DiaryWriteEnv) (diary : Diary) (body : UpdateDiaryDto) :
    DiaryUpdateInput where
  name := body.name.map trim
  description := body.description.map trimmedOrNull
  intro := body.intro.map trimmedOrNull
  editorialReason := body.editorialReason.map trimmedOrNull
  coverImageUrl := body.coverImageUrl.map trimmedOrNull
  visibility := body.visibility
  publishedAt := resolveDiaryPublishedAtOnUpdate env diary body

/-- What is written, unless the client turns an argument down: a visibility that
is null, or an invalid date. -/
def DiaryUpdateInput.data (input : DiaryUpdateInput) : Except Thrown DiaryData :=
  if input.visibility = some none then .error (invalidArgument "visibility")
  else if input.publishedAt = some none then .error (invalidArgument "publishedAt")
  else .ok
    { name := input.name
      description := input.description
      intro := input.intro
      editorialReason := input.editorialReason
      coverImageUrl := input.coverImageUrl
      visibility := input.visibility.join
      publishedAt := input.publishedAt.join }

def patchDiary (diaryId : Id) (input : DiaryUpdateInput) : DiaryProg DiaryWithRelations :=
  stmt fun s =>
    match input.data with
    | .error e => ⟨s, [], .error (.database e)⟩
    | .ok data =>
        match s.diaries.rows.find? (·.id == diaryId) with
        | none => ⟨s, [], .error (.database recordNotFound)⟩
        | some d => returning (s.setDiary diaryId data) (d.set data)

def updateDiary (env : DiaryWriteEnv) (userId diaryId : Id) (body : UpdateDiaryDto) :
    DiaryProg DiaryView := do
  match ← query fun s => s.findDiaryById diaryId with
  | none => .fail (.http (NotFoundException "Diary not found"))
  | some diary =>
      if diary.createdById ≠ userId then
        .fail (.http (ForbiddenException none "You cannot edit this diary"))
      else do
        let mergedVisibility := body.visibility.getD (some diary.visibility)
        let nextPublishedAt := resolveDiaryPublishedAtOnUpdate env diary.toDiary body
        let wasPublicLive := diary.visibility = .«public» ∧ diary.publishedAt.isSome
        let isPublicLive := mergedVisibility = some .«public» ∧ nextPublishedAt.isSome
        let updated ← patchDiary diaryId (body.input env diary.toDiary)
        if ¬ wasPublicLive ∧ isPublicLive then announceDiary userId updated
        pure (serializeDiary env.toContentEnv updated)

/-! ## Visibility and date -/

/-- A diary has a date of publication unless it is private. -/
def Diary.Consistent (d : Diary) : Prop := d.visibility = .«private» ↔ d.publishedAt = none

def ContentDb.Consistent (s : ContentDb) : Prop := ∀ d ∈ s.diaries.rows, d.Consistent

/-- A date that is given comes with a visibility that calls for one. -/
def CreateDiaryDto.Consistent (env : DiaryWriteEnv) (body : CreateDiaryDto) : Prop :=
  ∀ text date, body.publishedAt.bind orNull = some text → env.parseDate text = some date →
    body.visibility.any (· != .«private») = true

theorem ContentDb.findDiaryById_row {s : ContentDb} {diaryId : Id} {diary : DiaryWithRelations}
    (h : s.findDiaryById diaryId = some diary) :
    s.diaries.rows.find? (·.id == diaryId) = some diary.toDiary := by
  unfold ContentDb.findDiaryById at h
  obtain ⟨d, hd, hrelations⟩ := Option.bind_eq_some_iff.mp h
  unfold ContentDb.diaryWithRelations at hrelations
  obtain ⟨user, _, rfl⟩ := Option.map_eq_some_iff.mp hrelations
  exact hd

theorem toISOString_now (env : DiaryWriteEnv) :
    orNull (env.toISOString env.now) = some (env.toISOString env.now) := by
  by_cases hempty : env.toISOString env.now = ""
  · have hnow := env.parseDate_toISOString
    rw [hempty, env.parseDate_empty] at hnow
    cases hnow
  · exact if_neg hempty

theorem any_not_private {visibility : Option GuideVisibility} :
    visibility.any (· != .«private») = true ↔ visibility.getD .«private» ≠ .«private» := by
  cases visibility with
  | none => simp
  | some v => simp

section create

variable {env : DiaryWriteEnv} {body : CreateDiaryDto}

/-- Whatever date a consistent body leads to, the row is consistent. -/
theorem consistent_row (hbody : body.Consistent env) (userId : Id) {publishedAt : Option Date}
    (hdate : (body.input env userId).date env = publishedAt.map some) :
    ((body.input env userId).row env publishedAt).Consistent := by
  show body.visibility.getD .«private» = .«private» ↔ publishedAt = none
  unfold CreateDiaryInput.date CreateDiaryDto.input resolveDiaryPublishedAt at hdate
  cases hgiven : body.publishedAt.bind orNull with
  | some text =>
      have hnonempty : orNull text = some text := by
        have hbind := hgiven
        rw [eq_some_of_bind_orNull hgiven, Option.bind_some] at hbind
        exact hbind
      simp only [hgiven, Option.bind_some, hnonempty, Option.map_some] at hdate
      cases publishedAt with
      | none => cases hdate
      | some date =>
          have hne := any_not_private.mp (hbody text date hgiven (Option.some.inj hdate))
          exact iff_of_false hne (by simp)
  | none =>
      simp only [hgiven] at hdate
      by_cases hany : body.visibility.any (· != .«private») = true
      · rw [if_pos hany, Option.bind_some, toISOString_now, Option.map_some,
          env.parseDate_toISOString] at hdate
        cases publishedAt with
        | none => cases hdate
        | some date => exact iff_of_false (any_not_private.mp hany) (by simp)
      · rw [if_neg hany] at hdate
        cases publishedAt with
        | none => exact iff_of_true (not_not.mp fun hne => hany (any_not_private.mpr hne)) rfl
        | some date => cases hdate

theorem returning_store (s : ContentDb) (d : Diary) : (returning s d).store = s := by
  unfold returning
  cases s.diaryWithRelations d with
  | none => rfl
  | some diary => rfl

theorem consistent_insertRow {s : ContentDb} (hs : s.Consistent) {input : CreateDiaryInput}
    {publishedAt : Option Date} (hrow : (input.row env publishedAt).Consistent) :
    ((insertRow env input publishedAt).run s).store.Consistent := by
  unfold insertRow
  rw [run_stmt]
  cases hinsert : s.insertDiary (input.row env publishedAt) with
  | error e => exact hs
  | ok t =>
      dsimp only
      rw [returning_store]
      intro d hd
      rw [ContentDb.insertDiary_ok hinsert] at hd
      rcases List.mem_append.mp hd with hd | hd
      · exact hs d hd
      · rw [List.mem_singleton.mp hd]
        exact hrow

theorem announceDiary_store (userId : Id) (diary : DiaryWithRelations) (s : ContentDb) :
    ((announceDiary userId diary).run s).store = s := by
  unfold announceDiary
  rw [run_stmt]

theorem consistent_createDiary {s : ContentDb} (hs : s.Consistent) (hbody : body.Consistent env)
    (userId : Id) : ((createDiary env userId body).run s).store.Consistent := by
  have hrow : ((createDiaryRow env (body.input env userId)).run s).store.Consistent := by
    unfold createDiaryRow
    split
    · rename_i hdate
      exact consistent_insertRow hs (consistent_row hbody userId hdate)
    · rename_i publishedAt hdate
      exact consistent_insertRow hs (consistent_row hbody userId hdate)
    · exact hs
  unfold createDiary
  apply store_bind hrow
  intro diary _
  split
  · apply store_bind
    · rw [announceDiary_store]
      exact hrow
    · intro _ _
      show ContentDb.Consistent _
      rw [announceDiary_store]
      exact hrow
  · exact hrow

end create

section update

variable {env : DiaryWriteEnv} {body : UpdateDiaryDto}

/-- The visibility written and the date written come from one test. -/
theorem consistent_set {d : Diary} {data : DiaryData}
    (hdata : (body.input env d).data = .ok data) : (d.set data).Consistent := by
  unfold DiaryUpdateInput.data at hdata
  by_cases hnull : (body.input env d).visibility = some none
  · rw [if_pos hnull] at hdata
    cases hdata
  rw [if_neg hnull] at hdata
  by_cases hinvalid : (body.input env d).publishedAt = some none
  · rw [if_pos hinvalid] at hdata
    cases hdata
  rw [if_neg hinvalid] at hdata
  have hdata := Except.ok.inj hdata
  have hvisibility : body.visibility.getD (some d.visibility) =
      some (body.visibility.join.getD d.visibility) := by
    cases hgiven : body.visibility with
    | none => rfl
    | some given =>
        cases given with
        | none => exact absurd hgiven hnull
        | some v => rfl
  subst hdata
  show body.visibility.join.getD d.visibility = .«private» ↔
    (resolveDiaryPublishedAtOnUpdate env d body).join = none
  have hdate : resolveDiaryPublishedAtOnUpdate env d body ≠ some none := hinvalid
  unfold resolveDiaryPublishedAtOnUpdate at hdate ⊢
  dsimp only at hdate ⊢
  rw [hvisibility] at hdate ⊢
  by_cases hprivate : body.visibility.join.getD d.visibility = .«private»
  · rw [hprivate, if_pos rfl]
    exact iff_of_true rfl rfl
  · have hne : some (body.visibility.join.getD d.visibility) ≠ some .«private» :=
      fun h => hprivate (Option.some.inj h)
    rw [if_neg hne] at hdate ⊢
    apply iff_of_false hprivate
    cases hgiven : body.publishedAt.bind orNull with
    | none => cases d.publishedAt <;> simp
    | some text =>
        rw [hgiven] at hdate
        cases hparsed : env.parseDate text with
        | none => exact absurd (congrArg some hparsed) hdate
        | some date => simp [hparsed]

theorem ContentDb.mem_setDiary {s : ContentDb} {id : Id} {data : DiaryData} {d : Diary}
    (h : d ∈ (s.setDiary id data).diaries.rows) :
    d ∈ s.diaries.rows ∨ ∃ e ∈ s.diaries.rows, e.id = id ∧ d = e.set data := by
  have h : d ∈ s.diaries.rows.map fun e => if e.id == id then e.set data else e := h
  obtain ⟨e, he, rfl⟩ := List.mem_map.mp h
  by_cases hid : (e.id == id) = true
  · rw [if_pos hid]
    exact .inr ⟨e, he, beq_iff_eq.mp hid, rfl⟩
  · rw [if_neg hid]
    exact .inl he

/-- The row that is written is the one the date was derived from. -/
theorem consistent_patchDiary {s : ContentDb} (hs : s.Consistent) {diaryId : Id}
    {diary : DiaryWithRelations} (hfound : s.findDiaryById diaryId = some diary) :
    ((patchDiary diaryId (body.input env diary.toDiary)).run s).store.Consistent := by
  unfold patchDiary
  rw [run_stmt]
  cases hdata : (body.input env diary.toDiary).data with
  | error e => exact hs
  | ok data =>
      have hstored := ContentDb.findDiaryById_row hfound
      rw [hstored]
      dsimp only
      rw [returning_store]
      intro d hd
      rcases ContentDb.mem_setDiary hd with hd | ⟨e, he, hid, rfl⟩
      · exact hs d hd
      · have hrow : e = diary.toDiary := Table.eq_of_conflicts he
          (List.mem_of_find?_eq_some hstored) (by
            have hdiary : diary.id = diaryId := by simpa using List.find?_some hstored
            simp [conflicts, hid, hdiary])
        rw [hrow]
        exact consistent_set hdata

theorem consistent_updateDiary {s : ContentDb} (hs : s.Consistent) (userId diaryId : Id) :
    ((updateDiary env userId diaryId body).run s).store.Consistent := by
  unfold updateDiary
  apply store_bind
  · rw [run_query]
    exact hs
  · intro found hfound
    rw [run_query] at hfound ⊢
    have hfound : s.findDiaryById diaryId = found := Except.ok.inj hfound
    cases found with
    | none => exact hs
    | some diary =>
        dsimp only
        by_cases howner : diary.createdById ≠ userId
        · rw [if_pos howner]
          exact hs
        · rw [if_neg howner]
          have hpatch : ((patchDiary diaryId (body.input env diary.toDiary)).run s).store.Consistent :=
            consistent_patchDiary hs hfound
          apply store_bind hpatch
          intro updated _
          split
          · apply store_bind
            · rw [announceDiary_store]
              exact hpatch
            · intro _ _
              show ContentDb.Consistent _
              rw [announceDiary_store]
              exact hpatch
          · exact hpatch

end update

/-! ## Runs -/

inductive DiaryCall
  | create (env : DiaryWriteEnv) (userId : Id) (body : CreateDiaryDto)
  | update (env : DiaryWriteEnv) (userId diaryId : Id) (body : UpdateDiaryDto)

def DiaryCall.program : DiaryCall → DiaryProg DiaryView
  | .create env userId body => createDiary env userId body
  | .update env userId diaryId body => updateDiary env userId diaryId body

def DiaryCall.Consistent : DiaryCall → Prop
  | .create env _ body => body.Consistent env
  | .update _ _ _ _ => True

def served (s : ContentDb) (calls : List DiaryCall) : ContentDb :=
  calls.foldl (fun s call => (call.program.run s).store) s

theorem consistent_call {s : ContentDb} (hs : s.Consistent) {call : DiaryCall}
    (hcall : call.Consistent) : (call.program.run s).store.Consistent := by
  cases call with
  | create env userId body => exact consistent_createDiary hs hcall userId
  | update env userId diaryId body => exact consistent_updateDiary hs userId diaryId

/-- Every diary of every state of a run is dated exactly when it is not private,
as long as no creation gives a date to a diary that it leaves private. -/
theorem published_iff_not_private {s : ContentDb} (hs : s.Consistent) {calls : List DiaryCall}
    (hcalls : ∀ call ∈ calls, call.Consistent) :
    ∀ prior, prior <+: calls → (served s prior).Consistent := by
  intro prior hprior
  have hcalls : ∀ call ∈ prior, call.Consistent := fun call h => hcalls call (hprior.subset h)
  clear hprior
  induction prior generalizing s with
  | nil => exact hs
  | cons call rest ih =>
      have hstep := consistent_call hs (hcalls call List.mem_cons_self)
      exact ih hstep fun call h => hcalls call (List.mem_cons_of_mem _ h)

def aDiaryWriteEnv : DiaryWriteEnv :=
  { aContentEnv with
    diaryId := "d1"
    parseDate := fun text =>
      if text = "1970-01-01T00:00:00.000Z" then some 0
      else if text = "2026-04-07T12:00:00.000Z" then some 1775563200000
      else none
    parseDate_empty := by decide
    parseDate_toISOString := rfl }

/-- Ana and beto, before the first diary. -/
def noDiaries : ContentDb :=
  ContentDb.ofSocial (.ofUsers anaAndBeto .empty .empty .empty (.singleton aBar)) {}
    (by decide) (by
      intro p hp q hq
      rw [List.mem_singleton.mp hp, List.mem_singleton.mp hq])

/-- A public diary gets the date of its creation and loses it when it turns private. -/
theorem published_then_private :
    (∀ call ∈ [DiaryCall.create aDiaryWriteEnv "ana" { name := "bares", visibility := some .«public» },
        .update aDiaryWriteEnv "ana" "d1" { visibility := some (some .«private») }],
      call.Consistent) ∧
    ∀ prior, prior <+: [DiaryCall.create aDiaryWriteEnv "ana"
        { name := "bares", visibility := some .«public» },
      .update aDiaryWriteEnv "ana" "d1" { visibility := some (some .«private») }] →
      (served noDiaries prior).Consistent := by
  have hcalls : ∀ call ∈ [DiaryCall.create aDiaryWriteEnv "ana"
        { name := "bares", visibility := some .«public» },
      .update aDiaryWriteEnv "ana" "d1" { visibility := some (some .«private») }],
      call.Consistent := by
    intro call hcall
    rcases List.mem_pair.mp hcall with rfl | rfl
    · intro text date hgiven
      cases hgiven
    · exact trivial
  refine ⟨hcalls, published_iff_not_private ?_ hcalls⟩
  intro d hd
  cases hd

/-- A date without a visibility: the diary is private and has a date. -/
theorem private_with_a_date :
    ¬ (served noDiaries [.create aDiaryWriteEnv "ana"
      { name := "bares", publishedAt := some "2026-04-07T12:00:00.000Z" }]).Consistent := by
  intro hconsistent
  have hrow : ∃ d ∈ (served noDiaries [.create aDiaryWriteEnv "ana"
      { name := "bares", publishedAt := some "2026-04-07T12:00:00.000Z" }]).diaries.rows,
      d.visibility = .«private» ∧ d.publishedAt = some 1775563200000 := by decide
  obtain ⟨d, hd, hprivate, hdate⟩ := hrow
  have hnone := (hconsistent d hd).mp hprivate
  rw [hdate] at hnone
  cases hnone

end Feca.Content
