import Feca.Content.Diaries

/-! # Positions in a diary

`SocialDiariesRepository.addPlaceToDiary` reads the entry of the place, and where
there is none the last position of the diary, before it writes. Other calls may
write in between: a transaction sees whatever is committed.
-/

namespace Feca.Content

open Concurrency Concurrency.Prog Relational Social

/-- The arguments of a call; a position that is given is taken as it is. -/
structure AddDiaryPlaceInput where
  diaryId : Id
  placeId : Id
  note : Option String := none
  position : Option Int := none
  deriving DecidableEq, Repr

/-- The clock of a call and the id of the entry it may create. -/
structure DiaryEntryEnv where
  now : Date
  entryId : Id

/-- What a call comes to its write with: its arguments, and what it has read. -/
structure DiaryEntryWrite where
  input : AddDiaryPlaceInput
  existing : Option DiaryPlace
  maximum : Option Int
  deriving DecidableEq, Repr

def DiaryEntryWrite.nextPosition (write : DiaryEntryWrite) : Int :=
  match write.input.position, write.existing with
  | some position, _ => position
  | none, some existing => existing.position
  | none, none => write.maximum.getD (-1) + 1

def DiaryEntryWrite.update (write : DiaryEntryWrite) (entry : DiaryPlace) : DiaryPlace :=
  { entry with
    note := write.input.note.or (write.existing.bind (·.note))
    position := write.nextPosition }

def DiaryEntryWrite.create (write : DiaryEntryWrite) (env : DiaryEntryEnv) : DiaryPlace where
  id := env.entryId
  diaryId := write.input.diaryId
  placeId := write.input.placeId
  position := write.nextPosition
  note := write.input.note
  createdAt := env.now

/-- `where: { diaryId_placeId: … }`. -/
def AddDiaryPlaceInput.names (input : AddDiaryPlaceInput) (entry : DiaryPlace) : Bool :=
  entry.diaryId == input.diaryId && entry.placeId == input.placeId

namespace ContentDb

variable (s : ContentDb)

/-- `diaryPlace.findUnique`. -/
def findEntry (input : AddDiaryPlaceInput) : Option DiaryPlace :=
  s.diaryPlaces.rows.find? input.names

/-- `diaryPlace.aggregate` with `_max: { position: true }`. -/
def maxPosition (diaryId : Id) : Option Int :=
  ((s.diaryPlaces.rows.filter (·.diaryId == diaryId)).map (·.position)).max?

/-- `diaryPlace.upsert`, committed with the transaction it ends. -/
def upsertEntry (env : DiaryEntryEnv) (write : DiaryEntryWrite) : Except Thrown ContentDb :=
  match s.findEntry write.input with
  | some _ => .ok
      { s with
        diaryPlaces := s.diaryPlaces.update write.input.names write.update
        entry_diary := by
          intro e he
          obtain ⟨x, hx, rfl⟩ := Table.mem_update.mp he
          split
          · exact s.entry_diary x hx
          · exact s.entry_diary x hx }
  | none =>
      if hdiary : ∃ d ∈ s.diaries.rows, d.id = write.input.diaryId then
        if s.hasPlace write.input.placeId then
          match h : s.diaryPlaces.insert (write.create env) with
          | none => .error uniqueViolation
          | some diaryPlaces => .ok
              { s with
                diaryPlaces
                entry_diary := by
                  intro e he
                  rw [(Table.insert_eq_some h).1] at he
                  rcases List.mem_append.mp he with he | he
                  · exact s.entry_diary e he
                  · rw [List.mem_singleton.mp he]
                    exact hdiary }
        else .error foreignKeyViolation
      else .error foreignKeyViolation

end ContentDb

/-- A call shows what it writes with. -/
abbrev DiaryEntryProg := Prog ContentDb DiaryEntryWrite Failure

def upsertDiaryPlace (env : DiaryEntryEnv) (write : DiaryEntryWrite) : DiaryEntryProg Unit :=
  stmt fun s =>
    match s.upsertEntry env write with
    | .ok t => ⟨t, [write], .ok ()⟩
    | .error e => ⟨s, [write], .error (.database e)⟩

/-- The last position, where neither the arguments nor an entry has one. -/
def readMaximum (input : AddDiaryPlaceInput) (existing : Option DiaryPlace) :
    DiaryEntryProg (Option Int) :=
  match input.position, existing with
  | none, none => query (·.maxPosition input.diaryId)
  | _, _ => pure none

def addPlaceToDiary (env : DiaryEntryEnv) (input : AddDiaryPlaceInput) :
    DiaryEntryProg (Option DiaryWithRelations) := do
  let existing ← query (·.findEntry input)
  let maximum ← readMaximum input existing
  upsertDiaryPlace env { input, existing, maximum }
  query (·.findDiaryById input.diaryId)

/-! ## One write -/

/-- No two entries of a diary have one position. -/
def DistinctPositions (s : ContentDb) : Prop :=
  ∀ a ∈ s.diaryPlaces.rows, ∀ b ∈ s.diaryPlaces.rows,
    a.diaryId = b.diaryId → a.position = b.position → a = b

/-- The write finds the entry of its place as the call has read it, but for a note it
brings itself; and where there was none, the last position of the diary. -/
def DiaryEntryWrite.AsRead (write : DiaryEntryWrite) (s : ContentDb) : Prop :=
  match write.existing with
  | some existing => ∃ entry ∈ s.findEntry write.input,
      entry.position = existing.position ∧ (write.input.note = none → entry.note = existing.note)
  | none => s.findEntry write.input = none ∧ s.maxPosition write.input.diaryId = write.maximum

/-- Every entry is still there with its position, and with its note unless one of the
calls brings another. -/
def EntriesKept (inputs : List AddDiaryPlaceInput) (s t : ContentDb) : Prop :=
  ∀ entry ∈ s.diaryPlaces.rows, ∃ later ∈ t.diaryPlaces.rows,
    (later.id, later.diaryId, later.placeId) = (entry.id, entry.diaryId, entry.placeId) ∧
      later.position = entry.position ∧
      ((∀ input ∈ inputs, input.names entry = true → input.note = none) → later.note = entry.note)

instance (write : DiaryEntryWrite) (s : ContentDb) : Decidable (write.AsRead s) := by
  unfold DiaryEntryWrite.AsRead
  split <;> infer_instance

section write

variable {env : DiaryEntryEnv} {write : DiaryEntryWrite} {s t u : ContentDb}

theorem names_congr {input : AddDiaryPlaceInput} {a b : DiaryPlace}
    (h : (a.id, a.diaryId, a.placeId) = (b.id, b.diaryId, b.placeId)) :
    input.names a = input.names b := by
  obtain ⟨-, h⟩ := Prod.ext_iff.mp h
  obtain ⟨hdiary, hplace⟩ := Prod.ext_iff.mp h
  rw [AddDiaryPlaceInput.names, AddDiaryPlaceInput.names, show a.diaryId = b.diaryId from hdiary,
    show a.placeId = b.placeId from hplace]

theorem EntriesKept.of_eq (h : t.diaryPlaces = s.diaryPlaces) (inputs : List AddDiaryPlaceInput) :
    EntriesKept inputs s t := by
  intro entry hentry
  exact ⟨entry, h ▸ hentry, rfl, rfl, fun _ => rfl⟩

theorem EntriesKept.trans {xs ys : List AddDiaryPlaceInput} (hst : EntriesKept xs s t)
    (htu : EntriesKept ys t u) : EntriesKept (xs ++ ys) s u := by
  intro entry hentry
  obtain ⟨later, hlater, hkey, hposition, hnote⟩ := hst entry hentry
  obtain ⟨last, hlast, hkey', hposition', hnote'⟩ := htu later hlater
  refine ⟨last, hlast, hkey'.trans hkey, hposition'.trans hposition, fun hsilent => ?_⟩
  rw [hnote' fun input hinput hnames => ?_, hnote fun input hinput => ?_]
  · exact hsilent input (List.mem_append_left _ hinput)
  · rw [names_congr hkey] at hnames
    exact hsilent input (List.mem_append_right _ hinput) hnames

/-- A place has one entry in a diary. -/
theorem eq_of_names {input : AddDiaryPlaceInput} {a b : DiaryPlace} (ha : a ∈ s.diaryPlaces.rows)
    (hb : b ∈ s.diaryPlaces.rows) (hna : input.names a = true) (hnb : input.names b = true) :
    a = b := by
  refine Table.eq_of_conflicts ha hb ?_
  simp only [AddDiaryPlaceInput.names, Bool.and_eq_true, beq_iff_eq] at hna hnb
  show (a.id == b.id || (a.diaryId == b.diaryId && a.placeId == b.placeId)) = true
  rw [hna.1, hna.2, hnb.1, hnb.2, beq_self_eq_true, beq_self_eq_true, Bool.and_self, Bool.or_true]

theorem le_maxPosition {diaryId : Id} {entry : DiaryPlace} (hentry : entry ∈ s.diaryPlaces.rows)
    (hdiary : entry.diaryId = diaryId) : entry.position ≤ (s.maxPosition diaryId).getD (-1) := by
  have hmem : entry.position ∈
      (s.diaryPlaces.rows.filter (·.diaryId == diaryId)).map (·.position) :=
    List.mem_map_of_mem (List.mem_filter.mpr ⟨hentry, beq_iff_eq.mpr hdiary⟩)
  unfold ContentDb.maxPosition
  cases hmax : ((s.diaryPlaces.rows.filter (·.diaryId == diaryId)).map (·.position)).max? with
  | none =>
      rw [List.max?_eq_none_iff.mp hmax] at hmem
      cases hmem
  | some maximum => exact (List.max?_eq_some_iff.mp hmax).2 _ hmem

theorem rows_upsertEntry (h : s.upsertEntry env write = .ok t) :
    (∃ entry, s.findEntry write.input = some entry ∧ t.diaryPlaces.rows =
      s.diaryPlaces.rows.map fun e => if write.input.names e then write.update e else e) ∨
    (s.findEntry write.input = none ∧
      t.diaryPlaces.rows = s.diaryPlaces.rows ++ [write.create env]) := by
  unfold ContentDb.upsertEntry at h
  split at h
  · rename_i entry hentry
    cases h
    exact .inl ⟨entry, hentry, rfl⟩
  · rename_i hnone
    split at h
    · split at h
      · split at h
        · cases h
        · rename_i hinsert
          cases h
          exact .inr ⟨hnone, (Table.insert_eq_some hinsert).1⟩
      · cases h
    · cases h

/-- What is read as it was leaves the position of an entry, and its note. -/
theorem update_asRead (hposition : write.input.position = none) (hread : write.AsRead s)
    {entry : DiaryPlace} (hfound : s.findEntry write.input = some entry) :
    (write.update entry).position = entry.position ∧
      (write.input.note = none → (write.update entry).note = entry.note) := by
  unfold DiaryEntryWrite.AsRead at hread
  split at hread
  · rename_i existing hexisting
    obtain ⟨now, hnow, hsame, hnote⟩ := hread
    rw [Option.mem_def, hfound] at hnow
    cases hnow
    constructor
    · show write.nextPosition = entry.position
      rw [DiaryEntryWrite.nextPosition, hposition, hexisting, hsame]
    · intro hsilent
      show write.input.note.or (write.existing.bind (·.note)) = entry.note
      rw [hsilent, hexisting, hnote hsilent]
      rfl
  · rw [hread.1] at hfound
    cases hfound

theorem create_asRead (hposition : write.input.position = none) (hread : write.AsRead s)
    (hnone : s.findEntry write.input = none) :
    (write.create env).position = (s.maxPosition write.input.diaryId).getD (-1) + 1 := by
  unfold DiaryEntryWrite.AsRead at hread
  split at hread
  · obtain ⟨entry, hentry, -⟩ := hread
    rw [Option.mem_def, hnone] at hentry
    cases hentry
  · rename_i hexisting
    show write.nextPosition = _
    rw [DiaryEntryWrite.nextPosition, hposition, hexisting, hread.2]

theorem find_names {entry e : DiaryPlace} (hfound : s.findEntry write.input = some entry)
    (he : e ∈ s.diaryPlaces.rows) (hnames : write.input.names e = true) : e = entry :=
  eq_of_names he (List.mem_of_find?_eq_some hfound) hnames (List.find?_some hfound)

theorem distinct_upsertEntry (h : s.upsertEntry env write = .ok t)
    (hposition : write.input.position = none) (hread : write.AsRead s) (hs : DistinctPositions s) :
    DistinctPositions t := by
  intro a ha b hb hdiary hsame
  obtain ⟨entry, hfound, hrows⟩ | ⟨hnone, hrows⟩ := rows_upsertEntry h
  · have hkeeps : ∀ e ∈ s.diaryPlaces.rows,
        (if write.input.names e then write.update e else e).diaryId = e.diaryId ∧
        (if write.input.names e then write.update e else e).position = e.position := by
      intro e he
      split
      · rename_i hnames
        obtain rfl := find_names hfound he hnames
        exact ⟨rfl, (update_asRead hposition hread hfound).1⟩
      · exact ⟨rfl, rfl⟩
    rw [hrows, List.mem_map] at ha hb
    obtain ⟨x, hx, rfl⟩ := ha
    obtain ⟨y, hy, rfl⟩ := hb
    rw [(hkeeps x hx).1, (hkeeps y hy).1] at hdiary
    rw [(hkeeps x hx).2, (hkeeps y hy).2] at hsame
    rw [hs x hx y hy hdiary hsame]
  · -- The new entry is behind all others of its diary.
    have hlast : (write.create env).position = _ := create_asRead hposition hread hnone
    have hbehind : ∀ e ∈ s.diaryPlaces.rows, e.diaryId = write.input.diaryId →
        e.position < (write.create env).position := by
      intro e he hd
      have hle := le_maxPosition he hd
      omega
    rw [hrows, List.mem_append, List.mem_singleton] at ha hb
    obtain ha | rfl := ha <;> obtain hb | rfl := hb
    · exact hs a ha b hb hdiary hsame
    · exact absurd hsame (hbehind a ha hdiary).ne
    · exact absurd hsame.symm (hbehind b hb hdiary.symm).ne
    · rfl

theorem entriesKept_upsertEntry (h : s.upsertEntry env write = .ok t)
    (hposition : write.input.position = none) (hread : write.AsRead s) :
    EntriesKept [write.input] s t := by
  intro e he
  obtain ⟨entry, hfound, hrows⟩ | ⟨-, hrows⟩ := rows_upsertEntry h
  · by_cases hnames : write.input.names e = true
    · obtain rfl := find_names hfound he hnames
      obtain ⟨hsame, hnote⟩ := update_asRead hposition hread hfound
      refine ⟨write.update e, ?_, rfl, hsame, fun hsilent => ?_⟩
      · rw [hrows, List.mem_map]
        exact ⟨e, he, if_pos hnames⟩
      · exact hnote (hsilent write.input List.mem_cons_self hnames)
    · refine ⟨e, ?_, rfl, rfl, fun _ => rfl⟩
      rw [hrows, List.mem_map]
      exact ⟨e, he, if_neg hnames⟩
  · exact ⟨e, hrows ▸ List.mem_append_left _ he, rfl, rfl, fun _ => rfl⟩

end write

/-! ## Runs -/

/-- A statement of a call leaves the entries alone, or is its write. -/
def EntryLaw (env : DiaryEntryEnv) (input : AddDiaryPlaceInput) (s t : ContentDb)
    (es : List DiaryEntryWrite) : Prop :=
  t.diaryPlaces = s.diaryPlaces ∨
    ∃ write, es = [write] ∧ write.input = input ∧ s.upsertEntry env write = .ok t

theorem always_addPlaceToDiary (env : DiaryEntryEnv) (input : AddDiaryPlaceInput) :
    (addPlaceToDiary env input).Always (EntryLaw env input) := by
  have hquery : ∀ {α : Type} (read : ContentDb → α),
      (query read : DiaryEntryProg α).Always (EntryLaw env input) := fun read =>
    always_stmt fun s => .inl rfl
  refine always_bind (hquery _) fun existing => always_bind ?_ fun maximum =>
    always_bind ?_ fun _ => hquery _
  · unfold readMaximum
    split
    · exact hquery _
    · trivial
  · refine always_stmt fun s => ?_
    split
    · rename_i t ht
      exact .inr ⟨_, rfl, rfl, ht⟩
    · exact .inl rfl

section runs

variable {ι : Type} [DecidableEq ι] {env : ι → DiaryEntryEnv} {input : ι → AddDiaryPlaceInput}
  {s : ContentDb} {c : Config ι ContentDb DiaryEntryWrite Failure (Option DiaryWithRelations)}

/-- Calls of their own, all at their beginning. -/
def adding (s : ContentDb) (env : ι → DiaryEntryEnv) (input : ι → AddDiaryPlaceInput) :
    Config ι ContentDb DiaryEntryWrite Failure (Option DiaryWithRelations) :=
  ⟨s, fun i => addPlaceToDiary (env i) (input i), []⟩

/-- The call that moves finds what it has read, if it now writes. -/
def FindsAsRead (c : Config ι ContentDb DiaryEntryWrite Failure (Option DiaryWithRelations))
    (i : ι) : Prop := ∀ write ∈ c.upcoming i, write.AsRead c.store

instance (c : Config ι ContentDb DiaryEntryWrite Failure (Option DiaryWithRelations)) (i : ι) :
    Decidable (FindsAsRead c i) :=
  inferInstanceAs (Decidable (∀ write ∈ c.upcoming i, write.AsRead c.store))

/-- The calls obey their laws, and the positions are distinct. -/
structure Adding (env : ι → DiaryEntryEnv) (input : ι → AddDiaryPlaceInput)
    (c : Config ι ContentDb DiaryEntryWrite Failure (Option DiaryWithRelations)) : Prop where
  calls : ∀ i, (c.calls i).Always (EntryLaw (env i) (input i))
  distinct : DistinctPositions c.store

theorem adding_advance (hposition : ∀ i, (input i).position = none) (h : Adding env input c) {i : ι}
    (hread : FindsAsRead c i) :
    Adding env input (c.advance i) ∧ EntriesKept [input i] c.store (c.advance i).store := by
  have hlaw : EntryLaw (env i) (input i) c.store (c.advance i).store (c.upcoming i) :=
    c.law_of_always (h.calls i) fun _ => .inl rfl
  have hcalls : ∀ j, ((c.advance i).calls j).Always (EntryLaw (env j) (input j)) := fun j =>
    c.always_advance i (h.calls j)
  rcases hlaw with hsame | ⟨write, hwrite, hinput, hok⟩
  · refine ⟨⟨hcalls, ?_⟩, .of_eq hsame _⟩
    unfold DistinctPositions
    rw [hsame]
    exact h.distinct
  · have hnow : write.AsRead c.store := hread write (by rw [hwrite]; exact List.mem_cons_self)
    have hnone : write.input.position = none := by rw [hinput, hposition i]
    refine ⟨⟨hcalls, distinct_upsertEntry hok hnone hnow h.distinct⟩, ?_⟩
    rw [← hinput]
    exact entriesKept_upsertEntry hok hnone hnow

theorem adding_run (hposition : ∀ i, (input i).position = none) (h : Adding env input c)
    {schedule : List ι} (heeds : Config.Heeds FindsAsRead c schedule) :
    Adding env input (c.run schedule) ∧
      EntriesKept (schedule.map input) c.store (c.run schedule).store := by
  induction schedule generalizing c with
  | nil => exact ⟨h, .of_eq rfl _⟩
  | cons i schedule ih =>
      obtain ⟨hnext, hkept⟩ := adding_advance hposition h heeds.1
      obtain ⟨hend, hrest⟩ := ih hnext heeds.2
      exact ⟨hend, hkept.trans hrest⟩

/-- As long as every write finds what its call has read, the positions stay distinct,
and between any two moments of the run an entry keeps its position, and its note
unless a call brings one. -/
theorem positions_stay_distinct (hposition : ∀ i, (input i).position = none)
    (hs : DistinctPositions s) {earlier later : List ι}
    (heeds : Config.Heeds FindsAsRead (adding s env input) (earlier ++ later)) :
    DistinctPositions ((adding s env input).run (earlier ++ later)).store ∧
      EntriesKept (later.map input) ((adding s env input).run earlier).store
        ((adding s env input).run (earlier ++ later)).store := by
  have hstart : Adding env input (adding s env input) :=
    ⟨fun i => always_addPlaceToDiary (env i) (input i), hs⟩
  obtain ⟨hearlier, hlater⟩ := Config.heeds_append.mp heeds
  have hmiddle := (adding_run hposition hstart hearlier).1
  obtain ⟨hend, hkept⟩ := adding_run hposition hmiddle hlater
  rw [Config.run_append]
  exact ⟨hend.distinct, hkept⟩

end runs

/-! Ana has a diary, and adds two bars to it. -/

def anasDiary : Diary where
  id := "d1"
  name := "bares"
  createdById := "ana"
  createdAt := 0

def someBar (id : Id) : Place where
  id := id
  name := "Bar"
  address := "Calle 1"
  city := "Rosario"

def emptyDiary : ContentDb where
  toSocialDb := SocialDb.ofUsers
    (.singleton { id := "ana", username := "ana", displayName := "Ana" }) .empty .empty .empty
    ⟨[someBar "p1", someBar "p2"], by decide⟩
  tastePreferenceIds _ := []
  isEditor _ := false
  placeColumns _ := {}
  visits := .empty
  saves := .empty
  diaries := .singleton anasDiary
  diaryPlaces := .empty
  user_id := by
    intro u hu
    rw [List.mem_singleton.mp hu]
    decide
  place_source := by
    intro p _ q _ _ hp _
    cases hp
  visit_place := by simp
  visit_user := by simp
  save_user := by simp
  diary_creator := by
    intro d hd
    rw [List.mem_singleton.mp hd]
    exact ⟨_, List.mem_singleton.mpr rfl, rfl⟩
  entry_diary := by simp

def twoBars : Fin 2 → AddDiaryPlaceInput
  | 0 => { diaryId := "d1", placeId := "p1" }
  | 1 => { diaryId := "d1", placeId := "p2" }

def twoEntries : Fin 2 → DiaryEntryEnv
  | 0 => { now := 0, entryId := "e1" }
  | 1 => { now := 0, entryId := "e2" }

/-- Each call reads the last position before the other has written. -/
theorem both_bars_come_first :
    ¬ DistinctPositions ((adding emptyDiary twoEntries twoBars).run [0, 0, 1, 1, 0, 1]).store := by
  intro h
  have hrows : ((adding emptyDiary twoEntries twoBars).run [0, 0, 1, 1, 0, 1]).store.diaryPlaces.rows =
      [{ id := "e1", diaryId := "d1", placeId := "p1", createdAt := 0 },
        { id := "e2", diaryId := "d1", placeId := "p2", createdAt := 0 }] := by decide
  unfold DistinctPositions at h
  rw [hrows] at h
  exact absurd (h _ List.mem_cons_self _ (List.mem_cons_of_mem _ List.mem_cons_self) rfl rfl)
    (by decide)

theorem one_bar_after_the_other :
    DistinctPositions ((adding emptyDiary twoEntries twoBars).run ([0, 0, 0] ++ [1, 1, 1])).store :=
  (positions_stay_distinct (by decide) (fun _ h => by cases h) (by decide)).1

end Feca.Content
