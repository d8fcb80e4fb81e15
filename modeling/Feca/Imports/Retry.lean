import Feca.Imports.Ingestion
import Feca.Imports.Texts

/-! # What a retry sees of an item

A retry parses the rows of an import again. A row has the title, the URL and the
payload of its item, but not the Google id that an archive gives for it.
-/

namespace Feca.Imports

open Concurrency Concurrency.Prog Places Relational Social

variable {ω : Type} {parser : ParserEnv} {importId : Id}

/-- A `jsonb` column: all texts are read as they were written, in the order that
the database gives to the entries of a record. -/
structure JsonColumn where
  read : JsonRecord → JsonRecord
  texts_read : ∀ raw, (textsInFields (read raw)).Perm (textsInFields raw)

/-- A stored row, as `executeRetry` reads it and processes it again. -/
def retriedItem (column : JsonColumn) (row : GoogleDataImportItem) : GoogleSavedCollectionItem :=
  { row.toItem with rawPayload := some (column.read row.rawPayload) }

/-- The retry resolves the row to the place that the item was resolved to. -/
structure SamePlace (parser : ParserEnv) (column : JsonColumn) (item : GoogleSavedCollectionItem)
    (row : GoogleDataImportItem) : Prop where
  googlePlaceId : (parseSavedCollectionItem parser (retriedItem column row)).googlePlaceId =
    (parseSavedCollectionItem parser item).googlePlaceId
  sourceKey : (parseSavedCollectionItem parser (retriedItem column row)).sourceKey =
    (parseSavedCollectionItem parser item).sourceKey

/-- The id that the payload of the item shows once it is stored. -/
def storedId (column : JsonColumn) (item : GoogleSavedCollectionItem) : Option String :=
  nonEmpty (findGooglePlaceId (column.read (toPrismaFields item.payload)))

/-- The URL in the row of an item shows the id, or it shows none and the stored payload does. -/
def RowShows (parser : ParserEnv) (column : JsonColumn) (item : GoogleSavedCollectionItem)
    (id : String) : Prop :=
  shownId parser item = some id ∨ shownId parser item = none ∧ storedId column item = some id

/-- The row that `last` leaves shows the id of the item, wherever this is from. -/
structure ShowsId (parser : ParserEnv) (column : JsonColumn)
    (item last : GoogleSavedCollectionItem) : Prop where
  given : ∀ id, nonEmpty item.googlePlaceId = some id → RowShows parser column last id
  url : nonEmpty item.googlePlaceId = none → ∀ id, shownId parser item = some id →
    RowShows parser column last id
  payload : nonEmpty item.googlePlaceId = none → shownId parser item = none →
    ∀ id, nonEmpty (findGooglePlaceId item.payload) = some id → RowShows parser column last id
  nothing : nonEmpty item.googlePlaceId = none → shownId parser item = none →
    nonEmpty (findGooglePlaceId item.payload) = none →
      shownId parser last = none ∧ storedId column last = none

/-- The sources of one item agree: its field, its URL, and its payload, given and stored. -/
structure SourcesAgree (parser : ParserEnv) (column : JsonColumn)
    (item : GoogleSavedCollectionItem) : Prop where
  /-- The URL shows no other id than the one that is given. -/
  url : ∀ given shown, nonEmpty item.googlePlaceId = some given →
    shownId parser item = some shown → shown = given
  /-- Where the URL shows none, the stored payload shows the one that is given. -/
  given : shownId parser item = none → ∀ id, nonEmpty item.googlePlaceId = some id →
    storedId column item = some id
  /-- Where none is given either, the first id of the payload is the first one still. -/
  payload : shownId parser item = none → nonEmpty item.googlePlaceId = none →
    ∀ id, nonEmpty (findGooglePlaceId item.payload) = some id → storedId column item = some id

/-- The last item of a run with a source key: the one that the row is of. -/
def lastWithKey (parser : ParserEnv) (sourceKey : String)
    (items : List GoogleSavedCollectionItem) : Option GoogleSavedCollectionItem :=
  (items.filter fun item => (parseSavedCollectionItem parser item).sourceKey == sourceKey).getLast?

/-! ## What is stored of a payload -/

mutual

theorem texts_toPrismaJson : ∀ value : Json, (texts (toPrismaJson value)).Sublist (texts value)
  | .null => .slnil
  | .bool _ => .slnil
  | .number _ => .slnil
  | .string _ => .refl _
  | .array items => texts_toPrismaItems items
  | .object fields => texts_toPrismaFields fields

theorem texts_toPrismaItems : ∀ items : List Json,
    (textsInItems (toPrismaItems items)).Sublist (textsInItems items)
  | [] => .slnil
  | item :: items => (texts_toPrismaJson item).append (texts_toPrismaItems items)

theorem texts_toPrismaFields : ∀ fields : JsonRecord,
    (textsInFields (toPrismaFields fields)).Sublist (textsInFields fields)
  | [] => .slnil
  | (key, item) :: fields => by
      rw [toPrismaFields]
      split
      · exact (texts_toPrismaFields fields).trans (List.sublist_append_right _ _)
      · exact (texts_toPrismaJson item).append (texts_toPrismaFields fields)

end

/-- The column shows no text that the payload does not. -/
theorem mem_texts_read {column : JsonColumn} {raw : JsonRecord} {value : String}
    (h : value ∈ textsInFields (column.read (toPrismaFields raw))) : value ∈ textsInFields raw :=
  (texts_toPrismaFields raw).subset ((column.texts_read _).subset h)

/-! ## Parsing a row -/

theorem nonEmpty_firstNonEmptyString (values : List (Option String)) :
    nonEmpty (firstNonEmptyString values) = firstNonEmptyString values := by
  unfold firstNonEmptyString
  cases hfirst : values.findSome? nonEmpty with
  | none => rfl
  | some text =>
      obtain ⟨value, -, hvalue⟩ := List.exists_of_findSome?_eq_some hfirst
      rw [← hvalue]
      exact nonEmpty_nonEmpty value

section row

variable {column : JsonColumn} {item last : GoogleSavedCollectionItem} {row : GoogleDataImportItem}

/-- Where the item shows no URL, its row shows none. -/
theorem findMapsUrl_stored (hblank : ∀ value, trim value = "" → parser.toLowerCase value = value)
    (hnone : (parseSavedCollectionItem parser last).url = none) :
    findMapsUrl parser (column.read (toPrismaFields last.payload)) = none := by
  have hshown : nonEmpty (findMapsUrl parser last.payload) = none := by
    rw [parse_url, Option.or_eq_none_iff, Option.or_eq_none_iff] at hnone
    exact hnone.2.2
  rw [findMapsUrl_eq, List.find?_eq_none]
  intro value hvalue hfound
  rw [findMapsUrl_eq] at hshown
  cases hfirst : (textsInFields last.payload).find? (found (isMapsUrl parser)) with
  | none => exact List.find?_eq_none.mp hfirst value (mem_texts_read hvalue) hfound
  | some url =>
      rw [hfirst, nonEmpty_some, orNull] at hshown
      have htrim : trim url = "" := by
        by_contra hleft
        rw [if_neg hleft] at hshown
        cases hshown
      have hurl := List.find?_some hfirst
      rw [found, not_isMapsUrl_of_blank htrim (hblank url htrim)] at hurl
      cases hurl

theorem retried_url (hblank : ∀ value, trim value = "" → parser.toLowerCase value = value)
    (hrow : RowOf importId (parseSavedCollectionItem parser last) row) :
    (parseSavedCollectionItem parser (retriedItem column row)).url =
      (parseSavedCollectionItem parser last).url := by
  have hparsed : (parseSavedCollectionItem parser (retriedItem column row)).url =
      (nonEmpty row.rawUrl).or (nonEmpty (findMapsUrl parser (column.read row.rawPayload))) := by
    rw [parse_url]
    exact congrArg _ Option.none_or
  have hurl : nonEmpty (parseSavedCollectionItem parser last).url =
      (parseSavedCollectionItem parser last).url := nonEmpty_firstNonEmptyString _
  rw [hparsed, hrow.rawUrl, hurl, hrow.rawPayload]
  cases hnone : (parseSavedCollectionItem parser last).url with
  | some url => rfl
  | none =>
      rw [Option.none_or]
      show nonEmpty (findMapsUrl parser (column.read (toPrismaFields last.payload))) = none
      rw [findMapsUrl_stored hblank hnone]
      rfl

/-- The URL of the row shows an id, or else its payload does. -/
theorem retried_googlePlaceId (column : JsonColumn)
    (hblank : ∀ value, trim value = "" → parser.toLowerCase value = value)
    (hrow : RowOf importId (parseSavedCollectionItem parser last) row) :
    (parseSavedCollectionItem parser (retriedItem column row)).googlePlaceId =
      (shownId parser last).or (storedId column last) := by
  have hshown : shownId parser (retriedItem column row) = shownId parser last := by
    rw [shownId_eq, shownId_eq, retried_url hblank hrow]
  rw [parse_googlePlaceId, hshown]
  show (none : Option String).or ((shownId parser last).or
    (nonEmpty (findGooglePlaceId (column.read row.rawPayload)))) = _
  rw [Option.none_or, hrow.rawPayload]
  rfl

theorem rowShows_iff (parser : ParserEnv) (column : JsonColumn) (item : GoogleSavedCollectionItem)
    (id : String) : RowShows parser column item id ↔
      (shownId parser item).or (storedId column item) = some id := by
  unfold RowShows
  cases shownId parser item with
  | none => simp
  | some shown => simp

theorem samePlace_iff (hblank : ∀ value, trim value = "" → parser.toLowerCase value = value)
    (hrow : RowOf importId (parseSavedCollectionItem parser last) row)
    (hkey : (parseSavedCollectionItem parser last).sourceKey =
      (parseSavedCollectionItem parser item).sourceKey) :
    SamePlace parser column item row ↔ ShowsId parser column item last := by
  have hsource : (parseSavedCollectionItem parser (retriedItem column row)).sourceKey =
      (parseSavedCollectionItem parser item).sourceKey := by
    rw [← hkey, ← hrow.sourceKey]
    rfl
  have hid := retried_googlePlaceId column hblank hrow
  have hrows := rowShows_iff parser column last
  have hsame : SamePlace parser column item row ↔ (shownId parser last).or (storedId column last) =
      (parseSavedCollectionItem parser item).googlePlaceId :=
    ⟨fun h => hid ▸ h.googlePlaceId, fun h => ⟨hid.trans h, hsource⟩⟩
  rw [hsame, parse_googlePlaceId]
  cases hgiven : nonEmpty item.googlePlaceId with
  | some given =>
      rw [Option.some_or, ← hrows]
      exact ⟨fun h => ⟨by simpa [hgiven] using h, by simp [hgiven], by simp [hgiven],
        by simp [hgiven]⟩, fun h => h.given given hgiven⟩
  | none =>
      rw [Option.none_or]
      cases hshown : shownId parser item with
      | some shown =>
          rw [Option.some_or, ← hrows]
          exact ⟨fun h => ⟨by simp [hgiven], by simpa [hshown] using fun _ => h, by simp [hshown],
            by simp [hshown]⟩, fun h => h.url hgiven shown hshown⟩
      | none =>
          rw [Option.none_or]
          cases hfound : nonEmpty (findGooglePlaceId item.payload) with
          | some found =>
              rw [← hrows]
              exact ⟨fun h => ⟨by simp [hgiven], by simp [hshown],
                by simpa [hfound] using fun _ _ => h, by simp [hfound]⟩,
                fun h => h.payload hgiven hshown found hfound⟩
          | none =>
              rw [Option.or_eq_none_iff]
              exact ⟨fun h => ⟨by simp [hgiven], by simp [hshown], by simp [hfound],
                fun _ _ _ => h⟩, fun h => h.nothing hgiven hshown hfound⟩

/-- A payload that shows no id shows none once it is stored. -/
theorem storedId_eq_none (hfound : nonEmpty (findGooglePlaceId item.payload) = none) :
    storedId column item = none := by
  have hnone : findGooglePlaceId item.payload = none := by
    cases hfirst : findGooglePlaceId item.payload with
    | none => rfl
    | some id =>
        rw [findGooglePlaceId_eq] at hfirst
        have hblank : trim id = "" := by
          by_contra hne
          rw [findGooglePlaceId_eq, hfirst, nonEmpty_some, orNull, if_neg hne] at hfound
          cases hfound
        have hlooks := List.find?_some hfirst
        rw [not_looksLikeGooglePlaceId_of_blank hblank] at hlooks
        cases hlooks
  have hstored : findGooglePlaceId (column.read (toPrismaFields item.payload)) = none := by
    rw [findGooglePlaceId_eq, List.find?_eq_none] at hnone ⊢
    exact fun value hvalue => hnone value (mem_texts_read hvalue)
  rw [storedId, hstored]
  rfl

/-- An item with a row of its own is seen again where its sources agree. -/
theorem showsId_self_iff (parser : ParserEnv) (column : JsonColumn)
    (item : GoogleSavedCollectionItem) :
    ShowsId parser column item item ↔ SourcesAgree parser column item := by
  constructor
  · intro h
    refine ⟨fun given shown hgiven hshown => ?_, fun hshown id hgiven => ?_,
      fun hshown hgiven id hfound => ?_⟩
    · rcases h.given given hgiven with hrow | ⟨hnone, -⟩
      · exact Option.some.inj (hshown.symm.trans hrow)
      · rw [hshown] at hnone
        cases hnone
    · rcases h.given id hgiven with hrow | ⟨-, hstored⟩
      · rw [hshown] at hrow
        cases hrow
      · exact hstored
    · rcases h.payload hgiven hshown id hfound with hrow | ⟨-, hstored⟩
      · rw [hshown] at hrow
        cases hrow
      · exact hstored
  · intro h
    refine ⟨fun id hgiven => ?_, fun _ id hshown => .inl hshown,
      fun hgiven hshown id hfound => .inr ⟨hshown, h.payload hshown hgiven id hfound⟩,
      fun _ hshown hfound => ⟨hshown, storedId_eq_none hfound⟩⟩
    cases hshown : shownId parser item with
    | some shown => exact .inl (hshown.trans (congrArg some (h.url id shown hgiven hshown)))
    | none => exact .inr ⟨hshown, h.given hshown id hgiven⟩

end row

/-! ## The rows of a run -/

section run

variable {env : ImportsEnv ω} {s : ImportDb ω} {userId : Id} {item last : GoogleSavedCollectionItem}
  {items : List GoogleSavedCollectionItem}

theorem lastWithKey_cons (sourceKey : String) :
    lastWithKey parser sourceKey (item :: items) = (lastWithKey parser sourceKey items).or
      (if (parseSavedCollectionItem parser item).sourceKey = sourceKey then some item else none) := by
  unfold lastWithKey
  by_cases hkey : (parseSavedCollectionItem parser item).sourceKey = sourceKey
  · rw [List.filter_cons_of_pos (by simpa using hkey), List.getLast?_cons, if_pos hkey]
    cases (items.filter _).getLast? <;> rfl
  · rw [List.filter_cons_of_neg (by simpa using hkey), if_neg hkey, Option.or_none]

theorem sourceKey_of_lastWithKey {sourceKey : String}
    (h : lastWithKey parser sourceKey items = some last) :
    (parseSavedCollectionItem parser last).sourceKey = sourceKey := by
  have hmem := List.mem_of_getLast? h
  simpa using (List.mem_filter.mp hmem).2

theorem exists_lastWithKey (parser : ParserEnv) (hitem : item ∈ items) :
    ∃ last, lastWithKey parser (parseSavedCollectionItem parser item).sourceKey items = some last := by
  have hne : (items.filter fun other => (parseSavedCollectionItem parser other).sourceKey ==
      (parseSavedCollectionItem parser item).sourceKey) ≠ [] :=
    List.ne_nil_of_mem (List.mem_filter.mpr ⟨hitem, by simp⟩)
  exact ⟨_, List.getLast?_eq_some_getLast hne⟩

/-- In the end a row is of the last item with its key. -/
theorem rowOf_lastWithKey (userId : Id) {sourceKey : String}
    (himport : ∃ x ∈ s.imports.rows, x.id = importId)
    (count : Nat) (h : lastWithKey env.parser sourceKey items = some last) :
    ∃ row ∈ ((processItems env userId importId items count).run s).store.items.rows,
      RowOf importId (parseSavedCollectionItem env.parser last) row := by
  induction items generalizing s count with
  | nil => cases h
  | cons item items ih =>
      obtain ⟨resolved, row, hresult, hrow, hupserts⟩ :=
        processSavedCollectionItem_run env userId himport item count
      have hthere : ∃ x ∈ ((processSavedCollectionItem env userId importId item count).run
          s).store.imports.rows, x.id = importId := by
        rwa [hupserts.imports]
      unfold processItems
      rw [run_bind_ok hresult]
      rw [lastWithKey_cons] at h
      cases hlater : lastWithKey env.parser sourceKey items with
      | some later =>
          rw [hlater, Option.some_or] at h
          cases h
          exact ih hthere (count + resolved) hlater
      | none =>
          rw [hlater, Option.none_or] at h
          split at h
          · rename_i hkey
            cases h
            obtain ⟨x, hx, hof, -⟩ := exists_mem_upserted hrow s.items.rows
            rw [← hupserts.items] at hx
            have hstores := processItems_run env userId items (count + resolved) hthere
            refine ⟨x, hstores.mem_of_mem hx fun other hother _ _ hsame => ?_, hof⟩
            obtain ⟨later, hlast⟩ := exists_lastWithKey env.parser hother
            rw [hsame, hof.sourceKey, hkey, hlater] at hlast
            cases hlast
          · cases h

/-- A retry sees the place of an item exactly when the row of its source key shows
the id that the item was resolved by. -/
theorem retry_sees_same_place_iff (column : JsonColumn)
    (hblank : ∀ value, trim value = "" → env.parser.toLowerCase value = value)
    (himport : ∃ x ∈ s.imports.rows, x.id = importId) (count : Nat) (hitem : item ∈ items) :
    ∃ last, lastWithKey env.parser (parseSavedCollectionItem env.parser item).sourceKey items =
        some last ∧
      ∃ row ∈ ((processItems env userId importId items count).run s).store.items.rows,
        RowOf importId (parseSavedCollectionItem env.parser last) row ∧
          (SamePlace env.parser column item row ↔ ShowsId env.parser column item last) ∧
          (last = item → (SamePlace env.parser column item row ↔
            SourcesAgree env.parser column item)) := by
  obtain ⟨last, hlast⟩ := exists_lastWithKey env.parser hitem
  obtain ⟨row, hmem, hrow⟩ := rowOf_lastWithKey userId himport count hlast
  have hsame : SamePlace env.parser column item row ↔ ShowsId env.parser column item last :=
    samePlace_iff hblank hrow (sourceKey_of_lastWithKey hlast)
  refine ⟨last, hlast, row, hmem, hrow, hsame, fun hown => ?_⟩
  rw [hsame, hown]
  exact showsId_self_iff env.parser column item

end run

/-! ## An archived place that a retry takes for another -/

/-- For ASCII texts and URLs without a query. -/
def asciiParserEnv : ParserEnv where
  toLowerCase text := String.ofList (text.toList.map Char.toLower)
  searchParams _ := some []
  stringify _ := "\x7b\x7d"
  sha256Hex _ := "e3b0c44298fc1c149afbf4c8996fb92427ae41e4649b934ca495991b7852b855"

theorem toLower_of_isJsSpace {c : Char} (h : isJsSpace c = true) : c.toLower = c := by
  have hnot : ¬ (c.val ≥ 'A'.val ∧ c.val ≤ 'Z'.val) := by
    rintro ⟨hlow, hhigh⟩
    have hge : 65 ≤ c.toNat := hlow
    have hle : c.toNat ≤ 90 := hhigh
    simp only [isJsSpace, Bool.or_eq_true, Bool.and_eq_true, decide_eq_true_eq, beq_iff_eq] at h
    omega
  unfold Char.toLower
  exact dif_neg hnot

theorem asciiParserEnv_toLowerCase (value : String) (hblank : trim value = "") :
    asciiParserEnv.toLowerCase value = value := by
  have hsame : value.toList.map Char.toLower = value.toList.map id :=
    List.map_congr_left fun c hc => toLower_of_isJsSpace (isJsSpace_of_blank hblank c hc)
  show String.ofList (value.toList.map Char.toLower) = value
  rw [hsame, List.map_id, String.ofList_toList]

/-- A column that keeps the order of the entries. -/
def jsonColumn : JsonColumn where
  read raw := raw
  texts_read _ := .refl _

/-- The place of the record and the one that its URL shows are not the same. -/
def operaDocument : GoogleDataArchiveDocument where
  source := "Takeout/Saved/Places.json"
  payload := .object
    [("id", .string "ChIJN1t_tDeuEms"),
      ("url", .string "https://google.com/maps/data=!1sChIJ3S-JXmauEms")]

def archiveEnv : ImportsEnv Unit :=
  { anImportsEnv with
    downloadJsonDocuments := fun _ => pure [operaDocument]
    parser := asciiParserEnv }

/-- The id that is given is the one in the URL. -/
def linkedOpera : GoogleSavedCollectionItem where
  title := some "Ópera"
  url := some "https://google.com/maps/data=!1sChIJ3S-JXmauEms"
  googlePlaceId := some "ChIJ3S-JXmauEms"

theorem sourcesAgree_linkedOpera : SourcesAgree asciiParserEnv jsonColumn linkedOpera := by
  have hgiven : nonEmpty linkedOpera.googlePlaceId = some "ChIJ3S-JXmauEms" := by
    decide
  have hshown : shownId asciiParserEnv linkedOpera = some "ChIJ3S-JXmauEms" := by
    decide
  refine ⟨fun given shown h h' => ?_, fun h => ?_, fun h => ?_⟩
  · rw [hgiven] at h
    rw [hshown] at h'
    exact Option.some.inj (h'.symm.trans h)
  · rw [hshown] at h
    cases h
  · rw [hshown] at h
    cases h

theorem retry_sees_linked_opera :
    ∃ row ∈ ((processItems archiveEnv "ana" "import" [linkedOpera] 0).run
        (anImportOf fetchingImport)).store.items.rows,
      SamePlace archiveEnv.parser jsonColumn linkedOpera row := by
  have hsees : ∃ last, lastWithKey archiveEnv.parser
      (parseSavedCollectionItem archiveEnv.parser linkedOpera).sourceKey [linkedOpera] = some last ∧
      ∃ row ∈ ((processItems archiveEnv "ana" "import" [linkedOpera] 0).run
          (anImportOf fetchingImport)).store.items.rows,
        RowOf "import" (parseSavedCollectionItem archiveEnv.parser last) row ∧
          (SamePlace archiveEnv.parser jsonColumn linkedOpera row ↔
            ShowsId archiveEnv.parser jsonColumn linkedOpera last) ∧
          (last = linkedOpera → (SamePlace archiveEnv.parser jsonColumn linkedOpera row ↔
            SourcesAgree archiveEnv.parser jsonColumn linkedOpera)) :=
    retry_sees_same_place_iff jsonColumn asciiParserEnv_toLowerCase owned_fetchingImport.mem 0
      List.mem_cons_self
  obtain ⟨last, hlast, row, hrow, -, -, hsame⟩ := hsees
  have hown : last = linkedOpera := by
    have hself : lastWithKey archiveEnv.parser
        (parseSavedCollectionItem archiveEnv.parser linkedOpera).sourceKey [linkedOpera] =
          some linkedOpera := by simp [lastWithKey]
    exact Option.some.inj (hlast.symm.trans hself)
  exact ⟨row, hrow, (hsame hown).mpr sourcesAgree_linkedOpera⟩

def archivedImport : GoogleDataImport :=
  { fetchingImport with
    archiveState := some "COMPLETE"
    archiveUrls := some ["https://example.com/archive"] }

def archivedItems : List GoogleSavedCollectionItem :=
  parseSavedCollectionArchiveDocuments asciiParserEnv [operaDocument]

def archivedRows : List GoogleDataImportItem :=
  ((runJob archiveEnv (.processArchive "ana" "import")).run
    (anImportOf archivedImport)).store.itemsOf "import"

theorem samePlaces_ids {column : JsonColumn} {items : List GoogleSavedCollectionItem}
    {rows : List GoogleDataImportItem} (h : List.Forall₂ (SamePlace parser column) items rows) :
    rows.map (fun row => (parseSavedCollectionItem parser (retriedItem column row)).googlePlaceId) =
      items.map fun item => (parseSavedCollectionItem parser item).googlePlaceId := by
  induction h with
  | nil => rfl
  | cons hsame _ ih => rw [List.map_cons, List.map_cons, hsame.googlePlaceId, ih]

/-- The first run takes the id of the record, and a retry the one in the URL. -/
theorem retried_opera_is_another_place :
    archivedItems.map (fun item => (parseSavedCollectionItem asciiParserEnv item).sourceKey) =
        archivedRows.map (·.sourceKey) ∧
      ¬ List.Forall₂ (SamePlace asciiParserEnv jsonColumn) archivedItems archivedRows := by
  refine ⟨by decide, fun h => ?_⟩
  have hfirst : archivedItems.map
      (fun item => (parseSavedCollectionItem asciiParserEnv item).googlePlaceId) =
        [some "ChIJN1t_tDeuEms"] := by decide
  have hretry : archivedRows.map (fun row =>
      (parseSavedCollectionItem asciiParserEnv (retriedItem jsonColumn row)).googlePlaceId) =
        [some "ChIJ3S-JXmauEms"] := by decide
  rw [samePlaces_ids h, hfirst] at hretry
  revert hretry
  decide

end Feca.Imports
