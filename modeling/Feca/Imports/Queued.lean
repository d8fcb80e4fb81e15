import Feca.Imports.Texts

/-! # What the queue carries of an item

A submitted item is parsed when its job runs, from what the job carries of it.
The job has one title and one URL, and no Google id.
-/

namespace Feca.Imports

open Places

/-- An item of `GoogleImportIngestJobPayload`. -/
structure IngestJobItem where
  sourceKey : String
  title : Option String
  url : Option String
  rawPayload : Option JsonRecord

/-- What stands for an item in the job, and in its import. -/
def GoogleSavedCollectionItem.rowKey (item : GoogleSavedCollectionItem) : String :=
  (((item.sourceKey.or item.url).or item.googlePlaceId).or item.title).getD "unknown"

/-- The projection in `enqueueIngestSavedCollections`. -/
def queuedItem (item : GoogleSavedCollectionItem) : IngestJobItem where
  sourceKey := item.rowKey
  title := item.title.or item.name
  url := item.url.or item.placeUrl
  rawPayload := item.rawPayload

/-- As `processSavedCollectionItem` takes it. -/
def IngestJobItem.toItem (item : IngestJobItem) : GoogleSavedCollectionItem :=
  { sourceKey := some item.sourceKey, title := item.title, url := item.url,
    rawPayload := item.rawPayload }

/-- What is searched for a URL and an id that no field gives. -/
def GoogleSavedCollectionItem.payload (item : GoogleSavedCollectionItem) : JsonRecord :=
  item.rawPayload.getD item.spread

/-- The job's item is parsed like the submitted one. -/
structure SurvivesQueue (env : ParserEnv) (item : GoogleSavedCollectionItem) : Prop where
  googlePlaceId : (parseSavedCollectionItem env (queuedItem item).toItem).googlePlaceId =
    (parseSavedCollectionItem env item).googlePlaceId
  title : (parseSavedCollectionItem env (queuedItem item).toItem).title =
    (parseSavedCollectionItem env item).title
  url : (parseSavedCollectionItem env (queuedItem item).toItem).url =
    (parseSavedCollectionItem env item).url

/-- The id that the URL of the item shows. -/
def shownId (env : ParserEnv) (item : GoogleSavedCollectionItem) : Option String :=
  nonEmpty ((firstNonEmptyString [item.url, item.placeUrl, findMapsUrl env item.payload]).bind
    (extractGooglePlaceIdFromUrl env))

section fields

variable (looksRight : String → Bool) (item : GoogleSavedCollectionItem)

/-- Without a source key the item's URL, id or title stands for it, and is found first. -/
def KeyAgrees (field : Option String) : Prop :=
  item.sourceKey = none → looksRight item.rowKey = true →
    nonEmpty (some item.rowKey) = nonEmpty field

/-- The first of the texts that the job carries which looks right is this one. -/
def CarriesFirst (text : String) : Prop :=
  if looksRight item.rowKey then nonEmpty (some item.rowKey) = some text
  else if (item.title.or item.name).any looksRight then
    nonEmpty (item.title.or item.name) = some text
  else (item.url.or item.placeUrl).any looksRight ∧
    nonEmpty (item.url.or item.placeUrl) = some text

/-- The first text of an item that looks right is the first one for the job, too: of the
fields before it none looks right, and it is not left behind. -/
structure KeepsFirst : Prop where
  title : item.sourceKey.any looksRight = false → item.title.any looksRight = true →
    KeyAgrees looksRight item item.title
  /-- A name is carried in place of a title, and is lost behind one, unless the job has the
  same text elsewhere. -/
  name : item.sourceKey.any looksRight = false → item.title.any looksRight = false →
    item.name.any looksRight = true → KeyAgrees looksRight item item.name ∧
      (item.title = none ∨ (item.sourceKey = none ∧ looksRight item.rowKey = true) ∨
        ((item.url.or item.placeUrl).any looksRight = true ∧
          nonEmpty (item.url.or item.placeUrl) = nonEmpty item.name))
  /-- A second URL is carried in place of the first, and is lost behind one. -/
  placeUrl : item.sourceKey.any looksRight = false → item.title.any looksRight = false →
    item.name.any looksRight = false → item.url.any looksRight = false →
    item.placeUrl.any looksRight = true → item.url = none ∧ KeyAgrees looksRight item item.placeUrl
  /-- An id is carried in place of a source key and a URL only. -/
  googlePlaceId : item.sourceKey.any looksRight = false → item.title.any looksRight = false →
    item.name.any looksRight = false → item.url.any looksRight = false →
    item.placeUrl.any looksRight = false → item.googlePlaceId.any looksRight = true →
      item.sourceKey = none ∧ item.url = none

/-- A field that the job does not carry, or a search where it is blank: both payloads are the
raw one, where the client gives one, and are made of the fields otherwise. -/
def KeepsFound (field : Option String) : Prop :=
  match nonEmpty field, item.rawPayload with
  | none, some _ => True
  | some text, some raw => nonEmpty (findString looksRight (.object raw)) = some text
  | none, none => KeepsFirst looksRight item
  | some text, none => CarriesFirst looksRight item text

end fields

/-- Nothing that counts is lost on the way to the queue. -/
structure LosesNothing (env : ParserEnv) (item : GoogleSavedCollectionItem) : Prop where
  /-- No name stands behind a blank title. -/
  title : item.title = none ∨ nonEmpty item.title ≠ none ∨ nonEmpty item.name = none
  /-- The URL is the first one given, or else the texts show the same. -/
  url : nonEmpty (item.url.or item.placeUrl) ≠ none ∨ KeepsFound (isMapsUrl env) item item.placeUrl
  /-- The id given, if any, is the one that the URL shows. -/
  shown : ∀ id, shownId env item = some id →
    nonEmpty item.googlePlaceId = none ∨ nonEmpty item.googlePlaceId = some id
  /-- Where the URL shows none, the texts show the one given, or else the same. -/
  hidden : shownId env item = none →
    KeepsFound looksLikeGooglePlaceId item item.googlePlaceId

section parsing

variable (env : ParserEnv) (item : GoogleSavedCollectionItem)

theorem firstNonEmptyString_cons (value : Option String) (values : List (Option String)) :
    firstNonEmptyString (value :: values) = (nonEmpty value).or (firstNonEmptyString values) := by
  unfold firstNonEmptyString
  rw [List.findSome?_cons]
  cases nonEmpty value with
  | none => rfl
  | some text => rfl

theorem firstNonEmptyString_singleton (value : Option String) :
    firstNonEmptyString [value] = nonEmpty value := by
  rw [firstNonEmptyString_cons]
  exact Option.or_none

theorem firstNonEmptyString_three (a b c : Option String) :
    firstNonEmptyString [a, b, c] = (nonEmpty a).or ((nonEmpty b).or (nonEmpty c)) := by
  rw [firstNonEmptyString_cons, firstNonEmptyString_cons, firstNonEmptyString_singleton]

theorem parse_title : (parseSavedCollectionItem env item).title =
    (nonEmpty item.title).or (nonEmpty item.name) := by
  show firstNonEmptyString [item.title, item.name] = _
  rw [firstNonEmptyString_cons, firstNonEmptyString_singleton]

theorem parse_url : (parseSavedCollectionItem env item).url =
    (nonEmpty item.url).or ((nonEmpty item.placeUrl).or
      (nonEmpty (findMapsUrl env item.payload))) := firstNonEmptyString_three _ _ _

theorem parse_googlePlaceId : (parseSavedCollectionItem env item).googlePlaceId =
    (nonEmpty item.googlePlaceId).or ((shownId env item).or
      (nonEmpty (findGooglePlaceId item.payload))) := firstNonEmptyString_three _ _ _

theorem shownId_eq : shownId env item =
    nonEmpty ((parseSavedCollectionItem env item).url.bind (extractGooglePlaceIdFromUrl env)) := rfl

end parsing

/-- Of two texts in a row only the first is queued, unless it is absent. -/
theorem nonEmpty_or (first second : Option String) :
    nonEmpty (first.or second) = if first = none then nonEmpty second else nonEmpty first := by
  cases first with
  | none => rfl
  | some text => rfl

section survival

variable {env : ParserEnv} {item : GoogleSavedCollectionItem}

theorem queued_title_iff : (parseSavedCollectionItem env (queuedItem item).toItem).title =
    (parseSavedCollectionItem env item).title ↔
      item.title = none ∨ nonEmpty item.title ≠ none ∨ nonEmpty item.name = none := by
  have hqueued : (parseSavedCollectionItem env (queuedItem item).toItem).title =
      nonEmpty (item.title.or item.name) := by
    rw [parse_title]
    exact Option.or_none
  rw [hqueued, parse_title, nonEmpty_or]
  by_cases htitle : item.title = none
  · simp [htitle, nonEmpty]
  · rw [if_neg htitle]
    cases hfirst : nonEmpty item.title with
    | none => simp [htitle, eq_comm]
    | some title => simp

theorem queued_url_iff : (parseSavedCollectionItem env (queuedItem item).toItem).url =
    (parseSavedCollectionItem env item).url ↔
      nonEmpty (item.url.or item.placeUrl) ≠ none ∨
        (nonEmpty item.placeUrl).or (nonEmpty (findMapsUrl env item.payload)) =
          nonEmpty (findMapsUrl env (queuedItem item).toItem.payload) := by
  have hqueued : (parseSavedCollectionItem env (queuedItem item).toItem).url =
      (nonEmpty (item.url.or item.placeUrl)).or
        (nonEmpty (findMapsUrl env (queuedItem item).toItem.payload)) := by
    rw [parse_url]
    exact congrArg _ Option.none_or
  rw [hqueued, parse_url]
  cases hgiven : nonEmpty (item.url.or item.placeUrl) with
  | none =>
      have hurl : nonEmpty item.url = none := by
        rw [nonEmpty_or] at hgiven
        by_cases habsent : item.url = none
        · rw [habsent]
          rfl
        · rwa [if_neg habsent] at hgiven
      rw [hurl, Option.none_or, Option.none_or]
      simp [eq_comm]
  | some given =>
      have hfirst : (nonEmpty item.url).or ((nonEmpty item.placeUrl).or
          (nonEmpty (findMapsUrl env item.payload))) = some given := by
        rw [nonEmpty_or] at hgiven
        by_cases habsent : item.url = none
        · rw [if_pos habsent] at hgiven
          rw [habsent, hgiven]
          rfl
        · rw [if_neg habsent] at hgiven
          rw [hgiven]
          rfl
      rw [hfirst]
      simp

/-! ### What the texts show -/

/-- The fields that are there, as a payload. -/
theorem find?_textsInFields (looksRight : String → Bool) (fields : List (String × Option String)) :
    (textsInFields (fields.filterMap fun field =>
      field.2.map fun value => (field.1, Json.string value))).find? looksRight =
        fields.findSome? fun field => field.2.filter looksRight := by
  induction fields with
  | nil => rfl
  | cons field fields ih =>
      obtain ⟨key, value⟩ := field
      cases value with
      | none => exact ih
      | some value =>
          show (value :: textsInFields (fields.filterMap fun field =>
            field.2.map fun value => (field.1, Json.string value))).find? looksRight = _
          rw [List.findSome?_cons, Option.filter_some]
          by_cases hlooks : looksRight value = true
          · rw [List.find?_cons_of_pos hlooks, if_pos hlooks]
          · rw [List.find?_cons_of_neg hlooks, if_neg hlooks, ih]

/-- The first of several fields that looks right. -/
theorem findSome?_filter_cons {α : Type} (looksRight : String → Bool) (field : α × Option String)
    (fields : List (α × Option String)) :
    (field :: fields).findSome? (fun field => field.2.filter looksRight) =
      (field.2.filter looksRight).or (fields.findSome? fun field => field.2.filter looksRight) := by
  rw [List.findSome?_cons]
  cases field.2.filter looksRight with
  | none => rfl
  | some value => rfl

theorem filter_of_any {looksRight : String → Bool} {field : Option String}
    (hany : field.any looksRight = true) : field.filter looksRight = field := by
  cases field with
  | none => rfl
  | some value => exact Option.filter_some_pos hany

theorem filter_of_not_any {looksRight : String → Bool} {field : Option String}
    (hany : field.any looksRight = false) : field.filter looksRight = none := by
  cases field with
  | none => rfl
  | some value => exact Option.filter_some_neg hany

section search

variable {looksRight : String → Bool}
  (hblank : ∀ value, looksRight value = true → trim value ≠ "")

include hblank

theorem findString_spread (item : GoogleSavedCollectionItem) :
    findString looksRight (.object item.spread) =
      (item.sourceKey.filter looksRight).or ((item.title.filter looksRight).or
        ((item.name.filter looksRight).or ((item.url.filter looksRight).or
          ((item.placeUrl.filter looksRight).or (item.googlePlaceId.filter looksRight))))) := by
  have hfound : found looksRight = looksRight := by
    funext value
    by_cases hlooks : looksRight value = true
    · have hne : value ≠ "" := by
        rintro rfl
        exact hblank _ hlooks (by decide)
      simp [found, hlooks, hne]
    · simp [found, hlooks]
  have hsearch : findString looksRight (.object item.spread) =
      (textsInFields item.spread).find? (found looksRight) :=
    findStringInFields_eq looksRight item.spread
  rw [hsearch, hfound, GoogleSavedCollectionItem.spread, find?_textsInFields]
  simp only [findSome?_filter_cons, List.findSome?_nil, Option.or_none]

/-- What the job's fields show: its source key first, then its title and its URL. -/
theorem findString_queued {item : GoogleSavedCollectionItem} (hraw : item.rawPayload = none) :
    findString looksRight (.object (queuedItem item).toItem.payload) =
      ((some item.rowKey).filter looksRight).or (((item.title.or item.name).filter looksRight).or
        ((item.url.or item.placeUrl).filter looksRight)) := by
  have hpayload : (queuedItem item).toItem.payload = (queuedItem item).toItem.spread := by
    show item.rawPayload.getD _ = _
    rw [hraw]
    rfl
  rw [hpayload, findString_spread hblank]
  simp [queuedItem, IngestJobItem.toItem]

theorem nonEmpty_ne_none {value : String} (hlooks : looksRight value = true) :
    nonEmpty (some value) ≠ none := by
  have hne : trim value ≠ "" := hblank value hlooks
  simp [nonEmpty, orNull, hne]

theorem nonEmpty_of_any {field : Option String} (hany : field.any looksRight = true) :
    nonEmpty field ≠ none := by
  cases field with
  | none => cases hany
  | some value => exact nonEmpty_ne_none hblank hany

theorem carriesFirst_iff {item : GoogleSavedCollectionItem} (hraw : item.rawPayload = none)
    (text : String) : CarriesFirst looksRight item text ↔
      some text = nonEmpty (findString looksRight (.object (queuedItem item).toItem.payload)) := by
  rw [findString_queued hblank hraw, CarriesFirst]
  cases hkey : looksRight item.rowKey with
  | true => rw [if_pos rfl, Option.filter_some_pos hkey, Option.some_or, eq_comm]
  | false =>
      rw [if_neg Bool.false_ne_true, Option.filter_some_neg hkey, Option.none_or]
      cases htitle : (item.title.or item.name).any looksRight with
      | true =>
          obtain ⟨title, hgiven, -⟩ := (Option.any_eq_true _ _).mp htitle
          rw [if_pos rfl, filter_of_any htitle, hgiven, Option.some_or, eq_comm]
      | false =>
          rw [if_neg Bool.false_ne_true, filter_of_not_any htitle, Option.none_or]
          cases hurl : (item.url.or item.placeUrl).any looksRight with
          | true => simp [filter_of_any hurl, eq_comm]
          | false => simp [filter_of_not_any hurl, nonEmpty]

omit hblank in
/-- A key that looks right without a source key that does is one of the other fields. -/
theorem key_of_looksRight {item : GoogleSavedCollectionItem} (hunknown : looksRight "unknown" = false)
    (hsource : item.sourceKey.any looksRight = false) (hkey : looksRight item.rowKey = true) :
    item.sourceKey = none ∧
      (item.url.or item.googlePlaceId).or item.title = some item.rowKey := by
  unfold GoogleSavedCollectionItem.rowKey at hkey ⊢
  cases hgiven : item.sourceKey with
  | some sourceKey =>
      rw [hgiven] at hsource hkey
      have hlooks : looksRight sourceKey = true := hkey
      rw [Option.any_some, hlooks] at hsource
      cases hsource
  | none =>
      rw [hgiven, Option.none_or] at hkey
      cases hother : (item.url.or item.googlePlaceId).or item.title with
      | none =>
          rw [hother, Option.getD_none, hunknown] at hkey
          cases hkey
      | some key => simp [hother]

/-! ### The first field that looks right -/

section first

omit hblank

variable {item : GoogleSavedCollectionItem}

theorem keepsFirst_of_sourceKey (hsource : item.sourceKey.any looksRight = true) :
    KeepsFirst looksRight item :=
  ⟨by simp [hsource], by simp [hsource], by simp [hsource], by simp [hsource]⟩

variable (hsource : item.sourceKey.any looksRight = false)

include hsource in
theorem keepsFirst_iff_of_title (htitle : item.title.any looksRight = true) :
    KeepsFirst looksRight item ↔ KeyAgrees looksRight item item.title :=
  ⟨fun h => h.title hsource htitle,
    fun h => ⟨fun _ _ => h, by simp [htitle], by simp [htitle], by simp [htitle]⟩⟩

variable (htitle : item.title.any looksRight = false)

include hsource htitle in
theorem keepsFirst_iff_of_name (hname : item.name.any looksRight = true) :
    KeepsFirst looksRight item ↔ KeyAgrees looksRight item item.name ∧
      (item.title = none ∨ (item.sourceKey = none ∧ looksRight item.rowKey = true) ∨
        ((item.url.or item.placeUrl).any looksRight = true ∧
          nonEmpty (item.url.or item.placeUrl) = nonEmpty item.name)) :=
  ⟨fun h => h.name hsource htitle hname,
    fun h => ⟨by simp [htitle], fun _ _ _ => h, by simp [hname], by simp [hname]⟩⟩

variable (hname : item.name.any looksRight = false)

include htitle hname in
theorem keepsFirst_of_url (hurl : item.url.any looksRight = true) : KeepsFirst looksRight item :=
  ⟨by simp [htitle], by simp [hname], by simp [hurl], by simp [hurl]⟩

variable (hurl : item.url.any looksRight = false)

include hsource htitle hname hurl in
theorem keepsFirst_iff_of_placeUrl (hplace : item.placeUrl.any looksRight = true) :
    KeepsFirst looksRight item ↔ item.url = none ∧ KeyAgrees looksRight item item.placeUrl :=
  ⟨fun h => h.placeUrl hsource htitle hname hurl hplace,
    fun h => ⟨by simp [htitle], by simp [hname], fun _ _ _ _ _ => h, by simp [hplace]⟩⟩

variable (hplace : item.placeUrl.any looksRight = false)

include hsource htitle hname hurl hplace in
theorem keepsFirst_iff_of_googlePlaceId (hid : item.googlePlaceId.any looksRight = true) :
    KeepsFirst looksRight item ↔ item.sourceKey = none ∧ item.url = none :=
  ⟨fun h => h.googlePlaceId hsource htitle hname hurl hplace hid,
    fun h => ⟨by simp [htitle], by simp [hname], by simp [hplace], fun _ _ _ _ _ _ => h⟩⟩

include htitle hname hplace in
theorem keepsFirst_of_none (hid : item.googlePlaceId.any looksRight = false) :
    KeepsFirst looksRight item :=
  ⟨by simp [htitle], by simp [hname], by simp [hplace], by simp [hid]⟩

/-- A key that does not look right is not found. -/
theorem keyAgrees_of_not_looksRight (hkey : looksRight item.rowKey = false)
    (field : Option String) : KeyAgrees looksRight item field := by
  intro _ hlooks
  rw [hkey] at hlooks
  cases hlooks

/-- What stands first of two fields does not look right where neither does. -/
theorem any_or_eq_false {a b : Option String} (ha : a.any looksRight = false)
    (hb : b.any looksRight = false) : (a.or b).any looksRight = false := by
  cases a with
  | none => rwa [Option.none_or]
  | some value => rwa [Option.some_or]

/-- What is filtered out of a field that looks right is the field, and what comes after it
does not count. -/
theorem filter_or_of_any {field other : Option String} (hany : field.any looksRight = true) :
    (field.filter looksRight).or other = field := by
  obtain ⟨value, hvalue, -⟩ := (Option.any_eq_true _ _).mp hany
  rw [filter_of_any hany, hvalue, Option.some_or]

end first

/-- The key of an item without a source key looks right, and the job shows it first. -/
theorem keepsFirst_iff_of_key {item : GoogleSavedCollectionItem}
    (habsent : item.sourceKey = none) (hkey : looksRight item.rowKey = true)
    (hother : (item.url.or item.googlePlaceId).or item.title = some item.rowKey) :
    KeepsFirst looksRight item ↔
      nonEmpty (findString looksRight (.object item.spread)) = nonEmpty (some item.rowKey) := by
  have hsource : item.sourceKey.any looksRight = false := by rw [habsent]; rfl
  have hagrees : ∀ field, KeyAgrees looksRight item field ↔
      nonEmpty field = nonEmpty (some item.rowKey) :=
    fun field => ⟨fun h => (h habsent hkey).symm, fun h _ _ => h.symm⟩
  have hgiven : (some item.rowKey).any looksRight = true := hkey
  rw [findString_spread hblank, filter_of_not_any hsource, Option.none_or]
  cases htitle : item.title.any looksRight with
  | true => rw [keepsFirst_iff_of_title hsource htitle, filter_or_of_any htitle, hagrees]
  | false =>
      rw [filter_of_not_any htitle, Option.none_or]
      cases hname : item.name.any looksRight with
      | true =>
          rw [keepsFirst_iff_of_name hsource htitle hname, filter_or_of_any hname, hagrees]
          exact and_iff_left (.inr (.inl ⟨habsent, hkey⟩))
      | false =>
          rw [filter_of_not_any hname, Option.none_or]
          cases hurl : item.url with
          | some url =>
              -- The URL is the key.
              rw [hurl, Option.some_or, Option.some_or] at hother
              have hlooks : item.url.any looksRight = true := by rw [hurl, hother, hgiven]
              rw [hother, filter_or_of_any hgiven]
              exact iff_of_true (keepsFirst_of_url htitle hname hlooks) rfl
          | none =>
              have hlooks : item.url.any looksRight = false := by rw [hurl]; rfl
              rw [hurl, Option.none_or] at hother
              rw [Option.filter_none, Option.none_or]
              cases hplace : item.placeUrl.any looksRight with
              | true =>
                  rw [keepsFirst_iff_of_placeUrl hsource htitle hname hlooks hplace,
                    filter_or_of_any hplace, hagrees]
                  exact and_iff_right hurl
              | false =>
                  rw [filter_of_not_any hplace, Option.none_or]
                  cases hid : item.googlePlaceId with
                  | some id =>
                      -- The id is the key.
                      rw [hid, Option.some_or] at hother
                      have hany : item.googlePlaceId.any looksRight = true := by
                        rw [hid, hother, hgiven]
                      rw [hother, filter_of_any hgiven]
                      exact iff_of_true ((keepsFirst_iff_of_googlePlaceId hsource htitle hname
                        hlooks hplace hany).mpr ⟨habsent, hurl⟩) rfl
                  | none =>
                      rw [hid, Option.none_or] at hother
                      rw [hother, hgiven] at htitle
                      cases htitle

/-- A name that is the first to look right is carried in place of a title, or repeated by the
URL. -/
theorem keepsFirst_iff_of_name_no_key {item : GoogleSavedCollectionItem}
    (hsource : item.sourceKey.any looksRight = false) (hkey : looksRight item.rowKey = false)
    (htitle : item.title.any looksRight = false) (hname : item.name.any looksRight = true) :
    KeepsFirst looksRight item ↔ nonEmpty item.name =
      nonEmpty (((item.title.or item.name).filter looksRight).or
        ((item.url.or item.placeUrl).filter looksRight)) := by
  rw [keepsFirst_iff_of_name hsource htitle hname]
  have hagrees := keyAgrees_of_not_looksRight hkey item.name
  cases hgiven : item.title with
  | none =>
      rw [Option.none_or, filter_or_of_any hname]
      exact iff_of_true ⟨hagrees, .inl rfl⟩ rfl
  | some title =>
      -- The name is behind the title.
      have hbehind : (some title).filter looksRight = none := by
        rw [← hgiven, filter_of_not_any htitle]
      rw [Option.some_or, hbehind, Option.none_or]
      cases hurl : (item.url.or item.placeUrl).any looksRight with
      | true => simp [filter_of_any hurl, hagrees, hkey, eq_comm]
      | false =>
          have hne := nonEmpty_of_any hblank hname
          simpa [filter_of_not_any hurl, nonEmpty, hkey] using hne

/-- A second URL that is the first to look right is carried in place of the first. -/
theorem keepsFirst_iff_of_placeUrl_no_key {item : GoogleSavedCollectionItem}
    (hsource : item.sourceKey.any looksRight = false) (hkey : looksRight item.rowKey = false)
    (htitle : item.title.any looksRight = false) (hname : item.name.any looksRight = false)
    (hurl : item.url.any looksRight = false) (hplace : item.placeUrl.any looksRight = true) :
    KeepsFirst looksRight item ↔
      nonEmpty item.placeUrl = nonEmpty ((item.url.or item.placeUrl).filter looksRight) := by
  rw [keepsFirst_iff_of_placeUrl hsource htitle hname hurl hplace]
  cases hgiven : item.url with
  | none =>
      rw [Option.none_or, filter_of_any hplace]
      exact iff_of_true ⟨rfl, keyAgrees_of_not_looksRight hkey _⟩ rfl
  | some url =>
      rw [Option.some_or, ← hgiven, filter_of_not_any hurl]
      refine iff_of_false (fun h => ?_) (nonEmpty_of_any hblank hplace)
      rw [hgiven] at h
      cases h.1

/-- The key of an item does not look right: the job shows its title, or else its URL. -/
theorem keepsFirst_iff_of_no_key {item : GoogleSavedCollectionItem}
    (hsource : item.sourceKey.any looksRight = false) (hkey : looksRight item.rowKey = false) :
    KeepsFirst looksRight item ↔ nonEmpty (findString looksRight (.object item.spread)) =
      nonEmpty (((item.title.or item.name).filter looksRight).or
        ((item.url.or item.placeUrl).filter looksRight)) := by
  rw [findString_spread hblank, filter_of_not_any hsource, Option.none_or]
  cases htitle : item.title.any looksRight with
  | true =>
      obtain ⟨title, hvalue, -⟩ := (Option.any_eq_true _ _).mp htitle
      have hfirst : item.title.or item.name = item.title := by rw [hvalue, Option.some_or]
      rw [filter_or_of_any htitle, hfirst, filter_or_of_any htitle]
      exact iff_of_true ((keepsFirst_iff_of_title hsource htitle).mpr
        (keyAgrees_of_not_looksRight hkey _)) rfl
  | false =>
      rw [filter_of_not_any htitle, Option.none_or]
      cases hname : item.name.any looksRight with
      | true =>
          rw [filter_or_of_any hname]
          exact keepsFirst_iff_of_name_no_key hblank hsource hkey htitle hname
      | false =>
          rw [filter_of_not_any hname, Option.none_or,
            filter_of_not_any (any_or_eq_false htitle hname), Option.none_or]
          cases hurl : item.url.any looksRight with
          | true =>
              obtain ⟨url, hvalue, -⟩ := (Option.any_eq_true _ _).mp hurl
              have hfirst : item.url.or item.placeUrl = item.url := by rw [hvalue, Option.some_or]
              rw [filter_or_of_any hurl, hfirst, filter_of_any hurl]
              exact iff_of_true (keepsFirst_of_url htitle hname hurl) rfl
          | false =>
              rw [filter_of_not_any hurl, Option.none_or]
              cases hplace : item.placeUrl.any looksRight with
              | true =>
                  rw [filter_or_of_any hplace]
                  exact keepsFirst_iff_of_placeUrl_no_key hblank hsource hkey htitle hname hurl hplace
              | false =>
                  rw [filter_of_not_any hplace, Option.none_or,
                    filter_of_not_any (any_or_eq_false hurl hplace)]
                  cases hid : item.googlePlaceId.any looksRight with
                  | true =>
                      rw [keepsFirst_iff_of_googlePlaceId hsource htitle hname hurl hplace hid,
                        filter_of_any hid]
                      refine iff_of_false (fun h => ?_) (nonEmpty_of_any hblank hid)
                      obtain ⟨id, hvalue, hlooks⟩ := (Option.any_eq_true _ _).mp hid
                      have hkeyed : item.rowKey = id := by
                        simp [GoogleSavedCollectionItem.rowKey, h.1, h.2, hvalue]
                      rw [hkeyed, hlooks] at hkey
                      cases hkey
                  | false =>
                      rw [filter_of_not_any hid]
                      exact iff_of_true (keepsFirst_of_none htitle hname hplace hid) rfl

theorem keepsFirst_iff {item : GoogleSavedCollectionItem} (hunknown : looksRight "unknown" = false)
    (hraw : item.rawPayload = none) : KeepsFirst looksRight item ↔
      nonEmpty (findString looksRight (.object item.spread)) =
        nonEmpty (findString looksRight (.object (queuedItem item).toItem.payload)) := by
  rw [findString_queued hblank hraw]
  cases hsource : item.sourceKey.any looksRight with
  | true =>
      obtain ⟨sourceKey, hvalue, hlooks⟩ := (Option.any_eq_true _ _).mp hsource
      have hkey : item.rowKey = sourceKey := by
        simp [GoogleSavedCollectionItem.rowKey, hvalue]
      rw [findString_spread hblank, filter_of_any hsource, hvalue, hkey,
        Option.filter_some_pos hlooks, Option.some_or, Option.some_or]
      exact iff_of_true (keepsFirst_of_sourceKey hsource) rfl
  | false =>
      cases hkey : looksRight item.rowKey with
      | true =>
          obtain ⟨habsent, hother⟩ := key_of_looksRight hunknown hsource hkey
          rw [Option.filter_some_pos hkey, Option.some_or]
          exact keepsFirst_iff_of_key hblank habsent hkey hother
      | false =>
          rw [Option.filter_some_neg hkey, Option.none_or]
          exact keepsFirst_iff_of_no_key hblank hsource hkey

theorem keepsFound_iff {item : GoogleSavedCollectionItem} (hunknown : looksRight "unknown" = false)
    (field : Option String) : KeepsFound looksRight item field ↔
      (nonEmpty field).or (nonEmpty (findString looksRight (.object item.payload))) =
        nonEmpty (findString looksRight (.object (queuedItem item).toItem.payload)) := by
  unfold KeepsFound
  cases hraw : item.rawPayload with
  | some raw =>
      have hpayload : item.payload = raw := by rw [GoogleSavedCollectionItem.payload, hraw]; rfl
      have hqueued : (queuedItem item).toItem.payload = raw := by
        show item.rawPayload.getD _ = raw
        rw [hraw]
        rfl
      rw [hpayload, hqueued]
      cases nonEmpty field with
      | none => simp
      | some text => simp [eq_comm]
  | none =>
      have hpayload : item.payload = item.spread := by
        rw [GoogleSavedCollectionItem.payload, hraw]
        rfl
      rw [hpayload]
      cases nonEmpty field with
      | none => exact keepsFirst_iff hblank hunknown hraw
      | some text => exact carriesFirst_iff hblank hraw text

end search

/-- Where the URL survives, the id does unless a field gives another one than it shows. -/
theorem queued_googlePlaceId_iff (hurl : (parseSavedCollectionItem env (queuedItem item).toItem).url =
    (parseSavedCollectionItem env item).url) :
    (parseSavedCollectionItem env (queuedItem item).toItem).googlePlaceId =
      (parseSavedCollectionItem env item).googlePlaceId ↔
    (∀ id, shownId env item = some id →
      nonEmpty item.googlePlaceId = none ∨ nonEmpty item.googlePlaceId = some id) ∧
    (shownId env item = none →
      (nonEmpty item.googlePlaceId).or (nonEmpty (findGooglePlaceId item.payload)) =
        nonEmpty (findGooglePlaceId (queuedItem item).toItem.payload)) := by
  have hshown : shownId env (queuedItem item).toItem = shownId env item := by
    rw [shownId_eq, shownId_eq, hurl]
  have hqueued : (parseSavedCollectionItem env (queuedItem item).toItem).googlePlaceId =
      (shownId env item).or (nonEmpty (findGooglePlaceId (queuedItem item).toItem.payload)) := by
    rw [parse_googlePlaceId, hshown]
    exact Option.none_or
  rw [hqueued, parse_googlePlaceId]
  cases hid : shownId env item with
  | none =>
      rw [Option.none_or, Option.none_or]
      simp [eq_comm]
  | some id =>
      rw [Option.some_or, Option.some_or]
      cases hgiven : nonEmpty item.googlePlaceId with
      | none => simp
      | some given => simp [eq_comm]

end survival

/-! ## An id that arrives, and one that does not -/

/-- For texts in lower case and URLs without a query. -/
def aParserEnv : ParserEnv where
  toLowerCase := id
  searchParams _ := some []
  stringify _ := "\x7b\x7d"
  sha256Hex _ := "e3b0c44298fc1c149afbf4c8996fb92427ae41e4649b934ca495991b7852b855"

/-- The source key shows the place, and the name and the link stand in for others. -/
def aSavedOpera : GoogleSavedCollectionItem where
  sourceKey := some "ChIJ3S-JXmauEmsRUcIaWtf4MzE"
  name := some "Ópera"
  placeUrl := some "https://maps.app.goo.gl/opera"

def aSavedCafe : GoogleSavedCollectionItem where
  title := some "Café"
  url := some "https://maps.app.goo.gl/cafe"
  googlePlaceId := some "ChIJN1t_tDeuEmsRUsoyG83frY4"

theorem accepted_aSavedCafe : aSavedCafe.Accepted := by
  constructor <;> decide

end Feca.Imports
