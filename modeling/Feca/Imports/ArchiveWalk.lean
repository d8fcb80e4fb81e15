import Feca.Collections.FirstOfEach
import Feca.Imports.Queued
import Feca.Imports.Texts

/-! # Every place of an archive once

The items that are read from an archive have different source keys, and the
places are those that its objects show, each of them once.
-/

namespace Feca.Imports

open Collections Places

variable {env : ParserEnv} {documents : List GoogleDataArchiveDocument}

/-! ## Keys -/

def isHexDigit (c : Char) : Bool := "0123456789abcdef".toList.contains c

/-- `digest("hex")` consists of hexadecimal digits in lower case. -/
def HexDigest (env : ParserEnv) : Prop :=
  ∀ text, ∀ c ∈ (env.sha256Hex text).toList, isHexDigit c = true

/-- A digest does not look like a place: it has no capital letter, and no escape of one. -/
theorem not_looksLikeGooglePlaceId_of_hex {value : String}
    (h : ∀ c ∈ value.toList, isHexDigit c = true) : looksLikeGooglePlaceId value = false :=
  not_looksLikeGooglePlaceId_of_plain (fun hc => absurd (h _ hc) (by decide))
    fun hc => absurd (h _ hc) (by decide)

theorem not_looksLikeGooglePlaceId_stableKey (hhex : HexDigest env) (values : List (Option String)) :
    looksLikeGooglePlaceId (stableKey env values) = false := by
  apply not_looksLikeGooglePlaceId_of_hex
  intro c hc
  unfold stableKey at hc
  rw [String.toList_ofList] at hc
  exact hhex _ c (List.mem_of_mem_take hc)

/-! ## Items -/

/-- An item whose key looks like a place is that place's, and the other way around. -/
structure ItemOf (candidate : JsonRecord) (key : String) (item : GoogleSavedCollectionItem) :
    Prop where
  sourceKey : item.sourceKey = some key
  googlePlaceId : item.googlePlaceId = findGooglePlaceId candidate
  place : looksLikeGooglePlaceId key = true → findGooglePlaceId candidate = some key
  key : ∀ googlePlaceId, findGooglePlaceId candidate = some googlePlaceId → key = googlePlaceId

/-- A text that is found as a URL is found as a place if it looks like one. -/
theorem findGooglePlaceId_of_findMapsUrl {candidate : JsonRecord} {url : String}
    (hurl : findMapsUrl env candidate = some url) (hlooks : looksLikeGooglePlaceId url = true) :
    findGooglePlaceId candidate ≠ none := by
  intro hnone
  rw [findGooglePlaceId_eq, List.find?_eq_none] at hnone
  rw [findMapsUrl_eq] at hurl
  exact hnone url (List.mem_of_find?_eq_some hurl) hlooks

theorem itemOf_candidateItem (hhex : HexDigest env) {source key : String} {index : Nat}
    {candidate : JsonRecord} {item : GoogleSavedCollectionItem}
    (h : candidateItem env source index candidate = some (key, item)) :
    ItemOf candidate key item := by
  unfold candidateItem at h
  dsimp only at h
  split at h
  · cases h
  · cases h
    refine ⟨rfl, rfl, fun hlooks => ?_, fun googlePlaceId hid => by rw [hid]; rfl⟩
    cases hid : findGooglePlaceId candidate with
    | some googlePlaceId => rfl
    | none =>
        rw [hid, Option.none_or] at hlooks
        cases hurl : findMapsUrl env candidate with
        | some url =>
            rw [hurl] at hlooks
            exact absurd hid (findGooglePlaceId_of_findMapsUrl hurl hlooks)
        | none =>
            rw [hurl, Option.getD_none, not_looksLikeGooglePlaceId_stableKey hhex] at hlooks
            cases hlooks

/-- An object that shows a place is an item under the id of the place. -/
theorem candidateItem_of_findGooglePlaceId (env : ParserEnv) {candidate : JsonRecord}
    {googlePlaceId : String} (h : findGooglePlaceId candidate = some googlePlaceId)
    (source : String) (index : Nat) :
    ∃ item, candidateItem env source index candidate = some (googlePlaceId, item) := by
  unfold candidateItem
  simp [h]

theorem isCandidate_of_findGooglePlaceId {candidate : JsonRecord} {googlePlaceId : String}
    (h : findGooglePlaceId candidate = some googlePlaceId) : isCandidate env candidate = true := by
  have hlooks : looksLikeGooglePlaceId googlePlaceId = true := by
    rw [findGooglePlaceId_eq] at h
    exact List.find?_some h
  have hne : googlePlaceId ≠ "" := by
    intro hempty
    rw [hempty, not_looksLikeGooglePlaceId_empty] at hlooks
    cases hlooks
  unfold isCandidate
  simp [h, orNull, hne]

/-! ## The walk -/

/-- The candidates of all documents under their source keys. -/
def keyedItems (env : ParserEnv) (documents : List GoogleDataArchiveDocument) :
    List (String × GoogleSavedCollectionItem) :=
  documents.flatMap fun document =>
    (collectCandidateObjects env document.payload).zipIdx.filterMap fun candidate =>
      candidateItem env document.source candidate.2 candidate.1

theorem mem_keyedItems {entry : String × GoogleSavedCollectionItem} :
    entry ∈ keyedItems env documents ↔ ∃ document ∈ documents, ∃ candidate index,
      (candidate, index) ∈ (collectCandidateObjects env document.payload).zipIdx ∧
        candidateItem env document.source index candidate = some entry := by
  unfold keyedItems
  rw [List.mem_flatMap]
  constructor
  · rintro ⟨document, hdocument, hentry⟩
    obtain ⟨candidate, hcandidate, hitem⟩ := List.mem_filterMap.mp hentry
    exact ⟨document, hdocument, candidate.1, candidate.2, hcandidate, hitem⟩
  · rintro ⟨document, hdocument, candidate, index, hcandidate, hitem⟩
    exact ⟨document, hdocument, List.mem_filterMap.mpr ⟨(candidate, index), hcandidate, hitem⟩⟩

/-- The items are the first of each key. -/
theorem withoutSeen_eq (seen : List String) (entries : List (String × GoogleSavedCollectionItem)) :
    withoutSeen seen entries = (firstOfEach seen entries).map Prod.snd := by
  induction entries generalizing seen with
  | nil => rfl
  | cons entry entries ih =>
      obtain ⟨key, item⟩ := entry
      unfold withoutSeen firstOfEach
      by_cases hseen : key ∈ seen
      · rw [if_pos (List.contains_iff_mem.mpr hseen), if_pos hseen, ih]
      · rw [if_neg (fun h => hseen (List.contains_iff_mem.mp h)), if_neg hseen, ih, List.map_cons]

/-- The entries that become items. -/
def listedItems (env : ParserEnv) (documents : List GoogleDataArchiveDocument) :
    List (String × GoogleSavedCollectionItem) := firstOfEach [] (keyedItems env documents)

theorem parse_eq_listedItems (env : ParserEnv) (documents : List GoogleDataArchiveDocument) :
    parseSavedCollectionArchiveDocuments env documents =
      (listedItems env documents).map Prod.snd := withoutSeen_eq [] _

theorem itemOf_of_mem_listedItems (hhex : HexDigest env)
    {entry : String × GoogleSavedCollectionItem} (h : entry ∈ listedItems env documents) :
    ∃ document ∈ documents, ∃ candidate ∈ objects document.payload,
      ItemOf candidate entry.1 entry.2 := by
  have hmem := (firstOfEach_sublist [] (keyedItems env documents)).subset h
  obtain ⟨document, hdocument, candidate, index, hcandidate, hitem⟩ := mem_keyedItems.mp hmem
  have hcollected := List.fst_mem_of_mem_zipIdx hcandidate
  rw [collectCandidateObjects_eq, List.mem_filter] at hcollected
  exact ⟨document, hdocument, candidate, hcollected.1, itemOf_candidateItem hhex hitem⟩

theorem sourceKeys_listedItems (hhex : HexDigest env) :
    (listedItems env documents).map (·.2.sourceKey) = (listedItems env documents).map (some ·.1) := by
  apply List.map_congr_left
  intro entry hentry
  obtain ⟨document, -, candidate, -, hitem⟩ := itemOf_of_mem_listedItems hhex hentry
  exact hitem.sourceKey

theorem googlePlaceId_iff_key (hhex : HexDigest env) {googlePlaceId : String}
    (hlooks : looksLikeGooglePlaceId googlePlaceId = true)
    {entry : String × GoogleSavedCollectionItem} (h : entry ∈ listedItems env documents) :
    entry.2.googlePlaceId = some googlePlaceId ↔ entry.1 = googlePlaceId := by
  obtain ⟨document, -, candidate, -, hitem⟩ := itemOf_of_mem_listedItems hhex h
  rw [hitem.googlePlaceId]
  constructor
  · exact hitem.key googlePlaceId
  · rintro rfl
    exact hitem.place hlooks

/-- The items have keys of their own, and their places are those that the objects
of the documents show first, each in one item. -/
structure FindsEveryPlaceOnce (documents : List GoogleDataArchiveDocument)
    (items : List GoogleSavedCollectionItem) : Prop where
  distinct : (items.map (·.sourceKey)).Nodup
  every : ∀ document ∈ documents, ∀ object ∈ objects document.payload, ∀ googlePlaceId,
    (textsInFields object).find? looksLikeGooglePlaceId = some googlePlaceId →
      items.countP (·.googlePlaceId == some googlePlaceId) = 1
  only : ∀ item ∈ items, ∀ googlePlaceId, item.googlePlaceId = some googlePlaceId →
    ∃ document ∈ documents, ∃ object ∈ objects document.payload,
      (textsInFields object).find? looksLikeGooglePlaceId = some googlePlaceId

theorem key_mem_listedItems (env : ParserEnv) {document : GoogleDataArchiveDocument}
    (hdocument : document ∈ documents) {object : JsonRecord}
    (hobject : object ∈ objects document.payload) {googlePlaceId : String}
    (hid : findGooglePlaceId object = some googlePlaceId) :
    googlePlaceId ∈ (listedItems env documents).map Prod.fst := by
  have hcollected : object ∈ collectCandidateObjects env document.payload := by
    rw [collectCandidateObjects_eq, List.mem_filter]
    exact ⟨hobject, isCandidate_of_findGooglePlaceId hid⟩
  obtain ⟨index, hget⟩ := List.getElem?_of_mem hcollected
  have hindex : (object, index) ∈ (collectCandidateObjects env document.payload).zipIdx :=
    List.mem_zipIdx_iff_getElem?.mpr hget
  obtain ⟨item, hitem⟩ := candidateItem_of_findGooglePlaceId env hid document.source index
  rw [listedItems, mem_keys_firstOfEach]
  refine ⟨?_, List.not_mem_nil⟩
  have hmem := mem_keyedItems.mpr ⟨document, hdocument, object, index, hindex, hitem⟩
  exact List.mem_map_of_mem hmem

theorem archive_walk_finds_every_place_once (hhex : HexDigest env)
    (documents : List GoogleDataArchiveDocument) :
    FindsEveryPlaceOnce documents (parseSavedCollectionArchiveDocuments env documents) := by
  rw [parse_eq_listedItems]
  constructor
  · have hkeys := nodup_keys_firstOfEach [] (keyedItems env documents)
    rw [List.map_map]
    show ((listedItems env documents).map (·.2.sourceKey)).Nodup
    rw [sourceKeys_listedItems hhex]
    have hsome := hkeys.map (Option.some_injective String)
    rwa [List.map_map] at hsome
  · intro document hdocument object hobject googlePlaceId hid
    have hlooks := List.find?_some hid
    rw [← findGooglePlaceId_eq] at hid
    have hmem := key_mem_listedItems env hdocument hobject hid
    have hone := List.count_eq_one_of_mem (nodup_keys_firstOfEach [] (keyedItems env documents)) hmem
    rw [List.count, List.countP_map] at hone
    rw [List.countP_map, ← hone]
    apply List.countP_congr
    intro entry hentry
    have hiff := googlePlaceId_iff_key hhex hlooks hentry
    simpa using hiff
  · intro item hitem googlePlaceId hid
    obtain ⟨entry, hentry, rfl⟩ := List.mem_map.mp hitem
    obtain ⟨document, hdocument, candidate, hcandidate, hof⟩ :=
      itemOf_of_mem_listedItems hhex hentry
    refine ⟨document, hdocument, candidate, hcandidate, ?_⟩
    rw [← findGooglePlaceId_eq, ← hof.googlePlaceId]
    exact hid

theorem hexDigest_aParserEnv : HexDigest aParserEnv := by
  intro text c hc
  have hall : (aParserEnv.sha256Hex "").toList.all isHexDigit = true := by decide
  exact List.all_eq_true.mp hall c hc

/-- One place in two documents, in a record within a list. -/
def twoDocuments : List GoogleDataArchiveDocument :=
  [{ source := "saved/list.json"
     payload := .array [.object
      [("title", .string "ópera"), ("place", .object [("id", .string "ChIJ3S-JXmauEmsRUcIaWtf4MzE")])]] },
    { source := "reviews.json"
      payload := .object [("id", .string "ChIJ3S-JXmauEmsRUcIaWtf4MzE")] }]

theorem two_documents_have_every_place_once :
    FindsEveryPlaceOnce twoDocuments
      (parseSavedCollectionArchiveDocuments aParserEnv twoDocuments) :=
  archive_walk_finds_every_place_once hexDigest_aParserEnv twoDocuments

end Feca.Imports
