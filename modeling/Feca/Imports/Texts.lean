import Mathlib.Data.List.DropRight
import Mathlib.Data.List.Infix
import Feca.Imports.Parser

/-! # What a payload contains

The searches of the parser follow one order: that of the texts and the objects
of a payload, depth first.
-/

namespace Feca.Imports

open Places

/-! ## Blank texts -/

/-- What is left starts with a character that is kept. -/
theorem dropWhile_rdropWhile_dropWhile (p : Char → Bool) (text : List Char) :
    ((text.dropWhile p).rdropWhile p).dropWhile p = (text.dropWhile p).rdropWhile p := by
  cases hleft : (text.dropWhile p).rdropWhile p with
  | nil => rfl
  | cons c rest =>
      obtain ⟨later, hlater⟩ : c :: rest <+: text.dropWhile p :=
        hleft ▸ List.rdropWhile_prefix p (text.dropWhile p)
      have hfirst : ∀ hl, ¬ p ((text.dropWhile p).get ⟨0, hl⟩) := List.dropWhile_get_zero_not p text
      rw [← hlater] at hfirst
      have hkept : p c = false := by simpa using hfirst (Nat.succ_pos _)
      rw [List.dropWhile_cons, hkept]
      rfl

theorem trim_eq (text : String) :
    (trim text).toList = (text.toList.dropWhile isJsSpace).rdropWhile isJsSpace :=
  String.toList_ofList

theorem trim_trim (text : String) : trim (trim text) = trim text := by
  rw [← String.toList_inj, trim_eq, trim_eq, dropWhile_rdropWhile_dropWhile,
    List.rdropWhile_idempotent]

theorem nonEmpty_some (text : String) : nonEmpty (some text) = orNull (trim text) := by
  rw [nonEmpty, Option.map_some, Option.bind_some]

theorem nonEmpty_nonEmpty (value : Option String) : nonEmpty (nonEmpty value) = nonEmpty value := by
  cases value with
  | none => rfl
  | some text =>
      rw [nonEmpty_some, orNull]
      split
      · rfl
      · rename_i hleft
        rw [nonEmpty_some, trim_trim, orNull, if_neg hleft]

theorem isJsSpace_of_blank {value : String} (hblank : trim value = "") :
    ∀ c ∈ value.toList, isJsSpace c = true := by
  intro c hc
  have hnil : (value.toList.dropWhile isJsSpace).rdropWhile isJsSpace = [] := by
    rw [← trim_eq, hblank]
    rfl
  rw [← @List.takeWhile_append_dropWhile _ isJsSpace value.toList, List.mem_append] at hc
  rcases hc with hc | hc
  · exact List.mem_takeWhile_imp hc
  · exact List.rdropWhile_eq_nil_iff.mp hnil c hc

theorem mem_of_includes {text part : String} {c : Char} (h : includes text part = true)
    (hc : c ∈ part.toList) : c ∈ text.toList := by
  obtain ⟨suffix, hsuffix, hprefix⟩ := List.any_eq_true.mp h
  have hstart := List.isPrefixOf_iff_prefix.mp hprefix
  exact ((List.mem_tails _ _).mp hsuffix).subset (hstart.subset hc)

/-- A blank text is no URL. -/
theorem not_isMapsUrl_of_blank {parser : ParserEnv} {value : String} (hblank : trim value = "")
    (hlower : parser.toLowerCase value = value) : isMapsUrl parser value = false := by
  by_contra hurl
  have hmaps : includes value "google." = true := by
    have hboth := Bool.and_eq_true_iff.mp (Bool.of_not_eq_false hurl)
    rw [← hlower]
    exact hboth.1
  have hspace := isJsSpace_of_blank hblank 'g' (mem_of_includes hmaps (by decide))
  exact absurd hspace (by decide)

/-- An id starts with a capital letter, or with the escape of one. -/
theorem not_looksLikeGooglePlaceId_of_plain {value : String} (hplain : '%' ∉ value.toList)
    (hletter : 'C' ∉ value.toList) : looksLikeGooglePlaceId value = false := by
  have hstart : "ChI".toList.isPrefixOf? value.toList = none := by
    cases hvalue : value.toList with
    | nil => rfl
    | cons c rest =>
        rw [hvalue] at hletter
        have hc : ('C' == c) = false := beq_eq_false_iff_ne.mpr fun heq =>
          hletter (heq ▸ List.mem_cons_self)
        show (if 'C' == c then _ else none) = none
        rw [hc]
        rfl
  unfold looksLikeGooglePlaceId decodeGoogleValue
  rw [decodeURIComponent_of_not_mem hplain, Option.getD_some, hstart]

/-- Nor is a blank text an id. -/
theorem not_looksLikeGooglePlaceId_of_blank {value : String} (hblank : trim value = "") :
    looksLikeGooglePlaceId value = false := by
  have hspaces := isJsSpace_of_blank hblank
  exact not_looksLikeGooglePlaceId_of_plain (fun hc => absurd (hspaces _ hc) (by decide))
    fun hc => absurd (hspaces _ hc) (by decide)

/-! ## Texts -/

mutual

/-- The texts of a value, at any depth. -/
def texts : Json → List String
  | .string value => [value]
  | .array items => textsInItems items
  | .object fields => textsInFields fields
  | _ => []

def textsInItems : List Json → List String
  | [] => []
  | item :: items => texts item ++ textsInItems items

def textsInFields : JsonRecord → List String
  | [] => []
  | (_, item) :: fields => texts item ++ textsInFields fields

end

/-- The text is one that a search can find. -/
def found (predicate : String → Bool) (value : String) : Bool := predicate value && value != ""

theorem find?_found_bind_orNull (predicate : String → Bool) (values : List String) :
    (values.find? (found predicate)).bind orNull = values.find? (found predicate) := by
  cases hfound : values.find? (found predicate) with
  | none => rfl
  | some value =>
      have hvalue := List.find?_some hfound
      have hne : value ≠ "" := by
        simp only [found, Bool.and_eq_true, bne_iff_ne] at hvalue
        exact hvalue.2
      exact if_neg hne

mutual

/-- Searching a value is searching its texts. -/
theorem findString_eq (predicate : String → Bool) : ∀ value : Json,
    (findString predicate value).bind orNull = (texts value).find? (found predicate)
  | .null => rfl
  | .bool _ => rfl
  | .number _ => rfl
  | .string value => by
      by_cases hp : predicate value = true <;> by_cases hempty : value = "" <;>
        simp [findString, texts, found, hp, hempty, orNull]
  | .array items => by
      show (findStringInItems predicate items).bind orNull = _
      rw [findStringInItems_eq predicate items]
      exact find?_found_bind_orNull predicate _
  | .object fields => by
      show (findStringInFields predicate fields).bind orNull = _
      rw [findStringInFields_eq predicate fields]
      exact find?_found_bind_orNull predicate _

theorem findStringInItems_eq (predicate : String → Bool) : ∀ items : List Json,
    findStringInItems predicate items = (textsInItems items).find? (found predicate)
  | [] => rfl
  | item :: items => by
      rw [findStringInItems, textsInItems, List.find?_append, findString_eq predicate item,
        findStringInItems_eq predicate items]

theorem findStringInFields_eq (predicate : String → Bool) : ∀ fields : JsonRecord,
    findStringInFields predicate fields = (textsInFields fields).find? (found predicate)
  | [] => rfl
  | (_, item) :: fields => by
      rw [findStringInFields, textsInFields, List.find?_append, findString_eq predicate item,
        findStringInFields_eq predicate fields]

end

theorem not_looksLikeGooglePlaceId_empty : looksLikeGooglePlaceId "" = false := by decide

theorem findMapsUrl_eq (env : ParserEnv) (raw : JsonRecord) :
    findMapsUrl env raw = (textsInFields raw).find? (found (isMapsUrl env)) :=
  findStringInFields_eq (isMapsUrl env) raw

theorem found_looksLikeGooglePlaceId : found looksLikeGooglePlaceId = looksLikeGooglePlaceId := by
  funext value
  by_cases hempty : value = ""
  · rw [hempty, not_looksLikeGooglePlaceId_empty]
    rfl
  · simp [found, hempty]

theorem findGooglePlaceId_eq (raw : JsonRecord) :
    findGooglePlaceId raw = (textsInFields raw).find? looksLikeGooglePlaceId := by
  rw [← found_looksLikeGooglePlaceId]
  exact findStringInFields_eq looksLikeGooglePlaceId raw

/-! ## Objects -/

mutual

/-- The objects of a value, at any depth: each before those within it. -/
def objects : Json → List JsonRecord
  | .array items => objectsInItems items
  | .object fields => fields :: objectsInFields fields
  | _ => []

def objectsInItems : List Json → List JsonRecord
  | [] => []
  | item :: items => objects item ++ objectsInItems items

def objectsInFields : JsonRecord → List JsonRecord
  | [] => []
  | (_, item) :: fields => objects item ++ objectsInFields fields

end

mutual

/-- The candidates are those of the objects that look like one. -/
theorem collectCandidateObjects_eq (env : ParserEnv) : ∀ value : Json,
    collectCandidateObjects env value = (objects value).filter (isCandidate env)
  | .null => rfl
  | .bool _ => rfl
  | .number _ => rfl
  | .string _ => rfl
  | .array items => collectInItems_eq env items
  | .object fields => by
      rw [collectCandidateObjects, objects, List.filter_cons, collectInFields_eq env fields]

theorem collectInItems_eq (env : ParserEnv) : ∀ items : List Json,
    collectInItems env items = (objectsInItems items).filter (isCandidate env)
  | [] => rfl
  | item :: items => by
      rw [collectInItems, objectsInItems, List.filter_append, collectCandidateObjects_eq env item,
        collectInItems_eq env items]

theorem collectInFields_eq (env : ParserEnv) : ∀ fields : JsonRecord,
    collectInFields env fields = (objectsInFields fields).filter (isCandidate env)
  | [] => rfl
  | (_, item) :: fields => by
      rw [collectInFields, objectsInFields, List.filter_append,
        collectCandidateObjects_eq env item, collectInFields_eq env fields]

end

end Feca.Imports
