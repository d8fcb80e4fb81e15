import Feca.Collections.Blanks
import Feca.Places.NearbyHelpers
import Mathlib.Data.List.TakeWhile

/-! # The normal form of a place id

`normalizeGooglePlaceId` trims an id, decodes it and takes the name out of a
resource path, each once and in this order. Decoding may bring forth blanks and
further escapes, and so may taking out the name; whoever normalizes an id twice
relies on there being none.
-/

namespace Feca.Places

open Collections Content Social

/-! ## Trimming and decoding -/

theorem trim_eq (value : String) : trim value = String.ofList (trimBlanks isJsSpace value.toList) :=
  rfl

theorem length_trim_le (value : String) : (trim value).toList.length ≤ value.toList.length := by
  rw [trim_eq, String.toList_ofList]
  exact (trimBlanks_sublist _).length_le

theorem hexDigit_ne {c : Char} {n : Nat} (h : hexDigit c = some n) : c ≠ '%' := by
  rintro rfl
  cases h

theorem length_decodedChar_le {state : Utf8State} {out : List Char}
    (h : decodedChar state = some out) : out.length ≤ 1 := by
  unfold decodedChar at h
  split at h
  · cases h
    exact Nat.zero_le 1
  · split at h
    · cases h
      exact Nat.le_refl 1
    · cases h

/-- An escape is three characters and becomes one at most. -/
theorem length_decodeChars {state : Utf8State} {text out : List Char}
    (h : decodeChars state text = some out) : out.length + 2 * text.count '%' ≤ text.length := by
  fun_induction decodeChars state text generalizing out with
  | case1 => simp_all
  | case2 => cases h
  | case3 => cases h
  | case4 state a b rest next hnext ih =>
    obtain ⟨first, hfirst, hout⟩ := Option.bind_eq_some_iff.mp h
    obtain ⟨others, hothers, rfl⟩ := Option.map_eq_some_iff.mp hout
    obtain ⟨high, ha, hlow⟩ := Option.bind_eq_some_iff.mp hnext
    obtain ⟨low, hb, -⟩ := Option.bind_eq_some_iff.mp hlow
    have hone := length_decodedChar_le hfirst
    have hrest := ih hothers
    rw [List.count_cons_self, List.count_cons_of_ne (hexDigit_ne ha),
      List.count_cons_of_ne (hexDigit_ne hb), List.length_append]
    simp only [List.length_cons]
    omega
  | case5 => cases h
  | case6 state c rest _ hplain ih =>
    obtain ⟨others, hothers, rfl⟩ := Option.map_eq_some_iff.mp h
    rw [not_or] at hplain
    have hrest := ih hothers
    rw [List.count_cons_of_ne hplain.1]
    simp only [List.length_cons]
    omega

/-! ## Names of resources -/

/-- `/(?:^|\/)places\/([^/?#]+)/` matches behind `before` and captures `id`. -/
structure NamesAt (text before id : List Char) : Prop where
  start : before = [] ∨ before.getLast? = some '/'
  captures : ∃ rest, text = before ++ rest ∧ placesSegment rest = some id

/-- What the leftmost match captures. -/
def Names (text id : List Char) : Prop :=
  ∃ before, NamesAt text before id ∧
    ∀ before' id', NamesAt text before' id' → before.length ≤ before'.length

def resourceNameMatch (text : List Char) : Option (List Char) :=
  (placesSegment text).or (slashSegment text)

theorem placesSegment_spec {text id : List Char} (h : placesSegment text = some id) :
    '/' ∈ text ∧ '/' ∉ id ∧ id.length < text.length := by
  obtain ⟨rest, hrest, hid⟩ := Option.bind_eq_some_iff.mp h
  have htext := List.isPrefixOf?_eq_some_iff_append_eq.mp hrest
  have hcaptured : id = rest.takeWhile fun c => c ≠ '/' ∧ c ≠ '?' ∧ c ≠ '#' := by
    split at hid
    · cases hid
    · rename_i hsome
      cases hid
      rfl
  have hlength : id.length ≤ rest.length := by
    rw [hcaptured]
    exact (List.takeWhile_sublist _).length_le
  rw [← htext]
  refine ⟨by simp, ?_, ?_⟩
  · intro hmem
    rw [hcaptured] at hmem
    simpa using List.mem_takeWhile_imp hmem
  · simp only [List.length_append]
    have hseven : "places/".toList.length = 7 := rfl
    omega

/-- A match behind a slash of `c :: text` is right behind `c`, or a match in `text`. -/
theorem slash_cons {c : Char} {text before rest : List Char} (h : c :: text = before ++ rest)
    (hslash : before.getLast? = some '/') :
    (before = [c] ∧ c = '/' ∧ rest = text) ∨
      ∃ front, before = c :: front ∧ text = front ++ rest ∧ front.getLast? = some '/' := by
  cases before with
  | nil => cases hslash
  | cons first front =>
    obtain ⟨rfl, rfl⟩ := List.cons.inj h
    cases front with
    | nil =>
      left
      cases hslash
      exact ⟨rfl, rfl, rfl⟩
    | cons second front =>
      right
      rw [List.getLast?_cons_cons] at hslash
      exact ⟨second :: front, rfl, rfl, hslash⟩

theorem slashSegment_none {text : List Char} (h : slashSegment text = none)
    {before rest : List Char} (htext : text = before ++ rest)
    (hslash : before.getLast? = some '/') : placesSegment rest = none := by
  induction text generalizing before with
  | nil =>
    rw [(List.append_eq_nil_iff.mp htext.symm).1] at hslash
    cases hslash
  | cons c text ih =>
    rw [slashSegment, Option.or_eq_none_iff] at h
    rcases slash_cons htext hslash with ⟨-, hc, hrest⟩ | ⟨front, -, hfront, hlater⟩
    · rw [hrest]
      simpa [hc] using h.1
    · exact ih h.2 hfront hlater

/-- The search behind the slashes comes to the leftmost match. -/
theorem slashSegment_some {text id : List Char} (h : slashSegment text = some id) :
    ∃ before rest, text = before ++ rest ∧ before.getLast? = some '/' ∧
      placesSegment rest = some id ∧
      ∀ before' rest', text = before' ++ rest' → before'.getLast? = some '/' →
        placesSegment rest' ≠ none → before.length ≤ before'.length := by
  induction text with
  | nil => cases h
  | cons c text ih =>
    rw [slashSegment] at h
    by_cases hhere : c = '/' ∧ placesSegment text ≠ none
    · obtain ⟨hc, hsome⟩ := hhere
      obtain ⟨captured, hcaptured⟩ := Option.ne_none_iff_exists'.mp hsome
      rw [if_pos hc, hcaptured, Option.some_or] at h
      refine ⟨[c], text, rfl, by rw [hc]; rfl, hcaptured.trans h, ?_⟩
      intro before' rest' _ hslash' _
      cases before' with
      | nil => cases hslash'
      | cons first front => exact Nat.succ_le_succ (Nat.zero_le _)
    · have hskip : (if c = '/' then placesSegment text else none) = none := by
        by_cases hc : c = '/'
        · rw [if_pos hc]
          by_contra hsome
          exact hhere ⟨hc, hsome⟩
        · rw [if_neg hc]
      rw [hskip, Option.none_or] at h
      obtain ⟨before, rest, htext, hslash, hid, hfirst⟩ := ih h
      refine ⟨c :: before, rest, by rw [htext, List.cons_append], ?_, hid, ?_⟩
      · rw [List.getLast?_cons, hslash]
        rfl
      · intro before' rest' htext' hslash' hsome'
        rcases slash_cons htext' hslash' with ⟨-, hc, hrest⟩ | ⟨front, hbefore, hfront, hlater⟩
        · rw [hrest] at hsome'
          exact absurd ⟨hc, hsome'⟩ hhere
        · rw [hbefore]
          exact Nat.succ_le_succ (hfirst front rest' hfront hlater hsome')

theorem resourceNameMatch_none {text : List Char} (h : resourceNameMatch text = none)
    (before id : List Char) : ¬ NamesAt text before id := by
  rintro ⟨hstart, rest, htext, hid⟩
  rw [resourceNameMatch, Option.or_eq_none_iff] at h
  rcases hstart with rfl | hslash
  · rw [htext, List.nil_append, hid] at h
    cases h.1
  · rw [slashSegment_none h.2 htext hslash] at hid
    cases hid

theorem NamesAt.unique {text before before' id id' : List Char} (h : NamesAt text before id)
    (h' : NamesAt text before' id') (hlength : before.length = before'.length) : id = id' := by
  obtain ⟨rest, htext, hid⟩ := h.captures
  obtain ⟨rest', htext', hid'⟩ := h'.captures
  have hrest := (List.append_inj (htext.symm.trans htext') hlength).2
  rw [hrest, hid'] at hid
  exact (Option.some.inj hid).symm

theorem names_of_match {text id : List Char} (h : resourceNameMatch text = some id) :
    Names text id := by
  unfold resourceNameMatch at h
  cases hplaces : placesSegment text with
  | some captured =>
    rw [hplaces, Option.some_or] at h
    refine ⟨[], ⟨.inl rfl, text, rfl, hplaces.trans h⟩, ?_⟩
    intro before' id' _
    exact Nat.zero_le _
  | none =>
    rw [hplaces, Option.none_or] at h
    obtain ⟨before, rest, htext, hslash, hid, hfirst⟩ := slashSegment_some h
    refine ⟨before, ⟨.inr hslash, rest, htext, hid⟩, ?_⟩
    rintro before' id' ⟨hstart', rest', htext', hid'⟩
    rcases hstart' with rfl | hslash'
    · rw [htext', List.nil_append, hid'] at hplaces
      cases hplaces
    · exact hfirst before' rest' htext' hslash' (by rw [hid']; simp)

/-- The match is the leftmost one. -/
theorem names_iff {text id : List Char} : Names text id ↔ resourceNameMatch text = some id := by
  constructor
  · rintro ⟨before, hat, hfirst⟩
    cases hmatch : resourceNameMatch text with
    | none => exact absurd hat (resourceNameMatch_none hmatch before id)
    | some captured =>
      obtain ⟨before', hat', hfirst'⟩ := names_of_match hmatch
      have hlength := Nat.le_antisymm (hfirst before' captured hat') (hfirst' before id hat)
      rw [hat.unique hat' hlength]
  · exact names_of_match

theorem NamesAt.bounds {text before id : List Char} (h : NamesAt text before id) :
    '/' ∈ text ∧ '/' ∉ id ∧ id.length < text.length := by
  obtain ⟨rest, htext, hid⟩ := h.captures
  obtain ⟨hslash, hplain, hlength⟩ := placesSegment_spec hid
  rw [htext, List.length_append]
  exact ⟨List.mem_append_right before hslash, hplain, by omega⟩

theorem resourceNameMatch_bounds {text id : List Char} (h : resourceNameMatch text = some id) :
    '/' ∈ text ∧ '/' ∉ id ∧ id.length < text.length := by
  obtain ⟨before, hat, -⟩ := names_of_match h
  exact hat.bounds

/-- A name has no slash, and so no name in it. -/
theorem resourceNameMatch_name {text id : List Char} (h : resourceNameMatch text = some id) :
    resourceNameMatch id = none := by
  cases hinner : resourceNameMatch id with
  | none => rfl
  | some inner => exact absurd (resourceNameMatch_bounds hinner).1 (resourceNameMatch_bounds h).2.1

/-! ## Normalizing once -/

/-- The text the name is looked for in. -/
def decodedId (value : String) : String := (decodeURIComponent (trim value)).getD (trim value)

theorem normalizeGooglePlaceId_eq (value : String) :
    normalizeGooglePlaceId value =
      ((resourceNameMatch (decodedId value).toList).map String.ofList).getD (decodedId value) := by
  unfold normalizeGooglePlaceId
  dsimp only
  rw [← decodedId, ← resourceNameMatch]
  generalize decodedId value = text
  cases resourceNameMatch text.toList with
  | none => rw [Option.map_none, Option.getD_none]
  | some id => rw [Option.map_some, Option.getD_some]

/-- No blank is at its ends, and there is nothing to decode in it. -/
structure Plain (id : String) : Prop where
  trimmed : Trimmed isJsSpace id.toList
  unescaped : '%' ∉ id.toList ∨ decodeURIComponent id = none

theorem trim_eq_self_iff {value : String} : trim value = value ↔ Trimmed isJsSpace value.toList := by
  rw [trimmed_iff, trim_eq, ← String.toList_inj, String.toList_ofList]

theorem length_decodeURIComponent {value decoded : String}
    (h : decodeURIComponent value = some decoded) :
    decoded.toList.length + 2 * value.toList.count '%' ≤ value.toList.length := by
  obtain ⟨out, hout, rfl⟩ := Option.map_eq_some_iff.mp h
  rw [String.toList_ofList]
  exact length_decodeChars hout

theorem length_decodedId_le (value : String) :
    (decodedId value).toList.length ≤ value.toList.length := by
  have htrim := length_trim_le value
  unfold decodedId
  cases hdecoded : decodeURIComponent (trim value) with
  | none => exact htrim
  | some decoded =>
    have hlength := length_decodeURIComponent hdecoded
    rw [Option.getD_some]
    omega

/-- A text of the same length has had nothing cut off its ends. -/
theorem trim_eq_self_of_length {value : String}
    (h : value.toList.length ≤ (trim value).toList.length) : trim value = value := by
  rw [trim_eq_self_iff, trimmed_iff]
  rw [trim_eq, String.toList_ofList] at h
  exact (trimBlanks_sublist _).eq_of_length_le h

theorem decodedId_eq_self_iff {value : String} : decodedId value = value ↔ Plain value := by
  constructor
  · intro hsame
    unfold decodedId at hsame
    have htrim := length_trim_le value
    cases hdecoded : decodeURIComponent (trim value) with
    | none =>
      rw [hdecoded, Option.getD_none] at hsame
      rw [hsame] at hdecoded
      exact ⟨trim_eq_self_iff.mp hsame, .inr hdecoded⟩
    | some decoded =>
      -- Neither step has made the text shorter, so neither has done anything.
      have hlength := length_decodeURIComponent hdecoded
      rw [hdecoded, Option.getD_some] at hsame
      rw [hsame] at hlength
      have hwhole := @trim_eq_self_of_length value (by omega)
      have hnone : value.toList.count '%' = 0 := by
        rw [hwhole] at hlength
        omega
      exact ⟨trim_eq_self_iff.mp hwhole, .inl (List.count_eq_zero.mp hnone)⟩
  · rintro ⟨htrimmed, hunescaped⟩
    unfold decodedId
    rw [trim_eq_self_iff.mpr htrimmed]
    rcases hunescaped with hplain | hmalformed
    · rw [decodeURIComponent_of_not_mem hplain, Option.getD_some]
    · rw [hmalformed, Option.getD_none]

/-- Where no name is in it, an id is its own normal form just if it is plain. -/
theorem normalizeGooglePlaceId_eq_self_iff {id : String}
    (hname : resourceNameMatch id.toList = none) :
    normalizeGooglePlaceId id = id ↔ Plain id := by
  rw [← decodedId_eq_self_iff, normalizeGooglePlaceId_eq]
  constructor
  · intro hsame
    cases hmatch : resourceNameMatch (decodedId id).toList with
    | none =>
      rw [hmatch, Option.map_none, Option.getD_none] at hsame
      exact hsame
    | some name =>
      rw [hmatch, Option.map_some, Option.getD_some] at hsame
      have hshorter := (resourceNameMatch_bounds hmatch).2.2
      have hlength := length_decodedId_le id
      rw [← hsame, String.toList_ofList] at hlength
      rw [← hsame] at hshorter
      omega
  · intro hsame
    rw [hsame, hname, Option.map_none, Option.getD_none]

/-! ## Normalizing twice -/

/-- What is named in the decoded text is plain, or the text where nothing is named. -/
structure SettlesAtOnce (value : String) : Prop where
  named : ∀ id, Names (decodedId value).toList id → Plain (String.ofList id)
  unnamed : (∀ before id, ¬ NamesAt (decodedId value).toList before id) → Plain (decodedId value)

theorem normalizeGooglePlaceId_idem_iff (value : String) :
    normalizeGooglePlaceId (normalizeGooglePlaceId value) = normalizeGooglePlaceId value ↔
      SettlesAtOnce value := by
  cases hmatch : resourceNameMatch (decodedId value).toList with
  | none =>
    have hnormal : normalizeGooglePlaceId value = decodedId value := by
      rw [normalizeGooglePlaceId_eq, hmatch, Option.map_none, Option.getD_none]
    rw [hnormal, normalizeGooglePlaceId_eq_self_iff hmatch]
    constructor
    · intro hplain
      refine ⟨?_, fun _ => hplain⟩
      intro id hnames
      rw [names_iff, hmatch] at hnames
      cases hnames
    · intro hsettles
      exact hsettles.unnamed (resourceNameMatch_none hmatch)
  | some id =>
    have hnormal : normalizeGooglePlaceId value = String.ofList id := by
      rw [normalizeGooglePlaceId_eq, hmatch, Option.map_some, Option.getD_some]
    have hinner : resourceNameMatch (String.ofList id).toList = none := by
      rw [String.toList_ofList]
      exact resourceNameMatch_name hmatch
    rw [hnormal, normalizeGooglePlaceId_eq_self_iff hinner]
    obtain ⟨before, hat, hfirst⟩ := names_of_match hmatch
    constructor
    · intro hplain
      refine ⟨?_, fun hnone => absurd hat (hnone before id)⟩
      intro other hnames
      rw [names_iff, hmatch] at hnames
      rw [← Option.some.inj hnames]
      exact hplain
    · intro hsettles
      exact hsettles.named id ⟨before, hat, hfirst⟩

/-- The id a curation is looked up by is that of its place, normalized once. -/
theorem CurationRow.googlePlaceId_eq {row : CurationRow} {id : String}
    (hstored : row.place.sourcePlaceId = some id) (hsome : trim id ≠ "") :
    row.googlePlaceId = some (normalizeGooglePlaceId id) := by
  have htrimmed : trim (trim id) = trim id := by
    rw [trim_eq_self_iff, trim_eq, String.toList_ofList]
    exact trimmed_trimBlanks _
  have hsame : decodedId (trim id) = decodedId id := by
    rw [decodedId, htrimmed, ← decodedId]
  have hnonempty : orNull (trim id) = some (trim id) := if_neg hsome
  rw [CurationRow.googlePlaceId, hstored, Option.map_some, Option.bind_some, hnonempty,
    Option.map_some, normalizeGooglePlaceId_eq, normalizeGooglePlaceId_eq id, hsame]

/-- Normalizing settles an id in one pass, and the curated place is the one that has
been through the pool, just if the decoded text settles at once. -/
theorem normalized_once_iff (value : String) :
    (normalizeGooglePlaceId (normalizeGooglePlaceId value) = normalizeGooglePlaceId value ↔
      SettlesAtOnce value) ∧
    ∀ (row : CurationRow) (place : GooglePlaceSummary), row.place.sourcePlaceId = some value →
      place.googlePlaceId = value → trim value ≠ "" →
        (row.googlePlaceId = some (withNormalizedId (withNormalizedId place)).googlePlaceId ↔
          SettlesAtOnce value) := by
  refine ⟨normalizeGooglePlaceId_idem_iff value, ?_⟩
  intro row place hstored hplace hsome
  rw [CurationRow.googlePlaceId_eq hstored hsome, withNormalizedId_id, withNormalizedId_id,
    hplace, ← normalizeGooglePlaceId_idem_iff, Option.some.injEq, eq_comm]

/-- A row of the curations for a place that Google calls so. -/
def aCurationOf (googlePlaceId : String) : CurationRow where
  id := "k1"
  placeId := "p1"
  updatedAt := 0
  place :=
    { id := "p1", name := "Bar", address := "Calle 1", city := "Rosario"
      sourcePlaceId := some googlePlaceId }

def aPlaceCalled (googlePlaceId : String) : GooglePlaceSummary where
  googlePlaceId := googlePlaceId
  name := "Bar"
  address := "Calle 1"
  lat := 0
  lng := 0

theorem resource_name_settles : SettlesAtOnce " places%2FChIJ1?hl=es" :=
  ((normalized_once_iff " places%2FChIJ1?hl=es").2 (aCurationOf " places%2FChIJ1?hl=es")
    (aPlaceCalled " places%2FChIJ1?hl=es") rfl rfl (by decide)).mp (by decide)

/-- An escaped percent sign escapes what is behind it. -/
theorem escaped_escape_is_decoded_twice :
    normalizeGooglePlaceId "%2541" = "%41" ∧
      normalizeGooglePlaceId (normalizeGooglePlaceId "%2541") = "A" ∧
      normalizeGooglePlaceId (normalizeGooglePlaceId "%2541") ≠ normalizeGooglePlaceId "%2541" ∧
      (aCurationOf "%2541").googlePlaceId = some "%41" ∧
      (withNormalizedId (withNormalizedId (aPlaceCalled "%2541"))).googlePlaceId = "A" := by
  decide

end Feca.Places
