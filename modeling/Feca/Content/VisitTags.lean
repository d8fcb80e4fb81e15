import Feca.Collections.Blanks
import Feca.Collections.FirstOfEach
import Feca.Concurrency.Part
import Feca.Content.Schema
import Feca.Relational.Upsert

/-! # Tags of visits

A visit may have tags of its author's own. They are brought to one spelling:
trimmed, single blanks, at most thirty-two units, a capital first. The visit, the
author's tags and the author's tags of the place are written one after the other,
and each of them brings the tag to its spelling once more.
-/

namespace Feca.Content

open Collections Concurrency Concurrency.Prog Relational Social

/-- A text by its UTF-16 code units: a cut may fall between two of one character. -/
abbrev JsText := List UInt16

/-- `\s`, and what `trim` removes. -/
def isBlankUnit (unit : UInt16) : Bool :=
  let n := unit.toNat
  (9 ≤ n && n ≤ 13) || n == 0x20 || n == 0xA0 || n == 0x1680 || (0x2000 ≤ n && n ≤ 0x200A) ||
    n == 0x2028 || n == 0x2029 || n == 0x202F || n == 0x205F || n == 0x3000 || n == 0xFEFF

def SPACE : UInt16 := 0x20

def MAX_TAG_LENGTH : Nat := 32

/-- What the runtime knows of letters. A capital is its own capital, and no letter
has a blank for one; some have more than one unit. -/
structure LetterCase where
  /-- `toUpperCase` of a text of one unit. -/
  toUpperCase : UInt16 → JsText
  toLowerCase : JsText → JsText
  upper_ne_nil : ∀ unit, toUpperCase unit ≠ []
  upper_blank : ∀ unit, isBlankUnit unit = false → ∀ u ∈ toUpperCase unit, isBlankUnit u = false
  upper_upper : ∀ unit, ∀ u ∈ toUpperCase unit, toUpperCase u = [u]

variable (letters : LetterCase)

/-- `capped.charAt(0).toUpperCase() + capped.slice(1)`. -/
def capitalize : JsText → JsText
  | [] => []
  | unit :: rest => letters.toUpperCase unit ++ rest

/-- `raw.trim().replace(/\s+/g, " ")`. -/
def singleBlanks (raw : JsText) : JsText := squeeze isBlankUnit SPACE raw

def normalizeVisitPlaceTag (raw : JsText) : Option JsText :=
  match singleBlanks raw with
  | [] => none
  | unit :: rest => some (capitalize letters ((unit :: rest).take MAX_TAG_LENGTH))

/-- The rest of the loop: the keys it has seen, and what it has collected. -/
def collectTags (seen next : List JsText) : List JsText → List JsText
  | [] => next
  | item :: raw =>
      match normalizeVisitPlaceTag letters item with
      | none => collectTags seen next raw
      | some normalized =>
          if letters.toLowerCase normalized ∈ seen then collectTags seen next raw
          else if next.length + 1 ≥ 20 then next ++ [normalized]
          else collectTags (letters.toLowerCase normalized :: seen) (next ++ [normalized]) raw

def normalizeVisitPlaceTags : Option (List JsText) → List JsText
  | none => []
  | some raw => collectTags letters [] [] raw

/-! ## A projection -/

/-- The spelling of a text is its own spelling, neither empty nor too long, and trimmed. -/
structure SpelledOnce (label : JsText) : Prop where
  stable : normalizeVisitPlaceTag letters label = some label
  nonempty : label ≠ []
  trimmed : trimBlanks isBlankUnit label = label
  short : label.length ≤ MAX_TAG_LENGTH

/-- The cut leaves no blank at the end, and the capital no more units than there
is room for. -/
structure CutsCleanly (raw : JsText) : Prop where
  blank : ∀ unit ∈ ((singleBlanks raw).take MAX_TAG_LENGTH).getLast?, isBlankUnit unit = false
  capital : (capitalize letters ((singleBlanks raw).take MAX_TAG_LENGTH)).length ≤ MAX_TAG_LENGTH

theorem singleBlanks_of_normal {text : JsText} (htrimmed : Trimmed isBlankUnit text)
    (hcollapsed : Collapsed isBlankUnit SPACE text) : singleBlanks text = text :=
  squeeze_of_normal htrimmed hcollapsed

variable {letters}

theorem normalizeVisitPlaceTag_some {raw label : JsText}
    (h : normalizeVisitPlaceTag letters raw = some label) :
    ∃ unit rest, (singleBlanks raw).take MAX_TAG_LENGTH = unit :: rest ∧
      isBlankUnit unit = false ∧ label = letters.toUpperCase unit ++ rest := by
  unfold normalizeVisitPlaceTag at h
  have htrimmed : Trimmed isBlankUnit (singleBlanks raw) := trimmed_squeeze raw
  split at h
  · cases h
  · rename_i unit rest hraw
    cases h
    refine ⟨unit, rest.take 31, by rw [hraw]; rfl, htrimmed.head unit (by rw [hraw]; rfl), rfl⟩

/-- A text that is squeezed, short and begins with a capital is its own spelling. -/
theorem normalizeVisitPlaceTag_of_normal {unit : UInt16} {rest : JsText}
    (htrimmed : Trimmed isBlankUnit (unit :: rest))
    (hcollapsed : Collapsed isBlankUnit SPACE (unit :: rest))
    (hshort : (unit :: rest).length ≤ MAX_TAG_LENGTH) (hcapital : letters.toUpperCase unit = [unit]) :
    normalizeVisitPlaceTag letters (unit :: rest) = some (unit :: rest) := by
  rw [normalizeVisitPlaceTag, singleBlanks_of_normal htrimmed hcollapsed]
  dsimp only
  rw [List.take_of_length_le hshort, capitalize, hcapital]
  rfl

/-- The spelling of a text is its own spelling exactly when the text is cut cleanly. -/
theorem spelledOnce_iff {raw label : JsText} (h : normalizeVisitPlaceTag letters raw = some label) :
    SpelledOnce letters label ↔ CutsCleanly letters raw := by
  obtain ⟨unit, rest, hcapped, hletter, rfl⟩ := normalizeVisitPlaceTag_some h
  have hupper := letters.upper_blank unit hletter
  have hne := letters.upper_ne_nil unit
  have hcapital : capitalize letters ((singleBlanks raw).take MAX_TAG_LENGTH) =
      letters.toUpperCase unit ++ rest := by rw [hcapped, capitalize]
  have hcollapsed : Collapsed isBlankUnit SPACE (unit :: rest) := by
    rw [← hcapped]
    exact (collapsed_squeeze raw).take MAX_TAG_LENGTH
  constructor
  · intro hspelled
    refine ⟨?_, ?_⟩
    · rw [hcapped]
      intro last hlast
      cases rest with
      | nil =>
        cases hlast
        exact hletter
      | cons second rest =>
        have htrimmed : Trimmed isBlankUnit (letters.toUpperCase unit ++ second :: rest) :=
          trimmed_iff.mpr hspelled.trimmed
        apply htrimmed.last
        rw [List.getLast?_append_of_ne_nil _ (List.cons_ne_nil second rest)]
        exact hlast
    · rw [hcapital]
      exact hspelled.short
  · intro hclean
    have hlast := hclean.blank
    rw [hcapped] at hlast
    have htrimmed : Trimmed isBlankUnit (letters.toUpperCase unit ++ rest) :=
      Trimmed.replaceHead hlast hne hupper
    have hall : Collapsed isBlankUnit SPACE (letters.toUpperCase unit ++ rest) :=
      hcollapsed.replaceHead hupper
    have hshort : (letters.toUpperCase unit ++ rest).length ≤ MAX_TAG_LENGTH := by
      rw [← hcapital]
      exact hclean.capital
    refine ⟨?_, by simp [hne], trimmed_iff.mp htrimmed, hshort⟩
    cases hupperUnit : letters.toUpperCase unit with
    | nil => exact absurd hupperUnit hne
    | cons capital more =>
      have hcapitalOnce : letters.toUpperCase capital = [capital] :=
        letters.upper_upper unit capital (by rw [hupperUnit]; exact List.mem_cons_self)
      rw [hupperUnit] at htrimmed hall hshort
      exact normalizeVisitPlaceTag_of_normal htrimmed hall hshort hcapitalOnce

/-- A label begins with a capital. -/
theorem normalizeVisitPlaceTag_begins {raw label : JsText}
    (h : normalizeVisitPlaceTag letters raw = some label) :
    ∃ unit rest, label = unit :: rest ∧ isBlankUnit unit = false ∧
      letters.toUpperCase unit = [unit] := by
  obtain ⟨first, rest, -, hletter, rfl⟩ := normalizeVisitPlaceTag_some h
  cases hupper : letters.toUpperCase first with
  | nil => exact absurd hupper (letters.upper_ne_nil first)
  | cons unit more =>
    have hmem : unit ∈ letters.toUpperCase first := by
      rw [hupper]
      exact List.mem_cons_self
    exact ⟨unit, more ++ rest, rfl, letters.upper_blank first hletter unit hmem,
      letters.upper_upper first unit hmem⟩

theorem singleBlanks_begins {unit : UInt16} (hletter : isBlankUnit unit = false) (rest : JsText) :
    ∃ others, singleBlanks (unit :: rest) = unit :: others :=
  squeeze_cons hletter rest

/-- A text that begins with a capital is only cut. -/
theorem normalizeVisitPlaceTag_of_capital {unit : UInt16} {rest : JsText}
    (hletter : isBlankUnit unit = false) (hcapital : letters.toUpperCase unit = [unit]) :
    normalizeVisitPlaceTag letters (unit :: rest) =
      some ((singleBlanks (unit :: rest)).take MAX_TAG_LENGTH) := by
  obtain ⟨others, hsingle⟩ := singleBlanks_begins hletter rest
  rw [normalizeVisitPlaceTag, hsingle]
  dsimp only [MAX_TAG_LENGTH]
  rw [List.take_succ_cons, capitalize, hcapital]
  rfl

/-- A short text that begins with a capital is not cut. -/
theorem cutsCleanly_of_capital {unit : UInt16} {rest : JsText}
    (hletter : isBlankUnit unit = false) (hcapital : letters.toUpperCase unit = [unit])
    (hshort : (unit :: rest).length ≤ MAX_TAG_LENGTH) : CutsCleanly letters (unit :: rest) := by
  have hwhole : (singleBlanks (unit :: rest)).take MAX_TAG_LENGTH = singleBlanks (unit :: rest) :=
    List.take_of_length_le ((length_squeeze_le _).trans hshort)
  constructor
  · rw [hwhole]
    exact (trimmed_squeeze (unit :: rest)).last
  · obtain ⟨others, hsingle⟩ := singleBlanks_begins hletter rest
    have hlength : (singleBlanks (unit :: rest)).length ≤ MAX_TAG_LENGTH :=
      (length_squeeze_le _).trans hshort
    rw [hwhole, hsingle, capitalize, hcapital]
    rwa [hsingle] at hlength

/-- Whatever the text, its third spelling is its own. -/
theorem spelledOnce_of_thrice {raw once twice label : JsText}
    (honce : normalizeVisitPlaceTag letters raw = some once)
    (htwice : normalizeVisitPlaceTag letters once = some twice)
    (hthrice : normalizeVisitPlaceTag letters twice = some label) : SpelledOnce letters label := by
  -- the first capital makes the text longer, if any does; the second spelling is short
  have hshort : twice.length ≤ MAX_TAG_LENGTH := by
    obtain ⟨unit, rest, rfl, hletter, hcapital⟩ := normalizeVisitPlaceTag_begins honce
    rw [normalizeVisitPlaceTag_of_capital hletter hcapital] at htwice
    cases htwice
    exact List.length_take_le _ _
  obtain ⟨unit, rest, rfl, hletter, hcapital⟩ := normalizeVisitPlaceTag_begins htwice
  exact (spelledOnce_iff hthrice).mpr (cutsCleanly_of_capital hletter hcapital hshort)

/-! ## The labels of a visit -/

variable (letters) in
/-- The labels of texts, each with what it is compared by. -/
def keyedLabels (raw : List JsText) : List (JsText × JsText) :=
  raw.filterMap fun item =>
    (normalizeVisitPlaceTag letters item).map fun label => (letters.toLowerCase label, label)

variable (letters) in
/-- A text gives a visit its label: no text before it has that label in any case, and
those before have fewer than twenty labels. -/
def GivesLabel (texts : List JsText) (raw label : JsText) : Prop :=
  normalizeVisitPlaceTag letters raw = some label ∧ ∃ before after, texts = before ++ raw :: after ∧
    letters.toLowerCase label ∉ (keyedLabels letters before).map Prod.fst ∧
    (firstOfEach [] (keyedLabels letters before)).length < 20

/-- The loop keeps the first label of each key, until there are twenty. -/
theorem collectTags_eq {seen next : List JsText} (raw : List JsText) (hroom : next.length < 20) :
    collectTags letters seen next raw =
      next ++ ((firstOfEach seen (keyedLabels letters raw)).map Prod.snd).take
        (20 - next.length) := by
  induction raw generalizing seen next with
  | nil => simp [collectTags, keyedLabels, firstOfEach]
  | cons item raw ih =>
    rw [collectTags, keyedLabels, List.filterMap_cons]
    cases hitem : normalizeVisitPlaceTag letters item with
    | none => exact ih hroom
    | some label =>
      dsimp only [Option.map_some]
      by_cases hseen : letters.toLowerCase label ∈ seen
      · rw [if_pos hseen, firstOfEach_seen hseen]
        exact ih hroom
      · obtain ⟨room, hleft⟩ := Nat.exists_eq_add_of_lt hroom
        have hleft' : 20 - next.length = room + 1 := by omega
        rw [if_neg hseen, firstOfEach_new hseen, hleft', List.map_cons, List.take_succ_cons]
        by_cases hlast : next.length + 1 ≥ 20
        · obtain rfl : room = 0 := by omega
          rw [if_pos hlast, List.take_zero]
        · rw [if_neg hlast, ih (by rw [List.length_append, List.length_singleton]; omega),
            List.append_assoc, List.length_append, List.length_singleton]
          rw [show 20 - (next.length + 1) = room by omega]
          rfl

/-- The labels of a visit are those its texts give it. -/
theorem mem_normalizeVisitPlaceTags {texts : Option (List JsText)} {label : JsText} :
    label ∈ normalizeVisitPlaceTags letters texts ↔
      ∃ raw, GivesLabel letters (texts.getD []) raw label := by
  have heq : normalizeVisitPlaceTags letters texts =
      ((firstOfEach [] (keyedLabels letters (texts.getD []))).map Prod.snd).take 20 := by
    cases texts with
    | none => rfl
    | some texts => exact collectTags_eq texts (by decide)
  rw [heq, ← List.map_take, List.mem_map]
  constructor
  · rintro ⟨⟨key, kept⟩, hmem, rfl⟩
    obtain ⟨before, after, hsplit, -, hfirst, hfew⟩ := mem_take_firstOfEach.mp hmem
    obtain ⟨front, rest, htexts, rfl, hrest⟩ := List.filterMap_eq_append_iff.mp hsplit
    obtain ⟨skipped, raw, more, rfl, hskipped, hraw, -⟩ := List.filterMap_eq_cons_iff.mp hrest
    obtain ⟨label, hlabel, hkey⟩ := Option.map_eq_some_iff.mp hraw
    cases hkey
    have hnone : keyedLabels letters skipped = [] := by
      rw [keyedLabels, List.filterMap_eq_nil_iff]
      exact hskipped
    have hbefore : keyedLabels letters (front ++ skipped) = keyedLabels letters front := by
      rw [keyedLabels, List.filterMap_append, ← keyedLabels, ← keyedLabels, hnone, List.append_nil]
    refine ⟨raw, hlabel, front ++ skipped, more, ?_, ?_, ?_⟩
    · rw [htexts, List.append_assoc]
    · rw [hbefore]
      exact hfirst
    · rw [hbefore]
      exact hfew
  · rintro ⟨raw, hlabel, before, after, htexts, hfirst, hfew⟩
    refine ⟨(letters.toLowerCase label, label), mem_take_firstOfEach.mpr
      ⟨keyedLabels letters before, keyedLabels letters after, ?_, List.not_mem_nil, hfirst, hfew⟩,
      rfl⟩
    rw [htexts, keyedLabels, List.filterMap_append, List.filterMap_cons, hlabel]
    rfl

/-! ## The tables -/

structure UserVisitPlaceTag where
  userId : Id
  label : JsText
  updatedAt : Date

structure UserPlaceVisitDetailTag where
  userId : Id
  placeId : Id
  label : JsText
  updatedAt : Date

def UserVisitPlaceTag.touch (now : Date) (row : UserVisitPlaceTag) : UserVisitPlaceTag :=
  { row with updatedAt := now }

def UserPlaceVisitDetailTag.touch (now : Date) (row : UserPlaceVisitDetailTag) :
    UserPlaceVisitDetailTag := { row with updatedAt := now }

/-- `@@unique([userId, label])`. -/
instance : UniqueColumns UserVisitPlaceTag where
  conflicts a b := (a.userId, a.label) == (b.userId, b.label)
  conflicts_self _ := by simp
  conflicts_symm _ _ := BEq.comm

/-- `@@unique([userId, placeId, label])`. -/
instance : UniqueColumns UserPlaceVisitDetailTag where
  conflicts a b := (a.userId, a.placeId, a.label) == (b.userId, b.placeId, b.label)
  conflicts_self _ := by simp
  conflicts_symm _ _ := BEq.comm

/-- What a request says of a visit, and a row keeps as it is. -/
structure VisitDetails where
  rating : Int
  note : String := ""
  tags : List String := []
  orderedItems : Option String := none
  wouldReturn : Option VisitWouldReturn := none
  noiseLevel : Option Int := none
  wifiQuality : Option Int := none
  waitLevel : Option Int := none
  priceTier : Option Int := none
  photoUrls : List String := []
  hasParking : Option Bool := none
  petFriendly : Option Bool := none
  visitedAt : Date
  deriving DecidableEq

structure CreateVisitDto extends VisitDetails where
  placeId : Option String := none
  googlePlaceId : Option String := none
  placeName : Option String := none
  placeAddress : Option String := none
  placeDetailTags : Option (List JsText) := none

structure TaggedVisit extends VisitDetails where
  id : Id
  placeId : Id
  userId : Id
  placeDetailTags : List JsText
  createdAt : Date
  deriving DecidableEq

/-- `@id` on `Visit`. -/
instance : UniqueColumns TaggedVisit where
  conflicts a b := a.id == b.id
  conflicts_self _ := by simp
  conflicts_symm a b := by rw [BEq.comm (a := a.id)]

/-- The tables of visits and tags; what else there is, users and places among it, is
the world. -/
structure VisitsDb (ω : Type) where
  visits : Table TaggedVisit
  userVisitPlaceTags : Table UserVisitPlaceTag
  userPlaceVisitDetailTags : Table UserPlaceVisitDetailTag
  world : ω

/-- The place of a visit, as `visitInclude` reads it. -/
structure VisitedPlace where
  name : String
  sourcePlaceId : Option String

structure PlaceCreationContext where
  city : String
  cityId : Option Id
  lat : Option Rat
  lng : Option Rat

structure CreateManualPlaceInput where
  address : String
  city : String
  cityId : Id
  lat : Option Rat
  lng : Option Rat
  name : String

/-- What the service is constructed with, and what the foreign keys look at. -/
structure VisitCollaborators (ω : Type) where
  hasUser : ω → Id → Bool
  findPlace : ω → Id → Option VisitedPlace
  /-- `placesRepository.getPlaceById`. -/
  getPlaceById : Id → Prog ω Empty Failure (Option Id)
  /-- `placesService.resolve` for a place of Google's. -/
  resolve : String → Prog ω Empty Failure Id
  getUserPlaceCreationContext : Id → Prog ω Empty Failure (Option PlaceCreationContext)
  createManualPlace : CreateManualPlaceInput → Prog ω Empty Failure Id
  getActivityVisibility : Id → Prog ω Empty Failure ContentVisibility
  listFollowerIds : Id → Prog ω Empty Failure (List Id)
  publish : Push.PublishNotificationInput → Prog ω Empty Failure Unit

/-- The clock of a call and the id of its visit. -/
structure VisitEnv where
  now : Date
  visitId : Id

variable {ω : Type}

abbrev VisitProg (ω : Type) := Prog (VisitsDb ω) Empty Failure

def VisitsDb.worldPart : Part (VisitsDb ω) ω where
  get := VisitsDb.world
  set world s := { s with world }
  get_set _ _ := rfl

def VisitsDb.inWorld {α : Type} (p : Prog ω Empty Failure α) : VisitProg ω α :=
  p.onPart VisitsDb.worldPart

/-! ## Creating a visit -/

variable (letters) (services : VisitCollaborators ω) (env : VisitEnv)

def resolvePlaceForVisit (userId : Id) (input : CreateVisitDto) : Prog ω Empty Failure Id :=
  match input.placeId.bind orNull, input.googlePlaceId.bind orNull with
  | some placeId, _ => do
      match ← services.getPlaceById placeId with
      | none => .fail (.http (NotFoundException "Place not found"))
      | some place => pure place
  | none, some googlePlaceId => services.resolve (trim googlePlaceId)
  | none, none =>
      match orNull (trim (input.placeName.getD "")), orNull (trim (input.placeAddress.getD "")) with
      | some name, some address => do
          match ← services.getUserPlaceCreationContext userId with
          | some { city, cityId := some cityId, lat, lng } =>
              if city = "" ∨ cityId = "" then noCanonicalCity
              else services.createManualPlace { address, city, cityId, lat, lng, name }
          | _ => noCanonicalCity
      | _, _ => .fail (.http
          { status := 422
            message := "placeName and placeAddress are required when creating a manual visit" })
where
  noCanonicalCity : Prog ω Empty Failure Id := .fail (.http
    { status := 422
      message := "Cannot create a manual place without a canonical city in the user profile" })

def CreateVisitDto.row (userId placeId : Id) (placeDetailTags : List JsText)
    (input : CreateVisitDto) : TaggedVisit :=
  { input.toVisitDetails with
    id := env.visitId
    placeId, userId, placeDetailTags
    createdAt := env.now }

/-- `visit.create` with `visitInclude`: the row, and its place. -/
def createVisit (row : TaggedVisit) : VisitProg ω (TaggedVisit × VisitedPlace) :=
  stmt fun s =>
    match services.hasUser s.world row.userId, services.findPlace s.world row.placeId with
    | true, some place =>
        match s.visits.insert row with
        | some visits => ⟨{ s with visits }, [], .ok (row, place)⟩
        | none => ⟨s, [], .error (.database uniqueViolation)⟩
    | _, _ => ⟨s, [], .error (.database foreignKeyViolation)⟩

def upsertUserTag (userId : Id) (rawLabel : JsText) : VisitProg ω (Option JsText) :=
  match normalizeVisitPlaceTag letters rawLabel with
  | none => pure none
  | some label => stmt fun s =>
      if services.hasUser s.world userId then
        let row : UserVisitPlaceTag := { userId, label, updatedAt := env.now }
        ⟨{ s with userVisitPlaceTags := s.userVisitPlaceTags.upsertRow row (·.touch env.now) }, [],
          .ok (some label)⟩
      else ⟨s, [], .error (.database foreignKeyViolation)⟩

def upsertPlaceTag (userId placeId : Id) (rawLabel : JsText) : VisitProg ω (Option JsText) :=
  match normalizeVisitPlaceTag letters rawLabel with
  | none => pure none
  | some label => stmt fun s =>
      if services.hasUser s.world userId && (services.findPlace s.world placeId).isSome then
        let row : UserPlaceVisitDetailTag := { userId, placeId, label, updatedAt := env.now }
        ⟨{ s with userPlaceVisitDetailTags :=
            s.userPlaceVisitDetailTags.upsertRow row (·.touch env.now) }, [], .ok (some label)⟩
      else ⟨s, [], .error (.database foreignKeyViolation)⟩

def upsertTagsForVisit (userId placeId : Id) : List JsText → VisitProg ω Unit
  | [] => pure ()
  | rawLabel :: labels => do
      match ← upsertUserTag letters services env userId rawLabel with
      | none => upsertTagsForVisit userId placeId labels
      | some label => do
          let _ ← upsertPlaceTag letters services env userId placeId label
          upsertTagsForVisit userId placeId labels

/-- The notification of the visit's author's followers. -/
def announceVisit (userId : Id) (visitedAt : Json) (visit : TaggedVisit) (place : VisitedPlace) :
    Prog ω Empty Failure Unit := do
  let activityVisibility ← services.getActivityVisibility userId
  if activityVisibility = .«private» then pure ()
  else do
    let recipientIds ← services.listFollowerIds userId
    services.publish
      { actorId := some userId
        entity := some { id := visit.id, kind := .visit }
        payload := some
          [("placeGooglePlaceId", some ((place.sourcePlaceId.map Json.string).getD .null)),
            ("placeId", some (.string visit.placeId)),
            ("placeName", some (.string place.name)),
            ("rating", some (.number visit.rating)),
            ("visitId", some (.string visit.id)),
            ("visitedAt", some visitedAt)]
        recipientIds
        type := .visitCreated }

/-- What follows once a visit is stored: its tags, and the news of it. -/
def tagAndAnnounce (userId placeId : Id) (placeDetailTags : List JsText)
    (announce : Prog ω Empty Failure Unit) : VisitProg ω Unit := do
  if placeDetailTags.length > 0 then
    upsertTagsForVisit letters services env userId placeId placeDetailTags
  VisitsDb.inWorld announce

/-- `VisitsService.create`, `visitedAt` as the request spells it. -/
def create (userId : Id) (visitedAt : Json) (input : CreateVisitDto) : VisitProg ω TaggedVisit := do
  let placeId ← VisitsDb.inWorld (resolvePlaceForVisit services userId input)
  let placeDetailTags := normalizeVisitPlaceTags letters input.placeDetailTags
  let (visit, place) ← createVisit services (input.row env userId placeId placeDetailTags)
  tagAndAnnounce letters services env userId placeId placeDetailTags
    (announceVisit services userId visitedAt visit place)
  pure visit

/-! ## What is stored -/

def HasUserTag (s : VisitsDb ω) (userId : Id) (label : JsText) : Prop :=
  ∃ row ∈ s.userVisitPlaceTags.rows, (row.userId, row.label) = (userId, label)

def HasPlaceTag (s : VisitsDb ω) (userId placeId : Id) (label : JsText) : Prop :=
  ∃ row ∈ s.userPlaceVisitDetailTags.rows,
    (row.userId, row.placeId, row.label) = (userId, placeId, label)

/-- The tags of the user and of the place are those there were and these. -/
structure TagsAdded (s t : VisitsDb ω) (userId placeId : Id) (ofUser ofPlace : JsText → Prop) :
    Prop where
  user : ∀ label, HasUserTag t userId label ↔ HasUserTag s userId label ∨ ofUser label
  place : ∀ label, HasPlaceTag t userId placeId label ↔
    HasPlaceTag s userId placeId label ∨ ofPlace label

variable {letters services env} {s t u : VisitsDb ω} {userId placeId : Id}
  {ofUser ofPlace moreOfUser moreOfPlace : JsText → Prop}

theorem TagsAdded.none (huser : t.userVisitPlaceTags = s.userVisitPlaceTags)
    (hplace : t.userPlaceVisitDetailTags = s.userPlaceVisitDetailTags) :
    TagsAdded s t userId placeId (fun _ => False) fun _ => False := by
  constructor <;> intro label
  · rw [HasUserTag, huser, or_false, HasUserTag]
  · rw [HasPlaceTag, hplace, or_false, HasPlaceTag]

theorem TagsAdded.trans (hst : TagsAdded s t userId placeId ofUser ofPlace)
    (htu : TagsAdded t u userId placeId moreOfUser moreOfPlace) :
    TagsAdded s u userId placeId (fun label => ofUser label ∨ moreOfUser label)
      fun label => ofPlace label ∨ moreOfPlace label := by
  constructor <;> intro label
  · rw [htu.user, hst.user, or_assoc]
  · rw [htu.place, hst.place, or_assoc]

theorem TagsAdded.congr (h : TagsAdded s t userId placeId ofUser ofPlace)
    (huser : ∀ label, ofUser label ↔ moreOfUser label)
    (hplace : ∀ label, ofPlace label ↔ moreOfPlace label) :
    TagsAdded s t userId placeId moreOfUser moreOfPlace := by
  constructor <;> intro label
  · rw [h.user, huser]
  · rw [h.place, hplace]

/-- The foreign keys find the user and the place. -/
structure Known (services : VisitCollaborators ω) (s : VisitsDb ω) (userId placeId : Id) : Prop where
  user : services.hasUser s.world userId = true
  place : (services.findPlace s.world placeId).isSome = true

variable (letters env) in
theorem run_upsertUserTag (raw : JsText) (h : Known services s userId placeId) :
    ∃ t, (upsertUserTag letters services env userId raw).run s =
        ⟨t, [], .ok (normalizeVisitPlaceTag letters raw)⟩ ∧
      t.visits = s.visits ∧ t.world = s.world ∧
      TagsAdded s t userId placeId (fun label => normalizeVisitPlaceTag letters raw = some label)
        fun _ => False := by
  cases hraw : normalizeVisitPlaceTag letters raw with
  | none =>
    refine ⟨s, by rw [upsertUserTag, hraw]; rfl, rfl, rfl, ?_⟩
    exact (TagsAdded.none rfl rfl).congr (by simp) (by simp)
  | some label =>
    let row : UserVisitPlaceTag := { userId, label, updatedAt := env.now }
    let tags := s.userVisitPlaceTags.upsertRow row (·.touch env.now)
    refine ⟨{ s with userVisitPlaceTags := tags }, ?_, rfl, rfl, ?_⟩
    · rw [upsertUserTag, hraw, run_stmt, if_pos h.user]
    constructor <;> intro other
    · let key (row : UserVisitPlaceTag) : Id × JsText := (row.userId, row.label)
      have hkeys : HasUserTag { s with userVisitPlaceTags := tags } userId other ↔
          HasUserTag s userId other ∨ key row = (userId, other) :=
        Table.exists_key_upsertRow key (by intro; rfl) (by intro _ h; exact eq_of_beq h) _
      rw [hkeys]
      simp [key, row]
    · rw [or_false]
      rfl

variable (letters env) in
theorem run_upsertPlaceTag (raw : JsText) (h : Known services s userId placeId) :
    ∃ t, (upsertPlaceTag letters services env userId placeId raw).run s =
        ⟨t, [], .ok (normalizeVisitPlaceTag letters raw)⟩ ∧
      t.visits = s.visits ∧ t.world = s.world ∧
      TagsAdded s t userId placeId (fun _ => False)
        fun label => normalizeVisitPlaceTag letters raw = some label := by
  cases hraw : normalizeVisitPlaceTag letters raw with
  | none =>
    refine ⟨s, by rw [upsertPlaceTag, hraw]; rfl, rfl, rfl, ?_⟩
    exact (TagsAdded.none rfl rfl).congr (by simp) (by simp)
  | some label =>
    let row : UserPlaceVisitDetailTag := { userId, placeId, label, updatedAt := env.now }
    let tags := s.userPlaceVisitDetailTags.upsertRow row (·.touch env.now)
    refine ⟨{ s with userPlaceVisitDetailTags := tags }, ?_, rfl, rfl, ?_⟩
    · rw [upsertPlaceTag, hraw, run_stmt, h.user, h.place]
      rfl
    constructor <;> intro other
    · rw [or_false]
      rfl
    · let key (row : UserPlaceVisitDetailTag) : Id × Id × JsText :=
        (row.userId, row.placeId, row.label)
      have hkeys : HasPlaceTag { s with userPlaceVisitDetailTags := tags } userId placeId other ↔
          HasPlaceTag s userId placeId other ∨ key row = (userId, placeId, other) :=
        Table.exists_key_upsertRow key (by intro; rfl) (by intro _ h; exact eq_of_beq h) _
      rw [hkeys]
      simp [key, row]

variable (letters env) in
/-- The user's tags get the spelling of each label, the place's the spelling of that. -/
theorem run_upsertTagsForVisit (labels : List JsText) (h : Known services s userId placeId) :
    ∃ t, (upsertTagsForVisit letters services env userId placeId labels).run s = ⟨t, [], .ok ()⟩ ∧
      t.visits = s.visits ∧ t.world = s.world ∧
      TagsAdded s t userId placeId
        (fun label => ∃ raw ∈ labels, normalizeVisitPlaceTag letters raw = some label)
        fun label => ∃ raw ∈ labels, ∃ once, normalizeVisitPlaceTag letters raw = some once ∧
          normalizeVisitPlaceTag letters once = some label := by
  induction labels generalizing s with
  | nil =>
    exact ⟨s, rfl, rfl, rfl, (TagsAdded.none rfl rfl).congr (by simp) (by simp)⟩
  | cons raw labels ih =>
    obtain ⟨t, hrun, hvisits, hworld, hadded⟩ :=
      run_upsertUserTag letters env raw h
    have ht : Known services t userId placeId := by
      constructor <;> rw [hworld]
      · exact h.user
      · exact h.place
    rw [upsertTagsForVisit, run_bind_ok (by rw [hrun]), hrun]
    cases hraw : normalizeVisitPlaceTag letters raw with
    | none =>
      obtain ⟨u, hrest, hvisits', hworld', hadded'⟩ := ih ht
      refine ⟨u, by dsimp only; rw [hrest]; rfl, hvisits'.trans hvisits, hworld'.trans hworld, ?_⟩
      exact (hadded.trans hadded').congr (by simp [hraw]) (by simp [hraw])
    | some label =>
      obtain ⟨v, hplace, hvisits'', hworld'', hadded''⟩ :=
        run_upsertPlaceTag letters env label ht
      have hv : Known services v userId placeId := by
        constructor <;> rw [hworld'']
        · exact ht.user
        · exact ht.place
      obtain ⟨u, hrest, hvisits', hworld', hadded'⟩ := ih hv
      refine ⟨u, ?_, hvisits'.trans (hvisits''.trans hvisits),
        hworld'.trans (hworld''.trans hworld), ?_⟩
      · dsimp only
        rw [run_bind_ok (by rw [hplace]), hplace]
        dsimp only
        rw [hrest]
        rfl
      · exact ((hadded.trans hadded'').trans hadded').congr (by simp [hraw]) (by simp [hraw])

theorem run_inWorld {α : Type} (p : Prog ω Empty Failure α) (s : VisitsDb ω) :
    ∃ world result, (VisitsDb.inWorld p).run s = ⟨{ s with world }, [], result⟩ := by
  induction p generalizing s with
  | done a => exact ⟨s.world, .ok a, rfl⟩
  | fail e => exact ⟨s.world, .error e, rfl⟩
  | step exec next ih =>
    obtain ⟨world, result, hrest⟩ := ih s.world { s with world := (exec s.world).1 }
    refine ⟨world, result, ?_⟩
    show (⟨((VisitsDb.inWorld (next s.world)).run { s with world := (exec s.world).1 }).store,
      [] ++ ((VisitsDb.inWorld (next s.world)).run { s with world := (exec s.world).1 }).events,
      ((VisitsDb.inWorld (next s.world)).run { s with world := (exec s.world).1 }).result⟩ :
        Answer _ _ _ _) = _
    rw [hrest]
    rfl

theorem store_ignored {p : VisitProg ω Unit} {visit : TaggedVisit}
    {result : Except Failure Unit} (h : p.run s = ⟨t, [], result⟩) :
    ((do
      p
      pure visit : VisitProg ω TaggedVisit).run s).store = t := by
  cases result with
  | ok a => rw [run_bind_ok (by rw [h]), h, run_pure]
  | error e => rw [run_bind_error (by rw [h]), h]

variable (services) in
theorem run_createVisit (row : TaggedVisit) (s : VisitsDb ω) :
    (∃ e, (createVisit services row).run s = ⟨s, [], .error e⟩) ∨
    ∃ visits place, (createVisit services row).run s = ⟨{ s with visits }, [], .ok (row, place)⟩ ∧
      visits.rows = s.visits.rows ++ [row] ∧ Known services s row.userId row.placeId := by
  rw [createVisit, run_stmt]
  split
  · rename_i place huser hplace
    split
    · rename_i visits hvisits
      refine .inr ⟨visits, place, rfl, (Table.insert_eq_some hvisits).1, huser, ?_⟩
      rw [hplace]
      rfl
    · exact .inl ⟨_, rfl⟩
  · exact .inl ⟨_, rfl⟩

theorem run_tagAndAnnounce {labels : List JsText} {announce : Prog ω Empty Failure Unit}
    (h : Known services s userId placeId) :
    ∃ t result, (tagAndAnnounce letters services env userId placeId labels announce).run s =
        ⟨t, [], result⟩ ∧ t.visits = s.visits ∧
      TagsAdded s t userId placeId
        (fun label => ∃ raw ∈ labels, normalizeVisitPlaceTag letters raw = some label)
        fun label => ∃ raw ∈ labels, ∃ once, normalizeVisitPlaceTag letters raw = some once ∧
          normalizeVisitPlaceTag letters once = some label := by
  unfold tagAndAnnounce
  split
  · obtain ⟨t, hrun, hvisits, -, hadded⟩ := run_upsertTagsForVisit letters env labels h
    obtain ⟨world, result, hannounce⟩ := run_inWorld announce t
    refine ⟨{ t with world }, result, ?_, hvisits, hadded.user, hadded.place⟩
    rw [run_bind_ok (by rw [hrun]), hrun]
    dsimp only
    rw [hannounce]
    rfl
  · rename_i hempty
    obtain rfl : labels = [] := List.length_eq_zero_iff.mp (by omega)
    obtain ⟨world, result, hannounce⟩ := run_inWorld announce s
    have hnone : TagsAdded s { s with world } userId placeId (fun _ => False) fun _ => False :=
      .none rfl rfl
    exact ⟨_, result, hannounce, rfl, hnone.congr (by simp) (by simp)⟩

/-- What a visit that the call has added brings to the tags of its author and place. -/
theorem create_adds {visitedAt : Json} {input : CreateVisitDto} {visit : TaggedVisit}
    (hvisit : visit ∈ ((create letters services env userId visitedAt input).run s).store.visits.rows)
    (hnew : visit ∉ s.visits.rows) :
    visit.userId = userId ∧
      visit.placeDetailTags = normalizeVisitPlaceTags letters input.placeDetailTags ∧
      TagsAdded s ((create letters services env userId visitedAt input).run s).store
        visit.userId visit.placeId
        (fun label => ∃ raw ∈ visit.placeDetailTags,
          normalizeVisitPlaceTag letters raw = some label)
        fun label => ∃ raw ∈ visit.placeDetailTags, ∃ once,
          normalizeVisitPlaceTag letters raw = some once ∧
            normalizeVisitPlaceTag letters once = some label := by
  obtain ⟨world, result, hplace⟩ :=
    run_inWorld (resolvePlaceForVisit services userId input) s
  unfold create at hvisit ⊢
  cases result with
  | error e =>
    rw [run_bind_error (by rw [hplace]), hplace] at hvisit
    exact absurd hvisit hnew
  | ok placeId =>
    rw [run_bind_ok (by rw [hplace]), hplace] at hvisit ⊢
    dsimp only at hvisit ⊢
    obtain ⟨e, hrun⟩ | ⟨visits, place, hrun, hrows, hknown⟩ := run_createVisit services
      (input.row env userId placeId (normalizeVisitPlaceTags letters input.placeDetailTags))
      { s with world }
    · rw [run_bind_error (by rw [hrun]), hrun] at hvisit
      exact absurd hvisit hnew
    · rw [run_bind_ok (by rw [hrun]), hrun] at hvisit ⊢
      dsimp only at hvisit ⊢
      have hfound : Known services { s with visits, world } userId placeId :=
        ⟨hknown.user, hknown.place⟩
      obtain ⟨t, result, htags, hvisits, hadded⟩ := run_tagAndAnnounce hfound
      rw [store_ignored htags] at hvisit ⊢
      rw [hvisits, hrows, List.mem_append, List.mem_singleton] at hvisit
      obtain rfl := hvisit.resolve_left hnew
      exact ⟨rfl, rfl, hadded.user, hadded.place⟩

/-! ## The claim of the spelling -/

/-- A label that is not its own spelling is in both tables all the same: at the place it was
before, and among the author's tags too, or there another label is spelled so. -/
structure StoredBefore (letters : LetterCase) (s : VisitsDb ω) (userId placeId : Id)
    (texts : List JsText) (label : JsText) : Prop where
  place : HasPlaceTag s userId placeId label
  user : HasUserTag s userId label ∨ ∃ raw other, GivesLabel letters texts raw other ∧
    other ≠ label ∧ normalizeVisitPlaceTag letters other = some label

/-- A visit's label is in the tables just if it is its own spelling, or was there before. -/
theorem stored_iff {texts : List JsText} {labels : List JsText} {raw label : JsText}
    (hlabels : ∀ label, label ∈ labels ↔ ∃ raw, GivesLabel letters texts raw label)
    (hadded : TagsAdded s t userId placeId
      (fun label => ∃ raw ∈ labels, normalizeVisitPlaceTag letters raw = some label)
      fun label => ∃ raw ∈ labels, ∃ once, normalizeVisitPlaceTag letters raw = some once ∧
        normalizeVisitPlaceTag letters once = some label)
    (hgives : GivesLabel letters texts raw label) :
    HasUserTag t userId label ∧ HasPlaceTag t userId placeId label ↔
      CutsCleanly letters raw ∨ StoredBefore letters s userId placeId texts label := by
  rw [hadded.user, hadded.place, ← spelledOnce_iff hgives.1]
  constructor
  · rintro ⟨huser, hplace⟩
    by_cases hspelled : SpelledOnce letters label
    · exact .inl hspelled
    right
    refine ⟨hplace.resolve_right ?_, huser.imp_right ?_⟩
    · rintro ⟨other, hother, once, honce, htwice⟩
      obtain ⟨first, hfirst⟩ := (hlabels other).mp hother
      exact hspelled (spelledOnce_of_thrice hfirst.1 honce htwice)
    · rintro ⟨other, hother, hspelling⟩
      obtain ⟨first, hfirst⟩ := (hlabels other).mp hother
      refine ⟨first, other, hfirst, ?_, hspelling⟩
      rintro rfl
      exact hspelled (spelledOnce_of_thrice hspelling hspelling hspelling)
  · rintro (hspelled | hbefore)
    · have hlabel := (hlabels label).mpr ⟨raw, hgives⟩
      exact ⟨.inr ⟨label, hlabel, hspelled.stable⟩,
        .inr ⟨label, hlabel, label, hspelled.stable, hspelled.stable⟩⟩
    · refine ⟨hbefore.user.imp_right ?_, .inl hbefore.place⟩
      rintro ⟨first, other, hfirst, -, hspelling⟩
      exact ⟨other, (hlabels other).mpr ⟨first, hfirst⟩, hspelling⟩

/-- The spelling of a text is one exactly where the text is cut cleanly; and the labels of a
visit are among the tags of its author and place exactly where each text that gives it a
label is, or the label was there before. -/
theorem spelling_is_projection_iff (letters : LetterCase) (services : VisitCollaborators ω)
    (env : VisitEnv) :
    (∀ raw label, normalizeVisitPlaceTag letters raw = some label →
      (SpelledOnce letters label ↔ CutsCleanly letters raw)) ∧
    ∀ (s : VisitsDb ω) (userId : Id) (visitedAt : Json) (input : CreateVisitDto),
      ∀ visit ∈ ((create letters services env userId visitedAt input).run s).store.visits.rows,
        visit ∉ s.visits.rows → visit.userId = userId ∧
          ((∀ label ∈ visit.placeDetailTags,
            HasUserTag ((create letters services env userId visitedAt input).run s).store
              userId label ∧
            HasPlaceTag ((create letters services env userId visitedAt input).run s).store
              userId visit.placeId label) ↔
          ∀ raw label, GivesLabel letters (input.placeDetailTags.getD []) raw label →
            CutsCleanly letters raw ∨
              StoredBefore letters s userId visit.placeId (input.placeDetailTags.getD []) label) := by
  refine ⟨fun raw label => spelledOnce_iff, fun s userId visitedAt input visit hvisit hnew => ?_⟩
  obtain ⟨rfl, hlabels, hadded⟩ := create_adds hvisit hnew
  have hgiven : ∀ label, label ∈ visit.placeDetailTags ↔
      ∃ raw, GivesLabel letters (input.placeDetailTags.getD []) raw label := by
    intro label
    rw [hlabels]
    exact mem_normalizeVisitPlaceTags
  refine ⟨rfl, ?_⟩
  constructor
  · intro hstored raw label hgives
    exact (stored_iff hgiven hadded hgives).mp (hstored label ((hgiven label).mpr ⟨raw, hgives⟩))
  · intro hclean label hlabel
    obtain ⟨raw, hgives⟩ := (hgiven label).mp hlabel
    exact (stored_iff hgiven hadded hgives).mpr (hclean raw label hgives)

/-! A German letter has a capital of two units, so a text of thirty-two that begins
with it becomes a label of thirty-three. -/

def isSmallLetter (unit : UInt16) : Bool := 0x61 ≤ unit.toNat && unit.toNat ≤ 0x7A

def capitalOf (unit : UInt16) : UInt16 := UInt16.ofNat (unit.toNat - 32)

theorem toNat_capitalOf {unit : UInt16} (h : isSmallLetter unit = true) :
    0x41 ≤ (capitalOf unit).toNat ∧ (capitalOf unit).toNat ≤ 0x5A := by
  have hbounds : 0x61 ≤ unit.toNat ∧ unit.toNat ≤ 0x7A := by simpa [isSmallLetter] using h
  have hnat : (capitalOf unit).toNat = unit.toNat - 32 := UInt16.toNat_ofNat_of_lt (by
    show _ < 65536
    omega)
  omega

theorem isBlankUnit_capitalOf {unit : UInt16} (h : isSmallLetter unit = true) :
    isBlankUnit (capitalOf unit) = false := by
  have hbounds := toNat_capitalOf h
  simp only [isBlankUnit, Bool.or_eq_false_iff, Bool.and_eq_false_iff, decide_eq_false_iff_not,
    beq_eq_false_iff_ne]
  omega

theorem not_isSmallLetter_capitalOf {unit : UInt16} (h : isSmallLetter unit = true) :
    isSmallLetter (capitalOf unit) = false := by
  have hbounds := toNat_capitalOf h
  simp only [isSmallLetter, Bool.and_eq_false_iff, decide_eq_false_iff_not]
  omega

/-- The letters of ASCII, and `ß`. -/
def germanLetters : LetterCase where
  toUpperCase unit :=
    if unit = 0xDF then [0x53, 0x53]
    else if isSmallLetter unit then [capitalOf unit] else [unit]
  toLowerCase := List.map fun unit =>
    if 0x41 ≤ unit.toNat && unit.toNat ≤ 0x5A then UInt16.ofNat (unit.toNat + 32) else unit
  upper_ne_nil unit := by
    split
    · exact List.cons_ne_nil _ _
    · split <;> exact List.cons_ne_nil _ _
  upper_blank unit hunit := by
    split
    · intro u hu
      obtain rfl : u = 0x53 := by simpa using hu
      rfl
    · split
      · rename_i hsmall
        intro u hu
        rw [List.mem_singleton.mp hu]
        exact isBlankUnit_capitalOf hsmall
      · simpa using hunit
  upper_upper unit := by
    split
    · intro u hu
      obtain rfl : u = 0x53 := by simpa using hu
      rfl
    · split
      · rename_i hsmall
        intro u hu
        have hbounds := toNat_capitalOf hsmall
        have heszett : capitalOf unit ≠ 0xDF := by
          intro heq
          rw [heq] at hbounds
          exact absurd hbounds.2 (by decide)
        rw [List.mem_singleton.mp hu, if_neg heszett, not_isSmallLetter_capitalOf hsmall]
        rfl
      · rename_i heszett hsmall
        intro u hu
        rw [List.mem_singleton.mp hu, if_neg heszett, if_neg hsmall]

def letterA : UInt16 := 0x61

/-- `ß`, and thirty-one letters behind it. -/
def eszettTag : JsText := 0xDF :: List.replicate 31 letterA

/-- Thirty-one letters, a blank, and a word. -/
def longTag : JsText := List.replicate 31 letterA ++ [SPACE, letterA]

def eszettLabel : JsText := 0x53 :: 0x53 :: List.replicate 31 letterA

def openHouse : VisitCollaborators Unit where
  hasUser _ _ := true
  findPlace _ _ := some { name := "Bar", sourcePlaceId := none }
  getPlaceById placeId := pure (some placeId)
  resolve googlePlaceId := pure googlePlaceId
  getUserPlaceCreationContext _ := pure none
  createManualPlace _ := pure "p2"
  getActivityVisibility _ := pure .«private»
  listFollowerIds _ := pure []
  publish _ := pure ()

def noVisits : VisitsDb Unit := ⟨.empty, .empty, .empty, ()⟩

def barVisit (tag : JsText) : CreateVisitDto where
  rating := 5
  visitedAt := 0
  placeId := some "p1"
  placeDetailTags := some [tag]

def barRow (label : JsText) : TaggedVisit where
  rating := 5
  visitedAt := 0
  id := "v1"
  placeId := "p1"
  userId := "ana"
  placeDetailTags := [label]
  createdAt := 0

def afterBarVisit (tag : JsText) : VisitsDb Unit :=
  ((create germanLetters openHouse ⟨0, "v1"⟩ "ana" .null (barVisit tag)).run noVisits).store

/-- A label too long that is not its own spelling, and a label with a blank at its
end; a visit with the first, which its author's tags do not have. -/
theorem eszett_is_spelled_twice :
    (normalizeVisitPlaceTag germanLetters eszettTag = some eszettLabel ∧
      normalizeVisitPlaceTag germanLetters eszettLabel ≠ some eszettLabel ∧
      ¬ eszettLabel.length ≤ MAX_TAG_LENGTH) ∧
    (∃ label, normalizeVisitPlaceTag germanLetters longTag = some label ∧
      trimBlanks isBlankUnit label ≠ label) ∧
    barRow eszettLabel ∈ (afterBarVisit eszettTag).visits.rows ∧
    ¬ HasUserTag (afterBarVisit eszettTag) "ana" eszettLabel := by
  refine ⟨⟨by decide, by decide, by decide⟩, ⟨_, rfl, by decide⟩, ?_, ?_⟩
  · exact List.mem_singleton.mpr rfl
  · rintro ⟨row, hrow, hlabel⟩
    have hrows : (afterBarVisit eszettTag).userVisitPlaceTags.rows.map (·.label) =
        [eszettLabel.take 32] := rfl
    have hmem : row.label ∈ [eszettLabel.take 32] := hrows ▸ List.mem_map_of_mem hrow
    rw [show row.label = eszettLabel from (Prod.ext_iff.mp hlabel).2] at hmem
    exact absurd (List.mem_singleton.mp hmem) (by decide)

/-- ` a  a `. -/
def spacedTag : JsText := [SPACE, letterA, SPACE, SPACE, letterA, SPACE]

/-- `A a`. -/
def spacedLabel : JsText := [0x41, SPACE, letterA]

theorem spaced_tag_is_spelled_once : SpelledOnce germanLetters spacedLabel ∧
    HasUserTag (afterBarVisit spacedTag) "ana" spacedLabel := by
  have hclean : CutsCleanly germanLetters spacedTag := by
    refine ⟨fun unit hunit => ?_, by decide⟩
    have hlast : ((singleBlanks spacedTag).take MAX_TAG_LENGTH).getLast? = some letterA := rfl
    rw [hlast] at hunit
    cases hunit
    rfl
  obtain ⟨hspelling, hstored⟩ :=
    spelling_is_projection_iff germanLetters openHouse ⟨0, "v1"⟩
  refine ⟨(hspelling spacedTag spacedLabel (by decide)).mpr hclean, ?_⟩
  obtain ⟨-, hiff⟩ := hstored noVisits "ana" .null (barVisit spacedTag) (barRow spacedLabel)
    (List.mem_singleton.mpr rfl) List.not_mem_nil
  refine (hiff.mpr fun raw label hgives => .inl ?_) spacedLabel List.mem_cons_self |>.1
  obtain ⟨-, before, after, htexts, -, -⟩ := hgives
  have hraw : raw ∈ [spacedTag] := by
    rw [show [spacedTag] = before ++ raw :: after from htexts]
    exact List.mem_append_right before List.mem_cons_self
  obtain rfl : raw = spacedTag := List.mem_singleton.mp hraw
  exact hclean

end Feca.Content
