import Feca.Places.Nearby

/-! # Outing preferences

When and with whom a user likes to go out is kept as JSON. What the client sends
is sanitised first: strings the server does not know are dropped, the lists are
cut, and the field of one company becomes a list. Three readers score places,
choose an intent and time notifications by what is kept; each of them knows the
old field as well, and each falls back to it in its own way.
-/

namespace Feca.Places

abbrev JsonFields := List (String × Json)

def ALLOWED_SLOTS : List String :=
  ["weekday_morning", "weekday_afternoon", "weekday_evening", "weekend_day", "weekend_night"]

def ALLOWED_COMPANY : List String := ["solo", "couple", "small_group", "large_group"]

def ALLOWED_PRIORITIES : List String :=
  ["atmosphere", "distance", "food_drink", "price", "quiet", "service"]

/-! ## What is kept -/

/-- `typeof s === "string" && allowed.has(s)`. -/
def allowedString (allowed : List String) : Json → Option String
  | .string s => if s ∈ allowed then some s else none
  | _ => none

/-- Left out where nothing is left. -/
def sanitizeList (allowed : List String) (atMost : Nat) (items : List Json) :
    Option (List String) :=
  match (items.filterMap (allowedString allowed)).take atMost with
  | [] => none
  | s :: kept => some (s :: kept)

def sanitizeArray (allowed : List String) (atMost : Nat) : Option Json → Option (List String)
  | some (.array items) => sanitizeList allowed atMost items
  | _ => none

/-- The old field counts only where the new one is no array. -/
def sanitizeCompanies (input : JsonFields) : Option (List String) :=
  match input.lookup "typicalCompanies" with
  | some (.array items) => sanitizeList ALLOWED_COMPANY 8 items
  | _ => ((input.lookup "typicalCompany").bind (allowedString ALLOWED_COMPANY)).map fun c => [c]

def listField (key : String) : Option (List String) → JsonFields
  | none => []
  | some strings => [(key, .array (strings.map .string))]

def sanitizedFields (input : JsonFields) : JsonFields :=
  ("schemaVersion", .number 1) ::
    (listField "typicalOutingSlots"
        (sanitizeArray ALLOWED_SLOTS 8 (input.lookup "typicalOutingSlots")) ++
      listField "typicalCompanies" (sanitizeCompanies input) ++
      listField "placePriorities"
        (sanitizeArray ALLOWED_PRIORITIES 12 (input.lookup "placePriorities")))

def sanitizeOutingPreferences : Json → Except Thrown Json
  | .null => .ok .null
  | .object input => .ok (.object (sanitizedFields input))
  | _ => .error (.error "outingPreferences must be a JSON object or null")

/-! ## The readers -/

def truthy : Json → Bool
  | .null => false
  | .bool value => value
  | .number value => value != 0
  | .string value => value != ""
  | .array _ => true
  | .object _ => true

/-- `new Set(value)`; the text of the error is the runtime's. -/
def newSet : Json → Except Thrown (List Json)
  | .array items => .ok items
  | .string value => .ok (value.toList.map fun c => .string (String.ofList [c]))
  | _ => .error (.error "value is not iterable")

def has (set : List Json) (s : String) : Bool :=
  set.any fun
    | .string t => t == s
    | _ => false

/-- `new Set(p.typicalOutingSlots ?? [])`. -/
def slotSet (p : JsonFields) : Except Thrown (List Json) :=
  match p.lookup "typicalOutingSlots" with
  | none => .ok []
  | some .null => .ok []
  | some value => newSet value

/-- `value?.length`, as a condition. -/
def hasLength : Json → Bool
  | .array items => items.length != 0
  | .string value => value.length != 0
  | .object fields => (fields.lookup "length").any truthy
  | _ => false

/-- `p.typicalCompany ? [p.typicalCompany] : []`. -/
def oneCompany (p : JsonFields) : List Json := ((p.lookup "typicalCompany").filter truthy).toList

/-- `new Set(p.typicalCompanies?.length ? p.typicalCompanies : …)`. -/
def companySet (p : JsonFields) : Except Thrown (List Json) :=
  match (p.lookup "typicalCompanies").filter hasLength with
  | some companies => newSet companies
  | none => .ok (oneCompany p)

def outingBonus (intent : ExploreIntent) (slots companies : List Json) : Nat :=
  (if intent = .solo ∧ has companies "solo" then 10 else 0) +
  (if intent = .group4 ∧ (has companies "small_group" ∨ has companies "large_group") then 12
    else 0) +
  (if intent = .firstDate ∧ (has companies "couple" ∨ has companies "solo") then 8 else 0) +
  (if intent = .work2h ∧ has slots "weekday_morning" then 8 else 0) +
  (if (intent = .brunchLong ∨ intent = .reading) ∧
      (has slots "weekend_day" ∨ has slots "weekday_morning") then 6 else 0) +
  (if intent = .snackFast ∧ has slots "weekday_afternoon" then 6 else 0) +
  (if intent = .openNow ∧ has slots "weekend_night" then 4 else 0)

def scoreOutingAgainstIntent (intent : ExploreIntent) : Json → Except Thrown Nat
  | .object p => do
      let slots ← slotSet p
      let companies ← companySet p
      pure (outingBonus intent slots companies)
  | _ => pure 0

/-- `now.getHours()` and `now.getDay()`. -/
structure WallClock where
  hour : Nat
  day : Nat
  deriving DecidableEq, Repr

def WallClock.isWeekend (now : WallClock) : Bool := now.day == 0 || now.day == 6

/-- `from <= hour && hour < until`. -/
def WallClock.within (now : WallClock) (start stop : Nat) : Bool :=
  decide (start ≤ now.hour) && decide (now.hour < stop)

/-- Without preferences the hour decides. -/
def intentOfHour (now : WallClock) : ExploreIntent :=
  if now.within 7 11 then .work2h
  else if now.within 11 15 then .solo
  else if now.within 18 23 then .group4
  else .solo

def intentOfCompanies (now : WallClock) (companies : List Json) : ExploreIntent :=
  if has companies "solo" then .solo
  else if has companies "couple" then .firstDate
  else if has companies "small_group" || has companies "large_group" then .group4
  else intentOfHour now

def intentOfEvening (now : WallClock) (slots companies : List Json) : ExploreIntent :=
  if now.isWeekend && now.within 10 16 && has slots "weekend_day" then .brunchLong
  else if !now.isWeekend && now.within 12 15 && has slots "weekday_afternoon" then .snackFast
  else if now.within 18 23 && (has slots "weekend_night" || has slots "weekday_evening") then
    if has companies "couple" then .firstDate else .group4
  else intentOfCompanies now companies

def intentOf (now : WallClock) (slots companies : List Json) : ExploreIntent :=
  if now.within 7 11 && has slots "weekday_morning" then .work2h
  else if now.within 7 11 && has companies "solo" then .reading
  else intentOfEvening now slots companies

def inferNearbyExploreIntent (prefs : Json) (now : WallClock) : Except Thrown ExploreIntent :=
  match prefs with
  | .object p => do
      let slots ← slotSet p
      let companies ← companySet p
      pure (intentOf now slots companies)
  | _ => pure (intentOfHour now)

structure OutingReading where
  typicalCompanies : List String
  typicalOutingSlots : List String
  deriving DecidableEq, Repr

def contextualSlot : Json → Option String
  | .string value =>
      if value = "weekday_morning" ∨ value = "weekday_afternoon" ∨ value = "weekday_evening" ∨
          value = "weekend_day" ∨ value = "weekend_night" then some value
      else none
  | _ => none

def typicalCompany : Json → Option String
  | .string value =>
      if value = "solo" ∨ value = "couple" ∨ value = "small_group" ∨ value = "large_group" then
        some value
      else none
  | _ => none

/-- Every string that is no company is falsy or fails `isTypicalCompany`. -/
def readCompanies (p : JsonFields) : List String :=
  match p.lookup "typicalCompanies" with
  | some (.array items) => items.filterMap typicalCompany
  | _ => (oneCompany p).filterMap typicalCompany

def readSlots (p : JsonFields) : List String :=
  match p.lookup "typicalOutingSlots" with
  | some (.array items) => items.filterMap contextualSlot
  | _ => []

def readOutingPreferences : Json → OutingReading
  | .object p => { typicalCompanies := readCompanies p, typicalOutingSlots := readSlots p }
  | _ => { typicalCompanies := [], typicalOutingSlots := [] }

/-! ## What sanitising keeps -/

def IsListOfStrings (value : Json) : Prop := ∃ strings : List String, value = .array (strings.map .string)

/-- The fields that are there are lists of strings, and `typicalCompany` is a string. -/
structure WellTyped (input : JsonFields) : Prop where
  slots : ∀ value, input.lookup "typicalOutingSlots" = some value → IsListOfStrings value
  companies : ∀ value, input.lookup "typicalCompanies" = some value → IsListOfStrings value
  priorities : ∀ value, input.lookup "placePriorities" = some value → IsListOfStrings value
  company : ∀ value, input.lookup "typicalCompany" = some value → ∃ s, value = .string s

/-- The sanitised preferences are themselves sanitised, and nobody reads them otherwise. -/
structure KeepsMeaning (prefs sanitized : Json) : Prop where
  idempotent : sanitizeOutingPreferences sanitized = .ok sanitized
  score : ∀ intent,
    scoreOutingAgainstIntent intent sanitized = scoreOutingAgainstIntent intent prefs
  reading : readOutingPreferences sanitized = readOutingPreferences prefs
  intent : ∀ now, inferNearbyExploreIntent sanitized now = inferNearbyExploreIntent prefs now

/-- The strings of a list that the server knows. -/
def knownStrings (allowed : List String) : Option Json → List String
  | some (.array items) => items.filterMap (allowedString allowed)
  | _ => []

/-- Nothing is cut off, and no empty list of companies stands before a company. -/
structure FitsSanitizer (input : JsonFields) : Prop where
  slots : (knownStrings ALLOWED_SLOTS (input.lookup "typicalOutingSlots")).length ≤ 8
  companies : (knownStrings ALLOWED_COMPANY (input.lookup "typicalCompanies")).length ≤ 8
  company : input.lookup "typicalCompanies" = some (.array []) →
    ∀ s ∈ ALLOWED_COMPANY, input.lookup "typicalCompany" ≠ some (.string s)

section lists

variable {allowed : List String} {n : Nat}

theorem allowedString_eq_some {value : Json} {s : String} :
    allowedString allowed value = some s ↔ value = .string s ∧ s ∈ allowed := by
  cases value with
  | string t =>
    by_cases ht : t ∈ allowed
    · simp only [allowedString, if_pos ht, Option.some.injEq, Json.string.injEq]
      constructor
      · rintro rfl
        exact ⟨rfl, ht⟩
      · exact And.left
    · simp only [allowedString, if_neg ht, Json.string.injEq]
      constructor
      · intro h
        cases h
      · rintro ⟨rfl, hs⟩
        exact absurd hs ht
  | null => simp [allowedString]
  | bool b => simp [allowedString]
  | number r => simp [allowedString]
  | array items => simp [allowedString]
  | object fields => simp [allowedString]

theorem has_iff {items : List Json} {s : String} : has items s = true ↔ .string s ∈ items := by
  unfold has
  rw [List.any_eq_true]
  constructor
  · rintro ⟨value, hvalue, hs⟩
    cases value with
    | string t =>
      have ht : t = s := by simpa using hs
      exact ht ▸ hvalue
    | null => cases hs
    | bool b => cases hs
    | number r => cases hs
    | array items => cases hs
    | object fields => cases hs
  · intro hs
    exact ⟨.string s, hs, by simp⟩

/-- A string the server knows is in a list exactly when it is among those kept. -/
theorem has_kept {items : List Json} {s : String} (hs : s ∈ allowed) :
    has ((items.filterMap (allowedString allowed)).map .string) s = has items s := by
  rw [Bool.eq_iff_iff, has_iff, has_iff, List.mem_map]
  constructor
  · rintro ⟨t, ht, hts⟩
    cases hts
    obtain ⟨value, hvalue, hkept⟩ := List.mem_filterMap.mp ht
    exact (allowedString_eq_some.mp hkept).1 ▸ hvalue
  · intro hmem
    exact ⟨s, List.mem_filterMap.mpr ⟨_, hmem, allowedString_eq_some.mpr ⟨rfl, hs⟩⟩, rfl⟩

/-- What is kept is kept once more. -/
theorem filterMap_allowed_kept {kept : List String} (h : ∀ s ∈ kept, s ∈ allowed) :
    (kept.map Json.string).filterMap (allowedString allowed) = kept := by
  induction kept with
  | nil => rfl
  | cons s kept ih =>
    have hs : allowedString allowed (.string s) = some s :=
      allowedString_eq_some.mpr ⟨rfl, h s List.mem_cons_self⟩
    rw [List.map_cons, List.filterMap_cons_some hs, ih fun t ht => h t (List.mem_cons_of_mem _ ht)]

theorem sanitizeList_eq (items : List Json) : sanitizeList allowed n items =
    if (items.filterMap (allowedString allowed)).take n = [] then none
    else some ((items.filterMap (allowedString allowed)).take n) := by
  unfold sanitizeList
  cases (items.filterMap (allowedString allowed)).take n with
  | nil => rfl
  | cons s kept => rfl

theorem mem_sanitizeList {items : List Json} {kept : List String}
    (h : sanitizeList allowed n items = some kept) {s : String} (hs : s ∈ kept) : s ∈ allowed := by
  rw [sanitizeList_eq] at h
  split at h
  · cases h
  · cases h
    obtain ⟨value, -, hvalue⟩ := List.mem_filterMap.mp (List.mem_of_mem_take hs)
    exact (allowedString_eq_some.mp hvalue).2

theorem sanitizeList_kept {items : List Json} {kept : List String}
    (h : sanitizeList allowed n items = some kept) :
    sanitizeList allowed n (kept.map .string) = some kept := by
  have hknown := filterMap_allowed_kept fun s hs => mem_sanitizeList h hs
  rw [sanitizeList_eq] at h
  split at h
  · cases h
  · rename_i hne
    cases h
    rw [sanitizeList_eq, hknown, List.take_take, Nat.min_self, if_neg hne]

end lists

/-! ## The sanitised object -/

def ofStrings (strings : List String) : Json := .array (strings.map .string)

variable {input : JsonFields}

theorem lookup_slots (input : JsonFields) : (sanitizedFields input).lookup "typicalOutingSlots" =
    (sanitizeArray ALLOWED_SLOTS 8 (input.lookup "typicalOutingSlots")).map ofStrings := by
  unfold sanitizedFields
  cases sanitizeArray ALLOWED_SLOTS 8 (input.lookup "typicalOutingSlots") <;>
    cases sanitizeCompanies input <;>
    cases sanitizeArray ALLOWED_PRIORITIES 12 (input.lookup "placePriorities") <;> rfl

theorem lookup_companies (input : JsonFields) :
    (sanitizedFields input).lookup "typicalCompanies" = (sanitizeCompanies input).map ofStrings := by
  unfold sanitizedFields
  cases sanitizeArray ALLOWED_SLOTS 8 (input.lookup "typicalOutingSlots") <;>
    cases sanitizeCompanies input <;>
    cases sanitizeArray ALLOWED_PRIORITIES 12 (input.lookup "placePriorities") <;> rfl

theorem lookup_company (input : JsonFields) :
    (sanitizedFields input).lookup "typicalCompany" = none := by
  unfold sanitizedFields
  cases sanitizeArray ALLOWED_SLOTS 8 (input.lookup "typicalOutingSlots") <;>
    cases sanitizeCompanies input <;>
    cases sanitizeArray ALLOWED_PRIORITIES 12 (input.lookup "placePriorities") <;> rfl

theorem lookup_priorities (input : JsonFields) : (sanitizedFields input).lookup "placePriorities" =
    (sanitizeArray ALLOWED_PRIORITIES 12 (input.lookup "placePriorities")).map ofStrings := by
  unfold sanitizedFields
  cases sanitizeArray ALLOWED_SLOTS 8 (input.lookup "typicalOutingSlots") <;>
    cases sanitizeCompanies input <;>
    cases sanitizeArray ALLOWED_PRIORITIES 12 (input.lookup "placePriorities") <;> rfl

theorem wellTyped_sanitizedFields (input : JsonFields) : WellTyped (sanitizedFields input) where
  slots value h := by
    rw [lookup_slots] at h
    obtain ⟨strings, -, rfl⟩ := Option.map_eq_some_iff.mp h
    exact ⟨strings, rfl⟩
  companies value h := by
    rw [lookup_companies] at h
    obtain ⟨strings, -, rfl⟩ := Option.map_eq_some_iff.mp h
    exact ⟨strings, rfl⟩
  priorities value h := by
    rw [lookup_priorities] at h
    obtain ⟨strings, -, rfl⟩ := Option.map_eq_some_iff.mp h
    exact ⟨strings, rfl⟩
  company value h := by
    rw [lookup_company] at h
    cases h

theorem sanitizeArray_kept (allowed : List String) (n : Nat) (value : Option Json) :
    sanitizeArray allowed n ((sanitizeArray allowed n value).map ofStrings) =
      sanitizeArray allowed n value := by
  cases hkept : sanitizeArray allowed n value with
  | none => rfl
  | some kept =>
    have hlist : ∃ items, sanitizeList allowed n items = some kept := by
      unfold sanitizeArray at hkept
      split at hkept
      · exact ⟨_, hkept⟩
      · cases hkept
    obtain ⟨items, hitems⟩ := hlist
    exact sanitizeList_kept hitems

/-- The one company is a list of one. -/
theorem sanitizeCompanies_some {kept : List String} (h : sanitizeCompanies input = some kept) :
    ∃ items, sanitizeList ALLOWED_COMPANY 8 items = some kept := by
  unfold sanitizeCompanies at h
  split at h
  · exact ⟨_, h⟩
  · obtain ⟨s, hs, rfl⟩ := Option.map_eq_some_iff.mp h
    obtain ⟨value, -, hvalue⟩ := Option.bind_eq_some_iff.mp hs
    exact ⟨[value], by simp [sanitizeList, hvalue]⟩

theorem sanitizeCompanies_kept (input : JsonFields) :
    sanitizeCompanies (sanitizedFields input) = sanitizeCompanies input := by
  cases hkept : sanitizeCompanies input with
  | none =>
    rw [sanitizeCompanies, lookup_companies, hkept, lookup_company]
    rfl
  | some kept =>
    obtain ⟨items, hitems⟩ := sanitizeCompanies_some hkept
    have hagain := sanitizeList_kept hitems
    rw [sanitizeCompanies, lookup_companies, hkept]
    exact hagain

/-- Whatever the object, sanitising twice is sanitising once. -/
theorem sanitizedFields_idempotent (input : JsonFields) :
    sanitizedFields (sanitizedFields input) = sanitizedFields input := by
  have hslots := sanitizeArray_kept ALLOWED_SLOTS 8 (input.lookup "typicalOutingSlots")
  have hpriorities := sanitizeArray_kept ALLOWED_PRIORITIES 12 (input.lookup "placePriorities")
  rw [sanitizedFields, lookup_slots, lookup_priorities, hslots, hpriorities,
    sanitizeCompanies_kept]
  rfl

/-! ## What the readers see -/

def slotItems (p : JsonFields) : List Json :=
  match p.lookup "typicalOutingSlots" with
  | some (.array items) => items
  | _ => []

def companyItems (p : JsonFields) : List Json :=
  match p.lookup "typicalCompanies" with
  | some (.array (item :: items)) => item :: items
  | _ => oneCompany p

theorem slotSet_eq (h : WellTyped input) : slotSet input = .ok (slotItems input) := by
  unfold slotSet slotItems
  cases hslots : input.lookup "typicalOutingSlots" with
  | none => rfl
  | some value =>
    obtain ⟨strings, rfl⟩ := h.slots value hslots
    rfl

theorem companySet_eq (h : WellTyped input) : companySet input = .ok (companyItems input) := by
  unfold companySet companyItems
  cases hcompanies : input.lookup "typicalCompanies" with
  | none => rfl
  | some value =>
    obtain ⟨strings, rfl⟩ := h.companies value hcompanies
    cases strings with
    | nil => rfl
    | cons s strings => rfl

theorem score_eq (h : WellTyped input) (intent : ExploreIntent) :
    scoreOutingAgainstIntent intent (.object input) =
      .ok (outingBonus intent (slotItems input) (companyItems input)) := by
  rw [scoreOutingAgainstIntent, slotSet_eq h, companySet_eq h]
  rfl

theorem infer_eq (h : WellTyped input) (now : WallClock) :
    inferNearbyExploreIntent (.object input) now =
      .ok (intentOf now (slotItems input) (companyItems input)) := by
  rw [inferNearbyExploreIntent, slotSet_eq h, companySet_eq h]
  rfl

/-- The readers ask for strings the server knows, and for nothing else. -/
theorem outingBonus_congr {slots slots' companies companies' : List Json}
    (hslots : ∀ s ∈ ALLOWED_SLOTS, has slots s = has slots' s)
    (hcompanies : ∀ s ∈ ALLOWED_COMPANY, has companies s = has companies' s)
    (intent : ExploreIntent) :
    outingBonus intent slots companies = outingBonus intent slots' companies' := by
  unfold outingBonus
  rw [hslots "weekday_morning" (by decide), hslots "weekday_afternoon" (by decide),
    hslots "weekend_day" (by decide), hslots "weekend_night" (by decide),
    hcompanies "solo" (by decide), hcompanies "couple" (by decide),
    hcompanies "small_group" (by decide), hcompanies "large_group" (by decide)]

theorem intentOf_congr {slots slots' companies companies' : List Json}
    (hslots : ∀ s ∈ ALLOWED_SLOTS, has slots s = has slots' s)
    (hcompanies : ∀ s ∈ ALLOWED_COMPANY, has companies s = has companies' s) (now : WallClock) :
    intentOf now slots companies = intentOf now slots' companies' := by
  unfold intentOf intentOfEvening intentOfCompanies
  rw [hslots "weekday_morning" (by decide), hslots "weekday_afternoon" (by decide),
    hslots "weekday_evening" (by decide), hslots "weekend_day" (by decide),
    hslots "weekend_night" (by decide), hcompanies "solo" (by decide),
    hcompanies "couple" (by decide), hcompanies "small_group" (by decide),
    hcompanies "large_group" (by decide)]

theorem contextualSlot_eq : contextualSlot = allowedString ALLOWED_SLOTS := by
  funext value
  cases value with
  | string s => simp [contextualSlot, allowedString, ALLOWED_SLOTS]
  | null => rfl
  | bool b => rfl
  | number r => rfl
  | array items => rfl
  | object fields => rfl

theorem typicalCompany_eq : typicalCompany = allowedString ALLOWED_COMPANY := by
  funext value
  cases value with
  | string s => simp [typicalCompany, allowedString, ALLOWED_COMPANY]
  | null => rfl
  | bool b => rfl
  | number r => rfl
  | array items => rfl
  | object fields => rfl

theorem readSlots_eq (p : JsonFields) :
    readSlots p = knownStrings ALLOWED_SLOTS (p.lookup "typicalOutingSlots") := by
  unfold readSlots knownStrings
  rw [contextualSlot_eq]

theorem sanitizeArray_eq (allowed : List String) (n : Nat) (value : Option Json) :
    sanitizeArray allowed n value = if (knownStrings allowed value).take n = [] then none
      else some ((knownStrings allowed value).take n) := by
  unfold sanitizeArray knownStrings
  split
  · exact sanitizeList_eq _
  · rw [List.take_nil, if_pos rfl]

/-- A list that is not cut is read as the strings the server knows of it. -/
theorem knownStrings_sanitizeArray (allowed : List String) (n : Nat) (value : Option Json) :
    knownStrings allowed ((sanitizeArray allowed n value).map ofStrings) =
      (knownStrings allowed value).take n := by
  rw [sanitizeArray_eq]
  split
  · rename_i hnone
    rw [hnone]
    rfl
  · refine filterMap_allowed_kept fun s hs => ?_
    have hmem := List.mem_of_mem_take hs
    unfold knownStrings at hmem
    split at hmem
    · obtain ⟨item, -, hitem⟩ := List.mem_filterMap.mp hmem
      exact (allowedString_eq_some.mp hitem).2
    · cases hmem

theorem has_iff_known {allowed : List String} {items : List Json} {s : String} (hs : s ∈ allowed) :
    has items s = true ↔ s ∈ knownStrings allowed (some (.array items)) := by
  rw [← has_kept hs, has_iff, knownStrings]
  simp

theorem has_slotItems_iff (p : JsonFields) {s : String} (hs : s ∈ ALLOWED_SLOTS) :
    has (slotItems p) s = true ↔ s ∈ readSlots p := by
  rw [readSlots_eq]
  unfold slotItems
  split
  · rename_i items hitems
    rw [hitems]
    exact has_iff_known hs
  · rename_i hnone
    unfold knownStrings
    split
    · rename_i items hitems
      exact absurd hitems (hnone items)
    · simp [has]

theorem has_oneCompany_iff (p : JsonFields) {s : String} :
    s ∈ (oneCompany p).filterMap typicalCompany ↔
      p.lookup "typicalCompany" = some (.string s) ∧ s ∈ ALLOWED_COMPANY := by
  rw [typicalCompany_eq, List.mem_filterMap]
  constructor
  · rintro ⟨value, hvalue, hs⟩
    obtain ⟨rfl, hallowed⟩ := allowedString_eq_some.mp hs
    rw [oneCompany, Option.mem_toList, Option.filter_eq_some_iff] at hvalue
    exact ⟨hvalue.1, hallowed⟩
  · rintro ⟨hcompany, hallowed⟩
    have htruthy : truthy (.string s) = true := by
      have hne : s ≠ "" := by
        rintro rfl
        simp [ALLOWED_COMPANY] at hallowed
      simpa [truthy] using hne
    refine ⟨.string s, ?_, allowedString_eq_some.mpr ⟨rfl, hallowed⟩⟩
    rw [oneCompany, Option.mem_toList, Option.filter_eq_some_iff]
    exact ⟨hcompany, htruthy⟩

/-- The readers agree on the companies but for an empty list before a company. -/
theorem has_companyItems_iff (p : JsonFields)
    (hempty : p.lookup "typicalCompanies" = some (.array []) →
      ∀ s ∈ ALLOWED_COMPANY, p.lookup "typicalCompany" ≠ some (.string s))
    {s : String} (hs : s ∈ ALLOWED_COMPANY) :
    has (companyItems p) s = true ↔ s ∈ readCompanies p := by
  have hone : has (oneCompany p) s = true ↔ s ∈ (oneCompany p).filterMap typicalCompany := by
    rw [typicalCompany_eq]
    exact has_iff_known hs
  unfold companyItems readCompanies
  cases hcompanies : p.lookup "typicalCompanies" with
  | none => exact hone
  | some value =>
    cases value with
    | array items =>
      cases items with
      | nil =>
        simp only [List.filterMap_nil, List.not_mem_nil, iff_false]
        intro hhas
        exact hempty hcompanies s hs ((has_oneCompany_iff p).mp (hone.mp hhas)).1
      | cons item items =>
        rw [typicalCompany_eq]
        exact has_iff_known hs
    | null => exact hone
    | bool b => exact hone
    | number r => exact hone
    | string t => exact hone
    | object fields => exact hone

theorem readSlots_sanitized (input : JsonFields) :
    readSlots (sanitizedFields input) = (readSlots input).take 8 := by
  rw [readSlots_eq, readSlots_eq, lookup_slots, knownStrings_sanitizeArray]

theorem readOneCompany (p : JsonFields) : (oneCompany p).filterMap typicalCompany =
    ((p.lookup "typicalCompany").bind (allowedString ALLOWED_COMPANY)).toList := by
  rw [typicalCompany_eq, oneCompany]
  cases p.lookup "typicalCompany" with
  | none => rfl
  | some value =>
    cases htruthy : truthy value with
    | true =>
      simp only [Option.filter_some, htruthy, if_true, Option.toList_some, Option.bind_some]
      cases hvalue : allowedString ALLOWED_COMPANY value with
      | none => rw [List.filterMap_cons_none hvalue, List.filterMap_nil, Option.toList_none]
      | some s => rw [List.filterMap_cons_some hvalue, List.filterMap_nil, Option.toList_some]
    | false =>
      have hnone : allowedString ALLOWED_COMPANY value = none := by
        cases value with
        | string s =>
          have hs : s = "" := by simpa [truthy] using htruthy
          rw [hs]
          rfl
        | null => rfl
        | bool b => rfl
        | number r => rfl
        | array items => rfl
        | object fields => rfl
      simp [htruthy, hnone]

theorem readCompanies_kept (input : JsonFields) :
    readCompanies (sanitizedFields input) = (sanitizeCompanies input).getD [] := by
  unfold readCompanies oneCompany
  rw [lookup_companies, lookup_company, typicalCompany_eq]
  cases hkept : sanitizeCompanies input with
  | none => rfl
  | some kept =>
    obtain ⟨items, hitems⟩ := sanitizeCompanies_some hkept
    exact filterMap_allowed_kept fun s hs => mem_sanitizeList hitems hs

theorem readCompanies_sanitized (input : JsonFields) :
    readCompanies (sanitizedFields input) = (readCompanies input).take 8 := by
  rw [readCompanies_kept]
  unfold sanitizeCompanies readCompanies
  split
  · rename_i items hitems
    rw [sanitizeList_eq, typicalCompany_eq]
    split
    · rename_i hnone
      rw [hnone]
      rfl
    · rfl
  · rw [readOneCompany]
    cases (input.lookup "typicalCompany").bind (allowedString ALLOWED_COMPANY) <;> rfl

/-- What is read of the companies is cut exactly when the list of known ones is. -/
theorem length_readCompanies_le_iff (input : JsonFields) : (readCompanies input).length ≤ 8 ↔
    (knownStrings ALLOWED_COMPANY (input.lookup "typicalCompanies")).length ≤ 8 := by
  unfold readCompanies knownStrings
  split
  · rw [typicalCompany_eq]
  · rw [readOneCompany]
    cases (input.lookup "typicalCompany").bind (allowedString ALLOWED_COMPANY) <;> simp

theorem take_eq_iff_length_le {α : Type} {n : Nat} {xs : List α} :
    xs.take n = xs ↔ xs.length ≤ n := by
  constructor
  · intro h
    have hlength := congrArg List.length h
    rw [List.length_take] at hlength
    omega
  · exact List.take_of_length_le

theorem reading_sanitized_iff (input : JsonFields) :
    readOutingPreferences (.object (sanitizedFields input)) =
        readOutingPreferences (.object input) ↔
      (readSlots input).length ≤ 8 ∧ (readCompanies input).length ≤ 8 := by
  simp only [readOutingPreferences, OutingReading.mk.injEq]
  rw [readSlots_sanitized, readCompanies_sanitized, take_eq_iff_length_le, take_eq_iff_length_le,
    and_comm]

/-! ## The sanitised preferences against the original ones -/

theorem keepsMeaning_of_fits (h : WellTyped input) (hfits : FitsSanitizer input) :
    KeepsMeaning (.object input) (.object (sanitizedFields input)) := by
  have hreading : readOutingPreferences (.object (sanitizedFields input)) =
      readOutingPreferences (.object input) := by
    rw [reading_sanitized_iff, readSlots_eq, length_readCompanies_le_iff]
    exact ⟨hfits.slots, hfits.companies⟩
  have hread := OutingReading.mk.injEq .. ▸ hreading
  have htyped := wellTyped_sanitizedFields input
  have hslots : ∀ s ∈ ALLOWED_SLOTS,
      has (slotItems (sanitizedFields input)) s = has (slotItems input) s := by
    intro s hs
    rw [Bool.eq_iff_iff, has_slotItems_iff _ hs, has_slotItems_iff _ hs, hread.2]
  have hnoCompany : (sanitizedFields input).lookup "typicalCompanies" = some (.array []) →
      ∀ s ∈ ALLOWED_COMPANY, (sanitizedFields input).lookup "typicalCompany" ≠ some (.string s) := by
    intro _ s _
    rw [lookup_company]
    exact nofun
  have hcompanies : ∀ s ∈ ALLOWED_COMPANY,
      has (companyItems (sanitizedFields input)) s = has (companyItems input) s := by
    intro s hs
    rw [Bool.eq_iff_iff, has_companyItems_iff _ hnoCompany hs,
      has_companyItems_iff _ hfits.company hs, hread.1]
  refine ⟨?_, fun intent => ?_, hreading, fun now => ?_⟩
  · rw [sanitizeOutingPreferences, sanitizedFields_idempotent]
  · rw [score_eq htyped, score_eq h, outingBonus_congr hslots hcompanies]
  · rw [infer_eq htyped, infer_eq h, intentOf_congr hslots hcompanies]

/-- A company behind an empty list scores, and is lost. -/
theorem company_lost (h : WellTyped input)
    (hempty : input.lookup "typicalCompanies" = some (.array [])) {s : String}
    (hs : s ∈ ALLOWED_COMPANY) (hcompany : input.lookup "typicalCompany" = some (.string s)) :
    ∃ intent, scoreOutingAgainstIntent intent (.object (sanitizedFields input)) ≠
      scoreOutingAgainstIntent intent (.object input) := by
  have hitems : companyItems input = [.string s] := by
    have htruthy : truthy (.string s) = true := by
      have hne : s ≠ "" := by
        rintro rfl
        simp [ALLOWED_COMPANY] at hs
      simpa [truthy] using hne
    rw [companyItems, hempty, oneCompany, hcompany]
    simp [htruthy]
  have hnone : companyItems (sanitizedFields input) = [] := by
    have hsanitized : sanitizeCompanies input = none := by
      rw [sanitizeCompanies, hempty]
      rfl
    rw [companyItems, lookup_companies, hsanitized, oneCompany, lookup_company]
    rfl
  have hscore : ∀ intent, scoreOutingAgainstIntent intent (.object (sanitizedFields input)) =
      scoreOutingAgainstIntent intent (.object input) →
        outingBonus intent (slotItems (sanitizedFields input)) [] =
          outingBonus intent (slotItems input) [.string s] := by
    intro intent hsame
    rw [score_eq (wellTyped_sanitizedFields input), score_eq h, hnone, hitems] at hsame
    exact Except.ok.inj hsame
  simp only [ALLOWED_COMPANY, List.mem_cons, List.not_mem_nil, or_false] at hs
  rcases hs with rfl | rfl | rfl | rfl
  · exact ⟨.solo, fun hsame => by simpa [outingBonus, has] using hscore _ hsame⟩
  · exact ⟨.firstDate, fun hsame => by simpa [outingBonus, has] using hscore _ hsame⟩
  · exact ⟨.group4, fun hsame => by simpa [outingBonus, has] using hscore _ hsame⟩
  · exact ⟨.group4, fun hsame => by simpa [outingBonus, has] using hscore _ hsame⟩

/-- Sanitising is always idempotent; what the three readers see of a well-typed
object stays the same exactly when the sanitiser has room for what it knows. -/
theorem sanitizing_keeps_meaning_iff (h : WellTyped input) :
    ∃ sanitized, sanitizeOutingPreferences (.object input) = .ok sanitized ∧
      (KeepsMeaning (.object input) sanitized ↔ FitsSanitizer input) := by
  refine ⟨.object (sanitizedFields input), rfl, fun hkeeps => ?_, keepsMeaning_of_fits h⟩
  have hlengths := (reading_sanitized_iff input).mp hkeeps.reading
  refine ⟨?_, (length_readCompanies_le_iff input).mp hlengths.2, fun hempty s hs hcompany => ?_⟩
  · rw [← readSlots_eq]
    exact hlengths.1
  · obtain ⟨intent, hintent⟩ := company_lost h hempty hs hcompany
    exact hintent (hkeeps.score intent)

def aloneInTheMorning : JsonFields :=
  [("typicalOutingSlots", .array [.string "weekday_morning"]), ("typicalCompany", .string "solo")]

theorem wellTyped_aloneInTheMorning : WellTyped aloneInTheMorning where
  slots value h := by
    cases h
    exact ⟨["weekday_morning"], rfl⟩
  companies value h := by cases h
  priorities value h := by cases h
  company value h := by
    cases h
    exact ⟨"solo", rfl⟩

theorem fits_aloneInTheMorning : FitsSanitizer aloneInTheMorning where
  slots := by decide
  companies := by decide
  company h := by cases h

/-- The old field is read where the new one is absent. -/
theorem alone_in_the_morning_is_kept : ∃ sanitized,
    sanitizeOutingPreferences (.object aloneInTheMorning) = .ok sanitized ∧
      KeepsMeaning (.object aloneInTheMorning) sanitized := by
  obtain ⟨sanitized, hsanitized, hiff⟩ := sanitizing_keeps_meaning_iff wellTyped_aloneInTheMorning
  exact ⟨sanitized, hsanitized, hiff.mpr fits_aloneInTheMorning⟩

def nobodyThenAlone : JsonFields :=
  [("typicalCompanies", .array []), ("typicalCompany", .string "solo")]

theorem wellTyped_nobodyThenAlone : WellTyped nobodyThenAlone where
  slots value h := by cases h
  companies value h := by
    cases h
    exact ⟨[], rfl⟩
  priorities value h := by cases h
  company value h := by
    cases h
    exact ⟨"solo", rfl⟩

/-- Behind an empty list the company scores before it is sanitised, not after. -/
theorem nobody_hides_solo : ¬ ∀ input, WellTyped input → ∃ sanitized,
    sanitizeOutingPreferences (.object input) = .ok sanitized ∧
      KeepsMeaning (.object input) sanitized := by
  intro hall
  obtain ⟨sanitized, hsanitized, hkeeps⟩ := hall nobodyThenAlone wellTyped_nobodyThenAlone
  cases hsanitized
  exact absurd (hkeeps.score .solo) (by decide)

end Feca.Places
