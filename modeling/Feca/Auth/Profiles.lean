import Feca.Auth.Session
import Feca.Concurrency.Commit
import Feca.Content.UserContext
import Feca.Places.OutingPreferences

/-! # Profiles

Users edit their own profile, and delete their account. `updateMe` checks what it
is sent, finds the city, and writes profile and settings in one transaction. Calls
that fail leave the profile alone, and what is written is what one call has sent:
in particular the four columns of the location belong together.
-/

namespace Feca.Auth

open Concurrency Concurrency.Prog Relational
open Content (UserStats)
open Places (sanitizeOutingPreferences)
open Social (BadRequestException City ConflictException HttpException recordNotFound)

/-! ## Input -/

/-- What is not sent is `none`; a biography and preferences may be sent as null. -/
structure UpdateUserProfileInput where
  bio : Option (Option String) := none
  city : Option String := none
  cityGooglePlaceId : Option String := none
  displayName : Option String := none
  groupInvitePolicy : Option ApiGroupInvitePolicy := none
  pushEnabled : Option Bool := none
  lat : Option Rat := none
  lng : Option Rat := none
  username : Option String := none
  outingPreferences : Option Json := none

/-- What a call has from outside: the configuration, what Google answers to the id of
a city, the ids that are generated and the counts of the profile. -/
structure ProfileEnv where
  config : AuthConfig
  googlePlacesLocalOnly : Bool
  getCityByPlaceId : String → Except Thrown String
  cityId : Id
  settingsId : Id
  getProfileStats : Id → UserStats

/-! ## Statements -/

structure ValidationDetail where
  property : String
  constraint : String × String
  deriving DecidableEq, Repr

inductive ProfileFailure
  | http (exception : HttpException)
  | validation (message : String) (details : List ValidationDetail)
  | database (error : Thrown)
  deriving DecidableEq, Repr

abbrev ProfileProg := Prog AuthDb Empty ProfileFailure

/-- `Prisma.UserUncheckedUpdateInput`: what is not given keeps its value. -/
structure ProfileData where
  bio : Option (Option String)
  username : Option String
  displayName : Option String
  city : Option String
  cityId : Option Id
  lat : Option Rat
  lng : Option Rat
  outingPreferences : Option Json

def AuthUser.setProfile (user : AuthUser) (data : ProfileData) : AuthUser :=
  { user with
    bio := data.bio.getD user.bio
    username := data.username.getD user.username
    displayName := data.displayName.getD user.displayName
    city := data.city <|> user.city
    cityId := data.cityId <|> user.cityId
    lat := data.lat <|> user.lat
    lng := data.lng <|> user.lng
    outingPreferences := data.outingPreferences.getD user.outingPreferences }

structure SettingsData where
  groupInvitePolicy : Option GroupInvitePolicy
  pushEnabled : Option Bool

def SettingsData.write (data : SettingsData) (row : UserSettings) : UserSettings :=
  { row with
    groupInvitePolicy := data.groupInvitePolicy.getD row.groupInvitePolicy
    pushEnabled := data.pushEnabled.getD row.pushEnabled }

namespace AuthDb

variable (s : AuthDb)

def findUserByUsername (username : String) : Option AuthUser :=
  s.users.rows.find? (·.username == username)

def findCity (id : Id) : Option City := s.cities.rows.find? (·.id == id)

def findCityByGooglePlaceId (googlePlaceId : String) : Option City :=
  s.cities.rows.find? (·.googlePlaceId == googlePlaceId)

def findSettings (userId : Id) : Option UserSettings := s.settings.rows.find? (·.userId == userId)

/-- `userSettings.upsert`: what is created has defaults where nothing is given. -/
def writeSettings (settingsId userId : Id) (data : SettingsData) :
    Except Thrown (AuthDb × UserSettings) :=
  match s.findSettings userId with
  | some row =>
      .ok ({ s with settings := s.settings.update (·.userId == userId) data.write }, data.write row)
  | none =>
      if (s.findUser userId).isSome then
        match s.settings.insert (data.write { id := settingsId, userId }) with
        | none => .error uniqueViolation
        | some settings => .ok ({ s with settings }, data.write { id := settingsId, userId })
      else .error foreignKeyViolation

/-- The user and what goes with them. -/
def deleteUser (userId : Id) : AuthDb where
  users := s.users.erase (·.id == userId)
  settings := s.settings.erase (·.userId == userId)
  cities := s.cities
  sessions := s.sessions.erase (·.userId == userId)

end AuthDb

/-- `user.update` by id, with the city. -/
def updateUser (userId : Id) (data : ProfileData) : ProfileProg (AuthUser × Option City) :=
  stmt fun s =>
    match s.findUser userId with
    | none => ⟨s, [], .error (.database recordNotFound)⟩
    | some user =>
        if data.cityId.all fun id => (s.findCity id).isSome then
          match s.users.modify (·.id == userId) (·.setProfile data) with
          | none => ⟨s, [], .error (.database uniqueViolation)⟩
          | some users => ⟨{ s with users }, [],
              .ok (user.setProfile data, (user.setProfile data).cityId.bind s.findCity)⟩
        else ⟨s, [], .error (.database foreignKeyViolation)⟩

def upsertSettings (settingsId userId : Id) (data : SettingsData) : ProfileProg UserSettings :=
  stmt fun s =>
    match s.writeSettings settingsId userId data with
    | .ok (t, row) => ⟨t, [], .ok row⟩
    | .error e => ⟨s, [], .error (.database e)⟩

/-- The transaction of `updateUserProfile`. -/
def updateUserProfile (settingsId userId : Id) (data : ProfileData) (settingsData : SettingsData) :
    ProfileProg ((AuthUser × Option City) × UserSettings) :=
  transaction do
    let user ← updateUser userId data
    let settings ← upsertSettings settingsId userId settingsData
    pure (user, settings)

def deleteUserById (userId : Id) : ProfileProg Unit :=
  stmt fun s =>
    match s.findUser userId with
    | none => ⟨s, [], .error (.database recordNotFound)⟩
    | some _ => ⟨s.deleteUser userId, [], .ok ()⟩

/-- `city.upsert`, of the id of Google. -/
def upsertCity (cityId : Id) (googlePlaceId : String) : ProfileProg Id :=
  stmt fun s =>
    match s.findCityByGooglePlaceId googlePlaceId with
    | some city => ⟨s, [], .ok city.id⟩
    | none =>
        match s.cities.insert { id := cityId, googlePlaceId } with
        | none => ⟨s, [], .error (.database uniqueViolation)⟩
        | some cities => ⟨{ s with cities }, [], .ok cityId⟩

def ensureSettings (settingsId userId : Id) : ProfileProg Unit :=
  stmt fun s =>
    match s.upsertSettings { id := settingsId, userId } with
    | .ok t => ⟨t, [], .ok ()⟩
    | .error e => ⟨s, [], .error (.database e)⟩

/-! ## The service -/

structure ProfileView extends SessionUser, UserStats

def profileView (env : ProfileEnv) (user : AuthUser) (cityRef : Option City)
    (settings : Option UserSettings) : ProfileView where
  toSessionUser := serializeAuthenticatedUser env.config user cityRef settings
  toUserStats := env.getProfileStats user.id

/-- `throw new …`. -/
def throwException {α : Type} (exception : HttpException) : ProfileProg α := .fail (.http exception)

def AuthService.getMe (env : ProfileEnv) (userId : Id) : ProfileProg ProfileView := do
  let user ← query fun s : AuthDb => s.findUser userId
  let cityRef ← query fun s : AuthDb => (user.bind (·.cityId)).bind s.findCity
  ensureSettings env.settingsId userId
  let settings ← query fun s : AuthDb => s.findSettings userId
  match user with
  | none => throwException (UnauthorizedException "User not found")
  | some user => pure (profileView env user cityRef settings)

def AuthService.deleteMyAccount (userId : Id) : ProfileProg Unit := do
  match ← query fun s : AuthDb => s.findUser userId with
  | none => throwException (UnauthorizedException "User not found")
  | some _ => deleteUserById userId

def usernameTaken : HttpException := ConflictException "El nombre de usuario ya está en uso"

/-- A username that is sent, unless it is empty, must not be another user's. -/
def checkUsername (userId : Id) (username : Option String) : ProfileProg Unit := do
  match username.bind orNull with
  | none => pure ()
  | some username =>
      match ← query fun s : AuthDb => s.findUserByUsername username with
      | none => pure ()
      | some existing =>
          if existing.id ≠ userId then throwException usernameTaken else pure ()

/-- Which of the fields of a location are sent, in the order of the check. -/
def locationFields (input : UpdateUserProfileInput) : List (String × Bool) :=
  [("city", input.city.isSome), ("cityGooglePlaceId", input.cityGooglePlaceId.isSome),
    ("lat", input.lat.isSome), ("lng", input.lng.isSome)]

/-- All four fields or none; the error names the first that is missing. -/
def assertLocationInputConsistency (input : UpdateUserProfileInput) : ProfileProg Unit :=
  if (locationFields input).any (·.2) && !(locationFields input).all (·.2) then
    .fail (.validation "Request validation failed"
      [⟨(((locationFields input).find? fun field => !field.2).map (·.1)).getD "lng",
        ("locationContext", "city, cityGooglePlaceId, lat and lng must be sent together")⟩])
  else pure ()

/-- What goes wrong in finding the city is an invalid id. -/
def AuthService.resolveCityId (env : ProfileEnv) (cityGooglePlaceId : String) : ProfileProg Id := do
  let invalid := BadRequestException "Invalid cityGooglePlaceId"
  if env.googlePlacesLocalOnly then
    match ← query fun s : AuthDb => s.findCityByGooglePlaceId cityGooglePlaceId with
    | none => throwException invalid
    | some existing => pure existing.id
  else
    match env.getCityByPlaceId cityGooglePlaceId with
    | .error _ => throwException invalid
    | .ok googlePlaceId =>
        match ← (upsertCity env.cityId googlePlaceId).attempt with
        | .error (_ : ProfileFailure) => throwException invalid
        | .ok id => pure id

/-- The city, where one is sent. -/
def resolveSentCity (env : ProfileEnv) : Option String → ProfileProg (Option Id)
  | none => pure none
  | some cityGooglePlaceId => do
      let id ← AuthService.resolveCityId env cityGooglePlaceId
      pure (some id)

def outingForDb : Option Json → ProfileProg (Option Json)
  | none => pure none
  | some preferences =>
      match sanitizeOutingPreferences preferences with
      | .error _ => throwException (BadRequestException "Formato invalido en outingPreferences")
      | .ok sanitized => pure (some sanitized)

def mapApiGroupInvitePolicyToPrisma : ApiGroupInvitePolicy → GroupInvitePolicy
  | .fromFollowingOnly => .followingOnly
  | .everyone => .anyone

def UpdateUserProfileInput.data (input : UpdateUserProfileInput) (cityId : Option Id)
    (outingPreferences : Option Json) : ProfileData where
  bio := input.bio
  username := input.username
  displayName := input.displayName
  city := input.city
  cityId := cityId
  lat := input.lat
  lng := input.lng
  outingPreferences := outingPreferences

def UpdateUserProfileInput.settings (input : UpdateUserProfileInput) : SettingsData where
  groupInvitePolicy := input.groupInvitePolicy.map mapApiGroupInvitePolicyToPrisma
  pushEnabled := input.pushEnabled

/-- `PrismaClientKnownRequestError`, `P2002`. -/
def isUniqueViolation : ProfileFailure → Bool
  | .database (.known code _) => code == "P2002"
  | _ => false

def AuthService.updateMe (env : ProfileEnv) (userId : Id) (input : UpdateUserProfileInput) :
    ProfileProg ProfileView := do
  match ← query fun s : AuthDb => s.findUser userId with
  | none => throwException (UnauthorizedException "User not found")
  | some _ => do
      checkUsername userId input.username
      assertLocationInputConsistency input
      let cityId ← resolveSentCity env input.cityGooglePlaceId
      let outingPreferences ← outingForDb input.outingPreferences
      match ← (updateUserProfile env.settingsId userId (input.data cityId outingPreferences)
          input.settings).attempt with
      | .error error =>
          if isUniqueViolation error then throwException usernameTaken else .fail error
      | .ok ((user, cityRef), settings) => pure (profileView env user cityRef (some settings))

/-! ## What calls leave behind -/

inductive ProfileCall
  | getMe (env : ProfileEnv) (userId : Id)
  | updateMe (env : ProfileEnv) (userId : Id) (input : UpdateUserProfileInput)
  | deleteMyAccount (userId : Id)

inductive ProfileResult
  | profile (view : ProfileView)
  | deleted

def ProfileCall.prog : ProfileCall → ProfileProg ProfileResult
  | .getMe env userId => .profile <$> AuthService.getMe env userId
  | .updateMe env userId input => .profile <$> AuthService.updateMe env userId input
  | .deleteMyAccount userId => (fun _ => .deleted) <$> AuthService.deleteMyAccount userId

/-- What some calls sent, each with what it had from outside. -/
abbrev Sent := ProfileEnv → UpdateUserProfileInput → Prop

/-- A value is the old one, or as one of the calls sent it. -/
def KeptOr {α : Type} (sent : Sent) (tells : α → Sent) (old new : α) : Prop :=
  new = old ∨ ∃ env input, sent env input ∧ tells new env input

abbrev Location := Option String × Option Id × Option Rat × Option Rat

def AuthUser.location (u : AuthUser) : Location := (u.city, u.cityId, u.lat, u.lng)

/-- The id of Google under which the city of an id that is sent is stored. -/
def ProfileEnv.Resolves (env : ProfileEnv) (cityGooglePlaceId googlePlaceId : String) : Prop :=
  if env.googlePlacesLocalOnly = true then googlePlaceId = cityGooglePlaceId
  else env.getCityByPlaceId cityGooglePlaceId = .ok googlePlaceId

/-- A location as it was sent, the whole of it, with the city that it names. -/
def TellsLocation (cities : List City) (location : Location) : Sent := fun env input =>
  ∃ city cityGooglePlaceId lat lng, input.city = some city ∧
    input.cityGooglePlaceId = some cityGooglePlaceId ∧ input.lat = some lat ∧
    input.lng = some lng ∧ ∃ stored ∈ cities, env.Resolves cityGooglePlaceId stored.googlePlaceId ∧
      location = (some city, some stored.id, some lat, some lng)

/-- Preferences as they were sent, sanitised. -/
def TellsPreferences (preferences : Json) : Sent := fun _ input =>
  ∃ raw, input.outingPreferences = some raw ∧ sanitizeOutingPreferences raw = .ok preferences

namespace AuthDb

variable (s : AuthDb)

def policyOf (userId : Id) : GroupInvitePolicy :=
  ((s.findSettings userId).map (·.groupInvitePolicy)).getD .anyone

def pushEnabledOf (userId : Id) : Bool := ((s.findSettings userId).map (·.pushEnabled)).getD true

end AuthDb

/-- What has become of a user. -/
structure EditedUser (sent : Sent) (s t : AuthDb) (v u : AuthUser) : Prop where
  id : u.id = v.id
  email : u.email = v.email
  isEditor : u.isEditor = v.isEditor
  avatarUrl : u.avatarUrl = v.avatarUrl
  location : KeptOr sent (TellsLocation t.cities.rows) v.location u.location
  bio : KeptOr sent (fun bio _ input => input.bio = some bio) v.bio u.bio
  username : KeptOr sent (fun username _ input => input.username = some username) v.username u.username
  displayName : KeptOr sent (fun displayName _ input => input.displayName = some displayName)
    v.displayName u.displayName
  outingPreferences : KeptOr sent TellsPreferences v.outingPreferences u.outingPreferences
  groupInvitePolicy : KeptOr sent (fun policy _ input =>
    input.groupInvitePolicy.map mapApiGroupInvitePolicyToPrisma = some policy)
      (s.policyOf v.id) (t.policyOf u.id)
  pushEnabled : KeptOr sent (fun pushEnabled _ input => input.pushEnabled = some pushEnabled)
    (s.pushEnabledOf v.id) (t.pushEnabledOf u.id)

variable {ι : Type}

/-- What some of the calls sent for a user. -/
def sentFor (calls : ι → ProfileCall) (I : ι → Prop) (userId : Id) : Sent := fun env input =>
  ∃ i, I i ∧ calls i = .updateMe env userId input

/-- What some of the calls have made of a store: every user is one there was, edited
by their own calls at most, and nobody went but by their own. -/
structure Edited (calls : ι → ProfileCall) (I : ι → Prop) (s t : AuthDb) : Prop where
  users : ∀ u ∈ t.users.rows, ∃ v ∈ s.users.rows, EditedUser (sentFor calls I u.id) s t v u
  gone : ∀ v ∈ s.users.rows, (∃ u ∈ t.users.rows, u.id = v.id) ∨
    ∃ i, I i ∧ calls i = .deleteMyAccount v.id
  cities : s.cities.rows ⊆ t.cities.rows

/-! ### One after the other -/

section blames

variable {α : Type} {sent sent' : Sent} {tells tells' : α → Sent} {a b c : α}

theorem KeptOr.trans (h : KeptOr sent tells a b) (h' : KeptOr sent tells b c) :
    KeptOr sent tells a c := by
  rcases h' with rfl | hsent
  · exact h
  · exact .inr hsent

theorem KeptOr.mono (hsent : ∀ env input, sent env input → sent' env input)
    (htells : ∀ x env input, tells x env input → tells' x env input) (h : KeptOr sent tells a b) :
    KeptOr sent' tells' a b :=
  h.imp id fun ⟨env, input, hin, hsaid⟩ => ⟨env, input, hsent env input hin, htells b env input hsaid⟩

theorem TellsLocation.mono {cities cities' : List City} (h : cities ⊆ cities') (location : Location)
    (env : ProfileEnv) (input : UpdateUserProfileInput)
    (htells : TellsLocation cities location env input) : TellsLocation cities' location env input := by
  obtain ⟨city, id, lat, lng, hcity, hid, hlat, hlng, stored, hstored, hrest⟩ := htells
  exact ⟨city, id, lat, lng, hcity, hid, hlat, hlng, stored, h hstored, hrest⟩

variable {s t r : AuthDb} {u v w : AuthUser}

theorem EditedUser.refl (sent : Sent) (s : AuthDb) (u : AuthUser) : EditedUser sent s s u u :=
  ⟨rfl, rfl, rfl, rfl, .inl rfl, .inl rfl, .inl rfl, .inl rfl, .inl rfl, .inl rfl, .inl rfl⟩

theorem EditedUser.trans (h : EditedUser sent s t w v) (h' : EditedUser sent t r v u)
    (hcities : t.cities.rows ⊆ r.cities.rows) : EditedUser sent s r w u where
  id := h'.id.trans h.id
  email := h'.email.trans h.email
  isEditor := h'.isEditor.trans h.isEditor
  avatarUrl := h'.avatarUrl.trans h.avatarUrl
  location := (h.location.mono (fun _ _ hsent => hsent) (TellsLocation.mono hcities)).trans h'.location
  bio := h.bio.trans h'.bio
  username := h.username.trans h'.username
  displayName := h.displayName.trans h'.displayName
  outingPreferences := h.outingPreferences.trans h'.outingPreferences
  groupInvitePolicy := h.groupInvitePolicy.trans h'.groupInvitePolicy
  pushEnabled := h.pushEnabled.trans h'.pushEnabled

theorem EditedUser.mono (h : EditedUser sent s t v u)
    (hsent : ∀ env input, sent env input → sent' env input) : EditedUser sent' s t v u :=
  have keep {α : Type} {tells : α → Sent} {a b : α} (h : KeptOr sent tells a b) :
      KeptOr sent' tells a b := h.mono hsent fun _ _ _ htells => htells
  ⟨h.id, h.email, h.isEditor, h.avatarUrl, keep h.location, keep h.bio, keep h.username,
    keep h.displayName, keep h.outingPreferences, keep h.groupInvitePolicy, keep h.pushEnabled⟩

theorem blames_edited (calls : ι → ProfileCall) : Blames (Edited calls) where
  refl I s := ⟨fun u hu => ⟨u, hu, .refl _ s u⟩, fun v hv => .inl ⟨v, hv, rfl⟩,
    List.Subset.refl _⟩
  trans {I s t r} h h' := by
    refine ⟨fun u hu => ?_, fun w hw => ?_, List.Subset.trans h.cities h'.cities⟩
    · obtain ⟨v, hv, hvu⟩ := h'.users u hu
      obtain ⟨w, hw, hwv⟩ := h.users v hv
      rw [← hvu.id] at hwv
      exact ⟨w, hw, hwv.trans hvu h'.cities⟩
    · rcases h.gone w hw with ⟨v, hv, hid⟩ | hgone
      · rcases h'.gone v hv with ⟨u, hu, hid'⟩ | hgone
        · exact .inl ⟨u, hu, hid'.trans hid⟩
        · rw [hid] at hgone
          exact .inr hgone
      · exact .inr hgone
  mono {I J s t} hIJ h := by
    refine ⟨fun u hu => ?_, fun v hv => ?_, h.cities⟩
    · obtain ⟨v, hv, hvu⟩ := h.users u hu
      exact ⟨v, hv, hvu.mono fun env input ⟨i, hi, hcall⟩ => ⟨i, hIJ i hi, hcall⟩⟩
    · exact (h.gone v hv).imp id fun ⟨i, hi, hcall⟩ => ⟨i, hIJ i hi, hcall⟩

end blames

/-! ### Before the transaction -/

section neutral

variable {calls : ι → ProfileCall} {I : ι → Prop} {s t : AuthDb} {env : ProfileEnv} {userId : Id}

theorem edited_of_users (husers : t.users = s.users) (hcities : s.cities.rows ⊆ t.cities.rows)
    (hpolicy : ∀ id, t.policyOf id = s.policyOf id)
    (hpush : ∀ id, t.pushEnabledOf id = s.pushEnabledOf id) : Edited calls I s t := by
  refine ⟨fun u hu => ⟨u, husers ▸ hu, ?_⟩, fun v hv => .inl ⟨v, husers ▸ hv, rfl⟩, hcities⟩
  exact ⟨rfl, rfl, rfl, rfl, .inl rfl, .inl rfl, .inl rfl, .inl rfl, .inl rfl,
    .inl (hpolicy u.id), .inl (hpush u.id)⟩

theorem neutral_upsertCity (cityId : Id) (googlePlaceId : String) :
    (upsertCity cityId googlePlaceId).Neutral (Edited calls)
      (fun id t => ∃ city ∈ t.cities.rows, city.id = id ∧ city.googlePlaceId = googlePlaceId) s := by
  refine neutral_stmt fun t _ => ?_
  split
  · rename_i city hfound
    refine ⟨(blames_edited calls).refl _ t, fun id hid => ?_⟩
    cases hid
    exact ⟨city, List.mem_of_find?_eq_some hfound, rfl, by simpa using List.find?_some hfound⟩
  · split
    · exact ⟨(blames_edited calls).refl _ t, fun id hid => by cases hid⟩
    · rename_i cities hinsert
      have hrows := (Table.insert_eq_some hinsert).1
      refine ⟨edited_of_users rfl ?_ (fun _ => rfl) (fun _ => rfl), fun id hid => ?_⟩
      · rw [hrows]
        exact List.subset_append_left _ _
      · cases hid
        refine ⟨{ id := cityId, googlePlaceId }, ?_, rfl, rfl⟩
        rw [hrows]
        exact List.mem_append_right _ List.mem_cons_self

/-- The city that stands for the id that is sent. -/
def CityFor (env : ProfileEnv) (cityGooglePlaceId : String) (cityId : Id) (s : AuthDb) : Prop :=
  ∃ city ∈ s.cities.rows, city.id = cityId ∧ env.Resolves cityGooglePlaceId city.googlePlaceId

theorem neutral_resolveCityId (cityGooglePlaceId : String) :
    (AuthService.resolveCityId env cityGooglePlaceId).Neutral (Edited calls)
      (CityFor env cityGooglePlaceId) s := by
  have hR := blames_edited calls
  unfold AuthService.resolveCityId
  dsimp only
  split
  · rename_i hlocal
    refine neutral_bind hR (Q := fun found t => ∀ city, found = some city →
      CityFor env cityGooglePlaceId city.id t) (neutral_query hR fun t _ city hfound => ?_)
      fun found t _ hfound => ?_
    · exact ⟨city, List.mem_of_find?_eq_some hfound, rfl,
        (if_pos hlocal).mpr (by simpa using List.find?_some hfound)⟩
    · cases found with
      | none => trivial
      | some city => exact hfound city rfl
  · rename_i hremote
    split
    · trivial
    · rename_i googlePlaceId hanswer
      refine neutral_bind hR (neutral_attempt (neutral_upsertCity env.cityId googlePlaceId))
        fun stored t _ hstored => ?_
      cases stored with
      | error e => trivial
      | ok id =>
          obtain ⟨city, hcity, hid, hgoogle⟩ := hstored id rfl
          refine ⟨city, hcity, hid, (if_neg hremote).mpr ?_⟩
          rw [hgoogle]
          exact hanswer

/-- A city was sent and found, or none was sent. -/
def SentCity (env : ProfileEnv) (sent : Option String) (cityId : Option Id) (s : AuthDb) : Prop :=
  match sent with
  | none => cityId = none
  | some cityGooglePlaceId => ∃ id, cityId = some id ∧ CityFor env cityGooglePlaceId id s

theorem neutral_resolveSentCity (sent : Option String) :
    (resolveSentCity env sent).Neutral (Edited calls) (SentCity env sent) s := by
  cases sent with
  | none => exact rfl
  | some cityGooglePlaceId =>
      exact neutral_bind (blames_edited calls) (neutral_resolveCityId cityGooglePlaceId)
        fun id t _ hid => ⟨id, rfl, hid⟩

theorem neutral_checkUsername (username : Option String) :
    (checkUsername userId username).Neutral (Edited calls) (fun _ _ => True) s := by
  have hR := blames_edited calls
  unfold checkUsername
  split
  · trivial
  · refine neutral_bind hR (Q := fun _ _ => True) (neutral_query hR fun _ _ => trivial)
      fun found t _ _ => ?_
    split
    · trivial
    · split
      · trivial
      · trivial

/-- The whole of a location is sent, or nothing of it. -/
def WholeLocation (input : UpdateUserProfileInput) : Prop :=
  (∃ city cityGooglePlaceId lat lng, input.city = some city ∧
    input.cityGooglePlaceId = some cityGooglePlaceId ∧ input.lat = some lat ∧
      input.lng = some lng) ∨
    (input.city = none ∧ input.cityGooglePlaceId = none ∧ input.lat = none ∧ input.lng = none)

theorem neutral_assertLocation (input : UpdateUserProfileInput) :
    (assertLocationInputConsistency input).Neutral (Edited calls)
      (fun _ _ => WholeLocation input) s := by
  unfold assertLocationInputConsistency
  split
  · trivial
  · rename_i hwhole
    show WholeLocation input
    unfold WholeLocation
    unfold locationFields at hwhole
    cases hcity : input.city <;> cases hid : input.cityGooglePlaceId <;>
      cases hlat : input.lat <;> cases hlng : input.lng <;> simp_all

/-- Preferences were sent and sanitised, or none were sent. -/
def SentPreferences (sent stored : Option Json) : Prop :=
  match sent with
  | none => stored = none
  | some raw => ∃ sanitized, stored = some sanitized ∧ sanitizeOutingPreferences raw = .ok sanitized

theorem neutral_outingForDb (sent : Option Json) :
    (outingForDb sent).Neutral (Edited calls) (fun stored _ => SentPreferences sent stored) s := by
  cases sent with
  | none => exact rfl
  | some raw =>
      unfold outingForDb
      dsimp only
      cases hraw : sanitizeOutingPreferences raw with
      | error e => trivial
      | ok sanitized => exact ⟨sanitized, rfl, hraw⟩

end neutral

/-! ### The transaction -/

section transaction

variable {calls : ι → ProfileCall} {i : ι} {s t : AuthDb} {env : ProfileEnv} {userId : Id}

theorem updateUser_run {data : ProfileData} {a : AuthUser × Option City}
    (h : ((updateUser userId data).run s).result = .ok a) : ∃ users,
      s.users.modify (·.id == userId) (·.setProfile data) = some users ∧
      ((updateUser userId data).run s).store = { s with users } := by
  unfold updateUser at h ⊢
  rw [run_stmt] at h ⊢
  split at h
  · cases h
  · split at h
    · split at h
      · cases h
      · rename_i hcity _ users hmodify
        refine ⟨users, hmodify, ?_⟩
        simp only [hcity, if_true]
    · cases h

theorem findSettings_spec {id : Id} {row : UserSettings} (h : s.findSettings id = some row) :
    row ∈ s.settings.rows ∧ row.userId = id :=
  ⟨List.mem_of_find?_eq_some h, by simpa using List.find?_some h⟩

theorem findSettings_update (data : SettingsData) (id : Id) : AuthDb.findSettings
    { s with settings := s.settings.update (·.userId == userId) data.write } id =
      (s.findSettings id).map fun row =>
        if row.userId == userId then data.write row else row := by
  show List.find? _ (s.settings.rows.map _) = Option.map _ (List.find? _ s.settings.rows)
  rw [List.find?_map]
  refine congrArg (Option.map _) (congrArg (List.find? · _) (funext fun row => ?_))
  dsimp only [Function.comp]
  split
  · rfl
  · rfl

theorem findSettings_insert {row : UserSettings} {settings : Table UserSettings}
    (hinsert : s.settings.insert row = some settings) (hnone : s.findSettings row.userId = none)
    (id : Id) : AuthDb.findSettings { s with settings } id =
      if id = row.userId then some row else s.findSettings id := by
  have hrows := (Table.insert_eq_some hinsert).1
  have hfind : AuthDb.findSettings { s with settings } id =
      (s.findSettings id).or (List.find? (·.userId == id) [row]) := by
    unfold AuthDb.findSettings
    rw [hrows, List.find?_append]
  rw [hfind]
  by_cases hid : id = row.userId
  · rw [if_pos hid, hid, hnone]
    simp
  · have hother : (row.userId == id) = false := beq_false_of_ne fun h => hid h.symm
    rw [if_neg hid]
    simp [hother]

/-- Only the settings of one user are written, from what they were or the defaults. -/
theorem findSettings_write {settingsId : Id} {data : SettingsData} {row : UserSettings}
    (h : s.writeSettings settingsId userId data = .ok (t, row)) :
    t.users = s.users ∧ t.cities = s.cities ∧
    row = data.write ((s.findSettings userId).getD { id := settingsId, userId }) ∧
    ∀ id, t.findSettings id = if id = userId then some row else s.findSettings id := by
  unfold AuthDb.writeSettings at h
  split at h
  · rename_i found hfound
    cases h
    refine ⟨rfl, rfl, by rw [hfound]; rfl, fun id => ?_⟩
    rw [findSettings_update]
    split
    · rename_i hid
      rw [hid, hfound, Option.map_some, if_pos (by simpa using (findSettings_spec hfound).2)]
    · rename_i hid
      cases hother : s.findSettings id with
      | none => rfl
      | some row =>
          have huser := (findSettings_spec hother).2
          rw [Option.map_some, if_neg (by simpa [huser] using hid)]
  · rename_i hnone
    split at h
    · split at h
      · cases h
      · rename_i settings hinsert
        cases h
        refine ⟨rfl, rfl, by rw [hnone]; rfl, fun id => ?_⟩
        exact findSettings_insert hinsert hnone id
    · cases h

theorem policyOf_write {settingsId : Id} {data : SettingsData} {row : UserSettings}
    (h : s.writeSettings settingsId userId data = .ok (t, row)) (id : Id) :
    t.policyOf id = (if id = userId then data.groupInvitePolicy.getD (s.policyOf id)
      else s.policyOf id) ∧
    t.pushEnabledOf id = (if id = userId then data.pushEnabled.getD (s.pushEnabledOf id)
      else s.pushEnabledOf id) := by
  obtain ⟨-, -, rfl, hfind⟩ := findSettings_write h
  unfold AuthDb.policyOf AuthDb.pushEnabledOf
  rw [hfind]
  by_cases hid : id = userId
  · subst hid
    simp only [if_true]
    cases s.findSettings id with
    | none => exact ⟨rfl, rfl⟩
    | some row => exact ⟨rfl, rfl⟩
  · simp only [if_neg hid, and_self]

/-- A column for which a value may be sent. -/
theorem keptOr_getD {α : Type} {sent : Sent} {tells : α → Sent} {x : Option α} {old : α}
    {input : UpdateUserProfileInput} (hsent : sent env input)
    (h : ∀ value, x = some value → tells value env input) :
    KeptOr sent tells old (x.getD old) := by
  cases x with
  | none => exact .inl rfl
  | some value => exact .inr ⟨env, input, hsent, h value rfl⟩

theorem location_setProfile {input : UpdateUserProfileInput} {cityId : Option Id}
    {outingPreferences : Option Json} {sent : Sent} (hsent : sent env input)
    (hwhole : WholeLocation input) (hcity : SentCity env input.cityGooglePlaceId cityId s)
    (v : AuthUser) : KeptOr sent (TellsLocation s.cities.rows) v.location
      (v.setProfile (input.data cityId outingPreferences)).location := by
  rcases hwhole with ⟨city, cityGooglePlaceId, lat, lng, hname, hgoogle, hlat, hlng⟩ |
    ⟨hname, hgoogle, hlat, hlng⟩
  · rw [hgoogle] at hcity
    obtain ⟨id, rfl, stored, hstored, rfl, hresolves⟩ := hcity
    refine .inr ⟨env, input, hsent, city, cityGooglePlaceId, lat, lng, hname, hgoogle, hlat, hlng,
      stored, hstored, hresolves, ?_⟩
    simp [AuthUser.location, AuthUser.setProfile, UpdateUserProfileInput.data, hname, hlat, hlng]
  · rw [hgoogle] at hcity
    left
    simp [AuthUser.location, AuthUser.setProfile, UpdateUserProfileInput.data, hname, hlat, hlng,
      show cityId = none from hcity]

/-- What a call that has sent its input leaves of its user. -/
theorem editedUser_setProfile {input : UpdateUserProfileInput} {cityId : Option Id}
    {outingPreferences : Option Json} {settingsId : Id} {sent : Sent} {row : UserSettings}
    (hsent : sent env input) (hwhole : WholeLocation input)
    (hcity : SentCity env input.cityGooglePlaceId cityId s)
    (hpreferences : SentPreferences input.outingPreferences outingPreferences)
    {u : AuthDb} (hcities : u.cities = s.cities) (hsettings : u.settings = s.settings)
    (hwrite : u.writeSettings settingsId userId input.settings = .ok (t, row)) {v : AuthUser}
    (hid : v.id = userId) :
    EditedUser sent s t v (v.setProfile (input.data cityId outingPreferences)) := by
  obtain ⟨-, hkept, -, -⟩ := findSettings_write hwrite
  obtain ⟨hpolicy, hpush⟩ := policyOf_write hwrite v.id
  have hold : u.policyOf v.id = s.policyOf v.id ∧ u.pushEnabledOf v.id = s.pushEnabledOf v.id := by
    unfold AuthDb.policyOf AuthDb.pushEnabledOf AuthDb.findSettings
    rw [hsettings]
    exact ⟨rfl, rfl⟩
  rw [if_pos hid, hold.1] at hpolicy
  rw [if_pos hid, hold.2] at hpush
  refine ⟨rfl, rfl, rfl, rfl, ?_, keptOr_getD hsent fun _ => id, keptOr_getD hsent fun _ => id,
    keptOr_getD hsent fun _ => id, keptOr_getD hsent fun value hvalue => ?_, ?_, ?_⟩
  · rw [hkept, hcities]
    exact location_setProfile hsent hwhole hcity v
  · cases hraw : input.outingPreferences with
    | none =>
        rw [hraw] at hpreferences
        cases hpreferences.symm.trans hvalue
    | some raw =>
        rw [hraw] at hpreferences
        obtain ⟨sanitized, hstored, hsanitized⟩ := hpreferences
        cases hstored.symm.trans hvalue
        exact ⟨raw, hraw, hsanitized⟩
  · show KeptOr _ _ (s.policyOf v.id) (t.policyOf v.id)
    rw [hpolicy]
    exact keptOr_getD hsent fun _ => id
  · show KeptOr _ _ (s.pushEnabledOf v.id) (t.pushEnabledOf v.id)
    rw [hpush]
    exact keptOr_getD hsent fun _ => id

/-- What both statements leave together. -/
theorem edited_written {input : UpdateUserProfileInput} {cityId : Option Id}
    {outingPreferences : Option Json} {settingsId : Id}
    (hcall : calls i = .updateMe env userId input) (hwhole : WholeLocation input)
    (hcity : SentCity env input.cityGooglePlaceId cityId s)
    (hpreferences : SentPreferences input.outingPreferences outingPreferences)
    {users : Table AuthUser} {row : UserSettings} (hmodify : s.users.modify (·.id == userId)
      (·.setProfile (input.data cityId outingPreferences)) = some users)
    (hwrite : AuthDb.writeSettings { s with users } settingsId userId input.settings =
      .ok (t, row)) : Edited calls (· = i) s t := by
  obtain ⟨husers, hcities, -, -⟩ := findSettings_write hwrite
  have hrows := Table.modify_eq_some hmodify
  refine ⟨fun u hu => ?_, fun v hv => .inl ?_, by rw [hcities]; exact List.Subset.refl _⟩
  · rw [husers, hrows] at hu
    obtain ⟨v, hv, rfl⟩ := List.mem_map.mp hu
    refine ⟨v, hv, ?_⟩
    by_cases hid : v.id = userId
    · rw [if_pos (by simpa using hid)]
      exact editedUser_setProfile (u := { s with users }) ⟨i, rfl, hid ▸ hcall⟩ hwhole hcity
        hpreferences rfl rfl hwrite hid
    · rw [if_neg (by simpa using hid)]
      obtain ⟨hpolicy, hpush⟩ := policyOf_write hwrite v.id
      rw [if_neg hid] at hpolicy hpush
      exact ⟨rfl, rfl, rfl, rfl, .inl rfl, .inl rfl, .inl rfl, .inl rfl, .inl rfl,
        .inl hpolicy, .inl hpush⟩
  · refine ⟨_, by rw [husers, hrows]; exact List.mem_map_of_mem hv, ?_⟩
    split
    · rfl
    · rfl

theorem edited_updateUserProfile {input : UpdateUserProfileInput} {cityId : Option Id}
    {outingPreferences : Option Json} {settingsId : Id}
    (hcall : calls i = .updateMe env userId input) (hwhole : WholeLocation input)
    (hcity : SentCity env input.cityGooglePlaceId cityId s)
    (hpreferences : SentPreferences input.outingPreferences outingPreferences)
    {p : ProfileProg ((AuthUser × Option City) × UserSettings)}
    (hp : p = do
      let user ← updateUser userId (input.data cityId outingPreferences)
      let settings ← upsertSettings settingsId userId input.settings
      pure (user, settings))
    {a : (AuthUser × Option City) × UserSettings} (h : (p.run s).result = .ok a) :
    Edited calls (· = i) s (p.run s).store := by
  subst hp
  cases huser : ((updateUser userId (input.data cityId outingPreferences)).run s).result with
  | error e =>
      rw [run_bind_error huser] at h
      cases h
  | ok user =>
      obtain ⟨users, hmodify, hstore⟩ := updateUser_run huser
      rw [run_bind_ok huser, hstore] at h ⊢
      cases hwrite : AuthDb.writeSettings { s with users } settingsId userId input.settings with
      | error e =>
          have hresult : ((upsertSettings settingsId userId input.settings).run
              { s with users }).result = .error (.database e) := by
            simp [upsertSettings, hwrite]
          rw [run_bind_error hresult] at h
          cases h
      | ok written =>
          obtain ⟨t, row⟩ := written
          have hresult : (upsertSettings settingsId userId input.settings).run
              { s with users } = ⟨t, [], .ok row⟩ := by
            simp [upsertSettings, hwrite]
          rw [run_bind_ok (by rw [hresult]), hresult]
          exact edited_written hcall hwhole hcity hpreferences hmodify hwrite

end transaction

/-! ### Each call -/

section calls

variable {calls : ι → ProfileCall} {i : ι} {s : AuthDb} {env : ProfileEnv} {userId : Id}

theorem SentCity.later {t : AuthDb} {sent : Option String} {cityId : Option Id}
    (h : SentCity env sent cityId s) (hcities : s.cities.rows ⊆ t.cities.rows) :
    SentCity env sent cityId t := by
  cases sent with
  | none => exact h
  | some cityGooglePlaceId =>
      obtain ⟨id, hid, city, hcity, hrest⟩ := h
      exact ⟨id, hid, city, hcities hcity, hrest⟩

theorem commits_updateMe {input : UpdateUserProfileInput}
    (hcall : calls i = .updateMe env userId input) :
    (AuthService.updateMe env userId input).Commits (Edited calls) i s := by
  have hR := blames_edited calls
  unfold AuthService.updateMe
  refine commits_bind hR (Q := fun _ _ => True) (neutral_query hR fun _ _ => trivial)
    fun user t _ _ => ?_
  cases user with
  | none => trivial
  | some user =>
      refine commits_bind hR (neutral_checkUsername input.username) fun _ t _ _ => ?_
      refine commits_bind hR (neutral_assertLocation input) fun _ t _ hwhole => ?_
      refine commits_bind hR (neutral_resolveSentCity input.cityGooglePlaceId)
        fun cityId t _ hcity => ?_
      refine commits_bind hR (neutral_outingForDb input.outingPreferences)
        fun outingPreferences r htr hpreferences => ?_
      -- from here on the call writes, or throws
      refine commits_transaction_bind hR (fun error v => ?_) fun v a hrv hok => ?_
      · dsimp only
        split
        · trivial
        · trivial
      · refine ⟨edited_updateUserProfile hcall hwhole (hcity.later ?_) hpreferences rfl hok, trivial⟩
        exact List.Subset.trans htr.cities hrv.cities

theorem edited_ensureSettings {settingsId : Id} {t : AuthDb} {I : ι → Prop}
    (h : s.upsertSettings { id := settingsId, userId } = .ok t) : Edited calls I s t := by
  unfold AuthDb.upsertSettings at h
  split at h
  · cases h
    exact (blames_edited calls).refl I s
  · rename_i hnone
    split at h
    · split at h
      · cases h
      · rename_i settings hinsert
        cases h
        have hrows := (Table.insert_eq_some hinsert).1
        have hfind : ∀ id, AuthDb.findSettings { s with settings } id = (s.findSettings id).or
            (if id = userId then some { id := settingsId, userId } else none) := by
          intro id
          unfold AuthDb.findSettings
          rw [hrows, List.find?_append, List.find?_singleton]
          by_cases hid : id = userId
          · simp [hid]
          · simp [hid, Ne.symm hid]
        refine edited_of_users rfl (List.Subset.refl _) (fun id => ?_) fun id => ?_
        · unfold AuthDb.policyOf
          rw [hfind]
          cases s.findSettings id <;> by_cases hid : id = userId <;> simp [hid]
        · unfold AuthDb.pushEnabledOf
          rw [hfind]
          cases s.findSettings id <;> by_cases hid : id = userId <;> simp [hid]
    · cases h

theorem neutral_getMe : (AuthService.getMe env userId).Neutral (Edited calls) (fun _ _ => True) s := by
  have hR := blames_edited calls
  unfold AuthService.getMe
  refine neutral_bind hR (Q := fun _ _ => True) (neutral_query hR fun _ _ => trivial) fun user _ _ _ => ?_
  refine neutral_bind hR (Q := fun _ _ => True) (neutral_query hR fun _ _ => trivial) fun _ _ _ _ => ?_
  refine neutral_bind hR (Q := fun _ _ => True) (neutral_stmt fun t _ => ?_) fun _ _ _ _ => ?_
  · refine ⟨?_, fun _ _ => trivial⟩
    split
    · rename_i u hensured
      exact edited_ensureSettings hensured
    · exact hR.refl _ t
  · refine neutral_bind hR (Q := fun _ _ => True) (neutral_query hR fun _ _ => trivial) fun _ _ _ _ => ?_
    cases user with
    | none => trivial
    | some user => trivial

theorem edited_deleteUser (hcall : calls i = .deleteMyAccount userId) :
    Edited calls (· = i) s (s.deleteUser userId) where
  users u hu := by
    obtain ⟨hstored, hother⟩ := List.mem_filter.mp hu
    have hne : ¬ u.id = userId := by simpa using hother
    have hfind : (s.deleteUser userId).findSettings u.id = s.findSettings u.id := by
      unfold AuthDb.findSettings AuthDb.deleteUser
      rw [Table.rows_erase, List.find?_filter]
      refine congrArg (List.find? · _) (funext fun row => ?_)
      by_cases hrow : row.userId = u.id
      · simp [hrow, hne]
      · simp [hrow]
    refine ⟨u, hstored, rfl, rfl, rfl, rfl, .inl rfl, .inl rfl, .inl rfl, .inl rfl, .inl rfl, ?_, ?_⟩
    · left
      unfold AuthDb.policyOf
      rw [hfind]
    · left
      unfold AuthDb.pushEnabledOf
      rw [hfind]
  gone v hv := by
    by_cases hid : v.id = userId
    · exact .inr ⟨i, rfl, hid ▸ hcall⟩
    · exact .inl ⟨v, List.mem_filter.mpr ⟨hv, by simpa using hid⟩, rfl⟩
  cities := List.Subset.refl _

theorem commits_call (calls : ι → ProfileCall) (i : ι) (s : AuthDb) :
    (calls i).prog.Commits (Edited calls) i s := by
  have hR := blames_edited calls
  cases hcall : calls i with
  | getMe env userId => exact commits_bind hR neutral_getMe fun _ _ _ _ => trivial
  | updateMe env userId input => exact commits_map _ (commits_updateMe hcall)
  | deleteMyAccount userId =>
      refine commits_map _ (commits_bind hR (Q := fun _ _ => True)
        (neutral_query hR fun _ _ => trivial) fun user _ _ _ => ?_)
      cases user with
      | none => trivial
      | some user =>
          refine commits_stmt fun t _ => ?_
          cases t.findUser userId with
          | none => exact hR.refl _ t
          | some user => exact edited_deleteUser hcall

end calls

abbrev ProfileConfig (ι : Type) := Config ι AuthDb Empty ProfileFailure ProfileResult

/-- Every call is about to begin. -/
def openProfiles (s : AuthDb) (calls : ι → ProfileCall) : ProfileConfig ι :=
  ⟨s, fun i => (calls i).prog, []⟩

/-- Whatever calls there are and in whatever order their statements run: every user
is as before but for what their own calls have sent, each location as one of these
sent the whole of it and with the city it names, and only their own call deletes
them; and none of these calls has failed. -/
theorem profiles_hold_what_was_sent [DecidableEq ι] (s : AuthDb) (calls : ι → ProfileCall)
    (schedule : List ι) :
    Edited calls (fun i => ∀ e, ((openProfiles s calls).run schedule).calls i ≠ .fail e) s
      ((openProfiles s calls).run schedule).store :=
  Config.blames_run (blames_edited calls) (c := openProfiles s calls)
    (fun i => commits_call calls i s) schedule

end Feca.Auth
