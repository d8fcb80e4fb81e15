import Feca.Social.Statements

/-! # Sessions

A refresh token is the key to a session. `refreshSession` trades it for the next
one: the session it opens is revoked and another one created, in one
transaction. The revocation holds the row until the transaction ends, so nobody
else writes it in between, and nobody sees it before: the transaction is one
statement.
-/

namespace Feca.Auth

open Concurrency Concurrency.Prog Relational
open Social (City HttpException)

structure AuthUser extends User where
  email : String
  isEditor : Bool := false
  outingPreferences : Json := .null

structure Session where
  id : Id
  userId : Id
  refreshTokenHash : String
  expiresAt : Date
  revokedAt : Option Date := none
  deriving DecidableEq, Repr

/-- `@id`, `@unique email` and `@unique username` on `User`. -/
instance : UniqueColumns AuthUser where
  conflicts a b := a.id == b.id || a.email == b.email || a.username == b.username
  conflicts_self _ := by simp
  conflicts_symm a b := by
    rw [BEq.comm (a := a.id), BEq.comm (a := a.email), BEq.comm (a := a.username)]

/-- `@id` and `@unique refreshTokenHash` on `Session`. -/
instance : UniqueColumns Session where
  conflicts a b := a.id == b.id || a.refreshTokenHash == b.refreshTokenHash
  conflicts_self _ := by simp
  conflicts_symm a b := by rw [BEq.comm (a := a.id), BEq.comm (a := a.refreshTokenHash)]

structure AuthDb where
  users : Table AuthUser
  settings : Table UserSettings
  cities : Table City
  sessions : Table Session

/-- Neither revoked nor expired. -/
def Session.isActive (session : Session) (now : Date) : Bool :=
  session.expiresAt > now && session.revokedAt == none

namespace AuthDb

variable (s : AuthDb)

def findUser (id : Id) : Option AuthUser := s.users.rows.find? (·.id == id)

theorem session_unique {a b : Session} (ha : a ∈ s.sessions.rows) (hb : b ∈ s.sessions.rows)
    (h : a.id = b.id) : a = b :=
  Table.eq_of_conflicts ha hb (by simp [conflicts, h])

theorem session_unique_hash {a b : Session} (ha : a ∈ s.sessions.rows) (hb : b ∈ s.sessions.rows)
    (h : a.refreshTokenHash = b.refreshTokenHash) : a = b :=
  Table.eq_of_conflicts ha hb (by simp [conflicts, h])

/-- `session.updateMany` with the time of revocation. -/
def revokeSessions (p : Session → Bool) (date : Date) : AuthDb :=
  { s with sessions := s.sessions.update p fun x => { x with revokedAt := some date } }

variable {s} in
theorem mem_revokeSessions {p : Session → Bool} {date : Date} {y : Session} :
    y ∈ (s.revokeSessions p date).sessions.rows ↔ ∃ x ∈ s.sessions.rows,
      (if p x then { x with revokedAt := some date } else x) = y := by
  dsimp only [revokeSessions]
  exact Table.mem_update

/-- `session.create`. -/
def insertSession (session : Session) : Except Thrown AuthDb :=
  if (s.findUser session.userId).isSome then
    match s.sessions.insert session with
    | none => .error uniqueViolation
    | some sessions => .ok { s with sessions }
  else .error foreignKeyViolation

/-- `userSettings.upsert` with an empty update. -/
def upsertSettings (row : UserSettings) : Except Thrown AuthDb :=
  if s.settings.rows.any (·.userId == row.userId) then .ok s
  else if (s.findUser row.userId).isSome then
    match s.settings.insert row with
    | none => .error uniqueViolation
    | some settings => .ok { s with settings }
  else .error foreignKeyViolation

end AuthDb

/-! ## Statements -/

/-- What an observer sees: a session that was found, and one that was created,
with the session it replaces. -/
inductive AuthEvent
  | found (session : Session)
  | created (previousSessionId : Option Id) (session : Session)
  deriving DecidableEq, Repr

inductive AuthFailure
  | http (exception : HttpException)
  | database (error : Thrown)
  | rotationConflict
  deriving DecidableEq, Repr

abbrev AuthProg := Prog AuthDb AuthEvent AuthFailure

def UnauthorizedException (message : String) : HttpException where
  status := 401
  message := message

def throwHttp {α : Type} (exception : HttpException) : AuthProg α := .fail (.http exception)

/-- `findActiveSessionByRefreshTokenHash`, with its user. -/
def findActiveSessionByRefreshTokenHash (now : Date) (refreshTokenHash : String) :
    AuthProg (Option (Session × AuthUser)) :=
  stmt fun s =>
    let found := s.sessions.rows.find? fun x =>
      x.expiresAt > now && x.refreshTokenHash == refreshTokenHash && x.revokedAt == none
    ⟨s, found.toList.map .found, .ok (found.bind fun session =>
      (s.findUser session.userId).map fun user => (session, user))⟩

/-- `session.updateMany`: how many rows were revoked. -/
def revokeSessions (p : Session → Bool) (date : Date) : AuthProg Nat :=
  stmt fun s => ⟨s.revokeSessions p date, [], .ok (s.sessions.rows.filter p).length⟩

def createSession (previousSessionId : Option Id) (input : Session) : AuthProg Unit :=
  stmt fun s =>
    match s.insertSession input with
    | .ok t => ⟨t, [.created previousSessionId input], .ok ()⟩
    | .error e => ⟨s, [], .error (.database e)⟩

def ensureUserSettings (row : UserSettings) : AuthProg Unit :=
  stmt fun s =>
    match s.upsertSettings row with
    | .ok t => ⟨t, [], .ok ()⟩
    | .error e => ⟨s, [], .error (.database e)⟩

/-! ## The service -/

/-- The configuration of the service, and its cryptography. -/
structure AuthConfig where
  authAccessTokenTtlMinutes : Int
  authRefreshTokenTtlDays : Int
  fecaAdminEmailSet : List String
  toLowerCase : String → String
  toISOString : Date → String
  hashRefreshToken : String → String
  signAsync : (email sub : String) → String

/-- What a call reads off its clock, time after time, and what it generates. -/
structure AuthEnv where
  clock : Nat → Date
  refreshToken : String
  sessionId : Id
  settingsId : Id

def addMinutes (date : Date) (minutes : Int) : Date := date + minutes * 60 * 1000

def addDays (date : Date) (days : Int) : Date := date + days * 24 * 60 * 60 * 1000

inductive ApiGroupInvitePolicy
  | everyone
  | fromFollowingOnly
  deriving DecidableEq, Repr

def mapGroupInvitePolicyToApi : GroupInvitePolicy → ApiGroupInvitePolicy
  | .followingOnly => .fromFollowingOnly
  | _ => .everyone

structure SessionUser where
  avatarUrl : Option String
  bio : Option String
  city : Option String
  cityGooglePlaceId : Option String
  displayName : String
  email : String
  id : Id
  isAdmin : Bool
  isEditor : Bool
  lat : Option Rat
  lng : Option Rat
  outingPreferences : Json
  username : String
  groupInvitePolicy : ApiGroupInvitePolicy
  pushEnabled : Bool

structure AuthSessionPayload where
  accessToken : String
  accessTokenExpiresAt : String
  refreshToken : String
  refreshTokenExpiresAt : String
  user : SessionUser

def AuthConfig.isFecaAdminUser (config : AuthConfig) (user : AuthUser) : Bool :=
  user.email != "" && config.fecaAdminEmailSet.contains (config.toLowerCase (trim user.email))

/-- `serializeAuthenticatedUser` with the settings of the user, or the defaults. -/
def serializeAuthenticatedUser (config : AuthConfig) (user : AuthUser) (cityRef : Option City)
    (settings : Option UserSettings) : SessionUser where
  avatarUrl := user.avatarUrl
  bio := user.bio
  city := user.city
  cityGooglePlaceId := cityRef.map (·.googlePlaceId)
  displayName := user.displayName
  email := user.email
  id := user.id
  isAdmin := config.isFecaAdminUser user
  isEditor := user.isEditor
  lat := user.lat
  lng := user.lng
  outingPreferences := user.outingPreferences
  username := user.username
  groupInvitePolicy :=
    mapGroupInvitePolicyToApi ((settings.map (·.groupInvitePolicy)).getD .anyone)
  pushEnabled := (settings.map (·.pushEnabled)).getD true

/-- An active session, by its id. -/
def isConsumable (env : AuthEnv) (sessionId : Id) (session : Session) : Bool :=
  session.expiresAt > env.clock 3 && session.id == sessionId && session.revokedAt == none

/-- The transaction of `rotateActiveSession`: the count of revoked rows decides. -/
def tradeSession (env : AuthEnv) (previousSessionId : Id) (input : Session) : AuthProg Unit := do
  let count ← revokeSessions (isConsumable env previousSessionId) (env.clock 4)
  if count ≠ 1 then .fail .rotationConflict else createSession (some previousSessionId) input

/-- Whether the old session could be traded for the new one. -/
def rotateActiveSession (env : AuthEnv) (previousSessionId : Id) (input : Session) :
    AuthProg Bool := do
  match ← (transaction (tradeSession env previousSessionId input)).attempt with
  | .ok _ => pure true
  | .error .rotationConflict => pure false
  | .error error => .fail error

/-- The session that is stored for a new token. -/
def AuthEnv.session (config : AuthConfig) (env : AuthEnv) (userId : Id) : Session where
  id := env.sessionId
  userId := userId
  refreshTokenHash := config.hashRefreshToken env.refreshToken
  expiresAt := addDays (env.clock 2) config.authRefreshTokenTtlDays

/-- Store the session, in place of the previous one if there is one. -/
def storeSession (env : AuthEnv) (input : Session) : Option Id → AuthProg Unit
  | some previousSessionId => do
      let rotated ← rotateActiveSession env previousSessionId input
      if rotated then pure () else throwHttp (UnauthorizedException "Invalid refresh token")
  | none => createSession none input

def AuthService.issueSession (config : AuthConfig) (env : AuthEnv) (user : AuthUser)
    (previousSessionId : Option Id) : AuthProg AuthSessionPayload := do
  let hydratedUser ← query fun s : AuthDb => (s.findUser user.id).map fun user =>
    (user, user.cityId.bind fun cityId => s.cities.rows.find? (·.id == cityId))
  ensureUserSettings { id := env.settingsId, userId := user.id }
  let settings ← query fun s : AuthDb => s.settings.rows.find? (·.userId == user.id)
  match hydratedUser with
  | none => throwHttp (UnauthorizedException "User not found")
  | some (hydratedUser, cityRef) => do
      storeSession env (env.session config user.id) previousSessionId
      pure { accessToken := config.signAsync user.email user.id
             accessTokenExpiresAt :=
               config.toISOString (addMinutes (env.clock 1) config.authAccessTokenTtlMinutes)
             refreshToken := env.refreshToken
             refreshTokenExpiresAt :=
               config.toISOString (addDays (env.clock 2) config.authRefreshTokenTtlDays)
             user := serializeAuthenticatedUser config hydratedUser cityRef settings }

def AuthService.refreshSession (config : AuthConfig) (env : AuthEnv) (refreshToken : String) :
    AuthProg AuthSessionPayload := do
  match ← findActiveSessionByRefreshTokenHash (env.clock 0)
      (config.hashRefreshToken refreshToken) with
  | none => throwHttp (UnauthorizedException "Invalid refresh token")
  | some (existingSession, user) =>
      AuthService.issueSession config env user (some existingSession.id)

/-- `revokeSessionByRefreshTokenHash`. -/
def AuthService.logout (config : AuthConfig) (env : AuthEnv) (refreshToken : String) :
    AuthProg Unit := do
  let _ ← revokeSessions (fun x => x.refreshTokenHash == config.hashRefreshToken refreshToken &&
    x.revokedAt == none) (env.clock 0)
  pure ()

end Feca.Auth
