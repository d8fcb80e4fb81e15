import Mathlib.Data.List.Range
import Mathlib.Data.List.Perm.Subperm
import Feca.Auth.Session

/-! # Signing in with Google

A profile of Google names a subject and an e-mail, and says whether the e-mail is
verified. `upsertGoogleUser` finds or creates the account of the subject, in one
transaction. The right of an administrator is decided on the e-mail of the account.
-/

namespace Feca.Auth

open Relational
open Social (HttpException recordNotFound)

/-! ## Accounts -/

structure Account extends AuthUser where
  emailVerified : Bool := false

/-- The provider of an identity is Google, the only one there is. -/
structure AuthIdentity where
  id : Id
  userId : Id
  providerUserId : String
  email : String
  emailVerified : Bool := false
  deriving DecidableEq, Repr

instance : UniqueColumns Account where
  conflicts a b := conflicts a.toAuthUser b.toAuthUser
  conflicts_self _ := conflicts_self _
  conflicts_symm _ _ := conflicts_symm _ _

/-- `@id` and `@@unique([provider, providerUserId])` on `AuthIdentity`. -/
instance : UniqueColumns AuthIdentity where
  conflicts a b := a.id == b.id || a.providerUserId == b.providerUserId
  conflicts_self _ := by simp
  conflicts_symm a b := by rw [BEq.comm (a := a.id), BEq.comm (a := a.providerUserId)]

structure AccountDb where
  users : Table Account
  settings : Table UserSettings
  identities : Table AuthIdentity
  identity_user : ∀ i ∈ identities.rows, ∃ u ∈ users.rows, u.id = i.userId

/-- `Prisma.UserUpdateInput`: what is not given keeps its value. -/
structure AccountData where
  avatarUrl : Option String
  displayName : String
  email : Option String
  emailVerified : Bool

def Account.set (u : Account) (data : AccountData) : Account :=
  { u with
    avatarUrl := data.avatarUrl <|> u.avatarUrl
    displayName := data.displayName
    email := data.email.getD u.email
    emailVerified := data.emailVerified }

namespace AccountDb

variable {s t : AccountDb}

theorem user_unique {a b : Account} (ha : a ∈ s.users.rows) (hb : b ∈ s.users.rows)
    (h : a.id = b.id) : a = b :=
  Table.eq_of_conflicts ha hb (by simp [conflicts, h])

variable (s)

def findUserByUsername (username : String) : Option Account :=
  s.users.rows.find? (·.username == username)

def findUserByEmail (email : String) : Option Account := s.users.rows.find? (·.email == email)

/-- `authIdentity.findUnique` by provider and subject. -/
def findIdentity (providerUserId : String) : Option AuthIdentity :=
  s.identities.rows.find? (·.providerUserId == providerUserId)

/-- `user.update` by id. -/
def updateUser (id : Id) (data : AccountData) : Except Thrown (AccountDb × Account) :=
  match s.users.rows.find? (·.id == id) with
  | none => .error recordNotFound
  | some u =>
      match h : s.users.modify (·.id == id) (·.set data) with
      | none => .error uniqueViolation
      | some users => .ok
          ({ s with
              users
              identity_user := by
                intro i hi
                obtain ⟨v, hv, hid⟩ := s.identity_user i hi
                refine ⟨if v.id == id then v.set data else v, ?_, ?_⟩
                · rw [Table.modify_eq_some h]
                  exact List.mem_map_of_mem hv
                · split
                  · exact hid
                  · exact hid }, u.set data)

/-- `user.create`. -/
def insertUser (u : Account) : Except Thrown AccountDb :=
  match h : s.users.insert u with
  | none => .error uniqueViolation
  | some users => .ok
      { s with
        users
        identity_user := by
          intro i hi
          obtain ⟨v, hv, hid⟩ := s.identity_user i hi
          rw [(Table.insert_eq_some h).1]
          exact ⟨v, List.mem_append_left _ hv, hid⟩ }

/-- `userSettings.create`. -/
def insertSettings (row : UserSettings) : Except Thrown AccountDb :=
  if s.users.rows.any (·.id == row.userId) then
    match s.settings.insert row with
    | none => .error uniqueViolation
    | some settings => .ok { s with settings }
  else .error foreignKeyViolation

/-- `userSettings.upsert` with an empty update. -/
def upsertSettings (row : UserSettings) : Except Thrown AccountDb :=
  if s.settings.rows.any (·.userId == row.userId) then .ok s else s.insertSettings row

/-- `authIdentity.create`. -/
def insertIdentity (i : AuthIdentity) : Except Thrown AccountDb :=
  if huser : ∃ u ∈ s.users.rows, u.id = i.userId then
    match h : s.identities.insert i with
    | none => .error uniqueViolation
    | some identities => .ok
        { s with
          identities
          identity_user := by
            intro j hj
            rw [(Table.insert_eq_some h).1] at hj
            rcases List.mem_append.mp hj with hj | hj
            · exact s.identity_user j hj
            · rw [List.mem_singleton.mp hj]
              exact huser }
  else .error foreignKeyViolation

/-- `authIdentity.update` of the e-mail, by id. -/
def updateIdentity (id : Id) (email : String) (emailVerified : Bool) : AccountDb :=
  { s with
    identities := s.identities.update (·.id == id) fun i => { i with email, emailVerified }
    identity_user := by
      intro i hi
      obtain ⟨j, hj, rfl⟩ := Table.mem_update.mp hi
      split
      · exact s.identity_user j hj
      · exact s.identity_user j hj }

end AccountDb

/-! ## Statements that succeed -/

theorem bind_eq_ok {α β : Type} {x : Except Thrown α} {k : α → Except Thrown β} {b : β}
    (h : (x >>= k) = .ok b) : ∃ a, x = .ok a ∧ k a = .ok b := by
  cases x with
  | error e => cases h
  | ok a => exact ⟨a, rfl, h⟩

namespace AccountDb

variable {s t : AccountDb}

theorem updateUser_ok {id : Id} {data : AccountData} {u : Account}
    (h : s.updateUser id data = .ok (t, u)) :
    t.users.rows = (s.users.rows.map fun u => if u.id == id then u.set data else u) ∧
      t.identities = s.identities := by
  unfold updateUser at h
  split at h
  · cases h
  · split at h
    · cases h
    · rename_i hmodify
      cases h
      exact ⟨Table.modify_eq_some hmodify, rfl⟩

theorem insertUser_ok {u : Account} (h : s.insertUser u = .ok t) :
    t.users.rows = s.users.rows ++ [u] ∧ t.identities = s.identities ∧
      ∀ v ∈ s.users.rows, v.id ≠ u.id := by
  unfold insertUser at h
  split at h
  · cases h
  · rename_i hinsert
    cases h
    obtain ⟨hrows, hfree⟩ := Table.insert_eq_some hinsert
    refine ⟨hrows, rfl, fun v hv hid => ?_⟩
    have hclash := hfree v hv
    simp [conflicts, hid] at hclash

theorem insertSettings_ok {row : UserSettings} (h : s.insertSettings row = .ok t) :
    t.users = s.users ∧ t.identities = s.identities := by
  unfold insertSettings at h
  split at h
  · split at h
    · cases h
    · cases h
      exact ⟨rfl, rfl⟩
  · cases h

theorem upsertSettings_ok {row : UserSettings} (h : s.upsertSettings row = .ok t) :
    t.users = s.users ∧ t.identities = s.identities := by
  unfold upsertSettings at h
  split at h
  · cases h
    exact ⟨rfl, rfl⟩
  · exact insertSettings_ok h

theorem insertIdentity_ok {i : AuthIdentity} (h : s.insertIdentity i = .ok t) :
    t.users = s.users ∧ t.identities.rows = s.identities.rows ++ [i] := by
  unfold insertIdentity at h
  split at h
  · split at h
    · cases h
    · rename_i hinsert
      cases h
      exact ⟨rfl, (Table.insert_eq_some hinsert).1⟩
  · cases h

theorem rows_updateIdentity (s : AccountDb) (id : Id) (email : String) (emailVerified : Bool) :
    (s.updateIdentity id email emailVerified).identities.rows = s.identities.rows.map fun i =>
      if i.id == id then { i with email, emailVerified } else i := rfl

theorem mem_updateIdentity {id : Id} {email : String} {emailVerified : Bool} {i : AuthIdentity}
    (h : i ∈ (s.updateIdentity id email emailVerified).identities.rows) :
    ∃ j ∈ s.identities.rows, j.userId = i.userId ∧ j.providerUserId = i.providerUserId := by
  rw [rows_updateIdentity] at h
  obtain ⟨j, hj, rfl⟩ := List.mem_map.mp h
  refine ⟨j, hj, ?_⟩
  split
  · exact ⟨rfl, rfl⟩
  · exact ⟨rfl, rfl⟩

end AccountDb

/-! ## The profile -/

structure GoogleIdentityProfile where
  avatarUrl : Option String := none
  displayName : String
  email : String
  emailVerified : Bool
  providerUserId : String
  deriving DecidableEq, Repr

/-! ## Names -/

/-- What a call generates, and its runtime's letters. -/
structure GoogleEnv where
  userId : Id
  settingsId : Id
  identityId : Id
  /-- `randomInt(10, 99)`. -/
  randomInt : Nat
  toLowerCase : String → String

/-- `value.replace(/[^a-z0-9]+/g, "-")`: one dash for each run of other characters. -/
def dashed : (inRun : Bool) → List Char → List Char
  | _, [] => []
  | inRun, c :: rest =>
      if c.isLower || c.isDigit then c :: dashed false rest
      else if inRun then dashed true rest
      else '-' :: dashed true rest

/-- `value.replace(/^-+|-+$/g, "")`. -/
def undashed (text : List Char) : List Char :=
  ((text.dropWhile (· == '-')).reverse.dropWhile (· == '-')).reverse

def sanitizeUsername (env : GoogleEnv) (value : String) : String :=
  let normalized := String.ofList (undashed (dashed false (env.toLowerCase (trim value)).toList))
  (orNull normalized).getD "feca"

/-- What is tried first, second and so on. -/
def candidate (env : GoogleEnv) (base : String) : Nat → String
  | 0 => base
  | 1 => base ++ env.randomInt.repr
  | index + 2 => base ++ (index + 2).repr

theorem candidate_injective (env : GoogleEnv) (base : String) {m n : Nat}
    (h : candidate env base (m + 2) = candidate env base (n + 2)) : m = n := by
  have hlists : (base ++ (m + 2).repr).toList = (base ++ (n + 2).repr).toList := congrArg _ h
  rw [String.toList_append, String.toList_append, Nat.toList_repr, Nat.toList_repr] at hlists
  have hdigits := congrArg (Nat.ofDigitChars 10 · 0) (List.append_cancel_left hlists)
  simp only [Nat.ofDigitChars_ten_toDigits] at hdigits
  omega

/-- The candidates from the third on differ: with one more than there are users,
one of them is free. -/
theorem exists_free (env : GoogleEnv) (s : AccountDb) (base : String) :
    ∃ name ∈ (List.range (s.users.rows.length + 3)).map (candidate env base),
      s.findUserByUsername name = none := by
  by_contra htaken
  have htaken : ∀ name ∈ (List.range (s.users.rows.length + 3)).map (candidate env base),
      s.findUserByUsername name ≠ none := fun name hname hfree => htaken ⟨name, hname, hfree⟩
  let names := (List.range (s.users.rows.length + 1)).map fun k => candidate env base (k + 2)
  have hdistinct : names.Nodup :=
    List.nodup_range.map fun _ _ h => candidate_injective env base h
  have hsubset : names ⊆ s.users.rows.map (·.username) := by
    intro name hname
    obtain ⟨k, hk, rfl⟩ := List.mem_map.mp hname
    have hk := List.mem_range.mp hk
    have hfound := htaken (candidate env base (k + 2))
      (List.mem_map.mpr ⟨k + 2, List.mem_range.mpr (by omega), rfl⟩)
    obtain ⟨u, hu⟩ := Option.ne_none_iff_exists'.mp hfound
    have hname : u.username = candidate env base (k + 2) := by simpa using List.find?_some hu
    exact List.mem_map.mpr ⟨u, List.mem_of_find?_eq_some hu, hname⟩
  have hlength := (hdistinct.subperm hsubset).length_le
  simp [names] at hlength

/-- `base`: `profile.email.split("@")[0] || profile.displayName || "feca"`, sanitised. -/
def usernameBase (env : GoogleEnv) (profile : GoogleIdentityProfile) : String :=
  let name := (orNull (String.ofList (profile.email.toList.takeWhile (· != '@')))).orElse fun _ =>
    orNull profile.displayName
  sanitizeUsername env (name.getD "feca")

/-- The first candidate that no user has; the loop meets one. -/
def generateUniqueUsername (env : GoogleEnv) (s : AccountDb) (profile : GoogleIdentityProfile) :
    String :=
  let base := usernameBase env profile
  (((List.range (s.users.rows.length + 3)).map (candidate env base)).find? fun name =>
    (s.findUserByUsername name).isNone).get (by
      obtain ⟨name, hname, hfree⟩ := exists_free env s base
      exact List.find?_isSome.mpr ⟨name, hname, by simp [hfree]⟩)

/-! ## upsertGoogleUser -/

structure UpsertedUser where
  isNewUser : Bool
  user : Account

def GoogleIdentityProfile.data (profile : GoogleIdentityProfile) (email : Option String) :
    AccountData where
  avatarUrl := profile.avatarUrl
  displayName := profile.displayName
  email := email
  emailVerified := profile.emailVerified

def GoogleIdentityProfile.identity (profile : GoogleIdentityProfile) (env : GoogleEnv)
    (userId : Id) : AuthIdentity where
  id := env.identityId
  userId := userId
  providerUserId := profile.providerUserId
  email := profile.email
  emailVerified := profile.emailVerified

/-- The subject is known. -/
def updateKnown (env : GoogleEnv) (profile : GoogleIdentityProfile) (identity : AuthIdentity)
    (s : AccountDb) : Except Thrown (AccountDb × UpsertedUser) := do
  let (s, user) ← s.updateUser identity.userId (profile.data (some profile.email))
  let s ← s.upsertSettings { id := env.settingsId, userId := identity.userId }
  pure (s.updateIdentity identity.id profile.email profile.emailVerified, ⟨false, user⟩)

/-- The subject is not known, its e-mail is that of an account. -/
def linkExisting (env : GoogleEnv) (profile : GoogleIdentityProfile) (existingUser : Account)
    (s : AccountDb) : Except Thrown (AccountDb × UpsertedUser) := do
  let s ← s.insertIdentity (profile.identity env existingUser.id)
  let (s, user) ← s.updateUser existingUser.id (profile.data none)
  let s ← s.upsertSettings { id := env.settingsId, userId := existingUser.id }
  pure (s, ⟨false, user⟩)

def newUser (env : GoogleEnv) (profile : GoogleIdentityProfile) (s : AccountDb) : Account where
  id := env.userId
  username := generateUniqueUsername env s profile
  displayName := profile.displayName
  avatarUrl := profile.avatarUrl
  email := profile.email
  emailVerified := profile.emailVerified

def createNew (env : GoogleEnv) (profile : GoogleIdentityProfile) (s : AccountDb) :
    Except Thrown (AccountDb × UpsertedUser) := do
  let user := newUser env profile s
  let s ← s.insertUser user
  let s ← s.insertSettings { id := env.settingsId, userId := user.id }
  let s ← s.insertIdentity (profile.identity env user.id)
  pure (s, ⟨true, user⟩)

def upsertGoogleUser (env : GoogleEnv) (profile : GoogleIdentityProfile) (s : AccountDb) :
    Except Thrown (AccountDb × UpsertedUser) :=
  match s.findIdentity profile.providerUserId with
  | some identity => updateKnown env profile identity s
  | none =>
      match s.findUserByEmail profile.email with
      | some existingUser => linkExisting env profile existingUser s
      | none => createNew env profile s

/-! ## What a sign-in writes -/

/-- What the rows of accounts and identities become, in each of the three ways. -/
inductive Writes (env : GoogleEnv) (profile : GoogleIdentityProfile) (s t : AccountDb) : Prop
  | known (identity : AuthIdentity) (hidentity : identity ∈ s.identities.rows)
      (hsubject : identity.providerUserId = profile.providerUserId)
      (husers : t.users.rows = s.users.rows.map fun u =>
        if u.id == identity.userId then u.set (profile.data (some profile.email)) else u)
      (hidentities : t.identities.rows =
        (s.updateIdentity identity.id profile.email profile.emailVerified).identities.rows)
  | linked (existingUser : Account) (huser : existingUser ∈ s.users.rows)
      (hemail : existingUser.email = profile.email)
      (husers : t.users.rows = s.users.rows.map fun u =>
        if u.id == existingUser.id then u.set (profile.data none) else u)
      (hidentities : t.identities.rows =
        s.identities.rows ++ [profile.identity env existingUser.id])
  | created (user : Account) (hfresh : ∀ u ∈ s.users.rows, u.id ≠ user.id)
      (husers : t.users.rows = s.users.rows ++ [user])
      (hidentities : t.identities.rows = s.identities.rows ++ [profile.identity env user.id])

section writes

variable {env : GoogleEnv} {profile : GoogleIdentityProfile} {s t : AccountDb}
  {result : UpsertedUser}

theorem writes_updateKnown {identity : AuthIdentity} (hidentity : identity ∈ s.identities.rows)
    (hsubject : identity.providerUserId = profile.providerUserId)
    (h : updateKnown env profile identity s = .ok (t, result)) : Writes env profile s t := by
  obtain ⟨⟨s₁, user⟩, hupdate, h⟩ := bind_eq_ok h
  obtain ⟨s₂, hsettings, h⟩ := bind_eq_ok h
  obtain ⟨husers₁, hidentities₁⟩ := AccountDb.updateUser_ok hupdate
  obtain ⟨husers₂, hidentities₂⟩ := AccountDb.upsertSettings_ok hsettings
  cases h
  apply Writes.known identity hidentity hsubject
  · rw [← husers₁, ← husers₂]
    rfl
  · rw [AccountDb.rows_updateIdentity, AccountDb.rows_updateIdentity, hidentities₂, hidentities₁]

theorem writes_linkExisting {existingUser : Account} (huser : existingUser ∈ s.users.rows)
    (hemail : existingUser.email = profile.email)
    (h : linkExisting env profile existingUser s = .ok (t, result)) : Writes env profile s t := by
  obtain ⟨s₁, hinsert, h⟩ := bind_eq_ok h
  obtain ⟨⟨s₂, user⟩, hupdate, h⟩ := bind_eq_ok h
  obtain ⟨s₃, hsettings, h⟩ := bind_eq_ok h
  obtain ⟨husers₁, hidentities₁⟩ := AccountDb.insertIdentity_ok hinsert
  obtain ⟨husers₂, hidentities₂⟩ := AccountDb.updateUser_ok hupdate
  obtain ⟨husers₃, hidentities₃⟩ := AccountDb.upsertSettings_ok hsettings
  cases h
  apply Writes.linked existingUser huser hemail
  · rw [husers₃, husers₂, husers₁]
  · rw [hidentities₃, hidentities₂, hidentities₁]

theorem writes_createNew (h : createNew env profile s = .ok (t, result)) :
    Writes env profile s t := by
  obtain ⟨s₁, huser, h⟩ := bind_eq_ok h
  obtain ⟨s₂, hsettings, h⟩ := bind_eq_ok h
  obtain ⟨s₃, hidentity, h⟩ := bind_eq_ok h
  obtain ⟨husers₁, hidentities₁, hfresh⟩ := AccountDb.insertUser_ok huser
  obtain ⟨husers₂, hidentities₂⟩ := AccountDb.insertSettings_ok hsettings
  obtain ⟨husers₃, hidentities₃⟩ := AccountDb.insertIdentity_ok hidentity
  cases h
  apply Writes.created (newUser env profile s) hfresh
  · rw [husers₃, husers₂, husers₁]
  · rw [hidentities₃, hidentities₂, hidentities₁]

theorem writes_upsertGoogleUser (h : upsertGoogleUser env profile s = .ok (t, result)) :
    Writes env profile s t := by
  unfold upsertGoogleUser at h
  cases hknown : s.findIdentity profile.providerUserId with
  | some identity =>
      rw [hknown] at h
      exact writes_updateKnown (List.mem_of_find?_eq_some hknown)
        (by simpa using List.find?_some hknown) h
  | none =>
      rw [hknown] at h
      cases hexisting : s.findUserByEmail profile.email with
      | some existingUser =>
          rw [hexisting] at h
          exact writes_linkExisting (List.mem_of_find?_eq_some hexisting)
            (by simpa using List.find?_some hexisting) h
      | none =>
          rw [hexisting] at h
          exact writes_createNew h

end writes

/-! ## Links and e-mails -/

def AccountDb.Linked (s : AccountDb) (subject : String) (userId : Id) : Prop :=
  ∃ i ∈ s.identities.rows, i.providerUserId = subject ∧ i.userId = userId

/-- A subject that nobody had is linked to an account that was there. -/
structure Joins (s t : AccountDb) (subject : String) (account : Account) : Prop where
  unknown : ∀ userId, ¬ s.Linked subject userId
  existed : account ∈ s.users.rows
  linked : t.Linked subject account.id

/-- An account changes its e-mail. -/
structure Moves (s t : AccountDb) (account after : Account) : Prop where
  existed : account ∈ s.users.rows
  exists' : after ∈ t.users.rows
  same : after.id = account.id
  changed : after.email ≠ account.email

/-- Only a verified e-mail links a new subject to an account, or replaces its e-mail. -/
structure NoTakeover (s : AccountDb) (profile : GoogleIdentityProfile) (t : AccountDb) : Prop where
  joins : ∀ account, Joins s t profile.providerUserId account → profile.emailVerified = true
  moves : ∀ account after, Moves s t account after → profile.emailVerified = true

/-- A new subject joins the account that has its e-mail, and only a subject of the
account gives it another; the verification is kept beside the e-mail as it came. -/
structure FollowsTheEmail (s : AccountDb) (profile : GoogleIdentityProfile) (t : AccountDb) :
    Prop where
  joins : ∀ subject account, Joins s t subject account →
    subject = profile.providerUserId ∧ account.email = profile.email ∧
      ∀ after ∈ t.users.rows, after.id = account.id →
        after.email = account.email ∧ after.emailVerified = profile.emailVerified
  moves : ∀ account after, Moves s t account after →
    s.Linked profile.providerUserId account.id ∧ after.email = profile.email ∧
      after.emailVerified = profile.emailVerified

section law

variable {env : GoogleEnv} {profile : GoogleIdentityProfile} {s t : AccountDb}

theorem followsTheEmail_idle (s : AccountDb) (profile : GoogleIdentityProfile) :
    FollowsTheEmail s profile s where
  joins subject account h := absurd h.linked (h.unknown _)
  moves account after h := by
    have hsame := AccountDb.user_unique h.exists' h.existed h.same
    exact absurd (congrArg (·.email) hsame) h.changed

/-- A new link is that of the profile. -/
theorem joined_identity {identity : AuthIdentity} {subject : String} {account : Account}
    (hidentities : t.identities.rows = s.identities.rows ++ [identity])
    (h : Joins s t subject account) :
    subject = identity.providerUserId ∧ account.id = identity.userId := by
  obtain ⟨i, hi, hsubject, huser⟩ := h.linked
  rw [hidentities] at hi
  rcases List.mem_append.mp hi with hi | hi
  · exact absurd ⟨i, hi, hsubject, huser⟩ (h.unknown _)
  · rw [List.mem_singleton.mp hi] at hsubject huser
    exact ⟨hsubject.symm, huser.symm⟩

/-- An account after a write of one row, that of `id`. -/
theorem written_account {id : Id} {data : AccountData} {account after : Account}
    (husers : t.users.rows = s.users.rows.map fun u => if u.id == id then u.set data else u)
    (haccount : account ∈ s.users.rows) (hafter : after ∈ t.users.rows)
    (hid : after.id = account.id) :
    (account.id = id ∧ after = account.set data) ∨ (account.id ≠ id ∧ after = account) := by
  rw [husers] at hafter
  obtain ⟨u, hu, rfl⟩ := List.mem_map.mp hafter
  by_cases hrow : (u.id == id) = true
  · rw [if_pos hrow] at hid ⊢
    have hsame : u = account := AccountDb.user_unique hu haccount hid
    rw [← hsame]
    exact .inl ⟨beq_iff_eq.mp hrow, rfl⟩
  · rw [if_neg hrow] at hid ⊢
    have hsame : u = account := AccountDb.user_unique hu haccount hid
    rw [← hsame]
    exact .inr ⟨fun h => hrow (beq_iff_eq.mpr h), rfl⟩

theorem followsTheEmail_of_writes (h : Writes env profile s t) : FollowsTheEmail s profile t := by
  cases h with
  | known identity hidentity hsubject husers hidentities =>
      constructor
      · intro subject account hjoins
        obtain ⟨i, hi, hi'⟩ := hjoins.linked
        rw [hidentities] at hi
        obtain ⟨j, hj, huser, hprovider⟩ := AccountDb.mem_updateIdentity hi
        exact absurd ⟨j, hj, hprovider.trans hi'.1, huser.trans hi'.2⟩ (hjoins.unknown _)
      · intro account after hmoves
        rcases written_account husers hmoves.existed hmoves.exists' hmoves.same with
          ⟨hid, rfl⟩ | ⟨_, rfl⟩
        · exact ⟨⟨identity, hidentity, hsubject, hid.symm⟩, rfl, rfl⟩
        · exact absurd rfl hmoves.changed
  | linked existingUser huser hemail husers hidentities =>
      constructor
      · intro subject account hjoins
        obtain ⟨hsubject, hid⟩ := joined_identity hidentities hjoins
        have hsame : account = existingUser := AccountDb.user_unique hjoins.existed huser hid
        refine ⟨hsubject, hsame ▸ hemail, fun after hafter hafterId => ?_⟩
        rcases written_account husers hjoins.existed hafter hafterId with ⟨_, rfl⟩ | ⟨hne, _⟩
        · exact ⟨rfl, rfl⟩
        · exact absurd hid hne
      · intro account after hmoves
        rcases written_account husers hmoves.existed hmoves.exists' hmoves.same with
          ⟨_, rfl⟩ | ⟨_, rfl⟩
        · exact absurd rfl hmoves.changed
        · exact absurd rfl hmoves.changed
  | created user hfresh husers hidentities =>
      constructor
      · intro subject account hjoins
        have hid := (joined_identity hidentities hjoins).2
        exact absurd hid (hfresh account hjoins.existed)
      · intro account after hmoves
        have hafter := hmoves.exists'
        rw [husers] at hafter
        rcases List.mem_append.mp hafter with hafter | hafter
        · have hsame := AccountDb.user_unique hafter hmoves.existed hmoves.same
          exact absurd (congrArg (·.email) hsame) hmoves.changed
        · have hid := hmoves.same
          rw [List.mem_singleton.mp hafter] at hid
          exact absurd hid.symm (hfresh account hmoves.existed)

end law

/-! ## Runs -/

structure SignIn where
  env : GoogleEnv
  profile : GoogleIdentityProfile

/-- A transaction that fails leaves everything as it was. -/
def AccountDb.after (s : AccountDb) (signIn : SignIn) : AccountDb :=
  match upsertGoogleUser signIn.env signIn.profile s with
  | .ok (t, _) => t
  | .error _ => s

def AccountDb.run (s : AccountDb) (signIns : List SignIn) : AccountDb :=
  signIns.foldl AccountDb.after s

theorem followsTheEmail_after (s : AccountDb) (signIn : SignIn) :
    FollowsTheEmail s signIn.profile (s.after signIn) := by
  unfold AccountDb.after
  cases h : upsertGoogleUser signIn.env signIn.profile s with
  | error e => exact followsTheEmail_idle s signIn.profile
  | ok answer => exact followsTheEmail_of_writes (writes_upsertGoogleUser h)

theorem run_concat (s : AccountDb) (signIns : List SignIn) (signIn : SignIn) :
    s.run (signIns ++ [signIn]) = (s.run signIns).after signIn := List.foldl_concat ..

theorem account_kept {s : AccountDb} (signIn : SignIn) {account : Account}
    (h : account ∈ s.users.rows) : ∃ u ∈ (s.after signIn).users.rows, u.id = account.id := by
  unfold AccountDb.after
  cases hresult : upsertGoogleUser signIn.env signIn.profile s with
  | error e => exact ⟨account, h, rfl⟩
  | ok answer =>
      have hmapped : ∀ id data, answer.1.users.rows =
          (s.users.rows.map fun u => if u.id == id then u.set data else u) →
          ∃ u ∈ answer.1.users.rows, u.id = account.id := by
        intro id data husers
        refine ⟨if account.id == id then account.set data else account, ?_, ?_⟩
        · rw [husers]
          exact List.mem_map_of_mem h
        · split
          · rfl
          · rfl
      cases writes_upsertGoogleUser hresult with
      | known _ _ _ husers => exact hmapped _ _ husers
      | linked _ _ _ husers => exact hmapped _ _ husers
      | created _ _ husers =>
          rw [husers]
          exact ⟨account, List.mem_append_left _ h, rfl⟩

theorem account_kept_run {s : AccountDb} (signIns : List SignIn) {account : Account}
    (h : account ∈ s.users.rows) : ∃ u ∈ (s.run signIns).users.rows, u.id = account.id := by
  induction signIns using List.reverseRecOn with
  | nil => exact ⟨account, h, rfl⟩
  | append_singleton signIns signIn ih =>
      obtain ⟨u, hu, hid⟩ := ih
      obtain ⟨v, hv, hsame⟩ := account_kept signIn hu
      rw [run_concat]
      exact ⟨v, hv, hsame.trans hid⟩

/-- The e-mail that an account has got since was the e-mail of a subject of the account. -/
theorem email_traced {s : AccountDb} (signIns : List SignIn) {account after : Account}
    (h : Moves s (s.run signIns) account after) :
    ∃ prior signIn, prior ++ [signIn] <+: signIns ∧ signIn.profile.email = after.email ∧
      (s.run prior).Linked signIn.profile.providerUserId account.id := by
  induction signIns using List.reverseRecOn generalizing after with
  | nil =>
      have hsame := AccountDb.user_unique h.exists' h.existed h.same
      exact absurd (congrArg (·.email) hsame) h.changed
  | append_singleton signIns signIn ih =>
      obtain ⟨u, hu, hid⟩ := account_kept_run signIns h.existed
      have hafter : after ∈ ((s.run signIns).after signIn).users.rows := run_concat s .. ▸ h.exists'
      by_cases hlast : after.email = u.email
      · have hchanged : u.email ≠ account.email := hlast ▸ h.changed
        obtain ⟨prior, earlier, hprior, hemail, hlinked⟩ := ih ⟨h.existed, hu, hid, hchanged⟩
        exact ⟨prior, earlier, hprior.trans (List.prefix_append ..), hemail.trans hlast.symm, hlinked⟩
      · have hmoves : Moves (s.run signIns) ((s.run signIns).after signIn) u after :=
          ⟨hu, hafter, h.same.trans hid.symm, hlast⟩
        obtain ⟨hlinked, hemail, _⟩ := (followsTheEmail_after _ signIn).moves u after hmoves
        exact ⟨signIns, signIn, List.prefix_refl _, hemail.symm, hid ▸ hlinked⟩

/-- Every sign-in of a run follows the e-mail, and every e-mail is traced to one. -/
structure Traceable (s : AccountDb) (signIns : List SignIn) : Prop where
  each : ∀ prior signIn, prior ++ [signIn] <+: signIns →
    FollowsTheEmail (s.run prior) signIn.profile (s.run (prior ++ [signIn]))
  traced : ∀ account after, Moves s (s.run signIns) account after →
    ∃ prior signIn, prior ++ [signIn] <+: signIns ∧ signIn.profile.email = after.email ∧
      (s.run prior).Linked signIn.profile.providerUserId account.id

theorem signIns_traceable (s : AccountDb) (signIns : List SignIn) : Traceable s signIns where
  each prior signIn _ := by
    rw [run_concat]
    exact followsTheEmail_after _ signIn
  traced _ _ h := email_traced signIns h

/-- Ana, an account with a subject. -/
def anaIsKnown : AccountDb where
  users := .singleton
    { id := "ana", username := "ana", displayName := "Ana", email := "ana@feca.app",
      emailVerified := true }
  settings := .singleton { id := "s1", userId := "ana" }
  identities := .singleton
    { id := "i1", userId := "ana", providerUserId := "101", email := "ana@feca.app",
      emailVerified := true }
  identity_user i hi := by
    rw [List.mem_singleton.mp hi]
    exact ⟨_, List.mem_cons_self, rfl⟩

/-- A subject that presents ana's e-mail, which it did not verify. -/
def unverifiedSignIn : SignIn where
  env :=
    { userId := "u9", settingsId := "s9", identityId := "i9", randomInt := 10,
      toLowerCase := fun text => text }
  profile :=
    { displayName := "Mallory", email := "ana@feca.app", emailVerified := false,
      providerUserId := "666" }

/-- The subject gets ana's account. -/
theorem unverified_subject_joins :
    ¬ NoTakeover anaIsKnown unverifiedSignIn.profile (anaIsKnown.run [unverifiedSignIn]) := by
  intro hsafe
  have hlinked : (anaIsKnown.run [unverifiedSignIn]).identities.rows.map
      (fun i => (i.providerUserId, i.userId)) = [("101", "ana"), ("666", "ana")] := by decide
  have hjoins : ∃ i ∈ (anaIsKnown.run [unverifiedSignIn]).identities.rows,
      (i.providerUserId, i.userId) = ("666", "ana") := by
    apply List.mem_map.mp
    rw [hlinked]
    decide
  obtain ⟨i, hi, hpair⟩ := hjoins
  have hverified := hsafe.joins _
    { unknown := by
        intro userId hknown
        obtain ⟨j, hj, hsubject, _⟩ := hknown
        rw [List.mem_singleton.mp hj] at hsubject
        revert hsubject
        decide
      existed := List.mem_cons_self
      linked := ⟨i, hi, congrArg Prod.fst hpair, congrArg Prod.snd hpair⟩ }
  cases hverified

end Feca.Auth
