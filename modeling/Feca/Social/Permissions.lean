import Feca.Social.Statements

/-! # Relations between users and what their settings allow

An invitation needs the invitee's consent: their group invite policy, judged by
who follows whom. The services read policies and follows in separate
statements; `mayInvite` says the same of one store.
-/

namespace Feca.Social

open Concurrency Concurrency.Prog Relational

structure SocialSettingsView where
  activityVisibility : ContentVisibility
  diaryVisibility : ContentVisibility
  groupInvitePolicy : GroupInvitePolicy
  pushEnabled : Bool
  deriving DecidableEq, Repr

structure SocialState where
  followsYou : Bool
  following : Bool
  «mutual» : Bool
  deriving DecidableEq, Repr

structure UserPermissions where
  canInviteToGroup : Bool
  canViewActivity : Bool
  canViewDiaries : Bool
  deriving DecidableEq, Repr

def DEFAULT_SOCIAL_SETTINGS : SocialSettingsView where
  activityVisibility := .«public»
  diaryVisibility := .«public»
  groupInvitePolicy := .anyone
  pushEnabled := true

def normalizeSettings (settings : Option UserSettings) : SocialSettingsView where
  activityVisibility :=
    (settings.map (·.activityVisibility)).getD DEFAULT_SOCIAL_SETTINGS.activityVisibility
  diaryVisibility := (settings.map (·.diaryVisibility)).getD DEFAULT_SOCIAL_SETTINGS.diaryVisibility
  groupInvitePolicy :=
    (settings.map (·.groupInvitePolicy)).getD DEFAULT_SOCIAL_SETTINGS.groupInvitePolicy
  pushEnabled := (settings.map (·.pushEnabled)).getD DEFAULT_SOCIAL_SETTINGS.pushEnabled

/-- Who, of the users asked about, the viewer follows and is followed by. -/
structure Relationships where
  followersOfViewer : List Id := []
  followingByViewer : List Id := []
  deriving DecidableEq, Repr

def buildSocialState (userId : Id) (relationships : Relationships) : SocialState :=
  let following := relationships.followingByViewer.contains userId
  let followsYou := relationships.followersOfViewer.contains userId
  ⟨followsYou, following, following && followsYou⟩

def canViewContent (visibility : ContentVisibility) (viewerFollowsTarget : Bool) : Bool :=
  match visibility with
  | .«public» => true
  | .followers => viewerFollowsTarget
  | .«private» => false

def canInviteToGroup (policy : GroupInvitePolicy) (social : SocialState) : Bool :=
  match policy with
  | .anyone => true
  | .followingOnly => social.followsYou
  | .mutualsOnly => social.«mutual»

def buildPermissions (viewerId targetUserId : Id) (settings : SocialSettingsView)
    (social : SocialState) : UserPermissions :=
  if viewerId = targetUserId then ⟨false, true, true⟩
  else
    ⟨canInviteToGroup settings.groupInvitePolicy social,
      canViewContent settings.activityVisibility social.following,
      canViewContent settings.diaryVisibility social.following⟩

/-! ## Reading relations -/

namespace SocialDb

def settingsOf (s : SocialDb) (userId : Id) : Option UserSettings :=
  s.settings.rows.find? (·.userId == userId)

def isFollowing (s : SocialDb) (follower followed : Id) : Bool :=
  s.follows.rows.any fun f => f.followerId == follower && f.followedId == followed

/-- `getRelationshipMaps`, on one store. -/
def relationshipMaps (s : SocialDb) (viewerId : Id) (userIds : List Id) : Relationships :=
  let distinctUserIds := distinctIds (userIds.filter (· != ""))
  if distinctUserIds.length = 0 then {}
  else
    let rows := s.follows.rows.filter fun f =>
      (f.followerId == viewerId && distinctUserIds.contains f.followedId) ||
        (distinctUserIds.contains f.followerId && f.followedId == viewerId)
    { followersOfViewer := (rows.filter (·.followedId == viewerId)).map (·.followerId)
      followingByViewer := (rows.filter (·.followerId == viewerId)).map (·.followedId) }

/-- `listFollowedUserIds`. -/
def followedIds (s : SocialDb) (userId : Id) : List Id :=
  (s.follows.rows.filter (·.followerId == userId)).map (·.followedId)

end SocialDb

/-- A user with `include: { settings: true }`. -/
structure UserWithSettings where
  user : User
  settings : Option UserSettings
  deriving DecidableEq, Repr

def SocialDb.usersWithSettings (s : SocialDb) (ids : List Id) : List UserWithSettings :=
  (s.users.rows.filter fun u => ids.contains u.id).map fun u => ⟨u, s.settingsOf u.id⟩

def settingsRow (env : SocialEnv) (k : Nat) (userId : Id) : UserSettings where
  id := env.settingsId k
  userId := userId

/-- The loop of `ensureUserSettingsForUsers`. -/
def ensureEach (env : SocialEnv) : Nat → List Id → SocialProg Unit
  | _, [] => pure ()
  | k, userId :: rest => do
      ensureUserSettings (settingsRow env k userId)
      ensureEach env (k + 1) rest

def ensureUserSettingsForUsers (env : SocialEnv) (userIds : List Id) : SocialProg Unit :=
  ensureEach env 0 (distinctIds (userIds.filter (· != "")))

/-- No statement runs when there is nobody to ask about. -/
def getRelationshipMaps (viewerId : Id) (userIds : List Id) : SocialProg Relationships :=
  if (distinctIds (userIds.filter (· != ""))).length = 0 then pure {}
  else query fun s => s.relationshipMaps viewerId userIds

/-! ## Screening the people to invite -/

inductive InviteRejection
  | notFound
  | invitePolicy
  deriving DecidableEq, Repr

structure RejectedInvite where
  reason : InviteRejection
  userId : Id
  deriving DecidableEq, Repr

structure Screening where
  allowed : List Id := []
  rejected : List RejectedInvite := []
  deriving DecidableEq, Repr

/-- Why a member cannot be invited, if they cannot. -/
def rejectionOf (inviterId : Id) (invitees : List UserWithSettings)
    (relationships : Relationships) (memberId : Id) : Option InviteRejection :=
  match invitees.find? (·.user.id == memberId) with
  | none => some .notFound
  | some invitee =>
      let settings := normalizeSettings invitee.settings
      let social := buildSocialState memberId relationships
      if (buildPermissions inviterId memberId settings social).canInviteToGroup then none
      else some .invitePolicy

/-- The checks `createGroup` and `addGroupMembers` make of each member. -/
def screenInvites (inviterId : Id) (invitees : List UserWithSettings)
    (relationships : Relationships) : List Id → Screening
  | [] => {}
  | memberId :: rest =>
      let tail := screenInvites inviterId invitees relationships rest
      match rejectionOf inviterId invitees relationships memberId with
      | none => { tail with allowed := memberId :: tail.allowed }
      | some reason => { tail with rejected := ⟨reason, memberId⟩ :: tail.rejected }

theorem followersOfViewer_contains {s : SocialDb} {viewerId userId : Id} {userIds : List Id}
    (h : userId ∈ userIds) :
    (s.relationshipMaps viewerId userIds).followersOfViewer.contains userId =
      (userId != "" && s.isFollowing userId viewerId) := by
  have hasked : userId ∈ distinctIds (userIds.filter (· != "")) ↔ userId ≠ "" := by
    rw [mem_distinctIds, List.mem_filter]
    simp [h]
  rw [Bool.eq_iff_iff, SocialDb.relationshipMaps]
  split
  · rename_i hnone
    rw [List.length_eq_zero_iff.mp hnone] at hasked
    simp at hasked
    simp [hasked]
  · simp only [SocialDb.isFollowing, List.contains_iff_mem, List.mem_map, List.mem_filter,
      List.any_eq_true, Bool.and_eq_true, Bool.or_eq_true, beq_iff_eq, bne_iff_ne]
    constructor
    · rintro ⟨f, ⟨⟨hf, ⟨hviewer, hfollowed⟩ | ⟨hfollower, -⟩⟩, hfollows⟩, rfl⟩
      · refine ⟨?_, f, hf, rfl, hfollows⟩
        rw [hviewer, ← hfollows]
        rw [mem_distinctIds, List.mem_filter] at hfollowed
        simpa using hfollowed.2
      · exact ⟨hasked.mp hfollower, f, hf, rfl, hfollows⟩
    · rintro ⟨hne, f, hf, huser, hviewer⟩
      exact ⟨f, ⟨⟨hf, .inr ⟨huser ▸ hasked.mpr hne, hviewer⟩⟩, hviewer⟩, huser⟩

theorem followingByViewer_contains {s : SocialDb} {viewerId userId : Id} {userIds : List Id}
    (h : userId ∈ userIds) :
    (s.relationshipMaps viewerId userIds).followingByViewer.contains userId =
      (userId != "" && s.isFollowing viewerId userId) := by
  have hasked : userId ∈ distinctIds (userIds.filter (· != "")) ↔ userId ≠ "" := by
    rw [mem_distinctIds, List.mem_filter]
    simp [h]
  rw [Bool.eq_iff_iff, SocialDb.relationshipMaps]
  split
  · rename_i hnone
    rw [List.length_eq_zero_iff.mp hnone] at hasked
    simp at hasked
    simp [hasked]
  · simp only [SocialDb.isFollowing, List.contains_iff_mem, List.mem_map, List.mem_filter,
      List.any_eq_true, Bool.and_eq_true, Bool.or_eq_true, beq_iff_eq, bne_iff_ne]
    constructor
    · rintro ⟨f, ⟨⟨hf, ⟨-, hfollowed⟩ | ⟨hfollower, hviewer⟩⟩, hfollows⟩, rfl⟩
      · exact ⟨hasked.mp hfollowed, f, hf, hfollows, rfl⟩
      · refine ⟨?_, f, hf, hfollows, rfl⟩
        rw [hviewer, ← hfollows]
        rw [mem_distinctIds, List.mem_filter] at hfollower
        simpa using hfollower.2
    · rintro ⟨hne, f, hf, hviewer, huser⟩
      exact ⟨f, ⟨⟨hf, .inl ⟨hviewer, huser ▸ hasked.mpr hne⟩⟩, hviewer⟩, huser⟩

theorem mem_screenInvites_allowed {inviterId : Id} {invitees : List UserWithSettings}
    {relationships : Relationships} {memberId : Id} {ids : List Id} :
    memberId ∈ (screenInvites inviterId invitees relationships ids).allowed ↔
      memberId ∈ ids ∧ rejectionOf inviterId invitees relationships memberId = none := by
  induction ids with
  | nil => simp [screenInvites]
  | cons x ids ih =>
      rw [screenInvites]
      cases hx : rejectionOf inviterId invitees relationships x with
      | none =>
          rw [List.mem_cons, ih, List.mem_cons]
          constructor
          · rintro (rfl | ⟨hmem, hnone⟩)
            · exact ⟨.inl rfl, hx⟩
            · exact ⟨.inr hmem, hnone⟩
          · rintro ⟨rfl | hmem, hnone⟩
            · exact .inl rfl
            · exact .inr ⟨hmem, hnone⟩
      | some reason =>
          rw [ih, List.mem_cons]
          constructor
          · rintro ⟨hmem, hnone⟩
            exact ⟨.inr hmem, hnone⟩
          · rintro ⟨rfl | hmem, hnone⟩
            · rw [hx] at hnone
              cases hnone
            · exact ⟨hmem, hnone⟩

theorem mem_screenInvites_rejected {inviterId : Id} {invitees : List UserWithSettings}
    {relationships : Relationships} {r : RejectedInvite} {ids : List Id} :
    r ∈ (screenInvites inviterId invitees relationships ids).rejected ↔
      r.userId ∈ ids ∧ rejectionOf inviterId invitees relationships r.userId = some r.reason := by
  induction ids with
  | nil => simp [screenInvites]
  | cons x ids ih =>
      rw [screenInvites]
      cases hx : rejectionOf inviterId invitees relationships x with
      | none =>
          rw [ih, List.mem_cons]
          constructor
          · rintro ⟨hmem, hsome⟩
            exact ⟨.inr hmem, hsome⟩
          · rintro ⟨heq | hmem, hsome⟩
            · rw [heq, hx] at hsome
              cases hsome
            · exact ⟨hmem, hsome⟩
      | some reason =>
          rw [List.mem_cons, ih, List.mem_cons]
          constructor
          · rintro (rfl | ⟨hmem, hsome⟩)
            · exact ⟨.inl rfl, hx⟩
            · exact ⟨.inr hmem, hsome⟩
          · rintro ⟨heq | hmem, hsome⟩
            · left
              obtain ⟨reason', userId⟩ := r
              subst heq
              rw [hx] at hsome
              cases hsome
              rfl
            · exact .inr ⟨hmem, hsome⟩

/-- Whom the screening lets through keeps the order, and each once. -/
theorem screenInvites_sublist (inviterId : Id) (invitees : List UserWithSettings)
    (relationships : Relationships) (ids : List Id) :
    (screenInvites inviterId invitees relationships ids).allowed.Sublist ids := by
  induction ids with
  | nil => exact List.Sublist.refl _
  | cons x ids ih =>
      rw [screenInvites]
      split
      · exact ih.cons_cons x
      · exact ih.cons x

/-! ## Consent -/

/-- The social state of a user as the viewer sees it, as
`getUserRelationshipContext` computes it. -/
def SocialDb.socialState (s : SocialDb) (viewerId userId : Id) : SocialState :=
  buildSocialState userId (s.relationshipMaps viewerId [userId])

/-- The policy of `userId` lets `inviterId` invite them. -/
def SocialDb.mayInvite (s : SocialDb) (inviterId userId : Id) : Bool :=
  canInviteToGroup (normalizeSettings (s.settingsOf userId)).groupInvitePolicy
    (s.socialState inviterId userId)

/-- Why `inviterId` cannot invite `memberId`, judged in one store. -/
def SocialDb.inviteRejection (s : SocialDb) (inviterId memberId : Id) : Option InviteRejection :=
  if s.hasUser memberId then
    if s.mayInvite inviterId memberId then none else some .invitePolicy
  else some .notFound

/-- Asked about many users at once, the maps still give each one's state. -/
theorem buildSocialState_maps {s : SocialDb} {viewerId userId : Id} {userIds : List Id}
    (h : userId ∈ userIds) :
    buildSocialState userId (s.relationshipMaps viewerId userIds) =
      s.socialState viewerId userId := by
  unfold SocialDb.socialState buildSocialState
  rw [followersOfViewer_contains h, followingByViewer_contains h,
    followersOfViewer_contains List.mem_cons_self, followingByViewer_contains List.mem_cons_self]

/-- Nothing an invitation depends on has changed: users, follows, policies. -/
structure SameConsent (s t : SocialDb) : Prop where
  users : t.users = s.users
  follows : t.follows = s.follows
  policy : ∀ userId, (normalizeSettings (t.settingsOf userId)).groupInvitePolicy =
    (normalizeSettings (s.settingsOf userId)).groupInvitePolicy

theorem SameConsent.refl (s : SocialDb) : SameConsent s s := ⟨rfl, rfl, fun _ => rfl⟩

theorem SameConsent.trans {s t u : SocialDb} (hst : SameConsent s t) (htu : SameConsent t u) :
    SameConsent s u :=
  ⟨htu.users.trans hst.users, htu.follows.trans hst.follows,
    fun userId => (htu.policy userId).trans (hst.policy userId)⟩

theorem SameConsent.relationshipMaps {s t : SocialDb} (h : SameConsent s t) (viewerId : Id)
    (userIds : List Id) :
    t.relationshipMaps viewerId userIds = s.relationshipMaps viewerId userIds := by
  unfold SocialDb.relationshipMaps
  rw [h.follows]

theorem SameConsent.mayInvite {s t : SocialDb} (h : SameConsent s t) (inviterId userId : Id) :
    t.mayInvite inviterId userId = s.mayInvite inviterId userId := by
  unfold SocialDb.mayInvite SocialDb.socialState
  rw [h.policy, h.relationshipMaps]

theorem SameConsent.inviteRejection {s t : SocialDb} (h : SameConsent s t)
    (inviterId userId : Id) :
    t.inviteRejection inviterId userId = s.inviteRejection inviterId userId := by
  unfold SocialDb.inviteRejection SocialDb.hasUser
  rw [h.mayInvite, h.users]

/-- Settings rows created on the way say what their absence said. -/
theorem SameConsent.of_upsertSettings {s t : SocialDb} {row : UserSettings}
    (hdefault : row.groupInvitePolicy = .anyone) (h : s.upsertSettings row = .ok t) :
    SameConsent s t := by
  obtain ⟨husers, -, -, hfollows, hsettings⟩ := SocialDb.upsertSettings_ok h
  refine ⟨husers, hfollows, fun userId => ?_⟩
  unfold SocialDb.settingsOf
  rcases hsettings with hsame | ⟨hnew, hnone⟩
  · rw [hsame]
  · rw [hnew, List.find?_append]
    cases hfind : s.settings.rows.find? (·.userId == userId) with
    | some row' => rfl
    | none =>
        rw [Option.none_or, List.find?_singleton]
        split
        · simp [normalizeSettings, hdefault, DEFAULT_SOCIAL_SETTINGS]
        · rfl

/-- The services read policies, then follows; as long as neither changes, what
they decide is what the store says. -/
theorem rejectionOf_eq {s t : SocialDb} (h : SameConsent s t) {inviterId memberId : Id}
    {ids : List Id} (hmem : memberId ∈ ids) (hne : memberId ≠ inviterId) :
    rejectionOf inviterId (s.usersWithSettings ids)
      (t.relationshipMaps inviterId ((s.usersWithSettings ids).map (·.user.id))) memberId =
        s.inviteRejection inviterId memberId := by
  unfold rejectionOf SocialDb.inviteRejection
  cases hfind : (s.usersWithSettings ids).find? (·.user.id == memberId) with
  | none =>
      have hnone : s.hasUser memberId = false := by
        rw [← Bool.not_eq_true]
        intro huser
        obtain ⟨u, hu, hid⟩ := SocialDb.exists_of_hasUser huser
        refine List.find?_eq_none.mp hfind ⟨u, s.settingsOf u.id⟩ ?_ (by simpa using hid)
        exact List.mem_map.mpr ⟨u, List.mem_filter.mpr ⟨hu, by simpa [hid] using hmem⟩, rfl⟩
      simp [hnone]
  | some invitee =>
      have hid : invitee.user.id = memberId := by simpa using List.find?_some hfind
      have hinvitee := List.mem_of_find?_eq_some hfind
      obtain ⟨u, hu, rfl⟩ := List.mem_map.mp hinvitee
      have huser : s.hasUser memberId = true :=
        List.any_eq_true.mpr ⟨u, (List.mem_filter.mp hu).1, by simpa using hid⟩
      have hasked : memberId ∈ (s.usersWithSettings ids).map (·.user.id) :=
        List.mem_map.mpr ⟨_, hinvitee, hid⟩
      dsimp only at hid ⊢
      rw [buildSocialState_maps hasked, if_pos huser, hid]
      unfold buildPermissions SocialDb.mayInvite SocialDb.socialState
      rw [if_neg (Ne.symm hne), h.relationshipMaps]

end Feca.Social
