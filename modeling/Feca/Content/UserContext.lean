import Feca.Content.Feed

/-! # Another user's profile

A profile is read with what the viewer may see of it: the permissions that the
settings of the user grant the viewer. The list of visits answers for whoever
may see the activity.
-/

namespace Feca.Content

open Concurrency Concurrency.Prog Relational Social

structure PaginationInput where
  limit : Nat := 20
  offset : Nat := 0
  deriving DecidableEq, Repr

structure UserStats where
  followersCount : Nat
  followingCount : Nat
  savedCount : Nat
  visitCount : Nat
  deriving DecidableEq, Repr

structure UserContext where
  permissions : UserPermissions
  settings : SocialSettingsView
  social : SocialState
  stats : UserStats
  user : UserRow
  deriving DecidableEq, Repr

def getProfileStats (userId : Id) : ContentProg UserStats := do
  let visitCount ← query fun s => (s.visits.rows.filter (·.userId == userId)).length
  let savedCount ← query fun s => (s.saves.rows.filter (·.userId == userId)).length
  let followingCount ← query fun s => (s.follows.rows.filter (·.followerId == userId)).length
  let followersCount ← query fun s => (s.follows.rows.filter (·.followedId == userId)).length
  pure { followersCount, followingCount, savedCount, visitCount }

/-- The permissions, settings and social state of a user, as the viewer finds
them. -/
def getUserRelationshipContext (viewerId : Id) (targetUser : UserRow) :
    ContentProg (UserPermissions × SocialSettingsView × SocialState) := do
  let relationships ← query fun s => s.relationshipMaps viewerId [targetUser.id]
  let social := buildSocialState targetUser.id relationships
  let settings := normalizeSettings targetUser.settings
  pure (buildPermissions viewerId targetUser.id settings social, settings, social)

def findUserByIdWithContext (env : ContentEnv) (viewerId userId : Id) :
    ContentProg (Option UserContext) := do
  ensureUserSettingsForUsers env [viewerId, userId]
  match ← query fun s => s.findUserRow userId with
  | none => pure none
  | some user =>
      let stats ← getProfileStats userId
      let (permissions, settings, social) ← getUserRelationshipContext viewerId user
      pure (some { permissions, settings, social, stats, user })

structure VisitListing where
  total : Nat
  visits : List VisitWithRelations

def listVisitsByUser (userId : Id) (input : PaginationInput) : ContentProg VisitListing := do
  let visits ← query fun s =>
    ((s.findVisits (·.userId == userId)).drop input.offset).take input.limit
  let total ← query fun s => s.countVisits (·.userId == userId)
  pure { total, visits }

structure UserVisits where
  total : Nat
  visits : List VisitView
  deriving DecidableEq, Repr

def getUserVisits (env : ContentEnv) (viewerId userId : Id) (query : PaginationInput) :
    ContentProg UserVisits := do
  match ← findUserByIdWithContext env viewerId userId with
  | none => .fail (.http (NotFoundException "User not found"))
  | some profile =>
      if !profile.permissions.canViewActivity then
        .fail (.http (ForbiddenException none "Activity is private"))
      else
        let listing ← listVisitsByUser userId query
        pure { total := listing.total, visits := listing.visits.map (serializeVisit env) }

/-! ## What permissions say -/

namespace ContentDb

/-- The settings of the owner keep this viewer away from their activity. -/
def deniesActivity (s : ContentDb) (viewerId ownerId : Id) : Bool :=
  viewerId != ownerId && !canViewContent (normalizeSettings (s.settingsOf ownerId)).activityVisibility
    (s.isFollowing viewerId ownerId)

/-- The settings of the owner keep this viewer away from their diaries. -/
def deniesDiaries (s : ContentDb) (viewerId ownerId : Id) : Bool :=
  viewerId != ownerId && !canViewContent (normalizeSettings (s.settingsOf ownerId)).diaryVisibility
    (s.isFollowing viewerId ownerId)

/-- A user named by a stored id is named by a text. -/
theorem ne_empty_of_findUserRow {s : ContentDb} {id : Id} {user : UserRow}
    (h : s.findUserRow id = some user) : id ≠ "" := by
  obtain ⟨hstored, hid, -⟩ := findUserRow_some h
  exact hid ▸ s.user_id user.toUser hstored

end ContentDb

variable {env : ContentEnv} {viewerId userId : Id} {s t : ContentDb}

theorem SameContent.deniesActivity (h : SameContent s t) (viewerId ownerId : Id) :
    t.deniesActivity viewerId ownerId = s.deniesActivity viewerId ownerId := by
  unfold ContentDb.deniesActivity
  rw [h.settings, h.isFollowing]

theorem SameContent.deniesDiaries (h : SameContent s t) (viewerId ownerId : Id) :
    t.deniesDiaries viewerId ownerId = s.deniesDiaries viewerId ownerId := by
  unfold ContentDb.deniesDiaries
  rw [h.settings, h.isFollowing]

/-- The profile of a user grants what their settings do not deny. -/
structure Grants (s : ContentDb) (viewerId userId : Id) (profile : UserContext) : Prop where
  user_id : profile.user.id = userId
  activity : profile.permissions.canViewActivity = !s.deniesActivity viewerId userId
  diaries : profile.permissions.canViewDiaries = !s.deniesDiaries viewerId userId

theorem permissions_of_read {user : UserRow} (hs : SameContent s t)
    (huser : t.findUserRow userId = some user) {relationships : Relationships}
    (hmaps : relationships = s.relationshipMaps viewerId [user.id]) :
    let permissions := buildPermissions viewerId user.id (normalizeSettings user.settings)
      (buildSocialState user.id relationships)
    permissions.canViewActivity = !s.deniesActivity viewerId userId ∧
      permissions.canViewDiaries = !s.deniesDiaries viewerId userId := by
  obtain ⟨-, hid, hsettings⟩ := ContentDb.findUserRow_some huser
  have hne : (userId != "") = true := bne_iff_ne.mpr (ContentDb.ne_empty_of_findUserRow huser)
  have hfollowing : (s.relationshipMaps viewerId [userId]).followingByViewer.contains userId =
      (userId != "" && s.isFollowing viewerId userId) :=
    followingByViewer_contains (List.mem_singleton_self userId)
  rw [hid] at hmaps
  rw [hmaps, hsettings, hid, hs.settings]
  unfold buildPermissions ContentDb.deniesActivity ContentDb.deniesDiaries buildSocialState
  by_cases hself : viewerId = userId
  · simp [hself]
  · have hother : (viewerId != userId) = true := bne_iff_ne.mpr hself
    rw [if_neg hself]
    dsimp only
    rw [hfollowing, hne, hother]
    simp

theorem keeps_getProfileStats (s₀ : ContentDb) :
    (getProfileStats userId).Keeps (SameContent s₀) fun _ => True := by
  have hread : ∀ read : ContentDb → Nat,
      (query read : ContentProg Nat).Keeps (SameContent s₀) fun _ => True :=
    fun read => keeps_query fun _ _ => trivial
  apply keeps_bind (hread _)
  intro _ _
  apply keeps_bind (hread _)
  intro _ _
  apply keeps_bind (hread _)
  intro _ _
  apply keeps_bind (hread _)
  intro _ _
  exact keeps_pure trivial

/-- Read while nothing but settings rows may appear, a profile grants what the
settings of its user say. -/
theorem keeps_findUserByIdWithContext (s₀ : ContentDb) :
    (findUserByIdWithContext env viewerId userId).Keeps (SameContent s₀) fun found =>
      ∀ profile, found = some profile → Grants s₀ viewerId userId profile := by
  apply keeps_bind (keeps_ensureEach s₀ _)
  intro _ _
  apply keeps_bind (keeps_query (Q := fun found => ∃ t, SameContent s₀ t ∧
    t.findUserRow userId = found) fun t ht => ⟨t, ht, rfl⟩)
  intro found hfound
  obtain ⟨t, ht, hread⟩ := hfound
  cases found with
  | none =>
      apply keeps_pure
      intro profile hprofile
      cases hprofile
  | some user =>
      apply keeps_bind (keeps_getProfileStats s₀)
      intro stats _
      have hid : user.id = userId := (ContentDb.findUserRow_some hread).2.1
      apply keeps_bind (Q := fun context : UserPermissions × SocialSettingsView × SocialState =>
        context.1.canViewActivity = !s₀.deniesActivity viewerId userId ∧
          context.1.canViewDiaries = !s₀.deniesDiaries viewerId userId)
      · apply keeps_bind (keeps_query (Q := fun maps =>
          maps = s₀.relationshipMaps viewerId [user.id]) fun u hu => hu.relationshipMaps _ _)
        intro maps hmaps
        exact keeps_pure (permissions_of_read ht hread hmaps)
      · rintro ⟨permissions, settings, social⟩ ⟨hactivity, hdiaries⟩
        apply keeps_pure
        intro profile hprofile
        cases hprofile
        exact ⟨hid, hactivity, hdiaries⟩

end Feca.Content
