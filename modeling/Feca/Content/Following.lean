import Mathlib.Data.List.Perm.Subperm
import Feca.Concurrency.Race
import Feca.Content.FeedPaging
import Feca.Content.UserContext
import Feca.Push.Publish

/-! # Following a user

`SocialUsersService.followUser`. The repository looks for the follow, creates it
where there is none and says whether it did; the service then notifies the user
who is followed.
-/

namespace Feca.Content

open Concurrency Concurrency.Prog Relational Social

inductive FollowEvent
  | looked (existingFollow : Option Id)
  | created (f : UserFollow)
  | published (input : Push.PublishNotificationInput)

abbrev FollowProg := Prog ContentDb FollowEvent Failure

/-- The ids a call generates. -/
structure FollowEnv extends ContentEnv where
  followId : Id

/-- What nobody observes of a call. -/
abbrev silently {α : Type} (p : ContentProg α) : FollowProg α := p.onPart Race.whole

/-! ## The repository -/

namespace ContentDb

variable (s : ContentDb)

/-- `userFollow.findUnique` by follower and followed. -/
def findFollow (followerId followedId : Id) : Option UserFollow :=
  s.follows.rows.find? fun f => f.followerId == followerId && f.followedId == followedId

/-- `userFollow.create`. -/
def insertFollow (f : UserFollow) : Except Thrown ContentDb :=
  if s.hasUser f.followerId && s.hasUser f.followedId then
    match s.follows.insert f with
    | none => .error uniqueViolation
    | some follows => .ok { s with follows }
  else .error foreignKeyViolation

end ContentDb

def findExistingFollow (viewerId targetUserId : Id) : FollowProg (Option Id) :=
  stmt fun s =>
    let existingFollow := (s.findFollow viewerId targetUserId).map (·.id)
    ⟨s, [.looked existingFollow], .ok existingFollow⟩

def createFollow (f : UserFollow) : FollowProg Unit :=
  stmt fun s =>
    match s.insertFollow f with
    | .ok t => ⟨t, [.created f], .ok ()⟩
    | .error e => ⟨s, [], .error (.database e)⟩

structure FollowResult where
  permissions : UserPermissions
  settings : SocialSettingsView
  social : SocialState
  created : Bool

def newFollow (env : FollowEnv) (viewerId targetUserId : Id) : UserFollow where
  id := env.followId
  followerId := viewerId
  followedId := targetUserId

/-- `followUser`, from the user it has read. -/
def followRow (env : FollowEnv) (viewerId targetUserId : Id) (user : UserRow) :
    FollowProg FollowResult := do
  let existingFollow ← findExistingFollow viewerId targetUserId
  if existingFollow.isNone then createFollow (newFollow env viewerId targetUserId)
  let (permissions, settings, social) ← silently (getUserRelationshipContext viewerId user)
  pure { permissions, settings, social, created := existingFollow.isNone }

def SocialGraphRepository.followUser (env : FollowEnv) (viewerId targetUserId : Id) :
    FollowProg (Option FollowResult) := do
  silently (ensureUserSettingsForUsers env.toContentEnv [viewerId, targetUserId])
  match ← silently (query fun s => s.findUserRow targetUserId) with
  | none => pure none
  | some user => some <$> followRow env viewerId targetUserId user

/-! ## The service -/

def followNotification (userId targetUserId : Id) : Push.PublishNotificationInput where
  actorId := some userId
  entity := some { id := userId, kind := .user }
  payload := none
  recipientIds := [targetUserId]
  type := .follow

/-- Whether the user follows the other one now. -/
def followUser (env : FollowEnv) (userId targetUserId : Id) : FollowProg Bool :=
  if userId = targetUserId then
    .fail (.http (BadRequestException "You cannot follow yourself"))
  else do
    match ← SocialGraphRepository.followUser env userId targetUserId with
    | none => .fail (.http (NotFoundException "User not found"))
    | some result =>
        if result.created then
          stmt fun s => ⟨s, [.published (followNotification userId targetUserId)], .ok ()⟩
        pure result.social.following

/-! ## What the calls race for -/

section race

variable {ι : Type} {userId targetUserId : Id} {envs : ι → FollowEnv}

def Followed (userId targetUserId : Id) (follows : Table UserFollow) : Prop :=
  ∃ f ∈ follows.rows, f.followerId = userId ∧ f.followedId = targetUserId

/-- No row of settings has one of the two ids the call may give. -/
def UnusedSettings (env : FollowEnv) (k : Nat) (s : ContentDb) : Prop :=
  ∀ r ∈ s.settings.rows, r.id ≠ env.settingsId k

def UnusedFollow (env : FollowEnv) (s : ContentDb) : Prop :=
  ∀ f ∈ s.follows.rows, f.id ≠ env.followId

/-- What the other calls leave alone. -/
structure FollowRely (env : FollowEnv) (s t : ContentDb) : Prop where
  users : t.users = s.users
  unusedSettings : ∀ k < 2, UnusedSettings env k s → UnusedSettings env k t
  unusedFollow : UnusedFollow env s → UnusedFollow env t

theorem FollowRely.hasUser {env : FollowEnv} {s t : ContentDb} (h : FollowRely env s t) {id : Id}
    (huser : s.hasUser id = true) : t.hasUser id = true := by
  unfold SocialDb.hasUser
  rw [h.users]
  exact huser

def FollowEvent.announcesFollow : FollowEvent → Bool
  | .published input => input.type == .follow
  | _ => false

def followRace (userId targetUserId : Id) (envs : ι → FollowEnv) :
    Race ι ContentDb FollowEvent (Table UserFollow) where
  view s := s.follows
  done := Followed userId targetUserId
  rely i := FollowRely (envs i)
  refl _ _ := ⟨rfl, fun _ _ => id, id⟩
  trans h h' := ⟨h'.users.trans h.users, fun k hk => h'.unusedSettings k hk ∘ h.unusedSettings k hk,
    h'.unusedFollow ∘ h.unusedFollow⟩
  checks
    | .looked _ => true
    | _ => false
  acts
    | .created _ => true
    | _ => false
  announces := FollowEvent.announcesFollow

/-- The ids that the calls generate are new, and all different. -/
structure FreshFollows (s : ContentDb) (envs : ι → FollowEnv) : Prop where
  unusedSettings : ∀ i, ∀ k < 2, UnusedSettings (envs i) k s
  unusedFollow : ∀ i, UnusedFollow (envs i) s
  ownSettings : ∀ i, (envs i).settingsId 0 ≠ (envs i).settingsId 1
  settings : ∀ i j, j ≠ i → ∀ k < 2, ∀ l < 2, (envs i).settingsId k ≠ (envs j).settingsId l
  follows : ∀ i j, j ≠ i → (envs i).followId ≠ (envs j).followId

variable {i : ι} {phase : Phase} {s t : ContentDb}

/-! ### Settings -/

/-- What an upsert of settings leaves alone. -/
structure Settled (row : UserSettings) (s t : ContentDb) : Prop where
  users : t.users = s.users
  follows : t.follows = s.follows
  unused : ∀ env k, row.id ≠ env.settingsId k → UnusedSettings env k s → UnusedSettings env k t

theorem settled_upsertSettings {row : UserSettings} (h : s.upsertSettings row = .ok t) :
    Settled row s t := by
  have hsettings := settings_of_upsert h
  unfold ContentDb.upsertSettings at h
  split at h
  · cases h
  · rename_i u hu
    obtain ⟨husers, -, -, hfollows, -⟩ := SocialDb.upsertSettings_ok hu
    cases h
    refine ⟨husers, hfollows, fun env k hid hunused r hr => ?_⟩
    rcases hsettings with hsame | hnew
    · rw [hsame] at hr
      exact hunused r hr
    · rw [hnew] at hr
      rcases List.mem_append.mp hr with hr | hr
      · exact hunused r hr
      · rw [List.mem_singleton.mp hr]
        exact hid

theorem Settled.rely {row : UserSettings} {env : FollowEnv} (h : Settled row s t)
    (hid : ∀ k < 2, row.id ≠ env.settingsId k) : FollowRely env s t where
  users := h.users
  unusedSettings k hk := h.unused env k (hid k hk)
  unusedFollow hunused f hf := hunused f (h.follows ▸ hf)

/-- What a call needs of the store until it has followed. -/
structure Ready (env : FollowEnv) (userId targetUserId : Id) (s : ContentDb) : Prop where
  user : s.hasUser userId = true
  target : s.hasUser targetUserId = true
  unused : UnusedFollow env s

theorem Ready.later {env : FollowEnv} (h : Ready env userId targetUserId s)
    (hrely : FollowRely env s t) : Ready env userId targetUserId t :=
  ⟨hrely.hasUser h.user, hrely.hasUser h.target, hrely.unusedFollow h.unused⟩

theorem performs_ensureEach {s₀ : ContentDb} (hfresh : FreshFollows s₀ envs) {userIds : List Id}
    {k : Nat} (hlength : k + userIds.length ≤ 2) (hready : Ready (envs i) userId targetUserId s)
    (hids : ∀ id ∈ userIds, id = userId ∨ id = targetUserId)
    (hunused : ∀ l, k ≤ l → l < 2 → UnusedSettings (envs i) l s) :
    (followRace userId targetUserId envs).unobserved.Performs i
      (fun _ phase' t => phase' = phase ∧ Ready (envs i) userId targetUserId t) phase
      (ensureEach (envs i).toContentEnv k userIds) s := by
  induction userIds generalizing k s with
  | nil => exact Race.performs_pure ⟨rfl, hready⟩
  | cons id rest ih =>
      rw [List.length_cons] at hlength
      have hk : k < 2 := by omega
      apply Race.performs_bind
      apply Race.performs_stmt
      intro t hrely _
      have hready := hready.later hrely
      have huser : t.hasUser id = true := by
        rcases hids id List.mem_cons_self with rfl | rfl
        · exact hready.user
        · exact hready.target
      obtain ⟨u, hu⟩ : t.Settles (defaultSettings (envs i).toContentEnv k id) :=
        settles_of_fresh huser (hrely.unusedSettings k hk (hunused k (le_refl k) hk))
      have hsettled := settled_upsertSettings hu
      rw [hu]
      refine ⟨fun j hj => hsettled.rely fun l hl => hfresh.settings i j hj k hk l hl,
        phase, (), rfl, .wait hsettled.follows Race.quiet_nil, ?_⟩
      apply ih (by omega)
      · refine ⟨?_, ?_, fun f hf => hready.unused f (hsettled.follows ▸ hf)⟩
        · unfold SocialDb.hasUser
          rw [hsettled.users]
          exact hready.user
        · unfold SocialDb.hasUser
          rw [hsettled.users]
          exact hready.target
      · exact fun x hx => hids x (List.mem_cons_of_mem _ hx)
      · intro l hkl hl
        apply hsettled.unused _ _ _ (hrely.unusedSettings l hl (hunused l (by omega) hl))
        have hzero : k = 0 := by omega
        have hone : l = 1 := by omega
        rw [hzero, hone]
        exact hfresh.ownSettings i

theorem performs_ensureUserSettings (hfresh : FreshFollows s envs)
    (hready : Ready (envs i) userId targetUserId s) :
    (followRace userId targetUserId envs).Performs i
      (fun _ phase' t => phase' = phase ∧ Ready (envs i) userId targetUserId t) phase
      (silently (ensureUserSettingsForUsers (envs i).toContentEnv [userId, targetUserId])) s := by
  apply Race.performs_onPart
  have hids : distinctIds ([userId, targetUserId].filter (· != "")) ⊆ [userId, targetUserId] :=
    fun id hid => (List.mem_filter.mp (mem_distinctIds.mp hid)).1
  have hlength := ((nodup_distinctIds _).subperm hids).length_le
  rw [List.length_cons, List.length_singleton] at hlength
  apply performs_ensureEach hfresh (by omega) hready
  · exact fun id hid => by simpa using hids hid
  · exact fun l _ hl => hfresh.unusedSettings i l hl

/-! ### The follow -/

theorem findFollow_isSome : (s.findFollow userId targetUserId).isSome = true ↔
    Followed userId targetUserId s.follows := by
  unfold ContentDb.findFollow Followed
  rw [List.find?_isSome]
  simp

theorem insertFollow_ok {f : UserFollow} (h : s.insertFollow f = .ok t) :
    t.users = s.users ∧ t.settings = s.settings ∧ t.follows.rows = s.follows.rows ++ [f] := by
  unfold ContentDb.insertFollow at h
  split at h
  · split at h
    · cases h
    · rename_i hinsert
      cases h
      exact ⟨rfl, rfl, (Table.insert_eq_some hinsert).1⟩
  · cases h

theorem insertFollow_isOk {env : FollowEnv} (hready : Ready env userId targetUserId s)
    (hopen : ¬ Followed userId targetUserId s.follows) :
    ∃ t, s.insertFollow (newFollow env userId targetUserId) = .ok t := by
  have husers : (s.hasUser (newFollow env userId targetUserId).followerId &&
      s.hasUser (newFollow env userId targetUserId).followedId) = true :=
    Bool.and_eq_true_iff.mpr ⟨hready.user, hready.target⟩
  unfold ContentDb.insertFollow
  rw [if_pos husers]
  cases hinsert : s.follows.insert (newFollow env userId targetUserId) with
  | some follows => exact ⟨_, rfl⟩
  | none =>
      obtain ⟨f, hf, hclash⟩ := Table.insert_eq_none hinsert
      have hid := hready.unused f hf
      have hother : f.followerId = userId → f.followedId ≠ targetUserId :=
        fun hfollower hfollowed => hopen ⟨f, hf, hfollower, hfollowed⟩
      simp only [conflicts, newFollow, Bool.or_eq_true, Bool.and_eq_true, beq_iff_eq] at hclash
      rcases hclash with hsame | ⟨hfollower, hfollowed⟩
      · exact absurd hsame hid
      · exact absurd hfollowed (hother hfollower)

theorem performs_findExistingFollow (hready : Ready (envs i) userId targetUserId s) :
    (followRace userId targetUserId envs).Performs i
      (fun existingFollow phase t => Ready (envs i) userId targetUserId t ∧
        ((existingFollow.isNone = false ∧ phase = .over) ∨ (existingFollow.isNone = true ∧
          phase = .acting ∧ ¬ Followed userId targetUserId t.follows))) .checking
      (findExistingFollow userId targetUserId) s := by
  apply Race.performs_stmt
  intro t hrely _
  have hready := hready.later hrely
  have hquiet : (followRace userId targetUserId envs).Quiet
      [.looked ((t.findFollow userId targetUserId).map (·.id))] := ⟨by simp [followRace], rfl⟩
  refine ⟨fun j _ => (followRace userId targetUserId envs).refl j t, ?_⟩
  by_cases hfollowed : Followed userId targetUserId t.follows
  · have hsome := findFollow_isSome.mpr hfollowed
    exact ⟨.over, _, rfl, .found rfl hquiet hfollowed, hready, .inl ⟨by simpa using hsome, rfl⟩⟩
  · have hnone : (t.findFollow userId targetUserId).isSome = false :=
      Bool.eq_false_iff.mpr fun hsome => hfollowed (findFollow_isSome.mp hsome)
    exact ⟨.acting, _, rfl, .missed rfl hquiet hfollowed ⟨_, List.mem_singleton_self _, rfl⟩, hready,
      .inr ⟨by simpa using hnone, rfl, hfollowed⟩⟩

theorem performs_createFollow {s₀ : ContentDb} (hfresh : FreshFollows s₀ envs)
    (hready : Ready (envs i) userId targetUserId s)
    (hopen : ¬ Followed userId targetUserId s.follows) :
    (followRace userId targetUserId envs).Performs i (fun _ phase _ => phase = .announcing) .acting
      (createFollow (newFollow (envs i) userId targetUserId)) s := by
  apply Race.performs_stmt
  intro t hrely hview
  have hview : t.follows = s.follows := hview rfl
  obtain ⟨u, hu⟩ := insertFollow_isOk (hready.later hrely) (hview ▸ hopen)
  obtain ⟨husers, hsettings, hrows⟩ := insertFollow_ok hu
  rw [hu]
  refine ⟨fun j hj => ?_, .announcing, (), rfl, ?_, rfl⟩
  · refine ⟨husers, fun k _ hunused r hr => hunused r (hsettings ▸ hr), fun hunused f hf => ?_⟩
    have hf : f ∈ t.follows.rows ++ [newFollow (envs i) userId targetUserId] := hrows ▸ hf
    rcases List.mem_append.mp hf with hf | hf
    · exact hunused f hf
    · rw [List.mem_singleton.mp hf]
      exact hfresh.follows i j hj
  · have hnew : newFollow (envs i) userId targetUserId ∈ u.follows.rows := by
      rw [hrows]
      exact List.mem_append_right _ List.mem_cons_self
    exact .act ⟨_, hnew, rfl, rfl⟩ ⟨_, List.mem_singleton_self _, rfl⟩ rfl

theorem performs_followRow {s₀ : ContentDb} (hfresh : FreshFollows s₀ envs) (user : UserRow)
    (hready : Ready (envs i) userId targetUserId s) :
    (followRace userId targetUserId envs).Performs i
      (fun result phase _ => phase = if result.created then .announcing else .over) .checking
      (followRow (envs i) userId targetUserId user) s := by
  have hcontext : ∀ (created : Bool) (phase : Phase) (t : ContentDb),
      phase = (if created then .announcing else .over) →
        (followRace userId targetUserId envs).Performs i
          (fun result phase _ => phase = if result.created then .announcing else .over) phase
          (do
            let (permissions, settings, social) ← silently (getUserRelationshipContext userId user)
            pure { permissions, settings, social, created } : FollowProg FollowResult) t := by
    intro created phase t hphase
    apply Race.performs_bind
    apply Race.performs_onPart
    apply Race.performs_bind
    apply Race.performs_query
    intro u _ _
    exact Race.performs_pure hphase
  apply Race.performs_bind
  apply (performs_findExistingFollow hready).mono
  intro existingFollow phase t hpost
  obtain ⟨hready, ⟨hfound, rfl⟩ | ⟨hmissed, rfl, hopen⟩⟩ := hpost
  · rw [hfound, if_neg Bool.false_ne_true]
    exact hcontext _ _ _ rfl
  · rw [hmissed, if_pos rfl]
    apply Race.performs_bind
    apply (performs_createFollow hfresh hready hopen).mono
    intro _ phase u hphase
    exact hcontext _ _ _ hphase

theorem performs_repository (hfresh : FreshFollows s envs)
    (hready : Ready (envs i) userId targetUserId s) :
    (followRace userId targetUserId envs).Performs i
      (fun r phase _ => ∃ result, r = some result ∧
        phase = if result.created then .announcing else .over) .checking
      (SocialGraphRepository.followUser (envs i) userId targetUserId) s := by
  apply Race.performs_bind
  apply (performs_ensureUserSettings hfresh hready).mono
  intro _ phase t hpost
  obtain ⟨rfl, hready⟩ := hpost
  apply Race.performs_bind
  apply Race.performs_onPart
  apply Race.performs_query
  intro u hrely _
  have hready := hready.later hrely
  obtain ⟨user, huser⟩ := Option.isSome_iff_exists.mp
    (ContentDb.findUserRow_isSome (SocialDb.exists_of_hasUser hready.target))
  rw [huser]
  apply Race.performs_bind
  apply (performs_followRow hfresh user hready).mono
  intro result phase _ hphase
  exact Race.performs_pure ⟨result, rfl, hphase⟩

theorem performs_followUser (hfresh : FreshFollows s envs) (hne : userId ≠ targetUserId)
    (hready : Ready (envs i) userId targetUserId s) :
    (followRace userId targetUserId envs).Performs i Race.IsOver .checking
      (followUser (envs i) userId targetUserId) s := by
  unfold followUser
  rw [if_neg hne]
  apply Race.performs_bind
  apply (performs_repository hfresh hready).mono
  intro r phase t hpost
  obtain ⟨result, rfl, hphase⟩ := hpost
  dsimp only
  by_cases hcreated : result.created = true
  · rw [if_pos hcreated] at hphase ⊢
    subst hphase
    apply Race.performs_bind
    apply Race.performs_stmt
    intro u _ _
    have hquiet : ∀ e ∈ [FollowEvent.published (followNotification userId targetUserId)],
        (followRace userId targetUserId envs).acts e = false := by simp [followRace]
    exact ⟨fun j _ => (followRace userId targetUserId envs).refl j u, .over, (), rfl,
      .announce rfl hquiet rfl, Race.performs_pure rfl⟩
  · rw [if_neg hcreated] at hphase ⊢
    exact Race.performs_pure hphase

/-! ## Any number of calls -/

abbrev FollowConfig (ι : Type) := Config ι ContentDb FollowEvent Failure Bool

def beginFollows (s : ContentDb) (userId targetUserId : Id) (envs : ι → FollowEnv) :
    FollowConfig ι :=
  ⟨s, fun i => followUser (envs i) userId targetUserId, []⟩

/-- How often a new follower has been announced. -/
def followNotifications (c : FollowConfig ι) : Nat :=
  c.trace.countP fun x => x.2.announcesFollow

def followsOf (userId targetUserId : Id) (s : ContentDb) : List UserFollow :=
  s.follows.rows.filter fun f => f.followerId == userId && f.followedId == targetUserId

/-- No call fails, there is one row, and one notification says so. -/
structure FollowsOnce (userId targetUserId : Id) (c : FollowConfig ι) : Prop where
  succeeds : ∀ i e, c.calls i ≠ .fail e
  row : ∀ i, (c.calls i).ended = true → (followsOf userId targetUserId c.store).length = 1
  atMostOnce : followNotifications c ≤ 1
  once : Nonempty ι → (∀ j, (c.calls j).ended = true) → followNotifications c = 1

theorem one_follow (h : Followed userId targetUserId s.follows) :
    (followsOf userId targetUserId s).length = 1 := by
  obtain ⟨f, hf, hfollower, hfollowed⟩ := h
  apply Table.length_filter_eq_one hf (by simp [hfollower, hfollowed])
  intro a _ b _ ha hb
  simp only [Bool.and_eq_true, beq_iff_eq] at ha hb
  simp [conflicts, ha.1, ha.2, hb.1, hb.2]

/-- Calls that create the follow only while no other one has looked and may still
create it. -/
theorem follows_once [DecidableEq ι] (hne : userId ≠ targetUserId)
    (huser : s.hasUser userId = true) (htarget : s.hasUser targetUserId = true)
    (hfresh : FreshFollows s envs) (hopen : ¬ Followed userId targetUserId s.follows)
    {schedule : List ι} (heeds : Config.Heeds (followRace userId targetUserId envs).Careful
      (beginFollows s userId targetUserId envs) schedule) :
    FollowsOnce userId targetUserId ((beginFollows s userId targetUserId envs).run schedule) := by
  have hbegin : (followRace userId targetUserId envs).Running
      (beginFollows s userId targetUserId envs) fun _ => .checking :=
    Race.running_begin (fun i =>
      performs_followUser hfresh hne ⟨huser, htarget, hfresh.unusedFollow i⟩) hopen
  obtain ⟨phase, hrunning⟩ := Race.running_run hbegin heeds
  constructor
  · exact hrunning.not_failed
  · exact fun _ hended => one_follow (hrunning.done_of_ended hended)
  · exact hrunning.announcements_le
  · intro hnonempty hended
    obtain ⟨i⟩ := hnonempty
    exact hrunning.announced_of_ended i hended

end race

/-! ## Two calls -/

/-- Ana and beto, with settings; nobody follows anybody. -/
def anaAndBetoApart : ContentDb :=
  ContentDb.ofSocial (.ofUsers anaAndBeto
      ⟨[{ id := "s7", userId := "ana" }, { id := "s8", userId := "beto" }], by decide⟩
      .empty .empty (.singleton aBar)) {}
    (by decide) (by
      intro p hp q hq
      rw [List.mem_singleton.mp hp, List.mem_singleton.mp hq])

def aFollowEnv (followId settingsId otherSettingsId : Id) : FollowEnv :=
  { aContentEnv with
    settingsId := fun k => if k = 0 then settingsId else otherSettingsId
    followId }

/-- Ana follows beto twice. -/
def anasFollows : Bool → FollowEnv
  | false => aFollowEnv "f1" "s3" "s4"
  | true => aFollowEnv "f2" "s5" "s6"

theorem freshFollows_anasFollows : FreshFollows anaAndBetoApart anasFollows where
  unusedSettings i := by
    unfold UnusedSettings
    cases i with
    | false => decide
    | true => decide
  unusedFollow i := by
    intro f hf
    cases hf
  ownSettings := by decide
  settings := by decide
  follows := by decide

/-- One after the other, the second finds what the first has created. -/
theorem second_follow_finds_the_first : FollowsOnce "ana" "beto"
    ((beginFollows anaAndBetoApart "ana" "beto" anasFollows).run
      (List.replicate 7 false ++ List.replicate 5 true)) := by
  have hapart : Config.Heeds (followRace "ana" "beto" anasFollows).Apart
      (beginFollows anaAndBetoApart "ana" "beto" anasFollows)
      (List.replicate 7 false ++ List.replicate 5 true) := by decide
  have hopen : ¬ Followed "ana" "beto" anaAndBetoApart.follows := by
    intro hfollowed
    obtain ⟨f, hf, -⟩ := hfollowed
    cases hf
  exact follows_once (by decide) (by decide) (by decide) freshFollows_anasFollows hopen
    (hapart.mono fun _ _ => Race.Apart.careful)

/-- Both look before either creates: the second creation fails. -/
theorem second_follow_fails : ¬ FollowsOnce "ana" "beto"
    ((beginFollows anaAndBetoApart "ana" "beto" anasFollows).run
      [false, false, false, false, true, true, true, true, false, true]) := by
  intro honce
  have hfailed : (((beginFollows anaAndBetoApart "ana" "beto" anasFollows).run
      [false, false, false, false, true, true, true, true, false, true]).calls true).failed =
        true := by decide
  obtain ⟨e, hcall⟩ := exists_of_failed hfailed
  exact honce.succeeds true e hcall

end Feca.Content
