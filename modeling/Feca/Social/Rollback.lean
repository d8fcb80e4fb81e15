import Feca.Social.Failures
import Feca.Social.Service

/-! # Failed writes

A request that ends in an exception should leave groups and memberships as it
found them. The services check partly before and partly after the repository
has written; here every throw after a write is found, request by request, and
the requests that reach one are described by what they find in the database.
-/

namespace Feca.Social

open Concurrency Concurrency.Prog Relational

variable {α β : Type} {s t : SocialDb}

/-- Groups and memberships are as they were. -/
def Untouched (s t : SocialDb) : Prop := t.groups = s.groups ∧ t.members = s.members

/-- If the rest of a request ends in an exception, groups and memberships are
those of `s`. -/
def FailsCleanly (s : SocialDb) (p : SocialProg α) (t : SocialDb) : Prop :=
  ∀ e, (p.run t).result = .error (.http e) → Untouched s (p.run t).store

theorem Untouched.refl (s : SocialDb) : Untouched s s := ⟨rfl, rfl⟩

theorem Untouched.trans {u : SocialDb} (hst : Untouched s t) (htu : Untouched t u) :
    Untouched s u :=
  ⟨htu.1.trans hst.1, htu.2.trans hst.2⟩

/-- What is untouched in between does not matter. -/
theorem untouched_of_untouched {u : SocialDb} (h : Untouched s t) :
    Untouched t u ↔ Untouched s u := by
  unfold Untouched
  rw [h.1, h.2]

/-! ## One statement after the other -/

theorem failsCleanly_pure (a : α) : FailsCleanly s (pure a) t := fun e h => by cases h

theorem failsCleanly_throwHttp (e : HttpException) :
    FailsCleanly s (throwHttp e : SocialProg α) t ↔ Untouched s t :=
  ⟨fun h => h e rfl, fun h _ _ => h⟩

/-- What was answered is behind the request. -/
theorem failsCleanly_bind {p : SocialProg α} {k : α → SocialProg β} {a : α}
    (h : (p.run t).result = .ok a) :
    FailsCleanly s (p >>= k) t ↔ FailsCleanly s (k a) (p.run t).store := by
  unfold FailsCleanly
  rw [run_bind_ok h]

theorem failsCleanly_query {read : SocialDb → α} {k : α → SocialProg β} :
    FailsCleanly s (query read >>= k) t ↔ FailsCleanly s (k (read t)) t :=
  failsCleanly_bind (p := query read) rfl

theorem failsCleanly_findMembership {groupId userId : Id}
    {k : Option GroupMember → SocialProg β} :
    FailsCleanly s (findMembership groupId userId >>= k) t ↔
      FailsCleanly s (k (t.findMembership groupId userId)) t :=
  failsCleanly_bind (p := findMembership groupId userId) rfl

theorem failsCleanly_map {p : SocialProg α} (f : α → β) :
    FailsCleanly s (f <$> p) t ↔ FailsCleanly s p t := by
  unfold FailsCleanly
  rw [run_map]
  cases hr : (p.run t).result with
  | ok a => simp [Except.map]
  | error e => simp [Except.map]

theorem answered_map {p : SocialProg α} {f : α → β} (h : Answered (f <$> p) s) : Answered p s :=
  (answered_bind (k := fun a => pure (f a)) h).1

/-- A `catch` that passes exceptions on. -/
theorem failsCleanly_catch {p : SocialProg α} {f : Failure → Failure}
    {k : Except Failure α → SocialProg α} (hok : ∀ a, k (.ok a) = pure a)
    (herror : ∀ e, k (.error e) = .fail (f e)) (hf : ∀ e, f (.http e) = .http e)
    (hp : ∀ e, (p.run t).result = .error e → ∃ x, e = .http x) :
    FailsCleanly s (p.attempt >>= k) t ↔ FailsCleanly s p t := by
  unfold FailsCleanly
  rw [run_bind_ok (by rw [run_attempt])]
  simp only [run_attempt]
  cases hr : (p.run t).result with
  | ok a => simp [hok]
  | error e =>
      obtain ⟨x, rfl⟩ := hp e hr
      simp [herror, hf]

/-! ## Groups stay -/

/-- The statements that leave the groups alone. -/
abbrev KeepsGroups (p : SocialProg α) : Prop := p.Always fun s t _ => t.groups = s.groups

theorem KeepsGroups.run {p : SocialProg α} (hp : KeepsGroups p) (s : SocialDb) :
    (p.run s).store.groups = s.groups :=
  Always.run hp (fun _ => rfl) (fun _ _ _ _ _ hst htu => htu.trans hst) s

theorem keepsGroups_updateMember (id : Id) (data : MemberData) :
    KeepsGroups (updateMember id data) := by
  refine always_stmt fun s => ?_
  split
  · rfl
  · rfl

theorem keepsGroups_createMember (m : GroupMember) : KeepsGroups (createMember m) := by
  refine always_stmt fun s => ?_
  cases h : s.insertMember m with
  | ok t => exact (SocialDb.insertMember_ok h).2.1
  | error e => rfl

theorem keepsGroups_createAny (rows : List GroupMember) : KeepsGroups (createAny rows) := by
  unfold createAny
  split
  · refine always_stmt fun s => ?_
    cases h : s.insertMembers rows with
    | ok t => exact (SocialDb.insertMembers_ok h).2.1
    | error e => rfl
  · trivial

theorem keepsGroups_reviveEach (invitedById : Id) (ms : List GroupMember) :
    KeepsGroups (reviveEach invitedById ms) := by
  induction ms with
  | nil => trivial
  | cons m ms ih => exact always_bind (keepsGroups_updateMember _ _) fun _ => ih

theorem keepsGroups_writeInvitations (invitedById : Id) (rows revive : List GroupMember) :
    KeepsGroups (writeInvitations invitedById rows revive) :=
  always_bind (keepsGroups_createAny _) fun _ => keepsGroups_reviveEach _ _

/-! ## What an update shows -/

theorem updateMember_run {m : GroupMember} (hm : m ∈ s.members.rows) (data : MemberData) :
    (updateMember m.id data).run s =
      ⟨s.setMembers (·.id == m.id) data, [.wrote m (m.set data)], .ok (m.set data)⟩ := by
  have hfind : s.members.rows.find? (·.id == m.id) = some m := by
    cases h : s.members.rows.find? (·.id == m.id) with
    | none => simpa using List.find?_eq_none.mp h m hm
    | some x =>
        have hid : x.id = m.id := by simpa using List.find?_some h
        rw [s.member_unique (List.mem_of_find?_eq_some h) hm hid]
  simp [updateMember, hfind]

/-- An update shows. -/
theorem mem_setMembers {m : GroupMember} (hm : m ∈ s.members.rows) (data : MemberData) :
    m.set data ∈ (s.setMembers (·.id == m.id) data).members.rows :=
  List.mem_map.mpr ⟨m, hm, by simp⟩

theorem findMembership_set {m : GroupMember} (hm : m ∈ s.members.rows) (data : MemberData) :
    (s.setMembers (·.id == m.id) data).findMembership m.groupId m.userId = some (m.set data) :=
  SocialDb.findMembership_of_mem (mem_setMembers hm data)

theorem touched_of_mem {m x : GroupMember} (hm : m ∈ s.members.rows) (hx : x ∈ t.members.rows)
    (hid : x.id = m.id) (hstatus : x.status ≠ m.status) : ¬ Untouched s t := by
  intro h
  rw [h.2] at hx
  exact hstatus (by rw [s.member_unique hx hm hid])

/-! ## Refused invitations -/

/-- Somebody to be invited has a policy against it. -/
def SocialDb.refuses (s : SocialDb) (inviterId : Id) (memberIds : List Id) : Bool :=
  (dedupedMemberIds inviterId memberIds).any fun id =>
    s.inviteRejection inviterId id == some .invitePolicy

/-- The check after the write is the check of the store before it. -/
theorem refusedByPolicy_iff {inviterId : Id} {memberIds : List Id} {rejected : List RejectedInvite}
    (hsame : SameConsent s t) (h : RejectedBy inviterId memberIds rejected t) :
    refusedByPolicy rejected = true ↔ s.refuses inviterId memberIds = true := by
  unfold refusedByPolicy SocialDb.refuses
  simp only [List.any_eq_true, beq_iff_eq]
  constructor
  · rintro ⟨r, hr, hreason⟩
    obtain ⟨hmem, hrejected⟩ := (h r).mp hr
    exact ⟨r.userId, hmem, by rw [← hsame.inviteRejection, hrejected, hreason]⟩
  · rintro ⟨id, hmem, hrejected⟩
    exact ⟨⟨.invitePolicy, id⟩, (h _).mpr ⟨hmem, by rw [hsame.inviteRejection, hrejected]⟩, rfl⟩

theorem announceInvitations_error {userId : Id} {result : InvitedGroup} {e : Failure}
    (h : ((announceInvitations userId result).run t).result = .error e) : ∃ x, e = .http x := by
  unfold announceInvitations assertNoInvitePolicyRejections at h
  split at h
  · cases h
    exact ⟨_, rfl⟩
  · split at h
    · cases h
    · cases h

theorem failsCleanly_announceInvitations {userId : Id} {result : InvitedGroup} :
    FailsCleanly s (announceInvitations userId result) t ↔
      (refusedByPolicy result.rejectedInvites = true → Untouched s t) := by
  unfold announceInvitations assertNoInvitePolicyRejections
  split
  · rename_i hrefused
    exact ⟨fun h _ => h _ rfl, fun h _ _ => h hrefused⟩
  · rename_i hagreed
    refine ⟨fun _ h => absurd h hagreed, fun _ e h => ?_⟩
    split at h
    · cases h
    · cases h

/-! ## createGroup -/

theorem untouched_screenMembers (env : SocialEnv) (inviterId : Id) (ids : List Id) :
    Untouched s ((screenMembers env inviterId ids).run s).store := by
  refine Always.run (P := fun s t _ => Untouched s t) ?_ (fun s => .refl s)
    (fun _ _ _ _ _ hst htu => hst.trans htu) s
  have hensure : ∀ (ids : List Id) (k : Nat),
      (ensureEach env k ids).Always fun s t _ => Untouched s t := by
    intro ids
    induction ids with
    | nil => exact fun _ => trivial
    | cons userId rest ih =>
        refine fun k => always_bind (always_stmt fun s => ?_) fun _ => ih (k + 1)
        cases h : s.upsertSettings (settingsRow env k userId) with
        | error e => exact .refl s
        | ok t => exact ⟨(SocialDb.upsertSettings_ok h).2.1, (SocialDb.upsertSettings_ok h).2.2.1⟩
  refine always_bind (hensure _ 0) fun _ => always_bind ?_ fun invitees =>
    always_bind ?_ fun _ => trivial
  · unfold findInvitees
    split
    · trivial
    · exact always_stmt fun s => .refl s
  · unfold getRelationshipMaps
    split
    · trivial
    · exact always_stmt fun s => .refl s

/-- A group that was created is stored. -/
theorem createGroupWith_run {find : SocialDb → Id → Option GroupWithRelations} {g : Group}
    {ms : List GroupMember} {es : List GroupEvent} {row : GroupWithRelations}
    (h : ((createGroupWith find g ms es).run s).result = .ok row) :
    ((createGroupWith find g ms es).run s).store.groups.rows = s.groups.rows ++ [g] := by
  unfold createGroupWith at h ⊢
  rw [run_stmt] at h ⊢
  cases hcreate : s.createGroupRows g ms es with
  | error e =>
      rw [hcreate] at h
      cases h
  | ok t =>
      simp only [hcreate] at h ⊢
      cases hfind : find t g.id with
      | none =>
          rw [hfind] at h
          cases h
      | some row =>
          exact (SocialDb.createGroupRows_ok hcreate).2.1

theorem touched_createGroup {env : SocialEnv} {input : CreateGroupInput} {result : InvitedGroup}
    (h : ((createGroup env input).run s).result = .ok result) :
    ¬ Untouched s ((createGroup env input).run s).store := by
  intro huntouched
  have hscreen := (untouched_screenMembers (s := s) env input.createdById
    (dedupedMemberIds input.createdById input.memberIds)).1
  unfold createGroup at h huntouched
  cases hr : ((screenMembers env input.createdById
      (dedupedMemberIds input.createdById input.memberIds)).run s).result with
  | error e =>
      rw [run_bind_error hr] at h
      cases h
  | ok screening =>
      rw [run_bind_ok hr] at h huntouched
      cases hcreate : ((createGroupWith (·.findGroupById) (input.group env)
          (foundingMembers env input.createdById screening.allowed) []).run
            ((screenMembers env input.createdById
              (dedupedMemberIds input.createdById input.memberIds)).run s).store).result with
      | error e =>
          rw [run_bind_error hcreate] at h
          cases h
      | ok row =>
          rw [run_bind_ok hcreate] at huntouched
          have hrows := congrArg Table.rows huntouched.1
          have hgroups := createGroupWith_run hcreate
          rw [hscreen] at hgroups
          have hlength := congrArg List.length (hgroups.symm.trans hrows)
          simp at hlength

theorem failsCleanly_createGroup {env : SocialEnv} {inviteCode : String} {userId : Id}
    {body : CreateGroupDto}
    (h : Answered (SocialGroupsService.createGroup env inviteCode userId body) s) :
    FailsCleanly s (SocialGroupsService.createGroup env inviteCode userId body) s ↔
      s.refuses userId body.memberIds = false := by
  have hinner : Answered (Social.createGroup env (body.input userId inviteCode) >>=
      announceInvitations userId) s := by
    intro e he
    refine (answered_bind h).1 e ?_
    rw [run_attempt]
    exact he
  obtain ⟨result, hresult⟩ :=
    (reports_createGroup env (body.input userId inviteCode)).ok (answered_bind hinner).1
  obtain ⟨-, hguar, hrejected⟩ :=
    (meets_createGroup (s := s) env (body.input userId inviteCode)).run trivial
  refine (failsCleanly_catch (f := createGroupFailure) (fun _ => rfl) (fun _ => rfl) (fun _ => rfl)
    fun e he => ?_).trans ?_
  · rw [run_bind_ok hresult] at he
    exact announceInvitations_error he
  · rw [failsCleanly_bind hresult, failsCleanly_announceInvitations,
      refusedByPolicy_iff hguar.same (hrejected result hresult), ← Bool.not_eq_true]
    exact ⟨fun hclean hrefused => touched_createGroup hresult (hclean hrefused),
      fun hagreed hrefused => absurd hrefused hagreed⟩

/-! ## joinGroupByCode and leaveGroup -/

theorem keepsGroups_acceptByCode (env : SocialEnv) (groupId userId : Id) :
    KeepsGroups (acceptByCode env groupId userId) := by
  refine always_bind (always_stmt fun _ => rfl) fun membership => ?_
  cases membership with
  | none => exact always_bind (keepsGroups_createMember _) fun _ => trivial
  | some m =>
      dsimp only
      split
      · trivial
      · exact always_bind (keepsGroups_updateMember _ _) fun _ => trivial

/-- A group that could be found can be found again. -/
theorem findGroupById_of_groups {g : Group} (hg : g ∈ s.groups.rows) (h : t.groups = s.groups) :
    (t.findGroupById g.id).isSome :=
  SocialDb.findGroupById_isSome (h ▸ hg)

theorem joinGroupByCode_none {env : SocialEnv} {userId : Id} {code : String}
    (h : ((joinGroupByCode env userId code).run s).result = .ok none) :
    Untouched s ((joinGroupByCode env userId code).run s).store := by
  unfold joinGroupByCode at h ⊢
  rw [run_bind_ok (p := selectGroup _) rfl] at h ⊢
  cases hfind : s.findGroupByInviteCode (env.upperCase (trim code)) with
  | none =>
      simp only [hfind] at h ⊢
      exact .refl s
  | some g =>
      simp only [hfind] at h ⊢
      cases haccept : ((acceptByCode env g.id userId).run s).result with
      | error e =>
          simp only [selectGroup, run_stmt, run_bind_error haccept] at h
          cases h
      | ok joinedNow =>
          have hkept : (((acceptByCode env g.id userId).run s).store.findGroupById g.id).isSome :=
            findGroupById_of_groups (List.mem_of_find?_eq_some hfind)
              ((keepsGroups_acceptByCode env g.id userId).run s)
          obtain ⟨row, hrow⟩ := Option.isSome_iff_exists.mp hkept
          simp only [selectGroup, run_stmt, run_bind_ok haccept, run_bind_ok (p := query _) rfl,
            run_query, hrow] at h
          cases h

theorem failsCleanly_joinGroupByCode {env : SocialEnv} {userId : Id} {code : String}
    (h : Answered (SocialGroupsService.joinGroupByCode env userId code) s) :
    FailsCleanly s (SocialGroupsService.joinGroupByCode env userId code) s := by
  obtain ⟨r, hr⟩ := (reports_joinGroupByCode env userId code).ok (answered_bind h).1
  refine (failsCleanly_bind hr).mpr ?_
  cases r with
  | none => exact (failsCleanly_throwHttp _).mpr (joinGroupByCode_none hr)
  | some result =>
      dsimp only
      split
      · exact (failsCleanly_bind (p := publish _) rfl).mpr (failsCleanly_pure _)
      · exact failsCleanly_pure _

/-- Only a request that leaves the group writes. -/
theorem leaveGroup_run {groupId userId : Id} {g : Group} {r : Option LeaveGroupResult}
    (hg : g ∈ s.groups.rows) (hid : g.id = groupId)
    (h : ((leaveGroup groupId userId).run s).result = .ok r) :
    (∃ group, r = some (.left group)) ∨ Untouched s ((leaveGroup groupId userId).run s).store := by
  unfold leaveGroup at h ⊢
  rw [run_bind_ok (p := findMembership _ _) rfl] at h ⊢
  cases hfind : s.findMembership groupId userId with
  | none => exact .inr (.refl s)
  | some m =>
      simp only [hfind] at h ⊢
      split at h
      · rename_i howner
        rw [if_pos howner]
        exact .inr (.refl s)
      · rename_i howner
        split at h
        · rename_i hstatus
          rw [if_neg howner, if_pos hstatus]
          exact .inr (.refl s)
        · left
          cases hupdate : ((updateMember m.id { status := .left }).run s).result with
          | error e =>
              simp only [findMembership, run_stmt, run_bind_error hupdate] at h
              cases h
          | ok updated =>
              have hkept : (((updateMember m.id
                  { status := .left }).run s).store.findGroupById g.id).isSome :=
                findGroupById_of_groups hg ((keepsGroups_updateMember m.id _).run s)
              obtain ⟨row, hrow⟩ := Option.isSome_iff_exists.mp hkept
              rw [hid] at hrow
              simp only [findMembership, run_stmt, run_bind_ok hupdate,
                run_bind_ok (p := query _) rfl, run_query, hrow] at h
              cases h
              exact ⟨row, rfl⟩

theorem failsCleanly_leaveGroup {userId groupId : Id}
    (h : Answered (SocialGroupsService.leaveGroup userId groupId) s) :
    FailsCleanly s (SocialGroupsService.leaveGroup userId groupId) s := by
  refine failsCleanly_query.mpr ?_
  have hrest := answered_query h
  cases hfind : s.findGroupById groupId with
  | none => exact (failsCleanly_throwHttp _).mpr (.refl s)
  | some group =>
      rw [hfind] at hrest
      obtain ⟨hg, hid⟩ := SocialDb.findGroupById_some hfind
      obtain ⟨r, hr⟩ := (reports_leaveGroup groupId userId).ok (answered_bind hrest).1
      refine (failsCleanly_bind hr).mpr ?_
      rcases leaveGroup_run hg hid hr with ⟨group, rfl⟩ | hclean
      · exact failsCleanly_pure _
      · cases r with
        | none => exact (failsCleanly_throwHttp _).mpr hclean
        | some r =>
            cases r with
            | ownerCannotLeave => exact (failsCleanly_throwHttp _).mpr hclean
            | left group => exact failsCleanly_pure _

/-! ## addGroupMembers -/

namespace SocialDb

/-- The caller may add members: `assertGroupAdminAccess` lets them through. -/
def administers (s : SocialDb) (userId groupId : Id) : Bool :=
  (s.findMembership groupId userId).any fun m =>
    m.status == .accepted && (m.role == .owner || m.role == .admin)

/-- Already in the group or invited to it. -/
def isInGroup (s : SocialDb) (groupId userId : Id) : Bool :=
  (s.findMembership groupId userId).any fun m => m.status == .accepted || m.status == .pending

/-- Somebody who agrees to come is neither in the group nor invited to it. -/
def hasInvitee (s : SocialDb) (groupId inviterId : Id) (memberIds : List Id) : Bool :=
  (dedupedMemberIds inviterId memberIds).any fun id =>
    s.inviteRejection inviterId id == none && !s.isInGroup groupId id

theorem find_membershipsOf {groupId id : Id} {ids : List Id} (h : id ∈ ids) :
    (s.membershipsOf groupId ids).find? (·.userId == id) = s.findMembership groupId id := by
  unfold membershipsOf findMembership
  rw [List.find?_filter]
  congr 1
  funext m
  rw [Bool.eq_iff_iff]
  simp only [decide_eq_true_eq, Bool.and_eq_true, beq_iff_eq, List.contains_iff_mem]
  constructor
  · rintro ⟨⟨hgroup, -⟩, huser⟩
    exact ⟨hgroup, huser⟩
  · rintro ⟨hgroup, huser⟩
    exact ⟨⟨hgroup, huser ▸ h⟩, huser⟩

end SocialDb

/-- Nobody is created or revived exactly when everybody who agrees is there. -/
theorem nothing_to_write {env : SocialEnv} {input : AddGroupMembersInput} {ids allowed : List Id}
    (hallowed : allowed ⊆ ids) : (createRows env input (s.membershipsOf input.groupId ids) allowed = []
      ∧ membershipsToRevive (s.membershipsOf input.groupId ids) allowed = []) ↔
        ∀ id ∈ allowed, s.isInGroup input.groupId id = true := by
  have hfind : ∀ id ∈ allowed, (s.membershipsOf input.groupId ids).find? (·.userId == id) =
      s.findMembership input.groupId id := fun id hid => SocialDb.find_membershipsOf (hallowed hid)
  unfold createRows membershipsToRevive SocialDb.isInGroup
  simp only [List.map_eq_nil_iff, List.zipIdx_eq_nil_iff, List.filter_eq_nil_iff,
    List.mem_filterMap]
  constructor
  · rintro ⟨hcreate, hrevive⟩ id hid
    cases hm : s.findMembership input.groupId id with
    | none =>
        have := hcreate id hid
        simp [hfind id hid, hm] at this
    | some m =>
        have := hrevive m ⟨id, hid, (hfind id hid).trans hm⟩
        simpa [or_iff_not_imp_left] using this
  · intro hin
    refine ⟨fun id hid => ?_, ?_⟩
    · have := hin id hid
      rw [hfind id hid]
      cases hm : s.findMembership input.groupId id with
      | none => simp [hm] at this
      | some m => simp
    · rintro m ⟨id, hid, hm⟩
      have := hin id hid
      rw [hfind id hid] at hm
      rw [hm] at this
      simpa [or_iff_not_imp_left] using this

/-- Rows stay, and a pending one stays pending. -/
def Persisting (s t : SocialDb) : Prop :=
  ∀ m ∈ s.members.rows, ∃ m' ∈ t.members.rows, m'.id = m.id ∧
    (m.status = .pending → m'.status = .pending)

theorem Persisting.refl (s : SocialDb) : Persisting s s := fun m hm => ⟨m, hm, rfl, id⟩

theorem Persisting.trans {u : SocialDb} (hst : Persisting s t) (htu : Persisting t u) :
    Persisting s u := by
  intro m hm
  obtain ⟨m', hm', hid, hpending⟩ := hst m hm
  obtain ⟨m'', hm'', hid', hpending'⟩ := htu m' hm'
  exact ⟨m'', hm'', hid'.trans hid, fun h => hpending' (hpending h)⟩

theorem persisting_revive (id invitedById : Id) :
    Persisting s ((updateMember id (revived invitedById)).run s).store := by
  unfold updateMember
  rw [run_stmt]
  split
  · exact .refl s
  · intro m hm
    refine ⟨_, List.mem_map_of_mem hm, ?_, ?_⟩
    · split
      · rfl
      · rfl
    · split
      · exact fun _ => rfl
      · exact fun h => h

theorem persisting_reviveEach (invitedById : Id) (ms : List GroupMember) :
    Persisting s ((reviveEach invitedById ms).run s).store := by
  induction ms generalizing s with
  | nil => exact .refl s
  | cons m ms ih =>
      unfold reviveEach
      have hhead := persisting_revive (s := s) m.id invitedById
      cases hr : ((updateMember m.id (revived invitedById)).run s).result with
      | error e =>
          rw [run_bind_error hr]
          exact hhead
      | ok updated =>
          rw [run_bind_ok hr]
          exact hhead.trans ih

/-- The loop leaves an invitation where there was none. -/
theorem reviveEach_run {invitedById : Id} {m : GroupMember} {ms : List GroupMember}
    (h : ((reviveEach invitedById (m :: ms)).run s).result = .ok ()) :
    ∃ x ∈ ((reviveEach invitedById (m :: ms)).run s).store.members.rows,
      x.id = m.id ∧ x.status = .pending := by
  unfold reviveEach at h ⊢
  cases hr : ((updateMember m.id (revived invitedById)).run s).result with
  | error e =>
      rw [run_bind_error hr] at h
      cases h
  | ok updated =>
      rw [run_bind_ok hr]
      obtain ⟨x, hx, hid, hpending⟩ : ∃ x ∈ ((updateMember m.id (revived invitedById)).run
          s).store.members.rows, x.id = m.id ∧ x.status = .pending := by
        unfold updateMember at hr ⊢
        rw [run_stmt] at hr ⊢
        cases hfind : s.members.rows.find? (·.id == m.id) with
        | none =>
            rw [hfind] at hr
            cases hr
        | some x =>
            have hid : x.id = m.id := by simpa using List.find?_some hfind
            exact ⟨_, List.mem_map_of_mem (List.mem_of_find?_eq_some hfind), by simp [hid],
              by simp [hid, revived]⟩
      obtain ⟨y, hy, hyid, hypending⟩ := persisting_reviveEach invitedById ms x hx
      exact ⟨y, hy, hyid.trans hid, hypending hpending⟩

/-- The first row created is for somebody without a membership. -/
theorem createRows_head {env : SocialEnv} {input : AddGroupMembersInput} {ids allowed : List Id}
    {m : GroupMember} {rows : List GroupMember} (hallowed : allowed ⊆ ids)
    (h : createRows env input (s.membershipsOf input.groupId ids) allowed = m :: rows) :
    m.id = env.memberId 0 ∧ s.findMembership m.groupId m.userId = none := by
  unfold createRows at h
  cases hnew : allowed.filter fun id =>
      ((s.membershipsOf input.groupId ids).find? (·.userId == id)).isNone with
  | nil =>
      rw [hnew] at h
      cases h
  | cons id rest =>
      rw [hnew] at h
      cases h
      have hmem := List.mem_filter.mp (hnew ▸ List.mem_cons_self : id ∈ _)
      refine ⟨rfl, ?_⟩
      rw [← Option.isNone_iff_eq_none, ← hmem.2, SocialDb.find_membershipsOf (hallowed hmem.1)]
      rfl

theorem mem_createAny {m : GroupMember} {rows : List GroupMember}
    (hid : ∀ x ∈ s.members.rows, x.id ≠ m.id) (hnone : s.findMembership m.groupId m.userId = none)
    (h : ((createAny (m :: rows)).run s).result = .ok ()) :
    m ∈ ((createAny (m :: rows)).run s).store.members.rows := by
  unfold createAny createMembers at h ⊢
  rw [if_pos (by simp), run_stmt] at h ⊢
  cases hinsert : s.insertMembers (m :: rows) with
  | error e =>
      rw [hinsert] at h
      cases h
  | ok t =>
      show m ∈ t.members.rows
      rw [SocialDb.insertMembers_members hinsert]
      refine Table.mem_insertSkipping_head fun x hx => ?_
      have huser := SocialDb.findMembership_none hnone x hx
      simp only [conflicts, Bool.or_eq_false_iff, Bool.and_eq_false_iff, beq_eq_false_iff_ne]
      exact ⟨hid x hx, or_iff_not_imp_left.mpr fun hgroup => huser (not_not.mp hgroup)⟩

/-- The transaction changes memberships as soon as it has anything to write. -/
theorem touched_writeInvitations {env : SocialEnv} {input : AddGroupMembersInput}
    {ids allowed : List Id} (hfresh : ∀ m ∈ s.members.rows, m.id ≠ env.memberId 0)
    (hallowed : allowed ⊆ ids) {id : Id} (hid : id ∈ allowed)
    (hin : s.isInGroup input.groupId id = false)
    (h : ((writeInvitations input.invitedById
      (createRows env input (s.membershipsOf input.groupId ids) allowed)
      (membershipsToRevive (s.membershipsOf input.groupId ids) allowed)).run s).result = .ok ()) :
    ¬ Untouched s ((writeInvitations input.invitedById
      (createRows env input (s.membershipsOf input.groupId ids) allowed)
      (membershipsToRevive (s.membershipsOf input.groupId ids) allowed)).run s).store := by
  have hsome : ¬ (createRows env input (s.membershipsOf input.groupId ids) allowed = [] ∧
      membershipsToRevive (s.membershipsOf input.groupId ids) allowed = []) := by
    rw [nothing_to_write hallowed]
    intro hall
    rw [hall id hid] at hin
    cases hin
  cases hrows : createRows env input (s.membershipsOf input.groupId ids) allowed with
  | cons m rows =>
      obtain ⟨hmid, hnone⟩ := createRows_head hallowed hrows
      rw [hrows] at h
      unfold writeInvitations at h ⊢
      cases hcreate : ((createAny (m :: rows)).run s).result with
      | error e =>
          rw [run_bind_error hcreate] at h
          cases h
      | ok _ =>
          rw [run_bind_ok hcreate]
          obtain ⟨x, hx, hxid, -⟩ := persisting_reviveEach input.invitedById
            (membershipsToRevive (s.membershipsOf input.groupId ids) allowed) m
            (mem_createAny (fun y hy hid' => hfresh y hy (hid'.trans hmid)) hnone hcreate)
          intro huntouched
          rw [huntouched.2] at hx
          exact hfresh x hx (hxid.trans hmid)
  | nil =>
      cases hrevive : membershipsToRevive (s.membershipsOf input.groupId ids) allowed with
      | nil => exact absurd ⟨hrows, hrevive⟩ hsome
      | cons m revive =>
          rw [hrows, hrevive] at h
          obtain ⟨hm, -, -, hstatus⟩ := mem_membershipsToRevive
            (show m ∈ membershipsToRevive (s.membershipsOf input.groupId ids) allowed by
              rw [hrevive]
              exact List.mem_cons_self)
          have hstored : m ∈ s.members.rows := (List.mem_filter.mp hm).1
          have hcreate : ((createAny []).run s) = ⟨s, [], .ok ()⟩ := rfl
          unfold writeInvitations at h ⊢
          rw [run_bind_ok (congrArg Answer.result hcreate), hcreate] at h ⊢
          obtain ⟨x, hx, hxid, hpending⟩ := reviveEach_run h
          exact touched_of_mem hstored hx hxid (by rw [hpending]; exact Ne.symm hstatus)

theorem untouched_writeInvitations {env : SocialEnv} {input : AddGroupMembersInput}
    {ids allowed : List Id} (hfresh : ∀ m ∈ s.members.rows, m.id ≠ env.memberId 0)
    (hallowed : allowed ⊆ ids)
    (h : ((writeInvitations input.invitedById
      (createRows env input (s.membershipsOf input.groupId ids) allowed)
      (membershipsToRevive (s.membershipsOf input.groupId ids) allowed)).run s).result = .ok ()) :
    Untouched s ((writeInvitations input.invitedById
      (createRows env input (s.membershipsOf input.groupId ids) allowed)
      (membershipsToRevive (s.membershipsOf input.groupId ids) allowed)).run s).store ↔
        ∀ id ∈ allowed, s.isInGroup input.groupId id = true := by
  constructor
  · intro huntouched id hid
    rw [← Bool.not_eq_false]
    exact fun hin => touched_writeInvitations hfresh hallowed hid hin h huntouched
  · intro hin
    obtain ⟨hrows, hrevive⟩ : createRows env input (s.membershipsOf input.groupId ids) allowed = [] ∧
        membershipsToRevive (s.membershipsOf input.groupId ids) allowed = [] :=
      (nothing_to_write hallowed).mpr hin
    rw [hrows, hrevive]
    exact .refl s

theorem findExisting_run (groupId : Id) (ids : List Id) :
    ((findExisting groupId ids).run s).result = .ok (s.membershipsOf groupId ids) ∧
      ((findExisting groupId ids).run s).store = s := by
  unfold findExisting
  split
  · rename_i hnone
    rw [List.length_eq_zero_iff.mp hnone]
    have hempty : s.membershipsOf groupId [] = [] := by simp [SocialDb.membershipsOf]
    rw [hempty]
    exact ⟨rfl, rfl⟩
  · exact ⟨rfl, rfl⟩

theorem addGroupMembers_run {env : SocialEnv} {input : AddGroupMembersInput} {g : Group}
    (hg : s.findGroup input.groupId = some g)
    (hfresh : ∀ m ∈ s.members.rows, m.id ≠ env.memberId 0)
    (h : Answered (Social.addGroupMembers env input) s) :
    ∃ result, ((Social.addGroupMembers env input).run s).result = .ok (some result) ∧
      (refusedByPolicy result.rejectedInvites = true ↔
        s.refuses input.invitedById input.memberIds = true) ∧
      (Untouched s ((Social.addGroupMembers env input).run s).store ↔
        s.hasInvitee input.groupId input.invitedById input.memberIds = false) := by
  set ids := dedupedMemberIds input.invitedById input.memberIds with hids
  have hrest := answered_query h
  dsimp only at hrest
  rw [hg] at hrest
  obtain ⟨screening, hscreening⟩ :=
    (reports_screenMembers env input.invitedById ids).ok (answered_bind hrest).1
  have hrest := (answered_bind hrest).2 screening hscreening
  have huntouched := untouched_screenMembers (s := s) env input.invitedById ids
  have hscreen : (screenMembers env input.invitedById ids).Meets consentContract
      (ScreenedBy input.invitedById ids) s := meets_screenMembers env fun _ => ne_of_mem_deduped
  obtain ⟨-, hguar, hscreened⟩ := hscreen.run trivial
  have hscreened := hscreened screening hscreening
  set screened := ((screenMembers env input.invitedById ids).run s).store
  obtain ⟨hexisting, hsame⟩ := findExisting_run (s := screened) input.groupId ids
  have hrest := (answered_bind hrest).2 _ hexisting
  rw [hsame] at hrest
  set rows := createRows env input (screened.membershipsOf input.groupId ids) screening.allowed
  set revive := membershipsToRevive (screened.membershipsOf input.groupId ids) screening.allowed
  obtain ⟨_, hwrite⟩ :=
    (reports_writeInvitations input.invitedById rows revive).ok (answered_bind hrest).1
  have hallowed : screening.allowed ⊆ ids := fun id hid => ((hscreened.1 id).mp hid).1
  have hfresh' : ∀ m ∈ screened.members.rows, m.id ≠ env.memberId 0 := by
    rw [huntouched.2]
    exact hfresh
  have hwritten := untouched_writeInvitations hfresh' hallowed hwrite
  obtain ⟨group, hgroup⟩ : ∃ group, ((writeInvitations input.invitedById rows revive).run
      screened).store.findGroupById input.groupId = some group := by
    obtain ⟨hstored, hid⟩ := SocialDb.findGroup_some hg
    have hgroups := (keepsGroups_writeInvitations input.invitedById rows revive).run screened
    rw [← hid]
    exact Option.isSome_iff_exists.mp
      (findGroupById_of_groups hstored (hgroups.trans huntouched.1))
  have hrun : ((Social.addGroupMembers env input).run s).result = .ok (some
        ⟨group, rows.map (·.userId) ++ revive.map (·.userId), screening.rejected⟩) ∧
      ((Social.addGroupMembers env input).run s).store =
        ((writeInvitations input.invitedById rows revive).run screened).store := by
    unfold Social.addGroupMembers
    rw [run_bind_ok (p := query _) rfl]
    simp only [run_query, hg]
    rw [run_bind_ok hscreening, run_bind_ok hexisting, hsame, run_bind_ok hwrite,
      run_bind_ok (p := query _) rfl]
    simp only [run_query, run_pure, and_true]
    rw [hgroup]
    rfl
  refine ⟨_, hrun.1, refusedByPolicy_iff hguar.same (hscreened.rejected (.refl screened)), ?_⟩
  have hin : ∀ id, screened.isInGroup input.groupId id = s.isInGroup input.groupId id := by
    intro id
    unfold SocialDb.isInGroup SocialDb.findMembership
    rw [huntouched.2]
  rw [hrun.2, ← untouched_of_untouched huntouched, hwritten]
  unfold SocialDb.hasInvitee
  simp only [List.any_eq_false, Bool.and_eq_true, beq_iff_eq, Bool.not_eq_true',
    not_and, Bool.not_eq_false, hin]
  constructor
  · intro hall id hid hagrees
    exact hall id ((hscreened.1 id).mpr ⟨hid, (hguar.same.inviteRejection _ _).trans hagrees⟩)
  · intro hall id hid
    obtain ⟨hmem, hagrees⟩ := (hscreened.1 id).mp hid
    exact hall id hmem ((hguar.same.inviteRejection _ _).symm.trans hagrees)

/-! ## Access to a group -/

theorem access_granted {userId groupId : Id} (h : s.administers userId groupId = true) :
    ((assertGroupAdminAccess userId groupId).run s).result = .ok () ∧
      ((assertGroupAdminAccess userId groupId).run s).store = s := by
  unfold SocialDb.administers at h
  obtain ⟨m, hm, hrights⟩ := (Option.any_eq_true _ _).mp h
  simp only [Bool.and_eq_true, Bool.or_eq_true, beq_iff_eq] at hrights
  obtain ⟨hstatus, hrole⟩ := hrights
  have hnot : ¬ (m.role ≠ .owner ∧ m.role ≠ .admin) := by
    rintro ⟨howner, hadmin⟩
    exact hrole.elim howner hadmin
  unfold assertGroupAdminAccess
  rw [run_bind_ok (p := findMembership _ _) rfl]
  simp only [findMembership, run_stmt, hm]
  rw [if_neg (not_not.mpr hstatus), if_neg hnot]
  exact ⟨rfl, rfl⟩

theorem access_denied {userId groupId : Id} (h : s.administers userId groupId = false) :
    (∃ e, ((assertGroupAdminAccess userId groupId).run s).result = .error (.http e)) ∧
      ((assertGroupAdminAccess userId groupId).run s).store = s := by
  unfold SocialDb.administers at h
  unfold assertGroupAdminAccess
  rw [run_bind_ok (p := findMembership _ _) rfl]
  simp only [findMembership, run_stmt]
  cases hm : s.findMembership groupId userId with
  | none => exact ⟨⟨_, rfl⟩, rfl⟩
  | some m =>
      dsimp only
      split
      · exact ⟨⟨_, rfl⟩, rfl⟩
      · rename_i hstatus
        split
        · exact ⟨⟨_, rfl⟩, rfl⟩
        · rename_i hrole
          simp only [hm, Option.any_some, Bool.and_eq_false_iff, Bool.or_eq_false_iff,
            beq_eq_false_iff_ne] at h
          exact absurd (h.resolve_left hstatus) hrole

theorem failsCleanly_addGroupMembers {env : SocialEnv} {userId groupId : Id} {memberIds : List Id}
    (hfresh : ∀ m ∈ s.members.rows, m.id ≠ env.memberId 0)
    (h : Answered (SocialGroupsService.addGroupMembers env userId groupId memberIds) s) :
    FailsCleanly s (SocialGroupsService.addGroupMembers env userId groupId memberIds) s ↔
      ¬ (s.administers userId groupId = true ∧ s.refuses userId memberIds = true ∧
        s.hasInvitee groupId userId memberIds = true) := by
  have hrest := answered_query h
  refine failsCleanly_query.trans ?_
  cases hfind : s.findGroupById groupId with
  | none =>
      refine ⟨fun _ hadmin => ?_, fun _ => (failsCleanly_throwHttp _).mpr (.refl s)⟩
      -- Who administers a group has a membership, and so the group is stored.
      obtain ⟨m, hm, -⟩ := (Option.any_eq_true _ _).mp hadmin.1
      obtain ⟨hmem, hgroup, -⟩ := SocialDb.findMembership_some hm
      obtain ⟨g, hg, hid⟩ := s.member_group m hmem
      have hsome := SocialDb.findGroupById_isSome hg
      rw [hid, hgroup, hfind] at hsome
      cases hsome
  | some group =>
      rw [hfind] at hrest
      obtain ⟨hstored, hid⟩ := SocialDb.findGroupById_some hfind
      have hg : s.findGroup groupId = some group.toGroup := hid ▸ SocialDb.findGroup_of_mem hstored
      cases hadmin : s.administers userId groupId with
      | false =>
          obtain ⟨⟨e, he⟩, hsame⟩ := access_denied hadmin
          refine ⟨fun _ hall => (nomatch hall.1), fun _ e' _ => ?_⟩
          dsimp only
          rw [run_bind_error he, hsame]
          exact .refl s
      | true =>
          obtain ⟨haccess, hsame⟩ := access_granted hadmin
          have hrest := (answered_bind hrest).2 () haccess
          rw [hsame] at hrest
          have hadd : Answered
              (Social.addGroupMembers env { groupId, invitedById := userId, memberIds }) s :=
            (answered_bind hrest).1
          obtain ⟨result, hresult, hrefused, huntouched⟩ := addGroupMembers_run hg hfresh hadd
          refine (failsCleanly_bind haccess).trans ?_
          rw [hsame]
          refine (failsCleanly_bind hresult).trans ?_
          refine failsCleanly_announceInvitations.trans ?_
          rw [hrefused, huntouched]
          simp

end Feca.Social
