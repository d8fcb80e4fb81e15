import Feca.Social.Law

/-! # Group memberships

`SocialGroupsRepository.createGroup` and the three operations of
`SocialGroupMembershipRepository`, statement by statement, each with the law of
its writes.
-/

namespace Feca.Social

open Concurrency Concurrency.Prog Relational

structure CreateGroupInput where
  createdById : Id
  inviteCode : String
  memberIds : List Id
  memberProposalInteraction : Option MemberProposalInteraction := none
  name : String
  placeProposalPolicy : Option PlaceProposalPolicy := none
  visibility : Option GroupVisibility := none
  deriving DecidableEq, Repr

structure AddGroupMembersInput where
  groupId : Id
  invitedById : Id
  memberIds : List Id
  deriving DecidableEq, Repr

/-- A group, whom the call has invited to it and whom it has not. -/
structure InvitedGroup where
  group : GroupWithRelations
  invitedUserIds : List Id
  rejectedInvites : List RejectedInvite

/-- `Array.from(new Set(memberIds.filter(…)))`: everyone but the inviter, once. -/
def dedupedMemberIds (inviterId : Id) (memberIds : List Id) : List Id :=
  distinctIds (memberIds.filter (· != inviterId))

theorem ne_of_mem_deduped {inviterId id : Id} {memberIds : List Id}
    (h : id ∈ dedupedMemberIds inviterId memberIds) : id ≠ inviterId := by
  simpa using (List.mem_filter.mp (mem_distinctIds.mp h)).2

def findInvitees (ids : List Id) : SocialProg (List UserWithSettings) :=
  if ids.length = 0 then pure [] else query fun s => s.usersWithSettings ids

/-- Everything `createGroup` and `addGroupMembers` find out about the members
before they write. -/
def screenMembers (env : SocialEnv) (inviterId : Id) (ids : List Id) : SocialProg Screening := do
  ensureUserSettingsForUsers env (inviterId :: ids)
  let invitees ← findInvitees ids
  let relationships ← getRelationshipMaps inviterId (invitees.map (·.user.id))
  pure (screenInvites inviterId invitees relationships ids)

/-- The `k`-th membership a call creates. -/
def newMember (env : SocialEnv) (groupId : Id) (status : GroupMemberStatus)
    (invitedById : Option Id) (k : Nat) (userId : Id) : GroupMember where
  id := env.memberId k
  groupId := groupId
  userId := userId
  invitedById := invitedById
  role := .member
  status := status
  createdAt := env.now

/-- The membership a creator starts with. -/
def ownerMember (env : SocialEnv) (userId : Id) : GroupMember where
  id := env.memberId 0
  groupId := env.groupId
  userId := userId
  role := .owner
  status := .accepted
  createdAt := env.now

/-- The nested `members.create` of a new group. -/
def foundingMembers (env : SocialEnv) (createdById : Id) (inviteeIds : List Id) :
    List GroupMember :=
  ownerMember env createdById :: inviteeIds.zipIdx.map fun (userId, k) =>
    newMember env env.groupId .pending (some createdById) (k + 1) userId

/-! ## createGroup -/

def CreateGroupInput.group (env : SocialEnv) (input : CreateGroupInput) : Group where
  id := env.groupId
  name := input.name
  createdById := input.createdById
  inviteCode := input.inviteCode
  visibility := input.visibility.getD .«private»
  placeProposalPolicy := input.placeProposalPolicy.getD .allMembers
  memberProposalInteraction := input.memberProposalInteraction.getD .collaborative
  createdAt := env.now

def createGroup (env : SocialEnv) (input : CreateGroupInput) : SocialProg InvitedGroup := do
  let ids := dedupedMemberIds input.createdById input.memberIds
  let screening ← screenMembers env input.createdById ids
  let group ← createGroupWith (·.findGroupById) (input.group env)
    (foundingMembers env input.createdById screening.allowed) []
  pure ⟨group, screening.allowed, screening.rejected⟩

/-! ## addGroupMembers -/

/-- The rows to create: allowed members without a membership. -/
def createRows (env : SocialEnv) (input : AddGroupMembersInput) (existing : List GroupMember)
    (allowed : List Id) : List GroupMember :=
  (allowed.filter fun id => (existing.find? (·.userId == id)).isNone).zipIdx.map
    fun (userId, k) => newMember env input.groupId .pending (some input.invitedById) k userId

/-- The memberships to revive: neither accepted nor pending. -/
def membershipsToRevive (existing : List GroupMember) (allowed : List Id) : List GroupMember :=
  (allowed.filterMap fun id => existing.find? (·.userId == id)).filter
    fun m => m.status != .accepted && m.status != .pending

/-- What an invitation makes of a membership that has ended. -/
def revived (invitedById : Id) : MemberData where
  status := .pending
  role := some .member
  invitedById := some (some invitedById)

def reviveEach (invitedById : Id) : List GroupMember → SocialProg Unit
  | [] => pure ()
  | m :: rest => do
      let _ ← updateMember m.id (revived invitedById)
      reviveEach invitedById rest

/-- `dedupedMemberIds.length ? findMany : []`. -/
def findExisting (groupId : Id) (ids : List Id) : SocialProg (List GroupMember) :=
  if ids.length = 0 then pure [] else findMemberships groupId ids

def createAny (rows : List GroupMember) : SocialProg Unit :=
  if rows.length > 0 then createMembers rows else pure ()

/-- The transaction of `addGroupMembers`. -/
def writeInvitations (invitedById : Id) (rows revive : List GroupMember) : SocialProg Unit := do
  createAny rows
  reviveEach invitedById revive

def addGroupMembers (env : SocialEnv) (input : AddGroupMembersInput) :
    SocialProg (Option InvitedGroup) := do
  match ← query fun s => s.findGroup input.groupId with
  | none => pure none
  | some _ =>
      let ids := dedupedMemberIds input.invitedById input.memberIds
      let screening ← screenMembers env input.invitedById ids
      let existing ← findExisting input.groupId ids
      let rows := createRows env input existing screening.allowed
      let revive := membershipsToRevive existing screening.allowed
      writeInvitations input.invitedById rows revive
      let updatedGroup ← query fun s => s.findGroupById input.groupId
      pure (updatedGroup.map fun group =>
        ⟨group, rows.map (·.userId) ++ revive.map (·.userId), screening.rejected⟩)

/-! ## joinGroupByCode -/

structure JoinedGroup where
  group : GroupWithRelations
  joinedNow : Bool

def SocialDb.findGroupByInviteCode (s : SocialDb) (inviteCode : String) : Option Group :=
  s.groups.rows.find? (·.inviteCode == inviteCode)

/-- The membership of whoever joins by code becomes accepted; whether it was not
already. -/
def acceptByCode (env : SocialEnv) (groupId userId : Id) : SocialProg Bool := do
  match ← findMembership groupId userId with
  | some existing =>
      if existing.status = .accepted then pure false
      else do
        let _ ← updateMember existing.id { status := .accepted }
        pure true
  | none => do
      let _ ← createMember (newMember env groupId .accepted none 0 userId)
      pure true

def joinGroupByCode (env : SocialEnv) (userId : Id) (inviteCode : String) :
    SocialProg (Option JoinedGroup) := do
  let normalizedCode := env.upperCase (trim inviteCode)
  match ← selectGroup (·.findGroupByInviteCode normalizedCode) with
  | none => pure none
  | some group =>
      let joinedNow ← acceptByCode env group.id userId
      let hydratedGroup ← query fun s => s.findGroupById group.id
      pure (hydratedGroup.map fun group => ⟨group, joinedNow⟩)

/-! ## leaveGroup -/

inductive LeaveGroupResult
  | ownerCannotLeave
  | left (group : GroupWithRelations)

def leaveGroup (groupId userId : Id) : SocialProg (Option LeaveGroupResult) := do
  match ← findMembership groupId userId with
  | none => pure none
  | some membership =>
      if membership.role = .owner then pure (some .ownerCannotLeave)
      else if membership.status ≠ .accepted ∧ membership.status ≠ .pending then pure none
      else do
        let _ ← updateMember membership.id { status := .left }
        let group ← query fun s => s.findGroupById groupId
        pure (group.map .left)

/-! ## What each operation writes -/

/-- New groups start with accepted and pending rows. -/
def createGroupRules : MembershipRules where
  moves _ _ _ := false
  starts _ status := status == .accepted || status == .pending

def addGroupMembersRules : MembershipRules where
  moves _ before after := after == .pending &&
    (before == .requested || before == .declined || before == .left)
  starts _ status := status == .pending

def joinGroupByCodeRules : MembershipRules where
  moves _ before after := after == .accepted && before != .accepted
  starts _ status := status == .accepted

def leaveGroupRules : MembershipRules where
  moves _ before after := after == .left && (before == .accepted || before == .pending)
  starts _ _ := false

variable {rules : MembershipRules} {past : List SocialEvent}

theorem quiet_screenMembers (env : SocialEnv) (inviterId : Id) (ids : List Id) :
    (screenMembers env inviterId ids).Always Quiet := by
  refine always_bind (quiet_ensureEach env _ 0) fun _ => always_bind ?_ fun invitees =>
    always_bind (quiet_getRelationshipMaps _ _) fun _ => trivial
  unfold findInvitees
  split
  · trivial
  · exact quiet_query _

/-- The screening keeps the order of the members, and each once. -/
theorem returns_screenMembers (env : SocialEnv) (inviterId : Id) (ids : List Id) :
    (screenMembers env inviterId ids).Returns fun screening => screening.allowed.Sublist ids := by
  refine returns_bind (R := fun _ => True) (returns_any _) fun _ _ =>
    returns_bind (R := fun _ => True) (returns_any _) fun invitees _ =>
      returns_bind (R := fun _ => True) (returns_any _) fun relationships _ => ?_
  exact screenInvites_sublist _ _ _ _

/-- A new group's members: one owner, its creator, and members to invite. -/
theorem mem_foundingMembers {env : SocialEnv} {createdById : Id} {ids : List Id} {m : GroupMember}
    (h : m ∈ foundingMembers env createdById ids) : m = ownerMember env createdById ∨
      m.groupId = env.groupId ∧ m.role = .member ∧ m.status = .pending ∧
        m.invitedById = some createdById ∧ m.userId ∈ ids := by
  rw [foundingMembers, List.mem_cons] at h
  refine h.imp_right fun h => ?_
  obtain ⟨⟨userId, k⟩, hk, rfl⟩ := List.mem_map.mp h
  exact ⟨rfl, rfl, rfl, rfl, List.fst_mem_of_mem_zipIdx hk⟩

theorem follows_founding {find : SocialDb → Id → Option GroupWithRelations} {env : SocialEnv}
    {g : Group} (hg : g.id = env.groupId) (inviteeIds : List Id) (es : List GroupEvent) :
    (createGroupWith find g (foundingMembers env g.createdById inviteeIds) es).Follows
      (CallLaw createGroupRules) (fun _ _ => True) past := by
  refine follows_createGroupWith ⟨_, List.mem_cons_self, rfl⟩ (fun m hm => ?_) fun m hm _ => ?_
  · obtain rfl | ⟨hgroup, hrole, -⟩ := mem_foundingMembers hm
    · exact ⟨hg.symm, .inr ⟨rfl, rfl, rfl⟩⟩
    · exact ⟨hgroup.trans hg.symm, .inl hrole⟩
  · obtain rfl | ⟨-, -, hstatus, -⟩ := mem_foundingMembers hm
    · rfl
    · rw [hstatus]
      rfl

theorem createGroup_law (env : SocialEnv) (input : CreateGroupInput) :
    (createGroup env input).Follows (CallLaw createGroupRules) (fun _ _ => True) [] := by
  refine follows_bind (follows_of_quiet (quiet_screenMembers env _ _) (by simp [Unwritten]))
    fun screening later _ _ => ?_
  exact follows_bind (follows_founding (g := input.group env) rfl screening.allowed [])
    fun _ _ _ _ => trivial

theorem mem_createRows {env : SocialEnv} {input : AddGroupMembersInput}
    {existing : List GroupMember} {allowed : List Id} {m : GroupMember}
    (h : m ∈ createRows env input existing allowed) : m.groupId = input.groupId ∧
      m.role = .member ∧ m.status = .pending ∧ m.invitedById = some input.invitedById ∧
        m.userId ∈ allowed := by
  obtain ⟨⟨userId, k⟩, hk, rfl⟩ := List.mem_map.mp h
  exact ⟨rfl, rfl, rfl, rfl, (List.mem_filter.mp (List.fst_mem_of_mem_zipIdx hk)).1⟩

theorem mem_membershipsToRevive {existing : List GroupMember} {allowed : List Id}
    {m : GroupMember} (h : m ∈ membershipsToRevive existing allowed) :
    m ∈ existing ∧ m.userId ∈ allowed ∧ m.status ≠ .accepted ∧ m.status ≠ .pending := by
  obtain ⟨hmem, hstatus⟩ := List.mem_filter.mp h
  obtain ⟨id, hid, hfind⟩ := List.mem_filterMap.mp hmem
  have huser : m.userId = id := by simpa using List.find?_some hfind
  have hstatus' : m.status ≠ .accepted ∧ m.status ≠ .pending := by simpa using hstatus
  exact ⟨List.mem_of_find?_eq_some hfind, huser ▸ hid, hstatus'⟩

/-- Distinct users have distinct memberships, so nothing is revived twice. -/
theorem membershipsToRevive_pairwise {s : SocialDb} {existing : List GroupMember}
    {allowed : List Id} (hstored : ∀ m ∈ existing, m ∈ s.members.rows) (h : allowed.Nodup) :
    (membershipsToRevive existing allowed).Pairwise fun a b => a.id ≠ b.id := by
  refine List.Pairwise.filter _ (List.pairwise_filterMap.mpr (h.imp ?_))
  intro a b hab m hm n hn hid
  have hmuser : m.userId = a := by simpa using List.find?_some hm
  have hnuser : n.userId = b := by simpa using List.find?_some hn
  have hsame := s.member_unique (hstored m (List.mem_of_find?_eq_some hm))
    (hstored n (List.mem_of_find?_eq_some hn)) hid
  exact hab (by rw [← hmuser, ← hnuser, hsame])

/-- The loop writes each row it revives once. -/
theorem follows_reviveEach (invitedById : Id) {ms : List GroupMember}
    (hseen : ∀ m ∈ ms, Seen past m)
    (hstatus : ∀ m ∈ ms, m.status ≠ .accepted ∧ m.status ≠ .pending)
    (hfresh : ∀ m ∈ ms, Unwritten past m.id) (hdistinct : ms.Pairwise fun a b => a.id ≠ b.id) :
    (reviveEach invitedById ms).Follows (CallLaw addGroupMembersRules) (fun _ _ => True) past := by
  induction ms generalizing past with
  | nil => trivial
  | cons m ms ih =>
      rw [List.forall_mem_cons] at hseen hstatus hfresh
      rw [List.pairwise_cons] at hdistinct
      refine follows_bind (follows_updateMember hseen.1 ⟨fun _ _ => ?_, fun _ => hstatus.1.1⟩
        hfresh.1 (.inr rfl)) fun _ later hlater hwritten => ?_
      · have := hstatus.1
        cases hm : m.status <;> simp_all [addGroupMembersRules, revived]
      · refine ih (fun x hx => (hseen.2 x hx).later hlater) hstatus.2 (fun x hx y y' hy => ?_)
          hdistinct.2
        rcases hwritten y y' hy with hpast | hid
        · exact hfresh.2 x hx y y' hpast
        · rw [hid]
          exact hdistinct.1 x hx

theorem follows_findExisting (groupId : Id) (ids : List Id) (hpast : ∀ id, Unwritten past id) :
    (findExisting groupId ids).Follows (CallLaw rules) (fun existing later =>
      (∀ id, Unwritten later id) ∧ (∃ s : SocialDb, ∀ m ∈ existing, m ∈ s.members.rows) ∧
        ∀ m ∈ existing, Seen later m) past := by
  unfold findExisting
  split
  · exact ⟨hpast, ⟨default, by simp⟩, by simp⟩
  · refine (follows_saw (P := fun _ => True) (fun s r hr => (List.mem_filter.mp hr).1)
      (fun _ => trivial) hpast).mono ?_
    rintro a later ⟨hunwritten, -, s, rfl, hseen⟩
    exact ⟨hunwritten, ⟨s, fun m hm => (List.mem_filter.mp hm).1⟩, hseen⟩

/-- The transaction writes what the call has seen. -/
theorem writeInvitations_law {env : SocialEnv} {input : AddGroupMembersInput} {s : SocialDb}
    {existing : List GroupMember} {allowed : List Id} (hpast : ∀ id, Unwritten past id)
    (hseen : ∀ m ∈ existing, Seen past m) (hstored : ∀ m ∈ existing, m ∈ s.members.rows)
    (hallowed : allowed.Nodup) :
    (writeInvitations input.invitedById (createRows env input existing allowed)
      (membershipsToRevive existing allowed)).Follows (CallLaw addGroupMembersRules)
        (fun _ _ => True) past := by
  have hcreate : (createAny (createRows env input existing allowed)).Follows
      (CallLaw addGroupMembersRules) (fun _ later => ∀ id, Unwritten later id) past := by
    unfold createAny
    split
    · refine follows_createMembers (fun m hm => (mem_createRows hm).2.1) (fun m hm _ _ => ?_) hpast
      rw [(mem_createRows hm).2.2.1]
      rfl
    · exact hpast
  refine follows_bind hcreate fun _ later hlater hunwritten => ?_
  refine follows_reviveEach input.invitedById (fun m hm => ?_) (fun m hm => ?_)
    (fun m _ => hunwritten m.id) (membershipsToRevive_pairwise hstored hallowed)
  · exact (hseen m (mem_membershipsToRevive hm).1).later hlater
  · exact (mem_membershipsToRevive hm).2.2

theorem addGroupMembers_law (env : SocialEnv) (input : AddGroupMembersInput) :
    (addGroupMembers env input).Follows (CallLaw addGroupMembersRules) (fun _ _ => True) [] := by
  refine follows_bind (follows_of_quiet (quiet_query _) (by simp [Unwritten])) ?_
  intro g past _ hpast
  cases g with
  | none => trivial
  | some g =>
      refine follows_bind ((follows_of_quiet (quiet_screenMembers env _ _) hpast).returns
        (returns_screenMembers env _ _)) ?_
      rintro screening past - ⟨hpast, hallowed⟩
      refine follows_bind (follows_findExisting _ _ hpast) ?_
      rintro existing past - ⟨hpast, ⟨s, hstored⟩, hseen⟩
      refine follows_bind (writeInvitations_law hpast hseen hstored
        (hallowed.nodup (nodup_distinctIds _))) fun _ _ _ _ => ?_
      exact follows_bind (follows_of_quiet_last (quiet_query _)) fun _ _ _ _ => trivial

theorem acceptByCode_law (env : SocialEnv) (groupId userId : Id)
    (hpast : ∀ id, Unwritten past id) :
    (acceptByCode env groupId userId).Follows (CallLaw joinGroupByCodeRules) (fun _ _ => True)
      past := by
  refine follows_bind (follows_findMembership hpast) ?_
  rintro membership later - ⟨hunwritten, hseen⟩
  cases membership with
  | none =>
      exact follows_bind (follows_createMember rfl fun _ _ => rfl) fun _ _ _ _ => trivial
  | some m =>
      dsimp only
      split
      · trivial
      · rename_i hstatus
        refine follows_bind (follows_updateMember (hseen m rfl).1 ⟨fun _ _ => ?_, fun _ => hstatus⟩
          (hunwritten _) (.inl rfl)) fun _ _ _ _ => trivial
        simpa [joinGroupByCodeRules] using hstatus

theorem joinGroupByCode_law (env : SocialEnv) (userId : Id) (inviteCode : String) :
    (joinGroupByCode env userId inviteCode).Follows (CallLaw joinGroupByCodeRules)
      (fun _ _ => True) [] := by
  refine follows_bind (follows_selectGroup (P := fun _ => True) (fun s g hg => ?_)
    (by simp [Unwritten])) ?_
  · exact ⟨List.mem_of_find?_eq_some hg, trivial⟩
  · rintro g past - ⟨hpast, -⟩
    cases g with
    | none => trivial
    | some g =>
        refine follows_bind (acceptByCode_law env g.id userId hpast) fun _ _ _ _ => ?_
        exact follows_bind (follows_of_quiet_last (quiet_query _)) fun _ _ _ _ => trivial

theorem leaveGroup_law (groupId userId : Id) :
    (leaveGroup groupId userId).Follows (CallLaw leaveGroupRules) (fun _ _ => True) [] := by
  refine follows_bind (follows_findMembership (by simp [Unwritten])) ?_
  rintro membership past - ⟨hpast, hseen⟩
  cases membership with
  | none => trivial
  | some m =>
      dsimp only
      split
      · trivial
      · rename_i hrole
        split
        · trivial
        · rename_i hstatus
          refine follows_bind (follows_updateMember (hseen m rfl).1
            ⟨fun _ _ => ?_, fun howner => absurd howner hrole⟩ (hpast _) (.inl rfl)) ?_
          · cases hm : m.status <;> simp_all [leaveGroupRules]
          · intro _ _ _ _
            exact follows_bind (follows_of_quiet_last (quiet_query _)) fun _ _ _ _ => trivial

end Feca.Social
