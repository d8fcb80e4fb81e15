import Feca.Social.Memberships

/-! # Plans

The membership operations of `PlansRepository`, statement by statement, each
with the law of its writes. `createPlan` invites whoever it finds.
-/

namespace Feca.Social

open Concurrency Concurrency.Prog Relational

structure CreatePlanInput where
  createdById : Id
  description : Option String := none
  date : Date
  inviteCode : String
  inviteUserIds : Option (List Id) := none
  joinPolicy : Option GroupJoinPolicy := none
  name : String
  placeId : Id
  visibility : Option GroupVisibility := none
  deriving DecidableEq, Repr

structure CreatedPlan where
  invitedUserIds : List Id
  plan : GroupWithRelations

/-! ## createPlan -/

/-- `user.findMany` by id, ids only. -/
def SocialDb.existingIds (s : SocialDb) (ids : List Id) : List Id :=
  (s.users.rows.filter fun u => ids.contains u.id).map (·.id)

def CreatePlanInput.inviteeIds (input : CreatePlanInput) : List Id :=
  dedupedMemberIds input.createdById (input.inviteUserIds.getD [])

def CreatePlanInput.group (env : SocialEnv) (input : CreatePlanInput) : Group where
  id := env.groupId
  name := input.name
  description := input.description
  createdById := input.createdById
  inviteCode := input.inviteCode
  visibility := input.visibility.getD .«public»
  joinPolicy := input.joinPolicy.getD .«open»
  createdAt := env.now

def CreatePlanInput.event (env : SocialEnv) (input : CreatePlanInput) : GroupEvent where
  id := env.eventId
  groupId := env.groupId
  placeId := input.placeId
  proposedById := input.createdById
  date := input.date
  status := .confirmed
  createdAt := env.now

def createPlan (env : SocialEnv) (input : CreatePlanInput) : SocialProg CreatedPlan := do
  let invitees ← query fun s => s.existingIds input.inviteeIds
  let plan ← createGroupWith (·.findPlanById) (input.group env)
    (foundingMembers env input.createdById invitees) [input.event env]
  pure ⟨invitees, plan⟩

/-! ## joinPlan -/

inductive JoinKind
  | accepted
  | requested
  | denied
  deriving DecidableEq, Repr

structure JoinResult where
  changed : Bool
  kind : JoinKind
  membership : Option GroupMember
  deriving DecidableEq, Repr

/-- What joining makes of a membership under a policy that lets one in. -/
def joinStatus (policy : GroupJoinPolicy) : GroupMemberStatus :=
  if policy = .«open» then .accepted else .requested

def joinKind (policy : GroupJoinPolicy) : JoinKind :=
  if policy = .«open» then .accepted else .requested

/-- The write at the end of `joinPlan`. -/
def enterPlan (env : SocialEnv) (group : Group) (userId : Id) :
    Option GroupMember → SocialProg JoinResult
  | some existing => do
      let membership ← updateMember existing.id
        { status := joinStatus group.joinPolicy, role := some .member }
      pure ⟨true, joinKind group.joinPolicy, some membership⟩
  | none => do
      let membership ← createMember
        (newMember env group.id (joinStatus group.joinPolicy) none 0 userId)
      pure ⟨true, joinKind group.joinPolicy, some membership⟩

/-- `joinPlan`, from the group and the membership it has read. -/
def decideJoin (env : SocialEnv) (group : Group) (userId : Id) (existing : Option GroupMember) :
    SocialProg JoinResult :=
  match existing with
  | some m =>
      if m.status = .accepted then pure ⟨false, .accepted, existing⟩
      else if m.status = .pending ∧ group.joinPolicy = .inviteOnly then do
        let membership ← updateMember m.id { status := .accepted }
        pure ⟨true, .accepted, some membership⟩
      else if m.status = .requested ∧ group.joinPolicy = .requestApproval then
        pure ⟨false, .requested, existing⟩
      else if group.joinPolicy = .inviteOnly then pure ⟨false, .denied, existing⟩
      else enterPlan env group userId existing
  | none =>
      if group.joinPolicy = .inviteOnly then pure ⟨false, .denied, none⟩
      else enterPlan env group userId none

def joinPlan (env : SocialEnv) (groupId userId : Id) : SocialProg (Option JoinResult) := do
  match ← selectGroup (·.findGroup groupId) with
  | none => pure none
  | some group =>
      let existing ← findMembership groupId userId
      some <$> decideJoin env group userId existing

/-! ## leavePlan -/

inductive LeavePlanResult
  | owner
  | left (membership : GroupMember)
  deriving DecidableEq, Repr

def leavePlan (groupId userId : Id) : SocialProg (Option LeavePlanResult) := do
  match ← findMembership groupId userId with
  | none => pure none
  | some membership =>
      if membership.role = .owner then pure (some .owner)
      else if membership.status ≠ .accepted ∧ membership.status ≠ .requested ∧
          membership.status ≠ .pending then pure none
      else do
        let updated ← updateMember membership.id { status := .left }
        pure (some (.left updated))

/-! ## Join requests -/

/-- `listJoinRequests`, oldest first. -/
def SocialDb.joinRequests (s : SocialDb) (groupId : Id) : List GroupMember :=
  (s.members.rows.filter fun m =>
    m.groupId == groupId && m.status == .requested).insertionSort planMemberBefore

def decideJoinRequest (groupId membershipId : Id) (approve : Bool) : SocialProg Nat :=
  updateMembers (fun m => m.id == membershipId && m.groupId == groupId && m.status == .requested)
    { status := if approve then .accepted else .declined }

def cancelJoinRequest (groupId userId : Id) : SocialProg Nat :=
  updateMembers (fun m => m.groupId == groupId && m.userId == userId && m.status == .requested)
    { status := .left }

/-! ## Member lists -/

/-- `listAcceptedMemberIds`. -/
def SocialDb.acceptedMemberIds (s : SocialDb) (groupId : Id) (excludeUserId : Option Id) :
    List Id :=
  (s.members.rows.filter fun m => m.groupId == groupId && m.status == .accepted &&
    (excludeUserId.bind orNull).all fun excluded => m.userId != excluded).map (·.userId)

/-- `listAdminIds`. -/
def SocialDb.adminIds (s : SocialDb) (groupId : Id) : List Id :=
  (s.members.rows.filter fun m => m.groupId == groupId && (m.role == .owner || m.role == .admin) &&
    m.status == .accepted).map (·.userId)

/-! ## What each operation writes -/

/-- Joining accepts whoever is not accepted yet in an open plan, whoever is
invited in a closed one, and asks for approval otherwise. -/
def joinPlanRules : MembershipRules where
  moves policy before after :=
    match policy with
    | .«open» => after == .accepted && before != .accepted
    | .inviteOnly => after == .accepted && before == .pending
    | .requestApproval => after == .requested &&
        (before == .pending || before == .declined || before == .left)
  starts policy status :=
    match policy with
    | .«open» => status == .accepted
    | .inviteOnly => false
    | .requestApproval => status == .requested

def leavePlanRules : MembershipRules where
  moves _ before after := after == .left &&
    (before == .accepted || before == .pending || before == .requested)
  starts _ _ := false

/-- A decision, or a cancellation, of a request. -/
def requestRules (outcome : GroupMemberStatus) : MembershipRules where
  moves _ before after := after == outcome && before == .requested
  starts _ _ := false

variable {past : List SocialEvent}

theorem createPlan_law (env : SocialEnv) (input : CreatePlanInput) :
    (createPlan env input).Follows (CallLaw createGroupRules) (fun _ _ => True) [] := by
  refine follows_bind (follows_of_quiet (quiet_query _) (by simp [Unwritten]))
    fun invitees later _ _ => ?_
  exact follows_bind (follows_founding (g := input.group env) rfl invitees [input.event env])
    fun _ _ _ _ => trivial

/-- An open door takes in whoever has no accepted membership. -/
theorem enterPlan_law {env : SocialEnv} {group : Group} {userId : Id} (hfound : .found group ∈ past)
    (hclosed : group.joinPolicy ≠ .inviteOnly) (hpast : ∀ id, Unwritten past id)
    (existing : Option GroupMember) (hseen : ∀ m, existing = some m → Seen past m ∧
      m.groupId = group.id ∧ m.status ≠ .accepted ∧
        ¬ (m.status = .requested ∧ group.joinPolicy = .requestApproval)) :
    (enterPlan env group userId existing).Follows (CallLaw joinPlanRules) (fun _ _ => True) past := by
  cases existing with
  | none =>
      refine follows_bind (follows_createMember rfl fun policy hpolicy => ?_) fun _ _ _ _ => trivial
      rw [← hpolicy group hfound rfl]
      cases hp : group.joinPolicy <;> simp_all [newMember, joinStatus, joinPlanRules]
  | some m =>
      obtain ⟨hm, hgroup, haccepted, hrequested⟩ := hseen m rfl
      refine follows_bind (follows_updateMember hm ⟨fun policy hpolicy => ?_, fun _ => haccepted⟩
        (hpast m.id) (.inr rfl)) fun _ _ _ _ => trivial
      rw [← hpolicy group hfound hgroup.symm]
      cases hp : group.joinPolicy <;> cases hs : m.status <;> simp_all [joinStatus, joinPlanRules]

theorem decideJoin_law {env : SocialEnv} {group : Group} {userId : Id}
    (hfound : .found group ∈ past) (hpast : ∀ id, Unwritten past id)
    (existing : Option GroupMember)
    (hseen : ∀ m, existing = some m → Seen past m ∧ m.groupId = group.id) :
    (decideJoin env group userId existing).Follows (CallLaw joinPlanRules) (fun _ _ => True)
      past := by
  cases existing with
  | none =>
      unfold decideJoin
      dsimp only
      split
      · trivial
      · rename_i hclosed
        exact enterPlan_law hfound hclosed hpast none (by simp)
  | some m =>
      obtain ⟨hm, hgroup⟩ := hseen m rfl
      unfold decideJoin
      dsimp only
      split
      · trivial
      · rename_i haccepted
        split
        · rename_i hinvited
          refine follows_bind (follows_updateMember hm
            ⟨fun policy hpolicy => ?_, fun _ => haccepted⟩ (hpast m.id) (.inl rfl))
            fun _ _ _ _ => trivial
          rw [← hpolicy group hfound hgroup.symm, hinvited.1, hinvited.2]
          rfl
        · split
          · trivial
          · rename_i hrequested
            split
            · trivial
            · rename_i hclosed
              refine enterPlan_law hfound hclosed hpast (some m) fun x hx => ?_
              cases hx
              exact ⟨hm, hgroup, haccepted, hrequested⟩

theorem joinPlan_law (env : SocialEnv) (groupId userId : Id) :
    (joinPlan env groupId userId).Follows (CallLaw joinPlanRules) (fun _ _ => True) [] := by
  refine follows_bind (follows_selectGroup (P := fun g => g.id = groupId)
    (fun s g hg => SocialDb.findGroup_some hg) (by simp [Unwritten])) ?_
  rintro g past - ⟨hpast, hfound⟩
  cases g with
  | none => trivial
  | some group =>
      obtain ⟨hgroup, hid⟩ := hfound group rfl
      refine follows_bind (follows_findMembership hpast) ?_
      rintro existing later hlater ⟨hunwritten, hseen⟩
      refine follows_map (decideJoin_law (hlater.subset hgroup) hunwritten existing fun m hm => ?_)
      exact ⟨(hseen m hm).1, (hseen m hm).2.1.trans hid.symm⟩

theorem leavePlan_law (groupId userId : Id) :
    (leavePlan groupId userId).Follows (CallLaw leavePlanRules) (fun _ _ => True) [] := by
  refine follows_bind (follows_findMembership (by simp [Unwritten])) ?_
  rintro membership past - ⟨hpast, hseen⟩
  cases membership with
  | none => trivial
  | some m =>
      dsimp only
      split
      · trivial
      · rename_i hrole
        split
        · trivial
        · rename_i hstatus
          refine follows_bind (follows_updateMember (hseen m rfl).1
            ⟨fun _ _ => ?_, fun howner => absurd howner hrole⟩ (hpast _) (.inl rfl))
            fun _ _ _ _ => trivial
          cases hm : m.status <;> simp_all [leavePlanRules]

theorem decideJoinRequest_law (groupId membershipId : Id) (approve : Bool) :
    (decideJoinRequest groupId membershipId approve).Follows
      (CallLaw (requestRules (if approve then .accepted else .declined))) (fun _ _ => True) [] := by
  refine follows_updateMembers (fun m hm => ?_) rfl (by simp [Unwritten])
  have hstatus : m.status = .requested := by
    simp only [Bool.and_eq_true, beq_iff_eq] at hm
    exact hm.2
  exact ⟨fun _ _ => by simp [requestRules, hstatus], fun _ => by simp [hstatus]⟩

theorem cancelJoinRequest_law (groupId userId : Id) :
    (cancelJoinRequest groupId userId).Follows (CallLaw (requestRules .left)) (fun _ _ => True)
      [] := by
  refine follows_updateMembers (fun m hm => ?_) rfl (by simp [Unwritten])
  have hstatus : m.status = .requested := by
    simp only [Bool.and_eq_true, beq_iff_eq] at hm
    exact hm.2
  exact ⟨fun _ _ => by simp [requestRules, hstatus], fun _ => by simp [hstatus]⟩

end Feca.Social
