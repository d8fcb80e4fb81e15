import Feca.Plans.Repository

/-! # Groups and plans as one system

Any number of calls on groups and plans over one store, one statement at a
time. `law_advance` says once what a step of the system can do: it obeys the
law of the call that moved, and what the calls know of the store stays true of
it.
-/

namespace Feca.Social

open Concurrency Concurrency.Prog Relational

/-- A call some request makes. -/
inductive SocialCall
  | createPlan (env : SocialEnv) (input : CreatePlanInput)
  | createGroup (env : SocialEnv) (input : CreateGroupInput)
  | addGroupMembers (env : SocialEnv) (input : AddGroupMembersInput)
  | joinGroupByCode (env : SocialEnv) (userId : Id) (inviteCode : String)
  | leaveGroup (groupId userId : Id)
  | joinPlan (env : SocialEnv) (groupId userId : Id)
  | leavePlan (groupId userId : Id)
  | decideJoinRequest (groupId membershipId : Id) (approve : Bool)
  | cancelJoinRequest (groupId userId : Id)

def SocialCall.prog : SocialCall → SocialProg Unit
  | .createPlan env input => (fun _ => ()) <$> Social.createPlan env input
  | .createGroup env input => (fun _ => ()) <$> Social.createGroup env input
  | .addGroupMembers env input => (fun _ => ()) <$> Social.addGroupMembers env input
  | .joinGroupByCode env userId inviteCode =>
      (fun _ => ()) <$> Social.joinGroupByCode env userId inviteCode
  | .leaveGroup groupId userId => (fun _ => ()) <$> Social.leaveGroup groupId userId
  | .joinPlan env groupId userId => (fun _ => ()) <$> Social.joinPlan env groupId userId
  | .leavePlan groupId userId => (fun _ => ()) <$> Social.leavePlan groupId userId
  | .decideJoinRequest groupId membershipId approve =>
      (fun _ => ()) <$> Social.decideJoinRequest groupId membershipId approve
  | .cancelJoinRequest groupId userId =>
      (fun _ => ()) <$> Social.cancelJoinRequest groupId userId

/-- What each call may write over what. -/
def SocialCall.rules : SocialCall → MembershipRules
  | .createPlan _ _ => createGroupRules
  | .createGroup _ _ => createGroupRules
  | .addGroupMembers _ _ => addGroupMembersRules
  | .joinGroupByCode _ _ _ => joinGroupByCodeRules
  | .leaveGroup _ _ => leaveGroupRules
  | .joinPlan _ _ _ => joinPlanRules
  | .leavePlan _ _ => leavePlanRules
  | .decideJoinRequest _ _ approve => requestRules (if approve then .accepted else .declined)
  | .cancelJoinRequest _ _ => requestRules .left

theorem prog_law (call : SocialCall) :
    call.prog.Follows (CallLaw call.rules) (fun _ _ => True) [] := by
  cases call with
  | createPlan env input => exact follows_map (createPlan_law env input)
  | createGroup env input => exact follows_map (createGroup_law env input)
  | addGroupMembers env input => exact follows_map (addGroupMembers_law env input)
  | joinGroupByCode env userId inviteCode =>
      exact follows_map (joinGroupByCode_law env userId inviteCode)
  | leaveGroup groupId userId => exact follows_map (leaveGroup_law groupId userId)
  | joinPlan env groupId userId => exact follows_map (joinPlan_law env groupId userId)
  | leavePlan groupId userId => exact follows_map (leavePlan_law groupId userId)
  | decideJoinRequest groupId membershipId approve =>
      exact follows_map (decideJoinRequest_law groupId membershipId approve)
  | cancelJoinRequest groupId userId =>
      exact follows_map (cancelJoinRequest_law groupId userId)

abbrev SocialConfig (ι : Type) := Config ι SocialDb SocialEvent Failure Unit

variable {ι : Type}

/-- Every call is about to begin. -/
def begin (s : SocialDb) (calls : ι → SocialCall) : SocialConfig ι :=
  ⟨s, fun i => (calls i).prog, []⟩

variable [DecidableEq ι]

/-- Every call follows its law, and what it has read of groups and memberships
is still there, only the status and the role of a membership may have changed,
and nobody has become an owner. -/
structure Known (calls : ι → SocialCall) (c : SocialConfig ι) : Prop where
  law : ∀ j, (c.calls j).Follows (CallLaw (calls j).rules) (fun _ _ => True) (c.reported j)
  found : ∀ j g, .found g ∈ c.reported j → g ∈ c.store.groups.rows
  seen : ∀ j r, Seen (c.reported j) r → ∃ m ∈ c.store.members.rows, m.id = r.id ∧
    m.groupId = r.groupId ∧ (m.role = .owner → r.role = .owner)

omit [DecidableEq ι] in
/-- A membership keeps its identity, and never gains the ownership. -/
theorem member_persists {rules : MembershipRules} {past : List SocialEvent} {s t : SocialDb}
    {es : List SocialEvent} (law : CallLaw rules past s t es) {m : GroupMember}
    (hm : m ∈ s.members.rows) : ∃ m' ∈ t.members.rows, m'.id = m.id ∧ m'.groupId = m.groupId ∧
      m'.userId = m.userId ∧ (m'.role = .owner → m.role = .owner) ∧
        (m' = m ∨ .wrote m m' ∈ es) := by
  obtain ⟨m', hm', hid, hsame⟩ := law.accounted.kept m hm
  rcases hsame with rfl | hwrote
  · exact ⟨m', hm', rfl, rfl, rfl, id, .inl rfl⟩
  · obtain ⟨-, -, data, rfl⟩ := law.accounted.wrote m m' hwrote
    refine ⟨_, hm', rfl, rfl, rfl, fun howner => ?_, .inr hwrote⟩
    rcases (law.justified m _ hwrote).role with hrole | hrole
    · rwa [← hrole]
    · rw [hrole] at howner
      cases howner

theorem known_begin (s : SocialDb) (calls : ι → SocialCall) : Known calls (begin s calls) where
  law j := prog_law (calls j)
  found j g h := by simp [begin, Config.reported] at h
  seen j r h := by
    obtain ⟨rows, hrows, -⟩ := h
    simp [begin, Config.reported] at hrows

/-- What the events of one step add to what a call knows. -/
theorem mem_reported_advance {c : SocialConfig ι} {i j : ι} {e : SocialEvent}
    (h : e ∈ (c.advance i).reported j) : e ∈ c.reported j ∨ i = j ∧ e ∈ c.upcoming i := by
  rw [c.reported_advance i j, List.mem_append] at h
  refine h.imp_right fun h => ?_
  split at h
  · rename_i hij
    exact ⟨hij, h⟩
  · cases h

theorem seen_advance {c : SocialConfig ι} {i j : ι} {r : GroupMember}
    (h : Seen ((c.advance i).reported j) r) : Seen (c.reported j) r ∨
      i = j ∧ ∃ rows, .saw rows ∈ c.upcoming i ∧ r ∈ rows := by
  obtain ⟨rows, hrows, hr⟩ := h
  rcases mem_reported_advance hrows with hold | ⟨hij, hnew⟩
  · exact .inl ⟨rows, hold, hr⟩
  · exact .inr ⟨hij, rows, hnew, hr⟩

/-- The specification of a step. -/
theorem law_advance {calls : ι → SocialCall} {c : SocialConfig ι} (h : Known calls c) (i : ι) :
    CallLaw (calls i).rules (c.reported i) c.store (c.advance i).store (c.upcoming i) ∧
      Known calls (c.advance i) := by
  obtain ⟨law, hfollows⟩ := Config.follows_advance (fun j past s => CallLaw.refl (calls j).rules past s) h.law i
  refine ⟨law, hfollows, fun j g hg => ?_, fun j r hr => ?_⟩
  · rcases mem_reported_advance hg with hold | ⟨-, hnew⟩
    · exact law.accounted.groups g (h.found j g hold)
    · exact law.accounted.groups g (law.accounted.found g hnew)
  · rcases seen_advance hr with hold | ⟨-, rows, hrows, hmem⟩
    · obtain ⟨m, hm, hid, hgroup, hrole⟩ := h.seen j r hold
      obtain ⟨m', hm', hid', hgroup', -, hrole', -⟩ := member_persists law hm
      exact ⟨m', hm', hid'.trans hid, hgroup'.trans hgroup, fun howner => hrole (hrole' howner)⟩
    · obtain ⟨m', hm', hid', hgroup', -, hrole', -⟩ :=
        member_persists law (law.accounted.saw rows hrows r hmem)
      exact ⟨m', hm', hid', hgroup', hrole'⟩

/-! ## A small database -/

def aUser (id : Id) : User where
  id := id
  username := id
  displayName := id

def aPlace : Place where
  id := "p1"
  name := "Café"
  address := "San Martín 100"
  city := "Rosario"

def anaBetoAndCaro : Table User := ⟨[aUser "ana", aUser "beto", aUser "caro"], by decide⟩

/-- Ana, Beto and Caro, and a place to meet. -/
def threeUsers : SocialDb :=
  .ofUsers anaBetoAndCaro .empty .empty .empty (.singleton aPlace)

/-- A call that generates the given ids, for input that is in upper case already. -/
def anEnv (groupId : Id) (ids : List Id) : SocialEnv where
  now := 0
  groupId := groupId
  eventId := groupId
  memberId k := ids.getD k ""
  settingsId k := ids.getD k ""
  upperCase := id

/-- A public plan of Ana's. -/
def aPublicPlan (inviteCode : String) (date : Date) : CreatePlanInput where
  createdById := "ana"
  date := date
  inviteCode := inviteCode
  name := "Merienda"
  placeId := "p1"

end Feca.Social
