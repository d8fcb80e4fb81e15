import Mathlib.Data.Fintype.EquivFin
import Feca.Plans.Rollback
import Feca.Plans.Reads

/-! # Joining a plan that is not public

A user who has no membership in a plan, and sends nothing but requests of their
own: looking at plans, joining and leaving them, answering events, reading and
writing messages. Joining reads the join policy and never the visibility, so
what keeps the user out of the plan is its policy alone.
-/

namespace Feca.Social

open Concurrency Concurrency.Prog Relational

variable {α β : Type} {s t : SocialDb}

/-- A request of a user to the plans service. -/
inductive PlanRequest
  | get (env : PlansEnv) (groupId : Id)
  | join (env : PlansEnv) (groupId : Id)
  | leave (groupId : Id)
  | cancelJoinRequest (groupId : Id)
  | setRsvp (env : PlansEnv) (groupId eventId : Id) (rsvp : RsvpInput)
  | listMessages (env : PlansEnv) (groupId : Id) (query : ListPlanMessagesQuery)
  | sendMessage (env : PlansEnv) (groupId : Id) (body : String)
  | deleteMessage (env : PlansEnv) (groupId messageId : Id)

def PlanRequest.prog (userId : Id) : PlanRequest → SocialProg Unit
  | .get env groupId => (fun _ => ()) <$> PlansService.get env userId groupId
  | .join env groupId => (fun _ => ()) <$> PlansService.join env userId groupId
  | .leave groupId => PlansService.leave userId groupId
  | .cancelJoinRequest groupId => PlansService.cancelJoinRequest userId groupId
  | .setRsvp env groupId eventId rsvp =>
      (fun _ => ()) <$> PlansService.setRsvp env userId groupId eventId rsvp
  | .listMessages env groupId query =>
      (fun _ => ()) <$> PlansService.listMessages env userId groupId query
  | .sendMessage env groupId body =>
      (fun _ => ()) <$> PlansService.sendMessage env userId groupId body
  | .deleteMessage env groupId messageId => PlansService.deleteMessage env userId groupId messageId

/-! ## Requests that leave memberships alone -/

/-- No statement writes a group or a membership. -/
abbrev Idle (p : SocialProg α) : Prop := p.Always fun s t _ => Untouched s t

theorem ReadsOnly.idle {p : SocialProg α} (hp : ReadsOnly p) : Idle p :=
  hp.mono fun s _ _ hst => hst ▸ .refl s

theorem Idle.run {p : SocialProg α} (hp : Idle p) (s : SocialDb) : Untouched s (p.run s).store :=
  Always.run (P := fun s t _ => Untouched s t) hp (fun s => .refl s)
    (fun _ _ _ _ _ hst htu => hst.trans htu) s

theorem idle_writeRsvp (env : PlansEnv) (eventId userId : Id) (rsvp : RsvpInput) :
    Idle (writeRsvp env eventId userId rsvp) := by
  cases rsvp with
  | none => exact always_stmt fun s => ⟨rfl, rfl⟩
  | some rsvp =>
      refine always_stmt fun s => ?_
      cases h : s.upsertRsvp
          { id := env.rsvpId, eventId, userId, rsvp, createdAt := env.now } with
      | error e => exact .refl s
      | ok t =>
          unfold SocialDb.upsertRsvp at h
          dsimp only at h
          split at h
          · cases h
            exact ⟨rfl, rfl⟩
          · split at h
            · split at h
              · cases h
              · cases h
                exact ⟨rfl, rfl⟩
            · cases h

theorem idle_setGroupEventRsvp (env : PlansEnv) (eventId userId : Id) (rsvp : RsvpInput) :
    Idle (setGroupEventRsvp env eventId userId rsvp) := by
  refine always_bind (reads_query _).idle fun previousRsvp => ?_
  dsimp only
  split
  · apply always_bind (idle_writeRsvp _ _ _ _)
    intro _
    apply always_bind (reads_query _).idle
    intro event
    cases event with
    | none => trivial
    | some event => exact always_bind (reads_query _).idle fun _ => trivial
  · apply always_bind (reads_query _).idle
    intro event
    cases event with
    | none => trivial
    | some event => exact always_bind (reads_query _).idle fun _ => trivial

theorem idle_answerEvent (env : PlansEnv) (userId eventId : Id) (event : EventWithRelations)
    (rsvp : RsvpInput) : Idle (answerEvent env userId eventId event rsvp) := by
  refine always_bind (idle_setGroupEventRsvp _ _ _ _) fun updated => ?_
  cases updated with
  | none => trivial
  | some updated =>
      dsimp only
      split
      · exact always_bind (reads_publish _).idle fun _ => trivial
      · trivial

theorem idle_setGroupEventRsvp_service (env : PlansEnv) (userId groupId eventId : Id)
    (rsvp : RsvpInput) :
    Idle (SocialGroupEventsService.setGroupEventRsvp env userId groupId eventId rsvp) := by
  apply always_bind (reads_query _).idle
  intro group
  cases group with
  | none => trivial
  | some group =>
      apply always_bind (reads_assertGroupAccess _ _).idle
      intro _
      apply always_bind (reads_query _).idle
      intro event
      cases event with
      | none => trivial
      | some event =>
          dsimp only
          split
          · trivial
          · exact idle_answerEvent _ _ _ _ _

theorem idle_setRsvp (env : PlansEnv) (userId groupId eventId : Id) (rsvp : RsvpInput) :
    Idle (PlansService.setRsvp env userId groupId eventId rsvp) :=
  always_bind (reads_assertAccepted _ _).idle fun _ =>
    always_bind (idle_setGroupEventRsvp_service _ _ _ _ _) fun _ => (reads_get _ _ _).idle

theorem idle_createMessage (message : GroupMessage) : Idle (createMessage message) := by
  refine always_stmt fun s => ?_
  cases h : s.insertMessage message with
  | error e => exact .refl s
  | ok t =>
      have hsame : Untouched s t := by
        unfold SocialDb.insertMessage at h
        split at h
        · split at h
          · cases h
          · cases h
            exact ⟨rfl, rfl⟩
        · cases h
      dsimp only
      split
      · exact hsame
      · exact .refl s

theorem idle_sendMessage (env : PlansEnv) (userId groupId : Id) (body : String) :
    Idle (PlansService.sendMessage env userId groupId body) :=
  always_bind (reads_assertAccepted _ _).idle fun _ => always_bind (idle_createMessage _) fun _ =>
    always_bind (reads_query _).idle fun _ => always_bind (reads_requirePlan _).idle fun _ =>
      always_bind (reads_publish _).idle fun _ => trivial

theorem idle_deleteMessage (env : PlansEnv) (userId groupId messageId : Id) :
    Idle (PlansService.deleteMessage env userId groupId messageId) := by
  refine always_bind (reads_requirePlan _).idle fun plan => always_bind (reads_assertAdmin _ _).idle fun _ =>
    always_bind (always_stmt fun s => ⟨rfl, rfl⟩) fun count => ?_
  split <;> trivial

/-! ## The user stays outside -/

/-- Whatever membership the user has in `g` is a request, or one they gave up;
and memberships keep their group and their user. -/
def outsideContract (g : Group) (userId : Id) : Contract SocialDb where
  inv s := g ∈ s.groups.rows ∧ ∀ m ∈ s.members.rows, m.groupId = g.id → m.userId = userId →
    m.status = .requested ∨ m.status = .left
  guar s t := ∀ m ∈ s.members.rows, ∃ m' ∈ t.members.rows, m'.id = m.id ∧
    m'.groupId = m.groupId ∧ m'.userId = m.userId
  refl _ m hm := ⟨m, hm, rfl, rfl, rfl⟩
  trans hst htu m hm := by
    obtain ⟨m', hm', hid, hgroup, huser⟩ := hst m hm
    obtain ⟨m'', hm'', hid', hgroup', huser'⟩ := htu m' hm'
    exact ⟨m'', hm'', hid'.trans hid, hgroup'.trans hgroup, huser'.trans huser⟩

section outside

variable {g : Group} {userId : Id}

theorem Idle.meets {p : SocialProg α} (hp : Idle p) :
    p.Meets (outsideContract g userId) (fun _ _ => True) s := by
  refine Always.meets (hp.mono fun s t _ h hinv => ?_)
  refine ⟨⟨?_, ?_⟩, fun m hm => ⟨m, h.2 ▸ hm, rfl, rfl, rfl⟩⟩
  · rw [h.1]
    exact hinv.1
  · rw [h.2]
    exact hinv.2

/-- An update keeps the contract if it leaves no membership of the user in `g`
in a better state than a request. -/
theorem outside_setMembers {p : GroupMember → Bool} {data : MemberData}
    (hinv : (outsideContract g userId).inv s)
    (h : ∀ m ∈ s.members.rows, p m = true → m.groupId = g.id → m.userId = userId →
      data.status = .requested ∨ data.status = .left) :
    (outsideContract g userId).inv (s.setMembers p data) ∧
      (outsideContract g userId).guar s (s.setMembers p data) := by
  refine ⟨⟨hinv.1, fun m' hm' hgroup huser => ?_⟩, fun m hm => ⟨_, List.mem_map_of_mem hm, ?_⟩⟩
  · obtain ⟨m, hm, rfl⟩ := List.mem_map.mp hm'
    by_cases hp : p m = true
    · rw [if_pos hp] at hgroup huser ⊢
      exact h m hm hp hgroup huser
    · rw [if_neg hp] at hgroup huser ⊢
      exact hinv.2 m hm hgroup huser
  · split
    · exact ⟨rfl, rfl, rfl⟩
    · exact ⟨rfl, rfl, rfl⟩

/-- The membership a request of the user has read. -/
def Read (g : Group) (groupId : Id) (membership : Option GroupMember) (t : SocialDb) :
    Prop :=
  ∀ m, membership = some m → m ∈ t.members.rows ∧ m.groupId = groupId ∧
    (groupId = g.id → m.status = .requested ∨ m.status = .left)

theorem meets_findOwn (groupId : Id) : (findMembership groupId userId).Meets
    (outsideContract g userId) (Read g groupId) s := by
  refine meets_stmt fun t _ hinv => ⟨hinv, (outsideContract g userId).refl t, ?_⟩
  rintro membership hread m rfl
  obtain ⟨hm, hgroup, huser⟩ := SocialDb.findMembership_some (Except.ok.inj hread)
  exact ⟨hm, hgroup, fun hid => hinv.2 m hm (hgroup.trans hid) huser⟩

/-- The user's own membership is written by id, and the id is still its. -/
theorem meets_updateOwn {m : GroupMember} {groupId : Id} {data : MemberData}
    (hm : m ∈ s.members.rows) (hgroup : m.groupId = groupId)
    (h : groupId = g.id → data.status = .requested ∨ data.status = .left) :
    (updateMember m.id data).Meets (outsideContract g userId) (fun _ _ => True) s := by
  have hwrite : ∀ t, (outsideContract g userId).guar s t → (outsideContract g userId).inv t →
      (outsideContract g userId).inv (t.setMembers (·.id == m.id) data) ∧
        (outsideContract g userId).guar t (t.setMembers (·.id == m.id) data) := by
    refine fun t hst hinv => outside_setMembers hinv fun x hx hid hxgroup _ => h ?_
    obtain ⟨m', hm', hid', hgroup', -⟩ := hst m hm
    have hxid : x.id = m.id := by simpa using hid
    rw [t.member_unique hx hm' (hxid.trans hid'.symm)] at hxgroup
    rw [← hgroup, ← hgroup', hxgroup]
  refine meets_stmt fun t hst hinv => ?_
  split
  · exact ⟨hinv, (outsideContract g userId).refl t, fun _ _ => trivial⟩
  · exact ⟨(hwrite t hst hinv).1, (hwrite t hst hinv).2, fun _ _ => trivial⟩

theorem meets_createOwn {m : GroupMember}
    (h : m.groupId = g.id → m.status = .requested ∨ m.status = .left) :
    (createMember m).Meets (outsideContract g userId) (fun _ _ => True) s := by
  refine meets_stmt fun t _ hinv => ?_
  cases hinsert : t.insertMember m with
  | error e => exact ⟨hinv, (outsideContract g userId).refl t, fun _ _ => trivial⟩
  | ok u =>
      obtain ⟨-, hgroups, hrows⟩ := SocialDb.insertMember_ok hinsert
      refine ⟨⟨hgroups ▸ hinv.1, fun x hx hgroup huser => ?_⟩, fun x hx => ?_, fun _ _ => trivial⟩
      · rw [hrows, List.mem_append, List.mem_singleton] at hx
        rcases hx with hx | rfl
        · exact hinv.2 x hx hgroup huser
        · exact h hgroup
      · refine ⟨x, ?_, rfl, rfl, rfl⟩
        rw [hrows]
        exact List.mem_append_left _ hx

/-! ## Joining -/

/-- Under a policy other than open, nobody becomes more than a requester. -/
theorem joinStatus_of_closed {policy : GroupJoinPolicy} (h : policy ≠ .«open») :
    joinStatus policy = .requested := if_neg h

theorem meets_enterPlan {env : SocialEnv} {group : Group} {existing : Option GroupMember}
    (hgroup : group.id = g.id → group.joinPolicy ≠ .«open»)
    (hread : Read g group.id existing s) :
    (enterPlan env group userId existing).Meets (outsideContract g userId)
      (fun _ _ => True) s := by
  have hstatus : group.id = g.id →
      joinStatus group.joinPolicy = .requested ∨ joinStatus group.joinPolicy = .left :=
    fun hid => .inl (joinStatus_of_closed (hgroup hid))
  cases existing with
  | none => exact meets_bind (meets_createOwn hstatus) fun _ _ _ _ => trivial
  | some m =>
      obtain ⟨hm, hid, -⟩ := hread m rfl
      exact meets_bind (meets_updateOwn hm hid hstatus) fun _ _ _ _ => trivial

theorem meets_decideJoin {env : SocialEnv} {group : Group} {existing : Option GroupMember}
    (hgroup : group.id = g.id → group.joinPolicy ≠ .«open»)
    (hread : Read g group.id existing s) :
    (decideJoin env group userId existing).Meets (outsideContract g userId)
      (fun _ _ => True) s := by
  unfold decideJoin
  cases existing with
  | none =>
      dsimp only
      split
      · trivial
      · exact meets_enterPlan hgroup hread
  | some m =>
      obtain ⟨hm, hid, hstatus⟩ := hread m rfl
      dsimp only
      split
      · trivial
      · split
        · -- Only somebody invited is accepted here, and the user is not.
          rename_i hinvited
          refine meets_bind (meets_updateOwn hm hid fun hsame => ?_) fun _ _ _ _ => trivial
          rcases hstatus hsame with hrequested | hleft
          · rw [hinvited.1] at hrequested
            cases hrequested
          · rw [hinvited.1] at hleft
            cases hleft
        · split
          · trivial
          · split
            · trivial
            · exact meets_enterPlan hgroup hread

theorem meets_join (env : PlansEnv) (groupId : Id) (hpolicy : g.joinPolicy ≠ .«open») :
    (PlansService.join env userId groupId).Meets (outsideContract g userId)
      (fun _ _ => True) s := by
  have hselect : ∀ s : SocialDb, (selectGroup (·.findGroup groupId)).Meets
      (outsideContract g userId) (fun r _ => ∀ group, r = some group → group.id = groupId ∧
        (group.id = g.id → group.joinPolicy ≠ .«open»)) s := by
    refine fun s => meets_stmt fun t _ hinv => ⟨hinv, (outsideContract g userId).refl t, ?_⟩
    rintro r hr group rfl
    obtain ⟨hstored, hid⟩ := SocialDb.findGroup_some (Except.ok.inj hr)
    refine ⟨hid, fun hsame => ?_⟩
    rw [t.group_unique hstored hinv.1 hsame]
    exact hpolicy
  refine meets_bind (reads_requirePlan _).idle.meets fun plan s _ _ => ?_
  have hjoin : (joinPlan env.toSocialEnv groupId userId).Meets (outsideContract g userId)
      (fun _ _ => True) s := by
    refine meets_bind (hselect s) fun r s _ hgroup => ?_
    cases r with
    | none => trivial
    | some group =>
        obtain ⟨rfl, hopen⟩ := hgroup group rfl
        exact meets_bind (meets_findOwn _) fun existing _ _ hread =>
          meets_bind (meets_decideJoin hopen hread) fun _ _ _ _ => trivial
  refine meets_bind hjoin fun r s _ _ => ?_
  cases r with
  | none => trivial
  | some result =>
      dsimp only
      split
      · trivial
      · exact meets_bind (reads_announceJoin _ _ _ _).idle.meets fun _ _ _ _ => (reads_get _ _ _).idle.meets

/-! ## Leaving -/

theorem meets_leave (groupId : Id) : (PlansService.leave userId groupId).Meets
    (outsideContract g userId) (fun _ _ => True) s := by
  refine meets_bind (reads_requirePlan _).idle.meets fun _ s _ _ => ?_
  have hleave : (leavePlan groupId userId).Meets (outsideContract g userId) (fun _ _ => True) s := by
    refine meets_bind (meets_findOwn groupId) fun membership s _ hread => ?_
    cases membership with
    | none => trivial
    | some m =>
        obtain ⟨hm, hid, -⟩ := hread m rfl
        dsimp only
        split
        · trivial
        · split
          · trivial
          · exact meets_bind (meets_updateOwn hm hid fun _ => .inr rfl) fun _ _ _ _ => trivial
  refine meets_bind hleave fun r _ _ _ => ?_
  cases r with
  | none => trivial
  | some r => cases r <;> trivial

theorem meets_cancelJoinRequest (groupId : Id) :
    (PlansService.cancelJoinRequest userId groupId).Meets (outsideContract g userId)
      (fun _ _ => True) s := by
  refine meets_bind (reads_requirePlan _).idle.meets fun _ s _ _ => ?_
  have hcancel : (Social.cancelJoinRequest groupId userId).Meets (outsideContract g userId)
      (fun _ _ => True) s := by
    refine meets_stmt fun t _ hinv => ?_
    rw [← and_assoc]
    exact ⟨outside_setMembers hinv fun _ _ _ _ _ => .inr rfl, fun _ _ => trivial⟩
  refine meets_bind hcancel fun count _ _ _ => ?_
  split <;> trivial

theorem meets_request (hpolicy : g.joinPolicy ≠ .«open») (request : PlanRequest) :
    (request.prog userId).Meets (outsideContract g userId) (fun _ _ => True) s := by
  cases request with
  | get env groupId => exact Idle.meets (always_map _ (reads_get _ _ _).idle)
  | join env groupId => exact meets_bind (meets_join _ _ hpolicy) fun _ _ _ _ => trivial
  | leave groupId => exact meets_leave groupId
  | cancelJoinRequest groupId => exact meets_cancelJoinRequest groupId
  | setRsvp env groupId eventId rsvp => exact Idle.meets (always_map _ (idle_setRsvp _ _ _ _ _))
  | listMessages env groupId query => exact Idle.meets (always_map _ (reads_listMessages _ _ _ _).idle)
  | sendMessage env groupId body => exact Idle.meets (always_map _ (idle_sendMessage _ _ _ _))
  | deleteMessage env groupId messageId => exact (idle_deleteMessage _ _ _ _).meets

end outside

/-! ## Everything the user can do -/

/-- The user's requests are about to begin. -/
def beginRequests (s : SocialDb) (userId : Id) (requests : Nat → PlanRequest) : SocialConfig Nat :=
  ⟨s, fun i => (requests i).prog userId, []⟩

/-- Whatever the user requests, and however the requests interleave, the user is
not an accepted member of the group afterwards. -/
def StaysOutside (s : SocialDb) (g : Group) (userId : Id) : Prop :=
  ∀ (requests : Nat → PlanRequest) (schedule : List Nat),
    ∀ m ∈ ((beginRequests s userId requests).run schedule).store.members.rows,
      m.groupId = g.id → m.userId = userId → m.status ≠ .accepted

theorem staysOutside_of_closed {g : Group} {userId : Id} (hg : g ∈ s.groups.rows)
    (hnone : s.findMembership g.id userId = none) (hpolicy : g.joinPolicy ≠ .«open») :
    StaysOutside s g userId := by
  intro requests schedule m hm hgroup huser haccepted
  have hinv : (outsideContract g userId).inv s :=
    ⟨hg, fun x hx hgroup huser => absurd huser (SocialDb.findMembership_none hnone x hx hgroup)⟩
  obtain ⟨⟨-, hend⟩, -⟩ := Config.contract_run (c := beginRequests s userId requests)
    (K := outsideContract g userId) hinv (fun j => meets_request hpolicy (requests j)) schedule
  rcases hend m hm hgroup huser with h | h
  · rw [haccepted] at h
    cases h
  · rw [haccepted] at h
    cases h

/-! ## An open plan lets everybody in -/

/-- There is an id nobody has. -/
theorem exists_newId (s : SocialDb) : ∃ id : Id, ∀ m ∈ s.members.rows, m.id ≠ id := by
  obtain ⟨id, hid⟩ := Infinite.exists_notMem_finset (s.members.rows.map (·.id)).toFinset
  refine ⟨id, fun m hm heq => hid ?_⟩
  rw [List.mem_toFinset]
  exact List.mem_map.mpr ⟨m, hm, heq⟩

/-- The first request of a user to an open plan. -/
theorem joinPlan_open {env : SocialEnv} {g : Group} {userId : Id} (hg : g ∈ s.groups.rows)
    (hnone : s.findMembership g.id userId = none) (hopen : g.joinPolicy = .«open»)
    (hinsert : s.insertMember (newMember env g.id .accepted none 0 userId) = .ok t) :
    ∃ r, ((joinPlan env g.id userId).run s).result = .ok (some r) ∧ r.kind = .accepted ∧
      ((joinPlan env g.id userId).run s).store = t := by
  have hcreate : (createMember (newMember env g.id .accepted none 0 userId)).run s =
      ⟨t, [.created (newMember env g.id .accepted none 0 userId)],
        .ok (newMember env g.id .accepted none 0 userId)⟩ := by
    simp [createMember, hinsert]
  unfold joinPlan
  rw [run_bind_ok (p := selectGroup _) rfl]
  simp only [selectGroup, run_stmt, SocialDb.findGroup_of_mem hg]
  rw [run_bind_ok (p := findMembership _ _) rfl]
  simp only [findMembership, run_stmt, hnone, run_map]
  unfold decideJoin enterPlan
  simp only [hopen, joinStatus, joinKind, if_true, reduceCtorEq, if_false]
  rw [run_bind_ok (congrArg Answer.result hcreate), hcreate]
  exact ⟨_, rfl, rfl, rfl⟩

theorem join_open {env : PlansEnv} {g : Group} {userId : Id} (hg : g ∈ s.groups.rows)
    (huser : s.hasUser userId = true) (hnone : s.findMembership g.id userId = none)
    (hnew : ∀ m ∈ s.members.rows, m.id ≠ env.memberId 0) (hopen : g.joinPolicy = .«open») :
    newMember env.toSocialEnv g.id .accepted none 0 userId ∈
      ((PlansService.join env userId g.id).run s).store.members.rows := by
  have hfree : ∀ x ∈ s.members.rows,
      conflicts x (newMember env.toSocialEnv g.id .accepted none 0 userId) = false := by
    intro x hx
    have hother := SocialDb.findMembership_none hnone x hx
    simp only [conflicts, newMember, Bool.or_eq_false_iff, Bool.and_eq_false_iff,
      beq_eq_false_iff_ne]
    exact ⟨hnew x hx, or_iff_not_imp_left.mpr fun hgroup => hother (not_not.mp hgroup)⟩
  obtain ⟨t, hinsert⟩ := SocialDb.insertMember_isOk
    (m := newMember env.toSocialEnv g.id .accepted none 0 userId)
    (List.any_eq_true.mpr ⟨g, hg, by simp [newMember]⟩) huser rfl hfree
  obtain ⟨-, -, hrows⟩ := SocialDb.insertMember_ok hinsert
  obtain ⟨r, hr, hkind, hstore⟩ := joinPlan_open hg hnone hopen hinsert
  obtain ⟨plan, hplan⟩ := Option.isSome_iff_exists.mp (SocialDb.findPlanById_isSome hg)
  have hrun := requirePlan_some hplan
  have hrest : Idle (do
      announceJoin userId g.id plan.name r
      PlansService.get env userId g.id : SocialProg PlanView) :=
    always_bind (reads_announceJoin _ _ _ _).idle fun _ => (reads_get _ _ _).idle
  unfold PlansService.join
  rw [run_bind_ok (congrArg Answer.result hrun), hrun, run_bind_ok hr, hstore]
  dsimp only
  rw [if_neg (by rw [hkind]; simp), (hrest.run t).2, hrows]
  exact List.mem_append_right _ List.mem_cons_self

/-- A codec for requests that read and write no cursor. -/
def aCodec : CursorCodec where
  toISOString _ := ""
  parseDate _ := none
  stringify _ _ := ""
  parse _ := none
  toBase64url := id
  fromBase64url := id

def aPlansEnv (memberId : Id) : PlansEnv where
  toSocialEnv := anEnv "" [memberId]
  codec := aCodec
  rsvpId := ""
  messageId := ""

/-- A user without a membership stays outside, whatever they send, exactly when
the plan is not open to join; its visibility has no part in it. -/
theorem stays_outside_iff_closed (s : SocialDb) (g : Group) (userId : Id)
    (hg : g ∈ s.groups.rows) (huser : s.hasUser userId = true)
    (hnone : s.findMembership g.id userId = none) :
    StaysOutside s g userId ↔ g.joinPolicy ≠ .«open» := by
  refine ⟨fun hout hopen => ?_, staysOutside_of_closed hg hnone⟩
  obtain ⟨id, hid⟩ := exists_newId s
  have hjoined : newMember (aPlansEnv id).toSocialEnv g.id .accepted none 0 userId ∈
      ((PlansService.join (aPlansEnv id) userId g.id).run s).store.members.rows :=
    join_open hg huser hnone hid hopen
  obtain ⟨n, hn⟩ := Config.run_alone
    (beginRequests s userId fun _ => .join (aPlansEnv id) g.id) 0
  refine hout (fun _ => .join (aPlansEnv id) g.id) (List.replicate n 0)
    (newMember (aPlansEnv id).toSocialEnv g.id .accepted none 0 userId) ?_ rfl rfl rfl
  rw [hn]
  show _ ∈ (((fun _ => ()) <$> PlansService.join (aPlansEnv id) userId g.id).run s).store.members.rows
  rw [run_map]
  exact hjoined

/-! ## A private plan that is open -/

/-- Ana creates a private plan under a join policy. -/
def privatePlan (policy : GroupJoinPolicy) : SocialDb :=
  ((SocialCall.createPlan (anEnv "g1" ["m1"])
    { createdById := "ana", date := 10, inviteCode := "C0DE", name := "Cena", placeId := "p1",
      joinPolicy := some policy, visibility := some .«private» }).prog.run threeUsers).store

/-- The row of her plan. -/
def anasPrivatePlan (policy : GroupJoinPolicy) : Group where
  id := "g1"
  name := "Cena"
  createdById := "ana"
  inviteCode := "C0DE"
  visibility := .«private»
  joinPolicy := policy
  createdAt := 0

theorem stranger_joins_private_plan :
    anasPrivatePlan .«open» ∈ (privatePlan .«open»).groups.rows ∧
      (anasPrivatePlan .«open»).visibility = .«private» ∧
      (privatePlan .«open»).findMembership "g1" "beto" = none ∧
        ¬ StaysOutside (privatePlan .«open») (anasPrivatePlan .«open») "beto" := by
  refine ⟨by decide, rfl, by decide, fun hout => ?_⟩
  have hjoined : newMember (anEnv "" ["m2"]) "g1" .accepted none 0 "beto" ∈
      ((beginRequests (privatePlan .«open») "beto" fun _ => .join (aPlansEnv "m2") "g1").run
        [0, 0, 0, 0]).store.members.rows := by decide
  exact hout _ _ _ hjoined rfl rfl rfl

theorem stranger_stays_outside_by_approval :
    StaysOutside (privatePlan .requestApproval) (anasPrivatePlan .requestApproval) "beto" :=
  (stays_outside_iff_closed (privatePlan .requestApproval) (anasPrivatePlan .requestApproval) "beto"
    (by decide) (by decide) (by decide)).mpr (by decide)

end Feca.Social
