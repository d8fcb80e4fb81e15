import Feca.Social.Rollback

/-! # Failed joins

`PlansService.join` ends by presenting the plan to the caller, after the
repository has written. Only a request to join a plan that is not public is
refused there; with the group writes this settles which requests fail without
a trace.
-/

namespace Feca.Social

open Concurrency Concurrency.Prog Relational

variable {s t : SocialDb}

/-! ## The repository's answer -/

/-- The plan takes a request where the caller has neither asked nor been let in. -/
def asksApproval (g : Group) (existing : Option GroupMember) : Prop :=
  g.joinPolicy = .requestApproval ∧ existing.map (·.status) ≠ some .accepted ∧
    existing.map (·.status) ≠ some .requested

instance (g : Group) (existing : Option GroupMember) : Decidable (asksApproval g existing) := by
  unfold asksApproval
  infer_instance

/-- How a join leaves the store: untouched, with the caller let in, or with a
new request. -/
inductive JoinEnds (g : Group) (userId : Id) (s u : SocialDb) (r : JoinResult) : Prop
  | unchanged (untouched : Untouched s u)
      (asks : ¬ asksApproval g (s.findMembership g.id userId))
  | admitted (kind : r.kind ≠ .denied) (m : GroupMember) (status : m.status = .accepted)
      (shown : u.findMembership g.id userId = some m)
      (asks : ¬ asksApproval g (s.findMembership g.id userId))
  | requested (kind : r.kind ≠ .denied) (m : GroupMember) (status : m.status = .requested)
      (shown : u.findMembership g.id userId = some m) (touched : ¬ Untouched s u)
      (asks : asksApproval g (s.findMembership g.id userId))

/-- The write of `joinPlan`, for somebody it makes a difference to. -/
theorem enterPlan_run {env : SocialEnv} {g : Group} {userId : Id} {existing : Option GroupMember}
    {r : JoinResult} (hread : s.findMembership g.id userId = existing)
    (hstatus : existing.map (·.status) ≠ some (joinStatus g.joinPolicy))
    (h : ((enterPlan env g userId existing).run s).result = .ok r) :
    r.kind = joinKind g.joinPolicy ∧ ∃ m, m.status = joinStatus g.joinPolicy ∧
      ((enterPlan env g userId existing).run s).store.findMembership g.id userId = some m ∧
        ¬ Untouched s ((enterPlan env g userId existing).run s).store := by
  cases existing with
  | some m =>
      obtain ⟨hm, hgroup, huser⟩ := SocialDb.findMembership_some hread
      have hrun := updateMember_run hm { status := joinStatus g.joinPolicy, role := some .member }
      have hshown := findMembership_set hm { status := joinStatus g.joinPolicy, role := some .member }
      rw [hgroup, huser] at hshown
      unfold enterPlan at h ⊢
      simp only [run_bind_ok (congrArg Answer.result hrun), hrun, run_pure] at h ⊢
      cases h
      refine ⟨rfl, _, rfl, hshown, ?_⟩
      exact touched_of_mem hm (mem_setMembers hm _) rfl fun hsame => hstatus (congrArg some hsame.symm)
  | none =>
      unfold enterPlan at h ⊢
      cases hinsert : s.insertMember
          (newMember env g.id (joinStatus g.joinPolicy) none 0 userId) with
      | error e =>
          have hrun : ((createMember (newMember env g.id (joinStatus g.joinPolicy) none 0
              userId)).run s).result = .error (.database e) := by
            simp [createMember, hinsert]
          rw [run_bind_error hrun] at h
          cases h
      | ok t =>
          obtain ⟨-, -, hrows⟩ := SocialDb.insertMember_ok hinsert
          have hrun : (createMember (newMember env g.id (joinStatus g.joinPolicy) none 0
              userId)).run s = ⟨t, [.created (newMember env g.id (joinStatus g.joinPolicy) none 0
                userId)], .ok (newMember env g.id (joinStatus g.joinPolicy) none 0 userId)⟩ := by
            simp [createMember, hinsert]
          simp only [run_bind_ok (congrArg Answer.result hrun), hrun, run_pure] at h ⊢
          cases h
          have hshown : newMember env g.id (joinStatus g.joinPolicy) none 0 userId ∈
              t.members.rows := by
            rw [hrows]
            exact List.mem_append_right _ List.mem_cons_self
          refine ⟨rfl, _, rfl, SocialDb.findMembership_of_mem hshown, fun huntouched => ?_⟩
          have hlength := congrArg (fun rows : Table GroupMember => rows.rows.length) huntouched.2
          simp [hrows] at hlength

/-- What the policy makes of it. -/
theorem enterPlan_ends {env : SocialEnv} {g : Group} {userId : Id} {existing : Option GroupMember}
    {r : JoinResult} (hread : s.findMembership g.id userId = existing)
    (hnot : existing.map (·.status) ≠ some .accepted)
    (hasked : existing.map (·.status) = some .requested → g.joinPolicy ≠ .requestApproval)
    (hpolicy : g.joinPolicy ≠ .inviteOnly)
    (h : ((enterPlan env g userId existing).run s).result = .ok r) :
    JoinEnds g userId s ((enterPlan env g userId existing).run s).store r := by
  cases hp : g.joinPolicy with
  | «open» =>
      obtain ⟨hkind, m, hm, hshown, -⟩ := enterPlan_run hread (by rwa [hp]) h
      refine .admitted ?_ m (by rw [hm, hp]; rfl) hshown fun hasks => ?_
      · rw [hkind, hp]
        simp [joinKind]
      · rw [hasks.1] at hp
        cases hp
  | inviteOnly => exact absurd hp hpolicy
  | requestApproval =>
      have hnew : existing.map (·.status) ≠ some .requested := fun hrequested => hasked hrequested hp
      obtain ⟨hkind, m, hm, hshown, htouched⟩ := enterPlan_run hread (by rwa [hp]) h
      refine .requested ?_ m (by rw [hm, hp]; rfl) hshown htouched ⟨hp, ?_, ?_⟩
      · rw [hkind, hp]
        simp [joinKind]
      · rwa [hread]
      · rwa [hread]

theorem decideJoin_ends {env : SocialEnv} {g : Group} {userId : Id} {existing : Option GroupMember}
    (hread : s.findMembership g.id userId = existing) : ∀ {r : JoinResult},
    ((decideJoin env g userId existing).run s).result = .ok r →
      JoinEnds g userId s ((decideJoin env g userId existing).run s).store r := by
  unfold decideJoin
  cases existing with
  | none =>
      dsimp only
      split
      · rename_i hpolicy
        rintro r -
        exact .unchanged (.refl s) fun hasks => nomatch hpolicy.symm.trans hasks.1
      · rename_i hpolicy
        exact fun h => enterPlan_ends hread (by simp) (by simp) hpolicy h
  | some m =>
      have hstatus : (s.findMembership g.id userId).map (·.status) = some m.status := by
        rw [hread]
        rfl
      dsimp only
      split
      · rename_i haccepted
        rintro r -
        exact .unchanged (.refl s) fun hasks => hasks.2.1 (by rw [hstatus, haccepted])
      · rename_i haccepted
        split
        · rename_i hinvited
          obtain ⟨hm, hgroup, huser⟩ := SocialDb.findMembership_some hread
          have hrun := updateMember_run hm { status := .accepted }
          have hshown := findMembership_set hm { status := .accepted }
          rw [hgroup, huser] at hshown
          intro r h
          simp only [run_bind_ok (congrArg Answer.result hrun), hrun, run_pure] at h ⊢
          cases h
          exact .admitted (by simp) _ rfl hshown fun hasks => nomatch hinvited.2.symm.trans hasks.1
        · split
          · rename_i hrequested
            rintro r -
            exact .unchanged (.refl s) fun hasks => hasks.2.2 (by rw [hstatus, hrequested.1])
          · rename_i hrequested
            split
            · rename_i hpolicy
              rintro r -
              exact .unchanged (.refl s) fun hasks => nomatch hpolicy.symm.trans hasks.1
            · rename_i hpolicy
              intro r h
              refine enterPlan_ends hread (by simpa using haccepted) (fun hasked happroval => ?_)
                hpolicy h
              exact hrequested ⟨by simpa using hasked, happroval⟩

theorem keepsGroups_enterPlan (env : SocialEnv) (g : Group) (userId : Id)
    (existing : Option GroupMember) : KeepsGroups (enterPlan env g userId existing) := by
  cases existing with
  | none => exact always_bind (keepsGroups_createMember _) fun _ => trivial
  | some m => exact always_bind (keepsGroups_updateMember _ _) fun _ => trivial

theorem keepsGroups_decideJoin (env : SocialEnv) (g : Group) (userId : Id)
    (existing : Option GroupMember) : KeepsGroups (decideJoin env g userId existing) := by
  unfold decideJoin
  cases existing with
  | none =>
      dsimp only
      split
      · trivial
      · exact keepsGroups_enterPlan _ _ _ _
  | some m =>
      dsimp only
      split
      · trivial
      · split
        · exact always_bind (keepsGroups_updateMember _ _) fun _ => trivial
        · split
          · trivial
          · split
            · trivial
            · exact keepsGroups_enterPlan _ _ _ _

theorem requirePlan_some {groupId : Id} {plan : GroupWithRelations}
    (h : s.findPlanById groupId = some plan) : (requirePlan groupId).run s = ⟨s, [], .ok plan⟩ := by
  unfold requirePlan
  rw [run_bind_ok (p := query _) rfl]
  simp [h]

theorem requirePlan_none {groupId : Id} (h : s.findPlanById groupId = none) :
    (requirePlan groupId).run s = ⟨s, [], .error (.http (NotFoundException "Plan not found"))⟩ := by
  unfold requirePlan
  rw [run_bind_ok (p := query _) rfl]
  simp [h, throwHttp]

/-- `get` refuses a plan that is not public to everybody but its members. -/
theorem failsCleanly_get {env : PlansEnv} {userId groupId : Id} {plan : GroupWithRelations}
    (hplan : t.findPlanById groupId = some plan) :
    FailsCleanly s (PlansService.get env userId groupId) t ↔ (plan.visibility ≠ .«public» →
      (t.findMembership groupId userId).map (·.status) ≠ some .accepted → Untouched s t) := by
  have hrun := requirePlan_some hplan
  refine (failsCleanly_bind (congrArg Answer.result hrun)).trans ?_
  rw [hrun]
  refine failsCleanly_findMembership.trans ?_
  unfold presentPlan
  split
  · rename_i hnone
    refine (failsCleanly_throwHttp _).trans ⟨fun h _ _ => h, fun h => h hnone.1 ?_⟩
    simp [hnone.2]
  · split
    · rename_i hnot
      exact (failsCleanly_throwHttp _).trans ⟨fun h _ _ => h, fun h => h hnot.1 hnot.2⟩
    · rename_i hshown
      refine ⟨fun _ hvisibility hstatus => absurd ⟨hvisibility, hstatus⟩ hshown, fun _ => ?_⟩
      exact failsCleanly_query.mpr (failsCleanly_pure _)

theorem announceJoin_run (userId groupId : Id) (groupName : String) (result : JoinResult) :
    ((announceJoin userId groupId groupName result).run s).result = .ok () ∧
      ((announceJoin userId groupId groupName result).run s).store = s := by
  unfold announceJoin
  split
  · exact ⟨rfl, rfl⟩
  · exact ⟨rfl, rfl⟩

/-- The repository's answer, without its first two reads. -/
theorem joinPlan_run {env : SocialEnv} {groupId userId : Id} {g : Group}
    (hg : s.findGroup groupId = some g) {r : Option JoinResult}
    (h : ((joinPlan env groupId userId).run s).result = .ok r) :
    ∃ result, r = some result ∧
      ((decideJoin env g userId (s.findMembership groupId userId)).run s).result = .ok result ∧
      ((joinPlan env groupId userId).run s).store =
        ((decideJoin env g userId (s.findMembership groupId userId)).run s).store := by
  unfold joinPlan at h ⊢
  rw [run_bind_ok (p := selectGroup _) rfl] at h ⊢
  simp only [selectGroup, run_stmt, hg] at h ⊢
  rw [run_bind_ok (p := findMembership _ _) rfl] at h ⊢
  simp only [findMembership, run_stmt, run_map] at h ⊢
  cases hdecide : ((decideJoin env g userId (s.findMembership groupId userId)).run s).result with
  | error e =>
      rw [hdecide] at h
      cases h
  | ok result =>
      rw [hdecide] at h
      cases h
      exact ⟨result, rfl, rfl, trivial⟩

/-- A plan that is not there is not joined. -/
theorem failsCleanly_join_missing {env : PlansEnv} {userId groupId : Id}
    (hplan : s.findPlanById groupId = none) :
    FailsCleanly s (PlansService.join env userId groupId) s := by
  have hrun := requirePlan_none hplan
  intro e _
  unfold PlansService.join
  rw [run_bind_error (congrArg Answer.result hrun), hrun]
  exact .refl s

/-- Whatever was written of memberships, the plan is presented with the visibility it had. -/
theorem presented_visibility {u : SocialDb} {groupId : Id} {plan : GroupWithRelations}
    (hgroups : u.groups = s.groups) (hplan : s.findPlanById groupId = some plan) :
    ∃ presented, u.findPlanById groupId = some presented ∧
      presented.visibility = plan.visibility := by
  obtain ⟨hstored, hid⟩ := SocialDb.findPlanById_some hplan
  obtain ⟨presented, hpresented⟩ : ∃ presented, u.findPlanById groupId = some presented := by
    refine Option.isSome_iff_exists.mp ?_
    rw [← hid]
    exact SocialDb.findPlanById_isSome (hgroups ▸ hstored)
  obtain ⟨hmem, hid'⟩ := SocialDb.findPlanById_some hpresented
  have hsame := s.group_unique (hgroups ▸ hmem) hstored (hid'.trans hid.symm)
  exact ⟨presented, hpresented, congrArg Group.visibility hsame⟩

/-- Behind the decision, a join that is not denied fails where the plan cannot be shown. -/
theorem failsCleanly_join_decided {env : PlansEnv} {userId groupId : Id}
    {plan : GroupWithRelations} {result : JoinResult}
    (hplan : s.findPlanById groupId = some plan)
    (hr : ((joinPlan env.toSocialEnv groupId userId).run s).result = .ok (some result))
    (hgroups : ((joinPlan env.toSocialEnv groupId userId).run s).store.groups = s.groups)
    (hkind : result.kind ≠ .denied) :
    FailsCleanly s (PlansService.join env userId groupId) s ↔
      (plan.visibility ≠ .«public» →
        (((joinPlan env.toSocialEnv groupId userId).run s).store.findMembership groupId
          userId).map (·.status) ≠ some .accepted →
          Untouched s ((joinPlan env.toSocialEnv groupId userId).run s).store) := by
  have hrun := requirePlan_some hplan
  obtain ⟨presented, hpresented, hvisibility⟩ := presented_visibility hgroups hplan
  set u := ((joinPlan env.toSocialEnv groupId userId).run s).store
  refine (failsCleanly_bind (congrArg Answer.result hrun)).trans ?_
  rw [hrun]
  refine (failsCleanly_bind hr).trans ?_
  dsimp only
  rw [if_neg hkind]
  obtain ⟨hok, hsame⟩ := announceJoin_run (s := u) userId groupId plan.name result
  rw [failsCleanly_bind hok, hsame, failsCleanly_get hpresented, hvisibility]

theorem failsCleanly_join {env : PlansEnv} {userId groupId : Id}
    (h : Answered (PlansService.join env userId groupId) s) :
    FailsCleanly s (PlansService.join env userId groupId) s ↔
      ∀ g, s.findGroup groupId = some g → g.visibility ≠ .«public» →
        ¬ asksApproval g (s.findMembership groupId userId) := by
  cases hplan : s.findPlanById groupId with
  | none =>
      refine ⟨fun _ g hg => ?_, fun _ => failsCleanly_join_missing hplan⟩
      obtain ⟨hstored, rfl⟩ := SocialDb.findGroup_some hg
      rw [← Option.not_isSome_iff_eq_none] at hplan
      exact absurd (SocialDb.findPlanById_isSome hstored) hplan
  | some plan =>
      have hrun := requirePlan_some hplan
      obtain ⟨hstored, hid⟩ := SocialDb.findPlanById_some hplan
      have hg : s.findGroup groupId = some plan.toGroup := hid ▸ SocialDb.findGroup_of_mem hstored
      have hrest := (answered_bind h).2 plan (congrArg Answer.result hrun)
      rw [hrun] at hrest
      obtain ⟨r, hr⟩ := (reports_joinPlan env.toSocialEnv groupId userId).ok (answered_bind hrest).1
      obtain ⟨result, rfl, hresult, hstore⟩ := joinPlan_run hg hr
      have hread : s.findMembership plan.id userId = s.findMembership groupId userId := by rw [hid]
      have hends := decideJoin_ends hread hresult
      have hgroups := (keepsGroups_decideJoin env.toSocialEnv plan.toGroup userId
        (s.findMembership groupId userId)).run s
      rw [← hstore] at hends hgroups
      have hget := failsCleanly_join_decided hplan hr hgroups
      set u := ((joinPlan env.toSocialEnv groupId userId).run s).store
      have hcondition : (∀ g, s.findGroup groupId = some g → g.visibility ≠ .«public» →
          ¬ asksApproval g (s.findMembership groupId userId)) ↔
          (plan.visibility ≠ .«public» →
            ¬ asksApproval plan.toGroup (s.findMembership groupId userId)) := by
        rw [hg]
        exact ⟨fun hall => hall _ rfl, fun hone g hsome => by cases hsome; exact hone⟩
      rw [hcondition, ← hread]
      cases hends with
      | unchanged huntouched hasks =>
          refine ⟨fun _ _ => hasks, fun _ => ?_⟩
          by_cases hkind : result.kind = .denied
          · refine (failsCleanly_bind (congrArg Answer.result hrun)).mpr ?_
            rw [hrun]
            refine (failsCleanly_bind hr).mpr ?_
            dsimp only
            rw [if_pos hkind]
            exact (failsCleanly_throwHttp _).mpr huntouched
          · exact (hget hkind).mpr fun _ _ => huntouched
      | admitted hkind m hstatus hshown hasks =>
          refine ⟨fun _ _ => hasks, fun _ => (hget hkind).mpr fun _ hnot => absurd ?_ hnot⟩
          rw [← hid, hshown, ← hstatus]
          rfl
      | requested hkind m hstatus hshown htouched hasks =>
          rw [hget hkind]
          refine ⟨fun hclean hhidden => absurd (hclean hhidden ?_) htouched,
            fun hnone hhidden => absurd hasks (hnone hhidden)⟩
          rw [← hid, hshown, Option.map_some, hstatus]
          simp

/-! ## Group writes -/

/-- A request that writes groups or memberships. -/
inductive GroupWrite
  | createGroup (env : SocialEnv) (inviteCode : String) (userId : Id) (body : CreateGroupDto)
  | addGroupMembers (env : SocialEnv) (userId groupId : Id) (memberIds : List Id)
  | joinGroupByCode (env : SocialEnv) (userId : Id) (code : String)
  | leaveGroup (userId groupId : Id)
  | joinPlan (env : PlansEnv) (userId groupId : Id)

namespace GroupWrite

def prog : GroupWrite → SocialProg Unit
  | .createGroup env inviteCode userId body =>
      (fun _ => ()) <$> SocialGroupsService.createGroup env inviteCode userId body
  | .addGroupMembers env userId groupId memberIds =>
      (fun _ => ()) <$> SocialGroupsService.addGroupMembers env userId groupId memberIds
  | .joinGroupByCode env userId code =>
      (fun _ => ()) <$> SocialGroupsService.joinGroupByCode env userId code
  | .leaveGroup userId groupId =>
      (fun _ => ()) <$> SocialGroupsService.leaveGroup userId groupId
  | .joinPlan env userId groupId => (fun _ => ()) <$> PlansService.join env userId groupId

/-- The first membership id the request generates is new. -/
def GeneratesNewId (s : SocialDb) : GroupWrite → Prop
  | .addGroupMembers env _ _ _ => ∀ m ∈ s.members.rows, m.id ≠ env.memberId 0
  | _ => True

/-- The request finds nothing that would make it fail after its writes: a policy
that refuses one of its invitations, next to a write it makes all the same, or a
plan that takes its request and does not show itself. -/
def Finishes (s : SocialDb) : GroupWrite → Prop
  | .createGroup _ _ userId body => s.refuses userId body.memberIds = false
  | .addGroupMembers _ userId groupId memberIds =>
      ¬ (s.administers userId groupId = true ∧ s.refuses userId memberIds = true ∧
        s.hasInvitee groupId userId memberIds = true)
  | .joinGroupByCode _ _ _ => True
  | .leaveGroup _ _ => True
  | .joinPlan _ userId groupId => ∀ g, s.findGroup groupId = some g →
      g.visibility ≠ .«public» → ¬ asksApproval g (s.findMembership groupId userId)

end GroupWrite

/-- Requests that the database answers fail without a trace exactly when they
find nothing to fail on after their writes. -/
theorem fails_cleanly_iff_finishes (s : SocialDb) (w : GroupWrite)
    (hanswered : Answered w.prog s) (hid : w.GeneratesNewId s) :
    FailsCleanly s w.prog s ↔ w.Finishes s := by
  cases w with
  | createGroup env inviteCode userId body =>
      exact (failsCleanly_map _).trans (failsCleanly_createGroup (answered_map hanswered))
  | addGroupMembers env userId groupId memberIds =>
      exact (failsCleanly_map _).trans (failsCleanly_addGroupMembers hid (answered_map hanswered))
  | joinGroupByCode env userId code =>
      exact (failsCleanly_map _).trans
        (iff_true_intro (failsCleanly_joinGroupByCode (answered_map hanswered)))
  | leaveGroup userId groupId =>
      exact (failsCleanly_map _).trans
        (iff_true_intro (failsCleanly_leaveGroup (answered_map hanswered)))
  | joinPlan env userId groupId =>
      exact (failsCleanly_map _).trans (failsCleanly_join (answered_map hanswered))

/-! ## A group with a guest who did not agree -/

/-- Ana founds a group with a guest. -/
def groupWith (guest : Id) : GroupWrite :=
  .createGroup (anEnv "g1" ["m1", "m2"]) "C0DE" "ana" { name := "Cena", memberIds := [guest] }

/-- Ana adds Beto to it. -/
def addBeto : GroupWrite := .addGroupMembers (anEnv "g2" ["m3", "m4"]) "ana" "g1" ["beto"]

/-- After Ana has founded a group with Caro. -/
def anasGroup : SocialDb := ((groupWith "caro").prog.run reservedBeto).store

/-- No statement of the run failed. -/
def answeredThroughout (es : List SocialEvent) : Bool :=
  es.all fun e => match e with
    | .threw _ => false
    | _ => true

theorem answered_of_all {w : GroupWrite} (h : answeredThroughout (w.prog.run s).events = true) :
    Answered w.prog s := by
  intro e he
  have hfalse := List.all_eq_true.mp h _ he
  cases hfalse

theorem refused_guest_leaves_a_group : Answered (groupWith "beto").prog reservedBeto ∧
    ¬ FailsCleanly reservedBeto (groupWith "beto").prog reservedBeto := by
  refine ⟨answered_of_all (by decide), fun h => ?_⟩
  have hrefused : ((groupWith "beto").prog.run reservedBeto).result = .error (.http
      (UnprocessableEntityException "INVITE_NOT_ALLOWED_BY_TARGET_POLICY"
        "Esta persona solo acepta invitaciones de usuarios que sigue.")) := by decide
  have hgroups := congrArg (·.rows.length) (h _ hrefused).1
  revert hgroups
  decide

theorem refusal_alone_fails_cleanly : FailsCleanly anasGroup addBeto.prog anasGroup := by
  have hid : addBeto.GeneratesNewId anasGroup := by
    show ∀ m ∈ anasGroup.members.rows, m.id ≠ "m3"
    decide
  refine (fails_cleanly_iff_finishes anasGroup addBeto (answered_of_all (by decide)) hid).mpr ?_
  show ¬ (anasGroup.administers "ana" "g1" = true ∧ anasGroup.refuses "ana" ["beto"] = true ∧
    anasGroup.hasInvitee "g1" "ana" ["beto"] = true)
  decide

end Feca.Social
