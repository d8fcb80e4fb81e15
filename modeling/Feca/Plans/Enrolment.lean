import Feca.Plans.Authoring
import Feca.Plans.SelfJoin

/-! # Requests that enrol

Founding groups, inviting, joining, leaving and deciding on join requests write
groups and memberships, and nothing that is in a group. Nobody becomes an admin
by any of them, and the owner of a group is who created it.
-/

namespace Feca.Social

open Concurrency Concurrency.Prog Relational

variable {s t u : SocialDb} {α : Type}

/-! ## Ranks -/

/-- Nobody is an admin, and owners have created their groups. -/
def Ranked (s : SocialDb) : Prop :=
  ∀ m ∈ s.members.rows, m.role = .member ∨
    m.role = .owner ∧ ∃ g ∈ s.groups.rows, g.id = m.groupId ∧ g.createdById = m.userId

theorem Ranked.of_untouched (h : Ranked s) (hst : Untouched s t) : Ranked t := by
  unfold Ranked
  rw [hst.1, hst.2]
  exact h

theorem Ranked.setMembers (h : Ranked s) (p : GroupMember → Bool) {data : MemberData}
    (hrole : data.role = none ∨ data.role = some .member) : Ranked (s.setMembers p data) := by
  intro m hm
  obtain ⟨x, hx, rfl⟩ := List.mem_map.mp hm
  have hrank := h x hx
  split
  · rcases hrole with hrole | hrole
    · simpa [GroupMember.set, hrole] using hrank
    · left
      simp [GroupMember.set, hrole]
  · exact hrank

theorem Ranked.append {new : List GroupMember} (h : Ranked s)
    (hgroups : ∀ g ∈ s.groups.rows, g ∈ t.groups.rows)
    (hmembers : t.members.rows = s.members.rows ++ new)
    (hnew : ∀ m ∈ new, m.role = .member ∨
      m.role = .owner ∧ ∃ g ∈ t.groups.rows, g.id = m.groupId ∧ g.createdById = m.userId) :
    Ranked t := by
  intro m hm
  rw [hmembers, List.mem_append] at hm
  rcases hm with hm | hm
  · rcases h m hm with hmember | ⟨howner, g, hg, hids⟩
    · exact .inl hmember
    · exact .inr ⟨howner, g, hgroups g hg, hids⟩
  · exact hnew m hm

/-! ## Requests that write memberships -/

/-- Events, answers and messages. -/
def SocialDb.content (s : SocialDb) : Table GroupEvent × Table GroupEventRsvp × Table GroupMessage :=
  (s.events, s.rsvps, s.messages)

/-- A statement about groups and memberships. -/
structure Enrols (s t : SocialDb) : Prop where
  content : t.content = s.content
  ranked : Ranked s → Ranked t

theorem Enrols.refl (s : SocialDb) : Enrols s s := ⟨rfl, id⟩

theorem Enrols.trans (hst : Enrols s t) (htu : Enrols t u) : Enrols s u :=
  ⟨htu.content.trans hst.content, fun h => htu.ranked (hst.ranked h)⟩

/-- A program of such statements. -/
abbrev EnrolsOnly (p : SocialProg α) : Prop := p.Always fun s t _ => Enrols s t

theorem EnrolsOnly.run {p : SocialProg α} (hp : EnrolsOnly p) (s : SocialDb) :
    Enrols s (p.run s).store :=
  Always.run (P := fun s t _ => Enrols s t) hp (fun s => .refl s)
    (fun _ _ _ _ _ hst htu => hst.trans htu) s

theorem ReadsOnly.enrols {p : SocialProg α} (hp : ReadsOnly p) : EnrolsOnly p :=
  hp.mono fun s _ _ hst => hst ▸ .refl s

theorem insertMember_content {m : GroupMember} (h : s.insertMember m = .ok t) :
    t.content = s.content := by
  unfold SocialDb.insertMember at h
  split at h
  · split at h
    · cases h
    · cases h
      rfl
  · cases h

theorem insertEach_content {ms : List GroupMember} (h : s.insertEach ms = .ok t) :
    t.content = s.content := by
  induction ms generalizing s with
  | nil =>
      cases h
      rfl
  | cons m ms ih =>
      rw [SocialDb.insertEach] at h
      cases hm : s.insertMember m with
      | error e => simp [hm, Except.bind] at h
      | ok u =>
          rw [hm] at h
          exact (ih h).trans (insertMember_content hm)

theorem insertMembers_content {ms : List GroupMember} (h : s.insertMembers ms = .ok t) :
    t.content = s.content := by
  unfold SocialDb.insertMembers at h
  split at h
  · cases h
    rfl
  · cases h

theorem insertGroup_content {g : Group} (h : s.insertGroup g = .ok t) : t.content = s.content := by
  unfold SocialDb.insertGroup at h
  split at h
  · split at h
    · cases h
    · cases h
      rfl
  · cases h

theorem upsertSettings_enrols {row : UserSettings} (h : s.upsertSettings row = .ok t) :
    Enrols s t := by
  obtain ⟨-, hgroups, hmembers, -⟩ := SocialDb.upsertSettings_ok h
  refine ⟨?_, fun hranked => hranked.of_untouched ⟨hgroups, hmembers⟩⟩
  unfold SocialDb.upsertSettings at h
  split at h
  · cases h
    rfl
  · split at h
    · split at h
      · cases h
      · cases h
        rfl
    · cases h

theorem enrols_updateMember (id : Id) {data : MemberData}
    (hrole : data.role = none ∨ data.role = some .member) : EnrolsOnly (updateMember id data) := by
  refine always_stmt fun s => ?_
  split
  · exact .refl s
  · exact ⟨rfl, fun h => h.setMembers _ hrole⟩

theorem enrols_updateMembers (p : GroupMember → Bool) {data : MemberData}
    (hrole : data.role = none ∨ data.role = some .member) : EnrolsOnly (updateMembers p data) :=
  always_stmt fun _ => ⟨rfl, fun h => h.setMembers p hrole⟩

theorem enrols_createMember {m : GroupMember} (hrole : m.role = .member) :
    EnrolsOnly (createMember m) := by
  refine always_stmt fun s => ?_
  split
  · rename_i t ht
    obtain ⟨-, hgroups, hrows⟩ := SocialDb.insertMember_ok ht
    refine ⟨insertMember_content ht, fun h => h.append (by simp [hgroups]) hrows fun x hx => ?_⟩
    rw [List.mem_singleton.mp hx]
    exact .inl hrole
  · exact .refl s

theorem enrols_createMembers {ms : List GroupMember} (hrole : ∀ m ∈ ms, m.role = .member) :
    EnrolsOnly (createMembers ms) := by
  refine always_stmt fun s => ?_
  split
  · rename_i t ht
    obtain ⟨-, hgroups, new, hsub, hrows⟩ := SocialDb.insertMembers_ok ht
    exact ⟨insertMembers_content ht, fun h => h.append (by simp [hgroups]) hrows fun x hx =>
      .inl (hrole x (hsub.subset hx))⟩
  · exact .refl s

theorem enrols_ensureUserSettings (row : UserSettings) : EnrolsOnly (ensureUserSettings row) := by
  refine always_stmt fun s => ?_
  split
  · rename_i t ht
    exact upsertSettings_enrols ht
  · exact .refl s

theorem enrols_ensureEach (env : SocialEnv) (k : Nat) (ids : List Id) :
    EnrolsOnly (ensureEach env k ids) := by
  induction ids generalizing k with
  | nil => trivial
  | cons id ids ih => exact always_bind (enrols_ensureUserSettings _) fun _ => ih (k + 1)

theorem enrols_screenMembers (env : SocialEnv) (inviterId : Id) (ids : List Id) :
    EnrolsOnly (screenMembers env inviterId ids) := by
  apply always_bind (enrols_ensureEach env 0 _)
  intro _
  apply always_bind
  · unfold findInvitees
    split
    · trivial
    · exact (reads_query _).enrols
  · intro invitees
    apply always_bind
    · unfold getRelationshipMaps
      split
      · trivial
      · exact (reads_query _).enrols
    · intro relationships
      trivial

/-- A new group without events comes with its owner. -/
theorem enrols_createGroupWith {find : SocialDb → Id → Option GroupWithRelations} {g : Group}
    {ms : List GroupMember} (hms : ∀ m ∈ ms, m.role = .member ∨
      m.role = .owner ∧ m.groupId = g.id ∧ m.userId = g.createdById) :
    EnrolsOnly (createGroupWith find g ms []) := by
  refine always_stmt fun s => ?_
  split
  · exact .refl s
  · rename_i t ht
    have hcontent : t.content = s.content := by
      obtain ⟨u, v, hg, hm, hevents⟩ := SocialDb.createGroupRows_steps ht
      cases hevents
      exact (insertEach_content hm).trans (insertGroup_content hg)
    obtain ⟨-, hgroups, -, hrows⟩ := SocialDb.createGroupRows_ok ht
    have hranked : Ranked s → Ranked t := fun h =>
      h.append (by simp +contextual [hgroups]) hrows fun m hm => by
        rcases hms m hm with hmember | ⟨howner, hgroup, huser⟩
        · exact .inl hmember
        · exact .inr ⟨howner, g, by simp [hgroups], hgroup.symm, huser.symm⟩
    split
    · exact ⟨hcontent, hranked⟩
    · exact .refl s

theorem founding_ranks (env : SocialEnv) {g : Group} (hg : g.id = env.groupId) (ids : List Id) :
    ∀ m ∈ foundingMembers env g.createdById ids, m.role = .member ∨
      m.role = .owner ∧ m.groupId = g.id ∧ m.userId = g.createdById := by
  intro m hm
  obtain rfl | ⟨-, hrole, -⟩ := mem_foundingMembers hm
  · exact .inr ⟨rfl, hg.symm, rfl⟩
  · exact .inl hrole

theorem enrols_createGroup (env : SocialEnv) (input : CreateGroupInput) :
    EnrolsOnly (createGroup env input) := by
  apply always_bind (enrols_screenMembers _ _ _)
  intro screening
  apply always_bind (enrols_createGroupWith (founding_ranks env rfl _))
  intro group
  trivial

theorem enrols_reviveEach (invitedById : Id) (ms : List GroupMember) :
    EnrolsOnly (reviveEach invitedById ms) := by
  induction ms with
  | nil => trivial
  | cons m ms ih => exact always_bind (enrols_updateMember _ (.inr rfl)) fun _ => ih

theorem enrols_addGroupMembers (env : SocialEnv) (input : AddGroupMembersInput) :
    EnrolsOnly (addGroupMembers env input) := by
  apply always_bind (reads_query _).enrols
  intro group
  cases group with
  | none => trivial
  | some group =>
      apply always_bind (enrols_screenMembers _ _ _)
      intro screening
      apply always_bind
      · unfold findExisting
        split
        · trivial
        · exact always_stmt fun s => .refl s
      · intro existing
        apply always_bind
        · apply always_bind
          · unfold createAny
            split
            · refine enrols_createMembers fun m hm => ?_
              obtain ⟨⟨userId, k⟩, -, rfl⟩ := List.mem_map.mp hm
              rfl
            · trivial
          · exact fun _ => enrols_reviveEach _ _
        · exact fun _ => always_bind (reads_query _).enrols fun _ => trivial

theorem enrols_joinGroupByCode (env : SocialEnv) (userId : Id) (inviteCode : String) :
    EnrolsOnly (joinGroupByCode env userId inviteCode) := by
  apply always_bind (always_stmt fun s => .refl s)
  intro group
  cases group with
  | none => trivial
  | some group =>
      apply always_bind
      · apply always_bind (reads_findMembership _ _).enrols
        intro membership
        cases membership with
        | none => exact always_bind (enrols_createMember rfl) fun _ => trivial
        | some existing =>
            dsimp only
            split
            · trivial
            · exact always_bind (enrols_updateMember _ (.inl rfl)) fun _ => trivial
      · exact fun _ => always_bind (reads_query _).enrols fun _ => trivial

theorem enrols_leaveGroup (groupId userId : Id) : EnrolsOnly (leaveGroup groupId userId) := by
  apply always_bind (reads_findMembership _ _).enrols
  intro membership
  cases membership with
  | none => trivial
  | some m =>
      dsimp only
      split
      · trivial
      · split
        · trivial
        · exact always_bind (enrols_updateMember _ (.inl rfl)) fun _ =>
            always_bind (reads_query _).enrols fun _ => trivial

theorem enrols_enterPlan (env : SocialEnv) (group : Group) (userId : Id)
    (existing : Option GroupMember) : EnrolsOnly (enterPlan env group userId existing) := by
  cases existing with
  | none => exact always_bind (enrols_createMember rfl) fun _ => trivial
  | some m => exact always_bind (enrols_updateMember _ (.inr rfl)) fun _ => trivial

theorem enrols_joinPlan (env : SocialEnv) (groupId userId : Id) :
    EnrolsOnly (joinPlan env groupId userId) := by
  apply always_bind (always_stmt fun s => .refl s)
  intro group
  cases group with
  | none => trivial
  | some group =>
      apply always_bind (reads_findMembership _ _).enrols
      intro existing
      apply always_map
      cases existing with
      | none =>
          unfold decideJoin
          dsimp only
          split
          · trivial
          · exact enrols_enterPlan _ _ _ _
      | some m =>
          unfold decideJoin
          dsimp only
          split
          · trivial
          · split
            · exact always_bind (enrols_updateMember _ (.inl rfl)) fun _ => trivial
            · split
              · trivial
              · split
                · trivial
                · exact enrols_enterPlan _ _ _ _

theorem enrols_leavePlan (groupId userId : Id) : EnrolsOnly (leavePlan groupId userId) := by
  apply always_bind (reads_findMembership _ _).enrols
  intro membership
  cases membership with
  | none => trivial
  | some m =>
      dsimp only
      split
      · trivial
      · split
        · trivial
        · exact always_bind (enrols_updateMember _ (.inl rfl)) fun _ => trivial

/-! ## The services over them -/

theorem mem_setGroup {groupId : Id} {data : GroupData} {g : Group} :
    g ∈ (s.setGroup groupId data).groups.rows ↔
      ∃ x ∈ s.groups.rows, (if x.id == groupId then x.set data else x) = g := by
  rw [show (s.setGroup groupId data).groups.rows = s.groups.rows.map (fun x =>
    if x.id == groupId then x.set data else x) from rfl, List.mem_map]

theorem Ranked.setGroup (h : Ranked s) (groupId : Id) (data : GroupData) :
    Ranked (s.setGroup groupId data) := by
  intro m hm
  rcases h m hm with hmember | ⟨howner, g, hg, hid, huser⟩
  · exact .inl hmember
  · refine .inr ⟨howner, _, mem_setGroup.mpr ⟨g, hg, rfl⟩, ?_⟩
    split
    · exact ⟨hid, huser⟩
    · exact ⟨hid, huser⟩

theorem enrols_updateGroupRow (groupId : Id) (data : GroupData) :
    EnrolsOnly (updateGroupRow groupId data) := by
  refine always_stmt fun s => ?_
  split
  · exact ⟨rfl, fun h => h.setGroup groupId data⟩
  · exact .refl s

theorem reads_assertGroupAdminAccess (userId groupId : Id) :
    ReadsOnly (assertGroupAdminAccess userId groupId) := by
  apply always_bind (reads_findMembership _ _)
  intro membership
  cases membership with
  | none => trivial
  | some m =>
      dsimp only
      split
      · trivial
      · split <;> trivial

theorem enrols_announceInvitations (userId : Id) (result : InvitedGroup) :
    EnrolsOnly (announceInvitations userId result) := by
  apply always_bind
  · unfold assertNoInvitePolicyRejections
    split
    · trivial
    · trivial
  · intro _
    dsimp only
    split
    · exact always_bind (reads_publish _).enrols fun _ => trivial
    · trivial

theorem enrols_createGroup_service (env : SocialEnv) (inviteCode : String) (userId : Id)
    (body : CreateGroupDto) :
    EnrolsOnly (SocialGroupsService.createGroup env inviteCode userId body) := by
  apply always_bind
  · apply always_attempt
    exact always_bind (enrols_createGroup _ _) fun _ => enrols_announceInvitations _ _
  · intro answer
    cases answer with
    | ok result => trivial
    | error failure => trivial

theorem enrols_joinGroupByCode_service (env : SocialEnv) (userId : Id) (code : String) :
    EnrolsOnly (SocialGroupsService.joinGroupByCode env userId code) := by
  apply always_bind (enrols_joinGroupByCode _ _ _)
  intro result
  cases result with
  | none => trivial
  | some result =>
      dsimp only
      split
      · exact always_bind (reads_publish _).enrols fun _ => trivial
      · trivial

theorem enrols_addGroupMembers_service (env : SocialEnv) (userId groupId : Id)
    (memberIds : List Id) :
    EnrolsOnly (SocialGroupsService.addGroupMembers env userId groupId memberIds) := by
  apply always_bind (reads_query _).enrols
  intro group
  cases group with
  | none => trivial
  | some group =>
      apply always_bind (reads_assertGroupAdminAccess _ _).enrols
      intro _
      apply always_bind (enrols_addGroupMembers _ _)
      intro result
      cases result with
      | none => trivial
      | some result => exact enrols_announceInvitations _ _

theorem enrols_leaveGroup_service (userId groupId : Id) :
    EnrolsOnly (SocialGroupsService.leaveGroup userId groupId) := by
  apply always_bind (reads_query _).enrols
  intro group
  cases group with
  | none => trivial
  | some group =>
      apply always_bind (enrols_leaveGroup _ _)
      intro result
      rcases result with - | (- | -)
      · trivial
      · trivial
      · trivial

theorem enrols_updateGroup (userId groupId : Id) (body : UpdateGroupDto) :
    EnrolsOnly (SocialGroupsService.updateGroup userId groupId body) := by
  apply always_bind (reads_query _).enrols
  intro group
  cases group with
  | none => trivial
  | some group =>
      dsimp only
      split
      · trivial
      · exact always_bind (reads_assertGroupAdminAccess _ _).enrols fun _ =>
          enrols_updateGroupRow _ _

theorem enrols_join (env : PlansEnv) (userId groupId : Id) :
    EnrolsOnly (PlansService.join env userId groupId) := by
  apply always_bind (reads_requirePlan _).enrols
  intro plan
  apply always_bind (enrols_joinPlan _ _ _)
  intro result
  cases result with
  | none => trivial
  | some result =>
      dsimp only
      split
      · trivial
      · exact always_bind (reads_announceJoin _ _ _ _).enrols fun _ => (reads_get _ _ _).enrols

theorem enrols_leave (userId groupId : Id) : EnrolsOnly (PlansService.leave userId groupId) := by
  apply always_bind (reads_requirePlan _).enrols
  intro plan
  apply always_bind (enrols_leavePlan _ _)
  intro result
  rcases result with - | (- | -)
  · trivial
  · trivial
  · trivial

theorem enrols_cancelJoinRequest (userId groupId : Id) :
    EnrolsOnly (PlansService.cancelJoinRequest userId groupId) := by
  apply always_bind (reads_requirePlan _).enrols
  intro plan
  apply always_bind (enrols_updateMembers _ (.inl rfl))
  intro count
  split <;> trivial

theorem enrols_decideJoinRequest (userId groupId membershipId : Id) (approve : Bool) :
    EnrolsOnly (PlansService.decideJoinRequest userId groupId membershipId approve) := by
  apply always_bind (reads_requirePlan _).enrols
  intro plan
  apply always_bind (reads_assertAdmin _ _).enrols
  intro _
  apply always_bind (reads_query _).enrols
  intro target
  cases target with
  | none => trivial
  | some target =>
      apply always_bind (enrols_updateMembers _ (.inl rfl))
      intro count
      split
      · trivial
      · exact (reads_publish _).enrols

end Feca.Social
