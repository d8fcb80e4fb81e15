import Feca.Social.Consent
import Feca.Social.Rollback

/-! # Whom an invitation reaches

Run alone, `addGroupMembers` splits the people it is given, without the inviter
and each once: some are rejected, some are in the group or invited already, and
the others are invited. It asks for everybody's settings first, and creates them
where they are missing: an id that belongs to nobody fails the call there.
-/

namespace Feca.Social

open Concurrency Concurrency.Prog Relational

variable {s t : SocialDb} {env : SocialEnv} {input : AddGroupMembersInput}

/-! ## The purpose of addGroupMembers -/

/-- Somebody of the list who is not the inviter. -/
def Named (input : AddGroupMembersInput) (id : Id) : Prop :=
  id ∈ input.memberIds ∧ id ≠ input.invitedById

/-- A member who is nobody, or whose policy denies the inviter. -/
def Rejected (s : SocialDb) (input : AddGroupMembersInput) (r : RejectedInvite) : Prop :=
  Named input r.userId ∧ s.inviteRejection input.invitedById r.userId = some r.reason

/-- A member who agrees, and is accepted or invited already. -/
def AlreadyIn (s : SocialDb) (input : AddGroupMembersInput) (id : Id) : Prop :=
  Named input id ∧ s.inviteRejection input.invitedById id = none ∧
    s.isInGroup input.groupId id = true

/-- A member who agrees, and is neither. -/
def Invited (s : SocialDb) (input : AddGroupMembersInput) (id : Id) : Prop :=
  Named input id ∧ s.inviteRejection input.invitedById id = none ∧
    s.isInGroup input.groupId id = false

/-- The invitation of a user by the call. -/
structure Invitation (input : AddGroupMembersInput) (id : Id) (m : GroupMember) : Prop where
  groupId : m.groupId = input.groupId
  userId : m.userId = id
  role : m.role = .member
  status : m.status = .pending
  invitedById : m.invitedById = some input.invitedById

/-- The call has split its list, invited whom it was to invite, and left every
other membership alone. -/
structure Partitioned (s t : SocialDb) (input : AddGroupMembersInput) (invited : List Id)
    (rejected : List RejectedInvite) : Prop where
  invited_nodup : invited.Nodup
  rejected_nodup : (rejected.map (·.userId)).Nodup
  invited_iff : ∀ id, id ∈ invited ↔ Invited s input id
  rejected_iff : ∀ r, r ∈ rejected ↔ Rejected s input r
  covers : ∀ id, Named input id →
    id ∈ invited ∨ id ∈ rejected.map (·.userId) ∨ AlreadyIn s input id
  disjoint : invited.Disjoint (rejected.map (·.userId))
  invited_out : ∀ id ∈ invited, ¬ AlreadyIn s input id
  rejected_out : ∀ id ∈ rejected.map (·.userId), ¬ AlreadyIn s input id
  seated : ∀ id ∈ invited, ∃ m ∈ t.members.rows, Invitation input id m
  kept : ∀ m ∈ s.members.rows, ¬ (m.groupId = input.groupId ∧ m.userId ∈ invited) →
    m ∈ t.members.rows
  origin : ∀ m ∈ t.members.rows, ¬ (m.groupId = input.groupId ∧ m.userId ∈ invited) →
    m ∈ s.members.rows

/-- The call succeeds, and answers with the split. -/
def PartitionsInput (s : SocialDb) (input : AddGroupMembersInput)
    (answer : Answer SocialDb SocialEvent Failure (Option InvitedGroup)) : Prop :=
  ∃ result, answer.result = .ok (some result) ∧
    answer.store.findGroupById input.groupId = some result.group ∧
    Partitioned s answer.store input result.invitedUserIds result.rejectedInvites

/-- Every member but the inviter exists; the empty id is not looked up. -/
def EveryoneExists (s : SocialDb) (input : AddGroupMembersInput) : Prop :=
  ∀ id, Named input id → id ≠ "" → s.hasUser id = true

/-- The ids the database generates are new, and all are different. -/
structure SocialEnv.New (env : SocialEnv) (s : SocialDb) : Prop where
  settings : ∀ k, ∀ r ∈ s.settings.rows, r.id ≠ env.settingsId k
  settingsId : ∀ k l, env.settingsId k = env.settingsId l → k = l
  members : ∀ k, ∀ m ∈ s.members.rows, m.id ≠ env.memberId k
  memberId : ∀ k l, env.memberId k = env.memberId l → k = l

/-- `UserSettings.userId` references a user. -/
def SettingsReference (s : SocialDb) : Prop := ∀ r ∈ s.settings.rows, s.hasUser r.userId = true

theorem mem_deduped {inviterId id : Id} {memberIds : List Id} :
    id ∈ dedupedMemberIds inviterId memberIds ↔ id ∈ memberIds ∧ id ≠ inviterId := by
  unfold dedupedMemberIds
  rw [mem_distinctIds, List.mem_filter, bne_iff_ne]

/-! ## Settings -/

theorem hasUser_of_upsertSettings {row : UserSettings} (h : s.upsertSettings row = .ok t)
    (id : Id) :
    t.hasUser id = s.hasUser id := by
  unfold SocialDb.hasUser
  rw [(SocialDb.upsertSettings_ok h).1]

theorem upsertSettings_isOk {row : UserSettings} (huser : s.hasUser row.userId = true)
    (hnew : ∀ r ∈ s.settings.rows, r.id ≠ row.id) : ∃ t, s.upsertSettings row = .ok t := by
  unfold SocialDb.upsertSettings
  split
  · exact ⟨s, rfl⟩
  · rename_i hnone
    split
    · rename_i hinsert
      obtain ⟨r, hr, hclash⟩ := Table.insert_eq_none hinsert
      have huserId : r.userId ≠ row.userId := by
        intro heq
        exact hnone (List.any_eq_true.mpr ⟨r, hr, by simpa using heq⟩)
      simp [conflicts, hnew r hr, huserId] at hclash
    · exact ⟨_, rfl⟩

theorem upsertSettings_unknown {row : UserSettings} (hsettings : SettingsReference s)
    (huser : s.hasUser row.userId = false) :
    s.upsertSettings row = .error foreignKeyViolation := by
  have hnone : ¬ s.settings.rows.any (·.userId == row.userId) = true := by
    intro hany
    obtain ⟨r, hr, hid⟩ := List.any_eq_true.mp hany
    rw [beq_iff_eq] at hid
    have hknown := hsettings r hr
    rw [hid, huser] at hknown
    cases hknown
  unfold SocialDb.upsertSettings
  rw [if_neg hnone, huser]
  rfl

theorem ensureUserSettings_run {row : UserSettings} (h : s.upsertSettings row = .ok t) :
    (ensureUserSettings row).run s = ⟨t, [], .ok ()⟩ := by
  unfold ensureUserSettings
  rw [run_stmt, h]

theorem ensureEach_ok {k : Nat} {ids : List Id}
    (hunused : ∀ j, k ≤ j → ∀ r ∈ s.settings.rows, r.id ≠ env.settingsId j)
    (hdistinct : ∀ i j, env.settingsId i = env.settingsId j → i = j)
    (hids : ∀ id ∈ ids, s.hasUser id = true) : ((ensureEach env k ids).run s).result = .ok () := by
  induction ids generalizing s k with
  | nil => rfl
  | cons id rest ih =>
      have hrow : ∀ r ∈ s.settings.rows, r.id ≠ (settingsRow env k id).id := hunused k (le_refl _)
      obtain ⟨t, ht⟩ : ∃ t, s.upsertSettings (settingsRow env k id) = .ok t :=
        upsertSettings_isOk (hids id List.mem_cons_self) hrow
      have hrun := ensureUserSettings_run ht
      unfold ensureEach
      rw [run_bind_ok (by rw [hrun]), hrun]
      apply ih
      · intro j hj r hr heq
        cases (SocialDb.upsertSettings_ok ht).2.2.2.2 with
        | inl hsame =>
            rw [hsame] at hr
            exact hunused j (by omega) r hr heq
        | inr hnew =>
            rw [hnew.1, List.mem_append, List.mem_singleton] at hr
            cases hr with
            | inl hold => exact hunused j (by omega) r hold heq
            | inr hadded =>
                rw [hadded] at heq
                have hsame := hdistinct k j heq
                omega
      · intro other hother
        rw [hasUser_of_upsertSettings ht]
        exact hids other (List.mem_cons_of_mem _ hother)

theorem ensureEach_unknown {k : Nat} {ids : List Id} (hsettings : SettingsReference s)
    (hids : ∃ id ∈ ids, s.hasUser id = false) :
    ∃ e, ((ensureEach env k ids).run s).result = .error e := by
  induction ids generalizing s k with
  | nil =>
      obtain ⟨id, hid, -⟩ := hids
      cases hid
  | cons id rest ih =>
      unfold ensureEach
      cases hupsert : s.upsertSettings (settingsRow env k id) with
      | error e =>
          have hrun : (ensureUserSettings (settingsRow env k id)).run s =
              ⟨s, [.threw e], .error (.database e)⟩ := by
            unfold ensureUserSettings
            rw [run_stmt, hupsert]
          rw [run_bind_error (by rw [hrun])]
          exact ⟨_, rfl⟩
      | ok t =>
          have hrun := ensureUserSettings_run hupsert
          have hknown : s.hasUser id = true := by
            by_contra hunknown
            rw [Bool.not_eq_true] at hunknown
            rw [upsertSettings_unknown hsettings hunknown] at hupsert
            cases hupsert
          rw [run_bind_ok (by rw [hrun]), hrun]
          apply ih
          · intro r hr
            rw [hasUser_of_upsertSettings hupsert]
            cases (SocialDb.upsertSettings_ok hupsert).2.2.2.2 with
            | inl hsame =>
                rw [hsame] at hr
                exact hsettings r hr
            | inr hnew =>
                rw [hnew.1, List.mem_append, List.mem_singleton] at hr
                cases hr with
                | inl hold => exact hsettings r hold
                | inr hadded =>
                    rw [hadded]
                    exact hknown
          · obtain ⟨other, hother, hunknown⟩ := hids
            rw [List.mem_cons] at hother
            cases hother with
            | inl heq =>
                rw [heq, hknown] at hunknown
                cases hunknown
            | inr hrest =>
                refine ⟨other, hrest, ?_⟩
                rw [hasUser_of_upsertSettings hupsert]
                exact hunknown

/-- Asking for the settings succeeds when everybody exists, and only then. -/
theorem ensureUserSettingsForUsers_ok {ids : List Id} (hnew : env.New s)
    (hids : ∀ id ∈ ids, id ≠ "" → s.hasUser id = true) :
    ((ensureUserSettingsForUsers env ids).run s).result = .ok () := by
  unfold ensureUserSettingsForUsers
  apply ensureEach_ok (fun j _ => hnew.settings j) hnew.settingsId
  intro id hid
  rw [mem_distinctIds, List.mem_filter, bne_iff_ne] at hid
  exact hids id hid.1 hid.2

theorem ensureUserSettingsForUsers_unknown {ids : List Id} {id : Id}
    (hsettings : SettingsReference s) (hid : id ∈ ids) (hblank : id ≠ "")
    (hunknown : s.hasUser id = false) :
    ∃ e, ((ensureUserSettingsForUsers env ids).run s).result = .error e := by
  unfold ensureUserSettingsForUsers
  apply ensureEach_unknown hsettings
  refine ⟨id, ?_, hunknown⟩
  rw [mem_distinctIds, List.mem_filter, bne_iff_ne]
  exact ⟨hid, hblank⟩

/-! ## Screening -/

theorem screenMembers_run {inviterId : Id} {ids : List Id}
    (h : ((ensureUserSettingsForUsers env (inviterId :: ids)).run s).result = .ok ()) :
    ∃ invitees relationships, ((screenMembers env inviterId ids).run s).result =
      .ok (screenInvites inviterId invitees relationships ids) := by
  have hinvitees : ∀ t, ∃ invitees, ((findInvitees ids).run t).result = .ok invitees := by
    intro t
    unfold findInvitees
    split
    · exact ⟨_, rfl⟩
    · exact ⟨_, rfl⟩
  have hmaps : ∀ (userIds : List Id) t, ∃ relationships,
      ((getRelationshipMaps inviterId userIds).run t).result = .ok relationships := by
    intro userIds t
    unfold getRelationshipMaps
    split
    · exact ⟨_, rfl⟩
    · exact ⟨_, rfl⟩
  unfold screenMembers
  rw [run_bind_ok h]
  obtain ⟨invitees, hinvitees⟩ := hinvitees ((ensureUserSettingsForUsers env (inviterId :: ids)).run
    s).store
  rw [run_bind_ok hinvitees]
  obtain ⟨relationships, hmaps⟩ := hmaps (invitees.map (·.user.id)) ((findInvitees ids).run
    ((ensureUserSettingsForUsers env (inviterId :: ids)).run s).store).store
  rw [run_bind_ok hmaps]
  exact ⟨invitees, relationships, rfl⟩

theorem screenMembers_error {inviterId : Id} {ids : List Id} {e : Failure}
    (h : ((ensureUserSettingsForUsers env (inviterId :: ids)).run s).result = .error e) :
    ((screenMembers env inviterId ids).run s).result = .error e := by
  unfold screenMembers
  rw [run_bind_error h]

/-- Each rejected member is rejected once, in the order of the list. -/
theorem screenInvites_rejected (inviterId : Id) (invitees : List UserWithSettings)
    (relationships : Relationships) (ids : List Id) :
    ((screenInvites inviterId invitees relationships ids).rejected.map (·.userId)).Sublist ids := by
  induction ids with
  | nil => exact List.Sublist.refl _
  | cons x ids ih =>
      rw [screenInvites]
      split
      · exact ih.cons x
      · exact ih.cons_cons x

/-! ## Writing -/

section write

variable {ids allowed : List Id}

/-- The rows the call creates, and those it revives. -/
def rowsOf (env : SocialEnv) (s : SocialDb) (input : AddGroupMembersInput) (ids allowed : List Id) :
    List GroupMember := createRows env input (s.membershipsOf input.groupId ids) allowed

def reviveOf (s : SocialDb) (input : AddGroupMembersInput) (ids allowed : List Id) :
    List GroupMember := membershipsToRevive (s.membershipsOf input.groupId ids) allowed

theorem rowsOf_userIds (hallowed : allowed ⊆ ids) :
    (rowsOf env s input ids allowed).map (·.userId) =
      allowed.filter fun id => (s.findMembership input.groupId id).isNone := by
  have hmap : (rowsOf env s input ids allowed).map (·.userId) = ((allowed.filter fun id =>
      ((s.membershipsOf input.groupId ids).find? (·.userId == id)).isNone).zipIdx.map Prod.fst) :=
    List.map_map
  rw [hmap, List.zipIdx_map_fst]
  apply List.filter_congr
  intro id hid
  rw [SocialDb.find_membershipsOf (hallowed hid)]

theorem mem_reviveOf (hallowed : allowed ⊆ ids) {m : GroupMember} :
    m ∈ reviveOf s input ids allowed ↔ m ∈ s.members.rows ∧ m.groupId = input.groupId ∧
      m.userId ∈ allowed ∧ m.status ≠ .accepted ∧ m.status ≠ .pending := by
  constructor
  · intro hm
    obtain ⟨hexisting, huser, haccepted, hpending⟩ := mem_membershipsToRevive hm
    obtain ⟨hstored, hgroup⟩ := List.mem_filter.mp hexisting
    rw [Bool.and_eq_true, beq_iff_eq] at hgroup
    exact ⟨hstored, hgroup.1, huser, haccepted, hpending⟩
  · intro h
    obtain ⟨hstored, hgroup, huser, haccepted, hpending⟩ := h
    have hfind : s.findMembership input.groupId m.userId = some m := by
      rw [← hgroup]
      exact SocialDb.findMembership_of_mem hstored
    unfold reviveOf membershipsToRevive
    rw [List.mem_filter, List.mem_filterMap]
    refine ⟨⟨m.userId, huser, ?_⟩, ?_⟩
    · rw [SocialDb.find_membershipsOf (hallowed huser), hfind]
    · simp [haccepted, hpending]

/-- The invited: those without a membership, and those whose membership has ended. -/
theorem mem_invitedUserIds (hallowed : allowed ⊆ ids) {id : Id} :
    id ∈ (rowsOf env s input ids allowed).map (·.userId) ++
        (reviveOf s input ids allowed).map (·.userId) ↔
      id ∈ allowed ∧ s.isInGroup input.groupId id = false := by
  rw [List.mem_append, rowsOf_userIds hallowed, List.mem_filter, List.mem_map]
  unfold SocialDb.isInGroup
  cases hfind : s.findMembership input.groupId id with
  | none =>
      have hnone : ¬ ∃ m ∈ reviveOf s input ids allowed, m.userId = id := by
        intro hrevived
        obtain ⟨m, hm, huser⟩ := hrevived
        rw [mem_reviveOf hallowed] at hm
        have hfound := SocialDb.findMembership_of_mem hm.1
        rw [hm.2.1, huser, hfind] at hfound
        cases hfound
      simp [hnone]
  | some x =>
      obtain ⟨hx, hgroup, huser⟩ := SocialDb.findMembership_some hfind
      have hrevived : (∃ m ∈ reviveOf s input ids allowed, m.userId = id) ↔
          id ∈ allowed ∧ x.status ≠ .accepted ∧ x.status ≠ .pending := by
        constructor
        · intro h
          obtain ⟨m, hm, hid⟩ := h
          rw [mem_reviveOf hallowed] at hm
          have hsame : m = x := s.membership_unique hm.1 hx (hm.2.1.trans hgroup.symm)
            (hid.trans huser.symm)
          rw [hsame, huser] at hm
          exact hm.2.2
        · intro h
          refine ⟨x, (mem_reviveOf hallowed).mpr ⟨hx, hgroup, ?_, h.2.1, h.2.2⟩, huser⟩
          rw [huser]
          exact h.1
      simp [hrevived]

theorem nodup_invitedUserIds (hallowed : allowed ⊆ ids) (hnodup : allowed.Nodup) :
    ((rowsOf env s input ids allowed).map (·.userId) ++
      (reviveOf s input ids allowed).map (·.userId)).Nodup := by
  rw [List.nodup_append, rowsOf_userIds hallowed]
  refine ⟨hnodup.filter _, ?_, ?_⟩
  · have hdistinct : (reviveOf s input ids allowed).Pairwise fun a b => a.id ≠ b.id :=
      membershipsToRevive_pairwise (fun m hm => (List.mem_filter.mp hm).1) hnodup
    rw [List.Nodup, List.pairwise_map]
    apply hdistinct.imp_of_mem
    intro a b ha hb hab huser
    rw [mem_reviveOf hallowed] at ha hb
    exact hab (by rw [s.membership_unique ha.1 hb.1 (ha.2.1.trans hb.2.1.symm) huser])
  · intro id hid other hother heq
    obtain ⟨m, hm, huser⟩ := List.mem_map.mp hother
    rw [mem_reviveOf hallowed] at hm
    have hfound := SocialDb.findMembership_of_mem hm.1
    have hnone := (List.mem_filter.mp hid).2
    rw [heq, ← huser, ← hm.2.1, hfound] at hnone
    cases hnone

/-- Nothing stands in the way of the rows to create. -/
theorem rowsOf_fresh (hnew : ∀ k, ∀ m ∈ s.members.rows, m.id ≠ env.memberId k)
    (hdistinct : ∀ k l, env.memberId k = env.memberId l → k = l) (hallowed : allowed ⊆ ids)
    (hnodup : allowed.Nodup) : (s.members.rows ++ rowsOf env s input ids allowed).Pairwise
      fun a b => conflicts a b = false := by
  rw [List.pairwise_append]
  refine ⟨s.members.distinct, ?_, ?_⟩
  · apply pairwise_numbered (hnodup.filter _)
    intro x y i j hxy hij
    have hids : env.memberId i ≠ env.memberId j := fun heq => hij (hdistinct i j heq)
    simp [conflicts, newMember, hxy, hids]
  · intro m hm x hx
    have huser : x.userId ∈ (rowsOf env s input ids allowed).map (·.userId) :=
      List.mem_map_of_mem hx
    rw [rowsOf_userIds hallowed, List.mem_filter, Option.isNone_iff_eq_none] at huser
    have hgroup := (mem_createRows hx).1
    obtain ⟨turn, -, rfl⟩ := List.mem_map.mp hx
    have hother := SocialDb.findMembership_none huser.2 m hm
    have hclash : ¬ (m.groupId = input.groupId ∧ m.userId = turn.1) := fun h => hother h.1 h.2
    have hid := hnew turn.2 m hm
    simp only [conflicts, Bool.or_eq_false_iff, Bool.and_eq_false_iff, beq_eq_false_iff_ne]
    exact ⟨hid, not_and_or.mp hclash⟩

theorem createAny_run {rows : List GroupMember} (hadm : s.membersAdmissible rows = true)
    (hfresh : (s.members.rows ++ rows).Pairwise fun a b => conflicts a b = false) :
    ((createAny rows).run s).result = .ok () ∧
      ((createAny rows).run s).store.members.rows = s.members.rows ++ rows := by
  unfold createAny
  split
  · obtain ⟨t, ht⟩ : ∃ t, s.insertMembers rows = .ok t := by
      unfold SocialDb.insertMembers
      rw [dif_pos hadm]
      exact ⟨_, rfl⟩
    have hrows : t.members.rows = s.members.rows ++ rows := by
      rw [SocialDb.insertMembers_members ht]
      exact Table.insertSkipping_of_fresh hfresh
    unfold createMembers
    rw [run_stmt, ht]
    exact ⟨rfl, hrows⟩
  · rename_i hnone
    have hempty : rows = [] := List.length_eq_zero_iff.mp (by omega)
    rw [hempty]
    exact ⟨rfl, (List.append_nil _).symm⟩

/-- What reviving some memberships makes of a row. -/
def reviveIn (invitedById : Id) (ms : List GroupMember) (m : GroupMember) : GroupMember :=
  if ms.any (·.id == m.id) then m.set (revived invitedById) else m

theorem reviveEach_rows (invitedById : Id) {ms : List GroupMember}
    (hms : ∀ m ∈ ms, m ∈ s.members.rows) (hdistinct : ms.Pairwise fun a b => a.id ≠ b.id) :
    ((reviveEach invitedById ms).run s).result = .ok () ∧
      ((reviveEach invitedById ms).run s).store.members.rows =
        s.members.rows.map (reviveIn invitedById ms) := by
  induction ms generalizing s with
  | nil => exact ⟨rfl, (List.map_id _).symm⟩
  | cons m rest ih =>
      rw [List.pairwise_cons] at hdistinct
      have hrun := updateMember_run (hms m List.mem_cons_self) (revived invitedById)
      have hrest : ∀ x ∈ rest,
          x ∈ (s.setMembers (·.id == m.id) (revived invitedById)).members.rows := by
        intro x hx
        refine List.mem_map.mpr ⟨x, hms x (List.mem_cons_of_mem _ hx), ?_⟩
        rw [if_neg]
        rw [beq_iff_eq]
        exact Ne.symm (hdistinct.1 x hx)
      obtain ⟨hresult, hrows⟩ := ih hrest hdistinct.2
      unfold reviveEach
      rw [run_bind_ok (by rw [hrun]), hrun]
      refine ⟨hresult, hrows.trans ?_⟩
      rw [SocialDb.setMembers_rows, List.map_map]
      apply List.map_congr_left
      intro x _
      unfold reviveIn
      rw [Function.comp_apply, List.any_cons]
      by_cases hid : x.id = m.id
      · have hnot : rest.any (·.id == m.id) = false := by
          rw [List.any_eq_false]
          intro y hy
          rw [beq_iff_eq]
          exact Ne.symm (hdistinct.1 y hy)
        simp [hid, hnot]
      · simp [hid, Ne.symm hid]

@[simp] theorem reviveIn_groupId (invitedById : Id) (ms : List GroupMember) (m : GroupMember) :
    (reviveIn invitedById ms m).groupId = m.groupId := by
  unfold reviveIn
  split
  · rfl
  · rfl

@[simp] theorem reviveIn_userId (invitedById : Id) (ms : List GroupMember) (m : GroupMember) :
    (reviveIn invitedById ms m).userId = m.userId := by
  unfold reviveIn
  split
  · rfl
  · rfl

theorem rowsOf_admissible (hgroup : s.hasGroup input.groupId = true)
    (hinviter : s.hasUser input.invitedById = true)
    (husers : ∀ id ∈ allowed, s.hasUser id = true) :
    s.membersAdmissible (rowsOf env s input ids allowed) = true := by
  unfold SocialDb.membersAdmissible
  rw [List.all_eq_true]
  intro m hm
  obtain ⟨hgroupId, -, -, hinvitedBy, huser⟩ := mem_createRows hm
  simp [hgroupId, hgroup, hinvitedBy, hinviter, husers m.userId huser]

/-- The transaction adds its rows and revives what it is to revive. -/
theorem writeInvitations_run (hnew : ∀ k, ∀ m ∈ s.members.rows, m.id ≠ env.memberId k)
    (hdistinct : ∀ k l, env.memberId k = env.memberId l → k = l)
    (hgroup : s.hasGroup input.groupId = true) (hinviter : s.hasUser input.invitedById = true)
    (husers : ∀ id ∈ allowed, s.hasUser id = true) (hallowed : allowed ⊆ ids)
    (hnodup : allowed.Nodup) :
    ((writeInvitations input.invitedById (rowsOf env s input ids allowed)
        (reviveOf s input ids allowed)).run s).result = .ok () ∧
      ((writeInvitations input.invitedById (rowsOf env s input ids allowed)
        (reviveOf s input ids allowed)).run s).store.members.rows =
          (s.members.rows ++ rowsOf env s input ids allowed).map
            (reviveIn input.invitedById (reviveOf s input ids allowed)) := by
  have hfresh : (s.members.rows ++ rowsOf env s input ids allowed).Pairwise
      fun a b => conflicts a b = false := rowsOf_fresh hnew hdistinct hallowed hnodup
  obtain ⟨hcreated, hrows⟩ := createAny_run (rowsOf_admissible hgroup hinviter husers) hfresh
  have hstored : ∀ m ∈ reviveOf s input ids allowed,
      m ∈ ((createAny (rowsOf env s input ids allowed)).run s).store.members.rows := by
    intro m hm
    rw [hrows]
    exact List.mem_append_left _ ((mem_reviveOf hallowed).mp hm).1
  have hpairwise : (reviveOf s input ids allowed).Pairwise fun a b => a.id ≠ b.id :=
    membershipsToRevive_pairwise (fun m hm => (List.mem_filter.mp hm).1) hnodup
  obtain ⟨hrevived, hfinal⟩ := reviveEach_rows input.invitedById hstored hpairwise
  unfold writeInvitations
  rw [run_bind_ok hcreated]
  refine ⟨hrevived, hfinal.trans ?_⟩
  rw [hrows]

end write

/-! ## The split -/

section split

variable {screening : Screening}

/-- The people of a call who are asked: each once, without the inviter. -/
abbrev askedIds (input : AddGroupMembersInput) : List Id :=
  dedupedMemberIds input.invitedById input.memberIds

abbrev invitedIds (env : SocialEnv) (s : SocialDb) (input : AddGroupMembersInput)
    (allowed : List Id) : List Id :=
  (rowsOf env s input (askedIds input) allowed).map (·.userId) ++
    (reviveOf s input (askedIds input) allowed).map (·.userId)

theorem ScreenedBy.allowed_subset
    (h : ScreenedBy input.invitedById (askedIds input) screening s) :
    screening.allowed ⊆ askedIds input := fun id hid => ((h.1 id).mp hid).1

theorem mem_invitedIds (h : ScreenedBy input.invitedById (askedIds input) screening s) {id : Id} :
    id ∈ invitedIds env s input screening.allowed ↔ Invited s input id := by
  rw [mem_invitedUserIds h.allowed_subset, h.1, mem_deduped]
  exact and_assoc

theorem mem_rejectedIds (h : ScreenedBy input.invitedById (askedIds input) screening s) {id : Id} :
    id ∈ screening.rejected.map (·.userId) ↔
      Named input id ∧ s.inviteRejection input.invitedById id ≠ none := by
  rw [List.mem_map]
  constructor
  · intro hmem
    obtain ⟨r, hr, hid⟩ := hmem
    rw [h.2, mem_deduped, hid] at hr
    refine ⟨hr.1, ?_⟩
    rw [hr.2]
    exact nofun
  · intro hmem
    obtain ⟨reason, hreason⟩ := Option.ne_none_iff_exists'.mp hmem.2
    exact ⟨⟨reason, id⟩, (h.2 _).mpr ⟨mem_deduped.mpr hmem.1, hreason⟩, rfl⟩

/-- A membership that is revived belongs to one of the invited. -/
theorem reviveIn_other {allowed : List Id} (hallowed : allowed ⊆ askedIds input) {m : GroupMember}
    (hm : m ∈ s.members.rows)
    (hother : ¬ (m.groupId = input.groupId ∧ m.userId ∈ invitedIds env s input allowed)) :
    reviveIn input.invitedById (reviveOf s input (askedIds input) allowed) m = m := by
  unfold reviveIn
  apply if_neg
  intro hany
  obtain ⟨x, hx, hid⟩ := List.any_eq_true.mp hany
  have hx' := (mem_reviveOf hallowed).mp hx
  have hsame : x = m := s.member_unique hx'.1 hm (by simpa using hid)
  rw [hsame] at hx hx'
  exact hother ⟨hx'.2.1, List.mem_append_right _ (List.mem_map_of_mem hx)⟩

section rows

variable {allowed : List Id} (hallowed : allowed ⊆ askedIds input)
  (hrows : t.members.rows = (s.members.rows ++ rowsOf env s input (askedIds input) allowed).map
    (reviveIn input.invitedById (reviveOf s input (askedIds input) allowed)))

include hallowed hrows

/-- Whoever is invited ends with an invitation. -/
theorem seated_of_rows {id : Id} (hid : id ∈ invitedIds env s input allowed) :
    ∃ m ∈ t.members.rows, Invitation input id m := by
  rw [hrows]
  rw [List.mem_append] at hid
  cases hid with
  | inl hcreated =>
      obtain ⟨m, hm, huser⟩ := List.mem_map.mp hcreated
      obtain ⟨hgroup, hrole, hstatus, hinviter, -⟩ := mem_createRows hm
      refine ⟨_, List.mem_map_of_mem (List.mem_append_right _ hm), ?_⟩
      unfold reviveIn
      split
      · exact ⟨hgroup, huser, rfl, rfl, rfl⟩
      · exact ⟨hgroup, huser, hrole, hstatus, hinviter⟩
  | inr hrevived =>
      obtain ⟨m, hm, huser⟩ := List.mem_map.mp hrevived
      obtain ⟨hstored, hgroup, -⟩ := (mem_reviveOf hallowed).mp hm
      have hany : (reviveOf s input (askedIds input) allowed).any (·.id == m.id) = true :=
        List.any_eq_true.mpr ⟨m, hm, beq_self_eq_true _⟩
      refine ⟨_, List.mem_map_of_mem (List.mem_append_left _ hstored), ?_⟩
      unfold reviveIn
      rw [if_pos hany]
      exact ⟨hgroup, huser, rfl, rfl, rfl⟩

theorem kept_of_rows {m : GroupMember} (hm : m ∈ s.members.rows)
    (hother : ¬ (m.groupId = input.groupId ∧ m.userId ∈ invitedIds env s input allowed)) :
    m ∈ t.members.rows := by
  rw [hrows]
  exact List.mem_map.mpr
    ⟨m, List.mem_append_left _ hm, reviveIn_other hallowed hm hother⟩

theorem origin_of_rows {m : GroupMember} (hm : m ∈ t.members.rows)
    (hother : ¬ (m.groupId = input.groupId ∧ m.userId ∈ invitedIds env s input allowed)) :
    m ∈ s.members.rows := by
  rw [hrows] at hm
  obtain ⟨x, hx, rfl⟩ := List.mem_map.mp hm
  rw [reviveIn_groupId, reviveIn_userId] at hother
  rw [List.mem_append] at hx
  cases hx with
  | inl hstored =>
      rw [reviveIn_other hallowed hstored hother]
      exact hstored
  | inr hcreated =>
      exact absurd ⟨(mem_createRows hcreated).1,
        List.mem_append_left _ (List.mem_map_of_mem hcreated)⟩ hother

end rows

theorem partitioned_of_rows (h : ScreenedBy input.invitedById (askedIds input) screening s)
    (hnodup : screening.allowed.Nodup) (hrejected : (screening.rejected.map (·.userId)).Nodup)
    (hrows : t.members.rows =
      (s.members.rows ++ rowsOf env s input (askedIds input) screening.allowed).map
        (reviveIn input.invitedById (reviveOf s input (askedIds input) screening.allowed))) :
    Partitioned s t input (invitedIds env s input screening.allowed) screening.rejected where
  invited_nodup := nodup_invitedUserIds h.allowed_subset hnodup
  rejected_nodup := hrejected
  invited_iff id := mem_invitedIds h
  rejected_iff r := by
    rw [h.2, mem_deduped]
    rfl
  covers := by
    intro id hid
    rw [mem_invitedIds h, mem_rejectedIds h]
    by_cases hagrees : s.inviteRejection input.invitedById id = none
    · cases hin : s.isInGroup input.groupId id with
      | false => exact .inl ⟨hid, hagrees, hin⟩
      | true => exact .inr (.inr ⟨hid, hagrees, hin⟩)
    · exact .inr (.inl ⟨hid, hagrees⟩)
  disjoint := by
    intro id hinvited hrejected
    rw [mem_invitedIds h] at hinvited
    rw [mem_rejectedIds h] at hrejected
    exact hrejected.2 hinvited.2.1
  invited_out := by
    intro id hinvited halready
    rw [mem_invitedIds h] at hinvited
    have hout := hinvited.2.2
    rw [halready.2.2] at hout
    cases hout
  rejected_out := by
    intro id hrejected halready
    rw [mem_rejectedIds h] at hrejected
    exact hrejected.2 halready.2.1
  seated id hid := seated_of_rows h.allowed_subset hrows hid
  kept m hm hother := kept_of_rows h.allowed_subset hrows hm hother
  origin m hm hother := origin_of_rows h.allowed_subset hrows hm hother

/-- Settings rows that were created on the way change nothing about the split. -/
theorem Partitioned.before {u : SocialDb} {invited : List Id} {rejected : List RejectedInvite}
    (h : Partitioned u t input invited rejected) (hsame : SameConsent s u)
    (hmembers : u.members = s.members) : Partitioned s t input invited rejected := by
  have hin : ∀ id, u.isInGroup input.groupId id = s.isInGroup input.groupId id := by
    intro id
    unfold SocialDb.isInGroup SocialDb.findMembership
    rw [hmembers]
  have hinvited : ∀ id, Invited u input id ↔ Invited s input id := by
    intro id
    unfold Invited
    rw [hsame.inviteRejection, hin]
  have halready : ∀ id, AlreadyIn u input id ↔ AlreadyIn s input id := by
    intro id
    unfold AlreadyIn
    rw [hsame.inviteRejection, hin]
  have hrejected : ∀ r, Rejected u input r ↔ Rejected s input r := by
    intro r
    unfold Rejected
    rw [hsame.inviteRejection]
  exact
    { h with
      invited_iff := fun id => (h.invited_iff id).trans (hinvited id)
      rejected_iff := fun r => (h.rejected_iff r).trans (hrejected r)
      covers := fun id hid => by
        rw [← halready]
        exact h.covers id hid
      invited_out := fun id hid hout => h.invited_out id hid ((halready id).mpr hout)
      rejected_out := fun id hid hout => h.rejected_out id hid ((halready id).mpr hout)
      kept := fun m hm hother => h.kept m (hmembers ▸ hm) hother
      origin := fun m hm hother => hmembers ▸ h.origin m hm hother }

end split

/-! ## The whole call -/

theorem named_known (hinviter : s.hasUser input.invitedById = true)
    (heveryone : EveryoneExists s input) :
    ∀ id ∈ input.invitedById :: askedIds input, id ≠ "" → s.hasUser id = true := by
  intro id hid hblank
  cases List.mem_cons.mp hid with
  | inl heq =>
      rw [heq]
      exact hinviter
  | inr hasked => exact heveryone id (mem_deduped.mp hasked) hblank

/-- Nobody is allowed in whom the database does not know. -/
theorem ScreenedBy.allowed_known {u : SocialDb} {screening : Screening}
    (h : ScreenedBy input.invitedById (askedIds input) screening u) :
    ∀ id ∈ screening.allowed, u.hasUser id = true := by
  intro id hid
  have hagrees := ((h.1 id).mp hid).2
  unfold SocialDb.inviteRejection at hagrees
  by_contra hunknown
  rw [if_neg hunknown] at hagrees
  cases hagrees

/-- Once the invitees are screened, what is left to do is to write, and to read the group. -/
theorem addGroupMembers_of_screened {u t : SocialDb} {g : Group} {group : GroupWithRelations}
    {screening : Screening}
    (hfind : s.findGroup input.groupId = some g)
    (hscreening : ((screenMembers env input.invitedById (askedIds input)).run s).result =
      .ok screening)
    (hu : ((screenMembers env input.invitedById (askedIds input)).run s).store = u)
    (hwritten : ((writeInvitations input.invitedById
      (rowsOf env u input (askedIds input) screening.allowed)
      (reviveOf u input (askedIds input) screening.allowed)).run u).result = .ok ())
    (ht : ((writeInvitations input.invitedById
      (rowsOf env u input (askedIds input) screening.allowed)
      (reviveOf u input (askedIds input) screening.allowed)).run u).store = t)
    (hgroupRow : t.findGroupById input.groupId = some group) :
    ((addGroupMembers env input).run s).result = .ok (some
        ⟨group, invitedIds env u input screening.allowed, screening.rejected⟩) ∧
      ((addGroupMembers env input).run s).store = t := by
  subst hu ht
  set u := ((screenMembers env input.invitedById (askedIds input)).run s).store
  obtain ⟨hexisting, hsame⟩ := findExisting_run (s := u) input.groupId (askedIds input)
  have hwrite : ((writeInvitations input.invitedById
      (createRows env input (u.membershipsOf input.groupId (askedIds input)) screening.allowed)
      (membershipsToRevive (u.membershipsOf input.groupId (askedIds input))
        screening.allowed)).run u).result = .ok () := hwritten
  unfold addGroupMembers
  rw [run_bind_ok (p := query _) rfl]
  simp only [run_query, hfind]
  rw [run_bind_ok hscreening, run_bind_ok hexisting, hsame, run_bind_ok hwrite,
    run_bind_ok (p := query _) rfl]
  simp only [run_query, run_pure]
  have hanswer := congrArg (Option.map fun group => InvitedGroup.mk group
    (invitedIds env u input screening.allowed) screening.rejected) hgroupRow
  exact ⟨congrArg Except.ok hanswer, rfl⟩

theorem partitionsInput_of_everyone (hnew : env.New s) (hgroup : s.hasGroup input.groupId = true)
    (hinviter : s.hasUser input.invitedById = true) (heveryone : EveryoneExists s input) :
    PartitionsInput s input ((addGroupMembers env input).run s) := by
  obtain ⟨g, hg, hgid⟩ := SocialDb.exists_of_hasGroup hgroup
  have hfind : s.findGroup input.groupId = some g := by
    rw [← hgid]
    exact SocialDb.findGroup_of_mem hg
  obtain ⟨invitees, relationships, hscreening⟩ :=
    screenMembers_run (ensureUserSettingsForUsers_ok hnew (named_known hinviter heveryone))
  have hmeets : (screenMembers env input.invitedById (askedIds input)).Meets consentContract
      (ScreenedBy input.invitedById (askedIds input)) s :=
    meets_screenMembers env fun _ => ne_of_mem_deduped
  obtain ⟨-, hguar, hscreened⟩ := hmeets.run trivial
  have hscreened := hscreened _ hscreening
  have huntouched := untouched_screenMembers (s := s) env input.invitedById (askedIds input)
  set u := ((screenMembers env input.invitedById (askedIds input)).run s).store with hu
  set screening := screenInvites input.invitedById invitees relationships (askedIds input)
  have hallowedNodup : screening.allowed.Nodup :=
    (nodup_distinctIds _).sublist (screenInvites_sublist _ _ _ _)
  have hrejectedNodup : (screening.rejected.map (·.userId)).Nodup :=
    (nodup_distinctIds _).sublist (screenInvites_rejected _ _ _ _)
  have hinviter' : u.hasUser input.invitedById = true := by
    unfold SocialDb.hasUser at hinviter ⊢
    rw [hguar.same.users]
    exact hinviter
  have hmemberIds : ∀ k, ∀ m ∈ u.members.rows, m.id ≠ env.memberId k := by
    rw [huntouched.2]
    exact hnew.members
  have hgroup' : u.hasGroup input.groupId = true := by
    unfold SocialDb.hasGroup
    rw [huntouched.1]
    exact hgroup
  obtain ⟨hwritten, hrows⟩ := writeInvitations_run hmemberIds hnew.memberId hgroup' hinviter'
    hscreened.allowed_known hscreened.allowed_subset hallowedNodup
  set t := ((writeInvitations input.invitedById
    (rowsOf env u input (askedIds input) screening.allowed)
    (reviveOf u input (askedIds input) screening.allowed)).run u).store with ht
  obtain ⟨group, hgroupRow⟩ : ∃ group, t.findGroupById input.groupId = some group := by
    have hgroups : t.groups = s.groups :=
      ((keepsGroups_writeInvitations _ _ _).run u).trans huntouched.1
    rw [← hgid]
    exact Option.isSome_iff_exists.mp (findGroupById_of_groups hg hgroups)
  obtain ⟨hresult, hstore⟩ :=
    addGroupMembers_of_screened hfind hscreening hu.symm hwritten ht.symm hgroupRow
  refine ⟨_, hresult, ?_, ?_⟩
  · rw [hstore]
    exact hgroupRow
  · rw [hstore]
    exact (partitioned_of_rows hscreened hallowedNodup hrejectedNodup hrows).before hguar.same
      huntouched.2

/-- Somebody who does not exist fails the call. -/
theorem addGroupMembers_unknown (hsettings : SettingsReference s)
    (hgroup : s.hasGroup input.groupId = true) {id : Id} (hid : Named input id) (hblank : id ≠ "")
    (hunknown : s.hasUser id = false) :
    ∃ e, ((addGroupMembers env input).run s).result = .error e := by
  obtain ⟨g, hg, hgid⟩ := SocialDb.exists_of_hasGroup hgroup
  have hfind : s.findGroup input.groupId = some g := by
    rw [← hgid]
    exact SocialDb.findGroup_of_mem hg
  have hasked : id ∈ input.invitedById :: askedIds input :=
    List.mem_cons_of_mem _ (mem_deduped.mpr hid)
  obtain ⟨e, he⟩ : ∃ e, ((ensureUserSettingsForUsers env
      (input.invitedById :: askedIds input)).run s).result = .error e :=
    ensureUserSettingsForUsers_unknown hsettings hasked hblank hunknown
  have hscreening := screenMembers_error he
  refine ⟨e, ?_⟩
  unfold addGroupMembers
  rw [run_bind_ok (p := query _) rfl]
  simp only [run_query, hfind]
  rw [run_bind_error hscreening]

/-- The call splits its list as it is to, exactly when everybody on it exists. -/
theorem addGroupMembers_partitions_iff (hnew : env.New s) (hsettings : SettingsReference s)
    (hgroup : s.hasGroup input.groupId = true) (hinviter : s.hasUser input.invitedById = true) :
    PartitionsInput s input ((addGroupMembers env input).run s) ↔ EveryoneExists s input := by
  constructor
  · intro h id hid hblank
    by_contra hunknown
    rw [Bool.not_eq_true] at hunknown
    obtain ⟨e, he⟩ : ∃ e, ((addGroupMembers env input).run s).result = .error e :=
      addGroupMembers_unknown hsettings hgroup hid hblank hunknown
    obtain ⟨result, hresult, -⟩ := h
    rw [he] at hresult
    cases hresult
  · intro heveryone
    exact partitionsInput_of_everyone hnew hgroup hinviter heveryone

/-- A group of Ana's that Caro has left. Beto's policy is against her. -/
def groupCaroLeft : SocialDb :=
  { reservedBeto with
    groups := ⟨[
      { id := "g1", name := "Cena", createdById := "ana", inviteCode := "C0DE",
        createdAt := 0 }], by decide⟩
    members := ⟨[
      { id := "m1", groupId := "g1", userId := "ana", role := .owner, status := .accepted,
        createdAt := 0 },
      { id := "m2", groupId := "g1", userId := "caro", role := .admin, status := .left,
        createdAt := 0 }], by decide⟩
    group_creator := by decide
    member_group := by decide
    member_user := by decide
    event_group := by decide }

/-- Ids that count. -/
def countingEnv : SocialEnv where
  now := 0
  groupId := ""
  eventId := ""
  memberId k := String.ofList (List.replicate k 'm')
  settingsId k := String.ofList (List.replicate k 's')
  upperCase code := code

theorem ne_counting {id : Id} {letter : Char} (h : id.toList.any (· != letter) = true) (k : Nat) :
    id ≠ String.ofList (List.replicate k letter) := by
  intro heq
  obtain ⟨c, hc, hne⟩ := List.any_eq_true.mp h
  rw [heq, String.toList_ofList] at hc
  rw [List.eq_of_mem_replicate hc, bne_self_eq_false] at hne
  cases hne

theorem counting_inj (letter : Char) (k l : Nat)
    (h : String.ofList (List.replicate k letter) = String.ofList (List.replicate l letter)) :
    k = l := by
  simpa using congrArg List.length (String.ofList_inj.mp h)

theorem countingEnv_new : countingEnv.New groupCaroLeft where
  settings k r hr := by
    have hids : ∀ r ∈ groupCaroLeft.settings.rows, r.id.toList.any (· != 's') = true := by
      decide
    exact ne_counting (hids r hr) k
  settingsId := counting_inj 's'
  members k m hm := by
    have hids : ∀ m ∈ groupCaroLeft.members.rows, m.id.toList.any (· != 'm') = true := by
      decide
    exact ne_counting (hids m hm) k
  memberId := counting_inj 'm'

/-- Ana adds some people to her group. -/
def adding (memberIds : List Id) : AddGroupMembersInput where
  groupId := "g1"
  invitedById := "ana"
  memberIds := memberIds

theorem known_list_is_partitioned : PartitionsInput groupCaroLeft
    (adding ["caro", "beto", "ana", "", "caro"])
    ((addGroupMembers countingEnv (adding ["caro", "beto", "ana", "", "caro"])).run
      groupCaroLeft) := by
  have hsettings : SettingsReference groupCaroLeft := by
    unfold SettingsReference
    decide
  refine (addGroupMembers_partitions_iff countingEnv_new hsettings (by decide)
    (by decide)).mpr ?_
  intro id hid hblank
  have hmem : id ∈ ["caro", "beto", "ana", "", "caro"] := hid.1
  simp only [List.mem_cons, List.not_mem_nil, or_false] at hmem
  rcases hmem with rfl | rfl | rfl | rfl | rfl
  · decide
  · decide
  · decide
  · exact absurd rfl hblank
  · decide

/-- Every list of ids is split, whoever they belong to. -/
def PartitionsEveryList : Prop :=
  ∀ env s input, SocialEnv.New env s → SettingsReference s → s.hasGroup input.groupId = true →
    s.hasUser input.invitedById = true →
      PartitionsInput s input ((addGroupMembers env input).run s)

/-- A list with an id of nobody is not split: the call throws. -/
theorem unknown_member_fails_addGroupMembers : ¬ PartitionsEveryList := by
  intro h
  have hsettings : SettingsReference groupCaroLeft := by
    unfold SettingsReference
    decide
  obtain ⟨result, hresult, -⟩ := h countingEnv groupCaroLeft (adding ["caro", "zoe"])
    countingEnv_new hsettings (by decide) (by decide)
  have hfails : ((addGroupMembers countingEnv (adding ["caro", "zoe"])).run groupCaroLeft).result =
      .error (.database foreignKeyViolation) := by rfl
  rw [hfails] at hresult
  cases hresult

end Feca.Social
