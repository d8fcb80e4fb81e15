import Feca.Social.System

/-! # Invitations need consent

A pending membership is an invitation, and the invitee's policy decides who may
send one. `createGroup` and `addGroupMembers` screen everybody they invite;
`createPlan` invites whoever exists. The contract below says what a call may do
to pending memberships while others run; the screened paths keep it in every
interleaving, `createPlan` whenever the people it names would have agreed.
-/

namespace Feca.Social

open Concurrency Concurrency.Prog Relational

/-- From `s` to `t`, a pending membership was created or revived only with the
consent of its user. -/
structure Consented (s t : SocialDb) : Prop where
  same : SameConsent s t
  kept : ∀ m ∈ s.members.rows, ∃ m' ∈ t.members.rows, m'.id = m.id ∧ m'.userId = m.userId
  pending : ∀ m' ∈ t.members.rows, m'.status = .pending → ∀ inviterId,
    m'.invitedById = some inviterId →
      (∃ m ∈ s.members.rows, m.id = m'.id ∧ m.userId = m'.userId ∧ m.status = .pending ∧
        m.invitedById = some inviterId) ∨ t.mayInvite inviterId m'.userId = true

theorem Consented.refl (s : SocialDb) : Consented s s :=
  ⟨.refl s, fun m hm => ⟨m, hm, rfl, rfl⟩,
    fun m hm hstatus _ hinviter => .inl ⟨m, hm, rfl, rfl, hstatus, hinviter⟩⟩

theorem Consented.trans {s t u : SocialDb} (hst : Consented s t) (htu : Consented t u) :
    Consented s u where
  same := hst.same.trans htu.same
  kept m hm := by
    obtain ⟨m', hm', hid, huser⟩ := hst.kept m hm
    obtain ⟨m'', hm'', hid', huser'⟩ := htu.kept m' hm'
    exact ⟨m'', hm'', hid'.trans hid, huser'.trans huser⟩
  pending m'' hm'' hstatus inviterId hinviter := by
    rcases htu.pending m'' hm'' hstatus inviterId hinviter with ⟨m', hm', hid, huser, hold, hsame⟩ | hnew
    · rcases hst.pending m' hm' hold inviterId hsame with ⟨m, hm, hid', huser', hrest⟩ | hearlier
      · exact .inl ⟨m, hm, hid'.trans hid, huser'.trans huser, hrest⟩
      · exact .inr (by rw [htu.same.mayInvite, ← huser, hearlier])
    · exact .inr hnew

def consentContract : Contract SocialDb where
  inv _ := True
  guar := Consented
  refl := .refl
  trans := .trans

/-! ## Statements -/

theorem SameConsent.of_base {s t : SocialDb} (h : t.base = s.base) : SameConsent s t := by
  simp only [SocialDb.base, Prod.mk.injEq] at h
  obtain ⟨husers, hsettings, hfollows, -, -⟩ := h
  refine ⟨husers, hfollows, fun userId => ?_⟩
  unfold SocialDb.settingsOf
  rw [hsettings]

/-- A store with the same memberships. -/
theorem Consented.of_members {s t : SocialDb} (hsame : SameConsent s t)
    (hmembers : t.members = s.members) : Consented s t := by
  refine ⟨hsame, fun m hm => ⟨m, hmembers ▸ hm, rfl, rfl⟩, fun m hm hstatus _ hinviter => ?_⟩
  exact .inl ⟨m, hmembers ▸ hm, rfl, rfl, hstatus, hinviter⟩

/-- New rows, the pending ones agreed to. -/
theorem Consented.of_created {s t : SocialDb} {new : List GroupMember} (hbase : t.base = s.base)
    (hrows : t.members.rows = s.members.rows ++ new)
    (hnew : ∀ m ∈ new, m.status = .pending → ∀ inviterId, m.invitedById = some inviterId →
      s.mayInvite inviterId m.userId = true) : Consented s t where
  same := .of_base hbase
  kept m hm := ⟨m, by rw [hrows]; exact List.mem_append_left _ hm, rfl, rfl⟩
  pending m hm hstatus inviterId hinviter := by
    rw [hrows, List.mem_append] at hm
    rcases hm with hold | hcreated
    · exact .inl ⟨m, hold, rfl, rfl, hstatus, hinviter⟩
    · right
      rw [(SameConsent.of_base hbase).mayInvite]
      exact hnew m hcreated hstatus inviterId hinviter

/-- An update that leaves nobody pending, or only people who agree. -/
theorem Consented.of_set {s : SocialDb} {p : GroupMember → Bool} {data : MemberData}
    (h : ∀ m ∈ s.members.rows, p m = true → data.status = .pending → ∀ inviterId,
      (m.set data).invitedById = some inviterId → s.mayInvite inviterId m.userId = true) :
    Consented s (s.setMembers p data) where
  same := ⟨rfl, rfl, fun _ => rfl⟩
  kept m hm := by
    refine ⟨_, List.mem_map_of_mem hm, ?_⟩
    split
    · exact ⟨rfl, rfl⟩
    · exact ⟨rfl, rfl⟩
  pending m' hm' hstatus inviterId hinviter := by
    obtain ⟨m, hm, rfl⟩ := List.mem_map.mp hm'
    by_cases hp : p m = true
    · rw [if_pos hp] at hstatus hinviter ⊢
      exact .inr (h m hm hp hstatus inviterId hinviter)
    · rw [if_neg hp] at hstatus hinviter ⊢
      exact .inl ⟨m, hm, rfl, rfl, hstatus, hinviter⟩

section statements

variable {s : SocialDb} {α : Type}

/-- The statements that need no consent, whatever they find. -/
abbrev Harmless (p : SocialProg α) : Prop :=
  p.Always fun s t _ => consentContract.inv s → consentContract.inv t ∧ consentContract.guar s t

theorem harmless_stmt {f : SocialDb → Answer SocialDb SocialEvent Failure α}
    (h : ∀ s, Consented s (f s).store) : Harmless (stmt f) :=
  always_stmt fun s _ => ⟨trivial, h s⟩

theorem harmless_query (read : SocialDb → α) : Harmless (query read) :=
  harmless_stmt fun s => .refl s

theorem harmless_updateMember (id : Id) {data : MemberData} (h : data.status ≠ .pending) :
    Harmless (updateMember id data) := by
  refine harmless_stmt fun s => ?_
  split
  · exact .refl s
  · exact .of_set fun _ _ _ hpending => absurd hpending h

theorem harmless_updateMembers (p : GroupMember → Bool) {data : MemberData}
    (h : data.status ≠ .pending) : Harmless (updateMembers p data) :=
  harmless_stmt fun _ => .of_set fun _ _ _ hpending => absurd hpending h

theorem harmless_createMember {m : GroupMember} (h : m.status ≠ .pending) :
    Harmless (createMember m) := by
  refine harmless_stmt fun s => ?_
  cases hinsert : s.insertMember m with
  | error e => exact .refl s
  | ok t =>
      refine .of_created (SocialDb.insertMember_base hinsert)
        (SocialDb.insertMember_ok hinsert).2.2 fun x hx hpending => ?_
      obtain rfl := List.mem_singleton.mp hx
      exact absurd hpending h

theorem harmless_ensureEach (env : SocialEnv) (ids : List Id) (k : Nat) :
    Harmless (ensureEach env k ids) := by
  induction ids generalizing k with
  | nil => trivial
  | cons userId rest ih =>
      refine always_bind (harmless_stmt fun s => ?_) fun _ => ih (k + 1)
      cases hupsert : s.upsertSettings (settingsRow env k userId) with
      | error e => exact .refl s
      | ok t =>
          obtain ⟨-, -, hmembers, -, -⟩ := SocialDb.upsertSettings_ok hupsert
          exact .of_members (.of_upsertSettings rfl hupsert) hmembers

/-! ## The screened paths -/

/-- The screening decides as the store does when it is over. -/
def ScreenedBy (inviterId : Id) (ids : List Id) (screening : Screening) (t : SocialDb) : Prop :=
  (∀ id, id ∈ screening.allowed ↔ id ∈ ids ∧ t.inviteRejection inviterId id = none) ∧
    ∀ r, r ∈ screening.rejected ↔ r.userId ∈ ids ∧
      t.inviteRejection inviterId r.userId = some r.reason

theorem meets_screenMembers (env : SocialEnv) {inviterId : Id} {ids : List Id}
    (hids : ∀ id ∈ ids, id ≠ inviterId) :
    (screenMembers env inviterId ids).Meets consentContract (ScreenedBy inviterId ids) s := by
  refine meets_bind (harmless_ensureEach env _ 0).meets fun _ s _ _ => ?_
  have hinvitees : (findInvitees ids).Meets consentContract
      (fun invitees t => invitees = t.usersWithSettings ids) s := by
    unfold findInvitees
    split
    · rename_i hnone
      have hempty : s.usersWithSettings [] = [] := by simp [SocialDb.usersWithSettings]
      rw [List.length_eq_zero_iff.mp hnone]
      exact hempty.symm
    · exact meets_query fun t _ _ => rfl
  refine meets_bind hinvitees fun invitees t _ hread => ?_
  have hmaps : (getRelationshipMaps inviterId (invitees.map (·.user.id))).Meets consentContract
      (fun relationships u => SameConsent t u ∧
        relationships = u.relationshipMaps inviterId (invitees.map (·.user.id))) t := by
    unfold getRelationshipMaps
    split
    · rename_i hnone
      exact ⟨.refl t, by simp [SocialDb.relationshipMaps, hnone]⟩
    · exact meets_query fun u htu _ => ⟨htu.same, rfl⟩
  refine meets_bind hmaps ?_
  rintro relationships u - ⟨hsame, rfl⟩
  subst hread
  have hdecides : ∀ id ∈ ids, rejectionOf inviterId (t.usersWithSettings ids)
      (u.relationshipMaps inviterId ((t.usersWithSettings ids).map (·.user.id))) id =
        u.inviteRejection inviterId id := by
    intro id hid
    rw [rejectionOf_eq hsame hid (hids id hid), hsame.inviteRejection]
  refine ⟨fun id => ?_, fun r => ?_⟩
  · rw [mem_screenInvites_allowed]
    exact and_congr_right fun hid => by rw [hdecides id hid]
  · rw [mem_screenInvites_rejected]
    exact and_congr_right fun hid => by rw [hdecides r.userId hid]

/-- Who is not rejected may be invited. -/
theorem ScreenedBy.mayInvite {inviterId : Id} {ids : List Id} {screening : Screening}
    (h : ScreenedBy inviterId ids screening s) {id : Id} (hid : id ∈ screening.allowed) :
    s.mayInvite inviterId id = true := by
  have hnone := ((h.1 id).mp hid).2
  unfold SocialDb.inviteRejection at hnone
  by_contra hrefused
  rw [if_neg hrefused] at hnone
  split at hnone
  · cases hnone
  · cases hnone

/-- A group may be founded with the people who agree to come. -/
theorem meets_founding {find : SocialDb → Id → Option GroupWithRelations} {env : SocialEnv}
    {g : Group} {inviteeIds : List Id} {es : List GroupEvent}
    (h : ∀ id ∈ inviteeIds, s.mayInvite g.createdById id = true) :
    (createGroupWith find g (foundingMembers env g.createdById inviteeIds) es).Meets
      consentContract (fun _ _ => True) s := by
  refine meets_stmt fun t hst _ => ⟨trivial, ?_, fun _ _ => trivial⟩
  cases hcreate : t.createGroupRows g (foundingMembers env g.createdById inviteeIds) es with
  | error e => exact .refl t
  | ok u =>
      dsimp only
      cases find u g.id with
      | none => exact .refl t
      | some row =>
          refine .of_created (SocialDb.createGroupRows_base hcreate)
            (SocialDb.createGroupRows_ok hcreate).2.2.2 fun m hm hpending inviterId hinviter => ?_
          obtain rfl | ⟨-, -, -, hcreator, huser⟩ := mem_foundingMembers hm
          · cases hpending
          · obtain rfl : g.createdById = inviterId := by
              rw [hcreator] at hinviter
              exact Option.some.inj hinviter
            rw [hst.same.mayInvite]
            exact h _ huser

/-- The rejections of a call are those of the store it ends in. -/
def RejectedBy (inviterId : Id) (memberIds : List Id) (rejected : List RejectedInvite)
    (t : SocialDb) : Prop :=
  ∀ r, r ∈ rejected ↔ r.userId ∈ dedupedMemberIds inviterId memberIds ∧
    t.inviteRejection inviterId r.userId = some r.reason

theorem ScreenedBy.rejected {inviterId : Id} {memberIds : List Id} {screening : Screening}
    {t : SocialDb} (h : ScreenedBy inviterId (dedupedMemberIds inviterId memberIds) screening s)
    (hsame : SameConsent s t) : RejectedBy inviterId memberIds screening.rejected t := by
  intro r
  rw [h.2 r, hsame.inviteRejection]

theorem meets_createGroup (env : SocialEnv) (input : CreateGroupInput) :
    (createGroup env input).Meets consentContract
      (fun result => RejectedBy input.createdById input.memberIds result.rejectedInvites) s := by
  refine meets_bind (meets_screenMembers env fun _ => ne_of_mem_deduped) fun _ _ _ hscreened => ?_
  exact meets_bind (meets_founding (g := input.group env) fun _ => hscreened.mayInvite)
    fun _ _ hguar _ => hscreened.rejected hguar.same

theorem meets_reviveEach {invitedById : Id} {ms : List GroupMember}
    (hagree : ∀ m ∈ ms, s.mayInvite invitedById m.userId = true)
    (hstored : ∀ m ∈ ms, ∃ x ∈ s.members.rows, x.id = m.id ∧ x.userId = m.userId) :
    (reviveEach invitedById ms).Meets consentContract (fun _ _ => True) s := by
  induction ms generalizing s with
  | nil => trivial
  | cons m ms ih =>
      rw [List.forall_mem_cons] at hagree hstored
      have hwrite : (updateMember m.id (revived invitedById)).Meets consentContract
          (fun _ _ => True) s := by
        refine meets_stmt fun t hst _ => ⟨trivial, ?_, fun _ _ => trivial⟩
        split
        · exact .refl t
        · refine .of_set fun x hx hid _ inviterId hinviter => ?_
          obtain ⟨y, hy, hyid, hyuser⟩ := hstored.1
          obtain ⟨y', hy', hyid', hyuser'⟩ := hst.kept y hy
          have hxid : x.id = m.id := by simpa using hid
          obtain rfl := t.member_unique hx hy' (hxid.trans (hyid'.trans hyid).symm)
          obtain rfl : invitedById = inviterId := by
            simpa [GroupMember.set, revived] using hinviter
          rw [hst.same.mayInvite, hyuser'.trans hyuser]
          exact hagree.1
      refine meets_bind hwrite fun _ t hst _ => ih (fun x hx => ?_) fun x hx => ?_
      · rw [hst.same.mayInvite]
        exact hagree.2 x hx
      · obtain ⟨y, hy, hid, huser⟩ := hstored.2 x hx
        obtain ⟨y', hy', hid', huser'⟩ := hst.kept y hy
        exact ⟨y', hy', hid'.trans hid, huser'.trans huser⟩

theorem meets_createAny (inviterId : Id) {rows : List GroupMember}
    (hrows : ∀ m ∈ rows, m.invitedById = some inviterId ∧
      s.mayInvite inviterId m.userId = true) :
    (createAny rows).Meets consentContract (fun _ _ => True) s := by
  unfold createAny
  split
  · refine meets_stmt fun t hst _ => ⟨trivial, ?_, fun _ _ => trivial⟩
    cases hinsert : t.insertMembers rows with
    | error e => exact .refl t
    | ok u =>
        obtain ⟨-, -, new, hsub, hnew⟩ := SocialDb.insertMembers_ok hinsert
        refine .of_created (SocialDb.insertMembers_base hinsert) hnew
          fun m hm _ inviterId' hinviter => ?_
        obtain ⟨hby, hagree⟩ := hrows m (hsub.subset hm)
        obtain rfl : inviterId = inviterId' := by
          rw [hby] at hinviter
          exact Option.some.inj hinviter
        rw [hst.same.mayInvite]
        exact hagree
  · trivial

theorem meets_findExisting (groupId : Id) (ids : List Id) :
    (findExisting groupId ids).Meets consentContract
      (fun existing t => SameConsent s t ∧ ∀ m ∈ existing, m ∈ t.members.rows) s := by
  unfold findExisting
  split
  · exact ⟨.refl s, by simp⟩
  · refine meets_stmt fun t hst _ => ⟨trivial, .refl t, fun existing hread => ?_⟩
    cases hread
    exact ⟨hst.same, fun m hm => (List.mem_filter.mp hm).1⟩

theorem meets_writeInvitations {env : SocialEnv} {input : AddGroupMembersInput}
    {existing : List GroupMember} {allowed : List Id}
    (hagree : ∀ id ∈ allowed, s.mayInvite input.invitedById id = true)
    (hstored : ∀ m ∈ existing, m ∈ s.members.rows) :
    (writeInvitations input.invitedById (createRows env input existing allowed)
      (membershipsToRevive existing allowed)).Meets consentContract (fun _ _ => True) s := by
  refine meets_bind (meets_createAny input.invitedById fun m hm => ?_) fun _ t hst _ =>
    meets_reviveEach (fun m hm => ?_) fun m hm => ?_
  · obtain ⟨-, -, -, hby, huser⟩ := mem_createRows hm
    exact ⟨hby, hagree _ huser⟩
  · rw [hst.same.mayInvite]
    exact hagree _ (mem_membershipsToRevive hm).2.1
  · exact hst.kept m (hstored m (mem_membershipsToRevive hm).1)

theorem meets_addGroupMembers (env : SocialEnv) (input : AddGroupMembersInput) :
    (addGroupMembers env input).Meets consentContract (fun answer t => ∀ result,
      answer = some result → RejectedBy input.invitedById input.memberIds result.rejectedInvites t)
        s := by
  refine meets_bind (harmless_query _).meets fun g s _ _ => ?_
  cases g with
  | none => exact fun _ h => by cases h
  | some g =>
      refine meets_bind (meets_screenMembers env fun _ => ne_of_mem_deduped)
        fun screening t _ hscreened => ?_
      refine meets_bind (meets_findExisting _ _) ?_
      rintro existing u - ⟨hsame, hstored⟩
      have hagree : ∀ id ∈ screening.allowed, u.mayInvite input.invitedById id = true := by
        intro id hid
        rw [hsame.mayInvite]
        exact hscreened.mayInvite hid
      refine meets_bind (meets_writeInvitations hagree hstored) fun _ v huv _ => ?_
      refine meets_bind (harmless_query _).meets fun updated w hvw _ result hresult => ?_
      obtain ⟨group, -, rfl⟩ := Option.map_eq_some_iff.mp hresult
      exact hscreened.rejected (hsame.trans (huv.same.trans hvw.same))

/-! ## createPlan -/

/-- Everybody a plan invites would agree: the ids exist and their policies let
the creator invite them. -/
def CreatePlanInput.welcome (s : SocialDb) (input : CreatePlanInput) : Bool :=
  input.inviteeIds.all fun id => !s.hasUser id || s.mayInvite input.createdById id

theorem welcome_same {t : SocialDb} (h : SameConsent s t) (input : CreatePlanInput) :
    input.welcome t = input.welcome s := by
  unfold CreatePlanInput.welcome SocialDb.hasUser
  simp only [h.users, h.mayInvite]

theorem meets_createPlan (env : SocialEnv) {input : CreatePlanInput}
    (h : input.welcome s = true) :
    (createPlan env input).Meets consentContract (fun _ _ => True) s := by
  have hread : (query fun s => s.existingIds input.inviteeIds : SocialProg (List Id)).Meets
      consentContract (fun invitees t => SameConsent s t ∧
        invitees = t.existingIds input.inviteeIds) s :=
    meets_query fun t hst _ => ⟨hst.same, rfl⟩
  refine meets_bind hread ?_
  rintro invitees t - ⟨hsame, rfl⟩
  refine meets_bind (meets_founding (g := input.group env) fun id hid => ?_) fun _ _ _ _ => trivial
  obtain ⟨u, hu, rfl⟩ := List.mem_map.mp hid
  obtain ⟨huser, hinvited⟩ := List.mem_filter.mp hu
  have hwelcome := List.all_eq_true.mp ((welcome_same hsame input).trans h) u.id
    (by simpa using hinvited)
  have hexists : t.hasUser u.id = true := List.any_eq_true.mpr ⟨u, huser, by simp⟩
  show t.mayInvite input.createdById u.id = true
  simpa [hexists] using hwelcome

/-! ## The other paths -/

theorem harmless_joinGroupByCode (env : SocialEnv) (userId : Id) (inviteCode : String) :
    Harmless (joinGroupByCode env userId inviteCode) := by
  refine always_bind (harmless_stmt fun s => .refl s) fun g => ?_
  cases g with
  | none => trivial
  | some g =>
      refine always_bind (always_bind (harmless_stmt fun s => .refl s) fun membership => ?_)
        fun _ => always_bind (harmless_query _) fun _ => trivial
      cases membership with
      | none => exact always_bind (harmless_createMember (by simp [newMember])) fun _ => trivial
      | some m =>
          dsimp only
          split
          · trivial
          · exact always_bind (harmless_updateMember _ (by simp)) fun _ => trivial

theorem harmless_leaveGroup (groupId userId : Id) : Harmless (leaveGroup groupId userId) := by
  refine always_bind (harmless_stmt fun s => .refl s) fun membership => ?_
  cases membership with
  | none => trivial
  | some m =>
      dsimp only
      split
      · trivial
      · split
        · trivial
        · exact always_bind (harmless_updateMember _ (by simp)) fun _ =>
            always_bind (harmless_query _) fun _ => trivial

theorem joinStatus_ne_pending (policy : GroupJoinPolicy) : joinStatus policy ≠ .pending := by
  unfold joinStatus
  split <;> simp

theorem harmless_enterPlan (env : SocialEnv) (group : Group) (userId : Id)
    (existing : Option GroupMember) : Harmless (enterPlan env group userId existing) := by
  cases existing with
  | none =>
      exact always_bind (harmless_createMember (joinStatus_ne_pending _)) fun _ => trivial
  | some m =>
      exact always_bind (harmless_updateMember _ (joinStatus_ne_pending _)) fun _ => trivial

theorem harmless_joinPlan (env : SocialEnv) (groupId userId : Id) :
    Harmless (joinPlan env groupId userId) := by
  refine always_bind (harmless_stmt fun s => .refl s) fun g => ?_
  cases g with
  | none => trivial
  | some g =>
      refine always_bind (harmless_stmt fun s => .refl s) fun existing => always_map _ ?_
      unfold decideJoin
      cases existing with
      | none =>
          dsimp only
          split
          · trivial
          · exact harmless_enterPlan _ _ _ _
      | some m =>
          dsimp only
          split
          · trivial
          · split
            · exact always_bind (harmless_updateMember _ (by simp)) fun _ => trivial
            · split
              · trivial
              · split
                · trivial
                · exact harmless_enterPlan _ _ _ _

theorem harmless_leavePlan (groupId userId : Id) : Harmless (leavePlan groupId userId) := by
  refine always_bind (harmless_stmt fun s => .refl s) fun membership => ?_
  cases membership with
  | none => trivial
  | some m =>
      dsimp only
      split
      · trivial
      · split
        · trivial
        · exact always_bind (harmless_updateMember _ (by simp)) fun _ => trivial

/-! ## The system -/

/-- Whoever the call would invite without asking would agree. -/
def SocialDb.welcomes (s : SocialDb) : SocialCall → Bool
  | .createPlan _ input => input.welcome s
  | _ => true

theorem meets_prog {call : SocialCall} (h : s.welcomes call = true) :
    call.prog.Meets consentContract (fun _ _ => True) s := by
  cases call with
  | createPlan env input =>
      exact meets_bind (meets_createPlan env h) fun _ _ _ _ => trivial
  | createGroup env input =>
      exact meets_bind (meets_createGroup env input) fun _ _ _ _ => trivial
  | addGroupMembers env input =>
      exact meets_bind (meets_addGroupMembers env input) fun _ _ _ _ => trivial
  | joinGroupByCode env userId inviteCode =>
      exact (always_map _ (harmless_joinGroupByCode env userId inviteCode)).meets
  | leaveGroup groupId userId =>
      exact (always_map _ (harmless_leaveGroup groupId userId)).meets
  | joinPlan env groupId userId =>
      exact (always_map _ (harmless_joinPlan env groupId userId)).meets
  | leavePlan groupId userId =>
      exact (always_map _ (harmless_leavePlan groupId userId)).meets
  | decideJoinRequest groupId membershipId approve =>
      refine (always_map _ (harmless_updateMembers _ ?_)).meets
      cases approve <;> simp
  | cancelJoinRequest groupId userId =>
      exact (always_map _ (harmless_updateMembers _ (by simp))).meets

end statements

variable {ι : Type} [DecidableEq ι] {calls : ι → SocialCall} {c : SocialConfig ι}

/-- The step invites nobody without consent. -/
def ConsentedStep (c : SocialConfig ι) (i : ι) : Prop := Consented c.store (c.advance i).store

/-- The call moves in a store where whoever it would invite unasked agrees. -/
def WelcomeStep (calls : ι → SocialCall) (c : SocialConfig ι) (i : ι) : Prop :=
  c.store.welcomes (calls i) = true

instance (calls : ι → SocialCall) (c : SocialConfig ι) (i : ι) :
    Decidable (WelcomeStep calls c i) := by
  unfold WelcomeStep
  infer_instance

theorem welcomes_same {s t : SocialDb} (h : SameConsent s t) (call : SocialCall) :
    t.welcomes call = s.welcomes call := by
  cases call with
  | createPlan env input => exact welcome_same h input
  | _ => rfl

/-- Policies and follows stay as they were, so a call that was welcome at the
beginning still is, and keeps the contract. -/
structure Inviting (s : SocialDb) (calls : ι → SocialCall) (c : SocialConfig ι) : Prop where
  same : SameConsent s c.store
  meets : ∀ j, s.welcomes (calls j) = true →
    (c.calls j).Meets consentContract (fun _ _ => True) c.store

theorem inviting_advance {s : SocialDb} (h : Inviting s calls c) {i : ι}
    (hi : WelcomeStep calls c i) : ConsentedStep c i ∧ Inviting s calls (c.advance i) := by
  have hwelcome : s.welcomes (calls i) = true := by
    rw [← welcomes_same h.same]
    exact hi
  obtain ⟨-, hguar, hnext⟩ := Config.meets_step trivial (h.meets i hwelcome)
  refine ⟨hguar, h.same.trans hguar.same, fun j hj => ?_⟩
  by_cases hij : j = i
  · exact hij ▸ hnext
  · rw [c.advance_calls_of_ne hij]
    exact (h.meets j hj).later hguar

/-- From any store, whatever calls run and however they interleave: as long as
the people plans are created with would agree, every pending membership is
created or revived with consent. -/
theorem consented_of_welcome (s : SocialDb) (calls : ι → SocialCall) (schedule : List ι)
    (h : Config.Heeds (WelcomeStep calls) (begin s calls) schedule) :
    Config.Heeds ConsentedStep (begin s calls) schedule :=
  Config.heeds_of_heeds (I := Inviting s calls) (fun _ _ hc hi => inviting_advance hc hi)
    ⟨.refl s, fun _ hj => meets_prog hj⟩ h

/-! ## A guest who did not agree -/

/-- Beto accepts invitations from mutual followers only, and nobody follows him. -/
def reservedBeto : SocialDb :=
  .ofUsers threeUsers.users
    ⟨[{ id := "s1", userId := "beto", groupInvitePolicy := .mutualsOnly }],
      List.pairwise_singleton _ _⟩ .empty .empty threeUsers.places

/-- Ana creates a plan with a guest. -/
def planWith (guest : Id) : SocialCall :=
  .createPlan (anEnv "g1" ["m1", "m2"])
    { createdById := "ana", date := 10, inviteCode := "C0DE", name := "Cena", placeId := "p1",
      inviteUserIds := some [guest] }

theorem plan_invites_reserved_guest : ¬ Config.Heeds ConsentedStep
    (begin reservedBeto fun _ : Unit => planWith "beto") [(), ()] := by
  rintro ⟨-, hcreated, -⟩
  have hmember : newMember (anEnv "g1" ["m1", "m2"]) "g1" .pending (some "ana") 1 "beto" ∈
      ((begin reservedBeto fun _ : Unit => planWith "beto").run [(), ()]).store.members.rows := by
    decide
  rcases hcreated.pending _ hmember rfl "ana" rfl with ⟨m, hm, -⟩ | hagrees
  · have hnone : ((begin reservedBeto fun _ : Unit => planWith "beto").advance
        ()).store.members.rows = [] := by decide
    rw [hnone] at hm
    cases hm
  · revert hagrees
    decide

theorem plan_invites_willing_guest : Config.Heeds ConsentedStep
    (begin reservedBeto fun _ : Unit => planWith "caro") [(), ()] :=
  consented_of_welcome _ _ _ (by decide)

end Feca.Social
