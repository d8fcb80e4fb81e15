import Feca.Concurrency.Race
import Feca.Plans.SelfJoin

/-! # Concurrent joins

Any number of joins of one user to one public plan. A join looks for a
membership, writes it and announces it in separate statements. The write is the
last statement of the transaction: nobody sees it before, and a second insertion
of the same membership waits for it.
-/

namespace Feca.Social

open Concurrency Concurrency.Prog Relational

variable {ι : Type} {g : Group} {userId : Id} {envs : ι → PlansEnv}

/-! ## What the calls race for -/

/-- A membership that a join leaves as it is. -/
def Standing (policy : GroupJoinPolicy) (status : GroupMemberStatus) : Prop :=
  status = .accepted ∨ (status = .requested ∧ policy = .requestApproval)

/-- The user is in the plan, or has asked to be let in. -/
def Joined (g : Group) (userId : Id) (members : Table GroupMember) : Prop :=
  ∃ m ∈ members.rows, m.groupId = g.id ∧ m.userId = userId ∧ Standing g.joinPolicy m.status

/-- Nobody has the id of a membership that a call is about to create. -/
def Unused (memberId : Id) (s : SocialDb) : Prop := ∀ m ∈ s.members.rows, m.id ≠ memberId

/-- What the other joins leave alone. -/
structure JoinRely (memberId : Id) (s t : SocialDb) : Prop where
  groups : t.groups = s.groups
  users : t.users = s.users
  unused : Unused memberId s → Unused memberId t

/-- A join, or a request to join, is announced. -/
def SocialEvent.announcesJoin : SocialEvent → Bool
  | .published input => input.type == .groupJoined || input.type == .groupJoinRequest
  | _ => false

def joinRace (g : Group) (userId : Id) (envs : ι → PlansEnv) :
    Race ι SocialDb SocialEvent (Table GroupMember) where
  view s := s.members
  done := Joined g userId
  rely i := JoinRely ((envs i).memberId 0)
  refl _ _ := ⟨rfl, rfl, id⟩
  trans h h' := ⟨h'.groups.trans h.groups, h'.users.trans h.users, h'.unused ∘ h.unused⟩
  checks
    | .saw _ => true
    | _ => false
  acts
    | .created _ => true
    | .wrote _ _ => true
    | _ => false
  announces := SocialEvent.announcesJoin

theorem quiet_found (groups : List Group) :
    (joinRace g userId envs).Quiet (groups.map .found) := by
  constructor
  · intro e he
    obtain ⟨group, -, rfl⟩ := List.mem_map.mp he
    rfl
  · rw [List.countP_map]
    exact List.countP_eq_zero.mpr fun _ _ => Bool.false_ne_true

theorem quiet_saw (rows : List GroupMember) : (joinRace g userId envs).Quiet [.saw rows] :=
  ⟨by simp [joinRace], rfl⟩

section performs

variable {i : ι} {phase : Phase} {s : SocialDb}

/-! ## Reading the plan -/

theorem performs_requirePlan {Q : GroupWithRelations → Phase → SocialDb → Prop}
    (hg : g ∈ s.groups.rows)
    (hQ : ∀ plan t, JoinRely ((envs i).memberId 0) s t → plan.toGroup = g → Q plan phase t) :
    (joinRace g userId envs).Performs i Q phase (requirePlan g.id) s := by
  apply Race.performs_bind
  apply Race.performs_query
  intro t hrely _
  have hgt : g ∈ t.groups.rows := by
    rw [hrely.groups]
    exact hg
  obtain ⟨plan, hplan⟩ := Option.isSome_iff_exists.mp (SocialDb.findPlanById_isSome hgt)
  rw [hplan]
  obtain ⟨hstored, hid⟩ := SocialDb.findPlanById_some hplan
  exact hQ plan t hrely (t.group_unique hstored hgt hid)

theorem performs_get (hg : g ∈ s.groups.rows) (hpublic : g.visibility = .«public») :
    (joinRace g userId envs).Performs i Race.IsOver .over
      (PlansService.get (envs i) userId g.id) s := by
  apply Race.performs_bind
  apply performs_requirePlan hg
  intro plan t _ hplan
  have hvisibility : ¬ plan.visibility ≠ .«public» := by
    rw [hplan]
    exact not_not.mpr hpublic
  apply Race.performs_bind
  apply Race.performs_stmt
  intro u _ _
  refine ⟨fun j _ => (joinRace g userId envs).refl j u, .over, _, rfl, .wait rfl (quiet_saw _), ?_⟩
  unfold presentPlan
  rw [if_neg fun h => hvisibility h.1, if_neg fun h => hvisibility h.1]
  apply Race.performs_bind
  apply Race.performs_query
  intro v _ _
  exact Race.performs_pure rfl

/-! ## The announcement -/

theorem announcesJoin_publication (actorId groupId : Id) (name : String) (recipientIds : List Id)
    (result : JoinResult) : SocialEvent.announcesJoin (.published (groupNotification
      (if result.kind = .requested then .groupJoinRequest else .groupJoined) actorId groupId name
        recipientIds [])) = true := by
  by_cases hkind : result.kind = .requested
  · rw [if_pos hkind]
    rfl
  · rw [if_neg hkind]
    rfl

theorem performs_announceJoin {name : String} {result : JoinResult} (hg : g ∈ s.groups.rows)
    (hphase : phase = if result.changed then .announcing else .over) :
    (joinRace g userId envs).Performs i (fun _ phase t => phase = .over ∧ g ∈ t.groups.rows) phase
      (announceJoin userId g.id name result) s := by
  unfold announceJoin
  by_cases hchanged : result.changed = true
  · rw [if_pos hchanged] at hphase ⊢
    subst hphase
    apply Race.performs_bind
    apply Race.performs_query
    intro t hrely _
    have hgt : g ∈ t.groups.rows := by
      rw [hrely.groups]
      exact hg
    apply Race.performs_stmt
    intro u hrely _
    have honce := List.countP_cons_of_pos (l := [])
      (announcesJoin_publication userId g.id name ((t.adminIds g.id).filter (· != userId)) result)
    refine ⟨fun j _ => (joinRace g userId envs).refl j u, .over, (), rfl,
      .announce rfl (by simp [joinRace]) honce, rfl, ?_⟩
    rw [hrely.groups]
    exact hgt
  · rw [if_neg hchanged] at hphase ⊢
    exact Race.performs_pure ⟨hphase, hg⟩

/-! ## The membership -/

theorem joined_of_find {m : GroupMember} (hread : s.findMembership g.id userId = some m)
    (hstanding : Standing g.joinPolicy m.status) : Joined g userId s.members := by
  obtain ⟨hm, hgroup, huser⟩ := SocialDb.findMembership_some hread
  exact ⟨m, hm, hgroup, huser, hstanding⟩

theorem standing_joinStatus (hpolicy : g.joinPolicy ≠ .inviteOnly) :
    Standing g.joinPolicy (joinStatus g.joinPolicy) := by
  cases hp : g.joinPolicy with
  | «open» => exact .inl rfl
  | inviteOnly => exact absurd hp hpolicy
  | requestApproval => exact .inr ⟨rfl, rfl⟩

theorem joinKind_ne_denied (policy : GroupJoinPolicy) : joinKind policy ≠ .denied := by
  cases policy <;> decide

/-- A standing membership stays as it is, and nothing is announced. -/
theorem decideJoin_standing (env : SocialEnv) {m : GroupMember}
    (hstanding : Standing g.joinPolicy m.status) : ∃ result : JoinResult,
      decideJoin env g userId (some m) = pure result ∧ result.changed = false ∧
        result.kind ≠ .denied := by
  unfold decideJoin
  rcases hstanding with haccepted | ⟨hrequested, hpolicy⟩
  · exact ⟨_, if_pos haccepted, rfl, by simp⟩
  · refine ⟨⟨false, .requested, some m⟩, ?_, rfl, by simp⟩
    simp [hrequested, hpolicy]

theorem decideJoin_entering (env : SocialEnv) {existing : Option GroupMember}
    (hpolicy : g.joinPolicy ≠ .inviteOnly)
    (hnot : ∀ m, existing = some m → ¬ Standing g.joinPolicy m.status) :
    decideJoin env g userId existing = enterPlan env g userId existing := by
  unfold decideJoin
  cases existing with
  | none => simp [hpolicy]
  | some m =>
      have haccepted : m.status ≠ .accepted := fun h => hnot m rfl (.inl h)
      have hrequested : ¬ (m.status = .requested ∧ g.joinPolicy = .requestApproval) :=
        fun h => hnot m rfl (.inr h)
      simp [hpolicy, haccepted, hrequested]

/-- The others keep their fresh ids when a membership is rewritten. -/
theorem joinRely_setMembers (memberId : Id) (p : GroupMember → Bool) (data : MemberData) :
    JoinRely memberId s (s.setMembers p data) where
  groups := rfl
  users := rfl
  unused hunused m hm := by
    rw [SocialDb.setMembers_rows] at hm
    obtain ⟨x, hx, rfl⟩ := List.mem_map.mp hm
    split
    · rw [GroupMember.set_id]
      exact hunused x hx
    · exact hunused x hx

theorem joinRely_insertMember {t : SocialDb} {m : GroupMember} {memberId : Id}
    (h : s.insertMember m = .ok t) (hid : m.id ≠ memberId) : JoinRely memberId s t := by
  obtain ⟨husers, hgroups, hrows⟩ := SocialDb.insertMember_ok h
  refine ⟨hgroups, husers, fun hunused x hx => ?_⟩
  rw [hrows] at hx
  rcases List.mem_append.mp hx with hx | hx
  · exact hunused x hx
  · rw [List.mem_singleton.mp hx]
    exact hid

/-- The write of a join, from the store its read has seen. -/
theorem performs_enterPlan {existing : Option GroupMember} (hg : g ∈ s.groups.rows)
    (huser : s.hasUser userId = true) (hunused : Unused ((envs i).memberId 0) s)
    (hdistinct : ∀ j, j ≠ i → (envs i).memberId 0 ≠ (envs j).memberId 0)
    (hpolicy : g.joinPolicy ≠ .inviteOnly)
    (hread : s.findMembership g.id userId = existing) :
    (joinRace g userId envs).Performs i
      (fun result phase t => phase = .announcing ∧ result.changed = true ∧
        result.kind ≠ .denied ∧ g ∈ t.groups.rows) .acting
      (enterPlan (envs i).toSocialEnv g userId existing) s := by
  cases existing with
  | some m =>
      obtain ⟨hm, hgroup, huserId⟩ := SocialDb.findMembership_some hread
      apply Race.performs_bind
      apply Race.performs_stmt
      intro t hrely hview
      have hview : t.members = s.members := hview rfl
      have hmt : m ∈ t.members.rows := by
        rw [hview]
        exact hm
      let data : MemberData := { status := joinStatus g.joinPolicy, role := some .member }
      have hrun := (run_stmt _ t).symm.trans (updateMember_run hmt data)
      have hset := mem_setMembers hmt data
      rw [hrun]
      refine ⟨fun j _ => joinRely_setMembers _ _ _, .announcing, m.set data, rfl, ?_, ?_⟩
      · apply Race.Moves.act
        · exact ⟨m.set data, hset, hgroup, huserId, standing_joinStatus hpolicy⟩
        · exact ⟨_, List.mem_singleton_self _, rfl⟩
        · rfl
      · refine Race.performs_pure ⟨rfl, rfl, joinKind_ne_denied _, ?_⟩
        show g ∈ t.groups.rows
        rw [hrely.groups]
        exact hg
  | none =>
      apply Race.performs_bind
      apply Race.performs_stmt
      intro t hrely hview
      have hview : t.members = s.members := hview rfl
      let m := newMember (envs i).toSocialEnv g.id (joinStatus g.joinPolicy) none 0 userId
      have hgt : g ∈ t.groups.rows := by
        rw [hrely.groups]
        exact hg
      have hfree : ∀ x ∈ t.members.rows, conflicts x m = false := by
        intro x hx
        have hid := hrely.unused hunused x hx
        rw [hview] at hx
        have hother := SocialDb.findMembership_none hread x hx
        simp only [m, conflicts, newMember, Bool.or_eq_false_iff, Bool.and_eq_false_iff,
          beq_eq_false_iff_ne]
        exact ⟨hid, or_iff_not_imp_left.mpr fun hgroup => hother (not_not.mp hgroup)⟩
      have husert : t.hasUser userId = true := by
        unfold SocialDb.hasUser
        rw [hrely.users]
        exact huser
      obtain ⟨u, hinsert⟩ := SocialDb.insertMember_isOk (m := m)
        (List.any_eq_true.mpr ⟨g, hgt, by simp [m, newMember]⟩) husert rfl hfree
      obtain ⟨-, hgroups, hrows⟩ := SocialDb.insertMember_ok hinsert
      have hm : m ∈ u.members.rows := by
        rw [hrows]
        exact List.mem_append_right _ List.mem_cons_self
      rw [hinsert]
      refine ⟨fun j hj => joinRely_insertMember hinsert (hdistinct j hj), .announcing, m, rfl, ?_, ?_⟩
      · apply Race.Moves.act
        · exact ⟨m, hm, rfl, rfl, standing_joinStatus hpolicy⟩
        · exact ⟨_, List.mem_singleton_self _, rfl⟩
        · rfl
      · refine Race.performs_pure ⟨rfl, rfl, joinKind_ne_denied _, ?_⟩
        show g ∈ u.groups.rows
        rw [hgroups]
        exact hgt

theorem performs_joinPlan (hg : g ∈ s.groups.rows) (huser : s.hasUser userId = true)
    (hunused : Unused ((envs i).memberId 0) s)
    (hdistinct : ∀ j, j ≠ i → (envs i).memberId 0 ≠ (envs j).memberId 0)
    (hpolicy : g.joinPolicy ≠ .inviteOnly) :
    (joinRace g userId envs).Performs i
      (fun r phase t => ∃ result, r = some result ∧ result.kind ≠ .denied ∧ g ∈ t.groups.rows ∧
        phase = if result.changed then .announcing else .over) .checking
      (joinPlan (envs i).toSocialEnv g.id userId) s := by
  apply Race.performs_bind
  apply Race.performs_stmt
  intro t hrely _
  have hgt : g ∈ t.groups.rows := by
    rw [hrely.groups]
    exact hg
  dsimp only
  rw [SocialDb.findGroup_of_mem hgt]
  refine ⟨fun j _ => (joinRace g userId envs).refl j t, .checking, _, rfl,
    .wait rfl (quiet_found [g]), ?_⟩
  apply Race.performs_bind
  apply Race.performs_stmt
  intro u hrely' _
  have hgu : g ∈ u.groups.rows := by
    rw [hrely'.groups]
    exact hgt
  have husert : u.hasUser userId = true := by
    unfold SocialDb.hasUser
    rw [hrely'.users, hrely.users]
    exact huser
  refine ⟨fun j _ => (joinRace g userId envs).refl j u, ?_⟩
  by_cases hjoined : Joined g userId u.members
  · obtain ⟨m, hm, hgroup, huserId, hstanding⟩ := hjoined
    have hread : u.findMembership g.id userId = some m := by
      rw [← hgroup, ← huserId]
      exact SocialDb.findMembership_of_mem hm
    refine ⟨.over, _, rfl, .found rfl (quiet_saw _) ⟨m, hm, hgroup, huserId, hstanding⟩, ?_⟩
    obtain ⟨result, hdecide, hchanged, hkind⟩ : ∃ result : JoinResult,
        decideJoin (envs i).toSocialEnv g userId (some m) = pure result ∧ result.changed = false ∧
          result.kind ≠ .denied := decideJoin_standing _ hstanding
    rw [hread, hdecide]
    exact Race.performs_pure ⟨result, rfl, hkind, hgu, by rw [if_neg (by simp [hchanged])]⟩
  · refine ⟨.acting, _, rfl, .missed rfl (quiet_saw _) hjoined ⟨_, List.mem_singleton_self _, rfl⟩, ?_⟩
    rw [decideJoin_entering _ hpolicy fun m hread hstanding =>
      hjoined (joined_of_find hread hstanding)]
    apply Race.performs_bind
    apply (performs_enterPlan hgu husert (hrely'.unused (hrely.unused hunused)) hdistinct hpolicy
      rfl).mono
    intro result phase v hpost
    obtain ⟨rfl, hchanged, hkind, hgv⟩ := hpost
    exact Race.performs_pure ⟨result, rfl, hkind, hgv, by rw [if_pos hchanged]⟩

theorem performs_join (hg : g ∈ s.groups.rows) (huser : s.hasUser userId = true)
    (hunused : Unused ((envs i).memberId 0) s)
    (hdistinct : ∀ j, j ≠ i → (envs i).memberId 0 ≠ (envs j).memberId 0)
    (hpolicy : g.joinPolicy ≠ .inviteOnly) (hpublic : g.visibility = .«public») :
    (joinRace g userId envs).Performs i Race.IsOver .checking
      (PlansService.join (envs i) userId g.id) s := by
  apply Race.performs_bind
  apply performs_requirePlan hg
  intro plan t hrely _
  have hgt : g ∈ t.groups.rows := by
    rw [hrely.groups]
    exact hg
  have husert : t.hasUser userId = true := by
    unfold SocialDb.hasUser
    rw [hrely.users]
    exact huser
  apply Race.performs_bind
  apply (performs_joinPlan hgt husert (hrely.unused hunused) hdistinct hpolicy).mono
  intro r phase u hpost
  obtain ⟨result, rfl, hkind, hgu, hphase⟩ := hpost
  dsimp only
  rw [if_neg hkind]
  apply Race.performs_bind
  apply (performs_announceJoin hgu hphase).mono
  intro _ phase v hpost
  obtain ⟨rfl, hgv⟩ := hpost
  exact performs_get hgv hpublic

end performs

/-! ## Any number of joins -/

abbrev JoinConfig (ι : Type) := Config ι SocialDb SocialEvent Failure PlanView

def beginJoins (s : SocialDb) (g : Group) (userId : Id) (envs : ι → PlansEnv) : JoinConfig ι :=
  ⟨s, fun i => PlansService.join (envs i) userId g.id, []⟩

/-- The memberships of the user in the plan. -/
def membershipsIn (g : Group) (userId : Id) (s : SocialDb) : List GroupMember :=
  s.members.rows.filter fun m => m.groupId == g.id && m.userId == userId

/-- How often a join, or a request to join, has been announced. -/
def joinNotifications (c : JoinConfig ι) : Nat :=
  c.trace.countP fun x => x.2.announcesJoin

/-- No call fails, the user gets one membership, and one notification says so. -/
structure JoinsSafely (g : Group) (userId : Id) (c : JoinConfig ι) : Prop where
  succeeds : ∀ i e, c.calls i ≠ .fail e
  row : ∀ i, (c.calls i).ended = true → (membershipsIn g userId c.store).length = 1
  atMostOnce : joinNotifications c ≤ 1
  once : Nonempty ι → (∀ j, (c.calls j).ended = true) → joinNotifications c = 1

/-- The calls generate ids of their own, which no membership has. -/
structure FreshMembers (s : SocialDb) (envs : ι → PlansEnv) : Prop where
  unused : ∀ i, Unused ((envs i).memberId 0) s
  distinct : ∀ i j, j ≠ i → (envs i).memberId 0 ≠ (envs j).memberId 0

section runs

variable [DecidableEq ι] {s : SocialDb}

theorem one_membership {s : SocialDb} (h : Joined g userId s.members) :
    (membershipsIn g userId s).length = 1 := by
  obtain ⟨m, hm, hgroup, huser, -⟩ := h
  apply Table.length_filter_eq_one hm (by simp [hgroup, huser])
  intro a _ b _ ha hb
  simp only [Bool.and_eq_true, beq_iff_eq] at ha hb
  simp [conflicts, ha.1, ha.2, hb.1, hb.2]

/-- Joins that write only while no other one has looked and may still write. -/
theorem joins_safely (hg : g ∈ s.groups.rows) (hpublic : g.visibility = .«public»)
    (hpolicy : g.joinPolicy ≠ .inviteOnly) (huser : s.hasUser userId = true)
    (hfresh : FreshMembers s envs) (hout : ¬ Joined g userId s.members) {schedule : List ι}
    (heeds : Config.Heeds (joinRace g userId envs).Careful (beginJoins s g userId envs) schedule) :
    JoinsSafely g userId ((beginJoins s g userId envs).run schedule) := by
  have hbegin : (joinRace g userId envs).Running (beginJoins s g userId envs) fun _ => .checking :=
    Race.running_begin (fun i => performs_join hg huser (hfresh.unused i) (hfresh.distinct i)
      hpolicy hpublic) hout
  obtain ⟨phase, hrunning⟩ := Race.running_run hbegin heeds
  constructor
  · exact hrunning.not_failed
  · exact fun _ hended => one_membership (hrunning.done_of_ended hended)
  · exact hrunning.announcements_le
  · intro hnonempty hended
    obtain ⟨i⟩ := hnonempty
    exact hrunning.announced_of_ended i hended

end runs

/-! ## Two joins -/

/-- Ana's public plan, open to everybody. -/
def anOpenPlan : SocialDb :=
  ((SocialCall.createPlan (anEnv "g1" ["m1"]) (aPublicPlan "C0DE" 10)).prog.run threeUsers).store

/-- The row of her plan. -/
def anasOpenPlan : Group where
  id := "g1"
  name := "Merienda"
  createdById := "ana"
  inviteCode := "C0DE"
  visibility := .«public»
  joinPolicy := .«open»
  createdAt := 0

/-- Beto joins it twice. -/
def betosJoins : Bool → PlansEnv
  | false => aPlansEnv "m2"
  | true => aPlansEnv "m3"

/-- One after the other, the second finds what the first has written. -/
theorem second_join_finds_the_first :
    anasOpenPlan ∈ anOpenPlan.groups.rows ∧ JoinsSafely anasOpenPlan "beto"
      ((beginJoins anOpenPlan anasOpenPlan "beto" betosJoins).run
        (List.replicate 9 false ++ List.replicate 6 true)) := by
  have hapart : Config.Heeds (joinRace anasOpenPlan "beto" betosJoins).Apart
      (beginJoins anOpenPlan anasOpenPlan "beto" betosJoins)
      (List.replicate 9 false ++ List.replicate 6 true) := by decide
  have hfresh : FreshMembers anOpenPlan betosJoins := by
    constructor
    · intro i
      cases i with
      | false => unfold Unused; decide
      | true => unfold Unused; decide
    · decide
  have hout : ¬ Joined anasOpenPlan "beto" anOpenPlan.members := by
    intro hjoined
    obtain ⟨m, hm, -, huser, -⟩ := hjoined
    have hothers : ∀ m ∈ anOpenPlan.members.rows, m.userId ≠ "beto" := by decide
    exact hothers m hm huser
  have hplan : anasOpenPlan ∈ anOpenPlan.groups.rows := by decide
  exact ⟨hplan, joins_safely hplan rfl (by decide) (by decide) hfresh hout
    (hapart.mono fun _ _ => Race.Apart.careful)⟩

/-- Both look before either writes: the second insertion fails. -/
theorem second_join_fails : ¬ JoinsSafely anasOpenPlan "beto"
    ((beginJoins anOpenPlan anasOpenPlan "beto" betosJoins).run
      [false, true, false, true, false, true, false, true]) := by
  intro hsafe
  have hfailed : (((beginJoins anOpenPlan anasOpenPlan "beto" betosJoins).run
      [false, true, false, true, false, true, false, true]).calls true).failed = true := by decide
  obtain ⟨e, hcall⟩ := exists_of_failed hfailed
  exact hsafe.succeeds true e hcall

end Feca.Social
