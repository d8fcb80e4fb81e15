import Feca.Social.Permissions

/-! # What a call may write

The memberships are the state the calls share. A call writes one over because
of the row an earlier statement of the same call read, or because the statement
itself checks the row; the law below says so of every statement, whatever other
calls did to the store since. It mentions no schedule: the invariants of the
system are derived from it and from nothing else about the calls.
-/

namespace Feca.Social

open Concurrency Concurrency.Prog Relational

/-- The statuses a call writes over others, and those it starts rows with, in a
group of a given join policy. -/
structure MembershipRules where
  moves : GroupJoinPolicy → GroupMemberStatus → GroupMemberStatus → Bool
  starts : GroupJoinPolicy → GroupMemberStatus → Bool

/-- The call has read the row. -/
def Seen (past : List SocialEvent) (r : GroupMember) : Prop := ∃ rows, .saw rows ∈ past ∧ r ∈ rows

/-- The call has not written the row yet. -/
def Unwritten (past : List SocialEvent) (id : Id) : Prop := ∀ x x', .wrote x x' ∈ past → x.id ≠ id

/-- The policy is the one the call has found, if it has found any. -/
def Consistent (past : List SocialEvent) (groupId : Id) (policy : GroupJoinPolicy) : Prop :=
  ∀ g, .found g ∈ past → g.id = groupId → g.joinPolicy = policy

/-- The row `r` lets the call write the status. An owner's row lets it only when
it is not accepted. -/
structure Grounds (rules : MembershipRules) (past : List SocialEvent) (r : GroupMember)
    (status : GroupMemberStatus) : Prop where
  legal : ∀ policy, Consistent past r.groupId policy → rules.moves policy r.status status = true
  owner : r.role = .owner → r.status ≠ .accepted

/-- A write has its grounds in the row itself or in what the call saw of it; it
writes each row once, and makes nobody owner. -/
structure Justified (rules : MembershipRules) (past : List SocialEvent) (m m' : GroupMember) :
    Prop where
  once : Unwritten past m.id
  role : m'.role = m.role ∨ m'.role = .member
  grounds : ∃ r, (r = m ∨ Seen past r) ∧ r.id = m.id ∧ Grounds rules past r m'.status

/-- The law of every statement of a call with the given rules. -/
structure CallLaw (rules : MembershipRules) (past : List SocialEvent) (s t : SocialDb)
    (es : List SocialEvent) : Prop where
  accounted : Accounted s t es
  justified : ∀ m m', .wrote m m' ∈ es → Justified rules past m m'
  starts : ∀ m, .created m ∈ es → ∀ policy, Consistent past m.groupId policy →
    rules.starts policy m.status = true

variable {rules : MembershipRules} {past future : List SocialEvent} {α : Type}

theorem Seen.later {r : GroupMember} (h : past <+: future) (hr : Seen past r) : Seen future r := by
  obtain ⟨rows, hrows, hmem⟩ := hr
  exact ⟨rows, h.subset hrows, hmem⟩

theorem Consistent.earlier {groupId : Id} {policy : GroupJoinPolicy} (h : past <+: future)
    (hfuture : Consistent future groupId policy) : Consistent past groupId policy :=
  fun g hg => hfuture g (h.subset hg)

theorem Grounds.later {r : GroupMember} {status : GroupMemberStatus} (h : past <+: future)
    (hr : Grounds rules past r status) : Grounds rules future r status :=
  ⟨fun policy hpolicy => hr.legal policy (hpolicy.earlier h), hr.owner⟩

theorem CallLaw.refl (rules : MembershipRules) (past : List SocialEvent) (s : SocialDb) :
    CallLaw rules past s s [] :=
  ⟨.refl s, by simp, by simp⟩

/-! ## Statements that write no membership -/

/-- Neither a row written nor one created, and none of the events says so. -/
structure Quiet (s t : SocialDb) (es : List SocialEvent) : Prop where
  accounted : Accounted s t es
  wrote : ∀ m m', .wrote m m' ∉ es
  created : ∀ m, .created m ∉ es

theorem Quiet.silent {s t : SocialDb} {es : List SocialEvent} (hgroups : t.groups = s.groups)
    (hmembers : t.members = s.members)
    (hes : ∀ e ∈ es, (∃ x, e = .threw x) ∨ ∃ input, e = .published input) : Quiet s t es := by
  have hnot : ∀ e ∈ es, (∀ rows, e ≠ .saw rows) ∧ (∀ g, e ≠ .found g) ∧
      (∀ m m', e ≠ .wrote m m') ∧ ∀ m, e ≠ .created m := by
    intro e he
    rcases hes e he with ⟨x, rfl⟩ | ⟨input, rfl⟩
    · simp
    · simp
  have hwrote : ∀ m m', .wrote m m' ∉ es := fun m m' h => (hnot _ h).2.2.1 m m' rfl
  have hcreated : ∀ m, .created m ∉ es := fun m h => (hnot _ h).2.2.2 m rfl
  exact ⟨.silent hgroups hmembers (fun rows h => absurd rfl ((hnot _ h).1 rows))
    (fun g h => absurd rfl ((hnot _ h).2.1 g)) hwrote hcreated, hwrote, hcreated⟩

theorem Quiet.callLaw {s t : SocialDb} {es : List SocialEvent} (h : Quiet s t es) :
    CallLaw rules past s t es :=
  ⟨h.accounted, fun m m' hm => absurd hm (h.wrote m m'), fun m hm => absurd hm (h.created m)⟩

/-- After quiet statements the call still has written nothing. -/
theorem follows_of_quiet {p : SocialProg α} (hp : p.Always Quiet) (h : ∀ id, Unwritten past id) :
    p.Follows (CallLaw rules) (fun _ later => ∀ id, Unwritten later id) past := by
  induction p generalizing past with
  | done a => exact h
  | fail e => trivial
  | step exec next ih =>
      intro s
      refine ⟨(hp s).1.callLaw, ih s (hp s).2 fun id x x' hx => ?_⟩
      rw [List.mem_append] at hx
      rcases hx with hx | hx
      · exact h id x x' hx
      · exact absurd hx ((hp s).1.wrote x x')

/-- Quiet statements after the writes of a call. -/
theorem follows_of_quiet_last {p : SocialProg α} (hp : p.Always Quiet) :
    p.Follows (CallLaw rules) (fun _ _ => True) past :=
  hp.follows fun _ _ _ _ _ => Quiet.callLaw

theorem quiet_query (read : SocialDb → α) : (query read : SocialProg α).Always Quiet :=
  always_stmt fun _ => .silent rfl rfl (by simp)

theorem quiet_ensureUserSettings (row : UserSettings) :
    (ensureUserSettings row).Always Quiet := by
  refine always_stmt fun s => ?_
  split
  · rename_i t ht
    obtain ⟨-, hgroups, hmembers, -, -⟩ := SocialDb.upsertSettings_ok ht
    exact .silent hgroups hmembers (by simp)
  · exact .silent rfl rfl (by simp)

theorem quiet_ensureEach (env : SocialEnv) (ids : List Id) (k : Nat) :
    (ensureEach env k ids).Always Quiet := by
  induction ids generalizing k with
  | nil => trivial
  | cons userId rest ih =>
      exact always_bind (quiet_ensureUserSettings _) fun _ => ih (k + 1)

theorem quiet_getRelationshipMaps (viewerId : Id) (userIds : List Id) :
    (getRelationshipMaps viewerId userIds).Always Quiet := by
  unfold getRelationshipMaps
  split
  · trivial
  · exact quiet_query _

/-! ## Reads -/

theorem follows_selectGroup {find : SocialDb → Option Group} {P : Group → Prop}
    (hstored : ∀ s g, find s = some g → g ∈ s.groups.rows ∧ P g)
    (h : ∀ id, Unwritten past id) : (selectGroup find).Follows (CallLaw rules)
      (fun r later => (∀ id, Unwritten later id) ∧ ∀ g, r = some g → .found g ∈ later ∧ P g)
      past := by
  refine follows_stmt (fun s => Quiet.callLaw ?_) fun s r hr => ⟨fun id x x' hx => ?_, ?_⟩
  · cases hfind : find s with
    | none => exact .silent rfl rfl (by simp)
    | some g =>
        refine ⟨.silent rfl rfl (by simp) (fun x hx => ?_) (by simp) (by simp), by simp, by simp⟩
        obtain rfl : x = g := by simpa using hx
        exact (hstored s x hfind).1
  · rw [List.mem_append] at hx
    exact hx.elim (h id x x') fun hx => by simp at hx
  · intro g hg
    subst hg
    have hfind : find s = some g := by simpa using hr
    exact ⟨List.mem_append_right _ (by simp [hfind]), (hstored s g hfind).2⟩

/-- A read of memberships is quiet, and what it returns has been seen. -/
theorem follows_saw {read : SocialDb → α} {rows : SocialDb → List GroupMember} {P : α → Prop}
    (hrows : ∀ s, ∀ r ∈ rows s, r ∈ s.members.rows) (hP : ∀ s, P (read s))
    (h : ∀ id, Unwritten past id) :
    (stmt fun s => ⟨s, [.saw (rows s)], .ok (read s)⟩ : SocialProg α).Follows (CallLaw rules)
      (fun a later => (∀ id, Unwritten later id) ∧ P a ∧
        ∃ s, a = read s ∧ ∀ r ∈ rows s, Seen later r) past := by
  refine follows_stmt (fun s => Quiet.callLaw ?_) fun s a ha => ⟨fun id x x' hx => ?_, ?_, s, ?_, ?_⟩
  · exact ⟨.silent rfl rfl (by simpa using hrows s) (by simp) (by simp) (by simp), by simp, by simp⟩
  · rw [List.mem_append] at hx
    exact hx.elim (h id x x') fun hx => by simp at hx
  · cases ha
    exact hP s
  · cases ha
    rfl
  · exact fun r hr => ⟨rows s, List.mem_append_right _ List.mem_cons_self, hr⟩

theorem follows_findMembership {groupId userId : Id} (h : ∀ id, Unwritten past id) :
    (findMembership groupId userId).Follows (CallLaw rules)
      (fun r later => (∀ id, Unwritten later id) ∧ ∀ m, r = some m → Seen later m ∧
        m.groupId = groupId ∧ m.userId = userId) past := by
  refine (follows_saw (P := fun _ => True) (fun s r hr => ?_) (fun _ => trivial) h).mono ?_
  · exact (SocialDb.findMembership_some (by simpa using hr)).1
  · rintro a later ⟨hunwritten, -, s, rfl, hseen⟩
    refine ⟨hunwritten, fun m hm => ⟨hseen m (by simp [hm]), ?_⟩⟩
    exact (SocialDb.findMembership_some hm).2

/-! ## Writes -/

/-- An update by id is justified by the row the call saw. -/
theorem follows_updateMember {r : GroupMember} {data : MemberData} (hseen : Seen past r)
    (hgrounds : Grounds rules past r data.status) (hunwritten : Unwritten past r.id)
    (hrole : data.role = none ∨ data.role = some .member) :
    (updateMember r.id data).Follows (CallLaw rules) (fun _ later =>
      ∀ x x', .wrote x x' ∈ later → .wrote x x' ∈ past ∨ x.id = r.id) past := by
  refine follows_stmt (fun s => ?_) fun s a ha x x' hx => ?_
  · cases hfind : s.members.rows.find? (·.id == r.id) with
    | none => exact Quiet.callLaw (.silent rfl rfl (by simp))
    | some m =>
        have hid : m.id = r.id := by simpa using List.find?_some hfind
        refine ⟨accounted_updateMember hfind data, fun x x' hx => ?_, by simp⟩
        obtain ⟨rfl, rfl⟩ : x = m ∧ x' = m.set data := by simpa using hx
        refine ⟨hid ▸ hunwritten, ?_, r, .inr hseen, hid.symm, hgrounds⟩
        rcases hrole with hrole | hrole
        · left
          simp [hrole]
        · right
          simp [hrole]
  · rw [List.mem_append] at hx
    refine hx.imp_right fun hx => ?_
    cases hfind : s.members.rows.find? (·.id == r.id) with
    | none => simp [hfind] at hx
    | some m =>
        have hid : m.id = r.id := by simpa using List.find?_some hfind
        obtain ⟨rfl, rfl⟩ : x = m ∧ x' = m.set data := by simpa [hfind] using hx
        exact hid

/-- An update that checks the status in its own `where` clause. -/
theorem follows_updateMembers {p : GroupMember → Bool} {data : MemberData}
    (hp : ∀ m, p m = true → Grounds rules past m data.status) (hrole : data.role = none)
    (h : ∀ id, Unwritten past id) :
    (updateMembers p data).Follows (CallLaw rules) (fun _ _ => True) past := by
  refine follows_stmt (fun s => ⟨accounted_setMembers s p data, fun m m' hm => ?_, by simp⟩)
    fun _ _ _ => trivial
  obtain ⟨x, hx, heq⟩ := List.mem_map.mp hm
  obtain ⟨rfl, rfl⟩ := SocialEvent.wrote.inj heq
  exact ⟨h x.id, .inl (by simp [hrole]), x, .inl rfl, rfl, hp x (List.mem_filter.mp hx).2⟩

theorem follows_createMember {m : GroupMember} (hrole : m.role = .member)
    (hstarts : ∀ policy, Consistent past m.groupId policy → rules.starts policy m.status = true) :
    (createMember m).Follows (CallLaw rules) (fun _ _ => True) past := by
  refine follows_stmt (fun s => ?_) fun _ _ _ => trivial
  cases hinsert : s.insertMember m with
  | error e => exact Quiet.callLaw (.silent rfl rfl (by simp))
  | ok t =>
      obtain ⟨-, hgroups, hrows⟩ := SocialDb.insertMember_ok hinsert
      refine ⟨?_, by simp, fun x hx => ?_⟩
      · exact accounted_createMembers hgroups hrows (by simpa using hrole)
      · obtain rfl : x = m := by simpa using hx
        exact hstarts

theorem follows_createMembers {ms : List GroupMember} (hrole : ∀ m ∈ ms, m.role = .member)
    (hstarts : ∀ m ∈ ms, ∀ policy, Consistent past m.groupId policy →
      rules.starts policy m.status = true) (h : ∀ id, Unwritten past id) :
    (createMembers ms).Follows (CallLaw rules) (fun _ later => ∀ id, Unwritten later id) past := by
  refine follows_stmt (fun s => ?_) fun s _ _ id x x' hx => ?_
  · cases hinsert : s.insertMembers ms with
    | error e => exact Quiet.callLaw (.silent rfl rfl (by simp))
    | ok t =>
        obtain ⟨-, hgroups, new, hsub, hrows⟩ := SocialDb.insertMembers_ok hinsert
        have hnew : t.members.rows.drop s.members.rows.length = new := by
          rw [hrows, List.drop_left]
        dsimp only
        rw [hnew]
        refine ⟨?_, by simp, fun x hx => ?_⟩
        · exact accounted_createMembers hgroups hrows fun m hm => hrole m (hsub.subset hm)
        · obtain ⟨m, hm, heq⟩ := List.mem_map.mp hx
          obtain rfl := SocialEvent.created.inj heq
          exact hstarts m (hsub.subset hm)
  · rw [List.mem_append] at hx
    refine hx.elim (h id x x') fun hx => ?_
    cases hinsert : s.insertMembers ms with
    | error e => simp [hinsert] at hx
    | ok t =>
        rw [hinsert] at hx
        obtain ⟨m, -, heq⟩ := List.mem_map.mp hx
        cases heq

theorem follows_createGroupWith {find : SocialDb → Id → Option GroupWithRelations} {g : Group}
    {ms : List GroupMember} {es : List GroupEvent} (howner : ∃ m ∈ ms, m.role = .owner)
    (hms : ∀ m ∈ ms, m.groupId = g.id ∧ (m.role = .member ∨
      m.role = .owner ∧ m.userId = g.createdById ∧ m.status = .accepted))
    (hstarts : ∀ m ∈ ms, ∀ policy, rules.starts policy m.status = true) :
    (createGroupWith find g ms es).Follows (CallLaw rules) (fun _ _ => True) past := by
  refine follows_stmt (fun s => ?_) fun _ _ _ => trivial
  cases hcreate : s.createGroupRows g ms es with
  | error e => exact Quiet.callLaw (.silent rfl rfl (by simp))
  | ok t =>
      dsimp only
      cases find t g.id with
      | none => exact Quiet.callLaw (.silent rfl rfl (by simp))
      | some row =>
          refine ⟨accounted_createGroup hcreate howner hms, by simp, fun x hx policy _ => ?_⟩
          obtain ⟨m, hm, heq⟩ := List.mem_map.mp hx
          obtain rfl := SocialEvent.created.inj heq
          exact hstarts m hm policy

end Feca.Social
