import Feca.Social.Schema
import Feca.Concurrency.History

/-! # Statements of the group and plan services

A call sees the database one statement at a time. Each statement reports what
it read of the memberships and what it wrote to them; a statement inside a
`$transaction` runs at the isolation level the database defaults to, so it too
finds what other calls have committed in the meantime.
-/

namespace Feca.Social

open Concurrency Concurrency.Prog Relational

/-- What a NestJS exception carries. -/
structure HttpException where
  status : Nat
  code : Option String := none
  message : String
  deriving DecidableEq, Repr

def BadRequestException (message : String) : HttpException where
  status := 400
  message := message

def ForbiddenException (code : Option String) (message : String) : HttpException where
  status := 403
  code := code
  message := message

def NotFoundException (message : String) : HttpException where
  status := 404
  message := message

def ConflictException (message : String) : HttpException where
  status := 409
  message := message

def UnprocessableEntityException (code message : String) : HttpException where
  status := 422
  code := some code
  message := message

/-- Why a call ends without a result. -/
inductive Failure
  | http (exception : HttpException)
  | database (error : Thrown)
  deriving DecidableEq, Repr

/-- `P2025`. -/
def recordNotFound : Thrown := .known "P2025" "No record was found for an update."

inductive SocialEvent
  | found (g : Group)
  | saw (rows : List GroupMember)
  | wrote (before after : GroupMember)
  | created (m : GroupMember)
  | threw (error : Thrown)
  | published (input : Push.PublishNotificationInput)

abbrev SocialProg := Prog SocialDb SocialEvent Failure

/-- The clock of a call, the ids it generates, and its runtime's `toUpperCase`. -/
structure SocialEnv where
  now : Date
  groupId : Id
  eventId : Id
  memberId : Nat → Id
  settingsId : Nat → Id
  upperCase : String → String

/-- `throw new …Exception(…)`. -/
def throwHttp {α : Type} (exception : HttpException) : SocialProg α := .fail (.http exception)

/-! ## Reads -/

/-- `group.findUnique` of the columns of one group. -/
def selectGroup (find : SocialDb → Option Group) : SocialProg (Option Group) :=
  stmt fun s => ⟨s, ((find s).map SocialEvent.found).toList, .ok (find s)⟩

/-- `groupMember.findUnique` by group and user. -/
def findMembership (groupId userId : Id) : SocialProg (Option GroupMember) :=
  stmt fun s => ⟨s, [.saw (s.findMembership groupId userId).toList],
    .ok (s.findMembership groupId userId)⟩

/-- `groupMember.findMany` of some users' memberships in one group. -/
def findMemberships (groupId : Id) (userIds : List Id) : SocialProg (List GroupMember) :=
  stmt fun s => ⟨s, [.saw (s.membershipsOf groupId userIds)], .ok (s.membershipsOf groupId userIds)⟩

/-! ## Writes -/

/-- `groupMember.update` by id. -/
def updateMember (id : Id) (data : MemberData) : SocialProg GroupMember :=
  stmt fun s =>
    match s.members.rows.find? (·.id == id) with
    | none => ⟨s, [.threw recordNotFound], .error (.database recordNotFound)⟩
    | some m => ⟨s.setMembers (·.id == id) data, [.wrote m (m.set data)], .ok (m.set data)⟩

/-- `groupMember.updateMany`: how many rows it changed. -/
def updateMembers (p : GroupMember → Bool) (data : MemberData) : SocialProg Nat :=
  stmt fun s => ⟨s.setMembers p data,
    (s.members.rows.filter p).map fun m => .wrote m (m.set data),
    .ok (s.members.rows.filter p).length⟩

/-- `groupMember.create`. -/
def createMember (m : GroupMember) : SocialProg GroupMember :=
  stmt fun s =>
    match s.insertMember m with
    | .ok t => ⟨t, [.created m], .ok m⟩
    | .error e => ⟨s, [.threw e], .error (.database e)⟩

/-- `groupMember.createMany` with `skipDuplicates`. -/
def createMembers (ms : List GroupMember) : SocialProg Unit :=
  stmt fun s =>
    match s.insertMembers ms with
    | .ok t => ⟨t, (t.members.rows.drop s.members.rows.length).map .created, .ok ()⟩
    | .error e => ⟨s, [.threw e], .error (.database e)⟩

/-- `group.create` with its nested rows, answered with its relations. -/
def createGroupWith (find : SocialDb → Id → Option GroupWithRelations) (g : Group)
    (ms : List GroupMember) (es : List GroupEvent) : SocialProg GroupWithRelations :=
  stmt fun s =>
    match s.createGroupRows g ms es with
    | .error e => ⟨s, [.threw e], .error (.database e)⟩
    | .ok t =>
        match find t g.id with
        | some row => ⟨t, ms.map .created, .ok row⟩
        | none => ⟨s, [.threw recordNotFound], .error (.database recordNotFound)⟩

/-- `userSettings.upsert` with an empty update. -/
def ensureUserSettings (row : UserSettings) : SocialProg Unit :=
  stmt fun s =>
    match s.upsertSettings row with
    | .ok t => ⟨t, [], .ok ()⟩
    | .error e => ⟨s, [.threw e], .error (.database e)⟩

/-- Hand a notification to `notificationsService.publish`. -/
def publish (input : Push.PublishNotificationInput) : SocialProg Unit :=
  stmt fun s => ⟨s, [.published input], .ok ()⟩

/-! ## What every statement accounts for -/

/-- Groups and memberships stay; a membership changes or appears only with an
event that says so, and a new group comes with its owner. -/
structure Accounted (s t : SocialDb) (es : List SocialEvent) : Prop where
  groups : ∀ g ∈ s.groups.rows, g ∈ t.groups.rows
  founded : ∀ g ∈ t.groups.rows, g ∈ s.groups.rows ∨ ∃ m ∈ t.members.rows, m.groupId = g.id ∧
    m.userId = g.createdById ∧ m.role = .owner ∧ m.status = .accepted
  kept : ∀ m ∈ s.members.rows, ∃ m' ∈ t.members.rows, m'.id = m.id ∧
    (m' = m ∨ .wrote m m' ∈ es)
  origin : ∀ m' ∈ t.members.rows, m' ∈ s.members.rows ∨ .created m' ∈ es ∨
    ∃ m, .wrote m m' ∈ es
  wrote : ∀ m m', .wrote m m' ∈ es → m ∈ s.members.rows ∧ m' ∈ t.members.rows ∧
    ∃ data, m' = m.set data
  created : ∀ m, .created m ∈ es → m ∈ t.members.rows ∧
    (∀ x ∈ s.members.rows, ¬ (x.groupId = m.groupId ∧ x.userId = m.userId)) ∧
      (m.role = .member ∨ m.role = .owner ∧ m.status = .accepted ∧
        ∃ g ∈ t.groups.rows, g.id = m.groupId ∧ g.createdById = m.userId)
  saw : ∀ rows, .saw rows ∈ es → ∀ r ∈ rows, r ∈ s.members.rows
  found : ∀ g, .found g ∈ es → g ∈ s.groups.rows

/-- A statement that leaves groups and memberships alone and tells only what is
stored. -/
theorem Accounted.silent {s t : SocialDb} {es : List SocialEvent} (hgroups : t.groups = s.groups)
    (hmembers : t.members = s.members) (hsaw : ∀ rows, .saw rows ∈ es → ∀ r ∈ rows,
      r ∈ s.members.rows) (hfound : ∀ g, .found g ∈ es → g ∈ s.groups.rows)
    (hwrote : ∀ m m', .wrote m m' ∉ es) (hcreated : ∀ m, .created m ∉ es) :
    Accounted s t es where
  groups _ hg := hgroups ▸ hg
  founded _ hg := .inl (hgroups ▸ hg)
  kept m hm := ⟨m, hmembers ▸ hm, rfl, .inl rfl⟩
  origin _ hm' := .inl (hmembers ▸ hm')
  wrote m m' h := absurd h (hwrote m m')
  created m h := absurd h (hcreated m)
  saw := hsaw
  found := hfound

theorem Accounted.refl (s : SocialDb) : Accounted s s [] :=
  .silent rfl rfl (by simp) (by simp) (by simp) (by simp)

/-- An update writes the rows it names, and reports each of them. -/
theorem accounted_setMembers (s : SocialDb) (p : GroupMember → Bool) (data : MemberData) :
    Accounted s (s.setMembers p data)
      ((s.members.rows.filter p).map fun m => .wrote m (m.set data)) where
  groups g hg := hg
  founded g hg := .inl hg
  kept m hm := by
    refine ⟨_, List.mem_map_of_mem hm, ?_, ?_⟩
    · split
      · rfl
      · rfl
    · split
      · rename_i hp
        exact .inr (List.mem_map.mpr ⟨m, List.mem_filter.mpr ⟨hm, hp⟩, rfl⟩)
      · exact .inl rfl
  origin m' hm' := by
    obtain ⟨m, hm, rfl⟩ := List.mem_map.mp hm'
    by_cases hp : p m = true
    · rw [if_pos hp]
      exact .inr (.inr ⟨m, List.mem_map.mpr ⟨m, List.mem_filter.mpr ⟨hm, hp⟩, rfl⟩⟩)
    · rw [if_neg hp]
      exact .inl hm
  wrote m m' h := by
    obtain ⟨x, hx, heq⟩ := List.mem_map.mp h
    obtain ⟨rfl, rfl⟩ := SocialEvent.wrote.inj heq
    obtain ⟨hmem, hp⟩ := List.mem_filter.mp hx
    exact ⟨hmem, List.mem_map.mpr ⟨x, hmem, if_pos hp⟩, data, rfl⟩
  created m h := by simp at h
  saw rows h := by simp at h
  found g h := by simp at h

/-- An update by id is the update of the row it found. -/
theorem accounted_updateMember {s : SocialDb} {id : Id} {m : GroupMember}
    (h : s.members.rows.find? (·.id == id) = some m) (data : MemberData) :
    Accounted s (s.setMembers (·.id == id) data) [.wrote m (m.set data)] := by
  have hmem : m ∈ s.members.rows := List.mem_of_find?_eq_some h
  have hid : m.id = id := by simpa using List.find?_some h
  have hlaw := accounted_setMembers s (·.id == id) data
  have hsame : ∀ e, e ∈ (s.members.rows.filter (·.id == id)).map (fun m => .wrote m (m.set data)) ↔
      e ∈ [SocialEvent.wrote m (m.set data)] := by
    intro e
    simp only [List.mem_map, List.mem_filter, beq_iff_eq, List.mem_singleton]
    constructor
    · rintro ⟨x, ⟨hx, hxid⟩, rfl⟩
      rw [s.member_unique hx hmem (hxid.trans hid.symm)]
    · rintro rfl
      exact ⟨m, ⟨hmem, hid⟩, rfl⟩
  exact
    { groups := hlaw.groups
      founded := hlaw.founded
      kept := fun x hx => by simpa only [hsame] using hlaw.kept x hx
      origin := fun x hx => by simpa only [hsame] using hlaw.origin x hx
      wrote := fun x x' hx => hlaw.wrote x x' ((hsame _).mpr hx)
      created := fun x hx => by simp at hx
      saw := fun rows hrows => by simp at hrows
      found := fun g hg => by simp at hg }

/-- Creation adds rows for users who had none in their groups. -/
theorem accounted_createMembers {s t : SocialDb} {new : List GroupMember}
    (hgroups : t.groups = s.groups) (hrows : t.members.rows = s.members.rows ++ new)
    (hrole : ∀ m ∈ new, m.role = .member) : Accounted s t (new.map .created) where
  groups _ hg := hgroups ▸ hg
  founded _ hg := .inl (hgroups ▸ hg)
  kept m hm := ⟨m, by rw [hrows]; exact List.mem_append_left _ hm, rfl, .inl rfl⟩
  origin m' hm' := by
    rw [hrows, List.mem_append] at hm'
    exact hm'.imp_right fun h => .inl (List.mem_map_of_mem h)
  wrote m m' h := by simp at h
  created m h := by
    obtain ⟨x, hx, heq⟩ := List.mem_map.mp h
    obtain rfl := SocialEvent.created.inj heq
    have hmem : x ∈ t.members.rows := by
      rw [hrows]
      exact List.mem_append_right _ hx
    refine ⟨hmem, fun y hy hclash => ?_, .inl (hrole x hx)⟩
    have hdistinct := t.members.distinct
    rw [hrows, List.pairwise_append] at hdistinct
    have hfree := hdistinct.2.2 y hy x hx
    simp [conflicts, hclash.1, hclash.2] at hfree
  saw rows h := by simp at h
  found g h := by simp at h

/-- A group is created with an accepted owner, its creator, and members. -/
theorem accounted_createGroup {s t : SocialDb} {g : Group} {ms : List GroupMember}
    {es : List GroupEvent} (h : s.createGroupRows g ms es = .ok t)
    (howner : ∃ m ∈ ms, m.role = .owner)
    (hms : ∀ m ∈ ms, m.groupId = g.id ∧ (m.role = .member ∨
      m.role = .owner ∧ m.userId = g.createdById ∧ m.status = .accepted)) :
    Accounted s t (ms.map .created) := by
  obtain ⟨husers, hgroups, hfresh, hrows⟩ := SocialDb.createGroupRows_ok h
  have hg : g ∈ t.groups.rows := by
    rw [hgroups]
    exact List.mem_append_right _ List.mem_cons_self
  have hmem : ∀ m ∈ ms, m ∈ t.members.rows := by
    intro m hm
    rw [hrows]
    exact List.mem_append_right _ hm
  exact
    { groups := fun x hx => by
        rw [hgroups]
        exact List.mem_append_left _ hx
      founded := fun x hx => by
        rw [hgroups, List.mem_append, List.mem_singleton] at hx
        refine hx.imp_right fun hx => ?_
        subst hx
        obtain ⟨m, hm, hrole⟩ := howner
        obtain ⟨hgroup, hmember | ⟨-, huser, hstatus⟩⟩ := hms m hm
        · rw [hrole] at hmember
          cases hmember
        · exact ⟨m, hmem m hm, hgroup, huser, hrole, hstatus⟩
      kept := fun m hm => ⟨m, by rw [hrows]; exact List.mem_append_left _ hm, rfl, .inl rfl⟩
      origin := fun m hm => by
        rw [hrows, List.mem_append] at hm
        exact hm.imp_right fun hm => .inl (List.mem_map_of_mem hm)
      wrote := fun m m' hm => by simp at hm
      created := fun m hm => by
        obtain ⟨x, hx, heq⟩ := List.mem_map.mp hm
        obtain rfl := SocialEvent.created.inj heq
        obtain ⟨hgroup, hrole⟩ := hms x hx
        refine ⟨hmem x hx, fun y hy hclash => ?_, ?_⟩
        · obtain ⟨y', hy', hid⟩ := s.member_group y hy
          exact hfresh y' hy' (hid.trans (hclash.1.trans hgroup))
        · refine hrole.imp_right fun ⟨howner, huser, hstatus⟩ => ?_
          exact ⟨howner, hstatus, g, hg, hgroup.symm, huser.symm⟩
      saw := fun rows hrows => by simp at hrows
      found := fun x hx => by simp at hx }

end Feca.Social
