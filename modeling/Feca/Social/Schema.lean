import Feca.Push.Publish

/-! # Groups, memberships and events

A plan is a group with events: both services work on the same rows. A row that
names its group, its user or its place always finds it, so the joins of the
services lose nothing.
-/

namespace Feca.Social

open Concurrency Relational

inductive GroupVisibility
  | «private»
  | publicFollowers
  | «public»
  deriving DecidableEq, Repr

inductive GroupJoinPolicy
  | «open»
  | requestApproval
  | inviteOnly
  deriving DecidableEq, Repr

inductive PlaceProposalPolicy
  | allMembers
  | ownerOnly
  deriving DecidableEq, Repr

inductive MemberProposalInteraction
  | collaborative
  | announcementLocked
  deriving DecidableEq, Repr

inductive GroupMemberRole
  | owner
  | admin
  | member
  deriving DecidableEq, Repr

inductive GroupMemberStatus
  | pending
  | requested
  | accepted
  | declined
  | left
  deriving DecidableEq, Repr

inductive GroupEventStatus
  | proposed
  | announcement
  | confirmed
  | completed
  | cancelled
  deriving DecidableEq, Repr

inductive GroupEventRsvpStatus
  | going
  | maybe
  | declined
  deriving DecidableEq, Repr

structure City where
  id : Id
  googlePlaceId : String
  deriving DecidableEq, Repr

structure Place where
  id : Id
  name : String
  address : String
  city : String
  cityId : Option Id := none
  lat : Option Rat := none
  lng : Option Rat := none
  coverPhotoUrl : Option String := none
  deriving DecidableEq, Repr

structure Group where
  id : Id
  name : String
  description : Option String := none
  createdById : Id
  inviteCode : String
  visibility : GroupVisibility := .«private»
  joinPolicy : GroupJoinPolicy := .inviteOnly
  placeProposalPolicy : PlaceProposalPolicy := .allMembers
  memberProposalInteraction : MemberProposalInteraction := .collaborative
  createdAt : Date
  deriving DecidableEq, Repr

structure GroupMember where
  id : Id
  groupId : Id
  userId : Id
  invitedById : Option Id := none
  role : GroupMemberRole := .member
  status : GroupMemberStatus := .pending
  createdAt : Date
  deriving DecidableEq, Repr

structure GroupEvent where
  id : Id
  groupId : Id
  placeId : Id
  proposedById : Id
  date : Date
  status : GroupEventStatus := .proposed
  createdAt : Date
  deriving DecidableEq, Repr

structure GroupEventRsvp where
  id : Id
  eventId : Id
  userId : Id
  rsvp : GroupEventRsvpStatus
  createdAt : Date
  deriving DecidableEq, Repr

structure GroupMessage where
  id : Id
  groupId : Id
  authorId : Id
  body : String
  createdAt : Date
  deletedAt : Option Date := none
  deriving DecidableEq, Repr

/-- `@id` and `@unique googlePlaceId` on `City`. -/
instance : UniqueColumns City where
  conflicts a b := a.id == b.id || a.googlePlaceId == b.googlePlaceId
  conflicts_self _ := by simp
  conflicts_symm a b := by rw [BEq.comm (a := a.id), BEq.comm (a := a.googlePlaceId)]

/-- `@id` on `Place`. -/
instance : UniqueColumns Place where
  conflicts a b := a.id == b.id
  conflicts_self _ := by simp
  conflicts_symm a b := by rw [BEq.comm (a := a.id)]

/-- `@id` and `@unique inviteCode` on `Group`. -/
instance : UniqueColumns Group where
  conflicts a b := a.id == b.id || a.inviteCode == b.inviteCode
  conflicts_self _ := by simp
  conflicts_symm a b := by rw [BEq.comm (a := a.id), BEq.comm (a := a.inviteCode)]

/-- `@id` and `@@unique([groupId, userId])` on `GroupMember`. -/
instance : UniqueColumns GroupMember where
  conflicts a b := a.id == b.id || (a.groupId == b.groupId && a.userId == b.userId)
  conflicts_self _ := by simp
  conflicts_symm a b := by
    rw [BEq.comm (a := a.id), BEq.comm (a := a.groupId), BEq.comm (a := a.userId)]

/-- `@id` on `GroupEvent`. -/
instance : UniqueColumns GroupEvent where
  conflicts a b := a.id == b.id
  conflicts_self _ := by simp
  conflicts_symm a b := by rw [BEq.comm (a := a.id)]

/-- `@id` and `@@unique([eventId, userId])` on `GroupEventRsvp`. -/
instance : UniqueColumns GroupEventRsvp where
  conflicts a b := a.id == b.id || (a.eventId == b.eventId && a.userId == b.userId)
  conflicts_self _ := by simp
  conflicts_symm a b := by
    rw [BEq.comm (a := a.id), BEq.comm (a := a.eventId), BEq.comm (a := a.userId)]

/-- `@id` on `GroupMessage`. -/
instance : UniqueColumns GroupMessage where
  conflicts a b := a.id == b.id
  conflicts_self _ := by simp
  conflicts_symm a b := by rw [BEq.comm (a := a.id)]

/-! ## Updates -/

/-- The `data` of a membership update; `none` leaves a column alone. -/
structure MemberData where
  status : GroupMemberStatus
  role : Option GroupMemberRole := none
  invitedById : Option (Option Id) := none
  deriving DecidableEq, Repr

def GroupMember.set (m : GroupMember) (data : MemberData) : GroupMember :=
  { m with
    status := data.status
    role := data.role.getD m.role
    invitedById := data.invitedById.getD m.invitedById }

section set
variable (m : GroupMember) (data : MemberData)

@[simp] theorem GroupMember.set_id : (m.set data).id = m.id := rfl

@[simp] theorem GroupMember.set_groupId : (m.set data).groupId = m.groupId := rfl

@[simp] theorem GroupMember.set_userId : (m.set data).userId = m.userId := rfl

@[simp] theorem GroupMember.set_status : (m.set data).status = data.status := rfl

@[simp] theorem GroupMember.set_role : (m.set data).role = data.role.getD m.role := rfl

end set

/-! ## The store -/

structure SocialDb where
  users : Table User
  settings : Table UserSettings
  follows : Table UserFollow
  cities : Table City
  places : Table Place
  groups : Table Group
  members : Table GroupMember
  events : Table GroupEvent
  rsvps : Table GroupEventRsvp
  messages : Table GroupMessage
  group_creator : ∀ g ∈ groups.rows, ∃ u ∈ users.rows, u.id = g.createdById
  member_group : ∀ m ∈ members.rows, ∃ g ∈ groups.rows, g.id = m.groupId
  member_user : ∀ m ∈ members.rows, ∃ u ∈ users.rows, u.id = m.userId
  event_group : ∀ e ∈ events.rows, ∃ g ∈ groups.rows, g.id = e.groupId
  event_place : ∀ e ∈ events.rows, ∃ p ∈ places.rows, p.id = e.placeId
  event_proposer : ∀ e ∈ events.rows, ∃ u ∈ users.rows, u.id = e.proposedById
  message_author : ∀ m ∈ messages.rows, ∃ u ∈ users.rows, u.id = m.authorId

namespace SocialDb

/-- Users and places, and nothing the groups and plans have written. -/
def ofUsers (users : Table User) (settings : Table UserSettings) (follows : Table UserFollow)
    (cities : Table City) (places : Table Place) : SocialDb :=
  ⟨users, settings, follows, cities, places, .empty, .empty, .empty, .empty, .empty,
    by simp, by simp, by simp, by simp, by simp, by simp, by simp⟩

instance : Inhabited SocialDb := ⟨ofUsers .empty .empty .empty .empty .empty⟩

def hasUser (s : SocialDb) (id : Id) : Bool := s.users.rows.any (·.id == id)

def hasGroup (s : SocialDb) (id : Id) : Bool := s.groups.rows.any (·.id == id)

def hasPlace (s : SocialDb) (id : Id) : Bool := s.places.rows.any (·.id == id)

theorem exists_of_hasUser {s : SocialDb} {id : Id} (h : s.hasUser id = true) :
    ∃ u ∈ s.users.rows, u.id = id := by simpa [hasUser] using h

theorem exists_of_hasGroup {s : SocialDb} {id : Id} (h : s.hasGroup id = true) :
    ∃ g ∈ s.groups.rows, g.id = id := by simpa [hasGroup] using h

theorem exists_of_hasPlace {s : SocialDb} {id : Id} (h : s.hasPlace id = true) :
    ∃ p ∈ s.places.rows, p.id = id := by simpa [hasPlace] using h

theorem group_unique (s : SocialDb) {g h : Group} (hg : g ∈ s.groups.rows)
    (hh : h ∈ s.groups.rows) (hid : g.id = h.id) : g = h :=
  Table.eq_of_conflicts hg hh (by simp [conflicts, hid])

theorem member_unique (s : SocialDb) {m n : GroupMember} (hm : m ∈ s.members.rows)
    (hn : n ∈ s.members.rows) (hid : m.id = n.id) : m = n :=
  Table.eq_of_conflicts hm hn (by simp [conflicts, hid])

/-- A user has at most one membership in a group. -/
theorem membership_unique (s : SocialDb) {m n : GroupMember} (hm : m ∈ s.members.rows)
    (hn : n ∈ s.members.rows) (hgroup : m.groupId = n.groupId) (huser : m.userId = n.userId) :
    m = n :=
  Table.eq_of_conflicts hm hn (by simp [conflicts, hgroup, huser])

theorem event_unique (s : SocialDb) {e f : GroupEvent} (he : e ∈ s.events.rows)
    (hf : f ∈ s.events.rows) (hid : e.id = f.id) : e = f :=
  Table.eq_of_conflicts he hf (by simp [conflicts, hid])

theorem message_unique (s : SocialDb) {m n : GroupMessage} (hm : m ∈ s.messages.rows)
    (hn : n ∈ s.messages.rows) (hid : m.id = n.id) : m = n :=
  Table.eq_of_conflicts hm hn (by simp [conflicts, hid])

/-! ## Writes -/

/-- `groupMember.updateMany`. -/
def setMembers (s : SocialDb) (p : GroupMember → Bool) (data : MemberData) : SocialDb :=
  { s with
    members := s.members.update p (·.set data)
    member_group := by
      intro m hm
      obtain ⟨x, hx, rfl⟩ := Table.mem_update.mp hm
      have hg := s.member_group x hx
      split
      · exact hg
      · exact hg
    member_user := by
      intro m hm
      obtain ⟨x, hx, rfl⟩ := Table.mem_update.mp hm
      have hu := s.member_user x hx
      split
      · exact hu
      · exact hu }

/-- The rows of a statement that creates memberships all name a stored group and
a stored user. -/
def membersAdmissible (s : SocialDb) (ms : List GroupMember) : Bool :=
  ms.all fun m => s.hasGroup m.groupId && s.hasUser m.userId && m.invitedById.all s.hasUser

theorem admissible_spec {s : SocialDb} {ms : List GroupMember}
    (h : s.membersAdmissible ms = true) {m : GroupMember} (hm : m ∈ ms) :
    (∃ g ∈ s.groups.rows, g.id = m.groupId) ∧ ∃ u ∈ s.users.rows, u.id = m.userId := by
  have hcols := List.all_eq_true.mp h m hm
  simp only [Bool.and_eq_true] at hcols
  exact ⟨exists_of_hasGroup hcols.1.1, exists_of_hasUser hcols.1.2⟩

/-- `groupMember.create`. -/
def insertMember (s : SocialDb) (m : GroupMember) : Except Thrown SocialDb :=
  if hadm : s.membersAdmissible [m] = true then
    match h : s.members.insert m with
    | none => .error uniqueViolation
    | some members => .ok
        { s with
          members
          member_group := by
            intro x hx
            rw [(Table.insert_eq_some h).1, List.mem_append, List.mem_singleton] at hx
            rcases hx with hx | rfl
            · exact s.member_group x hx
            · exact (admissible_spec hadm List.mem_cons_self).1
          member_user := by
            intro x hx
            rw [(Table.insert_eq_some h).1, List.mem_append, List.mem_singleton] at hx
            rcases hx with hx | rfl
            · exact s.member_user x hx
            · exact (admissible_spec hadm List.mem_cons_self).2 }
  else .error foreignKeyViolation

/-- `groupMember.createMany` with `skipDuplicates`. -/
def insertMembers (s : SocialDb) (ms : List GroupMember) : Except Thrown SocialDb :=
  if hadm : s.membersAdmissible ms = true then .ok
    { s with
      members := s.members.insertSkipping ms
      member_group := by
        obtain ⟨new, hrows, hsub⟩ := s.members.insertSkipping_rows ms
        intro x hx
        rw [hrows, List.mem_append] at hx
        exact hx.elim (s.member_group x) fun hx => (admissible_spec hadm (hsub.subset hx)).1
      member_user := by
        obtain ⟨new, hrows, hsub⟩ := s.members.insertSkipping_rows ms
        intro x hx
        rw [hrows, List.mem_append] at hx
        exact hx.elim (s.member_user x) fun hx => (admissible_spec hadm (hsub.subset hx)).2 }
  else .error foreignKeyViolation

/-- `group.create` without its nested rows. -/
def insertGroup (s : SocialDb) (g : Group) : Except Thrown SocialDb :=
  if hadm : s.hasUser g.createdById = true then
    match h : s.groups.insert g with
    | none => .error uniqueViolation
    | some groups => .ok
        { s with
          groups
          group_creator := by
            intro x hx
            rw [(Table.insert_eq_some h).1, List.mem_append, List.mem_singleton] at hx
            rcases hx with hx | rfl
            · exact s.group_creator x hx
            · exact exists_of_hasUser hadm
          member_group := by
            intro m hm
            obtain ⟨x, hx, hid⟩ := s.member_group m hm
            rw [(Table.insert_eq_some h).1]
            exact ⟨x, List.mem_append_left _ hx, hid⟩
          event_group := by
            intro e he
            obtain ⟨x, hx, hid⟩ := s.event_group e he
            rw [(Table.insert_eq_some h).1]
            exact ⟨x, List.mem_append_left _ hx, hid⟩ }
  else .error foreignKeyViolation

/-- `groupEvent.create`. -/
def insertEvent (s : SocialDb) (e : GroupEvent) : Except Thrown SocialDb :=
  if hadm : s.hasGroup e.groupId = true ∧ s.hasPlace e.placeId = true ∧
      s.hasUser e.proposedById = true then
    match h : s.events.insert e with
    | none => .error uniqueViolation
    | some events => .ok
        { s with
          events
          event_group := by
            intro x hx
            rw [(Table.insert_eq_some h).1, List.mem_append, List.mem_singleton] at hx
            rcases hx with hx | rfl
            · exact s.event_group x hx
            · exact exists_of_hasGroup hadm.1
          event_place := by
            intro x hx
            rw [(Table.insert_eq_some h).1, List.mem_append, List.mem_singleton] at hx
            rcases hx with hx | rfl
            · exact s.event_place x hx
            · exact exists_of_hasPlace hadm.2.1
          event_proposer := by
            intro x hx
            rw [(Table.insert_eq_some h).1, List.mem_append, List.mem_singleton] at hx
            rcases hx with hx | rfl
            · exact s.event_proposer x hx
            · exact exists_of_hasUser hadm.2.2 }
  else .error foreignKeyViolation

/-- Rows created one after the other, all or none. -/
def insertEach (s : SocialDb) : List GroupMember → Except Thrown SocialDb
  | [] => .ok s
  | m :: ms => (s.insertMember m).bind fun t => t.insertEach ms

/-- `group.create` with its nested members and events: all rows or none. -/
def createGroupRows (s : SocialDb) (g : Group) (ms : List GroupMember) (es : List GroupEvent) :
    Except Thrown SocialDb :=
  (s.insertGroup g).bind fun s => (s.insertEach ms).bind fun s =>
    es.foldlM (fun s e => s.insertEvent e) s

/-- `userSettings.upsert` with an empty update. -/
def upsertSettings (s : SocialDb) (row : UserSettings) : Except Thrown SocialDb :=
  if s.settings.rows.any (·.userId == row.userId) then .ok s
  else if s.hasUser row.userId then
    match s.settings.insert row with
    | none => .error uniqueViolation
    | some settings => .ok { s with settings }
  else .error foreignKeyViolation

/-! What each write does to the tables. -/

theorem insertMember_ok {s t : SocialDb} {m : GroupMember} (h : s.insertMember m = .ok t) :
    t.users = s.users ∧ t.groups = s.groups ∧ t.members.rows = s.members.rows ++ [m] := by
  unfold insertMember at h
  split at h
  · split at h
    · cases h
    · rename_i members hinsert
      cases h
      exact ⟨rfl, rfl, (Table.insert_eq_some hinsert).1⟩
  · cases h

theorem insertMembers_members {s t : SocialDb} {ms : List GroupMember}
    (h : s.insertMembers ms = .ok t) : t.members = s.members.insertSkipping ms := by
  unfold insertMembers at h
  split at h
  · cases h
    rfl
  · cases h

/-- A first membership with a new id, by invitation of nobody, is stored. -/
theorem insertMember_isOk {s : SocialDb} {m : GroupMember} (hgroup : s.hasGroup m.groupId = true)
    (huser : s.hasUser m.userId = true) (hinviter : m.invitedById = none)
    (hfree : ∀ x ∈ s.members.rows, conflicts x m = false) :
    ∃ t, s.insertMember m = .ok t := by
  have hadm : s.membersAdmissible [m] = true := by
    simp [membersAdmissible, hgroup, huser, hinviter]
  unfold insertMember
  rw [dif_pos hadm]
  split
  · rename_i hnone
    obtain ⟨x, hx, hclash⟩ := Table.insert_eq_none hnone
    rw [hfree x hx] at hclash
    cases hclash
  · exact ⟨_, rfl⟩

/-- The skipping insertion adds some of the rows it was offered. -/
theorem insertMembers_ok {s t : SocialDb} {ms : List GroupMember}
    (h : s.insertMembers ms = .ok t) : t.users = s.users ∧ t.groups = s.groups ∧
      ∃ new : List GroupMember, new.Sublist ms ∧ t.members.rows = s.members.rows ++ new := by
  unfold insertMembers at h
  split at h
  · cases h
    obtain ⟨new, hrows, hsub⟩ := s.members.insertSkipping_rows ms
    exact ⟨rfl, rfl, new, hsub, hrows⟩
  · cases h

theorem insertGroup_ok {s t : SocialDb} {g : Group} (h : s.insertGroup g = .ok t) :
    t.users = s.users ∧ t.members = s.members ∧ t.groups.rows = s.groups.rows ++ [g] ∧
      ∀ x ∈ s.groups.rows, x.id ≠ g.id := by
  unfold insertGroup at h
  split at h
  · split at h
    · cases h
    · rename_i groups hinsert
      cases h
      obtain ⟨hrows, hfree⟩ := Table.insert_eq_some hinsert
      refine ⟨rfl, rfl, hrows, fun x hx hid => ?_⟩
      have hclash := hfree x hx
      simp [conflicts, hid] at hclash
  · cases h

theorem insertEvent_ok {s t : SocialDb} {e : GroupEvent} (h : s.insertEvent e = .ok t) :
    t.users = s.users ∧ t.groups = s.groups ∧ t.members = s.members := by
  unfold insertEvent at h
  split at h
  · split at h
    · cases h
    · cases h
      exact ⟨rfl, rfl, rfl⟩
  · cases h

theorem insertEach_ok {s t : SocialDb} {ms : List GroupMember} (h : s.insertEach ms = .ok t) :
    t.users = s.users ∧ t.groups = s.groups ∧ t.members.rows = s.members.rows ++ ms := by
  induction ms generalizing s with
  | nil =>
      cases h
      simp
  | cons m ms ih =>
      rw [insertEach] at h
      cases hm : s.insertMember m with
      | error e => simp [hm, Except.bind] at h
      | ok u =>
          rw [hm] at h
          obtain ⟨husers, hgroups, hrows⟩ := insertMember_ok hm
          obtain ⟨husers', hgroups', hrows'⟩ := ih h
          refine ⟨husers'.trans husers, hgroups'.trans hgroups, ?_⟩
          rw [hrows', hrows, List.append_assoc, List.singleton_append]

/-- What no event changes, a list of them does not change either. -/
theorem insertEvents_keep {β : Type} (f : SocialDb → β)
    (hf : ∀ {s t : SocialDb} {e : GroupEvent}, s.insertEvent e = .ok t → f t = f s)
    {es : List GroupEvent} {s t : SocialDb}
    (h : es.foldlM (fun s e => s.insertEvent e) s = .ok t) : f t = f s := by
  induction es generalizing s with
  | nil =>
      cases h
      rfl
  | cons e es ih =>
      rw [List.foldlM_cons] at h
      cases he : s.insertEvent e with
      | error x => simp [he, bind, Except.bind] at h
      | ok u =>
          rw [he] at h
          exact (ih h).trans (hf he)

/-- The group first, then its members, then its events. -/
theorem createGroupRows_steps {s t : SocialDb} {g : Group} {ms : List GroupMember}
    {es : List GroupEvent} (h : s.createGroupRows g ms es = .ok t) :
    ∃ u v, s.insertGroup g = .ok u ∧ u.insertEach ms = .ok v ∧
      es.foldlM (fun s e => s.insertEvent e) v = .ok t := by
  unfold createGroupRows at h
  cases hg : s.insertGroup g with
  | error e => simp [hg, Except.bind] at h
  | ok u =>
      rw [hg] at h
      cases hm : u.insertEach ms with
      | error e => simp [hm, Except.bind] at h
      | ok v =>
          simp only [Except.bind, hm] at h
          exact ⟨u, v, rfl, hm, h⟩

theorem createGroupRows_ok {s t : SocialDb} {g : Group} {ms : List GroupMember}
    {es : List GroupEvent} (h : s.createGroupRows g ms es = .ok t) : t.users = s.users ∧
      t.groups.rows = s.groups.rows ++ [g] ∧ (∀ x ∈ s.groups.rows, x.id ≠ g.id) ∧
        t.members.rows = s.members.rows ++ ms := by
  obtain ⟨u, v, hg, hm, hes⟩ := createGroupRows_steps h
  obtain ⟨husers, hmembers, hrows, hfresh⟩ := insertGroup_ok hg
  obtain ⟨husers', hgroups', hrows'⟩ := insertEach_ok hm
  have husers'' := insertEvents_keep (·.users) (fun he => (insertEvent_ok he).1) hes
  have hgroups'' := insertEvents_keep (·.groups) (fun he => (insertEvent_ok he).2.1) hes
  have hmembers'' := insertEvents_keep (·.members) (fun he => (insertEvent_ok he).2.2) hes
  refine ⟨husers''.trans (husers'.trans husers), ?_, hfresh, ?_⟩
  · rw [hgroups'', hgroups', hrows]
  · rw [hmembers'', hrows', hmembers]

theorem upsertSettings_ok {s t : SocialDb} {row : UserSettings}
    (h : s.upsertSettings row = .ok t) : t.users = s.users ∧ t.groups = s.groups ∧
      t.members = s.members ∧ t.follows = s.follows ∧
        (t.settings.rows = s.settings.rows ∨ t.settings.rows = s.settings.rows ++ [row] ∧
          s.settings.rows.any (·.userId == row.userId) = false) := by
  unfold upsertSettings at h
  split at h
  · cases h
    exact ⟨rfl, rfl, rfl, rfl, .inl rfl⟩
  · rename_i hnone
    split at h
    · split at h
      · cases h
      · rename_i settings hinsert
        cases h
        exact ⟨rfl, rfl, rfl, rfl, .inr ⟨(Table.insert_eq_some hinsert).1, by simpa using hnone⟩⟩
    · cases h

/-- The tables that writes of groups, memberships and events leave alone. -/
def base (s : SocialDb) :
    Table User × Table UserSettings × Table UserFollow × Table City × Table Place :=
  (s.users, s.settings, s.follows, s.cities, s.places)

theorem insertMember_base {s t : SocialDb} {m : GroupMember} (h : s.insertMember m = .ok t) :
    t.base = s.base := by
  unfold insertMember at h
  split at h
  · split at h
    · cases h
    · cases h
      rfl
  · cases h

theorem insertMembers_base {s t : SocialDb} {ms : List GroupMember}
    (h : s.insertMembers ms = .ok t) : t.base = s.base := by
  unfold insertMembers at h
  split at h
  · cases h
    rfl
  · cases h

theorem insertGroup_base {s t : SocialDb} {g : Group} (h : s.insertGroup g = .ok t) :
    t.base = s.base := by
  unfold insertGroup at h
  split at h
  · split at h
    · cases h
    · cases h
      rfl
  · cases h

theorem insertEvent_base {s t : SocialDb} {e : GroupEvent} (h : s.insertEvent e = .ok t) :
    t.base = s.base := by
  unfold insertEvent at h
  split at h
  · split at h
    · cases h
    · cases h
      rfl
  · cases h

theorem insertEach_base {s t : SocialDb} {ms : List GroupMember} (h : s.insertEach ms = .ok t) :
    t.base = s.base := by
  induction ms generalizing s with
  | nil =>
      cases h
      rfl
  | cons m ms ih =>
      rw [insertEach] at h
      cases hm : s.insertMember m with
      | error e => simp [hm, Except.bind] at h
      | ok u =>
          rw [hm] at h
          exact (ih h).trans (insertMember_base hm)

theorem createGroupRows_base {s t : SocialDb} {g : Group} {ms : List GroupMember}
    {es : List GroupEvent} (h : s.createGroupRows g ms es = .ok t) : t.base = s.base := by
  obtain ⟨u, v, hg, hm, hes⟩ := createGroupRows_steps h
  have hevents := insertEvents_keep (·.base) insertEvent_base hes
  exact hevents.trans ((insertEach_base hm).trans (insertGroup_base hg))

@[simp] theorem setMembers_rows (s : SocialDb) (p data) : (s.setMembers p data).members.rows =
    s.members.rows.map fun m => if p m then m.set data else m := rfl

@[simp] theorem setMembers_groups (s : SocialDb) (p data) :
    (s.setMembers p data).groups = s.groups := rfl

/-! ## Joins -/

end SocialDb

structure MemberWithRelations extends GroupMember where
  user : User
  invitedBy : Option User
  deriving DecidableEq, Repr

structure EventWithRelations extends GroupEvent where
  place : Place
  proposedBy : User
  rsvps : List GroupEventRsvp
  deriving DecidableEq, Repr

/-- A group with everything its services read of it. -/
structure GroupWithRelations extends Group where
  createdBy : User
  events : List EventWithRelations
  members : List MemberWithRelations
  deriving DecidableEq, Repr

namespace SocialDb

def findUser (s : SocialDb) (id : Id) : Option User := s.users.rows.find? (·.id == id)

def memberWithRelations (s : SocialDb) (m : GroupMember) : Option MemberWithRelations :=
  (s.findUser m.userId).map fun user =>
    { m with user, invitedBy := m.invitedById.bind s.findUser }

def eventWithRelations (s : SocialDb) (e : GroupEvent) : Option EventWithRelations :=
  (s.places.rows.find? (·.id == e.placeId)).bind fun place =>
    (s.findUser e.proposedById).map fun proposedBy =>
      { e with place, proposedBy, rsvps := s.rsvps.rows.filter (·.eventId == e.id) }

/-- `include`, with the two `orderBy` clauses of the service. -/
def withRelations (s : SocialDb) (eventBefore : GroupEvent → GroupEvent → Prop)
    [DecidableRel eventBefore] (memberBefore : GroupMember → GroupMember → Prop)
    [DecidableRel memberBefore] (g : Group) : Option GroupWithRelations :=
  (s.findUser g.createdById).map fun createdBy =>
    { g with
      createdBy
      events := ((s.events.rows.filter (·.groupId == g.id)).insertionSort eventBefore).filterMap
        s.eventWithRelations
      members := ((s.members.rows.filter (·.groupId == g.id)).insertionSort
        memberBefore).filterMap s.memberWithRelations }

def findGroup (s : SocialDb) (id : Id) : Option Group := s.groups.rows.find? (·.id == id)

/-- `groupMember.findUnique` by group and user. -/
def findMembership (s : SocialDb) (groupId userId : Id) : Option GroupMember :=
  s.members.rows.find? fun m => m.groupId == groupId && m.userId == userId

/-- The memberships some users have in one group. -/
def membershipsOf (s : SocialDb) (groupId : Id) (userIds : List Id) : List GroupMember :=
  s.members.rows.filter fun m => m.groupId == groupId && userIds.contains m.userId

theorem findGroup_some {s : SocialDb} {id : Id} {g : Group} (h : s.findGroup id = some g) :
    g ∈ s.groups.rows ∧ g.id = id :=
  ⟨List.mem_of_find?_eq_some h, by simpa using List.find?_some h⟩

theorem findGroup_of_mem {s : SocialDb} {g : Group} (h : g ∈ s.groups.rows) :
    s.findGroup g.id = some g := by
  cases hfind : s.findGroup g.id with
  | none => simpa using List.find?_eq_none.mp hfind g h
  | some x =>
      obtain ⟨hx, hid⟩ := findGroup_some hfind
      rw [s.group_unique hx h hid]

theorem findMembership_some {s : SocialDb} {groupId userId : Id} {m : GroupMember}
    (h : s.findMembership groupId userId = some m) :
    m ∈ s.members.rows ∧ m.groupId = groupId ∧ m.userId = userId := by
  have hcols := List.find?_some h
  simp only [Bool.and_eq_true, beq_iff_eq] at hcols
  exact ⟨List.mem_of_find?_eq_some h, hcols⟩

theorem findMembership_none {s : SocialDb} {groupId userId : Id}
    (h : s.findMembership groupId userId = none) :
    ∀ m ∈ s.members.rows, m.groupId = groupId → m.userId ≠ userId := by
  intro m hm hgroup huser
  have hnot := List.find?_eq_none.mp h m hm
  simp [hgroup, huser] at hnot

theorem findMembership_of_mem {s : SocialDb} {m : GroupMember} (h : m ∈ s.members.rows) :
    s.findMembership m.groupId m.userId = some m := by
  cases hfind : s.findMembership m.groupId m.userId with
  | none => exact absurd rfl (findMembership_none hfind m h rfl)
  | some x =>
      obtain ⟨hx, hgroup, huser⟩ := findMembership_some hfind
      rw [s.membership_unique hx h hgroup huser]

/-- The joins keep every membership: its user is stored. -/
theorem memberWithRelations_isSome {s : SocialDb} {m : GroupMember} (h : m ∈ s.members.rows) :
    (s.memberWithRelations m).isSome := by
  obtain ⟨u, hu, hid⟩ := s.member_user m h
  have hfind : (s.findUser m.userId).isSome :=
    List.find?_isSome.mpr ⟨u, hu, by simpa using hid⟩
  simpa [memberWithRelations] using hfind

/-- Every stored group comes with its creator. -/
theorem withRelations_isSome {s : SocialDb} {eb : GroupEvent → GroupEvent → Prop}
    [DecidableRel eb] {mb : GroupMember → GroupMember → Prop} [DecidableRel mb] {g : Group}
    (h : g ∈ s.groups.rows) : (s.withRelations eb mb g).isSome := by
  obtain ⟨u, hu, hid⟩ := s.group_creator g h
  have hfind : (s.findUser g.createdById).isSome :=
    List.find?_isSome.mpr ⟨u, hu, by simpa using hid⟩
  simpa [withRelations] using hfind

end SocialDb

/-- `groupInclude`: events by date, newest first within one; members by age. -/
def groupEventBefore (a b : GroupEvent) : Prop :=
  a.date < b.date ∨ (a.date = b.date ∧ a.createdAt ≥ b.createdAt)

def groupMemberBefore (a b : GroupMember) : Prop := a.createdAt ≤ b.createdAt

/-- `planInclude`: ties of both orders broken by id. -/
def planEventBefore (a b : GroupEvent) : Prop :=
  a.date < b.date ∨ (a.date = b.date ∧ a.id ≤ b.id)

def planMemberBefore (a b : GroupMember) : Prop :=
  a.createdAt < b.createdAt ∨ (a.createdAt = b.createdAt ∧ a.id ≤ b.id)

instance : DecidableRel groupEventBefore := fun a b => by
  unfold groupEventBefore
  infer_instance

instance : DecidableRel groupMemberBefore := fun a b => by
  unfold groupMemberBefore
  infer_instance

instance : DecidableRel planEventBefore := fun a b => by
  unfold planEventBefore
  infer_instance

instance : DecidableRel planMemberBefore := fun a b => by
  unfold planMemberBefore
  infer_instance

/-- `findUnique` with `groupInclude`. -/
def SocialDb.findGroupById (s : SocialDb) (id : Id) : Option GroupWithRelations :=
  (s.findGroup id).bind (s.withRelations groupEventBefore groupMemberBefore)

/-- `findUnique` with `planInclude`. -/
def SocialDb.findPlanById (s : SocialDb) (id : Id) : Option GroupWithRelations :=
  (s.findGroup id).bind (s.withRelations planEventBefore planMemberBefore)

theorem SocialDb.findGroupById_isSome {s : SocialDb} {g : Group} (h : g ∈ s.groups.rows) :
    (s.findGroupById g.id).isSome := by
  simpa [findGroupById, findGroup_of_mem h] using withRelations_isSome h

theorem SocialDb.findPlanById_isSome {s : SocialDb} {g : Group} (h : g ∈ s.groups.rows) :
    (s.findPlanById g.id).isSome := by
  simpa [findPlanById, findGroup_of_mem h] using withRelations_isSome h

/-- A plan read with its relations is a stored group. -/
theorem SocialDb.findPlanById_some {s : SocialDb} {id : Id} {p : GroupWithRelations}
    (h : s.findPlanById id = some p) : p.toGroup ∈ s.groups.rows ∧ p.id = id := by
  obtain ⟨g, hg, hrel⟩ := Option.bind_eq_some_iff.mp h
  obtain ⟨u, -, rfl⟩ := Option.map_eq_some_iff.mp hrel
  exact findGroup_some hg

theorem SocialDb.findGroupById_some {s : SocialDb} {id : Id} {p : GroupWithRelations}
    (h : s.findGroupById id = some p) : p.toGroup ∈ s.groups.rows ∧ p.id = id := by
  obtain ⟨g, hg, hrel⟩ := Option.bind_eq_some_iff.mp h
  obtain ⟨u, -, rfl⟩ := Option.map_eq_some_iff.mp hrel
  exact findGroup_some hg

end Feca.Social
