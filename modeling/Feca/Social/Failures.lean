import Feca.Social.Consent
import Feca.Plans.Service

/-! # Where the repositories fail

The repositories throw nothing of their own: a failure of one of their programs
is a failure of one of its statements, and the run reports it. What remains of a
request that the database answers throughout are the exceptions of its service.
-/

namespace Feca.Social

open Concurrency Concurrency.Prog Relational

variable {α β : Type} {s t : SocialDb}

/-- The database answered every statement of the run. -/
def Answered (p : SocialProg α) (s : SocialDb) : Prop := ∀ e, .threw e ∉ (p.run s).events

theorem answered_bind {p : SocialProg α} {k : α → SocialProg β} (h : Answered (p >>= k) s) :
    Answered p s ∧ ∀ a, (p.run s).result = .ok a → Answered (k a) (p.run s).store := by
  have hfirst : Answered p s := by
    intro e he
    refine h e ?_
    cases hr : (p.run s).result with
    | ok a =>
        rw [run_bind_ok hr]
        exact List.mem_append_left _ he
    | error f =>
        rw [run_bind_error hr]
        exact he
  refine ⟨hfirst, fun a ha e he => h e ?_⟩
  rw [run_bind_ok ha]
  exact List.mem_append_right _ he

theorem answered_query {read : SocialDb → α} {k : α → SocialProg β}
    (h : Answered (query read >>= k) s) : Answered (k (read s)) s :=
  (answered_bind (p := query read) h).2 _ rfl

/-! ## The repository throws what its statements throw -/

/-- A failure of the program is a failure of one of its statements. -/
abbrev ReportsThrown (p : SocialProg α) : Prop :=
  p.Reports fun failure e => ∃ thrown, failure = .database thrown ∧ e = .threw thrown

theorem ReportsThrown.ok {p : SocialProg α} (hp : ReportsThrown p) (h : Answered p s) :
    ∃ a, (p.run s).result = .ok a := by
  cases hr : (p.run s).result with
  | ok a => exact ⟨a, rfl⟩
  | error failure =>
      obtain ⟨_, hmem, thrown, -, rfl⟩ := hp s failure hr
      exact absurd hmem (h thrown)

theorem reports_total {f : SocialDb → Answer SocialDb SocialEvent Failure α}
    (h : ∀ s, ∃ a, (f s).result = .ok a) : ReportsThrown (stmt f) := by
  refine reports_stmt fun s e he => ?_
  obtain ⟨a, ha⟩ := h s
  rw [ha] at he
  cases he

theorem reports_updateMember (id : Id) (data : MemberData) :
    ReportsThrown (updateMember id data) := by
  refine reports_stmt fun s e he => ?_
  split at he
  · rename_i hnone
    cases he
    exact ⟨_, List.mem_cons_self, recordNotFound, rfl, rfl⟩
  · cases he

theorem reports_createMember (m : GroupMember) : ReportsThrown (createMember m) := by
  refine reports_stmt fun s e he => ?_
  cases hinsert : s.insertMember m with
  | ok t => simp [hinsert] at he
  | error thrown =>
      rw [hinsert] at he
      cases he
      exact ⟨_, List.mem_cons_self, thrown, rfl, rfl⟩

theorem reports_createMembers (ms : List GroupMember) : ReportsThrown (createMembers ms) := by
  refine reports_stmt fun s e he => ?_
  cases hinsert : s.insertMembers ms with
  | ok t => simp [hinsert] at he
  | error thrown =>
      rw [hinsert] at he
      cases he
      exact ⟨_, List.mem_cons_self, thrown, rfl, rfl⟩

theorem reports_createGroupWith (find : SocialDb → Id → Option GroupWithRelations) (g : Group)
    (ms : List GroupMember) (es : List GroupEvent) :
    ReportsThrown (createGroupWith find g ms es) := by
  refine reports_stmt fun s e he => ?_
  cases hcreate : s.createGroupRows g ms es with
  | error thrown =>
      rw [hcreate] at he
      cases he
      exact ⟨_, List.mem_cons_self, thrown, rfl, rfl⟩
  | ok t =>
      cases hfind : find t g.id with
      | some row => simp [hcreate, hfind] at he
      | none =>
          simp only [hcreate, hfind] at he
          cases he
          exact ⟨_, by simp [hfind], recordNotFound, rfl, rfl⟩

theorem reports_ensureEach (env : SocialEnv) (ids : List Id) (k : Nat) :
    ReportsThrown (ensureEach env k ids) := by
  induction ids generalizing k with
  | nil => exact reports_pure ()
  | cons userId rest ih =>
      refine reports_bind (reports_stmt fun s e he => ?_) fun _ => ih (k + 1)
      cases hupsert : s.upsertSettings (settingsRow env k userId) with
      | ok t => simp [hupsert] at he
      | error thrown =>
          rw [hupsert] at he
          cases he
          exact ⟨_, List.mem_cons_self, thrown, rfl, rfl⟩

theorem reports_findInvitees (ids : List Id) : ReportsThrown (findInvitees ids) := by
  unfold findInvitees
  split
  · exact reports_pure _
  · exact reports_query _

theorem reports_getRelationshipMaps (viewerId : Id) (userIds : List Id) :
    ReportsThrown (getRelationshipMaps viewerId userIds) := by
  unfold getRelationshipMaps
  split
  · exact reports_pure _
  · exact reports_query _

theorem reports_screenMembers (env : SocialEnv) (inviterId : Id) (ids : List Id) :
    ReportsThrown (screenMembers env inviterId ids) :=
  reports_bind (reports_ensureEach _ _ _) fun _ => reports_bind (reports_findInvitees _) fun _ =>
    reports_bind (reports_getRelationshipMaps _ _) fun _ => reports_pure _

theorem reports_createGroup (env : SocialEnv) (input : CreateGroupInput) :
    ReportsThrown (createGroup env input) :=
  reports_bind (reports_screenMembers _ _ _) fun _ =>
    reports_bind (reports_createGroupWith _ _ _ _) fun _ => reports_pure _

theorem reports_findMembership (groupId userId : Id) :
    ReportsThrown (findMembership groupId userId) :=
  reports_total fun _ => ⟨_, rfl⟩

theorem reports_reviveEach (invitedById : Id) (ms : List GroupMember) :
    ReportsThrown (reviveEach invitedById ms) := by
  induction ms with
  | nil => exact reports_pure ()
  | cons m ms ih => exact reports_bind (reports_updateMember _ _) fun _ => ih

theorem reports_createAny (rows : List GroupMember) : ReportsThrown (createAny rows) := by
  unfold createAny
  split
  · exact reports_createMembers rows
  · exact reports_pure ()

theorem reports_writeInvitations (invitedById : Id) (rows revive : List GroupMember) :
    ReportsThrown (writeInvitations invitedById rows revive) :=
  reports_bind (reports_createAny _) fun _ => reports_reviveEach _ _

theorem reports_selectGroup (find : SocialDb → Option Group) :
    ReportsThrown (selectGroup find) :=
  reports_total fun _ => ⟨_, rfl⟩

theorem reports_joinGroupByCode (env : SocialEnv) (userId : Id) (inviteCode : String) :
    ReportsThrown (joinGroupByCode env userId inviteCode) := by
  refine reports_bind (reports_selectGroup _) fun g => ?_
  cases g with
  | none => exact reports_pure _
  | some g =>
      refine reports_bind (reports_bind (reports_findMembership _ _) fun membership => ?_)
        fun _ => reports_bind (reports_query _) fun _ => reports_pure _
      cases membership with
      | none => exact reports_bind (reports_createMember _) fun _ => reports_pure _
      | some m =>
          dsimp only
          split
          · exact reports_pure _
          · exact reports_bind (reports_updateMember _ _) fun _ => reports_pure _

theorem reports_leaveGroup (groupId userId : Id) : ReportsThrown (leaveGroup groupId userId) := by
  refine reports_bind (reports_findMembership _ _) fun membership => ?_
  cases membership with
  | none => exact reports_pure _
  | some m =>
      dsimp only
      split
      · exact reports_pure _
      · split
        · exact reports_pure _
        · exact reports_bind (reports_updateMember _ _) fun _ =>
            reports_bind (reports_query _) fun _ => reports_pure _

theorem reports_enterPlan (env : SocialEnv) (group : Group) (userId : Id)
    (existing : Option GroupMember) : ReportsThrown (enterPlan env group userId existing) := by
  cases existing with
  | none => exact reports_bind (reports_createMember _) fun _ => reports_pure _
  | some m => exact reports_bind (reports_updateMember _ _) fun _ => reports_pure _

theorem reports_decideJoin (env : SocialEnv) (group : Group) (userId : Id)
    (existing : Option GroupMember) : ReportsThrown (decideJoin env group userId existing) := by
  unfold decideJoin
  cases existing with
  | none =>
      dsimp only
      split
      · exact reports_pure _
      · exact reports_enterPlan _ _ _ _
  | some m =>
      dsimp only
      split
      · exact reports_pure _
      · split
        · exact reports_bind (reports_updateMember _ _) fun _ => reports_pure _
        · split
          · exact reports_pure _
          · split
            · exact reports_pure _
            · exact reports_enterPlan _ _ _ _

theorem reports_joinPlan (env : SocialEnv) (groupId userId : Id) :
    ReportsThrown (joinPlan env groupId userId) := by
  refine reports_bind (reports_selectGroup _) fun g => ?_
  cases g with
  | none => exact reports_pure _
  | some g =>
      exact reports_bind (reports_findMembership _ _) fun _ =>
        reports_map _ (reports_decideJoin _ _ _ _)

end Feca.Social
