import Feca.Plans.Service

/-! # Requests that only look

The checks of the services, and the requests made of nothing but reads and
notifications: none of their statements changes the store.
-/

namespace Feca.Social

open Concurrency Concurrency.Prog

variable {α : Type}

/-- No statement changes the store. -/
abbrev ReadsOnly (p : SocialProg α) : Prop := p.Always fun s t _ => t = s

theorem ReadsOnly.run {p : SocialProg α} (hp : ReadsOnly p) (s : SocialDb) :
    (p.run s).store = s :=
  Always.run (P := fun s t _ => t = s) hp (fun _ => rfl)
    (fun _ _ _ _ _ hst htu => htu.trans hst) s

/-- What is read first changes nothing. -/
theorem ReadsOnly.store_bind {β : Type} {Q : SocialDb → Prop} {p : SocialProg α}
    {k : α → SocialProg β} {s : SocialDb} (hp : ReadsOnly p) (hfail : Q s)
    (hok : ∀ a, (p.run s).result = .ok a → Q ((k a).run s).store) : Q ((p >>= k).run s).store := by
  apply Prog.store_bind
  · rw [hp.run s]
    exact hfail
  · intro a ha
    rw [hp.run s]
    exact hok a ha

/-- What is only read afterwards changes nothing either. -/
theorem ReadsOnly.store_after {β : Type} {Q : SocialDb → Prop} {p : SocialProg α}
    {k : α → SocialProg β} {s : SocialDb} (hk : ∀ a, ReadsOnly (k a)) (hp : Q (p.run s).store) :
    Q ((p >>= k).run s).store := by
  apply Prog.store_bind hp
  intro a _
  rw [(hk a).run]
  exact hp

theorem reads_query (read : SocialDb → α) : ReadsOnly (query read) := always_stmt fun _ => rfl

theorem reads_findMembership (groupId userId : Id) : ReadsOnly (findMembership groupId userId) :=
  always_stmt fun _ => rfl

theorem reads_publish (input : Push.PublishNotificationInput) : ReadsOnly (publish input) :=
  always_stmt fun _ => rfl

theorem reads_requirePlan (groupId : Id) : ReadsOnly (requirePlan groupId) := by
  refine always_bind (reads_query _) fun plan => ?_
  cases plan <;> trivial

theorem reads_assertAccepted (userId groupId : Id) : ReadsOnly (assertAccepted userId groupId) := by
  refine always_bind (reads_findMembership _ _) fun membership => ?_
  split <;> trivial

theorem reads_assertAdmin (userId : Id) (plan : GroupWithRelations) :
    ReadsOnly (assertAdmin userId plan) := by
  unfold assertAdmin
  split <;> trivial

theorem reads_assertGroupAccess (userId groupId : Id) : ReadsOnly (assertGroupAccess userId groupId) := by
  refine always_bind (reads_findMembership _ _) fun membership => ?_
  cases membership with
  | none => trivial
  | some m =>
      dsimp only
      split
      · trivial
      · split <;> trivial

theorem reads_get (env : PlansEnv) (userId groupId : Id) :
    ReadsOnly (PlansService.get env userId groupId) := by
  refine always_bind (reads_requirePlan _) fun plan =>
    always_bind (reads_findMembership _ _) fun membership => ?_
  unfold presentPlan
  split
  · trivial
  · split
    · trivial
    · exact always_bind (reads_query _) fun _ => trivial

theorem reads_announceJoin (userId groupId : Id) (groupName : String) (result : JoinResult) :
    ReadsOnly (announceJoin userId groupId groupName result) := by
  unfold announceJoin
  split
  · exact always_bind (reads_query _) fun _ => reads_publish _
  · trivial

theorem reads_cursorArgument (codec : CursorCodec) (cursor : Option String) :
    ReadsOnly (cursorArgument codec cursor) := by
  unfold cursorArgument
  split
  · trivial
  · split <;> trivial

theorem reads_dateArgument (codec : CursorCodec) (text : Option String) :
    ReadsOnly (dateArgument codec text) := by
  unfold dateArgument
  split
  · trivial
  · split <;> trivial

theorem reads_listMessages (env : PlansEnv) (userId groupId : Id) (query : ListPlanMessagesQuery) :
    ReadsOnly (PlansService.listMessages env userId groupId query) :=
  always_bind (reads_assertAccepted _ _) fun _ => always_bind (reads_cursorArgument _ _) fun _ =>
    always_bind (reads_dateArgument _ _) fun _ => always_bind (reads_query _) fun _ => trivial

end Feca.Social
