import Feca.Plans.Conversation
import Feca.Plans.Enrolment

/-! # Who writes what into a group

Requests about groups, plans, memberships, events, answers and messages follow
one another. Each of them reads a group or a membership first, and an event or a
message by ids of its own; what it writes then belongs to a group that its
writer is an accepted member of.
-/

namespace Feca.Social

open Concurrency Concurrency.Prog Relational

variable {s t u : SocialDb} {α : Type} {userId groupId : Id}

/-! ## Turns -/

/-- A request that ran: who sent it, and the stores before and after. -/
structure Turn where
  userId : Id
  before : SocialDb
  after : SocialDb

/-- An edit keeps the id of an event, its group, its proposer and its status. -/
def SameProposal (e e' : GroupEvent) : Prop :=
  e'.id = e.id ∧ e'.groupId = e.groupId ∧ e'.proposedById = e.proposedById ∧ e'.status = e.status

namespace Turn

/-- The sender is an accepted member of the group, and was one already unless
the request itself has founded it. -/
def Admits (turn : Turn) (groupId : Id) : Prop :=
  IsAccepted turn.after turn.userId groupId ∧
    (turn.before.hasGroup groupId = true → IsAccepted turn.before turn.userId groupId)

/-- Members of the group may write events into it, others than its creator if
its policy lets them, and announcements only if their proposals are locked. -/
def MayPropose (turn : Turn) (e : GroupEvent) : Prop :=
  turn.Admits e.groupId ∧ ∀ g ∈ turn.after.groups.rows, g.id = e.groupId →
    g.createdById ≠ turn.userId → g.placeProposalPolicy ≠ .ownerOnly ∧
      (g.memberProposalInteraction = .announcementLocked → e.status = .announcement)

/-- Members of a group may answer for themselves to its events that allow it. -/
def MayAnswer (turn : Turn) (r : GroupEventRsvp) : Prop :=
  r.userId = turn.userId ∧ ∃ e ∈ turn.before.events.rows, ∃ g ∈ turn.before.groups.rows,
    e.id = r.eventId ∧ g.id = e.groupId ∧ turn.Admits g.id ∧
      (computeGroupEventCapabilityFlags g e).allowsRsvp = true

/-- Members of a group may write messages under their own name. -/
def MaySend (turn : Turn) (m : GroupMessage) : Prop :=
  m.authorId = turn.userId ∧ turn.Admits m.groupId

/-- Accepted owners and admins of a group may mark its messages deleted. -/
def MayDelete (turn : Turn) (m : GroupMessage) : Prop :=
  turn.before.administers turn.userId m.groupId = true ∧ m.deletedAt ≠ none ∧
    { m with deletedAt := none } ∈ turn.before.messages.rows

/-- The sender may write whatever the request has written. -/
structure Authorized (turn : Turn) : Prop where
  events : ∀ e ∈ turn.after.events.rows, e ∉ turn.before.events.rows → turn.MayPropose e ∧
    (e.proposedById = turn.userId ∨ ∃ old ∈ turn.before.events.rows, SameProposal old e)
  rsvps : ∀ r ∈ turn.after.rsvps.rows, r ∉ turn.before.rsvps.rows → turn.MayAnswer r
  messages : ∀ m ∈ turn.after.messages.rows, m ∉ turn.before.messages.rows →
    m.deletedAt = none ∧ turn.MaySend m ∨ turn.MayDelete m

end Turn

/-- A request of the user leads from one store to the other. -/
def AuthorizedStep (userId : Id) (s t : SocialDb) : Prop := (Turn.mk userId s t).Authorized

/-- What enrols writes nothing into groups. -/
theorem authorized_of_content (h : t.content = s.content) : AuthorizedStep userId s t := by
  have hevents : t.events = s.events := congrArg (·.1) h
  have hrsvps : t.rsvps = s.rsvps := congrArg (·.2.1) h
  have hmessages : t.messages = s.messages := congrArg (·.2.2) h
  refine ⟨fun e he hnew => ?_, fun r hr hnew => ?_, fun m hm hnew => ?_⟩
  · exact absurd (hevents ▸ he) hnew
  · exact absurd (hrsvps ▸ hr) hnew
  · exact absurd (hmessages ▸ hm) hnew

theorem AuthorizedStep.refl (userId : Id) (s : SocialDb) : AuthorizedStep userId s s :=
  authorized_of_content rfl

theorem EnrolsOnly.authorized {p : SocialProg α} (hp : EnrolsOnly p) (s : SocialDb) :
    AuthorizedStep userId s (p.run s).store :=
  authorized_of_content (hp.run s).content

theorem SameContent.content (h : SameContent s t) : t.content = s.content := by
  unfold SocialDb.content
  rw [h.events, h.rsvps, h.messages]

theorem isAccepted_of_members (h : t.members = s.members) :
    IsAccepted t userId groupId ↔ IsAccepted s userId groupId := by
  unfold IsAccepted SocialDb.findMembership
  rw [h]

/-- What happens elsewhere first makes no difference to the request. -/
theorem AuthorizedStep.of_same (hsame : SameContent s t) (h : AuthorizedStep userId t u) :
    AuthorizedStep userId s u := by
  have hadmits : ∀ groupId, (Turn.mk userId t u).Admits groupId →
      (Turn.mk userId s u).Admits groupId := by
    intro groupId hadmits
    refine ⟨hadmits.1, fun hgroup => (isAccepted_of_members hsame.members).mp (hadmits.2 ?_)⟩
    show t.groups.rows.any _ = true
    rw [hsame.groups]
    exact hgroup
  refine ⟨fun e he hnew => ?_, fun r hr hnew => ?_, fun m hm hnew => ?_⟩
  · obtain ⟨⟨hmember, hpolicy⟩, hproposer⟩ := h.events e he (hsame.events ▸ hnew)
    refine ⟨⟨hadmits _ hmember, hpolicy⟩, hproposer.imp_right ?_⟩
    intro ⟨old, hold, hid⟩
    exact ⟨old, hsame.events ▸ hold, hid⟩
  · obtain ⟨huser, e, he, g, hg, hevent, hgroup, hmember, hallows⟩ :=
      h.rsvps r hr (hsame.rsvps ▸ hnew)
    exact ⟨huser, e, hsame.events ▸ he, g, hsame.groups ▸ hg, hevent, hgroup, hadmits _ hmember,
      hallows⟩
  · rcases h.messages m hm (hsame.messages ▸ hnew) with ⟨hlive, hauthor, hmember⟩ | hdelete
    · exact .inl ⟨hlive, hauthor, hadmits _ hmember⟩
    · obtain ⟨hadmin, hdeleted, hold⟩ := hdelete
      refine .inr ⟨?_, hdeleted, hsame.messages ▸ hold⟩
      unfold SocialDb.administers SocialDb.findMembership at hadmin ⊢
      rw [← hsame.members]
      exact hadmin

/-- A member stays one while memberships are left alone. -/
theorem admits_of_untouched (h : Untouched s t) (haccepted : IsAccepted s userId groupId) :
    (Turn.mk userId s t).Admits groupId :=
  ⟨(isAccepted_of_members h.2).mpr haccepted, fun _ => haccepted⟩

/-! ## What the checks say -/

theorem assertAccepted_ok {a : Unit}
    (h : ((assertAccepted userId groupId).run s).result = .ok a) : IsAccepted s userId groupId := by
  rw [assertAccepted_run] at h
  by_cases haccepted : IsAccepted s userId groupId
  · exact haccepted
  · simp [haccepted] at h

theorem assertGroupAccess_ok {a : Unit}
    (h : ((assertGroupAccess userId groupId).run s).result = .ok a) :
    IsAccepted s userId groupId := by
  unfold assertGroupAccess at h
  rw [run_bind_ok (p := findMembership _ _) rfl] at h
  simp only [findMembership, run_stmt] at h
  cases hm : s.findMembership groupId userId with
  | none => simp [hm, throwHttp] at h
  | some m =>
      by_cases haccepted : m.status = .accepted
      · simp [IsAccepted, hm, haccepted]
      · by_cases hasked : m.status = .pending ∨ m.status = .requested
        · simp [hm, hasked, throwHttp] at h
        · simp [hm, hasked, haccepted, throwHttp] at h

theorem assertAdmin_ok {plan : GroupWithRelations} {a : Unit}
    (hplan : s.findPlanById groupId = some plan)
    (h : ((assertAdmin userId plan).run t).result = .ok a) :
    s.administers userId groupId = true := by
  have hadmin : plan.isAdministeredBy userId = true := by
    by_contra hnot
    simp [assertAdmin, hnot, throwHttp] at h
  unfold SocialDb.administers
  rw [SocialDb.findMembership_eq hplan]
  unfold GroupWithRelations.isAdministeredBy at hadmin
  cases hm : plan.membershipOf userId with
  | none => simp [hm] at hadmin
  | some m => simpa [hm] using hadmin

theorem requirePlan_ok {plan : GroupWithRelations}
    (h : ((requirePlan groupId).run s).result = .ok plan) : s.findPlanById groupId = some plan := by
  cases hplan : s.findPlanById groupId with
  | none => simp [requirePlan_none hplan] at h
  | some p =>
      rw [requirePlan_some hplan] at h
      rw [Except.ok.inj h]

theorem isAccepted_of_administers (h : s.administers userId groupId = true) :
    IsAccepted s userId groupId := by
  unfold SocialDb.administers at h
  unfold IsAccepted
  cases hm : s.findMembership groupId userId with
  | none => simp [hm] at h
  | some m =>
      simp [hm] at h
      simp [h.1]

/-! ## Messages -/

/-- A message that is stored is the only thing that has changed. -/
theorem insertMessage_ok {m : GroupMessage} (h : s.insertMessage m = .ok t) :
    Untouched s t ∧ t.events = s.events ∧ t.rsvps = s.rsvps ∧
      t.messages.rows = s.messages.rows ++ [m] := by
  unfold SocialDb.insertMessage at h
  split at h
  · split at h
    · cases h
    · rename_i messages hinsert
      cases h
      exact ⟨⟨rfl, rfl⟩, rfl, rfl, (Table.insert_eq_some hinsert).1⟩
  · cases h

theorem authorized_of_messages (hevents : t.events = s.events) (hrsvps : t.rsvps = s.rsvps)
    (hmessages : ∀ m ∈ t.messages.rows, m ∉ s.messages.rows →
      m.deletedAt = none ∧ (Turn.mk userId s t).MaySend m ∨ (Turn.mk userId s t).MayDelete m) :
    AuthorizedStep userId s t := by
  refine ⟨fun e he hnew => ?_, fun r hr hnew => ?_, hmessages⟩
  · exact absurd (hevents ▸ he) hnew
  · exact absurd (hrsvps ▸ hr) hnew

theorem authorized_insertMessage {m : GroupMessage} (haccepted : IsAccepted s userId m.groupId)
    (hauthor : m.authorId = userId) (hlive : m.deletedAt = none) (h : s.insertMessage m = .ok t) :
    AuthorizedStep userId s t := by
  obtain ⟨huntouched, hevents, hrsvps, hrows⟩ := insertMessage_ok h
  apply authorized_of_messages hevents hrsvps
  intro x hx hnew
  rw [hrows] at hx
  rcases List.mem_append.mp hx with hold | hx
  · exact absurd hold hnew
  · rw [List.mem_singleton.mp hx]
    exact .inl ⟨hlive, hauthor, admits_of_untouched huntouched haccepted⟩

theorem createMessage_store (s : SocialDb) (m : GroupMessage) :
    ((createMessage m).run s).store = s ∨
      s.insertMessage m = .ok ((createMessage m).run s).store := by
  unfold createMessage
  rw [run_stmt]
  split
  · exact .inl rfl
  · rename_i t hinsert
    split
    · exact .inr hinsert
    · exact .inl rfl

theorem authorized_sendMessage (env : PlansEnv) (userId groupId : Id) (body : String)
    (s : SocialDb) :
    AuthorizedStep userId s ((PlansService.sendMessage env userId groupId body).run s).store := by
  apply (reads_assertAccepted _ _).store_bind (.refl userId s)
  intro _ haccess
  apply ReadsOnly.store_after
  · exact fun message => always_bind (reads_query _) fun _ =>
      always_bind (reads_requirePlan _) fun _ => always_bind (reads_publish _) fun _ => trivial
  · set message : GroupMessage :=
      { id := env.messageId, groupId, authorId := userId, body := trim body, createdAt := env.now }
    have haccepted : IsAccepted s userId message.groupId := assertAccepted_ok haccess
    rcases createMessage_store s message with hstore | hinsert
    · rw [hstore]
      exact .refl userId s
    · exact authorized_insertMessage haccepted rfl rfl hinsert

theorem authorized_markDeleted {p : GroupMessage → Bool} {now : Date}
    (hadmin : ∀ m, p m = true → s.administers userId m.groupId = true ∧ m.deletedAt = none) :
    AuthorizedStep userId s (s.markDeleted p now) := by
  refine authorized_of_messages ?_ ?_ ?_
  · rfl
  · rfl
  intro m hm hnew
  obtain ⟨x, hx, rfl⟩ := List.mem_map.mp hm
  by_cases hp : p x = true
  · simp only [hp, if_true]
    obtain ⟨hallowed, hlive⟩ := hadmin x hp
    refine .inr ⟨hallowed, by simp, ?_⟩
    have hsame : ({ x with deletedAt := none } : GroupMessage) = x := by rw [← hlive]
    exact hsame ▸ hx
  · simp only [hp] at hnew
    exact absurd hx hnew

theorem authorized_deleteMessage (env : PlansEnv) (userId groupId messageId : Id) (s : SocialDb) :
    AuthorizedStep userId s
      ((PlansService.deleteMessage env userId groupId messageId).run s).store := by
  apply (reads_requirePlan _).store_bind (.refl userId s)
  intro plan hplan
  apply (reads_assertAdmin _ _).store_bind (.refl userId s)
  intro _ hadmin
  have hadmin := assertAdmin_ok (requirePlan_ok hplan) hadmin
  apply ReadsOnly.store_after
  · intro count
    split <;> trivial
  · unfold removeMessage
    rw [run_stmt]
    apply authorized_markDeleted
    intro m hm
    simp only [Bool.and_eq_true, beq_iff_eq] at hm
    rw [hm.1.2]
    exact ⟨hadmin, hm.2⟩

/-! ## Answers -/

/-- The user has answered the event, or taken an answer back. -/
structure Responds (eventId userId : Id) (rsvp : RsvpInput) (s t : SocialDb) : Prop where
  untouched : Untouched s t
  events : t.events = s.events
  messages : t.messages = s.messages
  rsvps : ∀ r ∈ t.rsvps.rows, r ∈ s.rsvps.rows ∨
    rsvp ≠ none ∧ r.eventId = eventId ∧ r.userId = userId

theorem Responds.refl (eventId userId : Id) (rsvp : RsvpInput) (s : SocialDb) :
    Responds eventId userId rsvp s s := ⟨.refl s, rfl, rfl, fun _ hr => .inl hr⟩

theorem responds_upsertRsvp {row : GroupEventRsvp} {status : GroupEventRsvpStatus}
    (h : s.upsertRsvp row = .ok t) : Responds row.eventId row.userId (some status) s t := by
  unfold SocialDb.upsertRsvp at h
  dsimp only at h
  split at h
  · cases h
    refine ⟨.refl s, rfl, rfl, fun r hr => ?_⟩
    obtain ⟨x, hx, rfl⟩ := List.mem_map.mp hr
    by_cases hsame : (x.eventId == row.eventId && x.userId == row.userId) = true
    · rw [if_pos hsame]
      simp only [Bool.and_eq_true, beq_iff_eq] at hsame
      exact .inr ⟨by simp, hsame⟩
    · rw [if_neg hsame]
      exact .inl hx
  · split at h
    · cases hinsert : s.rsvps.insert row with
      | none => simp [hinsert] at h
      | some rsvps =>
          simp only [hinsert] at h
          cases h
          refine ⟨.refl s, rfl, rfl, fun r hr => ?_⟩
          rw [(Table.insert_eq_some hinsert).1, List.mem_append, List.mem_singleton] at hr
          rcases hr with hr | rfl
          · exact .inl hr
          · exact .inr ⟨by simp, rfl, rfl⟩
    · cases h

theorem responds_writeRsvp (env : PlansEnv) (eventId userId : Id) (rsvp : RsvpInput)
    (s : SocialDb) :
    Responds eventId userId rsvp s ((writeRsvp env eventId userId rsvp).run s).store := by
  cases rsvp with
  | none => exact ⟨.refl s, rfl, rfl, fun r hr => .inl (List.mem_of_mem_filter hr)⟩
  | some status =>
      unfold writeRsvp upsertRsvp
      rw [run_stmt]
      cases h : s.upsertRsvp
          { id := env.rsvpId, eventId, userId, rsvp := status, createdAt := env.now } with
      | error e => exact .refl _ _ _ s
      | ok t => exact responds_upsertRsvp h

theorem responds_setGroupEventRsvp (env : PlansEnv) (eventId userId : Id) (rsvp : RsvpInput)
    (s : SocialDb) :
    Responds eventId userId rsvp s ((setGroupEventRsvp env eventId userId rsvp).run s).store := by
  apply (reads_query _).store_bind (.refl _ _ _ s)
  intro previousRsvp _
  dsimp only
  split
  · apply ReadsOnly.store_after
    · intro _
      apply always_bind (reads_query _)
      intro event
      cases event with
      | none => trivial
      | some event => exact always_bind (reads_query _) fun _ => trivial
    · exact responds_writeRsvp env eventId userId rsvp s
  · apply (reads_query _).store_bind (.refl _ _ _ s)
    intro event _
    cases event with
    | none => exact .refl _ _ _ s
    | some event =>
        apply (reads_query _).store_bind (.refl _ _ _ s)
        intro group _
        exact .refl _ _ _ s

theorem responds_answerEvent (env : PlansEnv) (userId eventId : Id) (event : EventWithRelations)
    (rsvp : RsvpInput) (s : SocialDb) :
    Responds eventId userId rsvp s ((answerEvent env userId eventId event rsvp).run s).store := by
  apply ReadsOnly.store_after
  · intro updated
    cases updated with
    | none => trivial
    | some updated =>
        dsimp only
        split
        · exact always_bind (reads_publish _) fun _ => trivial
        · trivial
  · exact responds_setGroupEventRsvp env eventId userId rsvp s

theorem SocialDb.findGroupEventById_some {eventId : Id} {event : EventWithRelations}
    (h : s.findGroupEventById groupId eventId = some event) :
    event.toGroupEvent ∈ s.events.rows ∧ event.groupId = groupId ∧ event.id = eventId := by
  obtain ⟨e, he, hrel⟩ := Option.bind_eq_some_iff.mp h
  obtain ⟨place, -, hrel⟩ := Option.bind_eq_some_iff.mp hrel
  obtain ⟨proposer, -, rfl⟩ := Option.map_eq_some_iff.mp hrel
  have hids := List.find?_some he
  simp only [Bool.and_eq_true, beq_iff_eq] at hids
  exact ⟨List.mem_of_find?_eq_some he, hids⟩

theorem authorized_of_responds {rsvp : RsvpInput} {g : Group} {e : GroupEvent}
    (hg : g ∈ s.groups.rows) (he : e ∈ s.events.rows) (hgroup : e.groupId = g.id)
    (haccepted : IsAccepted s userId g.id)
    (hallows : rsvp ≠ none → (computeGroupEventCapabilityFlags g e).allowsRsvp = true)
    (h : Responds e.id userId rsvp s t) : AuthorizedStep userId s t := by
  refine ⟨fun x hx hnew => ?_, fun r hr hnew => ?_, fun m hm hnew => ?_⟩
  · exact absurd (h.events ▸ hx) hnew
  · rcases h.rsvps r hr with hold | ⟨hrsvp, hevent, huser⟩
    · exact absurd hold hnew
    · exact ⟨huser, e, he, g, hg, hevent.symm, hgroup.symm,
        admits_of_untouched h.untouched haccepted, hallows hrsvp⟩
  · exact absurd (h.messages ▸ hm) hnew

theorem authorized_setGroupEventRsvp (env : PlansEnv) (userId groupId eventId : Id)
    (rsvp : RsvpInput) (s : SocialDb) : AuthorizedStep userId s
      ((SocialGroupEventsService.setGroupEventRsvp env userId groupId eventId rsvp).run s).store := by
  apply (reads_query _).store_bind (.refl userId s)
  intro found hfound
  cases found with
  | none => exact .refl userId s
  | some group =>
      obtain ⟨hg, hgroup⟩ := SocialDb.findGroupById_some (Except.ok.inj hfound)
      apply (reads_assertGroupAccess _ _).store_bind (.refl userId s)
      intro _ haccess
      have haccepted : IsAccepted s userId group.toGroup.id := hgroup ▸ assertGroupAccess_ok haccess
      apply (reads_query _).store_bind (.refl userId s)
      intro found hfound
      cases found with
      | none => exact .refl userId s
      | some event =>
          obtain ⟨he, heventGroup, rfl⟩ :=
            SocialDb.findGroupEventById_some (Except.ok.inj hfound)
          dsimp only
          split
          · exact .refl userId s
          · rename_i hflags
            have hallows : rsvp ≠ none → (computeGroupEventCapabilityFlags group.toGroup
                event.toGroupEvent).allowsRsvp = true := by
              intro hrsvp
              by_contra hnot
              exact hflags (by simp [hnot, hrsvp])
            exact authorized_of_responds hg he (heventGroup.trans hgroup.symm) haccepted hallows
              (responds_answerEvent env userId event.id event rsvp s)

theorem authorized_setRsvp (env : PlansEnv) (userId groupId eventId : Id) (rsvp : RsvpInput)
    (s : SocialDb) : AuthorizedStep userId s
      ((PlansService.setRsvp env userId groupId eventId rsvp).run s).store := by
  apply (reads_assertAccepted _ _).store_bind (.refl userId s)
  intro _ _
  apply ReadsOnly.store_after
  · exact fun _ => reads_get _ _ _
  · exact authorized_setGroupEventRsvp env userId groupId eventId rsvp s

/-! ## Proposals -/

/-- An event that is stored is the only thing that has changed. -/
theorem insertEvent_rows {e : GroupEvent} (h : s.insertEvent e = .ok t) :
    Untouched s t ∧ t.events.rows = s.events.rows ++ [e] ∧ t.rsvps = s.rsvps ∧
      t.messages = s.messages := by
  unfold SocialDb.insertEvent at h
  split at h
  · split at h
    · cases h
    · rename_i events hinsert
      cases h
      exact ⟨.refl s, (Table.insert_eq_some hinsert).1, rfl, rfl⟩
  · cases h

theorem createEvent_store (s : SocialDb) (e : GroupEvent) :
    ((createEvent e).run s).store = s ∨ s.insertEvent e = .ok ((createEvent e).run s).store := by
  unfold createEvent
  rw [run_stmt]
  split
  · exact .inl rfl
  · rename_i t hinsert
    split
    · exact .inr hinsert
    · exact .inl rfl

/-- One event that its proposer may write is new. -/
theorem authorized_of_event {e : GroupEvent} (hproposer : e.proposedById = userId)
    (hmay : (Turn.mk userId s t).MayPropose e) (hevents : t.events.rows = s.events.rows ++ [e])
    (hrsvps : t.rsvps = s.rsvps) (hmessages : t.messages = s.messages) :
    AuthorizedStep userId s t := by
  refine ⟨fun x hx hnew => ?_, fun r hr hnew => ?_, fun m hm hnew => ?_⟩
  · have hx : x ∈ s.events.rows ++ [e] := hevents ▸ hx
    rcases List.mem_append.mp hx with hold | hx
    · exact absurd hold hnew
    · rw [List.mem_singleton.mp hx]
      exact ⟨hmay, .inl hproposer⟩
  · exact absurd (hrsvps ▸ hr) hnew
  · exact absurd (hmessages ▸ hm) hnew

/-- No statement changes a group or anything in it. -/
abbrev SameOnly (p : SocialProg α) : Prop := p.Always fun s t _ => SameContent s t

theorem SameOnly.run {p : SocialProg α} (hp : SameOnly p) (s : SocialDb) :
    SameContent s (p.run s).store :=
  Always.run (P := fun s t _ => SameContent s t) hp (fun s => .refl s)
    (fun _ _ _ _ _ hst htu => hst.trans htu) s

theorem ReadsOnly.same {p : SocialProg α} (hp : ReadsOnly p) : SameOnly p :=
  hp.mono fun s _ _ hst => hst ▸ .refl s

theorem SameOnly.authorized_bind {β : Type} {p : SocialProg α} {k : α → SocialProg β}
    (hp : SameOnly p)
    (hk : ∀ a t, SameContent s t → AuthorizedStep userId t ((k a).run t).store) :
    AuthorizedStep userId s ((p >>= k).run s).store := by
  have hsame := hp.run s
  apply Prog.store_bind
  · exact .of_same hsame (.refl userId _)
  · intro a _
    exact .of_same hsame (hk a _ hsame)

theorem same_resolveWritablePlace (env : AuthoringEnv) (input : PlaceInput) :
    SameOnly (resolveWritablePlace env input) := by
  apply always_bind
  · unfold findPlace
    split
    · trivial
    · exact (reads_query _).same
  · intro place
    cases place with
    | some place => trivial
    | none =>
        dsimp only
        split
        · exact env.resolve_same _
        · trivial

theorem reads_eventDate (codec : CursorCodec) (date : String) :
    ReadsOnly (eventDate codec date) := by
  unfold eventDate
  split
  · trivial
  · trivial

theorem authorized_addGroupEvent (env : AuthoringEnv) (userId groupId : Id)
    (body : AddGroupEventDto) (s : SocialDb) : AuthorizedStep userId s
      ((SocialGroupEventsService.addGroupEvent env userId groupId body).run s).store := by
  apply (reads_query _).store_bind (.refl userId s)
  intro found hfound
  cases found with
  | none => exact .refl userId s
  | some group =>
      obtain ⟨hg, hgroup⟩ := SocialDb.findGroupById_some (Except.ok.inj hfound)
      apply (reads_assertGroupAccess _ _).store_bind (.refl userId s)
      intro _ haccess
      have haccepted := assertGroupAccess_ok haccess
      split
      · exact .refl userId s
      · rename_i hpolicy
        apply (same_resolveWritablePlace _ _).authorized_bind
        intro place t hsame
        apply (reads_eventDate _ _).store_bind (.refl userId t)
        intro date _
        apply ReadsOnly.store_after
        · exact fun event => always_bind (reads_publish _) fun _ => trivial
        · set event : GroupEvent :=
            { id := env.eventId, groupId, placeId := place.id, proposedById := userId, date,
              status := proposalStatus group.toGroup userId, createdAt := env.now }
          rcases createEvent_store t event with hstore | hinsert
          · rw [hstore]
            exact .refl userId t
          · obtain ⟨huntouched, hevents, hrsvps, hmessages⟩ := insertEvent_rows hinsert
            refine authorized_of_event rfl ⟨?_, ?_⟩ hevents hrsvps hmessages
            · exact admits_of_untouched huntouched
                ((isAccepted_of_members hsame.members).mpr haccepted)
            · intro g hmem hid hother
              have hmem : g ∈ s.groups.rows := hsame.groups ▸ huntouched.1 ▸ hmem
              obtain rfl := s.group_unique hmem hg (hid.trans hgroup.symm)
              refine ⟨fun howner => hpolicy ⟨howner, Ne.symm hother⟩, fun hlocked => ?_⟩
              exact if_pos ⟨hlocked, Ne.symm hother⟩

/-! ## Plans -/

theorem createGroupRows_content {g : Group} {ms : List GroupMember} {e : GroupEvent}
    (h : s.createGroupRows g ms [e] = .ok t) : t.events.rows = s.events.rows ++ [e] ∧
      t.rsvps = s.rsvps ∧ t.messages = s.messages := by
  obtain ⟨u, v, hg, hm, hes⟩ := SocialDb.createGroupRows_steps h
  have hcontent := (insertEach_content hm).trans (insertGroup_content hg)
  rw [List.foldlM_cons] at hes
  cases he : v.insertEvent e with
  | error x => simp [he, Bind.bind, Except.bind] at hes
  | ok w =>
      rw [he] at hes
      cases hes
      obtain ⟨-, hevents, hrsvps, hmessages⟩ := insertEvent_rows he
      rw [hevents, hrsvps, hmessages]
      exact ⟨congrArg (fun c => c.1.rows ++ [e]) hcontent, congrArg (·.2.1) hcontent,
        congrArg (·.2.2) hcontent⟩

/-- The creator of a plan is its first accepted member, and proposes its event. -/
theorem authorized_createGroupRows {g : Group} {ms : List GroupMember} {e : GroupEvent}
    {owner : GroupMember} (howner : owner ∈ ms) (hmember : owner.groupId = g.id)
    (huser : owner.userId = g.createdById) (haccepted : owner.status = .accepted)
    (hgroup : e.groupId = g.id) (hproposer : e.proposedById = g.createdById)
    (h : s.createGroupRows g ms [e] = .ok t) : AuthorizedStep g.createdById s t := by
  obtain ⟨-, hgroups, hnew, hmembers⟩ := SocialDb.createGroupRows_ok h
  obtain ⟨hevents, hrsvps, hmessages⟩ := createGroupRows_content h
  refine authorized_of_event hproposer ⟨⟨?_, ?_⟩, ?_⟩ hevents hrsvps hmessages
  · have hmem : owner ∈ t.members.rows := by
      rw [hmembers]
      exact List.mem_append_right _ howner
    have hfind := SocialDb.findMembership_of_mem hmem
    rw [hmember, huser] at hfind
    show (t.findMembership e.groupId g.createdById).map (·.status) = some .accepted
    rw [hgroup, hfind, Option.map_some, haccepted]
  · intro hexists
    obtain ⟨x, hx, hid⟩ := SocialDb.exists_of_hasGroup hexists
    exact absurd (hid.trans hgroup) (hnew x hx)
  · intro x hx hid hother
    have hx : x ∈ s.groups.rows ++ [g] := hgroups ▸ hx
    rcases List.mem_append.mp hx with hold | hx
    · exact absurd (hid.trans hgroup) (hnew x hold)
    · rw [List.mem_singleton.mp hx] at hother
      exact absurd rfl hother

theorem createGroupWith_store (find : SocialDb → Id → Option GroupWithRelations) (s : SocialDb)
    (g : Group) (ms : List GroupMember) (es : List GroupEvent) :
    ((createGroupWith find g ms es).run s).store = s ∨
      s.createGroupRows g ms es = .ok ((createGroupWith find g ms es).run s).store := by
  unfold createGroupWith
  rw [run_stmt]
  split
  · exact .inl rfl
  · rename_i t hcreate
    split
    · exact .inr hcreate
    · exact .inl rfl

theorem reads_presentCreated (userId : Id) (created : CreatedPlan) : ReadsOnly (do
    let plan := created.plan
    let _ ← if created.invitedUserIds.length > 0 then
        publish (groupNotification .groupInvite userId plan.id plan.name created.invitedUserIds
          [("inviteCode", some (.string plan.inviteCode))])
      else pure ()
    pure (serializePlan plan userId [] true plan.events.head?) : SocialProg PlanView) := by
  dsimp only
  split
  · exact always_bind (reads_publish _) fun _ => trivial
  · trivial

/-- Nothing is written, or a plan by its creator. -/
def Plans (env : SocialEnv) (input : CreatePlanInput) (s t : SocialDb) : Prop :=
  t = s ∨ ∃ ids, s.createGroupRows (input.group env) (foundingMembers env input.createdById ids)
    [input.event env] = .ok t

theorem plans_createPlan (env : SocialEnv) (input : CreatePlanInput) (s : SocialDb) :
    Plans env input s ((createPlan env input).run s).store := by
  apply (reads_query _).store_bind (.inl rfl)
  intro invitees _
  apply ReadsOnly.store_after
  · exact fun plan => trivial
  · rcases createGroupWith_store (·.findPlanById) s (input.group env)
      (foundingMembers env input.createdById invitees) [input.event env] with hstore | hcreate
    · exact .inl hstore
    · exact .inr ⟨invitees, hcreate⟩

theorem Plans.authorized {env : SocialEnv} {input : CreatePlanInput} (h : Plans env input s t) :
    AuthorizedStep input.createdById s t := by
  rcases h with rfl | ⟨ids, hcreate⟩
  · exact .refl _ _
  · have howner : ownerMember env input.createdById ∈ foundingMembers env input.createdById ids :=
      List.mem_cons_self
    exact authorized_createGroupRows (g := input.group env) howner rfl rfl rfl rfl rfl hcreate

theorem Plans.ranked {env : SocialEnv} {input : CreatePlanInput} (h : Plans env input s t)
    (hranked : Ranked s) : Ranked t := by
  rcases h with rfl | ⟨ids, hcreate⟩
  · exact hranked
  · obtain ⟨-, hgroups, -, hmembers⟩ := SocialDb.createGroupRows_ok hcreate
    refine hranked.append (by simp +contextual [hgroups]) hmembers fun m hm => ?_
    rcases founding_ranks env (g := input.group env) rfl ids m hm with
      hmember | ⟨howner, hgroup, huser⟩
    · exact .inl hmember
    · exact .inr ⟨howner, input.group env, by simp [hgroups], hgroup.symm, huser.symm⟩

theorem authorized_create (env : AuthoringEnv) (inviteCode : String) (userId : Id)
    (body : CreatePlanDto) (s : SocialDb) : AuthorizedStep userId s
      ((PlansService.create env inviteCode userId body).run s).store := by
  apply (same_resolveWritablePlace _ _).authorized_bind
  intro place t _
  apply (reads_eventDate _ _).store_bind (.refl userId t)
  intro date _
  apply ReadsOnly.store_after
  · exact reads_presentCreated userId
  · exact (plans_createPlan env.toSocialEnv (body.input userId inviteCode date place.id) t).authorized

/-- Groups keep their ids and creators; of the events, the one with the id may
have another date and place. -/
structure Edits (eventId : Option Id) (s t : SocialDb) : Prop where
  members : t.members = s.members
  groups : ∀ x ∈ s.groups.rows, ∃ g ∈ t.groups.rows, g.id = x.id ∧ g.createdById = x.createdById
  events : ∀ e ∈ t.events.rows, e ∈ s.events.rows ∨ eventId = some e.id ∧
    ∃ old ∈ s.events.rows, SameProposal old e
  rsvps : t.rsvps = s.rsvps
  messages : t.messages = s.messages

theorem Edits.refl (eventId : Option Id) (s : SocialDb) : Edits eventId s s :=
  ⟨rfl, fun x hx => ⟨x, hx, rfl, rfl⟩, fun _ he => .inl he, rfl, rfl⟩

theorem Edits.trans {eventId : Option Id} (hst : Edits eventId s t) (htu : Edits eventId t u) :
    Edits eventId s u := by
  refine ⟨htu.members.trans hst.members, fun x hx => ?_, fun e he => ?_,
    htu.rsvps.trans hst.rsvps, htu.messages.trans hst.messages⟩
  · obtain ⟨y, hy, hid, hcreator⟩ := hst.groups x hx
    obtain ⟨g, hg, hid', hcreator'⟩ := htu.groups y hy
    exact ⟨g, hg, hid'.trans hid, hcreator'.trans hcreator⟩
  · rcases htu.events e he with he | ⟨hid, old, hold, hsame⟩
    · exact hst.events e he
    · rcases hst.events old hold with hold | ⟨-, older, holder, hsame'⟩
      · exact .inr ⟨hid, old, hold, hsame⟩
      · obtain ⟨h₁, h₂, h₃, h₄⟩ := hsame
        obtain ⟨h₁', h₂', h₃', h₄'⟩ := hsame'
        exact .inr ⟨hid, older, holder, h₁.trans h₁', h₂.trans h₂', h₃.trans h₃', h₄.trans h₄'⟩

theorem edits_setGroup (eventId : Option Id) (s : SocialDb) (groupId : Id) (data : GroupData) :
    Edits eventId s (s.setGroup groupId data) := by
  refine ⟨rfl, fun x hx => ⟨_, mem_setGroup.mpr ⟨x, hx, rfl⟩, ?_⟩, fun _ he => .inl he, rfl, rfl⟩
  split
  · exact ⟨rfl, rfl⟩
  · exact ⟨rfl, rfl⟩

theorem edits_updateEvent {eventId : Id} {data : EventData}
    (h : s.updateEvent eventId data = .ok t) : Edits (some eventId) s t := by
  unfold SocialDb.updateEvent at h
  split at h
  · split at h
    · cases h
      refine ⟨rfl, fun x hx => ⟨x, hx, rfl, rfl⟩, fun e he => ?_, rfl, rfl⟩
      obtain ⟨x, hx, rfl⟩ := List.mem_map.mp he
      by_cases hid : (x.id == eventId) = true
      · rw [if_pos hid]
        exact .inr ⟨congrArg some (beq_iff_eq.mp hid).symm, x, hx, rfl, rfl, rfl, rfl⟩
      · rw [if_neg hid]
        exact .inl hx
    · cases h
  · cases h

theorem edits_updateGroupRow (eventId : Option Id) (groupId : Id) (data : GroupData) :
    (updateGroupRow groupId data).Always fun s t _ => Edits eventId s t := by
  refine always_stmt fun s => ?_
  split
  · exact edits_setGroup eventId s groupId data
  · exact .refl eventId s

theorem ReadsOnly.edits {p : SocialProg α} (hp : ReadsOnly p) (eventId : Option Id) :
    p.Always fun s t _ => Edits eventId s t :=
  hp.mono fun s _ _ hst => hst ▸ .refl eventId s

theorem edits_writePlanEvent (codec : CursorCodec) (eventId : Option Id) (date : Option String)
    (placeId : Option Id) :
    (writePlanEvent codec eventId date placeId).Always fun s t _ => Edits eventId s t := by
  unfold writePlanEvent
  cases heventId : eventId.bind orNull with
  | none => trivial
  | some id =>
      dsimp only
      split
      · trivial
      · have hwrite : ∀ data, (updateEvent id data).Always fun s t _ => Edits eventId s t := by
          intro data
          refine always_stmt fun s => ?_
          split
          · rename_i t hupdate
            rw [eq_some_of_bind_orNull heventId]
            exact edits_updateEvent hupdate
          · exact .refl eventId s
        cases date with
        | none => exact hwrite _
        | some date =>
            apply always_bind
              (ReadsOnly.edits (always_map some (reads_eventDate codec date)) eventId)
            exact fun date => hwrite _

theorem edits_updatePlan (codec : CursorCodec) (groupId : Id) (data : GroupData)
    (eventId : Option Id) (date : Option String) (placeId : Option Id) (s : SocialDb) :
    Edits eventId s ((updatePlan codec groupId data eventId date placeId).run s).store := by
  apply store_transaction (.refl eventId s)
  refine Always.run (P := fun s t _ => Edits eventId s t) ?_ (fun s => .refl eventId s)
    (fun _ _ _ _ _ hst htu => hst.trans htu) s
  apply always_bind (edits_updateGroupRow eventId groupId data)
  intro _
  apply always_bind (edits_writePlanEvent codec eventId date placeId)
  intro _
  apply always_bind ((reads_query _).edits eventId)
  intro plan
  cases plan with
  | none => trivial
  | some plan => trivial

theorem Edits.ranked {eventId : Option Id} (h : Edits eventId s t) (hranked : Ranked s) :
    Ranked t := by
  intro m hm
  rw [h.members] at hm
  rcases hranked m hm with hmember | ⟨howner, g, hg, hid, hcreator⟩
  · exact .inl hmember
  · obtain ⟨g', hg', hid', hcreator'⟩ := h.groups g hg
    exact .inr ⟨howner, g', hg', hid'.trans hid, hcreator'.trans hcreator⟩

/-- Whoever administers a group has created it. -/
theorem Ranked.created {g : Group} (hranked : Ranked s)
    (hadmin : s.administers userId groupId = true) (hg : g ∈ s.groups.rows)
    (hid : g.id = groupId) : g.createdById = userId := by
  unfold SocialDb.administers at hadmin
  obtain ⟨m, hfind, hrole⟩ := (Option.any_eq_true _ _).mp hadmin
  obtain ⟨hm, hgroup, huser⟩ := SocialDb.findMembership_some hfind
  rcases hranked m hm with hmember | ⟨-, x, hx, hxid, hcreator⟩
  · simp [hmember] at hrole
  · have hsame := s.group_unique hg hx (hid.trans (hxid.trans hgroup).symm)
    rw [hsame, hcreator, huser]

theorem Edits.authorized {eventId : Option Id} (h : Edits eventId s t) (hranked : Ranked s)
    (hadmin : s.administers userId groupId = true)
    (hevent : ∀ e ∈ s.events.rows, eventId = some e.id → e.groupId = groupId) :
    AuthorizedStep userId s t := by
  refine ⟨fun e he hnew => ?_, fun r hr hnew => ?_, fun m hm hnew => ?_⟩
  · rcases h.events e he with hold | ⟨hid, old, hold, hsame⟩
    · exact absurd hold hnew
    · have hgroup : e.groupId = groupId :=
        hsame.2.1.trans (hevent old hold (hsame.1 ▸ hid))
      have haccepted := isAccepted_of_administers hadmin
      rw [← hgroup] at haccepted
      refine ⟨⟨⟨(isAccepted_of_members h.members).mpr haccepted, fun _ => haccepted⟩, ?_⟩,
        .inr ⟨old, hold, hsame⟩⟩
      intro g hg hgid hother
      have hadmin' : t.administers userId groupId = true := by
        unfold SocialDb.administers SocialDb.findMembership at hadmin ⊢
        rw [h.members]
        exact hadmin
      exact absurd ((h.ranked hranked).created hadmin' hg (hgid.trans hgroup)) hother
  · exact absurd (h.rsvps ▸ hr) hnew
  · exact absurd (h.messages ▸ hm) hnew

/-- The events of a plan are stored as events of its group. -/
theorem SocialDb.mem_planEvents {plan : GroupWithRelations} {event : EventWithRelations}
    (h : s.findPlanById groupId = some plan) (hevent : event ∈ plan.events) :
    event.toGroupEvent ∈ s.events.rows ∧ event.groupId = groupId := by
  obtain ⟨g, hg, hrel⟩ := Option.bind_eq_some_iff.mp h
  obtain ⟨u, -, rfl⟩ := Option.map_eq_some_iff.mp hrel
  obtain ⟨e, he, hrow⟩ := List.mem_filterMap.mp hevent
  rw [List.mem_insertionSort, List.mem_filter] at he
  obtain ⟨place, -, hrow⟩ := Option.bind_eq_some_iff.mp hrow
  obtain ⟨proposer, -, rfl⟩ := Option.map_eq_some_iff.mp hrow
  exact ⟨he.1, (beq_iff_eq.mp he.2).trans (SocialDb.findGroup_some hg).2⟩

/-- The event an update writes is one of the plan. -/
theorem mem_of_edited {plan : GroupWithRelations} {now : Date} {event : EventWithRelations}
    (h : (nextEvent now plan).or plan.events.head? = some event) : event ∈ plan.events := by
  rcases Option.or_eq_some_iff.mp h with hnext | ⟨-, hfirst⟩
  · exact List.mem_of_find?_eq_some hnext
  · exact List.mem_of_mem_head? hfirst

/-- Nothing is written, or a plan and its event by who administers it. -/
def Updates (now : Date) (userId groupId : Id) (s t : SocialDb) : Prop :=
  t = s ∨ ∃ plan u, s.findPlanById groupId = some plan ∧ s.administers userId groupId = true ∧
    SameContent s u ∧ Edits (((nextEvent now plan).or plan.events.head?).map (·.id)) u t

theorem updates_update (env : AuthoringEnv) (userId groupId : Id) (body : UpdatePlanDto)
    (s : SocialDb) :
    Updates env.now userId groupId s ((PlansService.update env userId groupId body).run s).store := by
  apply (reads_requirePlan _).store_bind (.inl rfl)
  intro plan hplan
  apply (reads_assertAdmin _ _).store_bind (.inl rfl)
  intro _ hadmin
  have hplan := requirePlan_ok hplan
  have hadmin := assertAdmin_ok hplan hadmin
  have hwrite : ∀ (place : Option Place) u, SameContent s u →
      Updates env.now userId groupId s ((do
        let event := (nextEvent env.now plan).or plan.events.head?
        let updated ← updatePlan env.codec groupId body.groupData (event.map (·.id)) body.date
          (place.map (·.id))
        pure (serializePlan updated userId [] true (nextEvent env.now updated)) :
          SocialProg PlanView).run u).store := by
    intro place u hsame
    apply ReadsOnly.store_after
    · exact fun updated => trivial
    · exact .inr ⟨plan, u, hplan, hadmin, hsame, edits_updatePlan _ _ _ _ _ _ u⟩
  split
  · exact .inl rfl
  · dsimp only
    split
    · exact hwrite none s (.refl s)
    · have hplace := always_map some (same_resolveWritablePlace env body.toPlaceInput)
      have hsame := SameOnly.run hplace s
      apply Prog.store_bind
      · exact .inr ⟨plan, _, hplan, hadmin, hsame, .refl _ _⟩
      · intro place _
        exact hwrite place _ hsame

theorem Updates.authorized {now : Date} (h : Updates now userId groupId s t)
    (hranked : Ranked s) : AuthorizedStep userId s t := by
  rcases h with rfl | ⟨plan, u, hplan, hadmin, hsame, hedits⟩
  · exact .refl userId _
  · have hadmin' : u.administers userId groupId = true := by
      unfold SocialDb.administers SocialDb.findMembership at hadmin ⊢
      rw [hsame.members]
      exact hadmin
    have hranked' : Ranked u := hranked.of_untouched ⟨hsame.groups, hsame.members⟩
    refine .of_same hsame (hedits.authorized hranked' hadmin' fun e he hid => ?_)
    obtain ⟨event, hevent, heq⟩ := Option.map_eq_some_iff.mp hid
    obtain ⟨hstored, hgroup⟩ := SocialDb.mem_planEvents hplan (mem_of_edited hevent)
    rw [hsame.events] at he
    rw [← s.event_unique hstored he heq]
    exact hgroup

theorem Updates.ranked {now : Date} (h : Updates now userId groupId s t) (hranked : Ranked s) :
    Ranked t := by
  rcases h with rfl | ⟨plan, u, -, -, hsame, hedits⟩
  · exact hranked
  · exact hedits.ranked (hranked.of_untouched ⟨hsame.groups, hsame.members⟩)

/-! ## Every request -/

/-- The requests about groups and what is in them. -/
inductive GroupCall
  | plan (userId : Id) (request : PlanRequest)
  | createPlan (env : AuthoringEnv) (inviteCode : String) (userId : Id) (body : CreatePlanDto)
  | updatePlan (env : AuthoringEnv) (userId groupId : Id) (body : UpdatePlanDto)
  | decideJoinRequest (userId groupId membershipId : Id) (approve : Bool)
  | createGroup (env : SocialEnv) (inviteCode : String) (userId : Id) (body : CreateGroupDto)
  | updateGroup (userId groupId : Id) (body : UpdateGroupDto)
  | addGroupMembers (env : SocialEnv) (userId groupId : Id) (memberIds : List Id)
  | joinGroupByCode (env : SocialEnv) (userId : Id) (code : String)
  | leaveGroup (userId groupId : Id)
  | addGroupEvent (env : AuthoringEnv) (userId groupId : Id) (body : AddGroupEventDto)
  | setGroupEventRsvp (env : PlansEnv) (userId groupId eventId : Id) (rsvp : RsvpInput)

namespace GroupCall

def sender : GroupCall → Id
  | .plan userId _ => userId
  | .createPlan _ _ userId _ => userId
  | .updatePlan _ userId _ _ => userId
  | .decideJoinRequest userId _ _ _ => userId
  | .createGroup _ _ userId _ => userId
  | .updateGroup userId _ _ => userId
  | .addGroupMembers _ userId _ _ => userId
  | .joinGroupByCode _ userId _ => userId
  | .leaveGroup userId _ => userId
  | .addGroupEvent _ userId _ _ => userId
  | .setGroupEventRsvp _ userId _ _ _ => userId

def prog : GroupCall → SocialProg Unit
  | .plan userId request => request.prog userId
  | .createPlan env inviteCode userId body =>
      (fun _ => ()) <$> PlansService.create env inviteCode userId body
  | .updatePlan env userId groupId body =>
      (fun _ => ()) <$> PlansService.update env userId groupId body
  | .decideJoinRequest userId groupId membershipId approve =>
      PlansService.decideJoinRequest userId groupId membershipId approve
  | .createGroup env inviteCode userId body =>
      (fun _ => ()) <$> SocialGroupsService.createGroup env inviteCode userId body
  | .updateGroup userId groupId body =>
      (fun _ => ()) <$> SocialGroupsService.updateGroup userId groupId body
  | .addGroupMembers env userId groupId memberIds =>
      (fun _ => ()) <$> SocialGroupsService.addGroupMembers env userId groupId memberIds
  | .joinGroupByCode env userId code =>
      (fun _ => ()) <$> SocialGroupsService.joinGroupByCode env userId code
  | .leaveGroup userId groupId =>
      (fun _ => ()) <$> SocialGroupsService.leaveGroup userId groupId
  | .addGroupEvent env userId groupId body =>
      (fun _ => ()) <$> SocialGroupEventsService.addGroupEvent env userId groupId body
  | .setGroupEventRsvp env userId groupId eventId rsvp =>
      (fun _ => ()) <$>
        SocialGroupEventsService.setGroupEventRsvp env userId groupId eventId rsvp

end GroupCall

theorem idle_addGroupEvent (env : AuthoringEnv) (userId groupId : Id) (body : AddGroupEventDto) :
    Idle (SocialGroupEventsService.addGroupEvent env userId groupId body) := by
  apply always_bind (reads_query _).idle
  intro group
  cases group with
  | none => trivial
  | some group =>
      apply always_bind (reads_assertGroupAccess _ _).idle
      intro _
      split
      · trivial
      · have hplace : Idle (resolveWritablePlace env body.toPlaceInput) :=
          (same_resolveWritablePlace env body.toPlaceInput).mono fun s t _ hsame =>
            ⟨hsame.groups, hsame.members⟩
        have hcreate : ∀ event, Idle (createEvent event) := by
          intro event
          refine always_stmt fun s => ?_
          split
          · exact .refl s
          · rename_i t hinsert
            split
            · exact (insertEvent_rows hinsert).1
            · exact .refl s
        exact always_bind hplace fun place => always_bind (reads_eventDate _ _).idle fun date =>
          always_bind (hcreate _) fun event => always_bind (reads_publish _).idle fun _ => trivial

/-- Requests that keep ranks write only what their sender may write. -/
def Proper (userId : Id) (p : SocialProg α) : Prop :=
  ∀ s, Ranked s → AuthorizedStep userId s (p.run s).store ∧ Ranked (p.run s).store

theorem Proper.map {β : Type} {p : SocialProg α} (f : α → β) (hp : Proper userId p) :
    Proper userId (f <$> p) := by
  intro s hranked
  rw [run_map]
  exact hp s hranked

theorem EnrolsOnly.proper {p : SocialProg α} (hp : EnrolsOnly p) : Proper userId p :=
  fun s hranked => ⟨hp.authorized s, (hp.run s).ranked hranked⟩

theorem Idle.proper {p : SocialProg α} (hp : Idle p)
    (h : ∀ s, AuthorizedStep userId s (p.run s).store) : Proper userId p :=
  fun s hranked => ⟨h s, hranked.of_untouched (hp.run s)⟩

theorem PlanRequest.proper (request : PlanRequest) : Proper userId (request.prog userId) := by
  cases request with
  | get env groupId => exact .map _ (reads_get env userId groupId).enrols.proper
  | join env groupId => exact .map _ (enrols_join env userId groupId).proper
  | leave groupId => exact (enrols_leave userId groupId).proper
  | cancelJoinRequest groupId => exact (enrols_cancelJoinRequest userId groupId).proper
  | setRsvp env groupId eventId rsvp =>
      exact .map _ ((idle_setRsvp env userId groupId eventId rsvp).proper
        (authorized_setRsvp env userId groupId eventId rsvp))
  | listMessages env groupId query =>
      exact .map _ (reads_listMessages env userId groupId query).enrols.proper
  | sendMessage env groupId body =>
      exact .map _ ((idle_sendMessage env userId groupId body).proper
        (authorized_sendMessage env userId groupId body))
  | deleteMessage env groupId messageId =>
      exact (idle_deleteMessage env userId groupId messageId).proper
        (authorized_deleteMessage env userId groupId messageId)

theorem proper_create (env : AuthoringEnv) (inviteCode : String) (userId : Id)
    (body : CreatePlanDto) : Proper userId (PlansService.create env inviteCode userId body) := by
  intro s hranked
  refine ⟨authorized_create env inviteCode userId body s, ?_⟩
  have hsame := (same_resolveWritablePlace env body.toPlaceInput).run s
  have hranked' := hranked.of_untouched ⟨hsame.groups, hsame.members⟩
  apply Prog.store_bind hranked'
  intro place _
  apply (reads_eventDate _ _).store_bind hranked'
  intro date _
  apply ReadsOnly.store_after
  · exact reads_presentCreated userId
  · exact (plans_createPlan env.toSocialEnv (body.input userId inviteCode date place.id) _).ranked
      hranked'

theorem proper_update (env : AuthoringEnv) (userId groupId : Id) (body : UpdatePlanDto) :
    Proper userId (PlansService.update env userId groupId body) := by
  intro s hranked
  have hupdates := updates_update env userId groupId body s
  exact ⟨hupdates.authorized hranked, hupdates.ranked hranked⟩

theorem GroupCall.proper (call : GroupCall) : Proper call.sender call.prog := by
  cases call with
  | plan userId request => exact request.proper
  | createPlan env inviteCode userId body => exact .map _ (proper_create _ _ _ _)
  | updatePlan env userId groupId body => exact .map _ (proper_update _ _ _ _)
  | decideJoinRequest userId groupId membershipId approve =>
      exact (enrols_decideJoinRequest _ _ _ _).proper
  | createGroup env inviteCode userId body =>
      exact .map _ (enrols_createGroup_service _ _ _ _).proper
  | updateGroup userId groupId body => exact .map _ (enrols_updateGroup _ _ _).proper
  | addGroupMembers env userId groupId memberIds =>
      exact .map _ (enrols_addGroupMembers_service _ _ _ _).proper
  | joinGroupByCode env userId code => exact .map _ (enrols_joinGroupByCode_service _ _ _).proper
  | leaveGroup userId groupId => exact .map _ (enrols_leaveGroup_service _ _).proper
  | addGroupEvent env userId groupId body =>
      exact .map _ ((idle_addGroupEvent _ _ _ _).proper (authorized_addGroupEvent _ _ _ _))
  | setGroupEventRsvp env userId groupId eventId rsvp =>
      exact .map _ ((idle_setGroupEventRsvp_service _ _ _ _ _).proper
        (authorized_setGroupEventRsvp _ _ _ _ _))

/-! ## Runs -/

/-- Requests run one after the other, and other parts of the application run
between them. -/
inductive Turns (s : SocialDb) : List Turn → SocialDb → Prop
  | start : Turns s [] s
  | request {turns t} (call : GroupCall) (h : Turns s turns t) :
      Turns s (turns ++ [⟨call.sender, t, (call.prog.run t).store⟩]) (call.prog.run t).store
  | elsewhere {turns t u} (h : Turns s turns t) (hsame : SameContent t u) : Turns s turns u

namespace Turn

/-- The sender has proposed the event, as it was before later edits. -/
def Proposed (turn : Turn) (e : GroupEvent) : Prop :=
  turn.userId = e.proposedById ∧ turn.MayPropose e ∧
    ∃ e' ∈ turn.after.events.rows, e' ∉ turn.before.events.rows ∧ SameProposal e' e

/-- The sender has answered. -/
def Answered (turn : Turn) (r : GroupEventRsvp) : Prop :=
  turn.MayAnswer r ∧ r ∈ turn.after.rsvps.rows ∧ r ∉ turn.before.rsvps.rows

/-- The sender has sent the message, as it was before it was deleted. -/
def Sent (turn : Turn) (m : GroupMessage) : Prop :=
  turn.MaySend m ∧ { m with deletedAt := none } ∈ turn.after.messages.rows ∧
    { m with deletedAt := none } ∉ turn.before.messages.rows

/-- The sender has marked the message deleted. -/
def Deleted (turn : Turn) (m : GroupMessage) : Prop :=
  turn.MayDelete m ∧ m ∈ turn.after.messages.rows ∧ m ∉ turn.before.messages.rows

end Turn

/-- Everything in the groups was written by somebody who could. -/
structure Attributed (turns : List Turn) (s : SocialDb) : Prop where
  events : ∀ e ∈ s.events.rows, ∃ turn ∈ turns, turn.Proposed e
  rsvps : ∀ r ∈ s.rsvps.rows, ∃ turn ∈ turns, turn.Answered r
  messages : ∀ m ∈ s.messages.rows, ∃ turn ∈ turns, turn.Sent m
  deletions : ∀ m ∈ s.messages.rows, m.deletedAt ≠ none → ∃ turn ∈ turns, turn.Deleted m

theorem SameProposal.trans {e e' e'' : GroupEvent} (h : SameProposal e e')
    (h' : SameProposal e' e'') : SameProposal e e'' :=
  ⟨h'.1.trans h.1, h'.2.1.trans h.2.1, h'.2.2.1.trans h.2.2.1, h'.2.2.2.trans h.2.2.2⟩

theorem Turn.Proposed.of_same {turn : Turn} {e e' : GroupEvent} (h : turn.Proposed e)
    (hsame : SameProposal e e') : turn.Proposed e' := by
  obtain ⟨huser, ⟨hmember, hpolicy⟩, x, hx, hnew, hsame'⟩ := h
  have hcols := hsame
  obtain ⟨-, hgroup, hproposer, hstatus⟩ := hcols
  refine ⟨huser.trans hproposer.symm, ⟨hgroup ▸ hmember, fun g hg hid hother => ?_⟩,
    x, hx, hnew, hsame'.trans hsame⟩
  obtain ⟨hopen, hlocked⟩ := hpolicy g hg (hid.trans hgroup) hother
  exact ⟨hopen, fun h => hstatus.trans (hlocked h)⟩

theorem Attributed.request {turns : List Turn} (h : Attributed turns s)
    (hstep : AuthorizedStep userId s t) : Attributed (turns ++ [⟨userId, s, t⟩]) t := by
  have hbefore : ∀ {P : Turn → Prop}, (∃ turn ∈ turns, P turn) →
      ∃ turn ∈ turns ++ [⟨userId, s, t⟩], P turn := by
    intro P ⟨turn, hmem, hturn⟩
    exact ⟨turn, List.mem_append_left _ hmem, hturn⟩
  have hnow : ∀ {P : Turn → Prop}, P ⟨userId, s, t⟩ →
      ∃ turn ∈ turns ++ [⟨userId, s, t⟩], P turn :=
    fun hturn => ⟨_, List.mem_append_right _ List.mem_cons_self, hturn⟩
  refine ⟨fun e he => ?_, fun r hr => ?_, fun m hm => ?_, fun m hm hdeleted => ?_⟩
  · by_cases hold : e ∈ s.events.rows
    · exact hbefore (h.events e hold)
    · obtain ⟨hmay, hproposer | ⟨old, hold', hsame⟩⟩ := hstep.events e he hold
      · exact hnow ⟨hproposer.symm, hmay, e, he, hold, rfl, rfl, rfl, rfl⟩
      · obtain ⟨turn, hmem, hturn⟩ := h.events old hold'
        exact hbefore ⟨turn, hmem, hturn.of_same hsame⟩
  · by_cases hold : r ∈ s.rsvps.rows
    · exact hbefore (h.rsvps r hold)
    · exact hnow ⟨hstep.rsvps r hr hold, hr, hold⟩
  · by_cases hold : m ∈ s.messages.rows
    · exact hbefore (h.messages m hold)
    · rcases hstep.messages m hm hold with ⟨hlive, hmay⟩ | ⟨-, -, hlive⟩
      · have hsame : ({ m with deletedAt := none } : GroupMessage) = m := by rw [← hlive]
        refine hnow ⟨hmay, ?_⟩
        rw [hsame]
        exact ⟨hm, hold⟩
      · obtain ⟨turn, hmem, hturn⟩ := h.messages { m with deletedAt := none } hlive
        exact hbefore ⟨turn, hmem, hturn⟩
  · by_cases hold : m ∈ s.messages.rows
    · exact hbefore (h.deletions m hold hdeleted)
    · rcases hstep.messages m hm hold with ⟨hlive, -⟩ | hmay
      · exact absurd hlive hdeleted
      · exact hnow ⟨hmay, hm, hold⟩

theorem Attributed.elsewhere {turns : List Turn} (h : Attributed turns s)
    (hsame : SameContent s t) : Attributed turns t := by
  refine ⟨?_, ?_, ?_, ?_⟩
  · rw [hsame.events]
    exact h.events
  · rw [hsame.rsvps]
    exact h.rsvps
  · rw [hsame.messages]
    exact h.messages
  · rw [hsame.messages]
    exact h.deletions

/-- In a store without groups nothing is to be attributed. -/
theorem attributed_ofUsers (users : Table User) (settings : Table UserSettings)
    (follows : Table UserFollow) (cities : Table City) (places : Table Place) :
    Attributed [] (SocialDb.ofUsers users settings follows cities places) :=
  ⟨fun _ he => (List.not_mem_nil he).elim, fun _ hr => (List.not_mem_nil hr).elim,
    fun _ hm => (List.not_mem_nil hm).elim, fun _ hm => (List.not_mem_nil hm).elim⟩

theorem Turns.ranked {turns : List Turn} (h : Turns s turns t) (hranked : Ranked s) : Ranked t := by
  induction h with
  | start => exact hranked
  | request call _ ih => exact (call.proper _ ih).2
  | elsewhere _ hsame ih => exact ih.of_untouched ⟨hsame.groups, hsame.members⟩

theorem Turns.attributed {turns : List Turn} (h : Turns s turns t) (hranked : Ranked s)
    (hstart : Attributed [] s) : Attributed turns t := by
  induction h with
  | start => exact hstart
  | request call hturns ih => exact ih.request (call.proper _ (hturns.ranked hranked)).1
  | elsewhere _ hsame ih => exact ih.elsewhere hsame

theorem Turns.authorized {turns : List Turn} (h : Turns s turns t) (hranked : Ranked s) :
    ∀ turn ∈ turns, turn.Authorized := by
  induction h with
  | start =>
      intro turn hturn
      cases hturn
  | request call hturns ih =>
      intro turn hturn
      rcases List.mem_append.mp hturn with hbefore | hnow
      · exact ih turn hbefore
      · rw [List.mem_singleton.mp hnow]
        exact (call.proper _ (hturns.ranked hranked)).1
  | elsewhere _ _ ih => exact ih

/-- However the requests follow one another, each writes into groups only what
its sender may write there, and everything stored there was written by one. -/
theorem group_content_is_authorized (users : Table User) (settings : Table UserSettings)
    (follows : Table UserFollow) (cities : Table City) (places : Table Place)
    (turns : List Turn) (t : SocialDb)
    (h : Turns (SocialDb.ofUsers users settings follows cities places) turns t) :
    (∀ turn ∈ turns, turn.Authorized) ∧ Attributed turns t := by
  have hranked : Ranked (SocialDb.ofUsers users settings follows cities places) :=
    fun _ hm => (List.not_mem_nil hm).elim
  exact ⟨h.authorized hranked,
    h.attributed hranked (attributed_ofUsers users settings follows cities places)⟩

/-- Ana writes into a plan she has created. -/
def anAuthoringEnv : AuthoringEnv where
  toPlansEnv := { aPlansEnv "m1" with
    groupId := "g1"
    eventId := "e1"
    messageId := "x1"
    codec := { aCodec with parseDate := fun _ => some 10 } }
  resolve _ := throwHttp (NotFoundException "Place not found")
  resolve_same _ := trivial

def anasNewPlan : GroupCall :=
  .createPlan anAuthoringEnv "C0DE" "ana" { placeId := some "p1", name := "Cena", date := "" }

def anasMessage : GroupCall := .plan "ana" (.sendMessage anAuthoringEnv.toPlansEnv "g1" "Hola")

def anasNewPlanStored : SocialDb := (anasNewPlan.prog.run threeUsers).store

def anasMessageStored : SocialDb := (anasMessage.prog.run anasNewPlanStored).store

theorem anas_message_is_attributed :
    (anasMessageStored.events.rows.map (·.id), anasMessageStored.messages.rows.map (·.id)) =
        (["e1"], ["x1"]) ∧
      Attributed [⟨"ana", threeUsers, anasNewPlanStored⟩,
        ⟨"ana", anasNewPlanStored, anasMessageStored⟩] anasMessageStored :=
  ⟨by decide, (group_content_is_authorized threeUsers.users .empty .empty .empty
    threeUsers.places _ _ (.request anasMessage (.request anasNewPlan .start))).2⟩

end Feca.Social
