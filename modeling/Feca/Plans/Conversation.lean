import Mathlib.Data.String.Basic
import Feca.Collections.Window
import Feca.Paging.Client
import Feca.Plans.Rollback
import Feca.Plans.Reads
import Feca.Social.System

/-! # Walking through the messages of a plan

Messages are listed newest first, by time and id, and the cursor is the key of
the last message shown. Neither ever changes, whatever is sent or deleted in
between: the pages of a client descend, repeat nothing, and miss no message that
stays.
-/

namespace Feca.Social

open Concurrency Concurrency.Prog Relational Paging

variable {s t : SocialDb} {groupId : Id}

/-! ## The listing -/

def MessageWithAuthor.key (m : MessageWithAuthor) : Cursor := ⟨m.createdAt, m.id⟩

/-- The order of the listing: newest first. -/
def newer (a b : Cursor) : Prop := b.date < a.date ∨ b.date = a.date ∧ b.id < a.id

instance : DecidableRel newer := fun a b => by
  unfold newer
  infer_instance

theorem newer_trans (a b c : Cursor) (hab : newer a b) (hbc : newer b c) : newer a c := by
  rcases hab with hab | ⟨hab, hid⟩
  · rcases hbc with hbc | ⟨hbc, -⟩
    · exact .inl (hbc.trans hab)
    · exact .inl (hbc ▸ hab)
  · rcases hbc with hbc | ⟨hbc, hid'⟩
    · exact .inl (hab ▸ hbc)
    · exact .inr ⟨hbc.trans hab, hid'.trans hid⟩

theorem newer_irrefl (a : Cursor) : ¬ newer a a := by
  rintro (h | ⟨-, h⟩)
  · exact lt_irrefl _ h
  · exact lt_irrefl _ h

/-- A message that is still in the group, and not before `since`. -/
def isLive (groupId : Id) (since : Option Date) (m : GroupMessage) : Bool :=
  m.groupId == groupId && m.deletedAt == none && since.all fun date => m.createdAt > date

/-- The messages of a group, newest first, with their authors. -/
def messageRows (groupId : Id) (since : Option Date) (s : SocialDb) : List MessageWithAuthor :=
  ((s.messages.rows.filter (isLive groupId since)).insertionSort messageBefore).filterMap
    s.messageWithAuthor

theorem messageWithAuthor_isSome {m : GroupMessage} (h : m ∈ s.messages.rows) :
    (s.messageWithAuthor m).isSome := by
  obtain ⟨u, hu, hid⟩ := s.message_author m h
  have hfind : (s.findUser m.authorId).isSome :=
    List.find?_isSome.mpr ⟨u, hu, by simpa using hid⟩
  simpa [SocialDb.messageWithAuthor] using hfind

theorem toGroupMessage_of_messageWithAuthor {m : GroupMessage} {row : MessageWithAuthor}
    (h : s.messageWithAuthor m = some row) : row.toGroupMessage = m := by
  obtain ⟨u, -, rfl⟩ := Option.map_eq_some_iff.mp h
  rfl

theorem mem_messageRows {since : Option Date} {row : MessageWithAuthor} :
    row ∈ messageRows groupId since s ↔ row.toGroupMessage ∈ s.messages.rows ∧
      isLive groupId since row.toGroupMessage = true ∧
        s.messageWithAuthor row.toGroupMessage = some row := by
  unfold messageRows
  rw [List.mem_filterMap]
  constructor
  · rintro ⟨m, hm, hrow⟩
    rw [List.mem_insertionSort, List.mem_filter] at hm
    rw [toGroupMessage_of_messageWithAuthor hrow]
    exact ⟨hm.1, hm.2, hrow⟩
  · rintro ⟨hm, hlive, hrow⟩
    exact ⟨_, (List.mem_insertionSort _).mpr (List.mem_filter.mpr ⟨hm, hlive⟩), hrow⟩

theorem messageBefore_total (a b : GroupMessage) : messageBefore a b ∨ messageBefore b a := by
  unfold messageBefore
  rcases lt_trichotomy a.createdAt b.createdAt with h | h | h
  · exact .inr (.inl h)
  · rcases le_total b.id a.id with hid | hid
    · exact .inl (.inr ⟨h, hid⟩)
    · exact .inr (.inr ⟨h.symm, hid⟩)
  · exact .inl (.inl h)

theorem messageBefore_trans (a b c : GroupMessage) (hab : messageBefore a b)
    (hbc : messageBefore b c) : messageBefore a c := by
  unfold messageBefore at hab hbc ⊢
  rcases hab with hab | ⟨hab, hid⟩
  · rcases hbc with hbc | ⟨hbc, -⟩
    · exact .inl (lt_trans hbc hab)
    · exact .inl (hbc ▸ hab)
  · rcases hbc with hbc | ⟨hbc, hid'⟩
    · exact .inl (hab ▸ hbc)
    · exact .inr ⟨hab.trans hbc, le_trans hid' hid⟩

/-- Sorted by the database, no two messages alike. -/
theorem pairwise_sortedMessages (s : SocialDb) (p : GroupMessage → Bool) :
    ((s.messages.rows.filter p).insertionSort messageBefore).Pairwise fun a b =>
      newer ⟨a.createdAt, a.id⟩ ⟨b.createdAt, b.id⟩ := by
  have htotal : Std.Total messageBefore := ⟨messageBefore_total⟩
  have htrans : IsTrans GroupMessage messageBefore := ⟨messageBefore_trans⟩
  have hsorted := List.pairwise_insertionSort messageBefore (s.messages.rows.filter p)
  have hdistinct : (s.messages.rows.filter p).Pairwise fun a b => a.id ≠ b.id := by
    refine (s.messages.distinct.imp fun {a b} hab hid => ?_).filter p
    simp [conflicts, hid] at hab
  have hdistinct' := ((List.perm_insertionSort messageBefore _).pairwise_iff
    fun {a b : GroupMessage} (h : a.id ≠ b.id) => h.symm).mpr hdistinct
  refine (hsorted.and hdistinct').imp fun {a b} h => ?_
  rcases h.1 with hlt | ⟨heq, hle⟩
  · exact .inl hlt
  · exact .inr ⟨heq.symm, lt_of_le_of_ne hle (Ne.symm h.2)⟩

theorem ascending_messageRows (groupId : Id) (since : Option Date) (s : SocialDb) :
    Ascending newer MessageWithAuthor.key (messageRows groupId since s) := by
  unfold messageRows
  refine List.pairwise_filterMap.mpr ((pairwise_sortedMessages s _).imp
    fun {a b} hab x hx y hy => ?_)
  rw [← toGroupMessage_of_messageWithAuthor hx, ← toGroupMessage_of_messageWithAuthor hy] at hab
  exact hab

/-! ## A page -/

/-- Filtering before the sort or after it makes no difference. -/
theorem sortedMessages_filter (s : SocialDb) (p q : GroupMessage → Bool) :
    (s.messages.rows.filter fun m => p m && q m).insertionSort messageBefore =
      ((s.messages.rows.filter p).insertionSort messageBefore).filter q := by
  rw [Collections.filter_insertionSort messageBefore_total messageBefore_trans, List.filter_filter]
  congr 1
  exact List.filter_congr fun m _ => Bool.and_comm _ _

/-- The messages of the page, and one more if there is one. -/
theorem rowsAfter_messageRows (s : SocialDb) (groupId : Id) (since : Option Date)
    (cursor : Option Cursor) :
    rowsAfter newer MessageWithAuthor.key (messageRows groupId since s) cursor =
      ((s.messages.rows.filter fun m => isLive groupId since m && cursor.all fun c =>
        m.createdAt < c.date || (m.createdAt == c.date && m.id < c.id)).insertionSort
          messageBefore).filterMap s.messageWithAuthor := by
  rw [sortedMessages_filter]
  unfold rowsAfter messageRows
  rw [List.filter_filterMap, List.filterMap_filter]
  refine List.filterMap_congr fun m _ => ?_
  cases hrow : s.messageWithAuthor m with
  | none => simp
  | some row =>
      rw [Option.filter_some]
      have hm := toGroupMessage_of_messageWithAuthor hrow
      subst hm
      congr 1
      cases cursor with
      | none => rfl
      | some c =>
          simp [isAfter, newer, MessageWithAuthor.key, Bool.decide_or, Bool.decide_and]

/-- The repository's page is a keyset page of the listing. -/
theorem messagePage_eq (s : SocialDb) (groupId : Id) (limit : Nat) (cursor : Option Cursor)
    (since : Option Date) : s.messagePage groupId limit cursor since =
      ((rowsAfter newer MessageWithAuthor.key (messageRows groupId since s) cursor).take limit,
        decide (limit <
          (rowsAfter newer MessageWithAuthor.key (messageRows groupId since s) cursor).length)) := by
  rw [rowsAfter_messageRows]
  unfold SocialDb.messagePage
  dsimp only
  set found := (s.messages.rows.filter fun m => isLive groupId since m && cursor.all fun c =>
    m.createdAt < c.date || (m.createdAt == c.date && m.id < c.id)).insertionSort messageBefore
    with hfound
  have hauthors : ∀ m ∈ found, (s.messageWithAuthor m).isSome := by
    intro m hm
    rw [hfound, List.mem_insertionSort] at hm
    exact messageWithAuthor_isSome (List.mem_of_mem_filter hm)
  show (((found.take (limit + 1)).take limit).filterMap s.messageWithAuthor,
    decide ((found.take (limit + 1)).length > limit)) = _
  rw [List.take_take, Collections.take_filterMap_of_isSome hauthors,
    Collections.length_filterMap_of_isSome hauthors,
    List.length_take, Nat.min_eq_left (Nat.le_succ limit)]
  congr 1
  exact decide_eq_decide.mpr (by omega)

/-! ## A request -/

def messageRequest (env : PlansEnv) (userId groupId : Id) (query : ListPlanMessagesQuery)
    (cursor : Option String) : SocialProg (Page String MessageView) :=
  (fun page => ⟨page.messages, page.nextCursor⟩) <$>
    PlansService.listMessages env userId groupId { query with cursor }

/-- The user is an accepted member. -/
def IsAccepted (s : SocialDb) (userId groupId : Id) : Prop :=
  (s.findMembership groupId userId).map (·.status) = some .accepted

instance (s : SocialDb) (userId groupId : Id) : Decidable (IsAccepted s userId groupId) := by
  unfold IsAccepted
  infer_instance

theorem assertAccepted_run (s : SocialDb) (userId groupId : Id) :
    (assertAccepted userId groupId).run s =
      ⟨s, [.saw (s.findMembership groupId userId).toList], if IsAccepted s userId groupId then .ok ()
        else .error (.http (ForbiddenException (some "PLAN_ACCEPTED_MEMBERS_ONLY")
          "Esta acción requiere ser miembro aprobado del plan."))⟩ := by
  unfold assertAccepted
  rw [run_bind]
  simp only [findMembership, run_stmt, Answer.andThen]
  unfold IsAccepted
  by_cases h : (s.findMembership groupId userId).map (·.status) = some .accepted
  · simp [h]
  · simp [h, throwHttp]

theorem cursorArgument_encode {codec : CursorCodec} (hcodec : codec.Lawful)
    (cursor : Option Cursor) :
    cursorArgument codec (cursor.map (encodeCursor codec)) = pure cursor := by
  cases cursor with
  | none => rfl
  | some c =>
      unfold cursorArgument decodeMessageCursor
      rw [Option.map_some, Option.bind_some, orNull_encodeCursor hcodec]
      dsimp only
      rw [decodeCursor_encodeCursor hcodec]

section requests

variable {env : PlansEnv} {userId groupId : Id} {query : ListPlanMessagesQuery}

/-- What a request is answered, before it is encoded. -/
def messageAnswer (userId groupId : Id) (query : ListPlanMessagesQuery) (s : SocialDb)
    (cursor : Option Cursor) : Except Failure (Page Cursor MessageWithAuthor) :=
  if IsAccepted s userId groupId then
    .ok (keysetPage newer MessageWithAuthor.key (query.limit.getD 20) (messageRows groupId none s)
      cursor)
  else .error (.http (ForbiddenException (some "PLAN_ACCEPTED_MEMBERS_ONLY")
    "Esta acción requiere ser miembro aprobado del plan."))

theorem answerAt_messageRequest (hcodec : env.codec.Lawful) (hsince : query.since = none)
    (s : SocialDb) (cursor : Option Cursor) :
    answerAt (messageRequest env userId groupId query) s (cursor.map (encodeCursor env.codec)) =
      (messageAnswer userId groupId query s cursor).map
        (Page.map (encodeCursor env.codec) serializeMessage) := by
  unfold answerAt messageRequest PlansService.listMessages messageAnswer
  rw [run_map]
  dsimp only
  rw [run_bind, assertAccepted_run, cursorArgument_encode hcodec, hsince]
  by_cases h : IsAccepted s userId groupId
  · rw [if_pos h, if_pos h]
    have hpage := messagePage_eq s groupId (query.limit.getD 20) cursor none
    show Except.map _ (.ok
      { messages := (s.messagePage groupId (query.limit.getD 20) cursor none).1.map serializeMessage
        nextCursor := if (s.messagePage groupId (query.limit.getD 20) cursor none).2 then
            (s.messagePage groupId (query.limit.getD 20) cursor none).1.getLast?.map fun last =>
              encodeMessageCursor env.codec last.createdAt last.id
          else none : MessagePage }) = _
    rw [hpage]
    simp only [Except.map, Page.map, keysetPage, decide_eq_true_eq, Except.ok.injEq, Page.mk.injEq,
      true_and]
    split
    · rw [Option.map_map]
      rfl
    · rfl
  · rw [if_neg h, if_neg h]
    rfl

end requests

/-! ## What sends and deletions keep -/

/-- Users and members stay, and messages too, but for being marked deleted. -/
structure Conversed (s t : SocialDb) : Prop where
  members : t.members = s.members
  users : t.users = s.users
  kept : ∀ m ∈ s.messages.rows, m ∈ t.messages.rows ∨ m.deletedAt = none ∧
    ∃ m' ∈ t.messages.rows, m'.deletedAt ≠ none ∧ m' = { m with deletedAt := m'.deletedAt }

theorem Conversed.refl (s : SocialDb) : Conversed s s := ⟨rfl, rfl, fun _ hm => .inl hm⟩

theorem Conversed.trans {u : SocialDb} (hst : Conversed s t) (htu : Conversed t u) :
    Conversed s u := by
  refine ⟨htu.members.trans hst.members, htu.users.trans hst.users, fun m hm => ?_⟩
  rcases hst.kept m hm with hm | ⟨hlive, m', hm', hdeleted, heq⟩
  · exact htu.kept m hm
  · rcases htu.kept m' hm' with hm' | ⟨hlive', -⟩
    · exact .inr ⟨hlive, m', hm', hdeleted, heq⟩
    · exact absurd hlive' hdeleted

def conversation : Contract SocialDb where
  inv _ := True
  guar := Conversed
  refl := Conversed.refl
  trans := Conversed.trans

/-- A message keeps its key. -/
theorem Conversed.key {m : GroupMessage} (h : Conversed s t) (hm : m ∈ s.messages.rows) :
    ∃ m' ∈ t.messages.rows, m'.id = m.id ∧ m'.createdAt = m.createdAt := by
  rcases h.kept m hm with hm | ⟨-, m', hm', -, heq⟩
  · exact ⟨m, hm, rfl, rfl⟩
  · refine ⟨m', hm', ?_, ?_⟩
    · rw [heq]
    · rw [heq]

/-- What is there before and after was there all the time. -/
theorem Conversed.between {u : SocialDb} {m : GroupMessage} (hsu : Conversed s u)
    (hut : Conversed u t) (hs : m ∈ s.messages.rows) (ht : m ∈ t.messages.rows) :
    m ∈ u.messages.rows := by
  rcases hsu.kept m hs with hu | ⟨hlive, m', hm', hdeleted, heq⟩
  · exact hu
  · rcases hut.kept m' hm' with hm' | ⟨hlive', -⟩
    · have hsame : m' = m := t.message_unique hm' ht (by rw [heq])
      rw [hsame] at hdeleted
      exact absurd hlive hdeleted
    · exact absurd hlive' hdeleted

theorem ReadsOnly.converses {α : Type} {p : SocialProg α} (hp : ReadsOnly p) :
    p.Always fun s t _ => Conversed s t :=
  hp.mono fun s _ _ hst => hst ▸ .refl s

theorem insertMessage_conversed {m : GroupMessage} (h : s.insertMessage m = .ok t) :
    Conversed s t := by
  unfold SocialDb.insertMessage at h
  split at h
  · split at h
    · cases h
    · rename_i messages hinsert
      cases h
      refine ⟨rfl, rfl, fun x hx => .inl ?_⟩
      rw [(Table.insert_eq_some hinsert).1]
      exact List.mem_append_left _ hx
  · cases h

theorem sendMessage_converses (env : PlansEnv) (userId groupId : Id) (body : String) :
    (PlansService.sendMessage env userId groupId body).Always fun s t _ => Conversed s t := by
  refine always_bind (reads_assertAccepted _ _).converses fun _ => always_bind ?_ fun message =>
    always_bind (reads_query _).converses fun _ => always_bind (reads_requirePlan _).converses
      fun _ => always_bind (reads_publish _).converses fun _ => trivial
  refine always_stmt fun s => ?_
  split
  · exact .refl s
  · rename_i t hinsert
    split
    · exact insertMessage_conversed hinsert
    · exact .refl s

theorem removeMessage_converses (now : Date) (groupId messageId : Id) :
    (removeMessage now groupId messageId).Always fun s t _ => Conversed s t := by
  refine always_stmt fun s => ⟨rfl, rfl, fun m hm => ?_⟩
  dsimp only [SocialDb.markDeleted]
  by_cases hlive : (m.id == messageId && m.groupId == groupId && m.deletedAt == none) = true
  · refine .inr ⟨?_, { m with deletedAt := some now },
      Table.mem_update.mpr ⟨m, hm, if_pos hlive⟩, by simp, rfl⟩
    simp only [Bool.and_eq_true, beq_iff_eq] at hlive
    exact hlive.2
  · exact .inl (Table.mem_update.mpr ⟨m, hm, if_neg hlive⟩)

theorem deleteMessage_converses (env : PlansEnv) (userId groupId messageId : Id) :
    (PlansService.deleteMessage env userId groupId messageId).Always
      fun s t _ => Conversed s t := by
  refine always_bind (reads_requirePlan _).converses fun plan =>
    always_bind (reads_assertAdmin _ _).converses fun _ =>
      always_bind (removeMessage_converses _ _ _) fun count => ?_
  split
  · trivial
  · trivial

/-! ## Requests among sends and deletions -/

theorem Conversed.isAccepted {userId : Id} (h : Conversed s t) :
    IsAccepted t userId groupId ↔ IsAccepted s userId groupId := by
  unfold IsAccepted SocialDb.findMembership
  rw [h.members]

theorem meets_assertAccepted (userId : Id) : (assertAccepted userId groupId).Meets conversation
    (fun _ t => IsAccepted t userId groupId) s := by
  refine meets_bind (Q := fun membership t => membership = t.findMembership groupId userId)
    (meets_stmt fun t _ _ => ⟨trivial, .refl t, fun a ha => (Except.ok.inj ha).symm⟩) ?_
  rintro membership t - rfl
  split
  · trivial
  · rename_i haccepted
    exact not_not.mp haccepted

theorem ended_cursorArgument (codec : CursorCodec) (cursor : Option String) :
    (cursorArgument codec cursor).ended = true := by
  unfold cursorArgument
  split
  · rfl
  · split
    · rfl
    · rfl

/-- A request answers as if it had run at the moment it reads the messages. -/
theorem momentary_messageRequest (env : PlansEnv) (userId groupId : Id) (limit : Option Nat) :
    Momentary conversation (messageRequest env userId groupId { limit }) := by
  intro cursor s
  have hmeets : (PlansService.listMessages env userId groupId { limit, cursor }).Meets conversation
      (fun page t => ∃ u, Conversed s u ∧ Conversed u t ∧
        ((PlansService.listMessages env userId groupId { limit, cursor }).run u).result = .ok page)
      s := by
    refine meets_bind (meets_assertAccepted userId) fun _ t hst haccepted => ?_
    have halone : ∀ u, IsAccepted u userId groupId →
        ((PlansService.listMessages env userId groupId { limit, cursor }).run u).result =
          ((do
            let cursor ← cursorArgument env.codec cursor
            let answer ← Prog.query fun s : SocialDb =>
              s.messagePage groupId (limit.getD 20) cursor none
            pure { messages := answer.1.map serializeMessage
                   nextCursor := if answer.2 then
                       answer.1.getLast?.map fun last =>
                         encodeMessageCursor env.codec last.createdAt last.id
                     else none } : SocialProg MessagePage).run u).result := by
      intro u hu
      unfold PlansService.listMessages
      rw [run_bind, assertAccepted_run, if_pos hu]
      rfl
    cases hcursor : cursorArgument env.codec cursor with
    | fail e => trivial
    | step exec next =>
        have hended := ended_cursorArgument env.codec cursor
        rw [hcursor] at hended
        cases hended
    | done c =>
        refine meets_bind (Q := fun answer u => Conversed s u ∧ IsAccepted u userId groupId ∧
          answer = u.messagePage groupId (limit.getD 20) c none)
            (meets_query fun u htu _ => ⟨hst.trans htu, htu.isAccepted.mpr haccepted, rfl⟩) ?_
        rintro answer u - ⟨hsu, hu, rfl⟩
        refine ⟨u, hsu, .refl u, ?_⟩
        rw [halone u hu, hcursor]
        rfl
  refine meets_bind hmeets fun page t _ => ?_
  rintro ⟨u, hsu, hut, hanswer⟩
  refine ⟨u, hsu, hut, ?_⟩
  unfold answerAt messageRequest
  rw [run_map, hanswer]
  rfl

/-! ## Walks among sends and deletions -/

/-- A call in a conversation: sending, deleting, or walking through the messages
of a group, `fuel` pages at most. -/
inductive ConversationCall
  | send (env : PlansEnv) (userId groupId : Id) (body : String)
  | delete (env : PlansEnv) (userId groupId messageId : Id)
  | walk (env : PlansEnv) (userId groupId : Id) (limit : Option Nat) (fuel : Nat)

def ConversationCall.prog : ConversationCall → SocialProg (List (Page String MessageView))
  | .send env userId groupId body =>
      (fun _ => []) <$> PlansService.sendMessage env userId groupId body
  | .delete env userId groupId messageId =>
      (fun _ => []) <$> PlansService.deleteMessage env userId groupId messageId
  | .walk env userId groupId limit fuel =>
      follow (messageRequest env userId groupId { limit }) fuel none

theorem reads_follow {request : Option String → SocialProg (Page String MessageView)}
    (h : ∀ cursor, ReadsOnly (request cursor)) (fuel : Nat) (cursor : Option String) :
    ReadsOnly (follow request fuel cursor) := by
  induction fuel generalizing cursor with
  | zero => trivial
  | succ fuel ih =>
      refine always_bind (h cursor) fun page => ?_
      split
      · trivial
      · exact always_map _ (ih _)

theorem prog_converses (call : ConversationCall) :
    call.prog.Always fun s t _ => Conversed s t := by
  cases call with
  | send env userId groupId body => exact always_map _ (sendMessage_converses env userId groupId body)
  | delete env userId groupId messageId =>
      exact always_map _ (deleteMessage_converses env userId groupId messageId)
  | walk env userId groupId limit fuel =>
      exact (reads_follow (fun cursor => always_map _ (reads_listMessages _ _ _ _)) fuel none).converses

variable {ι : Type}

/-- Every call is about to begin. -/
def converse (s : SocialDb) (calls : ι → ConversationCall) :
    Config ι SocialDb SocialEvent Failure (List (Page String MessageView)) :=
  ⟨s, fun i => (calls i).prog, []⟩

variable [DecidableEq ι]

/-- What a walk returned, however the others moved, is a walk over moments
between its first request and now. -/
theorem walked_of_returned {calls : ι → ConversationCall} {i : ι} {env : PlansEnv} {userId : Id}
    {limit : Option Nat} {fuel : Nat} (hcall : calls i = .walk env userId groupId limit fuel)
    {before rest : List ι} (hbefore : i ∉ before) {pages : List (Page String MessageView)}
    (hpages : ((converse s calls).run (before ++ rest)).returned i = some pages) :
    Walked conversation (messageRequest env userId groupId { limit }) fuel none
      ((converse s calls).run before).store pages
      ((converse s calls).run (before ++ rest)).store := by
  set c := (converse s calls).run before with hc
  have hlaw : ∀ j, (c.calls j).Always fun s t _ => Conversed s t :=
    Config.invariant_run (I := fun c : Config ι SocialDb SocialEvent Failure
        (List (Page String MessageView)) => ∀ j, (c.calls j).Always fun s t _ => Conversed s t)
      (fun c i h j => Config.always_advance i (h j)) (fun j => prog_converses (calls j)) before
  have hwalk : c.calls i = follow (messageRequest env userId groupId { limit }) fuel none := by
    rw [hc, Config.run_calls_of_notMem hbefore]
    show (calls i).prog = _
    rw [hcall]
    rfl
  rw [Config.run_append, ← hc] at hpages ⊢
  have hmeets : ∀ j, (c.calls j).Meets conversation (fun pages t => j = i →
      Walked conversation (messageRequest env userId groupId { limit }) fuel none c.store pages t)
        c.store := by
    intro j
    by_cases hj : j = i
    · rw [hj, hwalk]
      exact (meets_follow (momentary_messageRequest env userId groupId limit) fuel none c.store).mono
        fun _ _ h _ => h
    · exact (Always.meets ((hlaw j).mono fun s t _ h _ => ⟨trivial, h⟩)).mono
        fun _ _ _ h => absurd h hj
  have hend := (Config.contract_results
    (fun j pages t u h htu hj => (h hj).later htu) trivial hmeets rest).2 i
  exact Config.returned_of_meets hend hpages rfl

section moments

variable {moments : Nat → SocialDb} {limit fuel : Nat}
  {serve : Nat → Option Cursor → Except Failure (Page Cursor MessageWithAuthor)}
  (hserve : ∀ j cursor, serve j cursor = .ok (keysetPage newer MessageWithAuthor.key limit
    (messageRows groupId none (moments j)) cursor))
include hserve

/-- One message, one key: the pages repeat none. -/
theorem nodup_walked (hmoments : ∀ j, Conversed (moments j) t) :
    ((allItems (walk serve fuel 0 none)).map (·.id)).Nodup := by
  have hascending := (walk_ascending newer_trans hserve
    (fun j => ascending_messageRows groupId none (moments j)) fuel 0 none).1
  rw [List.Nodup, List.pairwise_map]
  refine hascending.imp_of_mem fun {a b} ha hb hab hid => ?_
  obtain ⟨j, hj⟩ := mem_allItems_of_walk hserve ha
  obtain ⟨k, hk⟩ := mem_allItems_of_walk hserve hb
  obtain ⟨a', ha', hida, hdatea⟩ := (hmoments _).key (mem_messageRows.mp hj).1
  obtain ⟨b', hb', hidb, hdateb⟩ := (hmoments _).key (mem_messageRows.mp hk).1
  have hsame : a' = b' := t.message_unique ha' hb' (by rw [hida, hidb, hid])
  have hkey : a.key = b.key := by
    unfold MessageWithAuthor.key
    rw [hid, ← hdatea, ← hdateb, hsame]
  rw [hkey] at hab
  exact newer_irrefl _ hab

/-- A message that stays is on some page. -/
theorem mem_walked (hlimit : 0 < limit)
    (hmoments : ∀ j, Conversed s (moments j) ∧ Conversed (moments j) t)
    (hended : Ended (walk serve fuel 0 none)) {m : GroupMessage} (hs : m ∈ s.messages.rows)
    (ht : m ∈ t.messages.rows) (hgroup : m.groupId = groupId) (hlive : m.deletedAt = none) :
    m.id ∈ (allItems (walk serve fuel 0 none)).map (·.id) := by
  obtain ⟨row, hrow⟩ := Option.isSome_iff_exists.mp (messageWithAuthor_isSome hs)
  have hm := toGroupMessage_of_messageWithAuthor hrow
  have hlisted : ∀ j, row ∈ messageRows groupId none (moments j) := by
    intro j
    refine mem_messageRows.mpr ⟨?_, ?_, ?_⟩
    · rw [hm]
      exact (hmoments j).1.between (hmoments j).2 hs ht
    · rw [hm]
      simp [isLive, hgroup, hlive]
    · rw [hm, ← hrow]
      unfold SocialDb.messageWithAuthor SocialDb.findUser
      rw [(hmoments j).1.users]
  have hmem : row ∈ allItems (walk serve fuel 0 none) :=
    walk_covers hlimit hserve (fun j => ascending_messageRows groupId none (moments j)) hended
      (fun j _ => hlisted (0 + j)) rfl
  exact List.mem_map.mpr ⟨row, hmem, congrArg GroupMessage.id hm⟩

end moments

/-- The message history walk. However messages are sent and deleted meanwhile,
the pages of a client descend by time and id and repeat no message; and once
there is no next page, each message that was there before the first request and
still is has been returned, once. -/
theorem message_walk_is_exact (s : SocialDb) (calls : ι → ConversationCall) (i : ι) (env : PlansEnv)
    (userId groupId : Id) (limit : Option Nat) (fuel : Nat)
    (hcall : calls i = .walk env userId groupId limit fuel) (hcodec : env.codec.Lawful)
    (hlimit : ∀ n ∈ limit, 1 ≤ n) (before rest : List ι) (hbefore : i ∉ before)
    (pages : List (Page String MessageView))
    (hpages : ((converse s calls).run (before ++ rest)).returned i = some pages) :
    (allItems pages).Pairwise (fun a b => b.createdAt < a.createdAt ∨
      b.createdAt = a.createdAt ∧ b.id < a.id) ∧
    ((allItems pages).map (·.id)).Nodup ∧
    (Ended pages → ∀ m ∈ ((converse s calls).run before).store.messages.rows,
      m ∈ ((converse s calls).run (before ++ rest)).store.messages.rows →
        m.groupId = groupId → m.deletedAt = none →
          ((allItems pages).map (·.id)).count m.id = 1) := by
  obtain ⟨moments, hmoments, rfl⟩ := walked_of_returned hcall hbefore hpages
  have hrows : walk (fun j => answerAt (messageRequest env userId groupId { limit }) (moments j))
      fuel 0 ((none : Option Cursor).map (encodeCursor env.codec)) =
      (walk (fun j => messageAnswer userId groupId { limit } (moments j)) fuel 0 none).map
        (Page.map (encodeCursor env.codec) serializeMessage) :=
    walk_map (fun j cursor => answerAt_messageRequest hcodec rfl (moments j) cursor) fuel 0 none
  rw [Option.map_none] at hrows
  rw [hrows]
  have hsees : ∀ page : List (Page Cursor MessageWithAuthor),
      ((allItems page).map serializeMessage).map (·.id) = (allItems page).map (·.id) :=
    fun page => List.map_map
  rw [allItems_map, List.pairwise_map, hsees, ended_map]
  by_cases haccepted : IsAccepted ((converse s calls).run before).store userId groupId
  · have hserve : ∀ j cursor, messageAnswer userId groupId { limit } (moments j) cursor =
        .ok (keysetPage newer MessageWithAuthor.key (limit.getD 20)
          (messageRows groupId none (moments j)) cursor) :=
      fun j _ => if_pos ((hmoments j).1.isAccepted.mpr haccepted)
    have hpos : 0 < limit.getD 20 := by
      cases limit with
      | none => decide
      | some n => exact hlimit n rfl
    have hnodup : ((allItems (walk (fun j => messageAnswer userId groupId { limit } (moments j))
        fuel 0 none)).map (·.id)).Nodup := nodup_walked hserve fun j => (hmoments j).2
    refine ⟨(walk_ascending newer_trans hserve
      (fun j => ascending_messageRows groupId none (moments j)) fuel 0 none).1, hnodup, ?_⟩
    exact fun hended m hs ht hgroup hlive => List.count_eq_one_of_mem hnodup
      (mem_walked hserve hpos hmoments hended hs ht hgroup hlive)
  · -- Whoever is no member is refused the first page.
    have hrefused : messageAnswer userId groupId { limit } (moments 0) none = .error (.http
        (ForbiddenException (some "PLAN_ACCEPTED_MEMBERS_ONLY")
          "Esta acción requiere ser miembro aprobado del plan.")) :=
      if_neg fun h => haccepted ((hmoments 0).1.isAccepted.mp h)
    rw [walk_error hrefused]
    exact ⟨.nil, .nil, fun hended => absurd hended not_ended_nil⟩

/-! ## A conversation -/

/-- Sends a message with the given id at the given time. -/
def aMessageEnv (messageId : Id) (now : Date) : PlansEnv where
  toSocialEnv := { anEnv "" [] with now }
  codec := codecAt 2 "1970-01-01T00:00:00.002Z" "n2" "[\"1970-01-01T00:00:00.002Z\",\"n2\"]"
    "WyIxOTcwLTAxLTAxVDAwOjAwOjAwLjAwMloiLCJuMiJd"
  rsvpId := ""
  messageId := messageId

/-- Ana has written twice in her plan. -/
def twoMessages : SocialDb :=
  let plan := ((createPlan (anEnv "g1" ["m1"]) (aPublicPlan "AAAAAA" 10)).run threeUsers).store
  let first := ((PlansService.sendMessage (aMessageEnv "n1" 1) "ana" "g1" "Hola").run plan).store
  ((PlansService.sendMessage (aMessageEnv "n2" 2) "ana" "g1" "¿Vienen?").run first).store

/-- She walks through the messages one by one, and sends another one meanwhile. -/
def readAndWrite : Bool → ConversationCall
  | true => .walk (aMessageEnv "" 0) "ana" "g1" (some 1) 5
  | false => .send (aMessageEnv "n3" 3) "ana" "g1" "Dale"

/-- The third message is sent between the two pages. -/
theorem old_message_is_read_once :
    ((allItems ((((converse twoMessages readAndWrite).run ([false] ++
      [true, true, false, false, true, true])).returned true).getD [])).map (·.id)).count "n1" = 1 := by
  refine (message_walk_is_exact twoMessages readAndWrite true (aMessageEnv "" 0) "ana" "g1" (some 1) 5
    rfl (lawful_codecAt _ _ _ (by decide) (by decide)) (by decide) [false]
    [true, true, false, false, true, true] (by decide) _ (by decide)).2.2 (by decide)
    { id := "n1", groupId := "g1", authorId := "ana", body := "Hola", createdAt := 1 } (by decide)
    (by decide) rfl rfl

end Feca.Social
