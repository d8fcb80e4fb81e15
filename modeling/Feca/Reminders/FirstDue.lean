import Feca.Reminders.Personal

/-! # The first that is due

Digests and recommendations have keys of their own. Runs follow one another and
others publish in between: what a user has under such a key in the end is what the
first run had for it that had anything, and later runs leave it alone.
-/

namespace Feca.Reminders

open Calendar Concurrency Concurrency.Prog Content Places Push Relational Social

variable {s t u : PushDb} {input : PublishNotificationInput} {userId : Id} {key : String}

/-! ## What is sent under a key -/

/-- What its recipient is shown of a notification. -/
structure Sent where
  actorId : Option Id
  type : NotificationType
  entityType : Option NotificationEntityType
  entityId : Option Id
  payload : Json

def Sent.of (n : Notification) : Sent := ⟨n.actorId, n.type, n.entityType, n.entityId, n.payload⟩

def sentOf (input : PublishNotificationInput) : Sent where
  actorId := input.actorId
  type := input.type
  entityType := input.entity.map (·.kind)
  entityId := input.entity.map (·.id)
  payload := normalizeNotificationPayload input.payload

def isUnder (userId : Id) (key : String) (n : Notification) : Bool :=
  n.userId == userId && n.dedupeKey == some key

def sentUnder (s : PushDb) (userId : Id) (key : String) : Option Sent :=
  (s.notifications.rows.find? (isUnder userId key)).map .of

/-- The input is for the user, under the key. -/
def isFor (userId : Id) (key : String) (input : PublishNotificationInput) : Bool :=
  input.recipientIds == [userId] && input.dedupeKey == some key

theorem isUnder_notificationOf {recipientId : Id} {name : String}
    (h : ForOne input recipientId name) (env : PublishEnv) (userId : Id) (key : String) :
    isUnder userId key (notificationOf input env 0 recipientId) = isFor userId key input := by
  unfold isUnder isFor notificationOf
  rw [h.recipientIds]
  simp

theorem sentUnder_isSome_iff : (sentUnder s userId key).isSome ↔ HasKey s userId key := by
  unfold sentUnder HasKey isUnder
  rw [Option.isSome_map, List.find?_isSome]
  simp only [Bool.and_eq_true, beq_iff_eq]

/-- Under a key a user has one notification at most. -/
theorem map_filter_isUnder (s : PushDb) (userId : Id) (key : String) :
    (s.notifications.rows.filter (isUnder userId key)).map .of =
      (sentUnder s userId key).toList := by
  have hdistinct := s.notifications.distinct
  unfold sentUnder
  generalize s.notifications.rows = rows at hdistinct ⊢
  induction rows with
  | nil => rfl
  | cons n rows ih =>
      obtain ⟨hn, hrows⟩ := List.pairwise_cons.mp hdistinct
      cases hunder : isUnder userId key n with
      | false =>
          rw [List.filter_cons_of_neg (by simp [hunder]), List.find?_cons_of_neg (by simp [hunder])]
          exact ih hrows
      | true =>
          have hnone : rows.filter (isUnder userId key) = [] := by
            refine List.filter_eq_nil_iff.mpr fun m hm hclash => ?_
            have hfree := hn m hm
            simp only [isUnder, Bool.and_eq_true, beq_iff_eq] at hunder hclash
            simp [conflicts, hunder.1, hunder.2, hclash.1, hclash.2] at hfree
          rw [List.filter_cons_of_pos hunder, hnone, List.find?_cons_of_pos hunder]
          rfl

/-- What has been sent under a key is all there is under it. -/
theorem sent_of_sentUnder {sent : Sent} (h : sentUnder s userId key = some sent)
    {n : Notification} (hn : n ∈ s.notifications.rows) (huser : n.userId = userId)
    (hkey : n.dedupeKey = some key) : Sent.of n = sent := by
  obtain ⟨m, hfind, rfl⟩ := Option.map_eq_some_iff.mp h
  have hm := List.find?_some hfind
  simp only [isUnder, Bool.and_eq_true, beq_iff_eq] at hm
  have hclash : conflicts n m = true := by simp [conflicts, huser, hkey, hm.1, hm.2]
  rw [s.notifications.eq_of_conflicts hn (List.mem_of_find?_eq_some hfind) hclash]

theorem Published.sentUnder {env : PublishEnv} {recipientId : Id} {name : String}
    (h : Published input env recipientId name s t) (hinput : ForOne input recipientId name)
    (userId : Id) (key : String) : sentUnder t userId key =
      (sentUnder s userId key).or (if isFor userId key input then some (sentOf input) else none) := by
  rcases h.notifications with ⟨hhas, hsame⟩ | hrows
  · have hkept : Reminders.sentUnder t userId key = Reminders.sentUnder s userId key := by
      unfold Reminders.sentUnder
      rw [hsame]
    rw [hkept]
    split
    · rename_i hfor
      unfold isFor at hfor
      rw [hinput.recipientIds, hinput.dedupeKey] at hfor
      simp only [Bool.and_eq_true, beq_iff_eq, List.cons.injEq, and_true, Option.some.injEq] at hfor
      rw [hfor.1, hfor.2, ← sentUnder_isSome_iff] at hhas
      rw [Option.or_of_isSome hhas]
    · rw [Option.or_none]
  · unfold Reminders.sentUnder
    rw [hrows, List.find?_append, ← isUnder_notificationOf hinput env userId key]
    cases (s.notifications.rows.find? (isUnder userId key)) with
    | some n => rfl
    | none =>
        rw [List.find?_singleton]
        cases isUnder userId key (notificationOf input env 0 recipientId) <;> rfl

/-! ## One after the other -/

/-- The inputs are published, each unless its user has something under its key. -/
structure SendsAll (inputs : List PublishNotificationInput) (env : Nat → PublishEnv)
    (s t : PushDb) : Prop where
  users : t.users = s.users
  sent : ∀ userId key, sentUnder t userId key =
    (sentUnder s userId key).or ((inputs.find? (isFor userId key)).map sentOf)
  new : ∀ n ∈ t.notifications.rows, n ∈ s.notifications.rows ∨ ∃ k, n.id = (env k).notificationId 0

theorem sendsAll_publishAll {env : Nat → PublishEnv} {index : Nat}
    {inputs : List PublishNotificationInput} (h : Addressed s inputs)
    (hfresh : FreshFrom env index s) :
    ∃ published, ((publishAll env index inputs).run s).result = .ok published ∧
      SendsAll inputs env s ((publishAll env index inputs).run s).store := by
  induction inputs generalizing s index with
  | nil => exact ⟨0, rfl, rfl, fun _ _ => (Option.or_none).symm, fun _ hn => .inl hn⟩
  | cons input inputs ih =>
      obtain ⟨userId, key, hinput, huser⟩ := h input List.mem_cons_self
      obtain ⟨result, hresult, hfirst⟩ := publish_run hinput
        ⟨huser, hfresh.unused index (le_refl _)⟩
      have haddressed : Addressed ((publish input (env index)).run s).store inputs := by
        intro x hx
        obtain ⟨userId, key, hx, huser⟩ := h x (List.mem_cons_of_mem _ hx)
        refine ⟨userId, key, hx, ?_⟩
        unfold PushDb.hasUser at huser ⊢
        rwa [hfirst.users]
      obtain ⟨published, hrest, hall⟩ := ih haddressed (hfresh.next hfirst)
      unfold publishAll
      rw [run_bind_ok hresult, run_bind_ok hrest]
      refine ⟨_, rfl, hall.users.trans hfirst.users, fun userId key => ?_, fun n hn => ?_⟩
      · refine (hall.sent userId key).trans ?_
        rw [hfirst.sentUnder hinput, Option.or_assoc, List.find?_cons]
        cases isFor userId key input with
        | true => rfl
        | false => rfl
      · rcases hall.new n hn with hmiddle | hnew
        · rcases hfirst.new n hmiddle with hold | rfl
          · exact .inl hold
          · exact .inr ⟨index, rfl⟩
        · exact .inr hnew

/-- Catching what is not thrown changes nothing. -/
theorem publishEachCaught_run {env : Nat → PublishEnv} {index : Nat}
    {inputs : List PublishNotificationInput} {published : Nat}
    (h : ((publishAll env index inputs).run s).result = .ok published) :
    ((publishEachCaught env index inputs).run s).result = .ok published ∧
      ((publishEachCaught env index inputs).run s).store =
        ((publishAll env index inputs).run s).store := by
  induction inputs generalizing s index published with
  | nil => exact ⟨h, rfl⟩
  | cons input inputs ih =>
      unfold publishAll at h ⊢
      unfold publishEachCaught
      cases hfirst : ((publish input (env index)).run s).result with
      | error e =>
          rw [run_bind_error hfirst] at h
          cases h
      | ok result =>
          rw [run_bind_ok hfirst] at h ⊢
          rw [run_bind_ok (by rw [run_attempt])]
          cases hrest : ((publishAll env (index + 1) inputs).run
              ((publish input (env index)).run s).store).result with
          | error e =>
              rw [run_bind_error hrest] at h
              cases h
          | ok rest =>
              obtain ⟨hcaught, hstore⟩ := ih hrest
              rw [run_bind_ok hrest] at h ⊢
              rw [run_attempt, hfirst]
              dsimp only
              rw [run_bind_ok hcaught]
              exact ⟨h, hstore⟩

/-! ## The reminders of groups -/

/-- What publishing does to the notifications: those that are there stay. -/
structure Grows (R : Notification → Prop) (s t : PushDb) : Prop where
  users : t.users = s.users
  kept : ∀ n ∈ s.notifications.rows, n ∈ t.notifications.rows
  new : Adds R s t

section grows

variable {R : Notification → Prop}

theorem Grows.refl (R : Notification → Prop) (s : PushDb) : Grows R s s :=
  ⟨rfl, fun _ hn => hn, Adds.refl R s⟩

theorem Grows.trans (hst : Grows R s t) (htu : Grows R t u) : Grows R s u :=
  ⟨htu.users.trans hst.users, fun n hn => htu.kept n (hst.kept n hn), hst.new.trans htu.new⟩

theorem grows_publish {env : PublishEnv}
    (h : ∀ index, ∀ id ∈ input.recipients, R (notificationOf input env index id)) :
    (Push.publish input env).Always fun s t _ => Grows R s t := by
  have htransaction : (publishTransaction input env).Always fun s t _ => Grows R s t := by
    refine always_publishTransaction (Grows.refl R) (fun index id hid => ?_) fun ds => ?_
    · refine always_stmt fun s => ?_
      split
      · rename_i t hinsert
        have hrows := (PushDb.insertNotification_ok hinsert).2.2
        refine ⟨(PushDb.insertNotification_free hinsert).1, fun n hn => ?_, fun n hn => ?_⟩
        · dsimp only
          rw [hrows]
          exact List.mem_append_left _ hn
        · dsimp only at hn
          rw [hrows, List.mem_append, List.mem_singleton] at hn
          rcases hn with hold | rfl
          · exact .inl hold
          · exact .inr (h index id hid)
      · exact Grows.refl R s
    · refine always_stmt fun s => ?_
      split
      · rename_i t hinsert
        have hsame := (PushDb.insertDeliveries_ok hinsert).2.1
        refine ⟨PushDb.insertDeliveries_users hinsert, fun n hn => ?_, fun n hn => ?_⟩
        · dsimp only
          rwa [hsame]
        · dsimp only at hn
          rw [hsame] at hn
          exact .inl hn
      · exact Grows.refl R s
  unfold Push.publish
  split
  · trivial
  · exact always_transaction htransaction (Grows.refl R) fun _ _ _ _ _ hst htu => hst.trans htu

theorem grows_publishAll {env : Nat → PublishEnv} {index : Nat}
    {inputs : List PublishNotificationInput}
    (h : ∀ input ∈ inputs, ∀ k index, ∀ id ∈ input.recipients,
      R (notificationOf input (env k) index id)) :
    (publishAll env index inputs).Always fun s t _ => Grows R s t := by
  induction inputs generalizing index with
  | nil => trivial
  | cons input inputs ih =>
      have hrest := fun input hinput => h input (List.mem_cons_of_mem _ hinput)
      unfold publishAll
      refine always_bind (grows_publish (h input List.mem_cons_self index)) fun result => ?_
      exact always_bind (ih hrest) fun published => trivial

/-- What is under a key stays, where nothing is added under it. -/
theorem Grows.sentUnder (h : Grows R s t) (hkey : ∀ n, R n → n.dedupeKey ≠ some key) :
    sentUnder t userId key = sentUnder s userId key := by
  cases hs : Reminders.sentUnder s userId key with
  | some sent =>
      obtain ⟨n, hfind, rfl⟩ := Option.map_eq_some_iff.mp hs
      have hcols := List.find?_some hfind
      simp only [isUnder, Bool.and_eq_true, beq_iff_eq] at hcols
      have hthere : HasKey t userId key :=
        ⟨n, h.kept n (List.mem_of_find?_eq_some hfind), hcols⟩
      obtain ⟨sent, ht⟩ := Option.isSome_iff_exists.mp (sentUnder_isSome_iff.mpr hthere)
      rw [ht, ← sent_of_sentUnder ht (h.kept n (List.mem_of_find?_eq_some hfind)) hcols.1 hcols.2]
  | none =>
      rw [← Option.not_isSome_iff_eq_none, sentUnder_isSome_iff] at hs ⊢
      intro hthere
      obtain ⟨n, hn, hcols⟩ := hthere
      rcases h.new n hn with hold | hnew
      · exact hs ⟨n, hold, hcols⟩
      · exact hkey n hnew hcols.2

end grows

/-- The key is one of those of the groups, and the id one of the run's. -/
def GroupReminder (env : RunEnv) (n : Notification) : Prop :=
  (∃ name, n.dedupeKey = some name ∧ name.toList.head? = some 'g') ∧ ∃ k index,
    n.id = (env.inviteEnv k).notificationId index ∨ n.id = (env.rsvpEnv k).notificationId index ∨
      n.id = (env.todayEnv k).notificationId index

section groups

variable {env : RunEnv} {world : AutomationWorld} {localTime : Id → Option LocalDateTime}

theorem head_inviteReminderKey (id : Id) :
    (s!"group-invite-reminder:{id}" : String).toList.head? = some 'g' := by
  show (toString "group-invite-reminder:" ++ toString id).toList.head? = _
  simp [String.toList_append, toString]

theorem head_dedupeKey {reminder : EventReminder} (h : IsReminder reminder) (eventId userId : Id)
    (eventDate : String) :
    (reminder.dedupeKey eventId userId eventDate).toList.head? = some 'g' := by
  rw [toList_dedupeKey]
  rcases h with rfl | rfl
  · simp [rsvpReminder]
  · simp [todayReminder]

theorem grows_runGroupReminders :
    (runGroupReminders env world localTime).Always fun s t _ => Grows (GroupReminder env) s t := by
  unfold runGroupReminders
  refine always_bind ?_ fun invited => always_bind ?_ fun rsvps => always_bind ?_ fun todays =>
    trivial
  · refine grows_publishAll fun input hinput k index id _ => ⟨?_, k, index, .inl rfl⟩
    obtain ⟨m, -, hm⟩ := List.mem_filterMap.mp hinput
    obtain ⟨group, -, rfl⟩ := Option.map_eq_some_iff.mp hm
    exact ⟨_, rfl, head_inviteReminderKey m.id⟩
  · refine grows_publishAll fun input hinput k index id _ => ⟨?_, k, index, .inr (.inl rfl)⟩
    obtain ⟨row, -, memberId, -, shown, -, -, rfl⟩ := mem_dueInputs_iff.mp hinput
    exact ⟨_, rfl, head_dedupeKey (.inl rfl) row.id memberId row.eventDate⟩
  · refine grows_publishAll fun input hinput k index id _ => ⟨?_, k, index, .inr (.inr rfl)⟩
    obtain ⟨row, -, memberId, -, shown, -, -, rfl⟩ := mem_dueInputs_iff.mp hinput
    exact ⟨_, rfl, head_dedupeKey (.inr rfl) row.id memberId row.eventDate⟩

theorem grows_afterGroups (s : PushDb) :
    Grows (GroupReminder env) s ((runGroupReminders env world localTime).run s).store :=
  grows_runGroupReminders.run (Grows.refl _) (fun _ _ _ _ _ hst htu => hst.trans htu) s

end groups

/-! ## One run -/

section run

variable (env : RunEnv) (world : AutomationWorld) (s : PushDb)

def localTimeAt : Id → Option LocalDateTime :=
  localTimeOf env.intl env.now ((listUserContexts s).map (·.toUserTimezoneContext))

/-- The reminders of groups are not caught: where one throws, the run is over. -/
def groupsDone : Bool :=
  ((runGroupReminders env world (localTimeAt env s)).run s).result.toOption.isSome

/-- The digests and recommendations of a run that starts now. -/
def personalInputs : List PublishNotificationInput :=
  digestInputs env world (listUserContexts s) (localTimeAt env s) ++
    recommendationInputs env world (listUserContexts s) (localTimeAt env s)

/-- What the run has for the user under the key. -/
def sends (userId : Id) (key : String) : Option Sent :=
  if groupsDone env world s then
    ((personalInputs env world s).find? (isFor userId key)).map sentOf
  else none

/-- The ids of the run are new, and no user is without one. -/
structure FreshRun : Prop where
  users : ∀ user ∈ s.users.rows, user.id ≠ ""
  digest : FreshFrom env.digestEnv 0 s
  contextual : FreshFrom env.contextualEnv 0 s
  apart : ∀ k l, (env.digestEnv k).notificationId 0 ≠ (env.contextualEnv l).notificationId 0
  groups : ∀ n, GroupReminder env n → ∀ k, n.id ≠ (env.digestEnv k).notificationId 0 ∧
    n.id ≠ (env.contextualEnv k).notificationId 0

end run

/-- The key is of a digest or of a recommendation. -/
def PersonalKey (userId : Id) (key : String) : Prop :=
  ∃ date, key = digestKey userId date ∨ ∃ slot, key = contextualKey slot userId date

theorem toList_digestKey (userId : Id) (date : String) : (digestKey userId date).toList =
    "weekly-digest".toList ++ ':' :: (userId.toList ++ ':' :: date.toList) := by
  have hcolon : ":".toList = [':'] := by decide
  have hname : "weekly-digest:".toList = "weekly-digest".toList ++ [':'] := by decide
  show (toString "weekly-digest:" ++ toString userId ++ ":" ++ toString date).toList = _
  simp [String.toList_append, toString, hcolon, hname]

theorem toList_contextualKey (slot : ContextualSlot) (userId : Id) (date : String) :
    (contextualKey slot userId date).toList = "contextual".toList ++
      ':' :: (slot.name.toList ++ ':' :: (userId.toList ++ ':' :: date.toList)) := by
  have hcolon : ":".toList = [':'] := by decide
  have hname : "contextual:".toList = "contextual".toList ++ [':'] := by decide
  show (toString "contextual:" ++ toString slot.name ++ ":" ++ toString userId ++ ":" ++
    toString date).toList = _
  simp [String.toList_append, toString, hcolon, hname]

theorem PersonalKey.head (h : PersonalKey userId key) : key.toList.head? ≠ some 'g' := by
  obtain ⟨date, rfl | ⟨slot, rfl⟩⟩ := h
  · rw [toList_digestKey]
    simp
  · rw [toList_contextualKey]
    simp

theorem not_groupReminder_of_personal {env : RunEnv} (h : PersonalKey userId key)
    (n : Notification) (hn : GroupReminder env n) : n.dedupeKey ≠ some key := by
  intro hkey
  obtain ⟨⟨name, hname, hhead⟩, -⟩ := hn
  rw [hname, Option.some.injEq] at hkey
  exact h.head (hkey ▸ hhead)

section inputs

variable {env : RunEnv} {world : AutomationWorld}

theorem hasUser_of_context {user : UserContext} (h : user ∈ listUserContexts s) :
    ∃ row ∈ s.users.rows, row.id = user.id := by
  obtain ⟨row, hrow, rfl⟩ := List.mem_map.mp (List.mem_filter.mp h).1
  exact ⟨row, (List.mem_filter.mp hrow).1, rfl⟩

theorem digestOf_spec {content : ContentDb} {now : Date} {user : UserContext}
    {localTime : LocalDateTime} (h : digestOf content now user localTime = some input) :
    localTime.weekday = 0 ∧ isDueAtLocalTime localTime 18 0 = true ∧
      ∃ digest, input = digestInput user.id localTime.date digest := by
  unfold digestOf at h
  split at h
  · cases h
  · rename_i hdue
    simp only [Bool.or_eq_true, bne_iff_ne, ne_eq, Bool.not_eq_true', not_or, Decidable.not_not,
      Bool.not_eq_false] at hdue
    split at h
    · rename_i digest _
      exact ⟨hdue.1, hdue.2, digest, (Option.some.inj h).symm⟩
    · cases h

/-- A place that was recommended could be, and the user has not been there lately. -/
theorem recommendationOf_spec {now : Date} {user : UserContext} {localTime : LocalDateTime}
    (h : recommendationOf world now user localTime = some input) :
    ∃ slot intent place, pickDueContextualSlot localTime
        (readOutingPreferences (world.outingPreferences user.id)).typicalOutingSlots = some slot ∧
      input = contextualInput slot user.id localTime.date intent place := by
  obtain ⟨slot, hslot, hrest⟩ := Option.bind_eq_some_iff.mp h
  split at hrest
  · cases hrest
  · dsimp only at hrest
    split at hrest
    · cases hrest
    · obtain ⟨place, -, rfl⟩ := Option.map_eq_some_iff.mp hrest
      exact ⟨slot, _, place, hslot, rfl⟩

theorem ne_empty_of_head {c : Char} (h : key.toList.head? = some c) : key ≠ "" := by
  rintro rfl
  cases h

theorem addressed_digests (hfresh : FreshRun env s) (husers : t.users = s.users) :
    Addressed t (digestInputs env world (listUserContexts s) (localTimeAt env s)) := by
  intro input hinput
  obtain ⟨user, huser, hdigest⟩ := List.mem_filterMap.mp hinput
  obtain ⟨localTime, -, hdigest⟩ := Option.bind_eq_some_iff.mp hdigest
  obtain ⟨-, -, digest, rfl⟩ := digestOf_spec hdigest
  obtain ⟨row, hrow, hid⟩ := hasUser_of_context huser
  refine ⟨user.id, _, ⟨rfl, rfl, rfl, hid ▸ hfresh.users row hrow, ?_⟩, ?_⟩
  · exact ne_empty_of_head (c := 'w') (by rw [toList_digestKey]; rfl)
  · exact List.any_eq_true.mpr ⟨row, husers ▸ hrow, by simpa using hid⟩

theorem addressed_recommendations (hfresh : FreshRun env s) (husers : t.users = s.users) :
    Addressed t (recommendationInputs env world (listUserContexts s) (localTimeAt env s)) := by
  intro input hinput
  obtain ⟨user, huser, hrecommendation⟩ := List.mem_filterMap.mp hinput
  obtain ⟨localTime, -, hrecommendation⟩ := Option.bind_eq_some_iff.mp hrecommendation
  obtain ⟨slot, intent, place, -, rfl⟩ := recommendationOf_spec hrecommendation
  obtain ⟨row, hrow, hid⟩ := hasUser_of_context huser
  refine ⟨user.id, _, ⟨rfl, rfl, rfl, hid ▸ hfresh.users row hrow, ?_⟩, ?_⟩
  · exact ne_empty_of_head (c := 'c') (by rw [toList_contextualKey]; rfl)
  · exact List.any_eq_true.mpr ⟨row, husers ▸ hrow, by simpa using hid⟩

end inputs

section one

variable {env : RunEnv} (world : AutomationWorld)

theorem weeklyDigests_run (hfresh : FreshRun env s) (husers : t.users = s.users)
    (hids : FreshFrom env.digestEnv 0 t) :
    ∃ published, ((runWeeklyDigests env world (listUserContexts s) (localTimeAt env s)).run
        t).result = .ok published ∧
      SendsAll (digestInputs env world (listUserContexts s) (localTimeAt env s)) env.digestEnv t
        ((runWeeklyDigests env world (listUserContexts s) (localTimeAt env s)).run t).store := by
  unfold runWeeklyDigests
  exact sendsAll_publishAll (addressed_digests hfresh husers) hids

theorem contextualRecommendations_run (hfresh : FreshRun env s) (husers : t.users = s.users)
    (hids : FreshFrom env.contextualEnv 0 t) :
    ∃ published, ((runContextualRecommendations env world (listUserContexts s)
        (localTimeAt env s)).run t).result = .ok published ∧
      SendsAll (recommendationInputs env world (listUserContexts s) (localTimeAt env s))
        env.contextualEnv t ((runContextualRecommendations env world (listUserContexts s)
          (localTimeAt env s)).run t).store := by
  have haddressed : Addressed t (recommendationInputs env world (listUserContexts s)
      (localTimeAt env s)) := addressed_recommendations hfresh husers
  obtain ⟨published, hall, hsends⟩ :=
    sendsAll_publishAll haddressed hids
  obtain ⟨hcaught, hstore⟩ := publishEachCaught_run hall
  unfold runContextualRecommendations
  rw [hstore]
  exact ⟨published, hcaught, hsends⟩

/-- The rest of a run whose reminders of groups did not throw. -/
theorem personal_run (hfresh : FreshRun env s) (hgroups : Grows (GroupReminder env) s t) :
    ∃ digests recommendations,
      ((runWeeklyDigests env world (listUserContexts s) (localTimeAt env s)).run t).result =
        .ok digests ∧
      ((runContextualRecommendations env world (listUserContexts s) (localTimeAt env s)).run
        ((runWeeklyDigests env world (listUserContexts s) (localTimeAt env s)).run
          t).store).result = .ok recommendations ∧
      ∀ userId key, sentUnder ((runContextualRecommendations env world (listUserContexts s)
          (localTimeAt env s)).run ((runWeeklyDigests env world (listUserContexts s)
            (localTimeAt env s)).run t).store).store userId key =
        (sentUnder t userId key).or
          (((personalInputs env world s).find? (isFor userId key)).map sentOf) := by
  have hdigestIds : FreshFrom env.digestEnv 0 t := by
    refine ⟨fun k hk n hn => ?_, hfresh.digest.distinct⟩
    rcases hgroups.new n hn with hold | hnew
    · exact hfresh.digest.unused k hk n hold
    · exact (hfresh.groups n hnew k).1
  obtain ⟨digests, hdigests, hfirst⟩ :=
    weeklyDigests_run world hfresh hgroups.users hdigestIds
  have hcontextualIds : FreshFrom env.contextualEnv 0
      ((runWeeklyDigests env world (listUserContexts s) (localTimeAt env s)).run t).store := by
    refine ⟨fun k hk n hn => ?_, hfresh.contextual.distinct⟩
    rcases hfirst.new n hn with hmiddle | ⟨l, hnew⟩
    · rcases hgroups.new n hmiddle with hold | hnew
      · exact hfresh.contextual.unused k hk n hold
      · exact (hfresh.groups n hnew k).2
    · rw [hnew]
      exact hfresh.apart l k
  obtain ⟨recommendations, hrecommendations, hsecond⟩ :=
    contextualRecommendations_run world hfresh (hfirst.users.trans hgroups.users) hcontextualIds
  refine ⟨digests, recommendations, hdigests, hrecommendations, fun userId key => ?_⟩
  rw [hsecond.sent, hfirst.sent, Option.or_assoc]
  unfold personalInputs
  rw [List.find?_append, Option.map_or]

/-- A run leaves what it has for a user where there was nothing, and only there. -/
theorem runEveryAutomation_sent (hfresh : FreshRun env s) (hkey : PersonalKey userId key) :
    sentUnder ((runEveryAutomation env world).run s).store userId key =
      (sentUnder s userId key).or (sends env world s userId key) := by
  have hgroups : Grows (GroupReminder env) s
      ((runGroupReminders env world (localTimeAt env s)).run s).store := grows_afterGroups s
  have hkept : sentUnder ((runGroupReminders env world (localTimeAt env s)).run s).store userId key =
      sentUnder s userId key := hgroups.sentUnder (not_groupReminder_of_personal hkey)
  obtain ⟨digests, recommendations, hdigests, hrecommendations, hsent⟩ :=
    personal_run world hfresh hgroups
  unfold runEveryAutomation sends groupsDone
  rw [run_bind_ok (by rw [run_query]), run_query]
  change sentUnder (Prog.run (runGroupReminders env world (localTimeAt env s) >>= _) s).store
    userId key = _
  cases hresult : ((runGroupReminders env world (localTimeAt env s)).run s).result with
  | error e =>
      rw [run_bind_error hresult, hkept]
      exact (Option.or_none).symm
  | ok counts =>
      rw [run_bind_ok hresult]
      change sentUnder (Prog.run (runWeeklyDigests env world (listUserContexts s)
        (localTimeAt env s) >>= _) _).store userId key = _
      rw [run_bind_ok hdigests]
      change sentUnder (Prog.run (runContextualRecommendations env world (listUserContexts s)
        (localTimeAt env s) >>= _) _).store userId key = _
      rw [run_bind_ok hrecommendations, run_pure]
      dsimp only
      rw [hsent, hkept]
      rfl

end one

/-! ## One run after the other -/

/-- A run of the automations, and the store that it starts from. -/
structure AutomationRun where
  env : RunEnv
  world : AutomationWorld
  store : PushDb

namespace AutomationRun

variable (run : AutomationRun)

def after : PushDb := ((runEveryAutomation run.env run.world).run run.store).store

/-- What the run has for the user under the key. -/
def sends (userId : Id) (key : String) : Option Sent :=
  Reminders.sends run.env run.world run.store userId key

end AutomationRun

/-- What others do in between: they neither send digests and recommendations nor
take one away. -/
def Elsewhere (s t : PushDb) : Prop :=
  ∀ userId key, PersonalKey userId key → sentUnder t userId key = sentUnder s userId key

inductive Automates : PushDb → List AutomationRun → PushDb → Prop
  | done {s t : PushDb} (between : Elsewhere s t) : Automates s [] t
  | run {s t : PushDb} {run : AutomationRun} {runs : List AutomationRun}
      (between : Elsewhere s run.store) (fresh : FreshRun run.env run.store)
      (rest : Automates run.after runs t) : Automates s (run :: runs) t

section runs

variable {runs : List AutomationRun}

theorem sentUnder_automates (h : Automates s runs t) (hkey : PersonalKey userId key) :
    sentUnder t userId key =
      (sentUnder s userId key).or (runs.findSome? fun run => run.sends userId key) := by
  induction h with
  | done between =>
      rw [between userId key hkey]
      exact (Option.or_none).symm
  | @run s t first runs between fresh rest ih =>
      have hfirst : sentUnder first.after userId key =
          (sentUnder first.store userId key).or (first.sends userId key) :=
        runEveryAutomation_sent first.world fresh hkey
      rw [ih, hfirst, between userId key hkey, Option.or_assoc, List.findSome?_cons]
      cases first.sends userId key <;> rfl

/-- However many runs there are, and whether or not the reminders of groups throw in them
or places cannot be read, what a user has under the key of a digest or of a recommendation
is one notification at most: the one there was, and else what the first run had for the
key. Publishing itself does not fail: the ids are fresh. -/
theorem personal_notification_is_first_due (h : Automates s runs t)
    (hkey : PersonalKey userId key) :
    (t.notifications.rows.filter (isUnder userId key)).map .of =
      ((sentUnder s userId key).or (runs.findSome? fun run => run.sends userId key)).toList := by
  rw [← sentUnder_automates h hkey, map_filter_isUnder]

end runs

/-! ## A Friday of Ana's -/

def anaOfRosario : User := { aUser "ana" with city := some "Rosario", lat := some 0, lng := some 0 }

/-- Ana has a phone in Rosario, and lives there. -/
def anasFriday : PushDb := { anasPhone with users := .singleton anaOfRosario }

def barNearby : NearbyPlaceView :=
  { googlePlaceId := "ChIJbar", name := "Bar", address := "", lat := 0, lng := 0,
    googleMapsUri := none, rating := none, userRatingCount := none, types := [],
    primaryType := none, photoUrl := none, openNow := none }

/-- Ana likes to go out in the evening. -/
def anasWorld (explored : Except Thrown (List NearbyPlaceView)) : AutomationWorld where
  content := .ofSocial threeUsers {} (by decide) (by decide)
  outingPreferences _ := .object [("typicalOutingSlots",
    .array [.string "weekday_evening", .string "weekend_night"])]
  exploreContext _ _ := explored

/-- Every kind writes its ids with a letter of its own. -/
def anEvery (now : Date) (letters : Char × Char × Char × Char × Char) : RunEnv where
  toAutomationEnv := aRun now (letters.1, letters.2.1)
  inviteEnv := idsOf letters.2.2.1
  digestEnv := idsOf letters.2.2.2.1
  contextualEnv := idsOf letters.2.2.2.2

theorem letter_of_idsOf {letter other : Char} {k l i j : Nat}
    (h : (idsOf letter k).notificationId i = (idsOf other l).notificationId j) :
    letter = other ∧ k = l := by
  have hlist := String.ofList_inj.mp h
  have hlength := congrArg List.length hlist
  have hhead := congrArg List.head? hlist
  rw [List.replicate_succ, List.replicate_succ] at hhead
  exact ⟨by simpa using hhead, by simpa using hlength⟩

theorem freshRun_anEvery {now : Date} {letters : Char × Char × Char × Char × Char}
    (hletters : [letters.1, letters.2.1, letters.2.2.1, letters.2.2.2.1,
      letters.2.2.2.2].Nodup)
    (husers : ∀ user ∈ s.users.rows, user.id ≠ "") (hnone : s.notifications.rows = []) :
    FreshRun (anEvery now letters) s := by
  obtain ⟨a, b, c, d, e⟩ := letters
  have hfresh : ∀ letter, FreshFrom (idsOf letter) 0 s := fun letter =>
    { unused := fun k _ n hn => by simp [hnone] at hn
      distinct := fun k l heq => (letter_of_idsOf heq).2 }
  simp only [List.nodup_cons, List.mem_cons, List.not_mem_nil, or_false, not_or] at hletters
  refine ⟨husers, hfresh d, hfresh e, fun k l heq => ?_, fun n hn k => ?_⟩
  · exact hletters.2.2.2.1 (letter_of_idsOf heq).1
  · obtain ⟨-, l, i, hid | hid | hid⟩ := hn
    · exact ⟨fun heq => hletters.2.2.1.1 (letter_of_idsOf (hid.symm.trans heq)).1,
        fun heq => hletters.2.2.1.2 (letter_of_idsOf (hid.symm.trans heq)).1⟩
    · exact ⟨fun heq => hletters.1.2.2.1 (letter_of_idsOf (hid.symm.trans heq)).1,
        fun heq => hletters.1.2.2.2 (letter_of_idsOf (hid.symm.trans heq)).1⟩
    · exact ⟨fun heq => hletters.2.1.2.1 (letter_of_idsOf (hid.symm.trans heq)).1,
        fun heq => hletters.2.1.2.2 (letter_of_idsOf (hid.symm.trans heq)).1⟩

/-- Twenty to five in Rosario on the seventeenth of July 2026, a Friday. -/
def beforeFive : AutomationRun where
  env := anEvery (20651 * DAY + 19 * HOUR + 40 * MINUTE) ('a', 'b', 'c', 'd', 'e')
  world := anasWorld (.error (.error "no places"))
  store := anasFriday

/-- Ten past five. -/
def afterFive : AutomationRun where
  env := anEvery (20651 * DAY + 20 * HOUR + 10 * MINUTE) ('f', 'g', 'h', 'i', 'j')
  world := anasWorld (.ok [barNearby])
  store := beforeFive.after

theorem Elsewhere.refl (s : PushDb) : Elsewhere s s := fun _ _ _ => rfl

theorem automates_anasFriday :
    Automates anasFriday [beforeFive, afterFive] afterFive.after := by
  refine .run (.refl _) (freshRun_anEvery (by decide) (by decide) (by decide))
    (.run (.refl _) (freshRun_anEvery (by decide) (by decide) (by decide))
      (.done (.refl _)))

/-- The first run finds no place for Ana; the second does. -/
theorem ana_is_sent_the_second : (afterFive.after.notifications.rows.filter
      (isUnder "ana" (contextualKey .weekendNight "ana" "2026-07-17"))).map .of =
    ((sentUnder anasFriday "ana" (contextualKey .weekendNight "ana" "2026-07-17")).or
      ([beforeFive, afterFive].findSome? fun run =>
        run.sends "ana" (contextualKey .weekendNight "ana" "2026-07-17"))).toList :=
  personal_notification_is_first_due automates_anasFriday ⟨_, .inr ⟨_, rfl⟩⟩

end Feca.Reminders
