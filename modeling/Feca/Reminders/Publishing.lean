import Feca.Push.Deduplication
import Feca.Reminders.Automation

/-! # A reminder is published once

A reminder has one recipient and a key. Published alone, it adds its
notification unless the recipient has one with the key, and never fails.
-/

namespace Feca.Reminders

open Concurrency Concurrency.Prog Push Relational

variable {s t : PushDb} {input : PublishNotificationInput} {env : PublishEnv} {userId key : String}

def HasKey (s : PushDb) (userId : Id) (key : String) : Prop :=
  ∃ n ∈ s.notifications.rows, n.userId = userId ∧ n.dedupeKey = some key

/-- A notification of nobody, for one user. -/
structure ForOne (input : PublishNotificationInput) (userId : Id) (key : String) : Prop where
  actorId : input.actorId = none
  recipientIds : input.recipientIds = [userId]
  dedupeKey : input.dedupeKey = some key
  userId : userId ≠ ""
  key : key ≠ ""

theorem ForOne.recipients (h : ForOne input userId key) : input.recipients = [userId] := by
  have hnonempty : (userId != "") = true := by simpa using h.userId
  unfold PublishNotificationInput.recipients
  rw [h.recipientIds, h.actorId]
  simp [h.userId, distinctIds]

theorem ForOne.orNull_key (h : ForOne input userId key) :
    input.dedupeKey.bind orNull = some key := by
  rw [h.dedupeKey]
  show orNull key = some key
  unfold orNull
  rw [if_neg h.key]

/-- The notification of the reminder is the only thing that may be new. -/
structure Published (input : PublishNotificationInput) (env : PublishEnv) (userId : Id)
    (key : String) (s t : PushDb) : Prop where
  users : t.users = s.users
  installations : t.installations = s.installations
  notifications : HasKey s userId key ∧ t.notifications = s.notifications ∨
    t.notifications.rows = s.notifications.rows ++ [notificationOf input env 0 userId]

/-- The reminder can be stored: its recipient exists, and its id is new. -/
structure Storable (env : PublishEnv) (userId : Id) (s : PushDb) : Prop where
  user : s.hasUser userId = true
  fresh : ∀ n ∈ s.notifications.rows, n.id ≠ env.notificationId 0

section insertion

variable (h : ForOne input userId key) (hstorable : Storable env userId s)
  (hnew : ¬ HasKey s userId key)

include h hstorable hnew

theorem insertNotification_reminder :
    ∃ t, s.insertNotification (notificationOf input env 0 userId) = .ok t ∧ t.users = s.users ∧
      t.installations = s.installations ∧
      t.notifications.rows = s.notifications.rows ++ [notificationOf input env 0 userId] := by
  have hactor : ∀ a ∈ (notificationOf input env 0 userId).actorId, s.hasUser a = true := by
    intro a ha
    rw [show (notificationOf input env 0 userId).actorId = input.actorId from rfl, h.actorId] at ha
    cases ha
  rcases PushDb.insertNotification_known (n := notificationOf input env 0 userId)
    hstorable.user hactor with ⟨t, ht⟩ | ⟨-, m, hm, hclash⟩
  · obtain ⟨hinstallations, -, hrows⟩ := PushDb.insertNotification_ok ht
    exact ⟨t, ht, (PushDb.insertNotification_free ht).1, hinstallations, hrows⟩
  · exfalso
    have hcols : (m.id == env.notificationId 0 ||
      (m.userId == userId && m.dedupeKey == input.dedupeKey && m.dedupeKey.isSome &&
        input.dedupeKey.isSome)) = true := hclash
    rw [Bool.or_eq_true] at hcols
    rcases hcols with hid | hkey
    · exact hstorable.fresh m hm (by simpa using hid)
    · simp only [Bool.and_eq_true, beq_iff_eq] at hkey
      exact hnew ⟨m, hm, hkey.1.1.1, hkey.1.1.2.trans h.dedupeKey⟩

theorem publishEach_reminder {recipients : List Recipient} {recipient : Recipient}
    (hread : recipient.Read s) (hfind : recipients.find? (·.id == userId) = some recipient) :
    ∃ result, ((publishEach input env recipients 0 [userId] ⟨0, 0⟩).run s).result = .ok result ∧
      Published input env userId key s
        ((publishEach input env recipients 0 [userId] ⟨0, 0⟩).run s).store := by
  have hid : recipient.id = userId := by simpa using List.find?_some hfind
  obtain ⟨t, ht, husers, hinstallations, hrows⟩ := insertNotification_reminder h hstorable hnew
  have hwritten : ((writeDb (·.insertNotification (notificationOf input env 0 userId))).attempt :
      PushProg (Except Thrown Unit)).run s = ⟨t, [], .ok (.ok ())⟩ := by
    rw [run_attempt, writeDb, run_stmt, ht]
  unfold publishEach
  rw [hfind]
  dsimp only
  rw [run_bind_ok (by rw [hwritten]), hwritten]
  dsimp only
  split
  · have hreadLater : recipient.Read t := by
      intro i hi
      rw [hinstallations]
      exact hread i hi
    have hstored : notificationOf input env 0 recipient.id ∈ t.notifications.rows := by
      rw [hrows, hid]
      exact List.mem_append_right _ List.mem_cons_self
    obtain ⟨u, hu⟩ := PushDb.insertDeliveries_of_owned fun d hd =>
      (deliveriesOf_owned hreadLater hstored d hd).2
    obtain ⟨hinstallations', hnotifications, -⟩ := PushDb.insertDeliveries_ok hu
    have hcreated : ((createDeliveries (deliveriesOf input env 0
        recipient.pushInstallations)).attempt : PushProg (Except Thrown Nat)).run t =
          ⟨u, [], .ok (.ok (u.deliveries.rows.length - t.deliveries.rows.length))⟩ := by
      rw [run_attempt, createDeliveries, run_stmt, hu]
    rw [run_bind_ok (by rw [hcreated]), hcreated]
    refine ⟨_, rfl, (PushDb.insertDeliveries_users hu).trans husers,
      hinstallations'.trans hinstallations, .inr ?_⟩
    show u.notifications.rows = _
    rw [hnotifications]
    exact hrows
  · exact ⟨_, rfl, husers, hinstallations, .inr hrows⟩

end insertion

theorem mem_notifiedUserIds (h : ForOne input userId key) :
    userId ∈ s.notifiedUserIds input.dedupeKey [userId] ↔ HasKey s userId key := by
  unfold PushDb.notifiedUserIds
  rw [h.orNull_key]
  dsimp only
  constructor
  · intro hmem
    obtain ⟨n, hn, huser⟩ := List.mem_map.mp hmem
    obtain ⟨hn, hcols⟩ := List.mem_filter.mp hn
    rw [Bool.and_eq_true] at hcols
    exact ⟨n, hn, huser, by simpa using hcols.1⟩
  · rintro ⟨n, hn, huser, hkey⟩
    exact List.mem_map.mpr ⟨n, List.mem_filter.mpr ⟨hn, by simp [huser, hkey]⟩, huser⟩

/-- A recipient who exists is read. -/
theorem find_recipients (huser : s.hasUser userId = true) :
    ∃ recipient ∈ s.recipients [userId],
      (s.recipients [userId]).find? (·.id == userId) = some recipient := by
  obtain ⟨u, hu, hid⟩ := List.any_eq_true.mp huser
  have hsome : ((s.recipients [userId]).find? (·.id == userId)).isSome := by
    rw [List.find?_isSome]
    refine ⟨_, List.mem_map.mpr ⟨u, List.mem_filter.mpr ⟨hu, ?_⟩, rfl⟩, hid⟩
    simpa using hid
  obtain ⟨recipient, hfind⟩ := Option.isSome_iff_exists.mp hsome
  exact ⟨recipient, List.mem_of_find?_eq_some hfind, hfind⟩

theorem publishTransaction_reminder (h : ForOne input userId key)
    (hstorable : Storable env userId s) :
    ∃ result, ((publishTransaction input env).run s).result = .ok result ∧
      Published input env userId key s ((publishTransaction input env).run s).store := by
  have hexisting := mem_notifiedUserIds (s := s) h
  unfold publishTransaction
  dsimp only
  rw [h.recipients, run_bind_ok (by rw [run_query]), run_query]
  dsimp only
  by_cases hhas : HasKey s userId key
  · have hcandidates : [userId].filter (fun id =>
        !(s.notifiedUserIds input.dedupeKey [userId]).contains id) = [] := by
      simpa using hexisting.mpr hhas
    rw [hcandidates]
    exact ⟨_, rfl, rfl, rfl, .inl ⟨hhas, rfl⟩⟩
  · have hcandidates : [userId].filter (fun id =>
        !(s.notifiedUserIds input.dedupeKey [userId]).contains id) = [userId] := by
      simpa using fun hmem => hhas (hexisting.mp hmem)
    obtain ⟨recipient, hmem, hfind⟩ := find_recipients hstorable.user
    rw [hcandidates, if_neg (by simp), run_bind_ok (by rw [run_query]), run_query]
    exact publishEach_reminder h hstorable hhas (recipients_read _ recipient hmem) hfind

/-- Published alone, a reminder that can be stored does not fail. -/
theorem publish_run (h : ForOne input userId key) (hstorable : Storable env userId s) :
    ∃ result, ((publish input env).run s).result = .ok result ∧
      Published input env userId key s ((publish input env).run s).store := by
  obtain ⟨result, hresult, hpublished⟩ := publishTransaction_reminder h hstorable
  unfold publish
  rw [h.recipients, if_neg (by simp)]
  unfold transaction
  rw [run_stmt, hresult]
  exact ⟨result, rfl, hpublished⟩

/-! ## One after the other -/

/-- Every input is a reminder for a user who exists. -/
def Addressed (s : PushDb) (inputs : List PublishNotificationInput) : Prop :=
  ∀ input ∈ inputs, ∃ userId key, ForOne input userId key ∧ s.hasUser userId = true

/-- The ids from the index on are new, and all are different. -/
structure FreshFrom (env : Nat → PublishEnv) (index : Nat) (s : PushDb) : Prop where
  unused : ∀ k, index ≤ k → ∀ n ∈ s.notifications.rows, n.id ≠ (env k).notificationId 0
  distinct : ∀ k l, (env k).notificationId 0 = (env l).notificationId 0 → k = l

structure PublishedAll (env : Nat → PublishEnv) (inputs : List PublishNotificationInput)
    (s t : PushDb) : Prop where
  users : t.users = s.users
  installations : t.installations = s.installations
  kept : ∀ n ∈ s.notifications.rows, n ∈ t.notifications.rows
  reached : ∀ input ∈ inputs, ∀ userId key, ForOne input userId key → HasKey t userId key
  new : ∀ n ∈ t.notifications.rows, n ∈ s.notifications.rows ∨ ∃ input ∈ inputs, ∃ k userId,
    input.recipientIds = [userId] ∧ n = notificationOf input (env k) 0 userId

theorem HasKey.later (h : HasKey s userId key)
    (hkept : ∀ n ∈ s.notifications.rows, n ∈ t.notifications.rows) : HasKey t userId key := by
  obtain ⟨n, hn, hcols⟩ := h
  exact ⟨n, hkept n hn, hcols⟩

theorem Published.kept (h : Published input env userId key s t) :
    ∀ n ∈ s.notifications.rows, n ∈ t.notifications.rows := by
  intro n hn
  rcases h.notifications with ⟨-, hsame⟩ | hrows
  · rwa [hsame]
  · rw [hrows]
    exact List.mem_append_left _ hn

theorem Published.reached (h : Published input env userId key s t)
    (hinput : ForOne input userId key) : HasKey t userId key := by
  rcases h.notifications with ⟨hhas, hsame⟩ | hrows
  · unfold HasKey
    rwa [hsame]
  · refine ⟨notificationOf input env 0 userId, ?_, rfl, hinput.dedupeKey⟩
    rw [hrows]
    exact List.mem_append_right _ List.mem_cons_self

theorem Published.new (h : Published input env userId key s t) :
    ∀ n ∈ t.notifications.rows, n ∈ s.notifications.rows ∨ n = notificationOf input env 0 userId := by
  intro n hn
  rcases h.notifications with ⟨-, hsame⟩ | hrows
  · rw [hsame] at hn
    exact .inl hn
  · rw [hrows, List.mem_append, List.mem_singleton] at hn
    exact hn

theorem FreshFrom.next {env : Nat → PublishEnv} {index : Nat} (h : FreshFrom env index s)
    (hpublished : Published input (env index) userId key s t) : FreshFrom env (index + 1) t where
  unused := by
    intro k hk n hn
    rcases hpublished.new n hn with hold | rfl
    · exact h.unused k (by omega) n hold
    · intro heq
      have hindex := h.distinct index k heq
      omega
  distinct := h.distinct

theorem publishAll_run {env : Nat → PublishEnv} {index : Nat}
    {inputs : List PublishNotificationInput} (h : Addressed s inputs)
    (hfresh : FreshFrom env index s) :
    ∃ published, ((publishAll env index inputs).run s).result = .ok published ∧
      PublishedAll env inputs s ((publishAll env index inputs).run s).store := by
  induction inputs generalizing s index with
  | nil =>
      refine ⟨0, rfl, rfl, rfl, fun _ hn => hn, fun input hinput => ?_, fun _ hn => .inl hn⟩
      cases hinput
  | cons input inputs ih =>
      obtain ⟨userId, key, hinput, huser⟩ := h input List.mem_cons_self
      obtain ⟨result, hresult, hfirst⟩ := publish_run hinput
        ⟨huser, hfresh.unused index (le_refl _)⟩
      have haddressed : Addressed ((publish input (env index)).run s).store inputs := by
        intro x hx
        obtain ⟨userId, key, hx, huser⟩ := h x (List.mem_cons_of_mem _ hx)
        refine ⟨userId, key, hx, ?_⟩
        unfold PushDb.hasUser at huser ⊢
        rwa [hfirst.users]
      obtain ⟨published, hrest, hall⟩ := ih haddressed (hfresh.next hfirst)
      unfold publishAll
      rw [run_bind_ok hresult, run_bind_ok hrest]
      refine ⟨_, rfl, hall.users.trans hfirst.users, hall.installations.trans hfirst.installations,
        fun n hn => hall.kept n (hfirst.kept n hn), fun x hx userId' key' hforOne => ?_,
        fun n hn => ?_⟩
      · rw [List.mem_cons] at hx
        rcases hx with rfl | hx
        · have huser' : userId' = userId := by
            have heq := hforOne.recipientIds.symm.trans hinput.recipientIds
            exact (List.cons.inj heq).1
          have hkey' : key' = key :=
            Option.some.inj (hforOne.dedupeKey.symm.trans hinput.dedupeKey)
          subst huser' hkey'
          exact (hfirst.reached hinput).later hall.kept
        · exact hall.reached x hx userId' key' hforOne
      · rcases hall.new n hn with hfirstNew | ⟨x, hx, k, userId', hnew⟩
        · rcases hfirst.new n hfirstNew with hold | rfl
          · exact .inl hold
          · exact .inr ⟨input, List.mem_cons_self, index, userId, hinput.recipientIds, rfl⟩
        · exact .inr ⟨x, List.mem_cons_of_mem _ hx, k, userId', hnew⟩

end Feca.Reminders
