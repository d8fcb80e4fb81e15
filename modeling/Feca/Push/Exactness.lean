import Feca.Push.Deduplication

/-! # What publishing adds

Run alone, `publish` adds one notification for each user it is due to, one
pending delivery for each of their active installations if they take pushes,
and nothing else. The actor of a notification must exist: without one nothing is
added and the call fails.
-/

namespace Feca.Push

open Concurrency Concurrency.Prog Relational

/-! ## The purpose of publish -/

/-- Whom a call is to notify. -/
structure Due (input : PublishNotificationInput) (s : PushDb) (userId : Id) : Prop where
  named : userId ∈ input.recipientIds
  nonempty : userId ≠ ""
  notActor : input.actorId ≠ some userId
  stored : s.hasUser userId = true
  unnotified : ∀ key, input.dedupeKey = some key →
    ∀ n ∈ s.notifications.rows, n.userId = userId → n.dedupeKey ≠ some key

/-- The user's setting allows pushes, or there is none. -/
def TakesPushes (s : PushDb) (userId : Id) : Prop :=
  ∀ settings ∈ s.settings.rows, settings.userId = userId → settings.pushEnabled = true

/-- An installation of the user that is neither disabled nor revoked. -/
structure ActiveInstallation (s : PushDb) (userId : Id) (i : PushInstallation) : Prop where
  stored : i ∈ s.installations.rows
  owned : i.userId = userId
  enabled : i.disabledAt = none
  unrevoked : i.revokedAt = none

/-- The notifications `ns` and the deliveries `ds` are new, and nothing else is. -/
structure Grows (s t : PushDb) (ns : List Notification) (ds : List PushDelivery) : Prop where
  users : t.users = s.users
  settings : t.settings = s.settings
  installations : t.installations = s.installations
  notifications : t.notifications.rows = s.notifications.rows ++ ns
  deliveries : t.deliveries.rows = s.deliveries.rows ++ ds

/-- What the call has added is what it was to add. -/
structure PublishAdds (input : PublishNotificationInput) (env : PublishEnv) (s t : PushDb)
    (ns : List Notification) (ds : List PushDelivery) : Prop extends Grows s t ns ds where
  content : ∀ n ∈ ns, ∃ index, n = notificationOf input env index n.userId
  once : (ns.map (·.userId)).Nodup
  due : ∀ userId, userId ∈ ns.map (·.userId) ↔ Due input s userId
  pending : ∀ d ∈ ds, d.status = .pending ∧ d.scheduledFor = input.scheduledFor.getD env.now ∧
    d.attemptCount = 0
  onceEach : (ds.map fun d => (d.notificationId, d.installationId)).Nodup
  addressed : ∀ notificationId installationId,
    (notificationId, installationId) ∈ ds.map (fun d => (d.notificationId, d.installationId)) ↔
      ∃ n ∈ ns, n.id = notificationId ∧ TakesPushes s n.userId ∧
        ∃ i, ActiveInstallation s n.userId i ∧ i.id = installationId

/-- The call has ended well, and counts what it has added. -/
def PublishedExactly (input : PublishNotificationInput) (env : PublishEnv) (s : PushDb)
    (answer : Answer PushDb PushEvent Thrown PublishResult) : Prop :=
  ∃ ns ds, PublishAdds input env s answer.store ns ds ∧ answer.result = .ok ⟨ns.length, ds.length⟩

/-- The notification has no actor, or the actor exists. -/
def KnownActor (input : PublishNotificationInput) (s : PushDb) : Prop :=
  ∀ a ∈ input.actorId, s.hasUser a = true

/-- The ids the database generates are new, and all are different. -/
structure PublishEnv.New (env : PublishEnv) (s : PushDb) : Prop where
  notifications : ∀ k, ∀ n ∈ s.notifications.rows, n.id ≠ env.notificationId k
  notificationId : ∀ k l, env.notificationId k = env.notificationId l → k = l
  deliveries : ∀ k j, ∀ d ∈ s.deliveries.rows, d.id ≠ env.deliveryId k j
  deliveryId : ∀ k j l m, env.deliveryId k j = env.deliveryId l m → k = l ∧ j = m

theorem Grows.refl (s : PushDb) : Grows s s [] [] where
  users := rfl
  settings := rfl
  installations := rfl
  notifications := (List.append_nil _).symm
  deliveries := (List.append_nil _).symm

theorem Grows.trans {s t u : PushDb} {ns ms : List Notification} {ds es : List PushDelivery}
    (hst : Grows s t ns ds) (htu : Grows t u ms es) : Grows s u (ns ++ ms) (ds ++ es) where
  users := htu.users.trans hst.users
  settings := htu.settings.trans hst.settings
  installations := htu.installations.trans hst.installations
  notifications := by rw [htu.notifications, hst.notifications, List.append_assoc]
  deliveries := by rw [htu.deliveries, hst.deliveries, List.append_assoc]

/-! ## What the loop adds -/

section loop

variable {input : PublishNotificationInput} {env : PublishEnv} {s t : PushDb}

/-- The installations the notification of a user is pushed to. -/
def PushDb.pushTargets (s : PushDb) (userId : Id) : List PushInstallation :=
  if ((s.settings.rows.find? (·.userId == userId)).map (·.pushEnabled)).getD true then
    s.activeInstallations userId
  else []

/-- The users among the candidates, each with the index of its turn. -/
def PushDb.served (s : PushDb) (index : Nat) (ids : List Id) : List (Id × Nat) :=
  (ids.zipIdx index).filter fun turn => s.hasUser turn.1

def addedNotification (input : PublishNotificationInput) (env : PublishEnv) (turn : Id × Nat) :
    Notification := notificationOf input env turn.2 turn.1

def addedDeliveries (input : PublishNotificationInput) (env : PublishEnv) (s : PushDb)
    (turn : Id × Nat) : List PushDelivery := deliveriesOf input env turn.2 (s.pushTargets turn.1)

theorem served_cons (index : Nat) (id : Id) (rest : List Id) : s.served index (id :: rest) =
    if s.hasUser id then (id, index) :: s.served (index + 1) rest
    else s.served (index + 1) rest := by
  unfold PushDb.served
  rw [List.zipIdx_cons, List.filter_cons]

theorem mem_pushTargets {userId : Id} {i : PushInstallation} :
    i ∈ s.pushTargets userId ↔ TakesPushes s userId ∧ ActiveInstallation s userId i := by
  have hactive : i ∈ s.activeInstallations userId ↔ ActiveInstallation s userId i := by
    unfold PushDb.activeInstallations
    rw [List.mem_insertionSort, List.mem_filter]
    simp only [Bool.and_eq_true, beq_iff_eq]
    constructor
    · intro h
      exact ⟨h.1, h.2.1.1, h.2.1.2, h.2.2⟩
    · intro h
      exact ⟨h.stored, ⟨h.owned, h.enabled⟩, h.unrevoked⟩
  have htakes : TakesPushes s userId ↔
      ((s.settings.rows.find? (·.userId == userId)).map (·.pushEnabled)).getD true = true := by
    cases hfind : s.settings.rows.find? (·.userId == userId) with
    | none =>
        rw [List.find?_eq_none] at hfind
        have hnone : TakesPushes s userId := by
          intro settings hmem huser
          exact absurd (by simpa using huser) (hfind settings hmem)
        simpa using hnone
    | some settings =>
        have hmem := List.mem_of_find?_eq_some hfind
        have huser : settings.userId = userId := by simpa using List.find?_some hfind
        rw [Option.map_some, Option.getD_some]
        constructor
        · intro h
          exact h settings hmem huser
        · intro henabled other hother hsame
          have heq : other = settings :=
            Table.eq_of_conflicts hother hmem (by simp [conflicts, hsame, huser])
          rw [heq]
          exact henabled
  unfold PushDb.pushTargets
  rw [← hactive, htakes]
  split
  · simp [*]
  · simp [*]

theorem nodup_pushTargets (userId : Id) : ((s.pushTargets userId).map (·.id)).Nodup := by
  have hids : (s.installations.rows.map (·.id)).Nodup := by
    rw [List.Nodup, List.pairwise_map]
    apply s.installations.distinct.imp
    intro i j hij heq
    simp [conflicts, heq] at hij
  unfold PushDb.pushTargets
  split
  · have hsort : ((s.activeInstallations userId).map (·.id)).Perm
        ((s.installations.rows.filter fun i =>
          i.userId == userId && i.disabledAt == none && i.revokedAt == none).map (·.id)) :=
      (List.perm_insertionSort _ _).map _
    rw [hsort.nodup_iff]
    exact hids.sublist (List.filter_sublist.map _)
  · exact List.nodup_nil

/-- What the transaction has read of a recipient. -/
def PushDb.recipientOf (s : PushDb) (userId : Id) : Recipient where
  id := userId
  pushInstallations := s.activeInstallations userId
  pushEnabled := (s.settings.rows.find? (·.userId == userId)).map (·.pushEnabled)

theorem find_recipient {ids : List Id} {id : Id} (hid : id ∈ ids) :
    (s.recipients ids).find? (·.id == id) =
      if s.hasUser id then some (s.recipientOf id) else none := by
  have hrecipients : s.recipients ids =
      (s.users.rows.filter fun u => ids.contains u.id).map fun u => s.recipientOf u.id := rfl
  have hfind : (s.recipients ids).find? (·.id == id) =
      ((s.users.rows.filter fun u => ids.contains u.id).find? (·.id == id)).map
        fun u => s.recipientOf u.id := by
    rw [hrecipients, List.find?_map]
    rfl
  rw [hfind]
  split
  · rename_i huser
    obtain ⟨u, hu, hsame⟩ := List.any_eq_true.mp huser
    have hfound : ((s.users.rows.filter fun u => ids.contains u.id).find? (·.id == id)).isSome := by
      rw [List.find?_isSome]
      refine ⟨u, List.mem_filter.mpr ⟨hu, ?_⟩, hsame⟩
      rw [beq_iff_eq] at hsame
      rw [hsame]
      exact List.contains_iff_mem.mpr hid
    obtain ⟨v, hv⟩ := Option.isSome_iff_exists.mp hfound
    have hvid : v.id = id := by simpa using List.find?_some hv
    rw [hv, Option.map_some, hvid]
  · rename_i huser
    rw [Option.map_eq_none_iff, List.find?_eq_none]
    intro u hu hsame
    exact huser (List.any_eq_true.mpr ⟨u, (List.mem_filter.mp hu).1, hsame⟩)

/-- What the loop needs of the store before the turn `index`: the people and
phones it has read, unused ids, and no notification in the way of a candidate. -/
structure Room (input : PublishNotificationInput) (env : PublishEnv) (s t : PushDb) (index : Nat)
    (ids : List Id) : Prop where
  users : t.users = s.users
  settings : t.settings = s.settings
  installations : t.installations = s.installations
  notificationId : ∀ k, index ≤ k → ∀ n ∈ t.notifications.rows, n.id ≠ env.notificationId k
  deliveryId : ∀ k j, index ≤ k → ∀ d ∈ t.deliveries.rows, d.id ≠ env.deliveryId k j
  keyFree : ∀ key, input.dedupeKey = some key → ∀ id ∈ ids, ∀ n ∈ t.notifications.rows,
    n.userId = id → n.dedupeKey ≠ some key

theorem Room.hasUser {index : Nat} {ids : List Id} (h : Room input env s t index ids) (id : Id) :
    t.hasUser id = s.hasUser id := by
  unfold PushDb.hasUser
  rw [h.users]

theorem Room.skip {index : Nat} {id : Id} {rest : List Id}
    (h : Room input env s t index (id :: rest)) : Room input env s t (index + 1) rest where
  users := h.users
  settings := h.settings
  installations := h.installations
  notificationId k hk := h.notificationId k (by omega)
  deliveryId k j hk := h.deliveryId k j (by omega)
  keyFree key hkey other hother := h.keyFree key hkey other (List.mem_cons_of_mem _ hother)

/-- After a turn, there is room for the next one. -/
theorem Room.next {index : Nat} {id : Id} {rest : List Id} {u : PushDb}
    (h : Room input env s t index (id :: rest)) (hnew : env.New s) (hrest : id ∉ rest)
    (hgrows : Grows t u [addedNotification input env (id, index)]
      (addedDeliveries input env s (id, index))) : Room input env s u (index + 1) rest where
  users := hgrows.users.trans h.users
  settings := hgrows.settings.trans h.settings
  installations := hgrows.installations.trans h.installations
  notificationId := by
    intro k hk n hn heq
    rw [hgrows.notifications, List.mem_append, List.mem_singleton] at hn
    cases hn with
    | inl hold => exact h.notificationId k (by omega) n hold heq
    | inr hadded =>
        rw [hadded] at heq
        have hsame := hnew.notificationId index k heq
        omega
  deliveryId := by
    intro k j hk d hd heq
    rw [hgrows.deliveries, List.mem_append] at hd
    cases hd with
    | inl hold => exact h.deliveryId k j (by omega) d hold heq
    | inr hadded =>
        obtain ⟨turn, -, rfl⟩ := List.mem_map.mp hadded
        have hsame := (hnew.deliveryId index turn.2 k j heq).1
        omega
  keyFree := by
    intro key hkey other hother n hn hsame
    rw [hgrows.notifications, List.mem_append, List.mem_singleton] at hn
    cases hn with
    | inl hold => exact h.keyFree key hkey other (List.mem_cons_of_mem _ hother) n hold hsame
    | inr hadded =>
        have hid : id = other := by
          rw [hadded] at hsame
          exact hsame
        rw [hid] at hrest
        exact absurd hother hrest

section turn

variable {index : Nat} {id : Id} {rest : List Id} (hnew : env.New s)
  (hactor : KnownActor input s)
  (h : Room input env s t index (id :: rest)) (huser : s.hasUser id = true)

include hactor h huser in
theorem insertNotification_turn : ∃ u,
    t.insertNotification (addedNotification input env (id, index)) = .ok u ∧ u.users = t.users ∧
      u.settings = t.settings ∧ u.installations = t.installations ∧ u.deliveries = t.deliveries ∧
      u.notifications.rows = t.notifications.rows ++ [addedNotification input env (id, index)] := by
  have hactor' : ∀ a ∈ (addedNotification input env (id, index)).actorId, t.hasUser a = true := by
    intro a ha
    rw [h.hasUser]
    exact hactor a ha
  rcases PushDb.insertNotification_known (n := addedNotification input env (id, index))
    ((h.hasUser id).trans huser) hactor' with ⟨u, hu⟩ | ⟨-, n, hn, hclash⟩
  · obtain ⟨hinstallations, hdeliveries, hrows⟩ := PushDb.insertNotification_ok hu
    exact ⟨u, hu, (PushDb.insertNotification_free hu).1, PushDb.insertNotification_settings hu,
      hinstallations, hdeliveries, hrows⟩
  · exfalso
    have hcols : (n.id == env.notificationId index || (n.userId == id &&
        n.dedupeKey == input.dedupeKey && n.dedupeKey.isSome && input.dedupeKey.isSome)) = true :=
      hclash
    rw [Bool.or_eq_true] at hcols
    cases hcols with
    | inl hid => exact h.notificationId index (le_refl _) n hn (by simpa using hid)
    | inr hkey =>
        simp only [Bool.and_eq_true, beq_iff_eq] at hkey
        obtain ⟨key, hsome⟩ := Option.isSome_iff_exists.mp hkey.2
        exact h.keyFree key hsome id List.mem_cons_self n hn hkey.1.1.1 (hkey.1.1.2.trans hsome)

include hnew in
/-- The deliveries of a turn clash neither with each other nor with what is stored. -/
theorem addedDeliveries_fresh {u : PushDb}
    (hid : ∀ j, ∀ d ∈ u.deliveries.rows, d.id ≠ env.deliveryId index j)
    (hnotification : ∀ d ∈ u.deliveries.rows, d.notificationId ≠ env.notificationId index) :
    (u.deliveries.rows ++ addedDeliveries input env s (id, index)).Pairwise
      fun a b => conflicts a b = false := by
  rw [List.pairwise_append]
  refine ⟨u.deliveries.distinct, ?_, ?_⟩
  · have hids := List.pairwise_map.mp (nodup_pushTargets (s := s) id)
    apply pairwise_numbered hids
    intro i j k l hij hkl
    have hdelivery : env.deliveryId index k ≠ env.deliveryId index l := by
      intro heq
      exact hkl (hnew.deliveryId index k index l heq).2
    simp [conflicts, hij, hdelivery]
  · intro d hd e he
    obtain ⟨turn, -, rfl⟩ := List.mem_map.mp he
    simp [conflicts, hid turn.2 d hd, hnotification d hd]

include hnew h in
theorem insertDeliveries_turn {u : PushDb}
    (hgrows : Grows t u [addedNotification input env (id, index)] []) : ∃ v,
    u.insertDeliveries (addedDeliveries input env s (id, index)) = .ok v ∧
      Grows u v [] (addedDeliveries input env s (id, index)) := by
  have hstored : addedNotification input env (id, index) ∈ u.notifications.rows := by
    rw [hgrows.notifications]
    exact List.mem_append_right _ List.mem_cons_self
  have howned : ∀ d ∈ addedDeliveries input env s (id, index), u.Owned d := by
    intro d hd
    obtain ⟨turn, hturn, rfl⟩ := List.mem_map.mp hd
    have hactive := (mem_pushTargets.mp (List.fst_mem_of_mem_zipIdx hturn)).2
    refine ⟨turn.1, ?_, _, hstored, rfl, rfl, hactive.owned⟩
    rw [hgrows.installations, h.installations]
    exact hactive.stored
  have hrows : u.deliveries.rows = t.deliveries.rows := by
    rw [hgrows.deliveries, List.append_nil]
  obtain ⟨v, hv⟩ := PushDb.insertDeliveries_of_owned howned
  obtain ⟨hinstallations, hnotifications, -⟩ := PushDb.insertDeliveries_ok hv
  refine ⟨v, hv, PushDb.insertDeliveries_users hv, PushDb.insertDeliveries_settings hv,
    hinstallations, by rw [hnotifications, List.append_nil], ?_⟩
  rw [PushDb.insertDeliveries_rows hv]
  apply Table.insertSkipping_of_fresh
  apply addedDeliveries_fresh hnew
  · intro j d hd
    rw [hrows] at hd
    exact h.deliveryId index j (le_refl _) d hd
  · intro d hd heq
    rw [hrows] at hd
    obtain ⟨n, hn, hid⟩ := t.delivery_notification d hd
    exact h.notificationId index (le_refl _) n hn (hid.trans heq)

include hnew hactor h huser in
/-- The turn of a user adds their notification and its deliveries. -/
theorem publishEach_turn {candidates : List Id} (hid : id ∈ candidates) (result : PublishResult) :
    ∃ u, Grows t u [addedNotification input env (id, index)]
        (addedDeliveries input env s (id, index)) ∧
      (publishEach input env (s.recipients candidates) index (id :: rest) result).run t =
        (publishEach input env (s.recipients candidates) (index + 1) rest
          ⟨result.count + 1, result.deliveryCount +
            (addedDeliveries input env s (id, index)).length⟩).run u := by
  obtain ⟨u, hu, husers, hsettings, hinstallations, hdeliveries, hrows⟩ :=
    insertNotification_turn hactor h huser
  have hgrows : Grows t u [addedNotification input env (id, index)] [] :=
    ⟨husers, hsettings, hinstallations, hrows, by rw [hdeliveries, List.append_nil]⟩
  have hwritten : ((writeDb (·.insertNotification (notificationOf input env index id))).attempt :
      PushProg (Except Thrown Unit)).run t = ⟨u, [], .ok (.ok ())⟩ := by
    have hinserted : t.insertNotification (notificationOf input env index id) = .ok u := hu
    rw [run_attempt, writeDb, run_stmt, hinserted]
  rw [publishEach, find_recipient hid, if_pos huser]
  dsimp only
  rw [run_bind_ok (by rw [hwritten]), hwritten]
  dsimp only
  by_cases hpush : ((s.recipientOf id).pushEnabled.getD true &&
      decide ((s.recipientOf id).pushInstallations.length > 0)) = true
  · have htargets : s.pushTargets id = (s.recipientOf id).pushInstallations := by
      rw [Bool.and_eq_true] at hpush
      unfold PushDb.pushTargets
      exact if_pos hpush.1
    have hadded : deliveriesOf input env index (s.recipientOf id).pushInstallations =
        addedDeliveries input env s (id, index) := by
      unfold addedDeliveries
      rw [htargets]
    obtain ⟨v, hv, hdelivers⟩ := insertDeliveries_turn hnew h hgrows
    have hcreated : ((createDeliveries (addedDeliveries input env s (id, index))).attempt :
        PushProg (Except Thrown Nat)).run u =
          ⟨v, [], .ok (.ok (addedDeliveries input env s (id, index)).length)⟩ := by
      have hlength := congrArg List.length hdelivers.deliveries
      rw [List.length_append] at hlength
      have hcount : v.deliveries.rows.length - u.deliveries.rows.length =
          (addedDeliveries input env s (id, index)).length := by omega
      rw [run_attempt, createDeliveries, run_stmt, hv]
      dsimp only
      rw [hcount]
    rw [if_pos hpush, hadded, run_bind_ok (by rw [hcreated]), hcreated]
    exact ⟨v, hgrows.trans hdelivers, rfl⟩
  · have hnone : s.pushTargets id = [] := by
      unfold PushDb.pushTargets
      split
      · rename_i henabled
        have hempty : ¬ (s.activeInstallations id).length > 0 := by
          intro hlength
          exact hpush ((Bool.and_eq_true _ _).mpr ⟨henabled, decide_eq_true hlength⟩)
        exact List.length_eq_zero_iff.mp (by omega)
      · rfl
    have hadded : addedDeliveries input env s (id, index) = [] := by
      unfold addedDeliveries
      rw [hnone]
      rfl
    rw [if_neg hpush, hadded]
    exact ⟨u, hgrows, rfl⟩

end turn

theorem publishEach_run (hnew : env.New s) {candidates : List Id} {index : Nat} {ids : List Id}
    (hactor : ∀ id ∈ ids, s.hasUser id = true → KnownActor input s) (result : PublishResult)
    (h : Room input env s t index ids) (hids : ∀ id ∈ ids, id ∈ candidates) (hnodup : ids.Nodup) :
    ∃ u, Grows t u ((s.served index ids).map (addedNotification input env))
        ((s.served index ids).flatMap (addedDeliveries input env s)) ∧
      (publishEach input env (s.recipients candidates) index ids result).run t =
        ⟨u, [], .ok ⟨result.count + (s.served index ids).length, result.deliveryCount +
          ((s.served index ids).flatMap (addedDeliveries input env s)).length⟩⟩ := by
  induction ids generalizing t index result with
  | nil => exact ⟨t, Grows.refl t, rfl⟩
  | cons id rest ih =>
      have hid := hids id List.mem_cons_self
      have hrest : ∀ other ∈ rest, other ∈ candidates := fun other hother =>
        hids other (List.mem_cons_of_mem _ hother)
      have hactorRest : ∀ other ∈ rest, s.hasUser other = true → KnownActor input s :=
        fun other hother => hactor other (List.mem_cons_of_mem _ hother)
      rw [List.nodup_cons] at hnodup
      rw [served_cons]
      by_cases huser : s.hasUser id = true
      · have hknown := hactor id List.mem_cons_self huser
        obtain ⟨u, hgrows, hrun⟩ := publishEach_turn hnew hknown h huser hid result
        obtain ⟨v, hlater, hlaterRun⟩ :=
          ih hactorRest _ (h.next hnew hnodup.1 hgrows) hrest hnodup.2
        rw [if_pos huser, hrun, hlaterRun, List.map_cons, List.flatMap_cons, List.length_cons,
          List.length_append]
        refine ⟨v, hgrows.trans hlater, ?_⟩
        rw [Nat.add_assoc, Nat.add_comm 1, Nat.add_assoc]
      · obtain ⟨v, hlater, hlaterRun⟩ := ih hactorRest result h.skip hrest hnodup.2
        have hskipped : publishEach input env (s.recipients candidates) index (id :: rest) result =
            publishEach input env (s.recipients candidates) (index + 1) rest result := by
          rw [publishEach, find_recipient hid, if_neg huser]
        rw [if_neg huser, hskipped]
        exact ⟨v, hlater, hlaterRun⟩

/-! ## The whole call -/

/-- A key that is the empty string is stored, but not looked for: nobody who is
named has a notification under it. -/
def EmptyKeyUnused (input : PublishNotificationInput) (s : PushDb) : Prop :=
  input.dedupeKey = some "" →
    ∀ n ∈ s.notifications.rows, n.dedupeKey = some "" → n.userId ∉ input.recipientIds

/-- `candidateRecipientIds`. -/
def candidatesOf (input : PublishNotificationInput) (s : PushDb) : List Id :=
  input.recipients.filter fun id =>
    !(s.notifiedUserIds input.dedupeKey input.recipients).contains id

theorem mem_recipients {id : Id} : id ∈ input.recipients ↔
    id ∈ input.recipientIds ∧ id ≠ "" ∧ input.actorId ≠ some id := by
  unfold PublishNotificationInput.recipients
  rw [mem_distinctIds, List.mem_filter, Bool.and_eq_true, bne_iff_ne, bne_iff_ne]
  have hactor : id ≠ "" → (input.actorId.bind orNull ≠ some id ↔ input.actorId ≠ some id) := by
    intro hid
    cases input.actorId with
    | none => simp
    | some a =>
        by_cases ha : a = ""
        · simp [orNull, ha, Ne.symm hid]
        · simp [orNull, ha]
  constructor
  · intro h
    exact ⟨h.1, h.2.1, (hactor h.2.1).mp h.2.2⟩
  · intro h
    exact ⟨h.1, h.2.1, (hactor h.2.1).mpr h.2.2⟩

theorem notifiedUserIds_spec {id : Id} {ids : List Id} {dedupeKey : Option String} :
    id ∈ s.notifiedUserIds dedupeKey ids ↔ id ∈ ids ∧ ∃ key, dedupeKey = some key ∧ key ≠ "" ∧
      ∃ n ∈ s.notifications.rows, n.userId = id ∧ n.dedupeKey = some key := by
  unfold PushDb.notifiedUserIds
  cases dedupeKey with
  | none => simp
  | some key =>
      by_cases hkey : key = ""
      · simp [orNull, hkey]
      · rw [Option.bind_some, orNull, if_neg hkey]
        simp only [List.mem_map, List.mem_filter, Bool.and_eq_true, beq_iff_eq,
          List.contains_iff_mem]
        constructor
        · intro h
          obtain ⟨n, hn, hid⟩ := h
          rw [hid] at hn
          exact ⟨hn.2.2, key, rfl, hkey, n, hn.1, hid, hn.2.1⟩
        · intro h
          obtain ⟨hid, other, hother, -, n, hn, huser, hdedupe⟩ := h
          cases hother
          refine ⟨n, ⟨hn, hdedupe, ?_⟩, huser⟩
          rw [huser]
          exact hid

theorem mem_candidatesOf {id : Id} : id ∈ candidatesOf input s ↔
    id ∈ input.recipients ∧ id ∉ s.notifiedUserIds input.dedupeKey input.recipients := by
  unfold candidatesOf
  rw [List.mem_filter, Bool.not_eq_true', ← Bool.not_eq_true, List.contains_iff_mem]

theorem candidate_unnotified (hempty : EmptyKeyUnused input s) {id : Id}
    (hid : id ∈ candidatesOf input s) (key : String) (hkey : input.dedupeKey = some key) :
    ∀ n ∈ s.notifications.rows, n.userId = id → n.dedupeKey ≠ some key := by
  intro n hn huser hdedupe
  rw [mem_candidatesOf, notifiedUserIds_spec] at hid
  by_cases hblank : key = ""
  · rw [hblank] at hkey hdedupe
    apply hempty hkey n hn hdedupe
    rw [huser]
    exact (mem_recipients.mp hid.1).1
  · exact hid.2 ⟨hid.1, key, hkey, hblank, n, hn, huser, hdedupe⟩

/-- The candidates who exist are those the call is due to. -/
theorem due_iff (hempty : EmptyKeyUnused input s) {id : Id} :
    Due input s id ↔ id ∈ candidatesOf input s ∧ s.hasUser id = true := by
  constructor
  · intro h
    rw [mem_candidatesOf, notifiedUserIds_spec, mem_recipients]
    refine ⟨⟨⟨h.named, h.nonempty, h.notActor⟩, fun hnotified => ?_⟩, h.stored⟩
    obtain ⟨-, key, hkey, -, n, hn, huser, hdedupe⟩ := hnotified
    exact h.unnotified key hkey n hn huser hdedupe
  · intro h
    have hrecipient := mem_recipients.mp (mem_candidatesOf.mp h.1).1
    exact ⟨hrecipient.1, hrecipient.2.1, hrecipient.2.2, h.2, candidate_unnotified hempty h.1⟩

theorem nodup_candidatesOf : (candidatesOf input s).Nodup := by
  unfold candidatesOf PublishNotificationInput.recipients
  exact (nodup_distinctIds _).filter _

theorem mem_served {ids : List Id} {id : Id} :
    id ∈ (s.served 0 ids).map (·.1) ↔ id ∈ ids ∧ s.hasUser id = true := by
  unfold PushDb.served
  have hfst : ((ids.zipIdx 0).filter fun turn => s.hasUser turn.1).map (·.1) =
      ids.filter s.hasUser := by
    have hfilter := List.filter_map (f := Prod.fst) (p := s.hasUser) (l := ids.zipIdx 0)
    rw [List.zipIdx_map_fst] at hfilter
    exact hfilter.symm
  rw [hfst, List.mem_filter]

/-- What the turns of the candidates add is what the call was to add. -/
theorem adds_of_grows (hempty : EmptyKeyUnused input s)
    (h : Grows s t ((s.served 0 (candidatesOf input s)).map (addedNotification input env))
      ((s.served 0 (candidatesOf input s)).flatMap (addedDeliveries input env s))) :
    PublishAdds input env s t
      ((s.served 0 (candidatesOf input s)).map (addedNotification input env))
      ((s.served 0 (candidatesOf input s)).flatMap (addedDeliveries input env s)) where
  toGrows := h
  content := by
    intro n hn
    obtain ⟨turn, -, rfl⟩ := List.mem_map.mp hn
    exact ⟨turn.2, rfl⟩
  once := by
    have hids : ((s.served 0 (candidatesOf input s)).map (addedNotification input env)).map
        (·.userId) = (s.served 0 (candidatesOf input s)).map (·.1) := List.map_map
    have hsub : ((s.served 0 (candidatesOf input s)).map (·.1)).Sublist (candidatesOf input s) := by
      have hfilter := (List.filter_sublist (p := fun turn : Id × Nat => s.hasUser turn.1)
        (l := (candidatesOf input s).zipIdx 0)).map Prod.fst
      rw [List.zipIdx_map_fst] at hfilter
      exact hfilter
    rw [hids]
    exact nodup_candidatesOf.sublist hsub
  due := by
    intro id
    have hids : ((s.served 0 (candidatesOf input s)).map (addedNotification input env)).map
        (·.userId) = (s.served 0 (candidatesOf input s)).map (·.1) := List.map_map
    rw [hids, mem_served, due_iff hempty]
  pending := by
    intro d hd
    obtain ⟨turn, -, hd⟩ := List.mem_flatMap.mp hd
    obtain ⟨target, -, rfl⟩ := List.mem_map.mp hd
    exact ⟨rfl, rfl, rfl⟩
  onceEach := by
    have hdistinct := t.deliveries.distinct
    rw [h.deliveries, List.pairwise_append] at hdistinct
    rw [List.Nodup, List.pairwise_map]
    apply hdistinct.2.1.imp
    intro d e hde heq
    rw [Prod.mk.injEq] at heq
    simp [conflicts, heq.1, heq.2] at hde
  addressed := by
    intro notificationId installationId
    rw [List.mem_map]
    constructor
    · intro hmem
      obtain ⟨d, hd, hids⟩ := hmem
      obtain ⟨turn, hturn, hd⟩ := List.mem_flatMap.mp hd
      obtain ⟨target, htarget, rfl⟩ := List.mem_map.mp hd
      rw [Prod.mk.injEq] at hids
      have hpush := mem_pushTargets.mp (List.fst_mem_of_mem_zipIdx htarget)
      exact ⟨_, List.mem_map.mpr ⟨turn, hturn, rfl⟩, hids.1, hpush.1, target.1, hpush.2, hids.2⟩
    · intro hmem
      obtain ⟨n, hn, hid, htakes, i, hactive, hinstallation⟩ := hmem
      obtain ⟨turn, hturn, rfl⟩ := List.mem_map.mp hn
      have htarget : i ∈ s.pushTargets turn.1 := mem_pushTargets.mpr ⟨htakes, hactive⟩
      rw [← List.zipIdx_map_fst 0 (s.pushTargets turn.1)] at htarget
      obtain ⟨target, hzip, rfl⟩ := List.mem_map.mp htarget
      refine ⟨_, List.mem_flatMap.mpr ⟨turn, hturn, List.mem_map.mpr ⟨target, hzip, rfl⟩⟩, ?_⟩
      rw [Prod.mk.injEq]
      exact ⟨hid, hinstallation⟩

/-- At its start, there is room for the loop. -/
theorem room_start (hnew : env.New s) (hempty : EmptyKeyUnused input s) :
    Room input env s s 0 (candidatesOf input s) where
  users := rfl
  settings := rfl
  installations := rfl
  notificationId k _ := hnew.notifications k
  deliveryId k j _ := hnew.deliveries k j
  keyFree key hkey _ hid := candidate_unnotified hempty hid key hkey

/-- The body, when its loop has candidates. -/
theorem publishTransaction_run (hcandidates : (candidatesOf input s).length ≠ 0) :
    (publishTransaction input env).run s =
      (publishEach input env (s.recipients (candidatesOf input s)) 0 (candidatesOf input s)
        ⟨0, 0⟩).run s := by
  have hcandidates' : (input.recipients.filter fun id =>
      !(s.notifiedUserIds input.dedupeKey input.recipients).contains id).length ≠ 0 := hcandidates
  unfold publishTransaction
  dsimp only
  rw [run_bind_ok (by rw [run_query]), run_query]
  dsimp only
  rw [if_neg hcandidates', run_bind_ok (by rw [run_query]), run_query]
  rfl

theorem publishTransaction_nobody (hcandidates : (candidatesOf input s).length = 0) :
    (publishTransaction input env).run s = ⟨s, [], .ok ⟨0, 0⟩⟩ := by
  have hcandidates' : (input.recipients.filter fun id =>
      !(s.notifiedUserIds input.dedupeKey input.recipients).contains id).length = 0 := hcandidates
  unfold publishTransaction
  dsimp only
  rw [run_bind_ok (by rw [run_query]), run_query]
  dsimp only
  rw [if_pos hcandidates']
  rfl

theorem candidatesOf_nobody (hnobody : input.recipients.length = 0) :
    candidatesOf input s = [] := by
  unfold candidatesOf
  rw [List.length_eq_zero_iff.mp hnobody]
  rfl

/-- Without a candidate, nothing is added. -/
theorem publish_nobody (hcandidates : (candidatesOf input s).length = 0) :
    (publish input env).run s = ⟨s, [], .ok ⟨0, 0⟩⟩ := by
  unfold publish
  split
  · rfl
  · unfold transaction
    rw [run_stmt, publishTransaction_nobody hcandidates]

/-- The call is the loop over its candidates, rolled back when it throws. -/
theorem publish_loop (hcandidates : (candidatesOf input s).length ≠ 0) :
    (publish input env).run s = (transaction (publishEach input env
      (s.recipients (candidatesOf input s)) 0 (candidatesOf input s) ⟨0, 0⟩)).run s := by
  unfold publish
  split
  · rename_i hnobody
    rw [candidatesOf_nobody hnobody] at hcandidates
    exact absurd rfl hcandidates
  · unfold transaction
    rw [run_stmt, run_stmt, publishTransaction_run hcandidates]

theorem publishedExactly (hnew : env.New s) (hempty : EmptyKeyUnused input s)
    (hactor : ∀ id, Due input s id → KnownActor input s) :
    PublishedExactly input env s ((publish input env).run s) := by
  by_cases hcandidates : (candidatesOf input s).length = 0
  · have hnone := List.length_eq_zero_iff.mp hcandidates
    have hgrows : Grows s s ((s.served 0 (candidatesOf input s)).map (addedNotification input env))
        ((s.served 0 (candidatesOf input s)).flatMap (addedDeliveries input env s)) := by
      rw [hnone]
      exact Grows.refl s
    have hadds := adds_of_grows hempty hgrows
    rw [hnone] at hadds
    rw [publish_nobody hcandidates]
    exact ⟨[], [], hadds, rfl⟩
  · have hknown : ∀ id ∈ candidatesOf input s, s.hasUser id = true → KnownActor input s := by
      intro id hid huser
      exact hactor id ((due_iff hempty).mpr ⟨hid, huser⟩)
    have hids : ∀ id ∈ candidatesOf input s, id ∈ candidatesOf input s := fun id hid => hid
    obtain ⟨t, hgrows, hrun⟩ := publishEach_run hnew hknown ⟨0, 0⟩ (room_start hnew hempty) hids
      nodup_candidatesOf
    rw [publish_loop hcandidates]
    unfold transaction
    rw [run_stmt, hrun]
    refine ⟨_, _, adds_of_grows hempty hgrows, ?_⟩
    simp

/-! ## An actor who does not exist -/

theorem insertNotification_unknown {n : Notification} (h : ¬ ∀ a ∈ n.actorId, s.hasUser a = true) :
    s.insertNotification n = .error foreignKeyViolation := by
  have hunknown : ¬ (s.users.rows.any (·.id == n.userId) &&
      n.actorId.all fun a => s.users.rows.any (·.id == a)) = true := by
    intro hknown
    rw [Bool.and_eq_true, Option.all_eq_true] at hknown
    exact h hknown.2
  unfold PushDb.insertNotification
  rw [if_neg hunknown]

theorem publishEach_unknown (hactor : ¬ KnownActor input s) {candidates : List Id} {index : Nat}
    {ids : List Id} (result : PublishResult) (hids : ∀ id ∈ ids, id ∈ candidates)
    (hsome : ∃ id ∈ ids, s.hasUser id = true) :
    ((publishEach input env (s.recipients candidates) index ids result).run s).result =
      .error foreignKeyViolation := by
  induction ids generalizing index result with
  | nil =>
      obtain ⟨id, hid, -⟩ := hsome
      cases hid
  | cons id rest ih =>
      have hid := hids id List.mem_cons_self
      by_cases huser : s.hasUser id = true
      · have hrefused : s.insertNotification (notificationOf input env index id) =
            .error foreignKeyViolation := insertNotification_unknown hactor
        have hattempt : ((writeDb
            (·.insertNotification (notificationOf input env index id))).attempt :
              PushProg (Except Thrown Unit)).run s = ⟨s, [], .ok (.error foreignKeyViolation)⟩ := by
          rw [run_attempt, writeDb, run_stmt, hrefused]
        have hthrown :
            isNotificationDedupeConflict foreignKeyViolation input.dedupeKey = false := by
          unfold isNotificationDedupeConflict foreignKeyViolation
          cases input.dedupeKey.bind orNull with
          | none => rfl
          | some key => rfl
        rw [publishEach, find_recipient hid, if_pos huser]
        dsimp only
        rw [run_bind_ok (by rw [hattempt]), hattempt]
        dsimp only
        rw [hthrown]
        rfl
      · rw [publishEach, find_recipient hid, if_neg huser]
        apply ih
        · intro other hother
          exact hids other (List.mem_cons_of_mem _ hother)
        · obtain ⟨other, hother, hstored⟩ := hsome
          rw [List.mem_cons] at hother
          cases hother with
          | inl heq =>
              rw [heq] at hstored
              exact absurd hstored huser
          | inr hrest => exact ⟨other, hrest, hstored⟩

theorem publish_unknown (hempty : EmptyKeyUnused input s) (hactor : ¬ KnownActor input s)
    (hdue : ∃ id, Due input s id) :
    (publish input env).run s = ⟨s, [], .error foreignKeyViolation⟩ := by
  obtain ⟨id, hid⟩ := hdue
  rw [due_iff hempty] at hid
  have hcandidates : (candidatesOf input s).length ≠ 0 := by
    have hpos := List.length_pos_of_mem hid.1
    omega
  rw [publish_loop hcandidates]
  unfold transaction
  rw [run_stmt, publishEach_unknown hactor ⟨0, 0⟩ (fun other hother => hother) ⟨id, hid⟩]

end loop

/-! ## The law -/

/-- Whenever nobody is to be notified or the actor exists, a call adds what it is
to add and nothing else. Otherwise it fails, and adds nothing. -/
theorem publish_is_exact {input : PublishNotificationInput} {env : PublishEnv} {s : PushDb}
    (hnew : env.New s) (hempty : EmptyKeyUnused input s) :
    (((∃ userId, Due input s userId) → KnownActor input s) →
        PublishedExactly input env s ((publish input env).run s)) ∧
      (¬ KnownActor input s → (∃ userId, Due input s userId) →
        (publish input env).run s = ⟨s, [], .error foreignKeyViolation⟩) := by
  constructor
  · intro hactor
    apply publishedExactly hnew hempty
    intro id hid
    exact hactor ⟨id, hid⟩
  · intro hactor hdue
    exact publish_unknown hempty hactor hdue

/-- A store with phones: Beto has an old one too, and Caro takes no pushes. -/
def threePhones : PushDb where
  users := threePeople.users
  settings := ⟨[{ id := "s1", userId := "caro", pushEnabled := false }], by decide⟩
  notifications := .empty
  installations := ⟨[
    { id := "p1", userId := "beto", installationId := "i1", token := "t1", platform := .ios,
      timezone := "UTC", lastSeenAt := 2, createdAt := 2 },
    { id := "p2", userId := "beto", installationId := "i2", token := "t2", platform := .ios,
      timezone := "UTC", lastSeenAt := 1, revokedAt := some 1, createdAt := 1 },
    { id := "p3", userId := "caro", installationId := "i3", token := "t3", platform := .android,
      timezone := "UTC", lastSeenAt := 1, createdAt := 1 }], by decide⟩
  deliveries := .empty
  delivery_notification := PushDb.no_notification
  delivery_installation := by simp

/-- Ids that count. -/
def countingIds : PublishEnv where
  now := 5
  notificationId k := String.ofList (List.replicate k 'n')
  deliveryId k j := String.ofList (List.replicate k 'n' ++ 'd' :: List.replicate j 'n')

theorem countingIds_deliveryId (k j l m : Nat)
    (h : List.replicate k 'n' ++ 'd' :: List.replicate j 'n' =
      List.replicate l 'n' ++ 'd' :: List.replicate m 'n') : k = l ∧ j = m := by
  induction k generalizing l with
  | zero =>
      cases l with
      | zero => simpa using h
      | succ l => simp [List.replicate_succ] at h
  | succ k ih =>
      cases l with
      | zero => simp [List.replicate_succ] at h
      | succ l =>
          rw [List.replicate_succ, List.replicate_succ, List.cons_append, List.cons_append,
            List.cons.injEq] at h
          have hsame := ih l h.2
          omega

theorem countingIds_new {s : PushDb} (hn : s.notifications.rows = [])
    (hd : s.deliveries.rows = []) : countingIds.New s where
  notifications k n hmem := by
    rw [hn] at hmem
    cases hmem
  notificationId k l h := by
    have hlist := String.ofList_inj.mp h
    simpa using congrArg List.length hlist
  deliveries k j d hmem := by
    rw [hd] at hmem
    cases hmem
  deliveryId k j l m h := countingIds_deliveryId k j l m (String.ofList_inj.mp h)

/-- An invitation by Ana: to Beto twice, to Caro, to herself and to nobody. -/
def invitation (actor : Id) : PublishNotificationInput where
  actorId := some actor
  recipientIds := ["beto", "ana", "nobody", "caro", "", "beto"]
  type := .groupInvite

theorem invitation_is_published_exactly : PublishedExactly (invitation "ana") countingIds
    threePhones ((publish (invitation "ana") countingIds).run threePhones) := by
  have hempty : EmptyKeyUnused (invitation "ana") threePhones := by
    intro hkey
    cases hkey
  have hknown : KnownActor (invitation "ana") threePhones := by
    unfold KnownActor
    decide
  exact (publish_is_exact (countingIds_new rfl rfl) hempty).1 fun _ => hknown

/-- Whoever acts, a call adds what it is to add. -/
def PublishesExactly : Prop :=
  ∀ input env s, PublishEnv.New env s → PublishedExactly input env s ((publish input env).run s)

/-- An invitation by somebody who has left is lost for everybody. -/
theorem unknown_actor_fails_publish : ¬ PublishesExactly := by
  intro h
  obtain ⟨ns, ds, -, hresult⟩ :=
    h (invitation "zoe") countingIds threePhones (countingIds_new rfl rfl)
  have hfails : ((publish (invitation "zoe") countingIds).run threePhones).result =
      .error foreignKeyViolation := by rfl
  rw [hfails] at hresult
  cases hresult

end Feca.Push
