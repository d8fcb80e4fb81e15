import Feca.Base
import Feca.Concurrency.Program
import Mathlib.Data.List.Sort

/-! # Notifications, installations and deliveries

The tables the push jobs share. A delivery always points at a stored
notification and a stored installation, so its joins cannot fail; nothing in
this subsystem deletes a row. Every write to a delivery is the `data` object of
an update, and every statement reports the rows it changed.
-/

namespace Feca.Push

open Relational

inductive NotificationType
  | follow
  | groupInvite
  | groupJoined
  | groupJoinRequest
  | groupJoinApproved
  | groupJoinRejected
  | groupMessage
  | groupReport
  | groupEventProposed
  | groupEventRsvp
  | visitCreated
  | diaryPublished
  | groupInviteReminder
  | groupEventRsvpReminder
  | groupEventTodayReminder
  | weeklyDigest
  | contextualRecommendation
  deriving DecidableEq, Repr

inductive NotificationEntityType
  | user
  | group
  | groupEvent
  | visit
  | diary
  | place
  deriving DecidableEq, Repr

inductive PushProvider
  | expo
  deriving DecidableEq, Repr

inductive PushPlatform
  | ios
  | android
  deriving DecidableEq, Repr

inductive PushDeliveryStatus
  | pending
  | ticketed
  | delivered
  | failed
  | cancelled
  deriving DecidableEq, Repr

structure Notification where
  id : Id
  userId : Id
  actorId : Option Id := none
  type : NotificationType
  entityType : Option NotificationEntityType := none
  entityId : Option Id := none
  dedupeKey : Option String := none
  payload : Json := .null
  readAt : Option Date := none
  createdAt : Date

structure PushInstallation where
  id : Id
  userId : Id
  provider : PushProvider := .expo
  installationId : Id
  token : String
  platform : PushPlatform
  timezone : String
  lastSeenAt : Date
  disabledAt : Option Date := none
  revokedAt : Option Date := none
  createdAt : Date
  deriving DecidableEq, Repr

structure PushDelivery where
  id : Id
  notificationId : Id
  installationId : Id
  status : PushDeliveryStatus := .pending
  scheduledFor : Date
  attemptCount : Nat := 0
  expoTicketId : Option String := none
  lastError : Option String := none
  sentAt : Option Date := none
  deliveredAt : Option Date := none
  failedAt : Option Date := none
  createdAt : Date
  deriving DecidableEq, Repr

/-- `@id` and `@@unique([userId, dedupeKey])`, where a null key clashes with nothing. -/
instance : UniqueColumns Notification where
  conflicts a b := a.id == b.id ||
    (a.userId == b.userId && a.dedupeKey == b.dedupeKey && a.dedupeKey.isSome && b.dedupeKey.isSome)
  conflicts_self _ := by simp
  conflicts_symm a b := by
    rw [BEq.comm (a := a.id), BEq.comm (a := a.userId), BEq.comm (a := a.dedupeKey),
      Bool.and_right_comm]

/-- `@id` and `@@unique([provider, installationId])`. -/
instance : UniqueColumns PushInstallation where
  conflicts a b := a.id == b.id ||
    (a.provider == b.provider && a.installationId == b.installationId)
  conflicts_self _ := by simp
  conflicts_symm a b := by
    rw [BEq.comm (a := a.id), BEq.comm (a := a.provider), BEq.comm (a := a.installationId)]

/-- `@id` and `@@unique([notificationId, installationId])`. -/
instance : UniqueColumns PushDelivery where
  conflicts a b := a.id == b.id ||
    (a.notificationId == b.notificationId && a.installationId == b.installationId)
  conflicts_self _ := by simp
  conflicts_symm a b := by
    rw [BEq.comm (a := a.id), BEq.comm (a := a.notificationId), BEq.comm (a := a.installationId)]

/-! ## Updates -/

/-- The `data` of a delivery update; `none` leaves a column alone. -/
structure DeliveryData where
  status : PushDeliveryStatus
  attemptCount : Option Nat := none
  expoTicketId : Option (Option String) := none
  lastError : Option (Option String) := none
  sentAt : Option (Option Date) := none
  deliveredAt : Option (Option Date) := none
  failedAt : Option (Option Date) := none

def PushDelivery.set (d : PushDelivery) (data : DeliveryData) : PushDelivery :=
  { d with
    status := data.status
    attemptCount := data.attemptCount.getD d.attemptCount
    expoTicketId := data.expoTicketId.getD d.expoTicketId
    lastError := data.lastError.getD d.lastError
    sentAt := data.sentAt.getD d.sentAt
    deliveredAt := data.deliveredAt.getD d.deliveredAt
    failedAt := data.failedAt.getD d.failedAt }

section set
variable (d : PushDelivery) (data : DeliveryData)

@[simp] theorem PushDelivery.set_id : (d.set data).id = d.id := rfl

@[simp] theorem PushDelivery.set_notificationId :
    (d.set data).notificationId = d.notificationId := rfl

@[simp] theorem PushDelivery.set_installationId :
    (d.set data).installationId = d.installationId := rfl

@[simp] theorem PushDelivery.set_status : (d.set data).status = data.status := rfl

@[simp] theorem PushDelivery.set_attemptCount :
    (d.set data).attemptCount = data.attemptCount.getD d.attemptCount := rfl

end set

/-! ## The store -/

structure PushDb where
  users : Table User
  settings : Table UserSettings
  notifications : Table Notification
  installations : Table PushInstallation
  deliveries : Table PushDelivery
  delivery_notification : ∀ d ∈ deliveries.rows, ∃ n ∈ notifications.rows, n.id = d.notificationId
  delivery_installation : ∀ d ∈ deliveries.rows, ∃ i ∈ installations.rows, i.id = d.installationId

namespace PushDb

theorem no_notification : ∀ d ∈ (.empty : Table PushDelivery).rows,
    ∃ n ∈ (.empty : Table Notification).rows, n.id = d.notificationId := by simp

theorem no_installation : ∀ d ∈ (.empty : Table PushDelivery).rows,
    ∃ i ∈ (.empty : Table PushInstallation).rows, i.id = d.installationId := by simp

def empty : PushDb :=
  ⟨.empty, .empty, .empty, .empty, .empty, no_notification, no_installation⟩

instance : Inhabited PushDb := ⟨empty⟩

theorem delivery_unique (s : PushDb) {d e : PushDelivery} (hd : d ∈ s.deliveries.rows)
    (he : e ∈ s.deliveries.rows) (h : d.id = e.id) : d = e :=
  Table.eq_of_conflicts hd he (by simp [conflicts, h])

theorem nodup_delivery_ids (s : PushDb) : (s.deliveries.rows.map (·.id)).Nodup := by
  rw [List.Nodup, List.pairwise_map]
  refine s.deliveries.distinct.imp fun {d e} hde heq => ?_
  simp [conflicts, heq] at hde

/-- `findMany` with `where`, `orderBy` and `take` returns no row twice. -/
theorem nodup_findMany_ids (s : PushDb) (p : PushDelivery → Bool)
    (r : PushDelivery → PushDelivery → Prop) [DecidableRel r] (limit : Nat) :
    ((((s.deliveries.rows.filter p).insertionSort r).take limit).map (·.id)).Nodup := by
  have hfilter : ((s.deliveries.rows.filter p).map (·.id)).Nodup :=
    s.nodup_delivery_ids.sublist (List.filter_sublist.map _)
  have hsort : (((s.deliveries.rows.filter p).insertionSort r).map (·.id)).Nodup :=
    ((List.perm_insertionSort r _).map _).nodup_iff.mpr hfilter
  exact hsort.sublist ((List.take_sublist _ _).map _)

theorem installation_unique (s : PushDb) {i j : PushInstallation} (hi : i ∈ s.installations.rows)
    (hj : j ∈ s.installations.rows) (h : i.id = j.id) : i = j :=
  Table.eq_of_conflicts hi hj (by simp [conflicts, h])

theorem notification_unique (s : PushDb) {n m : Notification} (hn : n ∈ s.notifications.rows)
    (hm : m ∈ s.notifications.rows) (h : n.id = m.id) : n = m :=
  Table.eq_of_conflicts hn hm (by simp [conflicts, h])

/-- `pushDelivery.updateMany`. -/
def setDeliveries (s : PushDb) (p : PushDelivery → Bool) (data : DeliveryData) : PushDb where
  users := s.users
  settings := s.settings
  notifications := s.notifications
  installations := s.installations
  deliveries := s.deliveries.update p (·.set data)
  delivery_notification := by
    intro d hd
    obtain ⟨x, hx, rfl⟩ := Table.mem_update.mp hd
    have hn := s.delivery_notification x hx
    split
    · exact hn
    · exact hn
  delivery_installation := by
    intro d hd
    obtain ⟨x, hx, rfl⟩ := Table.mem_update.mp hd
    have hi := s.delivery_installation x hx
    split
    · exact hi
    · exact hi

/-- `pushInstallation.updateMany`, and the update half of an upsert. The unique
columns are not written by any caller. -/
def setInstallations (s : PushDb) (p : PushInstallation → Bool)
    (f : PushInstallation → PushInstallation)
    (keeps : ∀ i, (f i).id = i.id ∧ (f i).provider = i.provider ∧
      (f i).installationId = i.installationId := by intros; exact ⟨rfl, rfl, rfl⟩) : PushDb where
  users := s.users
  settings := s.settings
  notifications := s.notifications
  installations := s.installations.update p f fun a b => by simp [conflicts, keeps a]
  deliveries := s.deliveries
  delivery_notification := s.delivery_notification
  delivery_installation := by
    intro d hd
    obtain ⟨x, hx, hid⟩ := s.delivery_installation d hd
    refine ⟨_, Table.mem_update.mpr ⟨x, hx, rfl⟩, ?_⟩
    split
    · rw [(keeps x).1, hid]
    · exact hid

/-- The create half of an upsert. -/
def insertInstallation (s : PushDb) (i : PushInstallation) : Except Thrown PushDb :=
  if s.users.rows.any (·.id == i.userId) then
    match h : s.installations.insert i with
    | none => .error uniqueViolation
    | some installations => .ok
        { s with
          installations
          delivery_installation := by
            intro d hd
            obtain ⟨x, hx, hid⟩ := s.delivery_installation d hd
            rw [(Table.insert_eq_some h).1]
            exact ⟨x, List.mem_append_left _ hx, hid⟩ }
  else .error foreignKeyViolation

/-- `notification.create`. -/
def insertNotification (s : PushDb) (n : Notification) : Except Thrown PushDb :=
  if s.users.rows.any (·.id == n.userId) &&
      n.actorId.all fun a => s.users.rows.any (·.id == a) then
    match h : s.notifications.insert n with
    | none => .error uniqueViolation
    | some notifications => .ok
        { s with
          notifications
          delivery_notification := by
            intro d hd
            obtain ⟨x, hx, hid⟩ := s.delivery_notification d hd
            rw [(Table.insert_eq_some h).1]
            exact ⟨x, List.mem_append_left _ hx, hid⟩ }
  else .error foreignKeyViolation

/-- `pushDelivery.createMany` with `skipDuplicates`. -/
def insertDeliveries (s : PushDb) (ds : List PushDelivery) : Except Thrown PushDb :=
  if h : ∀ d ∈ ds, (∃ n ∈ s.notifications.rows, n.id = d.notificationId) ∧
      ∃ i ∈ s.installations.rows, i.id = d.installationId then .ok
    { s with
      deliveries := s.deliveries.insertSkipping ds
      delivery_notification := by
        obtain ⟨new, hrows, hsub⟩ := s.deliveries.insertSkipping_rows ds
        intro d hd
        rw [hrows, List.mem_append] at hd
        exact hd.elim (s.delivery_notification d) fun hd => (h d (hsub.subset hd)).1
      delivery_installation := by
        obtain ⟨new, hrows, hsub⟩ := s.deliveries.insertSkipping_rows ds
        intro d hd
        rw [hrows, List.mem_append] at hd
        exact hd.elim (s.delivery_installation d) fun hd => (h d (hsub.subset hd)).2 }
  else .error foreignKeyViolation

theorem insertInstallation_ok {s t : PushDb} {i : PushInstallation}
    (h : s.insertInstallation i = .ok t) : t.notifications = s.notifications ∧
      t.deliveries = s.deliveries ∧ t.installations.rows = s.installations.rows ++ [i] := by
  unfold insertInstallation at h
  split at h
  · split at h
    · cases h
    · rename_i installations hinsert
      cases h
      exact ⟨rfl, rfl, (Table.insert_eq_some hinsert).1⟩
  · cases h

theorem insertNotification_ok {s t : PushDb} {n : Notification}
    (h : s.insertNotification n = .ok t) : t.installations = s.installations ∧
      t.deliveries = s.deliveries ∧ t.notifications.rows = s.notifications.rows ++ [n] := by
  unfold insertNotification at h
  split at h
  · split at h
    · cases h
    · rename_i notifications hinsert
      cases h
      exact ⟨rfl, rfl, (Table.insert_eq_some hinsert).1⟩
  · cases h

/-- What the skipping insertion adds is part of what was offered, under ids
that were free. -/
theorem insertDeliveries_ok {s t : PushDb} {ds : List PushDelivery}
    (h : s.insertDeliveries ds = .ok t) : t.installations = s.installations ∧
      t.notifications = s.notifications ∧ ∃ new : List PushDelivery, new.Sublist ds ∧
        t.deliveries.rows = s.deliveries.rows ++ new ∧
        ∀ d ∈ new, ∀ e ∈ s.deliveries.rows, e.id ≠ d.id := by
  unfold insertDeliveries at h
  split at h
  · cases h
    obtain ⟨new, hrows, hsub⟩ := s.deliveries.insertSkipping_rows ds
    refine ⟨rfl, rfl, new, hsub, hrows, fun d hd e he heq => ?_⟩
    have hpair := (s.deliveries.insertSkipping ds).distinct
    rw [hrows, List.pairwise_append] at hpair
    have hfree := hpair.2.2 e he d hd
    simp [conflicts, heq] at hfree
  · cases h

@[simp] theorem setDeliveries_rows (s : PushDb) (p data) :
    (s.setDeliveries p data).deliveries.rows =
      s.deliveries.rows.map fun d => if p d then d.set data else d := rfl

@[simp] theorem setDeliveries_installations (s : PushDb) (p data) :
    (s.setDeliveries p data).installations = s.installations := rfl

@[simp] theorem setDeliveries_notifications (s : PushDb) (p data) :
    (s.setDeliveries p data).notifications = s.notifications := rfl

@[simp] theorem setInstallations_deliveries (s : PushDb) (p f keeps) :
    (s.setInstallations p f keeps).deliveries = s.deliveries := rfl

@[simp] theorem setInstallations_notifications (s : PushDb) (p f keeps) :
    (s.setInstallations p f keeps).notifications = s.notifications := rfl

@[simp] theorem setInstallations_rows (s : PushDb) (p f keeps) :
    (s.setInstallations p f keeps).installations.rows =
      s.installations.rows.map fun i => if p i then f i else i := rfl

end PushDb

/-! ## What a run reads -/

/-- `include: { actor: … }`. -/
structure NotificationWithRelations extends Notification where
  actor : Option User

/-- `deliveryInclude`: a delivery with its installation and its notification. -/
structure DeliveryRow extends PushDelivery where
  installation : PushInstallation
  notification : NotificationWithRelations

namespace PushDb

def withRelations (s : PushDb) (n : Notification) : NotificationWithRelations :=
  { n with actor := n.actorId.bind fun a => s.users.rows.find? (·.id == a) }

/-- The join; the foreign keys leave no delivery without its partners. -/
def deliveryRow (s : PushDb) (d : PushDelivery) : Option DeliveryRow :=
  (s.installations.rows.find? (·.id == d.installationId)).bind fun i =>
    (s.notifications.rows.find? (·.id == d.notificationId)).map fun n =>
      { d with installation := i, notification := s.withRelations n }

theorem deliveryRow_isSome {s : PushDb} {d : PushDelivery} (hd : d ∈ s.deliveries.rows) :
    (s.deliveryRow d).isSome := by
  obtain ⟨n, hn, hnid⟩ := s.delivery_notification d hd
  obtain ⟨i, hi, hiid⟩ := s.delivery_installation d hd
  have hfindN : (s.notifications.rows.find? (·.id == d.notificationId)).isSome :=
    List.find?_isSome.mpr ⟨n, hn, by simpa using hnid⟩
  have hfindI : (s.installations.rows.find? (·.id == d.installationId)).isSome :=
    List.find?_isSome.mpr ⟨i, hi, by simpa using hiid⟩
  obtain ⟨i', hi'⟩ := Option.isSome_iff_exists.mp hfindI
  obtain ⟨n', hn'⟩ := Option.isSome_iff_exists.mp hfindN
  simp [deliveryRow, hi', hn']

/-- What the join puts beside a delivery. -/
theorem deliveryRow_spec {s : PushDb} {d : PushDelivery} {r : DeliveryRow}
    (h : s.deliveryRow d = some r) :
    r.toPushDelivery = d ∧
      (r.installation ∈ s.installations.rows ∧ r.installation.id = d.installationId) ∧
      r.notification.toNotification ∈ s.notifications.rows ∧
        r.notification.id = d.notificationId := by
  obtain ⟨i, hi, hr⟩ := Option.bind_eq_some_iff.mp h
  obtain ⟨n, hn, rfl⟩ := Option.map_eq_some_iff.mp hr
  refine ⟨rfl, ⟨List.mem_of_find?_eq_some hi, ?_⟩, List.mem_of_find?_eq_some hn, ?_⟩
  · simpa using List.find?_some hi
  · show n.id = d.notificationId
    simpa using List.find?_some hn

end PushDb

end Feca.Push
