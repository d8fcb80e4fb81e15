import Feca.Push.Publish
import Feca.Social.Statements
import Mathlib.Data.List.Perm.Subperm

/-! # The inbox

A user lists notifications and marks them read while others do the same and new
ones are published. A call to mark one reads it first and writes it in a second
statement, even if it has been marked by then; the three counts of a listing are
three statements. A publication is one transaction, and one step here.
-/

namespace Feca.Push

open Concurrency Concurrency.Prog Relational Social

/-- `notification.update` and `notification.updateMany` of `readAt`. -/
def PushDb.setReadAt (s : PushDb) (p : Notification → Bool) (now : Date) : PushDb where
  users := s.users
  settings := s.settings
  notifications := s.notifications.update p fun n => { n with readAt := some now }
  installations := s.installations
  deliveries := s.deliveries
  delivery_notification := by
    intro d hd
    obtain ⟨n, hn, hid⟩ := s.delivery_notification d hd
    refine ⟨_, Table.mem_update.mpr ⟨n, hn, rfl⟩, ?_⟩
    split
    · exact hid
    · exact hid
  delivery_installation := s.delivery_installation

/-- A notification was unread, and a call that marks all has marked and counted it. -/
inductive InboxEvent
  | counted (id : Id)
  deriving DecidableEq, Repr

abbrev InboxProg := Prog PushDb InboxEvent Failure

/-! ## Listing -/

/-- `ListNotificationsQueryDto`. -/
structure ListNotificationsQuery where
  limit : Nat := 20
  offset : Nat := 0
  unreadOnly : Bool := false
  deriving DecidableEq, Repr

/-- `{ userId, readAt: null }`, the second where it is asked for. -/
def inboxWhere (userId : Id) (unreadOnly : Bool) (n : Notification) : Bool :=
  n.userId == userId && (!unreadOnly || n.readAt.isNone)

/-- `orderBy: [{ createdAt: "desc" }]`. -/
def notifiedAfter (a b : Notification) : Prop := b.createdAt ≤ a.createdAt

instance : DecidableRel notifiedAfter := fun a b => by
  unfold notifiedAfter
  infer_instance

namespace PushDb

variable (s : PushDb)

def countNotifications (p : Notification → Bool) : Nat := (s.notifications.rows.filter p).length

def findNotifications (p : Notification → Bool) (skip take : Nat) : List Notification :=
  (((s.notifications.rows.filter p).insertionSort notifiedAfter).drop skip).take take

end PushDb

structure NotificationList where
  notifications : List NotificationWithRelations
  total : Nat
  unreadTotal : Nat

/-- The order in which the statements of the `Promise.all` are sent. -/
def listForUser (userId : Id) (query : ListNotificationsQuery) : InboxProg NotificationList := do
  let notifications ← Prog.query fun s =>
    (s.findNotifications (inboxWhere userId query.unreadOnly) query.offset query.limit).map
      s.withRelations
  let total ← Prog.query fun s => s.countNotifications (inboxWhere userId query.unreadOnly)
  let unreadTotal ← Prog.query fun s => s.countNotifications (inboxWhere userId true)
  pure { notifications, total, unreadTotal }

/-! ## Marking -/

/-- `notification.findFirst` by id and user. -/
def PushDb.findNotification (s : PushDb) (userId notificationId : Id) : Option Notification :=
  s.notifications.rows.find? fun n => n.id == notificationId && n.userId == userId

/-- `notification.update` by id, whatever has become of the notification; nothing is counted. -/
def updateReadAt (now : Date) (id : Id) : InboxProg Unit :=
  stmt fun s =>
    if s.notifications.rows.any (·.id == id) then ⟨s.setReadAt (·.id == id) now, [], .ok ()⟩
    else ⟨s, [], .error (.database recordNotFound)⟩

def markRead (now : Date) (userId notificationId : Id) : InboxProg Bool := do
  match ← Prog.query (·.findNotification userId notificationId) with
  | none => pure false
  | some notification => do
      if notification.readAt.isNone then updateReadAt now notification.id
      pure true

/-- How many were unread, each of them reported. -/
def markAllRead (now : Date) (userId : Id) : InboxProg Nat :=
  stmt fun s =>
    let unread := s.notifications.rows.filter (inboxWhere userId true)
    ⟨s.setReadAt (inboxWhere userId true) now, unread.map fun n => .counted n.id,
      .ok unread.length⟩

/-! ## Calls -/

/-- A request, or a publication by another service. -/
inductive InboxCall
  | publish (input : PublishNotificationInput) (env : PublishEnv)
  | listMyNotifications (userId : Id) (query : ListNotificationsQuery)
  | markMyNotificationRead (now : Date) (userId notificationId : Id)
  | markAllMyNotificationsRead (now : Date) (userId : Id)

inductive InboxResult
  | published (result : Except Thrown PublishResult)
  | listed (notifications : List SerializedNotification) (total unreadTotal : Nat)
  | marked
  | updated (count : Nat)
  | failed (failure : Failure)

def markMyNotificationRead (now : Date) (userId notificationId : Id) : InboxProg Unit := do
  if ← markRead now userId notificationId then pure ()
  else .fail (.http (NotFoundException "Notification not found"))

def listMyNotifications (userId : Id) (query : ListNotificationsQuery) :
    InboxProg InboxResult := do
  let result ← listForUser userId query
  pure (.listed (result.notifications.map serializeNotification) result.total result.unreadTotal)

/-- What the request answers, its failure included. -/
def answer (p : InboxProg InboxResult) : InboxProg InboxResult := do
  match ← p.attempt with
  | .ok result => pure result
  | .error failure => pure (.failed failure)

def InboxCall.prog : InboxCall → InboxProg InboxResult
  | .publish input env =>
      stmt fun s => ⟨((Push.publish input env).run s).store, [],
        .ok (.published ((Push.publish input env).run s).result)⟩
  | .listMyNotifications userId query => answer (Push.listMyNotifications userId query)
  | .markMyNotificationRead now userId notificationId =>
      answer ((fun _ => .marked) <$> Push.markMyNotificationRead now userId notificationId)
  | .markAllMyNotificationsRead now userId =>
      answer ((fun count => .updated count) <$> markAllRead now userId)

/-- The user whose notifications the call marks. -/
def InboxCall.marker : InboxCall → Option Id
  | .markMyNotificationRead _ userId _ => some userId
  | .markAllMyNotificationsRead _ userId => some userId
  | _ => none

/-! ## What calls do to each other's notifications -/

variable {s t u : PushDb} {markers : Id → Prop}

/-- No notification goes, only `readAt` is written, only where its user marks,
and what has been read stays read. -/
def Marks (markers : Id → Prop) (s t : PushDb) : Prop :=
  ∀ n ∈ s.notifications.rows, ∃ n' ∈ t.notifications.rows,
    n' = { n with readAt := n'.readAt } ∧ (n.readAt.isSome → n'.readAt.isSome) ∧
      (¬ markers n.userId → n' = n)

theorem Marks.refl (s : PushDb) : Marks markers s s :=
  fun n hn => ⟨n, hn, rfl, id, fun _ => rfl⟩

theorem Marks.trans (hst : Marks markers s t) (htu : Marks markers t u) : Marks markers s u := by
  intro n hn
  obtain ⟨n', hn', hsame, hread, hother⟩ := hst n hn
  obtain ⟨n'', hn'', hsame', hread', hother'⟩ := htu n' hn'
  have huser : n'.userId = n.userId := by rw [hsame]
  refine ⟨n'', hn'', ?_, fun h => hread' (hread h), fun h => ?_⟩
  · rw [hsame', hsame]
  · rw [hother' (by rwa [huser]), hother h]

def inboxContract (markers : Id → Prop) : Contract PushDb where
  inv _ := True
  guar := Marks markers
  refl := .refl
  trans := .trans

theorem marks_setReadAt {p : Notification → Bool} (now : Date)
    (h : ∀ n ∈ s.notifications.rows, p n = true → markers n.userId) :
    Marks markers s (s.setReadAt p now) := by
  intro n hn
  refine ⟨_, List.mem_map_of_mem hn, ?_⟩
  by_cases hp : p n = true
  · rw [if_pos hp]
    exact ⟨rfl, fun _ => rfl, fun hnot => absurd (h n hn hp) hnot⟩
  · rw [if_neg hp]
    exact ⟨rfl, id, fun _ => rfl⟩

/-- A notification that was there is found later by its id. -/
theorem Marks.find (h : Marks markers s t) {n m : Notification} (hn : n ∈ s.notifications.rows)
    (hm : m ∈ t.notifications.rows) (hid : m.id = n.id) : m.userId = n.userId := by
  obtain ⟨n', hn', hsame, -⟩ := h n hn
  have hnew : n'.id = n.id := by rw [hsame]
  rw [t.notification_unique hm hn' (hid.trans hnew.symm), hsame]

theorem Marks.count_le (h : Marks markers s t) (userId : Id) :
    s.countNotifications (·.userId == userId) ≤ t.countNotifications (·.userId == userId) := by
  have hnodup : ((s.notifications.rows.filter (·.userId == userId)).map (·.id)).Nodup := by
    rw [List.Nodup, List.pairwise_map]
    refine (s.notifications.distinct.filter _).imp fun {n m} hnm heq => ?_
    simp [conflicts, heq] at hnm
  have hsub : (s.notifications.rows.filter (·.userId == userId)).map (·.id) ⊆
      (t.notifications.rows.filter (·.userId == userId)).map (·.id) := by
    intro id hid
    obtain ⟨n, hn, rfl⟩ := List.mem_map.mp hid
    obtain ⟨hstored, huser⟩ := List.mem_filter.mp hn
    obtain ⟨n', hn', hsame, -⟩ := h n hstored
    refine List.mem_map.mpr ⟨n', List.mem_filter.mpr ⟨hn', ?_⟩, by rw [hsame]⟩
    rw [hsame]
    exact huser
  have hlength := (List.subperm_of_subset hnodup hsub).length_le
  rwa [List.length_map, List.length_map] at hlength

/-! ## What each call answers -/

/-- What an answer promises about the store that the call began in, and about
every store from its end on. -/
def InboxCall.Promises (start : PushDb) : InboxCall → InboxResult → PushDb → Prop
  | .markMyNotificationRead _ userId notificationId, .marked, t =>
      ∃ n ∈ t.notifications.rows, n.id = notificationId ∧ n.userId = userId ∧ n.readAt.isSome
  | .markMyNotificationRead _ userId notificationId, .failed failure, _ =>
      failure = .http (NotFoundException "Notification not found") ∧
        ∀ n ∈ start.notifications.rows, n.id = notificationId → n.userId ≠ userId
  | .markAllMyNotificationsRead _ userId, .updated _, t =>
      ∀ n ∈ start.notifications.rows, n.userId = userId →
        ∃ n' ∈ t.notifications.rows, n'.id = n.id ∧ n'.readAt.isSome
  | .listMyNotifications userId query, .listed notifications total unreadTotal, t =>
      notifications.length ≤ query.limit ∧ (notifications.map (·.id)).Nodup ∧
      (∀ shown ∈ notifications, ∃ n ∈ t.notifications.rows, n.id = shown.id ∧
        n.userId = userId ∧ (shown.read = true → n.readAt.isSome)) ∧
      (query.unreadOnly = false → start.countNotifications (·.userId == userId) ≤ total) ∧
      total ≤ t.countNotifications (·.userId == userId) ∧
      unreadTotal ≤ t.countNotifications (·.userId == userId)
  | _, _, _ => True

theorem promises_stable {start : PushDb} (call : InboxCall) (result : InboxResult)
    (h : call.Promises start result s) (hst : Marks markers s t) :
    call.Promises start result t := by
  cases call with
  | publish input env => trivial
  | listMyNotifications userId query =>
      cases result with
      | listed notifications total unreadTotal =>
          obtain ⟨hlength, hnodup, hshown, hstart, htotal, hunread⟩ := h
          refine ⟨hlength, hnodup, fun shown hmem => ?_, hstart,
            htotal.trans (hst.count_le userId), hunread.trans (hst.count_le userId)⟩
          obtain ⟨n, hn, hid, huser, hread⟩ := hshown shown hmem
          obtain ⟨n', hn', hsame, hkept, -⟩ := hst n hn
          exact ⟨n', hn', by rw [hsame, hid], by rw [hsame, huser], fun h => hkept (hread h)⟩
      | _ => trivial
  | markMyNotificationRead now userId notificationId =>
      cases result with
      | marked =>
          obtain ⟨n, hn, hid, huser, hread⟩ := h
          obtain ⟨n', hn', hsame, hkept, -⟩ := hst n hn
          exact ⟨n', hn', by rw [hsame, hid], by rw [hsame, huser], hkept hread⟩
      | failed failure => exact h
      | _ => trivial
  | markAllMyNotificationsRead now userId =>
      cases result with
      | updated count =>
          intro n hn huser
          obtain ⟨m, hm, hid, hread⟩ := h n hn huser
          obtain ⟨m', hm', hsame, hkept, -⟩ := hst m hm
          exact ⟨m', hm', by rw [hsame, hid], hkept hread⟩
      | _ => trivial

/-! ### Listing -/

theorem mem_findNotifications {p : Notification → Bool} {skip take : Nat} {n : Notification}
    (h : n ∈ s.findNotifications p skip take) : n ∈ s.notifications.rows ∧ p n = true :=
  List.mem_filter.mp ((List.mem_insertionSort _).mp (List.mem_of_mem_drop (List.mem_of_mem_take h)))

theorem nodup_findNotifications (s : PushDb) (p : Notification → Bool) (skip take : Nat) :
    ((s.findNotifications p skip take).map (·.id)).Nodup := by
  have hrows : ((s.notifications.rows.filter p).map (·.id)).Nodup := by
    rw [List.Nodup, List.pairwise_map]
    refine (s.notifications.distinct.filter _).imp fun {n m} hnm heq => ?_
    simp [conflicts, heq] at hnm
  have hsorted := ((List.perm_insertionSort notifiedAfter
    (s.notifications.rows.filter p)).map (·.id)).nodup_iff.mpr hrows
  exact hsorted.sublist (((List.take_sublist _ _).trans (List.drop_sublist _ _)).map _)

theorem count_inboxWhere_le (s : PushDb) (userId : Id) (unreadOnly : Bool) :
    s.countNotifications (inboxWhere userId unreadOnly) ≤
      s.countNotifications (·.userId == userId) := by
  unfold PushDb.countNotifications
  refine (List.monotone_filter_right _ fun n hn => ?_).length_le
  unfold inboxWhere at hn
  rw [Bool.and_eq_true] at hn
  exact hn.1

theorem meets_listForUser (userId : Id) (query : ListNotificationsQuery) :
    (InboxCall.listMyNotifications userId query).prog.Meets (inboxContract markers)
      ((InboxCall.listMyNotifications userId query).Promises s) s := by
  intro t hst _
  refine ⟨trivial, .refl t, fun u htu _ => ⟨trivial, .refl u, fun v huv _ =>
    ⟨trivial, .refl v, ?_⟩⟩⟩
  have htv := htu.trans huv
  show InboxCall.Promises s _ (.listed _ _ _) v
  refine ⟨?_, ?_, fun shown hshown => ?_, fun hall => ?_, ?_, count_inboxWhere_le v userId true⟩
  · rw [List.length_map, List.length_map]
    exact List.length_take_le _ _
  · rw [List.map_map, List.map_map]
    exact nodup_findNotifications t _ _ _
  · rw [List.map_map] at hshown
    obtain ⟨n, hn, rfl⟩ := List.mem_map.mp hshown
    obtain ⟨hstored, hwhere⟩ := mem_findNotifications hn
    obtain ⟨n', hn', hsame, hkept, -⟩ := htv n hstored
    unfold inboxWhere at hwhere
    rw [Bool.and_eq_true, beq_iff_eq] at hwhere
    exact ⟨n', hn', by rw [hsame]; rfl, by rw [hsame]; exact hwhere.1, hkept⟩
  · have hsame : inboxWhere userId query.unreadOnly = fun n => n.userId == userId := by
      funext n
      rw [hall]
      simp [inboxWhere]
    rw [hsame]
    exact (hst.trans htu).count_le userId
  · exact (count_inboxWhere_le u userId _).trans (huv.count_le userId)

/-! ### Marking -/

theorem findNotification_eq_some {userId notificationId : Id} {n : Notification}
    (h : s.findNotification userId notificationId = some n) :
    n ∈ s.notifications.rows ∧ n.id = notificationId ∧ n.userId = userId := by
  have hcols := List.find?_some h
  rw [Bool.and_eq_true, beq_iff_eq, beq_iff_eq] at hcols
  exact ⟨List.mem_of_find?_eq_some h, hcols⟩

theorem meets_markMyNotificationRead {now : Date} {userId notificationId : Id}
    (hmarker : markers userId) :
    (InboxCall.markMyNotificationRead now userId notificationId).prog.Meets (inboxContract markers)
      ((InboxCall.markMyNotificationRead now userId notificationId).Promises s) s := by
  intro t hst _
  refine ⟨trivial, .refl t, ?_⟩
  dsimp only
  cases hfind : t.findNotification userId notificationId with
  | none =>
      refine ⟨rfl, fun n hn hid huser => ?_⟩
      obtain ⟨n', hn', hsame, -⟩ := hst n hn
      have hnone := List.find?_eq_none.mp hfind n' hn'
      rw [hsame] at hnone
      simp [hid, huser] at hnone
  | some n =>
      obtain ⟨hn, hid, huser⟩ := findNotification_eq_some hfind
      simp only [Prog.bind]
      cases hread : n.readAt with
      | some at' =>
          exact ⟨n, hn, hid, huser, by rw [hread]; rfl⟩
      | none =>
          intro u htu _
          obtain ⟨n', hn', hsame, -⟩ := htu n hn
          have hnew : n'.id = n.id := by rw [hsame]
          have hthere : u.notifications.rows.any (·.id == n.id) = true :=
            List.any_eq_true.mpr ⟨n', hn', by simpa using hnew⟩
          have hown : ∀ m ∈ u.notifications.rows, (m.id == n.id) = true → markers m.userId := by
            intro m hm hmid
            rw [htu.find hn hm (by simpa using hmid), huser]
            exact hmarker
          dsimp only
          simp only [hthere, if_true]
          refine ⟨trivial, marks_setReadAt now hown, ?_⟩
          refine ⟨{ n' with readAt := some now }, List.mem_map.mpr ⟨n', hn', ?_⟩, ?_, ?_, rfl⟩
          · rw [if_pos (by simpa using hnew)]
          · rw [hnew, hid]
          · rw [hsame, huser]

theorem meets_markAllMyNotificationsRead {now : Date} {userId : Id} (hmarker : markers userId) :
    (InboxCall.markAllMyNotificationsRead now userId).prog.Meets (inboxContract markers)
      ((InboxCall.markAllMyNotificationsRead now userId).Promises s) s := by
  intro t hst _
  have hown : ∀ n ∈ t.notifications.rows, inboxWhere userId true n = true → markers n.userId := by
    intro n _ hwhere
    unfold inboxWhere at hwhere
    rw [Bool.and_eq_true, beq_iff_eq] at hwhere
    rw [hwhere.1]
    exact hmarker
  refine ⟨trivial, marks_setReadAt now hown, fun n hn huser => ?_⟩
  obtain ⟨n', hn', hsame, -⟩ := hst n hn
  refine ⟨_, List.mem_map_of_mem hn', ?_⟩
  by_cases hunread : inboxWhere userId true n' = true
  · rw [if_pos hunread]
    exact ⟨by rw [hsame], rfl⟩
  · rw [if_neg hunread]
    refine ⟨by rw [hsame], ?_⟩
    have huser' : n'.userId = userId := by rw [hsame, huser]
    simp only [inboxWhere, huser', beq_self_eq_true, Bool.not_true, Bool.false_or, Bool.true_and,
      Option.isNone_iff_eq_none] at hunread
    exact Option.isSome_iff_ne_none.mpr hunread

/-! ### Publishing -/

theorem marks_publish (input : PublishNotificationInput) (env : PublishEnv) (s : PushDb) :
    Marks markers s ((Push.publish input env).run s).store := by
  have hkept : ∀ n ∈ s.notifications.rows,
      n ∈ ((Push.publish input env).run s).store.notifications.rows := by
    intro n hn
    unfold Push.publish
    split
    · exact hn
    · unfold transaction
      rw [run_stmt]
      split
      · exact ((meets_publishTransaction input env).run trivial).2.1.notifications n hn
      · exact hn
  exact fun n hn => ⟨n, hkept n hn, rfl, id, fun _ => rfl⟩

theorem meets_inboxCall (call : InboxCall) (h : ∀ userId ∈ call.marker, markers userId) :
    call.prog.Meets (inboxContract markers) (call.Promises s) s := by
  cases call with
  | publish input env =>
      intro t _ _
      exact ⟨trivial, marks_publish input env t, trivial⟩
  | listMyNotifications userId query => exact meets_listForUser userId query
  | markMyNotificationRead now userId notificationId =>
      exact meets_markMyNotificationRead (h userId rfl)
  | markAllMyNotificationsRead now userId =>
      exact meets_markAllMyNotificationsRead (h userId rfl)

/-! ## What is counted -/

def ReadIn (s : PushDb) (id : Id) : Prop := ∃ n ∈ s.notifications.rows, n.id = id ∧ n.readAt.isSome

theorem Marks.readIn (h : Marks markers s t) {id : Id} (hread : ReadIn s id) : ReadIn t id := by
  obtain ⟨n, hn, hid, hread⟩ := hread
  obtain ⟨n', hn', hsame, hkept, -⟩ := h n hn
  exact ⟨n', hn', by rw [hsame, hid], hkept hread⟩

/-- A statement reports each notification that it counts once, and only where it
has not been read. -/
structure CountsNew (s t : PushDb) (es : List InboxEvent) : Prop where
  kept : ∀ id, ReadIn s id → ReadIn t id
  new : ∀ id, .counted id ∈ es → ¬ ReadIn s id ∧ ReadIn t id
  once : es.Nodup

theorem CountsNew.of_marks (h : Marks (fun _ => True) s t) : CountsNew s t [] :=
  ⟨fun _ => h.readIn, fun _ he => (List.not_mem_nil he).elim, List.nodup_nil⟩

theorem countsNew_query {α : Type} (read : PushDb → α) :
    (Prog.query read : InboxProg α).Always CountsNew :=
  always_stmt fun s => .of_marks (.refl s)

theorem countsNew_updateReadAt (now : Date) (id : Id) : (updateReadAt now id).Always CountsNew := by
  refine always_stmt fun s => ?_
  split
  · exact .of_marks (marks_setReadAt now fun _ _ _ => trivial)
  · exact .of_marks (.refl s)

theorem countsNew_markAllRead (now : Date) (userId : Id) :
    (markAllRead now userId).Always CountsNew := by
  refine always_stmt fun s => ?_
  have hmarks : Marks (fun _ => True) s (s.setReadAt (inboxWhere userId true) now) :=
    marks_setReadAt now fun _ _ _ => trivial
  refine ⟨fun id => hmarks.readIn, fun id he => ?_, ?_⟩
  · obtain ⟨n, hn, hmarked⟩ := List.mem_map.mp he
    obtain ⟨hstored, hunread⟩ := List.mem_filter.mp hn
    have hid : n.id = id := InboxEvent.counted.inj hmarked
    constructor
    · rintro ⟨m, hm, hmid, hread⟩
      rw [s.notification_unique hm hstored (hmid.trans hid.symm)] at hread
      unfold inboxWhere at hunread
      rw [Bool.and_eq_true] at hunread
      have hnone : n.readAt = none := by simpa using hunread.2
      rw [hnone] at hread
      cases hread
    · exact ⟨_, List.mem_map_of_mem hstored, by rw [if_pos hunread]; exact hid,
        by rw [if_pos hunread]; rfl⟩
  · rw [List.Nodup, List.pairwise_map]
    refine (s.notifications.distinct.filter _).imp fun {n m} hnm heq => ?_
    simp [conflicts, InboxEvent.counted.inj heq] at hnm

theorem countsNew_answer {p : InboxProg InboxResult} (h : p.Always CountsNew) :
    (answer p).Always CountsNew := by
  refine always_bind (always_attempt h) fun r => ?_
  cases r with
  | ok result => trivial
  | error failure => trivial

theorem countsNew_call (call : InboxCall) : call.prog.Always CountsNew := by
  cases call with
  | publish input env =>
      exact always_stmt fun s => .of_marks (marks_publish input env s)
  | listMyNotifications userId query =>
      refine countsNew_answer (always_bind ?_ fun result => trivial)
      exact always_bind (countsNew_query _) fun notifications => always_bind (countsNew_query _)
        fun total => always_bind (countsNew_query _) fun unreadTotal => trivial
  | markMyNotificationRead now userId notificationId =>
      refine countsNew_answer (always_map _ (always_bind (always_bind (countsNew_query _)
        fun found => ?_) fun marked => ?_))
      · cases found with
        | none => trivial
        | some n =>
            dsimp only
            split
            · exact always_bind (countsNew_updateReadAt now n.id) fun _ => trivial
            · trivial
      · split
        · trivial
        · trivial
  | markAllMyNotificationsRead now userId =>
      exact countsNew_answer (always_map _ (countsNew_markAllRead now userId))

/-! ## Any interleaving -/

abbrev InboxConfig (ι : Type) := Config ι PushDb InboxEvent Failure InboxResult

/-- Every call is about to begin. -/
def openInbox {ι : Type} (s : PushDb) (calls : ι → InboxCall) : InboxConfig ι :=
  ⟨s, fun i => (calls i).prog, []⟩

section interleaving

variable {ι : Type} [DecidableEq ι] {calls : ι → InboxCall}

/-- The users who mark notifications in one of the calls. -/
def markersOf (calls : ι → InboxCall) (userId : Id) : Prop :=
  ∃ i, (calls i).marker = some userId

/-- What has been counted was counted once, had not been read at the start and is read; a call
that marks all has done nothing yet, or has counted as many as it answers. -/
structure Counted (s : PushDb) (calls : ι → InboxCall) (c : InboxConfig ι) : Prop where
  laws : ∀ i, (c.calls i).Always CountsNew
  kept : ∀ id, ReadIn s id → ReadIn c.store id
  once : (c.trace.map (·.2)).Nodup
  new : ∀ id, .counted id ∈ c.trace.map (·.2) → ¬ ReadIn s id ∧ ReadIn c.store id
  exact : ∀ i now userId, calls i = .markAllMyNotificationsRead now userId →
    (c.calls i = (calls i).prog ∧ c.reported i = []) ∨
      c.calls i = .done (.updated (c.reported i).length)

theorem counted_openInbox (s : PushDb) (calls : ι → InboxCall) :
    Counted s calls (openInbox s calls) where
  laws i := countsNew_call (calls i)
  kept := fun _ h => h
  once := List.nodup_nil
  new := fun _ he => (List.not_mem_nil he).elim
  exact := fun _ _ _ _ => .inl ⟨rfl, rfl⟩

theorem markAllMyNotificationsRead_prog (now : Date) (userId : Id) :
    (InboxCall.markAllMyNotificationsRead now userId).prog = .step
      (fun s => (s.setReadAt (inboxWhere userId true) now,
        (s.notifications.rows.filter (inboxWhere userId true)).map fun n => .counted n.id))
      (fun s => .done
        (.updated (s.notifications.rows.filter (inboxWhere userId true)).length)) := rfl

theorem counted_advance {s : PushDb} {c : InboxConfig ι} (h : Counted s calls c) (i : ι) :
    Counted s calls (c.advance i) := by
  have hlaw := c.law_of_always (h.laws i) fun s =>
    .of_marks (.refl s)
  have htrace : (c.advance i).trace.map (·.2) = c.trace.map (·.2) ++ c.upcoming i := by
    rw [c.advance_trace, List.map_append, List.map_map]
    exact congrArg _ (List.map_id _)
  refine ⟨fun j => c.always_advance i (h.laws j), fun id hread => hlaw.kept id (h.kept id hread),
    ?_, fun id he => ?_, fun j now userId hj => ?_⟩
  · rw [htrace, List.nodup_append]
    refine ⟨h.once, hlaw.once, fun e he f hf heq => ?_⟩
    cases e with
    | counted id =>
        subst heq
        exact (hlaw.new id hf).1 (h.new id he).2
  · rw [htrace, List.mem_append] at he
    rcases he with hold | hnew
    · exact ⟨(h.new id hold).1, hlaw.kept id (h.new id hold).2⟩
    · exact ⟨fun hread => (hlaw.new id hnew).1 (h.kept id hread), (hlaw.new id hnew).2⟩
  · by_cases hij : j = i
    · subst hij
      rw [Config.reported_advance_self]
      rcases h.exact j now userId hj with ⟨hstart, hnone⟩ | hdone
      · right
        rw [hj, markAllMyNotificationsRead_prog] at hstart
        rw [Config.advance_step hstart, hnone]
        simp [Config.upcoming, hstart]
      · right
        simp [Config.advance, Config.upcoming, hdone]
    · rw [c.reported_advance_of_ne hij, c.advance_calls_of_ne hij]
      exact h.exact j now userId hj

/-- Whatever calls there are and in whatever order their statements run: no
notification goes or says anything else, only the calls of its user mark it and
it stays marked; what is answered holds from then on; and no two calls that mark
all count the same notification, which had not been read before and is read now,
each of them answering how many it has counted. -/
theorem inbox_holds_in_any_interleaving (s : PushDb) (calls : ι → InboxCall)
    (schedule : List ι) :
    Marks (markersOf calls) s ((openInbox s calls).run schedule).store ∧
    (∀ i result, ((openInbox s calls).run schedule).returned i = some result →
      (calls i).Promises s result ((openInbox s calls).run schedule).store) ∧
    (((openInbox s calls).run schedule).trace.map (·.2)).Nodup ∧
    (∀ i id, .counted id ∈ ((openInbox s calls).run schedule).reported i →
      ¬ ReadIn s id ∧ ReadIn ((openInbox s calls).run schedule).store id) ∧
    (∀ i now userId count, calls i = .markAllMyNotificationsRead now userId →
      ((openInbox s calls).run schedule).returned i = some (.updated count) →
      (((openInbox s calls).run schedule).reported i).length = count) := by
  have hmarkers : ∀ i, ∀ userId ∈ (calls i).marker, markersOf calls userId :=
    fun i userId huser => ⟨i, huser⟩
  obtain ⟨⟨-, hmarks⟩, hcalls⟩ := Config.contract_results
    (K := inboxContract (markersOf calls))
    (Q := fun i => (calls i).Promises s) (c := openInbox s calls)
    (fun i result s t h (hst : Marks (markersOf calls) s t) => promises_stable (calls i) result h hst) trivial
    (fun i => meets_inboxCall (calls i) (hmarkers i)) schedule
  have hcounted := Config.invariant_run (I := Counted s calls) (fun _ i h => counted_advance h i)
    (counted_openInbox s calls) schedule
  refine ⟨hmarks, fun i result hreturned => Config.returned_of_meets (hcalls i) hreturned,
    hcounted.once, fun i id hid => ?_, fun i now userId count hi hreturned => ?_⟩
  · exact hcounted.new id (List.mem_map.mpr ⟨(i, .counted id), Config.mem_reported.mp hid, rfl⟩)
  rcases hcounted.exact i now userId hi with ⟨hstart, -⟩ | hdone
  · rw [hi, markAllMyNotificationsRead_prog] at hstart
    simp [Config.returned, hstart] at hreturned
  · simpa [Config.returned, hdone] using hreturned

end interleaving

end Feca.Push
