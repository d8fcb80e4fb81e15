import Feca.Push.Statements
import Feca.Concurrency.Interleaving

/-! # Publishing notifications and seating installations

`publish` queues one delivery for every active installation of a recipient;
`registerMyPushInstallation` gives an installation row to whoever registers it
last; `revokeMyPushInstallation` takes one out of use. The first two are
transactions.
-/

namespace Feca.Push

open Concurrency Concurrency.Prog Relational

structure PublishNotificationInput where
  actorId : Option Id := none
  dedupeKey : Option String := none
  entity : Option NotificationEntity := none
  payload : Option (List (String × Option Json)) := none
  recipientIds : List Id
  scheduledFor : Option Date := none
  type : NotificationType

/-- The clock of a call, and the ids it generates: one for each notification,
one for each of its deliveries. -/
structure PublishEnv where
  now : Date
  notificationId : Nat → Id
  deliveryId : Nat → Nat → Id

structure PublishResult where
  count : Nat
  deliveryCount : Nat
  deriving DecidableEq, Repr

/-- The fields that are not `undefined`, if there are any. -/
def normalizeNotificationPayload (payload : Option (List (String × Option Json))) : Json :=
  let entries := (payload.getD []).filterMap fun (key, value) => value.map fun v => (key, v)
  if entries.length = 0 then .null else .object entries

/-- `error.code === "P2002"`, for a call that has a dedupe key. -/
def isNotificationDedupeConflict (error : Thrown) (dedupeKey : Option String) : Bool :=
  match dedupeKey.bind orNull, error with
  | some _, .known code _ => code == "P2002"
  | _, _ => false

/-- `recipientIds`: each once, neither empty nor the actor. -/
def PublishNotificationInput.recipients (input : PublishNotificationInput) : List Id :=
  distinctIds (input.recipientIds.filter fun recipientId =>
    recipientId != "" && (input.actorId.bind orNull != some recipientId))

/-! ## Statements -/

/-- A recipient as the transaction reads it. -/
structure Recipient where
  id : Id
  pushInstallations : List PushInstallation
  pushEnabled : Option Bool

/-- `orderBy: [{ lastSeenAt: "desc" }, { createdAt: "desc" }]`. -/
def seenAfter (a b : PushInstallation) : Prop :=
  a.lastSeenAt > b.lastSeenAt ∨ (a.lastSeenAt = b.lastSeenAt ∧ a.createdAt ≥ b.createdAt)

instance : DecidableRel seenAfter := fun a b => by
  unfold seenAfter
  infer_instance

namespace PushDb

def activeInstallations (s : PushDb) (userId : Id) : List PushInstallation :=
  (s.installations.rows.filter fun i =>
    i.userId == userId && i.disabledAt == none && i.revokedAt == none).insertionSort seenAfter

def recipients (s : PushDb) (ids : List Id) : List Recipient :=
  (s.users.rows.filter fun u => ids.contains u.id).map fun u =>
    { id := u.id
      pushInstallations := s.activeInstallations u.id
      pushEnabled := (s.settings.rows.find? (·.userId == u.id)).map (·.pushEnabled) }

/-- The recipients that already have a notification under the key. -/
def notifiedUserIds (s : PushDb) (dedupeKey : Option String) (ids : List Id) : List Id :=
  match dedupeKey.bind orNull with
  | none => []
  | some key => (s.notifications.rows.filter fun n =>
      n.dedupeKey == some key && ids.contains n.userId).map (·.userId)

end PushDb

/-- A statement that replaces the store or throws. -/
def writeDb (write : PushDb → Except Thrown PushDb) : PushProg Unit :=
  stmt fun s =>
    match write s with
    | .ok t => ⟨t, [], .ok ()⟩
    | .error e => ⟨s, [], .error e⟩

/-- `pushDelivery.createMany`: how many rows were new. -/
def createDeliveries (ds : List PushDelivery) : PushProg Nat :=
  stmt fun s =>
    match s.insertDeliveries ds with
    | .ok t => ⟨t, [], .ok (t.deliveries.rows.length - s.deliveries.rows.length)⟩
    | .error e => ⟨s, [], .error e⟩

/-! ## publish -/

def notificationOf (input : PublishNotificationInput) (env : PublishEnv) (index : Nat)
    (recipientId : Id) : Notification where
  id := env.notificationId index
  userId := recipientId
  actorId := input.actorId
  type := input.type
  entityType := input.entity.map (·.kind)
  entityId := input.entity.map (·.id)
  dedupeKey := input.dedupeKey
  payload := normalizeNotificationPayload input.payload
  createdAt := env.now

def deliveriesOf (input : PublishNotificationInput) (env : PublishEnv) (index : Nat)
    (installations : List PushInstallation) : List PushDelivery :=
  installations.zipIdx.map fun (installation, k) =>
    { id := env.deliveryId index k
      notificationId := env.notificationId index
      installationId := installation.id
      scheduledFor := input.scheduledFor.getD env.now
      createdAt := env.now }

/-- The loop over the candidates. A dedupe conflict skips a recipient. -/
def publishEach (input : PublishNotificationInput) (env : PublishEnv)
    (recipients : List Recipient) : Nat → List Id → PublishResult → PushProg PublishResult
  | _, [], result => pure result
  | index, recipientId :: rest, result =>
      match recipients.find? (·.id == recipientId) with
      | none => publishEach input env recipients (index + 1) rest result
      | some recipient => do
          match ← (writeDb
              (·.insertNotification (notificationOf input env index recipientId))).attempt with
          | .error e =>
              if isNotificationDedupeConflict e input.dedupeKey then
                publishEach input env recipients (index + 1) rest result
              else .fail e
          | .ok _ =>
              let result := { result with count := result.count + 1 }
              if recipient.pushEnabled.getD true && recipient.pushInstallations.length > 0 then
                match ← (createDeliveries
                    (deliveriesOf input env index recipient.pushInstallations)).attempt with
                | .error e =>
                    if isNotificationDedupeConflict e input.dedupeKey then
                      publishEach input env recipients (index + 1) rest result
                    else .fail e
                | .ok created =>
                    publishEach input env recipients (index + 1) rest
                      { result with deliveryCount := result.deliveryCount + created }
              else publishEach input env recipients (index + 1) rest result

/-- The transaction of `publish`. -/
def publishTransaction (input : PublishNotificationInput) (env : PublishEnv) :
    PushProg PublishResult := do
  let recipientIds := input.recipients
  let existing ← query fun s => s.notifiedUserIds input.dedupeKey recipientIds
  let candidates := recipientIds.filter fun id => !existing.contains id
  if candidates.length = 0 then pure ⟨0, 0⟩
  else do
    let recipients ← query fun s => s.recipients candidates
    publishEach input env recipients 0 candidates ⟨0, 0⟩

def publish (input : PublishNotificationInput) (env : PublishEnv) : PushProg PublishResult :=
  if input.recipients.length = 0 then pure ⟨0, 0⟩
  else transaction (publishTransaction input env)

/-! ## Installations -/

structure UpsertPushTokenDto where
  token : String
  provider : PushProvider := .expo
  installationId : Id
  platform : PushPlatform
  timezone : String

structure RegisterEnv where
  now : Date
  id : Id

/-- `pushInstallation.updateMany` setting `revokedAt`. -/
def revokeInstallations (p : PushInstallation → Bool) (now : Date) : PushProg Unit :=
  stmt fun s =>
    ⟨s.setInstallations p (fun i => { i with revokedAt := some now }), [], .ok ()⟩

/-- The update half of the upsert. -/
def UpsertPushTokenDto.seat (input : UpsertPushTokenDto) (env : RegisterEnv) (userId : Id)
    (i : PushInstallation) : PushInstallation :=
  { i with
    disabledAt := none
    lastSeenAt := env.now
    platform := input.platform
    revokedAt := none
    timezone := input.timezone
    token := input.token
    userId }

/-- `pushInstallation.upsert`, by provider and installation id. -/
def upsertInstallation (env : RegisterEnv) (userId : Id) (input : UpsertPushTokenDto) :
    PushProg Unit :=
  stmt fun s =>
    let found := fun i : PushInstallation =>
      i.provider == input.provider && i.installationId == input.installationId
    if s.installations.rows.any found then
      if s.users.rows.any (·.id == userId) then
        ⟨s.setInstallations found (input.seat env userId),
          (s.installations.rows.filter found).map fun i => .seated i (input.seat env userId i),
          .ok ()⟩
      else ⟨s, [], .error foreignKeyViolation⟩
    else
      match s.insertInstallation
          { id := env.id
            userId
            provider := input.provider
            installationId := input.installationId
            token := input.token
            platform := input.platform
            timezone := input.timezone
            lastSeenAt := env.now
            createdAt := env.now } with
      | .ok t => ⟨t, [], .ok ()⟩
      | .error e => ⟨s, [], .error e⟩

def registerMyPushInstallation (env : RegisterEnv) (userId : Id) (input : UpsertPushTokenDto) :
    PushProg Unit :=
  transaction do
    revokeInstallations (fun i => i.installationId != input.installationId &&
      i.provider == input.provider && i.revokedAt == none && i.token == input.token) env.now
    upsertInstallation env userId input

def revokeMyPushInstallation (now : Date) (userId installationId : Id) : PushProg Unit :=
  revokeInstallations (fun i => i.installationId == installationId && i.revokedAt == none &&
    i.userId == userId) now

/-! ## The law of publish -/

/-- What publishing may do: notifications and deliveries are added, each new
delivery pending and on an installation of the notified user. -/
structure Publishes (s t : PushDb) : Prop where
  installations : t.installations = s.installations
  notifications : ∀ n ∈ s.notifications.rows, n ∈ t.notifications.rows
  kept : ∀ d ∈ s.deliveries.rows, d ∈ t.deliveries.rows
  origin : ∀ d' ∈ t.deliveries.rows, d' ∈ s.deliveries.rows ∨
    (d'.status = .pending ∧ (∀ d ∈ s.deliveries.rows, d.id ≠ d'.id) ∧ t.Owned d')

theorem PushDb.Owned.later {s t : PushDb} {d : PushDelivery} (h : s.Owned d)
    (hst : Publishes s t) : t.Owned d := by
  obtain ⟨i, hi, n, hn, hids⟩ := h
  exact ⟨i, hst.installations ▸ hi, n, hst.notifications n hn, hids⟩

def publishContract : Contract PushDb where
  inv _ := True
  guar := Publishes
  refl _ := ⟨rfl, fun _ h => h, fun _ h => h, fun _ h => .inl h⟩
  trans {s t u} hst htu := by
    refine ⟨htu.installations.trans hst.installations,
      fun n hn => htu.notifications n (hst.notifications n hn),
      fun d hd => htu.kept d (hst.kept d hd), fun d' hd' => ?_⟩
    rcases htu.origin d' hd' with hd | ⟨hstatus, hfresh, howned⟩
    · rcases hst.origin d' hd with hd | ⟨hstatus, hfresh, howned⟩
      · exact .inl hd
      · exact .inr ⟨hstatus, hfresh, howned.later htu⟩
    · exact .inr ⟨hstatus, fun d hd => hfresh d (hst.kept d hd), howned⟩

section publish
variable {s : PushDb}

theorem meets_writeNotification (n : Notification) :
    (writeDb (·.insertNotification n)).Meets publishContract
      (fun _ t => n ∈ t.notifications.rows) s := by
  refine meets_stmt fun t _ _ => ?_
  split
  · rename_i u h
    obtain ⟨hi, hd, hn⟩ := PushDb.insertNotification_ok h
    refine ⟨trivial, ⟨hi, fun m hm => ?_, fun d h => hd ▸ h, fun d h => .inl (hd ▸ h)⟩,
      fun _ _ => ?_⟩
    · rw [hn]
      exact List.mem_append_left _ hm
    · rw [hn]
      simp
  · exact ⟨trivial, publishContract.refl t, by simp⟩

theorem meets_createDeliveries {ds : List PushDelivery}
    (h : ∀ d ∈ ds, d.status = .pending ∧ s.Owned d) :
    (createDeliveries ds).Meets publishContract (fun _ _ => True) s := by
  refine meets_stmt fun t hst _ => ?_
  split
  · rename_i u hu
    obtain ⟨hi, hn, new, hsub, hrows, hfresh⟩ := PushDb.insertDeliveries_ok hu
    have htu : Publishes t u := by
      refine ⟨hi, fun n h => hn ▸ h, fun d hd => ?_, fun d' hd' => ?_⟩
      · rw [hrows]
        exact List.mem_append_left _ hd
      · rw [hrows] at hd'
        rcases List.mem_append.mp hd' with hold | hnew
        · exact .inl hold
        · obtain ⟨hstatus, i, hmem, n, hstored, hids⟩ := h d' (hsub.subset hnew)
          refine .inr ⟨hstatus, hfresh d' hnew, i, ?_, n, ?_, hids⟩
          · rw [hi, hst.installations]
            exact hmem
          · rw [hn]
            exact hst.notifications n hstored
    exact ⟨trivial, htu, fun _ _ => trivial⟩
  · exact ⟨trivial, publishContract.refl t, by simp⟩

/-- The installations a recipient was read with are stored, and are theirs. -/
def Recipient.Read (s : PushDb) (recipient : Recipient) : Prop :=
  ∀ i ∈ recipient.pushInstallations, i ∈ s.installations.rows ∧ i.userId = recipient.id

theorem Recipient.Read.later {t : PushDb} {recipient : Recipient} (h : recipient.Read s)
    (hst : Publishes s t) : recipient.Read t :=
  fun i hi => ⟨hst.installations ▸ (h i hi).1, (h i hi).2⟩

theorem recipients_read (ids : List Id) : ∀ r ∈ s.recipients ids, r.Read s := by
  intro r hr i hi
  obtain ⟨u, -, rfl⟩ := List.mem_map.mp hr
  obtain ⟨hmem, hcols⟩ := List.mem_filter.mp ((List.mem_insertionSort _).mp hi)
  simp only [Bool.and_eq_true, beq_iff_eq] at hcols
  exact ⟨hmem, hcols.1.1⟩

/-- The deliveries queued for a notification that is stored are well addressed. -/
theorem deliveriesOf_owned {input : PublishNotificationInput} {env : PublishEnv} {index : Nat}
    {recipient : Recipient} (hread : recipient.Read s)
    (hstored : notificationOf input env index recipient.id ∈ s.notifications.rows) :
    ∀ d ∈ deliveriesOf input env index recipient.pushInstallations,
      d.status = .pending ∧ s.Owned d := by
  intro d hd
  obtain ⟨⟨i, k⟩, hi, rfl⟩ := List.mem_map.mp hd
  obtain ⟨hmem, huser⟩ := hread i (List.fst_mem_of_mem_zipIdx hi)
  exact ⟨rfl, i, hmem, _, hstored, rfl, rfl, huser⟩

theorem meets_publishEach (input : PublishNotificationInput) (env : PublishEnv)
    {recipients : List Recipient} (hread : ∀ r ∈ recipients, r.Read s) (index : Nat)
    (ids : List Id) (result : PublishResult) :
    (publishEach input env recipients index ids result).Meets publishContract
      (fun _ _ => True) s := by
  induction ids generalizing s index result with
  | nil => trivial
  | cons recipientId rest ih =>
      unfold publishEach
      split
      · exact ih hread (index + 1) result
      · rename_i recipient hfound
        have hrecipient := List.mem_of_find?_eq_some hfound
        have hid : recipient.id = recipientId := by simpa using List.find?_some hfound
        refine meets_bind (meets_attempt (meets_writeNotification _)) fun r t hst hr => ?_
        have hread' : ∀ r ∈ recipients, r.Read t := fun r hr => (hread r hr).later hst
        cases r with
        | error e =>
            dsimp only
            split
            · exact ih hread' (index + 1) result
            · trivial
        | ok _ =>
            have hstored : notificationOf input env index recipient.id ∈ t.notifications.rows := by
              rw [hid]
              exact hr () rfl
            dsimp only
            split
            · refine meets_bind (meets_attempt (meets_createDeliveries
                (deliveriesOf_owned (hread' recipient hrecipient) hstored))) fun r u htu _ => ?_
              have hread'' : ∀ r ∈ recipients, r.Read u := fun r hr => (hread' r hr).later htu
              cases r with
              | error e =>
                  dsimp only
                  split
                  · exact ih hread'' (index + 1) _
                  · trivial
              | ok created => exact ih hread'' (index + 1) _
            · exact ih hread' (index + 1) _

theorem meets_publishTransaction (input : PublishNotificationInput) (env : PublishEnv) :
    (publishTransaction input env).Meets publishContract (fun _ _ => True) s := by
  unfold publishTransaction
  refine meets_bind (Q := fun _ _ => True) (meets_query fun _ _ _ => trivial) fun existing t _ _ => ?_
  dsimp only
  split
  · trivial
  · refine meets_bind (meets_query (Q := fun rs t => ∀ r ∈ rs, r.Read t)
      fun u _ _ => recipients_read _) fun recipients u _ hread => ?_
    exact meets_publishEach input env hread 0 _ _

end publish

section always
variable {P : PushDb → PushDb → List PushEvent → Prop} {input : PublishNotificationInput}
  {env : PublishEnv}

theorem always_publishEach {recipients : List Recipient} {ids : List Id}
    (hwrite : ∀ index, ∀ id ∈ ids,
      (writeDb (·.insertNotification (notificationOf input env index id))).Always P)
    (hcreate : ∀ ds, (createDeliveries ds).Always P) (index : Nat) (result : PublishResult) :
    (publishEach input env recipients index ids result).Always P := by
  induction ids generalizing index result with
  | nil => trivial
  | cons id ids ih =>
      have hrest := ih fun index id hid => hwrite index id (List.mem_cons_of_mem _ hid)
      unfold publishEach
      split
      · exact hrest _ _
      · refine always_bind (always_attempt (hwrite index id List.mem_cons_self)) fun r => ?_
        cases r with
        | error e =>
            dsimp only
            split
            · exact hrest _ _
            · trivial
        | ok _ =>
            dsimp only
            split
            · refine always_bind (always_attempt (hcreate _)) fun r => ?_
              cases r with
              | error e =>
                  dsimp only
                  split
                  · exact hrest _ _
                  · trivial
              | ok created => exact hrest _ _
            · exact hrest _ _

/-- The statements of `publish`: it reads, creates the notifications of its
recipients, and queues deliveries. -/
theorem always_publishTransaction (hsame : ∀ s, P s s [])
    (hwrite : ∀ index, ∀ id ∈ input.recipients,
      (writeDb (·.insertNotification (notificationOf input env index id))).Always P)
    (hcreate : ∀ ds, (createDeliveries ds).Always P) :
    (publishTransaction input env).Always P := by
  unfold publishTransaction
  refine always_bind (always_stmt hsame) fun existing => ?_
  dsimp only
  split
  · trivial
  · refine always_bind (always_stmt hsame) fun recipients => ?_
    exact always_publishEach (fun index id hid => hwrite index id (List.mem_filter.mp hid).1)
      hcreate 0 _

end always

/-- No statement of `publish` reports anything. -/
theorem publishTransaction_silent (input : PublishNotificationInput) (env : PublishEnv) :
    (publishTransaction input env).Always fun _ _ es => es = [] := by
  refine always_publishTransaction (fun _ => rfl) (fun index id _ => ?_) fun ds => ?_
  · exact always_stmt fun s => by split <;> rfl
  · exact always_stmt fun s => by split <;> rfl

end Feca.Push
