import Mathlib.Logic.Relation
import Feca.Concurrency.RelyGuarantee
import Feca.Push.Publish

/-! # Publishing side by side

`publish` catches a duplicate in the middle of its transaction, so it matters
what other transactions do between two of its statements, and what the database
makes of a transaction in which a statement has failed. Here the statements of
many calls interleave. A row is visible to its own transaction at once and to
the others when it is committed; the unique index sees every row; after a failed
statement all others fail, and the end of the transaction is its rollback.
-/

namespace Feca.Push

open Concurrency Concurrency.Prog Relational

/-- The store without some notifications and without their deliveries. -/
def PushDb.eraseNotifications (s : PushDb) (p : Id → Bool) : PushDb where
  users := s.users
  settings := s.settings
  notifications := s.notifications.erase fun n => p n.id
  installations := s.installations
  deliveries := s.deliveries.erase fun d => p d.notificationId
  delivery_notification := by
    intro d hd
    rw [Table.rows_erase, List.mem_filter] at hd
    obtain ⟨n, hn, hid⟩ := s.delivery_notification d hd.1
    refine ⟨n, ?_, hid⟩
    rw [Table.rows_erase, List.mem_filter, hid]
    exact ⟨hn, hd.2⟩
  delivery_installation := by
    intro d hd
    rw [Table.rows_erase, List.mem_filter] at hd
    exact s.delivery_installation d hd.1

theorem PushDb.mem_eraseNotifications {s : PushDb} {p : Id → Bool} {n : Notification} :
    n ∈ (s.eraseNotifications p).notifications.rows ↔
      n ∈ s.notifications.rows ∧ p n.id = false := by
  show n ∈ (s.notifications.erase fun n => p n.id).rows ↔ _
  rw [Table.rows_erase, List.mem_filter, Bool.not_eq_true']

/-! ## The shared store -/

/-- Every stored row; the open transaction that has inserted a notification, if
it is not committed; the transactions in which a statement has failed. -/
structure SharedDb (ι : Type) where
  db : PushDb
  writer : Id → Option ι := fun _ => none
  aborted : ι → Bool := fun _ => false

/-- What the database answers in a transaction that has failed. -/
def inFailedTransaction : Thrown :=
  .error "current transaction is aborted, commands ignored until end of transaction block"

/-- `P2034`. -/
def deadlockDetected : Thrown :=
  .known "P2034" "Transaction failed due to a write conflict or a deadlock"

namespace SharedDb

variable {ι : Type} [DecidableEq ι] (s : SharedDb ι) (i : ι)

/-- What the statements of `i` read: committed rows and its own. -/
def seenBy : PushDb := s.db.eraseNotifications fun id => (s.writer id).any (· != i)

def committed : PushDb := s.db.eraseNotifications fun id => (s.writer id).isSome

/-- A row of another open transaction stands in the way of a new one. -/
def blocks (n : Notification) : Bool :=
  s.db.notifications.rows.any fun m => conflicts m n && (s.writer m.id).any (· != i)

/-- Who inserts a row that another open transaction blocks waits until that one
ends, so the insertion goes ahead only to be refused in a deadlock. -/
def createNotification (n : Notification) : Except Thrown (Unit × SharedDb ι) :=
  if s.blocks i n then .error deadlockDetected
  else (s.db.insertNotification n).map fun db =>
    ((), { s with db, writer := Function.update s.writer n.id (some i) })

def createDeliveries (ds : List PushDelivery) : Except Thrown (Nat × SharedDb ι) :=
  (s.db.insertDeliveries ds).map fun db =>
    (db.deliveries.rows.length - s.db.deliveries.rows.length, { s with db })

def fail : SharedDb ι := { s with aborted := Function.update s.aborted i true }

/-- Nothing of `i` is open any more. -/
def close (db : PushDb) : SharedDb ι where
  db := db
  writer id := if s.writer id = some i then none else s.writer id
  aborted := Function.update s.aborted i false

def commit : SharedDb ι := s.close i s.db

def rollback : SharedDb ι := s.close i (s.db.eraseNotifications fun id => s.writer id == some i)

end SharedDb

/-! ## Statements of a transaction -/

/-- The events are the notifications that are about to be created. -/
abbrev SharedProg (ι : Type) := Prog (SharedDb ι) Notification Thrown

section statements

variable {ι : Type} [DecidableEq ι] {α : Type} (i : ι)

/-- A statement of the open transaction of `i`. -/
def statementOf (creates : List Notification)
    (run : SharedDb ι → Except Thrown (α × SharedDb ι)) : SharedProg ι α :=
  stmt fun s =>
    if s.aborted i then ⟨s, creates, .error inFailedTransaction⟩
    else match run s with
      | .ok (a, t) => ⟨t, creates, .ok a⟩
      | .error e => ⟨s.fail i, creates, .error e⟩

/-- `COMMIT` rolls a failed transaction back, and says nothing. -/
def commit : SharedProg ι Unit :=
  stmt fun s => ⟨if s.aborted i then s.rollback i else s.commit i, [], .ok ()⟩

def rollback : SharedProg ι Unit := stmt fun s => ⟨s.rollback i, [], .ok ()⟩

/-- `$transaction`, statement by statement. -/
def inTransaction (body : SharedProg ι α) : SharedProg ι α := do
  match ← body.attempt with
  | .ok a => do
      commit i
      pure a
  | .error e => do
      rollback i
      .fail e

end statements

/-! ## publish -/

/-- The statements `publish` is made of, on whatever store they run. -/
structure PublishStatements (σ ε : Type) where
  notifiedUserIds : Option String → List Id → Prog σ ε Thrown (List Id)
  recipients : List Id → Prog σ ε Thrown (List Recipient)
  createNotification : Notification → Prog σ ε Thrown Unit
  createDeliveries : List PushDelivery → Prog σ ε Thrown Nat

namespace PublishStatements

variable {σ ε : Type} (db : PublishStatements σ ε)

/-- The loop over the candidates. A dedupe conflict skips a recipient. -/
def publishEach (input : PublishNotificationInput) (env : PublishEnv)
    (recipients : List Recipient) :
    Nat → List Id → PublishResult → Prog σ ε Thrown PublishResult
  | _, [], result => pure result
  | index, recipientId :: rest, result =>
      match recipients.find? (·.id == recipientId) with
      | none => publishEach input env recipients (index + 1) rest result
      | some recipient => do
          match ← (db.createNotification (notificationOf input env index recipientId)).attempt with
          | .error e =>
              if isNotificationDedupeConflict e input.dedupeKey then
                publishEach input env recipients (index + 1) rest result
              else .fail e
          | .ok _ =>
              let result := { result with count := result.count + 1 }
              if recipient.pushEnabled.getD true && recipient.pushInstallations.length > 0 then
                match ← (db.createDeliveries
                    (deliveriesOf input env index recipient.pushInstallations)).attempt with
                | .error e =>
                    if isNotificationDedupeConflict e input.dedupeKey then
                      publishEach input env recipients (index + 1) rest result
                    else .fail e
                | .ok created =>
                    publishEach input env recipients (index + 1) rest
                      { result with deliveryCount := result.deliveryCount + created }
              else publishEach input env recipients (index + 1) rest result

/-- What `publish` does inside its transaction. -/
def publishBody (input : PublishNotificationInput) (env : PublishEnv) :
    Prog σ ε Thrown PublishResult := do
  let existing ← db.notifiedUserIds input.dedupeKey input.recipients
  let candidates := input.recipients.filter fun id => !existing.contains id
  if candidates.length = 0 then pure ⟨0, 0⟩
  else do
    let recipients ← db.recipients candidates
    db.publishEach input env recipients 0 candidates ⟨0, 0⟩

end PublishStatements

/-- The statements on a store nobody else touches. -/
def aloneStatements : PublishStatements PushDb PushEvent where
  notifiedUserIds dedupeKey ids := query fun s => s.notifiedUserIds dedupeKey ids
  recipients ids := query fun s => s.recipients ids
  createNotification n := writeDb (·.insertNotification n)
  createDeliveries := createDeliveries

theorem publishEach_alone (input : PublishNotificationInput) (env : PublishEnv)
    (recipients : List Recipient) (index : Nat) (ids : List Id) (result : PublishResult) :
    aloneStatements.publishEach input env recipients index ids result =
      publishEach input env recipients index ids result := by
  induction ids generalizing index result with
  | nil => rfl
  | cons id ids ih =>
      unfold PublishStatements.publishEach publishEach
      simp only [ih]
      rfl

/-- Alone, the body is the transaction of `publish`. -/
theorem publishBody_alone (input : PublishNotificationInput) (env : PublishEnv) :
    aloneStatements.publishBody input env = publishTransaction input env := by
  unfold PublishStatements.publishBody publishTransaction
  simp only [publishEach_alone]
  rfl

section calls

variable {ι : Type} [DecidableEq ι]

/-- The statements in the open transaction of `i`. -/
def statementsOf (i : ι) : PublishStatements (SharedDb ι) Notification where
  notifiedUserIds dedupeKey ids :=
    statementOf i [] fun s => .ok ((s.seenBy i).notifiedUserIds dedupeKey ids, s)
  recipients ids := statementOf i [] fun s => .ok ((s.seenBy i).recipients ids, s)
  createNotification n := statementOf i [n] fun s => s.createNotification i n
  createDeliveries ds := statementOf i [] fun s => s.createDeliveries ds

/-- `publish`, called by `i`. -/
def publishBy (i : ι) (input : PublishNotificationInput) (env : PublishEnv) :
    SharedProg ι PublishResult :=
  if input.recipients.length = 0 then pure ⟨0, 0⟩
  else inTransaction i ((statementsOf i).publishBody input env)

abbrev PublishSystem (ι : Type) :=
  Config ι (SharedDb ι) Notification Thrown (Except Thrown PublishResult)

/-- Every call is about to begin. -/
def publishing (s : PushDb) (input : ι → PublishNotificationInput) (env : ι → PublishEnv) :
    PublishSystem ι :=
  ⟨{ db := s }, fun i => (publishBy i (input i) (env i)).attempt, []⟩

/-- A row that `j` has inserted and not yet committed is in the way of `i`. -/
def WaitsFor (c : PublishSystem ι) (i j : ι) : Prop :=
  j ≠ i ∧ c.store.aborted i = false ∧ ∃ n ∈ c.upcoming i, ∃ m ∈ c.store.db.notifications.rows,
    conflicts m n = true ∧ c.store.writer m.id = some j

/-- The database lets a call move unless it waits for another one; of calls that
wait for one another in a circle it refuses one. -/
def Runs (c : PublishSystem ι) (i : ι) : Prop :=
  (∀ j, ¬ WaitsFor c i j) ∨ Relation.TransGen (WaitsFor c) i i

end calls

end Feca.Push
