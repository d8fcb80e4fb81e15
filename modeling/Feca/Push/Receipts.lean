import Feca.Push.Dispatch

/-! # Receipts

A run of `syncReceipts` reads the ticketed deliveries, asks Expo for their
receipts and records those that have arrived.
-/

namespace Feca.Push

open Concurrency Concurrency.Prog Relational

def maxReceiptBatchSize : Nat := 300

structure ExpoPushReceipt where
  ok : Bool
  message : Option String
  errorCode : Option String

structure ExpoPushReceiptsResponse where
  data : Option (String → Option ExpoPushReceipt)

inductive ReceiptStatement
  | select
  | outcome (batch index : Nat)
  | disable (batch index : Nat)

structure ReceiptEnv where
  handledAt : Nat → Date
  reply : Nat → HttpReply ExpoPushReceiptsResponse
  fails : ReceiptStatement → Option Thrown

structure ReceiptResult where
  checked : Nat
  delivered : Nat
  failed : Nat
  deriving DecidableEq, Repr

structure ReceiptTally where
  delivered : Nat := 0
  failed : Nat := 0

/-- `orderBy: [{ sentAt: "asc" }, { createdAt: "asc" }]`, nulls last. -/
def sentBefore (a b : PushDelivery) : Prop :=
  match a.sentAt, b.sentAt with
  | some x, some y => x < y ∨ (x = y ∧ a.createdAt ≤ b.createdAt)
  | some _, none => True
  | none, some _ => False
  | none, none => a.createdAt ≤ b.createdAt

instance : DecidableRel sentBefore := fun a b => by
  unfold sentBefore
  split <;> infer_instance

def PushDb.ticketed (s : PushDb) (limit : Nat) : List PushDelivery :=
  ((s.deliveries.rows.filter fun d => d.expoTicketId != none && d.status == .ticketed).insertionSort
    sentBefore).take limit

theorem PushDb.mem_ticketed {s : PushDb} {limit : Nat} {d : PushDelivery}
    (h : d ∈ s.ticketed limit) : d ∈ s.deliveries.rows ∧ d.status = .ticketed := by
  have hsorted := (List.mem_insertionSort _).mp (List.mem_of_mem_take h)
  obtain ⟨hmem, hcols⟩ := List.mem_filter.mp hsorted
  simp only [Bool.and_eq_true, beq_iff_eq] at hcols
  exact ⟨hmem, hcols.2⟩

theorem PushDb.nodup_ticketed (s : PushDb) (limit : Nat) :
    ((s.ticketed limit).map (·.id)).Nodup :=
  s.nodup_findMany_ids _ sentBefore limit

def selectTicketed (env : ReceiptEnv) (limit : Nat) : PushProg (List PushDelivery) :=
  statement (env.fails .select) fun s =>
    ⟨s, [.polled (s.ticketed limit)], .ok (s.ticketed limit)⟩

def deliveredData (handledAt : Date) : DeliveryData :=
  { deliveredAt := some (some handledAt)
    failedAt := some none
    lastError := some none
    status := .delivered }

def undeliveredData (receipt : ExpoPushReceipt) (handledAt : Date) : DeliveryData :=
  { failedAt := some (some handledAt)
    lastError := some (some (buildExpoErrorMessage receipt.message receipt.errorCode))
    status := .failed }

def recordReceipt (env : ReceiptEnv) (batch index : Nat) (delivery : PushDelivery)
    (receipt : ExpoPushReceipt) (tally : ReceiptTally) : PushProg ReceiptTally :=
  if receipt.ok then do
    updateDelivery (env.fails (.outcome batch index)) delivery.id
      (deliveredData (env.handledAt batch))
    pure { tally with delivered := tally.delivered + 1 }
  else do
    updateDelivery (env.fails (.outcome batch index)) delivery.id
      (undeliveredData receipt (env.handledAt batch))
    if shouldDisableInstallation receipt.errorCode then
      disableInstallation (env.fails (.disable batch index)) delivery.installationId
        (env.handledAt batch)
    pure { tally with failed := tally.failed + 1 }

/-- The receipt that has arrived for a delivery, if any. -/
def receiptOf (receipts : String → Option ExpoPushReceipt) (delivery : PushDelivery) :
    Option ExpoPushReceipt :=
  (delivery.expoTicketId.bind orNull).bind receipts

/-- The loop over the receipts of a batch; whatever stops it is only logged. -/
def recordReceipts (env : ReceiptEnv) (batch : Nat) (receipts : String → Option ExpoPushReceipt) :
    Nat → List PushDelivery → ReceiptTally → PushProg ReceiptTally
  | _, [], tally => pure tally
  | index, delivery :: rest, tally =>
      match receiptOf receipts delivery with
      | none => recordReceipts env batch receipts (index + 1) rest tally
      | some receipt => do
          match ← (recordReceipt env batch index delivery receipt tally).attempt with
          | .ok tally => recordReceipts env batch receipts (index + 1) rest tally
          | .error _ => pure tally

def receiptBatch (env : ReceiptEnv) (batch : Nat) (deliveries : List PushDelivery)
    (tally : ReceiptTally) : PushProg ReceiptTally :=
  let receiptIds := deliveries.filterMap fun d => d.expoTicketId.bind orNull
  if receiptIds.length = 0 then pure tally
  else do
    match ← (postExpo (.asked receiptIds) (env.reply batch)).attempt with
    | .error _ => pure tally
    | .ok response =>
        recordReceipts env batch (response.data.getD fun _ => none) 0 deliveries tally

def receiptBatches (env : ReceiptEnv) :
    Nat → List (List PushDelivery) → ReceiptTally → PushProg ReceiptTally
  | _, [], tally => pure tally
  | batch, deliveries :: rest, tally => do
      let tally ← receiptBatch env batch deliveries tally
      receiptBatches env (batch + 1) rest tally

def receiptDeliveries (env : ReceiptEnv) (deliveries : List PushDelivery) :
    PushProg ReceiptResult :=
  if deliveries.length = 0 then pure ⟨0, 0, 0⟩
  else do
    let tally ← receiptBatches env 0 (chunk deliveries maxReceiptBatchSize) {}
    pure ⟨deliveries.length, tally.delivered, tally.failed⟩

def syncReceipts (env : ReceiptEnv) (limit : Nat) : PushProg ReceiptResult :=
  selectTicketed env limit >>= receiptDeliveries env

/-! ## The law of a run -/

/-- What a run may report once it has read `rows`. -/
inductive ReceiptEvent (rows : List PushDelivery) : PushEvent → Prop
  | asked (ids : List String) : ReceiptEvent rows (.asked ids)
  | recorded {r d : PushDelivery} {data : DeliveryData} (read : r ∈ rows) (row : d.id = r.id)
      (attempt : data.attemptCount = none)
      (status : data.status = .delivered ∨ data.status = .failed) :
      ReceiptEvent rows (.wrote d (d.set data))

def ReceiptLaw (rows : List PushDelivery) (s t : PushDb) (es : List PushEvent) : Prop :=
  Accounted s t es ∧ ∀ e ∈ es, ReceiptEvent rows e

section law
variable {rows : List PushDelivery}

theorem recordReceipt_law (env : ReceiptEnv) (batch index : Nat) {d : PushDelivery}
    (hd : d ∈ rows) (receipt : ExpoPushReceipt) (tally : ReceiptTally) :
    (recordReceipt env batch index d receipt tally).Always (ReceiptLaw rows) := by
  have hupdate : ∀ data : DeliveryData, data.attemptCount = none →
      data.status = .delivered ∨ data.status = .failed →
      (updateDelivery (env.fails (.outcome batch index)) d.id data).Always (ReceiptLaw rows) :=
    fun data hattempt hstatus => (accounted_updateDelivery _ d.id data).and
      (emits_updateDelivery fun _ hid => .recorded hd hid hattempt hstatus)
  unfold recordReceipt
  split
  · exact always_bind (hupdate _ rfl (.inl rfl)) fun _ => trivial
  · refine always_bind (hupdate _ rfl (.inr rfl)) fun _ => ?_
    split
    · refine always_bind ?_ fun _ => trivial
      exact (accounted_disableInstallation _ _ _).and (emits_disableInstallation _ _ _)
    · trivial

theorem recordReceipts_law (env : ReceiptEnv) (batch : Nat)
    (receipts : String → Option ExpoPushReceipt) (index : Nat) {ds : List PushDelivery}
    (hds : ∀ d ∈ ds, d ∈ rows) (tally : ReceiptTally) :
    (recordReceipts env batch receipts index ds tally).Always (ReceiptLaw rows) := by
  induction ds generalizing index tally with
  | nil => trivial
  | cons d ds ih =>
      have hrest := fun q hq => hds q (List.mem_cons_of_mem d hq)
      unfold recordReceipts
      split
      · exact ih (index + 1) hrest tally
      · rename_i receipt _
        have hhead := recordReceipt_law env batch index (hds d List.mem_cons_self) receipt tally
        refine always_bind (always_attempt hhead) fun r => ?_
        cases r with
        | ok tally' => exact ih (index + 1) hrest tally'
        | error e => trivial

theorem receiptBatches_law (env : ReceiptEnv) (batch : Nat) {batches : List (List PushDelivery)}
    (hrows : ∀ b ∈ batches, ∀ d ∈ b, d ∈ rows) (tally : ReceiptTally) :
    (receiptBatches env batch batches tally).Always (ReceiptLaw rows) := by
  induction batches generalizing batch tally with
  | nil => trivial
  | cons b batches ih =>
      refine always_bind ?_ fun tally' =>
        ih (batch + 1) (fun c hc => hrows c (List.mem_cons_of_mem _ hc)) tally'
      unfold receiptBatch
      dsimp only
      split
      · trivial
      · refine always_bind (always_attempt ?_) fun r => ?_
        · exact (accounted_postExpo (by simp)).and (emits_postExpo (.asked _))
        · cases r with
          | error e => trivial
          | ok response =>
              exact recordReceipts_law env batch _ 0 (hrows b List.mem_cons_self) tally

theorem receiptDeliveries_law (env : ReceiptEnv) (rows : List PushDelivery) :
    (receiptDeliveries env rows).Always (ReceiptLaw rows) := by
  unfold receiptDeliveries
  split
  · trivial
  · refine always_bind ?_ fun _ => trivial
    exact receiptBatches_law env 0 (fun b hb d hd => mem_of_mem_chunk hb hd) {}

end law

end Feca.Push
