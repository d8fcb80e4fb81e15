import Feca.Push.Statements

/-! # Dispatching pending deliveries

A run of `dispatchPending` reads the deliveries that are due, cancels those
whose installation is inactive, and posts the others to Expo in batches,
recording one outcome for each delivery. Everything the run meets outside the
store (clock, replies, failing statements) is its environment.
-/

namespace Feca.Push

open Concurrency Concurrency.Prog Relational

def expoChannelId : String := "feca-default"
def maxSendBatchSize : Nat := 100
def maxSendAttempts : Nat := 5

inductive ExpoPushTicket
  | ok (id : String)
  | error (message errorCode : Option String)

inductive ExpoTicketData
  | one (ticket : ExpoPushTicket)
  | many (tickets : List ExpoPushTicket)

structure ExpoPushSendResponse where
  data : Option ExpoTicketData

def normalizeExpoTickets : Option ExpoTicketData → List ExpoPushTicket
  | none => []
  | some (.many tickets) => tickets
  | some (.one ticket) => [ticket]

/-- The database statements of a run, by batch and row where there are many. -/
inductive DispatchStatement
  | select
  | cancel
  | unread
  | outcome (batch index : Nat)
  | disable (batch index : Nat)
  | retry (batch index : Nat)

structure DispatchEnv where
  now : Date
  cancelledAt : Date
  sendAt : Nat → Date
  reply : Nat → HttpReply ExpoPushSendResponse
  fails : DispatchStatement → Option Thrown

structure DispatchResult where
  cancelled : Nat
  failed : Nat
  processed : Nat
  ticketed : Nat
  deriving DecidableEq, Repr

structure DispatchTally where
  ticketed : Nat := 0
  failed : Nat := 0

/-! ## Selection -/

/-- `orderBy: [{ scheduledFor: "asc" }, { createdAt: "asc" }]`. -/
def scheduledBefore (a b : PushDelivery) : Prop :=
  a.scheduledFor < b.scheduledFor ∨ (a.scheduledFor = b.scheduledFor ∧ a.createdAt ≤ b.createdAt)

instance : DecidableRel scheduledBefore := fun a b => by
  unfold scheduledBefore
  infer_instance

namespace PushDb

def due (s : PushDb) (now : Date) (limit : Nat) : List DeliveryRow :=
  (((s.deliveries.rows.filter fun d => d.scheduledFor ≤ now && d.status == .pending).insertionSort
    scheduledBefore).take limit).filterMap s.deliveryRow

theorem mem_due {s : PushDb} {now : Date} {limit : Nat} {r : DeliveryRow}
    (h : r ∈ s.due now limit) : ∃ d ∈ s.deliveries.rows, s.deliveryRow d = some r ∧
      d.status = .pending ∧ d.scheduledFor ≤ now := by
  obtain ⟨d, hd, hrow⟩ := List.mem_filterMap.mp h
  have hsorted := (List.mem_insertionSort _).mp (List.mem_of_mem_take hd)
  obtain ⟨hmem, hdue⟩ := List.mem_filter.mp hsorted
  simp only [Bool.and_eq_true, decide_eq_true_eq, beq_iff_eq] at hdue
  exact ⟨d, hmem, hrow, hdue.2, hdue.1⟩

/-- A run selects every delivery at most once. -/
theorem nodup_due (s : PushDb) (now : Date) (limit : Nat) :
    ((s.due now limit).map (·.id)).Nodup := by
  have hrows : ∀ ds : List PushDelivery, (∀ d ∈ ds, d ∈ s.deliveries.rows) →
      (ds.filterMap s.deliveryRow).map (·.id) = ds.map (·.id) := by
    intro ds hds
    induction ds with
    | nil => rfl
    | cons d ds ih =>
        have hsome := deliveryRow_isSome (hds d List.mem_cons_self)
        obtain ⟨r, hr⟩ := Option.isSome_iff_exists.mp hsome
        have hid : r.id = d.id := congrArg PushDelivery.id (deliveryRow_spec hr).1
        rw [List.filterMap_cons_some hr, List.map_cons, List.map_cons, hid,
          ih fun e he => hds e (List.mem_cons_of_mem _ he)]
  unfold due
  rw [hrows]
  · exact s.nodup_findMany_ids _ scheduledBefore limit
  · intro d hd
    exact (List.mem_filter.mp ((List.mem_insertionSort _).mp (List.mem_of_mem_take hd))).1

end PushDb

def selectDue (env : DispatchEnv) (limit : Nat) : PushProg (List DeliveryRow) :=
  statement (env.fails .select) fun s =>
    ⟨s, [.selected (s.due env.now limit)], .ok (s.due env.now limit)⟩

def isInactive (delivery : DeliveryRow) : Bool :=
  delivery.installation.disabledAt != none || delivery.installation.revokedAt != none ||
    delivery.installation.token == ""

def inactiveDeliveries (deliveries : List DeliveryRow) : List DeliveryRow :=
  deliveries.filter isInactive

def activeDeliveries (deliveries : List DeliveryRow) : List DeliveryRow :=
  deliveries.filter fun delivery =>
    !(inactiveDeliveries deliveries).any fun entry => entry.id == delivery.id

def cancelInactive (env : DispatchEnv) (inactive : List DeliveryRow) : PushProg Nat :=
  if inactive.length > 0 then
    updateDeliveries (env.fails .cancel) (fun d => (inactive.map (·.id)).contains d.id)
      { failedAt := some (some env.cancelledAt)
        lastError := some (some "Installation is inactive")
        status := .cancelled }
  else pure 0

/-! ## Messages -/

/-- `notification.groupBy`: users without unread notifications have no group. -/
def PushDb.unreadCounts (s : PushDb) (userIds : List Id) : List (Id × Nat) :=
  userIds.filterMap fun userId =>
    let unread := s.notifications.rows.filter fun n => n.readAt == none && n.userId == userId
    if unread.length = 0 then none else some (userId, unread.length)

def countUnread (env : DispatchEnv) (active : List DeliveryRow) : PushProg (List (Id × Nat)) :=
  statement (env.fails .unread) fun s =>
    ⟨s, [], .ok (s.unreadCounts (distinctIds (active.map (·.notification.userId))))⟩

def buildMessage (unreadCountByUserId : List (Id × Nat)) (delivery : DeliveryRow) : ExpoMessage :=
  let presentation := serializeNotification delivery.notification
  { badge := unreadCountByUserId.lookup delivery.notification.userId
    body := presentation.body
    channelId := expoChannelId
    deepLink := presentation.deepLink
    notificationId := presentation.id
    type := presentation.type
    priority := "high"
    sound := "default"
    title := presentation.title
    «to» := delivery.installation.token }

/-! ## Outcomes -/

/-- The `data` of an accepted ticket. -/
def ticketedData (delivery : DeliveryRow) (ticketId : String) (sendAt : Date) : DeliveryData :=
  { attemptCount := some (delivery.attemptCount + 1)
    expoTicketId := some (some ticketId)
    failedAt := some none
    lastError := some none
    sentAt := some (some sendAt)
    status := .ticketed }

/-- The `data` of a refused ticket or of a failed batch. -/
def unsentData (delivery : DeliveryRow) (permanent : Bool) (message : String) (sendAt : Date) :
    DeliveryData :=
  let failed := permanent || delivery.attemptCount + 1 ≥ maxSendAttempts
  { attemptCount := some (delivery.attemptCount + 1)
    failedAt := some (if failed then some sendAt else none)
    lastError := some (some message)
    sentAt := some (if failed then some sendAt else none)
    status := if failed then .failed else .pending }

/-- `if (nextStatus === "failed") failed += 1`. -/
def DispatchTally.count (tally : DispatchTally) (data : DeliveryData) : DispatchTally :=
  if data.status = .failed then { tally with failed := tally.failed + 1 } else tally

def recordTicket (env : DispatchEnv) (batch index : Nat) (delivery : DeliveryRow)
    (ticket : ExpoPushTicket) (tally : DispatchTally) : PushProg DispatchTally :=
  match ticket with
  | .ok id => do
      updateDelivery (env.fails (.outcome batch index)) delivery.id
        (ticketedData delivery id (env.sendAt batch))
      pure { tally with ticketed := tally.ticketed + 1 }
  | .error message errorCode => do
      let data := unsentData delivery (isPermanentExpoError errorCode)
        (buildExpoErrorMessage message errorCode) (env.sendAt batch)
      updateDelivery (env.fails (.outcome batch index)) delivery.id data
      if shouldDisableInstallation errorCode then
        disableInstallation (env.fails (.disable batch index)) delivery.installation.id
          (env.sendAt batch)
      pure (tally.count data)

/-- The loop over the tickets of a batch, with the counters it reached and what
stopped it. -/
def recordTickets (env : DispatchEnv) (batch : Nat) :
    Nat → List (DeliveryRow × ExpoPushTicket) → DispatchTally →
      PushProg (DispatchTally × Option Thrown)
  | _, [], tally => pure (tally, none)
  | index, (delivery, ticket) :: rest, tally => do
      match ← (recordTicket env batch index delivery ticket tally).attempt with
      | .ok tally => recordTickets env batch (index + 1) rest tally
      | .error e => pure (tally, some e)

/-- The `try` block of a batch. -/
def sendBatch (env : DispatchEnv) (unreadCountByUserId : List (Id × Nat)) (batch : Nat)
    (deliveries : List DeliveryRow) (tally : DispatchTally) :
    PushProg (DispatchTally × Option Thrown) := do
  let messages := deliveries.map (buildMessage unreadCountByUserId)
  match ← (postExpo (.posted deliveries messages) (env.reply batch)).attempt with
  | .error e => pure (tally, some e)
  | .ok response =>
      let tickets := normalizeExpoTickets response.data
      if tickets.length ≠ deliveries.length then
        pure (tally, some (.error "Expo push tickets count mismatch"))
      else recordTickets env batch 0 (deliveries.zip tickets) tally

/-- The loop of the `catch` block: every delivery of the batch, whatever the
`try` block had already recorded for it. -/
def retryBatch (env : DispatchEnv) (batch : Nat) (message : String) :
    Nat → List DeliveryRow → DispatchTally → PushProg DispatchTally
  | _, [], tally => pure tally
  | index, delivery :: rest, tally => do
      let data := unsentData delivery false message (env.sendAt batch)
      updateDelivery (env.fails (.retry batch index)) delivery.id data
      retryBatch env batch message (index + 1) rest (tally.count data)

def dispatchBatch (env : DispatchEnv) (unreadCountByUserId : List (Id × Nat)) (batch : Nat)
    (deliveries : List DeliveryRow) (tally : DispatchTally) : PushProg DispatchTally := do
  let (tally, thrown) ← sendBatch env unreadCountByUserId batch deliveries tally
  match thrown with
  | none => pure tally
  | some e => retryBatch env batch (e.messageOr "Expo push send failed") 0 deliveries tally

def dispatchBatches (env : DispatchEnv) (unreadCountByUserId : List (Id × Nat)) :
    Nat → List (List DeliveryRow) → DispatchTally → PushProg DispatchTally
  | _, [], tally => pure tally
  | batch, deliveries :: rest, tally => do
      let tally ← dispatchBatch env unreadCountByUserId batch deliveries tally
      dispatchBatches env unreadCountByUserId (batch + 1) rest tally

/-- What a run does with the deliveries it selected. -/
def dispatchDeliveries (env : DispatchEnv) (deliveries : List DeliveryRow) :
    PushProg DispatchResult :=
  if deliveries.length = 0 then pure ⟨0, 0, 0, 0⟩
  else do
    let cancelled ← cancelInactive env (inactiveDeliveries deliveries)
    let active := activeDeliveries deliveries
    if active.length = 0 then pure ⟨cancelled, 0, deliveries.length, 0⟩
    else do
      let unreadCountByUserId ← countUnread env active
      let tally ← dispatchBatches env unreadCountByUserId 0 (chunk active maxSendBatchSize) {}
      pure ⟨cancelled, tally.failed, deliveries.length, tally.ticketed⟩

def dispatchPending (env : DispatchEnv) (limit : Nat) : PushProg DispatchResult :=
  selectDue env limit >>= dispatchDeliveries env

/-! ## The law of a run -/

/-- What a run may report once it has selected `rows`: batches of active rows,
cancellations of inactive ones, and outcomes that advance the attempt count the
row had when it was read. -/
inductive DispatchEvent (rows : List DeliveryRow) : PushEvent → Prop
  | posted {batch : List DeliveryRow} (unreadCountByUserId : List (Id × Nat))
      (active : ∀ r ∈ batch, r ∈ activeDeliveries rows) :
      DispatchEvent rows (.posted batch (batch.map (buildMessage unreadCountByUserId)))
  | cancelled {r : DeliveryRow} {d : PushDelivery} {data : DeliveryData}
      (inactive : r ∈ inactiveDeliveries rows) (row : d.id = r.id)
      (attempt : data.attemptCount = none) (status : data.status = .cancelled) :
      DispatchEvent rows (.wrote d (d.set data))
  | recorded {r : DeliveryRow} {d : PushDelivery} {data : DeliveryData}
      (active : r ∈ activeDeliveries rows) (row : d.id = r.id)
      (attempt : data.attemptCount = some (r.attemptCount + 1)) :
      DispatchEvent rows (.wrote d (d.set data))

def DispatchLaw (rows : List DeliveryRow) (s t : PushDb) (es : List PushEvent) : Prop :=
  Accounted s t es ∧ ∀ e ∈ es, DispatchEvent rows e

theorem mem_of_mem_active {rows : List DeliveryRow} {r : DeliveryRow}
    (h : r ∈ activeDeliveries rows) : r ∈ rows := (List.mem_filter.mp h).1

theorem mem_of_mem_inactive {rows : List DeliveryRow} {r : DeliveryRow}
    (h : r ∈ inactiveDeliveries rows) : r ∈ rows := (List.mem_filter.mp h).1

/-- An active row shares its id with no inactive one. -/
theorem active_ne_inactive {rows : List DeliveryRow} {r q : DeliveryRow}
    (hr : r ∈ activeDeliveries rows) (hq : q ∈ inactiveDeliveries rows) : q.id ≠ r.id := by
  have h := (List.mem_filter.mp hr).2
  simp only [Bool.not_eq_true', List.any_eq_false, beq_iff_eq] at h
  exact h q hq

section law
variable {rows : List DeliveryRow}

theorem updateDelivery_law {fails : Option Thrown} {r : DeliveryRow} {data : DeliveryData}
    (hr : r ∈ activeDeliveries rows) (hdata : data.attemptCount = some (r.attemptCount + 1)) :
    (updateDelivery fails r.id data).Always (DispatchLaw rows) :=
  (accounted_updateDelivery fails r.id data).and
    (emits_updateDelivery fun _ hid => .recorded hr hid hdata)

theorem recordTicket_law (env : DispatchEnv) (batch index : Nat) {r : DeliveryRow}
    (hr : r ∈ activeDeliveries rows) (ticket : ExpoPushTicket) (tally : DispatchTally) :
    (recordTicket env batch index r ticket tally).Always (DispatchLaw rows) := by
  cases ticket with
  | ok id => exact always_bind (updateDelivery_law hr rfl) fun _ => trivial
  | error message errorCode =>
      refine always_bind (updateDelivery_law hr rfl) fun _ => ?_
      split
      · refine always_bind ?_ fun _ => trivial
        exact (accounted_disableInstallation _ _ _).and (emits_disableInstallation _ _ _)
      · trivial

theorem recordTickets_law (env : DispatchEnv) (batch index : Nat)
    {pairs : List (DeliveryRow × ExpoPushTicket)}
    (hpairs : ∀ p ∈ pairs, p.1 ∈ activeDeliveries rows) (tally : DispatchTally) :
    (recordTickets env batch index pairs tally).Always (DispatchLaw rows) := by
  induction pairs generalizing index tally with
  | nil => trivial
  | cons p pairs ih =>
      have hhead := recordTicket_law env batch index (hpairs p List.mem_cons_self) p.2 tally
      refine always_bind (always_attempt hhead) fun r => ?_
      cases r with
      | ok tally' => exact ih (index + 1) (fun q hq => hpairs q (List.mem_cons_of_mem _ hq)) tally'
      | error e => trivial

theorem sendBatch_law (env : DispatchEnv) (unreadCountByUserId : List (Id × Nat)) (batch : Nat)
    {deliveries : List DeliveryRow} (hactive : ∀ r ∈ deliveries, r ∈ activeDeliveries rows)
    (tally : DispatchTally) :
    (sendBatch env unreadCountByUserId batch deliveries tally).Always (DispatchLaw rows) := by
  have hpost : (postExpo (.posted deliveries (deliveries.map (buildMessage unreadCountByUserId)))
      (env.reply batch)).Always (DispatchLaw rows) :=
    (accounted_postExpo (by simp)).and (emits_postExpo (.posted unreadCountByUserId hactive))
  refine always_bind (always_attempt hpost) fun r => ?_
  cases r with
  | error e => trivial
  | ok response =>
      dsimp only
      split
      · trivial
      · exact recordTickets_law env batch 0
          (fun p hp => hactive p.1 (List.of_mem_zip hp).1) tally

theorem retryBatch_law (env : DispatchEnv) (batch : Nat) (message : String) (index : Nat)
    {deliveries : List DeliveryRow} (hactive : ∀ r ∈ deliveries, r ∈ activeDeliveries rows)
    (tally : DispatchTally) :
    (retryBatch env batch message index deliveries tally).Always (DispatchLaw rows) := by
  induction deliveries generalizing index tally with
  | nil => trivial
  | cons r deliveries ih =>
      refine always_bind (updateDelivery_law (hactive r List.mem_cons_self) rfl) fun _ => ?_
      exact ih (index + 1) (fun q hq => hactive q (List.mem_cons_of_mem _ hq)) _

theorem dispatchBatch_law (env : DispatchEnv) (unreadCountByUserId : List (Id × Nat))
    (batch : Nat) {deliveries : List DeliveryRow}
    (hactive : ∀ r ∈ deliveries, r ∈ activeDeliveries rows) (tally : DispatchTally) :
    (dispatchBatch env unreadCountByUserId batch deliveries tally).Always (DispatchLaw rows) := by
  refine always_bind (sendBatch_law env _ batch hactive tally) fun r => ?_
  obtain ⟨tally', thrown⟩ := r
  cases thrown with
  | none => trivial
  | some e => exact retryBatch_law env batch _ 0 hactive tally'

theorem dispatchBatches_law (env : DispatchEnv) (unreadCountByUserId : List (Id × Nat))
    (batch : Nat) {batches : List (List DeliveryRow)}
    (hactive : ∀ b ∈ batches, ∀ r ∈ b, r ∈ activeDeliveries rows) (tally : DispatchTally) :
    (dispatchBatches env unreadCountByUserId batch batches tally).Always (DispatchLaw rows) := by
  induction batches generalizing batch tally with
  | nil => trivial
  | cons b batches ih =>
      refine always_bind (dispatchBatch_law env _ batch (hactive b List.mem_cons_self) tally)
        fun _ => ?_
      exact ih (batch + 1) (fun c hc => hactive c (List.mem_cons_of_mem _ hc)) _

theorem cancelInactive_law (env : DispatchEnv) :
    (cancelInactive env (inactiveDeliveries rows)).Always (DispatchLaw rows) := by
  unfold cancelInactive
  split
  · refine (accounted_updateDeliveries _ _ _).and (emits_updateDeliveries fun d hd => ?_)
    obtain ⟨r, hr, hid⟩ := List.mem_map.mp (List.contains_iff_mem.mp hd)
    exact .cancelled hr hid.symm rfl rfl
  · trivial

/-- Every statement a run executes after its selection obeys the law of the
selected rows. -/
theorem dispatchDeliveries_law (env : DispatchEnv) (rows : List DeliveryRow) :
    (dispatchDeliveries env rows).Always (DispatchLaw rows) := by
  unfold dispatchDeliveries
  split
  · trivial
  · refine always_bind (cancelInactive_law env) fun cancelled => ?_
    dsimp only
    split
    · trivial
    · have hunread : (countUnread env (activeDeliveries rows)).Always (DispatchLaw rows) :=
        always_statement (fun s => ⟨.refl s (by simp), by simp⟩)
          fun s => ⟨.refl s (by simp), by simp⟩
      refine always_bind hunread fun unread => always_bind ?_ fun tally => trivial
      exact dispatchBatches_law env unread 0 (fun b hb r hr => mem_of_mem_chunk hb hr) {}

end law

end Feca.Push
