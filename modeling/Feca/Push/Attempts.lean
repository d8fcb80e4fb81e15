import Feca.Push.Interrupted

/-! # Attempts

Runs that do not overlap, with writes that succeed: every active delivery that
a run selects is posted once and meets its own ticket, and its attempt count
counts its posts.
-/

namespace Feca.Push

open Concurrency Concurrency.Prog Relational

/-- No database statement of the run fails. -/
def DispatchEnv.Succeeds (env : DispatchEnv) : Prop := ∀ a, env.fails a = none

theorem DispatchEnv.Succeeds.oneFailure {env : DispatchEnv} (henv : env.Succeeds) :
    env.OneFailure := fun a _ ha => absurd (henv a) ha

theorem DispatchEnv.Succeeds.stopped {env : DispatchEnv} (henv : env.Succeeds) (batch index : Nat)
    (ticket : ExpoPushTicket) : stopped env batch index ticket = none := by
  by_contra hstop
  rcases stopped_fails hstop with hfails | hfails
  · exact hfails (henv _)
  · exact hfails (henv _)

/-! ## What a delivery meets -/

/-- The ticket at a position of a batch, where Expo answered with a ticket for
each delivery. -/
def TicketAt (env : DispatchEnv) (batch : Nat) (deliveries : List DeliveryRow) (index : Nat)
    (ticket : ExpoPushTicket) : Prop :=
  ∃ tickets, Answered env batch deliveries tickets ∧ tickets[index]? = some ticket

/-- What the delivery at a position of a batch is written with. -/
def Meets (env : DispatchEnv) (batch : Nat) (deliveries : List DeliveryRow) (index : Nat)
    (r : DeliveryRow) (data : DeliveryData) : Prop :=
  (∃ ticket, TicketAt env batch deliveries index ticket ∧ data = ticketData env batch r ticket) ∨
    ((∀ tickets, ¬ Answered env batch deliveries tickets) ∧
      ∃ message, data = retryData env batch message r)

theorem Meets.attempt {env : DispatchEnv} {batch index : Nat} {deliveries : List DeliveryRow}
    {r : DeliveryRow} {data : DeliveryData} (h : Meets env batch deliveries index r data) :
    data.attemptCount = some (r.attemptCount + 1) := by
  rcases h with ⟨ticket, -, rfl⟩ | ⟨-, message, rfl⟩
  · cases ticket with
    | ok id => rfl
    | error message errorCode => rfl
  · rfl

/-- A delivery whose attempts are used up is not pending. -/
theorem Meets.pending {env : DispatchEnv} {batch index : Nat} {deliveries : List DeliveryRow}
    {r : DeliveryRow} {data : DeliveryData} (h : Meets env batch deliveries index r data)
    (hpending : data.status = .pending) : r.attemptCount + 1 < maxSendAttempts := by
  by_contra hlate
  have hlast : r.attemptCount + 1 ≥ maxSendAttempts := Nat.le_of_not_lt hlate
  rcases h with ⟨ticket, -, rfl⟩ | ⟨-, message, rfl⟩
  · cases ticket with
    | ok id => cases hpending
    | error message errorCode => simp [ticketData, unsentData, hlast] at hpending
  · simp [retryData, unsentData, hlast] at hpending

/-- The delivery at a position of a batch is left as its ticket says. -/
theorem settle_dispatchedBatch {env : DispatchEnv} (henv : env.Succeeds) (batch : Nat)
    {deliveries : List DeliveryRow} (hnodup : (deliveries.map (·.id)).Nodup) {index : Nat}
    {r : DeliveryRow} (hr : deliveries[index]? = some r) (d : Option PushDelivery) :
    ∃ data, Meets env batch deliveries index r data ∧
      settle r.id (dispatchedBatch env batch deliveries).outcomes d = d.map (·.set data) := by
  have hmem : r ∈ deliveries := List.mem_of_getElem? hr
  rcases attempted_cases env batch deliveries with ⟨e, h, hnone⟩ | ⟨tickets, hanswered, h⟩
  · have hbatch := dispatchedBatch_of_some (congrArg Attempted.thrown h)
    have hnoFailure : ∀ i, env.fails (.retry batch i) = none := fun i => henv (.retry batch i)
    have hretried := retried_of_none (retried_of_success hnoFailure
      (e.messageOr "Expo push send failed") 0 deliveries)
    rw [h] at hbatch
    rw [hbatch]
    simp only [hretried, List.nil_append]
    exact ⟨_, .inr ⟨hnone, _, rfl⟩, settle_map hnodup hmem d⟩
  · obtain ⟨hi, hget⟩ := List.getElem?_eq_some_iff.mp hr
    have hi' : index < tickets.length := by
      rw [hanswered.2]
      exact hi
    have hticket : tickets[index]? = some tickets[index] := List.getElem?_eq_getElem hi'
    have hpair : (r, tickets[index]) ∈ deliveries.zip tickets :=
      List.mem_of_getElem? (List.getElem?_zip_eq_some.mpr ⟨hr, hticket⟩)
    have hpairs : (deliveries.zip tickets).map (·.1) = deliveries :=
      List.map_fst_zip (Nat.le_of_eq hanswered.2.symm)
    have hnodup' : ((deliveries.zip tickets).map fun q => q.1.id).Nodup := by
      rw [← hpairs, List.map_map] at hnodup
      exact hnodup
    refine ⟨_, .inl ⟨tickets[index], ⟨tickets, hanswered, hticket⟩, rfl⟩, ?_⟩
    rcases recordedTickets_cases env batch 0 (deliveries.zip tickets) with
      ⟨-, hall⟩ | ⟨i, q, e, -, hstop, -⟩
    · have hattempt := h.trans hall
      have hbatch := dispatchedBatch_of_none (congrArg Attempted.thrown hattempt)
      rw [hattempt, List.append_nil] at hbatch
      rw [hbatch]
      exact settle_map (f := fun q => ticketData env batch q.1 q.2) hnodup' hpair d
    · rw [henv.stopped] at hstop
      cases hstop

theorem dispatchedBatch_thrown {env : DispatchEnv} (henv : env.Succeeds) (batch : Nat)
    (deliveries : List DeliveryRow) : (dispatchedBatch env batch deliveries).thrown = none := by
  by_contra hthrown
  obtain ⟨i, hi⟩ := retry_fails_of_thrown hthrown
  exact hi (henv _)

theorem dispatchedBatch_posts (env : DispatchEnv) (batch : Nat) (deliveries : List DeliveryRow) :
    (dispatchedBatch env batch deliveries).posts = [deliveries] := by
  cases hthrown : (attempted env batch deliveries).thrown with
  | none => rw [dispatchedBatch_of_none hthrown]
  | some e => rw [dispatchedBatch_of_some hthrown]

theorem dispatchedBatches_posts {env : DispatchEnv} (henv : env.Succeeds) (batch : Nat)
    (batches : List (List DeliveryRow)) : (dispatchedBatches env batch batches).posts = batches := by
  induction batches generalizing batch with
  | nil => rfl
  | cons deliveries rest ih =>
      rw [dispatchedBatches_of_none (dispatchedBatch_thrown henv batch deliveries)]
      simp only [dispatchedBatch_posts, ih]
      rfl

/-- The other batches leave a delivery alone. -/
theorem settle_dispatchedBatches {env : DispatchEnv} (henv : env.Succeeds) (batch : Nat)
    {batches : List (List DeliveryRow)} (hnodup : (batches.flatten.map (·.id)).Nodup) {k : Nat}
    {deliveries : List DeliveryRow} (hk : batches[k]? = some deliveries) {r : DeliveryRow}
    (hr : r ∈ deliveries) (d : Option PushDelivery) :
    settle r.id (dispatchedBatches env batch batches).outcomes d =
      settle r.id (dispatchedBatch env (batch + k) deliveries).outcomes d := by
  induction batches generalizing batch k d with
  | nil => simp at hk
  | cons now rest ih =>
      rw [dispatchedBatches_of_none (dispatchedBatch_thrown henv batch now), settle_append]
      rw [List.flatten_cons] at hnodup
      have hsplit := hnodup
      rw [List.map_append] at hsplit
      obtain ⟨hnow, hlater, hdisjoint⟩ := List.nodup_append.mp hsplit
      cases k with
      | zero =>
          cases hk
          apply settle_of_notMem
          intro o ho heq
          have hids := (batchFacts_dispatchedBatches henv.oneFailure (batch + 1) hlater).ids o ho
          exact hdisjoint _ (List.mem_map_of_mem hr) _ hids heq.symm
      | succ k =>
          have hrest : r ∈ rest.flatten := List.mem_flatten.mpr
            ⟨deliveries, List.mem_of_getElem? hk, hr⟩
          have hfacts : BatchFacts now (dispatchedBatch env batch now) _ :=
            batchFacts_dispatchedBatch henv.oneFailure hnow
          have hindex : batch + 1 + k = batch + (k + 1) := by omega
          rw [settle_of_notMem (hfacts.disjoint hnodup hrest), ih (batch + 1) hlater hk, hindex]

/-! ## One run -/

theorem mem_activeDeliveries {rows : List DeliveryRow} (hnodup : (rows.map (·.id)).Nodup)
    {r : DeliveryRow} : r ∈ activeDeliveries rows ↔ r ∈ rows ∧ isInactive r = false := by
  constructor
  · intro hr
    refine ⟨mem_of_mem_active hr, ?_⟩
    by_contra hinactive
    have hmem : r ∈ inactiveDeliveries rows :=
      List.mem_filter.mpr ⟨mem_of_mem_active hr, by simpa using hinactive⟩
    exact active_ne_inactive hr hmem rfl
  · rintro ⟨hr, hactive⟩
    apply List.mem_filter.mpr
    refine ⟨hr, ?_⟩
    simp only [Bool.not_eq_true', List.any_eq_false, beq_iff_eq]
    intro q hq hid
    obtain ⟨hrow, hinactive⟩ := List.mem_filter.mp hq
    have hsame := List.inj_on_of_nodup_map hnodup hrow hr hid
    rw [hsame, hactive] at hinactive
    cases hinactive

theorem sentRows_of_succeeds {env : DispatchEnv} (henv : env.Succeeds) (rows : List DeliveryRow) :
    sentRows env rows = dispatchedBatches env 0 (chunk (activeDeliveries rows) maxSendBatchSize) := by
  unfold sentRows
  by_cases hempty : (activeDeliveries rows).length = 0
  · have hnil : activeDeliveries rows = [] := List.length_eq_zero_iff.mp hempty
    rw [if_pos hempty, hnil]
    rfl
  · rw [if_neg hempty, henv .unread]

theorem dispatched_of_succeeds {env : DispatchEnv} (henv : env.Succeeds) (limit : Nat)
    (s : PushDb) : dispatched env limit s =
      { sentRows env (s.due env.now limit) with
        outcomes := cancelledOutcomes env s (inactiveDeliveries (s.due env.now limit)) ++
          (sentRows env (s.due env.now limit)).outcomes } := by
  have hnone : cancelFailure env (inactiveDeliveries (s.due env.now limit)) = none := by
    unfold cancelFailure
    rw [henv .cancel, ite_self]
  unfold dispatched dispatchedRows
  rw [henv .select, hnone]

/-- A run of `dispatchPending`: its environment and its limit. -/
abbrev DispatchRun := DispatchEnv × Nat

/-- The batches a run posts. -/
def DispatchRun.posts (run : DispatchRun) (s : PushDb) : List (List DeliveryRow) :=
  ((dispatchPending run.1 run.2).run s).events.filterMap PushEvent.batch

/-- The store a run leaves. -/
def DispatchRun.after (run : DispatchRun) (s : PushDb) : PushDb :=
  ((dispatchPending run.1 run.2).run s).store

/-- The deliveries a run selects. -/
def DispatchRun.selected (run : DispatchRun) (s : PushDb) : List DeliveryRow :=
  s.due run.1.now run.2

section run

variable {run : DispatchRun} (henv : run.1.Succeeds) (s : PushDb)
include henv

theorem posts_of_succeeds :
    run.posts s = chunk (activeDeliveries (run.selected s)) maxSendBatchSize := by
  unfold DispatchRun.posts
  rw [(records_dispatchPending run.1 run.2 s).posts, dispatched_of_succeeds henv,
    sentRows_of_succeeds henv]
  exact dispatchedBatches_posts henv 0 _

theorem flatten_posts : (run.posts s).flatten = activeDeliveries (run.selected s) := by
  rw [posts_of_succeeds henv]
  exact flatten_chunk _ (by decide)

theorem nodup_posts : ((run.posts s).flatten.map (·.id)).Nodup := by
  rw [flatten_posts henv]
  exact (s.nodup_due _ _).sublist (List.filter_sublist.map _)

theorem after_delivery (id : Id) : (run.after s).delivery id =
    settle id (sentRows run.1 (run.selected s)).outcomes
      (settle id (cancelledOutcomes run.1 s (inactiveDeliveries (run.selected s)))
        (s.delivery id)) := by
  have hstore := (records_dispatchPending run.1 run.2 s).store id
  rw [dispatched_of_succeeds henv, settle_append] at hstore
  exact hstore

/-- A delivery a run posts is left as its ticket says. -/
theorem after_posted {k : Nat} {batch : List DeliveryRow} (hk : (run.posts s)[k]? = some batch)
    {i : Nat} {r : DeliveryRow} (hr : batch[i]? = some r) :
    ∃ data, Meets run.1 k batch i r data ∧
      (run.after s).delivery r.id = some (r.toPushDelivery.set data) := by
  have hnodup := nodup_posts henv s
  have hmem : r ∈ batch := List.mem_of_getElem? hr
  have hbatch : batch ∈ run.posts s := List.mem_of_getElem? hk
  have hactive : r ∈ activeDeliveries (run.selected s) := by
    rw [← flatten_posts henv]
    exact List.mem_flatten.mpr ⟨batch, hbatch, hmem⟩
  have hids : (batch.map (·.id)).Nodup :=
    hnodup.sublist ((List.sublist_flatten_of_mem hbatch).map _)
  have hread := (selected_due s run.1.now run.2).2 r (mem_of_mem_active hactive)
  obtain ⟨data, hmeets, hdata⟩ := settle_dispatchedBatch henv k hids hr
    (some r.toPushDelivery)
  refine ⟨data, hmeets, ?_⟩
  have hcancelled : ∀ o ∈ cancelledOutcomes run.1 s (inactiveDeliveries (run.selected s)),
      o.1 ≠ r.id := by
    intro o ho heq
    obtain ⟨q, hq, hid⟩ := (mem_cancelledOutcomes ho).1
    exact active_ne_inactive hactive hq (hid.trans heq)
  rw [posts_of_succeeds henv] at hk hnodup
  rw [after_delivery henv, settle_of_notMem hcancelled, hread, sentRows_of_succeeds henv,
    settle_dispatchedBatches henv 0 hnodup hk hmem, Nat.zero_add, hdata]
  rfl

/-- A delivery a run does not post is untouched or cancelled. -/
theorem after_unposted {d : PushDelivery} (hd : d ∈ s.deliveries.rows)
    (hunposted : d.id ∉ (run.posts s).flatten.map (·.id)) :
    (run.after s).delivery d.id = some d ∨
      (run.after s).delivery d.id = some (d.set (cancelledData run.1)) := by
  have hread : s.delivery d.id = some d := PushDb.delivery_eq_some.mpr ⟨hd, rfl⟩
  have hsent : ∀ o ∈ (sentRows run.1 (run.selected s)).outcomes, o.1 ≠ d.id := by
    intro o ho heq
    have hids := (batchFacts_sentRows henv.oneFailure (s.nodup_due run.1.now run.2)).ids o ho
    rw [flatten_posts henv] at hunposted
    exact hunposted (heq ▸ hids)
  rw [after_delivery henv, settle_of_notMem hsent, settle_cancelled, hread, Option.map_some]
  split
  · exact .inr rfl
  · exact .inl rfl

end run

/-- What a run owes the deliveries it selects. -/
structure Faithful (run : DispatchRun) (s : PushDb) : Prop where
  batches : ∀ batch ∈ run.posts s, batch.length ≤ 100
  once : ∀ r ∈ run.selected s, isInactive r = false →
    ((run.posts s).flatten.map (·.id)).count r.id = 1
  only : ∀ r ∈ (run.posts s).flatten, r ∈ run.selected s ∧ isInactive r = false
  outcome : ∀ k batch, (run.posts s)[k]? = some batch → ∀ i r, batch[i]? = some r →
    ∃ data, Meets run.1 k batch i r data ∧
      (run.after s).delivery r.id = some (r.toPushDelivery.set data)

theorem faithful_of_succeeds {run : DispatchRun} (henv : run.1.Succeeds) (s : PushDb) :
    Faithful run s := by
  have hselected : ((run.selected s).map (·.id)).Nodup := s.nodup_due _ _
  constructor
  · intro batch hbatch
    rw [posts_of_succeeds henv] at hbatch
    exact length_le_of_mem_chunk hbatch
  · intro r hr hactive
    apply List.count_eq_one_of_mem (nodup_posts henv s)
    rw [flatten_posts henv]
    exact List.mem_map_of_mem ((mem_activeDeliveries hselected).mpr ⟨hr, hactive⟩)
  · intro r hr
    rw [flatten_posts henv] at hr
    exact (mem_activeDeliveries hselected).mp hr
  · intro k batch hk i r hr
    exact after_posted henv s hk hr

/-! ## Runs one after another -/

/-- The store after some runs. -/
def serial : List DispatchRun → PushDb → PushDb
  | [], s => s
  | run :: runs, s => serial runs (run.after s)

/-- How often some runs post a delivery. -/
def timesPosted (id : Id) : List DispatchRun → PushDb → Nat
  | [], _ => 0
  | run :: runs, s =>
      ((run.posts s).flatten.map (·.id)).count id + timesPosted id runs (run.after s)

/-- At most five attempts, and none is left to a delivery that has had five. -/
def PushDelivery.Bounded (d : PushDelivery) : Prop :=
  d.attemptCount ≤ 5 ∧ (d.attemptCount = 5 → d.status ≠ .pending)

/-- No delivery has an attempt when a publication creates it. -/
theorem bounded_deliveriesOf {input : PublishNotificationInput} {env : PublishEnv} {index : Nat}
    {installations : List PushInstallation} :
    ∀ d ∈ deliveriesOf input env index installations, d.attemptCount = 0 ∧ d.Bounded := by
  intro d hd
  obtain ⟨⟨installation, k⟩, -, rfl⟩ := List.mem_map.mp hd
  exact ⟨rfl, Nat.zero_le _, fun hfive => by cases hfive⟩

/-- One run counts its post and keeps the bound. -/
theorem attempt_step {run : DispatchRun} (henv : run.1.Succeeds) {s : PushDb} {d : PushDelivery}
    (hd : d ∈ s.deliveries.rows) : ∃ d' ∈ (run.after s).deliveries.rows, d'.id = d.id ∧
      d'.attemptCount = d.attemptCount + ((run.posts s).flatten.map (·.id)).count d.id ∧
      (d.Bounded → d'.Bounded) := by
  have hread : s.delivery d.id = some d := PushDb.delivery_eq_some.mpr ⟨hd, rfl⟩
  by_cases hposted : d.id ∈ (run.posts s).flatten.map (·.id)
  · obtain ⟨r, hr, hid⟩ := List.mem_map.mp hposted
    obtain ⟨batch, hbatch, hmem⟩ := List.mem_flatten.mp hr
    obtain ⟨k, hk⟩ := List.mem_iff_getElem?.mp hbatch
    obtain ⟨i, hi⟩ := List.mem_iff_getElem?.mp hmem
    obtain ⟨data, hmeets, hafter⟩ := after_posted henv s hk hi
    rw [flatten_posts henv] at hr
    have hselected := mem_of_mem_active hr
    have hrow := (selected_due s run.1.now run.2).2 r hselected
    rw [hid, hread] at hrow
    cases hrow
    obtain ⟨e, he, hsame, hpending, -⟩ := PushDb.mem_due hselected
    have hread' := (PushDb.deliveryRow_spec hsame).1
    rw [← hread'] at hpending
    refine ⟨_, (PushDb.delivery_eq_some.mp hafter).1, rfl, ?_, ?_⟩
    · rw [List.count_eq_one_of_mem (nodup_posts henv s) hposted, PushDelivery.set_attemptCount,
        hmeets.attempt]
      rfl
    · intro hbounded
      have hlt : r.attemptCount < 5 :=
        Nat.lt_of_le_of_ne hbounded.1 fun h => hbounded.2 h hpending
      unfold PushDelivery.Bounded
      rw [PushDelivery.set_attemptCount, hmeets.attempt, PushDelivery.set_status]
      refine ⟨hlt, fun hfive hstatus => ?_⟩
      have hless : r.attemptCount + 1 < 5 := hmeets.pending hstatus
      exact Nat.ne_of_lt hless hfive
  · rw [List.count_eq_zero.mpr hposted]
    rcases after_unposted henv s hd hposted with hafter | hafter
    · exact ⟨d, (PushDb.delivery_eq_some.mp hafter).1, rfl, rfl, fun h => h⟩
    · refine ⟨_, (PushDb.delivery_eq_some.mp hafter).1, rfl, rfl, fun h => ⟨h.1, ?_⟩⟩
      intro _ hstatus
      cases hstatus

/-- A run that is refused its ticket, and one that gets it. -/
def refusedThenSent : List DispatchRun :=
  [(answering (.error none none), 100), (answering (.ok "ticket"), 100)]

end Feca.Push
