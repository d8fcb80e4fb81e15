import Feca.Push.Outcomes
import Feca.Push.Exclusion

/-! # A failing write inside a batch

The external post and the writes of a batch share one `try` block. A write that
fails sends the whole batch to the `catch` loop, together with the deliveries
whose ticket is already recorded.
-/

namespace Feca.Push

open Concurrency Concurrency.Prog Relational

/-! ## Outcomes of distinct rows -/

section settle

variable {α : Type} {key : α → Id} {f : α → DeliveryData} {xs : List α}

/-- Among outcomes of distinct rows each row meets its own. -/
theorem settle_map (hnodup : (xs.map key).Nodup) {x : α} (hx : x ∈ xs)
    (d : Option PushDelivery) :
    settle (key x) (xs.map fun y => (key y, f y)) d = d.map (·.set (f x)) := by
  induction xs generalizing d with
  | nil => cases hx
  | cons y ys ih =>
      obtain ⟨hy, hys⟩ := List.nodup_cons.mp hnodup
      rw [List.map_cons, settle]
      rcases List.mem_cons.mp hx with rfl | hmem
      · rw [if_pos rfl]
        apply settle_of_notMem
        intro o ho heq
        obtain ⟨z, hz, rfl⟩ := List.mem_map.mp ho
        exact hy (List.mem_map.mpr ⟨z, hz, heq⟩)
      · have hne : key y ≠ key x := fun heq => hy (List.mem_map.mpr ⟨x, hmem, heq.symm⟩)
        rw [if_neg hne, ih hys hmem]

end settle

/-- A row ends with this status. -/
def endsAs (os : List Outcome) (status : PushDeliveryStatus) (r : DeliveryRow) : Bool :=
  (settle r.id os (some r.toPushDelivery)).any (·.status == status)

theorem endsAs_append_right {os ps : List Outcome} {r : DeliveryRow}
    (hps : ∀ o ∈ ps, o.1 ≠ r.id) (status : PushDeliveryStatus) :
    endsAs (os ++ ps) status r = endsAs os status r := by
  unfold endsAs
  rw [settle_append, settle_of_notMem hps]

theorem endsAs_append_left {os ps : List Outcome} {r : DeliveryRow}
    (hos : ∀ o ∈ os, o.1 ≠ r.id) (status : PushDeliveryStatus) :
    endsAs (os ++ ps) status r = endsAs ps status r := by
  unfold endsAs
  rw [settle_append, settle_of_notMem hos]

/-- How many outcomes have this status. -/
def tallied (status : PushDeliveryStatus) (os : List Outcome) : Nat :=
  os.countP fun o => o.2.status == status

@[simp] theorem tallied_nil (status : PushDeliveryStatus) : tallied status [] = 0 := rfl

@[simp] theorem tallied_append (status : PushDeliveryStatus) (os ps : List Outcome) :
    tallied status (os ++ ps) = tallied status os + tallied status ps := List.countP_append

theorem tallied_eq_zero {status : PushDeliveryStatus} {os : List Outcome} :
    tallied status os = 0 ↔ ∀ o ∈ os, o.2.status ≠ status := by
  simp [tallied, List.countP_eq_zero]

theorem DispatchTally.addAll_spec (tally : DispatchTally) (os : List Outcome) :
    (tally.addAll os).ticketed = tally.ticketed + tallied .ticketed os ∧
      (tally.addAll os).failed = tally.failed + tallied .failed os := by
  induction os generalizing tally with
  | nil => exact ⟨rfl, rfl⟩
  | cons o os ih =>
      obtain ⟨hticketed, hfailed⟩ := ih (tally.add o.2)
      have hadd : (tally.add o.2).ticketed = tally.ticketed + tallied .ticketed [o] ∧
          (tally.add o.2).failed = tally.failed + tallied .failed [o] := by
        unfold DispatchTally.add DispatchTally.count tallied
        cases hstatus : o.2.status <;> simp [hstatus]
      have hcons : o :: os = [o] ++ os := rfl
      rw [hcons, tallied_append, tallied_append, ← Nat.add_assoc, ← Nat.add_assoc, ← hadd.1,
        ← hadd.2]
      exact ⟨hticketed, hfailed⟩

/-! ## Sent pushes -/

/-- The id and the status of an outcome. -/
def Outcome.written (o : Outcome) : Id × PushDeliveryStatus := (o.1, o.2.status)

/-- No delivery written as ticketed is written as pending or failed later. -/
def KeepsTickets (writes : List (Id × PushDeliveryStatus)) : Prop :=
  writes.Pairwise fun a b =>
    a.2 = .ticketed → b.1 = a.1 → b.2 ≠ .pending ∧ b.2 ≠ .failed

theorem keepsTickets_append_disjoint {os ps : List (Id × PushDeliveryStatus)}
    (hdisjoint : ∀ a ∈ os, ∀ b ∈ ps, b.1 ≠ a.1) :
    KeepsTickets (os ++ ps) ↔ KeepsTickets os ∧ KeepsTickets ps := by
  unfold KeepsTickets
  rw [List.pairwise_append]
  constructor
  · rintro ⟨hos, hps, -⟩
    exact ⟨hos, hps⟩
  · rintro ⟨hos, hps⟩
    exact ⟨hos, hps, fun a ha b hb _ heq => absurd heq (hdisjoint a ha b hb)⟩

/-- Writes of distinct deliveries undo nothing. -/
theorem keepsTickets_of_nodup {os : List (Id × PushDeliveryStatus)} (h : (os.map (·.1)).Nodup) :
    KeepsTickets os := by
  unfold KeepsTickets
  have hne : os.Pairwise fun a b => a.1 ≠ b.1 := List.pairwise_map.mp h
  exact hne.imp fun hab _ heq => absurd heq.symm hab

/-- Where nothing was ticketed nothing is undone. -/
theorem keepsTickets_of_unticketed {os : List (Id × PushDeliveryStatus)}
    (h : ∀ a ∈ os, a.2 ≠ .ticketed) : KeepsTickets os :=
  List.pairwise_iff_forall_sublist.mpr fun hab hticketed =>
    absurd hticketed (h _ (hab.subset List.mem_cons_self))

/-! ## One batch -/

/-- At most one database statement of the run fails. -/
def DispatchEnv.OneFailure (env : DispatchEnv) : Prop :=
  ∀ a b, env.fails a ≠ none → env.fails b ≠ none → a = b

/-- The outcome of a ticket. -/
def outcomeOf (env : DispatchEnv) (batch : Nat) (q : DeliveryRow × ExpoPushTicket) : Outcome :=
  (q.1.id, ticketData env batch q.1 q.2)

theorem ticketOutcomes_eq {env : DispatchEnv} {batch index : Nat}
    {q : DeliveryRow × ExpoPushTicket} (h : stopped env batch index q.2 = none) :
    ticketOutcomes env batch index q.1 q.2 = [outcomeOf env batch q] := by
  unfold stopped at h
  have hnone := (Option.or_eq_none_iff.mp h).1
  unfold ticketOutcomes
  rw [hnone]
  rfl

/-- The loop over the tickets reaches its end, or stops at one of them. -/
theorem recordedTickets_cases (env : DispatchEnv) (batch index : Nat)
    (pairs : List (DeliveryRow × ExpoPushTicket)) :
    ((∀ i q, pairs[i]? = some q → stopped env batch (index + i) q.2 = none) ∧
      recordedTickets env batch index pairs = ⟨pairs.map (outcomeOf env batch), [], none⟩) ∨
    ∃ i q e, pairs[i]? = some q ∧ stopped env batch (index + i) q.2 = some e ∧
      recordedTickets env batch index pairs =
        ⟨(pairs.take i).map (outcomeOf env batch),
          ticketOutcomes env batch (index + i) q.1 q.2, some e⟩ := by
  induction pairs generalizing index with
  | nil => exact .inl ⟨fun i q hq => by simp at hq, rfl⟩
  | cons q pairs ih =>
      have hindex : ∀ i : Nat, index + 1 + i = index + (i + 1) := fun i => by omega
      cases hstop : stopped env batch index q.2 with
      | some e => exact .inr ⟨0, q, e, rfl, hstop, recordedTickets_of_stopped hstop⟩
      | none =>
          have hstep : recordedTickets env batch index (q :: pairs) = _ :=
            recordedTickets_of_none hstop
          rw [ticketOutcomes_eq hstop] at hstep
          rcases ih (index + 1) with ⟨hnone, hall⟩ | ⟨i, p, e, hp, he, hsome⟩
          · left
            constructor
            · intro i p hp
              cases i with
              | zero =>
                  cases hp
                  exact hstop
              | succ i =>
                  rw [← hindex]
                  exact hnone i p hp
            · rw [hstep, hall]
              rfl
          · right
            rw [hindex] at he hsome
            refine ⟨i + 1, p, e, hp, he, ?_⟩
            rw [hstep, hsome]
            rfl

/-- Expo answered the batch with one ticket for each delivery. -/
def Answered (env : DispatchEnv) (batch : Nat) (deliveries : List DeliveryRow)
    (tickets : List ExpoPushTicket) : Prop :=
  (∃ response, readReply (env.reply batch) = .ok response ∧
    normalizeExpoTickets response.data = tickets) ∧ tickets.length = deliveries.length

theorem Answered.unique {env : DispatchEnv} {batch : Nat} {deliveries : List DeliveryRow}
    {tickets tickets' : List ExpoPushTicket} (h : Answered env batch deliveries tickets)
    (h' : Answered env batch deliveries tickets') : tickets = tickets' := by
  obtain ⟨⟨response, hreply, rfl⟩, -⟩ := h
  obtain ⟨⟨response', hreply', rfl⟩, -⟩ := h'
  rw [hreply] at hreply'
  cases hreply'
  rfl

/-- Without tickets to record the `try` block writes nothing. -/
theorem attempted_cases (env : DispatchEnv) (batch : Nat) (deliveries : List DeliveryRow) :
    (∃ e, attempted env batch deliveries = ⟨[], [], some e⟩ ∧
      ∀ tickets, ¬ Answered env batch deliveries tickets) ∨
    ∃ tickets, Answered env batch deliveries tickets ∧
      attempted env batch deliveries = recordedTickets env batch 0 (deliveries.zip tickets) := by
  unfold attempted
  cases hreply : readReply (env.reply batch) with
  | error e =>
      left
      refine ⟨e, rfl, ?_⟩
      rintro tickets ⟨⟨response, hok, -⟩, -⟩
      rw [hreply] at hok
      cases hok
  | ok response =>
      by_cases hlength : (normalizeExpoTickets response.data).length ≠ deliveries.length
      · left
        refine ⟨.error "Expo push tickets count mismatch", if_pos hlength, ?_⟩
        rintro tickets ⟨⟨response', hok, rfl⟩, heq⟩
        rw [hreply] at hok
        cases hok
        exact hlength heq
      · right
        exact ⟨_, ⟨⟨response, hreply, rfl⟩, not_not.mp hlength⟩, if_neg hlength⟩

/-- What the `catch` loop makes of a delivery. -/
def retryData (env : DispatchEnv) (batch : Nat) (message : String) (r : DeliveryRow) :
    DeliveryData :=
  unsentData r false message (env.sendAt batch)

theorem retried_of_success {env : DispatchEnv} {batch : Nat}
    (hnone : ∀ i, env.fails (.retry batch i) = none) (message : String) (index : Nat)
    (deliveries : List DeliveryRow) : (retried env batch message index deliveries).2 = none := by
  induction deliveries generalizing index with
  | nil => rfl
  | cons r rest ih =>
      unfold retried
      simp only [hnone index, ih]

/-- A `catch` loop that is not stopped writes every delivery of the batch. -/
theorem retried_of_none {env : DispatchEnv} {batch : Nat} {message : String} {index : Nat}
    {deliveries : List DeliveryRow} (h : (retried env batch message index deliveries).2 = none) :
    (retried env batch message index deliveries).1 =
      deliveries.map fun r => (r.id, retryData env batch message r) := by
  induction deliveries generalizing index with
  | nil => rfl
  | cons r rest ih =>
      unfold retried at h ⊢
      cases hfails : env.fails (.retry batch index) with
      | some e => simp [hfails] at h
      | none =>
          simp only [hfails] at h
          simp only [ih h, List.map_cons]
          rfl

/-- However far it gets, the `catch` loop tickets nothing and writes each
delivery at most once. -/
theorem retried_sublist (env : DispatchEnv) (batch : Nat) (message : String) (index : Nat)
    (deliveries : List DeliveryRow) : (retried env batch message index deliveries).1.Sublist
      (deliveries.map fun r => (r.id, retryData env batch message r)) := by
  induction deliveries generalizing index with
  | nil => exact List.Sublist.refl _
  | cons r rest ih =>
      unfold retried
      cases env.fails (.retry batch index) with
      | some e => exact List.nil_sublist _
      | none => exact (ih (index + 1)).cons_cons _

/-- The outcomes the `catch` loop writes over. -/
def undone (env : DispatchEnv) (batch : Nat) (deliveries : List DeliveryRow) : List Outcome :=
  if (attempted env batch deliveries).thrown.isSome then (attempted env batch deliveries).counted
  else []

theorem stopped_fails {env : DispatchEnv} {batch index : Nat} {ticket : ExpoPushTicket}
    (h : stopped env batch index ticket ≠ none) :
    env.fails (.outcome batch index) ≠ none ∨ env.fails (.disable batch index) ≠ none := by
  by_contra hnot
  have houtcome : env.fails (.outcome batch index) = none := by
    by_contra hsome
    exact hnot (.inl hsome)
  have hdisable : env.fails (.disable batch index) = none := by
    by_contra hsome
    exact hnot (.inr hsome)
  apply h
  unfold stopped
  rw [houtcome, Option.none_or]
  cases ticket with
  | ok id => rfl
  | error message errorCode =>
      simp [disableFailure, hdisable]

/-- The ticket a batch stops at is a refused one where its outcome is written. -/
theorem ticketOutcomes_of_stopped {env : DispatchEnv} {batch index : Nat} (delivery : DeliveryRow)
    {ticket : ExpoPushTicket} {e : Thrown} (h : stopped env batch index ticket = some e) :
    ∀ o ∈ ticketOutcomes env batch index delivery ticket,
      o.1 = delivery.id ∧ o.2.status ≠ .ticketed := by
  intro o ho
  unfold ticketOutcomes at ho
  unfold stopped at h
  cases hfails : env.fails (.outcome batch index) with
  | some e' => simp [hfails] at ho
  | none =>
      simp only [hfails, Option.isSome_none, Bool.false_eq_true, if_false,
        List.mem_singleton] at ho
      subst ho
      rw [hfails, Option.none_or] at h
      cases ticket with
      | ok id => cases h
      | error message errorCode =>
          refine ⟨rfl, ?_⟩
          rcases unsentData_status delivery (isPermanentExpoError errorCode)
            (buildExpoErrorMessage message errorCode) (env.sendAt batch) with hs | hs
          · simp [ticketData, hs]
          · simp [ticketData, hs]

/-- One failure stops at most one ticket. -/
theorem DispatchEnv.OneFailure.stopped_unique {env : DispatchEnv} (hone : env.OneFailure)
    {k l i j : Nat} {t u : ExpoPushTicket} (hi : stopped env k i t ≠ none)
    (hj : stopped env l j u ≠ none) : k = l ∧ i = j := by
  rcases stopped_fails hi with hi | hi
  · rcases stopped_fails hj with hj | hj
    · have heq := hone _ _ hi hj
      injection heq with hk hij
      exact ⟨hk, hij⟩
    · cases hone _ _ hi hj
  · rcases stopped_fails hj with hj | hj
    · cases hone _ _ hi hj
    · have heq := hone _ _ hi hj
      injection heq with hk hij
      exact ⟨hk, hij⟩

/-- The failure that stops a ticket spares every other statement. -/
theorem DispatchEnv.OneFailure.none_of_stopped {env : DispatchEnv} (hone : env.OneFailure)
    {k i : Nat} {t : ExpoPushTicket} (hi : stopped env k i t ≠ none) {a : DispatchStatement}
    (houtcome : a ≠ .outcome k i) (hdisable : a ≠ .disable k i) : env.fails a = none := by
  by_contra hsome
  rcases stopped_fails hi with hi | hi
  · exact houtcome (hone _ _ hsome hi)
  · exact hdisable (hone _ _ hsome hi)

/-- What one batch does to its own deliveries. -/
structure BatchFacts (deliveries : List DeliveryRow) (d : Dispatched) (lost : List Outcome) :
    Prop where
  ids : ∀ o ∈ d.outcomes, o.1 ∈ deliveries.map (·.id)
  keeps : KeepsTickets (d.outcomes.map Outcome.written) ↔ ∀ o ∈ lost, o.2.status ≠ .ticketed
  tally : d.thrown = none → ∀ status, tallied status d.counted =
    deliveries.countP (endsAs d.outcomes status) + tallied status lost

theorem written_map_fst (os : List Outcome) :
    (os.map Outcome.written).map (·.1) = os.map (·.1) := by
  rw [List.map_map]
  rfl

/-- The rows of the outcomes that stand are counted with the status they end in. -/
theorem countP_endsAs {α : Type} (row : α → DeliveryRow) (f : α → DeliveryData) {xs : List α}
    (os : List Outcome) (hnodup : (xs.map fun x => (row x).id).Nodup)
    (status : PushDeliveryStatus) :
    (xs.map row).countP (endsAs (os ++ xs.map fun x => ((row x).id, f x)) status) =
      tallied status (xs.map fun x => ((row x).id, f x)) := by
  unfold tallied
  rw [List.countP_map, List.countP_map]
  apply List.countP_congr
  intro x hx
  have hsettle := settle_map (f := f) hnodup hx
    (settle (row x).id os (some (row x).toPushDelivery))
  have hsome := settle_isSome (row x).id os (some (row x).toPushDelivery)
  obtain ⟨d, hd⟩ := Option.isSome_iff_exists.mp hsome
  rw [hd] at hsettle
  have hends : endsAs (os ++ xs.map fun x => ((row x).id, f x)) status (row x) =
      ((f x).status == status) := by
    unfold endsAs
    rw [settle_append, hd, hsettle]
    rfl
  simp only [Function.comp, hends]

theorem retryData_status (env : DispatchEnv) (batch : Nat) (message : String) (r : DeliveryRow) :
    (retryData env batch message r).status = .failed ∨
      (retryData env batch message r).status = .pending := unsentData_status _ _ _ _

section dispatchedBatch

variable {env : DispatchEnv} {batch : Nat} {deliveries : List DeliveryRow}

/-- A batch Expo did not answer is written by the `catch` loop alone. -/
theorem batchFacts_of_unanswered {e : Thrown} (hnodup : (deliveries.map (·.id)).Nodup)
    (h : attempted env batch deliveries = ⟨[], [], some e⟩) :
    BatchFacts deliveries (dispatchedBatch env batch deliveries)
      (undone env batch deliveries) := by
  have hlost : undone env batch deliveries = [] := by
    unfold undone
    rw [h]
    rfl
  have hbatch := dispatchedBatch_of_some (congrArg Attempted.thrown h)
  rw [h] at hbatch
  rw [hbatch, hlost]
  have hsub := retried_sublist env batch (e.messageOr "Expo push send failed") 0 deliveries
  constructor
  · intro o ho
    obtain ⟨r, hr, rfl⟩ := List.mem_map.mp (hsub.subset ho)
    exact List.mem_map_of_mem hr
  · constructor
    · intro _ o ho
      cases ho
    · intro _
      apply keepsTickets_of_unticketed
      intro a ha
      obtain ⟨o, ho, rfl⟩ := List.mem_map.mp ha
      obtain ⟨r, hr, rfl⟩ := List.mem_map.mp (hsub.subset ho)
      rcases retryData_status env batch (e.messageOr "Expo push send failed") r with hs | hs
      · simp [Outcome.written, hs]
      · simp [Outcome.written, hs]
  · intro hthrown status
    have hall := retried_of_none hthrown
    have hcount := countP_endsAs (fun r => r)
      (retryData env batch (e.messageOr "Expo push send failed")) [] hnodup status
    simp only [List.map_id', List.nil_append] at hcount
    simp only [List.nil_append, tallied_nil, Nat.add_zero, hall]
    exact hcount.symm

/-- A batch whose tickets are all recorded undoes nothing. -/
theorem batchFacts_of_recorded {pairs : List (DeliveryRow × ExpoPushTicket)}
    (hpairs : pairs.map (·.1) = deliveries) (hnodup : (deliveries.map (·.id)).Nodup)
    (h : attempted env batch deliveries = ⟨pairs.map (outcomeOf env batch), [], none⟩) :
    BatchFacts deliveries (dispatchedBatch env batch deliveries)
      (undone env batch deliveries) := by
  have hlost : undone env batch deliveries = [] := by
    unfold undone
    rw [h]
    rfl
  have hbatch := dispatchedBatch_of_none (congrArg Attempted.thrown h)
  rw [h, List.append_nil] at hbatch
  rw [hbatch, hlost]
  have hids : (pairs.map (outcomeOf env batch)).map (·.1) = deliveries.map (·.id) := by
    rw [← hpairs, List.map_map, List.map_map]
    rfl
  constructor
  · intro o ho
    rw [← hids]
    exact List.mem_map_of_mem ho
  · constructor
    · intro _ o ho
      cases ho
    · intro _
      apply keepsTickets_of_nodup
      rw [written_map_fst, hids]
      exact hnodup
  · intro _ status
    have hnodup' : (pairs.map fun q => q.1.id).Nodup := by
      rw [← hpairs, List.map_map] at hnodup
      exact hnodup
    have hcount := countP_endsAs (fun q : DeliveryRow × ExpoPushTicket => q.1)
      (fun q => ticketData env batch q.1 q.2) [] hnodup' status
    rw [hpairs, List.nil_append] at hcount
    rw [tallied_nil, Nat.add_zero]
    exact hcount.symm

/-- A batch stopped at a ticket undoes what it recorded before. -/
theorem batchFacts_of_stopped {pairs : List (DeliveryRow × ExpoPushTicket)} {i : Nat}
    {q : DeliveryRow × ExpoPushTicket} {e : Thrown} (hone : env.OneFailure)
    (hpairs : pairs.map (·.1) = deliveries) (hnodup : (deliveries.map (·.id)).Nodup)
    (hq : pairs[i]? = some q) (hstop : stopped env batch i q.2 = some e)
    (h : attempted env batch deliveries = ⟨(pairs.take i).map (outcomeOf env batch),
      ticketOutcomes env batch i q.1 q.2, some e⟩) :
    BatchFacts deliveries (dispatchedBatch env batch deliveries)
      (undone env batch deliveries) := by
  have hne : stopped env batch i q.2 ≠ none := by simp [hstop]
  have hretry : ∀ j, env.fails (.retry batch j) = none := fun j =>
    hone.none_of_stopped hne (by simp) (by simp)
  have hlost : undone env batch deliveries = (pairs.take i).map (outcomeOf env batch) := by
    unfold undone
    rw [h]
    rfl
  have hbatch := dispatchedBatch_of_some (congrArg Attempted.thrown h)
  rw [h] at hbatch
  set message := e.messageOr "Expo push send failed"
  have hretried := retried_of_none (retried_of_success hretry message 0 deliveries)
  rw [hbatch, hlost]
  simp only [hretried]
  have hrow : ∀ p ∈ pairs, p.1.id ∈ deliveries.map (·.id) := by
    intro p hp
    rw [← hpairs, List.map_map]
    exact List.mem_map_of_mem hp
  have huncounted := ticketOutcomes_of_stopped q.1 hstop
  constructor
  · intro o ho
    rcases List.mem_append.mp ho with ho | ho
    · rcases List.mem_append.mp ho with ho | ho
      · obtain ⟨p, hp, rfl⟩ := List.mem_map.mp ho
        exact hrow p (List.mem_of_mem_take hp)
      · rw [(huncounted o ho).1]
        exact hrow q (List.mem_of_getElem? hq)
    · obtain ⟨r, hr, rfl⟩ := List.mem_map.mp ho
      exact List.mem_map_of_mem hr
  · constructor
    · intro hkeeps o ho hticketed
      obtain ⟨p, hp, rfl⟩ := List.mem_map.mp ho
      obtain ⟨r, hr, hid⟩ := List.mem_map.mp (hrow p (List.mem_of_mem_take hp))
      unfold KeepsTickets at hkeeps
      rw [List.map_append] at hkeeps
      have hafter := (List.pairwise_append.mp hkeeps).2.2 _
        (List.mem_map_of_mem (List.mem_append_left _ ho)) _
        (List.mem_map_of_mem (List.mem_map_of_mem hr)) hticketed hid
      rcases retryData_status env batch message r with hs | hs
      · exact hafter.2 hs
      · exact hafter.1 hs
    · intro hlost
      apply keepsTickets_of_unticketed
      intro a ha
      obtain ⟨o, ho, rfl⟩ := List.mem_map.mp ha
      rcases List.mem_append.mp ho with ho | ho
      · rcases List.mem_append.mp ho with ho | ho
        · exact hlost o ho
        · exact (huncounted o ho).2
      · obtain ⟨r, hr, rfl⟩ := List.mem_map.mp ho
        rcases retryData_status env batch message r with hs | hs
        · simp [Outcome.written, hs]
        · simp [Outcome.written, hs]
  · intro _ status
    have hcount := countP_endsAs (fun r => r) (retryData env batch message)
      ((pairs.take i).map (outcomeOf env batch) ++ ticketOutcomes env batch i q.1 q.2)
      hnodup status
    rw [List.map_id'] at hcount
    rw [tallied_append, hcount, Nat.add_comm]

theorem batchFacts_dispatchedBatch (hone : env.OneFailure)
    (hnodup : (deliveries.map (·.id)).Nodup) :
    BatchFacts deliveries (dispatchedBatch env batch deliveries)
      (undone env batch deliveries) := by
  rcases attempted_cases env batch deliveries with ⟨e, h, -⟩ | ⟨tickets, hanswered, h⟩
  · exact batchFacts_of_unanswered hnodup h
  · have hpairs : (deliveries.zip tickets).map (·.1) = deliveries :=
      List.map_fst_zip (Nat.le_of_eq hanswered.2.symm)
    rcases recordedTickets_cases env batch 0 (deliveries.zip tickets) with
      ⟨-, hall⟩ | ⟨i, q, e, hq, hstop, hsome⟩
    · exact batchFacts_of_recorded hpairs hnodup (h.trans hall)
    · rw [Nat.zero_add] at hstop hsome
      exact batchFacts_of_stopped hone hpairs hnodup hq hstop (h.trans hsome)

end dispatchedBatch

/-! ## All batches -/

/-- The condition: where a failing update stops a batch, the tickets before it
have left their deliveries pending. -/
def StopsEarly (env : DispatchEnv) (batches : List (List DeliveryRow)) : Prop :=
  ∀ k batch, batches[k]? = some batch → ∀ tickets, Answered env k batch tickets →
    ∀ i ticket, tickets[i]? = some ticket → stopped env k i ticket ≠ none →
      ∀ q ∈ (batch.zip tickets).take i, (ticketData env k q.1 q.2).status = .pending

/-- What is undone was recorded before a stop. -/
theorem mem_undone {env : DispatchEnv} {batch : Nat} {deliveries : List DeliveryRow} {o : Outcome}
    (h : o ∈ undone env batch deliveries) : ∃ tickets, Answered env batch deliveries tickets ∧
      ∃ i q, (deliveries.zip tickets)[i]? = some q ∧ stopped env batch i q.2 ≠ none ∧
        ∃ p ∈ (deliveries.zip tickets).take i, o = outcomeOf env batch p := by
  unfold undone at h
  rcases attempted_cases env batch deliveries with ⟨e, hattempt, -⟩ | ⟨tickets, hanswered, hattempt⟩
  · rw [hattempt] at h
    cases h
  · rcases recordedTickets_cases env batch 0 (deliveries.zip tickets) with
      ⟨-, hall⟩ | ⟨i, q, e, hq, hstop, hsome⟩
    · rw [hattempt, hall] at h
      cases h
    · rw [Nat.zero_add] at hstop
      rw [hattempt, hsome] at h
      obtain ⟨p, hp, rfl⟩ := List.mem_map.mp h
      exact ⟨tickets, hanswered, i, q, hq, by simp [hstop], p, hp, rfl⟩

/-- What was recorded before a stop is undone. -/
theorem undone_of_stopped {env : DispatchEnv} (hone : env.OneFailure) {batch : Nat}
    {deliveries : List DeliveryRow} {tickets : List ExpoPushTicket}
    (hanswered : Answered env batch deliveries tickets) {i : Nat} {ticket : ExpoPushTicket}
    (hticket : tickets[i]? = some ticket) (hstop : stopped env batch i ticket ≠ none)
    {p : DeliveryRow × ExpoPushTicket} (hp : p ∈ (deliveries.zip tickets).take i) :
    outcomeOf env batch p ∈ undone env batch deliveries := by
  rcases attempted_cases env batch deliveries with ⟨e, -, hnone⟩ | ⟨tickets', hanswered', hattempt⟩
  · exact absurd hanswered (hnone tickets)
  · cases hanswered.unique hanswered'
    obtain ⟨hi, -⟩ := List.getElem?_eq_some_iff.mp hticket
    rw [hanswered.2] at hi
    have hpair : (deliveries.zip tickets)[i]? = some (deliveries[i], ticket) :=
      List.getElem?_zip_eq_some.mpr ⟨List.getElem?_eq_getElem hi, hticket⟩
    rcases recordedTickets_cases env batch 0 (deliveries.zip tickets) with
      ⟨hnone, -⟩ | ⟨j, q, e, -, hstop', hsome⟩
    · have hgoes := hnone i _ hpair
      rw [Nat.zero_add] at hgoes
      exact absurd hgoes hstop
    · rw [Nat.zero_add] at hstop'
      obtain ⟨-, rfl⟩ := hone.stopped_unique hstop (by simp [hstop'] : stopped env batch j q.2 ≠ none)
      unfold undone
      rw [hattempt, hsome]
      exact List.mem_map_of_mem hp

/-- The outcomes that the `catch` loops of a run write over. -/
def undoneFrom (env : DispatchEnv) : Nat → List (List DeliveryRow) → List Outcome
  | _, [] => []
  | batch, deliveries :: rest => undone env batch deliveries ++ undoneFrom env (batch + 1) rest

theorem mem_undoneFrom {env : DispatchEnv} {batch : Nat} {batches : List (List DeliveryRow)}
    {o : Outcome} : o ∈ undoneFrom env batch batches ↔
      ∃ k deliveries, batches[k]? = some deliveries ∧ o ∈ undone env (batch + k) deliveries := by
  induction batches generalizing batch with
  | nil => simp [undoneFrom]
  | cons b rest ih =>
      have hindex : ∀ k : Nat, batch + 1 + k = batch + (k + 1) := fun k => by omega
      rw [undoneFrom, List.mem_append, ih]
      constructor
      · rintro (ho | ⟨k, deliveries, hk, ho⟩)
        · exact ⟨0, b, rfl, ho⟩
        · rw [hindex] at ho
          exact ⟨k + 1, deliveries, hk, ho⟩
      · rintro ⟨k, deliveries, hk, ho⟩
        cases k with
        | zero =>
            cases hk
            exact .inl ho
        | succ k =>
            rw [← hindex] at ho
            exact .inr ⟨k, deliveries, hk, ho⟩

theorem stopsEarly_iff {env : DispatchEnv} (hone : env.OneFailure)
    (batches : List (List DeliveryRow)) :
    StopsEarly env batches ↔ ∀ o ∈ undoneFrom env 0 batches, o.2.status = .pending := by
  constructor
  · intro hearly o ho
    obtain ⟨k, deliveries, hk, hundone⟩ := mem_undoneFrom.mp ho
    rw [Nat.zero_add] at hundone
    obtain ⟨tickets, hanswered, i, q, hq, hstop, p, hp, rfl⟩ := mem_undone hundone
    exact hearly k deliveries hk tickets hanswered i q.2 (List.getElem?_zip_eq_some.mp hq).2 hstop
      p hp
  · intro hpending k deliveries hk tickets hanswered i ticket hticket hstop p hp
    have hundone := undone_of_stopped hone hanswered hticket hstop hp
    have hmem : outcomeOf env k p ∈ undoneFrom env 0 batches := by
      apply mem_undoneFrom.mpr
      refine ⟨k, deliveries, hk, ?_⟩
      rw [Nat.zero_add]
      exact hundone
    exact hpending _ hmem

/-- A failure of the `catch` loop leaves every `try` block undisturbed. -/
theorem undoneFrom_of_retry {env : DispatchEnv} (hone : env.OneFailure) {a : DispatchStatement}
    (ha : env.fails a ≠ none) (houtcome : ∀ k i, a ≠ .outcome k i)
    (hdisable : ∀ k i, a ≠ .disable k i) (batch : Nat) (batches : List (List DeliveryRow)) :
    undoneFrom env batch batches = [] := by
  apply List.eq_nil_iff_forall_not_mem.mpr
  intro o ho
  obtain ⟨k, deliveries, -, hundone⟩ := mem_undoneFrom.mp ho
  obtain ⟨tickets, -, i, q, -, hstop, -⟩ := mem_undone hundone
  exact ha (hone.none_of_stopped hstop (houtcome _ _) (hdisable _ _))

theorem retry_fails_of_thrown {env : DispatchEnv} {batch : Nat} {deliveries : List DeliveryRow}
    (h : (dispatchedBatch env batch deliveries).thrown ≠ none) :
    ∃ i, env.fails (.retry batch i) ≠ none := by
  by_contra hnot
  have hnone : ∀ i, env.fails (.retry batch i) = none := fun i => by
    by_contra hsome
    exact hnot ⟨i, hsome⟩
  apply h
  cases hthrown : (attempted env batch deliveries).thrown with
  | none => rw [dispatchedBatch_of_none hthrown]
  | some e =>
      rw [dispatchedBatch_of_some hthrown]
      exact retried_of_success hnone _ 0 deliveries

theorem BatchFacts.disjoint {deliveries rest : List DeliveryRow} {d : Dispatched}
    {lost : List Outcome} (h : BatchFacts deliveries d lost)
    (hnodup : ((deliveries ++ rest).map (·.id)).Nodup) {r : DeliveryRow} (hr : r ∈ rest) :
    ∀ o ∈ d.outcomes, o.1 ≠ r.id := by
  intro o ho heq
  rw [List.map_append] at hnodup
  have hdisjoint := (List.nodup_append.mp hnodup).2.2
  exact hdisjoint _ (h.ids o ho) _ (List.mem_map_of_mem hr) heq

theorem batchFacts_dispatchedBatches {env : DispatchEnv} (hone : env.OneFailure) (batch : Nat)
    {batches : List (List DeliveryRow)} (hnodup : (batches.flatten.map (·.id)).Nodup) :
    BatchFacts batches.flatten (dispatchedBatches env batch batches)
      (undoneFrom env batch batches) := by
  induction batches generalizing batch with
  | nil =>
      constructor
      · intro o ho
        cases ho
      · constructor
        · intro _ o ho
          cases ho
        · exact fun _ => List.Pairwise.nil
      · exact fun _ status => rfl
  | cons deliveries rest ih =>
      rw [List.flatten_cons] at hnodup ⊢
      have hnodup' := hnodup
      rw [List.map_append] at hnodup'
      have hnow : BatchFacts deliveries (dispatchedBatch env batch deliveries) _ :=
        batchFacts_dispatchedBatch hone (List.nodup_append.mp hnodup').1
      have hlater := ih (batch + 1) (List.nodup_append.mp hnodup').2.1
      rw [undoneFrom]
      cases hthrown : (dispatchedBatch env batch deliveries).thrown with
      | some e =>
          rw [dispatchedBatches_of_some hthrown]
          have hstopped : (dispatchedBatch env batch deliveries).thrown ≠ none := by
            simp [hthrown]
          obtain ⟨i, hi⟩ := retry_fails_of_thrown hstopped
          rw [undoneFrom_of_retry hone hi (by simp) (by simp), List.append_nil]
          constructor
          · intro o ho
            rw [List.map_append]
            exact List.mem_append_left _ (hnow.ids o ho)
          · exact hnow.keeps
          · intro hnone
            rw [hthrown] at hnone
            cases hnone
      | none =>
          rw [dispatchedBatches_of_none hthrown]
          constructor
          · intro o ho
            rw [List.map_append]
            rcases List.mem_append.mp ho with ho | ho
            · exact List.mem_append_left _ (hnow.ids o ho)
            · exact List.mem_append_right _ (hlater.ids o ho)
          · have hdisjoint : ∀ a ∈ (dispatchedBatch env batch deliveries).outcomes.map
                Outcome.written, ∀ b ∈ (dispatchedBatches env (batch + 1) rest).outcomes.map
                Outcome.written, b.1 ≠ a.1 := by
              intro a ha b hb heq
              obtain ⟨o, ho, rfl⟩ := List.mem_map.mp ha
              obtain ⟨p, hp, rfl⟩ := List.mem_map.mp hb
              obtain ⟨r, hr, hid⟩ := List.mem_map.mp (hlater.ids p hp)
              exact hnow.disjoint hnodup hr o ho (heq.symm.trans hid.symm)
            rw [List.map_append, keepsTickets_append_disjoint hdisjoint, hnow.keeps, hlater.keeps]
            exact List.forall_mem_append.symm
          · intro hnone status
            have hleft : deliveries.countP (endsAs ((dispatchedBatch env batch deliveries).outcomes ++
                (dispatchedBatches env (batch + 1) rest).outcomes) status) =
                deliveries.countP (endsAs (dispatchedBatch env batch deliveries).outcomes status) := by
              apply List.countP_congr
              intro r hr
              rw [endsAs_append_right]
              intro o ho heq
              rw [List.map_append] at hnodup
              exact (List.nodup_append.mp hnodup).2.2 _ (List.mem_map_of_mem hr) _
                (hlater.ids o ho) heq.symm
            have hright : rest.flatten.countP (endsAs
                ((dispatchedBatch env batch deliveries).outcomes ++
                  (dispatchedBatches env (batch + 1) rest).outcomes) status) =
                rest.flatten.countP
                  (endsAs (dispatchedBatches env (batch + 1) rest).outcomes status) := by
              apply List.countP_congr
              intro r hr
              rw [endsAs_append_left (hnow.disjoint hnodup hr)]
            have hnowTally := hnow.tally hthrown status
            have hlaterTally := hlater.tally hnone status
            rw [List.countP_append, hleft, hright, tallied_append, tallied_append]
            omega

/-! ## The whole run -/

/-- A run that a read stops before its first batch. -/
theorem batchFacts_of_unsent {deliveries : List DeliveryRow} {e : Thrown} :
    BatchFacts deliveries { thrown := some e } [] := by
  constructor
  · intro o ho
    cases ho
  · constructor
    · intro _ o ho
      cases ho
    · exact fun _ => List.Pairwise.nil
  · intro hnone
    cases hnone

theorem batchFacts_sentRows {env : DispatchEnv} (hone : env.OneFailure) {rows : List DeliveryRow}
    (hnodup : (rows.map (·.id)).Nodup) :
    BatchFacts (activeDeliveries rows) (sentRows env rows)
      (undoneFrom env 0 (chunk (activeDeliveries rows) maxSendBatchSize)) := by
  have hflatten : (chunk (activeDeliveries rows) maxSendBatchSize).flatten =
      activeDeliveries rows := flatten_chunk _ (by decide)
  have hactive : ((activeDeliveries rows).map (·.id)).Nodup :=
    hnodup.sublist (List.filter_sublist.map _)
  have hchunks : ((chunk (activeDeliveries rows) maxSendBatchSize).flatten.map (·.id)).Nodup := by
    rw [hflatten]
    exact hactive
  have hbatches := batchFacts_dispatchedBatches hone 0 hchunks
  rw [hflatten] at hbatches
  unfold sentRows
  by_cases hempty : (activeDeliveries rows).length = 0
  · have hnil : activeDeliveries rows = [] := List.length_eq_zero_iff.mp hempty
    rw [if_pos hempty]
    rw [hnil] at hbatches ⊢
    exact hbatches
  · rw [if_neg hempty]
    cases hunread : env.fails .unread with
    | none => exact hbatches
    | some e =>
        rw [undoneFrom_of_retry hone (a := .unread) (by simp [hunread]) (by simp) (by simp)]
        exact batchFacts_of_unsent

theorem mem_cancelledOutcomes {env : DispatchEnv} {s : PushDb} {inactive : List DeliveryRow}
    {o : Outcome} (h : o ∈ cancelledOutcomes env s inactive) :
    (∃ r ∈ inactive, r.id = o.1) ∧ o.2 = cancelledData env := by
  obtain ⟨d, hd, rfl⟩ := List.mem_map.mp h
  have hin := (List.mem_filter.mp hd).2
  exact ⟨List.mem_map.mp (List.contains_iff_mem.mp hin), rfl⟩

/-- A cancelled delivery ends neither ticketed nor failed. -/
theorem endsAs_cancelled {env : DispatchEnv} {s : PushDb} {rows : List DeliveryRow}
    (hs : Selected s rows) {r : DeliveryRow} (hr : r ∈ rows) (hinactive : r ∉ activeDeliveries rows)
    {status : PushDeliveryStatus} (hstatus : status ≠ .cancelled) :
    endsAs (cancelledOutcomes env s (inactiveDeliveries rows)) status r = false := by
  have hin : ((inactiveDeliveries rows).map (·.id)).contains r.id = true := by
    by_contra hnot
    apply hinactive
    unfold activeDeliveries
    apply List.mem_filter.mpr
    refine ⟨hr, ?_⟩
    simp only [Bool.not_eq_true', List.any_eq_false, beq_iff_eq]
    intro q hq heq
    exact hnot (List.contains_iff_mem.mpr (List.mem_map.mpr ⟨q, hq, heq⟩))
  have hsettle := settle_cancelled (s := s) env (inactiveDeliveries rows) r.id
  rw [hs.2 r hr] at hsettle
  unfold endsAs
  rw [hsettle]
  simp only [Option.map_some, hin, if_true, Option.any_some, PushDelivery.set_status]
  cases status with
  | cancelled => exact absurd rfl hstatus
  | _ => rfl

/-- Rows outside the batches end cancelled, the others as their batch leaves them. -/
theorem countP_cancelled {env : DispatchEnv} {s : PushDb} {rows : List DeliveryRow}
    (hs : Selected s rows) {os : List Outcome}
    (hids : ∀ o ∈ os, o.1 ∈ (activeDeliveries rows).map (·.id)) {status : PushDeliveryStatus}
    (hstatus : status ≠ .cancelled) :
    (activeDeliveries rows).countP (endsAs os status) = rows.countP
      (endsAs (cancelledOutcomes env s (inactiveDeliveries rows) ++ os) status) := by
  have hactive : activeDeliveries rows = rows.filter fun delivery =>
      !(inactiveDeliveries rows).any fun entry => entry.id == delivery.id := rfl
  rw [hactive, List.countP_filter]
  apply List.countP_congr
  intro r hr
  by_cases hmem : r ∈ activeDeliveries rows
  · have hcancelled : ∀ o ∈ cancelledOutcomes env s (inactiveDeliveries rows), o.1 ≠ r.id := by
      intro o ho heq
      obtain ⟨q, hq, hid⟩ := (mem_cancelledOutcomes ho).1
      exact active_ne_inactive hmem hq (hid.trans heq)
    rw [endsAs_append_left hcancelled, (List.mem_filter.mp hmem).2, Bool.and_true]
  · have hsent : ∀ o ∈ os, o.1 ≠ r.id := by
      intro o ho heq
      obtain ⟨q, hq, hid⟩ := List.mem_map.mp (hids o ho)
      have hsame := List.inj_on_of_nodup_map hs.1 (mem_of_mem_active hq) hr (hid.trans heq)
      exact hmem (hsame ▸ hq)
    have hfalse : (!(inactiveDeliveries rows).any fun entry => entry.id == r.id) = false := by
      by_contra htrue
      exact hmem (List.mem_filter.mpr ⟨hr, by simpa using htrue⟩)
    rw [endsAs_append_right hsent, endsAs_cancelled hs hr hmem hstatus, hfalse, Bool.and_false]

/-- What a run does to the deliveries it selected. -/
structure RunFacts (rows : List DeliveryRow) (d : Dispatched) (lost : List Outcome) : Prop where
  keeps : KeepsTickets (d.outcomes.map Outcome.written) ↔ ∀ o ∈ lost, o.2.status ≠ .ticketed
  tally : d.thrown = none → ∀ status, status ≠ .cancelled →
    tallied status d.counted = rows.countP (endsAs d.outcomes status) + tallied status lost

theorem BatchFacts.run {rows : List DeliveryRow} {d : Dispatched} {lost : List Outcome}
    (h : BatchFacts rows d lost) : RunFacts rows d lost :=
  ⟨h.keeps, fun hnone status _ => h.tally hnone status⟩

theorem runFacts_dispatchedRows {env : DispatchEnv} (hone : env.OneFailure) {s : PushDb}
    {rows : List DeliveryRow} (hs : Selected s rows) :
    RunFacts rows (dispatchedRows env s rows)
      (undoneFrom env 0 (chunk (activeDeliveries rows) maxSendBatchSize)) := by
  have hsent := batchFacts_sentRows hone hs.1
  unfold dispatchedRows
  cases hcancel : cancelFailure env (inactiveDeliveries rows) with
  | some e =>
      have hfails : env.fails .cancel ≠ none := by
        unfold cancelFailure at hcancel
        split at hcancel
        · simp [hcancel]
        · cases hcancel
      rw [undoneFrom_of_retry hone hfails (by simp) (by simp)]
      exact batchFacts_of_unsent.run
  | none =>
      constructor
      · have hdisjoint : ∀ a ∈ (cancelledOutcomes env s (inactiveDeliveries rows)).map
            Outcome.written, ∀ b ∈ (sentRows env rows).outcomes.map Outcome.written,
            b.1 ≠ a.1 := by
          intro a ha b hb heq
          obtain ⟨o, ho, rfl⟩ := List.mem_map.mp ha
          obtain ⟨p, hp, rfl⟩ := List.mem_map.mp hb
          obtain ⟨q, hq, hqid⟩ := (mem_cancelledOutcomes ho).1
          obtain ⟨r, hr, hrid⟩ := List.mem_map.mp (hsent.ids p hp)
          exact active_ne_inactive hr hq (hqid.trans (heq.symm.trans hrid.symm))
        have hcancelled : KeepsTickets
            ((cancelledOutcomes env s (inactiveDeliveries rows)).map Outcome.written) := by
          apply keepsTickets_of_unticketed
          intro a ha
          obtain ⟨o, ho, rfl⟩ := List.mem_map.mp ha
          simp [Outcome.written, (mem_cancelledOutcomes ho).2, cancelledData]
        rw [List.map_append, keepsTickets_append_disjoint hdisjoint, ← hsent.keeps]
        exact and_iff_right hcancelled
      · intro hnone status hstatus
        rw [hsent.tally hnone status, countP_cancelled hs hsent.ids hstatus]

theorem runFacts_dispatched {env : DispatchEnv} (hone : env.OneFailure) (limit : Nat)
    (s : PushDb) : RunFacts (s.due env.now limit) (dispatched env limit s)
      (undoneFrom env 0 (chunk (activeDeliveries (s.due env.now limit)) maxSendBatchSize)) := by
  unfold dispatched
  cases hselect : env.fails .select with
  | some e =>
      rw [undoneFrom_of_retry hone (a := .select) (by simp [hselect]) (by simp) (by simp)]
      exact batchFacts_of_unsent.run
  | none => exact runFacts_dispatchedRows hone (selected_due s env.now limit)

/-- How many of the rows are in the store with this status. -/
def PushDb.inStatus (s : PushDb) (rows : List DeliveryRow) (status : PushDeliveryStatus) : Nat :=
  rows.countP fun r => (s.delivery r.id).any (·.status == status)

/-- The run takes back no ticket it has recorded, and returns the numbers of its
deliveries that end ticketed and failed. -/
structure KeepsSent (env : DispatchEnv) (limit : Nat) (s : PushDb) : Prop where
  kept : KeepsTickets (((dispatchPending env limit).run s).events.filterMap PushEvent.written)
  counted : ∀ r, ((dispatchPending env limit).run s).result = .ok r →
    r.ticketed = ((dispatchPending env limit).run s).store.inStatus (s.due env.now limit)
        .ticketed ∧
      r.failed = ((dispatchPending env limit).run s).store.inStatus (s.due env.now limit) .failed

theorem inStatus_dispatched (env : DispatchEnv) (limit : Nat) (s : PushDb)
    (status : PushDeliveryStatus) :
    ((dispatchPending env limit).run s).store.inStatus (s.due env.now limit) status =
      (s.due env.now limit).countP (endsAs (dispatched env limit s).outcomes status) := by
  unfold PushDb.inStatus
  apply List.countP_congr
  intro r hr
  rw [(records_dispatchPending env limit s).store, (selected_due s env.now limit).2 r hr]
  rfl

theorem unlessThrown_eq_ok {α : Type} {thrown : Option Thrown} {a b : α} :
    unlessThrown thrown a = .ok b ↔ thrown = none ∧ a = b := by
  cases thrown with
  | none => simp [unlessThrown]
  | some e => simp [unlessThrown]

theorem dispatchedBatches_thrown {env : DispatchEnv}
    (hretry : ∀ k i, env.fails (.retry k i) = none) (batch : Nat)
    (batches : List (List DeliveryRow)) : (dispatchedBatches env batch batches).thrown = none := by
  induction batches generalizing batch with
  | nil => rfl
  | cons deliveries rest ih =>
      cases hthrown : (dispatchedBatch env batch deliveries).thrown with
      | none =>
          rw [dispatchedBatches_of_none hthrown]
          exact ih (batch + 1)
      | some e =>
          have hstopped : (dispatchedBatch env batch deliveries).thrown ≠ none := by
            simp [hthrown]
          obtain ⟨i, hi⟩ := retry_fails_of_thrown hstopped
          exact absurd (hretry batch i) hi

/-- A run whose only failure stops a ticket comes to its end. -/
theorem dispatched_thrown_of_stopped {env : DispatchEnv} (hone : env.OneFailure) {k i : Nat}
    {ticket : ExpoPushTicket} (hstop : stopped env k i ticket ≠ none) (limit : Nat) (s : PushDb) :
    (dispatched env limit s).thrown = none := by
  have hselect : env.fails .select = none := hone.none_of_stopped hstop (by simp) (by simp)
  have hcancel : env.fails .cancel = none := hone.none_of_stopped hstop (by simp) (by simp)
  have hunread : env.fails .unread = none := hone.none_of_stopped hstop (by simp) (by simp)
  have hretry : ∀ l j, env.fails (.retry l j) = none := fun l j =>
    hone.none_of_stopped hstop (by simp) (by simp)
  have hsent : (sentRows env (s.due env.now limit)).thrown = none := by
    unfold sentRows
    rw [hunread]
    split
    · rfl
    · exact dispatchedBatches_thrown hretry 0 _
  have hnone : cancelFailure env (inactiveDeliveries (s.due env.now limit)) = none := by
    unfold cancelFailure
    rw [hcancel, ite_self]
  unfold dispatched dispatchedRows
  rw [hselect, hnone]
  exact hsent

/-- A run returns the numbers of the outcomes it has counted. -/
theorem dispatchedResult_spec {env : DispatchEnv} {limit : Nat} {s : PushDb}
    (h : (dispatched env limit s).thrown = none) :
    (dispatchedResult env s (s.due env.now limit)).ticketed =
        tallied .ticketed (dispatched env limit s).counted ∧
      (dispatchedResult env s (s.due env.now limit)).failed =
        tallied .failed (dispatched env limit s).counted := by
  have hrows : dispatched env limit s = dispatchedRows env s (s.due env.now limit) := by
    unfold dispatched at h ⊢
    cases hselect : env.fails .select with
    | none => rfl
    | some e =>
        rw [hselect] at h
        cases h
  have htally := DispatchTally.addAll_spec {} (dispatched env limit s).counted
  rw [hrows] at htally ⊢
  simpa [dispatchedResult] using htally

theorem ticketData_status (env : DispatchEnv) (batch : Nat) (r : DeliveryRow)
    (ticket : ExpoPushTicket) : (ticketData env batch r ticket).status = .ticketed ∨
      (ticketData env batch r ticket).status = .failed ∨
      (ticketData env batch r ticket).status = .pending := by
  cases ticket with
  | ok id => exact .inl rfl
  | error message errorCode => exact .inr (unsentData_status _ _ _ _)

/-- With one failing statement a run keeps what it has sent exactly when a
failure that stops a batch finds the earlier tickets of the batch refused and to
be retried. -/
theorem dispatch_keeps_sent_iff {env : DispatchEnv} (hone : env.OneFailure) (limit : Nat)
    (s : PushDb) : KeepsSent env limit s ↔
      StopsEarly env (chunk (activeDeliveries (s.due env.now limit)) maxSendBatchSize) := by
  have hrecords := records_dispatchPending env limit s
  have hfacts := runFacts_dispatched hone limit s
  have hwritten : ((dispatchPending env limit).run s).events.filterMap PushEvent.written =
      (dispatched env limit s).outcomes.map Outcome.written := hrecords.written
  rw [stopsEarly_iff hone]
  constructor
  · intro hsent o ho
    obtain ⟨k, deliveries, -, hundone⟩ := mem_undoneFrom.mp ho
    obtain ⟨tickets, -, i, q, -, hstop, p, -, rfl⟩ := mem_undone hundone
    have hthrown := dispatched_thrown_of_stopped hone hstop limit s
    have hresult := hrecords.result
    rw [hthrown] at hresult
    have hcounted := (hsent.counted _ hresult).2
    rw [(dispatchedResult_spec hthrown).2, hfacts.tally hthrown .failed (by simp),
      inStatus_dispatched] at hcounted
    have hfailed := tallied_eq_zero.mp (Nat.left_eq_add.mp hcounted.symm) _ ho
    have hticketed := hfacts.keeps.mp (hwritten ▸ hsent.kept) _ ho
    rcases ticketData_status env (0 + k) p.1 p.2 with hs | hs | hs
    · exact absurd hs hticketed
    · exact absurd hs hfailed
    · exact hs
  · intro hpending
    have hlost : ∀ status, status ≠ .pending → tallied status
        (undoneFrom env 0 (chunk (activeDeliveries (s.due env.now limit)) maxSendBatchSize)) =
          0 := by
      intro status hstatus
      apply tallied_eq_zero.mpr
      intro o ho heq
      exact hstatus (heq.symm.trans (hpending o ho))
    constructor
    · rw [hwritten]
      apply hfacts.keeps.mpr
      intro o ho
      simp [hpending o ho]
    · intro r hr
      rw [hrecords.result] at hr
      obtain ⟨hthrown, rfl⟩ := unlessThrown_eq_ok.mp hr
      obtain ⟨hticketed, hfailed⟩ := dispatchedResult_spec hthrown
      rw [hticketed, hfailed, hfacts.tally hthrown .ticketed (by simp),
        hfacts.tally hthrown .failed (by simp), hlost .ticketed (by simp),
        hlost .failed (by simp), inStatus_dispatched, inStatus_dispatched]
      exact ⟨rfl, rfl⟩

/-- Two pending deliveries of one notification, on two devices. -/
def twoDeliveries : PushDb :=
  { oneDelivery with
    installations := ⟨[aPhone, { aPhone with id := "i2", installationId := "tablet", token := "t2" }],
      by decide⟩
    deliveries := ⟨[aDelivery, { aDelivery with id := "d2", installationId := "i2" }], by decide⟩
    delivery_notification := by decide
    delivery_installation := by decide }

/-- Expo accepts both messages; the ticket at `index` cannot be recorded. -/
def unrecorded (index : Nat) : DispatchEnv where
  now := 10
  cancelledAt := 10
  sendAt _ := 10
  reply _ := .answered 200 (.ok ⟨some (.many [.ok "ticket1", .ok "ticket2"])⟩)
  fails
    | .outcome batch i =>
        if batch = 0 ∧ i = index then some (.error "Connection reset") else none
    | _ => none

theorem unrecorded_fails {index : Nat} {a : DispatchStatement}
    (h : (unrecorded index).fails a ≠ none) : a = .outcome 0 index := by
  cases a with
  | outcome batch i =>
      by_cases heq : batch = 0 ∧ i = index
      · rw [heq.1, heq.2]
      · exact absurd (if_neg heq) h
  | _ => exact absurd rfl h

theorem unrecorded_oneFailure (index : Nat) : (unrecorded index).OneFailure := by
  intro a b ha hb
  rw [unrecorded_fails ha, unrecorded_fails hb]

/-- A batch whose first ticket cannot be recorded has nothing to undo. -/
theorem first_unrecorded_keeps_sent : KeepsSent (unrecorded 0) 100 twoDeliveries := by
  apply (dispatch_keeps_sent_iff (unrecorded_oneFailure 0) 100 twoDeliveries).mpr
  intro k batch _ tickets _ i ticket _ hstop q hq
  rcases stopped_fails hstop with hfails | hfails
  · cases unrecorded_fails hfails
    cases hq
  · cases unrecorded_fails hfails

/-- The second write fails: the first delivery is ticketed, then pending again,
and counted as ticketed. -/
theorem second_unrecorded_undoes_first : (unrecorded 1).OneFailure ∧
    ¬ KeepsSent (unrecorded 1) 100 twoDeliveries := by
  refine ⟨unrecorded_oneFailure 1, fun h => ?_⟩
  have hwrites : ((dispatchPending (unrecorded 1) 100).run twoDeliveries).events.filterMap
      PushEvent.written = [("d1", .ticketed), ("d1", .pending), ("d2", .pending)] := by decide
  have hkept := h.kept
  rw [hwrites] at hkept
  have hafter := List.rel_of_pairwise_cons hkept List.mem_cons_self rfl rfl
  exact hafter.1 rfl

end Feca.Push
