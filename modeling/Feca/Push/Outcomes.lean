import Feca.Push.System

/-! # What a dispatch run writes

A run that nobody interrupts writes a list of outcomes, each to one delivery,
and posts a list of batches. Both depend on the deliveries it selected, on the
replies and on the statements that fail, and no more on the store.
-/

namespace Feca.Push

open Concurrency Concurrency.Prog Relational

/-! ## Outcomes -/

/-- One write to one delivery. -/
abbrev Outcome := Id × DeliveryData

/-- What outcomes make of the delivery with an id. -/
def settle (id : Id) : List Outcome → Option PushDelivery → Option PushDelivery
  | [], d => d
  | o :: os, d => settle id os (if o.1 = id then d.map (·.set o.2) else d)

theorem settle_append (id : Id) (os ps : List Outcome) (d : Option PushDelivery) :
    settle id (os ++ ps) d = settle id ps (settle id os d) := by
  induction os generalizing d with
  | nil => rfl
  | cons o os ih => exact ih _

theorem settle_isSome (id : Id) (os : List Outcome) (d : Option PushDelivery) :
    (settle id os d).isSome = d.isSome := by
  induction os generalizing d with
  | nil => rfl
  | cons o os ih =>
      rw [settle, ih]
      split
      · exact Option.isSome_map
      · rfl

/-- What outcomes make of a delivery. -/
def settled (os : List Outcome) (d : PushDelivery) : PushDelivery :=
  os.foldl (fun d o => if o.1 = d.id then d.set o.2 else d) d

theorem settled_id (os : List Outcome) (d : PushDelivery) : (settled os d).id = d.id := by
  induction os generalizing d with
  | nil => rfl
  | cons o os ih =>
      have hid : (if o.1 = d.id then d.set o.2 else d).id = d.id := by split <;> rfl
      exact (ih _).trans hid

theorem settled_append (os ps : List Outcome) (d : PushDelivery) :
    settled (os ++ ps) d = settled ps (settled os d) := List.foldl_append

theorem settle_some (os : List Outcome) (d : PushDelivery) :
    settle d.id os (some d) = some (settled os d) := by
  induction os generalizing d with
  | nil => rfl
  | cons o os ih =>
      have hid : (if o.1 = d.id then d.set o.2 else d).id = d.id := by split <;> rfl
      have hcons : settled (o :: os) d = settled os (if o.1 = d.id then d.set o.2 else d) := rfl
      rw [settle, hcons, ← ih, hid]
      by_cases h : o.1 = d.id
      · rw [if_pos h, if_pos h, Option.map_some]
      · rw [if_neg h, if_neg h]

/-- Outcomes of other deliveries do not matter. -/
theorem settle_of_notMem {id : Id} {os : List Outcome} (h : ∀ o ∈ os, o.1 ≠ id)
    (d : Option PushDelivery) : settle id os d = d := by
  induction os with
  | nil => rfl
  | cons o os ih =>
      rw [settle, if_neg (h o List.mem_cons_self),
        ih fun p hp => h p (List.mem_cons_of_mem _ hp)]

namespace PushDb

def delivery (s : PushDb) (id : Id) : Option PushDelivery := s.deliveries.rows.find? (·.id == id)

theorem delivery_eq_some {s : PushDb} {d : PushDelivery} {id : Id} :
    s.delivery id = some d ↔ d ∈ s.deliveries.rows ∧ d.id = id := by
  constructor
  · intro h
    exact ⟨List.mem_of_find?_eq_some h, by simpa using List.find?_some h⟩
  · rintro ⟨hd, rfl⟩
    cases h : s.delivery d.id with
    | none => simpa using List.find?_eq_none.mp h d hd
    | some e =>
        have hid : e.id = d.id := by simpa using List.find?_some h
        rw [s.delivery_unique (List.mem_of_find?_eq_some h) hd hid]

/-- An update by id finds its row. -/
theorem filter_id {s : PushDb} {d : PushDelivery} (hd : d ∈ s.deliveries.rows) :
    s.deliveries.rows.filter (·.id == d.id) = [d] := by
  have hmem : d ∈ s.deliveries.rows.filter (·.id == d.id) := List.mem_filter.mpr ⟨hd, by simp⟩
  have hone := Table.length_filter_eq_one (p := fun e => e.id == d.id) hd (by simp)
    fun a _ b _ ha hb => by
      simp only [beq_iff_eq] at ha hb
      simp [conflicts, ha, hb]
  obtain ⟨e, he⟩ := List.length_eq_one_iff.mp hone
  rw [he, List.mem_singleton] at hmem
  rw [he, hmem]

end PushDb

/-! ## Recording -/

/-- The id and the status an event has written. -/
def PushEvent.written : PushEvent → Option (Id × PushDeliveryStatus)
  | .wrote _ after => some (after.id, after.status)
  | _ => none

/-- The batch an event has posted. -/
def PushEvent.batch : PushEvent → Option (List DeliveryRow)
  | .posted batch _ => some batch
  | _ => none

/-- A program that nobody interrupts writes these outcomes, posts these batches
and ends with this result. -/
structure Records {α : Type} (p : PushProg α) (s : PushDb) (outcomes : List Outcome)
    (posts : List (List DeliveryRow)) (result : Except Thrown α) : Prop where
  result : (p.run s).result = result
  rows : (p.run s).store.deliveries.rows = s.deliveries.rows.map (settled outcomes)
  written : (p.run s).events.filterMap PushEvent.written =
    outcomes.map fun o => (o.1, o.2.status)
  posts : (p.run s).events.filterMap PushEvent.batch = posts

variable {α β : Type} {s : PushDb} {p : PushProg α} {os ps : List Outcome}
  {bs cs : List (List DeliveryRow)}

/-- The store holds a delivery with each of the ids. -/
def Present (s : PushDb) (ids : List Id) : Prop := ∀ id ∈ ids, (s.delivery id).isSome

theorem Records.store {result : Except Thrown α} (h : Records p s os bs result) (id : Id) :
    (p.run s).store.delivery id = settle id os (s.delivery id) := by
  have hfind : (p.run s).store.delivery id = (s.delivery id).map (settled os) := by
    unfold PushDb.delivery
    rw [h.rows, List.find?_map]
    congr 2
    funext d
    simp only [Function.comp, settled_id]
  rw [hfind]
  cases hread : s.delivery id with
  | none =>
      have hnone := settle_isSome id os none
      rw [Option.isSome_none, Option.isSome_eq_false_iff, Option.isNone_iff_eq_none] at hnone
      rw [hnone, Option.map_none]
  | some d =>
      obtain ⟨-, rfl⟩ := PushDb.delivery_eq_some.mp hread
      rw [settle_some, Option.map_some]

theorem Records.present {result : Except Thrown α} {ids : List Id} (h : Records p s os bs result)
    (hs : Present s ids) : Present (p.run s).store ids := by
  intro id hid
  rw [h.store, settle_isSome]
  exact hs id hid

theorem records_pure (a : α) (s : PushDb) : Records (pure a) s [] [] (.ok a) :=
  ⟨rfl, (List.map_id' _).symm, rfl, rfl⟩

theorem records_bind {a : α} {k : α → PushProg β} {result : Except Thrown β}
    (hp : Records p s os bs (.ok a)) (hk : Records (k a) (p.run s).store ps cs result) :
    Records (p >>= k) s (os ++ ps) (bs ++ cs) result := by
  have hrun := run_bind_ok (k := k) hp.result
  constructor
  · rw [hrun]
    exact hk.result
  · rw [hrun]
    refine hk.rows.trans ?_
    rw [hp.rows, List.map_map]
    congr 1
    funext d
    exact (settled_append os ps d).symm
  · rw [hrun, List.filterMap_append, List.map_append, hp.written, hk.written]
  · rw [hrun, List.filterMap_append, hp.posts, hk.posts]

/-- What follows writes and posts nothing. -/
theorem records_bind_pure {a : α} {b : β} {k : α → PushProg β} (hp : Records p s os bs (.ok a))
    (hk : k a = pure b) : Records (p >>= k) s os bs (.ok b) := by
  have hbind := records_bind (k := k) hp (hk ▸ records_pure b _)
  rwa [List.append_nil, List.append_nil] at hbind

theorem records_bind_error {e : Thrown} {k : α → PushProg β} (hp : Records p s os bs (.error e)) :
    Records (p >>= k) s os bs (.error e) := by
  have hrun := run_bind_error (k := k) hp.result
  constructor
  · rw [hrun]
  · rw [hrun]
    exact hp.rows
  · rw [hrun]
    exact hp.written
  · rw [hrun]
    exact hp.posts

theorem records_attempt {result : Except Thrown α} (h : Records p s os bs result) :
    Records (p.attempt : PushProg (Except Thrown α)) s os bs (.ok result) := by
  constructor
  · rw [run_attempt, h.result]
  · rw [run_attempt]
    exact h.rows
  · rw [run_attempt]
    exact h.written
  · rw [run_attempt]
    exact h.posts

theorem records_updateDelivery {id : Id} (data : DeliveryData) (hs : (s.delivery id).isSome) :
    Records (updateDelivery none id data) s [(id, data)] [] (.ok ()) := by
  obtain ⟨d, hd⟩ := Option.isSome_iff_exists.mp hs
  obtain ⟨hmem, rfl⟩ := PushDb.delivery_eq_some.mp hd
  unfold updateDelivery updateDeliveries statement
  constructor
  · rw [run_map, run_stmt]
    rfl
  · rw [run_map, run_stmt]
    show (s.setDeliveries (·.id == d.id) data).deliveries.rows = _
    rw [PushDb.setDeliveries_rows]
    apply List.map_congr_left
    intro e _
    by_cases heq : d.id = e.id
    · simp [settled, heq]
    · simp [settled, heq, Ne.symm heq]
  · rw [run_map, run_stmt]
    simp [PushDb.filter_id hmem, PushEvent.written]
  · rw [run_map, run_stmt]
    simp [PushDb.filter_id hmem, PushEvent.batch]

/-- A statement that leaves the deliveries alone. -/
theorem records_stmt {f : PushDb → PushAnswer α} (hrows : (f s).store.deliveries = s.deliveries)
    (hwritten : (f s).events.filterMap PushEvent.written = []) :
    Records (stmt f) s [] ((f s).events.filterMap PushEvent.batch) (f s).result := by
  constructor <;> rw [run_stmt]
  · rw [hrows]
    exact (List.map_id' _).symm
  · exact hwritten

theorem records_fails {e : Thrown} {f : PushDb → PushAnswer α} :
    Records (statement (some e) f) s [] [] (.error e) := records_stmt rfl rfl

theorem records_updateDelivery_fails {e : Thrown} (id : Id) (data : DeliveryData) :
    Records (updateDelivery (some e) id data) s [] [] (.error e) := by
  unfold updateDelivery updateDeliveries
  exact records_bind_error records_fails

theorem records_disableInstallation (installationId : Id) (date : Date) :
    Records (disableInstallation none installationId date) s [] [] (.ok ()) := by
  unfold disableInstallation
  exact records_stmt rfl rfl

theorem records_postExpo {β : Type} (batch : List DeliveryRow) (messages : List ExpoMessage)
    (reply : HttpReply β) :
    Records (postExpo (.posted batch messages) reply) s [] [batch] (readReply reply) := by
  unfold postExpo
  exact records_stmt rfl rfl

/-! ## Tickets -/

/-- What a ticket makes of its delivery. -/
def ticketData (env : DispatchEnv) (batch : Nat) (delivery : DeliveryRow) :
    ExpoPushTicket → DeliveryData
  | .ok id => ticketedData delivery id (env.sendAt batch)
  | .error message errorCode => unsentData delivery (isPermanentExpoError errorCode)
      (buildExpoErrorMessage message errorCode) (env.sendAt batch)

/-- What stops a ticket after its outcome was written. -/
def disableFailure (env : DispatchEnv) (batch index : Nat) : ExpoPushTicket → Option Thrown
  | .ok _ => none
  | .error _ errorCode =>
      if shouldDisableInstallation errorCode then env.fails (.disable batch index) else none

/-- `ticketed += 1`, or `failed += 1`. -/
def DispatchTally.add (tally : DispatchTally) (data : DeliveryData) : DispatchTally :=
  match data.status with
  | .ticketed => { tally with ticketed := tally.ticketed + 1 }
  | _ => tally.count data

theorem unsentData_status (delivery : DeliveryRow) (permanent : Bool) (message : String)
    (sendAt : Date) : (unsentData delivery permanent message sendAt).status = .failed ∨
      (unsentData delivery permanent message sendAt).status = .pending := by
  unfold unsentData
  dsimp only
  split
  · exact .inl rfl
  · exact .inr rfl

theorem add_unsentData (tally : DispatchTally) (delivery : DeliveryRow) (permanent : Bool)
    (message : String) (sendAt : Date) : tally.add (unsentData delivery permanent message sendAt) =
      tally.count (unsentData delivery permanent message sendAt) := by
  unfold DispatchTally.add
  rcases unsentData_status delivery permanent message sendAt with h | h
  · rw [h]
  · rw [h]

/-- What stops the loop at a ticket, before its outcome is counted. -/
def stopped (env : DispatchEnv) (batch index : Nat) (ticket : ExpoPushTicket) : Option Thrown :=
  (env.fails (.outcome batch index)).or (disableFailure env batch index ticket)

/-- What a ticket writes, counted or not. -/
def ticketOutcomes (env : DispatchEnv) (batch index : Nat) (delivery : DeliveryRow)
    (ticket : ExpoPushTicket) : List Outcome :=
  if (env.fails (.outcome batch index)).isSome then []
  else [(delivery.id, ticketData env batch delivery ticket)]

/-- `a`, unless something was thrown. -/
def unlessThrown (thrown : Option Thrown) (a : α) : Except Thrown α :=
  match thrown with
  | some e => .error e
  | none => .ok a

/-- A `try` block: the outcomes it has written and counted, the one it has
written only, and what stopped it. -/
structure Attempted where
  counted : List Outcome
  uncounted : List Outcome
  thrown : Option Thrown

def recordedTickets (env : DispatchEnv) (batch : Nat) :
    Nat → List (DeliveryRow × ExpoPushTicket) → Attempted
  | _, [] => ⟨[], [], none⟩
  | index, (delivery, ticket) :: rest =>
      match stopped env batch index ticket with
      | some e => ⟨[], ticketOutcomes env batch index delivery ticket, some e⟩
      | none =>
          let later := recordedTickets env batch (index + 1) rest
          { later with
            counted := ticketOutcomes env batch index delivery ticket ++ later.counted }

/-- A tally of outcomes. -/
def DispatchTally.addAll (tally : DispatchTally) (os : List Outcome) : DispatchTally :=
  os.foldl (fun tally o => tally.add o.2) tally

theorem DispatchTally.addAll_append (tally : DispatchTally) (os ps : List Outcome) :
    tally.addAll (os ++ ps) = (tally.addAll os).addAll ps := List.foldl_append

section recordedTickets

variable {env : DispatchEnv} {batch index : Nat} {delivery : DeliveryRow} {ticket : ExpoPushTicket}
  {rest : List (DeliveryRow × ExpoPushTicket)}

theorem recordedTickets_of_stopped {e : Thrown} (h : stopped env batch index ticket = some e) :
    recordedTickets env batch index ((delivery, ticket) :: rest) =
      ⟨[], ticketOutcomes env batch index delivery ticket, some e⟩ := by
  rw [recordedTickets, h]

theorem recordedTickets_of_none (h : stopped env batch index ticket = none) :
    recordedTickets env batch index ((delivery, ticket) :: rest) =
      { recordedTickets env batch (index + 1) rest with
        counted := ticketOutcomes env batch index delivery ticket ++
          (recordedTickets env batch (index + 1) rest).counted } := by
  rw [recordedTickets, h]

end recordedTickets

theorem records_recordTicket (env : DispatchEnv) (batch index : Nat) {delivery : DeliveryRow}
    (hs : (s.delivery delivery.id).isSome) (ticket : ExpoPushTicket) (tally : DispatchTally) :
    Records (recordTicket env batch index delivery ticket tally) s
      (ticketOutcomes env batch index delivery ticket) []
      (unlessThrown (stopped env batch index ticket)
        (tally.addAll (ticketOutcomes env batch index delivery ticket))) := by
  unfold ticketOutcomes stopped
  cases ticket with
  | ok id =>
      unfold recordTicket
      cases hfails : env.fails (.outcome batch index) with
      | some e => exact records_bind_error (records_updateDelivery_fails _ _)
      | none => exact records_bind_pure (records_updateDelivery _ hs) rfl
  | error message errorCode =>
      unfold recordTicket
      dsimp only
      cases hfails : env.fails (.outcome batch index) with
      | some e => exact records_bind_error (records_updateDelivery_fails _ _)
      | none =>
          set data := unsentData delivery (isPermanentExpoError errorCode)
            (buildExpoErrorMessage message errorCode) (env.sendAt batch) with hdata
          have hupdate := records_updateDelivery data hs
          have hadd : tally.addAll [(delivery.id, data)] = tally.count data :=
            add_unsentData tally delivery _ _ _
          by_cases hdisable : shouldDisableInstallation errorCode = true
          · simp only [disableFailure, hdisable, if_true]
            cases hdisabled : env.fails (.disable batch index) with
            | some e =>
                show Records _ s ([(delivery.id, data)] ++ []) ([] ++ []) _
                exact records_bind hupdate (records_bind_error records_fails)
            | none =>
                show Records _ s ([(delivery.id, data)] ++ []) ([] ++ [])
                  (.ok (tally.addAll [(delivery.id, data)]))
                rw [hadd]
                exact records_bind hupdate
                  (records_bind_pure (records_disableInstallation _ _) rfl)
          · simp only [disableFailure, hdisable, if_false, Bool.false_eq_true]
            show Records _ s [(delivery.id, data)] [] (.ok (tally.addAll [(delivery.id, data)]))
            rw [hadd]
            exact records_bind_pure hupdate rfl

theorem records_recordTickets (env : DispatchEnv) (batch index : Nat)
    (pairs : List (DeliveryRow × ExpoPushTicket)) (hs : Present s (pairs.map (·.1.id)))
    (tally : DispatchTally) :
    Records (recordTickets env batch index pairs tally) s
      ((recordedTickets env batch index pairs).counted ++
        (recordedTickets env batch index pairs).uncounted) []
      (.ok (tally.addAll (recordedTickets env batch index pairs).counted,
        (recordedTickets env batch index pairs).thrown)) := by
  induction pairs generalizing s index tally with
  | nil => exact records_pure _ _
  | cons q pairs ih =>
      obtain ⟨delivery, ticket⟩ := q
      have hticket := records_recordTicket env batch index
        (hs delivery.id List.mem_cons_self) ticket tally
      unfold recordTickets
      cases hstop : stopped env batch index ticket with
      | some e =>
          rw [recordedTickets_of_stopped hstop]
          rw [hstop] at hticket
          exact records_bind_pure (records_attempt hticket) rfl
      | none =>
          rw [recordedTickets_of_none hstop]
          rw [hstop] at hticket
          have hcaught := records_attempt hticket
          have hpresent := hcaught.present fun id hid => hs id (List.mem_cons_of_mem _ hid)
          have hlater := ih (index + 1) hpresent
            (tally.addAll (ticketOutcomes env batch index delivery ticket))
          rw [← DispatchTally.addAll_append] at hlater
          rw [List.append_assoc]
          exact records_bind hcaught hlater

/-! ## Batches -/

/-- What the `try` block of a batch writes. -/
def attempted (env : DispatchEnv) (batch : Nat) (deliveries : List DeliveryRow) : Attempted :=
  match readReply (env.reply batch) with
  | .error e => ⟨[], [], some e⟩
  | .ok response =>
      let tickets := normalizeExpoTickets response.data
      if tickets.length ≠ deliveries.length then
        ⟨[], [], some (.error "Expo push tickets count mismatch")⟩
      else recordedTickets env batch 0 (deliveries.zip tickets)

theorem records_sendBatch (env : DispatchEnv) (unreadCountByUserId : List (Id × Nat)) (batch : Nat)
    {deliveries : List DeliveryRow} (hs : Present s (deliveries.map (·.id)))
    (tally : DispatchTally) :
    Records (sendBatch env unreadCountByUserId batch deliveries tally) s
      ((attempted env batch deliveries).counted ++ (attempted env batch deliveries).uncounted)
      [deliveries]
      (.ok (tally.addAll (attempted env batch deliveries).counted,
        (attempted env batch deliveries).thrown)) := by
  have hpost := records_postExpo (s := s) deliveries
    (deliveries.map (buildMessage unreadCountByUserId)) (env.reply batch)
  unfold sendBatch attempted
  dsimp only
  cases hreply : readReply (env.reply batch) with
  | error e =>
      rw [hreply] at hpost
      exact records_bind_pure (records_attempt hpost) rfl
  | ok response =>
      rw [hreply] at hpost
      have hcaught := records_attempt hpost
      dsimp only
      by_cases hlength : (normalizeExpoTickets response.data).length ≠ deliveries.length
      · rw [if_pos hlength]
        exact records_bind_pure hcaught (if_pos hlength)
      · rw [if_neg hlength]
        have hpairs : Present s
            ((deliveries.zip (normalizeExpoTickets response.data)).map (·.1.id)) := by
          intro id hid
          obtain ⟨q, hq, rfl⟩ := List.mem_map.mp hid
          exact hs _ (List.mem_map_of_mem (List.of_mem_zip hq).1)
        have htickets := records_recordTickets env batch 0 _
          (hcaught.present hpairs) tally
        refine records_bind hcaught ?_
        dsimp only
        rw [if_neg hlength]
        exact htickets

/-- What the `catch` block of a batch writes, and what stops it. -/
def retried (env : DispatchEnv) (batch : Nat) (message : String) :
    Nat → List DeliveryRow → List Outcome × Option Thrown
  | _, [] => ([], none)
  | index, delivery :: rest =>
      match env.fails (.retry batch index) with
      | some e => ([], some e)
      | none =>
          let later := retried env batch message (index + 1) rest
          ((delivery.id, unsentData delivery false message (env.sendAt batch)) :: later.1, later.2)

theorem records_retryBatch (env : DispatchEnv) (batch : Nat) (message : String) (index : Nat)
    {deliveries : List DeliveryRow} (hs : Present s (deliveries.map (·.id)))
    (tally : DispatchTally) :
    Records (retryBatch env batch message index deliveries tally) s
      (retried env batch message index deliveries).1 []
      (unlessThrown (retried env batch message index deliveries).2
        (tally.addAll (retried env batch message index deliveries).1)) := by
  induction deliveries generalizing s index tally with
  | nil => exact records_pure _ _
  | cons delivery deliveries ih =>
      unfold retryBatch retried
      dsimp only
      cases hfails : env.fails (.retry batch index) with
      | some e => exact records_bind_error (records_updateDelivery_fails _ _)
      | none =>
          set data := unsentData delivery false message (env.sendAt batch)
          have hupdate := records_updateDelivery data (hs _ List.mem_cons_self)
          have hpresent := hupdate.present fun id hid => hs id (List.mem_cons_of_mem _ hid)
          have hlater := ih (index + 1) hpresent (tally.add data)
          have hadd : tally.count data = tally.add data := (add_unsentData tally _ _ _ _).symm
          rw [hadd]
          exact records_bind hupdate hlater

/-! ## Runs -/

/-- What a stretch of a run writes, counts and posts, and what stops it. -/
structure Dispatched where
  outcomes : List Outcome := []
  counted : List Outcome := []
  posts : List (List DeliveryRow) := []
  thrown : Option Thrown := none

/-- A batch, with the `catch` block where something was thrown. -/
def dispatchedBatch (env : DispatchEnv) (batch : Nat) (deliveries : List DeliveryRow) :
    Dispatched :=
  let tried := attempted env batch deliveries
  match tried.thrown with
  | none =>
      { outcomes := tried.counted ++ tried.uncounted
        counted := tried.counted
        posts := [deliveries] }
  | some e =>
      let caught := retried env batch (e.messageOr "Expo push send failed") 0 deliveries
      { outcomes := tried.counted ++ tried.uncounted ++ caught.1
        counted := tried.counted ++ caught.1
        posts := [deliveries]
        thrown := caught.2 }

section dispatchedBatch

variable {env : DispatchEnv} {batch : Nat} {deliveries : List DeliveryRow}

theorem dispatchedBatch_of_none (h : (attempted env batch deliveries).thrown = none) :
    dispatchedBatch env batch deliveries =
      { outcomes := (attempted env batch deliveries).counted ++
          (attempted env batch deliveries).uncounted
        counted := (attempted env batch deliveries).counted
        posts := [deliveries] } := by
  unfold dispatchedBatch
  simp only [h]

theorem dispatchedBatch_of_some {e : Thrown}
    (h : (attempted env batch deliveries).thrown = some e) :
    dispatchedBatch env batch deliveries =
      { outcomes := (attempted env batch deliveries).counted ++
          (attempted env batch deliveries).uncounted ++
          (retried env batch (e.messageOr "Expo push send failed") 0 deliveries).1
        counted := (attempted env batch deliveries).counted ++
          (retried env batch (e.messageOr "Expo push send failed") 0 deliveries).1
        posts := [deliveries]
        thrown := (retried env batch (e.messageOr "Expo push send failed") 0 deliveries).2 } := by
  unfold dispatchedBatch
  simp only [h]

end dispatchedBatch

theorem records_dispatchBatch (env : DispatchEnv) (unreadCountByUserId : List (Id × Nat))
    (batch : Nat) {deliveries : List DeliveryRow} (hs : Present s (deliveries.map (·.id)))
    (tally : DispatchTally) :
    Records (dispatchBatch env unreadCountByUserId batch deliveries tally) s
      (dispatchedBatch env batch deliveries).outcomes (dispatchedBatch env batch deliveries).posts
      (unlessThrown (dispatchedBatch env batch deliveries).thrown
        (tally.addAll (dispatchedBatch env batch deliveries).counted)) := by
  have htry := records_sendBatch env unreadCountByUserId batch hs tally
  unfold dispatchBatch
  cases hthrown : (attempted env batch deliveries).thrown with
  | none =>
      rw [dispatchedBatch_of_none hthrown]
      rw [hthrown] at htry
      exact records_bind_pure htry rfl
  | some e =>
      rw [dispatchedBatch_of_some hthrown]
      rw [hthrown] at htry
      have hcatch := records_retryBatch env batch (e.messageOr "Expo push send failed") 0
        (htry.present hs)
        (tally.addAll (attempted env batch deliveries).counted)
      rw [← DispatchTally.addAll_append] at hcatch
      exact records_bind htry hcatch

/-- The `data` of the deliveries whose installation is inactive. -/
def cancelledData (env : DispatchEnv) : DeliveryData :=
  { failedAt := some (some env.cancelledAt)
    lastError := some (some "Installation is inactive")
    status := .cancelled }

/-- The cancellations, in the order of the table. -/
def cancelledOutcomes (env : DispatchEnv) (s : PushDb) (inactive : List DeliveryRow) :
    List Outcome :=
  (s.deliveries.rows.filter fun d => (inactive.map (·.id)).contains d.id).map fun d =>
    (d.id, cancelledData env)

def dispatchedBatches (env : DispatchEnv) : Nat → List (List DeliveryRow) → Dispatched
  | _, [] => {}
  | batch, deliveries :: rest =>
      let now := dispatchedBatch env batch deliveries
      match now.thrown with
      | some _ => now
      | none =>
          let later := dispatchedBatches env (batch + 1) rest
          { outcomes := now.outcomes ++ later.outcomes
            counted := now.counted ++ later.counted
            posts := now.posts ++ later.posts
            thrown := later.thrown }

section dispatchedBatches

variable {env : DispatchEnv} {batch : Nat} {deliveries : List DeliveryRow}
  {rest : List (List DeliveryRow)}

theorem dispatchedBatches_of_some {e : Thrown}
    (h : (dispatchedBatch env batch deliveries).thrown = some e) :
    dispatchedBatches env batch (deliveries :: rest) = dispatchedBatch env batch deliveries := by
  rw [dispatchedBatches]
  simp only [h]

theorem dispatchedBatches_of_none (h : (dispatchedBatch env batch deliveries).thrown = none) :
    dispatchedBatches env batch (deliveries :: rest) =
      { outcomes := (dispatchedBatch env batch deliveries).outcomes ++
          (dispatchedBatches env (batch + 1) rest).outcomes
        counted := (dispatchedBatch env batch deliveries).counted ++
          (dispatchedBatches env (batch + 1) rest).counted
        posts := (dispatchedBatch env batch deliveries).posts ++
          (dispatchedBatches env (batch + 1) rest).posts
        thrown := (dispatchedBatches env (batch + 1) rest).thrown } := by
  rw [dispatchedBatches]
  simp only [h]

end dispatchedBatches

theorem records_dispatchBatches (env : DispatchEnv) (unreadCountByUserId : List (Id × Nat))
    (batch : Nat) {batches : List (List DeliveryRow)}
    (hs : ∀ b ∈ batches, Present s (b.map (·.id))) (tally : DispatchTally) :
    Records (dispatchBatches env unreadCountByUserId batch batches tally) s
      (dispatchedBatches env batch batches).outcomes (dispatchedBatches env batch batches).posts
      (unlessThrown (dispatchedBatches env batch batches).thrown
        (tally.addAll (dispatchedBatches env batch batches).counted)) := by
  induction batches generalizing s batch tally with
  | nil => exact records_pure _ _
  | cons deliveries rest ih =>
      have hnow := records_dispatchBatch env unreadCountByUserId batch
        (hs deliveries List.mem_cons_self) tally
      unfold dispatchBatches
      cases hthrown : (dispatchedBatch env batch deliveries).thrown with
      | some e =>
          rw [dispatchedBatches_of_some hthrown]
          rw [hthrown] at hnow ⊢
          exact records_bind_error hnow
      | none =>
          rw [dispatchedBatches_of_none hthrown]
          rw [hthrown] at hnow
          have hlater := ih (batch + 1) (fun b hb => hnow.present (hs b (List.mem_cons_of_mem _ hb)))
            (tally.addAll (dispatchedBatch env batch deliveries).counted)
          rw [← DispatchTally.addAll_append] at hlater
          exact records_bind hnow hlater

/-- A cancellation reaches the rows it names. -/
theorem settled_cancelled (env : DispatchEnv) (inactive : List DeliveryRow) {d : PushDelivery}
    (hd : d ∈ s.deliveries.rows) : settled (cancelledOutcomes env s inactive) d =
      if (inactive.map (·.id)).contains d.id then d.set (cancelledData env) else d := by
  have hsettle : ∀ (ds : List PushDelivery) (e : PushDelivery),
      settled (ds.map fun d => (d.id, cancelledData env)) e =
        if e.id ∈ ds.map (·.id) then e.set (cancelledData env) else e := by
    intro ds
    induction ds with
    | nil => exact fun e => rfl
    | cons d ds ih =>
        intro e
        have hcons : settled ((d :: ds).map fun d => (d.id, cancelledData env)) e =
            settled (ds.map fun d => (d.id, cancelledData env))
              (if d.id = e.id then e.set (cancelledData env) else e) := rfl
        rw [hcons, ih]
        by_cases heq : d.id = e.id
        · have hset : (e.set (cancelledData env)).set (cancelledData env) =
              e.set (cancelledData env) := rfl
          simp [heq, hset]
        · have hne : e.id ≠ d.id := Ne.symm heq
          simp [heq, hne]
  unfold cancelledOutcomes
  rw [hsettle]
  by_cases hin : (inactive.map (·.id)).contains d.id = true
  · have hmem : d.id ∈ (s.deliveries.rows.filter fun d =>
        (inactive.map (·.id)).contains d.id).map (·.id) :=
      List.mem_map.mpr ⟨d, List.mem_filter.mpr ⟨hd, hin⟩, rfl⟩
    rw [if_pos hmem, if_pos hin]
  · have hmem : d.id ∉ (s.deliveries.rows.filter fun d =>
        (inactive.map (·.id)).contains d.id).map (·.id) := by
      intro hmem
      obtain ⟨q, hq, hid⟩ := List.mem_map.mp hmem
      exact hin (hid ▸ (List.mem_filter.mp hq).2)
    rw [if_neg hmem, if_neg hin]

theorem settle_cancelled (env : DispatchEnv) (inactive : List DeliveryRow) (id : Id) :
    settle id (cancelledOutcomes env s inactive) (s.delivery id) = (s.delivery id).map fun d =>
      if (inactive.map (·.id)).contains d.id then d.set (cancelledData env) else d := by
  cases hread : s.delivery id with
  | none =>
      have hnone := settle_isSome id (cancelledOutcomes env s inactive) none
      rw [Option.isSome_none, Option.isSome_eq_false_iff, Option.isNone_iff_eq_none] at hnone
      rw [hnone, Option.map_none]
  | some d =>
      obtain ⟨hd, rfl⟩ := PushDb.delivery_eq_some.mp hread
      rw [settle_some, settled_cancelled env inactive hd, Option.map_some]

/-- What stops the cancellation. -/
def cancelFailure (env : DispatchEnv) (inactive : List DeliveryRow) : Option Thrown :=
  if inactive.length > 0 then env.fails .cancel else none

theorem records_cancelInactive {env : DispatchEnv} {inactive : List DeliveryRow}
    (hnone : cancelFailure env inactive = none) :
    Records (cancelInactive env inactive) s (cancelledOutcomes env s inactive) []
      (.ok (cancelledOutcomes env s inactive).length) := by
  unfold cancelFailure at hnone
  unfold cancelInactive
  split at hnone
  · rw [if_pos (by assumption), hnone]
    unfold updateDeliveries statement
    constructor <;> rw [run_stmt]
    · simp [cancelledOutcomes]
    · rw [PushDb.setDeliveries_rows]
      apply List.map_congr_left
      intro d hd
      exact (settled_cancelled env inactive hd).symm
    · simp only [cancelledOutcomes, List.filterMap_map, List.map_map]
      exact congrFun (List.filterMap_eq_map (f := fun d : PushDelivery =>
        (d.id, PushDeliveryStatus.cancelled))) _
    · simp [PushEvent.batch]
  · rename_i hempty
    have hnil : inactive = [] := List.length_eq_zero_iff.mp (by omega)
    subst hnil
    rw [if_neg hempty]
    have hcancelled : cancelledOutcomes env s [] = [] := by
      unfold cancelledOutcomes
      simp
    rw [hcancelled]
    exact records_pure _ _

theorem records_cancelInactive_fails {env : DispatchEnv} {inactive : List DeliveryRow}
    {e : Thrown} (hsome : cancelFailure env inactive = some e) :
    Records (cancelInactive env inactive) s [] [] (.error e) := by
  unfold cancelFailure at hsome
  unfold cancelInactive
  split at hsome
  · rw [if_pos (by assumption), hsome]
    exact records_fails
  · cases hsome

/-- What a run does with the active deliveries it selected. -/
def sentRows (env : DispatchEnv) (rows : List DeliveryRow) : Dispatched :=
  if (activeDeliveries rows).length = 0 then {}
  else
    match env.fails .unread with
    | some e => { thrown := some e }
    | none => dispatchedBatches env 0 (chunk (activeDeliveries rows) maxSendBatchSize)

/-- What a run does with the deliveries it selected. -/
def dispatchedRows (env : DispatchEnv) (s : PushDb) (rows : List DeliveryRow) : Dispatched :=
  match cancelFailure env (inactiveDeliveries rows) with
  | some e => { thrown := some e }
  | none =>
      { sentRows env rows with
        outcomes := cancelledOutcomes env s (inactiveDeliveries rows) ++
          (sentRows env rows).outcomes }

/-- What a run returns when nothing stops it. -/
def dispatchedResult (env : DispatchEnv) (s : PushDb) (rows : List DeliveryRow) : DispatchResult :=
  let tally := DispatchTally.addAll {} (dispatchedRows env s rows).counted
  { cancelled := (cancelledOutcomes env s (inactiveDeliveries rows)).length
    failed := tally.failed
    processed := rows.length
    ticketed := tally.ticketed }

/-- The selected rows are in the store. -/
def Selected (s : PushDb) (rows : List DeliveryRow) : Prop :=
  (rows.map (·.id)).Nodup ∧ ∀ r ∈ rows, s.delivery r.id = some r.toPushDelivery

theorem selected_due (s : PushDb) (now : Date) (limit : Nat) : Selected s (s.due now limit) := by
  refine ⟨s.nodup_due now limit, fun r hr => ?_⟩
  obtain ⟨d, hd, hrow, -, -⟩ := PushDb.mem_due hr
  have hread := (PushDb.deliveryRow_spec hrow).1
  rw [hread]
  exact PushDb.delivery_eq_some.mpr ⟨hd, rfl⟩

theorem Selected.present {rows deliveries : List DeliveryRow} (h : Selected s rows)
    (hrows : ∀ r ∈ deliveries, r ∈ rows) : Present s (deliveries.map (·.id)) := by
  intro id hid
  obtain ⟨r, hr, rfl⟩ := List.mem_map.mp hid
  rw [h.2 r (hrows r hr)]
  rfl

theorem records_countUnread {env : DispatchEnv} (active : List DeliveryRow)
    (hnone : env.fails .unread = none) :
    Records (countUnread env active) s [] []
      (.ok (s.unreadCounts (distinctIds (active.map (·.notification.userId))))) := by
  unfold countUnread
  rw [hnone]
  exact records_stmt rfl rfl

/-- The part of a run after the cancellation. -/
def sendActive (env : DispatchEnv) (rows : List DeliveryRow) (cancelled : Nat) :
    PushProg DispatchResult :=
  if (activeDeliveries rows).length = 0 then pure ⟨cancelled, 0, rows.length, 0⟩
  else do
    let unreadCountByUserId ← countUnread env (activeDeliveries rows)
    let tally ← dispatchBatches env unreadCountByUserId 0
      (chunk (activeDeliveries rows) maxSendBatchSize) {}
    pure ⟨cancelled, tally.failed, rows.length, tally.ticketed⟩

theorem dispatchDeliveries_eq {env : DispatchEnv} {rows : List DeliveryRow}
    (hrows : ¬ rows.length = 0) : dispatchDeliveries env rows =
      cancelInactive env (inactiveDeliveries rows) >>= sendActive env rows := by
  unfold dispatchDeliveries
  rw [if_neg hrows]
  rfl

theorem records_sendActive {env : DispatchEnv} {rows : List DeliveryRow}
    (hs : Present s (rows.map (·.id))) (cancelled : Nat) :
    Records (sendActive env rows cancelled) s (sentRows env rows).outcomes
      (sentRows env rows).posts
      (unlessThrown (sentRows env rows).thrown
        { cancelled := cancelled
          failed := (DispatchTally.addAll {} (sentRows env rows).counted).failed
          processed := rows.length
          ticketed := (DispatchTally.addAll {} (sentRows env rows).counted).ticketed }) := by
  unfold sendActive sentRows
  by_cases hactive : (activeDeliveries rows).length = 0
  · rw [if_pos hactive, if_pos hactive]
    exact records_pure _ _
  · rw [if_neg hactive, if_neg hactive]
    cases hunread : env.fails .unread with
    | some e =>
        unfold countUnread
        rw [hunread]
        exact records_bind_error records_fails
    | none =>
        have hcount := records_countUnread (s := s) (activeDeliveries rows) hunread
        have hpresent : ∀ b ∈ chunk (activeDeliveries rows) maxSendBatchSize,
            Present s (b.map (·.id)) := by
          intro b hb id hid
          obtain ⟨r, hr, rfl⟩ := List.mem_map.mp hid
          exact hs _ (List.mem_map_of_mem (mem_of_mem_active (mem_of_mem_chunk hb hr)))
        have hsent := records_dispatchBatches env
          (s.unreadCounts (distinctIds ((activeDeliveries rows).map (·.notification.userId)))) 0
          (fun b hb => hcount.present (hpresent b hb)) {}
        dsimp only
        cases hthrown : (dispatchedBatches env 0
            (chunk (activeDeliveries rows) maxSendBatchSize)).thrown with
        | some e =>
            rw [hthrown] at hsent
            exact records_bind hcount (records_bind_error hsent)
        | none =>
            rw [hthrown] at hsent
            exact records_bind hcount (records_bind_pure hsent rfl)

theorem records_dispatchDeliveries {env : DispatchEnv} {rows : List DeliveryRow}
    (hs : Present s (rows.map (·.id))) :
    Records (dispatchDeliveries env rows) s (dispatchedRows env s rows).outcomes
      (dispatchedRows env s rows).posts
      (unlessThrown (dispatchedRows env s rows).thrown (dispatchedResult env s rows)) := by
  unfold dispatchedResult
  by_cases hrows : rows.length = 0
  · have hnil : rows = [] := List.length_eq_zero_iff.mp hrows
    subst hnil
    have hcancelled : cancelledOutcomes env s (inactiveDeliveries []) = [] := by
      simp [cancelledOutcomes, inactiveDeliveries]
    have hnone : dispatchedRows env s [] = {} := by
      show ({ sentRows env [] with
        outcomes := cancelledOutcomes env s (inactiveDeliveries []) ++ [] } : Dispatched) = {}
      rw [hcancelled]
      rfl
    rw [hnone, hcancelled]
    exact records_pure _ _
  · rw [dispatchDeliveries_eq hrows]
    unfold dispatchedRows
    cases hcancel : cancelFailure env (inactiveDeliveries rows) with
    | some e => exact records_bind_error (records_cancelInactive_fails hcancel)
    | none =>
        have hcancelled := records_cancelInactive (s := s) hcancel
        exact records_bind hcancelled (records_sendActive (hcancelled.present hs) _)

/-- What a run does. -/
def dispatched (env : DispatchEnv) (limit : Nat) (s : PushDb) : Dispatched :=
  match env.fails .select with
  | some e => { thrown := some e }
  | none => dispatchedRows env s (s.due env.now limit)

theorem records_dispatchPending (env : DispatchEnv) (limit : Nat) (s : PushDb) :
    Records (dispatchPending env limit) s (dispatched env limit s).outcomes
      (dispatched env limit s).posts
      (unlessThrown (dispatched env limit s).thrown
        (dispatchedResult env s (s.due env.now limit))) := by
  unfold dispatchPending selectDue dispatched
  cases hselect : env.fails .select with
  | some e => exact records_bind_error records_fails
  | none =>
      have hread : Records (statement none fun s : PushDb =>
          ⟨s, [.selected (s.due env.now limit)], .ok (s.due env.now limit)⟩) s [] []
          (.ok (s.due env.now limit)) := records_stmt rfl rfl
      have hs := hread.present ((selected_due s env.now limit).present fun _ hr => hr)
      exact records_bind hread (records_dispatchDeliveries hs)

end Feca.Push
