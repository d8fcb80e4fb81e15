import Feca.Collections.Window
import Feca.Push.Interrupted

/-! # Which receipts are ever read

A run of `syncReceipts` looks at the oldest ticketed deliveries up to its limit
and leaves those without a receipt where they are: the runs serve a queue through
a window at its head.
-/

namespace Feca.Push

open Concurrency Concurrency.Prog Relational Collections

/-! ## The order of the queue -/

theorem sentBefore_total (a b : PushDelivery) : sentBefore a b ∨ sentBefore b a := by
  unfold sentBefore
  cases a.sentAt with
  | none =>
      cases b.sentAt with
      | none => exact le_total a.createdAt b.createdAt
      | some y => exact .inr trivial
  | some x =>
      cases b.sentAt with
      | none => exact .inl trivial
      | some y =>
          dsimp only
          rcases lt_trichotomy x y with h | h | h
          · exact .inl (.inl h)
          · rcases le_total a.createdAt b.createdAt with hle | hle
            · exact .inl (.inr ⟨h, hle⟩)
            · exact .inr (.inr ⟨h.symm, hle⟩)
          · exact .inr (.inl h)

theorem sentBefore_trans (a b c : PushDelivery) (hab : sentBefore a b) (hbc : sentBefore b c) :
    sentBefore a c := by
  unfold sentBefore at *
  cases ha : a.sentAt with
  | none =>
      cases hb : b.sentAt with
      | none =>
          cases hc : c.sentAt with
          | none =>
              simp only [ha, hb, hc] at hab hbc ⊢
              exact hab.trans hbc
          | some z => simp [hb, hc] at hbc
      | some y => simp [ha, hb] at hab
  | some x =>
      cases hc : c.sentAt with
      | none => trivial
      | some z =>
          cases hb : b.sentAt with
          | none => simp [hb, hc] at hbc
          | some y =>
              simp only [ha, hb, hc] at hab hbc ⊢
              rcases hab with hlt | ⟨rfl, hle⟩
              · rcases hbc with hlt' | ⟨rfl, -⟩
                · exact .inl (lt_trans hlt hlt')
                · exact .inl hlt
              · rcases hbc with hlt' | ⟨rfl, hle'⟩
                · exact .inl hlt'
                · exact .inr ⟨rfl, hle.trans hle'⟩

/-- The ticketed deliveries, in the order in which they are read. -/
def PushDb.ticketQueue (s : PushDb) : List PushDelivery :=
  (s.deliveries.rows.filter fun d => d.expoTicketId != none && d.status == .ticketed).insertionSort
    sentBefore

theorem PushDb.ticketed_eq (s : PushDb) (limit : Nat) : s.ticketed limit = s.ticketQueue.take limit :=
  rfl

theorem PushDb.mem_ticketQueue {s : PushDb} {d : PushDelivery} : d ∈ s.ticketQueue ↔
    d ∈ s.deliveries.rows ∧ d.expoTicketId ≠ none ∧ d.status = .ticketed := by
  unfold PushDb.ticketQueue
  rw [List.mem_insertionSort, List.mem_filter]
  simp

theorem PushDb.nodup_ticketQueue (s : PushDb) : s.ticketQueue.Nodup := by
  have h := s.nodup_findMany_ids (fun d => d.expoTicketId != none && d.status == .ticketed)
    sentBefore s.ticketQueue.length
  have htake : s.ticketQueue.take s.ticketQueue.length = s.ticketQueue := List.take_length
  exact (htake ▸ h : (s.ticketQueue.map (·.id)).Nodup).of_map _

/-! ## What a run records -/

/-- Expo has a receipt exactly for the tickets of `R`, and no statement fails. -/
structure ReceiptEnv.Answers (env : ReceiptEnv) (R : String → Bool) : Prop where
  fails : ∀ a, env.fails a = none
  reply : ∀ batch, ∃ receipts, readReply (env.reply batch) = .ok ⟨some receipts⟩ ∧
    ∀ id, (receipts id).isSome = R id

/-- The ticket of the delivery is in `R`. -/
def hasReceipt (R : String → Bool) (d : PushDelivery) : Bool :=
  (d.expoTicketId.bind orNull).any R

/-- The outcomes are those of the deliveries with a receipt. -/
def Receives (R : String → Bool) (ds : List PushDelivery) (os : List Outcome) : Prop :=
  os.map (·.1) = (ds.filter (hasReceipt R)).map (·.id) ∧ ∀ o ∈ os, o.2.status ≠ .ticketed

theorem Receives.append {R : String → Bool} {ds es : List PushDelivery} {os ps : List Outcome}
    (hds : Receives R ds os) (hes : Receives R es ps) : Receives R (ds ++ es) (os ++ ps) := by
  constructor
  · rw [List.map_append, List.filter_append, List.map_append, hds.1, hes.1]
  · intro o ho
    rcases List.mem_append.mp ho with ho | ho
    · exact hds.2 o ho
    · exact hes.2 o ho

theorem receives_of_none {R : String → Bool} {ds : List PushDelivery}
    (h : ∀ d ∈ ds, hasReceipt R d = false) : Receives R ds [] := by
  have hnil : ds.filter (hasReceipt R) = [] :=
    List.filter_eq_nil_iff.mpr fun d hd => by simp [h d hd]
  exact ⟨by rw [hnil]; rfl, fun o ho => by cases ho⟩

section records

variable {s : PushDb} {env : ReceiptEnv} {R : String → Bool}

theorem records_recordReceipt (henv : env.Answers R) (batch index : Nat) {d : PushDelivery}
    (hd : (s.delivery d.id).isSome) (receipt : ExpoPushReceipt) (tally : ReceiptTally) :
    ∃ data tally', data.status ≠ .ticketed ∧
      Records (recordReceipt env batch index d receipt tally) s [(d.id, data)] [] (.ok tally') := by
  unfold recordReceipt
  rw [henv.fails, henv.fails]
  by_cases hok : receipt.ok = true
  · rw [if_pos hok]
    exact ⟨_, _, by simp [deliveredData], records_bind_pure (records_updateDelivery _ hd) rfl⟩
  · rw [if_neg hok]
    have hupdate := records_updateDelivery (undeliveredData receipt (env.handledAt batch)) hd
    refine ⟨undeliveredData receipt (env.handledAt batch),
      { tally with failed := tally.failed + 1 }, by simp [undeliveredData], ?_⟩
    by_cases hdisable : shouldDisableInstallation receipt.errorCode = true
    · rw [if_pos hdisable]
      show Records _ s ([(d.id, undeliveredData receipt (env.handledAt batch))] ++ []) ([] ++ []) _
      exact records_bind hupdate (records_bind_pure (records_disableInstallation _ _) rfl)
    · rw [if_neg hdisable]
      exact records_bind_pure hupdate rfl

theorem records_recordReceipts (henv : env.Answers R) (batch : Nat)
    {receipts : String → Option ExpoPushReceipt} (hreceipts : ∀ id, (receipts id).isSome = R id)
    (index : Nat) {ds : List PushDelivery} (hs : Present s (ds.map (·.id)))
    (tally : ReceiptTally) : ∃ os tally', Receives R ds os ∧
      Records (recordReceipts env batch receipts index ds tally) s os [] (.ok tally') := by
  induction ds generalizing s index tally with
  | nil => exact ⟨[], tally, ⟨rfl, fun o ho => by cases ho⟩, records_pure _ _⟩
  | cons d ds ih =>
      have hhas : (receiptOf receipts d).isSome = hasReceipt R d := by
        unfold receiptOf hasReceipt
        cases d.expoTicketId.bind orNull with
        | none => rfl
        | some id => exact hreceipts id
      have hrest : Present s (ds.map (·.id)) := fun id hid => hs id (List.mem_cons_of_mem _ hid)
      unfold recordReceipts
      cases hreceipt : receiptOf receipts d with
      | none =>
          rw [hreceipt] at hhas
          obtain ⟨os, tally', hos, hrecords⟩ := ih (index + 1) hrest tally
          have hfirst : Receives R [d] [] := receives_of_none fun e he => by
            rw [List.mem_singleton.mp he]
            exact hhas.symm
          exact ⟨os, tally', hfirst.append hos, hrecords⟩
      | some receipt =>
          rw [hreceipt] at hhas
          obtain ⟨data, tally', hstatus, hrecord⟩ := records_recordReceipt henv batch index
            (hs d.id List.mem_cons_self) receipt tally
          have hcaught := records_attempt hrecord
          obtain ⟨os, tally'', hos, hrecords⟩ := ih (index + 1) (hcaught.present hrest) tally'
          have hfirst : Receives R [d] [(d.id, data)] := by
            constructor
            · simp [← hhas]
            · intro o ho
              rw [List.mem_singleton.mp ho]
              exact hstatus
          exact ⟨_, tally'', hfirst.append hos, records_bind hcaught hrecords⟩

theorem records_receiptBatch (henv : env.Answers R) (batch : Nat) {ds : List PushDelivery}
    (hs : Present s (ds.map (·.id))) (tally : ReceiptTally) : ∃ os tally', Receives R ds os ∧
      Records (receiptBatch env batch ds tally) s os [] (.ok tally') := by
  unfold receiptBatch
  dsimp only
  by_cases hempty : (ds.filterMap fun d => d.expoTicketId.bind orNull).length = 0
  · rw [if_pos hempty]
    have hnone : ∀ d ∈ ds, hasReceipt R d = false := by
      intro d hd
      have hnil := List.length_eq_zero_iff.mp hempty
      unfold hasReceipt
      rw [List.filterMap_eq_nil_iff.mp hnil d hd, Option.any_none]
    exact ⟨[], tally, receives_of_none hnone, records_pure _ _⟩
  · rw [if_neg hempty]
    obtain ⟨receipts, hreply, hreceipts⟩ := henv.reply batch
    have hask : Records (postExpo (.asked (ds.filterMap fun d => d.expoTicketId.bind orNull))
        (env.reply batch)) s [] [] (readReply (env.reply batch)) := records_stmt rfl rfl
    rw [hreply] at hask
    have hcaught := records_attempt hask
    obtain ⟨os, tally', hos, hrecords⟩ := records_recordReceipts henv batch hreceipts 0
      (hcaught.present hs) tally
    exact ⟨os, tally', hos, records_bind hcaught hrecords⟩

theorem records_receiptBatches (henv : env.Answers R) (batch : Nat)
    {batches : List (List PushDelivery)} (hs : Present s (batches.flatten.map (·.id)))
    (tally : ReceiptTally) : ∃ os tally', Receives R batches.flatten os ∧
      Records (receiptBatches env batch batches tally) s os [] (.ok tally') := by
  induction batches generalizing s batch tally with
  | nil => exact ⟨[], tally, ⟨rfl, fun o ho => by cases ho⟩, records_pure _ _⟩
  | cons ds rest ih =>
      rw [List.flatten_cons, List.map_append] at hs
      rw [List.flatten_cons]
      obtain ⟨os, tally', hos, hnow⟩ := records_receiptBatch henv batch
        (fun id hid => hs id (List.mem_append_left _ hid)) tally
      obtain ⟨ps, tally'', hps, hlater⟩ := ih (batch + 1)
        (hnow.present fun id hid => hs id (List.mem_append_right _ hid)) tally'
      exact ⟨os ++ ps, tally'', hos.append hps, records_bind hnow hlater⟩

/-- A run records the receipts that are there for the head of the queue. -/
theorem records_syncReceipts (henv : env.Answers R) (limit : Nat) (s : PushDb) :
    ∃ os result, Receives R (s.ticketQueue.take limit) os ∧
      Records (syncReceipts env limit) s os [] (.ok result) := by
  have hread : Records (statement none fun s : PushDb =>
      ⟨s, [.polled (s.ticketed limit)], .ok (s.ticketed limit)⟩) s [] []
      (.ok (s.ticketed limit)) := records_stmt rfl rfl
  unfold syncReceipts selectTicketed
  rw [henv.fails]
  have hflatten : (chunk (s.ticketed limit) maxReceiptBatchSize).flatten = s.ticketed limit :=
    flatten_chunk _ (by decide)
  have hpresent : Present s
      ((chunk (s.ticketed limit) maxReceiptBatchSize).flatten.map (·.id)) := by
    rw [hflatten]
    intro id hid
    obtain ⟨d, hd, rfl⟩ := List.mem_map.mp hid
    rw [PushDb.delivery_eq_some.mpr ⟨(PushDb.mem_ticketed hd).1, rfl⟩]
    rfl
  obtain ⟨os, tally, hos, hbatches⟩ := records_receiptBatches henv 0 (hread.present hpresent) {}
  rw [hflatten] at hos
  by_cases hempty : (s.ticketed limit).length = 0
  · have hnil : s.ticketed limit = [] := List.length_eq_zero_iff.mp hempty
    refine ⟨[], ⟨0, 0, 0⟩, ?_, records_bind_pure hread (if_pos hempty)⟩
    rw [← PushDb.ticketed_eq, hnil]
    exact ⟨rfl, fun o ho => by cases ho⟩
  · refine ⟨os, ⟨(s.ticketed limit).length, tally.delivered, tally.failed⟩, hos, ?_⟩
    have hrest : Records (receiptDeliveries env (s.ticketed limit))
        ((statement none fun s : PushDb => ⟨s, [.polled (s.ticketed limit)],
          .ok (s.ticketed limit)⟩ : PushProg (List PushDelivery)).run s).store os []
        (.ok ⟨(s.ticketed limit).length, tally.delivered, tally.failed⟩) := by
      unfold receiptDeliveries
      rw [if_neg hempty]
      exact records_bind_pure hbatches rfl
    exact records_bind hread hrest

end records

/-! ## One run -/

theorem settled_of_notMem {os : List Outcome} {d : PushDelivery} (h : d.id ∉ os.map (·.1)) :
    settled os d = d := by
  have hother : ∀ o ∈ os, o.1 ≠ d.id := by
    intro o ho heq
    apply h
    rw [← heq]
    exact List.mem_map_of_mem ho
  have hsome := settle_some os d
  rw [settle_of_notMem hother] at hsome
  exact (Option.some.inj hsome).symm

/-- Outcomes of one status leave no other. -/
theorem settled_status {os : List Outcome} {status : PushDeliveryStatus}
    (hos : ∀ o ∈ os, o.2.status ≠ status) {d : PushDelivery} (h : d.id ∈ os.map (·.1)) :
    (settled os d).status ≠ status := by
  induction os generalizing d with
  | nil => cases h
  | cons o os ih =>
      have hcons : settled (o :: os) d = settled os (if o.1 = d.id then d.set o.2 else d) := rfl
      have hrest := fun p hp => hos p (List.mem_cons_of_mem o hp)
      rw [hcons]
      by_cases hlater : d.id ∈ os.map (·.1)
      · apply ih hrest
        split
        · exact hlater
        · exact hlater
      · have heq : o.1 = d.id := by
          rcases List.mem_cons.mp h with heq | hmem
          · exact heq.symm
          · exact absurd hmem hlater
        rw [if_pos heq, settled_of_notMem (d := d.set o.2) hlater]
        exact hos o List.mem_cons_self

/-- A run of `syncReceipts`, and the store it leaves. -/
def afterReceipts (env : ReceiptEnv) (limit : Nat) (s : PushDb) : PushDb :=
  ((syncReceipts env limit).run s).store

/-- A run writes the deliveries in its window that have a receipt, and no other. -/
theorem rows_afterReceipts {env : ReceiptEnv} {R : String → Bool} (henv : env.Answers R)
    (limit : Nat) (s : PushDb) : ∃ g : PushDelivery → PushDelivery,
      (afterReceipts env limit s).deliveries.rows = s.deliveries.rows.map g ∧
        ∀ d ∈ s.deliveries.rows, (g d).id = d.id ∧
          if d ∈ s.ticketQueue.take limit ∧ hasReceipt R d = true then (g d).status ≠ .ticketed
          else g d = d := by
  obtain ⟨os, result, ⟨hids, hstatus⟩, hrecords⟩ := records_syncReceipts henv limit s
  refine ⟨settled os, hrecords.rows, fun d hd => ⟨settled_id os d, ?_⟩⟩
  have hwritten : d.id ∈ os.map (·.1) ↔ d ∈ s.ticketQueue.take limit ∧ hasReceipt R d = true := by
    rw [hids]
    constructor
    · intro h
      obtain ⟨e, he, hid⟩ := List.mem_map.mp h
      obtain ⟨hwindow, hready⟩ := List.mem_filter.mp he
      have hrow := (PushDb.mem_ticketQueue.mp (List.mem_of_mem_take hwindow)).1
      rw [← s.delivery_unique hrow hd hid]
      exact ⟨hwindow, hready⟩
    · rintro ⟨hwindow, hready⟩
      exact List.mem_map_of_mem (List.mem_filter.mpr ⟨hwindow, hready⟩)
  by_cases h : d ∈ s.ticketQueue.take limit ∧ hasReceipt R d = true
  · rw [if_pos h]
    exact settled_status hstatus (hwritten.mpr h)
  · rw [if_neg h]
    exact settled_of_notMem fun hmem => h (hwritten.mp hmem)

/-- A run serves the queue. -/
theorem ticketQueue_afterReceipts {env : ReceiptEnv} {R : String → Bool} (henv : env.Answers R)
    (limit : Nat) (s : PushDb) :
    (afterReceipts env limit s).ticketQueue = serve limit (hasReceipt R) s.ticketQueue := by
  obtain ⟨g, hrows, hg⟩ := rows_afterReceipts henv limit s
  rw [serve_eq_filter s.nodup_ticketQueue]
  set waits : PushDelivery → Bool := fun d =>
    !(decide (d ∈ s.ticketQueue.take limit) && hasReceipt R d) with hwaits
  have hkept : ∀ d ∈ s.deliveries.rows, waits d = true → g d = d := by
    intro d hd hwait
    have hspec := (hg d hd).2
    rw [if_neg (by simpa [hwaits, imp_iff_not_or] using hwait)] at hspec
    exact hspec
  have hgone : ∀ d ∈ s.deliveries.rows, waits d = false →
      ((g d).expoTicketId != none && (g d).status == .ticketed) = false := by
    intro d hd hwait
    have hspec := (hg d hd).2
    rw [if_pos (by simpa [hwaits] using hwait)] at hspec
    simp [hspec]
  unfold PushDb.ticketQueue
  rw [hrows, filter_map_of_kept hkept hgone,
    filter_insertionSort sentBefore_total sentBefore_trans]

/-! ## Run after run -/

/-- The store after some runs, one after another. -/
def afterAll (limit : Nat) : List ReceiptEnv → PushDb → PushDb
  | [], s => s
  | env :: envs, s => afterAll limit envs (afterReceipts env limit s)

theorem ticketQueue_afterAll {envs : List ReceiptEnv} {R : String → Bool}
    (henvs : ∀ env ∈ envs, env.Answers R) (limit : Nat) (s : PushDb) :
    (afterAll limit envs s).ticketQueue =
      (serve limit (hasReceipt R))^[envs.length] s.ticketQueue := by
  induction envs generalizing s with
  | nil => rfl
  | cons env envs ih =>
      rw [afterAll, ih fun e he => henvs e (List.mem_cons_of_mem _ he),
        ticketQueue_afterReceipts (henvs env List.mem_cons_self), List.length_cons,
        Function.iterate_succ_apply]

/-- Deliveries stay, and those still ticketed are as they were. -/
theorem rows_afterAll {envs : List ReceiptEnv} {R : String → Bool}
    (henvs : ∀ env ∈ envs, env.Answers R) (limit : Nat) (s : PushDb) :
    ∀ d ∈ s.deliveries.rows, ∃ d' ∈ (afterAll limit envs s).deliveries.rows, d'.id = d.id ∧
      (d'.status = .ticketed → d' = d) := by
  induction envs generalizing s with
  | nil => exact fun d hd => ⟨d, hd, rfl, fun _ => rfl⟩
  | cons env envs ih =>
      intro d hd
      obtain ⟨g, hrows, hg⟩ := rows_afterReceipts (henvs env List.mem_cons_self) limit s
      obtain ⟨hid, hspec⟩ := hg d hd
      have hmem : g d ∈ (afterReceipts env limit s).deliveries.rows := by
        rw [hrows]
        exact List.mem_map_of_mem hd
      obtain ⟨d', hd', hid', hsame⟩ :=
        ih (fun e he => henvs e (List.mem_cons_of_mem _ he)) (afterReceipts env limit s) _ hmem
      refine ⟨d', hd', hid'.trans hid, fun hstatus => ?_⟩
      have heq := hsame hstatus
      subst heq
      split at hspec
      · exact absurd hstatus hspec
      · exact hspec

/-- Every delivery that was ticketed and has a receipt has left that status. -/
def ReceiptsRead (R : String → Bool) (s t : PushDb) : Prop :=
  ∀ d ∈ s.deliveries.rows, d.status = .ticketed → hasReceipt R d = true →
    ∃ d', t.delivery d.id = some d' ∧ d'.status ≠ .ticketed

/-- As many runs as there are ticketed deliveries read every receipt exactly when
each delivery with a receipt has fewer than `limit` deliveries without one before
it in the queue. -/
theorem receipts_read_iff {envs : List ReceiptEnv} {R : String → Bool}
    (henvs : ∀ env ∈ envs, env.Answers R) (limit : Nat) {s : PushDb}
    (hruns : envs.length = s.deliveries.rows.countP (·.status == .ticketed)) :
    ReceiptsRead R s (afterAll limit envs s) ↔ InReach limit (hasReceipt R) s.ticketQueue := by
  have hcount : s.ticketQueue.countP (hasReceipt R) ≤ envs.length := by
    have hlength : s.ticketQueue.length =
        s.deliveries.rows.countP fun d => d.expoTicketId != none && d.status == .ticketed := by
      unfold PushDb.ticketQueue
      rw [List.length_insertionSort, List.countP_eq_length_filter]
    have hle : (s.deliveries.rows.countP fun d => d.expoTicketId != none && d.status == .ticketed) ≤
        s.deliveries.rows.countP (·.status == .ticketed) :=
      List.countP_mono_left fun d _ h => (Bool.and_eq_true _ _ ▸ h).2
    have hpart := List.countP_le_length (p := hasReceipt R) (l := s.ticketQueue)
    omega
  rw [← served_iff hcount, ← ticketQueue_afterAll henvs]
  constructor
  · intro hread d hd
    by_contra htrue
    have hready : hasReceipt R d = true := Bool.not_eq_false _ ▸ htrue
    obtain ⟨hmem, -, hstatus⟩ := PushDb.mem_ticketQueue.mp hd
    have hold : d ∈ s.ticketQueue := by
      rw [ticketQueue_afterAll henvs] at hd
      exact iterate_serve_subset envs.length hd
    obtain ⟨d', hd', hleft⟩ := hread d (PushDb.mem_ticketQueue.mp hold).1 hstatus hready
    rw [PushDb.delivery_eq_some.mpr ⟨hmem, rfl⟩] at hd'
    cases hd'
    exact hleft hstatus
  · intro hserved d hd hstatus hready
    obtain ⟨d', hd', hid, hsame⟩ := rows_afterAll henvs limit s d hd
    refine ⟨d', PushDb.delivery_eq_some.mpr ⟨hd', hid⟩, fun hticketed => ?_⟩
    have heq := hsame hticketed
    subst heq
    have hticket : d'.expoTicketId ≠ none := by
      intro hnone
      simp [hasReceipt, hnone] at hready
    have hfalse := hserved d' (PushDb.mem_ticketQueue.mpr ⟨hd', hticket, hstatus⟩)
    rw [hready] at hfalse
    cases hfalse

/-- Expo has a receipt for the tickets of `R`, each of a delivered message. -/
def receiptsFor (R : String → Bool) : ReceiptEnv where
  handledAt _ := 20
  reply _ := .answered 200
    (.ok ⟨some fun id => if R id then some ⟨true, none, none⟩ else none⟩)
  fails _ := none

theorem answers_receiptsFor (R : String → Bool) : (receiptsFor R).Answers R := by
  refine ⟨fun _ => rfl, fun batch => ⟨_, rfl, fun id => ?_⟩⟩
  cases R id with
  | true => rfl
  | false => rfl

/-- Two ticketed deliveries; the older ticket never gets a receipt. -/
def twoTicketed : PushDb :=
  { twoDeliveries with
    deliveries :=
      ⟨[{ aDelivery with status := .ticketed, expoTicketId := some "lost", sentAt := some 10 },
        { aDelivery with
          id := "d2", installationId := "i2", status := .ticketed, expoTicketId := some "ready"
          sentAt := some 11 }], by decide⟩
    delivery_notification := by decide
    delivery_installation := by decide }

theorem two_runs_of_limit_two_read_all : ReceiptsRead (· == "ready") twoTicketed
    (afterAll 2 [receiptsFor (· == "ready"), receiptsFor (· == "ready")] twoTicketed) := by
  have henvs : ∀ env ∈ [receiptsFor (· == "ready"), receiptsFor (· == "ready")],
      env.Answers (· == "ready") := by
    intro env henv
    have heq : env = receiptsFor (· == "ready") := by simpa using henv
    rw [heq]
    exact answers_receiptsFor _
  apply (receipts_read_iff henvs 2 (by decide)).mpr
  intro before d after hqueue _
  have hlength := congrArg List.length hqueue
  have htwo : twoTicketed.ticketQueue.length = 2 := by decide
  have hpart := List.length_filter_le (fun e => !hasReceipt (· == "ready") e) before
  rw [htwo, List.length_append, List.length_cons] at hlength
  omega

/-- With a limit of one the ticket without a receipt hides the other forever. -/
theorem limit_one_starves : twoTicketed.deliveries.rows.countP (·.status == .ticketed) = 2 ∧
    ¬ ReceiptsRead (· == "ready") twoTicketed
      (afterAll 1 [receiptsFor (· == "ready"), receiptsFor (· == "ready")] twoTicketed) := by
  refine ⟨by decide, fun hread => ?_⟩
  obtain ⟨d', hd', hleft⟩ := hread
    { aDelivery with
      id := "d2", installationId := "i2", status := .ticketed, expoTicketId := some "ready"
      sentAt := some 11 } (by decide) rfl (by decide)
  have hstatus : ((afterAll 1 [receiptsFor (· == "ready"), receiptsFor (· == "ready")]
      twoTicketed).delivery "d2").map (·.status) = some .ticketed := by decide
  rw [hd'] at hstatus
  exact hleft (Option.some.inj hstatus)

end Feca.Push
