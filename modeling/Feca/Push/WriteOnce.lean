import Feca.Push.System
import Feca.Concurrency.Allowance

/-! # Every delivery is written once

A run that read some deliveries writes each of them at most once, unless a
batch fails after its first outcome: then the `catch` loop writes the whole
batch again.
-/

namespace Feca.Push

open Concurrency Concurrency.Prog Relational

/-- Once a batch has an outcome recorded, none of its statements fails. -/
def DispatchEnv.NoLateFailure (env : DispatchEnv) : Prop :=
  ∀ batch index, env.fails (.outcome batch (index + 1)) = none ∧
    env.fails (.disable batch index) = none

/-- The event is a write of the delivery. -/
def Touches (e : PushEvent) (id : Id) : Prop := ∃ d d', e = .wrote d d' ∧ d.id = id

/-- The ids of some rows. -/
def idsOf (rows : List DeliveryRow) : Set Id := {id | ∃ r ∈ rows, r.id = id}

/-! ## A run writes every delivery once -/

theorem idsOf_cons (r : DeliveryRow) (rows : List DeliveryRow) :
    idsOf (r :: rows) = {r.id} ∪ idsOf rows := by
  ext id
  simp [idsOf, eq_comm]

/-- The head of rows with distinct ids is not among the others. -/
theorem not_mem_idsOf {r : DeliveryRow} {rows : List DeliveryRow}
    (h : ((r :: rows).map (·.id)).Nodup) : ∀ id ∈ ({r.id} : Set Id), id ∉ idsOf rows := by
  rintro _ rfl ⟨q, hq, hid⟩
  exact (List.nodup_cons.mp h).1 (List.mem_map.mpr ⟨q, hq, hid⟩)

section spends

theorem spends_updateDelivery {fails : Option Thrown} {id : Id} {data : DeliveryData}
    {Q : Except Thrown Unit → Set Id → Prop} (hok : ∀ T, Q (.ok ()) T)
    (herror : ∀ e, fails = some e → Q (.error e) {id}) :
    (updateDelivery fails id data).Spends Touches Q {id} := by
  refine spends_map _ ?_
  cases fails with
  | none =>
      refine spends_stmt (fun s e he k hk => ?_) fun s => hok _
      obtain ⟨x, hx, rfl⟩ := List.mem_map.mp he
      obtain ⟨d, d', heq, rfl⟩ := hk
      cases heq
      simpa using (List.mem_filter.mp hx).2
  | some e => exact spends_stmt_quiet (by simp) fun s => herror e rfl

theorem spends_disableInstallation {fails : Option Thrown} {installationId : Id} {date : Date}
    {Q : Except Thrown Unit → Set Id → Prop} {S : Set Id} (hok : Q (.ok ()) S)
    (herror : ∀ e, fails = some e → Q (.error e) S) :
    (disableInstallation fails installationId date).Spends Touches Q S := by
  cases fails with
  | none => exact spends_stmt_quiet (by simp) fun s => hok
  | some e => exact spends_stmt_quiet (by simp) fun s => herror e rfl

theorem spends_postExpo {β : Type} {event : PushEvent} {reply : HttpReply β}
    {Q : Except Thrown β → Set Id → Prop} {S : Set Id} (hevent : ∀ id, ¬ Touches event id)
    (hQ : Q (readReply reply) S) : (postExpo event reply).Spends Touches Q S :=
  spends_stmt_quiet (fun _ _ he k => List.mem_singleton.mp he ▸ hevent k) fun _ => hQ

/-- Recording an outcome either succeeds or leaves the delivery unwritten. -/
theorem spends_recordTicket {env : DispatchEnv} (henv : env.NoLateFailure) (batch index : Nat)
    (r : DeliveryRow) (ticket : ExpoPushTicket) (tally : DispatchTally) :
    (recordTicket env batch index r ticket tally).Spends Touches
      (fun res T => (∃ t, res = .ok t) ∨
        (env.fails (.outcome batch index) ≠ none ∧ r.id ∈ T)) {r.id} := by
  cases ticket with
  | ok id =>
      refine spends_bind (spends_updateDelivery (fun T => .inl ⟨_, rfl⟩) fun e he => .inr ⟨?_, rfl⟩)
      simp [he]
  | error message errorCode =>
      refine spends_bind (spends_updateDelivery (fun T => ?_) fun e he => .inr ⟨by simp [he], rfl⟩)
      dsimp only
      split
      · refine spends_bind (spends_disableInstallation (.inl ⟨_, rfl⟩) fun e he => ?_)
        exact absurd he (by simp [(henv batch index).2])
      · exact .inl ⟨_, rfl⟩

/-- After the first outcome of a batch the loop runs to its end. -/
theorem spends_recordTickets_succ {env : DispatchEnv} (henv : env.NoLateFailure)
    (batch index : Nat) {pairs : List (DeliveryRow × ExpoPushTicket)}
    (hnodup : ((pairs.map (·.1)).map (·.id)).Nodup) (tally : DispatchTally) :
    (recordTickets env batch (index + 1) pairs tally).Spends Touches
      (fun res _ => ∃ t, res = .ok (t, none)) (idsOf (pairs.map (·.1))) := by
  induction pairs generalizing index tally with
  | nil => exact ⟨tally, rfl⟩
  | cons p pairs ih =>
      obtain ⟨r, ticket⟩ := p
      have hhead := (spends_recordTicket henv batch (index + 1) r ticket tally).frame
        (not_mem_idsOf hnodup)
      rw [List.map_cons, idsOf_cons]
      refine spends_bind (spends_attempt (hhead.mono le_rfl ?_))
      rintro res U V hUV ⟨hF, W, -, ⟨t, rfl⟩ | ⟨hfails, -⟩⟩
      · have hrest := ih (index + 1) (List.nodup_cons.mp hnodup).2 t
        exact hrest.mono (hF.trans hUV) fun _ _ _ _ h => h
      · exact absurd (henv batch index).1 hfails

/-- A batch that fails while recording fails before its first outcome. -/
theorem spends_recordTickets {env : DispatchEnv} (henv : env.NoLateFailure) (batch : Nat)
    {pairs : List (DeliveryRow × ExpoPushTicket)}
    (hnodup : ((pairs.map (·.1)).map (·.id)).Nodup) (tally : DispatchTally) :
    (recordTickets env batch 0 pairs tally).Spends Touches
      (fun res T => (∃ t, res = .ok (t, none)) ∨
        ∃ t e, res = .ok (t, some e) ∧ idsOf (pairs.map (·.1)) ⊆ T)
      (idsOf (pairs.map (·.1))) := by
  cases pairs with
  | nil => exact .inl ⟨tally, rfl⟩
  | cons p pairs =>
      obtain ⟨r, ticket⟩ := p
      have hhead := (spends_recordTicket henv batch 0 r ticket tally).frame (not_mem_idsOf hnodup)
      rw [List.map_cons, idsOf_cons]
      refine spends_bind (spends_attempt (hhead.mono le_rfl ?_))
      rintro res U V hUV ⟨hF, W, hW, hres⟩
      cases res with
      | ok t =>
          have hrest := spends_recordTickets_succ henv batch 0 (List.nodup_cons.mp hnodup).2 t
          exact hrest.mono (hF.trans hUV) fun _ _ _ _ h => .inl h
      | error e =>
          obtain ⟨t, ht⟩ | ⟨-, hr⟩ := hres
          · cases ht
          · refine .inr ⟨tally, e, rfl, Set.union_subset ?_ (hF.trans hUV)⟩
            exact Set.singleton_subset_iff.mpr (hUV (hW hr))

/-- The `catch` loop writes every delivery of the batch once. -/
theorem spends_retryBatch (env : DispatchEnv) (batch : Nat) (message : String) (index : Nat)
    {deliveries : List DeliveryRow} (hnodup : (deliveries.map (·.id)).Nodup)
    (tally : DispatchTally) :
    (retryBatch env batch message index deliveries tally).Spends Touches (fun _ _ => True)
      (idsOf deliveries) := by
  induction deliveries generalizing index tally with
  | nil => trivial
  | cons r deliveries ih =>
      rw [idsOf_cons]
      have hhead : (updateDelivery (env.fails (.retry batch index)) r.id
          (unsentData r false message (env.sendAt batch))).Spends Touches (fun _ _ => True) {r.id} :=
        spends_updateDelivery (fun _ => trivial) fun _ _ => trivial
      refine spends_bind ((hhead.frame (not_mem_idsOf hnodup)).mono le_rfl ?_)
      rintro res U V hUV ⟨hF, -⟩
      cases res with
      | ok _ =>
          have hrest := ih (index + 1) (List.nodup_cons.mp hnodup).2
            (tally.count (unsentData r false message (env.sendAt batch)))
          exact hrest.mono (hF.trans hUV) fun _ _ _ _ _ => trivial
      | error e => trivial

theorem spends_sendBatch {env : DispatchEnv} (henv : env.NoLateFailure)
    (unreadCountByUserId : List (Id × Nat)) (batch : Nat) {deliveries : List DeliveryRow}
    (hnodup : (deliveries.map (·.id)).Nodup) (tally : DispatchTally) :
    (sendBatch env unreadCountByUserId batch deliveries tally).Spends Touches
      (fun res T => (∃ t, res = .ok (t, none)) ∨
        ∃ t e, res = .ok (t, some e) ∧ idsOf deliveries ⊆ T) (idsOf deliveries) := by
  refine spends_bind (spends_attempt (spends_postExpo (by simp [Touches]) ?_))
  cases readReply (env.reply batch) with
  | error e => exact .inr ⟨tally, e, rfl, le_rfl⟩
  | ok response =>
      dsimp only
      split
      · exact .inr ⟨tally, _, rfl, le_rfl⟩
      · rename_i hlen
        have hfst : (deliveries.zip (normalizeExpoTickets response.data)).map (·.1) = deliveries :=
          List.map_fst_zip (by omega)
        have hids : (((deliveries.zip (normalizeExpoTickets response.data)).map (·.1)).map
            (·.id)).Nodup := by rwa [hfst]
        have hrecord := spends_recordTickets henv batch hids tally
        rwa [hfst] at hrecord

theorem spends_dispatchBatch {env : DispatchEnv} (henv : env.NoLateFailure)
    (unreadCountByUserId : List (Id × Nat)) (batch : Nat) {deliveries : List DeliveryRow}
    (hnodup : (deliveries.map (·.id)).Nodup) (tally : DispatchTally) :
    (dispatchBatch env unreadCountByUserId batch deliveries tally).Spends Touches
      (fun _ _ => True) (idsOf deliveries) := by
  refine spends_bind ((spends_sendBatch henv _ batch hnodup tally).mono le_rfl ?_)
  rintro res U V hUV (⟨t, rfl⟩ | ⟨t, e, rfl, hids⟩)
  · trivial
  · have hretry := spends_retryBatch env batch (e.messageOr "Expo push send failed") 0 hnodup t
    exact hretry.mono (hids.trans hUV) fun _ _ _ _ h => h

theorem spends_dispatchBatches {env : DispatchEnv} (henv : env.NoLateFailure)
    (unreadCountByUserId : List (Id × Nat)) (batch : Nat) {batches : List (List DeliveryRow)}
    (hnodup : ∀ b ∈ batches, (b.map (·.id)).Nodup)
    (hdisjoint : batches.Pairwise fun b b' => ∀ id ∈ idsOf b, id ∉ idsOf b')
    (tally : DispatchTally) :
    (dispatchBatches env unreadCountByUserId batch batches tally).Spends Touches
      (fun _ _ => True) {id | ∃ b ∈ batches, id ∈ idsOf b} := by
  induction batches generalizing batch tally with
  | nil => trivial
  | cons b batches ih =>
      obtain ⟨hfirst, hrest⟩ := List.pairwise_cons.mp hdisjoint
      have hframe : ∀ id ∈ idsOf b, id ∉ {id | ∃ b' ∈ batches, id ∈ idsOf b'} := by
        rintro id hid ⟨b', hb', hid'⟩
        exact hfirst b' hb' id hid hid'
      have hhead := (spends_dispatchBatch henv unreadCountByUserId batch
        (hnodup b List.mem_cons_self) tally).frame hframe
      refine spends_bind (hhead.mono ?_ ?_)
      · rintro id (hid | ⟨b', hb', hid⟩)
        · exact ⟨b, List.mem_cons_self, hid⟩
        · exact ⟨b', List.mem_cons_of_mem _ hb', hid⟩
      · rintro res U V hUV ⟨hF, -⟩
        cases res with
        | ok t =>
            have htail := ih (batch + 1) (fun c hc => hnodup c (List.mem_cons_of_mem _ hc)) hrest t
            exact htail.mono (hF.trans hUV) fun _ _ _ _ h => h
        | error e => trivial

/-- The batches of rows with distinct ids have distinct ids. -/
theorem chunk_ids {rows : List DeliveryRow} (hnodup : (rows.map (·.id)).Nodup) (size : Nat) :
    (∀ b ∈ chunk rows size, (b.map (·.id)).Nodup) ∧
      (chunk rows size).Pairwise fun b b' => ∀ id ∈ idsOf b, id ∉ idsOf b' := by
  have hrows : rows.Nodup := hnodup.of_map _
  have hinj : ∀ r ∈ rows, ∀ q ∈ rows, r.id = q.id → r = q := fun r hr q hq hid =>
    List.inj_on_of_nodup_map hnodup hr hq hid
  refine ⟨fun b hb => ?_, ?_⟩
  · refine (nodup_of_mem_chunk hrows hb).map_on fun r hr q hq hid => ?_
    exact hinj r (mem_of_mem_chunk hb hr) q (mem_of_mem_chunk hb hq) hid
  · refine (chunk_pairwise_disjoint hrows size).imp_of_mem fun {b b'} hb hb' hdisj => ?_
    rintro _ ⟨r, hr, rfl⟩ ⟨q, hq, hid⟩
    have heq := hinj q (mem_of_mem_chunk hb' hq) r (mem_of_mem_chunk hb hr) hid
    exact hdisj hr (heq ▸ hq)

/-- After its selection a run without late failures writes each selected
delivery at most once, and no other. -/
theorem spends_dispatchDeliveries {env : DispatchEnv} (henv : env.NoLateFailure)
    {rows : List DeliveryRow} (hnodup : (rows.map (·.id)).Nodup) :
    (dispatchDeliveries env rows).Spends Touches (fun _ _ => True) (idsOf rows) := by
  unfold dispatchDeliveries
  split
  · trivial
  · have hcancel : (cancelInactive env (inactiveDeliveries rows)).Spends Touches
        (fun _ _ => True) (idsOf (inactiveDeliveries rows)) := by
      unfold cancelInactive
      split
      · cases hfails : env.fails .cancel with
        | some e => exact spends_stmt_quiet (by simp) fun _ => trivial
        | none =>
            refine spends_stmt (fun s e he k hk => ?_) fun _ => trivial
            obtain ⟨x, hx, rfl⟩ := List.mem_map.mp he
            obtain ⟨d, d', heq, rfl⟩ := hk
            cases heq
            exact List.mem_map.mp (List.contains_iff_mem.mp (List.mem_filter.mp hx).2)
      · trivial
    have hframe : ∀ id ∈ idsOf (inactiveDeliveries rows), id ∉ idsOf (activeDeliveries rows) := by
      rintro _ ⟨q, hq, rfl⟩ ⟨r, hr, hid⟩
      exact active_ne_inactive hr hq hid.symm
    refine spends_bind ((hcancel.frame hframe).mono ?_ ?_)
    · rintro id (⟨r, hr, hid⟩ | ⟨r, hr, hid⟩)
      · exact ⟨r, mem_of_mem_inactive hr, hid⟩
      · exact ⟨r, mem_of_mem_active hr, hid⟩
    · rintro res U V hUV ⟨hF, -⟩
      cases res with
      | error e => trivial
      | ok cancelled =>
          dsimp only
          split
          · trivial
          · have hactive : ((activeDeliveries rows).map (·.id)).Nodup :=
              hnodup.sublist (List.filter_sublist.map _)
            obtain ⟨hbatches, hdisjoint⟩ := chunk_ids hactive maxSendBatchSize
            have hunread : (countUnread env (activeDeliveries rows)).Spends Touches
                (fun _ T => T = V) V := by
              unfold countUnread statement
              cases env.fails .unread with
              | none => exact spends_stmt_quiet (by simp) fun _ => rfl
              | some e => exact spends_stmt_quiet (by simp) fun _ => rfl
            refine spends_bind (hunread.mono le_rfl ?_)
            rintro res _ W hVW rfl
            cases res with
            | error e => trivial
            | ok unread =>
                have hsend := spends_dispatchBatches henv unread 0 hbatches hdisjoint {}
                refine spends_bind (hsend.mono ?_ fun res _ _ _ _ => ?_)
                · rintro id ⟨b, hb, r, hr, hid⟩
                  exact hVW (hUV (hF ⟨r, mem_of_mem_chunk hb hr, hid⟩))
                · cases res <;> trivial

/-! Receipt runs: what stops a batch is only logged, so nothing is rewritten. -/

theorem spends_recordReceipts (env : ReceiptEnv) (batch : Nat)
    (receipts : String → Option ExpoPushReceipt) (index : Nat) {ds : List PushDelivery}
    (hnodup : (ds.map (·.id)).Nodup) (tally : ReceiptTally) :
    (recordReceipts env batch receipts index ds tally).Spends Touches (fun _ _ => True)
      {id | id ∈ ds.map (·.id)} := by
  induction ds generalizing index tally with
  | nil => trivial
  | cons d ds ih =>
      obtain ⟨hnew, hrest⟩ := List.nodup_cons.mp hnodup
      have htail : {id | id ∈ ds.map (·.id)} ⊆ {id | id ∈ (d :: ds).map (·.id)} :=
        fun id hid => List.mem_cons_of_mem _ hid
      unfold recordReceipts
      split
      · exact (ih (index + 1) hrest tally).mono htail fun _ _ _ _ h => h
      · rename_i receipt _
        have hhead : (recordReceipt env batch index d receipt tally).Spends Touches
            (fun _ _ => True) {d.id} := by
          unfold recordReceipt
          split
          · refine spends_bind (spends_updateDelivery (fun T => ?_) fun _ _ => trivial)
            trivial
          · refine spends_bind (spends_updateDelivery (fun T => ?_) fun _ _ => trivial)
            dsimp only
            split
            · refine spends_bind (spends_disableInstallation ?_ fun _ _ => trivial)
              trivial
            · trivial
        have hframe : ∀ id ∈ ({d.id} : Set Id), id ∉ {id | id ∈ ds.map (·.id)} := by
          rintro _ rfl
          exact hnew
        refine spends_bind (spends_attempt ((hhead.frame hframe).mono ?_ ?_))
        · rintro id (rfl | hid)
          · exact List.mem_cons_self
          · exact htail hid
        · rintro res U V hUV ⟨hF, -⟩
          cases res with
          | ok t => exact (ih (index + 1) hrest t).mono (hF.trans hUV) fun _ _ _ _ h => h
          | error e => trivial

theorem spends_receiptBatches (env : ReceiptEnv) (batch : Nat)
    {batches : List (List PushDelivery)} (hnodup : ∀ b ∈ batches, (b.map (·.id)).Nodup)
    (hdisjoint : batches.Pairwise fun b b' => ∀ id ∈ b.map (·.id), id ∉ b'.map (·.id))
    (tally : ReceiptTally) :
    (receiptBatches env batch batches tally).Spends Touches (fun _ _ => True)
      {id | ∃ b ∈ batches, id ∈ b.map (·.id)} := by
  induction batches generalizing batch tally with
  | nil => trivial
  | cons b batches ih =>
      obtain ⟨hfirst, hrest⟩ := List.pairwise_cons.mp hdisjoint
      have hhead : (receiptBatch env batch b tally).Spends Touches (fun _ _ => True)
          {id | id ∈ b.map (·.id)} := by
        unfold receiptBatch
        dsimp only
        split
        · trivial
        · refine spends_bind (spends_attempt (spends_postExpo (by simp [Touches]) ?_))
          cases readReply (env.reply batch) with
          | error e => trivial
          | ok response =>
              exact spends_recordReceipts env batch _ 0 (hnodup b List.mem_cons_self) tally
      have hframe : ∀ id ∈ {id | id ∈ b.map (·.id)},
          id ∉ {id | ∃ b' ∈ batches, id ∈ b'.map (·.id)} := by
        rintro id hid ⟨b', hb', hid'⟩
        exact hfirst b' hb' id hid hid'
      refine spends_bind ((hhead.frame hframe).mono ?_ ?_)
      · rintro id (hid | ⟨b', hb', hid⟩)
        · exact ⟨b, List.mem_cons_self, hid⟩
        · exact ⟨b', List.mem_cons_of_mem _ hb', hid⟩
      · rintro res U V hUV ⟨hF, -⟩
        cases res with
        | ok t =>
            have htail := ih (batch + 1) (fun c hc => hnodup c (List.mem_cons_of_mem _ hc)) hrest t
            exact htail.mono (hF.trans hUV) fun _ _ _ _ h => h
        | error e => trivial

theorem spends_receiptDeliveries (env : ReceiptEnv) {ds : List PushDelivery}
    (hnodup : (ds.map (·.id)).Nodup) :
    (receiptDeliveries env ds).Spends Touches (fun _ _ => True) {id | id ∈ ds.map (·.id)} := by
  unfold receiptDeliveries
  split
  · trivial
  · have hds : ds.Nodup := hnodup.of_map _
    have hinj : ∀ d ∈ ds, ∀ e ∈ ds, d.id = e.id → d = e := fun d hd e he hid =>
      List.inj_on_of_nodup_map hnodup hd he hid
    have hbatches : ∀ b ∈ chunk ds maxReceiptBatchSize, (b.map (·.id)).Nodup := by
      refine fun b hb => (nodup_of_mem_chunk hds hb).map_on fun d hd e he hid => ?_
      exact hinj d (mem_of_mem_chunk hb hd) e (mem_of_mem_chunk hb he) hid
    have hdisjoint : (chunk ds maxReceiptBatchSize).Pairwise
        fun b b' => ∀ id ∈ b.map (·.id), id ∉ b'.map (·.id) := by
      refine (chunk_pairwise_disjoint hds _).imp_of_mem fun {b b'} hb hb' hdisj id hid hid' => ?_
      obtain ⟨d, hd, rfl⟩ := List.mem_map.mp hid
      obtain ⟨e, he, heq⟩ := List.mem_map.mp hid'
      have hsame := hinj e (mem_of_mem_chunk hb' he) d (mem_of_mem_chunk hb hd) heq
      exact hdisj hd (hsame ▸ he)
    refine spends_bind ((spends_receiptBatches env 0 hbatches hdisjoint {}).mono ?_ ?_)
    · rintro id ⟨b, hb, hid⟩
      obtain ⟨d, hd, rfl⟩ := List.mem_map.mp hid
      exact List.mem_map_of_mem (mem_of_mem_chunk hb hd)
    · rintro res _ _ _ _
      cases res <;> trivial

end spends

/-! ## Calls that write every delivery once -/

/-- The call's dispatch run, if it is one, meets no late failure. -/
def PushCall.NoLateFailure : PushCall → Prop
  | .dispatchPending env _ => env.NoLateFailure
  | _ => True

/-- Every call touches each delivery at most once, from its first statement on. -/
theorem spends_prog {call : PushCall} (h : call.NoLateFailure) :
    call.prog.Spends Touches (fun _ _ => True) Set.univ := by
  have hquiet : ∀ {p : PushProg Unit}, p.Always QuietLaw →
      p.Spends Touches (fun _ _ => True) Set.univ := by
    intro p hp
    refine spends_of_emits (hp.mono ?_)
    rintro s t es ⟨-, hevents⟩ e he id ⟨d, d', rfl, -⟩
    obtain ⟨before, after, heq⟩ := hevents _ he
    cases heq
  cases call with
  | dispatchPending env limit =>
      rw [dispatch_prog]
      cases env.fails .select with
      | some e => exact fun s => ⟨by simp, trivial⟩
      | none =>
          refine fun s => ⟨by simp [Touches], spends_map _ ?_⟩
          refine (spends_dispatchDeliveries h (s.nodup_due env.now limit)).mono ?_
            fun _ _ _ _ _ => trivial
          exact fun id _ => ⟨trivial, by simp [Touches]⟩
  | syncReceipts env limit =>
      rw [receipts_prog]
      cases env.fails .select with
      | some e => exact fun s => ⟨by simp, trivial⟩
      | none =>
          refine fun s => ⟨by simp [Touches], spends_map _ ?_⟩
          refine (spends_receiptDeliveries env (s.nodup_ticketed limit)).mono ?_
            fun _ _ _ _ _ => trivial
          exact fun id _ => ⟨trivial, by simp [Touches]⟩
  | publish input env => exact hquiet (always_map _ (publish_law input env))
  | registerMyPushInstallation env userId input =>
      exact hquiet (registerMyPushInstallation_law env userId input)
  | revokeMyPushInstallation now userId installationId =>
      exact hquiet ((revokeInstallations_seats _ now).mono fun _ _ _ => Seats.quiet)

end Feca.Push
