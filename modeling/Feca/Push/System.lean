import Feca.Concurrency.History
import Feca.Push.Receipts
import Feca.Push.Publish

/-! # The push subsystem

Any number of dispatch runs, receipt runs, publications and registrations over
one store, one statement at a time, but for the transactions of publications,
which are one step here: `OpenTransactions` has their statements. `advance_spec`
says once what a step of the system can do; every law of the subsystem is
derived from it.
-/

namespace Feca.Push

open Concurrency Concurrency.Prog Relational

/-- A call some worker or request makes. -/
inductive PushCall
  | dispatchPending (env : DispatchEnv) (limit : Nat)
  | syncReceipts (env : ReceiptEnv) (limit : Nat)
  | publish (input : PublishNotificationInput) (env : PublishEnv)
  | registerMyPushInstallation (env : RegisterEnv) (userId : Id) (input : UpsertPushTokenDto)
  | revokeMyPushInstallation (now : Date) (userId installationId : Id)

def PushCall.prog : PushCall → PushProg Unit
  | .dispatchPending env limit => (fun _ => ()) <$> Push.dispatchPending env limit
  | .syncReceipts env limit => (fun _ => ()) <$> Push.syncReceipts env limit
  | .publish input env => (fun _ => ()) <$> Push.publish input env
  | .registerMyPushInstallation env userId input =>
      Push.registerMyPushInstallation env userId input
  | .revokeMyPushInstallation now userId installationId =>
      Push.revokeMyPushInstallation now userId installationId

abbrev PushConfig (ι : Type) := Config ι PushDb PushEvent Thrown Unit

/-- Every call is about to begin. -/
def begin {ι : Type} (s : PushDb) (calls : ι → PushCall) : PushConfig ι :=
  ⟨s, fun i => (calls i).prog, []⟩

/-! ## Calls that leave deliveries alone -/

/-- The law of publications and registrations: no delivery is written. -/
def QuietLaw (s t : PushDb) (es : List PushEvent) : Prop :=
  Accounted s t es ∧ ∀ e ∈ es, ∃ before after, e = .seated before after

theorem publish_law (input : PublishNotificationInput) (env : PublishEnv) :
    (publish input env).Always QuietLaw := by
  unfold publish
  split
  · trivial
  · refine always_stmt fun s => ?_
    have hmeets := (meets_publishTransaction (s := s) input env).run trivial
    have hsilent : ((publishTransaction input env).run s).events = [] :=
      (publishTransaction_silent input env).run (fun _ => rfl)
        (fun _ _ _ es fs hes hfs => by rw [hes, hfs]; rfl) s
    split
    · obtain ⟨hi, hn, hkept, horigin⟩ := hmeets.2.1
      rw [hsilent]
      refine ⟨⟨fun d hd => ⟨d, hkept d hd, rfl⟩, fun d' hd' => ?_, by simp, hn,
        fun i h => ⟨i, hi ▸ h, rfl, .inl rfl⟩, fun d' hd' hfresh => ?_⟩, by simp⟩
      · rcases horigin d' hd' with hold | ⟨hstatus, hfresh, -⟩
        · exact .inl hold
        · exact .inr (.inr ⟨hstatus, hfresh⟩)
      · rcases horigin d' hd' with hold | ⟨-, -, howned⟩
        · exact absurd rfl (hfresh d' hold)
        · exact howned
    · exact ⟨.refl s (by simp), by simp⟩

/-- What seating installations may do, read off its events. -/
structure Seats (s t : PushDb) (es : List PushEvent) : Prop where
  deliveries : t.deliveries = s.deliveries
  notifications : t.notifications = s.notifications
  events : ∀ e ∈ es, ∃ before after, e = .seated before after
  installations : ∀ i ∈ s.installations.rows, ∃ i' ∈ t.installations.rows, i'.id = i.id ∧
    (i'.userId = i.userId ∨ ∃ before after, .seated before after ∈ es ∧ before.id = i.id ∧
      before.userId ≠ after.userId)

theorem Seats.refl (s : PushDb) : Seats s s [] :=
  ⟨rfl, rfl, by simp, fun i hi => ⟨i, hi, rfl, .inl rfl⟩⟩

theorem Seats.trans {s t u : PushDb} {es fs : List PushEvent} (hst : Seats s t es)
    (htu : Seats t u fs) : Seats s u (es ++ fs) where
  deliveries := htu.deliveries.trans hst.deliveries
  notifications := htu.notifications.trans hst.notifications
  events e he := (List.mem_append.mp he).elim (hst.events e) (htu.events e)
  installations i hi := by
    obtain ⟨j, hj, hid, howner⟩ := hst.installations i hi
    obtain ⟨k, hk, hid', howner'⟩ := htu.installations j hj
    refine ⟨k, hk, hid'.trans hid, ?_⟩
    rcases howner with hsame | ⟨before, after, he, hbefore, hne⟩
    · rcases howner' with hsame' | ⟨before, after, he, hbefore, hne⟩
      · exact .inl (hsame'.trans hsame)
      · exact .inr ⟨before, after, List.mem_append_right _ he, hbefore.trans hid, hne⟩
    · exact .inr ⟨before, after, List.mem_append_left _ he, hbefore, hne⟩

theorem Seats.quiet {s t : PushDb} {es : List PushEvent} (h : Seats s t es) : QuietLaw s t es := by
  refine ⟨.of_installations h.deliveries h.notifications (fun d d' he => ?_) h.installations,
    h.events⟩
  obtain ⟨before, after, heq⟩ := h.events _ he
  cases heq

theorem revokeInstallations_seats (p : PushInstallation → Bool) (now : Date) :
    (revokeInstallations p now).Always Seats := by
  refine always_stmt fun s => ⟨rfl, rfl, by simp, fun i hi => ?_⟩
  refine ⟨_, List.mem_map_of_mem hi, ?_⟩
  split
  · exact ⟨rfl, .inl rfl⟩
  · exact ⟨rfl, .inl rfl⟩

theorem upsertInstallation_seats (env : RegisterEnv) (userId : Id) (input : UpsertPushTokenDto) :
    (upsertInstallation env userId input).Always Seats := by
  refine always_stmt fun s => ?_
  dsimp only
  split
  · split
    · refine ⟨rfl, rfl, fun e he => ?_, fun i hi => ?_⟩
      · obtain ⟨i, -, rfl⟩ := List.mem_map.mp he
        exact ⟨_, _, rfl⟩
      · refine ⟨_, List.mem_map_of_mem hi, ?_⟩
        split
        · rename_i hfound
          refine ⟨rfl, ?_⟩
          by_cases howner : userId = i.userId
          · exact .inl howner
          · refine .inr ⟨i, input.seat env userId i, ?_, rfl, fun h => howner h.symm⟩
            exact List.mem_map_of_mem (List.mem_filter.mpr ⟨hi, hfound⟩)
        · exact ⟨rfl, .inl rfl⟩
    · exact .refl s
  · split
    · rename_i t ht
      obtain ⟨hn, hd, hi⟩ := PushDb.insertInstallation_ok ht
      refine ⟨hd, hn, by simp, fun i h => ⟨i, ?_, rfl, .inl rfl⟩⟩
      rw [hi]
      exact List.mem_append_left _ h
    · exact .refl s

theorem registerMyPushInstallation_law (env : RegisterEnv) (userId : Id)
    (input : UpsertPushTokenDto) :
    (registerMyPushInstallation env userId input).Always QuietLaw := by
  have hseats : (registerMyPushInstallation env userId input).Always Seats :=
    always_transaction (always_bind (revokeInstallations_seats _ _)
      fun _ => upsertInstallation_seats env userId input) .refl fun _ _ _ _ _ => .trans
  exact hseats.mono fun _ _ _ => Seats.quiet

/-! ## Where a call stands -/

/-- What a call has done and what is left of it: a job has not read yet, or its
selection came first and everything else obeys the law of what it selected. -/
def Stage (call : PushCall) (events : List PushEvent) (rest : PushProg Unit) : Prop :=
  match call with
  | .dispatchPending _ _ =>
      (events = [] ∧ (rest = call.prog ∨ ∃ e, rest = .fail e)) ∨
        ∃ rows es, events = .selected rows :: es ∧ (∀ e ∈ es, DispatchEvent rows e) ∧
          rest.Always (DispatchLaw rows)
  | .syncReceipts _ _ =>
      (events = [] ∧ (rest = call.prog ∨ ∃ e, rest = .fail e)) ∨
        ∃ rows es, events = .polled rows :: es ∧ (∀ e ∈ es, ReceiptEvent rows e) ∧
          rest.Always (ReceiptLaw rows)
  | _ => (∀ e ∈ events, ∃ before after, e = .seated before after) ∧ rest.Always QuietLaw

theorem stage_begin (call : PushCall) : Stage call [] call.prog := by
  cases call with
  | dispatchPending env limit => exact .inl ⟨rfl, .inl rfl⟩
  | syncReceipts env limit => exact .inl ⟨rfl, .inl rfl⟩
  | publish input env => exact ⟨by simp, always_map _ (publish_law input env)⟩
  | registerMyPushInstallation env userId input =>
      exact ⟨by simp, registerMyPushInstallation_law env userId input⟩
  | revokeMyPushInstallation now userId installationId =>
      exact ⟨by simp, (revokeInstallations_seats _ now).mono fun _ _ _ => Seats.quiet⟩

/-! ## What a step can do -/

/-- The events of one step of a call that had reported `past`, in the store `s`. -/
inductive Move (call : PushCall) (s : PushDb) (past : List PushEvent) : List PushEvent → Prop
  | selects {env : DispatchEnv} {limit : Nat} (kind : call = .dispatchPending env limit)
      (first : past = []) : Move call s past [.selected (s.due env.now limit)]
  | polls {env : ReceiptEnv} {limit : Nat} (kind : call = .syncReceipts env limit)
      (first : past = []) : Move call s past [.polled (s.ticketed limit)]
  | dispatches {rows : List DeliveryRow} {es : List PushEvent} (read : .selected rows ∈ past)
      (law : ∀ e ∈ es, DispatchEvent rows e) : Move call s past es
  | receives {rows : List PushDelivery} {es : List PushEvent} (read : .polled rows ∈ past)
      (law : ∀ e ∈ es, ReceiptEvent rows e) : Move call s past es
  | quiet {es : List PushEvent} (law : ∀ e ∈ es, ∃ before after, e = .seated before after) :
      Move call s past es

theorem dispatch_prog (env : DispatchEnv) (limit : Nat) :
    (PushCall.dispatchPending env limit).prog = match env.fails .select with
      | some e => .step (fun s => (s, [])) fun _ => .fail e
      | none => .step (fun s => (s, [.selected (s.due env.now limit)]))
          fun s => (fun _ => ()) <$> dispatchDeliveries env (s.due env.now limit) := by
  show (fun _ => ()) <$> (selectDue env limit >>= dispatchDeliveries env) = _
  unfold selectDue statement
  cases env.fails .select with
  | none => rfl
  | some e => rfl

theorem receipts_prog (env : ReceiptEnv) (limit : Nat) :
    (PushCall.syncReceipts env limit).prog = match env.fails .select with
      | some e => .step (fun s => (s, [])) fun _ => .fail e
      | none => .step (fun s => (s, [.polled (s.ticketed limit)]))
          fun s => (fun _ => ()) <$> receiptDeliveries env (s.ticketed limit) := by
  show (fun _ => ()) <$> (selectTicketed env limit >>= receiptDeliveries env) = _
  unfold selectTicketed statement
  cases env.fails .select with
  | none => rfl
  | some e => rfl

/-- One step of one call: what it reports, and where it leaves the call. -/
theorem stage_step {call : PushCall} {past : List PushEvent}
    {exec : PushDb → PushDb × List PushEvent} {next : PushDb → PushProg Unit}
    (h : Stage call past (.step exec next)) (s : PushDb) :
    Accounted s (exec s).1 (exec s).2 ∧ Move call s past (exec s).2 ∧
      Stage call (past ++ (exec s).2) (next s) := by
  cases call with
  | dispatchPending env limit =>
      obtain ⟨rfl, hprog | ⟨e, he⟩⟩ | ⟨rows, es, rfl, hes, hlaw⟩ := h
      · rw [dispatch_prog] at hprog
        cases hfails : env.fails .select with
        | none =>
            rw [hfails] at hprog
            cases hprog
            refine ⟨.refl s (by simp), .selects rfl rfl, .inr ⟨_, [], rfl, by simp, ?_⟩⟩
            exact always_map _ (dispatchDeliveries_law env _)
        | some e =>
            rw [hfails] at hprog
            cases hprog
            exact ⟨.refl s (by simp), .quiet (by simp), .inl ⟨rfl, .inr ⟨e, rfl⟩⟩⟩
      · cases he
      · obtain ⟨⟨haccount, hevents⟩, hnext⟩ := hlaw s
        refine ⟨haccount, .dispatches List.mem_cons_self hevents, .inr ⟨rows, _, rfl, ?_, hnext⟩⟩
        exact fun e he => (List.mem_append.mp he).elim (hes e) (hevents e)
  | syncReceipts env limit =>
      obtain ⟨rfl, hprog | ⟨e, he⟩⟩ | ⟨rows, es, rfl, hes, hlaw⟩ := h
      · rw [receipts_prog] at hprog
        cases hfails : env.fails .select with
        | none =>
            rw [hfails] at hprog
            cases hprog
            refine ⟨.refl s (by simp), .polls rfl rfl, .inr ⟨_, [], rfl, by simp, ?_⟩⟩
            exact always_map _ (receiptDeliveries_law env _)
        | some e =>
            rw [hfails] at hprog
            cases hprog
            exact ⟨.refl s (by simp), .quiet (by simp), .inl ⟨rfl, .inr ⟨e, rfl⟩⟩⟩
      · cases he
      · obtain ⟨⟨haccount, hevents⟩, hnext⟩ := hlaw s
        refine ⟨haccount, .receives List.mem_cons_self hevents, .inr ⟨rows, _, rfl, ?_, hnext⟩⟩
        exact fun e he => (List.mem_append.mp he).elim (hes e) (hevents e)
  | publish input env =>
      obtain ⟨⟨haccount, hevents⟩, hnext⟩ := h.2 s
      exact ⟨haccount, .quiet hevents,
        fun e he => (List.mem_append.mp he).elim (h.1 e) (hevents e), hnext⟩
  | registerMyPushInstallation env userId input =>
      obtain ⟨⟨haccount, hevents⟩, hnext⟩ := h.2 s
      exact ⟨haccount, .quiet hevents,
        fun e he => (List.mem_append.mp he).elim (h.1 e) (hevents e), hnext⟩
  | revokeMyPushInstallation now userId installationId =>
      obtain ⟨⟨haccount, hevents⟩, hnext⟩ := h.2 s
      exact ⟨haccount, .quiet hevents,
        fun e he => (List.mem_append.mp he).elim (h.1 e) (hevents e), hnext⟩

/-! ## The whole system -/

section system
variable {ι : Type} [DecidableEq ι] {calls : ι → PushCall} {c : PushConfig ι}

/-- Every call stands at some stage of its program. -/
def Staged (calls : ι → PushCall) (c : PushConfig ι) : Prop :=
  ∀ j, Stage (calls j) (c.reported j) (c.calls j)

theorem staged_begin (s : PushDb) (calls : ι → PushCall) : Staged calls (begin s calls) :=
  fun j => stage_begin (calls j)

/-- A step of call `i`: what it reports accounts for what it did. -/
theorem advance_spec (h : Staged calls c) (i : ι) :
    Accounted c.store (c.advance i).store (c.upcoming i) ∧
      Move (calls i) c.store (c.reported i) (c.upcoming i) ∧ Staged calls (c.advance i) := by
  cases hcall : c.calls i with
  | done a =>
      have hsame : c.advance i = c := by simp [Config.advance, hcall]
      have hnone : c.upcoming i = [] := by simp [Config.upcoming, hcall]
      rw [hsame, hnone]
      exact ⟨.refl _ (by simp), .quiet (by simp), h⟩
  | fail e =>
      have hsame : c.advance i = c := by simp [Config.advance, hcall]
      have hnone : c.upcoming i = [] := by simp [Config.upcoming, hcall]
      rw [hsame, hnone]
      exact ⟨.refl _ (by simp), .quiet (by simp), h⟩
  | step exec next =>
      have hi := h i
      rw [hcall] at hi
      obtain ⟨haccount, hmove, hstage⟩ := stage_step hi c.store
      have hevents : c.upcoming i = (exec c.store).2 := by simp [Config.upcoming, hcall]
      have hnext := Config.advance_step hcall
      refine ⟨?_, hevents ▸ hmove, fun j => ?_⟩
      · rw [hnext, hevents]
        exact haccount
      · by_cases hj : j = i
        · subst hj
          rw [Config.reported_advance_self, hevents, hnext]
          simpa using hstage
        · rw [c.reported_advance_of_ne hj, hnext]
          simpa [Function.update_of_ne hj] using h j

/-- Only a call's own steps change what the trace says of it. -/
theorem mem_advance {i j : ι} {e : PushEvent} : (j, e) ∈ (c.advance i).trace ↔
    (j, e) ∈ c.trace ∨ (j = i ∧ e ∈ c.upcoming i) := by
  rw [← Config.mem_reported, ← Config.mem_reported, Config.reported_advance, List.mem_append]
  split
  · simp_all
  · simp_all [eq_comm]

theorem staged_advance (h : Staged calls c) (i : ι) : Staged calls (c.advance i) :=
  (advance_spec h i).2.2

/-! ## Reads and writes -/

/-- Call `j` has selected the row and its installation was active. -/
def HasActive (c : PushConfig ι) (j : ι) (r : DeliveryRow) : Prop :=
  ∃ rows, (j, .selected rows) ∈ c.trace ∧ r ∈ activeDeliveries rows

/-- Call `j` has written the delivery. -/
def HasWritten (c : PushConfig ι) (j : ι) (id : Id) : Prop :=
  ∃ d d', (j, .wrote d d') ∈ c.trace ∧ d.id = id

/-- The rest of call `j` contains a write of the delivery. -/
def MayWrite (c : PushConfig ι) (j : ι) (id : Id) : Prop :=
  (c.calls j).MayEmit fun e => ∃ d d', e = .wrote d d' ∧ d.id = id

theorem hasActive_advance {i j : ι} {r : DeliveryRow} : HasActive (c.advance i) j r ↔
    HasActive c j r ∨ (j = i ∧ ∃ rows, .selected rows ∈ c.upcoming i ∧
      r ∈ activeDeliveries rows) := by
  simp only [HasActive, mem_advance]
  constructor
  · rintro ⟨rows, hold | ⟨rfl, hnew⟩, hr⟩
    · exact .inl ⟨rows, hold, hr⟩
    · exact .inr ⟨rfl, rows, hnew, hr⟩
  · rintro (⟨rows, hold, hr⟩ | ⟨rfl, rows, hnew, hr⟩)
    · exact ⟨rows, .inl hold, hr⟩
    · exact ⟨rows, .inr ⟨rfl, hnew⟩, hr⟩

theorem hasWritten_advance {i j : ι} {id : Id} : HasWritten (c.advance i) j id ↔
    HasWritten c j id ∨ (j = i ∧ ∃ d d', .wrote d d' ∈ c.upcoming i ∧ d.id = id) := by
  simp only [HasWritten, mem_advance]
  constructor
  · rintro ⟨d, d', hold | ⟨rfl, hnew⟩, hid⟩
    · exact .inl ⟨d, d', hold, hid⟩
    · exact .inr ⟨rfl, d, d', hnew, hid⟩
  · rintro (⟨d, d', hold, hid⟩ | ⟨rfl, d, d', hnew, hid⟩)
    · exact ⟨d, d', .inl hold, hid⟩
    · exact ⟨d, d', .inr ⟨rfl, hnew⟩, hid⟩

theorem mayWrite_of_advance {i j : ι} {id : Id} (h : MayWrite (c.advance i) j id) :
    MayWrite c j id := Config.mayEmit_of_advance h

/-- The selection of a call is unique, and so are the rows it works on. -/
theorem selected_unique (h : Staged calls c) {j : ι} {rows rows' : List DeliveryRow}
    (hsel : (j, .selected rows) ∈ c.trace) (hsel' : (j, .selected rows') ∈ c.trace) :
    rows = rows' := by
  have hj := h j
  rw [← Config.mem_reported] at hsel hsel'
  unfold Stage at hj
  split at hj
  · obtain ⟨hnone, -⟩ | ⟨rows₀, es, hevents, hes, -⟩ := hj
    · simp [hnone] at hsel
    · have honly : ∀ rows, .selected rows ∈ c.reported j → rows = rows₀ := by
        intro rows hmem
        rw [hevents, List.mem_cons] at hmem
        rcases hmem with heq | hmem
        · exact (PushEvent.selected.inj heq)
        · cases hes _ hmem
      exact (honly rows hsel).trans (honly rows' hsel').symm
  · obtain ⟨hnone, -⟩ | ⟨rows₀, es, hevents, hes, -⟩ := hj
    · simp [hnone] at hsel
    · rw [hevents, List.mem_cons] at hsel
      rcases hsel with heq | hmem
      · cases heq
      · cases hes _ hmem
  · obtain ⟨before, after, heq⟩ := hj.1 _ hsel
    cases heq

/-- A call that has read receipts has selected nothing. -/
theorem not_selected_of_polled (h : Staged calls c) {j : ι} {rows : List DeliveryRow}
    {ds : List PushDelivery} (hpoll : (j, .polled ds) ∈ c.trace) :
    (j, .selected rows) ∉ c.trace := by
  have hj := h j
  rw [← Config.mem_reported] at hpoll ⊢
  intro hsel
  unfold Stage at hj
  split at hj
  · obtain ⟨hnone, -⟩ | ⟨rows₀, es, hevents, hes, -⟩ := hj
    · simp [hnone] at hsel
    · rw [hevents, List.mem_cons] at hpoll
      rcases hpoll with heq | hmem
      · cases heq
      · cases hes _ hmem
  · obtain ⟨hnone, -⟩ | ⟨rows₀, es, hevents, hes, -⟩ := hj
    · simp [hnone] at hsel
    · rw [hevents, List.mem_cons] at hsel
      rcases hsel with heq | hmem
      · cases heq
      · cases hes _ hmem
  · obtain ⟨before, after, heq⟩ := hj.1 _ hsel
    cases heq

/-- A statement that selects is the call's first and writes nothing. -/
theorem selects_spec (h : Staged calls c) {i : ι} {rows : List DeliveryRow}
    (hsel : .selected rows ∈ c.upcoming i) :
    (∃ env limit, calls i = .dispatchPending env limit ∧ rows = c.store.due env.now limit) ∧
      c.reported i = [] ∧ c.upcoming i = [.selected rows] := by
  have hmove := (advance_spec h i).2.1
  generalize c.upcoming i = es at hsel hmove
  cases hmove with
  | @selects env limit kind first =>
      cases List.mem_singleton.mp hsel
      exact ⟨⟨env, limit, kind, rfl⟩, first, rfl⟩
  | polls kind first => cases List.mem_singleton.mp hsel
  | dispatches read law => exact nomatch law _ hsel
  | receives read law => exact nomatch law _ hsel
  | quiet law =>
      obtain ⟨before, after, heq⟩ := law _ hsel
      cases heq

end system

end Feca.Push
