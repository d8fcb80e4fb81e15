import Feca.Push.System
import Mathlib.Data.Fintype.Basic

/-! # Overlapping dispatch runs

Nothing claims a delivery between its selection and the write of its outcome,
so two runs that overlap can post one attempt twice. They cannot when every
selection finds its active deliveries out of flight: not selected by another
run that has still to write their outcome, or may write it once more. Then the
attempt count tells every two readings of a delivery apart.
-/

namespace Feca.Push

open Concurrency Concurrency.Prog Relational

variable {ι : Type} [DecidableEq ι]

/-- The attempts call `i` has posted: a delivery and its attempt count as selected. -/
def attemptsOf (c : PushConfig ι) (i : ι) : List (Id × Nat) :=
  (c.reported i).flatMap fun
    | .posted batch _ => batch.map fun r => (r.id, r.attemptCount)
    | _ => []

/-- Every attempt is in the posted batches of at most one call. -/
def NoDoubleSend (c : PushConfig ι) : Prop :=
  ∀ i j, i ≠ j → (attemptsOf c i).Disjoint (attemptsOf c j)

/-- Call `j` selected the delivery and its outcome is still to be written, or
may be written again. -/
def InFlight (c : PushConfig ι) (j : ι) (id : Id) : Prop :=
  (∃ r, HasActive c j r ∧ r.id = id) ∧ (MayWrite c j id ∨ ¬ HasWritten c j id)

/-- If call `i` selects now, no other call has any of its active rows in flight. -/
def SelectsGrounded (c : PushConfig ι) (i : ι) : Prop :=
  ∀ rows, .selected rows ∈ c.upcoming i → ∀ r ∈ activeDeliveries rows,
    ∀ j, j ≠ i → ¬ InFlight c j r.id

variable {calls : ι → PushCall} {c : PushConfig ι}

/-! ## Posted attempts were selected -/

theorem hasActive_of_attempt (h : Staged calls c) {i : ι} {a : Id × Nat}
    (ha : a ∈ attemptsOf c i) : ∃ r, HasActive c i r ∧ a = (r.id, r.attemptCount) := by
  obtain ⟨e, he, hmem⟩ := List.mem_flatMap.mp ha
  have hi := h i
  cases e with
  | posted batch messages =>
      obtain ⟨r, hr, rfl⟩ := List.mem_map.mp hmem
      refine ⟨r, ?_, rfl⟩
      unfold Stage at hi
      split at hi
      · obtain ⟨hnone, -⟩ | ⟨rows, es, hevents, hes, -⟩ := hi
        · simp [hnone] at he
        · rw [hevents, List.mem_cons] at he
          rcases he with heq | hpost
          · cases heq
          · cases hes _ hpost with
            | posted unread active =>
                refine ⟨rows, Config.mem_reported.mp ?_, active r hr⟩
                rw [hevents]
                exact List.mem_cons_self
      · obtain ⟨hnone, -⟩ | ⟨rows, es, hevents, hes, -⟩ := hi
        · simp [hnone] at he
        · rw [hevents, List.mem_cons] at he
          rcases he with heq | hpost
          · cases heq
          · cases hes _ hpost
      · obtain ⟨before, after, heq⟩ := hi.1 _ he
        cases heq
  | selected rows => simp at hmem
  | polled rows => simp at hmem
  | asked ids => simp at hmem
  | wrote before after => simp at hmem
  | seated before after => simp at hmem

/-! ## What a step does to attempt counts -/

/-- A write either leaves the count of a row its call has not active, or sets
it one beyond the count its call read. -/
theorem wrote_spec (h : Staged calls c) {i : ι} {d d' : PushDelivery}
    (hw : .wrote d d' ∈ c.upcoming i) :
    (d'.attemptCount = d.attemptCount ∧ ∀ r, HasActive c i r → r.id ≠ d.id) ∨
      ∃ r, HasActive c i r ∧ r.id = d.id ∧ d'.attemptCount = r.attemptCount + 1 := by
  have hmove := (advance_spec h i).2.1
  generalize c.upcoming i = es at hw hmove
  cases hmove with
  | selects kind first => cases List.mem_singleton.mp hw
  | polls kind first => cases List.mem_singleton.mp hw
  | @dispatches rows _ read law =>
      have hrows := Config.mem_reported.mp read
      cases law _ hw with
      | @cancelled q _ data inactive row attempt status =>
          refine .inl ⟨by simp [attempt], ?_⟩
          rintro r ⟨rows', hsel, hr⟩ hid
          cases selected_unique h hrows hsel
          exact active_ne_inactive hr inactive (row.symm.trans hid.symm)
      | @recorded r _ data active row attempt =>
          exact .inr ⟨r, ⟨rows, hrows, active⟩, row.symm, by simp [attempt]⟩
  | @receives ds _ read law =>
      cases law _ hw with
      | recorded _ _ attempt _ =>
          refine .inl ⟨by simp [attempt], ?_⟩
          rintro r ⟨rows, hsel, -⟩
          exact absurd hsel (not_selected_of_polled h (Config.mem_reported.mp read))
  | quiet law =>
      obtain ⟨before, after, heq⟩ := law _ hw
      cases heq

/-- The count of a stored delivery after a step of call `i`. -/
theorem attemptCount_advance (h : Staged calls c) (i : ι) {d' : PushDelivery}
    (hd' : d' ∈ (c.advance i).store.deliveries.rows) :
    (∃ d ∈ c.store.deliveries.rows, d.id = d'.id ∧ d'.attemptCount = d.attemptCount) ∨
    (∃ d ∈ c.store.deliveries.rows, d.id = d'.id ∧ .wrote d d' ∈ c.upcoming i ∧
      ∃ r, HasActive c i r ∧ r.id = d'.id ∧ d'.attemptCount = r.attemptCount + 1) ∨
    ∀ d ∈ c.store.deliveries.rows, d.id ≠ d'.id := by
  have haccount := (advance_spec h i).1
  rcases haccount.origin d' hd' with hold | ⟨d, hd, hw⟩ | ⟨-, hfresh⟩
  · exact .inl ⟨d', hold, rfl, rfl⟩
  · have hid := (haccount.wrote d d' hw).2.2.1
    rcases wrote_spec h hw with ⟨hcount, -⟩ | ⟨r, hr, hrid, hcount⟩
    · exact .inl ⟨d, hd, hid.symm, hcount⟩
    · exact .inr (.inl ⟨d, hd, hid.symm, hw, r, hr, hrid.trans hid.symm, hcount⟩)
  · exact .inr (.inr hfresh)

/-! ## The invariant -/

/-- Every reading of an active row is bounded by the stored attempt count, by
one more once its outcome is written; a row in flight is in flight in one call,
at most one attempt ahead; and no two calls have read the same attempt. -/
structure Exclusive (calls : ι → PushCall) (c : PushConfig ι) : Prop where
  staged : Staged calls c
  same : ∀ i r q, HasActive c i r → HasActive c i q → r.id = q.id →
    r.attemptCount = q.attemptCount
  bound : ∀ i r, HasActive c i r → ∃ d ∈ c.store.deliveries.rows, d.id = r.id ∧
    r.attemptCount ≤ d.attemptCount ∧ (HasWritten c i r.id → r.attemptCount + 1 ≤ d.attemptCount)
  tight : ∀ i r, HasActive c i r → InFlight c i r.id → ∀ d ∈ c.store.deliveries.rows,
    d.id = r.id → d.attemptCount ≤ r.attemptCount + 1
  exclusive : ∀ i j id, InFlight c i id → InFlight c j id → i = j
  distinct : ∀ i j r q, i ≠ j → HasActive c i r → HasActive c j q → r.id = q.id →
    r.attemptCount ≠ q.attemptCount

theorem exclusive_begin (s : PushDb) (calls : ι → PushCall) : Exclusive calls (begin s calls) := by
  have hnone : ∀ i r, ¬ HasActive (begin s calls) i r := by
    rintro i r ⟨rows, hsel, -⟩
    simp [begin] at hsel
  exact ⟨staged_begin s calls, fun i r _ hr => absurd hr (hnone i r),
    fun i r hr => absurd hr (hnone i r), fun i r hr => absurd hr (hnone i r),
    fun i _ _ ⟨⟨r, hr, _⟩, _⟩ => absurd hr (hnone i r), fun i _ r _ _ hr => absurd hr (hnone i r)⟩

/-- A row a step newly selects is stored as selected, after the step as well. -/
theorem newly_selected (h : Staged calls c) {i : ι} {rows : List DeliveryRow}
    (hsel : .selected rows ∈ c.upcoming i) {r : DeliveryRow} (hr : r ∈ activeDeliveries rows) :
    r.toPushDelivery ∈ c.store.deliveries.rows ∧
      ∀ d' ∈ (c.advance i).store.deliveries.rows, d'.id = r.id →
        d'.attemptCount = r.attemptCount := by
  obtain ⟨⟨env, limit, -, rfl⟩, -, hes⟩ := selects_spec h hsel
  obtain ⟨d, hd, hrow, -⟩ := PushDb.mem_due (mem_of_mem_active hr)
  have hdelivery := (PushDb.deliveryRow_spec hrow).1
  subst hdelivery
  refine ⟨hd, fun d' hd' hid => ?_⟩
  rcases attemptCount_advance h i hd' with ⟨e, he, heid, hcount⟩ | ⟨e, -, -, hw, -⟩ | hfresh
  · rw [hcount, c.store.delivery_unique he hd (heid.trans hid)]
  · rw [hes] at hw
    cases List.mem_singleton.mp hw
  · exact absurd hid.symm (hfresh _ hd)

theorem not_hasActive_of_fresh {i : ι} (hevents : c.reported i = []) (r : DeliveryRow) :
    ¬ HasActive c i r := by
  rintro ⟨rows, hsel, -⟩
  rw [← Config.mem_reported, hevents] at hsel
  cases hsel

/-- What was in flight after a step and had been selected before was in flight. -/
theorem inFlight_of_advance {i j : ι} {id : Id} (h : InFlight (c.advance i) j id)
    (hread : ∃ r, HasActive c j r ∧ r.id = id) : InFlight c j id := by
  refine ⟨hread, ?_⟩
  rcases h.2 with hmay | hnot
  · exact .inl (mayWrite_of_advance hmay)
  · exact .inr fun hwritten => hnot (hasWritten_advance.mpr (.inl hwritten))

omit [DecidableEq ι] in
theorem inFlight_of_write {i : ι} {d d' : PushDelivery} {r : DeliveryRow}
    (hw : .wrote d d' ∈ c.upcoming i) (hr : HasActive c i r) (hid : r.id = d.id) :
    InFlight c i d.id :=
  ⟨⟨r, hr, hid⟩, .inl (Config.mayEmit_of_upcoming hw ⟨d, d', rfl, rfl⟩)⟩

omit [DecidableEq ι] in
/-- A call that has a row neither in flight nor unread has written its outcome. -/
theorem hasWritten_of_not_inFlight {j : ι} {r : DeliveryRow} (hr : HasActive c j r)
    (h : ¬ InFlight c j r.id) : HasWritten c j r.id := by
  by_contra hnot
  exact h ⟨⟨r, hr, rfl⟩, .inr hnot⟩

theorem bound_advance (h : Exclusive calls c) (i : ι) (j : ι) (r : DeliveryRow)
    (hr : HasActive c j r) : ∃ d ∈ (c.advance i).store.deliveries.rows, d.id = r.id ∧
      r.attemptCount ≤ d.attemptCount ∧
        (HasWritten (c.advance i) j r.id → r.attemptCount + 1 ≤ d.attemptCount) := by
  obtain ⟨haccount, -, -⟩ := advance_spec h.staged i
  obtain ⟨d, hd, hid, hle, hwritten⟩ := h.bound j r hr
  obtain ⟨d', hd', hid'⟩ := haccount.kept d hd
  refine ⟨d', hd', hid'.trans hid, ?_⟩
  rcases attemptCount_advance h.staged i hd' with
    ⟨e, he, heid, hcount⟩ | ⟨e, he, heid, hw, q, hq, hqid, hcount⟩ | hfresh
  · have hed : e = d := c.store.delivery_unique he hd (heid.trans hid')
    subst hed
    refine ⟨hcount ▸ hle, fun hafter => ?_⟩
    rcases hasWritten_advance.mp hafter with hbefore | ⟨rfl, x, x', hw, hxid⟩
    · exact hcount ▸ hwritten hbefore
    · -- The write just made is of an active row, so it set the count itself.
      obtain ⟨-, hx', hx'id, -⟩ := haccount.wrote x x' hw
      have hsame : x' = d' := (c.advance j).store.delivery_unique hx' hd'
        (hx'id.trans (hxid.trans (hid.symm.trans hid'.symm)))
      rcases wrote_spec h.staged hw with ⟨-, hother⟩ | ⟨q, hq, hqid, hset⟩
      · exact absurd hxid.symm (hother r hr)
      · rw [← hsame, hset, h.same j r q hr hq (hxid.symm.trans hqid.symm)]
  · by_cases hji : j = i
    · subst hji
      have hsame := h.same j r q hr hq (hid.symm.trans (hid'.symm.trans hqid.symm))
      omega
    · have hflight : InFlight c i e.id :=
        inFlight_of_write hw hq (hqid.trans heid.symm)
      have hed : e = d := c.store.delivery_unique he hd (heid.trans hid')
      subst hed
      have hnot : ¬ InFlight c j r.id := fun hj =>
        hji (h.exclusive j i r.id hj (hid ▸ hflight))
      have hge := hwritten (hasWritten_of_not_inFlight hr hnot)
      have hle' := h.tight i q hq (hqid.trans heid.symm ▸ hflight) e he (heid.trans hqid.symm)
      omega
  · exact absurd hid'.symm (hfresh d hd)

theorem tight_advance (h : Exclusive calls c) (i : ι) (j : ι) (r : DeliveryRow)
    (hr : HasActive c j r) (hflight : InFlight (c.advance i) j r.id) (d' : PushDelivery)
    (hd' : d' ∈ (c.advance i).store.deliveries.rows) (hid : d'.id = r.id) :
    d'.attemptCount ≤ r.attemptCount + 1 := by
  have hbefore : InFlight c j r.id := inFlight_of_advance hflight ⟨r, hr, rfl⟩
  rcases attemptCount_advance h.staged i hd' with
    ⟨e, he, heid, hcount⟩ | ⟨e, he, heid, hw, q, hq, hqid, hcount⟩ | hfresh
  · have hle := h.tight j r hr hbefore e he (heid.trans hid)
    omega
  · have hwrites := inFlight_of_write hw hq (hqid.trans heid.symm)
    have hji : j = i := h.exclusive j i r.id hbefore (heid.trans hid ▸ hwrites)
    subst hji
    have hsame := h.same j r q hr hq (hid.symm.trans hqid.symm)
    omega
  · obtain ⟨d, hd, hdid, -⟩ := h.bound j r hr
    exact absurd (hdid.trans hid.symm) (hfresh d hd)

theorem exclusive_advance (h : Exclusive calls c) {i : ι} (hground : SelectsGrounded c i) :
    Exclusive calls (c.advance i) where
  staged := staged_advance h.staged i
  same j r q hr hq hid := by
    rcases hasActive_advance.mp hr with hr' | ⟨rfl, rows, hsel, hr'⟩
    · rcases hasActive_advance.mp hq with hq' | ⟨rfl, rows, hsel, hq'⟩
      · exact h.same j r q hr' hq' hid
      · exact absurd hr' (not_hasActive_of_fresh (selects_spec h.staged hsel).2.1 r)
    · obtain ⟨-, hevents, hes⟩ := selects_spec h.staged hsel
      rcases hasActive_advance.mp hq with hq' | ⟨-, rows', hsel', hq'⟩
      · exact absurd hq' (not_hasActive_of_fresh hevents q)
      · rw [hes] at hsel'
        cases List.mem_singleton.mp hsel'
        have hrd := (newly_selected h.staged hsel hr').1
        have hqd := (newly_selected h.staged hsel hq').1
        exact congrArg PushDelivery.attemptCount (c.store.delivery_unique hrd hqd hid)
  bound j r hr := by
    rcases hasActive_advance.mp hr with hr | ⟨rfl, rows, hsel, hr⟩
    · exact bound_advance h i j r hr
    · obtain ⟨hd, hcount⟩ := newly_selected h.staged hsel hr
      obtain ⟨d', hd', hid⟩ := (advance_spec h.staged j).1.kept _ hd
      refine ⟨d', hd', hid, (hcount d' hd' hid).ge, fun hwritten => ?_⟩
      obtain ⟨-, hevents, hes⟩ := selects_spec h.staged hsel
      rcases hasWritten_advance.mp hwritten with ⟨x, x', hw, -⟩ | ⟨-, x, x', hw, -⟩
      · rw [← Config.mem_reported, hevents] at hw
        cases hw
      · rw [hes] at hw
        cases List.mem_singleton.mp hw
  tight j r hr hflight d' hd' hid := by
    rcases hasActive_advance.mp hr with hr | ⟨rfl, rows, hsel, hr⟩
    · exact tight_advance h i j r hr hflight d' hd' hid
    · have hcount := (newly_selected h.staged hsel hr).2 d' hd' hid
      omega
  exclusive j k id hj hk := by
    obtain ⟨r, hr, hrid⟩ := hj.1
    obtain ⟨q, hq, hqid⟩ := hk.1
    rcases hasActive_advance.mp hr with hr' | ⟨hji, rows, hsel, hr'⟩
    · have hjold := inFlight_of_advance hj ⟨r, hr', hrid⟩
      rcases hasActive_advance.mp hq with hq' | ⟨hki, rows, hsel, hq'⟩
      · exact h.exclusive j k id hjold (inFlight_of_advance hk ⟨q, hq', hqid⟩)
      · by_contra hne
        exact hground rows hsel q hq' j (fun hji => hne (hji.trans hki.symm)) (hqid ▸ hjold)
    · by_contra hne
      have hki : k ≠ i := fun hki => hne (hji.trans hki.symm)
      have hq' : HasActive c k q := by
        rcases hasActive_advance.mp hq with hq' | ⟨heq, -⟩
        · exact hq'
        · exact absurd heq hki
      exact hground rows hsel r hr' k hki (hrid ▸ inFlight_of_advance hk ⟨q, hq', hqid⟩)
  distinct j k r q hjk hr hq hid := by
    -- A new reading finds the outcome of every older one written.
    have hnewer : ∀ {k : ι} {r q : DeliveryRow} {rows : List DeliveryRow}, k ≠ i →
        .selected rows ∈ c.upcoming i → r ∈ activeDeliveries rows → HasActive c k q →
        r.id = q.id → q.attemptCount < r.attemptCount := by
      intro k r q rows hki hsel hr hq hid
      have hnot := hground rows hsel r hr k hki
      have hwritten := hasWritten_of_not_inFlight hq (hid ▸ hnot)
      obtain ⟨d, hd, hdid, -, hge⟩ := h.bound k q hq
      have hrd := (newly_selected h.staged hsel hr).1
      have hsame := c.store.delivery_unique hd hrd (hdid.trans hid.symm)
      have hcount : d.attemptCount = r.attemptCount := by rw [hsame]
      have := hge hwritten
      omega
    rcases hasActive_advance.mp hr with hr' | ⟨rfl, rows, hsel, hr'⟩
    · rcases hasActive_advance.mp hq with hq' | ⟨rfl, rows, hsel, hq'⟩
      · exact h.distinct j k r q hjk hr' hq' hid
      · exact (hnewer hjk hsel hq' hr' hid.symm).ne
    · rcases hasActive_advance.mp hq with hq' | ⟨heq, -⟩
      · exact (hnewer (Ne.symm hjk) hsel hr' hq' hid).ne'
      · exact absurd heq.symm hjk

theorem Exclusive.noDoubleSend (h : Exclusive calls c) : NoDoubleSend c := by
  intro i j hij a hi hj
  obtain ⟨r, hr, rfl⟩ := hasActive_of_attempt h.staged hi
  obtain ⟨q, hq, heq⟩ := hasActive_of_attempt h.staged hj
  obtain ⟨hid, hcount⟩ := Prod.mk.inj heq
  exact h.distinct i j r q hij hr hq hid hcount

/-- No attempt is posted by two calls in any interleaving in which every
selection finds its active deliveries out of flight. -/
theorem noDoubleSend_of_grounded (s : PushDb) (calls : ι → PushCall) (schedule : List ι)
    (heeds : Config.Heeds SelectsGrounded (begin s calls) schedule) :
    NoDoubleSend ((begin s calls).run schedule) :=
  (Config.invariant_of_heeds (I := Exclusive calls) (fun _ _ h => exclusive_advance h)
    (exclusive_begin s calls) heeds).noDoubleSend

/-! ## Checking a schedule -/

/-- The deliveries call `j` has selected with an active installation. -/
def activeIds (c : PushConfig ι) (j : ι) : List Id :=
  (c.reported j).flatMap fun
    | .selected rows => (activeDeliveries rows).map (·.id)
    | _ => []

/-- The deliveries call `j` has written. -/
def writtenIds (c : PushConfig ι) (j : ι) : List Id :=
  (c.reported j).flatMap fun
    | .wrote d _ => [d.id]
    | _ => []

def PushEvent.isSelection : PushEvent → Bool
  | .selected _ => true
  | _ => false

/-- The call selects nothing now, or every other call is over with all its
outcomes written. -/
def Settled (c : PushConfig ι) (i : ι) : Prop :=
  (c.upcoming i).any PushEvent.isSelection = false ∨
    ∀ j, j ≠ i → (activeIds c j = [] ∨ (c.calls j).ended) ∧ activeIds c j ⊆ writtenIds c j

instance [Fintype ι] (c : PushConfig ι) (i : ι) : Decidable (Settled c i) := by
  unfold Settled
  infer_instance

theorem Settled.grounded {i : ι} (h : Settled c i) : SelectsGrounded c i := by
  rintro rows hsel r - j hj ⟨⟨q, ⟨rows', hread, hq⟩, hid⟩, hflight⟩
  rcases h with hquiet | hover
  · exact List.any_eq_false.mp hquiet _ hsel rfl
  · have hactive : q.id ∈ activeIds c j :=
      List.mem_flatMap.mpr ⟨_, Config.mem_reported.mpr hread, List.mem_map_of_mem hq⟩
    obtain ⟨hended, hwritten⟩ := hover j hj
    rcases hflight with hmay | hnot
    · rcases hended with hnone | hended
      · rw [hnone] at hactive
        cases hactive
      · exact not_mayEmit_of_ended hended hmay
    · obtain ⟨e, he, hmem⟩ := List.mem_flatMap.mp (hwritten hactive)
      cases e with
      | wrote d d' =>
          have hd : q.id = d.id := by simpa using hmem
          exact hnot ⟨d, d', Config.mem_reported.mp he, hd.symm.trans hid⟩
      | selected rows => simp at hmem
      | polled rows => simp at hmem
      | posted batch messages => simp at hmem
      | asked ids => simp at hmem
      | seated before after => simp at hmem

/-! ## One delivery -/

def aPhone : PushInstallation where
  id := "i1"
  userId := "u1"
  installationId := "phone"
  token := "tok"
  platform := .ios
  timezone := "UTC"
  lastSeenAt := 0
  createdAt := 0

def aNotification : Notification where
  id := "n1"
  userId := "u1"
  type := .weeklyDigest
  createdAt := 0

def aDelivery : PushDelivery where
  id := "d1"
  notificationId := "n1"
  installationId := "i1"
  scheduledFor := 0
  createdAt := 0

/-- One pending delivery, on an installation of the notified user. -/
def oneDelivery : PushDb where
  users := ⟨[{ id := "u1", username := "ana", displayName := "Ana" }], List.pairwise_singleton _ _⟩
  settings := .empty
  notifications := ⟨[aNotification], List.pairwise_singleton _ _⟩
  installations := .singleton aPhone
  deliveries := ⟨[aDelivery], List.pairwise_singleton _ _⟩
  delivery_notification := by simp [aNotification, aDelivery]
  delivery_installation := by simp [aPhone, aDelivery]

/-- Nothing fails and Expo answers every batch with `ticket`. -/
def answering (ticket : ExpoPushTicket) : DispatchEnv where
  now := 10
  cancelledAt := 10
  sendAt _ := 10
  reply _ := .answered 200 (.ok ⟨some (.one ticket)⟩)
  fails _ := none

/-- Two runs that both select before either writes post the same attempt. -/
theorem overlapping_runs_send_twice :
    ¬ NoDoubleSend ((begin oneDelivery fun _ : Bool =>
      .dispatchPending (answering (.ok "ticket")) 100).run
        [false, true, false, false, true, true]) := by
  intro h
  have hfalse : ("d1", 0) ∈ attemptsOf ((begin oneDelivery fun _ : Bool =>
      .dispatchPending (answering (.ok "ticket")) 100).run
        [false, true, false, false, true, true]) false := by decide
  exact h false true (by decide) hfalse (by decide)

/-- A run that retries what the run before it left pending posts a new attempt. -/
theorem retry_sends_anew : NoDoubleSend ((begin oneDelivery fun _ : Bool =>
    .dispatchPending (answering (.error none none)) 100).run
      [false, false, false, false, true, true, true]) := by
  have hsettled : Config.Heeds Settled (begin oneDelivery fun _ : Bool =>
      .dispatchPending (answering (.error none none)) 100)
      [false, false, false, false, true, true, true] := by decide
  exact noDoubleSend_of_grounded _ _ _ (hsettled.mono fun _ _ => Settled.grounded)

end Feca.Push
