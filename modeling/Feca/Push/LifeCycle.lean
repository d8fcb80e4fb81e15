import Feca.Push.Exclusion
import Feca.Push.WriteOnce

/-! # The life cycle of a delivery

Every write goes by id, whatever has become of the row since it was read. A
stored status follows its life cycle when no delivery is read while another
call that read it may still write it, and when no batch fails after its first
outcome, which would make its run write the earlier outcomes again.
-/

namespace Feca.Push

open Concurrency Concurrency.Prog Relational

/-- The statuses no delivery leaves. -/
def PushDeliveryStatus.terminal : PushDeliveryStatus → Bool
  | .delivered | .failed | .cancelled => true
  | .pending | .ticketed => false

/-- From one store to the next no delivery leaves a terminal status, and no
ticketed one becomes pending. -/
def KeepsLifeCycle (s t : PushDb) : Prop :=
  ∀ d ∈ s.deliveries.rows, ∀ d' ∈ t.deliveries.rows, d'.id = d.id →
    (d.status.terminal → d'.status = d.status) ∧ (d.status = .ticketed → d'.status ≠ .pending)

instance (s t : PushDb) : Decidable (KeepsLifeCycle s t) := by
  unfold KeepsLifeCycle
  infer_instance

section system
variable {ι : Type} [DecidableEq ι] {calls : ι → PushCall} {c : PushConfig ι}

/-- What every call still has to do, it does once. -/
def Frugal (c : PushConfig ι) : Prop :=
  ∀ j, ∃ S, (c.calls j).Spends Touches (fun _ _ => True) S

theorem frugal_advance (h : Frugal c) (i : ι) : Frugal (c.advance i) := by
  intro j
  obtain hsame | ⟨exec, next, hcall, hadvance⟩ := c.advance_cases i
  · rw [hsame]
    exact h j
  · rw [hadvance]
    by_cases hj : j = i
    · subst hj
      obtain ⟨S, hS⟩ := h j
      rw [hcall] at hS
      exact ⟨_, by simpa using (hS c.store).2⟩
    · simpa [Function.update_of_ne hj] using h j

/-- A delivery that was just written is not written again by the same call. -/
theorem not_mayWrite_of_wrote (h : Frugal c) {i : ι} {d d' : PushDelivery}
    (hw : .wrote d d' ∈ c.upcoming i) : ¬ MayWrite (c.advance i) i d.id := by
  intro hmay
  obtain ⟨S, hS⟩ := h i
  cases hcall : c.calls i with
  | done a => simp [Config.upcoming, hcall] at hw
  | fail e => simp [Config.upcoming, hcall] at hw
  | step exec next =>
      rw [hcall] at hS
      have hevents : c.upcoming i = (exec c.store).2 := by simp [Config.upcoming, hcall]
      have hmay' : (next c.store).MayEmit fun e => Touches e d.id := by
        have hrest : ((c.advance i).calls i) = next c.store := by
          rw [Config.advance_step hcall]
          simp
        exact hrest ▸ hmay
      exact ((hS c.store).2.mem_of_mayEmit hmay').2 _ (hevents ▸ hw) ⟨d, d', rfl, rfl⟩

/-! ## Reads -/

/-- The deliveries an event reads, with the status they are read with. -/
def PushEvent.reads : PushEvent → List (Id × PushDeliveryStatus)
  | .selected rows => rows.map fun r => (r.id, .pending)
  | .polled ds => ds.map fun d => (d.id, .ticketed)
  | _ => []

/-- Call `j` read the delivery when it had the status. -/
def HasRead (c : PushConfig ι) (j : ι) (id : Id) (status : PushDeliveryStatus) : Prop :=
  ∃ e, (j, e) ∈ c.trace ∧ (id, status) ∈ e.reads

/-- If call `i` reads now, no other call that read one of these deliveries may
still write it. -/
def ReadsUncontended (c : PushConfig ι) (i : ι) : Prop :=
  ∀ e ∈ c.upcoming i, ∀ p ∈ e.reads, ∀ j, j ≠ i → ∀ status,
    HasRead c j p.1 status → ¬ MayWrite c j p.1

theorem hasRead_advance {i j : ι} {id : Id} {status : PushDeliveryStatus} :
    HasRead (c.advance i) j id status ↔
      HasRead c j id status ∨ (j = i ∧ ∃ e ∈ c.upcoming i, (id, status) ∈ e.reads) := by
  simp only [HasRead, mem_advance]
  constructor
  · rintro ⟨e, hold | ⟨rfl, hnew⟩, hid⟩
    · exact .inl ⟨e, hold, hid⟩
    · exact .inr ⟨rfl, e, hnew, hid⟩
  · rintro (⟨e, hold, hid⟩ | ⟨rfl, e, hnew, hid⟩)
    · exact ⟨e, .inl hold, hid⟩
    · exact ⟨e, .inr ⟨rfl, hnew⟩, hid⟩

/-- Only a delivery that was read is written, and receipts never make one pending. -/
theorem hasRead_of_wrote (h : Staged calls c) {i : ι} {d d' : PushDelivery}
    (hw : .wrote d d' ∈ c.upcoming i) : ∃ status, HasRead c i d.id status ∧
      (status = .pending ∨ (status = .ticketed ∧ d'.status ≠ .pending)) := by
  have hmove := (advance_spec h i).2.1
  generalize c.upcoming i = es at hw hmove
  cases hmove with
  | selects kind first => cases List.mem_singleton.mp hw
  | polls kind first => cases List.mem_singleton.mp hw
  | dispatches read law =>
      refine ⟨.pending, ⟨_, Config.mem_reported.mp read, ?_⟩, .inl rfl⟩
      cases law _ hw with
      | cancelled inactive row _ _ =>
          exact List.mem_map.mpr ⟨_, mem_of_mem_inactive inactive, by rw [row]⟩
      | recorded active row _ =>
          exact List.mem_map.mpr ⟨_, mem_of_mem_active active, by rw [row]⟩
  | receives read law =>
      cases law _ hw with
      | recorded hread row _ status =>
          refine ⟨.ticketed, ⟨_, Config.mem_reported.mp read, ?_⟩, .inr ⟨rfl, ?_⟩⟩
          · exact List.mem_map.mpr ⟨_, hread, by rw [row]⟩
          · rcases status with hstatus | hstatus <;> simp [hstatus]
  | quiet law =>
      obtain ⟨before, after, heq⟩ := law _ hw
      cases heq

/-- A statement that reads finds the deliveries with the status it reads, and
writes nothing. -/
theorem reads_spec (h : Staged calls c) {i : ι} {e : PushEvent} (he : e ∈ c.upcoming i)
    {id : Id} {status : PushDeliveryStatus} (hread : (id, status) ∈ e.reads) :
    (∃ d ∈ c.store.deliveries.rows, d.id = id ∧ d.status = status) ∧
      ∀ d d', .wrote d d' ∉ c.upcoming i := by
  have hmove := (advance_spec h i).2.1
  generalize c.upcoming i = es at he hmove
  cases hmove with
  | selects kind first =>
      cases List.mem_singleton.mp he
      obtain ⟨r, hr, heq⟩ := List.mem_map.mp hread
      cases heq
      obtain ⟨d, hd, hrow, hstatus, -⟩ := PushDb.mem_due hr
      exact ⟨⟨d, hd, congrArg PushDelivery.id (PushDb.deliveryRow_spec hrow).1.symm, hstatus⟩,
        by simp⟩
  | polls kind first =>
      cases List.mem_singleton.mp he
      obtain ⟨d, hd, heq⟩ := List.mem_map.mp hread
      cases heq
      obtain ⟨hmem, hstatus⟩ := PushDb.mem_ticketed hd
      exact ⟨⟨d, hmem, rfl, hstatus⟩, by simp⟩
  | dispatches read law =>
      cases law _ he <;> simp [PushEvent.reads] at hread
  | receives read law =>
      cases law _ he <;> simp [PushEvent.reads] at hread
  | quiet law =>
      obtain ⟨before, after, rfl⟩ := law _ he
      simp [PushEvent.reads] at hread

/-! ## The invariant -/

/-- A call that may still write a delivery it read finds it as it read it, and
is the only such call. -/
structure Living (calls : ι → PushCall) (c : PushConfig ι) : Prop where
  staged : Staged calls c
  frugal : Frugal c
  stored : ∀ j id status, HasRead c j id status → ∃ d ∈ c.store.deliveries.rows, d.id = id
  source : ∀ j id status, HasRead c j id status → MayWrite c j id →
    ∀ d ∈ c.store.deliveries.rows, d.id = id → d.status = status
  alone : ∀ i j id status status', HasRead c i id status → MayWrite c i id →
    HasRead c j id status' → MayWrite c j id → i = j

theorem living_begin (s : PushDb) (hcalls : ∀ j, (calls j).NoLateFailure) :
    Living calls (begin s calls) := by
  have hnone : ∀ j id status, ¬ HasRead (begin s calls) j id status := by
    rintro j id status ⟨e, he, -⟩
    simp [begin] at he
  exact ⟨staged_begin s calls, fun j => ⟨_, spends_prog (hcalls j)⟩,
    fun j id st hr => absurd hr (hnone j id st), fun j id st hr => absurd hr (hnone j id st),
    fun i _ id st _ hr => absurd hr (hnone i id st)⟩

theorem keepsLifeCycle_advance (h : Living calls c) (i : ι) :
    KeepsLifeCycle c.store (c.advance i).store := by
  intro d hd d' hd' hid
  have haccount := (advance_spec h.staged i).1
  rcases haccount.origin d' hd' with hold | ⟨x, hx, hw⟩ | ⟨-, hfresh⟩
  · have hsame := c.store.delivery_unique hold hd hid
    rw [hsame]
    exact ⟨fun _ => rfl, fun hticketed hpending => by simp [hticketed] at hpending⟩
  · have hxid := (haccount.wrote x d' hw).2.2.1
    have hxd : x = d := c.store.delivery_unique hx hd (hxid.symm.trans hid)
    subst hxd
    obtain ⟨status, hread, hstatus⟩ := hasRead_of_wrote h.staged hw
    have hmay : MayWrite c i x.id := Config.mayEmit_of_upcoming hw ⟨x, d', rfl, rfl⟩
    have hnow := h.source i x.id status hread hmay x hx rfl
    rcases hstatus with rfl | ⟨rfl, hne⟩
    · simp [hnow, PushDeliveryStatus.terminal]
    · simp [hnow, PushDeliveryStatus.terminal, hne]
  · exact absurd hid.symm (hfresh d hd)

theorem living_advance (h : Living calls c) {i : ι} (hreads : ReadsUncontended c i) :
    Living calls (c.advance i) where
  staged := staged_advance h.staged i
  frugal := frugal_advance h.frugal i
  stored j id status hr := by
    have hkept := (advance_spec h.staged i).1.kept
    have hbefore : ∃ d ∈ c.store.deliveries.rows, d.id = id := by
      rcases hasRead_advance.mp hr with hr' | ⟨rfl, e, he, hid⟩
      · exact h.stored j id status hr'
      · obtain ⟨⟨d, hd, hdid, -⟩, -⟩ := reads_spec h.staged he hid
        exact ⟨d, hd, hdid⟩
    obtain ⟨d, hd, hdid⟩ := hbefore
    obtain ⟨d', hd', hid'⟩ := hkept d hd
    exact ⟨d', hd', hid'.trans hdid⟩
  source j id status hr hmay d' hd' hid := by
    have hmay' := mayWrite_of_advance hmay
    have haccount := (advance_spec h.staged i).1
    rcases hasRead_advance.mp hr with hr' | ⟨rfl, e, he, hread⟩
    · rcases haccount.origin d' hd' with hold | ⟨x, hx, hw⟩ | ⟨-, hfresh⟩
      · exact h.source j id status hr' hmay' d' hold hid
      · -- The writer is this very call, and it does not write the row again.
        have hxid : x.id = id := (haccount.wrote x d' hw).2.2.1.symm.trans hid
        obtain ⟨status', hread, -⟩ := hasRead_of_wrote h.staged hw
        have hwrites : MayWrite c i x.id := Config.mayEmit_of_upcoming hw ⟨x, d', rfl, rfl⟩
        have hji : j = i := h.alone j i id status status' hr' hmay' (hxid ▸ hread) (hxid ▸ hwrites)
        subst hji
        exact absurd (hxid ▸ hmay) (not_mayWrite_of_wrote h.frugal hw)
      · obtain ⟨d, hd, hdid⟩ := h.stored j id status hr'
        exact absurd (hdid.trans hid.symm) (hfresh d hd)
    · obtain ⟨⟨d, hd, hdid, hstatus⟩, hnone⟩ := reads_spec h.staged he hread
      rcases haccount.origin d' hd' with hold | ⟨x, -, hw⟩ | ⟨-, hfresh⟩
      · rw [c.store.delivery_unique hold hd (hid.trans hdid.symm), hstatus]
      · exact absurd hw (hnone x d')
      · exact absurd (hdid.trans hid.symm) (hfresh d hd)
  alone j k id status status' hj hmayj hk hmayk := by
    have hmayj' := mayWrite_of_advance hmayj
    have hmayk' := mayWrite_of_advance hmayk
    by_contra hne
    rcases hasRead_advance.mp hj with hj' | ⟨hji, e, he, hread⟩
    · rcases hasRead_advance.mp hk with hk' | ⟨hki, e, he, hread⟩
      · exact hne (h.alone j k id status status' hj' hmayj' hk' hmayk')
      · exact hreads e he _ hread j (fun hji => hne (hji.trans hki.symm)) status hj' hmayj'
    · have hki : k ≠ i := fun hki => hne (hji.trans hki.symm)
      rcases hasRead_advance.mp hk with hk' | ⟨heq, -⟩
      · exact hreads e he _ hread k hki status' hk' hmayk'
      · exact hki heq

/-- Every step keeps the life cycle in any interleaving in which no read finds
a delivery that another call still has to write, and no batch fails late. -/
theorem keepsLifeCycle_of_uncontended (s : PushDb) (calls : ι → PushCall)
    (hcalls : ∀ j, (calls j).NoLateFailure) {schedule : List ι}
    (heeds : Config.Heeds ReadsUncontended (begin s calls) schedule) :
    Config.Heeds (fun c i => KeepsLifeCycle c.store (c.advance i).store)
      (begin s calls) schedule := by
  exact Config.heeds_of_heeds (I := Living calls)
    (fun _ i h hreads => ⟨keepsLifeCycle_advance h i, living_advance h hreads⟩)
    (living_begin s hcalls) heeds

/-! ## Checking a schedule -/

/-- The call reads nothing now, or every other call is over or has read nothing. -/
def ReadsSettled (c : PushConfig ι) (i : ι) : Prop :=
  (∀ e ∈ c.upcoming i, e.reads = []) ∨
    ∀ j, j ≠ i → (c.calls j).ended ∨ ∀ e ∈ c.reported j, e.reads = []

instance [Fintype ι] (c : PushConfig ι) (i : ι) : Decidable (ReadsSettled c i) := by
  unfold ReadsSettled
  infer_instance

theorem ReadsSettled.uncontended {i : ι} (h : ReadsSettled c i) : ReadsUncontended c i := by
  rintro e he p hp j hj status ⟨e', he', hread⟩ hmay
  rcases h with hnone | hover
  · simp [hnone e he] at hp
  · rcases hover j hj with hended | hnone
    · exact not_mayEmit_of_ended hended hmay
    · simp [hnone e' (Config.mem_reported.mpr he')] at hread

end system

/-- A run that selected before another one ticketed the delivery puts it back
to pending when its own post fails. -/
theorem late_failure_unticketes :
    ¬ Config.Heeds (fun c i => KeepsLifeCycle c.store (c.advance i).store)
      (begin oneDelivery fun failing : Bool => .dispatchPending
        (answering (if failing then .error none none else .ok "ticket")) 100)
      [false, true, false, false, false, true, true, true] := by decide

/-- Everything received at once, with the receipt `ok`. -/
def receiving (ok : Bool) : ReceiptEnv where
  handledAt _ := 20
  reply _ := .answered 200 (.ok ⟨some fun _ => some ⟨ok, none, none⟩⟩)
  fails _ := none

/-- A dispatch run and then a receipt run take a delivery through its life. -/
theorem dispatch_then_receipts_keep_life_cycle :
    Config.Heeds (fun c i => KeepsLifeCycle c.store (c.advance i).store)
      (begin oneDelivery fun receipts : Bool =>
        if receipts then .syncReceipts (receiving true) 300
        else .dispatchPending (answering (.ok "ticket")) 100)
      [false, false, false, false, true, true, true] := by
  have hsettled : Config.Heeds ReadsSettled (begin oneDelivery fun receipts : Bool =>
      if receipts then .syncReceipts (receiving true) 300
      else .dispatchPending (answering (.ok "ticket")) 100)
      [false, false, false, false, true, true, true] := by decide
  refine keepsLifeCycle_of_uncontended _ _ (fun receipts => ?_)
    (hsettled.mono fun _ _ => ReadsSettled.uncontended)
  cases receipts with
  | false => exact fun _ _ => ⟨rfl, rfl⟩
  | true => exact trivial

end Feca.Push
