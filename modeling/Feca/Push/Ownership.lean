import Feca.Push.LifeCycle

/-! # Whose phone a push reaches

A delivery is queued on an installation of the notified user, in the one step
that a publication is here, but registering can give the installation row to
somebody else, and dispatching does not compare the two. A push goes to its addressee as long as no installation changes hands
with deliveries of its old owner pending, or in the hands of a run that may
still make them so.
-/

namespace Feca.Push

open Concurrency Concurrency.Prog Relational

variable {ι : Type} [DecidableEq ι] {calls : ι → PushCall} {c : PushConfig ι}

/-- The message goes to the installation the row was read with, carries its
notification, and the notified user owns the installation. -/
def ReachesOwner (r : DeliveryRow) (message : ExpoMessage) : Prop :=
  message.«to» = r.installation.token ∧ message.notificationId = r.notification.id ∧
    r.installation.userId = r.notification.userId

/-- Every message a call posted reaches the owner of a row the call had read. -/
def PushesReachOwners (c : PushConfig ι) : Prop :=
  ∀ i batch messages, (i, .posted batch messages) ∈ c.trace →
    (∀ r ∈ batch, HasActive c i r) ∧ List.Forall₂ ReachesOwner batch messages

/-- If call `i` gives an installation to another user now, none of its
deliveries is pending or may still be written by a dispatch run. -/
def SeatsVacated (c : PushConfig ι) (i : ι) : Prop :=
  ∀ before after, .seated before after ∈ c.upcoming i → before.userId ≠ after.userId →
    ∀ d ∈ c.store.deliveries.rows, d.installationId = before.id →
      d.status ≠ .pending ∧ ∀ j, HasRead c j d.id .pending → ¬ MayWrite c j d.id

/-- The delivery is pending, or a dispatch run may make it so. -/
def MayBecomePending (c : PushConfig ι) (d : PushDelivery) : Prop :=
  d.status = .pending ∨ ∃ j, HasRead c j d.id .pending ∧ MayWrite c j d.id

/-- What may be pending is well addressed, and so was everything selected. -/
structure Addressed (calls : ι → PushCall) (c : PushConfig ι) : Prop where
  staged : Staged calls c
  owned : ∀ d ∈ c.store.deliveries.rows, MayBecomePending c d → c.store.Owned d
  read : ∀ j rows, (j, .selected rows) ∈ c.trace → ∀ r ∈ rows,
    r.installation.userId = r.notification.userId

theorem addressed_begin {s : PushDb} (hs : s.deliveries.rows = []) (calls : ι → PushCall) :
    Addressed calls (begin s calls) := by
  refine ⟨staged_begin s calls, fun d hd => ?_, fun j rows hsel => ?_⟩
  · simp [begin, hs] at hd
  · simp [begin] at hsel

/-- A step that does not take the delivery's installation away keeps it owned. -/
theorem owned_advance (h : Staged calls c) {i : ι} (hvacated : SeatsVacated c i)
    {d : PushDelivery} (hd : d ∈ c.store.deliveries.rows) (hlive : MayBecomePending c d)
    (howned : c.store.Owned d) : (c.advance i).store.Owned d := by
  obtain ⟨inst, hinst, n, hn, hid, hnid, huser⟩ := howned
  have haccount := (advance_spec h i).1
  obtain ⟨inst', hinst', hid', hsame | ⟨before, after, hseat, hbefore, hne⟩⟩ :=
    haccount.installations inst hinst
  · exact ⟨inst', hinst', n, haccount.notifications n hn, hid'.trans hid, hnid,
      hsame.trans huser⟩
  · obtain ⟨hstatus, hwriters⟩ := hvacated before after hseat hne d hd (hid.symm.trans hbefore.symm)
    rcases hlive with hpending | ⟨j, hread, hmay⟩
    · exact absurd hpending hstatus
    · exact absurd hmay (hwriters j hread)

/-- What may become pending after a step and is no new reading could before. -/
theorem mayBecomePending_of_advance (h : Staged calls c) {i : ι} {d d' : PushDelivery}
    (hid : d'.id = d.id) (hd : d ∈ c.store.deliveries.rows)
    (hstatus : d'.status = .pending → MayBecomePending c d)
    (hlive : MayBecomePending (c.advance i) d') : MayBecomePending c d := by
  rcases hlive with hpending | ⟨j, hread, hmay⟩
  · exact hstatus hpending
  · have hmay' := mayWrite_of_advance hmay
    rw [hid] at hread hmay'
    rcases hasRead_advance.mp hread with hold | ⟨rfl, e, he, hnew⟩
    · exact .inr ⟨j, hold, hmay'⟩
    · obtain ⟨⟨x, hx, hxid, hxstatus⟩, -⟩ := reads_spec h he hnew
      exact .inl (c.store.delivery_unique hx hd hxid ▸ hxstatus)

theorem addressed_advance (h : Addressed calls c) {i : ι} (hvacated : SeatsVacated c i) :
    Addressed calls (c.advance i) where
  staged := staged_advance h.staged i
  owned d' hd' hlive := by
    have haccount := (advance_spec h.staged i).1
    rcases haccount.origin d' hd' with hold | ⟨x, hx, hw⟩ | ⟨-, hfresh⟩
    · have hlive' := mayBecomePending_of_advance h.staged rfl hold .inl hlive
      exact owned_advance h.staged hvacated hold hlive' (h.owned d' hold hlive')
    · obtain ⟨-, -, hid, hinst, hnotif⟩ := haccount.wrote x d' hw
      have hlive' : MayBecomePending c x := by
        refine mayBecomePending_of_advance h.staged hid hx (fun hpending => ?_) hlive
        -- Only a dispatch run writes pending, over a row it may still write.
        obtain ⟨status, hread, rfl | ⟨-, hne⟩⟩ := hasRead_of_wrote h.staged hw
        · exact .inr ⟨i, hread, Config.mayEmit_of_upcoming hw ⟨x, d', rfl, rfl⟩⟩
        · exact absurd hpending hne
      obtain ⟨inst, hi, n, hn, hiid, hnid, huser⟩ :=
        owned_advance h.staged hvacated hx hlive' (h.owned x hx hlive')
      exact ⟨inst, hi, n, hn, hiid.trans hinst.symm, hnid.trans hnotif.symm, huser⟩
    · exact haccount.owned d' hd' hfresh
  read j rows hsel r hr := by
    rcases mem_advance.mp hsel with hold | ⟨rfl, hnew⟩
    · exact h.read j rows hold r hr
    · obtain ⟨⟨env, limit, -, rfl⟩, -⟩ := selects_spec h.staged hnew
      obtain ⟨d, hd, hrow, hstatus, -⟩ := PushDb.mem_due hr
      obtain ⟨-, ⟨hinst, hiid⟩, hnotif, hnid⟩ := PushDb.deliveryRow_spec hrow
      obtain ⟨inst, hi, n, hn, hid, hnid', huser⟩ := h.owned d hd (.inl hstatus)
      have hinst' := c.store.installation_unique hinst hi (hiid.trans hid.symm)
      have hnotif' := c.store.notification_unique hnotif hn (hnid.trans hnid'.symm)
      rw [hinst', huser, ← hnotif']

theorem Addressed.pushesReachOwners (h : Addressed calls c) : PushesReachOwners c := by
  intro i batch messages hpost
  have hi := h.staged i
  rw [← Config.mem_reported] at hpost
  unfold Stage at hi
  split at hi
  · obtain ⟨hnone, -⟩ | ⟨rows, es, hevents, hes, -⟩ := hi
    · simp [hnone] at hpost
    · have hsel : (i, .selected rows) ∈ c.trace := by
        rw [← Config.mem_reported, hevents]
        exact List.mem_cons_self
      rw [hevents, List.mem_cons] at hpost
      rcases hpost with heq | hpost
      · cases heq
      · cases hes _ hpost with
        | posted unread active =>
            refine ⟨fun r hr => ⟨rows, hsel, active r hr⟩, ?_⟩
            rw [List.forall₂_map_right_iff, List.forall₂_same]
            exact fun r hr => ⟨rfl, rfl, h.read i rows hsel r (mem_of_mem_active (active r hr))⟩
  · obtain ⟨hnone, -⟩ | ⟨rows, es, hevents, hes, -⟩ := hi
    · simp [hnone] at hpost
    · rw [hevents, List.mem_cons] at hpost
      rcases hpost with heq | hpost
      · cases heq
      · cases hes _ hpost
  · obtain ⟨before, after, heq⟩ := hi.1 _ hpost
    cases heq

/-- From a store without deliveries, pushes reach the users they notify in any
interleaving in which installations change hands only when vacated. -/
theorem pushesReachOwners_of_vacated {s : PushDb} (hs : s.deliveries.rows = [])
    (calls : ι → PushCall) (schedule : List ι)
    (heeds : Config.Heeds SeatsVacated (begin s calls) schedule) :
    PushesReachOwners ((begin s calls).run schedule) :=
  (Config.invariant_of_heeds (I := Addressed calls) (fun _ _ h => addressed_advance h)
    (addressed_begin hs calls) heeds).pushesReachOwners

/-! ## Checking a schedule -/

def PushEvent.reowned : PushEvent → List Id
  | .seated before after => if before.userId = after.userId then [] else [before.id]
  | _ => []

/-- No installation changes hands now, or those that do have no pending delivery
and no other call is in the middle of its work. -/
def SeatsSettled (c : PushConfig ι) (i : ι) : Prop :=
  ∀ e ∈ c.upcoming i, ∀ id ∈ e.reowned,
    (∀ d ∈ c.store.deliveries.rows, d.installationId = id → d.status ≠ .pending) ∧
      ∀ j, (c.calls j).ended ∨ ∀ e ∈ c.reported j, e.reads = []

instance [Fintype ι] (c : PushConfig ι) (i : ι) : Decidable (SeatsSettled c i) := by
  unfold SeatsSettled
  infer_instance

theorem SeatsSettled.vacated {i : ι} (h : SeatsSettled c i) : SeatsVacated c i := by
  intro before after hseat hne d hd hinst
  have hid : before.id ∈ (PushEvent.seated before after).reowned := by
    simp [PushEvent.reowned, hne]
  obtain ⟨hstatus, hover⟩ := h _ hseat before.id hid
  refine ⟨hstatus d hd hinst, ?_⟩
  rintro j ⟨e, he, hread⟩ hmay
  rcases hover j with hended | hnone
  · exact not_mayEmit_of_ended hended hmay
  · simp [hnone e (Config.mem_reported.mpr he)] at hread

/-! ## A phone that changes hands -/

/-- Two users, the first of whom has a phone. -/
def onePhone : PushDb where
  users := ⟨[{ id := "u1", username := "ana", displayName := "Ana" },
    { id := "u2", username := "beto", displayName := "Beto" }], by simp [conflicts]⟩
  settings := .empty
  notifications := .empty
  installations := .singleton aPhone
  deliveries := .empty
  delivery_notification := PushDb.no_notification
  delivery_installation := by simp

def publishTo (userId : Id) : PushCall :=
  .publish { recipientIds := [userId], type := .weeklyDigest }
    { now := 0, notificationId := fun _ => "n1", deliveryId := fun _ _ => "d1" }

def registerPhone (userId : Id) : PushCall :=
  .registerMyPushInstallation { now := 5, id := "i2" } userId
    { token := "tok", installationId := "phone", platform := .ios, timezone := "UTC" }

/-- Publish to the first user, register the phone for `userId`, dispatch. -/
def phoneCalls (userId : Id) : Fin 3 → PushCall
  | 0 => publishTo "u1"
  | 1 => registerPhone userId
  | 2 => .dispatchPending (answering (.ok "ticket")) 100

/-- Owner of the installation and notified user, for every row call `i` posted. -/
def addressees (c : PushConfig ι) (i : ι) : List (Id × Id) :=
  (c.reported i).flatMap fun
    | .posted batch _ => batch.map fun r => (r.installation.userId, r.notification.userId)
    | _ => []

theorem PushesReachOwners.addressees (h : PushesReachOwners c) (i : ι) :
    ∀ p ∈ addressees c i, p.1 = p.2 := by
  intro p hp
  obtain ⟨e, he, hmem⟩ := List.mem_flatMap.mp hp
  cases e with
  | posted batch messages =>
      obtain ⟨r, hr, rfl⟩ := List.mem_map.mp hmem
      have hall := (h i batch messages (Config.mem_reported.mp he)).2
      obtain ⟨k, hk, rfl⟩ := List.getElem_of_mem hr
      have hlen := hall.length_eq
      exact (hall.get hk (hlen ▸ hk)).2.2
  | selected rows => simp at hmem
  | polled rows => simp at hmem
  | asked ids => simp at hmem
  | wrote before after => simp at hmem
  | seated before after => simp at hmem

/-- A second user who registers the phone receives the first user's push. -/
theorem reowned_phone_receives_push :
    ¬ PushesReachOwners ((begin onePhone (phoneCalls "u2")).run [0, 1, 2, 2, 2, 2]) := by
  intro h
  have hpair : ("u2", "u1") ∈
      addressees ((begin onePhone (phoneCalls "u2")).run [0, 1, 2, 2, 2, 2]) 2 := by decide
  exact absurd (h.addressees 2 _ hpair) (by decide)

/-- Once the push is out, the phone may change hands. -/
theorem vacated_phone_changes_hands :
    PushesReachOwners ((begin onePhone (phoneCalls "u2")).run [0, 2, 2, 2, 2, 1]) := by
  have hsettled : Config.Heeds SeatsSettled (begin onePhone (phoneCalls "u2"))
      [0, 2, 2, 2, 2, 1] := by decide
  exact pushesReachOwners_of_vacated rfl _ _ (hsettled.mono fun _ _ => SeatsSettled.vacated)

end Feca.Push
