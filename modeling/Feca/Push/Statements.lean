import Feca.Push.Presentation

/-! # Statements of the push jobs

Each database statement of the push jobs, with the events it reports and, where
a run can meet one, its failure. What a statement does to the tables is told by
its events: that is the law every job obeys at every step.
-/

namespace Feca.Push

open Concurrency Concurrency.Prog Relational

/-- One message of the Expo send endpoint. -/
structure ExpoMessage where
  badge : Option Nat
  body : String
  channelId : String
  deepLink : Option String
  notificationId : Id
  type : NotificationType
  priority : String
  sound : String
  title : String
  «to» : String

inductive PushEvent
  | selected (rows : List DeliveryRow)
  | polled (rows : List PushDelivery)
  | posted (batch : List DeliveryRow) (messages : List ExpoMessage)
  | asked (ids : List String)
  | wrote (before after : PushDelivery)
  | seated (before after : PushInstallation)

abbrev PushProg := Prog PushDb PushEvent Thrown

abbrev PushAnswer := Answer PushDb PushEvent Thrown

/-- A database statement that throws `fails`, changing nothing, or runs. -/
def statement {α : Type} (fails : Option Thrown) (run : PushDb → PushAnswer α) : PushProg α :=
  stmt fun s =>
    match fails with
    | some e => ⟨s, [], .error e⟩
    | none => run s

/-- `pushDelivery.updateMany`: how many rows matched. -/
def updateDeliveries (fails : Option Thrown) (p : PushDelivery → Bool) (data : DeliveryData) :
    PushProg Nat :=
  statement fails fun s =>
    ⟨s.setDeliveries p data, (s.deliveries.rows.filter p).map fun d => .wrote d (d.set data),
      .ok (s.deliveries.rows.filter p).length⟩

/-- `pushDelivery.update`: rows are never deleted, so one read earlier is there. -/
def updateDelivery (fails : Option Thrown) (id : Id) (data : DeliveryData) : PushProg Unit :=
  (fun _ => ()) <$> updateDeliveries fails (·.id == id) data

def disableInstallation (fails : Option Thrown) (installationId : Id) (date : Date) :
    PushProg Unit :=
  statement fails fun s =>
    ⟨s.setInstallations (fun i => i.disabledAt == none && i.id == installationId)
      (fun i => { i with disabledAt := some date }), [], .ok ()⟩

/-! ## Expo -/

/-- What `fetch` and `response.json()` come back with. -/
inductive HttpReply (β : Type)
  | threw (error : Thrown)
  | answered (status : Nat) (body : Except Thrown β)

/-- The part of `postExpo` after the request left. -/
def readReply {β : Type} : HttpReply β → Except Thrown β
  | .threw error => .error error
  | .answered status body =>
      if 200 ≤ status ∧ status ≤ 299 then body
      else .error (.error s!"Expo API responded {status}")

/-- `postExpo`, seen by the event it leaves. -/
def postExpo {β : Type} (event : PushEvent) (reply : HttpReply β) : PushProg β :=
  stmt fun s => ⟨s, [event], readReply reply⟩

def buildExpoErrorMessage (message code : Option String) : String :=
  match message.bind orNull, code.bind orNull with
  | some message, some code => s!"{code}: {message}"
  | _, _ => (code.orElse fun _ => message).getD "Unknown Expo push error"

def isPermanentExpoError (errorCode : Option String) : Bool :=
  errorCode == some "DeviceNotRegistered" || errorCode == some "MessageTooBig"

def shouldDisableInstallation (errorCode : Option String) : Bool :=
  errorCode == some "DeviceNotRegistered"

/-- `items.slice(index, index + size)` for every `index` that is a multiple of
`size`. -/
def chunk {α : Type} (items : List α) (size : Nat) : List (List α) :=
  (List.range ((items.length + size - 1) / size)).map fun k => (items.drop (k * size)).take size

theorem mem_of_mem_chunk {α : Type} {items batch : List α} {size : Nat} {x : α}
    (hb : batch ∈ chunk items size) (hx : x ∈ batch) : x ∈ items := by
  obtain ⟨k, -, rfl⟩ := List.mem_map.mp hb
  exact List.mem_of_mem_drop (List.mem_of_mem_take hx)

/-- The chunks of a list without repetitions share nothing. -/
theorem chunk_pairwise_disjoint {α : Type} {items : List α} (h : items.Nodup) (size : Nat) :
    (chunk items size).Pairwise List.Disjoint := by
  unfold chunk
  rw [List.pairwise_map]
  refine List.pairwise_lt_range.imp fun {k l} hkl => ?_
  intro x hx hy
  have hsplit : (items.take (k * size + size) ++ items.drop (k * size + size)).Nodup := by
    rwa [List.take_append_drop]
  have hdisj := (List.nodup_append.mp hsplit).2.2
  have hleft : x ∈ items.take (k * size + size) := by
    rw [List.take_add]
    exact List.mem_append_right _ hx
  have hright : x ∈ items.drop (k * size + size) := by
    have hle : k * size + size ≤ l * size := by
      calc k * size + size = (k + 1) * size := by rw [Nat.add_mul, Nat.one_mul]
        _ ≤ l * size := Nat.mul_le_mul_right size hkl
    have hy' := List.mem_of_mem_take hy
    rw [show l * size = (k * size + size) + (l * size - (k * size + size)) by omega,
      ← List.drop_drop] at hy'
    exact List.mem_of_mem_drop hy'
  exact hdisj x hleft x hright rfl

theorem nodup_of_mem_chunk {α : Type} {items batch : List α} (h : items.Nodup) {size : Nat}
    (hb : batch ∈ chunk items size) : batch.Nodup := by
  obtain ⟨k, -, rfl⟩ := List.mem_map.mp hb
  exact (h.sublist (List.drop_sublist _ _)).sublist (List.take_sublist _ _)

theorem length_le_of_mem_chunk {α : Type} {items batch : List α} {size : Nat}
    (hb : batch ∈ chunk items size) : batch.length ≤ size := by
  obtain ⟨k, -, rfl⟩ := List.mem_map.mp hb
  exact List.length_take_le _ _

/-- The chunks of a list are the list. -/
theorem flatten_chunk {α : Type} (items : List α) {size : Nat} (hsize : 0 < size) :
    (chunk items size).flatten = items := by
  have htaken : ∀ n : Nat, ((List.range n).map fun k =>
      (items.drop (k * size)).take size).flatten = items.take (n * size) := by
    intro n
    induction n with
    | zero => simp
    | succ n ih =>
        rw [List.range_succ, List.map_append, List.flatten_append, ih, Nat.succ_mul, List.take_add]
        simp
  have henough : items.length ≤ (items.length + size - 1) / size * size := by
    have hdiv := Nat.div_add_mod (items.length + size - 1) size
    have hmod := Nat.mod_lt (items.length + size - 1) hsize
    rw [Nat.mul_comm] at hdiv
    omega
  unfold chunk
  rw [htaken, List.take_of_length_le henough]

/-! ## The law of every statement -/

/-- The installation of a delivery belongs to the user its notification is for. -/
def PushDb.Owned (s : PushDb) (d : PushDelivery) : Prop :=
  ∃ i ∈ s.installations.rows, ∃ n ∈ s.notifications.rows,
    i.id = d.installationId ∧ n.id = d.notificationId ∧ i.userId = n.userId

/-- What a statement did, as its events tell it: a delivery changes only in a
reported write, a new one is reported and belongs to the installation's owner,
notifications stay, and an installation changes hands only in a reported seat. -/
structure Accounted (s t : PushDb) (es : List PushEvent) : Prop where
  kept : ∀ d ∈ s.deliveries.rows, ∃ d' ∈ t.deliveries.rows, d'.id = d.id
  origin : ∀ d' ∈ t.deliveries.rows, d' ∈ s.deliveries.rows ∨
    (∃ d ∈ s.deliveries.rows, .wrote d d' ∈ es) ∨
    (d'.status = .pending ∧ ∀ d ∈ s.deliveries.rows, d.id ≠ d'.id)
  wrote : ∀ d d', .wrote d d' ∈ es → d ∈ s.deliveries.rows ∧ d' ∈ t.deliveries.rows ∧
    d'.id = d.id ∧ d'.installationId = d.installationId ∧ d'.notificationId = d.notificationId
  notifications : ∀ n ∈ s.notifications.rows, n ∈ t.notifications.rows
  installations : ∀ i ∈ s.installations.rows, ∃ i' ∈ t.installations.rows, i'.id = i.id ∧
    (i'.userId = i.userId ∨ ∃ before after, .seated before after ∈ es ∧ before.id = i.id ∧
      before.userId ≠ after.userId)
  owned : ∀ d' ∈ t.deliveries.rows, (∀ d ∈ s.deliveries.rows, d.id ≠ d'.id) → t.Owned d'

/-- A statement that only seats installations. -/
theorem Accounted.of_installations {s t : PushDb} {es : List PushEvent}
    (hd : t.deliveries = s.deliveries) (hn : t.notifications = s.notifications)
    (hwrote : ∀ d d', .wrote d d' ∉ es)
    (hi : ∀ i ∈ s.installations.rows, ∃ i' ∈ t.installations.rows, i'.id = i.id ∧
      (i'.userId = i.userId ∨ ∃ before after, .seated before after ∈ es ∧ before.id = i.id ∧
        before.userId ≠ after.userId)) : Accounted s t es where
  kept d h := ⟨d, hd ▸ h, rfl⟩
  origin _ h := .inl (hd ▸ h)
  wrote d d' h := absurd h (hwrote d d')
  notifications _ h := hn ▸ h
  installations := hi
  owned _ h hnew := absurd rfl (hnew _ (hd ▸ h))

theorem Accounted.refl (s : PushDb) {es : List PushEvent} (h : ∀ d d', .wrote d d' ∉ es) :
    Accounted s s es :=
  .of_installations rfl rfl h fun i hi => ⟨i, hi, rfl, .inl rfl⟩

theorem accounted_setDeliveries (s : PushDb) (p : PushDelivery → Bool) (data : DeliveryData) :
    Accounted s (s.setDeliveries p data)
      ((s.deliveries.rows.filter p).map fun d => .wrote d (d.set data)) where
  kept d h := by
    refine ⟨if p d then d.set data else d, List.mem_map_of_mem h, ?_⟩
    split <;> rfl
  origin d' h := by
    obtain ⟨d, hd, rfl⟩ := List.mem_map.mp h
    by_cases hp : p d
    · rw [if_pos hp]
      exact .inr (.inl ⟨d, hd, List.mem_map_of_mem (List.mem_filter.mpr ⟨hd, hp⟩)⟩)
    · rw [if_neg hp]
      exact .inl hd
  wrote d d' h := by
    obtain ⟨x, hx, heq⟩ := List.mem_map.mp h
    cases heq
    obtain ⟨hmem, hp⟩ := List.mem_filter.mp hx
    refine ⟨hmem, ?_, rfl, rfl, rfl⟩
    exact List.mem_map.mpr ⟨d, hmem, if_pos hp⟩
  notifications n h := h
  installations i h := ⟨i, h, rfl, .inl rfl⟩
  owned _ h hnew := by
    obtain ⟨d, hd, rfl⟩ := List.mem_map.mp h
    refine absurd ?_ (hnew d hd)
    split <;> rfl

theorem always_statement {α : Type} {P : PushDb → PushDb → List PushEvent → Prop}
    {fails : Option Thrown} {run : PushDb → PushAnswer α} (hfails : ∀ s, P s s [])
    (h : ∀ s, P s (run s).store (run s).events) : (statement fails run).Always P := by
  refine always_stmt fun s => ?_
  cases fails with
  | none => exact h s
  | some e => exact hfails s

/-- Which events an update of deliveries can report. -/
theorem emits_updateDeliveries {E : PushEvent → Prop} {fails : Option Thrown}
    {p : PushDelivery → Bool} {data : DeliveryData}
    (h : ∀ d, p d → E (.wrote d (d.set data))) : (updateDeliveries fails p data).Emits E := by
  refine always_statement (by simp) fun s e he => ?_
  obtain ⟨d, hd, rfl⟩ := List.mem_map.mp he
  exact h d (List.mem_filter.mp hd).2

theorem emits_updateDelivery {E : PushEvent → Prop} {fails : Option Thrown} {id : Id}
    {data : DeliveryData} (h : ∀ d : PushDelivery, d.id = id → E (.wrote d (d.set data))) :
    (updateDelivery fails id data).Emits E :=
  always_map _ (emits_updateDeliveries fun d hd => h d (by simpa using hd))

theorem emits_disableInstallation {E : PushEvent → Prop} (fails : Option Thrown)
    (installationId : Id) (date : Date) :
    (disableInstallation fails installationId date).Emits E :=
  always_statement (by simp) (by simp)

theorem emits_postExpo {E : PushEvent → Prop} {β : Type} {event : PushEvent}
    {reply : HttpReply β} (h : E event) : (postExpo event reply).Emits E :=
  always_stmt fun _ _ he => List.mem_singleton.mp he ▸ h

theorem accounted_updateDeliveries (fails : Option Thrown) (p : PushDelivery → Bool)
    (data : DeliveryData) : (updateDeliveries fails p data).Always Accounted :=
  always_statement (fun s => .refl s (by simp)) fun s => accounted_setDeliveries s p data

theorem accounted_updateDelivery (fails : Option Thrown) (id : Id) (data : DeliveryData) :
    (updateDelivery fails id data).Always Accounted :=
  always_map _ (accounted_updateDeliveries fails _ data)

theorem accounted_disableInstallation (fails : Option Thrown) (installationId : Id) (date : Date) :
    (disableInstallation fails installationId date).Always Accounted := by
  refine always_statement (fun s => .refl s (by simp)) fun s => ?_
  refine .of_installations rfl rfl (by simp) fun i hi => ?_
  refine ⟨_, List.mem_map_of_mem hi, ?_⟩
  split
  · exact ⟨rfl, .inl rfl⟩
  · exact ⟨rfl, .inl rfl⟩

theorem accounted_postExpo {β : Type} {event : PushEvent} {reply : HttpReply β}
    (h : ∀ d d', event ≠ .wrote d d') : (postExpo event reply).Always Accounted :=
  always_stmt fun s => .refl s fun d d' hmem => h d d' (List.mem_singleton.mp hmem).symm

end Feca.Push
