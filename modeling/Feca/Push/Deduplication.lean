import Feca.Push.OpenTransactions

/-! # Publishing once

Calls with one dedupe key publish side by side. As long as no call with several
recipients comes upon a row that another one has inserted since it looked, every
call ends well and every recipient has the notification once. When one does, the
conflict is caught, but the transaction has failed: the recipients before it lose
their notification, and the first one after it fails the call.
-/

namespace Feca.Push

open Concurrency Concurrency.Prog Relational

namespace PushDb

variable {s t : PushDb} {n : Notification}

def hasUser (s : PushDb) (id : Id) : Bool := s.users.rows.any (·.id == id)

theorem insertNotification_free (h : s.insertNotification n = .ok t) :
    t.users = s.users ∧ ∀ m ∈ s.notifications.rows, conflicts m n = false := by
  unfold insertNotification at h
  split at h
  · split at h
    · cases h
    · rename_i notifications hinsert
      cases h
      exact ⟨rfl, (Table.insert_eq_some hinsert).2⟩
  · cases h

theorem insertNotification_settings (h : s.insertNotification n = .ok t) :
    t.settings = s.settings := by
  unfold insertNotification at h
  split at h
  · split at h
    · cases h
    · cases h
      rfl
  · cases h

/-- Between people who exist, only the unique index refuses a notification. -/
theorem insertNotification_known (huser : s.hasUser n.userId = true)
    (hactor : ∀ a ∈ n.actorId, s.hasUser a = true) :
    (∃ t, s.insertNotification n = .ok t) ∨ s.insertNotification n = .error uniqueViolation ∧
      ∃ m ∈ s.notifications.rows, conflicts m n = true := by
  have hknown : (s.users.rows.any (·.id == n.userId) &&
      n.actorId.all fun a => s.users.rows.any (·.id == a)) = true := by
    rw [Bool.and_eq_true]
    refine ⟨huser, ?_⟩
    cases ha : n.actorId with
    | none => rfl
    | some a => exact hactor a ha
  unfold insertNotification
  rw [if_pos hknown]
  split
  · rename_i hinsert
    exact .inr ⟨rfl, Table.insert_eq_none hinsert⟩
  · exact .inl ⟨_, rfl⟩

theorem insertDeliveries_users {ds : List PushDelivery} (h : s.insertDeliveries ds = .ok t) :
    t.users = s.users := by
  unfold insertDeliveries at h
  split at h
  · cases h
    rfl
  · cases h

theorem insertDeliveries_settings {ds : List PushDelivery} (h : s.insertDeliveries ds = .ok t) :
    t.settings = s.settings := by
  unfold insertDeliveries at h
  split at h
  · cases h
    rfl
  · cases h

theorem insertDeliveries_rows {ds : List PushDelivery} (h : s.insertDeliveries ds = .ok t) :
    t.deliveries = s.deliveries.insertSkipping ds := by
  unfold insertDeliveries at h
  split at h
  · cases h
    rfl
  · cases h

theorem insertDeliveries_of_owned {ds : List PushDelivery} (h : ∀ d ∈ ds, s.Owned d) :
    ∃ t, s.insertDeliveries ds = .ok t := by
  have hknown : ∀ d ∈ ds, (∃ n ∈ s.notifications.rows, n.id = d.notificationId) ∧
      ∃ i ∈ s.installations.rows, i.id = d.installationId := by
    intro d hd
    obtain ⟨i, hi, n, hn, hiid, hnid, -⟩ := h d hd
    exact ⟨⟨n, hn, hnid⟩, i, hi, hiid⟩
  unfold insertDeliveries
  rw [dif_pos hknown]
  exact ⟨_, rfl⟩

end PushDb

variable {ι : Type} {i : ι} {s t u : SharedDb ι}

/-! ## What the others leave alone -/

/-- What the others leave to `j`: the people, the phones, what is committed, and
what `j` has inserted. -/
structure Leaves (j : ι) (s t : SharedDb ι) : Prop where
  users : t.db.users = s.db.users
  installations : t.db.installations = s.db.installations
  aborted : t.aborted j = s.aborted j
  kept : ∀ n ∈ s.db.notifications.rows, s.writer n.id = none ∨ s.writer n.id = some j →
    n ∈ t.db.notifications.rows ∧ t.writer n.id = s.writer n.id

theorem Leaves.refl (j : ι) (s : SharedDb ι) : Leaves j s s :=
  ⟨rfl, rfl, rfl, fun _ hn _ => ⟨hn, rfl⟩⟩

theorem Leaves.trans {j : ι} (hst : Leaves j s t) (htu : Leaves j t u) : Leaves j s u := by
  refine ⟨htu.users.trans hst.users, htu.installations.trans hst.installations,
    htu.aborted.trans hst.aborted, fun n hn hwriter => ?_⟩
  have hkept := hst.kept n hn hwriter
  have hkept' := htu.kept n hkept.1 (by rwa [hkept.2])
  exact ⟨hkept'.1, hkept'.2.trans hkept.2⟩

/-- No row stands in the way of the notification; or it is for the only
recipient of the call, who has a committed one already. -/
def Unhindered (input : PublishNotificationInput) (s : SharedDb ι) (n : Notification) : Prop :=
  (∀ m ∈ s.db.notifications.rows, conflicts m n = false) ∨
    input.recipients.length = 1 ∧
      (∀ m ∈ s.db.notifications.rows, conflicts m n = true → s.writer m.id = none) ∧
      ∃ m ∈ s.db.notifications.rows, m.userId = n.userId ∧ m.dedupeKey = n.dedupeKey

def publishDuty (input : PublishNotificationInput) (i : ι) : Duty (SharedDb ι) Notification where
  rely := Leaves i
  guar s t := ∀ j, j ≠ i → Leaves j s t
  permits s es := ∀ n ∈ es, Unhindered input s n
  refl := Leaves.refl i
  trans := Leaves.trans

theorem createDeliveries_ok {ds : List PushDelivery} {count : Nat}
    (h : s.createDeliveries ds = .ok (count, t)) (j : ι) : Leaves j s t := by
  unfold SharedDb.createDeliveries at h
  cases hinsert : s.db.insertDeliveries ds with
  | error e =>
      rw [hinsert] at h
      cases h
  | ok db =>
      rw [hinsert] at h
      cases h
      have hrows := PushDb.insertDeliveries_ok hinsert
      refine ⟨PushDb.insertDeliveries_users hinsert, hrows.1, rfl, fun n hn _ => ⟨?_, rfl⟩⟩
      show n ∈ db.notifications.rows
      rw [hrows.2.1]
      exact hn

/-! ## Recipients -/

/-- The user has the notification, once the transaction of `i` is committed. -/
def Reached (i : ι) (key : String) (s : SharedDb ι) (userId : Id) : Prop :=
  ∃ n ∈ s.db.notifications.rows, n.userId = userId ∧ n.dedupeKey = some key ∧
    (s.writer n.id = none ∨ s.writer n.id = some i)

/-- The user has the notification. -/
def Notified (key : String) (s : SharedDb ι) (userId : Id) : Prop :=
  ∃ n ∈ s.db.notifications.rows, n.userId = userId ∧ n.dedupeKey = some key ∧
    s.writer n.id = none

theorem Reached.later {key : String} {userId : Id} (h : Reached i key s userId)
    (hst : Leaves i s t) : Reached i key t userId := by
  obtain ⟨n, hn, huser, hkey, hwriter⟩ := h
  have hkept := hst.kept n hn hwriter
  exact ⟨n, hkept.1, huser, hkey, by rwa [hkept.2]⟩

theorem Notified.later {key : String} {userId : Id} {j : ι} (h : Notified key s userId)
    (hst : Leaves j s t) : Notified key t userId := by
  obtain ⟨n, hn, huser, hkey, hwriter⟩ := h
  have hkept := hst.kept n hn (.inl hwriter)
  exact ⟨n, hkept.1, huser, hkey, hkept.2.trans hwriter⟩

/-- What the body of a transaction leaves to its end: either all is well and to
be committed, or everybody has the notification already. -/
def BodyEnds (input : PublishNotificationInput) (i : ι) (key : String) (s : SharedDb ι) : Prop :=
  (s.aborted i = false ∧
    ∀ id ∈ input.recipients, s.db.hasUser id = true → Reached i key s id) ∨
      ∀ id ∈ input.recipients, s.db.hasUser id = true → Notified key s id

theorem Leaves.hasUser {j : ι} (hst : Leaves j s t) (id : Id) :
    t.db.hasUser id = s.db.hasUser id := by
  unfold PushDb.hasUser
  rw [hst.users]

theorem BodyEnds.later {input : PublishNotificationInput} {key : String}
    (h : BodyEnds input i key s) (hst : Leaves i s t) : BodyEnds input i key t := by
  rcases h with ⟨hopen, hreached⟩ | hnotified
  · refine .inl ⟨hst.aborted.trans hopen, fun id hid huser => ?_⟩
    rw [hst.hasUser] at huser
    exact (hreached id hid huser).later hst
  · refine .inr fun id hid huser => ?_
    rw [hst.hasUser] at huser
    exact (hnotified id hid huser).later hst

section between

variable {input : PublishNotificationInput} {key : String} {recipients : List Recipient}

/-- What is known between two recipients: the transaction is sound, and whoever
is not among those to come has been reached. -/
structure Between (input : PublishNotificationInput) (i : ι) (key : String)
    (recipients : List Recipient) (ids : List Id) (s : SharedDb ι) : Prop where
  sound : s.aborted i = false
  actor : ∀ a ∈ input.actorId, s.db.hasUser a = true
  read : ∀ r ∈ recipients, r.Read s.db ∧ s.db.hasUser r.id = true
  found : ∀ id ∈ ids, s.db.hasUser id = true → (recipients.find? (·.id == id)).isSome
  named : ids ⊆ input.recipients
  few : ids.length ≤ input.recipients.length
  reached : ∀ id ∈ input.recipients, s.db.hasUser id = true → id ∈ ids ∨ Reached i key s id

theorem Between.later {recipients : List Recipient} {ids : List Id}
    (h : Between input i key recipients ids s) (hst : Leaves i s t) :
    Between input i key recipients ids t where
  sound := hst.aborted.trans h.sound
  actor a ha := by
    rw [hst.hasUser]
    exact h.actor a ha
  read r hr := by
    refine ⟨fun x hx => ?_, ?_⟩
    · rw [hst.installations]
      exact (h.read r hr).1 x hx
    · rw [hst.hasUser]
      exact (h.read r hr).2
  found id hid huser := h.found id hid (by rwa [hst.hasUser] at huser)
  named := h.named
  few := h.few
  reached id hid huser := by
    rw [hst.hasUser] at huser
    rcases h.reached id hid huser with hleft | hreached
    · exact .inl hleft
    · exact .inr (hreached.later hst)

/-- The first of those to come has been reached, or does not exist. -/
theorem Between.next {recipients : List Recipient} {id : Id} {rest : List Id}
    (h : Between input i key recipients (id :: rest) s)
    (hid : s.db.hasUser id = true → Reached i key s id) :
    Between input i key recipients rest s where
  sound := h.sound
  actor := h.actor
  read := h.read
  found id' hid' := h.found id' (List.mem_cons_of_mem _ hid')
  named := fun _ hid' => h.named (List.mem_cons_of_mem _ hid')
  few := by
    have hfew := h.few
    rw [List.length_cons] at hfew
    omega
  reached id' hid' huser := by
    rcases h.reached id' hid' huser with hleft | hreached
    · rcases List.mem_cons.mp hleft with rfl | hleft
      · exact .inr (hid huser)
      · exact .inl hleft
    · exact .inr hreached

end between

/-! ## What the statements of a transaction do -/

variable [DecidableEq ι]

theorem leaves_fail (s : SharedDb ι) {j : ι} (hj : j ≠ i) : Leaves j s (s.fail i) :=
  ⟨rfl, rfl, Function.update_of_ne hj _ _, fun _ hn _ => ⟨hn, rfl⟩⟩

/-- A created notification is stored, and belongs to its transaction. -/
theorem createNotification_ok {n : Notification} (h : s.createNotification i n = .ok ((), t)) :
    (∀ j, Leaves j s t) ∧ n ∈ t.db.notifications.rows ∧ t.writer n.id = some i := by
  unfold SharedDb.createNotification at h
  split at h
  · cases h
  · cases hinsert : s.db.insertNotification n with
    | error e =>
        rw [hinsert] at h
        cases h
    | ok db =>
        rw [hinsert] at h
        cases h
        have hrows := PushDb.insertNotification_ok hinsert
        have hfree := PushDb.insertNotification_free hinsert
        refine ⟨fun j => ⟨hfree.1, hrows.1, rfl, fun m hm _ => ⟨?_, ?_⟩⟩, ?_, ?_⟩
        · show m ∈ db.notifications.rows
          rw [hrows.2.2]
          exact List.mem_append_left _ hm
        · have hid : m.id ≠ n.id := by
            intro heq
            have hclash := hfree.2 m hm
            simp [conflicts, heq] at hclash
          exact Function.update_of_ne hid _ _
        · show n ∈ db.notifications.rows
          rw [hrows.2.2]
          exact List.mem_append_right _ List.mem_cons_self
        · exact Function.update_self _ _ _

theorem leaves_close {db : PushDb} {j : ι} (hj : j ≠ i) (husers : db.users = s.db.users)
    (hinstallations : db.installations = s.db.installations)
    (hkept : ∀ n ∈ s.db.notifications.rows, s.writer n.id ≠ some i → n ∈ db.notifications.rows) :
    Leaves j s (s.close i db) := by
  refine ⟨husers, hinstallations, Function.update_of_ne hj _ _, fun n hn hwriter => ?_⟩
  have hother : s.writer n.id ≠ some i := by
    rcases hwriter with hnone | hsome
    · rw [hnone]
      exact nofun
    · rw [hsome]
      intro heq
      exact hj (Option.some.inj heq)
  exact ⟨hkept n hn hother, if_neg hother⟩

theorem leaves_commit (s : SharedDb ι) {j : ι} (hj : j ≠ i) : Leaves j s (s.commit i) :=
  leaves_close hj rfl rfl fun _ hn _ => hn

theorem leaves_rollback (s : SharedDb ι) {j : ι} (hj : j ≠ i) : Leaves j s (s.rollback i) := by
  refine leaves_close hj ?_ ?_ fun n hn hother => ?_
  · rfl
  · rfl
  · apply PushDb.mem_eraseNotifications.mpr
    exact ⟨hn, beq_eq_false_iff_ne.mpr hother⟩

/-! ## The body -/

/-- However a transaction ends, it leaves the rows of the others. -/
theorem leaves_end (s : SharedDb ι) {j : ι} (hj : j ≠ i) :
    Leaves j s (if s.aborted i then s.rollback i else s.commit i) := by
  split
  · exact leaves_rollback s hj
  · exact leaves_commit s hj

section body

variable {input : PublishNotificationInput} {env : PublishEnv} {key : String}

/-- A statement of a transaction in which none has failed. -/
theorem abides_statementOf {α : Type} {creates : List Notification}
    {run : SharedDb ι → Except Thrown (α × SharedDb ι)}
    {Q : Except Thrown α → SharedDb ι → Prop} (hopen : s.aborted i = false)
    (hok : ∀ t a u, Leaves i s t → (∀ n ∈ creates, Unhindered input t n) →
      run t = .ok (a, u) → (∀ j, j ≠ i → Leaves j t u) ∧ Q (.ok a) u)
    (herror : ∀ t e, Leaves i s t → (∀ n ∈ creates, Unhindered input t n) →
      run t = .error e → Q (.error e) (t.fail i)) :
    (statementOf i creates run).Abides (publishDuty input i) Q s := by
  apply abides_stmt
  intro t hst hpermits
  have hopen' : ¬ t.aborted i = true := by
    rw [hst.aborted, hopen]
    exact Bool.noConfusion
  rw [if_neg hopen'] at hpermits ⊢
  cases hrun : run t with
  | ok r =>
      rw [hrun] at hpermits
      exact hok t r.1 r.2 hst hpermits hrun
  | error e =>
      rw [hrun] at hpermits
      exact ⟨fun j hj => leaves_fail t hj, herror t e hst hpermits hrun⟩

/-- What a statement reads are committed rows and those of its transaction. -/
theorem abides_reading {α : Type} (read : PushDb → α) {Q : Except Thrown α → SharedDb ι → Prop}
    (hopen : s.aborted i = false) (h : ∀ t, Leaves i s t → Q (.ok (read (t.seenBy i))) t) :
    (statementOf i [] fun s => .ok (read (s.seenBy i), s)).Abides (publishDuty input i) Q s := by
  refine abides_statementOf hopen (fun t a u hst _ hrun => ?_) fun t e _ _ hrun => ?_
  · cases hrun
    exact ⟨fun j _ => Leaves.refl j t, h t hst⟩
  · cases hrun

omit [DecidableEq ι] in
/-- Someone who is the only recipient is all of them. -/
theorem eq_of_single {ids : List Id} {a b : Id} (h : ids.length = 1) (ha : a ∈ ids) (hb : b ∈ ids) :
    a = b := by
  obtain ⟨c, rfl⟩ := List.length_eq_one_iff.mp h
  rw [List.mem_singleton.mp ha, List.mem_singleton.mp hb]

/-- An unhindered insertion is refused to a call with one recipient only, who
has the notification already. -/
theorem createNotification_error {n : Notification} {e : Thrown}
    (hunhindered : Unhindered input s n) (huser : s.db.hasUser n.userId = true)
    (hactor : ∀ a ∈ n.actorId, s.db.hasUser a = true) (hkey : n.dedupeKey = some key)
    (h : s.createNotification i n = .error e) :
    input.recipients.length = 1 ∧ e = uniqueViolation ∧ Notified key s n.userId := by
  have hknown := PushDb.insertNotification_known huser hactor
  unfold SharedDb.createNotification at h
  rcases hunhindered with hfree | ⟨hone, hcommitted, m, hm, hmuser, hmkey⟩
  · have hblocks : ¬ s.blocks i n = true := by
      intro hblocks
      obtain ⟨m, hm, hclash⟩ := List.any_eq_true.mp hblocks
      rw [hfree m hm, Bool.false_and] at hclash
      cases hclash
    rw [if_neg hblocks] at h
    rcases hknown with ⟨db, hinsert⟩ | ⟨-, m, hm, hclash⟩
    · rw [hinsert] at h
      cases h
    · rw [hfree m hm] at hclash
      cases hclash
  · have hblocks : ¬ s.blocks i n = true := by
      intro hblocks
      obtain ⟨m, hm, hclash⟩ := List.any_eq_true.mp hblocks
      rw [Bool.and_eq_true] at hclash
      rw [hcommitted m hm hclash.1] at hclash
      exact absurd hclash.2 Bool.noConfusion
    have hsame : conflicts m n = true := by
      simp [conflicts, hmuser, hmkey, hkey]
    rw [if_neg hblocks] at h
    refine ⟨hone, ?_, m, hm, hmuser, hmkey.trans hkey, hcommitted m hm hsame⟩
    rcases hknown with ⟨db, hinsert⟩ | ⟨hrefused, -⟩
    · have hfree := (PushDb.insertNotification_free hinsert).2 m hm
      rw [hsame] at hfree
      cases hfree
    · rw [hrefused] at h
      cases h
      rfl

theorem abides_publishEach (hkey : key ≠ "") (hdedupe : input.dedupeKey = some key)
    {recipients : List Recipient} (index : Nat) (ids : List Id) (result : PublishResult)
    (h : Between input i key recipients ids s) :
    ((statementsOf i).publishEach input env recipients index ids result).Abides
      (publishDuty input i) (fun r t => (∃ a, r = .ok a) ∧ BodyEnds input i key t) s := by
  induction ids generalizing s index result with
  | nil =>
      refine ⟨⟨result, rfl⟩, .inl ⟨h.sound, fun id hid huser => ?_⟩⟩
      exact (h.reached id hid huser).resolve_left List.not_mem_nil
  | cons recipientId rest ih =>
      unfold PublishStatements.publishEach
      cases hfind : recipients.find? (·.id == recipientId) with
      | none =>
          apply ih
          apply h.next
          intro huser
          have hfound := h.found recipientId List.mem_cons_self huser
          rw [hfind] at hfound
          cases hfound
      | some recipient =>
          have hrecipient := List.mem_of_find?_eq_some hfind
          have hid : recipient.id = recipientId := by simpa using List.find?_some hfind
          have hconflict : isNotificationDedupeConflict uniqueViolation input.dedupeKey = true := by
            simp [isNotificationDedupeConflict, hdedupe, orNull, hkey, uniqueViolation]
          apply abides_bind
          apply abides_attempt
          refine abides_statementOf h.sound (fun t _ u hst _ hrun => ?_)
            fun t e hst hunhindered hrun => ?_
          · obtain ⟨hleaves, hstored, hwriter⟩ := createNotification_ok hrun
            refine ⟨fun j _ => hleaves j, ?_⟩
            have hu := (h.later hst).later (hleaves i)
            have hnext := hu.next fun _ => ⟨_, hstored, rfl, hdedupe, .inr hwriter⟩
            dsimp only
            split
            · apply abides_bind
              apply abides_attempt
              refine abides_statementOf hnext.sound (fun v count w huv _ hrun' => ?_)
                fun v e huv _ hrun' => ?_
              · have hleaves' := createDeliveries_ok hrun'
                exact ⟨fun j _ => hleaves' j, ih _ _ ((hnext.later huv).later (hleaves' i))⟩
              · -- The phones and the notification are there, so nothing is missing.
                have hkept := (huv.kept _ hstored (.inr hwriter)).1
                have hread := ((hnext.later huv).read recipient hrecipient).1
                rw [← hid] at hkept
                obtain ⟨db, hinsert⟩ := PushDb.insertDeliveries_of_owned fun d hd =>
                  (deliveriesOf_owned hread hkept d hd).2
                unfold SharedDb.createDeliveries at hrun'
                rw [hinsert] at hrun'
                cases hrun'
            · exact ih _ _ hnext
          · have ht := h.later hst
            have huser : t.db.hasUser recipientId = true := by
              rw [← hid]
              exact (ht.read recipient hrecipient).2
            obtain ⟨hone, rfl, hnotified⟩ :=
              createNotification_error (hunhindered _ List.mem_cons_self) huser ht.actor hdedupe hrun
            have hlast : rest = [] := by
              have hfew := h.few
              rw [hone, List.length_cons] at hfew
              exact List.length_eq_zero_iff.mp (by omega)
            dsimp only
            rw [if_pos hconflict, hlast]
            refine ⟨⟨result, rfl⟩, .inr fun id hid' _ => ?_⟩
            rw [eq_of_single hone hid' (h.named List.mem_cons_self)]
            exact hnotified

theorem reached_of_existing {ids : List Id} {id : Id} (hkey : key ≠ "")
    (h : id ∈ (s.seenBy i).notifiedUserIds (some key) ids) : Reached i key s id := by
  have hrows : (s.seenBy i).notifiedUserIds (some key) ids =
      ((s.seenBy i).notifications.rows.filter fun n =>
        n.dedupeKey == some key && ids.contains n.userId).map (·.userId) := by
    unfold PushDb.notifiedUserIds
    rw [Option.bind_some, orNull, if_neg hkey]
  rw [hrows] at h
  obtain ⟨n, hn, rfl⟩ := List.mem_map.mp h
  rw [List.mem_filter, Bool.and_eq_true, beq_iff_eq] at hn
  have hstored := PushDb.mem_eraseNotifications.mp hn.1
  refine ⟨n, hstored.1, rfl, hn.2.1, ?_⟩
  have hwriter := hstored.2
  cases hw : s.writer n.id with
  | none => exact .inl rfl
  | some j =>
      rw [hw] at hwriter
      exact .inr (congrArg some (by simpa using hwriter))

theorem abides_publishBody (hkey : key ≠ "") (hdedupe : input.dedupeKey = some key)
    (hopen : s.aborted i = false) (hactor : ∀ a ∈ input.actorId, s.db.hasUser a = true) :
    ((statementsOf i).publishBody input env).Abides (publishDuty input i)
      (fun r t => (∃ a, r = .ok a) ∧ BodyEnds input i key t) s := by
  apply abides_bind
  refine abides_reading (·.notifiedUserIds input.dedupeKey input.recipients) hopen fun t hst => ?_
  have hexisting : ∀ id ∈ (t.seenBy i).notifiedUserIds input.dedupeKey input.recipients,
      Reached i key t id := by
    rw [hdedupe]
    exact fun id hid => reached_of_existing hkey hid
  dsimp only
  split
  · rename_i hnone
    refine ⟨⟨_, rfl⟩, .inl ⟨hst.aborted.trans hopen, fun id hid _ => ?_⟩⟩
    have hcontained := List.filter_eq_nil_iff.mp (List.length_eq_zero_iff.mp hnone) id hid
    exact hexisting id (by simpa using hcontained)
  · apply abides_bind
    refine abides_reading (·.recipients _) (hst.aborted.trans hopen) fun v htv => ?_
    have hsv := hst.trans htv
    apply abides_publishEach hkey hdedupe
    refine ⟨hsv.aborted.trans hopen, fun a ha => ?_, fun r hr => ⟨recipients_read _ r hr, ?_⟩,
      fun id hid huser => ?_, fun id hid => (List.mem_filter.mp hid).1, List.length_filter_le _ _,
      fun id hid _ => ?_⟩
    · rw [hsv.hasUser]
      exact hactor a ha
    · obtain ⟨x, hx, rfl⟩ := List.mem_map.mp hr
      exact List.any_eq_true.mpr ⟨x, (List.mem_filter.mp hx).1, beq_self_eq_true _⟩
    · obtain ⟨x, hx, hxid⟩ := List.any_eq_true.mp huser
      rw [beq_iff_eq] at hxid
      refine List.find?_isSome.mpr ⟨_, List.mem_map.mpr ⟨x, ?_, rfl⟩, by simpa using hxid⟩
      rw [List.mem_filter, hxid]
      exact ⟨hx, List.contains_iff_mem.mpr hid⟩
    · by_cases hmem : id ∈ (t.seenBy i).notifiedUserIds input.dedupeKey input.recipients
      · exact .inr ((hexisting id hmem).later htv)
      · refine .inl (List.mem_filter.mpr ⟨hid, ?_⟩)
        simpa using hmem

/-- The end of a transaction whose body has ended well. -/
theorem notified_close {db : PushDb} {id : Id} (hkept : ∀ n ∈ s.db.notifications.rows,
    s.writer n.id ≠ some i → n ∈ db.notifications.rows) (h : Notified key s id) :
    Notified key (s.close i db) id := by
  obtain ⟨n, hn, huser, hdedupe, hwriter⟩ := h
  have hother : s.writer n.id ≠ some i := by
    rw [hwriter]
    exact nofun
  exact ⟨n, hkept n hn hother, huser, hdedupe, (if_neg hother).trans hwriter⟩

theorem notified_commit {id : Id} (h : Reached i key s id) : Notified key (s.commit i) id := by
  obtain ⟨n, hn, huser, hdedupe, hwriter⟩ := h
  refine ⟨n, hn, huser, hdedupe, ?_⟩
  show (if s.writer n.id = some i then none else s.writer n.id) = none
  split
  · rfl
  · rename_i hother
    exact hwriter.resolve_right hother

/-- A call has ended well, and its recipients have the notification. -/
def Delivered (input : PublishNotificationInput) (key : String) {α : Type}
    (r : Except Thrown α) (s : SharedDb ι) : Prop :=
  (∃ a, r = .ok a) ∧ ∀ id ∈ input.recipients, s.db.hasUser id = true → Notified key s id

theorem abides_inTransaction {α : Type} {body : SharedProg ι α}
    (h : body.Abides (publishDuty input i)
      (fun r t => (∃ a, r = .ok a) ∧ BodyEnds input i key t) s) :
    (inTransaction i body).Abides (publishDuty input i) (Delivered input key) s := by
  apply abides_bind
  apply abides_attempt
  refine h.mono fun r t ⟨⟨a, ha⟩, hends⟩ => ?_
  subst ha
  apply abides_bind
  apply abides_stmt
  intro u htu _
  have hu := hends.later htu
  refine ⟨fun j hj => leaves_end u hj, ⟨a, rfl⟩, fun id hid huser => ?_⟩
  dsimp only at huser ⊢
  split
  · rename_i hfailed
    rw [if_pos hfailed] at huser
    rcases hu with ⟨hopen, -⟩ | hnotified
    · rw [hopen] at hfailed
      cases hfailed
    · refine notified_close (fun n hn hother => ?_) (hnotified id hid huser)
      exact PushDb.mem_eraseNotifications.mpr ⟨hn, beq_eq_false_iff_ne.mpr hother⟩
  · rename_i hfailed
    rw [if_neg hfailed] at huser
    rcases hu with ⟨-, hreached⟩ | hnotified
    · exact notified_commit (hreached id hid huser)
    · exact notified_close (fun n hn _ => hn) (hnotified id hid huser)

theorem abides_publishBy (hkey : key ≠ "") (hdedupe : input.dedupeKey = some key)
    (hopen : s.aborted i = false) (hactor : ∀ a ∈ input.actorId, s.db.hasUser a = true) :
    (publishBy i input env).Abides (publishDuty input i) (Delivered input key) s := by
  unfold publishBy
  split
  · rename_i hnone
    refine ⟨⟨_, rfl⟩, fun id hid => ?_⟩
    rw [List.length_eq_zero_iff.mp hnone] at hid
    cases hid
  · exact abides_inTransaction (abides_publishBody hkey hdedupe hopen hactor)

end body

/-! ## Whole runs -/

/-- The next statement of a call, if it creates a notification, is unhindered. -/
def Undisturbed (input : ι → PublishNotificationInput) (c : PublishSystem ι) (i : ι) : Prop :=
  ∀ n ∈ c.upcoming i, Unhindered (input i) c.store n

/-- A user has exactly one notification under the key. -/
def NotifiedOnce (key : String) (s : PushDb) (userId : Id) : Prop :=
  ∃! n, n ∈ s.notifications.rows ∧ n.userId = userId ∧ n.dedupeKey = some key

omit [DecidableEq ι] in
theorem notifiedOnce_of_notified {key : String} {id : Id} (h : Notified key s id) :
    NotifiedOnce key s.committed id := by
  obtain ⟨n, hn, huser, hdedupe, hwriter⟩ := h
  refine ⟨n, ⟨PushDb.mem_eraseNotifications.mpr ⟨hn, by simp [hwriter]⟩, huser, hdedupe⟩,
    fun m ⟨hm, hmuser, hmdedupe⟩ => ?_⟩
  have hm' := (PushDb.mem_eraseNotifications.mp hm).1
  apply Table.eq_of_conflicts hm' hn
  simp [conflicts, hmuser, huser, hmdedupe, hdedupe]

/-- In every run in which no creation is hindered, no call fails, and whoever a
call names has the notification once when it has ended. -/
theorem undisturbed_publishing_notifies_once (s : PushDb) (key : String)
    (input : ι → PublishNotificationInput) (env : ι → PublishEnv) (hkey : key ≠ "")
    (hdedupe : ∀ i, (input i).dedupeKey = some key)
    (hactor : ∀ i, ∀ a ∈ (input i).actorId, s.hasUser a = true) (schedule : List ι)
    (hundisturbed : Config.Heeds (Undisturbed input) (publishing s input env) schedule) (i : ι)
    (r : Except Thrown PublishResult)
    (hended : ((publishing s input env).run schedule).returned i = some r) :
    (∃ result, r = .ok result) ∧ ∀ id ∈ (input i).recipients,
      ((publishing s input env).run schedule).store.committed.hasUser id = true →
        NotifiedOnce key ((publishing s input env).run schedule).store.committed id := by
  have hcalls : ∀ j, ((publishing s input env).calls j).Abides (publishDuty (input j) j)
      (fun (r : Except Thrown (Except Thrown PublishResult)) t =>
        ∃ r', r = .ok r' ∧ Delivered (input j) key r' t) (publishing s input env).store := by
    intro j
    apply abides_attempt
    refine (abides_publishBy hkey (hdedupe j) rfl (hactor j)).mono fun r t hr => ?_
    exact ⟨r, rfl, hr⟩
  have hrun := Config.abides_run (D := fun j => publishDuty (input j) j)
    (fun i j hj s t h => h j hj) (fun j r s t h hst => ?_) hcalls hundisturbed i
  · obtain ⟨r', hr', hdelivered⟩ := Config.returned_of_abides hrun hended
    cases hr'
    exact ⟨hdelivered.1, fun id hid huser => notifiedOnce_of_notified (hdelivered.2 id hid huser)⟩
  · obtain ⟨r', hr', hok, hnotified⟩ := h
    refine ⟨r', hr', hok, fun id hid huser => ?_⟩
    rw [Leaves.hasUser hst] at huser
    exact (hnotified id hid huser).later hst

/-- Three people, nobody notified. -/
def threePeople : PushDb where
  users := ⟨[{ id := "ana", username := "ana", displayName := "Ana" },
    { id := "beto", username := "beto", displayName := "Beto" },
    { id := "caro", username := "caro", displayName := "Caro" }], by decide⟩
  settings := .empty
  notifications := .empty
  installations := .empty
  deliveries := .empty
  delivery_notification := PushDb.no_notification
  delivery_installation := PushDb.no_installation

/-- A reminder for Beto, and the same one for Beto and Caro. -/
def twoReminders : Bool → PublishNotificationInput
  | false => { dedupeKey := some "k", recipientIds := ["beto"], type := .groupInvite }
  | true => { dedupeKey := some "k", recipientIds := ["beto", "caro"], type := .groupInvite }

def reminderEnv (call : Bool) : PublishEnv where
  now := 0
  notificationId index :=
    match call, index with
    | false, _ => "n1"
    | true, 0 => "n2"
    | true, _ => "n3"
  deliveryId _ _ := ""

instance (input : PublishNotificationInput) (s : SharedDb ι) (n : Notification) :
    Decidable (Unhindered input s n) := by
  unfold Unhindered
  infer_instance

instance (input : ι → PublishNotificationInput) (c : PublishSystem ι) (i : ι) :
    Decidable (Undisturbed input c i) := by
  unfold Undisturbed
  infer_instance

/-- The first call looks, the second one publishes, and the first one comes upon
its row: Beto is its only recipient, so nothing is lost. -/
theorem duplicate_for_beto_alone_is_harmless : NotifiedOnce "k"
    ((publishing threePeople twoReminders reminderEnv).run
      [false, false, true, true, true, true, true, false, false]).store.committed "beto" := by
  have hundisturbed : Config.Heeds (Undisturbed twoReminders)
      (publishing threePeople twoReminders reminderEnv)
      [false, false, true, true, true, true, true, false, false] := by decide
  have hdedupe : ∀ call, (twoReminders call).dedupeKey = some "k" := by decide
  have hactor : ∀ call, ∀ a ∈ (twoReminders call).actorId, threePeople.hasUser a = true := by decide
  exact (undisturbed_publishing_notifies_once threePeople "k" twoReminders reminderEnv (by decide)
    hdedupe hactor _ hundisturbed false _ rfl).2 "beto" (by decide) (by decide)

/-- No call fails, and when all have ended, whoever one of them names has the
notification once: in every run the database allows. -/
def PublishesOnce (s : PushDb) (key : String) (input : ι → PublishNotificationInput)
    (env : ι → PublishEnv) : Prop :=
  ∀ schedule, Config.Heeds Runs (publishing s input env) schedule →
    (∀ i e, ((publishing s input env).run schedule).returned i ≠ some (.error e)) ∧
      ((∀ i, (((publishing s input env).run schedule).returned i).isSome) →
        ∀ i, ∀ id ∈ (input i).recipients,
          ((publishing s input env).run schedule).store.committed.hasUser id = true →
            NotifiedOnce key ((publishing s input env).run schedule).store.committed id)

instance (c : PublishSystem ι) (i j : ι) : Decidable (WaitsFor c i j) := by
  unfold WaitsFor
  infer_instance

/-- The second call looks, the first one publishes, and the second one comes upon
its row: the conflict is caught, and the next recipient fails the call. -/
theorem duplicate_fails_publish :
    ¬ PublishesOnce threePeople "k" twoReminders reminderEnv := by
  intro h
  have hruns : Config.Heeds Runs (publishing threePeople twoReminders reminderEnv)
      [true, true, false, false, false, false, true, true, true] := by
    have hfree : Config.Heeds (fun c i => ∀ j, ¬ WaitsFor c i j)
        (publishing threePeople twoReminders reminderEnv)
        [true, true, false, false, false, false, true, true, true] := by decide
    exact hfree.mono fun _ _ hnone => .inl hnone
  exact (h _ hruns).1 true inFailedTransaction rfl

end Feca.Push
