import Feca.Push.System

/-! # One installation for each token

Registering takes a token away from every other installation before it seats
its own, under whatever user and token that one had before. Of the installations
in use, each token has at most one: the one it was last registered for.
-/

namespace Feca.Push

open Concurrency Concurrency.Prog Relational

/-- A request about the sender's own installations. -/
inductive TokenCall
  | registerMyPushInstallation (env : RegisterEnv) (userId : Id) (input : UpsertPushTokenDto)
  | revokeMyPushInstallation (now : Date) (userId installationId : Id)

def TokenCall.prog : TokenCall → PushProg Unit
  | .registerMyPushInstallation env userId input =>
      Push.registerMyPushInstallation env userId input
  | .revokeMyPushInstallation now userId installationId =>
      Push.revokeMyPushInstallation now userId installationId

/-- A registration that was committed. -/
structure Registration where
  userId : Id
  input : UpsertPushTokenDto

def Registration.isFor (r : Registration) (provider : PushProvider) (token : String) : Bool :=
  r.input.provider == provider && r.input.token == token

/-- The registration a call commits in a store, if it does. -/
def TokenCall.registration (call : TokenCall) (s : PushDb) : List Registration :=
  match call, (call.prog.run s).result with
  | .registerMyPushInstallation _ userId input, .ok _ => [⟨userId, input⟩]
  | _, _ => []

/-- Calls one after the other: the store they leave, and what they have
registered, latest first. -/
def serve (s : PushDb) : List TokenCall → PushDb × List Registration
  | [] => (s, [])
  | call :: earlier =>
      let (t, log) := serve s earlier
      ((call.prog.run t).store, call.registration t ++ log)

/-- The installation is the one its token was last registered for, by its user. -/
def LastRegistered (log : List Registration) (i : PushInstallation) : Prop :=
  ∃ r, log.find? (·.isFor i.provider i.token) = some r ∧
    r.input.installationId = i.installationId ∧ r.userId = i.userId

/-- Every installation in use is the last one registered with its token. -/
def Current (s : PushDb) (log : List Registration) : Prop :=
  ∀ i ∈ s.installations.rows, i.revokedAt = none → LastRegistered log i

variable {s t : PushDb} {log : List Registration}

/-- What the first statement of a registration leaves in use. -/
theorem mem_revokeInstallations {p : PushInstallation → Bool} {now : Date} {i : PushInstallation}
    (hi : i ∈ ((revokeInstallations p now).run s).store.installations.rows)
    (hlive : i.revokedAt = none) : i ∈ s.installations.rows ∧ p i = false := by
  unfold revokeInstallations at hi
  rw [run_stmt, PushDb.setInstallations_rows] at hi
  obtain ⟨x, hx, rfl⟩ := List.mem_map.mp hi
  by_cases hp : p x = true
  · simp [hp] at hlive
  · rw [if_neg hp]
    exact ⟨hx, by simpa using hp⟩

/-- What the second statement leaves: other installations, and the one seated. -/
theorem mem_upsertInstallation {env : RegisterEnv} {userId : Id} {input : UpsertPushTokenDto}
    {i : PushInstallation} (hok : ((upsertInstallation env userId input).run s).result = .ok ())
    (hi : i ∈ ((upsertInstallation env userId input).run s).store.installations.rows) :
    i ∈ s.installations.rows ∧
        ¬ (i.provider = input.provider ∧ i.installationId = input.installationId) ∨
      i.provider = input.provider ∧ i.installationId = input.installationId ∧
        i.token = input.token ∧ i.userId = userId := by
  unfold upsertInstallation at hok hi
  rw [run_stmt] at hok hi
  dsimp only at hok hi
  split at hi
  · split at hi
    · rw [PushDb.setInstallations_rows] at hi
      obtain ⟨x, hx, rfl⟩ := List.mem_map.mp hi
      by_cases hfound : (x.provider == input.provider &&
          x.installationId == input.installationId) = true
      · rw [if_pos hfound]
        rw [Bool.and_eq_true, beq_iff_eq, beq_iff_eq] at hfound
        exact .inr ⟨hfound.1, hfound.2, rfl, rfl⟩
      · rw [if_neg hfound]
        rw [Bool.and_eq_true, beq_iff_eq, beq_iff_eq] at hfound
        exact .inl ⟨hx, hfound⟩
    · rename_i hany huser
      rw [if_pos hany, if_neg huser] at hok
      cases hok
  · rename_i hany
    rw [if_neg hany] at hok
    split at hi
    · rename_i t hinsert
      rw [(PushDb.insertInstallation_ok hinsert).2.2, List.mem_append, List.mem_singleton] at hi
      rcases hi with hi | rfl
      · refine .inl ⟨hi, fun hsame => hany (List.any_eq_true.mpr ⟨i, hi, ?_⟩)⟩
        simp [hsame]
      · exact .inr ⟨rfl, rfl, rfl, rfl⟩
    · rename_i e hinsert
      simp [hinsert] at hok

theorem LastRegistered.skip {i : PushInstallation} {r : Registration} (h : LastRegistered log i)
    (hother : r.isFor i.provider i.token = false) : LastRegistered (r :: log) i := by
  obtain ⟨r', hfind, hids⟩ := h
  exact ⟨r', by rw [List.find?_cons_of_neg (by simp [hother]), hfind], hids⟩

theorem current_register (h : Current s log) (env : RegisterEnv) (userId : Id)
    (input : UpsertPushTokenDto) :
    Current ((Push.registerMyPushInstallation env userId input).run s).store
      ((TokenCall.registerMyPushInstallation env userId input).registration s ++ log) := by
  unfold TokenCall.registration
  dsimp only [TokenCall.prog]
  unfold Push.registerMyPushInstallation transaction
  rw [run_stmt]
  set taken := fun i : PushInstallation => i.installationId != input.installationId &&
    i.provider == input.provider && i.revokedAt == none && i.token == input.token with htaken
  set revoked := ((revokeInstallations taken env.now).run s).store with hrevoked
  rw [run_bind_ok (p := revokeInstallations taken env.now) rfl]
  cases hresult : ((upsertInstallation env userId input).run revoked).result with
  | error e => simpa [hresult] using h
  | ok a =>
      simp only [← hrevoked]
      intro i hi hlive
      rcases mem_upsertInstallation hresult hi with ⟨hmem, hother⟩ | ⟨hprovider, hid, htoken, huser⟩
      · obtain ⟨hmem, hkept⟩ := mem_revokeInstallations hmem hlive
        refine (h i hmem hlive).skip ?_
        by_contra hfor
        unfold Registration.isFor at hfor
        rw [Bool.not_eq_false, Bool.and_eq_true, beq_iff_eq, beq_iff_eq] at hfor
        obtain ⟨hprovider, htoken⟩ := hfor
        have hid : i.installationId ≠ input.installationId := fun hid => hother ⟨hprovider.symm, hid⟩
        simp [htaken, hid, hlive] at hkept
        exact hkept htoken.symm
      · exact ⟨⟨userId, input⟩, by simp [Registration.isFor, htoken], hid.symm, huser.symm⟩

theorem current_revoke (h : Current s log) (now : Date) (userId installationId : Id) :
    Current ((Push.revokeMyPushInstallation now userId installationId).run s).store log := by
  intro i hi hlive
  exact h i (mem_revokeInstallations hi hlive).1 hlive

theorem current_serve (hs : s.installations.rows = []) (calls : List TokenCall) :
    Current (serve s calls).1 (serve s calls).2 := by
  induction calls with
  | nil =>
      intro i hi
      rw [show (serve s []).1.installations.rows = [] from hs] at hi
      cases hi
  | cons call earlier ih =>
      cases call with
      | registerMyPushInstallation env userId input => exact current_register ih env userId input
      | revokeMyPushInstallation now userId installationId =>
          exact current_revoke ih now userId installationId

/-- Among the installations in use a token has at most one, the one that was
last registered with it, in the hands of the user who did. -/
theorem one_live_installation_per_token (s : PushDb) (hs : s.installations.rows = [])
    (calls : List TokenCall) :
    (∀ i ∈ (serve s calls).1.installations.rows, ∀ j ∈ (serve s calls).1.installations.rows,
      i.revokedAt = none → j.revokedAt = none → i.provider = j.provider → i.token = j.token →
        i = j) ∧
      ∀ i ∈ (serve s calls).1.installations.rows, i.revokedAt = none →
        LastRegistered (serve s calls).2 i := by
  have hcurrent := current_serve hs calls
  refine ⟨fun i hi j hj hlive hlive' hprovider htoken => ?_, hcurrent⟩
  obtain ⟨r, hfind, hid, -⟩ := hcurrent i hi hlive
  obtain ⟨r', hfind', hid', -⟩ := hcurrent j hj hlive'
  rw [← hprovider, ← htoken, hfind] at hfind'
  cases hfind'
  refine Table.eq_of_conflicts hi hj ?_
  simp [conflicts, hprovider, ← hid, hid']

/-- Ana, and then Beto, registers a token for a phone. -/
def twoOwners : PushDb where
  users := ⟨[{ id := "ana", username := "ana", displayName := "Ana Paz" },
    { id := "beto", username := "beto", displayName := "Beto Paz" }], by simp [conflicts]⟩
  settings := .empty
  notifications := .empty
  installations := .empty
  deliveries := .empty
  delivery_notification := PushDb.no_notification
  delivery_installation := PushDb.no_installation

def aRegistration (id userId installationId : Id) : TokenCall :=
  .registerMyPushInstallation { now := 5, id } userId
    { token := "tok", installationId, platform := .ios, timezone := "UTC" }

def movedToken : List TokenCall :=
  [aRegistration "i2" "beto" "new phone", aRegistration "i1" "ana" "old phone"]

theorem moved_token_is_last_registered :
    ((serve twoOwners movedToken).1.installations.rows.map fun i => (i.id, i.revokedAt)) =
        [("i1", some 5), ("i2", none)] ∧
      ∀ i ∈ (serve twoOwners movedToken).1.installations.rows, i.revokedAt = none →
        LastRegistered (serve twoOwners movedToken).2 i :=
  ⟨by decide, (one_live_installation_per_token twoOwners rfl movedToken).2⟩

end Feca.Push
