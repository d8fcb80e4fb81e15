import Mathlib.Logic.Relation
import Feca.Auth.Session

/-! # Refresh-token rotation

Any number of refreshes, logouts and sign-ins, one statement at a time. A
session once revoked stays revoked, and only a session that is not revoked is
traded, so every session is traded at most once: the sessions that replace one
another form a chain, and only the last one can be active.
-/

namespace Feca.Auth

open Concurrency Concurrency.Prog Relational

/-! ## What a statement may do -/

/-- Sessions stay, and stay revoked; a new one comes with an event that says
so, and with the session it replaces, which was not revoked and now is. -/
structure AuthLaw (s t : AuthDb) (es : List AuthEvent) : Prop where
  kept : ∀ x ∈ s.sessions.rows, ∃ y ∈ t.sessions.rows, y.id = x.id ∧
    y.refreshTokenHash = x.refreshTokenHash ∧ (x.revokedAt ≠ none → y.revokedAt ≠ none)
  origin : ∀ y ∈ t.sessions.rows, (∃ x ∈ s.sessions.rows, x.id = y.id) ∨
    ∃ previous, .created previous y ∈ es
  found : ∀ x, .found x ∈ es → x ∈ s.sessions.rows
  created : ∀ previous y, .created previous y ∈ es → es = [.created previous y] ∧
    y ∈ t.sessions.rows ∧ ∀ x ∈ s.sessions.rows, x.id ≠ y.id
  traded : ∀ previous y, .created (some previous) y ∈ es →
    (∃ x ∈ s.sessions.rows, x.id = previous ∧ x.revokedAt = none) ∧
      ∃ x ∈ t.sessions.rows, x.id = previous ∧ x.revokedAt ≠ none

/-- A statement that writes no session and creates none. -/
theorem authLaw_of_same {s t : AuthDb} {es : List AuthEvent} (h : t.sessions = s.sessions)
    (hfound : ∀ x, .found x ∈ es → x ∈ s.sessions.rows)
    (hnone : ∀ previous y, .created previous y ∉ es) : AuthLaw s t es where
  kept x hx := ⟨x, h ▸ hx, rfl, rfl, id⟩
  origin y hy := .inl ⟨y, h ▸ hy, rfl⟩
  found := hfound
  created previous y hy := absurd hy (hnone previous y)
  traded _ y hy := absurd hy (hnone _ y)

theorem authLaw_idle (s : AuthDb) : AuthLaw s s [] :=
  authLaw_of_same rfl (by simp) (by simp)

theorem authLaw_revokeSessions (s : AuthDb) (p : Session → Bool) (date : Date) :
    AuthLaw s (s.revokeSessions p date) [] where
  kept x hx := by
    refine ⟨_, AuthDb.mem_revokeSessions.mpr ⟨x, hx, rfl⟩, ?_⟩
    split
    · exact ⟨rfl, rfl, fun _ => Option.some_ne_none _⟩
    · exact ⟨rfl, rfl, id⟩
  origin y hy := by
    obtain ⟨x, hx, rfl⟩ := AuthDb.mem_revokeSessions.mp hy
    refine .inl ⟨x, hx, ?_⟩
    split
    · rfl
    · rfl
  found := by simp
  created := by simp
  traded := by simp

theorem insertSession_ok {s t : AuthDb} {session : Session} (h : s.insertSession session = .ok t) :
    t.sessions.rows = s.sessions.rows ++ [session] ∧ ∀ x ∈ s.sessions.rows, x.id ≠ session.id := by
  unfold AuthDb.insertSession at h
  split at h
  · split at h
    · cases h
    · rename_i sessions hinsert
      cases h
      obtain ⟨hrows, hfree⟩ := Table.insert_eq_some hinsert
      refine ⟨hrows, fun x hx hid => ?_⟩
      have hclash := hfree x hx
      simp [conflicts, hid] at hclash
  · cases h

theorem authLaw_insertSession {s t : AuthDb} {session : Session}
    (h : s.insertSession session = .ok t) : AuthLaw s t [.created none session] := by
  obtain ⟨hrows, hfresh⟩ := insertSession_ok h
  refine ⟨fun x hx => ⟨x, ?_, rfl, rfl, id⟩, fun y hy => ?_, by simp, ?_, by simp⟩
  · rw [hrows]
    exact List.mem_append_left _ hx
  · rw [hrows, List.mem_append, List.mem_singleton] at hy
    rcases hy with hy | rfl
    · exact .inl ⟨y, hy, rfl⟩
    · exact .inr ⟨none, List.mem_cons_self⟩
  · intro previous y hy
    cases List.mem_singleton.mp hy
    exact ⟨rfl, by simp [hrows], hfresh⟩

/-- The transaction throws, or trades a session that is not revoked. -/
theorem tradeSession_run (env : AuthEnv) (previousSessionId : Id) (input : Session) (s : AuthDb) :
    (∃ e, ((tradeSession env previousSessionId input).run s).result = .error e) ∨
      ∃ x ∈ s.sessions.rows, isConsumable env previousSessionId x = true ∧ ∃ t,
        (s.revokeSessions (isConsumable env previousSessionId) (env.clock 4)).insertSession input =
          .ok t ∧
        (tradeSession env previousSessionId input).run s =
          ⟨t, [.created (some previousSessionId) input], .ok ()⟩ := by
  unfold tradeSession
  rw [run_bind_ok (congrArg Answer.result (run_stmt _ s)), revokeSessions, run_stmt]
  dsimp only
  split
  · exact .inl ⟨_, rfl⟩
  · rename_i hcount
    obtain ⟨x, hx⟩ : ∃ x, x ∈ s.sessions.rows.filter (isConsumable env previousSessionId) := by
      refine List.exists_mem_of_length_pos ?_
      omega
    obtain ⟨hstored, hp⟩ := List.mem_filter.mp hx
    rw [createSession, run_stmt]
    cases hinsert : (s.revokeSessions (isConsumable env previousSessionId)
        (env.clock 4)).insertSession input with
    | error e => exact .inl ⟨_, rfl⟩
    | ok t => exact .inr ⟨x, hstored, hp, t, rfl, rfl⟩

/-- The end of a transaction that trades one session for another. -/
theorem authLaw_trade {s t : AuthDb} {p : Session → Bool} {date : Date} {session x : Session}
    (hx : x ∈ s.sessions.rows) (hp : p x = true) (hlive : x.revokedAt = none)
    (h : (s.revokeSessions p date).insertSession session = .ok t) :
    AuthLaw s t [.created (some x.id) session] := by
  have hrevoked := authLaw_revokeSessions s p date
  have hinserted := authLaw_insertSession h
  refine ⟨fun a ha => ?_, fun y hy => ?_, by simp, ?_, ?_⟩
  · obtain ⟨b, hb, hid, hhash, hstays⟩ := hrevoked.kept a ha
    obtain ⟨c, hc, hid', hhash', hstays'⟩ := hinserted.kept b hb
    exact ⟨c, hc, hid'.trans hid, hhash'.trans hhash, fun h => hstays' (hstays h)⟩
  · rcases hinserted.origin y hy with ⟨b, hb, hid⟩ | ⟨previous, hcreated⟩
    · rcases hrevoked.origin b hb with ⟨a, ha, hid'⟩ | ⟨_, hnone⟩
      · exact .inl ⟨a, ha, hid'.trans hid⟩
      · cases hnone
    · cases List.mem_singleton.mp hcreated
      exact .inr ⟨_, List.mem_cons_self⟩
  · intro previous y hy
    cases List.mem_singleton.mp hy
    refine ⟨rfl, (hinserted.created none session List.mem_cons_self).2.1, fun a ha hid => ?_⟩
    obtain ⟨b, hb, hid', -⟩ := hrevoked.kept a ha
    exact (insertSession_ok h).2 b hb (hid'.trans hid)
  · intro previous y hy
    cases List.mem_singleton.mp hy
    obtain ⟨b, hb, hid, -, hstays⟩ := hinserted.kept { x with revokedAt := some date }
      (AuthDb.mem_revokeSessions.mpr ⟨x, hx, if_pos hp⟩)
    exact ⟨⟨x, hx, rfl, hlive⟩, b, hb, hid, hstays (Option.some_ne_none _)⟩

/-! ## What a call does -/

/-- The call has created no session. -/
def NothingCreated (past : List AuthEvent) : Prop := ∀ previous y, .created previous y ∉ past

/-- Who succeeds has created the session, who fails has created none. -/
def CreatedIfOk {α : Type} (previous : Option Id) (session : Session) (r : Except AuthFailure α)
    (past : List AuthEvent) : Prop :=
  match r with
  | .ok _ => .created previous session ∈ past
  | .error _ => NothingCreated past

/-- The rotation that answers yes has created the session. -/
def RotatedIfTrue (previous : Id) (session : Session) (r : Except AuthFailure Bool)
    (past : List AuthEvent) : Prop :=
  match r with
  | .ok true => .created (some previous) session ∈ past
  | .ok false => NothingCreated past
  | .error _ => NothingCreated past

section calls

variable {past : List AuthEvent}

theorem storeSession_law (env : AuthEnv) (input : Session) (previous : Option Id)
    (hpast : NothingCreated past) :
    ((storeSession env input previous).attempt : AuthProg (Except AuthFailure Unit)).Follows
      (fun _ => AuthLaw) (CreatedIfOk previous input) past := by
  cases previous with
  | none =>
      refine follows_attempt_stmt (fun s => ?_) fun s => ?_
      · cases hinsert : s.insertSession input with
        | ok t => exact authLaw_insertSession hinsert
        | error e => exact authLaw_idle s
      · cases hinsert : s.insertSession input with
        | ok t => exact List.mem_append_right _ List.mem_cons_self
        | error e => simpa [CreatedIfOk] using hpast
  | some previous =>
      have htrade : ((transaction (tradeSession env previous input)).attempt :
          AuthProg (Except AuthFailure Unit)).Follows (fun _ => AuthLaw)
            (CreatedIfOk (some previous) input) past := by
        refine follows_attempt_stmt (fun s => ?_) fun s => ?_
        · rcases tradeSession_run env previous input s with
            ⟨e, herror⟩ | ⟨x, hx, hp, t, hinsert, hrun⟩
          · rw [herror]
            exact authLaw_idle s
          · rw [hrun]
            have hcols := hp
            simp only [isConsumable, Bool.and_eq_true, beq_iff_eq] at hcols
            have htraded := authLaw_trade hx hp hcols.2 hinsert
            rwa [hcols.1.2] at htraded
        · rcases tradeSession_run env previous input s with
            ⟨e, herror⟩ | ⟨x, hx, hp, t, hinsert, hrun⟩
          · rw [herror]
            simpa [CreatedIfOk] using hpast
          · rw [hrun]
            exact List.mem_append_right _ List.mem_cons_self
      have hrotate : ((rotateActiveSession env previous input).attempt :
          AuthProg (Except AuthFailure Bool)).Follows (fun _ => AuthLaw)
            (RotatedIfTrue previous input) past := by
        refine follows_attempt_bind (R := CreatedIfOk (some previous) input) ?_ fun r later _ hr => ?_
        · rw [attempt_attempt]
          exact follows_bind htrade fun r later _ hr => follows_pure hr
        · cases r with
          | ok _ => exact follows_pure hr
          | error e =>
              cases e with
              | rotationConflict => exact follows_pure hr
              | http exception => exact follows_pure hr
              | database error => exact follows_pure hr
      refine follows_attempt_bind
        (R := fun rotated => RotatedIfTrue previous input (.ok rotated)) ?_
        fun rotated later _ hr => ?_
      · refine hrotate.mono fun r later hr => ?_
        cases r with
        | ok rotated => exact hr
        | error e => exact hr
      · cases rotated with
        | true => exact follows_pure hr
        | false => exact follows_pure hr

/-- A part of a call that creates no session. -/
abbrev Quiet {α : Type} (p : AuthProg α) : Prop :=
  p.Always fun s t es => AuthLaw s t es ∧ NothingCreated es

theorem quiet_query {α : Type} (read : AuthDb → α) : Quiet (query read) :=
  always_stmt fun s => ⟨authLaw_idle s, by simp [NothingCreated]⟩

theorem quiet_ensureUserSettings (row : UserSettings) : Quiet (ensureUserSettings row) := by
  refine always_stmt fun s => ?_
  cases hupsert : s.upsertSettings row with
  | error e => exact ⟨authLaw_idle s, by simp [NothingCreated]⟩
  | ok t =>
      refine ⟨authLaw_of_same ?_ (by simp) (by simp), by simp [NothingCreated]⟩
      unfold AuthDb.upsertSettings at hupsert
      split at hupsert
      · cases hupsert
        rfl
      · split at hupsert
        · split at hupsert
          · cases hupsert
          · cases hupsert
            rfl
        · cases hupsert

theorem quiet_revokeSessions (p : Session → Bool) (date : Date) : Quiet (revokeSessions p date) :=
  always_stmt fun s => ⟨authLaw_revokeSessions s p date, by simp [NothingCreated]⟩

theorem follows_quiet {α : Type} {p : AuthProg α} (hp : Quiet p) (hpast : NothingCreated past) :
    (p.attempt : AuthProg (Except AuthFailure α)).Follows (fun _ => AuthLaw)
      (fun _ => NothingCreated) past := by
  induction p generalizing past with
  | done a => exact hpast
  | fail e => exact hpast
  | step exec next ih =>
      intro s
      obtain ⟨⟨hlaw, hquiet⟩, hnext⟩ := hp s
      refine ⟨hlaw, ih s hnext fun previous y hy => ?_⟩
      rcases List.mem_append.mp hy with hy | hy
      · exact hpast previous y hy
      · exact hquiet previous y hy

/-- Who succeeds has created a session in place of the previous one, who fails
has created none. -/
def Issued {α : Type} (previous : Option Id) (r : Except AuthFailure α) (past : List AuthEvent) :
    Prop :=
  match r with
  | .ok _ => ∃ session, .created previous session ∈ past
  | .error _ => NothingCreated past

theorem follows_quiet_bind {α β : Type} {p : AuthProg α} {k : α → AuthProg β}
    {previous : Option Id} (hp : Quiet p) (hpast : NothingCreated past)
    (hk : ∀ a later, past <+: later → NothingCreated later →
      ((k a).attempt : AuthProg (Except AuthFailure β)).Follows (fun _ => AuthLaw)
        (Issued previous) later) :
    ((p >>= k).attempt : AuthProg (Except AuthFailure β)).Follows (fun _ => AuthLaw)
      (Issued previous) past := by
  refine follows_attempt_bind (R := fun _ => NothingCreated) ?_ hk
  refine (follows_quiet hp hpast).mono fun r later hr => ?_
  cases r with
  | ok a => exact hr
  | error e => exact hr

theorem issueSession_law (config : AuthConfig) (env : AuthEnv) (user : AuthUser)
    (previous : Option Id) (hpast : NothingCreated past) :
    ((AuthService.issueSession config env user previous).attempt :
      AuthProg (Except AuthFailure AuthSessionPayload)).Follows (fun _ => AuthLaw)
        (Issued previous) past := by
  refine follows_quiet_bind (quiet_query _) hpast fun hydrated past _ hpast => ?_
  refine follows_quiet_bind (quiet_ensureUserSettings _) hpast fun _ past _ hpast => ?_
  refine follows_quiet_bind (quiet_query _) hpast fun settings past _ hpast => ?_
  cases hydrated with
  | none => exact follows_pure hpast
  | some hydrated =>
      refine follows_attempt_bind
        (R := fun (_ : Unit) later => ∃ session, AuthEvent.created previous session ∈ later) ?_
        fun _ later _ hcreated => follows_pure hcreated
      refine (storeSession_law env _ previous hpast).mono fun r later hr => ?_
      cases r with
      | ok _ => exact ⟨_, hr⟩
      | error e => exact hr

/-- The refresh that succeeds traded the session it had found under its token. -/
def Refreshed {α : Type} (refreshTokenHash : String) (r : Except AuthFailure α)
    (past : List AuthEvent) : Prop :=
  match r with
  | .ok _ => ∃ x session, .found x ∈ past ∧ x.refreshTokenHash = refreshTokenHash ∧
      .created (some x.id) session ∈ past
  | .error _ => NothingCreated past

theorem refreshSession_law (config : AuthConfig) (env : AuthEnv) (refreshToken : String) :
    ((AuthService.refreshSession config env refreshToken).attempt :
      AuthProg (Except AuthFailure AuthSessionPayload)).Follows (fun _ => AuthLaw)
        (Refreshed (config.hashRefreshToken refreshToken)) [] := by
  refine follows_attempt_bind (R := fun found later => NothingCreated later ∧
    ∀ x user, found = some (x, user) → .found x ∈ later ∧
      x.refreshTokenHash = config.hashRefreshToken refreshToken) ?_ ?_
  · refine follows_attempt_stmt (fun s => ?_) fun s => ?_
    · refine authLaw_of_same rfl (fun x hx => ?_) (by simp)
      obtain ⟨y, hy, heq⟩ := List.mem_map.mp hx
      cases heq
      exact List.mem_of_find?_eq_some (Option.mem_toList.mp hy)
    · refine ⟨by simp [NothingCreated], fun x user hx => ?_⟩
      obtain ⟨y, hfind, hy⟩ := Option.bind_eq_some_iff.mp hx
      obtain ⟨u, -, heq⟩ := Option.map_eq_some_iff.mp hy
      cases heq
      have hcols := List.find?_some hfind
      simp only [Bool.and_eq_true, beq_iff_eq] at hcols
      exact ⟨List.mem_map.mpr ⟨x, Option.mem_toList.mpr hfind, rfl⟩, hcols.1.2⟩
  · intro found later _ hfound
    cases found with
    | none => exact follows_pure hfound.1
    | some found =>
        obtain ⟨x, user⟩ := found
        obtain ⟨hmem, hhash⟩ := hfound.2 x user rfl
        refine (issueSession_law config env user (some x.id) hfound.1).remembers.mono
          fun r last hr => ?_
        cases r with
        | ok payload =>
            obtain ⟨⟨session, hcreated⟩, hlast⟩ := hr
            exact ⟨x, session, hlast.subset hmem, hhash, hcreated⟩
        | error e => exact hr.1

theorem logout_law (config : AuthConfig) (env : AuthEnv) (refreshToken : String) :
    ((AuthService.logout config env refreshToken).attempt :
      AuthProg (Except AuthFailure Unit)).Follows (fun _ => AuthLaw) (fun _ => NothingCreated) [] := by
  refine follows_quiet ?_ (by simp [NothingCreated])
  exact always_bind (quiet_revokeSessions _ _) fun _ => trivial

end calls

/-! ## The system -/

/-- Sign-ins, refreshes and logouts. -/
inductive AuthCall
  | signIn (env : AuthEnv) (user : AuthUser)
  | refresh (env : AuthEnv) (refreshToken : String)
  | logout (env : AuthEnv) (refreshToken : String)

/-- How a call ends: with a session or without, or with a failure. -/
abbrev Outcome := Except AuthFailure (Option AuthSessionPayload)

def AuthCall.prog (config : AuthConfig) : AuthCall → AuthProg Outcome
  | .signIn env user => (some <$> AuthService.issueSession config env user none).attempt
  | .refresh env refreshToken =>
      (some <$> AuthService.refreshSession config env refreshToken).attempt
  | .logout env refreshToken =>
      ((fun _ => none) <$> AuthService.logout config env refreshToken).attempt

/-- What the history of a call says about its outcome. -/
def AuthCall.Explains (config : AuthConfig) : AuthCall → Outcome → List AuthEvent → Prop
  | .signIn _ _, r, past => Issued none r past
  | .refresh _ refreshToken, r, past => Refreshed (config.hashRefreshToken refreshToken) r past
  | .logout _ _, _, past => NothingCreated past

theorem AuthCall.law (config : AuthConfig) (call : AuthCall) :
    (call.prog config).Follows (fun _ => AuthLaw) (call.Explains config) [] := by
  cases call with
  | signIn env user =>
      refine follows_attempt_map ?_
      refine (issueSession_law config env user none (by simp [NothingCreated])).mono fun r _ hr => ?_
      cases r with
      | ok payload => exact hr
      | error e => exact hr
  | refresh env refreshToken =>
      refine follows_attempt_map ((refreshSession_law config env refreshToken).mono fun r _ hr => ?_)
      cases r with
      | ok payload => exact hr
      | error e => exact hr
  | logout env refreshToken => exact follows_attempt_map (logout_law config env refreshToken)

theorem AuthCall.nothingCreated_of_error {config : AuthConfig} {call : AuthCall} {e : AuthFailure}
    {past : List AuthEvent} (h : call.Explains config (.error e) past) : NothingCreated past := by
  cases call with
  | signIn env user => exact h
  | refresh env refreshToken => exact h
  | logout env refreshToken => exact h

abbrev AuthSystem (ι : Type) := Config ι AuthDb AuthEvent AuthFailure Outcome

section system

variable {ι : Type} [DecidableEq ι] (config : AuthConfig) (calls : ι → AuthCall)

/-- Every call is about to begin. -/
def begin (s : AuthDb) : AuthSystem ι := ⟨s, fun i => (calls i).prog config, []⟩

/-- Some call has put the second session in place of the first. -/
def Replaces (c : AuthSystem ι) (a b : Id) : Prop :=
  ∃ i session, (i, .created (some a) session) ∈ c.trace ∧ session.id = b

/-- What is known of the sessions that calls have found, created and traded,
starting from the store `s`. -/
structure Chained (s : AuthDb) (c : AuthSystem ι) : Prop where
  calls : ∀ i, (c.calls i).Follows (fun _ => AuthLaw) ((calls i).Explains config) (c.reported i)
  found : ∀ i x, (i, .found x) ∈ c.trace → ∃ y ∈ c.store.sessions.rows, y.id = x.id ∧
    y.refreshTokenHash = x.refreshTokenHash
  origin : ∀ y ∈ c.store.sessions.rows, (∃ x ∈ s.sessions.rows, x.id = y.id) ∨
    ∃ i previous session, (i, .created previous session) ∈ c.trace ∧ session.id = y.id
  traded : ∀ i previous session, (i, .created (some previous) session) ∈ c.trace →
    ∃ x ∈ c.store.sessions.rows, x.id = previous ∧ x.revokedAt ≠ none
  once : ∀ i j previous a b, (i, .created (some previous) a) ∈ c.trace →
    (j, .created (some previous) b) ∈ c.trace → i = j ∧ a = b

theorem chained_begin (s : AuthDb) : Chained config calls s (begin config calls s) where
  calls i := (calls i).law config
  found := by simp [begin]
  origin y hy := .inl ⟨y, hy, rfl⟩
  traded := by simp [begin]
  once := by simp [begin]

variable {config calls}

theorem chained_advance {s : AuthDb} {c : AuthSystem ι} (h : Chained config calls s c) (k : ι) :
    Chained config calls s (c.advance k) := by
  obtain ⟨hlaw, hcalls⟩ := Config.follows_advance (L := fun _ _ => AuthLaw)
    (fun _ _ => authLaw_idle) h.calls k
  have htrace : ∀ i e, (i, e) ∈ (c.advance k).trace ↔
      (i, e) ∈ c.trace ∨ k = i ∧ e ∈ c.upcoming k := by
    intro i e
    rw [c.advance_trace, List.mem_append, List.mem_map]
    simp [and_comm]
  refine ⟨hcalls, fun i x hx => ?_, fun y hy => ?_, fun i previous session hcreated => ?_,
    fun i j previous a b ha hb => ?_⟩
  · have hbefore : ∃ y ∈ c.store.sessions.rows, y.id = x.id ∧
        y.refreshTokenHash = x.refreshTokenHash := by
      rcases (htrace i _).mp hx with hold | ⟨-, hnew⟩
      · exact h.found i x hold
      · exact ⟨x, hlaw.found x hnew, rfl, rfl⟩
    obtain ⟨y, hy, hid, hhash⟩ := hbefore
    obtain ⟨z, hz, hid', hhash', -⟩ := hlaw.kept y hy
    exact ⟨z, hz, hid'.trans hid, hhash'.trans hhash⟩
  · rcases hlaw.origin y hy with ⟨x, hx, hid⟩ | ⟨previous, hcreated⟩
    · rcases h.origin x hx with ⟨w, hw, hid'⟩ | ⟨i, previous, session, hold, hid'⟩
      · exact .inl ⟨w, hw, hid'.trans hid⟩
      · exact .inr ⟨i, previous, session, (htrace i _).mpr (.inl hold), hid'.trans hid⟩
    · exact .inr ⟨k, previous, y, (htrace k _).mpr (.inr ⟨rfl, hcreated⟩), rfl⟩
  · rcases (htrace i _).mp hcreated with hold | ⟨-, hnew⟩
    · obtain ⟨x, hx, hid, hrevoked⟩ := h.traded i previous session hold
      obtain ⟨y, hy, hid', -, hstays⟩ := hlaw.kept x hx
      exact ⟨y, hy, hid'.trans hid, hstays hrevoked⟩
    · exact (hlaw.traded previous session hnew).2
  · have hfresh : ∀ i x, (i, AuthEvent.created (some previous) x) ∈ c.trace →
        ∀ y, .created (some previous) y ∉ c.upcoming k := by
      intro i x hold y hnew
      obtain ⟨z, hz, hid, hrevoked⟩ := h.traded i previous x hold
      obtain ⟨w, hw, hid', hlive⟩ := (hlaw.traded previous y hnew).1
      rw [c.store.session_unique hz hw (hid.trans hid'.symm)] at hrevoked
      exact hrevoked hlive
    rcases (htrace i _).mp ha with hold | ⟨rfl, hnew⟩
    · rcases (htrace j _).mp hb with hold' | ⟨rfl, hnew'⟩
      · exact h.once i j previous a b hold hold'
      · exact absurd hnew' (hfresh i a hold b)
    · rcases (htrace j _).mp hb with hold' | ⟨rfl, hnew'⟩
      · exact absurd hnew (hfresh j b hold' a)
      · refine ⟨rfl, ?_⟩
        have hevents := (hlaw.created _ a hnew).1
        rw [hevents, List.mem_singleton] at hnew'
        cases hnew'
        rfl

theorem chained_run (s : AuthDb) (schedule : List ι) :
    Chained config calls s ((begin config calls s).run schedule) :=
  Config.invariant_run (I := Chained config calls s) (fun _ k h => chained_advance h k)
    (chained_begin config calls s) schedule

/-! ## What holds at all times -/

variable (config calls) in
/-- Of the refreshes that present one token at most one succeeds; who fails
creates no row; and in every chain of sessions at most one is active. -/
structure RotatesOnce (s : AuthDb) (c : AuthSystem ι) : Prop where
  winner : ∀ i j env env' token token' payload payload', calls i = .refresh env token →
    calls j = .refresh env' token' →
    config.hashRefreshToken token = config.hashRefreshToken token' →
    c.returned i = some (.ok payload) → c.returned j = some (.ok payload') → i = j
  loser : ∀ i e, c.returned i = some (.error e) →
    ∀ previous session, (i, .created previous session) ∉ c.trace
  origin : ∀ y ∈ c.store.sessions.rows, (∃ x ∈ s.sessions.rows, x.id = y.id) ∨
    ∃ i previous session, (i, .created previous session) ∈ c.trace ∧ session.id = y.id
  active : ∀ root now, ∀ a ∈ c.store.sessions.rows, ∀ b ∈ c.store.sessions.rows,
    Relation.ReflTransGen (Replaces c) root a.id → Relation.ReflTransGen (Replaces c) root b.id →
    a.isActive now = true → b.isActive now = true → a = b

/-- Two winners found sessions with the same hash, so they traded the same one. -/
theorem winner_unique {s : AuthDb} {c : AuthSystem ι} (h : Chained config calls s c) {i j : ι}
    {env env' : AuthEnv} {token token' : String} {payload payload' : Option AuthSessionPayload}
    (hi : calls i = .refresh env token) (hj : calls j = .refresh env' token')
    (hhash : config.hashRefreshToken token = config.hashRefreshToken token')
    (hwon : c.returned i = some (.ok payload)) (hwon' : c.returned j = some (.ok payload')) :
    i = j := by
  have houtcome := Config.returned_of_follows (h.calls i) hwon
  have houtcome' := Config.returned_of_follows (h.calls j) hwon'
  rw [hi] at houtcome
  rw [hj] at houtcome'
  obtain ⟨x, a, hfound, hx, hcreated⟩ := houtcome
  obtain ⟨y, b, hfound', hy, hcreated'⟩ := houtcome'
  obtain ⟨u, hu, huid, huhash⟩ := h.found i x (Config.mem_reported.mp hfound)
  obtain ⟨v, hv, hvid, hvhash⟩ := h.found j y (Config.mem_reported.mp hfound')
  have hsame : u = v := by
    refine c.store.session_unique_hash hu hv ?_
    rw [huhash, hvhash, hx, hy, hhash]
  have hid : x.id = y.id := by rw [← huid, ← hvid, hsame]
  rw [← hid] at hcreated'
  exact (h.once i j x.id a b (Config.mem_reported.mp hcreated)
    (Config.mem_reported.mp hcreated')).1

/-- A traded session is revoked, and it was traded once: of two sessions of a
chain one continues the other. -/
theorem active_unique {s : AuthDb} {c : AuthSystem ι} (h : Chained config calls s c) {root : Id}
    {now : Date} {a b : Session} (ha : a ∈ c.store.sessions.rows) (hb : b ∈ c.store.sessions.rows)
    (hroota : Relation.ReflTransGen (Replaces c) root a.id)
    (hrootb : Relation.ReflTransGen (Replaces c) root b.id) (hactive : a.isActive now = true)
    (hactive' : b.isActive now = true) : a = b := by
  have hlast : ∀ x ∈ c.store.sessions.rows, x.isActive now = true → ∀ y,
      Relation.ReflTransGen (Replaces c) x.id y → x.id = y := by
    intro x hx hx' y hxy
    rcases hxy.cases_head with heq | ⟨z, ⟨i, session, hcreated, -⟩, -⟩
    · exact heq
    · obtain ⟨w, hw, hid, hrevoked⟩ := h.traded i x.id session hcreated
      rw [c.store.session_unique hw hx hid] at hrevoked
      simp [Session.isActive, hrevoked] at hx'
  have hfunctional : Relator.RightUnique (Replaces c) := by
    rintro x y z ⟨i, u, hu, rfl⟩ ⟨j, v, hv, rfl⟩
    rw [(h.once i j x u v hu hv).2]
  rcases Relation.ReflTransGen.total_of_right_unique hfunctional hroota hrootb with hab | hba
  · exact c.store.session_unique ha hb (hlast a ha hactive _ hab)
  · exact (c.store.session_unique hb ha (hlast b hb hactive' _ hba)).symm

variable (config calls) in
theorem refresh_tokens_rotate_once (s : AuthDb) (schedule : List ι) :
    RotatesOnce config calls s ((begin config calls s).run schedule) := by
  have hchained : Chained config calls s ((begin config calls s).run schedule) :=
    chained_run s schedule
  refine ⟨fun i j env env' token token' payload payload' hi hj hhash hwon hwon' => ?_,
    fun i e hfailed previous session hcreated => ?_, hchained.origin,
    fun root now a ha b hb hroota hrootb => active_unique hchained ha hb hroota hrootb⟩
  · exact winner_unique hchained hi hj hhash hwon hwon'
  · have houtcome := Config.returned_of_follows (hchained.calls i) hfailed
    exact AuthCall.nothingCreated_of_error houtcome previous session
      (Config.mem_reported.mpr hcreated)

end system

end Feca.Auth
