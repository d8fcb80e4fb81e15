import Mathlib.Data.Fin.VecNotation
import Mathlib.Data.Fintype.Basic
import Feca.Cache.SingleFlight

/-! # Whose lock a release deletes

A lock expires after thirty seconds, and its holder deletes the key when it has
loaded, whoever has it by then. As long as nobody asks for a lock whose holder is
overdue, every holder deletes its own, and holders of one key load one at a time.
-/

namespace Feca.Cache

open Concurrency Concurrency.Prog

variable {ι ω φ α : Type}

/-- The moment the lock of a hold expires. -/
def Hold.expiresAt (hold : Hold) : Int := hold.acquiredAt + LOCK_TTL_SECONDS * 1000

/-- No release has deleted the lock of another call, and no two calls load as
holders of one key while the lock of either is unexpired. -/
structure LocksAreOwned (s : FlightStore ι ω) : Prop where
  released : ∀ i j, (i, some j) ∈ s.released → j = i
  exclusive : ∀ i j a b, s.holds i = some a → s.holds j = some b → a.lockKey = b.lockKey →
    s.now < a.expiresAt ∨ s.now < b.expiresAt → i = j

/-- The holders of the key, if any, are within the time their lock has. -/
def FlightStore.Punctual (s : FlightStore ι ω) (lockKey : String) : Prop :=
  ∀ j hold, s.holds j = some hold → hold.lockKey = lockKey → s.now < hold.expiresAt

/-- Nobody asks for a lock whose holder is overdue. -/
def AskedInTime (c : FlightConfig ι ω φ α) (i : ι) : Prop :=
  ∀ lockKey, .asked lockKey ∈ c.upcoming i → c.store.Punctual lockKey

/-! ## The invariant -/

/-- A lock is its holder's, one call at most holds a key, and a hold that has not
expired is the lock of its key. -/
structure Owned (s : FlightStore ι ω) : Prop where
  live : ∀ lockKey lock, s.liveLock lockKey = some lock →
    ∃ hold, s.holds lock.holder = some hold ∧ hold.lockKey = lockKey
  unique : ∀ i j a b, s.holds i = some a → s.holds j = some b → a.lockKey = b.lockKey → i = j
  held : ∀ i hold, s.holds i = some hold → s.now < hold.expiresAt →
    s.locks hold.lockKey = some ⟨i, hold.expiresAt⟩
  released : ∀ i j, (i, some j) ∈ s.released → j = i

theorem Owned.locksAreOwned {s : FlightStore ι ω} (h : Owned s) : LocksAreOwned s where
  released := h.released
  exclusive i j a b ha hb hkey _ := h.unique i j a b ha hb hkey

theorem owned_start (now : Int) (world : ω) : Owned (.start now world : FlightStore ι ω) where
  live := by simp [FlightStore.start, FlightStore.liveLock]
  unique := by simp [FlightStore.start]
  held := by simp [FlightStore.start]
  released := by simp [FlightStore.start]

theorem liveLock_some {s : FlightStore ι ω} {lockKey : String} {lock : Lock ι} :
    s.liveLock lockKey = some lock ↔ s.locks lockKey = some lock ∧ s.now < lock.expiresAt := by
  unfold FlightStore.liveLock
  rw [Option.filter_eq_some_iff, decide_eq_true_eq]

/-! ## What one statement does -/

/-- A statement that leaves the locks alone, time passing or not. -/
structure Unconcerned (s t : FlightStore ι ω) : Prop where
  locks : t.locks = s.locks
  holds : t.holds = s.holds
  released : t.released = s.released
  now : s.now ≤ t.now

theorem Owned.unconcerned {s t : FlightStore ι ω} (h : Owned s) (hst : Unconcerned s t) :
    Owned t where
  live lockKey lock hlock := by
    rw [liveLock_some, hst.locks] at hlock
    rw [hst.holds]
    apply h.live
    exact liveLock_some.mpr ⟨hlock.1, lt_of_le_of_lt hst.now hlock.2⟩
  unique := by
    rw [hst.holds]
    exact h.unique
  held i hold hhold hnow := by
    rw [hst.holds] at hhold
    rw [hst.locks]
    exact h.held i hold hhold (lt_of_le_of_lt hst.now hnow)
  released := by
    rw [hst.released]
    exact h.released

section locks

variable [DecidableEq ι]

/-- A lock that was free, and not overdue, passes to the call that asks for it. -/
theorem Owned.acquire {s : FlightStore ι ω} (h : Owned s) {i : ι} {lockKey : String}
    (hidle : s.holds i = none) (hfree : s.liveLock lockKey = none) (hpunctual : s.Punctual lockKey) :
    Owned (s.withLock i lockKey) := by
  have hnobody : ∀ j hold, s.holds j = some hold → hold.lockKey ≠ lockKey := by
    intro j hold hhold hkey
    have hnow := hpunctual j hold hhold hkey
    have hlock := h.held j hold hhold hnow
    rw [hkey] at hlock
    have hlive := liveLock_some.mpr ⟨hlock, hnow⟩
    rw [hfree] at hlive
    cases hlive
  constructor
  · intro key lock hlock
    rw [liveLock_some, s.withLock_locks, s.withLock_now] at hlock
    rw [s.withLock_holds]
    by_cases hkey : key = lockKey
    · subst hkey
      rw [Function.update_self] at hlock
      cases hlock.1
      exact ⟨_, Function.update_self _ _ _, rfl⟩
    · rw [Function.update_of_ne hkey] at hlock
      obtain ⟨hold, hhold, hholdKey⟩ := h.live key lock (liveLock_some.mpr hlock)
      have hne : lock.holder ≠ i := by
        intro heq
        rw [heq, hidle] at hhold
        cases hhold
      exact ⟨hold, by rw [Function.update_of_ne hne, hhold], hholdKey⟩
  · intro j k a b ha hb hab
    rw [s.withLock_holds] at ha hb
    by_cases hj : j = i
    · subst hj
      rw [Function.update_self] at ha
      cases ha
      by_cases hk : k = j
      · exact hk.symm
      · rw [Function.update_of_ne hk] at hb
        exact absurd hab.symm (hnobody k b hb)
    · rw [Function.update_of_ne hj] at ha
      by_cases hk : k = i
      · subst hk
        rw [Function.update_self] at hb
        cases hb
        exact absurd hab (hnobody j a ha)
      · rw [Function.update_of_ne hk] at hb
        exact h.unique j k a b ha hb hab
  · intro j hold hhold hnow
    rw [s.withLock_holds] at hhold
    rw [s.withLock_locks]
    by_cases hj : j = i
    · subst hj
      rw [Function.update_self] at hhold
      cases hhold
      exact Function.update_self _ _ _
    · rw [Function.update_of_ne hj] at hhold
      rw [Function.update_of_ne (hnobody j hold hhold)]
      exact h.held j hold hhold hnow
  · exact h.released

/-- The holder of a key deletes its own lock, or none. -/
theorem Owned.release {s : FlightStore ι ω} (h : Owned s) {i : ι} {hold : Hold}
    (hhold : s.holds i = some hold) :
    Owned (s.withoutLock i hold.lockKey) := by
  constructor
  · intro key lock hlock
    rw [liveLock_some, s.withoutLock_locks, s.withoutLock_now] at hlock
    rw [s.withoutLock_holds]
    by_cases hkey : key = hold.lockKey
    · rw [hkey, Function.update_self] at hlock
      cases hlock.1
    · rw [Function.update_of_ne hkey] at hlock
      obtain ⟨other, hother, hotherKey⟩ := h.live key lock (liveLock_some.mpr hlock)
      have hne : lock.holder ≠ i := by
        intro heq
        rw [heq, hhold] at hother
        cases hother
        exact hkey hotherKey.symm
      exact ⟨other, by rw [Function.update_of_ne hne, hother], hotherKey⟩
  · intro j k a b ha hb hab
    rw [s.withoutLock_holds] at ha hb
    have hj : j ≠ i := by
      intro heq
      rw [heq, Function.update_self] at ha
      cases ha
    have hk : k ≠ i := by
      intro heq
      rw [heq, Function.update_self] at hb
      cases hb
    rw [Function.update_of_ne hj] at ha
    rw [Function.update_of_ne hk] at hb
    exact h.unique j k a b ha hb hab
  · intro j other hother hnow
    rw [s.withoutLock_holds] at hother
    rw [s.withoutLock_locks]
    have hj : j ≠ i := by
      intro heq
      rw [heq, Function.update_self] at hother
      cases hother
    rw [Function.update_of_ne hj] at hother
    have hkey : other.lockKey ≠ hold.lockKey := fun heq =>
      hj (h.unique j i other hold hother hhold heq)
    rw [Function.update_of_ne hkey]
    exact h.held j other hother hnow
  · intro j k hjk
    rw [s.withoutLock_released] at hjk
    rcases List.mem_append.mp hjk with hold' | hnew
    · exact h.released j k hold'
    · obtain ⟨rfl, hdeleted⟩ := Prod.mk.inj (List.mem_singleton.mp hnew)
      obtain ⟨lock, hlock, rfl⟩ := Option.map_eq_some_iff.mp hdeleted.symm
      obtain ⟨other, hother, hotherKey⟩ := h.live _ lock hlock
      exact h.unique lock.holder j other hold hother hhold hotherKey

end locks

/-! ## What a call does -/

/-- Others do not touch the hold of a call, and all keep the invariant. -/
def holder (i : ι) : Duty (FlightStore ι ω) FlightEvent where
  rely s t := (Owned s → Owned t) ∧ t.holds i = s.holds i
  guar s t := (Owned s → Owned t) ∧ ∀ j, j ≠ i → t.holds j = s.holds j
  permits s es := ∀ lockKey, .asked lockKey ∈ es → s.Punctual lockKey
  refl _ := ⟨id, rfl⟩
  trans hst htu := ⟨htu.1 ∘ hst.1, htu.2.trans hst.2⟩

section calls

variable {s : FlightStore ι ω} {i : ι} {env : FlightEnv} {call : FlightCall ω φ α}

theorem abides_of_unconcerned {β : Type} {p : FlightProg ι ω φ β} {held : Option Hold}
    (hp : p.Always fun s t _ => Unconcerned s t) (hs : s.holds i = held) :
    p.Abides (holder i) (fun _ t => t.holds i = held) s := by
  have hstep : p.Always fun s t _ =>
      (holder i).guar s t ∧ (s.holds i = held → t.holds i = held) := by
    apply hp.mono
    intro s t _ hst
    refine ⟨⟨fun h => h.unconcerned hst, fun j _ => by rw [hst.holds]⟩, fun h => ?_⟩
    rw [hst.holds, h]
  apply hstep.abides
  · exact fun s t h hst => hst.2.trans h
  · exact hs

theorem Unconcerned.refl (s : FlightStore ι ω) : Unconcerned s s := ⟨rfl, rfl, rfl, le_refl _⟩

theorem unconcerned_query {β : Type} (read : FlightStore ι ω → β) :
    (query read : FlightProg ι ω φ β).Always fun s t _ => Unconcerned s t :=
  always_stmt fun s => .refl s

theorem unconcerned_onPart {β : Type} (p : Prog ω Empty φ β) :
    (p.onPart worldPart : FlightProg ι ω φ β).Always fun s t _ => Unconcerned s t :=
  always_onPart p fun _ _ => ⟨rfl, rfl, rfl, le_refl _⟩

theorem unconcerned_delay (ms : Int) :
    (delay ms : FlightProg ι ω φ Unit).Always fun s t _ => Unconcerned s t := by
  apply always_bind (unconcerned_query _)
  intro start
  exact always_stmt fun s => ⟨rfl, rfl, rfl, le_max_left _ _⟩

theorem unconcerned_joinLocal (process key : String) :
    (joinLocal process key : FlightProg ι ω φ Bool).Always fun s t _ => Unconcerned s t := by
  apply always_stmt
  intro s
  by_cases h : s.localInflight process key = true
  · rw [if_pos h]
    exact .refl s
  · rw [if_neg h]
    exact ⟨rfl, rfl, rfl, le_refl _⟩

theorem unconcerned_leaveLocal (process key : String) :
    (leaveLocal process key : FlightProg ι ω φ Unit).Always fun s t _ => Unconcerned s t :=
  always_stmt fun _ => ⟨rfl, rfl, rfl, le_refl _⟩

theorem abides_rethrow {held : Option Hold} (r : Except φ α) (hs : s.holds i = held) :
    (rethrow r : FlightProg ι ω φ α).Abides (holder i) (fun _ t => t.holds i = held) s := by
  cases r with
  | ok a => exact hs
  | error e => exact hs

/-- Sequencing, where both halves leave the hold of the call as it was. -/
theorem abides_then {β γ : Type} {p : FlightProg ι ω φ β} {k : β → FlightProg ι ω φ γ}
    {held held' : Option Hold} (hp : p.Abides (holder i) (fun _ t => t.holds i = held) s)
    (hk : ∀ b t, t.holds i = held → (k b).Abides (holder i) (fun _ t => t.holds i = held') t)
    (herror : held = held') :
    (p >>= k).Abides (holder i) (fun _ t => t.holds i = held') s := by
  apply abides_bind
  apply hp.mono
  intro r t ht
  cases r with
  | ok b => exact hk b t ht
  | error e => exact herror ▸ ht

theorem abides_load {held : Option Hold} (hs : s.holds i = held) :
    (load call : FlightProg ι ω φ α).Abides (holder i) (fun _ t => t.holds i = held) s :=
  abides_of_unconcerned (unconcerned_onPart _) hs

theorem abides_waitForLeader {readCached : Prog ω Empty φ (Option α)} {deadline : Int}
    {again : FlightProg ι ω φ α} (hs : s.holds i = none)
    (hagain : ∀ t : FlightStore ι ω, t.holds i = none →
      again.Abides (holder i) (fun _ t => t.holds i = none) t) (rounds : Nat) :
    (waitForLeader env call readCached deadline again rounds).Abides (holder i)
      (fun _ t => t.holds i = none) s := by
  induction rounds generalizing s with
  | zero => exact abides_load hs
  | succ rounds ih =>
      unfold waitForLeader
      apply abides_then (abides_of_unconcerned (unconcerned_query _) hs) _ rfl
      intro now t ht
      by_cases hnow : now < deadline
      · rw [if_pos hnow]
        apply abides_then (abides_of_unconcerned (unconcerned_onPart _) ht) _ rfl
        intro cached u hu
        cases cached with
        | some cached => exact hu
        | none =>
            apply abides_then (abides_of_unconcerned (unconcerned_query _) hu) _ rfl
            intro held v hv
            cases held with
            | true =>
                apply abides_then (abides_of_unconcerned (unconcerned_delay _) hv) _ rfl
                exact fun _ _ hw => ih hw
            | false => exact hagain v hv
      · rw [if_neg hnow]
        exact abides_load ht

variable [DecidableEq ι]

/-- Whatever the load comes to, the holder gives its lock up. -/
theorem abides_loadAsHolder {hold : Hold} (hs : s.holds i = some hold)
    (hkey : hold.lockKey = buildLockKey env call.key) :
    (loadAsHolder env call i).Abides (holder i) (fun _ t => t.holds i = none) s := by
  unfold loadAsHolder
  apply abides_bind
  apply abides_attempt
  apply (abides_load hs).mono
  intro result t ht
  apply abides_bind
  apply abides_stmt
  intro u htu _
  have hu : u.holds i = some hold := htu.2.trans ht
  rw [← hkey]
  refine ⟨⟨fun h => h.release hu, fun j hj => Function.update_of_ne hj _ _⟩, ?_⟩
  exact abides_rethrow result (Function.update_self _ _ _)

theorem abides_runWithOptionalRedis (hs : s.holds i = none) (attempts : Nat) :
    (runWithOptionalRedis env call i attempts).Abides (holder i) (fun _ t => t.holds i = none)
      s := by
  induction attempts generalizing s with
  | zero => exact abides_load hs
  | succ attempts ih =>
      unfold runWithOptionalRedis
      by_cases hredis : env.redis = true
      · rw [if_pos hredis]
        apply abides_bind
        apply abides_stmt
        intro t hst hpermits
        have ht : t.holds i = none := hst.2.trans hs
        cases hlock : t.liveLock (buildLockKey env call.key) with
        | some lock =>
            refine ⟨⟨id, fun _ _ => rfl⟩, ?_⟩
            dsimp only
            cases call.readCached with
            | none => exact abides_load ht
            | some readCached =>
                apply abides_then (abides_of_unconcerned (unconcerned_query _) ht) _ rfl
                exact fun now u hu => abides_waitForLeader hu (fun _ hv => ih hv) waitRounds
        | none =>
            rw [hlock] at hpermits
            have hpunctual := hpermits _ List.mem_cons_self
            refine ⟨⟨fun h => h.acquire ht hlock hpunctual,
              fun j hj => Function.update_of_ne hj _ _⟩, ?_⟩
            exact abides_loadAsHolder (Function.update_self _ _ _) rfl
      · rw [if_neg hredis]
        exact abides_load hs

theorem abides_run (hs : s.holds i = none) :
    (run env call i).Abides (holder i) (fun _ t => t.holds i = none) s := by
  unfold run
  apply abides_then (abides_of_unconcerned (unconcerned_joinLocal _ _) hs) _ rfl
  intro joined t ht
  cases joined with
  | true => exact ht
  | false =>
      apply abides_bind
      apply abides_attempt
      apply (abides_runWithOptionalRedis ht 4).mono
      intro result u hu
      apply abides_then (abides_of_unconcerned (unconcerned_leaveLocal _ _) hu) _ rfl
      intro _ v hv
      apply abides_then (abides_rethrow result hv) _ rfl
      exact fun _ _ hw => hw

theorem abides_prog (participant : Participant ω φ α) (hs : s.holds i = none) :
    (participant.prog env i).Abides (holder i) (fun _ t => t.holds i = none) s := by
  cases participant with
  | flight call =>
      apply abides_then (abides_run hs) _ rfl
      exact fun _ _ ht => ht
  | clock ms =>
      apply abides_of_unconcerned _ hs
      apply always_stmt
      intro t
      have hnow : t.now ≤ t.now + ms := by omega
      exact ⟨rfl, rfl, rfl, hnow⟩

end calls

/-! ## Runs -/

variable [DecidableEq ι]

/-- In every run in which nobody asks for the lock of an overdue holder, locks are
deleted by their holders alone, and no key has two of them. -/
theorem locks_owned_of_askedInTime (env : FlightEnv) (participants : ι → Participant ω φ α)
    (now : Int) (world : ω) (schedule : List ι)
    (heeds : Config.Heeds AskedInTime (begin env participants now world) schedule) :
    LocksAreOwned ((begin env participants now world).run schedule).store := by
  have hcalls : ∀ i, ((begin env participants now world).calls i).Abides (holder i)
      (fun _ t => t.holds i = none) (begin env participants now world).store :=
    fun i => abides_prog (participants i) rfl
  have hstep : ∀ (c : FlightConfig ι ω φ α) (i : ι),
      (Owned c.store ∧ ∀ j, (c.calls j).Abides (holder j) (fun _ t => t.holds j = none) c.store) →
      AskedInTime c i → Owned (c.advance i).store ∧ ∀ j, ((c.advance i).calls j).Abides (holder j)
        (fun _ t => t.holds j = none) (c.advance i).store := by
    intro c i hc hasked
    have hmoved := Config.abides_advance (D := holder) (Q := fun j _ t => t.holds j = none)
      (fun i j hj s t hguar => ⟨hguar.1, hguar.2 j hj⟩)
      (fun j _ s t hs hrely => hrely.2.trans hs) hc.2 hasked
    refine ⟨?_, hmoved⟩
    exact (Config.guar_advance hc.2 hasked ⟨id, fun _ _ => rfl⟩).1 hc.1
  have hrun := Config.invariant_of_heeds hstep ⟨owned_start now world, hcalls⟩ heeds
  exact hrun.1.locksAreOwned

/-! ### Checking a schedule -/

instance [Fintype ι] (s : FlightStore ι ω) (lockKey : String) : Decidable (s.Punctual lockKey) :=
  decidable_of_iff (∀ j, ∀ hold ∈ s.holds j, hold.lockKey = lockKey → s.now < hold.expiresAt)
    Iff.rfl

def FlightEvent.key : FlightEvent → String
  | .asked lockKey => lockKey

instance [Fintype ι] (c : FlightConfig ι ω φ α) (i : ι) : Decidable (AskedInTime c i) := by
  apply decidable_of_iff (∀ e ∈ c.upcoming i, c.store.Punctual e.key)
  constructor
  · exact fun h lockKey hasked => h (.asked lockKey) hasked
  · exact fun h e he => h e.key he

def aFlightEnv : FlightEnv := ⟨true, fun key => key⟩

/-- A load that takes one statement. -/
def aLoad : Prog Unit Empty Unit Nat := .step (fun s => (s, [])) fun _ => .done 7

def inProcess (process : String) : Participant Unit Unit Nat :=
  .flight { process, key := "places", load := aLoad }

/-- Three processes, and thirty seconds that pass. -/
def threeProcesses : Fin 4 → Participant Unit Unit Nat :=
  ![inProcess "a", inProcess "b", inProcess "c", .clock 30000]

/-- One after the other, both in time. -/
theorem punctual_holders_own_locks : LocksAreOwned
    ((begin aFlightEnv threeProcesses 0 ()).run [0, 0, 0, 0, 3, 1, 1, 2, 2, 1, 1]).store :=
  locks_owned_of_askedInTime aFlightEnv threeProcesses 0 () [0, 0, 0, 0, 3, 1, 1, 2, 2, 1, 1]
    (by decide)

/-- The first process loads for thirty seconds. By then the second one has the
lock, the first one deletes it, and the third one gets it too. -/
theorem overdue_holder_deletes_next_lock :
    let s := ((begin aFlightEnv threeProcesses 0 ()).run [0, 0, 3, 1, 1, 0, 0, 2, 2]).store
    ¬ LocksAreOwned s ∧ (0, some 1) ∈ s.released ∧ s.now = 30000 ∧
      s.holds 1 = some ⟨"feca:sf:lock:places", 30000⟩ ∧
      s.holds 2 = some ⟨"feca:sf:lock:places", 30000⟩ := by
  intro s
  have hdeleted : (0, some 1) ∈ s.released := by decide
  refine ⟨?_, hdeleted, by decide, by decide, by decide⟩
  intro howned
  have hsame := howned.released 0 1 hdeleted
  cases hsame

end Feca.Cache
