import Feca.Cache.SingleFlight
import Feca.Concurrency.Fairness
import Mathlib.Data.Fin.VecNotation

/-! # Values from Google, cached

`PlacesGoogleCacheService.getCachedGoogleValue`: what is not in the cache is loaded
by one process, and the others wait for it to be there.
-/

namespace Feca.Places

open Concurrency Concurrency.Prog Cache

/-- What `cacheManager.get` answers for a key it does not have is up to its version:
`null` or `undefined`. -/
structure CacheManager where
  absentIsNull : Bool
  deriving DecidableEq, Repr

/-- The cache, and the rest of the world `ρ` that loads read and write. A value of
the callers' type is there or `null`. -/
structure CacheWorld (ι ρ V : Type) where
  cache : String → Option (Option V)
  /-- Who has called its `load`. -/
  loaded : List ι
  rest : ρ

variable {ι ρ φ V : Type}

abbrev CacheProg (ι ρ V φ : Type) := Prog (CacheWorld ι ρ V) Empty φ

def restPart : Part (CacheWorld ι ρ V) ρ where
  get s := s.rest
  set rest s := { s with rest }
  get_set _ _ := rfl

/-- The options of a call, and the process it runs in. How long the value is kept is
up to the run. -/
structure GoogleLookup (ρ φ V : Type) where
  process : String
  cacheKey : String
  allowNull : Bool := false
  load : Prog ρ Empty φ (Option V)

/-- `undefined`, `null` or a value. -/
def CacheWorld.read (s : CacheWorld ι ρ V) (manager : CacheManager) (key : String) :
    Option (Option V) :=
  match s.cache key with
  | some value => some value
  | none => if manager.absentIsNull then some none else none

def cacheGet (manager : CacheManager) (key : String) : CacheProg ι ρ V φ (Option (Option V)) :=
  query (·.read manager key)

def cacheSet (key : String) (value : Option V) : CacheProg ι ρ V φ Unit :=
  stmt fun s => ⟨{ s with cache := Function.update s.cache key (some value) }, [], .ok ()⟩

def callLoad (self : ι) : CacheProg ι ρ V φ Unit :=
  stmt fun s => ⟨{ s with loaded := s.loaded ++ [self] }, [], .ok ()⟩

/-- `cached === null || typeof cached === "undefined" ? undefined : cached`. -/
def readCached (manager : CacheManager) (key : String) :
    CacheProg ι ρ V φ (Option (Option V)) := do
  let cached ← cacheGet manager key
  pure (cached.filter (·.isSome))

def loadAndStore (self : ι) (options : GoogleLookup ρ φ V) : CacheProg ι ρ V φ (Option V) := do
  callLoad self
  let value ← options.load.onPart restPart
  cacheSet options.cacheKey value
  pure value

/-- `runSingleFlight`. -/
def singleFlightCall (manager : CacheManager) (self : ι) (options : GoogleLookup ρ φ V) :
    FlightCall (CacheWorld ι ρ V) φ (Option V) where
  process := options.process
  key := options.cacheKey
  load := loadAndStore self options
  readCached := some (readCached manager options.cacheKey)

section service

variable [DecidableEq ι] (env : FlightEnv) (manager : CacheManager)

def getCachedGoogleValue (self : ι) (options : GoogleLookup ρ φ V) :
    FlightProg ι (CacheWorld ι ρ V) φ (Flight (Option V)) := do
  let cached ← (cacheGet manager options.cacheKey).onPart worldPart
  match cached.filter fun value => options.allowNull || value.isSome with
  | some value => pure (.settled value)
  | none => Cache.run env (singleFlightCall manager self options) self

/-- Who takes part in a run: lookups, time, and the cache, which forgets. -/
inductive CacheParticipant (ρ φ V : Type)
  | lookup (options : GoogleLookup ρ φ V)
  | clock (ms : Nat)
  | expire (key : String)

def CacheParticipant.prog (self : ι) :
    CacheParticipant ρ φ V → FlightProg ι (CacheWorld ι ρ V) φ (Option (Flight (Option V)))
  | .lookup options => some <$> getCachedGoogleValue env manager self options
  | .clock ms => stmt fun s => ⟨{ s with now := s.now + ms }, [], .ok none⟩
  | .expire key => stmt fun s =>
      let cache := Function.update s.world.cache key none
      ⟨{ s with world := { s.world with cache } }, [], .ok none⟩

abbrev CacheConfig (ι ρ V φ : Type) := FlightConfig ι (CacheWorld ι ρ V) φ (Option V)

/-- Nobody has called yet. -/
def beginLookups (participants : ι → CacheParticipant ρ φ V) (now : Int)
    (cache : String → Option (Option V)) (rest : ρ) : CacheConfig ι ρ V φ :=
  ⟨.start now ⟨cache, [], rest⟩, fun i => (participants i).prog env manager i, []⟩

end service

/-! ## What a waiting call may count on -/

section statements

variable (env : FlightEnv) (manager : CacheManager) (participants : ι → CacheParticipant ρ φ V)
  (w : ι) (options : GoogleLookup ρ φ V) (value : Option V)

def Stored (s : FlightStore ι (CacheWorld ι ρ V)) : Prop :=
  s.world.cache options.cacheKey = some value

def Locked (s : FlightStore ι (CacheWorld ι ρ V)) : Prop :=
  (s.liveLock (buildLockKey env options.cacheKey)).isSome = true

/-- Whoever loads holds its lock, unexpired, until the value is stored, and stored the
value stays: what is asked of the run while the call lasts. -/
def Served [DecidableEq ι] (c : CacheConfig ι ρ V φ) (i : ι) : Prop :=
  c.running w = true →
    (i = w → Stored options value c.store ∨
      c.store.world.cache options.cacheKey = none ∧ Locked env options c.store) ∧
    (Stored options value c.store → Stored options value (c.advance i).store)

/-- The call began at `since`. Unless it finds the value stored, `null` is what it takes
for a hit if and only if `null` is what will be stored; the lock it asks for is held;
and its thirty seconds are not over. -/
structure Waits (since : Int) (s : FlightStore ι (CacheWorld ι ρ V))
    (upcoming : List FlightEvent) : Prop where
  hit : Stored options value s ∨
    (value = none ↔ options.allowNull = true ∧ manager.absentIsNull = true)
  asks : .asked (buildLockKey env options.cacheKey) ∈ upcoming → Locked env options s
  inTime : s.now < since + MAX_WAIT_MS

def WaitsWell (since : Int) (c : CacheConfig ι ρ V φ) (i : ι) : Prop :=
  i = w → c.running w = true → Waits env manager options value since c.store (c.upcoming w)

/-- Another call for the key in the same process. -/
def HasCompany : Prop :=
  ∃ j, j ≠ w ∧ ∃ other, participants j = .lookup other ∧
    other.process = options.process ∧ other.cacheKey = options.cacheKey

/-- The call returns the value, unless it gets what another call of its process gets. -/
def Reuses (r : Option (Flight (Option V))) : Prop :=
  r = some (.settled value) ∨ r = some .joined ∧ HasCompany participants w options

end statements

/-! ## What the others do -/

section others

variable {participants : ι → CacheParticipant ρ φ V} {w : ι} {options : GoogleLookup ρ φ V}

/-- Nobody else loads in the name of the call, nor on its own in its process. -/
structure Elsewhere (participants : ι → CacheParticipant ρ φ V) (w : ι)
    (options : GoogleLookup ρ φ V) (s t : FlightStore ι (CacheWorld ι ρ V)) : Prop where
  now : s.now ≤ t.now
  loaded : w ∉ s.world.loaded → w ∉ t.world.loaded
  inflight : ¬ HasCompany participants w options →
    t.localInflight options.process options.cacheKey =
      s.localInflight options.process options.cacheKey

theorem Elsewhere.refl (s : FlightStore ι (CacheWorld ι ρ V)) :
    Elsewhere participants w options s s := ⟨le_refl _, id, fun _ => rfl⟩

theorem Elsewhere.trans {s t u : FlightStore ι (CacheWorld ι ρ V)}
    (hst : Elsewhere participants w options s t) (htu : Elsewhere participants w options t u) :
    Elsewhere participants w options s u :=
  ⟨hst.now.trans htu.now, htu.loaded ∘ hst.loaded, fun h => (htu.inflight h).trans (hst.inflight h)⟩

/-- A statement of a program that does not touch the world nor the promises. -/
theorem elsewhere_stmt {β : Type}
    {f : FlightStore ι (CacheWorld ι ρ V) →
      Answer (FlightStore ι (CacheWorld ι ρ V)) FlightEvent φ β}
    (h : ∀ s, s.now ≤ (f s).store.now ∧ (f s).store.world.loaded = s.world.loaded ∧
      (f s).store.localInflight = s.localInflight) :
    (stmt f).Always fun s t _ => Elsewhere participants w options s t := by
  apply always_stmt
  intro s
  obtain ⟨hnow, hworld, hinflight⟩ := h s
  exact ⟨hnow, fun hw => hworld ▸ hw, fun _ => by rw [hinflight]⟩

theorem elsewhere_query {β : Type} (read : FlightStore ι (CacheWorld ι ρ V) → β) :
    (query read : FlightProg ι (CacheWorld ι ρ V) φ β).Always fun s t _ =>
      Elsewhere participants w options s t :=
  always_stmt fun s => .refl s

theorem elsewhere_delay (ms : Int) :
    (delay ms : FlightProg ι (CacheWorld ι ρ V) φ Unit).Always fun s t _ =>
      Elsewhere participants w options s t := by
  apply always_bind (elsewhere_query _)
  intro start
  exact elsewhere_stmt fun s => ⟨le_max_left _ _, rfl, rfl⟩

theorem elsewhere_onPart {β : Type} {p : CacheProg ι ρ V φ β}
    (hp : p.Always fun s t _ => w ∉ s.loaded → w ∉ t.loaded) :
    (p.onPart worldPart : FlightProg ι (CacheWorld ι ρ V) φ β).Always fun s t _ =>
      Elsewhere participants w options s t :=
  hp.onPart fun _ _ _ h => ⟨le_refl _, h, fun _ => rfl⟩

theorem elsewhere_rethrow {β : Type} (r : Except φ β) :
    (rethrow r : FlightProg ι (CacheWorld ι ρ V) φ β).Always fun s t _ =>
      Elsewhere participants w options s t := by
  cases r with
  | ok a => trivial
  | error e => trivial

theorem elsewhere_setInflight {j : ι} {other : GoogleLookup ρ φ V} (hj : j ≠ w)
    (hlookup : participants j = .lookup other) (s : FlightStore ι (CacheWorld ι ρ V))
    (inflight : Bool) :
    Elsewhere participants w options s
      (s.setInflight other.process other.cacheKey inflight) := by
  refine ⟨le_refl _, id, fun halone => ?_⟩
  show Function.update s.localInflight other.process
    (Function.update (s.localInflight other.process) other.cacheKey inflight) options.process
      options.cacheKey = _
  by_cases hprocess : other.process = options.process
  · rw [hprocess, Function.update_self, Function.update_of_ne]
    intro hkey
    exact halone ⟨j, hj, other, hlookup, hprocess, hkey.symm⟩
  · rw [Function.update_of_ne (Ne.symm hprocess)]

theorem keeps_loadAndStore {j : ι} (hj : j ≠ w) (other : GoogleLookup ρ φ V) :
    (loadAndStore j other).Always fun s t _ => w ∉ s.loaded → w ∉ t.loaded := by
  unfold loadAndStore
  apply always_bind
  · apply always_stmt
    intro s hw hmem
    rcases List.mem_append.mp hmem with hmem | hmem
    · exact hw hmem
    · exact hj (List.mem_singleton.mp hmem).symm
  · intro _
    apply always_bind (always_onPart _ fun _ _ => id)
    exact fun value => always_bind (always_stmt fun _ => id) fun _ => trivial

end others

section otherCalls

variable {participants : ι → CacheParticipant ρ φ V} {w j : ι} {options other : GoogleLookup ρ φ V}
  {env : FlightEnv} {manager : CacheManager}

theorem elsewhere_load (hj : j ≠ w) :
    (load (singleFlightCall manager j other) :
      FlightProg ι (CacheWorld ι ρ V) φ (Option V)).Always fun s t _ =>
        Elsewhere participants w options s t :=
  elsewhere_onPart (keeps_loadAndStore hj other)

theorem elsewhere_waitForLeader (hj : j ≠ w) {deadline : Int}
    {again : FlightProg ι (CacheWorld ι ρ V) φ (Option V)}
    (hagain : again.Always fun s t _ => Elsewhere participants w options s t) (rounds : Nat) :
    (waitForLeader env (singleFlightCall manager j other)
      (readCached manager other.cacheKey) deadline again rounds).Always fun s t _ =>
        Elsewhere participants w options s t := by
  induction rounds with
  | zero => exact elsewhere_load hj
  | succ rounds ih =>
      unfold waitForLeader
      apply always_bind (elsewhere_query _)
      intro now
      split
      · apply always_bind
        · exact elsewhere_onPart (always_bind (always_stmt fun _ => id) fun _ => trivial)
        · intro cached
          cases cached with
          | some cached => trivial
          | none =>
              apply always_bind (elsewhere_query _)
              intro held
              split
              · exact always_bind (elsewhere_delay _) fun _ => ih
              · exact hagain
      · exact elsewhere_load hj

variable [DecidableEq ι]

theorem elsewhere_runWithOptionalRedis (hj : j ≠ w) (attempts : Nat) :
    (runWithOptionalRedis env (singleFlightCall manager j other) j attempts).Always fun s t _ =>
      Elsewhere participants w options s t := by
  induction attempts with
  | zero => exact elsewhere_load hj
  | succ attempts ih =>
      unfold runWithOptionalRedis
      split
      · apply always_bind
        · apply elsewhere_stmt
          intro s
          split
          · exact ⟨le_refl _, rfl, rfl⟩
          · exact ⟨le_refl _, rfl, rfl⟩
        · intro acquired
          split
          · unfold loadAsHolder
            apply always_bind (always_attempt (elsewhere_load hj))
            intro result
            apply always_bind
            · exact elsewhere_stmt fun s => ⟨le_refl _, rfl, rfl⟩
            · exact fun _ => elsewhere_rethrow result
          · apply always_bind (elsewhere_query _)
            exact fun now => elsewhere_waitForLeader hj ih waitRounds
      · exact elsewhere_load hj

theorem elsewhere_run (hj : j ≠ w) (hlookup : participants j = .lookup other) :
    (Cache.run env (singleFlightCall manager j other) j).Always fun s t _ =>
      Elsewhere participants w options s t := by
  unfold Cache.run
  apply always_bind
  · apply always_stmt
    intro s
    split
    · exact .refl s
    · exact elsewhere_setInflight hj hlookup s true
  · intro joined
    split
    · trivial
    · apply always_bind (always_attempt (elsewhere_runWithOptionalRedis hj 4))
      intro result
      apply always_bind
      · exact always_stmt fun s => elsewhere_setInflight hj hlookup s false
      · exact fun _ => always_map _ (elsewhere_rethrow result)

theorem elsewhere_prog (hj : j ≠ w) :
    ((participants j).prog env manager j).Always fun s t _ =>
      Elsewhere participants w options s t := by
  cases hlookup : participants j with
  | lookup other =>
      apply always_map
      unfold getCachedGoogleValue
      apply always_bind
      · exact elsewhere_onPart (always_stmt fun _ => id)
      · intro cached
        split
        · trivial
        · exact elsewhere_run hj hlookup
  | clock ms => exact elsewhere_stmt fun s => ⟨by dsimp only; omega, rfl, rfl⟩
  | expire key => exact elsewhere_stmt fun s => ⟨le_refl _, rfl, rfl⟩

end otherCalls

/-! ## What the call does -/

/-- What the call relies on between two of its statements, and where it may take the
next one. -/
def waiting (env : FlightEnv) (manager : CacheManager) (participants : ι → CacheParticipant ρ φ V)
    (w : ι) (options : GoogleLookup ρ φ V) (value : Option V) (since : Int) :
    Duty (FlightStore ι (CacheWorld ι ρ V)) FlightEvent where
  rely s t := Elsewhere participants w options s t ∧
    (Stored options value s → Stored options value t)
  guar s t := w ∉ s.world.loaded → w ∉ t.world.loaded
  permits s upcoming := Waits env manager options value since s upcoming ∧
    (Stored options value s ∨ s.world.cache options.cacheKey = none ∧ Locked env options s)
  refl s := ⟨.refl s, id⟩
  trans hst htu := ⟨hst.1.trans htu.1, htu.2 ∘ hst.2⟩

theorem CacheWorld.read_of_some {s : CacheWorld ι ρ V} {manager : CacheManager} {key : String}
    {value : Option V} (h : s.cache key = some value) : s.read manager key = some value := by
  rw [read, h]

theorem CacheWorld.read_of_none {s : CacheWorld ι ρ V} {manager : CacheManager} {key : String}
    (h : s.cache key = none) :
    s.read manager key = if manager.absentIsNull then some none else none := by
  rw [read, h]

/-- Absent or `null`, a poll does not find it. -/
theorem CacheWorld.poll_of_none {s : CacheWorld ι ρ V} {manager : CacheManager} {key : String}
    (h : s.cache key = none) : (s.read manager key).filter (·.isSome) = none := by
  rw [read_of_none h]
  split <;> rfl

section call

variable {env : FlightEnv} {manager : CacheManager} {participants : ι → CacheParticipant ρ φ V}
  {w : ι} {options : GoogleLookup ρ φ V} {value : Option V} {since : Int}
  {s : FlightStore ι (CacheWorld ι ρ V)}

/-- Before its end the call has not loaded. -/
structure NotLoaded (w : ι) (since : Int) (s : FlightStore ι (CacheWorld ι ρ V)) : Prop where
  loaded : w ∉ s.world.loaded
  since : since ≤ s.now

theorem NotLoaded.rely {t : FlightStore ι (CacheWorld ι ρ V)} (hs : NotLoaded w since s)
    (hst : Elsewhere participants w options s t) : NotLoaded w since t :=
  ⟨hst.loaded hs.loaded, hs.since.trans hst.now⟩

/-- A call that is late is not permitted to go on. -/
theorem abides_late {β : Type} {p : FlightProg ι (CacheWorld ι ρ V) φ β}
    {Q : Except φ β → FlightStore ι (CacheWorld ι ρ V) → Prop}
    (hstep : ∃ exec next, p = .step exec next) (hlate : since + MAX_WAIT_MS ≤ s.now) :
    p.Abides (waiting env manager participants w options value since) Q s := by
  obtain ⟨exec, next, rfl⟩ := hstep
  intro t hst hpermits
  have hnow := hst.1.now
  have hinTime := hpermits.1.inTime
  omega

theorem abides_query {β : Type} {read : FlightStore ι (CacheWorld ι ρ V) → β}
    {Q : Except φ β → FlightStore ι (CacheWorld ι ρ V) → Prop}
    (h : ∀ t, (waiting env manager participants w options value since).rely s t →
      (waiting env manager participants w options value since).permits t [] → Q (.ok (read t)) t) :
    (query read : FlightProg ι (CacheWorld ι ρ V) φ β).Abides
      (waiting env manager participants w options value since) Q s :=
  abides_stmt fun t hst hpermits => ⟨id, h t hst hpermits⟩

theorem abides_readCached
    {Q : Except φ (Option (Option V)) → FlightStore ι (CacheWorld ι ρ V) → Prop}
    (h : ∀ t, (waiting env manager participants w options value since).rely s t →
      (waiting env manager participants w options value since).permits t [] →
      Q (.ok ((t.world.read manager options.cacheKey).filter (·.isSome))) t) :
    ((readCached manager options.cacheKey).onPart worldPart :
      FlightProg ι (CacheWorld ι ρ V) φ (Option (Option V))).Abides
        (waiting env manager participants w options value since) Q s :=
  fun t hst hpermits => ⟨id, h t hst hpermits⟩

variable {v : V} {Q : Except φ (Option V) → FlightStore ι (CacheWorld ι ρ V) → Prop}

/-- A round of the poll loop that finds the value ends the wait. -/
theorem abides_poll_stored {deadline : Int}
    {again : FlightProg ι (CacheWorld ι ρ V) φ (Option V)} (rounds : Nat)
    (hdeadline : since + MAX_WAIT_MS ≤ deadline) (hs : NotLoaded w since s)
    (hstored : Stored options (some v) s)
    (hQ : ∀ t, NotLoaded w since t → Q (.ok (some v)) t) :
    (waitForLeader env (singleFlightCall manager w options) (readCached manager options.cacheKey)
      deadline again (rounds + 1)).Abides
        (waiting env manager participants w options (some v) since) Q s := by
  unfold waitForLeader
  apply abides_bind
  apply abides_query
  intro t hst hpermits
  dsimp only
  have hinTime := hpermits.1.inTime
  rw [if_pos (by omega)]
  apply abides_bind
  apply abides_readCached
  intro u htu _
  have hfound : Stored options (some v) u := htu.2 (hst.2 hstored)
  rw [CacheWorld.read_of_some hfound]
  exact hQ u ((hs.rely hst.1).rely htu.1)

variable [DecidableEq ι]

/-- The lock the call asks for is not free: it goes on to wait. -/
theorem abides_ask (hredis : env.redis = true) (attempts : Nat) (hs : NotLoaded w since s)
    (h : ∀ t, NotLoaded w since t → (Stored options value s → Stored options value t) →
      (waitForLeader env (singleFlightCall manager w options)
        (readCached manager options.cacheKey) (t.now + MAX_WAIT_MS)
        (runWithOptionalRedis env (singleFlightCall manager w options) w attempts)
        waitRounds).Abides (waiting env manager participants w options value since) Q t) :
    (runWithOptionalRedis env (singleFlightCall manager w options) w (attempts + 1)).Abides
      (waiting env manager participants w options value since) Q s := by
  unfold runWithOptionalRedis
  rw [if_pos hredis]
  apply abides_bind
  apply abides_stmt
  intro t hst hpermits
  cases hlock : t.liveLock (buildLockKey env (singleFlightCall manager w options).key) with
  | none =>
      rw [hlock] at hpermits
      have hlocked : (t.liveLock (buildLockKey env options.cacheKey)).isSome = true :=
        hpermits.1.asks List.mem_cons_self
      rw [show t.liveLock (buildLockKey env options.cacheKey) = none from hlock] at hlocked
      cases hlocked
  | some lock =>
      refine ⟨id, ?_⟩
      apply abides_bind
      apply abides_query
      intro u htu _
      exact h u ((hs.rely hst.1).rely htu.1) (htu.2 ∘ hst.2)

/-- A call that asks once the value is stored finds it at its first poll. -/
theorem abides_ask_stored (hredis : env.redis = true) (attempts : Nat) (hs : NotLoaded w since s)
    (hstored : Stored options (some v) s) (hQ : ∀ t, NotLoaded w since t → Q (.ok (some v)) t) :
    (runWithOptionalRedis env (singleFlightCall manager w options) w (attempts + 1)).Abides
      (waiting env manager participants w options (some v) since) Q s := by
  apply abides_ask hredis attempts hs
  intro t ht hkept
  have hdeadline : since + MAX_WAIT_MS ≤ t.now + MAX_WAIT_MS := by
    have := ht.since
    omega
  exact abides_poll_stored 599 hdeadline ht (hkept hstored) hQ

/-- The loop ends with the value before its rounds do: each takes fifty milliseconds. -/
theorem abides_polls (hredis : env.redis = true) {attempts : Nat} {deadline : Int}
    (hdeadline : since + MAX_WAIT_MS ≤ deadline)
    (hQ : ∀ t, NotLoaded w since t → Q (.ok (some v)) t) (rounds : Nat)
    (hrounds : deadline ≤ s.now + POLL_INTERVAL_MS * rounds) (hs : NotLoaded w since s) :
    (waitForLeader env (singleFlightCall manager w options) (readCached manager options.cacheKey)
      deadline (runWithOptionalRedis env (singleFlightCall manager w options) w (attempts + 1))
      rounds).Abides (waiting env manager participants w options (some v) since) Q s := by
  induction rounds generalizing s with
  | zero =>
      refine abides_late ⟨_, _, rfl⟩ (hdeadline.trans ?_)
      simpa using hrounds
  | succ rounds ih =>
      unfold waitForLeader
      apply abides_bind
      apply abides_query
      intro t hst hpermits
      dsimp only
      have hinTime := hpermits.1.inTime
      rw [if_pos (by omega)]
      apply abides_bind
      apply abides_readCached
      intro u htu hpermits'
      have ht := hs.rely hst.1
      have hu := ht.rely htu.1
      rcases hpermits'.2 with hstored | ⟨habsent, -⟩
      · rw [CacheWorld.read_of_some hstored]
        exact hQ u hu
      · rw [CacheWorld.poll_of_none habsent]
        apply abides_bind
        apply abides_query
        intro x hux hpermits''
        have hx := hu.rely hux.1
        cases hheld :
          (x.liveLock (buildLockKey env (singleFlightCall manager w options).key)).isSome with
        | true =>
            apply abides_bind
            unfold delay
            apply abides_bind
            apply abides_query
            intro y hxy _
            apply abides_stmt
            intro z hyz _
            refine ⟨id, ?_⟩
            have hz := (hx.rely hxy.1).rely hyz.1
            refine ih ?_ ⟨hz.loaded, hz.since.trans (le_max_left _ _)⟩
            have hsy : s.now ≤ y.now :=
              hst.1.now.trans (htu.1.now.trans (hux.1.now.trans hxy.1.now))
            have hwoken : y.now + POLL_INTERVAL_MS ≤ max z.now (y.now + POLL_INTERVAL_MS) :=
              le_max_right _ _
            push_cast [POLL_INTERVAL_MS] at hrounds hwoken ⊢
            omega
        | false =>
            rcases hpermits''.2 with hstored | ⟨-, hlocked⟩
            · exact abides_ask_stored hredis attempts hx hstored hQ
            · exact absurd (hheld.symm.trans hlocked) Bool.false_ne_true

theorem abides_waits (hredis : env.redis = true) (hs : NotLoaded w since s) :
    (runWithOptionalRedis env (singleFlightCall manager w options) w 4).Abides
      (waiting env manager participants w options (some v) since)
      (fun r t => NotLoaded w since t ∧ r = .ok (some v)) s := by
  apply abides_ask hredis 3 hs
  intro t ht _
  refine abides_polls hredis ?_ (fun u hu => ⟨hu, rfl⟩) waitRounds ?_ ht
  · have := ht.since
    omega
  · show t.now + MAX_WAIT_MS ≤ t.now + 50 * 600
    exact le_refl _

/-- How the call ends: with the value, or with what its company gets. -/
def EndsWell (participants : ι → CacheParticipant ρ φ V) (w : ι) (options : GoogleLookup ρ φ V)
    (value : Option V) (since : Int) (r : Except φ (Flight (Option V)))
    (s : FlightStore ι (CacheWorld ι ρ V)) : Prop :=
  NotLoaded w since s ∧ ∃ flight, r = .ok flight ∧ Reuses participants w options value (some flight)

theorem abides_run (hredis : env.redis = true) (hs : NotLoaded w since s)
    (hfree : ¬ HasCompany participants w options →
      s.localInflight options.process options.cacheKey = false) :
    (Cache.run env (singleFlightCall manager w options) w).Abides
      (waiting env manager participants w options (some v) since)
      (EndsWell participants w options (some v) since) s := by
  unfold Cache.run
  apply abides_bind
  apply abides_stmt
  intro t hst _
  have ht := hs.rely hst.1
  cases hjoined : t.localInflight (singleFlightCall manager w options).process
      (singleFlightCall manager w options).key with
  | true =>
      refine ⟨id, ht, _, rfl, .inr ⟨rfl, ?_⟩⟩
      by_contra halone
      have hnone := (hst.1.inflight halone).trans (hfree halone)
      exact absurd (hnone.symm.trans hjoined) Bool.false_ne_true
  | false =>
      refine ⟨id, ?_⟩
      apply abides_bind
      apply abides_attempt
      refine Abides.mono (abides_waits hredis ⟨ht.loaded, ht.since⟩) ?_
      rintro r u ⟨hu, rfl⟩
      apply abides_bind
      apply abides_stmt
      intro x hux _
      refine ⟨id, ?_⟩
      have hx := hu.rely hux.1
      exact ⟨⟨hx.loaded, hx.since⟩, _, rfl, .inl rfl⟩

theorem abides_getCachedGoogleValue (hredis : env.redis = true)
    (hadmitted : value = none → options.allowNull = true) (hs : NotLoaded w since s)
    (hfree : ¬ HasCompany participants w options →
      s.localInflight options.process options.cacheKey = false) :
    (getCachedGoogleValue env manager w options).Abides
      (waiting env manager participants w options value since)
      (EndsWell participants w options value since) s := by
  unfold getCachedGoogleValue
  apply abides_bind
  intro t hst hpermits
  refine ⟨id, ?_⟩
  have ht := hs.rely hst.1
  show Abides _ _ (match (t.world.read manager options.cacheKey).filter
    (fun value => options.allowNull || value.isSome) with
    | some value => pure (.settled value)
    | none => Cache.run env (singleFlightCall manager w options) w) t
  rcases hpermits.2 with hstored | ⟨habsent, -⟩
  · have hhit : (options.allowNull || value.isSome) = true := by
      cases value with
      | none => rw [hadmitted rfl, Bool.true_or]
      | some v => exact Bool.or_true _
    rw [CacheWorld.read_of_some hstored, Option.filter_some, if_pos hhit]
    exact ⟨ht, _, rfl, .inl rfl⟩
  · have hhit : value = none ↔ options.allowNull = true ∧ manager.absentIsNull = true :=
      hpermits.1.hit.resolve_left fun hstored => nomatch habsent.symm.trans hstored
    rw [CacheWorld.read_of_none habsent]
    cases value with
    | none =>
        obtain ⟨hallow, hnull⟩ := hhit.mp rfl
        rw [if_pos hnull, Option.filter_some, hallow, Bool.true_or, if_pos rfl]
        exact ⟨ht, _, rfl, .inl rfl⟩
    | some v =>
        have hmiss : (if manager.absentIsNull then some none else none : Option (Option V)).filter
            (fun value => options.allowNull || value.isSome) = none := by
          cases hnull : manager.absentIsNull with
          | false => rfl
          | true =>
              cases hallow : options.allowNull with
              | false => rfl
              | true => exact nomatch hhit.mpr ⟨hallow, hnull⟩
        rw [hmiss]
        exact abides_run hredis ht fun halone => (hst.1.inflight halone).trans (hfree halone)

end call

/-! ## Runs -/

section runs

variable [DecidableEq ι] {env : FlightEnv} {manager : CacheManager}
  {participants : ι → CacheParticipant ρ φ V} {w : ι} {options : GoogleLookup ρ φ V}
  {value : Option V}

/-- Before its first statement nobody has loaded for the call, and nobody is in its way
but its company. -/
theorem before_call (now : Int) (cache : String → Option (Option V)) (rest : ρ) {before : List ι}
    (hbefore : w ∉ before) :
    let c := (beginLookups env manager participants now cache rest).run before
    NotLoaded w c.store.now c.store ∧
      (¬ HasCompany participants w options →
        c.store.localInflight options.process options.cacheKey = false) ∧
      (∀ j, j ≠ w → (c.calls j).Always fun s t _ => Elsewhere participants w options s t) ∧
      c.calls w = (participants w).prog env manager w := by
  intro c
  have hothers : ∀ j, j ≠ w →
      ((beginLookups env manager participants now cache rest).calls j).Always fun s t _ =>
        Elsewhere participants w options s t := fun j hj => elsewhere_prog hj
  obtain ⟨helsewhere, hcalls⟩ :=
    Config.others_run Elsewhere.refl (fun _ _ _ => Elsewhere.trans) hothers hbefore
  exact ⟨⟨helsewhere.loaded List.not_mem_nil, le_refl _⟩, fun halone => helsewhere.inflight halone,
    hcalls, Config.run_calls_of_notMem hbefore⟩

/-- What is asked of the run, and of the statements of the call that began at `since`. -/
def WaitingRun (env : FlightEnv) (manager : CacheManager) (w : ι) (options : GoogleLookup ρ φ V)
    (value : Option V) (since : Int) (c : CacheConfig ι ρ V φ) (i : ι) : Prop :=
  Served env w options value c i ∧ WaitsWell env manager w options value since c i

theorem abides_among_lookups {since : Int} {c : CacheConfig ι ρ V φ} {schedule : List ι}
    (hredis : env.redis = true) (hadmitted : value = none → options.allowNull = true)
    (hs : NotLoaded w since c.store)
    (hfree : ¬ HasCompany participants w options →
      c.store.localInflight options.process options.cacheKey = false)
    (hothers : ∀ j, j ≠ w → (c.calls j).Always fun s t _ => Elsewhere participants w options s t)
    (hcall : c.calls w = (CacheParticipant.lookup options).prog env manager w)
    (heeds : Config.Heeds (WaitingRun env manager w options value since) c schedule) :
    w ∉ (c.run schedule).store.world.loaded ∧
      ((c.run schedule).calls w).Abides (waiting env manager participants w options value since)
        (fun r _ => ∃ flight, r = .ok flight ∧ Reuses participants w options value flight)
        (c.run schedule).store := by
  refine Config.abides_among (R := Elsewhere participants w options)
    (J := fun s => w ∉ s.world.loaded) Elsewhere.refl ?_ ?_ ?_ ?_ ?_ ⟨hs.loaded, ?_⟩ hothers heeds
  · exact fun d hd hrunning => ⟨hd.2 rfl hrunning, (hd.1 hrunning).1 rfl⟩
  · exact fun d i _ hd hrunning helsewhere => ⟨helsewhere, (hd.1 hrunning).2⟩
  · exact fun r s t h _ => h
  · exact fun s t hs hst => hst hs
  · exact fun s t hs hst => hst.loaded hs
  · rw [hcall]
    show Abides _ _ (some <$> getCachedGoogleValue env manager w options) c.store
    apply abides_bind
    refine Abides.mono (abides_getCachedGoogleValue hredis hadmitted hs hfree) ?_
    rintro r t ⟨-, flight, rfl, hreuses⟩
    exact ⟨_, rfl, hreuses⟩

/-- The call has not loaded, and if it is over it has returned what it should. -/
structure ReusesValue (participants : ι → CacheParticipant ρ φ V) (w : ι)
    (options : GoogleLookup ρ φ V) (value : Option V) (c : CacheConfig ι ρ V φ) : Prop where
  loaded : w ∉ c.store.world.loaded
  thrown : ∀ e, c.calls w ≠ .fail e
  returned : ∀ r, c.returned w = some r → Reuses participants w options value r

theorem reuses_of_heeds {now : Int} {cache : String → Option (Option V)} {rest : ρ}
    {before schedule : List ι} (hbefore : w ∉ before) (hw : participants w = .lookup options)
    (hredis : env.redis = true) (hadmitted : value = none → options.allowNull = true)
    (heeds : Config.Heeds
      (WaitingRun env manager w options value
        ((beginLookups env manager participants now cache rest).run before).store.now)
      ((beginLookups env manager participants now cache rest).run before) schedule) :
    ReusesValue participants w options value
      (((beginLookups env manager participants now cache rest).run before).run schedule) := by
  obtain ⟨hs, hfree, hothers, hcall⟩ :=
    @before_call ι ρ φ V _ env manager participants w options now cache rest before hbefore
  rw [hw] at hcall
  obtain ⟨hloaded, habides⟩ := abides_among_lookups hredis hadmitted hs hfree hothers hcall heeds
  refine ⟨hloaded, ?_, ?_⟩
  · intro e he
    rw [he] at habides
    obtain ⟨flight, herror, -⟩ := habides
    cases herror
  · intro r hr
    obtain ⟨flight, hok, hreuses⟩ := Config.returned_of_abides habides hr
    cases hok
    exact hreuses

/-- A call that waits for a leader returns what that stores and does not load, as long
as the lock is held whenever it asks for it, its thirty seconds are not over and, unless
it finds the value there, its first look at the cache does not mistake nothing for `null`
nor wait for a `null`; and if its turn keeps coming, it returns. -/
theorem waiting_call_reuses_value {now : Int} {cache : String → Option (Option V)} {rest : ρ}
    {before : List ι} {c : CacheConfig ι ρ V φ}
    (hc : c = (beginLookups env manager participants now cache rest).run before)
    (hbefore : w ∉ before) (hw : participants w = .lookup options) (hredis : env.redis = true)
    (hadmitted : value = none → options.allowNull = true) :
    (∀ schedule,
      Config.Heeds (WaitingRun env manager w options value c.store.now) c (w :: schedule) →
      ReusesValue participants w options value (c.run (w :: schedule))) ∧
    ∀ schedule : ℕ → ι, schedule 0 = w → (∀ n, ∃ m, n ≤ m ∧ schedule m = w) →
      (∀ n, WaitingRun env manager w options value c.store.now (c.runs schedule n) (schedule n)) →
      ∃ n r, (c.runs schedule n).returned w = some r ∧ Reuses participants w options value r := by
  have hreuses : ∀ schedule,
      Config.Heeds (WaitingRun env manager w options value c.store.now) c schedule →
      ReusesValue participants w options value (c.run schedule) := by
    subst hc
    exact fun schedule => reuses_of_heeds hbefore hw hredis hadmitted
  refine ⟨fun schedule => hreuses (w :: schedule), ?_⟩
  intro schedule _ fair heeds
  obtain ⟨n, hn⟩ := Config.ends_of_fair (c := c) fair
  have hend := hreuses _ (Config.heeds_of_runs heeds n)
  rw [← Config.runs_eq_run] at hend
  obtain ⟨r, hr⟩ := Config.returned_of_ended hn hend.thrown
  exact ⟨n, r, hr, hend.returned r hr⟩

end runs

/-! ### Checking a schedule -/

section checking

variable [DecidableEq ι] [DecidableEq V] (env : FlightEnv) (manager : CacheManager) (w : ι)
  (options : GoogleLookup ρ φ V) (value : Option V)

instance (s : FlightStore ι (CacheWorld ι ρ V)) : Decidable (Stored options value s) :=
  inferInstanceAs (Decidable (s.world.cache options.cacheKey = some value))

instance (s : FlightStore ι (CacheWorld ι ρ V)) : Decidable (Locked env options s) :=
  inferInstanceAs (Decidable (_ = true))

instance (c : CacheConfig ι ρ V φ) (i : ι) : Decidable (Served env w options value c i) :=
  inferInstanceAs (Decidable (_ = true → _))

instance (since : Int) (s : FlightStore ι (CacheWorld ι ρ V)) (upcoming : List FlightEvent) :
    Decidable (Waits env manager options value since s upcoming) :=
  decidable_of_iff
    ((Stored options value s ∨
        (value = none ↔ options.allowNull = true ∧ manager.absentIsNull = true)) ∧
      (.asked (buildLockKey env options.cacheKey) ∈ upcoming → Locked env options s) ∧
      s.now < since + MAX_WAIT_MS)
    ⟨fun h => ⟨h.1, h.2.1, h.2.2⟩, fun h => ⟨h.hit, h.asks, h.inTime⟩⟩

instance (since : Int) (c : CacheConfig ι ρ V φ) (i : ι) :
    Decidable (WaitsWell env manager w options value since c i) :=
  inferInstanceAs (Decidable (_ → _))

instance (since : Int) (c : CacheConfig ι ρ V φ) (i : ι) :
    Decidable (WaitingRun env manager w options value since c i) :=
  inferInstanceAs (Decidable (_ ∧ _))

end checking

def aCacheEnv : FlightEnv := ⟨true, fun key => key⟩

/-- A load that takes one statement. -/
def cityLookup (process : String) (allowNull : Bool) (city : Option String) :
    GoogleLookup Unit Unit String :=
  { process, cacheKey := "places:city", allowNull,
    load := .step (fun s => (s, [])) fun _ => .done city }

/-- The first one is about to load, in its own process. -/
def twoProcesses (allowNull : Bool) (city : Option String) :
    Fin 2 → CacheParticipant Unit Unit String :=
  ![.lookup (cityLookup "a" allowNull city), .lookup (cityLookup "b" allowNull city)]

def twoLookups (absentIsNull allowNull : Bool) (city : Option String) :
    CacheConfig (Fin 2) Unit String Unit :=
  (beginLookups aCacheEnv ⟨absentIsNull⟩ (twoProcesses allowNull city) 0 (fun _ => none) ()).run
    [0, 0, 0]

/-- The waiting call polls, the other one stores and releases, and the next poll finds it. -/
theorem next_poll_finds_city :
    ReusesValue (twoProcesses false (some "Rosario")) 1 (cityLookup "b" false (some "Rosario"))
        (some "Rosario")
        ((twoLookups false false (some "Rosario")).run
          [1, 1, 1, 1, 1, 1, 1, 1, 1, 0, 0, 0, 0, 1, 1, 1]) ∧
      ((twoLookups false false (some "Rosario")).run
        [1, 1, 1, 1, 1, 1, 1, 1, 1, 0, 0, 0, 0, 1, 1, 1]).returned 1 =
          some (some (.settled (some "Rosario"))) := by
  refine ⟨?_, by decide⟩
  obtain ⟨hfinite, -⟩ := @waiting_call_reuses_value (Fin 2) Unit Unit String _ aCacheEnv ⟨false⟩
    (twoProcesses false (some "Rosario")) 1 (cityLookup "b" false (some "Rosario"))
    (some "Rosario") 0 (fun _ => none) () [0, 0, 0] _ rfl (by decide) rfl rfl (by decide)
  exact hfinite [1, 1, 1, 1, 1, 1, 1, 1, 0, 0, 0, 0, 1, 1, 1] (by decide)

/-- Two waiting calls. One looks before the city is stored and asks for the lock after
its release; the other polls in time, for a `null` that it cannot see. -/
theorem waiting_calls_miss_city :
    (∀ absentIsNull, ∃ schedule, Config.Heeds
        (Served aCacheEnv 1 (cityLookup "b" false (some "Rosario")) (some "Rosario"))
        (twoLookups absentIsNull false (some "Rosario")) (1 :: schedule) ∧
      1 ∈ ((twoLookups absentIsNull false (some "Rosario")).run
        (1 :: schedule)).store.world.loaded) ∧
    ∃ schedule, Config.Heeds (Served aCacheEnv 1 (cityLookup "b" true none) none)
        (twoLookups false true none) (1 :: schedule) ∧
      1 ∈ ((twoLookups false true none).run (1 :: schedule)).store.world.loaded := by
  constructor
  · intro absentIsNull
    refine ⟨[0, 0, 0, 0, 1, 1, 1], ?_⟩
    cases absentIsNull with
    | true => exact ⟨by decide, by decide⟩
    | false => exact ⟨by decide, by decide⟩
  · exact ⟨[1, 1, 1, 1, 1, 1, 1, 1, 0, 0, 0, 1, 1, 0, 1, 1, 1], by decide, by decide⟩

end Feca.Places
