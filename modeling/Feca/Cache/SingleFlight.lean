import Feca.Base
import Feca.Concurrency.Part

/-! # Distributed single flight

`DistributedSingleFlightService`: the calls for one key share a promise within a
process, and a lock in Redis between processes. Whoever gets the lock loads, the
others wait for what it leaves in the cache.
-/

namespace Feca.Cache

open Concurrency Concurrency.Prog

def LOCK_TTL_SECONDS : Int := 30

def POLL_INTERVAL_MS : Int := 50

def MAX_WAIT_MS : Int := 30000

/-- A lock expires at an instant. Its value is `"1"` whoever set it: the holder is
kept here for the laws below, no statement reads it. -/
structure Lock (ι : Type) where
  holder : ι
  expiresAt : Int
  deriving DecidableEq, Repr

/-- What a call has from the reply to its `SET` until its `DEL`. -/
structure Hold where
  lockKey : String
  acquiredAt : Int
  deriving DecidableEq, Repr

/-- Redis and the processes, with the rest of the world `ω` that loads read and
write. Of the calls it remembers who holds a lock, and whose lock each `DEL`
has deleted. -/
structure FlightStore (ι ω : Type) where
  now : Int
  locks : String → Option (Lock ι)
  localInflight : String → String → Bool
  holds : ι → Option Hold
  released : List (ι × Option ι)
  world : ω

def FlightStore.start {ι ω : Type} (now : Int) (world : ω) : FlightStore ι ω :=
  ⟨now, fun _ => none, fun _ _ => false, fun _ => none, [], world⟩

/-- A key that has expired is gone. -/
def FlightStore.liveLock {ι ω : Type} (s : FlightStore ι ω) (lockKey : String) : Option (Lock ι) :=
  (s.locks lockKey).filter fun lock => s.now < lock.expiresAt

inductive FlightEvent
  /-- `SET lockKey "1" EX 30 NX`. -/
  | asked (lockKey : String)
  deriving DecidableEq, Repr

structure FlightEnv where
  /-- Whether there is a `REDIS_URL`. -/
  redis : Bool
  /-- `createHash("sha256").update(key).digest("hex")`. -/
  sha256Hex : String → String

def buildLockKey (env : FlightEnv) (key : String) : String := "feca:sf:lock:" ++ env.sha256Hex key

/-- The arguments of `run`, and the process it runs in. -/
structure FlightCall (ω φ α : Type) where
  process : String
  key : String
  load : Prog ω Empty φ α
  readCached : Option (Prog ω Empty φ (Option α)) := none

/-- `return existing`: the call gets what the one before it gets. -/
inductive Flight (α : Type)
  | joined
  | settled (value : α)
  deriving DecidableEq, Repr

variable {ι ω φ α : Type}

abbrev FlightProg (ι ω φ : Type) := Prog (FlightStore ι ω) FlightEvent φ

def worldPart : Part (FlightStore ι ω) ω where
  get s := s.world
  set world s := { s with world }
  get_set _ _ := rfl

/-! ## Statements -/

def lockStillHeld (lockKey : String) : FlightProg ι ω φ Bool :=
  query fun s => (s.liveLock lockKey).isSome

/-- When it is over, at least so much time has passed. -/
def delay (ms : Int) : FlightProg ι ω φ Unit := do
  let start ← query fun s => s.now
  stmt fun s => ⟨{ s with now := max s.now (start + ms) }, [], .ok ()⟩

def FlightStore.setInflight (s : FlightStore ι ω) (process key : String) (inflight : Bool) :
    FlightStore ι ω :=
  let keys := Function.update (s.localInflight process) key inflight
  { s with localInflight := Function.update s.localInflight process keys }

/-- Joins the promise of this process, if there is one, or announces a new one. -/
def joinLocal (process key : String) : FlightProg ι ω φ Bool :=
  stmt fun s =>
    if s.localInflight process key then ⟨s, [], .ok true⟩
    else ⟨s.setInflight process key true, [], .ok false⟩

def leaveLocal (process key : String) : FlightProg ι ω φ Unit :=
  stmt fun s => ⟨s.setInflight process key false, [], .ok ()⟩

def rethrow : Except φ α → FlightProg ι ω φ α
  | .ok a => pure a
  | .error e => .fail e

section locks

variable [DecidableEq ι]

namespace FlightStore

variable (s : FlightStore ι ω) (self : ι) (lockKey : String)

def withLock : FlightStore ι ω :=
  { s with
    locks := Function.update s.locks lockKey (some ⟨self, s.now + LOCK_TTL_SECONDS * 1000⟩)
    holds := Function.update s.holds self (some ⟨lockKey, s.now⟩) }

def withoutLock : FlightStore ι ω :=
  { s with
    locks := Function.update s.locks lockKey none
    holds := Function.update s.holds self none
    released := s.released ++ [(self, (s.liveLock lockKey).map (·.holder))] }

@[simp] theorem withLock_now : (s.withLock self lockKey).now = s.now := rfl

@[simp] theorem withLock_locks : (s.withLock self lockKey).locks =
    Function.update s.locks lockKey (some ⟨self, s.now + LOCK_TTL_SECONDS * 1000⟩) := rfl

@[simp] theorem withLock_holds : (s.withLock self lockKey).holds =
    Function.update s.holds self (some ⟨lockKey, s.now⟩) := rfl

@[simp] theorem withoutLock_now : (s.withoutLock self lockKey).now = s.now := rfl

@[simp] theorem withoutLock_locks :
    (s.withoutLock self lockKey).locks = Function.update s.locks lockKey none := rfl

@[simp] theorem withoutLock_holds :
    (s.withoutLock self lockKey).holds = Function.update s.holds self none := rfl

@[simp] theorem withoutLock_released : (s.withoutLock self lockKey).released =
    s.released ++ [(self, (s.liveLock lockKey).map (·.holder))] := rfl

end FlightStore

def setLock (self : ι) (lockKey : String) : FlightProg ι ω φ Bool :=
  stmt fun s =>
    match s.liveLock lockKey with
    | some _ => ⟨s, [.asked lockKey], .ok false⟩
    | none => ⟨s.withLock self lockKey, [.asked lockKey], .ok true⟩

/-- `redis.del`: it deletes what is there. -/
def deleteLock (self : ι) (lockKey : String) : FlightProg ι ω φ Unit :=
  stmt fun s => ⟨s.withoutLock self lockKey, [], .ok ()⟩

end locks

/-! ## The service -/

section calls

variable (env : FlightEnv) (call : FlightCall ω φ α)

def load : FlightProg ι ω φ α := call.load.onPart worldPart

/-- `while (Date.now() < deadline)`: every round but the last takes fifty
milliseconds, so `MAX_WAIT_MS / POLL_INTERVAL_MS` rounds reach the deadline. -/
def waitForLeader (readCached : Prog ω Empty φ (Option α)) (deadline : Int)
    (again : FlightProg ι ω φ α) : Nat → FlightProg ι ω φ α
  | 0 => load call
  | rounds + 1 => do
      let now ← query fun s => s.now
      if now < deadline then
        match ← readCached.onPart worldPart with
        | some cached => pure cached
        | none =>
            if ← lockStillHeld (buildLockKey env call.key) then do
              delay POLL_INTERVAL_MS
              waitForLeader readCached deadline again rounds
            else again
      else load call

def waitRounds : Nat := (MAX_WAIT_MS / POLL_INTERVAL_MS).toNat

variable [DecidableEq ι] (self : ι)

/-- The `try … finally` of the holder. -/
def loadAsHolder : FlightProg ι ω φ α := do
  let result ← (load call).attempt
  deleteLock self (buildLockKey env call.key)
  rethrow result

/-- With the attempts that are left: none after the fourth. -/
def runWithOptionalRedis : Nat → FlightProg ι ω φ α
  | 0 => load call
  | attempts + 1 =>
      if env.redis then do
        if ← setLock self (buildLockKey env call.key) then loadAsHolder env call self
        else
          match call.readCached with
          | none => load call
          | some readCached => do
              let now ← query fun s => s.now
              waitForLeader env call readCached (now + MAX_WAIT_MS)
                (runWithOptionalRedis attempts) waitRounds
      else load call

def run : FlightProg ι ω φ (Flight α) := do
  if ← joinLocal call.process call.key then pure .joined
  else
    let result ← (runWithOptionalRedis env call self 4).attempt
    leaveLocal call.process call.key
    .settled <$> rethrow result

end calls

/-! ## Processes -/

/-- Who takes part in a run: calls of the service, and time, which passes. -/
inductive Participant (ω φ α : Type)
  | flight (call : FlightCall ω φ α)
  | clock (ms : Nat)

def Participant.prog [DecidableEq ι] (env : FlightEnv) (self : ι) :
    Participant ω φ α → FlightProg ι ω φ (Option (Flight α))
  | .flight call => some <$> run env call self
  | .clock ms => stmt fun s => ⟨{ s with now := s.now + ms }, [], .ok none⟩

abbrev FlightConfig (ι ω φ α : Type) :=
  Config ι (FlightStore ι ω) FlightEvent φ (Option (Flight α))

/-- Nobody has called yet. -/
def begin [DecidableEq ι] (env : FlightEnv) (participants : ι → Participant ω φ α) (now : Int) (world : ω) :
    FlightConfig ι ω φ α :=
  ⟨.start now world, fun i => (participants i).prog env i, []⟩

end Feca.Cache
