import Feca.Concurrency.Machine
import Mathlib.Logic.Function.Basic

/-! # Single flight in one process

`DistributedSingleFlightService.run` without Redis: the calls for one key share
the promise that is in `localInflight`. A call runs without a break up to its first
`await`, and so does what it calls; after that anything may come in between.
-/

namespace Feca.Cache

open Concurrency

/-- How far a load is. -/
inductive Progress (V E : Type)
  /-- `load()` has not returned its promise. -/
  | called
  /-- The promise is in the map. -/
  | pending
  | settled (outcome : Except E V)
  /-- The call that leads has come out of its `await` and through its `finally`. -/
  | left (outcome : Except E V)
  deriving Repr

namespace Progress

variable {V E : Type}

def outcome : Progress V E → Option (Except E V)
  | called | pending => none
  | settled outcome | left outcome => some outcome

def InFlight (p : Progress V E) : Prop := p.outcome = none

/-- The promise is there, and its leader has not taken it away. -/
def announced : Progress V E → Bool
  | pending | settled _ => true
  | called | left _ => false

def hasLeft : Progress V E → Bool
  | left _ => true
  | _ => false

def isCalled : Progress V E → Bool
  | called => true
  | _ => false

theorem InFlight.not_left {p : Progress V E} (h : p.InFlight) : p.hasLeft = false := by
  cases p with
  | left outcome => cases h
  | _ => rfl

theorem not_left_of_announced {p : Progress V E} (h : p.announced = true) : p.hasLeft = false := by
  cases p with
  | left outcome => cases h
  | _ => rfl

theorem left_of_not_announced {p : Progress V E} (h : p.announced = false)
    (hcalled : p.isCalled = false) : p.hasLeft = true := by
  cases p with
  | left outcome => rfl
  | called => cases hcalled
  | pending => cases h
  | settled outcome => cases h

/-- A load goes from one to the next, and never back. -/
inductive Next : Progress V E → Progress V E → Prop
  | announce : Next .called .pending
  | settle (outcome : Except E V) : Next .pending (.settled outcome)
  | leave (outcome : Except E V) : Next (.settled outcome) (.left outcome)

theorem Next.not_left {p q : Progress V E} (h : p.Next q) : p.hasLeft = false := by
  cases h <;> rfl

theorem Next.outcome {p q : Progress V E} (h : p.Next q) {o : Except E V}
    (ho : p.outcome = some o) : q.outcome = some o := by
  cases h with
  | announce => cases ho
  | settle => cases ho
  | leave => exact ho

theorem Next.announced {p : Progress V E} {o : Except E V} (h : p.Next (.settled o)) :
    p.announced = true := by
  cases h
  rfl

end Progress

structure Load (K V E : Type) where
  key : K
  progress : Progress V E
  deriving Repr

/-- A call of `run`, with the load whose promise it awaits. -/
structure Call (K V E : Type) where
  key : K
  load : Option Nat
  leads : Bool := false
  received : Option (Except E V) := none
  deriving Repr

/-- The service of one process, with all loads and calls there have been. -/
structure InProcess (K V E : Type) where
  localInflight : K → Option Nat
  loads : List (Load K V E)
  calls : List (Call K V E)

inductive InProcessAction (K V E : Type)
  /-- A call up to `load()` or, where there is a promise, to its end: whether
  `onJoined` returns is up to the caller. -/
  | run (key : K) (onJoined : Except E Unit)
  /-- `load()` returns its promise: `localInflight.set`, and the leader awaits. -/
  | announce (load : Nat)
  | settle (load : Nat) (outcome : Except E V)
  /-- The leader comes out of its `await`: `localInflight.delete`. -/
  | resume (load : Nat)
  /-- What a call has joined has settled. -/
  | receive (call : Nat)
  deriving Repr

variable {K V E : Type}

namespace InProcess

def start : InProcess K V E := ⟨fun _ => none, [], []⟩

/-- `run`, and `runWithOptionalRedis`, which without Redis is `load()`. -/
def run (s : InProcess K V E) (key : K) (onJoined : Except E Unit) : InProcess K V E :=
  match s.localInflight key, onJoined with
  | some existing, .ok () =>
      { s with calls := s.calls ++ [{ key, load := some existing }] }
  | some _, .error e =>
      { s with calls := s.calls ++ [{ key, load := none, received := some (.error e) }] }
  | none, _ =>
      { s with
        loads := s.loads ++ [⟨key, .called⟩]
        calls := s.calls ++ [{ key, load := some s.loads.length, leads := true }] }

/-- Without a promise for its key, a call starts a load. -/
theorem run_of_none {s : InProcess K V E} {key : K} (h : s.localInflight key = none)
    (onJoined : Except E Unit) : s.run key onJoined =
      { s with
        loads := s.loads ++ [⟨key, .called⟩]
        calls := s.calls ++ [{ key, load := some s.loads.length, leads := true }] } := by
  simp only [run, h]

/-- With one, it starts none, and waits for that load or not at all. -/
theorem run_of_some {s : InProcess K V E} {key : K} {existing : Nat}
    (h : s.localInflight key = some existing) (onJoined : Except E Unit) :
    ∃ call : Call K V E, call.key = key ∧ (call.load = some existing ∧ call.received = none ∨
      call.load = none) ∧ s.run key onJoined = { s with calls := s.calls ++ [call] } := by
  cases onJoined with
  | ok =>
      refine ⟨{ key, load := some existing }, rfl, .inl ⟨rfl, rfl⟩, ?_⟩
      simp only [run, h]
  | error e =>
      refine ⟨{ key, load := none, received := some (.error e) }, rfl, .inr rfl, ?_⟩
      simp only [run, h]

def setProgress (s : InProcess K V E) (load : Nat) (l : Load K V E) (progress : Progress V E) :
    InProcess K V E :=
  { s with loads := s.loads.set load { l with progress } }

theorem getElem?_setProgress {s : InProcess K V E} {load : Nat} {l : Load K V E}
    {p : Progress V E} (hl : s.loads[load]? = some l) (j : Nat) :
    (s.setProgress load l p).loads[j]? =
      if j = load then some { l with progress := p } else s.loads[j]? := by
  obtain ⟨hlt, -⟩ := List.getElem?_eq_some_iff.mp hl
  rw [setProgress, List.getElem?_set]
  by_cases hj : j = load
  · rw [if_pos hj.symm, if_pos hlt, if_pos hj]
  · rw [if_neg (Ne.symm hj), if_neg hj]

/-- The call that leads the load returns or throws what it awaited. -/
def answerLeader (s : InProcess K V E) (load : Nat) (outcome : Except E V) : InProcess K V E :=
  { s with
    calls := s.calls.map fun call =>
      if call.leads && call.load == some load then { call with received := some outcome }
      else call }

variable [DecidableEq K]

def setInflight (s : InProcess K V E) (key : K) (promise : Option Nat) : InProcess K V E :=
  { s with localInflight := Function.update s.localInflight key promise }

def step (s : InProcess K V E) : InProcessAction K V E → Option (InProcess K V E)
  | .run key onJoined => some (s.run key onJoined)
  | .announce load => do
      let l ← s.loads[load]?
      match l.progress with
      | .called => some ((s.setProgress load l .pending).setInflight l.key (some load))
      | _ => none
  | .settle load outcome => do
      let l ← s.loads[load]?
      match l.progress with
      | .pending => some (s.setProgress load l (.settled outcome))
      | _ => none
  | .resume load => do
      let l ← s.loads[load]?
      match l.progress with
      | .settled outcome =>
          let resumed := (s.setProgress load l (.left outcome)).answerLeader load outcome
          some (resumed.setInflight l.key none)
      | _ => none
  | .receive index => do
      let call ← s.calls[index]?
      match call.leads, call.received with
      | false, none => do
          let l ← s.loads[← call.load]?
          let outcome ← l.progress.outcome
          some { s with calls := s.calls.set index { call with received := some outcome } }
      | _, _ => none

/-- A call on the key of a load that has not returned its promise is made by the load,
or by what the load has called. -/
def NotReentered (s : InProcess K V E) : InProcessAction K V E → Prop
  | .run key _ => ∀ l ∈ s.loads, l.key = key → l.progress.isCalled = false
  | _ => True

instance (s : InProcess K V E) (a : InProcessAction K V E) : Decidable (s.NotReentered a) := by
  unfold NotReentered
  cases a <;> infer_instance

/-! ## One step -/

section step

variable {s t : InProcess K V E} {load : Nat} {l : Load K V E}

theorem step_announce (h : s.step (.announce load) = some t) :
    ∃ l, s.loads[load]? = some l ∧ l.progress = .called ∧
      t = (s.setProgress load l .pending).setInflight l.key (some load) := by
  obtain ⟨l, hl, h⟩ := Option.bind_eq_some_iff.mp h
  split at h
  next hcalled =>
    cases h
    exact ⟨l, hl, hcalled, rfl⟩
  next => cases h

theorem step_settle {outcome : Except E V} (h : s.step (.settle load outcome) = some t) :
    ∃ l, s.loads[load]? = some l ∧ l.progress = .pending ∧
      t = s.setProgress load l (.settled outcome) := by
  obtain ⟨l, hl, h⟩ := Option.bind_eq_some_iff.mp h
  split at h
  next hpending =>
    cases h
    exact ⟨l, hl, hpending, rfl⟩
  next => cases h

theorem step_resume (h : s.step (.resume load) = some t) :
    ∃ l outcome, s.loads[load]? = some l ∧ l.progress = .settled outcome ∧
      t = ((s.setProgress load l (.left outcome)).answerLeader load outcome).setInflight
        l.key none := by
  obtain ⟨l, hl, h⟩ := Option.bind_eq_some_iff.mp h
  split at h
  next outcome hsettled =>
    cases h
    exact ⟨l, outcome, hl, hsettled, rfl⟩
  next => cases h

theorem step_receive {index : Nat} (h : s.step (.receive index) = some t) :
    ∃ call load l outcome, s.calls[index]? = some call ∧ call.load = some load ∧
      s.loads[load]? = some l ∧ l.progress.outcome = some outcome ∧
      t = { s with calls := s.calls.set index { call with received := some outcome } } := by
  obtain ⟨call, hcall, h⟩ := Option.bind_eq_some_iff.mp h
  split at h
  next =>
    obtain ⟨load, hload, h⟩ := Option.bind_eq_some_iff.mp h
    obtain ⟨l, hl, h⟩ := Option.bind_eq_some_iff.mp h
    obtain ⟨outcome, houtcome, h⟩ := Option.bind_eq_some_iff.mp h
    cases h
    exact ⟨call, load, l, outcome, hcall, hload, hl, houtcome, rfl⟩
  next => cases h

/-- What a call that has joined and not been answered gets, once its load has settled. -/
theorem receive_settled {index : Nat} {call : Call K V E} {outcome : Except E V}
    (hcall : s.calls[index]? = some call) (hleads : call.leads = false)
    (hreceived : call.received = none) (hload : call.load = some load)
    (hl : s.loads[load]? = some l) (houtcome : l.progress.outcome = some outcome) :
    s.step (.receive index) =
      some { s with calls := s.calls.set index { call with received := some outcome } } := by
  simp only [step, hcall, hleads, hreceived, hload, hl, houtcome, Option.bind_eq_bind,
    Option.bind_some]

end step

end InProcess

/-! ## What stays -/

/-- What has settled has settled for good, and so with the leader. -/
structure Load.Becomes (l l' : Load K V E) : Prop where
  key : l'.key = l.key
  outcome : ∀ outcome, l.progress.outcome = some outcome → l'.progress.outcome = some outcome
  left : l.progress.hasLeft = true → l'.progress.hasLeft = true

/-- A call waits for the load it has joined, and for no other. -/
structure Call.Becomes (call call' : Call K V E) : Prop where
  key : call'.key = call.key
  load : call'.load = call.load
  leads : call'.leads = call.leads

/-- The loads and calls of `s` are those of `t`, under their numbers. -/
structure InProcess.Later (s t : InProcess K V E) : Prop where
  loads : ∀ {i : Nat} {l : Load K V E}, s.loads[i]? = some l →
    ∃ l', t.loads[i]? = some l' ∧ l.Becomes l'
  calls : ∀ {i : Nat} {call : Call K V E}, s.calls[i]? = some call →
    ∃ call', t.calls[i]? = some call' ∧ call.Becomes call'

theorem Load.Becomes.refl (l : Load K V E) : l.Becomes l := ⟨rfl, fun _ h => h, fun h => h⟩

theorem Call.Becomes.refl (call : Call K V E) : call.Becomes call := ⟨rfl, rfl, rfl⟩

namespace InProcess

section later

variable {s t u : InProcess K V E} {load : Nat} {l : Load K V E} {p : Progress V E}

theorem Later.refl (s : InProcess K V E) : Later s s :=
  ⟨fun h => ⟨_, h, .refl _⟩, fun h => ⟨_, h, .refl _⟩⟩

theorem Later.trans (hst : Later s t) (htu : Later t u) : Later s u := by
  constructor
  · intro i l hl
    obtain ⟨l', hl', h⟩ := hst.loads hl
    obtain ⟨l'', hl'', h'⟩ := htu.loads hl'
    exact ⟨l'', hl'', h'.key.trans h.key, fun o ho => h'.outcome o (h.outcome o ho),
      fun hleft => h'.left (h.left hleft)⟩
  · intro i call hcall
    obtain ⟨call', hcall', h⟩ := hst.calls hcall
    obtain ⟨call'', hcall'', h'⟩ := htu.calls hcall'
    exact ⟨call'', hcall'', h'.key.trans h.key, h'.load.trans h.load, h'.leads.trans h.leads⟩

theorem Later.loads_setProgress (hl : s.loads[load]? = some l) (hp : l.progress.Next p)
    {i : Nat} {x : Load K V E} (hx : s.loads[i]? = some x) :
    ∃ x', (s.setProgress load l p).loads[i]? = some x' ∧ x.Becomes x' := by
  rw [getElem?_setProgress hl]
  by_cases hi : i = load
  · rw [if_pos hi]
    cases (hi ▸ hx).symm.trans hl
    exact ⟨_, rfl, rfl, fun _ => hp.outcome, fun h => nomatch hp.not_left.symm.trans h⟩
  · rw [if_neg hi]
    exact ⟨x, hx, .refl x⟩

theorem Later.of_append (loads : List (Load K V E)) (calls : List (Call K V E)) :
    Later s { s with loads := s.loads ++ loads, calls := s.calls ++ calls } :=
  ⟨fun h => ⟨_, List.getElem?_append_left (List.getElem?_eq_some_iff.mp h).1 |>.trans h, .refl _⟩,
    fun h => ⟨_, List.getElem?_append_left (List.getElem?_eq_some_iff.mp h).1 |>.trans h, .refl _⟩⟩

end later

variable [DecidableEq K] {s t : InProcess K V E}

omit [DecidableEq K] in
theorem later_run (key : K) (onJoined : Except E Unit) : Later s (s.run key onJoined) := by
  cases h : s.localInflight key with
  | none =>
      rw [run_of_none h]
      exact .of_append _ _
  | some existing =>
      obtain ⟨call, -, -, hrun⟩ := run_of_some h onJoined
      rw [hrun]
      have := Later.of_append (s := s) [] [call]
      rwa [List.append_nil] at this

theorem later_step {a : InProcessAction K V E} (h : s.step a = some t) : Later s t := by
  cases a with
  | run key onJoined =>
      cases h
      exact later_run key onJoined
  | announce load =>
      obtain ⟨l, hl, hp, rfl⟩ := step_announce h
      exact ⟨Later.loads_setProgress hl (hp ▸ .announce), fun h => ⟨_, h, .refl _⟩⟩
  | settle load outcome =>
      obtain ⟨l, hl, hp, rfl⟩ := step_settle h
      exact ⟨Later.loads_setProgress hl (hp ▸ .settle outcome), fun h => ⟨_, h, .refl _⟩⟩
  | resume load =>
      obtain ⟨l, outcome, hl, hp, rfl⟩ := step_resume h
      refine ⟨Later.loads_setProgress hl (hp ▸ .leave outcome), ?_⟩
      intro i call hcall
      refine ⟨_, List.getElem?_map.trans (congrArg _ hcall), ?_⟩
      dsimp only
      split
      · exact ⟨rfl, rfl, rfl⟩
      · exact .refl call
  | receive index =>
      obtain ⟨call, load, l, outcome, hcall, -, -, -, rfl⟩ := step_receive h
      refine ⟨fun h => ⟨_, h, .refl _⟩, ?_⟩
      intro i x hx
      obtain ⟨hlt, -⟩ := List.getElem?_eq_some_iff.mp hcall
      rw [List.getElem?_set]
      by_cases hi : index = i
      · cases (hi ▸ hcall).symm.trans hx
        rw [if_pos hi, if_pos hlt]
        exact ⟨_, rfl, rfl, rfl, rfl⟩
      · rw [if_neg hi]
        exact ⟨x, hx, .refl x⟩

theorem later_of_perform {acts : List (InProcessAction K V E)}
    (h : Machine.perform step s acts = some t) : Later s t :=
  Machine.frame Later.refl (fun _ _ _ => Later.trans) (fun _ _ _ => later_step) h

/-! ## The map and the loads -/

/-- A load of a key begins when those before it are over. -/
def OneByOne (s : InProcess K V E) : Prop :=
  ∀ (i j : Nat) (x y : Load K V E), s.loads[i]? = some x → s.loads[j]? = some y → x.key = y.key →
    i < j → x.progress.hasLeft = true

/-- What the map holds for a key is the load whose leader awaits. -/
def MapsAnnounced (s : InProcess K V E) : Prop :=
  ∀ key i, s.localInflight key = some i ↔
    ∃ l, s.loads[i]? = some l ∧ l.key = key ∧ l.progress.announced = true

/-- A call waits for a load of its key, and has received what that settled with. -/
def Answered (s : InProcess K V E) : Prop :=
  ∀ call ∈ s.calls, ∀ i, call.load = some i →
    ∃ l, s.loads[i]? = some l ∧ l.key = call.key ∧
      ∀ outcome, call.received = some outcome → l.progress.outcome = some outcome

structure Inv (s : InProcess K V E) : Prop where
  oneByOne : s.OneByOne
  mapped : s.MapsAnnounced
  answered : s.Answered

section loads

variable {s t : InProcess K V E} {load : Nat} {l : Load K V E} {p : Progress V E}

omit [DecidableEq K]

theorem OneByOne.unique (hone : s.OneByOne) {i j : Nat} {x y : Load K V E}
    (hi : s.loads[i]? = some x) (hj : s.loads[j]? = some y) (hkey : x.key = y.key)
    (hx : x.progress.hasLeft = false) (hy : y.progress.hasLeft = false) : i = j := by
  rcases Nat.lt_trichotomy i j with hlt | heq | hgt
  · exact nomatch hx.symm.trans (hone i j x y hi hj hkey hlt)
  · exact heq
  · exact nomatch hy.symm.trans (hone j i y x hj hi hkey.symm hgt)

theorem OneByOne.setProgress (hone : s.OneByOne) (hl : s.loads[load]? = some l)
    (hp : l.progress.Next p) : (s.setProgress load l p).OneByOne := by
  have hone' : ∀ i j x y, s.loads[i]? = some x → s.loads[j]? = some y → x.key = y.key → i < j →
      i ≠ load := by
    rintro i j x y hi hj hkey hij rfl
    cases hi.symm.trans hl
    exact nomatch hp.not_left.symm.trans (hone i j _ y hi hj hkey hij)
  have hback : ∀ j y, (s.setProgress load l p).loads[j]? = some y →
      ∃ y', s.loads[j]? = some y' ∧ y'.key = y.key ∧ (j ≠ load → y' = y) := by
    intro j y hy
    rw [getElem?_setProgress hl] at hy
    by_cases hj : j = load
    · rw [if_pos hj] at hy
      cases hy
      exact ⟨l, hj ▸ hl, rfl, fun hne => absurd hj hne⟩
    · rw [if_neg hj] at hy
      exact ⟨y, hy, rfl, fun _ => rfl⟩
  intro i j x y hx hy hkey hij
  obtain ⟨x', hx', hxkey, hsame⟩ := hback i x hx
  obtain ⟨y', hy', hykey, -⟩ := hback j y hy
  have hkey' : x'.key = y'.key := hxkey.trans (hkey.trans hykey.symm)
  rw [← hsame (hone' i j x' y' hx' hy' hkey' hij)]
  exact hone i j x' y' hx' hy' hkey' hij

theorem Answered.of_loads (hanswered : s.Answered) (hcalls : t.calls = s.calls)
    (hloads : ∀ {i : Nat} {x : Load K V E}, s.loads[i]? = some x →
      ∃ x', t.loads[i]? = some x' ∧ x.Becomes x') : t.Answered := by
  intro call hcall i hi
  obtain ⟨x, hx, hkey, houtcome⟩ := hanswered call (hcalls ▸ hcall) i hi
  obtain ⟨x', hx', h⟩ := hloads hx
  exact ⟨x', hx', h.key.trans hkey, fun o ho => h.outcome o (houtcome o ho)⟩

end loads

theorem getElem?_concat {α : Type} {xs : List α} {a x : α} {i : Nat}
    (h : (xs ++ [a])[i]? = some x) : xs[i]? = some x ∨ i = xs.length ∧ x = a := by
  rcases Nat.lt_or_ge i xs.length with hlt | hge
  · rw [List.getElem?_append_left hlt] at h
    exact .inl h
  · obtain ⟨hlt, hx⟩ := List.getElem?_eq_some_iff.mp h
    have hi : i = xs.length := by
      rw [List.length_append, List.length_singleton] at hlt
      omega
    subst hi
    rw [List.getElem?_concat_length] at h
    cases h
    exact .inr ⟨rfl, rfl⟩

section steps

variable {s t : InProcess K V E} {load : Nat} {l : Load K V E}

/-- A load goes on, and the map with it: it holds the load as long as its leader awaits. -/
theorem MapsAnnounced.set (hmapped : s.MapsAnnounced) (hone : s.OneByOne)
    (hl : s.loads[load]? = some l) {p : Progress V E} (hp : l.progress.Next p) :
    ((s.setProgress load l p).setInflight l.key
      (if p.announced then some load else none)).MapsAnnounced := by
  intro key i
  show Function.update s.localInflight l.key _ key = some i ↔
    ∃ x, (s.setProgress load l p).loads[i]? = some x ∧ x.key = key ∧ x.progress.announced = true
  rw [getElem?_setProgress hl]
  by_cases hkey : key = l.key
  · subst hkey
    rw [Function.update_self]
    by_cases hi : i = load
    · subst hi
      rw [if_pos rfl]
      constructor
      · intro h
        refine ⟨_, rfl, rfl, ?_⟩
        by_contra hnot
        rw [if_neg hnot] at h
        cases h
      · rintro ⟨x, hx, -, hannounced⟩
        cases hx
        exact if_pos hannounced
    · rw [if_neg hi]
      constructor
      · intro h
        split at h
        · cases h
          exact absurd rfl hi
        · cases h
      · rintro ⟨x, hx, hxkey, hannounced⟩
        have hleft := Progress.not_left_of_announced hannounced
        exact absurd (hone.unique hx hl hxkey hleft hp.not_left) hi
  · rw [Function.update_of_ne hkey, hmapped]
    by_cases hi : i = load
    · subst hi
      rw [if_pos rfl, hl]
      constructor
      · rintro ⟨x, hx, hxkey, -⟩
        cases hx
        exact absurd hxkey.symm hkey
      · rintro ⟨x, hx, hxkey, -⟩
        cases hx
        exact absurd hxkey.symm hkey
    · rw [if_neg hi]

theorem Inv.announce (hs : Inv s) (hl : s.loads[load]? = some l) (hp : l.progress.Next .pending) :
    Inv ((s.setProgress load l .pending).setInflight l.key (some load)) where
  oneByOne := hs.oneByOne.setProgress hl hp
  mapped := hs.mapped.set hs.oneByOne hl hp
  answered := hs.answered.of_loads rfl (Later.loads_setProgress hl hp)

theorem Inv.settle (hs : Inv s) (hl : s.loads[load]? = some l) {outcome : Except E V}
    (hp : l.progress.Next (.settled outcome)) : Inv (s.setProgress load l (.settled outcome)) where
  oneByOne := hs.oneByOne.setProgress hl hp
  mapped := by
    have hmap : s.localInflight l.key = some load :=
      (hs.mapped l.key load).mpr ⟨l, hl, rfl, hp.announced⟩
    have := hs.mapped.set hs.oneByOne hl hp
    rw [show (Progress.settled outcome).announced = true from rfl, if_pos rfl, ← hmap] at this
    simpa only [setInflight, setProgress, Function.update_eq_self] using this
  answered := hs.answered.of_loads rfl (Later.loads_setProgress hl hp)

theorem Inv.resume {outcome : Except E V} (hs : Inv s) (hl : s.loads[load]? = some l)
    (hp : l.progress.Next (.left outcome)) :
    Inv (((s.setProgress load l (.left outcome)).answerLeader load outcome).setInflight
      l.key none) where
  oneByOne := hs.oneByOne.setProgress hl hp
  mapped := hs.mapped.set hs.oneByOne hl hp
  answered := by
    have hloads : (s.setProgress load l (.left outcome)).Answered :=
      hs.answered.of_loads rfl (Later.loads_setProgress hl hp)
    intro call hcall i hi
    obtain ⟨before, hbefore, rfl⟩ := List.mem_map.mp hcall
    by_cases hleads : (before.leads && before.load == some load) = true
    · rw [if_pos hleads] at hi ⊢
      obtain ⟨x, hx, hkey, -⟩ := hloads before hbefore i hi
      refine ⟨x, hx, hkey, ?_⟩
      intro o ho
      cases ho
      rw [Bool.and_eq_true, beq_iff_eq] at hleads
      cases hi.symm.trans hleads.2
      rw [getElem?_setProgress hl, if_pos rfl] at hx
      cases hx
      rfl
    · rw [if_neg hleads] at hi ⊢
      exact hloads before hbefore i hi

omit [DecidableEq K] in
theorem Inv.receive {index : Nat} {call : Call K V E} {outcome : Except E V} (hs : Inv s)
    (hcall : s.calls[index]? = some call) (hload : call.load = some load)
    (hl : s.loads[load]? = some l) (houtcome : l.progress.outcome = some outcome) :
    Inv { s with calls := s.calls.set index { call with received := some outcome } } where
  oneByOne := hs.oneByOne
  mapped := hs.mapped
  answered := by
    intro x hx i hi
    rcases List.mem_or_eq_of_mem_set hx with hx | rfl
    · exact hs.answered x hx i hi
    · cases hi.symm.trans hload
      obtain ⟨y, hy, hkey, -⟩ := hs.answered call (List.mem_of_getElem? hcall) load hload
      refine ⟨y, hy, hkey, ?_⟩
      intro o ho
      cases ho
      cases hl.symm.trans hy
      exact houtcome

omit [DecidableEq K] in
theorem Inv.run (hs : Inv s) {key : K}
    (hfree : ∀ l ∈ s.loads, l.key = key → l.progress.isCalled = false) (onJoined : Except E Unit) :
    Inv (s.run key onJoined) := by
  cases hmap : s.localInflight key with
  | some existing =>
      obtain ⟨call, hkey, hload, hrun⟩ := run_of_some hmap onJoined
      rw [hrun]
      refine ⟨hs.oneByOne, hs.mapped, ?_⟩
      intro c hc i hi
      rcases List.mem_append.mp hc with hc | hc
      · exact hs.answered c hc i hi
      · cases List.mem_singleton.mp hc
        rcases hload with ⟨hload, hreceived⟩ | hnone
        · cases hload.symm.trans hi
          obtain ⟨l, hl, hlkey, -⟩ := (hs.mapped key existing).mp hmap
          exact ⟨l, hl, hlkey.trans hkey.symm, fun o ho => nomatch hreceived.symm.trans ho⟩
        · exact nomatch hnone.symm.trans hi
  | none =>
      rw [run_of_none hmap]
      -- whatever load of the key there has been, the map and the stack no longer have it
      have hover : ∀ (i : Nat) (l : Load K V E), s.loads[i]? = some l → l.key = key →
          l.progress.hasLeft = true := by
        intro i l hl hkey
        refine Progress.left_of_not_announced ?_ (hfree l (List.mem_of_getElem? hl) hkey)
        by_contra hannounced
        rw [Bool.not_eq_false] at hannounced
        exact nomatch hmap.symm.trans ((hs.mapped key i).mpr ⟨l, hl, hkey, hannounced⟩)
      refine ⟨?_, ?_, ?_⟩
      · intro i j x y hx hy hkey hij
        rcases getElem?_concat hy with hy | ⟨rfl, rfl⟩
        · obtain ⟨hlt, -⟩ := List.getElem?_eq_some_iff.mp hy
          rw [List.getElem?_append_left (Nat.lt_trans hij hlt)] at hx
          exact hs.oneByOne i j x y hx hy hkey hij
        · rw [List.getElem?_append_left hij] at hx
          exact hover i x hx hkey
      · intro key' i
        refine (hs.mapped key' i).trans ⟨?_, ?_⟩
        · rintro ⟨l, hl, h⟩
          exact ⟨l, (List.getElem?_append_left (List.getElem?_eq_some_iff.mp hl).1).trans hl, h⟩
        · rintro ⟨l, hl, hkey, hannounced⟩
          rcases getElem?_concat hl with hl | ⟨-, rfl⟩
          · exact ⟨l, hl, hkey, hannounced⟩
          · cases hannounced
      · intro c hc i hi
        rcases List.mem_append.mp hc with hc | hc
        · obtain ⟨l, hl, h⟩ := hs.answered c hc i hi
          exact ⟨l, (List.getElem?_append_left (List.getElem?_eq_some_iff.mp hl).1).trans hl, h⟩
        · cases List.mem_singleton.mp hc
          cases hi
          refine ⟨⟨key, .called⟩, ?_, rfl, fun o ho => nomatch ho⟩
          exact List.getElem?_concat_length

theorem Inv.step {a : InProcessAction K V E} (hs : Inv s) (hfree : s.NotReentered a)
    (h : s.step a = some t) : Inv t := by
  cases a with
  | run key onJoined =>
      cases h
      exact hs.run hfree onJoined
  | announce load =>
      obtain ⟨l, hl, hp, rfl⟩ := step_announce h
      exact hs.announce hl (hp ▸ .announce)
  | settle load outcome =>
      obtain ⟨l, hl, hp, rfl⟩ := step_settle h
      exact hs.settle hl (hp ▸ .settle outcome)
  | resume load =>
      obtain ⟨l, outcome, hl, hp, rfl⟩ := step_resume h
      exact hs.resume hl (hp ▸ .leave outcome)
  | receive index =>
      obtain ⟨call, load, l, outcome, hcall, hload, hl, houtcome, rfl⟩ := step_receive h
      exact hs.receive hcall hload hl houtcome

omit [DecidableEq K] in
theorem inv_start : Inv (start : InProcess K V E) where
  oneByOne _ _ _ _ hx := nomatch hx
  mapped _ _ := by
    constructor
    · intro h
      cases h
    · rintro ⟨l, hl, -⟩
      cases hl
  answered _ hcall := nomatch hcall

theorem Inv.of_perform {acts : List (InProcessAction K V E)}
    (hfree : Machine.Along InProcess.step NotReentered start acts)
    (h : Machine.perform InProcess.step start acts = some s) : Inv s :=
  Machine.invariant (fun _ _ _ hs hok hstep => hs.step hok hstep) inv_start hfree h

end steps

/-! ## Every run -/

def AtMostOneInFlight (s : InProcess K V E) : Prop :=
  ∀ (i j : Nat) (x y : Load K V E), s.loads[i]? = some x → s.loads[j]? = some y → x.key = y.key →
    x.progress.InFlight → y.progress.InFlight → i = j

/-- The call has nothing but what the load has settled with, and gets it from then on. -/
def Receives (s : InProcess K V E) (index load : Nat) : Prop :=
  ∃ call l, s.calls[index]? = some call ∧ call.load = some load ∧ s.loads[load]? = some l ∧
    l.key = call.key ∧ (∀ o, call.received = some o → l.progress.outcome = some o) ∧
    ∀ o, l.progress.outcome = some o → call.leads = false → call.received = none →
      ∃ t, s.step (.receive index) = some t ∧
        t.calls[index]? = some { call with received := some o }

def StartsFresh (s : InProcess K V E) (key : K) (onJoined : Except E Unit) : Prop :=
  ∃ call : Call K V E, call.key = key ∧ call.load = some s.loads.length ∧
    s.run key onJoined =
      { s with loads := s.loads ++ [⟨key, .called⟩], calls := s.calls ++ [call] }

/-- The call starts nothing, and waits for the load or, if `onJoined` throws, for none. -/
def Joins (s : InProcess K V E) (key : K) (onJoined : Except E Unit) (load : Nat) : Prop :=
  ∃ call : Call K V E, call.key = key ∧
    (call.load = some load ∧ call.received = none ∨ call.load = none) ∧
    s.run key onJoined = { s with calls := s.calls ++ [call] }

section runs

variable {s t : InProcess K V E} {load : Nat} {l : Load K V E}

omit [DecidableEq K] in
theorem Inv.atMostOneInFlight (hs : Inv s) : s.AtMostOneInFlight := by
  intro i j x y hi hj hkey hx hy
  exact hs.oneByOne.unique hi hj hkey hx.not_left hy.not_left

theorem Inv.receives (hs : Inv s) {index : Nat} {call : Call K V E}
    (hcall : s.calls[index]? = some call) (hload : call.load = some load) :
    s.Receives index load := by
  obtain ⟨l, hl, hkey, hreceived⟩ := hs.answered call (List.mem_of_getElem? hcall) load hload
  refine ⟨call, l, hcall, hload, hl, hkey, hreceived, ?_⟩
  intro o ho hleads hnone
  refine ⟨_, receive_settled hcall hleads hnone hload hl ho, ?_⟩
  obtain ⟨hlt, -⟩ := List.getElem?_eq_some_iff.mp hcall
  exact List.getElem?_set_self hlt

/-- Once a leader has resumed, every load of the key there has been is over. -/
theorem Inv.left_of_resume (hs : Inv s) (hl : s.loads[load]? = some l)
    (h : s.step (.resume load) = some t) {i : Nat} {x : Load K V E} (hx : t.loads[i]? = some x)
    (hkey : x.key = l.key) : x.progress.hasLeft = true := by
  obtain ⟨l', outcome, hl', hp, rfl⟩ := step_resume h
  cases hl'.symm.trans hl
  change (s.setProgress load l (.left outcome)).loads[i]? = some x at hx
  rw [getElem?_setProgress hl] at hx
  by_cases hne : i = load
  · rw [if_pos hne] at hx
    cases hx
    rfl
  · rw [if_neg hne] at hx
    have hnot : l.progress.hasLeft = false := by
      rw [hp]
      rfl
    by_contra hleft
    exact hne (hs.oneByOne.unique hx hl hkey (by simpa using hleft) hnot)

omit [DecidableEq K] in
theorem Inv.run_fresh_or_joins (hs : Inv s) (key : K) (onJoined : Except E Unit) :
    s.StartsFresh key onJoined ∨
      ∃ load l, s.loads[load]? = some l ∧ l.key = key ∧ l.progress.announced = true ∧
        s.Joins key onJoined load := by
  cases hmap : s.localInflight key with
  | none => exact .inl ⟨_, rfl, rfl, run_of_none hmap onJoined⟩
  | some existing =>
      obtain ⟨l, hl, hkey, hannounced⟩ := (hs.mapped key existing).mp hmap
      exact .inr ⟨existing, l, hl, hkey, hannounced, run_of_some hmap onJoined⟩

omit [DecidableEq K] in
/-- Why a load must not call `run` on its own key: its promise is not there to be found,
and the call has a second load in flight. -/
theorem Inv.reentered (hs : Inv s) (hl : s.loads[load]? = some l)
    (hcalled : l.progress.isCalled = true) (onJoined : Except E Unit) :
    ¬(s.run l.key onJoined).AtMostOneInFlight := by
  have hp : l.progress = .called := by
    cases hprogress : l.progress with
    | called => rfl
    | _ => rw [hprogress] at hcalled; cases hcalled
  obtain ⟨hlt, -⟩ := List.getElem?_eq_some_iff.mp hl
  rcases hs.run_fresh_or_joins l.key onJoined with ⟨call, -, -, hrun⟩ | ⟨j, x, hx, hkey, hj, -⟩
  · rw [hrun]
    intro hone
    have hinflight : l.progress.InFlight := by
      rw [hp]
      rfl
    exact Nat.ne_of_lt hlt (hone load s.loads.length l ⟨l.key, .called⟩
      ((List.getElem?_append_left hlt).trans hl) List.getElem?_concat_length rfl hinflight rfl)
  · have hnot : l.progress.hasLeft = false := by
      rw [hp]
      rfl
    cases hs.oneByOne.unique hx hl hkey (Progress.not_left_of_announced hj) hnot
    cases hx.symm.trans hl
    rw [hp] at hj
    cases hj

end runs

theorem single_flight_in_process {acts later : List (InProcessAction K V E)}
    {s t : InProcess K V E} (hs : Machine.perform step start acts = some s)
    (ht : Machine.perform step s later = some t)
    (hfree : Machine.Along step NotReentered start (acts ++ later)) :
    s.AtMostOneInFlight ∧
      (∀ index call load, s.calls[index]? = some call → call.load = some load →
        t.Receives index load) ∧
      ∀ load l rest, later = .resume load :: rest → s.loads[load]? = some l → ∀ onJoined,
        t.StartsFresh l.key onJoined ∨
          ∃ since x, s.loads.length ≤ since ∧ t.loads[since]? = some x ∧ x.key = l.key ∧
            x.progress.announced = true ∧ t.Joins l.key onJoined since := by
  have hsI : Inv s := .of_perform hfree.of_append hs
  have htI : Inv t :=
    Machine.invariant (fun _ _ _ hs hok hstep => hs.step hok hstep) hsI (hfree.rest hs) ht
  refine ⟨hsI.atMostOneInFlight, ?_, ?_⟩
  · intro index call load hcall hload
    obtain ⟨call', hcall', hbecomes⟩ := (later_of_perform ht).calls hcall
    exact htI.receives hcall' (hbecomes.load.trans hload)
  · rintro load l rest rfl hl onJoined
    obtain ⟨r, hr, hrest⟩ := Machine.exists_of_perform_cons ht
    refine (htI.run_fresh_or_joins l.key onJoined).imp_right ?_
    rintro ⟨since, x, hx, hkey, hannounced, hjoins⟩
    refine ⟨since, x, ?_, hx, hkey, hannounced, hjoins⟩
    by_contra hbefore
    rw [Nat.not_le] at hbefore
    obtain ⟨y, hy, -⟩ := (later_step hr).loads (List.getElem?_eq_getElem hbefore)
    obtain ⟨x', hx', hbecomes⟩ := (later_of_perform hrest).loads hy
    cases hx'.symm.trans hx
    have hyleft := hsI.left_of_resume hl hr hy (hbecomes.key.symm.trans hkey)
    exact nomatch (Progress.not_left_of_announced hannounced).symm.trans (hbecomes.left hyleft)

/-- Two calls for `"a"` share a load that fails: both have failed when the third comes,
and that one loads again. -/
theorem failed_load_is_shared_once :
    ∃ s t : InProcess String Nat String,
      Machine.perform step start
        [.run "a" (.ok ()), .run "b" (.ok ()), .announce 1, .announce 0, .run "a" (.ok ()),
          .settle 0 (.error "429")] = some s ∧
      Machine.perform step s [.resume 0, .receive 2] = some t ∧
      s.AtMostOneInFlight ∧ t.Receives 2 0 ∧ t.StartsFresh "a" (.ok ()) := by
  refine ⟨_, _, rfl, rfl, ?_⟩
  obtain ⟨hone, hreceives, hfresh⟩ := @single_flight_in_process String Nat String _
    [.run "a" (.ok ()), .run "b" (.ok ()), .announce 1, .announce 0, .run "a" (.ok ()),
      .settle 0 (.error "429")] [.resume 0, .receive 2] _ _ rfl rfl (by decide)
  refine ⟨hone, hreceives 2 _ 0 rfl rfl, ?_⟩
  refine (hfresh 0 _ [.receive 2] rfl rfl (.ok ())).resolve_right ?_
  rintro ⟨since, x, hsince, hx, -⟩
  exact absurd (List.getElem?_eq_some_iff.mp hx).1 (Nat.not_lt.mpr hsince)

end InProcess

end Feca.Cache
