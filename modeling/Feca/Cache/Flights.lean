import Feca.Cache.SingleFlight

/-! # What a flight returns

A flight changes the world by what it loads and by what it looks up, and returns
what one of the two has given it. Whatever contract these meet, the flight meets.
-/

namespace Feca.Cache

open Concurrency Concurrency.Prog

variable {ι ω φ α β : Type} {K : Contract ω} {Q : α → Prop} {s : FlightStore ι ω}

/-- A contract about the world, for the stores around it. -/
def ofWorld (K : Contract ω) : Contract (FlightStore ι ω) where
  inv s := K.inv s.world
  guar s t := K.guar s.world t.world
  refl s := K.refl s.world
  trans h h' := K.trans h h'

theorem meets_onWorld {Q : α → ω → Prop} {p : Prog ω Empty φ α} (h : p.Meets K Q s.world) :
    (p.onPart worldPart : FlightProg ι ω φ α).Meets (ofWorld K) (fun a t => Q a t.world) s := by
  induction p generalizing s with
  | done a => exact h
  | fail e => trivial
  | step exec next ih =>
      intro t hst hinv
      obtain ⟨hinv', hguar, hnext⟩ := h t.world hst hinv
      exact ⟨hinv', hguar, ih t.world hnext⟩

/-- A statement about locks and promises. -/
theorem meets_beside {f : FlightStore ι ω → Answer (FlightStore ι ω) FlightEvent φ β}
    (h : ∀ t, (f t).store.world = t.world) :
    (stmt f).Meets (ofWorld K) (fun _ _ => True) s := by
  apply meets_stmt
  intro t _ hinv
  have hguar : K.guar t.world (f t).store.world := by
    rw [h t]
    exact K.refl _
  have hinv' : K.inv (f t).store.world := by
    rw [h t]
    exact hinv
  exact ⟨hinv', hguar, fun _ _ => trivial⟩

theorem meets_aside (read : FlightStore ι ω → β) :
    (query read : FlightProg ι ω φ β).Meets (ofWorld K) (fun _ _ => True) s :=
  meets_query fun _ _ _ => trivial

theorem meets_delay (ms : Int) :
    (delay ms : FlightProg ι ω φ Unit).Meets (ofWorld K) (fun _ _ => True) s :=
  meets_bind (meets_aside _) fun _ _ _ _ => meets_beside fun _ => rfl

theorem meets_rethrow {r : Except φ α} (h : ∀ a, r = .ok a → Q a) :
    (rethrow r : FlightProg ι ω φ α).Meets (ofWorld K) (fun a _ => Q a) s := by
  cases r with
  | ok a => exact h a rfl
  | error e => trivial

/-- From a world on, what the call loads and looks up is as `Q` says. -/
structure Lands (K : Contract ω) (Q : α → Prop) (start : ω) (call : FlightCall ω φ α) : Prop where
  load : ∀ w, K.guar start w → call.load.Meets K (fun a _ => Q a) w
  readCached : ∀ read, call.readCached = some read → ∀ w, K.guar start w →
    read.Meets K (fun found _ => ∀ a, found = some a → Q a) w

section calls

variable {env : FlightEnv} {call : FlightCall ω φ α} {start : ω}

theorem meets_load (h : Lands K Q start call) (hs : K.guar start s.world) :
    (load call : FlightProg ι ω φ α).Meets (ofWorld K) (fun a _ => Q a) s :=
  meets_onWorld (h.load _ hs)

theorem meets_waitForLeader (h : Lands K Q start call) {read : Prog ω Empty φ (Option α)}
    (hread : call.readCached = some read) {deadline : Int} {again : FlightProg ι ω φ α}
    (hagain : ∀ t : FlightStore ι ω, K.guar start t.world →
      again.Meets (ofWorld K) (fun a _ => Q a) t)
    (rounds : Nat) (hs : K.guar start s.world) :
    (waitForLeader env call read deadline again rounds).Meets (ofWorld K) (fun a _ => Q a) s := by
  induction rounds generalizing s with
  | zero => exact meets_load h hs
  | succ rounds ih =>
      unfold waitForLeader
      refine meets_bind (meets_aside _) fun now t hst _ => ?_
      have ht : K.guar start t.world := K.trans hs hst
      split
      · refine meets_bind (meets_onWorld (h.readCached read hread _ ht))
          fun found u htu hfound => ?_
        have hu : K.guar start u.world := K.trans ht htu
        cases found with
        | some a => exact hfound a rfl
        | none =>
            refine meets_bind (meets_aside _) fun held v huv _ => ?_
            have hv : K.guar start v.world := K.trans hu huv
            cases held with
            | true => exact meets_bind (meets_delay _) fun _ w hvw _ => ih (K.trans hv hvw)
            | false => exact hagain v hv
      · exact meets_load h ht

theorem meets_joinLocal (process key : String) :
    (joinLocal process key : FlightProg ι ω φ Bool).Meets (ofWorld K) (fun _ _ => True) s := by
  apply meets_beside
  intro t
  split <;> rfl

variable [DecidableEq ι] {self : ι}

theorem meets_loadAsHolder (h : Lands K Q start call) (hs : K.guar start s.world) :
    (loadAsHolder env call self).Meets (ofWorld K) (fun a _ => Q a) s := by
  refine meets_bind (meets_attempt (meets_load h hs)) fun result t _ hresult => ?_
  exact meets_bind (meets_beside fun _ => rfl) fun _ u _ _ => meets_rethrow hresult

theorem meets_setLock (lockKey : String) :
    (setLock self lockKey : FlightProg ι ω φ Bool).Meets (ofWorld K) (fun _ _ => True) s := by
  apply meets_beside
  intro t
  split <;> rfl

theorem meets_runWithOptionalRedis (h : Lands K Q start call) (attempts : Nat)
    (hs : K.guar start s.world) :
    (runWithOptionalRedis env call self attempts).Meets (ofWorld K) (fun a _ => Q a) s := by
  induction attempts generalizing s with
  | zero => exact meets_load h hs
  | succ attempts ih =>
      unfold runWithOptionalRedis
      split
      · refine meets_bind (meets_setLock _) fun locked t hst _ => ?_
        have ht : K.guar start t.world := K.trans hs hst
        cases locked with
        | true => exact meets_loadAsHolder h ht
        | false =>
            simp only [Bool.false_eq_true, if_false]
            cases hread : call.readCached with
            | none => exact meets_load h ht
            | some read =>
                refine meets_bind (meets_aside _) fun now u htu _ => ?_
                exact meets_waitForLeader h hread (fun v hv => ih hv) _ (K.trans ht htu)
      · exact meets_load h hs

/-- The rule of flights: what settles has been loaded or looked up. -/
theorem meets_run (h : Lands K Q start call) (hs : K.guar start s.world) :
    (run env call self).Meets (ofWorld K) (fun r _ => ∀ a, r = .settled a → Q a) s := by
  refine meets_bind (meets_joinLocal _ _) fun joined t hst _ => ?_
  have ht : K.guar start t.world := K.trans hs hst
  cases joined with
  | true => exact fun a ha => by cases ha
  | false =>
      simp only [Bool.false_eq_true, if_false]
      refine meets_bind (meets_attempt (meets_runWithOptionalRedis h 4 ht)) fun result u _ hr => ?_
      refine meets_bind (meets_beside fun _ => rfl) fun _ v _ _ => ?_
      refine meets_bind (meets_rethrow hr) fun a w _ ha => ?_
      intro b hb
      cases hb
      exact ha

end calls

end Feca.Cache
