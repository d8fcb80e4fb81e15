import Mathlib.Data.Fintype.Basic
import Feca.Concurrency.History
import Feca.Concurrency.Part

/-! # Check, act, announce

Calls that race for one thing. Each looks whether it is there, makes it where it
is not, and announces what it has made, in separate statements. As long as no
call acts while another one has looked and may still act, one of them makes the
thing and announces it, and none fails.
-/

namespace Concurrency

/-- The call ended without an answer. -/
def Prog.failed {σ ε φ α : Type} : Prog σ ε φ α → Bool
  | .fail _ => true
  | _ => false

theorem Prog.exists_of_failed {σ ε φ α : Type} {p : Prog σ ε φ α} (h : p.failed = true) :
    ∃ e, p = .fail e := by
  cases p with
  | done a => cases h
  | fail e => exact ⟨e, rfl⟩
  | step exec next => cases h

/-- What the calls race for is seen in a part of the store; each call relies on
what the others leave alone. -/
structure Race (ι σ ε τ : Type) where
  view : σ → τ
  done : τ → Prop
  rely : ι → σ → σ → Prop
  refl : ∀ i s, rely i s s
  trans : ∀ {i s t u}, rely i s t → rely i t u → rely i s u
  checks : ε → Bool
  acts : ε → Bool
  announces : ε → Bool

inductive Phase
  | checking
  | acting
  | announcing
  | over
  deriving DecidableEq, Repr

namespace Race

variable {ι σ ε φ α β τ : Type} (R : Race ι σ ε τ)

/-- Neither an act nor an announcement. -/
structure Quiet (es : List ε) : Prop where
  acts : ∀ e ∈ es, R.acts e = false
  announces : es.countP R.announces = 0

/-- What a statement may do in a phase, and the phase it leads to. -/
inductive Moves (s t : σ) (es : List ε) : Phase → Phase → Prop
  | wait {phase : Phase} (hview : R.view t = R.view s) (hquiet : R.Quiet es) :
      Moves s t es phase phase
  | found (hview : R.view t = R.view s) (hquiet : R.Quiet es) (hdone : R.done (R.view s)) :
      Moves s t es .checking .over
  | missed (hview : R.view t = R.view s) (hquiet : R.Quiet es) (hopen : ¬ R.done (R.view s))
      (hchecks : ∃ e ∈ es, R.checks e = true) : Moves s t es .checking .acting
  | act (hdone : R.done (R.view t)) (hacts : ∃ e ∈ es, R.acts e = true)
      (hsilent : es.countP R.announces = 0) : Moves s t es .acting .announcing
  | announce (hview : R.view t = R.view s) (hquiet : ∀ e ∈ es, R.acts e = false)
      (honce : es.countP R.announces = 1) : Moves s t es .announcing .over

/-- From the store it last saw, and whatever the others did to it since, the
program goes through the phases. While it acts, nobody has touched the view. -/
def Performs (i : ι) (Q : α → Phase → σ → Prop) : Phase → Prog σ ε φ α → σ → Prop
  | phase, .done a, s => Q a phase s
  | _, .fail _, _ => False
  | phase, .step exec next, s => ∀ t, R.rely i s t → (phase = .acting → R.view t = R.view s) →
      (∀ j, j ≠ i → R.rely j t (exec t).1) ∧
        ∃ phase', R.Moves t (exec t).1 (exec t).2 phase phase' ∧
          Performs i Q phase' (next t) (exec t).1

variable {R} {i : ι} {Q : α → Phase → σ → Prop} {phase : Phase} {s : σ}

/-! ## Composing programs -/

theorem performs_pure {a : α} (h : Q a phase s) :
    R.Performs i Q phase (pure a : Prog σ ε φ α) s := h

theorem performs_stmt {f : σ → Answer σ ε φ α}
    (h : ∀ t, R.rely i s t → (phase = .acting → R.view t = R.view s) →
      (∀ j, j ≠ i → R.rely j t (f t).store) ∧ ∃ phase' a, (f t).result = .ok a ∧
        R.Moves t (f t).store (f t).events phase phase' ∧ Q a phase' (f t).store) :
    R.Performs i Q phase (Prog.stmt f) s := by
  intro t hrely hview
  obtain ⟨hothers, phase', a, hresult, hmoves, hpost⟩ := h t hrely hview
  refine ⟨hothers, phase', hmoves, ?_⟩
  dsimp only
  rw [hresult]
  exact hpost

theorem quiet_nil : R.Quiet [] := ⟨by simp, rfl⟩

theorem performs_query {read : σ → α}
    (h : ∀ t, R.rely i s t → (phase = .acting → R.view t = R.view s) → Q (read t) phase t) :
    R.Performs i Q phase (Prog.query read : Prog σ ε φ α) s := by
  apply performs_stmt
  intro t hrely hview
  exact ⟨fun j _ => R.refl j t, phase, read t, rfl, .wait rfl quiet_nil, h t hrely hview⟩

theorem performs_bind {Q : β → Phase → σ → Prop} {p : Prog σ ε φ α} {k : α → Prog σ ε φ β}
    (h : R.Performs i (fun a phase t => R.Performs i Q phase (k a) t) phase p s) :
    R.Performs i Q phase (p >>= k) s := by
  induction p generalizing phase s with
  | done a => exact h
  | fail e => exact h
  | step exec next ih =>
      intro t hrely hview
      obtain ⟨hothers, phase', hmoves, hnext⟩ := h t hrely hview
      exact ⟨hothers, phase', hmoves, ih t hnext⟩

theorem Performs.mono {Q' : α → Phase → σ → Prop} {p : Prog σ ε φ α}
    (h : R.Performs i Q phase p s) (hpost : ∀ a phase t, Q a phase t → Q' a phase t) :
    R.Performs i Q' phase p s := by
  induction p generalizing phase s with
  | done a => exact hpost a phase s h
  | fail e => exact h
  | step exec next ih =>
      intro t hrely hview
      obtain ⟨hothers, phase', hmoves, hnext⟩ := h t hrely hview
      exact ⟨hothers, phase', hmoves, ih t hnext⟩

/-- The call has come to its end. -/
def IsOver (_ : α) (phase : Phase) (_ : σ) : Prop := phase = .over

theorem Performs.later {p : Prog σ ε φ α} {t : σ} (h : R.Performs i IsOver phase p s)
    (hrely : R.rely i s t) (hview : phase = .acting → R.view t = R.view s) :
    R.Performs i IsOver phase p t := by
  cases p with
  | done a => exact h
  | fail e => exact h
  | step exec next =>
      intro u hu hview'
      exact h u (R.trans hrely hu) fun hacting => (hview' hacting).trans (hview hacting)

/-- A call that is about to act may do so now. -/
theorem Performs.mayAct {p : Prog σ ε φ α} (h : R.Performs i IsOver .acting p s) :
    p.MayEmit (R.acts · = true) := by
  induction p generalizing s with
  | done a => cases h
  | fail e => exact h.elim
  | step exec next ih =>
      obtain ⟨-, phase', hmoves, hnext⟩ := h s (R.refl i s) fun _ => rfl
      cases hmoves with
      | wait hview hquiet => exact ⟨s, .inr (ih s hnext)⟩
      | act hdone hacts hsilent => exact ⟨s, .inl hacts⟩

theorem Moves.view_eq {t : σ} {es : List ε} {phase' : Phase} (h : R.Moves s t es phase phase') :
    R.view t = R.view s ∨ ∃ e ∈ es, R.acts e = true := by
  cases h with
  | wait hview _ => exact .inl hview
  | found hview _ _ => exact .inl hview
  | missed hview _ _ _ => exact .inl hview
  | act _ hacts _ => exact .inr hacts
  | announce hview _ _ => exact .inl hview

/-! ## Programs that nobody observes -/

/-- The whole store as its own part. -/
def whole : Part σ σ := ⟨id, fun t _ => t, fun _ _ => rfl⟩

variable (R) in
def unobserved : Race ι σ Empty τ :=
  { R with checks := Empty.elim, acts := Empty.elim, announces := Empty.elim }

/-- A program without events waits, or finds the thing there. -/
theorem performs_onPart {p : Prog σ Empty φ α} (h : R.unobserved.Performs i Q phase p s) :
    R.Performs i Q phase (p.onPart whole) s := by
  induction p generalizing phase s with
  | done a => exact h
  | fail e => exact h
  | step exec next ih =>
      intro t hrely hcalm
      obtain ⟨hothers, phase', hmoves, hnext⟩ := h t hrely hcalm
      refine ⟨hothers, phase', ?_, ih t hnext⟩
      cases hmoves with
      | wait hview _ => exact .wait hview quiet_nil
      | found hview _ hdone => exact .found hview quiet_nil hdone
      | missed _ _ _ hchecks => exact hchecks.choose.elim
      | act _ hacts _ => exact hacts.choose.elim
      | announce _ _ honce =>
          cases hevents : (exec t).2 with
          | nil =>
              rw [hevents] at honce
              cases honce
          | cons e _ => exact e.elim

/-! ## Runs -/

section runs

variable [DecidableEq ι] (R)

/-- The call acts only while no other one that has looked may still act. -/
def Careful (c : Config ι σ ε φ α) (i : ι) : Prop :=
  (∃ e ∈ c.upcoming i, R.acts e = true) → ∀ j, j ≠ i →
    (∀ e ∈ c.reported j, R.checks e = false) ∨ ¬ (c.calls j).MayEmit (R.acts · = true)

/-- The call does not act now, or every other one is over or has not looked. -/
def Apart (c : Config ι σ ε φ α) (i : ι) : Prop :=
  (c.upcoming i).any R.acts = false ∨
    ∀ j, j ≠ i → (c.calls j).ended = true ∨ (c.reported j).any R.checks = false

instance [Fintype ι] (c : Config ι σ ε φ α) (i : ι) : Decidable (R.Apart c i) := by
  unfold Apart
  infer_instance

variable {R} in
theorem Apart.careful {c : Config ι σ ε φ α} (h : R.Apart c i) : R.Careful c i := by
  intro hacts j hj
  rcases h with hquiet | hothers
  · obtain ⟨e, he, hact⟩ := hacts
    exact absurd hact (List.any_eq_false.mp hquiet e he)
  · rcases hothers j hj with hended | hunchecked
    · exact .inr (Prog.not_mayEmit_of_ended hended)
    · exact .inl fun e he => Bool.eq_false_iff.mpr (List.any_eq_false.mp hunchecked e he)

def announcements (c : Config ι σ ε φ α) : Nat := c.trace.countP fun x => R.announces x.2

/-- How far the calls have come together. -/
inductive Progress (c : Config ι σ ε φ α) (phase : ι → Phase) : Prop
  | unmade (hopen : ¬ R.done (R.view c.store)) (hsilent : R.announcements c = 0)
      (hcalls : ∀ j, phase j = .checking ∨ phase j = .acting)
  | made (k : ι) (hdone : R.done (R.view c.store)) (hsilent : R.announcements c = 0)
      (hk : phase k = .announcing) (hcalls : ∀ j, j ≠ k → phase j = .checking ∨ phase j = .over)
  | announced (hdone : R.done (R.view c.store)) (honce : R.announcements c = 1)
      (hcalls : ∀ j, phase j = .checking ∨ phase j = .over)

structure Running (c : Config ι σ ε φ α) (phase : ι → Phase) : Prop where
  performs : ∀ j, R.Performs j IsOver (phase j) (c.calls j) c.store
  checked : ∀ j, phase j = .acting → ∃ e ∈ c.reported j, R.checks e = true
  progress : R.Progress c phase

variable {R} {c : Config ι σ ε φ α} {phase : ι → Phase}

theorem announcements_advance (c : Config ι σ ε φ α) (i : ι) :
    R.announcements (c.advance i) =
      R.announcements c + (c.upcoming i).countP R.announces := by
  unfold announcements
  rw [Config.advance_trace, List.countP_append, List.countP_map]
  rfl

/-- A call about to act has looked and may act: no careful call acts before it. -/
theorem not_acting (h : R.Running c phase) (hcareful : R.Careful c i)
    (hacts : ∃ e ∈ c.upcoming i, R.acts e = true) {j : ι} (hj : j ≠ i) : phase j ≠ .acting := by
  intro hacting
  rcases hcareful hacts j hj with hunchecked | hover
  · obtain ⟨e, he, hcheck⟩ := h.checked j hacting
    rw [hunchecked e he] at hcheck
    cases hcheck
  · have hperforms := h.performs j
    rw [hacting] at hperforms
    exact hover hperforms.mayAct

/-- The phases after one call has moved. -/
theorem phases_update {P : ι → Phase → Prop} {phase' : Phase} (hself : P i phase')
    (hothers : ∀ j, j ≠ i → P j (phase j)) : ∀ j, P j (Function.update phase i phase' j) := by
  intro j
  by_cases hj : j = i
  · rw [hj, Function.update_self]
    exact hself
  · rw [Function.update_of_ne hj]
    exact hothers j hj

/-- A statement that leaves the view and the announcements alone, in a phase
that the state of the race allows. -/
theorem progress_quiet (h : R.Progress c phase)
    (hview : R.view (c.advance i).store = R.view c.store) (hquiet : R.Quiet (c.upcoming i))
    {phase' : Phase} (hmoves : phase' = phase i ∨
      (phase i = .checking ∧ phase' = .over ∧ R.done (R.view c.store)) ∨
      (phase i = .checking ∧ phase' = .acting ∧ ¬ R.done (R.view c.store))) :
    R.Progress (c.advance i) (Function.update phase i phase') := by
  have hcount : R.announcements (c.advance i) = R.announcements c := by
    rw [announcements_advance, hquiet.announces, Nat.add_zero]
  cases h with
  | unmade hopen hsilent hcalls =>
      apply Progress.unmade (hview ▸ hopen) (hcount.trans hsilent)
      apply phases_update (P := fun _ p => p = .checking ∨ p = .acting) _ fun j _ => hcalls j
      rcases hmoves with rfl | ⟨_, _, hdone⟩ | ⟨_, rfl, _⟩
      · exact hcalls i
      · exact absurd hdone hopen
      · exact .inr rfl
  | made k hdone hsilent hk hcalls =>
      have hsettled : i ≠ k → phase' = .checking ∨ phase' = .over := by
        intro hi
        rcases hmoves with rfl | ⟨_, rfl, _⟩ | ⟨_, _, hopen⟩
        · exact hcalls i hi
        · exact .inr rfl
        · exact absurd hdone hopen
      have hstays : i = k → phase' = .announcing := by
        intro hi
        rcases hmoves with rfl | ⟨hbefore, _⟩ | ⟨hbefore, _⟩
        · exact hi ▸ hk
        · rw [hi, hk] at hbefore
          cases hbefore
        · rw [hi, hk] at hbefore
          cases hbefore
      apply Progress.made k (hview ▸ hdone) (hcount.trans hsilent)
      · exact phases_update (P := fun j p => j = k → p = .announcing) hstays
          (fun j _ hj => hj ▸ hk) k rfl
      · exact phases_update (P := fun j p => j ≠ k → p = .checking ∨ p = .over) hsettled
          fun j _ hj => hcalls j hj
  | announced hdone honce hcalls =>
      apply Progress.announced (hview ▸ hdone) (hcount.trans honce)
      apply phases_update (P := fun _ p => p = .checking ∨ p = .over) _ fun j _ => hcalls j
      rcases hmoves with rfl | ⟨_, rfl, _⟩ | ⟨_, _, hopen⟩
      · exact hcalls i
      · exact .inr rfl
      · exact absurd hdone hopen

/-- The one call that acts. -/
theorem progress_act (h : R.Running c phase) (hcareful : R.Careful c i)
    (hacting : phase i = .acting) (hdone : R.done (R.view (c.advance i).store))
    (hacts : ∃ e ∈ c.upcoming i, R.acts e = true)
    (hsilent : (c.upcoming i).countP R.announces = 0) :
    R.Progress (c.advance i) (Function.update phase i .announcing) := by
  have hcount : R.announcements (c.advance i) = R.announcements c := by
    rw [announcements_advance, hsilent, Nat.add_zero]
  cases h.progress with
  | unmade _ hnone hcalls =>
      apply Progress.made i hdone (hcount.trans hnone) (Function.update_self ..)
      intro j hj
      rw [Function.update_of_ne hj]
      exact .inl ((hcalls j).resolve_right (not_acting h hcareful hacts hj))
  | made k _ _ hk hcalls =>
      by_cases hi : i = k
      · rw [hi, hk] at hacting
        cases hacting
      · simpa [hacting] using hcalls i hi
  | announced _ _ hcalls => simpa [hacting] using hcalls i

/-- The one call that announces. -/
theorem progress_announce (h : R.Progress c phase) (hannouncing : phase i = .announcing)
    (hview : R.view (c.advance i).store = R.view c.store)
    (honce : (c.upcoming i).countP R.announces = 1) :
    R.Progress (c.advance i) (Function.update phase i .over) := by
  cases h with
  | unmade _ _ hcalls => simpa [hannouncing] using hcalls i
  | made k hdone hsilent hk hcalls =>
      have hi : i = k := by
        by_contra hi
        simpa [hannouncing] using hcalls i hi
      apply Progress.announced (hview ▸ hdone)
      · rw [announcements_advance, hsilent, honce]
      · apply phases_update (P := fun _ p => p = .checking ∨ p = .over) (.inr rfl)
        exact fun j hj => hcalls j (hi ▸ hj)
  | announced _ _ hcalls => simpa [hannouncing] using hcalls i

theorem progress_advance (h : R.Running c phase) (hcareful : R.Careful c i) {before phase' : Phase}
    (hbefore : phase i = before)
    (hmoves : R.Moves c.store (c.advance i).store (c.upcoming i) before phase') :
    R.Progress (c.advance i) (Function.update phase i phase') := by
  cases hmoves with
  | wait hview hquiet => exact progress_quiet h.progress hview hquiet (.inl hbefore.symm)
  | found hview hquiet hdone =>
      exact progress_quiet h.progress hview hquiet (.inr (.inl ⟨hbefore, rfl, hdone⟩))
  | missed hview hquiet hopen _ =>
      exact progress_quiet h.progress hview hquiet (.inr (.inr ⟨hbefore, rfl, hopen⟩))
  | act hdone hacts hsilent => exact progress_act h hcareful hbefore hdone hacts hsilent
  | announce hview _ honce => exact progress_announce h.progress hbefore hview honce

/-- What the phase of a call says of its own reports. -/
theorem checked_advance (h : R.Running c phase) {before phase' : Phase} (hbefore : phase i = before)
    (hmoves : R.Moves c.store (c.advance i).store (c.upcoming i) before phase') :
    ∀ j, Function.update phase i phase' j = .acting →
      ∃ e ∈ (c.advance i).reported j, R.checks e = true := by
  apply phases_update (P := fun j p => p = .acting → ∃ e ∈ (c.advance i).reported j, R.checks e = true)
  · intro hacting
    rw [Config.reported_advance_self]
    cases hmoves with
    | wait hview hquiet =>
        obtain ⟨e, he, hcheck⟩ := h.checked i (hbefore.trans hacting)
        exact ⟨e, List.mem_append_left _ he, hcheck⟩
    | missed hview hquiet hopen hchecks =>
        obtain ⟨e, he, hcheck⟩ := hchecks
        exact ⟨e, List.mem_append_right _ he, hcheck⟩
    | found hview hquiet hdone => cases hacting
    | act hdone hacts hsilent => cases hacting
    | announce hview hquiet honce => cases hacting
  · intro j hj hacting
    rw [c.reported_advance_of_ne hj]
    exact h.checked j hacting

theorem running_advance (h : R.Running c phase) (hcareful : R.Careful c i) :
    ∃ phase', R.Running (c.advance i) phase' := by
  obtain he | ⟨exec, next, hstep, he⟩ := c.advance_cases i
  · rw [he]
    exact ⟨phase, h⟩
  · have hi := h.performs i
    rw [hstep] at hi
    obtain ⟨hothers, phase', hmoves, hnext⟩ := hi c.store (R.refl i c.store) fun _ => rfl
    have hevents : c.upcoming i = (exec c.store).2 := by
      unfold Config.upcoming
      rw [hstep]
    have hstore : (c.advance i).store = (exec c.store).1 := by rw [he]
    rw [← hevents, ← hstore] at hmoves
    rw [← hstore] at hothers hnext
    refine ⟨Function.update phase i phase', ?_, checked_advance h rfl hmoves,
      progress_advance h hcareful rfl hmoves⟩
    intro j
    by_cases hj : j = i
    · rw [hj, Function.update_self, he]
      rw [he] at hnext
      simpa using hnext
    · rw [Function.update_of_ne hj, c.advance_calls_of_ne hj]
      apply (h.performs j).later (hothers j hj)
      intro hacting
      rcases hmoves.view_eq with hview | hacts
      · exact hview
      · exact absurd hacting (not_acting h hcareful hacts hj)

/-- The race rule: calls that perform one by one perform together, as long as
each of them acts with care. -/
theorem running_run {schedule : List ι} (h : R.Running c phase)
    (heeds : Config.Heeds R.Careful c schedule) : ∃ phase', R.Running (c.run schedule) phase' :=
  Config.invariant_of_heeds (I := fun c => ∃ phase, R.Running c phase)
    (fun _ _ hrunning hcareful => by
      obtain ⟨phase, hrunning⟩ := hrunning
      exact running_advance hrunning hcareful) ⟨phase, h⟩ heeds

/-- The calls are about to begin, and the thing is not there. -/
theorem running_begin {calls : ι → Prog σ ε φ α}
    (hcalls : ∀ j, R.Performs j IsOver .checking (calls j) s) (hopen : ¬ R.done (R.view s)) :
    R.Running ⟨s, calls, []⟩ fun _ => .checking where
  performs := hcalls
  checked j h := by cases h
  progress := .unmade hopen rfl fun _ => .inl rfl

/-! What holds of every configuration of such a run. -/

theorem Running.not_failed (h : R.Running c phase) (j : ι) (e : φ) :
    c.calls j ≠ .fail e := by
  intro hfail
  have hperforms := h.performs j
  rw [hfail] at hperforms
  exact hperforms

theorem Running.over (h : R.Running c phase) {j : ι} (hended : (c.calls j).ended = true) :
    phase j = .over := by
  have hperforms := h.performs j
  cases hc : c.calls j with
  | done a =>
      rw [hc] at hperforms
      exact hperforms
  | fail e => exact absurd hc (h.not_failed j e)
  | step exec next =>
      rw [hc] at hended
      cases hended

theorem Running.announcements_le (h : R.Running c phase) : R.announcements c ≤ 1 := by
  cases h.progress with
  | unmade _ hsilent _ => omega
  | made _ _ hsilent _ _ => omega
  | announced _ honce _ => omega

/-- Once a call has ended, the thing is there. -/
theorem Running.done_of_ended (h : R.Running c phase) {j : ι}
    (hended : (c.calls j).ended = true) : R.done (R.view c.store) := by
  have hover := h.over hended
  cases h.progress with
  | unmade _ _ hcalls => simpa [hover] using hcalls j
  | made _ hdone _ _ _ => exact hdone
  | announced hdone _ _ => exact hdone

/-- Once all calls have ended, one of them has announced it. -/
theorem Running.announced_of_ended (h : R.Running c phase) (i : ι)
    (hended : ∀ j, (c.calls j).ended = true) : R.announcements c = 1 := by
  cases h.progress with
  | unmade _ _ hcalls => simpa [h.over (hended i)] using hcalls i
  | made k _ _ hk _ =>
      rw [h.over (hended k)] at hk
      cases hk
  | announced _ honce _ => exact honce

end runs

end Race

end Concurrency
