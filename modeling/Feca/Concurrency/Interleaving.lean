import Feca.Concurrency.Program

/-! # Interleavings of calls

A configuration is the shared store, the rest of every call in progress and the
trace of events so far. A schedule names, statement by statement, the call that
moves next; every law below is about every schedule. The contract rule is the
rely–guarantee argument, packaged once: calls that keep an invariant and a
transitive guarantee whatever the guarantee lets happen between two of their
statements keep both in every interleaving.
-/

namespace Concurrency

structure Config (ι σ ε φ α : Type) where
  store : σ
  calls : ι → Prog σ ε φ α
  trace : List (ι × ε)

namespace Config

variable {ι σ ε φ α : Type} [DecidableEq ι]

/-- Call `i` executes its next statement; a call that has ended does nothing. -/
def advance (c : Config ι σ ε φ α) (i : ι) : Config ι σ ε φ α :=
  match c.calls i with
  | .done _ => c
  | .fail _ => c
  | .step exec next =>
      ⟨(exec c.store).1, Function.update c.calls i (next c.store),
        c.trace ++ (exec c.store).2.map (i, ·)⟩

/-- What call `i` would report if it moved now. -/
def upcoming (c : Config ι σ ε φ α) (i : ι) : List ε :=
  match c.calls i with
  | .step exec _ => (exec c.store).2
  | _ => []

/-- What call `i` has returned. -/
def returned (c : Config ι σ ε φ α) (i : ι) : Option α :=
  match c.calls i with
  | .done a => some a
  | _ => none

def run (c : Config ι σ ε φ α) : List ι → Config ι σ ε φ α
  | [] => c
  | i :: schedule => (c.advance i).run schedule

/-- Every statement of the schedule finds a configuration that lets it move. -/
def Heeds (G : Config ι σ ε φ α → ι → Prop) : Config ι σ ε φ α → List ι → Prop
  | _, [] => True
  | c, i :: schedule => G c i ∧ Heeds G (c.advance i) schedule

instance decidableHeeds {G : Config ι σ ε φ α → ι → Prop} [dec : ∀ c i, Decidable (G c i)] :
    (c : Config ι σ ε φ α) → (schedule : List ι) → Decidable (Heeds G c schedule)
  | _, [] => .isTrue trivial
  | c, i :: schedule => @instDecidableAnd _ _ (dec c i) (decidableHeeds (c.advance i) schedule)

theorem Heeds.mono {G G' : Config ι σ ε φ α → ι → Prop} (h : ∀ c i, G c i → G' c i)
    {c : Config ι σ ε φ α} {schedule : List ι} (heeds : Heeds G c schedule) :
    Heeds G' c schedule := by
  induction schedule generalizing c with
  | nil => trivial
  | cons i schedule ih => exact ⟨h c i heeds.1, ih heeds.2⟩

theorem run_append (c : Config ι σ ε φ α) (xs ys : List ι) :
    c.run (xs ++ ys) = (c.run xs).run ys := by
  induction xs generalizing c with
  | nil => rfl
  | cons i xs ih => exact ih (c.advance i)

theorem heeds_append {G : Config ι σ ε φ α → ι → Prop} {c : Config ι σ ε φ α} {xs ys : List ι} :
    Heeds G c (xs ++ ys) ↔ Heeds G c xs ∧ Heeds G (c.run xs) ys := by
  induction xs generalizing c with
  | nil => simp [Heeds, run]
  | cons i xs ih => simp only [List.cons_append, Heeds, run, ih, and_assoc]

/-! ## One statement -/

theorem advance_step {c : Config ι σ ε φ α} {i : ι} {exec : σ → σ × List ε}
    {next : σ → Prog σ ε φ α} (h : c.calls i = .step exec next) :
    c.advance i = ⟨(exec c.store).1, Function.update c.calls i (next c.store),
      c.trace ++ (exec c.store).2.map (i, ·)⟩ := by
  unfold advance
  rw [h]

/-- Either the call had ended and nothing happened, or its next statement ran. -/
theorem advance_cases (c : Config ι σ ε φ α) (i : ι) :
    c.advance i = c ∨ ∃ exec next, c.calls i = .step exec next ∧
      c.advance i = ⟨(exec c.store).1, Function.update c.calls i (next c.store),
        c.trace ++ (exec c.store).2.map (i, ·)⟩ := by
  cases h : c.calls i with
  | done a => left; simp [advance, h]
  | fail e => left; simp [advance, h]
  | step exec next => exact .inr ⟨exec, next, rfl, advance_step h⟩

/-- A call scheduled to its end, nobody else moving, is a call run alone. -/
theorem run_alone (c : Config ι σ ε φ α) (i : ι) :
    ∃ n, (c.run (List.replicate n i)).store = ((c.calls i).run c.store).store := by
  have hrun : ∀ (p : Prog σ ε φ α) (c : Config ι σ ε φ α), c.calls i = p →
      ∃ n, (c.run (List.replicate n i)).store = (p.run c.store).store := by
    intro p
    induction p with
    | done a => exact fun c _ => ⟨0, rfl⟩
    | fail e => exact fun c _ => ⟨0, rfl⟩
    | step exec next ih =>
        intro c hc
        have hnext : (c.advance i).calls i = next c.store := by
          rw [advance_step hc]
          exact Function.update_self _ _ _
        obtain ⟨n, hn⟩ := ih c.store (c.advance i) hnext
        refine ⟨n + 1, ?_⟩
        rw [List.replicate_succ, run, hn, advance_step hc]
        rfl
  exact hrun (c.calls i) c rfl

theorem advance_trace (c : Config ι σ ε φ α) (i : ι) :
    (c.advance i).trace = c.trace ++ (c.upcoming i).map (i, ·) := by
  unfold upcoming
  cases h : c.calls i with
  | done a => simp [advance, h]
  | fail e => simp [advance, h]
  | step exec next => rw [advance_step h]

omit [DecidableEq ι] in
theorem mayEmit_of_upcoming {E : ε → Prop} {c : Config ι σ ε φ α} {i : ι} {e : ε}
    (he : e ∈ c.upcoming i) (hE : E e) : (c.calls i).MayEmit E := by
  unfold upcoming at he
  cases h : c.calls i with
  | done a => simp [h] at he
  | fail x => simp [h] at he
  | step exec next =>
      rw [h] at he
      exact .now he hE

theorem advance_calls_of_ne (c : Config ι σ ε φ α) {i j : ι} (h : j ≠ i) :
    (c.advance i).calls j = c.calls j := by
  obtain he | ⟨exec, next, -, he⟩ := c.advance_cases i
  · rw [he]
  · rw [he]
    exact Function.update_of_ne h _ _

/-- A call that never moves stays as it is. -/
theorem run_calls_of_notMem {c : Config ι σ ε φ α} {i : ι} {schedule : List ι}
    (h : i ∉ schedule) : (c.run schedule).calls i = c.calls i := by
  induction schedule generalizing c with
  | nil => rfl
  | cons j schedule ih =>
      rw [List.mem_cons, not_or] at h
      rw [run, ih h.2, c.advance_calls_of_ne h.1]

theorem always_advance {P : σ → σ → List ε → Prop} {c : Config ι σ ε φ α} {j : ι} (i : ι)
    (h : (c.calls j).Always P) : ((c.advance i).calls j).Always P := by
  obtain he | ⟨exec, next, hi, he⟩ := c.advance_cases i
  · rwa [he]
  · rw [he]
    by_cases hj : j = i
    · subst hj
      rw [hi] at h
      simpa using (h c.store).2
    · simpa [Function.update_of_ne hj] using h

/-- The statement of a call obeys the law of the call. -/
theorem law_of_always {P : σ → σ → List ε → Prop} {c : Config ι σ ε φ α} {i : ι}
    (h : (c.calls i).Always P) (idle : ∀ s, P s s []) :
    P c.store (c.advance i).store (c.upcoming i) := by
  unfold upcoming advance
  cases hi : c.calls i with
  | done a => exact idle c.store
  | fail e => exact idle c.store
  | step exec next =>
      rw [hi] at h
      exact (h c.store).1

/-- What a call may still do only shrinks. -/
theorem mayEmit_of_advance {E : ε → Prop} {c : Config ι σ ε φ α} {i j : ι}
    (h : ((c.advance i).calls j).MayEmit E) : (c.calls j).MayEmit E := by
  obtain he | ⟨exec, next, hi, he⟩ := c.advance_cases i
  · rwa [he] at h
  · rw [he] at h
    by_cases hj : j = i
    · subst hj
      rw [hi]
      exact Prog.MayEmit.next (by simpa using h)
    · simpa [Function.update_of_ne hj] using h

/-! ## Whole schedules -/

/-- The invariant rule: what every permitted statement keeps holds after every
schedule whose statements were all permitted. -/
theorem invariant_of_heeds {G : Config ι σ ε φ α → ι → Prop} {I : Config ι σ ε φ α → Prop}
    (step : ∀ c i, I c → G c i → I (c.advance i)) {c : Config ι σ ε φ α} (h : I c)
    {schedule : List ι} (heeds : Heeds G c schedule) : I (c.run schedule) := by
  induction schedule generalizing c with
  | nil => exact h
  | cons i schedule ih => exact ih (step c i h heeds.1) heeds.2

/-- The rule for laws of single statements: an invariant that permitted
statements keep, and under which they obey the law. -/
theorem heeds_of_heeds {G P : Config ι σ ε φ α → ι → Prop} {I : Config ι σ ε φ α → Prop}
    (step : ∀ c i, I c → G c i → P c i ∧ I (c.advance i)) {c : Config ι σ ε φ α} (h : I c)
    {schedule : List ι} (heeds : Heeds G c schedule) : Heeds P c schedule := by
  induction schedule generalizing c with
  | nil => trivial
  | cons i schedule ih =>
      obtain ⟨hP, hI⟩ := step c i h heeds.1
      exact ⟨hP, ih hI heeds.2⟩

theorem invariant_run {I : Config ι σ ε φ α → Prop} (step : ∀ c i, I c → I (c.advance i))
    {c : Config ι σ ε φ α} (h : I c) (schedule : List ι) : I (c.run schedule) := by
  induction schedule generalizing c with
  | nil => exact h
  | cons i schedule ih => exact ih (step c i h)

end Config

/-! ## Contracts -/

/-- What a call keeps (`inv`), and what it may do to the store while other
calls are between two of their statements (`guar`). -/
structure Contract (σ : Type) where
  inv : σ → Prop
  guar : σ → σ → Prop
  refl : ∀ s, guar s s
  trans : ∀ {s t u}, guar s t → guar t u → guar s u

namespace Prog

variable {σ ε φ α β : Type} {K : Contract σ} {Q : α → σ → Prop} {Q' : β → σ → Prop} {s : σ}

/-- From the store `s` it last saw, and whatever the guarantee did to it since,
the program keeps its contract and returns a result satisfying `Q`. -/
def Meets (K : Contract σ) (Q : α → σ → Prop) : Prog σ ε φ α → σ → Prop
  | .done a, s => Q a s
  | .fail _, _ => True
  | .step exec next, s => ∀ t, K.guar s t → K.inv t →
      K.inv (exec t).1 ∧ K.guar t (exec t).1 ∧ (next t).Meets K Q (exec t).1

theorem meets_stmt {f : σ → Answer σ ε φ α}
    (h : ∀ t, K.guar s t → K.inv t → K.inv (f t).store ∧ K.guar t (f t).store ∧
      ∀ a, (f t).result = .ok a → Q a (f t).store) : (stmt f).Meets K Q s := by
  intro t hst ht
  obtain ⟨hinv, hguar, hpost⟩ := h t hst ht
  refine ⟨hinv, hguar, ?_⟩
  dsimp only
  cases hr : (f t).result with
  | ok a => exact hpost a hr
  | error e => trivial

theorem meets_fail (e : φ) : (.fail e : Prog σ ε φ α).Meets K Q s := trivial

theorem meets_query {read : σ → α} (h : ∀ t, K.guar s t → K.inv t → Q (read t) t) :
    (query read : Prog σ ε φ α).Meets K Q s :=
  meets_stmt fun t hst ht => ⟨ht, K.refl t, fun a ha => by
    cases ha
    exact h t hst ht⟩

theorem meets_bind {p : Prog σ ε φ α} {k : α → Prog σ ε φ β} (hp : p.Meets K Q s)
    (hk : ∀ a t, K.guar s t → Q a t → (k a).Meets K Q' t) : (p >>= k).Meets K Q' s := by
  induction p generalizing s with
  | done a => exact hk a s (K.refl s) hp
  | fail e => trivial
  | step exec next ih =>
      intro t hst ht
      obtain ⟨hinv, hguar, hnext⟩ := hp t hst ht
      exact ⟨hinv, hguar, ih t hnext fun a u hu => hk a u (K.trans hst (K.trans hguar hu))⟩

theorem Meets.mono {Q₂ : α → σ → Prop} {p : Prog σ ε φ α} (hp : p.Meets K Q s)
    (h : ∀ a t, Q a t → Q₂ a t) : p.Meets K Q₂ s := by
  induction p generalizing s with
  | done a => exact h a s hp
  | fail e => trivial
  | step exec next ih =>
      intro t hst ht
      obtain ⟨hinv, hguar, hnext⟩ := hp t hst ht
      exact ⟨hinv, hguar, ih t hnext⟩

/-- A call that nobody interrupts keeps its contract as well. -/
theorem Meets.run {p : Prog σ ε φ α} (hp : p.Meets K Q s) (hinv : K.inv s) :
    K.inv (p.run s).store ∧ K.guar s (p.run s).store ∧
      ∀ a, (p.run s).result = .ok a → Q a (p.run s).store := by
  induction p generalizing s with
  | done a =>
      refine ⟨hinv, K.refl s, fun b hb => ?_⟩
      cases hb
      exact hp
  | fail e => exact ⟨hinv, K.refl s, fun b hb => by cases hb⟩
  | step exec next ih =>
      obtain ⟨hinv', hguar, hnext⟩ := hp s (K.refl s) hinv
      obtain ⟨hend, hrest, hQ⟩ := ih s hnext hinv'
      exact ⟨hend, K.trans hguar hrest, hQ⟩

theorem meets_attempt {ψ : Type} {p : Prog σ ε φ α}
    (hp : p.Meets K (fun a t => Q a t) s) :
    (p.attempt : Prog σ ε ψ (Except φ α)).Meets K
      (fun r t => ∀ a, r = .ok a → Q a t) s := by
  induction p generalizing s with
  | done a =>
      intro b hb
      cases hb
      exact hp
  | fail e => exact fun b hb => by cases hb
  | step exec next ih =>
      intro t hst ht
      obtain ⟨hinv, hguar, hnext⟩ := hp t hst ht
      exact ⟨hinv, hguar, ih t hnext⟩

/-- Statements that keep the contract whatever store they find. -/
theorem Always.meets {p : Prog σ ε φ α}
    (hp : p.Always fun s t _ => K.inv s → K.inv t ∧ K.guar s t) :
    p.Meets K (fun _ _ => True) s := by
  induction p generalizing s with
  | done a => trivial
  | fail e => trivial
  | step exec next ih =>
      intro t _ hinv
      obtain ⟨hinv', hguar⟩ := (hp t).1 hinv
      exact ⟨hinv', hguar, ih t (hp t).2⟩

/-- Others may move the store along the guarantee while the call waits. -/
theorem Meets.later_of_stable {p : Prog σ ε φ α} {t : σ} (hp : p.Meets K Q s) (h : K.guar s t)
    (stable : ∀ a s t, Q a s → K.guar s t → Q a t) : p.Meets K Q t := by
  cases p with
  | done a => exact stable a s t hp h
  | fail e => trivial
  | step exec next => exact fun u hu => hp u (K.trans h hu)

theorem Meets.later {p : Prog σ ε φ α} {t : σ} (hp : p.Meets K (fun _ _ => True) s)
    (h : K.guar s t) : p.Meets K (fun _ _ => True) t :=
  hp.later_of_stable h fun _ _ _ _ _ => trivial

end Prog

namespace Config

variable {ι σ ε φ α : Type} [DecidableEq ι] {K : Contract σ}

/-- The call that moves keeps its contract, whatever the others do. -/
theorem meets_step {Q : α → σ → Prop} {c : Config ι σ ε φ α} {i : ι} (hinv : K.inv c.store)
    (hi : (c.calls i).Meets K Q c.store) :
    K.inv (c.advance i).store ∧ K.guar c.store (c.advance i).store ∧
      ((c.advance i).calls i).Meets K Q (c.advance i).store := by
  obtain he | ⟨exec, next, hstep, he⟩ := c.advance_cases i
  · rw [he]
    exact ⟨hinv, K.refl _, hi⟩
  · rw [hstep] at hi
    obtain ⟨hinv', hguar, hnext⟩ := hi c.store (K.refl _) hinv
    rw [he]
    exact ⟨hinv', hguar, by simpa using hnext⟩

section results

variable {Q : ι → α → σ → Prop} (stable : ∀ j a s t, Q j a s → K.guar s t → Q j a t)
include stable

theorem meets_advance {c : Config ι σ ε φ α} (hinv : K.inv c.store)
    (hcalls : ∀ j, (c.calls j).Meets K (Q j) c.store) (i : ι) :
    (K.inv (c.advance i).store ∧ K.guar c.store (c.advance i).store) ∧
      ∀ j, ((c.advance i).calls j).Meets K (Q j) (c.advance i).store := by
  obtain ⟨hinv', hguar, hnext⟩ := meets_step hinv (hcalls i)
  refine ⟨⟨hinv', hguar⟩, fun j => ?_⟩
  by_cases hj : j = i
  · exact hj ▸ hnext
  · rw [c.advance_calls_of_ne hj]
    exact (hcalls j).later_of_stable hguar (stable j)

/-- The interleaving rule: calls that meet the contract one by one keep it
together, whatever the schedule, and return what they promise. -/
theorem contract_results {c : Config ι σ ε φ α} (hinv : K.inv c.store)
    (hcalls : ∀ j, (c.calls j).Meets K (Q j) c.store) (schedule : List ι) :
    (K.inv (c.run schedule).store ∧ K.guar c.store (c.run schedule).store) ∧
      ∀ j, ((c.run schedule).calls j).Meets K (Q j) (c.run schedule).store := by
  induction schedule generalizing c with
  | nil => exact ⟨⟨hinv, K.refl _⟩, hcalls⟩
  | cons i schedule ih =>
      obtain ⟨⟨hinv', hguar⟩, hcalls'⟩ := meets_advance stable hinv hcalls i
      obtain ⟨⟨hend, hrest⟩, hlast⟩ := ih hinv' hcalls'
      exact ⟨⟨hend, K.trans hguar hrest⟩, hlast⟩

end results

omit [DecidableEq ι] in
/-- What a call has returned satisfies what it promised. -/
theorem returned_of_meets {Q : α → σ → Prop} {c : Config ι σ ε φ α} {i : ι} {s : σ} {a : α}
    (h : (c.calls i).Meets K Q s) (hreturned : c.returned i = some a) : Q a s := by
  unfold returned at hreturned
  cases hi : c.calls i with
  | done b =>
      rw [hi] at h hreturned
      cases hreturned
      exact h
  | fail e => simp [hi] at hreturned
  | step exec next => simp [hi] at hreturned

theorem contract_run {c : Config ι σ ε φ α} (hinv : K.inv c.store)
    (hcalls : ∀ j, (c.calls j).Meets K (fun _ _ => True) c.store) (schedule : List ι) :
    K.inv (c.run schedule).store ∧ K.guar c.store (c.run schedule).store :=
  (contract_results (Q := fun _ _ _ => True) (fun _ _ _ _ _ _ => trivial) hinv hcalls schedule).1

end Config

end Concurrency
