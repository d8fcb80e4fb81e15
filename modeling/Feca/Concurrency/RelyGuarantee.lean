import Feca.Concurrency.Interleaving

/-! # Rely and guarantee

A call often claims a part of the store for itself: what others do between two
of its statements leaves that part alone, and what it does there is nobody
else's concern. `Abides` is the law of such a call. It relies on one relation,
guarantees another, and may be confined to the statements a condition on the
store permits; calls that guarantee what the others rely on abide together.
-/

namespace Concurrency

/-- What a call relies on, what it guarantees, and which of its statements a run
lets happen. -/
structure Duty (σ ε : Type) where
  rely : σ → σ → Prop
  guar : σ → σ → Prop
  permits : σ → List ε → Prop
  refl : ∀ s, rely s s
  trans : ∀ {s t u}, rely s t → rely t u → rely s u

namespace Prog

variable {σ ε φ ψ α β : Type} {D : Duty σ ε} {s : σ}

/-- From the store it last saw, and whatever the others did to it since, the
call keeps its guarantee and ends, or fails, as `Q` says. -/
def Abides (D : Duty σ ε) (Q : Except φ α → σ → Prop) : Prog σ ε φ α → σ → Prop
  | .done a, s => Q (.ok a) s
  | .fail e, s => Q (.error e) s
  | .step exec next, s => ∀ t, D.rely s t → D.permits t (exec t).2 →
      D.guar t (exec t).1 ∧ (next t).Abides D Q (exec t).1

theorem abides_stmt {Q : Except φ α → σ → Prop} {f : σ → Answer σ ε φ α}
    (h : ∀ t, D.rely s t → D.permits t (f t).events →
      D.guar t (f t).store ∧ Q (f t).result (f t).store) : (stmt f).Abides D Q s := by
  intro t hst hpermits
  have hstep := h t hst hpermits
  refine ⟨hstep.1, ?_⟩
  have hpost := hstep.2
  dsimp only
  cases hr : (f t).result with
  | ok a =>
      rw [hr] at hpost
      exact hpost
  | error e =>
      rw [hr] at hpost
      exact hpost

theorem abides_bind {Q : Except φ β → σ → Prop} {p : Prog σ ε φ α} {k : α → Prog σ ε φ β}
    (h : p.Abides D (fun r t =>
      match r with
      | .ok a => (k a).Abides D Q t
      | .error e => Q (.error e) t) s) : (p >>= k).Abides D Q s := by
  induction p generalizing s with
  | done a => exact h
  | fail e => exact h
  | step exec next ih =>
      intro t hst hpermits
      have hstep := h t hst hpermits
      exact ⟨hstep.1, ih t hstep.2⟩

theorem abides_attempt {Q : Except ψ (Except φ α) → σ → Prop} {p : Prog σ ε φ α}
    (h : p.Abides D (fun r t => Q (.ok r) t) s) :
    (p.attempt : Prog σ ε ψ (Except φ α)).Abides D Q s := by
  induction p generalizing s with
  | done a => exact h
  | fail e => exact h
  | step exec next ih =>
      intro t hst hpermits
      have hstep := h t hst hpermits
      exact ⟨hstep.1, ih t hstep.2⟩

theorem Abides.mono {Q Q' : Except φ α → σ → Prop} {p : Prog σ ε φ α} (h : p.Abides D Q s)
    (hpost : ∀ r t, Q r t → Q' r t) : p.Abides D Q' s := by
  induction p generalizing s with
  | done a => exact hpost (.ok a) s h
  | fail e => exact hpost (.error e) s h
  | step exec next ih =>
      intro t hst hpermits
      have hstep := h t hst hpermits
      exact ⟨hstep.1, ih t hstep.2⟩

/-- Where nothing is promised of a failure, a call is followed through its results. -/
theorem abides_bind_ok {P : α → σ → Prop} {Q : β → σ → Prop} {p : Prog σ ε φ α}
    {k : α → Prog σ ε φ β} (h : p.Abides D (fun r t => ∀ a, r = .ok a → P a t) s)
    (hk : ∀ a t, P a t → (k a).Abides D (fun r u => ∀ b, r = .ok b → Q b u) t) :
    (p >>= k).Abides D (fun r u => ∀ b, r = .ok b → Q b u) s := by
  refine abides_bind (h.mono fun r t hr => ?_)
  cases r with
  | ok a => exact hk a t (hr a rfl)
  | error e => exact nofun

/-- While the call waits, the others stay within what it relies on. -/
theorem Abides.later {Q : Except φ α → σ → Prop} {p : Prog σ ε φ α} {t : σ}
    (h : p.Abides D Q s) (hst : D.rely s t)
    (stable : ∀ r s t, Q r s → D.rely s t → Q r t) : p.Abides D Q t := by
  cases p with
  | done a => exact stable (.ok a) s t h hst
  | fail e => exact stable (.error e) s t h hst
  | step exec next => exact fun u htu hpermits => h u (D.trans hst htu) hpermits

end Prog

namespace Config

variable {ι σ ε φ α : Type} [DecidableEq ι] {D : ι → Duty σ ε}
  {Q : ι → Except φ α → σ → Prop}

/-- The next statement of a call is one its duty permits. -/
def Permits (D : ι → Duty σ ε) (c : Config ι σ ε φ α) (i : ι) : Prop :=
  (D i).permits c.store (c.upcoming i)

/-- What a permitted statement guarantees. -/
theorem guar_advance {c : Config ι σ ε φ α} (h : ∀ j, (c.calls j).Abides (D j) (Q j) c.store)
    {i : ι} (hpermits : Permits D c i) (hidle : (D i).guar c.store c.store) :
    (D i).guar c.store (c.advance i).store := by
  obtain he | ⟨exec, next, hstep, he⟩ := c.advance_cases i
  · rw [he]
    exact hidle
  · have hi := h i
    rw [hstep] at hi
    have hpermits' : (D i).permits c.store (exec c.store).2 := by
      unfold Permits upcoming at hpermits
      rw [hstep] at hpermits
      exact hpermits
    rw [he]
    exact (hi c.store ((D i).refl c.store) hpermits').1

theorem abides_advance
    (compatible : ∀ i j, j ≠ i → ∀ s t, (D i).guar s t → (D j).rely s t)
    (stable : ∀ j r s t, Q j r s → (D j).rely s t → Q j r t) {c : Config ι σ ε φ α}
    (h : ∀ j, (c.calls j).Abides (D j) (Q j) c.store) {i : ι} (hpermits : Permits D c i) (j : ι) :
    ((c.advance i).calls j).Abides (D j) (Q j) (c.advance i).store := by
  obtain he | ⟨exec, next, hstep, he⟩ := c.advance_cases i
  · rw [he]
    exact h j
  · have hi := h i
    rw [hstep] at hi
    have hpermits' : (D i).permits c.store (exec c.store).2 := by
      unfold Permits upcoming at hpermits
      rw [hstep] at hpermits
      exact hpermits
    have hmoved := hi c.store ((D i).refl c.store) hpermits'
    rw [he]
    by_cases hj : j = i
    · subst hj
      simpa using hmoved.2
    · have hkept := (h j).later (compatible i j hj _ _ hmoved.1) (stable j)
      simpa [Function.update_of_ne hj] using hkept

/-- The rely–guarantee rule: calls whose guarantees are relied on abide in every
run of permitted statements. -/
theorem abides_run
    (compatible : ∀ i j, j ≠ i → ∀ s t, (D i).guar s t → (D j).rely s t)
    (stable : ∀ j r s t, Q j r s → (D j).rely s t → Q j r t) {c : Config ι σ ε φ α}
    (h : ∀ j, (c.calls j).Abides (D j) (Q j) c.store) {schedule : List ι}
    (heeds : Heeds (Permits D) c schedule) (j : ι) :
    ((c.run schedule).calls j).Abides (D j) (Q j) (c.run schedule).store := by
  have hstep : ∀ c i, (∀ j, (c.calls j).Abides (D j) (Q j) c.store) → Permits D c i →
      ∀ j, ((c.advance i).calls j).Abides (D j) (Q j) (c.advance i).store :=
    fun _ _ hc hpermits => abides_advance compatible stable hc hpermits
  exact invariant_of_heeds hstep h heeds j

omit [DecidableEq ι] in
/-- What a call has returned is as it was promised. -/
theorem returned_of_abides {Q : Except φ α → σ → Prop} {D : Duty σ ε} {c : Config ι σ ε φ α}
    {i : ι} {s : σ} {a : α} (h : (c.calls i).Abides D Q s) (hreturned : c.returned i = some a) :
    Q (.ok a) s := by
  unfold returned at hreturned
  cases hi : c.calls i with
  | done b =>
      rw [hi] at h hreturned
      cases hreturned
      exact h
  | fail e => simp [hi] at hreturned
  | step exec next => simp [hi] at hreturned

end Config

end Concurrency
