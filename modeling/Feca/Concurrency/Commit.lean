import Feca.Concurrency.Interleaving

/-! # Calls that commit

A call commits if nothing it does before it writes leaves a trace, and if it
cannot fail once it has written. In an interleaving of such calls whatever has
changed was written by calls that have not failed. What may change is told by a
relation between stores that names the calls behind the changes.
-/

namespace Concurrency

/-- The calls behind the changes between two stores, or more than these. -/
structure Blames {ι σ : Type} (R : (ι → Prop) → σ → σ → Prop) : Prop where
  refl : ∀ I s, R I s s
  trans : ∀ {I s t u}, R I s t → R I t u → R I s u
  mono : ∀ {I J s t}, (∀ i, I i → J i) → R I s t → R J s t

namespace Prog

variable {ι σ ε φ α β : Type} {R : (ι → Prop) → σ → σ → Prop} {i : ι} {s : σ} {Q : α → σ → Prop}

/-- From the store it last saw, and whatever the calls did to it since, the
program changes nothing that is told, and what it returns satisfies `Q`. -/
def Neutral (R : (ι → Prop) → σ → σ → Prop) (Q : α → σ → Prop) : Prog σ ε φ α → σ → Prop
  | .done a, s => Q a s
  | .fail _, _ => True
  | .step exec next, s => ∀ t, R (fun _ => True) s t →
      R (fun _ => False) t (exec t).1 ∧ (next t).Neutral R Q (exec t).1

/-- The program does not fail any more, and does not write. -/
def Settled (R : (ι → Prop) → σ → σ → Prop) : Prog σ ε φ α → Prop
  | .done _ => True
  | .fail _ => False
  | .step exec next => ∀ t, R (fun _ => False) t (exec t).1 ∧ (next t).Settled R

/-- Neutral up to one statement, from which on it is settled. -/
def Commits (R : (ι → Prop) → σ → σ → Prop) (i : ι) : Prog σ ε φ α → σ → Prop
  | .done _, _ => True
  | .fail _, _ => True
  | .step exec next, s => ∀ t, R (fun _ => True) s t →
      (R (fun _ => False) t (exec t).1 ∧ (next t).Commits R i (exec t).1) ∨
        (R (· = i) t (exec t).1 ∧ (next t).Settled R)

theorem Settled.not_fail {p : Prog σ ε φ α} (h : p.Settled R) (e : φ) : p ≠ .fail e := by
  intro he
  rw [he] at h
  exact h

theorem neutral_query (hR : Blames R) {read : σ → α}
    (h : ∀ t, R (fun _ => True) s t → Q (read t) t) :
    (query read : Prog σ ε φ α).Neutral R Q s :=
  fun t hst => ⟨hR.refl _ t, h t hst⟩

theorem neutral_stmt {f : σ → Answer σ ε φ α} (h : ∀ t, R (fun _ => True) s t →
    R (fun _ => False) t (f t).store ∧ ∀ a, (f t).result = .ok a → Q a (f t).store) :
    (stmt f).Neutral R Q s := by
  intro t hst
  obtain ⟨hneutral, hpost⟩ := h t hst
  refine ⟨hneutral, ?_⟩
  dsimp only
  cases hr : (f t).result with
  | error e => trivial
  | ok a => exact hpost a hr

theorem neutral_attempt {ψ : Type} {p : Prog σ ε φ α} (hp : p.Neutral R Q s) :
    (p.attempt : Prog σ ε ψ (Except φ α)).Neutral R (fun r t => ∀ a, r = .ok a → Q a t) s := by
  induction p generalizing s with
  | done a =>
      intro b hb
      cases hb
      exact hp
  | fail e => exact fun b hb => by cases hb
  | step exec next ih =>
      intro t hst
      obtain ⟨hneutral, hnext⟩ := hp t hst
      exact ⟨hneutral, ih t hnext⟩

theorem settled_bind {p : Prog σ ε φ α} {k : α → Prog σ ε φ β} (hp : p.Settled R)
    (hk : ∀ a, (k a).Settled R) : (p >>= k).Settled R := by
  induction p with
  | done a => exact hk a
  | fail e => exact hp.elim
  | step exec next ih => exact fun t => ⟨(hp t).1, ih t (hp t).2⟩

/-- What is known of the store is told to what follows. -/
theorem commits_bind (hR : Blames R) {p : Prog σ ε φ α} {k : α → Prog σ ε φ β}
    (hp : p.Neutral R Q s) (hk : ∀ a t, R (fun _ => True) s t → Q a t → (k a).Commits R i t) :
    (p >>= k).Commits R i s := by
  induction p generalizing s with
  | done a => exact hk a s (hR.refl _ s) hp
  | fail e => trivial
  | step exec next ih =>
      intro t hst
      obtain ⟨hneutral, hnext⟩ := hp t hst
      have hseen := hR.trans hst (hR.mono (fun _ hi => hi.elim) hneutral)
      exact .inl ⟨hneutral, ih t hnext fun a u htu => hk a u (hR.trans hseen htu)⟩

theorem neutral_bind (hR : Blames R) {p : Prog σ ε φ α} {k : α → Prog σ ε φ β}
    {Q' : β → σ → Prop} (hp : p.Neutral R Q s)
    (hk : ∀ a t, R (fun _ => True) s t → Q a t → (k a).Neutral R Q' t) :
    (p >>= k).Neutral R Q' s := by
  induction p generalizing s with
  | done a => exact hk a s (hR.refl _ s) hp
  | fail e => trivial
  | step exec next ih =>
      intro t hst
      obtain ⟨hneutral, hnext⟩ := hp t hst
      have hseen := hR.trans hst (hR.mono (fun _ hi => hi.elim) hneutral)
      exact ⟨hneutral, ih t hnext fun a u htu => hk a u (hR.trans hseen htu)⟩

/-- A statement that throws where it does not write. -/
theorem commits_stmt {f : σ → Answer σ ε φ α}
    (h : ∀ t, R (fun _ => True) s t → match (f t).result with
      | .error _ => R (fun _ => False) t (f t).store
      | .ok _ => R (· = i) t (f t).store) :
    (stmt f).Commits R i s := by
  intro t hst
  have hthis := h t hst
  dsimp only
  cases hr : (f t).result with
  | error e =>
      rw [hr] at hthis
      exact .inl ⟨hthis, trivial⟩
  | ok a =>
      rw [hr] at hthis
      exact .inr ⟨hthis, trivial⟩

/-- A transaction whose failure is handled without a write, and whose success is
the last thing to happen. -/
theorem commits_transaction_bind (hR : Blames R) {ψ : Type} {p : Prog σ ε φ α}
    {k : Except φ α → Prog σ ε ψ β} (herror : ∀ e t, (k (.error e)).Commits R i t)
    (hok : ∀ t a, R (fun _ => True) s t → (p.run t).result = .ok a →
      R (· = i) t (p.run t).store ∧ (k (.ok a)).Settled R) :
    ((transaction p).attempt >>= k).Commits R i s := by
  intro t hst
  dsimp only
  cases hr : (p.run t).result with
  | error e => exact .inl ⟨hR.refl _ t, herror e t⟩
  | ok a => exact .inr (hok t a hst hr)

theorem settled_map {p : Prog σ ε φ α} (f : α → β) (h : p.Settled R) : (f <$> p).Settled R :=
  settled_bind h fun _ => trivial

theorem commits_map {p : Prog σ ε φ α} (f : α → β) (h : p.Commits R i s) :
    (f <$> p).Commits R i s := by
  induction p generalizing s with
  | done a => trivial
  | fail e => trivial
  | step exec next ih =>
      intro t hst
      rcases h t hst with ⟨hneutral, hnext⟩ | ⟨hwrites, hnext⟩
      · exact .inl ⟨hneutral, ih t hnext⟩
      · exact .inr ⟨hwrites, settled_map f hnext⟩

theorem Commits.later {p : Prog σ ε φ α} {t : σ} (h : p.Commits R i s) (hR : Blames R)
    (hst : R (fun _ => True) s t) : p.Commits R i t := by
  cases p with
  | done a => trivial
  | fail e => trivial
  | step exec next => exact fun u htu => h u (hR.trans hst htu)

end Prog

namespace Config

variable {ι σ ε φ α : Type} [DecidableEq ι] {R : (ι → Prop) → σ → σ → Prop}

/-- Every call commits yet, or has nothing left but to return. -/
structure Committing (R : (ι → Prop) → σ → σ → Prop) (start : σ) (c : Config ι σ ε φ α) : Prop where
  calls : ∀ i, (c.calls i).Commits R i c.store ∨ (c.calls i).Settled R
  blamed : R (fun i => (c.calls i).Settled R) start c.store

theorem committing_advance (hR : Blames R) {start : σ} {c : Config ι σ ε φ α}
    (h : Committing R start c) (i : ι) : Committing R start (c.advance i) := by
  obtain he | ⟨exec, next, hi, he⟩ := c.advance_cases i
  · rwa [he]
  -- what the statement does, and what is left of its call
  have hstep : (R (fun _ => False) c.store (exec c.store).1 ∧
        (next c.store).Commits R i (exec c.store).1 ∧ ¬ (c.calls i).Settled R) ∨
      (R (· = i) c.store (exec c.store).1 ∧ (next c.store).Settled R) := by
    by_cases hsettled : (c.calls i).Settled R
    · rw [hi] at hsettled
      obtain ⟨hneutral, hnext⟩ := hsettled c.store
      exact .inr ⟨hR.mono (fun _ hj => hj.elim) hneutral, hnext⟩
    · have hcommits := (h.calls i).resolve_right hsettled
      rw [hi] at hcommits
      rcases hcommits c.store (hR.refl _ _) with ⟨hneutral, hnext⟩ | hwrites
      · exact .inl ⟨hneutral, hnext, hsettled⟩
      · exact .inr hwrites
  have hany : R (fun _ => True) c.store (exec c.store).1 := by
    rcases hstep with ⟨hneutral, -⟩ | ⟨hwrites, -⟩
    · exact hR.mono (fun _ hj => hj.elim) hneutral
    · exact hR.mono (fun _ _ => trivial) hwrites
  have hkept : ∀ j, (c.calls j).Settled R →
      (Function.update c.calls i (next c.store) j).Settled R := by
    intro j hj
    by_cases hji : j = i
    · subst hji
      rw [Function.update_self]
      exact hstep.elim (fun hneutral => absurd hj hneutral.2.2) fun hwrites => hwrites.2
    · rwa [Function.update_of_ne hji]
  rw [he]
  refine ⟨fun j => ?_, hR.trans (hR.mono hkept h.blamed) ?_⟩
  · dsimp only
    by_cases hji : j = i
    · subst hji
      rw [Function.update_self]
      exact hstep.imp (fun hneutral => hneutral.2.1) fun hwrites => hwrites.2
    · rw [Function.update_of_ne hji]
      exact (h.calls j).imp (fun hcommits => hcommits.later hR hany) id
  · rcases hstep with ⟨hneutral, -⟩ | ⟨hwrites, hnext⟩
    · exact hR.mono (fun _ hj => hj.elim) hneutral
    · refine hR.mono (fun j hj => ?_) hwrites
      rw [hj]
      dsimp only
      rwa [Function.update_self]

/-- The rule of commits: what has changed was written by calls that have not failed. -/
theorem blames_run (hR : Blames R) {c : Config ι σ ε φ α}
    (h : ∀ i, (c.calls i).Commits R i c.store) (schedule : List ι) :
    R (fun i => ∀ e, (c.run schedule).calls i ≠ .fail e) c.store (c.run schedule).store := by
  have hstart : Committing R c.store c := ⟨fun i => .inl (h i), hR.refl _ _⟩
  have hend := invariant_run (I := Committing R c.store)
    (fun _ i h => committing_advance hR h i) hstart schedule
  exact hR.mono (fun i hi => hi.not_fail) hend.blamed

end Config

end Concurrency
