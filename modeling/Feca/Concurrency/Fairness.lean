import Feca.Concurrency.RelyGuarantee
import Mathlib.Data.Nat.Find
import Mathlib.Data.Nat.Init

/-! # Runs without end

A schedule that goes on for ever, and the one call in it that somebody waits for:
if its turn comes again and again it ends, since every program is finite, and if
the run lets it move only where its duty permits it, it ends as promised.
-/

namespace Concurrency.Config

variable {ι σ ε φ α : Type} {c : Config ι σ ε φ α} {i w : ι}

/-- The call has a statement left. -/
def running (c : Config ι σ ε φ α) (i : ι) : Bool :=
  match c.calls i with
  | .step _ _ => true
  | _ => false

theorem running_of_step {exec : σ → σ × List ε} {next : σ → Prog σ ε φ α}
    (h : c.calls i = .step exec next) : c.running i = true := by
  unfold running
  rw [h]

theorem returned_of_ended (h : c.running i = false) (hthrown : ∀ e, c.calls i ≠ .fail e) :
    ∃ a, c.returned i = some a := by
  cases hend : c.calls i with
  | done a =>
      refine ⟨a, ?_⟩
      rw [returned, hend]
  | fail e => exact absurd hend (hthrown e)
  | step exec next =>
      rw [running, hend] at h
      cases h

variable [DecidableEq ι]

def runs (c : Config ι σ ε φ α) (schedule : ℕ → ι) : ℕ → Config ι σ ε φ α
  | 0 => c
  | n + 1 => (c.runs schedule n).advance (schedule n)

theorem runs_eq_run (c : Config ι σ ε φ α) (schedule : ℕ → ι) (n : ℕ) :
    c.runs schedule n = c.run ((List.range n).map schedule) := by
  induction n with
  | zero => rfl
  | succ n ih =>
      rw [runs, ih, List.range_succ, List.map_append, run_append]
      rfl

theorem heeds_of_runs {G : Config ι σ ε φ α → ι → Prop} {schedule : ℕ → ι}
    (h : ∀ n, G (c.runs schedule n) (schedule n)) (n : ℕ) :
    Heeds G c ((List.range n).map schedule) := by
  induction n with
  | zero => trivial
  | succ n ih =>
      rw [List.range_succ, List.map_append, heeds_append, ← runs_eq_run]
      exact ⟨ih, h n, trivial⟩

/-! ## The turn of a call -/

/-- A call stays where it is until its turn comes. -/
theorem runs_calls_of_notTurn {schedule : ℕ → ι} {n m : ℕ} (hnm : n ≤ m)
    (h : ∀ k, n ≤ k → k < m → schedule k ≠ w) :
    (c.runs schedule m).calls w = (c.runs schedule n).calls w := by
  induction m, hnm using Nat.le_induction with
  | base => rfl
  | succ m hm ih =>
      rw [runs, advance_calls_of_ne _ (h m hm (Nat.lt_succ_self m)).symm]
      exact ih fun k hk hkm => h k hk (Nat.lt_succ_of_lt hkm)

/-- A call whose turn comes again and again has ended one day. -/
theorem ends_of_fair {schedule : ℕ → ι} (fair : ∀ n, ∃ m, n ≤ m ∧ schedule m = w) :
    ∃ n, (c.runs schedule n).running w = false := by
  have hends : ∀ (p : Prog σ ε φ α) (n : ℕ), (c.runs schedule n).calls w = p →
      ∃ m, (c.runs schedule m).running w = false := by
    intro p
    induction p with
    | done a =>
        intro n hn
        refine ⟨n, ?_⟩
        rw [running, hn]
    | fail e =>
        intro n hn
        refine ⟨n, ?_⟩
        rw [running, hn]
    | step exec next ih =>
        intro n hn
        have hturn := Nat.find_spec (fair n)
        set m := Nat.find (fair n) with hm
        have hstep : (c.runs schedule m).calls w = .step exec next := by
          refine (runs_calls_of_notTurn hturn.1 ?_).trans hn
          intro k hk hkm hw
          exact Nat.find_min (fair n) hkm ⟨hk, hw⟩
        apply ih (c.runs schedule m).store (m + 1)
        rw [runs, hturn.2, advance_step hstep]
        exact Function.update_self _ _ _
  exact hends _ 0 rfl

/-! ## One call among others -/

section among

variable {D : Duty σ ε} {Q : Except φ α → σ → Prop} {R : σ → σ → Prop} {J : σ → Prop}
  {G : Config ι σ ε φ α → ι → Prop}

/-- While one call does not move, the others do what they always do. -/
theorem others_run (idle : ∀ s, R s s) (trans : ∀ s t u, R s t → R t u → R s u)
    (others : ∀ j, j ≠ w → (c.calls j).Always fun s t _ => R s t) {schedule : List ι}
    (hw : w ∉ schedule) :
    R c.store (c.run schedule).store ∧
      ∀ j, j ≠ w → ((c.run schedule).calls j).Always fun s t _ => R s t := by
  induction schedule generalizing c with
  | nil => exact ⟨idle c.store, others⟩
  | cons i schedule ih =>
      rw [List.mem_cons, not_or] at hw
      have hstep := law_of_always (others i (Ne.symm hw.1)) idle
      obtain ⟨hrest, hcalls⟩ := ih (fun j hj => always_advance i (others j hj)) hw.2
      exact ⟨trans _ _ _ hstep hrest, hcalls⟩

/-- One statement of the run: the others do what they always do, and what the run
lets them do, which together is what the call relies on. -/
theorem abides_among_advance (idle : ∀ s, R s s)
    (permits : ∀ c, G c w → c.running w = true → D.permits c.store (c.upcoming w))
    (rely : ∀ c i, i ≠ w → G c i → c.running w = true → R c.store (c.advance i).store →
      D.rely c.store (c.advance i).store)
    (stable : ∀ r s t, Q r s → R s t → Q r t)
    (guar : ∀ s t, J s → D.guar s t → J t) (kept : ∀ s t, J s → R s t → J t)
    (h : J c.store ∧ (c.calls w).Abides D Q c.store)
    (others : ∀ j, j ≠ w → (c.calls j).Always fun s t _ => R s t) (hi : G c i) :
    J (c.advance i).store ∧ ((c.advance i).calls w).Abides D Q (c.advance i).store := by
  obtain ⟨hJ, h⟩ := h
  by_cases hw : i = w
  · subst hw
    obtain he | ⟨exec, next, hstep, he⟩ := c.advance_cases i
    · rw [he]
      exact ⟨hJ, h⟩
    · have hpermits := permits c hi (running_of_step hstep)
      unfold upcoming at hpermits
      rw [hstep] at h hpermits
      obtain ⟨hguar, hnext⟩ := h c.store (D.refl c.store) hpermits
      rw [he]
      exact ⟨guar _ _ hJ hguar, by simpa using hnext⟩
  · have hother := law_of_always (others i hw) idle
    rw [advance_calls_of_ne _ (Ne.symm hw)]
    refine ⟨kept _ _ hJ hother, ?_⟩
    cases hcall : c.calls w with
    | done a =>
        rw [hcall] at h
        exact stable (.ok a) _ _ h hother
    | fail e =>
        rw [hcall] at h
        exact stable (.error e) _ _ h hother
    | step exec next =>
        rw [hcall] at h
        have hrely := rely c i hw hi (running_of_step hcall) hother
        exact fun t ht hpermits => h t (D.trans hrely ht) hpermits

theorem abides_among (idle : ∀ s, R s s)
    (permits : ∀ c, G c w → c.running w = true → D.permits c.store (c.upcoming w))
    (rely : ∀ c i, i ≠ w → G c i → c.running w = true → R c.store (c.advance i).store →
      D.rely c.store (c.advance i).store)
    (stable : ∀ r s t, Q r s → R s t → Q r t)
    (guar : ∀ s t, J s → D.guar s t → J t) (kept : ∀ s t, J s → R s t → J t)
    (h : J c.store ∧ (c.calls w).Abides D Q c.store)
    (others : ∀ j, j ≠ w → (c.calls j).Always fun s t _ => R s t) {schedule : List ι}
    (heeds : Heeds G c schedule) :
    J (c.run schedule).store ∧ ((c.run schedule).calls w).Abides D Q (c.run schedule).store := by
  have hstep : ∀ (c : Config ι σ ε φ α) (i : ι),
      ((J c.store ∧ (c.calls w).Abides D Q c.store) ∧
        ∀ j, j ≠ w → (c.calls j).Always fun s t _ => R s t) → G c i →
      (J (c.advance i).store ∧ ((c.advance i).calls w).Abides D Q (c.advance i).store) ∧
        ∀ j, j ≠ w → ((c.advance i).calls j).Always fun s t _ => R s t := by
    intro c i hc hi
    exact ⟨abides_among_advance idle permits rely stable guar kept hc.1 hc.2 hi,
      fun j hj => always_advance i (hc.2 j hj)⟩
  exact (invariant_of_heeds hstep ⟨h, others⟩ heeds).1

end among

end Concurrency.Config
