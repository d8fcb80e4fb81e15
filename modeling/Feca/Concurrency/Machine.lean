import Mathlib.Data.Option.Basic

/-! # Machines

A system that takes one action at a time. An action that is not possible in a
state leads nowhere, and a run is a list of actions that all are.
-/

namespace Concurrency

abbrev Machine (σ α : Type) := σ → α → Option σ

namespace Machine

variable {σ α : Type}

def perform (step : Machine σ α) : σ → List α → Option σ
  | s, [] => some s
  | s, a :: as =>
      match step s a with
      | none => none
      | some t => perform step t as

/-- Every action of the run is taken in a state where `ok` allows it. -/
def Along (step : Machine σ α) (ok : σ → α → Prop) : σ → List α → Prop
  | _, [] => True
  | s, a :: as =>
      ok s a ∧
        match step s a with
        | none => True
        | some t => Along step ok t as

instance decidableAlong {step : Machine σ α} {ok : σ → α → Prop} [∀ s a, Decidable (ok s a)] :
    ∀ s as, Decidable (Along step ok s as)
  | _, [] => instDecidableTrue
  | s, a :: as =>
      match h : step s a with
      | none => decidable_of_iff (ok s a) (by simp only [Along, h, and_true])
      | some t =>
          have := @decidableAlong step ok _ t as
          decidable_of_iff (ok s a ∧ Along step ok t as) (by simp only [Along, h])

section rules

variable {step : Machine σ α} {ok : σ → α → Prop} {s t u : σ} {a : α} {as bs : List α}

theorem perform_cons (h : step s a = some t) : perform step s (a :: as) = perform step t as := by
  simp only [perform, h]

theorem exists_of_perform_cons (h : perform step s (a :: as) = some u) :
    ∃ t, step s a = some t ∧ perform step t as = some u := by
  cases hstep : step s a with
  | none =>
      simp only [perform, hstep] at h
      cases h
  | some t => exact ⟨t, rfl, perform_cons hstep ▸ h⟩

theorem Along.head (h : Along step ok s (a :: as)) : ok s a := h.1

theorem Along.tail (h : Along step ok s (a :: as)) (hstep : step s a = some t) :
    Along step ok t as := by
  have := h.2
  simpa only [hstep] using this

theorem Along.of_append (h : Along step ok s (as ++ bs)) : Along step ok s as := by
  induction as generalizing s with
  | nil => trivial
  | cons a as ih =>
      refine ⟨h.head, ?_⟩
      cases hstep : step s a with
      | none => trivial
      | some t => exact ih (h.tail hstep)

theorem Along.rest (h : Along step ok s (as ++ bs)) (hs : perform step s as = some t) :
    Along step ok t bs := by
  induction as generalizing s with
  | nil =>
      cases hs
      exact h
  | cons a as ih =>
      obtain ⟨m, hstep, hm⟩ := exists_of_perform_cons hs
      have hall : Along step ok s (a :: (as ++ bs)) := h
      exact ih (hall.tail hstep) hm

/-- What every allowed action preserves holds after every allowed run. -/
theorem invariant {I : σ → Prop} (hI : ∀ s a t, I s → ok s a → step s a = some t → I t)
    (hs : I s) (hok : Along step ok s as) (hrun : perform step s as = some t) : I t := by
  induction as generalizing s with
  | nil =>
      cases hrun
      exact hs
  | cons a as ih =>
      obtain ⟨m, hstep, hm⟩ := exists_of_perform_cons hrun
      exact ih (hI s a m hs hok.head hstep) (hok.tail hstep) hm

/-- What every action does to the state, every run does. -/
theorem frame {R : σ → σ → Prop} (hrefl : ∀ s, R s s)
    (htrans : ∀ s t u, R s t → R t u → R s u) (hstep : ∀ s a t, step s a = some t → R s t)
    (hrun : perform step s as = some t) : R s t := by
  induction as generalizing s with
  | nil =>
      cases hrun
      exact hrefl _
  | cons a as ih =>
      obtain ⟨m, hm, hrest⟩ := exists_of_perform_cons hrun
      exact htrans s m t (hstep s a m hm) (ih hrest)

end rules

end Machine

end Concurrency
