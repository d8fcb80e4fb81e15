import Feca.Concurrency.Invariant
import Feca.Concurrency.RelyGuarantee

/-! # Programs on a part of the store

A program written for one component runs in a larger store that holds the
component as a part: what it does there it does to the part alone.
-/

namespace Concurrency

/-- A component `τ` of the stores `σ`. -/
structure Part (σ τ : Type) where
  get : σ → τ
  set : τ → σ → σ
  get_set : ∀ t s, get (set t s) = t

namespace Prog

variable {σ τ ε φ α : Type}

/-- Every statement reads and writes the part, and nobody observes it. -/
def onPart (part : Part σ τ) : Prog τ Empty φ α → Prog σ ε φ α
  | .done a => .done a
  | .fail e => .fail e
  | .step exec next =>
      .step (fun s => (part.set (exec (part.get s)).1 s, [])) fun s =>
        (next (part.get s)).onPart part

theorem always_onPart {part : Part σ τ} {P : σ → σ → List ε → Prop} (p : Prog τ Empty φ α)
    (h : ∀ s t, P s (part.set t s) []) : (p.onPart part).Always P := by
  induction p with
  | done a => trivial
  | fail e => trivial
  | step exec next ih =>
      intro s
      exact ⟨h s _, ih (part.get s)⟩

/-- A law of the part is a law of the store. -/
theorem Always.onPart {part : Part σ τ} {P : τ → τ → List Empty → Prop}
    {P' : σ → σ → List ε → Prop} {p : Prog τ Empty φ α} (hp : p.Always P)
    (h : ∀ s t es, P (part.get s) t es → P' s (part.set t s) []) : (p.onPart part).Always P' := by
  induction p with
  | done a => trivial
  | fail e => trivial
  | step exec next ih =>
      intro s
      have hstep := hp (part.get s)
      exact ⟨h s _ _ hstep.1, ih (part.get s) hstep.2⟩

/-- The same program, with nothing to observe. -/
def unobserved {ε' : Type} : Prog σ ε φ α → Prog σ ε' φ α
  | .done a => .done a
  | .fail e => .fail e
  | .step exec next => .step (fun s => ((exec s).1, [])) fun s => (next s).unobserved

theorem run_unobserved {ε' : Type} (p : Prog σ ε φ α) (s : σ) :
    (p.unobserved : Prog σ ε' φ α).run s = ⟨(p.run s).store, [], (p.run s).result⟩ := by
  induction p generalizing s with
  | done a => rfl
  | fail e => rfl
  | step exec next ih =>
      unfold unobserved run
      rw [ih s]
      rfl

theorem Always.abides {D : Duty σ ε} {p : Prog σ ε φ α} {J : σ → Prop} {s : σ}
    (hp : p.Always fun s t _ => D.guar s t ∧ (J s → J t))
    (stable : ∀ s t, J s → D.rely s t → J t) (hs : J s) : p.Abides D (fun _ t => J t) s := by
  induction p generalizing s with
  | done a => exact hs
  | fail e => exact hs
  | step exec next ih =>
      intro t hst _
      have hstep := hp t
      exact ⟨hstep.1.1, ih t hstep.2 (hstep.1.2 (stable s t hs hst))⟩

end Prog

end Concurrency
