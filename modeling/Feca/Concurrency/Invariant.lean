import Feca.Concurrency.Program

/-! # Programs under an invariant

Every statement of a program finds a store with the invariant and leaves one;
what the program returns is then judged by the stores it may have found. Others
may write in between, as long as they too keep the invariant.
-/

namespace Concurrency.Prog

variable {σ ε φ ψ α β : Type} {I : σ → Prop}

def Keeps (I : σ → Prop) (Q : α → Prop) : Prog σ ε φ α → Prop
  | .done a => Q a
  | .fail _ => True
  | .step exec next => ∀ s, I s → I (exec s).1 ∧ (next s).Keeps I Q

section rules

variable {Q : α → Prop} {R : β → Prop} {p : Prog σ ε φ α}

theorem keeps_pure {a : α} (h : Q a) : (pure a : Prog σ ε φ α).Keeps I Q := h

theorem keeps_fail (e : φ) : (.fail e : Prog σ ε φ α).Keeps I Q := trivial

theorem keeps_stmt {f : σ → Answer σ ε φ α} (hstore : ∀ s, I s → I (f s).store)
    (hresult : ∀ s, I s → ∀ a, (f s).result = .ok a → Q a) : (stmt f).Keeps I Q := by
  intro s hs
  refine ⟨hstore s hs, ?_⟩
  dsimp only
  cases hr : (f s).result with
  | ok a => exact hresult s hs a hr
  | error e => trivial

theorem keeps_query {read : σ → α} (h : ∀ s, I s → Q (read s)) :
    (query read : Prog σ ε φ α).Keeps I Q := by
  apply keeps_stmt
  · exact fun _ hs => hs
  · intro s hs a ha
    cases ha
    exact h s hs

theorem keeps_bind {k : α → Prog σ ε φ β} (hp : p.Keeps I Q) (hk : ∀ a, Q a → (k a).Keeps I R) :
    (p >>= k).Keeps I R := by
  induction p with
  | done a => exact hk a hp
  | fail e => trivial
  | step exec next ih =>
      intro s hs
      exact ⟨(hp s hs).1, ih s (hp s hs).2⟩

theorem keeps_attempt (hp : p.Keeps I Q) :
    (p.attempt : Prog σ ε ψ (Except φ α)).Keeps I fun r => ∀ a, r = .ok a → Q a := by
  induction p with
  | done a =>
      intro b hb
      cases hb
      exact hp
  | fail e =>
      intro b hb
      cases hb
  | step exec next ih =>
      intro s hs
      exact ⟨(hp s hs).1, ih s (hp s hs).2⟩

theorem Keeps.mono {Q' : α → Prop} (hp : p.Keeps I Q) (h : ∀ a, Q a → Q' a) : p.Keeps I Q' := by
  induction p with
  | done a => exact h a hp
  | fail e => trivial
  | step exec next ih =>
      intro s hs
      exact ⟨(hp s hs).1, ih s (hp s hs).2⟩

theorem keeps_done_iff {a : α} : (.done a : Prog σ ε φ α).Keeps I Q ↔ Q a := Iff.rfl

theorem keeps_step_iff {exec : σ → σ × List ε} {next : σ → Prog σ ε φ α} :
    (Prog.step exec next).Keeps I Q ↔ ∀ s, I s → I (exec s).1 ∧ (next s).Keeps I Q := Iff.rfl

theorem keeps_any (p : Prog σ ε φ α) : p.Keeps (fun _ => True) fun _ => True := by
  induction p with
  | done a => trivial
  | fail e => trivial
  | step exec next ih => exact fun s _ => ⟨trivial, ih s⟩

/-- Run alone from a store with the invariant, the program leaves one. -/
theorem Keeps.store (hp : p.Keeps I Q) {s : σ} (hs : I s) : I (p.run s).store := by
  induction p generalizing s with
  | done a => exact hs
  | fail e => exact hs
  | step exec next ih => exact ih s (hp s hs).2 (hp s hs).1

/-- Run alone from a store with the invariant, the program returns what it may. -/
theorem Keeps.result (hp : p.Keeps I Q) {s : σ} (hs : I s) {a : α}
    (ha : (p.run s).result = .ok a) : Q a := by
  induction p generalizing s with
  | done b =>
      cases ha
      exact hp
  | fail e => cases ha
  | step exec next ih => exact ih s (hp s hs).2 (hp s hs).1 ha

end rules

/-! ## What a program may throw -/

/-- Every failure the program can end with satisfies `F`. -/
def Throws (F : φ → Prop) : Prog σ ε φ α → Prop
  | .done _ => True
  | .fail e => F e
  | .step _ next => ∀ s, (next s).Throws F

section throws

variable {F : φ → Prop} {p : Prog σ ε φ α}

theorem throws_pure (a : α) : (pure a : Prog σ ε φ α).Throws F := trivial

theorem throws_stmt {f : σ → Answer σ ε φ α} (h : ∀ s e, (f s).result = .error e → F e) :
    (stmt f).Throws F := by
  intro s
  dsimp only
  cases hr : (f s).result with
  | ok a => trivial
  | error e => exact h s e hr

theorem throws_query (read : σ → α) : (query read : Prog σ ε φ α).Throws F :=
  throws_stmt fun _ _ h => by cases h

theorem throws_bind {k : α → Prog σ ε φ β} (hp : p.Throws F) (hk : ∀ a, (k a).Throws F) :
    (p >>= k).Throws F := by
  induction p with
  | done a => exact hk a
  | fail e => exact hp
  | step exec next ih => exact fun s => ih s (hp s)

theorem Throws.result (hp : p.Throws F) {s : σ} {e : φ} (h : (p.run s).result = .error e) : F e := by
  induction p generalizing s with
  | done a => cases h
  | fail e' =>
      cases h
      exact hp
  | step exec next ih => exact ih s (hp s) h

end throws

-- The rules above are all there is to know: a goal must not evaluate its program.
attribute [irreducible] Keeps Throws

end Concurrency.Prog
