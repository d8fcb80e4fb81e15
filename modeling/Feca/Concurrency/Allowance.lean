import Feca.Concurrency.Program
import Mathlib.Data.Set.Basic

/-! # Allowances

A program spends an allowance of keys when each of its events touches only keys
still in it and takes them out. A spent key is never touched again, which is
how a program that writes every row at most once is told from its text.
-/

namespace Concurrency.Prog

variable {σ ε φ ψ α β κ : Type} {touches : ε → κ → Prop}

/-- From the allowance `S` the program touches each key at most once, and ends
with an outcome and a remaining allowance satisfying `Q`. -/
def Spends (touches : ε → κ → Prop) (Q : Except φ α → Set κ → Prop) :
    Set κ → Prog σ ε φ α → Prop
  | S, .done a => Q (.ok a) S
  | S, .fail e => Q (.error e) S
  | S, .step exec next => ∀ s, (∀ e ∈ (exec s).2, ∀ k, touches e k → k ∈ S) ∧
      (next s).Spends touches Q {k | k ∈ S ∧ ∀ e ∈ (exec s).2, ¬ touches e k}

variable {Q : Except φ α → Set κ → Prop} {S T F : Set κ}

theorem spends_stmt {f : σ → Answer σ ε φ α}
    (htouch : ∀ s, ∀ e ∈ (f s).events, ∀ k, touches e k → k ∈ S)
    (hQ : ∀ s, Q (f s).result {k | k ∈ S ∧ ∀ e ∈ (f s).events, ¬ touches e k}) :
    (stmt f).Spends touches Q S := by
  intro s
  refine ⟨htouch s, ?_⟩
  have h := hQ s
  dsimp only
  cases hr : (f s).result with
  | ok a => rwa [hr] at h
  | error e => rwa [hr] at h

/-- A statement without a touching event leaves the allowance whole. -/
theorem spends_stmt_quiet {f : σ → Answer σ ε φ α}
    (hquiet : ∀ s, ∀ e ∈ (f s).events, ∀ k, ¬ touches e k) (hQ : ∀ s, Q (f s).result S) :
    (stmt f).Spends touches Q S := by
  refine spends_stmt (fun s e he k hk => absurd hk (hquiet s e he k)) fun s => ?_
  have hwhole : {k | k ∈ S ∧ ∀ e ∈ (f s).events, ¬ touches e k} = S :=
    Set.ext fun k => ⟨And.left, fun hk => ⟨hk, fun e he => hquiet s e he k⟩⟩
  rw [hwhole]
  exact hQ s

theorem spends_bind {Q' : Except φ β → Set κ → Prop} {p : Prog σ ε φ α} {k : α → Prog σ ε φ β}
    (hp : p.Spends touches (fun r T => match r with
      | .ok a => (k a).Spends touches Q' T
      | .error e => Q' (.error e) T) S) :
    (p >>= k).Spends touches Q' S := by
  induction p generalizing S with
  | done a => exact hp
  | fail e => exact hp
  | step exec next ih => exact fun s => ⟨(hp s).1, ih s (hp s).2⟩

theorem spends_map {Q' : Except φ β → Set κ → Prop} {p : Prog σ ε φ α} (f : α → β)
    (hp : p.Spends touches (fun r T => Q' (r.map f) T) S) :
    (f <$> p).Spends touches Q' S := by
  induction p generalizing S with
  | done a => exact hp
  | fail e => exact hp
  | step exec next ih => exact fun s => ⟨(hp s).1, ih s (hp s).2⟩

/-- A program that never touches a key spends nothing. -/
theorem spends_of_emits {p : Prog σ ε φ α} (hp : p.Emits fun e => ∀ k, ¬ touches e k) :
    p.Spends touches (fun _ _ => True) S := by
  induction p generalizing S with
  | done a => trivial
  | fail e => trivial
  | step exec next ih =>
      exact fun s => ⟨fun e he k hk => absurd hk ((hp s).1 e he k), ih s (hp s).2⟩

theorem spends_attempt {Q' : Except ψ (Except φ α) → Set κ → Prop} {p : Prog σ ε φ α}
    (hp : p.Spends touches (fun r T => Q' (.ok r) T) S) :
    (p.attempt : Prog σ ε ψ (Except φ α)).Spends touches Q' S := by
  induction p generalizing S with
  | done a => exact hp
  | fail e => exact hp
  | step exec next ih => exact fun s => ⟨(hp s).1, ih s (hp s).2⟩

/-- A larger allowance is spent as well. -/
theorem Spends.mono {Q' : Except φ α → Set κ → Prop} {p : Prog σ ε φ α}
    (hp : p.Spends touches Q S) (hST : S ⊆ T)
    (hQ : ∀ r U V, U ⊆ V → Q r U → Q' r V) : p.Spends touches Q' T := by
  induction p generalizing S T with
  | done a => exact hQ (.ok a) S T hST hp
  | fail e => exact hQ (.error e) S T hST hp
  | step exec next ih =>
      intro s
      refine ⟨fun e he k hk => hST ((hp s).1 e he k hk), ih s (hp s).2 ?_⟩
      exact fun k hk => ⟨hST hk.1, hk.2⟩

/-- The frame rule: keys beside the allowance stay untouched. -/
theorem Spends.frame {p : Prog σ ε φ α} (hp : p.Spends touches Q S) (hSF : ∀ k ∈ S, k ∉ F) :
    p.Spends touches (fun r T => F ⊆ T ∧ ∃ U, U ⊆ T ∧ Q r U) (S ∪ F) := by
  induction p generalizing S with
  | done a => exact ⟨Set.subset_union_right, S, Set.subset_union_left, hp⟩
  | fail e => exact ⟨Set.subset_union_right, S, Set.subset_union_left, hp⟩
  | step exec next ih =>
      intro s
      obtain ⟨htouch, hnext⟩ := hp s
      refine ⟨fun e he k hk => .inl (htouch e he k hk), ?_⟩
      have hrest := ih s hnext fun k hk => hSF k hk.1
      refine hrest.mono ?_ ?_
      · rintro k (hk | hk)
        · exact ⟨.inl hk.1, hk.2⟩
        · exact ⟨.inr hk, fun e he htk => hSF k (htouch e he k htk) hk⟩
      · rintro r U V hUV ⟨hF, W, hW, hQ⟩
        exact ⟨hF.trans hUV, W, hW.trans hUV, hQ⟩

/-- Only keys in the allowance may still be touched. -/
theorem Spends.mem_of_mayEmit {p : Prog σ ε φ α} (hp : p.Spends touches Q S) {k : κ}
    (h : p.MayEmit fun e => touches e k) : k ∈ S := by
  induction p generalizing S with
  | done a => exact h.elim
  | fail e => exact h.elim
  | step exec next ih =>
      obtain ⟨s, ⟨e, he, hk⟩ | hn⟩ := h
      · exact (hp s).1 e he k hk
      · exact (ih s (hp s).2 hn).1

end Concurrency.Prog
