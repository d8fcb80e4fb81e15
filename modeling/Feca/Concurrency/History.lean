import Feca.Concurrency.Interleaving

/-! # Laws that remember

What a statement may do often depends on what the same call has read before: a
write is legitimate because of the row an earlier statement of the call found.
`Follows` is the law of a program that may look at everything the call has
reported so far; it composes like a Hoare triple whose state is the call's own
history, and it holds of every interleaving because nobody else adds to that
history.
-/

namespace Concurrency

namespace Prog

variable {σ ε φ ψ α β : Type}

/-- Every statement obeys the law `L` of the history before it, and the result
is related to the history by `Q`. -/
def Follows (L : List ε → σ → σ → List ε → Prop) (Q : α → List ε → Prop) :
    Prog σ ε φ α → List ε → Prop
  | .done a, past => Q a past
  | .fail _, _ => True
  | .step exec next, past => ∀ s, L past s (exec s).1 (exec s).2 ∧
      (next s).Follows L Q (past ++ (exec s).2)

variable {L : List ε → σ → σ → List ε → Prop} {Q Q₂ : α → List ε → Prop}
  {Q' : β → List ε → Prop} {past : List ε}

theorem follows_pure {a : α} (h : Q a past) : (pure a : Prog σ ε φ α).Follows L Q past := h

theorem follows_stmt {f : σ → Answer σ ε φ α} (law : ∀ s, L past s (f s).store (f s).events)
    (post : ∀ s a, (f s).result = .ok a → Q a (past ++ (f s).events)) :
    (stmt f).Follows L Q past := by
  intro s
  refine ⟨law s, ?_⟩
  dsimp only
  cases hr : (f s).result with
  | ok a => exact post s a hr
  | error e => trivial

/-- The continuation starts from a longer history. -/
theorem follows_bind {p : Prog σ ε φ α} {k : α → Prog σ ε φ β} (hp : p.Follows L Q past)
    (hk : ∀ a later, past <+: later → Q a later → (k a).Follows L Q' later) :
    (p >>= k).Follows L Q' past := by
  induction p generalizing past with
  | done a => exact hk a past (List.prefix_refl _) hp
  | fail e => trivial
  | step exec next ih =>
      intro s
      refine ⟨(hp s).1, ih s (hp s).2 fun a later hlater => ?_⟩
      exact hk a later ((List.prefix_append _ _).trans hlater)

theorem Follows.mono {p : Prog σ ε φ α} (hp : p.Follows L Q past)
    (h : ∀ a later, Q a later → Q₂ a later) : p.Follows L Q₂ past := by
  induction p generalizing past with
  | done a => exact h a past hp
  | fail e => trivial
  | step exec next ih => exact fun s => ⟨(hp s).1, ih s (hp s).2⟩

/-- The history only grows. -/
theorem Follows.remembers {p : Prog σ ε φ α} (hp : p.Follows L Q past) :
    p.Follows L (fun a later => Q a later ∧ past <+: later) past := by
  induction p generalizing past with
  | done a => exact ⟨hp, List.prefix_refl past⟩
  | fail e => trivial
  | step exec next ih =>
      refine fun s => ⟨(hp s).1, (ih s (hp s).2).mono fun a later h => ⟨h.1, ?_⟩⟩
      exact (List.prefix_append past _).trans h.2

/-- What a program can only return, it returns here too. -/
theorem Follows.returns {R : α → Prop} {p : Prog σ ε φ α} (hp : p.Follows L Q past)
    (hr : p.Returns R) : p.Follows L (fun a later => Q a later ∧ R a) past := by
  induction p generalizing past with
  | done a => exact ⟨hp, hr⟩
  | fail e => trivial
  | step exec next ih => exact fun s => ⟨(hp s).1, ih s (hp s).2 (hr s)⟩

theorem follows_map {p : Prog σ ε φ α} {f : α → β}
    (hp : p.Follows L (fun a later => Q' (f a) later) past) : (f <$> p).Follows L Q' past :=
  follows_bind hp fun _ _ _ h => h

/-! A call whose failure is an outcome as well. -/

theorem follows_attempt_bind {p : Prog σ ε φ α} {k : α → Prog σ ε φ β} {R : α → List ε → Prop}
    {R' : Except φ β → List ε → Prop}
    (hp : (p.attempt : Prog σ ε ψ (Except φ α)).Follows L (fun r later =>
      match r with
      | .ok a => R a later
      | .error e => R' (.error e) later) past)
    (hk : ∀ a later, past <+: later → R a later →
      ((k a).attempt : Prog σ ε ψ (Except φ β)).Follows L R' later) :
    ((p >>= k).attempt : Prog σ ε ψ (Except φ β)).Follows L R' past := by
  rw [attempt_bind]
  refine follows_bind hp fun r later hlater hr => ?_
  cases r with
  | ok a => exact hk a later hlater hr
  | error e => exact hr

theorem follows_attempt_stmt {f : σ → Answer σ ε φ α} {R : Except φ α → List ε → Prop}
    (law : ∀ s, L past s (f s).store (f s).events)
    (post : ∀ s, R (f s).result (past ++ (f s).events)) :
    ((stmt f).attempt : Prog σ ε ψ (Except φ α)).Follows L R past := by
  rw [attempt_stmt]
  refine follows_stmt law fun s a ha => ?_
  cases ha
  exact post s

theorem follows_attempt_map {p : Prog σ ε φ α} {f : α → β} {R : Except φ β → List ε → Prop}
    (hp : (p.attempt : Prog σ ε ψ (Except φ α)).Follows L (fun r => R (r.map f)) past) :
    ((f <$> p).attempt : Prog σ ε ψ (Except φ β)).Follows L R past := by
  refine follows_attempt_bind (R := fun a => R (.ok (f a))) (hp.mono fun r later hr => ?_)
    fun a later _ hr => hr
  cases r with
  | ok a => exact hr
  | error e => exact hr

/-- A law that needs no history. -/
theorem Always.follows {P : σ → σ → List ε → Prop} {p : Prog σ ε φ α} (hp : p.Always P)
    (h : ∀ later s t es, past <+: later → P s t es → L later s t es) :
    p.Follows L (fun _ _ => True) past := by
  induction p generalizing past with
  | done a => trivial
  | fail e => trivial
  | step exec next ih =>
      intro s
      refine ⟨h past _ _ _ (List.prefix_refl _) (hp s).1, ih s (hp s).2 fun later t u es hlater => ?_⟩
      exact h later t u es ((List.prefix_append _ _).trans hlater)

end Prog

namespace Config

variable {ι σ ε φ α : Type} [DecidableEq ι]

/-- The events of one call, in order. -/
def reported (c : Config ι σ ε φ α) (i : ι) : List ε :=
  c.trace.filterMap fun x => if x.1 = i then some x.2 else none

theorem mem_reported {c : Config ι σ ε φ α} {i : ι} {e : ε} :
    e ∈ c.reported i ↔ (i, e) ∈ c.trace := by
  unfold reported
  rw [List.mem_filterMap]
  constructor
  · rintro ⟨⟨j, e'⟩, hmem, h⟩
    dsimp only at h
    split at h
    · rename_i hj
      cases h
      exact hj ▸ hmem
    · cases h
  · intro hmem
    exact ⟨(i, e), hmem, by simp⟩

theorem reported_advance (c : Config ι σ ε φ α) (i j : ι) :
    (c.advance i).reported j = c.reported j ++ if i = j then c.upcoming i else [] := by
  unfold reported
  rw [advance_trace, List.filterMap_append, List.filterMap_map]
  congr 1
  split
  · rename_i h
    subst h
    simp
  · rename_i h
    simp [h]

@[simp] theorem reported_advance_self (c : Config ι σ ε φ α) (i : ι) :
    (c.advance i).reported i = c.reported i ++ c.upcoming i := by simp [reported_advance]

theorem reported_advance_of_ne (c : Config ι σ ε φ α) {i j : ι} (h : j ≠ i) :
    (c.advance i).reported j = c.reported j := by simp [reported_advance, Ne.symm h]

omit [DecidableEq ι] in
theorem returned_of_follows {L : List ε → σ → σ → List ε → Prop} {Q : α → List ε → Prop}
    {c : Config ι σ ε φ α} {i : ι} {past : List ε} {a : α} (h : (c.calls i).Follows L Q past)
    (hreturned : c.returned i = some a) : Q a past := by
  unfold returned at hreturned
  cases hi : c.calls i with
  | done b =>
      rw [hi] at h hreturned
      cases hreturned
      exact h
  | fail e => simp [hi] at hreturned
  | step exec next => simp [hi] at hreturned

/-- One step of a system whose calls follow their laws: the step obeys the law
of the call that moved, and every call goes on following its own. -/
theorem follows_advance {L : ι → List ε → σ → σ → List ε → Prop} {Q : ι → α → List ε → Prop}
    (idle : ∀ i past s, L i past s s []) {c : Config ι σ ε φ α}
    (h : ∀ j, (c.calls j).Follows (L j) (Q j) (c.reported j)) (i : ι) :
    L i (c.reported i) c.store (c.advance i).store (c.upcoming i) ∧
      ∀ j, ((c.advance i).calls j).Follows (L j) (Q j) ((c.advance i).reported j) := by
  have hi := h i
  have hothers : ∀ j, j ≠ i →
      ((c.advance i).calls j).Follows (L j) (Q j) ((c.advance i).reported j) := by
    intro j hj
    rw [c.advance_calls_of_ne hj, c.reported_advance_of_ne hj]
    exact h j
  have hself : L i (c.reported i) c.store (c.advance i).store (c.upcoming i) ∧
      ((c.advance i).calls i).Follows (L i) (Q i) ((c.advance i).reported i) := by
    rw [reported_advance_self]
    cases hc : c.calls i with
    | done a => simpa [advance, upcoming, hc] using ⟨idle i _ _, by simpa [hc] using hi⟩
    | fail e => simpa [advance, upcoming, hc] using ⟨idle i _ _, by simpa [hc] using hi⟩
    | step exec next =>
        rw [hc] at hi
        simpa [advance_step hc, upcoming, hc] using hi c.store
  refine ⟨hself.1, fun j => ?_⟩
  by_cases hj : j = i
  · exact hj ▸ hself.2
  · exact hothers j hj

end Config

end Concurrency
