import Mathlib.Logic.Function.Basic
import Mathlib.Data.List.Basic

/-! # Statement programs over a shared store

A program is the tree of the atomic statements one call may still execute: each
statement acts on whatever store it finds and reports the events an observer
sees, and the rest of the program depends on what it found. The same tree is
run alone, when nobody else touches the store, or interleaved with others.
-/

namespace Concurrency

/-- Stores `σ`, observable events `ε`, thrown failures `φ`, results `α`. -/
inductive Prog (σ ε φ α : Type) : Type
  | done (a : α)
  | fail (e : φ)
  | step (exec : σ → σ × List ε) (next : σ → Prog σ ε φ α)

/-- What a statement, or a whole program run alone, leaves behind. -/
structure Answer (σ ε φ α : Type) where
  store : σ
  events : List ε
  result : Except φ α

namespace Prog

variable {σ ε φ ψ α β : Type}

def bind : Prog σ ε φ α → (α → Prog σ ε φ β) → Prog σ ε φ β
  | .done a, k => k a
  | .fail e, _ => .fail e
  | .step exec next, k => .step exec fun s => (next s).bind k

/-- `try … catch`: what the body throws becomes a value to continue from. -/
def attempt : Prog σ ε φ α → Prog σ ε ψ (Except φ α)
  | .done a => .done (.ok a)
  | .fail e => .done (.error e)
  | .step exec next => .step exec fun s => (next s).attempt

instance : Monad (Prog σ ε φ) where
  pure := .done
  bind := .bind

@[simp] theorem done_bind (a : α) (k : α → Prog σ ε φ β) : (.done a : Prog σ ε φ α) >>= k = k a :=
  rfl

@[simp] theorem fail_bind (e : φ) (k : α → Prog σ ε φ β) :
    (.fail e : Prog σ ε φ α) >>= k = .fail e := rfl

@[simp] theorem step_bind (exec : σ → σ × List ε) (next : σ → Prog σ ε φ α)
    (k : α → Prog σ ε φ β) : (.step exec next >>= k) = .step exec fun s => next s >>= k := rfl

theorem bind_bind {γ : Type} (p : Prog σ ε φ α) (k : α → Prog σ ε φ β) (l : β → Prog σ ε φ γ) :
    p >>= k >>= l = p >>= fun a => k a >>= l := by
  induction p with
  | done a => rfl
  | fail e => rfl
  | step exec next ih =>
      simp only [step_bind]
      exact congrArg (Prog.step exec) (funext ih)

/-! ## Statements -/

/-- One atomic statement. -/
def stmt (run : σ → Answer σ ε φ α) : Prog σ ε φ α :=
  .step (fun s => ((run s).store, (run s).events)) fun s =>
    match (run s).result with
    | .ok a => .done a
    | .error e => .fail e

/-- A statement that only reads. -/
def query (read : σ → α) : Prog σ ε φ α := stmt fun s => ⟨s, [], .ok (read s)⟩

/-! ## Running alone -/

/-- The answer of a program that nobody interrupts. -/
def run : Prog σ ε φ α → σ → Answer σ ε φ α
  | .done a, s => ⟨s, [], .ok a⟩
  | .fail e, s => ⟨s, [], .error e⟩
  | .step exec next, s =>
      ⟨((next s).run (exec s).1).store, (exec s).2 ++ ((next s).run (exec s).1).events,
        ((next s).run (exec s).1).result⟩

end Prog

/-- Continue from an answer: a failure skips the continuation. -/
def Answer.andThen {σ ε φ α β : Type} (r : Answer σ ε φ α) (k : α → σ → Answer σ ε φ β) :
    Answer σ ε φ β :=
  match r.result with
  | .ok a => ⟨(k a r.store).store, r.events ++ (k a r.store).events, (k a r.store).result⟩
  | .error e => ⟨r.store, r.events, .error e⟩

namespace Prog

variable {σ ε φ ψ α β : Type}

@[simp] theorem run_done (a : α) (s : σ) : (.done a : Prog σ ε φ α).run s = ⟨s, [], .ok a⟩ := rfl

@[simp] theorem run_pure (a : α) (s : σ) : (pure a : Prog σ ε φ α).run s = ⟨s, [], .ok a⟩ := rfl

@[simp] theorem run_fail (e : φ) (s : σ) : (.fail e : Prog σ ε φ α).run s = ⟨s, [], .error e⟩ := rfl

theorem run_bind (p : Prog σ ε φ α) (k : α → Prog σ ε φ β) (s : σ) :
    (p >>= k).run s = (p.run s).andThen fun a => (k a).run := by
  induction p generalizing s with
  | done a => simp [run, Answer.andThen]
  | fail e => simp [run, Answer.andThen]
  | step exec next ih =>
      simp only [step_bind, run, ih, Answer.andThen]
      cases ((next s).run (exec s).1).result <;> simp

@[simp] theorem run_stmt (f : σ → Answer σ ε φ α) (s : σ) : (stmt f).run s = f s := by
  simp only [stmt, run]
  cases h : f s with
  | mk store events result => cases result <;> simp [run]

@[simp] theorem run_query (read : σ → α) (s : σ) :
    (query read : Prog σ ε φ α).run s = ⟨s, [], .ok (read s)⟩ := run_stmt _ s

@[simp] theorem run_attempt (p : Prog σ ε φ α) (s : σ) :
    (p.attempt : Prog σ ε ψ (Except φ α)).run s =
      ⟨(p.run s).store, (p.run s).events, .ok (p.run s).result⟩ := by
  induction p generalizing s with
  | done a => rfl
  | fail e => rfl
  | step exec next ih => simp [attempt, run, ih]

theorem attempt_bind (p : Prog σ ε φ α) (k : α → Prog σ ε φ β) :
    ((p >>= k).attempt : Prog σ ε ψ (Except φ β)) = p.attempt >>= fun r =>
      match r with
      | .ok a => (k a).attempt
      | .error e => pure (.error e) := by
  induction p with
  | done a => rfl
  | fail e => rfl
  | step exec next ih => exact congrArg (Prog.step exec) (funext ih)

theorem attempt_stmt (f : σ → Answer σ ε φ α) : ((stmt f).attempt : Prog σ ε ψ (Except φ α)) =
    stmt fun s => ⟨(f s).store, (f s).events, .ok (f s).result⟩ := by
  refine congrArg (Prog.step _) (funext fun s => ?_)
  show (match (f s).result with
    | .ok a => .done a
    | .error e => .fail e : Prog σ ε φ α).attempt = .done (f s).result
  cases (f s).result with
  | ok a => rfl
  | error e => rfl

/-- What was caught once cannot be thrown again. -/
theorem attempt_attempt {χ : Type} (p : Prog σ ε φ α) :
    ((p.attempt : Prog σ ε ψ (Except φ α)).attempt : Prog σ ε χ (Except ψ (Except φ α))) =
      p.attempt >>= fun r => pure (.ok r) := by
  induction p with
  | done a => rfl
  | fail e => rfl
  | step exec next ih => exact congrArg (Prog.step exec) (funext ih)

/-- A transaction: the whole program as one statement nobody can look into,
rolled back when it throws. -/
def transaction (p : Prog σ ε φ α) : Prog σ ε φ α :=
  stmt fun s =>
    match (p.run s).result with
    | .ok a => ⟨(p.run s).store, (p.run s).events, .ok a⟩
    | .error e => ⟨s, [], .error e⟩

/-! The two halves of a sequence, run alone. -/

theorem run_bind_ok {p : Prog σ ε φ α} {k : α → Prog σ ε φ β} {s : σ} {a : α}
    (h : (p.run s).result = .ok a) : (p >>= k).run s =
      ⟨((k a).run (p.run s).store).store, (p.run s).events ++ ((k a).run (p.run s).store).events,
        ((k a).run (p.run s).store).result⟩ := by
  rw [run_bind, Answer.andThen, h]

theorem run_bind_error {p : Prog σ ε φ α} {k : α → Prog σ ε φ β} {s : σ} {e : φ}
    (h : (p.run s).result = .error e) :
    (p >>= k).run s = ⟨(p.run s).store, (p.run s).events, .error e⟩ := by
  rw [run_bind, Answer.andThen, h]

theorem result_bind (p : Prog σ ε φ α) (k : α → Prog σ ε φ β) (s : σ) :
    ((p >>= k).run s).result =
      (p.run s).result.bind fun a => ((k a).run (p.run s).store).result := by
  cases h : (p.run s).result with
  | ok a =>
      rw [run_bind_ok h]
      rfl
  | error e =>
      rw [run_bind_error h]
      rfl

/-- What a sequence leaves behind: its first half does, or the second half from there. -/
theorem store_bind {Q : σ → Prop} {p : Prog σ ε φ α} {k : α → Prog σ ε φ β} {s : σ}
    (hfail : Q (p.run s).store)
    (hok : ∀ a, (p.run s).result = .ok a → Q ((k a).run (p.run s).store).store) :
    Q ((p >>= k).run s).store := by
  cases h : (p.run s).result with
  | ok a =>
      rw [run_bind_ok h]
      exact hok a h
  | error e =>
      rw [run_bind_error h]
      exact hfail

/-- A transaction leaves behind what its body does, or nothing. -/
theorem store_transaction {Q : σ → Prop} {p : Prog σ ε φ α} {s : σ} (hs : Q s)
    (hp : Q (p.run s).store) : Q ((transaction p).run s).store := by
  unfold transaction
  rw [run_stmt]
  split
  · exact hp
  · exact hs

theorem run_map (f : α → β) (p : Prog σ ε φ α) (s : σ) :
    (f <$> p).run s = ⟨(p.run s).store, (p.run s).events, (p.run s).result.map f⟩ := by
  show (p >>= fun a => pure (f a)).run s = _
  cases h : (p.run s).result with
  | ok a => simp [run_bind_ok h, Except.map]
  | error e => simp [run_bind_error h, Except.map]

/-- A program that fails has reported why. -/
def Reports (R : φ → ε → Prop) (p : Prog σ ε φ α) : Prop :=
  ∀ s e, (p.run s).result = .error e → ∃ x ∈ (p.run s).events, R e x

section reports

variable {R : φ → ε → Prop}

theorem reports_pure (a : α) : (pure a : Prog σ ε φ α).Reports R := fun s e h => by cases h

theorem reports_stmt {f : σ → Answer σ ε φ α}
    (h : ∀ s e, (f s).result = .error e → ∃ x ∈ (f s).events, R e x) : (stmt f).Reports R := by
  intro s e he
  rw [run_stmt] at he ⊢
  exact h s e he

theorem reports_query (read : σ → α) : (query read : Prog σ ε φ α).Reports R :=
  reports_stmt fun _ _ h => by cases h

theorem reports_bind {p : Prog σ ε φ α} {k : α → Prog σ ε φ β} (hp : p.Reports R)
    (hk : ∀ a, (k a).Reports R) : (p >>= k).Reports R := by
  intro s e he
  cases hr : (p.run s).result with
  | ok a =>
      rw [run_bind_ok hr] at he ⊢
      obtain ⟨x, hx, hR⟩ := hk a _ e he
      exact ⟨x, List.mem_append_right _ hx, hR⟩
  | error e' =>
      rw [run_bind_error hr] at he ⊢
      cases he
      exact hp s e hr

theorem reports_map {p : Prog σ ε φ α} (f : α → β) (hp : p.Reports R) : (f <$> p).Reports R :=
  reports_bind hp fun a => reports_pure (f a)

end reports

/-! ## What the rest of a program may do -/

/-- Every statement the program can reach, whatever stores it finds on the way,
relates the store before, the store after and its events by `P`. -/
def Always (P : σ → σ → List ε → Prop) : Prog σ ε φ α → Prop
  | .done _ => True
  | .fail _ => True
  | .step exec next => ∀ s, P s (exec s).1 (exec s).2 ∧ (next s).Always P

/-- Every event the program can emit satisfies `E`. -/
abbrev Emits (E : ε → Prop) (p : Prog σ ε φ α) : Prop := p.Always fun _ _ es => ∀ e ∈ es, E e

/-- Some path through the program emits an event satisfying `E`. -/
def MayEmit (E : ε → Prop) : Prog σ ε φ α → Prop
  | .done _ => False
  | .fail _ => False
  | .step exec next => ∃ s, (∃ e ∈ (exec s).2, E e) ∨ (next s).MayEmit E

variable {P Q : σ → σ → List ε → Prop} {E : ε → Prop}

@[simp] theorem always_done (a : α) : (.done a : Prog σ ε φ α).Always P := trivial

@[simp] theorem always_pure (a : α) : (pure a : Prog σ ε φ α).Always P := trivial

@[simp] theorem always_fail (e : φ) : (.fail e : Prog σ ε φ α).Always P := trivial

theorem always_stmt {f : σ → Answer σ ε φ α} (h : ∀ s, P s (f s).store (f s).events) :
    (stmt f).Always P := by
  intro s
  refine ⟨h s, ?_⟩
  dsimp only
  split <;> trivial

theorem always_bind {p : Prog σ ε φ α} {k : α → Prog σ ε φ β} (hp : p.Always P)
    (hk : ∀ a, (k a).Always P) : (p >>= k).Always P := by
  induction p with
  | done a => exact hk a
  | fail e => trivial
  | step exec next ih => exact fun s => ⟨(hp s).1, ih s (hp s).2⟩

theorem always_attempt {p : Prog σ ε φ α} (hp : p.Always P) :
    (p.attempt : Prog σ ε ψ (Except φ α)).Always P := by
  induction p with
  | done a => trivial
  | fail e => trivial
  | step exec next ih => exact fun s => ⟨(hp s).1, ih s (hp s).2⟩

/-- A law that chains along statements holds of a whole uninterrupted run. -/
theorem Always.run {p : Prog σ ε φ α} (hp : p.Always P) (refl : ∀ s, P s s [])
    (trans : ∀ s t u es fs, P s t es → P t u fs → P s u (es ++ fs)) (s : σ) :
    P s (p.run s).store (p.run s).events := by
  induction p generalizing s with
  | done a => exact refl s
  | fail e => exact refl s
  | step exec next ih => exact trans _ _ _ _ _ (hp s).1 (ih s (hp s).2 (exec s).1)

theorem always_transaction {p : Prog σ ε φ α} (hp : p.Always P) (refl : ∀ s, P s s [])
    (trans : ∀ s t u es fs, P s t es → P t u fs → P s u (es ++ fs)) :
    (transaction p).Always P := by
  refine always_stmt fun s => ?_
  split
  · exact hp.run refl trans s
  · exact refl s

theorem always_map {p : Prog σ ε φ α} (f : α → β) (hp : p.Always P) : (f <$> p).Always P :=
  always_bind hp fun _ => trivial

theorem Always.mono {p : Prog σ ε φ α} (hp : p.Always P)
    (h : ∀ s t es, P s t es → Q s t es) : p.Always Q := by
  induction p with
  | done a => trivial
  | fail e => trivial
  | step exec next ih => exact fun s => ⟨h _ _ _ (hp s).1, ih s (hp s).2⟩

theorem Always.and {p : Prog σ ε φ α} (hp : p.Always P) (hq : p.Always Q) :
    p.Always fun s t es => P s t es ∧ Q s t es := by
  induction p with
  | done a => trivial
  | fail e => trivial
  | step exec next ih => exact fun s => ⟨⟨(hp s).1, (hq s).1⟩, ih s (hp s).2 (hq s).2⟩

@[simp] theorem not_mayEmit_done (a : α) : ¬ (.done a : Prog σ ε φ α).MayEmit E := id

@[simp] theorem not_mayEmit_pure (a : α) : ¬ (pure a : Prog σ ε φ α).MayEmit E := id

@[simp] theorem not_mayEmit_fail (e : φ) : ¬ (.fail e : Prog σ ε φ α).MayEmit E := id

/-- Nothing is left to execute. -/
def ended : Prog σ ε φ α → Bool
  | .step _ _ => false
  | _ => true

/-- Without a statement left, a program does not look at the store. -/
theorem run_of_ended {p : Prog σ ε φ α} (h : p.ended = true) :
    ∃ result, ∀ s, p.run s = ⟨s, [], result⟩ := by
  cases p with
  | done a => exact ⟨.ok a, fun _ => rfl⟩
  | fail e => exact ⟨.error e, fun _ => rfl⟩
  | step exec next => cases h

theorem not_mayEmit_of_ended {p : Prog σ ε φ α} (h : p.ended = true) : ¬ p.MayEmit E := by
  cases p with
  | done a => exact id
  | fail e => exact id
  | step exec next => cases h

theorem MayEmit.next {exec : σ → σ × List ε} {next : σ → Prog σ ε φ α} {s : σ}
    (h : (next s).MayEmit E) : (Prog.step exec next).MayEmit E := ⟨s, .inr h⟩

theorem MayEmit.now {exec : σ → σ × List ε} {next : σ → Prog σ ε φ α} {s : σ} {e : ε}
    (he : e ∈ (exec s).2) (h : E e) : (Prog.step exec next).MayEmit E := ⟨s, .inl ⟨e, he, h⟩⟩

/-! ## What a program may return -/

/-- Every value the program can end with satisfies `R`. -/
def Returns (R : α → Prop) : Prog σ ε φ α → Prop
  | .done a => R a
  | .fail _ => True
  | .step _ next => ∀ s, (next s).Returns R

theorem returns_any (p : Prog σ ε φ α) : p.Returns fun _ => True := by
  induction p with
  | done a => trivial
  | fail e => trivial
  | step exec next ih => exact ih

theorem returns_stmt {R : α → Prop} {f : σ → Answer σ ε φ α}
    (h : ∀ s a, (f s).result = .ok a → R a) : (stmt f).Returns R := by
  intro s
  dsimp only
  cases hr : (f s).result with
  | ok a => exact h s a hr
  | error e => trivial

theorem returns_bind {R : α → Prop} {R' : β → Prop} {p : Prog σ ε φ α} {k : α → Prog σ ε φ β}
    (hp : p.Returns R) (hk : ∀ a, R a → (k a).Returns R') : (p >>= k).Returns R' := by
  induction p with
  | done a => exact hk a hp
  | fail e => trivial
  | step exec next ih => exact fun s => ih s (hp s)

theorem always_bind_returns {R : α → Prop} {p : Prog σ ε φ α} {k : α → Prog σ ε φ β}
    (hp : p.Always P) (hr : p.Returns R) (hk : ∀ a, R a → (k a).Always P) :
    (p >>= k).Always P := by
  induction p with
  | done a => exact hk a hr
  | fail e => trivial
  | step exec next ih => exact fun s => ⟨(hp s).1, ih s (hp s).2 (hr s)⟩

end Prog

end Concurrency
