import Feca.Concurrency.Interleaving
import Feca.Paging.Keyset

/-! # A client among others

A client that follows a cursor is a program like any other: between two of its
statements, the others may move the store along their guarantee. As long as
each request answers as if it had run at one moment, the pages of the client
are the walk over such moments, all between the first request and the last.
-/

namespace Paging

open Concurrency Concurrency.Prog

variable {κ σ ε φ α : Type}

/-- Ask for a page, and go on from its cursor, `fuel` requests at most. -/
def follow (request : Option κ → Prog σ ε φ (Page κ α)) :
    Nat → Option κ → Prog σ ε φ (List (Page κ α))
  | 0, _ => pure []
  | fuel + 1, cursor => do
      let page ← request cursor
      match page.next with
      | none => pure [page]
      | some next => (page :: ·) <$> follow request fuel (some next)

/-- The answer of a request that runs alone. -/
def answerAt (request : Option κ → Prog σ ε φ (Page κ α)) (s : σ) (cursor : Option κ) :
    Except φ (Page κ α) :=
  ((request cursor).run s).result

/-- The walk from the second request on. -/
theorem walk_shift {serve : Nat → Option κ → Except φ (Page κ α)} (fuel i : Nat)
    (cursor : Option κ) :
    walk (fun j => serve (j + 1)) fuel i cursor = walk serve fuel (i + 1) cursor := by
  induction fuel generalizing i cursor with
  | zero => rfl
  | succ fuel ih =>
      unfold walk
      cases serve (i + 1) cursor with
      | error e => rfl
      | ok page =>
          dsimp only
          cases page.next with
          | none => rfl
          | some next => exact congrArg (page :: ·) (ih (i + 1) (some next))

/-- A client whose first request fails sees nothing. -/
theorem walk_error {serve : Nat → Option κ → Except φ (Page κ α)} {i : Nat} {cursor : Option κ}
    {e : φ} (h : serve i cursor = .error e) (fuel : Nat) : walk serve fuel i cursor = [] := by
  cases fuel with
  | zero => rfl
  | succ fuel => simp [walk, h]

variable {K : Contract σ}

/-- The request answers as if it had run at one moment. -/
def Momentary (K : Contract σ) (request : Option κ → Prog σ ε φ (Page κ α)) : Prop :=
  ∀ cursor s, (request cursor).Meets K
    (fun page t => ∃ u, K.guar s u ∧ K.guar u t ∧ answerAt request u cursor = .ok page) s

/-- The pages are those of a walk over moments between `s` and `t`. -/
def Walked (K : Contract σ) (request : Option κ → Prog σ ε φ (Page κ α)) (fuel : Nat)
    (cursor : Option κ) (s : σ) (pages : List (Page κ α)) (t : σ) : Prop :=
  ∃ moments : Nat → σ, (∀ j, K.guar s (moments j) ∧ K.guar (moments j) t) ∧
    pages = walk (fun j => answerAt request (moments j)) fuel 0 cursor

theorem Walked.later {request : Option κ → Prog σ ε φ (Page κ α)} {fuel : Nat} {cursor : Option κ}
    {s t u : σ} {pages : List (Page κ α)} (h : Walked K request fuel cursor s pages t)
    (htu : K.guar t u) : Walked K request fuel cursor s pages u := by
  obtain ⟨moments, hmoments, hpages⟩ := h
  exact ⟨moments, fun j => ⟨(hmoments j).1, K.trans (hmoments j).2 htu⟩, hpages⟩

/-- The client keeps its contract, and its pages are a walk. -/
theorem meets_follow {request : Option κ → Prog σ ε φ (Page κ α)} (hrequest : Momentary K request)
    (fuel : Nat) (cursor : Option κ) (s : σ) :
    (follow request fuel cursor).Meets K (Walked K request fuel cursor s) s := by
  induction fuel generalizing cursor s with
  | zero => exact ⟨fun _ => s, fun _ => ⟨K.refl s, K.refl s⟩, rfl⟩
  | succ fuel ih =>
      refine meets_bind (hrequest cursor s) fun page t hst => ?_
      rintro ⟨u, hsu, hut, hpage⟩
      cases hnext : page.next with
      | none =>
          refine ⟨fun _ => u, fun _ => ⟨hsu, hut⟩, ?_⟩
          exact (walk_last hpage hnext).symm
      | some next =>
          refine meets_bind (ih (some next) t) fun pages v htv => ?_
          rintro ⟨moments, hmoments, rfl⟩
          refine ⟨fun j => Nat.casesOn j u moments, fun j => ?_, ?_⟩
          · cases j with
            | zero => exact ⟨hsu, K.trans hut htv⟩
            | succ j => exact ⟨K.trans hst (hmoments j).1, (hmoments j).2⟩
          · refine Eq.symm ((walk_more hpage hnext).trans (congrArg (page :: ·) ?_))
            exact (walk_shift fuel 0 (some next)).symm

end Paging
