import Mathlib.Data.List.Basic
import Mathlib.Data.List.Pairwise

/-! # Following a cursor

A listing is served page by page; every page but the last says where the next
one starts, and the client asks again from there. The server may answer each
request from another state, so a request carries its number.
-/

namespace Paging

/-- One page of a listing, and the cursor of the next. -/
structure Page (κ α : Type) where
  items : List α
  next : Option κ
  deriving DecidableEq, Repr

variable {κ κ' α β φ : Type}

def Page.map (encode : κ → κ') (view : α → β) (p : Page κ α) : Page κ' β :=
  ⟨p.items.map view, p.next.map encode⟩

/-- The pages of a client that follows the cursor from its `i`-th request on,
`fuel` requests at most. -/
def walk (serve : Nat → Option κ → Except φ (Page κ α)) :
    Nat → Nat → Option κ → List (Page κ α)
  | 0, _, _ => []
  | fuel + 1, i, cursor =>
      match serve i cursor with
      | .error _ => []
      | .ok page =>
          match page.next with
          | none => [page]
          | some next => page :: walk serve fuel (i + 1) (some next)

/-- Everything a walk returned, in order. -/
def allItems (pages : List (Page κ α)) : List α := pages.flatMap (·.items)

/-- The walk has come to a page without a next one. -/
def Ended (pages : List (Page κ α)) : Prop := pages.getLast?.map (·.next) = some none

instance [DecidableEq κ] (pages : List (Page κ α)) : Decidable (Ended pages) := by
  unfold Ended
  infer_instance

@[simp] theorem allItems_nil : allItems ([] : List (Page κ α)) = [] := rfl

@[simp] theorem allItems_cons (page : Page κ α) (pages : List (Page κ α)) :
    allItems (page :: pages) = page.items ++ allItems pages := rfl

theorem not_ended_nil : ¬ Ended ([] : List (Page κ α)) := nofun

theorem ended_singleton {page : Page κ α} (h : page.next = none) : Ended [page] :=
  congrArg some h

theorem ended_cons {page : Page κ α} {pages : List (Page κ α)} (h : Ended pages) :
    Ended (page :: pages) := by
  unfold Ended at h ⊢
  cases pages with
  | nil => cases h
  | cons p ps => rwa [List.getLast?_cons_cons]

theorem Ended.tail {page : Page κ α} {pages : List (Page κ α)} {next : κ}
    (h : Ended (page :: pages)) (hnext : page.next = some next) : Ended pages := by
  unfold Ended at h ⊢
  cases pages with
  | nil => simp [hnext] at h
  | cons p ps => rwa [List.getLast?_cons_cons] at h

variable {serve : Nat → Option κ → Except φ (Page κ α)}

/-! ## One request -/

theorem walk_last {fuel i : Nat} {cursor : Option κ} {page : Page κ α}
    (h : serve i cursor = .ok page) (hnext : page.next = none) :
    walk serve (fuel + 1) i cursor = [page] := by
  simp [walk, h, hnext]

theorem walk_more {fuel i : Nat} {cursor : Option κ} {page : Page κ α} {next : κ}
    (h : serve i cursor = .ok page) (hnext : page.next = some next) :
    walk serve (fuel + 1) i cursor = page :: walk serve fuel (i + 1) (some next) := by
  simp [walk, h, hnext]

/-- More requests change nothing once the walk has ended. -/
theorem walk_of_ended {fuel i : Nat} {cursor : Option κ} (h : Ended (walk serve fuel i cursor))
    (more : Nat) : walk serve (fuel + more) i cursor = walk serve fuel i cursor := by
  induction fuel generalizing i cursor with
  | zero => exact absurd h not_ended_nil
  | succ fuel ih =>
      cases hserve : serve i cursor with
      | error e =>
          have hnil : walk serve (fuel + 1) i cursor = [] := by simp [walk, hserve]
          exact absurd (hnil ▸ h) not_ended_nil
      | ok page =>
          rw [show fuel + 1 + more = fuel + more + 1 by omega]
          cases hnext : page.next with
          | none => rw [walk_last hserve hnext, walk_last hserve hnext]
          | some next =>
              rw [walk_more hserve hnext] at h ⊢
              rw [walk_more hserve hnext, ih (h.tail hnext)]

/-- The first page answers the cursor the walk begins with. -/
theorem serve_of_walk {fuel i : Nat} {cursor : Option κ} {page : Page κ α}
    (h : (walk serve fuel i cursor)[0]? = some page) : serve i cursor = .ok page := by
  cases fuel with
  | zero => simp [walk] at h
  | succ fuel =>
      unfold walk at h
      cases hserve : serve i cursor with
      | error e => simp [hserve] at h
      | ok p =>
          cases hnext : p.next <;> simp_all

/-- Every further page answers the cursor of the page before it. -/
theorem serve_of_walk_succ {fuel i j : Nat} {cursor : Option κ} {page page' : Page κ α}
    (h : (walk serve fuel i cursor)[j]? = some page)
    (h' : (walk serve fuel i cursor)[j + 1]? = some page') :
    ∃ next, page.next = some next ∧ serve (i + (j + 1)) (some next) = .ok page' := by
  induction fuel generalizing i j cursor with
  | zero => simp [walk] at h
  | succ fuel ih =>
      unfold walk at h h'
      cases hserve : serve i cursor with
      | error e => simp [hserve] at h
      | ok p =>
          simp only [hserve] at h h'
          cases hnext : p.next with
          | none => simp [hnext] at h'
          | some next =>
              simp only [hnext, List.getElem?_cons_succ] at h h'
              cases j with
              | zero =>
                  cases h
                  exact ⟨next, hnext, serve_of_walk h'⟩
              | succ j =>
                  rw [show i + (j + 1 + 1) = i + 1 + (j + 1) by omega]
                  exact ih h h'

/-- The client sees the rows and the cursors through a presentation. -/
theorem walk_map {serve' : Nat → Option κ' → Except φ (Page κ' β)} {encode : κ → κ'} {view : α → β}
    (h : ∀ i cursor, serve' i (cursor.map encode) = (serve i cursor).map (Page.map encode view))
    (fuel i : Nat) (cursor : Option κ) :
    walk serve' fuel i (cursor.map encode) =
      (walk serve fuel i cursor).map (Page.map encode view) := by
  induction fuel generalizing i cursor with
  | zero => rfl
  | succ fuel ih =>
      unfold walk
      rw [h i cursor]
      cases serve i cursor with
      | error e => rfl
      | ok page =>
          cases hnext : page.next with
          | none => simp [Except.map, Page.map, hnext]
          | some next =>
              have hrest := ih (i + 1) (some next)
              simp only [Option.map_some] at hrest
              simp [Except.map, Page.map, hnext, hrest]

theorem allItems_map (encode : κ → κ') (view : α → β) (pages : List (Page κ α)) :
    allItems (pages.map (Page.map encode view)) = (allItems pages).map view := by
  induction pages with
  | nil => rfl
  | cons page pages ih =>
      rw [List.map_cons, allItems_cons, allItems_cons, List.map_append, ih]
      rfl

theorem ended_map {encode : κ → κ'} {view : α → β} {pages : List (Page κ α)} :
    Ended (pages.map (Page.map encode view)) ↔ Ended pages := by
  unfold Ended
  rw [List.getLast?_map]
  cases pages.getLast? with
  | none => simp
  | some page => simp [Page.map]

end Paging
