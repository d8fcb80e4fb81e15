import Mathlib.Data.List.Forall2
import Mathlib.Data.List.Sort

/-! # Two versions of a list

Two lists are compared row by row. What a computation on one of them finds,
sorts or cuts off corresponds to what the same computation finds, sorts or cuts
off on the other, as long as corresponding rows answer its tests alike.
-/

namespace Relational

open List

variable {α β : Type} {R : α → β → Prop}

theorem versions_find? {p : α → Bool} {q : β → Bool} (h : ∀ a b, R a b → p a = q b)
    {l : List α} {l' : List β} (hl : Forall₂ R l l') : Option.Rel R (l.find? p) (l'.find? q) := by
  induction hl with
  | nil => exact .none
  | cons hab _ ih =>
      rw [find?_cons, find?_cons, h _ _ hab]
      split
      · exact .some hab
      · exact ih

theorem versions_filter {p : α → Bool} {q : β → Bool} (h : ∀ a b, R a b → p a = q b)
    {l : List α} {l' : List β} (hl : Forall₂ R l l') : Forall₂ R (l.filter p) (l'.filter q) :=
  rel_filter (fun a b hab => Bool.eq_iff_iff.mp (h a b hab)) hl

theorem versions_any {p : α → Bool} {q : β → Bool} (h : ∀ a b, R a b → p a = q b)
    {l : List α} {l' : List β} (hl : Forall₂ R l l') : l.any p = l'.any q := by
  induction hl with
  | nil => rfl
  | cons hab _ ih => rw [any_cons, any_cons, h _ _ hab, ih]

theorem versions_head? {l : List α} {l' : List β} (hl : Forall₂ R l l') :
    Option.Rel R l.head? l'.head? := by
  cases hl with
  | nil => exact .none
  | cons hab _ => exact .some hab

theorem versions_map {γ : Type} {f : α → γ} {g : β → γ} (h : ∀ a b, R a b → f a = g b)
    {l : List α} {l' : List β} (hl : Forall₂ R l l') : l.map f = l'.map g := by
  induction hl with
  | nil => rfl
  | cons hab _ ih => rw [map_cons, map_cons, h _ _ hab, ih]

section sort

variable {r : α → α → Prop} {r' : β → β → Prop} [DecidableRel r] [DecidableRel r']

theorem versions_orderedInsert (h : ∀ a b a' b', R a a' → R b b' → (r a b ↔ r' a' b')) {x : α}
    {x' : β} (hx : R x x') {l : List α} {l' : List β} (hl : Forall₂ R l l') :
    Forall₂ R (l.orderedInsert r x) (l'.orderedInsert r' x') := by
  induction hl with
  | nil => exact .cons hx .nil
  | @cons y y' ys ys' hy hys ih =>
      by_cases hle : r x y
      · rw [orderedInsert_cons_of_le _ _ hle,
          orderedInsert_cons_of_le _ _ ((h _ _ _ _ hx hy).mp hle)]
        exact .cons hx (.cons hy hys)
      · rw [orderedInsert_of_not_le _ _ hle,
          orderedInsert_of_not_le _ _ fun hle' => hle ((h _ _ _ _ hx hy).mpr hle')]
        exact .cons hy ih

/-- Rows that compare alike end up in the same places. -/
theorem versions_insertionSort (h : ∀ a b a' b', R a a' → R b b' → (r a b ↔ r' a' b'))
    {l : List α} {l' : List β} (hl : Forall₂ R l l') :
    Forall₂ R (l.insertionSort r) (l'.insertionSort r') := by
  induction hl with
  | nil => exact .nil
  | cons hx _ ih => exact versions_orderedInsert h hx ih

end sort

end Relational
