import Mathlib.Data.List.Basic
import Mathlib.Data.List.Pairwise

/-! # Tables with unique constraints

A table is a list of rows no two of which clash on the columns its unique
constraints mention, so an ill-formed table cannot be built. Updates may change
any other column; insertion refuses a row that clashes with a stored one.
-/

namespace Relational

/-- When two rows of one table would violate a unique constraint. -/
class UniqueColumns (ρ : Type) where
  conflicts : ρ → ρ → Bool
  conflicts_self : ∀ a, conflicts a a = true
  conflicts_symm : ∀ a b, conflicts a b = conflicts b a

export UniqueColumns (conflicts conflicts_self conflicts_symm)

variable {ρ : Type} [UniqueColumns ρ]

structure Table (ρ : Type) [UniqueColumns ρ] where
  rows : List ρ
  distinct : rows.Pairwise fun a b => conflicts a b = false

namespace Table

def empty : Table ρ := ⟨[], .nil⟩

def singleton (r : ρ) : Table ρ := ⟨[r], List.pairwise_singleton _ _⟩

instance : Inhabited (Table ρ) := ⟨empty⟩

@[simp] theorem rows_empty : (empty : Table ρ).rows = [] := rfl

@[simp] theorem rows_singleton (r : ρ) : (singleton r).rows = [r] := rfl

/-- A unique constraint finds at most one row. -/
theorem eq_of_conflicts {t : Table ρ} {a b : ρ} (ha : a ∈ t.rows) (hb : b ∈ t.rows)
    (h : conflicts a b = true) : a = b := by
  by_contra hne
  have hsymm : Std.Symm fun a b : ρ => conflicts a b = false :=
    ⟨fun a b hab => by rw [conflicts_symm, hab]⟩
  have hfalse := t.distinct.forall ha hb hne
  rw [h] at hfalse
  exact Bool.noConfusion hfalse

/-- Rows that clash with each other are one row. -/
theorem length_filter_eq_one {t : Table ρ} {p : ρ → Bool} {r : ρ} (hr : r ∈ t.rows) (hp : p r = true)
    (h : ∀ a ∈ t.rows, ∀ b ∈ t.rows, p a = true → p b = true → conflicts a b = true) :
    (t.rows.filter p).length = 1 := by
  have hmem : r ∈ t.rows.filter p := List.mem_filter.mpr ⟨hr, hp⟩
  have hdistinct := t.distinct.filter p
  cases hrows : t.rows.filter p with
  | nil =>
      rw [hrows] at hmem
      cases hmem
  | cons a rest =>
      cases rest with
      | nil => rfl
      | cons b rest =>
          have ha : a ∈ t.rows.filter p := by simp [hrows]
          have hb : b ∈ t.rows.filter p := by simp [hrows]
          rw [hrows, List.pairwise_cons] at hdistinct
          have hfalse := hdistinct.1 b List.mem_cons_self
          obtain ⟨ha, hpa⟩ := List.mem_filter.mp ha
          obtain ⟨hb, hpb⟩ := List.mem_filter.mp hb
          rw [h a ha b hb hpa hpb] at hfalse
          cases hfalse

/-! ## Updates -/

/-- Rewrite every row satisfying `p`, the columns under constraints excepted. -/
def update (t : Table ρ) (p : ρ → Bool) (f : ρ → ρ)
    (keeps : ∀ a b, conflicts (f a) b = conflicts a b := by intros; rfl) : Table ρ where
  rows := t.rows.map fun r => if p r then f r else r
  distinct := by
    have hleft : ∀ a b, conflicts (if p a then f a else a) b = conflicts a b := by
      intro a b
      split
      · exact keeps a b
      · rfl
    rw [List.pairwise_map]
    refine t.distinct.imp fun {a b} hab => ?_
    rw [hleft, conflicts_symm, hleft, conflicts_symm, hab]

variable {t u : Table ρ} {p : ρ → Bool} {f : ρ → ρ}
  {keeps : ∀ a b, conflicts (f a) b = conflicts a b}

@[simp] theorem rows_update :
    (t.update p f keeps).rows = t.rows.map fun r => if p r then f r else r := rfl

theorem mem_update {r : ρ} :
    r ∈ (t.update p f keeps).rows ↔ ∃ x ∈ t.rows, (if p x then f x else x) = r := by
  simp

/-- Rewrite every row satisfying `p`, the columns under constraints included,
or a unique violation. -/
def modify (t : Table ρ) (p : ρ → Bool) (f : ρ → ρ) : Option (Table ρ) :=
  if h : (t.rows.map fun r => if p r then f r else r).Pairwise fun a b => conflicts a b = false then
    some ⟨_, h⟩
  else none

theorem modify_eq_some (h : t.modify p f = some u) :
    u.rows = t.rows.map fun r => if p r then f r else r := by
  unfold modify at h
  split at h
  · cases h
    rfl
  · cases h

/-- Delete every row satisfying `p`. -/
def erase (t : Table ρ) (p : ρ → Bool) : Table ρ where
  rows := t.rows.filter fun r => !p r
  distinct := t.distinct.filter _

@[simp] theorem rows_erase : (t.erase p).rows = t.rows.filter fun r => !p r := rfl

/-! ## Insertion -/

/-- One row, or a unique violation. -/
def insert (t : Table ρ) (r : ρ) : Option (Table ρ) :=
  if h : ∀ x ∈ t.rows, conflicts x r = false then
    some ⟨t.rows ++ [r], by
      rw [List.pairwise_append]
      refine ⟨t.distinct, List.pairwise_singleton _ _, fun x hx y hy => ?_⟩
      rw [List.mem_singleton] at hy
      exact hy ▸ h x hx⟩
  else none

theorem insert_eq_some {r : ρ} (h : t.insert r = some u) :
    u.rows = t.rows ++ [r] ∧ ∀ x ∈ t.rows, conflicts x r = false := by
  unfold insert at h
  split at h
  · rename_i hfree
    cases h
    exact ⟨rfl, hfree⟩
  · cases h

theorem insert_eq_none {r : ρ} (h : t.insert r = none) : ∃ x ∈ t.rows, conflicts x r = true := by
  unfold insert at h
  split at h
  · cases h
  · rename_i hclash
    simpa using hclash

/-- `ON CONFLICT DO NOTHING`: rows that clash with what is stored are skipped. -/
def insertSkipping (t : Table ρ) : List ρ → Table ρ
  | [] => t
  | r :: rs => ((t.insert r).getD t).insertSkipping rs

theorem mem_insertSkipping {rs : List ρ} {r : ρ} (h : r ∈ t.rows) :
    r ∈ (t.insertSkipping rs).rows := by
  induction rs generalizing t with
  | nil => exact h
  | cons x rs ih =>
      apply ih
      cases hx : t.insert x with
      | none => exact h
      | some u =>
          rw [Option.getD_some, (insert_eq_some hx).1]
          exact List.mem_append_left _ h

/-- A first row that clashes with nothing is not skipped. -/
theorem mem_insertSkipping_head {r : ρ} {rs : List ρ} (h : ∀ x ∈ t.rows, conflicts x r = false) :
    r ∈ (t.insertSkipping (r :: rs)).rows := by
  unfold insertSkipping
  cases hr : t.insert r with
  | none =>
      obtain ⟨x, hx, hclash⟩ := insert_eq_none hr
      rw [h x hx] at hclash
      cases hclash
  | some u =>
      refine mem_insertSkipping ?_
      rw [Option.getD_some, (insert_eq_some hr).1]
      exact List.mem_append_right _ List.mem_cons_self

/-- The skipping insertion appends a sublist of the rows offered. -/
theorem insertSkipping_rows (t : Table ρ) (rs : List ρ) :
    ∃ new : List ρ, (t.insertSkipping rs).rows = t.rows ++ new ∧ new.Sublist rs := by
  induction rs generalizing t with
  | nil => exact ⟨[], by simp [insertSkipping], List.Sublist.refl _⟩
  | cons x rs ih =>
      cases hx : t.insert x with
      | none =>
          obtain ⟨new, hrows, hsub⟩ := ih t
          exact ⟨new, by simpa [insertSkipping, hx] using hrows, hsub.cons x⟩
      | some u =>
          obtain ⟨new, hrows, hsub⟩ := ih u
          refine ⟨x :: new, ?_, hsub.cons_cons x⟩
          rw [insertSkipping, hx, Option.getD_some, hrows, (insert_eq_some hx).1]
          simp

/-- Rows that clash neither with what is stored nor with each other are all inserted. -/
theorem insertSkipping_of_fresh {rs : List ρ}
    (h : (t.rows ++ rs).Pairwise fun a b => conflicts a b = false) :
    (t.insertSkipping rs).rows = t.rows ++ rs := by
  induction rs generalizing t with
  | nil => exact (List.append_nil _).symm
  | cons r rs ih =>
      have hfree : ∀ x ∈ t.rows, conflicts x r = false := by
        intro x hx
        exact (List.pairwise_append.mp h).2.2 x hx r List.mem_cons_self
      cases hr : t.insert r with
      | none =>
          obtain ⟨x, hx, hclash⟩ := insert_eq_none hr
          rw [hfree x hx] at hclash
          cases hclash
      | some u =>
          have hu := (insert_eq_some hr).1
          have hrest : (u.rows ++ rs).Pairwise fun a b => conflicts a b = false := by
            rw [hu, List.append_assoc, List.singleton_append]
            exact h
          rw [insertSkipping, hr, Option.getD_some, ih hrest, hu, List.append_assoc,
            List.singleton_append]

end Table

/-- Rows made from a list, each with its position, differ if what they are made
from does. -/
theorem pairwise_numbered {α β : Type} {R : β → β → Prop} {S : α → α → Prop} {f : α × Nat → β}
    {xs : List α} (h : xs.Pairwise S)
    (hf : ∀ x y i j, S x y → i ≠ j → R (f (x, i)) (f (y, j))) : (xs.zipIdx.map f).Pairwise R := by
  rw [List.pairwise_map, List.pairwise_iff_getElem]
  intro i j hi hj hij
  rw [List.length_zipIdx] at hi hj
  have hpair := List.pairwise_iff_getElem.mp h i j hi hj hij
  rw [List.getElem_zipIdx, List.getElem_zipIdx]
  exact hf _ _ _ _ hpair (by omega)

end Relational
