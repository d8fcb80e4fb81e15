import Mathlib.Data.List.MinMax
import Mathlib.Data.List.Nodup
import Mathlib.Data.List.Perm.Subperm
import Mathlib.Data.List.Sort
import Mathlib.Order.Lattice

/-! # What a selection keeps

Whether the largest value, or the first values in some order, are still the same
after some of the candidates have gone.
-/

namespace Collections

theorem max?_eq_iff {α : Type} [LinearOrder α] {xs ys : List α} : xs.max? = ys.max? ↔
    (∀ x ∈ xs, ∃ y ∈ ys, x ≤ y) ∧ ∀ y ∈ ys, ∃ x ∈ xs, y ≤ x := by
  constructor
  · intro hmax
    have hleft : ∀ {xs ys : List α}, xs.max? = ys.max? → ∀ x ∈ xs, ∃ y ∈ ys, x ≤ y := by
      intro xs ys hmax x hx
      cases hys : ys.max? with
      | none =>
          rw [hys, List.max?_eq_none_iff] at hmax
          rw [hmax] at hx
          cases hx
      | some m =>
          rw [hys] at hmax
          exact ⟨m, (List.max?_eq_some_iff.mp hys).1, (List.max?_eq_some_iff.mp hmax).2 x hx⟩
    exact ⟨hleft hmax, hleft hmax.symm⟩
  · rintro ⟨hxs, hys⟩
    cases hmax : xs.max? with
    | none =>
        rw [List.max?_eq_none_iff] at hmax
        have hempty : ys = [] := List.eq_nil_iff_forall_not_mem.mpr fun y hy => by
          obtain ⟨x, hx, -⟩ := hys y hy
          rw [hmax] at hx
          cases hx
        rw [hempty]
        rfl
    | some m =>
        obtain ⟨hm, hle⟩ := List.max?_eq_some_iff.mp hmax
        obtain ⟨y, hy, hmy⟩ := hxs m hm
        obtain ⟨x, hx, hyx⟩ := hys y hy
        have heq : y = m := le_antisymm (hyx.trans (hle x hx)) hmy
        refine (List.max?_eq_some_iff.mpr ⟨heq ▸ hy, fun z hz => ?_⟩).symm
        obtain ⟨w, hw, hzw⟩ := hys z hz
        exact hzw.trans (hle w hw)

/-- Sorting by an order that refines another sorts by the other. -/
theorem pairwise_insertionSort_of {α : Type} {r s : α → α → Prop} [DecidableRel r]
    (hr : ∀ a b, r a b → s a b) (hnot : ∀ a b, ¬ r a b → s b a)
    (trans : ∀ a b c, s a b → s b c → s a c) (xs : List α) : (xs.insertionSort r).Pairwise s := by
  have hinsert : ∀ (a : α) (ys : List α), ys.Pairwise s → (ys.orderedInsert r a).Pairwise s := by
    intro a ys hys
    induction ys with
    | nil => exact List.pairwise_singleton s a
    | cons b ys ih =>
      obtain ⟨hb, hys⟩ := List.pairwise_cons.mp hys
      by_cases hab : r a b
      · rw [List.orderedInsert_cons_of_le r ys hab, List.pairwise_cons, List.pairwise_cons]
        refine ⟨?_, hb, hys⟩
        intro c hc
        rcases List.mem_cons.mp hc with rfl | hc
        · exact hr a c hab
        · exact trans a b c (hr a b hab) (hb c hc)
      · rw [List.orderedInsert_of_not_le r ys hab, List.pairwise_cons]
        refine ⟨?_, ih hys⟩
        intro c hc
        rcases (List.mem_orderedInsert r).mp hc with rfl | hc
        · exact hnot c b hab
        · exact hb c hc
  induction xs with
  | nil => exact List.Pairwise.nil
  | cons a xs ih => exact hinsert a _ ih

/-- One list sorts like another with the same elements, where the order tells
them apart. -/
theorem insertionSort_eq_of_perm {α : Type} {r : α → α → Prop} [DecidableRel r]
    (total : ∀ a b, r a b ∨ r b a) (trans : ∀ a b c, r a b → r b c → r a c) {xs ys : List α}
    (hperm : xs.Perm ys) (hapart : ∀ a ∈ ys, ∀ b ∈ ys, r a b → r b a → a = b) :
    xs.insertionSort r = ys.insertionSort r := by
  have htotal : Std.Total r := ⟨total⟩
  have htrans : IsTrans α r := ⟨trans⟩
  refine List.Perm.eq_of_pairwise (fun a b ha hb => ?_) (List.pairwise_insertionSort r xs)
    (List.pairwise_insertionSort r ys) ?_
  · exact hapart a (hperm.subset ((List.mem_insertionSort r).mp ha)) b
      ((List.mem_insertionSort r).mp hb)
  · exact (List.perm_insertionSort r xs).trans (hperm.trans (List.perm_insertionSort r ys).symm)

/-- In a sorted list the first `n` elements are those behind fewer than `n` others. -/
theorem mem_take_iff_countP {α : Type} {r : α → α → Prop} [DecidableRel r]
    (hrefl : ∀ a, r a a) {xs : List α} (hxs : xs.Pairwise fun a b => r a b ∧ ¬ r b a) {a : α}
    (ha : a ∈ xs) (n : Nat) :
    a ∈ xs.take n ↔ xs.countP (fun b => decide (¬ r a b)) < n := by
  induction xs generalizing n with
  | nil => cases ha
  | cons x xs ih =>
      obtain ⟨hx, hxs⟩ := List.pairwise_cons.mp hxs
      cases n with
      | zero => simp
      | succ n =>
          rw [List.take_succ_cons, List.mem_cons]
          rcases List.mem_cons.mp ha with rfl | hmem
          · have hnone : (a :: xs).countP (fun b => decide (¬ r a b)) = 0 := by
              rw [List.countP_eq_zero]
              intro b hb
              rcases List.mem_cons.mp hb with rfl | hb
              · simp [hrefl]
              · simp [(hx b hb).1]
            rw [hnone]
            simp
          · have hbehind : ¬ r a x := (hx a hmem).2
            have hne : a ≠ x := by
              rintro rfl
              exact hbehind (hrefl a)
            rw [List.countP_cons_of_pos (by simpa using hbehind), Nat.add_lt_add_iff_right,
              ← ih hxs hmem]
            simp [hne]

/-- In an increasing list the first `n` elements are those above fewer than `n`. -/
theorem mem_take_iff_length_filter_lt {α κ : Type} [LinearOrder κ] {key : α → κ} {xs : List α}
    (hxs : xs.Pairwise fun a b => key a < key b) {a : α} (ha : a ∈ xs) (n : Nat) :
    a ∈ xs.take n ↔ (xs.filter fun b => decide (key b < key a)).length < n := by
  have hstrict : xs.Pairwise fun a b => key a ≤ key b ∧ ¬ key b ≤ key a :=
    hxs.imp fun hlt => ⟨hlt.le, hlt.not_ge⟩
  rw [mem_take_iff_countP (fun a => le_refl (key a)) hstrict ha, List.countP_eq_length_filter]
  simp only [not_le]

/-! ## Part of a list -/

section part

variable {α : Type} {full : List α}

/-- A stable sort keeps the order some of the entries have among all. -/
theorem insertionSort_sublist {r : α → α → Prop} [DecidableRel r] (total : ∀ a b, r a b ∨ r b a)
    (trans : ∀ a b c, r a b → r b c → r a c) {some all : List α} (hsub : some.Sublist all) :
    (some.insertionSort r).Sublist (all.insertionSort r) := by
  have htotal : Std.Total r := ⟨total⟩
  have htrans : IsTrans α r := ⟨trans⟩
  induction hsub with
  | slnil => exact List.Sublist.refl _
  | cons a _ ih => exact ih.trans (List.sublist_orderedInsert a _)
  | cons_cons a _ ih => exact ih.orderedInsert_sublist a (List.pairwise_insertionSort r _)

/-- As far as `n` entries reach, a part agrees with the list once it has its first `n`. -/
theorem take_eq_iff_subset {list : List α} (hfull : full.Nodup) (hsub : list.Sublist full)
    (n : Nat) : list.take n = full.take n ↔ ∀ a ∈ full.take n, a ∈ list := by
  constructor
  · intro h a ha
    rw [← h] at ha
    exact List.mem_of_mem_take ha
  · intro h
    have hsplit : list.Sublist (full.take n ++ full.drop n) := by rwa [List.take_append_drop]
    obtain ⟨front, back, rfl, hfront, hback⟩ := List.sublist_append_iff.mp hsplit
    have hsubset : full.take n ⊆ front := by
      intro a ha
      rcases List.mem_append.mp (h a ha) with hin | hin
      · exact hin
      · exact absurd (hback.subset hin) (List.disjoint_take_drop hfull (le_refl n) ha)
    have hlength : (full.take n).length ≤ front.length :=
      (List.subperm_of_subset (hfull.sublist (List.take_sublist n full)) hsubset).length_le
    have hfrontEq : front = full.take n := hfront.eq_of_length_le hlength
    by_cases hn : n ≤ full.length
    · have hfrontLength : front.length = n := by
        rw [hfrontEq, List.length_take]
        omega
      rw [List.take_append_of_le_length hfrontLength.ge, List.take_of_length_le hfrontLength.le,
        hfrontEq]
    · have hnil : back = [] := by
        rw [List.drop_of_length_le (by omega)] at hback
        exact List.sublist_nil.mp hback
      rw [hnil, List.append_nil, hfrontEq, List.take_take, Nat.min_self]

end part

end Collections
