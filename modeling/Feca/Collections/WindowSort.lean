import Feca.Collections.Selection

/-! # Sorting a window once more

A list is sorted by one order, and its first entries once more by another, which
may look at what the entries have become. Which entries are the first ones
depends on the first order alone.
-/

namespace Collections

/-! ## One entry before another -/

section precedes

variable {β : Type} {xs : List β} {x y : β}

/-- `x` stands somewhere before `y`. -/
def Precedes (xs : List β) (x y : β) : Prop := [x, y].Sublist xs

theorem pairwise_iff_precedes {r : β → β → Prop} :
    xs.Pairwise r ↔ ∀ x y, Precedes xs x y → r x y :=
  List.pairwise_iff_forall_sublist

theorem Precedes.two_le_length (h : Precedes xs x y) : 2 ≤ xs.length := h.length_le

theorem precedes_or (hx : x ∈ xs) (hy : y ∈ xs) (hne : x ≠ y) :
    Precedes xs x y ∨ Precedes xs y x := by
  induction xs with
  | nil => cases hx
  | cons z zs ih =>
    unfold Precedes
    cases List.mem_cons.mp hx with
    | inl hxz =>
      have hyzs : y ∈ zs := List.mem_of_ne_of_mem (fun h => hne (hxz.trans h.symm)) hy
      rw [hxz]
      exact .inl ((List.singleton_sublist.mpr hyzs).cons_cons z)
    | inr hxzs =>
      cases List.mem_cons.mp hy with
      | inl hyz =>
        rw [hyz]
        exact .inr ((List.singleton_sublist.mpr hxzs).cons_cons z)
      | inr hyzs => exact (ih hxzs hyzs).imp (fun h => h.cons z) (fun h => h.cons z)

end precedes

section window

variable {α β : Type} (before : α → α → Prop) [DecidableRel before]
  (ahead : β → β → Prop) [DecidableRel ahead] (rescore plain : α → β) (window : Nat)

/-- The first entries, rescored and sorted by it, and the others behind them. -/
def sortWindow (xs : List α) : List β :=
  (((xs.insertionSort before).take window).map rescore).insertionSort ahead ++
    ((xs.insertionSort before).drop window).map plain

/-- Fewer than `window` entries come before it. -/
def InWindow (xs : List α) (a : α) : Prop :=
  xs.countP (fun b => decide (¬ before a b)) < window

variable {before ahead rescore plain window}

theorem inWindow_iff_of_perm {xs ys : List α} (h : xs.Perm ys) (a : α) :
    InWindow before window xs a ↔ InWindow before window ys a := by
  unfold InWindow
  rw [h.countP_eq]

/-- What the sorted list is like does not depend on the order of the input. -/
theorem sortWindow_eq_of_perm (total : ∀ a b, before a b ∨ before b a)
    (trans : ∀ a b c, before a b → before b c → before a c) {xs ys : List α} (hperm : xs.Perm ys)
    (hapart : ∀ a ∈ ys, ∀ b ∈ ys, before a b → before b a → a = b) :
    sortWindow before ahead rescore plain window xs =
      sortWindow before ahead rescore plain window ys := by
  unfold sortWindow
  rw [insertionSort_eq_of_perm total trans hperm hapart]

section origin

variable {origin : β → α} (hrescore : ∀ a, origin (rescore a) = a)
  (hplain : ∀ a, origin (plain a) = a)

include hrescore hplain

/-- No entry is lost, and none added. -/
theorem sortWindow_perm (xs : List α) :
    ((sortWindow before ahead rescore plain window xs).map origin).Perm xs := by
  have hback : ∀ (f : α → β), (∀ a, origin (f a) = a) → ∀ ys : List α,
      (ys.map f).map origin = ys := by
    intro f hf ys
    rw [List.map_map]
    exact (List.map_congr_left fun a _ => hf a).trans (List.map_id ys)
  have htop := (List.perm_insertionSort ahead
    (((xs.insertionSort before).take window).map rescore)).map origin
  rw [hback rescore hrescore] at htop
  unfold sortWindow
  rw [List.map_append, hback plain hplain]
  refine (htop.append_right _).trans ?_
  rw [List.take_append_drop]
  exact List.perm_insertionSort before xs

omit hplain in
theorem mem_top {xs : List α} {x : β} (hx : x ∈ (xs.map rescore).insertionSort ahead) :
    origin x ∈ xs := by
  obtain ⟨a, ha, rfl⟩ := List.mem_map.mp ((List.mem_insertionSort ahead).mp hx)
  rw [hrescore]
  exact ha

omit hrescore in
theorem mem_rest {xs : List α} {x : β} (hx : x ∈ xs.map plain) : origin x ∈ xs := by
  obtain ⟨a, ha, rfl⟩ := List.mem_map.mp hx
  rw [hplain]
  exact ha

end origin

section strict

variable (total : ∀ a b, before a b ∨ before b a)
  (trans : ∀ a b c, before a b → before b c → before a c) {xs : List α} (hnodup : xs.Nodup)
  (hapart : ∀ a ∈ xs, ∀ b ∈ xs, before a b → before b a → a = b)

include total trans hnodup hapart

theorem pairwise_sorted :
    (xs.insertionSort before).Pairwise fun a b => before a b ∧ ¬ before b a := by
  have htotal : Std.Total before := ⟨total⟩
  have htrans : IsTrans α before := ⟨trans⟩
  have hne : (xs.insertionSort before).Nodup :=
    (List.perm_insertionSort before xs).nodup_iff.mpr hnodup
  refine ((List.pairwise_insertionSort before xs).and hne).imp_of_mem ?_
  intro a b ha hb hab
  refine ⟨hab.1, fun hba => hab.2 ?_⟩
  exact hapart a ((List.mem_insertionSort before).mp ha) b ((List.mem_insertionSort before).mp hb)
    hab.1 hba

theorem mem_take_sorted_iff {a : α} (ha : a ∈ xs) :
    a ∈ (xs.insertionSort before).take window ↔ InWindow before window xs a := by
  rw [mem_take_iff_countP (fun a => (total a a).elim id id)
    (pairwise_sorted total trans hnodup hapart) ((List.mem_insertionSort before).mpr ha)]
  exact inWindow_iff_of_perm (List.perm_insertionSort before xs) a

theorem inWindow_of_mem_take {a : α} (ha : a ∈ (xs.insertionSort before).take window) :
    InWindow before window xs a :=
  (mem_take_sorted_iff total trans hnodup hapart
    ((List.mem_insertionSort before).mp (List.mem_of_mem_take ha))).mp ha

theorem not_inWindow_of_mem_drop {a : α} (ha : a ∈ (xs.insertionSort before).drop window) :
    ¬ InWindow before window xs a := by
  have hsorted : (xs.insertionSort before).Nodup :=
    (List.perm_insertionSort before xs).nodup_iff.mpr hnodup
  intro hin
  have htake := (mem_take_sorted_iff total trans hnodup hapart
    ((List.mem_insertionSort before).mp (List.mem_of_mem_drop ha))).mpr hin
  rw [← List.take_append_drop window (xs.insertionSort before)] at hsorted
  exact (List.nodup_append.mp hsorted).2.2 a htake a ha rfl

variable {origin : β → α} (hrescore : ∀ a, origin (rescore a) = a)
  (hplain : ∀ a, origin (plain a) = a)

include hrescore hplain

/-- Nothing stands before an entry of the window but entries of the window. -/
theorem sortWindow_window : (sortWindow before ahead rescore plain window xs).Pairwise fun x y =>
    InWindow before window xs (origin y) → InWindow before window xs (origin x) := by
  unfold sortWindow
  refine List.pairwise_append.mpr ⟨?_, ?_, ?_⟩
  · refine List.pairwise_of_forall_mem_list fun x hx y _ _ => ?_
    exact inWindow_of_mem_take total trans hnodup hapart (mem_top hrescore hx)
  · refine List.pairwise_of_forall_mem_list fun x _ y hy hin => ?_
    exact absurd hin (not_inWindow_of_mem_drop total trans hnodup hapart (mem_rest hplain hy))
  · intro x hx y _ _
    exact inWindow_of_mem_take total trans hnodup hapart (mem_top hrescore hx)

/-- In the window the second order decides. -/
theorem sortWindow_ahead (ahead_total : ∀ x y, ahead x y ∨ ahead y x)
    (ahead_trans : ∀ x y z, ahead x y → ahead y z → ahead x z) :
    (sortWindow before ahead rescore plain window xs).Pairwise fun x y =>
      InWindow before window xs (origin x) → InWindow before window xs (origin y) →
        ahead (rescore (origin x)) (rescore (origin y)) := by
  have htotal : Std.Total ahead := ⟨ahead_total⟩
  have htrans : IsTrans β ahead := ⟨ahead_trans⟩
  have hrescored : ∀ x ∈ (((xs.insertionSort before).take window).map rescore).insertionSort ahead,
      rescore (origin x) = x := by
    intro x hx
    obtain ⟨a, _, rfl⟩ := List.mem_map.mp ((List.mem_insertionSort ahead).mp hx)
    rw [hrescore]
  unfold sortWindow
  refine List.pairwise_append.mpr ⟨?_, ?_, ?_⟩
  · refine (List.pairwise_insertionSort ahead _).imp_of_mem ?_
    intro x y hx hy hxy _ _
    rw [hrescored x hx, hrescored y hy]
    exact hxy
  · refine List.pairwise_of_forall_mem_list fun x hx y _ hin _ => ?_
    exact absurd hin (not_inWindow_of_mem_drop total trans hnodup hapart (mem_rest hplain hx))
  · intro x _ y hy _ hin
    exact absurd hin (not_inWindow_of_mem_drop total trans hnodup hapart (mem_rest hplain hy))

end strict

end window

end Collections
