import Feca.Collections.WindowSort

/-! # Raising one entry

A sort with a window puts two entries in an order that depends on them and on
whether they are in the window. If one entry is raised and the others are left
alone, nothing overtakes it: it may come into the window and push another out,
but what stands before it then has stood before it all along.
-/

namespace Collections

/-! ## The place of an entry -/

section place

variable {α : Type} {xs ys : List α} {x a : α}

/-- What precedes an entry is what is listed before it. -/
theorem precedes_iff_mem_front {front rest : List α} (hnodup : (front ++ a :: rest).Nodup) :
    Precedes (front ++ a :: rest) x a ↔ x ∈ front := by
  obtain ⟨-, hrest, hapart⟩ := List.nodup_append.mp hnodup
  have hfront : a ∉ front := fun h => hapart a h a List.mem_cons_self rfl
  have hlater : a ∉ rest := (List.nodup_cons.mp hrest).1
  constructor
  · intro h
    obtain ⟨first, second, hsplit, hfirst, hsecond⟩ := List.sublist_append_iff.mp h
    cases first with
    | nil =>
      rw [List.nil_append] at hsplit
      rw [← hsplit] at hsecond
      cases hsecond with
      | cons _ htail => exact absurd (htail.subset (by simp)) hlater
      | cons_cons _ htail => exact absurd (htail.subset (by simp)) hlater
    | cons y ys =>
      rw [List.cons_append, List.cons.injEq] at hsplit
      rw [hsplit.1]
      exact hfirst.subset List.mem_cons_self
  · intro h
    exact (List.singleton_sublist.mpr h).append (List.singleton_sublist.mpr List.mem_cons_self)

theorem mem_take_iff_length_lt {front rest : List α} (hnodup : (front ++ a :: rest).Nodup)
    (n : Nat) : a ∈ (front ++ a :: rest).take n ↔ front.length < n := by
  obtain ⟨-, -, hapart⟩ := List.nodup_append.mp hnodup
  have hfront : a ∉ front := fun h => hapart a h a List.mem_cons_self rfl
  rw [List.take_append, List.mem_append]
  constructor
  · rintro (h | h)
    · exact absurd (List.mem_of_mem_take h) hfront
    · by_contra hge
      rw [Nat.sub_eq_zero_of_le (Nat.le_of_not_lt hge), List.take_zero] at h
      cases h
  · intro hlt
    right
    obtain ⟨k, hk⟩ : ∃ k, n - front.length = k + 1 := ⟨n - front.length - 1, by omega⟩
    rw [hk, List.take_succ_cons]
    exact List.mem_cons_self

/-- What precedes one of the first entries is among them. -/
theorem Precedes.take (h : Precedes xs x a) (hnodup : xs.Nodup) {n : Nat} (ha : a ∈ xs.take n) :
    Precedes (xs.take n) x a := by
  obtain ⟨front, rest, rfl⟩ := List.append_of_mem (List.mem_of_mem_take ha)
  have hlt := (mem_take_iff_length_lt hnodup n).mp ha
  have hx := (precedes_iff_mem_front hnodup).mp h
  obtain ⟨k, hk⟩ : ∃ k, n - front.length = k + 1 := ⟨n - front.length - 1, by omega⟩
  rw [List.take_append, List.take_of_length_le hlt.le, hk, List.take_succ_cons]
  exact (List.singleton_sublist.mpr hx).append (List.singleton_sublist.mpr List.mem_cons_self)

/-- An entry that nothing has overtaken is among the first ones if it was. -/
theorem mem_take_of_not_overtaken (hxs : xs.Nodup) (hys : ys.Nodup) (ha : a ∈ ys)
    (h : ∀ x, Precedes ys x a → Precedes xs x a) {n : Nat} (htake : a ∈ xs.take n) :
    a ∈ ys.take n := by
  obtain ⟨front, rest, rfl⟩ := List.append_of_mem (List.mem_of_mem_take htake)
  obtain ⟨front', rest', rfl⟩ := List.append_of_mem ha
  have hsub : front' ⊆ front := by
    intro x hx
    exact (precedes_iff_mem_front hxs).mp (h x ((precedes_iff_mem_front hys).mpr hx))
  have hle : front'.length ≤ front.length :=
    (List.subperm_of_subset (List.nodup_append.mp hys).1 hsub).length_le
  rw [mem_take_iff_length_lt hys]
  rw [mem_take_iff_length_lt hxs] at htake
  omega

end place

/-! ## The order of two entries -/

section order

variable {α β : Type} (before ahead : α → α → Prop) [DecidableRel before] (window : Nat)

/-- The entries of the window first, by the second order; the others by the first. -/
def RankedBefore (xs : List α) (x y : α) : Prop :=
  (InWindow before window xs x ∧ ¬ InWindow before window xs y) ∨
    (InWindow before window xs x ∧ InWindow before window xs y ∧ ahead x y) ∨
      (¬ InWindow before window xs x ∧ ¬ InWindow before window xs y ∧ before x y)

/-- One entry of a list is raised in both orders, and nothing else is changed. -/
structure Raised (xs : List α) (a : α) (before before' ahead ahead' : α → α → Prop) : Prop where
  others : ∀ b ∈ xs, ∀ c ∈ xs, b ≠ a → c ≠ a → (before' b c ↔ before b c)
  up : ∀ c ∈ xs, before a c → before' a c
  down : ∀ c ∈ xs, before' c a → before c a
  ahead : ∀ c ∈ xs, c ≠ a → ahead' c a → ahead c a

variable {before ahead window} {before' ahead' : α → α → Prop} [DecidableRel before'] {xs : List α}
  {a c : α}

/-- A raised entry does not fall out of the window. -/
theorem Raised.inWindow (h : Raised xs a before before' ahead ahead')
    (hin : InWindow before window xs a) : InWindow before' window xs a := by
  unfold InWindow at hin ⊢
  refine lt_of_le_of_lt (List.countP_mono_left fun b hb hnot => ?_) hin
  simp only [decide_eq_true_eq] at hnot ⊢
  exact mt (h.up b hb) hnot

/-- Nothing else comes into the window. -/
theorem Raised.inWindow_other (h : Raised xs a before before' ahead ahead') (hmem : c ∈ xs)
    (hc : c ≠ a) (hin : InWindow before' window xs c) : InWindow before window xs c := by
  unfold InWindow at hin ⊢
  refine lt_of_le_of_lt (List.countP_mono_left fun b hb hnot => ?_) hin
  simp only [decide_eq_true_eq] at hnot ⊢
  intro hcb
  by_cases hba : b = a
  · rw [hba] at hnot hcb
    exact hnot (h.down c hmem hcb)
  · exact hnot ((h.others c hmem b hb hc hba).mp hcb)

/-- What is ranked before a raised entry has been so all along. -/
theorem Raised.rankedBefore (h : Raised xs a before before' ahead ahead') (hmem : c ∈ xs)
    (hc : c ≠ a) (hrank : RankedBefore before' ahead' window xs c a) :
    RankedBefore before ahead window xs c a := by
  rcases hrank with ⟨hcin, haout⟩ | ⟨hcin, hain, hahead⟩ | ⟨hcout, haout, hbefore⟩
  · exact .inl ⟨h.inWindow_other hmem hc hcin, mt h.inWindow haout⟩
  · have hcin' := h.inWindow_other hmem hc hcin
    by_cases hain' : InWindow before window xs a
    · exact .inr (.inl ⟨hcin', hain', h.ahead c hmem hc hahead⟩)
    · exact .inl ⟨hcin', hain'⟩
  · have haout' := mt h.inWindow haout
    by_cases hcin' : InWindow before window xs c
    · exact .inl ⟨hcin', haout'⟩
    · exact .inr (.inr ⟨hcin', haout', h.down c hmem hbefore⟩)

end order

/-! ## The sort -/

/-- What a sort with a window is made of, where it leaves no two entries level. -/
structure WindowSort (α β : Type) where
  before : α → α → Prop
  ahead : β → β → Prop
  [decidableBefore : DecidableRel before]
  [decidableAhead : DecidableRel ahead]
  rescore : α → β
  plain : α → β
  origin : β → α
  origin_rescore : ∀ a, origin (rescore a) = a
  origin_plain : ∀ a, origin (plain a) = a
  total : ∀ a b, before a b ∨ before b a
  trans : ∀ a b c, before a b → before b c → before a c
  ahead_total : ∀ x y, ahead x y ∨ ahead y x
  ahead_trans : ∀ x y z, ahead x y → ahead y z → ahead x z

attribute [instance] WindowSort.decidableBefore WindowSort.decidableAhead

namespace WindowSort

variable {α β : Type} (w : WindowSort α β) {window : Nat} {xs : List α} {x y a : α}

/-- The entries in their final order. -/
def sorted (window : Nat) (xs : List α) : List α :=
  (sortWindow w.before w.ahead w.rescore w.plain window xs).map w.origin

/-- No two entries are level, in either order. -/
structure Apart (xs : List α) : Prop where
  nodup : xs.Nodup
  before : ∀ a ∈ xs, ∀ b ∈ xs, w.before a b → w.before b a → a = b
  ahead : ∀ a ∈ xs, ∀ b ∈ xs, w.ahead (w.rescore a) (w.rescore b) →
    w.ahead (w.rescore b) (w.rescore a) → a = b

def Ranks (window : Nat) (xs : List α) (x y : α) : Prop :=
  RankedBefore w.before (fun a b => w.ahead (w.rescore a) (w.rescore b)) window xs x y

variable {w}

theorem sorted_perm : (w.sorted window xs).Perm xs :=
  sortWindow_perm w.origin_rescore w.origin_plain xs

theorem Apart.nodup_sorted (h : w.Apart xs) : (w.sorted window xs).Nodup :=
  sorted_perm.nodup_iff.mpr h.nodup

theorem Apart.pairwise_window (h : w.Apart xs) : (w.sorted window xs).Pairwise fun x y =>
    InWindow w.before window xs y → InWindow w.before window xs x :=
  List.pairwise_map.mpr (sortWindow_window w.total w.trans h.nodup h.before w.origin_rescore
    w.origin_plain)

theorem Apart.pairwise_ahead (h : w.Apart xs) : (w.sorted window xs).Pairwise fun x y =>
    InWindow w.before window xs x → InWindow w.before window xs y →
      w.ahead (w.rescore x) (w.rescore y) :=
  List.pairwise_map.mpr (sortWindow_ahead w.total w.trans h.nodup h.before w.origin_rescore
    w.origin_plain w.ahead_total w.ahead_trans)

/-- Outside the window the first order decides. -/
theorem Apart.pairwise_outside (h : w.Apart xs) :
    (w.sorted window xs).Pairwise fun x y => ¬ InWindow w.before window xs x →
      ¬ InWindow w.before window xs y → w.before x y := by
  have hback : ((xs.insertionSort w.before).drop window).map (w.origin ∘ w.plain) =
      (xs.insertionSort w.before).drop window :=
    (List.map_congr_left fun a _ => w.origin_plain a).trans (List.map_id _)
  have htop : ∀ x ∈ ((((xs.insertionSort w.before).take window).map w.rescore).insertionSort
      w.ahead).map w.origin, InWindow w.before window xs x := by
    intro x hx
    obtain ⟨scored, hscored, rfl⟩ := List.mem_map.mp hx
    exact inWindow_of_mem_take w.total w.trans h.nodup h.before
      (mem_top w.origin_rescore hscored)
  unfold sorted sortWindow
  rw [List.map_append, List.map_map, hback]
  refine List.pairwise_append.mpr ⟨?_, ?_, ?_⟩
  · refine List.pairwise_of_forall_mem_list fun x hx y _ hout _ => ?_
    exact absurd (htop x hx) hout
  · refine ((pairwise_sorted w.total w.trans h.nodup h.before).sublist
      (List.drop_sublist _ _)).imp fun hxy _ _ => hxy.1
  · intro x hx y _ hout _
    exact absurd (htop x hx) hout

theorem Apart.ranks_of_precedes (h : w.Apart xs) (hxy : Precedes (w.sorted window xs) x y) :
    w.Ranks window xs x y := by
  have hwindow := pairwise_iff_precedes.mp h.pairwise_window x y hxy
  have hahead := pairwise_iff_precedes.mp h.pairwise_ahead x y hxy
  have houtside := pairwise_iff_precedes.mp h.pairwise_outside x y hxy
  by_cases hx : InWindow w.before window xs x
  · by_cases hy : InWindow w.before window xs y
    · exact .inr (.inl ⟨hx, hy, hahead hx hy⟩)
    · exact .inl ⟨hx, hy⟩
  · have hy := mt hwindow hx
    exact .inr (.inr ⟨hx, hy, houtside hx hy⟩)

/-- Two entries are listed as they are ranked. -/
theorem Apart.precedes_iff (h : w.Apart xs) (hx : x ∈ xs) (hy : y ∈ xs) (hne : x ≠ y) :
    Precedes (w.sorted window xs) x y ↔ w.Ranks window xs x y := by
  refine ⟨h.ranks_of_precedes, fun hxy => ?_⟩
  cases precedes_or (sorted_perm.mem_iff.mpr hx) (sorted_perm.mem_iff.mpr hy) hne with
  | inl hprecedes => exact hprecedes
  | inr hprecedes =>
    have hyx := h.ranks_of_precedes hprecedes
    exfalso
    rcases hxy with ⟨hxin, hyout⟩ | ⟨hxin, hyin, hahead⟩ | ⟨hxout, hyout, hbefore⟩
    · rcases hyx with ⟨hyin, -⟩ | ⟨hyin, -⟩ | ⟨-, hxout, -⟩
      · exact hyout hyin
      · exact hyout hyin
      · exact hxout hxin
    · rcases hyx with ⟨-, hxout⟩ | ⟨-, -, hahead'⟩ | ⟨hyout, -⟩
      · exact hxout hxin
      · exact hne (h.ahead x hx y hy hahead hahead')
      · exact hyout hyin
    · rcases hyx with ⟨hyin, -⟩ | ⟨hyin, -⟩ | ⟨-, -, hbefore'⟩
      · exact hyout hyin
      · exact hyout hyin
      · exact hne (h.before x hx y hy hbefore hbefore')

/-- Raising an entry lets nothing overtake it, and does not drop it from the first ones. -/
theorem not_overtaken {w' : WindowSort α β} (h : w.Apart xs) (h' : w'.Apart xs) (ha : a ∈ xs)
    (hraised : Raised xs a w.before w'.before (fun a b => w.ahead (w.rescore a) (w.rescore b))
      fun a b => w'.ahead (w'.rescore a) (w'.rescore b)) :
    (∀ c, Precedes (w'.sorted window xs) c a → Precedes (w.sorted window xs) c a) ∧
      ∀ n, a ∈ (w.sorted window xs).take n → a ∈ (w'.sorted window xs).take n := by
  have hkept : ∀ c, Precedes (w'.sorted window xs) c a → Precedes (w.sorted window xs) c a := by
    intro c hca
    have hc : c ∈ xs := sorted_perm.subset (hca.subset List.mem_cons_self)
    have hne : c ≠ a := by
      rintro rfl
      have htwice := h'.nodup_sorted.sublist hca
      simp at htwice
    exact (h.precedes_iff hc ha hne).mpr (hraised.rankedBefore hc hne (h'.ranks_of_precedes hca))
  refine ⟨hkept, fun n htake => ?_⟩
  exact mem_take_of_not_overtaken h.nodup_sorted h'.nodup_sorted (sorted_perm.mem_iff.mpr ha) hkept
    htake

end WindowSort

end Collections
