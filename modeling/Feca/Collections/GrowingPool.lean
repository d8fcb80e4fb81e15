import Feca.Collections.Raise

/-! # Sorting part of the entries

Sorted with a window, some of the entries need not keep the order they have among
all: where one of the window is missing another moves up, and the second order may
take it to the front. The first entries are the same if and only if none of them is
missing and whatever moves up stays behind them.
-/

namespace Collections

variable {α β : Type}

/-! ## Two sorts -/

section twice

variable (r r₂ : α → α → Prop) [DecidableRel r] [DecidableRel r₂] (window : Nat)

/-- The first entries, sorted by the second order, and the others behind them. -/
def sortTwice (xs : List α) : List α :=
  ((xs.insertionSort r).take window).insertionSort r₂ ++ (xs.insertionSort r).drop window

variable {r r₂ window}

theorem sortTwice_perm (xs : List α) : (sortTwice r r₂ window xs).Perm xs := by
  refine ((List.perm_insertionSort r₂ _).append_right _).trans ?_
  rw [List.take_append_drop]
  exact List.perm_insertionSort r xs

theorem sortTwice_of_few {xs : List α} (h : xs.length ≤ 1) : sortTwice r r₂ window xs = xs := by
  cases xs with
  | nil => exact (sortTwice_perm []).eq_nil
  | cons a rest =>
    have hnil : rest = [] := List.eq_nil_of_length_eq_zero (by simpa using h)
    subst hnil
    exact List.perm_singleton.mp (sortTwice_perm [a])

/-- Sorting what the entries are mapped to. -/
theorem map_sortTwice {s s₂ : β → β → Prop} [DecidableRel s] [DecidableRel s₂] (f : α → β)
    (hr : ∀ a b, r a b ↔ s (f a) (f b)) (hr₂ : ∀ a b, r₂ a b ↔ s₂ (f a) (f b)) (xs : List α) :
    (sortTwice r r₂ window xs).map f = sortTwice s s₂ window (xs.map f) := by
  have hfirst := List.map_insertionSort r s f xs fun a _ b _ => hr a b
  have hsecond := List.map_insertionSort r₂ s₂ f ((xs.insertionSort r).take window)
    fun a _ b _ => hr₂ a b
  rw [sortTwice, sortTwice, List.map_append, hsecond, List.map_take, List.map_drop, hfirst]

/-- Without what the entries have become, a sort with a window is two sorts. -/
theorem map_sortWindow {ahead : β → β → Prop} [DecidableRel ahead] {rescore plain : α → β}
    {origin : β → α} (hrescore : ∀ a, origin (rescore a) = a) (hplain : ∀ a, origin (plain a) = a)
    (xs : List α) : (sortWindow r ahead rescore plain window xs).map origin =
      sortTwice r (fun a b => ahead (rescore a) (rescore b)) window xs := by
  have hback : ∀ (f : α → β), (∀ a, origin (f a) = a) → ∀ ys : List α,
      (ys.map f).map origin = ys := by
    intro f hf ys
    rw [List.map_map]
    exact (List.map_congr_left fun a _ => hf a).trans (List.map_id ys)
  have htop := List.map_insertionSort (fun a b => ahead (rescore a) (rescore b)) ahead
    rescore ((xs.insertionSort r).take window) fun _ _ _ _ => Iff.rfl
  unfold sortWindow sortTwice
  rw [List.map_append, ← htop, hback rescore hrescore, hback plain hplain]

theorem take_sortTwice_of_le {xs : List α} {m : Nat}
    (h : m ≤ ((xs.insertionSort r).take window).length) : (sortTwice r r₂ window xs).take m =
      (((xs.insertionSort r).take window).insertionSort r₂).take m := by
  rw [sortTwice, List.take_append_of_le_length (by rwa [List.length_insertionSort])]

end twice

/-! ## The first entries of a part -/

section part

variable {r r₂ : α → α → Prop} [DecidableRel r] [DecidableRel r₂] {window m : Nat}
  {some all : List α}

/-- The window of some entries: what they have of the window of all, in that order, and
what moves up behind it. -/
theorem window_of_sublist (hsub : some.Sublist all) (hnodup : all.Nodup) (n : Nat) :
    ∃ front extra, some.take n = front ++ extra ∧ front.Sublist (all.take n) ∧
      (∀ a ∈ extra, a ∉ all.take n) ∧ ∀ a ∈ all.take n, a ∈ some → a ∈ front := by
  rw [← List.take_append_drop n all] at hsub
  obtain ⟨front, back, rfl, hfront, hback⟩ := List.sublist_append_iff.mp hsub
  have happart : ∀ a ∈ back, a ∉ all.take n := fun a ha hin =>
    List.disjoint_take_drop hnodup (le_refl n) hin (hback.subset ha)
  have hshort : front.length ≤ n := hfront.length_le.trans (List.length_take_le _ _)
  refine ⟨front, back.take (n - front.length), ?_, hfront, ?_, ?_⟩
  · rw [List.take_append, List.take_of_length_le hshort]
  · intro a ha
    exact happart a (List.mem_of_mem_take ha)
  · intro a hin hmem
    exact (List.mem_append.mp hmem).resolve_right fun hb => happart a hb hin

/-- Entries that are put behind the first `m` do not come among them. -/
theorem take_insertionSort_append (total : ∀ a b, r a b ∨ r b a)
    (trans : ∀ a b c, r a b → r b c → r a c) {front extra : List α}
    (hnodup : (front ++ extra).Nodup) (hm : m ≤ front.length)
    (hbehind : ∀ a ∈ (front.insertionSort r).take m, ∀ b ∈ extra, r a b) :
    ((front ++ extra).insertionSort r).take m = (front.insertionSort r).take m := by
  have hsorted : ((front ++ extra).insertionSort r).Nodup :=
    (List.perm_insertionSort r _).nodup_iff.mpr hnodup
  have hsub := insertionSort_sublist total trans (List.sublist_append_left front extra)
  refine ((take_eq_iff_subset hsorted hsub m).mpr fun b hb => ?_).symm
  by_contra hnot
  have hextra : b ∈ extra := by
    have hmem := (List.mem_insertionSort r).mp (List.mem_of_mem_take hb)
    exact (List.mem_append.mp hmem).resolve_left fun h => hnot ((List.mem_insertionSort r).mpr h)
  -- All of the first `m` come before `b`, so `b` is not one of them.
  have hfirst : (front.insertionSort r).take m ⊆ ((front ++ extra).insertionSort r).take m := by
    intro a ha
    have hfront : a ∈ front := (List.mem_insertionSort r).mp (List.mem_of_mem_take ha)
    have hpair : [a, b].Sublist (front ++ extra) :=
      (List.singleton_sublist.mpr hfront).append (List.singleton_sublist.mpr hextra)
    have htotal : Std.Total r := ⟨total⟩
    have htrans : IsTrans α r := ⟨trans⟩
    have hprecedes : Precedes ((front ++ extra).insertionSort r) a b :=
      List.pair_sublist_insertionSort (hbehind a ha b hextra) hpair
    exact (hprecedes.take hsorted hb).subset List.mem_cons_self
  have hfrontNodup : ((front.insertionSort r).take m).Nodup :=
    ((List.perm_insertionSort r front).nodup_iff.mpr (List.nodup_append.mp hnodup).1).sublist
      (List.take_sublist _ _)
  have hcons : (b :: (front.insertionSort r).take m).Nodup :=
    List.nodup_cons.mpr ⟨fun h => hnot (List.mem_of_mem_take h), hfrontNodup⟩
  have hle := (List.subperm_of_subset hcons (List.cons_subset.mpr ⟨hb, hfirst⟩)).length_le
  rw [List.length_cons, List.length_take, List.length_take, List.length_insertionSort] at hle
  omega

/-- An entry that is not among the first ones comes behind them. -/
theorem rel_of_notMem_take_insertionSort (total : ∀ a b, r a b ∨ r b a)
    (trans : ∀ a b c, r a b → r b c → r a c) {xs : List α} {a b : α}
    (ha : a ∈ (xs.insertionSort r).take m) (hb : b ∈ xs)
    (hlater : b ∉ (xs.insertionSort r).take m) : r a b := by
  have htotal : Std.Total r := ⟨total⟩
  have htrans : IsTrans α r := ⟨trans⟩
  have hsorted := List.pairwise_insertionSort r xs
  have hmem := (List.mem_insertionSort r).mpr hb
  rw [← List.take_append_drop m (xs.insertionSort r)] at hsorted hmem
  exact (List.pairwise_append.mp hsorted).2.2 a ha b ((List.mem_append.mp hmem).resolve_left hlater)

section agree

variable (total : ∀ a b, r a b ∨ r b a) (trans : ∀ a b c, r a b → r b c → r a c)
  (hsub : some.Sublist all) (hnodup : all.Nodup)

include total trans hsub hnodup

/-- Within the window: what moves up must stay behind. -/
theorem take_sortTwice_of_within (total₂ : ∀ a b, r₂ a b ∨ r₂ b a)
    (trans₂ : ∀ a b c, r₂ a b → r₂ b c → r₂ a c)
    (hm : m ≤ ((all.insertionSort r).take window).length)
    (hreached : ∀ a ∈ (sortTwice r r₂ window all).take m, a ∈ some)
    (hbehind : ∀ b ∈ (some.insertionSort r).take window, b ∉ (all.insertionSort r).take window →
      ∀ a ∈ (sortTwice r r₂ window all).take m, r₂ a b) :
    (sortTwice r r₂ window some).take m = (sortTwice r r₂ window all).take m := by
  have hall : (all.insertionSort r).Nodup := (List.perm_insertionSort r all).nodup_iff.mpr hnodup
  have hsorted := insertionSort_sublist total trans hsub
  obtain ⟨front, extra, hsplit, hfront, hextra, hmem⟩ := window_of_sublist hsorted hall window
  rw [take_sortTwice_of_le hm] at hreached hbehind ⊢
  have hwindow := insertionSort_sublist total₂ trans₂ hfront
  have hwindowNodup : (((all.insertionSort r).take window).insertionSort r₂).Nodup :=
    (List.perm_insertionSort r₂ _).nodup_iff.mpr (hall.sublist (List.take_sublist _ _))
  -- The first `m` of all are in the window of the part, in the same order.
  have hkept : (front.insertionSort r₂).take m =
      (((all.insertionSort r).take window).insertionSort r₂).take m := by
    refine (take_eq_iff_subset hwindowNodup hwindow m).mpr fun a ha => ?_
    have hin := (List.mem_insertionSort r₂).mp (List.mem_of_mem_take ha)
    have hpart := (List.mem_insertionSort r).mpr (hreached a ha)
    exact (List.mem_insertionSort r₂).mpr (hmem a hin hpart)
  have hlength : m ≤ front.length := by
    have hcount := congrArg List.length hkept
    rw [List.length_take, List.length_take, List.length_insertionSort, List.length_insertionSort]
      at hcount
    omega
  have hpartNodup : (front ++ extra).Nodup := by
    rw [← hsplit]
    exact (hall.sublist hsorted).sublist (List.take_sublist _ _)
  rw [take_sortTwice_of_le (by rw [hsplit, List.length_append]; omega), hsplit, ← hkept]
  refine take_insertionSort_append total₂ trans₂ hpartNodup hlength fun a ha b hb => ?_
  rw [hkept] at ha
  refine hbehind b ?_ (hextra b hb) a ha
  rw [hsplit]
  exact List.mem_append_right _ hb

/-- Beyond the window: no entry of it may be missing. -/
theorem take_sortTwice_of_beyond (hm : ((all.insertionSort r).take window).length ≤ m)
    (hreached : ∀ a ∈ (sortTwice r r₂ window all).take m, a ∈ some) :
    (some.insertionSort r).take window = (all.insertionSort r).take window ∧
      (sortTwice r r₂ window some).take m = (sortTwice r r₂ window all).take m := by
  have hall : (all.insertionSort r).Nodup := (List.perm_insertionSort r all).nodup_iff.mpr hnodup
  have hsorted := insertionSort_sublist total trans hsub
  set rest := m - ((all.insertionSort r).take window).length
  have htake : (sortTwice r r₂ window all).take m =
      ((all.insertionSort r).take window).insertionSort r₂ ++
        ((all.insertionSort r).drop window).take rest := by
    rw [sortTwice, List.take_append, List.length_insertionSort,
      List.take_of_length_le (by rwa [List.length_insertionSort])]
  rw [htake] at hreached
  have hall_of_window : ∀ a ∈ (all.insertionSort r).take (window + rest),
      a ∈ some.insertionSort r := by
    intro a ha
    rw [List.take_add] at ha
    refine (List.mem_insertionSort r).mpr (hreached a ?_)
    rcases List.mem_append.mp ha with hin | hin
    · exact List.mem_append_left _ ((List.mem_insertionSort r₂).mpr hin)
    · exact List.mem_append_right _ hin
  have hboth := (take_eq_iff_subset hall hsorted _).mpr hall_of_window
  have hwindow : (some.insertionSort r).take window = (all.insertionSort r).take window := by
    have hshorter := congrArg (List.take window) hboth
    rwa [List.take_take, List.take_take, Nat.min_eq_left (Nat.le_add_right _ _)] at hshorter
  have hrest : ((some.insertionSort r).drop window).take rest =
      ((all.insertionSort r).drop window).take rest := by
    have hbehind := congrArg (List.drop window) hboth
    rwa [List.drop_take, List.drop_take, Nat.add_sub_cancel_left] at hbehind
  refine ⟨hwindow, ?_⟩
  rw [htake, sortTwice, hwindow, List.take_append, List.length_insertionSort, hrest,
    List.take_of_length_le (by rwa [List.length_insertionSort])]

/-- Within the window: the first entries of all are in the window of the part, too, so that
is long enough for them. -/
theorem le_length_window_of_reached (hm : m ≤ ((all.insertionSort r).take window).length)
    (hreached : ∀ a ∈ (((all.insertionSort r).take window).insertionSort r₂).take m, a ∈ some) :
    m ≤ ((some.insertionSort r).take window).length := by
  have hall : (all.insertionSort r).Nodup := (List.perm_insertionSort r all).nodup_iff.mpr hnodup
  obtain ⟨front, extra, hsplit, -, -, hmem⟩ :=
    window_of_sublist (insertionSort_sublist total trans hsub) hall window
  have hwindow : (((all.insertionSort r).take window).insertionSort r₂).take m ⊆
      (some.insertionSort r).take window := by
    intro c hc
    have hin := (List.mem_insertionSort r₂).mp (List.mem_of_mem_take hc)
    rw [hsplit]
    exact List.mem_append_left _ (hmem c hin ((List.mem_insertionSort r).mpr (hreached c hc)))
  have hfirst : ((((all.insertionSort r).take window).insertionSort r₂).take m).Nodup :=
    ((List.perm_insertionSort r₂ _).nodup_iff.mpr (hall.sublist (List.take_sublist _ _))).sublist
      (List.take_sublist _ _)
  have hle := (List.subperm_of_subset hfirst hwindow).length_le
  rw [List.length_take, List.length_insertionSort] at hle
  omega

/-- The first entries of some are those of all if and only if none of these is missing,
and none overtaken by what moves into the window. -/
theorem take_sortTwice_iff (total₂ : ∀ a b, r₂ a b ∨ r₂ b a)
    (trans₂ : ∀ a b c, r₂ a b → r₂ b c → r₂ a c) :
    (sortTwice r r₂ window some).take m = (sortTwice r r₂ window all).take m ↔
      (∀ a ∈ (sortTwice r r₂ window all).take m, a ∈ some) ∧
        ∀ b ∈ (some.insertionSort r).take window, b ∉ (all.insertionSort r).take window →
          ∀ a ∈ (sortTwice r r₂ window all).take m, r₂ a b := by
  constructor
  · intro heq
    have hreached : ∀ a ∈ (sortTwice r r₂ window all).take m, a ∈ some := by
      intro a ha
      rw [← heq] at ha
      exact (sortTwice_perm some).subset (List.mem_of_mem_take ha)
    refine ⟨hreached, fun b hb hout a ha => ?_⟩
    have hm : m ≤ ((all.insertionSort r).take window).length := by
      by_contra hlong
      have hsame := take_sortTwice_of_beyond total trans hsub hnodup (Nat.le_of_not_le hlong)
        hreached
      rw [hsame.1] at hb
      exact hout hb
    rw [take_sortTwice_of_le hm] at ha hreached heq
    have hlength := le_length_window_of_reached total trans hsub hnodup hm hreached
    rw [take_sortTwice_of_le hlength] at heq
    rw [← heq] at ha
    refine rel_of_notMem_take_insertionSort total₂ trans₂ ha hb fun hfirst => hout ?_
    rw [heq] at hfirst
    exact (List.mem_insertionSort r₂).mp (List.mem_of_mem_take hfirst)
  · rintro ⟨hreached, hbehind⟩
    rcases le_total m ((all.insertionSort r).take window).length with hm | hm
    · exact take_sortTwice_of_within total trans hsub hnodup total₂ trans₂ hm hreached hbehind
    · exact (take_sortTwice_of_beyond total trans hsub hnodup hm hreached).2

end agree

end part

end Collections
