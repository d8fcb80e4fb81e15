import Feca.Collections.Selection
import Mathlib.Data.List.Pairwise

/-! # Comparators

A comparator answers with a sign, as those of a sort do: its values may be added
one behind the other, for the ties of the first to be broken by the second. Lists
of the same keys have the same sorted keys, whatever the rows behind them.
-/

namespace Collections

variable {α κ : Type}

/-- Swapping what is compared swaps the sign. -/
structure Compares (compare : α → α → Int) : Prop where
  swap : ∀ a b, compare a b < 0 ↔ 0 < compare b a
  trans : ∀ a b c, compare a b ≤ 0 → compare b c ≤ 0 → compare a c ≤ 0

namespace Compares

variable {compare first second : α → α → Int}

theorem total (h : Compares compare) (a b : α) : compare a b ≤ 0 ∨ compare b a ≤ 0 := by
  have hswap := h.swap b a
  omega

theorem eq_zero_comm (h : Compares compare) {a b : α} (htie : compare a b = 0) :
    compare b a = 0 := by
  have hab := h.swap a b
  have hba := h.swap b a
  omega

/-- Both ways at most means a tie. -/
theorem eq_zero (h : Compares compare) {a b : α} (hab : compare a b ≤ 0) (hba : compare b a ≤ 0) :
    compare a b = 0 := by
  have hswap := h.swap a b
  omega

theorem lt_of_lt_of_le (h : Compares compare) {a b c : α} (hab : compare a b < 0)
    (hbc : compare b c ≤ 0) : compare a c < 0 := by
  have hle := h.trans a b c (le_of_lt hab) hbc
  by_contra hnot
  have hca : compare c a ≤ 0 := le_of_eq (h.eq_zero_comm (by omega))
  have hba := h.trans b c a hbc hca
  have hswap := h.swap a b
  omega

theorem lt_of_le_of_lt (h : Compares compare) {a b c : α} (hab : compare a b ≤ 0)
    (hbc : compare b c < 0) : compare a c < 0 := by
  have hle := h.trans a b c hab (le_of_lt hbc)
  by_contra hnot
  have hca : compare c a ≤ 0 := le_of_eq (h.eq_zero_comm (by omega))
  have hcb := h.trans c a b hca hab
  have hswap := h.swap b c
  omega

/-- Compared by a key. -/
theorem on {compare : κ → κ → Int} (h : Compares compare) (key : α → κ) :
    Compares fun a b => compare (key a) (key b) where
  swap a b := h.swap (key a) (key b)
  trans a b c := h.trans (key a) (key b) (key c)

/-- A tie of the first is broken by the second. -/
theorem orElse (h : Compares first) (h' : Compares second) :
    Compares fun a b => if first a b ≠ 0 then first a b else second a b where
  swap a b := by
    have hab := h.swap a b
    have hba := h.swap b a
    have hsecond := h'.swap a b
    split <;> split <;> omega
  trans a b c hab hbc := by
    by_cases htie : first a b = 0
    · rw [if_neg (not_not.mpr htie)] at hab
      by_cases htie' : first b c = 0
      · rw [if_neg (not_not.mpr htie')] at hbc
        have hac : first a c = 0 :=
          h.eq_zero (h.trans a b c (le_of_eq htie) (le_of_eq htie'))
            (h.trans c b a (le_of_eq (h.eq_zero_comm htie')) (le_of_eq (h.eq_zero_comm htie)))
        rw [if_neg (not_not.mpr hac)]
        exact h'.trans a b c hab hbc
      · rw [if_pos htie'] at hbc
        have hac := h.lt_of_le_of_lt (le_of_eq htie) (show first b c < 0 by omega)
        rw [if_pos (ne_of_lt hac)]
        exact le_of_lt hac
    · rw [if_pos htie] at hab
      have hbc' : first b c ≤ 0 := by
        split at hbc <;> omega
      have hac := h.lt_of_lt_of_le (show first a b < 0 by omega) hbc'
      rw [if_pos (ne_of_lt hac)]
      exact le_of_lt hac

end Compares

/-- By the difference. -/
theorem compares_sub : Compares fun a b : Int => a - b where
  swap a b := by omega
  trans a b c := by omega

/-- What has no key comes last, and ties with its like. -/
def compareLast (compare : κ → κ → Int) : Option κ → Option κ → Int
  | none, none => 0
  | none, some _ => 1
  | some _, none => -1
  | some a, some b => compare a b

theorem Compares.last {compare : κ → κ → Int} (h : Compares compare) :
    Compares (compareLast compare) where
  swap a b := by
    cases a <;> cases b <;> simp only [compareLast] <;> first | omega | exact h.swap _ _
  trans a b c hab hbc := by
    cases a <;> cases b <;> cases c <;> simp only [compareLast] at hab hbc ⊢ <;>
      first | omega | exact h.trans _ _ _ hab hbc

/-! ## Sorting -/

/-- The sorted keys of a list depend on its keys alone. -/
theorem map_insertionSort_of_perm {compare : κ → κ → Int} (h : Compares compare) {key : α → κ}
    {xs : List α} {keys : List κ} (hperm : (xs.map key).Perm keys)
    (hapart : ∀ k ∈ keys, ∀ l ∈ keys, compare k l = 0 → k = l) :
    (xs.insertionSort fun a b => compare (key a) (key b) ≤ 0).map key =
      keys.insertionSort fun k l => compare k l ≤ 0 := by
  rw [List.map_insertionSort _ (fun k l => compare k l ≤ 0) key xs fun a _ b _ => Iff.rfl]
  exact insertionSort_eq_of_perm h.total h.trans hperm fun k hk l hl hkl hlk =>
    hapart k hk l hl (h.eq_zero hkl hlk)

/-- The first of a list sorted by a value has the least. -/
theorem head?_insertionSort_map [LinearOrder κ] {r : α → α → Prop} [DecidableRel r]
    (value : α → κ) (hr : ∀ a b, r a b ↔ value a ≤ value b) (xs : List α) :
    ((xs.insertionSort r).head?).map value = (xs.map value).min? := by
  have htotal : Std.Total r := ⟨fun a b => by
    rw [hr, hr]
    exact le_total _ _⟩
  have htrans : IsTrans α r := ⟨fun a b c => by
    rw [hr, hr, hr]
    exact le_trans⟩
  have hperm := List.perm_insertionSort r xs
  have hsorted := List.pairwise_insertionSort r xs
  cases hsort : xs.insertionSort r with
  | nil =>
      rw [hsort] at hperm
      rw [hperm.nil_eq.symm]
      rfl
  | cons a rest =>
      rw [hsort] at hperm hsorted
      refine (List.min?_eq_some_iff.mpr ⟨?_, ?_⟩).symm
      · exact List.mem_map_of_mem (hperm.mem_iff.mp List.mem_cons_self)
      · intro k hk
        obtain ⟨b, hb, rfl⟩ := List.mem_map.mp hk
        rcases List.mem_cons.mp (hperm.mem_iff.mpr hb) with rfl | hrest
        · exact le_refl _
        · exact (hr a b).mp ((List.pairwise_cons.mp hsorted).1 b hrest)

theorem min?_of_perm [LinearOrder κ] {xs ys : List κ} (h : xs.Perm ys) : xs.min? = ys.min? := by
  cases hmin : ys.min? with
  | none =>
      rw [List.min?_eq_none_iff] at hmin ⊢
      exact (hmin ▸ h).eq_nil
  | some k =>
      rw [List.min?_eq_some_iff] at hmin ⊢
      exact ⟨h.mem_iff.mpr hmin.1, fun l hl => hmin.2 l (h.mem_iff.mp hl)⟩

end Collections
