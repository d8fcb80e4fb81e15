import Feca.Collections.OrderedMap

/-! # Filling a map from rows

A loop over rows may overwrite what a key holds, or leave alone what it holds
already: the map ends with the last row of each key, or with the first.
-/

namespace Collections

open OrderedMap

variable {κ α ρ : Type} [DecidableEq κ]

/-- `map.set(key, value)` for every row that has a key. -/
def setEach (key : ρ → Option κ) (value : ρ → α) (m : OrderedMap κ α) (rows : List ρ) :
    OrderedMap κ α :=
  rows.foldl (fun m row =>
    match key row with
    | none => m
    | some k => m.set k (value row)) m

/-- `if (!map.has(key)) map.set(key, row)`. -/
def setMissing (key : ρ → κ) (m : OrderedMap κ ρ) (rows : List ρ) : OrderedMap κ ρ :=
  rows.foldl (fun m row => if m.has (key row) then m else m.set (key row) row) m

theorem get_setEach (key : ρ → Option κ) (value : ρ → α) (m : OrderedMap κ α) (rows : List ρ)
    (k : κ) : (setEach key value m rows).get k =
      (((rows.filter fun row => key row = some k).getLast?).map value).or (m.get k) := by
  unfold setEach
  induction rows generalizing m with
  | nil => simp
  | cons row rows ih =>
    rw [List.foldl_cons, ih]
    by_cases hk : key row = some k
    · rw [List.filter_cons_of_pos (by simpa using hk), List.getLast?_cons, hk]
      dsimp only
      rw [get_set, if_pos rfl]
      cases (rows.filter fun row => decide (key row = some k)).getLast? <;> rfl
    · rw [List.filter_cons_of_neg (by simpa using hk)]
      cases hrow : key row with
      | none => rfl
      | some other =>
        have hne : k ≠ other := by
          rintro rfl
          exact hk hrow
        dsimp only
        rw [get_set, if_neg hne]

/-- Where no two rows have one key, the order of the rows does not matter. -/
theorem get_setEach_of_unique {key : ρ → Option κ} (value : ρ → α) (m : OrderedMap κ α)
    {rows : List ρ} {row : ρ} {k : κ} (hrow : row ∈ rows) (hkey : key row = some k)
    (hunique : ∀ other ∈ rows, key other = some k → value other = value row) :
    (setEach key value m rows).get k = some (value row) := by
  rw [get_setEach]
  cases hlast : (rows.filter fun row => key row = some k).getLast? with
  | none =>
    have hin : row ∈ rows.filter fun row => key row = some k :=
      List.mem_filter.mpr ⟨hrow, by simpa using hkey⟩
    rw [List.getLast?_eq_none_iff.mp hlast] at hin
    cases hin
  | some last =>
    obtain ⟨hmem, hlastKey⟩ := List.mem_filter.mp (List.mem_of_getLast? hlast)
    simp only [Option.map_some, Option.some_or]
    rw [hunique last hmem (by simpa using hlastKey)]

theorem get_setEach_of_absent {key : ρ → Option κ} (value : ρ → α) (m : OrderedMap κ α)
    {rows : List ρ} {k : κ} (h : ∀ row ∈ rows, key row ≠ some k) :
    (setEach key value m rows).get k = m.get k := by
  have hnone : (rows.filter fun row => decide (key row = some k)) = [] := by
    rw [List.filter_eq_nil_iff]
    intro row hrow
    simpa using h row hrow
  rw [get_setEach, hnone]
  rfl

theorem get_setMissing (key : ρ → κ) (m : OrderedMap κ ρ) (rows : List ρ) (k : κ) :
    (setMissing key m rows).get k = (m.get k).or (rows.find? fun row => key row = k) := by
  unfold setMissing
  induction rows generalizing m with
  | nil => simp
  | cons row rows ih =>
    rw [List.foldl_cons, ih]
    by_cases hhas : m.has (key row) = true
    · rw [if_pos hhas]
      by_cases hk : key row = k
      · have hsome : (m.get k).isSome = true := by
          rw [← hk]
          exact hhas
        obtain ⟨found, hfound⟩ := Option.isSome_iff_exists.mp hsome
        rw [hfound, Option.some_or, Option.some_or]
      · rw [List.find?_cons_of_neg (by simpa using hk)]
    · rw [if_neg hhas, get_set]
      by_cases hk : key row = k
      · have hnone : m.get k = none := by
          rw [← hk]
          simpa [has] using hhas
        rw [if_pos hk.symm, List.find?_cons_of_pos (by simpa using hk), hnone]
        rfl
      · rw [if_neg (Ne.symm hk), List.find?_cons_of_neg (by simpa using hk)]

end Collections
