import Feca.Places.CuratedSlots
import Mathlib.Data.List.FinRange

/-! # Categories apart

`diversifyTopPlacesByCategory` takes places from positions of the ranking, never
from one position twice. Each time it takes the first place of another category
than the place before, so that it repeats a category only when nothing else is
left.
-/

namespace Feca.Places

open Collections Content Social

variable {env : RankingEnv} {ranked : List GooglePlaceSummary}

/-- The positions of a ranking that a diversified list of `count` places is taken from. -/
def variedPositions (env : RankingEnv) (ranked : List GooglePlaceSummary) (count : Nat) :
    List (Fin ranked.length) :=
  spread (fun position => placeVarietyKey env ranked[position]) count none
    (List.finRange ranked.length)

/-- A list takes places from different positions of a ranking, the top one first. Places
of one category keep their order, and stand next to each other only where every
place that is not taken yet has that category. -/
structure SetsApart (env : RankingEnv) (ranked : List GooglePlaceSummary)
    (positions : List (Fin ranked.length)) : Prop where
  distinct : positions.Nodup
  top : (positions.map Fin.val).head? = some 0
  ordered : positions.Pairwise fun p q =>
    placeVarietyKey env ranked[p] = placeVarietyKey env ranked[q] → p < q
  neighbours : ∀ before p q after, positions = before ++ p :: q :: after →
    placeVarietyKey env ranked[p] = placeVarietyKey env ranked[q] →
      ∀ other, other ∉ before ++ [p] →
        placeVarietyKey env ranked[other] = placeVarietyKey env ranked[p]

/-- A diversified list is what stands at its positions. -/
theorem takeVaried_eq_map (count : Nat) :
    takeVaried env count none ranked =
      (variedPositions env ranked count).map fun position => ranked[position] := by
  have hmap := spread_map (placeVarietyKey env) (fun position => ranked[position]) count none
    (List.finRange ranked.length)
  have hwhole : (List.finRange ranked.length).map (fun position => ranked[position]) = ranked :=
    List.map_getElem_finRange ranked
  rw [hwhole] at hmap
  rw [takeVaried_eq_spread, hmap]
  rfl

theorem setsApart_variedPositions {count : Nat} (hcount : count ≠ 0) (hsome : ranked ≠ []) :
    SetsApart env ranked (variedPositions env ranked count) where
  distinct := by
    have hsub : (variedPositions env ranked count).Subperm (List.finRange ranked.length) :=
      (spread_subperm count none _).1
    obtain ⟨zs, hperm, hzs⟩ := hsub
    exact hperm.nodup_iff.mp ((List.nodup_finRange _).sublist hzs)
  top := by
    obtain ⟨turns, rfl⟩ := Nat.exists_eq_succ_of_ne_zero hcount
    obtain ⟨first, others, rfl⟩ := List.exists_cons_of_ne_nil hsome
    rw [List.head?_map, variedPositions, head?_spread, List.length_cons, List.finRange_succ]
    rfl
  ordered := spread_pairwise count none (List.pairwise_lt_finRange _)
  neighbours := by
    intro before p q after hpositions hkey other hother
    exact spread_adjacent hpositions hkey other (List.mem_finRange other) hother

/-- Of a ranking longer than the limit, a diversified list takes `limit` places and
sets their categories apart. -/
theorem diversify_sets_apart (env : RankingEnv) (ranked : List GooglePlaceSummary) (limit : Rat)
    (hlimit : 1 ≤ limit) (hlonger : limit < (ranked.length : Rat)) :
    (diversifyTopPlacesByCategory env ranked limit).length = capacity limit ∧
      (∀ n : Nat, limit = n → (diversifyTopPlacesByCategory env ranked limit).length = n) ∧
      ∃ positions, diversifyTopPlacesByCategory env ranked limit =
          positions.map (fun position => ranked[position]) ∧
        SetsApart env ranked positions := by
  have hlength : (diversifyTopPlacesByCategory env ranked limit).length = capacity limit := by
    rw [length_diversify, if_neg (not_le_of_gt hlonger)]
  have hcount : capacity limit ≠ 0 := by
    intro hzero
    have hle : limit ≤ ((0 : Nat) : Rat) := le_natCast_iff.mpr (Nat.le_of_eq hzero)
    rw [Nat.cast_zero] at hle
    exact absurd (hlimit.trans hle) (by decide)
  have hsome : ranked ≠ [] := by
    rintro rfl
    rw [List.length_nil, Nat.cast_zero] at hlonger
    exact absurd (hlimit.trans_lt hlonger) (by decide)
  refine ⟨hlength, ?_, variedPositions env ranked (capacity limit), ?_,
    setsApart_variedPositions hcount hsome⟩
  · rintro n rfl
    rw [hlength, capacity_natCast]
  · rw [diversifyTopPlacesByCategory, if_neg (not_le_of_gt hlonger), ← takeVaried_eq_map]
    rfl

/-! ## Cafés and a bar -/

/-- Three cafés, and a bar between the second and the third. -/
def threeCafesAndBar : List GooglePlaceSummary :=
  [("c1", "cafe"), ("c2", "cafe"), ("b1", "bar"), ("c3", "cafe")].map fun place =>
    { placeWithId place.1 with primaryType := some place.2 }

example : (diversifyTopPlacesByCategory aRankingEnv threeCafesAndBar 3).map (·.googlePlaceId) =
    ["c1", "b1", "c2"] := by
  decide

theorem cafes_are_set_apart :
    (diversifyTopPlacesByCategory aRankingEnv threeCafesAndBar 3).length = 3 ∧
      ∃ positions, diversifyTopPlacesByCategory aRankingEnv threeCafesAndBar 3 =
          positions.map (fun position => threeCafesAndBar[position]) ∧
        SetsApart aRankingEnv threeCafesAndBar positions := by
  obtain ⟨-, hlength, hpositions⟩ := diversify_sets_apart aRankingEnv threeCafesAndBar 3 (by decide)
    (by decide)
  exact ⟨hlength 3 rfl, hpositions⟩

end Feca.Places
