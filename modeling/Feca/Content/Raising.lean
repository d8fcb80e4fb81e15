import Feca.Collections.Raise
import Feca.Content.Rotation

/-! # A higher score never ranks lower

The jitter of a candidate grows with its score, so a higher score might lose more
to its hash than it has gained. It does not: the span follows the score by no more
than its ratio. A candidate with a higher base score, the hour and the other
candidates being the same, is therefore overtaken by none of them.
-/

namespace Feca.Content

open Collections

variable {α : Type}

/-- An item as it is ranked. -/
def scored (id : α → Id) (score : α → Rat) (item : α) : RankedCandidate α :=
  { baseScore := score item, id := id item, item }

/-! ## Scores with their jitter -/

/-- Spans are no further apart than the scores. -/
theorem abs_resolveJitterSpan_sub_le (options : DynamicRankingOptions)
    (hratio : 0 ≤ options.jitterRatio.getD (8 / 100) ∧ options.jitterRatio.getD (8 / 100) ≤ 1)
    (x y : Rat) : |resolveJitterSpan x options - resolveJitterSpan y options| ≤ |x - y| := by
  unfold resolveJitterSpan
  generalize options.jitterRatio.getD (8 / 100) = ratio at hratio
  generalize options.maxJitter.getD 14 = most
  have hmin : |min most (max 4 (|x| * ratio)) - min most (max 4 (|y| * ratio))| ≤
      |max 4 (|x| * ratio) - max 4 (|y| * ratio)| := by
    rw [min_comm most, min_comm most]
    exact abs_inf_sub_inf_le_abs _ _ _
  have hmax : |max 4 (|x| * ratio) - max 4 (|y| * ratio)| ≤ |(|x| * ratio) - (|y| * ratio)| := by
    rw [max_comm 4, max_comm 4]
    exact abs_sup_sub_sup_le_abs _ _ _
  have hscale : |(|x| * ratio) - (|y| * ratio)| ≤ |x - y| := by
    rw [← sub_mul, abs_mul, abs_of_nonneg hratio.1]
    calc |(|x| - |y|)| * ratio ≤ |(|x| - |y|)| * 1 :=
          mul_le_mul_of_nonneg_left hratio.2 (abs_nonneg _)
      _ = |(|x| - |y|)| := mul_one _
      _ ≤ |x - y| := abs_abs_sub_abs_le x y
  exact hmin.trans (hmax.trans hscale)

theorem computeStableJitter_of_nonneg (hash : String → Rat) (seed : String) {span : Rat}
    (h : 0 ≤ span) : computeStableJitter hash seed span = (hash seed * 2 - 1) * span := by
  unfold computeStableJitter
  split
  · rename_i hle
    rw [le_antisymm hle h, mul_zero]
  · rfl

/-- With the same hash, the higher score is higher with its jitter. -/
theorem add_jitter_mono {hash : String → Rat} (hhash : UnitHash hash) (seed : String)
    {options : DynamicRankingOptions}
    (hratio : 0 ≤ options.jitterRatio.getD (8 / 100) ∧ options.jitterRatio.getD (8 / 100) ≤ 1)
    {x y : Rat} (hxy : x ≤ y) :
    x + computeStableJitter hash seed (resolveJitterSpan x options) ≤
      y + computeStableJitter hash seed (resolveJitterSpan y options) := by
  cases resolveJitterSpan_sign options with
  | inr hspan =>
    rw [computeStableJitter_of_nonpos hash seed (hspan x),
      computeStableJitter_of_nonpos hash seed (hspan y), add_zero, add_zero]
    exact hxy
  | inl hspan =>
    rw [computeStableJitter_of_nonneg hash seed (hspan x),
      computeStableJitter_of_nonneg hash seed (hspan y)]
    have hunit : |hash seed * 2 - 1| ≤ 1 := by
      rw [abs_le]
      constructor <;> linarith [(hhash seed).1, (hhash seed).2]
    have hmoved : |(hash seed * 2 - 1) *
        (resolveJitterSpan x options - resolveJitterSpan y options)| ≤ |x - y| := by
      rw [abs_mul]
      calc |hash seed * 2 - 1| * |resolveJitterSpan x options - resolveJitterSpan y options| ≤
            1 * |resolveJitterSpan x options - resolveJitterSpan y options| :=
          mul_le_mul_of_nonneg_right hunit (abs_nonneg _)
        _ = |resolveJitterSpan x options - resolveJitterSpan y options| := one_mul _
        _ ≤ |x - y| := abs_resolveJitterSpan_sub_le options hratio x y
    have hgap := (le_abs_self _).trans hmoved
    rw [abs_of_nonpos (sub_nonpos.mpr hxy), mul_sub] at hgap
    linarith

/-! ## The ranking as a sort with a window -/

section ranking

variable {env : ContentEnv} {hash : String → Rat} {options : DynamicRankingOptions}
  {id : α → Id} {score score' : α → Rat} {items : List α}

/-- Ranking items by a score, with rotation. -/
def rotationSort (horder : Collates env.localeCompare) (hash : String → Rat)
    (options : DynamicRankingOptions) (id : α → Id) (score : α → Rat) :
    WindowSort α (ScoredCandidate α) where
  before a b := byBaseScore env (scored id score a) (scored id score b)
  ahead := byScore env
  rescore item := rotated env hash options (scored id score item)
  plain item := (scored id score item).withScore (score item)
  origin := (·.item)
  origin_rescore _ := rfl
  origin_plain _ := rfl
  total _ _ := byBaseScore_total horder _ _
  trans _ _ _ := byBaseScore_trans horder _ _ _
  ahead_total := byScore_total horder
  ahead_trans := byScore_trans horder

/-- The items in the order of their ranking. -/
def rankedItems (env : ContentEnv) (hash : String → Rat) (options : DynamicRankingOptions)
    (id : α → Id) (score : α → Rat) (items : List α) : List α :=
  (rankCandidatesByHash env hash (items.map (scored id score)) options).map (·.item)

theorem rankedItems_of_few (h : items.length ≤ 1) :
    rankedItems env hash options id score items = items := by
  have hfew : (items.map (scored id score)).length ≤ 1 := by
    rw [List.length_map]
    exact h
  unfold rankedItems rankCandidatesByHash
  rw [if_pos hfew, List.map_map, List.map_map]
  exact List.map_id items

theorem rankedItems_eq (horder : Collates env.localeCompare) (h : ¬ items.length ≤ 1) :
    rankedItems env hash options id score items =
      (rotationSort horder hash options id score).sorted (windowSize options items.length)
        items := by
  have hmany : ¬ (items.map (scored id score)).length ≤ 1 := by
    rw [List.length_map]
    exact h
  have hsort : (items.map (scored id score)).insertionSort (byBaseScore env) =
      (items.insertionSort fun a b =>
        byBaseScore env (scored id score a) (scored id score b)).map (scored id score) :=
    (List.map_insertionSort _ _ (scored id score) items fun _ _ _ _ => Iff.rfl).symm
  rw [rankedItems, rankCandidatesByHash_eq hmany, rankTwice, List.length_map]
  unfold WindowSort.sorted sortWindow
  rw [hsort, ← List.map_take, ← List.map_drop, List.map_map, List.map_map]
  rfl

/-- Distinct ids leave no two items level. -/
theorem rotationSort_apart (horder : OrdersIds env.localeCompare (items.map id))
    (hids : (items.map id).Nodup) :
    (rotationSort horder.toCollates hash options id score).Apart items := by
  have hbefore : ∀ a ∈ items, ∀ b ∈ items,
      byBaseScore env (scored id score a) (scored id score b) →
        byBaseScore env (scored id score b) (scored id score a) → a = b := by
    intro a ha b hb hab hba
    have hsame : (items.map (scored id score)).map (·.id) = items.map id := List.map_map
    have hcompared : OrdersIds env.localeCompare ((items.map (scored id score)).map (·.id)) := by
      rw [hsame]
      exact horder
    have hdistinct : ((items.map (scored id score)).map (·.id)).Nodup := by
      rw [hsame]
      exact hids
    exact congrArg RankedCandidate.item (byBaseScore_apart hcompared hdistinct _
      (List.mem_map_of_mem ha) _ (List.mem_map_of_mem hb) hab hba)
  refine ⟨List.Nodup.of_map _ hids, hbefore, ?_⟩
  intro a ha b hb hab hba
  rcases hab with hlt | ⟨heq, hab⟩
  · rcases hba with hgt | ⟨heq, -⟩
    · exact absurd hgt (not_lt_of_gt hlt)
    · exact absurd hlt heq.not_lt
  · rcases hba with hgt | ⟨-, hba⟩
    · exact absurd hgt heq.not_lt
    · exact hbefore a ha b hb hab hba

variable {a : α}

/-- A higher base score raises an item in both sorts. -/
theorem raised_of_score_le (horder : Collates env.localeCompare) (hhash : UnitHash hash)
    (hratio : 0 ≤ options.jitterRatio.getD (8 / 100) ∧ options.jitterRatio.getD (8 / 100) ≤ 1)
    (hup : score a ≤ score' a) (hsame : ∀ c ∈ items, c ≠ a → score' c = score c) :
    Raised items a (rotationSort horder hash options id score).before
      (rotationSort horder hash options id score').before
      (fun b c => byScore env (rotated env hash options (scored id score b))
        (rotated env hash options (scored id score c)))
      fun b c => byScore env (rotated env hash options (scored id score' b))
        (rotated env hash options (scored id score' c)) := by
  have hkept : ∀ c ∈ items, c ≠ a → scored id score' c = scored id score c := by
    intro c hc hne
    rw [scored, hsame c hc hne]
    rfl
  have hdown : ∀ c ∈ items, c ≠ a → byBaseScore env (scored id score' c) (scored id score' a) →
      byBaseScore env (scored id score c) (scored id score a) := by
    intro c hc hne hca
    rw [hkept c hc hne] at hca
    rcases hca with hlt | ⟨heq, hid⟩
    · exact .inl (lt_of_le_of_lt hup hlt)
    · rcases hup.lt_or_eq with hlt | hlevel
      · exact .inl (lt_of_lt_of_eq hlt heq.symm)
      · exact .inr ⟨heq.trans hlevel.symm, hid⟩
  refine ⟨?_, ?_, ?_, ?_⟩
  · intro b hb c hc hba hca
    show byBaseScore env _ _ ↔ byBaseScore env _ _
    rw [hkept b hb hba, hkept c hc hca]
  · intro c hc hac
    show byBaseScore env _ _
    by_cases hne : c = a
    · rw [hne]
      exact (byBaseScore_total horder _ _).elim (fun h => h) fun h => h
    · rw [hkept c hc hne]
      rcases hac with hlt | ⟨heq, hid⟩
      · exact .inl (lt_of_lt_of_le hlt hup)
      · rcases hup.lt_or_eq with hlt | hlevel
        · exact .inl (lt_of_eq_of_lt heq.symm hlt)
        · exact .inr ⟨hlevel.symm.trans heq, hid⟩
  · intro c hc hca
    show byBaseScore env _ _
    by_cases hne : c = a
    · rw [hne]
      exact (byBaseScore_total horder _ _).elim (fun h => h) fun h => h
    · exact hdown c hc hne hca
  · intro c hc hne hca
    have hjitter : (rotated env hash options (scored id score a)).score ≤
        (rotated env hash options (scored id score' a)).score :=
      add_jitter_mono hhash _ hratio hup
    have hbase := hdown c hc hne
    rw [hkept c hc hne] at hca hbase
    rcases hca with hlt | ⟨heq, hbefore⟩
    · exact .inl (lt_of_le_of_lt hjitter hlt)
    · rcases hjitter.lt_or_eq with hlt | hlevel
      · exact .inl (lt_of_lt_of_eq hlt heq.symm)
      · exact .inr ⟨heq.trans hlevel.symm, hbase hbefore⟩

/-- A higher base score lets nothing overtake an item, nor does it drop it from the first ones. -/
theorem rankedItems_not_overtaken (horder : OrdersIds env.localeCompare (items.map id))
    (hhash : UnitHash hash)
    (hratio : 0 ≤ options.jitterRatio.getD (8 / 100) ∧ options.jitterRatio.getD (8 / 100) ≤ 1)
    (hids : (items.map id).Nodup) (ha : a ∈ items) (hup : score a ≤ score' a)
    (hsame : ∀ c ∈ items, c ≠ a → score' c = score c) :
    (∀ c, Precedes (rankedItems env hash options id score' items) c a →
      Precedes (rankedItems env hash options id score items) c a) ∧
      ∀ n, a ∈ (rankedItems env hash options id score items).take n →
        a ∈ (rankedItems env hash options id score' items).take n := by
  by_cases hfew : items.length ≤ 1
  · rw [rankedItems_of_few hfew, rankedItems_of_few hfew]
    exact ⟨fun _ h => h, fun _ h => h⟩
  · rw [rankedItems_eq horder.toCollates hfew, rankedItems_eq horder.toCollates hfew]
    exact WindowSort.not_overtaken (rotationSort_apart horder hids) (rotationSort_apart horder hids)
      ha (raised_of_score_le horder.toCollates hhash hratio hup hsame)

end ranking

end Feca.Content
