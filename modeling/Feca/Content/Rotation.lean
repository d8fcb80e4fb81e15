import Feca.Collections.WindowSort
import Feca.Content.FeedPaging
import Mathlib.Algebra.Order.Ring.Abs
import Mathlib.Tactic.Linarith

/-! # What rotating changes

Ranking with rotation is sorting by the base score and sorting a window once
more. The hash moves a score by at most its span, so in the window the order of
two candidates can change only if their spans reach over what parts them; and
nothing but the set of candidates, the options and the hour decides.
-/

namespace Feca.Content

open Collections

variable {α : Type}

/-- These ids are told apart by `localeCompare`, which for some texts that differ is 0. -/
structure OrdersIds (localeCompare : String → String → Int) (ids : List String) : Prop
    extends Collates localeCompare where
  apart : ∀ a ∈ ids, ∀ b ∈ ids, localeCompare a b ≤ 0 → localeCompare b a ≤ 0 → a = b

theorem OrdersIds.mono {localeCompare : String → String → Int} {ids others : List String}
    (h : OrdersIds localeCompare ids) (hsub : others ⊆ ids) : OrdersIds localeCompare others where
  toCollates := h.toCollates
  apart a ha b hb := h.apart a (hsub ha) b (hsub hb)

theorem ordersIds_compareCodePoints (ids : List String) : OrdersIds compareCodePoints ids where
  toCollates := collates_compareCodePoints
  apart a _ b _ hab hba := by
    rw [compareCodePoints_nonpos] at hab hba
    exact le_antisymm hab hba

/-- A hash into the unit interval. -/
def UnitHash (hash : String → Rat) : Prop := ∀ seed, 0 ≤ hash seed ∧ hash seed ≤ 1

/-- Eight hexadecimal digits are at most `0xffffffff`. -/
theorem unitHash_stableUnitInterval {env : ContentEnv}
    (h : ∀ seed, env.sha256Prefix seed ≤ 0xffffffff) : UnitHash (stableUnitInterval env) := by
  intro seed
  have hcast : (env.sha256Prefix seed : Rat) ≤ 0xffffffff := by exact_mod_cast h seed
  have hpos : (0 : Rat) < 0xffffffff := by norm_num
  unfold stableUnitInterval
  refine ⟨div_nonneg (Nat.cast_nonneg _) hpos.le, ?_⟩
  rw [div_le_iff₀ hpos, one_mul]
  exact hcast

/-! ## Jitter -/

/-- Spans are all negative, where `maxJitter` is, or none is. -/
theorem resolveJitterSpan_sign (options : DynamicRankingOptions) :
    (∀ score, 0 ≤ resolveJitterSpan score options) ∨
      ∀ score, resolveJitterSpan score options ≤ 0 := by
  by_cases hmax : 0 ≤ options.maxJitter.getD 14
  · left
    intro score
    exact le_min hmax ((by decide : (0 : Rat) ≤ 4).trans (le_max_left _ _))
  · right
    intro score
    exact (min_le_left _ _).trans (le_of_not_ge hmax)

theorem computeStableJitter_of_nonpos (hash : String → Rat) (seed : String) {span : Rat}
    (h : span ≤ 0) : computeStableJitter hash seed span = 0 := by
  rw [computeStableJitter, if_pos h]

/-- A jitter stays within its span. -/
theorem abs_computeStableJitter_le {hash : String → Rat} (hhash : UnitHash hash) (seed : String)
    {span : Rat} (h : 0 ≤ span) : |computeStableJitter hash seed span| ≤ span := by
  unfold computeStableJitter
  split
  · rw [abs_zero]
    exact h
  · have hlow : -1 ≤ hash seed * 2 - 1 := by linarith [(hhash seed).1]
    have hhigh : hash seed * 2 - 1 ≤ 1 := by linarith [(hhash seed).2]
    rw [abs_mul, abs_of_nonneg h]
    exact mul_le_of_le_one_left h (abs_le.mpr ⟨hlow, hhigh⟩)

section rotation

variable (env : ContentEnv) (options : DynamicRankingOptions)

/-- A candidate ahead by more than both spans stays ahead. -/
theorem rotated_score_lt {hash : String → Rat} (hhash : UnitHash hash) {a b : RankedCandidate α}
    (hless : b.baseScore < a.baseScore)
    (hspans : resolveJitterSpan a.baseScore options + resolveJitterSpan b.baseScore options <
      a.baseScore - b.baseScore) :
    (rotated env hash options b).score < (rotated env hash options a).score := by
  unfold rotated RankedCandidate.withScore
  dsimp only
  cases resolveJitterSpan_sign options with
  | inl hspan =>
    have ha := abs_le.mp (abs_computeStableJitter_le hhash (options.seed ++ ":" ++
      buildTimeBucket env env.now (options.bucketHours.getD 2) ++ ":" ++ a.id)
      (hspan a.baseScore))
    have hb := abs_le.mp (abs_computeStableJitter_le hhash (options.seed ++ ":" ++
      buildTimeBucket env env.now (options.bucketHours.getD 2) ++ ":" ++ b.id)
      (hspan b.baseScore))
    linarith [ha.1, hb.2]
  | inr hspan =>
    rw [computeStableJitter_of_nonpos hash _ (hspan a.baseScore),
      computeStableJitter_of_nonpos hash _ (hspan b.baseScore), add_zero, add_zero]
    exact hless

/-! ## The window -/

/-- How many candidates are rotated. -/
def windowSize (count : Nat) : Nat := max 1 (min count (options.topWindow.getD (max 18 count)))

/-- The ranking of more than one candidate. -/
def rankTwice (hash : String → Rat) (candidates : List (RankedCandidate α)) :
    List (ScoredCandidate α) :=
  sortWindow (byBaseScore env) (byScore env) (rotated env hash options)
    (fun candidate => candidate.withScore candidate.baseScore)
    (windowSize options candidates.length) candidates

/-- Fewer candidates than are rotated come before it by the base score, or by id where that
is the same. -/
def InTopWindow (candidates : List (RankedCandidate α)) (candidate : RankedCandidate α) : Prop :=
  InWindow (byBaseScore env) (windowSize options candidates.length) candidates candidate

/-- What rotating is to keep of a ranking. -/
structure RotatesWell (candidates : List (RankedCandidate α))
    (ranking : List (ScoredCandidate α)) : Prop where
  /-- Every candidate is ranked, once. -/
  perm : (ranking.map (·.toRankedCandidate)).Perm candidates
  /-- What is outside the window comes behind what is in it. -/
  window : ∀ x y, Precedes (ranking.map (·.toRankedCandidate)) x y →
    InTopWindow env options candidates y → InTopWindow env options candidates x
  /-- In the window, base scores that differ by more than the spans decide. -/
  kept : ∀ a ∈ candidates, ∀ b ∈ candidates, InTopWindow env options candidates a →
    InTopWindow env options candidates b → b.baseScore < a.baseScore →
      resolveJitterSpan a.baseScore options + resolveJitterSpan b.baseScore options <
        |a.baseScore - b.baseScore| →
      Precedes (ranking.map (·.toRankedCandidate)) a b

variable {env options}

theorem rankCandidatesByHash_eq {hash : String → Rat} {candidates : List (RankedCandidate α)}
    (h : ¬ candidates.length ≤ 1) :
    rankCandidatesByHash env hash candidates options = rankTwice env options hash candidates := by
  unfold rankCandidatesByHash
  rw [if_neg h]
  dsimp only
  rw [List.length_insertionSort]
  rfl

/-- Distinct ids leave no two candidates level. -/
theorem byBaseScore_apart {candidates : List (RankedCandidate α)}
    (horder : OrdersIds env.localeCompare (candidates.map (·.id))) (hids : (candidates.map (·.id)).Nodup) :
    ∀ a ∈ candidates, ∀ b ∈ candidates, byBaseScore env a b → byBaseScore env b a → a = b := by
  intro a ha b hb hab hba
  have hlevel : env.localeCompare a.id b.id ≤ 0 ∧ env.localeCompare b.id a.id ≤ 0 := by
    cases hab with
    | inl hlt =>
      cases hba with
      | inl hgt => exact absurd hgt (not_lt_of_gt hlt)
      | inr hsame => exact absurd hlt hsame.1.not_lt
    | inr hsame =>
      cases hba with
      | inl hgt => exact absurd hgt hsame.1.not_lt
      | inr hsame' => exact ⟨hsame.2, hsame'.2⟩
  refine List.inj_on_of_nodup_map hids ha hb ?_
  exact horder.apart _ (List.mem_map_of_mem ha) _ (List.mem_map_of_mem hb) hlevel.1 hlevel.2

/-- The order of the input does not matter. -/
theorem rankCandidatesByHash_eq_of_perm {candidates candidates' : List (RankedCandidate α)}
    (horder : OrdersIds env.localeCompare (candidates.map (·.id))) (hash : String → Rat)
    (hperm : candidates'.Perm candidates) (hids : (candidates.map (·.id)).Nodup) :
    rankCandidatesByHash env hash candidates' options =
      rankCandidatesByHash env hash candidates options := by
  by_cases hfew : candidates.length ≤ 1
  · have hsame : candidates' = candidates := by
      cases candidates with
      | nil => exact hperm.eq_nil
      | cons c cs =>
        have hnil : cs = [] := List.eq_nil_of_length_eq_zero (by simpa using hfew)
        rw [hnil] at hperm ⊢
        exact List.perm_singleton.mp hperm
    rw [hsame]
  · have hfew' : ¬ candidates'.length ≤ 1 := by
      rw [hperm.length_eq]
      exact hfew
    rw [rankCandidatesByHash_eq hfew, rankCandidatesByHash_eq hfew', rankTwice, hperm.length_eq]
    exact sortWindow_eq_of_perm (byBaseScore_total horder.toCollates)
      (byBaseScore_trans horder.toCollates) hperm (byBaseScore_apart horder hids)

variable (env options) in
theorem rankCandidatesByHash_of_few (hash : String → Rat) {candidates : List (RankedCandidate α)}
    (h : candidates.length ≤ 1) :
    (rankCandidatesByHash env hash candidates options).map (·.toRankedCandidate) = candidates := by
  unfold rankCandidatesByHash
  rw [if_pos h, List.map_map]
  exact List.map_id candidates

/-- The two sorts with a window between them keep what they are to keep. -/
theorem rotatesWell_rankTwice {hash : String → Rat} {candidates : List (RankedCandidate α)}
    (horder : OrdersIds env.localeCompare (candidates.map (·.id))) (hhash : UnitHash hash)
    (hids : (candidates.map (·.id)).Nodup) :
    RotatesWell env options candidates (rankTwice env options hash candidates) := by
  have hnodup : candidates.Nodup := List.Nodup.of_map _ hids
  have hapart := byBaseScore_apart horder hids
  have htotal := byBaseScore_total (α := α) horder.toCollates
  have htrans := byBaseScore_trans (α := α) horder.toCollates
  have horigin : ∀ candidate : RankedCandidate α,
      (rotated env hash options candidate).toRankedCandidate = candidate := fun _ => rfl
  have hplain : ∀ candidate : RankedCandidate α,
      (candidate.withScore candidate.baseScore).toRankedCandidate = candidate := fun _ => rfl
  have hall : ((rankTwice env options hash candidates).map (·.toRankedCandidate)).Perm candidates :=
    sortWindow_perm horigin hplain candidates
  have hwindow : (rankTwice env options hash candidates).Pairwise fun x y =>
      InTopWindow env options candidates y.toRankedCandidate →
        InTopWindow env options candidates x.toRankedCandidate :=
    sortWindow_window htotal htrans hnodup hapart horigin hplain
  have hahead : ((rankTwice env options hash candidates).map (·.toRankedCandidate)).Pairwise
      fun a b => InTopWindow env options candidates a → InTopWindow env options candidates b →
        byScore env (rotated env hash options a) (rotated env hash options b) :=
    List.pairwise_map.mpr (sortWindow_ahead htotal htrans hnodup hapart horigin hplain
      (byScore_total horder.toCollates) (byScore_trans horder.toCollates))
  refine ⟨hall, ?_, ?_⟩
  · exact pairwise_iff_precedes.mp (List.pairwise_map.mpr hwindow)
  · intro a ha b hb hina hinb hless hspans
    have hne : a ≠ b := by
      rintro rfl
      exact lt_irrefl _ hless
    rw [abs_of_pos (sub_pos.mpr hless)] at hspans
    cases precedes_or (hall.mem_iff.mpr ha) (hall.mem_iff.mpr hb) hne with
    | inl hab => exact hab
    | inr hba =>
      have hlt := rotated_score_lt env options hhash hless hspans
      cases pairwise_iff_precedes.mp hahead b a hba hinb hina with
      | inl hgt => exact absurd hgt (not_lt_of_gt hlt)
      | inr hsame => exact absurd hlt hsame.1.not_lt

/-- Rotating loses and adds no candidate, whatever the order of the input; it keeps the window in
front, and in it what differs by more than the jitter. -/
theorem rankCandidatesByHash_rotatesWell (env : ContentEnv) (hash : String → Rat)
    (options : DynamicRankingOptions) (candidates : List (RankedCandidate α))
    (horder : OrdersIds env.localeCompare (candidates.map (·.id))) (hhash : UnitHash hash)
    (hids : (candidates.map (·.id)).Nodup) :
    RotatesWell env options candidates (rankCandidatesByHash env hash candidates options) ∧
      ∀ candidates' : List (RankedCandidate α), candidates'.Perm candidates →
        rankCandidatesByHash env hash candidates' options =
          rankCandidatesByHash env hash candidates options := by
  refine ⟨?_, fun candidates' hperm => rankCandidatesByHash_eq_of_perm horder hash hperm hids⟩
  by_cases hfew : candidates.length ≤ 1
  · have hsame := rankCandidatesByHash_of_few env options hash hfew
    refine ⟨List.Perm.of_eq hsame, ?_, ?_⟩
    · intro x y hxy
      have htwo := hxy.two_le_length
      rw [hsame] at htwo
      omega
    · intro a ha b hb _ _ hless
      have heq : a = b := by
        cases candidates with
        | nil => cases ha
        | cons c cs =>
          have hnil : cs = [] := List.eq_nil_of_length_eq_zero (by simpa using hfew)
          subst hnil
          rw [List.mem_singleton.mp ha, List.mem_singleton.mp hb]
      rw [heq] at hless
      exact absurd hless (lt_irrefl _)
  · rw [rankCandidatesByHash_eq hfew]
    exact rotatesWell_rankTwice horder hhash hids

end rotation

/-! ## Three candidates -/

theorem unitHash_aContentEnv : UnitHash (stableUnitInterval aContentEnv) := by
  apply unitHash_stableUnitInterval
  intro seed
  unfold aContentEnv
  dsimp only
  split
  · decide
  · split <;> decide

def threeCandidates : List (RankedCandidate Unit) :=
  [⟨10, "bar", ()⟩, ⟨30, "cafe", ()⟩, ⟨10, "plaza", ()⟩]

/-- The cafe keeps its place before the bar, and the plaza is outside a window of two. -/
theorem three_rotate_well :
    RotatesWell aContentEnv { seed := "ana", topWindow := some 2 } threeCandidates
      (rankCandidatesWithRotation aContentEnv threeCandidates
        { seed := "ana", topWindow := some 2 }) :=
  (rankCandidatesByHash_rotatesWell aContentEnv (stableUnitInterval aContentEnv)
    { seed := "ana", topWindow := some 2 } threeCandidates (ordersIds_compareCodePoints _)
    unitHash_aContentEnv (by decide)).1

end Feca.Content
