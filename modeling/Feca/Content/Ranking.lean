import Mathlib.Data.String.Basic
import Feca.Content.Schema
import Feca.Paging.Offset

/-! # Dynamic ranking

Candidates are sorted by a base score, and the best of them once more by that
score with a jitter: a hash of the viewer, the scope, the hour and the candidate
turns the top of a list every hour and keeps it still in between. Scores are
exact.
-/

namespace Feca.Content

/-- The clock of a request, the ids it generates, and what the runtime computes. -/
structure ContentEnv where
  now : Date
  settingsId : Nat → Id
  localeCompare : String → String → Int
  toLowerCase : String → String
  /-- `Number(text)`, where it is finite. -/
  number : String → Option Rat
  /-- `value.toFixed(2)`. -/
  toFixed2 : Rat → String
  toISOString : Date → String
  getUTCFullYear : Date → Nat
  getUTCMonth : Date → Nat
  getUTCDate : Date → Nat
  getUTCHours : Date → Nat
  getHours : Date → Nat
  getDay : Date → Nat
  /-- The first eight hexadecimal digits of the SHA-256 digest. -/
  sha256Prefix : String → Nat
  distanceInMeters : Rat → Rat → Rat → Rat → Rat

/-- `String(value).padStart(2, "0")`. -/
def padStart2 (value : Nat) : String :=
  if value < 10 then "0" ++ toString value else toString value

def utcHourBucketId (env : ContentEnv) (now : Date) : String :=
  toString (env.getUTCFullYear now) ++ "-" ++ padStart2 (env.getUTCMonth now + 1) ++ "-" ++
    padStart2 (env.getUTCDate now) ++ "h" ++ padStart2 (env.getUTCHours now)

def buildTimeBucket (env : ContentEnv) (now : Date) (bucketHours : Nat) : String :=
  toString (env.getUTCFullYear now) ++ "-" ++ padStart2 (env.getUTCMonth now + 1) ++ "-" ++
    padStart2 (env.getUTCDate now) ++ ":" ++
      toString (env.getUTCHours now / max 1 bucketHours)

def buildRankingSeed (env : ContentEnv) (userId : Id) (scope : String) (lat lng : Option Rat) :
    String :=
  userId ++ ":" ++ scope ++ ":" ++ (lat.map env.toFixed2).getD "na" ++ ":" ++
    (lng.map env.toFixed2).getD "na" ++ ":" ++ utcHourBucketId env env.now

structure RankedCandidate (α : Type) where
  baseScore : Rat
  id : Id
  item : α

structure ScoredCandidate (α : Type) extends RankedCandidate α where
  score : Rat

structure DynamicRankingOptions where
  bucketHours : Option Nat := none
  jitterRatio : Option Rat := none
  maxJitter : Option Rat := none
  seed : String
  topWindow : Option Nat := none

variable {α : Type}

/-! ## Jitter -/

def stableUnitInterval (env : ContentEnv) (seed : String) : Rat :=
  env.sha256Prefix seed / 0xffffffff

/-- The hash is `stableUnitInterval`. -/
def computeStableJitter (hash : String → Rat) (seed : String) (span : Rat) : Rat :=
  if span ≤ 0 then 0 else (hash seed * 2 - 1) * span

def resolveJitterSpan (baseScore : Rat) (options : DynamicRankingOptions) : Rat :=
  min (options.maxJitter.getD 14) (max 4 (|baseScore| * options.jitterRatio.getD (8 / 100)))

/-! ## Sorting -/

/-- `b.baseScore - a.baseScore || a.id.localeCompare(b.id)`, not positive. -/
def byBaseScore (env : ContentEnv) (a b : RankedCandidate α) : Prop :=
  b.baseScore < a.baseScore ∨ (a.baseScore = b.baseScore ∧ env.localeCompare a.id b.id ≤ 0)

/-- `b.score - a.score`, and the base score where that is zero. -/
def byScore (env : ContentEnv) (a b : ScoredCandidate α) : Prop :=
  b.score < a.score ∨ (a.score = b.score ∧ byBaseScore env a.toRankedCandidate b.toRankedCandidate)

instance (env : ContentEnv) : DecidableRel (byBaseScore (α := α) env) := fun a b => by
  unfold byBaseScore
  infer_instance

instance (env : ContentEnv) : DecidableRel (byScore (α := α) env) := fun a b => by
  unfold byScore
  infer_instance

def RankedCandidate.withScore (candidate : RankedCandidate α) (score : Rat) : ScoredCandidate α :=
  { candidate with score }

/-- A candidate of the window, with its jitter. -/
def rotated (env : ContentEnv) (hash : String → Rat) (options : DynamicRankingOptions)
    (candidate : RankedCandidate α) : ScoredCandidate α :=
  candidate.withScore (candidate.baseScore + computeStableJitter hash
    (options.seed ++ ":" ++ buildTimeBucket env env.now (options.bucketHours.getD 2) ++ ":" ++
      candidate.id)
    (resolveJitterSpan candidate.baseScore options))

/-- `rankCandidatesWithRotation`, for any hash. -/
def rankCandidatesByHash (env : ContentEnv) (hash : String → Rat)
    (candidates : List (RankedCandidate α)) (options : DynamicRankingOptions) :
    List (ScoredCandidate α) :=
  if candidates.length ≤ 1 then
    candidates.map fun candidate => candidate.withScore candidate.baseScore
  else
    let sorted := candidates.insertionSort (byBaseScore env)
    let topWindow := max 1 (min sorted.length (options.topWindow.getD (max 18 sorted.length)))
    let rotatedTop := ((sorted.take topWindow).map (rotated env hash options)).insertionSort
      (byScore env)
    rotatedTop ++ (sorted.drop topWindow).map fun candidate =>
      candidate.withScore candidate.baseScore

def rankCandidatesWithRotation (env : ContentEnv) (candidates : List (RankedCandidate α))
    (options : DynamicRankingOptions) : List (ScoredCandidate α) :=
  rankCandidatesByHash env (stableUnitInterval env) candidates options

/-! ## What a ranking keeps -/

section keeps

variable {env : ContentEnv} {options : DynamicRankingOptions} {candidates : List (RankedCandidate α)}

/-- A ranking loses no candidate and adds none. -/
theorem rankCandidatesWithRotation_perm (env : ContentEnv) (options : DynamicRankingOptions)
    (candidates : List (RankedCandidate α)) :
    ((rankCandidatesWithRotation env candidates options).map (·.item)).Perm
      (candidates.map (·.item)) := by
  unfold rankCandidatesWithRotation rankCandidatesByHash
  split
  · rw [List.map_map]
    exact List.Perm.refl _
  · dsimp only
    generalize max 1 _ = window
    have hsorted := (List.perm_insertionSort (byBaseScore env) candidates).map (·.item)
    have htop := (List.perm_insertionSort (byScore env)
      (((candidates.insertionSort (byBaseScore env)).take window).map
        (rotated env (stableUnitInterval env) options))).map
        (·.item)
    rw [List.map_append, List.map_map]
    refine (htop.append_right _).trans ?_
    rw [List.map_map]
    refine List.Perm.trans (List.Perm.of_eq ?_) hsorted
    rw [← List.take_append_drop window (candidates.insertionSort (byBaseScore env)),
      List.map_append]
    simp [Function.comp_def, rotated, RankedCandidate.withScore]

theorem length_rankCandidatesWithRotation :
    (rankCandidatesWithRotation env candidates options).length = candidates.length := by
  have hlength := (rankCandidatesWithRotation_perm env options candidates).length_eq
  simpa using hlength

/-- With every candidate in the window, the order is that of two stable sorts. -/
theorem rankCandidatesWithRotation_whole
    (hwindow : candidates.length ≤ options.topWindow.getD (max 18 candidates.length)) :
    (rankCandidatesWithRotation env candidates options).map (·.item) =
      (((candidates.insertionSort (byBaseScore env)).map
        (rotated env (stableUnitInterval env) options)).insertionSort (byScore env)).map (·.item) := by
  unfold rankCandidatesWithRotation rankCandidatesByHash
  split
  · rename_i hshort
    cases candidates with
    | nil => rfl
    | cons c cs =>
        have hnil : cs = [] := List.eq_nil_of_length_eq_zero (by simpa using hshort)
        subst hnil
        rfl
  · have hlength : (candidates.insertionSort (byBaseScore env)).length = candidates.length :=
      List.length_insertionSort _ _
    have hall : max 1 (min candidates.length (options.topWindow.getD
        (max 18 candidates.length))) = candidates.length := by omega
    dsimp only
    rw [hlength, hall, List.take_of_length_le hlength.le, List.drop_of_length_le hlength.le]
    simp

end keeps

/-- What sorting by names relies on: `localeCompare` never ranks in circles. -/
structure Collates (localeCompare : String → String → Int) : Prop where
  total : ∀ a b, localeCompare a b ≤ 0 ∨ localeCompare b a ≤ 0
  trans : ∀ a b c, localeCompare a b ≤ 0 → localeCompare b c ≤ 0 → localeCompare a c ≤ 0

/-- The order of plain ids. -/
def compareCodePoints (a b : String) : Int := if a < b then -1 else if b < a then 1 else 0

theorem compareCodePoints_nonpos {a b : String} : compareCodePoints a b ≤ 0 ↔ a ≤ b := by
  unfold compareCodePoints
  split
  · rename_i hlt
    simp [le_of_lt hlt]
  · split
    · rename_i hgt
      simp [not_le_of_gt hgt]
    · rename_i hge
      simp [le_of_not_gt hge]

theorem collates_compareCodePoints : Collates compareCodePoints where
  total a b := by
    rw [compareCodePoints_nonpos, compareCodePoints_nonpos]
    exact le_total a b
  trans a b c := by
    rw [compareCodePoints_nonpos, compareCodePoints_nonpos, compareCodePoints_nonpos]
    exact le_trans

section order

variable {env : ContentEnv} (horder : Collates env.localeCompare)

include horder

theorem byBaseScore_total (a b : RankedCandidate α) :
    byBaseScore env a b ∨ byBaseScore env b a := by
  rcases lt_trichotomy a.baseScore b.baseScore with hlt | heq | hgt
  · exact .inr (.inl hlt)
  · rcases horder.total a.id b.id with hab | hba
    · exact .inl (.inr ⟨heq, hab⟩)
    · exact .inr (.inr ⟨heq.symm, hba⟩)
  · exact .inl (.inl hgt)

theorem byBaseScore_trans (a b c : RankedCandidate α) (hab : byBaseScore env a b)
    (hbc : byBaseScore env b c) : byBaseScore env a c := by
  rcases hab with hab | ⟨hab, hid⟩
  · rcases hbc with hbc | ⟨hbc, -⟩
    · exact .inl (hbc.trans hab)
    · exact .inl (hbc ▸ hab)
  · rcases hbc with hbc | ⟨hbc, hid'⟩
    · exact .inl (hab ▸ hbc)
    · exact .inr ⟨hab.trans hbc, horder.trans _ _ _ hid hid'⟩

theorem byScore_total (a b : ScoredCandidate α) : byScore env a b ∨ byScore env b a := by
  rcases lt_trichotomy a.score b.score with hlt | heq | hgt
  · exact .inr (.inl hlt)
  · rcases byBaseScore_total horder a.toRankedCandidate b.toRankedCandidate with hab | hba
    · exact .inl (.inr ⟨heq, hab⟩)
    · exact .inr (.inr ⟨heq.symm, hba⟩)
  · exact .inl (.inl hgt)

theorem byScore_trans (a b c : ScoredCandidate α) (hab : byScore env a b)
    (hbc : byScore env b c) : byScore env a c := by
  rcases hab with hab | ⟨hab, hbase⟩
  · rcases hbc with hbc | ⟨hbc, -⟩
    · exact .inl (hbc.trans hab)
    · exact .inl (hbc ▸ hab)
  · rcases hbc with hbc | ⟨hbc, hbase'⟩
    · exact .inl (hab ▸ hbc)
    · exact .inr ⟨hab.trans hbc, byBaseScore_trans horder _ _ _ hbase hbase'⟩

/-- Ranked whole, some of the candidates keep the order they have among all. -/
theorem rankCandidatesWithRotation_sublist {options options' : DynamicRankingOptions}
    {some all : List (RankedCandidate α)} (hsub : some.Sublist all)
    (hsome : some.length ≤ options.topWindow.getD (max 18 some.length))
    (hall : all.length ≤ options'.topWindow.getD (max 18 all.length))
    (hrotated : rotated env (stableUnitInterval env) options =
      rotated (α := α) env (stableUnitInterval env) options') :
    ((rankCandidatesWithRotation env some options).map (·.item)).Sublist
      ((rankCandidatesWithRotation env all options').map (·.item)) := by
  rw [rankCandidatesWithRotation_whole hsome, rankCandidatesWithRotation_whole hall, hrotated]
  have hbase := Collections.insertionSort_sublist (byBaseScore_total horder)
    (byBaseScore_trans horder) hsub
  have hscored := Collections.insertionSort_sublist (byScore_total horder) (byScore_trans horder)
    (hbase.map (rotated env (stableUnitInterval env) options'))
  exact hscored.map _

end order

end Feca.Content
