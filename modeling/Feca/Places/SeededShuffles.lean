import Feca.Places.NearbyPool
import Feca.Social.SeededShuffle

/-! # Seeded shuffles lose nothing

The pool of a nearby list is shuffled by hashes of its places, the people to
follow by a generator. In both the position picked never lies behind the current
one.
-/

namespace Feca.Places

open Collections Content Social

/-- `Number.parseInt(h, 16) % (i + 1)`; nothing is handed on to the next turn. -/
def hashPick (env : PoolEnv) (seed : String) (place : GooglePlaceSummary) (i : Nat) (_ : Unit) :
    Int × Unit :=
  (((env.sha256Prefix (seed ++ ":" ++ place.googlePlaceId ++ ":" ++ toString i) % (i + 1) : Nat) :
    Int), ())

theorem hashPick_below (env : PoolEnv) (seed : String) : PicksBelow (hashPick env seed) := by
  intro place i _
  unfold hashPick
  dsimp only
  generalize env.sha256Prefix (seed ++ ":" ++ place.googlePlaceId ++ ":" ++ toString i) = hash
  have hlt : hash % (i + 1) < i + 1 := Nat.mod_lt hash (Nat.succ_pos i)
  omega

theorem shuffleFrom_eq (env : PoolEnv) (seed : String) {i : Nat} {arr : Array GooglePlaceSummary}
    (hi : i < arr.size) :
    shuffleDown (hashPick env seed) i () arr = some (shuffleFrom env seed i arr) := by
  induction i generalizing arr with
  | zero => rfl
  | succ i ih =>
    obtain ⟨hpos, hle⟩ := hashPick_below env seed arr[i + 1] (i + 1) ()
    have hstep : shuffleStep env seed (i + 1) arr =
        arr.swapIfInBounds (i + 1) (hashPick env seed arr[i + 1] (i + 1) ()).1.toNat := by
      rw [shuffleStep, Array.getElem?_eq_getElem hi]
      rfl
    have hsize : i < (shuffleStep env seed (i + 1) arr).size := by
      rw [(shuffleStep_perm env seed (i + 1) arr).size_eq]
      omega
    rw [shuffleDown, Array.getElem?_eq_getElem hi, Option.bind_some, exchange_eq hi hpos hle,
      Option.bind_some, ← hstep, shuffleFrom]
    exact ih hsize

/-- No exchange of the shuffle leaves the array. -/
theorem stableShuffle_eq (env : PoolEnv) (items : List GooglePlaceSummary) (seed : String) :
    shuffleWith (hashPick env seed) () items = some (stableShuffleGooglePlaces env items seed) := by
  unfold shuffleWith stableShuffleGooglePlaces
  split
  · rfl
  · have hsize : items.length - 1 < items.toArray.size := by
      rw [List.size_toArray]
      omega
    rw [shuffleFrom_eq env seed hsize, Option.map_some]

/-- Both shuffles return what they were given in some order, whatever the hashes:
every pick is a position up to the current one, and the generator gives
fractions below one. -/
theorem seeded_shuffles_permute (env : PoolEnv) (sha256 : String → Sha256) :
    (∀ (items : List GooglePlaceSummary) (seed : String),
      shuffleWith (hashPick env seed) () items = some (stableShuffleGooglePlaces env items seed) ∧
        (stableShuffleGooglePlaces env items seed).Perm items) ∧
    (∀ (α : Type) (items : List α) (seedMaterial : String),
      ∃ shuffled, shuffleDeterministic sha256 items seedMaterial = some shuffled ∧
        shuffled.Perm items) ∧
    (∀ (seed : String) (place : GooglePlaceSummary) (i : Nat),
      0 ≤ (hashPick env seed place i ()).1 ∧ (hashPick env seed place i ()).1 ≤ i) ∧
    (∀ (α : Type) (item : α) (i state : Nat),
      0 ≤ (randomPick item i state).1 ∧ (randomPick item i state).1 ≤ i) ∧
    ∀ state : Nat, 0 ≤ (mulberry32 state).2 ∧ (mulberry32 state).2 < 1 := by
  refine ⟨?_, ?_, ?_, ?_, mulberry32_unit⟩
  · intro items seed
    exact ⟨stableShuffle_eq env items seed, stableShuffle_perm env items seed⟩
  · intro α items seedMaterial
    exact shuffleWith_perm randomPick_below _ items
  · intro seed place i
    exact hashPick_below env seed place i ()
  · intro α item i state
    exact randomPick_below item i state

end Feca.Places
