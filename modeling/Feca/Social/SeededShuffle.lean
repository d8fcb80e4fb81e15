import Feca.Collections.Shuffle
import Mathlib.Algebra.Order.Field.Basic
import Mathlib.Algebra.Order.Floor.Defs
import Mathlib.Data.Rat.Floor

/-! # A shuffle by a seeded generator

`shuffleDeterministic` takes its picks from a generator of thirty-two bits, which
is seeded from a hash. Whatever the generator has come to, it gives a fraction
below one, and so a position up to the current one.
-/

namespace Feca.Social

open Collections

/-! ## The generator -/

/-- A whole number as the runtime's numbers hold it: as it is below `2 ^ 53`, and
rounded to the next of their steps from there on. -/
def toNumber (n : Nat) : Nat :=
  let step := 2 ^ (n.log2 + 1 - 53)
  let low := n % step
  if low * 2 < step ∨ (low * 2 = step ∧ n / step % 2 = 0) then n - low else n - low + step

/-- What is left of the seed, and the number given. -/
def mulberry32 (seed : Nat) : Nat × Rat :=
  let seed := toNumber (seed + 0x6d2b79f5)
  let t := UInt32.ofNat seed
  let t := (t ^^^ (t >>> 15)) * (t ||| 1)
  let t := t ^^^ (t + (t ^^^ (t >>> 7)) * (t ||| 61))
  (seed, ((t ^^^ (t >>> 14)).toNat : Rat) / 4294967296)

/-- A word divided by the number of words. -/
theorem unit_of_word (t : UInt32) : 0 ≤ (t.toNat : Rat) / 4294967296 ∧
    (t.toNat : Rat) / 4294967296 < 1 := by
  have hpos : (0 : Rat) < 4294967296 := by norm_num
  have hlt : (t.toNat : Rat) < 4294967296 := by exact_mod_cast t.toNat_lt
  exact ⟨div_nonneg (Nat.cast_nonneg _) hpos.le, (div_lt_one hpos).mpr hlt⟩

theorem mulberry32_unit (seed : Nat) : 0 ≤ (mulberry32 seed).2 ∧ (mulberry32 seed).2 < 1 :=
  unit_of_word _

/-! ## The shuffle -/

abbrev Sha256 := Vector UInt8 32

/-- `hash.readUInt32BE(offset)`; behind the offset 28 it would throw. -/
def readUInt32BE (hash : Sha256) (offset : Fin 29) : UInt32 :=
  UInt32.ofNat (((hash[offset.val].toNat * 256 + hash[offset.val + 1].toNat) * 256 +
    hash[offset.val + 2].toNat) * 256 + hash[offset.val + 3].toNat)

def shuffleHashSeed (hash : Sha256) : Nat :=
  (readUInt32BE hash 0 ^^^ readUInt32BE hash 4 ^^^ readUInt32BE hash 8).toNat

/-- `Math.floor(rnd() * (i + 1))`. -/
def randomPick {α : Type} (_ : α) (i : Nat) (seed : Nat) : Int × Nat :=
  let (seed, rnd) := mulberry32 seed
  ((rnd * (i + 1)).floor, seed)

def shuffleDeterministic {α : Type} (sha256 : String → Sha256) (items : List α)
    (seedMaterial : String) : Option (List α) :=
  shuffleWith randomPick (shuffleHashSeed (sha256 seedMaterial)) items

example : shuffleWith randomPick 12345 [1, 2, 3, 4, 5, 6] = some [1, 4, 3, 5, 2, 6] := by
  decide +kernel

theorem randomPick_below {α : Type} : PicksBelow (randomPick (α := α)) := by
  intro x i seed
  obtain ⟨hpos, hlt⟩ := mulberry32_unit seed
  have hturn : (0 : Rat) < (i : Rat) + 1 := by exact_mod_cast Nat.succ_pos i
  have hproduct : (mulberry32 seed).2 * ((i : Rat) + 1) < (i : Rat) + 1 :=
    mul_lt_of_lt_one_left hturn hlt
  constructor
  · exact Rat.le_floor_iff.mpr (by exact_mod_cast mul_nonneg hpos hturn.le)
  · have hfloor : ((mulberry32 seed).2 * ((i : Rat) + 1)).floor < (i : Int) + 1 := by
      rw [Rat.floor_lt_iff]
      exact_mod_cast hproduct
    exact Int.lt_add_one_iff.mp hfloor

end Feca.Social
