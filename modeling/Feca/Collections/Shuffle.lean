import Mathlib.Data.List.Perm.Basic

/-! # Shuffling an array from its end

Every entry from the last to the second changes places with one that is picked,
from what stands there, the position and a state the picks hand on. Where the
picks stay between the first position and the current one, no exchange leaves
the array, and nothing is lost.
-/

namespace Collections

section shuffle

variable {α σ : Type}

/-- Two entries change places; none where one of the positions is not in the array. -/
def exchange (arr : Array α) (i : Nat) (j : Int) : Option (Array α) :=
  if h : i < arr.size ∧ 0 ≤ j ∧ j.toNat < arr.size then some (arr.swap i j.toNat h.1 h.2.2)
  else none

variable (pick : α → Nat → σ → Int × σ)

/-- The turns from a position down to the second. -/
def shuffleDown : Nat → σ → Array α → Option (Array α)
  | 0, _, arr => some arr
  | i + 1, state, arr =>
      arr[i + 1]?.bind fun x =>
        (exchange arr (i + 1) (pick x (i + 1) state).1).bind
          (shuffleDown i (pick x (i + 1) state).2)

def shuffleWith (state : σ) (items : List α) : Option (List α) :=
  if items.length ≤ 1 then some items
  else (shuffleDown pick (items.length - 1) state items.toArray).map Array.toList

variable {pick}

theorem exchange_eq {arr : Array α} {i : Nat} {j : Int} (hi : i < arr.size) (hpos : 0 ≤ j)
    (hj : j ≤ i) : exchange arr i j = some (arr.swapIfInBounds i j.toNat) := by
  have hbound : j.toNat < arr.size := by omega
  rw [exchange, dif_pos ⟨hi, hpos, hbound⟩, Array.swapIfInBounds, dif_pos hi, dif_pos hbound]

theorem exchange_perm {arr out : Array α} {i : Nat} {j : Int} (h : exchange arr i j = some out) :
    out.Perm arr := by
  unfold exchange at h
  split at h
  · cases h
    exact Array.swap_perm _ _
  · cases h

/-- Every pick is a position up to the current one. -/
def PicksBelow (pick : α → Nat → σ → Int × σ) : Prop :=
  ∀ x i state, 0 ≤ (pick x i state).1 ∧ (pick x i state).1 ≤ i

theorem shuffleDown_perm (hpick : PicksBelow pick) (state : σ) {i : Nat} {arr : Array α}
    (hi : i < arr.size) : ∃ out, shuffleDown pick i state arr = some out ∧ out.Perm arr := by
  induction i generalizing state arr with
  | zero => exact ⟨arr, rfl, Array.Perm.rfl⟩
  | succ i ih =>
    obtain ⟨hpos, hle⟩ := hpick arr[i + 1] (i + 1) state
    have hstep := exchange_eq hi hpos hle
    have hperm := exchange_perm hstep
    have hsize : i < (arr.swapIfInBounds (i + 1)
        (pick arr[i + 1] (i + 1) state).1.toNat).size := by
      rw [hperm.size_eq]
      omega
    obtain ⟨out, hout, hlater⟩ := ih (pick arr[i + 1] (i + 1) state).2 hsize
    refine ⟨out, ?_, hlater.trans hperm⟩
    rw [shuffleDown, Array.getElem?_eq_getElem hi, Option.bind_some, hstep, Option.bind_some, hout]

/-- A shuffle whose picks stay below the current position loses nothing. -/
theorem shuffleWith_perm (hpick : PicksBelow pick) (state : σ) (items : List α) :
    ∃ out, shuffleWith pick state items = some out ∧ out.Perm items := by
  unfold shuffleWith
  split
  · exact ⟨items, rfl, List.Perm.refl items⟩
  · have hsize : items.length - 1 < items.toArray.size := by
      rw [List.size_toArray]
      omega
    obtain ⟨out, hout, hperm⟩ := shuffleDown_perm hpick state hsize
    exact ⟨out.toList, by rw [hout, Option.map_some], Array.perm_iff_toList_perm.mp hperm⟩

end shuffle

end Collections
