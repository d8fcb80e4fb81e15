import Feca.Collections.OrderedMap
import Mathlib.Algebra.BigOperators.Group.List.Basic
import Mathlib.Algebra.GroupWithZero.Nat

/-! # Counting what each key is worth

A tally adds up the weights that come with a key. Whatever the order in which the
entries came, it holds the same total for each of them.
-/

namespace Collections

open OrderedMap

variable {κ : Type} [DecidableEq κ]

/-- One more entry. -/
def addWeight (totals : OrderedMap κ Nat) (entry : κ × Nat) : OrderedMap κ Nat :=
  totals.set entry.1 ((totals.get entry.1).getD 0 + entry.2)

def tally (entries : List (κ × Nat)) : OrderedMap κ Nat := entries.foldl addWeight .empty

/-- What the entries say of a key, added up. -/
def weightOf (entries : List (κ × Nat)) (k : κ) : Nat :=
  ((entries.filter fun entry => entry.1 = k).map Prod.snd).sum

variable {entries : List (κ × Nat)} {k : κ}

omit [DecidableEq κ] in
@[simp] theorem weightOf_nil [DecidableEq κ] (k : κ) : weightOf ([] : List (κ × Nat)) k = 0 := rfl

theorem weightOf_cons (entry : κ × Nat) (entries : List (κ × Nat)) (k : κ) :
    weightOf (entry :: entries) k =
      (if entry.1 = k then entry.2 else 0) + weightOf entries k := by
  unfold weightOf
  by_cases hk : entry.1 = k
  · simp [hk]
  · simp [hk]

theorem weightOf_pos_iff : 0 < weightOf entries k ↔ ∃ weight, 0 < weight ∧ (k, weight) ∈ entries := by
  induction entries with
  | nil => simp
  | cons entry entries ih =>
    rw [weightOf_cons, Nat.add_pos_iff_pos_or_pos, ih]
    constructor
    · rintro (hfirst | ⟨weight, hpos, hmem⟩)
      · by_cases hk : entry.1 = k
        · rw [if_pos hk] at hfirst
          exact ⟨entry.2, hfirst, by simp [← hk]⟩
        · rw [if_neg hk] at hfirst
          omega
      · exact ⟨weight, hpos, List.mem_cons_of_mem _ hmem⟩
    · rintro ⟨weight, hpos, hmem⟩
      rcases List.mem_cons.mp hmem with rfl | hmem
      · left
        simpa using hpos
      · exact .inr ⟨weight, hpos, hmem⟩

/-- A tally continues where it stands. -/
theorem get_foldl_addWeight (totals : OrderedMap κ Nat) (entries : List (κ × Nat)) (k : κ) :
    ((entries.foldl addWeight totals).get k).getD 0 =
      (totals.get k).getD 0 + weightOf entries k := by
  induction entries generalizing totals with
  | nil => rfl
  | cons entry entries ih =>
    rw [List.foldl_cons, ih, addWeight, get_set, weightOf_cons]
    by_cases hk : entry.1 = k
    · simp only [hk, if_true, Option.getD_some]
      omega
    · rw [if_neg (Ne.symm hk), if_neg hk]
      omega

theorem getD_tally (entries : List (κ × Nat)) (k : κ) :
    ((tally entries).get k).getD 0 = weightOf entries k := by
  unfold tally
  rw [get_foldl_addWeight]
  simp

/-- Every key that was counted is held, and no other. -/
theorem mem_keys_tally : k ∈ (tally entries).keys ↔ k ∈ entries.map Prod.fst := by
  have hkeys : ∀ totals : OrderedMap κ Nat, k ∈ (entries.foldl addWeight totals).keys ↔
      k ∈ totals.keys ∨ k ∈ entries.map Prod.fst := by
    induction entries with
    | nil => simp
    | cons entry entries ih =>
      intro totals
      rw [List.foldl_cons, ih, ← has_iff_mem_keys, addWeight, has_set, List.map_cons,
        List.mem_cons, Bool.or_eq_true, decide_eq_true_eq, has_iff_mem_keys]
      tauto
  rw [tally, hkeys]
  simp [OrderedMap.empty, keys]

theorem mem_entries_iff {α : Type} {m : OrderedMap κ α} {a : α} :
    (k, a) ∈ m.entries ↔ m.get k = some a := by
  have hfind : ∀ entries : List (κ × α), (entries.map Prod.fst).Nodup →
      ((k, a) ∈ entries ↔ find k entries = some a) := by
    intro entries hdistinct
    induction entries with
    | nil => simp [find]
    | cons entry entries ih =>
      rw [List.map_cons, List.nodup_cons] at hdistinct
      by_cases hk : entry.1 = k
      · rw [find, if_pos hk]
        constructor
        · intro hmem
          rcases List.mem_cons.mp hmem with heq | hmem
          · rw [← heq]
          · exact absurd (hk ▸ List.mem_map_of_mem (f := Prod.fst) hmem) hdistinct.1
        · intro heq
          have hentry : entry = (k, a) := Prod.ext hk (Option.some.inj heq)
          rw [hentry]
          exact List.mem_cons_self
      · rw [find, if_neg hk, ← ih hdistinct.2, List.mem_cons]
        constructor
        · rintro (heq | hmem)
          · exact absurd (congrArg Prod.fst heq).symm hk
          · exact hmem
        · exact .inr
  exact hfind m.entries m.distinct

/-- An entry of a tally is a key that was counted, with its total. -/
theorem mem_entries_tally {total : Nat} : (k, total) ∈ (tally entries).entries ↔
    k ∈ entries.map Prod.fst ∧ total = weightOf entries k := by
  have htotal := getD_tally entries k
  rw [mem_entries_iff, ← mem_keys_tally, ← has_iff_mem_keys, has]
  cases hget : (tally entries).get k with
  | none => simp
  | some found =>
    rw [hget, Option.getD_some] at htotal
    simp only [Option.some.injEq, Option.isSome_some, true_and]
    rw [htotal]
    exact eq_comm

end Collections
