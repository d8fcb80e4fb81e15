import Mathlib.Data.List.Basic

/-! # A quota

Some entries of a list are counted, and once enough of them have passed, only
the exempt ones still pass. Entries that are not counted pass always.
-/

namespace Collections

section quota

variable {α : Type} (counted exempt : α → Bool) (cap : Nat)

/-- What passes, after `count` counted entries. -/
def underQuota : Nat → List α → List α
  | _, [] => []
  | count, x :: xs =>
    if counted x && !exempt x && decide (cap ≤ count) then underQuota count xs
    else x :: underQuota (if counted x then count + 1 else count) xs

/-- No counted entry stands behind a full quota, unless it is exempt. -/
def WithinQuota (xs : List α) : Prop :=
  ∀ front x rest, xs = front ++ x :: rest → counted x = true →
    exempt x = true ∨ front.countP counted < cap

variable {counted exempt cap}

theorem underQuota_sublist (count : Nat) (xs : List α) :
    (underQuota counted exempt cap count xs).Sublist xs := by
  induction xs generalizing count with
  | nil => exact List.Sublist.refl _
  | cons x xs ih =>
    rw [underQuota]
    split
    · exact (ih count).cons x
    · exact (ih _).cons_cons x

theorem mem_underQuota_of_uncounted {count : Nat} {x : α} {xs : List α} (h : x ∈ xs)
    (hx : counted x = false) : x ∈ underQuota counted exempt cap count xs := by
  induction xs generalizing count with
  | nil => cases h
  | cons y xs ih =>
    rw [underQuota]
    cases List.mem_cons.mp h with
    | inl hy =>
      subst hy
      simp [hx]
    | inr hxs =>
      split
      · exact ih hxs
      · exact List.mem_cons_of_mem y (ih hxs)

/-- After `count` entries, everything passes if the quota holds behind them. -/
theorem underQuota_eq_self_iff_from (count : Nat) (xs : List α) :
    underQuota counted exempt cap count xs = xs ↔
      ∀ front x rest, xs = front ++ x :: rest → counted x = true →
        exempt x = true ∨ count + front.countP counted < cap := by
  induction xs generalizing count with
  | nil => simp [underQuota]
  | cons y xs ih =>
    rw [underQuota]
    by_cases hover : (counted y && !exempt y && decide (cap ≤ count)) = true
    · rw [if_pos hover]
      constructor
      · intro heq
        have hsub : (underQuota counted exempt cap count xs).Sublist xs :=
          underQuota_sublist count xs
        have hlength := hsub.length_le
        rw [heq, List.length_cons] at hlength
        omega
      · intro hwithin
        simp only [Bool.and_eq_true, Bool.not_eq_true', decide_eq_true_eq] at hover
        have hroom : count + 0 < cap := by
          cases hwithin [] y xs rfl hover.1.1 with
          | inl hexempt => exact absurd hexempt (by simp [hover.1.2])
          | inr hroom => exact hroom
        omega
    · rw [if_neg hover, List.cons_inj_right, ih]
      have hcount : ∀ front, (if counted y then count + 1 else count) + front.countP counted =
          count + (y :: front).countP counted := by
        intro front
        rw [List.countP_cons]
        split <;> omega
      constructor
      · intro hwithin front x rest heq hx
        cases front with
        | nil =>
          obtain ⟨rfl, rfl⟩ := List.cons.inj heq
          rw [List.countP_nil, Nat.add_zero]
          by_contra hnot
          rw [not_or, Nat.not_lt] at hnot
          apply hover
          simp [hx, hnot.1, hnot.2]
        | cons z front =>
          obtain ⟨rfl, rfl⟩ := List.cons.inj heq
          rw [← hcount]
          exact hwithin front x rest rfl hx
      · intro hwithin front x rest heq hx
        rw [hcount]
        exact hwithin (y :: front) x rest (by rw [heq, List.cons_append]) hx

theorem underQuota_eq_self_iff (xs : List α) :
    underQuota counted exempt cap 0 xs = xs ↔ WithinQuota counted exempt cap xs := by
  rw [underQuota_eq_self_iff_from]
  simp only [Nat.zero_add, WithinQuota]

theorem underQuota_length_iff (xs : List α) :
    xs.length ≤ (underQuota counted exempt cap 0 xs).length ↔
      WithinQuota counted exempt cap xs := by
  rw [← underQuota_eq_self_iff]
  constructor
  · intro hlength
    exact (underQuota_sublist 0 xs).eq_of_length_le hlength
  · intro heq
    exact Nat.le_of_eq (congrArg List.length heq).symm

/-- Of a prefix, the quota asks only about the entries in it. -/
theorem withinQuota_take_iff {n : Nat} {xs : List α} :
    WithinQuota counted exempt cap (xs.take n) ↔
      ∀ front x rest, xs = front ++ x :: rest → front.length < n → counted x = true →
        exempt x = true ∨ front.countP counted < cap := by
  constructor
  · intro hwithin front x rest heq hn
    obtain ⟨more, rfl⟩ := Nat.exists_eq_add_of_lt hn
    refine hwithin front x (rest.take more) ?_
    rw [heq, Nat.add_assoc, List.take_length_add_append, List.take_succ_cons]
  · intro hwithin front x rest heq
    have hshorter : (front ++ x :: rest).length ≤ n := by
      rw [← heq]
      exact List.length_take_le n xs
    rw [List.length_append, List.length_cons] at hshorter
    refine hwithin front x (rest ++ xs.drop n) ?_ (by omega)
    rw [← List.cons_append, ← List.append_assoc, ← heq, List.take_append_drop]

theorem underQuota_append (count : Nat) (xs ys : List α) :
    underQuota counted exempt cap count (xs ++ ys) = underQuota counted exempt cap count xs ++
      underQuota counted exempt cap
        (count + (underQuota counted exempt cap count xs).countP counted) ys := by
  induction xs generalizing count with
  | nil => simp [underQuota]
  | cons x xs ih =>
    rw [List.cons_append, underQuota, underQuota]
    split
    · exact ih count
    · rw [ih, List.cons_append, List.countP_cons]
      have hcount : (if counted x then count + 1 else count) = count + if counted x then 1 else 0 := by
        split <;> rfl
      rw [hcount, Nat.add_assoc, Nat.add_comm (List.countP _ _)]

/-- A list that is no longer than the quota passes as a whole. -/
theorem underQuota_eq_self_of_length {xs : List α} (h : xs.length ≤ cap) :
    underQuota counted exempt cap 0 xs = xs := by
  rw [underQuota_eq_self_iff]
  intro front x rest heq _
  right
  have hfront := List.countP_le_length (p := counted) (l := front)
  rw [heq, List.length_append, List.length_cons] at h
  omega

/-- Of the counted entries that are not exempt, the quota lets no more pass than it has left. -/
theorem countP_underQuota_le (count : Nat) (xs : List α) :
    (underQuota counted exempt cap count xs).countP (fun x => counted x && !exempt x) ≤
      cap - count := by
  induction xs generalizing count with
  | nil => simp [underQuota]
  | cons x xs ih =>
    rw [underQuota]
    by_cases hover : (counted x && !exempt x && decide (cap ≤ count)) = true
    · rw [if_pos hover]
      exact ih count
    · rw [if_neg hover, List.countP_cons]
      by_cases hlimited : (counted x && !exempt x) = true
      · have hroom : count < cap := by
          by_contra hfull
          exact hover (by simp [hlimited, Nat.le_of_not_lt hfull])
        have hcounted : counted x = true := (Bool.and_eq_true_iff.mp hlimited).1
        have hlater := ih (count + 1)
        rw [if_pos hcounted, if_pos hlimited]
        omega
      · have hlater := ih (if counted x then count + 1 else count)
        have hmore : count ≤ if counted x then count + 1 else count := by
          split <;> omega
        rw [if_neg hlimited]
        omega

end quota

end Collections
