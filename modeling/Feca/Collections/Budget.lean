import Mathlib.Data.List.Basic

/-! # A budget that only successes reduce

Attempts are made one after the other until a number of them have succeeded.
Each attempt costs the same, but a failed one is not charged.
-/

namespace Collections

/-- How many of the attempts are made, when `r` more may succeed. -/
def spent : Nat → List Bool → Nat
  | _, [] => 0
  | 0, _ :: _ => 0
  | r + 1, true :: attempts => spent r attempts + 1
  | r + 1, false :: attempts => spent (r + 1) attempts + 1

@[simp] theorem spent_nil (r : Nat) : spent r [] = 0 := by
  cases r <;> rfl

@[simp] theorem spent_zero (attempts : List Bool) : spent 0 attempts = 0 := by
  cases attempts <;> rfl

theorem spent_le_length (r : Nat) (attempts : List Bool) : spent r attempts ≤ attempts.length := by
  induction attempts generalizing r with
  | nil => simp
  | cons b attempts ih =>
      cases r with
      | zero => simp
      | succ r =>
          have hsame := ih (r + 1)
          have hless := ih r
          cases b with
          | true =>
              rw [spent, List.length_cons]
              omega
          | false =>
              rw [spent, List.length_cons]
              omega

theorem spent_cons {r : Nat} (hr : 0 < r) (b : Bool) (attempts : List Bool) :
    spent r (b :: attempts) = 1 + spent (r - if b then 1 else 0) attempts := by
  cases r with
  | zero => cases hr
  | succ r => cases b <;> exact Nat.add_comm _ _

/-- One step of who makes the attempts: whether there is something to attempt,
and what came of it. -/
theorem spent_step (due b : Bool) (r : Nat) (attempts : List Bool) :
    (if due && decide (0 < r) then 1 else 0) +
        spent (r - if due && decide (0 < r) && b then 1 else 0) attempts =
      spent r (if due then b :: attempts else attempts) := by
  cases due with
  | false => simp
  | true =>
      by_cases hr : 0 < r
      · simp [spent_cons hr, hr]
      · have hzero : r = 0 := by omega
        simp [hzero]

/-- Without enough attempts to exhaust the budget, all are made. -/
theorem min_le_spent (r : Nat) (attempts : List Bool) :
    min r attempts.length ≤ spent r attempts := by
  induction attempts generalizing r with
  | nil => simp
  | cons b attempts ih =>
      cases r with
      | zero => simp
      | succ r =>
          have hsame := ih (r + 1)
          have hless := ih r
          cases b with
          | true =>
              rw [spent, List.length_cons]
              omega
          | false =>
              rw [spent, List.length_cons]
              omega

/-- The attempts stay within the budget when there are no more of them, or when
those it allows for all succeed; and only then. -/
theorem spent_le_iff (r : Nat) (attempts : List Bool) : spent r attempts ≤ r ↔
    attempts.length ≤ r ∨ ∀ b ∈ attempts.take r, b = true := by
  induction attempts generalizing r with
  | nil => simp
  | cons b attempts ih =>
      cases r with
      | zero => simp
      | succ r =>
          cases b with
          | true =>
              rw [spent, List.length_cons, List.take_succ_cons, Nat.add_le_add_iff_right, ih]
              simp
          | false =>
              have hle := spent_le_length (r + 1) attempts
              have hmin := min_le_spent (r + 1) attempts
              have hall : spent (r + 1) attempts ≤ r ↔ attempts.length ≤ r := by omega
              rw [spent, List.length_cons, List.take_succ_cons, Nat.add_le_add_iff_right, hall]
              simp

end Collections
