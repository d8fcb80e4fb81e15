import Mathlib.Data.List.Basic

/-! # The first entry of each key

Entries are taken in order; one whose key has been seen before is dropped.
-/

namespace Collections

variable {κ α : Type} [DecidableEq κ]

def firstOfEach : List κ → List (κ × α) → List (κ × α)
  | _, [] => []
  | seen, entry :: entries =>
      if entry.1 ∈ seen then firstOfEach seen entries
      else entry :: firstOfEach (entry.1 :: seen) entries

variable {seen : List κ} {entries : List (κ × α)} {k : κ}

theorem firstOfEach_seen {entry : κ × α} (h : entry.1 ∈ seen) :
    firstOfEach seen (entry :: entries) = firstOfEach seen entries :=
  if_pos h

theorem firstOfEach_new {entry : κ × α} (h : entry.1 ∉ seen) :
    firstOfEach seen (entry :: entries) = entry :: firstOfEach (entry.1 :: seen) entries :=
  if_neg h

theorem firstOfEach_sublist (seen : List κ) (entries : List (κ × α)) :
    (firstOfEach seen entries).Sublist entries := by
  induction entries generalizing seen with
  | nil => exact List.Sublist.refl _
  | cons entry entries ih =>
      unfold firstOfEach
      split
      · exact (ih seen).cons entry
      · exact (ih (entry.1 :: seen)).cons_cons entry

/-- What is kept is new, and every new key is kept. -/
theorem mem_keys_firstOfEach : k ∈ (firstOfEach seen entries).map Prod.fst ↔
    k ∈ entries.map Prod.fst ∧ k ∉ seen := by
  induction entries generalizing seen with
  | nil => simp [firstOfEach]
  | cons entry entries ih =>
      unfold firstOfEach
      by_cases hseen : entry.1 ∈ seen
      · rw [if_pos hseen, ih, List.map_cons, List.mem_cons]
        constructor
        · rintro ⟨hlater, hnew⟩
          exact ⟨.inr hlater, hnew⟩
        · rintro ⟨rfl | hlater, hnew⟩
          · exact absurd hseen hnew
          · exact ⟨hlater, hnew⟩
      · rw [if_neg hseen, List.map_cons, List.mem_cons, ih, List.map_cons, List.mem_cons,
          List.mem_cons]
        by_cases hfirst : k = entry.1
        · simp [hfirst, hseen]
        · simp [hfirst]

theorem nodup_keys_firstOfEach (seen : List κ) (entries : List (κ × α)) :
    ((firstOfEach seen entries).map Prod.fst).Nodup := by
  induction entries generalizing seen with
  | nil => exact List.nodup_nil
  | cons entry entries ih =>
      unfold firstOfEach
      split
      · exact ih seen
      · rw [List.map_cons, List.nodup_cons]
        refine ⟨fun hmem => ?_, ih (entry.1 :: seen)⟩
        exact (mem_keys_firstOfEach.mp hmem).2 List.mem_cons_self

/-- An entry is kept, and so early, if no key is its own before it and few are kept before. -/
theorem mem_take_firstOfEach {n : Nat} {entry : κ × α} :
    entry ∈ (firstOfEach seen entries).take n ↔ ∃ before after,
      entries = before ++ entry :: after ∧ entry.1 ∉ seen ∧ entry.1 ∉ before.map Prod.fst ∧
        (firstOfEach seen before).length < n := by
  induction entries generalizing seen n with
  | nil => simp [firstOfEach]
  | cons first entries ih =>
      by_cases hseen : first.1 ∈ seen
      · rw [firstOfEach_seen hseen, ih]
        constructor
        · rintro ⟨before, after, rfl, hnew, hfirst, hfew⟩
          refine ⟨first :: before, after, rfl, hnew, ?_, by rwa [firstOfEach_seen hseen]⟩
          rw [List.map_cons, List.mem_cons, not_or]
          exact ⟨fun heq => hnew (heq ▸ hseen), hfirst⟩
        · rintro ⟨before, after, heq, hnew, hfirst, hfew⟩
          cases before with
          | nil =>
              obtain ⟨rfl, -⟩ := List.cons.inj heq
              exact absurd hseen hnew
          | cons other before =>
              obtain ⟨rfl, rfl⟩ := List.cons.inj heq
              rw [firstOfEach_seen hseen] at hfew
              rw [List.map_cons, List.mem_cons, not_or] at hfirst
              exact ⟨before, after, rfl, hnew, hfirst.2, hfew⟩
      · rw [firstOfEach_new hseen]
        cases n with
        | zero => simp
        | succ n =>
            rw [List.take_succ_cons, List.mem_cons, ih]
            constructor
            · rintro (rfl | ⟨before, after, rfl, hnew, hfirst, hfew⟩)
              · exact ⟨[], entries, rfl, hseen, List.not_mem_nil, Nat.succ_pos n⟩
              · rw [List.mem_cons, not_or] at hnew
                refine ⟨first :: before, after, rfl, hnew.2, ?_, ?_⟩
                · rw [List.map_cons, List.mem_cons, not_or]
                  exact ⟨hnew.1, hfirst⟩
                · rw [firstOfEach_new hseen]
                  exact Nat.succ_lt_succ hfew
            · rintro ⟨before, after, heq, hnew, hfirst, hfew⟩
              cases before with
              | nil => exact .inl (List.cons.inj heq).1.symm
              | cons other before =>
                  obtain ⟨rfl, rfl⟩ := List.cons.inj heq
                  rw [firstOfEach_new hseen] at hfew
                  rw [List.map_cons, List.mem_cons, not_or] at hfirst
                  refine .inr ⟨before, after, rfl, ?_, hfirst.2, Nat.lt_of_succ_lt_succ hfew⟩
                  exact List.not_mem_cons_of_ne_of_not_mem hfirst.1 hnew

end Collections
