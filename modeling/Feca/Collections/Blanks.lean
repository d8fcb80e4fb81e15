import Mathlib.Data.List.Chain

/-! # Words between blanks

Lists over an alphabet with blanks: blanks at the ends trimmed away, runs of them
within collapsed to one. What comes out is in a normal form, words with single
blanks between them, and such a list is left as it is.
-/

namespace Collections

variable {α : Type} (isBlank : α → Bool) (blank : α)

def trimBlanks (xs : List α) : List α :=
  ((xs.dropWhile isBlank).reverse.dropWhile isBlank).reverse

/-- One `blank` for each run of blanks. -/
def collapseBlanks : (inRun : Bool) → List α → List α
  | _, [] => []
  | inRun, x :: xs =>
      if isBlank x then
        if inRun then collapseBlanks true xs else blank :: collapseBlanks true xs
      else x :: collapseBlanks false xs

def squeeze (xs : List α) : List α := collapseBlanks isBlank blank false (trimBlanks isBlank xs)

/-- Neither end is a blank. -/
structure Trimmed (xs : List α) : Prop where
  head : ∀ x ∈ xs.head?, isBlank x = false
  last : ∀ x ∈ xs.getLast?, isBlank x = false

/-- Every run of blanks is one `blank`. -/
structure Collapsed (xs : List α) : Prop where
  only : ∀ x ∈ xs, isBlank x = true → x = blank
  single : xs.IsChain fun a b => isBlank a = true → isBlank b = false

variable {isBlank blank} {xs : List α}

/-! ## Trimming -/

theorem head_dropWhile (xs : List α) : ∀ x ∈ (xs.dropWhile isBlank).head?, isBlank x = false := by
  induction xs with
  | nil => exact nofun
  | cons y ys ih =>
      by_cases hy : isBlank y = true
      · rw [List.dropWhile_cons_of_pos hy]
        exact ih
      · rw [List.dropWhile_cons_of_neg hy]
        intro x hx
        cases hx
        simpa using hy

theorem dropWhile_of_head (h : ∀ x ∈ xs.head?, isBlank x = false) : xs.dropWhile isBlank = xs := by
  cases xs with
  | nil => rfl
  | cons x xs => exact List.dropWhile_cons_of_neg (by simp [h x rfl])

theorem trimBlanks_sublist (xs : List α) : (trimBlanks isBlank xs).Sublist xs := by
  rw [trimBlanks, ← List.reverse_sublist, List.reverse_reverse]
  exact (List.dropWhile_sublist _).trans (List.reverse_sublist.mpr (List.dropWhile_sublist _))

theorem trimBlanks_of_trimmed (h : Trimmed isBlank xs) : trimBlanks isBlank xs = xs := by
  have hlast : ∀ x ∈ xs.reverse.head?, isBlank x = false := by
    rw [List.head?_reverse]
    exact h.last
  rw [trimBlanks, dropWhile_of_head h.head, dropWhile_of_head hlast, List.reverse_reverse]

theorem trimmed_trimBlanks (xs : List α) : Trimmed isBlank (trimBlanks isBlank xs) where
  head := by
    intro x hx
    -- What is left after the second cut is a prefix of what was left after the first.
    have hprefix : trimBlanks isBlank xs <+: xs.dropWhile isBlank := by
      rw [trimBlanks, ← List.reverse_suffix, List.reverse_reverse]
      exact List.dropWhile_suffix _
    obtain ⟨rest, hrest⟩ := hprefix
    apply head_dropWhile xs
    rw [← hrest, List.head?_append, Option.mem_def.mp hx]
    rfl
  last := by
    intro x hx
    rw [trimBlanks, List.getLast?_reverse] at hx
    exact head_dropWhile _ x hx

theorem trimmed_iff : Trimmed isBlank xs ↔ trimBlanks isBlank xs = xs := by
  constructor
  · exact trimBlanks_of_trimmed
  · exact fun h => h ▸ trimmed_trimBlanks xs

/-! ## Collapsing -/

theorem collapseBlanks_of_collapsed (h : Collapsed isBlank blank xs) {inRun : Bool}
    (hhead : inRun = true → ∀ x ∈ xs.head?, isBlank x = false) :
    collapseBlanks isBlank blank inRun xs = xs := by
  induction xs generalizing inRun with
  | nil => rfl
  | cons x xs ih =>
      have hrest : Collapsed isBlank blank xs :=
        ⟨fun y hy => h.only y (List.mem_cons_of_mem _ hy), h.single.tail⟩
      rw [collapseBlanks]
      by_cases hx : isBlank x = true
      · have hfirst : inRun = false := by
          by_contra hrun
          rw [hhead (by simpa using hrun) x rfl] at hx
          cases hx
        have hnext : collapseBlanks isBlank blank true xs = xs :=
          ih hrest fun _ y hy => (List.isChain_cons.mp h.single).1 y hy hx
        rw [if_pos hx, if_neg (by simp [hfirst]), hnext, h.only x List.mem_cons_self hx]
      · have hnext : collapseBlanks isBlank blank false xs = xs := ih hrest nofun
        rw [if_neg hx, hnext]

theorem only_collapseBlanks (inRun : Bool) (xs : List α) :
    ∀ x ∈ collapseBlanks isBlank blank inRun xs, isBlank x = true → x = blank := by
  induction xs generalizing inRun with
  | nil => exact nofun
  | cons y ys ih =>
      rw [collapseBlanks]
      split
      · split
        · exact ih true
        · intro x hx hblank
          rcases List.mem_cons.mp hx with rfl | hx
          · rfl
          · exact ih true x hx hblank
      · rename_i hy
        intro x hx hblank
        rcases List.mem_cons.mp hx with rfl | hx
        · exact absurd hblank hy
        · exact ih false x hx hblank

/-- Within a run no further blank comes out. -/
theorem head_collapseBlanks (xs : List α) :
    ∀ x ∈ (collapseBlanks isBlank blank true xs).head?, isBlank x = false := by
  induction xs with
  | nil => exact nofun
  | cons y ys ih =>
      rw [collapseBlanks]
      split
      · exact ih
      · rename_i hy
        intro x hx
        cases hx
        simpa using hy

theorem single_collapseBlanks (inRun : Bool) (xs : List α) :
    (collapseBlanks isBlank blank inRun xs).IsChain
      fun a b => isBlank a = true → isBlank b = false := by
  induction xs generalizing inRun with
  | nil => exact .nil
  | cons y ys ih =>
      rw [collapseBlanks]
      split
      · split
        · exact ih true
        · exact List.isChain_cons.mpr ⟨fun x hx _ => head_collapseBlanks ys x hx, ih true⟩
      · rename_i hy
        exact List.isChain_cons.mpr ⟨fun x _ hblank => absurd hblank hy, ih false⟩

/-- What is no blank stays, so a last letter stays the last. -/
theorem getLast?_collapseBlanks (inRun : Bool) (h : ∀ x ∈ xs.getLast?, isBlank x = false) :
    (collapseBlanks isBlank blank inRun xs).getLast? = xs.getLast? := by
  induction xs generalizing inRun with
  | nil => rfl
  | cons y ys ih =>
      cases ys with
      | nil =>
          have hy : isBlank y = false := h y rfl
          simp [collapseBlanks, hy]
      | cons z zs =>
          rw [List.getLast?_cons_cons] at h ⊢
          have hsome : (z :: zs).getLast? = some ((z :: zs).getLast (List.cons_ne_nil z zs)) :=
            List.getLast?_eq_some_getLast _
          have hrest := fun run => ih run h
          rw [hsome] at hrest ⊢
          rw [collapseBlanks]
          split
          · split
            · exact hrest true
            · rw [List.getLast?_cons, hrest true, Option.getD_some]
          · rw [List.getLast?_cons, hrest false, Option.getD_some]

theorem trimmed_collapseBlanks (h : Trimmed isBlank xs) :
    Trimmed isBlank (collapseBlanks isBlank blank false xs) where
  head := by
    cases xs with
    | nil => exact nofun
    | cons x xs =>
        have hx : isBlank x = false := h.head x rfl
        rw [collapseBlanks, if_neg (by simp [hx])]
        intro y hy
        cases hy
        exact hx
  last := by
    rw [getLast?_collapseBlanks false h.last]
    exact h.last

/-! ## Both -/

theorem trimmed_squeeze (xs : List α) : Trimmed isBlank (squeeze isBlank blank xs) :=
  trimmed_collapseBlanks (trimmed_trimBlanks xs)

theorem collapsed_squeeze (xs : List α) : Collapsed isBlank blank (squeeze isBlank blank xs) :=
  ⟨only_collapseBlanks false _, single_collapseBlanks false _⟩

theorem squeeze_of_normal (htrimmed : Trimmed isBlank xs) (hcollapsed : Collapsed isBlank blank xs) :
    squeeze isBlank blank xs = xs := by
  rw [squeeze, trimBlanks_of_trimmed htrimmed]
  exact collapseBlanks_of_collapsed hcollapsed nofun

theorem length_collapseBlanks_le (inRun : Bool) (xs : List α) :
    (collapseBlanks isBlank blank inRun xs).length ≤ xs.length := by
  induction xs generalizing inRun with
  | nil => exact Nat.le_refl _
  | cons x xs ih =>
      rw [collapseBlanks]
      split
      · split
        · exact Nat.le_succ_of_le (ih true)
        · exact Nat.succ_le_succ (ih true)
      · exact Nat.succ_le_succ (ih false)

theorem length_squeeze_le (xs : List α) : (squeeze isBlank blank xs).length ≤ xs.length :=
  (length_collapseBlanks_le false _).trans (trimBlanks_sublist xs).length_le

/-- A letter in front stays there. -/
theorem squeeze_cons {x : α} (hx : isBlank x = false) (xs : List α) :
    ∃ ys, squeeze isBlank blank (x :: xs) = x :: ys := by
  have htrim : trimBlanks isBlank (x :: xs) = x :: (xs.reverse.dropWhile isBlank).reverse := by
    have hhead : (x :: xs).dropWhile isBlank = x :: xs := List.dropWhile_cons_of_neg (by simp [hx])
    have hlast : [x].dropWhile isBlank = [x] := List.dropWhile_cons_of_neg (by simp [hx])
    rw [trimBlanks, hhead, List.reverse_cons, List.dropWhile_append]
    split
    · rename_i hall
      rw [hlast, List.isEmpty_iff.mp hall]
      rfl
    · rw [List.reverse_append]
      rfl
  refine ⟨collapseBlanks isBlank blank false (xs.reverse.dropWhile isBlank).reverse, ?_⟩
  rw [squeeze, htrim, collapseBlanks, if_neg (by simp [hx])]

/-! ## Parts of a normal form -/

theorem Collapsed.take (h : Collapsed isBlank blank xs) (n : Nat) :
    Collapsed isBlank blank (xs.take n) :=
  ⟨fun x hx => h.only x (List.mem_of_mem_take hx), h.single.take n⟩

/-- Letters in front of the rest of a normal form. -/
theorem Collapsed.replaceHead {x : α} {ys : List α} (h : Collapsed isBlank blank (x :: xs))
    (hys : ∀ y ∈ ys, isBlank y = false) : Collapsed isBlank blank (ys ++ xs) where
  only := by
    intro y hy hblank
    rcases List.mem_append.mp hy with hy | hy
    · rw [hys y hy] at hblank
      cases hblank
    · exact h.only y (List.mem_cons_of_mem _ hy) hblank
  single := by
    refine List.isChain_append.mpr ⟨?_, h.single.tail, fun y hy z _ hblank => ?_⟩
    · refine List.Pairwise.isChain (List.pairwise_of_forall_mem_list fun y hy z _ hblank => ?_)
      rw [hys y hy] at hblank
      cases hblank
    · rw [hys y (List.mem_of_mem_getLast? hy)] at hblank
      cases hblank

theorem Trimmed.replaceHead {x : α} {ys : List α} (hlast : ∀ y ∈ (x :: xs).getLast?, isBlank y = false)
    (hne : ys ≠ []) (hys : ∀ y ∈ ys, isBlank y = false) : Trimmed isBlank (ys ++ xs) where
  head := by
    intro y hy
    cases ys with
    | nil => exact absurd rfl hne
    | cons z zs =>
        cases hy
        exact hys y List.mem_cons_self
  last := by
    intro y hy
    cases xs with
    | nil =>
        rw [List.append_nil] at hy
        exact hys y (List.mem_of_mem_getLast? hy)
    | cons z zs =>
        apply hlast y
        rw [List.getLast?_append_of_ne_nil _ (List.cons_ne_nil z zs)] at hy
        exact hy

end Collections
