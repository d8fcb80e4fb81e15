import Feca.Collections.OrderedMap

/-! # Merging by key

Values that arrive one by one are held in a map, and merged with what the map
has under their key. What is held in the end under a key is the merge, in their
order, of the values with that key; how much of it is known depends on which side
of the merge each field is taken from.
-/

namespace Collections

variable {κ α β : Type}

/-! ## One value after the other -/

section fold

variable (merge : α → α → α)

/-- The first value stands for itself. -/
def mergeNext : Option α → α → Option α
  | none, a => some a
  | some old, a => some (merge old a)

theorem foldl_mergeNext_some (a : α) (as : List α) :
    as.foldl (mergeNext merge) (some a) = some (as.foldl merge a) := by
  induction as generalizing a with
  | nil => rfl
  | cons b as ih => exact ih (merge a b)

theorem foldl_mergeNext_none (a : α) (as : List α) :
    (a :: as).foldl (mergeNext merge) none = some (as.foldl merge a) :=
  foldl_mergeNext_some merge a as

/-- Merging keeps what a map of the values keeps. -/
theorem map_foldl_mergeNext {f : α → β} {merge' : β → β → β} {as : List α}
    (h : ∀ a, ∀ b ∈ as, f (merge a b) = merge' (f a) (f b)) (start : Option α) :
    (as.foldl (mergeNext merge) start).map f =
      (as.map f).foldl (mergeNext merge') (start.map f) := by
  induction as generalizing start with
  | nil => rfl
  | cons a as ih =>
      have hrest := fun start => ih (fun x b hb => h x b (List.mem_cons_of_mem _ hb)) start
      rw [List.foldl_cons, hrest, List.map_cons, List.foldl_cons]
      cases start with
      | none => rfl
      | some old =>
          rw [mergeNext, Option.map_some, Option.map_some, mergeNext, h old a List.mem_cons_self]

variable {merge}

/-- A field that keeps what was known first. -/
theorem foldl_keeps {f : α → Option β} (h : ∀ a b, f (merge a b) = (f a).or (f b)) (a : α)
    (as : List α) : f (as.foldl merge a) = (a :: as).findSome? f := by
  induction as generalizing a with
  | nil => simp
  | cons b as ih =>
      rw [List.foldl_cons, ih (merge a b), List.findSome?_cons, h, List.findSome?_cons,
        List.findSome?_cons]
      cases f a <;> cases f b <;> rfl

/-- A field that takes what is known last. -/
theorem foldl_overwrites {f : α → Option β} (h : ∀ a b, f (merge a b) = (f b).or (f a)) (a : α)
    (as : List α) : f (as.foldl merge a) = (a :: as).reverse.findSome? f := by
  induction as generalizing a with
  | nil => simp
  | cons b as ih =>
      rw [List.foldl_cons, ih (merge a b), List.reverse_cons, List.reverse_cons,
        List.reverse_cons, List.append_assoc, List.findSome?_append, List.findSome?_append]
      simp only [List.findSome?_cons, List.findSome?_nil, List.cons_append, List.nil_append, h]
      cases f a <;> cases f b <;> rfl

/-- A field that is always the last one's. -/
theorem foldl_replaces {f : α → β} (h : ∀ a b, f (merge a b) = f b) (a : α) (as : List α) :
    f (as.foldl merge a) = f ((a :: as).getLast (List.cons_ne_nil a as)) := by
  induction as generalizing a with
  | nil => rfl
  | cons b as ih =>
      rw [List.foldl_cons, ih (merge a b), List.getLast_cons (List.cons_ne_nil b as)]
      cases as with
      | nil => exact h a b
      | cons c as => rfl

theorem isSome_foldl_keeps {f : α → Option β} (h : ∀ a b, f (merge a b) = (f a).or (f b)) (a : α)
    (as : List α) : (f (as.foldl merge a)).isSome ↔ ∃ x ∈ a :: as, (f x).isSome := by
  rw [foldl_keeps h, List.findSome?_isSome_iff]

end fold

/-! ## In a map -/

namespace OrderedMap

variable [DecidableEq κ] (key : α → κ) (merge : α → α → α)

def mergeIn (m : OrderedMap κ α) (a : α) : OrderedMap κ α :=
  match m.get (key a) with
  | none => m.set (key a) a
  | some old => m.set (key a) (merge old a)

theorem get_mergeIn (m : OrderedMap κ α) (a : α) (k : κ) : (mergeIn key merge m a).get k =
    if key a = k then mergeNext merge (m.get k) a else m.get k := by
  unfold mergeIn
  by_cases hk : key a = k
  · subst hk
    cases h : m.get (key a) with
    | none => simp [mergeNext]
    | some old => simp [mergeNext]
  · cases h : m.get (key a) with
    | none => simp [hk, Ne.symm hk]
    | some old => simp [hk, Ne.symm hk]

end OrderedMap

end Collections
