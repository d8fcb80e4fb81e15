import Mathlib.Data.List.Sort

/-! # A window at the head of a queue

A queue is served by passes. A pass looks at its first `limit` elements, takes
out those that are ready and leaves the others where they are.
-/

namespace Collections

section sort

variable {α : Type} {r : α → α → Prop} [DecidableRel r]

/-- An element goes before everything it may precede. -/
theorem orderedInsert_of_forall {a : α} {xs : List α} (h : ∀ x ∈ xs, r a x) :
    xs.orderedInsert r a = a :: xs := by
  cases xs with
  | nil => rfl
  | cons x xs => exact List.orderedInsert_cons_of_le r xs (h x List.mem_cons_self)

theorem filter_orderedInsert (trans : ∀ a b c, r a b → r b c → r a c) (p : α → Bool) (a : α)
    {xs : List α} (hxs : xs.Pairwise r) : (xs.orderedInsert r a).filter p =
      if p a then (xs.filter p).orderedInsert r a else xs.filter p := by
  induction xs with
  | nil => by_cases ha : p a <;> simp [ha]
  | cons x xs ih =>
      obtain ⟨hx, hxs⟩ := List.pairwise_cons.mp hxs
      by_cases hax : r a x
      · rw [List.orderedInsert_cons_of_le r xs hax]
        by_cases ha : p a
        · have hall : ∀ y ∈ (x :: xs).filter p, r a y := by
            intro y hy
            rcases List.mem_cons.mp (List.mem_filter.mp hy).1 with rfl | hmem
            · exact hax
            · exact trans a x y hax (hx y hmem)
          rw [if_pos ha, orderedInsert_of_forall hall, List.filter_cons_of_pos ha]
        · rw [if_neg ha, List.filter_cons_of_neg ha]
      · rw [List.orderedInsert_cons, if_neg hax]
        by_cases hp : p x
        · rw [List.filter_cons_of_pos hp, List.filter_cons_of_pos hp, ih hxs]
          by_cases ha : p a
          · rw [if_pos ha, if_pos ha, List.orderedInsert_cons, if_neg hax]
          · rw [if_neg ha, if_neg ha]
        · rw [List.filter_cons_of_neg hp, List.filter_cons_of_neg hp, ih hxs]

/-- Sorting is stable: it does not matter whether one filters before or after. -/
theorem filter_insertionSort (total : ∀ a b, r a b ∨ r b a)
    (trans : ∀ a b c, r a b → r b c → r a c) (p : α → Bool) (xs : List α) :
    (xs.insertionSort r).filter p = (xs.filter p).insertionSort r := by
  have htotal : Std.Total r := ⟨total⟩
  have htrans : IsTrans α r := ⟨trans⟩
  induction xs with
  | nil => rfl
  | cons x xs ih =>
      rw [List.insertionSort_cons,
        filter_orderedInsert trans p x (List.pairwise_insertionSort r xs), ih]
      by_cases hx : p x
      · rw [if_pos hx, List.filter_cons_of_pos hx, List.insertionSort_cons]
      · rw [if_neg hx, List.filter_cons_of_neg hx]

end sort

section joins

variable {α β : Type} {f : α → Option β}

theorem length_filterMap_of_isSome {l : List α} (h : ∀ x ∈ l, (f x).isSome) :
    (l.filterMap f).length = l.length := by
  induction l with
  | nil => rfl
  | cons x l ih =>
      obtain ⟨y, hy⟩ := Option.isSome_iff_exists.mp (h x List.mem_cons_self)
      rw [List.filterMap_cons_some hy, List.length_cons, List.length_cons,
        ih fun z hz => h z (List.mem_cons_of_mem _ hz)]

theorem take_filterMap_of_isSome {l : List α} (h : ∀ x ∈ l, (f x).isSome) (n : Nat) :
    (l.filterMap f).take n = (l.take n).filterMap f := by
  induction l generalizing n with
  | nil => simp
  | cons x l ih =>
      obtain ⟨y, hy⟩ := Option.isSome_iff_exists.mp (h x List.mem_cons_self)
      cases n with
      | zero => simp
      | succ n =>
          rw [List.filterMap_cons_some hy, List.take_succ_cons, List.take_succ_cons,
            List.filterMap_cons_some hy, ih fun z hz => h z (List.mem_cons_of_mem _ hz)]

/-- What a join adds to its rows can be taken off again. -/
theorem map_filterMap_of_join {g : β → α} {l : List α} (h : ∀ x ∈ l, ∃ y, f x = some y ∧ g y = x) :
    (l.filterMap f).map g = l := by
  induction l with
  | nil => rfl
  | cons x l ih =>
      obtain ⟨y, hy, hg⟩ := h x List.mem_cons_self
      rw [List.filterMap_cons_some hy, List.map_cons, hg,
        ih fun z hz => h z (List.mem_cons_of_mem _ hz)]

end joins

/-- Elements that a map leaves alone stay in a filter, the others leave it. -/
theorem filter_map_of_kept {α : Type} {g : α → α} {p keeps : α → Bool} {xs : List α}
    (hkept : ∀ x ∈ xs, keeps x = true → g x = x)
    (hgone : ∀ x ∈ xs, keeps x = false → p (g x) = false) :
    (xs.map g).filter p = (xs.filter p).filter keeps := by
  induction xs with
  | nil => rfl
  | cons x xs ih =>
      have htail := ih (fun y hy => hkept y (List.mem_cons_of_mem x hy))
        (fun y hy => hgone y (List.mem_cons_of_mem x hy))
      rw [List.map_cons]
      cases hkeeps : keeps x with
      | true =>
          rw [hkept x List.mem_cons_self hkeeps]
          by_cases hp : p x
          · rw [List.filter_cons_of_pos hp, List.filter_cons_of_pos hp,
              List.filter_cons_of_pos hkeeps, htail]
          · rw [List.filter_cons_of_neg hp, List.filter_cons_of_neg hp, htail]
      | false =>
          have hgone' := hgone x List.mem_cons_self hkeeps
          rw [List.filter_cons_of_neg (by simp [hgone']), htail]
          by_cases hp : p x
          · rw [List.filter_cons_of_pos hp, List.filter_cons_of_neg (by simp [hkeeps])]
          · rw [List.filter_cons_of_neg hp]

section serve

variable {α : Type} (limit : Nat) (ready : α → Bool)

/-- One pass. -/
def serve (queue : List α) : List α :=
  (queue.take limit).filter (fun x => !ready x) ++ queue.drop limit

/-- The ready element between `before` and what follows it is reached: fewer than
`limit` elements before it are not ready. -/
def InReach (queue : List α) : Prop :=
  ∀ before x after, queue = before ++ x :: after → ready x = true →
    (before.filter fun y => !ready y).length < limit

variable {limit ready}

theorem serve_sublist (queue : List α) : (serve limit ready queue).Sublist queue := by
  have h := (List.filter_sublist (p := fun x => !ready x) (l := queue.take limit)).append
    (List.Sublist.refl (queue.drop limit))
  rwa [List.take_append_drop] at h

theorem iterate_serve_subset {queue : List α} (n : Nat) :
    (serve limit ready)^[n] queue ⊆ queue := by
  induction n generalizing queue with
  | zero => exact List.Subset.refl _
  | succ n ih =>
      rw [Function.iterate_succ_apply]
      exact fun x hx => (serve_sublist queue).subset (ih hx)

/-- A pass over distinct elements takes out those of its window that are ready. -/
theorem serve_eq_filter [DecidableEq α] {queue : List α} (h : queue.Nodup) :
    serve limit ready queue =
      queue.filter fun x => !(decide (x ∈ queue.take limit) && ready x) := by
  have hsplit : (queue.take limit ++ queue.drop limit).Nodup := by
    rw [List.take_append_drop]
    exact h
  have hdisjoint := (List.nodup_append.mp hsplit).2.2
  have hwindow : (queue.take limit).filter (fun x => !ready x) =
      (queue.take limit).filter fun x => !(decide (x ∈ queue.take limit) && ready x) := by
    apply List.filter_congr
    intro x hx
    simp [hx]
  have hrest : queue.drop limit =
      (queue.drop limit).filter fun x => !(decide (x ∈ queue.take limit) && ready x) := by
    symm
    apply List.filter_eq_self.mpr
    intro x hx
    have hnot : x ∉ queue.take limit := fun htake => hdisjoint x htake x hx rfl
    simp [hnot]
  unfold serve
  rw [hwindow, hrest, ← List.filter_append, List.take_append_drop]

/-- A pass leaves what is not ready. -/
theorem filter_serve (queue : List α) :
    (serve limit ready queue).filter (fun x => !ready x) = queue.filter fun x => !ready x := by
  unfold serve
  rw [List.filter_append, List.filter_filter]
  simp only [Bool.and_self]
  rw [← List.filter_append, List.take_append_drop]

/-- Behind `limit` elements that are not ready nothing is served. -/
theorem serve_blocked {before rest : List α}
    (h : limit ≤ (before.filter fun y => !ready y).length) :
    serve limit ready (before ++ rest) = serve limit ready before ++ rest := by
  have hlength : limit ≤ before.length := h.trans (List.length_filter_le _ _)
  unfold serve
  rw [List.take_append_of_le_length hlength, List.drop_append_of_le_length hlength,
    List.append_assoc]

theorem blocked_iterate {before : List α} (rest : List α)
    (h : limit ≤ (before.filter fun y => !ready y).length) (n : Nat) :
    ∃ before', (serve limit ready)^[n] (before ++ rest) = before' ++ rest := by
  induction n generalizing before with
  | zero => exact ⟨before, rfl⟩
  | succ n ih =>
      rw [Function.iterate_succ_apply, serve_blocked h]
      apply ih
      rw [filter_serve]
      exact h

/-- A pass over a queue whose ready elements are in reach takes one out. -/
theorem countP_serve_lt {queue : List α} (h : InReach limit ready queue) {x : α}
    (hx : x ∈ queue) (hready : ready x = true) :
    (serve limit ready queue).countP ready < queue.countP ready := by
  have hwindow : 0 < (queue.take limit).countP ready := by
    by_contra hnone
    have hall : ∀ y ∈ queue.take limit, ¬ ready y = true :=
      List.countP_eq_zero.mp (Nat.eq_zero_of_not_pos hnone)
    have hdrop : x ∈ queue.drop limit := by
      rw [← List.take_append_drop limit queue] at hx
      rcases List.mem_append.mp hx with htake | hdrop
      · exact absurd hready (hall x htake)
      · exact hdrop
    obtain ⟨between, after, hsplit⟩ := List.append_of_mem hdrop
    have hqueue : queue = (queue.take limit ++ between) ++ x :: after := by
      rw [List.append_assoc, ← hsplit, List.take_append_drop]
    have hlt := h _ x after hqueue hready
    have hlong : limit < queue.length := by
      by_contra hshort
      rw [List.drop_of_length_le (Nat.le_of_not_lt hshort)] at hdrop
      cases hdrop
    have hkept : (queue.take limit).filter (fun y => !ready y) = queue.take limit :=
      List.filter_eq_self.mpr fun y hy => by simpa using hall y hy
    rw [List.filter_append, List.length_append, hkept, List.length_take] at hlt
    omega
  have hserve : (serve limit ready queue).countP ready = (queue.drop limit).countP ready := by
    unfold serve
    rw [List.countP_append, List.countP_filter]
    simp
  have hsplit : queue.countP ready =
      (queue.take limit).countP ready + (queue.drop limit).countP ready := by
    rw [← List.countP_append, List.take_append_drop]
  omega

theorem inReach_serve {queue : List α} (h : InReach limit ready queue) :
    InReach limit ready (serve limit ready queue) := by
  intro before x after hsplit hready
  unfold serve at hsplit
  have hdropped : ∃ between, before = (queue.take limit).filter (fun y => !ready y) ++ between ∧
      queue.drop limit = between ++ x :: after := by
    rcases List.append_eq_append_iff.mp hsplit with hbetween | ⟨rest, htake, hdrop⟩
    · exact hbetween
    · cases rest with
      | nil =>
          rw [List.append_nil] at htake
          exact ⟨[], by rw [htake, List.append_nil], hdrop.symm⟩
      | cons y rest =>
          rw [List.cons_append] at hdrop
          injection hdrop with hxy _
          have hmem : y ∈ (queue.take limit).filter fun y => !ready y := by
            rw [htake]
            exact List.mem_append_right _ List.mem_cons_self
          have hnot := (List.mem_filter.mp hmem).2
          rw [← hxy, hready] at hnot
          cases hnot
  obtain ⟨between, rfl, hdrop⟩ := hdropped
  have hqueue : queue = (queue.take limit ++ between) ++ x :: after := by
    rw [List.append_assoc, ← hdrop, List.take_append_drop]
  have hlt := h _ x after hqueue hready
  rw [List.filter_append, List.filter_filter]
  simpa [List.filter_append] using hlt

/-- Enough passes take out every ready element exactly when all are in reach. -/
theorem served_iff {queue : List α} {n : Nat} (hn : queue.countP ready ≤ n) :
    (∀ x ∈ (serve limit ready)^[n] queue, ready x = false) ↔ InReach limit ready queue := by
  constructor
  · intro hserved before x after hqueue hready
    by_contra hlate
    subst hqueue
    obtain ⟨before', hafter⟩ := blocked_iterate (x :: after) (Nat.le_of_not_lt hlate) n
    have hfalse := hserved x (by rw [hafter]; exact List.mem_append_right _ List.mem_cons_self)
    rw [hready] at hfalse
    cases hfalse
  · intro h
    induction n generalizing queue with
    | zero =>
        intro x hx
        exact Bool.eq_false_iff.mpr (List.countP_eq_zero.mp (Nat.eq_zero_of_le_zero hn) x hx)
    | succ n ih =>
        rw [Function.iterate_succ_apply]
        apply ih _ (inReach_serve h)
        by_cases hex : ∃ x ∈ queue, ready x = true
        · obtain ⟨x, hx, hready⟩ := hex
          have hlt := countP_serve_lt h hx hready
          omega
        · have hzero : queue.countP ready = 0 :=
            List.countP_eq_zero.mpr fun x hx hready => hex ⟨x, hx, hready⟩
          have hsublist : (serve limit ready queue).Sublist queue := serve_sublist queue
          have hle := hsublist.countP_le (p := ready)
          omega

end serve

end Collections
