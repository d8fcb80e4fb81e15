import Feca.Paging.Walk

/-! # Keyset pages

A page of the rows whose key comes after the cursor, cut after `n` of them; the
cursor of the next page is the key of the last row. The keys are ordered by any
transitive relation. Served from one list, the pages add up to that list; served
from a list that changes between the requests, they still ascend, and miss no
row that stays.
-/

namespace Paging

variable {κ α φ : Type} (before : κ → κ → Prop) [DecidableRel before] (key : α → κ)

/-- The row comes after the cursor. -/
def isAfter (cursor : Option κ) (a : α) : Bool := cursor.all fun k => before k (key a)

def rowsAfter (rows : List α) (cursor : Option κ) : List α := rows.filter (isAfter before key cursor)

def keysetPage (n : Nat) (rows : List α) (cursor : Option κ) : Page κ α :=
  let found := rowsAfter before key rows cursor
  ⟨found.take n, if n < found.length then (found.take n).getLast?.map key else none⟩

/-- Listed in the order of the keys, no two alike. -/
def Ascending (rows : List α) : Prop := rows.Pairwise fun a b => before (key a) (key b)

variable {before key}

@[simp] theorem isAfter_none (a : α) : isAfter before key none a = true := rfl

@[simp] theorem isAfter_some (k : κ) (a : α) :
    isAfter before key (some k) a = true ↔ before k (key a) := by
  simp [isAfter]

theorem mem_rowsAfter {rows : List α} {cursor : Option κ} {a : α} :
    a ∈ rowsAfter before key rows cursor ↔ a ∈ rows ∧ isAfter before key cursor a = true :=
  List.mem_filter

theorem Ascending.rowsAfter {rows : List α} (h : Ascending before key rows) (cursor : Option κ) :
    Ascending before key (rowsAfter before key rows cursor) :=
  h.filter _

/-- A page that is cut short ends in the row its cursor names. -/
theorem keysetPage_next {n : Nat} {rows : List α} {cursor : Option κ} {k : κ}
    (h : (keysetPage before key n rows cursor).next = some k) :
    n < (rowsAfter before key rows cursor).length ∧ ∃ front a,
      (rowsAfter before key rows cursor).take n = front ++ [a] ∧ key a = k := by
  unfold keysetPage at h
  dsimp only at h
  split at h
  · rename_i hlt
    obtain ⟨a, ha, rfl⟩ := Option.map_eq_some_iff.mp h
    obtain ⟨front, hfront⟩ := List.getLast?_eq_some_iff.mp ha
    exact ⟨hlt, front, a, hfront, rfl⟩
  · cases h

theorem keysetPage_next_none {n : Nat} {rows : List α} {cursor : Option κ} (hn : 0 < n)
    (h : (keysetPage before key n rows cursor).next = none) :
    (keysetPage before key n rows cursor).items = rowsAfter before key rows cursor := by
  unfold keysetPage at h ⊢
  dsimp only at h ⊢
  split at h
  · rename_i hlt
    have hempty := List.getLast?_eq_none_iff.mp (Option.map_eq_none_iff.mp h)
    have hlength := congrArg List.length hempty
    rw [List.length_take, List.length_nil] at hlength
    omega
  · rename_i hle
    exact List.take_of_length_le (Nat.le_of_not_lt hle)

section ordered

variable (trans : ∀ a b c : κ, before a b → before b c → before a c)
include trans

/-- The row a cursor names is behind everything the next page may list. -/
theorem rowsAfter_eq_drop (irrefl : ∀ a : κ, ¬ before a a) {n : Nat} {rows : List α}
    {cursor : Option κ} (h : Ascending before key rows) {k : κ}
    (hnext : (keysetPage before key n rows cursor).next = some k) :
    rowsAfter before key rows (some k) = (rowsAfter before key rows cursor).drop n := by
  obtain ⟨hlt, front, a, htake, rfl⟩ := keysetPage_next hnext
  have hsorted := h.rowsAfter cursor
  have hsplit : rowsAfter before key rows cursor =
      front ++ [a] ++ (rowsAfter before key rows cursor).drop n := by
    rw [← htake, List.take_append_drop]
  -- After the cursor's row means after the cursor as well.
  have hagain : rowsAfter before key rows (some (key a)) =
      rowsAfter before key (rowsAfter before key rows cursor) (some (key a)) := by
    unfold rowsAfter
    rw [List.filter_filter]
    refine List.filter_congr fun x _ => ?_
    rw [Bool.eq_iff_iff, Bool.and_eq_true, isAfter_some, iff_self_and]
    intro hx
    cases cursor with
    | none => rfl
    | some c =>
        have ha : a ∈ rowsAfter before key rows (some c) := by
          rw [hsplit]
          simp
        exact (isAfter_some c x).mpr (trans _ _ _ ((isAfter_some c a).mp (mem_rowsAfter.mp ha).2) hx)
  rw [hagain]
  unfold Ascending at hsorted
  rw [hsplit, List.pairwise_append, List.pairwise_append] at hsorted
  obtain ⟨⟨-, -, hfront⟩, -, hrest⟩ := hsorted
  conv_lhs => rw [hsplit]
  unfold rowsAfter
  rw [List.filter_append, List.filter_append]
  have hnone : front.filter (isAfter before key (some (key a))) = [] := by
    rw [List.filter_eq_nil_iff]
    intro x hx hafter
    exact irrefl _ (trans _ _ _ (hfront x hx a List.mem_cons_self) ((isAfter_some _ x).mp hafter))
  have hself : [a].filter (isAfter before key (some (key a))) = [] := by
    rw [List.filter_eq_nil_iff]
    intro x hx hafter
    rw [List.mem_singleton.mp hx] at hafter
    exact irrefl _ ((isAfter_some _ a).mp hafter)
  have hall : ((rows.filter (isAfter before key cursor)).drop n).filter
      (isAfter before key (some (key a))) = (rows.filter (isAfter before key cursor)).drop n := by
    rw [List.filter_eq_self]
    exact fun x hx => (isAfter_some _ x).mpr (hrest a (by simp) x hx)
  rw [hnone, hself, hall]
  rfl

/-! ## Walks -/

variable {serve : Nat → Option κ → Except φ (Page κ α)} {n : Nat} {rows : Nat → List α}

/-- Whatever happens to the list between the requests, the walk ascends. -/
theorem walk_ascending (hserve : ∀ i cursor, serve i cursor = .ok (keysetPage before key n (rows i)
    cursor)) (hsorted : ∀ i, Ascending before key (rows i)) (fuel i : Nat) (cursor : Option κ) :
    Ascending before key (allItems (walk serve fuel i cursor)) ∧
      ∀ a ∈ allItems (walk serve fuel i cursor), isAfter before key cursor a = true := by
  induction fuel generalizing i cursor with
  | zero => exact ⟨.nil, by simp [walk]⟩
  | succ fuel ih =>
      have hpage : Ascending before key (keysetPage before key n (rows i) cursor).items :=
        (hsorted i).rowsAfter cursor |>.sublist (List.take_sublist _ _)
      have hafter : ∀ a ∈ (keysetPage before key n (rows i) cursor).items,
          isAfter before key cursor a = true :=
        fun a ha => (mem_rowsAfter.mp (List.mem_of_mem_take ha)).2
      cases hnext : (keysetPage before key n (rows i) cursor).next with
      | none =>
          rw [walk_last (hserve i cursor) hnext]
          simpa using ⟨hpage, hafter⟩
      | some k =>
          obtain ⟨-, front, last, hitems, rfl⟩ := keysetPage_next hnext
          replace hitems : (keysetPage before key n (rows i) cursor).items = front ++ [last] := hitems
          obtain ⟨hrest, hbeyond⟩ := ih (i + 1) (some (key last))
          rw [walk_more (hserve i cursor) hnext, allItems_cons]
          have hlast : isAfter before key cursor last = true := hafter last (by simp [hitems])
          refine ⟨List.pairwise_append.mpr ⟨hpage, hrest, fun a ha b hb => ?_⟩, fun a ha => ?_⟩
          · have hb' := (isAfter_some _ b).mp (hbeyond b hb)
            rw [hitems, List.mem_append, List.mem_singleton] at ha
            unfold Ascending at hpage
            rw [hitems, List.pairwise_append] at hpage
            rcases ha with ha | rfl
            · exact trans _ _ _ (hpage.2.2 a ha last List.mem_cons_self) hb'
            · exact hb'
          · rcases List.mem_append.mp ha with ha | ha
            · exact hafter a ha
            · have hb := (isAfter_some _ a).mp (hbeyond a ha)
              cases cursor with
              | none => rfl
              | some c => exact (isAfter_some c a).mpr (trans _ _ _ ((isAfter_some c last).mp hlast) hb)

omit trans in
/-- Each page lists rows of its own moment. -/
theorem mem_of_walk (hserve : ∀ i cursor, serve i cursor = .ok (keysetPage before key n (rows i)
    cursor)) {fuel i j : Nat} {cursor : Option κ} {page : Page κ α}
    (hpage : (walk serve fuel i cursor)[j]? = some page) {a : α} (ha : a ∈ page.items) :
    a ∈ rows (i + j) := by
  induction fuel generalizing i j cursor with
  | zero => simp [walk] at hpage
  | succ fuel ih =>
      have hfirst : ∀ b ∈ (keysetPage before key n (rows i) cursor).items, b ∈ rows i :=
        fun b hb => (mem_rowsAfter.mp (List.mem_of_mem_take hb)).1
      cases hnext : (keysetPage before key n (rows i) cursor).next with
      | none =>
          rw [walk_last (hserve i cursor) hnext] at hpage
          cases j with
          | zero =>
              cases hpage
              exact hfirst a ha
          | succ j => simp at hpage
      | some k =>
          rw [walk_more (hserve i cursor) hnext] at hpage
          cases j with
          | zero =>
              cases hpage
              exact hfirst a ha
          | succ j =>
              rw [List.getElem?_cons_succ] at hpage
              rw [show i + (j + 1) = i + 1 + j by omega]
              exact ih hpage

omit trans in
theorem mem_allItems_of_walk (hserve : ∀ i cursor, serve i cursor = .ok (keysetPage before key n
    (rows i) cursor)) {fuel i : Nat} {cursor : Option κ} {a : α}
    (ha : a ∈ allItems (walk serve fuel i cursor)) : ∃ j, a ∈ rows (i + j) := by
  obtain ⟨page, hpage, ha⟩ := List.mem_flatMap.mp ha
  obtain ⟨j, hj⟩ := List.mem_iff_getElem?.mp hpage
  exact ⟨j, mem_of_walk hserve hj ha⟩

omit trans in
/-- A row that stays in the list throughout is not missed. -/
theorem walk_covers (hn : 0 < n)
    (hserve : ∀ i cursor, serve i cursor = .ok (keysetPage before key n (rows i) cursor))
    (hsorted : ∀ i, Ascending before key (rows i)) {a : α} {fuel i : Nat} {cursor : Option κ}
    (hended : Ended (walk serve fuel i cursor))
    (hstays : ∀ j < (walk serve fuel i cursor).length, a ∈ rows (i + j))
    (hafter : isAfter before key cursor a = true) : a ∈ allItems (walk serve fuel i cursor) := by
  induction fuel generalizing i cursor with
  | zero => exact absurd hended not_ended_nil
  | succ fuel ih =>
      cases hnext : (keysetPage before key n (rows i) cursor).next with
      | none =>
          rw [walk_last (hserve i cursor) hnext] at hstays ⊢
          rw [allItems_cons, keysetPage_next_none hn hnext]
          exact List.mem_append_left _ (mem_rowsAfter.mpr ⟨hstays 0 (by simp), hafter⟩)
      | some k =>
          obtain ⟨-, front, last, hitems, rfl⟩ := keysetPage_next hnext
          rw [walk_more (hserve i cursor) hnext] at hstays hended ⊢
          rw [allItems_cons, List.mem_append]
          have hhere : a ∈ rowsAfter before key (rows i) cursor :=
            mem_rowsAfter.mpr ⟨hstays 0 (by simp), hafter⟩
          rw [← List.take_append_drop n (rowsAfter before key (rows i) cursor),
            List.mem_append] at hhere
          refine hhere.imp id fun hdrop => ih ?_ (fun j hj => ?_) ?_
          · unfold Ended at hended ⊢
            cases hrest : walk serve fuel (i + 1) (some (key last)) with
            | nil =>
                rw [hrest] at hended
                have : (keysetPage before key n (rows i) cursor).next = none :=
                  Option.some.inj hended
                rw [hnext] at this
                cases this
            | cons p ps => rwa [hrest, List.getLast?_cons_cons] at hended
          · have := hstays (j + 1) (by simpa using hj)
            rwa [show i + (j + 1) = i + 1 + j by omega] at this
          · have hsplit := (hsorted i).rowsAfter cursor
            unfold Ascending at hsplit
            rw [← List.take_append_drop n (rowsAfter before key (rows i) cursor),
              List.pairwise_append] at hsplit
            exact (isAfter_some _ a).mpr (hsplit.2.2 last (by simp [hitems]) a hdrop)

/-- Served from one list, the pages add up to it, and the walk ends. -/
theorem walk_fixed (irrefl : ∀ a : κ, ¬ before a a) (hn : 0 < n) {list : List α}
    (hserve : ∀ i cursor, serve i cursor = .ok (keysetPage before key n list cursor))
    (hsorted : Ascending before key list) {fuel i : Nat} {cursor : Option κ}
    (hfuel : (rowsAfter before key list cursor).length < fuel) :
    Ended (walk serve fuel i cursor) ∧
      allItems (walk serve fuel i cursor) = rowsAfter before key list cursor := by
  induction fuel generalizing i cursor with
  | zero => omega
  | succ fuel ih =>
      cases hnext : (keysetPage before key n list cursor).next with
      | none =>
          rw [walk_last (hserve i cursor) hnext]
          exact ⟨ended_singleton hnext, by simp [keysetPage_next_none hn hnext]⟩
      | some k =>
          have hdrop : rowsAfter before key list (some k) =
              (rowsAfter before key list cursor).drop n :=
            rowsAfter_eq_drop trans irrefl hsorted hnext
          have hlt := (keysetPage_next hnext).1
          have hshorter : (rowsAfter before key list (some k)).length < fuel := by
            rw [hdrop, List.length_drop]
            omega
          obtain ⟨hended, hitems⟩ := @ih (i + 1) (some k) hshorter
          rw [walk_more (hserve i cursor) hnext]
          refine ⟨ended_cons hended, ?_⟩
          rw [allItems_cons, hitems, hdrop]
          exact List.take_append_drop n _

end ordered

end Paging
