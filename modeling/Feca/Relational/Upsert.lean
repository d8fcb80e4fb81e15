import Feca.Relational.Table

/-! # Rows put in by their key

An upsert rewrites the row that clashes with the given one, or appends it. A
table grows by every row of a run of upserts exactly when no two of them clash.
-/

namespace Relational

variable {ρ : Type} [UniqueColumns ρ]

/-- What clashes with the row takes what it brings. -/
def upserted (merge : ρ → ρ → ρ) (rows : List ρ) (row : ρ) : List ρ :=
  if rows.any (conflicts row) then
    rows.map fun old => if conflicts row old then merge row old else old
  else rows ++ [row]

variable {merge : ρ → ρ → ρ} {rows : List ρ} {row : ρ}

theorem upserted_of_fresh (merge : ρ → ρ → ρ) (h : ∀ old ∈ rows, conflicts row old = false) :
    upserted merge rows row = rows ++ [row] := by
  have hany : ¬ rows.any (conflicts row) = true := by
    intro hany
    obtain ⟨old, hold, hclash⟩ := List.any_eq_true.mp hany
    rw [h old hold] at hclash
    cases hclash
  unfold upserted
  rw [if_neg hany]

theorem length_upserted_of_clash (merge : ρ → ρ → ρ) {old : ρ} (hold : old ∈ rows)
    (h : conflicts row old = true) : (upserted merge rows row).length = rows.length := by
  have hany : rows.any (conflicts row) = true := List.any_eq_true.mpr ⟨old, hold, h⟩
  unfold upserted
  rw [if_pos hany, List.length_map]

theorem length_upserted_le (merge : ρ → ρ → ρ) (rows : List ρ) (row : ρ) :
    (upserted merge rows row).length ≤ rows.length + 1 := by
  unfold upserted
  split
  · rw [List.length_map]
    omega
  · simp

/-- What does not clash stays. -/
theorem mem_upserted_of_mem (merge : ρ → ρ → ρ) {old : ρ} (hold : old ∈ rows) (h : conflicts row old = false) :
    old ∈ upserted merge rows row := by
  unfold upserted
  split
  · exact List.mem_map.mpr ⟨old, hold, by rw [h]; rfl⟩
  · exact List.mem_append_left _ hold

/-- Rows of other groups are not touched. -/
theorem filter_upserted {p : ρ → Bool} (hrow : p row = true)
    (hmerge : ∀ old, conflicts row old = true → p old = true ∧ p (merge row old) = true) :
    (upserted merge rows row).filter p = upserted merge (rows.filter p) row := by
  have hany : (rows.filter p).any (conflicts row) = rows.any (conflicts row) := by
    rw [Bool.eq_iff_iff, List.any_eq_true, List.any_eq_true]
    constructor
    · rintro ⟨old, hold, hclash⟩
      exact ⟨old, (List.mem_filter.mp hold).1, hclash⟩
    · rintro ⟨old, hold, hclash⟩
      exact ⟨old, List.mem_filter.mpr ⟨hold, (hmerge old hclash).1⟩, hclash⟩
  unfold upserted
  rw [hany]
  split
  · have hsame : (p ∘ fun old => if conflicts row old then merge row old else old) = p := by
      funext old
      by_cases hclash : conflicts row old = true
      · simp [hclash, hmerge old hclash]
      · simp [hclash]
    rw [List.filter_map, hsame]
  · rw [List.filter_append, List.filter_singleton, hrow]
    rfl

section run

variable {new : List ρ}

theorem filter_foldl_upserted {p : ρ → Bool} (hnew : ∀ row ∈ new, p row = true)
    (hmerge : ∀ row ∈ new, ∀ old, conflicts row old = true →
      p old = true ∧ p (merge row old) = true) (rows : List ρ) :
    (new.foldl (upserted merge) rows).filter p = new.foldl (upserted merge) (rows.filter p) := by
  induction new generalizing rows with
  | nil => rfl
  | cons row new ih =>
      have hrest := ih (fun x hx => hnew x (List.mem_cons_of_mem _ hx))
        (fun x hx => hmerge x (List.mem_cons_of_mem _ hx))
      rw [List.foldl_cons, List.foldl_cons, hrest,
        filter_upserted (hnew row List.mem_cons_self) (hmerge row List.mem_cons_self)]

theorem mem_foldl_upserted_of_mem {old : ρ} (hold : old ∈ rows)
    (hnew : ∀ row ∈ new, conflicts row old = false) : old ∈ new.foldl (upserted merge) rows := by
  induction new generalizing rows with
  | nil => exact hold
  | cons row new ih =>
      rw [List.foldl_cons]
      have hstays := mem_upserted_of_mem merge hold (hnew row List.mem_cons_self)
      exact ih hstays fun x hx => hnew x (List.mem_cons_of_mem _ hx)

theorem foldl_upserted_of_fresh (hnew : new.Pairwise fun a b => conflicts a b = false)
    (hrows : ∀ row ∈ new, ∀ old ∈ rows, conflicts row old = false) :
    new.foldl (upserted merge) rows = rows ++ new := by
  induction new generalizing rows with
  | nil => simp
  | cons row new ih =>
      rw [List.pairwise_cons] at hnew
      have hfirst := upserted_of_fresh merge (hrows row List.mem_cons_self)
      rw [List.foldl_cons, hfirst, ih hnew.2, List.append_assoc, List.singleton_append]
      intro x hx old hold
      rw [List.mem_append, List.mem_singleton] at hold
      rcases hold with hold | rfl
      · exact hrows x (List.mem_cons_of_mem _ hx) old hold
      · rw [conflicts_symm]
        exact hnew.1 x hx

theorem length_foldl_upserted_le (merge : ρ → ρ → ρ) (rows new : List ρ) :
    (new.foldl (upserted merge) rows).length ≤ rows.length + new.length := by
  induction new generalizing rows with
  | nil => simp
  | cons row new ih =>
      have hrest := ih (upserted merge rows row)
      have hfirst := length_upserted_le merge rows row
      rw [List.foldl_cons, List.length_cons]
      omega

/-- Where each row adds one, none clashes with what is there before it. -/
theorem fresh_of_length_foldl_upserted
    (h : (new.foldl (upserted merge) rows).length = rows.length + new.length) :
    new.Pairwise (fun a b => conflicts a b = false) ∧
      ∀ row ∈ new, ∀ old ∈ rows, conflicts row old = false := by
  induction new generalizing rows with
  | nil => simp
  | cons row new ih =>
      rw [List.foldl_cons, List.length_cons] at h
      have hfresh : ∀ old ∈ rows, conflicts row old = false := by
        intro old hold
        by_contra hclash
        have hlength := length_upserted_of_clash merge hold (by simpa using hclash)
        have hrest := length_foldl_upserted_le merge (upserted merge rows row) new
        omega
      rw [upserted_of_fresh merge hfresh] at h
      have hlength : (new.foldl (upserted merge) (rows ++ [row])).length =
          (rows ++ [row]).length + new.length := by
        rw [h, List.length_append, List.length_singleton]
        omega
      obtain ⟨hnew, hrest⟩ := ih hlength
      constructor
      · rw [List.pairwise_cons]
        refine ⟨fun x hx => ?_, hnew⟩
        rw [conflicts_symm]
        exact hrest x hx row (List.mem_append_right _ List.mem_cons_self)
      · intro x hx old hold
        rw [List.mem_cons] at hx
        rcases hx with rfl | hx
        · exact hfresh old hold
        · exact hrest x hx old (List.mem_append_left _ hold)

end run

/-! ## In a table -/

namespace Table

/-- Where the rows that change keep what they clash with, no constraint is in the way. -/
theorem exists_modify {t : Table ρ} {p : ρ → Bool} {f : ρ → ρ}
    (h : ∀ a ∈ t.rows, p a = true → ∀ b, conflicts (f a) b = conflicts a b) :
    ∃ u, t.modify p f = some u := by
  have hleft : ∀ a ∈ t.rows, ∀ b, conflicts (if p a then f a else a) b = conflicts a b := by
    intro a ha b
    split
    · rename_i hp
      exact h a ha hp b
    · rfl
  have hdistinct : (t.rows.map fun r => if p r then f r else r).Pairwise
      fun a b => conflicts a b = false := by
    rw [List.pairwise_map]
    refine t.distinct.imp_of_mem fun {a b} ha hb hab => ?_
    rw [hleft a ha, conflicts_symm, hleft b hb, conflicts_symm, hab]
  exact ⟨_, dif_pos hdistinct⟩

variable {t : Table ρ} {row : ρ} {touch : ρ → ρ} {keeps : ∀ a b, conflicts (touch a) b = conflicts a b}

/-- `INSERT … ON CONFLICT DO UPDATE`: what clashes with the row is touched. -/
def upsertRow (t : Table ρ) (row : ρ) (touch : ρ → ρ)
    (keeps : ∀ a b, conflicts (touch a) b = conflicts a b := by intros; rfl) : Table ρ :=
  (t.insert row).getD (t.update (conflicts row) touch keeps)

/-- The keys of the table are those it had, and the one of the row. -/
theorem exists_key_upsertRow {κ : Type} (key : ρ → κ) (htouch : ∀ a, key (touch a) = key a)
    (hclash : ∀ a, conflicts a row = true → key a = key row) (k : κ) :
    (∃ x ∈ (t.upsertRow row touch keeps).rows, key x = k) ↔
      (∃ x ∈ t.rows, key x = k) ∨ key row = k := by
  unfold upsertRow
  cases h : t.insert row with
  | some u =>
      rw [Option.getD_some, (insert_eq_some h).1]
      simp [or_and_right, exists_or]
  | none =>
      obtain ⟨old, hold, hconflict⟩ := insert_eq_none h
      have hsame : ∀ x, key (if conflicts row x then touch x else x) = key x := by
        intro x
        split
        · exact htouch x
        · rfl
      simp only [Option.getD_none, rows_update, List.mem_map]
      constructor
      · rintro ⟨x, ⟨y, hy, rfl⟩, hk⟩
        exact .inl ⟨y, hy, (hsame y).symm.trans hk⟩
      · rintro (⟨x, hx, hk⟩ | hk)
        · exact ⟨_, ⟨x, hx, rfl⟩, (hsame x).trans hk⟩
        · exact ⟨_, ⟨old, hold, rfl⟩, (hsame old).trans ((hclash old hconflict).trans hk)⟩

end Table

end Relational
