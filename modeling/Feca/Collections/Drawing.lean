import Mathlib.Algebra.GroupWithZero.Nat
import Mathlib.Data.List.Nodup
import Mathlib.Data.List.Perm.Subperm

/-! # Drawing from a population

Rows with different keys are drawn in rounds. A round draws as many as it may of
those that no round before it has drawn, and no key twice: so nothing is drawn
twice, and enough rounds draw everything.
-/

namespace Collections

variable {κ α ρ : Type} {key : α → κ} {cap size : Nat} {pool rows left drawn : List α}

/-! ## Topping up a pool -/

section topUp

variable [DecidableEq κ]

/-- Rows come into the pool, unless their key is there, until it has reached the cap. -/
def topUp (key : α → κ) (cap : Nat) : List α → List α → List α
  | pool, [] => pool
  | pool, row :: rows =>
      if cap ≤ pool.length then pool
      else if key row ∈ pool.map key then topUp key cap pool rows
      else topUp key cap (pool ++ [row]) rows

theorem prefix_topUp : pool <+: topUp key cap pool rows := by
  induction rows generalizing pool with
  | nil => exact List.prefix_rfl
  | cons row rows ih =>
      unfold topUp
      split
      · exact List.prefix_rfl
      split
      · exact ih
      · exact (List.prefix_append pool [row]).trans ih

theorem mem_topUp {x : α} (h : x ∈ topUp key cap pool rows) : x ∈ pool ∨ x ∈ rows := by
  induction rows generalizing pool with
  | nil => exact .inl h
  | cons row rows ih =>
      unfold topUp at h
      split at h
      · exact .inl h
      split at h
      · exact (ih h).imp_right (List.mem_cons_of_mem row)
      · rcases ih h with hpool | hrows
        · rcases List.mem_append.mp hpool with hold | hnew
          · exact .inl hold
          · rw [List.mem_singleton.mp hnew]
            exact .inr List.mem_cons_self
        · exact .inr (List.mem_cons_of_mem row hrows)

theorem nodup_topUp (h : (pool.map key).Nodup) : ((topUp key cap pool rows).map key).Nodup := by
  induction rows generalizing pool with
  | nil => exact h
  | cons row rows ih =>
      unfold topUp
      split
      · exact h
      split
      · exact ih h
      · rename_i hnew
        apply ih
        rw [List.map_append, List.nodup_append]
        refine ⟨h, List.nodup_singleton _, fun k hk k' hk' => ?_⟩
        rw [List.mem_singleton.mp hk']
        rintro rfl
        exact hnew hk

/-- The pool is full, or no row is left out. -/
theorem full_or_has_topUp : cap ≤ (topUp key cap pool rows).length ∨
    ∀ row ∈ rows, key row ∈ (topUp key cap pool rows).map key := by
  induction rows generalizing pool with
  | nil => exact .inr (by simp)
  | cons row rows ih =>
      unfold topUp
      split
      · rename_i hfull
        exact .inl hfull
      split
      · rename_i hold
        refine ih.imp_right fun hrows other hother => ?_
        rcases List.mem_cons.mp hother with rfl | hother
        · exact List.map_subset key prefix_topUp.subset hold
        · exact hrows other hother
      · refine ih.imp_right fun hrows other hother => ?_
        rcases List.mem_cons.mp hother with rfl | hother
        · exact List.mem_map_of_mem (prefix_topUp.subset (List.mem_append_right pool
            List.mem_cons_self))
        · exact hrows other hother

theorem min_le_length_topUp (h : (rows.map key).Nodup) :
    min cap rows.length ≤ (topUp key cap pool rows).length := by
  have hcases : cap ≤ (topUp key cap pool rows).length ∨
      ∀ row ∈ rows, key row ∈ (topUp key cap pool rows).map key := full_or_has_topUp
  rcases hcases with hfull | hhas
  · exact Nat.le_trans (Nat.min_le_left _ _) hfull
  · have hkeys : rows.map key ⊆ (topUp key cap pool rows).map key := by
      intro k hk
      obtain ⟨row, hrow, rfl⟩ := List.mem_map.mp hk
      exact hhas row hrow
    have hle := (h.subperm hkeys).length_le
    rw [List.length_map, List.length_map] at hle
    exact Nat.le_trans (Nat.min_le_right _ _) hle

end topUp

/-! ## One draw -/

/-- As many rows of those that are left as there may be, and none twice. -/
structure Draws (key : α → κ) (size : Nat) (left drawn : List α) : Prop where
  subset : drawn ⊆ left
  nodup : (drawn.map key).Nodup
  length : drawn.length = min size left.length

theorem length_le_of_subset (hsubset : drawn ⊆ left)
    (hnodup : (drawn.map key).Nodup) : drawn.length ≤ left.length :=
  ((List.Nodup.of_map key hnodup).subperm hsubset).length_le

/-- Who takes from a pool that has enough draws. -/
theorem draws_take (hsubset : pool ⊆ left)
    (hnodup : (pool.map key).Nodup) (henough : min size left.length ≤ pool.length) :
    Draws key size left (pool.take size) where
  subset := fun _ hx => hsubset (List.mem_of_mem_take hx)
  nodup := by
    rw [List.map_take]
    exact hnodup.sublist (List.take_sublist size _)
  length := by
    have hle := length_le_of_subset hsubset hnodup
    rw [List.length_take]
    omega

/-- Who may draw enough draws everything. -/
theorem Draws.perm (h : Draws key size left drawn) (henough : left.length ≤ size) :
    drawn.Perm left := by
  refine ((List.Nodup.of_map key h.nodup).subperm h.subset).perm_of_length_le ?_
  exact Nat.le_of_eq (h.length.trans (Nat.min_eq_right henough)).symm

/-! ## Rounds -/

variable [DecidableEq κ]

/-- What a draw leaves. -/
def leftAfter (key : α → κ) (left drawn : List α) : List α :=
  left.filter fun x => key x ∉ drawn.map key

/-- Round after round, each drawing by the rule from what those before it have left. -/
inductive InRounds (key : α → κ) (rule : ρ → List α → List α → Prop) :
    List ρ → List α → List (List α) → Prop
  | done (left : List α) : InRounds key rule [] left []
  | round {r : ρ} {rs : List ρ} {left drawn : List α} {later : List (List α)}
      (draws : rule r left drawn) (rest : InRounds key rule rs (leftAfter key left drawn) later) :
      InRounds key rule (r :: rs) left (drawn :: later)

theorem leftAfter_subset : leftAfter key left drawn ⊆ left := List.filter_subset_self _

/-- The drawn and the left make up what there was. -/
theorem Draws.length_leftAfter (h : Draws key size left drawn) (hleft : (left.map key).Nodup) :
    drawn.length + (leftAfter key left drawn).length = left.length := by
  have hdrawn : drawn.Perm (left.filter fun x => key x ∈ drawn.map key) := by
    refine (List.perm_ext_iff_of_nodup (List.Nodup.of_map key h.nodup)
      ((List.Nodup.of_map key hleft).filter _)).mpr fun x => ?_
    rw [List.mem_filter, decide_eq_true_eq]
    constructor
    · exact fun hx => ⟨h.subset hx, List.mem_map_of_mem hx⟩
    · rintro ⟨hx, hkey⟩
      obtain ⟨y, hy, hxy⟩ := List.mem_map.mp hkey
      rwa [← List.inj_on_of_nodup_map hleft (h.subset hy) hx hxy]
  rw [hdrawn.length_eq, ← List.countP_eq_length_filter, leftAfter, ← List.countP_eq_length_filter]
  have hsplit := List.length_eq_countP_add_countP (fun x => decide (key x ∈ drawn.map key))
    (l := left)
  simp only [decide_eq_true_eq] at hsplit
  exact hsplit.symm

variable {rule : ρ → List α → List α → Prop} {sizeOf : ρ → Nat} {rs : List ρ}
  {rounds : List (List α)}

/-- Whatever else the rule says: nothing is drawn twice, and as much is drawn as the
rounds allow together. -/
theorem InRounds.draws (h : InRounds key rule rs left rounds)
    (hrule : ∀ r left drawn, rule r left drawn → Draws key (sizeOf r) left drawn)
    (hleft : (left.map key).Nodup) : Draws key (rs.map sizeOf).sum left rounds.flatten := by
  induction h with
  | done left => exact ⟨List.nil_subset left, List.nodup_nil, by simp⟩
  | @round r rs left drawn later draws rest ih =>
      have hdraws := hrule r left drawn draws
      have hlater := ih (hleft.sublist (List.Sublist.map key List.filter_sublist))
      have hcount := hdraws.length_leftAfter hleft
      refine ⟨?_, ?_, ?_⟩
      · rw [List.flatten_cons]
        exact List.append_subset.mpr
          ⟨hdraws.subset, fun x hx => leftAfter_subset (hlater.subset hx)⟩
      · rw [List.flatten_cons, List.map_append, List.nodup_append]
        refine ⟨hdraws.nodup, hlater.nodup, fun k hk k' hk' => ?_⟩
        rintro rfl
        obtain ⟨x, hx, rfl⟩ := List.mem_map.mp hk'
        have hnew := (List.mem_filter.mp (hlater.subset hx)).2
        exact of_decide_eq_true hnew hk
      · rw [List.flatten_cons, List.length_append, hdraws.length, hlater.length, List.map_cons,
          List.sum_cons]
        rw [hdraws.length] at hcount
        omega

end Collections
