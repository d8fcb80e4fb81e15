import Mathlib.Data.List.Nodup

/-! # Maps that remember the order of insertion

A key keeps the place it was first given; setting it again replaces its value.
-/

namespace Collections

structure OrderedMap (κ α : Type) where
  entries : List (κ × α)
  distinct : (entries.map Prod.fst).Nodup
  deriving DecidableEq, Repr

namespace OrderedMap

variable {κ α : Type}

def empty : OrderedMap κ α := ⟨[], List.nodup_nil⟩

def keys (m : OrderedMap κ α) : List κ := m.entries.map Prod.fst

def values (m : OrderedMap κ α) : List α := m.entries.map Prod.snd

variable [DecidableEq κ]

def find (k : κ) : List (κ × α) → Option α
  | [] => none
  | entry :: rest => if entry.1 = k then some entry.2 else find k rest

def get (m : OrderedMap κ α) (k : κ) : Option α := find k m.entries

def has (m : OrderedMap κ α) (k : κ) : Bool := (m.get k).isSome

def put (k : κ) (a : α) : List (κ × α) → List (κ × α)
  | [] => [(k, a)]
  | entry :: rest => if entry.1 = k then (k, a) :: rest else entry :: put k a rest

theorem fst_put (k : κ) (a : α) (entries : List (κ × α)) : (put k a entries).map Prod.fst =
    if k ∈ entries.map Prod.fst then entries.map Prod.fst else entries.map Prod.fst ++ [k] := by
  induction entries with
  | nil => rfl
  | cons entry rest ih =>
      by_cases hk : entry.1 = k
      · simp [put, hk]
      · have hne : k ≠ entry.1 := Ne.symm hk
        rw [put, if_neg hk, List.map_cons, ih, List.map_cons]
        by_cases hmem : k ∈ rest.map Prod.fst
        · rw [if_pos hmem, if_pos (List.mem_cons_of_mem _ hmem)]
        · rw [if_neg hmem, if_neg (by simp [hne]; simpa using hmem), List.cons_append]

/-- A new key goes to the end, a known one stays where it is. -/
def set (m : OrderedMap κ α) (k : κ) (a : α) : OrderedMap κ α where
  entries := put k a m.entries
  distinct := by
    rw [fst_put]
    split
    · exact m.distinct
    · rename_i hnew
      exact List.nodup_append.mpr ⟨m.distinct, List.nodup_singleton k, by
        intro x hx y hy hxy
        rw [List.mem_singleton.mp hy] at hxy
        exact hnew (hxy ▸ hx)⟩

theorem find_put (k k' : κ) (a : α) (entries : List (κ × α)) :
    find k' (put k a entries) = if k' = k then some a else find k' entries := by
  induction entries with
  | nil =>
      by_cases hk : k' = k
      · simp [put, find, hk]
      · simp [put, find, hk, Ne.symm hk]
  | cons entry rest ih =>
      by_cases hentry : entry.1 = k
      · by_cases hk : k' = k
        · simp [put, find, hentry, hk]
        · simp [put, find, hentry, hk, Ne.symm hk]
      · rw [put, if_neg hentry, find, ih, find]
        by_cases hk : k' = k
        · simp [hk, hentry]
        · simp [hk]

@[simp] theorem get_empty (k : κ) : (empty : OrderedMap κ α).get k = none := rfl

@[simp] theorem get_set (m : OrderedMap κ α) (k k' : κ) (a : α) :
    (m.set k a).get k' = if k' = k then some a else m.get k' := find_put k k' a m.entries

theorem mem_put {k : κ} {a : α} {entries : List (κ × α)} {x : κ × α} (h : x ∈ put k a entries) :
    x = (k, a) ∨ x ∈ entries := by
  induction entries with
  | nil => exact .inl (List.mem_singleton.mp h)
  | cons entry rest ih =>
      rw [put] at h
      by_cases hk : entry.1 = k
      · rw [if_pos hk] at h
        rcases List.mem_cons.mp h with hx | hx
        · exact .inl hx
        · exact .inr (List.mem_cons_of_mem _ hx)
      · rw [if_neg hk] at h
        rcases List.mem_cons.mp h with hx | hx
        · exact .inr (hx ▸ List.mem_cons_self)
        · exact (ih hx).imp_right (List.mem_cons_of_mem _)

/-- A value of the map after a write is the one written, or was there before. -/
theorem mem_entries_set {m : OrderedMap κ α} {k : κ} {a : α} {x : κ × α}
    (h : x ∈ (m.set k a).entries) : x = (k, a) ∨ x ∈ m.entries := mem_put h

theorem has_iff_mem_keys {m : OrderedMap κ α} {k : κ} : m.has k = true ↔ k ∈ m.keys := by
  have hfind : ∀ entries : List (κ × α), (find k entries).isSome = true ↔
      k ∈ entries.map Prod.fst := by
    intro entries
    induction entries with
    | nil => simp [find]
    | cons entry rest ih =>
        by_cases hk : entry.1 = k
        · simp [find, hk]
        · simp [find, hk, ih, Ne.symm hk]
  exact hfind m.entries

theorem has_set (m : OrderedMap κ α) (k k' : κ) (a : α) :
    (m.set k a).has k' = (decide (k' = k) || m.has k') := by
  rw [has, get_set]
  by_cases hk : k' = k
  · simp [hk]
  · simp [hk, has]

/-! ### Keys that values have -/

/-- Every value is held under the key it has itself. -/
def KeyedBy (key : α → κ) (m : OrderedMap κ α) : Prop :=
  ∀ entry ∈ m.entries, key entry.2 = entry.1

omit [DecidableEq κ] in
theorem keyedBy_empty (key : α → κ) : (empty : OrderedMap κ α).KeyedBy key := by
  intro entry hentry
  cases hentry

theorem KeyedBy.set {key : α → κ} {m : OrderedMap κ α} (h : m.KeyedBy key) {k : κ} {a : α}
    (ha : key a = k) : (m.set k a).KeyedBy key := by
  intro entry hentry
  cases mem_entries_set hentry with
  | inl hnew =>
    rw [hnew]
    exact ha
  | inr hold => exact h entry hold

omit [DecidableEq κ] in
/-- Held under their own keys, the values have different ones. -/
theorem KeyedBy.nodup {key : α → κ} {m : OrderedMap κ α} (h : m.KeyedBy key) :
    (m.values.map key).Nodup := by
  have hkeys : m.values.map key = m.keys := by
    rw [values, keys, List.map_map]
    exact List.map_congr_left h
  rw [hkeys]
  exact m.distinct

end OrderedMap

/-! ## Sets -/

/-- A set that remembers the order of insertion. -/
abbrev OrderedSet (κ : Type) := OrderedMap κ Unit

namespace OrderedSet

variable {κ : Type} [DecidableEq κ]

def add (set : OrderedSet κ) (k : κ) : OrderedSet κ := set.set k ()

theorem has_add (set : OrderedSet κ) (k k' : κ) :
    OrderedMap.has (set.add k) k' = (decide (k' = k) || OrderedMap.has set k') :=
  OrderedMap.has_set set k k' ()

end OrderedSet

end Collections
