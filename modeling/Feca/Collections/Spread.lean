import Mathlib.Data.List.Perm.Subperm

/-! # Taking entries with their keys apart

Entries are taken from a pool one by one: the first whose key is not that of the
one before, or the first of all where every key is that one. Entries of one key
come in the order they had, and neighbours share a key only where nothing else
was left.
-/

namespace Collections

section spread

variable {α β κ : Type} {key : α → κ}

/-- What one turn takes: only entries with the key before are passed over, and
only for one with another key. -/
structure Takes (key : α → κ) (prev : Option κ) (pool front : List α) (x : α) (rest : List α) :
    Prop where
  entries : pool = front ++ x :: rest
  passed : ∀ y ∈ front, prev = some (key y) ∧ key y ≠ key x
  repeated : prev = some (key x) → ∀ y ∈ pool, key y = key x

theorem Takes.mem_of_ne {prev : Option κ} {pool front rest : List α} {x z : α}
    (h : Takes key prev pool front x rest) (hz : z ∈ pool) (hne : z ≠ x) : z ∈ front ++ rest := by
  rw [h.entries, List.mem_append, List.mem_cons] at hz
  rw [List.mem_append]
  exact hz.imp_right fun hrest => hrest.resolve_left hne

variable [DecidableEq κ] (key)

/-- Where the next entry stands in the pool. -/
def nextIndex (prev : Option κ) (pool : List α) : Nat :=
  match prev with
  | none => 0
  | some k => (pool.findIdx? fun x => key x != k).getD 0

def spread : Nat → Option κ → List α → List α
  | 0, _, _ => []
  | count + 1, prev, pool =>
    match pool[nextIndex key prev pool]? with
    | none => []
    | some x => x :: spread count (some (key x)) (pool.eraseIdx (nextIndex key prev pool))

variable {key}

@[simp] theorem spread_nil (count : Nat) (prev : Option κ) : spread key count prev [] = [] := by
  cases count with
  | zero => rfl
  | succ count => simp [spread]

variable (key) in
theorem nextIndex_takes (prev : Option κ) {pool : List α} (h : pool ≠ []) :
    ∃ front x rest, Takes key prev pool front x rest ∧ nextIndex key prev pool = front.length := by
  obtain ⟨first, others, rfl⟩ := List.exists_cons_of_ne_nil h
  cases prev with
  | none =>
    refine ⟨[], first, others, ⟨rfl, nofun, nofun⟩, rfl⟩
  | some k =>
    rw [nextIndex]
    cases hfind : (first :: others).findIdx? fun x => key x != k with
    | none =>
      have hall : ∀ y ∈ first :: others, key y = k := by
        simpa [List.findIdx?_eq_none_iff] using hfind
      refine ⟨[], first, others, ⟨rfl, nofun, ?_⟩, rfl⟩
      intro hfirst y hy
      rw [hall y hy, Option.some.inj hfirst]
    | some i =>
      obtain ⟨hi, hother, hbefore⟩ := List.findIdx?_eq_some_iff_getElem.mp hfind
      have hkey : key (first :: others)[i] ≠ k := by simpa using hother
      refine ⟨(first :: others).take i, (first :: others)[i], (first :: others).drop (i + 1),
        ⟨?_, ?_, ?_⟩, ?_⟩
      · rw [← List.drop_eq_getElem_cons hi, List.take_append_drop]
      · intro y hy
        obtain ⟨j, hj, rfl⟩ := List.mem_take_iff_getElem.mp hy
        have hsame : key (first :: others)[j] = k := by
          simpa using hbefore j (Nat.lt_of_lt_of_le hj (Nat.min_le_left _ _))
        rw [hsame]
        exact ⟨rfl, Ne.symm hkey⟩
      · intro hprev
        exact absurd (Option.some.inj hprev).symm hkey
      · rw [List.length_take_of_le (Nat.le_of_lt hi), Option.getD_some]

variable (key) in
theorem spread_step (count : Nat) (prev : Option κ) {pool : List α} (h : pool ≠ []) :
    ∃ front x rest, Takes key prev pool front x rest ∧
      spread key (count + 1) prev pool = x :: spread key count (some (key x)) (front ++ rest) := by
  obtain ⟨front, x, rest, htakes, hindex⟩ := nextIndex_takes key prev h
  refine ⟨front, x, rest, htakes, ?_⟩
  rw [spread, hindex, htakes.entries, List.getElem?_append_right (Nat.le_refl _), Nat.sub_self,
    List.getElem?_cons_zero, List.eraseIdx_append_of_length_le (Nat.le_refl _), Nat.sub_self]
  rfl

/-! ## What a run takes -/

/-- So many of the pool, each once. -/
theorem spread_subperm (count : Nat) (prev : Option κ) (pool : List α) :
    (spread key count prev pool).Subperm pool ∧
      (spread key count prev pool).length = min count pool.length := by
  induction count generalizing prev pool with
  | zero => simp [spread]
  | succ count ih =>
    by_cases hnil : pool = []
    · simp [hnil]
    · obtain ⟨front, x, rest, htakes, hstep⟩ := spread_step key count prev hnil
      obtain ⟨hsub, hlength⟩ := ih (some (key x)) (front ++ rest)
      rw [hstep, htakes.entries]
      refine ⟨((List.subperm_cons x).mpr hsub).trans List.perm_middle.symm.subperm, ?_⟩
      simp only [List.length_cons, hlength, List.length_append]
      omega

theorem mem_of_mem_spread {count : Nat} {prev : Option κ} {pool : List α} {x : α}
    (h : x ∈ spread key count prev pool) : x ∈ pool :=
  (spread_subperm count prev pool).1.subset h

/-- A shorter run takes what a longer one takes first. -/
theorem take_spread {count n : Nat} (h : count ≤ n) (prev : Option κ) (pool : List α) :
    (spread key n prev pool).take count = spread key count prev pool := by
  induction count generalizing n prev pool with
  | zero => rfl
  | succ count ih =>
    obtain ⟨n, rfl⟩ := Nat.exists_eq_add_one_of_ne_zero (Nat.ne_zero_of_lt h)
    rw [spread, spread]
    cases pool[nextIndex key prev pool]? with
    | none => rfl
    | some x =>
      dsimp only
      rw [List.take_succ_cons, ih (Nat.le_of_succ_le_succ h)]

/-- The first entry taken is the first of the pool. -/
theorem head?_spread (count : Nat) (pool : List α) :
    (spread key (count + 1) none pool).head? = pool.head? := by
  cases pool with
  | nil => simp
  | cons x pool => rfl

/-- Entries of one key come in the order of the pool. -/
theorem spread_pairwise {r : α → α → Prop} (count : Nat) (prev : Option κ) {pool : List α}
    (hpool : pool.Pairwise r) :
    (spread key count prev pool).Pairwise fun x y => key x = key y → r x y := by
  induction count generalizing prev pool with
  | zero => exact List.Pairwise.nil
  | succ count ih =>
    by_cases hnil : pool = []
    · rw [hnil, spread_nil]
      exact List.Pairwise.nil
    · obtain ⟨front, x, rest, htakes, hstep⟩ := spread_step key count prev hnil
      rw [htakes.entries] at hpool
      have hx := (List.pairwise_cons.mp (List.pairwise_append.mp hpool).2.1).1
      have hothers : (front ++ x :: rest).Pairwise r → (front ++ rest).Pairwise r :=
        fun h => h.sublist ((List.sublist_cons_self x rest).append_left front)
      rw [hstep, List.pairwise_cons]
      refine ⟨?_, ih (some (key x)) (hothers hpool)⟩
      intro y hy hkey
      rcases List.mem_append.mp (mem_of_mem_spread hy) with hfront | hrest
      · exact absurd hkey.symm (htakes.passed y hfront).2
      · exact hx y hrest

/-- Neighbours share a key only where every entry still in the pool has it. -/
theorem spread_adjacent {count : Nat} {prev : Option κ} {pool before after : List α} {x y : α}
    (h : spread key count prev pool = before ++ x :: y :: after) (hkey : key x = key y) :
    ∀ z ∈ pool, z ∉ before ++ [x] → key z = key x := by
  induction before generalizing count prev pool with
  | nil =>
    intro z hz hother
    cases count with
    | zero => cases h
    | succ count =>
      obtain ⟨front, first, rest, htakes, hstep⟩ := spread_step key count prev (List.ne_nil_of_mem hz)
      rw [hstep, List.nil_append] at h
      obtain ⟨rfl, hlater⟩ := List.cons.inj h
      rw [List.nil_append, List.mem_singleton] at hother
      have hleft := htakes.mem_of_ne hz hother
      cases count with
      | zero => cases hlater
      | succ count =>
        obtain ⟨front', second, rest', htakes', hstep'⟩ :=
          spread_step key count (some (key first)) (List.ne_nil_of_mem hleft)
        rw [hstep'] at hlater
        obtain ⟨rfl, -⟩ := List.cons.inj hlater
        rw [htakes'.repeated (by rw [hkey]) z hleft, hkey]
  | cons b before ih =>
    intro z hz hother
    cases count with
    | zero => cases h
    | succ count =>
      obtain ⟨front, first, rest, htakes, hstep⟩ := spread_step key count prev (List.ne_nil_of_mem hz)
      rw [hstep, List.cons_append] at h
      obtain ⟨rfl, hlater⟩ := List.cons.inj h
      rw [List.cons_append, List.mem_cons, not_or] at hother
      exact ih hlater z (htakes.mem_of_ne hz hother.1) hother.2

variable (key) in
/-- Only the keys decide what is taken. -/
theorem spread_map (f : β → α) (count : Nat) (prev : Option κ) (pool : List β) :
    spread key count prev (pool.map f) = (spread (key ∘ f) count prev pool).map f := by
  have hindex : ∀ (prev : Option κ) (pool : List β),
      nextIndex key prev (pool.map f) = nextIndex (key ∘ f) prev pool := by
    intro prev pool
    cases prev with
    | none => rfl
    | some k =>
      rw [nextIndex, nextIndex, List.findIdx?_map]
      rfl
  induction count generalizing prev pool with
  | zero => rfl
  | succ count ih =>
    rw [spread, spread, hindex, List.getElem?_map]
    cases pool[nextIndex (key ∘ f) prev pool]? with
    | none => rfl
    | some x =>
      dsimp only [Option.map_some, Function.comp_apply]
      rw [List.map_cons, ← ih, List.eraseIdx_map]

end spread

end Collections
