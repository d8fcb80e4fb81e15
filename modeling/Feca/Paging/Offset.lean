import Mathlib.Data.List.Nodup
import Mathlib.Data.List.Perm.Subperm
import Mathlib.Data.List.Sort
import Feca.Collections.Selection
import Feca.Paging.Walk

/-! # Paging by offset

A request names how many rows to skip, and its answer is cut from a list the
server may rank anew for every offset. The client asks again from the number of
rows it has seen, as long as the reported total promises more.
-/

namespace Paging

open Collections

variable {α φ : Type}

/-- A slice of a list, and the offset behind it while the total promises more. -/
def offsetPage (total limit : Nat) (list : List α) (offset : Nat) : Page Nat α :=
  let items := (list.drop offset).take limit
  ⟨items, if offset + items.length < total then some (offset + items.length) else none⟩

/-- The page as its client sees it. -/
theorem offsetPage_map {κ β : Type} (encode : Nat → κ) (view : α → β) (total limit : Nat)
    (list : List α) (offset : Nat) :
    (offsetPage total limit list offset).map encode view =
      let items := ((list.drop offset).take limit).map view
      ⟨items, if offset + items.length < total then some (encode (offset + items.length))
        else none⟩ := by
  dsimp only [offsetPage, Page.map]
  rw [List.length_map]
  split <;> rfl

/-- A server with a list for each offset. -/
def serveOffsets (total limit : Nat) (lists : Nat → List α) (_ : Nat) (cursor : Option Nat) :
    Except φ (Page Nat α) :=
  .ok (offsetPage total limit (lists (cursor.getD 0)) (cursor.getD 0))

/-- What the `k`-th page shows when all before it were full. -/
def slot (limit : Nat) (lists : Nat → List α) (k : Nat) : List α :=
  ((lists (k * limit)).drop (k * limit)).take limit

/-- The number of the last page. -/
def lastPage (total limit : Nat) : Nat := (total - 1) / limit

/-- Every slot up to the last. -/
def slots (total limit : Nat) (lists : Nat → List α) : List α :=
  (List.range (lastPage total limit + 1)).flatMap (slot limit lists)

/-- Every list is long enough to fill its page, and none is longer than promised. -/
structure Fills (total limit : Nat) (lists : Nat → List α) : Prop where
  long : ∀ k, min total ((k + 1) * limit) ≤ (lists (k * limit)).length
  short : ∀ offset, (lists offset).length ≤ total

variable {total limit : Nat} {lists : Nat → List α}

/-- Lists of pools that reach beyond their page fill it, up to the cap. -/
theorem fills_of_pools {cap : Nat} {poolTake : Nat → Nat} (hcap : total ≤ cap)
    (hreach : ∀ offset, min cap (offset + limit) ≤ poolTake offset)
    (hlength : ∀ offset, (lists offset).length = min (poolTake offset) total) :
    Fills total limit lists := by
  constructor
  · intro k
    have hpool := hreach (k * limit)
    rw [hlength, Nat.add_mul, Nat.one_mul]
    omega
  · intro offset
    rw [hlength]
    exact Nat.min_le_right _ _

theorem le_lastPage (hlimit : 0 < limit) : total ≤ (lastPage total limit + 1) * limit := by
  have hmod : (total - 1) % limit < limit := Nat.mod_lt _ hlimit
  have hdiv : limit * ((total - 1) / limit) + (total - 1) % limit = total - 1 :=
    Nat.div_add_mod _ _
  have hcomm : (total - 1) / limit * limit = limit * ((total - 1) / limit) := Nat.mul_comm _ _
  rw [lastPage, Nat.add_mul, Nat.one_mul]
  omega

theorem lastPage_lt : lastPage total limit = 0 ∨ lastPage total limit * limit < total := by
  have hle : (total - 1) / limit * limit ≤ total - 1 := Nat.div_mul_le_self _ _
  rw [lastPage]
  by_cases htotal : total = 0
  · exact .inl (by simp [htotal])
  · exact .inr (by omega)

/-! ## The walk -/

theorem Fills.length_slot (h : Fills total limit lists) (k : Nat) :
    (slot limit lists k).length = min limit (total - k * limit) := by
  have hlong := h.long k
  have hshort := h.short (k * limit)
  rw [Nat.add_mul, Nat.one_mul] at hlong
  rw [slot, List.length_take, List.length_drop]
  omega

/-- The page at `k` full pages shows slot `k`. -/
theorem serveOffsets_eq {i k : Nat} {cursor : Option Nat} (hcursor : cursor.getD 0 = k * limit) :
    serveOffsets (φ := φ) total limit lists i cursor =
      .ok (offsetPage total limit (lists (k * limit)) (k * limit)) := by
  rw [serveOffsets, hcursor]

theorem offsetPage_last (h : Fills total limit lists) {k : Nat} (hlast : total ≤ (k + 1) * limit) :
    (offsetPage total limit (lists (k * limit)) (k * limit)).next = none := by
  have hlen : (slot limit lists k).length = min limit (total - k * limit) := h.length_slot k
  rw [Nat.add_mul, Nat.one_mul] at hlast
  have hnot : ¬ k * limit + (slot limit lists k).length < total := by omega
  exact if_neg hnot

theorem offsetPage_more (h : Fills total limit lists) {k : Nat} (hmore : (k + 1) * limit < total) :
    (offsetPage total limit (lists (k * limit)) (k * limit)).next = some ((k + 1) * limit) := by
  have hlen : (slot limit lists k).length = min limit (total - k * limit) := h.length_slot k
  rw [Nat.add_mul, Nat.one_mul] at hmore ⊢
  have hfull : k * limit + (slot limit lists k).length = k * limit + limit := by omega
  have hlt : k * limit + (slot limit lists k).length < total := by omega
  exact (if_pos hlt).trans (congrArg some hfull)

/-- From page `k` on, the walk shows slot after slot. -/
theorem walk_slots (h : Fills total limit lists) {n k i fuel : Nat} {cursor : Option Nat}
    (hcursor : cursor.getD 0 = k * limit) (hlast : total ≤ (k + n + 1) * limit)
    (hmore : n = 0 ∨ (k + n) * limit < total) (hfuel : n < fuel) :
    Ended (walk (serveOffsets (φ := φ) total limit lists) fuel i cursor) ∧
      allItems (walk (serveOffsets (φ := φ) total limit lists) fuel i cursor) =
        (List.range' k (n + 1)).flatMap (slot limit lists) := by
  obtain ⟨fuel, rfl⟩ : ∃ m, fuel = m + 1 := ⟨fuel - 1, by omega⟩
  have hserve : serveOffsets (φ := φ) total limit lists i cursor =
      .ok (offsetPage total limit (lists (k * limit)) (k * limit)) := serveOffsets_eq hcursor
  induction n generalizing k i fuel cursor with
  | zero =>
      have hnext := offsetPage_last h hlast
      rw [walk_last hserve hnext]
      refine ⟨ended_singleton hnext, ?_⟩
      simp [offsetPage, slot]
  | succ n ih =>
      obtain ⟨fuel, rfl⟩ : ∃ m, fuel = m + 1 := ⟨fuel - 1, by omega⟩
      have hthis : (k + 1) * limit < total := by
        have hle : (k + 1) * limit ≤ (k + (n + 1)) * limit := Nat.mul_le_mul_right _ (by omega)
        omega
      have hnext := offsetPage_more h hthis
      rw [walk_more hserve hnext]
      have hcount : k + 1 + n = k + (n + 1) := by omega
      have hlast' : total ≤ (k + 1 + n + 1) * limit := by rwa [hcount]
      have hmore' : n = 0 ∨ (k + 1 + n) * limit < total := by
        rw [hcount]
        exact .inr (hmore.resolve_left (Nat.succ_ne_zero n))
      have hcursor' : (some ((k + 1) * limit)).getD 0 = (k + 1) * limit := rfl
      have hrest := ih (i := i + 1) hcursor' hlast' hmore' fuel (by omega) (serveOffsets_eq hcursor')
      refine ⟨ended_cons hrest.1, ?_⟩
      rw [allItems_cons, hrest.2, List.range'_succ, List.flatMap_cons]
      rfl

/-- Enough requests see every slot, and then the walk is over. -/
theorem walk_offsets (hlimit : 0 < limit) (h : Fills total limit lists) {fuel : Nat}
    (hfuel : lastPage total limit < fuel) :
    Ended (walk (serveOffsets (φ := φ) total limit lists) fuel 0 none) ∧
      allItems (walk (serveOffsets (φ := φ) total limit lists) fuel 0 none) =
        slots total limit lists := by
  have hcursor : (none : Option Nat).getD 0 = 0 * limit := (Nat.zero_mul limit).symm
  have hlast : total ≤ (0 + lastPage total limit + 1) * limit := by
    rw [Nat.zero_add]
    exact le_lastPage hlimit
  have hmore : lastPage total limit = 0 ∨ (0 + lastPage total limit) * limit < total := by
    rw [Nat.zero_add]
    exact lastPage_lt
  have hwalk := walk_slots (φ := φ) (i := 0) h hcursor hlast hmore hfuel
  rwa [← List.range_eq_range'] at hwalk

/-- A walk that has ended has seen every slot, however many requests it had left. -/
theorem allItems_of_ended (hlimit : 0 < limit) (h : Fills total limit lists) {fuel : Nat}
    (hended : Ended (walk (serveOffsets (φ := φ) total limit lists) fuel 0 none)) :
    allItems (walk (serveOffsets (φ := φ) total limit lists) fuel 0 none) =
      slots total limit lists := by
  have hmore : lastPage total limit < fuel + (lastPage total limit + 1) := by omega
  have hlong := walk_offsets (φ := φ) hlimit h hmore
  rw [walk_of_ended hended] at hlong
  exact hlong.2

/-! ## What a walk misses -/

/-- A total beyond what any list holds keeps the client asking. -/
theorem not_ended_of_short {cap : Nat} (hcap : ∀ offset, (lists offset).length ≤ cap)
    (htotal : cap < total) {fuel i : Nat} {cursor : Option Nat} (hcursor : cursor.getD 0 ≤ cap) :
    ¬ Ended (walk (serveOffsets (φ := φ) total limit lists) fuel i cursor) := by
  induction fuel generalizing i cursor with
  | zero => exact not_ended_nil
  | succ fuel ih =>
      have hlist := hcap (cursor.getD 0)
      have hserve : serveOffsets (φ := φ) total limit lists i cursor =
          .ok (offsetPage total limit (lists (cursor.getD 0)) (cursor.getD 0)) := rfl
      have hseen : cursor.getD 0 + (((lists (cursor.getD 0)).drop (cursor.getD 0)).take
          limit).length ≤ cap := by
        rw [List.length_take, List.length_drop]
        omega
      have hnext : (offsetPage total limit (lists (cursor.getD 0)) (cursor.getD 0)).next = some _ :=
        if_pos (Nat.lt_of_le_of_lt hseen htotal)
      rw [walk_more hserve hnext]
      intro hended
      have hrest := hended.tail hnext
      refine ih ?_ hrest
      exact hseen

/-! ## Every row exactly once -/

variable {full : List α}

/-- Rows that are known by a key are permuted as soon as their keys are. -/
theorem perm_of_map_perm {β : Type} {f : α → β} {list : List α} (hfull : (full.map f).Nodup)
    (hsub : list ⊆ full) (hperm : (list.map f).Perm (full.map f)) : list.Perm full := by
  have hnodup : list.Nodup := (hperm.nodup_iff.mpr hfull).of_map f
  have hlength : list.length = full.length := by simpa using hperm.length_eq
  exact (List.subperm_of_subset hnodup hsub).perm_of_length_le hlength.ge

/-! ## Lists that are parts of one ranking -/

/-- The first rows agree with the ranking once the last of them belong there. -/
theorem take_eq_of_sublist {list : List α} (hfull : full.Nodup) (hsub : list.Sublist full)
    {m n : Nat} (hmn : m < n) (hlength : n ≤ list.length)
    (hslot : ∀ a ∈ (list.drop m).take (n - m), a ∈ full.take n) : list.take n = full.take n := by
  have hsplit : list.Sublist (full.take n ++ full.drop n) := by rwa [List.take_append_drop]
  obtain ⟨front, back, rfl, hfront, hback⟩ := List.sublist_append_iff.mp hsplit
  have hshort : front.length ≤ n := hfront.length_le.trans (List.length_take_le _ _)
  by_cases hlong : n ≤ front.length
  · have hfrontEq : front = full.take n :=
      hfront.eq_of_length_le ((List.length_take_le _ _).trans hlong)
    rw [List.take_append_of_le_length hlong, List.take_of_length_le hshort, hfrontEq]
  · -- The last row would be both among the first `n` of the ranking and behind them.
    have hlast : n - 1 < (front ++ back).length := by omega
    have hmem : (front ++ back)[n - 1] ∈ ((front ++ back).drop m).take (n - m) := by
      rw [List.mem_iff_getElem]
      refine ⟨n - 1 - m, by rw [List.length_take, List.length_drop]; omega, ?_⟩
      rw [List.getElem_take, List.getElem_drop]
      congr 1
      omega
    have hback' : (front ++ back)[n - 1] ∈ full.drop n := by
      rw [List.getElem_append_right (by omega)]
      exact hback.subset (List.getElem_mem _)
    have hdisjoint := List.disjoint_take_drop hfull (le_refl n)
    exact absurd hback' (hdisjoint (hslot _ hmem))

theorem slot_eq_drop_take (k : Nat) :
    slot limit lists k = ((lists (k * limit)).take ((k + 1) * limit)).drop (k * limit) := by
  rw [slot, List.drop_take, Nat.add_mul, Nat.one_mul, Nat.add_sub_cancel_left]

/-- The lists agree with the ranking as far as each page reaches. -/
def Agrees (full : List α) (limit : Nat) (lists : Nat → List α) : Prop :=
  ∀ k, k * limit < full.length →
    (lists (k * limit)).take ((k + 1) * limit) = full.take ((k + 1) * limit)

theorem flatMap_slot_of_agrees (h : Fills full.length limit lists)
    (hagrees : Agrees full limit lists) (n : Nat) :
    (List.range n).flatMap (slot limit lists) = full.take (n * limit) := by
  induction n with
  | zero => simp
  | succ n ih =>
      rw [List.range_succ, List.flatMap_append, ih, List.flatMap_singleton, Nat.add_mul,
        Nat.one_mul, List.take_add]
      congr 1
      by_cases hn : n * limit < full.length
      · rw [slot_eq_drop_take, hagrees n hn, List.drop_take, Nat.add_mul, Nat.one_mul,
          Nat.add_sub_cancel_left]
      · have hslot := h.length_slot n
        rw [List.drop_of_length_le (by omega), List.take_nil]
        exact List.eq_nil_of_length_eq_zero (by omega)

/-- Lists that agree with a ranking as far as their pages reach show the ranking. -/
theorem slots_of_agrees (hlimit : 0 < limit) (h : Fills full.length limit lists)
    (hagrees : Agrees full limit lists) : slots full.length limit lists = full := by
  rw [slots, flatMap_slot_of_agrees h hagrees, List.take_of_length_le (le_lastPage hlimit)]

/-- The slots of one list are the list. -/
theorem slots_const (hlimit : 0 < limit) (full : List α) :
    slots full.length limit (fun _ => full) = full := by
  have hfills : Fills full.length limit fun _ => full :=
    ⟨fun _ => Nat.min_le_left _ _, fun _ => le_refl _⟩
  exact slots_of_agrees hlimit hfills fun _ _ => rfl

theorem map_slots {β : Type} (f : α → β) : (slots total limit lists).map f =
    slots total limit fun offset => (lists offset).map f := by
  unfold slots slot
  simp only [List.map_flatMap, List.map_take, List.map_drop]

/-- If the first slots are the first rows of the ranking, then their last page
agrees with it, and the slots before are the rows before. -/
theorem agrees_step (hlimit : 0 < limit) (hfull : full.Nodup) (h : Fills full.length limit lists)
    (hsub : ∀ offset, (lists offset).Sublist full)
    (hall : ∀ k, full.length ≤ (k + 1) * limit → lists (k * limit) = full) {k : Nat}
    (hperm : ((List.range (k + 1)).flatMap (slot limit lists)).Perm
      (full.take ((k + 1) * limit))) :
    (lists (k * limit)).take ((k + 1) * limit) = full.take ((k + 1) * limit) ∧
      ((List.range k).flatMap (slot limit lists)).Perm (full.take (k * limit)) := by
  have htake : (lists (k * limit)).take ((k + 1) * limit) = full.take ((k + 1) * limit) := by
    by_cases hlast : full.length ≤ (k + 1) * limit
    · rw [hall k hlast]
    · have hlong := h.long k
      have hwidth : (k + 1) * limit = k * limit + limit := by rw [Nat.add_mul, Nat.one_mul]
      refine take_eq_of_sublist hfull (hsub _) (m := k * limit) (by omega) (by omega) ?_
      intro a ha
      have hslot : a ∈ slot limit lists k := by
        rwa [show (k + 1) * limit - k * limit = limit by omega] at ha
      exact hperm.subset (List.mem_flatMap.mpr ⟨k, by simp, hslot⟩)
  refine ⟨htake, ?_⟩
  have hsplit : full.take ((k + 1) * limit) = full.take (k * limit) ++ slot limit lists k := by
    rw [slot_eq_drop_take, htake, List.drop_take, Nat.add_mul, Nat.one_mul,
      Nat.add_sub_cancel_left, List.take_add]
  rw [hsplit, List.range_succ, List.flatMap_append, List.flatMap_singleton] at hperm
  exact (List.perm_append_right_iff _).mp hperm

theorem agrees_of_perm (hlimit : 0 < limit) (hfull : full.Nodup)
    (h : Fills full.length limit lists) (hsub : ∀ offset, (lists offset).Sublist full)
    (hall : ∀ k, full.length ≤ (k + 1) * limit → lists (k * limit) = full)
    (hperm : (slots full.length limit lists).Perm full) : Agrees full limit lists := by
  -- From the last page down: each step peels one slot off both sides.
  have hdown : ∀ d k, k + d = lastPage full.length limit + 1 →
      ((List.range k).flatMap (slot limit lists)).Perm (full.take (k * limit)) := by
    intro d
    induction d with
    | zero =>
        intro k hk
        rw [show k = lastPage full.length limit + 1 by omega,
          List.take_of_length_le (le_lastPage hlimit)]
        exact hperm
    | succ d ih =>
        intro k hk
        exact (agrees_step hlimit hfull h hsub hall (ih (k + 1) (by omega))).2
  intro k hk
  have hlast : k < lastPage full.length limit + 1 :=
    Nat.lt_of_mul_lt_mul_right (Nat.lt_of_lt_of_le hk (le_lastPage hlimit))
  have hthis := hdown (lastPage full.length limit - k) (k + 1) (by omega)
  exact (agrees_step hlimit hfull h hsub hall hthis).1

/-- Lists that are parts of one ranking show every row exactly once if and only
if they agree with it as far as each page reaches. -/
theorem slots_perm_iff_agrees (hlimit : 0 < limit) (hfull : full.Nodup)
    (h : Fills full.length limit lists) (hsub : ∀ offset, (lists offset).Sublist full)
    (hall : ∀ k, full.length ≤ (k + 1) * limit → lists (k * limit) = full) :
    (slots full.length limit lists).Perm full ↔ Agrees full limit lists := by
  constructor
  · exact agrees_of_perm hlimit hfull h hsub hall
  · exact fun hagrees => .of_eq (slots_of_agrees hlimit h hagrees)

/-- Lists that rank a growing pool of the latest rows show every row exactly once
if and only if the rows a page should reach, by the ranking of all, are in its pool. -/
theorem slots_perm_iff_pools {rank : List α → List α} {cap : Nat} {poolTake : Nat → Nat}
    (hlimit : 0 < limit) (hfull : full.Nodup) (hperm : ∀ list, (rank list).Perm list)
    (hmono : ∀ some all : List α, some.Sublist all → (rank some).Sublist (rank all))
    (hcap : full.length ≤ cap) (hreach : ∀ offset, min cap (offset + limit) ≤ poolTake offset)
    (hlists : ∀ offset, lists offset = rank (full.take (poolTake offset))) :
    (slots full.length limit lists).Perm full ↔ ∀ k, k * limit < full.length →
      ∀ a ∈ (rank full).take ((k + 1) * limit), a ∈ full.take (poolTake (k * limit)) := by
  have hlength : (rank full).length = full.length := (hperm full).length_eq
  have hranked : (rank full).Nodup := (hperm full).nodup_iff.mpr hfull
  have hsub : ∀ offset, (lists offset).Sublist (rank full) := by
    intro offset
    rw [hlists]
    exact hmono _ _ (List.take_sublist _ _)
  have hfills : Fills full.length limit lists := by
    refine fills_of_pools hcap hreach fun offset => ?_
    rw [hlists, (hperm _).length_eq, List.length_take]
  have hall : ∀ k, full.length ≤ (k + 1) * limit → lists (k * limit) = rank full := by
    intro k hk
    have hpool := hreach (k * limit)
    rw [Nat.add_mul, Nat.one_mul] at hk
    rw [hlists, List.take_of_length_le (by omega)]
  have hiff := slots_perm_iff_agrees hlimit hranked (hlength ▸ hfills) hsub (hlength ▸ hall)
  rw [hlength] at hiff
  have hslots : (slots full.length limit lists).Perm full ↔
      (slots full.length limit lists).Perm (rank full) :=
    ⟨fun h => h.trans (hperm full).symm, fun h => h.trans (hperm full)⟩
  rw [hslots, hiff, Agrees, hlength]
  refine forall_congr' fun k => forall_congr' fun _ => ?_
  rw [take_eq_iff_subset hranked (hsub _)]
  refine forall_congr' fun a => forall_congr' fun _ => ?_
  rw [hlists, (hperm _).mem_iff]

end Paging
