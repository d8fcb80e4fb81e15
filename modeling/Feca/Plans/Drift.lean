import Mathlib.Order.ConditionallyCompleteLattice.Basic
import Mathlib.Data.Int.ConditionallyCompleteOrder
import Feca.Plans.Scroll

/-! # Scrolling while time passes

Without a date to list from, each page lists from the time of its own request,
while the cursor still names the event a plan was listed by before. A plan
whose event is over by then is listed by its next one, which may lie after the
cursor: it is shown again. Nothing else can show a plan twice.
-/

namespace Feca.Social

open Concurrency Concurrency.Prog Relational Paging

/-- No plan is shown twice. -/
def NoRepeats (pages : List (Page String PlanView)) : Prop :=
  ((allItems pages).map (·.id)).Nodup

instance (pages : List (Page String PlanView)) : Decidable (NoRepeats pages) := by
  unfold NoRepeats
  infer_instance

/-- The event a plan was shown by is over, and by its next event the plan is
listed after the cursor. -/
structure Overtaken (env : DiscoverEnv) (s : SocialDb) (userId : Id) (query : DiscoverPlansQuery)
    (toDate : Option Date) (now : Date) (cursor : String) (shown : PlanView) : Prop where
  passed : ∃ event, shown.nextEvent = some event ∧ event.date < now
  due : ∃ c row, decodePlanCursor env.codec cursor = .ok c ∧
    Lists env s userId query toDate now row ∧ row.group.id = shown.id ∧
      listedBefore env.localeCompare c row.key

/-- Whenever the client follows a cursor, no plan it has been shown is overtaken. -/
def Undrifted (env : DiscoverEnv) (s : SocialDb) (userId : Id) (query : DiscoverPlansQuery)
    (toDate : Option Date) (clocks : Nat → Date) (pages : List (Page String PlanView)) : Prop :=
  ∀ i page cursor, pages[i]? = some page → page.next = some cursor →
    ∀ earlier ∈ pages.take (i + 1), ∀ shown ∈ earlier.items,
      ¬ Overtaken env s userId query toDate (clocks (i + 1)) cursor shown

section drift

variable {env : DiscoverEnv} {s : SocialDb} {userId : Id} {query : DiscoverPlansQuery}
  {toDate : Option Date}

theorem plan_unique {p q : GroupWithRelations} (hp : p ∈ s.allPlans) (hq : q ∈ s.allPlans)
    (hid : p.id = q.id) : p = q := by
  by_contra hne
  have hsymm : Std.Symm fun a b : GroupWithRelations => a.id ≠ b.id := ⟨fun _ _ h => h.symm⟩
  exact (allPlans_ids s).forall hp hq hne hid

/-- A later start asks for the same events, as far as they are still to come. -/
theorem eventMatches_later {fromDate later : Date} (h : fromDate ≤ later) {cityId : Option Id}
    {event : EventWithRelations} :
    s.eventMatches env.containsInsensitive (query.eventWhere cityId later toDate) event = true ↔
      later ≤ event.date ∧ s.eventMatches env.containsInsensitive
        (query.eventWhere cityId fromDate toDate) event = true := by
  unfold SocialDb.eventMatches DiscoverPlansQuery.eventWhere
  simp only [Bool.and_eq_true, decide_eq_true_eq, ge_iff_le, and_assoc]
  constructor
  · rintro ⟨hlater, hrest⟩
    exact ⟨hlater, h.trans hlater, hrest⟩
  · rintro ⟨hlater, -, hrest⟩
    exact ⟨hlater, hrest⟩

theorem find?_narrower {α : Type} {p q : α → Bool} (hpq : ∀ x, q x = true → p x = true)
    {l : List α} {a : α} (h : l.find? p = some a) (ha : q a = true) : l.find? q = some a := by
  obtain ⟨-, front, rest, rfl, hfront⟩ := List.find?_eq_some_iff_append.mp h
  refine List.find?_eq_some_iff_append.mpr ⟨ha, front, rest, rfl, fun x hx => ?_⟩
  have hp := hfront x hx
  cases hq : q x with
  | false => rfl
  | true => simp [hpq x hq] at hp

/-- As long as its event is not over, a plan is listed by it. -/
theorem key_of_lists {fromDate later : Date} (h : fromDate ≤ later) {row row' : PlanRow}
    (hrow : Lists env s userId query toDate fromDate row)
    (hrow' : Lists env s userId query toDate later row') (hid : row.group.id = row'.group.id)
    (hdate : later ≤ row.event.date) : row'.key = row.key := by
  obtain ⟨plan, hplan, -, -, hgroup, hevent⟩ := hrow
  obtain ⟨plan', hplan', -, -, hgroup', hevent'⟩ := hrow'
  have hsame : plan = plan' := by
    refine plan_unique hplan hplan' ?_
    rw [hgroup, hgroup'] at hid
    exact hid
  subst hsame
  have hstill := find?_narrower (fun x hx => ((eventMatches_later h).mp hx).2) hevent
    ((eventMatches_later h).mpr ⟨hdate, List.find?_some hevent⟩)
  have heq : row'.event = row.event := Option.some.inj (hevent'.symm.trans hstill)
  unfold PlanRow.key
  rw [heq, hid]

/-- The rows behind the answer to the `i`-th request. -/
def rowsAnswer (env : DiscoverEnv) (s : SocialDb) (userId : Id) (query : DiscoverPlansQuery)
    (toDate : Option Date) (clocks : Nat → Date) (i : Nat) (cursor : Option Cursor) :
    Except Failure (Page Cursor PlanRow) :=
  .ok (keysetPage (listedBefore env.localeCompare) PlanRow.key query.pageLimit.floor.toNat
    (listing env s userId query toDate (clocks i)) cursor)

variable {clocks : Nat → Date} {fuel : Nat}

theorem effectiveFrom_now {codec : CursorCodec} (h : either query.fromDate query.«from» = none)
    (now : Date) : effectiveFrom codec now query = now := by
  unfold effectiveFrom
  rw [h]
  rfl

theorem lists_of_rowsAnswer {j : Nat} {page : Page Cursor PlanRow} {row : PlanRow}
    (hpage : (walk (rowsAnswer env s userId query toDate clocks) fuel 0 none)[j]? = some page)
    (hrow : row ∈ page.items) : Lists env s userId query toDate (clocks j) row := by
  have hmem : row ∈ listing env s userId query toDate (clocks (0 + j)) :=
    mem_of_walk (fun _ _ => rfl) hpage hrow
  rw [Nat.zero_add] at hmem
  exact mem_listing.mp hmem

theorem ascending_rowsAnswer (horder : IsTotalOrder env.localeCompare) :
    Ascending (listedBefore env.localeCompare) PlanRow.key
      (allItems (walk (rowsAnswer env s userId query toDate clocks) fuel 0 none)) :=
  (walk_ascending (listedBefore_trans horder) (fun _ _ => rfl)
    (fun i => ascending_listing horder (clocks i)) fuel 0 none).1

/-- What a further page lists comes after the cursor of the page before. -/
theorem after_of_rowsAnswer {j : Nat} {page : Page Cursor PlanRow} {row : PlanRow}
    (hpage : (walk (rowsAnswer env s userId query toDate clocks) fuel 0 none)[j + 1]? = some page)
    (hrow : row ∈ page.items) : ∃ before cursor,
      (walk (rowsAnswer env s userId query toDate clocks) fuel 0 none)[j]? = some before ∧
        before.next = some cursor ∧ listedBefore env.localeCompare cursor row.key := by
  obtain ⟨hlt, -⟩ := List.getElem?_eq_some_iff.mp hpage
  have hbefore := List.getElem?_eq_getElem (Nat.lt_of_succ_lt hlt)
  obtain ⟨cursor, hnext, hserve⟩ := serve_of_walk_succ hbefore hpage
  refine ⟨_, cursor, hbefore, hnext, ?_⟩
  cases hserve
  exact (isAfter_some _ _).mp (mem_rowsAfter.mp (List.mem_of_mem_take hrow)).2

end drift

/-- The clock is all that moves: while no plan already shown is overtaken, no
plan is shown twice. -/
theorem noRepeats_of_undrifted (env : DiscoverEnv) (s : SocialDb) (userId : Id)
    (query : DiscoverPlansQuery) (toDate : Option Date) (clocks : Nat → Date) (fuel : Nat)
    (hcodec : env.codec.Lawful) (horder : IsTotalOrder env.localeCompare)
    (hquery : query.Accepted env.codec toDate) (hlimit : ∀ limit ∈ query.limit, 1 ≤ limit)
    (hfrom : either query.fromDate query.«from» = none) (hclocks : Monotone clocks)
    (hundrifted : Undrifted env s userId query toDate clocks
      (walk (discoverFrom env s userId query clocks) fuel 0 none)) :
    NoRepeats (walk (discoverFrom env s userId query clocks) fuel 0 none) := by
  have hrows : walk (discoverFrom env s userId query clocks) fuel 0 none =
      (walk (rowsAnswer env s userId query toDate clocks) fuel 0 none).map
        (Page.map (encodePlanCursor env.codec) (PlanRow.view userId (s.followedIds userId))) := by
    rw [walk_discover hcodec horder hquery (pageLimit_pos hlimit).1]
    simp only [effectiveFrom_now hfrom]
    rfl
  have hascending : Ascending (listedBefore env.localeCompare) PlanRow.key
      (allItems (walk (rowsAnswer env s userId query toDate clocks) fuel 0 none)) :=
    ascending_rowsAnswer horder
  rw [hrows] at hundrifted ⊢
  unfold NoRepeats
  rw [allItems_map, List.map_map, List.Nodup, List.pairwise_map]
  unfold Ascending allItems at hascending
  unfold allItems
  rw [List.pairwise_flatMap] at hascending ⊢
  refine ⟨fun page hpage => ?_, List.pairwise_iff_getElem.mpr fun i j hi hj hij a ha b hb hid => ?_⟩
  · -- Within one page, two rows of one plan have one key.
    obtain ⟨j, hj⟩ := List.mem_iff_getElem?.mp hpage
    refine (hascending.1 page hpage).imp_of_mem fun {a b} ha hb hab hid => ?_
    have hstarts : clocks j ≤ a.event.date := by
      obtain ⟨_, _, _, _, _, hevent⟩ := lists_of_rowsAnswer hj ha
      exact ((eventMatches_later le_rfl).mp (List.find?_some hevent)).1
    rw [key_of_lists le_rfl (lists_of_rowsAnswer hj ha) (lists_of_rowsAnswer hj hb) hid hstarts]
      at hab
    exact listedBefore_irrefl horder _ hab
  · obtain ⟨k, rfl⟩ : ∃ k, j = k + 1 := ⟨j - 1, by omega⟩
    have hpage := List.getElem?_eq_getElem hi
    have hlater := List.getElem?_eq_getElem hj
    by_cases hdate : clocks (k + 1) ≤ a.event.date
    · have hkeys := List.pairwise_iff_getElem.mp hascending.2 i (k + 1) hi hj hij a ha b hb
      rw [key_of_lists (hclocks (by omega)) (lists_of_rowsAnswer hpage ha)
        (lists_of_rowsAnswer hlater hb) hid hdate] at hkeys
      exact listedBefore_irrefl horder _ hkeys
    · -- The event is over, and the page before ends where the plan is still to come.
      obtain ⟨before, cursor, hbefore, hnext, hafter⟩ := after_of_rowsAnswer hlater hb
      refine hundrifted k (before.map (encodePlanCursor env.codec)
          (PlanRow.view userId (s.followedIds userId))) (encodePlanCursor env.codec cursor)
        (by simp [hbefore]) (by simp [Page.map, hnext]) _
        (List.mem_take_iff_getElem.mpr ⟨i, by simpa using by omega, rfl⟩)
        (PlanRow.view userId (s.followedIds userId) a)
        (by simpa [Page.map] using ⟨a, ha, rfl⟩)
        ⟨⟨_, rfl, lt_of_not_ge hdate⟩, cursor, b, decodeCursor_encodeCursor hcodec cursor,
          lists_of_rowsAnswer hlater hb, hid.symm, hafter⟩

/-- The first request comes at time 0, all others at one later time. -/
def aClock (later : Date) (i : Nat) : Date := if i = 0 then 0 else later

theorem monotone_aClock {later : Date} (h : 0 ≤ later) : Monotone (aClock later) := by
  refine monotone_nat_of_le_succ fun i => ?_
  cases i with
  | zero => exact h
  | succ i => exact le_rfl

/-- Before any of its events is over, each plan is shown once. -/
theorem early_clock_repeats_nothing :
    NoRepeats (walk (discoverFrom aDiscoverEnv twoPlans "beto" { limit := some 1 } (aClock 5))
      5 0 none) := by
  refine noRepeats_of_undrifted aDiscoverEnv twoPlans "beto" { limit := some 1 } none (aClock 5) 5
    lawful_aDiscoverEnv isTotalOrder_aDiscoverEnv ⟨rfl, rfl⟩ (by decide) rfl
      (monotone_aClock (by decide)) ?_
  have hcoming : ∀ page ∈ walk (discoverFrom aDiscoverEnv twoPlans "beto" { limit := some 1 }
      (aClock 5)) 5 0 none, ∀ shown ∈ page.items, ∀ event ∈ shown.nextEvent, 5 ≤ event.date := by
    decide
  intro i page cursor hpage hnext earlier hearlier shown hshown hovertaken
  obtain ⟨event, hevent, hover⟩ := hovertaken.passed
  exact absurd hover (not_lt_of_ge (hcoming earlier (List.mem_of_mem_take hearlier) shown hshown
    event hevent))

/-- The first page shows the plan of times 10 and 100; then it is time 30, and
the second page shows it again. -/
theorem passing_time_repeats_plan :
    Monotone (aClock 30) ∧ ¬ NoRepeats (walk (discoverFrom aDiscoverEnv twoPlans "beto"
      { limit := some 1 } (aClock 30)) 5 0 none) :=
  ⟨monotone_aClock (by decide), by decide⟩

end Feca.Social
