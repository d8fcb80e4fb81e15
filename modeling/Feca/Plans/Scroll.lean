import Mathlib.Data.String.Basic
import Feca.Plans.Discovery
import Feca.Social.System

/-! # Scrolling through plans

A client asks for a first page of plans and follows the cursor. The rows of a
page are the rows of one listing after the cursor, in the order of the dates and
the ids, so the walk is a keyset walk: while the listing stays, the pages add up
to it. The listing depends on the clock, though: a plan is listed by its first
event from now on, and once that event is over the next one takes its place.
-/

namespace Feca.Social

open Concurrency Concurrency.Prog Relational Paging

/-- What `localeCompare` is relied on for: a total order of the ids. -/
structure IsTotalOrder (compare : String → String → Int) : Prop where
  eq_iff : ∀ a b, compare a b = 0 ↔ a = b
  swap : ∀ a b, compare a b < 0 ↔ 0 < compare b a
  trans : ∀ a b c, compare a b < 0 → compare b c < 0 → compare a c < 0

section order

variable {localeCompare : String → String → Int}

/-- The order of the listing. -/
abbrev listedBefore (localeCompare : String → String → Int) (a b : Cursor) : Prop :=
  comparePlanCursor localeCompare a b < 0

theorem comparePlanCursor_of_eq {a b : Cursor} (h : a.date = b.date) :
    comparePlanCursor localeCompare a b = localeCompare a.id b.id :=
  if_pos (sub_eq_zero.mpr h)

theorem comparePlanCursor_of_ne {a b : Cursor} (h : a.date ≠ b.date) :
    comparePlanCursor localeCompare a b = a.date - b.date :=
  if_neg (sub_ne_zero.mpr h)

/-- Earlier, or at the same time and with a smaller id. -/
theorem listedBefore_iff {a b : Cursor} : listedBefore localeCompare a b ↔
    a.date < b.date ∨ a.date = b.date ∧ localeCompare a.id b.id < 0 := by
  unfold listedBefore
  by_cases h : a.date = b.date
  · rw [comparePlanCursor_of_eq h]
    simp [h]
  · rw [comparePlanCursor_of_ne h, sub_neg]
    simp [h]

variable (horder : IsTotalOrder localeCompare)
include horder

theorem comparePlanCursor_eq_zero (a b : Cursor) :
    comparePlanCursor localeCompare a b = 0 ↔ a = b := by
  obtain ⟨d, i⟩ := a
  obtain ⟨e, j⟩ := b
  rw [Cursor.mk.injEq]
  by_cases h : d = e
  · rw [comparePlanCursor_of_eq (a := ⟨d, i⟩) (b := ⟨e, j⟩) h, horder.eq_iff]
    simp [h]
  · rw [comparePlanCursor_of_ne (a := ⟨d, i⟩) (b := ⟨e, j⟩) h, sub_eq_zero]
    simp [h]

theorem comparePlanCursor_swap (a b : Cursor) :
    comparePlanCursor localeCompare a b < 0 ↔ 0 < comparePlanCursor localeCompare b a := by
  by_cases h : a.date = b.date
  · rw [comparePlanCursor_of_eq h, comparePlanCursor_of_eq h.symm]
    exact horder.swap a.id b.id
  · rw [comparePlanCursor_of_ne h, comparePlanCursor_of_ne (Ne.symm h), sub_neg, sub_pos]

theorem listedBefore_trans (a b c : Cursor) (hab : listedBefore localeCompare a b)
    (hbc : listedBefore localeCompare b c) : listedBefore localeCompare a c := by
  rw [listedBefore_iff] at hab hbc ⊢
  rcases hab with hab | ⟨hab, hid⟩
  · rcases hbc with hbc | ⟨hbc, -⟩
    · exact .inl (hab.trans hbc)
    · exact .inl (hbc ▸ hab)
  · rcases hbc with hbc | ⟨hbc, hid'⟩
    · exact .inl (hab ▸ hbc)
    · exact .inr ⟨hab.trans hbc, horder.trans _ _ _ hid hid'⟩

theorem listedBefore_irrefl (a : Cursor) : ¬ listedBefore localeCompare a a := by
  have hzero := (comparePlanCursor_eq_zero horder a a).mpr rfl
  omega

/-- The comparison of the sort. -/
theorem notAfter_iff (a b : Cursor) :
    comparePlanCursor localeCompare a b ≤ 0 ↔ a = b ∨ listedBefore localeCompare a b := by
  rw [← comparePlanCursor_eq_zero horder a b]
  omega

end order

/-! ## The listing -/

variable {localeCompare : String → String → Int}

/-- The rows before they are sorted. -/
def unsortedRows (plans : List GroupWithRelations) : List PlanRow :=
  plans.filterMap fun group => group.events.head?.map fun event => ⟨group, event⟩

theorem mem_unsortedRows {plans : List GroupWithRelations} {row : PlanRow} :
    row ∈ unsortedRows plans ↔ row.group ∈ plans ∧ row.group.events.head? = some row.event := by
  unfold unsortedRows
  rw [List.mem_filterMap]
  constructor
  · rintro ⟨group, hgroup, hrow⟩
    obtain ⟨event, hevent, rfl⟩ := Option.map_eq_some_iff.mp hrow
    exact ⟨hgroup, hevent⟩
  · rintro ⟨hgroup, hevent⟩
    exact ⟨row.group, hgroup, by rw [hevent]; rfl⟩

theorem mem_decorated {plans : List GroupWithRelations} {row : PlanRow} :
    row ∈ decorated localeCompare plans ↔
      row.group ∈ plans ∧ row.group.events.head? = some row.event := by
  unfold decorated
  rw [List.mem_insertionSort]
  exact mem_unsortedRows

/-- Plans are listed strictly one after the other: no two share their id. -/
theorem ascending_decorated (horder : IsTotalOrder localeCompare) {plans : List GroupWithRelations}
    (hids : plans.Pairwise fun a b => a.id ≠ b.id) :
    Ascending (listedBefore localeCompare) PlanRow.key (decorated localeCompare plans) := by
  have htotal : Std.Total fun left right : PlanRow =>
      comparePlanCursor localeCompare left.key right.key ≤ 0 := by
    refine ⟨fun a b => ?_⟩
    have hswap := comparePlanCursor_swap horder b.key a.key
    omega
  have htrans : IsTrans PlanRow fun left right =>
      comparePlanCursor localeCompare left.key right.key ≤ 0 := by
    refine ⟨fun a b c hab hbc => ?_⟩
    rw [notAfter_iff horder] at hab hbc ⊢
    rcases hab with hab | hab
    · rwa [hab]
    · rcases hbc with hbc | hbc
      · exact .inr (hbc ▸ hab)
      · exact .inr (listedBefore_trans horder _ _ _ hab hbc)
  have hsorted := List.pairwise_insertionSort (fun left right : PlanRow =>
    comparePlanCursor localeCompare left.key right.key ≤ 0) (unsortedRows plans)
  have hdistinct : (unsortedRows plans).Pairwise fun a b => a.key ≠ b.key := by
    unfold unsortedRows
    refine List.pairwise_filterMap.mpr (hids.imp fun {a b} hab x hx y hy => ?_)
    obtain ⟨event, -, rfl⟩ := Option.map_eq_some_iff.mp hx
    obtain ⟨event', -, rfl⟩ := Option.map_eq_some_iff.mp hy
    exact fun hkey => hab (congrArg Cursor.id hkey)
  have hdistinct' : ((unsortedRows plans).insertionSort fun left right : PlanRow =>
      comparePlanCursor localeCompare left.key right.key ≤ 0).Pairwise fun a b => a.key ≠ b.key :=
    ((List.perm_insertionSort _ _).pairwise_iff fun h => Ne.symm h).mpr hdistinct
  refine (hsorted.and hdistinct').imp fun {a b} h => ?_
  exact ((notAfter_iff horder _ _).mp h.1).resolve_left h.2

/-- A page of the service is a keyset page of the listing. -/
theorem discoveryPage_eq (horder : IsTotalOrder localeCompare) {limit : Rat} (hlimit : 0 ≤ limit)
    (rows : List PlanRow) (cursor : Option Cursor) :
    discoveryPage localeCompare limit rows cursor =
      keysetPage (listedBefore localeCompare) PlanRow.key limit.floor.toNat rows cursor := by
  have hfound : (rows.filter fun row =>
      cursor.all fun c => decide (comparePlanCursor localeCompare row.key c > 0)) =
        rowsAfter (listedBefore localeCompare) PlanRow.key rows cursor := by
    refine List.filter_congr fun row _ => ?_
    cases cursor with
    | none => rfl
    | some c =>
        simp only [Option.all_some, isAfter]
        exact decide_eq_decide.mpr (comparePlanCursor_swap horder c row.key).symm
  unfold discoveryPage keysetPage
  rw [hfound]
  dsimp only
  have hmore : ((rowsAfter (listedBefore localeCompare) PlanRow.key rows cursor).length : Rat) >
      limit ↔ limit.floor.toNat <
        (rowsAfter (listedBefore localeCompare) PlanRow.key rows cursor).length := by
    have hfloor : 0 ≤ limit.floor := Rat.le_floor_iff.mpr (by simpa using hlimit)
    rw [gt_iff_lt, ← Int.cast_natCast, ← Rat.floor_lt_iff]
    omega
  simp only [hmore]

/-! ## One request -/

/-- The query passes the checks that need no database; the last day it asks for. -/
def DiscoverPlansQuery.Accepted (codec : CursorCodec) (query : DiscoverPlansQuery)
    (toDate : Option Date) : Prop :=
  assertBounds codec query = pure () ∧ toDateArgument codec query = pure toDate

/-- The viewer's city, which counts only where the query names no place. -/
def DiscoverPlansQuery.viewerCityId (query : DiscoverPlansQuery) (s : SocialDb) (userId : Id) :
    Option Id :=
  if query.city.bind orNull = none ∧ query.cityGooglePlaceId.bind orNull = none then
    s.userCityId userId
  else none

theorem viewerCity_run (s : SocialDb) (userId : Id) (query : DiscoverPlansQuery) :
    (viewerCity userId query).run s = ⟨s, [], .ok (query.viewerCityId s userId)⟩ := by
  unfold viewerCity DiscoverPlansQuery.viewerCityId
  split
  · rfl
  · rfl

/-- The plans a query finds, events from `fromDate` on. -/
def foundPlans (env : DiscoverEnv) (s : SocialDb) (userId : Id) (query : DiscoverPlansQuery)
    (toDate : Option Date) (fromDate : Date) : List GroupWithRelations :=
  s.discoverablePlans env.containsInsensitive
    (query.eventWhere (query.viewerCityId s userId) fromDate toDate)

/-- The listing whose pages the query returns. -/
def listing (env : DiscoverEnv) (s : SocialDb) (userId : Id) (query : DiscoverPlansQuery)
    (toDate : Option Date) (fromDate : Date) : List PlanRow :=
  decorated env.localeCompare (foundPlans env s userId query toDate fromDate)

/-- The answer to the `i`-th request of a client, at the time of its clock. -/
def discoverFrom (env : DiscoverEnv) (s : SocialDb) (userId : Id) (query : DiscoverPlansQuery)
    (clocks : Nat → Date) (i : Nat) (cursor : Option String) :
    Except Failure (Page String PlanView) :=
  ((PlansService.discover { env with now := clocks i } userId { query with cursor }).run s).result

theorem planCursorArgument_encode {codec : CursorCodec} (hcodec : codec.Lawful)
    (cursor : Option Cursor) :
    planCursorArgument codec (cursor.map (encodePlanCursor codec)) = pure cursor := by
  cases cursor with
  | none => rfl
  | some c =>
      unfold planCursorArgument encodePlanCursor decodePlanCursor
      rw [Option.map_some, Option.bind_some, orNull_encodeCursor hcodec]
      dsimp only
      rw [decodeCursor_encodeCursor hcodec]

section requests

variable {env : DiscoverEnv} {s : SocialDb} {userId : Id} {query : DiscoverPlansQuery}
  {toDate : Option Date} {clocks : Nat → Date}

theorem discoverFrom_eq (hcodec : env.codec.Lawful) (hquery : query.Accepted env.codec toDate)
    (i : Nat) (cursor : Option Cursor) :
    discoverFrom env s userId query clocks i (cursor.map (encodePlanCursor env.codec)) =
      .ok ((discoveryPage env.localeCompare query.pageLimit
        (listing env s userId query toDate (effectiveFrom env.codec (clocks i) query))
          cursor).map (encodePlanCursor env.codec) (PlanRow.view userId (s.followedIds userId))) := by
  have hbounds : assertBounds env.codec { query with cursor := cursor.map (encodePlanCursor env.codec) }
      = pure () := hquery.1
  have hto : toDateArgument env.codec
      { query with cursor := cursor.map (encodePlanCursor env.codec) } = pure toDate := hquery.2
  unfold discoverFrom PlansService.discover
  dsimp only
  rw [hbounds, hto, planCursorArgument_encode hcodec]
  show (((viewerCity userId query) >>= _).run s).result = _
  rw [run_bind_ok (congrArg Answer.result (viewerCity_run s userId query)), viewerCity_run]
  rfl

theorem allPlans_ids (s : SocialDb) : s.allPlans.Pairwise fun a b => a.id ≠ b.id := by
  unfold SocialDb.allPlans
  refine List.pairwise_filterMap.mpr (s.groups.distinct.imp fun {a b} hab x hx y hy hid => ?_)
  obtain ⟨u, -, rfl⟩ := Option.map_eq_some_iff.mp hx
  obtain ⟨v, -, rfl⟩ := Option.map_eq_some_iff.mp hy
  have hid' : a.id = b.id := hid
  simp [conflicts, hid'] at hab

theorem ascending_listing (horder : IsTotalOrder env.localeCompare) (fromDate : Date) :
    Ascending (listedBefore env.localeCompare) PlanRow.key
      (listing env s userId query toDate fromDate) := by
  refine ascending_decorated horder ?_
  unfold foundPlans SocialDb.discoverablePlans
  rw [List.pairwise_map]
  exact (allPlans_ids s).filter _

/-- The pages of a client are the keyset pages of the listings it meets. -/
theorem walk_discover (hcodec : env.codec.Lawful) (horder : IsTotalOrder env.localeCompare)
    (hquery : query.Accepted env.codec toDate) (hlimit : 0 ≤ query.pageLimit) (fuel : Nat) :
    walk (discoverFrom env s userId query clocks) fuel 0 none =
      (walk (φ := Failure) (fun i cursor => .ok (keysetPage (listedBefore env.localeCompare)
        PlanRow.key query.pageLimit.floor.toNat
          (listing env s userId query toDate (effectiveFrom env.codec (clocks i) query)) cursor))
        fuel 0 none).map (Page.map (encodePlanCursor env.codec)
          (PlanRow.view userId (s.followedIds userId))) := by
  refine walk_map (fun i cursor => ?_) fuel 0 none
  rw [discoverFrom_eq hcodec hquery, discoveryPage_eq horder hlimit]
  rfl

/-- A plan the query finds, by its first event that the query asks for. -/
def Lists (env : DiscoverEnv) (s : SocialDb) (userId : Id) (query : DiscoverPlansQuery)
    (toDate : Option Date) (fromDate : Date) (row : PlanRow) : Prop :=
  ∃ plan ∈ s.allPlans, plan.visibility = .«public» ∧ plan.joinPolicy ≠ .inviteOnly ∧
    row.group = s.narrowed env.containsInsensitive
      (query.eventWhere (query.viewerCityId s userId) fromDate toDate) plan ∧
    plan.events.find? (s.eventMatches env.containsInsensitive
      (query.eventWhere (query.viewerCityId s userId) fromDate toDate)) = some row.event

theorem mem_listing {fromDate : Date} {row : PlanRow} :
    row ∈ listing env s userId query toDate fromDate ↔
      Lists env s userId query toDate fromDate row := by
  unfold listing foundPlans SocialDb.discoverablePlans Lists
  rw [mem_decorated, List.mem_map]
  constructor
  · rintro ⟨⟨plan, hplan, hgroup⟩, hevent⟩
    obtain ⟨hstored, hfound⟩ := List.mem_filter.mp hplan
    simp only [SocialDb.isDiscoverable, Bool.and_eq_true, beq_iff_eq, bne_iff_ne] at hfound
    refine ⟨plan, hstored, hfound.1.1, hfound.1.2, hgroup.symm, ?_⟩
    rw [← List.head?_filter, ← hevent, ← hgroup]
    rfl
  · rintro ⟨plan, hstored, hvisibility, hpolicy, hgroup, hevent⟩
    refine ⟨⟨plan, List.mem_filter.mpr ⟨hstored, ?_⟩, hgroup.symm⟩, ?_⟩
    · simp only [SocialDb.isDiscoverable, Bool.and_eq_true, beq_iff_eq, bne_iff_ne]
      refine ⟨⟨hvisibility, hpolicy⟩, List.any_eq_true.mpr ⟨row.event, ?_, ?_⟩⟩
      · exact List.mem_of_find?_eq_some hevent
      · exact List.find?_some hevent
    · rw [hgroup, ← hevent, ← List.head?_filter]
      rfl

theorem pageLimit_pos (hlimit : ∀ limit ∈ query.limit, 1 ≤ limit) :
    0 ≤ query.pageLimit ∧ 0 < query.pageLimit.floor.toNat := by
  have hone : 1 ≤ query.pageLimit := by
    unfold DiscoverPlansQuery.pageLimit MAX_DISCOVERY_LIMIT
    refine le_min ?_ (by decide)
    cases h : query.limit with
    | none => decide
    | some limit => exact hlimit limit (by rw [h]; rfl)
  have hfloor : 1 ≤ query.pageLimit.floor := Rat.le_floor_iff.mpr (by simpa using hone)
  exact ⟨le_trans (by decide) hone, by omega⟩

end requests

/-- Pagination is exact. However the clock moves, while the date to list events
from stays: following the cursor ends, and the pages together are the plans the
query finds, each once, by date and id; and a cursor says what it was made of. -/
theorem discovery_lists_every_plan_once (env : DiscoverEnv) (s : SocialDb) (userId : Id)
    (query : DiscoverPlansQuery) (toDate : Option Date) (clocks : Nat → Date) (fromDate : Date)
    (hcodec : env.codec.Lawful) (horder : IsTotalOrder env.localeCompare)
    (hquery : query.Accepted env.codec toDate) (hlimit : ∀ limit ∈ query.limit, 1 ≤ limit)
    (hfrom : ∀ i, effectiveFrom env.codec (clocks i) query = fromDate) :
    (∃ (rows : List PlanRow) (enough : Nat),
      (∀ fuel ≥ enough, Ended (walk (discoverFrom env s userId query clocks) fuel 0 none) ∧
        allItems (walk (discoverFrom env s userId query clocks) fuel 0 none) =
          rows.map (PlanRow.view userId (s.followedIds userId))) ∧
      rows.Pairwise (fun a b => a.event.date < b.event.date ∨
        a.event.date = b.event.date ∧ env.localeCompare a.group.id b.group.id < 0) ∧
      ∀ row, row ∈ rows ↔ Lists env s userId query toDate fromDate row) ∧
    ∀ cursor, decodePlanCursor env.codec (encodePlanCursor env.codec cursor) = .ok cursor := by
  obtain ⟨hnonneg, hpos⟩ := pageLimit_pos hlimit
  refine ⟨⟨listing env s userId query toDate fromDate,
    (listing env s userId query toDate fromDate).length + 1, fun fuel hfuel => ?_, ?_,
      fun row => mem_listing⟩, decodeCursor_encodeCursor hcodec⟩
  · have hall : rowsAfter (listedBefore env.localeCompare) PlanRow.key
        (listing env s userId query toDate fromDate) none =
          listing env s userId query toDate fromDate := by
      unfold rowsAfter
      rw [List.filter_eq_self]
      exact fun _ _ => isAfter_none _
    have henough : (rowsAfter (listedBefore env.localeCompare) PlanRow.key
        (listing env s userId query toDate fromDate) none).length < fuel := by
      rw [hall]
      omega
    rw [walk_discover hcodec horder hquery hnonneg, ended_map, allItems_map]
    simp only [hfrom]
    obtain ⟨hended, hitems⟩ : _ ∧ allItems (walk _ fuel 0 none) = _ :=
      walk_fixed (listedBefore_trans horder) (listedBefore_irrefl horder) hpos
        (fun _ _ => rfl) (ascending_listing horder fromDate) henough
    exact ⟨hended, congrArg (List.map _) (hitems.trans hall)⟩
  · exact (ascending_listing horder fromDate).imp fun {a b} h => listedBefore_iff.mp h

/-- One plan at time 10 and again at time 100, another at time 20. -/
def twoPlans : SocialDb :=
  let first := ((createPlan (anEnv "g1" ["m1"]) (aPublicPlan "AAAAAA" 10)).run threeUsers).store
  let second := ((createPlan (anEnv "g2" ["m2"]) (aPublicPlan "BBBBBB" 20)).run first).store
  let again : GroupEvent := { id := "e3", groupId := "g1", placeId := "p1", proposedById := "ana",
                              date := 100, status := .confirmed, createdAt := 0 }
  (second.insertEvent again).toOption.getD second

def aDiscoverEnv : DiscoverEnv where
  now := 0
  codec := codecAt 10 "1970-01-01T00:00:00.010Z" "g1" "[\"1970-01-01T00:00:00.010Z\",\"g1\"]"
    "WyIxOTcwLTAxLTAxVDAwOjAwOjAwLjAxMFoiLCJnMSJd"
  localeCompare a b := if a < b then -1 else if b < a then 1 else 0
  containsInsensitive a b := a == b

theorem lawful_aDiscoverEnv : aDiscoverEnv.codec.Lawful :=
  lawful_codecAt _ _ _ (by decide) (by decide)

theorem isTotalOrder_aDiscoverEnv : IsTotalOrder aDiscoverEnv.localeCompare where
  eq_iff a b := by
    simp only [aDiscoverEnv]
    split
    · rename_i hlt
      simpa using ne_of_lt hlt
    · rename_i hge
      split
      · rename_i hgt
        simpa using (ne_of_lt hgt).symm
      · rename_i hle
        simpa using le_antisymm (le_of_not_gt hle) (le_of_not_gt hge)
  swap a b := by
    simp only [aDiscoverEnv]
    split
    · rename_i hlt
      simp [not_lt_of_gt hlt]
    · split <;> simp
  trans a b c hab hbc := by
    have hlt : ∀ x y : String, (if x < y then (-1 : Int) else if y < x then 1 else 0) < 0 → x < y := by
      intro x y h
      split at h
      · assumption
      · split at h <;> cases h
    simp only [aDiscoverEnv] at hab hbc ⊢
    rw [if_pos ((hlt a b hab).trans (hlt b c hbc))]
    decide

/-- Both plans, one a page. -/
theorem discovery_pages_end : ∃ enough, ∀ fuel ≥ enough,
    Ended (walk (discoverFrom aDiscoverEnv twoPlans "beto" { limit := some 1 } fun _ => 0)
      fuel 0 none) := by
  obtain ⟨⟨_, enough, hwalk, -⟩, -⟩ := discovery_lists_every_plan_once aDiscoverEnv twoPlans "beto"
    { limit := some 1 } none (fun _ => 0) 0 lawful_aDiscoverEnv isTotalOrder_aDiscoverEnv
      ⟨rfl, rfl⟩ (by decide) fun _ => rfl
  exact ⟨enough, fun fuel hfuel => (hwalk fuel hfuel).1⟩

end Feca.Social
