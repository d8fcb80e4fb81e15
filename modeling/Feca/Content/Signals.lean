import Feca.Collections.Tally
import Feca.Content.Rotation

/-! # What a user seems to like

`getUserRecommendationSignals` reads a profile together with what the visits and
the imported saves of the user say: every visit speaks for or against the
categories of its place, and a category is liked or disliked by what is left when
the one is held against the other.
-/

namespace Feca.Content

open Collections Concurrency Concurrency.Prog Social

/-! ## Weights -/

def visitPositiveSignalWeight (rating : Int) (wouldReturn : Option VisitWouldReturn) : Nat :=
  if wouldReturn = some .yes then if rating ≥ 4 then 4 else 3
  else if rating ≥ 5 then 3
  else if rating ≥ 4 ∨ wouldReturn = some .maybe then 2
  else 0

def visitNegativeSignalWeight (rating : Int) (wouldReturn : Option VisitWouldReturn) : Nat :=
  if wouldReturn = some .no then if rating ≤ 2 then 4 else 3
  else if rating ≤ 2 then 2
  else 0

/-- `b[1] - a[1] || a[0].localeCompare(b[0])`, not positive. -/
def heavier (env : ContentEnv) (a b : String × Nat) : Prop :=
  b.2 < a.2 ∨ (a.2 = b.2 ∧ env.localeCompare a.1 b.1 ≤ 0)

instance (env : ContentEnv) : DecidableRel (heavier env) := fun a b => by
  unfold heavier
  infer_instance

def categorySignalWinners (env : ContentEnv) (primary opposing : OrderedMap String Nat)
    (limit : Nat) : List String :=
  (((primary.entries.filter fun entry =>
    decide ((opposing.get entry.1).getD 0 < entry.2)).insertionSort (heavier env)).take limit).map
      (·.1)

/-! ## What is read -/

/-- A visit as the signals select it. -/
structure VisitWithPlace extends Visit where
  place : PlaceRow

structure SaveWithPlace extends PlaceSave where
  place : PlaceRow

/-- `orderBy: [{ visitedAt: "desc" }, { createdAt: "desc" }]`. -/
def newerOwnVisit (a b : Visit) : Prop :=
  b.visitedAt < a.visitedAt ∨ (a.visitedAt = b.visitedAt ∧ b.createdAt ≤ a.createdAt)

instance : DecidableRel newerOwnVisit := fun a b => by
  unfold newerOwnVisit
  infer_instance

/-- The profile column that no other service of this model reads. -/
structure SignalsDb extends ContentDb where
  outingPreferences : Id → Json

abbrev SignalsProg := Prog SignalsDb Empty Failure

def GOOGLE_DATA_PORTABILITY_IMPORT_REASON : String := "google_data_portability"

namespace ContentDb

variable (s : ContentDb)

def visitWithPlace (v : Visit) : Option VisitWithPlace :=
  (s.findPlaceRow v.placeId).map fun place => { v with place }

/-- The newest visits of a user. -/
def newestVisits (userId : Id) (take : Nat) : List VisitWithPlace :=
  (((s.visits.rows.filter (·.userId == userId)).filterMap s.visitWithPlace).insertionSort
    fun a b => newerOwnVisit a.toVisit b.toVisit).take take

def saveWithPlace (save : PlaceSave) : Option SaveWithPlace :=
  (s.findPlaceRow save.placeId).map fun place => { save with place }

/-- The newest saves that came with an import. -/
def importedSaves (userId : Id) (take : Nat) : List SaveWithPlace :=
  (((s.saves.rows.filter fun save =>
    save.userId == userId && save.reason == some GOOGLE_DATA_PORTABILITY_IMPORT_REASON).filterMap
      s.saveWithPlace).insertionSort fun a b => b.createdAt ≤ a.createdAt).take take

end ContentDb

/-! ## The signals -/

/-- `category.trim().toLowerCase()`, unless nothing is left. -/
def normalizedCategories (env : ContentEnv) (categories : List String) : List String :=
  categories.filterMap fun category => orNull (env.toLowerCase (trim category))

/-- What the visits say of categories, each visit with its weight. -/
def categoryWeights (env : ContentEnv) (weight : Int → Option VisitWouldReturn → Nat)
    (visits : List VisitWithPlace) : List (String × Nat) :=
  visits.flatMap fun visit =>
    if 0 < weight visit.rating visit.wouldReturn then
      (normalizedCategories env visit.place.categories).map fun category =>
        (category, weight visit.rating visit.wouldReturn)
    else []

def likes (env : ContentEnv) (visits : List VisitWithPlace) : List (String × Nat) :=
  categoryWeights env visitPositiveSignalWeight visits

def dislikes (env : ContentEnv) (visits : List VisitWithPlace) : List (String × Nat) :=
  categoryWeights env visitNegativeSignalWeight visits

structure CategorySignals where
  disliked : List String
  liked : List String
  deriving DecidableEq, Repr

def getVisitedPlaceCategorySignals (env : ContentEnv) (userId : Id) :
    SignalsProg CategorySignals := do
  let visits ← query fun s => s.newestVisits userId 200
  let liked := tally (likes env visits)
  let disliked := tally (dislikes env visits)
  pure
    { disliked := categorySignalWinners env disliked liked 16
      liked := categorySignalWinners env liked disliked 24 }

def getImportedSavedPlaceCategorySignals (env : ContentEnv) (userId : Id) :
    SignalsProg (List String) := do
  let saves ← query fun s => s.importedSaves userId 200
  let counts := tally (saves.flatMap fun save =>
    (normalizedCategories env save.place.categories).map fun category => (category, 1))
  pure (((counts.entries.insertionSort (heavier env)).take 24).map (·.1))

def getLikedNearbyVisitSignals (userId : Id) : SignalsProg (List String) := do
  let visits ← query fun s => s.newestVisits userId 120
  pure (distinctIds ((visits.filter fun visit =>
    !decide (visitPositiveSignalWeight visit.rating visit.wouldReturn ≤ 0)).filterMap fun visit =>
      (visit.place.sourcePlaceId.map trim).bind orNull))

structure RecommendationSignals where
  cityId : Option Id
  importedPlaceCategoryIds : List String
  likedVisitedPlaceCategoryIds : List String
  dislikedVisitedPlaceCategoryIds : List String
  likedNearbyGooglePlaceIds : List String
  outingPreferences : Json
  tastePreferenceIds : List String

def getUserRecommendationSignals (env : ContentEnv) (userId : Id) :
    SignalsProg RecommendationSignals := do
  let row ← query fun s => (s.findUserRow userId).map fun user =>
    (user.cityId, s.outingPreferences user.id, user.tastePreferenceIds)
  let importedCategories ← getImportedSavedPlaceCategorySignals env userId
  let visitCategorySignals ← getVisitedPlaceCategorySignals env userId
  let likedVisitSignals ← getLikedNearbyVisitSignals userId
  pure
    { cityId := row.bind (·.1)
      importedPlaceCategoryIds := importedCategories
      likedVisitedPlaceCategoryIds := visitCategorySignals.liked
      dislikedVisitedPlaceCategoryIds := visitCategorySignals.disliked
      likedNearbyGooglePlaceIds := likedVisitSignals
      outingPreferences := (row.map (·.2.1)).getD .null
      tastePreferenceIds := (row.map (·.2.2)).getD [] }

/-! ## Winners -/

/-- A category of more weight, or of as much and an earlier name. -/
def Outranks (env : ContentEnv) (weight : String → Nat) (d c : String) : Prop :=
  weight c < weight d ∨ (weight c = weight d ∧ 0 < env.localeCompare c d)

instance (env : ContentEnv) (weight : String → Nat) : DecidableRel (Outranks env weight) :=
  fun d c => by
    unfold Outranks
    infer_instance

/-- The categories that weigh more than what is held against them. -/
def netCategories (entries opposing : List (String × Nat)) : List String :=
  (tally entries).keys.filter fun category =>
    decide (weightOf opposing category < weightOf entries category)

/-- How many of them outrank a category. -/
def netRank (env : ContentEnv) (entries opposing : List (String × Nat)) (category : String) : Nat :=
  (netCategories entries opposing).countP fun other =>
    decide (Outranks env (weightOf entries) other category)

section winners

variable {env : ContentEnv} {entries opposing : List (String × Nat)} {c : String} {limit : Nat}

theorem not_heavier_iff {a b : String × Nat} : ¬ heavier env a b ↔
    a.2 < b.2 ∨ (a.2 = b.2 ∧ 0 < env.localeCompare a.1 b.1) := by
  unfold heavier
  push Not
  constructor
  · rintro ⟨hle, hname⟩
    rcases Nat.lt_or_eq_of_le hle with hlt | heq
    · exact .inl hlt
    · exact .inr ⟨heq, hname heq⟩
  · rintro (hlt | ⟨heq, hname⟩)
    · exact ⟨hlt.le, fun heq => absurd heq hlt.ne⟩
    · exact ⟨heq.le, fun _ => hname⟩

theorem heavier_total (horder : Collates env.localeCompare) (a b : String × Nat) :
    heavier env a b ∨ heavier env b a := by
  rcases lt_trichotomy a.2 b.2 with hlt | heq | hgt
  · exact .inr (.inl hlt)
  · rcases horder.total a.1 b.1 with hab | hba
    · exact .inl (.inr ⟨heq, hab⟩)
    · exact .inr (.inr ⟨heq.symm, hba⟩)
  · exact .inl (.inl hgt)

theorem heavier_trans (horder : Collates env.localeCompare) (a b c : String × Nat)
    (hab : heavier env a b) (hbc : heavier env b c) : heavier env a c := by
  rcases hab with hab | ⟨hab, hname⟩
  · rcases hbc with hbc | ⟨hbc, -⟩
    · exact .inl (hbc.trans hab)
    · exact .inl (hbc ▸ hab)
  · rcases hbc with hbc | ⟨hbc, hname'⟩
    · exact .inl (hab ▸ hbc)
    · exact .inr ⟨hab.trans hbc, horder.trans _ _ _ hname hname'⟩

theorem heavier_antisymm {held : List (String × Nat)}
    (horder : OrdersIds env.localeCompare (held.map Prod.fst)) {a b : String × Nat} (ha : a ∈ held)
    (hb : b ∈ held) (hab : heavier env a b) (hba : heavier env b a) : a = b := by
  rcases hab with hab | ⟨hweight, hab⟩
  · rcases hba with hba | ⟨hba, -⟩ <;> omega
  · rcases hba with hba | ⟨-, hba⟩
    · omega
    · refine Prod.ext ?_ hweight
      exact horder.apart _ (List.mem_map_of_mem ha) _ (List.mem_map_of_mem hb) hab hba

/-- Sorted, no two entries with different keys are level. -/
theorem pairwise_sorted {held : List (String × Nat)}
    (horder : OrdersIds env.localeCompare (held.map Prod.fst)) (hkeys : (held.map Prod.fst).Nodup) :
    (held.insertionSort (heavier env)).Pairwise fun a b => heavier env a b ∧ ¬ heavier env b a := by
  have htotal : Std.Total (heavier env) := ⟨heavier_total horder.toCollates⟩
  have htrans : IsTrans (String × Nat) (heavier env) := ⟨heavier_trans horder.toCollates⟩
  have hperm := List.perm_insertionSort (heavier env) held
  have hnodup : (held.insertionSort (heavier env)).Nodup :=
    hperm.nodup_iff.mpr (List.Nodup.of_map _ hkeys)
  refine ((List.pairwise_insertionSort (heavier env) held).and hnodup).imp_of_mem ?_
  rintro a b ha hb ⟨hab, hne⟩
  refine ⟨hab, fun hba => hne ?_⟩
  exact heavier_antisymm horder (hperm.subset ha) (hperm.subset hb) hab hba

/-- The entries that win, before they are sorted. -/
theorem mem_net_entries {weight : Nat} :
    (c, weight) ∈ (tally entries).entries.filter (fun entry =>
        decide (((tally opposing).get entry.1).getD 0 < entry.2)) ↔
      weight = weightOf entries c ∧ weightOf opposing c < weightOf entries c := by
  rw [List.mem_filter, mem_entries_tally, decide_eq_true_eq, getD_tally]
  constructor
  · rintro ⟨⟨-, rfl⟩, hlt⟩
    exact ⟨rfl, hlt⟩
  · rintro ⟨rfl, hlt⟩
    obtain ⟨weight, -, hmem⟩ := weightOf_pos_iff.mp (Nat.zero_lt_of_lt hlt)
    exact ⟨⟨List.mem_map_of_mem (f := Prod.fst) hmem, rfl⟩, hlt⟩

theorem map_fst_net_entries (entries opposing : List (String × Nat)) :
    ((tally entries).entries.filter fun entry =>
        decide (((tally opposing).get entry.1).getD 0 < entry.2)).map Prod.fst =
      netCategories entries opposing := by
  unfold netCategories OrderedMap.keys
  rw [List.filter_map]
  congr 1
  apply List.filter_congr
  rintro ⟨k, total⟩ hentry
  rw [(mem_entries_tally.mp hentry).2]
  simp only [Function.comp_apply, getD_tally]

theorem netCategories_subset (entries opposing : List (String × Nat)) :
    netCategories entries opposing ⊆ entries.map Prod.fst := by
  intro category hcategory
  exact mem_keys_tally.mp (List.mem_of_mem_filter hcategory)

/-- A category wins if it weighs more than what is held against it, and few that
do outrank it. -/
theorem mem_categorySignalWinners (horder : OrdersIds env.localeCompare (entries.map Prod.fst)) :
    c ∈ categorySignalWinners env (tally entries) (tally opposing) limit ↔
      weightOf opposing c < weightOf entries c ∧ netRank env entries opposing c < limit := by
  unfold categorySignalWinners
  generalize hnet : (tally entries).entries.filter (fun entry =>
    decide (((tally opposing).get entry.1).getD 0 < entry.2)) = net
  have hkeys : net.map Prod.fst = netCategories entries opposing := by
    rw [← hnet]
    exact map_fst_net_entries entries opposing
  have hmem : ∀ k weight, (k, weight) ∈ net ↔
      weight = weightOf entries k ∧ weightOf opposing k < weightOf entries k := by
    intro k weight
    rw [← hnet]
    exact mem_net_entries
  have hdistinct : (net.map Prod.fst).Nodup := by
    rw [hkeys]
    exact (tally entries).distinct.filter _
  have hcompared : OrdersIds env.localeCompare (net.map Prod.fst) := by
    rw [hkeys]
    exact horder.mono (netCategories_subset entries opposing)
  have hsorted := pairwise_sorted hcompared hdistinct
  have hperm := List.perm_insertionSort (heavier env) net
  have hrefl : ∀ a, heavier env a a := fun a => (heavier_total horder.toCollates a a).elim id id
  -- what stands before a winner is what outranks it
  have hcount : (net.insertionSort (heavier env)).countP
      (fun b => decide (¬ heavier env (c, weightOf entries c) b)) =
        netRank env entries opposing c := by
    rw [hperm.countP_eq, netRank, ← hkeys, List.countP_map]
    apply List.countP_congr
    rintro ⟨k, weight⟩ hentry
    rw [((hmem k weight).mp hentry).1, decide_eq_true_eq, not_heavier_iff, Function.comp_apply,
      decide_eq_true_eq, Outranks]
  constructor
  · intro h
    obtain ⟨⟨k, weight⟩, htake, rfl⟩ := List.mem_map.mp h
    have hin := hperm.subset (List.mem_of_mem_take htake)
    obtain ⟨rfl, hlt⟩ := (hmem k weight).mp hin
    refine ⟨hlt, ?_⟩
    rw [← hcount]
    exact (mem_take_iff_countP hrefl hsorted (List.mem_of_mem_take htake) limit).mp htake
  · rintro ⟨hlt, hrank⟩
    have hin : (c, weightOf entries c) ∈ net.insertionSort (heavier env) :=
      hperm.symm.subset ((hmem c _).mpr ⟨rfl, hlt⟩)
    rw [← hcount] at hrank
    exact List.mem_map.mpr ⟨_, (mem_take_iff_countP hrefl hsorted hin limit).mpr hrank, rfl⟩

/-- Winners are listed by decreasing weight, each once. -/
theorem pairwise_categorySignalWinners
    (horder : OrdersIds env.localeCompare (entries.map Prod.fst)) :
    (categorySignalWinners env (tally entries) (tally opposing) limit).Pairwise
      (Outranks env (weightOf entries)) := by
  unfold categorySignalWinners
  generalize hnet : (tally entries).entries.filter (fun entry =>
    decide (((tally opposing).get entry.1).getD 0 < entry.2)) = net
  have hkeys : net.map Prod.fst = netCategories entries opposing := by
    rw [← hnet]
    exact map_fst_net_entries entries opposing
  have hdistinct : (net.map Prod.fst).Nodup := by
    rw [hkeys]
    exact (tally entries).distinct.filter _
  have hcompared : OrdersIds env.localeCompare (net.map Prod.fst) := by
    rw [hkeys]
    exact horder.mono (netCategories_subset entries opposing)
  have hweight : ∀ a ∈ net, a.2 = weightOf entries a.1 := by
    rintro ⟨k, weight⟩ ha
    rw [← hnet] at ha
    exact (mem_net_entries.mp ha).1
  have hperm := List.perm_insertionSort (heavier env) net
  rw [List.pairwise_map]
  refine ((pairwise_sorted hcompared hdistinct).sublist (List.take_sublist limit _)).imp_of_mem ?_
  intro a b ha hb hab
  have hlevel := not_heavier_iff.mp hab.2
  rw [hweight a (hperm.subset (List.mem_of_mem_take ha)),
    hweight b (hperm.subset (List.mem_of_mem_take hb))] at hlevel
  exact hlevel

theorem Outranks.ne {weight : String → Nat} (horder : Collates env.localeCompare) {d : String}
    (h : Outranks env weight d c) : d ≠ c := by
  rintro rfl
  rcases h with hlt | ⟨-, hname⟩
  · exact lt_irrefl _ hlt
  · have hself := (horder.total d d).elim id id
    omega

theorem nodup_categorySignalWinners
    (horder : OrdersIds env.localeCompare (entries.map Prod.fst)) :
    (categorySignalWinners env (tally entries) (tally opposing) limit).Nodup :=
  (pairwise_categorySignalWinners horder).imp fun h => h.ne horder.toCollates

theorem length_categorySignalWinners_le (primary opposing : OrderedMap String Nat) :
    (categorySignalWinners env primary opposing limit).length ≤ limit := by
  unfold categorySignalWinners
  rw [List.length_map, List.length_take]
  exact Nat.min_le_left _ _

end winners

/-! ## The signals of a user -/

/-- What some entries hold against others, ranked and cut. -/
structure NetRanking (env : ContentEnv) (entries opposing : List (String × Nat)) (limit : Nat)
    (winners : List String) : Prop where
  mem : ∀ c, c ∈ winners ↔
    weightOf opposing c < weightOf entries c ∧ netRank env entries opposing c < limit
  ranked : winners.Pairwise (Outranks env (weightOf entries))
  once : winners.Nodup
  few : winners.length ≤ limit

theorem netRanking_categorySignalWinners {env : ContentEnv} {entries : List (String × Nat)}
    (horder : OrdersIds env.localeCompare (entries.map Prod.fst))
    (opposing : List (String × Nat)) (limit : Nat) :
    NetRanking env entries opposing limit
      (categorySignalWinners env (tally entries) (tally opposing) limit) where
  mem _ := mem_categorySignalWinners horder
  ranked := pairwise_categorySignalWinners horder
  once := nodup_categorySignalWinners horder
  few := length_categorySignalWinners_le _ _

/-- Nothing wins on both sides. -/
theorem NetRanking.apart {env : ContentEnv} {entries opposing : List (String × Nat)}
    {limit limit' : Nat} {winners winners' : List String}
    (h : NetRanking env entries opposing limit winners)
    (h' : NetRanking env opposing entries limit' winners') : winners.Disjoint winners' := by
  intro c hc hc'
  have hlt := ((h.mem c).mp hc).1
  have hgt := ((h'.mem c).mp hc').1
  omega

/-- The places a user would go back to, among the newest visits. -/
def likedPlaceIds (visits : List VisitWithPlace) : List String :=
  (visits.filter fun visit =>
    decide (0 < visitPositiveSignalWeight visit.rating visit.wouldReturn)).filterMap fun visit =>
      (visit.place.sourcePlaceId.map trim).bind orNull

/-- What the signals are to say of the visits of a user. -/
structure SignalsSayNet (env : ContentEnv) (s : SignalsDb) (userId : Id)
    (signals : RecommendationSignals) : Prop where
  liked : NetRanking env (likes env (s.newestVisits userId 200))
    (dislikes env (s.newestVisits userId 200)) 24 signals.likedVisitedPlaceCategoryIds
  disliked : NetRanking env (dislikes env (s.newestVisits userId 200))
    (likes env (s.newestVisits userId 200)) 16 signals.dislikedVisitedPlaceCategoryIds
  apart : signals.likedVisitedPlaceCategoryIds.Disjoint signals.dislikedVisitedPlaceCategoryIds
  places : ∀ id, id ∈ signals.likedNearbyGooglePlaceIds ↔
    id ∈ likedPlaceIds (s.newestVisits userId 120)
  placesOnce : signals.likedNearbyGooglePlaceIds.Nodup

/-- For every store and user, the categories told as liked are exactly the strongest of those
that the newest visits speak for more than against, the disliked ones exactly the strongest of
those they speak against more, and no category is both. -/
theorem signals_say_what_visits_say (env : ContentEnv) (s : SignalsDb) (userId : Id)
    (horder : OrdersIds env.localeCompare ((likes env (s.newestVisits userId 200) ++
      dislikes env (s.newestVisits userId 200)).map Prod.fst)) :
    ∃ signals, ((getUserRecommendationSignals env userId).run s).result = .ok signals ∧
      SignalsSayNet env s userId signals := by
  refine ⟨_, rfl, ?_⟩
  rw [List.map_append] at horder
  have hliked := netRanking_categorySignalWinners (horder.mono (List.subset_append_left _ _))
    (dislikes env (s.newestVisits userId 200)) 24
  have hdisliked := netRanking_categorySignalWinners (horder.mono (List.subset_append_right _ _))
    (likes env (s.newestVisits userId 200)) 16
  refine ⟨hliked, hdisliked, hliked.apart hdisliked, ?_, nodup_distinctIds _⟩
  intro id
  have hsame : ∀ visit : VisitWithPlace,
      (!decide (visitPositiveSignalWeight visit.rating visit.wouldReturn ≤ 0)) =
        decide (0 < visitPositiveSignalWeight visit.rating visit.wouldReturn) := by
    intro visit
    rw [← decide_not]
    exact decide_eq_decide.mpr Nat.not_le
  unfold likedPlaceIds
  simp only [← hsame]
  exact mem_distinctIds

/-- Beto has been to the bar twice and praised it. -/
theorem betos_signals_say_his_visits : ∃ signals,
    ((getUserRecommendationSignals aContentEnv "beto").run
      { anaFollowsBeto 2 with outingPreferences := fun _ => .null }).result = .ok signals ∧
    SignalsSayNet aContentEnv { anaFollowsBeto 2 with outingPreferences := fun _ => .null } "beto"
      signals :=
  signals_say_what_visits_say aContentEnv
    { anaFollowsBeto 2 with outingPreferences := fun _ => .null } "beto"
    (ordersIds_compareCodePoints _)

end Feca.Content
