import Feca.Collections.Drawing
import Feca.Content.Following
import Feca.Content.Visibility
import Feca.Push.Presentation
import Feca.Social.SeededShuffle

/-! # Who to follow

`SocialUsersService.listSuggestedOnboardingUsers` gives a new user some others to
follow, first of all of their city. A user who follows all of them and asks again
is introduced to everyone, once, whoever else does so at the same time.
-/

namespace Feca.Content

open Collections Concurrency Concurrency.Prog Push Relational Social

structure SuggestedOnboardingUsersQuery where
  limit : Option Int := none
  cityGooglePlaceId : Option String := none

/-- What a request has from outside: its day, and how the database orders the users. -/
structure OnboardingEnv where
  /-- `new Date().toISOString().slice(0, 10)`. -/
  today : String
  sha256 : String → Sha256
  createdAt : Id → Date
  /-- The order rows come in that the statement does not order. -/
  order : List User → List User
  order_perm : ∀ rows, (order rows).Perm rows

/-! ## The repository -/

def suggestionLimit (limit : Int) : Nat := (min (max limit 1) 10).toNat

def poolCap (limit : Nat) : Nat := max (limit * 20) 60

structure OnboardingViewer where
  cityId : Option Id
  /-- `cityRef.googlePlaceId`. -/
  cityGooglePlaceId : Option String

namespace ContentDb

variable (s : ContentDb)

def onboardingViewer (viewerId : Id) : Option OnboardingViewer :=
  (s.users.rows.find? (·.id == viewerId)).map fun user =>
    { cityId := user.cityId
      cityGooglePlaceId := user.cityId.bind fun cityId =>
        (s.cities.rows.find? (·.id == cityId)).map (·.googlePlaceId) }

end ContentDb

/-- The city of the viewer, where the request names it. -/
def restrictCityId (viewer : Option OnboardingViewer) (cityGooglePlaceId : Option String) :
    Option Id :=
  viewer.bind fun viewer =>
    ((cityGooglePlaceId.map trim).bind orNull).bind fun paramCity =>
      if viewer.cityGooglePlaceId = some paramCity then viewer.cityId.bind orNull else none

/-- `orderBy: { createdAt: "desc" }`. -/
def OnboardingEnv.newerFirst (env : OnboardingEnv) (a b : User) : Prop :=
  env.createdAt b.id ≤ env.createdAt a.id

instance (env : OnboardingEnv) : DecidableRel env.newerFirst := fun a b => by
  unfold OnboardingEnv.newerFirst
  infer_instance

def fetchPool (env : OnboardingEnv) (notIn : List Id) (cityId : Option Id) (poolCap : Nat)
    (s : ContentDb) : List User :=
  ((env.order (s.users.rows.filter fun user =>
    !notIn.contains user.id && cityId.all (user.cityId == some ·))).insertionSort
      env.newerFirst).take poolCap

/-- Completes a pool of one city that is too small. -/
def completePool (env : OnboardingEnv) (notIn : List Id) (cityId : Option Id) (limit : Nat)
    (pool : List User) : ContentProg (List User) :=
  if pool.length < limit ∧ cityId.isSome then do
    let everywhere ← query (fetchPool env notIn none (poolCap limit))
    pure (topUp (·.id) (poolCap limit) pool everywhere)
  else pure pool

/-- No exchange of the shuffle leaves the array, so it always gives the pool. -/
def suggestedOf (env : OnboardingEnv) (viewerId : Id) (limit : Nat) (pool : List User) :
    List User :=
  ((shuffleDeterministic env.sha256 pool (viewerId ++ ":" ++ env.today)).getD pool).take limit

def SocialGraphRepository.listSuggestedOnboardingUsers (env : OnboardingEnv) (viewerId : Id)
    (limit : Int) (cityGooglePlaceId : Option String) : ContentProg (List User) := do
  let limit := suggestionLimit limit
  let viewer ← query (·.onboardingViewer viewerId)
  let cityId := restrictCityId viewer cityGooglePlaceId
  let followed ← query (·.followedIds viewerId)
  let notIn := viewerId :: followed
  let pool ← query (fetchPool env notIn cityId (poolCap limit))
  let pool ← completePool env notIn cityId limit pool
  pure (suggestedOf env viewerId limit pool)

/-! ## The service -/

deriving instance DecidableEq for UserSummary

structure UserListing where
  total : Nat
  users : List UserSummary
  deriving DecidableEq

def listingOf (users : List User) : UserListing := ⟨users.length, users.map serializeUserSummary⟩

def listSuggestedOnboardingUsers (env : OnboardingEnv) (userId : Id)
    (query : SuggestedOnboardingUsersQuery) : ContentProg UserListing := do
  let users ← SocialGraphRepository.listSuggestedOnboardingUsers env userId (query.limit.getD 6)
    query.cityGooglePlaceId
  pure (listingOf users)

/-! ## A user who follows everyone -/

/-- A request, and what the calls that follow the suggested users generate. -/
structure OnboardingRound where
  env : OnboardingEnv
  query : SuggestedOnboardingUsersQuery
  followEnv : Id → FollowEnv

def OnboardingRound.size (round : OnboardingRound) : Nat :=
  suggestionLimit (round.query.limit.getD 6)

def followEach (followEnv : Id → FollowEnv) (userId : Id) : List UserSummary → FollowProg Unit
  | [] => pure ()
  | user :: users => do
      let _ ← followUser (followEnv user.id) userId user.id
      followEach followEnv userId users

/-- Follows everybody suggested, and asks again. -/
def onboard (userId : Id) : List OnboardingRound → FollowProg (List UserListing)
  | [] => pure []
  | round :: rounds => do
      let listing ← silently (listSuggestedOnboardingUsers round.env userId round.query)
      followEach round.followEnv userId listing.users
      let later ← onboard userId rounds
      pure (listing :: later)

/-! ## What is suggested -/

section suggestions

/-- Everyone the viewer does not follow. -/
def ContentDb.strangers (s : ContentDb) (viewerId : Id) : List User :=
  s.users.rows.filter fun user => user.id != viewerId && !s.isFollowing viewerId user.id

/-- The city that the request gives precedence. -/
def ContentDb.ownCity (s : ContentDb) (viewerId : Id) (round : OnboardingRound) : Option Id :=
  restrictCityId (s.onboardingViewer viewerId) round.query.cityGooglePlaceId

def ofCity (cityId : Id) (users : List User) : List User :=
  users.filter (·.cityId == some cityId)

/-- A round suggests as many of the strangers that are left as it may, and only people of
the viewer's city where it asks for them and there are enough. -/
structure Suggests (ownCity : OnboardingRound → Option Id) (round : OnboardingRound)
    (left suggested : List User) : Prop where
  draws : Draws (·.id) round.size left suggested
  locals : ∀ cityId, ownCity round = some cityId →
    round.size ≤ (ofCity cityId left).length → suggested ⊆ ofCity cityId left

end suggestions

variable {env : OnboardingEnv} {s t : ContentDb} {viewerId : Id} {cityId : Option Id} {limit : Nat}

/-! ### Pools -/

/-- The strangers of a city, or all of them. -/
def candidates (s : ContentDb) (viewerId : Id) (cityId : Option Id) : List User :=
  (s.strangers viewerId).filter fun user => cityId.all (user.cityId == some ·)

/-- Whom the request leaves out. -/
def leftOut (s : ContentDb) (viewerId : Id) : List Id := viewerId :: s.followedIds viewerId

theorem not_leftOut (user : User) : (!(leftOut s viewerId).contains user.id) =
    (user.id != viewerId && !s.isFollowing viewerId user.id) := by
  unfold leftOut
  rw [List.contains_cons, Bool.not_or, followedIds_contains]
  rfl

theorem fetchPool_perm (cap : Nat) : ∃ rows : List User, rows.Perm (candidates s viewerId cityId) ∧
    fetchPool env (leftOut s viewerId) cityId cap s = rows.take cap := by
  refine ⟨_, ?_, rfl⟩
  have hfilter : (s.users.rows.filter fun user => !(leftOut s viewerId).contains user.id &&
      cityId.all (user.cityId == some ·)) = candidates s viewerId cityId := by
    unfold candidates ContentDb.strangers
    rw [List.filter_filter]
    refine List.filter_congr fun user _ => ?_
    rw [not_leftOut, Bool.and_comm]
  rw [hfilter]
  exact (List.perm_insertionSort _ _).trans (env.order_perm _)

theorem nodup_userIds (s : ContentDb) : (s.users.rows.map (·.id)).Nodup := by
  rw [List.Nodup, List.pairwise_map]
  refine s.users.distinct.imp fun {a b} hab hid => ?_
  simp [conflicts, hid] at hab

theorem nodup_strangers : ((s.strangers viewerId).map (·.id)).Nodup :=
  (nodup_userIds s).sublist (List.Sublist.map _ List.filter_sublist)

theorem nodup_candidates : ((candidates s viewerId cityId).map (·.id)).Nodup :=
  nodup_strangers.sublist (List.Sublist.map _ List.filter_sublist)

/-- A pool of candidates, as many as there are up to the cap. -/
structure Pool (s : ContentDb) (viewerId : Id) (cityId : Option Id) (cap : Nat)
    (pool : List User) : Prop where
  subset : pool ⊆ candidates s viewerId cityId
  nodup : (pool.map (·.id)).Nodup
  length : pool.length = min cap (candidates s viewerId cityId).length

theorem pool_fetchPool (cap : Nat) :
    Pool s viewerId cityId cap (fetchPool env (leftOut s viewerId) cityId cap s) := by
  obtain ⟨rows, hperm, hpool⟩ := fetchPool_perm cap
  rw [hpool]
  refine ⟨?_, ?_, ?_⟩
  · exact fun x hx => hperm.subset (List.mem_of_mem_take hx)
  · rw [List.map_take]
    exact ((hperm.map _).nodup_iff.mpr nodup_candidates).sublist (List.take_sublist _ _)
  · rw [List.length_take, hperm.length_eq]

theorem candidates_none : candidates s viewerId none = s.strangers viewerId := by
  unfold candidates
  exact List.filter_eq_self.mpr fun _ _ => rfl

theorem candidates_some (cityId : Id) :
    candidates s viewerId (some cityId) = ofCity cityId (s.strangers viewerId) := rfl

/-- The pool of a request, all of whose reads find the same rows. -/
def poolOf (env : OnboardingEnv) (s : ContentDb) (viewerId : Id) (cityId : Option Id)
    (limit : Nat) : List User :=
  let pool := fetchPool env (leftOut s viewerId) cityId (poolCap limit) s
  if pool.length < limit ∧ cityId.isSome then
    topUp (·.id) (poolCap limit) pool
      (fetchPool env (leftOut s viewerId) none (poolCap limit) s)
  else pool

theorem le_poolCap : limit ≤ poolCap limit := by
  unfold poolCap
  omega

theorem candidates_subset : candidates s viewerId cityId ⊆ s.strangers viewerId :=
  List.filter_subset_self _

theorem poolOf_subset : poolOf env s viewerId cityId limit ⊆ s.strangers viewerId := by
  unfold poolOf
  dsimp only
  split
  · intro x hx
    rcases mem_topUp hx with hx | hx
    · exact candidates_subset ((pool_fetchPool _).subset hx)
    · exact candidates_subset ((pool_fetchPool _).subset hx)
  · exact fun x hx => candidates_subset ((pool_fetchPool _).subset hx)

theorem nodup_poolOf : ((poolOf env s viewerId cityId limit).map (·.id)).Nodup := by
  unfold poolOf
  dsimp only
  split
  · exact nodup_topUp (pool_fetchPool _).nodup
  · exact (pool_fetchPool _).nodup

/-- The pool has strangers enough, completed or not. -/
theorem min_le_length_poolOf :
    min limit (s.strangers viewerId).length ≤ (poolOf env s viewerId cityId limit).length := by
  have hcap : limit ≤ poolCap limit := le_poolCap
  have hall : Pool s viewerId none (poolCap limit)
      (fetchPool env (leftOut s viewerId) none (poolCap limit) s) := pool_fetchPool _
  have hlength := hall.length
  rw [candidates_none] at hlength
  unfold poolOf
  dsimp only
  split
  · have htopped : ∀ pool : List User, min (poolCap limit) _ ≤
        (topUp (·.id) (poolCap limit) pool _).length := fun _ => min_le_length_topUp hall.nodup
    have hle := htopped (fetchPool env (leftOut s viewerId) cityId (poolCap limit) s)
    omega
  · rename_i hlarge
    cases cityId with
    | none => omega
    | some cityId =>
        have hnot : ¬ (fetchPool env (leftOut s viewerId) (some cityId) (poolCap limit) s).length <
            limit := fun hlt => hlarge ⟨hlt, rfl⟩
        omega

/-- Where a city has enough strangers, the pool is theirs. -/
theorem poolOf_locals {cityId : Id}
    (henough : limit ≤ (ofCity cityId (s.strangers viewerId)).length) :
    poolOf env s viewerId (some cityId) limit ⊆ ofCity cityId (s.strangers viewerId) := by
  have hcap : limit ≤ poolCap limit := le_poolCap
  have hpool : Pool s viewerId (some cityId) (poolCap limit)
      (fetchPool env (leftOut s viewerId) (some cityId) (poolCap limit) s) := pool_fetchPool _
  have hlength := hpool.length
  rw [candidates_some] at hlength
  unfold poolOf
  dsimp only
  rw [if_neg (by omega)]
  exact candidates_some (s := s) cityId ▸ hpool.subset

variable (env viewerId limit) in
theorem suggestedOf_eq (pool : List User) : ∃ rows : List User, rows.Perm pool ∧
    suggestedOf env viewerId limit pool = rows.take limit := by
  obtain ⟨rows, hshuffled, hperm⟩ := shuffleWith_perm randomPick_below
    (shuffleHashSeed (env.sha256 (viewerId ++ ":" ++ env.today))) pool
  refine ⟨rows, hperm, ?_⟩
  rw [suggestedOf, shuffleDeterministic, hshuffled, Option.getD_some]

/-- What a request gives out that finds the same rows in all its reads. -/
def suggestionsOf (s : ContentDb) (viewerId : Id) (round : OnboardingRound) : List User :=
  suggestedOf round.env viewerId round.size
    (poolOf round.env s viewerId (s.ownCity viewerId round) round.size)

theorem suggests_suggestionsOf (round : OnboardingRound) :
    Suggests (s.ownCity viewerId) round (s.strangers viewerId)
      (suggestionsOf s viewerId round) := by
  obtain ⟨rows, hperm, hrows⟩ := suggestedOf_eq round.env viewerId round.size
    (poolOf round.env s viewerId (s.ownCity viewerId round) round.size)
  unfold suggestionsOf
  rw [hrows]
  constructor
  · apply draws_take (fun x hx => poolOf_subset (hperm.subset hx))
    · exact (hperm.map _).nodup_iff.mpr nodup_poolOf
    · rw [hperm.length_eq]
      exact min_le_length_poolOf
  · intro cityId hcity hmany x hx
    rw [hcity] at hperm
    exact poolOf_locals hmany (hperm.subset (List.mem_of_mem_take hx))

/-! ## What the users leave to each other -/

/-- Neither who there is has changed, nor whom the viewer follows. -/
structure SameFor (viewerId : Id) (s t : ContentDb) : Prop where
  users : t.users = s.users
  cities : t.cities = s.cities
  followed : t.followedIds viewerId = s.followedIds viewerId

theorem SameFor.refl (viewerId : Id) (s : ContentDb) : SameFor viewerId s s := ⟨rfl, rfl, rfl⟩

theorem SameFor.trans {u : ContentDb} (hst : SameFor viewerId s t) (htu : SameFor viewerId t u) :
    SameFor viewerId s u :=
  ⟨htu.users.trans hst.users, htu.cities.trans hst.cities, htu.followed.trans hst.followed⟩

/-- A user relies on nobody else following in their name. -/
def onboardingDuty (ε : Type) (viewerId : Id) : Duty ContentDb ε where
  rely := SameFor viewerId
  guar s t := ∀ other, other ≠ viewerId → SameFor other s t
  permits _ _ := True
  refl := SameFor.refl viewerId
  trans := SameFor.trans

theorem sameFor_of_sameContent (h : SameContent s t) (userId : Id) : SameFor userId s t where
  users := h.users_eq
  cities := by
    obtain ⟨settings, ht⟩ := h.rows
    rw [ht]
  followed := h.followedIds userId

/-- What the viewer has come to: these are followed now, too. -/
structure Gained (viewerId : Id) (s t : ContentDb) (ids : List Id) : Prop where
  users : t.users = s.users
  cities : t.cities = s.cities
  followed : ∀ id, id ∈ t.followedIds viewerId ↔ id ∈ s.followedIds viewerId ∨ id ∈ ids

theorem gained_nil (h : SameFor viewerId s t) : Gained viewerId s t [] :=
  ⟨h.users, h.cities, fun id => by rw [h.followed]; simp⟩

theorem Gained.later {u : ContentDb} {ids : List Id} (h : Gained viewerId s t ids)
    (htu : SameFor viewerId t u) : Gained viewerId s u ids :=
  ⟨htu.users.trans h.users, htu.cities.trans h.cities, fun id => by rw [htu.followed, h.followed]⟩

theorem Gained.append {u : ContentDb} {ids ids' : List Id} (h : Gained viewerId s t ids)
    (h' : Gained viewerId t u ids') : Gained viewerId s u (ids ++ ids') :=
  ⟨h'.users.trans h.users, h'.cities.trans h.cities, fun id => by
    rw [h'.followed, h.followed, List.mem_append, or_assoc]⟩

section abides

variable {α : Type} {Q : Except Failure α → ContentDb → Prop}

theorem abides_query {ε : Type} {read : ContentDb → α}
    (h : ∀ t, SameFor viewerId s t → Q (.ok (read t)) t) :
    (query read : Prog ContentDb ε Failure α).Abides (onboardingDuty ε viewerId) Q s :=
  abides_stmt fun t hst _ => ⟨fun other _ => .refl other t, h t hst⟩

/-- What nobody observes abides as it does by itself. -/
theorem abides_silently {p : ContentProg α} (h : p.Abides (onboardingDuty Empty viewerId) Q s) :
    (silently p).Abides (onboardingDuty FollowEvent viewerId) Q s := by
  induction p generalizing s with
  | done a => exact h
  | fail e => exact h
  | step exec next ih =>
      intro t hst _
      obtain ⟨hguar, hnext⟩ := h t hst trivial
      exact ⟨hguar, ih t hnext⟩

theorem abides_sameContent {p : ContentProg α} (h : p.Always fun s t _ => SameContent s t) :
    p.Abides (onboardingDuty Empty viewerId) (fun _ t => SameFor viewerId s t) s := by
  apply Always.abides
  · refine h.mono fun u v _ hsame => ⟨fun other _ => sameFor_of_sameContent hsame other, ?_⟩
    exact fun hsu => hsu.trans (sameFor_of_sameContent hsame viewerId)
  · exact fun u v hsu huv => hsu.trans huv
  · exact .refl viewerId s

end abides

/-! ### A request -/

theorem SameFor.onboardingViewer (h : SameFor viewerId s t) (userId : Id) :
    t.onboardingViewer userId = s.onboardingViewer userId := by
  unfold ContentDb.onboardingViewer
  rw [h.users, h.cities]

theorem SameFor.fetchPool (h : SameFor viewerId s t) (notIn : List Id) (cap : Nat) :
    fetchPool env notIn cityId cap t = fetchPool env notIn cityId cap s := by
  unfold Content.fetchPool
  rw [h.users]

theorem abides_completePool (h : SameFor viewerId s t) :
    (completePool env (leftOut s viewerId) cityId limit
      (fetchPool env (leftOut s viewerId) cityId (poolCap limit) s)).Abides
        (onboardingDuty Empty viewerId)
        (fun r u => r = .ok (poolOf env s viewerId cityId limit) ∧ SameFor viewerId s u) t := by
  unfold completePool poolOf
  dsimp only
  split
  · refine abides_bind (abides_query fun u htu => ?_)
    refine ⟨?_, h.trans htu⟩
    rw [(h.trans htu).fetchPool]
  · exact ⟨rfl, h⟩

theorem abides_listSuggested (round : OnboardingRound) :
    (listSuggestedOnboardingUsers round.env viewerId round.query).Abides
      (onboardingDuty Empty viewerId) (fun r t =>
        r = .ok (listingOf (suggestionsOf s viewerId round)) ∧ SameFor viewerId s t) s := by
  refine abides_bind (abides_bind (abides_query fun t hst => ?_))
  refine abides_bind (abides_query fun u htu => ?_)
  have hsu := hst.trans htu
  refine abides_bind (abides_query fun v huv => ?_)
  have hsv := hsu.trans huv
  rw [hst.onboardingViewer, hsu.followed, hsv.fetchPool]
  refine abides_bind ((abides_completePool hsv).mono fun r w hr => ?_)
  obtain ⟨rfl, hsw⟩ := hr
  exact ⟨rfl, hsw⟩

/-! ### Following -/

theorem always_ensureUserSettingsForUsers (env : ContentEnv) (userIds : List Id) :
    (ensureUserSettingsForUsers env userIds).Always fun s t _ => SameContent s t := by
  unfold ensureUserSettingsForUsers
  generalize distinctIds (userIds.filter (· != "")) = ids
  generalize 0 = k
  induction ids generalizing k with
  | nil => exact always_pure ()
  | cons id ids ih =>
      refine always_bind (always_stmt fun s => ?_) fun _ => ih (k + 1)
      cases ht : s.upsertSettings (defaultSettings env k id) with
      | ok t => exact sameContent_of_upsert ht
      | error e => exact .refl s

theorem mem_followedIds {userId id : Id} :
    id ∈ s.followedIds userId ↔
      ∃ f ∈ s.follows.rows, f.followerId = userId ∧ f.followedId = id := by
  simp [SocialDb.followedIds, and_assoc]

/-- The follow is there, and nobody else follows anybody new. -/
theorem gained_insertFollow {f : UserFollow} (h : s.insertFollow f = .ok t) :
    Gained f.followerId s t [f.followedId] ∧ ∀ other, other ≠ f.followerId → SameFor other s t := by
  have hcities : t.cities = s.cities := by
    unfold ContentDb.insertFollow at h
    split at h
    · split at h
      · cases h
      · cases h
        rfl
    · cases h
  obtain ⟨husers, -, hrows⟩ := insertFollow_ok h
  refine ⟨⟨husers, hcities, fun id => ?_⟩, fun other hother => ⟨husers, hcities, ?_⟩⟩
  · rw [mem_followedIds, mem_followedIds, hrows]
    simp [or_and_right, exists_or, eq_comm]
  · unfold SocialDb.followedIds
    rw [hrows, List.filter_append]
    simp [hother.symm]

theorem gained_of_followed {id : Id} (h : SameFor viewerId s t)
    (hid : id ∈ t.followedIds viewerId) : Gained viewerId s t [id] := by
  refine ⟨h.users, h.cities, fun other => ?_⟩
  rw [← h.followed, List.mem_singleton]
  constructor
  · exact .inl
  · rintro (hother | rfl)
    · exact hother
    · exact hid

/-- After a look that found no follow, or found the one it looked for. -/
theorem abides_followRow (env : FollowEnv) (targetUserId : Id) (user : UserRow)
    (h : SameFor viewerId s t) :
    (followRow env viewerId targetUserId user).Abides (onboardingDuty FollowEvent viewerId)
      (fun r u => ∀ result, r = .ok result → Gained viewerId s u [targetUserId]) t := by
  unfold followRow
  refine abides_bind (abides_stmt fun u htu _ => ⟨fun other _ => .refl other u, ?_⟩)
  have hsu := h.trans htu
  dsimp only
  cases hfound : u.findFollow viewerId targetUserId with
  | some f =>
      have hisSome : (u.findFollow viewerId targetUserId).isSome = true := by rw [hfound]; rfl
      obtain ⟨g, hg, hfollower, hfollowed⟩ := findFollow_isSome.mp hisSome
      have hgained := gained_of_followed hsu (mem_followedIds.mpr ⟨g, hg, hfollower, hfollowed⟩)
      refine abides_bind (abides_silently (abides_bind (abides_query fun v huv => ?_)))
      exact fun _ _ => hgained.later huv
  | none =>
      refine abides_bind (abides_stmt fun v huv _ => ?_)
      have hsv := hsu.trans huv
      cases hinsert : v.insertFollow (newFollow env viewerId targetUserId) with
      | error e => exact ⟨fun other _ => .refl other v, fun _ h => by cases h⟩
      | ok w =>
          obtain ⟨hgained, hothers⟩ := gained_insertFollow hinsert
          refine ⟨hothers, ?_⟩
          refine abides_bind (abides_silently (abides_bind (abides_query fun x hwx => ?_)))
          exact fun _ _ => ((gained_nil hsv).append hgained).later hwx

/-- Whoever has followed somebody follows them. -/
theorem abides_followUser (env : FollowEnv) (targetUserId : Id) :
    (followUser env viewerId targetUserId).Abides (onboardingDuty FollowEvent viewerId)
      (fun r t => ∀ following, r = .ok following → Gained viewerId s t [targetUserId]) s := by
  have hsettings : (silently (ensureUserSettingsForUsers env.toContentEnv
      [viewerId, targetUserId])).Abides (onboardingDuty FollowEvent viewerId)
      (fun r t => ∀ done, r = .ok done → SameFor viewerId s t) s :=
    (abides_silently (abides_sameContent (always_ensureUserSettingsForUsers _ _))).mono
      fun _ _ hst _ _ => hst
  have hrepository : (SocialGraphRepository.followUser env viewerId targetUserId).Abides
      (onboardingDuty FollowEvent viewerId) (fun r t => ∀ found, r = .ok found →
        found.isSome → Gained viewerId s t [targetUserId]) s := by
    refine abides_bind_ok hsettings fun _ t hst => ?_
    refine abides_bind (abides_silently (abides_query fun u htu => ?_))
    cases u.findUserRow targetUserId with
    | none =>
        intro found hfound hsome
        cases hfound
        cases hsome
    | some user =>
        refine abides_bind_ok (abides_followRow env targetUserId user (hst.trans htu)) ?_
        intro result v hgained found _ _
        exact hgained
  unfold followUser
  split
  · exact nofun
  refine abides_bind_ok hrepository fun found t hgained => ?_
  cases found with
  | none => exact nofun
  | some result =>
      dsimp only
      split
      · refine abides_bind (abides_stmt fun u htu _ => ⟨fun other _ => .refl other u, ?_⟩)
        exact fun _ _ => (hgained rfl).later htu
      · exact fun _ _ => hgained rfl

theorem abides_followEach (followEnv : Id → FollowEnv) (users : List UserSummary) :
    (followEach followEnv viewerId users).Abides (onboardingDuty FollowEvent viewerId)
      (fun r t => ∀ done, r = .ok done → Gained viewerId s t (users.map (·.id))) s := by
  induction users generalizing s with
  | nil => exact fun _ _ => gained_nil (.refl viewerId s)
  | cons user users ih =>
      refine abides_bind_ok (abides_followUser _ user.id) fun following t hgained => ?_
      exact ih.mono fun r u hu done hdone => hgained.append (hu done hdone)

/-! ### Round after round -/

/-- Who is followed now is a stranger no more. -/
theorem Gained.strangers {suggested : List User}
    (h : Gained viewerId s t (suggested.map (·.id))) :
    t.strangers viewerId = leftAfter (·.id) (s.strangers viewerId) suggested := by
  have hfollowing : ∀ id, t.isFollowing viewerId id =
      (s.isFollowing viewerId id || decide (id ∈ suggested.map (·.id))) := by
    intro id
    rw [Bool.eq_iff_iff, ← followedIds_contains, ← followedIds_contains, Bool.or_eq_true,
      List.contains_iff_mem, List.contains_iff_mem, decide_eq_true_eq]
    exact h.followed id
  unfold ContentDb.strangers leftAfter
  rw [h.users, List.filter_filter]
  refine List.filter_congr fun user _ => ?_
  rw [hfollowing, Bool.not_or, decide_not, ← Bool.and_assoc]
  exact Bool.and_comm _ _

theorem Gained.ownCity {ids : List Id} (h : Gained viewerId s t ids) :
    t.ownCity viewerId = s.ownCity viewerId := by
  funext round
  unfold ContentDb.ownCity ContentDb.onboardingViewer
  rw [h.users, h.cities]

/-- What a user has been told, and whom they follow then. -/
structure Introduced (s : ContentDb) (viewerId : Id) (rounds : List OnboardingRound)
    (listings : List UserListing) (t : ContentDb) (suggested : List (List User)) : Prop where
  listings : listings = suggested.map listingOf
  rounds : InRounds (·.id) (Suggests (s.ownCity viewerId)) rounds (s.strangers viewerId) suggested
  gained : Gained viewerId s t (suggested.flatten.map (·.id))

theorem abides_onboard (rounds : List OnboardingRound) :
    (onboard viewerId rounds).Abides (onboardingDuty FollowEvent viewerId)
      (fun r t => ∀ listings, r = .ok listings →
        ∃ suggested, Introduced s viewerId rounds listings t suggested) s := by
  induction rounds generalizing s with
  | nil =>
      intro listings hlistings
      cases hlistings
      exact ⟨[], rfl, .done _, gained_nil (.refl viewerId s)⟩
  | cons round rounds ih =>
      refine abides_bind ((abides_silently (abides_listSuggested round)).mono fun r t hr => ?_)
      obtain ⟨rfl, hst⟩ := hr
      refine abides_bind_ok (abides_followEach _ _) fun _ u hfollowed => ?_
      have hgained : Gained viewerId s u ((suggestionsOf s viewerId round).map (·.id)) := by
        have hids := (gained_nil hst).append hfollowed
        rwa [List.nil_append, listingOf, List.map_map] at hids
      refine abides_bind_ok ih fun later v hlater => ?_
      obtain ⟨suggested, rfl, hrounds, hfollowing⟩ := hlater
      intro listings hlistings
      cases hlistings
      rw [hgained.strangers, hgained.ownCity] at hrounds
      refine ⟨suggestionsOf s viewerId round :: suggested, rfl,
        .round (suggests_suggestionsOf round) hrounds, ?_⟩
      rw [List.flatten_cons, List.map_append]
      exact hgained.append hfollowing

/-! ## Users at the same time -/

section users

variable {ι : Type} [DecidableEq ι]

abbrev OnboardingConfig (ι : Type) := Config ι ContentDb FollowEvent Failure (List UserListing)

/-- Nobody has asked yet. -/
def beginOnboarding (s : ContentDb) (viewers : ι → Id) (rounds : ι → List OnboardingRound) :
    OnboardingConfig ι :=
  ⟨s, fun i => onboard (viewers i) (rounds i), []⟩

/-- Rounds by the rule, which together suggest as many as they may and nobody twice, so
everyone where they may suggest so many; and all of these are followed in the end. -/
def Introduces (s : ContentDb) (viewerId : Id) (rounds : List OnboardingRound)
    (listings : List UserListing) (t : ContentDb) : Prop :=
  ∃ suggested : List (List User), listings = suggested.map listingOf ∧
    InRounds (·.id) (Suggests (s.ownCity viewerId)) rounds (s.strangers viewerId) suggested ∧
    Draws (·.id) (rounds.map (·.size)).sum (s.strangers viewerId) suggested.flatten ∧
    ((s.strangers viewerId).length ≤ (rounds.map (·.size)).sum →
      suggested.flatten.Perm (s.strangers viewerId)) ∧
    ∀ user ∈ suggested.flatten, t.isFollowing viewerId user.id = true

theorem Introduced.introduces {rounds : List OnboardingRound} {listings : List UserListing}
    {suggested : List (List User)} (h : Introduced s viewerId rounds listings t suggested) :
    Introduces s viewerId rounds listings t := by
  have hdraws : Draws (·.id) (rounds.map (·.size)).sum (s.strangers viewerId) suggested.flatten :=
    h.rounds.draws (fun _ _ _ hsuggests => hsuggests.draws) nodup_strangers
  refine ⟨suggested, h.listings, h.rounds, hdraws, hdraws.perm, fun user huser => ?_⟩
  rw [← followedIds_contains, List.contains_iff_mem]
  exact (h.gained.followed user.id).mpr (.inr (List.mem_map_of_mem huser))

theorem heeds_onboarding (viewers : ι → Id) (c : OnboardingConfig ι) (schedule : List ι) :
    Config.Heeds (Config.Permits fun j => onboardingDuty FollowEvent (viewers j)) c schedule := by
  induction schedule generalizing c with
  | nil => trivial
  | cons i schedule ih => exact ⟨trivial, ih _⟩

/-- Whoever follows everybody suggested and asks again is introduced to everyone once,
whatever other users do so at the same time. -/
theorem everyone_is_introduced_once (s : ContentDb) (viewers : ι → Id)
    (hviewers : Function.Injective viewers) (rounds : ι → List OnboardingRound)
    (schedule : List ι) (i : ι) (listings : List UserListing)
    (hended : ((beginOnboarding s viewers rounds).run schedule).returned i = some listings) :
    Introduces s (viewers i) (rounds i) listings
      ((beginOnboarding s viewers rounds).run schedule).store := by
  have hall : ∀ j, ((beginOnboarding s viewers rounds).calls j).Abides
      (onboardingDuty FollowEvent (viewers j)) (fun r t => ∀ listings, r = .ok listings →
        ∃ suggested, Introduced s (viewers j) (rounds j) listings t suggested)
      (beginOnboarding s viewers rounds).store := fun j => abides_onboard (rounds j)
  have hrun := Config.abides_run (D := fun j => onboardingDuty FollowEvent (viewers j))
    (fun k j hj u v hguar => hguar (viewers j) fun hsame => hj (hviewers hsame))
    (fun j r t u hr htu listings hlistings => by
      obtain ⟨suggested, htold⟩ := hr listings hlistings
      exact ⟨suggested, htold.listings, htold.rounds, htold.gained.later htu⟩)
    hall (heeds_onboarding viewers _ schedule) i
  obtain ⟨suggested, htold⟩ := Config.returned_of_abides hrun hended listings rfl
  exact htold.introduces

end users

/-! ### Three users -/

def anaBetoAndCarla : ContentDb :=
  ContentDb.ofSocial (.ofUsers
      ⟨[{ id := "ana", username := "ana", displayName := "Ana" },
        { id := "beto", username := "beto", displayName := "Beto" },
        { id := "carla", username := "carla", displayName := "Carla" }], by decide⟩
      ⟨[{ id := "s1", userId := "ana" }, { id := "s2", userId := "beto" },
        { id := "s3", userId := "carla" }], by decide⟩
      .empty .empty (.singleton aBar)) {}
    (by decide) (by
      intro p hp q hq
      rw [List.mem_singleton.mp hp, List.mem_singleton.mp hq])

def anOnboardingRound (limit : Int) (prefixOf : String) : OnboardingRound where
  env :=
    { today := "2025-06-01"
      sha256 _ := Vector.replicate 32 7
      createdAt _ := 0
      order := id
      order_perm _ := .refl _ }
  query := { limit := some limit }
  followEnv id := aFollowEnv (prefixOf ++ id) "s7" "s8"

def anaAndBetoOnboard : Bool → List OnboardingRound
  | true => [anOnboardingRound 1 "ana-", anOnboardingRound 1 "ana-"]
  | false => [anOnboardingRound 6 "beto-"]

def asking : Bool → Id
  | true => "ana"
  | false => "beto"

theorem asking_injective : Function.Injective asking := by
  intro a b hab
  cases a <;> cases b <;> first | rfl | exact absurd hab (by decide)

def listingOfOne (id displayName : String) : UserListing :=
  ⟨1, [⟨none, none, displayName, id, id⟩]⟩

/-- Ana asks twice for one user, while beto asks. -/
theorem ana_meets_beto_and_carla : Introduces anaBetoAndCarla "ana" (anaAndBetoOnboard true)
    [listingOfOne "beto" "Beto", listingOfOne "carla" "Carla"]
    ((beginOnboarding anaBetoAndCarla asking anaAndBetoOnboard).run
      (List.replicate 10 [false, true, true]).flatten).store :=
  everyone_is_introduced_once anaBetoAndCarla asking asking_injective anaAndBetoOnboard
    (List.replicate 10 [false, true, true]).flatten true _ (by decide +kernel)

end Feca.Content
