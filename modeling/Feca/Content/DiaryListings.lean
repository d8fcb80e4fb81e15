import Feca.Content.DiaryVisibility

/-! # Listings of diaries against `getDiary`

Searches, home guides and the diaries of a user ask the settings of the owner
before they list a diary. The place page and the weekly digest do not: there the
listing agrees with `getDiary` as long as the owners happen to let the viewer in.
-/

namespace Feca.Content

open Concurrency Concurrency.Prog Relational Social

variable {env : ContentEnv} {viewerId userId : Id} {s t : ContentDb} {diary : DiaryWithRelations}

/-! ## Listings that ask -/

/-- The id of a stored diary that lets the viewer in. -/
def Admitted (s : ContentDb) (viewerId diaryId : Id) : Prop :=
  ∃ d ∈ s.diaries.rows, d.id = diaryId ∧ Admits s viewerId d

/-- What the query by owner lets through, the settings of the owner do too. -/
theorem owner_of_where (hs : SameContent s t)
    (hid : diary.createdBy.id = diary.createdById)
    (hsettings : diary.createdBy.settings = t.settingsOf diary.createdById)
    (h : buildDiaryOwnerVisibilityWhere t viewerId diary = true) :
    viewerId = diary.createdById ∨ s.deniesDiaries viewerId diary.createdById = false := by
  have hvisibility := congrArg SocialSettingsView.diaryVisibility (hs.settings diary.createdById)
  rw [← hsettings] at hvisibility
  have hopen : canViewContent (normalizeSettings diary.createdBy.settings).diaryVisibility
      (s.isFollowing viewerId diary.createdById) = true →
        s.deniesDiaries viewerId diary.createdById = false := by
    intro hcan
    rw [hvisibility] at hcan
    unfold ContentDb.deniesDiaries
    rw [hcan, Bool.not_true, Bool.and_false]
  unfold buildDiaryOwnerVisibilityWhere at h
  rw [hs.isFollowing, hid] at h
  cases hrow : diary.createdBy.settings with
  | none =>
      right
      apply hopen
      rw [hrow]
      rfl
  | some row =>
      rw [hrow] at h
      simp only [Bool.or_eq_true, beq_iff_eq, Option.isNone_some, Option.any_some,
        Bool.and_eq_true, Bool.false_eq_true, or_false] at h
      rcases h with (hown | hpublic) | ⟨hfollowing, hfollowers⟩
      · exact .inl hown.symm
      · right
        apply hopen
        rw [hrow]
        show canViewContent row.diaryVisibility _ = true
        rw [hpublic]
        rfl
      · right
        apply hopen
        rw [hrow]
        show canViewContent row.diaryVisibility _ = true
        rw [hfollowers]
        exact hfollowing

/-- A public diary of an owner who lets the viewer in. -/
theorem admitted_of_where (hs : SameContent s t) {p : DiaryWithRelations → Bool}
    (h : diary ∈ t.findDiaries p) (hpublic : diary.visibility = .«public»)
    (howner : buildDiaryOwnerVisibilityWhere t viewerId diary = true) :
    Admitted s viewerId diary.id := by
  obtain ⟨hstored, -, hid, hsettings⟩ := diary_read hs h
  refine ⟨diary.toDiary, hstored, rfl, ?_⟩
  rcases owner_of_where hs hid hsettings howner with hown | hallowed
  · exact .inl hown
  · exact .inr ⟨by rw [hpublic]; decide, hallowed⟩

/-- Every diary of a listing lets the viewer in. -/
def OnlyAdmitted (s : ContentDb) (viewerId : Id) (listing : DiaryListing) : Prop :=
  ∀ view ∈ listing.diaries, Admitted s viewerId view.id

section listings

variable (s₀ : ContentDb)

theorem keeps_normalizeRequiredSearchQuery (query : Option String) (message : String) :
    (normalizeRequiredSearchQuery query message).Keeps (SameContent s₀) fun _ => True := by
  unfold normalizeRequiredSearchQuery
  dsimp only
  split
  · exact keeps_fail _
  · exact keeps_pure trivial

theorem keeps_searchPublicDiaries (env : DiaryEnv) (query : SearchDiariesQuery) :
    (searchPublicDiaries env viewerId query).Keeps (SameContent s₀) (OnlyAdmitted s₀ viewerId) := by
  unfold searchPublicDiaries
  apply keeps_bind (keeps_normalizeRequiredSearchQuery s₀ _ _)
  · intro normalizedQuery _
    apply keeps_bind (keeps_read s₀ _)
    intro diaries hdiaries
    obtain ⟨t, ht, rfl⟩ := hdiaries
    apply keeps_bind (keeps_read s₀ _)
    intro total _
    apply keeps_pure
    intro view hview
    obtain ⟨diary, hdiary, rfl⟩ := List.mem_map.mp hview
    have hfound := (List.mem_insertionSort _).mp
      (List.mem_of_mem_drop (List.mem_of_mem_take hdiary))
    have hwhere := (diary_read ht hfound).2.1
    simp only [searchWhere, Bool.and_eq_true, beq_iff_eq] at hwhere
    exact admitted_of_where ht hfound hwhere.1.1 hwhere.1.2

theorem keeps_listHomeEditorGuides (limit : Nat) :
    (listHomeEditorGuides env viewerId limit).Keeps (SameContent s₀)
      (OnlyAdmitted s₀ viewerId) := by
  unfold listHomeEditorGuides
  apply keeps_bind (keeps_read s₀ _)
  intro diaries hdiaries
  obtain ⟨t, ht, rfl⟩ := hdiaries
  apply keeps_pure
  intro view hview
  obtain ⟨diary, hdiary, rfl⟩ := List.mem_map.mp hview
  have hfound := List.mem_of_mem_take hdiary
  have hwhere := (diary_read ht hfound).2.1
  simp only [homeGuideWhere, Bool.and_eq_true, beq_iff_eq] at hwhere
  exact admitted_of_where ht hfound hwhere.1.2 hwhere.2

theorem keeps_listUserDiaries :
    (listUserDiaries env viewerId userId).Keeps (SameContent s₀) (OnlyAdmitted s₀ viewerId) := by
  unfold listUserDiaries
  apply keeps_bind (keeps_findUserByIdWithContext s₀)
  intro found hfound
  split
  · exact keeps_fail _
  · rename_i profile
    have hgrants := hfound profile rfl
    split
    · exact keeps_pure fun view hview => absurd hview List.not_mem_nil
    · rename_i hcan
      have hopen : s₀.deniesDiaries viewerId userId = false := by
        rw [hgrants.diaries] at hcan
        simpa using hcan
      apply keeps_bind (keeps_read s₀ _)
      intro stored hstored
      obtain ⟨t, ht, rfl⟩ := hstored
      apply keeps_pure
      intro view hview
      obtain ⟨diary, hdiary, rfl⟩ := List.mem_map.mp hview
      obtain ⟨hfound, hvisible⟩ := List.mem_filter.mp hdiary
      obtain ⟨hrow, howner, -, -⟩ := diary_read ht hfound
      have huser : diary.createdById = userId := beq_iff_eq.mp howner
      refine ⟨diary.toDiary, hrow, rfl, ?_⟩
      by_cases hself : viewerId = diary.createdById
      · exact .inl hself
      · right
        constructor
        · intro hprivate
          simp [canViewDiary, hself, hprivate] at hvisible
        · rw [huser]
          exact hopen

end listings

/-! ## Listings that do not -/

theorem SameContent.diaryRowsOf (h : SameContent s t) (viewerId placeId : Id) :
    t.diaryRowsOf viewerId placeId = s.diaryRowsOf viewerId placeId := by
  unfold ContentDb.diaryRowsOf ContentDb.diaryPlacesWithDiary
  rw [h.diaryPlaces, h.diaries]

/-- The place page shows the diaries of its query, whoever owns them. -/
theorem keeps_diaryAppearances (s₀ : ContentDb) (placeId : Id) :
    (getPlaceSocialContext env viewerId placeId).Keeps (SameContent s₀) fun context =>
      context.diaryAppearances = (s₀.diaryRowsOf viewerId placeId).map diaryAppearance ∧
        context.guideAppearances = context.diaryAppearances := by
  unfold getPlaceSocialContext
  apply keeps_bind (keeps_ensureUserSettings s₀)
  intro _ _
  apply keeps_bind (keeps_followedIds s₀)
  intro followingIds _
  apply keeps_bind (keeps_read s₀ _)
  intro visits _
  apply keeps_bind (keeps_query (Q := fun rows => rows = s₀.diaryRowsOf viewerId placeId)
    fun t ht => ht.diaryRowsOf viewerId placeId)
  intro diaryRows hrows
  apply keeps_pure
  rw [hrows]
  exact ⟨rfl, rfl⟩

theorem mem_diaryRowsOf {placeId : Id} {row : DiaryPlaceWithDiary}
    (h : row ∈ s.diaryRowsOf viewerId placeId) : row.diary ∈ s.diaries.rows ∧
      row.diary.id = row.diaryId ∧
        (viewerId = row.diary.createdById ∨ row.diary.visibility = .«public») := by
  have hsorted := List.mem_of_mem_take h
  rw [List.mem_insertionSort, List.mem_filter] at hsorted
  obtain ⟨hjoined, hwhere⟩ := hsorted
  obtain ⟨entry, -, hread⟩ := List.mem_filterMap.mp hjoined
  obtain ⟨d, hd, rfl⟩ := Option.map_eq_some_iff.mp hread
  have hopen := (Bool.and_eq_true_iff.mp hwhere).2
  simp only [Bool.or_eq_true, beq_iff_eq] at hopen
  exact ⟨List.mem_of_find?_eq_some hd, by simpa using List.find?_some hd, hopen.imp_left Eq.symm⟩

/-- The guide a digest recommends. -/
def ContentDb.weeklyGuide (s : ContentDb) (cityId : Option Id) : Option DiaryWithRelations :=
  ((cityId.bind orNull).bind fun cityId =>
    (s.findDiaries (weeklyGuideWhere (some cityId))).head?).or
      (s.findDiaries (weeklyGuideWhere none)).head?

theorem run_findWeeklyGuide (cityId : Option Id) :
    (findWeeklyGuide cityId).run s = ⟨s, [], .ok (s.weeklyGuide cityId)⟩ := by
  unfold findWeeklyGuide findCityGuide ContentDb.weeklyGuide
  cases cityId.bind orNull with
  | none => rfl
  | some cityId =>
      rw [run_bind_ok (by rw [run_query]), run_query, Option.bind_some]
      cases (s.findDiaries (weeklyGuideWhere (some cityId))).head? with
      | none => rfl
      | some guide => rfl

theorem weeklyGuide_read {cityId : Option Id} (h : s.weeklyGuide cityId = some diary) :
    diary.toDiary ∈ s.diaries.rows ∧ diary.visibility = .«public» := by
  have hread : ∀ cityId : Option Id, (s.findDiaries (weeklyGuideWhere cityId)).head? = some diary →
      diary.toDiary ∈ s.diaries.rows ∧ diary.visibility = .«public» := by
    intro cityId hhead
    obtain ⟨hrow, hwhere, -⟩ := diary_read (SameContent.refl s) (List.mem_of_head? hhead)
    simp only [weeklyGuideWhere, Bool.and_eq_true, beq_iff_eq] at hwhere
    exact ⟨hrow, hwhere.2⟩
  unfold ContentDb.weeklyGuide at h
  rcases Option.or_eq_some_iff.mp h with hcity | ⟨-, hany⟩
  · obtain ⟨cityId, -, hhead⟩ := Option.bind_eq_some_iff.mp hcity
    exact hread _ hhead
  · exact hread _ hany

/-- A digest names the guide it found, and is sent whenever it found one. -/
theorem run_weeklyDigest (now : Date) (s : ContentDb) (user : User) :
    ∃ digest, ((weeklyDigest now user).run s).result = .ok digest ∧
      (∀ sent, digest = some sent → sent.guideId = (s.weeklyGuide user.cityId).map (·.id)) ∧
      ((s.weeklyGuide user.cityId).isSome → digest.isSome) := by
  unfold weeklyDigest
  dsimp only
  rw [run_bind_ok (by rw [run_query]), run_query]
  dsimp only
  rw [run_bind_ok (by rw [run_query]), run_query]
  dsimp only
  rw [run_bind_ok (by rw [run_query]), run_query]
  dsimp only
  rw [run_bind_ok (by rw [run_findWeeklyGuide]), run_findWeeklyGuide]
  dsimp only
  split
  · rename_i hnothing
    refine ⟨none, rfl, ?_, ?_⟩
    · intro sent hsent
      cases hsent
    · intro hsome
      rw [Option.isNone_iff_eq_none.mp hnothing.2.2] at hsome
      cases hsome
  · refine ⟨_, rfl, ?_, fun _ => rfl⟩
    intro sent hsent
    cases hsent
    rfl

/-! ## The law -/

/-- Whatever diary is surfaced to the viewer, `getDiary` opens for them. -/
structure DiariesAreConsistent (env : DiaryEnv) (viewerId : Id) (s : ContentDb) : Prop where
  search : ∀ query listing,
    ((searchPublicDiaries env viewerId query).run s).result = .ok listing →
      ∀ view ∈ listing.diaries, Opens env.toContentEnv s viewerId view.id
  homeGuides : ∀ limit listing,
    ((listHomeEditorGuides env.toContentEnv viewerId limit).run s).result = .ok listing →
      ∀ view ∈ listing.diaries, Opens env.toContentEnv s viewerId view.id
  userDiaries : ∀ userId listing,
    ((listUserDiaries env.toContentEnv viewerId userId).run s).result = .ok listing →
      ∀ view ∈ listing.diaries, Opens env.toContentEnv s viewerId view.id
  placePage : ∀ placeId context,
    ((getPlaceSocialContext env.toContentEnv viewerId placeId).run s).result = .ok context →
      ∀ appearance ∈ context.diaryAppearances ++ context.guideAppearances,
        Opens env.toContentEnv s viewerId appearance.diaryId
  weeklyDigest : ∀ user ∈ s.users.rows, user.id = viewerId → ∀ digest guideId,
    ((Content.weeklyDigest env.now user).run s).result = .ok (some digest) →
      digest.guideId = some guideId → Opens env.toContentEnv s viewerId guideId

/-- The owners that two listings do not ask let the viewer see their diaries: of
the first twenty public diaries, or own ones, that mention a place, and of the
guide for the viewer's weekly digest. -/
structure UnaskedOwnersAdmit (env : ContentEnv) (viewerId : Id) (s : ContentDb) : Prop where
  placePage : s.Settles (defaultSettings env 0 viewerId) → ∀ placeId,
    ∀ row ∈ s.diaryRowsOf viewerId placeId,
      s.deniesDiaries viewerId row.diary.createdById = false
  weeklyDigest : ∀ user ∈ s.users.rows, user.id = viewerId → ∀ guide,
    s.weeklyGuide user.cityId = some guide → s.deniesDiaries viewerId guide.createdById = false

section law

variable {env : DiaryEnv} (hfresh : FreshSettings env.toContentEnv s)

include hfresh

theorem opens_of_admitted {diaryId : Id} (h : Admitted s viewerId diaryId) :
    Opens env.toContentEnv s viewerId diaryId := by
  obtain ⟨d, hd, rfl, hadmits⟩ := h
  exact opens_of_admits hfresh hd hadmits

theorem opens_of_public {d : Diary} (hd : d ∈ s.diaries.rows)
    (hopen : viewerId = d.createdById ∨ d.visibility = .«public»)
    (hallowed : s.deniesDiaries viewerId d.createdById = false) :
    Opens env.toContentEnv s viewerId d.id := by
  apply opens_of_admits hfresh hd
  rcases hopen with hown | hpublic
  · exact .inl hown
  · exact .inr ⟨by rw [hpublic]; decide, hallowed⟩

theorem owners_of_consistent (h : DiariesAreConsistent env viewerId s) :
    UnaskedOwnersAdmit env.toContentEnv viewerId s where
  placePage := by
    intro hsettles placeId row hrow
    obtain ⟨hd, hid, hopen⟩ := mem_diaryRowsOf hrow
    have hrun := run_ensureUserSettings hsettles
    have hcontext : ∃ context, ((getPlaceSocialContext env.toContentEnv viewerId placeId).run
        s).result = .ok context := by
      unfold getPlaceSocialContext
      rw [run_bind_ok (by rw [hrun]), hrun]
      exact ⟨_, rfl⟩
    obtain ⟨context, hcontext⟩ := hcontext
    have hshown := ((keeps_diaryAppearances s placeId).result (SameContent.refl s) hcontext).1
    have hmem : diaryAppearance row ∈ context.diaryAppearances ++ context.guideAppearances := by
      rw [hshown]
      exact List.mem_append_left _ (List.mem_map_of_mem hrow)
    have hopens := h.placePage placeId context hcontext _ hmem
    have hdiary : Opens env.toContentEnv s viewerId row.diary.id := by
      rw [hid]
      exact hopens
    exact denies_of_opens hfresh hsettles hd hopen hdiary
  weeklyDigest := by
    intro user huser hid guide hguide
    obtain ⟨hd, hpublic⟩ := weeklyGuide_read hguide
    obtain ⟨digest, hdigest, hnamed, hsent⟩ := run_weeklyDigest env.now s user
    obtain ⟨sent, rfl⟩ := Option.isSome_iff_exists.mp (hsent (by rw [hguide]; rfl))
    have hguideId : sent.guideId = some guide.id := by
      rw [hnamed sent rfl, hguide]
      rfl
    have hstored : s.hasUser viewerId = true :=
      List.any_eq_true.mpr ⟨user, huser, by simpa using hid⟩
    have hsettles : s.Settles (defaultSettings env.toContentEnv 0 viewerId) :=
      settles_of_fresh hstored fun r hr => (hfresh.unused r hr).1
    exact denies_of_opens hfresh hsettles hd (.inr hpublic)
      (h.weeklyDigest user huser hid sent guide.id hdigest hguideId)

theorem consistent_of_owners (h : UnaskedOwnersAdmit env.toContentEnv viewerId s) :
    DiariesAreConsistent env viewerId s where
  search query listing hlisting view hview := opens_of_admitted hfresh
    ((keeps_searchPublicDiaries s env query).result (SameContent.refl s) hlisting view hview)
  homeGuides limit listing hlisting view hview := opens_of_admitted hfresh
    ((keeps_listHomeEditorGuides s limit).result (SameContent.refl s) hlisting view hview)
  userDiaries userId listing hlisting view hview := opens_of_admitted hfresh
    ((keeps_listUserDiaries s).result (SameContent.refl s) hlisting view hview)
  placePage := by
    intro placeId context hcontext appearance happearance
    obtain ⟨hshown, hsame⟩ :=
      (keeps_diaryAppearances s placeId).result (SameContent.refl s) hcontext
    rw [hsame, hshown, List.mem_append, or_self] at happearance
    obtain ⟨row, hrow, rfl⟩ := List.mem_map.mp happearance
    obtain ⟨hd, hid, hopen⟩ := mem_diaryRowsOf hrow
    have hsettles : s.Settles (defaultSettings env.toContentEnv 0 viewerId) := by
      apply settles_of_ensured
      cases hr : ((ensureUserSettings env.toContentEnv 0 viewerId).run s).result with
      | ok a => rfl
      | error e =>
          unfold getPlaceSocialContext at hcontext
          rw [run_bind_error hr] at hcontext
          cases hcontext
    have hdiary := opens_of_public hfresh hd hopen (h.placePage hsettles placeId row hrow)
    rw [hid] at hdiary
    exact hdiary
  weeklyDigest := by
    intro user huser hid digest guideId hdigest hguide
    obtain ⟨found, hfound, hnamed, -⟩ := run_weeklyDigest env.now s user
    rw [hfound] at hdigest
    have hsent := hnamed digest (Except.ok.inj hdigest)
    rw [hguide] at hsent
    obtain ⟨guide, hread, rfl⟩ := Option.map_eq_some_iff.mp hsent.symm
    obtain ⟨hd, hpublic⟩ := weeklyGuide_read hread
    exact opens_of_public hfresh hd (.inr hpublic) (h.weeklyDigest user huser hid guide hread)

end law

/-- The listings agree with `getDiary` exactly where the owners that two of them
do not ask let the viewer in. -/
theorem diaries_consistent_iff {env : DiaryEnv} (hfresh : FreshSettings env.toContentEnv s) :
    DiariesAreConsistent env viewerId s ↔ UnaskedOwnersAdmit env.toContentEnv viewerId s :=
  ⟨owners_of_consistent hfresh, consistent_of_owners hfresh⟩

/-! ### A public diary of a private owner -/

/-- Texts in lower case. -/
def aDiaryEnv : DiaryEnv :=
  { aContentEnv with
    settingsId := fun k => if k = 0 then "s8" else "s9"
    containsInsensitive := includesText
    toLocaleLowerCase := fun text => text }

def betosGuide : Diary where
  id := "d1"
  name := "bares"
  createdById := "beto"
  visibility := .«public»
  publishedAt := some 0
  createdAt := 0

/-- Beto, an editor, has a public diary with one bar; ana does not follow him. -/
def betoHasADiary (diaryVisibility : ContentVisibility) : ContentDb where
  toSocialDb := SocialDb.ofUsers anaAndBeto
    ⟨[{ id := "s1", userId := "ana" }, { id := "s2", userId := "beto", diaryVisibility }], by
      cases diaryVisibility <;> decide⟩
    .empty .empty (.singleton aBar)
  tastePreferenceIds _ := []
  isEditor id := id == "beto"
  placeColumns _ := {}
  visits := .empty
  saves := .empty
  diaries := ⟨[betosGuide], by decide⟩
  diaryPlaces := ⟨[{ id := "e1", diaryId := "d1", placeId := "p1", createdAt := 0 }], by decide⟩
  user_id := by
    intro u hu
    have hids : u.id ∈ ["ana", "beto"] := List.mem_map_of_mem (f := User.id) hu
    intro hempty
    rw [hempty] at hids
    simp at hids
  place_source := by
    intro p hp q hq _ _ _
    rw [List.mem_singleton.mp hp, List.mem_singleton.mp hq]
  visit_place := by simp
  visit_user := by simp
  save_user := by simp
  diary_creator := by
    intro d hd
    rw [List.mem_singleton.mp hd]
    exact ⟨_, List.mem_cons_of_mem _ List.mem_cons_self, rfl⟩
  entry_diary := by
    intro e he
    rw [List.mem_singleton.mp he]
    exact ⟨_, List.mem_cons_self, rfl⟩

theorem freshSettings_betoHasADiary (diaryVisibility : ContentVisibility) :
    FreshSettings aDiaryEnv.toContentEnv (betoHasADiary diaryVisibility) where
  distinct := by decide
  unused := by cases diaryVisibility <;> decide

/-- With public diaries, all of beto's listings open. -/
theorem public_owner_is_consistent :
    DiariesAreConsistent aDiaryEnv "ana" (betoHasADiary .«public») := by
  have hbeto : ∀ d ∈ (betoHasADiary .«public»).diaries.rows,
      (betoHasADiary .«public»).deniesDiaries "ana" d.createdById = false := by decide
  apply (diaries_consistent_iff (freshSettings_betoHasADiary .«public»)).mpr
  constructor
  · intro _ placeId row hrow
    exact hbeto row.diary (mem_diaryRowsOf hrow).1
  · intro user _ _ guide hguide
    exact hbeto guide.toDiary (weeklyGuide_read hguide).1

/-- The page of the bar names a diary that `getDiary` denies. -/
theorem private_owner_is_surfaced :
    ¬ DiariesAreConsistent aDiaryEnv "ana" (betoHasADiary .«private») := by
  intro hconsistent
  have hsettles : (betoHasADiary .«private»).Settles
      (defaultSettings aDiaryEnv.toContentEnv 0 "ana") := ⟨_, rfl⟩
  have howners := (owners_of_consistent (freshSettings_betoHasADiary _) hconsistent).placePage
    hsettles "p1"
  have hdenied : ∃ row ∈ (betoHasADiary .«private»).diaryRowsOf "ana" "p1",
      (betoHasADiary .«private»).deniesDiaries "ana" row.diary.createdById = true := by decide
  obtain ⟨row, hrow, hdenied⟩ := hdenied
  rw [howners row hrow] at hdenied
  cases hdenied

end Feca.Content
