import Feca.Content.Diaries
import Feca.Content.Visibility

/-! # Who sees which diaries

`getDiary` is the authority: a diary opens for its owner, and for those whom
both the diary and the settings of its owner let in. The listings decide again,
each by its own query.
-/

namespace Feca.Content

open Concurrency Concurrency.Prog Relational Social

/-- Generated ids of settings rows are new. -/
structure FreshSettings (env : ContentEnv) (s : ContentDb) : Prop where
  distinct : env.settingsId 0 ≠ env.settingsId 1
  unused : ∀ r ∈ s.settings.rows, r.id ≠ env.settingsId 0 ∧ r.id ≠ env.settingsId 1

variable {env : ContentEnv} {viewerId ownerId : Id} {s t : ContentDb} {diary : DiaryWithRelations}

/-! ## Reading the owner -/

theorem ensured_pair (hfresh : FreshSettings env s)
    (hviewer : s.Settles (defaultSettings env 0 viewerId)) (howner : s.hasUser ownerId = true)
    (hne : viewerId ≠ ownerId) :
    ((ensureUserSettingsForUsers env [viewerId, ownerId]).run s).result = .ok () := by
  have hstored : ownerId ≠ "" := by
    obtain ⟨u, hu, hid⟩ := SocialDb.exists_of_hasUser howner
    exact hid ▸ s.user_id u hu
  have howners : (ownerId != "") = true := bne_iff_ne.mpr hstored
  unfold ensureUserSettingsForUsers
  by_cases hempty : viewerId = ""
  · have hids : distinctIds ([viewerId, ownerId].filter (· != "")) = [ownerId] := by
      simp [hempty, distinctIds, howners]
    have hsettles : s.Settles (defaultSettings env 0 ownerId) :=
      settles_of_fresh howner fun r hr => (hfresh.unused r hr).1
    rw [hids, ensureEach, run_bind_ok (by rw [run_ensureUserSettings hsettles])]
    rfl
  · have hviewers : (viewerId != "") = true := bne_iff_ne.mpr hempty
    have hids : distinctIds ([viewerId, ownerId].filter (· != "")) = [viewerId, ownerId] := by
      simp [distinctIds, hviewers, howners, Ne.symm hne]
    have hsame := sameContent_withSettings hviewer
    have hthere : (s.withSettings (defaultSettings env 0 viewerId)).hasUser ownerId = true := by
      rw [SocialDb.hasUser, hsame.users_eq]
      exact howner
    have hnew : ∀ r ∈ (s.withSettings (defaultSettings env 0 viewerId)).settings.rows,
        r.id ≠ env.settingsId 1 := by
      obtain ⟨t, ht⟩ := hviewer
      rw [ContentDb.withSettings, ht]
      intro r hr
      rcases settings_of_upsert ht with hrows | hrows
      · exact (hfresh.unused r (hrows ▸ hr)).2
      · have hr' : r ∈ s.settings.rows ++ [defaultSettings env 0 viewerId] := hrows ▸ hr
        rcases List.mem_append.mp hr' with hold | hadded
        · exact (hfresh.unused r hold).2
        · rw [List.mem_singleton.mp hadded]
          exact hfresh.distinct
    have hsettles := settles_of_fresh (k := 1) hthere hnew
    rw [hids, ensureEach, run_bind_ok (by rw [run_ensureUserSettings hviewer]),
      run_ensureUserSettings hviewer]
    dsimp only
    rw [ensureEach, run_bind_ok (by rw [run_ensureUserSettings hsettles])]
    rfl

/-- Once the settings are there, the profile of a stored user is read. -/
theorem profile_of_ensured
    (h : ((ensureUserSettingsForUsers env [viewerId, ownerId]).run s).result = .ok ())
    (howner : s.hasUser ownerId = true) :
    ∃ profile, ((findUserByIdWithContext env viewerId ownerId).run s).result =
      .ok (some profile) := by
  have hsame : SameContent s ((ensureUserSettingsForUsers env [viewerId, ownerId]).run s).store :=
    (keeps_ensureEach s _).store (SameContent.refl s)
  unfold findUserByIdWithContext
  rw [run_bind_ok h, run_bind_ok (by rw [run_query]), run_query]
  have hfound : (((ensureUserSettingsForUsers env [viewerId, ownerId]).run s).store.findUserRow
      ownerId).isSome := by
    apply ContentDb.findUserRow_isSome
    rw [hsame.users_eq]
    exact SocialDb.exists_of_hasUser howner
  obtain ⟨user, huser⟩ := Option.isSome_iff_exists.mp hfound
  rw [huser]
  exact ⟨_, rfl⟩

/-- Reading a profile fails where the database does. -/
theorem throws_findUserByIdWithContext :
    (findUserByIdWithContext env viewerId ownerId).Throws fun e =>
      ∃ thrown, e = .database thrown := by
  have hensure : ∀ (k : Nat) (ids : List Id), (ensureEach env k ids).Throws fun e =>
      ∃ thrown, e = .database thrown := by
    intro k ids
    induction ids generalizing k with
    | nil => exact throws_pure _
    | cons userId rest ih =>
        refine throws_bind (throws_stmt ?_) fun _ => ih (k + 1)
        intro s e he
        split at he
        · cases he
        · cases he
          exact ⟨_, rfl⟩
  have hstats : ∀ userId : Id, (getProfileStats userId).Throws fun e : Failure =>
      ∃ thrown, e = .database thrown := by
    intro userId
    unfold getProfileStats
    exact throws_bind (throws_query _) fun _ => throws_bind (throws_query _) fun _ =>
      throws_bind (throws_query _) fun _ => throws_bind (throws_query _) fun _ => throws_pure _
  unfold findUserByIdWithContext
  apply throws_bind (hensure 0 _)
  intro _
  apply throws_bind (throws_query _)
  intro found
  split
  · exact throws_pure _
  · apply throws_bind (hstats _)
    intro stats
    apply throws_bind (throws_bind (throws_query _) fun _ => throws_pure _)
    exact fun _ => throws_pure _

/-! ## The authority -/

/-- A stored diary, read with its owner. -/
theorem diary_read (hs : SameContent s t) {p : DiaryWithRelations → Bool}
    (h : diary ∈ t.findDiaries p) : diary.toDiary ∈ s.diaries.rows ∧ p diary = true ∧
      diary.createdBy.id = diary.createdById ∧
        diary.createdBy.settings = t.settingsOf diary.createdById := by
  rw [ContentDb.findDiaries, List.mem_insertionSort, List.mem_filter] at h
  obtain ⟨d, hd, hread⟩ := List.mem_filterMap.mp h.1
  obtain ⟨user, huser, rfl⟩ := Option.map_eq_some_iff.mp hread
  obtain ⟨-, hid, hsettings⟩ := ContentDb.findUserRow_some huser
  exact ⟨hs.diaries ▸ hd, h.2, hid, hsettings⟩

theorem findDiaryById_of_mem {d : Diary} (h : d ∈ s.diaries.rows) :
    ∃ diary, s.findDiaryById d.id = some diary ∧ diary.toDiary = d := by
  have hfind : s.diaries.rows.find? (·.id == d.id) = some d := by
    cases hd : s.diaries.rows.find? (·.id == d.id) with
    | none => simpa using List.find?_eq_none.mp hd d h
    | some x =>
        have hid : x.id = d.id := by simpa using List.find?_some hd
        have hsame : x = d := Table.eq_of_conflicts (List.mem_of_find?_eq_some hd) h (by
          simp [conflicts, hid])
        rw [hsame]
  have howner := ContentDb.findUserRow_isSome (s.diary_creator d h)
  obtain ⟨user, huser⟩ := Option.isSome_iff_exists.mp howner
  refine ⟨{ d with createdBy := user, places := s.entriesOf d.id }, ?_, rfl⟩
  rw [ContentDb.findDiaryById, hfind, Option.bind_some, ContentDb.diaryWithRelations, huser]
  rfl

/-- `getDiary` does not deny the viewer the diary; a stored viewer gets it. -/
structure Opens (env : ContentEnv) (s : ContentDb) (viewerId diaryId : Id) : Prop where
  notDenied : ∀ e, ((getDiary env viewerId diaryId).run s).result ≠ .error (.http e)
  returned : s.hasUser viewerId = true →
    ∃ view, ((getDiary env viewerId diaryId).run s).result = .ok view ∧ view.id = diaryId

/-- The owner's settings and the diary itself let the viewer in. -/
def Admits (s : ContentDb) (viewerId : Id) (d : Diary) : Prop :=
  viewerId = d.createdById ∨
    (d.visibility ≠ .«private» ∧ s.deniesDiaries viewerId d.createdById = false)

theorem run_getDiary {d : Diary} (hd : d ∈ s.diaries.rows) : ∃ diary, diary.toDiary = d ∧
    (getDiary env viewerId d.id).run s = (answerDiary env viewerId diary).run s := by
  obtain ⟨diary, hfind, hrow⟩ := findDiaryById_of_mem hd
  refine ⟨diary, hrow, ?_⟩
  unfold getDiary
  rw [run_bind_ok (by rw [run_query]), run_query, hfind]
  rfl

theorem canViewDiary_of_open {d : Diary} (h : d.visibility ≠ .«private») :
    canViewDiary viewerId d true = true := by
  unfold canViewDiary
  cases hvisibility : d.visibility with
  | «private» => exact absurd hvisibility h
  | unlisted => simp
  | «public» => simp

/-- The owner of a diary is stored. -/
theorem owner_stored {d : Diary} (hd : d ∈ s.diaries.rows) : s.hasUser d.createdById = true := by
  obtain ⟨u, hu, hid⟩ := s.diary_creator d hd
  exact List.any_eq_true.mpr ⟨u, hu, by simpa using hid⟩

/-- A profile that is read is that of a stored user, and grants what the settings
of that user do not deny. -/
theorem grants_of_profile {profile : UserContext}
    (h : ((findUserByIdWithContext env viewerId ownerId).run s).result = .ok (some profile)) :
    Grants s viewerId ownerId profile :=
  (keeps_findUserByIdWithContext s).result (SameContent.refl s) h profile rfl

theorem found_of_profile {found : Option UserContext} (howner : s.hasUser ownerId = true)
    (h : ((findUserByIdWithContext env viewerId ownerId).run s).result = .ok found) :
    ∃ profile, found = some profile := by
  have hensured : ((ensureUserSettingsForUsers env [viewerId, ownerId]).run s).result = .ok () := by
    cases hr : ((ensureUserSettingsForUsers env [viewerId, ownerId]).run s).result with
    | ok a => rfl
    | error e =>
        unfold findUserByIdWithContext at h
        rw [run_bind_error hr] at h
        cases h
  obtain ⟨profile, hprofile⟩ := profile_of_ensured hensured howner
  rw [hprofile] at h
  exact ⟨profile, (Except.ok.inj h).symm⟩

/-- A diary whose owner lets the viewer in opens. -/
theorem opens_of_admits (hfresh : FreshSettings env s) {d : Diary} (hd : d ∈ s.diaries.rows)
    (h : Admits s viewerId d) : Opens env s viewerId d.id := by
  have hrun : ∃ diary, diary.toDiary = d ∧
      (getDiary env viewerId d.id).run s = (answerDiary env viewerId diary).run s := run_getDiary hd
  obtain ⟨diary, rfl, hrun⟩ := hrun
  have howner := owner_stored hd
  by_cases hself : viewerId = diary.createdById
  · have hanswer : answerDiary env viewerId diary = pure (serializeDiary env diary) := by
      have hcan : canViewDiary viewerId diary.toDiary true = true := by
        simp [canViewDiary, hself]
      unfold answerDiary
      rw [hcan, if_neg (by decide), if_pos hself]
    rw [hanswer] at hrun
    constructor
    · intro e he
      rw [hrun] at he
      cases he
    · intro _
      rw [hrun]
      exact ⟨_, rfl, rfl⟩
  · obtain ⟨hopen, hallowed⟩ := h.resolve_left hself
    have hanswer : answerDiary env viewerId diary =
        findUserByIdWithContext env viewerId diary.createdById >>= fun owner =>
          if owner.any (·.permissions.canViewDiaries) then pure (serializeDiary env diary)
          else .fail (.http (NotFoundException "Diary not found")) := by
      unfold answerDiary
      rw [canViewDiary_of_open hopen, if_neg (by decide), if_neg hself]
    rw [hanswer] at hrun
    have hread : ∀ found, ((findUserByIdWithContext env viewerId diary.createdById).run s).result =
        .ok found → ((getDiary env viewerId diary.id).run s).result =
          .ok (serializeDiary env diary) := by
      intro found hfound
      obtain ⟨profile, rfl⟩ := found_of_profile howner hfound
      have hdiaries := (grants_of_profile hfound).diaries
      rw [hallowed] at hdiaries
      rw [hrun, run_bind_ok hfound, Option.any_some, hdiaries]
      rfl
    constructor
    · intro e he
      cases hr : ((findUserByIdWithContext env viewerId diary.createdById).run s).result with
      | ok found =>
          rw [hread found hr] at he
          cases he
      | error failure =>
          obtain ⟨thrown, rfl⟩ := throws_findUserByIdWithContext.result hr
          rw [hrun, run_bind_error hr] at he
          cases he
    · intro hstored
      have hviewer : s.Settles (defaultSettings env 0 viewerId) :=
        settles_of_fresh hstored fun r hr => (hfresh.unused r hr).1
      obtain ⟨profile, hprofile⟩ := profile_of_ensured
        (ensured_pair hfresh hviewer howner hself) howner
      exact ⟨_, hread _ hprofile, rfl⟩

/-- Where the settings of the owner say no, `getDiary` denies a public diary. -/
theorem denies_of_opens (hfresh : FreshSettings env s)
    (hviewer : s.Settles (defaultSettings env 0 viewerId)) {d : Diary} (hd : d ∈ s.diaries.rows)
    (hopen : viewerId = d.createdById ∨ d.visibility = .«public»)
    (h : Opens env s viewerId d.id) : s.deniesDiaries viewerId d.createdById = false := by
  have hrun : ∃ diary, diary.toDiary = d ∧
      (getDiary env viewerId d.id).run s = (answerDiary env viewerId diary).run s := run_getDiary hd
  obtain ⟨diary, rfl, hrun⟩ := hrun
  have howner := owner_stored hd
  by_cases hself : viewerId = diary.createdById
  · unfold ContentDb.deniesDiaries
    rw [hself, bne_self_eq_false, Bool.false_and]
  · have hpublic := hopen.resolve_left hself
    obtain ⟨profile, hprofile⟩ := profile_of_ensured
      (ensured_pair hfresh hviewer howner hself) howner
    have hdiaries := (grants_of_profile hprofile).diaries
    by_contra hdenied
    have hcan : canViewDiary viewerId diary.toDiary true = true :=
      canViewDiary_of_open (by rw [hpublic]; decide)
    rw [Bool.not_eq_false] at hdenied
    rw [hdenied] at hdiaries
    apply h.notDenied (NotFoundException "Diary not found")
    unfold answerDiary at hrun
    rw [hcan, if_neg (by decide), if_neg hself] at hrun
    rw [hrun, run_bind_ok hprofile, Option.any_some, hdiaries]
    rfl

end Feca.Content
