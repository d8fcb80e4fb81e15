import Feca.Concurrency.Invariant
import Feca.Content.Ranking

/-! # Settings on demand

A request makes sure that the users it is about have settings. A row created so
holds the defaults, which is what its absence meant: the content a viewer may
see stays the same.
-/

namespace Feca.Content

open Concurrency Concurrency.Prog Relational Social

def defaultSettings (env : ContentEnv) (k : Nat) (userId : Id) : UserSettings where
  id := env.settingsId k
  userId := userId

/-- `userSettings.upsert` with an empty update. -/
def ensureUserSettings (env : ContentEnv) (k : Nat) (userId : Id) : ContentProg Unit :=
  stmt fun s =>
    match s.upsertSettings (defaultSettings env k userId) with
    | .ok t => ⟨t, [], .ok ()⟩
    | .error e => ⟨s, [], .error (.database e)⟩

/-- The loop of `ensureUserSettingsForUsers`. -/
def ensureEach (env : ContentEnv) : Nat → List Id → ContentProg Unit
  | _, [] => pure ()
  | k, userId :: rest => do
      ensureUserSettings env k userId
      ensureEach env (k + 1) rest

def ensureUserSettingsForUsers (env : ContentEnv) (userIds : List Id) : ContentProg Unit :=
  ensureEach env 0 (distinctIds (userIds.filter (· != "")))

/-! ## One user -/

/-- The store behind a request, its viewer's settings ensured. -/
def ContentDb.withSettings (s : ContentDb) (row : UserSettings) : ContentDb :=
  (s.upsertSettings row).toOption.getD s

/-- The user has settings, or gets a row. -/
def ContentDb.Settles (s : ContentDb) (row : UserSettings) : Prop :=
  ∃ t, s.upsertSettings row = .ok t

variable {env : ContentEnv} {userId : Id} {k : Nat} {s t : ContentDb}

theorem run_ensureUserSettings (h : s.Settles (defaultSettings env k userId)) :
    (ensureUserSettings env k userId).run s =
      ⟨s.withSettings (defaultSettings env k userId), [], .ok ()⟩ := by
  obtain ⟨t, ht⟩ := h
  rw [ensureUserSettings, run_stmt, ht, ContentDb.withSettings, ht]
  rfl

theorem settles_of_ensured (h : ((ensureUserSettings env k userId).run s).result = .ok ()) :
    s.Settles (defaultSettings env k userId) := by
  rw [ensureUserSettings, run_stmt] at h
  cases ht : s.upsertSettings (defaultSettings env k userId) with
  | ok t => exact ⟨t, ht⟩
  | error e =>
      rw [ht] at h
      cases h

/-- The viewer is stored, and a generated id is new. -/
structure KnownViewer (env : ContentEnv) (userId : Id) (s : ContentDb) : Prop where
  stored : s.hasUser userId = true
  fresh : ∀ r ∈ s.settings.rows, r.id ≠ env.settingsId 0

/-- A stored user can always be given a row with a new id. -/
theorem settles_of_fresh (hstored : s.hasUser userId = true)
    (hfresh : ∀ r ∈ s.settings.rows, r.id ≠ env.settingsId k) :
    s.Settles (defaultSettings env k userId) := by
  have hsocial : ∃ t, s.toSocialDb.upsertSettings (defaultSettings env k userId) = .ok t := by
    unfold SocialDb.upsertSettings
    by_cases hrow : s.settings.rows.any (·.userId == (defaultSettings env k userId).userId) = true
    · exact ⟨_, if_pos hrow⟩
    · have huser : s.hasUser (defaultSettings env k userId).userId = true := hstored
      rw [if_neg hrow, if_pos huser]
      cases hinsert : s.settings.insert (defaultSettings env k userId) with
      | some settings => exact ⟨_, rfl⟩
      | none =>
          obtain ⟨r, hr, hclash⟩ := Table.insert_eq_none hinsert
          have hid := hfresh r hr
          have huser : r.userId ≠ userId := by
            intro huser
            exact hrow (List.any_eq_true.mpr ⟨r, hr, by simp [huser, defaultSettings]⟩)
          simp [conflicts, defaultSettings, hid, huser] at hclash
  obtain ⟨t, ht⟩ := hsocial
  unfold ContentDb.Settles ContentDb.upsertSettings
  split
  · rename_i e he
    rw [ht] at he
    cases he
  · exact ⟨_, rfl⟩

theorem KnownViewer.settles (h : KnownViewer env userId s) :
    s.Settles (defaultSettings env 0 userId) := settles_of_fresh h.stored h.fresh

/-- An upsert adds its row, if any. -/
theorem settings_of_upsert {row : UserSettings} (h : s.upsertSettings row = .ok t) :
    t.settings.rows = s.settings.rows ∨ t.settings.rows = s.settings.rows ++ [row] := by
  unfold ContentDb.upsertSettings at h
  split at h
  · cases h
  · rename_i u hu
    have hsettings := (SocialDb.upsertSettings_ok hu).2.2.2.2
    cases h
    exact hsettings.imp_right And.left

/-! ## What stays the same -/

/-- Two stores that differ in settings rows alone, and not in what these say. -/
structure SameContent (s t : ContentDb) : Prop where
  rows : ∃ settings, t.toSocialDb = { s.toSocialDb with settings }
  users : t.tastePreferenceIds = s.tastePreferenceIds ∧ t.isEditor = s.isEditor
  placeColumns : t.placeColumns = s.placeColumns
  visits : t.visits = s.visits
  saves : t.saves = s.saves
  diaries : t.diaries = s.diaries
  diaryPlaces : t.diaryPlaces = s.diaryPlaces
  curations : t.curations = s.curations
  settings : ∀ userId, normalizeSettings (t.settingsOf userId) =
    normalizeSettings (s.settingsOf userId)

theorem SameContent.refl (s : ContentDb) : SameContent s s :=
  ⟨⟨s.settings, rfl⟩, ⟨rfl, rfl⟩, rfl, rfl, rfl, rfl, rfl, rfl, fun _ => rfl⟩

theorem SameContent.trans {u : ContentDb} (hst : SameContent s t) (htu : SameContent t u) :
    SameContent s u := by
  obtain ⟨settings, ht⟩ := hst.rows
  obtain ⟨settings', hu⟩ := htu.rows
  exact
    { rows := ⟨settings', by rw [hu, ht]⟩
      users := ⟨htu.users.1.trans hst.users.1, htu.users.2.trans hst.users.2⟩
      placeColumns := htu.placeColumns.trans hst.placeColumns
      visits := htu.visits.trans hst.visits
      saves := htu.saves.trans hst.saves
      diaries := htu.diaries.trans hst.diaries
      diaryPlaces := htu.diaryPlaces.trans hst.diaryPlaces
      curations := htu.curations.trans hst.curations
      settings := fun userId => (htu.settings userId).trans (hst.settings userId) }

/-- A row created on the way says what its absence said. -/
theorem sameContent_of_upsert (h : s.upsertSettings (defaultSettings env k userId) = .ok t) :
    SameContent s t := by
  unfold ContentDb.upsertSettings at h
  split at h
  · cases h
  · rename_i u hu
    have hsettings := (SocialDb.upsertSettings_ok hu).2.2.2.2
    cases h
    refine ⟨⟨u.settings, upsertSettings_eq hu⟩, ⟨rfl, rfl⟩, rfl, rfl, rfl, rfl, rfl, rfl, ?_⟩
    intro other
    unfold SocialDb.settingsOf
    rcases hsettings with hsame | ⟨hnew, -⟩
    · rw [hsame]
    · rw [hnew, List.find?_append]
      cases hfind : s.settings.rows.find? (·.userId == other) with
      | some row => rfl
      | none =>
          rw [Option.none_or, List.find?_singleton]
          split
          · rfl
          · rfl

theorem sameContent_withSettings (h : s.Settles (defaultSettings env k userId)) :
    SameContent s (s.withSettings (defaultSettings env k userId)) := by
  obtain ⟨t, ht⟩ := h
  have hsame := sameContent_of_upsert ht
  rwa [ContentDb.withSettings, ht]

/-- Ensuring settings keeps the content as it is. -/
theorem keeps_ensureUserSettings (s₀ : ContentDb) :
    (ensureUserSettings env k userId).Keeps (SameContent s₀) fun _ => True := by
  apply keeps_stmt
  · intro s hs
    cases ht : s.upsertSettings (defaultSettings env k userId) with
    | ok t => exact hs.trans (sameContent_of_upsert ht)
    | error e => exact hs
  · exact fun _ _ _ _ => trivial

theorem keeps_ensureEach (s₀ : ContentDb) (userIds : List Id) :
    (ensureEach env k userIds).Keeps (SameContent s₀) fun _ => True := by
  induction userIds generalizing k with
  | nil => exact keeps_pure trivial
  | cons userId rest ih => exact keeps_bind (keeps_ensureUserSettings s₀) fun _ _ => ih

namespace SameContent

variable (h : SameContent s t)

include h

theorem users_eq : t.users = s.users := by
  obtain ⟨settings, ht⟩ := h.rows
  rw [ht]

theorem follows_eq : t.follows = s.follows := by
  obtain ⟨settings, ht⟩ := h.rows
  rw [ht]

theorem places_eq : t.places = s.places := by
  obtain ⟨settings, ht⟩ := h.rows
  rw [ht]

theorem followedIds (userId : Id) : t.followedIds userId = s.followedIds userId := by
  unfold SocialDb.followedIds
  rw [h.follows_eq]

theorem isFollowing (follower followed : Id) :
    t.isFollowing follower followed = s.isFollowing follower followed := by
  unfold SocialDb.isFollowing
  rw [h.follows_eq]

theorem relationshipMaps (viewerId : Id) (userIds : List Id) :
    t.relationshipMaps viewerId userIds = s.relationshipMaps viewerId userIds := by
  unfold SocialDb.relationshipMaps
  rw [h.follows_eq]

theorem findPlaceRow (id : Id) : t.findPlaceRow id = s.findPlaceRow id := by
  unfold ContentDb.findPlaceRow ContentDb.placeRow
  rw [h.places_eq, h.placeColumns]

end SameContent

end Feca.Content
