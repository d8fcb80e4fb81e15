import Feca.Auth.Google

/-! # Generated usernames

A new user gets a username made of the e-mail or the name, with a number behind
it where it is taken. Users may change theirs later, within a grammar that the
generated ones need not fit.
-/

namespace Feca.Auth

/-- The turns of the `while (true)` from the candidate of an index on, as far as
they go. -/
def searchUsername (env : GoogleEnv) (s : AccountDb) (base : String) : Nat → Nat → Option String
  | 0, _ => none
  | turns + 1, index =>
      match s.findUserByUsername (candidate env base index) with
      | none => some (candidate env base index)
      | some _ => searchUsername env s base turns (index + 1)

def isUsernameChar (c : Char) : Bool := c.isLower || c.isDigit || c == '-'

/-- `@MinLength(3)`, `@MaxLength(30)` and `@Matches(/^[a-z0-9-]+$/)` of `UpdateMeDto.username`. -/
structure FitsUpdateMeDto (username : String) : Prop where
  minLength : 3 ≤ username.length
  maxLength : username.length ≤ 30
  matchesGrammar : ∀ c ∈ username.toList, isUsernameChar c = true

/-- The search ends, with a name that is free and fits. -/
structure ValidAndFree (env : GoogleEnv) (s : AccountDb) (profile : GoogleIdentityProfile)
    (username : String) : Prop where
  returned : ∃ turns, ∀ more, turns ≤ more →
    searchUsername env s (usernameBase env profile) more 0 = some username
  free : s.findUserByUsername username = none
  fits : FitsUpdateMeDto username

/-! ## The first free candidate -/

variable {env : GoogleEnv} {s : AccountDb} {profile : GoogleIdentityProfile} {base : String}

theorem generateUniqueUsername_first (env : GoogleEnv) (s : AccountDb)
    (profile : GoogleIdentityProfile) :
    ∃ index, generateUniqueUsername env s profile = candidate env (usernameBase env profile) index ∧
      s.findUserByUsername (candidate env (usernameBase env profile) index) = none ∧
      ∀ earlier < index,
        s.findUserByUsername (candidate env (usernameBase env profile) earlier) ≠ none := by
  have hfound : ((List.range (s.users.rows.length + 3)).map
      (candidate env (usernameBase env profile))).find?
        (fun name => (s.findUserByUsername name).isNone) =
      some (generateUniqueUsername env s profile) := (Option.some_get _).symm
  rw [List.find?_map] at hfound
  obtain ⟨index, hindex, hname⟩ := Option.map_eq_some_iff.mp hfound
  obtain ⟨hfree, -, hearlier⟩ := List.find?_range_eq_some.mp hindex
  refine ⟨index, hname.symm, Option.isNone_iff_eq_none.mp hfree, fun earlier hlt htaken => ?_⟩
  have hnone := hearlier earlier hlt
  simp [htaken] at hnone

theorem searchUsername_from {index start : Nat} (hstart : start ≤ index)
    (hfree : s.findUserByUsername (candidate env base index) = none)
    (hearlier : ∀ earlier < index, s.findUserByUsername (candidate env base earlier) ≠ none)
    {turns : Nat} (hturns : index < start + turns) :
    searchUsername env s base turns start = some (candidate env base index) := by
  induction turns generalizing start with
  | zero => omega
  | succ turns ih =>
    rw [searchUsername]
    by_cases hlast : start = index
    · rw [hlast, hfree]
    · obtain ⟨user, huser⟩ := Option.ne_none_iff_exists'.mp (hearlier start (by omega))
      rw [huser]
      exact ih (by omega) (by omega)

/-! ## The letters of a candidate -/

theorem isUsernameChar_dashed (inRun : Bool) (text : List Char) :
    ∀ c ∈ dashed inRun text, isUsernameChar c = true := by
  induction text generalizing inRun with
  | nil => exact nofun
  | cons d text ih =>
    rw [dashed]
    split
    · rename_i hd
      intro c hc
      rcases List.mem_cons.mp hc with rfl | hc
      · rw [isUsernameChar, hd, Bool.true_or]
      · exact ih false c hc
    · split
      · exact ih true
      · intro c hc
        rcases List.mem_cons.mp hc with rfl | hc
        · decide
        · exact ih true c hc

theorem mem_of_mem_undashed {text : List Char} {c : Char} (h : c ∈ undashed text) : c ∈ text := by
  rw [undashed, List.mem_reverse] at h
  have hdropped := (List.dropWhile_sublist _).subset h
  exact (List.dropWhile_sublist _).subset (List.mem_reverse.mp hdropped)

theorem isUsernameChar_sanitizeUsername (env : GoogleEnv) (value : String) :
    ∀ c ∈ (sanitizeUsername env value).toList, isUsernameChar c = true := by
  unfold sanitizeUsername orNull
  dsimp only
  split
  · exact List.all_eq_true.mp (by decide)
  · intro c hc
    rw [Option.getD_some, String.toList_ofList] at hc
    exact isUsernameChar_dashed _ _ c (mem_of_mem_undashed hc)

theorem sanitizeUsername_ne_empty (env : GoogleEnv) (value : String) :
    sanitizeUsername env value ≠ "" := by
  unfold sanitizeUsername orNull
  dsimp only
  split
  · decide
  · rename_i hne
    exact hne

theorem isUsernameChar_repr (n : Nat) : ∀ c ∈ n.repr.toList, isUsernameChar c = true := by
  intro c hc
  rw [Nat.toList_repr] at hc
  rw [isUsernameChar, Nat.isDigit_of_mem_toDigits (by decide) (by decide) hc, Bool.or_true,
    Bool.true_or]

theorem isUsernameChar_candidate (hbase : ∀ c ∈ base.toList, isUsernameChar c = true)
    (index : Nat) : ∀ c ∈ (candidate env base index).toList, isUsernameChar c = true := by
  have hnumbered : ∀ n : Nat, ∀ c ∈ (base ++ n.repr).toList, isUsernameChar c = true := by
    intro n c hc
    rw [String.toList_append, List.mem_append] at hc
    exact hc.elim (hbase c) (isUsernameChar_repr n c)
  match index with
  | 0 => exact hbase
  | 1 => exact hnumbered _
  | index + 2 => exact hnumbered _

/-! ## Which candidates fit -/

/-- Nobody has the name. -/
def IsFree (s : AccountDb) (username : String) : Prop := s.findUserByUsername username = none

instance (s : AccountDb) (username : String) : Decidable (IsFree s username) :=
  inferInstanceAs (Decidable (_ = none))

/-- The base is neither too short nor too long for the number it needs: none where
it is free, else two digits where the random ones are free with it, else a number
that is free before the name is full. A base of one letter needs two digits. -/
structure LeavesRoom (env : GoogleEnv) (s : AccountDb) (base : String) : Prop where
  alone : IsFree s base → 3 ≤ base.length ∧ base.length ≤ 30
  random : ¬ IsFree s base → IsFree s (base ++ env.randomInt.repr) → base.length ≤ 28
  counted : ¬ IsFree s base → ¬ IsFree s (base ++ env.randomInt.repr) →
    (∃ n, 2 ≤ n ∧ n < 10 ^ (30 - base.length) ∧ IsFree s (base ++ n.repr)) ∧
      (base.length = 1 → ∀ n, 2 ≤ n → n ≤ 9 → ¬ IsFree s (base ++ n.repr))

theorem fitsUpdateMeDto_iff (hbase : ∀ c ∈ base.toList, isUsernameChar c = true) (index : Nat) :
    FitsUpdateMeDto (candidate env base index) ↔
      3 ≤ (candidate env base index).length ∧ (candidate env base index).length ≤ 30 := by
  constructor
  · exact fun h => ⟨h.minLength, h.maxLength⟩
  · exact fun h => ⟨h.1, h.2, isUsernameChar_candidate hbase index⟩

theorem length_repr_of_two_digits {n : Nat} (h10 : 10 ≤ n) (h100 : n < 100) : n.repr.length = 2 := by
  have hle : n.repr.length ≤ 2 := (Nat.length_repr_le_iff (by decide)).mpr (by omega)
  have hgt : ¬ n.repr.length ≤ 1 := fun h => by
    have hlt := (Nat.length_repr_le_iff (by decide)).mp h
    omega
  omega

/-- A number fits behind the base exactly when it is small enough, and not a
single digit behind a single letter. -/
theorem length_numbered_iff (hne : base ≠ "") {n : Nat} (h2 : 2 ≤ n) :
    (3 ≤ (base ++ n.repr).length ∧ (base ++ n.repr).length ≤ 30) ↔
      n < 10 ^ (30 - base.length) ∧ (base.length = 1 → 10 ≤ n) := by
  have hbase : 0 < base.length := by
    rw [Nat.pos_iff_ne_zero]
    exact fun h => hne (String.length_eq_zero_iff.mp h)
  have hpos : 0 < n.repr.length := Nat.length_repr_pos
  have hone : n.repr.length ≤ 1 ↔ n < 10 := Nat.length_repr_le_iff (by decide)
  rw [String.length_append]
  by_cases hroom : base.length < 30
  · have hdigits : n.repr.length ≤ 30 - base.length ↔ n < 10 ^ (30 - base.length) :=
      Nat.length_repr_le_iff (by omega)
    rw [← hdigits]
    omega
  · have hfull : 10 ^ (30 - base.length) = 1 := by
      rw [Nat.sub_eq_zero_of_le (by omega), Nat.pow_zero]
    rw [hfull]
    omega

/-- The candidate that is returned fits exactly when the base leaves room. -/
theorem fits_first_iff (hrandom : 10 ≤ env.randomInt ∧ env.randomInt < 99) (hne : base ≠ "")
    {index : Nat} (hfree : IsFree s (candidate env base index))
    (hearlier : ∀ earlier < index, ¬ IsFree s (candidate env base earlier)) :
    (3 ≤ (candidate env base index).length ∧ (candidate env base index).length ≤ 30) ↔
      LeavesRoom env s base := by
  match index with
  | 0 =>
    constructor
    · exact fun h => ⟨fun _ => h, fun htaken => absurd hfree htaken,
        fun htaken => absurd hfree htaken⟩
    · exact fun h => h.alone hfree
  | 1 =>
    have htaken : ¬ IsFree s base := hearlier 0 (by decide)
    have hbase : 0 < base.length := by
      rw [Nat.pos_iff_ne_zero]
      exact fun h => hne (String.length_eq_zero_iff.mp h)
    have hlength : (candidate env base 1).length = base.length + 2 := by
      rw [candidate, String.length_append, length_repr_of_two_digits hrandom.1 (by omega)]
    rw [hlength]
    constructor
    · exact fun h => ⟨fun hbaseFree => absurd hbaseFree htaken, fun _ _ => by omega,
        fun _ hrandomTaken => absurd hfree hrandomTaken⟩
    · intro h
      have hle := h.random htaken hfree
      omega
  | n + 2 =>
    have htaken : ¬ IsFree s base := hearlier 0 (by omega)
    have hrandomTaken : ¬ IsFree s (base ++ env.randomInt.repr) := hearlier 1 (by omega)
    have hfirst : ∀ m, 2 ≤ m → IsFree s (base ++ m.repr) → n + 2 ≤ m := by
      intro m hm hmfree
      by_contra hlt
      obtain ⟨k, rfl⟩ := Nat.exists_eq_add_of_le' hm
      exact hearlier (k + 2) (by omega) hmfree
    rw [candidate, length_numbered_iff hne (by omega)]
    constructor
    · intro h
      refine ⟨fun hbaseFree => absurd hbaseFree htaken,
        fun _ hrandomFree => absurd hrandomFree hrandomTaken, fun _ _ => ⟨?_, ?_⟩⟩
      · exact ⟨n + 2, by omega, h.1, hfree⟩
      · intro hletter m hm hm9 hmfree
        have hle := hfirst m hm hmfree
        have hten := h.2 hletter
        omega
    · intro h
      obtain ⟨⟨m, hm, hmroom, hmfree⟩, hletter⟩ := h.counted htaken hrandomTaken
      refine ⟨(hfirst m hm hmfree).trans_lt hmroom, fun hone => ?_⟩
      by_contra hlt
      exact hletter hone (n + 2) (by omega) (by omega) hfree

/-- The search always ends, with a name nobody has; the name fits the grammar of
usernames exactly when the base leaves room for what is put behind it. -/
theorem generated_username_valid_iff (env : GoogleEnv) (s : AccountDb)
    (profile : GoogleIdentityProfile) (hrandom : 10 ≤ env.randomInt ∧ env.randomInt < 99) :
    ValidAndFree env s profile (generateUniqueUsername env s profile) ↔
      LeavesRoom env s (usernameBase env profile) := by
  obtain ⟨index, hname, hfree, hearlier⟩ := generateUniqueUsername_first env s profile
  have hne : usernameBase env profile ≠ "" := by
    rw [usernameBase]
    exact sanitizeUsername_ne_empty env _
  have hletters : ∀ c ∈ (usernameBase env profile).toList, isUsernameChar c = true := by
    rw [usernameBase]
    exact isUsernameChar_sanitizeUsername env _
  have hlength : FitsUpdateMeDto (candidate env (usernameBase env profile) index) ↔ _ :=
    fitsUpdateMeDto_iff hletters index
  have hfits := hlength.trans (fits_first_iff hrandom hne hfree hearlier)
  rw [hname]
  constructor
  · exact fun h => hfits.mp h.fits
  · intro h
    refine ⟨⟨index + 1, fun more hmore => ?_⟩, hfree, hfits.mpr h⟩
    exact searchUsername_from (Nat.zero_le index) hfree hearlier (by omega)

/-! ## Two sign-ups -/

/-- Nobody is there yet. -/
def noAccounts : AccountDb := ⟨.empty, .empty, .empty, nofun⟩

def signUpEnv : GoogleEnv where
  userId := "u1"
  settingsId := "s1"
  identityId := "i1"
  randomInt := 42
  toLowerCase text := text

def profileOf (email : String) : GoogleIdentityProfile where
  displayName := "Ana"
  email := email
  emailVerified := true
  providerUserId := "101"

def accountOf (id : Id) (username : String) : Account where
  id := id
  username := username
  displayName := "Ana"
  email := id

/-- One is called ana already, and one has the number. -/
def twoAnas : AccountDb :=
  ⟨⟨[accountOf "u7" "ana", accountOf "u8" "ana42"], by decide⟩, .empty, .empty, nofun⟩

/-- The third ana gets a number that is free. -/
theorem ana_is_valid : ValidAndFree signUpEnv twoAnas (profileOf "ana@feca.app")
    (generateUniqueUsername signUpEnv twoAnas (profileOf "ana@feca.app")) := by
  refine (generated_username_valid_iff signUpEnv twoAnas (profileOf "ana@feca.app")
    (by decide)).mpr ⟨fun hfree => ?_, fun _ hfree => ?_, fun _ _ => ⟨⟨2, ?_⟩, fun hone => ?_⟩⟩
  · exact absurd hfree (by decide)
  · exact absurd hfree (by decide)
  · decide
  · exact absurd hone (by decide)

/-- An e-mail of one letter gives a username of one letter. -/
theorem one_letter_is_too_short : ¬ ∀ (env : GoogleEnv) (s : AccountDb)
    (profile : GoogleIdentityProfile), 10 ≤ env.randomInt ∧ env.randomInt < 99 →
      ValidAndFree env s profile (generateUniqueUsername env s profile) := by
  intro hall
  have hfits := (hall signUpEnv noAccounts (profileOf "a@feca.app") (by decide)).fits.minLength
  revert hfits
  decide

end Feca.Auth
