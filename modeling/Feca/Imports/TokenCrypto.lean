import Feca.Binary.Base64Url
import Feca.Imports.Service
import Feca.Imports.Zip

/-! # Tokens as they are stored

`GoogleDataPortabilityTokenCryptoService` keeps a token as four parts with dots
between them: a version, the initialization vector, the tag and the encrypted
text. What is read back has to have all four, and the encryption of the empty
token has an empty fourth part.
-/

namespace Feca.Imports

open Binary Concurrency Relational Social

/-! ## The service -/

/-- What the runtime computes: hashes and AES-256-GCM. -/
structure TokenEnv where
  /-- `createHash("sha256").update(text).digest()`. -/
  sha256 : String → Bytes
  /-- `createCipheriv("aes-256-gcm", key, iv)`: the encrypted bytes and the tag. -/
  sealWith : Bytes → Bytes → Bytes → Bytes × Bytes
  /-- `createDecipheriv("aes-256-gcm", key, iv)` with a tag, given what is encrypted. -/
  openWith : Bytes → Bytes → Bytes → Bytes → Except Thrown Bytes
  /-- What `toString("utf8")` makes of bytes that are not UTF-8. -/
  replaceInvalid : Bytes → String

/-- The cipher undoes what it has done with the same key, vector and tag; it is a
stream cipher, and its tags have sixteen bytes. -/
structure TokenEnv.Lawful (env : TokenEnv) : Prop where
  digest : ∀ text, (env.sha256 text).length = 32
  opens : ∀ key iv plain, key.length = 32 → iv.length = 12 →
    env.openWith key iv (env.sealWith key iv plain).2 (env.sealWith key iv plain).1 = .ok plain
  length : ∀ key iv plain, (env.sealWith key iv plain).1.length = plain.length
  tag : ∀ key iv plain, (env.sealWith key iv plain).2.length = 16

structure TokenConfig where
  googleDataPortabilityTokenEncryptionKey : Option String
  authJwtAccessSecret : String

variable (env : TokenEnv) (config : TokenConfig)

def tokenKey : Bytes :=
  env.sha256 (config.googleDataPortabilityTokenEncryptionKey.getD config.authJwtAccessSecret)

def bytesToString (bytes : Bytes) : String :=
  (String.fromUTF8? ⟨bytes.toArray⟩).getD (env.replaceInvalid bytes)

/-- The parts of a token, in the order they are joined. -/
def tokenParts (iv : Bytes) (value : String) : List (List Char) :=
  ["v1".toList, toBase64Url iv,
    toBase64Url (env.sealWith (tokenKey env config) iv (utf8 value)).2,
    toBase64Url (env.sealWith (tokenKey env config) iv (utf8 value)).1]

def encrypt (iv : Bytes) (value : String) : String :=
  ".".intercalate ((tokenParts env config iv value).map String.ofList)

def unsupportedFormat : Thrown := .error "Unsupported encrypted token format"

/-- Parts behind the fourth are not looked at. -/
def decrypt (value : String) : Except Thrown String :=
  match value.toList.splitOn '.' with
  | version :: iv :: tag :: encrypted :: _ =>
      if version ≠ "v1".toList ∨ iv = [] ∨ tag = [] ∨ encrypted = [] then
        .error unsupportedFormat
      else do
        let plain ← env.openWith (tokenKey env config) (fromBase64Url iv) (fromBase64Url tag)
          (fromBase64Url encrypted)
        pure (bytesToString env plain)
  | _ => .error unsupportedFormat

/-! ## What is read back -/

theorem bytesToString_utf8 (text : String) : bytesToString env (utf8 text) = text := by
  rw [bytesToString, utf8_decodes, Option.getD_some]

theorem utf8_eq_nil_iff {text : String} : utf8 text = [] ↔ text = "" := by
  constructor
  · intro hnil
    have hread := utf8_decodes text
    have hempty := utf8_decodes ""
    rw [hnil] at hread
    have hsame : utf8 "" = [] := rfl
    rw [hsame] at hempty
    exact Option.some.inj (hread.symm.trans hempty)
  · rintro rfl
    rfl

/-- No part has a dot, so the parts come apart where they were joined. -/
theorem splitOn_encrypt (iv : Bytes) (value : String) :
    (encrypt env config iv value).toList.splitOn '.' = tokenParts env config iv value := by
  have hback : ((tokenParts env config iv value).map String.ofList).map String.toList =
      tokenParts env config iv value := by
    simp
  have hdot : ∀ part ∈ tokenParts env config iv value, '.' ∉ part := by
    have hcoded : ∀ bytes, '.' ∉ toBase64Url bytes :=
      fun bytes hmem => (ne_of_mem_toBase64Url hmem).2 rfl
    simp only [tokenParts, List.forall_mem_cons]
    exact ⟨by decide, hcoded _, hcoded _, hcoded _, by simp⟩
  rw [encrypt, String.toList_intercalate, hback]
  exact List.splitOn_intercalate '.' hdot (List.cons_ne_nil _ _)

variable {env}

/-- A token comes back just if it has a character at all. -/
theorem decrypt_encrypt (h : env.Lawful) {iv : Bytes} (hiv : iv.length = 12) (value : String) :
    decrypt env config (encrypt env config iv value) =
      if value = "" then .error unsupportedFormat else .ok value := by
  have hkey : (tokenKey env config).length = 32 := h.digest _
  have hopens := h.opens (tokenKey env config) iv (utf8 value) hkey hiv
  have hlength := h.length (tokenKey env config) iv (utf8 value)
  have htag := h.tag (tokenKey env config) iv (utf8 value)
  rw [decrypt, splitOn_encrypt, tokenParts]
  generalize env.sealWith (tokenKey env config) iv (utf8 value) = token at hopens hlength htag
  have hivPart : iv ≠ [] := by
    rintro rfl
    cases hiv
  have htagPart : token.2 ≠ [] := by
    intro hnil
    rw [hnil] at htag
    cases htag
  have hencrypted : token.1 = [] ↔ value = "" := by
    rw [← utf8_eq_nil_iff, ← List.length_eq_zero_iff, hlength, List.length_eq_zero_iff]
  simp only [ne_eq, not_true_eq_false, toBase64Url_eq_nil_iff, hivPart, htagPart, hencrypted,
    false_or, fromBase64Url_toBase64Url]
  split
  · rfl
  · rw [hopens]
    exact congrArg Except.ok (bytesToString_utf8 env value)

/-! ## A stored token -/

/-- The imports keep their tokens by this service. -/
structure KeepsTokens {ω : Type} (imports : ImportsEnv ω) (env : TokenEnv) (config : TokenConfig)
    (iv : Bytes) : Prop where
  encrypt : imports.encrypt = encrypt env config iv
  decrypt : imports.decrypt = decrypt env config

/-- The token an import was stored with is what the archive is asked with. -/
theorem resolveAccessToken_stored {ω : Type} {imports : ImportsEnv ω} (h : env.Lawful)
    {config : TokenConfig} {iv : Bytes} (hiv : iv.length = 12)
    (hkeeps : KeepsTokens imports env config iv) {row : GoogleDataImport} {token : String}
    (hstored : row.oauthAccessTokenEncrypted = some (imports.encrypt token))
    (husable : hasUsableAccessToken imports row = true) (htoken : token ≠ "") :
    resolveAccessToken imports row = pure token := by
  rw [resolveAccessToken, if_pos husable, hstored, Option.getD_some, hkeeps.encrypt,
    hkeeps.decrypt, decrypt_encrypt config h hiv, if_neg htoken]
  rfl

/-! ## One key and one vector -/

/-- What AES-256-GCM puts over the first bytes, with the key and the vector below. -/
def keystream : Bytes := [244, 34, 61, 192, 215, 196, 163]

def masked (bytes : Bytes) : Bytes :=
  bytes.mapIdx fun i byte => byte ^^^ keystream.getD i 0

def tagOf (plain : Bytes) : Bytes :=
  if plain = utf8 "ya29.é" then
    [137, 97, 205, 216, 6, 128, 182, 175, 242, 68, 26, 58, 24, 240, 188, 162]
  else if plain = [] then
    [133, 20, 96, 237, 36, 134, 145, 108, 122, 1, 158, 52, 108, 161, 66, 19]
  else List.replicate 16 0

def maskEnv : TokenEnv where
  sha256 text :=
    if text = "secreto" then
      [223, 115, 54, 86, 41, 58, 25, 197, 79, 105, 9, 59, 169, 22, 240, 161, 162, 163, 193, 81,
        252, 149, 193, 63, 58, 121, 76, 38, 49, 238, 179, 166]
    else List.replicate 32 0
  sealWith _ _ plain := (masked plain, tagOf plain)
  openWith _ _ tag encrypted :=
    if tag = tagOf (masked encrypted) then .ok (masked encrypted)
    else .error (.error "Unsupported state or unable to authenticate data")
  replaceInvalid _ := "\uFFFD"

def secretConfig : TokenConfig where
  googleDataPortabilityTokenEncryptionKey := none
  authJwtAccessSecret := "secreto"

def countingIv : Bytes := [0, 1, 2, 3, 4, 5, 6, 7, 8, 9, 10, 11]

example : encrypt maskEnv secretConfig countingIv "ya29.é" =
    "v1.AAECAwQFBgcICQoL.iWHN2AaAtq_yRBo6GPC8og.jUMP-fkHCg" := by
  decide

theorem masked_masked (bytes : Bytes) : masked (masked bytes) = bytes := by
  unfold masked
  rw [List.mapIdx_mapIdx]
  apply List.ext_getElem
  · simp
  · intro i _ _
    rw [List.getElem_mapIdx, Function.comp_apply, UInt8.xor_assoc, UInt8.xor_self, UInt8.xor_zero]

theorem maskEnv_lawful : maskEnv.Lawful where
  digest := by
    intro text
    unfold maskEnv
    dsimp only
    split <;> rfl
  opens := by
    intro key iv plain _ _
    simp [maskEnv, masked_masked]
  length := by
    intro key iv plain
    simp [maskEnv, masked]
  tag := by
    intro key iv plain
    simp only [maskEnv, tagOf]
    split
    · rfl
    · split <;> rfl

/-- A token comes back as it was just if it is not empty. -/
theorem token_reads_back_iff (env : TokenEnv) (h : env.Lawful) (config : TokenConfig)
    (iv : Bytes) (hiv : iv.length = 12) (value : String) :
    decrypt env config (encrypt env config iv value) = .ok value ↔ value ≠ "" := by
  rw [decrypt_encrypt config h hiv]
  by_cases hempty : value = ""
  · simp [hempty]
  · simp [hempty]

theorem token_reads_back_ya29 :
    decrypt maskEnv secretConfig (encrypt maskEnv secretConfig countingIv "ya29.é") =
      .ok "ya29.é" :=
  (token_reads_back_iff maskEnv maskEnv_lawful secretConfig countingIv rfl "ya29.é").mpr
    (by decide)

/-- The empty token is written with nothing behind the last dot. -/
theorem empty_token_is_refused :
    maskEnv.Lawful ∧ countingIv.length = 12 ∧
      encrypt maskEnv secretConfig countingIv "" = "v1.AAECAwQFBgcICQoL.hRRg7SSGkWx6AZ40bKFCEw." ∧
      decrypt maskEnv secretConfig (encrypt maskEnv secretConfig countingIv "") =
        .error (.error "Unsupported encrypted token format") ∧
      decrypt maskEnv secretConfig (encrypt maskEnv secretConfig countingIv "") ≠ .ok "" := by
  have hiv : countingIv.length = 12 := rfl
  have hrefused := decrypt_encrypt secretConfig maskEnv_lawful hiv ""
  rw [if_pos rfl] at hrefused
  refine ⟨maskEnv_lawful, hiv, by decide, hrefused, ?_⟩
  rw [hrefused]
  intro h
  cases h

end Feca.Imports
