import Feca.Binary.LittleEndian
import Mathlib.Data.List.TakeWhile

/-! # Bytes as text in base64url

Three bytes are four digits of six bits. The last digits of a text that is no
multiple of four carry the one or two bytes that are left, with zeros behind
them; no padding is written.
-/

namespace Feca.Binary

/-! ## Groups of six bits -/

def toSextets : Bytes → List Nat
  | [] => []
  | [a] => [a.toNat / 4, a.toNat % 4 * 16]
  | [a, b] => [a.toNat / 4, a.toNat % 4 * 16 + b.toNat / 16, b.toNat % 16 * 4]
  | a :: b :: c :: rest =>
      a.toNat / 4 :: (a.toNat % 4 * 16 + b.toNat / 16) ::
        (b.toNat % 16 * 4 + c.toNat / 64) :: c.toNat % 64 :: toSextets rest

/-- A digit that is left alone carries no byte. -/
def ofSextets : List Nat → Bytes
  | [] => []
  | [_] => []
  | [p, q] => [UInt8.ofNat (p * 4 + q / 16)]
  | [p, q, r] => [UInt8.ofNat (p * 4 + q / 16), UInt8.ofNat (q % 16 * 16 + r / 4)]
  | p :: q :: r :: s :: rest =>
      UInt8.ofNat (p * 4 + q / 16) :: UInt8.ofNat (q % 16 * 16 + r / 4) ::
        UInt8.ofNat (r % 4 * 64 + s) :: ofSextets rest

theorem lt_of_mem_toSextets {bytes : Bytes} : ∀ n ∈ toSextets bytes, n < 64 := by
  have hbyte : ∀ byte : UInt8, byte.toNat < 256 := fun byte => byte.toNat_lt
  fun_induction toSextets bytes with
  | case1 => simp
  | case2 a =>
    have ha := hbyte a
    simp only [List.mem_cons, List.not_mem_nil, or_false]
    omega
  | case3 a b =>
    have ha := hbyte a
    have hb := hbyte b
    simp only [List.mem_cons, List.not_mem_nil, or_false]
    omega
  | case4 a b c rest ih =>
    have ha := hbyte a
    have hb := hbyte b
    have hc := hbyte c
    intro n hn
    simp only [List.mem_cons] at hn
    rcases hn with hn | hn | hn | hn | hn
    · omega
    · omega
    · omega
    · omega
    · exact ih n hn

theorem ofNat_eq_of_toNat {byte : UInt8} {n : Nat} (h : n = byte.toNat) :
    UInt8.ofNat n = byte := by
  rw [h, UInt8.ofNat_toNat]

theorem ofSextets_toSextets (bytes : Bytes) : ofSextets (toSextets bytes) = bytes := by
  fun_induction toSextets bytes with
  | case1 => rfl
  | case2 a =>
    have ha : a.toNat / 4 * 4 + a.toNat % 4 * 16 / 16 = a.toNat := by omega
    rw [ofSextets, ofNat_eq_of_toNat ha]
  | case3 a b =>
    have hb' := b.toNat_lt
    have ha : a.toNat / 4 * 4 + (a.toNat % 4 * 16 + b.toNat / 16) / 16 = a.toNat := by omega
    have hb : (a.toNat % 4 * 16 + b.toNat / 16) % 16 * 16 + b.toNat % 16 * 4 / 4 = b.toNat := by
      omega
    rw [ofSextets, ofNat_eq_of_toNat ha, ofNat_eq_of_toNat hb]
  | case4 a b c rest ih =>
    have hb' := b.toNat_lt
    have hc' := c.toNat_lt
    have ha : a.toNat / 4 * 4 + (a.toNat % 4 * 16 + b.toNat / 16) / 16 = a.toNat := by omega
    have hb : (a.toNat % 4 * 16 + b.toNat / 16) % 16 * 16 +
        (b.toNat % 16 * 4 + c.toNat / 64) / 4 = b.toNat := by omega
    have hc : (b.toNat % 16 * 4 + c.toNat / 64) % 4 * 64 + c.toNat % 64 = c.toNat := by omega
    rw [ofSextets, ih, ofNat_eq_of_toNat ha, ofNat_eq_of_toNat hb, ofNat_eq_of_toNat hc]

theorem toSextets_eq_nil_iff {bytes : Bytes} : toSextets bytes = [] ↔ bytes = [] := by
  fun_cases toSextets bytes <;> simp

/-! ## Digits -/

def base64UrlAlphabet : List Char :=
  ['A', 'B', 'C', 'D', 'E', 'F', 'G', 'H', 'I', 'J', 'K', 'L', 'M', 'N', 'O', 'P',
    'Q', 'R', 'S', 'T', 'U', 'V', 'W', 'X', 'Y', 'Z', 'a', 'b', 'c', 'd', 'e', 'f',
    'g', 'h', 'i', 'j', 'k', 'l', 'm', 'n', 'o', 'p', 'q', 'r', 's', 't', 'u', 'v',
    'w', 'x', 'y', 'z', '0', '1', '2', '3', '4', '5', '6', '7', '8', '9', '-', '_']

def base64UrlDigit (sextet : Nat) : Char := base64UrlAlphabet.getD sextet 'A'

/-- The digits of base64 are read too. -/
def sextetOf (c : Char) : Option Nat :=
  if c = '+' then some 62
  else if c = '/' then some 63
  else base64UrlAlphabet.idxOf? c

theorem sextetOf_base64UrlDigit {sextet : Nat} (h : sextet < 64) :
    sextetOf (base64UrlDigit sextet) = some sextet := by
  have hall : ∀ n : Fin 64, sextetOf (base64UrlDigit n) = some n.val := by
    decide
  exact hall ⟨sextet, h⟩

/-- `toString("base64url")`. -/
def toBase64Url (bytes : Bytes) : List Char := (toSextets bytes).map base64UrlDigit

/-- `Buffer.from(text, "base64url")`: it ends at a padding, and skips what is no digit. -/
def fromBase64Url (text : List Char) : Bytes :=
  ofSextets ((text.takeWhile (· != '=')).filterMap sextetOf)

/-- What is written has no padding and no dot. -/
theorem ne_of_mem_toBase64Url {bytes : Bytes} {c : Char} (h : c ∈ toBase64Url bytes) :
    c ≠ '=' ∧ c ≠ '.' := by
  obtain ⟨sextet, hmem, rfl⟩ := List.mem_map.mp h
  have hall : ∀ n : Fin 64, base64UrlDigit n ≠ '=' ∧ base64UrlDigit n ≠ '.' := by
    decide
  exact hall ⟨sextet, lt_of_mem_toSextets sextet hmem⟩

theorem fromBase64Url_toBase64Url (bytes : Bytes) : fromBase64Url (toBase64Url bytes) = bytes := by
  have hwhole : (toBase64Url bytes).takeWhile (· != '=') = toBase64Url bytes := by
    rw [List.takeWhile_eq_self_iff]
    intro c hc
    simpa using (ne_of_mem_toBase64Url hc).1
  have hread : (toBase64Url bytes).filterMap sextetOf = toSextets bytes := by
    have hsame : ∀ sextet ∈ toSextets bytes,
        (sextetOf ∘ base64UrlDigit) sextet = some sextet := by
      intro sextet hmem
      exact sextetOf_base64UrlDigit (lt_of_mem_toSextets sextet hmem)
    rw [toBase64Url, List.filterMap_map, List.filterMap_congr hsame, List.filterMap_some]
  rw [fromBase64Url, hwhole, hread, ofSextets_toSextets]

theorem toBase64Url_eq_nil_iff {bytes : Bytes} : toBase64Url bytes = [] ↔ bytes = [] := by
  rw [toBase64Url, List.map_eq_nil_iff, toSextets_eq_nil_iff]

example : String.ofList (toBase64Url [0, 255, 16, 131]) = "AP8Qgw" := by decide

end Feca.Binary
