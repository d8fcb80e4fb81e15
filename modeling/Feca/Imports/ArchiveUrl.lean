import Feca.Base

/-! # Which archive URLs are fetched

`assertSafeArchiveUrl` turns down hosts by their text. The URL parser has put
every spelling of a host into one text by then: a domain in lower case, four
decimal octets, or eight pieces in hexadecimal with one run of zeros left out.
-/

namespace Feca.Imports

/-! ## Hosts -/

abbrev Text := List Char

/-- The digit of a value below sixteen. -/
def hexDigit (n : Nat) : Char := "0123456789abcdef".toList.getD n '0'

/-- An octet in decimal. -/
def decimal (n : Nat) : Text :=
  if n < 10 then [hexDigit n]
  else if n < 100 then [hexDigit (n / 10), hexDigit (n % 10)]
  else [hexDigit (n / 100), hexDigit (n / 10 % 10), hexDigit (n % 10)]

/-- A piece in the shortest hexadecimal. -/
def hex (n : Nat) : Text :=
  if n < 16 then [hexDigit n]
  else if n < 256 then [hexDigit (n / 16), hexDigit (n % 16)]
  else if n < 4096 then [hexDigit (n / 256), hexDigit (n / 16 % 16), hexDigit (n % 16)]
  else [hexDigit (n / 4096), hexDigit (n / 256 % 16), hexDigit (n / 16 % 16), hexDigit (n % 16)]

structure IPv4 where
  a : Fin 256
  b : Fin 256
  c : Fin 256
  d : Fin 256

structure IPv6 where
  pieces : List Nat
  eight : pieces.length = 8
  bounded : ∀ p ∈ pieces, p < 65536

/-- The last label, one trailing dot apart, is a number: such a host is read as an
IPv4 address. -/
def endsInNumber (text : Text) : Bool :=
  let labels := text.splitOn '.'
  let last := if labels.getLast? = some [] then labels.dropLast.getLast? else labels.getLast?
  match last with
  | none => false
  | some label => (label != [] && label.all Char.isDigit) ||
      (['0', 'x'].isPrefixOf label && (label.drop 2).all fun c =>
        c.isDigit || ('a' ≤ c && c ≤ 'f'))

/-- A domain as the parser leaves it. -/
structure DomainName where
  text : Text
  lower : text.map Char.toLower = text
  plain : ∀ c ∈ text, c ≠ ':' ∧ c ≠ '[' ∧ c ≠ ']'
  named : endsInNumber text = false

/-- A parsed host; `other` is the opaque or empty host of a scheme without
domains. -/
inductive Host
  | domain (name : DomainName)
  | ipv4 (address : IPv4)
  | ipv6 (address : IPv6)
  | other (text : Text)

/-! ## Their text -/

def IPv4.text (x : IPv4) : Text :=
  ['.'].intercalate [decimal x.a, decimal x.b, decimal x.c, decimal x.d]

/-- How many zeros there are at the head. -/
def zeroRun : List Nat → Nat
  | 0 :: rest => zeroRun rest + 1
  | _ => 0

/-- The first of the longest runs of more than one zero: where it starts and how
long it is. -/
def longestZeroRun : Nat → List Nat → Option (Nat × Nat)
  | _, [] => none
  | start, p :: rest =>
      let here := zeroRun (p :: rest)
      match longestZeroRun (start + 1) rest with
      | some run => if here ≥ run.2 then some (start, here) else some run
      | none => if here > 1 then some (start, here) else none

def colons (pieces : List Nat) : Text := [':'].intercalate (pieces.map hex)

def IPv6.text (x : IPv6) : Text :=
  match longestZeroRun 0 x.pieces with
  | none => colons x.pieces
  | some (start, length) =>
      colons (x.pieces.take start) ++ [':', ':'] ++ colons (x.pieces.drop (start + length))

/-- `URL.hostname`. -/
def Host.hostname : Host → Text
  | .domain name => name.text
  | .ipv4 address => address.text
  | .ipv6 address => '[' :: (address.text ++ [']'])
  | .other text => text

/-! ## What they denote -/

def IPv4.isLoopback (x : IPv4) : Prop := x.a.val = 127

def IPv4.isUnspecified (x : IPv4) : Prop := x.a.val = 0 ∧ x.b.val = 0 ∧ x.c.val = 0 ∧ x.d.val = 0

def IPv4.isPrivate (x : IPv4) : Prop :=
  x.a.val = 10 ∨ (x.a.val = 172 ∧ 16 ≤ x.b.val ∧ x.b.val ≤ 31) ∨ (x.a.val = 192 ∧ x.b.val = 168)

def IPv4.isLinkLocal (x : IPv4) : Prop := x.a.val = 169 ∧ x.b.val = 254

def IPv4.Internal (x : IPv4) : Prop :=
  x.isLoopback ∨ x.isUnspecified ∨ x.isPrivate ∨ x.isLinkLocal

/-- `::ffff:a.b.c.d`. -/
def IPv4.mapped (x : IPv4) : IPv6 where
  pieces := [0, 0, 0, 0, 0, 0xffff, x.a.val * 256 + x.b.val, x.c.val * 256 + x.d.val]
  eight := rfl
  bounded := by
    have ha := x.a.isLt
    have hb := x.b.isLt
    have hc := x.c.isLt
    have hd := x.d.isLt
    simp
    omega

def IPv6.isLoopback (x : IPv6) : Prop := x.pieces = [0, 0, 0, 0, 0, 0, 0, 1]

def IPv6.isUnspecified (x : IPv6) : Prop := x.pieces = [0, 0, 0, 0, 0, 0, 0, 0]

/-- `fc00::/7`. -/
def IPv6.isPrivate (x : IPv6) : Prop := ∃ p rest, x.pieces = p :: rest ∧ 0xfc00 ≤ p ∧ p ≤ 0xfdff

/-- `fe80::/10`. -/
def IPv6.isLinkLocal (x : IPv6) : Prop := ∃ p rest, x.pieces = p :: rest ∧ 0xfe80 ≤ p ∧ p ≤ 0xfebf

def IPv6.isMappedInternal (x : IPv6) : Prop := ∃ address : IPv4, x = address.mapped ∧ address.Internal

/-- The forms that embed an IPv4 address without mapping it are left out: the compatible one is
deprecated, and those of NAT64 and 6to4 may not embed an internal address. -/
def IPv6.Internal (x : IPv6) : Prop :=
  x.isLoopback ∨ x.isUnspecified ∨ x.isPrivate ∨ x.isLinkLocal ∨ x.isMappedInternal

/-- The host is `localhost`, with or without a dot at its end, or denotes an
address of the machine or the network it is in. -/
def Host.Internal : Host → Prop
  | .domain name => name.text = "localhost".toList ∨ name.text = "localhost.".toList
  | .ipv4 address => address.Internal
  | .ipv6 address => address.Internal
  | .other _ => False

/-! ## The check -/

/-- What `new URL(value)` holds; `https:` is a scheme with domains. -/
structure ParsedUrl where
  protocol : String
  username : String
  password : String
  host : Host
  special : protocol = "https:" → ∀ text, host ≠ .other text

/-- The URL parser and `isIP`, which tells the texts of addresses from domains. -/
structure UrlPlatform where
  parse : String → Option ParsedUrl
  isIP : Text → Nat
  isIP_ipv4 : ∀ address : IPv4, isIP address.text = 4
  isIP_ipv6 : ∀ address : IPv6, isIP address.text = 6
  isIP_domain : ∀ name : DomainName, isIP name.text = 0

/-- `replace(/^\[|\]$/gu, "")`. -/
def withoutBrackets (text : Text) : Text :=
  let text := if ['['].isPrefixOf text then text.drop 1 else text
  if [']'].isSuffixOf text then text.dropLast else text

/-- `Number`, of decimal digits. -/
def number (text : Text) : Nat := text.foldl (fun n c => n * 10 + (c.toNat - 48)) 0

def isLocalOrPrivateHost (isIP : Text → Nat) (hostname : Text) : Bool :=
  let normalized := withoutBrackets (hostname.map Char.toLower)
  if normalized = "localhost".toList || ".localhost".toList.isSuffixOf normalized ||
      ".local".toList.isSuffixOf normalized then true
  else
    let ipVersion := isIP normalized
    if ipVersion = 4 then
      let parts := (normalized.splitOn '.').map number
      let a := parts[0]?.getD 0
      let b := parts[1]?.getD 0
      a = 10 || a = 127 || a = 0 || (a = 169 && b = 254) || (a = 172 && b ≥ 16 && b ≤ 31) ||
        (a = 192 && b = 168)
    else if ipVersion = 6 then
      normalized = "::1".toList || normalized = "::".toList ||
        "fc".toList.isPrefixOf normalized || "fd".toList.isPrefixOf normalized ||
        "fe8".toList.isPrefixOf normalized || "fe9".toList.isPrefixOf normalized ||
        "fea".toList.isPrefixOf normalized || "feb".toList.isPrefixOf normalized
    else false

/-- `throw new BadGatewayException("Invalid Google data archive URL")`. -/
def invalidArchiveUrl : Thrown := .error "Invalid Google data archive URL"

def assertSafeArchiveUrl (platform : UrlPlatform) (value : String) : Except Thrown Unit :=
  match platform.parse value with
  | none => .error invalidArchiveUrl
  | some parsed =>
      if parsed.protocol ≠ "https:" || parsed.username.length > 0 || parsed.password.length > 0 ||
          isLocalOrPrivateHost platform.isIP parsed.host.hostname then
        .error invalidArchiveUrl
      else .ok ()

/-! ## What the check reads -/

/-- The check leaves the character as it is. -/
def Plain (c : Char) : Prop := c ≠ '[' ∧ c ≠ ']' ∧ c.toLower = c

instance : DecidablePred Plain := fun c => by
  unfold Plain
  infer_instance

theorem normalized_of_plain {text : Text} (h : ∀ c ∈ text, Plain c) :
    withoutBrackets (text.map Char.toLower) = text := by
  have hlower : text.map Char.toLower = text := by
    have hmap := List.map_congr_left fun c hc => (h c hc).2.2
    rwa [List.map_id'] at hmap
  have hopen : ['['].isPrefixOf text = false := by
    cases text with
    | nil => rfl
    | cons c text =>
        have hc := (h c List.mem_cons_self).1
        simp [List.isPrefixOf, Ne.symm hc]
  have hclose : [']'].isSuffixOf text = false := by
    by_contra hsuffix
    obtain ⟨front, rfl⟩ := List.isSuffixOf_iff_suffix.mp (Bool.not_eq_false _ ▸ hsuffix)
    exact (h ']' (List.mem_append_right _ List.mem_cons_self)).2.1 rfl
  unfold withoutBrackets
  rw [hlower, hopen]
  simp only [Bool.false_eq_true, if_false, hclose]

theorem normalized_of_brackets {text : Text} (h : ∀ c ∈ text, Plain c) :
    withoutBrackets (('[' :: (text ++ [']'])).map Char.toLower) = text := by
  have hlower : ('[' :: (text ++ [']'])).map Char.toLower = '[' :: (text ++ [']']) := by
    have hmap := List.map_congr_left fun c hc => (h c hc).2.2
    rw [List.map_id'] at hmap
    rw [List.map_cons, List.map_append, hmap]
    rfl
  have hclose : [']'].isSuffixOf (text ++ [']']) = true :=
    List.isSuffixOf_iff_suffix.mpr (List.suffix_append _ _)
  unfold withoutBrackets
  rw [hlower]
  simp [List.isPrefixOf, hclose]

/-- What holds of the sixteen digits holds of every digit. -/
theorem forall_hexDigit {P : Char → Prop} [DecidablePred P]
    (h : ("0123456789abcdef".toList.all fun c => decide (P c)) = true) (n : Nat) :
    P (hexDigit n) := by
  have hall : ∀ c ∈ "0123456789abcdef".toList, P c := by
    intro c hc
    exact of_decide_eq_true (List.all_eq_true.mp h c hc)
  unfold hexDigit List.getD
  cases hget : "0123456789abcdef".toList[n]? with
  | none => exact hall '0' (by decide)
  | some c => exact hall c (List.mem_of_getElem? hget)

section digits

variable {P : Char → Prop} (hdigit : ∀ n, P (hexDigit n))
include hdigit

theorem forall_decimal {n : Nat} : ∀ c ∈ decimal n, P c := by
  intro c hc
  unfold decimal at hc
  split at hc
  · simp only [List.mem_singleton] at hc
    exact hc ▸ hdigit _
  · split at hc
    · simp only [List.mem_cons, List.not_mem_nil, or_false] at hc
      rcases hc with rfl | rfl <;> exact hdigit _
    · simp only [List.mem_cons, List.not_mem_nil, or_false] at hc
      rcases hc with rfl | rfl | rfl <;> exact hdigit _

theorem forall_hex {n : Nat} : ∀ c ∈ hex n, P c := by
  intro c hc
  unfold hex at hc
  split at hc
  · simp only [List.mem_singleton] at hc
    exact hc ▸ hdigit _
  · split at hc
    · simp only [List.mem_cons, List.not_mem_nil, or_false] at hc
      rcases hc with rfl | rfl <;> exact hdigit _
    · split at hc
      · simp only [List.mem_cons, List.not_mem_nil, or_false] at hc
        rcases hc with rfl | rfl | rfl <;> exact hdigit _
      · simp only [List.mem_cons, List.not_mem_nil, or_false] at hc
        rcases hc with rfl | rfl | rfl | rfl <;> exact hdigit _

omit hdigit in
theorem forall_intercalate {separator : Char} (hseparator : P separator) {parts : List Text}
    (hparts : ∀ part ∈ parts, ∀ c ∈ part, P c) : ∀ c ∈ [separator].intercalate parts, P c := by
  induction parts with
  | nil => intro c hc; cases hc
  | cons part rest ih =>
      intro c hc
      have hrest := ih fun q hq => hparts q (List.mem_cons_of_mem _ hq)
      cases rest with
      | nil =>
          rw [List.intercalate_singleton] at hc
          exact hparts part List.mem_cons_self c hc
      | cons q rest =>
          rw [List.intercalate_cons_cons, List.append_assoc] at hc
          rcases List.mem_append.mp hc with hpart | hc
          · exact hparts part List.mem_cons_self c hpart
          · rcases List.mem_append.mp hc with hsep | hc
            · rw [List.mem_singleton.mp hsep]
              exact hseparator
            · exact hrest c hc

theorem forall_colons (hcolon : P ':') (pieces : List Nat) : ∀ c ∈ colons pieces, P c := by
  apply forall_intercalate hcolon
  intro part hpart
  obtain ⟨p, -, rfl⟩ := List.mem_map.mp hpart
  exact forall_hex hdigit

theorem IPv6.forall_text (hcolon : P ':') (x : IPv6) : ∀ c ∈ x.text, P c := by
  intro c hc
  unfold IPv6.text at hc
  split at hc
  · exact forall_colons hdigit hcolon _ c hc
  · rcases List.mem_append.mp hc with hc | hc
    · rcases List.mem_append.mp hc with hc | hc
      · exact forall_colons hdigit hcolon _ c hc
      · have hc' : c = ':' := by simpa using hc
        exact hc' ▸ hcolon
    · exact forall_colons hdigit hcolon _ c hc

end digits

theorem plain_hexDigit : ∀ n, Plain (hexDigit n) :=
  forall_hexDigit (by decide)

theorem IPv6.plain_text (x : IPv6) : ∀ c ∈ x.text, Plain c :=
  x.forall_text plain_hexDigit (by decide)

theorem IPv4.plain_text (x : IPv4) : ∀ c ∈ x.text, Plain c := by
  have hdot : Plain '.' := by decide
  apply forall_intercalate hdot
  simp only [List.mem_cons, List.not_mem_nil, or_false]
  rintro part (rfl | rfl | rfl | rfl) <;> exact forall_decimal plain_hexDigit

theorem DomainName.plain_text (name : DomainName) : ∀ c ∈ name.text, Plain c := by
  intro c hc
  obtain ⟨-, hopen, hclose⟩ := name.plain c hc
  refine ⟨hopen, hclose, ?_⟩
  have hmap : name.text.map Char.toLower = name.text.map id := by
    rw [List.map_id]
    exact name.lower
  exact List.map_inj_left.mp hmap c hc

/-! ## Addresses -/

section platform

variable (platform : UrlPlatform)

/-- An address of the machine or its network in four octets is turned down. -/
theorem isLocalOrPrivateHost_ipv4 {address : IPv4} (h : address.Internal) :
    isLocalOrPrivateHost platform.isIP (Host.ipv4 address).hostname = true := by
  have hoctet : ∀ n : Fin 256, number (decimal n) = n.val ∧ '.' ∉ decimal n := by
    decide +kernel
  have hsplit : address.text.splitOn '.' =
      [decimal address.a, decimal address.b, decimal address.c, decimal address.d] := by
    apply List.splitOn_intercalate
    · simp only [List.mem_cons, List.not_mem_nil, or_false]
      rintro part (rfl | rfl | rfl | rfl) <;> exact (hoctet _).2
    · exact List.cons_ne_nil _ _
  unfold isLocalOrPrivateHost Host.hostname
  dsimp only
  rw [normalized_of_plain address.plain_text, platform.isIP_ipv4, hsplit]
  split
  · rfl
  · simp only [if_true, List.map_cons, (hoctet _).1, List.getElem?_cons_zero, Option.getD_some,
      List.getElem?_cons_succ]
    rcases h with h | h | h | h
    · unfold IPv4.isLoopback at h
      simp [h]
    · unfold IPv4.isUnspecified at h
      simp [h.1]
    · unfold IPv4.isPrivate at h
      rcases h with h | h | h
      · simp [h]
      · simp [h.1, h.2.1, h.2.2]
      · simp [h.1, h.2]
    · unfold IPv4.isLinkLocal at h
      simp [h.1, h.2]

theorem longestZeroRun_spec {start : Nat} {pieces : List Nat} {run : Nat × Nat}
    (h : longestZeroRun start pieces = some run) : start ≤ run.1 ∧ 1 < run.2 := by
  induction pieces generalizing start run with
  | nil => cases h
  | cons p rest ih =>
      unfold longestZeroRun at h
      dsimp only at h
      cases hrest : longestZeroRun (start + 1) rest with
      | none =>
          rw [hrest] at h
          dsimp only at h
          split at h
          · cases h
            exact ⟨le_rfl, by assumption⟩
          · cases h
      | some later =>
          rw [hrest] at h
          dsimp only at h
          have hlater := ih hrest
          split at h
          · cases h
            exact ⟨le_rfl, by omega⟩
          · cases h
            exact ⟨by omega, hlater.2⟩

/-- An address whose first piece is not zero begins with that piece. -/
theorem IPv6.text_of_pos {x : IPv6} {p : Nat} {rest : List Nat} (hx : x.pieces = p :: rest)
    (hp : 0 < p) : ∃ tail, x.text = hex p ++ tail := by
  have hcolons : ∀ l : List Nat, ∃ tail, colons (p :: l) = hex p ++ tail := by
    intro l
    unfold colons
    rw [List.map_cons]
    cases l.map hex with
    | nil => exact ⟨[], by simp⟩
    | cons q qs => exact ⟨_, by rw [List.intercalate_cons_cons, List.append_assoc]⟩
  have hzero : zeroRun (p :: rest) = 0 := by
    cases p with
    | zero => cases hp
    | succ p => rfl
  unfold IPv6.text
  rw [hx]
  cases hrest : longestZeroRun 1 rest with
  | none =>
      have hnone : longestZeroRun 0 (p :: rest) = none := by
        unfold longestZeroRun
        simp [hzero, hrest]
      rw [hnone]
      exact hcolons rest
  | some run =>
      obtain ⟨hstart, hlength⟩ := longestZeroRun_spec hrest
      have hsome : longestZeroRun 0 (p :: rest) = some run := by
        unfold longestZeroRun
        have hlt : ¬ 0 ≥ run.2 := by omega
        simp only [hzero, hrest, if_neg hlt]
      rw [hsome]
      obtain ⟨k, hk⟩ := Nat.exists_eq_add_of_le' hstart
      obtain ⟨tail, htail⟩ := hcolons (rest.take k)
      refine ⟨tail ++ ([':', ':'] ++ colons ((p :: rest).drop (run.1 + run.2))), ?_⟩
      dsimp only
      rw [hk, List.take_succ_cons, htail, List.append_assoc, List.append_assoc]

theorem prefix_of_append {start text tail : Text} (h : start.isPrefixOf text = true) :
    start.isPrefixOf (text ++ tail) = true :=
  List.isPrefixOf_iff_prefix.mpr ((List.isPrefixOf_iff_prefix.mp h).trans (List.prefix_append _ _))

/-- The first two digits of a piece from `fc00` to `fdff`. -/
theorem hex_private {p : Nat} (hlow : 0xfc00 ≤ p) (hhigh : p ≤ 0xfdff) :
    "fc".toList.isPrefixOf (hex p) = true ∨ "fd".toList.isPrefixOf (hex p) = true := by
  have hfirst : p / 4096 = 15 := by omega
  have hsecond : p / 256 % 16 = 12 ∨ p / 256 % 16 = 13 := by omega
  have hhex : hex p = [hexDigit (p / 4096), hexDigit (p / 256 % 16), hexDigit (p / 16 % 16),
      hexDigit (p % 16)] := by
    unfold hex
    rw [if_neg (by omega), if_neg (by omega), if_neg (by omega)]
  rw [hhex, hfirst]
  rcases hsecond with h | h
  · rw [h]
    exact .inl rfl
  · rw [h]
    exact .inr rfl

/-- The first three digits of a piece from `fe80` to `febf`. -/
theorem hex_linkLocal {p : Nat} (hlow : 0xfe80 ≤ p) (hhigh : p ≤ 0xfebf) :
    "fe8".toList.isPrefixOf (hex p) = true ∨ "fe9".toList.isPrefixOf (hex p) = true ∨
      "fea".toList.isPrefixOf (hex p) = true ∨ "feb".toList.isPrefixOf (hex p) = true := by
  have hfirst : p / 4096 = 15 := by omega
  have hsecond : p / 256 % 16 = 14 := by omega
  have hthird : p / 16 % 16 = 8 ∨ p / 16 % 16 = 9 ∨ p / 16 % 16 = 10 ∨ p / 16 % 16 = 11 := by
    omega
  have hhex : hex p = [hexDigit (p / 4096), hexDigit (p / 256 % 16), hexDigit (p / 16 % 16),
      hexDigit (p % 16)] := by
    unfold hex
    rw [if_neg (by omega), if_neg (by omega), if_neg (by omega)]
  rw [hhex, hfirst, hsecond]
  rcases hthird with h | h | h | h
  · rw [h]
    exact .inl rfl
  · rw [h]
    exact .inr (.inl rfl)
  · rw [h]
    exact .inr (.inr (.inl rfl))
  · rw [h]
    exact .inr (.inr (.inr rfl))

/-- What the check says of an address in eight pieces. -/
theorem isLocalOrPrivateHost_ipv6 (address : IPv6) :
    isLocalOrPrivateHost platform.isIP (Host.ipv6 address).hostname =
      (address.text = "::1".toList || address.text = "::".toList ||
        "fc".toList.isPrefixOf address.text || "fd".toList.isPrefixOf address.text ||
        "fe8".toList.isPrefixOf address.text || "fe9".toList.isPrefixOf address.text ||
        "fea".toList.isPrefixOf address.text || "feb".toList.isPrefixOf address.text) := by
  -- no piece has a letter of `local` beyond `f`
  have hl : 'l' ∉ address.text := by
    intro hmem
    have hdigit : ∀ n, hexDigit n ≠ 'l' :=
      forall_hexDigit (P := fun c => c ≠ 'l') (by decide)
    exact address.forall_text (P := fun c => c ≠ 'l') hdigit (by decide) _ hmem rfl
  have hlocal : ∀ name : Text, 'l' ∈ name → name.isSuffixOf address.text = false := by
    intro name hname
    by_contra hsuffix
    have hsub := List.isSuffixOf_iff_suffix.mp (Bool.not_eq_false _ ▸ hsuffix)
    exact hl (hsub.subset hname)
  have hlocalhost : address.text ≠ "localhost".toList := by
    intro heq
    rw [heq] at hl
    exact hl (by decide)
  have hname : (decide (address.text = "localhost".toList) ||
      ".localhost".toList.isSuffixOf address.text || ".local".toList.isSuffixOf address.text) =
        false := by
    rw [decide_eq_false hlocalhost, hlocal ".localhost".toList (by decide),
      hlocal ".local".toList (by decide)]
    rfl
  unfold isLocalOrPrivateHost Host.hostname
  dsimp only
  rw [normalized_of_brackets address.plain_text, platform.isIP_ipv6, hname, if_neg (by decide),
    if_neg (by decide), if_pos rfl]

theorem isLocalOrPrivateHost_ipv6_of_unmapped {address : IPv6} (h : address.Internal)
    (hmapped : ¬ address.isMappedInternal) :
    isLocalOrPrivateHost platform.isIP (Host.ipv6 address).hostname = true := by
  rw [isLocalOrPrivateHost_ipv6]
  simp only [Bool.or_eq_true, decide_eq_true_eq]
  rcases h with h | h | h | h | h
  · unfold IPv6.isLoopback at h
    have htext : address.text = "::1".toList := by
      unfold IPv6.text
      rw [h]
      decide
    simp only [htext, true_or]
  · unfold IPv6.isUnspecified at h
    have htext : address.text = "::".toList := by
      unfold IPv6.text
      rw [h]
      decide
    simp only [htext, or_true, true_or]
  · obtain ⟨p, rest, hpieces, hlow, hhigh⟩ := h
    obtain ⟨tail, htext⟩ := IPv6.text_of_pos hpieces (by omega)
    rw [htext]
    rcases hex_private hlow hhigh with hp | hp
    · simp only [prefix_of_append hp, or_true, true_or]
    · simp only [prefix_of_append hp, or_true, true_or]
  · obtain ⟨p, rest, hpieces, hlow, hhigh⟩ := h
    obtain ⟨tail, htext⟩ := IPv6.text_of_pos hpieces (by omega)
    rw [htext]
    rcases hex_linkLocal hlow hhigh with hp | hp | hp | hp
    · simp only [prefix_of_append hp, or_true, true_or]
    · simp only [prefix_of_append hp, or_true, true_or]
    · simp only [prefix_of_append hp, or_true, true_or]
    · simp only [prefix_of_append hp, or_true]
  · exact absurd h hmapped

/-- The five zeros at the head of a mapped address are its longest run. -/
theorem IPv4.text_mapped (address : IPv4) : ∃ tail, address.mapped.text = ':' :: ':' :: 'f' :: 'f' :: tail := by
  have hrun : ∀ h l : Nat, longestZeroRun 0 [0, 0, 0, 0, 0, 0xffff, h, l] = some (0, 5) := by
    intro h l
    cases h with
    | zero =>
        cases l with
        | zero => rfl
        | succ l => rfl
    | succ h =>
        cases l with
        | zero => rfl
        | succ l => rfl
  unfold IPv6.text IPv4.mapped
  dsimp only
  rw [hrun]
  exact ⟨_, rfl⟩

/-- No mapped address is turned down. -/
theorem isLocalOrPrivateHost_mapped (address : IPv4) :
    isLocalOrPrivateHost platform.isIP (Host.ipv6 address.mapped).hostname = false := by
  obtain ⟨tail, htext⟩ := address.text_mapped
  rw [isLocalOrPrivateHost_ipv6, htext]
  simp [List.isPrefixOf]

theorem isLocalOrPrivateHost_domain (name : DomainName) :
    isLocalOrPrivateHost platform.isIP (Host.domain name).hostname =
      (name.text = "localhost".toList || ".localhost".toList.isSuffixOf name.text ||
        ".local".toList.isSuffixOf name.text) := by
  unfold isLocalOrPrivateHost Host.hostname
  dsimp only
  rw [normalized_of_plain name.plain_text, platform.isIP_domain]
  cases hlocal : (decide (name.text = "localhost".toList) ||
      ".localhost".toList.isSuffixOf name.text || ".local".toList.isSuffixOf name.text) with
  | true => rw [if_pos rfl]
  | false => rw [if_neg (by decide), if_neg (by decide), if_neg (by decide)]

/-- An accepted URL does not lead inside. -/
def PointsOutside (value : String) : Prop :=
  assertSafeArchiveUrl platform value = .ok () →
    ∀ parsed, platform.parse value = some parsed → ¬ parsed.host.Internal

/-- The hosts inside that the check does not know. -/
def Host.Missed : Host → Prop
  | .domain name => name.text = "localhost.".toList
  | .ipv6 address => address.isMappedInternal
  | _ => False

theorem Host.Missed.internal {host : Host} (h : host.Missed) : host.Internal := by
  cases host with
  | domain name => exact .inr h
  | ipv4 address => cases h
  | ipv6 address => exact .inr (.inr (.inr (.inr h)))
  | other text => cases h

theorem isLocalOrPrivateHost_missed {host : Host} (h : host.Missed) :
    isLocalOrPrivateHost platform.isIP host.hostname = false := by
  cases host with
  | domain name =>
      have htext : name.text = "localhost.".toList := h
      rw [isLocalOrPrivateHost_domain, htext]
      decide
  | ipv4 address => cases h
  | ipv6 address =>
      obtain ⟨mapped, rfl, -⟩ := h
      exact isLocalOrPrivateHost_mapped platform mapped
  | other text => cases h

/-- The check knows every other host inside. -/
theorem isLocalOrPrivateHost_of_internal {host : Host} (h : host.Internal)
    (hmissed : ¬ host.Missed) : isLocalOrPrivateHost platform.isIP host.hostname = true := by
  cases host with
  | domain name =>
      have htext : name.text = "localhost".toList := by
        rcases h with h | h
        · exact h
        · exact absurd h hmissed
      rw [isLocalOrPrivateHost_domain, htext]
      decide
  | ipv4 address => exact isLocalOrPrivateHost_ipv4 platform h
  | ipv6 address => exact isLocalOrPrivateHost_ipv6_of_unmapped platform h hmissed
  | other text => cases h

theorem assertSafeArchiveUrl_ok {value : String} {parsed : ParsedUrl}
    (hparse : platform.parse value = some parsed) :
    assertSafeArchiveUrl platform value = .ok () ↔
      parsed.protocol = "https:" ∧ parsed.username.length = 0 ∧ parsed.password.length = 0 ∧
        isLocalOrPrivateHost platform.isIP parsed.host.hostname = false := by
  unfold assertSafeArchiveUrl
  rw [hparse]
  dsimp only
  split
  · rename_i hbad
    constructor
    · intro h
      cases h
    · rintro ⟨hprotocol, husername, hpassword, hhost⟩
      simp [hprotocol, husername, hpassword, hhost] at hbad
  · rename_i hgood
    simp only [ne_eq, Bool.or_eq_true, decide_eq_true_eq, not_or, not_not, Nat.not_lt,
      Nat.le_zero, Bool.not_eq_true] at hgood
    exact ⟨fun _ => ⟨hgood.1.1.1, hgood.1.1.2, hgood.1.2, hgood.2⟩, fun _ => rfl⟩

/-- A URL is safe unless it names the machine as `localhost.` or by a mapped
address inside. -/
theorem points_outside_iff (value : String) : PointsOutside platform value ↔
    ∀ parsed, platform.parse value = some parsed → parsed.protocol = "https:" →
      parsed.username.length = 0 → parsed.password.length = 0 → ¬ parsed.host.Missed := by
  constructor
  · intro hsafe parsed hparse hprotocol husername hpassword hmissed
    have haccepted := (assertSafeArchiveUrl_ok platform hparse).mpr
      ⟨hprotocol, husername, hpassword, isLocalOrPrivateHost_missed platform hmissed⟩
    exact hsafe haccepted parsed hparse hmissed.internal
  · intro hknown haccepted parsed hparse hinternal
    obtain ⟨hprotocol, husername, hpassword, hhost⟩ :=
      (assertSafeArchiveUrl_ok platform hparse).mp haccepted
    have hmissed := hknown parsed hparse hprotocol husername hpassword
    rw [isLocalOrPrivateHost_of_internal platform hinternal hmissed] at hhost
    cases hhost

end platform

/-! ## Two URLs that lead inside -/

/-- `isIP`, of the texts a parsed host can have. -/
def isIPOfHost (text : Text) : Nat :=
  if ':' ∈ text then 6 else if endsInNumber text then 4 else 0

theorem isIPOfHost_ipv4 (address : IPv4) : isIPOfHost address.text = 4 := by
  have hcolon : ':' ∉ address.text := by
    intro hmem
    have hdigit : ∀ n, hexDigit n ≠ ':' :=
      forall_hexDigit (P := fun c => c ≠ ':') (by decide)
    have hdot : '.' ≠ ':' := by decide
    refine forall_intercalate (P := fun c => c ≠ ':') hdot ?_ ':' hmem rfl
    simp only [List.mem_cons, List.not_mem_nil, or_false]
    rintro part (rfl | rfl | rfl | rfl) <;> exact forall_decimal hdigit
  have hoctet : ∀ n : Fin 256, '.' ∉ decimal n ∧ decimal n ≠ [] ∧
      (decimal n).all Char.isDigit = true := by decide +kernel
  have hsplit : address.text.splitOn '.' =
      [decimal address.a, decimal address.b, decimal address.c, decimal address.d] := by
    apply List.splitOn_intercalate
    · simp only [List.mem_cons, List.not_mem_nil, or_false]
      rintro part (rfl | rfl | rfl | rfl) <;> exact (hoctet _).1
    · exact List.cons_ne_nil _ _
  have hnumber : endsInNumber address.text = true := by
    unfold endsInNumber
    rw [hsplit]
    obtain ⟨-, hne, hdigits⟩ := hoctet address.d
    simp [hne, hdigits]
  unfold isIPOfHost
  rw [if_neg hcolon, if_pos hnumber]

theorem isIPOfHost_ipv6 (address : IPv6) : isIPOfHost address.text = 6 := by
  have hcolon : ':' ∈ address.text := by
    unfold IPv6.text
    split
    · have height := address.eight
      cases hpieces : address.pieces with
      | nil => simp [hpieces] at height
      | cons p rest =>
          cases rest with
          | nil => simp [hpieces] at height
          | cons q rest =>
              unfold colons
              rw [List.map_cons, List.map_cons, List.intercalate_cons_cons]
              simp
    · simp
  unfold isIPOfHost
  rw [if_pos hcolon]

theorem isIPOfHost_domain (name : DomainName) : isIPOfHost name.text = 0 := by
  have hcolon : ':' ∉ name.text := fun hmem => (name.plain ':' hmem).1 rfl
  unfold isIPOfHost
  rw [if_neg hcolon, name.named]
  rfl

def localhostWithDot : Host :=
  .domain
    { text := "localhost.".toList
      lower := by decide
      plain := by
        have hall : ("localhost.".toList.all fun c =>
            decide (c ≠ ':' ∧ c ≠ '[' ∧ c ≠ ']')) = true := by decide
        intro c hc
        exact of_decide_eq_true (List.all_eq_true.mp hall c hc)
      named := by decide }

/-- `127.0.0.1`. -/
def loopback : IPv4 := ⟨127, 0, 0, 1⟩

/-- An `https:` URL without credentials. -/
def httpsUrl (host : Host) (special : ∀ text, host ≠ .other text) : ParsedUrl :=
  ⟨"https:", "", "", host, fun _ => special⟩

def dottedUrl : ParsedUrl := httpsUrl localhostWithDot fun _ h => by cases h

def mappedUrl : ParsedUrl := httpsUrl (.ipv6 loopback.mapped) fun _ h => by cases h

/-- A parser that has met two URLs. -/
def twoUrls : UrlPlatform where
  parse value :=
    if value = "https://localhost./archive.zip" then some dottedUrl
    else if value = "https://[::ffff:127.0.0.1]/archive.zip" then some mappedUrl
    else none
  isIP := isIPOfHost
  isIP_ipv4 := isIPOfHost_ipv4
  isIP_ipv6 := isIPOfHost_ipv6
  isIP_domain := isIPOfHost_domain

/-- Both are accepted, and both lead to the machine itself. -/
theorem two_urls_point_inside : ¬ PointsOutside twoUrls "https://localhost./archive.zip" ∧
    ¬ PointsOutside twoUrls "https://[::ffff:127.0.0.1]/archive.zip" := by
  constructor
  · intro h
    have hinternal : dottedUrl.host.Internal := Or.inr rfl
    exact h (by decide) dottedUrl rfl hinternal
  · intro h
    have hinternal : mappedUrl.host.Internal :=
      Or.inr (.inr (.inr (.inr ⟨loopback, rfl, .inl rfl⟩)))
    exact h (by decide) mappedUrl rfl hinternal

end Feca.Imports
