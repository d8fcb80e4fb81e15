import Feca.Relational.Table
import Mathlib.Algebra.Order.Field.Rat

/-! # Shared vocabulary

Row ids are the text keys of the database, dates are milliseconds since the
epoch, coordinates are exact. Users, their settings and the follow graph are
read by every subsystem, so their rows live here.
-/

namespace Feca

open Relational

abbrev Id := String

/-- A `Date`, by its `getTime()`. -/
abbrev Date := Int

/-- What a `catch (error)` receives: an `Error`, one the database client knows
by its code, or something that is no `Error` at all. -/
inductive Thrown
  | error (message : String)
  | known (code message : String)
  | other
  deriving DecidableEq, Repr

/-- `error instanceof Error ? error.message : fallback`. -/
def Thrown.messageOr (fallback : String) : Thrown → String
  | .error message => message
  | .known _ message => message
  | .other => fallback

/-- `P2002`. -/
def uniqueViolation : Thrown := .known "P2002" "Unique constraint failed"

/-- `P2003`. -/
def foreignKeyViolation : Thrown := .known "P2003" "Foreign key constraint violated"

/-- A JSON value as the database hands it back. -/
inductive Json
  | null
  | bool (value : Bool)
  | number (value : Rat)
  | string (value : String)
  | array (items : List Json)
  | object (fields : List (String × Json))

/-! ## Text -/

/-- The code points `String.prototype.trim` removes. -/
def isJsSpace (c : Char) : Bool :=
  let n := c.toNat
  (9 ≤ n && n ≤ 13) || n == 0x20 || n == 0xA0 || n == 0x1680 || (0x2000 ≤ n && n ≤ 0x200A) ||
    n == 0x2028 || n == 0x2029 || n == 0x202F || n == 0x205F || n == 0x3000 || n == 0xFEFF

/-- `String.prototype.trim`. -/
def trim (s : String) : String :=
  String.ofList (((s.toList.dropWhile isJsSpace).reverse.dropWhile isJsSpace).reverse)

/-- `value || null` on text: the empty string is falsy. -/
def orNull (s : String) : Option String := if s = "" then none else some s

theorem eq_some_of_bind_orNull {text : Option String} {value : String}
    (h : text.bind orNull = some value) : text = some value := by
  cases text with
  | none => cases h
  | some content =>
      have hcontent : orNull content = some value := h
      unfold orNull at hcontent
      split at hcontent
      · cases hcontent
      · exact hcontent

/-- `Array.from(new Set(ids))`: first occurrences, in order. -/
def distinctIds : List Id → List Id
  | [] => []
  | x :: xs => x :: (distinctIds xs).filter (· ≠ x)

theorem mem_distinctIds {x : Id} {xs : List Id} : x ∈ distinctIds xs ↔ x ∈ xs := by
  induction xs with
  | nil => simp [distinctIds]
  | cons y ys ih =>
      by_cases h : x = y
      · simp [distinctIds, h]
      · simp [distinctIds, h, ih]

theorem nodup_distinctIds (xs : List Id) : (distinctIds xs).Nodup := by
  induction xs with
  | nil => exact List.nodup_nil
  | cons y ys ih =>
      rw [distinctIds, List.nodup_cons]
      exact ⟨by simp, ih.filter _⟩

/-! ## Users -/

inductive ContentVisibility
  | «public»
  | followers
  | «private»
  deriving DecidableEq, Repr

inductive GroupInvitePolicy
  | anyone
  | followingOnly
  | mutualsOnly
  deriving DecidableEq, Repr

structure User where
  id : Id
  username : String
  displayName : String
  avatarUrl : Option String := none
  bio : Option String := none
  city : Option String := none
  cityId : Option Id := none
  lat : Option Rat := none
  lng : Option Rat := none
  deriving DecidableEq, Repr

structure UserSettings where
  id : Id
  userId : Id
  activityVisibility : ContentVisibility := .«public»
  diaryVisibility : ContentVisibility := .«public»
  groupInvitePolicy : GroupInvitePolicy := .anyone
  pushEnabled : Bool := true
  deriving DecidableEq, Repr

structure UserFollow where
  id : Id
  followerId : Id
  followedId : Id
  deriving DecidableEq, Repr

/-- `@id` on `User`. -/
instance : UniqueColumns User where
  conflicts a b := a.id == b.id
  conflicts_self _ := by simp
  conflicts_symm a b := by rw [BEq.comm (a := a.id)]

/-- `@id` and `@unique userId` on `UserSettings`. -/
instance : UniqueColumns UserSettings where
  conflicts a b := a.id == b.id || a.userId == b.userId
  conflicts_self _ := by simp
  conflicts_symm a b := by rw [BEq.comm (a := a.id), BEq.comm (a := a.userId)]

/-- `@id` and `@@unique([followerId, followedId])` on `UserFollow`. -/
instance : UniqueColumns UserFollow where
  conflicts a b := a.id == b.id || (a.followerId == b.followerId && a.followedId == b.followedId)
  conflicts_self _ := by simp
  conflicts_symm a b := by
    rw [BEq.comm (a := a.id), BEq.comm (a := a.followerId), BEq.comm (a := a.followedId)]

end Feca
