import Mathlib.Logic.Equiv.Basic
import Feca.Plans.Presenter

/-! # Cursors

A page of plans or of messages ends in an opaque cursor: the date and the id of
its last row, as a JSON array in base64url. The text codecs belong to the
runtime; what the services rely on is that each one reads back what it wrote.
-/

namespace Feca.Social

/-- The position of a row in a listing. -/
structure Cursor where
  date : Date
  id : Id
  deriving DecidableEq, Repr

/-- The runtime's codecs. Parsers answer `none` where the runtime throws, or
where `new Date` gives an invalid date. -/
structure CursorCodec where
  toISOString : Date → String
  parseDate : String → Option Date
  stringify : String → String → String
  parse : String → Option Json
  toBase64url : String → String
  fromBase64url : String → String

structure CursorCodec.Lawful (codec : CursorCodec) : Prop where
  iso : ∀ date, codec.parseDate (codec.toISOString date) = some date
  json : ∀ a b, codec.parse (codec.stringify a b) = some (.array [.string a, .string b])
  base64url : ∀ text, codec.fromBase64url (codec.toBase64url text) = text
  nonempty : ∀ a b, codec.toBase64url (codec.stringify a b) ≠ ""

/-- `Buffer.from(JSON.stringify([date.toISOString(), id])).toString("base64url")`. -/
def encodeCursor (codec : CursorCodec) (cursor : Cursor) : String :=
  codec.toBase64url (codec.stringify (codec.toISOString cursor.date) cursor.id)

def decodeCursor (codec : CursorCodec) (text : String) : Except HttpException Cursor :=
  match codec.parse (codec.fromBase64url text) with
  | some (.array (.string date :: .string id :: _)) =>
      match codec.parseDate date with
      | some date => .ok ⟨date, id⟩
      | none => .error (BadRequestException "Invalid cursor")
  | _ => .error (BadRequestException "Invalid cursor")

def encodePlanCursor (codec : CursorCodec) (cursor : Cursor) : String := encodeCursor codec cursor

def decodePlanCursor (codec : CursorCodec) (cursor : String) : Except HttpException Cursor :=
  decodeCursor codec cursor

def encodeMessageCursor (codec : CursorCodec) (createdAt : Date) (id : Id) : String :=
  encodeCursor codec ⟨createdAt, id⟩

def decodeMessageCursor (codec : CursorCodec) (cursor : String) : Except HttpException Cursor :=
  decodeCursor codec cursor

theorem decodeCursor_encodeCursor {codec : CursorCodec} (h : codec.Lawful) (cursor : Cursor) :
    decodeCursor codec (encodeCursor codec cursor) = .ok cursor := by
  unfold decodeCursor encodeCursor
  rw [h.base64url, h.json]
  dsimp only
  rw [h.iso]

/-- A cursor is never mistaken for no cursor. -/
theorem orNull_encodeCursor {codec : CursorCodec} (h : codec.Lawful) (cursor : Cursor) :
    orNull (encodeCursor codec cursor) = some (encodeCursor codec cursor) :=
  if_neg (h.nonempty _ _)

/-! ## Dates in queries -/

def isDigit (c : Char) : Bool := '0' ≤ c && c ≤ '9'

/-- `/^\d{4}-\d{2}-\d{2}$/`. -/
def isDateOnly (value : String) : Bool :=
  match value.toList with
  | [a, b, c, d, '-', e, f, '-', g, h] => [a, b, c, d, e, f, g, h].all isDigit
  | _ => false

/-- The end of the day, when no time is given. -/
def parsePlanToDate (codec : CursorCodec) (value : String) : Option Date :=
  if isDateOnly value then codec.parseDate (value ++ "T23:59:59.999Z") else codec.parseDate value

/-- `value.toISOString().slice(0, 10)`. -/
def formatDateOnly (codec : CursorCodec) (value : Date) : String :=
  String.ofList ((codec.toISOString value).toList.take 10)

/-! ## A codec

Any injective texts would do; this codec writes one cursor as the runtime does.
-/

/-- A date in strokes. -/
def dateText : Int → String
  | .ofNat n => String.ofList (List.replicate n '|')
  | .negSucc n => String.ofList ('-' :: List.replicate n '|')

def readDate (text : String) : Option Int :=
  match text.toList with
  | '-' :: strokes => some (.negSucc strokes.length)
  | strokes => some (.ofNat strokes.length)

theorem readDate_dateText (d : Int) : readDate (dateText d) = some d := by
  cases d with
  | ofNat n => cases n <;> simp [readDate, dateText, List.replicate_succ]
  | negSucc n => simp [readDate, dateText]

/-- The length of `a` in strokes tells where it ends. -/
def joinTexts (a b : String) : String :=
  String.ofList (List.replicate a.toList.length '|' ++ '.' :: (a.toList ++ b.toList))

def splitTexts (text : String) : String × String :=
  let n := (text.toList.takeWhile (· == '|')).length
  let rest := text.toList.drop (n + 1)
  (String.ofList (rest.take n), String.ofList (rest.drop n))

theorem splitTexts_joinTexts (a b : String) : splitTexts (joinTexts a b) = (a, b) := by
  have hstrokes : ((List.replicate a.toList.length '|' ++ '.' :: (a.toList ++ b.toList)).takeWhile
      (· == '|')).length = a.toList.length := by
    rw [List.takeWhile_append_of_pos (by simp)]
    simp
  unfold splitTexts joinTexts
  dsimp only
  rw [String.toList_ofList, hstrokes]
  have hrest : (List.replicate a.toList.length '|' ++ '.' :: (a.toList ++ b.toList)).drop
      (a.toList.length + 1) = a.toList ++ b.toList := by
    rw [List.drop_append]
    simp
  rw [hrest]
  simp

def codecAt (date : Date) (iso : String) (id : Id) (json base64url : String) : CursorCodec where
  toISOString d := Equiv.swap (dateText date) iso (dateText d)
  parseDate text := readDate (Equiv.swap (dateText date) iso text)
  stringify a b := Equiv.swap (joinTexts iso id) json (joinTexts a b)
  parse text :=
    let (a, b) := splitTexts (Equiv.swap (joinTexts iso id) json text)
    some (.array [.string a, .string b])
  toBase64url text := Equiv.swap json base64url text
  fromBase64url text := Equiv.swap json base64url text

theorem lawful_codecAt (date : Date) (iso : String) (id : Id) {json base64url : String}
    (hjson : json ≠ "") (hbase : base64url ≠ "") :
    (codecAt date iso id json base64url).Lawful where
  iso d := by simp [codecAt, readDate_dateText]
  json a b := by simp [codecAt, splitTexts_joinTexts]
  base64url text := by simp [codecAt]
  nonempty a b := by
    have hswap : ∀ x y z : String, x ≠ "" → y ≠ "" → z ≠ "" → Equiv.swap x y z ≠ "" := by
      intro x y z hx hy hz
      rw [Equiv.swap_apply_def]
      split
      · exact hy
      · split
        · exact hx
        · exact hz
    have hjoin : ∀ a b, joinTexts a b ≠ "" := by
      intro a b h
      have hlist := congrArg String.toList h
      simp [joinTexts] at hlist
    exact hswap _ _ _ hjson hbase (hswap _ _ _ (hjoin _ _) hjson (hjoin _ _))

end Feca.Social
