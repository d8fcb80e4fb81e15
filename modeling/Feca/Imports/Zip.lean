import Feca.Imports.Archive

/-! # Archives as they are written

A standard archive is its files' records, the directory over them and an end
record with a comment. The records stand anywhere in front of the directory;
`pack` writes them one behind the other.
-/

namespace Feca.Imports

open Binary

/-! ## The format -/

inductive Method
  | stored
  | deflated
  deriving DecidableEq

def Method.code : Method → Nat
  | .stored => 0
  | .deflated => 8

theorem Method.code_fits (method : Method) : method.code < 65536 := by
  cases method <;> decide

/-- A stored content is packed as it is, a deflated one as any stream of it. -/
def Method.Packs (Deflates : Bytes → Bytes → Prop) (content packed : Bytes) : Method → Prop
  | .stored => packed = content
  | .deflated => Deflates content packed

def utf8 (text : String) : Bytes := text.toByteArray.data.toList

theorem utf8_decodes (text : String) : String.fromUTF8? ⟨(utf8 text).toArray⟩ = some text := by
  have hbytes : (⟨(utf8 text).toArray⟩ : ByteArray) = text.toByteArray := by simp [utf8]
  have hvalid : text.toByteArray.IsValidUTF8 := text.isValidUTF8
  rw [hbytes, String.fromUTF8?, dif_pos hvalid]
  rfl

/-- What a header says besides: nothing of it is read. -/
structure Stamp where
  version : UInt16 := 20
  flags : UInt16 := 0
  time : UInt16 := 0
  date : UInt16 := 0
  crc32 : UInt32 := 0

/-- A named file and how it is packed. The sizes in a local header may be left for a
data descriptor behind it. -/
structure ZipMember (Deflates : Bytes → Bytes → Prop) where
  name : String
  content : Bytes
  method : Method
  packed : Bytes
  localStamp : Stamp := {}
  localSizes : UInt32 × UInt32 := (0, 0)
  localExtra : Bytes := []
  stamp : Stamp := {}
  versionMadeBy : UInt16 := 20
  internalAttributes : UInt16 := 0
  externalAttributes : UInt32 := 0
  extra : Bytes := []
  comment : Bytes := []
  packs : method.Packs Deflates content packed
  name_fits : (utf8 name).length < 65536
  localExtra_fits : localExtra.length < 65536
  extra_fits : extra.length < 65536
  comment_fits : comment.length < 65536
  packed_fits : packed.length < 4294967296
  content_fits : content.length < 4294967296

/-- A file at its place in the archive. -/
structure ZipFile (Deflates : Bytes → Bytes → Prop) extends ZipMember Deflates where
  offset : Nat
  offset_fits : offset < 4294967296

section Format

variable {Deflates : Bytes → Bytes → Prop}

def ZipMember.localHeader (member : ZipMember Deflates) : List Field :=
  [u32 localHeaderSignature (by decide), anyU16 member.localStamp.version,
    anyU16 member.localStamp.flags, u16 member.method.code member.method.code_fits,
    anyU16 member.localStamp.time, anyU16 member.localStamp.date,
    anyU32 member.localStamp.crc32, anyU32 member.localSizes.1, anyU32 member.localSizes.2,
    u16 (utf8 member.name).length member.name_fits,
    u16 member.localExtra.length member.localExtra_fits]

def ZipMember.localRecord (member : ZipMember Deflates) : Bytes :=
  record member.localHeader ++ ((utf8 member.name ++ member.localExtra) ++ member.packed)

def ZipFile.centralHeader (file : ZipFile Deflates) : List Field :=
  [u32 centralHeaderSignature (by decide), anyU16 file.versionMadeBy,
    anyU16 file.stamp.version, anyU16 file.stamp.flags,
    u16 file.method.code file.method.code_fits, anyU16 file.stamp.time,
    anyU16 file.stamp.date, anyU32 file.stamp.crc32,
    u32 file.packed.length file.packed_fits, u32 file.content.length file.content_fits,
    u16 (utf8 file.name).length file.name_fits, u16 file.extra.length file.extra_fits,
    u16 file.comment.length file.comment_fits, u16 0 (by decide),
    anyU16 file.internalAttributes, anyU32 file.externalAttributes,
    u32 file.offset file.offset_fits]

def ZipFile.centralRecord (file : ZipFile Deflates) : Bytes :=
  record file.centralHeader ++ (utf8 file.name ++ (file.extra ++ file.comment))

/-- The widths of a local header, of a header of the directory and of the end record. -/
def localLayout : List Nat := [4, 2, 2, 2, 2, 2, 4, 4, 4, 2, 2]
def centralLayout : List Nat := [4, 2, 2, 2, 2, 2, 2, 4, 4, 4, 2, 2, 2, 2, 2, 4, 4]
def endLayout : List Nat := [4, 2, 2, 2, 2, 4, 4, 2]

theorem ZipMember.localHeader_layout (member : ZipMember Deflates) :
    layout member.localHeader = localLayout := rfl

theorem ZipFile.centralHeader_layout (file : ZipFile Deflates) :
    layout file.centralHeader = centralLayout := rfl

def directory (files : List (ZipFile Deflates)) : Bytes := files.flatMap ZipFile.centralRecord

/-- The files' records stand anywhere in the body, in any order. -/
structure ZipArchive (Deflates : Bytes → Bytes → Prop) where
  body : Bytes
  files : List (ZipFile Deflates)
  comment : Bytes
  placed : ∀ file ∈ files, StandsAt body file.offset file.localRecord
  count_fits : files.length < 65536
  size_fits : body.length + (directory files).length < 4294967296
  comment_fits : comment.length < 65536

def ZipArchive.endRecord (archive : ZipArchive Deflates) : List Field :=
  [u32 endRecordSignature (by decide), u16 0 (by decide), u16 0 (by decide),
    u16 archive.files.length archive.count_fits, u16 archive.files.length archive.count_fits,
    u32 (directory archive.files).length
      (Nat.lt_of_le_of_lt (Nat.le_add_left _ _) archive.size_fits),
    u32 archive.body.length (Nat.lt_of_le_of_lt (Nat.le_add_right _ _) archive.size_fits),
    u16 archive.comment.length archive.comment_fits]

theorem ZipArchive.endRecord_layout (archive : ZipArchive Deflates) :
    layout archive.endRecord = endLayout := rfl

def ZipArchive.endOffset (archive : ZipArchive Deflates) : Nat :=
  archive.body.length + (directory archive.files).length

def ZipArchive.bytes (archive : ZipArchive Deflates) : Bytes :=
  archive.body ++ (directory archive.files ++ (record archive.endRecord ++ archive.comment))

/-! ## Where the records stand -/

theorem readUInt16LE_field {buffer : Bytes} {offset place number : Nat} {fields : List Field}
    {widths : List Nat} {fits : number < 65536} (h : StandsAt buffer offset (record fields))
    (hlayout : layout fields = widths) (k : Nat)
    (hfield : fields[k]? = some (u16 number fits)) (hplace : (widths.take k).sum = place) :
    readUInt16LE buffer (offset + place) = number := by
  rw [← hplace, ← hlayout]
  exact h.field k hfield

theorem readUInt32LE_field {buffer : Bytes} {offset place number : Nat} {fields : List Field}
    {widths : List Nat} {fits : number < 4294967296} (h : StandsAt buffer offset (record fields))
    (hlayout : layout fields = widths) (k : Nat)
    (hfield : fields[k]? = some (u32 number fits)) (hplace : (widths.take k).sum = place) :
    readUInt32LE buffer (offset + place) = number := by
  rw [← hplace, ← hlayout]
  exact h.field k hfield

theorem readUInt32LE_first {buffer : Bytes} {offset number : Nat} {fields : List Field}
    {fits : number < 4294967296}
    (h : StandsAt buffer offset (record (u32 number fits :: fields))) :
    readUInt32LE buffer offset = number :=
  readUInt32LE_field h rfl 0 rfl rfl

theorem ZipArchive.bytes_length (archive : ZipArchive Deflates) :
    archive.bytes.length = archive.endOffset + 22 + archive.comment.length := by
  have hend : (record archive.endRecord).length = 22 := by
    rw [record_length, archive.endRecord_layout]
    decide
  simp only [bytes, endOffset, List.length_append, hend]
  omega

theorem ZipArchive.directory_standsAt (archive : ZipArchive Deflates) :
    StandsAt archive.bytes archive.body.length (directory archive.files) :=
  (standsAt_append archive.body _).left

theorem ZipArchive.endRecord_standsAt (archive : ZipArchive Deflates) :
    StandsAt archive.bytes archive.endOffset (record archive.endRecord) :=
  (standsAt_append archive.body _).right.left

theorem ZipArchive.file_standsAt (archive : ZipArchive Deflates) {file : ZipFile Deflates}
    (hmem : file ∈ archive.files) : StandsAt archive.bytes file.offset file.localRecord :=
  (archive.placed file hmem).append _

theorem ZipFile.centralHeader_length (file : ZipFile Deflates) :
    (record file.centralHeader).length = 46 := by
  rw [record_length, file.centralHeader_layout]
  decide

theorem ZipMember.localHeader_length (member : ZipMember Deflates) :
    (record member.localHeader).length = 30 := by
  rw [record_length, member.localHeader_layout]
  decide

theorem ZipFile.centralRecord_length (file : ZipFile Deflates) :
    file.centralRecord.length =
      46 + (utf8 file.name).length + file.extra.length + file.comment.length := by
  simp only [centralRecord, List.length_append, file.centralHeader_length]
  omega

/-! ## Writing one file behind the other -/

def bodyOf (members : List (ZipMember Deflates)) : Bytes := members.flatMap ZipMember.localRecord

theorem bodyOf_cons (member : ZipMember Deflates) (members : List (ZipMember Deflates)) :
    bodyOf (member :: members) = member.localRecord ++ bodyOf members :=
  List.flatMap_cons

theorem room_behind {member : ZipMember Deflates} {members : List (ZipMember Deflates)}
    {offset : Nat} (h : offset + (bodyOf (member :: members)).length < 4294967296) :
    offset + member.localRecord.length + (bodyOf members).length < 4294967296 := by
  rw [bodyOf_cons, List.length_append] at h
  omega

/-- The files of a body that starts at an offset. -/
def place : (members : List (ZipMember Deflates)) → (offset : Nat) →
    offset + (bodyOf members).length < 4294967296 → List (ZipFile Deflates)
  | [], _, _ => []
  | member :: members, offset, h =>
    { member with
      offset := offset
      offset_fits := Nat.lt_of_le_of_lt (Nat.le_add_right _ _) h } ::
      place members (offset + member.localRecord.length) (room_behind h)

theorem place_members (members : List (ZipMember Deflates)) (offset : Nat)
    (h : offset + (bodyOf members).length < 4294967296) :
    (place members offset h).map ZipFile.toZipMember = members := by
  induction members generalizing offset with
  | nil => rfl
  | cons member members ih =>
    rw [place, List.map_cons, ih]

theorem placed_of_place (members : List (ZipMember Deflates)) (offset : Nat)
    (h : offset + (bodyOf members).length < 4294967296) (before : Bytes)
    (hbefore : before.length = offset) :
    ∀ file ∈ place members offset h,
      StandsAt (before ++ bodyOf members) file.offset file.localRecord := by
  induction members generalizing offset before with
  | nil =>
    intro file hmem
    cases hmem
  | cons member members ih =>
    intro file hmem
    rw [bodyOf_cons]
    cases hmem with
    | head =>
      have hhere := (standsAt_append before (member.localRecord ++ bodyOf members)).left
      rw [hbefore] at hhere
      exact hhere
    | tail _ hmem =>
      have hlength : (before ++ member.localRecord).length =
          offset + member.localRecord.length := by
        rw [List.length_append, hbefore]
      have hrest := ih _ (room_behind h) _ hlength file hmem
      rw [List.append_assoc] at hrest
      exact hrest

/-- `members` in this order, then the directory in the same. -/
def pack (members : List (ZipMember Deflates)) (comment : Bytes)
    (hcount : members.length < 65536) (hroom : 0 + (bodyOf members).length < 4294967296)
    (hsize : (bodyOf members).length + (directory (place members 0 hroom)).length < 4294967296)
    (hcomment : comment.length < 65536) : ZipArchive Deflates where
  body := bodyOf members
  files := place members 0 hroom
  comment := comment
  placed := placed_of_place members 0 hroom [] rfl
  count_fits := by
    have hmembers := congrArg List.length (place_members members 0 hroom)
    rw [List.length_map] at hmembers
    omega
  size_fits := hsize
  comment_fits := hcomment

end Format

end Feca.Imports
