import Feca.Imports.Zip

/-! # Archives as they are read

The reader gives back every JSON file of a standard archive, provided the end
record it finds is the archive's own: it takes the last signature of the buffer,
and a comment may hold one.
-/

namespace Feca.Imports

open Binary
open Social (HttpException)

section Reading

variable {Deflates : Bytes → Bytes → Prop}

/-! ## The end record -/

/-- No signature of an end record stands behind the archive's own, with room for one. -/
def ZipArchive.EndRecordIsLast (archive : ZipArchive Deflates) : Prop :=
  ∀ p, archive.endOffset < p → p + 22 ≤ archive.bytes.length →
    isEndRecord archive.bytes p = false

theorem ZipArchive.isEndRecord_endOffset (archive : ZipArchive Deflates) :
    isEndRecord archive.bytes archive.endOffset = true := by
  have hread : readUInt32LE archive.bytes archive.endOffset = endRecordSignature :=
    readUInt32LE_first archive.endRecord_standsAt
  exact beq_iff_eq.mpr hread

/-- The search finds the archive's own end record exactly when it is the last one. -/
theorem ZipArchive.findEnd_iff (archive : ZipArchive Deflates) :
    findEndOfCentralDirectory archive.bytes = some archive.endOffset ↔
      archive.EndRecordIsLast := by
  have hlength := archive.bytes_length
  have hcomment := archive.comment_fits
  have hown := archive.isEndRecord_endOffset
  have hlong : ¬ archive.bytes.length < 22 := by omega
  rw [findEndOfCentralDirectory, if_neg hlong, scanBack_eq_some]
  constructor
  · intro h p hp hroom
    exact h.2.2.2 p hp (by omega)
  · intro hlast
    have hlow : archive.bytes.length - 65557 ≤ archive.endOffset := by omega
    have hhigh : archive.endOffset < archive.bytes.length - 22 + 1 := by omega
    exact ⟨hlow, hhigh, hown, fun p hp hstop => hlast p hp (by omega)⟩

/-! ## One file -/

def ZipFile.entry (file : ZipFile Deflates) : ZipEntry where
  name := file.name
  method := file.method.code
  compressedSize := file.packed.length
  uncompressedSize := file.content.length
  localHeaderOffset := file.offset

/-- What the reader relies on: text comes back from its bytes, and a deflate stream
inflates to its content within the limit. -/
structure ArchiveEnv.Undoes (env : ArchiveEnv) (Deflates : Bytes → Bytes → Prop) : Prop where
  decodes : ∀ text, env.decodeUtf8 (utf8 text) = text
  inflates : ∀ content packed limit, Deflates content packed → content.length ≤ limit →
    env.inflateRawSync packed limit = some content

structure ZipMember.WithinLimits (member : ZipMember Deflates) : Prop where
  packed : member.packed.length ≤ MAX_ARCHIVE_DOWNLOAD_BYTES
  content : member.content.length ≤ MAX_JSON_ENTRY_BYTES

theorem entryEnd_eq {buffer : Bytes} {cursor : Nat} {file : ZipFile Deflates}
    (h : StandsAt buffer cursor file.centralRecord) :
    entryEnd buffer cursor = cursor + file.centralRecord.length := by
  have hname : readUInt16LE buffer (cursor + 28) = (utf8 file.name).length :=
    readUInt16LE_field h.left file.centralHeader_layout 10 rfl rfl
  have hextra : readUInt16LE buffer (cursor + 30) = file.extra.length :=
    readUInt16LE_field h.left file.centralHeader_layout 11 rfl rfl
  have hcomment : readUInt16LE buffer (cursor + 32) = file.comment.length :=
    readUInt16LE_field h.left file.centralHeader_layout 12 rfl rfl
  rw [entryEnd, hname, hextra, hcomment, file.centralRecord_length]
  omega

/-- The directory's entry of a file is what was written of it. -/
theorem readDirectoryEntry_eq {env : ArchiveEnv} (hundo : env.Undoes Deflates) {buffer : Bytes}
    {cursor : Nat} {file : ZipFile Deflates} (h : StandsAt buffer cursor file.centralRecord)
    (hwithin : file.WithinLimits) :
    readDirectoryEntry env buffer cursor = .ok file.entry := by
  have hbounded := h.bounded
  have hend := entryEnd_eq h
  have hlength := file.centralRecord_length
  have hsignature : readUInt32LE buffer cursor = centralHeaderSignature :=
    readUInt32LE_first h.left
  have hmethod : readUInt16LE buffer (cursor + 10) = file.method.code :=
    readUInt16LE_field h.left file.centralHeader_layout 4 rfl rfl
  have hpacked : readUInt32LE buffer (cursor + 20) = file.packed.length :=
    readUInt32LE_field h.left file.centralHeader_layout 8 rfl rfl
  have hcontent : readUInt32LE buffer (cursor + 24) = file.content.length :=
    readUInt32LE_field h.left file.centralHeader_layout 9 rfl rfl
  have hname : readUInt16LE buffer (cursor + 28) = (utf8 file.name).length :=
    readUInt16LE_field h.left file.centralHeader_layout 10 rfl rfl
  have hoffset : readUInt32LE buffer (cursor + 42) = file.offset :=
    readUInt32LE_field h.left file.centralHeader_layout 16 rfl rfl
  have hslice : slice buffer (cursor + 46) (cursor + 46 + (utf8 file.name).length) =
      utf8 file.name := by
    have hthere := h.right.left
    rw [file.centralHeader_length] at hthere
    exact hthere.slice_eq
  have hheader : ¬ buffer.length < cursor + 46 := by omega
  have hrecord : ¬ buffer.length < entryEnd buffer cursor := by omega
  have hsizes : ¬ (MAX_ARCHIVE_DOWNLOAD_BYTES < file.packed.length ∨
      MAX_JSON_ENTRY_BYTES < file.content.length) := by
    have hpackedLimit := hwithin.packed
    have hcontentLimit := hwithin.content
    omega
  rw [readDirectoryEntry, if_neg hheader, if_neg (not_not_intro hsignature), if_neg hrecord,
    hpacked, hcontent, if_neg hsizes, hname, hslice, hundo.decodes, hmethod, hoffset]
  rfl

theorem extractEntry_eq {env : ArchiveEnv} (hundo : env.Undoes Deflates)
    {file : ZipFile Deflates} (hwithin : file.WithinLimits) :
    extractEntry env file.entry file.packed = .ok file.content := by
  have hlimit : ¬ MAX_JSON_ENTRY_BYTES < file.content.length := Nat.not_lt.mpr hwithin.content
  have hpacks := file.packs
  cases hmethod : file.method with
  | stored =>
    rw [hmethod] at hpacks
    have hcode : file.entry.method = 0 := by rw [ZipFile.entry, hmethod, Method.code]
    have hpacked : file.packed = file.content := hpacks
    rw [extractEntry, if_pos hcode, hpacked, if_neg hlimit]
  | deflated =>
    rw [hmethod] at hpacks
    have hcode : file.entry.method = 8 := by rw [ZipFile.entry, hmethod, Method.code]
    have hinflate := hundo.inflates _ _ _ hpacks hwithin.content
    have hsize : ¬ (MAX_JSON_ENTRY_BYTES < file.content.length ∨
        (0 < file.entry.uncompressedSize ∧
          file.content.length ≠ file.entry.uncompressedSize)) := by
      intro h
      cases h with
      | inl hlong => exact hlimit hlong
      | inr hother => exact hother.2 rfl
    simp only [extractEntry, hcode, inflateEntry, hinflate, if_neg hsize]
    rfl

/-- Behind a file's local header stands its own content. -/
theorem readZipEntryBuffer_eq {env : ArchiveEnv} (hundo : env.Undoes Deflates) {buffer : Bytes}
    {file : ZipFile Deflates} (h : StandsAt buffer file.offset file.localRecord)
    (hwithin : file.WithinLimits) :
    readZipEntryBuffer env buffer file.entry = .ok file.content := by
  have hbounded := h.bounded
  have hthere := h.right.right
  rw [file.localHeader_length] at hthere
  have hoffset : file.entry.localHeaderOffset = file.offset := rfl
  have hsize : file.entry.compressedSize = file.packed.length := rfl
  have hsignature : readUInt32LE buffer file.offset = localHeaderSignature :=
    readUInt32LE_first h.left
  have hname : readUInt16LE buffer (file.offset + 26) = (utf8 file.name).length :=
    readUInt16LE_field h.left file.localHeader_layout 9 rfl rfl
  have hextra : readUInt16LE buffer (file.offset + 28) = file.localExtra.length :=
    readUInt16LE_field h.left file.localHeader_layout 10 rfl rfl
  have hstart : dataStart buffer file.offset =
      file.offset + 30 + (utf8 file.name ++ file.localExtra).length := by
    rw [dataStart, hname, hextra, List.length_append]
    omega
  have hlength : file.localRecord.length =
      30 + ((utf8 file.name ++ file.localExtra).length + file.packed.length) := by
    simp only [ZipMember.localRecord, List.length_append, file.localHeader_length]
  have hroom : ¬ buffer.length < file.offset + 30 := by omega
  have hdata : ¬ buffer.length < dataStart buffer file.offset + file.packed.length := by omega
  have hslice : slice buffer (dataStart buffer file.offset)
      (dataStart buffer file.offset + file.packed.length) = file.packed := by
    rw [hstart]
    exact hthere.slice_eq
  simp only [readZipEntryBuffer, hoffset, hsize]
  rw [if_neg hroom, if_neg (not_not_intro hsignature), if_neg hdata, hslice]
  exact extractEntry_eq hundo hwithin

/-! ## The whole archive -/

theorem readDirectory_eq {env : ArchiveEnv} (hundo : env.Undoes Deflates) {buffer : Bytes}
    {files : List (ZipFile Deflates)} {cursor : Nat}
    (h : StandsAt buffer cursor (directory files))
    (hwithin : ∀ file ∈ files, file.WithinLimits) :
    readDirectory env buffer files.length cursor = .ok (files.map ZipFile.entry) := by
  induction files generalizing cursor with
  | nil => rfl
  | cons file files ih =>
    have hentry := readDirectoryEntry_eq hundo h.left (hwithin file List.mem_cons_self)
    have hnext := entryEnd_eq h.left
    have hrest := ih h.right fun other hmem => hwithin other (List.mem_cons_of_mem file hmem)
    rw [List.length_cons, readDirectory, hentry, hnext]
    simp only [bind, Except.bind, hrest]
    rfl

def jsonFiles (env : ArchiveEnv) (files : List (ZipFile Deflates)) : List (ZipFile Deflates) :=
  files.filter fun file => isJsonName env file.name

/-- How much the JSON files hold together. -/
def jsonBytes (env : ArchiveEnv) (files : List (ZipFile Deflates)) : Nat :=
  ((jsonFiles env files).map fun file => file.content.length).sum

/-- What is to be read: the JSON files with valid content, in the directory's order. -/
def documentsOf (env : ArchiveEnv) (source : String) (files : List (ZipFile Deflates)) :
    List GoogleDataArchiveDocument :=
  (jsonFiles env files).filterMap fun file => documentOf env source file.name file.content

theorem jsonFiles_cons {env : ArchiveEnv} {file : ZipFile Deflates}
    {files : List (ZipFile Deflates)} (hjson : isJsonName env file.name = true) :
    jsonFiles env (file :: files) = file :: jsonFiles env files :=
  List.filter_cons_of_pos hjson

theorem jsonFiles_skip {env : ArchiveEnv} {file : ZipFile Deflates}
    {files : List (ZipFile Deflates)} (hjson : ¬ isJsonName env file.name = true) :
    jsonFiles env (file :: files) = jsonFiles env files :=
  List.filter_cons_of_neg hjson

theorem documentsOf_cons {env : ArchiveEnv} {source : String} {file : ZipFile Deflates}
    {files : List (ZipFile Deflates)} (hjson : isJsonName env file.name = true) :
    documentsOf env source (file :: files) =
      (documentOf env source file.name file.content).toList ++ documentsOf env source files := by
  rw [documentsOf, jsonFiles_cons hjson, List.filterMap_cons]
  cases documentOf env source file.name file.content with
  | none => rfl
  | some document => rfl

/-- The bytes extracted so far and those still to come stay within the limit: the loop
runs through. -/
theorem parseEntries_eq {env : ArchiveEnv} (hundo : env.Undoes Deflates) {source : String}
    {buffer : Bytes} {files : List (ZipFile Deflates)} {extractedBytes : Nat}
    (hstands : ∀ file ∈ files, StandsAt buffer file.offset file.localRecord)
    (hwithin : ∀ file ∈ files, file.WithinLimits)
    (hlimit : extractedBytes + jsonBytes env files ≤ MAX_EXTRACTED_BYTES) :
    parseEntries env source buffer extractedBytes (files.map ZipFile.entry) =
      .ok (documentsOf env source files) := by
  induction files generalizing extractedBytes with
  | nil => rfl
  | cons file files ih =>
    have hstands' : ∀ other ∈ files, StandsAt buffer other.offset other.localRecord :=
      fun other hmem => hstands other (List.mem_cons_of_mem file hmem)
    have hwithin' : ∀ other ∈ files, other.WithinLimits :=
      fun other hmem => hwithin other (List.mem_cons_of_mem file hmem)
    rw [List.map_cons, parseEntries]
    by_cases hjson : isJsonName env file.name = true
    · have hbuffer := readZipEntryBuffer_eq hundo (hstands file List.mem_cons_self)
        (hwithin file List.mem_cons_self)
      have hbytes : jsonBytes env (file :: files) =
          file.content.length + jsonBytes env files := by
        rw [jsonBytes, jsonFiles_cons hjson, List.map_cons, List.sum_cons]
        rfl
      have hrestLimit : extractedBytes + file.content.length + jsonBytes env files ≤
          MAX_EXTRACTED_BYTES := by omega
      have hroom : ¬ MAX_EXTRACTED_BYTES < extractedBytes + file.content.length := by omega
      have hrest := ih hstands' hwithin' hrestLimit
      have hentry : isJsonName env file.entry.name = true := hjson
      rw [if_pos hentry, hbuffer]
      simp only [bind, Except.bind]
      rw [if_neg hroom, hrest, documentsOf_cons hjson]
      rfl
    · have hbytes : jsonBytes env (file :: files) = jsonBytes env files := by
        rw [jsonBytes, jsonFiles_skip hjson, jsonBytes]
      have hentry : ¬ isJsonName env file.entry.name = true := hjson
      have hskip : documentsOf env source (file :: files) = documentsOf env source files := by
        rw [documentsOf, jsonFiles_skip hjson, documentsOf]
      rw [if_neg hentry, hskip]
      exact ih hstands' hwithin' (by omega)

structure ZipArchive.WithinLimits (archive : ZipArchive Deflates) (env : ArchiveEnv) : Prop where
  count : archive.files.length ≤ MAX_ZIP_ENTRIES
  files : ∀ file ∈ archive.files, file.WithinLimits
  extracted : jsonBytes env archive.files ≤ MAX_EXTRACTED_BYTES

/-- At its own end record the archive is read back whole. -/
theorem parseZip_of_findEnd {env : ArchiveEnv} (hundo : env.Undoes Deflates)
    {archive : ZipArchive Deflates} (hwithin : archive.WithinLimits env) (source : String)
    (hfind : findEndOfCentralDirectory archive.bytes = some archive.endOffset) :
    parseZip env source archive.bytes = .ok (documentsOf env source archive.files) := by
  have hcount : readUInt16LE archive.bytes (archive.endOffset + 10) = archive.files.length :=
    readUInt16LE_field archive.endRecord_standsAt archive.endRecord_layout 4 rfl rfl
  have hstart : readUInt32LE archive.bytes (archive.endOffset + 16) = archive.body.length :=
    readUInt32LE_field archive.endRecord_standsAt archive.endRecord_layout 6 rfl rfl
  have hfew : ¬ MAX_ZIP_ENTRIES < archive.files.length := Nat.not_lt.mpr hwithin.count
  have hentries : readZipEntries env archive.bytes = .ok (archive.files.map ZipFile.entry) := by
    simp only [readZipEntries, hfind, hcount, hstart]
    rw [if_neg hfew]
    exact readDirectory_eq hundo archive.directory_standsAt hwithin.files
  have hlimit : 0 + jsonBytes env archive.files ≤ MAX_EXTRACTED_BYTES := by
    rw [Nat.zero_add]
    exact hwithin.extracted
  rw [parseZip, hentries]
  exact parseEntries_eq hundo (fun file hmem => archive.file_standsAt hmem) hwithin.files hlimit

end Reading

/-! ## Two archives -/

/-- A deflate stream of one block that is not compressed. -/
def storedBlock (content : Bytes) : Bytes :=
  1 :: (littleEndian 2 content.length ++ littleEndian 2 (65535 - content.length)) ++ content

def OneBlock (content packed : Bytes) : Prop :=
  content.length < 65536 ∧ packed = storedBlock content

def blockEnv : ArchiveEnv where
  toLowerCase := fun text => text
  decodeUtf8 := fun bytes => (String.fromUTF8? ⟨bytes.toArray⟩).getD "\uFFFD"
  inflateRawSync := fun packed limit =>
    let content := packed.drop 5
    if content.length < 65536 ∧ packed = storedBlock content ∧ content.length ≤ limit then
      some content
    else none
  parseJson := fun text =>
    if text = "\x7b\x7d" then some (.object [])
    else if text = "[]" then some (.array [])
    else none

theorem blockEnv_undoes : blockEnv.Undoes OneBlock where
  decodes := by
    intro text
    simp only [blockEnv, utf8_decodes, Option.getD_some]
  inflates := by
    intro content packed limit hpacked hlimit
    have hdrop : (storedBlock content).drop 5 = content := rfl
    rw [hpacked.2]
    simp only [blockEnv, hdrop, hpacked.1, hlimit, and_self, if_true]

/-- `a.json` with an empty object, deflated. -/
def note : ZipMember OneBlock where
  name := "a.json"
  content := [123, 125]
  method := .deflated
  packed := storedBlock [123, 125]
  packs := ⟨by decide, rfl⟩
  name_fits := by decide
  localExtra_fits := by decide
  extra_fits := by decide
  comment_fits := by decide
  packed_fits := by decide
  content_fits := by decide

/-- `b.json` with an empty list, stored as it is. -/
def emptyList : ZipMember OneBlock where
  name := "b.json"
  content := [91, 93]
  method := .stored
  packed := [91, 93]
  packs := rfl
  name_fits := by decide
  localExtra_fits := by decide
  extra_fits := by decide
  comment_fits := by decide
  packed_fits := by decide
  content_fits := by decide

/-- Both files, and a comment. -/
def plain : ZipArchive OneBlock :=
  pack [note, emptyList] (utf8 "Guardados") (by decide) (by decide) (by decide) (by decide)

/-- A comment that is an empty archive. -/
def endOfNothing : Bytes := littleEndian 4 endRecordSignature ++ List.replicate 18 0

def decoy : ZipArchive OneBlock :=
  pack [note] endOfNothing (by decide) (by decide) (by decide) (by decide)

def noteFile : ZipFile OneBlock where
  toZipMember := note
  offset := 0
  offset_fits := by decide

def listFile : ZipFile OneBlock where
  toZipMember := emptyList
  offset := 43
  offset_fits := by decide

theorem withinLimits_noteFile : noteFile.WithinLimits := ⟨by decide, by decide⟩

theorem withinLimits_listFile : listFile.WithinLimits := ⟨by decide, by decide⟩

theorem within_plain : plain.WithinLimits blockEnv where
  count := by decide
  files := by
    intro file hmem
    have hfiles : file = noteFile ∨ file = listFile := by
      simpa using (show file ∈ [noteFile, listFile] from hmem)
    rcases hfiles with rfl | rfl
    · exact withinLimits_noteFile
    · exact withinLimits_listFile
  extracted := by decide

theorem within_decoy : decoy.WithinLimits blockEnv where
  count := by decide
  files := by
    intro file hmem
    rw [List.mem_singleton.mp (show file ∈ [noteFile] from hmem)]
    exact withinLimits_noteFile
  extracted := by decide

/-- What is to be read of `a.json`. -/
def noteDocument : GoogleDataArchiveDocument where
  source := "takeout#a.json"
  payload := .object []

def listDocument : GoogleDataArchiveDocument where
  source := "takeout#b.json"
  payload := .array []

theorem documentOf_note :
    documentOf blockEnv "takeout" noteFile.name noteFile.content = some noteDocument := by
  have hutf8 : utf8 "\x7b\x7d" = noteFile.content := by decide
  have hpayload : blockEnv.parseJson "\x7b\x7d" = some (.object []) := by simp [blockEnv]
  rw [documentOf, ← hutf8, blockEnv_undoes.decodes, hpayload]
  rfl

theorem documentOf_list :
    documentOf blockEnv "takeout" listFile.name listFile.content = some listDocument := by
  have hutf8 : utf8 "[]" = listFile.content := by decide
  have hpayload : blockEnv.parseJson "[]" = some (.array []) := by simp [blockEnv]
  rw [documentOf, ← hutf8, blockEnv_undoes.decodes, hpayload]
  rfl

theorem documentsOf_note : documentsOf blockEnv "takeout" [noteFile] = [noteDocument] := by
  have hname : isJsonName blockEnv noteFile.name = true := by decide
  rw [documentsOf_cons hname, documentOf_note]
  rfl

theorem documentsOf_both :
    documentsOf blockEnv "takeout" [noteFile, listFile] = [noteDocument, listDocument] := by
  have hnote : isJsonName blockEnv noteFile.name = true := by decide
  have hlist : isJsonName blockEnv listFile.name = true := by decide
  rw [documentsOf_cons hnote, documentsOf_cons hlist, documentOf_note, documentOf_list]
  rfl

/-! ## Reading back -/

/-- A standard archive within the limits is read back exactly, each JSON file with its own
content in the directory's order, when no later signature hides its end record; and the
search finds that record in no other case. -/
theorem zip_reads_back {Deflates : Bytes → Bytes → Prop} {env : ArchiveEnv}
    (hundo : env.Undoes Deflates) {archive : ZipArchive Deflates}
    (hwithin : archive.WithinLimits env) (source : String) :
    (findEndOfCentralDirectory archive.bytes = some archive.endOffset ↔
        archive.EndRecordIsLast) ∧
      (archive.EndRecordIsLast → parseZip env source archive.bytes =
        .ok (documentsOf env source archive.files)) := by
  constructor
  · exact archive.findEnd_iff
  · intro hlast
    have hfind := archive.findEnd_iff.mpr hlast
    exact parseZip_of_findEnd hundo hwithin source hfind

theorem plain_reads_back :
    plain.EndRecordIsLast ∧
      parseZip blockEnv "takeout" plain.bytes = .ok [noteDocument, listDocument] := by
  have hread := zip_reads_back blockEnv_undoes within_plain "takeout"
  have hlast : plain.EndRecordIsLast := hread.1.mp (by decide +kernel)
  have hdocuments : documentsOf blockEnv "takeout" plain.files = [noteDocument, listDocument] :=
    documentsOf_both
  rw [hdocuments] at hread
  exact ⟨hlast, hread.2 hlast⟩

/-- The signature in the comment is taken for the end record, and the file is lost without
an error. -/
theorem comment_hides_the_file :
    blockEnv.Undoes OneBlock ∧ decoy.WithinLimits blockEnv ∧
      documentsOf blockEnv "takeout" decoy.files = [noteDocument] ∧
      parseZip blockEnv "takeout" decoy.bytes = .ok [] := by
  have hend : findEndOfCentralDirectory decoy.bytes = some (decoy.endOffset + 22) := by
    decide +kernel
  have hcount : readUInt16LE decoy.bytes (decoy.endOffset + 22 + 10) = 0 := by
    decide
  have hentries : readZipEntries blockEnv decoy.bytes = .ok [] := by
    simp only [readZipEntries, hend, hcount]
    rfl
  refine ⟨blockEnv_undoes, within_decoy, documentsOf_note, ?_⟩
  rw [parseZip, hentries]
  rfl

end Feca.Imports
