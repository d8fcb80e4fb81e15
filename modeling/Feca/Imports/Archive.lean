import Feca.Binary.LittleEndian
import Feca.Imports.Parser
import Feca.Social.Statements

/-! # Reading a downloaded archive

`parseBuffer` takes a zip apart by hand: the end record is searched from the end
of the buffer, the central directory gives the entries, and each entry's bytes
stand behind its local header. Every number is read behind a check of the
buffer's length, so a read is a total function here.
-/

namespace Feca.Imports

open Binary
open Social (HttpException)

structure ArchiveEnv where
  toLowerCase : String → String
  /-- `Buffer.toString("utf8")`. -/
  decodeUtf8 : Bytes → String
  /-- `inflateRawSync` with its `maxOutputLength`; `none` where it throws. -/
  inflateRawSync : Bytes → Nat → Option Bytes
  /-- `JSON.parse`; `none` where it throws. -/
  parseJson : String → Option Json

structure ZipEntry where
  name : String
  method : Nat
  compressedSize : Nat
  uncompressedSize : Nat
  localHeaderOffset : Nat

def MAX_ARCHIVE_DOWNLOAD_BYTES : Nat := 25 * 1024 * 1024
def MAX_ZIP_ENTRIES : Nat := 5000
def MAX_JSON_ENTRY_BYTES : Nat := 20 * 1024 * 1024
def MAX_EXTRACTED_BYTES : Nat := 100 * 1024 * 1024

def BadGatewayException (message : String) : HttpException where
  status := 502
  message := message

def readUInt16LE (buffer : Bytes) (offset : Nat) : Nat := readLE buffer offset 2

def readUInt32LE (buffer : Bytes) (offset : Nat) : Nat := readLE buffer offset 4

def localHeaderSignature : Nat := 0x04034b50
def centralHeaderSignature : Nat := 0x02014b50
def endRecordSignature : Nat := 0x06054b50

/-! ## The end record and the directory -/

def isEndRecord (buffer : Bytes) (offset : Nat) : Bool :=
  readUInt32LE buffer offset == endRecordSignature

/-- `-1` is `none`; a buffer shorter than the record is not searched at all. -/
def findEndOfCentralDirectory (buffer : Bytes) : Option Nat :=
  if buffer.length < 22 then none
  else scanBack (isEndRecord buffer) (buffer.length - 65557) (buffer.length - 22 + 1)

def entryEnd (buffer : Bytes) (cursor : Nat) : Nat :=
  cursor + 46 + readUInt16LE buffer (cursor + 28) + readUInt16LE buffer (cursor + 30) +
    readUInt16LE buffer (cursor + 32)

/-- One turn of the loop over the directory. -/
def readDirectoryEntry (env : ArchiveEnv) (buffer : Bytes) (cursor : Nat) :
    Except HttpException ZipEntry :=
  if buffer.length < cursor + 46 then
    .error (BadGatewayException "Invalid Google data archive zip directory")
  else if readUInt32LE buffer cursor ≠ centralHeaderSignature then
    .error (BadGatewayException "Invalid Google data archive zip directory")
  else if buffer.length < entryEnd buffer cursor then
    .error (BadGatewayException "Invalid Google data archive zip directory")
  else if MAX_ARCHIVE_DOWNLOAD_BYTES < readUInt32LE buffer (cursor + 20) ∨
      MAX_JSON_ENTRY_BYTES < readUInt32LE buffer (cursor + 24) then
    .error (BadGatewayException "Google data archive entry is too large")
  else .ok {
    name := env.decodeUtf8 (slice buffer (cursor + 46)
      (cursor + 46 + readUInt16LE buffer (cursor + 28)))
    method := readUInt16LE buffer (cursor + 10)
    compressedSize := readUInt32LE buffer (cursor + 20)
    uncompressedSize := readUInt32LE buffer (cursor + 24)
    localHeaderOffset := readUInt32LE buffer (cursor + 42) }

def readDirectory (env : ArchiveEnv) (buffer : Bytes) :
    Nat → Nat → Except HttpException (List ZipEntry)
  | 0, _ => .ok []
  | count + 1, cursor => do
    let entry ← readDirectoryEntry env buffer cursor
    let entries ← readDirectory env buffer count (entryEnd buffer cursor)
    return entry :: entries

def readZipEntries (env : ArchiveEnv) (buffer : Bytes) : Except HttpException (List ZipEntry) :=
  match findEndOfCentralDirectory buffer with
  | none => .error (BadGatewayException "Invalid Google data archive zip")
  | some eocdOffset =>
    if MAX_ZIP_ENTRIES < readUInt16LE buffer (eocdOffset + 10) then
      .error (BadGatewayException "Google data archive has too many entries")
    else readDirectory env buffer (readUInt16LE buffer (eocdOffset + 10))
      (readUInt32LE buffer (eocdOffset + 16))

/-! ## An entry's content -/

def inflateEntry (env : ArchiveEnv) (entry : ZipEntry) (compressed : Bytes) :
    Except HttpException Bytes :=
  match env.inflateRawSync compressed MAX_JSON_ENTRY_BYTES with
  | none => .error (BadGatewayException "Invalid Google data archive zip entry")
  | some inflated =>
    if MAX_JSON_ENTRY_BYTES < inflated.length ∨
        (0 < entry.uncompressedSize ∧ inflated.length ≠ entry.uncompressedSize) then
      .error (BadGatewayException "Invalid Google data archive zip entry")
    else .ok inflated

def extractEntry (env : ArchiveEnv) (entry : ZipEntry) (compressed : Bytes) :
    Except HttpException Bytes :=
  if entry.method = 0 then
    if MAX_JSON_ENTRY_BYTES < compressed.length then
      .error (BadGatewayException "Google data archive entry is too large")
    else .ok compressed
  else if entry.method = 8 then inflateEntry env entry compressed
  else .error (BadGatewayException "Unsupported Google data archive zip compression")

def dataStart (buffer : Bytes) (offset : Nat) : Nat :=
  offset + 30 + readUInt16LE buffer (offset + 26) + readUInt16LE buffer (offset + 28)

def readZipEntryBuffer (env : ArchiveEnv) (buffer : Bytes) (entry : ZipEntry) :
    Except HttpException Bytes :=
  let offset := entry.localHeaderOffset
  if buffer.length < offset + 30 then
    .error (BadGatewayException "Invalid Google data archive zip entry")
  else if readUInt32LE buffer offset ≠ localHeaderSignature then
    .error (BadGatewayException "Invalid Google data archive zip entry")
  else
    let dataEnd := dataStart buffer offset + entry.compressedSize
    if buffer.length < dataEnd then
      .error (BadGatewayException "Invalid Google data archive zip entry")
    else extractEntry env entry (slice buffer (dataStart buffer offset) dataEnd)

/-! ## The documents -/

def isJsonName (env : ArchiveEnv) (name : String) : Bool :=
  ".json".toList.isSuffixOf (env.toLowerCase name).toList

/-- What one entry adds to the documents. -/
def documentOf (env : ArchiveEnv) (source name : String) (content : Bytes) :
    Option GoogleDataArchiveDocument :=
  (env.parseJson (env.decodeUtf8 content)).map fun payload =>
    { source := source ++ "#" ++ name, payload }

def parseEntries (env : ArchiveEnv) (source : String) (buffer : Bytes) :
    Nat → List ZipEntry → Except HttpException (List GoogleDataArchiveDocument)
  | _, [] => .ok []
  | extractedBytes, entry :: entries =>
    if isJsonName env entry.name then do
      let entryBuffer ← readZipEntryBuffer env buffer entry
      if MAX_EXTRACTED_BYTES < extractedBytes + entryBuffer.length then
        .error (BadGatewayException "Google data archive expands beyond the limit")
      else do
        let documents ←
          parseEntries env source buffer (extractedBytes + entryBuffer.length) entries
        return (documentOf env source entry.name entryBuffer).toList ++ documents
    else parseEntries env source buffer extractedBytes entries

def parseZip (env : ArchiveEnv) (source : String) (buffer : Bytes) :
    Except HttpException (List GoogleDataArchiveDocument) := do
  let entries ← readZipEntries env buffer
  parseEntries env source buffer 0 entries

def isZip (buffer : Bytes) : Bool :=
  4 ≤ buffer.length && readUInt32LE buffer 0 == localHeaderSignature

def parseBuffer (env : ArchiveEnv) (source : String) (buffer : Bytes) :
    Except HttpException (List GoogleDataArchiveDocument) :=
  if isZip buffer then parseZip env source buffer
  else .ok ((env.parseJson (env.decodeUtf8 buffer)).map fun payload =>
    { source, payload : GoogleDataArchiveDocument }).toList

end Feca.Imports
