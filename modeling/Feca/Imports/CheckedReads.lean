import Feca.Concurrency.Program
import Feca.Imports.Archive

/-! # The reads of a zip, one by one

`parseBuffer` again, with every fixed-width read as a step of its own: it throws
where Node's does, outside of the buffer. The reads, the directory entries that
are looked at and the bytes that an entry is extracted to are its events.
-/

namespace Feca.Imports.Checked

open Binary Concurrency Concurrency.Prog
open Social (HttpException)

inductive ZipEvent
  | read (offset width : Nat)
  | entry (cursor : Nat)
  | extracted (bytes : Nat)

inductive ZipThrow
  | outOfRange
  | http (exception : HttpException)

abbrev ZipProg := Prog Unit ZipEvent ZipThrow

variable {α β : Type}

/-- `readUInt16LE` and `readUInt32LE`. -/
def readUIntLE (buffer : Bytes) (width offset : Nat) : ZipProg Nat :=
  stmt fun s => ⟨s, [.read offset width],
    if offset + width ≤ buffer.length then .ok (readLE buffer offset width)
    else .error .outOfRange⟩

def readUInt16LE (buffer : Bytes) (offset : Nat) : ZipProg Nat := readUIntLE buffer 2 offset

def readUInt32LE (buffer : Bytes) (offset : Nat) : ZipProg Nat := readUIntLE buffer 4 offset

def report (event : ZipEvent) : ZipProg Unit := stmt fun s => ⟨s, [event], .ok ()⟩

def badGateway (message : String) : ZipProg α := .fail (.http (BadGatewayException message))

/-! ## The end record and the directory -/

/-- The loop over the offsets below the given one, the highest first. -/
def scanEndRecord (buffer : Bytes) (minOffset : Nat) : Nat → ZipProg (Option Nat)
  | 0 => pure none
  | offset + 1 =>
      if offset < minOffset then pure none
      else do
        let signature ← readUInt32LE buffer offset
        if signature = endRecordSignature then pure (some offset)
        else scanEndRecord buffer minOffset offset

def findEndOfCentralDirectory (buffer : Bytes) : ZipProg (Option Nat) :=
  if buffer.length < 22 then pure none
  else scanEndRecord buffer (buffer.length - 65557) (buffer.length - 22 + 1)

/-- One turn of the loop over the directory: the entry, and where the next one is. -/
def readDirectoryEntry (env : ArchiveEnv) (buffer : Bytes) (cursor : Nat) :
    ZipProg (ZipEntry × Nat) := do
  report (.entry cursor)
  if buffer.length < cursor + 46 then badGateway "Invalid Google data archive zip directory"
  else do
    let signature ← readUInt32LE buffer cursor
    if signature ≠ centralHeaderSignature then
      badGateway "Invalid Google data archive zip directory"
    else do
      let method ← readUInt16LE buffer (cursor + 10)
      let compressedSize ← readUInt32LE buffer (cursor + 20)
      let uncompressedSize ← readUInt32LE buffer (cursor + 24)
      let fileNameLength ← readUInt16LE buffer (cursor + 28)
      let extraLength ← readUInt16LE buffer (cursor + 30)
      let commentLength ← readUInt16LE buffer (cursor + 32)
      let localHeaderOffset ← readUInt32LE buffer (cursor + 42)
      let entryEnd := cursor + 46 + fileNameLength + extraLength + commentLength
      if buffer.length < entryEnd then badGateway "Invalid Google data archive zip directory"
      else if MAX_ARCHIVE_DOWNLOAD_BYTES < compressedSize ∨
          MAX_JSON_ENTRY_BYTES < uncompressedSize then
        badGateway "Google data archive entry is too large"
      else
        let name := env.decodeUtf8 (slice buffer (cursor + 46) (cursor + 46 + fileNameLength))
        pure ({ name, method, compressedSize, uncompressedSize, localHeaderOffset }, entryEnd)

def readDirectory (env : ArchiveEnv) (buffer : Bytes) : Nat → Nat → ZipProg (List ZipEntry)
  | 0, _ => pure []
  | count + 1, cursor => do
      let found ← readDirectoryEntry env buffer cursor
      let entries ← readDirectory env buffer count found.2
      pure (found.1 :: entries)

def readZipEntries (env : ArchiveEnv) (buffer : Bytes) : ZipProg (List ZipEntry) := do
  match ← findEndOfCentralDirectory buffer with
  | none => badGateway "Invalid Google data archive zip"
  | some eocdOffset => do
      let entryCount ← readUInt16LE buffer (eocdOffset + 10)
      if MAX_ZIP_ENTRIES < entryCount then badGateway "Google data archive has too many entries"
      else do
        let cursor ← readUInt32LE buffer (eocdOffset + 16)
        readDirectory env buffer entryCount cursor

/-! ## An entry's content -/

def inflateEntry (env : ArchiveEnv) (entry : ZipEntry) (compressed : Bytes) : ZipProg Bytes :=
  match env.inflateRawSync compressed MAX_JSON_ENTRY_BYTES with
  | none => badGateway "Invalid Google data archive zip entry"
  | some inflated => do
      report (.extracted inflated.length)
      if MAX_JSON_ENTRY_BYTES < inflated.length ∨
          (0 < entry.uncompressedSize ∧ inflated.length ≠ entry.uncompressedSize) then
        badGateway "Invalid Google data archive zip entry"
      else pure inflated

def extractEntry (env : ArchiveEnv) (entry : ZipEntry) (compressed : Bytes) : ZipProg Bytes :=
  if entry.method = 0 then
    if MAX_JSON_ENTRY_BYTES < compressed.length then
      badGateway "Google data archive entry is too large"
    else do
      report (.extracted compressed.length)
      pure compressed
  else if entry.method = 8 then inflateEntry env entry compressed
  else badGateway "Unsupported Google data archive zip compression"

def readZipEntryBuffer (env : ArchiveEnv) (buffer : Bytes) (entry : ZipEntry) : ZipProg Bytes := do
  let offset := entry.localHeaderOffset
  if buffer.length < offset + 30 then badGateway "Invalid Google data archive zip entry"
  else do
    let signature ← readUInt32LE buffer offset
    if signature ≠ localHeaderSignature then badGateway "Invalid Google data archive zip entry"
    else do
      let fileNameLength ← readUInt16LE buffer (offset + 26)
      let extraLength ← readUInt16LE buffer (offset + 28)
      let dataStart := offset + 30 + fileNameLength + extraLength
      let dataEnd := dataStart + entry.compressedSize
      if buffer.length < dataEnd then badGateway "Invalid Google data archive zip entry"
      else extractEntry env entry (slice buffer dataStart dataEnd)

/-! ## The documents -/

def parseEntries (env : ArchiveEnv) (source : String) (buffer : Bytes) :
    Nat → List ZipEntry → ZipProg (List GoogleDataArchiveDocument)
  | _, [] => pure []
  | extractedBytes, entry :: entries =>
      if isJsonName env entry.name then do
        let entryBuffer ← readZipEntryBuffer env buffer entry
        if MAX_EXTRACTED_BYTES < extractedBytes + entryBuffer.length then
          badGateway "Google data archive expands beyond the limit"
        else do
          let documents ← parseEntries env source buffer (extractedBytes + entryBuffer.length) entries
          pure ((documentOf env source entry.name entryBuffer).toList ++ documents)
      else parseEntries env source buffer extractedBytes entries

def parseZip (env : ArchiveEnv) (source : String) (buffer : Bytes) :
    ZipProg (List GoogleDataArchiveDocument) := do
  let entries ← readZipEntries env buffer
  parseEntries env source buffer 0 entries

def isZip (buffer : Bytes) : ZipProg Bool :=
  if 4 ≤ buffer.length then do
    let signature ← readUInt32LE buffer 0
    pure (signature == localHeaderSignature)
  else pure false

def parseBuffer (env : ArchiveEnv) (source : String) (buffer : Bytes) :
    ZipProg (List GoogleDataArchiveDocument) := do
  if ← isZip buffer then parseZip env source buffer
  else
    pure ((env.parseJson (env.decodeUtf8 buffer)).map fun payload =>
      { source, payload : GoogleDataArchiveDocument }).toList

end Feca.Imports.Checked
