import Feca.Imports.CheckedReads
import Feca.Imports.ZipReading

/-! # A zip of any bytes

Every read of a buffer is behind a check of its length, so none of them throws:
the reads one by one do what the total ones do. What is extracted is bounded.
-/

namespace Feca.Imports

open Binary Checked Concurrency Concurrency.Prog
open Social (HttpException)

variable {α β : Type} {env : ArchiveEnv} {buffer : Bytes}

/-- A read inside of the buffer, an entry of a size that is allowed. -/
def Checked.ZipEvent.Within (buffer : Bytes) : ZipEvent → Prop
  | .read offset width => offset + width ≤ buffer.length
  | .entry _ => True
  | .extracted bytes => bytes ≤ MAX_JSON_ENTRY_BYTES

/-- The program does what the total function does, within the buffer, and throws
nothing but a `BadGatewayException`. -/
structure Reads (buffer : Bytes) (p : ZipProg α) (value : Except HttpException α) : Prop where
  result : (p.run ()).result = value.mapError .http
  within : ∀ e ∈ (p.run ()).events, e.Within buffer
  gateway : ∀ e, value = .error e → ∃ message, e = BadGatewayException message

section reads

variable {p : ZipProg α} {value : Except HttpException α}

theorem reads_pure (a : α) : Reads buffer (pure a) (.ok a) where
  result := rfl
  within e he := by cases he
  gateway e he := by cases he

theorem reads_badGateway (message : String) :
    Reads buffer (badGateway message : ZipProg α) (.error (BadGatewayException message)) where
  result := rfl
  within e he := by cases he
  gateway e he := by
    cases he
    exact ⟨message, rfl⟩

theorem Reads.bind_ok {k : α → ZipProg β} {later : Except HttpException β} {a : α}
    (h : Reads buffer p (.ok a)) (hk : Reads buffer (k a) later) : Reads buffer (p >>= k) later := by
  have hok : (p.run ()).result = .ok a := h.result
  refine ⟨?_, ?_, hk.gateway⟩
  · rw [run_bind_ok hok]
    exact hk.result
  · intro e he
    rw [run_bind_ok hok, List.mem_append] at he
    rcases he with he | he
    · exact h.within e he
    · exact hk.within e he

theorem Reads.bind_error {k : α → ZipProg β} {e : HttpException} (h : Reads buffer p (.error e)) :
    Reads buffer (p >>= k) (.error e) := by
  have herror : (p.run ()).result = .error (.http e) := h.result
  refine ⟨?_, ?_, ?_⟩
  · rw [run_bind_error herror]
    rfl
  · rw [run_bind_error herror]
    exact h.within
  · intro x hx
    cases hx
    exact h.gateway e rfl

theorem Reads.bind {k : α → ZipProg β} {later : α → Except HttpException β}
    (h : Reads buffer p value) (hk : ∀ a, Reads buffer (k a) (later a)) :
    Reads buffer (p >>= k) (value >>= later) := by
  cases value with
  | ok a => exact h.bind_ok (hk a)
  | error e => exact h.bind_error

theorem reads_readUIntLE {width offset : Nat} (h : offset + width ≤ buffer.length) :
    Reads buffer (readUIntLE buffer width offset) (.ok (readLE buffer offset width)) where
  result := by
    rw [readUIntLE, run_stmt, if_pos h]
    rfl
  within e he := by
    rw [readUIntLE, run_stmt] at he
    rw [List.mem_singleton.mp he]
    exact h
  gateway e he := by cases he

theorem reads_report {event : ZipEvent} (h : event.Within buffer) :
    Reads buffer (report event) (.ok ()) where
  result := by
    rw [report, run_stmt]
    rfl
  within e he := by
    rw [report, run_stmt] at he
    rw [List.mem_singleton.mp he]
    exact h
  gateway e he := by cases he

/-- A read that is inside, and what follows from the number. -/
theorem Reads.read {width offset : Nat} {k : Nat → ZipProg β} {later : Except HttpException β}
    (hbound : offset + width ≤ buffer.length)
    (h : Reads buffer (k (readLE buffer offset width)) later) :
    Reads buffer (readUIntLE buffer width offset >>= k) later :=
  (reads_readUIntLE hbound).bind_ok h

theorem Reads.read16 {offset : Nat} {k : Nat → ZipProg β} {later : Except HttpException β}
    (hbound : offset + 2 ≤ buffer.length)
    (h : Reads buffer (k (Imports.readUInt16LE buffer offset)) later) :
    Reads buffer (Checked.readUInt16LE buffer offset >>= k) later := Reads.read hbound h

theorem Reads.read32 {offset : Nat} {k : Nat → ZipProg β} {later : Except HttpException β}
    (hbound : offset + 4 ≤ buffer.length)
    (h : Reads buffer (k (Imports.readUInt32LE buffer offset)) later) :
    Reads buffer (Checked.readUInt32LE buffer offset >>= k) later := Reads.read hbound h

theorem Reads.report {event : ZipEvent} {k : Unit → ZipProg β} {later : Except HttpException β}
    (hevent : event.Within buffer) (h : Reads buffer (k ()) later) :
    Reads buffer (Checked.report event >>= k) later := (reads_report hevent).bind_ok h

end reads

/-! ## The end record and the directory -/

theorem reads_scanEndRecord (least : Nat) {stop : Nat} (h : stop + 3 ≤ buffer.length) :
    Reads buffer (scanEndRecord buffer least stop)
      (.ok (scanBack (isEndRecord buffer) least stop)) := by
  induction stop with
  | zero => exact reads_pure none
  | succ offset ih =>
      unfold scanEndRecord scanBack
      by_cases hleast : offset < least
      · rw [if_pos hleast, if_pos hleast]
        exact reads_pure none
      · rw [if_neg hleast, if_neg hleast]
        refine Reads.read32 (by omega) ?_
        by_cases hrecord : Imports.readUInt32LE buffer offset = endRecordSignature
        · have hend : isEndRecord buffer offset = true := by
            rw [isEndRecord, beq_iff_eq]
            exact hrecord
          rw [if_pos hrecord, if_pos hend]
          exact reads_pure (some offset)
        · have hend : ¬ isEndRecord buffer offset = true := by
            rw [isEndRecord, beq_iff_eq]
            exact hrecord
          rw [if_neg hrecord, if_neg hend]
          exact ih (by omega)

theorem reads_findEndOfCentralDirectory (buffer : Bytes) :
    Reads buffer (Checked.findEndOfCentralDirectory buffer)
      (.ok (Imports.findEndOfCentralDirectory buffer)) := by
  unfold Checked.findEndOfCentralDirectory Imports.findEndOfCentralDirectory
  split
  · exact reads_pure none
  · exact reads_scanEndRecord _ (by omega)

/-- The record is twenty-two bytes long, and all of them are there. -/
theorem endRecord_within {offset : Nat}
    (h : Imports.findEndOfCentralDirectory buffer = some offset) : offset + 22 ≤ buffer.length := by
  unfold Imports.findEndOfCentralDirectory at h
  split at h
  · cases h
  · rw [scanBack_eq_some] at h
    omega

theorem reads_readDirectoryEntry (env : ArchiveEnv) (buffer : Bytes) (cursor : Nat) :
    Reads buffer (Checked.readDirectoryEntry env buffer cursor)
      ((Imports.readDirectoryEntry env buffer cursor).map fun entry =>
        (entry, entryEnd buffer cursor)) := by
  unfold Checked.readDirectoryEntry Imports.readDirectoryEntry
  refine Reads.report trivial ?_
  by_cases hlength : buffer.length < cursor + 46
  · rw [if_pos hlength, if_pos hlength]
    exact reads_badGateway _
  rw [if_neg hlength, if_neg hlength]
  refine Reads.read32 (by omega) ?_
  by_cases hsignature : Imports.readUInt32LE buffer cursor ≠ centralHeaderSignature
  · rw [if_pos hsignature, if_pos hsignature]
    exact reads_badGateway _
  rw [if_neg hsignature, if_neg hsignature]
  refine Reads.read16 (by omega) (Reads.read32 (by omega) (Reads.read32 (by omega) ?_))
  refine Reads.read16 (by omega) (Reads.read16 (by omega) (Reads.read16 (by omega) ?_))
  refine Reads.read32 (by omega) ?_
  show Reads buffer (if buffer.length < entryEnd buffer cursor then _ else _) _
  by_cases hend : buffer.length < entryEnd buffer cursor
  · rw [if_pos hend, if_pos hend]
    exact reads_badGateway _
  rw [if_neg hend, if_neg hend]
  split
  · exact reads_badGateway _
  · exact reads_pure _

theorem reads_readDirectory (env : ArchiveEnv) (buffer : Bytes) (count cursor : Nat) :
    Reads buffer (Checked.readDirectory env buffer count cursor)
      (Imports.readDirectory env buffer count cursor) := by
  induction count generalizing cursor with
  | zero => exact reads_pure []
  | succ count ih =>
      unfold Checked.readDirectory Imports.readDirectory
      have hentry := reads_readDirectoryEntry env buffer cursor
      cases hread : Imports.readDirectoryEntry env buffer cursor with
      | error e =>
          rw [hread] at hentry
          exact hentry.bind_error
      | ok entry =>
          rw [hread] at hentry
          refine hentry.bind_ok ?_
          exact (ih (entryEnd buffer cursor)).bind fun entries => reads_pure (entry :: entries)

theorem reads_readZipEntries (env : ArchiveEnv) (buffer : Bytes) :
    Reads buffer (Checked.readZipEntries env buffer) (Imports.readZipEntries env buffer) := by
  unfold Checked.readZipEntries Imports.readZipEntries
  refine (reads_findEndOfCentralDirectory buffer).bind_ok ?_
  cases hfound : Imports.findEndOfCentralDirectory buffer with
  | none => exact reads_badGateway _
  | some eocdOffset =>
      have hend := endRecord_within hfound
      refine Reads.read16 (by omega) ?_
      dsimp only
      split
      · exact reads_badGateway _
      · exact Reads.read32 (by omega) (reads_readDirectory env buffer _ _)

/-! ## An entry's content -/

/-- `inflateRawSync` throws, or it keeps to its limit. -/
def KeepsLimit (env : ArchiveEnv) : Prop :=
  ∀ compressed limit inflated, env.inflateRawSync compressed limit = some inflated →
    inflated.length ≤ limit

theorem reads_extractEntry (hlimit : KeepsLimit env) (entry : ZipEntry) (compressed : Bytes) :
    Reads buffer (Checked.extractEntry env entry compressed)
      (Imports.extractEntry env entry compressed) := by
  unfold Checked.extractEntry Imports.extractEntry
  split
  · split
    · exact reads_badGateway _
    · rename_i hsize
      exact Reads.report (Nat.le_of_not_lt hsize) (reads_pure compressed)
  · split
    · unfold Checked.inflateEntry Imports.inflateEntry
      cases hinflated : env.inflateRawSync compressed MAX_JSON_ENTRY_BYTES with
      | none => exact reads_badGateway _
      | some inflated =>
          refine Reads.report (hlimit _ _ _ hinflated) ?_
          dsimp only
          split
          · exact reads_badGateway _
          · exact reads_pure inflated
    · exact reads_badGateway _

theorem reads_readZipEntryBuffer (hlimit : KeepsLimit env) (entry : ZipEntry) :
    Reads buffer (Checked.readZipEntryBuffer env buffer entry)
      (Imports.readZipEntryBuffer env buffer entry) := by
  unfold Checked.readZipEntryBuffer Imports.readZipEntryBuffer
  dsimp only
  by_cases hlength : buffer.length < entry.localHeaderOffset + 30
  · rw [if_pos hlength, if_pos hlength]
    exact reads_badGateway _
  rw [if_neg hlength, if_neg hlength]
  refine Reads.read32 (by omega) ?_
  by_cases hsignature : Imports.readUInt32LE buffer entry.localHeaderOffset ≠ localHeaderSignature
  · rw [if_pos hsignature, if_pos hsignature]
    exact reads_badGateway _
  rw [if_neg hsignature, if_neg hsignature]
  refine Reads.read16 (by omega) (Reads.read16 (by omega) ?_)
  show Reads buffer (if buffer.length < dataStart buffer entry.localHeaderOffset +
    entry.compressedSize then _ else _) _
  split
  · exact reads_badGateway _
  · exact reads_extractEntry hlimit entry _

/-! ## The documents -/

theorem reads_parseEntries (hlimit : KeepsLimit env) (source : String) (extractedBytes : Nat)
    (entries : List ZipEntry) :
    Reads buffer (Checked.parseEntries env source buffer extractedBytes entries)
      (Imports.parseEntries env source buffer extractedBytes entries) := by
  induction entries generalizing extractedBytes with
  | nil => exact reads_pure []
  | cons entry entries ih =>
      unfold Checked.parseEntries Imports.parseEntries
      by_cases hname : isJsonName env entry.name = true
      · rw [if_pos hname, if_pos hname]
        refine (reads_readZipEntryBuffer hlimit entry).bind fun entryBuffer => ?_
        split
        · exact reads_badGateway _
        · exact (ih _).bind fun documents => reads_pure _
      · rw [if_neg hname, if_neg hname]
        exact ih extractedBytes

theorem reads_isZip (buffer : Bytes) :
    Reads buffer (Checked.isZip buffer) (.ok (Imports.isZip buffer)) := by
  unfold Checked.isZip Imports.isZip
  by_cases hlength : 4 ≤ buffer.length
  · rw [if_pos hlength, decide_eq_true hlength, Bool.true_and]
    exact Reads.read32 hlength (reads_pure _)
  · rw [if_neg hlength, decide_eq_false hlength, Bool.false_and]
    exact reads_pure false

/-- The reads, one by one, do what the parser does. -/
theorem reads_parseBuffer (hlimit : KeepsLimit env) (source : String) (buffer : Bytes) :
    Reads buffer (Checked.parseBuffer env source buffer)
      (Imports.parseBuffer env source buffer) := by
  unfold Checked.parseBuffer Imports.parseBuffer
  refine (reads_isZip buffer).bind_ok ?_
  split
  · exact (reads_readZipEntries env buffer).bind fun entries =>
      reads_parseEntries hlimit source 0 entries
  · exact reads_pure _

/-! ## How much is read and extracted -/

def Checked.ZipEvent.entries : ZipEvent → Nat
  | .entry _ => 1
  | _ => 0

def Checked.ZipEvent.bytes : ZipEvent → Nat
  | .extracted bytes => bytes
  | _ => 0

def total (weight : ZipEvent → Nat) : List ZipEvent → Nat
  | [] => 0
  | event :: events => weight event + total weight events

theorem total_append (weight : ZipEvent → Nat) (first second : List ZipEvent) :
    total weight (first ++ second) = total weight first + total weight second := by
  induction first with
  | nil => simp [total]
  | cons event first ih =>
      rw [List.cons_append, total, total, ih]
      omega

section costs

variable {weight : ZipEvent → Nat} {n m : Nat} {p : ZipProg α} {k : α → ZipProg β}

/-- What the program may weigh, depending on what it answers. -/
def Costs (weight : ZipEvent → Nat) (n : Nat) (p : ZipProg α) : Prop :=
  total weight (p.run ()).events ≤ n

theorem costs_pure (a : α) : Costs weight 0 (pure a : ZipProg α) := Nat.le_refl 0

theorem costs_badGateway (message : String) : Costs weight 0 (badGateway message : ZipProg α) :=
  Nat.le_refl 0

theorem Costs.mono (h : Costs weight n p) (hle : n ≤ m) : Costs weight m p := Nat.le_trans h hle

theorem Costs.bind (h : Costs weight n p) (hk : ∀ a, Costs weight m (k a)) :
    Costs weight (n + m) (p >>= k) := by
  unfold Costs at h hk ⊢
  cases hresult : (p.run ()).result with
  | ok a =>
      rw [run_bind_ok hresult, total_append]
      exact Nat.add_le_add h (hk a)
  | error e =>
      rw [run_bind_error hresult]
      exact Nat.le_trans h (Nat.le_add_right n m)

/-- What comes before costs nothing. -/
theorem Costs.after (h : Costs weight 0 p) (hk : ∀ a, Costs weight m (k a)) :
    Costs weight m (p >>= k) := (h.bind hk).mono (Nat.zero_add m).le

theorem Costs.before (h : Costs weight n p) (hk : ∀ a, Costs weight 0 (k a)) :
    Costs weight n (p >>= k) := h.bind hk

theorem costs_report (event : ZipEvent) : Costs weight (weight event) (report event) := by
  unfold Costs report
  rw [run_stmt]
  exact Nat.le_refl _

theorem costs_readUIntLE (hread : ∀ offset width, weight (.read offset width) = 0)
    (width offset : Nat) : Costs weight 0 (readUIntLE buffer width offset) := by
  unfold Costs readUIntLE
  rw [run_stmt]
  exact (hread offset width).le

end costs

section directory

variable {weight : ZipEvent → Nat} (hread : ∀ offset width, weight (.read offset width) = 0)

include hread

theorem costs_findEndOfCentralDirectory (buffer : Bytes) :
    Costs weight 0 (Checked.findEndOfCentralDirectory buffer) := by
  have hscan : ∀ least stop, Costs weight 0 (scanEndRecord buffer least stop) := by
    intro least stop
    induction stop with
    | zero => exact costs_pure none
    | succ offset ih =>
        unfold scanEndRecord
        split
        · exact costs_pure none
        · refine (costs_readUIntLE hread 4 offset).after fun signature => ?_
          split
          · exact costs_pure _
          · exact ih
  unfold Checked.findEndOfCentralDirectory
  split
  · exact costs_pure none
  · exact hscan _ _

/-- An entry of the directory is noted once. -/
theorem costs_readDirectoryEntry (env : ArchiveEnv) (buffer : Bytes) (cursor : Nat) :
    Costs weight (weight (.entry cursor)) (Checked.readDirectoryEntry env buffer cursor) := by
  unfold Checked.readDirectoryEntry
  refine (costs_report (.entry cursor)).before fun _ => ?_
  split
  · exact costs_badGateway _
  · refine (costs_readUIntLE hread 4 cursor).after fun signature => ?_
    split
    · exact costs_badGateway _
    · refine (costs_readUIntLE hread 2 _).after fun method => ?_
      refine (costs_readUIntLE hread 4 _).after fun compressedSize => ?_
      refine (costs_readUIntLE hread 4 _).after fun uncompressedSize => ?_
      refine (costs_readUIntLE hread 2 _).after fun fileNameLength => ?_
      refine (costs_readUIntLE hread 2 _).after fun extraLength => ?_
      refine (costs_readUIntLE hread 2 _).after fun commentLength => ?_
      refine (costs_readUIntLE hread 4 _).after fun localHeaderOffset => ?_
      dsimp only
      split
      · exact costs_badGateway _
      · split
        · exact costs_badGateway _
        · exact costs_pure _

theorem costs_readDirectory {each : Nat} (hentry : ∀ cursor, weight (.entry cursor) ≤ each)
    (env : ArchiveEnv) (buffer : Bytes) (count cursor : Nat) :
    Costs weight (count * each) (Checked.readDirectory env buffer count cursor) := by
  induction count generalizing cursor with
  | zero =>
      rw [Nat.zero_mul]
      exact costs_pure []
  | succ count ih =>
      rw [Nat.succ_mul, Nat.add_comm]
      unfold Checked.readDirectory
      have hfirst := (costs_readDirectoryEntry hread env buffer cursor).mono (hentry cursor)
      exact hfirst.bind fun found => (ih found.2).before fun entries => costs_pure _

theorem costs_readZipEntries {each : Nat} (hentry : ∀ cursor, weight (.entry cursor) ≤ each)
    (env : ArchiveEnv) (buffer : Bytes) :
    Costs weight (MAX_ZIP_ENTRIES * each) (Checked.readZipEntries env buffer) := by
  unfold Checked.readZipEntries
  refine (costs_findEndOfCentralDirectory hread buffer).after fun found => ?_
  cases found with
  | none => exact (costs_badGateway _).mono (Nat.zero_le _)
  | some eocdOffset =>
      refine (costs_readUIntLE hread 2 _).after fun entryCount => ?_
      split
      · exact (costs_badGateway _).mono (Nat.zero_le _)
      · rename_i hcount
        refine (costs_readUIntLE hread 4 _).after fun cursor => ?_
        exact (costs_readDirectory hread hentry env buffer entryCount cursor).mono
          (Nat.mul_le_mul_right each (Nat.le_of_not_lt hcount))

end directory

section content

variable {weight : ZipEvent → Nat} (hread : ∀ offset width, weight (.read offset width) = 0)

include hread

/-- Apart from what is extracted, the content of an entry costs nothing. -/
theorem costs_readZipEntryBuffer (hextracted : ∀ bytes, weight (.extracted bytes) = 0)
    (env : ArchiveEnv) (buffer : Bytes) (entry : ZipEntry) :
    Costs weight 0 (Checked.readZipEntryBuffer env buffer entry) := by
  have hextract : ∀ compressed, Costs weight 0 (Checked.extractEntry env entry compressed) := by
    intro compressed
    have hreport : ∀ bytes, Costs weight 0 (report (.extracted bytes)) := fun bytes =>
      (costs_report (.extracted bytes)).mono (hextracted bytes).le
    unfold Checked.extractEntry Checked.inflateEntry
    split
    · split
      · exact costs_badGateway _
      · exact (hreport _).before fun _ => costs_pure _
    · split
      · split
        · exact costs_badGateway _
        · refine (hreport _).before fun _ => ?_
          split
          · exact costs_badGateway _
          · exact costs_pure _
      · exact costs_badGateway _
  unfold Checked.readZipEntryBuffer
  dsimp only
  split
  · exact costs_badGateway _
  · refine (costs_readUIntLE hread 4 _).after fun signature => ?_
    split
    · exact costs_badGateway _
    · refine (costs_readUIntLE hread 2 _).after fun fileNameLength => ?_
      refine (costs_readUIntLE hread 2 _).after fun extraLength => ?_
      split
      · exact costs_badGateway _
      · exact hextract _

theorem costs_parseEntries (hextracted : ∀ bytes, weight (.extracted bytes) = 0)
    (env : ArchiveEnv) (source : String) (buffer : Bytes) (extractedBytes : Nat)
    (entries : List ZipEntry) :
    Costs weight 0 (Checked.parseEntries env source buffer extractedBytes entries) := by
  induction entries generalizing extractedBytes with
  | nil => exact costs_pure []
  | cons entry entries ih =>
      unfold Checked.parseEntries
      split
      · refine (costs_readZipEntryBuffer hread hextracted env buffer entry).after fun content => ?_
        split
        · exact costs_badGateway _
        · exact (ih _).before fun documents => costs_pure _
      · exact ih extractedBytes

theorem costs_isZip (buffer : Bytes) : Costs weight 0 (Checked.isZip buffer) := by
  unfold Checked.isZip
  split
  · exact (costs_readUIntLE hread 4 0).after fun signature => costs_pure _
  · exact costs_pure false

end content

/-- At most five thousand entries of a directory are looked at. -/
theorem entries_parseBuffer (env : ArchiveEnv) (source : String) (buffer : Bytes) :
    Costs ZipEvent.entries MAX_ZIP_ENTRIES (Checked.parseBuffer env source buffer) := by
  have hread : ∀ offset width, ZipEvent.entries (.read offset width) = 0 := fun _ _ => rfl
  have hentry : ∀ cursor, ZipEvent.entries (.entry cursor) ≤ 1 := fun _ => Nat.le_refl 1
  have hdirectory := costs_readZipEntries hread hentry env buffer
  rw [Nat.mul_one] at hdirectory
  unfold Checked.parseBuffer
  refine (costs_isZip hread buffer).after fun zip => ?_
  split
  · exact hdirectory.before fun entries =>
      costs_parseEntries hread (fun _ => rfl) env source buffer 0 entries
  · exact (costs_pure _).mono (Nat.zero_le _)

section extracted

/-- A program that answers has extracted no more than this. -/
def Extracts (size : α → Nat) (p : ZipProg α) : Prop :=
  ∀ a, (p.run ()).result = .ok a → total ZipEvent.bytes (p.run ()).events ≤ size a

variable {size : β → Nat} {p : ZipProg α} {k : α → ZipProg β}

theorem extracts_badGateway (message : String) :
    Extracts size (badGateway message : ZipProg β) := by
  intro b hb
  cases hb

theorem Costs.extracts {n : Nat} {p : ZipProg β} (h : Costs ZipEvent.bytes n p)
    (hsize : ∀ b, n ≤ size b) : Extracts size p := fun b _ => Nat.le_trans h (hsize b)

theorem Costs.extractsThen (h : Costs ZipEvent.bytes 0 p) (hk : ∀ a, Extracts size (k a)) :
    Extracts size (p >>= k) := by
  intro b hb
  cases hresult : (p.run ()).result with
  | error e =>
      rw [run_bind_error hresult] at hb
      cases hb
  | ok a =>
      rw [run_bind_ok hresult] at hb ⊢
      rw [total_append, Nat.le_zero.mp h, Nat.zero_add]
      exact hk a b hb

/-- What is noted is what is answered, if anything is. -/
theorem extracts_report (content : Bytes) {q : ZipProg Bytes}
    (hq : q = pure content ∨ ∃ message, q = badGateway message) :
    Extracts List.length (report (.extracted content.length) >>= fun _ => q) := by
  intro answer hanswer
  rcases hq with rfl | ⟨message, rfl⟩
  · cases hanswer
    exact Nat.le_refl _
  · cases hanswer

theorem extracts_readZipEntryBuffer (env : ArchiveEnv) (buffer : Bytes) (entry : ZipEntry) :
    Extracts List.length (Checked.readZipEntryBuffer env buffer entry) := by
  have hread : ∀ offset width, ZipEvent.bytes (.read offset width) = 0 := fun _ _ => rfl
  have hextract : ∀ compressed,
      Extracts List.length (Checked.extractEntry env entry compressed) := by
    intro compressed
    unfold Checked.extractEntry Checked.inflateEntry
    split
    · split
      · exact extracts_badGateway _
      · exact extracts_report compressed (.inl rfl)
    · split
      · split
        · exact extracts_badGateway _
        · refine extracts_report _ ?_
          split
          · exact .inr ⟨_, rfl⟩
          · exact .inl rfl
      · exact extracts_badGateway _
  unfold Checked.readZipEntryBuffer
  dsimp only
  split
  · exact extracts_badGateway _
  · refine (costs_readUIntLE hread 4 _).extractsThen fun signature => ?_
    split
    · exact extracts_badGateway _
    · refine (costs_readUIntLE hread 2 _).extractsThen fun fileNameLength => ?_
      refine (costs_readUIntLE hread 2 _).extractsThen fun extraLength => ?_
      split
      · exact extracts_badGateway _
      · exact hextract _

/-- The entries of a zip that is read are extracted to no more than the limit. -/
theorem bytes_parseEntries (env : ArchiveEnv) (source : String) (buffer : Bytes)
    {extractedBytes : Nat} (h : extractedBytes ≤ MAX_EXTRACTED_BYTES) (entries : List ZipEntry) :
    Extracts (fun _ => MAX_EXTRACTED_BYTES - extractedBytes)
      (Checked.parseEntries env source buffer extractedBytes entries) := by
  induction entries generalizing extractedBytes with
  | nil => exact (costs_pure []).extracts fun _ => Nat.zero_le _
  | cons entry entries ih =>
      unfold Checked.parseEntries
      split
      · intro documents hdocuments
        have hextracts := extracts_readZipEntryBuffer env buffer entry
        cases hcontent : ((Checked.readZipEntryBuffer env buffer entry).run ()).result with
        | error e =>
            rw [run_bind_error hcontent] at hdocuments
            cases hdocuments
        | ok content =>
            have hsize := hextracts content hcontent
            rw [run_bind_ok hcontent] at hdocuments ⊢
            dsimp only at hdocuments ⊢
            split at hdocuments
            · cases hdocuments
            · rename_i hfits
              rw [if_neg hfits]
              have hle : extractedBytes + content.length ≤ MAX_EXTRACTED_BYTES :=
                Nat.le_of_not_lt hfits
              cases hrest : ((Checked.parseEntries env source buffer
                  (extractedBytes + content.length) entries).run ()).result with
              | error e =>
                  rw [run_bind_error hrest] at hdocuments
                  cases hdocuments
              | ok later =>
                  have hlater := ih hle later hrest
                  dsimp only at hlater ⊢
                  rw [run_bind_ok hrest, total_append, total_append]
                  show _ + (_ + 0) ≤ _
                  omega
      · exact ih h

theorem bytes_parseBuffer (env : ArchiveEnv) (source : String) (buffer : Bytes) :
    Extracts (fun _ => MAX_EXTRACTED_BYTES) (Checked.parseBuffer env source buffer) := by
  have hread : ∀ offset width, ZipEvent.bytes (.read offset width) = 0 := fun _ _ => rfl
  have hdirectory := costs_readZipEntries hread (fun _ => Nat.le_refl 0) env buffer
  unfold Checked.parseBuffer
  refine (costs_isZip hread buffer).extractsThen fun zip => ?_
  split
  · exact hdirectory.extractsThen fun entries =>
      bytes_parseEntries env source buffer (Nat.zero_le _) entries
  · exact (costs_pure _).extracts fun _ => Nat.zero_le _

end extracted

/-! ## Any bytes -/

/-- How the parsing of a buffer ends, and what it has read and extracted. -/
structure SafelyParsed (buffer : Bytes)
    (answer : Answer Unit ZipEvent ZipThrow (List GoogleDataArchiveDocument)) : Prop where
  reads : ∀ offset width, .read offset width ∈ answer.events → offset + width ≤ buffer.length
  ends : (∃ documents, answer.result = .ok documents) ∨
    ∃ message, answer.result = .error (.http (BadGatewayException message))
  entries : total ZipEvent.entries answer.events ≤ MAX_ZIP_ENTRIES
  entry : ∀ bytes, .extracted bytes ∈ answer.events → bytes ≤ MAX_JSON_ENTRY_BYTES
  bytes : (∃ documents, answer.result = .ok documents) →
    total ZipEvent.bytes answer.events ≤ MAX_EXTRACTED_BYTES

/-- Whatever its bytes are, a buffer is parsed safely. The bytes that are counted are those the
archive reader extracts: a buffer that is no archive is a document as it is, and its only caller
has bounded it by the size of a download. -/
theorem parseBuffer_safe (hlimit : KeepsLimit env) (source : String) (buffer : Bytes) :
    SafelyParsed buffer ((Checked.parseBuffer env source buffer).run ()) := by
  have hreads := reads_parseBuffer hlimit source buffer
  constructor
  · intro offset width hread
    exact hreads.within _ hread
  · rw [hreads.result]
    cases hvalue : Imports.parseBuffer env source buffer with
    | ok documents => exact .inl ⟨documents, rfl⟩
    | error e =>
        obtain ⟨message, rfl⟩ := hreads.gateway e hvalue
        exact .inr ⟨message, rfl⟩
  · exact entries_parseBuffer env source buffer
  · intro bytes hextracted
    exact hreads.within _ hextracted
  · rintro ⟨documents, hdocuments⟩
    exact bytes_parseBuffer env source buffer documents hdocuments

theorem keepsLimit_blockEnv : KeepsLimit blockEnv := by
  intro compressed limit inflated h
  have hunfold : (if (compressed.drop 5).length < 65536 ∧
      compressed = storedBlock (compressed.drop 5) ∧ (compressed.drop 5).length ≤ limit then
    some (compressed.drop 5) else none) = some inflated := h
  split at hunfold
  · rename_i hall
    cases hunfold
    exact hall.2.2
  · cases hunfold

/-- A zip that is cut off within its first file. -/
theorem cut_zip_is_safe : SafelyParsed (plain.bytes.take 40)
    ((Checked.parseBuffer blockEnv "takeout" (plain.bytes.take 40)).run ()) :=
  parseBuffer_safe keepsLimit_blockEnv "takeout" (plain.bytes.take 40)

end Feca.Imports
