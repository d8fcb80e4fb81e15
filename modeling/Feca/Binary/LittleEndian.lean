import Mathlib.Algebra.Ring.Nat
import Mathlib.Data.List.Infix

/-! # Little-endian records in a buffer

A record is a run of fixed-width numbers, the lowest byte first. What is written
at an offset of a buffer is read back there, whatever stands around it.
-/

namespace Feca.Binary

abbrev Bytes := List UInt8

/-! ## Numbers -/

/-- The `width` low bytes of a number. -/
def littleEndian : Nat → Nat → Bytes
  | 0, _ => []
  | width + 1, n => UInt8.ofNat n :: littleEndian width (n / 256)

def ofBytes : Bytes → Nat
  | [] => 0
  | byte :: rest => byte.toNat + 256 * ofBytes rest

/-- How many numbers fit in a width. -/
def capacity : Nat → Nat
  | 0 => 1
  | width + 1 => 256 * capacity width

@[simp] theorem littleEndian_length (width n : Nat) :
    (littleEndian width n).length = width := by
  induction width generalizing n with
  | zero => rfl
  | succ width ih => simp [littleEndian, ih]

theorem ofBytes_littleEndian {width n : Nat} (h : n < capacity width) :
    ofBytes (littleEndian width n) = n := by
  induction width generalizing n with
  | zero =>
    have hzero : n = 0 := by
      simp only [capacity] at h
      omega
    simp [littleEndian, ofBytes, hzero]
  | succ width ih =>
    have hhigh : n / 256 < capacity width := by
      simp only [capacity] at h
      omega
    have hlow : (UInt8.ofNat n).toNat = n % 256 := by simp
    rw [littleEndian, ofBytes, ih hhigh, hlow]
    omega

/-! ## What stands where -/

/-- `part` stands in the buffer at an offset. -/
def StandsAt (buffer : Bytes) (offset : Nat) (part : Bytes) : Prop :=
  ∃ before after, buffer = before ++ (part ++ after) ∧ before.length = offset

def slice (buffer : Bytes) (start stop : Nat) : Bytes := (buffer.drop start).take (stop - start)

/-- The number in the `width` bytes at an offset. -/
def readLE (buffer : Bytes) (offset width : Nat) : Nat :=
  ofBytes (slice buffer offset (offset + width))

theorem StandsAt.bounded {buffer part : Bytes} {offset : Nat}
    (h : StandsAt buffer offset part) : offset + part.length ≤ buffer.length := by
  obtain ⟨before, after, hbuffer, hoffset⟩ := h
  simp only [hbuffer, List.length_append]
  omega

theorem StandsAt.slice_eq {buffer part : Bytes} {offset : Nat}
    (h : StandsAt buffer offset part) : slice buffer offset (offset + part.length) = part := by
  obtain ⟨before, after, hbuffer, hoffset⟩ := h
  have hdrop : buffer.drop offset = part ++ after := by
    rw [hbuffer, ← hoffset, List.drop_left]
  rw [slice, hdrop, Nat.add_sub_cancel_left, List.take_left]

theorem StandsAt.readLE_eq {buffer : Bytes} {offset width n : Nat}
    (h : StandsAt buffer offset (littleEndian width n)) (hfits : n < capacity width) :
    readLE buffer offset width = n := by
  have hslice := h.slice_eq
  rw [littleEndian_length] at hslice
  rw [readLE, hslice, ofBytes_littleEndian hfits]

theorem StandsAt.left {buffer first second : Bytes} {offset : Nat}
    (h : StandsAt buffer offset (first ++ second)) : StandsAt buffer offset first := by
  obtain ⟨before, after, hbuffer, hoffset⟩ := h
  exact ⟨before, second ++ after, by rw [hbuffer, List.append_assoc], hoffset⟩

theorem StandsAt.right {buffer first second : Bytes} {offset : Nat}
    (h : StandsAt buffer offset (first ++ second)) :
    StandsAt buffer (offset + first.length) second := by
  obtain ⟨before, after, hbuffer, hoffset⟩ := h
  refine ⟨before ++ first, after, ?_, ?_⟩
  · rw [hbuffer]
    simp only [List.append_assoc]
  · rw [List.length_append, hoffset]

theorem StandsAt.append {buffer part : Bytes} {offset : Nat}
    (h : StandsAt buffer offset part) (more : Bytes) : StandsAt (buffer ++ more) offset part := by
  obtain ⟨before, after, hbuffer, hoffset⟩ := h
  exact ⟨before, after ++ more, by simp only [hbuffer, List.append_assoc], hoffset⟩

theorem standsAt_append (before part : Bytes) : StandsAt (before ++ part) before.length part :=
  ⟨before, [], by rw [List.append_nil], rfl⟩

/-! ## Records -/

structure Field where
  width : Nat
  number : Nat
  fits : number < capacity width

def Field.bytes (field : Field) : Bytes := littleEndian field.width field.number

def u16 (number : Nat) (fits : number < 65536) : Field where
  width := 2
  number := number
  fits := fits

def u32 (number : Nat) (fits : number < 4294967296) : Field where
  width := 4
  number := number
  fits := fits

/-- A 16-bit number whatever it is. -/
def anyU16 (number : UInt16) : Field := u16 number.toNat number.toNat_lt

def anyU32 (number : UInt32) : Field := u32 number.toNat number.toNat_lt

def record (fields : List Field) : Bytes := fields.flatMap Field.bytes

/-- The widths of the fields: a format fixes them, whatever the numbers are. -/
def layout (fields : List Field) : List Nat := fields.map Field.width

theorem record_length (fields : List Field) : (record fields).length = (layout fields).sum := by
  induction fields with
  | nil => rfl
  | cons field rest ih =>
    simp only [record, List.flatMap_cons, List.length_append] at ih ⊢
    simp [ih, Field.bytes, layout]

theorem record_split {fields : List Field} {k : Nat} {field : Field}
    (h : fields[k]? = some field) :
    record fields =
      record (fields.take k) ++ (field.bytes ++ record (fields.drop (k + 1))) := by
  obtain ⟨hk, hfield⟩ := List.getElem?_eq_some_iff.mp h
  have hsplit : fields = fields.take k ++ field :: fields.drop (k + 1) := by
    rw [← hfield, List.getElem_cons_drop, List.take_append_drop]
  conv_lhs => rw [hsplit]
  simp only [record, List.flatMap_append, List.flatMap_cons]

/-- The `k`-th field of a record is read behind the widths of those before it. -/
theorem StandsAt.field {buffer : Bytes} {offset : Nat} {fields : List Field}
    (h : StandsAt buffer offset (record fields)) (k : Nat) {field : Field}
    (hfield : fields[k]? = some field) :
    readLE buffer (offset + ((layout fields).take k).sum) field.width = field.number := by
  rw [record_split hfield] at h
  have hthere := h.right.left
  rw [record_length, layout, List.map_take] at hthere
  exact hthere.readLE_eq field.fits

/-! ## Scanning back -/

/-- The last offset below `stop`, and not below `least`, where the test holds. -/
def scanBack (test : Nat → Bool) (least : Nat) : Nat → Option Nat
  | 0 => none
  | stop + 1 =>
    if stop < least then none
    else if test stop then some stop
    else scanBack test least stop

theorem scanBack_eq_some {test : Nat → Bool} {least stop found : Nat} :
    scanBack test least stop = some found ↔
      least ≤ found ∧ found < stop ∧ test found = true ∧
        ∀ p, found < p → p < stop → test p = false := by
  induction stop with
  | zero => simp [scanBack]
  | succ stop ih =>
    rw [scanBack]
    by_cases hleast : stop < least
    · rw [if_pos hleast]
      simp only [reduceCtorEq, false_iff]
      omega
    rw [if_neg hleast]
    by_cases htest : test stop = true
    · rw [if_pos htest, Option.some.injEq]
      constructor
      · intro heq
        subst heq
        exact ⟨by omega, by omega, htest, fun p hlow hhigh => by omega⟩
      · intro h
        obtain ⟨_, hbelow, _, hlast⟩ := h
        by_contra hne
        have hlater := hlast stop (by omega) (by omega)
        rw [htest] at hlater
        cases hlater
    · rw [if_neg htest, ih]
      have hoff : test stop = false := by simpa using htest
      constructor
      · intro h
        obtain ⟨hlow, hbelow, hfound, hlast⟩ := h
        refine ⟨hlow, by omega, hfound, ?_⟩
        intro p hp hstop
        by_cases heq : p = stop
        · rw [heq, hoff]
        · exact hlast p hp (by omega)
      · intro h
        obtain ⟨hlow, hbelow, hfound, hlast⟩ := h
        have hne : found ≠ stop := by
          intro heq
          rw [heq, hoff] at hfound
          cases hfound
        exact ⟨hlow, by omega, hfound, fun p hp hstop => hlast p hp (by omega)⟩

end Feca.Binary
