import Bpcp.Lib.CString

/-!
# Reading from streams

A stream is read from a position on. The functions that read bytes and little-endian words
from it come from outside the repository, so what they return when the bytes left are fewer
than they read is a parameter, except at the end of the data, where a byte and a word have
all their bits set.
-/

namespace Bpcp.MiniGUI

open Bpcp.Lib

/-- `MG_RWops`, a stream that is read. -/
structure RWops where
  /-- The position. -/
  here : Nat
  /-- The bytes from the position on. -/
  rest : List UInt8

/-- The stream after bytes were read or skipped, which ends at the end of the data. -/
def RWops.skip (f : RWops) (count : Nat) : RWops :=
  ⟨f.here + min count f.rest.length, f.rest.drop count⟩

/-- What reading a word does when too few bytes are left. -/
structure ShortRead where
  /-- The value that is returned. -/
  value : List UInt8 → Nat
  /-- Whether the bytes that are left are consumed. -/
  consumes : Bool

/-- `fp_getc`, as a byte. -/
def fpGetc (f : RWops) : UInt8 × RWops :=
  match f.rest with
  | [] => (0xFF, f)
  | byte :: rest => (byte, ⟨f.here + 1, rest⟩)

/-- What a read of a word finds and leaves. -/
def readLe (short : ShortRead) (width : Nat) (f : RWops) : Nat × RWops :=
  if width ≤ f.rest.length then (ofLeBytes (f.rest.take width), f.skip width)
  else (short.value f.rest, if short.consumes then f.skip width else f)

/-- `fp_igetw`. -/
def fpIgetw (short : ShortRead) (f : RWops) : UInt16 × RWops :=
  if f.rest = [] then (0xFFFF, f)
  else
    let (value, f) := readLe short 2 f
    (UInt16.ofNat value, f)

/-- `fp_igetl`. -/
def fpIgetl (short : ShortRead) (f : RWops) : UInt32 × RWops :=
  let (value, f) := readLe short 4 f
  (UInt32.ofNat value, f)

/-- `MGUI_RWread` of bytes. -/
def mguiRWread (f : RWops) (maxnum : Nat) : List UInt8 × RWops :=
  (f.rest.take maxnum, f.skip maxnum)

/-! ## Positions -/

variable {f : RWops} {short : ShortRead} {rest : List UInt8}

/-- Skipping drops the bytes. -/
@[simp] theorem RWops.skip_rest (f : RWops) (count : Nat) :
    (f.skip count).rest = f.rest.drop count := rfl

/-- Skipping bytes that are there moves the position. -/
theorem RWops.skip_append {here : Nat} {bytes : List UInt8} {count : Nat}
    (length : bytes.length = count) :
    RWops.skip ⟨here, bytes ++ rest⟩ count = ⟨here + count, rest⟩ := by
  subst length
  simp [RWops.skip]

/-- A byte that is there is read. -/
@[simp] theorem fpGetc_cons (here : Nat) (byte : UInt8) (rest : List UInt8) :
    fpGetc ⟨here, byte :: rest⟩ = (byte, ⟨here + 1, rest⟩) := rfl

/-- Reading a byte leaves no more than there was. -/
theorem fpGetc_rest_le (f : RWops) : (fpGetc f).2.rest.length ≤ f.rest.length := by
  rw [fpGetc]
  split <;> simp_all

/-- Reading a byte leaves less when there was one. -/
theorem fpGetc_rest_lt (present : f.rest ≠ []) : (fpGetc f).2.rest.length < f.rest.length := by
  rw [fpGetc]
  split
  · contradiction
  · simp_all

/-- At the end of the data a byte has all bits set. -/
theorem fpGetc_end (absent : f.rest = []) : fpGetc f = (0xFF, f) := by
  rw [fpGetc, absent]

/-- A word that is there is read. -/
theorem readLe_append {here width : Nat} {bytes : List UInt8} (length : bytes.length = width) :
    readLe short width ⟨here, bytes ++ rest⟩ = (ofLeBytes bytes, ⟨here + width, rest⟩) := by
  have enough : width ≤ (bytes ++ rest).length := by simp [length]
  rw [readLe, if_pos enough, RWops.skip_append length, ← length, List.take_left]

/-- Bytes that are there are read. -/
theorem mguiRWread_append {here count : Nat} {bytes : List UInt8}
    (length : bytes.length = count) :
    mguiRWread ⟨here, bytes ++ rest⟩ count = (bytes, ⟨here + count, rest⟩) := by
  rw [mguiRWread, RWops.skip_append length, ← length, List.take_left]

/-- Reading a word leaves no more than there was. -/
theorem readLe_rest_le (short : ShortRead) (width : Nat) (f : RWops) :
    (readLe short width f).2.rest.length ≤ f.rest.length := by
  rw [readLe]
  split
  · simp
  · split <;> simp

/-- Reading a word leaves no more than there was. -/
theorem fpIgetw_rest_le (short : ShortRead) (f : RWops) :
    (fpIgetw short f).2.rest.length ≤ f.rest.length := by
  rw [fpIgetw]
  split
  · exact le_rfl
  · exact readLe_rest_le short 2 f

/-- A word that is there is read. -/
theorem fpIgetw_cons_cons (here : Nat) (low high : UInt8) (rest : List UInt8) :
    fpIgetw short ⟨here, low :: high :: rest⟩ =
      (UInt16.ofNat (ofLeBytes [low, high]), ⟨here + 2, rest⟩) := by
  have read : readLe short 2 ⟨here, [low, high] ++ rest⟩ =
      (ofLeBytes [low, high], ⟨here + 2, rest⟩) := readLe_append rfl
  have present : ¬(low :: high :: rest = []) := List.cons_ne_nil _ _
  rw [List.cons_append, List.cons_append, List.nil_append] at read
  simp only [fpIgetw, if_neg present, read]

/-- The stream of a file at a position. -/
def streamAt (data : List UInt8) (pos : Nat) : RWops := ⟨pos, data.drop pos⟩

/-- Skipping inside a file moves the position. -/
theorem streamAt_skip {data : List UInt8} {pos count : Nat} (inside : pos + count ≤ data.length) :
    (streamAt data pos).skip count = streamAt data (pos + count) := by
  have enough : min count (data.length - pos) = count := by omega
  simp [RWops.skip, streamAt, enough]

/-- A word inside a file is read. -/
theorem streamAt_readLe {data : List UInt8} {pos width : Nat}
    (inside : pos + width ≤ data.length) :
    readLe short width (streamAt data pos) =
      (ofLeBytes ((data.drop pos).take width), streamAt data (pos + width)) := by
  have enough : width ≤ (streamAt data pos).rest.length := by
    change width ≤ (data.drop pos).length
    rw [List.length_drop]
    omega
  rw [readLe, if_pos enough, streamAt_skip inside]
  rfl

/-- A word of two bytes inside a file is read. -/
theorem streamAt_fpIgetw {data : List UInt8} {pos : Nat} (inside : pos + 2 ≤ data.length) :
    fpIgetw short (streamAt data pos) =
      (UInt16.ofNat (ofLeBytes ((data.drop pos).take 2)), streamAt data (pos + 2)) := by
  have present : (streamAt data pos).rest ≠ [] := by
    apply List.ne_nil_of_length_pos
    change 0 < (data.drop pos).length
    rw [List.length_drop]
    omega
  simp only [fpIgetw, if_neg present, streamAt_readLe inside]

/-- A word of four bytes inside a file is read. -/
theorem streamAt_fpIgetl {data : List UInt8} {pos : Nat} (inside : pos + 4 ≤ data.length) :
    fpIgetl short (streamAt data pos) =
      (UInt32.ofNat (ofLeBytes ((data.drop pos).take 4)), streamAt data (pos + 4)) := by
  simp only [fpIgetl, streamAt_readLe inside]

/-- How many bytes a read of a word takes when some are left. -/
def takenBytes (short : ShortRead) (width left : Nat) : Nat :=
  if width ≤ left then width else if short.consumes then left else 0

/-- A read takes bytes that are left. -/
theorem takenBytes_le (short : ShortRead) (width left : Nat) :
    takenBytes short width left ≤ left := by
  rw [takenBytes]
  split_ifs <;> omega

/-- A read of a word moves the position by the bytes it takes. -/
theorem readLe_streamAt {data : List UInt8} {pos width : Nat} (inside : pos ≤ data.length) :
    (readLe short width (streamAt data pos)).2 =
      streamAt data (pos + takenBytes short width (data.length - pos)) := by
  have length : (streamAt data pos).rest.length = data.length - pos := List.length_drop
  rw [readLe, takenBytes, length]
  split_ifs with enough consumes
  · exact streamAt_skip (by omega)
  · have all : min width (data.length - pos) = data.length - pos := by omega
    have whole : pos + (data.length - pos) = data.length := by omega
    have nothing : data.length ≤ pos + width := by omega
    simp [RWops.skip, streamAt, all, whole, nothing]
  · rfl

end Bpcp.MiniGUI
