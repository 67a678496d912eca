import Bpcp.Lib.CString

/-!
# Hash keys of strings

`str2key` is the hash function FNV-1a on the type `size_t`, which has 32 or 64 bits. Each byte is
combined with the hash value, and the value is multiplied by a prime. Compilers that define
`__GNUC__` get shifts and additions in place of the multiplication.
-/

namespace Bpcp.Samples

open Bpcp.Lib

/-- The width of `size_t`. -/
inductive SizeWidth where
  /-- `SIZE_MAX` is less than `ULLONG_MAX`. -/
  | bits32
  /-- `SIZE_MAX` is `ULLONG_MAX`. -/
  | bits64
deriving DecidableEq

/-- The number of bits. -/
def SizeWidth.bits : SizeWidth → ℕ
  | bits32 => 32
  | bits64 => 64

/-- `size_t`. -/
abbrev SizeWidth.Size (width : SizeWidth) : Type := BitVec width.bits

/-- `SIZE_MAX`. -/
def sizeMax (width : SizeWidth) : width.Size := BitVec.allOnes width.bits

/-- `FNV_PRIME`. -/
def fnvPrime : (width : SizeWidth) → width.Size
  | .bits32 => 0x01000193#32
  | .bits64 => 0x100000001b3#64

/-- `FNV_INIT`. -/
def fnvInit : (width : SizeWidth) → width.Size
  | .bits32 => 0x811c9dc5#32
  | .bits64 => 0xcbf29ce484222325#64

/-- The multiplication of `str2key` with `__GNUC__`. -/
def multiplyGnuc : (width : SizeWidth) → width.Size → width.Size
  | .bits32, (hval : BitVec 32) =>
    hval + ((hval <<< 1) + (hval <<< 4) + (hval <<< 7) + (hval <<< 8) + (hval <<< 24))
  | .bits64, (hval : BitVec 64) =>
    hval + ((hval <<< 1) + (hval <<< 4) + (hval <<< 5) + (hval <<< 7) + (hval <<< 8) +
      (hval <<< 40))

/-- The multiplication of `str2key` without `__GNUC__`. -/
def multiplyPrime (width : SizeWidth) (hval : width.Size) : width.Size := hval * fnvPrime width

/-- A byte as a number of type `size_t`. -/
def sizeOfByte (width : SizeWidth) (byte : UInt8) : width.Size := byte.toBitVec.setWidth width.bits

/-- The loop of `str2key`, from a pointer into a string on. -/
def hashLoop (width : SizeWidth) (multiply : width.Size → width.Size) :
    List UInt8 → width.Size → width.Size → width.Size
  | [], _, hval => hval
  | byte :: rest, length, hval =>
    if length = 0 then hval
    else hashLoop width multiply rest (length - 1) (multiply (hval ^^^ sizeOfByte width byte))

/-- `str2key`, with one of the multiplications. -/
def str2key (width : SizeWidth) (multiply : width.Size → width.Size) (str : Option CString)
    (length : width.Size) : width.Size :=
  match str with
  | none => 0
  | some str =>
    let length := if length = 0 then sizeMax width else length
    hashLoop width multiply str.bytes length (fnvInit width)

/-- The hash function FNV-1a. -/
def fnv1a (width : SizeWidth) (bytes : List UInt8) : width.Size :=
  bytes.foldl (fun hval byte => (hval ^^^ sizeOfByte width byte) * fnvPrime width) (fnvInit width)

/-- The number of bytes that a length stands for. -/
def lengthLimit (width : SizeWidth) (length : width.Size) : ℕ :=
  if length = 0 then (sizeMax width).toNat else length.toNat

variable {width : SizeWidth}

/-- The shifts and additions for 32 bits: the prime is 2^24 + 2^8 + 0x93. -/
theorem shifts32 (hval : BitVec 32) :
    hval + ((hval <<< 1) + (hval <<< 4) + (hval <<< 7) + (hval <<< 8) + (hval <<< 24)) =
      hval * 0x01000193#32 := by
  simp only [BitVec.shiftLeft_eq_mul_twoPow, ← mul_add]
  rw [← mul_one_add]
  rfl

/-- The shifts and additions for 64 bits: the prime is 2^40 + 2^8 + 0xb3. -/
theorem shifts64 (hval : BitVec 64) :
    hval + ((hval <<< 1) + (hval <<< 4) + (hval <<< 5) + (hval <<< 7) + (hval <<< 8) +
      (hval <<< 40)) = hval * 0x100000001b3#64 := by
  simp only [BitVec.shiftLeft_eq_mul_twoPow, ← mul_add]
  rw [← mul_one_add]
  rfl

/-- Shifts and additions multiply by the prime. -/
theorem multiplyGnuc_eq (width : SizeWidth) : multiplyGnuc width = multiplyPrime width := by
  funext hval
  cases width with
  | bits32 => exact shifts32 hval
  | bits64 => exact shifts64 hval

/-- The loop hashes as many bytes as the length allows. -/
theorem hashLoop_eq (bytes : List UInt8) (length hval : width.Size) :
    hashLoop width (multiplyPrime width) bytes length hval =
      (bytes.take length.toNat).foldl
        (fun hval byte => (hval ^^^ sizeOfByte width byte) * fnvPrime width) hval := by
  induction bytes generalizing length hval with
  | nil =>
    rw [List.take_nil]
    rfl
  | cons byte rest ih =>
    rw [hashLoop]
    split_ifs with zero
    · have none : length.toNat = 0 := by simp [zero]
      rw [none]
      rfl
    · have positive : 0 < length.toNat := by
        apply Nat.pos_of_ne_zero
        intro none
        exact zero (BitVec.eq_of_toNat_eq none)
      have before : (length - 1).toNat = length.toNat - 1 := by
        have one : (1 : width.Size).toNat = 1 := by cases width <;> rfl
        rw [BitVec.toNat_sub_of_le (BitVec.le_def.2 (by omega)), one]
      obtain ⟨fewer, count⟩ := Nat.exists_eq_succ_of_ne_zero positive.ne'
      rw [ih, before, count, List.take_succ_cons, List.foldl_cons]
      rfl

/-- `str2key` is FNV-1a of the bytes that the length allows. -/
theorem str2key_eq (str : CString) (length : width.Size) :
    str2key width (multiplyPrime width) (some str) length =
      fnv1a width (str.bytes.take (lengthLimit width length)) := by
  unfold str2key lengthLimit
  dsimp only
  rw [hashLoop_eq]
  split_ifs <;> rfl

/-- The shift-and-add version of `str2key` is the multiplying one, for both widths of `size_t`,
and both are FNV-1a of the bytes up to the terminator or the length. Without a length these are
all bytes of a string. -/
theorem str2key_fnv1a (width : SizeWidth) (str : CString) (length : width.Size) :
    str2key width (multiplyGnuc width) (some str) length =
        str2key width (multiplyPrime width) (some str) length ∧
      str2key width (multiplyPrime width) (some str) length =
        fnv1a width (str.bytes.take (min str.strlen (lengthLimit width length))) ∧
      (length = 0 → str.strlen ≤ (sizeMax width).toNat →
        str2key width (multiplyPrime width) (some str) length = fnv1a width str.bytes) := by
  rw [multiplyGnuc_eq, str2key_eq]
  refine ⟨rfl, ?_, ?_⟩
  · rw [CString.strlen, min_comm, ← List.take_eq_take_min]
  · intro zero fits
    rw [lengthLimit, if_pos zero, List.take_of_length_le fits]

/-- The key of the name of a locale category. -/
theorem str2key_fnv1a_ctype :
    str2key .bits64 (multiplyPrime .bits64) (some (CString.lit "ctype")) 0 =
      fnv1a .bits64 (CString.lit "ctype").bytes :=
  (str2key_fnv1a .bits64 (CString.lit "ctype") 0).2.2 rfl (by decide)

end Bpcp.Samples
