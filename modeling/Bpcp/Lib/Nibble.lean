import Mathlib

/-!
# Halves of bytes

A byte is two numbers of four bits. The high half is found by a shift and the low half by a
mask, and two halves are put together by shifting one of them and adding the other bit by
bit.
-/

namespace Bpcp.Lib.Nibble

/-- The low half is the remainder by sixteen. -/
theorem toNat_low (byte : UInt8) : (byte &&& (15 : UInt8)).toNat = byte.toNat % 16 := by
  rw [UInt8.toNat_and]
  exact Nat.and_two_pow_sub_one_eq_mod _ 4

/-- The high half is the quotient by sixteen. -/
theorem toNat_high (byte : UInt8) : (byte >>> (4 : UInt8)).toNat = byte.toNat / 16 := by
  rw [UInt8.toNat_shiftRight]
  exact Nat.shiftRight_eq_div_pow _ _

/-- A half is raised by a factor of sixteen. -/
theorem toNat_raise {half : UInt8} (small : half.toNat < 16) :
    (half <<< (4 : UInt8)).toNat = half.toNat * 16 := by
  have shift : (4 : UInt8).toNat % 8 = 4 := rfl
  rw [UInt8.toNat_shiftLeft, shift, Nat.shiftLeft_eq]
  omega

/-- A low half is small. -/
theorem low_small (byte : UInt8) : (byte &&& (15 : UInt8)).toNat < 16 := by
  rw [toNat_low]
  exact Nat.mod_lt _ (by decide)

/-- A high half is small. -/
theorem high_small (byte : UInt8) : (byte >>> (4 : UInt8)).toNat < 16 := by
  have bound := byte.toNat_lt
  rw [toNat_high]
  omega

/-- A small byte is its own low half. -/
theorem low_of_small {half : UInt8} (small : half.toNat < 16) :
    half &&& (15 : UInt8) = half := by
  apply UInt8.toNat_inj.1
  rw [toNat_low, Nat.mod_eq_of_lt small]

/-- A raised half is the high half. -/
theorem high_raise {half : UInt8} (small : half.toNat < 16) :
    (half <<< (4 : UInt8)) >>> (4 : UInt8) = half := by
  apply UInt8.toNat_inj.1
  rw [toNat_high, toNat_raise small]
  omega

/-- Nothing is below a raised half. -/
theorem low_raise {half : UInt8} (small : half.toNat < 16) :
    (half <<< (4 : UInt8)) &&& (15 : UInt8) = 0 := by
  apply UInt8.toNat_inj.1
  rw [toNat_low, toNat_raise small]
  exact Nat.mul_mod_left _ _

/-- A low half that is added leaves the high half. -/
theorem high_or {byte half : UInt8} (small : half.toNat < 16) :
    (byte ||| half) >>> (4 : UInt8) = byte >>> (4 : UInt8) := by
  have split := Nat.shiftRight_or_distrib (a := byte.toNat) (b := half.toNat) (i := 4)
  have none : half.toNat / 2 ^ 4 = 0 := by omega
  rw [Nat.shiftRight_eq_div_pow, Nat.shiftRight_eq_div_pow, Nat.shiftRight_eq_div_pow, none,
    Nat.or_zero] at split
  apply UInt8.toNat_inj.1
  rw [toNat_high, toNat_high, UInt8.toNat_or]
  exact split

/-- A low half that is added to none is the low half. -/
theorem low_or {byte half : UInt8} (small : half.toNat < 16)
    (none : byte &&& (15 : UInt8) = 0) : (byte ||| half) &&& (15 : UInt8) = half := by
  have empty := congrArg UInt8.toNat none
  have kept := congrArg UInt8.toNat (low_of_small small)
  rw [UInt8.toNat_and] at empty kept
  apply UInt8.toNat_inj.1
  rw [UInt8.toNat_and, UInt8.toNat_or, Nat.and_or_distrib_right, empty, kept]
  exact Nat.zero_or _

/-- Four bits of a word. -/
theorem toNat_word (word : UInt16) {shift : UInt16} (small : shift.toNat < 16) :
    ((word >>> shift) &&& (15 : UInt16)).toUInt8.toNat = word.toNat / 2 ^ shift.toNat % 16 := by
  have inside : shift.toNat % 16 = shift.toNat := Nat.mod_eq_of_lt small
  have mask : (15 : UInt16).toNat = 2 ^ 4 - 1 := rfl
  rw [UInt16.toNat_toUInt8, UInt16.toNat_and, UInt16.toNat_shiftRight, inside, mask,
    Nat.and_two_pow_sub_one_eq_mod, Nat.shiftRight_eq_div_pow]
  omega

/-- The lowest four bits of a word. -/
theorem toNat_word_low (word : UInt16) :
    (word &&& (15 : UInt16)).toUInt8.toNat = word.toNat % 16 := by
  have mask : (15 : UInt16).toNat = 2 ^ 4 - 1 := rfl
  rw [UInt16.toNat_toUInt8, UInt16.toNat_and, mask, Nat.and_two_pow_sub_one_eq_mod]
  omega

/-- The low half of a byte is raised by a shift. -/
theorem shift_mask (byte : UInt8) :
    (byte <<< 4) &&& (0xF0 : UInt8) = (byte &&& (15 : UInt8)) <<< 4 :=
  (UInt8.shiftLeft_and (a := byte) (b := 15) (c := 4)).symm

/-- A byte of a word of four bytes. -/
theorem toNat_byteOf (word shift : UInt32) (small : shift.toNat < 32) :
    ((word >>> shift) &&& (0xFF : UInt32)).toUInt8.toNat = word.toNat / 2 ^ shift.toNat % 256 := by
  have inside : shift.toNat % 32 = shift.toNat := Nat.mod_eq_of_lt small
  have mask : (0xFF : UInt32).toNat = 2 ^ 8 - 1 := rfl
  rw [UInt32.toNat_toUInt8, UInt32.toNat_and, UInt32.toNat_shiftRight, inside, mask,
    Nat.and_two_pow_sub_one_eq_mod, Nat.shiftRight_eq_div_pow]
  omega

end Bpcp.Lib.Nibble
