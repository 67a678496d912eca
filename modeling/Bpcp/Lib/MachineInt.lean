import Mathlib

/-!
# Machine integers

An integer type of C is a signedness and a width. Its values are the integers between its
limits, and conversion to it keeps an integer that is one of them and otherwise reduces it
modulo the power of two of the width.
-/

namespace Bpcp.Lib

/-- A two's complement or unsigned integer type. -/
structure IntType where
  /-- Whether the type has negative values. -/
  signed : Bool
  /-- The width. -/
  bits : ℕ
  /-- There is at least one bit. -/
  positive : 0 < bits

namespace IntType

/-- `int32_t`. -/
def int32 : IntType := ⟨true, 32, by decide⟩

/-- `uint32_t`. -/
def uint32 : IntType := ⟨false, 32, by decide⟩

/-- `int64_t`. -/
def int64 : IntType := ⟨true, 64, by decide⟩

/-- `uint64_t`. -/
def uint64 : IntType := ⟨false, 64, by decide⟩

/-- The least value. -/
def least (type : IntType) : ℤ := if type.signed then -2 ^ (type.bits - 1) else 0

/-- The greatest value. -/
def greatest (type : IntType) : ℤ := type.least + 2 ^ type.bits - 1

/-- The type can represent the integer. -/
def Represents (type : IntType) (n : ℤ) : Prop := type.least ≤ n ∧ n ≤ type.greatest

instance (type : IntType) (n : ℤ) : Decidable (type.Represents n) :=
  inferInstanceAs (Decidable (_ ∧ _))

/-- A value of the type. -/
def Value (type : IntType) : Type := {n : ℤ // type.Represents n}

instance (type : IntType) : DecidableEq type.Value := inferInstanceAs (DecidableEq (Subtype _))

/-- Conversion to the type. -/
def wrap (type : IntType) (n : ℤ) : type.Value :=
  ⟨type.least + (n - type.least) % 2 ^ type.bits, by
    have size : (0 : ℤ) < 2 ^ type.bits := by positivity
    have nonneg := Int.emod_nonneg (n - type.least) size.ne'
    have below := Int.emod_lt_of_pos (n - type.least) size
    exact ⟨by omega, by rw [greatest]; omega⟩⟩

/-- Conversion keeps what the type can represent. -/
theorem wrap_val {type : IntType} {n : ℤ} (fits : type.Represents n) : (type.wrap n).1 = n := by
  obtain ⟨low, high⟩ := fits
  rw [greatest] at high
  change type.least + (n - type.least) % 2 ^ type.bits = n
  rw [Int.emod_eq_of_lt (by omega) (by omega)]
  omega

end IntType

/-! ## Unsigned integers -/

/-- `UINT_MAX`. -/
def uintMax : ℕ := 2 ^ 32 - 1

/-- A sum of type `unsigned int`, when it does not wrap around. -/
def uintAdd (left right : ℕ) : Option ℕ :=
  if left + right ≤ uintMax then some (left + right) else none

/-- A product of type `unsigned int`, which may wrap around. -/
def uintMulWrapped (left right : ℕ) : ℕ := left * right % 2 ^ 32

/-- A product of type `unsigned int`, when it does not wrap around. -/
def uintMul (left right : ℕ) : Option ℕ :=
  if left * right ≤ uintMax then some (left * right) else none

end Bpcp.Lib
