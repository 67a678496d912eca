import Mathlib

/-!
# Values of binary floating-point formats

A floating-point number is read as its exact value: a rational, an infinity or not a
number. The two zeros have one value. Arithmetic rounds the exact result to the nearest
value of a format, ties to even, and a rational with few enough significant bits is not
changed by it. Two encodings are decoded: the IEEE 754 binary64 word, and the extended
format of the x87 unit, whose 64-bit significand holds its leading one explicitly.
-/

namespace Bpcp.Lib

/-- The value of a floating-point number. -/
inductive FloatValue where
  /-- Not a number. -/
  | nan
  /-- An infinity. -/
  | inf (negative : Bool)
  /-- A finite number. -/
  | finite (value : ℚ)
deriving DecidableEq

namespace FloatValue

/-- `isnan`. -/
def isNan : FloatValue → Bool
  | nan => true
  | _ => false

/-- `isinf`: -1 and 1 for the two infinities and zero for everything else. -/
def isInf : FloatValue → Int
  | inf true => -1
  | inf false => 1
  | _ => 0

/-- The operator `<`, false when an operand is not a number. -/
def lt : FloatValue → FloatValue → Bool
  | nan, _ => false
  | _, nan => false
  | inf l, inf r => l && !r
  | inf l, finite _ => l
  | finite _, inf r => !r
  | finite l, finite r => decide (l < r)

/-- The operator `<=`, false when an operand is not a number. -/
def le : FloatValue → FloatValue → Bool
  | nan, _ => false
  | _, nan => false
  | inf l, inf r => l || !r
  | inf l, finite _ => l
  | finite _, inf r => !r
  | finite l, finite r => decide (l ≤ r)

/-- The test `fabs(a - b) <= max(fabs(a), fabs(b)) * epsilon` in exact arithmetic. Infinite
operands follow the rules of arithmetic: the difference of equal infinities is not a number,
and every other difference with an infinity is within the infinite tolerance. -/
def within (epsilon : ℚ) : FloatValue → FloatValue → Bool
  | nan, _ => false
  | _, nan => false
  | inf l, inf r => l != r
  | inf _, finite _ => true
  | finite _, inf _ => true
  | finite l, finite r => decide (|l - r| ≤ max |l| |r| * epsilon)

/-- For integers the tolerance test is one of integers. -/
theorem within_int {bits : ℕ} {l r : ℤ} :
    within (1 / 2 ^ bits) (finite l) (finite r) = true ↔ |l - r| * 2 ^ bits ≤ max |l| |r| := by
  rw [within, decide_eq_true_eq, mul_one_div, le_div_iff₀ (by positivity)]
  exact_mod_cast Iff.rfl

/-- Conversion to an integer type: the fraction is discarded. -/
def truncate (value : ℚ) : Int := value.num.tdiv value.den

/-- An integer is its own truncation. -/
@[simp] theorem truncate_int (n : ℤ) : truncate n = n := by
  simp [truncate]

/-- A binary format: the bits of the significand, the exponent of the least positive value
and the exponent from which on values overflow. -/
structure Format where
  /-- Significant bits, the leading one included. -/
  precision : ℕ
  /-- Exponent of the unit in the last place of the least values. -/
  minExponent : ℤ
  /-- Values of this power of two and above overflow. -/
  maxExponent : ℤ

/-- IEEE 754 double precision. -/
def binary64 : Format := ⟨53, -1074, 1024⟩

/-- The nearest integer, ties to even. -/
def roundHalfEven (value : ℚ) : ℤ :=
  let below := ⌊value⌋
  if value - below < 1 / 2 then below
  else if 1 / 2 < value - below then below + 1
  else if below % 2 = 0 then below
  else below + 1

/-- An integer is the nearest integer to itself. -/
@[simp] theorem roundHalfEven_int (n : ℤ) : roundHalfEven n = n := by
  simp [roundHalfEven]

/-- Exponent of the unit in the last place of a value in a format. -/
def ulpExponent (format : Format) (value : ℚ) : ℤ :=
  max (Int.log 2 |value| + 1 - format.precision) format.minExponent

/-- The value of a format nearest to a rational. -/
def round (format : Format) (value : ℚ) : FloatValue :=
  if value = 0 then finite 0 else
    let unit : ℚ := 2 ^ ulpExponent format value
    let rounded := roundHalfEven (value / unit) * unit
    if (2 : ℚ) ^ format.maxExponent ≤ |rounded| then inf (value < 0) else finite rounded

/-- Addition in a format. -/
def add (format : Format) : FloatValue → FloatValue → FloatValue
  | nan, _ => nan
  | _, nan => nan
  | inf l, inf r => if l = r then inf l else nan
  | inf l, finite _ => inf l
  | finite _, inf r => inf r
  | finite l, finite r => round format (l + r)

/-- An integer that fits the significand is a value of the format. -/
theorem round_int (format : Format) (n : ℤ) (fits : |n| < 2 ^ format.precision)
    (small : format.minExponent ≤ 0) (large : format.precision ≤ format.maxExponent) :
    round format n = finite n := by
  by_cases zero : n = 0
  · simp [round, zero]
  have nonzero : (n : ℚ) ≠ 0 := by exact_mod_cast zero
  have size : |(n : ℚ)| < 2 ^ (format.precision : ℤ) := by
    rw [zpow_natCast]
    exact_mod_cast fits
  have unitSmall : ulpExponent format n ≤ 0 := by
    have := (Int.lt_zpow_iff_log_lt one_lt_two (abs_pos.2 nonzero)).1 size
    exact max_le (by omega) small
  -- The quotient by a unit of at most one is an integer again.
  obtain ⟨scale, exponent⟩ := Int.eq_ofNat_of_zero_le (Int.neg_nonneg_of_nonpos unitSmall)
  have quotient : (n : ℚ) / 2 ^ ulpExponent format n = ((n * 2 ^ scale : ℤ) : ℚ) := by
    rw [div_eq_mul_inv, ← zpow_neg, exponent]
    push_cast
    rfl
  have unitPos : (2 : ℚ) ^ ulpExponent format n ≠ 0 := by positivity
  have bounded : ¬ (2 : ℚ) ^ format.maxExponent ≤ |(n : ℚ)| :=
    not_le.2 (size.trans_le (zpow_le_zpow_right₀ one_le_two large))
  simp only [round, if_neg nonzero]
  rw [quotient, roundHalfEven_int, ← quotient, div_mul_cancel₀ _ unitPos, if_neg bounded]

/-- An integer of at most 53 bits is a double. -/
theorem round_binary64_int (n : ℤ) (fits : |n| < 2 ^ 53) : round binary64 n = finite n :=
  round_int binary64 n fits (by decide) (by decide)

end FloatValue

/-- A signed magnitude. -/
def signed (negative : Bool) (magnitude : ℚ) : ℚ := if negative then -magnitude else magnitude

/-- The magnitude is the absolute value. -/
theorem abs_signed (negative : Bool) {magnitude : ℚ} (nonneg : 0 ≤ magnitude) :
    |signed negative magnitude| = magnitude := by
  cases negative <;> simp [signed, abs_of_nonneg nonneg]

/-- An odd number scaled to an integer was scaled up. -/
theorem scale_nonneg {whole odd : ℕ} {scale : ℤ} (isOdd : odd % 2 = 1)
    (scaled : (whole : ℚ) = odd * 2 ^ scale) : 0 ≤ scale := by
  by_contra negative
  obtain ⟨k, shift⟩ : ∃ k : ℕ, scale = -((k : ℤ) + 1) :=
    ⟨(-scale - 1).toNat, by omega⟩
  have doubled : ((whole * 2 ^ k * 2 : ℕ) : ℚ) = (odd : ℕ) := by
    rw [shift, zpow_neg, ← div_eq_mul_inv, eq_div_iff (by positivity)] at scaled
    rw [← scaled, zpow_add_one₀ two_ne_zero, zpow_natCast]
    push_cast
    ring
  have := Nat.cast_injective doubled
  omega

/-- The bits of a double. -/
structure Double where
  /-- Sign, eleven bits of exponent and 52 bits of fraction. -/
  bits : UInt64
deriving DecidableEq

namespace Double

/-- The biased exponent field. -/
def exponent (number : Double) : ℕ := number.bits.toNat / 2 ^ 52 % 2 ^ 11

/-- The fraction field. -/
def fraction (number : Double) : ℕ := number.bits.toNat % 2 ^ 52

/-- The sign bit. -/
def negative (number : Double) : Bool := decide (2 ^ 63 ≤ number.bits.toNat)

/-- The value that the bits encode. -/
def value (number : Double) : FloatValue :=
  if number.exponent = 2047 then
    if number.fraction = 0 then .inf number.negative else .nan
  else if number.exponent = 0 then
    .finite (signed number.negative (number.fraction * 2 ^ (-1074 : ℤ)))
  else
    .finite (signed number.negative
      ((2 ^ 52 + number.fraction : ℕ) * 2 ^ ((number.exponent : ℤ) - 1075)))

/-- The infinities are the two words with all exponent bits set and no fraction. -/
theorem isInf_value (number : Double) :
    number.value.isInf = if number.bits = 0xFFF0000000000000 then -1
      else if number.bits = 0x7FF0000000000000 then 1 else 0 := by
  have bound := number.bits.toNat_lt
  have negInf : number.bits = 0xFFF0000000000000 ↔ number.bits.toNat = 0xFFF0000000000000 := by
    rw [← UInt64.toNat_inj]
    rfl
  have posInf : number.bits = 0x7FF0000000000000 ↔ number.bits.toNat = 0x7FF0000000000000 := by
    rw [← UInt64.toNat_inj]
    rfl
  simp only [negInf, posInf]
  rw [value]
  by_cases special : number.exponent = 2047
  · rw [if_pos special]
    unfold exponent at special
    by_cases zero : number.fraction = 0
    · rw [if_pos zero]
      unfold fraction at zero
      by_cases sign : 2 ^ 63 ≤ number.bits.toNat
      · rw [if_pos (by omega), negative, decide_eq_true sign]
        rfl
      · rw [if_neg (by omega), if_pos (by omega), negative, decide_eq_false sign]
        rfl
    · rw [if_neg zero]
      unfold fraction at zero
      rw [if_neg (by omega), if_neg (by omega)]
      rfl
  · have notNeg : number.bits.toNat ≠ 0xFFF0000000000000 := by
      rintro same
      exact special (by rw [exponent, same]; decide)
    have notPos : number.bits.toNat ≠ 0x7FF0000000000000 := by
      rintro same
      exact special (by rw [exponent, same]; decide)
    rw [if_neg special, if_neg notNeg, if_neg notPos]
    split <;> rfl

end Double

/-- The bytes of a long double in the extended format of the x87 unit. -/
structure LongDouble where
  /-- The 64-bit significand, which occupies the first eight bytes. -/
  significand : UInt64
  /-- The sign bit and fifteen bits of exponent, in the two bytes after it. -/
  signExponent : UInt16
deriving DecidableEq

namespace LongDouble

/-- The biased exponent field. -/
def exponent (number : LongDouble) : ℕ := number.signExponent.toNat % 2 ^ 15

/-- The sign bit. -/
def negative (number : LongDouble) : Bool := decide (2 ^ 15 ≤ number.signExponent.toNat)

/-- The value that the bytes encode. A significand without its leading one is invalid unless
the exponent field is zero. -/
def value (number : LongDouble) : FloatValue :=
  if number.exponent = 32767 then
    if number.significand.toNat = 2 ^ 63 then .inf number.negative else .nan
  else if number.exponent = 0 then
    .finite (signed number.negative (number.significand.toNat * 2 ^ (-16445 : ℤ)))
  else if number.significand.toNat < 2 ^ 63 then .nan
  else
    .finite (signed number.negative
      (number.significand.toNat * 2 ^ ((number.exponent : ℤ) - 16446)))

/-- The double that the first eight bytes of the number spell. -/
def firstDouble (number : LongDouble) : Double := ⟨number.significand⟩

/-- The value of a normalised number. -/
theorem value_normalised {number : LongDouble} {negative : Bool} {significand exponent : ℕ}
    (sign : number.negative = negative) (digits : number.significand.toNat = significand)
    (scale : number.exponent = exponent) (leading : 2 ^ 63 ≤ significand)
    (normal : 0 < exponent ∧ exponent < 32767) :
    number.value =
      .finite (signed negative (significand * 2 ^ ((exponent : ℤ) - 16446))) := by
  rw [value, if_neg (by omega), if_neg (by omega), if_neg (by omega), sign, digits, scale]

/-- A nonzero integer is held with a normalised significand. -/
theorem normalised_of_int {number : LongDouble} {n : ℤ} (holds : number.value = .finite n)
    (nonzero : n ≠ 0) :
    2 ^ 63 ≤ number.significand.toNat ∧
      (|n| : ℚ) = number.significand.toNat * 2 ^ ((number.exponent : ℤ) - 16446) := by
  have one : (1 : ℚ) ≤ |(n : ℚ)| := by exact_mod_cast Int.one_le_abs nonzero
  unfold value at holds
  split at holds
  · split at holds <;> cases holds
  split at holds
  · -- Without an exponent every magnitude is far below one.
    rename_i subnormal
    exfalso
    have magnitude := FloatValue.finite.inj holds
    have absolute := congrArg abs magnitude
    rw [abs_signed _ (by positivity)] at absolute
    have word : (number.significand.toNat : ℚ) < 2 ^ (64 : ℤ) := by
      exact_mod_cast number.significand.toNat_lt
    have tiny : (2 : ℚ) ^ (64 : ℤ) * 2 ^ (-16445 : ℤ) ≤ 1 := by
      rw [← zpow_add₀ two_ne_zero]
      exact zpow_le_one_of_nonpos₀ one_le_two (by norm_num)
    have scaled := mul_lt_mul_of_pos_right word (show (0 : ℚ) < 2 ^ (-16445 : ℤ) by positivity)
    linarith
  · split at holds
    · cases holds
    · rename_i leading
      have magnitude := FloatValue.finite.inj holds
      have absolute := congrArg abs magnitude
      rw [abs_signed _ (by positivity)] at absolute
      exact ⟨not_lt.1 leading, absolute.symm⟩

/-- Zero is held with a zero significand. -/
theorem significand_of_zero {number : LongDouble} (holds : number.value = .finite 0) :
    number.significand = 0 := by
  have scaled : ∀ {exponent : ℤ},
      signed number.negative (number.significand.toNat * 2 ^ exponent) = 0 →
        number.significand = 0 := by
    intro exponent zero
    have magnitude := congrArg abs zero
    rw [abs_signed _ (by positivity), abs_zero, mul_eq_zero] at magnitude
    have word := magnitude.resolve_right (by positivity)
    exact UInt64.toNat_inj.1 (by exact_mod_cast word)
  unfold value at holds
  split at holds
  · split at holds <;> cases holds
  split at holds
  · exact scaled (FloatValue.finite.inj holds)
  split at holds
  · cases holds
  · exact scaled (FloatValue.finite.inj holds)

end LongDouble

end Bpcp.Lib
