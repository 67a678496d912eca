import Bpcp.Lib.CString
import Bpcp.Lib.FloatValue

/-!
# Texts of numbers

Integers are written as `printf` writes them in decimal, and numbers are read as `strtod`
reads them in the C locale: blanks, a sign, then an infinity, not a number, or a decimal or
hexadecimal significand with an optional exponent. Reading the decimal text of an integer
gives the double nearest to that integer, so no two integers share a text.
-/

namespace Bpcp.Lib

/-- The value of a decimal digit. -/
def decimalDigit? (byte : UInt8) : Option Nat :=
  if 48 ≤ byte ∧ byte ≤ 57 then some (byte.toNat - 48) else none

/-- The value of a hexadecimal digit of either case. -/
def hexDigit? (byte : UInt8) : Option Nat :=
  if 97 ≤ toLower byte ∧ toLower byte ≤ 102 then some ((toLower byte).toNat - 87)
  else decimalDigit? byte

/-! ## Writing -/

/-- The character of a digit. -/
def digitByte (digit : Nat) : UInt8 := UInt8.ofNat (48 + digit)

/-- The decimal digits of a natural number. -/
def decimalNat (n : Nat) : List UInt8 := (Nat.toDigits 10 n).map fun char => UInt8.ofNat char.toNat

/-- The decimal text of an integer, as `%d` prints it. -/
def decimalInt (n : Int) : List UInt8 :=
  if n < 0 then 45 :: decimalNat n.natAbs else decimalNat n.natAbs

/-- The byte of a single digit. -/
theorem digitChar_byte {digit : Nat} (small : digit < 10) :
    UInt8.ofNat digit.digitChar.toNat = digitByte digit := by
  interval_cases digit <;> rfl

/-- Digits come off the end of a decimal text. -/
theorem decimalNat_eq (n : Nat) :
    decimalNat n = (if n < 10 then [] else decimalNat (n / 10)) ++ [digitByte (n % 10)] := by
  rw [decimalNat, Nat.toDigits_eq_if (by decide)]
  by_cases small : n < 10
  · simp [small, digitChar_byte, Nat.mod_eq_of_lt]
  · simp [small, digitChar_byte (Nat.mod_lt n (by decide : 0 < 10)), decimalNat]

/-- A decimal text has at least one digit. -/
theorem decimalNat_ne_nil (n : Nat) : decimalNat n ≠ [] := by
  rw [decimalNat_eq]
  simp

/-- A number below a power of ten has at most that many digits. -/
theorem decimalNat_length {n digits : Nat} (positive : 0 < digits) (small : n < 10 ^ digits) :
    (decimalNat n).length ≤ digits := by
  rw [decimalNat, List.length_map]
  exact (Nat.length_toDigits_le_iff (by decide) positive).2 small

/-- A digit byte reads as its digit. -/
theorem decimalDigit?_digitByte {digit : Nat} (small : digit < 10) :
    decimalDigit? (digitByte digit) = some digit := by
  interval_cases digit <;> rfl

/-- Every byte of a decimal text is a digit. -/
theorem decimalNat_digits (n : Nat) : ∀ byte ∈ decimalNat n, (decimalDigit? byte).isSome := by
  induction n using Nat.strong_induction_on with
  | _ n ih =>
    intro byte member
    rw [decimalNat_eq] at member
    rcases List.mem_append.1 member with earlier | last
    · by_cases small : n < 10
      · simp [small] at earlier
      · exact ih (n / 10) (by omega) byte (by simpa [small] using earlier)
    · rw [List.mem_singleton.1 last, decimalDigit?_digitByte (by omega)]
      rfl

/-- A digit is none of the bytes outside the range of the digits. -/
theorem digit_bounds {byte : UInt8} (digit : (decimalDigit? byte).isSome) :
    48 ≤ byte ∧ byte ≤ 57 := by
  unfold decimalDigit? at digit
  split at digit
  · assumption
  · simp at digit

/-! ## Reading -/

/-- A leading sign, and the text behind it. -/
def readSign : List UInt8 → Bool × List UInt8
  | 45 :: rest => (true, rest)
  | 43 :: rest => (false, rest)
  | rest => (false, rest)

/-- The number that digits spell in a base. -/
def digitsValue (base : Nat) (digit? : UInt8 → Option Nat) (digits : List UInt8) : Nat :=
  digits.foldl (fun value byte => base * value + (digit? byte).getD 0) 0

/-- A significand: the number its digits spell, how many of them follow the point, and the
text behind it. There is none without a digit. -/
def readSignificand (base : Nat) (digit? : UInt8 → Option Nat) (text : List UInt8) :
    Option (Nat × Nat × List UInt8) :=
  let isDigit := fun byte => (digit? byte).isSome
  let whole := text.takeWhile isDigit
  let rest := text.dropWhile isDigit
  let (fraction, rest) := match rest with
    | 46 :: tail => (tail.takeWhile isDigit, tail.dropWhile isDigit)
    | _ => ([], rest)
  if whole = [] ∧ fraction = [] then none
  else some (digitsValue base digit? (whole ++ fraction), fraction.length, rest)

/-- The exponent behind its mark, zero where there is none. -/
def readExponent (mark : UInt8) : List UInt8 → Int
  | [] => 0
  | byte :: rest =>
    if toLower byte = mark then
      let (negative, rest) := readSign rest
      let value : Int :=
        digitsValue 10 decimalDigit? (rest.takeWhile fun byte => (decimalDigit? byte).isSome)
      if negative then -value else value
    else 0

/-- A decimal number; text that is none counts as zero. -/
def readDecimal (text : List UInt8) : ℚ :=
  match readSignificand 10 decimalDigit? text with
  | some (digits, places, rest) => digits * 10 ^ (readExponent 101 rest - places)
  | none => 0

/-- The number behind the sign, before it is rounded. -/
def readMagnitude (text : List UInt8) : FloatValue :=
  if (text.take 3).map toLower = [105, 110, 102] then .inf false
  else if (text.take 3).map toLower = [110, 97, 110] then .nan
  else match (text.take 2).map toLower, readSignificand 16 hexDigit? (text.drop 2) with
    | [48, 120], some (digits, places, rest) =>
      .finite (digits * 16 ^ (-(places : ℤ)) * 2 ^ readExponent 112 rest)
    | _, _ => .finite (readDecimal text)

/-- `strtod`: the double nearest to the number at the start of the text. -/
def strtod (text : List UInt8) : FloatValue :=
  let (negative, rest) := readSign (text.dropWhile isSpace)
  match readMagnitude rest with
  | .nan => .nan
  | .inf _ => .inf negative
  | .finite value => FloatValue.round FloatValue.binary64 (signed negative value)

/-- The digits of a number spell it. -/
theorem digitsValue_decimalNat (n : Nat) : digitsValue 10 decimalDigit? (decimalNat n) = n := by
  induction n using Nat.strong_induction_on with
  | _ n ih =>
    rw [decimalNat_eq, digitsValue, List.foldl_append, ← digitsValue]
    by_cases small : n < 10
    · simp [digitsValue, small, Nat.mod_eq_of_lt small, decimalDigit?_digitByte small]
    · rw [if_neg small, ih (n / 10) (by omega)]
      simp only [List.foldl_cons, List.foldl_nil,
        decimalDigit?_digitByte (Nat.mod_lt n (by decide : 0 < 10)), Option.getD_some]
      omega

/-- A text of digits only is read as the number they spell. -/
theorem readDecimal_decimalNat (n : Nat) : readDecimal (decimalNat n) = n := by
  have all := List.takeWhile_eq_self_iff.2 (decimalNat_digits n)
  have none := List.dropWhile_eq_nil_iff.2 (decimalNat_digits n)
  simp [readDecimal, readSignificand, all, none, decimalNat_ne_nil, digitsValue_decimalNat,
    readExponent]

/-- A text of digits only shows no pattern with a letter in it. -/
theorem digits_avoid {text : List UInt8} (digits : ∀ byte ∈ text, (decimalDigit? byte).isSome)
    (pattern : List UInt8) (letter : UInt8) (large : 57 < letter) (inside : letter ∈ pattern)
    (count : Nat) : (text.take count).map toLower ≠ pattern := by
  rintro rfl
  obtain ⟨byte, member, lowered⟩ := List.mem_map.1 inside
  have bounds := digit_bounds (digits byte (List.mem_of_mem_take member))
  have notUpper : ¬(65 ≤ byte ∧ byte ≤ 90) := fun upper =>
    absurd (UInt8.le_trans upper.1 bounds.2) (by decide)
  rw [toLower, if_neg notUpper] at lowered
  exact absurd (lowered ▸ bounds.2) (UInt8.not_le.2 large)

/-- A text of digits only is a finite decimal number. -/
theorem readMagnitude_decimalNat (n : Nat) : readMagnitude (decimalNat n) = .finite n := by
  have digits := decimalNat_digits n
  have notInf := digits_avoid digits [105, 110, 102] 105 (by decide) (by decide) 3
  have notNan := digits_avoid digits [110, 97, 110] 110 (by decide) (by decide) 3
  have notHex := digits_avoid digits [48, 120] 120 (by decide) (by decide) 2
  rw [readMagnitude, if_neg notInf, if_neg notNan, readDecimal_decimalNat]
  split
  · rename_i hex _
    exact absurd hex notHex
  · rfl

/-- Nothing in front of a digit is skipped. -/
theorem dropWhile_isSpace_decimalNat (n : Nat) :
    (decimalNat n).dropWhile isSpace = decimalNat n := by
  cases text : decimalNat n with
  | nil => rfl
  | cons byte rest =>
    have bounds := digit_bounds (decimalNat_digits n byte (by simp [text]))
    rw [List.dropWhile_cons_of_neg]
    simp only [isSpace, Bool.or_eq_true, beq_iff_eq, Bool.and_eq_true, decide_eq_true_eq]
    rintro (rfl | ⟨-, high⟩)
    · exact absurd bounds.1 (by decide)
    · exact absurd (UInt8.le_trans bounds.1 high) (by decide)

/-- A digit is no sign. -/
theorem readSign_decimalNat (n : Nat) : readSign (decimalNat n) = (false, decimalNat n) := by
  cases text : decimalNat n with
  | nil => rfl
  | cons byte rest =>
    have bounds := digit_bounds (decimalNat_digits n byte (by simp [text]))
    rw [readSign]
    · rintro rest' ⟨rfl, -⟩
      exact absurd bounds.1 (by decide)
    · rintro rest' ⟨rfl, -⟩
      exact absurd bounds.1 (by decide)

/-- `strtod` reads the text of an integer as the double nearest to it. -/
theorem strtod_decimalInt (n : Int) :
    strtod (decimalInt n) = FloatValue.round FloatValue.binary64 n := by
  by_cases negative : n < 0
  · have magnitude : ((n.natAbs : ℕ) : ℚ) = -(n : ℚ) := by
      rw [Nat.cast_natAbs, abs_of_neg negative, Int.cast_neg]
    rw [decimalInt, if_pos negative, strtod, List.dropWhile_cons_of_neg (by decide)]
    simp only [readSign, readMagnitude_decimalNat, signed, magnitude, if_true, neg_neg]
  · have magnitude : ((n.natAbs : ℕ) : ℚ) = (n : ℚ) := by
      rw [Nat.cast_natAbs, abs_of_nonneg (not_lt.1 negative)]
    rw [decimalInt, if_neg negative, strtod, dropWhile_isSpace_decimalNat]
    simp only [readSign_decimalNat, readMagnitude_decimalNat, signed, magnitude]
    rfl

/-- Integers with the same text are equal. -/
theorem decimalInt_injective : Function.Injective decimalInt := by
  intro left right same
  have value : ∀ n : Int, (readSign (decimalInt n)).1 = decide (n < 0) ∧
      digitsValue 10 decimalDigit? (readSign (decimalInt n)).2 = n.natAbs := by
    intro n
    by_cases negative : n < 0
    · rw [decimalInt, if_pos negative]
      exact ⟨by simp [readSign, negative], digitsValue_decimalNat _⟩
    · rw [decimalInt, if_neg negative, readSign_decimalNat]
      exact ⟨by simp [negative], digitsValue_decimalNat _⟩
  have signs := (value left).1.symm.trans (same ▸ (value right).1)
  have sizes := (value left).2.symm.trans (same ▸ (value right).2)
  rw [decide_eq_decide] at signs
  omega

/-- The text of an integer holds no NUL. -/
theorem decimalInt_noNul (n : Int) : (0 : UInt8) ∉ decimalInt n := by
  have digits : (0 : UInt8) ∉ decimalNat n.natAbs := fun member =>
    absurd (digit_bounds (decimalNat_digits _ 0 member)).1 (by decide)
  rw [decimalInt]
  split
  · simpa using digits
  · exact digits

/-- An integer below a power of ten has at most that many digits and a sign. -/
theorem decimalInt_length {n : Int} {digits : Nat} (positive : 0 < digits)
    (small : n.natAbs < 10 ^ digits) : (decimalInt n).length ≤ digits + 1 := by
  have length := decimalNat_length positive small
  rw [decimalInt]
  split
  · simpa using length
  · omega

/-- The text of an integer is not empty. -/
theorem decimalInt_ne_nil (n : Int) : decimalInt n ≠ [] := by
  rw [decimalInt]
  split
  · exact List.cons_ne_nil _ _
  · exact decimalNat_ne_nil _

/-- The text of an integer as a string. -/
def CString.decimal (n : Int) : CString := ⟨decimalInt n, decimalInt_noNul n⟩

end Bpcp.Lib
