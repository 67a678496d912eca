import Bpcp.Purc.Variant

/-!
# Casts between numbers

The four casts to integers share their switch over the type of the source, and differ in
how they check the limits of long integers, unsigned long integers and long doubles. An
integer is cast exactly unless the target is `uint32_t`: that cast takes every long
integer that is not negative for representable, and takes the greatest value of its own
type for too large. An integral long double is cast exactly unless the first eight bytes
of its representation are those of an infinite double.
-/

namespace Bpcp.Purc

open Bpcp.Lib

/-- The end of a cast: `true` and the value that was stored, or `false` after a `break`,
which stores nothing. -/
def finishCast {α : Type} (target : α) : Option α → Bool × α
  | some value => (true, value)
  | none => (false, target)

/-- The check of a floating-point source against the limits of an integer type. What
`isinf` looks at is given apart from the value. -/
def castFloat (type : IntType) (tested value : FloatValue) (force : Bool) :
    Option type.Value :=
  if value.isNan then none
  else if tested.isInf = -1 ∨ value.le (.finite type.least) then
    if force then some (type.wrap type.least) else none
  else if tested.isInf = 1 ∨ FloatValue.le (.finite type.greatest) value then
    if force then some (type.wrap type.greatest) else none
  else match value with
    | .finite number => some (type.wrap (FloatValue.truncate number))
    | _ => none

/-- The check of a long double in the casts to unsigned types: zero is accepted, and a
value above the limit becomes the limit without being forced. -/
def castLongDoubleUnsigned (type : IntType) (ld : LongDouble) (force : Bool) :
    Option type.Value :=
  if ld.value.isNan then none
  else if ld.value.isInf = -1 ∨ ld.value.lt (.finite 0) then
    if force then some (type.wrap 0) else none
  else if ld.value.isInf = 1 ∨ FloatValue.le (.finite type.greatest) ld.value then
    some (type.wrap type.greatest)
  else match ld.value with
    | .finite number => some (type.wrap (FloatValue.truncate number))
    | _ => none

/-- The bytes of a string or byte sequence that a cast parses. -/
def castBytes : Storage → List UInt8
  | .static content _ => content.takeWhile (· ≠ 0)
  | .extra content _ => content
  | .inline bytes size _ => bytes.toList.take size

/-- The switch of the casts to integers, with the cases in which they differ. -/
def castInteger (rt : Runtime) (type : IntType) (parse : List UInt8 → Option type.Value)
    (longint : Int64 → Option type.Value) (ulongint : UInt64 → Option type.Value)
    (longdouble : LongDouble → Option type.Value) (force : Bool) : Variant → Option type.Value
  | .scalar _ .null => if force then some (type.wrap 0) else none
  | .scalar _ (.boolean b) => if force then some (type.wrap b.toInt) else none
  | .scalar _ (.number d) => castFloat type d.value d.value force
  | .scalar _ (.longint i64) => longint i64
  | .scalar _ (.ulongint u64) => ulongint u64
  | .scalar _ (.longdouble ld) => longdouble ld
  | .scalar _ (.atomstring atom) =>
    if force then some ((parse (rt.purcAtomToString atom).bytes).getD (type.wrap 0)) else none
  | .scalar _ (.string value) =>
    if force then some ((parse (castBytes value.storage)).getD (type.wrap 0)) else none
  | .scalar _ (.bsequence storage) =>
    if force then some ((parse (castBytes storage)).getD (type.wrap 0)) else none
  | _ => none

/-- `purc_variant_cast_to_int32`. -/
def purcVariantCastToInt32 (rt : Runtime) (v : Variant) (i32 : IntType.int32.Value)
    (force : Bool) : Bool × IntType.int32.Value :=
  finishCast i32 <| castInteger rt .int32 rt.pcutilsParseInt32
    (fun i64 =>
      if force ∨ IntType.int32.least ≤ i64.toInt ∧ i64.toInt ≤ IntType.int32.greatest then
        some (IntType.int32.wrap i64.toInt)
      else none)
    (fun u64 =>
      if IntType.int32.greatest < u64.toNat then
        if force then some (IntType.int32.wrap u64.toNat) else none
      else some (IntType.int32.wrap u64.toNat))
    (fun ld => castFloat .int32 ld.firstDouble.value ld.value force) force v

/-- `purc_variant_cast_to_uint32`. -/
def purcVariantCastToUint32 (rt : Runtime) (v : Variant) (u32 : IntType.uint32.Value)
    (force : Bool) : Bool × IntType.uint32.Value :=
  finishCast u32 <| castInteger rt .uint32 rt.pcutilsParseUint32
    (fun i64 =>
      if i64.toInt < 0 then
        if force then some (IntType.uint32.wrap i64.toInt) else none
      else some (IntType.uint32.wrap i64.toInt))
    (fun u64 =>
      if force ∨ u64.toNat < IntType.uint32.greatest then
        some (IntType.uint32.wrap u64.toNat)
      else none)
    (fun ld => castLongDoubleUnsigned .uint32 ld force) force v

/-- `purc_variant_cast_to_longint`. -/
def purcVariantCastToLongint (rt : Runtime) (v : Variant) (i64 : IntType.int64.Value)
    (force : Bool) : Bool × IntType.int64.Value :=
  finishCast i64 <| castInteger rt .int64 rt.pcutilsParseInt64
    (fun value => some (IntType.int64.wrap value.toInt))
    (fun u64 =>
      if IntType.int64.greatest < u64.toNat then
        if force then some (IntType.int64.wrap u64.toNat) else none
      else some (IntType.int64.wrap u64.toNat))
    (fun ld => castFloat .int64 ld.firstDouble.value ld.value force) force v

/-- `purc_variant_cast_to_ulongint`. -/
def purcVariantCastToUlongint (rt : Runtime) (v : Variant) (u64 : IntType.uint64.Value)
    (force : Bool) : Bool × IntType.uint64.Value :=
  finishCast u64 <| castInteger rt .uint64 rt.pcutilsParseUint64
    (fun i64 =>
      if i64.toInt < 0 then
        if force then some (IntType.uint64.wrap i64.toInt) else none
      else some (IntType.uint64.wrap i64.toInt))
    (fun value => some (IntType.uint64.wrap value.toNat))
    (fun ld => castLongDoubleUnsigned .uint64 ld force) force v

/-- `purc_variant_cast_to_longdouble`, which always keeps the value of a number. -/
def purcVariantCastToLongdouble (rt : Runtime) (v : Variant) (target : FloatValue)
    (force : Bool) : Bool × FloatValue :=
  finishCast target <| match v with
    | .scalar _ .null => if force then some (.finite 0) else none
    | .scalar _ (.boolean b) => if force then some (.finite b.toInt) else none
    | .scalar _ (.number d) => some d.value
    | .scalar _ (.longint i64) => some (.finite i64.toInt)
    | .scalar _ (.ulongint u64) => some (.finite u64.toNat)
    | .scalar _ (.longdouble ld) => some ld.value
    | .scalar _ (.atomstring atom) =>
      if force then
        some ((rt.pcutilsParseLongDouble (rt.purcAtomToString atom).bytes).getD (.finite 0))
      else none
    | .scalar _ (.string value) =>
      if force then
        some ((rt.pcutilsParseLongDouble (castBytes value.storage)).getD (.finite 0))
      else none
    | .scalar _ (.bsequence storage) =>
      if force then some ((rt.pcutilsParseLongDouble (castBytes storage)).getD (.finite 0))
      else none
    | _ => none

/-! ## Integers -/

/-- The value of a long integer or an unsigned long integer. -/
inductive IntegerValue where
  | longint (i64 : Int64)
  | ulongint (u64 : UInt64)
deriving DecidableEq

namespace IntegerValue

/-- The scalar with this value. -/
def scalar : IntegerValue → Scalar
  | longint i64 => .longint i64
  | ulongint u64 => .ulongint u64

/-- The integer itself. -/
def toInt : IntegerValue → ℤ
  | longint i64 => i64.toInt
  | ulongint u64 => u64.toNat

end IntegerValue

/-- The targets of the casts to integers. -/
inductive CastTarget where
  | int32 | uint32 | longint | ulongint
deriving DecidableEq

namespace CastTarget

/-- The type of the stored value. -/
def type : CastTarget → IntType
  | int32 => .int32
  | uint32 => .uint32
  | longint => .int64
  | ulongint => .uint64

/-- The cast to the target. -/
def cast (rt : Runtime) : (target : CastTarget) → Variant → target.type.Value → Bool →
    Bool × target.type.Value
  | int32 => purcVariantCastToInt32 rt
  | uint32 => purcVariantCastToUint32 rt
  | longint => purcVariantCastToLongint rt
  | ulongint => purcVariantCastToUlongint rt

end CastTarget

/-- A cast from an integer is exact: it succeeds when the target can represent the integer,
it then stores the integer, and it stores nothing when it fails. -/
def ExactCast (type : IntType) (n : ℤ) (run : type.Value → Bool × type.Value) : Prop :=
  ∀ target, ((run target).1 = true ↔ type.Represents n) ∧
    ((run target).1 = true → (run target).2.1 = n) ∧
    ((run target).1 = false → (run target).2 = target)

/-- A cast that converts under a check is exact when it checks what the target represents. -/
theorem exactCast_checked {type : IntType} {n : ℤ} {check : Prop} [Decidable check] :
    ExactCast type n
        (fun target => finishCast target (if check then some (type.wrap n) else none)) ↔
      (check ↔ type.Represents n) := by
  by_cases passes : check
  · simp only [ExactCast, if_pos passes, finishCast]
    constructor
    · intro exact
      have := (exact (type.wrap n)).1
      tauto
    · intro same target
      exact ⟨by tauto, fun _ => IntType.wrap_val (same.1 passes), by simp⟩
  · simp only [ExactCast, if_neg passes, finishCast]
    constructor
    · intro exact
      have := (exact (type.wrap n)).1
      tauto
    · intro same target
      exact ⟨by tauto, by simp, by simp⟩

/-- What the unforced casts check of an integer. -/
def CastTarget.accepts : CastTarget → IntegerValue → Bool
  | int32, .longint i64 =>
    IntType.int32.least ≤ i64.toInt ∧ i64.toInt ≤ IntType.int32.greatest
  | int32, .ulongint u64 => !decide (IntType.int32.greatest < u64.toNat)
  | uint32, .longint i64 => !decide (i64.toInt < 0)
  | uint32, .ulongint u64 => u64.toNat < IntType.uint32.greatest
  | longint, .longint _ => true
  | longint, .ulongint u64 => !decide (IntType.int64.greatest < u64.toNat)
  | ulongint, .longint i64 => !decide (i64.toInt < 0)
  | ulongint, .ulongint _ => true

/-- An unforced cast converts what passes its check. -/
theorem cast_unforced (rt : Runtime) (target : CastTarget) (addr : ℕ) (source : IntegerValue)
    (old : target.type.Value) :
    target.cast rt (.scalar addr source.scalar) old false = finishCast old
      (if target.accepts source then some (target.type.wrap source.toInt) else none) := by
  cases target <;> refine congrArg (finishCast old) ?_ <;> cases source <;>
    simp [-not_lt, -Int.not_lt, IntegerValue.scalar, castInteger, CastTarget.accepts,
      IntegerValue.toInt, CastTarget.type]

/-- An unforced cast of a long integer or an unsigned long integer is exact unless the
target is `uint32_t` and the source is a long integer from 2^32 on or the unsigned long
integer 2^32 - 1. -/
theorem unforced_cast_exact_iff (rt : Runtime) (target : CastTarget) (addr : ℕ)
    (source : IntegerValue) :
    ExactCast target.type source.toInt
        (fun old => target.cast rt (.scalar addr source.scalar) old false) ↔
      ¬(target = .uint32 ∧
        ((∃ i64, source = .longint i64) ∧ 2 ^ 32 ≤ source.toInt ∨
          (∃ u64, source = .ulongint u64) ∧ source.toInt = 2 ^ 32 - 1)) := by
  simp only [cast_unforced, exactCast_checked]
  cases source with
  | longint i64 =>
    have low := i64.le_toInt
    have high := i64.toInt_lt
    cases target <;>
      simp [CastTarget.accepts, CastTarget.type, IntegerValue.toInt, IntType.Represents,
        IntType.greatest, IntType.least, IntType.int32, IntType.uint32, IntType.int64,
        IntType.uint64] <;> omega
  | ulongint u64 =>
    have high := u64.toNat_lt
    cases target <;>
      simp [CastTarget.accepts, CastTarget.type, IntegerValue.toInt, IntType.Represents,
        IntType.greatest, IntType.least, IntType.int32, IntType.uint32, IntType.int64,
        IntType.uint64] <;> omega

/-- The cast to `uint32_t` takes 2^32 for representable and stores zero. -/
theorem unforced_cast_truncates :
    ¬ExactCast .uint32 (2 ^ 32) fun old =>
      purcVariantCastToUint32 .plain (.scalar 0 (.longint 4294967296)) old false := by
  intro exact
  exact absurd ((exact (IntType.uint32.wrap 0)).1.1 (by decide)) (by decide)

/-! ## Long doubles -/

/-- The integer of a long double whose first eight bytes are those of an infinite double has
a significand of twelve ones. -/
theorem significand_infinite_iff {ld : LongDouble} {n : ℤ} (holds : ld.value = .finite n) :
    ld.significand = 0xFFF0000000000000 ↔ ∃ k : ℕ, |n| = 4095 * 2 ^ k := by
  by_cases zero : n = 0
  · subst zero
    have none := LongDouble.significand_of_zero (by simpa using holds)
    constructor
    · intro pattern
      rw [none] at pattern
      exact absurd pattern (by decide)
    · rintro ⟨k, size⟩
      have : (0 : ℤ) < 4095 * 2 ^ k := by positivity
      rw [abs_zero] at size
      omega
  obtain ⟨leading, magnitude⟩ := LongDouble.normalised_of_int holds zero
  have absolute : (|n| : ℚ) = (n.natAbs : ℕ) := by simp
  constructor
  · intro pattern
    have bits : (ld.significand.toNat : ℚ) = 4095 * 2 ^ (52 : ℤ) := by
      rw [pattern, show (18442240474082181120 : UInt64).toNat = 4095 * 2 ^ 52 by decide]
      norm_num
    rw [bits, mul_assoc, ← zpow_add₀ two_ne_zero, absolute] at magnitude
    have up : 0 ≤ 52 + ((ld.exponent : ℤ) - 16446) :=
      scale_nonneg (by decide : 4095 % 2 = 1) (by rw [magnitude, Nat.cast_ofNat])
    obtain ⟨k, shift⟩ := Int.eq_ofNat_of_zero_le up
    rw [shift, zpow_natCast, ← absolute] at magnitude
    exact ⟨k, by exact_mod_cast magnitude⟩
  · rintro ⟨k, size⟩
    have word : (ld.significand.toNat : ℚ) < 2 ^ (64 : ℤ) := by
      exact_mod_cast ld.significand.toNat_lt
    have floor : (2 : ℚ) ^ (63 : ℤ) ≤ ld.significand.toNat := by exact_mod_cast leading
    -- Only one shift of 4095 is a normalised significand.
    have shifted : (ld.significand.toNat : ℚ) =
        4095 * 2 ^ ((k : ℤ) - ((ld.exponent : ℤ) - 16446)) := by
      have magnitude : (4095 * 2 ^ k : ℚ) =
          ld.significand.toNat * 2 ^ ((ld.exponent : ℤ) - 16446) := by
        rw [← magnitude]
        exact_mod_cast size.symm
      rw [zpow_sub₀ two_ne_zero, zpow_natCast, ← mul_div_assoc, magnitude,
        mul_div_cancel_right₀ _ (by positivity)]
    generalize (k : ℤ) - ((ld.exponent : ℤ) - 16446) = shift at shifted
    have atMost : shift ≤ 52 := by
      by_contra above
      have := zpow_le_zpow_right₀ (one_le_two : (1 : ℚ) ≤ 2) (show 53 ≤ shift by omega)
      rw [shifted] at word
      norm_num at this word
      linarith
    have atLeast : 52 ≤ shift := by
      by_contra below
      have := zpow_le_zpow_right₀ (one_le_two : (1 : ℚ) ≤ 2) (show shift ≤ 51 by omega)
      rw [shifted] at floor
      norm_num at this floor
      linarith
    rw [le_antisymm atMost atLeast] at shifted
    refine UInt64.toNat_inj.1 ?_
    have : (ld.significand.toNat : ℚ) = (18442240474082181120 : ℕ) := by
      rw [shifted]
      norm_num
    exact_mod_cast this

/-- An integral long double never looks like the positive infinity, whose significand would
lack the leading one. -/
theorem firstDouble_isInf {ld : LongDouble} {n : ℤ} (holds : ld.value = .finite n) :
    ld.firstDouble.value.isInf = if ld.significand = 0xFFF0000000000000 then -1 else 0 := by
  have notPositive : ld.significand ≠ 0x7FF0000000000000 := by
    intro pattern
    by_cases zero : n = 0
    · subst zero
      rw [LongDouble.significand_of_zero (by simpa using holds)] at pattern
      exact absurd pattern (by decide)
    · have leading := (LongDouble.normalised_of_int holds zero).1
      rw [pattern] at leading
      exact absurd leading (by decide)
  rw [Double.isInf_value, LongDouble.firstDouble, if_neg notPositive]

/-- Between the limits, the check of a floating-point source only asks whether the tested
value is infinite. -/
theorem castFloat_between {type : IntType} {tested : FloatValue} {n : ℤ} {force : Bool}
    (low : type.least < n) (high : n < type.greatest) :
    castFloat type tested (.finite n) force =
      if tested.isInf = -1 then if force then some (type.wrap type.least) else none
      else if tested.isInf = 1 then if force then some (type.wrap type.greatest) else none
      else some (type.wrap n) := by
  simp [castFloat, FloatValue.isNan, FloatValue.le, not_le.2 low, not_le.2 high]

/-- A cast of an integer succeeds and stores it, forced or not. -/
def KeepsInteger {type : IntType} (n : ℤ) (run : type.Value → Bool → Bool × type.Value) : Prop :=
  ∀ old force, (run old force).1 = true ∧ (run old force).2.1 = n

/-- The check of a long double between the limits keeps its integer unless the significand
looks infinite: then it fails where it is not forced. -/
theorem keepsInteger_castFloat {type : IntType} {ld : LongDouble} {n : ℤ}
    (holds : ld.value = .finite n) (low : type.least < n) (high : n < type.greatest) :
    (KeepsInteger n fun (old : type.Value) force =>
        finishCast old (castFloat type ld.firstDouble.value ld.value force)) ↔
      ¬∃ k : ℕ, |n| = 4095 * 2 ^ k := by
  rw [← significand_infinite_iff holds]
  simp only [KeepsInteger, holds, castFloat_between low high, firstDouble_isInf holds]
  by_cases pattern : ld.significand = 0xFFF0000000000000
  · refine iff_of_false (fun keeps => ?_) (not_not.2 pattern)
    have unforced := (keeps (type.wrap n) false).1
    simp [pattern, finishCast] at unforced
  · refine iff_of_true (fun old force => ?_) pattern
    simp [pattern, finishCast, IntType.wrap_val ⟨low.le, high.le⟩]

/-- The casts of an integral long double keep the integer, inside the limits of the target,
unless its magnitude is 4095 times a power of two. -/
theorem long_double_cast_iff (rt : Runtime) (addr : ℕ) (ld : LongDouble) (n : ℤ)
    (holds : ld.value = .finite n) :
    (-2 ^ 31 < n → n < 2 ^ 31 - 1 →
      ((KeepsInteger n fun old force =>
          purcVariantCastToInt32 rt (.scalar addr (.longdouble ld)) old force) ↔
        ¬∃ k : ℕ, |n| = 4095 * 2 ^ k)) ∧
    (|n| < 2 ^ 63 - 1 →
      ((KeepsInteger n fun old force =>
          purcVariantCastToLongint rt (.scalar addr (.longdouble ld)) old force) ↔
        ¬∃ k : ℕ, |n| = 4095 * 2 ^ k)) := by
  refine ⟨fun low high => ?_, fun size => ?_⟩
  · exact @keepsInteger_castFloat .int32 ld n holds low high
  · have range := abs_lt.1 size
    exact @keepsInteger_castFloat .int64 ld n holds (lt_trans (by decide) range.1) range.2

/-- The casts keep the integer of a long double that holds one. -/
theorem long_double_cast_one :
    KeepsInteger 1 fun old force =>
      purcVariantCastToInt32 .plain (.scalar 0 (.longdouble ⟨0x8000000000000000, 0x3FFF⟩)) old
        force := by
  have holds : (⟨0x8000000000000000, 0x3FFF⟩ : LongDouble).value = .finite (1 : ℤ) := by
    rw [@LongDouble.value_normalised _ false (2 ^ 63) 16383 rfl rfl rfl (by decide) (by decide)]
    norm_num [signed]
  refine ((long_double_cast_iff .plain 0 _ 1 holds).1 (by decide) (by decide)).2 ?_
  rintro ⟨k, size⟩
  have : (0 : ℤ) < 2 ^ k := by positivity
  rw [abs_one] at size
  omega

/-- The cast of 4095 takes its significand for an infinity and fails. -/
theorem long_double_cast_fails :
    (⟨0xFFF0000000000000, 0x400A⟩ : LongDouble).value = .finite 4095 ∧
      ¬KeepsInteger 4095 fun old force =>
        purcVariantCastToInt32 .plain (.scalar 0 (.longdouble ⟨0xFFF0000000000000, 0x400A⟩)) old
          force := by
  have holds : (⟨0xFFF0000000000000, 0x400A⟩ : LongDouble).value = .finite (4095 : ℤ) := by
    rw [@LongDouble.value_normalised _ false (4095 * 2 ^ 52) 16394 rfl rfl rfl (by decide)
      (by decide)]
    norm_num [signed]
  refine ⟨by simpa using holds, fun keeps => ?_⟩
  exact (keepsInteger_castFloat holds (by decide) (by decide)).1 keeps ⟨0, by decide⟩

end Bpcp.Purc
