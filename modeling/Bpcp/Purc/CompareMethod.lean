import Bpcp.Purc.Equal
import Bpcp.Purc.Stringify

/-!
# Comparison by a method

`purc_variant_compare_ex` compares two variants as numbers or as texts. The automatic
method looks at the first variant only: a number asks for a comparison of numbers, and
everything else for a comparison of texts. Swapping a number and a text therefore changes
the method, and the two results are opposite exactly where the order of the numbers is the
order of their texts.
-/

namespace Bpcp.Purc

open Bpcp.Lib

/-- `enum pcvrnt_compare_method`. -/
inductive CompareMethod where
  | auto | number | case | caseless
deriving DecidableEq

/-! ## Numbers -/

/-- Conversion to a double. -/
def toDouble : FloatValue → FloatValue
  | .finite value => FloatValue.round FloatValue.binary64 value
  | value => value

/-- `numerify_str`. -/
def numerifyStr (s : CString) : FloatValue :=
  if s.bytes = [] then .finite 0 else strtod s.bytes

/-- `numerify_bs` on a little-endian machine: the last eight bytes as a long integer. -/
def numerifyBs (s : List UInt8) : FloatValue :=
  if s = [] then .finite 0
  else toDouble (.finite (UInt64.ofNat (ofLeBytes (s.drop (s.length - 8)))).toInt64.toInt)

/-- The cases of `purc_variant_numerify` for the scalar types. -/
def numerifyScalar (rt : Runtime) : Scalar → FloatValue
  | .undefined => .finite 0
  | .null => .finite 0
  | .boolean b => .finite (if b then 1 else 0)
  | .exception atom => .finite atom.toNat
  | .number d => d.value
  | .longint i64 => toDouble (.finite i64.toInt)
  | .ulongint u64 => toDouble (.finite u64.toNat)
  | .longdouble ld => toDouble ld.value
  | .atomstring atom => numerifyStr (rt.purcAtomToString atom)
  | .string value => numerifyStr value.text
  | .bsequence storage => numerifyBs storage.content
  | .dynamic ptrPtr => rt.dynamicNumber ptrPtr
  | .native ptrPtr => rt.nativeNumber ptrPtr

mutual

/-- `purc_variant_numerify`: containers add up what is in them. -/
def purcVariantNumerify (rt : Runtime) : Variant → FloatValue
  | .scalar _ value => numerifyScalar rt value
  | .object _ kvs => numerifyObject rt kvs (.finite 0)
  | .linear _ _ members => numerifyMembers rt members (.finite 0)

/-- The loop of `numerify_object` with the sum so far. -/
def numerifyObject (rt : Runtime) : List (CString × Variant) → FloatValue → FloatValue
  | [], d => d
  | (_, v) :: rest, d =>
    numerifyObject rt rest (FloatValue.add FloatValue.binary64 d (purcVariantNumerify rt v))

/-- The loops of `numerify_array`, `numerify_set` and `numerify_tuple` with the sum so far. -/
def numerifyMembers (rt : Runtime) : List Variant → FloatValue → FloatValue
  | [], d => d
  | v :: rest, d =>
    numerifyMembers rt rest (FloatValue.add FloatValue.binary64 d (purcVariantNumerify rt v))

end

/-- `compare_number_method`. -/
def compareNumberMethod (rt : Runtime) (v1 v2 : Variant) : Int :=
  let number1 := purcVariantNumerify rt v1
  let number2 := purcVariantNumerify rt v2
  if equalDoubles number1 number2 then 0 else if number1.lt number2 then -1 else 1

/-! ## Texts -/

/-- The length that `compare_stringify` expects of the text of a scalar, zero where it relies
on the stack buffer. -/
def expectedLength (rt : Runtime) : Scalar → Nat
  | .string value => value.text.strlen
  | .bsequence storage => storage.content.length * 2
  | .atomstring atom => (rt.purcAtomToString atom).strlen
  | .exception atom => (rt.purcAtomToString atom).strlen
  | _ => 0

/-- `compare_stringify`: the text in the stack buffer of a size, or in allocated memory; there
is none when an assertion fails. -/
def compareStringify (rt : Runtime) (v : Variant) (size : Nat) : Option CString :=
  match v with
  | .scalar _ value =>
    let total := expectedLength rt value
    let buffer := (List.range (if size < total + 1 then total + 1 else size)).map rt.indeterminate
    (purcVariantStringifyBuff rt buffer (some v)).map fun result => .ofBytes result.2
  | _ =>
    (purcVariantStringifyAlloc rt (some v)).map fun result =>
      if result.1 < 0 then .lit "" else result.2

/-- `compare_string_method`. -/
def compareStringMethod (rt : Runtime) (v1 v2 : Variant) (opt : CompareMethod) : Option Int :=
  (compareStringify rt v1 128).bind fun buf1 =>
    (compareStringify rt v2 128).map fun buf2 =>
      if opt = .case ∨ opt = .auto then strcmp buf1 buf2 else rt.pcutilsStrcasecmp buf1 buf2

/-- `purc_variant_compare_ex`. -/
def purcVariantCompareEx (rt : Runtime) (v1 v2 : Variant) (opt : CompareMethod) : Option Int :=
  match opt with
  | .caseless | .case => compareStringMethod rt v1 v2 opt
  | .number => some (compareNumberMethod rt v1 v2)
  | .auto =>
    if v1.type = .number ∨ v1.type = .longint ∨ v1.type = .ulongint ∨ v1.type = .longdouble then
      some (compareNumberMethod rt v1 v2)
    else compareStringMethod rt v1 v2 opt

variable {rt : Runtime}

/-! ## Integers and their texts -/

/-- An integer as a long integer or as its decimal text. -/
inductive IntegerForm where
  /-- A long integer. -/
  | number (addr : Nat) (i64 : Int64)
  /-- A string with the decimal text of an integer. -/
  | text (addr : Nat) (n : ℤ) (value : StringValue) (decimal : value.text = .decimal n)

namespace IntegerForm

/-- The integer. -/
def toInt : IntegerForm → ℤ
  | number _ i64 => i64.toInt
  | text _ n _ _ => n

/-- Whether the integer is given as a long integer. -/
def isNumber : IntegerForm → Bool
  | number .. => true
  | text .. => false

/-- The variant. -/
def variant : IntegerForm → Variant
  | number addr i64 => .scalar addr (.longint i64)
  | text addr _ value _ => .scalar addr (.string value)

end IntegerForm

/-- In either form an integer of at most 52 bits is numerified exactly. -/
theorem numerify_integer {form : IntegerForm} (small : |form.toInt| < 2 ^ 52) :
    purcVariantNumerify rt form.variant = .finite form.toInt := by
  have exact := FloatValue.round_binary64_int form.toInt (small.trans (by decide))
  cases form with
  | number addr i64 => exact exact
  | text addr n value decimal =>
    change numerifyStr value.text = _
    rw [decimal, numerifyStr, if_neg (show (CString.decimal n).bytes ≠ [] from
      decimalInt_ne_nil n)]
    exact (strtod_decimalInt n).trans exact

/-- A short text is stringified in the stack buffer. -/
theorem compareStringify_short (stores : rt.StoresWhatFits) {addr : Nat} {value : Scalar}
    {text : CString} (stringified : emitted (stringifyScalar rt .none value) = text.bytes)
    (expected : expectedLength rt value < 128) (short : text.strlen < 128) :
    compareStringify rt (.scalar addr value) 128 = some text := by
  have run := purcVariantStringifyBuff_fits stores
    (show emitted (variantStringify rt .none (.scalar addr value)) = _ from stringified)
    (show text.bytes.length < ((List.range 128).map rt.indeterminate).length by
      simpa [CString.strlen] using short)
  simp only [compareStringify, if_neg (show ¬128 < expectedLength rt value + 1 by omega), run,
    Option.map_some, Option.some.injEq]
  exact CString.ext (text.takeWhile_terminated _)

/-- In either form an integer of at most 52 bits is stringified in decimal. -/
theorem compareStringify_integer (stores : rt.StoresWhatFits) {form : IntegerForm}
    (small : |form.toInt| < 2 ^ 52) :
    compareStringify rt form.variant 128 = some (.decimal form.toInt) := by
  have bounds := abs_lt.1 small
  have length : (decimalInt form.toInt).length ≤ 17 :=
    decimalInt_length (by decide) (by omega)
  have short : (CString.decimal form.toInt).strlen < 128 := lt_of_le_of_lt length (by decide)
  cases form with
  | number addr i64 =>
    refine compareStringify_short stores ?_ (show 0 < 128 by decide) short
    exact emitted_decimal short
  | text addr n value decimal =>
    refine compareStringify_short stores ?_ ?_ short
    · simp [stringifyScalar, decimal, IntegerForm.toInt]
    · rw [expectedLength, decimal]
      exact short

/-- The comparison of numbers has the order of the integers. -/
theorem compareNumberMethod_integers {a b : IntegerForm} (smallA : |a.toInt| < 2 ^ 52)
    (smallB : |b.toInt| < 2 ^ 52) :
    outcome (compareNumberMethod rt a.variant b.variant) = compare a.toInt b.toInt := by
  have tolerance : equalDoubles (.finite a.toInt) (.finite b.toInt) = true ↔
      a.toInt = b.toInt := by
    rw [equalDoubles, FloatValue.within_int]
    have nonneg := abs_nonneg (a.toInt - b.toInt)
    have zero : |a.toInt - b.toInt| = 0 ↔ a.toInt = b.toInt := by rw [abs_eq_zero, sub_eq_zero]
    have larger : 0 ≤ max |a.toInt| |b.toInt| := le_max_of_le_left (abs_nonneg _)
    have small := max_lt smallA smallB
    omega
  rw [compareNumberMethod, numerify_integer smallA, numerify_integer smallB]
  simp only [tolerance, FloatValue.lt, decide_eq_true_eq, Int.cast_lt]
  exact outcome_threeWay _ _

/-- The automatic comparison of two integers, each a long integer or a decimal text, orders the
integers when the first is a long integer, and their texts when it is not. -/
theorem compareEx_integers_auto (stores : rt.StoresWhatFits) {a b : IntegerForm}
    (smallA : |a.toInt| < 2 ^ 52) (smallB : |b.toInt| < 2 ^ 52) :
    ∃ diff, purcVariantCompareEx rt a.variant b.variant .auto = some diff ∧
      outcome diff = if a.isNumber then compare a.toInt b.toInt
        else outcome (strcmp (.decimal a.toInt) (.decimal b.toInt)) := by
  cases a with
  | number addr i64 => exact ⟨_, rfl, compareNumberMethod_integers smallA smallB⟩
  | text addr n value decimal =>
    refine ⟨strcmp (.decimal n) (.decimal b.toInt), ?_, rfl⟩
    change compareStringMethod rt (IntegerForm.text addr n value decimal).variant b.variant .auto =
      _
    rw [compareStringMethod, compareStringify_integer stores smallA,
      compareStringify_integer stores smallB]
    rfl

/-- Swapping two integers, each a long integer or a decimal text, negates the sign of the
automatic comparison exactly where both have one form, or where the order of the integers
is the order of their texts. -/
theorem auto_antisymmetric_iff (rt : Runtime) (stores : rt.StoresWhatFits) (a b : IntegerForm)
    (smallA : |a.toInt| < 2 ^ 52) (smallB : |b.toInt| < 2 ^ 52) :
    ∃ ab ba : Int, purcVariantCompareEx rt a.variant b.variant .auto = some ab ∧
      purcVariantCompareEx rt b.variant a.variant .auto = some ba ∧
      (ab.sign = -ba.sign ↔ a.isNumber = b.isNumber ∨
        compare a.toInt b.toInt = outcome (strcmp (.decimal a.toInt) (.decimal b.toInt))) := by
  obtain ⟨ab, runAB, orderAB⟩ := compareEx_integers_auto stores smallA smallB
  obtain ⟨ba, runBA, orderBA⟩ := compareEx_integers_auto stores smallB smallA
  refine ⟨ab, ba, runAB, runBA, ?_⟩
  have swapNumbers : compare b.toInt a.toInt = (compare a.toInt b.toInt).swap :=
    Std.OrientedCmp.eq_swap
  have swapTexts : outcome (strcmp (.decimal b.toInt) (.decimal a.toInt)) =
      (outcome (strcmp (.decimal a.toInt) (.decimal b.toInt))).swap := strcmp_consistent.eq_swap
  rw [← outcome_swap, orderAB, orderBA, swapNumbers, swapTexts]
  cases a.isNumber <;> cases b.isNumber <;> simp [eq_comm]

/-- The long integer 5. -/
def five : IntegerForm := .number 1 5

/-- The text `10`. -/
def tenText : IntegerForm := .text 2 10 (.ofText (.decimal 10) (by decide)) rfl

/-- The law of swapping at 5 and `10`. -/
theorem auto_antisymmetric_five_ten :
    ∃ ab ba : Int, purcVariantCompareEx .plain five.variant tenText.variant .auto = some ab ∧
      purcVariantCompareEx .plain tenText.variant five.variant .auto = some ba ∧
      (ab.sign = -ba.sign ↔ five.isNumber = tenText.isNumber ∨
        compare five.toInt tenText.toInt =
          outcome (strcmp (.decimal five.toInt) (.decimal tenText.toInt))) :=
  auto_antisymmetric_iff .plain Runtime.plain_storesWhatFits five tenText (by decide) (by decide)

/-- The long integer 5 is less than the text `10`, and that text is less than the integer. -/
theorem auto_five_ten_not_antisymmetric :
    ∃ ab ba : Int, purcVariantCompareEx .plain five.variant tenText.variant .auto = some ab ∧
      purcVariantCompareEx .plain tenText.variant five.variant .auto = some ba ∧
      ab.sign = -1 ∧ ba.sign = -1 ∧ ab.sign ≠ -ba.sign := by
  obtain ⟨ab, runAB, orderAB⟩ := compareEx_integers_auto Runtime.plain_storesWhatFits
    (show |five.toInt| < 2 ^ 52 by decide) (show |tenText.toInt| < 2 ^ 52 by decide)
  obtain ⟨ba, runBA, orderBA⟩ := compareEx_integers_auto Runtime.plain_storesWhatFits
    (show |tenText.toInt| < 2 ^ 52 by decide) (show |five.toInt| < 2 ^ 52 by decide)
  have signAB : ab.sign = -1 :=
    Int.sign_eq_neg_one_of_neg (outcome_eq_lt.1 (orderAB.trans (by decide)))
  have signBA : ba.sign = -1 :=
    Int.sign_eq_neg_one_of_neg (outcome_eq_lt.1 (orderBA.trans (by decide)))
  exact ⟨ab, ba, runAB, runBA, signAB, signBA, by rw [signAB, signBA]; decide⟩

end Bpcp.Purc
