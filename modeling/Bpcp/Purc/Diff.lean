import Bpcp.Purc.ByteSequence
import Bpcp.Purc.CompareMethod

/-!
# Difference of scalars

`scalar_diff` is the callback that keeps generic sets in order. It compares two scalars of
one type by value, whatever the method, and two scalars of different types by the method.
With the method that compares texts, integers of one type are ordered as numbers and
everything else among booleans, integers and strings as texts. The two orders disagree on
integers, and then a value of another type whose text lies between closes a cycle.
-/

namespace Bpcp.Purc

open Bpcp.Lib

/-- `number_diff`. -/
def numberDiff (l r : FloatValue) : Int := if l.lt r then -1 else if r.lt l then 1 else 0

/-- `ld_diff`, which is `number_diff` of long doubles. -/
def ldDiff (l r : FloatValue) : Int := numberDiff l r

/-- `i64_diff`. -/
def i64Diff (l r : Int64) : Int := if l = r then 0 else if l < r then -1 else 1

/-- `u64_diff`. -/
def u64Diff (l r : UInt64) : Int := if l = r then 0 else if l < r then -1 else 1

/-- `str_numerify_diff`. -/
def strNumerifyDiff (l r : CString) : Int := numberDiff (numerifyStr l) (numerifyStr r)

/-- `str_diff`. -/
def strDiff (rt : Runtime) (opt : CompareMethod) (l r : CString) : Int :=
  match opt with
  | .auto => strcmp l r
  | .number => strNumerifyDiff l r
  | .case => strcmp l r
  | .caseless => rt.pcutilsStrcasecmp l r

/-- `atom_diff`, which subtracts the atoms where the method is automatic. -/
def atomDiff (rt : Runtime) (opt : CompareMethod) (l r : UInt32) : Int :=
  match opt with
  | .auto => atomDifference l r
  | .number => strNumerifyDiff (rt.purcAtomToString l) (rt.purcAtomToString r)
  | .case => strcmp (rt.purcAtomToString l) (rt.purcAtomToString r)
  | .caseless => rt.pcutilsStrcasecmp (rt.purcAtomToString l) (rt.purcAtomToString r)

/-- The comparison of two pointers by their addresses. -/
def pointerDiff (l r : UInt64 × UInt64) : Option Int := memcmp (ptrBytes l) (ptrBytes r) 16

/-- `dynamic_diff`. -/
def dynamicDiff (l r : UInt64 × UInt64) : Option Int := pointerDiff l r

/-- `native_diff`. -/
def nativeDiff (l r : UInt64 × UInt64) : Option Int := pointerDiff l r

/-- `homo_scalar_diff` for two scalars of one type. -/
def homoScalarDiff (rt : Runtime) (opt : CompareMethod) : Scalar → Scalar → Option Int
  | .undefined, .undefined => some 0
  | .null, .null => some 0
  | .boolean l, .boolean r => some (l.toInt - r.toInt)
  | .exception l, .exception r => some (atomDiff rt opt l r)
  | .number l, .number r => some (numberDiff l.value r.value)
  | .longint l, .longint r => some (i64Diff l r)
  | .ulongint l, .ulongint r => some (u64Diff l r)
  | .longdouble l, .longdouble r => some (ldDiff l.value r.value)
  | .atomstring l, .atomstring r => some (atomDiff rt opt l r)
  | .string l, .string r => some (strDiff rt opt l.text r.text)
  | .bsequence l, .bsequence r => bsDiff l r
  | .dynamic l, .dynamic r => dynamicDiff l r
  | .native l, .native r => nativeDiff l r
  | _, _ => some 0

/-- `numerify_diff`. -/
def numerifyDiff (rt : Runtime) (l r : Scalar) : Int :=
  numberDiff (numerifyScalar rt l) (numerifyScalar rt r)

/-- A text that `stringify` prints to its buffer of 128 bytes, which must hold it whole. -/
def stringifyPrinted (text : List UInt8) : Option CString :=
  if text.length < 128 then some (.ofBytes (snprintf 128 text)) else none

/-- `stringify`. -/
def stringify (rt : Runtime) : Scalar → Option CString
  | .undefined => stringifyPrinted (CString.lit "undefined").bytes
  | .null => stringifyPrinted (CString.lit "null").bytes
  | .boolean b => stringifyPrinted (CString.lit (if b then "true" else "false")).bytes
  | .exception atom => some (rt.purcAtomToString atom)
  | .number d => stringifyPrinted (rt.printNumber d).bytes
  | .longint i64 => stringifyPrinted (decimalInt i64.toInt)
  | .ulongint u64 => stringifyPrinted (decimalInt u64.toNat)
  | .longdouble ld => stringifyPrinted (rt.printLongdouble ld).bytes
  | .atomstring atom => some (rt.purcAtomToString atom)
  | .string value => some value.text
  | .bsequence _ => none
  | .dynamic ptrPtr => stringifyPrinted (dynamicText rt ptrPtr)
  | .native ptrPtr => stringifyPrinted (nativeText rt ptrPtr)

/-- `stringify_diff`. -/
def stringifyDiff (rt : Runtime) (l r : Scalar) (caseless : Bool) : Option Int :=
  (stringify rt l).bind fun ls => (stringify rt r).map fun rs =>
    if caseless then rt.pcutilsStrcasecmp ls rs else strcmp ls rs

/-- `scalar_diff`: what it stores and returns, or nothing when an assertion fails. -/
def scalarDiff (rt : Runtime) (opt : CompareMethod) : Option Variant → Option Variant → Option Int
  | none, none => some 0
  | none, some _ => some (-1)
  | some _, none => some 1
  | some l, some r =>
    if l.addr = r.addr then some 0
    else match l, r with
      | .scalar _ l, .scalar _ r =>
        if l.type = r.type then homoScalarDiff rt opt l r
        else match opt with
          | .auto => some (l.type.toInt - r.type.toInt)
          | .number => some (numerifyDiff rt l r)
          | .case => stringifyDiff rt l r false
          | .caseless => stringifyDiff rt l r true
      | .scalar _ l, r => some (l.type.toInt - r.type.toInt)
      | l, .scalar _ r => some (l.type.toInt - r.type.toInt)
      | l, r => if l.type = r.type then none else some (l.type.toInt - r.type.toInt)

/-- `pcvariant_diff_ex`. -/
def pcvariantDiffEx (rt : Runtime) (l r : Variant) (opt : CompareMethod) : Option Int :=
  rt.pcvarParallelWalk (scalarDiff rt opt) l r

/-- `pcvariant_diff`. -/
def pcvariantDiff (rt : Runtime) (l r : Variant) : Option Int := pcvariantDiffEx rt l r .case

variable {rt : Runtime}

/-! ## Order of plain scalars -/

/-- Booleans, integers and strings, and the two values that are only themselves. -/
def Scalar.isPlain : Scalar → Bool
  | undefined | null | boolean _ | longint _ | ulongint _ | string _ => true
  | _ => false

/-- The text of a plain scalar. -/
def Scalar.text : Scalar → CString
  | undefined => .lit "undefined"
  | null => .lit "null"
  | boolean b => .lit (if b then "true" else "false")
  | longint i64 => .decimal i64.toInt
  | ulongint u64 => .decimal u64.toNat
  | string value => value.text
  | _ => .lit ""

/-- The number of an integer scalar. -/
def Scalar.integer : Scalar → ℤ
  | longint i64 => i64.toInt
  | ulongint u64 => u64.toNat
  | _ => 0

/-- Both are long integers, or both are unsigned long integers. -/
def SameIntegerType (l r : Scalar) : Prop :=
  l.type = r.type ∧ (l.type = .longint ∨ l.type = .ulongint)

instance (l r : Scalar) : Decidable (SameIntegerType l r) := inferInstanceAs (Decidable (_ ∧ _))

/-- A short text is printed whole. -/
theorem stringifyPrinted_short {text : CString} (short : text.bytes.length < 128) :
    stringifyPrinted text.bytes = some text := by
  rw [stringifyPrinted, if_pos short, snprintf, List.take_of_length_le (by omega)]
  exact congrArg some (CString.ext (text.takeWhile_terminated []))

/-- The text of an integer of 64 bits fits the buffer. -/
theorem decimal_short {n : ℤ} (low : -2 ^ 63 ≤ n) (high : n < 2 ^ 64) :
    (CString.decimal n).bytes.length < 128 := by
  have length : (decimalInt n).length ≤ 21 := decimalInt_length (by decide) (by omega)
  exact lt_of_le_of_lt length (by decide)

/-- The text of a plain scalar is what `stringify` prints. -/
theorem stringify_plain {v : Scalar} (plain : v.isPlain = true) : stringify rt v = some v.text := by
  cases v with
  | undefined => exact stringifyPrinted_short (by decide)
  | null => exact stringifyPrinted_short (by decide)
  | boolean b => cases b <;> exact stringifyPrinted_short (by decide)
  | longint i64 =>
    exact stringifyPrinted_short (decimal_short i64.le_toInt (i64.toInt_lt.trans (by decide)))
  | ulongint u64 =>
    have high : (u64.toNat : ℤ) < 2 ^ 64 := by exact_mod_cast u64.toNat_lt
    exact stringifyPrinted_short (decimal_short (by omega) high)
  | string value => rfl
  | _ => simp [Scalar.isPlain] at plain

/-- Plain scalars of one type are ordered as numbers where they are integers, and otherwise as
texts. -/
theorem homoScalarDiff_plain {l r : Scalar} (types : l.type = r.type) (plain : l.isPlain = true) :
    ∃ diff, homoScalarDiff rt .case l r = some diff ∧
      outcome diff = if SameIntegerType l r then compare l.integer r.integer
        else outcome (strcmp l.text r.text) := by
  cases l <;> cases r <;> simp [Scalar.type] at types <;> simp [Scalar.isPlain] at plain <;>
    refine ⟨_, rfl, ?_⟩
  case undefined.undefined => rfl
  case null.null => rfl
  case boolean.boolean l r => cases l <;> cases r <;> decide
  case longint.longint l r => exact outcome_int64 l r
  case ulongint.ulongint l r => exact outcome_uint64 l r
  case string.string l r => rfl

/-- Among plain scalars `scalar_diff` orders integers of one type as numbers and everything
else as texts. -/
theorem scalarDiff_plain {addrL addrR : Nat} {l r : Scalar} (same : addrL = addrR → l = r)
    (plainL : l.isPlain = true) (plainR : r.isPlain = true) :
    ∃ diff, scalarDiff rt .case (some (.scalar addrL l)) (some (.scalar addrR r)) = some diff ∧
      outcome diff = if SameIntegerType l r then compare l.integer r.integer
        else outcome (strcmp l.text r.text) := by
  by_cases pointer : addrL = addrR
  · obtain rfl := same pointer
    exact ⟨0, by simp [scalarDiff, Variant.addr, pointer],
      by simp [strcmp_consistent.self_eq_zero l.text]⟩
  by_cases types : l.type = r.type
  · obtain ⟨diff, run, order⟩ := @homoScalarDiff_plain rt _ _ types plainL
    exact ⟨diff, by simp [scalarDiff, Variant.addr, pointer, types, run], order⟩
  · refine ⟨strcmp l.text r.text, ?_, ?_⟩
    · simp [scalarDiff, Variant.addr, pointer, types, stringifyDiff, stringify_plain plainL,
        stringify_plain plainR]
    · rw [if_neg fun integers => types integers.1]

/-- When the result of `scalar_diff` on plain scalars is not positive. -/
theorem scalarDiff_le_zero {addrL addrR : Nat} {l r : Scalar} (same : addrL = addrR → l = r)
    (plainL : l.isPlain = true) (plainR : r.isPlain = true) :
    ∃ diff, scalarDiff rt .case (some (.scalar addrL l)) (some (.scalar addrR r)) = some diff ∧
      (diff ≤ 0 ↔
        if SameIntegerType l r then l.integer ≤ r.integer else strcmp l.text r.text ≤ 0) := by
  obtain ⟨diff, run, order⟩ := @scalarDiff_plain rt _ _ _ _ same plainL plainR
  refine ⟨diff, run, ?_⟩
  rw [← outcome_isLE, order]
  split
  · exact Std.isLE_compare
  · exact outcome_isLE

/-- Integers of one type have one text exactly when they are one number. -/
theorem SameIntegerType.text_eq {l r : Scalar} (same : SameIntegerType l r) :
    l.text = r.text ↔ l.integer = r.integer := by
  have decimal : ∀ {v : Scalar}, v.type = .longint ∨ v.type = .ulongint →
      v.text.bytes = decimalInt v.integer := by
    rintro v (long | long) <;> cases v <;> simp [Scalar.type] at long <;> rfl
  rw [CString.ext_iff, decimal same.2, decimal (same.1 ▸ same.2)]
  exact decimalInt_injective.eq_iff

/-- `scalar_diff` answers zero on plain scalars exactly when they have one text. -/
theorem scalarDiff_eq_zero {addrL addrR : Nat} {l r : Scalar} (same : addrL = addrR → l = r)
    (plainL : l.isPlain = true) (plainR : r.isPlain = true) :
    scalarDiff rt .case (some (.scalar addrL l)) (some (.scalar addrR r)) = some 0 ↔
      l.text = r.text := by
  obtain ⟨diff, run, order⟩ := @scalarDiff_plain rt _ _ _ _ same plainL plainR
  rw [run, Option.some_inj, ← outcome_eq_eq, order]
  split
  case isTrue integers => rw [compare_eq_iff_eq, integers.text_eq]
  case isFalse => rw [outcome_eq_eq, strcmp_eq_zero]

/-- Being integers of one type is symmetric. -/
theorem SameIntegerType.symm {l r : Scalar} (same : SameIntegerType l r) : SameIntegerType r l :=
  ⟨same.1.symm, same.1 ▸ same.2⟩

/-- Being integers of one type is transitive. -/
theorem SameIntegerType.trans {l m r : Scalar} (first : SameIntegerType l m)
    (second : SameIntegerType m r) : SameIntegerType l r :=
  ⟨first.1.trans second.1, first.2⟩

/-- A value closes a cycle with two integers of one type, in the order of `a`, `b` and `c`: its
text lies between theirs, and their numbers are in the other order than their texts. -/
def ClosesCycle (a b c : Scalar) : Prop :=
  SameIntegerType a b ∧ ¬SameIntegerType b c ∧ a.integer ≤ b.integer ∧
      strcmp b.text c.text ≤ 0 ∧ strcmp c.text a.text < 0 ∨
    SameIntegerType b c ∧ ¬SameIntegerType a b ∧ b.integer ≤ c.integer ∧
      strcmp c.text a.text < 0 ∧ strcmp a.text b.text ≤ 0 ∨
    SameIntegerType a c ∧ ¬SameIntegerType a b ∧ c.integer < a.integer ∧
      strcmp a.text b.text ≤ 0 ∧ strcmp b.text c.text ≤ 0

/-- With the method that compares texts, `scalar_diff` is transitive on three plain scalars of
a memory exactly where none of them closes a cycle with two integers of another type. -/
theorem scalar_diff_transitive_iff (rt : Runtime)
    (memory : Nat → {value : Scalar // value.isPlain = true}) (a b c : Nat) :
    ∃ ab bc ac : Int,
      scalarDiff rt .case (some (.scalar a (memory a).1)) (some (.scalar b (memory b).1)) =
        some ab ∧
      scalarDiff rt .case (some (.scalar b (memory b).1)) (some (.scalar c (memory c).1)) =
        some bc ∧
      scalarDiff rt .case (some (.scalar a (memory a).1)) (some (.scalar c (memory c).1)) =
        some ac ∧
      ((ab ≤ 0 → bc ≤ 0 → ac ≤ 0) ↔ ¬ClosesCycle (memory a).1 (memory b).1 (memory c).1) := by
  have run : ∀ l r : Nat, ∃ diff, scalarDiff rt .case (some (.scalar l (memory l).1))
      (some (.scalar r (memory r).1)) = some diff ∧ (diff ≤ 0 ↔
        if SameIntegerType (memory l).1 (memory r).1
        then (memory l).1.integer ≤ (memory r).1.integer
        else strcmp (memory l).1.text (memory r).1.text ≤ 0) := fun l r =>
    scalarDiff_le_zero (fun pointer => by rw [pointer]) (memory l).2 (memory r).2
  obtain ⟨ab, runAB, orderAB⟩ := run a b
  obtain ⟨bc, runBC, orderBC⟩ := run b c
  obtain ⟨ac, runAC, orderAC⟩ := run a c
  refine ⟨ab, bc, ac, runAB, runBC, runAC, ?_⟩
  generalize (memory a).1 = va at orderAB orderAC ⊢
  generalize (memory b).1 = vb at orderAB orderBC ⊢
  generalize (memory c).1 = vc at orderBC orderAC ⊢
  have texts : strcmp va.text vb.text ≤ 0 → strcmp vb.text vc.text ≤ 0 →
      strcmp va.text vc.text ≤ 0 := fun first second => strcmp_consistent.trans first second
  rw [orderAB, orderBC, orderAC]
  -- Two of the three pairs of integers of one type make the third, so that at most one is left.
  by_cases sameAB : SameIntegerType va vb
  · by_cases sameBC : SameIntegerType vb vc
    · have sameAC := sameAB.trans sameBC
      simp only [ClosesCycle, sameAB, sameBC, sameAC, if_true, not_true_eq_false, false_and,
        and_false, or_false, not_false_eq_true, iff_true]
      exact le_trans
    · have apart : ¬SameIntegerType va vc := fun sameAC => sameBC (sameAB.symm.trans sameAC)
      simp only [ClosesCycle, strcmp_neg, sameAB, sameBC, apart, if_true, if_false, true_and,
        not_false_eq_true, false_and, or_false, not_and, not_not]
  · by_cases sameBC : SameIntegerType vb vc
    · have apart : ¬SameIntegerType va vc := fun sameAC => sameAB (sameAC.trans sameBC.symm)
      simp only [ClosesCycle, strcmp_neg, sameAB, sameBC, apart, if_true, if_false, true_and,
        not_false_eq_true, false_and, or_false, false_or, not_and]
      constructor
      · intro run numbers above first
        exact above (run first numbers)
      · intro closed first numbers
        by_contra above
        exact closed numbers above first
    · by_cases sameAC : SameIntegerType va vc
      · simp only [ClosesCycle, sameAB, sameBC, sameAC, if_true, if_false, true_and,
          not_false_eq_true, false_and, false_or, not_and]
        constructor
        · intro run above first second
          have numbers := run first second
          omega
        · intro closed first second
          by_contra above
          exact closed (by omega) first second
      · simp only [ClosesCycle, sameAB, sameBC, sameAC, if_false, false_and, or_false,
          not_false_eq_true, iff_true]
        exact texts

/-- The text "2". -/
def twoText : StringValue := .ofText (.lit "2") (by decide)

/-- The integers 10 and 9 and the text "2" are in a cycle: 10 is below "2" and "2" is below 9 as
texts, and 10 is above 9 as a number. -/
theorem scalar_diff_cycle :
    scalarDiff .plain .case (some (.scalar 1 (.longint 10))) (some (.scalar 2 (.string twoText))) =
        some (-1) ∧
      scalarDiff .plain .case (some (.scalar 2 (.string twoText))) (some (.scalar 3 (.longint 9))) =
        some (-7) ∧
      scalarDiff .plain .case (some (.scalar 1 (.longint 10))) (some (.scalar 3 (.longint 9))) =
        some 1 :=
  ⟨by decide, by decide, by decide⟩

end Bpcp.Purc
