import Bpcp.Purc.ByteSequence
import Bpcp.Purc.Cast

/-!
# Comparison of variants

`pcvar_compare_ex` compares pointers first, then, on request, the numbers of two numeric
variants as long doubles, then types, and then values: leaves by type, and containers by
walking both at once until the first difference, where the container that ends first is
the smaller. A comparison has no result when it would read outside the bytes of its
operands or when one of its assertions fails.
-/

namespace Bpcp.Purc

open Bpcp.Lib

/-- `pcvariant_is_of_number`. -/
def pcvariantIsOfNumber : Variant → Bool
  | .scalar _ (.number _) => true
  | .scalar _ (.longint _) => true
  | .scalar _ (.ulongint _) => true
  | .scalar _ (.longdouble _) => true
  | _ => false

/-- The comparison of two numeric variants as long doubles, which must be finite. -/
def compareUnified (rt : Runtime) (l r : Variant) : Option Int :=
  let (okL, ldl) := purcVariantCastToLongdouble rt l (.finite 0) false
  let (okR, ldr) := purcVariantCastToLongdouble rt r (.finite 0) false
  if ¬okL ∨ ¬okR then none
  else if ldl.isNan ∨ ldl.isInf ≠ 0 then none
  else if ldr.isNan ∨ ldr.isInf ≠ 0 then none
  else if equalLongDoubles ldl ldr then some 0
  else if ldl.lt ldr then some (-1)
  else if ldr.lt ldl then some 1
  else none

/-- The dynamic and native case of `pcvar_compare_ex`, which returns the test itself. -/
def comparePointers (l r : UInt64 × UInt64) : Option Int :=
  (memcmp (ptrBytes l) (ptrBytes r) 16).map fun diff => if diff = 0 then 1 else 0

/-- The cases of `pcvar_compare_ex` for two scalars of one type. -/
def compareScalars (rt : Runtime) (caseless : Bool) : Scalar → Scalar → Option Int
  | .undefined, .undefined => some 0
  | .null, .null => some 0
  | .boolean l, .boolean r => some (l.toInt - r.toInt)
  | .exception l, .exception r => some (atomDifference l r)
  | .number l, .number r =>
    some (if equalDoubles l.value r.value then 0 else if l.value.lt r.value then -1 else 1)
  | .longint l, .longint r => some (if l = r then 0 else if l < r then -1 else 1)
  | .ulongint l, .ulongint r => some (if l = r then 0 else if l < r then -1 else 1)
  | .longdouble l, .longdouble r =>
    some (if equalLongDoubles l.value r.value then 0 else if l.value.lt r.value then -1 else 1)
  | .atomstring l, .atomstring r => some (atomDifference l r)
  | .string l, .string r =>
    some (if caseless then rt.pcutilsStrcasecmp l.text r.text else strcmp l.text r.text)
  | .bsequence l, .bsequence r => compareBsequences l r
  | .dynamic l, .dynamic r => comparePointers l r
  | .native l, .native r => comparePointers l r
  | _, _ => some 0

mutual

/-- `pcvar_compare_ex` of two variants. -/
def compareEx (rt : Runtime) (caseless unifyNumber : Bool) (l r : Variant) : Option Int :=
  if l.addr = r.addr then some 0
  else if unifyNumber ∧ pcvariantIsOfNumber l ∧ pcvariantIsOfNumber r then compareUnified rt l r
  else if l.type ≠ r.type then some (l.type.toInt - r.type.toInt)
  else match l, r with
    | .scalar _ l, .scalar _ r => compareScalars rt caseless l r
    | .object _ kvsL, .object _ kvsR => cmpByObj rt caseless unifyNumber kvsL kvsR
    | .linear _ _ membersL, .linear _ _ membersR =>
      cmpMembers rt caseless unifyNumber membersL membersR
    | _, _ => some 0

/-- `cmp_by_obj`: keys by `strcmp`, then values. -/
def cmpByObj (rt : Runtime) (caseless unifyNumber : Bool) :
    List (CString × Variant) → List (CString × Variant) → Option Int
  | [], [] => some 0
  | [], _ :: _ => some (-1)
  | _ :: _, [] => some 1
  | (lk, lv) :: restL, (rk, rv) :: restR =>
    if strcmp lk rk ≠ 0 then some (strcmp lk rk)
    else (compareEx rt caseless unifyNumber lv rv).bind fun diff =>
      if diff ≠ 0 then some diff else cmpByObj rt caseless unifyNumber restL restR

/-- The walk of `cmp_by_arr`, `cmp_by_set` and `cmp_by_tuple` over two linear containers. -/
def cmpMembers (rt : Runtime) (caseless unifyNumber : Bool) :
    List Variant → List Variant → Option Int
  | [], [] => some 0
  | [], _ :: _ => some (-1)
  | _ :: _, [] => some 1
  | lv :: restL, rv :: restR =>
    (compareEx rt caseless unifyNumber lv rv).bind fun diff =>
      if diff ≠ 0 then some diff else cmpMembers rt caseless unifyNumber restL restR

end

/-- `pcvar_compare_ex`, where a missing variant comes before every variant. -/
def pcvarCompareEx (rt : Runtime) (caseless unifyNumber : Bool) :
    Option Variant → Option Variant → Option Int
  | none, none => some 0
  | none, some _ => some (-1)
  | some _, none => some 1
  | some l, some r => compareEx rt caseless unifyNumber l r

variable {rt : Runtime} {caseless unifyNumber : Bool}

/-- A variant compares equal to what lives at its address. -/
theorem compareEx_same {l r : Variant} (pointer : l.addr = r.addr) :
    compareEx rt caseless unifyNumber l r = some 0 := by
  unfold compareEx
  rw [if_pos pointer]

/-- Variants of different types compare by type, unless both are numbers to be unified. -/
theorem compareEx_types {l r : Variant} (pointer : l.addr ≠ r.addr)
    (apart : ¬(unifyNumber ∧ pcvariantIsOfNumber l ∧ pcvariantIsOfNumber r))
    (types : l.type ≠ r.type) :
    compareEx rt caseless unifyNumber l r = some (l.type.toInt - r.type.toInt) := by
  unfold compareEx
  rw [if_neg pointer, if_neg apart, if_pos types]

/-- Scalars of one type at different addresses compare by value. -/
theorem compareEx_scalars {addrL addrR : Nat} {l r : Scalar} (pointer : addrL ≠ addrR)
    (apart : ¬(unifyNumber ∧ pcvariantIsOfNumber (.scalar addrL l) ∧
      pcvariantIsOfNumber (.scalar addrR r)))
    (types : l.type = r.type) :
    compareEx rt caseless unifyNumber (.scalar addrL l) (.scalar addrR r) =
      compareScalars rt caseless l r := by
  unfold compareEx
  rw [if_neg apart]
  simp [Variant.addr, Variant.type, pointer, types]

/-- Objects at different addresses compare entry by entry. -/
theorem compareEx_objects {addrL addrR : Nat} {kvsL kvsR : List (CString × Variant)}
    (pointer : addrL ≠ addrR) :
    compareEx rt caseless unifyNumber (.object addrL kvsL) (.object addrR kvsR) =
      cmpByObj rt caseless unifyNumber kvsL kvsR := by
  unfold compareEx
  simp [Variant.addr, Variant.type, pointer, pcvariantIsOfNumber]

/-- Linear containers of one kind at different addresses compare member by member. -/
theorem compareEx_linears {addrL addrR : Nat} {kind : LinearKind}
    {membersL membersR : List Variant} (pointer : addrL ≠ addrR) :
    compareEx rt caseless unifyNumber (.linear addrL kind membersL) (.linear addrR kind membersR) =
      cmpMembers rt caseless unifyNumber membersL membersR := by
  unfold compareEx
  simp [Variant.addr, Variant.type, pointer, pcvariantIsOfNumber]

/-! ## Byte sequences -/

/-- Byte sequences at different addresses compare by what `sz_ptr` describes. -/
theorem compareEx_bsequences {addrL addrR : Nat} {l r : Storage} (pointer : addrL ≠ addrR) :
    compareEx rt caseless unifyNumber (.scalar addrL (.bsequence l))
      (.scalar addrR (.bsequence r)) = compareBsequences l r :=
  compareEx_scalars pointer (by simp [pcvariantIsOfNumber]) rfl

/-- A comparison of two byte-sequence variants is right: it orders their contents, and it is
zero exactly when they are equal. -/
def OrdersBsequences (rt : Runtime) (addrL addrR : Nat) (l r : Storage) (result : Option Int) :
    Prop :=
  OrdersContents l r result ∧
    (result = some 0 ↔ purcVariantIsEqualTo rt (some (.scalar addrL (.bsequence l)))
      (some (.scalar addrR (.bsequence r))) = true)

/-- Ordering the contents is enough. -/
theorem ordersBsequences_iff {addrL addrR : Nat} {l r : Storage} {result : Option Int} :
    OrdersBsequences rt addrL addrR l r result ↔ OrdersContents l r result :=
  ⟨And.left, fun orders => ⟨orders, orders.zero_iff⟩⟩

/-- `bs_diff` and `pcvar_compare_ex` order the byte sequences of a memory exactly where the
two are in extra space and the first is not longer than the second, or where the first bytes
of an inline sequence, taken for a length, happen to be zero and to order the two. -/
theorem bsequence_order_iff (rt : Runtime) (caseless unifyNumber : Bool)
    (memory : Nat → Storage) (addrL addrR : Nat) :
    (OrdersBsequences rt addrL addrR (memory addrL) (memory addrR)
        (bsDiff (memory addrL) (memory addrR)) ∧
      OrdersBsequences rt addrL addrR (memory addrL) (memory addrR)
        (pcvarCompareEx rt caseless unifyNumber (some (.scalar addrL (.bsequence (memory addrL))))
          (some (.scalar addrR (.bsequence (memory addrR)))))) ↔
      if (memory addrL).isInline ∨ (memory addrR).isInline then
        (memory addrL).szPtr0 = 0 ∧ compare 0 (memory addrR).szPtr0 =
          List.compareLex compare (memory addrL).content (memory addrR).content
      else
        (memory addrL).content.length ≤ (memory addrR).content.length := by
  rw [ordersBsequences_iff, ordersBsequences_iff, pcvarCompareEx]
  by_cases pointer : addrL = addrR
  · subst pointer
    have reflexive : OrdersContents (memory addrL) (memory addrL) (some 0) :=
      ⟨0, rfl, Std.ReflCmp.compare_self.symm⟩
    rw [compareEx_same rfl, and_iff_left reflexive]
    split
    · rename_i inside
      rw [bsDiff_inline inside, min_self]
      exact and_congr_right fun zero => by rw [zero]
    · rename_i outside
      simp only [not_or, Bool.not_eq_true] at outside
      exact iff_of_true (bsDiff_outside outside.1 outside.2) le_rfl
  · rw [compareEx_bsequences pointer]
    split
    · rename_i inside
      rw [bsDiff_inline inside, compareBsequences_inline inside]
      constructor
      · rintro ⟨-, zero, order⟩
        exact ⟨zero, zero ▸ order⟩
      · rintro ⟨zero, order⟩
        rw [zero]
        exact ⟨⟨by simp, order⟩, rfl, order⟩
    · rename_i outside
      simp only [not_or, Bool.not_eq_true] at outside
      rw [compareBsequences_outside outside.1 outside.2,
        and_iff_right (bsDiff_outside outside.1 outside.2)]

/-- Of the inline sequences `61` and `62`, `bs_diff` takes the contents for lengths and reads
through the pointers that the bytes behind them spell. -/
theorem bsequence_order_inline :
    let l := Storage.inline ((Vector.replicate 16 0).set 0 0x61) 1 (by decide)
    let r := Storage.inline ((Vector.replicate 16 0).set 0 0x62) 1 (by decide)
    bsDiff l r = none ∧ pcvarCompareEx .plain false false (some (.scalar 1 (.bsequence l)))
      (some (.scalar 2 (.bsequence r))) = none ∧
      ¬OrdersBsequences .plain 1 2 l r (bsDiff l r) := by
  refine ⟨by decide, by decide, fun orders => ?_⟩
  obtain ⟨diff, run, -⟩ := orders.1
  exact nomatch (show none = some diff from run)

/-! ## Unified integers -/

/-- The tolerance takes two integers for equal when they are, or when they are neighbours and
one of them takes 64 bits. -/
theorem equalLongDoubles_integers {l r : ℤ} (small : max |l| |r| < 2 ^ 64) :
    equalLongDoubles (.finite l) (.finite r) = true ↔
      l = r ∨ |l - r| = 1 ∧ 2 ^ 63 ≤ max |l| |r| := by
  rw [equalLongDoubles, FloatValue.within_int]
  have nonneg := abs_nonneg (l - r)
  have zero : |l - r| = 0 ↔ l = r := by rw [abs_eq_zero, sub_eq_zero]
  have larger : 0 ≤ max |l| |r| := le_max_of_le_left (abs_nonneg l)
  omega

/-- The magnitude of an integer is below 2^64. -/
theorem IntegerValue.magnitude_lt (value : IntegerValue) : |value.toInt| < 2 ^ 64 := by
  cases value with
  | longint i64 =>
    have low := i64.le_toInt
    have high := i64.toInt_lt
    rw [IntegerValue.toInt, abs_lt]
    omega
  | ulongint u64 =>
    have high := u64.toNat_lt
    rw [IntegerValue.toInt, Nat.abs_cast]
    omega

/-- Integers are compared in their order, up to the tolerance. -/
theorem compareUnified_integers {addrL addrR : Nat} (l r : IntegerValue) :
    compareUnified rt (.scalar addrL l.scalar) (.scalar addrR r.scalar) =
      some (if l.toInt = r.toInt ∨
          |l.toInt - r.toInt| = 1 ∧ 2 ^ 63 ≤ max |l.toInt| |r.toInt| then 0
        else if l.toInt < r.toInt then -1 else 1) := by
  have castL : ∀ v : IntegerValue, ∀ addr, purcVariantCastToLongdouble rt (.scalar addr v.scalar)
      (.finite 0) false = (true, .finite v.toInt) := by
    intro v addr
    cases v <;> rfl
  have tolerance := equalLongDoubles_integers (max_lt l.magnitude_lt r.magnitude_lt)
  rw [compareUnified, castL, castL]
  simp only [not_true_eq_false, or_self, if_false, FloatValue.isNan, FloatValue.isInf, tolerance,
    FloatValue.lt, decide_eq_true_eq, Int.cast_lt, ne_eq, Bool.false_eq_true]
  split
  · rfl
  · rename_i apart
    rcases lt_trichotomy l.toInt r.toInt with less | same | greater
    · rw [if_pos less, if_pos less]
    · exact absurd (.inl same) apart
    · rw [if_neg greater.asymm, if_pos greater, if_neg greater.asymm]

/-- Integers at different addresses are unified on request. -/
theorem compareEx_integers {addrL addrR : Nat} {l r : IntegerValue} (pointer : addrL ≠ addrR) :
    compareEx rt caseless true (.scalar addrL l.scalar) (.scalar addrR r.scalar) =
      compareUnified rt (.scalar addrL l.scalar) (.scalar addrR r.scalar) := by
  have numeric : ∀ v : IntegerValue, ∀ addr,
      pcvariantIsOfNumber (.scalar addr v.scalar) = true := by
    intro v addr
    cases v <;> rfl
  unfold compareEx
  simp [Variant.addr, pointer, numeric]

/-- With numbers unified, integers compare in their order, except that neighbours of which
one takes 64 bits compare equal. -/
theorem unified_integer_order (rt : Runtime) (caseless : Bool) (memory : Nat → IntegerValue)
    (addrL addrR : Nat) :
    ∃ diff, pcvarCompareEx rt caseless true (some (.scalar addrL (memory addrL).scalar))
        (some (.scalar addrR (memory addrR).scalar)) = some diff ∧
      outcome diff =
        if |(memory addrL).toInt - (memory addrR).toInt| = 1 ∧
          2 ^ 63 ≤ max |(memory addrL).toInt| |(memory addrR).toInt| then .eq
        else compare (memory addrL).toInt (memory addrR).toInt := by
  rw [pcvarCompareEx]
  by_cases pointer : addrL = addrR
  · subst pointer
    exact ⟨0, compareEx_same rfl, by simp⟩
  rw [compareEx_integers pointer, compareUnified_integers]
  refine ⟨_, rfl, ?_⟩
  by_cases tie : |(memory addrL).toInt - (memory addrR).toInt| = 1 ∧
    2 ^ 63 ≤ max |(memory addrL).toInt| |(memory addrR).toInt|
  · rw [if_pos (.inr tie), if_pos tie, outcome_zero]
  · simp only [tie, or_false, if_false, outcome_threeWay]

/-- The two greatest unsigned long integers compare equal when numbers are unified. -/
theorem unified_neighbours_equal :
    pcvarCompareEx .plain false true (some (.scalar 1 (.ulongint 0xFFFFFFFFFFFFFFFF)))
        (some (.scalar 2 (.ulongint 0xFFFFFFFFFFFFFFFE))) = some 0 ∧
      (0xFFFFFFFFFFFFFFFE : UInt64).toNat < (0xFFFFFFFFFFFFFFFF : UInt64).toNat := by
  refine ⟨?_, by decide⟩
  rw [pcvarCompareEx]
  refine (@compareEx_integers _ _ 1 2 (.ulongint 0xFFFFFFFFFFFFFFFF)
    (.ulongint 0xFFFFFFFFFFFFFFFE) (by decide)).trans ?_
  rw [compareUnified_integers, if_pos (by decide)]

end Bpcp.Purc
