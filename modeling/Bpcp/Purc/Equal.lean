import Bpcp.Lib.Keyed
import Bpcp.Purc.Variant

/-!
# Equality of variants

`purc_variant_is_equal_to` asks for equal types and then compares by type: floating-point
numbers within a tolerance, other leaves by their bytes, objects by looking every key of
the first up in the second, and linear containers member by member.

Two leaves that are not floating-point numbers are equal exactly when their types and the
bytes that stand for them are. Objects are compared in one direction only, but no object
holds a key twice, so equality of trees is an equivalence relation.
-/

namespace Bpcp.Purc

open Bpcp.Lib

/-- `equal_doubles`: a difference within `DBL_EPSILON` of the larger magnitude. The bound is exact
here; the program rounds it, which changes it only for magnitudes below `2 ^ -970`. -/
def equalDoubles (a b : FloatValue) : Bool := FloatValue.within (1 / 2 ^ 52) a b

/-- `equal_long_doubles`: a difference within `LDBL_EPSILON` of the larger magnitude. The bound is
exact here; the program rounds it, which changes it only for magnitudes below `2 ^ -16319`. -/
def equalLongDoubles (a b : FloatValue) : Bool := FloatValue.within (1 / 2 ^ 63) a b

/-- The difference of two atoms, computed without sign and returned as an `int`. -/
def atomDifference (l r : UInt32) : Int := (l - r).toBitVec.toInt

/-- The bytes of `ptr_ptr`, two pointers of eight bytes. -/
def ptrBytes (ptrPtr : UInt64 × UInt64) : List UInt8 :=
  leBytes 8 ptrPtr.1.toNat ++ leBytes 8 ptrPtr.2.toNat

/-- The comparison of strings and byte sequences: equal lengths, then `memcmp`. -/
def equalStored (v1 v2 : Storage) : Bool :=
  v1.content.length = v2.content.length &&
    memcmp v1.content v2.content v1.content.length == some 0

/-- The cases of `purc_variant_is_equal_to` for two variants of scalar types. -/
def equalScalars (rt : Runtime) : Scalar → Scalar → Bool
  | .undefined, .undefined => true
  | .null, .null => true
  | .boolean b1, .boolean b2 => b1 = b2
  | .exception atom1, .exception atom2 => atom1 = atom2
  | .number d1, .number d2 => equalDoubles d1.value d2.value
  | .longint i1, .longint i2 => i1 = i2
  | .ulongint u1, .ulongint u2 => u1 = u2
  | .longdouble ld1, .longdouble ld2 => equalLongDoubles ld1.value ld2.value
  | .atomstring atom1, .atomstring atom2 =>
    strcmp (rt.purcAtomToString atom1) (rt.purcAtomToString atom2) = 0
  | .string v1, .string v2 => equalStored v1.storage v2.storage
  | .bsequence v1, .bsequence v2 => equalStored v1 v2
  | .dynamic p1, .dynamic p2 => memcmp (ptrBytes p1) (ptrBytes p2) 16 == some 0
  | .native p1, .native p2 => memcmp (ptrBytes p1) (ptrBytes p2) 16 == some 0
  | _, _ => false

mutual

/-- `purc_variant_is_equal_to` of a variant and a pointer that may be `NULL`. -/
def isEqualTo (rt : Runtime) : Variant → Option Variant → Bool
  | _, none => false
  | .scalar _ v1, some (.scalar _ v2) => equalScalars rt v1 v2
  -- `equal_objects`
  | .object _ kvs1, some (.object _ kvs2) =>
    kvs1.length = kvs2.length && equalEntries rt kvs1 kvs2
  -- `equal_arrays`, `equal_sets` and `equal_tuples`
  | .linear _ kind1 members1, some (.linear _ kind2 members2) =>
    kind1 = kind2 && members1.length = members2.length && equalMembers rt members1 members2
  | _, some _ => false

/-- The loop of `equal_objects` over the entries of the first object. -/
def equalEntries (rt : Runtime) : List (CString × Variant) → List (CString × Variant) → Bool
  | [], _ => true
  | (key, m1) :: rest, kvs2 => isEqualTo rt m1 (kvs2.lookup key) && equalEntries rt rest kvs2

/-- The loops of `equal_arrays`, `equal_sets` and `equal_tuples`, which step through both
containers at once. -/
def equalMembers (rt : Runtime) : List Variant → List Variant → Bool
  | [], _ => true
  | m1 :: rest, members2 =>
    isEqualTo rt m1 members2.head? && equalMembers rt rest members2.tail

end

/-- `purc_variant_is_equal_to`. -/
def purcVariantIsEqualTo (rt : Runtime) : Option Variant → Option Variant → Bool
  | none, v2 => v2.isNone
  | some v1, v2 => isEqualTo rt v1 v2

/-- Two variants are equal. -/
def Equal (rt : Runtime) (v1 v2 : Variant) : Prop :=
  purcVariantIsEqualTo rt (some v1) (some v2) = true

variable {rt : Runtime}

/-! ## Leaves -/

/-- The scalars that are compared within a tolerance. -/
def Scalar.isFloat : Scalar → Bool
  | number _ => true
  | longdouble _ => true
  | _ => false

/-- The bytes that stand for the value of a leaf when leaves are tested for equality. -/
def Scalar.content (rt : Runtime) : Scalar → List UInt8
  | boolean b => [if b then 1 else 0]
  | exception atom => leBytes 4 atom.toNat
  | longint i64 => leBytes 8 i64.toUInt64.toNat
  | ulongint u64 => leBytes 8 u64.toNat
  | atomstring atom => (rt.purcAtomToString atom).bytes
  | string value => value.storage.content
  | bsequence storage => storage.content
  | dynamic ptrPtr => ptrBytes ptrPtr
  | native ptrPtr => ptrBytes ptrPtr
  | _ => []

/-- Stored bytes compare equal when they are the same bytes. -/
theorem equalStored_iff {v1 v2 : Storage} :
    equalStored v1 v2 = true ↔ v1.content = v2.content := by
  simp only [equalStored, Bool.and_eq_true, decide_eq_true_eq, beq_iff_eq]
  constructor
  · rintro ⟨length, same⟩
    have blocks := (memcmp_eq_zero le_rfl length.le).1 same
    rwa [List.take_length, length, List.take_length] at blocks
  · intro same
    exact ⟨by rw [same], (memcmp_eq_zero le_rfl (by rw [same])).2 (by rw [same])⟩

/-- The two pointers take sixteen bytes. -/
@[simp] theorem ptrBytes_length (ptrPtr : UInt64 × UInt64) : (ptrBytes ptrPtr).length = 16 := by
  simp [ptrBytes]

/-- Different pointers have different bytes. -/
@[simp] theorem ptrBytes_inj {p1 p2 : UInt64 × UInt64} : ptrBytes p1 = ptrBytes p2 ↔ p1 = p2 := by
  refine ⟨fun same => ?_, fun same => by rw [same]⟩
  obtain ⟨first, second⟩ := List.append_inj same (by simp)
  exact Prod.ext (leBytes_uint64_inj.1 first) (leBytes_uint64_inj.1 second)

/-- `memcmp` of the two pointers answers zero when they are the same pointers. -/
theorem memcmp_ptrBytes {p1 p2 : UInt64 × UInt64} :
    memcmp (ptrBytes p1) (ptrBytes p2) 16 = some 0 ↔ p1 = p2 := by
  rw [memcmp_eq_zero (by simp) (by simp), List.take_of_length_le (by simp),
    List.take_of_length_le (by simp), ptrBytes_inj]

/-- Leaves that are not floating-point numbers are equal when type and bytes are. -/
theorem equalScalars_iff {v1 v2 : Scalar} (exact : v1.isFloat = false) :
    equalScalars rt v1 v2 = true ↔ v1.type = v2.type ∧ v1.content rt = v2.content rt := by
  cases v1 <;> cases v2 <;>
    simp_all [equalScalars, Scalar.type, Scalar.content, Scalar.isFloat, equalStored_iff,
      memcmp_ptrBytes, strcmp_eq_zero, CString.ext_iff]
  rename_i b1 b2
  cases b1 <;> cases b2 <;> simp

/-! ## Containers -/

/-- The loop over an object asks for an equal value under each of its keys. -/
theorem equalEntries_iff {kvs1 kvs2 : List (CString × Variant)} :
    equalEntries rt kvs1 kvs2 = true ↔
      ∀ entry ∈ kvs1, ∃ value, kvs2.lookup entry.1 = some value ∧ Equal rt entry.2 value := by
  induction kvs1 with
  | nil => simp [equalEntries]
  | cons entry rest ih =>
    rw [equalEntries, Bool.and_eq_true, ih, List.forall_mem_cons]
    refine and_congr_left' ?_
    cases kvs2.lookup entry.1 with
    | none => simp [isEqualTo]
    | some value => simp [Equal, purcVariantIsEqualTo]

/-- The loop over two linear containers of one size relates them member by member. -/
theorem equalMembers_iff {members1 members2 : List Variant}
    (size : members1.length = members2.length) :
    equalMembers rt members1 members2 = true ↔ List.Forall₂ (Equal rt) members1 members2 := by
  induction members1 generalizing members2 with
  | nil => simp [equalMembers, List.length_eq_zero_iff.1 size.symm]
  | cons m1 rest ih =>
    cases members2 with
    | nil => simp at size
    | cons m2 rest2 =>
      rw [equalMembers, Bool.and_eq_true, List.forall₂_cons]
      exact and_congr Iff.rfl (ih (by simpa using size))

/-- Scalars are equal by their values. -/
@[simp] theorem equal_scalar {addr1 addr2 : Nat} {v1 v2 : Scalar} :
    Equal rt (.scalar addr1 v1) (.scalar addr2 v2) ↔ equalScalars rt v1 v2 = true := Iff.rfl

/-- Objects are equal when the second has as many entries, and an equal value under every
key of the first. -/
theorem equal_object {addr1 addr2 : Nat} {kvs1 kvs2 : List (CString × Variant)} :
    Equal rt (.object addr1 kvs1) (.object addr2 kvs2) ↔ Keyed.Matches (Equal rt) kvs1 kvs2 := by
  rw [Equal, purcVariantIsEqualTo, isEqualTo, Bool.and_eq_true, decide_eq_true_eq,
    equalEntries_iff]
  exact ⟨fun ⟨size, found⟩ => ⟨size, found⟩, fun ⟨size, found⟩ => ⟨size, found⟩⟩

/-- Linear containers are equal when they are of one kind and equal member by member. -/
theorem equal_linear {addr1 addr2 : Nat} {kind1 kind2 : LinearKind}
    {members1 members2 : List Variant} :
    Equal rt (.linear addr1 kind1 members1) (.linear addr2 kind2 members2) ↔
      kind1 = kind2 ∧ List.Forall₂ (Equal rt) members1 members2 := by
  simp only [Equal, purcVariantIsEqualTo, isEqualTo, Bool.and_eq_true, decide_eq_true_eq]
  constructor
  · rintro ⟨⟨kind, size⟩, members⟩
    exact ⟨kind, (equalMembers_iff size).1 members⟩
  · rintro ⟨kind, members⟩
    exact ⟨⟨kind, members.length_eq⟩, (equalMembers_iff members.length_eq).2 members⟩

/-- Equal variants have one type. -/
theorem Equal.type_eq {v1 v2 : Variant} (equal : Equal rt v1 v2) : v1.type = v2.type := by
  cases v1 <;> cases v2 <;>
    simp [Equal, purcVariantIsEqualTo, isEqualTo, Variant.type] at equal ⊢
  · rename_i value1 _ value2
    cases value1 <;> cases value2 <;> simp_all [equalScalars, Scalar.type]
  · rw [equal.1.1]

/-! ## Trees -/

/-- Whether the variant is a floating-point number. -/
def Variant.isFloat : Variant → Bool
  | scalar _ value => value.isFloat
  | _ => false

/-- A tree without floating-point leaves. -/
def Variant.NoFloat (variant : Variant) : Prop := variant.All fun node => node.isFloat = false

/-- Being a floating-point number is a matter of type. -/
theorem Scalar.isFloat_of_type {v1 v2 : Scalar} (same : v1.type = v2.type) :
    v1.isFloat = v2.isFloat := by
  cases v1 <;> cases v2 <;> first | rfl | simp [Scalar.type] at same

/-- What is equal to a scalar is a scalar. -/
theorem Equal.of_scalar {addr : Nat} {value : Scalar} {v2 : Variant}
    (equal : Equal rt (.scalar addr value) v2) :
    ∃ addr2 value2, v2 = .scalar addr2 value2 ∧ equalScalars rt value value2 = true := by
  obtain ⟨addr2, value2, rfl, -⟩ := Variant.of_type_scalar equal.type_eq
  exact ⟨addr2, value2, rfl, equal⟩

/-- What is equal to an object is an object. -/
theorem Equal.of_object {addr : Nat} {kvs : List (CString × Variant)} {v2 : Variant}
    (equal : Equal rt (.object addr kvs) v2) :
    ∃ addr2 kvs2, v2 = .object addr2 kvs2 ∧ Keyed.Matches (Equal rt) kvs kvs2 := by
  obtain ⟨addr2, kvs2, rfl⟩ := Variant.of_type_object equal.type_eq
  exact ⟨addr2, kvs2, rfl, equal_object.1 equal⟩

/-- What is equal to a linear container is a linear container of its kind. -/
theorem Equal.of_linear {addr : Nat} {kind : LinearKind} {members : List Variant} {v2 : Variant}
    (equal : Equal rt (.linear addr kind members) v2) :
    ∃ addr2 members2, v2 = .linear addr2 kind members2 ∧
      List.Forall₂ (Equal rt) members members2 := by
  obtain ⟨addr2, members2, rfl⟩ := Variant.of_type_linear equal.type_eq
  exact ⟨addr2, members2, rfl, (equal_linear.1 equal).2⟩

/-- A tree is equal to itself. -/
theorem equal_refl {variant : Variant} (exact : variant.NoFloat) (unique : variant.UniqueKeys) :
    Equal rt variant variant := by
  induction variant with
  | scalar addr value =>
    exact (equalScalars_iff (Variant.all_scalar.1 exact)).2 ⟨rfl, rfl⟩
  | object addr kvs ih =>
    have inside := (Variant.all_object.1 exact).2
    obtain ⟨keys, below⟩ := Variant.all_object.1 unique
    exact equal_object.2 <| .refl keys fun kv member =>
      ih kv member (inside kv member) (below kv member)
  | linear addr kind members ih =>
    have inside := (Variant.all_linear.1 exact).2
    have below := (Variant.all_linear.1 unique).2
    exact equal_linear.2 ⟨rfl, List.forall₂_same.2 fun member within =>
      ih member within (inside member within) (below member within)⟩

/-- Equality of trees is symmetric. -/
theorem equal_symm {v1 v2 : Variant} (exact : v1.NoFloat) (unique : v1.UniqueKeys)
    (equal : Equal rt v1 v2) : Equal rt v2 v1 := by
  induction v1 generalizing v2 with
  | scalar addr value =>
    obtain ⟨addr2, value2, rfl, same⟩ := equal.of_scalar
    have noFloat := Variant.all_scalar.1 exact
    obtain ⟨type, content⟩ := (equalScalars_iff noFloat).1 same
    have noFloat2 := (Scalar.isFloat_of_type type).symm.trans noFloat
    exact (equalScalars_iff noFloat2).2 ⟨type.symm, content.symm⟩
  | object addr kvs ih =>
    obtain ⟨addr2, kvs2, rfl, matching⟩ := equal.of_object
    have inside := (Variant.all_object.1 exact).2
    obtain ⟨keys, below⟩ := Variant.all_object.1 unique
    exact equal_object.2 <| matching.symm keys fun kv member value =>
      ih kv member (inside kv member) (below kv member)
  | linear addr kind members ih =>
    obtain ⟨addr2, members2, rfl, pairs⟩ := equal.of_linear
    have inside := (Variant.all_linear.1 exact).2
    have below := (Variant.all_linear.1 unique).2
    exact equal_linear.2 ⟨rfl, Keyed.forall₂_symm pairs fun member within v2 =>
      ih member within (inside member within) (below member within)⟩

/-- Equality of trees is transitive. -/
theorem equal_trans {v1 v2 v3 : Variant} (exact : v1.NoFloat) (lower : Equal rt v1 v2)
    (upper : Equal rt v2 v3) : Equal rt v1 v3 := by
  induction v1 generalizing v2 v3 with
  | scalar addr value =>
    obtain ⟨addr2, value2, rfl, first⟩ := lower.of_scalar
    obtain ⟨addr3, value3, rfl, second⟩ := upper.of_scalar
    have noFloat := Variant.all_scalar.1 exact
    obtain ⟨type, content⟩ := (equalScalars_iff noFloat).1 first
    have noFloat2 := (Scalar.isFloat_of_type type).symm.trans noFloat
    obtain ⟨type2, content2⟩ := (equalScalars_iff noFloat2).1 second
    exact (equalScalars_iff noFloat).2 ⟨type.trans type2, content.trans content2⟩
  | object addr kvs ih =>
    obtain ⟨addr2, kvs2, rfl, first⟩ := lower.of_object
    obtain ⟨addr3, kvs3, rfl, second⟩ := upper.of_object
    have inside := (Variant.all_object.1 exact).2
    exact equal_object.2 <| first.trans second fun kv member value other =>
      ih kv member (inside kv member)
  | linear addr kind members ih =>
    obtain ⟨addr2, members2, rfl, first⟩ := lower.of_linear
    obtain ⟨addr3, members3, rfl, second⟩ := upper.of_linear
    have inside := (Variant.all_linear.1 exact).2
    exact equal_linear.2 ⟨rfl, Keyed.forall₂_trans first second fun member within m r =>
      ih member within (inside member within)⟩

/-- `purc_variant_is_equal_to` is an equivalence relation on the trees that have no
floating-point leaf and no key twice in one object. -/
theorem purcVariantIsEqualTo_equivalence (rt : Runtime) :
    Equivalence fun v1 v2 : {variant : Variant // variant.NoFloat ∧ variant.UniqueKeys} =>
      purcVariantIsEqualTo rt (some v1.1) (some v2.1) = true where
  refl v := equal_refl v.2.1 v.2.2
  symm {v1 _} := equal_symm v1.2.1 v1.2.2
  trans {v1 _ _} := equal_trans v1.2.1

end Bpcp.Purc
