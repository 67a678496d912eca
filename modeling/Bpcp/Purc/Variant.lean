import Bpcp.Lib.CString
import Bpcp.Lib.FloatValue
import Bpcp.Lib.MachineInt

/-!
# Variants

The data of `struct purc_variant`: thirteen scalar types, and objects, arrays, sets and
tuples of variants. A variant carries the address it lives at, because comparisons of
variants begin by comparing pointers. The members of an object and of a set are listed in
the order in which the red-black tree walks them, those of an array or a tuple by index.

Strings and byte sequences share one union with three ways of storing bytes: inside the
variant, in extra space, or in a static buffer. `sz_ptr` is the view of that union which
the last two use, and which some functions take for granted.
-/

namespace Bpcp.Purc

open Bpcp.Lib

/-- `enum purc_variant_type`. -/
inductive VariantType where
  | undefined | null | boolean | exception | number | longint | ulongint | longdouble
  | atomstring | string | bsequence | dynamic | native | object | array | set | tuple
deriving DecidableEq

/-- The value of the enumerator. -/
def VariantType.toInt : VariantType → Int
  | undefined => 0
  | null => 1
  | boolean => 2
  | exception => 3
  | number => 4
  | longint => 5
  | ulongint => 6
  | longdouble => 7
  | atomstring => 8
  | string => 9
  | bsequence => 10
  | dynamic => 11
  | native => 12
  | object => 13
  | array => 14
  | set => 15
  | tuple => 16

/-- No two types have one number. -/
theorem VariantType.toInt_inj {left right : VariantType} :
    left.toInt = right.toInt ↔ left = right := by
  refine ⟨fun same => ?_, fun same => by rw [same]⟩
  cases left <;> cases right <;> first | rfl | exact absurd same (by decide)

/-- How a string or byte sequence stores its bytes. -/
inductive Storage where
  /-- In the sixteen bytes of the union, the first `size` of them in use. -/
  | inline (bytes : Vector UInt8 16) (size : Nat) (fits : size ≤ 16)
  /-- `PCVRNT_FLAG_EXTRA_SIZE`: `sz_ptr` holds the length and the pointer. -/
  | extra (content : List UInt8) (fits : content.length < 2 ^ 64)
  /-- `PCVRNT_FLAG_STRING_STATIC`: `sz_ptr` points to memory the variant does not own. -/
  | static (content : List UInt8) (fits : content.length < 2 ^ 64)
deriving DecidableEq

namespace Storage

/-- The stored bytes. -/
def content : Storage → List UInt8
  | inline bytes size _ => bytes.toList.take size
  | extra content _ => content
  | static content _ => content

/-- Whether the bytes are inside the variant. -/
def isInline : Storage → Bool
  | inline .. => true
  | _ => false

/-- The word `sz_ptr[0]`. For inline storage this is what the first eight bytes spell. -/
def szPtr0 : Storage → Nat
  | inline bytes _ _ => ofLeBytes (bytes.toList.take 8)
  | extra content _ => content.length
  | static content _ => content.length

/-- The memory that the word `sz_ptr[1]` points to. For inline storage the word is made of
content bytes and points to no memory of a variant, so no byte can be read through it. -/
def szPtr1 : Storage → List UInt8
  | inline _ _ _ => []
  | extra content _ => content
  | static content _ => content

/-- Bytes that are not inside the variant are what `sz_ptr` describes. -/
theorem szPtr_of_not_inline {storage : Storage} (outside : storage.isInline = false) :
    storage.szPtr0 = storage.content.length ∧ storage.szPtr1 = storage.content := by
  cases storage with
  | inline => simp [isInline] at outside
  | extra => exact ⟨rfl, rfl⟩
  | static => exact ⟨rfl, rfl⟩

end Storage

/-- A string value: the stored bytes are those of the text and its terminator. -/
structure StringValue where
  /-- Where the bytes are. -/
  storage : Storage
  /-- The text that `purc_variant_get_string_const` points to. -/
  text : CString
  /-- The stored length counts the terminator. -/
  terminated : storage.content = text.stored
deriving DecidableEq

/-- A string in extra space. -/
def StringValue.ofText (text : CString) (fits : text.stored.length < 2 ^ 64) : StringValue :=
  ⟨.extra text.stored fits, text, rfl⟩

/-- The value of a variant of one of the scalar types. -/
inductive Scalar where
  | undefined
  | null
  | boolean (b : Bool)
  | exception (atom : UInt32)
  | number (d : Double)
  | longint (i64 : Int64)
  | ulongint (u64 : UInt64)
  | longdouble (ld : LongDouble)
  | atomstring (atom : UInt32)
  | string (value : StringValue)
  | bsequence (storage : Storage)
  | dynamic (ptrPtr : UInt64 × UInt64)
  | native (ptrPtr : UInt64 × UInt64)
deriving DecidableEq

/-- The type of a scalar. -/
def Scalar.type : Scalar → VariantType
  | undefined => .undefined
  | null => .null
  | boolean _ => .boolean
  | exception _ => .exception
  | number _ => .number
  | longint _ => .longint
  | ulongint _ => .ulongint
  | longdouble _ => .longdouble
  | atomstring _ => .atomstring
  | string _ => .string
  | bsequence _ => .bsequence
  | dynamic _ => .dynamic
  | native _ => .native

/-- The containers that list members without keys. -/
inductive LinearKind where
  | array | set | tuple
deriving DecidableEq

/-- The type of a linear container. -/
def LinearKind.type : LinearKind → VariantType
  | array => .array
  | set => .set
  | tuple => .tuple

/-- `struct purc_variant` at an address. -/
inductive Variant where
  /-- A variant of a scalar type. -/
  | scalar (addr : Nat) (value : Scalar)
  /-- An object with its keys and values. -/
  | object (addr : Nat) (kvs : List (CString × Variant))
  /-- An array, a set or a tuple with its members. -/
  | linear (addr : Nat) (kind : LinearKind) (members : List Variant)

namespace Variant

/-- The pointer to the variant. -/
def addr : Variant → Nat
  | scalar addr _ => addr
  | object addr _ => addr
  | linear addr _ _ => addr

/-- The type of the variant. -/
def type : Variant → VariantType
  | scalar _ value => value.type
  | object _ _ => .object
  | linear _ kind _ => kind.type

/-- A variant with the type of a scalar is a scalar. -/
theorem of_type_scalar {variant : Variant} {value : Scalar} (types : value.type = variant.type) :
    ∃ addr other, variant = scalar addr other ∧ value.type = other.type := by
  cases variant with
  | scalar addr other => exact ⟨addr, other, rfl, types⟩
  | object => cases value <;> cases types
  | linear addr kind => cases value <;> cases kind <;> cases types

/-- A variant with the type of an object is an object. -/
theorem of_type_object {variant : Variant} (types : .object = variant.type) :
    ∃ addr kvs, variant = object addr kvs := by
  cases variant with
  | scalar addr value => cases value <;> cases types
  | object addr kvs => exact ⟨addr, kvs, rfl⟩
  | linear addr kind => cases kind <;> cases types

/-- A variant with the type of a linear container is a container of that kind. -/
theorem of_type_linear {variant : Variant} {kind : LinearKind} (types : kind.type = variant.type) :
    ∃ addr members, variant = linear addr kind members := by
  cases variant with
  | scalar addr value => cases kind <;> cases value <;> cases types
  | object => cases kind <;> cases types
  | linear addr other members =>
    cases kind <;> cases other <;> first | exact ⟨addr, members, rfl⟩ | cases types

/-- Induction over a variant, with the hypothesis for every member of a container. -/
@[induction_eliminator]
theorem induct {motive : Variant → Prop} (scalar : ∀ addr value, motive (.scalar addr value))
    (object : ∀ addr kvs, (∀ kv ∈ kvs, motive kv.2) → motive (.object addr kvs))
    (linear : ∀ addr kind members, (∀ member ∈ members, motive member) →
      motive (.linear addr kind members)) (variant : Variant) : motive variant :=
  @Variant.rec motive (fun kvs => ∀ kv ∈ kvs, motive kv.2)
    (fun members => ∀ member ∈ members, motive member)
    (fun kv => motive kv.2) scalar object linear (by simp)
    (fun _ _ head tail => List.forall_mem_cons.2 ⟨head, tail⟩) (by simp)
    (fun _ _ head tail => List.forall_mem_cons.2 ⟨head, tail⟩) (fun _ _ value => value) variant

/-- A property of every variant in a tree: of the variant itself and of everything in it. -/
inductive All (property : Variant → Prop) : Variant → Prop
  | scalar {addr value} : property (.scalar addr value) → All property (.scalar addr value)
  | object {addr kvs} : property (.object addr kvs) → (∀ kv ∈ kvs, All property kv.2) →
    All property (.object addr kvs)
  | linear {addr kind members} : property (.linear addr kind members) →
    (∀ member ∈ members, All property member) → All property (.linear addr kind members)

/-- A scalar has nothing in it. -/
@[simp] theorem all_scalar {property : Variant → Prop} {addr : Nat} {value : Scalar} :
    All property (.scalar addr value) ↔ property (.scalar addr value) :=
  ⟨fun | .scalar holds => holds, .scalar⟩

/-- An object has its values in it. -/
@[simp] theorem all_object {property : Variant → Prop} {addr : Nat}
    {kvs : List (CString × Variant)} :
    All property (.object addr kvs) ↔
      property (.object addr kvs) ∧ ∀ kv ∈ kvs, All property kv.2 :=
  ⟨fun | .object holds inside => ⟨holds, inside⟩, fun ⟨holds, inside⟩ => .object holds inside⟩

/-- A linear container has its members in it. -/
@[simp] theorem all_linear {property : Variant → Prop} {addr : Nat} {kind : LinearKind}
    {members : List Variant} :
    All property (.linear addr kind members) ↔
      property (.linear addr kind members) ∧ ∀ member ∈ members, All property member :=
  ⟨fun | .linear holds inside => ⟨holds, inside⟩, fun ⟨holds, inside⟩ => .linear holds inside⟩

/-- The variant itself has the property. -/
theorem All.here {property : Variant → Prop} {variant : Variant} (all : All property variant) :
    property variant := by
  cases all <;> assumption

/-- The keys of the variant, if it is an object. -/
def keys : Variant → List CString
  | object _ kvs => kvs.map Prod.fst
  | _ => []

/-- No object in the tree holds a key twice. -/
def UniqueKeys (variant : Variant) : Prop := variant.All fun node => node.keys.Nodup

/-- Every object in the tree is walked in the `strcmp` order of its keys. -/
def SortedKeys (variant : Variant) : Prop :=
  variant.All fun node => node.keys.Pairwise fun key later => strcmp key later < 0

/-- The tree is made of the variants that a memory holds at their addresses. -/
def LivesIn (memory : Nat → Variant) (variant : Variant) : Prop :=
  variant.All fun node => memory node.addr = node

/-- Variants of one memory at one address are the same. -/
theorem LivesIn.same {memory : Nat → Variant} {left right : Variant}
    (livesL : left.LivesIn memory) (livesR : right.LivesIn memory)
    (pointer : left.addr = right.addr) : left = right := by
  rw [← livesL.here, ← livesR.here, pointer]

/-- Scalars of one memory at one address have the same value. -/
theorem LivesIn.same_scalar {memory : Nat → Variant} {addr : Nat} {left right : Scalar}
    (livesL : (scalar addr left).LivesIn memory) (livesR : (scalar addr right).LivesIn memory) :
    left = right := by
  simpa using livesL.same livesR rfl

end Variant

/-- A memory stream: the buffer it was made for, and the position of the next write. -/
structure MemStream where
  /-- The bytes of the buffer. -/
  buffer : List UInt8
  /-- The position. -/
  here : Nat
deriving DecidableEq

/-- Writing what still fits: the number of bytes stored, or -1 for a full buffer. -/
def MemStream.store (stream : MemStream) (bytes : List UInt8) : Int × MemStream :=
  let count := min bytes.length (stream.buffer.length - stream.here)
  if count = 0 then (-1, stream)
  else (count, ⟨stream.buffer.take stream.here ++ bytes.take count ++
    stream.buffer.drop (stream.here + count), stream.here + count⟩)

/-- The functions and values from outside the repository that the variant module uses. -/
structure Runtime where
  /-- `purc_atom_to_string`. -/
  purcAtomToString : UInt32 → CString
  /-- `pcutils_strncasecmp`. -/
  pcutilsStrncasecmp : List UInt8 → List UInt8 → Nat → Int
  /-- `printf` of a double with `%g`. -/
  printNumber : Double → CString
  /-- `printf` of a long double with `%Lg`. -/
  printLongdouble : LongDouble → CString
  /-- `printf` of a pointer with `%p`. -/
  printPointer : UInt64 → CString
  /-- `pcutils_parse_int32`, with the value it stores when it returns zero. -/
  pcutilsParseInt32 : List UInt8 → Option IntType.int32.Value
  /-- `pcutils_parse_uint32`. -/
  pcutilsParseUint32 : List UInt8 → Option IntType.uint32.Value
  /-- `pcutils_parse_int64`. -/
  pcutilsParseInt64 : List UInt8 → Option IntType.int64.Value
  /-- `pcutils_parse_uint64`. -/
  pcutilsParseUint64 : List UInt8 → Option IntType.uint64.Value
  /-- `pcutils_parse_long_double`. -/
  pcutilsParseLongDouble : List UInt8 → Option FloatValue
  /-- The number of what the getter of a dynamic variant returns, zero without a getter. -/
  dynamicNumber : UInt64 × UInt64 → FloatValue
  /-- The number of the property `__number` of a native entity, zero without it. -/
  nativeNumber : UInt64 × UInt64 → FloatValue
  /-- The digest of a text in uppercase hexadecimal: `pcutils_md5_begin`, `pcutils_md5_hash`,
  `pcutils_md5_end` and `pcutils_bin2hex`. -/
  pcutilsMd5 : List UInt8 → CString
  /-- `pcvar_parallel_walk`: what the last call of the callback left in `diff`. -/
  pcvarParallelWalk : (Option Variant → Option Variant → Option Int) → Variant → Variant →
    Option Int
  /-- The address of `v_undefined` in the heap of the instance. -/
  vUndefined : Nat
  /-- `purc_rwstream_write` to a memory stream. -/
  memWrite : MemStream → List UInt8 → Int × MemStream
  /-- `purc_rwstream_write` to a growing buffer. -/
  bufferWrite : List UInt8 → List UInt8 → Int × List UInt8
  /-- The bytes of memory that C leaves indeterminate. -/
  indeterminate : Nat → UInt8

namespace Runtime

/-- The variant that `purc_variant_make_undefined` returns. -/
def undefined (rt : Runtime) : Variant := .scalar rt.vUndefined .undefined

/-- `pcutils_strcasecmp`: the common length without regard to case, then the lengths. -/
def pcutilsStrcasecmp (rt : Runtime) (left right : CString) : Int :=
  let diff := rt.pcutilsStrncasecmp left.bytes right.bytes (min left.strlen right.strlen)
  if diff ≠ 0 then diff
  else if left.strlen = right.strlen then 0
  else if left.strlen < right.strlen then -1 else 1

/-- A memory stream stores as many of the offered bytes as still fit. -/
def StoresWhatFits (rt : Runtime) : Prop :=
  ∀ stream bytes, bytes ≠ [] → stream.here ≤ stream.buffer.length →
    rt.memWrite stream bytes = stream.store bytes

/-- The parallel walk of two scalars calls back once, on the scalars. -/
def WalksScalars (rt : Runtime) : Prop :=
  ∀ callback addrL l addrR r, rt.pcvarParallelWalk callback (.scalar addrL l) (.scalar addrR r) =
    callback (some (.scalar addrL l)) (some (.scalar addrR r))

/-- A runtime to evaluate the model in: the C locale, no atoms, no getters, parsers that
accept nothing, digests that are the text, streams that store what fits, and a parallel walk
that calls back once. -/
def plain : Runtime where
  purcAtomToString _ := .lit ""
  pcutilsStrncasecmp := strncasecmp
  printNumber _ := .lit ""
  printLongdouble _ := .lit ""
  printPointer _ := .lit ""
  pcutilsParseInt32 _ := none
  pcutilsParseUint32 _ := none
  pcutilsParseInt64 _ := none
  pcutilsParseUint64 _ := none
  pcutilsParseLongDouble _ := none
  dynamicNumber _ := .finite 0
  nativeNumber _ := .finite 0
  pcutilsMd5 := .ofBytes
  pcvarParallelWalk callback l r := callback (some l) (some r)
  vUndefined := 0
  memWrite := MemStream.store
  bufferWrite content bytes := (bytes.length, content ++ bytes)
  indeterminate _ := 0

/-- The plain memory stream stores what fits. -/
theorem plain_storesWhatFits : plain.StoresWhatFits := fun _ _ _ _ => rfl

/-- The plain parallel walk calls back once. -/
theorem plain_walksScalars : plain.WalksScalars := fun _ _ _ _ _ => rfl

/-- In the C locale `pcutils_strcasecmp` is the lexicographic order of the lower-case bytes. -/
theorem plain_strcasecmp (left right : CString) :
    outcome (plain.pcutilsStrcasecmp left right) =
      List.compareLex compare (left.bytes.map toLower) (right.bytes.map toLower) := by
  have lengths := compareLex_min compare (left.bytes.map toLower) (right.bytes.map toLower)
  rw [List.length_map, List.length_map] at lengths
  rw [lengths, pcutilsStrcasecmp, outcome_first, outcome_threeWay]
  exact congrArg (Ordering.then · _) (strncasecmp_outcome left right _)

/-- In the C locale `pcutils_strcasecmp` orders strings consistently. -/
theorem plain_strcasecmp_consistent : Consistent plain.pcutilsStrcasecmp where
  eq_swap {left right} := by
    rw [plain_strcasecmp, plain_strcasecmp]
    exact Std.OrientedCmp.eq_swap
  isLE_trans {first second third} lower upper := by
    rw [plain_strcasecmp] at *
    exact Std.TransCmp.isLE_trans lower upper

end Runtime

end Bpcp.Purc
