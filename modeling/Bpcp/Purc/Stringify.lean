import Bpcp.Purc.Variant
import Bpcp.Lib.Decimal

/-!
# Stringification

`variant_stringify` walks a variant and hands pieces of text to a callback, each as a
pointer and a length, where a zero length stands for a terminated string. The callback of
`purc_variant_stringify` writes the pieces to a stream until a write fails, and counts
them all. Texts that are short enough are stringified into a buffer on the stack.
-/

namespace Bpcp.Purc

open Bpcp.Lib

/-- The flags of `purc_variant_stringify`. -/
structure StringifyFlags where
  /-- `PCVRNT_STRINGIFY_OPT_IGNORE_ERRORS`. -/
  ignoreErrors : Bool
  /-- `PCVRNT_STRINGIFY_OPT_BSEQUENCE_BAREBYTES`. -/
  bsequenceBarebytes : Bool
  /-- `PCVRNT_STRINGIFY_OPT_REAL_BAREBYTES`. -/
  realBarebytes : Bool

/-- The flags with the value zero. -/
def StringifyFlags.none : StringifyFlags := ⟨false, false, false⟩

/-- A call of the callback: the memory that `src` points to, and `len`. -/
structure Emit where
  /-- The memory from the pointer on. -/
  src : List UInt8
  /-- The length, or zero for a terminated string. -/
  len : Nat
deriving DecidableEq

/-- The bytes that the callback is given. -/
def Emit.bytes (emit : Emit) : List UInt8 :=
  if emit.len = 0 then emit.src.takeWhile (· ≠ 0) else emit.src.take emit.len

/-- The bytes of a list of calls. -/
def emitted (emits : List Emit) : List UInt8 := emits.flatMap Emit.bytes

/-- A call with a terminated string and no length. -/
def emitText (text : CString) : Emit := ⟨text.stored, 0⟩

/-- A call with a string and its length. -/
def emitSized (text : CString) : Emit := ⟨text.stored, text.strlen⟩

/-- What `snprintf` leaves in a buffer of a size. -/
def snprintf (size : Nat) (text : List UInt8) : List UInt8 := text.take (size - 1) ++ [0]

/-- A call with the stack buffer `char buf[128]` after `snprintf`. -/
def emitPrinted (text : List UInt8) : Emit := ⟨snprintf 128 text, 0⟩

/-- The text of `<dynamic: %p, %p>`. -/
def dynamicText (rt : Runtime) (ptrPtr : UInt64 × UInt64) : List UInt8 :=
  (CString.lit "<dynamic: ").bytes ++ (rt.printPointer ptrPtr.1).bytes ++
    (CString.lit ", ").bytes ++ (rt.printPointer ptrPtr.2).bytes ++ (CString.lit ">").bytes

/-- The text of `<native: %p>`. -/
def nativeText (rt : Runtime) (ptrPtr : UInt64 × UInt64) : List UInt8 :=
  (CString.lit "<native: ").bytes ++ (rt.printPointer ptrPtr.1).bytes ++ (CString.lit ">").bytes

/-- The characters of `stringify_bs`. -/
def hexChar (digit : UInt8) : UInt8 := if digit < 10 then 48 + digit else 55 + digit

/-- The loop of `stringify_bs`: two digits for a byte go to the buffer, whose characters so
far are given, and a full buffer is handed on. -/
def stringifyBsLoop : List UInt8 → List UInt8 → List Emit
  | [], buffer => if buffer = [] then [] else [⟨buffer ++ [0], 0⟩]
  | byte :: rest, buffer =>
    let buffer := buffer ++ [hexChar (byte >>> 4), hexChar (byte &&& 0x0F)]
    if buffer.length = 512 then ⟨buffer ++ [0], 0⟩ :: stringifyBsLoop rest []
    else stringifyBsLoop rest buffer

/-- `stringify_bs`. -/
def stringifyBs (bs : List UInt8) : List Emit := stringifyBsLoop bs []

/-- The memory that a byte sequence starts in. -/
def Storage.memory : Storage → List UInt8
  | inline bytes _ _ => bytes.toList
  | extra content _ => content
  | static content _ => content

/-- The sixteen bytes of a long double in the union: ten of the number and padding. -/
def longDoubleBytes (rt : Runtime) (ld : LongDouble) : List UInt8 :=
  leBytes 8 ld.significand.toNat ++ leBytes 2 ld.signExponent.toNat ++
    (List.range 6).map rt.indeterminate

/-- The cases of `variant_stringify` for the scalar types. -/
def stringifyScalar (rt : Runtime) (flags : StringifyFlags) : Scalar → List Emit
  | .undefined => [emitText (.lit "undefined")]
  | .null => [emitText (.lit "null")]
  | .boolean b => [emitText (if b then .lit "true" else .lit "false")]
  | .number d =>
    if flags.realBarebytes then [⟨leBytes 8 d.bits.toNat, 8⟩]
    else [emitPrinted (rt.printNumber d).bytes]
  | .longint i64 =>
    if flags.realBarebytes then [⟨leBytes 8 i64.toUInt64.toNat, 8⟩]
    else [emitPrinted (decimalInt i64.toInt)]
  | .ulongint u64 =>
    if flags.realBarebytes then [⟨leBytes 8 u64.toNat, 8⟩]
    else [emitPrinted (decimalInt u64.toNat)]
  | .longdouble ld =>
    if flags.realBarebytes then [⟨longDoubleBytes rt ld, 16⟩]
    else [emitPrinted (rt.printLongdouble ld).bytes]
  | .exception atom => [emitSized (rt.purcAtomToString atom)]
  | .atomstring atom => [emitSized (rt.purcAtomToString atom)]
  | .string value => [emitSized value.text]
  | .bsequence storage =>
    if flags.bsequenceBarebytes then [⟨storage.memory, storage.content.length⟩]
    else stringifyBs storage.content
  | .dynamic ptrPtr => [emitPrinted (dynamicText rt ptrPtr)]
  | .native ptrPtr => [emitPrinted (nativeText rt ptrPtr)]

/-- `stringify_kv` around what the value emits. -/
def stringifyKv (key : CString) (value : List Emit) : List Emit :=
  emitSized key :: emitText (.lit ":") :: (value ++ [emitText (.lit "\n")])

mutual

/-- `variant_stringify`. -/
def variantStringify (rt : Runtime) (flags : StringifyFlags) : Variant → List Emit
  | .scalar _ value => stringifyScalar rt flags value
  | .object _ kvs => stringifyObject rt flags kvs
  | .linear _ _ members => stringifyMembers rt flags members

/-- `stringify_object`. -/
def stringifyObject (rt : Runtime) (flags : StringifyFlags) :
    List (CString × Variant) → List Emit
  | [] => []
  | (key, value) :: rest =>
    stringifyKv key (variantStringify rt flags value) ++ stringifyObject rt flags rest

/-- `stringify_array`, `stringify_set` and `stringify_tuple`, which differ in how they walk. -/
def stringifyMembers (rt : Runtime) (flags : StringifyFlags) : List Variant → List Emit
  | [] => []
  | member :: rest =>
    variantStringify rt flags member ++ emitText (.lit "\n") :: stringifyMembers rt flags rest

end

/-! ## Streams -/

/-- `struct stringify_stream`, and whether an assertion of the callback has failed. -/
structure StringifyStream (σ : Type) where
  /-- The stream, which may be `NULL`. -/
  stream : Option σ
  /-- The bytes written. -/
  written : Nat
  /-- The bytes of all pieces. -/
  accu : Nat
  /-- Whether a write has failed. -/
  err : Bool
  /-- Whether a write was short, which the callback asserts not to happen. -/
  short : Bool

/-- `do_stringify_stream`. -/
def doStringifyStream {σ : Type} (write : σ → List UInt8 → Int × σ) (ud : StringifyStream σ)
    (emit : Emit) : StringifyStream σ :=
  let bytes := emit.bytes
  match ud.stream with
  | none => { ud with accu := ud.accu + bytes.length }
  | some stream =>
    if ud.err ∨ bytes = [] then { ud with accu := ud.accu + bytes.length }
    else
      let (sz, stream) := write stream bytes
      if sz = -1 then
        { ud with stream := some stream, err := true, accu := ud.accu + bytes.length }
      else
        { ud with
          stream := some stream
          written := ud.written + sz.toNat
          accu := ud.accu + bytes.length
          short := ud.short ∨ sz ≠ bytes.length }

/-- What `purc_variant_stringify` returns and leaves behind. -/
structure StringifyResult (σ : Type) where
  /-- The return value. -/
  ret : Int
  /-- What is stored in `len_expected`. -/
  lenExpected : Nat
  /-- The stream after all writes. -/
  stream : Option σ
  /-- Whether an assertion failed. -/
  asserted : Bool

/-- `purc_variant_stringify`. -/
def purcVariantStringify {σ : Type} (rt : Runtime) (write : σ → List UInt8 → Int × σ)
    (stream : Option σ) (value : Option Variant) (flags : StringifyFlags) : StringifyResult σ :=
  match value with
  | none => ⟨-1, 0, stream, false⟩
  | some value =>
    let ud := (variantStringify rt flags value).foldl (doStringifyStream write)
      ⟨stream, 0, 0, false, false⟩
    let ret : Int := if ud.err ∧ ¬flags.ignoreErrors then -1 else ud.written
    ⟨ret, ud.accu, ud.stream, ud.err ∨ ud.short⟩

/-- `purc_variant_stringify_buff`: the return value and the buffer, or nothing when an
assertion fails. -/
def purcVariantStringifyBuff (rt : Runtime) (buf : List UInt8) (value : Option Variant) :
    Option (Int × List UInt8) :=
  let result := purcVariantStringify rt rt.memWrite (some ⟨buf, 0⟩) value .none
  let content := (result.stream.map MemStream.buffer).getD buf
  if buf = [] ∨ result.asserted then none
  else if result.ret = -1 then some (-1, content)
  else if result.ret < buf.length then some (result.ret, content.set result.ret.toNat 0)
  else none

/-- `purc_variant_stringify_alloc`: the return value and the allocated text, or nothing when an
assertion fails. -/
def purcVariantStringifyAlloc (rt : Runtime) (value : Option Variant) :
    Option (Int × CString) :=
  let result := purcVariantStringify rt rt.bufferWrite (some []) value .none
  if result.asserted then none else some (result.ret, .ofBytes (result.stream.getD []))

/-! ## Pieces of text -/

/-- A terminated string is handed on without its terminator. -/
@[simp] theorem emitText_bytes (text : CString) : (emitText text).bytes = text.bytes :=
  text.takeWhile_terminated []

/-- A string with its length is handed on as it is. -/
@[simp] theorem emitSized_bytes (text : CString) : (emitSized text).bytes = text.bytes := by
  rw [emitSized, Emit.bytes]
  split
  · exact text.takeWhile_terminated []
  · simp [CString.stored, CString.strlen]

/-- A printed text that fits the stack buffer is handed on as it is. -/
theorem emitPrinted_bytes {text : List UInt8} (noNul : (0 : UInt8) ∉ text)
    (short : text.length ≤ 127) : (emitPrinted text).bytes = text := by
  simp only [emitPrinted, Emit.bytes, snprintf, if_true, List.take_of_length_le short]
  exact CString.takeWhile_terminated ⟨text, noNul⟩ []

/-- Pieces are handed on one after the other. -/
@[simp] theorem emitted_cons (emit : Emit) (emits : List Emit) :
    emitted (emit :: emits) = emit.bytes ++ emitted emits := by
  simp [emitted]

/-- Nothing is handed on without a call. -/
@[simp] theorem emitted_nil : emitted [] = [] := rfl

/-- Pieces of two lists are handed on one list after the other. -/
@[simp] theorem emitted_append (first second : List Emit) :
    emitted (first ++ second) = emitted first ++ emitted second := List.flatMap_append

/-- A printed integer that fits the stack buffer is handed on in decimal. -/
theorem emitted_decimal {n : ℤ} (short : (decimalInt n).length < 128) :
    emitted [emitPrinted (decimalInt n)] = (CString.decimal n).bytes := by
  rw [emitted_cons, emitted_nil, List.append_nil]
  exact emitPrinted_bytes (decimalInt_noNul n) (Nat.le_of_lt_succ short)

/-! ## Texts that fit -/

variable {rt : Runtime}

/-- A piece that fits the room behind what is stored is stored there. -/
theorem MemStream.store_fits {stored room bytes : List UInt8} (nonempty : bytes ≠ [])
    (fits : bytes.length ≤ room.length) :
    MemStream.store ⟨stored ++ room, stored.length⟩ bytes = ((bytes.length : Int),
      ⟨stored ++ bytes ++ room.drop bytes.length, (stored ++ bytes).length⟩) := by
  have positive := List.length_pos_of_ne_nil nonempty
  have whole : min bytes.length (stored.length + room.length - stored.length) = bytes.length := by
    omega
  simp only [MemStream.store, List.length_append, whole, if_neg positive.ne', List.take_length,
    List.take_left, List.drop_length_add_append]

/-- A piece that fits is written and counted. -/
theorem doStringifyStream_fits (stores : rt.StoresWhatFits) {stored room : List UInt8}
    {emit : Emit} (written accu : Nat) (fits : emit.bytes.length ≤ room.length) :
    doStringifyStream rt.memWrite
        ⟨some ⟨stored ++ room, stored.length⟩, written, accu, false, false⟩ emit =
      ⟨some ⟨stored ++ emit.bytes ++ room.drop emit.bytes.length, (stored ++ emit.bytes).length⟩,
        written + emit.bytes.length, accu + emit.bytes.length, false, false⟩ := by
  by_cases empty : emit.bytes = []
  · simp [doStringifyStream, empty]
  · have write := (stores ⟨stored ++ room, stored.length⟩ emit.bytes empty (by simp)).trans
      (MemStream.store_fits empty fits)
    have success : (emit.bytes.length : Int) ≠ -1 := by omega
    simp [doStringifyStream, empty, write, success]

/-- Pieces that fit are all written and counted, one after the other. -/
theorem stringifyStream_fits (stores : rt.StoresWhatFits) (emits : List Emit)
    (stored room : List UInt8) (written accu : Nat)
    (fits : (emitted emits).length ≤ room.length) :
    emits.foldl (doStringifyStream rt.memWrite)
        ⟨some ⟨stored ++ room, stored.length⟩, written, accu, false, false⟩ =
      ⟨some ⟨stored ++ emitted emits ++ room.drop (emitted emits).length,
          (stored ++ emitted emits).length⟩,
        written + (emitted emits).length, accu + (emitted emits).length, false, false⟩ := by
  induction emits generalizing stored room written accu with
  | nil => simp
  | cons emit rest ih =>
    rw [emitted_cons, List.length_append] at fits
    rw [List.foldl_cons, doStringifyStream_fits stores written accu (by omega),
      ih (stored ++ emit.bytes) (room.drop emit.bytes.length) _ _ (by simp; omega)]
    simp [Nat.add_assoc]

/-- A text shorter than the buffer is stringified into it and terminated. -/
theorem purcVariantStringifyBuff_fits (stores : rt.StoresWhatFits) {buf text : List UInt8}
    {value : Variant} (stringified : emitted (variantStringify rt .none value) = text)
    (fits : text.length < buf.length) :
    purcVariantStringifyBuff rt buf (some value) =
      some ((text.length : Int), text ++ 0 :: buf.drop (text.length + 1)) := by
  have run := stringifyStream_fits stores (variantStringify rt .none value) [] buf 0 0
    (stringified ▸ fits.le)
  rw [stringified, List.nil_append, List.length_nil, Nat.zero_add, List.nil_append] at run
  have nonempty : buf ≠ [] := List.ne_nil_of_length_pos (by omega)
  have success : (text.length : Int) ≠ -1 := by omega
  have terminated : (text ++ buf.drop text.length).set text.length 0 =
      text ++ 0 :: buf.drop (text.length + 1) := by
    rw [List.set_append_right _ _ le_rfl, Nat.sub_self, List.drop_eq_getElem_cons fits]
    rfl
  simp [purcVariantStringifyBuff, purcVariantStringify, run, nonempty, success, fits, terminated]

end Bpcp.Purc
