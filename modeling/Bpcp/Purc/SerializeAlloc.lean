import Bpcp.Purc.Variant

/-!
# Serializing to a buffer or to a new block

`pcvariant_serialize_alloc` serializes a variant to the buffer of its caller and, should that be
too small, to a block of its own. But `pcvariant_serialize` asserts that everything could be
written, so a buffer that is too small fails an assertion before the block is allocated. The block
is only used when the text and its NUL fill the buffer exactly. The length is kept in an `int`, so
that another assertion fails, also before the block, when it is too great for its sign.
-/

namespace Bpcp.Purc

open Bpcp.Lib

/-- `purc_variant_serialize` of a variant to a stream, with `len_expected` set to 0 before: the
return value, `len_expected` and the stream. -/
abbrev Serializer := MemStream → ℤ × ℕ × MemStream

/-- The serialized data is written as a whole, or else -1 is returned. -/
structure Serializes (serialize : Serializer) (text : List UInt8) : Prop where
  /-- The data fits into the stream. -/
  fits : ∀ stream, stream.here + text.length ≤ stream.buffer.length →
    serialize stream = ((text.length : ℤ), text.length, (stream.store text).2)
  /-- The data does not fit. -/
  fails : ∀ stream, stream.here ≤ stream.buffer.length →
    stream.buffer.length < stream.here + text.length → (serialize stream).1 = -1
  /-- There is data. -/
  nonempty : text ≠ []

/-- `pcvariant_serialize`: the return value and the buffer, or nothing when an assertion fails. -/
def pcvariantSerialize (rt : Runtime) (serialize : Serializer) (buf : List UInt8) :
    Option (ℕ × List UInt8) :=
  let serialized := serialize ⟨buf, 0⟩
  if serialized.1 > 0 then
    let written := rt.memWrite serialized.2.2 [0]
    if written.1 > 0 then some (serialized.2.1 + 1, written.2.buffer) else none
  else none

/-- What `pcvariant_serialize_alloc` returns: the buffer, or a block. -/
inductive SerializedText where
  /-- `buf`. -/
  | inBuf (content : List UInt8)
  /-- `p`. -/
  | inBlock (content : List UInt8)
deriving DecidableEq

/-- The bytes that are returned. -/
def SerializedText.content : SerializedText → List UInt8
  | .inBuf content => content
  | .inBlock content => content

/-- A block is returned. -/
def SerializedText.isBlock : SerializedText → Bool
  | .inBuf _ => false
  | .inBlock _ => true

/-- The number that `pcvariant_serialize_alloc` stores in an `int`. -/
def serializedLength (ret : ℕ) : ℤ := (IntType.int32.wrap ret).1

/-- Where `pcvariant_serialize_alloc` stops. -/
inductive SerializeStop where
  /-- An assertion fails before a block is asked for. -/
  | before
  /-- The size of the block, a sum of type `int`, overflows. -/
  | overflow
  /-- There is no memory for the block, and the assertion that there is fails. -/
  | noMemory
  /-- An assertion fails behind the allocation. -/
  | behind
deriving DecidableEq

/-- A block is allocated and the variant serialized to it. -/
def serializeBlock (rt : Runtime) (serialize : Serializer) (malloc : Bool) (r : ℕ) :
    Except SerializeStop SerializedText :=
  if 2 ^ 31 ≤ r + 1 then .error .overflow
  else if malloc then
    match pcvariantSerialize rt serialize ((List.range (r + 1)).map rt.indeterminate) with
    | none => .error .behind
    | some (ret, block) =>
      if serializedLength ret > 0 then .ok (.inBlock block) else .error .behind
  else .error .noMemory

/-- `pcvariant_serialize_alloc`, with what `malloc` does if it is called. -/
def pcvariantSerializeAlloc (rt : Runtime) (serialize : Serializer) (malloc : Bool)
    (buf : List UInt8) : Except SerializeStop SerializedText :=
  match pcvariantSerialize rt serialize buf with
  | none => .error .before
  | some (ret, content) =>
    let r := serializedLength ret
    if r > 0 then
      if r.toNat < buf.length then .ok (.inBuf content)
      else serializeBlock rt serialize malloc r.toNat
    else .error .before

variable {rt : Runtime} {serialize : Serializer} {text buf : List UInt8}

/-- What is stored at the start of a buffer. -/
theorem store_start (nonempty : text ≠ []) (fits : text.length ≤ buf.length) :
    (MemStream.mk buf 0).store text =
      ((text.length : ℤ), ⟨text ++ buf.drop text.length, text.length⟩) := by
  have positive : text.length ≠ 0 := fun zero => nonempty (List.eq_nil_of_length_eq_zero zero)
  have count : min text.length (buf.length - 0) = text.length := Nat.min_eq_left fits
  rw [MemStream.store]
  dsimp only
  rw [count, if_neg positive, List.take_zero, List.nil_append, List.take_length, zero_add]

/-- The NUL is stored behind the text when there is a byte left. -/
theorem store_nul (fits : text.length < buf.length) :
    (MemStream.mk (text ++ buf.drop text.length) text.length).store [0] =
      (1, ⟨text ++ 0 :: buf.drop (text.length + 1), text.length + 1⟩) := by
  have length : (text ++ buf.drop text.length).length = buf.length := by
    rw [List.length_append, List.length_drop]
    omega
  have count : min [(0 : UInt8)].length (buf.length - text.length) = 1 := by
    rw [List.length_singleton]
    omega
  rw [MemStream.store]
  dsimp only
  rw [length, count, if_neg Nat.one_ne_zero, List.take_left, List.append_assoc,
    ← List.drop_drop, List.drop_left]
  simp

/-- The NUL finds no place in a full buffer. -/
theorem store_full : (MemStream.mk text text.length).store [0] = (-1, ⟨text, text.length⟩) := by
  simp [MemStream.store]

/-- A variant is serialized exactly when its text is shorter than the buffer. -/
theorem pcvariantSerialize_eq (stores : rt.StoresWhatFits) (serializes : Serializes serialize text)
    (buf : List UInt8) :
    pcvariantSerialize rt serialize buf =
      if text.length < buf.length then
        some (text.length + 1, text ++ 0 :: buf.drop (text.length + 1))
      else none := by
  have positive : (text.length : ℤ) > 0 :=
    Int.natCast_pos.mpr (List.length_pos_of_ne_nil serializes.nonempty)
  unfold pcvariantSerialize
  by_cases fits : text.length ≤ buf.length
  · rw [serializes.fits ⟨buf, 0⟩ (by simpa using fits), store_start serializes.nonempty fits]
    dsimp only
    rw [if_pos positive]
    by_cases short : text.length < buf.length
    · rw [stores _ _ (List.cons_ne_nil _ _) (by simp), store_nul short, if_pos short]
      rfl
    · have full : buf.drop text.length = [] := List.drop_eq_nil_of_le (not_lt.mp short)
      rw [full, List.append_nil, stores _ _ (List.cons_ne_nil _ _) le_rfl, store_full,
        if_neg short]
      rfl
  · have failed := serializes.fails ⟨buf, 0⟩ (Nat.zero_le _) (by simpa using fits)
    dsimp only
    rw [failed, if_neg (by decide), if_neg fun short => fits short.le]

/-- Small numbers are stored as they are. -/
theorem serializedLength_eq {ret : ℕ} (small : ret < 2 ^ 31) : serializedLength ret = ret := by
  apply IntType.wrap_val
  have least : IntType.int32.least = -2 ^ 31 := rfl
  have greatest : IntType.int32.greatest = 2 ^ 31 - 1 := by decide
  rw [IntType.Represents, least, greatest]
  omega

/-- Numbers that are greater than every `int` are not stored as they are. -/
theorem serializedLength_lt {ret : ℕ} (large : 2 ^ 31 ≤ ret) : serializedLength ret < ret := by
  have greatest : serializedLength ret ≤ 2 ^ 31 - 1 := (IntType.int32.wrap ret).2.2
  omega

/-- A block holds the text and its NUL. -/
theorem serializeBlock_eq (stores : rt.StoresWhatFits) (serializes : Serializes serialize text)
    {malloc : Bool} (small : text.length + 1 < 2 ^ 31) :
    serializeBlock rt serialize malloc (text.length + 1) =
      if 2 ^ 31 ≤ text.length + 2 then .error .overflow
      else if malloc then .ok (.inBlock (text ++ [0, rt.indeterminate (text.length + 1)]))
      else .error .noMemory := by
  have length : ((List.range (text.length + 2)).map rt.indeterminate).length = text.length + 2 := by
    rw [List.length_map, List.length_range]
  have last : ((List.range (text.length + 2)).map rt.indeterminate).drop (text.length + 1) =
      [rt.indeterminate (text.length + 1)] := by
    rw [List.range_succ, List.map_append, List.drop_left']
    · rfl
    · rw [List.length_map, List.length_range]
  have positive : serializedLength (text.length + 1) > 0 := by
    rw [serializedLength_eq small]
    omega
  unfold serializeBlock
  rw [pcvariantSerialize_eq stores serializes, length,
    if_pos (show text.length < text.length + 2 by omega), last]
  dsimp only
  rw [if_pos positive]

/-- What is done when the text is shorter than the buffer. -/
theorem pcvariantSerializeAlloc_fits (stores : rt.StoresWhatFits)
    (serializes : Serializes serialize text) (malloc : Bool) (fits : text.length < buf.length) :
    pcvariantSerializeAlloc rt serialize malloc buf =
      if serializedLength (text.length + 1) ≤ 0 then .error .before
      else if serializedLength (text.length + 1) < buf.length then
        .ok (.inBuf (text ++ 0 :: buf.drop (text.length + 1)))
      else serializeBlock rt serialize malloc (text.length + 1) := by
  rw [pcvariantSerializeAlloc, pcvariantSerialize_eq stores serializes, if_pos fits]
  dsimp only
  by_cases positive : serializedLength (text.length + 1) > 0
  · rw [if_pos positive, if_neg (not_le.mpr positive)]
    by_cases room : serializedLength (text.length + 1) < buf.length
    · rw [if_pos (by omega), if_pos room]
    · rw [if_neg (by omega), if_neg room]
      -- Where the block is used, the length is stored as it is.
      by_cases small : text.length + 1 < 2 ^ 31
      · rw [serializedLength_eq small, Int.toNat_natCast]
      · have below := serializedLength_lt (not_lt.mp small)
        omega
  · rw [if_neg positive, if_pos (not_lt.mp positive)]

/-- When the block is used, the text and its NUL fill the buffer. -/
theorem full_of_not_lt (fits : text.length < buf.length)
    (full : ¬serializedLength (text.length + 1) < buf.length) :
    text.length + 1 < 2 ^ 31 ∧ text.length + 1 = buf.length := by
  by_cases small : text.length + 1 < 2 ^ 31
  · rw [serializedLength_eq small] at full
    omega
  · have below := serializedLength_lt (not_lt.mp small)
    omega

/-- What `pcvariant_serialize_alloc` does with every buffer. An assertion fails before a block is
asked for exactly when the text and its NUL do not fit into the buffer or their length, as an
`int`, is not positive. Otherwise the buffer is returned when that length is smaller than its own,
as it is whenever a byte of it is left. A block is only asked for when the text and its NUL fill
the buffer, and no assertion fails behind that. Whatever is returned holds the text and its
NUL. -/
theorem pcvariantSerializeAlloc_never_grows (stores : rt.StoresWhatFits)
    (serializes : Serializes serialize text) (malloc : Bool) (buf : List UInt8) :
    (pcvariantSerializeAlloc rt serialize malloc buf =
      if buf.length ≤ text.length ∨ serializedLength (text.length + 1) ≤ 0 then .error .before
      else if serializedLength (text.length + 1) < buf.length then
        .ok (.inBuf (text ++ 0 :: buf.drop (text.length + 1)))
      else if 2 ^ 31 ≤ text.length + 2 then .error .overflow
      else if malloc then .ok (.inBlock (text ++ [0, rt.indeterminate (text.length + 1)]))
      else .error .noMemory) ∧
      (text.length + 1 < buf.length → serializedLength (text.length + 1) < buf.length) ∧
      (text.length < buf.length → ¬serializedLength (text.length + 1) < buf.length →
        text.length + 1 = buf.length) ∧
      ∀ result, pcvariantSerializeAlloc rt serialize malloc buf = .ok result →
        text ++ [0] <+: result.content := by
  have outcome : pcvariantSerializeAlloc rt serialize malloc buf =
      if buf.length ≤ text.length ∨ serializedLength (text.length + 1) ≤ 0 then .error .before
      else if serializedLength (text.length + 1) < buf.length then
        .ok (.inBuf (text ++ 0 :: buf.drop (text.length + 1)))
      else if 2 ^ 31 ≤ text.length + 2 then .error .overflow
      else if malloc then .ok (.inBlock (text ++ [0, rt.indeterminate (text.length + 1)]))
      else .error .noMemory := by
    by_cases fits : text.length < buf.length
    · rw [pcvariantSerializeAlloc_fits stores serializes malloc fits]
      by_cases positive : serializedLength (text.length + 1) ≤ 0
      · rw [if_pos positive, if_pos (.inr positive)]
      · rw [if_neg positive, if_neg (not_or.mpr ⟨not_le.mpr fits, positive⟩)]
        by_cases room : serializedLength (text.length + 1) < buf.length
        · rw [if_pos room, if_pos room]
        · rw [if_neg room, if_neg room,
            serializeBlock_eq stores serializes (full_of_not_lt fits room).1]
    · rw [pcvariantSerializeAlloc, pcvariantSerialize_eq stores serializes, if_neg fits,
        if_pos (.inl (not_lt.mp fits))]
  refine ⟨outcome, ?_, fun fits full => (full_of_not_lt fits full).2, ?_⟩
  · intro room
    by_contra full
    have filled := (full_of_not_lt (Nat.lt_of_succ_lt room) full).2
    omega
  · intro result returned
    rw [outcome] at returned
    split at returned
    · exact absurd returned nofun
    split at returned
    · rw [← Except.ok.inj returned]
      exact ⟨buf.drop (text.length + 1), by rw [List.append_assoc, List.singleton_append]; rfl⟩
    split at returned
    · exact absurd returned nofun
    split at returned
    · rw [← Except.ok.inj returned]
      exact ⟨[rt.indeterminate (text.length + 1)], by
        rw [List.append_assoc, List.singleton_append]; rfl⟩
    · exact absurd returned nofun

/-- A serializer that writes a text if it fits. -/
def serializeText (text : List UInt8) (stream : MemStream) : ℤ × ℕ × MemStream :=
  if stream.here + text.length ≤ stream.buffer.length then
    ((text.length : ℤ), text.length, (stream.store text).2)
  else (-1, 0, stream)

/-- It serializes the text. -/
theorem serializeText_serializes (nonempty : text ≠ []) :
    Serializes (serializeText text) text where
  fits := fun _ room => if_pos room
  fails := fun _ _ short => by rw [serializeText, if_neg (not_le.mpr short)]
  nonempty := nonempty

/-- The text `null` does not fit into four bytes, fills five bytes with its NUL, and leaves one of
six bytes. -/
theorem pcvariantSerializeAlloc_never_grows_null :
    pcvariantSerializeAlloc .plain (serializeText [110, 117, 108, 108]) true [1, 1, 1, 1] =
        .error .before ∧
      pcvariantSerializeAlloc .plain (serializeText [110, 117, 108, 108]) true [1, 1, 1, 1, 1] =
        .ok (.inBlock [110, 117, 108, 108, 0, 0]) ∧
      pcvariantSerializeAlloc .plain (serializeText [110, 117, 108, 108]) true
          [1, 1, 1, 1, 1, 1] =
        .ok (.inBuf [110, 117, 108, 108, 0, 1]) := by
  have serializes : Serializes (serializeText [110, 117, 108, 108]) [110, 117, 108, 108] :=
    serializeText_serializes (List.cons_ne_nil _ _)
  have short := pcvariantSerializeAlloc_never_grows Runtime.plain_storesWhatFits serializes true
    [1, 1, 1, 1]
  have full := pcvariantSerializeAlloc_never_grows Runtime.plain_storesWhatFits serializes true
    [1, 1, 1, 1, 1]
  have left := pcvariantSerializeAlloc_never_grows Runtime.plain_storesWhatFits serializes true
    [1, 1, 1, 1, 1, 1]
  exact ⟨short.1, full.1, left.1⟩

end Bpcp.Purc
