import Bpcp.Lib.FilledArray
import Bpcp.Lib.Nibble
import Bpcp.Purc.Stringify

/-!
# Byte sequences in hexadecimal

`stringify_bs` writes two digits for a byte through a pointer into a buffer of 513
characters, and hands the buffer on when the pointer has reached its last character. The
loop over the buffer in memory hands on the same pieces as the loop over the characters
stored so far, because the pointer moves by two and the number of digits that fit is even.
-/

namespace Bpcp.Purc

open Bpcp.Lib

/-- `chars`. -/
def bsChars : List UInt8 := (CString.lit "0123456789ABCDEF").bytes

/-- The loop of `stringify_bs` with the buffer in memory and the place that `p` points to. There
is no result when a write or a read is out of bounds. -/
def stringifyBsInto : List UInt8 → List UInt8 → Nat → Option (List Emit)
  | [], buffer, p =>
    if p > 0 then do
      let buffer ← assignAt buffer p 0
      some [⟨buffer, 0⟩]
    else some []
  | byte :: rest, buffer, p => do
    let high ← bsChars[(byte >>> 4).toNat]?
    let low ← bsChars[(byte &&& 0x0F).toNat]?
    let buffer ← assignAt buffer p high
    let buffer ← assignAt buffer (p + 1) low
    if p + 2 = 512 then
      let buffer ← assignAt buffer (p + 2) 0
      let emits ← stringifyBsInto rest buffer 0
      some (⟨buffer, 0⟩ :: emits)
    else stringifyBsInto rest buffer (p + 2)

/-- `stringify_bs` with the contents that its buffer starts with. -/
def stringifyBsBuffer (buffer : Vector UInt8 513) (bs : List UInt8) : Option (List Emit) :=
  stringifyBsInto bs buffer.toList 0

/-- A digit in uppercase hexadecimal. -/
def upperHexDigit (digit : Nat) : UInt8 := UInt8.ofNat (Nat.digitChar digit).toUpper.toNat

/-- The uppercase hexadecimal encoding of bytes, the high half of each byte first. -/
def hexEncoding (bs : List UInt8) : List UInt8 :=
  bs.flatMap fun byte => [upperHexDigit (byte.toNat / 16), upperHexDigit (byte.toNat % 16)]

/-! ## Digits -/

/-- The character of a digit is the digit in hexadecimal. -/
theorem hexChar_eq {digit : UInt8} (small : digit.toNat < 16) :
    hexChar digit = upperHexDigit digit.toNat := by
  have all : ∀ n < 16, hexChar (UInt8.ofNat n) = upperHexDigit n := by decide
  simpa using all digit.toNat small

/-- The table holds the character of every digit. -/
theorem bsChars_getElem? {digit : UInt8} (small : digit.toNat < 16) :
    bsChars[digit.toNat]? = some (hexChar digit) := by
  have all : ∀ n < 16, bsChars[n]? = some (hexChar (UInt8.ofNat n)) := by decide
  simpa using all digit.toNat small

/-- No digit is written as a terminator. -/
theorem hexChar_ne_zero {digit : UInt8} (small : digit.toNat < 16) : hexChar digit ≠ 0 := by
  have all : ∀ n < 16, hexChar (UInt8.ofNat n) ≠ 0 := by decide
  simpa using all digit.toNat small

/-- Different digits are written differently. -/
theorem upperHexDigit_inj {left right : Nat} (smallL : left < 16) (smallR : right < 16)
    (same : upperHexDigit left = upperHexDigit right) : left = right := by
  have all : ∀ l < 16, ∀ r < 16, upperHexDigit l = upperHexDigit r → l = r := by decide
  exact all left smallL right smallR same

/-- The encoding of bytes begins with the two digits of the first. -/
theorem hexEncoding_cons (byte : UInt8) (rest : List UInt8) :
    hexEncoding (byte :: rest) =
      hexChar (byte >>> 4) :: hexChar (byte &&& 0x0F) :: hexEncoding rest := by
  rw [hexChar_eq (Nibble.high_small byte), hexChar_eq (Nibble.low_small byte),
    Nibble.toNat_high, Nibble.toNat_low]
  rfl

/-- Different bytes have different encodings. -/
theorem hexEncoding_injective : Function.Injective hexEncoding := by
  intro left
  induction left with
  | nil =>
    intro right same
    cases right with
    | nil => rfl
    | cons byte rest => cases same
  | cons byte rest ih =>
    intro right same
    cases right with
    | nil => cases same
    | cons other others =>
      simp only [hexEncoding, List.flatMap_cons, List.cons_append, List.nil_append,
        List.cons.injEq] at same
      obtain ⟨high, low, tail⟩ := same
      have smallL := byte.toNat_lt
      have smallR := other.toNat_lt
      have highs := upperHexDigit_inj (by omega) (by omega) high
      have lows := upperHexDigit_inj (Nat.mod_lt _ (by decide)) (Nat.mod_lt _ (by decide)) low
      have bytes : byte = other := UInt8.toNat_inj.1 (by omega)
      rw [bytes, ih tail]

/-! ## Pieces -/

/-- The two digits of a byte end no string. -/
theorem noNul_digits {stored : List UInt8} (noNul : (0 : UInt8) ∉ stored) (byte : UInt8) :
    (0 : UInt8) ∉ stored ++ [hexChar (byte >>> 4), hexChar (byte &&& 0x0F)] := by
  have high := hexChar_ne_zero (Nibble.high_small byte)
  have low := hexChar_ne_zero (Nibble.low_small byte)
  simp [noNul, high.symm, low.symm]

/-- A terminated piece is handed on up to its terminator. -/
theorem emit_terminated {stored : List UInt8} (noNul : (0 : UInt8) ∉ stored)
    (rest : List UInt8) : (Emit.mk (stored ++ 0 :: rest) 0).bytes = stored :=
  CString.takeWhile_terminated ⟨stored, noNul⟩ rest

/-- The pieces that are handed on spell the characters so far and the encoding of the rest. -/
theorem emitted_stringifyBsLoop (bs : List UInt8) {stored : List UInt8}
    (noNul : (0 : UInt8) ∉ stored) :
    emitted (stringifyBsLoop bs stored) = stored ++ hexEncoding bs := by
  induction bs generalizing stored with
  | nil =>
    rw [stringifyBsLoop]
    split
    · rename_i empty
      rw [empty]
      rfl
    · rw [emitted_cons, emit_terminated noNul]
      rfl
  | cons byte rest ih =>
    have digits := noNul_digits noNul byte
    simp only [stringifyBsLoop]
    split
    · rw [emitted_cons, emit_terminated digits, ih (by simp), hexEncoding_cons]
      simp
    · rw [ih digits, hexEncoding_cons]
      simp

/-- No piece is empty. -/
theorem stringifyBsLoop_nonempty (bs : List UInt8) {stored : List UInt8}
    (noNul : (0 : UInt8) ∉ stored) : ∀ emit ∈ stringifyBsLoop bs stored, emit.bytes ≠ [] := by
  induction bs generalizing stored with
  | nil =>
    rw [stringifyBsLoop]
    split
    · simp
    · rename_i nonempty
      intro emit member
      rw [List.mem_singleton.1 member, emit_terminated noNul]
      exact nonempty
  | cons byte rest ih =>
    have digits := noNul_digits noNul byte
    simp only [stringifyBsLoop]
    split
    · intro emit member
      rcases List.mem_cons.1 member with rfl | later
      · rw [emit_terminated digits]
        simp
      · exact ih (by simp) emit later
    · exact ih digits

/-! ## The buffer in memory -/

/-- The characters stored so far are at the front of the buffer, which has room for more. -/
structure StoredInBuffer (stored buffer : List UInt8) : Prop where
  /-- The front of the buffer. -/
  front : stored <+: buffer
  /-- The size of the buffer. -/
  size : buffer.length = 513
  /-- The last character is for the terminator. -/
  room : stored.length ≤ 512
  /-- The characters come in pairs. -/
  even : stored.length % 2 = 0

variable {stored buffer : List UInt8}

/-- A terminator behind the stored characters makes a piece of them. -/
theorem StoredInBuffer.terminate (kept : StoredInBuffer stored buffer)
    (noNul : (0 : UInt8) ∉ stored) :
    ∃ terminated, assignAt buffer stored.length 0 = some terminated ∧
      terminated.length = 513 ∧ (Emit.mk terminated 0).bytes = stored := by
  have inside : stored.length < buffer.length := by
    have size := kept.size
    have room := kept.room
    omega
  obtain ⟨terminated, assigned, size, rest, rfl⟩ := assignAt_behind kept.front inside 0
  refine ⟨_, assigned, size.trans kept.size, ?_⟩
  rw [List.append_assoc]
  exact emit_terminated noNul rest

/-- Two digits are stored behind the characters so far. -/
theorem StoredInBuffer.store (kept : StoredInBuffer stored buffer) (below : stored.length ≠ 512)
    (high low : UInt8) :
    ∃ middle after, assignAt buffer stored.length high = some middle ∧
      assignAt middle (stored.length + 1) low = some after ∧
      StoredInBuffer (stored ++ [high, low]) after := by
  have size := kept.size
  have room := kept.room
  have even := kept.even
  have inside : stored.length + 1 < buffer.length := by omega
  obtain ⟨middle, after, first, second, sizeAfter, front⟩ :=
    assignAt_behind_two kept.front inside high low
  have two : (stored ++ [high, low]).length = stored.length + 2 := by simp
  exact ⟨middle, after, first, second, front, sizeAfter.trans size, by omega, by omega⟩

/-- The loop over the buffer in memory stays inside and hands on the pieces of the loop over the
characters stored so far. -/
theorem stringifyBsInto_refines (bs : List UInt8) (kept : StoredInBuffer stored buffer)
    (noNul : (0 : UInt8) ∉ stored) (below : stored.length ≠ 512) :
    ∃ emits, stringifyBsInto bs buffer stored.length = some emits ∧
      emits.map Emit.bytes = (stringifyBsLoop bs stored).map Emit.bytes := by
  induction bs generalizing stored buffer with
  | nil =>
    by_cases empty : stored = []
    · subst empty
      exact ⟨[], rfl, rfl⟩
    · obtain ⟨terminated, write, -, bytes⟩ := kept.terminate noNul
      refine ⟨[⟨terminated, 0⟩], ?_, ?_⟩
      · rw [stringifyBsInto, if_pos (List.length_pos_of_ne_nil empty), write]
        rfl
      · rw [stringifyBsLoop, if_neg empty, List.map_singleton, List.map_singleton, bytes,
          emit_terminated noNul]
  | cons byte rest ih =>
    have digits := noNul_digits noNul byte
    obtain ⟨middle, after, first, second, grown⟩ :=
      kept.store below (hexChar (byte >>> 4)) (hexChar (byte &&& 0x0F))
    have two : (stored ++ [hexChar (byte >>> 4), hexChar (byte &&& 0x0F)]).length =
        stored.length + 2 := by simp
    simp only [stringifyBsInto, stringifyBsLoop, bsChars_getElem? (Nibble.high_small byte),
      bsChars_getElem? (Nibble.low_small byte), Option.bind_eq_bind, Option.bind_some, first,
      second, two]
    split
    · -- The buffer is full: it is handed on, and the next character goes to its beginning.
      obtain ⟨terminated, write, size, bytes⟩ := grown.terminate digits
      rw [two] at write
      have fresh : StoredInBuffer [] terminated := ⟨List.nil_prefix, size, by simp, rfl⟩
      obtain ⟨emits, run, same⟩ := ih fresh (by simp) (by simp)
      rw [List.length_nil] at run
      refine ⟨⟨terminated, 0⟩ :: emits, by rw [write, Option.bind_some, run]; rfl, ?_⟩
      rw [List.map_cons, List.map_cons, same, bytes, emit_terminated digits]
    · rename_i notFull
      rw [← two]
      exact ih grown digits (by rwa [two])

/-- Whatever the buffer starts with, the pieces of a byte sequence are those of its
stringification. -/
theorem stringifyBsBuffer_refines (buffer : Vector UInt8 513) (bs : List UInt8) :
    ∃ emits, stringifyBsBuffer buffer bs = some emits ∧
      emits.map Emit.bytes = (stringifyBs bs).map Emit.bytes := by
  have fresh : StoredInBuffer [] buffer.toList := ⟨List.nil_prefix, by simp, by simp, rfl⟩
  exact stringifyBsInto_refines bs fresh (by simp) (by simp)

/-- Whatever the buffer starts with, the pieces of a byte sequence spell its encoding, and none
is empty. -/
theorem stringifyBsBuffer_spells (buffer : Vector UInt8 513) (bs : List UInt8) :
    ∃ emits, stringifyBsBuffer buffer bs = some emits ∧ emitted emits = hexEncoding bs ∧
      ∀ emit ∈ emits, emit.bytes ≠ [] := by
  obtain ⟨emits, run, same⟩ := stringifyBsBuffer_refines buffer bs
  refine ⟨emits, run, ?_, ?_⟩
  · rw [emitted, List.flatMap_def, same, ← List.flatMap_def]
    exact emitted_stringifyBsLoop bs (by simp)
  · intro emit member
    have piece := List.mem_map_of_mem (f := Emit.bytes) member
    rw [same] at piece
    obtain ⟨other, listed, bytes⟩ := List.mem_map.1 piece
    rw [← bytes]
    exact stringifyBsLoop_nonempty bs (by simp) other listed

/-- `stringify_bs` stays inside its buffer, hands on the uppercase hexadecimal encoding in
pieces that are not empty, and so gives different texts to different byte sequences. -/
theorem stringifyBsBuffer_exact (buffer : Vector UInt8 513) (bs : List UInt8) :
    ∃ emits, stringifyBsBuffer buffer bs = some emits ∧ emitted emits = hexEncoding bs ∧
      (∀ emit ∈ emits, emit.bytes ≠ []) ∧
      ∀ otherBuffer other, (stringifyBsBuffer otherBuffer other).map emitted =
        some (emitted emits) → other = bs := by
  obtain ⟨emits, run, encoding, nonempty⟩ := stringifyBsBuffer_spells buffer bs
  refine ⟨emits, run, encoding, nonempty, ?_⟩
  intro otherBuffer other same
  obtain ⟨otherEmits, otherRun, otherEncoding, -⟩ := stringifyBsBuffer_spells otherBuffer other
  rw [otherRun, Option.map_some, otherEncoding, encoding] at same
  exact hexEncoding_injective (Option.some.inj same)

end Bpcp.Purc
