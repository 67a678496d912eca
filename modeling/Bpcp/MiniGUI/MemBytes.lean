import Bpcp.Lib.Machine
import Bpcp.MiniGUI.MemRwops

/-!
# Memory areas byte by byte

A memory area is read by `MGUI_RWgetc`, and bytes are pushed back by `mem_ungetc`. Whatever order
these are called in, the area answers as a list of bytes with a cursor does: the byte at the cursor
is read, a byte that is pushed back takes the place of the one in front of the cursor, and nothing
outside of the area is read or written. At the last address the sum that looks for the end of the
area would wrap around, so the area has to end before it.
-/

namespace Bpcp.MiniGUI

open Bpcp.Lib

/-- `MGUI_RWgetc` of a memory area, where the variable `c` has a value before. -/
def mguiRWgetc (context : MemRwops) (c : UInt8) : Int × MemRwops :=
  let read := memRead context (fun _ => c) 1 1
  if read.num = 0 then (-1, read.context) else ((read.ptr 0).toNat, read.context)

/-- `mem_ungetc`, which is there with `_MGUSE_OWN_STDIO`. -/
def memUngetc (context : MemRwops) (c : UInt8) : Int × MemRwops :=
  if context.base < context.here then
    let here := context.here - 1
    (c.toNat, { context with here := here, memory := Function.update context.memory here c })
  else (-1, context)

/-- `mem_eof`. -/
def memEof (context : MemRwops) : Int := if context.stop ≤ context.here then 1 else 0

/-- A call for single bytes. -/
inductive ByteCall where
  /-- `MGUI_RWgetc`, with the value that its variable has before. -/
  | getc (c : UInt8)
  /-- `mem_ungetc`, which is there with `_MGUSE_OWN_STDIO`. -/
  | ungetc (c : UInt8)
  /-- `mem_eof`. -/
  | eof

/-- The answer to a call, and the area that it leaves. -/
def MemRwops.answer (context : MemRwops) : ByteCall → Int × MemRwops
  | .getc c => mguiRWgetc context c
  | .ungetc c => memUngetc context c
  | .eof => (memEof context, context)

/-! ## Bytes with a cursor -/

/-- A list of bytes with a cursor. -/
structure ByteCursor where
  /-- The bytes in front of the cursor, the nearest first. -/
  past : List UInt8
  /-- The bytes from the cursor on. -/
  rest : List UInt8

/-- What is expected of the calls. -/
def ByteCursor.answer (cursor : ByteCursor) : ByteCall → Int × ByteCursor
  | .getc _ =>
    match cursor.rest with
    | [] => (-1, cursor)
    | byte :: rest => (byte.toNat, ⟨byte :: cursor.past, rest⟩)
  | .ungetc c =>
    match cursor.past with
    | [] => (-1, cursor)
    | _ :: past => (c.toNat, ⟨past, c :: cursor.rest⟩)
  | .eof => (if cursor.rest.isEmpty then 1 else 0, cursor)

/-- The area holds the bytes, and its position is that of the cursor. -/
structure HoldsCursor (context : MemRwops) (cursor : ByteCursor) : Prop where
  /-- The area starts at an address. -/
  nonneg : 0 ≤ context.base
  /-- The position is behind the bytes that are past. -/
  here : context.here = context.base + cursor.past.length
  /-- The area ends behind the bytes that are left. -/
  stop : context.stop = context.here + cursor.rest.length
  /-- The area ends before the last address. -/
  addressable : context.stop < uintPtrMax
  /-- The bytes that are past are in front of the position. -/
  past : ∀ i : ℕ, i < cursor.past.length →
    cursor.past[i]? = some (context.memory (context.here - 1 - i))
  /-- The bytes that are left are from the position on. -/
  rest : ∀ i : ℕ, i < cursor.rest.length →
    cursor.rest[i]? = some (context.memory (context.here + i))

/-- The second area has the block of the first one, and the same memory around it. -/
structure SameAround (context after : MemRwops) : Prop where
  /-- The start of the area stays. -/
  base : after.base = context.base
  /-- The end of the area stays. -/
  stop : after.stop = context.stop
  /-- The memory outside of the area stays. -/
  memory : ∀ address, address < context.base ∨ context.stop ≤ address →
    after.memory address = context.memory address

variable {context after : MemRwops} {cursor : ByteCursor} {past rest : List UInt8} {byte c : UInt8}

namespace HoldsCursor

/-- The position is in the area. -/
theorem inBlock (holds : HoldsCursor context cursor) : InBlock context where
  nonneg := holds.nonneg
  lower := by
    have here := holds.here
    omega
  upper := by
    have stop := holds.stop
    omega
  addressable := holds.addressable.le

/-- The number of bytes that a read of one byte gives. -/
theorem clampNum_one (holds : HoldsCursor context cursor) :
    clampNum context 1 1 = min 1 (cursor.rest.length : Int) := by
  have greatest : uintPtrMax = 2 ^ 64 - 1 := rfl
  have most : intMax = 2 ^ 31 - 1 := rfl
  have valid : ValidCount 1 1 := ⟨by omega, by omega, by omega, by omega⟩
  have upper := holds.inBlock.upper
  have addressable := holds.addressable
  have next : context.here + 1 * 1 ≤ uintPtrMax := by omega
  have clamped := (clampNum_eq_iff_of_small holds.inBlock valid (by omega)).2 next
  have left : available context 1 = cursor.rest.length := by
    have stop := holds.stop
    unfold available
    omega
  rw [clamped, left]

/-- The position and the byte that a read leaves, for as many bytes as it gives. -/
theorem getc_eq (holds : HoldsCursor context cursor) {count : Int}
    (clamped : clampNum context 1 1 = count) (nonneg : 0 ≤ count)
    (inside : context.here + count ≤ context.stop) (most : count ≤ 1) :
    mguiRWgetc context c =
      (if count = 0 then -1 else ((context.memory context.here).toNat : Int),
        { context with here := context.here + count }) := by
  have lower := holds.inBlock.lower
  have base := holds.nonneg
  have addressable := holds.addressable
  have greatest : uintPtrMax = 2 ^ 64 - 1 := rfl
  have int : asInt (count * 1) = count := by
    rw [mul_one]
    apply asInt_of_le nonneg
    have largest : intMax = 2 ^ 31 - 1 := rfl
    omega
  have bytes : asAddress count = count := asAddress_of_le nonneg (by omega)
  have position : asAddress (context.here + count) = context.here + count :=
    asAddress_of_le (by omega) (by omega)
  simp only [mguiRWgetc, memRead, clamped, int, bytes, position]
  by_cases zero : count = 0
  · rw [if_pos zero, if_pos zero]
  · have one : count = 1 := by omega
    have copied : memcpy (fun _ => c) 0 context.memory context.here 1 0 =
        context.memory context.here := by
      simp [memcpy]
    rw [if_neg zero, if_neg zero, one, copied]

/-- The byte at the cursor is the one at the position. -/
theorem memory_here (holds : HoldsCursor context ⟨past, byte :: rest⟩) :
    context.memory context.here = byte := by
  have read := holds.rest 0 (Nat.succ_pos rest.length)
  rw [Nat.cast_zero, add_zero, List.getElem?_cons_zero] at read
  exact (Option.some.inj read).symm

/-- At the end of the area nothing is read. -/
theorem getc_nil (holds : HoldsCursor context ⟨past, []⟩) :
    mguiRWgetc context c = (-1, context) := by
  have clamped : clampNum context 1 1 = 0 := holds.clampNum_one
  have upper := holds.inBlock.upper
  rw [holds.getc_eq clamped le_rfl (by omega) (by omega), if_pos rfl, add_zero]

/-- The byte at the position is read. -/
theorem getc_cons (holds : HoldsCursor context ⟨past, byte :: rest⟩) :
    mguiRWgetc context c = ((byte.toNat : Int), { context with here := context.here + 1 }) := by
  have length : ((byte :: rest).length : Int) = rest.length + 1 := by
    rw [List.length_cons]
    push_cast
    rfl
  have clamped : clampNum context 1 1 = 1 := by
    rw [holds.clampNum_one, length]
    omega
  have stop := holds.stop
  rw [length] at stop
  rw [holds.getc_eq clamped (by omega) (by omega) le_rfl, if_neg (by decide), holds.memory_here]

/-- After a byte was read it is past. -/
theorem advance (holds : HoldsCursor context ⟨past, byte :: rest⟩) :
    HoldsCursor { context with here := context.here + 1 } ⟨byte :: past, rest⟩ where
  nonneg := holds.nonneg
  here := by
    have here := holds.here
    simp only [List.length_cons] at here ⊢
    push_cast
    omega
  stop := by
    have stop := holds.stop
    simp only [List.length_cons] at stop ⊢
    push_cast at stop
    omega
  addressable := holds.addressable
  past i inside := by
    cases i with
    | zero => simp [holds.memory_here]
    | succ i =>
      have read := holds.past i (Nat.lt_of_succ_lt_succ inside)
      have place : context.here + 1 - 1 - ((i + 1 : ℕ) : Int) = context.here - 1 - i := by
        push_cast
        omega
      rw [List.getElem?_cons_succ, read]
      exact congrArg (fun address => some (context.memory address)) place.symm
  rest i inside := by
    have read := holds.rest (i + 1) (Nat.succ_lt_succ inside)
    have place : context.here + 1 + (i : Int) = context.here + ((i + 1 : ℕ) : Int) := by
      push_cast
      omega
    rw [List.getElem?_cons_succ] at read
    rw [read]
    exact congrArg (fun address => some (context.memory address)) place.symm

/-- A byte that is pushed back is the next one. -/
theorem push (holds : HoldsCursor context ⟨byte :: past, rest⟩) (c : UInt8) :
    HoldsCursor { context with
      here := context.here - 1
      memory := Function.update context.memory (context.here - 1) c } ⟨past, c :: rest⟩ where
  nonneg := holds.nonneg
  here := by
    have here := holds.here
    simp only [List.length_cons] at here ⊢
    push_cast at here
    omega
  stop := by
    have stop := holds.stop
    simp only [List.length_cons] at stop ⊢
    push_cast
    omega
  addressable := holds.addressable
  past i inside := by
    have read := holds.past (i + 1) (Nat.succ_lt_succ inside)
    have place : context.here - 1 - ((i + 1 : ℕ) : Int) = context.here - 1 - 1 - i := by
      push_cast
      omega
    have apart : context.here - 1 - 1 - (i : Int) ≠ context.here - 1 := by omega
    rw [List.getElem?_cons_succ, place] at read
    rw [read]
    exact congrArg some (Function.update_of_ne apart c context.memory).symm
  rest i inside := by
    cases i with
    | zero => simp
    | succ i =>
      have read := holds.rest i (Nat.lt_of_succ_lt_succ inside)
      have place : context.here - 1 + ((i + 1 : ℕ) : Int) = context.here + i := by
        push_cast
        omega
      have apart : context.here + (i : Int) ≠ context.here - 1 := by omega
      rw [List.getElem?_cons_succ, read, place]
      exact congrArg some (Function.update_of_ne apart c context.memory).symm

end HoldsCursor

/-! ## Runs -/

/-- An area has the memory around it that it had. -/
theorem SameAround.refl (context : MemRwops) : SameAround context context :=
  ⟨rfl, rfl, fun _ _ => rfl⟩

/-- A call is answered as is expected of it, and the area goes on with the cursor. -/
theorem answer_step (start : MemRwops) (context : MemRwops) (cursor : ByteCursor) (call : ByteCall)
    (related : HoldsCursor context cursor ∧ SameAround start context) :
    (context.answer call).1 = (cursor.answer call).1 ∧
      HoldsCursor (context.answer call).2 (cursor.answer call).2 ∧
        SameAround start (context.answer call).2 := by
  obtain ⟨holds, around⟩ := related
  obtain ⟨past, rest⟩ := cursor
  have here := holds.here
  have stop := holds.stop
  cases call with
  | getc c =>
    cases rest with
    | nil =>
      have answered : context.answer (.getc c) = (-1, context) := holds.getc_nil
      rw [answered]
      exact ⟨rfl, holds, around⟩
    | cons byte rest =>
      have answered : context.answer (.getc c) = _ := holds.getc_cons
      rw [answered]
      exact ⟨rfl, holds.advance, ⟨around.base, around.stop, around.memory⟩⟩
  | ungetc c =>
    cases past with
    | nil =>
      have front : ¬context.base < context.here := by
        simp only [List.length_nil, Nat.cast_zero] at here
        omega
      have answered : context.answer (.ungetc c) = (-1, context) := if_neg front
      rw [answered]
      exact ⟨rfl, holds, around⟩
    | cons byte past =>
      simp only [List.length_cons] at here
      push_cast at here
      have behind : context.base < context.here := by omega
      have answered : context.answer (.ungetc c) = _ := if_pos behind
      rw [answered]
      refine ⟨rfl, holds.push c, around.base, around.stop, ?_⟩
      intro address outside
      have base := around.base
      have end' := around.stop
      have apart : address ≠ context.here - 1 := by omega
      have unwritten : Function.update context.memory (context.here - 1) c address =
          context.memory address := Function.update_of_ne apart _ _
      exact unwritten.trans (around.memory address outside)
  | eof =>
    cases rest with
    | nil =>
      have atEnd : context.stop ≤ context.here := by
        simp only [List.length_nil, Nat.cast_zero] at stop
        omega
      exact ⟨if_pos atEnd, holds, around⟩
    | cons byte rest =>
      have more : ¬context.stop ≤ context.here := by
        simp only [List.length_cons] at stop
        push_cast at stop
        omega
      exact ⟨if_neg more, holds, around⟩

/-- The bytes in memory from an address on. -/
def bytesFrom (memory : Int → UInt8) (address : Int) (size : ℕ) : List UInt8 :=
  (List.range size).map fun i : ℕ => memory (address + i)

/-- A new area holds the bytes of its block, with the cursor at their start. -/
theorem mguiRWFromMem_holds {mem size : UInt64} (memory : Int → UInt8)
    (inside : (mem.toNat + size.toNat : Int) < uintPtrMax) :
    HoldsCursor (mguiRWFromMem mem size memory) ⟨[], bytesFrom memory mem.toNat size.toNat⟩ := by
  have whole : ¬uintPtrMax - (mem.toNat : Int) < size.toNat := by omega
  have stop : (mguiRWFromMem mem size memory).stop = mem.toNat + size.toNat := if_neg whole
  have length : (bytesFrom memory mem.toNat size.toNat).length = size.toNat := by
    rw [bytesFrom, List.length_map, List.length_range]
  refine ⟨Int.natCast_nonneg _, (add_zero _).symm, ?_, stop.trans_lt inside, ?_, ?_⟩
  · rw [stop, length]
    rfl
  · intro i inside
    exact absurd inside (Nat.not_lt_zero i)
  · intro i inside
    rw [length] at inside
    simp only [bytesFrom, List.getElem?_map, List.getElem?_range inside]
    rfl

/-- Whatever order single bytes are read, pushed back and asked for in, an area that ends before the
last address answers as a list of bytes with a cursor does, and changes no memory around it. -/
theorem memBytes_refine (mem size : UInt64) (memory : Int → UInt8)
    (inside : (mem.toNat + size.toNat : Int) < uintPtrMax) (calls : List ByteCall) :
    let area := answers MemRwops.answer calls (mguiRWFromMem mem size memory)
    let bytes := answers ByteCursor.answer calls ⟨[], bytesFrom memory mem.toNat size.toNat⟩
    area.1 = bytes.1 ∧ HoldsCursor area.2 bytes.2 ∧
      SameAround (mguiRWFromMem mem size memory) area.2 :=
  answers_simulates (answer_step (mguiRWFromMem mem size memory)) calls _ _
    ⟨mguiRWFromMem_holds memory inside, SameAround.refl _⟩

/-- A byte is pushed back at the start of an area, then one is read, pushed back and read again. -/
theorem memBytes_refine_again :
    let calls : List ByteCall := [.ungetc 1, .getc 0, .ungetc 9, .eof, .getc 0]
    let area := answers MemRwops.answer calls (mguiRWFromMem 4096 2 fun _ => 5)
    let bytes := answers ByteCursor.answer calls ⟨[], bytesFrom (fun _ => 5) 4096 2⟩
    area.1 = bytes.1 ∧ HoldsCursor area.2 bytes.2 ∧
      SameAround (mguiRWFromMem 4096 2 fun _ => 5) area.2 :=
  memBytes_refine 4096 2 (fun _ => 5) (by decide) [.ungetc 1, .getc 0, .ungetc 9, .eof, .getc 0]

end Bpcp.MiniGUI
