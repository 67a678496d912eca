import Bpcp.Lib.MachineInt

/-!
# Reading and writing memory

A memory area is a block between two addresses and a position in it. Reading and writing
transfer a number of elements of a size, as many as fit into the rest of the block. Whether
they fit is decided by adding the product of the number and the size, an int, to the
position, an address, so that both the product and the sum may wrap around before they are
compared with the end of the block.
-/

namespace Bpcp.MiniGUI

open Bpcp.Lib

/-- `UINT_PTR_MAX`. -/
def uintPtrMax : Int := IntType.uint64.greatest

/-- `INT_MAX`. -/
def intMax : Int := IntType.int32.greatest

/-- An arithmetic result as an `int`. -/
def asInt (value : Int) : Int := (IntType.int32.wrap value).1

/-- A difference of addresses as a `ptrdiff_t`. -/
def asPtrdiff (value : Int) : Int := (IntType.int64.wrap value).1

/-- A sum of an address and an integer as an address, or an integer as a `size_t`. -/
def asAddress (value : Int) : Int := (IntType.uint64.wrap value).1

/-- `hidden.mem` of `MG_RWops`, with the memory that its addresses point to. -/
structure MemRwops where
  /-- `base`. -/
  base : Int
  /-- `here`. -/
  here : Int
  /-- `stop`. -/
  stop : Int
  /-- The bytes at the addresses. -/
  memory : Int → UInt8

/-- `MGUI_RWFromMem`, when the allocation succeeds. -/
def mguiRWFromMem (mem size : UInt64) (memory : Int → UInt8) : MemRwops where
  base := mem.toNat
  here := mem.toNat
  stop := if uintPtrMax - mem.toNat < size.toNat then uintPtrMax else mem.toNat + size.toNat
  memory := memory

/-- The values of `whence`. -/
inductive Whence where
  /-- `SEEK_SET`. -/
  | seekSet
  /-- `SEEK_CUR`. -/
  | seekCur
  /-- `SEEK_END`. -/
  | seekEnd
  /-- Another value. -/
  | other
deriving DecidableEq

/-- `mem_seek` after the switch. -/
def seekTo (context : MemRwops) (newpos : Int) : Int × MemRwops :=
  let newpos := if newpos < context.base then context.base else newpos
  let newpos := if context.stop < newpos then context.stop else newpos
  let context := { context with here := newpos }
  (asInt (asPtrdiff (context.here - context.base)), context)

/-- `mem_seek`. -/
def memSeek (context : MemRwops) (offset : Int) (whence : Whence) : Int × MemRwops :=
  match whence with
  | .seekSet => seekTo context (asAddress (context.base + offset))
  | .seekCur => seekTo context (asAddress (context.here + offset))
  | .seekEnd => seekTo context (asAddress (context.stop + offset))
  | .other => (-1, context)

/-- `memcpy` of a number of bytes. -/
def memcpy (dest : Int → UInt8) (destStart : Int) (src : Int → UInt8) (srcStart count : Int) :
    Int → UInt8 :=
  fun address =>
    if destStart ≤ address ∧ address < destStart + count then
      src (srcStart + (address - destStart))
    else dest address

/-- The first statement of `mem_read` and `mem_write`, which cuts off the number of elements. -/
def clampNum (context : MemRwops) (size num : Int) : Int :=
  if context.stop < asAddress (context.here + asInt (num * size)) then
    asInt ((asPtrdiff (context.stop - context.here)).tdiv size)
  else num

/-- What `mem_read` and `mem_write` return and leave. -/
structure Transfer where
  /-- The returned number of elements. -/
  num : Int
  /-- The number of bytes that `memcpy` is called with. -/
  count : Int
  /-- The area. -/
  context : MemRwops
  /-- The memory of the caller. -/
  ptr : Int → UInt8

/-- `mem_read` into memory from the address 0 on. -/
def memRead (context : MemRwops) (ptr : Int → UInt8) (size maxnum : Int) : Transfer :=
  let num := clampNum context size maxnum
  let count := asAddress (asInt (num * size))
  { num := num
    count := count
    context := { context with here := asAddress (context.here + asInt (num * size)) }
    ptr := memcpy ptr 0 context.memory context.here count }

/-- `mem_write` of memory from the address 0 on. -/
def memWrite (context : MemRwops) (ptr : Int → UInt8) (size num : Int) : Transfer :=
  let num := clampNum context size num
  let count := asAddress (asInt (num * size))
  { num := num
    count := count
    context :=
      { context with
        here := asAddress (context.here + asInt (num * size))
        memory := memcpy context.memory context.here ptr 0 count }
    ptr := ptr }

/-! ## Wrapping around -/

variable {context : MemRwops} {size num value : Int}

/-- An `int` keeps the numbers that it holds. -/
theorem asInt_of_le (nonneg : 0 ≤ value) (small : value ≤ intMax) : asInt value = value := by
  have least : IntType.int32.least = -2 ^ 31 := rfl
  exact IntType.wrap_val ⟨by omega, small⟩

/-- An `int` is between its limits. -/
theorem asInt_bounds (value : Int) : -2 ^ 31 ≤ asInt value ∧ asInt value ≤ 2 ^ 31 - 1 :=
  (IntType.int32.wrap value).2

/-- A `ptrdiff_t` keeps the numbers that it holds. -/
theorem asPtrdiff_of_lt (nonneg : 0 ≤ value) (small : value < 2 ^ 63) :
    asPtrdiff value = value := by
  have least : IntType.int64.least = -2 ^ 63 := rfl
  have greatest : IntType.int64.greatest = 2 ^ 63 - 1 := rfl
  exact IntType.wrap_val ⟨by omega, by omega⟩

/-- Addresses wrap around at their limit. -/
theorem asAddress_eq (value : Int) : asAddress value = value % 2 ^ 64 := by
  have least : IntType.uint64.least = 0 := rfl
  change IntType.uint64.least + (value - IntType.uint64.least) % 2 ^ 64 = _
  rw [least]
  omega

/-- An address that is one stays the same. -/
theorem asAddress_of_le (nonneg : 0 ≤ value) (small : value ≤ uintPtrMax) :
    asAddress value = value := by
  have greatest : uintPtrMax = 2 ^ 64 - 1 := rfl
  rw [asAddress_eq]
  exact Int.emod_eq_of_lt nonneg (by omega)

/-! ## The position in the block -/

/-- The position is in the block, and the block is in the address space. -/
structure InBlock (context : MemRwops) : Prop where
  /-- The block starts at an address. -/
  nonneg : 0 ≤ context.base
  /-- The position is not before the block. -/
  lower : context.base ≤ context.here
  /-- The position is not behind the block. -/
  upper : context.here ≤ context.stop
  /-- The block ends at an address. -/
  addressable : context.stop ≤ uintPtrMax

/-- The second area has the block of the first one and a position in it. -/
structure Within (context after : MemRwops) : Prop where
  /-- The start of the block stays. -/
  base : after.base = context.base
  /-- The end of the block stays. -/
  stop : after.stop = context.stop
  /-- The position is not before the block. -/
  lower : after.base ≤ after.here
  /-- The position is not behind the block. -/
  upper : after.here ≤ after.stop

/-- A position within the block of an area in its block is in the block. -/
theorem Within.inBlock {after : MemRwops} (within : Within context after)
    (inBlock : InBlock context) : InBlock after where
  nonneg := by
    rw [within.base]
    exact inBlock.nonneg
  lower := within.lower
  upper := within.upper
  addressable := by
    rw [within.stop]
    exact inBlock.addressable

/-- A new area is at the start of its block, whatever its size is. -/
theorem mguiRWFromMem_inBlock (mem size : UInt64) (memory : Int → UInt8) :
    InBlock (mguiRWFromMem mem size memory) := by
  have greatest : uintPtrMax = 2 ^ 64 - 1 := rfl
  have address := mem.toNat_lt
  unfold mguiRWFromMem
  constructor
  · show (0 : Int) ≤ mem.toNat
    omega
  · exact le_refl _
  · dsimp only
    split <;> omega
  · dsimp only
    split <;> omega

/-- Seeking ends in the block. -/
theorem seekTo_within (ordered : context.base ≤ context.stop) (newpos : Int) :
    Within context (seekTo context newpos).2 := by
  unfold seekTo
  constructor
  · rfl
  · rfl
  · simp only
    split_ifs <;> omega
  · simp only
    split_ifs <;> omega

/-- Seeking stays in the block, for all offsets and origins. -/
theorem memSeek_within (inBlock : InBlock context) (offset : Int) (whence : Whence) :
    Within context (memSeek context offset whence).2 := by
  have ordered := inBlock.lower.trans inBlock.upper
  cases whence with
  | seekSet => exact seekTo_within ordered _
  | seekCur => exact seekTo_within ordered _
  | seekEnd => exact seekTo_within ordered _
  | other => exact ⟨rfl, rfl, inBlock.lower, inBlock.upper⟩

/-! ## The number of transferred elements -/

/-- A transfer of a number of elements moves the position by all their bytes, and no larger
number that was asked for fits into the rest of the block. -/
structure Transferred (context : MemRwops) (size requested : Int) (transfer : Transfer) :
    Prop where
  /-- The number is not negative. -/
  nonneg : 0 ≤ transfer.num
  /-- The number is at most the requested one. -/
  atMost : transfer.num ≤ requested
  /-- All bytes of the elements are transferred. -/
  count : transfer.count = transfer.num * size
  /-- The position moves behind them. -/
  here : transfer.context.here = context.here + transfer.num * size
  /-- The new position is in the block. -/
  within : Within context transfer.context
  /-- A larger number does not fit. -/
  largest : ∀ other ≤ requested, context.here + other * size ≤ context.stop →
    other ≤ transfer.num

/-- The number of elements that fit into the rest of the block. -/
def available (context : MemRwops) (size : Int) : Int := (context.stop - context.here) / size

/-- The sizes and numbers that the functions are called with. -/
structure ValidCount (size num : Int) : Prop where
  /-- Elements are not empty. -/
  positive : 1 ≤ size
  /-- The size is an `int`. -/
  sizeFits : size ≤ intMax
  /-- The number is not negative. -/
  nonneg : 0 ≤ num
  /-- The number is an `int`. -/
  numFits : num ≤ intMax

/-- An element fits when it is one of the available ones. -/
theorem le_available (positive : 1 ≤ size) (other : Int) :
    other ≤ available context size ↔ context.here + other * size ≤ context.stop := by
  rw [available, Int.le_ediv_iff_mul_le (by omega)]
  constructor <;> intro fits <;> omega

/-- The available number is not negative. -/
theorem available_nonneg (inBlock : InBlock context) (positive : 1 ≤ size) :
    0 ≤ available context size := by
  have upper := inBlock.upper
  rw [le_available positive]
  omega

/-- The number that `mem_read` and `mem_write` ought to transfer. -/
theorem transferred_iff {transfer : Transfer} (inBlock : InBlock context)
    (valid : ValidCount size num) (base : transfer.context.base = context.base)
    (stop : transfer.context.stop = context.stop) :
    Transferred context size num transfer ↔
      transfer.num = min num (available context size) ∧
        transfer.count = transfer.num * size ∧
        transfer.context.here = context.here + transfer.num * size := by
  have nonneg := available_nonneg inBlock valid.positive
  constructor
  · intro transferred
    refine ⟨le_antisymm (le_min transferred.atMost ?_) ?_, transferred.count, transferred.here⟩
    · rw [le_available valid.positive, ← transferred.here, ← stop]
      exact transferred.within.upper
    · apply transferred.largest _ (min_le_left _ _)
      exact (le_available valid.positive _).1 (min_le_right _ _)
  · intro ⟨number, count, here⟩
    have atLeast : 0 ≤ transfer.num := by
      rw [number]
      exact le_min valid.nonneg nonneg
    have bytes : 0 ≤ transfer.num * size :=
      mul_nonneg atLeast (zero_le_one.trans valid.positive)
    have fits : context.here + transfer.num * size ≤ context.stop := by
      rw [← le_available valid.positive, number]
      exact min_le_right _ _
    have lower := inBlock.lower
    constructor
    · exact atLeast
    · rw [number]
      exact min_le_left _ _
    · exact count
    · exact here
    · exact ⟨base, stop, by omega, by omega⟩
    · intro other atMost otherFits
      rw [number]
      exact le_min atMost ((le_available valid.positive _).2 otherFits)

/-- Counting the bytes as an `int` and adding them to the position are right, or the wrong sum
is still behind the block and the bytes that are left can be counted as an `int`. -/
def TransferFits (context : MemRwops) (size num : Int) : Prop :=
  (num * size ≤ intMax ∧ context.here + num * size ≤ uintPtrMax) ∨
    (intMax < num * size ∧ context.stop < asAddress (context.here + asInt (num * size)) ∧
      available context size * size ≤ intMax)

/-- Cutting off divides the rest of the block by the size when the bytes that are left can be
counted as an `int`. -/
theorem asInt_tdiv_eq (inBlock : InBlock context) (valid : ValidCount size num)
    (small : available context size * size ≤ intMax) :
    asInt ((asPtrdiff (context.stop - context.here)).tdiv size) = available context size := by
  have greatest : intMax = 2 ^ 31 - 1 := rfl
  have positive := valid.positive
  have sizeFits := valid.sizeFits
  have upper := inBlock.upper
  have nonneg := available_nonneg inBlock positive
  have remainder : context.stop - context.here < (available context size + 1) * size :=
    Int.lt_ediv_add_one_mul_self _ (by omega)
  have difference : asPtrdiff (context.stop - context.here) = context.stop - context.here := by
    apply asPtrdiff_of_lt
    · omega
    · rw [add_mul, one_mul] at remainder
      omega
  have product : available context size ≤ available context size * size :=
    le_mul_of_one_le_right nonneg positive
  rw [difference, Int.tdiv_eq_ediv_of_nonneg (by omega)]
  exact asInt_of_le nonneg (product.trans small)

/-- When the product is right, the number is cut off as it ought to be exactly when the sum is an
address. -/
theorem clampNum_eq_iff_of_small (inBlock : InBlock context) (valid : ValidCount size num)
    (small : num * size ≤ intMax) :
    clampNum context size num = min num (available context size) ↔
      context.here + num * size ≤ uintPtrMax := by
  have greatestInt : intMax = 2 ^ 31 - 1 := rfl
  have greatestAddress : uintPtrMax = 2 ^ 64 - 1 := rfl
  have positive := valid.positive
  have lower := inBlock.lower
  have upper := inBlock.upper
  have base := inBlock.nonneg
  have addressable := inBlock.addressable
  have bytes : 0 ≤ num * size := mul_nonneg valid.nonneg (by omega)
  have product : asInt (num * size) = num * size := asInt_of_le bytes small
  unfold clampNum
  rw [product]
  by_cases address : context.here + num * size ≤ uintPtrMax
  · rw [asAddress_of_le (by omega) address]
    simp only [address, iff_true]
    by_cases behind : context.stop < context.here + num * size
    · have fewer : available context size < num := by
        rw [← not_le, le_available positive]
        omega
      have leftBytes : available context size * size ≤ intMax :=
        (mul_le_mul_of_nonneg_right fewer.le (by omega)).trans small
      rw [if_pos behind, min_eq_right fewer.le]
      exact asInt_tdiv_eq inBlock valid leftBytes
    · have enough : num ≤ available context size := by
        rw [le_available positive]
        omega
      rw [if_neg behind, min_eq_left enough]
  · -- The sum wraps around to the front of the block, so that nothing is cut off.
    have wrapped : asAddress (context.here + num * size) =
        context.here + num * size - 2 ^ 64 := by
      rw [asAddress_eq]
      omega
    have before : ¬context.stop < context.here + num * size - 2 ^ 64 := by omega
    have fewer : available context size < num := by
      rw [← not_le, le_available positive]
      omega
    rw [wrapped, if_neg before, min_eq_right fewer.le]
    simp only [address, iff_false]
    exact fewer.ne'

/-- When the product is wrong, all elements are too many, so the number has to be cut off, and
the bytes of what is left have to be counted. -/
theorem clampNum_eq_iff_of_large (inBlock : InBlock context) (valid : ValidCount size num)
    (large : intMax < num * size) :
    (clampNum context size num = min num (available context size) ∧
        min num (available context size) * size ≤ intMax) ↔
      context.stop < asAddress (context.here + asInt (num * size)) ∧
        available context size * size ≤ intMax := by
  have positive := valid.positive
  have small : ¬num * size ≤ intMax := not_le.2 large
  by_cases behind : context.stop < asAddress (context.here + asInt (num * size))
  · simp only [behind, true_and]
    constructor
    · intro ⟨_, least⟩
      rcases min_choice num (available context size) with all | some
      · rw [all] at least
        exact absurd least small
      · rwa [some] at least
    · intro leftBytes
      have fewer : available context size < num :=
        lt_of_mul_lt_mul_right (leftBytes.trans_lt large) (by omega)
      rw [min_eq_right fewer.le, clampNum, if_pos behind]
      exact ⟨asInt_tdiv_eq inBlock valid leftBytes, leftBytes⟩
  · simp only [behind, false_and, iff_false, not_and]
    intro number
    rw [← number, clampNum, if_neg behind]
    exact small

/-- The number is cut off as it ought to be, and its bytes can be counted as an `int`, exactly
when the transfer fits. -/
theorem clampNum_eq_iff (inBlock : InBlock context) (valid : ValidCount size num) :
    (clampNum context size num = min num (available context size) ∧
        min num (available context size) * size ≤ intMax) ↔
      TransferFits context size num := by
  have positive := valid.positive
  unfold TransferFits
  by_cases small : num * size ≤ intMax
  · have least : min num (available context size) * size ≤ intMax :=
      (mul_le_mul_of_nonneg_right (min_le_left _ _) (by omega)).trans small
    have notLarge : ¬intMax < num * size := not_lt.2 small
    rw [clampNum_eq_iff_of_small inBlock valid small]
    simp only [least, small, notLarge, and_true, true_and, false_and, or_false]
  · have large : intMax < num * size := not_le.1 small
    rw [clampNum_eq_iff_of_large inBlock valid large]
    simp only [small, large, false_and, false_or, true_and]

/-- The bytes of at most `INT_MAX` elements are counted as a `size_t` exactly when they can be
counted as an `int`. -/
theorem count_eq_iff (valid : ValidCount size num) (nonneg : 0 ≤ value) (atMost : value ≤ num) :
    asAddress (asInt (value * size)) = value * size ↔ value * size ≤ intMax := by
  have greatestInt : intMax = 2 ^ 31 - 1 := rfl
  have greatestAddress : uintPtrMax = 2 ^ 64 - 1 := rfl
  have positive := valid.positive
  have bytes : 0 ≤ value * size := mul_nonneg nonneg (by omega)
  constructor
  · intro same
    have product : value * size ≤ (2 ^ 31 - 1) * (2 ^ 31 - 1) := by
      apply mul_le_mul (atMost.trans valid.numFits) valid.sizeFits <;> omega
    have bounds := asInt_bounds (value * size)
    rw [asAddress_eq] at same
    omega
  · intro small
    rw [asInt_of_le bytes small]
    exact asAddress_of_le bytes (by omega)

/-- A transfer of the number that the functions cut off is right exactly when it fits. -/
theorem transferred_iff_fits {transfer : Transfer} (inBlock : InBlock context)
    (valid : ValidCount size num) (base : transfer.context.base = context.base)
    (stop : transfer.context.stop = context.stop)
    (number : transfer.num = clampNum context size num)
    (count : transfer.count = asAddress (asInt (transfer.num * size)))
    (here : transfer.context.here = asAddress (context.here + asInt (transfer.num * size))) :
    Transferred context size num transfer ↔ TransferFits context size num := by
  have nonneg := available_nonneg inBlock valid.positive
  have atLeast : 0 ≤ min num (available context size) := le_min valid.nonneg nonneg
  have counted := count_eq_iff valid atLeast (min_le_left _ _)
  rw [transferred_iff inBlock valid base stop, ← clampNum_eq_iff inBlock valid, ← number]
  constructor
  · intro ⟨least, right, _⟩
    rw [count, least, counted] at right
    exact ⟨least, right⟩
  · intro ⟨least, right⟩
    have bytes : 0 ≤ min num (available context size) * size :=
      mul_nonneg atLeast (zero_le_one.trans valid.positive)
    have fits : context.here + min num (available context size) * size ≤ context.stop :=
      (le_available valid.positive _).1 (min_le_right _ _)
    have lower := inBlock.nonneg.trans inBlock.lower
    refine ⟨least, ?_, ?_⟩
    · rw [count, least, counted]
      exact right
    · rw [here, least, asInt_of_le bytes right]
      exact asAddress_of_le (by omega) (fits.trans inBlock.addressable)

/-- Reading transfers what it ought to exactly when the transfer fits. -/
theorem memRead_transferred_iff (inBlock : InBlock context) (valid : ValidCount size num)
    (ptr : Int → UInt8) :
    Transferred context size num (memRead context ptr size num) ↔
      TransferFits context size num :=
  transferred_iff_fits inBlock valid rfl rfl rfl rfl rfl

/-- Writing transfers what it ought to exactly when the transfer fits. -/
theorem memWrite_transferred_iff (inBlock : InBlock context) (valid : ValidCount size num)
    (ptr : Int → UInt8) :
    Transferred context size num (memWrite context ptr size num) ↔
      TransferFits context size num :=
  transferred_iff_fits inBlock valid rfl rfl rfl rfl rfl

/-! ## Sequences of calls -/

/-- A call of one of the functions of an area. -/
inductive MemCall where
  /-- `seek`. -/
  | seek (offset : Int) (whence : Whence)
  /-- `read`. -/
  | read (ptr : Int → UInt8) (size maxnum : Int)
  /-- `write`. -/
  | write (ptr : Int → UInt8) (size num : Int)

/-- The area after a call. -/
def MemRwops.apply (context : MemRwops) : MemCall → MemRwops
  | .seek offset whence => (memSeek context offset whence).2
  | .read ptr size maxnum => (memRead context ptr size maxnum).context
  | .write ptr size num => (memWrite context ptr size num).context

/-- The sizes and numbers of a call are valid. -/
def MemCall.Valid : MemCall → Prop
  | .seek _ _ => True
  | .read _ size maxnum => ValidCount size maxnum
  | .write _ size num => ValidCount size num

/-- Reading copies the bytes from the old position on and keeps the rest. -/
def BytesRead (context : MemRwops) (ptr : Int → UInt8) (size : Int) (transfer : Transfer) : Prop :=
  transfer.context.memory = context.memory ∧
    ∀ index, transfer.ptr index =
      if 0 ≤ index ∧ index < transfer.num * size then context.memory (context.here + index)
      else ptr index

/-- Writing copies the bytes to the old position on and keeps the rest. -/
def BytesWritten (context : MemRwops) (ptr : Int → UInt8) (size : Int) (transfer : Transfer) :
    Prop :=
  transfer.ptr = ptr ∧
    ∀ address, transfer.context.memory address =
      if context.here ≤ address ∧ address < context.here + transfer.num * size then
        ptr (address - context.here)
      else context.memory address

/-- What is expected of a call. -/
def CallHolds (context : MemRwops) : MemCall → Prop
  | .seek offset whence => Within context (memSeek context offset whence).2
  | .read ptr size maxnum =>
    Transferred context size maxnum (memRead context ptr size maxnum) ∧
      BytesRead context ptr size (memRead context ptr size maxnum)
  | .write ptr size num =>
    Transferred context size num (memWrite context ptr size num) ∧
      BytesWritten context ptr size (memWrite context ptr size num)

/-- A transfer of a call fits. -/
def CallFits (context : MemRwops) : MemCall → Prop
  | .seek _ _ => True
  | .read _ size maxnum => TransferFits context size maxnum
  | .write _ size num => TransferFits context size num

/-- What is expected of every call of a sequence. -/
def HoldsAlong : List MemCall → MemRwops → Prop
  | [], _ => True
  | call :: calls, context => CallHolds context call ∧ HoldsAlong calls (context.apply call)

/-- Every transfer of a sequence fits. -/
def FitsAlong : List MemCall → MemRwops → Prop
  | [], _ => True
  | call :: calls, context => CallFits context call ∧ FitsAlong calls (context.apply call)

/-- A right reading copies the right bytes. -/
theorem memRead_bytesRead {ptr : Int → UInt8}
    (transferred : Transferred context size num (memRead context ptr size num)) :
    BytesRead context ptr size (memRead context ptr size num) := by
  refine ⟨rfl, fun index => ?_⟩
  rw [← transferred.count]
  show memcpy ptr 0 context.memory context.here _ index = _
  rw [memcpy, zero_add, sub_zero]
  rfl

/-- A right writing copies the right bytes. -/
theorem memWrite_bytesWritten {ptr : Int → UInt8}
    (transferred : Transferred context size num (memWrite context ptr size num)) :
    BytesWritten context ptr size (memWrite context ptr size num) := by
  refine ⟨rfl, fun address => ?_⟩
  rw [← transferred.count]
  show memcpy context.memory context.here ptr 0 _ address = _
  rw [memcpy, zero_add]
  rfl

/-- A call does what is expected of it exactly when its transfer fits. -/
theorem callHolds_iff (inBlock : InBlock context) {call : MemCall} (valid : call.Valid) :
    CallHolds context call ↔ CallFits context call := by
  cases call with
  | seek offset whence => exact iff_of_true (memSeek_within inBlock offset whence) trivial
  | read ptr size maxnum =>
    rw [CallHolds, CallFits, ← memRead_transferred_iff inBlock valid ptr]
    exact and_iff_left_of_imp memRead_bytesRead
  | write ptr size num =>
    rw [CallHolds, CallFits, ← memWrite_transferred_iff inBlock valid ptr]
    exact and_iff_left_of_imp memWrite_bytesWritten

/-- A call that does what is expected of it keeps the position in the block. -/
theorem CallHolds.inBlock {call : MemCall} (holds : CallHolds context call)
    (inBlock : InBlock context) : InBlock (context.apply call) := by
  cases call with
  | seek offset whence => exact Within.inBlock holds inBlock
  | read ptr size maxnum => exact holds.1.within.inBlock inBlock
  | write ptr size num => exact holds.1.within.inBlock inBlock

/-- From a position in the block on, the calls do what is expected of them exactly when all
transfers fit. -/
theorem holdsAlong_iff (calls : List MemCall) (inBlock : InBlock context)
    (valid : ∀ call ∈ calls, call.Valid) :
    HoldsAlong calls context ↔ FitsAlong calls context := by
  induction calls generalizing context with
  | nil => exact Iff.rfl
  | cons call calls ih =>
    rw [HoldsAlong, FitsAlong, ← callHolds_iff inBlock (valid call List.mem_cons_self)]
    apply and_congr_right
    intro holds
    exact ih (holds.inBlock inBlock) fun other member =>
      valid other (List.mem_cons_of_mem call member)

/-- All calls on a new area do what is expected of them exactly when all transfers fit. -/
theorem mguiRWFromMem_holdsAlong_iff (mem size : UInt64) (memory : Int → UInt8)
    (calls : List MemCall) (valid : ∀ call ∈ calls, call.Valid) :
    HoldsAlong calls (mguiRWFromMem mem size memory) ↔
      FitsAlong calls (mguiRWFromMem mem size memory) :=
  holdsAlong_iff calls (mguiRWFromMem_inBlock mem size memory) valid

/-- Reading 3 elements of 4 bytes from a block of 16 bytes at the address 4096. -/
theorem mguiRWFromMem_holdsAlong_iff_sixteen :
    HoldsAlong [.read (fun _ => 0) 4 3] (mguiRWFromMem 4096 16 fun _ => 7) := by
  apply (mguiRWFromMem_holdsAlong_iff 4096 16 (fun _ => 7) [.read (fun _ => 0) 4 3] ?_).2
  · exact ⟨Or.inl ⟨by decide, by decide⟩, trivial⟩
  · intro call member
    rw [List.mem_singleton.1 member]
    exact ⟨by decide, by decide, by decide, by decide⟩

/-- Reading 65536 elements of 65536 bytes from a block of 16 bytes counts no byte, and returns
that all were read. -/
theorem memRead_wraps :
    (MemCall.read (fun _ => 0) 65536 65536).Valid ∧
      ¬HoldsAlong [.read (fun _ => 0) 65536 65536] (mguiRWFromMem 4096 16 fun _ => 7) := by
  refine ⟨⟨by decide, by decide, by decide, by decide⟩, fun holds => ?_⟩
  have count := holds.1.1.count
  have wraps : (memRead (mguiRWFromMem 4096 16 fun _ => 7) (fun _ => 0) 65536 65536).count = 0 := by
    decide
  have all : (memRead (mguiRWFromMem 4096 16 fun _ => 7) (fun _ => 0) 65536 65536).num = 65536 := by
    decide
  rw [wraps, all] at count
  exact absurd count (by decide)

end Bpcp.MiniGUI
