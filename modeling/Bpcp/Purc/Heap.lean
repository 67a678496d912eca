import Bpcp.Lib.Counter
import Bpcp.Lib.Machine
import Bpcp.Purc.ListHead
import Bpcp.Purc.Variant

/-!
# The heap of variants

Variants that are given back are kept in a list of reserved variants until that list is
full, and are handed out again from its front. Statistics count the variants and the memory
of each type and of all types together. A reserved variant keeps the type, the flags and the
memory it was last used with, so a cell may be charged to one type and used for another.

A run of the heap mixes these functions with what their callers do to the variants they
own: storing a type, flags and a value, and linking listeners. Callers leave the reserved
variants alone, and the word that holds an extra size is theirs only while the variant does
not carry the flag for it.
-/

namespace Bpcp.Purc

open Bpcp.Lib

/-- The types of variants, of which there are `PURC_VARIANT_TYPE_NR`. -/
instance : Fintype VariantType :=
  .ofList [.undefined, .null, .boolean, .exception, .number, .longint, .ulongint, .longdouble,
    .atomstring, .string, .bsequence, .dynamic, .native, .object, .array, .set, .tuple]
    fun type => by cases type <;> simp

/-- `sizeof(purc_variant)`. -/
def sizeofVariant : UInt64 := 64

/-- The list node of a variant, which `listeners` and `reserved` share. -/
def node (value : Nat) : Nat := value + 8

/-- `PCVRNT_FLAG_EXTRA_SIZE`. -/
def flagExtraSize : UInt16 := 2

/-- `struct purc_variant`, what the heap reads and writes of it besides the list node. -/
structure Cell where
  /-- `type`. -/
  type : VariantType
  /-- `flags`. -/
  flags : UInt16
  /-- `sz_ptr[0]`. -/
  szPtr0 : UInt64

namespace Cell

/-- The variant carries `PCVRNT_FLAG_EXTRA_SIZE`. -/
def hasExtraSize (cell : Cell) : Bool := cell.flags &&& flagExtraSize != 0

/-- The extra size of a variant that carries the flag. -/
def extraSize (cell : Cell) : Nat := if cell.hasExtraSize then cell.szPtr0.toNat else 0

/-- Memory that `calloc` has cleared. -/
def zero : Cell := ⟨.undefined, 0, 0⟩

end Cell

/-- `struct purc_variant_stat`. -/
structure VariantStat where
  /-- `nr_values`. -/
  nrValues : VariantType → UInt64
  /-- `sz_mem`. -/
  szMem : VariantType → UInt64
  /-- `nr_total_values`. -/
  nrTotalValues : UInt64
  /-- `sz_total_mem`. -/
  szTotalMem : UInt64
  /-- `nr_reserved`. -/
  nrReserved : UInt64
  /-- `nr_max_reserved`. -/
  nrMaxReserved : UInt64

namespace VariantStat

/-- The statements `sz_mem[type] += size` and `sz_total_mem += size`. -/
def charge (stat : VariantStat) (type : VariantType) (size : UInt64) : VariantStat :=
  { stat with
    szMem := Function.update stat.szMem type (stat.szMem type + size)
    szTotalMem := stat.szTotalMem + size }

/-- The statements `sz_mem[type] -= size` and `sz_total_mem -= size`. -/
def discharge (stat : VariantStat) (type : VariantType) (size : UInt64) : VariantStat :=
  { stat with
    szMem := Function.update stat.szMem type (stat.szMem type - size)
    szTotalMem := stat.szTotalMem - size }

/-- The statements `nr_values[type]++` and `nr_total_values++`. -/
def countIn (stat : VariantStat) (type : VariantType) : VariantStat :=
  { stat with
    nrValues := Function.update stat.nrValues type (stat.nrValues type + 1)
    nrTotalValues := stat.nrTotalValues + 1 }

/-- The statements `nr_values[type]--` and `nr_total_values--`. -/
def countOut (stat : VariantStat) (type : VariantType) : VariantStat :=
  { stat with
    nrValues := Function.update stat.nrValues type (stat.nrValues type - 1)
    nrTotalValues := stat.nrTotalValues - 1 }

end VariantStat

/-- `struct pcvariant_heap` and the memory of the variants. -/
structure VariantHeap where
  /-- `v_reserved`, the address of the list head. -/
  vReserved : Nat
  /-- `stat`. -/
  stat : VariantStat
  /-- The variants in memory. -/
  cells : Nat → Cell
  /-- The list nodes in memory. -/
  links : Links Nat
  /-- The blocks that are allocated for variants. -/
  allocated : Finset Nat

namespace VariantHeap

/-- A variant in memory is written. -/
def setCell (heap : VariantHeap) (value : Nat) (cell : Cell) : VariantHeap :=
  { heap with cells := Function.update heap.cells value cell }

/-- `pcvariant_alloc_0`, when it returns the block. -/
def alloc0 (heap : VariantHeap) (value : Nat) : VariantHeap :=
  { heap with
    cells := Function.update heap.cells value .zero
    links := (heap.links.setNext (node value) null).setPrev (node value) null
    allocated := insert value heap.allocated }

/-- `pcvariant_free`. -/
def free (heap : VariantHeap) (value : Nat) : VariantHeap :=
  { heap with allocated := heap.allocated.erase value }

/-- The end of `pcvariant_get`: the statistics count the variant, and it has no listeners. -/
def handOut (heap : VariantHeap) (value : Nat) (type : VariantType) : VariantHeap :=
  { heap with
    stat := heap.stat.countIn type
    links := listHeadInit heap.links (node value) }

end VariantHeap

/-- The values of `sz_mem` that `_init_instance` leaves in cleared memory. -/
def initSzMem : VariantType → UInt64
  | .undefined => sizeofVariant
  | .null => sizeofVariant
  | .boolean => sizeofVariant * 2
  | _ => 0

/-- `_init_instance`, with the memory and the value of `nr_max_reserved` as they may be. -/
def initInstance (vReserved : Nat) (nrMaxReserved : UInt64) (cells : Nat → Cell)
    (links : Links Nat) : VariantHeap where
  vReserved := vReserved
  stat :=
    { nrValues := fun _ => 0
      szMem := initSzMem
      nrTotalValues := 4
      szTotalMem := 4 * sizeofVariant
      nrReserved := 0
      nrMaxReserved := nrMaxReserved }
  cells := cells
  links := listHeadInit links vReserved
  allocated := ∅

/-- `list_first_entry(&heap->v_reserved, purc_variant, reserved)`. -/
def firstReserved (heap : VariantHeap) : Nat := heap.links.next heap.vReserved - 8

/-- `pcvariant_stat_set_extra_size`. -/
def pcvariantStatSetExtraSize (heap : VariantHeap) (value : Nat) (extraSize : UInt64) :
    VariantHeap :=
  let cell := heap.cells value
  if cell.hasExtraSize then
    let stat := heap.stat.discharge cell.type cell.szPtr0
    let heap := heap.setCell value { cell with szPtr0 := extraSize }
    { heap with stat := stat.charge cell.type extraSize }
  else heap

/-- `pcvariant_get`, the variant and the heap. The argument `alloc` is what the allocator
returns if it is asked. -/
def pcvariantGet (heap : VariantHeap) (alloc : Nat) (type : VariantType) : Nat × VariantHeap :=
  if listEmpty heap.links heap.vReserved then
    if alloc = null then (null, heap)
    else
      let heap := heap.alloc0 alloc
      let heap := { heap with stat := heap.stat.charge type sizeofVariant }
      (alloc, heap.handOut alloc type)
  else
    let value := firstReserved heap
    let heap := heap.setCell value { heap.cells value with szPtr0 := 0 }
    let heap := { heap with links := listDel heap.links (node value) }
    let heap := { heap with stat := { heap.stat with nrReserved := heap.stat.nrReserved - 1 } }
    (value, heap.handOut value type)

/-- `IS_CONTAINER`. -/
def isContainer (type : VariantType) : Bool :=
  match type with
  | .object | .array | .set | .tuple => true
  | _ => false

/-- `pcvariant_put`. With assertions compiled in there is no heap after a put of a container
that still has listeners. -/
def pcvariantPut (checked : Bool) (heap : VariantHeap) (value : Nat) : Option VariantHeap :=
  let type := (heap.cells value).type
  if checked && isContainer type && !listEmpty heap.links (node value) then none
  else
    let heap := { heap with stat := heap.stat.countOut type }
    if heap.stat.nrMaxReserved ≤ heap.stat.nrReserved then
      let heap := { heap with stat := heap.stat.discharge type sizeofVariant }
      some (heap.free value)
    else
      let heap := { heap with links := listAddTail heap.links (node value) heap.vReserved }
      some { heap with stat := { heap.stat with nrReserved := heap.stat.nrReserved + 1 } }

/-! ## Runs -/

/-- A heap and the variants that were handed out and not put back. -/
structure HeapRun where
  /-- The heap. -/
  heap : VariantHeap
  /-- The variants that their callers own. -/
  live : Finset Nat

/-- What happens to a heap. -/
inductive HeapAction where
  /-- `pcvariant_get(type)` with an answer of the allocator, after which the caller stores a
  type in the variant. -/
  | get (alloc : Nat) (type assigned : VariantType)
  /-- `pcvariant_stat_set_extra_size`. -/
  | setExtraSize (value : Nat) (extraSize : UInt64)
  /-- `pcvariant_put`. -/
  | put (value : Nat)
  /-- The owner of a variant stores a type. -/
  | setType (value : Nat) (type : VariantType)
  /-- The owner of a variant stores flags. -/
  | setFlags (value : Nat) (flags : UInt16)
  /-- The owner of a variant stores a value, of which this is the first word. -/
  | setWord (value : Nat) (word : UInt64)
  /-- List nodes are written. -/
  | relink (links : Links Nat)

/-- A block that the allocator may return: it overlaps with none that is in use. -/
structure Fresh (heap : VariantHeap) (value : Nat) : Prop where
  /-- The block is not at `NULL`. -/
  notNull : value ≠ null
  /-- The block is inside the address space. -/
  inside : value + 64 ≤ 2 ^ 64
  /-- The block is apart from the other variants. -/
  apart : ∀ other ∈ heap.allocated, value + 64 ≤ other ∨ other + 64 ≤ value
  /-- The block is apart from the list head. -/
  headApart : value + 64 ≤ heap.vReserved ∨ heap.vReserved + 16 ≤ value

/-- A list node that belongs to the list of reserved variants. -/
def ReserveNode (run : HeapRun) (at' : Nat) : Prop :=
  at' = run.heap.vReserved ∨ ∃ value ∈ run.heap.allocated, value ∉ run.live ∧ at' = node value

/-- What the allocator and the owners of variants promise. -/
def Permits (run : HeapRun) : HeapAction → Prop
  | .get alloc _ _ =>
    listEmpty run.heap.links run.heap.vReserved = true → alloc ≠ null → Fresh run.heap alloc
  | .setExtraSize value _ => value ∈ run.live
  | .put value =>
    value ∈ run.live ∧
      ((run.heap.cells value).hasExtraSize = true → (run.heap.cells value).szPtr0 = 0)
  | .setType value _ => value ∈ run.live
  | .setFlags value flags =>
    value ∈ run.live ∧ ((run.heap.cells value).szPtr0 = 0 ∨
      { run.heap.cells value with flags := flags }.hasExtraSize =
        (run.heap.cells value).hasExtraSize)
  | .setWord value _ => value ∈ run.live ∧ (run.heap.cells value).hasExtraSize = false
  | .relink links =>
    ∀ at', ReserveNode run at' →
      links.next at' = run.heap.links.next at' ∧ links.prev at' = run.heap.links.prev at'

/-- What an action leaves. -/
def HeapRun.act (checked : Bool) (run : HeapRun) : HeapAction → Option HeapRun
  | .get alloc type assigned =>
    let (value, heap) := pcvariantGet run.heap alloc type
    if value = null then some { run with heap := heap }
    else
      some
        { heap := heap.setCell value { heap.cells value with type := assigned }
          live := insert value run.live }
  | .setExtraSize value extraSize =>
    some { run with heap := pcvariantStatSetExtraSize run.heap value extraSize }
  | .put value =>
    (pcvariantPut checked run.heap value).map fun heap =>
      { heap := heap, live := run.live.erase value }
  | .setType value type =>
    some { run with heap := run.heap.setCell value { run.heap.cells value with type := type } }
  | .setFlags value flags =>
    some { run with heap := run.heap.setCell value { run.heap.cells value with flags := flags } }
  | .setWord value word =>
    some { run with heap := run.heap.setCell value { run.heap.cells value with szPtr0 := word } }
  | .relink links => some { run with heap := { run.heap with links := links } }

/-- The runs of a heap from `_init_instance` on. -/
def heapMachine (checked : Bool) : Machine HeapRun HeapAction where
  start := fun run =>
    ∃ vReserved nrMaxReserved cells links,
      run = ⟨initInstance vReserved nrMaxReserved cells links, ∅⟩
  step := fun run action next => Permits run action ∧ run.act checked action = some next

/-- The owners of variants store the type that the variant was asked for, and keep it. -/
def Typed (_run : HeapRun) : HeapAction → Prop
  | .get _ type assigned => assigned = type
  | .setType _ _ => False
  | _ => True

end Bpcp.Purc
