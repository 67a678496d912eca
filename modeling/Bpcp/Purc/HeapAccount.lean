import Bpcp.Purc.Heap

/-!
# Accounting of the heap of variants

What a run of the heap keeps falls into two parts that know nothing of each other. The pool
is about addresses: the list of reserved variants is a ring, and every block is either live
or reserved. The books are about numbers: how many variants are live and reserved, and the
extra sizes of the live ones. Each function of the heap does one thing to each part.
-/

namespace Bpcp.Purc

open Bpcp.Lib

/-! ## The pool -/

/-- The reserved variants form the list, and every block is either live or reserved. -/
structure Pool (vReserved : Nat) (links : Links Nat) (allocated live : Finset Nat)
    (reserved : List Nat) : Prop where
  /-- The list has the reserved variants in their order, none of them twice. -/
  ring : links.Ring vReserved (reserved.map node)
  /-- A block in use is a live or a reserved variant. -/
  cover : ∀ value, value ∈ allocated ↔ value ∈ live ∨ value ∈ reserved
  /-- No reserved variant is live. -/
  apart : ∀ value ∈ reserved, value ∉ live
  /-- Blocks do not overlap. -/
  separate : ∀ value ∈ allocated, ∀ other ∈ allocated, value ≠ other →
    value + 64 ≤ other ∨ other + 64 ≤ value
  /-- Blocks are inside the address space. -/
  inside : ∀ value ∈ allocated, value ≠ null ∧ value + 64 ≤ 2 ^ 64
  /-- Blocks do not overlap with the list head. -/
  headApart : ∀ value ∈ allocated, value + 64 ≤ vReserved ∨ vReserved + 16 ≤ value

namespace Pool

variable {vReserved value : Nat} {links other : Links Nat} {allocated live : Finset Nat}
  {reserved rest : List Nat}

/-- A heap starts without variants. -/
theorem start : Pool vReserved (listHeadInit links vReserved) ∅ ∅ [] where
  ring := Links.ring_join_self vReserved
  cover := by simp
  apart := by simp
  separate := by simp
  inside := by simp
  headApart := by simp

/-- A live variant is a block in use. -/
theorem live_allocated (pool : Pool vReserved links allocated live reserved)
    (member : value ∈ live) : value ∈ allocated := (pool.cover value).2 (.inl member)

/-- The node of a variant that is not reserved is not in the list. -/
theorem node_outside (headApart : value + 64 ≤ vReserved ∨ vReserved + 16 ≤ value)
    (unreserved : value ∉ reserved) : node value ∉ vReserved :: reserved.map node := by
  intro inside
  rcases List.mem_cons.1 inside with head | element
  · rw [node] at head
    omega
  · obtain ⟨held, member, same⟩ := List.mem_map.1 element
    have equal : held = value := Nat.add_right_cancel same
    exact unreserved (equal ▸ member)

/-- The node of a live variant is not in the list. -/
theorem live_outside (pool : Pool vReserved links allocated live reserved)
    (member : value ∈ live) : node value ∉ vReserved :: reserved.map node :=
  node_outside (pool.headApart value (pool.live_allocated member))
    fun held => pool.apart value held member

/-- The list changes where it has no node. -/
theorem relink (pool : Pool vReserved links allocated live reserved)
    (ring : other.Ring vReserved (reserved.map node)) :
    Pool vReserved other allocated live reserved :=
  { pool with ring := ring }

/-- There are few blocks. -/
theorem card_le (pool : Pool vReserved links allocated live reserved) : live.card ≤ 2 ^ 58 := by
  have slots : Set.MapsTo (fun value => value / 64) (live : Set Nat) (Finset.range (2 ^ 58)) := by
    intro value member
    have inside := (pool.inside value (pool.live_allocated member)).2
    have slot : value / 64 < 2 ^ 58 := by omega
    simpa using slot
  have distinct : Set.InjOn (fun value => value / 64) (live : Set Nat) := by
    intro value member held also same
    by_contra different
    have gap := pool.separate value (pool.live_allocated member) held
      (pool.live_allocated also) different
    change value / 64 = held / 64 at same
    omega
  simpa using Finset.card_le_card_of_injOn _ slots distinct

/-- A new block becomes a live variant. -/
theorem allocate (pool : Pool vReserved links allocated live reserved) (notNull : value ≠ null)
    (inside : value + 64 ≤ 2 ^ 64)
    (gap : ∀ held ∈ allocated, value + 64 ≤ held ∨ held + 64 ≤ value)
    (headApart : value + 64 ≤ vReserved ∨ vReserved + 16 ≤ value)
    (same : ∀ at', at' ≠ node value →
      other.next at' = links.next at' ∧ other.prev at' = links.prev at') :
    Pool vReserved other (insert value allocated) (insert value live) reserved := by
  have unused : value ∉ allocated := by
    intro used
    have overlap := gap value used
    omega
  have unreserved : value ∉ reserved := fun held => unused ((pool.cover value).2 (.inr held))
  refine ⟨pool.ring.congr_outside (node_outside headApart unreserved) same, ?_, ?_, ?_, ?_, ?_⟩
  · intro held
    rw [Finset.mem_insert, Finset.mem_insert, pool.cover, or_assoc]
  · intro held member handed
    rcases Finset.mem_insert.1 handed with new | old
    · exact unreserved (new ▸ member)
    · exact pool.apart held member old
  · intro held member again also different
    rcases Finset.mem_insert.1 member with new | old
    · rcases Finset.mem_insert.1 also with same | older
      · exact absurd (new.trans same.symm) different
      · exact new ▸ gap again older
    · rcases Finset.mem_insert.1 also with new | older
      · exact new ▸ (gap held old).symm
      · exact pool.separate held old again older different
  · exact Finset.forall_mem_insert _ _ _ |>.2 ⟨⟨notNull, inside⟩, pool.inside⟩
  · exact Finset.forall_mem_insert _ _ _ |>.2 ⟨headApart, pool.headApart⟩

/-- The first reserved variant becomes live. -/
theorem take (pool : Pool vReserved links allocated live (value :: rest)) :
    Pool vReserved (listHeadInit (listDel links (node value)) (node value)) allocated
      (insert value live) rest := by
  have distinct := (List.nodup_cons.1 pool.ring.distinct).2
  have unreserved : value ∉ rest := fun member =>
    (List.nodup_cons.1 distinct).1 (List.mem_map_of_mem member)
  have held : value ∈ allocated := (pool.cover value).2 (.inr (by simp))
  have first : links.Ring vReserved ([] ++ node value :: rest.map node) := pool.ring
  have ring : (listHeadInit (listDel links (node value)) (node value)).Ring vReserved
      (rest.map node) :=
    (ring_listDel first).congr_outside (node_outside (pool.headApart value held) unreserved)
      fun at' apart => by simp [listHeadInit, listDel, apart]
  refine { pool with ring := ring, cover := ?_, apart := ?_ }
  · intro other
    rw [pool.cover, Finset.mem_insert, List.mem_cons]
    tauto
  · intro other member handed
    rcases Finset.mem_insert.1 handed with new | old
    · exact unreserved (new ▸ member)
    · exact pool.apart other (List.mem_cons_of_mem value member) old

/-- A live variant is freed. -/
theorem free (pool : Pool vReserved links allocated live reserved) (member : value ∈ live) :
    Pool vReserved links (allocated.erase value) (live.erase value) reserved := by
  have held : ∀ other ∈ allocated.erase value, other ∈ allocated :=
    fun other inside => Finset.mem_of_mem_erase inside
  refine ⟨pool.ring, ?_, ?_, ?_, ?_, ?_⟩
  · intro other
    rw [Finset.mem_erase, Finset.mem_erase, pool.cover]
    constructor
    · rintro ⟨different, live | reserved⟩
      · exact .inl ⟨different, live⟩
      · exact .inr reserved
    · rintro (⟨different, live⟩ | reserved)
      · exact ⟨different, .inl live⟩
      · have different : other ≠ value := fun same => pool.apart other reserved (same ▸ member)
        exact ⟨different, .inr reserved⟩
  · exact fun other reserved live => pool.apart other reserved (Finset.mem_of_mem_erase live)
  · exact fun other inside again also =>
      pool.separate other (held other inside) again (held again also)
  · exact fun other inside => pool.inside other (held other inside)
  · exact fun other inside => pool.headApart other (held other inside)

/-- A live variant becomes the last reserved one. -/
theorem reserve (pool : Pool vReserved links allocated live reserved) (member : value ∈ live) :
    Pool vReserved (listAddTail links (node value) vReserved) allocated (live.erase value)
      (reserved ++ [value]) := by
  have ring := ring_listAddTail pool.ring (pool.live_outside member)
  rw [← List.map_singleton, ← List.map_append] at ring
  refine { pool with ring := ring, cover := ?_, apart := ?_ }
  · intro other
    rw [pool.cover, Finset.mem_erase, List.mem_append, List.mem_singleton]
    by_cases same : other = value
    · simp [same, member]
    · simp [same]
  · intro other inside live
    have parts := Finset.mem_erase.1 live
    rcases List.mem_append.1 inside with inside | last
    · exact pool.apart other inside parts.2
    · exact parts.1 (List.mem_singleton.1 last)

end Pool

/-! ## The books -/

/-- The extra sizes of the live variants that carry the flag. -/
def extras (cells : Nat → Cell) (live : Finset Nat) : ℕ := ∑ value ∈ live, (cells value).extraSize

/-- The counters of all types together say what is live and reserved. -/
structure Books (stat : VariantStat) (cells : Nat → Cell) (live : Finset Nat) (reserved : ℕ) :
    Prop where
  /-- `nr_reserved` counts the reserved variants. -/
  reservedCount : stat.nrReserved.toNat = reserved
  /-- There are not more of them than allowed. -/
  bounded : stat.nrReserved ≤ stat.nrMaxReserved
  /-- `nr_total_values` counts the four constants and the live variants. -/
  values : Tracks stat.nrTotalValues (4 + live.card)
  /-- `sz_total_mem` counts all variants and the extra sizes of the live ones. -/
  memory : Tracks stat.szTotalMem (64 * (4 + live.card + reserved) + extras cells live)
  /-- `sz_total_mem` is the sum over the types. -/
  types : Tracks stat.szTotalMem (∑ type, (stat.szMem type).toNat)

section Extras

variable {cells changed : Nat → Cell} {live : Finset Nat} {value : Nat}

/-- Extra sizes only depend on the live variants. -/
theorem extras_congr (same : ∀ held ∈ live, (changed held).extraSize = (cells held).extraSize) :
    extras changed live = extras cells live := Finset.sum_congr rfl same

/-- A variant that is handed out has no extra size. -/
theorem extras_insert (new : value ∉ live) (none : (changed value).extraSize = 0)
    (same : ∀ held, held ≠ value → changed held = cells held) :
    extras changed (insert value live) = extras cells live := by
  have rest : extras changed live = extras cells live := by
    apply extras_congr
    intro held member
    have apart : held ≠ value := fun hit => new (hit ▸ member)
    rw [same held apart]
  rw [extras, Finset.sum_insert new, none, zero_add]
  exact rest

/-- A variant that is put back has no extra size. -/
theorem extras_erase (none : (cells value).extraSize = 0) :
    extras cells (live.erase value) = extras cells live := Finset.sum_erase live none

end Extras

namespace Books

variable {stat : VariantStat} {cells changed : Nat → Cell} {live : Finset Nat} {reserved : ℕ}
  {value : Nat} {type : VariantType}

/-- What `_init_instance` writes. -/
theorem start {vReserved : Nat} {nrMaxReserved : UInt64} {links : Links Nat} :
    Books (initInstance vReserved nrMaxReserved cells links).stat cells ∅ 0 where
  reservedCount := rfl
  bounded := by
    rw [UInt64.le_iff_toNat_le]
    exact Nat.zero_le _
  values := rfl
  memory := rfl
  types := by
    have total : ∑ type, (initSzMem type).toNat = 256 := by decide
    rw [Tracks, initInstance, total]
    rfl

/-- Extra sizes of live variants are not changed. -/
theorem recell (books : Books stat cells live reserved)
    (same : ∀ held ∈ live, (changed held).extraSize = (cells held).extraSize) :
    Books stat changed live reserved := by
  have memory := books.memory
  rw [← extras_congr same] at memory
  exact { books with memory := memory }

/-- A new block is charged and counted. -/
theorem allocate (books : Books stat cells live reserved) (new : value ∉ live)
    (none : (changed value).extraSize = 0)
    (same : ∀ held, held ≠ value → changed held = cells held) :
    Books ((stat.charge type sizeofVariant).countIn type) changed (insert value live) reserved := by
  have values := books.values.add 1
  have memory := books.memory.add sizeofVariant
  have types := books.types.sum_add type sizeofVariant
  refine ⟨books.reservedCount, books.bounded, ?_, ?_, types⟩
  · rw [Finset.card_insert_of_notMem new]
    exact values
  · rw [Finset.card_insert_of_notMem new, extras_insert new none same]
    have size : sizeofVariant.toNat = 64 := rfl
    rw [size] at memory
    have total : 64 * (4 + (live.card + 1) + reserved) + extras cells live =
        64 * (4 + live.card + reserved) + extras cells live + 64 := by omega
    rw [total]
    exact memory

/-- A reserved variant is counted, but nothing is charged for it. -/
theorem take (books : Books stat cells live (reserved + 1)) (new : value ∉ live)
    (none : (changed value).extraSize = 0)
    (same : ∀ held, held ≠ value → changed held = cells held) :
    Books ({ stat with nrReserved := stat.nrReserved - 1 }.countIn type) changed
      (insert value live) reserved := by
  have count := books.reservedCount
  have one : (1 : UInt64) ≤ stat.nrReserved := by
    rw [UInt64.le_iff_toNat_le, count]
    exact Nat.le_add_left 1 reserved
  have fewer : (stat.nrReserved - 1).toNat = reserved := by
    rw [UInt64.toNat_sub_of_le _ _ one, count]
    rfl
  have bounded := books.bounded
  rw [UInt64.le_iff_toNat_le, count] at bounded
  refine ⟨fewer, ?_, ?_, ?_, books.types⟩
  · rw [UInt64.le_iff_toNat_le]
    change (stat.nrReserved - 1).toNat ≤ stat.nrMaxReserved.toNat
    omega
  · rw [Finset.card_insert_of_notMem new]
    exact books.values.add 1
  · rw [Finset.card_insert_of_notMem new, extras_insert new none same]
    have total : 64 * (4 + (live.card + 1) + reserved) = 64 * (4 + live.card + (reserved + 1)) := by
      omega
    rw [total]
    exact books.memory

/-- A variant that is put back is no longer counted. -/
theorem values_erase (books : Books stat cells live reserved) (member : value ∈ live) :
    Tracks (stat.nrTotalValues - 1) (4 + (live.erase value).card) := by
  have card := Finset.card_erase_add_one member
  apply Tracks.sub
  have one : (1 : UInt64).toNat = 1 := rfl
  rw [one, Nat.add_assoc, card]
  exact books.values

/-- A variant that is freed is discharged. -/
theorem free (books : Books stat cells live reserved) (member : value ∈ live)
    (none : (cells value).extraSize = 0) :
    Books ((stat.countOut type).discharge type sizeofVariant) cells (live.erase value)
      reserved := by
  refine ⟨books.reservedCount, books.bounded, books.values_erase member, ?_,
    books.types.sum_sub type sizeofVariant⟩
  have card := Finset.card_erase_add_one member
  apply Tracks.sub
  have size : sizeofVariant.toNat = 64 := rfl
  have total : 64 * (4 + (live.erase value).card + reserved) + extras cells live + 64 =
      64 * (4 + live.card + reserved) + extras cells live := by omega
  rw [extras_erase none, size, total]
  exact books.memory

/-- A variant that is reserved stays charged. -/
theorem reserve (books : Books stat cells live reserved) (member : value ∈ live)
    (none : (cells value).extraSize = 0) (room : stat.nrReserved < stat.nrMaxReserved) :
    Books { stat.countOut type with nrReserved := stat.nrReserved + 1 } cells (live.erase value)
      (reserved + 1) := by
  have count := books.reservedCount
  have limit := stat.nrMaxReserved.toNat_lt
  rw [UInt64.lt_iff_toNat_lt, count] at room
  have more : (stat.nrReserved + 1).toNat = reserved + 1 := by
    have one : (1 : UInt64).toNat = 1 := rfl
    rw [UInt64.toNat_add, count, one, Nat.mod_eq_of_lt (by omega)]
  refine ⟨more, ?_, books.values_erase member, ?_, books.types⟩
  · rw [UInt64.le_iff_toNat_le]
    change (stat.nrReserved + 1).toNat ≤ stat.nrMaxReserved.toNat
    omega
  · have card := Finset.card_erase_add_one member
    have total : 64 * (4 + (live.erase value).card + (reserved + 1)) =
        64 * (4 + live.card + reserved) := by omega
    rw [extras_erase none, total]
    exact books.memory

/-- An extra size is discharged and the one that replaces it is charged. -/
theorem resize (books : Books stat cells live reserved) (member : value ∈ live)
    {old new : UInt64} (before : (cells value).extraSize = old.toNat)
    (after : (changed value).extraSize = new.toNat)
    (same : ∀ held, held ≠ value → changed held = cells held) :
    Books ((stat.discharge type old).charge type new) changed live reserved := by
  have moved : extras changed live + old.toNat = extras cells live + new.toNat := by
    rw [← before, ← after]
    have entries : ∀ held, held ≠ value →
        (changed held).extraSize = (cells held).extraSize :=
      fun held apart => congrArg Cell.extraSize (same held apart)
    exact sum_change member entries
  refine ⟨books.reservedCount, books.bounded, books.values, ?_,
    (books.types.sum_sub type old).sum_add type new⟩
  have memory := books.memory.add new
  have total : 64 * (4 + live.card + reserved) + extras cells live + new.toNat =
      64 * (4 + live.card + reserved) + extras changed live + old.toNat := by omega
  rw [total] at memory
  have swapped : stat.szTotalMem - old + new = stat.szTotalMem + new - old := by
    rw [UInt64.sub_eq_add_neg, UInt64.sub_eq_add_neg, UInt64.add_assoc,
      UInt64.add_comm (-old), UInt64.add_assoc]
  change Tracks (stat.szTotalMem - old + new) _
  rw [swapped]
  exact memory.sub

end Books

/-! ## Runs -/

/-- A variant whose word is zero has no extra size. -/
theorem Cell.extraSize_eq_zero {cell : Cell} (zero : cell.szPtr0 = 0) : cell.extraSize = 0 := by
  rw [extraSize, zero, UInt64.toNat_zero, ite_self]

/-- What a variant keeps through a write, every variant keeps. -/
theorem Cell.update_congr {β : Type} (field : Cell → β) {cells : Nat → Cell} {value : Nat}
    {cell : Cell} (same : field cell = field (cells value)) (held : Nat) :
    field (Function.update cells value cell held) = field (cells held) := by
  by_cases hit : held = value
  · rw [hit, Function.update_self, same]
  · rw [Function.update_of_ne hit]

/-- A variant that is put back has no extra size. -/
theorem extraSize_of_put {run : HeapRun} {value : Nat} (permits : Permits run (.put value)) :
    (run.heap.cells value).extraSize = 0 := by
  rw [Cell.extraSize]
  split
  · rename_i flagged
    rw [permits.2 flagged]
    rfl
  · rfl

/-- An owner that stores flags keeps the extra size. -/
theorem extraSize_of_setFlags {run : HeapRun} {value : Nat} {flags : UInt16}
    (permits : Permits run (.setFlags value flags)) :
    { run.heap.cells value with flags := flags }.extraSize = (run.heap.cells value).extraSize := by
  rcases permits.2 with zero | kept
  · have none : { run.heap.cells value with flags := flags }.extraSize = 0 :=
      Cell.extraSize_eq_zero zero
    exact none.trans (Cell.extraSize_eq_zero zero).symm
  · rw [Cell.extraSize, Cell.extraSize, kept]

/-- An owner that stores a value keeps the extra size. -/
theorem extraSize_of_setWord {run : HeapRun} {value : Nat} {word : UInt64}
    (permits : Permits run (.setWord value word)) :
    { run.heap.cells value with szPtr0 := word }.extraSize = (run.heap.cells value).extraSize := by
  have still : { run.heap.cells value with szPtr0 := word }.hasExtraSize = false := permits.2
  rw [Cell.extraSize, Cell.extraSize, still, permits.2]
  rfl

/-- The extra size that is set is the one that a variant with the flag has. -/
theorem extraSize_of_flagged {cell : Cell} (flagged : cell.hasExtraSize = true) :
    cell.extraSize = cell.szPtr0.toNat := by rw [Cell.extraSize, if_pos flagged]

/-- A variant with the flag has the extra size that is stored. -/
theorem extraSize_stored {cells : Nat → Cell} {value : Nat}
    (flagged : (cells value).hasExtraSize = true) (extraSize : UInt64) :
    (Function.update cells value { cells value with szPtr0 := extraSize } value).extraSize =
      extraSize.toNat := by
  rw [Function.update_self]
  exact extraSize_of_flagged flagged

/-- The pool and the books agree on the reserved variants. -/
structure Accounts (run : HeapRun) (reserved : List Nat) : Prop where
  /-- The addresses. -/
  pool : Pool run.heap.vReserved run.heap.links run.heap.allocated run.live reserved
  /-- The numbers. -/
  books : Books run.heap.stat run.heap.cells run.live reserved.length

namespace Accounts

variable {run next : HeapRun} {reserved rest : List Nat} {value : Nat} {checked : Bool}

/-- The list looks empty when nothing is reserved. -/
theorem listEmpty_nil (accounts : Accounts run []) :
    listEmpty run.heap.links run.heap.vReserved = true := by
  rw [← Bool.not_eq_false, listEmpty_eq_false accounts.pool.ring]
  simp

/-- The list does not look empty when something is reserved. -/
theorem listEmpty_cons (accounts : Accounts run (value :: rest)) :
    listEmpty run.heap.links run.heap.vReserved = false :=
  (listEmpty_eq_false accounts.pool.ring).2 (by simp)

/-- The first entry of the list is the first reserved variant. -/
theorem firstReserved_cons (accounts : Accounts run (value :: rest)) :
    firstReserved run.heap = value := by
  rw [firstReserved, accounts.pool.ring.next_head]
  exact Nat.add_sub_cancel value 8

/-- A reserved variant is not at `NULL`. -/
theorem reserved_ne_null (accounts : Accounts run (value :: rest)) : value ≠ null :=
  (accounts.pool.inside value ((accounts.pool.cover value).2 (.inr (by simp)))).1

/-- What a get leaves when the list is empty and the allocator returns a block. -/
def newRun (run : HeapRun) (alloc : Nat) (type assigned : VariantType) : HeapRun where
  heap :=
    { run.heap with
      stat := (run.heap.stat.charge type sizeofVariant).countIn type
      cells := Function.update run.heap.cells alloc { Cell.zero with type := assigned }
      links := listHeadInit
        ((run.heap.links.setNext (node alloc) null).setPrev (node alloc) null) (node alloc)
      allocated := insert alloc run.heap.allocated }
  live := insert alloc run.live

/-- What a get leaves that takes the first reserved variant. -/
def takenRun (run : HeapRun) (value : Nat) (type assigned : VariantType) : HeapRun where
  heap :=
    { run.heap with
      stat := { run.heap.stat with nrReserved := run.heap.stat.nrReserved - 1 }.countIn type
      cells := Function.update run.heap.cells value
        { run.heap.cells value with szPtr0 := 0, type := assigned }
      links := listHeadInit (listDel run.heap.links (node value)) (node value) }
  live := insert value run.live

/-- A get with an empty list. -/
theorem act_get_empty (empty : listEmpty run.heap.links run.heap.vReserved = true) (alloc : Nat)
    (type assigned : VariantType) :
    run.act checked (.get alloc type assigned) =
      some (if alloc = null then run else newRun run alloc type assigned) := by
  by_cases failed : alloc = null
  · simp [HeapRun.act, pcvariantGet, empty, failed]
  · simp [HeapRun.act, pcvariantGet, empty, failed, newRun, VariantHeap.handOut,
      VariantHeap.alloc0, VariantHeap.setCell]

/-- A get with a reserved variant. -/
theorem act_get_first (busy : listEmpty run.heap.links run.heap.vReserved = false)
    (first : firstReserved run.heap = value) (notNull : value ≠ null) (alloc : Nat)
    (type assigned : VariantType) :
    run.act checked (.get alloc type assigned) = some (takenRun run value type assigned) := by
  simp [HeapRun.act, pcvariantGet, busy, first, notNull, takenRun, VariantHeap.handOut,
    VariantHeap.setCell]

/-- A new block keeps the accounts. -/
theorem get_nil (accounts : Accounts run []) {alloc : Nat} {type assigned : VariantType}
    (fresh : Fresh run.heap alloc) : Accounts (newRun run alloc type assigned) [] := by
  have unused : alloc ∉ run.live := by
    intro live
    have overlap := fresh.apart alloc (accounts.pool.live_allocated live)
    omega
  refine ⟨accounts.pool.allocate fresh.notNull fresh.inside fresh.apart fresh.headApart ?_,
    accounts.books.allocate unused ?_ ?_⟩
  · intro at' apart
    simp [newRun, listHeadInit, apart]
  · exact Cell.extraSize_eq_zero (by simp [newRun, Cell.zero])
  · intro held apart
    simp [newRun, apart]

/-- Taking the first reserved variant keeps the accounts. -/
theorem get_cons (accounts : Accounts run (value :: rest)) {type assigned : VariantType} :
    Accounts (takenRun run value type assigned) rest := by
  refine ⟨accounts.pool.take, accounts.books.take (accounts.pool.apart value (by simp)) ?_ ?_⟩
  · exact Cell.extraSize_eq_zero (by simp [takenRun])
  · intro held apart
    simp [takenRun, apart]

/-- What a put leaves that frees the variant. -/
def freedRun (run : HeapRun) (value : Nat) : HeapRun where
  heap :=
    { run.heap with
      stat := (run.heap.stat.countOut (run.heap.cells value).type).discharge
        (run.heap.cells value).type sizeofVariant
      allocated := run.heap.allocated.erase value }
  live := run.live.erase value

/-- What a put leaves that reserves the variant. -/
def reservedRun (run : HeapRun) (value : Nat) : HeapRun where
  heap :=
    { run.heap with
      stat := { run.heap.stat.countOut (run.heap.cells value).type with
        nrReserved := run.heap.stat.nrReserved + 1 }
      links := listAddTail run.heap.links (node value) run.heap.vReserved }
  live := run.live.erase value

/-- A put that no assertion stops frees or reserves the variant. -/
theorem act_put (acts : run.act checked (.put value) = some next) :
    next = if run.heap.stat.nrMaxReserved ≤ run.heap.stat.nrReserved then freedRun run value
      else reservedRun run value := by
  simp only [HeapRun.act, pcvariantPut, Option.map_eq_some_iff] at acts
  obtain ⟨heap, puts, rfl⟩ := acts
  split at puts
  · cases puts
  · have sameMax : (run.heap.stat.countOut (run.heap.cells value).type).nrMaxReserved =
        run.heap.stat.nrMaxReserved := rfl
    have sameCount : (run.heap.stat.countOut (run.heap.cells value).type).nrReserved =
        run.heap.stat.nrReserved := rfl
    rw [sameMax, sameCount] at puts
    split at puts
    · rename_i full
      rw [if_pos full, ← Option.some.inj puts]
      rfl
    · rename_i room
      rw [if_neg room, ← Option.some.inj puts]
      rfl

/-- Putting a variant keeps the accounts. -/
theorem put (accounts : Accounts run reserved) (permits : Permits run (.put value))
    (acts : run.act checked (.put value) = some next) :
    ∃ after, Accounts next after := by
  have none := extraSize_of_put permits
  rw [act_put acts]
  split
  · exact ⟨reserved, accounts.pool.free permits.1, accounts.books.free permits.1 none⟩
  · rename_i room
    refine ⟨reserved ++ [value], accounts.pool.reserve permits.1, ?_⟩
    rw [List.length_append]
    exact accounts.books.reserve permits.1 none (UInt64.not_le.1 room)

/-- Setting an extra size keeps the accounts. -/
theorem setExtraSize (accounts : Accounts run reserved) (live : value ∈ run.live)
    (extraSize : UInt64) :
    Accounts { run with heap := pcvariantStatSetExtraSize run.heap value extraSize }
      reserved := by
  by_cases flagged : (run.heap.cells value).hasExtraSize
  · simp only [pcvariantStatSetExtraSize, flagged, if_true]
    exact ⟨accounts.pool, accounts.books.resize live (extraSize_of_flagged flagged)
      (extraSize_stored flagged extraSize) fun held apart => Function.update_of_ne apart _ _⟩
  · simp only [pcvariantStatSetExtraSize, flagged]
    exact accounts

/-- An owner that keeps the extra size of its variant keeps the accounts. -/
theorem store (accounts : Accounts run reserved) {cell : Cell}
    (same : cell.extraSize = (run.heap.cells value).extraSize) :
    Accounts { run with heap := run.heap.setCell value cell } reserved :=
  ⟨accounts.pool, accounts.books.recell fun held _ => Cell.update_congr _ same held⟩

/-- Every step keeps the accounts. -/
theorem step {action : HeapAction} (accounts : Accounts run reserved)
    (permits : Permits run action) (acts : run.act checked action = some next) :
    ∃ after, Accounts next after := by
  cases action with
  | get alloc type assigned =>
    cases reserved with
    | nil =>
      rw [act_get_empty accounts.listEmpty_nil] at acts
      rw [← Option.some.inj acts]
      split
      · exact ⟨[], accounts⟩
      · rename_i answered
        exact ⟨[], accounts.get_nil (permits accounts.listEmpty_nil answered)⟩
    | cons value rest =>
      rw [act_get_first accounts.listEmpty_cons accounts.firstReserved_cons
        accounts.reserved_ne_null] at acts
      rw [← Option.some.inj acts]
      exact ⟨rest, accounts.get_cons⟩
  | setExtraSize value extraSize =>
    rw [← Option.some.inj acts]
    exact ⟨reserved, accounts.setExtraSize permits extraSize⟩
  | put value => exact accounts.put permits acts
  | setType value type =>
    rw [← Option.some.inj acts]
    exact ⟨reserved, accounts.store rfl⟩
  | setFlags value flags =>
    rw [← Option.some.inj acts]
    exact ⟨reserved, accounts.store (extraSize_of_setFlags permits)⟩
  | setWord value word =>
    rw [← Option.some.inj acts]
    exact ⟨reserved, accounts.store (extraSize_of_setWord permits)⟩
  | relink links =>
    rw [← Option.some.inj acts]
    refine ⟨reserved, accounts.pool.relink ?_, accounts.books⟩
    apply accounts.pool.ring.congr
    intro at' inside
    apply permits
    rcases List.mem_cons.1 inside with head | element
    · exact .inl head
    · obtain ⟨value, member, rfl⟩ := List.mem_map.1 element
      have held := (accounts.pool.cover value).2 (.inr member)
      exact .inr ⟨value, held, accounts.pool.apart value member, rfl⟩

/-- Every reachable heap has its accounts. -/
theorem of_reachable (reachable : (heapMachine checked).Reachable run) :
    ∃ reserved, Accounts run reserved := by
  apply reachable.invariant
  · rintro _ ⟨vReserved, nrMaxReserved, cells, links, rfl⟩
    exact ⟨[], Pool.start, Books.start⟩
  · rintro state action next _ ⟨reserved, accounts⟩ ⟨permits, acts⟩
    exact accounts.step permits acts

end Accounts

/-- What the statistics say about the live and the reserved variants. -/
structure Accounting (run : HeapRun) (reserved : List Nat) : Prop where
  /-- `sz_total_mem` is the memory of the constants, of the live and reserved variants, and of
  the extra sizes of the live variants that carry the flag, as far as `size_t` can hold it. -/
  totalMem : run.heap.stat.szTotalMem.toNat =
    (sizeofVariant.toNat * (4 + run.live.card + reserved.length) +
      ∑ value ∈ run.live.filter fun value => (run.heap.cells value).hasExtraSize,
        (run.heap.cells value).szPtr0.toNat) % 2 ^ 64
  /-- `nr_total_values` counts the live variants above its initial value. -/
  totalValues : run.heap.stat.nrTotalValues.toNat = 4 + run.live.card
  /-- `sz_total_mem` is the sum of `sz_mem` over all types. -/
  typesMem : run.heap.stat.szTotalMem.toNat =
    (∑ type, (run.heap.stat.szMem type).toNat) % 2 ^ 64
  /-- `v_reserved` is a list with the reserved variants as its elements. -/
  list : run.heap.links.Ring run.heap.vReserved (reserved.map node)
  /-- `nr_reserved` is the length of the list. -/
  reservedCount : run.heap.stat.nrReserved.toNat = reserved.length
  /-- The list is not longer than allowed. -/
  bounded : run.heap.stat.nrReserved ≤ run.heap.stat.nrMaxReserved
  /-- No variant is in the list twice. -/
  distinct : reserved.Nodup
  /-- No variant is both live and reserved. -/
  apart : ∀ value ∈ reserved, value ∉ run.live

/-- In every reachable state the statistics account for the live and the reserved variants. -/
theorem heap_accounting (checked : Bool) (run : HeapRun)
    (reachable : (heapMachine checked).Reachable run) : ∃ reserved, Accounting run reserved := by
  obtain ⟨reserved, pool, books⟩ := Accounts.of_reachable reachable
  have few := pool.card_le
  refine ⟨reserved, ?_, books.values.exact (by omega), books.types, pool.ring,
    books.reservedCount, books.bounded, ?_, pool.apart⟩
  · rw [Finset.sum_filter]
    exact books.memory
  · exact (List.nodup_cons.1 pool.ring.distinct).2.of_map node

/-- A heap after `_init_instance`. -/
def reuseStart : HeapRun := ⟨initInstance 64 32 (fun _ => .zero) ⟨id, id⟩, ∅⟩

/-- The heap after a string was handed out, put back, and handed out again as an object. -/
def reuseEnd : HeapRun :=
  Accounts.takenRun (Accounts.reservedRun (Accounts.newRun reuseStart 4096 .string .string) 4096)
    4096 .object .object

/-- The string is handed out. -/
theorem reuse_handedOut : ((heapMachine true).restrict Typed).step reuseStart
    (.get 4096 .string .string) (Accounts.newRun reuseStart 4096 .string .string) := by
  refine ⟨⟨fun _ _ => ⟨by decide, by decide, by simp [reuseStart, initInstance], by decide⟩, ?_⟩,
    rfl⟩
  exact Accounts.act_get_empty rfl 4096 .string .string

/-- The string is put back. -/
theorem reuse_putBack : ((heapMachine true).restrict Typed).step
    (Accounts.newRun reuseStart 4096 .string .string) (.put 4096)
    (Accounts.reservedRun (Accounts.newRun reuseStart 4096 .string .string) 4096) :=
  ⟨⟨⟨by decide, fun _ => rfl⟩, rfl⟩, trivial⟩

/-- The block is handed out for any type. -/
theorem reuse_again (type : VariantType) : ((heapMachine true).restrict Typed).step
    (Accounts.reservedRun (Accounts.newRun reuseStart 4096 .string .string) 4096)
    (.get null type type)
    (Accounts.takenRun (Accounts.reservedRun (Accounts.newRun reuseStart 4096 .string .string) 4096)
      4096 type type) :=
  ⟨⟨fun _ missing => absurd rfl missing,
    Accounts.act_get_first rfl rfl (by decide) null type type⟩, rfl⟩

/-- The heap can be reused so. -/
theorem reuseEnd_reachable : ((heapMachine true).restrict Typed).Reachable reuseEnd :=
  .step (.step (.step (.start ⟨_, _, _, _, rfl⟩) reuse_handedOut) reuse_putBack)
    (reuse_again .object)

/-- The statistics account for the reused variant. -/
theorem heap_accounting_reuse : ∃ reserved, Accounting reuseEnd reserved :=
  heap_accounting true reuseEnd reuseEnd_reachable.of_restrict

/-- The heap after a string was handed out and flagged for an extra size. -/
def flaggedRun : HeapRun :=
  let run := Accounts.newRun reuseStart 4096 .string .string
  { run with heap := run.heap.setCell 4096 { run.heap.cells 4096 with flags := flagExtraSize } }

/-- The heap after an extra size of all bits was set. -/
def overflowEnd : HeapRun :=
  { flaggedRun with heap := pcvariantStatSetExtraSize flaggedRun.heap 4096 0xFFFFFFFFFFFFFFFF }

/-- An extra size can be so large that `size_t` does not hold the memory that is accounted for. -/
theorem heap_accounting_overflow :
    (heapMachine true).Reachable overflowEnd ∧
      overflowEnd.heap.stat.szTotalMem.toNat ≠
        sizeofVariant.toNat *
            (4 + overflowEnd.live.card + overflowEnd.heap.stat.nrReserved.toNat) +
          ∑ value ∈ overflowEnd.live.filter fun value =>
              (overflowEnd.heap.cells value).hasExtraSize,
            (overflowEnd.heap.cells value).szPtr0.toNat := by
  have flag : (heapMachine true).step (Accounts.newRun reuseStart 4096 .string .string)
      (.setFlags 4096 flagExtraSize) flaggedRun := ⟨⟨by decide, .inl rfl⟩, rfl⟩
  have live : 4096 ∈ flaggedRun.live := by decide
  have grow : (heapMachine true).step flaggedRun (.setExtraSize 4096 0xFFFFFFFFFFFFFFFF)
      overflowEnd := ⟨live, rfl⟩
  exact ⟨.step (.step (.step (.start ⟨_, _, _, _, rfl⟩) reuse_handedOut.1) flag) grow, by decide⟩

end Bpcp.Purc
