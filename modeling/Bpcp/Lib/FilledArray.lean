import Mathlib

/-!
# Arrays filled from the front

A function of C often fills an array through an index or a pointer that moves by one with each
assignment. The values stored so far are then a prefix of the array, and an assignment behind
them makes a longer prefix. An assignment outside the array has no result. An array that is
full is moved to a larger block of memory, where the stored values are a prefix again.
-/

namespace Bpcp.Lib

variable {α : Type*} {array stored : List α} {index : ℕ}

/-- An assignment to an element of an array. -/
def assignAt (array : List α) (index : ℕ) (value : α) : Option (List α) :=
  if index < array.length then some (array.set index value) else none

/-- An element behind others is assigned. -/
theorem assignAt_append (front : List α) (old value : α) (rest : List α) :
    assignAt (front ++ old :: rest) front.length value = some (front ++ value :: rest) := by
  have inside : front.length < (front ++ old :: rest).length := by simp
  rw [assignAt, if_pos inside, List.set_append_right _ _ le_rfl, Nat.sub_self]
  rfl

/-- Behind the values stored so far another one is stored. -/
theorem assignAt_behind (front : stored <+: array) (inside : stored.length < array.length)
    (value : α) :
    ∃ after, assignAt array stored.length value = some after ∧ after.length = array.length ∧
      stored ++ [value] <+: after := by
  obtain ⟨rest, rfl⟩ := front
  cases rest with
  | nil =>
    rw [List.append_nil] at inside
    exact absurd inside (lt_irrefl _)
  | cons old rest =>
    refine ⟨_, assignAt_append stored old value rest, by simp, rest, ?_⟩
    rw [List.append_assoc]
    rfl

/-- Behind the values stored so far two more are stored. -/
theorem assignAt_behind_two (front : stored <+: array)
    (inside : stored.length + 1 < array.length) (first second : α) :
    ∃ middle after, assignAt array stored.length first = some middle ∧
      assignAt middle (stored.length + 1) second = some after ∧ after.length = array.length ∧
      stored ++ [first, second] <+: after := by
  obtain ⟨middle, assigned, size, grown⟩ :=
    assignAt_behind front (Nat.lt_of_succ_lt inside) first
  have place : (stored ++ [first]).length = stored.length + 1 := by
    rw [List.length_append, List.length_singleton]
  obtain ⟨after, again, sizeAfter, whole⟩ :=
    assignAt_behind grown (by rw [place, size]; exact inside) second
  rw [place] at again
  rw [List.append_assoc] at whole
  exact ⟨middle, after, assigned, again, sizeAfter.trans size, whole⟩

/-! ## Arrays with a capacity -/

/-- An array of a capacity begins with a number of stored values. -/
structure Filled (stored array : List α) (count capacity : ℕ) : Prop where
  /-- The stored values. -/
  front : stored <+: array
  /-- Their number. -/
  count_eq : count = stored.length
  /-- The capacity. -/
  capacity_eq : array.length = capacity

variable {count capacity : ℕ}

/-- There are no more values than the array can hold. -/
theorem Filled.count_le (filled : Filled stored array count capacity) : count ≤ capacity := by
  rw [filled.count_eq, ← filled.capacity_eq]
  exact filled.front.length_le

/-- The stored values are read back. -/
theorem Filled.take (filled : Filled stored array count capacity) : array.take count = stored := by
  rw [filled.count_eq]
  exact (List.prefix_iff_eq_take.1 filled.front).symm

/-- Another value is stored where there is room. -/
theorem Filled.push (filled : Filled stored array count capacity) (room : count < capacity)
    (value : α) :
    ∃ after, assignAt array count value = some after ∧
      Filled (stored ++ [value]) after (count + 1) capacity := by
  rw [filled.count_eq, ← filled.capacity_eq] at room
  obtain ⟨after, assigned, size, front⟩ := assignAt_behind filled.front room value
  rw [← filled.count_eq] at assigned
  refine ⟨after, assigned, front, ?_, size.trans filled.capacity_eq⟩
  rw [filled.count_eq, List.length_append, List.length_singleton]

/-! ## Arrays that grow -/

/-- `malloc` and `realloc`, for blocks of elements. A block is as long as was asked for and may
hold anything, but a block that is moved keeps its elements. -/
structure Allocator (α : Type*) where
  /-- `malloc`. -/
  malloc : ℕ → Option (List α)
  /-- `realloc`. -/
  realloc : List α → ℕ → Option (List α)
  /-- The length of a new block. -/
  malloc_length : ∀ {size block}, malloc size = some block → block.length = size
  /-- The length of a moved block. -/
  realloc_length : ∀ {block size moved}, realloc block size = some moved → moved.length = size
  /-- The elements of a moved block. -/
  realloc_keeps : ∀ {block size moved}, realloc block size = some moved →
    block.take size <+: moved

namespace Allocator

variable {allocator : Allocator α} {block moved : List α} {size : ℕ}

/-- Memory never runs out. -/
structure Unlimited (allocator : Allocator α) : Prop where
  /-- A new block is there. -/
  malloc : ∀ size, allocator.malloc size ≠ none
  /-- A moved block is there. -/
  realloc : ∀ block size, allocator.realloc block size ≠ none

/-- The stored values stay when the array moves to a larger block. -/
theorem filled_move (filled : Filled stored block count capacity) (larger : capacity ≤ size)
    (found : allocator.realloc block size = some moved) : Filled stored moved count size where
  front := by
    have fits : stored.length ≤ size := by
      rw [← filled.count_eq]
      exact filled.count_le.trans larger
    have kept : stored <+: block.take size := by
      rw [List.prefix_take_iff]
      exact ⟨filled.front, fits⟩
    exact kept.trans (allocator.realloc_keeps found)
  count_eq := filled.count_eq
  capacity_eq := allocator.realloc_length found

/-- An allocator that fills new memory with one value. -/
def filling (value : α) : Allocator α where
  malloc := fun size => some (List.replicate size value)
  realloc := fun block size =>
    some (block.take size ++ List.replicate (size - block.length) value)
  malloc_length := by
    intro size block found
    rw [← Option.some.inj found, List.length_replicate]
  realloc_length := by
    intro block size moved found
    rw [← Option.some.inj found, List.length_append, List.length_take, List.length_replicate]
    omega
  realloc_keeps := by
    intro block size moved found
    rw [← Option.some.inj found]
    exact List.prefix_append _ _

/-- Such memory never runs out. -/
theorem filling_unlimited (value : α) : (filling value).Unlimited where
  malloc := fun _ => Option.some_ne_none _
  realloc := fun _ _ => Option.some_ne_none _

end Allocator

end Bpcp.Lib
