import Mathlib

/-!
# Buffers that remember their writes

A buffer is memory from a pointer on, without an end, and the indices that were written. So
a function that writes past the end of a buffer is total, and what it does there can be
read off. A part of a buffer is a buffer again, and what a function does to the part is put
back into the whole.
-/

namespace Bpcp.Lib

/-- Memory from a pointer on. -/
structure Buffer (α : Type*) where
  /-- What is at an index. -/
  read : ℕ → α
  /-- The indices that were written, the last one first. -/
  written : List ℕ

namespace Buffer

variable {α : Type*} {buffer : Buffer α} {start index : ℕ} {values : List α}

/-- A value is written. -/
def set (buffer : Buffer α) (index : ℕ) (value : α) : Buffer α where
  read := Function.update buffer.read index value
  written := index :: buffer.written

/-- The written value is read back. -/
@[simp] theorem set_read_self (value : α) : (buffer.set index value).read index = value :=
  Function.update_self _ _ _

/-- Other indices keep their values. -/
theorem set_read_of_ne (value : α) {other : ℕ} (apart : other ≠ index) :
    (buffer.set index value).read other = buffer.read other := Function.update_of_ne apart _ _

/-- The index is remembered. -/
@[simp] theorem set_written (value : α) :
    (buffer.set index value).written = index :: buffer.written := rfl

/-- The part of a buffer from an index on. -/
def window (buffer : Buffer α) (start : ℕ) : Buffer α where
  read := fun index => buffer.read (start + index)
  written := []

/-- What happened to a part of a buffer happens to the buffer. -/
def patch (buffer : Buffer α) (start : ℕ) (part : Buffer α) : Buffer α where
  read := fun index => if start ≤ index then part.read (index - start) else buffer.read index
  written := part.written.map (start + ·) ++ buffer.written

/-- Values are written one after the other. -/
def store (buffer : Buffer α) (start : ℕ) : List α → Buffer α
  | [] => buffer
  | value :: rest => (buffer.set start value).store (start + 1) rest

/-- Indices before and behind the stored values keep theirs. -/
theorem store_read_outside (outside : index < start ∨ start + values.length ≤ index) :
    (buffer.store start values).read index = buffer.read index := by
  induction values generalizing buffer start with
  | nil => rfl
  | cons value rest ih =>
    rw [List.length_cons] at outside
    rw [store, ih (by omega), set_read_of_ne value (by omega)]

/-- The stored values are read back. -/
theorem store_read_inside (inside : index < values.length) :
    (buffer.store start values).read (start + index) = values[index] := by
  induction values generalizing buffer start index with
  | nil => exact absurd inside (Nat.not_lt_zero _)
  | cons value rest ih =>
    cases index with
    | zero =>
      rw [store, store_read_outside (by omega), Nat.add_zero, set_read_self]
      rfl
    | succ index =>
      have shifted : start + (index + 1) = start + 1 + index := by omega
      rw [store, shifted, ih (by simpa using inside)]
      rfl

/-- Lists are stored one behind the other. -/
theorem store_append (first second : List α) :
    buffer.store start (first ++ second) =
      (buffer.store start first).store (start + first.length) second := by
  induction first generalizing buffer start with
  | nil => rfl
  | cons value rest ih =>
    rw [List.cons_append, store, ih, store, List.length_cons, Nat.add_right_comm]
    rfl

/-- The indices of the stored values are written. -/
theorem mem_store_written :
    index ∈ (buffer.store start values).written ↔
      index ∈ buffer.written ∨ start ≤ index ∧ index < start + values.length := by
  induction values generalizing buffer start with
  | nil => simp [store]
  | cons value rest ih =>
    rw [store, ih, set_written, List.mem_cons, List.length_cons]
    have split : index = start ∨ start + 1 ≤ index ∧ index < start + 1 + rest.length ↔
        start ≤ index ∧ index < start + (rest.length + 1) := by omega
    rw [← split, or_assoc, or_left_comm]

/-- The values at the first indices. -/
def take (buffer : Buffer α) (count : ℕ) : List α := (List.range count).map buffer.read

/-- There are as many values as indices. -/
@[simp] theorem take_length (buffer : Buffer α) (count : ℕ) :
    (buffer.take count).length = count := by rw [take, List.length_map, List.length_range]

/-- One more value. -/
theorem take_succ (buffer : Buffer α) (count : ℕ) :
    buffer.take (count + 1) = buffer.take count ++ [buffer.read count] := by
  rw [take, List.range_succ, List.map_append]
  rfl

/-- Values that are stored behind the first indices come behind their values. -/
theorem take_store (buffer : Buffer α) (count : ℕ) (values : List α) :
    (buffer.store count values).take (count + values.length) = buffer.take count ++ values := by
  apply List.ext_getElem
  · rw [List.length_append, take_length, take_length]
  · intro index inside _
    rw [take_length] at inside
    rw [List.getElem_append]
    split
    next front =>
      rw [take_length] at front
      simp only [take, List.getElem_map, List.getElem_range]
      exact store_read_outside (Or.inl front)
    next behind =>
      rw [take_length, not_lt] at behind
      obtain ⟨offset, rfl⟩ := Nat.exists_eq_add_of_le behind
      have stored : offset < values.length := by omega
      simp only [take, List.getElem_map, List.getElem_range, List.length_map,
        List.length_range, Nat.add_sub_cancel_left]
      exact store_read_inside stored

end Buffer

end Bpcp.Lib
