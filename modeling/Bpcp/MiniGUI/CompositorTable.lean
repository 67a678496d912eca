import Bpcp.Lib.CString

/-!
# The table of compositors

The server keeps the operations of compositors in an array of eight named slots, the first of
which holds those of the fallback compositor. A slot with an empty name is free. The array
of a name has room for fifteen bytes: registering a compositor cuts its name off, while
lookup and removal compare the names of the slots with the name as it is given. Nothing keeps
a name from being registered twice.
-/

namespace Bpcp.MiniGUI

open Bpcp.Lib

/-- `LEN_COMPOSITOR_NAME`. -/
def lenCompositorName : Nat := 15

/-- `MAX_NR_COMPOSITORS`. -/
def maxNrCompositors : Nat := 8

/-- `COMPSOR_NAME_FALLBACK`. -/
def compsorNameFallback : CString := .lit "fallback"

/-- `COMPSOR_NAME_DEFAULT`. -/
def compsorNameDefault : CString := .lit "default"

/-- `name` of a slot. -/
structure CompositorName where
  /-- The bytes of the array. -/
  bytes : List UInt8
  /-- The last byte is never written and is NUL. -/
  terminated : bytes.drop lenCompositorName = [0]

namespace CompositorName

/-- The string that the array holds. -/
def text (name : CompositorName) : CString := .ofBytes name.bytes

/-- `name[0] == 0`. -/
def isEmpty (name : CompositorName) : Bool := name.bytes.head? == some 0

/-- An array of NULs. -/
def zeros : CompositorName := ⟨List.replicate (lenCompositorName + 1) 0, rfl⟩

/-- `strncpy` of at most `LEN_COMPOSITOR_NAME` bytes. -/
def copy (name : CompositorName) (src : CString) : CompositorName where
  bytes := strncpy name.bytes src lenCompositorName
  terminated := by rw [strncpy_drop, name.terminated]

/-- `name[0] = 0`. -/
def clear (name : CompositorName) : CompositorName where
  bytes := name.bytes.set 0 0
  terminated := by
    rw [List.drop_set_of_lt (by decide), name.terminated]

/-- A copy is cut off behind `LEN_COMPOSITOR_NAME` bytes. -/
@[simp] theorem copy_text (name : CompositorName) (src : CString) :
    (name.copy src).text.bytes = src.bytes.take lenCompositorName :=
  ofBytes_strncpy src name.terminated

/-- The array is not empty. -/
theorem bytes_cons (name : CompositorName) : ∃ first rest, name.bytes = first :: rest := by
  cases same : name.bytes with
  | nil =>
    have terminated := name.terminated
    rw [same] at terminated
    exact absurd terminated (by decide)
  | cons first rest => exact ⟨first, rest, rfl⟩

/-- The name is empty when it has no bytes in front of the first NUL. -/
theorem isEmpty_iff (name : CompositorName) : name.isEmpty = true ↔ name.text.bytes = [] := by
  obtain ⟨first, rest, bytes⟩ := name.bytes_cons
  by_cases zero : first = 0 <;> simp [isEmpty, text, CString.ofBytes, bytes, zero]

/-- A cleared name is empty. -/
@[simp] theorem clear_text (name : CompositorName) : name.clear.text.bytes = [] := by
  obtain ⟨first, rest, bytes⟩ := name.bytes_cons
  simp [clear, text, CString.ofBytes, bytes]

/-- A name has at most `LEN_COMPOSITOR_NAME` bytes. -/
theorem text_short (name : CompositorName) : name.text.strlen ≤ lenCompositorName := by
  have split := List.take_append_drop lenCompositorName name.bytes
  rw [name.terminated] at split
  change (name.bytes.takeWhile (· ≠ 0)).length ≤ lenCompositorName
  by_contra long
  -- Otherwise the last byte would be one of those in front of the first NUL.
  have front : name.bytes.takeWhile (· ≠ 0) <+: name.bytes := List.takeWhile_prefix _
  have size : name.bytes.length = lenCompositorName + 1 := by
    have rest := congrArg List.length name.terminated
    rw [List.length_drop, List.length_singleton] at rest
    omega
  have whole := front.eq_of_length (by have := front.length_le; omega)
  have member : (0 : UInt8) ∈ name.bytes.takeWhile (· ≠ 0) := by
    rw [whole, ← split]
    simp
  simpa using List.mem_takeWhile_imp member

end CompositorName

/-- `struct _compositors`. -/
structure CompositorSlot (Ops : Type) where
  /-- `name`. -/
  name : CompositorName
  /-- `ops`. -/
  ops : Option Ops

/-- `compositors`, the slots of the array. -/
abbrev Compositors (Ops : Type) := List (CompositorSlot Ops)

variable {Ops : Type}

/-- The initial value of `compositors`, with the operations of the fallback compositor. -/
def initialCompositors (mgFallbackCompositor : Ops) : Compositors Ops :=
  ⟨.copy .zeros compsorNameFallback, some mgFallbackCompositor⟩ ::
    List.replicate (maxNrCompositors - 1) ⟨.zeros, none⟩

/-- The loop of `ServerGetCompositorOps`. -/
def findCompositor (name : CString) : Compositors Ops → Option Ops
  | [] => none
  | slot :: rest => if strcmp slot.name.text name = 0 then slot.ops else findCompositor name rest

/-- A pointer to a string that is neither NULL nor empty. -/
def nonEmptyName (name : Option CString) : Option CString := name.filter (·.bytes ≠ [])

/-- The name of a function of the server is neither NULL nor empty. -/
theorem nonEmptyName_eq_some {name : Option CString} {text : CString} :
    nonEmptyName name = some text ↔ name = some text ∧ text.bytes ≠ [] := by
  rw [nonEmptyName, Option.filter_eq_some_iff]
  simp

/-- `ServerGetCompositorOps`. -/
def serverGetCompositorOps (compositors : Compositors Ops) (name : Option CString) : Option Ops :=
  match nonEmptyName name with
  | none => none
  | some name => findCompositor name compositors

/-- The loop of `ServerRegisterCompositor`, without a result when no slot is free. -/
def registerLoop (name : CString) (ops : Ops) : Compositors Ops → Option (Compositors Ops)
  | [] => none
  | slot :: rest =>
    if slot.name.isEmpty then some (⟨slot.name.copy name, some ops⟩ :: rest)
    else (registerLoop name ops rest).map (slot :: ·)

/-- `ServerRegisterCompositor`. -/
def serverRegisterCompositor (compositors : Compositors Ops) (name : Option CString)
    (ops : Option Ops) : Bool × Compositors Ops :=
  match nonEmptyName name, ops with
  | some name, some ops =>
    match registerLoop name ops compositors with
    | some compositors => (true, compositors)
    | none => (false, compositors)
  | _, _ => (false, compositors)

/-- The loop of `ServerUnregisterCompositor`, without a result when it removes nothing. -/
def unregisterLoop [DecidableEq Ops] (currOps : Option Ops) (name : CString) :
    Compositors Ops → Option (Compositors Ops)
  | [] => none
  | slot :: rest =>
    if strcmp slot.name.text name = 0 then
      if currOps = slot.ops then none else some (⟨slot.name.clear, none⟩ :: rest)
    else (unregisterLoop currOps name rest).map (slot :: ·)

/-- `ServerUnregisterCompositor`, where `currOps` are the operations that are selected. -/
def serverUnregisterCompositor [DecidableEq Ops] (compositors : Compositors Ops)
    (currOps : Option Ops) (name : Option CString) : Bool × Compositors Ops :=
  match nonEmptyName name with
  | none => (false, compositors)
  | some name =>
    if strcmp name compsorNameFallback = 0 then (false, compositors)
    else
      match unregisterLoop currOps name compositors with
      | some compositors => (true, compositors)
      | none => (false, compositors)

/-! ## Steps of the table -/

variable {table next : Compositors Ops} {name other : CString} {ops : Ops} {currOps : Option Ops}

/-- A registration takes the first free slot. -/
theorem registerLoop_cases (taken : registerLoop name ops table = some next) :
    ∃ front slot back, table = front ++ slot :: back ∧ slot.name.isEmpty = true ∧
      next = front ++ ⟨slot.name.copy name, some ops⟩ :: back := by
  induction table generalizing next with
  | nil => exact absurd taken (by simp [registerLoop])
  | cons slot rest ih =>
    rw [registerLoop] at taken
    split_ifs at taken with free
    · exact ⟨[], slot, rest, rfl, free, (Option.some.inj taken).symm⟩
    · obtain ⟨later, loop, rfl⟩ := Option.map_eq_some_iff.1 taken
      obtain ⟨front, found, back, rfl, free, rfl⟩ := ih loop
      exact ⟨slot :: front, found, back, rfl, free, rfl⟩

/-- A removal clears the first slot with the name, unless its operations are selected. -/
theorem unregisterLoop_cases [DecidableEq Ops]
    (removed : unregisterLoop currOps name table = some next) :
    ∃ front slot back, table = front ++ slot :: back ∧ slot.name.text = name ∧
      currOps ≠ slot.ops ∧ next = front ++ ⟨slot.name.clear, none⟩ :: back := by
  induction table generalizing next with
  | nil => exact absurd removed (by simp [unregisterLoop])
  | cons slot rest ih =>
    rw [unregisterLoop] at removed
    split_ifs at removed with named selected
    · exact ⟨[], slot, rest, rfl, strcmp_eq_zero.1 named, selected, (Option.some.inj removed).symm⟩
    · obtain ⟨later, loop, rfl⟩ := Option.map_eq_some_iff.1 removed
      obtain ⟨front, found, back, rfl, same, apart, rfl⟩ := ih loop
      exact ⟨slot :: front, found, back, rfl, same, apart, rfl⟩

/-- What is found is in a slot with the name. -/
theorem findCompositor_cases (found : findCompositor name table = some ops) :
    ∃ slot ∈ table, slot.name.text = name ∧ slot.ops = some ops := by
  induction table with
  | nil => exact absurd found (by simp [findCompositor])
  | cons slot rest ih =>
    rw [findCompositor] at found
    split_ifs at found with named
    · exact ⟨slot, List.mem_cons_self, strcmp_eq_zero.1 named, found⟩
    · obtain ⟨inner, member, same⟩ := ih found
      exact ⟨inner, List.mem_cons_of_mem _ member, same⟩

/-- Nothing is found under a name that does not fit into a slot. -/
theorem findCompositor_short (found : findCompositor name table = some ops) :
    name.strlen ≤ lenCompositorName := by
  obtain ⟨slot, -, rfl, -⟩ := findCompositor_cases found
  exact slot.name.text_short

/-- A free slot is in front of every slot with the name. -/
def FreeInFront (name : CString) : Compositors Ops → Prop
  | [] => False
  | slot :: rest => slot.name.isEmpty = true ∨ slot.name.text ≠ name ∧ FreeInFront name rest

/-- A compositor that is registered under a name, in front of all others with that name, is
found under it. -/
theorem registerLoop_find_new (taken : registerLoop other ops table = some next)
    (named : other.bytes.take lenCompositorName = name.bytes) (front : FreeInFront name table) :
    findCompositor name next = some ops := by
  induction table generalizing next with
  | nil => exact front.elim
  | cons slot rest ih =>
    rw [registerLoop] at taken
    split_ifs at taken with free
    · have same : (slot.name.copy other).text = name := CString.ext (by simpa using named)
      rw [← Option.some.inj taken, findCompositor, if_pos (strcmp_eq_zero.2 same)]
    · obtain ⟨later, loop, rfl⟩ := Option.map_eq_some_iff.1 taken
      obtain ⟨apart, inner⟩ := front.resolve_left free
      rw [findCompositor, if_neg (fun zero => apart (strcmp_eq_zero.1 zero))]
      exact ih loop inner

/-- A registration under another name, or behind a slot with the name, changes nothing for the
name. -/
theorem registerLoop_find_old (taken : registerLoop other ops table = some next)
    (nonEmpty : name.bytes ≠ [])
    (behind : ¬(other.bytes.take lenCompositorName = name.bytes ∧ FreeInFront name table)) :
    findCompositor name next = findCompositor name table := by
  induction table generalizing next with
  | nil => exact absurd taken (by simp [registerLoop])
  | cons slot rest ih =>
    rw [registerLoop] at taken
    split_ifs at taken with free
    · have differs : (slot.name.copy other).text ≠ name := by
        intro same
        refine behind ⟨?_, Or.inl free⟩
        rw [← same, CompositorName.copy_text]
      have unnamed : slot.name.text ≠ name := by
        intro same
        rw [CompositorName.isEmpty_iff, same] at free
        exact nonEmpty free
      rw [← Option.some.inj taken, findCompositor, findCompositor,
        if_neg (fun zero => differs (strcmp_eq_zero.1 zero)),
        if_neg (fun zero => unnamed (strcmp_eq_zero.1 zero))]
    · obtain ⟨later, loop, rfl⟩ := Option.map_eq_some_iff.1 taken
      rw [findCompositor, findCompositor]
      split_ifs with named
      · rfl
      · apply ih loop
        intro both
        exact behind ⟨both.1, Or.inr ⟨fun same => named (strcmp_eq_zero.2 same), both.2⟩⟩

/-- A removal under another name changes nothing for the name. -/
theorem unregisterLoop_find [DecidableEq Ops]
    (removed : unregisterLoop currOps other table = some next) (nonEmpty : name.bytes ≠ [])
    (apart : other ≠ name) :
    findCompositor name next = findCompositor name table := by
  induction table generalizing next with
  | nil => exact absurd removed (by simp [unregisterLoop])
  | cons slot rest ih =>
    rw [unregisterLoop] at removed
    split_ifs at removed with named selected
    · have cleared : slot.name.clear.text ≠ name := by
        intro same
        rw [← same, CompositorName.clear_text] at nonEmpty
        exact nonEmpty rfl
      have unnamed : slot.name.text ≠ name := by
        rw [strcmp_eq_zero.1 named]
        exact apart
      rw [← Option.some.inj removed, findCompositor, findCompositor,
        if_neg (fun zero => cleared (strcmp_eq_zero.1 zero)),
        if_neg (fun zero => unnamed (strcmp_eq_zero.1 zero))]
    · obtain ⟨later, loop, rfl⟩ := Option.map_eq_some_iff.1 removed
      rw [findCompositor, findCompositor, ih loop]

end Bpcp.MiniGUI
