import Bpcp.Purc.HeapCleanup

/-!
# References to variants

A variant that is made has one reference. Its holders add and give up references, and the last one
releases it: the count drops to zero, the function for its type releases what the variant has, and
the variant is put back into the heap. Such a function gives up other references, so several
releases may be under way, one inside the other. The constants of a heap are counted too, but they
are never released.

A run of the references mixes these steps with what the holders of a variant do to it. Holders
only use variants that they hold a reference to, and there are fewer than `2 ^ 32` references to
each variant.
-/

namespace Bpcp.Purc

open Bpcp.Lib

/-- The constants of `struct pcvariant_heap`. -/
inductive ConstantVariant where
  /-- `v_undefined`. -/
  | undefined
  /-- `v_null`. -/
  | null
  /-- `v_false`. -/
  | false
  /-- `v_true`. -/
  | true
deriving DecidableEq

/-- What a `purc_variant_t` points to. -/
inductive VariantPointer where
  /-- A constant of the heap. -/
  | constant (which : ConstantVariant)
  /-- A variant that the heap handed out. -/
  | block (value : Nat)
deriving DecidableEq

/-- `PCVRNT_FLAG_NOFREE`. -/
def flagNofree : UInt16 := 1

/-- There is a function in `variant_releasers` for the type. -/
def hasReleaser : VariantType → Bool
  | .string | .bsequence | .native | .object | .array | .set | .tuple => true
  | _ => false

/-- A heap and the reference counts of the variants in memory. -/
structure RefHeap where
  /-- The heap. -/
  heap : VariantHeap
  /-- `refc`. -/
  refc : VariantPointer → UInt32

namespace RefHeap

/-- A reference count is stored. -/
def count (state : RefHeap) (value : VariantPointer) (refc : UInt32) : RefHeap :=
  { state with refc := Function.update state.refc value refc }

/-- The block to release, when there is no reference and the flags allow it. The constants carry
`PCVRNT_FLAG_NOFREE`. -/
def releasable (state : RefHeap) : VariantPointer → Option Nat
  | .constant _ => none
  | .block value =>
    if state.refc (.block value) = 0 ∧ (state.heap.cells value).flags &&& flagNofree = 0 then
      some value
    else none

end RefHeap

/-- `purc_variant_ref_count`. There is no result when an assertion fails. -/
def purcVariantRefCount (checked : Bool) (state : RefHeap) (value : VariantPointer) :
    Option UInt32 :=
  if state.refc value = 0 then if checked then none else some 0
  else some (state.refc value)

/-- `purc_variant_ref`, the result and the heap. -/
def purcVariantRef (checked : Bool) (state : RefHeap) (value : VariantPointer) :
    Option (Option VariantPointer × RefHeap) :=
  if state.refc value = 0 then if checked then none else some (none, state)
  else some (some value, state.count value (state.refc value + 1))

/-- `purc_variant_unref`, the result and the heap, with the functions in `variant_releasers`. -/
def purcVariantUnref (checked : Bool) (release : RefHeap → Nat → Option RefHeap)
    (state : RefHeap) (value : VariantPointer) : Option (UInt32 × RefHeap) :=
  if state.refc value = 0 then if checked then none else some (0, state)
  else
    let state := state.count value (state.refc value - 1)
    match state.releasable value with
    | none => some (state.refc value, state)
    | some block => do
      let state ←
        if hasReleaser (state.heap.cells block).type then release state block else some state
      let heap ← pcvariantPut checked state.heap block
      some (0, { state with heap := heap })

/-- `purc_variant_usage_stat`. -/
def purcVariantUsageStat (state : RefHeap) : VariantStat :=
  let count (which : ConstantVariant) : UInt64 := (state.refc (.constant which)).toUInt64
  { state.heap.stat with
    nrValues :=
      Function.update (Function.update (Function.update state.heap.stat.nrValues
        .undefined (count .undefined)) .null (count .null)) .boolean (count .true + count .false) }

/-! ## Runs -/

/-- The references of a heap, with those that are held and the releases that are under way. -/
structure RefRun where
  /-- The heap and the counts. -/
  state : RefHeap
  /-- The variants that were handed out and not put back. -/
  live : Finset Nat
  /-- The number of references that are held. -/
  held : VariantPointer → ℕ
  /-- The variants that are being released, the innermost first. -/
  releasing : List Nat

/-- What happens to references. -/
inductive RefAction where
  /-- A variant is made: `pcvariant_get(type)` with an answer of the allocator, after which the
  type is stored and the count is one. -/
  | make (alloc : Nat) (type assigned : VariantType)
  /-- A constant is handed out with a new reference. -/
  | constant (which : ConstantVariant)
  /-- `purc_variant_ref`. -/
  | ref (value : VariantPointer)
  /-- `purc_variant_unref`, up to the call of a function that releases the variant. -/
  | unref (value : VariantPointer)
  /-- The innermost function that releases a variant is done, and the variant is put back. -/
  | finish
  /-- The holders of variants do something to them. -/
  | own (action : HeapAction)

/-- What the holders of variants do themselves. They do not mark a variant as a constant. -/
def HeapAction.OfHolder : HeapAction → Prop
  | .get _ _ _ | .put _ => False
  | .setFlags _ flags => flags &&& flagNofree = 0
  | _ => True

namespace RefRun

/-- The run of the heap. -/
def toHeapRun (run : RefRun) : HeapRun := ⟨run.state.heap, run.live⟩

/-- The heap goes on. -/
def withHeapRun (run : RefRun) (next : HeapRun) : RefRun :=
  { run with state := { run.state with heap := next.heap }, live := next.live }

/-- A count is stored for as many references. -/
def count (run : RefRun) (value : VariantPointer) (refc : UInt32) (held : ℕ) : RefRun :=
  { run with state := run.state.count value refc, held := Function.update run.held value held }

/-- The innermost release ends with `pcvariant_put`. -/
def finish (checked : Bool) (run : RefRun) : Option RefRun :=
  match run.releasing with
  | [] => none
  | value :: rest => do
    let next ← run.toHeapRun.act checked (.put value)
    some { run.withHeapRun next with releasing := rest }

/-- What an action leaves. -/
def act (checked : Bool) (run : RefRun) : RefAction → Option RefRun
  | .make alloc type assigned => do
    let value := (pcvariantGet run.state.heap alloc type).1
    let next ← run.toHeapRun.act checked (.get alloc type assigned)
    if value = null then some (run.withHeapRun next)
    else some ((run.withHeapRun next).count (.block value) 1 1)
  | .constant which =>
    let value := VariantPointer.constant which
    some (run.count value (run.state.refc value + 1) (run.held value + 1))
  | .ref value => do
    let (_, state) ← purcVariantRef checked run.state value
    some { run with state := state, held := Function.update run.held value (run.held value + 1) }
  | .unref value =>
    if run.state.refc value = 0 then if checked then none else some run
    else
      let run := run.count value (run.state.refc value - 1) (run.held value - 1)
      match run.state.releasable value with
      | none => some run
      | some block =>
        let run := { run with releasing := block :: run.releasing }
        if hasReleaser (run.state.heap.cells block).type then some run else run.finish checked
  | .finish => run.finish checked
  | .own action => (run.toHeapRun.act checked action).map run.withHeapRun

/-- A variant may be put back: it has no extra size. -/
def Emptied (run : RefRun) (value : Nat) : Prop :=
  (run.state.heap.cells value).hasExtraSize = true → (run.state.heap.cells value).szPtr0 = 0

/-- A container may be put back: it has no listeners. -/
def Unheard (run : RefRun) (value : Nat) : Prop :=
  isContainer (run.state.heap.cells value).type = true →
    listEmpty run.state.heap.links (node value) = true

/-- What the allocator, the holders of variants and the functions that release them promise. -/
def Permits (run : RefRun) : RefAction → Prop
  | .make alloc type assigned => Purc.Permits run.toHeapRun (.get alloc type assigned)
  | .constant which => run.held (.constant which) + 1 < 2 ^ 32
  | .ref value => 0 < run.held value ∧ run.held value + 1 < 2 ^ 32
  | .unref value =>
    0 < run.held value ∧ ∀ block, value = .block block → run.held value = 1 →
      hasReleaser (run.state.heap.cells block).type = false → run.Emptied block
  | .finish => ∀ value rest, run.releasing = value :: rest → run.Emptied value
  | .own action => Purc.Permits run.toHeapRun action ∧ action.OfHolder

end RefRun

/-- The runs of the references from `_init_instance` on. -/
def refMachine (checked : Bool) : Machine RefRun RefAction where
  start := fun run =>
    ∃ vReserved nrMaxReserved cells links refc, (∀ which, refc (.constant which) = 0) ∧
      run = ⟨⟨initInstance vReserved nrMaxReserved cells links, refc⟩, ∅, fun _ => 0, []⟩
  step := fun run action next => run.Permits action ∧ run.act checked action = some next

/-! ## Counting -/

/-- The variant may be held. -/
def Alive (live : Finset Nat) : VariantPointer → Prop
  | .constant _ => True
  | .block value => value ∈ live

/-- The counts are the references that are held. -/
structure Counted (live : Finset Nat) (refc : VariantPointer → UInt32)
    (held : VariantPointer → ℕ) (releasing : List Nat) : Prop where
  /-- The count of a variant is the number of references to it. -/
  counts : ∀ value, Alive live value → (refc value).toNat = held value
  /-- There are references to live variants and constants only. -/
  dead : ∀ value, ¬Alive live value → held value = 0
  /-- The live variants without a reference are those that are being released. -/
  underWay : ∀ value, value ∈ releasing ↔ value ∈ live ∧ held (.block value) = 0
  /-- No variant is being released twice. -/
  distinct : releasing.Nodup

namespace Counted

variable {live : Finset Nat} {refc : VariantPointer → UInt32} {held : VariantPointer → ℕ}
  {releasing rest : List Nat} {value : VariantPointer} {block : Nat}

/-- Variants that are held are alive. -/
theorem alive (counted : Counted live refc held releasing) (holds : 0 < held value) :
    Alive live value := by
  by_contra gone
  exact holds.ne' (counted.dead value gone)

/-- Other positive counts are stored for as many references. -/
theorem recount (counted : Counted live refc held releasing) {stored : UInt32} {number : ℕ}
    (alive : Alive live value) (same : stored.toNat = number)
    (positive : ∀ block, value = .block block → (0 < held value ↔ 0 < number)) :
    Counted live (Function.update refc value stored) (Function.update held value number)
      releasing := by
  refine ⟨?_, ?_, ?_, counted.distinct⟩
  · intro other aliveToo
    by_cases hit : other = value
    · rw [hit, Function.update_self, Function.update_self, same]
    · rw [Function.update_of_ne hit, Function.update_of_ne hit]
      exact counted.counts other aliveToo
  · intro other gone
    have apart : other ≠ value := fun hit => gone (hit ▸ alive)
    rw [Function.update_of_ne apart]
    exact counted.dead other gone
  · intro other
    rw [counted.underWay]
    by_cases hit : VariantPointer.block other = value
    · have kept := positive other hit.symm
      rw [hit, Function.update_self]
      have zero : held value = 0 ↔ number = 0 := by omega
      rw [zero]
    · rw [Function.update_of_ne hit]

/-- A variant that is made has one reference. -/
theorem make (counted : Counted live refc held releasing) (new : block ∉ live) :
    Counted (insert block live) (Function.update refc (.block block) 1)
      (Function.update held (.block block) 1) releasing := by
  refine ⟨?_, ?_, ?_, counted.distinct⟩
  · intro other alive
    by_cases hit : other = .block block
    · rw [hit, Function.update_self, Function.update_self]
      rfl
    · rw [Function.update_of_ne hit, Function.update_of_ne hit]
      apply counted.counts
      cases other with
      | constant which => trivial
      | block held =>
        have apart : held ≠ block := fun same => hit (congrArg _ same)
        exact Finset.mem_of_mem_insert_of_ne alive apart
  · intro other gone
    have apart : other ≠ .block block := by
      intro hit
      rw [hit] at gone
      exact gone (Finset.mem_insert_self block live)
    rw [Function.update_of_ne apart]
    apply counted.dead
    intro alive
    apply gone
    cases other with
    | constant which => trivial
    | block held => exact Finset.mem_insert_of_mem alive
  · intro other
    rw [counted.underWay, Finset.mem_insert]
    by_cases hit : other = block
    · simp [hit, new]
    · have apart : VariantPointer.block other ≠ .block block := by
        intro same
        exact hit (VariantPointer.block.inj same)
      rw [Function.update_of_ne apart, or_iff_right hit]

/-- The last reference to a variant is given up. -/
theorem release (counted : Counted live refc held releasing) (alive : block ∈ live)
    (holds : 0 < held (.block block)) :
    Counted live (Function.update refc (.block block) 0) (Function.update held (.block block) 0)
      (block :: releasing) := by
  refine ⟨?_, ?_, ?_, ?_⟩
  · intro other aliveToo
    by_cases hit : other = .block block
    · rw [hit, Function.update_self, Function.update_self]
      rfl
    · rw [Function.update_of_ne hit, Function.update_of_ne hit]
      exact counted.counts other aliveToo
  · intro other gone
    have apart : other ≠ .block block := by
      intro hit
      rw [hit] at gone
      exact gone alive
    rw [Function.update_of_ne apart]
    exact counted.dead other gone
  · intro other
    rw [List.mem_cons, counted.underWay]
    by_cases hit : other = block
    · simp [hit, alive]
    · have apart : VariantPointer.block other ≠ .block block := by
        intro same
        exact hit (VariantPointer.block.inj same)
      rw [Function.update_of_ne apart, or_iff_right hit]
  · apply List.nodup_cons.2
    apply And.intro _ counted.distinct
    intro twice
    exact holds.ne' ((counted.underWay block).1 twice).2

/-- A variant that was released is put back. -/
theorem finish (counted : Counted live refc held (block :: rest)) :
    Counted (live.erase block) refc held rest := by
  have ⟨once, distinct⟩ := List.nodup_cons.1 counted.distinct
  have none := ((counted.underWay block).1 List.mem_cons_self).2
  refine ⟨?_, ?_, ?_, distinct⟩
  · intro other alive
    apply counted.counts
    cases other with
    | constant which => trivial
    | block held => exact Finset.mem_of_mem_erase alive
  · intro other gone
    by_cases hit : other = .block block
    · rw [hit]
      exact none
    · apply counted.dead
      intro alive
      apply gone
      cases other with
      | constant which => trivial
      | block held =>
        have apart : held ≠ block := fun same => hit (congrArg _ same)
        exact Finset.mem_erase.2 ⟨apart, alive⟩
  · intro other
    rw [Finset.mem_erase, and_assoc, ← counted.underWay, List.mem_cons]
    constructor
    · intro inside
      have apart : other ≠ block := fun same => once (same ▸ inside)
      exact ⟨apart, Or.inr inside⟩
    · intro ⟨apart, inside⟩
      exact inside.resolve_left apart

end Counted

end Bpcp.Purc
