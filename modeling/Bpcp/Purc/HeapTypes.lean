import Bpcp.Purc.HeapAccount

/-!
# The statistics of each type

The memory of a type counts the blocks that were allocated for it, not the variants that
have it. A reserved variant that is handed out for another type stays charged to the type it
was last used for, so the statistics of a type are truthful as long as every reserved
variant is reused for its own type and the counters do not overflow.
-/

namespace Bpcp.Purc

open Bpcp.Lib

/-- A type whose values are all allocated. -/
def Allocated (type : VariantType) : Prop :=
  type ≠ .undefined ∧ type ≠ .null ∧ type ≠ .boolean

/-- The memory of every type has room for its values. -/
def Truthful (run : HeapRun) : Prop :=
  ∀ type, Allocated type → sizeofVariant.toNat * (run.heap.stat.nrValues type).toNat ≤
    (run.heap.stat.szMem type).toNat

/-- What an action subtracts from `sz_mem`, and for which type. -/
def subtraction (run : HeapRun) : HeapAction → Option (VariantType × UInt64)
  | .setExtraSize value _ =>
    let cell := run.heap.cells value
    if cell.hasExtraSize then some (cell.type, cell.szPtr0) else none
  | .put value =>
    if run.heap.stat.nrMaxReserved ≤ run.heap.stat.nrReserved then
      some ((run.heap.cells value).type, sizeofVariant)
    else none
  | _ => none

/-- A reserved variant is reused for its own type, and no addition to `sz_mem` overflows. -/
def Attributed (run : HeapRun) : HeapAction → Prop
  | .get alloc type _ =>
    if listEmpty run.heap.links run.heap.vReserved then
      alloc ≠ null → (run.heap.stat.szMem type).toNat + sizeofVariant.toNat < 2 ^ 64
    else (run.heap.cells (firstReserved run.heap)).type = type
  | .setExtraSize value extraSize =>
    let cell := run.heap.cells value
    cell.hasExtraSize = true →
      (run.heap.stat.szMem cell.type - cell.szPtr0).toNat + extraSize.toNat < 2 ^ 64
  | _ => True

/-! ## The ledger -/

/-- The variants of a set that have a type. -/
def ofType (cells : Nat → Cell) (set : Finset Nat) (type : VariantType) : Finset Nat :=
  set.filter fun value => (cells value).type = type

/-- Every type is charged for its blocks and for the extra sizes of its live variants. -/
structure Ledger (stat : VariantStat) (cells : Nat → Cell) (allocated live : Finset Nat) :
    Prop where
  /-- The memory of a type. -/
  memory : ∀ type, (stat.szMem type).toNat = (initSzMem type).toNat +
    64 * (ofType cells allocated type).card + extras cells (ofType cells live type)
  /-- The number of values of a type. -/
  values : ∀ type, (stat.nrValues type).toNat = (ofType cells live type).card

section OfType

variable {cells changed : Nat → Cell} {set : Finset Nat} {value : Nat} {type : VariantType}

/-- The variants of a type only depend on the types. -/
theorem ofType_congr (same : ∀ held ∈ set, (changed held).type = (cells held).type) :
    ofType changed set type = ofType cells set type :=
  Finset.filter_congr fun held member => by rw [same held member]

/-- A variant that is added has its type. -/
theorem ofType_insert (new : value ∉ set)
    (same : ∀ held, held ≠ value → changed held = cells held) :
    ofType changed (insert value set) type =
      if (changed value).type = type then insert value (ofType cells set type)
      else ofType cells set type := by
  have rest : ofType changed set type = ofType cells set type := by
    apply ofType_congr
    intro held member
    have apart : held ≠ value := fun hit => new (hit ▸ member)
    rw [same held apart]
  rw [ofType, Finset.filter_insert, ← ofType, rest]

/-- A variant that is taken away had its type. -/
theorem ofType_erase : ofType cells (set.erase value) type = (ofType cells set type).erase value :=
  Finset.filter_erase _ _ _

/-- A variant that is taken away leaves the other types. -/
theorem ofType_erase_of_ne (other : (cells value).type ≠ type) :
    ofType cells (set.erase value) type = ofType cells set type := by
  rw [ofType_erase, Finset.erase_eq_of_notMem]
  exact fun inside => other (Finset.mem_filter.1 inside).2

/-- One fewer variant has the type of the one that is taken away. -/
theorem card_ofType_erase (cells : Nat → Cell) (member : value ∈ set) :
    (ofType cells (set.erase value) (cells value).type).card + 1 =
      (ofType cells set (cells value).type).card := by
  rw [ofType_erase]
  exact Finset.card_erase_add_one (Finset.mem_filter.2 ⟨member, rfl⟩)

end OfType

namespace Ledger

variable {stat : VariantStat} {cells changed : Nat → Cell} {allocated live : Finset Nat}
  {value : Nat} {type : VariantType}

/-- Extra sizes of a type stay when a variant without one is handed out. -/
theorem extras_insert_ofType (new : value ∉ live) (none : (changed value).extraSize = 0)
    (same : ∀ held, held ≠ value → changed held = cells held) (type : VariantType) :
    extras changed (ofType changed (insert value live) type) =
      extras cells (ofType cells live type) := by
  have absent : value ∉ ofType cells live type := fun inside => new (Finset.mem_filter.1 inside).1
  rw [ofType_insert new same]
  split
  · exact extras_insert absent none same
  · apply extras_congr
    intro held inside
    have apart : held ≠ value := fun hit => absent (hit ▸ inside)
    rw [same held apart]

/-- The values of a type are counted when a variant is handed out. -/
theorem values_insert (ledger : Ledger stat cells allocated live) (new : value ∉ live)
    (typed : (changed value).type = type)
    (same : ∀ held, held ≠ value → changed held = cells held) (few : live.card ≤ 2 ^ 58)
    (other : VariantType) :
    ((stat.countIn type).nrValues other).toNat =
      (ofType changed (insert value live) other).card := by
  have absent : value ∉ ofType cells live other := fun inside => new (Finset.mem_filter.1 inside).1
  have count := ledger.values other
  rw [ofType_insert new same, typed]
  change (Function.update stat.nrValues type (stat.nrValues type + 1) other).toNat = _
  by_cases hit : other = type
  · have fits : (ofType cells live other).card ≤ live.card := Finset.card_filter_le _ _
    have one : (1 : UInt64).toNat = 1 := rfl
    subst hit
    rw [Function.update_self, if_pos rfl, Finset.card_insert_of_notMem absent, UInt64.toNat_add,
      count, one, Nat.mod_eq_of_lt (by omega)]
  · rw [Function.update_of_ne hit, if_neg (Ne.symm hit), count]

/-- The values of a type are no longer counted when a variant is put back. -/
theorem values_erase (ledger : Ledger stat cells allocated live) (member : value ∈ live)
    (other : VariantType) :
    ((stat.countOut (cells value).type).nrValues other).toNat =
      (ofType cells (live.erase value) other).card := by
  have count := ledger.values other
  change (Function.update stat.nrValues (cells value).type
    (stat.nrValues (cells value).type - 1) other).toNat = _
  by_cases hit : other = (cells value).type
  · have fewer := card_ofType_erase cells member
    have one : (1 : UInt64).toNat = 1 := rfl
    subst hit
    have enough : (1 : UInt64) ≤ stat.nrValues (cells value).type := by
      rw [UInt64.le_iff_toNat_le, count]
      omega
    rw [Function.update_self, UInt64.toNat_sub_of_le _ _ enough, count, one]
    omega
  · rw [Function.update_of_ne hit, ofType_erase_of_ne (Ne.symm hit), count]

/-- Extra sizes of a type stay when a variant without one is put back. -/
theorem extras_erase_ofType (none : (cells value).extraSize = 0) (type : VariantType) :
    extras cells (ofType cells (live.erase value) type) =
      extras cells (ofType cells live type) := by
  rw [ofType_erase]
  exact extras_erase none

/-- A new block is charged to its type. -/
theorem allocate (ledger : Ledger stat cells allocated live) (unused : value ∉ allocated)
    (new : value ∉ live) (typed : (changed value).type = type)
    (none : (changed value).extraSize = 0)
    (same : ∀ held, held ≠ value → changed held = cells held) (few : live.card ≤ 2 ^ 58)
    (fits : (stat.szMem type).toNat + sizeofVariant.toNat < 2 ^ 64) :
    Ledger ((stat.charge type sizeofVariant).countIn type) changed (insert value allocated)
      (insert value live) := by
  refine ⟨fun other => ?_, ledger.values_insert new typed same few⟩
  have memory := ledger.memory other
  have absent : value ∉ ofType cells allocated other :=
    fun inside => unused (Finset.mem_filter.1 inside).1
  rw [extras_insert_ofType new none same, ofType_insert unused same, typed]
  change (Function.update stat.szMem type (stat.szMem type + sizeofVariant) other).toNat = _
  by_cases hit : other = type
  · have size : sizeofVariant.toNat = 64 := rfl
    subst hit
    rw [Function.update_self, if_pos rfl, Finset.card_insert_of_notMem absent, UInt64.toNat_add,
      Nat.mod_eq_of_lt fits, memory, size]
    omega
  · rw [Function.update_of_ne hit, if_neg (Ne.symm hit), memory]

/-- A reserved variant of the type is already charged. -/
theorem take (ledger : Ledger stat cells allocated live) (new : value ∉ live)
    (typed : (cells value).type = type) (kept : (changed value).type = type)
    (none : (changed value).extraSize = 0)
    (same : ∀ held, held ≠ value → changed held = cells held) (few : live.card ≤ 2 ^ 58)
    (nrReserved : UInt64) :
    Ledger ({ stat with nrReserved := nrReserved }.countIn type) changed allocated
      (insert value live) := by
  refine ⟨fun other => ?_, ledger.values_insert new kept same few⟩
  have types : ofType changed allocated other = ofType cells allocated other := by
    apply ofType_congr
    intro held _
    by_cases hit : held = value
    · rw [hit, kept, typed]
    · rw [same held hit]
  rw [extras_insert_ofType new none same, types]
  exact ledger.memory other

/-- A type is charged for each of its blocks. -/
theorem charged (ledger : Ledger stat cells allocated live) (member : value ∈ allocated) :
    sizeofVariant ≤ stat.szMem (cells value).type := by
  have size : sizeofVariant.toNat = 64 := rfl
  have one := card_ofType_erase cells member
  rw [UInt64.le_iff_toNat_le, ledger.memory, size]
  omega

/-- A type is charged for the extra size of each of its live variants. -/
theorem extra_charged (ledger : Ledger stat cells allocated live) (member : value ∈ live) :
    (cells value).extraSize ≤ (stat.szMem (cells value).type).toNat := by
  have inside : value ∈ ofType cells live (cells value).type :=
    Finset.mem_filter.2 ⟨member, rfl⟩
  have part := Finset.single_le_sum (f := fun held => (cells held).extraSize)
    (fun _ _ => Nat.zero_le _) inside
  have memory := ledger.memory (cells value).type
  change _ ≤ extras cells (ofType cells live (cells value).type) at part
  omega

/-- A freed variant is discharged from its type. -/
theorem free (ledger : Ledger stat cells allocated live) (held : value ∈ allocated)
    (member : value ∈ live) (none : (cells value).extraSize = 0) :
    Ledger ((stat.countOut (cells value).type).discharge (cells value).type sizeofVariant) cells
      (allocated.erase value) (live.erase value) := by
  refine ⟨fun other => ?_, ledger.values_erase member⟩
  have memory := ledger.memory other
  rw [extras_erase_ofType none]
  change (Function.update stat.szMem (cells value).type
    (stat.szMem (cells value).type - sizeofVariant) other).toNat = _
  by_cases hit : other = (cells value).type
  · have size : sizeofVariant.toNat = 64 := rfl
    have fewer := card_ofType_erase cells held
    subst hit
    rw [Function.update_self, UInt64.toNat_sub_of_le _ _ (ledger.charged held), memory, size]
    omega
  · rw [Function.update_of_ne hit, ofType_erase_of_ne (Ne.symm hit), memory]

/-- A reserved variant stays charged to its type. -/
theorem reserve (ledger : Ledger stat cells allocated live) (member : value ∈ live)
    (none : (cells value).extraSize = 0) (nrReserved : UInt64) :
    Ledger { stat.countOut (cells value).type with nrReserved := nrReserved } cells allocated
      (live.erase value) := by
  refine ⟨fun other => ?_, ledger.values_erase member⟩
  rw [extras_erase_ofType none]
  exact ledger.memory other

/-- What keeps types and extra sizes keeps the ledger. -/
theorem recell (ledger : Ledger stat cells allocated live)
    (types : ∀ held, (changed held).type = (cells held).type)
    (extra : ∀ held, (changed held).extraSize = (cells held).extraSize) :
    Ledger stat changed allocated live := by
  have sameType : ∀ set type, ofType changed set type = ofType cells set type :=
    fun set type => ofType_congr fun held _ => types held
  refine ⟨fun type => ?_, fun type => ?_⟩
  · rw [sameType, sameType, extras_congr fun held _ => extra held]
    exact ledger.memory type
  · rw [sameType]
    exact ledger.values type

/-- An extra size is discharged from the type and the one that replaces it is charged. -/
theorem resize (ledger : Ledger stat cells allocated live) (member : value ∈ live)
    {old new : UInt64} (before : (cells value).extraSize = old.toNat)
    (after : (changed value).extraSize = new.toNat)
    (types : ∀ held, (changed held).type = (cells held).type)
    (same : ∀ held, held ≠ value → changed held = cells held)
    (fits : (stat.szMem (cells value).type - old).toNat + new.toNat < 2 ^ 64) :
    Ledger ((stat.discharge (cells value).type old).charge (cells value).type new) changed
      allocated live := by
  have sameType : ∀ set type, ofType changed set type = ofType cells set type :=
    fun set type => ofType_congr fun held _ => types held
  refine ⟨fun other => ?_, fun other => ?_⟩
  · have memory := ledger.memory other
    rw [sameType, sameType]
    change (Function.update (Function.update stat.szMem (cells value).type
      (stat.szMem (cells value).type - old)) (cells value).type
      (Function.update stat.szMem (cells value).type (stat.szMem (cells value).type - old)
        (cells value).type + new) other).toNat = _
    rw [Function.update_idem, Function.update_self]
    by_cases hit : other = (cells value).type
    · have moved : extras changed (ofType cells live other) + (cells value).extraSize =
          extras cells (ofType cells live other) + (changed value).extraSize := by
        have inside : value ∈ ofType cells live other :=
          Finset.mem_filter.2 ⟨member, hit.symm⟩
        have entries : ∀ held, held ≠ value →
            (changed held).extraSize = (cells held).extraSize :=
          fun held apart => congrArg Cell.extraSize (same held apart)
        exact sum_change inside entries
      have part := ledger.extra_charged member
      rw [before] at part moved
      rw [after] at moved
      subst hit
      rw [Function.update_self, UInt64.toNat_add, Nat.mod_eq_of_lt fits,
        UInt64.toNat_sub_of_le _ _ (UInt64.le_iff_toNat_le.2 part)]
      omega
    · have rest : extras changed (ofType cells live other) =
          extras cells (ofType cells live other) := by
        apply extras_congr
        intro held inside
        have apart : held ≠ value := by
          rintro rfl
          exact hit (Finset.mem_filter.1 inside).2.symm
        rw [same held apart]
      rw [Function.update_of_ne hit, rest, memory]
  · rw [sameType]
    exact ledger.values other

end Ledger

/-! ## Runs -/

variable {run next : HeapRun} {checked : Bool} {reserved : List Nat}

/-- The ledger of a heap. -/
def HeapRun.Ledger (run : HeapRun) : Prop :=
  Purc.Ledger run.heap.stat run.heap.cells run.heap.allocated run.live

/-- An owner that keeps the type and the extra size of its variant keeps the ledger. -/
theorem HeapRun.Ledger.store {value : Nat} {cell : Cell} (ledger : run.Ledger)
    (type : cell.type = (run.heap.cells value).type)
    (extra : cell.extraSize = (run.heap.cells value).extraSize) :
    HeapRun.Ledger { run with heap := run.heap.setCell value cell } :=
  Purc.Ledger.recell ledger (Cell.update_congr _ type) (Cell.update_congr _ extra)

/-- Setting an extra size keeps the ledger. -/
theorem HeapRun.Ledger.setExtraSize {value : Nat} {extraSize : UInt64} (ledger : run.Ledger)
    (live : value ∈ run.live) (attributed : Attributed run (.setExtraSize value extraSize)) :
    HeapRun.Ledger
      { run with heap := pcvariantStatSetExtraSize run.heap value extraSize } := by
  by_cases flagged : (run.heap.cells value).hasExtraSize
  · simp only [pcvariantStatSetExtraSize, flagged, if_true]
    exact Purc.Ledger.resize ledger live (extraSize_of_flagged flagged)
      (extraSize_stored flagged extraSize) (Cell.update_congr Cell.type rfl)
      (fun held apart => Function.update_of_ne apart _ _) (attributed flagged)
  · simp only [pcvariantStatSetExtraSize, flagged]
    exact ledger

/-- A get for the type that the first reserved variant was last used for, or with an empty
list, keeps the ledger. -/
theorem HeapRun.Ledger.get {alloc : Nat} {type : VariantType} (ledger : run.Ledger)
    (accounts : Accounts run reserved) (permits : Permits run (.get alloc type type))
    (attributed : Attributed run (.get alloc type type))
    (acts : run.act checked (.get alloc type type) = some next) : next.Ledger := by
  have few := accounts.pool.card_le
  cases reserved with
  | nil =>
    have empty := accounts.listEmpty_nil
    rw [Accounts.act_get_empty empty] at acts
    rw [Attributed, if_pos empty] at attributed
    rw [← Option.some.inj acts]
    split
    · exact ledger
    · rename_i answered
      have fresh := permits empty answered
      have unused : alloc ∉ run.heap.allocated := by
        intro used
        have overlap := fresh.apart alloc used
        omega
      have new : alloc ∉ run.live := fun live => unused (accounts.pool.live_allocated live)
      refine Purc.Ledger.allocate ledger unused new ?_ ?_ ?_ few (attributed answered)
      · simp [Accounts.newRun]
      · exact Cell.extraSize_eq_zero (by simp [Accounts.newRun, Cell.zero])
      · intro held apart
        simp [Accounts.newRun, apart]
  | cons value rest =>
    have first := accounts.firstReserved_cons
    rw [Accounts.act_get_first accounts.listEmpty_cons first accounts.reserved_ne_null] at acts
    rw [Attributed, accounts.listEmpty_cons, first] at attributed
    rw [← Option.some.inj acts]
    refine Purc.Ledger.take ledger (accounts.pool.apart value (by simp)) attributed ?_ ?_ ?_ few _
    · simp [Accounts.takenRun]
    · exact Cell.extraSize_eq_zero (by simp [Accounts.takenRun])
    · intro held apart
      simp [Accounts.takenRun, apart]

/-- Every attributed step keeps the ledger. -/
theorem HeapRun.Ledger.step {action : HeapAction} (ledger : run.Ledger)
    (accounts : Accounts run reserved) (permits : Permits run action)
    (typed : Typed run action) (attributed : Attributed run action)
    (acts : run.act checked action = some next) : next.Ledger := by
  cases action with
  | get alloc type assigned =>
    have same : assigned = type := typed
    subst same
    exact ledger.get accounts permits attributed acts
  | setExtraSize value extraSize =>
    rw [← Option.some.inj acts]
    exact ledger.setExtraSize permits attributed
  | put value =>
    have none := extraSize_of_put permits
    rw [Accounts.act_put acts]
    split
    · exact Purc.Ledger.free ledger (accounts.pool.live_allocated permits.1) permits.1 none
    · exact Purc.Ledger.reserve ledger permits.1 none _
  | setType value type => exact typed.elim
  | setFlags value flags =>
    rw [← Option.some.inj acts]
    exact ledger.store rfl (extraSize_of_setFlags permits)
  | setWord value word =>
    rw [← Option.some.inj acts]
    exact ledger.store rfl (extraSize_of_setWord permits)
  | relink links =>
    rw [← Option.some.inj acts]
    exact ledger

/-- The heap after `_init_instance` has a ledger. -/
theorem HeapRun.Ledger.start {vReserved : Nat} {nrMaxReserved : UInt64} {cells : Nat → Cell}
    {links : Links Nat} :
    HeapRun.Ledger ⟨initInstance vReserved nrMaxReserved cells links, ∅⟩ :=
  ⟨fun _ => rfl, fun _ => rfl⟩

/-- A heap whose reserved variants are reused for their own types. -/
def attributedHeap (checked : Bool) : Machine HeapRun HeapAction :=
  ((heapMachine checked).restrict Typed).restrict Attributed

/-- In every reachable state every type is charged for its blocks. -/
theorem HeapRun.Ledger.of_reachable (reachable : (attributedHeap checked).Reachable run) :
    run.Ledger := by
  apply reachable.invariant
  · rintro _ ⟨vReserved, nrMaxReserved, cells, links, rfl⟩
    exact .start
  · intro state action next before ledger taken
    obtain ⟨reserved, accounts⟩ := Accounts.of_reachable before.of_restrict.of_restrict
    exact ledger.step accounts taken.1.1.1 taken.1.2 taken.2 taken.1.1.2

/-- A ledger leaves room for the values of every type. -/
theorem HeapRun.Ledger.truthful (ledger : run.Ledger) (accounts : Accounts run reserved) :
    Truthful run := by
  intro type _
  have values := Purc.Ledger.values ledger type
  have memory := Purc.Ledger.memory ledger type
  have size : sizeofVariant.toNat = 64 := rfl
  have inside : ofType run.heap.cells run.live type ⊆
      ofType run.heap.cells run.heap.allocated type :=
    Finset.filter_subset_filter _ fun value live => accounts.pool.live_allocated live
  have fewer := Finset.card_le_card inside
  rw [values, memory, size]
  omega

/-- A ledger covers every subtraction. -/
theorem HeapRun.Ledger.covers {action : HeapAction} {type : VariantType} {size : UInt64}
    (ledger : run.Ledger) (accounts : Accounts run reserved) (permits : Permits run action)
    (subtracts : subtraction run action = some (type, size)) :
    size ≤ run.heap.stat.szMem type := by
  cases action with
  | setExtraSize value extraSize =>
    rw [subtraction] at subtracts
    split at subtracts
    · rename_i flagged
      have part := Purc.Ledger.extra_charged ledger permits
      rw [extraSize_of_flagged flagged] at part
      cases subtracts
      exact UInt64.le_iff_toNat_le.2 part
    · cases subtracts
  | put value =>
    rw [subtraction] at subtracts
    split at subtracts
    · cases subtracts
      exact Purc.Ledger.charged ledger (accounts.pool.live_allocated permits.1)
    · cases subtracts
  | _ => cases subtracts

/-- After one reuse a type has a value but no memory: the block is charged to the type that it
was allocated for. -/
theorem reuse_not_truthful :
    ((heapMachine true).restrict Typed).Reachable reuseEnd ∧ ¬Truthful reuseEnd := by
  refine ⟨reuseEnd_reachable, fun truthful => ?_⟩
  have room := truthful .object ⟨by decide, by decide, by decide⟩
  revert room
  decide

/-- When every reserved variant is reused for its own type and no addition overflows, the
memory of every type has room for its values and no subtraction goes below zero. -/
theorem heap_types_truthful (checked : Bool) (run : HeapRun)
    (reachable : (attributedHeap checked).Reachable run) :
    Truthful run ∧ ∀ action type size, Permits run action →
      subtraction run action = some (type, size) → size ≤ run.heap.stat.szMem type := by
  have ledger := HeapRun.Ledger.of_reachable reachable
  obtain ⟨reserved, accounts⟩ := Accounts.of_reachable reachable.of_restrict.of_restrict
  exact ⟨ledger.truthful accounts, fun action type size permits subtracts =>
    ledger.covers accounts permits subtracts⟩

/-- A string block that is reused for a string. -/
theorem heap_types_truthful_strings :
    Truthful (Accounts.takenRun
      (Accounts.reservedRun (Accounts.newRun reuseStart 4096 .string .string) 4096)
      4096 .string .string) := by
  have allocated : (attributedHeap true).Reachable
      (Accounts.newRun reuseStart 4096 .string .string) :=
    .step (.start ⟨_, _, _, _, rfl⟩) ⟨reuse_handedOut, fun _ => by decide⟩
  have putBack : (attributedHeap true).Reachable
      (Accounts.reservedRun (Accounts.newRun reuseStart 4096 .string .string) 4096) :=
    .step allocated ⟨reuse_putBack, trivial⟩
  exact (heap_types_truthful true _
    (.step putBack ⟨reuse_again .string, (rfl : VariantType.string = .string)⟩)).1

end Bpcp.Purc
