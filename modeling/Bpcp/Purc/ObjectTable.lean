import Bpcp.Purc.ObjectRuns

/-!
# Objects that hold strings

A table has the texts of strings and the properties of objects, which are strings and constants. To
set a property takes references to the key and to the value, and gives up the references to those
that it replaces. There is room for a number of properties in each object. When an object is
released, everything that it holds is given up.
-/

namespace Bpcp.Purc

open Bpcp.Lib

/-! ## New variants -/

/-- The block behind all others, or `NULL` when it does not fit. -/
def blockBehind (heap : VariantHeap) : Nat :=
  let block := heap.allocated.sup id + 64
  if block + 64 ≤ 2 ^ 64 ∧ (block + 64 ≤ heap.vReserved ∨ heap.vReserved + 16 ≤ block) then block
  else null

/-- A variant of a type with one reference. -/
def makeBlock (type : VariantType) (state : RefHeap) : Option VariantPointer × RefHeap :=
  let (value, heap) := pcvariantGet state.heap (blockBehind state.heap) type
  if value = null then (none, { state with heap := heap })
  else
    let heap := heap.setCell value { heap.cells value with type := type }
    (some (.block value), RefHeap.count { state with heap := heap } (.block value) 1)

/-- The block behind all others may be returned. -/
theorem blockBehind_fresh {heap : VariantHeap} (found : blockBehind heap ≠ null) :
    Fresh heap (blockBehind heap) := by
  dsimp only [blockBehind] at found ⊢
  split
  · rename_i fits
    refine ⟨?_, fits.1, ?_, fits.2⟩
    · unfold null
      omega
    · intro other inside
      have behind : other ≤ heap.allocated.sup id := Finset.le_sup (f := id) inside
      right
      omega
  · rename_i full
    rw [if_neg full] at found
    exact absurd rfl found

/-- Getting a variant writes no other variant. -/
theorem pcvariantGet_cells {heap : VariantHeap} {alloc other : Nat} {type : VariantType}
    (apart : other ≠ (pcvariantGet heap alloc type).1) :
    (pcvariantGet heap alloc type).2.cells other = heap.cells other := by
  unfold pcvariantGet at apart ⊢
  split
  · split
    · rfl
    · rename_i empty given
      rw [if_pos empty, if_neg given] at apart
      exact Function.update_of_ne apart _ _
  · rename_i busy
    rw [if_neg busy] at apart
    exact Function.update_of_ne apart _ _

/-- A variant is made by a step of the references, or there is no memory. -/
theorem makeBlock_step {checked : Bool} {run : RefRun} (type : VariantType)
    (reachable : (refMachine checked).Reachable run) :
    makeBlock type run.state = (none, run.state) ∨
      ∃ block next, makeBlock type run.state = (some (.block block), next.state) ∧
        (refMachine checked).Reachable next ∧ next.releasing = run.releasing ∧
        block ∉ run.live ∧ next.live = insert block run.live ∧
        next.held = run.held + oneReference (.block block) ∧
        (next.state.heap.cells block).type = type ∧
        ∀ other, other ≠ block →
          (next.state.heap.cells other).type = (run.state.heap.cells other).type := by
  have sound := RefRun.Sound.of_reachable reachable
  have ⟨reserved, accounts⟩ := Accounts.of_reachable sound.heap
  let alloc := blockBehind run.state.heap
  have permits : Purc.Permits run.toHeapRun (.get alloc type type) :=
    fun _ found => blockBehind_fresh found
  by_cases failed : (pcvariantGet run.state.heap alloc type).1 = null
  · have taken : run.toHeapRun.act checked (.get alloc type type) =
        some { run.toHeapRun with heap := (pcvariantGet run.state.heap alloc type).2 } :=
      if_pos failed
    rcases accounts.get_cases permits taken with ⟨_, same⟩ | ⟨value, got, found, _⟩
    · left
      have heap : (pcvariantGet run.state.heap alloc type).2 = run.state.heap :=
        congrArg HeapRun.heap same
      have fails : makeBlock type run.state =
          (none, { run.state with heap := (pcvariantGet run.state.heap alloc type).2 }) :=
        if_pos failed
      rw [fails, heap]
    · exact absurd (got.symm.trans failed) found
  · right
    let block := (pcvariantGet run.state.heap alloc type).1
    let heap := (pcvariantGet run.state.heap alloc type).2
    let after : HeapRun :=
      ⟨heap.setCell block { heap.cells block with type := type }, insert block run.live⟩
    have taken : run.toHeapRun.act checked (.get alloc type type) = some after := if_neg failed
    have acts : run.act checked (.make alloc type type) =
        some ((run.withHeapRun after).count (.block block) 1 1) := by
      rw [RefRun.act, taken]
      exact if_neg failed
    have new : block ∉ run.live := by
      rcases accounts.get_cases permits taken with ⟨missing, _⟩ | ⟨value, got, _, new, _⟩
      · exact absurd missing failed
      · have same : block = value := got
        rw [same]
        exact new
    have unheld : run.held (.block block) = 0 := sound.counted.dead (.block block) new
    have permitsMake : run.Permits (.make alloc type type) := permits
    refine ⟨block, (run.withHeapRun after).count (.block block) 1 1, if_neg failed,
      reachable.step ⟨permitsMake, acts⟩, rfl, new, rfl, ?_, ?_, ?_⟩
    · funext other
      by_cases hit : other = .block block
      · rw [hit, Pi.add_apply, unheld, oneReference, Pi.single_eq_same]
        exact Function.update_self _ _ _
      · rw [Pi.add_apply, oneReference, Pi.single_eq_of_ne hit]
        exact Function.update_of_ne hit _ _
    · exact congrArg Cell.type (Function.update_self block _ heap.cells)
    · intro other apart
      have kept : (heap.setCell block { heap.cells block with type := type }).cells other =
          heap.cells other := Function.update_of_ne apart _ _
      have same : heap.cells other = run.state.heap.cells other := pcvariantGet_cells apart
      exact congrArg Cell.type (kept.trans same)

/-! ## The table -/

/-- The contents of strings and objects. -/
structure ObjectTable where
  /-- The texts of strings. -/
  texts : VariantPointer → CString
  /-- The keys and values of objects. -/
  entries : Nat → List (VariantPointer × VariantPointer)

/-- One of the references to a variant is given up. Nothing is inside of a string. -/
def giveUp (checked : Bool) (state : RefHeap) (value : VariantPointer) : Option RefHeap :=
  (purcVariantUnref checked releaseSize state value).map Prod.snd

/-- What properties hold. -/
def members (entries : List (VariantPointer × VariantPointer)) : List VariantPointer :=
  entries.flatMap fun (key, value) => [key, value]

namespace ObjectTable

/-- A new variant has a text and no properties. -/
def made (table : ObjectTable) (text : CString) : Option VariantPointer → ObjectTable
  | some (.block block) =>
    { texts := Function.update table.texts (.block block) text
      entries := Function.update table.entries block [] }
  | _ => table

/-- The properties of a variant. -/
def entriesOf (table : ObjectTable) : VariantPointer → List (VariantPointer × VariantPointer)
  | .constant _ => []
  | .block block => table.entries block

/-- The number of references that live variants hold. -/
def inside (table : ObjectTable) (live : Finset Nat) (value : VariantPointer) : ℕ :=
  ∑ block ∈ live, (members (table.entries block)).count value

/-- Only objects hold something, and that is strings and constants. -/
structure Fits (table : ObjectTable) (live : Finset Nat) (types : Nat → VariantType) : Prop where
  /-- What has properties is an object. -/
  object : ∀ block ∈ live, table.entries block ≠ [] → types block = .object
  /-- What is held is a string, unless it is a constant. -/
  string : ∀ block ∈ live, ∀ value, .block value ∈ members (table.entries block) →
    types value = .string

/-- A variant of a type is made. -/
def make (type : VariantType) (text : CString) (memory : ObjectMemory ObjectTable) :
    Option (Option VariantPointer × ObjectMemory ObjectTable) :=
  let (value, state) := makeBlock type memory.state
  some (value, ⟨memory.contents.made text value, state⟩)

/-- A function that releases a variant gives up what the variant holds. -/
def release (checked : Bool) (table : ObjectTable) (state : RefHeap) (value : Nat) :
    Option RefHeap := do
  let state ← (members (table.entries value)).foldlM (giveUp checked) state
  releaseSize state value

/-- A variant is a string. -/
def isString (state : RefHeap) : VariantPointer → Bool
  | .constant _ => false
  | .block block => (state.heap.cells block).type == .string

/-- A variant is a constant. -/
def isConstant : VariantPointer → Bool
  | .constant _ => true
  | .block _ => false

/-- A property has the text of a key. -/
def hasKey (table : ObjectTable) (k : VariantPointer)
    (entry : VariantPointer × VariantPointer) : Bool :=
  table.texts entry.1 == table.texts k

/-- The properties of an object after one is set. -/
def replaced (table : ObjectTable) (k v : VariantPointer)
    (entries : List (VariantPointer × VariantPointer)) : List (VariantPointer × VariantPointer) :=
  (entries.filter fun entry => !table.hasKey k entry) ++ [(k, v)]

/-- The contents after a property of an object is set. -/
def stored (table : ObjectTable) (block : Nat) (k v : VariantPointer) : ObjectTable :=
  { table with
    entries := Function.update table.entries block (table.replaced k v (table.entries block)) }

/-- The object has its properties. -/
theorem stored_entries_self (table : ObjectTable) (block : Nat) (k v : VariantPointer) :
    (table.stored block k v).entries block = table.replaced k v (table.entries block) :=
  Function.update_self _ _ _

/-- Other objects have what they had. -/
theorem stored_entries_of_ne {table : ObjectTable} {block other : Nat} {k v : VariantPointer}
    (apart : other ≠ block) : (table.stored block k v).entries other = table.entries other :=
  Function.update_of_ne apart _ _

/-- A property may be set: the key is a string and the value a string or a constant, both have
references, and there is room. -/
def canSet (room : ℕ) (block : Nat) (k v : VariantPointer) (memory : ObjectMemory ObjectTable) :
    Bool :=
  (memory.state.heap.cells block).type == .object &&
    memory.state.refc k != 0 && isString memory.state k &&
    memory.state.refc v != 0 && (isString memory.state v || isConstant v) &&
    decide ((memory.contents.replaced k v (memory.contents.entries block)).length ≤ room)

/-- A property of an object is set, and what it replaces is given up. -/
def objectSet (checked : Bool) (room : ℕ) (obj k v : VariantPointer)
    (memory : ObjectMemory ObjectTable) : Option (Bool × ObjectMemory ObjectTable) :=
  match obj with
  | .constant _ => some (false, memory)
  | .block block =>
    if canSet room block k v memory then do
      let table := memory.contents
      let (_, state) ← purcVariantRef checked memory.state k
      let (_, state) ← purcVariantRef checked state v
      let dropped := members ((table.entries block).filter (table.hasKey k))
      let state ← dropped.foldlM (giveUp checked) state
      some (true, ⟨table.stored block k v, state⟩)
    else some (false, memory)

end ObjectTable

/-- Functions that make and fill objects of strings, with room for some properties in each. -/
def objectTable (checked : Bool) (room : ℕ) : ObjectApi ObjectTable where
  release := ObjectTable.release checked
  makeString := ObjectTable.make .string
  makeObjectByStaticCkey := ObjectTable.make .object (.lit "")
  makeObject := ObjectTable.make .object (.lit "")
  objectSet := ObjectTable.objectSet checked room
  text := ObjectTable.texts
  entries := ObjectTable.entriesOf
  inside := ObjectTable.inside
  fits := ObjectTable.Fits

variable {checked : Bool} {run next : RefRun} {table : ObjectTable} {value other : VariantPointer}
  {block : Nat} {live : Finset Nat} {types : Nat → VariantType}

/-! ## Taking and giving up references -/

/-- One reference more to one variant. -/
theorem update_succ (held : VariantPointer → ℕ) (value : VariantPointer) :
    Function.update held value (held value + 1) = held + oneReference value := by
  funext other
  by_cases hit : other = value
  · rw [hit, Function.update_self, Pi.add_apply, oneReference, Pi.single_eq_same]
  · rw [Function.update_of_ne hit, Pi.add_apply, oneReference, Pi.single_eq_of_ne hit]
    rfl

/-- One reference less to one variant that is held. -/
theorem update_pred {held : VariantPointer → ℕ} (holds : 0 < held value) :
    Function.update held value (held value - 1) + oneReference value = held := by
  funext other
  by_cases hit : other = value
  · rw [hit, Pi.add_apply, Function.update_self, oneReference, Pi.single_eq_same]
    omega
  · rw [Pi.add_apply, Function.update_of_ne hit, oneReference, Pi.single_eq_of_ne hit]
    rfl

/-- Taking a reference to a variant that is held is a run. -/
theorem purcVariantRef_takes (reachable : (refMachine checked).Reachable run)
    (holds : 0 < run.held value) (few : run.held value + 1 < 2 ^ 32) :
    ∃ next, purcVariantRef checked run.state value = some (some value, next.state) ∧
      (refMachine checked).Reachable next ∧ next.releasing = run.releasing ∧
      next.live = run.live ∧ next.held = run.held + oneReference value ∧
      next.state.heap = run.state.heap := by
  have present := (RefRun.Sound.of_reachable reachable).refc_ne_zero holds
  have takes : purcVariantRef checked run.state value =
      some (some value, run.state.count value (run.state.refc value + 1)) := if_neg present
  have permits : run.Permits (.ref value) := ⟨holds, few⟩
  have acts : run.act checked (.ref value) =
      some (run.count value (run.state.refc value + 1) (run.held value + 1)) := by
    rw [RefRun.act, takes]
    rfl
  exact ⟨_, takes, reachable.step ⟨permits, acts⟩, rfl, rfl, update_succ run.held value, rfl⟩

/-- A reference to a constant, or to a variant that has nothing but an extra size, is given up. -/
theorem giveUp_gives (reachable : (refMachine checked).Reachable run) (holds : 0 < run.held value)
    (string : ∀ block, value = .block block → run.types block = .string) :
    ∃ next, giveUp checked run.state value = some next.state ∧
      (refMachine checked).Reachable next ∧ next.releasing = run.releasing ∧
      next.held + oneReference value = run.held ∧ next.types = run.types := by
  have needed : ∀ block, value = .block block →
      hasReleaser (run.state.heap.cells block).type = true := by
    intro block same
    have type : (run.state.heap.cells block).type = .string := string block same
    rw [type]
    rfl
  have permits : run.Permits (.unref value) := by
    apply And.intro holds
    intro block same _ unneeded
    rw [needed block same] at unneeded
    exact absurd unneeded (by decide)
  obtain ⟨count, next, returns, goesOn, same, _, ends⟩ :=
    purcVariantUnref_ends reachable permits
      (fun ended => ended.held = (run.lessen value).held ∧ ended.types = run.types) (by
        intro block isBlock _ begins
        obtain ⟨ended, goesOn, same, returns, emptied, unheard, _, held, types⟩ :=
          releaseSize_steps begins rfl
        rw [isBlock]
        exact ⟨ended, ⟨goesOn, same, returns, emptied, fun _ => unheard⟩, held, funext types⟩)
  have left : next.held = (run.lessen value).held ∧ next.types = run.types := by
    obtain remains | ⟨block, ended, heap, isBlock, put, cells, left⟩ := ends
    · rw [remains]
      exact ⟨rfl, rfl⟩
    · have unneeded : hasReleaser (run.state.heap.cells block).type ≠ false := by
        rw [needed block isBlock]
        exact Bool.noConfusion
      obtain ⟨held, types⟩ := left.resolve_right fun ⟨missing, _⟩ => unneeded missing
      rw [put]
      refine ⟨held, Eq.trans ?_ types⟩
      funext other
      exact congrArg (fun cells => (cells other).type) cells
  refine ⟨next, ?_, goesOn, same, ?_, left.2⟩
  · rw [giveUp, returns]
    rfl
  · rw [left.1]
    exact update_pred holds

/-- What giving up references leaves. -/
structure GivesUp (checked : Bool) (refs : List VariantPointer) (run next : RefRun) : Prop where
  /-- It is a run. -/
  reachable : (refMachine checked).Reachable next
  /-- The releases that were under way are under way. -/
  releasing : next.releasing = run.releasing
  /-- As many references are left. -/
  held : ∀ value, next.held value + refs.count value = run.held value
  /-- The types are the same. -/
  types : next.types = run.types

/-- References to strings and constants are given up one after the other. -/
theorem giveUp_all (refs : List VariantPointer) (reachable : (refMachine checked).Reachable run)
    (enough : ∀ value, refs.count value ≤ run.held value)
    (string : ∀ block, .block block ∈ refs → run.types block = .string) :
    ∃ next, refs.foldlM (giveUp checked) run.state = some next.state ∧
      GivesUp checked refs run next := by
  induction refs generalizing run with
  | nil => exact ⟨run, rfl, reachable, rfl, fun _ => rfl, rfl⟩
  | cons first rest ih =>
    have counts : ∀ value, (first :: rest).count value =
        rest.count value + oneReference first value := by
      intro value
      rw [List.count_cons]
      by_cases hit : value = first
      · simp [hit, oneReference]
      · simp [hit, Ne.symm hit, oneReference]
    have holds : 0 < run.held first := by
      have most := enough first
      rw [counts, oneReference, Pi.single_eq_same] at most
      omega
    obtain ⟨middle, gives, goesOn, same, held, types⟩ := giveUp_gives reachable holds (by
      intro block isBlock
      exact string block (isBlock ▸ List.mem_cons_self))
    have balance : ∀ value, middle.held value + oneReference first value = run.held value :=
      congrFun held
    obtain ⟨next, givesRest, left⟩ := ih goesOn (by
      intro value
      have most := enough value
      rw [counts, ← balance value] at most
      omega) (by
      intro block inside
      rw [types]
      exact string block (List.mem_cons_of_mem first inside))
    refine ⟨next, ?_, left.reachable, left.releasing.trans same, ?_, left.types.trans types⟩
    · rw [List.foldlM_cons, gives]
      exact givesRest
    · intro value
      rw [counts, ← balance value, ← left.held value]
      omega

/-! ## What is inside -/

namespace ObjectTable

/-- What an object holds is inside. -/
theorem count_le_inside (alive : block ∈ live) (value : VariantPointer) :
    (members (table.entries block)).count value ≤ table.inside live value :=
  Finset.single_le_sum (f := fun block => (members (table.entries block)).count value)
    (fun _ _ => Nat.zero_le _) alive

/-- What an object holds, and what the others hold. -/
theorem inside_erase (alive : block ∈ live) (value : VariantPointer) :
    (members (table.entries block)).count value + table.inside (live.erase block) value =
      table.inside live value :=
  Finset.add_sum_erase live (fun block => (members (table.entries block)).count value) alive

/-- Variants without properties hold nothing. -/
theorem inside_subset {fewer : Finset Nat} (subset : fewer ⊆ live)
    (empty : ∀ block ∈ live, block ∉ fewer → table.entries block = []) (value : VariantPointer) :
    table.inside fewer value = table.inside live value := by
  apply Finset.sum_subset subset
  intro block alive gone
  rw [empty block alive gone]
  rfl

/-- Tables with the same properties hold the same. -/
theorem inside_congr {table' : ObjectTable}
    (same : ∀ block ∈ live, table'.entries block = table.entries block) (value : VariantPointer) :
    table'.inside live value = table.inside live value := by
  apply Finset.sum_congr rfl
  intro block alive
  rw [same block alive]

/-- An object holds other references when its properties are replaced. -/
theorem inside_replaced {table' : ObjectTable} (alive : block ∈ live)
    (others : ∀ other, other ≠ block → table'.entries other = table.entries other)
    (value : VariantPointer) :
    table'.inside live value + (members (table.entries block)).count value =
      table.inside live value + (members (table'.entries block)).count value := by
  have same : table'.inside (live.erase block) value = table.inside (live.erase block) value :=
    inside_congr (fun other alive => others other (Finset.ne_of_mem_erase alive)) value
  have before : (members (table.entries block)).count value +
      table.inside (live.erase block) value = table.inside live value := inside_erase alive value
  have after : (members (table'.entries block)).count value +
      table'.inside (live.erase block) value = table'.inside live value := inside_erase alive value
  omega

/-- What properties hold, those that pass a test and those that do not. -/
theorem count_members_filter (entries : List (VariantPointer × VariantPointer))
    (test : VariantPointer × VariantPointer → Bool) (value : VariantPointer) :
    (members (entries.filter test)).count value +
        (members (entries.filter fun entry => !test entry)).count value =
      (members entries).count value := by
  have split : (members (entries.filter test) ++
      members (entries.filter fun entry => !test entry)).Perm (members entries) := by
    rw [members, members, ← List.flatMap_append]
    exact (List.filter_append_perm test entries).flatMap_right _
  rw [← split.count_eq, List.count_append]

/-- A property more holds a key and a value more. -/
theorem count_members_append (entries : List (VariantPointer × VariantPointer))
    (k v value : VariantPointer) :
    (members (entries ++ [(k, v)])).count value =
      (members entries).count value + (oneReference k value + oneReference v value) := by
  have one : ∀ other, [other].count value = oneReference other value := by
    intro other
    by_cases hit : value = other
    · rw [hit, List.count_singleton_self, oneReference, Pi.single_eq_same]
    · rw [List.count_singleton, oneReference, Pi.single_eq_of_ne hit]
      simp [Ne.symm hit]
  have last : members [(k, v)] = [k] ++ [v] := rfl
  have ends : members (entries ++ [(k, v)]) = members entries ++ members [(k, v)] :=
    List.flatMap_append
  rw [ends, List.count_append, last, List.count_append, one, one]

/-- Fewer variants fit. -/
theorem Fits.mono {fewer : Finset Nat} (fits : table.Fits live types) (subset : fewer ⊆ live) :
    table.Fits fewer types :=
  ⟨fun block alive => fits.object block (subset alive),
    fun block alive => fits.string block (subset alive)⟩

/-- Giving up references to strings leaves the variants that hold something. -/
theorem Fits.gives {refs : List VariantPointer} (fits : table.Fits run.live run.types)
    (reachable : (refMachine checked).Reachable run) (gives : GivesUp checked refs run next)
    (string : ∀ block, .block block ∈ refs → run.types block = .string) :
    next.live ⊆ run.live ∧ ∀ block ∈ run.live, block ∉ next.live → table.entries block = [] := by
  have sound := RefRun.Sound.of_reachable reachable
  have sound' := RefRun.Sound.of_reachable gives.reachable
  constructor
  · intro block alive
    rw [sound'.live_iff, gives.releasing] at alive
    rw [sound.live_iff]
    apply alive.imp_left
    intro holds
    have balance := gives.held (.block block)
    omega
  · intro block alive gone
    rw [sound'.live_iff, gives.releasing] at gone
    have balance := gives.held (.block block)
    have holds : 0 < run.held (.block block) := by
      apply ((sound.live_iff block).1 alive).resolve_right
      intro releasing
      exact gone (Or.inr releasing)
    have given : 0 < refs.count (.block block) := by
      by_contra none
      apply gone
      left
      omega
    by_contra something
    have type := string block (List.count_pos_iff.1 given)
    rw [fits.object block alive something] at type
    exact VariantType.noConfusion type

end ObjectTable

end Bpcp.Purc
