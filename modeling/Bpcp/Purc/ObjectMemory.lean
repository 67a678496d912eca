import Bpcp.Lib.Keyed
import Bpcp.Purc.ReferenceRuns

/-!
# Objects that are filled

Three functions fill an object: `pcvariant_object_set_va` with strings that it makes,
`pcvariant_make_object` with a new object of its own, and `pcvariant_object_shallow_copy` with the
properties of another object. They call functions whose code is elsewhere, and each of those may
fail.

What the called functions promise is said with references. A caller owns the references that no
container holds. A function that makes a variant leaves its caller one more, and one that sets a
property leaves its caller what it owned. What is alive before and after a call keeps its contents.
-/

namespace Bpcp.Purc

open Bpcp.Lib

/-- A memory: the contents of variants beside the heap and the counts. -/
structure ObjectMemory (κ : Type) where
  /-- The contents of strings and containers. -/
  contents : κ
  /-- The heap and the counts. -/
  state : RefHeap

/-- The functions outside the repository, and what their contents mean. -/
structure ObjectApi (κ : Type) where
  /-- The functions in `variant_releasers`. -/
  release : κ → RefHeap → Nat → Option RefHeap
  /-- `purc_variant_make_string` with `check_encoding`. -/
  makeString : CString → ObjectMemory κ → Option (Option VariantPointer × ObjectMemory κ)
  /-- `purc_variant_make_object_by_static_ckey` without properties. -/
  makeObjectByStaticCkey : ObjectMemory κ → Option (Option VariantPointer × ObjectMemory κ)
  /-- `purc_variant_make_object` without properties. -/
  makeObject : ObjectMemory κ → Option (Option VariantPointer × ObjectMemory κ)
  /-- `purc_variant_object_set`. -/
  objectSet : VariantPointer → VariantPointer → VariantPointer → ObjectMemory κ →
    Option (Bool × ObjectMemory κ)
  /-- The text of a string. -/
  text : κ → VariantPointer → CString
  /-- The keys and values in the tree `kvs` of an object, in the order of the walk. -/
  entries : κ → VariantPointer → List (VariantPointer × VariantPointer)
  /-- The number of references to a variant that live containers hold. -/
  inside : κ → Finset Nat → VariantPointer → ℕ
  /-- The contents go with the live variants and their types. -/
  fits : κ → Finset Nat → (Nat → VariantType) → Prop

namespace ObjectApi

variable {κ : Type} (api : ObjectApi κ) (checked : Bool)

/-- `purc_variant_unref` in a memory. -/
def unref (value : VariantPointer) (memory : ObjectMemory κ) : Option (ObjectMemory κ) :=
  (purcVariantUnref checked (api.release memory.contents) memory.state value).map
    fun (_, state) => { memory with state := state }

/-! ## The functions -/

/-- The loop of `pcvariant_object_set_va` over the strings that are left. There is no result when
an assertion fails. -/
def objectSetVa (obj : VariantPointer) :
    List (CString × CString) → ObjectMemory κ → Option (Int × ObjectMemory κ)
  | [], memory => some (0, memory)
  | (key, val) :: rest, memory => do
    match ← api.makeString key memory with
    | (none, memory) => some (-1, memory)
    | (some k, memory) =>
      match ← api.makeString val memory with
      | (none, memory) =>
        let memory ← api.unref checked k memory
        some (-1, memory)
      | (some v, memory) =>
        let (ok, memory) ← api.objectSet obj k v memory
        let memory ← api.unref checked k memory
        let memory ← api.unref checked v memory
        if ok then objectSetVa obj rest memory else some (-1, memory)

/-- `pcvariant_make_object`. -/
def pcvariantMakeObject (kvs : List (CString × CString)) (memory : ObjectMemory κ) :
    Option (Option VariantPointer × ObjectMemory κ) := do
  match ← api.makeObjectByStaticCkey memory with
  | (none, memory) => some (none, memory)
  | (some obj, memory) =>
    if kvs.length = 0 then some (some obj, memory)
    else
      let (r, memory) ← api.objectSetVa checked obj kvs memory
      if r ≠ 0 then
        let memory ← api.unref checked obj memory
        some (none, memory)
      else some (some obj, memory)

/-- The loop of `pcvariant_object_shallow_copy` over the nodes that are left. What is set is a new
object, so the tree that the loop walks is not changed. -/
def shallowCopyLoop (o : VariantPointer) :
    List (VariantPointer × VariantPointer) → ObjectMemory κ →
      Option (Option VariantPointer × ObjectMemory κ)
  | [], memory => some (some o, memory)
  | (k, v) :: rest, memory => do
    let (ok, memory) ← api.objectSet o k v memory
    if ok then shallowCopyLoop o rest memory
    else
      let memory ← api.unref checked o memory
      some (none, memory)

/-- `pcvariant_object_shallow_copy` of an object. -/
def pcvariantObjectShallowCopy (obj : VariantPointer) (memory : ObjectMemory κ) :
    Option (Option VariantPointer × ObjectMemory κ) := do
  match ← api.makeObject memory with
  | (none, memory) => some (none, memory)
  | (some o, memory) =>
    api.shallowCopyLoop checked o (api.entries memory.contents obj) memory

/-! ## Properties -/

/-- The properties of an object, with the texts of the keys. -/
def properties (contents : κ) (obj : VariantPointer) : List (CString × VariantPointer) :=
  (api.entries contents obj).map fun (k, v) => (api.text contents k, v)

/-- The property of an object under a key. -/
def property (contents : κ) (obj : VariantPointer) (key : CString) : Option VariantPointer :=
  (api.properties contents obj).lookup key

end ObjectApi

/-! ## Promises -/

/-- One reference to a variant. -/
def oneReference (value : VariantPointer) : VariantPointer → ℕ := Pi.single value 1

/-- The types of the variants in memory. -/
def RefRun.types (run : RefRun) (block : Nat) : VariantType :=
  (run.state.heap.cells block).type

/-- A memory, with the references that are held. -/
structure ObjectWorld (κ : Type) where
  /-- The contents of strings and containers. -/
  contents : κ
  /-- The run of the references. -/
  run : RefRun

namespace ObjectWorld

variable {κ : Type} (checked : Bool) (api : ObjectApi κ)

/-- The memory of a world. -/
def memory (world : ObjectWorld κ) : ObjectMemory κ := ⟨world.contents, world.run.state⟩

/-- A variant is alive. -/
def Lives (world : ObjectWorld κ) (value : VariantPointer) : Prop := Alive world.run.live value

/-- The references that no container holds. -/
def owned (world : ObjectWorld κ) (value : VariantPointer) : ℕ :=
  world.run.held value - api.inside world.contents world.run.live value

/-- A variant that is released by a function in `variant_releasers`. -/
def Releasable (world : ObjectWorld κ) (value : VariantPointer) : Prop :=
  ∀ block, value = .block block → hasReleaser (world.run.state.heap.cells block).type = true

/-- A world that calls may be made in. -/
structure Sound (world : ObjectWorld κ) : Prop where
  /-- The references are in a reachable state. -/
  reachable : (refMachine checked).Reachable world.run
  /-- What containers hold is held. -/
  inside : ∀ value, api.inside world.contents world.run.live value ≤ world.run.held value
  /-- The contents are those of the live variants. -/
  fits : api.fits world.contents world.run.live world.run.types

/-- A world that a call leaves. Only one object may be changed, if any. -/
structure Follows (target : Option VariantPointer) (before after : ObjectWorld κ) : Prop where
  /-- Calls may be made again. -/
  sound : after.Sound checked api
  /-- The releases that were under way are under way. -/
  releasing : after.run.releasing = before.run.releasing
  /-- What stays alive keeps its type. -/
  types : ∀ block, before.Lives (.block block) → after.Lives (.block block) →
    (after.run.state.heap.cells block).type = (before.run.state.heap.cells block).type
  /-- What stays alive keeps its text. -/
  texts : ∀ value, before.Lives value → after.Lives value →
    api.text after.contents value = api.text before.contents value
  /-- Other objects that stay alive keep their properties. -/
  entries : ∀ obj, target ≠ some obj → before.Lives obj → after.Lives obj →
    api.entries after.contents obj = api.entries before.contents obj

/-- A variant was made, and the caller owns the only reference to it. -/
structure Made (before after : ObjectWorld κ) (value : VariantPointer) : Prop where
  /-- The variant was not alive. -/
  new : ¬before.Lives value
  /-- The caller owns one reference more. -/
  owned : after.owned api = before.owned api + oneReference value
  /-- There is one reference more. -/
  held : after.run.held = before.run.held + oneReference value
  /-- There is a function that releases it. -/
  releasable : after.Releasable value

end ObjectWorld

/-- A function that makes a variant, or fails and leaves the references as they were. -/
def Makes {κ : Type} (checked : Bool) (api : ObjectApi κ)
    (make : ObjectMemory κ → Option (Option VariantPointer × ObjectMemory κ))
    (is : κ → VariantPointer → Prop) : Prop :=
  ∀ before : ObjectWorld κ, before.Sound checked api →
    ∃ result after, make before.memory = some (result, ObjectWorld.memory after) ∧
      before.Follows checked api none after ∧
      (result = none → after.owned api = before.owned api) ∧
      ∀ value, result = some value → before.Made api after value ∧ is after.contents value

/-- What the functions outside the repository promise. -/
structure Promises {κ : Type} (checked : Bool) (api : ObjectApi κ) : Prop where
  /-- A live object holds its keys and values. -/
  entered : ∀ contents live obj k v, Alive live obj → (k, v) ∈ api.entries contents obj →
    0 < api.inside contents live k ∧ 0 < api.inside contents live v
  /-- A string that is made has the text. -/
  string : ∀ text, Makes checked api (api.makeString text) fun contents value =>
    api.text contents value = text
  /-- An object that is made has no properties. -/
  objectByStaticCkey : Makes checked api api.makeObjectByStaticCkey fun contents value =>
    api.entries contents value = []
  /-- An object that is made has no properties. -/
  object : Makes checked api api.makeObject fun contents value =>
    api.entries contents value = []
  /-- A property is set, or nothing else happens. The object takes its own references. -/
  set : ∀ (before : ObjectWorld κ) obj k v, before.Sound checked api → 0 < before.owned api obj →
    before.Lives k → before.Lives v → before.run.held k + 2 < 2 ^ 32 →
    before.run.held v + 2 < 2 ^ 32 →
    ∃ ok after, api.objectSet obj k v before.memory = some (ok, ObjectWorld.memory after) ∧
      before.Follows checked api (some obj) after ∧ after.owned api = before.owned api ∧
      after.run.held ≤ before.run.held + (oneReference k + oneReference v) ∧
      (ok = true → api.property after.contents obj =
        Function.update (api.property before.contents obj) (api.text before.contents k) (some v))
  /-- Releasing a variant gives up what it holds, and nothing that the caller owns. -/
  release : ∀ (before : ObjectWorld κ) value rest, before.Sound checked api →
    before.run.releasing = value :: rest →
    hasReleaser (before.run.state.heap.cells value).type = true →
    ∃ next, ReleasedBy checked (api.release before.contents) before.run value next ∧
      api.fits before.contents (next.live.erase value) next.types ∧
      (∀ other ∈ next.live, next.types other = before.run.types other) ∧
      ∀ other, api.inside before.contents (next.live.erase value) other ≤ next.held other ∧
        next.held other - api.inside before.contents (next.live.erase value) other =
          before.run.held other - api.inside before.contents before.run.live other

end Bpcp.Purc
