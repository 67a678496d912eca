import Bpcp.Lib.Machine
import Bpcp.Purc.LoadDvobj

/-!
# Objects from shared libraries

A shared library that was found makes an object, and its handle is stored in that object.
`purc_variant_unload_dvobj` gives up a reference to the object and closes the library that it
finds there. So a library stays open as long as its objects live, provided that an object is
unloaded through its last reference, and that its last reference is given up by unloading it.
-/

namespace Bpcp.Purc

open Bpcp.Lib

/-- What a library that was found does. -/
structure Module where
  /-- `dlsym` finds `EXOBJ_LOAD_ENTRY`. -/
  hasEntry : Bool
  /-- What the entry returns: a variant, and whether it is an object. -/
  answer : Option (ℕ × Bool)
  /-- `purc_variant_object_set_by_static_ckey` stores the handle. -/
  stores : Bool

/-- The libraries that are open, and the variants that they made. -/
structure Dvobjs where
  /-- How often each library is open. -/
  opened : ℕ → ℕ
  /-- The number of references to each variant, none when it is released. -/
  refs : ℕ → ℕ
  /-- What is stored under `EXOBJ_LOAD_HANDLE_KEY`. -/
  handle : ℕ → Option ℕ

namespace Dvobjs

/-- `dlopen` opens a library once more. -/
def dlopen (dvobjs : Dvobjs) (library : ℕ) : Dvobjs :=
  { dvobjs with opened := Function.update dvobjs.opened library (dvobjs.opened library + 1) }

/-- `dlclose`, and whether it succeeds. -/
def dlclose (dvobjs : Dvobjs) (library : ℕ) : Bool × Dvobjs :=
  if dvobjs.opened library = 0 then (false, dvobjs)
  else (true, { dvobjs with
    opened := Function.update dvobjs.opened library (dvobjs.opened library - 1) })

/-- A number of references is stored. -/
def count (dvobjs : Dvobjs) (value references : ℕ) : Dvobjs :=
  { dvobjs with refs := Function.update dvobjs.refs value references }

end Dvobjs

/-- The second half of `purc_variant_load_dvobj_from_so`: the variant that is returned, and the
state. -/
def loadDvobj (dvobjs : Dvobjs) (found : Option ℕ) (library : Module) : Option ℕ × Dvobjs :=
  match found with
  | none => (none, dvobjs)
  | some libraryHandle =>
    let dvobjs := dvobjs.dlopen libraryHandle
    match library.hasEntry, library.answer with
    | true, some (value, true) =>
      (some value,
        { dvobjs.count value 1 with
          handle := Function.update dvobjs.handle value
            (if library.stores then some libraryHandle else none) })
    -- A variant that is no object is given up at once.
    | _, _ => (none, (dvobjs.dlclose libraryHandle).2)

/-- `purc_variant_unload_dvobj` of an object. -/
def unloadDvobj (dvobjs : Dvobjs) (dvobj : ℕ) : Bool × Dvobjs :=
  match dvobjs.handle dvobj with
  | none => (false, dvobjs)
  | some u64 =>
    if u64 = 0 then (false, dvobjs)
    else (dvobjs.count dvobj (dvobjs.refs dvobj - 1)).dlclose u64

/-! ## Runs -/

/-- What happens to objects. -/
inductive DvobjAction where
  /-- `purc_variant_load_dvobj_from_so` behind the search. -/
  | load (found : Option ℕ) (library : Module)
  /-- `purc_variant_unload_dvobj`. -/
  | unload (dvobj : ℕ)
  /-- A holder takes a reference. -/
  | ref (dvobj : ℕ)
  /-- A holder gives up a reference. -/
  | unref (dvobj : ℕ)

/-- What an action leaves. -/
def Dvobjs.act (dvobjs : Dvobjs) : DvobjAction → Dvobjs
  | .load found library => (loadDvobj dvobjs found library).2
  | .unload dvobj => (unloadDvobj dvobjs dvobj).2
  | .ref dvobj => dvobjs.count dvobj (dvobjs.refs dvobj + 1)
  | .unref dvobj => dvobjs.count dvobj (dvobjs.refs dvobj - 1)

/-- A library makes a new variant each time, no handle is `NULL`, and holders use variants that
they have a reference to. -/
def Dvobjs.Permits (dvobjs : Dvobjs) : DvobjAction → Prop
  | .load found library => found ≠ some 0 ∧
      ∀ value isObject, library.answer = some (value, isObject) → dvobjs.refs value = 0
  | .unload dvobj | .ref dvobj | .unref dvobj => 0 < dvobjs.refs dvobj

/-- The runs from a state without libraries on. -/
def dvobjMachine : Machine Dvobjs DvobjAction where
  start := fun dvobjs => (∀ library, dvobjs.opened library = 0) ∧ ∀ value, dvobjs.refs value = 0
  step := fun dvobjs action next => dvobjs.Permits action ∧ dvobjs.act action = next

/-- The handle is stored, an object is unloaded through its last reference, and its last reference
is given up by unloading it. -/
def Dvobjs.Proper (dvobjs : Dvobjs) : DvobjAction → Prop
  | .load _ library => library.stores = true
  | .unload dvobj => dvobjs.refs dvobj = 1
  | .ref _ => True
  | .unref dvobj => 1 < dvobjs.refs dvobj

/-- The runs of callers that unload properly. -/
def properMachine : Machine Dvobjs DvobjAction := dvobjMachine.restrict Dvobjs.Proper

/-- Every library is open once for each of its objects. -/
structure Balanced (live : Finset ℕ) (dvobjs : Dvobjs) : Prop where
  /-- The objects that live. -/
  lives : ∀ value, value ∈ live ↔ 0 < dvobjs.refs value
  /-- Each of them has the handle of a library. -/
  handled : ∀ value ∈ live, ∃ library, library ≠ 0 ∧ dvobjs.handle value = some library
  /-- Every library is open once for each of its objects. -/
  balanced : ∀ library,
    dvobjs.opened library = (live.filter (dvobjs.handle · = some library)).card

namespace Balanced

variable {live : Finset ℕ} {dvobjs : Dvobjs} {value library : ℕ}

/-- Opening and closing a library again changes nothing. -/
theorem dlclose_dlopen (dvobjs : Dvobjs) (library : ℕ) :
    ((dvobjs.dlopen library).dlclose library).2 = dvobjs := by
  have positive : ¬(dvobjs.dlopen library).opened library = 0 := by
    simp [Dvobjs.dlopen]
  rw [Dvobjs.dlclose, if_neg positive]
  simp [Dvobjs.dlopen]

/-- Other positive numbers of references change nothing. -/
theorem recount (balanced : Balanced live dvobjs) (holds : 0 < dvobjs.refs value) {number : ℕ}
    (positive : 0 < number) : Balanced live (dvobjs.count value number) where
  lives := by
    intro other
    rw [balanced.lives]
    by_cases same : other = value
    · rw [same]
      simp [Dvobjs.count, holds, positive]
    · simp [Dvobjs.count, Function.update_of_ne same]
  handled := balanced.handled
  balanced := balanced.balanced

/-- An object comes with its library. -/
theorem load (balanced : Balanced live dvobjs) (new : dvobjs.refs value = 0)
    (handle : library ≠ 0) :
    Balanced (insert value live) { (dvobjs.dlopen library).count value 1 with
      handle := Function.update dvobjs.handle value (some library) } := by
  have unborn : value ∉ live := by
    rw [balanced.lives, new]
    exact lt_irrefl 0
  have kept : ∀ other ∈ live, Function.update dvobjs.handle value (some library) other =
      dvobjs.handle other := by
    intro other inside
    apply Function.update_of_ne
    intro same
    rw [same] at inside
    exact unborn inside
  constructor
  · intro other
    rw [Finset.mem_insert, balanced.lives]
    by_cases same : other = value
    · simp [Dvobjs.count, same]
    · simp [Dvobjs.count, Dvobjs.dlopen, same]
  · intro other inside
    cases Finset.mem_insert.mp inside with
    | inl same =>
      rw [same]
      exact ⟨library, handle, Function.update_self _ _ _⟩
    | inr old =>
      have ⟨its, positive, stored⟩ := balanced.handled other old
      exact ⟨its, positive, (kept other old).trans stored⟩
  · intro other
    have others : live.filter (Function.update dvobjs.handle value (some library) · =
        some other) = live.filter (dvobjs.handle · = some other) :=
      Finset.filter_congr fun value inside => by rw [kept value inside]
    show Function.update dvobjs.opened library (dvobjs.opened library + 1) other =
      ((insert value live).filter
        (Function.update dvobjs.handle value (some library) · = some other)).card
    rw [Finset.filter_insert, Function.update_self, others]
    by_cases same : other = library
    · rw [same, Function.update_self, if_pos rfl, Finset.card_insert_of_notMem
        (fun inside => unborn (Finset.mem_of_mem_filter _ inside)), balanced.balanced]
    · rw [Function.update_of_ne same, if_neg fun equal => same (Option.some.inj equal).symm,
        balanced.balanced]

/-- The library of an object that lives is open. -/
theorem library_open (balanced : Balanced live dvobjs) (inside : value ∈ live)
    (stored : dvobjs.handle value = some library) : 0 < dvobjs.opened library := by
  rw [balanced.balanced]
  exact Finset.card_pos.mpr ⟨value, Finset.mem_filter.mpr ⟨inside, stored⟩⟩

/-- What unloading an object that lives does. -/
theorem unloadDvobj_eq (balanced : Balanced live dvobjs) (inside : value ∈ live)
    (stored : dvobjs.handle value = some library) :
    unloadDvobj dvobjs value = (true, { dvobjs with
      opened := Function.update dvobjs.opened library (dvobjs.opened library - 1)
      refs := Function.update dvobjs.refs value (dvobjs.refs value - 1) }) := by
  have ⟨its, positive, handle⟩ := balanced.handled value inside
  have nonzero : ¬library = 0 := by
    rw [Option.some.inj (stored.symm.trans handle)]
    exact positive
  have opened := balanced.library_open inside stored
  simp only [unloadDvobj, stored]
  rw [if_neg nonzero, Dvobjs.dlclose]
  exact if_neg opened.ne'

/-- An object goes with its library. -/
theorem unload (balanced : Balanced live dvobjs) (last : dvobjs.refs value = 1) :
    Balanced (live.erase value) (unloadDvobj dvobjs value).2 := by
  have inside : value ∈ live := by
    rw [balanced.lives, last]
    exact Nat.one_pos
  have ⟨library, _, stored⟩ := balanced.handled value inside
  rw [balanced.unloadDvobj_eq inside stored, last]
  constructor
  · intro other
    rw [Finset.mem_erase, balanced.lives]
    by_cases same : other = value
    · simp [same]
    · simp [same]
  · intro other member
    exact balanced.handled other (Finset.mem_of_mem_erase member)
  · intro other
    show Function.update dvobjs.opened library (dvobjs.opened library - 1) other =
      ((live.erase value).filter (dvobjs.handle · = some other)).card
    rw [Finset.filter_erase]
    by_cases same : other = library
    · rw [same, Function.update_self, balanced.balanced,
        Finset.card_erase_of_mem (Finset.mem_filter.mpr ⟨inside, stored⟩)]
    · have apart : value ∉ live.filter (dvobjs.handle · = some other) := fun member =>
        same (Option.some.inj ((Finset.mem_filter.mp member).2.symm.trans stored))
      rw [Function.update_of_ne same, Finset.erase_eq_of_notMem apart, balanced.balanced]

/-- A library that makes no object leaves nothing open. -/
theorem load_failed {dvobjs : Dvobjs} {found : Option ℕ} {library : Module}
    (failed : (loadDvobj dvobjs found library).1 = none) :
    (loadDvobj dvobjs found library).2 = dvobjs := by
  unfold loadDvobj at failed ⊢
  cases found with
  | none => rfl
  | some libraryHandle =>
    dsimp only at failed ⊢
    split at failed
    · exact absurd failed (Option.some_ne_none _)
    · exact dlclose_dlopen dvobjs libraryHandle

/-- What a library that makes an object leaves. -/
theorem load_succeeded {dvobjs : Dvobjs} {found : Option ℕ} {library : Module}
    (succeeded : (loadDvobj dvobjs found library).1 = some value) :
    ∃ libraryHandle, found = some libraryHandle ∧ library.answer = some (value, true) ∧
      (loadDvobj dvobjs found library).2 = { (dvobjs.dlopen libraryHandle).count value 1 with
        handle := Function.update dvobjs.handle value
          (if library.stores then some libraryHandle else none) } := by
  unfold loadDvobj at succeeded ⊢
  cases found with
  | none => exact absurd succeeded.symm (Option.some_ne_none _)
  | some libraryHandle =>
    dsimp only at succeeded ⊢
    split at succeeded
    · next made _ answer =>
      have same : made = value := Option.some.inj succeeded
      rw [same] at answer ⊢
      exact ⟨libraryHandle, rfl, answer, rfl⟩
    · exact absurd succeeded.symm (Option.some_ne_none _)

/-- Every proper step keeps the libraries open as often as they have objects. -/
theorem act (balanced : Balanced live dvobjs) {action : DvobjAction}
    (permitted : dvobjs.Permits action) (proper : dvobjs.Proper action) :
    ∃ live, Balanced live (dvobjs.act action) := by
  cases action with
  | load found library =>
    cases made : (loadDvobj dvobjs found library).1 with
    | none =>
      rw [Dvobjs.act, load_failed made]
      exact ⟨live, balanced⟩
    | some value =>
      have ⟨libraryHandle, handle, answer, left⟩ := load_succeeded made
      have stores : library.stores = true := proper
      rw [Dvobjs.act, left, stores, if_pos rfl]
      apply Exists.intro
      apply balanced.load (permitted.2 value true answer)
      intro zero
      apply permitted.1
      rw [handle, zero]
  | unload dvobj => exact ⟨live.erase dvobj, balanced.unload proper⟩
  | ref dvobj => exact ⟨live, balanced.recount permitted (Nat.succ_pos _)⟩
  | unref dvobj => exact ⟨live, balanced.recount permitted (Nat.sub_pos_of_lt proper)⟩

/-- In every proper run the libraries are open as often as they have objects. -/
theorem of_reachable (reachable : properMachine.Reachable dvobjs) :
    ∃ live, Balanced live dvobjs := by
  apply reachable.invariant
  · intro dvobjs empty
    apply Exists.intro ∅
    constructor
    · intro value
      rw [empty.2]
      simp
    · intro value inside
      exact absurd inside (Finset.notMem_empty value)
    · intro library
      rw [Finset.filter_empty, Finset.card_empty]
      exact empty.1 library
  · intro dvobjs action next _ before taken
    have ⟨live, balanced⟩ := before
    rw [← taken.1.2]
    exact balanced.act taken.1.1 taken.2

end Balanced

/-- What the ways of giving up a reference to an object do to its library. -/
structure Unloads (live : Finset ℕ) (dvobjs : Dvobjs) (value library : ℕ) : Prop where
  /-- The library is open. -/
  isOpen : 0 < dvobjs.opened library
  /-- Unloading succeeds. -/
  succeeds : (unloadDvobj dvobjs value).1 = true
  /-- The last reference takes the library along. -/
  last : dvobjs.refs value = 1 → Balanced (live.erase value) (unloadDvobj dvobjs value).2
  /-- With another reference the object lives on, and its library is closed once too often. -/
  early : 1 < dvobjs.refs value → 0 < (unloadDvobj dvobjs value).2.refs value ∧
    (unloadDvobj dvobjs value).2.opened library + 1 =
      (live.filter (dvobjs.handle · = some library)).card
  /-- A last reference that is given up without unloading leaves the library open once too
  often. -/
  leaked : dvobjs.refs value = 1 → (dvobjs.act (.unref value)).refs value = 0 ∧
    (dvobjs.act (.unref value)).opened library =
      ((live.erase value).filter (dvobjs.handle · = some library)).card + 1

/-- Every object that lives can be unloaded. -/
theorem Balanced.unloads {live : Finset ℕ} {dvobjs : Dvobjs} {value library : ℕ}
    (balanced : Balanced live dvobjs) (inside : value ∈ live)
    (stored : dvobjs.handle value = some library) : Unloads live dvobjs value library := by
  have isOpen := balanced.library_open inside stored
  have unloaded := balanced.unloadDvobj_eq inside stored
  have member : value ∈ live.filter (dvobjs.handle · = some library) :=
    Finset.mem_filter.mpr ⟨inside, stored⟩
  constructor
  · exact isOpen
  · rw [unloaded]
  · exact balanced.unload
  · intro more
    rw [unloaded]
    constructor
    · show 0 < Function.update dvobjs.refs value (dvobjs.refs value - 1) value
      rw [Function.update_self]
      exact Nat.sub_pos_of_lt more
    · show Function.update dvobjs.opened library (dvobjs.opened library - 1) library + 1 = _
      rw [Function.update_self, Nat.sub_add_cancel isOpen, balanced.balanced]
  · intro last
    constructor
    · show Function.update dvobjs.refs value (dvobjs.refs value - 1) value = 0
      rw [Function.update_self, last]
    · show dvobjs.opened library = _
      rw [Finset.filter_erase, Finset.card_erase_add_one member, balanced.balanced]

/-- In every run of callers that unload an object through its last reference, each library is open
once for every object of it that lives, a load that fails leaves nothing open, and unloading
succeeds. An object that is unloaded through another reference than its last one lives on with its
library closed once too often, and a last reference that is given up without unloading leaves the
library open once too often. -/
theorem libraries_balanced {dvobjs : Dvobjs} (reachable : properMachine.Reachable dvobjs) :
    ∃ live : Finset ℕ, Balanced live dvobjs ∧
      (∀ found library, (loadDvobj dvobjs found library).1 = none →
        (loadDvobj dvobjs found library).2 = dvobjs) ∧
      ∀ value ∈ live, ∃ library, dvobjs.handle value = some library ∧
        Unloads live dvobjs value library := by
  have ⟨live, balanced⟩ := Balanced.of_reachable reachable
  apply Exists.intro live
  constructor
  · exact balanced
  constructor
  · intro found library failed
    exact Balanced.load_failed failed
  · intro value inside
    have ⟨library, _, stored⟩ := balanced.handled value inside
    exact ⟨library, stored, balanced.unloads inside stored⟩

/-- The state before any library is loaded. -/
def unloaded : Dvobjs := ⟨fun _ => 0, fun _ => 0, fun _ => none⟩

/-- An object of library 7 was made. -/
def loadedOnce : Dvobjs := unloaded.act (.load (some 7) ⟨true, some (5, true), true⟩)

/-- Unloading an object that is held twice is too early. -/
theorem libraries_balanced_twice :
    (loadedOnce.act (.ref 5)).refs 5 = 2 ∧ (loadedOnce.act (.ref 5)).opened 7 = 1 ∧
      ∃ live : Finset ℕ, Balanced live (loadedOnce.act (.ref 5)) ∧
        (∀ found library, (loadDvobj (loadedOnce.act (.ref 5)) found library).1 = none →
          (loadDvobj (loadedOnce.act (.ref 5)) found library).2 = loadedOnce.act (.ref 5)) ∧
        ∀ value ∈ live, ∃ library, (loadedOnce.act (.ref 5)).handle value = some library ∧
          Unloads live (loadedOnce.act (.ref 5)) value library := by
  have start : properMachine.Reachable unloaded := .start ⟨fun _ => rfl, fun _ => rfl⟩
  have first : properMachine.step unloaded (.load (some 7) ⟨true, some (5, true), true⟩)
      loadedOnce := ⟨⟨⟨by decide, fun _ _ _ => rfl⟩, rfl⟩, rfl⟩
  have second : properMachine.step loadedOnce (.ref 5) (loadedOnce.act (.ref 5)) :=
    ⟨⟨Nat.one_pos, rfl⟩, trivial⟩
  have held := Machine.Reachable.step (Machine.Reachable.step start first) second
  exact ⟨rfl, rfl, libraries_balanced held⟩

end Bpcp.Purc
