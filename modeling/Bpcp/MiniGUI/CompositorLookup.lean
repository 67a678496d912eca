import Bpcp.MiniGUI.CompositorSelected

/-!
# Finding a registered compositor

A compositor is found under the name that it was registered with when the name fits into a
slot and no slot in front of its own has the name. The second may fail at once, and it may
fail later, because a slot in front can be freed and taken again under the same name.
-/

namespace Bpcp.MiniGUI

open Bpcp.Lib

variable {Ops Ctxt : Type}

/-- The registration that a step attempts. -/
def CompositorStep.registration : CompositorStep Ops Ctxt → Option (CString × Ops)
  | .register (some name) (some ops) => some (name, ops)
  | .init (some ops) _ => some (compsorNameDefault, ops)
  | _ => none

/-- The name is cut off to another one, and a free slot is in front of those with the other. -/
def TakesFront (table : Compositors Ops) (other name : CString) : Prop :=
  other.bytes.take lenCompositorName = name.bytes ∧ FreeInFront name table

/-- A step registers other operations under a name, or under one that is cut off to it, in front
of the slots with the name. -/
def Shadows (state : CompositorState Ops Ctxt) (name : CString) (ops : Ops)
    (step : CompositorStep Ops Ctxt) : Prop :=
  ∃ other stored, step.registration = some (other, stored) ∧
    TakesFront state.compositors other name ∧ stored ≠ ops

/-- Where a free slot is in front, a registration succeeds. -/
theorem registerLoop_of_freeInFront {table : Compositors Ops} {name : CString}
    (front : FreeInFront name table) (other : CString) (ops : Ops) :
    ∃ next, registerLoop other ops table = some next := by
  induction table with
  | nil => exact front.elim
  | cons slot rest ih =>
    rw [registerLoop]
    by_cases free : slot.name.isEmpty = true
    · exact ⟨_, if_pos free⟩
    · obtain ⟨next, loop⟩ := ih (front.resolve_left free).2
      exact ⟨slot :: next, by rw [if_neg free, loop, Option.map_some]⟩

/-- A name that is not empty is looked up in the slots. -/
theorem serverGetCompositorOps_of_nonEmpty {name : CString} (nonEmpty : name.bytes ≠ [])
    (table : Compositors Ops) :
    serverGetCompositorOps table (some name) = findCompositor name table := by
  rw [serverGetCompositorOps, nonEmptyName_eq_some.2 ⟨rfl, nonEmpty⟩]

/-- After a registration, operations are found under a name when they were registered in front,
or when nothing was and they were found before. -/
theorem serverRegisterCompositor_find {table : Compositors Ops} {name : CString} {ops : Ops}
    (nonEmpty : name.bytes ≠ []) (other : CString) (stored : Ops) :
    findCompositor name (serverRegisterCompositor table (some other) (some stored)).2 = some ops ↔
      TakesFront table other name ∧ stored = ops ∨
        ¬TakesFront table other name ∧ findCompositor name table = some ops := by
  rcases serverRegisterCompositor_cases table (some other) (some stored) with
    refused | ⟨text, written, next, same, filled, held, loop, done⟩
  · -- Nothing is in front, because a registration there would not have been refused.
    have behind : ¬TakesFront table other name := by
      rintro ⟨named, front⟩
      obtain ⟨next, loop⟩ := registerLoop_of_freeInFront front other stored
      have given : nonEmptyName (some other) = some other := by
        refine nonEmptyName_eq_some.2 ⟨rfl, fun empty => nonEmpty ?_⟩
        rw [← named, empty, List.take_nil]
      simp [serverRegisterCompositor, given, loop] at refused
    simp [refused, behind]
  · obtain rfl := Option.some.inj same
    obtain rfl := Option.some.inj held
    rw [done]
    by_cases front : TakesFront table other name
    · rw [registerLoop_find_new loop front.1 front.2]
      simp [front]
    · rw [registerLoop_find_old loop nonEmpty front]
      simp [front]

variable {env : CompositorEnv Ops} {state : CompositorState Ops Ctxt} {name : CString} {ops : Ops}

/-- A step that attempts no registration shadows nothing. -/
theorem not_shadows {step : CompositorStep Ops Ctxt} (attempt : step.registration = none) :
    ¬Shadows state name ops step := by
  rintro ⟨other, stored, same, -⟩
  rw [attempt] at same
  exact absurd same (by simp)

variable [DecidableEq Ops]

/-- A step removes the compositor of a name. -/
def Removes (state : CompositorState Ops Ctxt) (name : CString)
    (step : CompositorStep Ops Ctxt) : Prop :=
  step = .unregister (some name) ∧
    (serverUnregisterCompositor state.compositors state.currOps (some name)).1 = true

/-- Selecting a compositor leaves the table alone. -/
theorem serverSelectCompositor_compositors (env : CompositorEnv Ops)
    (state : CompositorState Ops Ctxt) (name : Option CString) (answer : Option Ctxt) :
    (serverSelectCompositor env state name answer).state.compositors = state.compositors := by
  rcases serverSelectCompositor_cases env state name answer with
    same | ⟨text, ops, -, -, -, -, replaced⟩
  · rw [same]
  · rw [replaced]
    cases answer with
    | none => rfl
    | some context => rw [replaceCompositor_compositors]; rfl

/-- A removal that does not remove the name leaves it findable. -/
theorem serverUnregisterCompositor_find (nonEmpty : name.bytes ≠ []) {given : Option CString}
    (kept : ¬Removes state name (.unregister given)) :
    findCompositor name (serverUnregisterCompositor state.compositors state.currOps given).2 =
      findCompositor name state.compositors := by
  rcases serverUnregisterCompositor_cases state.compositors state.currOps given with
    refused | ⟨text, next, rfl, -, -, loop, done⟩
  · rw [refused]
  · rw [done]
    apply unregisterLoop_find loop nonEmpty
    rintro rfl
    exact kept ⟨rfl, by rw [done]⟩

/-- What is found is found after a registration unless that shadows it. -/
theorem findCompositor_register (nonEmpty : name.bytes ≠ []) {step : CompositorStep Ops Ctxt}
    {other : CString} {stored : Ops} (attempt : step.registration = some (other, stored))
    (found : findCompositor name state.compositors = some ops) :
    findCompositor name
        (serverRegisterCompositor state.compositors (some other) (some stored)).2 = some ops ↔
      ¬Shadows state name ops step := by
  rw [serverRegisterCompositor_find nonEmpty]
  constructor
  · rintro after ⟨again, written, same, front, differs⟩
    obtain ⟨rfl, rfl⟩ := Prod.mk.inj (Option.some.inj (attempt.symm.trans same))
    rcases after with ⟨-, equal⟩ | ⟨behind, -⟩
    · exact differs equal
    · exact behind front
  · intro clear
    by_cases front : TakesFront state.compositors other name
    · refine Or.inl ⟨front, ?_⟩
      by_contra differs
      exact clear ⟨other, stored, attempt, front, differs⟩
    · exact Or.inr ⟨front, found⟩

/-- What is found is found after a step that does not remove it unless the step shadows it. -/
theorem findCompositor_apply (nonEmpty : name.bytes ≠ []) (step : CompositorStep Ops Ctxt)
    (found : findCompositor name state.compositors = some ops) (kept : ¬Removes state name step) :
    findCompositor name (state.apply env step).compositors = some ops ↔
      ¬Shadows state name ops step := by
  cases step with
  | init loaded answer =>
    obtain ⟨selected, same⟩ := mgInitCompositor_state env state loaded answer
    change findCompositor name (mgInitCompositor env state loaded answer).2.compositors = _ ↔ _
    rw [same, serverSelectCompositor_compositors]
    cases loaded with
    | none => exact ⟨fun _ => not_shadows rfl, fun _ => found⟩
    | some stored => exact findCompositor_register nonEmpty rfl found
  | register other stored =>
    cases other with
    | none => exact ⟨fun _ => not_shadows rfl, fun _ => found⟩
    | some other =>
      cases stored with
      | some stored => exact findCompositor_register nonEmpty rfl found
      | none =>
        have refused : (serverRegisterCompositor state.compositors (some other) none).2 =
            state.compositors := by
          rcases serverRegisterCompositor_cases state.compositors (some other) none with
            refused | ⟨_, _, _, -, -, absent, -⟩
          · rw [refused]
          · exact absurd absent (by simp)
        change findCompositor name (serverRegisterCompositor state.compositors _ none).2 = _ ↔ _
        rw [refused]
        exact ⟨fun _ => not_shadows rfl, fun _ => found⟩
  | unregister given =>
    change findCompositor name (serverUnregisterCompositor _ _ given).2 = _ ↔ _
    rw [serverUnregisterCompositor_find nonEmpty kept]
    exact ⟨fun _ => not_shadows rfl, fun _ => found⟩
  | select given answer =>
    change findCompositor name (serverSelectCompositor env state given answer).state.compositors =
      _ ↔ _
    rw [serverSelectCompositor_compositors]
    exact ⟨fun _ => not_shadows rfl, fun _ => found⟩
  | desktop desktop => exact ⟨fun _ => not_shadows rfl, fun _ => found⟩

/-! ## Runs -/

/-- Along a run, the operations are found under the name until a step removes the name. -/
def FoundAlong (env : CompositorEnv Ops) (name : CString) (ops : Ops) :
    List (CompositorStep Ops Ctxt) → CompositorState Ops Ctxt → Prop
  | [], state => serverGetCompositorOps state.compositors (some name) = some ops
  | step :: rest, state =>
    serverGetCompositorOps state.compositors (some name) = some ops ∧
      (Removes state name step ∨ FoundAlong env name ops rest (state.apply env step))

/-- Along a run, no step shadows the operations until a step removes the name. -/
def Undisturbed (env : CompositorEnv Ops) (name : CString) (ops : Ops) :
    List (CompositorStep Ops Ctxt) → CompositorState Ops Ctxt → Prop
  | [], _ => True
  | step :: rest, state =>
    Removes state name step ∨
      ¬Shadows state name ops step ∧ Undisturbed env name ops rest (state.apply env step)

/-- The operations are found along a run when they are found at its start and not shadowed. -/
theorem foundAlong_iff (nonEmpty : name.bytes ≠ []) (steps : List (CompositorStep Ops Ctxt)) :
    FoundAlong env name ops steps state ↔
      serverGetCompositorOps state.compositors (some name) = some ops ∧
        Undisturbed env name ops steps state := by
  induction steps generalizing state with
  | nil => exact (and_iff_left trivial).symm
  | cons step rest ih =>
    rw [FoundAlong, Undisturbed, ih]
    refine and_congr_right fun found => ?_
    by_cases removed : Removes state name step
    · exact iff_of_true (Or.inl removed) (Or.inl removed)
    · rw [or_iff_right removed, or_iff_right removed]
      rw [serverGetCompositorOps_of_nonEmpty nonEmpty] at found ⊢
      rw [findCompositor_apply nonEmpty step found removed]

/-- After a registration the operations are found at once and until the name is removed, exactly
when the name fits into a slot, no slot in front of the taken one has the name
with other operations, and no later registration shadows them. A full table is covered as well:
there the registration returns `FALSE` and leaves the table, so the operations have to be found
already. -/
theorem register_foundAlong_iff (nonEmpty : name.bytes ≠ [])
    (steps : List (CompositorStep Ops Ctxt)) :
    FoundAlong env name ops steps (state.apply env (.register (some name) (some ops))) ↔
      name.strlen ≤ lenCompositorName ∧
        (FreeInFront name state.compositors ∨
          serverGetCompositorOps state.compositors (some name) = some ops) ∧
        Undisturbed env name ops steps (state.apply env (.register (some name) (some ops))) := by
  rw [foundAlong_iff nonEmpty, ← and_assoc]
  refine and_congr_left fun _ => ?_
  rw [serverGetCompositorOps_of_nonEmpty nonEmpty, serverGetCompositorOps_of_nonEmpty nonEmpty]
  change findCompositor name (serverRegisterCompositor state.compositors _ _).2 = some ops ↔ _
  rw [serverRegisterCompositor_find nonEmpty]
  have fits : name.bytes.take lenCompositorName = name.bytes ↔ name.strlen ≤ lenCompositorName :=
    List.take_eq_self_iff _
  constructor
  · rintro (⟨⟨whole, front⟩, -⟩ | ⟨-, found⟩)
    · exact ⟨fits.1 whole, Or.inl front⟩
    · exact ⟨findCompositor_short found, Or.inr found⟩
  · rintro ⟨short, front | found⟩
    · exact Or.inl ⟨⟨fits.2 short, front⟩, rfl⟩
    · by_cases front : TakesFront state.compositors name name
      · exact Or.inl ⟨front, rfl⟩
      · exact Or.inr ⟨front, found⟩

/-- The state at the start. -/
def exampleStart : CompositorState Bool Nat := initialState exampleEnv emptyDesktop

/-- A name of nine bytes. -/
def shortName : CString := .lit "my_compor"

/-- A compositor with a short name is found until it is removed. -/
theorem register_foundAlong_short :
    FoundAlong exampleEnv shortName true [.unregister (some shortName)]
      (exampleStart.apply exampleEnv (.register (some shortName) (some true))) :=
  (register_foundAlong_iff (by decide) _).2
    ⟨by decide, Or.inl (Or.inr ⟨by decide, Or.inl rfl⟩), Or.inl ⟨rfl, rfl⟩⟩

/-- A name of sixteen bytes. -/
def longName : CString := .lit "my_own_composite"

/-- A compositor with a long name is registered in the initial table and not found. -/
theorem register_not_foundAlong_long :
    (compositorMachine exampleEnv).Reachable exampleStart ∧
      (serverRegisterCompositor exampleStart.compositors (some longName) (some true)).1 = true ∧
      ¬FoundAlong exampleEnv longName true []
        (exampleStart.apply exampleEnv (.register (some longName) (some true))) := by
  refine ⟨.start ⟨emptyDesktop, rfl⟩, rfl, ?_⟩
  intro found
  have absent : serverGetCompositorOps (exampleStart.apply exampleEnv
      (.register (some longName) (some true))).compositors (some longName) = none := rfl
  exact absurd (absent.symm.trans found) (by simp)

end Bpcp.MiniGUI
