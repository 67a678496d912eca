import Bpcp.MiniGUI.Compositor

/-!
# The selected compositor stays in the table

A removal refuses the first slot with the name when its operations are selected, and so never
clears a slot whose operations are selected, whatever names they have besides. The first slot
keeps the fallback compositor, because its name is refused by every removal.
-/

namespace Bpcp.MiniGUI

open Bpcp.Lib

variable {Ops Ctxt : Type}

/-- Replacing the compositor leaves the table alone. -/
@[simp] theorem replaceCompositor_compositors (env : CompositorEnv Ops) (ops : Ops) (ctxt : Ctxt)
    (state : CompositorState Ops Ctxt) :
    (replaceCompositor env ops ctxt state).compositors = state.compositors := by
  rw [replaceCompositor]
  cases state.currOps <;> rfl

/-- Replacing the compositor selects it. -/
@[simp] theorem replaceCompositor_currOps (env : CompositorEnv Ops) (ops : Ops) (ctxt : Ctxt)
    (state : CompositorState Ops Ctxt) :
    (replaceCompositor env ops ctxt state).currOps = some ops := rfl

/-- Replacing the compositor keeps the context that it got. -/
@[simp] theorem replaceCompositor_currCtxt (env : CompositorEnv Ops) (ops : Ops) (ctxt : Ctxt)
    (state : CompositorState Ops Ctxt) :
    (replaceCompositor env ops ctxt state).currCtxt = some ctxt := rfl

/-! ## What stays in the table -/

/-- The first slot holds the fallback compositor. -/
def FallbackFirst (mgFallbackCompositor : Ops) (table : Compositors Ops) : Prop :=
  ∃ slot rest, table = slot :: rest ∧ slot.name.text = compsorNameFallback ∧
    slot.ops = some mgFallbackCompositor

/-- Some slot that is not free holds the operations. -/
def Stored (ops : Ops) (table : Compositors Ops) : Prop :=
  ∃ slot ∈ table, slot.name.isEmpty = false ∧ slot.ops = some ops

/-- An empty name is not the name of the fallback compositor. -/
theorem isEmpty_of_fallback {name : CompositorName} (named : name.text = compsorNameFallback) :
    name.isEmpty = false := by
  rw [Bool.eq_false_iff, ne_eq, CompositorName.isEmpty_iff, named]
  decide

/-- What is found is stored. -/
theorem stored_of_findCompositor {name : CString} {table : Compositors Ops} {ops : Ops}
    (nonEmpty : name.bytes ≠ []) (found : findCompositor name table = some ops) :
    Stored ops table := by
  obtain ⟨slot, member, named, held⟩ := findCompositor_cases found
  refine ⟨slot, member, ?_, held⟩
  rw [Bool.eq_false_iff, ne_eq, CompositorName.isEmpty_iff, named]
  exact nonEmpty

/-- A slot that was replaced in a list is no longer there, the others are. -/
theorem mem_replace {α : Type} {front back : List α} {old new other : α}
    (member : other ∈ front ++ old :: back) (apart : other ≠ old) :
    other ∈ front ++ new :: back := by
  rw [List.mem_append, List.mem_cons] at member ⊢
  rcases member with inFront | same | inBack
  · exact Or.inl inFront
  · exact absurd same apart
  · exact Or.inr (Or.inr inBack)

/-- The invariant of the table and the selection. -/
structure TableSound (env : CompositorEnv Ops) (state : CompositorState Ops Ctxt) : Prop where
  /-- The first slot holds the fallback compositor. -/
  first : FallbackFirst env.mgFallbackCompositor state.compositors
  /-- The selected operations are stored. -/
  current : ∀ ops, state.currOps = some ops → Stored ops state.compositors

/-- The invariant holds at the start. -/
theorem TableSound.initial (env : CompositorEnv Ops) (desktop : Desktop) :
    TableSound env (initialState env desktop : CompositorState Ops Ctxt) where
  first := by
    refine ⟨_, _, rfl, CString.ext ?_, rfl⟩
    rw [CompositorName.copy_text]
    decide
  current := by
    intro ops selected
    exact absurd selected (by simp [initialState])

/-! ## What a step does to the table -/

/-- A registration that succeeds went through the loop. -/
theorem serverRegisterCompositor_cases (table : Compositors Ops) (name : Option CString)
    (ops : Option Ops) :
    serverRegisterCompositor table name ops = (false, table) ∨
      ∃ text stored next, name = some text ∧ text.bytes ≠ [] ∧ ops = some stored ∧
        registerLoop text stored table = some next ∧
        serverRegisterCompositor table name ops = (true, next) := by
  cases given : nonEmptyName name with
  | none => exact Or.inl (by simp only [serverRegisterCompositor, given])
  | some text =>
    cases ops with
    | none => exact Or.inl (by simp only [serverRegisterCompositor, given])
    | some stored =>
      cases loop : registerLoop text stored table with
      | none => exact Or.inl (by simp only [serverRegisterCompositor, given, loop])
      | some next =>
        obtain ⟨same, nonEmpty⟩ := nonEmptyName_eq_some.1 given
        refine Or.inr ⟨text, stored, next, same, nonEmpty, rfl, loop, ?_⟩
        simp only [serverRegisterCompositor, given, loop]

variable [DecidableEq Ops]

/-- A change of the table by a function of the server. -/
inductive TableStep (currOps : Option Ops) (table : Compositors Ops) : Compositors Ops → Prop where
  /-- Nothing changes. -/
  | refl : TableStep currOps table table
  /-- A compositor is registered. -/
  | register {name : CString} {ops : Ops} {next : Compositors Ops} :
      name.bytes ≠ [] → registerLoop name ops table = some next → TableStep currOps table next
  /-- A compositor is removed. -/
  | unregister {name : CString} {next : Compositors Ops} :
      name.bytes ≠ [] → name ≠ compsorNameFallback →
      unregisterLoop currOps name table = some next → TableStep currOps table next

/-- A removal that succeeds went through the loop. -/
theorem serverUnregisterCompositor_cases (table : Compositors Ops) (currOps : Option Ops)
    (name : Option CString) :
    serverUnregisterCompositor table currOps name = (false, table) ∨
      ∃ text next, name = some text ∧ text.bytes ≠ [] ∧ text ≠ compsorNameFallback ∧
        unregisterLoop currOps text table = some next ∧
        serverUnregisterCompositor table currOps name = (true, next) := by
  cases given : nonEmptyName name with
  | none => exact Or.inl (by simp only [serverUnregisterCompositor, given])
  | some text =>
    by_cases fallback : strcmp text compsorNameFallback = 0
    · exact Or.inl (by simp only [serverUnregisterCompositor, given, if_pos fallback])
    · cases loop : unregisterLoop currOps text table with
      | none =>
        exact Or.inl (by simp only [serverUnregisterCompositor, given, loop, if_neg fallback])
      | some next =>
        obtain ⟨same, nonEmpty⟩ := nonEmptyName_eq_some.1 given
        refine Or.inr ⟨text, next, same, nonEmpty, ?_, loop, ?_⟩
        · exact fun equal => fallback (strcmp_eq_zero.2 equal)
        · simp only [serverUnregisterCompositor, given, loop, if_neg fallback]

/-- A registration is a step of the table. -/
theorem serverRegisterCompositor_step (table : Compositors Ops) (currOps : Option Ops)
    (name : Option CString) (ops : Option Ops) :
    TableStep currOps table (serverRegisterCompositor table name ops).2 := by
  rcases serverRegisterCompositor_cases table name ops with
    refused | ⟨text, stored, next, -, nonEmpty, -, loop, done⟩
  · rw [refused]
    exact .refl
  · rw [done]
    exact .register nonEmpty loop

/-- A removal is a step of the table. -/
theorem serverUnregisterCompositor_step (table : Compositors Ops) (currOps : Option Ops)
    (name : Option CString) :
    TableStep currOps table (serverUnregisterCompositor table currOps name).2 := by
  rcases serverUnregisterCompositor_cases table currOps name with
    refused | ⟨text, next, -, nonEmpty, other, loop, done⟩
  · rw [refused]
    exact .refl
  · rw [done]
    exact .unregister nonEmpty other loop

/-! ## What a step does to the selection -/

/-- What `ServerSelectCompositor` can do: it selects nothing else, at most calling an initialize
callback in vain, or it replaces the compositor. -/
theorem serverSelectCompositor_cases (env : CompositorEnv Ops) (state : CompositorState Ops Ctxt)
    (name : Option CString) (answer : Option Ctxt) :
    (serverSelectCompositor env state name answer).state = state ∨
      ∃ text ops, name = some text ∧ findCompositor text state.compositors = some ops ∧
        text.bytes ≠ [] ∧ some ops ≠ state.currOps ∧
        (serverSelectCompositor env state name answer).state =
          match answer with
          | none => state.call [.initializeCall ops text none]
          | some ctxt =>
            replaceCompositor env ops ctxt (state.call [.initializeCall ops text (some ctxt)]) := by
  cases given : nonEmptyName name with
  | none => exact Or.inl (by simp only [serverSelectCompositor, given])
  | some text =>
    obtain ⟨same, nonEmpty⟩ := nonEmptyName_eq_some.1 given
    have get : serverGetCompositorOps state.compositors (some text) =
        findCompositor text state.compositors := by
      have again : nonEmptyName (some text) = some text := nonEmptyName_eq_some.2 ⟨rfl, nonEmpty⟩
      rw [serverGetCompositorOps, again]
    cases found : findCompositor text state.compositors with
    | none => exact Or.inl (by simp only [serverSelectCompositor, given, get, found])
    | some ops =>
      by_cases selected : some ops = state.currOps
      · exact Or.inl (by simp only [serverSelectCompositor, given, get, found, if_pos selected])
      · refine Or.inr ⟨text, ops, same, found, nonEmpty, selected, ?_⟩
        cases answer <;> simp only [serverSelectCompositor, given, get, found, if_neg selected]

/-! ## What a run keeps -/

variable {table next : Compositors Ops} {currOps : Option Ops}

/-- A step of the table keeps the fallback compositor first. -/
theorem TableStep.fallbackFirst {fallback : Ops} (step : TableStep currOps table next)
    (first : FallbackFirst fallback table) : FallbackFirst fallback next := by
  obtain ⟨head, rest, split, named, held⟩ := first
  cases step with
  | refl => exact ⟨head, rest, split, named, held⟩
  | register _ loop =>
    obtain ⟨front, slot, back, same, free, rfl⟩ := registerLoop_cases loop
    cases front with
    | nil =>
      obtain ⟨rfl, -⟩ := List.cons.inj (split.symm.trans same)
      rw [isEmpty_of_fallback named] at free
      exact absurd free (by decide)
    | cons first inner =>
      obtain ⟨rfl, -⟩ := List.cons.inj (split.symm.trans same)
      exact ⟨head, _, rfl, named, held⟩
  | unregister _ other loop =>
    obtain ⟨front, slot, back, same, removed, -, rfl⟩ := unregisterLoop_cases loop
    cases front with
    | nil =>
      obtain ⟨rfl, -⟩ := List.cons.inj (split.symm.trans same)
      exact absurd (removed.symm.trans named) other
    | cons first inner =>
      obtain ⟨rfl, -⟩ := List.cons.inj (split.symm.trans same)
      exact ⟨head, _, rfl, named, held⟩

/-- A step of the table keeps the selected operations stored. -/
theorem TableStep.stored {ops : Ops} (step : TableStep (some ops) table next)
    (stored : Stored ops table) : Stored ops next := by
  obtain ⟨holder, member, used, held⟩ := stored
  cases step with
  | refl => exact ⟨holder, member, used, held⟩
  | register _ loop =>
    obtain ⟨front, slot, back, rfl, free, rfl⟩ := registerLoop_cases loop
    have apart : holder ≠ slot := by
      intro same
      rw [same, free] at used
      exact absurd used (by decide)
    exact ⟨holder, mem_replace member apart, used, held⟩
  | unregister _ _ loop =>
    obtain ⟨front, slot, back, rfl, -, differs, rfl⟩ := unregisterLoop_cases loop
    have apart : holder ≠ slot := by
      intro same
      rw [← same, held] at differs
      exact differs rfl
    exact ⟨holder, mem_replace member apart, used, held⟩

variable {env : CompositorEnv Ops} {state : CompositorState Ops Ctxt}

/-- A step of the table keeps the invariant. -/
theorem TableSound.tableStep (sound : TableSound env state)
    (step : TableStep state.currOps state.compositors next) :
    TableSound env { state with compositors := next } where
  first := step.fallbackFirst sound.first
  current := by
    intro ops selected
    change state.currOps = some ops at selected
    rw [selected] at step
    exact step.stored (sound.current ops selected)

/-- Selecting a compositor keeps the invariant. -/
theorem TableSound.select (sound : TableSound env state) (name : Option CString)
    (answer : Option Ctxt) :
    TableSound env (serverSelectCompositor env state name answer).state := by
  rcases serverSelectCompositor_cases env state name answer with
    same | ⟨text, ops, -, found, nonEmpty, -, replaced⟩
  · rw [same]
    exact sound
  · rw [replaced]
    cases answer with
    | none => exact ⟨sound.first, sound.current⟩
    | some ctxt =>
      constructor
      · rw [replaceCompositor_compositors]
        exact sound.first
      · intro selected same
        rw [replaceCompositor_currOps, Option.some.injEq] at same
        rw [replaceCompositor_compositors, ← same]
        exact stored_of_findCompositor nonEmpty found

/-- Initializing the compositors registers what was loaded and selects a compositor. -/
theorem mgInitCompositor_state (env : CompositorEnv Ops) (state : CompositorState Ops Ctxt)
    (loaded : Option Ops) (answer : Option Ctxt) :
    ∃ name, (mgInitCompositor env state loaded answer).2 =
      (serverSelectCompositor env { state with
        compositors :=
          (serverRegisterCompositor state.compositors (some compsorNameDefault) loaded).2 }
        name answer).state := by
  cases loaded with
  | none => exact ⟨some compsorNameFallback, rfl⟩
  | some ops => exact ⟨_, rfl⟩

/-- Initializing the compositors keeps the invariant. -/
theorem TableSound.init (sound : TableSound env state) (loaded : Option Ops)
    (answer : Option Ctxt) : TableSound env (mgInitCompositor env state loaded answer).2 := by
  obtain ⟨name, same⟩ := mgInitCompositor_state env state loaded answer
  rw [same]
  have step := serverRegisterCompositor_step state.compositors state.currOps
    (some compsorNameDefault) loaded
  exact (sound.tableStep step).select name answer

/-- Every step of the server keeps the invariant. -/
theorem TableSound.apply (sound : TableSound env state) (step : CompositorStep Ops Ctxt) :
    TableSound env (state.apply env step) := by
  cases step with
  | init loaded answer => exact sound.init loaded answer
  | register name ops => exact sound.tableStep (serverRegisterCompositor_step _ _ name ops)
  | unregister name => exact sound.tableStep (serverUnregisterCompositor_step _ _ name)
  | select name answer => exact sound.select name answer
  | desktop desktop => exact ⟨sound.first, sound.current⟩

/-- The invariant holds in every reachable state. -/
theorem tableSound_of_reachable (reachable : (compositorMachine env).Reachable state) :
    TableSound env state := by
  refine reachable.invariant ?_ ?_
  · rintro _ ⟨desktop, rfl⟩
    exact .initial env desktop
  · rintro before step _ - sound rfl
    exact sound.apply step

/-- The selected compositor never dangles: the operations that are selected are held by a slot
with a name, the first slot holds the fallback compositor, and a selection in which the
initialize callback returns NULL selects nothing else. -/
theorem selected_stored (reachable : (compositorMachine env).Reachable state) :
    (∀ ops answer, (serverSelectCompositor env state none answer).ops = some ops →
      ∃ slot ∈ state.compositors, slot.name.text.bytes ≠ [] ∧ slot.ops = some ops) ∧
    (∃ slot, state.compositors[0]? = some slot ∧ slot.name.text = compsorNameFallback ∧
      slot.ops = some env.mgFallbackCompositor) ∧
    ∀ name, let after := (serverSelectCompositor env state name none).state
      after.currOps = state.currOps ∧ after.currCtxt = state.currCtxt ∧
        after.compositors = state.compositors := by
  have sound := tableSound_of_reachable reachable
  refine ⟨?_, ?_, ?_⟩
  · intro ops answer selected
    obtain ⟨slot, member, used, held⟩ := sound.current ops selected
    refine ⟨slot, member, ?_, held⟩
    rwa [Bool.eq_false_iff, ne_eq, CompositorName.isEmpty_iff] at used
  · obtain ⟨slot, rest, split, named, held⟩ := sound.first
    exact ⟨slot, by rw [split]; rfl, named, held⟩
  · intro name
    rcases serverSelectCompositor_cases env state name none with
      same | ⟨text, ops, -, -, -, -, failed⟩
    · rw [same]
      exact ⟨rfl, rfl, rfl⟩
    · rw [failed]
      exact ⟨rfl, rfl, rfl⟩

/-- Two compositors, the first of which is the fallback compositor. -/
def exampleEnv : CompositorEnv Bool := ⟨false, fun _ => true, fun _ => true⟩

/-- A desktop without nodes. -/
def emptyDesktop : Desktop := ⟨[], []⟩

/-- The first selection of the fallback compositor. -/
def selectFallback : CompositorStep Bool Nat := .select (some compsorNameFallback) (some 1)

/-- The fallback compositor is selected. -/
def fallbackSelected : CompositorState Bool Nat :=
  (initialState exampleEnv emptyDesktop).apply exampleEnv selectFallback

/-- The selected fallback compositor is in the table. -/
theorem selected_stored_fallback :
    ∃ slot ∈ fallbackSelected.compositors, slot.name.text.bytes ≠ [] ∧ slot.ops = some false := by
  have reachable : (compositorMachine exampleEnv).Reachable fallbackSelected :=
    .step (.start ⟨emptyDesktop, rfl⟩) (rfl : _ = CompositorState.apply _ _ selectFallback)
  exact (selected_stored reachable).1 false none rfl

end Bpcp.MiniGUI
