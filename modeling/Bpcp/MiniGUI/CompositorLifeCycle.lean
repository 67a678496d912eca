import Bpcp.MiniGUI.CompositorSelected

/-!
# The life cycle of contexts

A context belongs to the compositor whose initialize callback returned it, until that
compositor terminates it. Selecting compositors keeps to this, but `mg_TerminateCompositor`
hands whatever context is selected to the fallback compositor, also when the fallback
compositor could not be initialized and the context is that of another one.
-/

namespace Bpcp.MiniGUI

open Bpcp.Lib

variable {Ops Ctxt : Type}

/-- The initialize callback of a compositor returned the context. -/
def Initialized (calls : List (CompositorCall Ops Ctxt)) (ops : Ops) (ctxt : Ctxt) : Prop :=
  ∃ name, .initializeCall ops name (some ctxt) ∈ calls

/-- The context was terminated. -/
def Terminated (calls : List (CompositorCall Ops Ctxt)) (ctxt : Ctxt) : Prop :=
  ∃ ops, .terminate ops (some ctxt) ∈ calls

/-- A pointer to a context of the compositor that was not terminated. -/
def Live (calls : List (CompositorCall Ops Ctxt)) (ops : Ops) (ctxt : Option Ctxt) : Prop :=
  ∃ context, ctxt = some context ∧ Initialized calls ops context ∧ ¬Terminated calls context

/-- After the earlier calls, a call that terminates or purges passes a context of the compositor
that was not terminated. -/
def Paired (earlier : List (CompositorCall Ops Ctxt)) : CompositorCall Ops Ctxt → Prop
  | .terminate ops ctxt => Live earlier ops ctxt
  | .purgePppData ops ctxt _ _ => Live earlier ops ctxt
  | .purgeWinData ops ctxt _ _ _ => Live earlier ops ctxt
  | _ => True

/-- All calls after the earlier ones are paired. -/
def WellPairedAfter : List (CompositorCall Ops Ctxt) → List (CompositorCall Ops Ctxt) → Prop
  | _, [] => True
  | earlier, call :: rest => Paired earlier call ∧ WellPairedAfter (earlier ++ [call]) rest

/-- All calls are paired. -/
def WellPaired (calls : List (CompositorCall Ops Ctxt)) : Prop := WellPairedAfter [] calls

/-- The call neither starts nor ends the life of a context. -/
def CompositorCall.isQuiet : CompositorCall Ops Ctxt → Bool
  | .initializeCall .. | .terminate .. => false
  | _ => true

/-! ## Calls that are added -/

variable {calls earlier more first second : List (CompositorCall Ops Ctxt)} {ops : Ops}
  {ctxt : Option Ctxt} {context : Ctxt}

/-- Calls are paired when the first of them and then the others are. -/
theorem wellPairedAfter_append :
    WellPairedAfter earlier (first ++ second) ↔
      WellPairedAfter earlier first ∧ WellPairedAfter (earlier ++ first) second := by
  induction first generalizing earlier with
  | nil => simp [WellPairedAfter]
  | cons call rest ih =>
    rw [List.cons_append, WellPairedAfter, WellPairedAfter, ih, and_assoc, List.append_assoc,
      List.singleton_append]

/-- What was initialized stays so. -/
theorem Initialized.append (initialized : Initialized calls ops context)
    (more : List (CompositorCall Ops Ctxt)) : Initialized (calls ++ more) ops context := by
  obtain ⟨name, member⟩ := initialized
  exact ⟨name, List.mem_append_left _ member⟩

/-- Quiet calls initialize nothing. -/
theorem initialized_quiet (quiet : ∀ call ∈ more, call.isQuiet = true) :
    Initialized (calls ++ more) ops context ↔ Initialized calls ops context := by
  constructor
  · rintro ⟨name, member⟩
    rcases List.mem_append.1 member with before | after
    · exact ⟨name, before⟩
    · exact absurd (quiet _ after) (by simp [CompositorCall.isQuiet])
  · intro initialized
    exact initialized.append more

/-- Quiet calls terminate nothing. -/
theorem terminated_quiet (quiet : ∀ call ∈ more, call.isQuiet = true) :
    Terminated (calls ++ more) context ↔ Terminated calls context := by
  constructor
  · rintro ⟨ops, member⟩
    rcases List.mem_append.1 member with before | after
    · exact ⟨ops, before⟩
    · exact absurd (quiet _ after) (by simp [CompositorCall.isQuiet])
  · rintro ⟨ops, member⟩
    exact ⟨ops, List.mem_append_left _ member⟩

/-- Quiet calls leave contexts alive. -/
theorem live_quiet (quiet : ∀ call ∈ more, call.isQuiet = true) :
    Live (calls ++ more) ops ctxt ↔ Live calls ops ctxt := by
  simp only [Live, initialized_quiet quiet, terminated_quiet quiet]

/-- Quiet calls change nothing for the calls after them. -/
theorem paired_quiet (quiet : ∀ call ∈ more, call.isQuiet = true)
    (call : CompositorCall Ops Ctxt) : Paired (calls ++ more) call ↔ Paired calls call := by
  cases call <;> simp only [Paired, live_quiet quiet]

/-- Quiet calls are paired when each of them is. -/
theorem wellPairedAfter_quiet (quiet : ∀ call ∈ more, call.isQuiet = true)
    (paired : ∀ call ∈ more, Paired earlier call) : WellPairedAfter earlier more := by
  induction more generalizing earlier with
  | nil => trivial
  | cons call rest ih =>
    refine ⟨paired call List.mem_cons_self, ?_⟩
    apply ih fun other member => quiet other (List.mem_cons_of_mem _ member)
    intro other member
    rw [paired_quiet (by simpa using quiet call List.mem_cons_self)]
    exact paired other (List.mem_cons_of_mem _ member)

/-- A call of an initialize callback initializes what it returns. -/
theorem initialized_initializeCall {other : Ops} {name : CString} {result : Option Ctxt} :
    Initialized (calls ++ [.initializeCall other name result]) ops context ↔
      Initialized calls ops context ∨ ops = other ∧ result = some context := by
  simp only [Initialized, List.mem_append, List.mem_singleton, CompositorCall.initializeCall.injEq,
    exists_or]
  constructor
  · rintro (before | ⟨_, rfl, -, rfl⟩)
    · exact Or.inl before
    · exact Or.inr ⟨rfl, rfl⟩
  · rintro (before | ⟨rfl, rfl⟩)
    · exact Or.inl before
    · exact Or.inr ⟨name, rfl, rfl, rfl⟩

/-- A call of an initialize callback terminates nothing. -/
theorem terminated_initializeCall {other : Ops} {name : CString} {result : Option Ctxt} :
    Terminated (calls ++ [.initializeCall other name result]) context ↔
      Terminated calls context := by
  simp [Terminated]

/-- A call of a terminate callback initializes nothing. -/
theorem initialized_terminate {other : Ops} :
    Initialized (calls ++ [.terminate other ctxt]) ops context ↔
      Initialized calls ops context := by
  simp [Initialized]

/-- A call of a terminate callback terminates the context that it passes. -/
theorem terminated_terminate {other : Ops} :
    Terminated (calls ++ [.terminate other ctxt]) context ↔
      Terminated calls context ∨ ctxt = some context := by
  simp only [Terminated, List.mem_append, List.mem_singleton, CompositorCall.terminate.injEq,
    exists_or]
  constructor
  · rintro (before | ⟨_, rfl, rfl⟩)
    · exact Or.inl before
    · exact Or.inr rfl
  · rintro (before | rfl)
    · exact Or.inl before
    · exact Or.inr ⟨other, rfl, rfl⟩

/-! ## Nodes that change hands -/

/-- Purging calls callbacks that purge. -/
theorem mem_purgeCalls {env : CompositorEnv Ops} {desktop : Desktop}
    {call : CompositorCall Ops Ctxt} (member : call ∈ purgeCalls env ops ctxt desktop) :
    (∃ i privData, call = .purgePppData ops ctxt i privData) ∨
      ∃ layer i privData, call = .purgeWinData ops ctxt layer i privData := by
  rw [purgeCalls, List.mem_append] at member
  rcases member with popup | window
  · split_ifs at popup
    · obtain ⟨⟨node, i⟩, -, made⟩ := List.mem_filterMap.1 popup
      obtain ⟨privData, -, rfl⟩ := Option.map_eq_some_iff.1 made
      exact Or.inl ⟨i, privData, rfl⟩
    · exact absurd popup List.not_mem_nil
  · split_ifs at window
    · obtain ⟨⟨nodes, layer⟩, -, inner⟩ := List.mem_flatMap.1 window
      obtain ⟨⟨next, node⟩, -, made⟩ := List.mem_filterMap.1 inner
      obtain ⟨privData, -, rfl⟩ := Option.map_eq_some_iff.1 made
      exact Or.inr ⟨layer, next, privData, rfl⟩
    · exact absurd window List.not_mem_nil

/-- Purging is quiet. -/
theorem purgeCalls_quiet (env : CompositorEnv Ops) (ops : Ops) (ctxt : Option Ctxt)
    (desktop : Desktop) : ∀ call ∈ purgeCalls env ops ctxt desktop, call.isQuiet = true := by
  intro call member
  rcases mem_purgeCalls member with ⟨i, privData, rfl⟩ | ⟨layer, i, privData, rfl⟩ <;> rfl

/-- Purging a live context is paired. -/
theorem purgeCalls_paired {env : CompositorEnv Ops} {desktop : Desktop}
    (live : Live earlier ops ctxt) :
    ∀ call ∈ purgeCalls env ops ctxt desktop, Paired earlier call := by
  intro call member
  rcases mem_purgeCalls member with ⟨i, privData, rfl⟩ | ⟨layer, i, privData, rfl⟩ <;> exact live

/-- Rebuilding calls callbacks that show nodes. -/
theorem mem_rebuildCalls {desktop : Desktop} {call : CompositorCall Ops Ctxt}
    (member : call ∈ rebuildCalls ops ctxt desktop) :
    (∃ i, call = .onShowingPpp ops ctxt i) ∨ ∃ layer i, call = .onShowingWin ops ctxt layer i := by
  rw [rebuildCalls, List.mem_append] at member
  rcases member with popup | window
  · obtain ⟨⟨node, i⟩, -, made⟩ := List.mem_filterMap.1 popup
    dsimp only at made
    split_ifs at made
    exact Or.inl ⟨i, (Option.some.inj made).symm⟩
  · obtain ⟨⟨nodes, layer⟩, -, inner⟩ := List.mem_flatMap.1 window
    obtain ⟨⟨next, node⟩, -, made⟩ := List.mem_filterMap.1 inner
    dsimp only at made
    split_ifs at made
    exact Or.inr ⟨layer, next, (Option.some.inj made).symm⟩

/-! ## The invariant of the calls -/

/-- The calls that were made are paired, a terminated context was initialized, and it has one
owner. -/
structure CallsSound (calls : List (CompositorCall Ops Ctxt)) : Prop where
  /-- The calls are paired. -/
  paired : WellPaired calls
  /-- A terminated context was initialized. -/
  known : ∀ context, Terminated calls context → ∃ ops, Initialized calls ops context
  /-- A context was returned by one compositor only. -/
  owner : ∀ left right context, Initialized calls left context → Initialized calls right context →
    left = right

namespace CallsSound

/-- Quiet calls that are paired keep the invariant. -/
theorem quiet (sound : CallsSound calls) (quiet : ∀ call ∈ more, call.isQuiet = true)
    (paired : ∀ call ∈ more, Paired calls call) : CallsSound (calls ++ more) where
  paired := wellPairedAfter_append.2 ⟨sound.paired, wellPairedAfter_quiet quiet paired⟩
  known := by
    intro context terminated
    obtain ⟨ops, initialized⟩ := sound.known context ((terminated_quiet quiet).1 terminated)
    exact ⟨ops, initialized.append more⟩
  owner := by
    intro left right context first second
    exact sound.owner left right context ((initialized_quiet quiet).1 first)
      ((initialized_quiet quiet).1 second)

/-- An initialize callback that returns NULL or a fresh context keeps the invariant. -/
theorem initializing (sound : CallsSound calls) (ops : Ops) (name : CString) {answer : Option Ctxt}
    (fresh : ∀ context, answer = some context → ∀ ops, ¬Initialized calls ops context) :
    CallsSound (calls ++ [.initializeCall ops name answer]) where
  paired := wellPairedAfter_append.2 ⟨sound.paired, trivial, trivial⟩
  known := by
    intro context terminated
    obtain ⟨ops, initialized⟩ := sound.known context (terminated_initializeCall.1 terminated)
    exact ⟨ops, initialized.append _⟩
  owner := by
    intro left right context first second
    rcases initialized_initializeCall.1 first with before | ⟨rfl, returned⟩
    · rcases initialized_initializeCall.1 second with also | ⟨-, returned⟩
      · exact sound.owner left right context before also
      · exact absurd before (fresh context returned left)
    · rcases initialized_initializeCall.1 second with before | ⟨rfl, -⟩
      · exact absurd before (fresh context returned right)
      · rfl

/-- Terminating a live context keeps the invariant. -/
theorem terminate (sound : CallsSound calls) (live : Live calls ops ctxt) :
    CallsSound (calls ++ [.terminate ops ctxt]) where
  paired := wellPairedAfter_append.2 ⟨sound.paired, live, trivial⟩
  known := by
    intro context terminated
    rcases terminated_terminate.1 terminated with before | passed
    · obtain ⟨other, initialized⟩ := sound.known context before
      exact ⟨other, initialized.append _⟩
    · obtain ⟨same, passed', initialized, -⟩ := live
      rw [passed', Option.some.injEq] at passed
      rw [← passed]
      exact ⟨ops, initialized.append _⟩
  owner := by
    intro left right context first second
    exact sound.owner left right context (initialized_terminate.1 first)
      (initialized_terminate.1 second)

/-- Purging and terminating a live context keeps the invariant. -/
theorem retire (sound : CallsSound calls) (live : Live calls ops ctxt) (env : CompositorEnv Ops)
    (desktop : Desktop) :
    CallsSound (calls ++ purgeCalls env ops ctxt desktop ++ [.terminate ops ctxt]) := by
  have quiet := purgeCalls_quiet env ops ctxt desktop
  exact (sound.quiet quiet (purgeCalls_paired live)).terminate ((live_quiet quiet).2 live)

/-- Showing the nodes and refreshing keeps the invariant. -/
theorem rebuild (sound : CallsSound calls) (ops : Ops) (ctxt : Option Ctxt) (desktop : Desktop) :
    CallsSound (calls ++ rebuildCalls ops ctxt desktop ++ [.refresh ops ctxt]) := by
  have shown : CallsSound (calls ++ rebuildCalls ops ctxt desktop) := by
    apply sound.quiet
    · intro call member
      rcases mem_rebuildCalls member with ⟨i, rfl⟩ | ⟨layer, i, rfl⟩ <;> rfl
    · intro call member
      rcases mem_rebuildCalls member with ⟨i, rfl⟩ | ⟨layer, i, rfl⟩ <;> trivial
  apply shown.quiet
  · simp [CompositorCall.isQuiet]
  · simp [Paired]

end CallsSound

/-! ## The invariant of runs -/

/-- The invariant of the calls and the selection. -/
structure LifeCycle (state : CompositorState Ops Ctxt) : Prop where
  /-- The calls are sound. -/
  sound : CallsSound state.calls
  /-- The selected context is alive. -/
  current : ∀ ops, state.currOps = some ops → Live state.calls ops state.currCtxt
  /-- Without a selected compositor there is no context. -/
  idle : state.currOps = none → state.currCtxt = none

/-- An initialize callback that is called next returns NULL or a context that no initialize
callback returned before. -/
def FreshAnswer (state : CompositorState Ops Ctxt) (answer : Option Ctxt) : Prop :=
  ∀ context, answer = some context → ∀ ops, ¬Initialized state.calls ops context

/-- Without calls every answer is fresh. -/
theorem freshAnswer_initial (env : CompositorEnv Ops) (desktop : Desktop) (answer : Option Ctxt) :
    FreshAnswer (initialState env desktop) answer := by
  rintro context - ops ⟨name, member⟩
  exact absurd member List.not_mem_nil

variable {env : CompositorEnv Ops} {state : CompositorState Ops Ctxt}

/-- A context that was just returned is alive. -/
theorem CallsSound.live_initializing (sound : CallsSound calls) (ops : Ops) (name : CString)
    (fresh : ∀ ops, ¬Initialized calls ops context) :
    Live (calls ++ [.initializeCall ops name (some context)]) ops (some context) := by
  refine ⟨context, rfl, initialized_initializeCall.2 (Or.inr ⟨rfl, rfl⟩), ?_⟩
  rw [terminated_initializeCall]
  intro terminated
  obtain ⟨other, initialized⟩ := sound.known context terminated
  exact fresh other initialized

/-- Calling an initialize callback keeps the selected context alive. -/
theorem Live.initializing (live : Live calls ops ctxt) (other : Ops) (name : CString)
    (answer : Option Ctxt) : Live (calls ++ [.initializeCall other name answer]) ops ctxt := by
  obtain ⟨context, same, initialized, notTerminated⟩ := live
  exact ⟨context, same, initialized.append _, fun now =>
    notTerminated (terminated_initializeCall.1 now)⟩

/-- Showing the nodes and refreshing leaves contexts alive. -/
theorem Live.rebuild (live : Live calls ops ctxt) (other : Ops) (refreshed : Option Ctxt)
    (desktop : Desktop) :
    Live (calls ++ rebuildCalls other refreshed desktop ++ [.refresh other refreshed]) ops
      ctxt := by
  have shown : Live (calls ++ rebuildCalls other refreshed desktop) ops ctxt := by
    refine (live_quiet ?_).2 live
    intro call member
    rcases mem_rebuildCalls member with ⟨i, rfl⟩ | ⟨layer, i, rfl⟩ <;> rfl
  exact (live_quiet (by simp [CompositorCall.isQuiet])).2 shown

/-- Purging and terminating a context leaves another one alive. -/
theorem Live.retire (live : Live calls ops ctxt) {other : Ops} {retired : Option Ctxt}
    (apart : retired ≠ ctxt) (env : CompositorEnv Ops) (desktop : Desktop) :
    Live (calls ++ purgeCalls env other retired desktop ++ [.terminate other retired]) ops
      ctxt := by
  obtain ⟨context, rfl, initialized, notTerminated⟩ := live
  refine ⟨context, rfl, (initialized.append _).append _, ?_⟩
  rw [terminated_terminate, terminated_quiet (purgeCalls_quiet env other retired desktop)]
  rintro (before | same)
  · exact notTerminated before
  · exact apart same

/-- Replacing the compositor by one with a fresh context keeps the invariant. -/
theorem LifeCycle.replace (cycle : LifeCycle state) (ops : Ops) (name : CString)
    (fresh : ∀ ops, ¬Initialized state.calls ops context) :
    LifeCycle (replaceCompositor env ops context
      (state.call [.initializeCall ops name (some context)])) := by
  have answered : FreshAnswer state (some context) := by
    intro other same
    rw [← Option.some.inj same]
    exact fresh
  have sound := cycle.sound.initializing ops name answered
  have live := cycle.sound.live_initializing ops name fresh
  cases selected : state.currOps with
  | none =>
    have calls : (replaceCompositor env ops context
        (state.call [.initializeCall ops name (some context)])).calls =
        state.calls ++ [.initializeCall ops name (some context)] ++
          rebuildCalls ops (some context) state.desktop ++ [.refresh ops (some context)] := by
      simp only [replaceCompositor, CompositorState.call, selected, rebuildAllZnodesPrivateData]
    constructor
    · rw [calls]
      exact sound.rebuild _ _ _
    · rintro now same
      obtain rfl := Option.some.inj same
      rw [calls]
      exact live.rebuild _ _ _
    · intro none
      exact absurd none (by simp)
  | some currOps =>
    have calls : (replaceCompositor env ops context
        (state.call [.initializeCall ops name (some context)])).calls =
        state.calls ++ [.initializeCall ops name (some context)] ++
          purgeCalls env currOps state.currCtxt state.desktop ++
          [.terminate currOps state.currCtxt] ++
          rebuildCalls ops (some context) (purgeDesktop env currOps state.desktop) ++
          [.refresh ops (some context)] := by
      simp only [replaceCompositor, CompositorState.call, selected, rebuildAllZnodesPrivateData,
        purgeAllZnodesPrivateData]
    have old := cycle.current currOps selected
    have apart : state.currCtxt ≠ some context := by
      obtain ⟨other, same, initialized, -⟩ := old
      intro again
      rw [same, Option.some.injEq] at again
      rw [again] at initialized
      exact fresh currOps initialized
    have retired := sound.retire (old.initializing ops name (some context)) env state.desktop
    constructor
    · rw [calls]
      exact retired.rebuild _ _ _
    · rintro now same
      obtain rfl := Option.some.inj same
      rw [calls]
      exact (live.retire apart env state.desktop).rebuild _ _ _
    · intro none
      exact absurd none (by simp)

/-- An initialize callback that returns NULL keeps the invariant. -/
theorem LifeCycle.refuse (cycle : LifeCycle state) (ops : Ops) (name : CString) :
    LifeCycle (state.call [.initializeCall ops name none]) where
  sound := cycle.sound.initializing ops name (by simp)
  current := fun selected same => (cycle.current selected same).initializing ops name none
  idle := cycle.idle

variable [DecidableEq Ops]

/-- Selecting a compositor keeps the invariant. -/
theorem LifeCycle.select (cycle : LifeCycle state) (name : Option CString) {answer : Option Ctxt}
    (fresh : FreshAnswer state answer) :
    LifeCycle (serverSelectCompositor env state name answer).state := by
  rcases serverSelectCompositor_cases env state name answer with
    same | ⟨text, ops, -, -, -, -, replaced⟩
  · rw [same]
    exact cycle
  · rw [replaced]
    cases answer with
    | none => exact cycle.refuse ops text
    | some context => exact cycle.replace ops text (fresh context rfl)

/-- The runs in which every initialize callback returns NULL or a fresh context. -/
def lifeCycleMachine (env : CompositorEnv Ops) :
    Machine (CompositorState Ops Ctxt) (CompositorStep Ops Ctxt) :=
  (compositorMachine env).restrict fun state step => FreshAnswer state step.answer

/-- A step in which initialize callbacks return NULL or fresh contexts keeps the invariant. -/
theorem LifeCycle.apply (cycle : LifeCycle state) {step : CompositorStep Ops Ctxt}
    (fresh : FreshAnswer state step.answer) : LifeCycle (state.apply env step) := by
  cases step with
  | init loaded answer =>
    obtain ⟨name, same⟩ := mgInitCompositor_state env state loaded answer
    change LifeCycle (mgInitCompositor env state loaded answer).2
    rw [same]
    have registered : LifeCycle { state with
        compositors :=
          (serverRegisterCompositor state.compositors (some compsorNameDefault) loaded).2 } :=
      ⟨cycle.sound, cycle.current, cycle.idle⟩
    exact registered.select name fresh
  | register name ops => exact ⟨cycle.sound, cycle.current, cycle.idle⟩
  | unregister name => exact ⟨cycle.sound, cycle.current, cycle.idle⟩
  | select name answer => exact cycle.select name fresh
  | desktop desktop => exact ⟨cycle.sound, cycle.current, cycle.idle⟩

/-- The invariant holds in every reachable state. -/
theorem lifeCycle_of_reachable (reachable : (lifeCycleMachine env).Reachable state) :
    LifeCycle state := by
  refine reachable.invariant ?_ ?_
  · rintro _ ⟨desktop, rfl⟩
    refine ⟨⟨trivial, ?_, ?_⟩, ?_, fun _ => rfl⟩
    · rintro context ⟨ops, member⟩
      exact absurd member List.not_mem_nil
    · rintro left right context ⟨name, member⟩
      exact absurd member List.not_mem_nil
    · intro ops selected
      exact absurd selected (by simp [initialState])
  · rintro before step _ - cycle ⟨rfl, fresh⟩
    exact cycle.apply fresh

/-! ## Termination -/

/-- The selection at the beginning of `mg_TerminateCompositor`: the fallback compositor is
selected already, or its initialize callback is called. -/
theorem selectFallback_cases (sound : TableSound env state) (answer : Option Ctxt) :
    let selected := serverSelectCompositor env state (some compsorNameFallback) answer
    let called := state.call [.initializeCall env.mgFallbackCompositor compsorNameFallback answer]
    state.currOps = some env.mgFallbackCompositor ∧
        selected = ⟨some env.mgFallbackCompositor, some state.currCtxt, state⟩ ∨
      state.currOps ≠ some env.mgFallbackCompositor ∧ answer = none ∧
        selected = ⟨state.currOps, some state.currCtxt, called⟩ ∨
      ∃ context, answer = some context ∧
        selected = ⟨some env.mgFallbackCompositor, some (some context),
          replaceCompositor env env.mgFallbackCompositor context called⟩ := by
  have given : nonEmptyName (some compsorNameFallback) = some compsorNameFallback := by decide
  have found : serverGetCompositorOps state.compositors (some compsorNameFallback) =
      some env.mgFallbackCompositor := by
    obtain ⟨slot, rest, split, named, held⟩ := sound.first
    rw [serverGetCompositorOps, given, split]
    change findCompositor compsorNameFallback (slot :: rest) = _
    rw [findCompositor, if_pos (strcmp_eq_zero.2 named), held]
  by_cases selected : some env.mgFallbackCompositor = state.currOps
  · refine Or.inl ⟨selected.symm, ?_⟩
    simp only [serverSelectCompositor, given, found, if_pos selected]
  · cases answer with
    | none =>
      refine Or.inr (Or.inl ⟨fun same => selected same.symm, rfl, ?_⟩)
      simp only [serverSelectCompositor, given, found, if_neg selected]
      rfl
    | some context =>
      refine Or.inr (Or.inr ⟨context, rfl, ?_⟩)
      simp only [serverSelectCompositor, given, found, if_neg selected]
      rfl

/-- The context that the selection reports is purged and terminated. -/
theorem mgTerminateCompositor_calls {answer : Option Ctxt} {ops : Option Ops}
    {after : CompositorState Ops Ctxt}
    (selected : serverSelectCompositor env state (some compsorNameFallback) answer =
      ⟨ops, some (some context), after⟩) :
    (mgTerminateCompositor env state answer).calls =
      after.calls ++ purgeCalls env env.mgFallbackCompositor (some context) after.desktop ++
        [.terminate env.mgFallbackCompositor (some context)] := by
  simp only [mgTerminateCompositor, selected, Option.join_some, purgeAllZnodesPrivateData,
    CompositorState.call]

/-- After any run that ends with `mg_TerminateCompositor`, every call that terminates or purges
has passed a live context of its own compositor, exactly when the last selected compositor is
the fallback compositor or none, or the fallback compositor can be initialized at the end. -/
theorem mgTerminateCompositor_wellPaired_iff {answer : Option Ctxt}
    (reachable : (lifeCycleMachine env).Reachable state) (fresh : FreshAnswer state answer) :
    WellPaired (mgTerminateCompositor env state answer).calls ↔
      state.currOps = none ∨ state.currOps = some env.mgFallbackCompositor ∨ answer ≠ none := by
  have cycle := lifeCycle_of_reachable reachable
  have table := tableSound_of_reachable reachable.of_restrict
  rcases selectFallback_cases table answer with
    ⟨current, selected⟩ | ⟨other, rfl, selected⟩ | ⟨context, rfl, selected⟩
  · have live := cycle.current _ current
    obtain ⟨context, here, -⟩ := cycle.current _ current
    rw [here] at live selected
    rw [mgTerminateCompositor_calls selected]
    have paired := (cycle.sound.retire live env state.desktop).paired
    exact ⟨fun _ => Or.inr (Or.inl current), fun _ => paired⟩
  · cases current : state.currOps with
    | none =>
      have refused := cycle.refuse env.mgFallbackCompositor compsorNameFallback
      rw [cycle.idle current] at selected
      have calls : mgTerminateCompositor env state none =
          state.call [.initializeCall env.mgFallbackCompositor compsorNameFallback none] := by
        simp only [mgTerminateCompositor, selected, Option.join_some]
      rw [calls]
      exact ⟨fun _ => Or.inl rfl, fun _ => refused.sound.paired⟩
    | some ops =>
      obtain ⟨context, here, initialized, -⟩ := cycle.current _ current
      rw [here] at selected
      rw [mgTerminateCompositor_calls selected]
      constructor
      · -- The context belongs to the compositor that is selected, not to the fallback compositor.
        intro paired
        obtain ⟨-, ⟨same, passed, owned, -⟩, -⟩ := wellPairedAfter_append.1 paired
        obtain rfl := Option.some.inj passed
        rw [List.nil_append, initialized_quiet (purgeCalls_quiet _ _ _ _)] at owned
        have before : Initialized state.calls env.mgFallbackCompositor context := by
          rcases initialized_initializeCall.1 owned with before | ⟨-, returned⟩
          · exact before
          · exact absurd returned (by simp)
        have owner := cycle.sound.owner ops env.mgFallbackCompositor context initialized before
        rw [current, owner] at other
        exact absurd rfl other
      · rintro (none | same | absent)
        · exact absurd none (by simp)
        · rw [current] at other
          exact absurd same other
        · exact absurd rfl absent
  · have replaced : LifeCycle (replaceCompositor env env.mgFallbackCompositor context (state.call
        [.initializeCall env.mgFallbackCompositor compsorNameFallback (some context)])) :=
      cycle.replace env.mgFallbackCompositor compsorNameFallback (fresh context rfl)
    rw [mgTerminateCompositor_calls selected]
    have paired := fun desktop =>
      (replaced.sound.retire (replaced.current _ rfl) env desktop).paired
    exact ⟨fun _ => Or.inr (Or.inr (by simp)), fun _ => paired _⟩

/-- A selected fallback compositor is terminated with its own context. -/
theorem mgTerminateCompositor_wellPaired_fallback :
    WellPaired (mgTerminateCompositor exampleEnv fallbackSelected none).calls := by
  have reachable : (lifeCycleMachine exampleEnv).Reachable fallbackSelected :=
    .step (.start ⟨emptyDesktop, rfl⟩)
      (⟨rfl, freshAnswer_initial _ _ _⟩ : _ = CompositorState.apply _ _ selectFallback ∧ _)
  exact (mgTerminateCompositor_wellPaired_iff reachable (by simp [FreshAnswer])).2
    (Or.inr (Or.inl rfl))

/-- The compositor that was loaded is selected. -/
def defaultSelected : CompositorState Bool Nat :=
  (initialState exampleEnv emptyDesktop).apply exampleEnv (.init (some true) (some 1))

/-- When the fallback compositor cannot be initialized at the end, it is called to terminate the
context of the loaded compositor. -/
theorem mgTerminateCompositor_unpaired :
    (lifeCycleMachine exampleEnv).Reachable defaultSelected ∧
      FreshAnswer defaultSelected none ∧
      ¬WellPaired (mgTerminateCompositor exampleEnv defaultSelected none).calls := by
  refine ⟨?_, by simp [FreshAnswer], ?_⟩
  · exact .step (.start ⟨emptyDesktop, rfl⟩)
      (⟨rfl, freshAnswer_initial _ _ _⟩ :
        _ = CompositorState.apply _ _ (.init (some true) (some 1)) ∧ _)
  · have calls : (mgTerminateCompositor exampleEnv defaultSelected none).calls =
        [.initializeCall true compsorNameDefault (some 1), .refresh true (some 1),
          .initializeCall false compsorNameFallback none, .terminate false (some 1)] := rfl
    rw [calls]
    rintro ⟨-, -, -, ⟨context, passed, ⟨name, member⟩, -⟩, -⟩
    obtain rfl := Option.some.inj passed
    simp at member

end Bpcp.MiniGUI
