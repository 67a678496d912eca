import Bpcp.MiniGUI.CompositePasses

/-!
# Runs of painting and compositing

Painting a surface makes it one older, and compositing a layer lets its nodes catch up with
their surfaces. A node is merged when it is behind its surface, so nothing that was painted is
lost unless the age went around completely in between.
-/

namespace Bpcp.MiniGUI

variable {Layer Surface : Type}

/-! ## What the loops look at -/

/-- Locking a surface leaves what the loops look at. -/
theorem lockZnodeSurface_shape (surface : GalSurface) (node : ZOrderNode Surface)
    {result : ZOrderNode Surface × List (CompositeCall Layer)}
    (locked : lockZnodeSurface surface node = result) :
    result.1.visible = node.visible ∧ result.1.memDc = node.memDc := by
  subst locked
  rw [lockZnodeSurface]
  split <;> exact ⟨rfl, rfl⟩

/-- Unlocking a surface leaves what the loops look at. -/
theorem unlockZnodeSurface_shape (surface : GalSurface) (node : ZOrderNode Surface)
    {result : Bool × ZOrderNode Surface × List (CompositeCall Layer)}
    (unlocked : unlockZnodeSurface surface node = result) :
    result.2.1.visible = node.visible ∧ result.2.1.memDc = node.memDc := by
  subst unlocked
  simp only [unlockZnodeSurface]
  split_ifs <;> exact ⟨rfl, rfl⟩

/-! ## The calls of the passes -/

/-- The file that is locked. -/
def lockedFile : CompositeCall Layer → Option Int
  | .lockFileForRead fd => some fd
  | _ => none

/-- The file that is unlocked. -/
def unlockedFile : CompositeCall Layer → Option Int
  | .unlockFileForRead fd => some fd
  | _ => none

/-- The files of the surfaces that are shared. -/
def sharedFiles (state : LayerState Layer Surface) (visits : List (ZNodeVisit Layer Surface)) :
    List Int :=
  (visits.filter fun visit => (state.surfaces visit.surface).sharedHeader).map fun visit =>
    (state.surfaces visit.surface).fd

section Calls

variable {state : LayerState Layer Surface} {visits : List (ZNodeVisit Layer Surface)}

/-- A call that merges a node locks no file. -/
theorem lockedFile_merge {call : CompositeCall Layer} {ref : ZNodeRef Layer}
    (merge : mergedNode call = some ref) : lockedFile call = none := by
  cases call <;> first | rfl | simp [mergedNode] at merge

/-- A call that merges a node unlocks no file. -/
theorem unlockedFile_merge {call : CompositeCall Layer} {ref : ZNodeRef Layer}
    (merge : mergedNode call = some ref) : unlockedFile call = none := by
  cases call <;> first | rfl | simp [mergedNode] at merge

/-- The first pass merges the nodes that are behind their surfaces. -/
theorem lockCalls_merged (merges : ∀ visit ∈ visits, mergedNode visit.merge = some visit.ref) :
    (visits.flatMap (lockCalls state)).filterMap mergedNode =
      (visits.filter (Dirty state ·)).map ZNodeVisit.ref := by
  induction visits with
  | nil => rfl
  | cons visit rest ih =>
    have merge := merges visit List.mem_cons_self
    have file (fd : Int) : mergedNode (.lockFileForRead fd : CompositeCall Layer) = none := rfl
    rw [List.flatMap_cons, List.filterMap_append,
      ih fun other member => merges other (List.mem_cons_of_mem _ member), lockCalls,
      List.filterMap_append]
    by_cases dirty : Dirty state visit
    · rw [if_pos dirty, List.filter_cons_of_pos (by simpa using dirty)]
      split <;> simp [file, merge]
    · rw [if_neg dirty, List.filter_cons_of_neg (by simpa using dirty)]
      split <;> simp [file]

/-- The first pass locks the files of the shared surfaces. -/
theorem lockCalls_locked (merges : ∀ visit ∈ visits, mergedNode visit.merge = some visit.ref) :
    (visits.flatMap (lockCalls state)).filterMap lockedFile = sharedFiles state visits := by
  induction visits with
  | nil => rfl
  | cons visit rest ih =>
    have merge := merges visit List.mem_cons_self
    have noFile := lockedFile_merge merge
    rw [List.flatMap_cons, List.filterMap_append,
      ih fun other member => merges other (List.mem_cons_of_mem _ member), lockCalls,
      List.filterMap_append, sharedFiles, sharedFiles]
    have merged : (if Dirty state visit then [visit.merge] else []).filterMap lockedFile = [] := by
      split <;> simp [noFile]
    rw [merged]
    cases shared : (state.surfaces visit.surface).sharedHeader <;>
      simp [shared, lockedFile]

/-- Nothing is in a list when nothing is in its parts. -/
theorem filterMap_flatMap_nil {α β γ : Type} {values : List α} {parts : α → List β}
    {read : β → Option γ} (none : ∀ value ∈ values, ∀ part ∈ parts value, read part = none) :
    (values.flatMap parts).filterMap read = [] := by
  rw [List.filterMap_eq_nil_iff]
  intro part member
  obtain ⟨value, inside, inner⟩ := List.mem_flatMap.1 member
  exact none value inside part inner

/-- The first pass unlocks nothing. -/
theorem lockCalls_unlocked (merges : ∀ visit ∈ visits, mergedNode visit.merge = some visit.ref) :
    (visits.flatMap (lockCalls state)).filterMap unlockedFile = [] := by
  apply filterMap_flatMap_nil
  intro visit inside call member
  have merge := merges visit inside
  rw [lockCalls, List.mem_append] at member
  rcases member with file | merged
  · split at file
    · rw [List.mem_singleton.1 file]
      rfl
    · exact absurd file List.not_mem_nil
  · split at merged
    · rw [List.mem_singleton.1 merged]
      exact unlockedFile_merge merge
    · exact absurd merged List.not_mem_nil

/-- The second pass unlocks files and tells clients about their windows. -/
theorem mem_unlockCalls {visit : ZNodeVisit Layer Surface} {call : CompositeCall Layer}
    (member : call ∈ unlockCalls state visit) :
    call = .unlockFileForRead (state.surfaces visit.surface).fd ∨
      ∃ cli slot hwnd changes, call = .winComposited cli slot hwnd changes := by
  rw [unlockCalls, List.mem_append] at member
  rcases member with file | told
  · split at file
    · exact Or.inl (List.mem_singleton.1 file)
    · exact absurd file List.not_mem_nil
  · split at told
    · exact Or.inr ⟨_, _, _, _, List.mem_singleton.1 told⟩
    · exact absurd told List.not_mem_nil

/-- The second pass merges nothing. -/
theorem unlockCalls_merged : (visits.flatMap (unlockCalls state)).filterMap mergedNode = [] := by
  apply filterMap_flatMap_nil
  intro visit _ call member
  rcases mem_unlockCalls member with rfl | ⟨cli, slot, hwnd, changes, rfl⟩ <;> rfl

/-- The second pass locks nothing. -/
theorem unlockCalls_locked : (visits.flatMap (unlockCalls state)).filterMap lockedFile = [] := by
  apply filterMap_flatMap_nil
  intro visit _ call member
  rcases mem_unlockCalls member with rfl | ⟨cli, slot, hwnd, changes, rfl⟩ <;> rfl

/-- The second pass unlocks the files of the shared surfaces. -/
theorem unlockCalls_unlocked :
    (visits.flatMap (unlockCalls state)).filterMap unlockedFile = sharedFiles state visits := by
  induction visits with
  | nil => rfl
  | cons visit rest ih =>
    rw [List.flatMap_cons, List.filterMap_append, ih, unlockCalls, List.filterMap_append,
      sharedFiles, sharedFiles]
    cases shared : (state.surfaces visit.surface).sharedHeader <;> split <;>
      simp_all [unlockedFile]

/-- Locking the nodes changes nothing for the calls of the second pass. -/
theorem FirstPass.unlockCalls_eq {locked : LayerState Layer Surface}
    (first : FirstPass state visits locked)
    (calls : List (CompositeCall Layer)) :
    visits.flatMap (unlockCalls (locked.call calls)) = visits.flatMap (unlockCalls state) := by
  have surfaces := first.surfaces
  apply List.flatMap_congr
  intro visit member
  have node := first.visited visit member
  have changes : (locked.nodes visit.ref).changes = (state.nodes visit.ref).changes := by
    rw [node]
    rfl
  have cli : (locked.nodes visit.ref).cli = (state.nodes visit.ref).cli := by
    rw [node]
    rfl
  have hwnd : (locked.nodes visit.ref).hwnd = (state.nodes visit.ref).hwnd := by
    rw [node]
    rfl
  have dirty : Dirty (locked.call calls) visit ↔ Dirty state visit := by
    change (locked.surfaces _).dirtyInfo.dirtyAge ≠ (locked.nodes _).changes ↔ _
    rw [surfaces, changes]
    rfl
  simp only [unlockCalls, dirty]
  simp only [LayerState.call, surfaces, cli, hwnd]

end Calls

variable [DecidableEq Layer]

/-- A node with the same visibility and surface may be written. -/
theorem sameShape_setNode {state : LayerState Layer Surface} {ref : ZNodeRef Layer}
    {node : ZOrderNode Surface} {surfaces : Surface → GalSurface}
    {calls : List (CompositeCall Layer)}
    (shape : node.visible = (state.nodes ref).visible ∧ node.memDc = (state.nodes ref).memDc)
    (alike : ∀ surface, SameSurface (state.surfaces surface) (surfaces surface)) :
    SameShape state ⟨Function.update state.nodes ref node, surfaces, calls⟩ where
  visible := by
    intro other
    dsimp only
    by_cases here : other = ref
    · rw [here, Function.update_self, shape.1]
    · rw [Function.update_of_ne here]
  memDc := by
    intro other
    dsimp only
    by_cases here : other = ref
    · rw [here, Function.update_self, shape.2]
    · rw [Function.update_of_ne here]
  w := fun surface => (alike surface).w
  h := fun surface => (alike surface).h

/-- The first pass leaves what the loops look at. -/
theorem lockAndMerge_keepsShape :
    KeepsShape (lockAndMerge : VisitBody Layer Surface) := by
  intro state visit
  cases locked : (lockZnodeSurface (state.surfaces visit.surface) (state.nodes visit.ref) :
      ZOrderNode Surface × List (CompositeCall Layer)) with
  | mk node calls =>
    have shape := lockZnodeSurface_shape _ _ locked
    simp only [lockAndMerge, locked]
    split
    · exact sameShape_setNode shape fun surface => .refl _
    · exact sameShape_setNode shape fun surface => .refl _

/-! ## One call of `composite_layer` -/

/-- What compositing a dirty layer does. -/
structure Composited (env : LayerEnv Layer Surface) (layer : Layer)
    (state after : LayerState Layer Surface) : Prop where
  /-- The nodes of the layer are unlocked and have caught up with their surfaces. -/
  visited : ∀ visit ∈ layerVisits env layer state,
    after.nodes visit.ref = compositedNode (state.surfaces visit.surface) (state.nodes visit.ref)
  /-- Other nodes are left alone. -/
  others : ∀ ref ∉ (layerVisits env layer state).map ZNodeVisit.ref,
    after.nodes ref = state.nodes ref
  /-- The surfaces lose dirty rectangles at most. -/
  surfaces : ∀ surface, SameSurface (state.surfaces surface) (after.surfaces surface)
  /-- The calls of both passes are made. -/
  calls : after.calls = state.calls ++
    ([.resetDirtyRegion layer true] ++ (layerVisits env layer state).flatMap (lockCalls state) ++
      ([.refreshDirtyRegion layer] ++ (layerVisits env layer state).flatMap (unlockCalls state)))

/-- After compositing, no node is locked. -/
theorem Composited.unlocked {env : LayerEnv Layer Surface} {layer : Layer}
    {state after : LayerState Layer Surface} (done : Composited env layer state after)
    (unlocked : ∀ ref, (state.nodes ref).lockCount = 0) (ref : ZNodeRef Layer) :
    (after.nodes ref).lockCount = 0 := by
  by_cases inside : ref ∈ (layerVisits env layer state).map ZNodeVisit.ref
  · obtain ⟨visit, member, rfl⟩ := List.mem_map.1 inside
    rw [done.visited visit member]
    rfl
  · rw [done.others ref inside]
    exact unlocked ref

/-- Compositing leaves what the loops look at. -/
theorem Composited.shape {env : LayerEnv Layer Surface} {layer : Layer}
    {state after : LayerState Layer Surface} (done : Composited env layer state after) :
    SameShape state after := by
  have nodes : ∀ ref, (after.nodes ref).visible = (state.nodes ref).visible ∧
      (after.nodes ref).memDc = (state.nodes ref).memDc := by
    intro ref
    by_cases inside : ref ∈ (layerVisits env layer state).map ZNodeVisit.ref
    · obtain ⟨visit, member, rfl⟩ := List.mem_map.1 inside
      rw [done.visited visit member]
      exact ⟨rfl, rfl⟩
    · rw [done.others ref inside]
      exact ⟨rfl, rfl⟩
  exact ⟨fun ref => (nodes ref).1, fun ref => (nodes ref).2, fun surface =>
    (done.surfaces surface).w, fun surface => (done.surfaces surface).h⟩

variable [DecidableEq Surface]

/-- The second pass leaves what the loops look at. -/
theorem unlockAndReset_keepsShape :
    KeepsShape (unlockAndReset : VisitBody Layer Surface) := by
  intro state visit
  cases unlocked : (unlockZnodeSurface (state.surfaces visit.surface) (state.nodes visit.ref) :
      Bool × ZOrderNode Surface × List (CompositeCall Layer)) with
  | mk needReset result =>
    obtain ⟨node, calls⟩ := result
    have shape := unlockZnodeSurface_shape _ _ unlocked
    cases reset : (resetZnodeSurfaceDirty (state.surfaces visit.surface) node visit.slot :
        GalSurface × List (CompositeCall Layer)) with
    | mk surface told =>
      obtain ⟨same, -⟩ := resetZnodeSurfaceDirty_spec _ _ _ reset
      simp only [unlockAndReset, unlocked, reset]
      split
      · refine sameShape_setNode shape fun other => ?_
        dsimp only [LayerState.call, LayerState.setNode]
        by_cases here : other = visit.surface
        · rw [here, Function.update_self]
          exact same
        · rw [Function.update_of_ne here]
          exact .refl _
      · exact sameShape_setNode shape fun surface => .refl _

/-- A layer that is dirty is composited in two passes over its nodes. -/
theorem compositeLayer_true (env : LayerEnv Layer Surface) (layer : Layer)
    (state : LayerState Layer Surface) :
    compositeLayer env layer true state =
      let visits := layerVisits env layer state
      let locked := visits.foldl lockAndMerge (state.call [.resetDirtyRegion layer true])
      visits.foldl unlockAndReset (locked.call [.refreshDirtyRegion layer]) := by
  have reset : SameShape state (state.call [.resetDirtyRegion layer true]) :=
    ⟨fun _ => rfl, fun _ => rfl, fun _ => rfl, fun _ => rfl⟩
  have first := reset.trans (lockAndMerge_keepsShape.foldl
    (layerVisits env layer (state.call [.resetDirtyRegion layer true])) _)
  have refreshed : SameShape state (LayerState.call (((layerVisits env layer
      (state.call [.resetDirtyRegion layer true])).foldl lockAndMerge
        (state.call [.resetDirtyRegion layer true]))) [.refreshDirtyRegion layer]) :=
    ⟨first.visible, first.memDc, first.w, first.h⟩
  simp only [compositeLayer, if_true, visitLayer_eq env layer _ lockAndMerge_keepsShape,
    visitLayer_eq env layer _ unlockAndReset_keepsShape]
  rw [refreshed.layerVisits env layer, reset.layerVisits env layer]

/-- A dirty layer whose nodes are not locked is composited. -/
theorem composited (env : LayerEnv Layer Surface) (layer : Layer)
    {state : LayerState Layer Surface} (unlocked : ∀ ref, (state.nodes ref).lockCount = 0) :
    Composited env layer state (compositeLayer env layer true state) := by
  have nodup := layerVisits_nodup env layer state
  have first := firstPass (state.call [.resetDirtyRegion layer true]) nodup
    fun visit _ => unlocked visit.ref
  rw [compositeLayer_true]
  dsimp only
  generalize (layerVisits env layer state).foldl lockAndMerge
    (state.call [.resetDirtyRegion layer true]) = locked at first
  have nodes : ∀ visit ∈ layerVisits env layer state, locked.nodes visit.ref =
      lockedNode (state.surfaces visit.surface) (state.nodes visit.ref) := first.visited
  have surfaces : locked.surfaces = state.surfaces := first.surfaces
  have second := secondPass (locked.call [.refreshDirtyRegion layer]) nodup fun visit member => by
    change (locked.nodes visit.ref).lockCount = 1
    rw [nodes visit member]
    rfl
  constructor
  · intro visit member
    rw [second.visited visit member]
    change compositedNode (locked.surfaces visit.surface) (locked.nodes visit.ref) = _
    rw [nodes visit member, surfaces]
    rfl
  · intro ref outside
    rw [second.others ref outside]
    exact first.others ref outside
  · intro surface
    have same := second.surfaces surface
    change SameSurface (locked.surfaces surface) _ at same
    rwa [surfaces] at same
  · rw [second.calls, first.unlockCalls_eq]
    change locked.calls ++ [.refreshDirtyRegion layer] ++ _ = _
    rw [first.calls]
    simp only [LayerState.call, List.append_assoc]
    rfl

/-! ## Runs -/

/-- A step of a run. -/
inductive LayerStep (Layer Surface : Type) where
  /-- A surface is painted, which leaves it with dirty rectangles. -/
  | paint (surface : Surface) (nrDirtyRcs dirtyRcs : Nat)
  /-- `composite_layer`, with what `reset_dirty_region` returns. -/
  | composite (layer : Layer) (dirty : Bool)

/-- A surface that was painted. -/
def GalSurface.paint (surface : GalSurface) (nrDirtyRcs dirtyRcs : Nat) : GalSurface :=
  { surface with dirtyInfo := ⟨surface.dirtyInfo.dirtyAge + 1, nrDirtyRcs, dirtyRcs⟩ }

/-- The state after a step. -/
def LayerState.apply (env : LayerEnv Layer Surface) (state : LayerState Layer Surface) :
    LayerStep Layer Surface → LayerState Layer Surface
  | .paint surface nrDirtyRcs dirtyRcs =>
    { state with
      surfaces := Function.update state.surfaces surface
        ((state.surfaces surface).paint nrDirtyRcs dirtyRcs) }
  | .composite layer dirty => compositeLayer env layer dirty state

/-- The state after a run. -/
def LayerState.run (env : LayerEnv Layer Surface) (state : LayerState Layer Surface)
    (steps : List (LayerStep Layer Surface)) : LayerState Layer Surface :=
  steps.foldl (LayerState.apply env) state

/-- How often a surface is painted in a run. -/
def paints (surface : Surface) : List (LayerStep Layer Surface) → Nat
  | [] => 0
  | .paint painted _ _ :: rest => paints surface rest + if painted = surface then 1 else 0
  | .composite _ _ :: rest => paints surface rest

/-- No call composites the layer completely in a run. -/
def NotComposited (layer : Layer) (steps : List (LayerStep Layer Surface)) : Prop :=
  .composite layer true ∉ steps

variable {env : LayerEnv Layer Surface} {layer : Layer} {state : LayerState Layer Surface}

/-- A layer that is not dirty is left alone. -/
theorem compositeLayer_false (env : LayerEnv Layer Surface) (layer : Layer)
    (state : LayerState Layer Surface) :
    compositeLayer env layer false state = state.call [.resetDirtyRegion layer false] := rfl

/-- After a step, no node is locked. -/
theorem apply_unlocked (unlocked : ∀ ref, (state.nodes ref).lockCount = 0)
    (step : LayerStep Layer Surface) (ref : ZNodeRef Layer) :
    ((state.apply env step).nodes ref).lockCount = 0 := by
  cases step with
  | paint surface nrDirtyRcs dirtyRcs => exact unlocked ref
  | composite layer dirty =>
    cases dirty with
    | false => exact unlocked ref
    | true => exact (composited env layer unlocked).unlocked unlocked ref

/-- After a run, no node is locked. -/
theorem run_unlocked (unlocked : ∀ ref, (state.nodes ref).lockCount = 0)
    (steps : List (LayerStep Layer Surface)) (ref : ZNodeRef Layer) :
    ((state.run env steps).nodes ref).lockCount = 0 := by
  induction steps generalizing state with
  | nil => exact unlocked ref
  | cons step rest ih => exact ih (apply_unlocked unlocked step)

/-- A run leaves what the loops look at. -/
theorem run_shape (unlocked : ∀ ref, (state.nodes ref).lockCount = 0)
    (steps : List (LayerStep Layer Surface)) : SameShape state (state.run env steps) := by
  induction steps generalizing state with
  | nil => exact .refl state
  | cons step rest ih =>
    refine SameShape.trans ?_ (ih (apply_unlocked unlocked step))
    cases step with
    | paint surface nrDirtyRcs dirtyRcs =>
      refine ⟨fun _ => rfl, fun _ => rfl, ?_, ?_⟩ <;> intro other <;> dsimp only [LayerState.apply]
      all_goals
        by_cases here : other = surface
        · rw [here, Function.update_self]
          rfl
        · rw [Function.update_of_ne here]
    | composite other dirty =>
      cases dirty with
      | false => exact ⟨fun _ => rfl, fun _ => rfl, fun _ => rfl, fun _ => rfl⟩
      | true => exact (composited env other unlocked).shape

/-- A surface is older by the number of times that it was painted. -/
theorem run_dirtyAge (unlocked : ∀ ref, (state.nodes ref).lockCount = 0)
    (steps : List (LayerStep Layer Surface)) (surface : Surface) :
    ((state.run env steps).surfaces surface).dirtyInfo.dirtyAge =
      (state.surfaces surface).dirtyInfo.dirtyAge + UInt32.ofNat (paints surface steps) := by
  induction steps generalizing state with
  | nil => simp [LayerState.run, paints]
  | cons step rest ih =>
    rw [LayerState.run, List.foldl_cons]
    refine (ih (apply_unlocked unlocked step)).trans ?_
    cases step with
    | paint painted nrDirtyRcs dirtyRcs =>
      by_cases here : painted = surface
      · subst here
        simp only [LayerState.apply, Function.update_self, GalSurface.paint, paints, if_true,
          UInt32.ofNat_add]
        rw [UInt32.add_assoc, UInt32.add_comm 1]
        rfl
      · simp only [LayerState.apply, Function.update_of_ne (Ne.symm here), paints, if_neg here,
          Nat.add_zero]
    | composite layer dirty =>
      cases dirty with
      | false => rfl
      | true =>
        have same := (composited env layer unlocked).surfaces surface
        simp only [LayerState.apply, paints, same.dirtyAge]

/-- Until a layer is composited, its nodes stay as they are. -/
theorem run_nodes (unlocked : ∀ ref, (state.nodes ref).lockCount = 0)
    {steps : List (LayerStep Layer Surface)} (between : NotComposited layer steps)
    {ref : ZNodeRef Layer} (ofLayer : ref.layer = layer) :
    (state.run env steps).nodes ref = state.nodes ref := by
  induction steps generalizing state with
  | nil => rfl
  | cons step rest ih =>
    rw [NotComposited, List.mem_cons, not_or] at between
    rw [LayerState.run, List.foldl_cons]
    refine (ih (apply_unlocked unlocked step) between.2).trans ?_
    cases step with
    | paint painted nrDirtyRcs dirtyRcs => rfl
    | composite other dirty =>
      cases dirty with
      | false => rfl
      | true =>
        apply (composited env other unlocked).others
        intro inside
        obtain ⟨visit, member, rfl⟩ := List.mem_map.1 inside
        have visited := (mem_layerVisits env other state member).1
        rw [ofLayer] at visited
        exact between.1 (by rw [visited])

/-- A number of paints below the range of ages is seen. -/
theorem age_add_ne {age : UInt32} {count : Nat} (few : count < 2 ^ 32) :
    age + UInt32.ofNat count ≠ age ↔ 0 < count := by
  rw [ne_eq, add_eq_left, ← UInt32.toNat_inj, UInt32.toNat_ofNat', Nat.mod_eq_of_lt few]
  exact Nat.pos_iff_ne_zero.symm

/-- After any run that begins with no node locked, a call that composites a layer merges exactly
the popup menus, visible windows and the wallpaper of the layer that are behind their surfaces,
lets all of them catch up, leaves no node locked and unlocks the files that it locked, and a
call for a layer that is not dirty does nothing. A surface that is painted fewer than 2³² times
until the next call lets its node be merged then exactly when it is painted at all. -/
theorem run_compositeLayer (env : LayerEnv Layer Surface) (start : LayerState Layer Surface)
    (unlocked : ∀ ref, (start.nodes ref).lockCount = 0)
    (steps : List (LayerStep Layer Surface)) (layer : Layer) :
    let state := start.run env steps
    let after := compositeLayer env layer true state
    let visits := layerVisits env layer state
    (∃ first second, after.calls = state.calls ++ (first ++ second) ∧
      (first ++ second).filterMap mergedNode =
        (visits.filter (Dirty state ·)).map ZNodeVisit.ref ∧
      first.filterMap lockedFile = sharedFiles state visits ∧
      first.filterMap unlockedFile = [] ∧ second.filterMap lockedFile = [] ∧
      second.filterMap unlockedFile = sharedFiles state visits) ∧
    (∀ visit ∈ visits,
      (after.nodes visit.ref).changes = (after.surfaces visit.surface).dirtyInfo.dirtyAge) ∧
    (∀ ref, (after.nodes ref).lockCount = 0) ∧
    compositeLayer env layer false state = state.call [.resetDirtyRegion layer false] ∧
    ∀ more, NotComposited layer more →
      layerVisits env layer (after.run env more) = visits ∧
      ∀ visit ∈ visits, paints visit.surface more < 2 ^ 32 →
        (Dirty (after.run env more) visit ↔ 0 < paints visit.surface more) := by
  intro state after visits
  have free : ∀ ref, (state.nodes ref).lockCount = 0 := run_unlocked unlocked steps
  have done : Composited env layer state after := composited env layer free
  have merges : ∀ visit ∈ visits, mergedNode visit.merge = some visit.ref :=
    fun visit member => (mem_layerVisits env layer state member).2
  have caught : ∀ visit ∈ visits,
      (after.nodes visit.ref).changes = (after.surfaces visit.surface).dirtyInfo.dirtyAge := by
    intro visit member
    rw [done.visited visit member, (done.surfaces visit.surface).dirtyAge]
    rfl
  refine ⟨⟨_, _, done.calls, ?_, ?_, ?_, ?_, ?_⟩, caught, done.unlocked free,
    compositeLayer_false env layer state, ?_⟩
  · rw [List.filterMap_append, List.filterMap_append, List.filterMap_append,
      lockCalls_merged merges, unlockCalls_merged]
    exact List.append_nil _
  · rw [List.filterMap_append, lockCalls_locked merges]
    rfl
  · rw [List.filterMap_append, lockCalls_unlocked merges]
    rfl
  · rw [List.filterMap_append, unlockCalls_locked]
    rfl
  · rw [List.filterMap_append, unlockCalls_unlocked]
    rfl
  · intro more between
    constructor
    · rw [(run_shape (done.unlocked free) more).layerVisits, done.shape.layerVisits]
    · intro visit member few
      have ofLayer := (mem_layerVisits env layer state member).1
      rw [Dirty, run_dirtyAge (done.unlocked free), run_nodes (done.unlocked free) between ofLayer,
        caught visit member]
      exact age_add_ne few

/-- A layer with a popup menu and a window, and the screen as the surface 0. -/
def exampleLayers : LayerEnv Unit Nat where
  mgTopmostLayer := ()
  screen := 0
  nrPopupmenus := fun _ => 1
  order := fun _ => [1]
  nodup := fun _ => List.nodup_singleton 1
  positive := by simp

/-- The popup menu has the surface 1 and the window the surface 2. -/
def exampleLayerState : LayerState Unit Nat where
  nodes
    | .menu _ _ => ⟨true, 0, 0, 1, 0, 0, 0, 0, none⟩
    | .win _ _ => ⟨true, 0, 0, 2, 0, 0, 0, 0, none⟩
  surfaces := fun _ => ⟨true, 3, 640, 480, ⟨0, 0, 0⟩⟩
  calls := []

/-- The painted window has caught up when it was composited. -/
theorem run_compositeLayer_window :
    ((compositeLayer exampleLayers () true
      (exampleLayerState.run exampleLayers [.paint 2 1 0])).nodes (.win () 1)).lockCount = 0 ∧
    ∀ visit ∈ layerVisits exampleLayers ()
        (exampleLayerState.run exampleLayers [.paint 2 1 0]),
      ((compositeLayer exampleLayers () true
        (exampleLayerState.run exampleLayers [.paint 2 1 0])).nodes visit.ref).changes =
      ((compositeLayer exampleLayers () true
        (exampleLayerState.run exampleLayers [.paint 2 1 0])).surfaces
          visit.surface).dirtyInfo.dirtyAge := by
  obtain ⟨-, caught, free, -⟩ :=
    run_compositeLayer exampleLayers exampleLayerState (fun ref => by cases ref <;> rfl)
      [.paint 2 1 0] ()
  exact ⟨free (.win () 1), caught⟩

end Bpcp.MiniGUI
