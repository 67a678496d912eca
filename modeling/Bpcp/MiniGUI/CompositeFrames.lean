import Bpcp.MiniGUI.CompositeRuns

/-!
# Frames

A frame composites the topmost layer and then the other layers of the list. Between two frames
surfaces are painted, nodes are shown and hidden, and another layer may become the topmost one
with its own popup menus and wallpaper. A node that is not visited for some frames is merged in
the next frame that visits it when its surface was painted meanwhile, so switching layers loses no
painting.
-/

namespace Bpcp.MiniGUI

variable {Layer Surface : Type}

/-! ## Visits one after the other -/

/-- Only the age of a surface shows in a node that was composited. -/
theorem compositedNode_congr {left right : GalSurface} (same : SameSurface left right)
    (node : ZOrderNode Surface) : compositedNode right node = compositedNode left node := by
  rw [compositedNode, compositedNode, same.dirtyAge]

/-- What compositing some nodes does. -/
structure VisitsDone (visits : List (ZNodeVisit Layer Surface))
    (state after : LayerState Layer Surface) : Prop where
  /-- The nodes are unlocked and have caught up with their surfaces. -/
  visited : ∀ visit ∈ visits,
    after.nodes visit.ref = compositedNode (state.surfaces visit.surface) (state.nodes visit.ref)
  /-- Other nodes are left alone. -/
  others : ∀ ref ∉ visits.map ZNodeVisit.ref, after.nodes ref = state.nodes ref
  /-- The surfaces lose dirty rectangles at most. -/
  surfaces : ∀ surface, SameSurface (state.surfaces surface) (after.surfaces surface)
  /-- The nodes that are behind their surfaces are merged, and the files that are locked are
  unlocked. -/
  calls : ∃ calls, after.calls = state.calls ++ calls ∧
    calls.filterMap mergedNode = (visits.filter (Dirty state ·)).map ZNodeVisit.ref ∧
    calls.filterMap lockedFile = sharedFiles state visits ∧
    calls.filterMap unlockedFile = sharedFiles state visits

namespace VisitsDone

variable {state mid after : LayerState Layer Surface}
  {visits later : List (ZNodeVisit Layer Surface)}

/-- What the loops look at is left alone. -/
theorem shape (done : VisitsDone visits state after) : SameShape state after := by
  have nodes : ∀ ref, (after.nodes ref).visible = (state.nodes ref).visible ∧
      (after.nodes ref).memDc = (state.nodes ref).memDc := by
    intro ref
    by_cases inside : ref ∈ visits.map ZNodeVisit.ref
    · have ⟨visit, member, same⟩ := List.mem_map.1 inside
      rw [← same, done.visited visit member]
      exact ⟨rfl, rfl⟩
    · rw [done.others ref inside]
      exact ⟨rfl, rfl⟩
  exact ⟨fun ref => (nodes ref).1, fun ref => (nodes ref).2, fun surface =>
    (done.surfaces surface).w, fun surface => (done.surfaces surface).h⟩

/-- No node is left locked. -/
theorem unlocked (done : VisitsDone visits state after)
    (free : ∀ ref, (state.nodes ref).lockCount = 0) (ref : ZNodeRef Layer) :
    (after.nodes ref).lockCount = 0 := by
  by_cases inside : ref ∈ visits.map ZNodeVisit.ref
  · have ⟨visit, member, same⟩ := List.mem_map.1 inside
    rw [← same, done.visited visit member]
    rfl
  · rw [done.others ref inside]
    exact free ref

/-- Visits that come after other ones are behind their surfaces as before. -/
theorem dirty_iff (done : VisitsDone visits state mid) {visit : ZNodeVisit Layer Surface}
    (apart : visit.ref ∉ visits.map ZNodeVisit.ref) : Dirty mid visit ↔ Dirty state visit := by
  rw [Dirty, Dirty, done.others visit.ref apart, (done.surfaces visit.surface).dirtyAge]

/-- Visits of other nodes go on where earlier ones end. -/
theorem append (first : VisitsDone visits state mid) (second : VisitsDone later mid after)
    (apart : (visits.map ZNodeVisit.ref).Disjoint (later.map ZNodeVisit.ref)) :
    VisitsDone (visits ++ later) state after := by
  have notFirst : ∀ visit ∈ later, visit.ref ∉ visits.map ZNodeVisit.ref := by
    intro visit member inside
    exact apart inside (List.mem_map_of_mem member)
  constructor
  · intro visit member
    rcases List.mem_append.1 member with early | late
    · have notLater : visit.ref ∉ later.map ZNodeVisit.ref := fun inside =>
        apart (List.mem_map_of_mem early) inside
      rw [second.others visit.ref notLater]
      exact first.visited visit early
    · rw [second.visited visit late, first.others visit.ref (notFirst visit late)]
      exact compositedNode_congr (first.surfaces visit.surface) _
  · intro ref outside
    rw [List.map_append, List.mem_append, not_or] at outside
    rw [second.others ref outside.2]
    exact first.others ref outside.1
  · intro surface
    exact (first.surfaces surface).trans (second.surfaces surface)
  · have ⟨calls, made, merged, locked, unlocked⟩ := first.calls
    have ⟨more, madeMore, mergedMore, lockedMore, unlockedMore⟩ := second.calls
    have behind : later.filter (Dirty mid ·) = later.filter (Dirty state ·) := by
      apply List.filter_congr
      intro visit member
      exact decide_eq_decide.2 (first.dirty_iff (notFirst visit member))
    have files : sharedFiles mid later = sharedFiles state later := by
      rw [sharedFiles, sharedFiles]
      have shared : ∀ visit : ZNodeVisit Layer Surface,
          (mid.surfaces visit.surface).sharedHeader =
            (state.surfaces visit.surface).sharedHeader :=
        fun visit => (first.surfaces visit.surface).sharedHeader
      have fds : ∀ visit : ZNodeVisit Layer Surface,
          (mid.surfaces visit.surface).fd = (state.surfaces visit.surface).fd :=
        fun visit => (first.surfaces visit.surface).fd
      simp only [shared, fds]
    have append : ∀ some rest : List (ZNodeVisit Layer Surface),
        sharedFiles state (some ++ rest) = sharedFiles state some ++ sharedFiles state rest := by
      intro some rest
      rw [sharedFiles, sharedFiles, sharedFiles, List.filter_append, List.map_append]
    refine ⟨calls ++ more, ?_, ?_, ?_, ?_⟩
    · rw [madeMore, made, List.append_assoc]
    · rw [List.filterMap_append, merged, mergedMore, behind, List.filter_append,
        List.map_append]
    · rw [List.filterMap_append, locked, lockedMore, files, append]
    · rw [List.filterMap_append, unlocked, unlockedMore, files, append]

end VisitsDone

/-! ## Frames -/

variable [DecidableEq Layer]

/-- What a frame meets. -/
structure Frame (Layer Surface : Type) where
  /-- The layers and the topmost one of them. -/
  env : LayerEnv Layer Surface
  /-- The list from `mgLayers` on. -/
  mgLayers : List Layer
  /-- What `reset_dirty_region` returns for a layer. -/
  dirty : Layer → Bool
  /-- A layer is in the list once. -/
  nodup : mgLayers.Nodup

/-- The layers in the order in which they are composited. -/
def Frame.layers (frame : Frame Layer Surface) : List Layer :=
  frame.env.mgTopmostLayer :: frame.mgLayers.filter fun layer => layer ≠ frame.env.mgTopmostLayer

/-- No layer is composited twice. -/
theorem Frame.layers_nodup (frame : Frame Layer Surface) : frame.layers.Nodup := by
  apply List.nodup_cons.2
  apply And.intro _ (frame.nodup.filter _)
  intro inside
  have apart := (List.mem_filter.1 inside).2
  exact of_decide_eq_true apart rfl

/-- What a frame visits in a layer. -/
def Frame.visitsOf (frame : Frame Layer Surface) (state : LayerState Layer Surface)
    (layer : Layer) : List (ZNodeVisit Layer Surface) :=
  if frame.dirty layer then layerVisits frame.env layer state else []

/-- What a frame visits. -/
def Frame.visits (frame : Frame Layer Surface) (state : LayerState Layer Surface) :
    List (ZNodeVisit Layer Surface) :=
  frame.layers.flatMap (frame.visitsOf state)

variable {state : LayerState Layer Surface}

/-- The nodes that are visited in a layer are of the layer. -/
theorem layer_of_visitsOf {frame : Frame Layer Surface} {layer : Layer} {ref : ZNodeRef Layer}
    (inside : ref ∈ (frame.visitsOf state layer).map ZNodeVisit.ref) : ref.layer = layer := by
  have ⟨visit, member, same⟩ := List.mem_map.1 inside
  rw [Frame.visitsOf] at member
  split at member
  · rw [← same]
    exact (mem_layerVisits frame.env layer state member).1
  · exact absurd member List.not_mem_nil

/-- The same nodes are visited in a state of the same shape. -/
theorem Frame.visitsOf_shape (frame : Frame Layer Surface) {other : LayerState Layer Surface}
    (same : SameShape state other) : frame.visitsOf other = frame.visitsOf state := by
  funext layer
  rw [Frame.visitsOf, Frame.visitsOf, same.layerVisits]

/-- A frame visits no node twice. -/
theorem Frame.visits_nodup (frame : Frame Layer Surface) (state : LayerState Layer Surface) :
    ((frame.visits state).map ZNodeVisit.ref).Nodup := by
  rw [Frame.visits, List.map_flatMap, List.nodup_flatMap]
  constructor
  · intro layer _
    rw [Frame.visitsOf]
    split
    · exact layerVisits_nodup frame.env layer state
    · exact List.nodup_nil
  · apply frame.layers_nodup.imp
    intro left right apart ref here there
    exact apart ((layer_of_visitsOf here).symm.trans (layer_of_visitsOf there))

variable [DecidableEq Surface]

/-- `__mg_composite_dirty_znodes`. -/
def mgCompositeDirtyZnodes (frame : Frame Layer Surface) (state : LayerState Layer Surface) :
    LayerState Layer Surface :=
  let mgTopmostLayer := frame.env.mgTopmostLayer
  let state := compositeLayer frame.env mgTopmostLayer (frame.dirty mgTopmostLayer) state
  frame.mgLayers.foldl (fun state layer =>
    if layer ≠ mgTopmostLayer then compositeLayer frame.env layer (frame.dirty layer) state
    else state) state

/-! ## Layers one after the other -/

/-- One layer of a frame. -/
theorem compositeLayer_done (frame : Frame Layer Surface) (layer : Layer)
    (free : ∀ ref, (state.nodes ref).lockCount = 0) :
    VisitsDone (frame.visitsOf state layer) state
      (compositeLayer frame.env layer (frame.dirty layer) state) := by
  cases dirty : frame.dirty layer with
  | false =>
    rw [Frame.visitsOf, if_neg (by rw [dirty]; exact Bool.false_ne_true)]
    refine ⟨?_, fun _ _ => rfl, fun _ => .refl _, ⟨_, rfl, rfl, rfl, rfl⟩⟩
    intro visit member
    exact absurd member List.not_mem_nil
  | true =>
    rw [Frame.visitsOf, if_pos dirty]
    have done := composited frame.env layer free
    have merges : ∀ visit ∈ layerVisits frame.env layer state,
        mergedNode visit.merge = some visit.ref :=
      fun visit member => (mem_layerVisits frame.env layer state member).2
    refine ⟨done.visited, done.others, done.surfaces, ⟨_, done.calls, ?_, ?_, ?_⟩⟩
    · rw [List.filterMap_append, List.filterMap_append, List.filterMap_append,
        lockCalls_merged merges, unlockCalls_merged]
      exact List.append_nil _
    · rw [List.filterMap_append, List.filterMap_append, List.filterMap_append,
        lockCalls_locked merges, unlockCalls_locked]
      exact List.append_nil _
    · rw [List.filterMap_append, List.filterMap_append, List.filterMap_append,
        lockCalls_unlocked merges, unlockCalls_unlocked]
      rfl

/-- Different layers are composited one after the other. -/
theorem layers_done (frame : Frame Layer Surface) {layers : List Layer} (nodup : layers.Nodup)
    (free : ∀ ref, (state.nodes ref).lockCount = 0) :
    VisitsDone (layers.flatMap (frame.visitsOf state)) state
      (layers.foldl (fun state layer => compositeLayer frame.env layer (frame.dirty layer) state)
        state) := by
  induction layers generalizing state with
  | nil =>
    refine ⟨?_, fun _ _ => rfl, fun _ => .refl _, ⟨[], (List.append_nil _).symm, rfl, rfl, rfl⟩⟩
    intro visit member
    exact absurd member List.not_mem_nil
  | cons layer rest ih =>
    have ⟨once, others⟩ := List.nodup_cons.1 nodup
    have first := compositeLayer_done frame layer free
    have second := ih others (first.unlocked free)
    rw [frame.visitsOf_shape first.shape] at second
    rw [List.flatMap_cons, List.foldl_cons]
    apply first.append second
    intro ref here there
    have ⟨visit, member, same⟩ := List.mem_map.1 there
    have ⟨other, listed, inner⟩ := List.mem_flatMap.1 member
    have ofOther : ref.layer = other := by
      rw [← same]
      exact layer_of_visitsOf (List.mem_map_of_mem inner)
    have ofLayer := layer_of_visitsOf here
    exact once (ofLayer.symm.trans ofOther ▸ listed)

/-- A frame composites its layers one after the other. -/
theorem mgCompositeDirtyZnodes_eq (frame : Frame Layer Surface)
    (state : LayerState Layer Surface) :
    mgCompositeDirtyZnodes frame state = frame.layers.foldl (fun state layer =>
      compositeLayer frame.env layer (frame.dirty layer) state) state := by
  rw [Frame.layers, List.foldl_cons, List.foldl_filter, mgCompositeDirtyZnodes]
  simp only [decide_eq_true_eq]

/-- A frame visits its nodes. -/
theorem frame_done (frame : Frame Layer Surface)
    (free : ∀ ref, (state.nodes ref).lockCount = 0) :
    VisitsDone (frame.visits state) state (mgCompositeDirtyZnodes frame state) := by
  rw [mgCompositeDirtyZnodes_eq]
  exact layers_done frame frame.layers_nodup free

/-! ## Runs -/

/-- What happens between frames, and a frame. -/
inductive DesktopStep (Layer Surface : Type) where
  /-- A surface is painted, which leaves it with dirty rectangles. -/
  | paint (surface : Surface) (nrDirtyRcs dirtyRcs : Nat)
  /-- A node is shown or hidden. -/
  | showNode (ref : ZNodeRef Layer) (visible : Bool)
  /-- `__mg_composite_dirty_znodes`. -/
  | frame (frame : Frame Layer Surface)

/-- The state after a step. -/
def LayerState.step (state : LayerState Layer Surface) :
    DesktopStep Layer Surface → LayerState Layer Surface
  | .paint surface nrDirtyRcs dirtyRcs =>
    { state with
      surfaces := Function.update state.surfaces surface
        ((state.surfaces surface).paint nrDirtyRcs dirtyRcs) }
  | .showNode ref visible => state.setNode ref { state.nodes ref with visible := visible }
  | .frame frame => mgCompositeDirtyZnodes frame state

/-- The state after a run. -/
def LayerState.steps (state : LayerState Layer Surface)
    (steps : List (DesktopStep Layer Surface)) : LayerState Layer Surface :=
  steps.foldl LayerState.step state

/-- How often a surface is painted in a run. -/
def paintings (surface : Surface) : List (DesktopStep Layer Surface) → Nat
  | [] => 0
  | .paint painted _ _ :: rest => paintings surface rest + if painted = surface then 1 else 0
  | .showNode _ _ :: rest => paintings surface rest
  | .frame _ :: rest => paintings surface rest

/-- The nodes that a frame merges, in their order. -/
def merges (frame : Frame Layer Surface) (state : LayerState Layer Surface) :
    List (ZNodeRef Layer) :=
  ((mgCompositeDirtyZnodes frame state).calls.drop state.calls.length).filterMap mergedNode

/-- No frame of a run visits the node. -/
def Unvisited (ref : ZNodeRef Layer) :
    LayerState Layer Surface → List (DesktopStep Layer Surface) → Prop
  | _, [] => True
  | state, step :: rest =>
    (∀ frame, step = .frame frame → ref ∉ (frame.visits state).map ZNodeVisit.ref) ∧
      Unvisited ref (state.step step) rest

variable {steps : List (DesktopStep Layer Surface)} {ref : ZNodeRef Layer}

/-- A node that is shown or hidden keeps the rest. -/
theorem showNode_nodes (state : LayerState Layer Surface) (shown : ZNodeRef Layer) (visible : Bool)
    (ref : ZNodeRef Layer) :
    ((state.step (.showNode shown visible)).nodes ref).lockCount = (state.nodes ref).lockCount ∧
      ((state.step (.showNode shown visible)).nodes ref).changes = (state.nodes ref).changes := by
  simp only [LayerState.step, LayerState.setNode]
  by_cases here : ref = shown
  · rw [here, Function.update_self]
    exact ⟨rfl, rfl⟩
  · rw [Function.update_of_ne here]
    exact ⟨rfl, rfl⟩

/-- After a step, no node is locked. -/
theorem step_unlocked (free : ∀ ref, (state.nodes ref).lockCount = 0)
    (step : DesktopStep Layer Surface) (ref : ZNodeRef Layer) :
    ((state.step step).nodes ref).lockCount = 0 := by
  cases step with
  | paint surface nrDirtyRcs dirtyRcs => exact free ref
  | showNode shown visible =>
    rw [(showNode_nodes state shown visible ref).1]
    exact free ref
  | frame frame => exact (frame_done frame free).unlocked free ref

/-- After a run, no node is locked. -/
theorem steps_unlocked (free : ∀ ref, (state.nodes ref).lockCount = 0)
    (steps : List (DesktopStep Layer Surface)) (ref : ZNodeRef Layer) :
    ((state.steps steps).nodes ref).lockCount = 0 := by
  induction steps generalizing state with
  | nil => exact free ref
  | cons step rest ih => exact ih (step_unlocked free step)

/-- A surface is older by the number of times that it was painted. -/
theorem steps_dirtyAge (free : ∀ ref, (state.nodes ref).lockCount = 0)
    (steps : List (DesktopStep Layer Surface)) (surface : Surface) :
    ((state.steps steps).surfaces surface).dirtyInfo.dirtyAge =
      (state.surfaces surface).dirtyInfo.dirtyAge + UInt32.ofNat (paintings surface steps) := by
  induction steps generalizing state with
  | nil => simp [LayerState.steps, paintings]
  | cons step rest ih =>
    rw [LayerState.steps, List.foldl_cons]
    apply (ih (step_unlocked free step)).trans
    cases step with
    | paint painted nrDirtyRcs dirtyRcs =>
      by_cases here : painted = surface
      · rw [here]
        simp only [LayerState.step, Function.update_self, GalSurface.paint, paintings, if_true,
          UInt32.ofNat_add]
        rw [UInt32.add_assoc, UInt32.add_comm 1]
        rfl
      · simp only [LayerState.step, Function.update_of_ne (Ne.symm here), paintings, if_neg here,
          Nat.add_zero]
    | showNode shown visible => rfl
    | frame frame =>
      have same := (frame_done frame free).surfaces surface
      simp only [LayerState.step, paintings, same.dirtyAge]

/-- A node that no frame visits keeps its changes. -/
theorem steps_changes (free : ∀ ref, (state.nodes ref).lockCount = 0)
    (unvisited : Unvisited ref state steps) :
    ((state.steps steps).nodes ref).changes = (state.nodes ref).changes := by
  induction steps generalizing state with
  | nil => rfl
  | cons step rest ih =>
    rw [LayerState.steps, List.foldl_cons]
    apply (ih (step_unlocked free step) unvisited.2).trans
    cases step with
    | paint painted nrDirtyRcs dirtyRcs => rfl
    | showNode shown visible => exact (showNode_nodes state shown visible ref).2
    | frame frame =>
      have alone := (frame_done frame free).others ref (unvisited.1 frame rfl)
      exact congrArg ZOrderNode.changes alone

/-- A frame merges the nodes that are behind their surfaces. -/
theorem merges_eq (frame : Frame Layer Surface) (free : ∀ ref, (state.nodes ref).lockCount = 0) :
    merges frame state = ((frame.visits state).filter (Dirty state ·)).map ZNodeVisit.ref := by
  have ⟨calls, made, merged, _⟩ := (frame_done frame free).calls
  rw [merges, made, List.drop_left]
  exact merged

/-- A frame merges a node that it visits exactly when the node is behind its surface. -/
theorem mem_merges (frame : Frame Layer Surface) (free : ∀ ref, (state.nodes ref).lockCount = 0)
    {visit : ZNodeVisit Layer Surface} (member : visit ∈ frame.visits state) :
    visit.ref ∈ merges frame state ↔ Dirty state visit := by
  rw [merges_eq frame free]
  constructor
  · intro inside
    have ⟨other, kept, same⟩ := List.mem_map.1 inside
    have ⟨listed, dirty⟩ := List.mem_filter.1 kept
    rw [← List.inj_on_of_nodup_map (frame.visits_nodup state) listed member same]
    exact of_decide_eq_true dirty
  · intro dirty
    exact List.mem_map_of_mem (List.mem_filter.2 ⟨member, decide_eq_true dirty⟩)

/-- After any run of paintings, changes of visibility and frames with any topmost layers, a frame
merges each node that it visits and that is behind its surface, once and in the order of the
layers, leaves no node and no file locked, and lets all of them catch up. However many frames do
not visit a node then, the next one that does merges it exactly when its surface was painted
since, as long as that was fewer than 2³² times. -/
theorem frames_merge (start : LayerState Layer Surface)
    (free : ∀ ref, (start.nodes ref).lockCount = 0) (steps : List (DesktopStep Layer Surface))
    (frame : Frame Layer Surface) :
    let state := start.steps steps
    let after := mgCompositeDirtyZnodes frame state
    (merges frame state = ((frame.visits state).filter (Dirty state ·)).map ZNodeVisit.ref ∧
      (merges frame state).Nodup) ∧
    (∃ calls, after.calls = state.calls ++ calls ∧
      calls.filterMap lockedFile = calls.filterMap unlockedFile) ∧
    (∀ ref, (after.nodes ref).lockCount = 0) ∧
    (∀ visit ∈ frame.visits state,
      (after.nodes visit.ref).changes = (after.surfaces visit.surface).dirtyInfo.dirtyAge) ∧
    ∀ more later visit, visit ∈ frame.visits state → Unvisited visit.ref after more →
      visit ∈ later.visits (after.steps more) → paintings visit.surface more < 2 ^ 32 →
      (visit.ref ∈ merges later (after.steps more) ↔ 0 < paintings visit.surface more) := by
  intro state after
  have freeNow : ∀ ref, (state.nodes ref).lockCount = 0 := steps_unlocked free steps
  have done : VisitsDone (frame.visits state) state after := frame_done frame freeNow
  have freeAfter := done.unlocked freeNow
  have caught : ∀ visit ∈ frame.visits state,
      (after.nodes visit.ref).changes = (after.surfaces visit.surface).dirtyInfo.dirtyAge := by
    intro visit member
    rw [done.visited visit member, (done.surfaces visit.surface).dirtyAge]
    rfl
  have merged := merges_eq frame freeNow
  have once : (merges frame state).Nodup := by
    rw [merged]
    exact (frame.visits_nodup state).sublist (List.filter_sublist.map ZNodeVisit.ref)
  have ⟨calls, made, _, locked, unlocked⟩ := done.calls
  refine ⟨⟨merged, once⟩, ⟨calls, made, locked.trans unlocked.symm⟩, freeAfter, caught, ?_⟩
  intro more later visit member unvisited again few
  rw [mem_merges later (steps_unlocked freeAfter more) again, Dirty,
    steps_dirtyAge freeAfter, steps_changes freeAfter unvisited, caught visit member]
  exact age_add_ne few

/-- A frame of two layers with a popup menu and a window each. -/
def exampleFrame (mgTopmostLayer : Bool) : Frame Bool Nat where
  env :=
    { mgTopmostLayer := mgTopmostLayer
      screen := 0
      nrPopupmenus := fun _ => 1
      order := fun _ => [1]
      nodup := fun _ => List.nodup_singleton 1
      positive := by simp }
  mgLayers := [true, false]
  dirty := fun _ => true
  nodup := by decide

/-- The popup menus have the surfaces 1 and 2, and the windows 3 and 4. -/
def exampleFrameState : LayerState Bool Nat where
  nodes
    | .menu layer _ => ⟨true, 0, 0, if layer then 1 else 2, 0, 0, 0, 0, none⟩
    | .win layer _ => ⟨true, 0, 0, if layer then 3 else 4, 0, 0, 0, 0, none⟩
  surfaces := fun _ => ⟨true, 3, 640, 480, ⟨0, 0, 0⟩⟩
  calls := []

/-- A popup menu that is painted while another layer is the topmost one is merged when its layer is
the topmost one again. -/
theorem frames_merge_switch :
    ZNodeRef.menu true 0 ∈ merges (exampleFrame true)
      ((mgCompositeDirtyZnodes (exampleFrame true) exampleFrameState).steps
        [.paint 1 1 0, .frame (exampleFrame false)]) := by
  have free : ∀ ref, (exampleFrameState.nodes ref).lockCount = 0 := by
    intro ref
    cases ref <;> rfl
  have ⟨_, _, _, _, later⟩ := frames_merge exampleFrameState free [] (exampleFrame true)
  have visited : ∀ state : LayerState Bool Nat, (state.nodes (.menu true 0)).memDc = 1 →
      ⟨.menu true 0, 1, 0, .mergeDirtyPpp true 0⟩ ∈ (exampleFrame true).visits state := by
    intro state memDc
    simp [Frame.visits, Frame.layers, Frame.visitsOf, exampleFrame, layerVisits, popupVisits, memDc]
  have unvisited : ∀ state : LayerState Bool Nat,
      .menu true 0 ∉ ((exampleFrame false).visits state).map ZNodeVisit.ref := by
    intro state
    simp [Frame.visits, Frame.layers, Frame.visitsOf, exampleFrame, layerVisits, popupVisits,
      windowVisits, wallpaperVisits]
  have between : Unvisited (.menu true 0)
      (mgCompositeDirtyZnodes (exampleFrame true) exampleFrameState)
      [.paint 1 1 0, .frame (exampleFrame false)] := by
    refine ⟨?_, ?_, trivial⟩
    · intro frame same
      exact absurd same (by simp)
    · intro frame same
      rw [← DesktopStep.frame.inj same]
      exact unvisited _
  exact (later [.paint 1 1 0, .frame (exampleFrame false)] (exampleFrame true) _ (visited _ rfl)
    between (visited _ rfl) (by decide)).2 (by decide)

end Bpcp.MiniGUI
