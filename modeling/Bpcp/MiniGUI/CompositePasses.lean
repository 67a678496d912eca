import Bpcp.MiniGUI.CompositeLayer

/-!
# The passes over the nodes of a layer

The loops of both passes visit the same nodes, because locking, merging and unlocking change
neither the visibility of nodes nor their surfaces. The nodes are different, so a pass does
to each of them what it does to one.
-/

namespace Bpcp.MiniGUI

variable {Layer Surface : Type}

/-! ## What the loops look at -/

/-- Surfaces that differ in their dirty rectangles at most. -/
structure SameSurface (left right : GalSurface) : Prop where
  /-- The file is shared or not. -/
  sharedHeader : right.sharedHeader = left.sharedHeader
  /-- The file. -/
  fd : right.fd = left.fd
  /-- The width. -/
  w : right.w = left.w
  /-- The height. -/
  h : right.h = left.h
  /-- The age. -/
  dirtyAge : right.dirtyInfo.dirtyAge = left.dirtyInfo.dirtyAge

/-- A surface is the same as itself. -/
theorem SameSurface.refl (surface : GalSurface) : SameSurface surface surface :=
  ⟨rfl, rfl, rfl, rfl, rfl⟩

/-- Likeness of surfaces is passed on. -/
theorem SameSurface.trans {first second third : GalSurface} (left : SameSurface first second)
    (right : SameSurface second third) : SameSurface first third where
  sharedHeader := right.sharedHeader.trans left.sharedHeader
  fd := right.fd.trans left.fd
  w := right.w.trans left.w
  h := right.h.trans left.h
  dirtyAge := right.dirtyAge.trans left.dirtyAge

/-- States in which the same nodes are visited. -/
structure SameShape (left right : LayerState Layer Surface) : Prop where
  /-- The same nodes are visible. -/
  visible : ∀ ref, (right.nodes ref).visible = (left.nodes ref).visible
  /-- The nodes have the same surfaces. -/
  memDc : ∀ ref, (right.nodes ref).memDc = (left.nodes ref).memDc
  /-- The surfaces have the same width. -/
  w : ∀ surface, (right.surfaces surface).w = (left.surfaces surface).w
  /-- The surfaces have the same height. -/
  h : ∀ surface, (right.surfaces surface).h = (left.surfaces surface).h

namespace SameShape

variable {left right third : LayerState Layer Surface}

/-- A state has its own shape. -/
theorem refl (state : LayerState Layer Surface) : SameShape state state :=
  ⟨fun _ => rfl, fun _ => rfl, fun _ => rfl, fun _ => rfl⟩

/-- Shapes are passed on. -/
theorem trans (first : SameShape left right) (second : SameShape right third) :
    SameShape left third where
  visible := fun ref => (second.visible ref).trans (first.visible ref)
  memDc := fun ref => (second.memDc ref).trans (first.memDc ref)
  w := fun surface => (second.w surface).trans (first.w surface)
  h := fun surface => (second.h surface).trans (first.h surface)

end SameShape

/-- The body of a loop leaves what the loops look at. -/
def KeepsShape (body : VisitBody Layer Surface) : Prop :=
  ∀ state visit, SameShape state (body state visit)

/-- A body that keeps the shape keeps it over all visits. -/
theorem KeepsShape.foldl {body : VisitBody Layer Surface} (keeps : KeepsShape body)
    (visits : List (ZNodeVisit Layer Surface)) (state : LayerState Layer Surface) :
    SameShape state (visits.foldl body state) := by
  induction visits generalizing state with
  | nil => exact .refl state
  | cons visit rest ih => exact (keeps state visit).trans (ih (body state visit))

/-- A fold over steps that agree as long as an invariant holds. -/
theorem foldl_congr_of_invariant {σ α : Type} {first second : σ → α → σ} (holds : σ → Prop)
    (kept : ∀ state value, holds state → holds (second state value))
    (agree : ∀ state value, holds state → first state value = second state value)
    (values : List α) {state : σ} (base : holds state) :
    values.foldl first state = values.foldl second state := by
  induction values generalizing state with
  | nil => rfl
  | cons value rest ih =>
    rw [List.foldl_cons, List.foldl_cons, agree state value base]
    exact ih (kept state value base)

/-! ## Nodes that are locked once -/

/-- The place of a node that is merged. -/
def mergedNode : CompositeCall Layer → Option (ZNodeRef Layer)
  | .mergeDirtyPpp layer i => some (.menu layer i)
  | .mergeDirtyWin layer slot => some (.win layer slot)
  | .mergeDirtyWpp layer => some (.win layer 0)
  | _ => none

/-- The layer of a node. -/
def ZNodeRef.layer : ZNodeRef Layer → Layer
  | .menu layer _ => layer
  | .win layer _ => layer

/-- A node whose surface is locked once. -/
def lockedNode (surface : GalSurface) (node : ZOrderNode Surface) : ZOrderNode Surface :=
  { node with
    dirtyAge := surface.dirtyInfo.dirtyAge
    nrDirtyRcs := surface.dirtyInfo.nrDirtyRcs
    dirtyRcs := some surface.dirtyInfo.dirtyRcs
    lockCount := 1 }

/-- A node whose surface is unlocked and whose changes are those of the surface. -/
def compositedNode (surface : GalSurface) (node : ZOrderNode Surface) : ZOrderNode Surface :=
  { node with
    changes := surface.dirtyInfo.dirtyAge
    dirtyAge := 0
    nrDirtyRcs := 0
    dirtyRcs := none
    lockCount := 0 }

/-- Unlocking a node that is locked once. -/
theorem unlockZnodeSurface_eq {surface : GalSurface} {node : ZOrderNode Surface}
    (locked : node.lockCount = 1) :
    unlockZnodeSurface surface node =
      ((decide (surface.dirtyInfo.dirtyAge ≠ node.changes), compositedNode surface node,
        if surface.sharedHeader then [.unlockFileForRead surface.fd] else []) :
        Bool × ZOrderNode Surface × List (CompositeCall Layer)) := by
  have positive : 0 < node.lockCount := by omega
  have last : node.lockCount - 1 = 0 := by omega
  simp only [unlockZnodeSurface, if_pos positive, last, if_true]
  by_cases same : node.changes = surface.dirtyInfo.dirtyAge
  · simp [same, compositedNode]
  · simp [same, compositedNode, Ne.symm same]

/-- Resetting the dirty rectangles leaves the rest of the surface, and a client is told about its
window. -/
theorem resetZnodeSurfaceDirty_spec (surface : GalSurface) (node : ZOrderNode Surface)
    (slot : Nat) {result : GalSurface × List (CompositeCall Layer)}
    (reset : resetZnodeSurfaceDirty surface node slot = result) :
    SameSurface surface result.1 ∧
      result.2 = if ¬(node.cli = 0 ∨ slot = 0) ∧ node.hwnd ≠ 0 then
        [.winComposited node.cli slot node.hwnd node.changes] else [] := by
  subst reset
  rw [resetZnodeSurfaceDirty]
  by_cases server : node.cli = 0 ∨ slot = 0
  · rw [if_pos server, if_neg fun both => both.1 server]
    exact ⟨⟨rfl, rfl, rfl, rfl, rfl⟩, rfl⟩
  · by_cases window : node.hwnd ≠ 0
    · rw [if_neg server, if_pos window, if_pos ⟨server, window⟩]
      exact ⟨.refl surface, rfl⟩
    · rw [if_neg server, if_neg window, if_neg fun both => window both.2]
      exact ⟨.refl surface, rfl⟩

/-! ## The nodes of a layer -/

variable {body : VisitBody Layer Surface} (env : LayerEnv Layer Surface) (layer : Layer)
  (state : LayerState Layer Surface)

/-- The visible windows of a layer. -/
def windowVisits : List (ZNodeVisit Layer Surface) :=
  ((env.order layer).filter fun next => (state.nodes (.win layer next)).visible).map fun next =>
    ⟨.win layer next, (state.nodes (.win layer next)).memDc, next, .mergeDirtyWin layer next⟩

/-- The loop over the windows visits those that are visible. -/
theorem visitWindows_eq (keeps : KeepsShape body) :
    visitWindows env layer body state = (windowVisits env layer state).foldl body state := by
  rw [visitWindows, windowVisits, List.foldl_map, List.foldl_filter]
  apply foldl_congr_of_invariant (SameShape state) _ _ _ (.refl state)
  · intro now next same
    split
    · exact same.trans (keeps now _)
    · exact same
  · intro now next same
    rw [same.visible, same.memDc]

variable [DecidableEq Layer]

/-- The popup menus of a layer. -/
def popupVisits : List (ZNodeVisit Layer Surface) :=
  if layer = env.mgTopmostLayer ∧ 0 < env.nrPopupmenus layer then
    (List.range (env.nrPopupmenus layer)).map fun i =>
      ⟨.menu layer i, (state.nodes (.menu layer i)).memDc, i, .mergeDirtyPpp layer i⟩
  else []

/-- The wallpaper, with the topmost layer of a screen that is not empty. -/
def wallpaperVisits : List (ZNodeVisit Layer Surface) :=
  if layer = env.mgTopmostLayer ∧ 0 < (state.surfaces env.screen).w ∧
      0 < (state.surfaces env.screen).h then
    [⟨.win layer 0, env.screen, 0, .mergeDirtyWpp layer⟩]
  else []

/-- The popup menus, the visible windows and the wallpaper of a layer. -/
def layerVisits : List (ZNodeVisit Layer Surface) :=
  popupVisits env layer state ++ windowVisits env layer state ++ wallpaperVisits env layer state

/-- The same nodes are visited. -/
theorem SameShape.layerVisits {left right : LayerState Layer Surface}
    (same : SameShape left right) :
    layerVisits env layer right = layerVisits env layer left := by
  simp only [MiniGUI.layerVisits, popupVisits, windowVisits, wallpaperVisits, same.visible,
    same.memDc, same.w, same.h]

/-- The loop over the popup menus visits them. -/
theorem visitPopupmenus_eq (keeps : KeepsShape body) :
    visitPopupmenus env layer body state = (popupVisits env layer state).foldl body state := by
  rw [visitPopupmenus, popupVisits]
  split
  · rw [List.foldl_map]
    apply foldl_congr_of_invariant (SameShape state) _ _ _ (.refl state)
    · exact fun now i same => same.trans (keeps now _)
    · intro now i same
      rw [same.memDc]
  · rfl

/-- The wallpaper is visited. -/
theorem visitWallpaper_eq :
    visitWallpaper env layer body state = (wallpaperVisits env layer state).foldl body state := by
  rw [visitWallpaper, wallpaperVisits]
  by_cases topmost : layer = env.mgTopmostLayer
  · by_cases shown : 0 < (state.surfaces env.screen).w ∧ 0 < (state.surfaces env.screen).h
    · rw [if_pos topmost, if_pos shown, if_pos ⟨topmost, shown⟩]
      rfl
    · rw [if_pos topmost, if_neg shown, if_neg fun both => shown both.2]
      rfl
  · rw [if_neg topmost, if_neg fun both => topmost both.1]
    rfl

/-- The three loops of a pass visit the nodes of the layer. -/
theorem visitLayer_eq (keeps : KeepsShape body) :
    visitWallpaper env layer body (visitWindows env layer body
      (visitPopupmenus env layer body state)) = (layerVisits env layer state).foldl body state := by
  have popups := keeps.foldl (popupVisits env layer state) state
  have windows := popups.trans (keeps.foldl (windowVisits env layer state) _)
  have sameWindows : windowVisits env layer ((popupVisits env layer state).foldl body state) =
      windowVisits env layer state := by
    simp only [windowVisits, popups.visible, popups.memDc]
  have sameWallpaper : wallpaperVisits env layer ((windowVisits env layer state).foldl body
      ((popupVisits env layer state).foldl body state)) = wallpaperVisits env layer state := by
    simp only [wallpaperVisits, windows.w, windows.h]
  rw [visitPopupmenus_eq env layer state keeps, visitWindows_eq env layer _ keeps, sameWindows,
    visitWallpaper_eq, sameWallpaper, layerVisits, List.foldl_append, List.foldl_append]

variable {visit : ZNodeVisit Layer Surface}

/-- What is visited as a popup menu. -/
theorem mem_popupVisits (member : visit ∈ popupVisits env layer state) :
    ∃ i, visit.ref = .menu layer i ∧ visit.merge = .mergeDirtyPpp layer i := by
  rw [popupVisits] at member
  split at member
  · obtain ⟨i, -, rfl⟩ := List.mem_map.1 member
    exact ⟨i, rfl, rfl⟩
  · exact absurd member List.not_mem_nil

omit [DecidableEq Layer] in
/-- What is visited as a window. -/
theorem mem_windowVisits (member : visit ∈ windowVisits env layer state) :
    ∃ slot, 0 < slot ∧ visit.ref = .win layer slot ∧ visit.merge = .mergeDirtyWin layer slot := by
  obtain ⟨next, inside, rfl⟩ := List.mem_map.1 member
  exact ⟨next, env.positive layer next (List.mem_of_mem_filter inside), rfl, rfl⟩

/-- What is visited as the wallpaper. -/
theorem mem_wallpaperVisits (member : visit ∈ wallpaperVisits env layer state) :
    visit.ref = .win layer 0 ∧ visit.merge = .mergeDirtyWpp layer := by
  rw [wallpaperVisits] at member
  split at member
  · rw [List.mem_singleton.1 member]
    exact ⟨rfl, rfl⟩
  · exact absurd member List.not_mem_nil

/-- A node of a layer is visited once. -/
theorem layerVisits_nodup : ((layerVisits env layer state).map ZNodeVisit.ref).Nodup := by
  have popups : ((popupVisits env layer state).map ZNodeVisit.ref).Nodup := by
    rw [popupVisits]
    split
    · rw [List.map_map]
      refine List.Nodup.map ?_ List.nodup_range
      intro left right same
      exact (ZNodeRef.menu.inj same).2
    · exact List.nodup_nil
  have windows : ((windowVisits env layer state).map ZNodeVisit.ref).Nodup := by
    rw [windowVisits, List.map_map]
    refine List.Nodup.map ?_ ((env.nodup layer).filter _)
    intro left right same
    exact (ZNodeRef.win.inj same).2
  have wallpaper : ((wallpaperVisits env layer state).map ZNodeVisit.ref).Nodup := by
    rw [wallpaperVisits]
    split
    · exact List.nodup_singleton _
    · exact List.nodup_nil
  rw [layerVisits, List.map_append, List.map_append]
  refine List.Nodup.append (List.Nodup.append popups windows ?_) wallpaper ?_
  · intro ref popup window
    obtain ⟨first, member, rfl⟩ := List.mem_map.1 popup
    obtain ⟨second, other, same⟩ := List.mem_map.1 window
    obtain ⟨i, menu, -⟩ := mem_popupVisits env layer state member
    obtain ⟨slot, -, win, -⟩ := mem_windowVisits env layer state other
    rw [menu, win] at same
    exact absurd same (by simp)
  · intro ref other paper
    obtain ⟨second, member, rfl⟩ := List.mem_map.1 paper
    obtain ⟨zero, -⟩ := mem_wallpaperVisits env layer state member
    rcases List.mem_append.1 other with popup | window
    · obtain ⟨first, member, same⟩ := List.mem_map.1 popup
      obtain ⟨i, menu, -⟩ := mem_popupVisits env layer state member
      rw [menu, zero] at same
      exact absurd same (by simp)
    · obtain ⟨first, member, same⟩ := List.mem_map.1 window
      obtain ⟨slot, positive, win, -⟩ := mem_windowVisits env layer state member
      rw [win, zero] at same
      exact absurd (ZNodeRef.win.inj same).2 (by omega)

/-- What is visited is of the layer, and what is merged is what is visited. -/
theorem mem_layerVisits (member : visit ∈ layerVisits env layer state) :
    visit.ref.layer = layer ∧ mergedNode visit.merge = some visit.ref := by
  rw [layerVisits, List.mem_append, List.mem_append] at member
  rcases member with (popup | window) | wallpaper
  · obtain ⟨i, ref, merge⟩ := mem_popupVisits env layer state popup
    rw [ref, merge]
    exact ⟨rfl, rfl⟩
  · obtain ⟨slot, -, ref, merge⟩ := mem_windowVisits env layer state window
    rw [ref, merge]
    exact ⟨rfl, rfl⟩
  · obtain ⟨ref, merge⟩ := mem_wallpaperVisits env layer state wallpaper
    rw [ref, merge]
    exact ⟨rfl, rfl⟩

/-! ## One node -/

/-- The surface of the node was painted since the node was composited. -/
def Dirty (state : LayerState Layer Surface) (visit : ZNodeVisit Layer Surface) : Prop :=
  (state.surfaces visit.surface).dirtyInfo.dirtyAge ≠ (state.nodes visit.ref).changes

instance (state : LayerState Layer Surface) (visit : ZNodeVisit Layer Surface) :
    Decidable (Dirty state visit) := inferInstanceAs (Decidable (_ ≠ _))

/-- The calls of the first pass for a node. -/
def lockCalls (state : LayerState Layer Surface) (visit : ZNodeVisit Layer Surface) :
    List (CompositeCall Layer) :=
  (if (state.surfaces visit.surface).sharedHeader then
    [.lockFileForRead (state.surfaces visit.surface).fd] else []) ++
  if Dirty state visit then [visit.merge] else []

/-- The calls of the second pass for a node. -/
def unlockCalls (state : LayerState Layer Surface) (visit : ZNodeVisit Layer Surface) :
    List (CompositeCall Layer) :=
  (if (state.surfaces visit.surface).sharedHeader then
    [.unlockFileForRead (state.surfaces visit.surface).fd] else []) ++
  if Dirty state visit ∧ ¬((state.nodes visit.ref).cli = 0 ∨ visit.slot = 0) ∧
      (state.nodes visit.ref).hwnd ≠ 0 then
    [.winComposited (state.nodes visit.ref).cli visit.slot (state.nodes visit.ref).hwnd
      (state.surfaces visit.surface).dirtyInfo.dirtyAge]
  else []

variable {state}

/-- The first pass locks a node that is not locked. -/
theorem lockAndMerge_eq (unlocked : (state.nodes visit.ref).lockCount = 0) :
    lockAndMerge state visit =
      (state.setNode visit.ref (lockedNode (state.surfaces visit.surface)
        (state.nodes visit.ref))).call (lockCalls state visit) := by
  have changes : (Function.update state.nodes visit.ref (lockedNode (state.surfaces visit.surface)
      (state.nodes visit.ref)) visit.ref).changes = (state.nodes visit.ref).changes := by
    rw [Function.update_self]
    rfl
  have locked : lockZnodeSurface (state.surfaces visit.surface) (state.nodes visit.ref) =
      (lockedNode (state.surfaces visit.surface) (state.nodes visit.ref),
        if (state.surfaces visit.surface).sharedHeader then
          [.lockFileForRead (state.surfaces visit.surface).fd] else
          ([] : List (CompositeCall Layer))) := by
    rw [lockZnodeSurface, if_pos unlocked, unlocked]
    rfl
  simp only [lockAndMerge, locked, LayerState.setNode, LayerState.call, changes, lockCalls]
  by_cases dirty : (state.surfaces visit.surface).dirtyInfo.dirtyAge ≠
      (state.nodes visit.ref).changes
  · have marked : Dirty state visit := dirty
    rw [if_pos dirty, if_pos marked, List.append_assoc]
  · have clean : ¬Dirty state visit := dirty
    rw [if_neg dirty, if_neg clean, List.append_nil]

variable [DecidableEq Surface]

/-- The second pass unlocks a node that is locked once. -/
theorem unlockAndReset_eq (locked : (state.nodes visit.ref).lockCount = 1) :
    ∃ surfaces, unlockAndReset state visit =
      ⟨Function.update state.nodes visit.ref (compositedNode (state.surfaces visit.surface)
        (state.nodes visit.ref)), surfaces, state.calls ++ unlockCalls state visit⟩ ∧
      ∀ surface, SameSurface (state.surfaces surface) (surfaces surface) := by
  by_cases dirty : (state.surfaces visit.surface).dirtyInfo.dirtyAge ≠
      (state.nodes visit.ref).changes
  · have marked : Dirty state visit := dirty
    cases reset : (resetZnodeSurfaceDirty (state.surfaces visit.surface)
        (compositedNode (state.surfaces visit.surface) (state.nodes visit.ref)) visit.slot :
          GalSurface × List (CompositeCall Layer)) with
    | mk surface calls =>
      obtain ⟨same, told⟩ := resetZnodeSurfaceDirty_spec _ _ _ reset
      refine ⟨Function.update state.surfaces visit.surface surface, ?_, ?_⟩
      · simp only [unlockAndReset, unlockZnodeSurface_eq locked, LayerState.setNode,
          LayerState.call, decide_eq_true dirty, reset, if_true, unlockCalls, marked, true_and,
          List.append_assoc]
        dsimp only at told
        rw [told]
        rfl
      · intro other
        by_cases here : other = visit.surface
        · rw [here, Function.update_self]
          exact same
        · rw [Function.update_of_ne here]
          exact .refl _
  · have clean : ¬Dirty state visit := dirty
    refine ⟨state.surfaces, ?_, fun surface => .refl _⟩
    simp only [unlockAndReset, unlockZnodeSurface_eq locked, dirty, decide_false, if_neg,
      LayerState.setNode, LayerState.call, unlockCalls, clean, false_and,
      List.append_nil, Bool.false_eq_true, not_false_eq_true]

/-! ## Whole passes -/

variable (state) (visits : List (ZNodeVisit Layer Surface))

/-- What the first pass does to the nodes that it visits. -/
structure FirstPass (after : LayerState Layer Surface) : Prop where
  /-- The nodes are locked. -/
  visited : ∀ visit ∈ visits,
    after.nodes visit.ref = lockedNode (state.surfaces visit.surface) (state.nodes visit.ref)
  /-- Other nodes are left alone. -/
  others : ∀ ref ∉ visits.map ZNodeVisit.ref, after.nodes ref = state.nodes ref
  /-- The surfaces are left alone. -/
  surfaces : after.surfaces = state.surfaces
  /-- The calls are made in the order of the nodes. -/
  calls : after.calls = state.calls ++ visits.flatMap (lockCalls state)

/-- What the second pass does to the nodes that it visits. -/
structure SecondPass (after : LayerState Layer Surface) : Prop where
  /-- The nodes are unlocked. -/
  visited : ∀ visit ∈ visits,
    after.nodes visit.ref = compositedNode (state.surfaces visit.surface) (state.nodes visit.ref)
  /-- Other nodes are left alone. -/
  others : ∀ ref ∉ visits.map ZNodeVisit.ref, after.nodes ref = state.nodes ref
  /-- The surfaces lose dirty rectangles at most. -/
  surfaces : ∀ surface, SameSurface (state.surfaces surface) (after.surfaces surface)
  /-- The calls are made in the order of the nodes. -/
  calls : after.calls = state.calls ++ visits.flatMap (unlockCalls state)

variable {visits}

omit [DecidableEq Layer] [DecidableEq Surface] in
/-- A node that is not visited again differs from the nodes that are. -/
theorem ref_ne_of_fresh {visit : ZNodeVisit Layer Surface}
    (fresh : visit.ref ∉ visits.map ZNodeVisit.ref) :
    ∀ other ∈ visits, other.ref ≠ visit.ref := by
  intro other member same
  exact fresh (List.mem_map.2 ⟨other, member, same⟩)

omit [DecidableEq Surface] in
/-- The first pass over different nodes that are not locked. -/
theorem firstPass (nodup : (visits.map ZNodeVisit.ref).Nodup)
    (unlocked : ∀ visit ∈ visits, (state.nodes visit.ref).lockCount = 0) :
    FirstPass state visits (visits.foldl lockAndMerge state) := by
  induction visits generalizing state with
  | nil => exact ⟨by simp, by simp, rfl, by simp⟩
  | cons visit rest ih =>
    rw [List.map_cons, List.nodup_cons] at nodup
    obtain ⟨fresh, nodup⟩ := nodup
    have apart := ref_ne_of_fresh fresh
    have step := lockAndMerge_eq (unlocked visit List.mem_cons_self)
    have same : ∀ ref ≠ visit.ref, (lockAndMerge state visit).nodes ref = state.nodes ref := by
      intro ref differs
      rw [step]
      exact Function.update_of_ne differs _ _
    have pass := ih (lockAndMerge state visit) nodup fun other member => by
      rw [same other.ref (apart other member)]
      exact unlocked other (List.mem_cons_of_mem _ member)
    have surfaces : (lockAndMerge state visit).surfaces = state.surfaces := by
      rw [step]
      rfl
    constructor
    · intro other member
      rcases List.mem_cons.1 member with rfl | inside
      · rw [List.foldl_cons, pass.others _ fresh, step]
        exact Function.update_self _ _ _
      · rw [List.foldl_cons, pass.visited other inside, surfaces,
          same other.ref (apart other inside)]
    · intro ref outside
      rw [List.map_cons, List.mem_cons, not_or] at outside
      rw [List.foldl_cons, pass.others ref outside.2, same ref outside.1]
    · rw [List.foldl_cons, pass.surfaces, surfaces]
    · have later : rest.flatMap (lockCalls (lockAndMerge state visit)) =
          rest.flatMap (lockCalls state) := by
        apply List.flatMap_congr
        intro other member
        have dirty : Dirty (lockAndMerge state visit) other ↔ Dirty state other := by
          rw [Dirty, Dirty, surfaces, same other.ref (apart other member)]
        simp only [lockCalls, dirty, surfaces]
      rw [List.foldl_cons, pass.calls, later, List.flatMap_cons, ← List.append_assoc]
      congr 1
      rw [step]
      rfl

/-- The second pass over different nodes that are locked once. -/
theorem secondPass (nodup : (visits.map ZNodeVisit.ref).Nodup)
    (locked : ∀ visit ∈ visits, (state.nodes visit.ref).lockCount = 1) :
    SecondPass state visits (visits.foldl unlockAndReset state) := by
  induction visits generalizing state with
  | nil => exact ⟨by simp, by simp, fun surface => .refl _, by simp⟩
  | cons visit rest ih =>
    rw [List.map_cons, List.nodup_cons] at nodup
    obtain ⟨fresh, nodup⟩ := nodup
    have apart := ref_ne_of_fresh fresh
    obtain ⟨surfaces, step, alike⟩ := unlockAndReset_eq (locked visit List.mem_cons_self)
    have same : ∀ ref ≠ visit.ref, (unlockAndReset state visit).nodes ref = state.nodes ref := by
      intro ref differs
      rw [step]
      exact Function.update_of_ne differs _ _
    have pass := ih (unlockAndReset state visit) nodup fun other member => by
      rw [same other.ref (apart other member)]
      exact locked other (List.mem_cons_of_mem _ member)
    have after : ∀ surface, SameSurface (state.surfaces surface)
        ((unlockAndReset state visit).surfaces surface) := by
      rw [step]
      exact alike
    constructor
    · intro other member
      rcases List.mem_cons.1 member with rfl | inside
      · rw [List.foldl_cons, pass.others _ fresh, step]
        exact Function.update_self _ _ _
      · rw [List.foldl_cons, pass.visited other inside, same other.ref (apart other inside)]
        simp only [compositedNode, (after other.surface).dirtyAge]
    · intro ref outside
      rw [List.map_cons, List.mem_cons, not_or] at outside
      rw [List.foldl_cons, pass.others ref outside.2, same ref outside.1]
    · intro surface
      exact (after surface).trans (pass.surfaces surface)
    · have later : rest.flatMap (unlockCalls (unlockAndReset state visit)) =
          rest.flatMap (unlockCalls state) := by
        apply List.flatMap_congr
        intro other member
        have dirty : Dirty (unlockAndReset state visit) other ↔ Dirty state other := by
          rw [Dirty, Dirty, (after other.surface).dirtyAge, same other.ref (apart other member)]
        simp only [unlockCalls, dirty, (after other.surface).sharedHeader,
          (after other.surface).fd, (after other.surface).dirtyAge,
          same other.ref (apart other member)]
      rw [List.foldl_cons, pass.calls, later, List.flatMap_cons, ← List.append_assoc]
      congr 1
      rw [step]

end Bpcp.MiniGUI
