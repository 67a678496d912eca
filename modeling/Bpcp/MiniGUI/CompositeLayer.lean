import Mathlib

/-!
# Compositing a layer

The server composites a layer in two passes over its nodes. The first locks the surface of
each node and merges the nodes whose surface was painted since they were composited, which
shows in the age of the surface. The second unlocks the surfaces and takes over their ages.
Each pass visits popup menus, windows and the wallpaper in three loops, under conditions on
the layer, the node and the screen.
-/

namespace Bpcp.MiniGUI

/-- `dirty_info` of a surface. -/
structure DirtyInfo where
  /-- `dirty_age`. -/
  dirtyAge : UInt32
  /-- `nr_dirty_rcs`. -/
  nrDirtyRcs : Nat
  /-- `dirty_rcs`. -/
  dirtyRcs : Nat

/-- The fields of a surface that compositing reads. -/
structure GalSurface where
  /-- `shared_header` is not NULL. -/
  sharedHeader : Bool
  /-- `fd`. -/
  fd : Int
  /-- `w`. -/
  w : Int
  /-- `h`. -/
  h : Int
  /-- `dirty_info`. -/
  dirtyInfo : DirtyInfo

/-- The fields of `ZORDERNODE` that compositing reads, where the device context in memory is
given by its surface. -/
structure ZOrderNode (Surface : Type) where
  /-- `flags & ZOF_VISIBLE`. -/
  visible : Bool
  /-- `cli`. -/
  cli : Int
  /-- `hwnd`. -/
  hwnd : Nat
  /-- `mem_dc`. -/
  memDc : Surface
  /-- `changes`. -/
  changes : UInt32
  /-- `lock_count`. -/
  lockCount : Nat
  /-- `dirty_age`. -/
  dirtyAge : UInt32
  /-- `nr_dirty_rcs`. -/
  nrDirtyRcs : Nat
  /-- `dirty_rcs`. -/
  dirtyRcs : Option Nat

/-- A place in the arrays of nodes of a layer. -/
inductive ZNodeRef (Layer : Type) where
  /-- A popup menu. -/
  | menu (layer : Layer) (i : Nat)
  /-- A slot of the windows, the first of which is for the wallpaper. -/
  | win (layer : Layer) (slot : Nat)
deriving DecidableEq

/-- A call of a callback or of a function of the server. -/
inductive CompositeCall (Layer : Type) where
  /-- `reset_dirty_region`, and what it returns. -/
  | resetDirtyRegion (layer : Layer) (result : Bool)
  /-- `merge_dirty_ppp`. -/
  | mergeDirtyPpp (layer : Layer) (i : Nat)
  /-- `merge_dirty_win`. -/
  | mergeDirtyWin (layer : Layer) (slot : Nat)
  /-- `merge_dirty_wpp`. -/
  | mergeDirtyWpp (layer : Layer)
  /-- `refresh_dirty_region`. -/
  | refreshDirtyRegion (layer : Layer)
  /-- `__mg_lock_file_for_read`. -/
  | lockFileForRead (fd : Int)
  /-- `__mg_unlock_file_for_read`. -/
  | unlockFileForRead (fd : Int)
  /-- `__mg_send2client` of `MSG_WINCOMPOSITED`. -/
  | winComposited (cli : Int) (slot hwnd : Nat) (changes : UInt32)
deriving DecidableEq

/-- The layers, whose nodes and order do not change. -/
structure LayerEnv (Layer Surface : Type) where
  /-- `mgTopmostLayer`. -/
  mgTopmostLayer : Layer
  /-- The surface of `HDC_SCREEN`. -/
  screen : Surface
  /-- `nr_popupmenus`. -/
  nrPopupmenus : Layer → Nat
  /-- The slots that `__kernel_get_next_znode` goes through from 0 on. -/
  order : Layer → List Nat
  /-- A slot is gone through once. -/
  nodup : ∀ layer, (order layer).Nodup
  /-- The slots are positive. -/
  positive : ∀ layer, ∀ slot ∈ order layer, 0 < slot

/-- The nodes and the surfaces, and the calls that were made. -/
structure LayerState (Layer Surface : Type) where
  /-- The nodes. -/
  nodes : ZNodeRef Layer → ZOrderNode Surface
  /-- The surfaces. -/
  surfaces : Surface → GalSurface
  /-- The calls, in their order. -/
  calls : List (CompositeCall Layer)

variable {Layer Surface : Type} [DecidableEq Layer] [DecidableEq Surface]

/-- Calls are made. -/
def LayerState.call (state : LayerState Layer Surface) (calls : List (CompositeCall Layer)) :
    LayerState Layer Surface :=
  { state with calls := state.calls ++ calls }

/-- A node is written. -/
def LayerState.setNode (state : LayerState Layer Surface) (ref : ZNodeRef Layer)
    (node : ZOrderNode Surface) : LayerState Layer Surface :=
  { state with nodes := Function.update state.nodes ref node }

/-- `lock_znode_surface`, and the calls that it makes. -/
def lockZnodeSurface (surface : GalSurface) (node : ZOrderNode Surface) :
    ZOrderNode Surface × List (CompositeCall Layer) :=
  if node.lockCount = 0 then
    ({ node with
        dirtyAge := surface.dirtyInfo.dirtyAge
        nrDirtyRcs := surface.dirtyInfo.nrDirtyRcs
        dirtyRcs := some surface.dirtyInfo.dirtyRcs
        lockCount := node.lockCount + 1 },
      if surface.sharedHeader then [.lockFileForRead surface.fd] else [])
  else ({ node with lockCount := node.lockCount + 1 }, [])

/-- `unlock_znode_surface`: whether the dirty rectangles need a reset, the node, and the calls. -/
def unlockZnodeSurface (surface : GalSurface) (node : ZOrderNode Surface) :
    Bool × ZOrderNode Surface × List (CompositeCall Layer) :=
  if 0 < node.lockCount then
    let node := { node with lockCount := node.lockCount - 1 }
    if node.lockCount = 0 then
      let (needReset, node) :=
        if node.changes ≠ surface.dirtyInfo.dirtyAge then
          (true, { node with changes := surface.dirtyInfo.dirtyAge })
        else (false, node)
      (needReset, { node with dirtyAge := 0, nrDirtyRcs := 0, dirtyRcs := none },
        if surface.sharedHeader then [.unlockFileForRead surface.fd] else [])
    else (false, node, [])
  else (false, node, [])

/-- `reset_znode_surface_dirty`: the surface, and the calls. -/
def resetZnodeSurfaceDirty (surface : GalSurface) (node : ZOrderNode Surface) (slot : Nat) :
    GalSurface × List (CompositeCall Layer) :=
  if node.cli = 0 ∨ slot = 0 then
    ({ surface with dirtyInfo := { surface.dirtyInfo with nrDirtyRcs := 0 } }, [])
  else if node.hwnd ≠ 0 then
    (surface, [.winComposited node.cli slot node.hwnd node.changes])
  else (surface, [])

/-- A visit of a node: where the node is, its surface, the number that is passed with it, and
the callback that merges it. -/
structure ZNodeVisit (Layer Surface : Type) where
  /-- The place of the node. -/
  ref : ZNodeRef Layer
  /-- The surface of its device context. -/
  surface : Surface
  /-- The slot. -/
  slot : Nat
  /-- The call that merges the node. -/
  merge : CompositeCall Layer

/-- The body of the loops of the first pass. -/
def lockAndMerge (state : LayerState Layer Surface) (visit : ZNodeVisit Layer Surface) :
    LayerState Layer Surface :=
  let surface := state.surfaces visit.surface
  let (node, calls) := lockZnodeSurface surface (state.nodes visit.ref)
  let state := (state.setNode visit.ref node).call calls
  let changesInDc := surface.dirtyInfo.dirtyAge
  if changesInDc ≠ (state.nodes visit.ref).changes then state.call [visit.merge] else state

/-- The body of the loops of the second pass. -/
def unlockAndReset (state : LayerState Layer Surface) (visit : ZNodeVisit Layer Surface) :
    LayerState Layer Surface :=
  let surface := state.surfaces visit.surface
  let (needReset, node, calls) := unlockZnodeSurface surface (state.nodes visit.ref)
  let state := (state.setNode visit.ref node).call calls
  if needReset then
    let (surface, calls) := resetZnodeSurfaceDirty surface node visit.slot
    { state.call calls with surfaces := Function.update state.surfaces visit.surface surface }
  else state

/-- The body of the loops of a pass. -/
abbrev VisitBody (Layer Surface : Type) :=
  LayerState Layer Surface → ZNodeVisit Layer Surface → LayerState Layer Surface

/-- The loop over the popup menus; there are some on the topmost layer only. -/
def visitPopupmenus (env : LayerEnv Layer Surface) (layer : Layer)
    (body : VisitBody Layer Surface) (state : LayerState Layer Surface) :
    LayerState Layer Surface :=
  if layer = env.mgTopmostLayer ∧ 0 < env.nrPopupmenus layer then
    (List.range (env.nrPopupmenus layer)).foldl (fun state i =>
      body state ⟨.menu layer i, (state.nodes (.menu layer i)).memDc, i, .mergeDirtyPpp layer i⟩)
      state
  else state

/-- The loop over the windows. -/
def visitWindows (env : LayerEnv Layer Surface) (layer : Layer)
    (body : VisitBody Layer Surface) (state : LayerState Layer Surface) :
    LayerState Layer Surface :=
  (env.order layer).foldl (fun state next =>
    if (state.nodes (.win layer next)).visible then
      body state
        ⟨.win layer next, (state.nodes (.win layer next)).memDc, next, .mergeDirtyWin layer next⟩
    else state) state

/-- The wallpaper; it is visited with the topmost layer only. -/
def visitWallpaper (env : LayerEnv Layer Surface) (layer : Layer)
    (body : VisitBody Layer Surface) (state : LayerState Layer Surface) :
    LayerState Layer Surface :=
  if layer = env.mgTopmostLayer then
    if 0 < (state.surfaces env.screen).w ∧ 0 < (state.surfaces env.screen).h then
      body state ⟨.win layer 0, env.screen, 0, .mergeDirtyWpp layer⟩
    else state
  else state

/-- `composite_layer`, where `dirty` is what `reset_dirty_region` returns. -/
def compositeLayer (env : LayerEnv Layer Surface) (layer : Layer) (dirty : Bool)
    (state : LayerState Layer Surface) : LayerState Layer Surface :=
  let state := state.call [.resetDirtyRegion layer dirty]
  if dirty then
    let state := visitPopupmenus env layer lockAndMerge state
    let state := visitWindows env layer lockAndMerge state
    let state := visitWallpaper env layer lockAndMerge state
    let state := state.call [.refreshDirtyRegion layer]
    let state := visitPopupmenus env layer unlockAndReset state
    let state := visitWindows env layer unlockAndReset state
    visitWallpaper env layer unlockAndReset state
  else state

end Bpcp.MiniGUI
