import Bpcp.Lib.Machine
import Bpcp.MiniGUI.CompositorTable

/-!
# Selecting and terminating compositors

The selected compositor and its context are static variables of `ServerSelectCompositor`. A
compositor is selected by its initialize callback returning a context: the context of the one
before it is then purged from all nodes and terminated. When the callback returns NULL, the
one before it stays selected, and its context is what the caller gets. The calls of callbacks
are recorded in the order in which they are made.
-/

namespace Bpcp.MiniGUI

open Bpcp.Lib

/-- The fields of `ZORDERNODE` that change hands with the compositor. -/
structure OwnedZNode where
  /-- `priv_data`. -/
  privData : Option Nat
  /-- `flags & ZOF_VISIBLE`. -/
  visible : Bool

/-- The nodes that are visited when the compositor changes. -/
structure Desktop where
  /-- The popup menus of the topmost layer. -/
  popupmenus : List OwnedZNode
  /-- The windows of each layer in the order of `__kernel_get_next_znode`, with their slots. -/
  layers : List (List (Nat × OwnedZNode))

/-- What the server knows of compositors without calling them. -/
structure CompositorEnv (Ops : Type) where
  /-- `__mg_fallback_compositor`. -/
  mgFallbackCompositor : Ops
  /-- `purge_ppp_data` is not NULL. -/
  purgesPppData : Ops → Bool
  /-- `purge_win_data` is not NULL. -/
  purgesWinData : Ops → Bool

/-- A call of a callback of a compositor. -/
inductive CompositorCall (Ops Ctxt : Type) where
  /-- `initialize` with a name, and what it returns. -/
  | initializeCall (ops : Ops) (name : CString) (result : Option Ctxt)
  /-- `terminate`. -/
  | terminate (ops : Ops) (ctxt : Option Ctxt)
  /-- `purge_ppp_data`. -/
  | purgePppData (ops : Ops) (ctxt : Option Ctxt) (i privData : Nat)
  /-- `purge_win_data`. -/
  | purgeWinData (ops : Ops) (ctxt : Option Ctxt) (layer i privData : Nat)
  /-- `on_showing_ppp`. -/
  | onShowingPpp (ops : Ops) (ctxt : Option Ctxt) (i : Nat)
  /-- `on_showing_win`. -/
  | onShowingWin (ops : Ops) (ctxt : Option Ctxt) (layer i : Nat)
  /-- `refresh`. -/
  | refresh (ops : Ops) (ctxt : Option Ctxt)

/-- The table, the static variables of `ServerSelectCompositor` and the world around them. -/
structure CompositorState (Ops Ctxt : Type) where
  /-- `compositors`. -/
  compositors : Compositors Ops
  /-- `curr_ops`. -/
  currOps : Option Ops
  /-- `curr_ctxt`. -/
  currCtxt : Option Ctxt
  /-- The nodes of the layers. -/
  desktop : Desktop
  /-- The calls of callbacks that were made. -/
  calls : List (CompositorCall Ops Ctxt)

variable {Ops Ctxt : Type} [DecidableEq Ops]

/-- A callback is called. -/
def CompositorState.call (state : CompositorState Ops Ctxt)
    (calls : List (CompositorCall Ops Ctxt)) : CompositorState Ops Ctxt :=
  { state with calls := state.calls ++ calls }

/-- The private data of a node is given up. -/
def OwnedZNode.purge (node : OwnedZNode) : OwnedZNode := { node with privData := none }

/-- The calls of `purge_all_znodes_private_data`. -/
def purgeCalls (env : CompositorEnv Ops) (ops : Ops) (ctxt : Option Ctxt) (desktop : Desktop) :
    List (CompositorCall Ops Ctxt) :=
  let popups := if env.purgesPppData ops then
      desktop.popupmenus.zipIdx.filterMap fun (node, i) =>
        node.privData.map (.purgePppData ops ctxt i)
    else []
  let windows := if env.purgesWinData ops then
      desktop.layers.zipIdx.flatMap fun (nodes, layer) =>
        nodes.filterMap fun (next, node) => node.privData.map (.purgeWinData ops ctxt layer next)
    else []
  popups ++ windows

/-- What `purge_all_znodes_private_data` leaves of the nodes. -/
def purgeDesktop (env : CompositorEnv Ops) (ops : Ops) (desktop : Desktop) : Desktop where
  popupmenus :=
    if env.purgesPppData ops then desktop.popupmenus.map OwnedZNode.purge else desktop.popupmenus
  layers :=
    if env.purgesWinData ops then
      desktop.layers.map fun nodes => nodes.map fun (next, node) => (next, node.purge)
    else desktop.layers

/-- `purge_all_znodes_private_data`. -/
def purgeAllZnodesPrivateData (env : CompositorEnv Ops) (ops : Ops) (ctxt : Option Ctxt)
    (state : CompositorState Ops Ctxt) : CompositorState Ops Ctxt :=
  { state.call (purgeCalls env ops ctxt state.desktop) with
    desktop := purgeDesktop env ops state.desktop }

/-- The calls of `rebuild_all_znodes_private_data`. -/
def rebuildCalls (ops : Ops) (ctxt : Option Ctxt) (desktop : Desktop) :
    List (CompositorCall Ops Ctxt) :=
  (desktop.popupmenus.zipIdx.filterMap fun (node, i) =>
      if node.visible then some (.onShowingPpp ops ctxt i) else none) ++
    desktop.layers.zipIdx.flatMap fun (nodes, layer) =>
      nodes.filterMap fun (next, node) =>
        if node.visible then some (.onShowingWin ops ctxt layer next) else none

/-- `rebuild_all_znodes_private_data`. -/
def rebuildAllZnodesPrivateData (ops : Ops) (ctxt : Option Ctxt)
    (state : CompositorState Ops Ctxt) : CompositorState Ops Ctxt :=
  state.call (rebuildCalls ops ctxt state.desktop)

/-- What `ServerSelectCompositor` returns, stores and leaves. -/
structure SelectResult (Ops Ctxt : Type) where
  /-- The returned operations. -/
  ops : Option Ops
  /-- The pointer that is stored for the caller, unless nothing is stored. -/
  theCtxt : Option (Option Ctxt)
  /-- The state. -/
  state : CompositorState Ops Ctxt

/-- The part of `ServerSelectCompositor` after a successful initialization. -/
def replaceCompositor (env : CompositorEnv Ops) (ops : Ops) (ctxt : Ctxt)
    (state : CompositorState Ops Ctxt) : CompositorState Ops Ctxt :=
  let state := match state.currOps with
    | none => state
    | some currOps =>
      (purgeAllZnodesPrivateData env currOps state.currCtxt state).call
        [.terminate currOps state.currCtxt]
  let state := { state with currOps := some ops, currCtxt := some ctxt }
  (rebuildAllZnodesPrivateData ops (some ctxt) state).call [.refresh ops (some ctxt)]

/-- `ServerSelectCompositor`, where `answer` is what the initialize callback returns. -/
def serverSelectCompositor (env : CompositorEnv Ops) (state : CompositorState Ops Ctxt)
    (name : Option CString) (answer : Option Ctxt) : SelectResult Ops Ctxt :=
  match nonEmptyName name with
  | none => ⟨state.currOps, some state.currCtxt, state⟩
  | some name =>
    match serverGetCompositorOps state.compositors (some name) with
    | none => ⟨none, none, state⟩
    | some ops =>
      if some ops = state.currOps then ⟨some ops, some state.currCtxt, state⟩
      else
        let state := state.call [.initializeCall ops name answer]
        let state := match answer with
          | none => state
          | some ctxt => replaceCompositor env ops ctxt state
        ⟨state.currOps, some state.currCtxt, state⟩

/-- `mg_InitCompositor`, where `loaded` is what `load_default_compositor` returns. -/
def mgInitCompositor (env : CompositorEnv Ops) (state : CompositorState Ops Ctxt)
    (loaded : Option Ops) (answer : Option Ctxt) : Bool × CompositorState Ops Ctxt :=
  let (registered, compositors) := match loaded with
    | none => (false, state.compositors)
    | some ops => serverRegisterCompositor state.compositors (some compsorNameDefault) (some ops)
  let name := if registered then compsorNameDefault else compsorNameFallback
  let selected := serverSelectCompositor env { state with compositors } (some name) answer
  (selected.theCtxt.join.isSome, selected.state)

/-- `mg_TerminateCompositor`. -/
def mgTerminateCompositor (env : CompositorEnv Ops) (state : CompositorState Ops Ctxt)
    (answer : Option Ctxt) : CompositorState Ops Ctxt :=
  let selected := serverSelectCompositor env state (some compsorNameFallback) answer
  match selected.theCtxt.join with
  | none => selected.state
  | some ctxt =>
    (purgeAllZnodesPrivateData env env.mgFallbackCompositor (some ctxt) selected.state).call
      [.terminate env.mgFallbackCompositor (some ctxt)]

/-! ## Runs -/

/-- A call of a function of the server, or a change of the nodes by the rest of the server. -/
inductive CompositorStep (Ops Ctxt : Type) where
  /-- `mg_InitCompositor`. -/
  | init (loaded : Option Ops) (answer : Option Ctxt)
  /-- `ServerRegisterCompositor`. -/
  | register (name : Option CString) (ops : Option Ops)
  /-- `ServerUnregisterCompositor`. -/
  | unregister (name : Option CString)
  /-- `ServerSelectCompositor`. -/
  | select (name : Option CString) (answer : Option Ctxt)
  /-- The nodes change. -/
  | desktop (desktop : Desktop)

/-- What an initialize callback returns that is called in a step. -/
def CompositorStep.answer : CompositorStep Ops Ctxt → Option Ctxt
  | .init _ answer | .select _ answer => answer
  | _ => none

/-- The state after a step. -/
def CompositorState.apply (env : CompositorEnv Ops) (state : CompositorState Ops Ctxt) :
    CompositorStep Ops Ctxt → CompositorState Ops Ctxt
  | .init loaded answer => (mgInitCompositor env state loaded answer).2
  | .register name ops =>
    { state with compositors := (serverRegisterCompositor state.compositors name ops).2 }
  | .unregister name =>
    { state with
      compositors := (serverUnregisterCompositor state.compositors state.currOps name).2 }
  | .select name answer => (serverSelectCompositor env state name answer).state
  | .desktop desktop => { state with desktop }

/-- The state at the start, with nothing selected. -/
def initialState (env : CompositorEnv Ops) (desktop : Desktop) : CompositorState Ops Ctxt where
  compositors := initialCompositors env.mgFallbackCompositor
  currOps := none
  currCtxt := none
  desktop := desktop
  calls := []

/-- The runs of the server. -/
def compositorMachine (env : CompositorEnv Ops) :
    Machine (CompositorState Ops Ctxt) (CompositorStep Ops Ctxt) where
  start := fun state => ∃ desktop, state = initialState env desktop
  step := fun state step next => next = state.apply env step

end Bpcp.MiniGUI
