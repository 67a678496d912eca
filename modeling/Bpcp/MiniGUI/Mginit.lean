import Bpcp.Lib.CString

/-!
# The server of MiniGUI-Processes

`mginit` starts its clients, counts the clients that are connected and handles the function keys.
Its calls to MiniGUI and to the system are logged in order, with what they return, and so are the
clients that connect and leave.
-/

namespace Bpcp.MiniGUI

open Bpcp.Lib

/-- What happens to the server. -/
inductive ServerCall where
  /-- A client has connected. -/
  | connected (pid : ℤ)
  /-- A client has left. -/
  | left (pid : ℤ)
  /-- `exec_app`, and what it returns. -/
  | exec (fileName appName : CString) (pid : ℤ)
  /-- `kill` with `SIGINT`. -/
  | kill (pid : ℤ)
  /-- `free`. -/
  | free (text : CString)
  /-- `ServerCreateLayer`, and what it returns. -/
  | createLayer (name : CString) (layer : Option ℕ)
  /-- `ServerCreateLayer` with `NAME_DEF_LAYER`. -/
  | createDefLayer (layer : Option ℕ)
  /-- `ServerSetTopmostLayer`. -/
  | setTopmostLayer (layer : Option ℕ)
  /-- `CreateToolTipWin`, and what it returns. -/
  | createToolTipWin (name : CString) (window : ℕ)
  /-- `ResetToolTipWin`. -/
  | resetToolTipWin (window : ℕ) (name : CString)
  /-- `DestroyToolTipWin`. -/
  | destroyToolTipWin (window : ℕ)
  /-- `ShowCursor (TRUE)`. -/
  | showCursor
  /-- `SendNotifyMessage` with `MSG_ENDSESSION`. -/
  | endSession
  /-- `_ERR_PRINTF`. -/
  | error (text : CString)
deriving DecidableEq

/-- The variables of the server. -/
structure Server where
  /-- `nr_clients`. -/
  nrClients : ℤ
  /-- `pid_dynamic`. -/
  pidDynamic : ℤ
  /-- `pid_welcome`. -/
  pidWelcome : ℤ
  /-- `exe_cmd`. -/
  exeCmd : Option CString
  /-- `pid_scrnsaver`. -/
  pidScrnsaver : ℤ
  /-- `my_tooltip_win`, 0 for `HWND_NULL`. -/
  myTooltipWin : ℕ
  /-- `my_layers`. -/
  myLayers : Fin 4 → Option ℕ
  /-- The calls, in order. -/
  calls : List ServerCall

/-- The variables before `MiniGUIMain` starts. -/
def Server.initial : Server := ⟨0, 0, 0, none, 0, 0, fun _ => none, []⟩

/-- A call is logged. -/
def Server.call (server : Server) (entry : ServerCall) : Server :=
  { server with calls := server.calls ++ [entry] }

/-- `exec_app` in the server, with what `vfork` returns. -/
def execApp (server : Server) (vfork : ℤ) (fileName appName : CString) : ℤ × Server :=
  (vfork, server.call (.exec fileName appName vfork))

/-- The operations that `OnNewDelClient` is called with. -/
inductive ClientOp where
  /-- `LCO_NEW_CLIENT`. -/
  | newClient
  /-- `LCO_DEL_CLIENT`. -/
  | delClient
  /-- Any other value. -/
  | other
deriving DecidableEq

/-- The command is executed when the welcome client has left. -/
def leaveWelcome (server : Server) (vfork pid : ℤ) : Server :=
  if server.pidWelcome = pid then
    match server.exeCmd with
    | none => { server with pidWelcome := 0 }
    | some exeCmd =>
      { (execApp server vfork exeCmd exeCmd).2.call (.free exeCmd) with
        pidWelcome := 0, exeCmd := none }
  else server

/-- `on_new_del_client`, with the `pid` of the client. -/
def onNewDelClient (server : Server) (vfork : ℤ) (op : ClientOp) (pid : ℤ) : Server :=
  match op with
  | .newClient => { server with nrClients := server.nrClients + 1 }
  | .delClient =>
    let server := { server with nrClients := server.nrClients - 1 }
    let server :=
      if server.nrClients < 0 then
        server.call (.error (.lit "Serious error: nr_clients less than zero.\n"))
      else server
    leaveWelcome server vfork pid
  | .other => server.call (.error (.lit "Serious error: incorrect operations.\n"))

/-- What MiniGUI and the system return while a message is handled. -/
structure Answers where
  /-- `vfork`: the child, or -1. -/
  vfork : ℤ
  /-- `ServerCreateLayer`. -/
  layer : Option ℕ
  /-- `CreateToolTipWin`. -/
  window : ℕ

/-- `show_layer_messsage`. -/
def showLayerMesssage (server : Server) (answers : Answers) (name : CString) : Server :=
  if server.myTooltipWin ≠ 0 then server.call (.resetToolTipWin server.myTooltipWin name)
  else { server.call (.createToolTipWin name answers.window) with myTooltipWin := answers.window }

/-- `create_or_switch_layer`. -/
def createOrSwitchLayer (server : Server) (answers : Answers) (slot : Fin 4) (name : CString) :
    Server :=
  if (server.myLayers slot).isSome then server.call (.setTopmostLayer (server.myLayers slot))
  else
    let server := { server.call (.createLayer name answers.layer) with
      myLayers := Function.update server.myLayers slot answers.layer }
    if answers.layer.isSome then showLayerMesssage server answers name else server

/-- The keys that the server knows. -/
inductive Scancode where
  /-- `SCANCODE_ESCAPE`. -/
  | escape
  /-- `SCANCODE_SPACE`. -/
  | space
  /-- `SCANCODE_F1`. -/
  | f1
  /-- `SCANCODE_F2`. -/
  | f2
  /-- `SCANCODE_F3`. -/
  | f3
  /-- `SCANCODE_F4`. -/
  | f4
  /-- `SCANCODE_F5`. -/
  | f5
  /-- `SCANCODE_F6`. -/
  | f6
  /-- `SCANCODE_F7`. -/
  | f7
  /-- `SCANCODE_F8`. -/
  | f8
  /-- `SCANCODE_F9`. -/
  | f9
  /-- `SCANCODE_F10`. -/
  | f10
  /-- `SCANCODE_F11`. -/
  | f11
  /-- `SCANCODE_F12`. -/
  | f12
  /-- Any other key. -/
  | other
deriving DecidableEq

/-- An application in the directory of the server is started, and nothing is kept of it. -/
def startApp (server : Server) (vfork : ℤ) (name : String) : Server :=
  (execApp server vfork (.lit ("./" ++ name)) (.lit name)).2

/-- The dynamic wallpaper is started. -/
def startDynamic (server : Server) (vfork : ℤ) : Server :=
  let started := execApp server vfork (.lit "./wallpaper-dynamic") (.lit "wallpaper-dynamic")
  { started.2 with pidDynamic := started.1 }

/-- The key for the end of the session. -/
def pressEscape (server : Server) : Server :=
  if server.nrClients = 0 then
    let server :=
      if server.myTooltipWin ≠ 0 then
        { server.call (.destroyToolTipWin server.myTooltipWin) with myTooltipWin := 0 }
      else server
    server.call .endSession
  else if server.nrClients = 1 ∧ server.pidDynamic ≠ 0 then
    { server.call (.kill server.pidDynamic) with pidDynamic := 0 }
  else server

/-- The key for the dynamic wallpaper. -/
def pressSpace (server : Server) (vfork : ℤ) : Server :=
  if server.pidWelcome = 0 ∧ server.pidDynamic = 0 then startDynamic server vfork else server

/-- The switch of `my_event_hook`. -/
def pressKey (server : Server) (answers : Answers) : Scancode → Server
  | .escape => pressEscape server
  | .space => pressSpace server answers.vfork
  | .f1 => startApp server answers.vfork "edit"
  | .f2 => startApp server answers.vfork "menubutton"
  | .f3 => startApp server answers.vfork "helloworld"
  | .f5 => startApp server answers.vfork "combobox"
  | .f4 => startApp server answers.vfork "eventdumper"
  | .f6 => startApp server answers.vfork "docker"
  | .f7 => startApp server answers.vfork "screenlock"
  -- The layer is set without a check.
  | .f8 => (server.call (.createDefLayer answers.layer)).call (.setTopmostLayer answers.layer)
  | .f9 => createOrSwitchLayer server answers 0 (.lit "F9")
  | .f10 => createOrSwitchLayer server answers 1 (.lit "F10")
  | .f11 => createOrSwitchLayer server answers 2 (.lit "F11")
  | .f12 => createOrSwitchLayer server answers 3 (.lit "F12")
  | .other => server

/-- The screen saver is stopped. -/
def stopScrnsaver (server : Server) : Server :=
  if server.pidScrnsaver ≠ 0 then
    { (server.call (.kill server.pidScrnsaver)).call .showCursor with pidScrnsaver := 0 }
  else server

/-- `my_event_hook`, with the key of a `MSG_KEYDOWN`. -/
def myEventHook (server : Server) (answers : Answers) (keyDown : Option Scancode) : Server :=
  match keyDown with
  | some wParam => pressKey (stopScrnsaver server) answers wParam
  | none => stopScrnsaver server

/-! ## The count of the clients -/

variable (server : Server) (answers : Answers)

/-- Executing the command does not change the count. -/
@[simp] theorem leaveWelcome_nrClients (vfork pid : ℤ) :
    (leaveWelcome server vfork pid).nrClients = server.nrClients := by
  unfold leaveWelcome
  split
  · split <;> rfl
  · rfl

/-- A client that leaves is counted down. -/
theorem onNewDelClient_nrClients (vfork pid : ℤ) :
    (onNewDelClient server vfork .delClient pid).nrClients = server.nrClients - 1 := by
  unfold onNewDelClient
  dsimp only
  rw [leaveWelcome_nrClients]
  split <;> rfl

/-- Messages about layers do not change the count. -/
theorem showLayerMesssage_nrClients (name : CString) :
    (showLayerMesssage server answers name).nrClients = server.nrClients := by
  unfold showLayerMesssage
  split <;> rfl

/-- Keys for layers do not change the count. -/
theorem createOrSwitchLayer_nrClients (slot : Fin 4) (name : CString) :
    (createOrSwitchLayer server answers slot name).nrClients = server.nrClients := by
  unfold createOrSwitchLayer
  split
  · rfl
  · dsimp only
    split
    · exact showLayerMesssage_nrClients _ answers name
    · rfl

/-- The key for the end does not change the count. -/
theorem pressEscape_nrClients : (pressEscape server).nrClients = server.nrClients := by
  unfold pressEscape
  split
  · dsimp only
    split <;> rfl
  · split <;> rfl

/-- No key changes the count. -/
theorem pressKey_nrClients (wParam : Scancode) :
    (pressKey server answers wParam).nrClients = server.nrClients := by
  cases wParam with
  | escape => exact pressEscape_nrClients server
  | space =>
    show (pressSpace server answers.vfork).nrClients = server.nrClients
    unfold pressSpace
    split <;> rfl
  | f9 | f10 | f11 | f12 => exact createOrSwitchLayer_nrClients server answers _ _
  | _ => rfl

/-- No message changes the count. -/
theorem myEventHook_nrClients (keyDown : Option Scancode) :
    (myEventHook server answers keyDown).nrClients = server.nrClients := by
  have stopped : (stopScrnsaver server).nrClients = server.nrClients := by
    unfold stopScrnsaver
    split <;> rfl
  cases keyDown with
  | none => exact stopped
  | some wParam => exact (pressKey_nrClients _ answers wParam).trans stopped

/-! ## The start and the end -/

/-- What the system returns while the server starts. -/
structure StartAnswers where
  /-- `vfork`, for one application after the other. -/
  vfork : Fin 4 → ℤ
  /-- `strdup` gets memory. -/
  strdup : Bool

/-- `MiniGUIMain` before its loop, with `argv[1]`. -/
def startServer (answers : StartAnswers) (argv1 : Option CString) : Server :=
  let isArg := fun text : CString => argv1.any fun arg => strcasecmp arg text == 0
  if isArg (.lit "auto") then
    let server := startDynamic .initial (answers.vfork 0)
    let server := startApp server (answers.vfork 1) "static"
    let server := startApp server (answers.vfork 2) "edit"
    startApp server (answers.vfork 3) "eventdumper"
  else if isArg (.lit "none") then .initial
  else
    let started := execApp .initial (answers.vfork 0) (.lit "./wallpaper-welcome")
      (.lit "wallpaper-welcome")
    { started.2 with
      pidWelcome := started.1
      exeCmd := if answers.strdup then argv1 else none }

/-- No client is connected before the server has started. -/
theorem startServer_nrClients (answers : StartAnswers) (argv1 : Option CString) :
    (startServer answers argv1).nrClients = 0 := by
  unfold startServer
  dsimp only
  split
  · rfl
  · split <;> rfl

/-- The end of `MiniGUIMain`. -/
def finishServer (server : Server) : Server :=
  if server.myTooltipWin ≠ 0 then server.call (.destroyToolTipWin server.myTooltipWin) else server

end Bpcp.MiniGUI
