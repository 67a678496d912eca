import Bpcp.Lib.Machine
import Bpcp.Lib.Trace
import Bpcp.MiniGUI.Mginit

/-!
# Sessions of the server

What the server does in a session can be read off its calls: how many clients are connected, which
process is the dynamic wallpaper, whether the welcome client is still there, and which layers and
which tooltip there are. The variables of the server always agree with this, and each of its calls
follows a rule about what happened before.
-/

namespace Bpcp.MiniGUI

open Bpcp.Lib

/-! ## What the calls say -/

/-- The call starts the dynamic wallpaper. -/
def StartsDynamic (fileName appName : CString) : Prop :=
  fileName = .lit "./wallpaper-dynamic" ∧ appName = .lit "wallpaper-dynamic"

/-- The call starts the welcome client. -/
def StartsWelcome (fileName appName : CString) : Prop :=
  fileName = .lit "./wallpaper-welcome" ∧ appName = .lit "wallpaper-welcome"

instance (fileName appName : CString) : Decidable (StartsDynamic fileName appName) :=
  inferInstanceAs (Decidable (_ ∧ _))

instance (fileName appName : CString) : Decidable (StartsWelcome fileName appName) :=
  inferInstanceAs (Decidable (_ ∧ _))

/-- The number of clients that are connected. -/
def changeCount (count : ℤ) : ServerCall → ℤ
  | .connected _ => count + 1
  | .left _ => count - 1
  | _ => count

/-- The dynamic wallpaper that was started and not signalled since, or 0. -/
def changeDynamic (pid : ℤ) : ServerCall → ℤ
  | .exec fileName appName started => if StartsDynamic fileName appName then started else pid
  | .kill _ => 0
  | _ => pid

/-- The welcome client that was started and has not left, or 0. -/
def changeWelcome (pid : ℤ) : ServerCall → ℤ
  | .exec fileName appName started => if StartsWelcome fileName appName then started else pid
  | .left gone => if pid = gone then 0 else pid
  | _ => pid

/-- The tooltip that was created and not destroyed, or `HWND_NULL`. -/
def changeTooltip (window : ℕ) : ServerCall → ℕ
  | .createToolTipWin _ created => created
  | .destroyToolTipWin _ => 0
  | _ => window

/-- The layer that was created under a name. -/
def changeLayer (name : CString) (layer : Option ℕ) : ServerCall → Option ℕ
  | .createLayer given created => if given = name then created else layer
  | _ => layer

/-- The number of clients after some calls. -/
def countOf (calls : List ServerCall) : ℤ := track changeCount 0 calls

/-- The dynamic wallpaper after some calls. -/
def dynamicOf (calls : List ServerCall) : ℤ := track changeDynamic 0 calls

/-- The welcome client after some calls. -/
def welcomeOf (calls : List ServerCall) : ℤ := track changeWelcome 0 calls

/-- The tooltip after some calls. -/
def tooltipOf (calls : List ServerCall) : ℕ := track changeTooltip 0 calls

/-- The layer with a name after some calls. -/
def layerOf (name : CString) (calls : List ServerCall) : Option ℕ :=
  track (changeLayer name) none calls

/-- The call executes a command: the program has the name of its file. -/
def isCommand : ServerCall → Bool
  | .exec fileName appName _ => fileName == appName
  | _ => false

/-- The call frees a text. -/
def isFree : ServerCall → Bool
  | .free _ => true
  | _ => false

/-- The last call is a given one. -/
def Behind (before : List ServerCall) (entry : ServerCall) : Prop :=
  ∃ earlier, before = earlier ++ [entry]

/-- When a call may follow the calls before it, with the command of the server. -/
def Rule (command : Option CString) (before : List ServerCall) : ServerCall → Prop
  | .connected _ | .left _ | .createDefLayer _ => True
  -- One dynamic wallpaper at a time, and none beside the welcome client.
  | .exec fileName appName _ =>
    (StartsDynamic fileName appName → welcomeOf before = 0 ∧ dynamicOf before = 0) ∧
      (StartsWelcome fileName appName → before = []) ∧
      (fileName = appName → command = some fileName ∧
        ∃ earlier pid, before = earlier ++ [.left pid] ∧ welcomeOf earlier = pid)
  | .free text => command = some text ∧ ∃ pid, Behind before (.exec text text pid)
  | .kill pid => pid = dynamicOf before ∧ pid ≠ 0 ∧ countOf before = 1
  | .createLayer name _ => layerOf name before = none
  -- `NULL` is passed only when the layer could not be created.
  | .setTopmostLayer layer => Behind before (.createDefLayer layer) ∨
      ∃ name, layerOf name before = layer ∧ layer ≠ none
  | .createToolTipWin name _ => tooltipOf before = 0 ∧
      ∃ layer, Behind before (.createLayer name (some layer))
  | .resetToolTipWin window name => window = tooltipOf before ∧ window ≠ 0 ∧
      ∃ layer, Behind before (.createLayer name (some layer))
  | .destroyToolTipWin window => window = tooltipOf before ∧ window ≠ 0
  | .endSession => countOf before = 0 ∧ tooltipOf before = 0
  | .showCursor | .error _ => False

variable {calls : List ServerCall} {entry : ServerCall}

/-- One more call. -/
@[simp] theorem countOf_concat : countOf (calls ++ [entry]) = changeCount (countOf calls) entry :=
  track_concat _ _ _ _

/-- One more call. -/
@[simp] theorem dynamicOf_concat :
    dynamicOf (calls ++ [entry]) = changeDynamic (dynamicOf calls) entry :=
  track_concat _ _ _ _

/-- One more call. -/
@[simp] theorem welcomeOf_concat :
    welcomeOf (calls ++ [entry]) = changeWelcome (welcomeOf calls) entry :=
  track_concat _ _ _ _

/-- One more call. -/
@[simp] theorem tooltipOf_concat :
    tooltipOf (calls ++ [entry]) = changeTooltip (tooltipOf calls) entry :=
  track_concat _ _ _ _

/-- One more call. -/
@[simp] theorem layerOf_concat {name : CString} :
    layerOf name (calls ++ [entry]) = changeLayer name (layerOf name calls) entry :=
  track_concat _ _ _ _

/-! ## The invariant -/

/-- The names of the layers in the slots. -/
def slotName : Fin 4 → CString := ![.lit "F9", .lit "F10", .lit "F11", .lit "F12"]

/-- A number is 1 when the command was executed. -/
def executions (command : Option CString) (welcome : ℤ) : ℕ :=
  if command.isSome ∧ welcome = 0 then 1 else 0

/-- The variables agree with the calls, and the calls follow the rule. -/
structure Agrees (command : Option CString) (server : Server) : Prop where
  /-- `nr_clients`. -/
  nrClients : server.nrClients = countOf server.calls
  /-- `pid_dynamic`. -/
  pidDynamic : server.pidDynamic = dynamicOf server.calls
  /-- `pid_welcome`. -/
  pidWelcome : server.pidWelcome = welcomeOf server.calls
  /-- There is no screen saver. -/
  pidScrnsaver : server.pidScrnsaver = 0
  /-- `my_tooltip_win`. -/
  myTooltipWin : server.myTooltipWin = tooltipOf server.calls
  /-- `my_layers`. -/
  myLayers : ∀ slot, server.myLayers slot = layerOf (slotName slot) server.calls
  /-- All calls follow the rule. -/
  obeys : Obeys (Rule command) server.calls

/-- The command is executed and freed once, when the welcome client has left. -/
structure CommandRuns (command : Option CString) (server : Server) : Prop where
  /-- `exe_cmd`. -/
  exeCmd : server.exeCmd = if server.pidWelcome = 0 then none else command
  /-- The command is executed once. -/
  executed : server.calls.countP isCommand = executions command server.pidWelcome
  /-- The command is freed once. -/
  freed : server.calls.countP isFree = executions command server.pidWelcome

/-- A call was made, and the variables changed with it. -/
structure Follows (command : Option CString) (server : Server) (entry : ServerCall)
    (next : Server) : Prop where
  /-- The call is the last one. -/
  calls : next.calls = server.calls ++ [entry]
  /-- `nr_clients`. -/
  nrClients : next.nrClients = changeCount server.nrClients entry
  /-- `pid_dynamic`. -/
  pidDynamic : next.pidDynamic = changeDynamic server.pidDynamic entry
  /-- `pid_welcome`. -/
  pidWelcome : next.pidWelcome = changeWelcome server.pidWelcome entry
  /-- `pid_scrnsaver`. -/
  pidScrnsaver : next.pidScrnsaver = server.pidScrnsaver
  /-- `my_tooltip_win`. -/
  myTooltipWin : next.myTooltipWin = changeTooltip server.myTooltipWin entry
  /-- `my_layers`. -/
  myLayers : ∀ slot, next.myLayers slot =
    changeLayer (slotName slot) (server.myLayers slot) entry
  /-- The call follows the rule. -/
  allowed : Rule command server.calls entry

/-- A call that has nothing to do with the command. -/
structure Ordinary (server : Server) (entry : ServerCall) (next : Server) : Prop where
  /-- `pid_welcome`. -/
  pidWelcome : next.pidWelcome = server.pidWelcome
  /-- `exe_cmd`. -/
  exeCmd : next.exeCmd = server.exeCmd
  /-- No command is executed. -/
  command : isCommand entry = false
  /-- Nothing is freed. -/
  free : isFree entry = false

variable {command : Option CString} {server next : Server}

/-- The variables still agree when they change with a call. -/
theorem Agrees.follow (agrees : Agrees command server)
    (follows : Follows command server entry next) : Agrees command next where
  nrClients := by rw [follows.nrClients, follows.calls, countOf_concat, agrees.nrClients]
  pidDynamic := by rw [follows.pidDynamic, follows.calls, dynamicOf_concat, agrees.pidDynamic]
  pidWelcome := by rw [follows.pidWelcome, follows.calls, welcomeOf_concat, agrees.pidWelcome]
  pidScrnsaver := follows.pidScrnsaver.trans agrees.pidScrnsaver
  myTooltipWin := by
    rw [follows.myTooltipWin, follows.calls, tooltipOf_concat, agrees.myTooltipWin]
  myLayers := by
    intro slot
    rw [follows.myLayers, follows.calls, layerOf_concat, agrees.myLayers]
  obeys := by
    rw [follows.calls]
    exact agrees.obeys.concat follows.allowed

/-- Other calls have nothing to do with the command. -/
theorem CommandRuns.follow (executes : CommandRuns command server)
    (calls : next.calls = server.calls ++ [entry]) (ordinary : Ordinary server entry next) :
    CommandRuns command next where
  exeCmd := by rw [ordinary.exeCmd, ordinary.pidWelcome, executes.exeCmd]
  executed := by simp [calls, ordinary.command, ordinary.pidWelcome, executes.executed]
  freed := by simp [calls, ordinary.free, ordinary.pidWelcome, executes.freed]

/-- The variables agree with the calls, and the command is executed in time. -/
structure Served (command : Option CString) (server : Server) : Prop where
  /-- The variables agree with the calls. -/
  agrees : Agrees command server
  /-- The command is executed in time. -/
  executes : CommandRuns command server

namespace Served

/-- A call that has nothing to do with the command. -/
theorem follow (served : Served command server) (follows : Follows command server entry next)
    (ordinary : Ordinary server entry next) : Served command next :=
  ⟨served.agrees.follow follows, served.executes.follow follows.calls ordinary⟩

/-- An application is started. -/
theorem startApp (served : Served command server) (name : String) (vfork : ℤ)
    (ordinary : CString.lit name ≠ .lit "wallpaper-dynamic" ∧
      CString.lit name ≠ .lit "wallpaper-welcome" ∧
      CString.lit ("./" ++ name) ≠ .lit name) :
    Served command (startApp server vfork name) := by
  have noDynamic : ¬StartsDynamic (.lit ("./" ++ name)) (.lit name) :=
    fun starts => ordinary.1 starts.2
  have noWelcome : ¬StartsWelcome (.lit ("./" ++ name)) (.lit name) :=
    fun starts => ordinary.2.1 starts.2
  have follows : Follows command server (.exec (.lit ("./" ++ name)) (.lit name) vfork)
      (MiniGUI.startApp server vfork name) :=
    ⟨rfl, rfl, (if_neg noDynamic).symm, (if_neg noWelcome).symm, rfl, rfl, fun _ => rfl,
      fun starts => absurd starts noDynamic, fun starts => absurd starts noWelcome,
      fun same => absurd same ordinary.2.2⟩
  exact served.follow follows ⟨rfl, rfl, beq_false_of_ne ordinary.2.2, rfl⟩

/-- The dynamic wallpaper is started when there is none and no welcome client. -/
theorem startDynamic (served : Served command server) (vfork : ℤ)
    (noWelcome : server.pidWelcome = 0) (noDynamic : server.pidDynamic = 0) :
    Served command (startDynamic server vfork) := by
  have starts : StartsDynamic (.lit "./wallpaper-dynamic") (.lit "wallpaper-dynamic") :=
    ⟨rfl, rfl⟩
  have other : ¬StartsWelcome (.lit "./wallpaper-dynamic") (.lit "wallpaper-dynamic") := by decide
  have named : CString.lit "./wallpaper-dynamic" ≠ .lit "wallpaper-dynamic" := by decide
  have dynamic : changeDynamic server.pidDynamic
      (.exec (.lit "./wallpaper-dynamic") (.lit "wallpaper-dynamic") vfork) = vfork := by
    rw [changeDynamic, if_pos starts]
  have welcome : changeWelcome server.pidWelcome
      (.exec (.lit "./wallpaper-dynamic") (.lit "wallpaper-dynamic") vfork) =
        server.pidWelcome := by
    rw [changeWelcome, if_neg other]
  rw [served.agrees.pidWelcome] at noWelcome
  rw [served.agrees.pidDynamic] at noDynamic
  have follows : Follows command server
      (.exec (.lit "./wallpaper-dynamic") (.lit "wallpaper-dynamic") vfork)
      (MiniGUI.startDynamic server vfork) :=
    ⟨rfl, rfl, dynamic.symm, welcome.symm, rfl, rfl, fun _ => rfl,
      fun _ => ⟨noWelcome, noDynamic⟩, fun starts => absurd starts other,
      fun same => absurd same named⟩
  exact served.follow follows ⟨rfl, rfl, beq_false_of_ne named, rfl⟩

/-- A call that changes no variable. -/
theorem call (served : Served command server) (allowed : Rule command server.calls entry)
    (count : changeCount server.nrClients entry = server.nrClients)
    (dynamic : changeDynamic server.pidDynamic entry = server.pidDynamic)
    (welcome : changeWelcome server.pidWelcome entry = server.pidWelcome)
    (tooltip : changeTooltip server.myTooltipWin entry = server.myTooltipWin)
    (layers : ∀ name layer, changeLayer name layer entry = layer)
    (other : isCommand entry = false) (kept : isFree entry = false) :
    Served command (server.call entry) :=
  served.follow ⟨rfl, count.symm, dynamic.symm, welcome.symm, rfl, tooltip.symm,
    fun _ => (layers _ _).symm, allowed⟩ ⟨rfl, rfl, other, kept⟩

/-- The tooltip is destroyed. -/
theorem destroyToolTipWin (served : Served command server) (shown : server.myTooltipWin ≠ 0) :
    Served command { server.call (.destroyToolTipWin server.myTooltipWin) with
      myTooltipWin := 0 } := by
  have same := served.agrees.myTooltipWin
  have follows : Follows command server (.destroyToolTipWin server.myTooltipWin)
      { server.call (.destroyToolTipWin server.myTooltipWin) with myTooltipWin := 0 } :=
    ⟨rfl, rfl, rfl, rfl, rfl, rfl, fun _ => rfl, same, shown⟩
  exact served.follow follows ⟨rfl, rfl, rfl, rfl⟩

/-- The key for the end of the session keeps the invariant. -/
theorem pressEscape (served : Served command server) : Served command (pressEscape server) := by
  unfold MiniGUI.pressEscape
  by_cases none : server.nrClients = 0
  · rw [if_pos none]
    have final : ∀ server, Served command server → server.nrClients = 0 →
        server.myTooltipWin = 0 → Served command (server.call .endSession) := by
      intro server served none hidden
      rw [served.agrees.nrClients] at none
      rw [served.agrees.myTooltipWin] at hidden
      exact served.call ⟨none, hidden⟩ rfl rfl rfl rfl (fun _ _ => rfl) rfl rfl
    by_cases shown : server.myTooltipWin ≠ 0
    · rw [if_pos shown]
      exact final _ (served.destroyToolTipWin shown) none rfl
    · rw [if_neg shown]
      exact final _ served none (not_not.mp shown)
  · rw [if_neg none]
    by_cases alone : server.nrClients = 1 ∧ server.pidDynamic ≠ 0
    · rw [if_pos alone]
      have count := alone.1
      rw [served.agrees.nrClients] at count
      have follows : Follows command server (.kill server.pidDynamic)
          { server.call (.kill server.pidDynamic) with pidDynamic := 0 } :=
        ⟨rfl, rfl, rfl, rfl, rfl, rfl, fun _ => rfl, served.agrees.pidDynamic, alone.2, count⟩
      exact served.follow follows ⟨rfl, rfl, rfl, rfl⟩
    · rw [if_neg alone]
      exact served

/-- A message about a layer that was just created. -/
theorem showLayerMesssage (served : Served command server) (answers : Answers) {name : CString}
    {layer : ℕ} (behind : Behind server.calls (.createLayer name (some layer))) :
    Served command (showLayerMesssage server answers name) := by
  unfold MiniGUI.showLayerMesssage
  have same := served.agrees.myTooltipWin
  by_cases shown : server.myTooltipWin ≠ 0
  · rw [if_pos shown]
    exact served.call ⟨same, shown, layer, behind⟩ rfl rfl rfl rfl (fun _ _ => rfl) rfl rfl
  · rw [if_neg shown]
    have hidden := not_not.mp shown
    rw [same] at hidden
    have follows : Follows command server (.createToolTipWin name answers.window)
        { server.call (.createToolTipWin name answers.window) with
          myTooltipWin := answers.window } :=
      ⟨rfl, rfl, rfl, rfl, rfl, rfl, fun _ => rfl, hidden, layer, behind⟩
    exact served.follow follows ⟨rfl, rfl, rfl, rfl⟩

/-- A key for a layer creates it once and then switches to it. -/
theorem createOrSwitchLayer (served : Served command server) (answers : Answers) (slot : Fin 4) :
    Served command (createOrSwitchLayer server answers slot (slotName slot)) := by
  have distinct : ∀ other slot, other ≠ slot → slotName slot ≠ slotName other := by decide
  have same := served.agrees.myLayers slot
  unfold MiniGUI.createOrSwitchLayer
  by_cases there : (server.myLayers slot).isSome = true
  · rw [if_pos there]
    have allowed : Rule command server.calls (.setTopmostLayer (server.myLayers slot)) :=
      .inr ⟨slotName slot, same.symm, Option.isSome_iff_ne_none.mp there⟩
    exact served.call allowed rfl rfl rfl rfl (fun _ _ => rfl) rfl rfl
  · rw [if_neg there]
    rw [same] at there
    have layers : ∀ other, Function.update server.myLayers slot answers.layer other =
        changeLayer (slotName other) (server.myLayers other)
          (.createLayer (slotName slot) answers.layer) := by
      intro other
      by_cases equal : other = slot
      · rw [equal, Function.update_self]
        exact (if_pos rfl).symm
      · rw [Function.update_of_ne equal]
        exact (if_neg (distinct other slot equal)).symm
    have follows : Follows command server (.createLayer (slotName slot) answers.layer)
        { server.call (.createLayer (slotName slot) answers.layer) with
          myLayers := Function.update server.myLayers slot answers.layer } :=
      ⟨rfl, rfl, rfl, rfl, rfl, rfl, layers, Option.not_isSome_iff_eq_none.mp there⟩
    have created := served.follow follows ⟨rfl, rfl, rfl, rfl⟩
    cases layer : answers.layer with
    | none =>
      rw [layer] at created
      exact created
    | some made =>
      rw [layer] at created
      exact created.showLayerMesssage answers ⟨server.calls, rfl⟩

/-- Every key keeps the invariant. -/
theorem pressKey (served : Served command server) (answers : Answers) (wParam : Scancode) :
    Served command (pressKey server answers wParam) := by
  cases wParam with
  | escape => exact served.pressEscape
  | space =>
    show Served command (pressSpace server answers.vfork)
    unfold pressSpace
    by_cases free : server.pidWelcome = 0 ∧ server.pidDynamic = 0
    · rw [if_pos free]
      exact served.startDynamic answers.vfork free.1 free.2
    · rw [if_neg free]
      exact served
  | f1 => exact served.startApp "edit" answers.vfork (by decide)
  | f2 => exact served.startApp "menubutton" answers.vfork (by decide)
  | f3 => exact served.startApp "helloworld" answers.vfork (by decide)
  | f4 => exact served.startApp "eventdumper" answers.vfork (by decide)
  | f5 => exact served.startApp "combobox" answers.vfork (by decide)
  | f6 => exact served.startApp "docker" answers.vfork (by decide)
  | f7 => exact served.startApp "screenlock" answers.vfork (by decide)
  | f8 =>
    have created : Served command (server.call (.createDefLayer answers.layer)) :=
      served.call trivial rfl rfl rfl rfl (fun _ _ => rfl) rfl rfl
    exact created.call (.inl ⟨server.calls, rfl⟩) rfl rfl rfl rfl (fun _ _ => rfl) rfl rfl
  | f9 => exact served.createOrSwitchLayer answers 0
  | f10 => exact served.createOrSwitchLayer answers 1
  | f11 => exact served.createOrSwitchLayer answers 2
  | f12 => exact served.createOrSwitchLayer answers 3
  | other => exact served

/-- Every message keeps the invariant, and there is never a screen saver to kill. -/
theorem myEventHook (served : Served command server) (answers : Answers)
    (keyDown : Option Scancode) : Served command (myEventHook server answers keyDown) := by
  have none : stopScrnsaver server = server :=
    if_neg (not_not.mpr served.agrees.pidScrnsaver)
  unfold MiniGUI.myEventHook
  rw [none]
  cases keyDown with
  | none => exact served
  | some wParam => exact served.pressKey answers wParam

/-- A client connects. -/
theorem newClient (served : Served command server) (vfork pid : ℤ) :
    Served command (onNewDelClient (server.call (.connected pid)) vfork .newClient pid) := by
  have follows : Follows command server (.connected pid)
      (MiniGUI.onNewDelClient (server.call (.connected pid)) vfork .newClient pid) :=
    ⟨rfl, rfl, rfl, rfl, rfl, rfl, fun _ => rfl, trivial⟩
  exact served.follow follows ⟨rfl, rfl, rfl, rfl⟩

/-- The dynamic wallpaper is no command. -/
theorem not_startsDynamic {text : CString} : ¬StartsDynamic text text := by
  intro starts
  have same := starts.1.symm.trans starts.2
  exact absurd same (by decide)

/-- The welcome client is no command. -/
theorem not_startsWelcome {text : CString} : ¬StartsWelcome text text := by
  intro starts
  have same := starts.1.symm.trans starts.2
  exact absurd same (by decide)

/-- Another client has nothing to do with the command. -/
theorem leaveWelcome_other {vfork pid : ℤ} (other : server.pidWelcome ≠ pid) (count : ℤ) :
    leaveWelcome { server.call (.left pid) with nrClients := count } vfork pid =
      { server.call (.left pid) with nrClients := count } := if_neg other

/-- The welcome client leaves, and there is no command. -/
theorem leaveWelcome_none {vfork pid : ℤ} (welcome : server.pidWelcome = pid)
    (stored : server.exeCmd = none) (count : ℤ) :
    leaveWelcome { server.call (.left pid) with nrClients := count } vfork pid =
      { server.call (.left pid) with nrClients := count, pidWelcome := 0 } := by
  have there : (server.call (.left pid)).pidWelcome = pid := welcome
  have command : (server.call (.left pid)).exeCmd = none := stored
  rw [leaveWelcome]
  dsimp only
  rw [if_pos there, command]

/-- The welcome client leaves, and the command is executed and freed. -/
theorem leaveWelcome_some {vfork pid : ℤ} {exeCmd : CString} (welcome : server.pidWelcome = pid)
    (stored : server.exeCmd = some exeCmd) (count : ℤ) :
    leaveWelcome { server.call (.left pid) with nrClients := count } vfork pid =
      { ((server.call (.left pid)).call (.exec exeCmd exeCmd vfork)).call (.free exeCmd) with
        nrClients := count, pidWelcome := 0, exeCmd := none } := by
  have there : (server.call (.left pid)).pidWelcome = pid := welcome
  have command : (server.call (.left pid)).exeCmd = some exeCmd := stored
  rw [leaveWelcome]
  dsimp only
  rw [if_pos there, command]
  rfl

/-- A client leaves; the command is executed and freed when it is the welcome client. -/
theorem delClient (served : Served command server) (vfork : ℤ) {pid : ℤ} (positive : 0 < pid)
    (connected : 0 < server.nrClients) :
    Served command (onNewDelClient (server.call (.left pid)) vfork .delClient pid) := by
  have nonnegative : ¬server.nrClients - 1 < 0 := by omega
  have fewer : MiniGUI.onNewDelClient (server.call (.left pid)) vfork .delClient pid =
      leaveWelcome { server.call (.left pid) with nrClients := server.nrClients - 1 } vfork pid :=
    congrArg (leaveWelcome · vfork pid) (if_neg nonnegative)
  rw [fewer]
  by_cases welcome : server.pidWelcome = pid
  · have there : server.pidWelcome ≠ 0 := by
      rw [welcome]
      exact positive.ne'
    have gone : changeWelcome server.pidWelcome (.left pid) = 0 := if_pos welcome
    have left : Follows command server (.left pid) { server.call (.left pid) with
        nrClients := server.nrClients - 1, pidWelcome := 0 } :=
      ⟨rfl, rfl, rfl, gone.symm, rfl, rfl, fun _ => rfl, trivial⟩
    have waiting : server.exeCmd = command := served.executes.exeCmd.trans (if_neg there)
    have unused : executions command server.pidWelcome = 0 := if_neg fun done => there done.2
    have executed := served.executes.executed.trans unused
    have freed := served.executes.freed.trans unused
    have agrees := served.agrees.follow left
    cases stored : server.exeCmd with
    | none =>
      rw [leaveWelcome_none welcome stored]
      rw [stored] at waiting
      have never : executions command 0 = 0 := by
        rw [← waiting]
        rfl
      constructor
      · exact agrees
      · constructor
        · exact stored
        · rw [never]
          simpa [Server.call, isCommand] using executed
        · rw [never]
          simpa [Server.call, isFree] using freed
    | some exeCmd =>
      rw [leaveWelcome_some welcome stored]
      rw [stored] at waiting
      have once : executions command 0 = 1 := by
        rw [← waiting]
        rfl
      have same : pid = welcomeOf server.calls := welcome.symm.trans served.agrees.pidWelcome
      have noDynamic : ¬StartsDynamic exeCmd exeCmd := not_startsDynamic
      have noWelcome : ¬StartsWelcome exeCmd exeCmd := not_startsWelcome
      have executes : Follows command { server.call (.left pid) with
          nrClients := server.nrClients - 1, pidWelcome := 0 } (.exec exeCmd exeCmd vfork)
          { (server.call (.left pid)).call (.exec exeCmd exeCmd vfork) with
            nrClients := server.nrClients - 1, pidWelcome := 0 } :=
        ⟨rfl, rfl, (if_neg noDynamic).symm, (if_neg noWelcome).symm, rfl, rfl, fun _ => rfl,
          fun starts => absurd starts noDynamic, fun starts => absurd starts noWelcome,
          fun _ => ⟨waiting.symm, server.calls, pid, rfl, same.symm⟩⟩
      have frees : Follows command
          { (server.call (.left pid)).call (.exec exeCmd exeCmd vfork) with
            nrClients := server.nrClients - 1, pidWelcome := 0 } (.free exeCmd)
          { ((server.call (.left pid)).call (.exec exeCmd exeCmd vfork)).call (.free exeCmd) with
            nrClients := server.nrClients - 1, pidWelcome := 0, exeCmd := none } :=
        ⟨rfl, rfl, rfl, rfl, rfl, rfl, fun _ => rfl, waiting.symm, vfork, _, rfl⟩
      constructor
      · exact (agrees.follow executes).follow frees
      · constructor
        · rfl
        · rw [once]
          simpa [Server.call, isCommand] using executed
        · rw [once]
          simpa [Server.call, isFree] using freed
  · have stays : changeWelcome server.pidWelcome (.left pid) = server.pidWelcome :=
      if_neg welcome
    have follows : Follows command server (.left pid)
        { server.call (.left pid) with nrClients := server.nrClients - 1 } :=
      ⟨rfl, rfl, rfl, stays.symm, rfl, rfl, fun _ => rfl, trivial⟩
    rw [leaveWelcome_other welcome]
    exact served.follow follows ⟨rfl, rfl, rfl, rfl⟩

/-- The variables before the server starts. -/
theorem initial : Served none .initial where
  agrees := ⟨rfl, rfl, rfl, rfl, rfl, fun _ => rfl, .nil⟩
  executes := ⟨rfl, rfl, rfl⟩

/-- The welcome client is started, and the command waits for it. -/
theorem startWelcome {pid : ℤ} (child : pid ≠ 0) (command : Option CString) :
    Served command { (execApp .initial pid (.lit "./wallpaper-welcome")
      (.lit "wallpaper-welcome")).2 with pidWelcome := pid, exeCmd := command } := by
  have starts : StartsWelcome (.lit "./wallpaper-welcome") (.lit "wallpaper-welcome") :=
    ⟨rfl, rfl⟩
  have other : ¬StartsDynamic (.lit "./wallpaper-welcome") (.lit "wallpaper-welcome") := by decide
  have named : CString.lit "./wallpaper-welcome" ≠ .lit "wallpaper-welcome" := by decide
  have plain : isCommand (.exec (.lit "./wallpaper-welcome") (.lit "wallpaper-welcome") pid) =
      false := beq_false_of_ne named
  have dynamic : changeDynamic 0
      (.exec (.lit "./wallpaper-welcome") (.lit "wallpaper-welcome") pid) = 0 := by
    rw [changeDynamic, if_neg other]
  have welcome : changeWelcome 0
      (.exec (.lit "./wallpaper-welcome") (.lit "wallpaper-welcome") pid) = pid := by
    rw [changeWelcome, if_pos starts]
  have unused : executions command pid = 0 := if_neg fun done => child done.2
  have start : Agrees command .initial := ⟨rfl, rfl, rfl, rfl, rfl, fun _ => rfl, .nil⟩
  constructor
  · exact start.follow ⟨rfl, rfl, dynamic.symm, welcome.symm, rfl, rfl, fun _ => rfl,
      fun starts => absurd starts other, fun _ => rfl, fun same => absurd same named⟩
  · constructor
    · exact (if_neg child).symm
    · rw [unused]
      exact List.countP_eq_zero.mpr fun entry inside => by
        rw [List.mem_singleton.mp inside, plain]
        exact Bool.false_ne_true
    · rw [unused]
      rfl

/-- The server starts, and its command is `exe_cmd`. -/
theorem startServer {answers : StartAnswers} (argv1 : Option CString)
    (child : answers.vfork 0 ≠ 0) :
    Served (startServer answers argv1).exeCmd (startServer answers argv1) := by
  unfold MiniGUI.startServer
  dsimp only
  split
  · have dynamic := initial.startDynamic (answers.vfork 0) rfl rfl
    have first := dynamic.startApp "static" (answers.vfork 1) (by decide)
    have second := first.startApp "edit" (answers.vfork 2) (by decide)
    exact second.startApp "eventdumper" (answers.vfork 3) (by decide)
  · split
    · exact initial
    · exact startWelcome child _

end Served

/-! ## Sessions -/

/-- The server and the clients that are connected. -/
structure Session where
  /-- The server. -/
  server : Server
  /-- The clients that are connected. -/
  clients : List ℤ
  /-- The server handles messages. -/
  running : Bool

/-- What happens in a session. -/
inductive SessionAction where
  /-- A client connects. -/
  | connect (pid : ℤ)
  /-- A client leaves. -/
  | leave (pid vfork : ℤ)
  /-- A message arrives, perhaps about a key. -/
  | message (answers : Answers) (keyDown : Option Scancode)
  /-- `GetMessage` ends the loop. -/
  | quit

/-- What an action leaves. -/
def Session.act (session : Session) : SessionAction → Session
  | .connect pid => ⟨onNewDelClient (session.server.call (.connected pid)) 0 .newClient pid,
      pid :: session.clients, session.running⟩
  | .leave pid vfork => ⟨onNewDelClient (session.server.call (.left pid)) vfork .delClient pid,
      session.clients.erase pid, session.running⟩
  | .message answers keyDown =>
    ⟨myEventHook session.server answers keyDown, session.clients, session.running⟩
  | .quit => ⟨finishServer session.server, session.clients, false⟩

/-- Clients are processes, and those that leave were connected. -/
def Session.Permits (session : Session) : SessionAction → Prop
  | .connect pid => 0 < pid
  | .leave pid _ => pid ∈ session.clients
  | .message .. | .quit => True

/-- The sessions of a server. -/
def sessionMachine (answers : StartAnswers) (argv1 : Option CString) :
    Machine Session SessionAction where
  start := fun session => session = ⟨startServer answers argv1, [], true⟩
  step := fun session action next =>
    session.running = true ∧ session.Permits action ∧ session.act action = next

/-- A session goes on. -/
theorem reachable_act {answers : StartAnswers} {argv1 : Option CString} {session : Session}
    (reachable : (sessionMachine answers argv1).Reachable session) (action : SessionAction)
    (running : session.running = true) (permitted : session.Permits action) :
    (sessionMachine answers argv1).Reachable (session.act action) :=
  .step reachable ⟨running, permitted, rfl⟩

/-- What every state of a session keeps. -/
structure Kept (command : Option CString) (session : Session) : Prop where
  /-- The variables agree with the calls until the server ends. -/
  served : session.running = true → Served command session.server
  /-- All calls follow the rule. -/
  obeys : Obeys (Rule command) session.server.calls
  /-- The clients are counted. -/
  counted : countOf session.server.calls = session.clients.length
  /-- The clients are processes. -/
  positive : ∀ pid ∈ session.clients, 0 < pid
  /-- The command is executed once, when the welcome client has left. -/
  executed : session.server.calls.countP isCommand =
    executions command (welcomeOf session.server.calls)
  /-- The command is freed once. -/
  freed : session.server.calls.countP isFree =
    executions command (welcomeOf session.server.calls)

/-- A server that runs keeps everything. -/
theorem Kept.of_served {command : Option CString} {session : Session}
    (served : Served command session.server)
    (counted : countOf session.server.calls = session.clients.length)
    (positive : ∀ pid ∈ session.clients, 0 < pid) : Kept command session where
  served := fun _ => served
  obeys := served.agrees.obeys
  counted := counted
  positive := positive
  executed := by rw [served.executes.executed, served.agrees.pidWelcome]
  freed := by rw [served.executes.freed, served.agrees.pidWelcome]

namespace Kept

variable {command : Option CString} {session : Session}

/-- The count of the server. -/
theorem nrClients (kept : Kept command session) (running : session.running = true) :
    session.server.nrClients = session.clients.length :=
  (kept.served running).agrees.nrClients.trans kept.counted

/-- The end of the server destroys the tooltip that is left. -/
theorem quit (kept : Kept command session) (running : session.running = true) :
    Kept command (session.act .quit) := by
  have same := (kept.served running).agrees.myTooltipWin
  show Kept command ⟨finishServer session.server, session.clients, false⟩
  unfold finishServer
  by_cases shown : session.server.myTooltipWin ≠ 0
  · rw [if_pos shown]
    constructor
    · exact fun ended => absurd ended Bool.false_ne_true
    · exact kept.obeys.concat ⟨same, shown⟩
    · exact countOf_concat.trans kept.counted
    · exact kept.positive
    · simpa [Server.call, isCommand, changeWelcome] using kept.executed
    · simpa [Server.call, isFree, changeWelcome] using kept.freed
  · rw [if_neg shown]
    exact ⟨fun ended => absurd ended Bool.false_ne_true, kept.obeys, kept.counted, kept.positive,
      kept.executed, kept.freed⟩

/-- Every action keeps everything. -/
theorem act (kept : Kept command session) (running : session.running = true)
    {action : SessionAction} (permitted : session.Permits action) :
    Kept command (session.act action) := by
  have served := kept.served running
  have count := kept.nrClients running
  cases action with
  | connect pid =>
    have next := served.newClient 0 pid
    apply of_served next
    · have more : session.server.nrClients + 1 = ((pid :: session.clients).length : ℤ) := by
        rw [count, List.length_cons, Nat.cast_add, Nat.cast_one]
      exact next.agrees.nrClients.symm.trans more
    · intro other inside
      cases List.mem_cons.mp inside with
      | inl same =>
        rw [same]
        exact permitted
      | inr old => exact kept.positive other old
  | leave pid vfork =>
    have inside : pid ∈ session.clients := permitted
    have some : 0 < session.clients.length := List.length_pos_of_mem inside
    have next := served.delClient vfork (kept.positive pid inside) (by omega)
    apply of_served next
    · have fewer : session.server.nrClients - 1 = ((session.clients.erase pid).length : ℤ) := by
        rw [count, List.length_erase_of_mem inside, Nat.cast_sub some, Nat.cast_one]
      exact next.agrees.nrClients.symm.trans ((onNewDelClient_nrClients _ vfork pid).trans fewer)
    · exact fun other member => kept.positive other (List.mem_of_mem_erase member)
  | message answers keyDown =>
    have next := served.myEventHook answers keyDown
    apply of_served next
    · exact next.agrees.nrClients.symm.trans
        ((myEventHook_nrClients session.server answers keyDown).trans count)
    · exact kept.positive
  | quit => exact kept.quit running

/-- Every session keeps everything. -/
theorem of_reachable {answers : StartAnswers} {argv1 : Option CString}
    (child : answers.vfork 0 ≠ 0) (reachable : (sessionMachine answers argv1).Reachable session) :
    Kept (startServer answers argv1).exeCmd session := by
  apply reachable.invariant
  · intro session start
    have served := Served.startServer argv1 child
    rw [start]
    apply of_served served
    · rw [← served.agrees.nrClients]
      exact startServer_nrClients answers argv1
    · exact fun pid inside => absurd inside List.not_mem_nil
  · intro session action next _ kept taken
    have ⟨running, permitted, same⟩ := taken
    rw [← same]
    exact kept.act running permitted

end Kept

/-- What the key for the end of the session calls. -/
def escapeCalls (clients tooltip : ℕ) (dynamic : ℤ) : List ServerCall :=
  if clients = 0 then
    (if tooltip ≠ 0 then [.destroyToolTipWin tooltip] else []) ++ [.endSession]
  else if clients = 1 ∧ dynamic ≠ 0 then [.kill dynamic]
  else []

/-- A dynamic wallpaper was started, and nothing was signalled and no other one started since. -/
theorem dynamicOf_source {command : Option CString} {pid : ℤ} (obeys : Obeys (Rule command) calls)
    (same : dynamicOf calls = pid) (started : pid ≠ 0) :
    ∃ first rest, calls = first ++
        .exec (.lit "./wallpaper-dynamic") (.lit "wallpaper-dynamic") pid :: rest ∧
      ∀ other, .kill other ∉ rest ∧
        .exec (.lit "./wallpaper-dynamic") (.lit "wallpaper-dynamic") other ∉ rest := by
  have ⟨first, entry, rest, split, ⟨earlier, changed, set⟩, stays⟩ := track_source same started
  have signals : ∀ other, .kill other ∉ rest := fun other inside =>
    started (stays _ inside).symm
  cases entry with
  | exec fileName appName number =>
    by_cases starts : StartsDynamic fileName appName
    · have equal : number = pid := (if_pos starts).symm.trans set
      rw [starts.1, starts.2, equal] at split
      refine ⟨first, rest, split, fun other => ⟨signals other, fun again => ?_⟩⟩
      -- Up to a later start the wallpaper is running, and the rule forbids another one.
      have ⟨between, later, parts⟩ := List.append_of_mem again
      rw [parts, ← List.cons_append, ← List.append_assoc] at split
      have free := ((obeys.allowed split).1 ⟨rfl, rfl⟩).2
      have runs : dynamicOf (first ++
          .exec (.lit "./wallpaper-dynamic") (.lit "wallpaper-dynamic") pid :: between) = pid := by
        rw [dynamicOf, track, List.foldl_append, List.foldl_cons, changeDynamic,
          if_pos ⟨rfl, rfl⟩]
        apply track_stays
        intro entry inside
        apply stays
        rw [parts]
        exact List.mem_append_left _ inside
      exact started (runs.symm.trans free)
    · exact absurd ((if_neg starts).symm.trans set) changed
  | kill => exact absurd set.symm started
  | _ => exact absurd set changed

/-- The key for the end of the session calls what is due. -/
theorem Served.escape {command : Option CString} {server : Server}
    (served : Served command server) {clients : ℕ} (count : server.nrClients = clients) :
    (Bpcp.MiniGUI.pressEscape server).calls = server.calls ++
      escapeCalls clients (tooltipOf server.calls) (dynamicOf server.calls) := by
  unfold MiniGUI.pressEscape escapeCalls
  rw [← served.agrees.myTooltipWin, ← served.agrees.pidDynamic, count]
  by_cases zero : clients = 0
  · rw [if_pos (Nat.cast_eq_zero.mpr zero), if_pos zero]
    by_cases shown : server.myTooltipWin ≠ 0
    · rw [if_pos shown, if_pos shown]
      exact List.append_assoc _ _ _
    · rw [if_neg shown, if_neg shown]
      rfl
  · rw [if_neg (Nat.cast_ne_zero.mpr zero), if_neg zero]
    have single : (clients : ℤ) = 1 ∧ server.pidDynamic ≠ 0 ↔
        clients = 1 ∧ server.pidDynamic ≠ 0 := and_congr_left fun _ => Nat.cast_eq_one
    by_cases alone : clients = 1 ∧ server.pidDynamic ≠ 0
    · rw [if_pos (single.mpr alone), if_pos alone]
      rfl
    · rw [if_neg (alone ∘ single.mp), if_neg alone, List.append_nil]

/-- Every signal goes to what `vfork` returned for the last dynamic wallpaper, once, with one client
connected: to all processes when there was no child. The key for the end of the session sends it
with one client, whichever that is, and ends the session without clients. There never is a screen
saver to be stopped. -/
theorem server_signals {answers : StartAnswers} {argv1 : Option CString} {session : Session}
    (child : answers.vfork 0 ≠ 0) (reachable : (sessionMachine answers argv1).Reachable session) :
    (∀ before pid after, session.server.calls = before ++ .kill pid :: after →
      countOf before = 1 ∧ ∃ first rest, before = first ++
          .exec (.lit "./wallpaper-dynamic") (.lit "wallpaper-dynamic") pid :: rest ∧
        ∀ other, .kill other ∉ rest ∧
          .exec (.lit "./wallpaper-dynamic") (.lit "wallpaper-dynamic") other ∉ rest) ∧
      (session.running = true → session.server.pidScrnsaver = 0) ∧
      (session.running = true → ∀ given,
        (myEventHook session.server given (some .escape)).calls = session.server.calls ++
          escapeCalls session.clients.length (tooltipOf session.server.calls)
            (dynamicOf session.server.calls)) := by
  have kept := Kept.of_reachable child reachable
  constructor
  · intro before pid after split
    have ⟨same, started, alone⟩ := kept.obeys.allowed split
    have obeys := kept.obeys
    rw [split] at obeys
    exact ⟨alone, dynamicOf_source obeys.front same.symm started⟩
  constructor
  · intro running
    exact (kept.served running).agrees.pidScrnsaver
  · intro running given
    have served := kept.served running
    have none : stopScrnsaver session.server = session.server :=
      if_neg (not_not.mpr served.agrees.pidScrnsaver)
    show (MiniGUI.pressEscape (stopScrnsaver session.server)).calls = _
    rw [none]
    exact served.escape (kept.nrClients running)

/-- A server that could not start the dynamic wallpaper, with another client. -/
def childless : Session :=
  (((Session.mk (startServer ⟨fun _ => 5, true⟩ (some (.lit "none"))) [] true).act
    (.message ⟨-1, none, 0⟩ (some .space))).act (.connect 9)).act
      (.message ⟨7, none, 0⟩ (some .escape))

/-- The key for the end of the session signals every process. -/
theorem server_signals_childless :
    childless.server.calls =
        [.exec (.lit "./wallpaper-dynamic") (.lit "wallpaper-dynamic") (-1), .connected 9,
          .kill (-1)] ∧
      countOf [.exec (.lit "./wallpaper-dynamic") (.lit "wallpaper-dynamic") (-1),
        .connected 9] = 1 := by
  have reachable : (sessionMachine ⟨fun _ => 5, true⟩ (some (.lit "none"))).Reachable
      childless :=
    reachable_act (reachable_act (reachable_act (.start rfl)
      (.message ⟨-1, none, 0⟩ (some .space)) rfl trivial)
      (.connect 9) rfl (Int.sign_eq_one_iff_pos.mp rfl))
      (.message ⟨7, none, 0⟩ (some .escape)) rfl trivial
  have calls : childless.server.calls =
      [.exec (.lit "./wallpaper-dynamic") (.lit "wallpaper-dynamic") (-1), .connected 9] ++
        [.kill (-1)] := by decide
  exact ⟨calls, ((server_signals (by decide) reachable).1 _ _ _ calls).1⟩

end Bpcp.MiniGUI
