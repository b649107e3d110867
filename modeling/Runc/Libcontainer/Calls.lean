import Runc.Libcontainer.State

/-!
# The calls on a container object

The calls of a container, with the helpers they share. What init and the tools that runc
drives do in between comes as a list of messages, and events of the outside world may
stand among them.
-/

namespace Runc.Libcontainer

open Lib (Program)

inductive External
  | initDies
  | freeze
  | thaw
  | fifoRemoved
deriving DecidableEq

def External.apply : External → Container → Container
  | .initDies, c =>
      { c with initProcess := c.initProcess.map ({ · with alive := false }) }
  | .freeze, c => if c.cgroup then { c with freezer := .frozen } else c
  | .thaw, c => if c.cgroup then { c with freezer := .thawed } else c
  | .fifoRemoved, c => { c with execFifo := false }

inductive Signal
  | sigkill
  | other
deriving DecidableEq

inductive SignalOutcome
  | sent (dead : Bool)
  | failed (err : String)
deriving DecidableEq

def Proc.signalled (p : Proc) (sig : Signal) (dead : Bool) : Proc :=
  { p with
    alive := p.alive && !dead
    killed := p.killed || sig = .sigkill }

def Container.signalled (c : Container) (sig : Signal) (dead : Bool) : Container :=
  { c with initProcess := c.initProcess.map (·.signalled sig dead) }

/-- `c.initProcess.signal`. -/
def signalInit (sig : Signal) : SignalOutcome → Op Unit
  | .sent dead => modify (·.signalled sig dead)
  | .failed err => throw (.system err)

inductive KillFile
  | written (dead : Bool)
  | missing
  | failed (err : String)
deriving DecidableEq

structure SignalAllEnv where
  killFile : KillFile := .missing
  freeze : FreezeOutcome := .ok
  pids : Fault := none
  kill : SignalOutcome := .sent true
  thaw : FreezeOutcome := .ok

def signalEachProcess (sig : Signal) (env : SignalAllEnv) : Op Unit := do
  Program.ignore (freeze .frozen env.freeze)
  Program.onError (fault env.pids) fun c =>
    ((freeze .thawed env.thaw).exec c).2
  Program.ignore (signalInit sig env.kill)
  Program.ignore (freeze .thawed env.thaw)

def signalAllProcesses (sig : Signal) (env : SignalAllEnv) : Op Unit := do
  let c ← get
  if !c.cgroup then
    throw .errCgroupNotExist
  else if sig = .sigkill then
    match env.killFile with
    | .written dead => modify (·.signalled sig dead)
    | .failed err => throw (.system err)
    | .missing => signalEachProcess sig env
  else
    signalEachProcess sig env

structure SignalEnv where
  all : SignalAllEnv := {}
  deliver : SignalOutcome := .sent true
  read : Fault := none
  thaw : FreezeOutcome := .ok

/-- A killed process in a frozen cgroup only dies once thawed. -/
def signal (sig : Signal) (env : SignalEnv) : Op Unit := do
  let c ← get
  if !c.hasInit then
    throw .errNotRunning
  else do
    Program.wrap (.wrapped "unable to signal init") (signalInit sig env.deliver)
    Program.onlyIf (sig = .sigkill && env.read.isNone && c.freezer = .frozen)
      (Program.ignore (freeze .thawed env.thaw))

/-- `Signal`. -/
def signalCall (sig : Signal) (env : SignalEnv) : Op Unit := do
  let c ← get
  if sig = .sigkill && !c.config.pidPrivate then
    tryCatch (signalAllProcesses .sigkill env.all) fun err =>
      if c.config.rootlessCgroups then signal sig env
      else do
        let now ← get
        throw (.wrapped "unable to kill all processes"
          (if err = .errCgroupNotExist && !now.hasInit then .errNotRunning
            else err))
  else
    signal sig env

/-- `os.RemoveAll` may stop half way, with or without the fifo removed. -/
inductive RemoveOutcome
  | ok
  | failed (err : String) (fifoLeft : Bool)
deriving DecidableEq

structure DestroyEnv where
  read : Fault := none
  kill : SignalOutcome := .sent true
  thaw : FreezeOutcome := .ok
  /-- `os.Stat` of the checkpoint, other than that it does not exist -/
  checkpoint : Fault := none
  all : SignalAllEnv := {}
  cgroup : Fault := none
  intelRdt : Fault := none
  removeAll : RemoveOutcome := .ok
  hookRead : Fault := none
  hookRun : Fault := none

/-- `os.RemoveAll(c.stateDir)`. -/
def removeStateDir : RemoveOutcome → Op Unit
  | .ok => modify fun c => { c with stateDir := false, execFifo := false }
  | .failed err fifoLeft => do
      modify fun c => { c with execFifo := c.execFifo && fifoLeft }
      throw (.system err)

def runPoststopHooks (env : DestroyEnv) : Op Unit := do
  let c ← get
  match c.config.hooks with
  | none => pure ()
  | some _ => do
      refreshState env.hookRead
      fault env.hookRun

/-- `cgroupManager.Destroy`. -/
def destroyCgroup (err : Fault) : Op Unit := do
  fault err
  modify fun c => { c with cgroup := false, freezer := .undefined }

/-- `intelRdtManager.Destroy`. -/
def destroyIntelRdt (err : Fault) : Op Unit := do
  fault err
  modify fun c => { c with resctrl := false }

def finishDestroy (env : DestroyEnv) : Op Unit := do
  modify fun c => { c with initProcess := none }
  Program.onError (runPoststopHooks env) fun c => { c with state := .stopped }
  modify fun c => { c with state := .stopped }

def destroy (env : DestroyEnv) : Op Unit := do
  let c ← get
  Program.onlyIf (!c.config.pidPrivate)
    (Program.ignore (signalAllProcesses .sigkill env.all))
  Program.wrap (.wrapped "unable to remove container's cgroup")
    (destroyCgroup env.cgroup)
  Program.onlyIf c.intelRdtManager
    (Program.wrap (.wrapped "unable to remove container's IntelRDT group")
      (destroyIntelRdt env.intelRdt))
  Program.wrap (.wrapped "unable to remove container state dir")
    (removeStateDir env.removeAll)
  finishDestroy env

/-- `destroy()` of each state but the loaded one. -/
def destroyState (env : DestroyEnv) : Op Unit := do
  let c ← get
  match c.state with
  | .stopped => destroy env
  | .running => if c.hasInit then throw .errRunning else destroy env
  | .created => do
      Program.ignore (signalInit .sigkill env.kill)
      destroy env
  | .paused =>
      if c.hasInit then throw .errPaused
      else do
        freeze .thawed env.thaw
        destroy env
  | .restored => do
      fault env.checkpoint
      destroy env
  -- a refresh never leaves the object in this state
  | .loaded => pure ()

/-- `c.state.destroy()`: a loaded state refreshes first. -/
def destroyAnyState (env : DestroyEnv) : Op Unit := do
  let c ← get
  Program.onlyIf (c.state = .loaded) (refreshState env.read)
  destroyState env

/-- `Destroy`. -/
def destroyCall (env : DestroyEnv) : Op Unit :=
  Program.wrap (.wrapped "unable to destroy container") (destroyAnyState env)

structure Process where
  init : Bool
  additionalGroups : Nat := 0

inductive SyncEvent
  | procMountPlease (err : Fault)
  | procSeccomp (getFd read send : Fault)
  | procReady (rlimits save : Fault) (statReadable : Bool) (write : Fault)
  | procHooks (set : FreezeOutcome) (intelRdt read run write : Fault)
  | procError (text : String)
  | invalid
  | outside (event : External)

def SyncEvent.isReady : SyncEvent → Bool
  | .procReady _ _ _ _ => true
  | _ => false

structure StartEnv where
  createExecFifo : Fault := none
  newParentProcess : Fault := none
  closeExecFrom : Fault := none
  logs : Fault := none
  cmdStart : Fault := none
  saveState : Fault := none
  applyCgroup : Fault := none
  cgroupApplied : Bool := true
  applyIntelRdt : Fault := none
  bootstrap : Fault := none
  specRead : Fault := none
  sendConfig : Fault := none
  syncs : List SyncEvent := []
  shutdown : Fault := none
  terminated : Bool := true
  cgroupRemoved : Bool := true
  resctrlRemoved : Bool := true
  fifoDeleted : Bool := true
  poststartRead : Fault := none
  poststartRun : Fault := none

/-- `mkfifo` needs the directory and no fifo in it. -/
def createExecFifo (err : Fault) : Op Unit := do
  let c ← get
  if !c.stateDir then throw (.system "mkfifo: no such file or directory")
  else if c.execFifo then throw (.system "mkfifo: file exists")
  else do
    fault err
    modify fun c => { c with execFifo := true }

def Container.newProc (c : Container) : Proc where
  startTime := c.clock + 1
  alive := true
  startTime_pos := Nat.succ_pos c.clock

/-- `cmd.Start()`. -/
def spawnInit (err : Fault) : Op Unit := do
  fault err
  modify fun c =>
    { c with initProcess := some c.newProc, clock := c.clock + 1 }

def Container.statStartTime (c : Container) (readable : Bool) : Nat :=
  match c.initProcess with
  | none => 0
  | some p => if readable then p.startTime else 0

def Container.terminate (c : Container) (terminated : Bool) : Container :=
  if terminated then c.signalled .sigkill true else c

def handleSync : SyncEvent → Op Unit
  | .procMountPlease err => fault err
  | .procSeccomp getFd read send => do
      fault getFd
      refreshState read
      fault send
  | .procReady rlimits save statReadable write => do
      Program.wrap (.wrapped "error setting rlimits for ready process")
        (fault rlimits)
      modify fun c => { c with state := .created }
      let c ← get
      Program.wrap (.wrapped "unable to store init state") (fault save)
      modify fun now =>
        { now with initProcessStartTime := c.statStartTime statReadable }
      fault write
  | .procHooks set intelRdt read run write => do
      let c ← get
      Program.wrap (.wrapped "error setting cgroup config for procHooks process")
        (setResources c.config.freezer set)
      Program.onlyIf c.intelRdtManager
        (Program.wrap
          (.wrapped "error setting Intel RDT config for procHooks process")
          (fault intelRdt))
      Program.onlyIf (c.config.hasHook fun h => h.prestart || h.createRuntime)
        (do refreshState read; fault run)
      fault write
  | .procError text => throw (.system text)
  | .invalid => throw (.system "invalid JSON payload from child")
  | .outside event => modify event.apply

/-- `parseSync` and what follows it. -/
def syncWithInit (env : StartEnv) : Op Unit := do
  Program.wrap (.wrapped "error during container init")
    (env.syncs.forM handleSync)
  fault env.shutdown
  Program.onlyIf (!env.syncs.any SyncEvent.isReady)
    (throw (.wrapped "error during container init"
      (.system "procReady not received")))

/-- `manager.Destroy`, with its error ignored. -/
def Container.dropCgroup (c : Container) (removed : Bool) : Container :=
  if removed then { c with cgroup := false, freezer := .undefined } else c

/-- `intelRdtManager.Destroy`, with its error ignored. -/
def Container.dropResctrl (c : Container) (removed : Bool) : Container :=
  if c.intelRdtManager && removed then { c with resctrl := false } else c

def undoStart (env : StartEnv) (c : Container) : Container :=
  ((c.terminate env.terminated).dropCgroup env.cgroupRemoved).dropResctrl
    env.resctrlRemoved

/-- `manager.Apply`; `ErrRootless` is not an error. -/
def applyCgroup (err : Fault) (applied : Bool) : Op Unit := do
  Program.wrap (.wrapped "unable to apply cgroup configuration") (fault err)
  modify fun c => { c with cgroup := c.cgroup || applied }

/-- `initProcess.start` once the first state is stored. -/
def bringUpInit (env : StartEnv) : Op Unit := do
  applyCgroup env.applyCgroup env.cgroupApplied
  let c ← get
  Program.onlyIf c.intelRdtManager (do
    Program.wrap (.wrapped "unable to apply Intel RDT configuration")
      (fault env.applyIntelRdt)
    modify fun c => { c with resctrl := true })
  fault env.bootstrap
  Program.onlyIf
    (c.config.hasHook fun h => h.createContainer || h.startContainer)
    (Program.wrap (.wrapped "error getting current state")
      (refreshState env.specRead))
  Program.wrap (.wrapped "error sending config to init process")
    (fault env.sendConfig)
  syncWithInit env

/-- `initProcess.start`.  Storing the first state comes before the cleanup is
set up: if it fails, the process is left behind. -/
def startInitProcess (env : StartEnv) : Op Unit := do
  Program.wrap (.wrapped "unable to start init") (spawnInit env.cmdStart)
  Program.wrap
    (.wrapped "unable to store init state before creating cgroup")
    (fault env.saveState)
  Program.onError (bringUpInit env) (undoStart env)

def poststart (env : StartEnv) : Op Unit := do
  let c ← get
  Program.onlyIf (c.config.hasHook (·.poststart)) (do
    refreshState env.poststartRead
    Program.onError (fault env.poststartRun) (·.terminate env.terminated))

def withLogs (logs : Fault) (m : Op Unit) : Op Unit := do
  Program.wrap
    (fun e =>
      match logs with
      | none => e
      | some text => .joined e (.wrapped "runc init error(s)" (.system text)))
    m
  Program.check (logs.map fun text => .wrapped "runc init error(s)" (.system text))

/-- `start` for init, once the fifo is there.  A command that is not started
yet is no process. -/
def startInit (env : StartEnv) : Op Unit := do
  Program.wrap (.wrapped "unable to create new parent process")
    (fault env.newParentProcess)
  modify fun c => { c with initProcess := none }
  Program.wrap (.wrapped "unable to mark non-stdio fds as cloexec")
    (fault env.closeExecFrom)
  withLogs env.logs do
    Program.wrap (.wrapped "unable to start container process")
      (startInitProcess env)
    poststart env

/-- `start` for a process that joins the container. -/
def startSetns (env : StartEnv) : Op Unit := do
  Program.wrap (.wrapped "unable to create new parent process")
    (fault env.newParentProcess)
  Program.wrap (.wrapped "unable to mark non-stdio fds as cloexec")
    (fault env.closeExecFrom)
  withLogs env.logs
    (Program.wrap (.wrapped "unable to start container process")
      (fault env.cmdStart))

def start (process : Process) (env : StartEnv) : Op Unit := do
  let c ← get
  if c.config.skipDevices then
    throw (.system "can't start container with SkipDevices set")
  else if c.config.rootlessEUID && process.additionalGroups > 0 then
    throw (.system "cannot set any additional groups in a rootless container")
  else if !process.init then
    startSetns env
  else if c.initProcessStartTime ≠ 0 then
    throw (.system "container already has init process")
  else do
    createExecFifo env.createExecFifo
    Program.onError (startInit env) fun c =>
      if env.fifoDeleted then { c with execFifo := false } else c

structure ExecEnv where
  dead : Bool := false
  fifoOpen : Fault := none
  readFromExecFifo : Fault := none
  remove : Fault := none

/-- The fifo is removed once init has written to it. -/
def handleFifoResult (env : ExecEnv) : Op Unit := do
  Program.wrap (.wrapped "exec fifo") (fault env.fifoOpen)
  fault env.readFromExecFifo
  fault env.remove
  modify fun c => { c with execFifo := false }

def exec (env : ExecEnv) : Op Unit :=
  if env.dead then
    Program.wrap (fun _ => .system "container process is already dead")
      (handleFifoResult env)
  else
    handleFifoResult env

def run (process : Process) (startEnv : StartEnv) (execEnv : ExecEnv) :
    Op Unit := do
  start process startEnv
  Program.onlyIf process.init (exec execEnv)

structure FreezerEnv where
  read : Fault := none
  freeze : FreezeOutcome := .ok

def pause (env : FreezerEnv) : Op Unit := do
  let status ← currentStatus env.read
  if status = .running || status = .created then do
    freeze .frozen env.freeze
    transition .paused
  else
    throw .errNotRunning

def resume (env : FreezerEnv) : Op Unit := do
  let status ← currentStatus env.read
  if status ≠ .paused then
    throw .errNotPaused
  else do
    freeze .thawed env.freeze
    transition .running

structure SetEnv where
  read : Fault := none
  set : FreezeOutcome := .ok
  setBack : FreezeOutcome := .ok
  intelRdt : Fault := none
  saveState : Fault := none

def set (config : Config) (env : SetEnv) : Op Unit := do
  let status ← currentStatus env.read
  if status = .stopped then
    throw .errNotRunning
  else do
    let c ← get
    let setBack : Err → Op Unit := fun err => do
      Program.ignore (setResources c.config.freezer env.setBack)
      throw err
    tryCatch (setResources config.freezer env.set) setBack
    Program.onlyIf c.intelRdtManager (tryCatch (fault env.intelRdt) setBack)
    modify fun c => { c with config := config }
    fault env.saveState

inductive CriuNotify
  | setupNamespaces (read run : Fault)
  | postRestore (stat save : Fault)
  | other (err : Fault)
  | outside (event : External)

/-- The restored process is not the one that `initProcessStartTime` was taken from. -/
def criuNotifications : CriuNotify → Op Unit
  | .setupNamespaces read run => do
      let c ← get
      -- a refresh that fails only skips the hooks
      Program.onlyIf (c.config.hasHook fun h => h.prestart || h.createRuntime) do
        let refreshed ← tryCatch (do refreshState read; pure true) fun _ =>
          pure false
        Program.onlyIf refreshed (fault run)
  | .postRestore stat save => do
      fault stat
      transition .restored
      modify fun c =>
        { c with initProcess := some c.newProc, clock := c.clock + 1 }
      fault save
  | .other err => fault err
  | .outside event => modify event.apply

structure RestoreEnv where
  prepare : Fault := none
  applyCgroup : Fault := none
  set : FreezeOutcome := .ok
  send : Fault := none
  notifications : List CriuNotify := []
  finish : Fault := none

def restore (env : RestoreEnv) : Op Unit := do
  fault env.prepare
  fault env.applyCgroup
  modify fun c => { c with cgroup := true }
  let c ← get
  setResources c.config.freezer env.set
  fault env.send
  env.notifications.forM criuNotifications
  fault env.finish

inductive Event
  | start (process : Process) (env : StartEnv)
  | run (process : Process) (env : StartEnv) (execEnv : ExecEnv)
  | exec (env : ExecEnv)
  | pause (env : FreezerEnv)
  | resume (env : FreezerEnv)
  | signal (sig : Signal) (env : SignalEnv)
  | set (config : Config) (env : SetEnv)
  | status (read : Fault)
  | restore (env : RestoreEnv)
  | destroy (env : DestroyEnv)
  | outside (event : External)

def Event.op : Event → Op Unit
  | .start process env => Libcontainer.start process env
  | .run process env execEnv => Libcontainer.run process env execEnv
  | .exec env => Libcontainer.exec env
  | .pause env => Libcontainer.pause env
  | .resume env => Libcontainer.resume env
  | .signal sig env => signalCall sig env
  | .set config env => Libcontainer.set config env
  | .status read => discard (currentStatus read)
  | .restore env => Libcontainer.restore env
  | .destroy env => destroyCall env
  | .outside event => modify event.apply

def Event.perform (event : Event) (c : Container) : Container :=
  (event.op.exec c).2

def Container.create (config : Config) (intelRdtManager : Bool) (freezer : FreezerState)
    (cgroup : Bool) (clock : Nat) : Container where
  config := config
  state := .stopped
  initProcess := none
  initProcessStartTime := 0
  intelRdtManager := intelRdtManager
  freezer := freezer
  cgroup := cgroup
  resctrl := false
  stateDir := true
  execFifo := false
  clock := clock
  refreshFailed := false

/-- The objects to begin with: from `Create`, which refuses a frozen cgroup,
and from `Load`, which takes whatever it finds and refreshes. -/
inductive Opened : Container → Prop
  | create (config : Config) (intelRdtManager : Bool) (freezer : FreezerState)
      (cgroup : Bool) (clock : Nat) :
      freezer ≠ .frozen →
      Opened (.create config intelRdtManager freezer cgroup clock)
  | load {c c' : Container} :
      c.state = .loaded →
      c.refreshFailed = false →
      c.initProcessStartTime ≤ c.clock →
      (∀ p, c.initProcess = some p → p.startTime ≤ c.clock) →
      (refreshState none).exec c = (.ok (), c') →
      Opened c'

end Runc.Libcontainer
