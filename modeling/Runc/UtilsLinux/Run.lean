import Runc.Libcontainer.Calls

/-!
# Running a container

`startContainer` from the moment `libcontainer.Create` has succeeded, for `runc create`,
`runc run` and `runc restore`. `runner.run` defers a function that destroys the
container if the variable `err` of the function is set.
-/

namespace Runc.UtilsLinux

open Lib (Program)
open Libcontainer

inductive CtAct
  | create
  | run
  | restore
deriving DecidableEq

structure Runner where
  action : CtAct
  shouldDestroy : Bool := true
  detach : Bool := false
  /-- `config.Terminal` -/
  terminal : Bool := false
  consoleSocket : Bool := false
  pidfdSocket : Bool := false
  pidFile : Bool := false
  preserveFDs : Nat := 0
  additionalGroups : Nat := 0
  /-- `$NOTIFY_SOCKET` is set -/
  notifySocket : Bool := false

structure Env where
  setupSocketDirectory : Fault := none
  bindSocket : Fault := none
  newProcess : Fault := none
  procThreadSelfOpen : Fault := none
  /-- `Faccessat` of a preserved descriptor -/
  preserved : Nat → Fault := fun _ => none
  setupIO : Fault := none
  setupPidfdSocket : Fault := none
  start : StartEnv := {}
  exec : ExecEnv := {}
  restore : RestoreEnv := {}
  waitConsole : Fault := none
  createPidFile : Fault := none
  forward : Except String Int := .ok 0
  /-- what `terminate` achieves -/
  terminated : Bool := true
  destroy : DestroyEnv := {}

def Runner.detached (r : Runner) : Bool :=
  r.detach || r.action = .create

def Runner.checkTerminal (r : Runner) : Op Unit := do
  Program.onlyIf (r.detached && r.terminal && !r.consoleSocket) (throw (.system
    "cannot allocate tty if runc will detach without setting console socket"))
  Program.onlyIf ((!r.detached || !r.terminal) && r.consoleSocket) (throw (.system
    "cannot use console socket if runc will not detach or allocate tty"))

def Runner.perform (r : Runner) (env : Env) : Op Unit :=
  match r.action with
  | .create => start { init := true, additionalGroups := r.additionalGroups } env.start
  | .restore => restore env.restore
  | .run =>
      run { init := true, additionalGroups := r.additionalGroups } env.start env.exec

def Runner.destroy (r : Runner) (env : Env) : Op Unit :=
  Program.onlyIf r.shouldDestroy (Program.ignore (destroyCall env.destroy))

structure Frame where
  container : Container
  err : Option Err := none

def onContainer {α : Type} (m : Op α) : Program Frame Err α :=
  ExceptT.mk fun frame =>
    let (result, c) := m.exec frame.container
    (result, { frame with container := c })

/-- `if err = m; err != nil { onError; return -1, err }`. -/
def assign (m : Op Unit) (onError : Container → Container := id) : Program Frame Err Unit :=
  tryCatch (onContainer m) fun e => do
    modify fun frame => { container := onError frame.container, err := some e }
    throw e

/-- `if err := m; err != nil { return -1, err }`: the function's `err` stays nil. -/
def shadowed (m : Op Unit) : Program Frame Err Unit :=
  onContainer m

def checkPreserved (r : Runner) (env : Env) : Op Unit :=
  (List.range r.preserveFDs).forM fun i =>
    Program.wrap (.wrapped "unable to stat preserved-fd") (fault (env.preserved i))

def finish (r : Runner) (env : Env) : Program Frame Err Int :=
  match env.forward with
  | .error e => do
      modify fun frame =>
        { container := frame.container.terminate env.terminated
          err := some (.system e) }
      if r.detached then return 0 else throw (.system e)
  | .ok status =>
      if r.detached then return 0
      else do
        onContainer (modify External.initDies.apply)
        onContainer (r.destroy env)
        return status

/-- `runner.run` without its deferred function. -/
def body (r : Runner) (env : Env) : Program Frame Err Int := do
  assign r.checkTerminal
  assign (fault env.newProcess)
  assign (fault env.procThreadSelfOpen)
  shadowed (checkPreserved r env)
  assign (fault env.setupIO)
  Program.onlyIf r.pidfdSocket (shadowed (fault env.setupPidfdSocket))
  assign (r.perform env)
  assign (fault env.waitConsole) (·.terminate env.terminated)
  Program.onlyIf r.pidFile
    (assign (fault env.createPidFile) (·.terminate env.terminated))
  finish r env

/-- `runner.run`: what it returns, and the container after the deferred function. -/
def runnerRun (r : Runner) (env : Env) : Op Int :=
  ExceptT.mk fun c =>
    let (result, frame) := (body r env).exec { container := c }
    (result,
      if frame.err.isSome then ((r.destroy env).exec frame.container).2
      else frame.container)

def startContainer (r : Runner) (env : Env) : Op Int := do
  Program.onlyIf r.notifySocket (do
    fault env.setupSocketDirectory
    Program.onlyIf (r.action = .run) (fault env.bindSocket))
  runnerRun r env

end Runc.UtilsLinux
