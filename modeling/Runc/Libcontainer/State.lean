import Runc.Lib.Program

/-!
# The state of a container object

A `Container` holds what libcontainer keeps in memory (the state, the init
process and its start time) beside what it can only look up: the freezer, the
exec fifo, the cgroup, the resctrl group and the state directory.

Every operation of the system that may fail takes its outcome as an argument.
-/

namespace Runc.Libcontainer

open Lib (Program)

inductive Status
  | created
  | running
  | paused
  | stopped
deriving DecidableEq, Repr

def Status.string : Status → String
  | .created => "created"
  | .running => "running"
  | .paused => "paused"
  | .stopped => "stopped"

inductive ContainerState
  | stopped
  | running
  | created
  | paused
  | restored
  | loaded
deriving DecidableEq, Repr

def ContainerState.status : ContainerState → Status
  | .stopped => .stopped
  | .running => .running
  | .created => .created
  | .paused => .paused
  | .restored => .running
  | .loaded => .created

inductive FreezerState
  | undefined
  | frozen
  | thawed
deriving DecidableEq, Repr

inductive Err
  | stateTransition (src dst : Status)
  | errPaused
  | errRunning
  | errNotRunning
  | errNotPaused
  | errCgroupNotExist
  | system (text : String)
  | wrapped (text : String) (err : Err)
  | joined (first second : Err)
deriving DecidableEq, Repr

def Err.error : Err → String
  | .stateTransition src dst =>
      "invalid state transition from " ++ src.string ++ " to " ++ dst.string
  | .errPaused => "container paused"
  | .errRunning => "container still running"
  | .errNotRunning => "container not running"
  | .errNotPaused => "container not paused"
  | .errCgroupNotExist => "cgroup not exist"
  | .system text => text
  | .wrapped text err => text ++ ": " ++ err.error
  | .joined first second => first.error ++ "; " ++ second.error

structure Proc where
  startTime : Nat
  alive : Bool
  killed : Bool := false
  startTime_pos : 0 < startTime
deriving DecidableEq

structure Hooks where
  prestart : Bool := false
  createRuntime : Bool := false
  createContainer : Bool := false
  startContainer : Bool := false
  poststart : Bool := false
deriving DecidableEq

structure Config where
  pidPrivate : Bool := true
  skipDevices : Bool := false
  rootlessEUID : Bool := false
  rootlessCgroups : Bool := false
  freezer : FreezerState := .undefined
  hooks : Option Hooks := none
deriving DecidableEq

def Config.hasHook (config : Config) (pick : Hooks → Bool) : Bool :=
  match config.hooks with
  | none => false
  | some hooks => pick hooks

structure Container where
  config : Config
  state : ContainerState
  initProcess : Option Proc
  initProcessStartTime : Nat
  intelRdtManager : Bool
  -- the outside world
  freezer : FreezerState
  cgroup : Bool
  resctrl : Bool
  stateDir : Bool
  execFifo : Bool
  clock : Nat
  refreshFailed : Bool
deriving DecidableEq

abbrev Op (α : Type) := Program Container Err α

abbrev Fault := Option String

def fault (f : Fault) : Op Unit :=
  Program.check (f.map Err.system)

inductive FreezeOutcome
  | ok
  | failed (err : String) (left : FreezerState)
deriving DecidableEq

namespace Container

/-- The process is there and is the one that was started. -/
def hasInit (c : Container) : Bool :=
  match c.initProcess with
  | none => false
  | some p => p.alive && p.startTime == c.initProcessStartTime

def observed (c : Container) : ContainerState :=
  if c.freezer = .frozen then .paused
  else if !c.hasInit then .stopped
  else if c.execFifo then .created
  else .running

end Container

/-- `transition` of each state: the state the object is in afterwards. -/
def ContainerState.transition (src : ContainerState) (hasInit : Bool)
    (dst : ContainerState) : Except Err ContainerState :=
  match src, dst with
  | .stopped, .running => .ok .running
  | .stopped, .restored => .ok .restored
  | .stopped, .stopped => .ok .stopped
  | .running, .stopped => if hasInit then .error .errRunning else .ok .stopped
  | .running, .paused => .ok .paused
  | .running, .running => .ok .running
  | .created, .running => .ok .running
  | .created, .paused => .ok .paused
  | .created, .stopped => .ok .stopped
  | .created, .created => .ok .created
  | .paused, .running => .ok .running
  | .paused, .stopped => .ok .stopped
  | .paused, .paused => .ok .paused
  -- a restored object accepts the two, and stays as it is
  | .restored, .stopped => .ok .restored
  | .restored, .running => .ok .restored
  | .loaded, _ => .ok dst
  | _, _ => .error (.stateTransition src.status dst.status)

def transition (dst : ContainerState) : Op Unit := do
  let c ← get
  match c.state.transition c.hasInit dst with
  | .ok s => modify fun c => { c with state := s }
  | .error e => throw e

def Err.invalidTransition : Err → Bool
  | .stateTransition _ _ => true
  | _ => false

def refreshState (read : Fault) : Op Unit := do
  fault read
  let c ← get
  match c.state.transition c.hasInit c.observed with
  | .ok s => modify fun c => { c with state := s }
  | .error e =>
      modify fun c =>
        { c with refreshFailed := c.refreshFailed || e.invalidTransition }
      throw e

def currentStatus (read : Fault) : Op Status := do
  refreshState read
  let c ← get
  return c.state.status

/-- On success the resources remember the new state. -/
def freeze (target : FreezerState) : FreezeOutcome → Op Unit
  | .ok => modify fun c =>
      { c with freezer := target, config := { c.config with freezer := target } }
  | .failed err left => do
      modify fun c => { c with freezer := left }
      throw (.system err)

/-- `cgroupManager.Set` of resources whose freezer field is `to`. -/
def setResources (target : FreezerState) : FreezeOutcome → Op Unit
  | .ok => modify fun c =>
      { c with freezer := if target = .undefined then c.freezer else target }
  | .failed err left => do
      modify fun c => { c with freezer := left }
      throw (.system err)

theorem observed_cases (c : Container) :
    (c.observed = .paused ∧ c.freezer = .frozen) ∨
      (c.freezer ≠ .frozen ∧
        (c.observed = .stopped ∧ c.hasInit = false ∨
          c.observed = .created ∧ c.hasInit = true ∧ c.execFifo = true ∨
          c.observed = .running ∧ c.hasInit = true ∧ c.execFifo = false)) := by
  unfold Container.observed
  by_cases hfrozen : c.freezer = .frozen
  · simp [hfrozen]
  · cases hinit : c.hasInit <;> cases hfifo : c.execFifo <;>
      simp [hfrozen]

def ContainerState.rejects (src dst : ContainerState) : Bool :=
  match dst with
  | .paused => src = .stopped || src = .restored
  | .created => src ≠ .created && src ≠ .loaded
  | _ => false

def Container.stale (c : Container) : Bool :=
  c.state.rejects c.observed

def Container.refreshed (c : Container) : ContainerState :=
  if c.state = .restored then .restored else c.observed

theorem transition_observed (c : Container) :
    c.state.transition c.hasInit c.observed =
      if c.stale then
        .error (.stateTransition c.state.status c.observed.status)
      else .ok c.refreshed := by
  unfold Container.stale Container.refreshed
  rcases observed_cases c with
    ⟨hobs, -⟩ | ⟨-, ⟨hobs, hinit⟩ | ⟨hobs, -⟩ | ⟨hobs, -⟩⟩
  · rw [hobs]
    cases c.state <;> rfl
  · rw [hobs, hinit]
    cases c.state <;> rfl
  · rw [hobs]
    cases c.state <;> rfl
  · rw [hobs]
    cases c.state <;> rfl

theorem exec_refreshState (read : Fault) (c : Container) :
    (refreshState read).exec c =
      match read with
      | some e => (.error (.system e), c)
      | none =>
          if c.stale then
            (.error (.stateTransition c.state.status c.observed.status),
              { c with refreshFailed := true })
          else (.ok (), { c with state := c.refreshed }) := by
  cases read with
  | some e => rfl
  | none =>
    simp only [refreshState, fault, Option.map_none, Program.exec_bind,
      Program.exec_check_none, Program.exec_get, transition_observed]
    cases c.stale with
    | false => rfl
    | true => simp [Program.exec_bind, Err.invalidTransition]

theorem exec_currentStatus (read : Fault) (c : Container) :
    (currentStatus read).exec c =
      match read with
      | some e => (.error (.system e), c)
      | none =>
          if c.stale then
            (.error (.stateTransition c.state.status c.observed.status),
              { c with refreshFailed := true })
          else (.ok c.refreshed.status, { c with state := c.refreshed }) := by
  unfold currentStatus
  rw [Program.exec_bind, exec_refreshState]
  cases read with
  | some e => rfl
  | none => cases c.stale <;> rfl

end Runc.Libcontainer
