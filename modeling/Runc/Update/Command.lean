import Runc.Lib.Program
import Runc.Update.Resources

/-!
# The update command

`container.Config()` copies the `Config` record with its pointers, so the copy that
`runc update` changes has one `Resources` and one `IntelRdt` with the configuration the
container holds. The records are cells of a heap here.
-/

namespace Runc.Update

open Lib (Text Program)

structure IntelRdt where
  l3CacheSchema : Text := []
  memBwSchema : Text := []
deriving DecidableEq

structure Saved where
  resources : Resources := {}
  intelRdt : Option IntelRdt := none

structure Config where
  cgroups : Nat
  intelRdt : Option Nat
deriving DecidableEq

structure Heap where
  resources : Nat → Resources
  intelRdt : Nat → IntelRdt

structure Settings where
  resources : Resources
  intelRdt : Option IntelRdt

def Heap.settings (heap : Heap) (config : Config) : Settings where
  resources := heap.resources config.cgroups
  intelRdt := config.intelRdt.map heap.intelRdt

structure World where
  heap : Heap
  /-- what `c.config` points to -/
  config : Config
  intelRdtManager : Bool
  cgroupSettings : Option Resources
  intelRdtSettings : Option (Option IntelRdt)
  stateFile : Saved

def World.held (w : World) : Settings :=
  w.heap.settings w.config

def load (saved : Saved) (intelRdtManager : Bool) : World where
  heap := {
    resources := fun _ => { saved.resources with skipDevices := false }
    intelRdt := fun _ => saved.intelRdt.getD {} }
  config := { cgroups := 0, intelRdt := saved.intelRdt.map fun _ => 0 }
  intelRdtManager := intelRdtManager
  cgroupSettings := none
  intelRdtSettings := none
  stateFile := saved

abbrev Op (α : Type) := Program World Err α

abbrev Fault := Option String

def fault (f : Fault) : Op Unit :=
  Program.check (f.map Err.text)

structure Env where
  getContainer : Fault := none
  currentStatus : Fault := none
  stopped : Bool := false
  cgroupSet : Fault := none
  cgroupSetBack : Fault := none
  intelRdtSet : Fault := none
  intelRdtSetBack : Fault := none
  saveState : Fault := none

/-- `c.cgroupManager.Set(config.Cgroups.Resources)`. -/
def cgroupManagerSet (config : Config) (err : Fault) : Op Unit := do
  modify fun w => { w with cgroupSettings := some (w.heap.settings config).resources }
  fault err

/-- `c.intelRdtManager.Set(config)`. -/
def intelRdtManagerSet (config : Config) (err : Fault) : Op Unit := do
  modify fun w => { w with intelRdtSettings := some (w.heap.settings config).intelRdt }
  fault err

def updateState (err : Fault) : Op Unit := do
  fault err
  modify fun w =>
    { w with stateFile := {
        resources := { w.held.resources with skipDevices := false }
        intelRdt := w.held.intelRdt } }

def setCgroupBack (env : Env) : Op Unit := do
  let w ← get
  Program.ignore (cgroupManagerSet w.config env.cgroupSetBack)

def setBothBack (env : Env) : Op Unit := do
  setCgroupBack env
  let w ← get
  Program.ignore (intelRdtManagerSet w.config env.intelRdtSetBack)

def set (config : Config) (env : Env) : Op Unit := do
  fault env.currentStatus
  Program.onlyIf env.stopped (throw (.text "container not running"))
  tryCatch (cgroupManagerSet config env.cgroupSet) fun err => do
    setCgroupBack env
    throw err
  let w ← get
  Program.onlyIf w.intelRdtManager
    (tryCatch (intelRdtManagerSet config env.intelRdtSet) fun err => do
      setBothBack env
      throw err)
  modify fun w => { w with config := config }
  updateState env.saveState

def deref {α : Type} : Option α → Op α
  | none => throw .nilPointer
  | some a => pure a

def writeResources (config : Config) (f : Resources → Resources) : Op Unit :=
  modify fun w =>
    { w with heap := { w.heap with
        resources := Function.update w.heap.resources config.cgroups
          (f (w.heap.resources config.cgroups)) } }

def updateValues (host : Host) (config : Config) (r : LinuxResources) : Op Unit := do
  let memory ← deref r.memory
  let cpu ← deref r.cpu
  let blockIO ← deref r.blockIO
  writeResources config fun res =>
    updateMemory memory.fixUp (updateCPU host cpu.fixUp ( updateBlockIO blockIO res))
  let pids ← deref r.pids
  writeResources config (updatePids pids r.unified)

structure Request where
  source : Source
  l3CacheSchema : Text := []
  memBwSchema : Text := []

def IntelRdt.update (req : Request) (rdt : IntelRdt) : IntelRdt where
  l3CacheSchema := if req.l3CacheSchema ≠ [] then req.l3CacheSchema else rdt.l3CacheSchema
  memBwSchema := if req.memBwSchema ≠ [] then req.memBwSchema else rdt.memBwSchema

def writeIntelRdt (req : Request) : Option Nat → Op Unit
  | none => throw (.text
      "updating a non-existent Intel RDT configuration is not supported")
  | some at' =>
      modify fun w =>
        { w with heap := { w.heap with
            intelRdt := Function.update w.heap.intelRdt at'
              ((w.heap.intelRdt at').update req) } }

def updateIntelRdt (host : Host) (config : Config) (req : Request) : Op Unit := do
  Program.onlyIf (req.l3CacheSchema ≠ [] && !host.isCATEnabled)
    (throw (.text "Intel RDT/CAT: l3 cache schema is not enabled"))
  Program.onlyIf (req.memBwSchema ≠ [] && !host.isMBAEnabled)
    (throw (.text "Intel RDT/MBA: memory bandwidth schema is not enabled"))
  Program.onlyIf (req.l3CacheSchema ≠ [] || req.memBwSchema ≠ [])
    (writeIntelRdt req config.intelRdt)

def readResources (host : Host) (source : Source) : Op LinuxResources :=
  match source.resources host with
  | .ok r => pure r
  | .error err => throw err

def update (host : Host) (req : Request) (env : Env) : Op Unit := do
  fault env.getContainer
  let w ← get
  -- `container.Config()`: a copy of the record, not of what it points to
  let config := w.config
  let r ← readResources host req.source
  updateValues host config r
  updateIntelRdt host config req
  writeResources config fun res => { res with skipDevices := true }
  set config env

end Runc.Update
