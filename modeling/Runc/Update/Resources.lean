import Runc.Lib.Overlay
import Runc.Lib.Text

/-!
# The resources of an update request

`runc update` takes new resource values as options or as a JSON document, whose members
may be absent or null, and copies them into the resources of the container's
configuration. Warnings that are only logged are left out.
-/

namespace Runc.Update

open Lib (Text)

inductive Err
  | nilPointer
  | text (message : String)
  | invalidValue (opt : String) (err : String)
deriving DecidableEq

structure Host where
  parseInt : Text → Except String Int
  parseUint : Text → Except String Nat
  ramInBytes : Text → Except String Int
  /-- `ConvertCPUSharesToCgroupV2Value` between its bounds, a floating point formula -/
  sharesCurve : Nat → Nat
  isCATEnabled : Bool
  isMBAEnabled : Bool

def Host.convertCPUSharesToCgroupV2Value (host : Host) (cpuShares : Nat) : Nat :=
  if cpuShares = 0 then 0
  else if cpuShares ≤ 2 then 1
  else if 262144 ≤ cpuShares then 10000
  else host.sharesCurve cpuShares

structure BlockIODevice where
  major : Int
  minor : Int
deriving DecidableEq

structure WeightDevice where
  device : BlockIODevice
  weight : Nat
  leafWeight : Nat
deriving DecidableEq

structure ThrottleDevice where
  device : BlockIODevice
  rate : Nat
deriving DecidableEq

inductive Throttle
  | readBps
  | writeBps
  | readIOPS
  | writeIOPS
deriving DecidableEq

inductive Unread
  | devices
  | hugepageLimits
  | swappiness
  | disableOOMKiller
  | classID
  | priorities
  | rdma
deriving DecidableEq

/-- A map is the function that looks a key up; a nil map is empty. -/
structure Resources where
  memory : Int := 0
  memoryReservation : Int := 0
  memorySwap : Int := 0
  cpuShares : Nat := 0
  cpuQuota : Int := 0
  cpuBurst : Option Nat := none
  cpuPeriod : Nat := 0
  cpuRtRuntime : Int := 0
  cpuRtPeriod : Nat := 0
  cpusetCpus : Text := []
  cpusetMems : Text := []
  cpuIdle : Option Int := none
  pidsLimit : Option Int := none
  blkioWeight : Nat := 0
  blkioLeafWeight : Nat := 0
  blkioWeightDevice : List WeightDevice := []
  blkioThrottleDevice : Throttle → List ThrottleDevice := fun _ => []
  cpuWeight : Nat := 0
  unified : Text → Option Text := fun _ => none
  unread : Unread → Text := fun _ => []
  memoryCheckBeforeUpdate : Bool := false
  /-- not saved in `state.json` -/
  skipDevices : Bool := false

structure LinuxMemory where
  limit : Option Int := none
  reservation : Option Int := none
  swap : Option Int := none
  checkBeforeUpdate : Option Bool := none

structure LinuxCPU where
  shares : Option Nat := none
  quota : Option Int := none
  burst : Option Nat := none
  period : Option Nat := none
  realtimeRuntime : Option Int := none
  realtimePeriod : Option Nat := none
  cpus : Text := []
  mems : Text := []
  idle : Option Int := none

structure LinuxPids where
  limit : Option Int := none

structure LinuxWeightDevice where
  device : BlockIODevice
  weight : Option Nat := none
  leafWeight : Option Nat := none

structure LinuxThrottleDevice where
  device : BlockIODevice
  rate : Nat

structure LinuxBlockIO where
  weight : Option Nat := none
  leafWeight : Option Nat := none
  weightDevice : List LinuxWeightDevice := []
  throttleDevice : Throttle → List LinuxThrottleDevice := fun _ => []

structure LinuxResources where
  memory : Option LinuxMemory
  cpu : Option LinuxCPU
  pids : Option LinuxPids
  blockIO : Option LinuxBlockIO
  unified : Text → Option Text := fun _ => none

def LinuxResources.initial : LinuxResources where
  memory := some { checkBeforeUpdate := some false }
  cpu := some {}
  pids := some {}
  blockIO := some {}

inductive Member (α : Type)
  | absent
  | null
  | value (a : α)

def Member.pointer {α : Type} (old : Option α) : Member α → Option α
  | .absent => old
  | .null => none
  | .value a => some a

def Member.plain {α : Type} (empty : α) : Member α → α
  | .absent => empty
  | .null => empty
  | .value a => a

def Member.object {α δ : Type} (decode : δ → α → α) (zero : α) (old : Option α) :
    Member δ → Option α
  | .absent => old
  | .null => none
  | .value d => some (decode d (old.getD zero))

structure MemoryDoc where
  limit : Member Int := .absent
  reservation : Member Int := .absent
  swap : Member Int := .absent
  checkBeforeUpdate : Member Bool := .absent

structure CPUDoc where
  shares : Member Nat := .absent
  quota : Member Int := .absent
  burst : Member Nat := .absent
  period : Member Nat := .absent
  realtimeRuntime : Member Int := .absent
  realtimePeriod : Member Nat := .absent
  cpus : Member Text := .absent
  mems : Member Text := .absent
  idle : Member Int := .absent

structure PidsDoc where
  limit : Member Int := .absent

structure BlockIODoc where
  weight : Member Nat := .absent
  leafWeight : Member Nat := .absent
  weightDevice : Member (List LinuxWeightDevice) := .absent
  throttleDevice : Throttle → Member (List LinuxThrottleDevice) := fun _ => .absent

structure Doc where
  memory : Member MemoryDoc := .absent
  cpu : Member CPUDoc := .absent
  pids : Member PidsDoc := .absent
  blockIO : Member BlockIODoc := .absent
  unified : Member (Text → Option (Option Text)) := .absent
  unread : Unread → Member Text := fun _ => .absent

def MemoryDoc.decode (d : MemoryDoc) (m : LinuxMemory) : LinuxMemory where
  limit := d.limit.pointer m.limit
  reservation := d.reservation.pointer m.reservation
  swap := d.swap.pointer m.swap
  checkBeforeUpdate := d.checkBeforeUpdate.pointer m.checkBeforeUpdate

def CPUDoc.decode (d : CPUDoc) (c : LinuxCPU) : LinuxCPU where
  shares := d.shares.pointer c.shares
  quota := d.quota.pointer c.quota
  burst := d.burst.pointer c.burst
  period := d.period.pointer c.period
  realtimeRuntime := d.realtimeRuntime.pointer c.realtimeRuntime
  realtimePeriod := d.realtimePeriod.pointer c.realtimePeriod
  cpus := d.cpus.plain c.cpus
  mems := d.mems.plain c.mems
  idle := d.idle.pointer c.idle

def PidsDoc.decode (d : PidsDoc) (p : LinuxPids) : LinuxPids where
  limit := d.limit.pointer p.limit

def BlockIODoc.decode (d : BlockIODoc) (b : LinuxBlockIO) : LinuxBlockIO where
  weight := d.weight.pointer b.weight
  leafWeight := d.leafWeight.pointer b.leafWeight
  weightDevice := d.weightDevice.plain b.weightDevice
  throttleDevice kind := (d.throttleDevice kind).plain (b.throttleDevice kind)

/-- `json.NewDecoder(f).Decode(&r)`.  A null in a map of strings is stored as the
empty string. -/
def Doc.decode (d : Doc) (r : LinuxResources) : LinuxResources where
  memory := d.memory.object MemoryDoc.decode {} r.memory
  cpu := d.cpu.object CPUDoc.decode {} r.cpu
  pids := d.pids.object PidsDoc.decode {} r.pids
  blockIO := d.blockIO.object BlockIODoc.decode {} r.blockIO
  unified :=
    (match d.unified with
    | .absent => r.unified
    | .null => fun _ => none
    | .value m => fun key => (m key).map (·.getD []))

structure Flags where
  blkioWeight : Int := 0
  cpusetCpus : Text := []
  cpusetMems : Text := []
  cpuIdle : Text := []
  cpuBurst : Text := []
  cpuPeriod : Text := []
  cpuRtPeriod : Text := []
  cpuShare : Text := []
  cpuQuota : Text := []
  cpuRtRuntime : Text := []
  memory : Text := []
  memorySwap : Text := []
  kernelMemory : Text := []
  kernelMemoryTCP : Text := []
  memoryReservation : Text := []
  pidsLimit : Option Int := none

def parseOption {α : Type} (opt : String) (parse : Text → Except String α) (val : Text) :
    Except Err (Option α) :=
  if val = [] then .ok none
  else
    match parse val with
    | .ok v => .ok (some v)
    | .error err => .error (.invalidValue opt err)

def Host.parseMemory (host : Host) (val : Text) : Except String Int :=
  if val ≠ ['-', '1'] then host.ramInBytes val else .ok (-1)

def uint16 (n : Int) : Nat :=
  (n % 65536).toNat

def Flags.resources (host : Host) (f : Flags) : Except Err LinuxResources := do
  let idle ← parseOption "cpu-idle" host.parseInt f.cpuIdle
  let burst ← parseOption "cpu-burst" host.parseUint f.cpuBurst
  let period ← parseOption "cpu-period" host.parseUint f.cpuPeriod
  let realtimePeriod ← parseOption "cpu-rt-period" host.parseUint f.cpuRtPeriod
  let shares ← parseOption "cpu-share" host.parseUint f.cpuShare
  let quota ← parseOption "cpu-quota" host.parseInt f.cpuQuota
  let realtimeRuntime ← parseOption "cpu-rt-runtime" host.parseInt f.cpuRtRuntime
  let limit ← parseOption "memory" host.parseMemory f.memory
  let swap ← parseOption "memory-swap" host.parseMemory f.memorySwap
  let _ ← parseOption "kernel-memory" host.parseMemory f.kernelMemory
  let _ ← parseOption "kernel-memory-tcp" host.parseMemory f.kernelMemoryTCP
  let reservation ← parseOption "memory-reservation" host.parseMemory f.memoryReservation
  return {
    memory := some {
      limit := limit, swap := swap, reservation := reservation
      checkBeforeUpdate := some false }
    cpu := some {
      cpus := f.cpusetCpus, mems := f.cpusetMems, idle := idle, burst := burst
      period := period, realtimePeriod := realtimePeriod, shares := shares
      quota := quota, realtimeRuntime := realtimeRuntime }
    pids := some { limit := f.pidsLimit }
    blockIO := some {
      weight := if f.blkioWeight ≠ 0 then some (uint16 f.blkioWeight) else none } }

inductive Source
  | flags (f : Flags)
  | file (doc : Except String Doc)

def Source.resources (host : Host) : Source → Except Err LinuxResources
  | .flags f => f.resources host
  | .file (.ok doc) => .ok (doc.decode .initial)
  | .file (.error err) => .error (.text err)

def LinuxMemory.fixUp (m : LinuxMemory) : LinuxMemory :=
  if m.limit = some (-1) ∧ m.swap = none then { m with swap := some 0 } else m

def LinuxCPU.fixUp (c : LinuxCPU) : LinuxCPU :=
  if c.idle.isSome ∧ c.shares = none then { c with shares := some 0 } else c

def upsertWeightDevice (devices : List WeightDevice) (wd : LinuxWeightDevice) :
    List WeightDevice :=
  Lib.upsert WeightDevice.device wd.device
    (fun dev =>
      { dev with
        weight := wd.weight.getD dev.weight
        leafWeight := wd.leafWeight.getD dev.leafWeight })
    { device := wd.device
      weight := wd.weight.getD 0
      leafWeight := wd.leafWeight.getD 0 }
    devices

def upsertThrottleDevice (devices : List ThrottleDevice) (td : LinuxThrottleDevice) :
    List ThrottleDevice :=
  Lib.upsert ThrottleDevice.device td.device
    (fun dev => { dev with rate := td.rate })
    { device := td.device, rate := td.rate }
    devices

def updateBlockIO (b : LinuxBlockIO) (res : Resources) : Resources :=
  { res with
    blkioWeight := b.weight.getD res.blkioWeight
    blkioLeafWeight := b.leafWeight.getD res.blkioLeafWeight
    blkioWeightDevice := b.weightDevice.foldl upsertWeightDevice res.blkioWeightDevice
    blkioThrottleDevice := fun kind =>
      (b.throttleDevice kind).foldl upsertThrottleDevice (res.blkioThrottleDevice kind) }

def updatePeriodQuota (c : LinuxCPU) (res : Resources) : Resources :=
  let p := c.period.getD 0
  let q := c.quota.getD 0
  if (p = 0 ∧ q = 0) ∨ (p ≠ 0 ∧ q ≠ 0) then
    { res with cpuPeriod := p, cpuQuota := q }
  else if p ≠ 0 then { res with cpuPeriod := p }
  else if q ≠ 0 then { res with cpuQuota := q }
  else res

def updateShares (host : Host) (c : LinuxCPU) (res : Resources) : Resources :=
  match c.shares with
  | none => res
  | some shares =>
      { res with
        cpuShares := shares
        cpuWeight := host.convertCPUSharesToCgroupV2Value shares }

def updateCPU (host : Host) (c : LinuxCPU) (res : Resources) : Resources :=
  { updateShares host c (updatePeriodQuota c res) with
    cpuBurst := c.burst
    cpuRtPeriod := c.realtimePeriod.getD res.cpuRtPeriod
    cpuRtRuntime := c.realtimeRuntime.getD res.cpuRtRuntime
    cpusetCpus := c.cpus
    cpusetMems := c.mems
    cpuIdle := c.idle }

def updateMemory (m : LinuxMemory) (res : Resources) : Resources :=
  { res with
    memory := m.limit.getD res.memory
    memoryReservation := m.reservation.getD res.memoryReservation
    memorySwap := m.swap.getD res.memorySwap
    memoryCheckBeforeUpdate :=
      m.checkBeforeUpdate.getD res.memoryCheckBeforeUpdate }

def updatePids (p : LinuxPids) (unified : Text → Option Text) (res : Resources) : Resources :=
  { res with pidsLimit := p.limit, unified := unified }

end Runc.Update
