import Runc.Update.Command

/-!
# What a request supplies

The resource values of a saved configuration, each under a name of its own, and the
values that a request supplies for some of them. Null and absent members supply nothing.
The two fix-ups count as supplied.
-/

namespace Runc.Update

open Lib (Text overlay lastGiven)

inductive Value
  | memory
  | memoryReservation
  | memorySwap
  | memoryCheckBeforeUpdate
  | cpuShares
  | cpuWeight
  | cpuQuota
  | cpuPeriod
  | cpuBurst
  | cpuRtRuntime
  | cpuRtPeriod
  | cpusetCpus
  | cpusetMems
  | cpuIdle
  | pidsLimit
  | blkioWeight
  | blkioLeafWeight
  | weightDevice (dev : BlockIODevice)
  | leafWeightDevice (dev : BlockIODevice)
  | throttleDevice (kind : Throttle) (dev : BlockIODevice)
  | unified (key : Text)
  | unread (name : Unread)
  | l3CacheSchema
  | memBwSchema

def Value.Datum : Value → Type
  | .memory => Int
  | .memoryReservation => Int
  | .memorySwap => Int
  | .memoryCheckBeforeUpdate => Bool
  | .cpuShares => Nat
  | .cpuWeight => Nat
  | .cpuQuota => Int
  | .cpuPeriod => Nat
  | .cpuBurst => Option Nat
  | .cpuRtRuntime => Int
  | .cpuRtPeriod => Nat
  | .cpusetCpus => Text
  | .cpusetMems => Text
  | .cpuIdle => Option Int
  | .pidsLimit => Option Int
  | .blkioWeight => Int
  | .blkioLeafWeight => Nat
  | .weightDevice _ => Nat
  | .leafWeightDevice _ => Nat
  | .throttleDevice _ _ => Option Nat
  | .unified _ => Option Text
  | .unread _ => Text
  | .l3CacheSchema => Option Text
  | .memBwSchema => Option Text

abbrev Values := (v : Value) → v.Datum

def weightOf (devices : List WeightDevice) (dev : BlockIODevice) : Nat :=
  ((Lib.lookup WeightDevice.device dev devices).map (·.weight)).getD 0

def leafWeightOf (devices : List WeightDevice) (dev : BlockIODevice) : Nat :=
  ((Lib.lookup WeightDevice.device dev devices).map (·.leafWeight)).getD 0

def rateOf (devices : List ThrottleDevice) (dev : BlockIODevice) : Option Nat :=
  (Lib.lookup ThrottleDevice.device dev devices).map (·.rate)

def Saved.values (s : Saved) : Values
  | .memory => s.resources.memory
  | .memoryReservation => s.resources.memoryReservation
  | .memorySwap => s.resources.memorySwap
  | .memoryCheckBeforeUpdate => s.resources.memoryCheckBeforeUpdate
  | .cpuShares => s.resources.cpuShares
  | .cpuWeight => s.resources.cpuWeight
  | .cpuQuota => s.resources.cpuQuota
  | .cpuPeriod => s.resources.cpuPeriod
  | .cpuBurst => s.resources.cpuBurst
  | .cpuRtRuntime => s.resources.cpuRtRuntime
  | .cpuRtPeriod => s.resources.cpuRtPeriod
  | .cpusetCpus => s.resources.cpusetCpus
  | .cpusetMems => s.resources.cpusetMems
  | .cpuIdle => s.resources.cpuIdle
  | .pidsLimit => s.resources.pidsLimit
  | .blkioWeight => (s.resources.blkioWeight : Int)
  | .blkioLeafWeight => s.resources.blkioLeafWeight
  | .weightDevice dev => weightOf s.resources.blkioWeightDevice dev
  | .leafWeightDevice dev => leafWeightOf s.resources.blkioWeightDevice dev
  | .throttleDevice kind dev => rateOf (s.resources.blkioThrottleDevice kind) dev
  | .unified key => s.resources.unified key
  | .unread name => s.resources.unread name
  | .l3CacheSchema => s.intelRdt.map (·.l3CacheSchema)
  | .memBwSchema => s.intelRdt.map (·.memBwSchema)

structure Supplied where
  limit : Option Int := none
  reservation : Option Int := none
  swap : Option Int := none
  checkBeforeUpdate : Option Bool := none
  shares : Option Nat := none
  quota : Option Int := none
  burst : Option Nat := none
  period : Option Nat := none
  realtimeRuntime : Option Int := none
  realtimePeriod : Option Nat := none
  cpus : Option Text := none
  mems : Option Text := none
  idle : Option Int := none
  pidsLimit : Option Int := none
  weight : Option Int := none
  leafWeight : Option Nat := none
  weightDevice : List LinuxWeightDevice := []
  throttleDevice : Throttle → List LinuxThrottleDevice := fun _ => []
  unified : Text → Option Text := fun _ => none
  unread : Unread → Option Text := fun _ => none

def parsed {α : Type} (parse : Text → Except String α) (val : Text) : Option α :=
  if val = [] then none else (parse val).toOption

def Flags.supplied (host : Host) (f : Flags) : Supplied where
  limit := parsed host.parseMemory f.memory
  reservation := parsed host.parseMemory f.memoryReservation
  swap := parsed host.parseMemory f.memorySwap
  shares := parsed host.parseUint f.cpuShare
  quota := parsed host.parseInt f.cpuQuota
  burst := parsed host.parseUint f.cpuBurst
  period := parsed host.parseUint f.cpuPeriod
  realtimeRuntime := parsed host.parseInt f.cpuRtRuntime
  realtimePeriod := parsed host.parseUint f.cpuRtPeriod
  cpus := if f.cpusetCpus = [] then none else some f.cpusetCpus
  mems := if f.cpusetMems = [] then none else some f.cpusetMems
  idle := parsed host.parseInt f.cpuIdle
  pidsLimit := f.pidsLimit
  weight := if f.blkioWeight = 0 then none else some f.blkioWeight

def Member.given {α : Type} : Member α → Option α
  | .value a => some a
  | _ => none

def Doc.supplied (d : Doc) : Supplied where
  limit := d.memory.given.bind (·.limit.given)
  reservation := d.memory.given.bind (·.reservation.given)
  swap := d.memory.given.bind (·.swap.given)
  checkBeforeUpdate := d.memory.given.bind (·.checkBeforeUpdate.given)
  shares := d.cpu.given.bind (·.shares.given)
  quota := d.cpu.given.bind (·.quota.given)
  burst := d.cpu.given.bind (·.burst.given)
  period := d.cpu.given.bind (·.period.given)
  realtimeRuntime := d.cpu.given.bind (·.realtimeRuntime.given)
  realtimePeriod := d.cpu.given.bind (·.realtimePeriod.given)
  cpus := d.cpu.given.bind (·.cpus.given)
  mems := d.cpu.given.bind (·.mems.given)
  idle := d.cpu.given.bind (·.idle.given)
  pidsLimit := d.pids.given.bind (·.limit.given)
  weight := (d.blockIO.given.bind (·.weight.given)).map fun n : Nat => (n : Int)
  leafWeight := d.blockIO.given.bind (·.leafWeight.given)
  weightDevice := (d.blockIO.given.bind (·.weightDevice.given)).getD []
  throttleDevice kind := (d.blockIO.given.bind (·.throttleDevice kind |>.given)).getD []
  unified key := d.unified.given.bind fun m => (m key).join
  unread name := (d.unread name).given

def Source.supplied (host : Host) : Source → Supplied
  | .flags f => f.supplied host
  | .file (.ok doc) => doc.supplied
  | .file (.error _) => {}

def Supplied.fixedSwap (s : Supplied) : Option Int :=
  if s.limit = some (-1) ∧ s.swap = none then some 0 else s.swap

def Supplied.fixedShares (s : Supplied) : Option Nat :=
  if s.idle.isSome ∧ s.shares = none then some 0 else s.shares

def weightGiven (wd : LinuxWeightDevice) (dev : BlockIODevice) : Option Nat :=
  if dev = wd.device then wd.weight else none

def leafWeightGiven (wd : LinuxWeightDevice) (dev : BlockIODevice) : Option Nat :=
  if dev = wd.device then wd.leafWeight else none

def rateGiven (td : LinuxThrottleDevice) (dev : BlockIODevice) : Option (Option Nat) :=
  if dev = td.device then some (some td.rate) else none

def textGiven (val : Text) : Option (Option Text) :=
  if val = [] then none else some (some val)

def Request.supplied (host : Host) (req : Request) : (v : Value) → Option v.Datum :=
  let s := req.source.supplied host
  fun
  | .memory => s.limit
  | .memoryReservation => s.reservation
  | .memorySwap => s.fixedSwap
  | .memoryCheckBeforeUpdate => s.checkBeforeUpdate
  | .cpuShares => s.fixedShares
  | .cpuWeight => s.fixedShares.map host.convertCPUSharesToCgroupV2Value
  | .cpuQuota => s.quota
  | .cpuPeriod => s.period
  | .cpuBurst => s.burst.map some
  | .cpuRtRuntime => s.realtimeRuntime
  | .cpuRtPeriod => s.realtimePeriod
  | .cpusetCpus => s.cpus
  | .cpusetMems => s.mems
  | .cpuIdle => s.idle.map some
  | .pidsLimit => s.pidsLimit.map some
  | .blkioWeight => s.weight
  | .blkioLeafWeight => s.leafWeight
  | .weightDevice dev => lastGiven (s.weightDevice.map weightGiven) dev
  | .leafWeightDevice dev => lastGiven (s.weightDevice.map leafWeightGiven) dev
  | .throttleDevice kind dev => lastGiven ((s.throttleDevice kind).map rateGiven) dev
  | .unified key => (s.unified key).map some
  | .unread name => s.unread name
  | .l3CacheSchema => textGiven req.l3CacheSchema
  | .memBwSchema => textGiven req.memBwSchema

end Runc.Update
