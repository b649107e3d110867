import Runc.Configs.Namespaces
import Runc.Lib.Utf8
import Runc.Specconv.Labels

/-!
# The configuration of a spec

`CreateLibcontainerConfig` with the package-level table of default devices. The devices
of a configuration are pointers; those of default devices point into the table.

The conversions that read the options and the spec only, and write members that no
other step reads, are parameters (`Convert`).
-/

namespace Runc.Specconv

open Lib
open Bootstrap (NamespaceType IDMap)
open Configs (Namespace Namespaces)

/-- `devices.Type`. -/
inductive DeviceType
  | wildcard
  | block
  | char
  | fifo
deriving DecidableEq, Inhabited

def wildcard : Int := -1

structure Rule where
  type : DeviceType
  major : Int
  minor : Int
  permissions : Text := []
  allow : Bool := false
deriving DecidableEq, Inhabited

structure Device where
  rule : Rule
  path : Text := []
  fileMode : Nat := 0
  uid : Nat := 0
  gid : Nat := 0
deriving DecidableEq, Inhabited

def ruleOnly (type : DeviceType) (major minor : Int) (permissions : Text) : Device where
  rule := { type, major, minor, permissions, allow := true }

def charNode (path : String) (major minor : Int) : Device where
  rule := { type := .char, major, minor, permissions := ['r', 'w', 'm'], allow := true }
  path := path.toList
  fileMode := 0o666

abbrev Table := List Device

def allowedDevices : Table :=
  [ruleOnly .char wildcard wildcard ['m'],
    ruleOnly .block wildcard wildcard ['m'],
    charNode "/dev/null" 1 3,
    charNode "/dev/random" 1 8,
    charNode "/dev/full" 1 7,
    charNode "/dev/tty" 5 0,
    charNode "/dev/zero" 1 5,
    charNode "/dev/urandom" 1 9,
    ruleOnly .char 136 wildcard ['r', 'w', 'm'],
    ruleOnly .char 5 2 ['r', 'w', 'm'],
    ruleOnly .char 10 200 ['r', 'w', 'm']]

inductive DevicePtr
  | allowed (i : Nat)
  | own (device : Device)
deriving DecidableEq

def DevicePtr.load (table : Table) : DevicePtr → Device
  | .allowed i => table.getD i default
  | .own device => device

/-- `specs.LinuxDevice`. -/
structure SpecDevice where
  path : Text
  type : Text
  major : Int
  minor : Int
  fileMode : Option Nat := none
  uid : Option Nat := none
  gid : Option Nat := none

/-- `specs.LinuxDeviceCgroup`. -/
structure SpecRule where
  allow : Bool
  type : Text := []
  major : Option Int := none
  minor : Option Int := none
  access : Text

/-- `specs.LinuxNamespace`. -/
structure SpecNamespace where
  type : Text
  path : Text := []

structure Linux where
  namespaces : List SpecNamespace := []
  devices : List SpecDevice := []
  deviceRules : List SpecRule := []
  uidMappings : Option (List IDMap) := none
  gidMappings : Option (List IDMap) := none

/-- `CreateOpts` with its spec; `σ` stands for what only the conversions read.  The
annotations stand in the order in which they are ranged over. -/
structure Opts (σ : Type) where
  root : Option (Text × Bool)
  hostname : Text := []
  domainname : Text := []
  annotations : List StringEntry := []
  mounts : List σ := []
  linux : Option Linux := none
  processUid : Option Nat := none
  noPivotRoot : Bool := false
  noNewKeyring : Bool := false
  rootlessEUID : Bool := false
  rootlessCgroups : Bool := false
  rest : σ

structure Host where
  getwd : Except Text Text
  getUserNamespaceMappings : Text → Except Text (List IDMap × List IDMap)
  maxInt : Int := 9223372036854775807

structure MountIDMapping where
  uidMappings : Option (List IDMap) := none
  gidMappings : Option (List IDMap) := none
  userNSPath : Text := []

structure Mount (ρ : Type) where
  source : Text
  destination : Text
  readonly : Bool
  idMapping : Option MountIDMapping
  rest : ρ

/-- `configs.Config`, with the devices that its pointers show when it is returned;
`ρ` stands for what the conversions give. -/
structure Config (ρ : Type) where
  rootfs : Text
  readonlyfs : Bool
  hostname : Text
  domainname : Text
  labels : List Text
  noPivotRoot : Bool
  noNewKeyring : Bool
  rootlessEUID : Bool
  rootlessCgroups : Bool
  mounts : List (Mount ρ)
  devices : List Device
  cgroup : ρ
  deviceRules : List Rule
  ownerUID : Option Int
  rootPropagation : Option ρ
  namespaces : Namespaces
  loopback : Bool
  uidMappings : Option (List IDMap)
  gidMappings : Option (List IDMap)
  linux : Option ρ
  process : ρ

structure Convert (σ ρ : Type) where
  createLibcontainerMount : Text → σ → Except Text (Mount ρ)
  createCgroupConfig : Opts σ → Except Text ρ
  rootPropagation : Opts σ → Except Text ρ
  linux : Opts σ → Except Text ρ
  process : Opts σ → Except Text ρ
  join : Text → Text → Text
  clean : Text → Text

inductive ConfigErr
  | conversion (err : Text)
  | noRoot
  | deviceType (s : Text)
  | deviceAccess (i : Nat)
  | cgroupDeviceType (s : Text)
  | unknownNamespace (ns : SpecNamespace)
  | duplicateNamespace (ns : SpecNamespace)
  | usernsMappings (err : Text)
  | usernsMismatch
  | noMap (gid : Bool)
  | unmapped (gid : Bool) (id : Int)
  | tooLarge (gid : Bool) (id hostID maxInt : Int)

def idName (gid : Bool) : Text :=
  if gid then "gid".toList else "uid".toList

/-- `%d`. -/
def decimal (n : Int) : Text :=
  (toString n).toList

/-- `%q` of a namespace. -/
def SpecNamespace.quoted (unicode : Unicode) (ns : SpecNamespace) : Text :=
  ['{'] ++ quote unicode ns.type ++ [' '] ++ quote unicode ns.path ++ ['}']

def ConfigErr.error (unicode : Unicode) : ConfigErr → Text
  | .conversion err => err
  | .noRoot => "root must be specified".toList
  | .deviceType s => "invalid device type ".toList ++ quote unicode s
  | .deviceAccess i =>
      "device access at ".toList ++ decimal i ++ " field cannot be empty".toList
  | .cgroupDeviceType s => "invalid cgroup device type ".toList ++ quote unicode s
  | .unknownNamespace ns =>
      "namespace ".toList ++ ns.quoted unicode ++ " does not exist".toList
  | .duplicateNamespace ns =>
      "malformed spec file: duplicated ns ".toList ++ ns.quoted unicode
  | .usernsMappings err => "failed to cache mappings for userns: ".toList ++ err
  | .usernsMismatch =>
      "user namespaces enabled, but both namespace path and non-matching mapping specified -- you may only provide one".toList
  | .noMap gid =>
      "user namespaces enabled, but no ".toList ++ idName gid ++ " mappings found".toList
  | .unmapped gid id =>
      "user namespaces enabled, but no mapping found for ".toList ++ idName gid ++
        [' '] ++ decimal id
  | .tooLarge gid id hostID maxInt =>
      "mapping for ".toList ++ idName gid ++ [' '] ++ decimal id ++ " (host id ".toList ++
        decimal hostID ++ ") is larger than native integer size (".toList ++
        decimal maxInt ++ [')']

def stringToDeviceRune (s : Text) : Except ConfigErr DeviceType :=
  if s = ['p'] then .ok .fifo
  else if s = ['u'] ∨ s = ['c'] then .ok .char
  else if s = ['b'] then .ok .block
  else .error (.deviceType s)

def stringToCgroupDeviceRune (s : Text) : Except ConfigErr DeviceType :=
  if s = ['a'] then .ok .wildcard
  else if s = ['b'] then .ok .block
  else if s = ['c'] then .ok .char
  else .error (.cgroupDeviceType s)

def sIfmt : Nat := 0o170000

def specDevice (d : SpecDevice) : Except ConfigErr DevicePtr := do
  let type ← stringToDeviceRune d.type
  let fileMode :=
    match d.fileMode with
    | none => 0o666
    | some mode => mode ^^^ (mode &&& sIfmt)
  return .own
    { rule := { type, major := d.major, minor := d.minor }
      path := d.path, fileMode, uid := d.uid.getD 0, gid := d.gid.getD 0 }

def listed (linux : Option Linux) (path : Text) : Bool :=
  linux.any fun linux => linux.devices.any (·.path = path)

def keeps (linux : Option Linux) (ad : Device) : Bool :=
  ad.path = [] || !listed linux ad.path

def dedupedAllowDevs (linux : Option Linux) (table : Table) : List Nat :=
  (List.range table.length).filter fun i => keeps linux (table.getD i default)

def defaultNodes (linux : Option Linux) (table : Table) : List DevicePtr :=
  ((dedupedAllowDevs linux table).filter
    fun i => (table.getD i default).path ≠ []).map .allowed

structure Defaults where
  nodes : List DevicePtr
  rules : List Rule

def defaults (linux : Option Linux) (table : Table) : Defaults where
  nodes := defaultNodes linux table
  rules := (dedupedAllowDevs linux table).map fun i => (table.getD i default).rule

def createDevices (linux : Option Linux) (defaults : Defaults) :
    Except ConfigErr (List DevicePtr) := do
  let specified ← (linux.elim [] (·.devices)).mapM specDevice
  return defaults.nodes ++ specified

def specRule (i : Nat) (d : SpecRule) : Except ConfigErr Rule := do
  if d.access = [] then
    throw (.deviceAccess i)
  let type ← stringToCgroupDeviceRune (if d.type = [] then ['a'] else d.type)
  return { type, major := d.major.getD (-1), minor := d.minor.getD (-1)
           permissions := d.access, allow := d.allow }

def deviceRules (linux : Option Linux) (defaults : Defaults) :
    Except ConfigErr (List Rule) := do
  let specified ← (linux.elim [] (·.deviceRules)).zipIdx.mapM fun d => specRule d.2 d.1
  return specified ++ defaults.rules

def namespaceMapping (type : Text) : Option NamespaceType :=
  [("pid".toList, .newPid), ("network".toList, .newNet), ("mount".toList, .newNs),
    ("user".toList, .newUser), ("ipc".toList, .newIpc), ("uts".toList, .newUts),
    ("cgroup".toList, .newCgroup), ("time".toList, NamespaceType.newTime)].lookup type

def addNamespaces : Namespaces → List SpecNamespace → Except ConfigErr Namespaces
  | added, [] => .ok added
  | added, ns :: rest =>
      match namespaceMapping ns.type with
      | none => .error (.unknownNamespace ns)
      | some t =>
          if added.contains t then .error (.duplicateNamespace ns)
          else addNamespaces (added ++ [{ type := t, path := ns.path }]) rest

def hostIDFromMapping (containerID : Int) (maps : List IDMap) : Option Int :=
  (maps.find? fun m =>
      m.containerID ≤ containerID ∧ containerID ≤ m.containerID + m.size - 1).map
    fun m => m.hostID + (containerID - m.containerID)

/-- `HostUID` and `HostGID`. -/
def hostID (host : Host) (gid : Bool) (namespaces : Namespaces)
    (maps : Option (List IDMap)) (containerID : Int) : Except ConfigErr Int :=
  if namespaces.contains .newUser then
    if maps.getD [] = [] then .error (.noMap gid)
    else
      match hostIDFromMapping containerID (maps.getD []) with
      | none => .error (.unmapped gid containerID)
      | some id =>
          if id > host.maxInt then .error (.tooLarge gid containerID id host.maxInt)
          else .ok id
  else .ok containerID

def usernsMaps (host : Host) (linux : Linux) (namespaces : Namespaces) :
    Except ConfigErr (Option (List IDMap) × Option (List IDMap)) :=
  let path := namespaces.pathOf .newUser
  if path = [] then .ok (linux.uidMappings, linux.gidMappings)
  else
    match host.getUserNamespaceMappings path with
    | .error err => .error (.usernsMappings err)
    | .ok (uidMap, gidMap) =>
        if (linux.uidMappings.isSome ∨ linux.gidMappings.isSome) ∧
            ¬ (uidMap = linux.uidMappings.getD [] ∧ gidMap = linux.gidMappings.getD []) then
          .error .usernsMismatch
        else .ok (some uidMap, some gidMap)

def uint32 (n : Int) : Nat :=
  (n % 4294967296).toNat

structure UserNamespace where
  uidMappings : Option (List IDMap) := none
  gidMappings : Option (List IDMap) := none
  owner : Option (Nat × Nat) := none

def setupUserNamespace (host : Host) (linux : Linux) (namespaces : Namespaces) :
    Except ConfigErr UserNamespace := do
  let maps ← usernsMaps host linux namespaces
  let rootUID ← hostID host false namespaces maps.1 0
  let rootGID ← hostID host true namespaces maps.2 0
  return { uidMappings := maps.1, gidMappings := maps.2
           owner := some (uint32 rootUID, uint32 rootGID) }

def DevicePtr.chown (owner : Nat × Nat) : DevicePtr → DevicePtr
  | .own device => .own { device with uid := owner.1, gid := owner.2 }
  | .allowed i => .allowed i

def chownTable (owner : Nat × Nat) (devices : List DevicePtr) (table : Table) : Table :=
  table.mapIdx fun i device =>
    if .allowed i ∈ devices then { device with uid := owner.1, gid := owner.2 }
    else device

def Mount.idmapped {ρ : Type} (namespaces : Namespaces) (userns : UserNamespace)
    (m : Mount ρ) : Mount ρ :=
  match m.idMapping with
  | none => m
  | some mapping =>
      if mapping.uidMappings = none ∧ mapping.gidMappings = none then
        let path := namespaces.pathOf .newUser
        if path ≠ [] then { m with idMapping := some { mapping with userNSPath := path } }
        else
          { m with idMapping := some { mapping with
              uidMappings := userns.uidMappings, gidMappings := userns.gidMappings } }
      else m

section Create

variable {σ ρ : Type} (conv : Convert σ ρ) (host : Host) (opts : Opts σ)

structure Draft (ρ : Type) where
  rootfs : Text
  readonlyfs : Bool
  labels : List Text
  mounts : List (Mount ρ)
  devices : List DevicePtr
  cgroup : ρ
  deviceRules : List Rule
  rootPropagation : Option ρ
  namespaces : Namespaces
  userns : UserNamespace

def converted {α : Type} : Except Text α → Except ConfigErr α
  | .ok a => .ok a
  | .error err => .error (.conversion err)

def linuxNamespaces : Except ConfigErr (Option ρ × Namespaces × UserNamespace) :=
  match opts.linux with
  | none => .ok (none, [], {})
  | some linux => do
      let rootPropagation ← converted (conv.rootPropagation opts)
      let namespaces ← addNamespaces [] linux.namespaces
      let userns ←
        if namespaces.contains .newUser then setupUserNamespace host linux namespaces
        else .ok {}
      return (some rootPropagation, namespaces, userns)

/-- `spec.Root`. -/
def specRoot : Except ConfigErr (Text × Bool) :=
  match opts.root with
  | none => .error .noRoot
  | some root => .ok root

/-- `CreateLibcontainerConfig` up to the owners of the devices. -/
def draft (defaults : Defaults) : Except ConfigErr (Draft ρ) := do
  let cwd ← converted host.getwd
  let root ← specRoot opts
  let rootfs := if root.1.head? = some '/' then root.1 else conv.join cwd root.1
  let mounts ← converted (opts.mounts.mapM (conv.createLibcontainerMount cwd))
  let devices ← createDevices opts.linux defaults
  let cgroup ← converted (conv.createCgroupConfig opts)
  let deviceRules ← deviceRules opts.linux defaults
  let (rootPropagation, namespaces, userns) ← linuxNamespaces conv host opts
  return {
    rootfs, readonlyfs := root.2, labels := labels opts.annotations cwd, mounts, devices,
    cgroup, deviceRules, rootPropagation, namespaces, userns }

def ownerUID (d : Draft ρ) (mounts : List (Mount ρ)) : Option Int :=
  let hasRwCgroupfs := mounts.any fun m =>
    m.source = "cgroup".toList ∧ conv.clean m.destination = "/sys/fs/cgroup".toList ∧
      m.readonly = false
  if d.namespaces.isPrivate .newCgroup ∧ hasRwCgroupfs then
    (hostID host false d.namespaces d.userns.uidMappings (opts.processUid.getD 0)).toOption
  else none

def linuxRest : Except ConfigErr (Option ρ) :=
  match opts.linux with
  | none => .ok none
  | some _ => some <$> converted (conv.linux opts)

def complete (d : Draft ρ) (devices : List Device) : Except ConfigErr (Config ρ) := do
  let mounts :=
    if d.namespaces.contains .newUser then d.mounts.map (·.idmapped d.namespaces d.userns)
    else d.mounts
  let linux ← linuxRest conv opts
  let process ← converted (conv.process opts)
  return {
    rootfs := d.rootfs, readonlyfs := d.readonlyfs, hostname := opts.hostname,
    domainname := opts.domainname, labels := d.labels, noPivotRoot := opts.noPivotRoot,
    noNewKeyring := opts.noNewKeyring, rootlessEUID := opts.rootlessEUID,
    rootlessCgroups := opts.rootlessCgroups, mounts, devices, cgroup := d.cgroup,
    deviceRules := d.deviceRules, ownerUID := ownerUID conv host opts d mounts,
    rootPropagation := d.rootPropagation, namespaces := d.namespaces,
    loopback := d.namespaces.isPrivate .newNet, uidMappings := d.userns.uidMappings,
    gidMappings := d.userns.gidMappings, linux, process }

/-- Its result, and the table that it leaves. -/
def createLibcontainerConfig (table : Table) : Except ConfigErr (Config ρ) × Table :=
  match draft conv host opts (defaults opts.linux table) with
  | .error err => (.error err, table)
  | .ok d =>
      match d.userns.owner with
      | none => (complete conv host opts d (d.devices.map (·.load table)), table)
      | some owner =>
          let table := chownTable owner d.devices table
          let devices := d.devices.map (·.chown owner)
          (complete conv host opts d (devices.map (·.load table)), table)

end Create

end Runc.Specconv
