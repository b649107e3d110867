import Runc.Lib.Bytes

/-!
# The bootstrap message

`bootstrapData` packs what `nsexec` has to know into a netlink message: a
header of 16 bytes and a list of attributes, each with its own header and
padded to four bytes.  Words are in the byte order of the host.
-/

namespace Runc.Bootstrap

open Lib

abbrev Bytes := List UInt8

def ascii (s : String) : Bytes :=
  s.toList.map fun c => UInt8.ofNat c.toNat

/-- `%d`. -/
def decimal (n : Int) : Bytes :=
  ascii (toString n)

/-- The type is a string in the source. -/
inductive NamespaceType
  | newNet
  | newPid
  | newNs
  | newUts
  | newIpc
  | newUser
  | newCgroup
  | newTime
  | other (name : String)
deriving DecidableEq

def nsName : NamespaceType → Bytes
  | .newNet => ascii "net"
  | .newNs => ascii "mnt"
  | .newPid => ascii "pid"
  | .newIpc => ascii "ipc"
  | .newUser => ascii "user"
  | .newUts => ascii "uts"
  | .newCgroup => ascii "cgroup"
  | .newTime => ascii "time"
  | .other _ => []

def namespaceTypes : List NamespaceType :=
  [.newUser, .newIpc, .newUts, .newNet, .newPid, .newNs, .newCgroup, .newTime]

structure Namespace where
  type : NamespaceType
  path : Bytes
deriving DecidableEq

/-- `map[configs.NamespaceType]string`; the first entry for a key counts. -/
abbrev NsMap := List (NamespaceType × Bytes)

def NsMap.get (m : NsMap) (ns : NamespaceType) : Option Bytes :=
  (m.find? (·.1 = ns)).map Prod.snd

structure IDMap where
  containerID : Int
  hostID : Int
  size : Int
deriving DecidableEq

structure TimeOffset where
  clock : Bytes
  secs : Int
  nanosecs : Nat

structure Config where
  namespaces : List Namespace := []
  uidMappings : List IDMap := []
  gidMappings : List IDMap := []
  rootlessEUID : Bool := false
  oomScoreAdj : Option Int := none
  timeOffsets : Option (List TimeOffset) := none

def Config.contains (config : Config) (ns : NamespaceType) : Bool :=
  config.namespaces.any (·.type = ns)

def pathMax : Nat := 4096

/-- What the message depends on beside the configuration.  A path that
`os.Lstat` finds is shorter than `PATH_MAX` and has no zero byte. -/
structure Host where
  endian : Endian := .little
  seq : Nat := 1
  egid : Int := 0
  supported : NamespaceType → Bool := fun _ => true
  lstat : Bytes → Option String
  newuidmap : Option Bytes := none
  newgidmap : Option Bytes := none
  lstat_ok : ∀ p, lstat p = none → p.length < pathMax ∧ 0 ∉ p

inductive BootErr
  | unsupported (ns : NamespaceType)
  | namespacePath (err : String)
  | invalidPath (path : Bytes)
  | tooLong (len : Nat)
deriving DecidableEq

def colon : UInt8 := 58
def comma : UInt8 := 44
def newline : UInt8 := 10
def blank : UInt8 := 32

def namespaceItem (host : Host) (config : Config) (nsMaps : NsMap)
    (ns : NamespaceType) : Except BootErr (Option Bytes) :=
  if !config.contains ns then .ok none
  else
    match nsMaps.get ns with
    | none => .ok none
    | some p =>
        if p = [] then .ok none
        else if !host.supported ns then .error (.unsupported ns)
        else
          match host.lstat p with
          | some err => .error (.namespacePath err)
          | none =>
              if comma ∈ p then .error (.invalidPath p)
              else .ok (some (nsName ns ++ colon :: p))

def orderFrom (host : Host) (config : Config) (nsMaps : NsMap) :
    List NamespaceType → Except BootErr (List Bytes)
  | [] => .ok []
  | ns :: rest =>
      match namespaceItem host config nsMaps ns with
      | .error e => .error e
      | .ok none => orderFrom host config nsMaps rest
      | .ok (some item) =>
          match orderFrom host config nsMaps rest with
          | .error e => .error e
          | .ok items => .ok (item :: items)

def orderNamespacePaths (host : Host) (config : Config) (nsMaps : NsMap) :
    Except BootErr (List Bytes) :=
  orderFrom host config nsMaps namespaceTypes

def cloneFlagsAttr : Nat := 27281
def nsPathsAttr : Nat := 27282
def uidmapAttr : Nat := 27283
def gidmapAttr : Nat := 27284
def setgroupAttr : Nat := 27285
def oomScoreAdjAttr : Nat := 27286
def rootlessEUIDAttr : Nat := 27287
def uidmapPathAttr : Nat := 27288
def gidmapPathAttr : Nat := 27289
def timeOffsetsAttr : Nat := 27290

def initMsg : Nat := 62000

def nlaHdrlen : Nat := 4

def nlaAlign (n : Nat) : Nat :=
  (n + 3) / 4 * 4

inductive Attr
  | int32msg (type value : Nat)
  | bytemsg (type : Nat) (value : Bytes)
  | boolmsg (type : Nat) (value : Bool)
deriving DecidableEq

def Attr.serialize (e : Endian) : Attr → Except BootErr Bytes
  | .int32msg type value =>
      .ok (e.put 2 (nlaHdrlen + 4) ++ e.put 2 type ++ e.put 4 value)
  | .bytemsg type value =>
      -- the length counts the zero byte at the end
      let l := nlaHdrlen + value.length + 1
      if l > 65535 then .error (.tooLong l)
      else
        .ok (e.put 2 l ++ e.put 2 type ++ value ++
          List.replicate (nlaAlign l - nlaHdrlen - value.length) 0)
  | .boolmsg type value =>
      .ok (e.put 2 (nlaHdrlen + 4) ++ e.put 2 type ++
        e.put 4 (if value then 1 else 0))

def encodeIDMapping (idMap : List IDMap) : Bytes :=
  idMap.flatMap fun im =>
    decimal im.containerID ++ blank :: decimal im.hostID ++ blank ::
      decimal im.size ++ [newline]

def requiresRootOrMappingTool (host : Host) (config : Config) : Bool :=
  config.gidMappings ≠ [{ containerID := 0, hostID := host.egid, size := 1 }]

def nsPathAttrs (host : Host) (config : Config) (nsMaps : NsMap) : Except BootErr (List Attr) :=
  if nsMaps.length > 0 then
    match orderNamespacePaths host config nsMaps with
    | .error e => .error e
    | .ok nsPaths => .ok [.bytemsg nsPathsAttr ([comma].intercalate nsPaths)]
  else .ok []

def toolAttrs (config : Config) (type : Nat) (tool : Option Bytes) : List Attr :=
  if config.rootlessEUID then
    match tool with
    | none => []
    | some path => [.bytemsg type path]
  else []

def uidmapAttrs (host : Host) (config : Config) : List Attr :=
  if config.uidMappings.length > 0 then
    toolAttrs config uidmapPathAttr host.newuidmap ++
      [.bytemsg uidmapAttr (encodeIDMapping config.uidMappings)]
  else []

def gidmapAttrs (host : Host) (config : Config) : List Attr :=
  if config.gidMappings.length > 0 then
    .bytemsg gidmapAttr (encodeIDMapping config.gidMappings) ::
      (toolAttrs config gidmapPathAttr host.newgidmap ++
        if requiresRootOrMappingTool host config then [.boolmsg setgroupAttr true]
        else [])
  else []

def idmapAttrs (host : Host) (config : Config) (nsMaps : NsMap) : List Attr :=
  if (nsMaps.get .newUser).isSome then []
  else uidmapAttrs host config ++ gidmapAttrs host config

def oomAttrs (config : Config) : List Attr :=
  match config.oomScoreAdj with
  | none => []
  | some n => [.bytemsg oomScoreAdjAttr (decimal n)]

def encodeTimeOffsets (offsets : List TimeOffset) : Bytes :=
  offsets.flatMap fun o =>
    o.clock ++ blank :: decimal o.secs ++ blank :: decimal o.nanosecs ++ [newline]

def timeAttrs (config : Config) (nsMaps : NsMap) : List Attr :=
  if (nsMaps.get .newTime).isSome then []
  else
    match config.timeOffsets with
    | none => []
    | some offsets => [.bytemsg timeOffsetsAttr (encodeTimeOffsets offsets)]

def attributes (host : Host) (config : Config) (cloneFlags : Nat)
    (nsMaps : NsMap) : Except BootErr (List Attr) :=
  match nsPathAttrs host config nsMaps with
  | .error e => .error e
  | .ok paths =>
      .ok (.int32msg cloneFlagsAttr cloneFlags ::
        (paths ++ (idmapAttrs host config nsMaps ++ (oomAttrs config ++
          .boolmsg rootlessEUIDAttr config.rootlessEUID ::
            timeAttrs config nsMaps))))

def serializeAll (e : Endian) : List Attr → Except BootErr Bytes
  | [] => .ok []
  | attr :: rest =>
      match attr.serialize e with
      | .error err => .error err
      | .ok bytes =>
          match serializeAll e rest with
          | .error err => .error err
          | .ok more => .ok (bytes ++ more)

def requestHeader (host : Host) (length : Nat) : Bytes :=
  host.endian.put 4 length ++ (host.endian.put 2 initMsg ++
    (host.endian.put 2 1 ++ (host.endian.put 4 host.seq ++ host.endian.put 4 0)))

/-- `NetlinkRequest.Serialize`. -/
def serializeRequest (host : Host) (attrs : List Attr) : Except BootErr Bytes :=
  match serializeAll host.endian attrs with
  | .error e => .error e
  | .ok data => .ok (requestHeader host (16 + data.length) ++ data)

def bootstrapData (host : Host) (config : Config) (cloneFlags : Nat)
    (nsMaps : NsMap) : Except BootErr Bytes :=
  match attributes host config cloneFlags nsMaps with
  | .error e => .error e
  | .ok attrs => serializeRequest host attrs

def initNsMaps (config : Config) : NsMap :=
  config.namespaces.foldl
    (fun m ns => if ns.path ≠ [] then (ns.type, ns.path) :: m else m) []

def getPath (pid : Int) (ns : NamespaceType) : Bytes :=
  ascii "/proc/" ++ decimal pid ++ ascii "/ns/" ++ nsName ns

def namespacePaths (host : Host) (config : Config) (pid : Int) : NsMap :=
  if pid > 0 then
    config.namespaces.map (fun ns => (ns.type, getPath pid ns.type)) ++
      ((namespaceTypes.filter fun ns => host.supported ns && !config.contains ns).map
        fun ns => (ns, getPath pid ns))
  else []

def namespaceInfo : NamespaceType → Nat
  | .newNet => 0x40000000
  | .newNs => 0x00020000
  | .newUser => 0x10000000
  | .newIpc => 0x08000000
  | .newUts => 0x04000000
  | .newPid => 0x20000000
  | .newCgroup => 0x02000000
  | .newTime => 0x00000080
  | .other _ => 0

def Config.cloneFlags (config : Config) : Nat :=
  config.namespaces.foldl
    (fun flag ns => if ns.path ≠ [] then flag else flag ||| namespaceInfo ns.type) 0

def initBootstrap (host : Host) (config : Config) : Except BootErr Bytes :=
  bootstrapData host config config.cloneFlags (initNsMaps config)

def setnsBootstrap (host : Host) (config : Config) (pid : Int) : Except BootErr Bytes :=
  bootstrapData host config 0 (namespacePaths host config pid)

end Runc.Bootstrap
