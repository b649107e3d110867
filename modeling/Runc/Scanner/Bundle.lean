import Runc.Lib.Text

/-!
# The bundle a security scan works on

The parts of the OCI spec that `--security-scan` reads or writes, and the files
of the bundle directory.  Members of the spec that no step of the scanner looks
at are kept together as `other`.
-/

namespace Runc.Scanner

open Lib

structure LinuxCapabilities where
  bounding : List Text := []
  effective : List Text := []
  permitted : List Text := []
  inheritable : List Text := []
  ambient : List Text := []
deriving DecidableEq, Repr

def LinuxCapabilities.sets (caps : LinuxCapabilities) : List (List Text) :=
  [caps.bounding, caps.effective, caps.permitted, caps.inheritable,
    caps.ambient]

def LinuxCapabilities.all (names : List Text) : LinuxCapabilities :=
  ⟨names, names, names, names, names⟩

structure Process where
  terminal : Bool := false
  uid : Nat := 0
  capabilities : Option LinuxCapabilities := none
  apparmorProfile : Text := []
  selinuxLabel : Text := []
  noNewPrivileges : Bool := false
  other : List (Text × Text) := []
deriving DecidableEq, Repr

structure LinuxSeccomp where
  defaultAction : Text
  other : List (Text × Text) := []
deriving DecidableEq, Repr

structure Linux where
  seccomp : Option LinuxSeccomp := none
  other : List (Text × Text) := []
deriving DecidableEq, Repr

inductive ScanCommand where
  | scanAALoad
  | scanAAUnload
  | scanCapSnapshot
  | scanCapTraceStart
  | scanCapTraceStop
deriving DecidableEq, Repr

inductive Hook where
  | external (path : Text) (args : List Text)
  | self (bin : Text) (command : ScanCommand)
deriving DecidableEq, Repr

structure Hooks where
  prestart : List Hook := []
  createRuntime : List Hook := []
  poststart : List Hook := []
  poststop : List Hook := []
  other : List (Text × Text) := []
deriving DecidableEq, Repr

structure Spec where
  process : Option Process := none
  linux : Option Linux := none
  hooks : Option Hooks := none
  annotations : List (Text × Text) := []
  other : List (Text × Text) := []
deriving DecidableEq, Repr

inductive ConfigJson where
  | marshalled (spec : Spec)
  | other (raw : Text) (decoded : Except String Spec)
deriving DecidableEq, Repr

def ConfigJson.unmarshal : ConfigJson → Except String Spec
  | .marshalled spec => .ok spec
  | .other _ decoded => decoded

structure SeccompJson where
  raw : Text
  decoded : Except String LinuxSeccomp
deriving DecidableEq, Repr

structure Bundle where
  dir : String
  config : Option ConfigJson := none
  specOriginal : Option ConfigJson := none
  seccompJson : Option SeccompJson := none
  capTraceLog : Option Text := none
  apparmorProfile : Option Text := none
deriving DecidableEq, Repr

def Bundle.spec (b : Bundle) : Option Spec :=
  b.config.bind (fun config => config.unmarshal.toOption)

/-- `filepath.Join(bundleDir, "generated", file)`. -/
def genPath (dir file : String) : String :=
  dir ++ "/generated/" ++ file

/-- `filepath.Join(bundleDir, specConfig)`. -/
def cfgPath (dir : String) : String :=
  dir ++ "/config.json"

abbrev Fault := Option String

def Fault.check (fault : Fault) (context : String) : Except String Unit :=
  match fault with
  | none => .ok ()
  | some err => .error (context ++ err)

@[simp]
theorem Fault.check_none (context : String) : Fault.check none context = .ok () :=
  rfl

end Runc.Scanner
