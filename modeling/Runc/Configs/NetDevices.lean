import Runc.Configs.Namespaces
import Runc.Lib.Text

/-!
# Names of network devices

`netdevices` checks the names before the kernel does; its `devValidName` is made after
`dev_valid_name` of the kernel.
-/

namespace Runc.Configs

open Lib

def ifnamsiz : Nat := 16

def devValidName (name : Text) : Bool :=
  !(name.length = 0 ∨ name.length > ifnamsiz) && !(name = ".".toList ∨ name = "..".toList) &&
    !name.any ("/: ".toList.contains ·)

structure NetDevice where
  device : Text
  name : Text

structure NetConfig where
  netDevices : List NetDevice
  namespaces : Namespaces
  rootlessEUID : Bool
  rootlessCgroups : Bool

inductive NetDeviceError
  /-- `unable to move network devices without a NET namespace`. -/
  | noNetNamespace
  /-- `network devices are not supported for rootless containers`. -/
  | rootless
  /-- `invalid network device name %q`. -/
  | invalidName (name : Text)
deriving DecidableEq

def checkNames : List NetDevice → Except NetDeviceError Unit
  | [] => .ok ()
  | d :: rest =>
      if devValidName d.device = false then .error (.invalidName d.device)
      else if d.name ≠ [] ∧ devValidName d.name = false then .error (.invalidName d.name)
      else checkNames rest

def netdevices (config : NetConfig) : Except NetDeviceError Unit :=
  if config.netDevices.length = 0 then .ok ()
  else if !config.namespaces.contains .newNet then .error .noNetNamespace
  else if config.rootlessEUID || config.rootlessCgroups then .error .rootless
  else checkNames config.netDevices

def NetConfig.names (config : NetConfig) : List Text :=
  config.netDevices.flatMap fun d => if d.name = [] then [d.device] else [d.device, d.name]

/-- `isspace` of the kernel; its table has the blank of Latin-1 too. -/
def isspace (c : Char) : Bool :=
  9 ≤ c.toNat && c.toNat ≤ 13 || c = ' ' || c.toNat = 0xA0

/-- The names `dev_valid_name` accepts. -/
def DevValidName (name : Text) : Prop :=
  1 ≤ name.length ∧ name.length < ifnamsiz ∧ name ≠ ".".toList ∧ name ≠ "..".toList ∧
    ∀ c ∈ name, c ≠ '/' ∧ c ≠ ':' ∧ isspace c = false

theorem devValidName_iff {name : Text} (h : devValidName name = true) :
    DevValidName name ↔
      name.length ≠ ifnamsiz ∧ ∀ c ∈ name, isspace c = true → c = ' ' := by
  simp only [devValidName, Bool.and_eq_true, Bool.not_eq_true', decide_eq_false_iff_not, not_or,
    List.any_eq_false] at h
  obtain ⟨⟨⟨hne, hlen⟩, hdot, hdots⟩, hchars⟩ := h
  have hplain : ∀ c ∈ name, c ≠ '/' ∧ c ≠ ':' ∧ c ≠ ' ' := by
    intro c hc
    simpa using hchars c hc
  constructor
  · rintro ⟨-, hlt, -, -, hall⟩
    refine ⟨hlt.ne, fun c hc hspace => ?_⟩
    rw [(hall c hc).2.2] at hspace
    cases hspace
  · rintro ⟨hsize, hspaces⟩
    refine ⟨by omega, by omega, hdot, hdots, fun c hc => ?_⟩
    obtain ⟨hslash, hcolon, hblank⟩ := hplain c hc
    exact ⟨hslash, hcolon, Bool.eq_false_iff.mpr fun hspace => hblank (hspaces c hc hspace)⟩

theorem devValidName_of_checkNames {devices : List NetDevice} (h : checkNames devices = .ok ()) :
    ∀ d ∈ devices, devValidName d.device = true ∧ (d.name ≠ [] → devValidName d.name = true) := by
  induction devices with
  | nil => exact List.forall_mem_nil _
  | cons d rest ih =>
    rw [checkNames] at h
    split at h
    · cases h
    · rename_i hdevice
      split at h
      · cases h
      · rename_i hname
        refine List.forall_mem_cons.mpr ⟨⟨?_, fun hne => ?_⟩, ih h⟩
        · simpa using hdevice
        · simpa [hne] using hname

theorem devValidName_of_netdevices {config : NetConfig} (h : netdevices config = .ok ()) :
    ∀ name ∈ config.names, devValidName name = true := by
  have hloop : checkNames config.netDevices = .ok () := by
    unfold netdevices at h
    split at h
    · rename_i hnil
      rw [List.length_eq_zero_iff.mp hnil]
      rfl
    · split at h
      · cases h
      · split at h
        · cases h
        · exact h
  intro name hname
  obtain ⟨d, hd, hmem⟩ := List.mem_flatMap.mp hname
  obtain ⟨hdevice, htarget⟩ := devValidName_of_checkNames hloop d hd
  split at hmem
  · rwa [List.mem_singleton.mp hmem]
  · rename_i hne
    rcases List.mem_pair.mp hmem with rfl | rfl
    · exact hdevice
    · exact htarget hne

/-- What the kernel accepts. -/
theorem netdevices_accepted_iff (config : NetConfig) (h : netdevices config = .ok ()) :
    (∀ name ∈ config.names, DevValidName name) ↔
      ∀ name ∈ config.names, name.length ≠ ifnamsiz ∧ ∀ c ∈ name, isspace c = true → c = ' ' :=
  forall₂_congr fun name hname => devValidName_iff (devValidName_of_netdevices h name hname)

def moveDevice (device name : Text) : NetConfig :=
  ⟨[⟨device, name⟩], [{ type := .newNet, path := [] }], false, false⟩

theorem netdevices_accepted_eth0 :
    netdevices (moveDevice "eth0".toList []) = .ok () ∧
      ∀ name ∈ (moveDevice "eth0".toList []).names, DevValidName name := by
  have hok : netdevices (moveDevice "eth0".toList []) = .ok () := by decide
  refine ⟨hok, (netdevices_accepted_iff _ hok).mpr ?_⟩
  rintro name hname
  obtain rfl : name = "eth0".toList := List.mem_singleton.mp hname
  refine ⟨by decide, fun c hc hspace => ?_⟩
  have hplain := List.all_eq_true.mp (show "eth0".toList.all (!isspace ·) = true by rfl) c hc
  rw [hspace] at hplain
  cases hplain

theorem netdevices_rejected_names :
    netdevices (moveDevice "eth0123456789012".toList "a\tb".toList) = .ok () ∧
      ¬ DevValidName "eth0123456789012".toList ∧ ¬ DevValidName "a\tb".toList := by
  refine ⟨by decide, fun h => absurd h.2.1 (by decide), fun h => ?_⟩
  exact absurd (h.2.2.2.2 '\t' (by decide)).2.2 (by decide)

end Runc.Configs
