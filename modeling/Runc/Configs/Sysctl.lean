import Runc.Configs.Namespaces
import Runc.Lib.Utf8

/-!
# Sysctls: the check and the write

The validator looks at a sysctl key in the form with dots. Later the init process opens
a file below /proc/sys for each key. Each has its own rule for the two separators.
-/

namespace Runc.Configs

open Lib
open Bootstrap (NamespaceType)

def isSep (c : Char) : Bool :=
  c = '.' || c = '/'

def swapSep (c : Char) : Char :=
  if c = '.' then '/' else if c = '/' then '.' else c

def slashForm (val : Text) : Bool :=
  val.find? isSep = some '/'

def convertSysctlVariableToDotsSeparator (val : Text) : Text :=
  if slashForm val then mapAscii swapSep val else val

/-- `validSysctlMap`. -/
def validSysctl : List Text :=
  ["kernel.msgmax".toList, "kernel.msgmnb".toList, "kernel.msgmni".toList,
    "kernel.sem".toList, "kernel.shmall".toList, "kernel.shmmax".toList,
    "kernel.shmmni".toList, "kernel.shm_rmid_forced".toList]

structure SysctlConfig where
  sysctl : List (Text × Text) := []
  namespaces : Namespaces := []

inductive SysctlErr
  | hostIpc (s : Text)
  | netnsPath (err : String)
  | hostNet (s : Text)
  | conflict (s : Text)
  | ucounts (s : Text)
  | notNamespaced (s : Text)
deriving DecidableEq

def SysctlErr.error (unicode : Unicode) : SysctlErr → Text
  | .hostIpc s =>
      "sysctl ".toList ++ quote unicode s ++
        " is not allowed in the hosts ipc namespace".toList
  | .netnsPath err => "invalid netns path: ".toList ++ err.toList
  | .hostNet s =>
      "sysctl ".toList ++ quote unicode s ++
        " not allowed in host network namespace".toList
  | .conflict s =>
      "sysctl ".toList ++ quote unicode s ++
        " is not allowed as it conflicts with the OCI \"hostname\" field".toList
  | .ucounts s =>
      "setting ucounts without a user namespace not allowed: ".toList ++ s
  | .notNamespaced s =>
      "sysctl ".toList ++ quote unicode s ++
        " is not in a separate kernel namespace".toList

section Check

variable (isHostNetNS : Text → Except String Bool) (config : SysctlConfig)

def hostNet : Except String Bool :=
  if config.namespaces.contains .newNet then
    if config.namespaces.pathOf .newNet = [] then .ok false
    else isHostNetNS (config.namespaces.pathOf .newNet)
  else .ok true

def sysctlFrom : Option (Except String Bool) → List Text → Except SysctlErr Unit
  | _, [] => .ok ()
  | once, key :: keys =>
      let s := convertSysctlVariableToDotsSeparator key
      if s ∈ validSysctl ∨ "fs.mqueue.".toList.isPrefixOf s then
        if config.namespaces.contains .newIpc then sysctlFrom once keys
        else .error (.hostIpc s)
      else if "net.".toList.isPrefixOf s then
        let net := once.getD (hostNet isHostNetNS config)
        match net with
        | .error err => .error (.netnsPath err)
        | .ok true => .error (.hostNet s)
        | .ok false => sysctlFrom (some net) keys
      else if config.namespaces.contains .newUts ∧ s = "kernel.domainname".toList then
        sysctlFrom once keys
      else if config.namespaces.contains .newUts ∧ s = "kernel.hostname".toList then
        .error (.conflict s)
      else if "user.".toList.isPrefixOf s then
        if config.namespaces.contains .newUser then sysctlFrom once keys
        else .error (.ucounts s)
      else .error (.notNamespaced s)

def sysctl (keys : List Text) : Except SysctlErr Unit :=
  sysctlFrom isHostNetNS config none keys

def Allowed (s : Text) : Prop :=
  ((s ∈ validSysctl ∨ "fs.mqueue.".toList <+: s) ∧
      config.namespaces.contains .newIpc = true) ∨
    ("net.".toList <+: s ∧ hostNet isHostNetNS config = .ok false) ∨
    (s = "kernel.domainname".toList ∧ config.namespaces.contains .newUts = true) ∨
    ("user.".toList <+: s ∧ config.namespaces.contains .newUser = true)

variable {isHostNetNS config}

theorem sysctlFrom_allowed {once : Option (Except String Bool)} {keys : List Text}
    (honce : ∀ net, once = some net → net = hostNet isHostNetNS config)
    (h : sysctlFrom isHostNetNS config once keys = .ok ()) :
    ∀ key ∈ keys,
      Allowed isHostNetNS config (convertSysctlVariableToDotsSeparator key) := by
  induction keys generalizing once with
  | nil =>
    intro key hkey
    cases hkey
  | cons key keys ih =>
    -- Each branch that goes on allows the key and hands over a right `once`.
    have hnext : ∀ once', (∀ net, once' = some net → net = hostNet isHostNetNS config) →
        Allowed isHostNetNS config (convertSysctlVariableToDotsSeparator key) →
        sysctlFrom isHostNetNS config once' keys = .ok () →
        ∀ k ∈ key :: keys,
          Allowed isHostNetNS config (convertSysctlVariableToDotsSeparator k) := by
      intro once' honce' hkey hrest k hk
      rcases List.mem_cons.mp hk with rfl | hk
      · exact hkey
      · exact ih honce' hrest k hk
    rw [sysctlFrom] at h
    dsimp only at h
    split at h
    · rename_i hipc
      split at h
      · rename_i hns
        refine hnext once honce (Or.inl ⟨?_, hns⟩) h
        exact hipc.imp_right List.isPrefixOf_iff_prefix.mp
      · cases h
    · split at h
      · rename_i hnet
        have hgetD : once.getD (hostNet isHostNetNS config) =
            hostNet isHostNetNS config := by
          cases once with
          | none => rfl
          | some net => exact honce net rfl
        rw [hgetD] at h
        split at h
        · cases h
        · cases h
        · rename_i hfalse
          refine hnext _ (fun net hsome => (Option.some.inj hsome).symm)
            (Or.inr (Or.inl ⟨List.isPrefixOf_iff_prefix.mp hnet, hfalse⟩)) h
      · split at h
        · rename_i huts
          exact hnext once honce (Or.inr (Or.inr (Or.inl ⟨huts.2, huts.1⟩))) h
        · split at h
          · cases h
          · split at h
            · rename_i huser
              split at h
              · rename_i hns
                refine hnext once honce (Or.inr (Or.inr (Or.inr ⟨?_, hns⟩))) h
                exact List.isPrefixOf_iff_prefix.mp huser
              · cases h
            · cases h

theorem sysctl_allowed {keys : List Text} (h : sysctl isHostNetNS config keys = .ok ()) :
    ∀ key ∈ keys,
      Allowed isHostNetNS config (convertSysctlVariableToDotsSeparator key) :=
  sysctlFrom_allowed (fun net hnone => by cases hnone) h

end Check

structure ProcSys where
  openProc : Option Text := none
  openFile : Text → Option Text := fun _ => none
  write : Text → Option Text := fun _ => none

def sysctlPath (key : Text) : Text :=
  "sys/".toList ++ key.map (merge '.' '/')

structure Written where
  result : Except Text Unit
  opened : List Text

def writeSysctlsFrom (unicode : Unicode) (proc : ProcSys) : List (Text × Text) → Written
  | [] => ⟨.ok (), []⟩
  | (key, value) :: rest =>
      match proc.openFile (sysctlPath key) with
      | some err =>
          ⟨.error ("open sysctl ".toList ++ key ++ " file: ".toList ++ err),
            [sysctlPath key]⟩
      | none =>
          match proc.write (sysctlPath key) with
          | some err =>
              ⟨.error ("failed to write sysctl ".toList ++ key ++ " = ".toList ++
                  quote unicode value ++ ": ".toList ++ err),
                [sysctlPath key]⟩
          | none =>
              let next := writeSysctlsFrom unicode proc rest
              ⟨next.result, sysctlPath key :: next.opened⟩

def writeSysctls (unicode : Unicode) (proc : ProcSys) (sysctls : List (Text × Text)) : Written :=
  match proc.openProc with
  | some err => ⟨.error err, []⟩
  | none => writeSysctlsFrom unicode proc sysctls

theorem mem_writeSysctlsFrom {unicode : Unicode} {proc : ProcSys} {sysctls : List (Text × Text)}
    {path : Text} (h : path ∈ (writeSysctlsFrom unicode proc sysctls).opened) :
    ∃ entry ∈ sysctls, path = sysctlPath entry.1 := by
  induction sysctls with
  | nil => cases h
  | cons entry rest ih =>
    rw [writeSysctlsFrom] at h
    have hfirst : path ∈ [sysctlPath entry.1] → ∃ e ∈ entry :: rest, path = sysctlPath e.1 :=
      fun hp => ⟨entry, List.mem_cons_self, List.mem_singleton.mp hp⟩
    split at h
    · exact hfirst h
    · split at h
      · exact hfirst h
      · rcases List.mem_cons.mp h with hp | hp
        · exact hfirst (List.mem_singleton.mpr hp)
        · obtain ⟨e, he, hpath⟩ := ih hp
          exact ⟨e, List.mem_cons_of_mem _ he, hpath⟩

theorem mem_writeSysctls {unicode : Unicode} {proc : ProcSys} {sysctls : List (Text × Text)}
    {path : Text} (h : path ∈ (writeSysctls unicode proc sysctls).opened) :
    ∃ entry ∈ sysctls, path = sysctlPath entry.1 := by
  unfold writeSysctls at h
  split at h
  · cases h
  · exact mem_writeSysctlsFrom h

end Runc.Configs
