import Mathlib.Data.List.Induction
import Runc.Lib.Program
import Runc.Specconv.CreateConfig

/-!
# Do calls depend on each other?

The only state that calls of `CreateLibcontainerConfig` share is the table of default
devices.
-/

namespace Runc.Specconv

open Lib
open Bootstrap (NamespaceType IDMap)
open Configs (Namespace Namespaces)

def bare (d : Device) : Device :=
  { d with uid := 0, gid := 0 }

def Device.owned (d : Device) (owner : Nat × Nat) : Device :=
  { d with uid := owner.1, gid := owner.2 }

theorem getD_map_bare (table : Table) (i : Nat) :
    (table.map bare).getD i default = bare (table.getD i default) := by
  rw [List.getD_eq_getElem?_getD, List.getD_eq_getElem?_getD, List.getElem?_map]
  cases table[i]? <;> rfl

theorem dedupedAllowDevs_bare (linux : Option Linux) (table : Table) :
    dedupedAllowDevs linux (table.map bare) = dedupedAllowDevs linux table := by
  unfold dedupedAllowDevs
  rw [List.length_map]
  refine List.filter_congr fun i _ => ?_
  rw [getD_map_bare]
  rfl

theorem defaults_bare (linux : Option Linux) (table : Table) :
    defaults linux (table.map bare) = defaults linux table := by
  unfold defaults defaultNodes
  rw [dedupedAllowDevs_bare]
  have hpath : (fun i => decide (((table.map bare).getD i default).path ≠ [])) =
      fun i => decide ((table.getD i default).path ≠ []) :=
    funext fun i => by rw [getD_map_bare]; rfl
  have hrule : (fun i => ((table.map bare).getD i default).rule) =
      fun i => (table.getD i default).rule :=
    funext fun i => by rw [getD_map_bare]; rfl
  rw [hpath, hrule]

theorem defaults_congr {table table' : Table} (h : table.map bare = table'.map bare)
    (linux : Option Linux) : defaults linux table = defaults linux table' := by
  rw [← defaults_bare, h, defaults_bare]

theorem chownTable_bare (owner : Nat × Nat) (devices : List DevicePtr) (table : Table) :
    (chownTable owner devices table).map bare = table.map bare := by
  unfold chownTable
  refine List.ext_getElem? fun i => ?_
  simp only [List.getElem?_map, List.getElem?_mapIdx, Option.map_map]
  cases table[i]? with
  | none => rfl
  | some device =>
    simp only [Option.map_some, Function.comp_apply, Option.some.injEq]
    split
    · rfl
    · rfl

theorem mapM_specDevice {ds : List SpecDevice} {ptrs : List DevicePtr}
    (h : ds.mapM specDevice = .ok ptrs) : ∃ specified : List Device, ptrs = specified.map .own := by
  have hall := mapM_eq_ok h
  clear h
  induction hall with
  | nil => exact ⟨[], rfl⟩
  | cons hptr _ ih =>
    obtain ⟨specified, rfl⟩ := ih
    obtain ⟨type, -, hown⟩ := bind_eq_ok hptr
    cases hown
    exact ⟨_ :: specified, rfl⟩

variable {D : Defaults} {host : Host}

theorem draft_eq_ok {σ ρ : Type} {conv : Convert σ ρ} {opts : Opts σ}
    {d : Draft ρ} (h : draft conv host opts D = .ok d) :
    createDevices opts.linux D = .ok d.devices ∧
      linuxNamespaces conv host opts = .ok (d.rootPropagation, d.namespaces, d.userns) := by
  obtain ⟨cwd, -, h⟩ := bind_eq_ok h
  obtain ⟨root, -, h⟩ := bind_eq_ok h
  obtain ⟨mounts, -, h⟩ := bind_eq_ok h
  obtain ⟨devices, hdevices, h⟩ := bind_eq_ok h
  obtain ⟨cgroup, -, h⟩ := bind_eq_ok h
  obtain ⟨rules, -, h⟩ := bind_eq_ok h
  obtain ⟨namespaces, hnamespaces, h⟩ := bind_eq_ok h
  cases h
  exact ⟨hdevices, hnamespaces⟩

theorem draft_devices {σ ρ : Type} {conv : Convert σ ρ} {opts : Opts σ}
    {d : Draft ρ} (h : draft conv host opts D = .ok d) :
    ∃ specified : List Device, d.devices = D.nodes ++ specified.map .own := by
  obtain ⟨ptrs, hptrs, hall⟩ := bind_eq_ok (draft_eq_ok h).1
  obtain ⟨specified, rfl⟩ := mapM_specDevice hptrs
  exact ⟨specified, (Except.ok.inj hall).symm⟩

theorem mem_defaultNodes {linux : Option Linux} {table : Table} {i : Nat} :
    DevicePtr.allowed i ∈ (defaults linux table).nodes ↔
      i < table.length ∧ (table.getD i default).path ≠ [] ∧
        listed linux (table.getD i default).path = false := by
  unfold defaults defaultNodes dedupedAllowDevs keeps
  simp only [List.mem_map, List.mem_filter, List.mem_range, DevicePtr.allowed.injEq,
    exists_eq_right, decide_eq_true_eq, Bool.or_eq_true, Bool.not_eq_true']
  tauto

theorem mem_draft_devices {σ ρ : Type} {conv : Convert σ ρ} {opts : Opts σ} {d : Draft ρ}
    (h : draft conv host opts D = .ok d) {i : Nat} :
    DevicePtr.allowed i ∈ d.devices ↔ DevicePtr.allowed i ∈ D.nodes := by
  obtain ⟨specified, heq⟩ := draft_devices h
  rw [heq]
  simp

def Opts.userns {σ : Type} (opts : Opts σ) : Bool :=
  opts.linux.any fun linux => linux.namespaces.any (·.type = "user".toList)

theorem namespaceMapping_eq_user {type : Text} :
    namespaceMapping type = some .newUser ↔ type = "user".toList := by
  constructor
  · intro h
    obtain ⟨before, rest, heq, -⟩ := List.lookup_eq_some_iff.mp h
    have hentry : (type, NamespaceType.newUser) ∈
        [("pid".toList, NamespaceType.newPid), ("network".toList, .newNet),
          ("mount".toList, .newNs), ("user".toList, .newUser), ("ipc".toList, .newIpc),
          ("uts".toList, .newUts), ("cgroup".toList, .newCgroup), ("time".toList, .newTime)] := by
      rw [heq]
      exact List.mem_append_right _ List.mem_cons_self
    simpa using hentry
  · rintro rfl
    rfl

theorem addNamespaces_contains {added result : Namespaces} {l : List SpecNamespace}
    (h : addNamespaces added l = .ok result) (t : NamespaceType) :
    result.contains t = true ↔
      added.contains t = true ∨ ∃ ns ∈ l, namespaceMapping ns.type = some t := by
  induction l generalizing added with
  | nil =>
    cases h
    simp
  | cons ns l ih =>
    rw [addNamespaces] at h
    split at h
    · cases h
    · rename_i t' ht'
      split at h
      · cases h
      · have hadd : Namespaces.contains (added ++ [{ type := t', path := ns.path }]) t = true ↔
            added.contains t = true ∨ t' = t := by
          simp [Namespaces.contains, Namespaces.entry, List.find?_append]
        rw [ih h, hadd]
        simp only [List.mem_cons, exists_eq_or_imp, ht', Option.some.injEq]
        tauto

theorem setupUserNamespace_owner {linux : Linux} {namespaces : Namespaces}
    {userns : UserNamespace} (h : setupUserNamespace host linux namespaces = .ok userns) :
    userns.owner.isSome = true := by
  obtain ⟨maps, -, h⟩ := bind_eq_ok h
  obtain ⟨rootUID, -, h⟩ := bind_eq_ok h
  obtain ⟨rootGID, -, h⟩ := bind_eq_ok h
  cases h
  rfl

theorem linuxNamespaces_owner {σ ρ : Type} {conv : Convert σ ρ} {opts : Opts σ}
    {result : Option ρ × Namespaces × UserNamespace}
    (h : linuxNamespaces conv host opts = .ok result) : result.2.2.owner.isSome = opts.userns := by
  unfold linuxNamespaces at h
  unfold Opts.userns
  cases hlinux : opts.linux with
  | none =>
    rw [hlinux] at h
    cases h
    rfl
  | some linux =>
    rw [hlinux] at h
    obtain ⟨rootPropagation, -, h⟩ := bind_eq_ok h
    obtain ⟨namespaces, hnamespaces, h⟩ := bind_eq_ok h
    have huser : namespaces.contains .newUser =
        linux.namespaces.any (·.type = "user".toList) := by
      rw [Bool.eq_iff_iff, addNamespaces_contains hnamespaces]
      simp [namespaceMapping_eq_user, Namespaces.contains, Namespaces.entry]
    rw [Option.any_some, ← huser]
    cases hcontains : namespaces.contains .newUser with
    | true =>
      simp only [hcontains, if_true] at h
      obtain ⟨userns, husernsOk, h⟩ := bind_eq_ok h
      cases h
      exact setupUserNamespace_owner husernsOk
    | false =>
      simp only [hcontains, Bool.false_eq_true, if_false] at h
      cases h
      rfl

theorem draft_owner {σ ρ : Type} {conv : Convert σ ρ} {opts : Opts σ}
    {d : Draft ρ} (h : draft conv host opts D = .ok d) : d.userns.owner.isSome = opts.userns :=
  linuxNamespaces_owner (draft_eq_ok h).2

structure Call (σ ρ : Type) where
  conv : Convert σ ρ
  host : Host
  opts : Opts σ

section Calls

variable {σ ρ : Type}

def Call.run (call : Call σ ρ) (table : Table) : Except ConfigErr (Config ρ) × Table :=
  createLibcontainerConfig call.conv call.host call.opts table

def after (history : List (Call σ ρ)) (table : Table) : Table :=
  history.foldl (fun table call => (call.run table).2) table

def Call.draft (call : Call σ ρ) : Except ConfigErr (Draft ρ) :=
  Specconv.draft call.conv call.host call.opts (defaults call.opts.linux allowedDevices)

def Call.rewrites (call : Call σ ρ) (device : Device) : Option (Nat × Nat) :=
  if device.path = [] ∨ listed call.opts.linux device.path then none
  else call.draft.toOption.bind (·.userns.owner)

def ownerAfter (device : Device) (history : List (Call σ ρ)) : Nat × Nat :=
  history.foldl (fun owner call => (call.rewrites device).getD owner) (0, 0)

variable {i : Nat} {table : Table} {owner : Nat × Nat}

theorem getD_chownTable {devices : List DevicePtr} (hi : i < table.length) :
    (chownTable owner devices table).getD i default =
      if .allowed i ∈ devices then (table.getD i default).owned owner
      else table.getD i default := by
  unfold chownTable
  rw [List.getD_eq_getElem?_getD, List.getD_eq_getElem?_getD, List.getElem?_mapIdx,
    List.getElem?_eq_getElem hi]
  rfl

section Shape

variable {call : Call σ ρ} {table : Table}

section

variable (h : table.map bare = allowedDevices.map bare)
include h

theorem draft_of_bare :
    Specconv.draft call.conv call.host call.opts (defaults call.opts.linux table) =
      call.draft := by
  rw [Call.draft, defaults_congr h]

theorem run_of_error {err : ConfigErr} (hdraft : call.draft = .error err) :
    call.run table = (.error err, table) := by
  rw [Call.run, createLibcontainerConfig, draft_of_bare h, hdraft]

theorem run_of_none {d : Draft ρ} (hdraft : call.draft = .ok d) (howner : d.userns.owner = none) :
    call.run table =
      (complete call.conv call.host call.opts d (d.devices.map (·.load table)), table) := by
  rw [Call.run, createLibcontainerConfig, draft_of_bare h, hdraft]
  dsimp only
  rw [howner]

theorem run_of_some {d : Draft ρ}
    (hdraft : call.draft = .ok d) {owner : Nat × Nat} (howner : d.userns.owner = some owner) :
    call.run table =
      (complete call.conv call.host call.opts d
          ((d.devices.map (·.chown owner)).map (·.load (chownTable owner d.devices table))),
        chownTable owner d.devices table) := by
  rw [Call.run, createLibcontainerConfig, draft_of_bare h, hdraft]
  dsimp only
  rw [howner]

theorem run_bare : (call.run table).2.map bare = allowedDevices.map bare := by
  cases hdraft : call.draft with
  | error err =>
    rw [run_of_error h hdraft]
    exact h
  | ok d =>
    cases howner : d.userns.owner with
    | none =>
      rw [run_of_none h hdraft howner]
      exact h
    | some owner =>
      rw [run_of_some h hdraft howner]
      exact (chownTable_bare _ _ _).trans h

theorem length_of_bare : table.length = allowedDevices.length := by
  have hlen := congrArg List.length h
  rwa [List.length_map, List.length_map] at hlen

theorem run_getD {i : Nat} (hi : i < allowedDevices.length) :
    (call.run table).2.getD i default =
      match call.rewrites (allowedDevices.getD i default) with
      | none => table.getD i default
      | some owner => (table.getD i default).owned owner := by
  unfold Call.rewrites
  cases hdraft : call.draft with
  | error err =>
    rw [run_of_error h hdraft]
    split <;> simp_all [Except.toOption]
  | ok d =>
    cases howner : d.userns.owner with
    | none =>
      rw [run_of_none h hdraft howner]
      simp [Except.toOption, howner]
    | some owner =>
      have hmem : DevicePtr.allowed i ∈ d.devices ↔ ¬ ((allowedDevices.getD i default).path = [] ∨
            listed call.opts.linux (allowedDevices.getD i default).path = true) := by
        rw [mem_draft_devices hdraft, mem_defaultNodes, not_or, Bool.not_eq_true]
        exact and_iff_right hi
      rw [run_of_some h hdraft howner]
      dsimp only
      rw [getD_chownTable (by rwa [length_of_bare h])]
      by_cases hdevice : DevicePtr.allowed i ∈ d.devices
      · rw [if_pos hdevice, if_neg (hmem.mp hdevice)]
        simp [Except.toOption, howner]
      · rw [if_neg hdevice, if_pos (Classical.not_not.mp (mt hmem.mpr hdevice))]

end

end Shape

theorem after_bare (history : List (Call σ ρ)) :
    (after history allowedDevices).map bare = allowedDevices.map bare := by
  induction history using List.reverseRecOn with
  | nil => rfl
  | append_singleton history call ih =>
    rw [after, List.foldl_append]
    exact run_bare ih

theorem getD_mem (hi : i < table.length) : table.getD i default ∈ table := by
  rw [List.getD_eq_getElem?_getD, List.getElem?_eq_getElem hi]
  exact List.getElem_mem hi

theorem after_getD (history : List (Call σ ρ)) (hi : i < allowedDevices.length) :
    (after history allowedDevices).getD i default =
      (allowedDevices.getD i default).owned
        (ownerAfter (allowedDevices.getD i default) history) := by
  induction history using List.reverseRecOn with
  | nil =>
    have hroot : ∀ device ∈ allowedDevices, device = device.owned (0, 0) := by decide
    exact hroot _ (getD_mem hi)
  | append_singleton history call ih =>
    have hstep : (call.run (after history allowedDevices)).2.getD i default = _ :=
      run_getD (after_bare history) hi
    rw [after, List.foldl_append, ownerAfter, List.foldl_append]
    change ((call.run (after history allowedDevices)).2).getD i default =
      Device.owned _ ((call.rewrites _).getD (ownerAfter _ history))
    rw [hstep, ih]
    cases call.rewrites (allowedDevices.getD i default) with
    | none => rfl
    | some owner => rfl

theorem complete_eq_iff {conv : Convert σ ρ} {host : Host} {opts : Opts σ} {d : Draft ρ}
    {devices devices' : List Device} :
    complete conv host opts d devices = complete conv host opts d devices' ↔
      ((complete conv host opts d devices').toOption.isSome → devices = devices') := by
  unfold complete
  cases linuxRest conv opts with
  | error err => exact iff_of_true rfl fun h => by cases h
  | ok linux =>
    cases converted (conv.process opts) with
    | error err => exact iff_of_true rfl fun h => by cases h
    | ok process =>
      refine ⟨fun h _ => ?_, fun h => by rw [h rfl]⟩
      exact congrArg Config.devices (Except.ok.inj h)

theorem load_chown (h : table.map bare = allowedDevices.map bare) {devices : List DevicePtr}
    {ptr : DevicePtr} (hptr : ptr ∈ devices)
    (hbound : ∀ i, ptr = .allowed i → i < allowedDevices.length) :
    (ptr.chown owner).load (chownTable owner devices table) =
      (bare (ptr.load allowedDevices)).owned owner := by
  cases ptr with
  | own device => rfl
  | allowed i =>
    have hi := hbound i rfl
    have hentry : bare (table.getD i default) = bare (allowedDevices.getD i default) := by
      rw [← getD_map_bare, h, getD_map_bare]
    change (chownTable owner devices table).getD i default = _
    rw [getD_chownTable (by rwa [length_of_bare h]), if_pos hptr]
    exact congrArg (·.owned owner) hentry

def OwnedByRoot (history : List (Call σ ρ)) (call : Call σ ρ) : Prop :=
  ∀ device ∈ allowedDevices, device.path ≠ [] →
    listed call.opts.linux device.path = false → ownerAfter device history = (0, 0)

theorem owned_eq_iff {device : Device} (hdevice : device ∈ allowedDevices) :
    device.owned owner = device ↔ owner = (0, 0) := by
  have hroot : ∀ device ∈ allowedDevices, device.uid = 0 ∧ device.gid = 0 := by decide
  obtain ⟨huid, hgid⟩ := hroot device hdevice
  constructor
  · intro h
    have huid' : owner.1 = 0 := (congrArg Device.uid h).trans huid
    have hgid' : owner.2 = 0 := (congrArg Device.gid h).trans hgid
    exact Prod.ext huid' hgid'
  · rintro rfl
    obtain ⟨rule, path, fileMode, uid, gid⟩ := device
    obtain rfl : uid = 0 := huid
    obtain rfl : gid = 0 := hgid
    rfl

theorem load_after_iff {history : List (Call σ ρ)} {call : Call σ ρ} {d : Draft ρ}
    (hdraft : call.draft = .ok d) :
    d.devices.map (·.load (after history allowedDevices)) =
        d.devices.map (·.load allowedDevices) ↔
      OwnedByRoot history call := by
  rw [List.map_inj_left]
  constructor
  · intro h device hdevice hpath hlisted
    obtain ⟨i, hi, rfl⟩ := List.mem_iff_getElem.mp hdevice
    have hgetD : allowedDevices.getD i default = allowedDevices[i] := by
      rw [List.getD_eq_getElem?_getD, List.getElem?_eq_getElem hi]
      rfl
    rw [← hgetD] at hpath hlisted hdevice ⊢
    have hptr : DevicePtr.allowed i ∈ d.devices :=
      (mem_draft_devices hdraft).mpr (mem_defaultNodes.mpr ⟨hi, hpath, hlisted⟩)
    have hload : (after history allowedDevices).getD i default =
        allowedDevices.getD i default := h _ hptr
    rw [after_getD history hi] at hload
    exact (owned_eq_iff hdevice).mp hload
  · intro h ptr hptr
    cases ptr with
    | own device => rfl
    | allowed i =>
      obtain ⟨hi, hpath, hlisted⟩ := mem_defaultNodes.mp ((mem_draft_devices hdraft).mp hptr)
      change (after history allowedDevices).getD i default = allowedDevices.getD i default
      rw [after_getD history hi]
      exact (owned_eq_iff (getD_mem hi)).mpr (h _ (getD_mem hi) hpath hlisted)

/-- Independence of calls. -/
theorem createConfig_independent_iff (history : List (Call σ ρ)) (call : Call σ ρ) :
    (call.run (after history allowedDevices)).1 = (call.run allowedDevices).1 ↔
      ((call.run allowedDevices).1.toOption.isSome → call.opts.userns = false →
        OwnedByRoot history call) := by
  have hafter := after_bare history
  cases hdraft : call.draft with
  | error err =>
    rw [run_of_error hafter hdraft, run_of_error rfl hdraft]
    exact iff_of_true rfl fun h => by cases h
  | ok d =>
    have huserns := draft_owner hdraft
    cases howner : d.userns.owner with
    | none =>
      rw [howner] at huserns
      rw [run_of_none hafter hdraft howner, run_of_none rfl hdraft howner,
        complete_eq_iff, load_after_iff hdraft, ← huserns]
      exact ⟨fun h hok _ => h hok, fun h hok => h hok rfl⟩
    | some owner =>
      rw [howner] at huserns
      rw [run_of_some hafter hdraft howner, run_of_some rfl hdraft howner]
      refine iff_of_true ?_ fun _ hnone => by rw [← huserns] at hnone; cases hnone
      -- Both calls set the owners of all devices.
      refine congrArg (complete call.conv call.host call.opts d) ?_
      rw [List.map_map, List.map_map]
      refine List.map_congr_left fun ptr hptr => ?_
      have hbound : ∀ i, ptr = .allowed i → i < allowedDevices.length := by
        rintro i rfl
        exact (mem_defaultNodes.mp ((mem_draft_devices hdraft).mp hptr)).1
      exact (load_chown hafter hptr hbound).trans (load_chown rfl hptr hbound).symm

end Calls

def noConvert : Convert Unit Unit where
  createLibcontainerMount _ _ := .error []
  createCgroupConfig _ := .ok ()
  rootPropagation _ := .ok ()
  linux _ := .ok ()
  process _ := .ok ()
  join _ path := path
  clean path := path

def bundleHost : Host where
  getwd := .ok ['/', 'b']
  getUserNamespaceMappings _ := .error []

def plainCall : Call Unit Unit where
  conv := noConvert
  host := bundleHost
  opts := { root := some (['/', 'r'], false), rest := () }

def usernsCall : Call Unit Unit where
  conv := noConvert
  host := bundleHost
  opts :=
    { root := some (['/', 'r'], false)
      rest := ()
      linux := some
        { namespaces := [{ type := "user".toList }]
          uidMappings := some [⟨0, 1000, 1⟩]
          gidMappings := some [⟨0, 1000, 1⟩] } }

def firstOwner (result : Except ConfigErr (Config Unit) × Table) : Option (Text × Nat) :=
  result.1.toOption.bind fun config => config.devices.head?.map fun d => (d.path, d.uid)

theorem devNull_owned :
    firstOwner (plainCall.run allowedDevices) = some ("/dev/null".toList, 0) ∧
      firstOwner (plainCall.run (after [usernsCall] allowedDevices)) =
        some ("/dev/null".toList, 1000) := by
  decide +kernel

end Runc.Specconv
