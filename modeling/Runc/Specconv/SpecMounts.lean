import Runc.Lib.Path
import Runc.Specconv.Independence
import Runc.Specconv.OptionBits

/-!
# Mounts of a spec

`createLibcontainerMount` and the check `checkIDMapMounts` of the validator, with the
types of the conversions filled in by mounts.
-/

namespace Runc.Specconv

open Lib
open Bootstrap (NamespaceType IDMap)
open Configs (Namespaces MountAttr mountAttrIdmap)

/-- `specs.Mount`. -/
structure SpecMount where
  destination : Text
  type : Text := []
  source : Text := []
  options : List Text := []
  uidMappings : Option (List IDMap) := none
  gidMappings : Option (List IDMap) := none
deriving DecidableEq

/-- `%+v` of a list. -/
def formatList (items : List Text) : Text :=
  ['['] ++ [' '].intercalate items ++ [']']

/-- `%+v` of a mapping. -/
def formatIDMap (m : IDMap) : Text :=
  "\x7bContainerID:".toList ++ decimal m.containerID ++ " HostID:".toList ++
    decimal m.hostID ++ " Size:".toList ++ decimal m.size ++ ['}']

/-- `%+v` of a mount. -/
def SpecMount.format (m : SpecMount) : Text :=
  "\x7bDestination:".toList ++ m.destination ++ " Type:".toList ++ m.type ++
    " Source:".toList ++ m.source ++ " Options:".toList ++ formatList m.options ++
    " UIDMappings:".toList ++ formatList ((m.uidMappings.getD []).map formatIDMap) ++
    " GIDMappings:".toList ++ formatList ((m.gidMappings.getD []).map formatIDMap) ++ ['}']

/-- The part of `MountIDMapping` with the mappings, in the mount that is made: the
options `idmap` and `ridmap` ask for one, and so do mappings in the spec. -/
def SpecMount.idMapping (m : SpecMount) (mnt : Configs.Mount) : Option MountIDMapping :=
  if m.uidMappings.isSome ∨ m.gidMappings.isSome then
    some { uidMappings := m.uidMappings, gidMappings := m.gidMappings }
  else mnt.idMapping.map fun _ => {}

def SpecMount.sourceIn (join : Text → Text → Text) (cwd : Text) (m : SpecMount)
    (mnt : Configs.Mount) : Text :=
  if mnt.isBind && !Path.isAbs m.source then join cwd m.source else m.source

def SpecMount.device (m : SpecMount) (mnt : Configs.Mount) : Text :=
  if mnt.isBind then "bind".toList else m.type

def createLibcontainerMount (join : Text → Text → Text) (cwd : Text) (m : SpecMount) :
    Except Text (Mount Configs.Mount) :=
  let mnt := parseMountOptions m.options
  let source := m.sourceIn join cwd mnt
  let device := m.device mnt
  let idMapping := m.idMapping mnt
  if '\x00' ∈ source ∨ '\x00' ∈ m.destination ∨ '\x00' ∈ device then
    .error "mount field contains null byte".toList
  else
    .ok {
      source, destination := m.destination
      readonly := decide (mnt.flags &&& Configs.msRdonly ≠ 0), idMapping
      rest := { mnt with
        source, destination := m.destination, device
        idMapping := idMapping.map fun _ => mnt.idMapping.getD ⟨false⟩ } }

def invalidMount (m : SpecMount) (err : Text) : Text :=
  "invalid mount ".toList ++ m.format ++ ": ".toList ++ err

structure Holder (α σ : Type) where
  get : σ → α
  put : α → σ
  get_put : ∀ a, get (put a) = a

def Mount.hold {ρ : Type} (held : Holder Configs.Mount ρ) (m : Mount Configs.Mount) : Mount ρ :=
  { m with rest := held.put m.rest }

section Create

variable {σ ρ : Type} (spec : Holder SpecMount σ) (held : Holder Configs.Mount ρ)

def mountConvert (conv : Convert σ ρ) : Convert σ ρ :=
  { conv with
    createLibcontainerMount := fun cwd s =>
      match createLibcontainerMount conv.join cwd (spec.get s) with
      | .ok m => .ok (m.hold held)
      | .error err => .error (invalidMount (spec.get s) err) }

def recAttrErr : String :=
  "mount configuration cannot contain recAttr for MOUNT_ATTR_IDMAP"

def bothErr : String :=
  "[internal error] id-mapped mounts cannot have both userns_path and uid and gid mappings specified"

def checkIDMapMounts (config : Config ρ) (m : Mount ρ) : Except String Unit :=
  if (held.get m.rest).recAttr.any
      fun attr => decide ((attr.attrSet ||| attr.attrClr) &&& mountAttrIdmap ≠ 0) then
    .error recAttrErr
  else
    match m.idMapping with
    | none => .ok ()
    | some mapping =>
        if !(held.get m.rest).isBind then
          .error "id-mapped mounts are only supported for bind-mounts"
        else if config.rootlessEUID then
          .error "id-mapped mounts are not supported for rootless containers"
        else if mapping.userNSPath = [] then
          if mapping.uidMappings.getD [] = [] ∨ mapping.gidMappings.getD [] = [] then
            .error "id-mapped mounts must have both uid and gid mappings specified"
          else .ok ()
        else if mapping.uidMappings.isSome ∨ mapping.gidMappings.isSome then
          .error bothErr
        else .ok ()

end Create

theorem converted_eq_ok {α : Type} {x : Except Text α} {a : α} (h : converted x = .ok a) :
    x = .ok a := by
  cases x with
  | error err => cases h
  | ok b =>
    cases h
    rfl

section Config

variable {σ ρ : Type} {conv : Convert σ ρ} {host : Host} {opts : Opts σ} {table : Table}
variable {config : Config ρ}

theorem draft_mounts {D : Defaults} {d : Draft ρ} (h : draft conv host opts D = .ok d) :
    ∃ cwd, opts.mounts.mapM (conv.createLibcontainerMount cwd) = .ok d.mounts := by
  obtain ⟨cwd, -, h⟩ := bind_eq_ok h
  obtain ⟨root, -, h⟩ := bind_eq_ok h
  obtain ⟨mounts, hmounts, h⟩ := bind_eq_ok h
  obtain ⟨devices, -, h⟩ := bind_eq_ok h
  obtain ⟨cgroup, -, h⟩ := bind_eq_ok h
  obtain ⟨rules, -, h⟩ := bind_eq_ok h
  obtain ⟨namespaces, -, h⟩ := bind_eq_ok h
  cases h
  exact ⟨cwd, converted_eq_ok hmounts⟩

structure FromDraft (opts : Opts σ) (d : Draft ρ) (config : Config ρ) : Prop where
  namespaces : config.namespaces = d.namespaces
  uidMappings : config.uidMappings = d.userns.uidMappings
  gidMappings : config.gidMappings = d.userns.gidMappings
  rootlessEUID : config.rootlessEUID = opts.rootlessEUID
  mounts : config.mounts =
    if d.namespaces.contains .newUser then d.mounts.map (·.idmapped d.namespaces d.userns)
    else d.mounts

theorem complete_fromDraft {d : Draft ρ} {devices : List Device}
    (h : complete conv host opts d devices = .ok config) : FromDraft opts d config := by
  obtain ⟨linux, -, h⟩ := bind_eq_ok h
  obtain ⟨process, -, h⟩ := bind_eq_ok h
  cases h
  exact ⟨rfl, rfl, rfl, rfl, rfl⟩

theorem createLibcontainerConfig_draft
    (h : (createLibcontainerConfig conv host opts table).1 = .ok config) :
    ∃ d, draft conv host opts (defaults opts.linux table) = .ok d ∧
      FromDraft opts d config := by
  unfold createLibcontainerConfig at h
  cases hdraft : draft conv host opts (defaults opts.linux table) with
  | error err =>
    rw [hdraft] at h
    cases h
  | ok d =>
    rw [hdraft] at h
    dsimp only at h
    refine ⟨d, rfl, ?_⟩
    cases howner : d.userns.owner with
    | none =>
      rw [howner] at h
      exact complete_fromDraft h
    | some owner =>
      rw [howner] at h
      exact complete_fromDraft h

end Config

section Mappings

variable {σ ρ : Type} {spec : Holder SpecMount σ} {held : Holder Configs.Mount ρ}
variable {conv : Convert σ ρ} {host : Host} {opts : Opts σ} {table : Table}
variable {config : Config ρ}

theorem idmapped_rest (namespaces : Namespaces) (userns : UserNamespace) (m : Mount ρ) :
    (m.idmapped namespaces userns).rest = m.rest := by
  unfold Mount.idmapped
  split
  · rfl
  · split
    · dsimp only
      split <;> rfl
    · rfl

def OneSource (m : Mount ρ) : Prop :=
  ∀ mapping, m.idMapping = some mapping →
    mapping.userNSPath = [] ∨ mapping.uidMappings = none ∧ mapping.gidMappings = none

theorem idmapped_oneSource {m : Mount ρ}
    (hpath : ∀ mapping, m.idMapping = some mapping → mapping.userNSPath = [])
    (namespaces : Namespaces) (userns : UserNamespace) :
    OneSource (m.idmapped namespaces userns) := by
  unfold Mount.idmapped
  cases hmapping : m.idMapping with
  | none => exact fun mapping h => .inl (hpath mapping h)
  | some mapping =>
    dsimp only
    split
    case isFalse hsome =>
        exact fun mapping h => .inl (hpath mapping h)
    case isTrue hnone =>
        split
        · intro filled hfilled
          cases hfilled
          exact .inr hnone
        · intro filled hfilled
          cases hfilled
          exact .inl (hpath mapping hmapping)

theorem SpecMount.idMapping_path {m : SpecMount} {mnt : Configs.Mount} {mapping : MountIDMapping}
    (h : m.idMapping mnt = some mapping) : mapping.userNSPath = [] := by
  unfold SpecMount.idMapping at h
  split at h
  · cases h
    rfl
  · obtain ⟨-, -, rfl⟩ := Option.map_eq_some_iff.mp h
    rfl

theorem createLibcontainerMount_ok
    {join : Text → Text → Text} {cwd : Text} {m : SpecMount} {mount : Mount Configs.Mount}
    (h : createLibcontainerMount join cwd m = .ok mount) :
    mount.rest.recAttr = (parseMountOptions m.options).recAttr ∧
      mount.rest.data = (parseMountOptions m.options).data ∧
      mount.idMapping = m.idMapping (parseMountOptions m.options) := by
  unfold createLibcontainerMount at h
  dsimp only at h
  split at h
  · cases h
  · cases h
    exact ⟨rfl, rfl, rfl⟩

theorem mountConvert_ok {cwd : Text} {s : σ} {mount : Mount ρ}
    (h : (mountConvert spec held conv).createLibcontainerMount cwd s = .ok mount) :
    ∃ m, createLibcontainerMount conv.join cwd (spec.get s) = .ok m ∧ mount = m.hold held := by
  unfold mountConvert at h
  dsimp only at h
  cases hmount : createLibcontainerMount conv.join cwd (spec.get s) with
  | error err =>
    rw [hmount] at h
    cases h
  | ok m =>
    rw [hmount] at h
    cases h
    exact ⟨m, rfl, rfl⟩

structure MadeFrom (held : Holder Configs.Mount ρ) (m : SpecMount) (mount : Mount ρ) :
    Prop where
  recAttr : (held.get mount.rest).recAttr = (parseMountOptions m.options).recAttr
  data : (held.get mount.rest).data = (parseMountOptions m.options).data
  oneSource : OneSource mount

theorem createLibcontainerConfig_mounts
    (h : (createLibcontainerConfig (mountConvert spec held conv) host opts table).1 =
      .ok config) :
    List.Forall₂ (fun s mount => MadeFrom held (spec.get s) mount) opts.mounts
      config.mounts := by
  obtain ⟨d, hdraft, hconfig⟩ := createLibcontainerConfig_draft h
  obtain ⟨cwd, hmounts⟩ := draft_mounts hdraft
  have hmade : List.Forall₂ (fun s mount => MadeFrom held (spec.get s) mount ∧
      MadeFrom held (spec.get s) (mount.idmapped d.namespaces d.userns)) opts.mounts
      d.mounts := by
    refine (mapM_eq_ok hmounts).imp fun s mount hmount => ?_
    obtain ⟨m, hm, rfl⟩ := mountConvert_ok hmount
    obtain ⟨hrec, hdata, hmapping⟩ := createLibcontainerMount_ok hm
    have hrest : held.get (m.hold held).rest = m.rest := held.get_put m.rest
    have hpath : ∀ mapping, (m.hold held).idMapping = some mapping → mapping.userNSPath = [] :=
      fun mapping h => SpecMount.idMapping_path (hmapping.symm.trans h)
    refine ⟨⟨hrest ▸ hrec, hrest ▸ hdata, fun mapping h => .inl (hpath mapping h)⟩, ?_⟩
    refine ⟨?_, ?_, idmapped_oneSource hpath _ _⟩
    · rw [idmapped_rest, hrest, hrec]
    · rw [idmapped_rest, hrest, hdata]
  rw [hconfig.mounts]
  split
  · exact List.forall₂_map_right_iff.mpr (hmade.imp fun _ _ hm => hm.2)
  · exact hmade.imp fun _ _ hm => hm.1

theorem recAttr_no_idmap {options : List Text} {attr : MountAttr}
    (h : (parseMountOptions options).recAttr = some attr) :
    (attr.attrSet ||| attr.attrClr) &&& mountAttrIdmap = 0 := by
  have htable : ∀ entry ∈ recAttrFlags, entry.2.flag.getLsbD 20 = false := by
    decide
  have hnone : ∀ o, touches recAttrFlags 20 o = none := by
    intro o
    cases hlookup : recAttrFlags.lookup o with
    | none => exact touches_of_lookup_none hlookup 20
    | some f =>
      rw [touches_of_lookup hlookup, htable _ (mem_of_lookup hlookup)]
      rfl
  have hlast : ∀ clear, ¬ LastTouch recAttrFlags 20 clear options := by
    rintro clear ⟨-, o, -, -, ho, -⟩
    rw [hnone o] at ho
    cases ho
  have hof : recAttrOf (parseMountOptions options) = attr := by
    rw [recAttrOf, h]
    rfl
  have hset : attr.attrSet.getLsbD 20 = false := by
    rw [← hof, ← Bool.not_eq_true, attrSet_last]
    exact hlast false
  have hclr : attr.attrClr.getLsbD 20 = false := by
    rw [← hof, ← Bool.not_eq_true, attrClr_last options (by decide)]
    exact hlast true
  have hbit : mountAttrIdmap = Flags.bit 20 := by
    decide
  rw [hbit, Flags.lacks_bit_iff (by decide), BitVec.getLsbD_or, hset, hclr]
  rfl

def requestErrs : List String :=
  ["id-mapped mounts are only supported for bind-mounts",
    "id-mapped mounts are not supported for rootless containers",
    "id-mapped mounts must have both uid and gid mappings specified"]

theorem checkIDMapMounts_eq_error {m : Mount ρ} {err : String}
    (h : checkIDMapMounts held config m = .error err) :
    (err = recAttrErr ∧ ∃ attr, (held.get m.rest).recAttr = some attr ∧
      (attr.attrSet ||| attr.attrClr) &&& mountAttrIdmap ≠ 0) ∨
    err ∈ requestErrs ∨
    err = bothErr ∧ ∃ mapping, m.idMapping = some mapping ∧ mapping.userNSPath ≠ [] ∧
      (mapping.uidMappings.isSome ∨ mapping.gidMappings.isSome) := by
  unfold checkIDMapMounts at h
  split at h
  case isTrue hany =>
      left
      cases hattr : (held.get m.rest).recAttr with
      | none =>
        rw [hattr] at hany
        cases hany
      | some attr =>
        rw [hattr, Option.any_some, decide_eq_true_eq] at hany
        cases h
        exact ⟨rfl, attr, rfl, hany⟩
  case isFalse =>
      right
      cases hmapping : m.idMapping with
      | none =>
        rw [hmapping] at h
        cases h
      | some mapping =>
        rw [hmapping] at h
        dsimp only at h
        split at h
        · cases h
          exact .inl (by decide)
        · split at h
          · cases h
            exact .inl (by decide)
          · split at h
            · split at h
              · cases h
                exact .inl (by decide)
              · cases h
            · rename_i hpath
              split at h
              · rename_i hsome
                cases h
                exact .inr ⟨rfl, mapping, rfl, hpath, hsome⟩
              · cases h

theorem checkIDMapMounts_internal {σ ρ : Type} (spec : Holder SpecMount σ)
    (held : Holder Configs.Mount ρ) (conv : Convert σ ρ) (host : Host) (opts : Opts σ)
    (table : Table) (config : Config ρ)
    (h : (createLibcontainerConfig (mountConvert spec held conv) host opts table).1 =
      .ok config) (m : Mount ρ) (hm : m ∈ config.mounts) :
    checkIDMapMounts held config m ≠ .error recAttrErr ∧
    checkIDMapMounts held config m ≠ .error bothErr ∧
    (∀ attr, (held.get m.rest).recAttr = some attr →
      (attr.attrSet ||| attr.attrClr) &&& mountAttrIdmap = 0) ∧
    (∀ mapping, m.idMapping = some mapping →
      mapping.userNSPath = [] ∨
        mapping.uidMappings = none ∧ mapping.gidMappings = none) := by
  obtain ⟨s, -, hmade⟩ := exists_of_mem_right (createLibcontainerConfig_mounts h) hm
  have hrec : ∀ attr, (held.get m.rest).recAttr = some attr →
      (attr.attrSet ||| attr.attrClr) &&& mountAttrIdmap = 0 :=
    fun attr hattr => recAttr_no_idmap (hmade.recAttr ▸ hattr)
  have hrequest : ∀ err, checkIDMapMounts held config m = .error err → err ∈ requestErrs := by
    intro err herr
    rcases checkIDMapMounts_eq_error herr with ⟨-, attr, hattr, hbit⟩ | hrequest | ⟨-, hboth⟩
    · exact absurd (hrec attr hattr) hbit
    · exact hrequest
    · obtain ⟨mapping, hmapping, hpath, hsome⟩ := hboth
      obtain ⟨huid, hgid⟩ := (hmade.oneSource mapping hmapping).resolve_left hpath
      rw [huid, hgid] at hsome
      exact absurd hsome (by decide)
  refine ⟨fun herr => ?_, fun herr => ?_, hrec, hmade.oneSource⟩
  · exact absurd (hrequest _ herr) (by decide)
  · exact absurd (hrequest _ herr) (by decide)

def identity (α : Type) : Holder α α where
  get := id
  put := id
  get_put := fun _ => rfl

def mountsOnly : Convert SpecMount Configs.Mount where
  createLibcontainerMount := fun _ _ => .error []
  createCgroupConfig := fun _ => .ok {}
  rootPropagation := fun _ => .ok {}
  linux := fun _ => .ok {}
  process := fun _ => .ok {}
  join := Path.join
  clean := Path.clean

def usernsHost : Host where
  getwd := .ok "/bundle".toList
  getUserNamespaceMappings := fun _ => .ok ([⟨0, 1000, 1⟩], [⟨0, 1000, 1⟩])

def idmapOpts : Opts SpecMount where
  root := some ("rootfs".toList, false)
  mounts := [{
    destination := "/data".toList
    source := "data".toList
    options := ["rbind".toList, "ridmap".toList, "rro".toList] }]
  linux := some { namespaces := [⟨"user".toList, "/run/userns".toList⟩] }
  rest := { destination := [] }

theorem checkIDMapMounts_internal_userns :
    ∃ config m,
      (createLibcontainerConfig
        (mountConvert (identity SpecMount) (identity Configs.Mount) mountsOnly) usernsHost
        idmapOpts allowedDevices).1 = .ok config ∧
      m ∈ config.mounts ∧
      m.idMapping = some { userNSPath := "/run/userns".toList } ∧
      checkIDMapMounts (identity Configs.Mount) config m ≠ .error recAttrErr ∧
      checkIDMapMounts (identity Configs.Mount) config m ≠ .error bothErr := by
  refine ⟨_, _, rfl, List.mem_cons_self, rfl, ?_⟩
  have h := checkIDMapMounts_internal (identity SpecMount) (identity Configs.Mount) mountsOnly
    usernsHost idmapOpts allowedDevices _ rfl _ List.mem_cons_self
  exact ⟨h.1, h.2.1⟩

end Mappings

end Runc.Specconv
