import Runc.Lib.JsonDecode
import Runc.Specconv.SpecMounts

/-!
# Specs for rootless containers

`ToRootless` changes a spec so that it should work without privileges, and
`rootlessEUIDCheck` of the validator asks whether a configuration does.
-/

namespace Runc.Specconv

open Lib
open Bootstrap (NamespaceType IDMap)
open Configs (Namespaces)

def rootlessNamespaces (namespaces : List SpecNamespace) : List SpecNamespace :=
  (namespaces.filter fun ns => ns.type ≠ "network".toList ∧ ns.type ≠ "user".toList) ++
    [{ type := "user".toList }]

def rootlessMapping (id : Nat) : List IDMap :=
  [⟨0, uint32 id, 1⟩]

def gidOption : Text := "gid=".toList
def uidOption : Text := "uid=".toList

def sysMount : SpecMount where
  source := "/sys".toList
  destination := "/sys".toList
  type := "none".toList
  options := ["rbind".toList, "nosuid".toList, "noexec".toList, "nodev".toList, "ro".toList]

def rootlessMount (m : SpecMount) : SpecMount :=
  if Path.clean m.destination = "/sys".toList then sysMount
  else
    { m with
      options := m.options.filter fun o =>
        !gidOption.isPrefixOf o && !uidOption.isPrefixOf o }

def rootlessLinux (euid egid : Nat) (linux : Linux) : Linux :=
  { linux with
    namespaces := rootlessNamespaces linux.namespaces
    uidMappings := some (rootlessMapping euid)
    gidMappings := some (rootlessMapping egid)
    deviceRules := [] }

section Model

variable {σ ρ : Type}

/-- It stops at a spec without a Linux section. The members that only the conversions read lose
their resources by `clearResources`. -/
def toRootless (spec : Holder SpecMount σ) (clearResources : σ → σ) (euid egid : Nat)
    (opts : Opts σ) : Option (Opts σ) :=
  opts.linux.map fun linux =>
    { opts with
      linux := some (rootlessLinux euid egid linux)
      mounts := opts.mounts.map fun s => spec.put (rootlessMount (spec.get s))
      rest := clearResources opts.rest }

def rootlessEUIDMappings (config : Config ρ) : Except Text Unit :=
  if !config.namespaces.contains .newUser then
    .error "rootless container requires user namespaces".toList
  else if config.namespaces.isPrivate .newUser then
    if config.uidMappings.getD [] = [] then
      .error "rootless containers requires at least one UID mapping".toList
    else if config.gidMappings.getD [] = [] then
      .error "rootless containers requires at least one GID mapping".toList
    else .ok ()
  else .ok ()

def atoi (maxInt : Int) : Text → Option Int
  | '-' :: t => (readDigits (maxInt + 2).toNat t).map fun n => -n
  | '+' :: t => readDigits (maxInt + 1).toNat t
  | t => readDigits (maxInt + 1).toNat t

variable (host : Host) (unicode : Unicode)

def checkID (config : Config ρ) (gid : Bool) (opt str : Text) : Except Text Unit :=
  match atoi host.maxInt str with
  | none => .ok ()
  | some id =>
      match hostID host gid config.namespaces
          (if gid then config.gidMappings else config.uidMappings) id with
      | .ok _ => .ok ()
      | .error err =>
          .error ("cannot specify ".toList ++ opt ++
            " mount option for rootless container: ".toList ++ err.error unicode)

def checkOption (config : Config ρ) (opt : Text) : Except Text Unit :=
  if uidOption.isPrefixOf opt then
    checkID host unicode config false opt (opt.drop uidOption.length)
  else if gidOption.isPrefixOf opt then
    checkID host unicode config true opt (opt.drop gidOption.length)
  else .ok ()

def checkMountData (config : Config ρ) (data : Text) : Except Text Unit :=
  if !contains data "id=".toList then .ok ()
  else (data.splitOn ',').forM (checkOption host unicode config)

variable (held : Holder Configs.Mount ρ)

def rootlessEUIDMount (config : Config ρ) : Except Text Unit :=
  config.mounts.forM fun m => checkMountData host unicode config (held.get m.rest).data

def rootlessEUIDCheck (config : Config ρ) : Except Text Unit :=
  if !config.rootlessEUID then .ok ()
  else do
    rootlessEUIDMappings config
    rootlessEUIDMount host unicode held config

end Model

def SpecNamespace.entry (ns : SpecNamespace) : Option Configs.Namespace :=
  (namespaceMapping ns.type).map fun t => { type := t, path := ns.path }

theorem addNamespaces_eq {added result : Namespaces} {l : List SpecNamespace}
    (h : addNamespaces added l = .ok result) :
    result = added ++ l.filterMap SpecNamespace.entry := by
  induction l generalizing added with
  | nil =>
    cases h
    exact (List.append_nil _).symm
  | cons ns l ih =>
    rw [addNamespaces] at h
    split at h
    · cases h
    · rename_i t ht
      split at h
      · cases h
      · have hentry : ns.entry = some { type := t, path := ns.path } := by
          rw [SpecNamespace.entry, ht]
          rfl
        rw [ih h, List.filterMap_cons_some hentry, List.append_assoc]
        rfl

theorem rootlessNamespaces_entry {namespaces : List SpecNamespace} {result : Namespaces}
    (h : addNamespaces [] (rootlessNamespaces namespaces) = .ok result) :
    result.entry .newUser = some { type := .newUser, path := [] } := by
  rw [addNamespaces_eq h, rootlessNamespaces, List.nil_append, List.filterMap_append,
    Namespaces.entry, List.find?_append]
  have hothers : ((namespaces.filter fun ns =>
      ns.type ≠ "network".toList ∧ ns.type ≠ "user".toList).filterMap
        SpecNamespace.entry).find? (fun ns => ns.type = .newUser) = none := by
    refine List.find?_eq_none.mpr fun entry hmem => ?_
    obtain ⟨ns, hns, hentry⟩ := List.mem_filterMap.mp hmem
    obtain ⟨t, ht, rfl⟩ := Option.map_eq_some_iff.mp hentry
    have hkept := (List.mem_filter.mp hns).2
    simp only [decide_eq_true_eq] at hkept ⊢
    rintro rfl
    exact hkept.2 (namespaceMapping_eq_user.mp ht)
  rw [hothers]
  rfl

section UserNamespace

variable {σ ρ : Type} {conv : Convert σ ρ} {host : Host} {opts : Opts σ} {table : Table}
variable {config : Config ρ}

structure RootlessUserns (host : Host) (euid egid : Nat) (config : Config ρ) : Prop where
  isPrivate : config.namespaces.isPrivate .newUser = true
  contains : config.namespaces.contains .newUser = true
  uidMappings : config.uidMappings = some (rootlessMapping euid)
  gidMappings : config.gidMappings = some (rootlessMapping egid)
  uidFits : (uint32 euid : Int) ≤ host.maxInt
  gidFits : (uint32 egid : Int) ≤ host.maxInt

theorem hostIDFromMapping_rootless (id : Nat) (n : Int) :
    hostIDFromMapping n (rootlessMapping id) = if n = 0 then some (uint32 id : Int) else none := by
  unfold hostIDFromMapping rootlessMapping
  by_cases hn : n = 0
  · subst hn
    simp
  · simp only [List.find?_singleton, hn]
    rw [if_neg]
    · rfl
    · simp only [decide_eq_true_eq]
      omega

theorem hostID_rootless {namespaces : Namespaces} (hcontains : namespaces.contains .newUser = true)
    (gid : Bool) (id : Nat) (n : Int) :
    (hostID host gid namespaces (some (rootlessMapping id)) n).isOk = true ↔
      n = 0 ∧ (uint32 id : Int) ≤ host.maxInt := by
  have hne : (some (rootlessMapping id)).getD [] ≠ [] := List.cons_ne_nil _ _
  rw [hostID, if_pos hcontains, if_neg hne, Option.getD_some, hostIDFromMapping_rootless]
  by_cases hn : n = 0
  · rw [if_pos hn]
    dsimp only
    split
    case isTrue hlarge =>
        simp only [Except.isOk, Except.toBool, Bool.false_eq_true, false_iff]
        omega
    case isFalse hsmall =>
        simp only [Except.isOk, Except.toBool, true_iff]
        omega
  · rw [if_neg hn]
    simp [Except.isOk, Except.toBool, hn]

theorem isOk_of_eq_ok {ε α : Type} {x : Except ε α} {a : α} (h : x = .ok a) : x.isOk = true := by
  rw [h]
  rfl

theorem usernsMaps_of_private {linux : Linux} {namespaces : Namespaces}
    (h : namespaces.pathOf .newUser = []) :
    usernsMaps host linux namespaces = .ok (linux.uidMappings, linux.gidMappings) := by
  rw [usernsMaps, h]
  rfl

theorem rootless_namespaces {linux : Linux} {euid egid : Nat}
    (hlinux : opts.linux = some (rootlessLinux euid egid linux))
    (h : (createLibcontainerConfig conv host opts table).1 = .ok config) :
    RootlessUserns host euid egid config := by
  obtain ⟨d, hdraft, hconfig⟩ := createLibcontainerConfig_draft h
  have hnamespaces := (draft_eq_ok hdraft).2
  rw [linuxNamespaces, hlinux] at hnamespaces
  obtain ⟨rootPropagation, -, hnamespaces⟩ := bind_eq_ok hnamespaces
  obtain ⟨namespaces, hadd, hnamespaces⟩ := bind_eq_ok hnamespaces
  have hentry := rootlessNamespaces_entry hadd
  have hcontains : namespaces.contains .newUser = true := by
    rw [Namespaces.contains, hentry]
    rfl
  have hpath : namespaces.pathOf .newUser = [] := by
    rw [Namespaces.pathOf, hentry]
  rw [if_pos hcontains] at hnamespaces
  obtain ⟨userns, hsetup, hnamespaces⟩ := bind_eq_ok hnamespaces
  obtain ⟨-, hd, husernsEq⟩ : _ ∧ namespaces = d.namespaces ∧ userns = d.userns := by
    injection hnamespaces with hpair
    exact ⟨congrArg Prod.fst hpair, congrArg (fun p => p.2.1) hpair,
      congrArg (fun p => p.2.2) hpair⟩
  -- the root of the container is looked up in the mappings
  obtain ⟨maps, hmaps, hsetup⟩ := bind_eq_ok hsetup
  rw [usernsMaps_of_private hpath] at hmaps
  cases hmaps
  obtain ⟨rootUID, huid, hsetup⟩ := bind_eq_ok hsetup
  obtain ⟨rootGID, hgid, hsetup⟩ := bind_eq_ok hsetup
  cases hsetup
  refine ⟨?_, ?_, ?_, ?_, ?_, ?_⟩
  · rw [hconfig.namespaces, ← hd, Namespaces.isPrivate, hentry]
    rfl
  · rw [hconfig.namespaces, ← hd, hcontains]
  · rw [hconfig.uidMappings, ← husernsEq]
    rfl
  · rw [hconfig.gidMappings, ← husernsEq]
    rfl
  · exact ((hostID_rootless hcontains false euid 0).mp (isOk_of_eq_ok huid)).2
  · exact ((hostID_rootless hcontains true egid 0).mp (isOk_of_eq_ok hgid)).2

end UserNamespace

/-- The text is `uid=` or `gid=` with a number that is not mapped. -/
def NamesOther (maxInt : Int) (piece : Text) : Prop :=
  ∃ str n, (piece = uidOption ++ str ∨ piece = gidOption ++ str) ∧
    atoi maxInt str = some n ∧ n ≠ 0

def Harmless (maxInt : Int) (o : Text) : Prop :=
  ∀ piece ∈ o.splitOn ',', ¬ NamesOther maxInt piece

section Check

variable {ρ : Type} {host : Host} {euid egid : Nat} {config : Config ρ}

theorem checkID_ok_iff (hu : RootlessUserns host euid egid config) (unicode : Unicode) (gid : Bool)
    (opt str : Text) :
    checkID host unicode config gid opt str = .ok () ↔
      ∀ n, atoi host.maxInt str = some n → n = 0 := by
  have hlookup : ∀ n, (hostID host gid config.namespaces
      (if gid then config.gidMappings else config.uidMappings) n).isOk = true ↔ n = 0 := by
    intro n
    cases gid with
    | true =>
      rw [if_pos rfl, hu.gidMappings, hostID_rootless hu.contains]
      exact and_iff_left hu.gidFits
    | false =>
      rw [if_neg Bool.false_ne_true, hu.uidMappings, hostID_rootless hu.contains]
      exact and_iff_left hu.uidFits
  rw [checkID]
  cases atoi host.maxInt str with
  | none => simp
  | some id =>
    have hid := hlookup id
    revert hid
    dsimp only
    cases hostID host gid config.namespaces
        (if gid then config.gidMappings else config.uidMappings) id with
    | ok hostid => simp [Except.isOk, Except.toBool]
    | error err => simp [Except.isOk, Except.toBool]

theorem checkOption_ok_iff (hu : RootlessUserns host euid egid config) (unicode : Unicode)
    (opt : Text) : checkOption host unicode config opt = .ok () ↔ ¬ NamesOther host.maxInt opt := by
  have hexclusive : ∀ a b : Text, uidOption ++ a ≠ gidOption ++ b := by
    intro a b heq
    exact absurd (List.cons.inj heq).1 (by decide)
  rw [checkOption]
  split
  case isTrue huid =>
      obtain ⟨str, rfl⟩ := List.isPrefixOf_iff_prefix.mp huid
      rw [List.drop_left, checkID_ok_iff hu]
      constructor
      · rintro h ⟨str', n, heq | heq, hn, hne⟩
        · rw [← List.append_cancel_left heq] at hn
          exact hne (h n hn)
        · exact hexclusive _ _ heq
      · intro h n hn
        by_contra hne
        exact h ⟨str, n, .inl rfl, hn, hne⟩
  case isFalse huid =>
      split
      case isTrue hgid =>
          obtain ⟨str, rfl⟩ := List.isPrefixOf_iff_prefix.mp hgid
          rw [List.drop_left, checkID_ok_iff hu]
          constructor
          · rintro h ⟨str', n, heq | heq, hn, hne⟩
            · exact hexclusive _ _ heq.symm
            · rw [← List.append_cancel_left heq] at hn
              exact hne (h n hn)
          · intro h n hn
            by_contra hne
            exact h ⟨str, n, .inr rfl, hn, hne⟩
      case isFalse hgid =>
          refine iff_of_true rfl ?_
          rintro ⟨str, n, rfl | rfl, -, -⟩
          · exact huid (List.isPrefixOf_iff_prefix.mpr (List.prefix_append _ _))
          · exact hgid (List.isPrefixOf_iff_prefix.mpr (List.prefix_append _ _))

theorem contains_of_namesOther {maxInt : Int} {data piece : Text}
    (hpiece : piece ∈ data.splitOn ',') (h : NamesOther maxInt piece) :
    contains data "id=".toList = true := by
  obtain ⟨left, right, rfl⟩ := middle_of_mem_splitOn hpiece
  obtain ⟨str, n, heq, -, -⟩ := h
  have hid : ∀ c, contains (left ++ (c :: "id=".toList ++ str ++ right)) "id=".toList = true := by
    intro c
    have hsplit : left ++ (c :: "id=".toList ++ str ++ right) =
        (left ++ [c]) ++ ("id=".toList ++ (str ++ right)) := by
      rw [List.append_assoc, List.append_assoc]
      rfl
    rw [hsplit]
    exact contains_middle _ _
  rcases heq with rfl | rfl
  · exact hid 'u'
  · exact hid 'g'

theorem checkMountData_ok_iff (hu : RootlessUserns host euid egid config) (unicode : Unicode)
    (data : Text) :
    checkMountData host unicode config data = .ok () ↔ Harmless host.maxInt data := by
  rw [checkMountData, Harmless]
  cases hcontains : contains data "id=".toList with
  | true =>
    rw [Bool.not_true, if_neg Bool.false_ne_true, forM_eq_ok_iff]
    exact forall₂_congr fun piece _ => checkOption_ok_iff hu unicode piece
  | false =>
    refine iff_of_true rfl fun piece hpiece h => ?_
    rw [contains_of_namesOther hpiece h] at hcontains
    cases hcontains

theorem equals_not_mem_of_known {o : Text} (h : Known o) : '=' ∉ o := by
  have hflags : ∀ name ∈ mountFlags.map Prod.fst, '=' ∉ name := by decide
  have hpropagation : ∀ name ∈ mountPropagationMapping.map Prod.fst, '=' ∉ name := by decide
  have hrec : ∀ name ∈ recAttrFlags.map Prod.fst, '=' ∉ name := by decide
  have hextension : ∀ name ∈ extensionFlags.map Prod.fst, '=' ∉ name := by decide
  have hcomplex : ∀ name ∈ complexFlags.map Prod.fst, '=' ∉ name := by decide
  rcases (known_iff o).mp h with (((h | h) | h) | h) | h
  · exact hflags o h
  · exact hpropagation o h
  · exact hrec o h
  · exact hextension o h
  · exact hcomplex o h

theorem NamesOther.equals_mem {maxInt : Int} {piece o : Text} (h : NamesOther maxInt piece)
    (hpiece : piece ∈ o.splitOn ',') : '=' ∈ o := by
  obtain ⟨left, right, rfl⟩ := middle_of_mem_splitOn hpiece
  obtain ⟨str, n, rfl | rfl, -, -⟩ := h
  · have hmem : '=' ∈ uidOption := by decide
    simp [hmem]
  · have hmem : '=' ∈ gidOption := by decide
    simp [hmem]

theorem harmless_data_iff (maxInt : Int) (options : List Text) :
    Harmless maxInt (parseMountOptions options).data ↔
      ∀ o ∈ options, Harmless maxInt o := by
  rw [parseMountOptions_data, Harmless]
  constructor
  · intro h o ho piece hpiece hnames
    have hdata : becomesData o = true := (becomesData_iff o).mpr
        (.inl fun hknown => equals_not_mem_of_known hknown (hnames.equals_mem hpiece))
    have hmem : o ∈ options.filter becomesData := List.mem_filter.mpr ⟨ho, hdata⟩
    have hjoined := (mem_splitOn_intercalate (List.ne_nil_of_mem hmem) piece).mpr ⟨o, hmem, hpiece⟩
    exact h piece hjoined hnames
  · intro h piece hpiece hnames
    by_cases hnil : options.filter becomesData = []
    · -- nothing is joined, and the empty text names nothing
      rw [hnil] at hpiece
      have hempty : '=' ∈ ([','].intercalate ([] : List Text)) := hnames.equals_mem hpiece
      cases hempty
    · obtain ⟨o, ho, hpiece⟩ := (mem_splitOn_intercalate hnil piece).mp hpiece
      exact h o (List.mem_filter.mp ho).1 piece hpiece hnames

theorem harmless_rootlessMount_iff (maxInt : Int) (m : SpecMount) :
    (∀ o ∈ (rootlessMount m).options, Harmless maxInt o) ↔
      (Path.clean m.destination ≠ "/sys".toList →
        ∀ o ∈ m.options, ¬ uidOption <+: o → ¬ gidOption <+: o → Harmless maxInt o) := by
  have hsys : ∀ o ∈ sysMount.options, '=' ∉ o := by
    decide
  rw [rootlessMount]
  split
  case isTrue h =>
      refine iff_of_true (fun o ho piece hpiece hnames => ?_) (fun hne => absurd h hne)
      exact hsys o ho (hnames.equals_mem hpiece)
  case isFalse h =>
      simp only [List.mem_filter, Bool.and_eq_true, Bool.not_eq_true', ← Bool.not_eq_true,
        List.isPrefixOf_iff_prefix]
      constructor
      · exact fun hall _ o ho huid hgid => hall o ⟨ho, hgid, huid⟩
      · rintro hall o ⟨ho, hgid, huid⟩
        exact hall h o ho huid hgid

theorem rootlessEUIDMappings_ok (hu : RootlessUserns host euid egid config) :
    rootlessEUIDMappings config = .ok () := by
  rw [rootlessEUIDMappings, hu.contains, hu.isPrivate, hu.uidMappings, hu.gidMappings]
  rfl

theorem rootlessEUIDMount_ok_iff (hu : RootlessUserns host euid egid config) (unicode : Unicode)
    (held : Holder Configs.Mount ρ) :
    rootlessEUIDMount host unicode held config = .ok () ↔
      ∀ m ∈ config.mounts, Harmless host.maxInt (held.get m.rest).data := by
  rw [rootlessEUIDMount, forM_eq_ok_iff]
  exact forall₂_congr fun m _ => checkMountData_ok_iff hu unicode _

end Check

theorem harmless_mounts_iff {σ ρ : Type} {spec : Holder SpecMount σ} {held : Holder Configs.Mount ρ}
    {mounts : List σ} {made : List (Mount ρ)}
    (h : List.Forall₂ (fun s mount => MadeFrom held (spec.get s) mount) mounts made)
    (maxInt : Int) :
    (∀ m ∈ made, Harmless maxInt (held.get m.rest).data) ↔
      ∀ s ∈ mounts, ∀ o ∈ (spec.get s).options, Harmless maxInt o := by
  induction h with
  | nil => simp
  | cons hmade _ ih =>
    rw [List.forall_mem_cons, List.forall_mem_cons, ih, hmade.data, harmless_data_iff]

theorem rootlessEUIDCheck_iff {σ ρ : Type} (spec : Holder SpecMount σ)
    (held : Holder Configs.Mount ρ) (conv : Convert σ ρ) (clearResources : σ → σ) (euid egid : Nat)
    (host : Host) (unicode : Unicode) (opts rootless : Opts σ) (table : Table) (config : Config ρ)
    (hrootless : toRootless spec clearResources euid egid opts = some rootless)
    (hconfig : (createLibcontainerConfig (mountConvert spec held conv) host
      { rootless with rootlessEUID := true } table).1 = .ok config) :
    config.namespaces.isPrivate .newUser = true ∧
    config.uidMappings.getD [] ≠ [] ∧
    config.gidMappings.getD [] ≠ [] ∧
    (rootlessEUIDCheck host unicode held config = .ok () ↔
      ∀ s ∈ opts.mounts, Path.clean (spec.get s).destination ≠ "/sys".toList →
        ∀ o ∈ (spec.get s).options, ¬ uidOption <+: o → ¬ gidOption <+: o →
          Harmless host.maxInt o) := by
  obtain ⟨linux, -, rfl⟩ := Option.map_eq_some_iff.mp hrootless
  have hu : RootlessUserns host euid egid config := rootless_namespaces rfl hconfig
  have hmounts := createLibcontainerConfig_mounts hconfig
  have heuid : config.rootlessEUID = true := by
    obtain ⟨d, -, hfrom⟩ := createLibcontainerConfig_draft hconfig
    exact hfrom.rootlessEUID
  refine ⟨hu.isPrivate, ?_, ?_, ?_⟩
  · rw [hu.uidMappings]
    exact List.cons_ne_nil _ _
  · rw [hu.gidMappings]
    exact List.cons_ne_nil _ _
  · have hcheck : rootlessEUIDCheck host unicode held config =
        rootlessEUIDMount host unicode held config := by
      rw [rootlessEUIDCheck, heuid, rootlessEUIDMappings_ok hu]
      rfl
    rw [hcheck, rootlessEUIDMount_ok_iff hu, harmless_mounts_iff hmounts]
    rw [List.forall_mem_map]
    refine forall₂_congr fun s _ => ?_
    rw [spec.get_put]
    exact harmless_rootlessMount_iff host.maxInt (spec.get s)

def tmpOpts (options : List Text) : Opts SpecMount where
  root := some ("rootfs".toList, false)
  mounts := [{ destination := "/tmp".toList, type := "tmpfs".toList, options }]
  linux := some {}
  rest := { destination := [] }

theorem rootlessEUIDCheck_dropped :
    ∃ rootless config,
      toRootless (identity SpecMount) id 1000 1000
        (tmpOpts ["mode=755".toList, "uid=1000".toList]) = some rootless ∧
      (createLibcontainerConfig
        (mountConvert (identity SpecMount) (identity Configs.Mount) mountsOnly) usernsHost
        { rootless with rootlessEUID := true } allowedDevices).1 = .ok config ∧
      rootlessEUIDCheck usernsHost Unicode.ascii (identity Configs.Mount) config = .ok () := by
  obtain ⟨rootless, hrootless⟩ : ∃ rootless, toRootless (identity SpecMount) id 1000 1000
      (tmpOpts ["mode=755".toList, "uid=1000".toList]) = some rootless := ⟨_, rfl⟩
  obtain ⟨config, hconfig⟩ : ∃ config, (createLibcontainerConfig
      (mountConvert (identity SpecMount) (identity Configs.Mount) mountsOnly) usernsHost
      { rootless with rootlessEUID := true } allowedDevices).1 = .ok config := by
    cases hrootless
    exact ⟨_, rfl⟩
  refine ⟨rootless, config, hrootless, hconfig, ?_⟩
  have h := rootlessEUIDCheck_iff (identity SpecMount) (identity Configs.Mount) mountsOnly id
    1000 1000 usernsHost Unicode.ascii (tmpOpts ["mode=755".toList, "uid=1000".toList]) rootless
    allowedDevices config hrootless hconfig
  refine h.2.2.2.mpr (List.forall_mem_singleton.mpr fun _ => ?_)
  refine List.forall_mem_cons.mpr ⟨fun _ _ piece hpiece => ?_,
    List.forall_mem_singleton.mpr fun huid => ?_⟩
  · have hsplit : "mode=755".toList.splitOn ',' = ["mode=755".toList] := by
      decide
    rw [hsplit, List.mem_singleton] at hpiece
    rintro ⟨str, n, heq | heq, -⟩
    · exact absurd (List.cons.inj (hpiece.symm.trans heq)).1 (by decide)
    · exact absurd (List.cons.inj (hpiece.symm.trans heq)).1 (by decide)
  · exact absurd (List.prefix_append uidOption "1000".toList) huid

theorem rootlessEUIDCheck_joined :
    ∃ rootless config,
      toRootless (identity SpecMount) id 1000 1000
        (tmpOpts ["mode=755,uid=1000".toList]) = some rootless ∧
      (createLibcontainerConfig
        (mountConvert (identity SpecMount) (identity Configs.Mount) mountsOnly) usernsHost
        { rootless with rootlessEUID := true } allowedDevices).1 = .ok config ∧
      rootlessEUIDCheck usernsHost Unicode.ascii (identity Configs.Mount) config =
        .error "cannot specify uid=1000 mount option for rootless container: user namespaces enabled, but no mapping found for uid 1000".toList :=
  ⟨_, _, rfl, rfl, by decide +kernel⟩

end Runc.Specconv
