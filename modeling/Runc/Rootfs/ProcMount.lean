import Runc.Configs.Mount
import Runc.Lib.PathPrefix
import Runc.Lib.Utf8

/-!
# Mounts at and below `/proc`

`checkProcMount` keeps a container from mounting over its `/proc`.  It decides on
the text of the path that leads from `/proc` to the destination.
-/

namespace Runc.Rootfs

open Lib
open Lib.Path
open Configs (Mount)

def isLexicallyInRoot (root path : Text) : Bool :=
  (trimRight '/' root ++ ['/']).isPrefixOf (trimRight '/' path ++ ['/'])

theorem isLexicallyInRoot_iff (root path : AbsPath) :
    isLexicallyInRoot root.text path.text = true ↔ Within root path := by
  rw [isLexicallyInRoot, List.isPrefixOf_iff_prefix, trimRight_text, trimRight_text,
    within_iff_slashed]

/-- `unix.Statfs_t`, the members that are read. -/
structure Statfs where
  type : Nat
  flags : Flags
deriving DecidableEq

def procSuperMagic : Nat :=
  0x9fa0

/-- `mountEntry`, with what the kernel answers about the source. -/
structure MountEntry extends Mount where
  srcStatfs : Except Text Statfs
  srcStat : Except Text Nat

inductive ProcMountErr
  /-- An error of `filepath.Rel`, `statfs` or `stat`. -/
  | sys (text : Text)
  | notProc (dest : Text)
  | insideProc (dest : Text)
deriving DecidableEq

def ProcMountErr.error (unicode : Unicode) : ProcMountErr → Text
  | .sys text => text
  | .notProc dest =>
      quote unicode dest ++ " cannot be mounted because it is not of type proc".toList
  | .insideProc dest =>
      quote unicode dest ++ " cannot be mounted because it is inside /proc".toList

def procPath : Text :=
  "/proc".toList

def validProcMounts : List Text :=
  ["/proc/cpuinfo".toList,
    "/proc/diskstats".toList,
    "/proc/meminfo".toList,
    "/proc/stat".toList,
    "/proc/swaps".toList,
    "/proc/uptime".toList,
    "/proc/loadavg".toList,
    "/proc/slabinfo".toList,
    "/proc/sys/kernel/ns_last_pid".toList,
    "/proc/sys/crypto/fips_enabled".toList]

def checkValid (rootfs dest : Text) : List Text → Except ProcMountErr Unit
  | [] => .error (.insideProc dest)
  | valid :: rest =>
      match rel (join rootfs valid) dest with
      | .error err => .error (.sys err)
      | .ok path => if path = dot then .ok () else checkValid rootfs dest rest

def checkOnProc (dest : Text) (m : MountEntry) : Except ProcMountErr Unit :=
  if m.isBind then
    match m.srcStatfs with
    | .error err => .error (.sys err)
    | .ok fsSt =>
        if fsSt.type = procSuperMagic then
          match m.srcStat with
          | .error err => .error (.sys err)
          | .ok _ => .ok ()
        else .error (.notProc dest)
  else if m.device = "proc".toList then .ok ()
  else .error (.notProc dest)

def checkProcMount (rootfs dest : Text) (m : MountEntry) : Except ProcMountErr Unit :=
  match rel (join rootfs procPath) dest with
  | .error err => .error (.sys err)
  | .ok path =>
      if dotdot.isPrefixOf path then .ok ()
      else if path = dot then checkOnProc dest m
      else checkValid rootfs dest validProcMounts

section Places

variable {rootfs dest : AbsPath} {m : MountEntry}

/-- `/proc` of the container. -/
def procDir (rootfs : AbsPath) : AbsPath :=
  rootfs.joined procPath

inductive Permitted (rootfs dest : AbsPath) (m : MountEntry) : Prop
  | outside : ¬ Within (procDir rootfs) dest → Permitted rootfs dest m
  | emulated {valid : Text} :
      valid ∈ validProcMounts →
      dest.text = join rootfs.text valid →
      Permitted rootfs dest m
  | fresh :
      dest.text = (procDir rootfs).text →
      m.isBind = false →
      m.device = "proc".toList →
      Permitted rootfs dest m
  | bind {fsSt : Statfs} :
      dest.text = (procDir rootfs).text →
      m.isBind = true →
      m.srcStatfs = .ok fsSt →
      fsSt.type = procSuperMagic →
      Permitted rootfs dest m

/-- The destination lies below an entry of `/proc` whose name begins with two dots. -/
def Dotted (rootfs dest : AbsPath) : Prop :=
  ∃ name rest, dest.names = (procDir rootfs).names ++ name :: rest ∧ dotdot <+: name

theorem procDir_names (rootfs : AbsPath) :
    (procDir rootfs).names = rootfs.names ++ ["proc".toList] := by
  have hproc : tokens '/' procPath = ["proc".toList] := by decide
  rw [procDir, AbsPath.joined_names, resolve_of_isName (by rw [hproc]; decide), hproc]

theorem validProcMounts_names :
    ∀ valid ∈ validProcMounts,
      (∀ name ∈ tokens '/' valid, IsName name) ∧
        ∀ name ∈ ((tokens '/' valid).drop 1).take 1, ¬ dotdot <+: name := by
  decide

theorem checkValid_ok {mounts : List Text} (h : checkValid rootfs.text dest.text mounts = .ok ()) :
    ∃ valid ∈ mounts, dest.text = join rootfs.text valid := by
  induction mounts with
  | nil => cases h
  | cons valid mounts ih =>
    rw [checkValid, ← AbsPath.joined_text] at h
    cases hrel : rel (rootfs.joined valid).text dest.text with
    | error err =>
      rw [hrel] at h
      cases h
    | ok path =>
      rw [hrel] at h
      by_cases hdot : path = dot
      · rw [hdot, rel_eq_dot_iff, AbsPath.names_inj, AbsPath.joined_text] at hrel
        exact ⟨valid, List.mem_cons_self, hrel.symm⟩
      · obtain ⟨found, hfound, htext⟩ := ih ((if_neg hdot).symm.trans h)
        exact ⟨found, List.mem_cons_of_mem _ hfound, htext⟩

theorem checkProcMount_eq (rootfs dest : AbsPath) (m : MountEntry) :
    checkProcMount rootfs.text dest.text m =
      match rel (procDir rootfs).text dest.text with
      | .error err => .error (.sys err)
      | .ok path =>
          if dotdot.isPrefixOf path then .ok ()
          else if path = dot then checkOnProc dest.text m
          else checkValid rootfs.text dest.text validProcMounts := by
  rw [checkProcMount, procDir, AbsPath.joined_text]

theorem checkProcMount_onProc (h : (procDir rootfs).names = dest.names) :
    checkProcMount rootfs.text dest.text m = checkOnProc dest.text m := by
  rw [checkProcMount_eq, (rel_eq_dot_iff _ _).mpr h]
  rfl

theorem dotdot_prefix_way_iff (h : (procDir rootfs).names ≠ dest.names) :
    dotdot.isPrefixOf (['/'].intercalate (way (procDir rootfs) dest)) = true ↔
      ¬ Within (procDir rootfs) dest ∨ Dotted rootfs dest :=
  List.isPrefixOf_iff_prefix.trans (dotdot_prefix_rel_iff h)

theorem checkProcMount_dotdot (hne : (procDir rootfs).names ≠ dest.names)
    (h : ¬ Within (procDir rootfs) dest ∨ Dotted rootfs dest) :
    checkProcMount rootfs.text dest.text m = .ok () := by
  rw [checkProcMount_eq, rel_text hne]
  exact if_pos ((dotdot_prefix_way_iff hne).mpr h)

theorem checkProcMount_below (hne : (procDir rootfs).names ≠ dest.names)
    (h : ¬ (¬ Within (procDir rootfs) dest ∨ Dotted rootfs dest)) :
    checkProcMount rootfs.text dest.text m =
      checkValid rootfs.text dest.text validProcMounts := by
  have hdot : ['/'].intercalate (way (procDir rootfs) dest) ≠ dot := by
    intro heq
    exact hne ((rel_eq_dot_iff _ _).mp ((rel_text hne).trans (congrArg Except.ok heq)))
  rw [checkProcMount_eq, rel_text hne]
  exact (if_neg fun hdots => h ((dotdot_prefix_way_iff hne).mp hdots)).trans (if_neg hdot)

theorem checkOnProc_ok {text : Text} (h : checkOnProc text m = .ok ()) :
    (m.isBind = true ∧ ∃ fsSt, m.srcStatfs = .ok fsSt ∧ fsSt.type = procSuperMagic) ∨
      m.isBind = false ∧ m.device = "proc".toList := by
  rw [checkOnProc] at h
  split at h
  · rename_i hbind
    refine .inl ⟨hbind, ?_⟩
    split at h
    · cases h
    · rename_i fsSt hstatfs
      split at h
      · rename_i hmagic
        exact ⟨fsSt, hstatfs, hmagic⟩
      · cases h
  · rename_i hbind
    split at h
    · rename_i hdevice
      exact .inr ⟨Bool.not_eq_true _ ▸ hbind, hdevice⟩
    · cases h

theorem ne_of_dotted (h : Dotted rootfs dest) : (procDir rootfs).names ≠ dest.names := by
  obtain ⟨name, rest, hdest, -⟩ := h
  rw [hdest]
  exact fun heq => absurd (List.self_eq_append_right.mp heq) (List.cons_ne_nil _ _)

theorem not_permitted_of_dotted (h : Dotted rootfs dest) : ¬ Permitted rootfs dest m := by
  have hne := ne_of_dotted h
  obtain ⟨name, rest, hdest, hdots⟩ := h
  intro hpermitted
  cases hpermitted with
  | outside hout => exact hout ⟨name :: rest, hdest.symm⟩
  | emulated hvalid htext =>
    rename_i valid
    obtain ⟨hnames, hfirst⟩ := validProcMounts_names valid hvalid
    rw [← AbsPath.joined_text, ← AbsPath.names_inj, AbsPath.joined_names,
      resolve_of_isName hnames, hdest, procDir_names, List.append_assoc,
      List.append_cancel_left_eq] at htext
    -- the first name below `/proc` is the dotted one
    have hname : name ∈ ((tokens '/' valid).drop 1).take 1 := by
      rw [← htext]
      exact List.mem_cons_self
    exact hfirst name hname hdots
  | fresh htext _ _ => exact hne (AbsPath.names_inj.mpr htext.symm)
  | bind htext _ _ _ => exact hne (AbsPath.names_inj.mpr htext.symm)

theorem permitted_of_ok (hdotted : ¬ Dotted rootfs dest)
    (h : checkProcMount rootfs.text dest.text m = .ok ()) : Permitted rootfs dest m := by
  by_cases hproc : (procDir rootfs).names = dest.names
  · rw [checkProcMount_onProc hproc] at h
    have htext : dest.text = (procDir rootfs).text := (AbsPath.names_inj.mp hproc).symm
    rcases checkOnProc_ok h with ⟨hbind, fsSt, hstatfs, hmagic⟩ | ⟨hbind, hdevice⟩
    · exact .bind htext hbind hstatfs hmagic
    · exact .fresh htext hbind hdevice
  · by_cases hin : Within (procDir rootfs) dest
    · rw [checkProcMount_below hproc (by tauto)] at h
      obtain ⟨valid, hvalid, htext⟩ := checkValid_ok h
      exact .emulated hvalid htext
    · exact .outside hin

/-- The check is right exactly for destinations that are not below a dotted name. -/
theorem checkProcMount_permitted_iff (rootfs dest : AbsPath) (m : MountEntry) :
    (checkProcMount rootfs.text dest.text m = .ok () → Permitted rootfs dest m) ↔
      ¬ Dotted rootfs dest := by
  constructor
  · intro h hdotted
    exact not_permitted_of_dotted hdotted
      (h (checkProcMount_dotdot (ne_of_dotted hdotted) (.inr hdotted)))
  · exact permitted_of_ok

/-- `/r` as a root. -/
def shortRootfs : AbsPath :=
  AbsPath.ofNames [['r']] (by decide)

/-- `/r/proc/..x` as a destination. -/
def dottedDest : AbsPath :=
  AbsPath.ofNames [['r'], ['p', 'r', 'o', 'c'], ['.', '.', 'x']] (by decide)

def plainEntry : MountEntry where
  device := "tmpfs".toList
  srcStatfs := .ok ⟨0, 0⟩
  srcStat := .ok 2

theorem checkProcMount_dotted_name :
    checkProcMount "/r".toList "/r/proc/..x".toList plainEntry = .ok () ∧
      ¬ Permitted shortRootfs dottedDest plainEntry := by
  have hdotted : Dotted shortRootfs dottedDest := ⟨['.', '.', 'x'], [], by decide, by decide⟩
  exact ⟨by decide, not_permitted_of_dotted hdotted⟩

inductive MountpointErr
  | outside (dest rootfs : Text)
  | rel (dest text : Text)
  | onTop (dest rootfs : Text)
  | proc (destination : Text) (err : ProcMountErr)
deriving DecidableEq

def MountpointErr.error (unicode : Unicode) : MountpointErr → Text
  | .outside dest rootfs =>
      "mountpoint ".toList ++ quote unicode dest ++ " is outside of rootfs ".toList ++
        quote unicode rootfs
  | .rel dest text =>
      "get relative path of ".toList ++ quote unicode dest ++ ": ".toList ++ text
  | .onTop dest rootfs =>
      "mountpoint ".toList ++ quote unicode dest ++ " is on the top of rootfs ".toList ++
        quote unicode rootfs
  | .proc destination err =>
      "check proc-safety of ".toList ++ destination ++ " mount: ".toList ++
        err.error unicode

def checkMountpoint (rootfs dstFullPath : Text) (m : MountEntry) : Except MountpointErr Unit :=
  if isLexicallyInRoot rootfs dstFullPath then
    match rel rootfs dstFullPath with
    | .error err => .error (.rel dstFullPath err)
    | .ok relPath =>
        if relPath = dot then .error (.onTop dstFullPath rootfs)
        else
          match checkProcMount rootfs dstFullPath m with
          | .error err => .error (.proc m.destination err)
          | .ok () => .ok ()
  else .error (.outside dstFullPath rootfs)

theorem checkMountpoint_ok_iff :
    checkMountpoint rootfs.text dest.text m = .ok () ↔
      Within rootfs dest ∧ rootfs.names ≠ dest.names ∧
        checkProcMount rootfs.text dest.text m = .ok () := by
  rw [checkMountpoint]
  by_cases hin : Within rootfs dest
  · rw [if_pos ((isLexicallyInRoot_iff rootfs dest).mpr hin)]
    by_cases heq : rootfs.names = dest.names
    · rw [(rel_eq_dot_iff _ _).mpr heq]
      simp [heq]
    · have hdot : ['/'].intercalate (way rootfs dest) ≠ dot := by
        intro hway
        exact heq ((rel_eq_dot_iff _ _).mp ((rel_text heq).trans (congrArg Except.ok hway)))
      rw [rel_text heq]
      simp only [if_neg hdot]
      cases checkProcMount rootfs.text dest.text m with
      | error err => simp
      | ok u => simp [hin, heq]
  · rw [if_neg fun h => hin ((isLexicallyInRoot_iff rootfs dest).mp h)]
    simp [hin]

end Places

end Runc.Rootfs
