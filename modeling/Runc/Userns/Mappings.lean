import Runc.Bootstrap.Message
import Runc.Lib.Scanf

/-!
# Mappings of a user namespace

`GetUserNamespaceMappings` reads the id mappings of the user namespace that a path
names.
-/

namespace Runc.Userns

open Lib
open Bootstrap (IDMap)

inductive MapType
  | uid
  | gid
deriving DecidableEq

def MapType.name : MapType → Text
  | .uid => "uid_map".toList
  | .gid => "gid_map".toList

structure Host where
  intBits : Nat := 64
  readFile : Text → Except Text Text
  spawnUserNamespaceCat : Text → Text → Except Text Text
  parseIdmapData : Text → Except Text (List IDMap)

def procFormat : List Directive :=
  "/proc/".toList.map .lit ++ (.int :: ("/ns/user".toList.map .lit ++ [.rune]))

def fastPath (intBits : Nat) (nsPath : Text) : Option Nat :=
  match sscanf intBits procFormat nsPath with
  | [pid] => if 0 < pid then some pid.toNat else none
  | _ => none

/-- `/proc/<pid>/<name>`. -/
def procFile (pid : Nat) (map : MapType) : Text :=
  "/proc/".toList ++ (Nat.toDigits 10 pid ++ ("/".toList ++ map.name))

section Read

variable (host : Host) (nsPath : Text)

def joinData (map : MapType) : Except Text Text :=
  host.spawnUserNamespaceCat nsPath ("/proc/self/".toList ++ map.name)

/-- The file of the process, or else of one that joins. -/
def mapData (fast : Option Nat) (map : MapType) : Except Text Text :=
  match fast with
  | none => joinData host nsPath map
  | some pid =>
      match host.readFile (procFile pid map) with
      | .ok data => .ok data
      | .error _ => joinData host nsPath map

def readMap (fast : Option Nat) (map : MapType) : Except Text (List IDMap) :=
  match mapData host nsPath fast map with
  | .error err => .error err
  | .ok data =>
      match host.parseIdmapData data with
      | .error err =>
          .error ("failed to parse ".toList ++ map.name ++ " of userns ".toList ++
            nsPath ++ ": ".toList ++ err)
      | .ok idMap => .ok idMap

def readMaps (fast : Option Nat) : Except Text (List IDMap × List IDMap) := do
  let uidMap ← readMap host nsPath fast .uid
  let gidMap ← readMap host nsPath fast .gid
  return (uidMap, gidMap)

def getUserNamespaceMappings : Except Text (List IDMap × List IDMap) :=
  readMaps host nsPath (fastPath host.intBits nsPath)

end Read

/-- `/proc/<pid>/ns/user`. -/
def procUser (pid : Nat) : Text :=
  "/proc/".toList ++ (Nat.toDigits 10 pid ++ "/ns/user".toList)

/-- A path that starts with `/proc/` and a pid, and does not go on with `/ns/user`
and something behind it. -/
def Matches (intBits : Nat) (nsPath : Text) (pid : Nat) : Prop :=
  ∃ number rest, nsPath = "/proc/".toList ++ (number ++ rest) ∧
    ReadsAs intBits number pid ∧ rest.head?.all (!isDigit ·) = true ∧
    ∀ extra, rest = "/ns/user".toList ++ extra → extra = []

theorem sscanf_tail (intBits : Nat) (rest : Text) :
    sscanf intBits ("/ns/user".toList.map .lit ++ [.rune]) rest = [] ↔
      ∀ extra, rest = "/ns/user".toList ++ extra → extra = [] := by
  rw [sscanf_lits]
  split
  · rename_i hinitial
    obtain ⟨extra, rfl⟩ := hinitial
    rw [List.drop_left, sscanf]
    split
    · rename_i hnil
      subst hnil
      refine iff_of_true rfl fun extra heq => ?_
      exact (List.append_cancel_left heq).symm
    · rename_i hne
      refine iff_of_false (List.cons_ne_nil _ _) fun h => hne (h extra rfl)
  · rename_i hnot
    exact iff_of_true rfl fun extra heq => absurd ⟨extra, heq.symm⟩ hnot

theorem fastPath_eq_some_iff {intBits pid : Nat} {nsPath : Text} :
    fastPath intBits nsPath = some pid ↔ 0 < pid ∧ Matches intBits nsPath pid := by
  unfold fastPath procFormat
  rw [sscanf_lits]
  constructor
  · intro h
    split at h
    · rename_i value hscan
      split at hscan
      · rename_i hproc
        obtain ⟨t, rfl⟩ := hproc
        rw [List.drop_left, sscanf] at hscan
        split at hscan
        · cases hscan
        · rename_i read rest hint
          obtain ⟨rfl, htail⟩ := List.cons.inj hscan
          split at h
          · rename_i hpos
            obtain rfl := Option.some.inj h
            have hpid : 0 < read.toNat := by omega
            rw [← Int.toNat_of_nonneg hpos.le, scanInt_eq_some_iff hpid] at hint
            obtain ⟨number, rfl, hreads, hrest⟩ := hint
            exact ⟨hpid, number, rest, rfl, hreads, hrest, (sscanf_tail _ _).mp htail⟩
          · cases h
      · cases hscan
    · cases h
  · rintro ⟨hpid, number, rest, rfl, hreads, hrest, hextra⟩
    have hint := (scanInt_eq_some_iff hpid).mpr ⟨number, rfl, hreads, hrest⟩
    rw [if_pos (List.prefix_append _ _), List.drop_left, sscanf, hint]
    dsimp only
    rw [(sscanf_tail _ _).mpr hextra]
    simp [hpid]

theorem matches_procUser {intBits pid pid' : Nat} (hpid : 0 < pid)
    (h : Matches intBits (procUser pid') pid) : pid = pid' := by
  obtain ⟨number, rest, heq, hreads, hrest, -⟩ := h
  have hdigits : ∀ c ∈ Nat.toDigits 10 pid', isDigit c = true :=
    fun _ hc => isDigit_of_mem_toDigits hc
  have hafter : Nat.toDigits 10 pid' ++ "/ns/user".toList = number ++ rest :=
    List.append_cancel_left heq
  have hread := skipSpace_number (.inl rfl) Nat.toDigits_ne_nil hdigits "/ns/user".toList
  rw [List.nil_append, hafter] at hread
  have hscan := (scanInt_eq_some_iff hpid).mpr ⟨number, rfl, hreads, hrest⟩
  rw [scanInt, hread, Option.bind_some, ← hafter, scanNumber_eq_some_iff hpid] at hscan
  obtain ⟨-, digits, hsplit, -, hall, hvalue, -, hrest⟩ := hscan
  -- Both texts are the digits that the path starts with.
  have hsame : digits = Nat.toDigits 10 pid' := by
    rw [← (takeWhile_digits hall hrest).1, ← hsplit]
    exact (takeWhile_digits hdigits (by decide)).1
  rw [← hvalue, hsame]
  exact Nat.ofDigitChars_toDigits (by omega) (by omega)

/-- The path is `/proc/<pid>/ns/user` and nothing else. -/
def Exact (nsPath : Text) : Prop :=
  ∃ pid, 0 < pid ∧ nsPath = procUser pid

/-- The path reads like `/proc/<pid>` and goes on in another way. -/
def Stray (intBits : Nat) (nsPath : Text) : Prop :=
  ¬ Exact nsPath ∧ ∃ pid, 0 < pid ∧ Matches intBits nsPath pid

structure Named (host : Host) (mapOf : Text → MapType → Text) : Prop where
  join : ∀ nsPath map data, joinData host nsPath map = .ok data →
    data = mapOf nsPath map
  proc : ∀ pid map data, host.readFile (procFile pid map) = .ok data →
    data = mapOf (procUser pid) map

def ReadsNamed (host : Host) (mapOf : Text → MapType → Text) (nsPath : Text) : Prop :=
  ∀ uidMap gidMap, getUserNamespaceMappings host nsPath = .ok (uidMap, gidMap) →
    host.parseIdmapData (mapOf nsPath .uid) = .ok uidMap ∧
      host.parseIdmapData (mapOf nsPath .gid) = .ok gidMap

theorem readMap_eq_ok {host : Host} {nsPath : Text} {fast : Option Nat} {map : MapType}
    {idMap : List IDMap} (h : readMap host nsPath fast map = .ok idMap) :
    ∃ data, mapData host nsPath fast map = .ok data ∧
      host.parseIdmapData data = .ok idMap := by
  unfold readMap at h
  split at h
  · cases h
  · rename_i data hdata
    split at h
    · cases h
    · rename_i hparse
      cases h
      exact ⟨data, hdata, hparse⟩

theorem readMaps_eq_ok {host : Host} {nsPath : Text} {fast : Option Nat}
    {uidMap gidMap : List IDMap} (h : readMaps host nsPath fast = .ok (uidMap, gidMap)) :
    readMap host nsPath fast .uid = .ok uidMap ∧
      readMap host nsPath fast .gid = .ok gidMap := by
  unfold readMaps at h
  cases huid : readMap host nsPath fast .uid with
  | error err =>
    rw [huid] at h
    cases h
  | ok uids =>
    cases hgid : readMap host nsPath fast .gid with
    | error err =>
      rw [huid, hgid] at h
      cases h
    | ok gids =>
      rw [huid, hgid] at h
      cases h
      exact ⟨rfl, rfl⟩

theorem mapData_named {host : Host} {mapOf : Text → MapType → Text} (hnamed : Named host mapOf)
    {nsPath : Text} (hstray : ¬ Stray host.intBits nsPath) {map : MapType} {data : Text}
    (h : mapData host nsPath (fastPath host.intBits nsPath) map = .ok data) :
    data = mapOf nsPath map := by
  unfold mapData at h
  split at h
  · exact hnamed.join _ _ _ h
  · rename_i pid hfast
    obtain ⟨hpid, hmatches⟩ := fastPath_eq_some_iff.mp hfast
    obtain ⟨pid', hpid', rfl⟩ : Exact nsPath :=
      Classical.byContradiction fun hexact => hstray ⟨hexact, pid, hpid, hmatches⟩
    obtain rfl := matches_procUser hpid hmatches
    split at h
    · rename_i hread
      cases h
      exact hnamed.proc _ _ _ hread
    · exact hnamed.join _ _ _ h

def noJoin (intBits : Nat) : Host where
  intBits := intBits
  readFile _ := .ok []
  spawnUserNamespaceCat _ _ := .error []
  parseIdmapData _ := .ok []

/-- The shortcut. -/
theorem userns_shortcut_iff (intBits : Nat) (nsPath : Text) :
    (∀ host mapOf, host.intBits = intBits → Named host mapOf →
        ReadsNamed host mapOf nsPath ∧
          (¬ Exact nsPath →
            getUserNamespaceMappings host nsPath = readMaps host nsPath none)) ↔
      ¬ Stray intBits nsPath := by
  constructor
  · rintro h ⟨hexact, pid, hpid, hmatches⟩
    have hnamed : Named (noJoin intBits) (fun _ _ => []) :=
      ⟨fun _ _ _ hok => (by cases hok), fun _ _ _ hok => (Except.ok.inj hok).symm⟩
    have hjoin := (h (noJoin intBits) _ rfl hnamed).2 hexact
    have hfast := fastPath_eq_some_iff.mpr ⟨hpid, hmatches⟩
    change readMaps _ _ (fastPath intBits nsPath) = _ at hjoin
    rw [hfast] at hjoin
    cases hjoin
  · rintro hstray host mapOf rfl hnamed
    refine ⟨fun uidMap gidMap hok => ?_, fun hexact => ?_⟩
    · obtain ⟨huid, hgid⟩ := readMaps_eq_ok hok
      obtain ⟨uids, huids, hparse⟩ := readMap_eq_ok huid
      obtain ⟨gids, hgids, hparse'⟩ := readMap_eq_ok hgid
      rw [mapData_named hnamed hstray huids] at hparse
      rw [mapData_named hnamed hstray hgids] at hparse'
      exact ⟨hparse, hparse'⟩
    · unfold getUserNamespaceMappings
      cases hfast : fastPath host.intBits nsPath with
      | none => rfl
      | some pid => exact absurd ⟨hexact, pid, fastPath_eq_some_iff.mp hfast⟩ hstray

def mountedPath : Text :=
  "/proc/7/root/run/userns/tenant".toList

def wholeRange : Text :=
  "0 0 4294967295".toList

def tenantRange : Text :=
  "0 100000 65536".toList

def tenantHost : Host where
  readFile _ := .ok wholeRange
  spawnUserNamespaceCat nsPath _ :=
    .ok (if nsPath = mountedPath then tenantRange else wholeRange)
  parseIdmapData data :=
    .ok (if data = wholeRange then [⟨0, 0, 4294967295⟩] else [⟨0, 100000, 65536⟩])

theorem procUser_getLast (pid : Nat) : (procUser pid).getLast? = some 'r' := by
  have hsplit : procUser pid =
      "/proc/".toList ++ (Nat.toDigits 10 pid ++ "/ns/use".toList) ++ ['r'] := by
    change "/proc/".toList ++ (Nat.toDigits 10 pid ++ "/ns/user".toList) = _
    simp
  rw [hsplit, List.getLast?_concat]

theorem mountedPath_ne (pid : Nat) : mountedPath ≠ procUser pid := by
  have hlast : mountedPath.getLast? ≠ some 'r' := by decide
  exact fun heq => hlast ((congrArg List.getLast? heq).trans (procUser_getLast pid))

theorem userns_shortcut_tenant :
    let mapOf := fun nsPath _ => if nsPath = mountedPath then tenantRange else wholeRange
    Named tenantHost mapOf ∧ ¬ Exact mountedPath ∧
      getUserNamespaceMappings tenantHost mountedPath =
        .ok ([⟨0, 0, 4294967295⟩], [⟨0, 0, 4294967295⟩]) ∧
      readMaps tenantHost mountedPath none =
        .ok ([⟨0, 100000, 65536⟩], [⟨0, 100000, 65536⟩]) := by
  have hpath := mountedPath_ne
  refine ⟨⟨fun nsPath map data hok => (Except.ok.inj hok).symm, fun pid map data hok => ?_⟩,
    fun ⟨pid, _, heq⟩ => hpath pid heq, rfl, rfl⟩
  exact (Except.ok.inj hok).symm.trans (if_neg (Ne.symm (hpath pid))).symm

end Runc.Userns
