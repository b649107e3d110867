import Runc.Lib.PathPrefix
import Runc.Lib.Program

/-!
# Sub-cgroups for `runc exec`

`runc exec --cgroup` names a directory below the cgroup of the container, for all
controllers or for some of them. The arguments become a map from controllers to paths,
which is read in four places.

A map of the source is modelled by its entries; a loop over one runs through them in
an order that is part of the run (`Answers.requestOrder`, `Answers.order`).
-/

namespace Runc.Exec

open Lib
open Lib.Path

abbrev Paths := List (Text × Text)

inductive ArgErr
  | emptyController (arg : Text)
  | twice (ctrl : Text)
  | missingController (arg : Text)
deriving DecidableEq

def ArgErr.error : ArgErr → Text
  | .emptyController arg =>
      "invalid --cgroup argument: ".toList ++ arg ++ " (empty <controller> prefix)".toList
  | .twice ctrl =>
      "invalid --cgroup argument(s): controller ".toList ++ ctrl ++
        " specified multiple times".toList
  | .missingController arg =>
      "invalid --cgroup argument: ".toList ++ arg ++ " (missing <controller>: prefix)".toList

/-- `strings.Cut` at the first colon. -/
def cutColon (t : Text) : Option (Text × Text) :=
  if ':' ∈ t then some (t.takeWhile (· ≠ ':'), (t.dropWhile (· ≠ ':')).tail) else none

def addControllers (arg path : Text) : List Text → Paths → Except ArgErr Paths
  | [], paths => .ok paths
  | ctrl :: rest, paths =>
      if ctrl = [] then .error (.emptyController arg)
      else if ctrl ∈ paths.map Prod.fst then .error (.twice ctrl)
      else addControllers arg path rest (paths ++ [(ctrl, path)])

def addArg (count : Nat) (paths : Paths) (arg : Text) : Except ArgErr Paths :=
  match cutColon arg with
  | some (ctr, path) => addControllers arg path (ctr.splitOn ',') paths
  | none => if count ≠ 1 then .error (.missingController arg) else .ok (paths ++ [([], arg)])

def addArgs (count : Nat) : List Text → Paths → Except ArgErr Paths
  | [], paths => .ok paths
  | arg :: rest, paths =>
      match addArg count paths arg with
      | .error err => .error err
      | .ok paths => addArgs count rest paths

def getSubCgroupPaths (args : List Text) : Except ArgErr Paths :=
  addArgs args.length args []

structure Cgroups where
  /-- `IsCgroup2UnifiedMode`. -/
  unified : Bool
  systemd : Bool
  rootlessCgroups : Bool
  /-- `Path` of the cgroup configuration. -/
  path : Text
  /-- `GetPaths` of a manager for version 1. -/
  dirs : List (Text × AbsPath)
  dirs_nodup : (dirs.map Prod.fst).Nodup
  /-- `Path("")` of a manager for version 2. -/
  dir : AbsPath
  hierarchy : Text → Nat
  hierarchy_unified : unified = true → ∀ a b, hierarchy a = hierarchy b

def Cgroups.paths (c : Cgroups) : Paths :=
  c.dirs.map fun e => (e.1, e.2.text)

structure Answers where
  pid : Nat
  requestOrder : Paths → Paths
  requestOrder_perm : ∀ m, (requestOrder m).Perm m
  order : Paths → Paths
  order_perm : ∀ m, (order m).Perm m
  /-- The error of opening `cgroup.procs` in a directory, after those written before. -/
  openProcs : List Text → Text → Option Text
  /-- The error of an attempt to write to it, and whether it is `EINVAL`. -/
  attempt : List Text → Text → Nat → Option (Text × Bool)
  permission : Text → Bool
  opens : Text → Option Text
  cloneInto : Option Text
  clone : Option Text
  /-- The error of `AttachProcessesToUnit`, and where it puts a process on version 1. -/
  attach : Option Text
  attached : (Nat → Text) → Nat → Text
  /-- The error of `fs.NewManager`. -/
  newManager : Option Text
  /-- `initProcessCgroupPath`. -/
  initCgroup : Text
  before : Option Text
  after : Option Text

structure Process where
  place : Nat → Text
  written : List Text

def Process.move (c : Cgroups) (dir : Text) (p : Process) : Process where
  place h := if h = c.hierarchy dir then dir else p.place h
  written := p.written ++ [dir]

abbrev Op := Program Process Text

section Run

variable (c : Cgroups) (a : Answers)

def subCgroup (base sub : Text) : Except Text Text :=
  if base.isPrefixOf (join base sub) then .ok (join base sub)
  else .error ("bad sub cgroup path: ".toList ++ sub)

def writePid (attempt : Nat → Option (Text × Bool)) (failed : Text → Text) :
    Nat → Nat → Text → Option Text
  | _, 0, last => some last
  | n, left + 1, _ =>
      match attempt n with
      | none => none
      | some (err, true) => writePid attempt failed (n + 1) left err
      | some (err, false) => some (failed err)

def writeError (written : List Text) (dir : Text) : Option Text :=
  let failed (err : Text) : Text :=
    "failed to write ".toList ++ (toString a.pid).toList ++ ": ".toList ++ err
  if dir = [] then some "no such directory for cgroup.procs".toList
  else
    match a.openProcs written dir with
    | some err => some (failed err)
    | none => writePid (a.attempt written dir) failed 0 5 []

def writeCgroupProc (dir : Text) : Op Unit := do
  let p ← get
  Program.check (writeError a p.written dir)
  modify (·.move c dir)

def isIgnorableError (err : Text) : Bool :=
  c.rootlessCgroups && a.permission err

/-- `AddPid` of the manager for version 1, given the entries in the order of the loop and
whether an error was ignored. -/
def fsAddPid (sub : Text) : Paths → Bool → Op Unit
  | [], ignored =>
      Program.check <| if ignored then
        some "cgroup manager can not access cgroup (rootless container)".toList else none
  | (_, dir) :: rest, ignored =>
      match subCgroup dir sub with
      | .error err => throw err
      | .ok path => do
          let skip ← tryCatch (do writeCgroupProc c a path; pure false) fun err =>
            if isIgnorableError c a err && c.path = [] then pure true else throw err
          fsAddPid sub rest (ignored || skip)

def absSubcgroup (sub : Text) : Text :=
  if isAbs sub then sub else '/' :: sub

def unitSub (sub : Text) : Except Text Text :=
  if absSubcgroup sub ≠ clean (absSubcgroup sub) then
    .error ("bad sub cgroup path: ".toList ++ sub)
  else .ok (absSubcgroup sub)

def attachV1 (sub : Text) : Op Unit :=
  match unitSub sub with
  | .error err => throw err
  | .ok _ => do
      Program.check a.attach
      modify fun p => { p with place := a.attached p.place }
      Program.check a.newManager

/-- `AddPid` of the managers for version 1. -/
def addPidV1 (sub : Text) : Op Unit := do
  Program.onlyIf c.systemd (attachV1 a sub)
  fsAddPid c a sub (a.order c.paths) false

/-- `AddPid` of the managers for version 2. -/
def addPidV2 (sub : Text) : Op Unit :=
  if c.systemd then
    match unitSub sub with
    | .error err => throw err
    | .ok abs => do
        Program.check a.attach
        modify (·.move c (join c.dir.text abs))
  else
    match subCgroup c.dir.text sub with
    | .error err => throw err
    | .ok path => writeCgroupProc c a path

def setPath (ctrl path : Text) (paths : Paths) : Paths :=
  paths.map fun e => if e.1 = ctrl then (ctrl, path) else e

def resolvePaths : Paths → Paths → Except Text Paths
  | [], paths => .ok paths
  | (ctrl, sub) :: rest, paths =>
      match paths.lookup ctrl with
      | none => .error ("unknown controller ".toList ++ ctrl ++ " in SubCgroupPaths".toList)
      | some base =>
          match subCgroup base sub with
          | .error err => .error err
          | .ok cgPath => resolvePaths rest (setPath ctrl cgPath paths)

def addingErr (err : Text) : Text :=
  "error adding pid ".toList ++ (toString a.pid).toList ++ " to cgroups: ".toList ++ err

def orRootless (m : Op Unit) : Op Unit :=
  tryCatch m fun err => if c.rootlessCgroups then pure () else throw (addingErr a err)

def writePaths : Paths → Op Unit
  | [] => pure ()
  | (_, path) :: rest => do
      orRootless c a (writeCgroupProc c a path)
      writePaths rest

def addByController (req : Paths) : Op Unit :=
  match resolvePaths (a.requestOrder req) c.paths with
  | .error err => throw err
  | .ok paths => writePaths c a (a.order paths)

def addIntoCgroupV1 (req : Paths) : Op Unit :=
  match req.lookup [] with
  | some sub => orRootless c a (addPidV1 c a sub)
  | none => if req = [] then orRootless c a (addPidV1 c a []) else addByController c a req

def subV2 (req : Paths) : Text :=
  (req.lookup []).getD []

def addIntoCgroupV2 (req : Paths) : Op Unit :=
  orRootless c a <| tryCatch (addPidV2 c a (subV2 req)) fun err =>
    if subV2 req ≠ [] then throw err
    else if a.initCgroup = [] then throw err
    else writeCgroupProc c a a.initCgroup

def addIntoCgroup (useCgroupFD : Bool) (req : Paths) : Op Unit :=
  if useCgroupFD then pure ()
  else if c.unified then addIntoCgroupV2 c a req
  else addIntoCgroupV1 c a req

def openedPath (dir file : Text) : Text :=
  join dir (clean ('/' :: file))

def openFailed (err : Text) : Except Text (Option Text) :=
  if c.rootlessCgroups then .ok none else .error ("can't open cgroup: ".toList ++ err)

def openCgroup (sub : Text) : Except Text (Option Text) :=
  match a.opens (openedPath c.dir.text sub) with
  | none => .ok (some (openedPath c.dir.text sub))
  | some err =>
      if sub ≠ [] then openFailed c err
      else if a.initCgroup = [] then openFailed c err
      else
        match a.opens (openedPath a.initCgroup []) with
        | none => .ok (some (openedPath a.initCgroup []))
        | some err => openFailed c err

def prepareCgroupFD (req : Paths) : Except Text (Option Text) :=
  if !c.unified then .ok none
  else if c.dir.text = [] then .ok none
  else
    match subCgroup c.dir.text (subV2 req) with
    | .error err => .error err
    | .ok _ => openCgroup c a (subV2 req)

/-- The process is started, into the directory that was opened if there is one.  The
result is `UseCgroupFD` of the command that was started. -/
def startCommand : Option Text → Op Bool
  | none => do
      Program.check a.clone
      pure false
  | some dir =>
      match a.cloneInto with
      | none => do
          modify (·.move c dir)
          pure true
      | some _ => do
          Program.check a.clone
          pure false

def startWithCgroupFD (req : Paths) : Op Bool :=
  match prepareCgroupFD c a req with
  | .error err => throw err
  | .ok dir => startCommand c a dir

def start (req : Paths) : Op Unit := do
  let useCgroupFD ← Program.wrap ("error starting setns process: ".toList ++ ·)
    (startWithCgroupFD c a req)
  Program.check a.before
  addIntoCgroup c a useCgroupFD req
  Program.check a.after

end Run

end Runc.Exec
