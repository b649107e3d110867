import Runc.Lib.Program
import Runc.Scanner.StartContainer
import Runc.Scanner.TraceLog

/-!
# The hooks that start and stop the tracer

`runScanCapTraceStart` pins a map under bpffs and spawns capable-bpfcc.
`runScanCapTraceStop` asks the tracer to end, waits for two seconds and then kills it.
How long the tracer takes to react to a signal is part of the input.
-/

namespace Runc.Scanner

open Lib

structure Tracer where
  pid : Nat
  pid_pos : 0 < pid
  /-- `PID_MAX_LIMIT`. -/
  pid_le : pid ≤ 4194304
  quits : Bool := false
  term : Option Nat
  kill : Nat
  early : List Text := []
  running : List Text := []
  late : List Text := []

structure TraceEnv where
  bundle : String
  /-- `Pid` of the hook state. -/
  pid : Int
  /-- `RUNC_SCAN_CAPABLE`. -/
  capableBin : Text
  /-- `RUNC_SCAN_BPFTOOL`. -/
  bpftool : Text
  /-- `RUNC_SCAN_CONTAINER_ID`. -/
  containerID : Text
  /-- `scanPinRoot`, a path that `filepath.Join` leaves as it is. -/
  pinRoot : Text := "/sys/fs/bpf/runc-scan".toList
  /-- `%q`. -/
  quote : Text → Text
  tracer : Tracer

structure TraceHost where
  log : Option (List TraceEntry) := none
  pidFile : Option Text := none
  /-- The directory of the container under `scanPinRoot` exists. -/
  pinDir : Bool := false
  alive : Bool := false

def WriteOutcome.leaves (old : Option Text) (content : Text) : WriteOutcome → Option Text
  | .ok => some content
  | .openFailed _ => old
  | .cut written _ => some (content.take written)

def WriteOutcome.fault : WriteOutcome → Fault
  | .ok => none
  | .openFailed err => some err
  | .cut _ err => some err

/-- `newCgroupFilterMap`: the directory of the map. -/
def TraceEnv.pinDir (env : TraceEnv) : Text :=
  env.pinRoot ++ "/".toList ++ trimSpace env.containerID

/-- `newCgroupFilterMap`: the path of the map. -/
def TraceEnv.pinPath (env : TraceEnv) : Text :=
  env.pinDir ++ "/cgroup_filter".toList

def attempt {σ : Type} (fault : Fault) (context : String) : Program σ String Unit :=
  Program.check (fault.map (context ++ ·))

def TraceHost.append (fault : Fault) (line : RuncLine) (host : TraceHost) : TraceHost :=
  match fault with
  | none => { host with log := some (host.log.getD [] ++ [.runc line]) }
  | some _ => host

def TraceHost.trace (lines : List Text) (host : TraceHost) : TraceHost :=
  if host.alive then
    { host with log := some (host.log.getD [] ++ lines.map .tracer) }
  else host

theorem TraceHost.append_frame (fault : Fault) (line : RuncLine) (host : TraceHost) :
    (host.append fault line).pidFile = host.pidFile ∧
      (host.append fault line).pinDir = host.pinDir ∧
      (host.append fault line).alive = host.alive := by
  cases fault <;> exact ⟨rfl, rfl, rfl⟩

theorem TraceHost.trace_frame (lines : List Text) (host : TraceHost) :
    (host.trace lines).pidFile = host.pidFile ∧
      (host.trace lines).pinDir = host.pinDir ∧
      (host.trace lines).alive = host.alive := by
  unfold TraceHost.trace
  split <;> exact ⟨rfl, rfl, rfl⟩

def TraceHost.teardown (fault : Fault) (host : TraceHost) : TraceHost :=
  match fault with
  | none => { host with pinDir := false }
  | some _ => host

structure StartWorld where
  readState : Fault := none
  mkdirGenerated : Fault := none
  openLog : Fault := none
  /-- `resolveContainerCgroupV2`. -/
  cgroup : Except String (Text × Nat)
  logStart : Fault := none
  mkdirPin : Fault := none
  /-- `bpftool map create`. -/
  createMap : Fault := none
  /-- `bpftool map update`. -/
  addCgroup : Fault := none
  teardown : Fault := none
  spawn : Fault := none
  writePid : WriteOutcome := .ok
  logTracing : Fault := none
  now : Stamp

def TraceEnv.missing (env : TraceEnv) : Fault :=
  if trimSpace env.capableBin = [] then some "RUNC_SCAN_CAPABLE not set"
  else if trimSpace env.bpftool = [] then some "RUNC_SCAN_BPFTOOL not set"
  else if trimSpace env.containerID = [] then some "RUNC_SCAN_CONTAINER_ID not set"
  else if env.pid ≤ 0 then some "hook state had no pid"
  else none

def Tracer.pidLine (tracer : Tracer) : Text :=
  decimal tracer.pid ++ "\n".toList

/-- `Create` and `AddCgroup`, and the spawn that follows. -/
def spawnTracer (env : TraceEnv) (w : StartWorld) : Program TraceHost String Unit := do
  attempt w.mkdirPin ("scan-cap-trace-start: mkdir " ++ String.ofList env.pinDir ++ ": ")
  modify fun host => { host with pinDir := true }
  attempt w.createMap
    ("scan-cap-trace-start: bpftool map create " ++ String.ofList env.pinPath ++ ": ")
  Program.onError
    (attempt w.addCgroup
      ("scan-cap-trace-start: bpftool map update " ++ String.ofList env.pinPath ++ ": "))
    (TraceHost.teardown w.teardown)
  Program.onError
    (attempt w.spawn "scan-cap-trace-start: spawn capable-bpfcc: ")
    (TraceHost.teardown w.teardown)
  modify fun host => TraceHost.trace env.tracer.early { host with alive := true }

def recordPid (env : TraceEnv) (w : StartWorld) : Program TraceHost String Unit := do
  modify fun host =>
    { host with pidFile := w.writePid.leaves host.pidFile env.tracer.pidLine }
  attempt w.writePid.fault "write pid file: "
  modify (TraceHost.append w.logTracing (.tracing env.tracer.pid env.pinPath))

/-- That the tracer cannot be released is only a warning. -/
def runScanCapTraceStart (env : TraceEnv) (w : StartWorld) :
    Program TraceHost String Unit := do
  attempt w.readState ""
  attempt w.mkdirGenerated ("mkdir " ++ env.bundle ++ "/generated: ")
  attempt env.missing "scan-cap-trace-start: "
  attempt w.openLog "open trace log: "
  modify fun host => { host with log := some (host.log.getD []) }
  match w.cgroup with
  | .error err => throw ("scan-cap-trace-start: resolve cgroup: " ++ err)
  | .ok (cgPath, cgID) =>
      modify (TraceHost.append w.logStart
        (.started w.now env.pid.toNat cgPath cgID (trimSpace env.capableBin)))
      spawnTracer env w
      recordPid env w

structure StopWorld where
  readState : Fault := none
  mkdirGenerated : Fault := none
  readPid : Fault := none
  findProcess : Fault := none
  other : Nat → Nat → Bool := fun _ _ => false
  term : Fault := none
  kill : Fault := none
  oversleep : Nat → Nat := fun _ => 0
  leaving : Nat := 0
  log : Fault := none
  teardown : Fault := none
  logTeardown : Fault := none
  removePid : Fault := none
  now : Stamp

def atoi (t : Text) : Option Int :=
  let (negative, digits) :=
    match t with
    | '-' :: rest => (true, rest)
    | '+' :: rest => (false, rest)
    | rest => (false, rest)
  if digits ≠ [] ∧ digits.all isDigit then
    let n := Nat.ofDigitChars 10 digits 0
    if negative then
      if n ≤ 2 ^ 63 then some (-n) else none
    else if n < 2 ^ 63 then some n else none
  else none

theorem atoi_of_digits {t : Text} (hne : t ≠ []) (ht : ∀ c ∈ t, isDigit c = true)
    (hlt : Nat.ofDigitChars 10 t 0 < 2 ^ 63) : atoi t = some (Nat.ofDigitChars 10 t 0 : Int) := by
  have hall : t.all isDigit = true := List.all_eq_true.mpr ht
  unfold atoi
  cases t with
  | nil => exact absurd rfl hne
  | cons c rest =>
    have hdigit := ht c List.mem_cons_self
    split
    · rename_i heq
      split at heq
      · rename_i hsign
        cases hsign
        exact absurd hdigit (by decide)
      · rename_i hsign
        cases hsign
        exact absurd hdigit (by decide)
      · cases heq
        rw [if_pos ⟨hne, hall⟩]
        exact if_pos hlt

theorem atoi_numberLine {n : Nat} (hn : n < 2 ^ 63) :
    atoi (trimSpace (Nat.toDigits 10 n ++ ['\n'])) = some (n : Int) := by
  have hdigits : ∀ c ∈ Nat.toDigits 10 n, isDigit c = true := fun _ hc => isDigit_of_mem_toDigits hc
  have hvalue : Nat.ofDigitChars 10 (Nat.toDigits 10 n) 0 = n :=
    Nat.ofDigitChars_toDigits (by omega) (by omega)
  have htrim : trimSpace (Nat.toDigits 10 n ++ ['\n']) = Nat.toDigits 10 n :=
    trimSpace_newline Nat.toDigits_ne_nil fun c hc => by
      simp [isWord, hdigits c hc]
  rw [htrim, atoi_of_digits Nat.toDigits_ne_nil hdigits (by omega), hvalue]

def readPid (raw : Text) : Option Nat :=
  match atoi (trimSpace raw) with
  | none => none
  | some pid => if pid ≤ 0 then none else some pid.toNat

def scanCapTraceStopTimeout : Nat := 2000

/-- The loop of the stop hook, from `elapsed` milliseconds after SIGTERM on:
whether the process was seen to be gone, and when the loop ended. -/
def pollUntil (there : Nat → Bool) (oversleep : Nat → Nat) (turn elapsed : Nat) : Bool × Nat :=
  if elapsed < scanCapTraceStopTimeout then
    if there elapsed then
      pollUntil there oversleep (turn + 1) (elapsed + (50 + oversleep turn))
    else (true, elapsed)
  else (false, elapsed)
termination_by scanCapTraceStopTimeout - elapsed

def processDone : String := "os: process already finished"

def TraceHost.there (env : TraceEnv) (w : StopWorld) (pid : Nat) (host : TraceHost)
    (elapsed : Nat) : Bool :=
  if host.alive && pid = env.tracer.pid then !env.tracer.term.any (· ≤ elapsed)
  else w.other pid elapsed

def TraceHost.gone (host : TraceHost) : TraceHost :=
  { host with alive := false }

def signalTracer (env : TraceEnv) (w : StopWorld) (pid : Nat) (host : TraceHost) :
    StopMsg × TraceHost :=
  let ours := host.alive && pid = env.tracer.pid
  if !(ours || w.other pid 0) then (.termFailed pid processDone.toList, host)
  else
    match w.term with
    | some err => (.termFailed pid err.toList, host)
    | none =>
        match pollUntil (host.there env w pid) w.oversleep 0 0 with
        | (true, _) => (.exited pid, if ours then host.gone else host)
        | (false, elapsed) =>
            let heeded := ours && env.tracer.term.any (· ≤ elapsed + w.leaving)
            if !host.there env w pid elapsed then
              (.killFailed pid processDone.toList, if ours then host.gone else host)
            else
              match w.kill with
              | some err =>
                  (.killFailed pid err.toList, if heeded then host.gone else host)
              | none =>
                  (.killSent pid,
                    if heeded || (ours && env.tracer.kill ≤ w.leaving) then host.gone
                    else host)

def stopTracer (env : TraceEnv) (w : StopWorld) (host : TraceHost) : TraceHost :=
  match host.pidFile, w.readPid with
  | some raw, none =>
      match readPid raw with
      | none => host.append w.log (.stopping w.now (.badPidFile (env.quote raw)))
      | some pid =>
          match w.findProcess with
          | some _ => host
          | none =>
              let host := host.trace env.tracer.late
              let (msg, host) := signalTracer env w pid host
              host.append w.log (.stopping w.now msg)
  | _, _ => host

def stopTeardown (env : TraceEnv) (w : StopWorld) (host : TraceHost) : TraceHost :=
  if trimSpace env.containerID = [] ∨ trimSpace env.bpftool = [] then host
  else
    match w.teardown with
    | none => host.teardown none
    | some err =>
        host.append w.logTeardown (.stopping w.now (.teardown env.pinDir err.toList))

def runScanCapTraceStop (env : TraceEnv) (w : StopWorld) :
    Program TraceHost String Unit := do
  attempt w.readState ""
  attempt w.mkdirGenerated ("mkdir " ++ env.bundle ++ "/generated: ")
  modify (stopTracer env w)
  modify (stopTeardown env w)
  -- the pid file is removed last
  modify fun host =>
    { host with pidFile := if w.removePid.isSome then host.pidFile else none }

def whileRunning (env : TraceEnv) (host : TraceHost) : TraceHost :=
  let host := host.trace env.tracer.running
  if env.tracer.quits then host.gone else host

def capTraceRun (env : TraceEnv) (start : StartWorld) (stop : StopWorld)
    (host : TraceHost) : TraceHost :=
  let started := ((runScanCapTraceStart env start).exec host).2
  ((runScanCapTraceStop env stop).exec (whileRunning env started)).2

end Runc.Scanner
