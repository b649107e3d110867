import Runc.Lib.History
import Runc.Scanner.Finalize

/-!
# `runc run --security-scan`

`startContainer` from the command line to the call of `finalizeSecurityScan`. What the
system and the workload do is an input; the result is what the command returns, the
bundle afterwards and the order of the events that matter to a scan.
-/

namespace Runc.Scanner

open Lib

inductive WriteOutcome where
  | ok
  | openFailed (err : String)
  | cut (written : Nat) (err : String)
deriving DecidableEq, Repr

structure ScanEnv where
  getwd : Fault := none
  abs : Fault := none
  mkdirGenerated : Fault := none
  /-- `resolveRuncSelfExec`. -/
  runcBin : Except String Text := .ok "/usr/sbin/runc".toList
  /-- `allKnownCapabilityNames`. -/
  knownCaps : List Text := []
  seccompHook : Except String Text :=
    .ok "/usr/libexec/oci/hooks.d/oci-seccomp-bpf-hook".toList
  /-- `requireCapTraceTools`. -/
  capTraceTools : Fault := none
  writeProfile : WriteOutcome := .ok
  writeReadme : Fault := none
  /-- `apparmor.IsEnabled`. -/
  apparmorEnabled : Bool := true

inductive StartOutcome where
  | failed (err : String) (startLine : Option Text)
  | started (startLine : Text)
deriving DecidableEq, Repr

structure DestroyEnv where
  running : Fault := none
  cgroup : Fault := none
  intelRdt : Fault := none
  stateDir : Fault := none
  ociState : Fault := none
  hook : Nat → Fault := fun _ => none

structure Recorded where
  seccomp : Option SeccompJson := none
  traced : Text := []
  /-- What `readKernelAudit` returns. -/
  audit : Text := []
  collect : ProfileFaults := {}

structure Options where
  id : Text
  securityScan : Bool := true
  detach : Bool := false
  keep : Bool := false
  consoleSocket : Bool := false
  pidfdSocket : Bool := false
  pidFile : Bool := false
  preserveFDs : Nat := 0
  /-- `NOTIFY_SOCKET` is set. -/
  notifySocket : Bool := false

structure RunEnv where
  revisePidFile : Fault := none
  setupSpec : Fault := none
  capabilitiesMode : Fault := none
  scan : ScanEnv := {}
  createConfig : Fault := none
  createContainer : Fault := none
  notifyDirectory : Fault := none
  notifyBind : Fault := none
  newProcess : Fault := none
  procSelf : Fault := none
  preserveFD : Fault := none
  setupIO : Fault := none
  setupPidfd : Fault := none
  start : StartOutcome := .started []
  waitConsole : Fault := none
  createPidFile : Fault := none
  forward : Except String Nat := .ok 0
  destroy : DestroyEnv := {}
  recorded : Recorded := {}
  finalize : FinalizeFaults := {}

inductive Event where
  | workloadExited (status : Nat)
  | poststopRan (i : Nat)
  | configRewritten
deriving DecidableEq, Repr

structure World where
  bundle : Bundle
  events : List Event := []

def World.emit (w : World) (e : Event) : World :=
  { w with events := w.events ++ [e] }

def relaxSpecForScan (spec : Spec) : Spec :=
  { spec with
    linux := spec.linux.map (fun l => { l with seccomp := none })
    process := spec.process.map (fun p =>
      { p with selinuxLabel := [], noNewPrivileges := false }) }

def grantAllCapsForScan (knownCaps : List Text) (spec : Spec) : Spec :=
  if knownCaps = [] then spec else spec.setCapabilities knownCaps

/-- `spec.Annotations[key] = value`. -/
def Spec.annotate (spec : Spec) (key value : Text) : Spec :=
  { spec with
    annotations :=
      (key, value) :: spec.annotations.filter (fun a => a.1 ≠ key) }

/-- `filepath.Base` of an absolute path. -/
def pathBase (path : Text) : Text :=
  ((path.splitOn '/').getLast?).getD []

def scanHooks (runcBin hookPath : Text) (apparmorEnabled : Bool) (hooks : Hooks) : Hooks :=
  { hooks with
    prestart := hooks.prestart ++
      [.external hookPath [pathBase hookPath, "-s".toList]]
    createRuntime :=
      (if apparmorEnabled then [.self runcBin .scanAALoad] else []) ++
        hooks.createRuntime
    poststart := hooks.poststart ++
      [.self runcBin .scanCapSnapshot, .self runcBin .scanCapTraceStart]
    poststop :=
      (.self runcBin .scanCapTraceStop :: hooks.poststop) ++
        (if apparmorEnabled then [.self runcBin .scanAAUnload] else []) }

def scanSpec (env : ScanEnv) (runcBin hookPath profileName : Text)
    (dir : String) (spec : Spec) : Spec :=
  let spec := grantAllCapsForScan env.knownCaps (relaxSpecForScan spec)
  let spec := spec.annotate "io.containers.trace-syscall".toList
    ("of:".toList ++ (genPath dir "seccomp.json").toList)
  let spec :=
    { spec with
      hooks := some
        (scanHooks runcBin hookPath env.apparmorEnabled (spec.hooks.getD {})) }
  if env.apparmorEnabled then spec.setApparmorProfile profileName else spec

def scanChecks (env : ScanEnv) : Except String (Text × Text) := do
  env.getwd.check "security-scan: getwd: "
  env.abs.check "security-scan: abs bundle: "
  env.mkdirGenerated.check "security-scan: mkdir generated: "
  let runcBin ← env.runcBin
  let hookPath ← env.seccompHook
  env.capTraceTools.check "security-scan: "
  return (runcBin, hookPath)

/-- The spec in memory, and the bundle afterwards. -/
def applySecurityScan (unicode : Unicode) (env : ScanEnv) (opts : Options)
    (spec : Spec) (b : Bundle) : Except String Spec × Bundle :=
  if opts.securityScan = false then (.ok spec, b)
  else
    match scanChecks env with
    | .error err => (.error err, b)
    | .ok (runcBin, hookPath) =>
        let name := securityScanAppArmorProfileName unicode opts.id
        let source := buildAppArmorProfileSource name
        match env.writeProfile with
        | .openFailed err =>
            (.error ("security-scan: write apparmor.profile: " ++ err), b)
        | .cut written err =>
            (.error ("security-scan: write apparmor.profile: " ++ err),
              { b with apparmorProfile := some (source.take written) })
        | .ok =>
            let b := { b with apparmorProfile := some source }
            match env.writeReadme.check "security-scan: write apparmor readme: " with
            | .error err => (.error err, b)
            | .ok () => (.ok (scanSpec env runcBin hookPath name b.dir spec), b)

section Hooks

variable (unicode : Unicode) (env : RunEnv)

def poststopEffect (hook : Hook) (b : Bundle) : Bundle :=
  match hook with
  | .self _ .scanAAUnload =>
      match collectAndAppendAppArmorRules unicode env.recorded.collect
          (genPath b.dir "apparmor.profile") b.apparmorProfile
          env.recorded.audit with
      | .ok file => { b with apparmorProfile := file }
      | .error _ => b
  | _ => b

/-- `hooks.Run(Poststop, …)`: the hooks from the `i`-th on, up to the first error. -/
def runPoststop : Nat → List Hook → World → World
  | _, [], w => w
  | i, hook :: rest, w =>
      match env.destroy.hook i with
      | some _ => w.emit (.poststopRan i)
      | none =>
          runPoststop (i + 1) rest
            { bundle := poststopEffect unicode env hook w.bundle
              events := w.events ++ [.poststopRan i] }

/-- `Container.Destroy`; an error on the way leaves the hooks out. -/
def containerDestroy (hooks : List Hook) (w : World) : World :=
  let d := env.destroy
  if d.running.isSome ∨ d.cgroup.isSome ∨ d.intelRdt.isSome ∨
      d.stateDir.isSome ∨ d.ociState.isSome then w
  else runPoststop unicode env 0 hooks w

/-- `runner.destroy`. -/
def runnerDestroy (keep : Bool) (hooks : List Hook) (w : World) : World :=
  if keep then w else containerDestroy unicode env hooks w

end Hooks

section Runner

def traceText (startLine traced : Text) : Text :=
  "---- start ".toList ++ startLine ++ " ----\n".toList ++ traced

def RunEnv.appended (env : RunEnv) : Text :=
  match env.start with
  | .failed _ none => []
  | .failed _ (some line) => traceText line env.recorded.traced
  | .started line => traceText line env.recorded.traced

def record (env : RunEnv) (b : Bundle) : Bundle :=
  { b with
    seccompJson := env.recorded.seccomp.or b.seccompJson
    capTraceLog :=
      if env.appended = [] then b.capTraceLog
      else some (b.capTraceLog.getD [] ++ env.appended) }

def checkTerminal (opts : Options) (terminal : Bool) : Fault :=
  if opts.detach && terminal && !opts.consoleSocket then
    some "cannot allocate tty if runc will detach without setting console socket"
  else if (!opts.detach || !terminal) && opts.consoleSocket then
    some "cannot use console socket if runc will not detach or allocate tty"
  else none

structure RunResult where
  status : Int
  err : Fault
  world : World

variable (unicode : Unicode) (opts : Options) (env : RunEnv)

def runnerForward (hooks : List Hook) (w : World) : RunResult :=
  let destroyed := runnerDestroy unicode env opts.keep hooks
  match opts.detach, env.forward with
  | true, .ok _ => ⟨0, none, w⟩
  | true, .error _ =>
      -- only with a notify socket does the loop look at the process at all
      ⟨0, none, if opts.notifySocket then destroyed w else w⟩
  | false, .error err => ⟨-1, some err, destroyed w⟩
  | false, .ok status =>
      ⟨status, none, destroyed (w.emit (.workloadExited status))⟩

/-- `runner.run`; the two errors in shadowed variables do not destroy. -/
def runnerRun (terminal : Bool) (hooks : List Hook) (w : World) : RunResult :=
  let destroyed := runnerDestroy unicode env opts.keep hooks
  match checkTerminal opts terminal with
  | some err => ⟨-1, some err, destroyed w⟩
  | none =>
  match env.newProcess, env.procSelf with
  | some err, _ => ⟨-1, some err, destroyed w⟩
  | none, some err => ⟨-1, some err, destroyed w⟩
  | none, none =>
  match if opts.preserveFDs = 0 then none else env.preserveFD with
  | some err => ⟨-1, some err, w⟩
  | none =>
  match env.setupIO with
  | some err => ⟨-1, some err, destroyed w⟩
  | none =>
  match if opts.pidfdSocket then env.setupPidfd else none with
  | some err => ⟨-1, some err, w⟩
  | none =>
  let w := { w with bundle := record env w.bundle }
  match env.start with
  | .failed err _ => ⟨-1, some err, destroyed w⟩
  | .started _ =>
  match env.waitConsole with
  | some err => ⟨-1, some err, destroyed w⟩
  | none =>
  match if opts.pidFile then env.createPidFile else none with
  | some err => ⟨-1, some err, destroyed w⟩
  | none => runnerForward unicode opts env hooks w

def createContainer : Except String Unit := do
  env.createConfig.check ""
  if validateID opts.id = false then
    throw "invalid container ID format"
  env.createContainer.check ""
  if opts.notifySocket then
    env.notifyDirectory.check ""
    env.notifyBind.check ""

def setupSpec (b : Bundle) : Except String (Spec × Process) := do
  env.revisePidFile.check ""
  env.setupSpec.check ""
  match b.spec with
  | none => throw "invalid config.json"
  | some spec =>
      match spec.process with
      | none => throw "process property must not be empty"
      | some process =>
          env.capabilitiesMode.check ""
          if opts.id = [] then
            throw "container id cannot be empty"
          return (spec, process)

def finishRun (r : RunResult) : RunResult :=
  match r.err with
  | some _ => r
  | none =>
      let f :=
        finalizeSecurityScan env.finalize opts.securityScan .run r.world.bundle
      let w : World := { r.world with bundle := f.bundle }
      ⟨r.status, none, if f.rewrote then w.emit .configRewritten else w⟩

def startContainer (b : Bundle) : RunResult :=
  match setupSpec opts env b with
  | .error err => ⟨-1, some err, { bundle := b }⟩
  | .ok (spec, process) =>
      match applySecurityScan unicode env.scan opts spec b with
      | (.error err, b) => ⟨-1, some err, { bundle := b }⟩
      | (.ok spec, b) =>
          match createContainer opts env with
          | .error err => ⟨-1, some err, { bundle := b }⟩
          | .ok () =>
              finishRun opts env
                (runnerRun unicode opts env process.terminal
                  (spec.hooks.getD {}).poststop { bundle := b })

end Runner

section Frame

variable {unicode : Unicode} {opts : Options} {env : RunEnv}
variable {hooks : List Hook}

def SameFiles (b b' : Bundle) : Prop :=
  ∃ file, b' = { b with apparmorProfile := file }

theorem SameFiles.refl (b : Bundle) : SameFiles b b :=
  ⟨b.apparmorProfile, rfl⟩

theorem SameFiles.trans {b b' b'' : Bundle} (h : SameFiles b b') (h' : SameFiles b' b'') :
    SameFiles b b'' := by
  obtain ⟨file, rfl⟩ := h
  obtain ⟨file', rfl⟩ := h'
  exact ⟨file', rfl⟩

theorem poststopEffect_same (unicode : Unicode) (env : RunEnv) (hook : Hook) (b : Bundle) :
    SameFiles b (poststopEffect unicode env hook b) := by
  unfold poststopEffect
  split
  · split
    · exact ⟨_, rfl⟩
    · exact SameFiles.refl b
  · exact SameFiles.refl b

theorem runPoststop_same (i : Nat) (w : World) :
    SameFiles w.bundle (runPoststop unicode env i hooks w).bundle := by
  induction hooks generalizing i w with
  | nil => exact SameFiles.refl _
  | cons hook rest ih =>
    rw [runPoststop]
    split
    · exact SameFiles.refl _
    · refine (poststopEffect_same unicode env hook w.bundle).trans ?_
      exact ih (i + 1) _

theorem runnerDestroy_same (keep : Bool) (w : World) :
    SameFiles w.bundle (runnerDestroy unicode env keep hooks w).bundle := by
  unfold runnerDestroy containerDestroy
  dsimp only
  split
  · exact SameFiles.refl _
  · split
    · exact SameFiles.refl _
    · exact runPoststop_same 0 w

theorem runnerForward_same (w : World) :
    SameFiles w.bundle (runnerForward unicode opts env hooks w).world.bundle := by
  unfold runnerForward
  split
  · exact SameFiles.refl _
  · split
    · exact runnerDestroy_same _ w
    · exact SameFiles.refl _
  · exact runnerDestroy_same _ w
  · rename_i status _ _
    exact runnerDestroy_same _ (w.emit (.workloadExited status))

theorem mem_runPoststop {i : Nat} {w : World} {e : Event} :
    e ∈ (runPoststop unicode env i hooks w).events ↔
      e ∈ w.events ∨ ∃ j, e = .poststopRan (i + j) ∧ j < hooks.length ∧
        ∀ k < j, env.destroy.hook (i + k) = none := by
  induction hooks generalizing i w with
  | nil => simp [runPoststop]
  | cons hook rest ih =>
    rw [runPoststop]
    cases hfault : env.destroy.hook i with
    | some err =>
      simp only [World.emit, List.mem_append, List.mem_singleton, List.length_cons]
      refine or_congr_right ⟨?_, ?_⟩
      · rintro rfl
        exact ⟨0, rfl, Nat.zero_lt_succ _, fun k hk => absurd hk (Nat.not_lt_zero k)⟩
      · rintro ⟨j, rfl, -, hbefore⟩
        cases j with
        | zero => rfl
        | succ j =>
          have hzero := hbefore 0 (Nat.zero_lt_succ j)
          rw [Nat.add_zero, hfault] at hzero
          cases hzero
    | none =>
      rw [ih]
      simp only [List.mem_append, List.mem_singleton, List.length_cons, or_assoc]
      refine or_congr_right ⟨?_, ?_⟩
      · rintro (rfl | ⟨j, rfl, hj, hbefore⟩)
        · exact ⟨0, rfl, Nat.zero_lt_succ _, fun k hk => absurd hk (Nat.not_lt_zero k)⟩
        · refine ⟨j + 1, by rw [Nat.add_right_comm, Nat.add_assoc], Nat.succ_lt_succ hj, ?_⟩
          intro k hk
          cases k with
          | zero => exact hfault
          | succ k =>
            have hk' := hbefore k (Nat.lt_of_succ_lt_succ hk)
            rwa [Nat.add_right_comm, Nat.add_assoc] at hk'
      · rintro ⟨j, rfl, hj, hbefore⟩
        cases j with
        | zero => exact Or.inl rfl
        | succ j =>
          refine Or.inr ⟨j, by rw [Nat.add_right_comm, Nat.add_assoc],
            Nat.lt_of_succ_lt_succ hj, ?_⟩
          intro k hk
          have hk' := hbefore (k + 1) (Nat.succ_lt_succ hk)
          rwa [← Nat.add_assoc, Nat.add_right_comm] at hk'

end Frame

end Runc.Scanner
