import Runc.Scanner.StartContainer

/-!
# The order of exit, poststop hooks and finalize

When a scan gets as far as `finalizeSecurityScan`, and what has happened by then.
-/

namespace Runc.Scanner

open Lib

section Reaches

/-- `runner.run` returns no error. -/
structure RunnerOk (opts : Options) (env : RunEnv) (terminal : Bool) : Prop where
  checkTerminal : checkTerminal opts terminal = none
  newProcess : env.newProcess = none
  procSelf : env.procSelf = none
  preserveFD : opts.preserveFDs = 0 ∨ env.preserveFD = none
  setupIO : env.setupIO = none
  setupPidfd : opts.pidfdSocket = true → env.setupPidfd = none
  start : ∃ line, env.start = .started line
  waitConsole : env.waitConsole = none
  createPidFile : opts.pidFile = true → env.createPidFile = none
  forward : opts.detach = true ∨ ∃ status, env.forward = .ok status

structure ReachesFinalize (opts : Options) (env : RunEnv) (terminal : Bool) :
    Prop where
  revisePidFile : env.revisePidFile = none
  setupSpec : env.setupSpec = none
  capabilitiesMode : env.capabilitiesMode = none
  id : opts.id ≠ []
  scanChecks : ∃ paths, scanChecks env.scan = .ok paths
  writeProfile : env.scan.writeProfile = .ok
  writeReadme : env.scan.writeReadme = none
  createContainer : createContainer opts env = .ok ()
  runner : RunnerOk opts env terminal

variable {unicode : Unicode} {opts : Options} {env : RunEnv} {terminal : Bool}
variable {hooks : List Hook} {w : World}

theorem runnerForward_err (h : opts.detach = true ∨ ∃ status, env.forward = .ok status) :
    (runnerForward unicode opts env hooks w).err = none := by
  unfold runnerForward
  split
  · rfl
  · rfl
  · rename_i hdetach herr
    rcases h with h | ⟨status, h⟩
    · rw [hdetach] at h
      cases h
    · rw [herr] at h
      cases h
  · rfl

theorem runnerRun_of_ok (h : RunnerOk opts env terminal) :
    runnerRun unicode opts env terminal hooks w =
      runnerForward unicode opts env hooks
        { w with bundle := record env w.bundle } := by
  obtain ⟨line, hstart⟩ := h.start
  have hpreserve :
      (if opts.preserveFDs = 0 then none else env.preserveFD) = none := by
    rcases h.preserveFD with hzero | hnone
    · rw [if_pos hzero]
    · rw [hnone, ite_self]
  have hpidfd :
      (if opts.pidfdSocket then env.setupPidfd else none) = none := by
    split
    · exact h.setupPidfd (by assumption)
    · rfl
  have hpidFile :
      (if opts.pidFile then env.createPidFile else none) = none := by
    split
    · exact h.createPidFile (by assumption)
    · rfl
  unfold runnerRun
  simp only [h.checkTerminal, h.newProcess, h.procSelf, hpreserve, h.setupIO,
    hpidfd, hstart, h.waitConsole, hpidFile]

theorem runnerForward_ok (h : (runnerForward unicode opts env hooks w).err = none) :
    opts.detach = true ∨ ∃ status, env.forward = .ok status := by
  cases hforward : env.forward with
  | ok status => exact Or.inr ⟨status, rfl⟩
  | error err =>
    cases hdetach : opts.detach with
    | true => exact Or.inl rfl
    | false => simp [runnerForward, hforward, hdetach] at h

theorem runnerRun_ok (h : (runnerRun unicode opts env terminal hooks w).err = none) :
    RunnerOk opts env terminal := by
  unfold runnerRun at h
  cases hterminal : checkTerminal opts terminal with
  | some err => simp [hterminal] at h
  | none =>
  cases hnew : env.newProcess with
  | some err => simp [hterminal, hnew] at h
  | none =>
  cases hself : env.procSelf with
  | some err => simp [hterminal, hnew, hself] at h
  | none =>
  simp only [hterminal, hnew, hself] at h
  cases hpreserve : (if opts.preserveFDs = 0 then none else env.preserveFD) with
  | some err => simp [hpreserve] at h
  | none =>
  cases hio : env.setupIO with
  | some err => simp [hpreserve, hio] at h
  | none =>
  simp only [hpreserve, hio] at h
  cases hpidfd : (if opts.pidfdSocket then env.setupPidfd else none) with
  | some err => simp [hpidfd] at h
  | none =>
  cases hstart : env.start with
  | failed err line => simp [hpidfd, hstart] at h
  | started line =>
  cases hwait : env.waitConsole with
  | some err => simp [hpidfd, hstart, hwait] at h
  | none =>
  simp only [hpidfd, hstart, hwait] at h
  cases hpidFile : (if opts.pidFile then env.createPidFile else none) with
  | some err => simp [hpidFile] at h
  | none =>
  rw [hpidFile] at h
  refine ⟨hterminal, hnew, hself, ?_, hio, ?_, ⟨line, hstart⟩, hwait, ?_, runnerForward_ok h⟩
  · by_cases hzero : opts.preserveFDs = 0
    · exact Or.inl hzero
    · rw [if_neg hzero] at hpreserve
      exact Or.inr hpreserve
  · intro hsocket
    rwa [if_pos hsocket] at hpidfd
  · intro hfile
    rwa [if_pos hfile] at hpidFile

def scanPoststop (env : ScanEnv) (runcBin : Text) (spec : Spec) : List Hook :=
  (.self runcBin .scanCapTraceStop :: (spec.hooks.getD {}).poststop) ++
    (if env.apparmorEnabled then [.self runcBin .scanAAUnload] else [])

theorem poststop_scanSpec
    (env : ScanEnv) (runcBin hookPath name : Text) (dir : String) (spec : Spec) :
    ((scanSpec env runcBin hookPath name dir spec).hooks.getD {}).poststop =
      scanPoststop env runcBin spec := by
  have hgrant : ∀ spec : Spec,
      (grantAllCapsForScan env.knownCaps spec).hooks = spec.hooks := by
    intro spec
    unfold grantAllCapsForScan
    split <;> rfl
  have hhooks : (grantAllCapsForScan env.knownCaps (relaxSpecForScan spec)).hooks =
        spec.hooks := hgrant _
  unfold scanSpec
  split <;>
  · simp only [Spec.setApparmorProfile, Option.getD_some, scanHooks, Spec.annotate, hhooks]
    rfl

def withTemplate (unicode : Unicode) (id : Text) (b : Bundle) : Bundle :=
  { b with
    apparmorProfile := some
      (buildAppArmorProfileSource
        (securityScanAppArmorProfileName unicode id)) }

variable {b : Bundle} {spec : Spec}

theorem applySecurityScan_ok {runcBin hookPath : Text}
    (hscan : opts.securityScan = true) (hchecks : scanChecks env.scan = .ok (runcBin, hookPath))
    (hprofile : env.scan.writeProfile = .ok) (hreadme : env.scan.writeReadme = none) :
    applySecurityScan unicode env.scan opts spec b =
      (.ok (scanSpec env.scan runcBin hookPath
        (securityScanAppArmorProfileName unicode opts.id) b.dir spec),
        withTemplate unicode opts.id b) := by
  unfold applySecurityScan
  rw [if_neg (by simp [hscan]), hchecks]
  rw [hprofile, hreadme]
  rfl

variable {process : Process}

theorem setupSpec_ok (hspec : b.spec = some spec)
    (hprocess : spec.process = some process) (hpid : env.revisePidFile = none)
    (hsetup : env.setupSpec = none) (hmode : env.capabilitiesMode = none) (hid : opts.id ≠ []) :
    setupSpec opts env b = .ok (spec, process) := by
  simp [setupSpec, hspec, hprocess, hpid, hsetup, hmode, hid, bind, Except.bind, pure, Except.pure]

theorem startContainer_reaches (unicode : Unicode)
    (hscan : opts.securityScan = true) (hspec : b.spec = some spec)
    (hprocess : spec.process = some process) (h : ReachesFinalize opts env process.terminal) :
    ∃ runcBin, startContainer unicode opts env b =
      finishRun opts env
        (runnerForward unicode opts env (scanPoststop env.scan runcBin spec)
          { bundle := record env (withTemplate unicode opts.id b) }) := by
  obtain ⟨⟨runcBin, hookPath⟩, hchecks⟩ := h.scanChecks
  refine ⟨runcBin, ?_⟩
  unfold startContainer
  rw [setupSpec_ok hspec hprocess h.revisePidFile h.setupSpec h.capabilitiesMode h.id]
  dsimp only
  rw [applySecurityScan_ok hscan hchecks h.writeProfile h.writeReadme]
  rw [h.createContainer]
  dsimp only
  rw [poststop_scanSpec, runnerRun_of_ok h.runner]

theorem setupSpec_inv {result : Spec × Process} (h : setupSpec opts env b = .ok result) :
    b.spec = some result.1 ∧ result.1.process = some result.2 ∧
      env.revisePidFile = none ∧ env.setupSpec = none ∧
      env.capabilitiesMode = none ∧ opts.id ≠ [] := by
  unfold setupSpec at h
  cases hpid : env.revisePidFile with
  | some err => simp [hpid, Fault.check, bind, Except.bind] at h
  | none =>
  cases hsetup : env.setupSpec with
  | some err => simp [hpid, hsetup, Fault.check, bind, Except.bind] at h
  | none =>
  cases hspec : b.spec with
  | none => simp [hpid, hsetup, hspec, bind, Except.bind] at h
  | some spec =>
  cases hprocess : spec.process with
  | none => simp [hpid, hsetup, hspec, hprocess, bind, Except.bind] at h
  | some process =>
  cases hmode : env.capabilitiesMode with
  | some err => simp [hpid, hsetup, hspec, hprocess, hmode, Fault.check, bind, Except.bind] at h
  | none =>
  by_cases hid : opts.id = []
  · simp [hpid, hsetup, hspec, hprocess, hmode, hid, bind, Except.bind] at h
  · simp only [hpid, hsetup, hspec, hprocess, hmode, hid, Fault.check_none, bind,
      Except.bind, pure, Except.pure, if_false] at h
    obtain rfl := Except.ok.inj h
    exact ⟨rfl, hprocess, rfl, rfl, rfl, hid⟩

theorem applySecurityScan_inv {spec' : Spec} {b' : Bundle} (hscan : opts.securityScan = true)
    (h : applySecurityScan unicode env.scan opts spec b = (.ok spec', b')) :
    (∃ paths, scanChecks env.scan = .ok paths) ∧
      env.scan.writeProfile = .ok ∧ env.scan.writeReadme = none := by
  unfold applySecurityScan at h
  rw [if_neg (by simp [hscan])] at h
  cases hchecks : scanChecks env.scan with
  | error err => simp [hchecks] at h
  | ok paths =>
  simp only [hchecks] at h
  cases hprofile : env.scan.writeProfile with
  | openFailed err => simp [hprofile] at h
  | cut written err => simp [hprofile] at h
  | ok =>
  simp only [hprofile] at h
  cases hreadme : env.scan.writeReadme with
  | some err => simp [hreadme, Fault.check] at h
  | none => exact ⟨⟨paths, rfl⟩, rfl, rfl⟩

theorem finishRun_err (r : RunResult) : (finishRun opts env r).err = r.err := by
  unfold finishRun
  split
  · rfl
  · rename_i h
    exact h.symm

theorem startContainer_ok (hscan : opts.securityScan = true) (hspec : b.spec = some spec)
    (hprocess : spec.process = some process) (h : (startContainer unicode opts env b).err = none) :
    ReachesFinalize opts env process.terminal := by
  unfold startContainer at h
  cases hsetup : setupSpec opts env b with
  | error err => simp [hsetup] at h
  | ok result =>
  obtain ⟨spec', process'⟩ := result
  obtain ⟨hs, hp, hpid, hspecFault, hmode, hid⟩ := setupSpec_inv hsetup
  rw [hspec] at hs
  obtain rfl := Option.some.inj hs
  rw [hprocess] at hp
  obtain rfl := Option.some.inj hp
  simp only [hsetup] at h
  cases happly : applySecurityScan unicode env.scan opts spec b with
  | mk applied b' =>
  cases applied with
  | error err => simp [happly] at h
  | ok spec' =>
  obtain ⟨hchecks, hprofile, hreadme⟩ := applySecurityScan_inv hscan happly
  simp only [happly] at h
  cases hcreate : createContainer opts env with
  | error err => simp [hcreate] at h
  | ok =>
  simp only [hcreate] at h
  rw [finishRun_err] at h
  exact ⟨hpid, hspecFault, hmode, hid, hchecks, hprofile, hreadme, hcreate, runnerRun_ok h⟩

end Reaches

section Events

variable {unicode : Unicode} {opts : Options} {env : RunEnv} {terminal : Bool}
variable {hooks : List Hook} {w : World} {e : Event}

theorem mem_runnerDestroy {keep : Bool} :
    e ∈ (runnerDestroy unicode env keep hooks w).events ↔
      e ∈ w.events ∨
        (keep = false ∧
          ¬ (env.destroy.running.isSome ∨ env.destroy.cgroup.isSome ∨
            env.destroy.intelRdt.isSome ∨ env.destroy.stateDir.isSome ∨
            env.destroy.ociState.isSome) ∧
          ∃ j, e = .poststopRan j ∧ j < hooks.length ∧
            ∀ k < j, env.destroy.hook k = none) := by
  unfold runnerDestroy containerDestroy
  dsimp only
  split
  · rename_i hkeep
    simp [hkeep]
  · rename_i hkeep
    split
    · rename_i hfault
      simp [hfault]
    · rename_i hfault
      rw [mem_runPoststop]
      simp [hkeep, hfault]

inductive RunnerEnd (unicode : Unicode) (opts : Options) (env : RunEnv)
    (hooks : List Hook) (w : World) : RunResult → Prop where
  | left (err : String) : RunnerEnd unicode opts env hooks w ⟨-1, some err, w⟩
  | destroyed (err : String) :
      RunnerEnd unicode opts env hooks w
        ⟨-1, some err, runnerDestroy unicode env opts.keep hooks w⟩
  | recorded (err : String) :
      RunnerEnd unicode opts env hooks w
        ⟨-1, some err, runnerDestroy unicode env opts.keep hooks
          { w with bundle := record env w.bundle }⟩
  | forward :
      RunnerEnd unicode opts env hooks w
        (runnerForward unicode opts env hooks
          { w with bundle := record env w.bundle })

theorem runnerRun_end (terminal : Bool) (w : World) :
    RunnerEnd unicode opts env hooks w
      (runnerRun unicode opts env terminal hooks w) := by
  unfold runnerRun
  repeat' split
  all_goals constructor

theorem runnerRun_events (he : .configRewritten ∈
      (runnerRun unicode opts env terminal hooks w).world.events) :
    .configRewritten ∈ w.events := by
  have hdestroy : ∀ w : World, .configRewritten ∈
      (runnerDestroy unicode env opts.keep hooks w).events →
        .configRewritten ∈ w.events := by
    intro w he
    rcases mem_runnerDestroy.mp he with he | ⟨-, -, j, hj, -⟩
    · exact he
    · cases hj
  have hend : RunnerEnd unicode opts env hooks w
      (runnerRun unicode opts env terminal hooks w) := runnerRun_end terminal w
  generalize runnerRun unicode opts env terminal hooks w = r at he hend
  cases hend with
  | left err => exact he
  | destroyed err => exact hdestroy w he
  | recorded err => exact hdestroy { w with bundle := record env w.bundle } he
  | forward =>
    unfold runnerForward at he
    split at he
    · exact he
    · split at he
      · exact hdestroy { w with bundle := record env w.bundle } he
      · exact he
    · exact hdestroy { w with bundle := record env w.bundle } he
    · have hexit := hdestroy _ he
      rcases List.mem_append.mp hexit with hexit | hexit
      · exact hexit
      · cases List.mem_singleton.mp hexit

end Events

section Order

variable {unicode : Unicode} {opts : Options} {env : RunEnv}

def poststopCount (env : ScanEnv) (spec : Spec) : Nat :=
  (spec.hooks.getD {}).poststop.length + 1 + if env.apparmorEnabled then 1 else 0

@[simp]
theorem length_scanPoststop (env : ScanEnv) (runcBin : Text) (spec : Spec) :
    (scanPoststop env runcBin spec).length = poststopCount env spec := by
  unfold scanPoststop poststopCount
  split <;> simp

def FinalizeSafe (hookCount : Nat) (events : List Event) : Prop :=
  Precedes
    (fun before => .workloadExited 0 ∈ before ∧
      ∀ i < hookCount, .poststopRan i ∈ before)
    .configRewritten events

structure CleanExit (opts : Options) (env : RunEnv) (hookCount : Nat) : Prop where
  attached : opts.detach = false
  destroyed : opts.keep = false
  status : env.forward = .ok 0
  running : env.destroy.running = none
  cgroup : env.destroy.cgroup = none
  intelRdt : env.destroy.intelRdt = none
  stateDir : env.destroy.stateDir = none
  ociState : env.destroy.ociState = none
  hooks : ∀ k, k + 1 < hookCount → env.destroy.hook k = none

def RunEnv.withArtefacts (env : RunEnv) (recorded : Recorded)
    (finalize : FinalizeFaults) : RunEnv :=
  { env with recorded := recorded, finalize := finalize }

theorem reachesFinalize_withArtefacts
    {terminal : Bool} {recorded : Recorded} {finalize : FinalizeFaults} :
    ReachesFinalize opts (env.withArtefacts recorded finalize) terminal ↔
      ReachesFinalize opts env terminal := by
  constructor
  · rintro ⟨h1, h2, h3, h4, h5, h6, h7, h8, h9⟩
    exact ⟨h1, h2, h3, h4, h5, h6, h7, h8,
      ⟨h9.1, h9.2, h9.3, h9.4, h9.5, h9.6, h9.7, h9.8, h9.9, h9.10⟩⟩
  · rintro ⟨h1, h2, h3, h4, h5, h6, h7, h8, h9⟩
    exact ⟨h1, h2, h3, h4, h5, h6, h7, h8,
      ⟨h9.1, h9.2, h9.3, h9.4, h9.5, h9.6, h9.7, h9.8, h9.9, h9.10⟩⟩

variable {status : Nat} {b : Bundle} {hooks : List Hook}

theorem not_exited_of_runnerDestroy {keep : Bool} :
    .workloadExited status ∉
      (runnerDestroy unicode env keep hooks { bundle := b }).events := by
  intro he
  rcases mem_runnerDestroy.mp he with he | ⟨-, -, j, hj, -⟩
  · exact absurd he List.not_mem_nil
  · cases hj

theorem exited_of_runnerForward (he : .workloadExited status ∈
      (runnerForward unicode opts env hooks { bundle := b }).world.events) :
    opts.detach = false ∧ env.forward = .ok status := by
  unfold runnerForward at he
  split at he
  · exact absurd he List.not_mem_nil
  · split at he
    · exact absurd he not_exited_of_runnerDestroy
    · exact absurd he List.not_mem_nil
  · exact absurd he not_exited_of_runnerDestroy
  · rename_i hdetach hforward
    rcases mem_runnerDestroy.mp he with he | ⟨-, -, j, hj, -⟩
    · cases List.mem_singleton.mp he
      exact ⟨hdetach, hforward⟩
    · cases hj

theorem runnerForward_exit {w : World}
    (hdetach : opts.detach = false) (hforward : env.forward = .ok status) :
    runnerForward unicode opts env hooks w =
      ⟨status, none, runnerDestroy unicode env opts.keep hooks
        (w.emit (.workloadExited status))⟩ := by
  simp [runnerForward, hdetach, hforward]

theorem mem_runnerForward (hne : hooks ≠ []) :
    (.workloadExited 0 ∈
          (runnerForward unicode opts env hooks { bundle := b }).world.events ∧
        ∀ i < hooks.length, .poststopRan i ∈
          (runnerForward unicode opts env hooks { bundle := b }).world.events) ↔
      CleanExit opts env hooks.length := by
  have hlen : 0 < hooks.length := List.length_pos_iff.mpr hne
  constructor
  · rintro ⟨hexit, hran⟩
    obtain ⟨hdetach, hforward⟩ := exited_of_runnerForward hexit
    -- the last hook ran, so destroy got to the hooks and those before succeeded
    have hlast := hran (hooks.length - 1) (Nat.sub_lt hlen Nat.zero_lt_one)
    rw [runnerForward_exit hdetach hforward] at hlast
    rcases mem_runnerDestroy.mp hlast with hlast | ⟨hkeep, hfaults, j, hj, -, hbefore⟩
    · cases List.mem_singleton.mp hlast
    · obtain rfl := Event.poststopRan.inj hj
      simp only [Option.isSome_iff_ne_none, not_or, not_not] at hfaults
      obtain ⟨hrunning, hcgroup, hrdt, hdir, hstate⟩ := hfaults
      refine ⟨hdetach, hkeep, hforward, hrunning, hcgroup, hrdt, hdir, hstate, ?_⟩
      intro k hk
      exact hbefore k (by omega)
  · intro h
    have hfaults : ¬ (env.destroy.running.isSome ∨ env.destroy.cgroup.isSome ∨
        env.destroy.intelRdt.isSome ∨ env.destroy.stateDir.isSome ∨
        env.destroy.ociState.isSome) := by
      simp [h.running, h.cgroup, h.intelRdt, h.stateDir, h.ociState]
    rw [runnerForward_exit h.attached h.status]
    constructor
    · exact mem_runnerDestroy.mpr (Or.inl (by simp [World.emit]))
    · intro i hi
      refine mem_runnerDestroy.mpr (Or.inr ⟨h.destroyed, hfaults, i, rfl, hi, ?_⟩)
      intro k hk
      exact h.hooks k (by omega)

theorem finalize_rewrites {spec : Spec} {raw : Text} {sec : LinuxSeccomp}
    (hconfig : b.config = some (.marshalled spec)) (hseccomp : b.seccompJson = some ⟨raw, .ok sec⟩)
    (hraw : raw ≠ []) (haction : sec.defaultAction ≠ []) :
    (finalizeSecurityScan {} true .run b).rewrote = true := by
  have hspec : b.spec = some spec := by
    simp [Bundle.spec, hconfig, ConfigJson.unmarshal, Except.toOption]
  have happly : ∀ spec, applyGeneratedSeccomp {} b spec =
      .ok (true, spec.setSeccomp sec) := by
    intro spec
    simp [applyGeneratedSeccomp, hseccomp, hraw, haction, bind, Except.bind, pure, Except.pure]
  rw [(finalize_noFaults hspec).2]
  simp [reconcile, seccompStep, happly]

theorem finishRun_events (r : RunResult) (herr : r.err = none) :
    (finishRun opts env r).world.events =
      r.world.events ++
        if (finalizeSecurityScan env.finalize opts.securityScan .run
          r.world.bundle).rewrote then [.configRewritten] else [] := by
  unfold finishRun
  rw [herr]
  dsimp only
  split <;> simp [World.emit]

def OpensProfile (opts : Options) (env : RunEnv) (b : Bundle) : Prop :=
  (∃ result, setupSpec opts env b = .ok result) ∧
    (∃ paths, scanChecks env.scan = .ok paths) ∧
    ∀ err, env.scan.writeProfile ≠ .openFailed err

def CreatesContainer (opts : Options) (env : RunEnv) : Prop :=
  env.scan.writeReadme = none ∧ createContainer opts env = .ok ()

inductive StartEnd (unicode : Unicode) (opts : Options) (env : RunEnv)
    (b : Bundle) : RunResult → Prop where
  | early (hopen : ¬ OpensProfile opts env b) (err : String) :
      StartEnd unicode opts env b ⟨-1, some err, { bundle := b }⟩
  | cut (hopen : OpensProfile opts env b) (written : Nat) (err err' : String)
      (hcut : env.scan.writeProfile = .cut written err) :
      StartEnd unicode opts env b
        ⟨-1, some err',
          { bundle :=
              { b with
                apparmorProfile := some
                  ((buildAppArmorProfileSource
                    (securityScanAppArmorProfileName unicode opts.id)).take
                      written) } }⟩
  | template (hopen : OpensProfile opts env b)
      (hok : env.scan.writeProfile = .ok)
      (hstop : ¬ CreatesContainer opts env) (err : String) :
      StartEnd unicode opts env b
        ⟨-1, some err, { bundle := withTemplate unicode opts.id b }⟩
  | run (hopen : OpensProfile opts env b)
      (hok : env.scan.writeProfile = .ok)
      (hcreates : CreatesContainer opts env)
      (spec : Spec) (process : Process) (runcBin hookPath : Text)
      (hspec : b.spec = some spec) (hprocess : spec.process = some process)
      (hchecks : scanChecks env.scan = .ok (runcBin, hookPath)) :
      StartEnd unicode opts env b
        (finishRun opts env
          (runnerRun unicode opts env process.terminal
            (scanPoststop env.scan runcBin spec)
            { bundle := withTemplate unicode opts.id b }))

theorem startContainer_end (hscan : opts.securityScan = true) (b : Bundle) :
    StartEnd unicode opts env b (startContainer unicode opts env b) := by
  unfold startContainer
  cases hsetup : setupSpec opts env b with
  | error err =>
    refine .early (fun hopen => ?_) err
    obtain ⟨⟨result, hresult⟩, -, -⟩ := hopen
    rw [hsetup] at hresult
    cases hresult
  | ok result =>
  obtain ⟨spec, process⟩ := result
  obtain ⟨hspec, hprocess, -⟩ := setupSpec_inv hsetup
  dsimp only at hspec hprocess ⊢
  unfold applySecurityScan
  rw [if_neg (by simp [hscan])]
  cases hchecks : scanChecks env.scan with
  | error err =>
    refine .early (fun hopen => ?_) err
    obtain ⟨-, ⟨paths, hpaths⟩, -⟩ := hopen
    rw [hchecks] at hpaths
    cases hpaths
  | ok paths =>
  obtain ⟨runcBin, hookPath⟩ := paths
  have hopen : (∀ err, env.scan.writeProfile ≠ .openFailed err) → OpensProfile opts env b :=
    fun h => ⟨⟨_, hsetup⟩, ⟨_, hchecks⟩, h⟩
  cases hprofile : env.scan.writeProfile with
  | openFailed err => exact .early (fun h => h.2.2 err hprofile) _
  | cut written err => exact .cut (hopen (by simp [hprofile])) written err _ hprofile
  | ok =>
  have hopened := hopen (by simp [hprofile])
  cases hreadme : env.scan.writeReadme with
  | some err =>
    refine .template hopened hprofile (fun h => ?_) _
    rw [CreatesContainer, hreadme] at h
    cases h.1
  | none =>
  rw [Fault.check_none]
  cases hcreate : createContainer opts env with
  | error err =>
    refine .template hopened hprofile (fun h => ?_) err
    rw [CreatesContainer, hcreate] at h
    cases h.2
  | ok =>
    dsimp only
    rw [poststop_scanSpec]
    exact .run hopened hprofile ⟨hreadme, hcreate⟩ spec process runcBin
      hookPath hspec hprocess hchecks

theorem startContainer_stops (hscan : opts.securityScan = true)
    (h : (startContainer unicode opts env b).err ≠ none) :
    .configRewritten ∉ (startContainer unicode opts env b).world.events := by
  have hend : StartEnd unicode opts env b (startContainer unicode opts env b) :=
    startContainer_end hscan b
  generalize startContainer unicode opts env b = r at h hend
  cases hend with
  | early => exact List.not_mem_nil
  | cut => exact List.not_mem_nil
  | template => exact List.not_mem_nil
  | run =>
    rw [finishRun_err] at h
    intro he
    unfold finishRun at he
    split at he
    · exact absurd (runnerRun_events he) List.not_mem_nil
    · rename_i hnone
      exact h hnone

theorem cleanExit_withArtefacts
    {recorded : Recorded} {finalize : FinalizeFaults} {hookCount : Nat} :
    CleanExit opts (env.withArtefacts recorded finalize) hookCount ↔
      CleanExit opts env hookCount := by
  constructor
  · rintro ⟨h1, h2, h3, h4, h5, h6, h7, h8, h9⟩
    exact ⟨h1, h2, h3, h4, h5, h6, h7, h8, h9⟩
  · rintro ⟨h1, h2, h3, h4, h5, h6, h7, h8, h9⟩
    exact ⟨h1, h2, h3, h4, h5, h6, h7, h8, h9⟩

theorem startContainer_finalizes (unicode : Unicode) {spec : Spec} {process : Process}
    (hscan : opts.securityScan = true) (hspec : b.spec = some spec)
    (hprocess : spec.process = some process) (h : ReachesFinalize opts env process.terminal) :
    ∃ b', SameFiles (record env b) b' ∧
      (startContainer unicode opts env b).world.bundle =
        (finalizeSecurityScan env.finalize true .run b').bundle ∧
      (FinalizeSafe (poststopCount env.scan spec)
          (startContainer unicode opts env b).world.events ↔
        ((finalizeSecurityScan env.finalize true .run b').rewrote = true →
          CleanExit opts env (poststopCount env.scan spec))) := by
  obtain ⟨runcBin, hrun⟩ := startContainer_reaches unicode hscan hspec hprocess h
  have hne : scanPoststop env.scan runcBin spec ≠ [] := by
    simp [scanPoststop]
  have hsame : SameFiles (record env b) (record env (withTemplate unicode opts.id b)) := ⟨_, rfl⟩
  have hquiet : .configRewritten ∉
      (runnerForward unicode opts env (scanPoststop env.scan runcBin spec)
        { bundle := record env (withTemplate unicode opts.id b) }).world.events := by
    intro he
    have he' : .configRewritten ∈ (runnerRun unicode opts env process.terminal
        (scanPoststop env.scan runcBin spec)
        { bundle := withTemplate unicode opts.id b }).world.events := by
      rw [runnerRun_of_ok h.runner]
      exact he
    exact absurd (runnerRun_events he') List.not_mem_nil
  have herr : (runnerForward unicode opts env (scanPoststop env.scan runcBin spec)
      { bundle := record env (withTemplate unicode opts.id b) }).err = none :=
    runnerForward_err h.runner.forward
  have hforward : SameFiles (record env (withTemplate unicode opts.id b))
      (runnerForward unicode opts env (scanPoststop env.scan runcBin spec)
        { bundle := record env (withTemplate unicode opts.id b) }).world.bundle :=
    runnerForward_same { bundle := record env (withTemplate unicode opts.id b) }
  refine ⟨_, hsame.trans hforward, ?_, ?_⟩
  · rw [hrun]
    unfold finishRun
    rw [herr, hscan]
    dsimp only
    split <;> rfl
  · rw [hrun, finishRun_events _ herr, hscan]
    rw [← length_scanPoststop env.scan runcBin spec, ← mem_runnerForward hne]
    split
    · rename_i hrewrote
      rw [FinalizeSafe, precedes_concat_self hquiet]
      exact ⟨fun hsafe _ => hsafe, fun hsafe => hsafe hrewrote⟩
    · rename_i hrewrote
      rw [List.append_nil]
      exact ⟨fun _ htrue => absurd htrue hrewrote, fun _ => Precedes.of_not_mem hquiet⟩

/-- When finalize waits for the end of the scan. -/
theorem finalize_order_iff (unicode : Unicode) (opts : Options) (env : RunEnv)
    (spec : Spec) (process : Process) (hscan : opts.securityScan = true)
    (hprocess : spec.process = some process) :
    (∀ b recorded finalize, b.spec = some spec →
        FinalizeSafe (poststopCount env.scan spec)
          (startContainer unicode opts (env.withArtefacts recorded finalize)
            b).world.events) ↔
      (ReachesFinalize opts env process.terminal →
        CleanExit opts env (poststopCount env.scan spec)) := by
  constructor
  · intro hsafe hreach
    -- a bundle with a seccomp.json that finalize has to write
    let sec : LinuxSeccomp := { defaultAction := "SCMP_ACT_ERRNO".toList }
    let b : Bundle := { dir := "/bundle", config := some (.marshalled spec),
                        seccompJson := some ⟨['s'], .ok sec⟩ }
    have hreach' : ReachesFinalize opts (env.withArtefacts {} {})
        process.terminal := reachesFinalize_withArtefacts.mpr hreach
    have hspec : b.spec = some spec := rfl
    obtain ⟨b', ⟨file, rfl⟩, -, hiff⟩ :=
      startContainer_finalizes unicode hscan hspec hprocess hreach'
    have hrewrote : (finalizeSecurityScan {} true .run { record (env.withArtefacts {} {}) b with
          apparmorProfile := file }).rewrote = true := by
      have hseccomp : ({ record (env.withArtefacts {} {}) b with
          apparmorProfile := file } : Bundle).seccompJson = some ⟨['s'], .ok sec⟩ := rfl
      exact finalize_rewrites rfl hseccomp (List.cons_ne_nil _ _) (List.cons_ne_nil _ _)
    exact cleanExit_withArtefacts.mp (hiff.mp (hsafe b {} {} hspec) hrewrote)
  · intro hclean b recorded finalize hspec
    by_cases hreach : ReachesFinalize opts env process.terminal
    · obtain ⟨b', -, -, hiff⟩ := startContainer_finalizes unicode hscan hspec hprocess
          (reachesFinalize_withArtefacts.mpr hreach)
      exact hiff.mpr (fun _ => cleanExit_withArtefacts.mpr (hclean hreach))
    · refine Precedes.of_not_mem (startContainer_stops hscan (fun hnone => ?_))
      exact hreach (reachesFinalize_withArtefacts.mp (startContainer_ok hscan hspec hprocess hnone))

def appSpec : Spec :=
  { process := some {} }

def appBundle : Bundle :=
  { dir := "/bundle"
    config := some (.marshalled appSpec)
    seccompJson := some
      ⟨"\x7b\x7d".toList, .ok { defaultAction := "SCMP_ACT_ERRNO".toList }⟩ }

theorem finalize_order_attached :
    FinalizeSafe (poststopCount ({} : RunEnv).scan appSpec)
      (startContainer Unicode.ascii { id := "web".toList }
        (({} : RunEnv).withArtefacts {} {}) appBundle).world.events :=
  (finalize_order_iff Unicode.ascii { id := "web".toList } {} appSpec {} rfl rfl).mpr
    (fun _ => ⟨rfl, rfl, rfl, rfl, rfl, rfl, rfl, rfl, fun _ _ => rfl⟩)
    appBundle {} {} rfl

theorem finalize_too_early : (startContainer Unicode.ascii { id := "web".toList, detach := true } {}
        appBundle).world.events = [.configRewritten] ∧
      (startContainer Unicode.ascii { id := "web".toList, keep := true } {}
        appBundle).world.events = [.workloadExited 0, .configRewritten] ∧
      (startContainer Unicode.ascii { id := "web".toList } { forward := .ok 1 }
        appBundle).world.events =
          [.workloadExited 1, .poststopRan 0, .poststopRan 1, .configRewritten] ∧
      ¬ FinalizeSafe 2 [.configRewritten] ∧
      ¬ FinalizeSafe 2 [.workloadExited 0, .configRewritten] ∧
      ¬ FinalizeSafe 2
        [.workloadExited 1, .poststopRan 0, .poststopRan 1, .configRewritten] := by
  refine ⟨by decide +kernel, by decide +kernel, by decide +kernel, ?_, ?_, ?_⟩
  · intro hsafe
    exact absurd (hsafe [] [] rfl).1 (by decide)
  · intro hsafe
    exact absurd ((hsafe [.workloadExited 0] [] rfl).2 0 (by decide)) (by decide)
  · intro hsafe
    exact absurd (hsafe [.workloadExited 1, .poststopRan 0, .poststopRan 1] [] rfl).1 (by decide)

end Order

end Runc.Scanner
