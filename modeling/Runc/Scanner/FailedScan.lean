import Mathlib.Data.List.TakeDrop
import Runc.Scanner.ScanRuns
import Runc.Scanner.Handover

/-!
# A scan that fails on a finalized bundle

The profile of an earlier scan is overwritten with the template before the container is
created.
-/

namespace Runc.Scanner

open Lib

section Unload

variable {unicode : Unicode} {env : RunEnv} {hooks : List Hook} {name : Text}
  {keep : Bool} {w : World} {i : Nat}

def Hook.unloads : Hook → Bool
  | .self _ .scanAAUnload => true
  | _ => false

theorem poststopEffect_profile (hook : Hook) (b : Bundle) :
    (poststopEffect unicode env hook b).apparmorProfile =
      if hook.unloads then
        collectedProfile unicode env.recorded.collect
          (genPath b.dir "apparmor.profile") b.apparmorProfile
          env.recorded.audit
      else b.apparmorProfile := by
  cases hook with
  | external path args => rfl
  | self bin command =>
    cases command with
    | scanAAUnload =>
      rw [poststopEffect, Hook.unloads, if_pos rfl, collectedProfile]
      cases collectAndAppendAppArmorRules unicode env.recorded.collect
        (genPath b.dir "apparmor.profile") b.apparmorProfile
        env.recorded.audit <;> rfl
    | _ => rfl

def reachesUnload (env : RunEnv) : Nat → List Hook → Bool
  | _, [] => false
  | i, hook :: rest =>
      (env.destroy.hook i).isNone &&
        (hook.unloads || reachesUnload env (i + 1) rest)

theorem runPoststop_keeps {P : Option Text → Prop}
    (hcollect : ∀ path file, P file → P (collectedProfile unicode
      env.recorded.collect path file env.recorded.audit)) (hw : P w.bundle.apparmorProfile) :
    P (runPoststop unicode env i hooks w).bundle.apparmorProfile := by
  induction hooks generalizing i w with
  | nil => exact hw
  | cons hook rest ih =>
    rw [runPoststop]
    split
    · exact hw
    · refine ih ?_
      rw [poststopEffect_profile]
      split
      · exact hcollect _ _ hw
      · exact hw

theorem runPoststop_unreached (hreach : reachesUnload env i hooks = false) :
    (runPoststop unicode env i hooks w).bundle.apparmorProfile =
      w.bundle.apparmorProfile := by
  induction hooks generalizing i w with
  | nil => rfl
  | cons hook rest ih =>
    rw [runPoststop]
    cases hfault : env.destroy.hook i with
    | some err => rfl
    | none =>
      simp only [reachesUnload, hfault, Option.isNone_none, Bool.true_and,
        Bool.or_eq_false_iff] at hreach
      rw [ih hreach.2, poststopEffect_profile, hreach.1]
      rfl

theorem runPoststop_collects (hname : IsScanName name)
    (hcollects : Collects env.recorded.collect env.recorded.audit name)
    (hreach : reachesUnload env i hooks = true)
    (hw : w.bundle.apparmorProfile = some (buildAppArmorProfileSource name)) :
    MarkedProfile name
      (runPoststop unicode env i hooks w).bundle.apparmorProfile := by
  induction hooks generalizing i w with
  | nil => cases hreach
  | cons hook rest ih =>
    simp only [reachesUnload, Bool.and_eq_true, Option.isNone_iff_eq_none,
      Bool.or_eq_true] at hreach
    rw [runPoststop, hreach.1]
    cases hunloads : hook.unloads with
    | true =>
      refine runPoststop_keeps (fun _ _ => collectedProfile_marked hname) ?_
      rw [poststopEffect_profile, hunloads, if_pos rfl, hw,
        collectedProfile_template hname hcollects]
      exact ⟨_, rfl, contains_auditBlock _ _ _⟩
    | false =>
      refine ih (hreach.2.resolve_left (by simp [hunloads])) ?_
      rw [poststopEffect_profile, hunloads]
      exact hw

structure DestroyCollects (env : RunEnv) (keep : Bool) (hooks : List Hook)
    (name : Text) : Prop where
  keep : keep = false
  destroy : ¬ (env.destroy.running.isSome ∨ env.destroy.cgroup.isSome ∨
    env.destroy.intelRdt.isSome ∨ env.destroy.stateDir.isSome ∨
    env.destroy.ociState.isSome)
  unload : reachesUnload env 0 hooks = true
  collects : Collects env.recorded.collect env.recorded.audit name

theorem runnerDestroy_collects (hname : IsScanName name) (h : DestroyCollects env keep hooks name)
    (hw : w.bundle.apparmorProfile = some (buildAppArmorProfileSource name)) :
    MarkedProfile name
      (runnerDestroy unicode env keep hooks w).bundle.apparmorProfile := by
  rw [runnerDestroy, h.keep, if_neg (by decide), containerDestroy, if_neg h.destroy]
  exact runPoststop_collects hname h.collects h.unload hw

theorem runnerDestroy_stub (hname : IsScanName name) (h : ¬ DestroyCollects env keep hooks name)
    (hw : w.bundle.apparmorProfile = some (buildAppArmorProfileSource name)) :
    (runnerDestroy unicode env keep hooks w).bundle.apparmorProfile =
      some (buildAppArmorProfileSource name) := by
  unfold runnerDestroy containerDestroy
  dsimp only
  split
  · exact hw
  · rename_i hkeep
    split
    · exact hw
    · rename_i hdestroy
      by_cases hcollects : Collects env.recorded.collect env.recorded.audit name
      · have hunreached : reachesUnload env 0 hooks = false :=
          Bool.eq_false_iff.mpr (fun hunload =>
            h ⟨Bool.eq_false_iff.mpr hkeep, hdestroy, hunload, hcollects⟩)
        rw [runPoststop_unreached hunreached, hw]
      · refine runPoststop_keeps (P := (· = some (buildAppArmorProfileSource name)))
          (fun path file hfile => ?_) hw
        rw [hfile]
        exact collectedProfile_of_not_collects (profileName_template hname) hcollects

def runnerLeaves (opts : Options) (env : RunEnv) (terminal : Bool) : Bool :=
  (checkTerminal opts terminal).isNone && env.newProcess.isNone &&
    env.procSelf.isNone &&
    ((if opts.preserveFDs = 0 then none else env.preserveFD).isSome ||
      (env.setupIO.isNone &&
        (if opts.pidfdSocket then env.setupPidfd else none).isSome))

theorem runnerRun_failed {opts : Options} {terminal : Bool}
    (h : (runnerRun unicode opts env terminal hooks w).err ≠ none) :
    (runnerLeaves opts env terminal = true ∧
        (runnerRun unicode opts env terminal hooks w).world = w) ∨
      (runnerLeaves opts env terminal = false ∧
        ∃ w', w'.bundle.apparmorProfile = w.bundle.apparmorProfile ∧
          w'.bundle.config = w.bundle.config ∧
          w'.bundle.dir = w.bundle.dir ∧
          (runnerRun unicode opts env terminal hooks w).world =
            runnerDestroy unicode env opts.keep hooks w') := by
  unfold runnerRun at h ⊢
  unfold runnerLeaves
  cases hterminal : checkTerminal opts terminal with
  | some err => exact Or.inr ⟨rfl, w, rfl, rfl, rfl, rfl⟩
  | none =>
  cases hprocess : env.newProcess with
  | some err => exact Or.inr ⟨rfl, w, rfl, rfl, rfl, rfl⟩
  | none =>
  cases hself : env.procSelf with
  | some err => exact Or.inr ⟨rfl, w, rfl, rfl, rfl, rfl⟩
  | none =>
  cases hfd : (if opts.preserveFDs = 0 then none else env.preserveFD) with
  | some err => exact Or.inl ⟨rfl, rfl⟩
  | none =>
  cases hio : env.setupIO with
  | some err => exact Or.inr ⟨rfl, w, rfl, rfl, rfl, rfl⟩
  | none =>
  cases hpidfd : (if opts.pidfdSocket then env.setupPidfd else none) with
  | some err => exact Or.inl ⟨rfl, rfl⟩
  | none =>
  refine Or.inr ⟨rfl, { w with bundle := record env w.bundle }, rfl, rfl, rfl, ?_⟩
  simp only [hterminal, hprocess, hself, hfd, hio, hpidfd] at h ⊢
  cases hstart : env.start with
  | failed err line => rfl
  | started line =>
  cases hconsole : env.waitConsole with
  | some err => rfl
  | none =>
  cases hpid : (if opts.pidFile then env.createPidFile else none) with
  | some err => rfl
  | none =>
  simp only [hstart, hconsole, hpid] at h ⊢
  cases hdetach : opts.detach with
  | true => exact absurd (runnerForward_err (Or.inl hdetach)) h
  | false =>
  cases hforward : env.forward with
  | ok status => exact absurd (runnerForward_err (Or.inr ⟨status, hforward⟩)) h
  | error err => simp only [runnerForward, hdetach, hforward]

end Unload

section Finalized

variable {unicode : Unicode} {opts : Options} {env : RunEnv}
variable {hooks : List Hook} {name : Text} {w : World} {scan : Scan}
variable {b : Bundle} {spec : Spec}

theorem runnerDestroy_inv {keep : Bool} (hname : IsScanName name)
    (hw : ScanProfile name w.bundle.apparmorProfile) :
    ScanProfile name
      (runnerDestroy unicode env keep hooks w).bundle.apparmorProfile := by
  unfold runnerDestroy containerDestroy
  dsimp only
  split
  · exact hw
  · split
    · exact hw
    · exact runPoststop_keeps (fun _ _ => collectedProfile_inv hname) hw

theorem runnerForward_inv (hname : IsScanName name)
    (hw : ScanProfile name w.bundle.apparmorProfile) :
    ScanProfile name
      (runnerForward unicode opts env hooks w).world.bundle.apparmorProfile := by
  unfold runnerForward
  split
  · exact hw
  · split
    · exact runnerDestroy_inv hname hw
    · exact hw
  · exact runnerDestroy_inv hname hw
  · exact runnerDestroy_inv hname hw

theorem finalize_profile (hspec : b.spec = some spec) :
    ∃ spec', (finalizeSecurityScan {} true .run b).bundle.apparmorProfile =
      (applyGeneratedAppArmor {} (genPath b.dir "apparmor.profile") spec'
        b.apparmorProfile).file := by
  obtain ⟨spec', backup, -, hcases⟩ := finalize_ok_cases (finalize_noFaults hspec).1
  rcases hcases with ⟨-, hb⟩ | hb
  · rw [hb]
    exact ⟨_, rfl⟩
  · rw [hb]
    exact ⟨_, rfl⟩

theorem Scan.Completes.apply_profile (unicode : Unicode) (h : scan.Completes spec)
    (hspec : b.spec = some spec) (hfinalize : scan.env.finalize = {}) :
    ∃ runcBin path spec', (scan.apply unicode b).apparmorProfile =
      (applyGeneratedAppArmor {} path spec'
        (scan.afterRunner unicode runcBin spec b).apparmorProfile).file := by
  obtain ⟨runcBin, hb⟩ := h.apply_finalize unicode hspec
  obtain ⟨spec', hprofile⟩ := finalize_profile (scan.afterRunner_spec unicode runcBin hspec)
  rw [hb, hfinalize, hprofile]
  exact ⟨runcBin, _, spec', rfl⟩

theorem Scan.Completes.finalProfile (unicode : Unicode) (h : scan.Completes spec)
    (hspec : b.spec = some spec) (hfinalize : scan.env.finalize = {}) :
    FinalProfile (securityScanAppArmorProfileName unicode scan.opts.id)
      (scan.apply unicode b).apparmorProfile := by
  have hname := isScanName_profileName unicode scan.opts.id
  obtain ⟨runcBin, path, spec', hprofile⟩ := h.apply_profile unicode hspec hfinalize
  have hscan : ScanProfile (securityScanAppArmorProfileName unicode scan.opts.id)
      (scan.afterRunner unicode runcBin spec b).apparmorProfile :=
    runnerForward_inv hname .stub
  rw [hprofile]
  exact (applyGeneratedAppArmor_ok hname hscan (applyGeneratedAppArmor_noFaults hname hscan)).2

theorem Scan.Completes.enforced (unicode : Unicode) (h : scan.Completes spec)
    (hspec : b.spec = some spec) (hfinalize : scan.env.finalize = {})
    (hattached : scan.opts.detach = false)
    (hcollects : ∀ runcBin, DestroyCollects scan.env scan.opts.keep
      (scanPoststop scan.env.scan runcBin spec)
      (securityScanAppArmorProfileName unicode scan.opts.id)) :
    (scan.apply unicode b).apparmorProfile.map inComplainMode = some false := by
  have hname := isScanName_profileName unicode scan.opts.id
  obtain ⟨runcBin, path, spec', hprofile⟩ := h.apply_profile unicode hspec hfinalize
  have hmarked : MarkedProfile (securityScanAppArmorProfileName unicode scan.opts.id)
      (scan.afterRunner unicode runcBin spec b).apparmorProfile := by
    unfold Scan.afterRunner runnerForward
    rw [hattached]
    cases scan.env.forward with
    | error err => exact runnerDestroy_collects hname (hcollects runcBin) rfl
    | ok status => exact runnerDestroy_collects hname (hcollects runcBin) rfl
  obtain ⟨tail, htail, hcontains⟩ := hmarked
  rw [hprofile, htail, applyGeneratedAppArmor_rules hname hcontains rfl,
    show replaceFile {} path = .ok () from rfl, Option.map_some,
    inComplainMode_flippedTemplate hname]

end Finalized

section Failed

variable {unicode : Unicode} {opts : Options} {env : RunEnv} {name : Text}
variable {b : Bundle}

def Bundle.loadDecision (b : Bundle) : Option (String × Text) :=
  b.spec.bind (fun spec => scanProfileLoadDecision spec b.dir b.apparmorProfile)

structure PolicyKept (b after : Bundle) : Prop where
  config : after.config = b.config
  profile : after.apparmorProfile = b.apparmorProfile
  decision : after.loadDecision = b.loadDecision
  mode : after.apparmorProfile.map inComplainMode =
    b.apparmorProfile.map inComplainMode

theorem policyKept_iff {after : Bundle} (hconfig : after.config = b.config)
    (hdir : after.dir = b.dir) :
    PolicyKept b after ↔ after.apparmorProfile = b.apparmorProfile := by
  constructor
  · exact PolicyKept.profile
  · intro hprofile
    refine ⟨hconfig, hprofile, ?_, ?_⟩
    · rw [Bundle.loadDecision, Bundle.loadDecision, Bundle.spec, Bundle.spec,
        hconfig, hdir, hprofile]
    · rw [hprofile]

structure Recollects (unicode : Unicode) (opts : Options) (env : RunEnv)
    (b : Bundle) : Prop where
  wrote : env.scan.writeProfile = .ok
  creates : CreatesContainer opts env
  destroys : ∃ spec process runcBin hookPath,
    b.spec = some spec ∧ spec.process = some process ∧
      scanChecks env.scan = .ok (runcBin, hookPath) ∧
      runnerLeaves opts env process.terminal = false ∧
      DestroyCollects env opts.keep (scanPoststop env.scan runcBin spec)
        (securityScanAppArmorProfileName unicode opts.id)

inductive FailedProfile (unicode : Unicode) (opts : Options) (env : RunEnv)
    (b : Bundle) (name : Text) : Option Text → Prop where
  | untouched (hopen : ¬ OpensProfile opts env b) :
      FailedProfile unicode opts env b name b.apparmorProfile
  | cut (hopen : OpensProfile opts env b) (written : Nat) (err : String)
      (hcut : env.scan.writeProfile = .cut written err) :
      FailedProfile unicode opts env b name
        (some ((buildAppArmorProfileSource name).take written))
  | template (hopen : OpensProfile opts env b)
      (hok : env.scan.writeProfile = .ok)
      (hnot : ¬ Recollects unicode opts env b) :
      FailedProfile unicode opts env b name
        (some (buildAppArmorProfileSource name))
  | marked (hopen : OpensProfile opts env b)
      (hcollects : Recollects unicode opts env b) {file : Option Text}
      (hmarked : MarkedProfile name file) :
      FailedProfile unicode opts env b name file

theorem finishRun_of_err {r : RunResult} (h : r.err ≠ none) : finishRun opts env r = r := by
  unfold finishRun
  split
  · rfl
  · rename_i hnone
    exact absurd hnone h

theorem recollects_iff
    (unicode : Unicode) {spec : Spec} {process : Process} {runcBin hookPath : Text}
    (hok : env.scan.writeProfile = .ok) (hcreates : CreatesContainer opts env)
    (hspec : b.spec = some spec) (hprocess : spec.process = some process)
    (hchecks : scanChecks env.scan = .ok (runcBin, hookPath)) :
    Recollects unicode opts env b ↔
      runnerLeaves opts env process.terminal = false ∧
        DestroyCollects env opts.keep (scanPoststop env.scan runcBin spec)
          (securityScanAppArmorProfileName unicode opts.id) := by
  constructor
  · rintro ⟨-, -, spec', process', runcBin', hookPath', hspec', hprocess', hchecks', hrest⟩
    rw [hspec, Option.some.injEq] at hspec'
    subst hspec'
    rw [hprocess, Option.some.injEq] at hprocess'
    subst hprocess'
    rw [hchecks, Except.ok.injEq, Prod.mk.injEq] at hchecks'
    obtain ⟨rfl, rfl⟩ := hchecks'
    exact hrest
  · intro hrest
    exact ⟨hok, hcreates, spec, process, runcBin, hookPath, hspec, hprocess, hchecks, hrest⟩

theorem startContainer_failed (hscan : opts.securityScan = true)
    (hfails : (startContainer unicode opts env b).err ≠ none) :
    (startContainer unicode opts env b).world.bundle.config = b.config ∧
      (startContainer unicode opts env b).world.bundle.dir = b.dir ∧
      FailedProfile unicode opts env b
        (securityScanAppArmorProfileName unicode opts.id)
        (startContainer unicode opts env b).world.bundle.apparmorProfile := by
  have hname := isScanName_profileName unicode opts.id
  have hend : StartEnd unicode opts env b (startContainer unicode opts env b) :=
    startContainer_end hscan b
  generalize startContainer unicode opts env b = r at hfails hend
  cases hend with
  | early hopen err => exact ⟨rfl, rfl, .untouched hopen⟩
  | cut hopen written err err' hcut => exact ⟨rfl, rfl, .cut hopen written err hcut⟩
  | template hopen hok hstop err => exact ⟨rfl, rfl, .template hopen hok (fun h => hstop h.creates)⟩
  | run hopen hok hcreates spec process runcBin hookPath hspec hprocess hchecks =>
    rw [finishRun_err] at hfails
    rw [finishRun_of_err hfails]
    have hiff := recollects_iff unicode hok hcreates hspec hprocess hchecks
    rcases runnerRun_failed hfails with
      ⟨hleaves, hworld⟩ | ⟨hleaves, w, hprofile, hconfig, hdir, hworld⟩
    · rw [hworld]
      refine ⟨rfl, rfl, .template hopen hok (fun h => ?_)⟩
      rw [(hiff.mp h).1] at hleaves
      cases hleaves
    · rw [hworld]
      have hsame : SameFiles w.bundle (runnerDestroy unicode env opts.keep
          (scanPoststop env.scan runcBin spec) w).bundle :=
        runnerDestroy_same opts.keep w
      obtain ⟨file, hfile⟩ := hsame
      refine ⟨?_, ?_, ?_⟩
      · rw [hfile]
        exact hconfig
      · rw [hfile]
        exact hdir
      · by_cases hcollects : DestroyCollects env opts.keep (scanPoststop env.scan runcBin spec)
            (securityScanAppArmorProfileName unicode opts.id)
        · exact .marked hopen (hiff.mpr ⟨hleaves, hcollects⟩)
            (runnerDestroy_collects hname hcollects hprofile)
        · rw [runnerDestroy_stub hname hcollects hprofile]
          exact .template hopen hok (fun h => hcollects (hiff.mp h).2)

def WriteOutcome.Complete (length : Nat) : WriteOutcome → Prop
  | .ok => True
  | .cut written _ => length ≤ written
  | .openFailed _ => False

theorem FinalProfile.eq_template {old : Text} {raw rest : Text} (hname : IsScanName name)
    (hold : IsScanName old) (h : FinalProfile old (some raw))
    (hraw : raw ++ rest = buildAppArmorProfileSource name) :
    raw = buildAppArmorProfileSource name := by
  cases h with
  | stub =>
    have hheader := profileName_template hname
    rw [← hraw, buildAppArmorProfileSource_eq, List.append_assoc,
      profileName_templateStart hold] at hheader
    rw [Option.some.inj hheader]
  | enforce tail =>
    have hmode := inComplainMode_template hname
    rw [← hraw, List.append_assoc, inComplainMode_enforce hold] at hmode
    cases hmode

theorem FinalProfile.not_marked {old : Text} {file : Option Text} (hname : IsScanName name)
    (hold : IsScanName old) (h : FinalProfile old file) : ¬ MarkedProfile name file := by
  rintro ⟨tail, hfile, hmarked⟩
  cases h with
  | stub =>
    rw [← Option.some.inj hfile, contains_template hold] at hmarked
    cases hmarked
  | enforce tail' =>
    have hmode := inComplainMode_templateStart hname tail
    rw [← Option.some.inj hfile, inComplainMode_enforce hold] at hmode
    cases hmode

/-- When a failed scan leaves the policy of a bundle alone. -/
theorem failed_scan_keeps_policy_iff
    (unicode : Unicode) (earlier : Scan) (fresh : Bundle) (spec : Spec)
    (opts : Options) (env : RunEnv) (hspec : fresh.spec = some spec)
    (hearlier : earlier.Completes spec) (hfinalize : earlier.env.finalize = {})
    (hscan : opts.securityScan = true) (hfails : (startContainer unicode opts env
      (earlier.apply unicode fresh)).err ≠ none) :
    let b := earlier.apply unicode fresh
    let template := buildAppArmorProfileSource
      (securityScanAppArmorProfileName unicode opts.id)
    PolicyKept b (startContainer unicode opts env b).world.bundle ↔
      (OpensProfile opts env b →
        b.apparmorProfile = some template ∧
          env.scan.writeProfile.Complete template.length ∧
          ¬ Recollects unicode opts env b) := by
  intro b template
  have hname := isScanName_profileName unicode opts.id
  have hold := isScanName_profileName unicode earlier.opts.id
  have hfinal : FinalProfile _ b.apparmorProfile := hearlier.finalProfile unicode hspec hfinalize
  obtain ⟨hconfig, hdir, hprofile⟩ := startContainer_failed hscan hfails
  rw [policyKept_iff hconfig hdir]
  generalize (startContainer unicode opts env b).world.bundle.apparmorProfile = file at hprofile ⊢
  cases hprofile with
  | untouched hopen => exact ⟨fun _ h => absurd h hopen, fun _ => rfl⟩
  | cut hopen written err hcut =>
    have hnot : ¬ Recollects unicode opts env b := by
      intro h
      have hwrote := h.wrote
      rw [hcut] at hwrote
      cases hwrote
    rw [hcut]
    constructor
    · intro hsame _
      rw [← hsame] at hfinal
      have heq := hfinal.eq_template hname hold (List.take_append_drop written template)
      refine ⟨?_, (List.take_eq_self_iff template).mp heq, hnot⟩
      rw [← hsame, heq]
    · intro h
      obtain ⟨hb, hwritten, -⟩ := h hopen
      rw [hb, List.take_of_length_le hwritten]
  | template hopen hok hnot =>
    rw [hok]
    constructor
    · intro hsame _
      exact ⟨hsame.symm, trivial, hnot⟩
    · intro h
      exact (h hopen).1.symm
  | marked hopen hcollects hmarked =>
    constructor
    · intro hsame
      rw [hsame] at hmarked
      exact absurd hmarked (hfinal.not_marked hname hold)
    · intro h
      exact absurd hcollects (h hopen).2.2

theorem failed_scan_keeps_policy_rejected :
    let b := (traceScan chownLine none).apply Unicode.ascii freshBundle
    PolicyKept b (startContainer Unicode.ascii { id := "web".toList }
      { setupSpec := some "invalid config.json" } b).world.bundle := by
  refine (failed_scan_keeps_policy_iff Unicode.ascii (traceScan chownLine none)
    freshBundle appSpec { id := "web".toList }
    { setupSpec := some "invalid config.json" } rfl
    (traceScan_completes chownLine none rfl) rfl rfl ?_).mpr ?_
  · exact Option.some_ne_none _
  · rintro ⟨⟨result, hresult⟩, -⟩
    cases hresult

theorem startContainer_createFailed (unicode : Unicode) (id : Text) (err : String)
    {spec : Spec} {process : Process} (hvalid : validateID id = true) (hid : id ≠ [])
    (hspec : b.spec = some spec) (hprocess : spec.process = some process) :
    startContainer unicode { id := id } { createContainer := some err } b =
      ⟨-1, some err, { bundle := withTemplate unicode id b }⟩ := by
  have hcreate : createContainer { id := id }
      { createContainer := some err } = .error err := by
    simp [createContainer, hvalid, bind, Except.bind, Fault.check]
  obtain ⟨spec', happly⟩ : ∃ spec', applySecurityScan unicode
      ({ createContainer := some err } : RunEnv).scan { id := id } spec b =
        (.ok spec', withTemplate unicode id b) :=
    ⟨_, applySecurityScan_ok rfl rfl rfl rfl⟩
  unfold startContainer
  rw [setupSpec_ok hspec hprocess rfl rfl rfl hid]
  dsimp only
  rw [happly]
  rw [hcreate]

def openScan : Scan :=
  attachedScan [] { audit := webOpenEvent }

theorem failed_scan_drops_enforcement :
    let b := openScan.apply Unicode.ascii freshBundle
    let run := startContainer Unicode.ascii { id := "web".toList }
      { createContainer := some "container with given ID already exists" } b
    run.err = some "container with given ID already exists" ∧
      b.apparmorProfile.map inComplainMode = some false ∧
      run.world.bundle.apparmorProfile.map inComplainMode = some true := by
  have hcompletes : openScan.Completes appSpec :=
    attachedScan_completes [] { audit := webOpenEvent } rfl
  have hevents : parseApparmorDenials webOpenEvent
      (securityScanAppArmorProfileName Unicode.ascii "web".toList) ≠ [] := by
    repeat rw [String.toList_ofList]
    decide +kernel
  have henforced : (openScan.apply Unicode.ascii freshBundle).apparmorProfile.map
        inComplainMode = some false :=
    hcompletes.enforced Unicode.ascii rfl rfl rfl
      (fun _ => ⟨rfl, by decide, rfl, hevents, rfl, rfl, rfl, rfl⟩)
  obtain ⟨spec, hspec, -, -, hterminal⟩ :=
    hcompletes.apply_spec Unicode.ascii (b := freshBundle) rfl rfl
  obtain ⟨process, hprocess, -⟩ := Option.map_eq_some_iff.mp (hterminal false rfl)
  have hrun := startContainer_createFailed Unicode.ascii "web".toList
    "container with given ID already exists" (by decide) (List.cons_ne_nil _ _) hspec hprocess
  have htemplate := inComplainMode_template (isScanName_profileName Unicode.ascii "web".toList)
  dsimp only
  rw [hrun]
  exact ⟨rfl, henforced, congrArg some htemplate⟩

end Failed

end Runc.Scanner
