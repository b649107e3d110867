import Runc.Scanner.Capabilities
import Runc.Scanner.Profile

/-!
# Finalizing a scan

`finalizeSecurityScan` reconciles config.json with the artefacts a scan left
under generated/.  Every operation of the system may fail.
-/

namespace Runc.Scanner

open Lib

inductive CtAct where
  | create
  | run
  | restore
deriving DecidableEq, Repr

structure FinalizeFaults where
  getwd : Fault := none
  abs : Fault := none
  statBackup : Fault := none
  mkdirBackup : Fault := none
  openConfig : Fault := none
  createBackup : Fault := none
  copyBackup : Fault := none
  closeBackup : Fault := none
  renameBackup : Fault := none
  readConfig : Fault := none
  readTrace : Fault := none
  statSeccomp : Fault := none
  readSeccomp : Fault := none
  profile : ProfileFaults := {}
  marshal : Fault := none
  writeTmp : Fault := none
  renameTmp : Fault := none

section Steps

variable (faults : FinalizeFaults)

def backupSpecOriginal (b : Bundle) : Except String (Option ConfigJson) := do
  let dst := genPath b.dir "spec.original.json"
  faults.statBackup.check ("stat " ++ dst ++ ": ")
  if b.specOriginal.isSome then
    return b.specOriginal
  faults.mkdirBackup.check ("mkdir " ++ b.dir ++ "/generated: ")
  faults.openConfig.check ("open " ++ cfgPath b.dir ++ ": ")
  match b.config with
  | none =>
      throw ("open " ++ cfgPath b.dir ++ ": open " ++ cfgPath b.dir ++
        ": no such file or directory")
  | some config =>
      faults.createBackup.check ("create " ++ dst ++ ".tmp: ")
      faults.copyBackup.check ("copy to " ++ dst ++ ".tmp: ")
      faults.closeBackup.check ("close " ++ dst ++ ".tmp: ")
      faults.renameBackup.check ("rename " ++ dst ++ ": ")
      return some config

def prepare (b : Bundle) : Except String Bundle := do
  faults.getwd.check "security-scan finalize: getwd: "
  faults.abs.check "security-scan finalize: abs bundle: "
  match backupSpecOriginal faults b with
  | .error err => throw ("security-scan finalize: backup: " ++ err)
  | .ok backup => return { b with specOriginal := backup }

def loadConfig (b : Bundle) : Except String Spec := do
  faults.readConfig.check "security-scan finalize: read config: "
  match b.config with
  | none =>
      throw ("security-scan finalize: read config: open " ++ cfgPath b.dir ++
        ": no such file or directory")
  | some config =>
      match config.unmarshal with
      | .error err => throw ("security-scan finalize: parse config: " ++ err)
      | .ok spec => return spec

def readTrace (b : Bundle) : Option Text :=
  match faults.readTrace with
  | some _ => none
  | none => b.capTraceLog

def Spec.seccomp (spec : Spec) : Option LinuxSeccomp :=
  spec.linux.bind (·.seccomp)

/-- `spec.Linux.Seccomp = &sec`. -/
def Spec.setSeccomp (spec : Spec) (sec : LinuxSeccomp) : Spec :=
  { spec with linux := some { spec.linux.getD {} with seccomp := some sec } }

/-- Whether the spec changed, and the spec. -/
def applyGeneratedSeccomp (b : Bundle) (spec : Spec) :
    Except String (Bool × Spec) := do
  let p := genPath b.dir "seccomp.json"
  faults.statSeccomp.check ("stat " ++ p ++ ": ")
  match b.seccompJson with
  | none => return (false, spec)
  | some file =>
      if file.raw = [] then
        return (false, spec)
      faults.readSeccomp.check ("read " ++ p ++ ": ")
      match file.decoded with
      | .error err => throw ("parse " ++ p ++ ": " ++ err)
      | .ok sec =>
          if sec.defaultAction = [] then
            return (false, spec)
          return (true, spec.setSeccomp sec)

/-- `applyGeneratedSeccomp` as finalize uses it: an error is only logged. -/
def seccompStep (b : Bundle) (spec : Spec) : Bool × Spec :=
  match applyGeneratedSeccomp faults b spec with
  | .ok result => result
  | .error _ => (false, spec)

structure Reconciled where
  changed : Bool
  spec : Spec
  profile : Option Text

def reconcile (b : Bundle) (spec : Spec) : Reconciled :=
  let caps := narrowCapabilitiesFromTrace spec (readTrace faults b)
  let sec := seccompStep faults b caps.2
  let aa :=
    applyGeneratedAppArmor faults.profile (genPath b.dir "apparmor.profile")
      sec.2 b.apparmorProfile
  ⟨caps.1 || sec.1 || aa.changed, aa.spec, aa.file⟩

def writeConfig : Except String Unit := do
  faults.marshal.check "security-scan finalize: marshal: "
  faults.writeTmp.check "security-scan finalize: write tmp: "
  faults.renameTmp.check "security-scan finalize: rename: "

structure FinalizeOutcome where
  result : Except String Unit
  bundle : Bundle
  rewrote : Bool := false

def finalizeSecurityScan (securityScan : Bool) (action : CtAct) (b : Bundle) : FinalizeOutcome :=
  if securityScan = false ∨ action ≠ .run then { result := .ok (), bundle := b }
  else
    match prepare faults b with
    | .error err => { result := .error err, bundle := b }
    | .ok b =>
        match loadConfig faults b with
        | .error err => { result := .error err, bundle := b }
        | .ok spec =>
            let r := reconcile faults b spec
            let b := { b with apparmorProfile := r.profile }
            if r.changed = false then { result := .ok (), bundle := b }
            else
              match writeConfig faults with
              | .error err => { result := .error err, bundle := b }
              | .ok () =>
                  { result := .ok ()
                    bundle := { b with config := some (.marshalled r.spec) }
                    rewrote := true }

end Steps

section Frame

variable {faults : FinalizeFaults} {b : Bundle} {spec : Spec}

theorem prepare_frame {b' : Bundle} (h : prepare faults b = .ok b') :
    ∃ backup, b' = { b with specOriginal := backup } := by
  unfold prepare at h
  cases hgetwd : faults.getwd with
  | some err => simp [hgetwd, Fault.check, bind, Except.bind] at h
  | none =>
    cases habs : faults.abs with
    | some err => simp [hgetwd, habs, Fault.check, bind, Except.bind] at h
    | none =>
      simp only [hgetwd, habs, Fault.check_none, bind, Except.bind] at h
      cases hbackup : backupSpecOriginal faults b with
      | error err =>
        rw [hbackup] at h
        cases h
      | ok backup =>
        rw [hbackup] at h
        cases h
        exact ⟨backup, rfl⟩

theorem loadConfig_spec (h : loadConfig faults b = .ok spec) : b.spec = some spec := by
  unfold loadConfig at h
  cases hread : faults.readConfig with
  | some err => simp [hread, Fault.check, bind, Except.bind] at h
  | none =>
    simp only [hread, Fault.check_none, bind, Except.bind] at h
    cases hconfig : b.config with
    | none =>
      rw [hconfig] at h
      cases h
    | some config =>
      rw [hconfig] at h
      cases hdecode : config.unmarshal with
      | error err =>
        simp only [hdecode] at h
        cases h
      | ok decoded =>
        simp only [hdecode] at h
        cases h
        simp [Bundle.spec, hconfig, hdecode, Except.toOption]

theorem seccompStep_spec (faults : FinalizeFaults) (b : Bundle) (spec : Spec) :
    seccompStep faults b spec = (false, spec) ∨
      ∃ sec, seccompStep faults b spec = (true, spec.setSeccomp sec) := by
  unfold seccompStep applyGeneratedSeccomp
  cases hstat : faults.statSeccomp with
  | some err => exact Or.inl rfl
  | none =>
  cases hfile : b.seccompJson with
  | none => exact Or.inl rfl
  | some file =>
  by_cases hempty : file.raw = []
  · simp [hempty, bind, Except.bind, pure, Except.pure]
  cases hread : faults.readSeccomp with
  | some err => simp [hempty, Fault.check, bind, Except.bind]
  | none =>
  cases hdecode : file.decoded with
  | error err => simp [hempty, hdecode, bind, Except.bind, throw, throwThe, MonadExceptOf.throw]
  | ok sec =>
  by_cases haction : sec.defaultAction = []
  · simp [hempty, hdecode, haction, bind, Except.bind, pure, Except.pure]
  · right
    exact ⟨sec, by
      simp [hempty, hdecode, haction, bind, Except.bind, pure, Except.pure]⟩

theorem applyGeneratedAppArmor_spec
    (pf : ProfileFaults) (path : String) (spec : Spec) (file : Option Text) :
    (applyGeneratedAppArmor pf path spec file).spec = spec ∨
      ∃ name, (applyGeneratedAppArmor pf path spec file).spec =
        spec.setApparmorProfile name := by
  unfold applyGeneratedAppArmor
  split
  · exact Or.inl rfl
  · exact Or.inl rfl
  · split
    · exact Or.inl rfl
    · rename_i name _
      refine Or.inr ⟨name, ?_⟩
      dsimp only
      split
      · rfl
      · split
        · rfl
        · split <;> rfl

@[simp]
theorem capabilities_setSeccomp (spec : Spec) (sec : LinuxSeccomp) :
    (spec.setSeccomp sec).capabilities = spec.capabilities :=
  rfl

@[simp]
theorem capabilities_setApparmorProfile (spec : Spec) (name : Text) :
    (spec.setApparmorProfile name).capabilities = spec.capabilities := by
  obtain ⟨process, linux, hooks, annotations, other⟩ := spec
  cases process <;> rfl

theorem reconcile_capabilities (faults : FinalizeFaults) (b : Bundle) (spec : Spec) :
    (reconcile faults b spec).spec.capabilities =
      (narrowCapabilitiesFromTrace spec (readTrace faults b)).2.capabilities := by
  have hsec : ∀ spec : Spec,
      (seccompStep faults b spec).2.capabilities = spec.capabilities := by
    intro spec
    rcases seccompStep_spec faults b spec with h | ⟨sec, h⟩
    · rw [h]
    · rw [h, capabilities_setSeccomp]
  unfold reconcile
  dsimp only
  rcases applyGeneratedAppArmor_spec faults.profile
      (genPath b.dir "apparmor.profile") _ b.apparmorProfile with h | ⟨name, h⟩
  · rw [h, hsec]
  · rw [h, capabilities_setApparmorProfile, hsec]

theorem narrow_of_unchanged (h : (reconcile faults b spec).changed = false) :
    (narrowCapabilitiesFromTrace spec (readTrace faults b)).2 = spec := by
  have hcaps :
      (narrowCapabilitiesFromTrace spec (readTrace faults b)).1 = false := by
    simp only [reconcile, Bool.or_eq_false_iff] at h
    exact h.1.1
  unfold narrowCapabilitiesFromTrace at hcaps ⊢
  dsimp only at hcaps ⊢
  split
  · rfl
  · rename_i hne
    rw [if_neg hne] at hcaps
    cases hcaps

theorem finalize_ok_cases (h : (finalizeSecurityScan faults true .run b).result = .ok ()) :
    ∃ spec backup, b.spec = some spec ∧
      (((reconcile faults b spec).changed = false ∧
          (finalizeSecurityScan faults true .run b).bundle =
            { b with
              specOriginal := backup
              apparmorProfile := (reconcile faults b spec).profile }) ∨
        (finalizeSecurityScan faults true .run b).bundle =
          { b with
            specOriginal := backup
            apparmorProfile := (reconcile faults b spec).profile
            config := some (.marshalled (reconcile faults b spec).spec) }) := by
  unfold finalizeSecurityScan at h ⊢
  rw [if_neg (by simp)] at h ⊢
  cases hprepare : prepare faults b with
  | error err =>
    rw [hprepare] at h
    cases h
  | ok b1 =>
    obtain ⟨backup, rfl⟩ := prepare_frame hprepare
    rw [hprepare] at h
    dsimp only at h ⊢
    cases hload : loadConfig faults { b with specOriginal := backup } with
    | error err =>
      rw [hload] at h
      cases h
    | ok spec =>
      rw [hload] at h
      dsimp only at h ⊢
      refine ⟨spec, backup, loadConfig_spec hload, ?_⟩
      split
      · rename_i hsame
        exact Or.inl ⟨hsame, rfl⟩
      · rename_i hchanged
        rw [if_neg hchanged] at h
        right
        split
        · rename_i herr
          rw [herr] at h
          cases h
        · rfl

end Frame

section NoFaults

variable {b : Bundle} {spec : Spec}

theorem prepare_ok {config : ConfigJson} (hconfig : b.config = some config) :
    ∃ backup, prepare {} b = .ok { b with specOriginal := backup } := by
  cases horiginal : b.specOriginal with
  | some original =>
    refine ⟨some original, ?_⟩
    simp [prepare, backupSpecOriginal, horiginal, bind, Except.bind, pure, Except.pure]
  | none =>
    refine ⟨some config, ?_⟩
    simp [prepare, backupSpecOriginal, horiginal, hconfig, bind, Except.bind, pure, Except.pure]

theorem loadConfig_ok (hspec : b.spec = some spec) : loadConfig {} b = .ok spec := by
  obtain ⟨config, hconfig, hdecode⟩ := Option.bind_eq_some_iff.mp hspec
  cases hunmarshal : config.unmarshal with
  | error err =>
    rw [hunmarshal] at hdecode
    cases hdecode
  | ok decoded =>
    rw [hunmarshal] at hdecode
    cases hdecode
    simp [loadConfig, hconfig, hunmarshal, bind, Except.bind, pure, Except.pure]

def usableSeccomp (file : Option SeccompJson) : Option LinuxSeccomp :=
  file.bind (fun file =>
    if file.raw = [] then none
    else file.decoded.toOption.filter (fun sec => sec.defaultAction ≠ []))

theorem seccomp_setSeccomp (spec : Spec) (sec : LinuxSeccomp) :
    (spec.setSeccomp sec).seccomp = some sec :=
  rfl

theorem seccomp_setApparmorProfile (spec : Spec) (name : Text) :
    (spec.setApparmorProfile name).seccomp = spec.seccomp :=
  rfl

theorem seccomp_narrow (spec : Spec) (trace : Option Text) :
    (narrowCapabilitiesFromTrace spec trace).2.seccomp = spec.seccomp := by
  unfold narrowCapabilitiesFromTrace
  dsimp only
  split <;> rfl

theorem seccompStep_seccomp (b : Bundle) (spec : Spec) :
    (seccompStep {} b spec).2.seccomp =
      (usableSeccomp b.seccompJson).or spec.seccomp := by
  unfold seccompStep applyGeneratedSeccomp usableSeccomp
  cases hfile : b.seccompJson with
  | none => rfl
  | some file =>
  by_cases hempty : file.raw = []
  · simp [hempty, bind, Except.bind, pure, Except.pure]
  cases hdecode : file.decoded with
  | error err =>
    simp [hempty, hdecode, bind, Except.bind, Except.toOption, throw, throwThe, MonadExceptOf.throw]
  | ok sec =>
  by_cases haction : sec.defaultAction = [] <;>
    simp [hempty, hdecode, haction, bind, Except.bind, pure, Except.pure,
      Except.toOption, seccomp_setSeccomp, Option.filter]

theorem reconcile_seccomp (b : Bundle) (spec : Spec) :
    (reconcile {} b spec).spec.seccomp =
      (usableSeccomp b.seccompJson).or spec.seccomp := by
  unfold reconcile
  dsimp only
  rcases applyGeneratedAppArmor_spec {}
      (genPath b.dir "apparmor.profile") _ b.apparmorProfile with h | ⟨name, h⟩
  · rw [h, seccompStep_seccomp, seccomp_narrow]
  · rw [h, seccomp_setApparmorProfile, seccompStep_seccomp, seccomp_narrow]

def Spec.terminal (spec : Spec) : Option Bool :=
  spec.process.map (·.terminal)

theorem reconcile_terminal {terminal : Bool} (faults : FinalizeFaults) (b : Bundle)
    (h : spec.terminal = some terminal) :
    (reconcile faults b spec).spec.terminal = some terminal := by
  have hcaps : ∀ (spec : Spec) names, spec.terminal = some terminal →
      (spec.setCapabilities names).terminal = some terminal := by
    rintro ⟨_ | process, linux, hooks, annotations, other⟩ names h
    · cases h
    · exact h
  have haa : ∀ (spec : Spec) name, spec.terminal = some terminal →
      (spec.setApparmorProfile name).terminal = some terminal := by
    rintro ⟨_ | process, linux, hooks, annotations, other⟩ name h
    · cases h
    · exact h
  have hnarrow : ∀ trace,
      (narrowCapabilitiesFromTrace spec trace).2.terminal = some terminal := by
    intro trace
    unfold narrowCapabilitiesFromTrace
    dsimp only
    split
    · exact h
    · exact hcaps spec _ h
  have hsec : ∀ spec : Spec, spec.terminal = some terminal →
      (seccompStep faults b spec).2.terminal = some terminal := by
    intro spec h
    rcases seccompStep_spec faults b spec with hstep | ⟨sec, hstep⟩
    · rw [hstep]
      exact h
    · rw [hstep]
      exact h
  unfold reconcile
  dsimp only
  rcases applyGeneratedAppArmor_spec faults.profile
      (genPath b.dir "apparmor.profile") _ b.apparmorProfile with hstep | ⟨name, hstep⟩
  · rw [hstep]
    exact hsec _ (hnarrow _)
  · rw [hstep]
    exact haa _ name (hsec _ (hnarrow _))

theorem seccomp_of_unchanged (h : (reconcile {} b spec).changed = false) :
    (usableSeccomp b.seccompJson).or spec.seccomp = spec.seccomp := by
  have hnarrow := narrow_of_unchanged h
  have hsec : (seccompStep {} b spec).1 = false := by
    simp only [reconcile, Bool.or_eq_false_iff, hnarrow] at h
    exact h.1.2
  rw [← seccompStep_seccomp]
  rcases seccompStep_spec {} b spec with heq | ⟨sec, heq⟩
  · rw [heq]
  · rw [heq] at hsec
    cases hsec

theorem finalize_noFaults (hspec : b.spec = some spec) :
    (finalizeSecurityScan {} true .run b).result = .ok () ∧
      (finalizeSecurityScan {} true .run b).rewrote =
        (reconcile {} b spec).changed := by
  obtain ⟨config, hconfig, -⟩ := Option.bind_eq_some_iff.mp hspec
  obtain ⟨backup, hprepare⟩ := prepare_ok hconfig
  have hload : loadConfig {} { b with specOriginal := backup } = .ok spec := loadConfig_ok hspec
  have hwrite : writeConfig {} = .ok () := rfl
  have hsame : reconcile {} { b with specOriginal := backup } spec = reconcile {} b spec := rfl
  unfold finalizeSecurityScan
  rw [if_neg (by simp), hprepare]
  dsimp only
  rw [hload]
  dsimp only
  rw [hwrite, hsame]
  cases hchanged : (reconcile {} b spec).changed <;> simp

theorem finalize_spec (hspec : b.spec = some spec) :
    ∃ spec', (finalizeSecurityScan {} true .run b).bundle.spec = some spec' ∧
      Matches (currentCaps spec').names (b.capTraceLog.getD []) ∧
      spec'.seccomp = (usableSeccomp b.seccompJson).or spec.seccomp ∧
      ∀ terminal, spec.terminal = some terminal →
        spec'.terminal = some terminal := by
  have hbounding := narrowCapabilitiesFromTrace_bounding spec b.capTraceLog
  obtain ⟨spec', backup, hspec', hcases⟩ := finalize_ok_cases (finalize_noFaults hspec).1
  rw [hspec] at hspec'
  obtain rfl := Option.some.inj hspec'
  rcases hcases with ⟨hsame, hb⟩ | hb
  · refine ⟨spec, ?_, ?_, (seccomp_of_unchanged hsame).symm, fun _ h => h⟩
    · rw [hb]
      exact hspec
    · have hnarrow : (narrowCapabilitiesFromTrace spec b.capTraceLog).2 = spec :=
        narrow_of_unchanged hsame
      rwa [hnarrow] at hbounding
  · refine ⟨(reconcile {} b spec).spec, ?_, ?_, reconcile_seccomp b spec,
      fun _ h => reconcile_terminal {} b h⟩
    · rw [hb]
      rfl
    · unfold currentCaps
      rw [reconcile_capabilities]
      exact hbounding

end NoFaults

section Capabilities

def CapabilitiesMatch (b : Bundle) (trace : Text) : Prop :=
  ∃ spec, b.spec = some spec ∧ ∀ s ∈ spec.capabilities.sets, Matches s trace

def TraceLost (faults : FinalizeFaults) (b : Bundle) : Prop :=
  faults.readTrace ≠ none ∧ ∃ n, Observed n (b.capTraceLog.getD [])

variable {b : Bundle} {faults : FinalizeFaults}

theorem readTrace_of_fault (h : faults.readTrace ≠ none) : readTrace faults b = none := by
  cases hf : faults.readTrace with
  | none => exact absurd hf h
  | some err => simp [readTrace, hf]

theorem observed_readTrace (h : ¬ TraceLost faults b) (n : Text) :
    Observed n ((readTrace faults b).getD []) ↔
      Observed n (b.capTraceLog.getD []) := by
  by_cases hf : faults.readTrace = none
  · simp [readTrace, hf]
  · rw [readTrace_of_fault hf]
    constructor
    · exact fun hn => absurd hn (not_observed_nil n)
    · exact fun hn => absurd ⟨hf, n, hn⟩ h

theorem finalize_capabilities {spec : Spec}
    (hspec : b.spec = some spec) (h : (finalizeSecurityScan faults true .run b).result = .ok ())
    (trace : Text) :
    CapabilitiesMatch (finalizeSecurityScan faults true .run b).bundle trace ↔
      ∀ s ∈ (narrowCapabilitiesFromTrace spec
        (readTrace faults b)).2.capabilities.sets, Matches s trace := by
  obtain ⟨spec', backup, hspec', hcases⟩ := finalize_ok_cases h
  rw [hspec] at hspec'
  obtain rfl := Option.some.inj hspec'
  rcases hcases with ⟨hsame, hb⟩ | hb
  · rw [narrow_of_unchanged hsame, hb]
    constructor
    · rintro ⟨spec', hs, hall⟩
      have hs' : b.spec = some spec' := hs
      rw [hspec] at hs'
      obtain rfl := Option.some.inj hs'
      exact hall
    · intro hall
      exact ⟨spec, hspec, hall⟩
  · rw [← reconcile_capabilities, hb]
    constructor
    · rintro ⟨spec', hs, hall⟩
      obtain rfl := Option.some.inj hs
      exact hall
    · intro hall
      exact ⟨_, rfl, hall⟩

/-- When the sets are those of the trace. -/
theorem finalize_capabilities_iff (faults : FinalizeFaults) (b : Bundle) (spec : Spec)
    (hspec : b.spec = some spec) (h : (finalizeSecurityScan faults true .run b).result = .ok ()) :
    CapabilitiesMatch (finalizeSecurityScan faults true .run b).bundle
        (b.capTraceLog.getD []) ↔
      ¬ TraceLost faults b ∧
        (¬ Matches (currentCaps spec).names (b.capTraceLog.getD []) ∨
          ∀ s ∈ spec.capabilities.sets,
            Matches s (b.capTraceLog.getD [])) := by
  rw [finalize_capabilities hspec h]
  by_cases hlost : TraceLost faults b
  · refine ⟨fun hall => ?_, fun hcond => absurd hlost hcond.1⟩
    -- finalize worked with an empty trace, and the real one has a name
    obtain ⟨hfault, n, hn⟩ := hlost
    have hbounding := matches_currentCaps (hall _ List.mem_cons_self)
    have hread := narrowCapabilitiesFromTrace_bounding spec (readTrace faults b)
    rw [readTrace_of_fault hfault] at hbounding hread
    exact absurd ((hread n).mp ((hbounding n).mpr hn)) (not_observed_nil n)
  · have hcongr : ∀ names, Matches names ((readTrace faults b).getD []) ↔
        Matches names (b.capTraceLog.getD []) :=
      fun names => matches_congr (observed_readTrace hlost)
    have hsets := narrowCapabilitiesFromTrace_sets spec (readTrace faults b)
    simp only [hcongr] at hsets
    rw [hsets]
    exact (and_iff_right hlost).symm

def bundleWithCaps (bounding effective : List Text) (trace : Text) : Bundle :=
  { dir := "/bundle"
    config := some (.marshalled
      { process := some
          { capabilities := some
              { bounding := bounding, effective := effective } } })
    capTraceLog := some trace }

def chownLine : Text :=
  "12:00:01  1000   4242   app   0   CAP_CHOWN   1\n".toList

def sysAdminBundle : Bundle :=
  bundleWithCaps ["CAP_SYS_ADMIN".toList] ["CAP_SYS_ADMIN".toList] chownLine

theorem finalize_narrows_sysAdmin :
    (finalizeSecurityScan {} true .run sysAdminBundle).result = .ok () ∧
      CapabilitiesMatch (finalizeSecurityScan {} true .run sysAdminBundle).bundle
        chownLine := by
  have hok : (finalizeSecurityScan {} true .run sysAdminBundle).result = .ok () := rfl
  refine ⟨hok, (finalize_capabilities_iff {} sysAdminBundle _ rfl hok).mpr ⟨?_, Or.inl ?_⟩⟩
  · rintro ⟨hfault, -⟩
    exact hfault rfl
  · unfold sysAdminBundle bundleWithCaps chownLine
    repeat rw [String.toList_ofList]
    decide +kernel

def effectiveBundle : Bundle :=
  bundleWithCaps ["CAP_CHOWN".toList]
    ["CAP_CHOWN".toList, "CAP_SYS_ADMIN".toList] chownLine

theorem finalize_keeps_effective :
    (finalizeSecurityScan {} true .run effectiveBundle).result = .ok () ∧
      ((finalizeSecurityScan {} true .run effectiveBundle).bundle.spec.map
          (·.capabilities.effective)) =
        some ["CAP_CHOWN".toList, "CAP_SYS_ADMIN".toList] ∧
      ¬ CapabilitiesMatch
        (finalizeSecurityScan {} true .run effectiveBundle).bundle chownLine := by
  have hno : ¬ Observed "CAP_SYS_ADMIN".toList chownLine := by
    repeat rw [String.toList_ofList]
    decide +kernel
  have heffective : ((finalizeSecurityScan {} true .run effectiveBundle).bundle.spec.map
          (·.capabilities.effective)) =
        some ["CAP_CHOWN".toList, "CAP_SYS_ADMIN".toList] := by
    repeat rw [String.toList_ofList]
    decide +kernel
  refine ⟨rfl, heffective, ?_⟩
  rintro ⟨spec, hspec, hall⟩
  rw [hspec, Option.map_some, Option.some_inj] at heffective
  have hmatch := hall spec.capabilities.effective (by simp [LinuxCapabilities.sets])
  rw [heffective] at hmatch
  exact hno ((hmatch _).mp (by simp))

end Capabilities

end Runc.Scanner
