import Runc.Scanner.ScanRuns

/-!
# What finalize leaves alone

Scans and finalizes of one bundle, in any order and with any operation of the system
failing.
-/

namespace Runc.Scanner

open Lib

def Spec.untouched (spec : Spec) : Spec :=
  { spec with
    process := spec.process.map fun p =>
      { p with capabilities := none, apparmorProfile := [] }
    linux := some { spec.linux.getD {} with seccomp := none } }

section Untouched

variable {spec : Spec}

theorem untouched_setCapabilities (h : spec.process.isSome) (names : List Text) :
    (spec.setCapabilities names).untouched = spec.untouched := by
  obtain ⟨process, hprocess⟩ := Option.isSome_iff_exists.mp h
  simp [Spec.setCapabilities, Spec.untouched, hprocess]

theorem untouched_setApparmorProfile (h : spec.process.isSome) (name : Text) :
    (spec.setApparmorProfile name).untouched = spec.untouched := by
  obtain ⟨process, hprocess⟩ := Option.isSome_iff_exists.mp h
  simp [Spec.setApparmorProfile, Spec.untouched, hprocess]

theorem untouched_setSeccomp (spec : Spec) (sec : LinuxSeccomp) :
    (spec.setSeccomp sec).untouched = spec.untouched :=
  rfl

theorem narrow_untouched (h : spec.process.isSome) (trace : Option Text) :
    (narrowCapabilitiesFromTrace spec trace).2.untouched = spec.untouched ∧
      (narrowCapabilitiesFromTrace spec trace).2.process.isSome := by
  unfold narrowCapabilitiesFromTrace
  dsimp only
  split
  · exact ⟨rfl, h⟩
  · exact ⟨untouched_setCapabilities h _, rfl⟩

theorem seccompStep_untouched (faults : FinalizeFaults) (b : Bundle) (spec : Spec) :
    (seccompStep faults b spec).2.untouched = spec.untouched ∧
      (seccompStep faults b spec).2.process = spec.process := by
  rcases seccompStep_spec faults b spec with h | ⟨sec, h⟩
  · rw [h]
    exact ⟨rfl, rfl⟩
  · rw [h]
    exact ⟨untouched_setSeccomp spec sec, rfl⟩

theorem reconcile_untouched (h : spec.process.isSome) (faults : FinalizeFaults) (b : Bundle) :
    (reconcile faults b spec).spec.untouched = spec.untouched := by
  obtain ⟨hcaps, hprocess⟩ := narrow_untouched h (readTrace faults b)
  obtain ⟨hsec, hsame⟩ := seccompStep_untouched faults b
    (narrowCapabilitiesFromTrace spec (readTrace faults b)).2
  rw [← hsame] at hprocess
  unfold reconcile
  dsimp only
  rcases applyGeneratedAppArmor_spec faults.profile
      (genPath b.dir "apparmor.profile") _ b.apparmorProfile with haa | ⟨name, haa⟩
  · rw [haa, hsec, hcaps]
  · rw [haa, untouched_setApparmorProfile hprocess, hsec, hcaps]

end Untouched

section Finalize

variable {faults : FinalizeFaults} {b : Bundle}

theorem ok_of_check {α : Type} {fault : Fault} {context : String} {rest : Except String α} {a : α}
    (h : (do fault.check context; rest) = .ok a) : rest = .ok a := by
  cases fault with
  | none => exact h
  | some err => cases h

theorem backupSpecOriginal_ok {backup : Option ConfigJson}
    (h : backupSpecOriginal faults b = .ok backup) :
    backup = b.specOriginal.or b.config ∧ backup.isSome := by
  have hstat := ok_of_check h
  cases horiginal : b.specOriginal with
  | some original =>
    simp only [horiginal, Option.isSome_some, if_true] at hstat
    cases hstat
    exact ⟨rfl, rfl⟩
  | none =>
    simp only [horiginal, Option.isSome_none, Bool.false_eq_true, if_false] at hstat
    have hopen := ok_of_check (ok_of_check hstat)
    cases hconfig : b.config with
    | none =>
      simp only [hconfig] at hopen
      cases hopen
    | some config =>
      simp only [hconfig] at hopen
      have hcopied := ok_of_check (ok_of_check (ok_of_check (ok_of_check hopen)))
      cases hcopied
      exact ⟨rfl, rfl⟩

theorem prepare_backup {b' : Bundle} (h : prepare faults b = .ok b') :
    b' = { b with specOriginal := b.specOriginal.or b.config } ∧
      b'.specOriginal.isSome := by
  have hfound := ok_of_check (ok_of_check h)
  cases hbackup : backupSpecOriginal faults b with
  | error err =>
    simp only [hbackup] at hfound
    cases hfound
  | ok backup =>
    simp only [hbackup] at hfound
    obtain ⟨rfl, hsome⟩ := backupSpecOriginal_ok hbackup
    cases hfound
    exact ⟨rfl, hsome⟩

inductive ConfigStep (b b' : Bundle) : Prop where
  | kept
      (hconfig : b'.config = b.config)
      (hbackup : b'.specOriginal = b.specOriginal)
  | backedUp
      (hconfig : b'.config = b.config)
      (hbackup : b'.specOriginal = b.specOriginal.or b.config)
  | replaced (spec spec' : Spec)
      (hspec : b.spec = some spec)
      (hconfig : b'.config = some (.marshalled spec'))
      (huntouched : spec.process.isSome → spec'.untouched = spec.untouched)
      (hbackup : b'.specOriginal = b.specOriginal.or b.config)
      (hsome : b'.specOriginal.isSome)

theorem ConfigStep.of_same {b c b' : Bundle} (h : ConfigStep c b') (hconfig : c.config = b.config)
    (hbackup : c.specOriginal = b.specOriginal) : ConfigStep b b' := by
  have hspec : c.spec = b.spec := by
    rw [Bundle.spec, Bundle.spec, hconfig]
  cases h with
  | kept hc hb => exact .kept (hc.trans hconfig) (hb.trans hbackup)
  | backedUp hc hb => exact .backedUp (hc.trans hconfig) (by rw [hb, hbackup, hconfig])
  | replaced spec spec' hs hc hu hb hsome =>
    exact .replaced spec spec' (hspec ▸ hs) hc hu (by rw [hb, hbackup, hconfig]) hsome

theorem finalize_step (faults : FinalizeFaults) (securityScan : Bool) (action : CtAct)
    (b : Bundle) : ConfigStep b (finalizeSecurityScan faults securityScan action b).bundle := by
  unfold finalizeSecurityScan
  split
  · exact .kept rfl rfl
  · cases hprepare : prepare faults b with
    | error err => exact .kept rfl rfl
    | ok b' =>
      obtain ⟨rfl, hsome⟩ := prepare_backup hprepare
      dsimp only
      split
      · exact .backedUp rfl rfl
      · rename_i spec hload
        split
        · exact .backedUp rfl rfl
        · split
          · exact .backedUp rfl rfl
          · exact .replaced spec _ (loadConfig_spec hload) rfl
              (fun h => reconcile_untouched h faults _) rfl hsome

theorem finalize_error_config {err : String}
    (h : (finalizeSecurityScan faults true .run b).result = .error err) :
    (finalizeSecurityScan faults true .run b).bundle.config = b.config := by
  unfold finalizeSecurityScan at h ⊢
  rw [if_neg (by simp)] at h ⊢
  cases hprepare : prepare faults b with
  | error err => rfl
  | ok b' =>
    obtain ⟨rfl, -⟩ := prepare_backup hprepare
    rw [hprepare] at h
    dsimp only at h ⊢
    split
    · rfl
    · rename_i spec hload
      rw [hload] at h
      dsimp only at h
      split
      · rfl
      · rename_i hchanged
        rw [if_neg hchanged] at h
        split
        · rfl
        · rename_i hwrite
          rw [hwrite] at h
          cases h

theorem finalize_backup_iff :
    (finalizeSecurityScan faults true .run b).bundle.specOriginal.isSome ↔
      b.specOriginal.isSome ∨ ∃ b', prepare faults b = .ok b' := by
  unfold finalizeSecurityScan
  rw [if_neg (by simp)]
  cases hprepare : prepare faults b with
  | error err => simp
  | ok b' =>
    have hsome := (prepare_backup hprepare).2
    refine iff_of_true ?_ (.inr ⟨b', rfl⟩)
    dsimp only
    split
    · exact hsome
    · split
      · exact hsome
      · split <;> exact hsome

end Finalize

inductive BundleStep where
  | scan (next : Scan)
  | finalize (faults : FinalizeFaults)

def BundleStep.apply (unicode : Unicode) : BundleStep → Bundle → Bundle
  | .scan next, b => next.apply unicode b
  | .finalize faults, b => (finalizeSecurityScan faults true .run b).bundle

def runBundle (unicode : Unicode) (steps : List BundleStep) (b : Bundle) : Bundle :=
  steps.foldl (fun b step => step.apply unicode b) b

section Steps

variable {unicode : Unicode} {opts : Options} {env : RunEnv} {hooks : List Hook}

theorem SameFiles.config {b b' : Bundle} (h : SameFiles b b') :
    b'.config = b.config ∧ b'.specOriginal = b.specOriginal := by
  obtain ⟨file, rfl⟩ := h
  exact ⟨rfl, rfl⟩

theorem runnerRun_config (terminal : Bool) (w : World) :
    (runnerRun unicode opts env terminal hooks w).world.bundle.config =
        w.bundle.config ∧
      (runnerRun unicode opts env terminal hooks w).world.bundle.specOriginal =
        w.bundle.specOriginal := by
  have hend : RunnerEnd unicode opts env hooks w _ := runnerRun_end terminal w
  generalize runnerRun unicode opts env terminal hooks w = r at hend
  cases hend with
  | left err => exact ⟨rfl, rfl⟩
  | destroyed err => exact (runnerDestroy_same opts.keep w).config
  | recorded err =>
    exact (runnerDestroy_same opts.keep { w with bundle := record env w.bundle }).config
  | forward => exact (runnerForward_same { w with bundle := record env w.bundle }).config

theorem applySecurityScan_config (spec : Spec) (b : Bundle) :
    SameFiles b (applySecurityScan unicode env.scan opts spec b).2 := by
  unfold applySecurityScan
  split
  · exact SameFiles.refl b
  · split
    · exact SameFiles.refl b
    · dsimp only
      split
      · exact SameFiles.refl b
      · exact ⟨_, rfl⟩
      · split <;> exact ⟨_, rfl⟩

theorem finishRun_step (r : RunResult) :
    ConfigStep r.world.bundle (finishRun opts env r).world.bundle := by
  have hfinalize := finalize_step env.finalize opts.securityScan .run r.world.bundle
  unfold finishRun
  split
  · exact .kept rfl rfl
  · dsimp only
    split <;> exact hfinalize

theorem startContainer_step (b : Bundle) :
    ConfigStep b (startContainer unicode opts env b).world.bundle := by
  unfold startContainer
  split
  · exact .kept rfl rfl
  · rename_i spec process hsetup
    have hsame : SameFiles b (applySecurityScan unicode env.scan opts spec b).2 :=
      applySecurityScan_config spec b
    obtain ⟨hconfig, hbackup⟩ := hsame.config
    split
    · rename_i err b' happly
      rw [happly] at hconfig hbackup
      exact .kept hconfig hbackup
    · rename_i spec' b' happly
      rw [happly] at hconfig hbackup
      split
      · exact .kept hconfig hbackup
      · exact (finishRun_step _).of_same
          ((runnerRun_config process.terminal { bundle := b' }).1.trans hconfig)
          ((runnerRun_config process.terminal { bundle := b' }).2.trans hbackup)

theorem BundleStep.apply_step (step : BundleStep) (b : Bundle) :
    ConfigStep b (step.apply unicode b) := by
  cases step with
  | scan next => exact startContainer_step b
  | finalize faults => exact finalize_step faults true .run b

/-- What the backup holds after steps from the bundle `b₀`. -/
structure BackupInv (b₀ b : Bundle) : Prop where
  pending : b.specOriginal = none → b.config = b₀.config ∧ b₀.specOriginal = none
  kept : ∀ original, b.specOriginal = some original →
    b₀.specOriginal.or b₀.config = some original

theorem BackupInv.step {b₀ b b' : Bundle} (h : BackupInv b₀ b) (hstep : ConfigStep b b') :
    BackupInv b₀ b' := by
  -- what a backup made now would hold
  have hor : ∀ original, b.specOriginal.or b.config = some original →
      b₀.specOriginal.or b₀.config = some original := by
    intro original horiginal
    cases hb : b.specOriginal with
    | some kept =>
      rw [hb, Option.some_or] at horiginal
      exact h.kept original (hb.trans horiginal)
    | none =>
      obtain ⟨hconfig, hnone⟩ := h.pending hb
      rwa [hb, hconfig, ← hnone] at horiginal
  cases hstep with
  | kept hconfig hbackup =>
    refine ⟨fun hnone => ?_, fun original hsome => ?_⟩
    · rw [hconfig]
      exact h.pending (hbackup ▸ hnone)
    · exact h.kept original (hbackup ▸ hsome)
  | backedUp hconfig hbackup =>
    refine ⟨fun hnone => ?_, fun original hsome => hor original (hbackup ▸ hsome)⟩
    rw [hconfig]
    rw [hbackup] at hnone
    exact h.pending (Option.or_eq_none_iff.mp hnone).1
  | replaced spec spec' hspec hconfig huntouched hbackup hsome =>
    refine ⟨fun hnone => ?_, fun original horiginal =>
      hor original (hbackup ▸ horiginal)⟩
    rw [hnone] at hsome
    cases hsome

theorem ConfigStep.backup_stays {b b' : Bundle} (hstep : ConfigStep b b') {original : ConfigJson}
    (h : b.specOriginal = some original) : b'.specOriginal = some original := by
  cases hstep with
  | kept hconfig hbackup => exact hbackup.trans h
  | backedUp hconfig hbackup => rw [hbackup, h, Option.some_or]
  | replaced spec spec' hspec hconfig huntouched hbackup hsome => rw [hbackup, h, Option.some_or]

theorem ConfigStep.spec_untouched {b b' : Bundle} (hstep : ConfigStep b b') {spec : Spec}
    (hspec : b.spec = some spec) (hprocess : spec.process.isSome) :
    ∃ spec', b'.spec = some spec' ∧ spec'.untouched = spec.untouched := by
  cases hstep with
  | kept hconfig hbackup => exact ⟨spec, by rw [Bundle.spec, hconfig]; exact hspec, rfl⟩
  | backedUp hconfig hbackup => exact ⟨spec, by rw [Bundle.spec, hconfig]; exact hspec, rfl⟩
  | replaced spec₁ spec' hspec₁ hconfig huntouched hbackup hsome =>
    rw [hspec] at hspec₁
    cases hspec₁
    exact ⟨spec', by rw [Bundle.spec, hconfig]; rfl, huntouched hprocess⟩

end Steps

section Runs

variable {unicode : Unicode}

theorem BackupInv.run {b₀ b : Bundle} (h : BackupInv b₀ b) (steps : List BundleStep) :
    BackupInv b₀ (runBundle unicode steps b) := by
  induction steps generalizing b with
  | nil => exact h
  | cons step steps ih => exact ih (h.step (step.apply_step b))

theorem backup_run {b : Bundle} {original : ConfigJson} (h : b.specOriginal = some original)
    (steps : List BundleStep) : (runBundle unicode steps b).specOriginal = some original := by
  induction steps generalizing b with
  | nil => exact h
  | cons step steps ih => exact ih ((step.apply_step b).backup_stays h)

theorem finalize_untouched {b : Bundle} {spec : Spec} (hspec : b.spec = some spec)
    (hprocess : spec.process.isSome) (steps : List BundleStep) :
    ∃ spec', (runBundle unicode steps b).spec = some spec' ∧
      spec'.untouched = spec.untouched := by
  induction steps generalizing b spec with
  | nil => exact ⟨spec, hspec, rfl⟩
  | cons step steps ih =>
    obtain ⟨spec₁, hspec₁, hsame⟩ := (step.apply_step b).spec_untouched hspec hprocess
    have hprocess₁ : spec₁.process.isSome := by
      have hmap := congrArg (fun s : Spec => s.process.isSome) hsame
      simpa [Spec.untouched, hprocess] using hmap
    obtain ⟨spec', hspec', hsame'⟩ := ih hspec₁ hprocess₁
    exact ⟨spec', hspec', hsame'.trans hsame⟩

/-- What finalize leaves alone. -/
theorem finalize_frame (unicode : Unicode) (steps : List BundleStep) (b : Bundle) :
    (∀ spec, b.spec = some spec → spec.process.isSome →
      ∃ spec', (runBundle unicode steps b).spec = some spec' ∧
        spec'.untouched = spec.untouched) ∧
    (∀ original, b.specOriginal = some original →
      (runBundle unicode steps b).specOriginal = some original) ∧
    (∀ original, b.specOriginal = none →
      (runBundle unicode steps b).specOriginal = some original →
      b.config = some original) ∧
    (∀ faults, (finalizeSecurityScan faults true .run
        (runBundle unicode steps b)).bundle.specOriginal.isSome ↔
      (runBundle unicode steps b).specOriginal.isSome ∨
        ∃ b', prepare faults (runBundle unicode steps b) = .ok b') ∧
    (∀ faults c err, (finalizeSecurityScan faults true .run c).result = .error err →
      (finalizeSecurityScan faults true .run c).bundle.config = c.config) := by
  have hstart : BackupInv b b := ⟨fun h => ⟨rfl, h⟩, fun original h => by rw [h, Option.some_or]⟩
  refine ⟨fun spec hspec hprocess => finalize_untouched hspec hprocess steps,
    fun original h => backup_run h steps, fun original hnone hmade => ?_,
    fun faults => finalize_backup_iff, fun faults c err h => finalize_error_config h⟩
  have hkept := (hstart.run steps).kept original hmade
  rwa [hnone, Option.none_or] at hkept

end Runs

theorem backup_missing :
    freshBundle.specOriginal = none ∧
      (runBundle Unicode.ascii
        [.finalize { createBackup := some "no space left on device" }]
        freshBundle).specOriginal = none :=
  ⟨rfl, rfl⟩

end Runc.Scanner
