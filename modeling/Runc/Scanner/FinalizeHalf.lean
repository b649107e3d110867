import Runc.Scanner.FinalizeAgain

/-!
# Finalizing half

Finalize replaces the AppArmor profile and then config.json, each by a rename.
-/

namespace Runc.Scanner

open Lib

def ProfileFaults.replacing (pf : ProfileFaults) : ProfileFaults :=
  { pf with writeTmp := none, renameTmp := none }

def FinalizeFaults.replacing (faults : FinalizeFaults) : FinalizeFaults :=
  { faults with
    profile := faults.profile.replacing
    marshal := none
    writeTmp := none
    renameTmp := none }

def ProfileFaults.Replaces (pf : ProfileFaults) : Prop :=
  pf.writeTmp = none ∧ pf.renameTmp = none

def FinalizeFaults.ReplacesConfig (faults : FinalizeFaults) : Prop :=
  faults.marshal = none ∧ faults.writeTmp = none ∧ faults.renameTmp = none

instance (pf : ProfileFaults) : Decidable pf.Replaces :=
  inferInstanceAs (Decidable (_ ∧ _))

instance (faults : FinalizeFaults) : Decidable faults.ReplacesConfig :=
  inferInstanceAs (Decidable (_ ∧ _ ∧ _))

section Half

variable (faults : FinalizeFaults) (b : Bundle)

def newPolicy : Bundle :=
  (finalizeSecurityScan faults.replacing true .run b).bundle

def AllOrNothing : Prop :=
  let after := (finalizeSecurityScan faults true .run b).bundle
  (after.config = (newPolicy faults b).config ∧
      after.apparmorProfile = (newPolicy faults b).apparmorProfile) ∨
    (after.config = b.config ∧ after.apparmorProfile = b.apparmorProfile)

variable {faults b}

theorem writeConfig_ok_iff : writeConfig faults = .ok () ↔ faults.ReplacesConfig := by
  unfold writeConfig FinalizeFaults.ReplacesConfig
  cases faults.marshal <;> cases faults.writeTmp <;> cases faults.renameTmp <;>
    simp [Fault.check, bind, Except.bind]

theorem applyGeneratedAppArmor_replacing (pf : ProfileFaults) (path : String) (spec : Spec)
    (file : Option Text) :
    (applyGeneratedAppArmor pf path spec file).changed =
        (applyGeneratedAppArmor pf.replacing path spec file).changed ∧
      (applyGeneratedAppArmor pf path spec file).spec =
        (applyGeneratedAppArmor pf.replacing path spec file).spec ∧
      (applyGeneratedAppArmor pf path spec file).file =
        (if pf.Replaces then (applyGeneratedAppArmor pf.replacing path spec file).file
          else file) := by
  have hall : replaceFile pf.replacing path = .ok () := rfl
  have hread : pf.replacing.readProfile = pf.readProfile := rfl
  unfold applyGeneratedAppArmor
  rw [hall, hread]
  split
  · simp
  · simp
  · rename_i raw _
    split
    · simp
    · dsimp only
      split
      · simp
      · split
        · simp
        · cases hreplace : replaceFile pf path with
          | ok done =>
            have hpf : pf.Replaces := replaceFile_eq_ok_iff.mp hreplace
            simp [hpf]
          | error err =>
            have hpf : ¬ pf.Replaces := fun h => by
              rw [replaceFile_eq_ok_iff.mpr h] at hreplace
              cases hreplace
            simp [hpf]

theorem reconcile_replacing (faults : FinalizeFaults) (b : Bundle) (spec : Spec) :
    (reconcile faults b spec).changed = (reconcile faults.replacing b spec).changed ∧
      (reconcile faults b spec).spec = (reconcile faults.replacing b spec).spec ∧
      (reconcile faults b spec).profile =
        (if faults.profile.Replaces then (reconcile faults.replacing b spec).profile
          else b.apparmorProfile) := by
  have hcaps : readTrace faults.replacing b = readTrace faults b := rfl
  have hsec (spec : Spec) : seccompStep faults.replacing b spec = seccompStep faults b spec := rfl
  have hprofile : faults.replacing.profile = faults.profile.replacing := rfl
  simp only [reconcile, hcaps, hsec, hprofile]
  obtain ⟨hchanged, hspec, hfile⟩ := applyGeneratedAppArmor_replacing faults.profile
    (genPath b.dir "apparmor.profile")
    (seccompStep faults b (narrowCapabilitiesFromTrace spec (readTrace faults b)).2).2
    b.apparmorProfile
  exact ⟨congrArg _ hchanged, hspec, hfile⟩

theorem finalize_replaces (faults : FinalizeFaults) (b : Bundle) :
    (finalizeSecurityScan faults true .run b).bundle.config =
        (if faults.ReplacesConfig then (newPolicy faults b).config else b.config) ∧
      (finalizeSecurityScan faults true .run b).bundle.apparmorProfile =
        (if faults.profile.Replaces then (newPolicy faults b).apparmorProfile
          else b.apparmorProfile) := by
  have hprepare : prepare faults.replacing b = prepare faults b := rfl
  have hload (b : Bundle) : loadConfig faults.replacing b = loadConfig faults b := rfl
  have hwrite : writeConfig faults.replacing = .ok () := rfl
  have hguard : ¬ ((true = false) ∨ CtAct.run ≠ CtAct.run) := by decide
  unfold newPolicy finalizeSecurityScan
  simp only [if_neg hguard, hprepare, hload, hwrite]
  cases hb : prepare faults b with
  | error err => simp
  | ok b' =>
    obtain ⟨backup, rfl⟩ := prepare_frame hb
    dsimp only
    cases hspec : loadConfig faults { b with specOriginal := backup } with
    | error err => simp
    | ok spec =>
      obtain ⟨hchanged, hsame, hprofile⟩ := reconcile_replacing faults
        { b with specOriginal := backup } spec
      dsimp only
      rw [hchanged, hsame, hprofile]
      split
      · simp
      · cases hcfg : writeConfig faults with
        | error err =>
          have hnot : ¬ faults.ReplacesConfig := fun h => by
            rw [writeConfig_ok_iff.mpr h] at hcfg
            cases hcfg
          simp [hnot]
        | ok done => simp [writeConfig_ok_iff.mp hcfg]

/-- All or nothing. -/
theorem finalize_all_or_nothing_iff (faults : FinalizeFaults) (b : Bundle) :
    let after := (finalizeSecurityScan faults true .run b).bundle
    (after.config = (newPolicy faults b).config ∨ after.config = b.config) ∧
      (after.apparmorProfile = (newPolicy faults b).apparmorProfile ∨
        after.apparmorProfile = b.apparmorProfile) ∧
      (AllOrNothing faults b ↔
        (faults.ReplacesConfig ↔ faults.profile.Replaces) ∨
          (newPolicy faults b).config = b.config ∨
          (newPolicy faults b).apparmorProfile = b.apparmorProfile) := by
  intro after
  obtain ⟨hconfig, hprofile⟩ := finalize_replaces faults b
  have hall : AllOrNothing faults b ↔ (after.config = (newPolicy faults b).config ∧
          after.apparmorProfile = (newPolicy faults b).apparmorProfile) ∨
        (after.config = b.config ∧ after.apparmorProfile = b.apparmorProfile) := Iff.rfl
  change after.config = _ at hconfig
  change after.apparmorProfile = _ at hprofile
  rw [hall, hconfig, hprofile]
  by_cases hc : faults.ReplacesConfig <;> by_cases hp : faults.profile.Replaces
  · simp [hc, hp]
  -- Only config.json is replaced: the profile has to be the new one already, or
  -- config.json the old one still.
  · simp [hc, hp, or_comm, eq_comm]
  · simp [hc, hp, eq_comm]
  · simp [hc, hp]

end Half

def complainProfile : Text :=
  "profile b flags=(complain) \x7b\n".toList ++ apparmorAuditMarkerBegin

def enforcedProfile : Text :=
  "profile b \x7b\n".toList ++ apparmorAuditMarkerBegin

def complainBundle : Bundle :=
  { freshBundle with apparmorProfile := some complainProfile }

theorem enforce_complainProfile :
    profileName complainProfile = some ['b'] ∧
      enforceProfile (some complainProfile) = some enforcedProfile ∧
      enforcedProfile ≠ complainProfile := by
  unfold complainProfile enforcedProfile apparmorAuditMarkerBegin
  repeat rw [String.toList_ofList]
  decide +kernel

theorem newPolicy_complainBundle :
    let done := (finalizeSecurityScan {} true .run complainBundle).bundle
    done.config ≠ complainBundle.config ∧
      done.apparmorProfile = some enforcedProfile ∧
      some enforcedProfile ≠ complainBundle.apparmorProfile := by
  intro done
  have hspec : complainBundle.spec = some appSpec := rfl
  obtain ⟨hname, henforce, hne⟩ := enforce_complainProfile
  obtain ⟨hspec₁, hfile₁⟩ := finalize_noFaults_bundle hspec
  obtain ⟨spec₀, hwire, hfile⟩ := reconcile_noFaults complainBundle appSpec
  refine ⟨fun hsame => ?_, (hfile₁.trans hfile).trans henforce, fun h => hne (Option.some.inj h)⟩
  -- The old config.json names no profile, the new one names this one.
  have hwired : wireProfile spec₀ (some complainProfile) =
      spec₀.setApparmorProfile ['b'] := by
    unfold wireProfile
    rw [Option.bind_some, hname]
  have hold : done.spec = some appSpec := congrArg
    (fun config : Option ConfigJson => config.bind (·.unmarshal.toOption)) hsame
  have happ : appSpec = spec₀.setApparmorProfile ['b'] :=
    (Option.some.inj (hold.symm.trans hspec₁)).trans (hwire.trans hwired)
  have hnone : appSpec.apparmorProfile = ['b'] := congrArg Spec.apparmorProfile happ
  exact absurd hnone (by decide)

/-- Half of a finalize. -/
theorem finalize_half_done :
    let full : Fault := some "no space left on device"
    let noConfig : FinalizeFaults := { writeTmp := full }
    let noProfile : FinalizeFaults := { profile := { writeTmp := full } }
    let after₁ := (finalizeSecurityScan noConfig true .run complainBundle).bundle
    let after₂ := (finalizeSecurityScan noProfile true .run complainBundle).bundle
    (after₁.config = complainBundle.config ∧
        after₁.apparmorProfile ≠ complainBundle.apparmorProfile) ∧
      (after₂.config ≠ complainBundle.config ∧
        after₂.apparmorProfile = complainBundle.apparmorProfile) ∧
      ¬ AllOrNothing noConfig complainBundle ∧
      ¬ AllOrNothing noProfile complainBundle := by
  intro full noConfig noProfile after₁ after₂
  obtain ⟨hconfig, hprofile, hne⟩ := newPolicy_complainBundle
  rw [← hprofile] at hne
  obtain ⟨hconfig₁, hprofile₁⟩ := finalize_replaces noConfig complainBundle
  obtain ⟨hconfig₂, hprofile₂⟩ := finalize_replaces noProfile complainBundle
  rw [if_neg (by decide)] at hconfig₁ hprofile₂
  rw [if_pos (by decide)] at hprofile₁ hconfig₂
  have hchanged₁ : after₁.apparmorProfile ≠ complainBundle.apparmorProfile := by
    rw [hprofile₁]
    exact hne
  have hchanged₂ : after₂.config ≠ complainBundle.config := by
    rw [hconfig₂]
    exact hconfig
  refine ⟨⟨hconfig₁, hchanged₁⟩, ⟨hchanged₂, hprofile₂⟩, ?_, ?_⟩
  · rintro (⟨hnew, -⟩ | ⟨-, hold⟩)
    · exact hconfig (hnew.symm.trans hconfig₁)
    · exact hchanged₁ hold
  · rintro (⟨-, hnew⟩ | ⟨hold, -⟩)
    · exact hne (hnew.symm.trans hprofile₂)
    · exact hchanged₂ hold

end Runc.Scanner
