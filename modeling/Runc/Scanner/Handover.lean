import Runc.Scanner.ProfileCollect

/-!
# From the scan to the next run

The scan writes the profile, the collector and finalize rewrite it, and the next
run without the flag decides from the spec and the file whether to load it.
-/

namespace Runc.Scanner

open Lib

section Load

variable {name : Text} {spec : Spec}

@[simp]
theorem apparmorProfile_setApparmorProfile (spec : Spec) (name : Text) :
    (spec.setApparmorProfile name).apparmorProfile = name :=
  rfl

theorem scanProfileLoadDecision_eq_some {dir : String} {raw : Text} (hname : IsScanName name)
    (htrim : trimSpace name = name) (hspec : spec.apparmorProfile = name)
    (hraw : profileName raw = some name) :
    scanProfileLoadDecision spec dir (some raw) =
      some (genPath dir "apparmor.profile", name) := by
  have hbegins : profileNamePrefix.isPrefixOf name = true :=
    List.isPrefixOf_iff_prefix.mpr hname.begins
  simp [scanProfileLoadDecision, hspec, htrim, hname.ne_nil, hbegins, hraw]

theorem ascii_of_le {c d : Char} (hd : d.toNat < 0x80) (hc : c ≤ d) : c.toNat < 0x80 :=
  Nat.lt_of_le_of_lt (UInt32.le_iff_toNat_le.mp (Char.le_def.mp hc)) hd

theorem validateID_ascii {id : Text} (hid : validateID id = true) : ∀ c ∈ id, c.toNat < 0x80 := by
  simp only [validateID, Bool.and_eq_true, List.all_eq_true] at hid
  intro c hc
  have hclass := hid.1.1.2 c hc
  simp only [isLower, isUpper, isDigit, Bool.or_eq_true, Bool.and_eq_true,
    decide_eq_true_eq] at hclass
  rcases hclass with (((((⟨-, h⟩ | ⟨-, h⟩) | ⟨-, h⟩) | rfl) | rfl) | rfl) | rfl
  · exact ascii_of_le (by decide) h
  · exact ascii_of_le (by decide) h
  · exact ascii_of_le (by decide) h
  all_goals decide

theorem profileName_word {unicode : Unicode} {id : Text} (hid : validateID id = true) :
    ∀ c ∈ securityScanAppArmorProfileName unicode id, isWord c = true := by
  have hfixed : ∀ c ∈ profileNamePrefix, isWord c = true := forall_mem_of_all (by decide)
  intro c hc
  rw [securityScanAppArmorProfileName_eq_take] at hc
  rcases mem_uncutProfileName (List.mem_of_mem_take hc) with
    hc | rfl | ⟨r, hr, hc⟩
  · exact hfixed c hc
  · rfl
  · rcases profileNameRune_cases hr hc with hword | hhigh
    · exact hword
    · rcases mem_profileNameRune hr hc with hmem | rfl
      · exact absurd (validateID_ascii hid c hmem) hhigh
      · rfl

/-- The next run loads the profile of the scan. -/
theorem handover
    (unicode : Unicode) (id : Text) (spec : Spec) (dir : String) (audit : Text)
    (collect finalize : ProfileFaults)
    (hid : validateID id = true)
    (hok : (applyGeneratedAppArmor finalize (genPath dir "apparmor.profile") spec
      (collectedProfile unicode collect (genPath dir "apparmor.profile")
        (some (buildAppArmorProfileSource
          (securityScanAppArmorProfileName unicode id))) audit)).err = none) :
    let name := securityScanAppArmorProfileName unicode id
    let path := genPath dir "apparmor.profile"
    let out := applyGeneratedAppArmor finalize path spec
      (collectedProfile unicode collect path
        (some (buildAppArmorProfileSource name)) audit)
    out.spec.apparmorProfile = name ∧
      scanProfileLoadDecision out.spec dir out.file = some (path, name) := by
  intro name path out
  have hname : IsScanName name := isScanName_profileName unicode id
  obtain ⟨hspec, hfile⟩ := applyGeneratedAppArmor_ok hname (collectedProfile_inv hname .stub) hok
  obtain ⟨raw, hraw, hheader⟩ := hfile.exists_text hname
  have hset : out.spec.apparmorProfile = name := by
    rw [show out.spec = spec.setApparmorProfile name from hspec, apparmorProfile_setApparmorProfile]
  refine ⟨hset, ?_⟩
  rw [show out.file = some raw from hraw]
  exact scanProfileLoadDecision_eq_some hname
    (trimSpace_of_word (profileName_word hid)) hset hheader

def webOpenEvent : Text :=
  "apparmor=\"ALLOWED\" operation=\"open\" profile=\"runc_scan_web\" name=\"/a\"".toList

theorem handover_web :
    let name := securityScanAppArmorProfileName Unicode.ascii "web".toList
    let path := genPath "/bundle" "apparmor.profile"
    let out := applyGeneratedAppArmor {} path {}
      (collectedProfile Unicode.ascii {} path
        (some (buildAppArmorProfileSource name)) webOpenEvent)
    out.spec.apparmorProfile = name ∧
      scanProfileLoadDecision out.spec "/bundle" out.file = some (path, name) :=
  handover Unicode.ascii "web".toList {} "/bundle" webOpenEvent {} {} (by decide)
    (applyGeneratedAppArmor_noFaults (isScanName_profileName _ _)
      (collectedProfile_inv (isScanName_profileName _ _) .stub))

end Load

section Enforce

variable {unicode : Unicode} {name : Text} {path : String} {spec : Spec}
  {audit : Text}

theorem collects_iff : Collects {} audit name ↔ parseApparmorDenials audit name ≠ [] :=
  ⟨fun h => h.events, fun h => ⟨h, rfl, rfl, rfl, rfl⟩⟩

theorem inComplainMode_finalize (hname : IsScanName name) :
    (applyGeneratedAppArmor {} path spec
        (collectedProfile unicode {} path
          (some (buildAppArmorProfileSource name)) audit)).file.any
      inComplainMode = decide (parseApparmorDenials audit name = []) := by
  by_cases hevents : parseApparmorDenials audit name = []
  · have hnot : ¬ Collects {} audit name := fun h => collects_iff.mp h hevents
    rw [collectedProfile_of_not_collects (profileName_template hname) hnot,
      applyGeneratedAppArmor_stub hname rfl, Option.any_some,
      inComplainMode_template hname, decide_eq_true hevents]
  · rw [collectedProfile_template hname (collects_iff.mpr hevents),
      applyGeneratedAppArmor_rules hname (contains_auditBlock _ _ _) rfl,
      show replaceFile {} path = .ok () from rfl, Option.any_some,
      inComplainMode_flippedTemplate hname, decide_eq_false hevents]

theorem exists_real_rule_iff {records : List AppArmorDenialRecord} :
    (∃ rule ∈ buildAppArmorRulesFromDenials unicode records,
        isComment rule = false) ↔ ∃ r ∈ records, r.real = true := by
  constructor
  · rintro ⟨rule, hrule, hreal⟩
    obtain ⟨r, hr, rfl⟩ := mem_buildAppArmorRulesFromDenials.mp hrule
    rw [isComment_ruleOf, Bool.not_eq_false'] at hreal
    exact ⟨r, hr, hreal⟩
  · rintro ⟨r, hr, hreal⟩
    refine ⟨ruleOf unicode r, mem_buildAppArmorRulesFromDenials.mpr ⟨r, hr, rfl⟩, ?_⟩
    rw [isComment_ruleOf, hreal]
    rfl

/-- Out of complain mode only with a rule. -/
theorem enforced_only_with_rule_iff
    (unicode : Unicode) (id audit : Text) (path : String) (spec : Spec) :
    let name := securityScanAppArmorProfileName unicode id
    let file := collectedProfile unicode {} path
      (some (buildAppArmorProfileSource name)) audit
    let rules := buildAppArmorRulesFromDenials unicode
      (parseApparmorDenials audit name)
    ((applyGeneratedAppArmor {} path spec file).file.any inComplainMode = false →
        file = some (templateStart name ++ (auditBlock rules ++ templateClose)) ∧
          ∃ rule ∈ rules, isComment rule = false) ↔
      parseApparmorDenials audit name = [] ∨
        ∃ r ∈ parseApparmorDenials audit name, r.real = true := by
  intro name file rules
  have hname : IsScanName name := isScanName_profileName unicode id
  rw [inComplainMode_finalize hname, decide_eq_false_iff_not, exists_real_rule_iff]
  constructor
  · intro h
    by_cases hevents : parseApparmorDenials audit name = []
    · exact Or.inl hevents
    · exact Or.inr (h hevents).2
  · rintro (hnil | hreal) hevents
    · exact absurd hnil hevents
    · exact ⟨collectedProfile_template hname (collects_iff.mpr hevents), hreal⟩

def webMountEvent : Text :=
  "apparmor=\"ALLOWED\" operation=\"mount\" profile=\"runc_scan_web\"".toList

theorem enforced_without_rule :
    let name := securityScanAppArmorProfileName Unicode.ascii "web".toList
    let path := genPath "/bundle" "apparmor.profile"
    let file := collectedProfile Unicode.ascii {} path
      (some (buildAppArmorProfileSource name)) webMountEvent
    let rules := buildAppArmorRulesFromDenials Unicode.ascii
      (parseApparmorDenials webMountEvent name)
    (applyGeneratedAppArmor {} path {} file).file.any inComplainMode = false ∧
      ∀ rule ∈ rules, isComment rule = true := by
  intro name path file rules
  have hname : IsScanName name := isScanName_profileName _ _
  have hparse : parseApparmorDenials webMountEvent name =
      [{ operation := "mount".toList, profile := "runc_scan_web".toList }] := by
    repeat rw [String.toList_ofList]
    decide +kernel
  constructor
  · rw [inComplainMode_finalize hname, hparse]
    rfl
  · intro rule hrule
    obtain ⟨r, hr, rfl⟩ := mem_buildAppArmorRulesFromDenials.mp hrule
    rw [hparse, List.mem_singleton] at hr
    rw [isComment_ruleOf, hr]
    decide +kernel

end Enforce

end Runc.Scanner
