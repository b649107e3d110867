import Runc.Scanner.FinalizeRuns
import Runc.Scanner.ProfileState

/-!
# Finalizing twice

A second finalize without new artefacts finds the capabilities and the seccomp profile
in place. The AppArmor profile is read back from the file that the first one may have
rewritten.
-/

namespace Runc.Scanner

open Lib

theorem mem_profileLine {last : Option Char} {t : Text} {h : Hit}
    (hh : h ∈ apparmorProfileLineRegexp.results last t) : h.group 1 ≠ [] := by
  obtain ⟨start, hstart, h₁, hh₁, rfl⟩ := Regex.mem_results_seq.mp hh
  obtain ⟨-, rfl⟩ := Regex.mem_results_lineStart.mp hstart
  obtain ⟨word, hword, h₂, hh₂, rfl⟩ := Regex.mem_results_seq.mp hh₁
  obtain ⟨-, -, hword⟩ := Regex.mem_results_text.mp hword
  obtain ⟨blanks, hblanks, h₃, hh₃, rfl⟩ := Regex.mem_results_seq.mp hh₂
  obtain ⟨-, -, -, hblanks⟩ := Regex.mem_results_plus.mp hblanks
  obtain ⟨name, hname, rest, -, rfl⟩ := Regex.mem_results_seq.mp hh₃
  obtain ⟨letters, hletters, rfl⟩ := Regex.mem_results_group.mp hname
  obtain ⟨-, hne, -, -⟩ := Regex.mem_results_plus.mp hletters
  simpa [Hit.group, Hit.append, hword, hblanks] using hne

theorem profileName_ne_nil {raw name : Text} (h : profileName raw = some name) : name ≠ [] := by
  obtain ⟨hit, hfind, rfl⟩ := Option.map_eq_some_iff.mp h
  obtain ⟨last, t, hmem⟩ := Regex.findFrom_mem hfind
  exact mem_profileLine hmem

section Again

variable {b : Bundle} {spec : Spec}

theorem setApparmorProfile_eq_iff (spec : Spec) (name name' : Text) :
    (spec.setApparmorProfile name).setApparmorProfile name' =
        spec.setApparmorProfile name ↔ name' = name := by
  simp [Spec.setApparmorProfile]

theorem setSeccomp_of_seccomp {sec : LinuxSeccomp} (h : spec.seccomp = some sec) :
    spec.setSeccomp sec = spec := by
  obtain ⟨process, linux, hooks, annotations, other⟩ := spec
  cases linux with
  | none => cases h
  | some linux =>
    obtain ⟨seccomp, more⟩ := linux
    cases h
    rfl

theorem setApparmorProfile_of_same {name : Text} (hne : name ≠ [])
    (h : spec.apparmorProfile = name) : spec.setApparmorProfile name = spec := by
  obtain ⟨process, linux, hooks, annotations, other⟩ := spec
  cases process with
  | none => exact absurd h.symm hne
  | some process =>
    cases h
    rfl

def wireProfile (spec : Spec) (file : Option Text) : Spec :=
  match file.bind profileName with
  | none => spec
  | some name => spec.setApparmorProfile name

def enforceProfile (file : Option Text) : Option Text :=
  file.map fun raw =>
    if (profileName raw).isSome ∧ contains raw apparmorAuditMarkerBegin = true then
      flipApparmorComplainToEnforce raw
    else raw

theorem applyGeneratedAppArmor_readable (pf : ProfileFaults) (hread : pf.readProfile = none)
    (path : String) (spec : Spec) (file : Option Text) :
    (applyGeneratedAppArmor pf path spec file).spec = wireProfile spec file ∧
      (applyGeneratedAppArmor pf path spec file).file =
        (if pf.writeTmp = none ∧ pf.renameTmp = none then enforceProfile file
          else file) := by
  unfold applyGeneratedAppArmor wireProfile enforceProfile
  cases file with
  | none => simp [hread]
  | some raw =>
    simp only [hread, Option.bind_some, Option.map_some]
    cases hname : profileName raw with
    | none => simp
    | some name =>
      dsimp only
      cases hmarked : contains raw apparmorAuditMarkerBegin with
      | false => simp
      | true =>
        by_cases hflip : flipApparmorComplainToEnforce raw = raw
        · simp [hflip]
        · cases hwrite : pf.writeTmp with
          | some err => simp [hflip, replaceFile, hwrite, Fault.check, bind, Except.bind]
          | none =>
            cases hrename : pf.renameTmp with
            | some err => simp [hflip, replaceFile, hwrite, hrename, Fault.check, bind, Except.bind]
            | none => simp [hflip, replaceFile, hwrite, hrename, bind, Except.bind]

theorem applyGeneratedAppArmor_unchanged {pf : ProfileFaults} {path : String} {file : Option Text}
    (h : (applyGeneratedAppArmor pf path spec file).changed = false) :
    (applyGeneratedAppArmor pf path spec file).spec = spec := by
  unfold applyGeneratedAppArmor at h ⊢
  split
  · rfl
  · rfl
  · rename_i raw hread
    split
    · rfl
    · rename_i name hname
      have hset : decide (spec.apparmorProfile ≠ name) = false →
          spec.setApparmorProfile name = spec := by
        intro hsame
        exact setApparmorProfile_of_same (profileName_ne_nil hname) (by simpa using hsame)
      simp only [hread, hname] at h
      dsimp only
      split
      · rename_i hmark
        rw [if_pos hmark] at h
        exact hset h
      · rename_i hmark
        rw [if_neg hmark] at h
        split
        · rename_i hflip
          rw [if_pos hflip] at h
          exact hset h
        · rename_i hflip
          rw [if_neg hflip] at h
          split
          · rename_i hreplace
            rw [hreplace] at h
            exact hset h
          · rename_i hreplace
            rw [hreplace] at h
            exact hset h

theorem reconcile_unchanged {faults : FinalizeFaults}
    (h : (reconcile faults b spec).changed = false) : (reconcile faults b spec).spec = spec := by
  have hnarrow := narrow_of_unchanged h
  have hsec : (seccompStep faults b spec).2 = spec := by
    rcases seccompStep_spec faults b spec with heq | ⟨sec, heq⟩
    · rw [heq]
    · simp only [reconcile, hnarrow, heq, Bool.or_true, Bool.true_or] at h
      cases h
  simp only [reconcile, hnarrow, hsec, Bool.or_eq_false_iff] at h ⊢
  exact applyGeneratedAppArmor_unchanged h.2

theorem finalize_noFaults_bundle (hspec : b.spec = some spec) :
    (finalizeSecurityScan {} true .run b).bundle.spec =
        some (reconcile {} b spec).spec ∧
      (finalizeSecurityScan {} true .run b).bundle.apparmorProfile =
        (reconcile {} b spec).profile := by
  obtain ⟨spec', backup, hspec', hcases⟩ := finalize_ok_cases (finalize_noFaults hspec).1
  rw [hspec] at hspec'
  obtain rfl := Option.some.inj hspec'
  rcases hcases with ⟨hsame, hb⟩ | hb
  · rw [hb, reconcile_unchanged hsame]
    exact ⟨hspec, rfl⟩
  · rw [hb]
    exact ⟨rfl, rfl⟩

theorem narrow_again {trace : Option Text} (h : Matches (currentCaps spec).names (trace.getD [])) :
    (narrowCapabilitiesFromTrace spec trace).2 = spec := by
  unfold narrowCapabilitiesFromTrace
  dsimp only
  rw [if_pos (discoveredCaps_equals_iff.mpr h)]

theorem seccompStep_again (h : spec.seccomp = (usableSeccomp b.seccompJson).or spec.seccomp) :
    (seccompStep {} b spec).2 = spec := by
  have hsec := seccompStep_seccomp b spec
  rw [← h] at hsec
  rcases seccompStep_spec {} b spec with heq | ⟨sec, heq⟩
  · rw [heq]
  · rw [heq] at hsec ⊢
    exact setSeccomp_of_seccomp (hsec.symm.trans (seccomp_setSeccomp spec sec))

theorem reconcile_again (spec : Spec) (b₁ : Bundle) (htrace : b₁.capTraceLog = b.capTraceLog)
    (hseccomp : b₁.seccompJson = b.seccompJson) :
    (reconcile {} b₁ (reconcile {} b spec).spec).spec =
        wireProfile (reconcile {} b spec).spec b₁.apparmorProfile ∧
      (reconcile {} b₁ (reconcile {} b spec).spec).profile =
        enforceProfile b₁.apparmorProfile := by
  have hcaps : (narrowCapabilitiesFromTrace (reconcile {} b spec).spec
      (readTrace {} b₁)).2 = (reconcile {} b spec).spec := by
    refine narrow_again ?_
    unfold currentCaps
    rw [reconcile_capabilities, show readTrace {} b₁ = b.capTraceLog from htrace]
    exact narrowCapabilitiesFromTrace_bounding spec b.capTraceLog
  have hsec : (seccompStep {} b₁ (reconcile {} b spec).spec).2 =
      (reconcile {} b spec).spec := by
    refine seccompStep_again ?_
    rw [reconcile_seccomp, hseccomp]
    cases usableSeccomp b.seccompJson <;> rfl
  have haa := applyGeneratedAppArmor_readable {} rfl
    (genPath b₁.dir "apparmor.profile") (reconcile {} b spec).spec b₁.apparmorProfile
  generalize (reconcile {} b spec).spec = spec₁ at hcaps hsec haa ⊢
  unfold reconcile
  dsimp only
  rw [hcaps, hsec]
  exact haa

end Again

def FlipSettles (file : Option Text) : Prop :=
  ∀ raw name, file = some raw → profileName raw = some name →
    contains raw apparmorAuditMarkerBegin = true →
    profileName (flipApparmorComplainToEnforce raw) = none ∨
      (profileName (flipApparmorComplainToEnforce raw) = some name ∧
        (contains (flipApparmorComplainToEnforce raw) apparmorAuditMarkerBegin = true →
          flipApparmorComplainToEnforce (flipApparmorComplainToEnforce raw) =
            flipApparmorComplainToEnforce raw))

theorem wireProfile_some {raw name : Text} (h : profileName raw = some name) (spec : Spec) :
    wireProfile spec (some raw) = spec.setApparmorProfile name := by
  simp [wireProfile, h]

theorem wireProfile_nameless {raw : Text} (h : profileName raw = none) (spec : Spec) :
    wireProfile spec (some raw) = spec := by
  simp [wireProfile, h]

theorem enforceProfile_some {raw : Text}
    (h : (profileName raw).isSome ∧ contains raw apparmorAuditMarkerBegin = true) :
    enforceProfile (some raw) = some (flipApparmorComplainToEnforce raw) := by
  simp only [enforceProfile, Option.map_some, if_pos h]

theorem enforceProfile_idle {raw : Text}
    (h : ¬ ((profileName raw).isSome ∧ contains raw apparmorAuditMarkerBegin = true)) :
    enforceProfile (some raw) = some raw := by
  simp only [enforceProfile, Option.map_some, if_neg h]

theorem wire_again_idle {raw : Text}
    (h : ¬ ((profileName raw).isSome ∧ contains raw apparmorAuditMarkerBegin = true))
    (spec : Spec) :
    wireProfile (wireProfile spec (some raw)) (enforceProfile (some raw)) =
        wireProfile spec (some raw) ∧
      enforceProfile (enforceProfile (some raw)) = enforceProfile (some raw) := by
  rw [enforceProfile_idle h, enforceProfile_idle h]
  refine ⟨?_, rfl⟩
  cases hname : profileName raw with
  | none => rw [wireProfile_nameless hname, wireProfile_nameless hname]
  | some name => rw [wireProfile_some hname, wireProfile_some hname, setApparmorProfile_eq_iff]

theorem wire_again_iff (spec : Spec) (file : Option Text) :
    (wireProfile (wireProfile spec file) (enforceProfile file) =
        wireProfile spec file ∧
      enforceProfile (enforceProfile file) = enforceProfile file) ↔
      FlipSettles file := by
  cases file with
  | none => exact iff_of_true ⟨rfl, rfl⟩ fun raw name h => nomatch h
  | some raw =>
    by_cases hflips : (profileName raw).isSome ∧ contains raw apparmorAuditMarkerBegin = true
    · obtain ⟨name, hname⟩ := Option.isSome_iff_exists.mp hflips.1
      have hsettles : FlipSettles (some raw) ↔
          profileName (flipApparmorComplainToEnforce raw) = none ∨
            (profileName (flipApparmorComplainToEnforce raw) = some name ∧
              (contains (flipApparmorComplainToEnforce raw) apparmorAuditMarkerBegin = true →
                flipApparmorComplainToEnforce (flipApparmorComplainToEnforce raw) =
                  flipApparmorComplainToEnforce raw)) := by
        constructor
        · intro h
          exact h raw name rfl hname hflips.2
        · rintro h raw' name' hraw hname' -
          cases hraw
          rw [hname] at hname'
          cases hname'
          exact h
      rw [enforceProfile_some hflips, wireProfile_some hname, hsettles]
      generalize flipApparmorComplainToEnforce raw = flipped
      cases hflipped : profileName flipped with
      | none =>
        have hidle : enforceProfile (some flipped) = some flipped :=
          enforceProfile_idle (by simp [hflipped])
        rw [wireProfile_nameless hflipped, hidle]
        simp
      | some name' =>
        rw [wireProfile_some hflipped, setApparmorProfile_eq_iff]
        by_cases hmarked : contains flipped apparmorAuditMarkerBegin = true
        · rw [enforceProfile_some ⟨by simp [hflipped], hmarked⟩]
          simp [hmarked]
        · have hidle : enforceProfile (some flipped) = some flipped :=
            enforceProfile_idle fun h => hmarked h.2
          rw [hidle]
          simp [hmarked]
    · refine iff_of_true (wire_again_idle hflips spec) ?_
      rintro raw' name' hraw hname' hmarked
      cases hraw
      exact absurd ⟨by rw [hname']; rfl, hmarked⟩ hflips

theorem reconcile_noFaults (b : Bundle) (spec : Spec) :
    ∃ spec₀, (reconcile {} b spec).spec = wireProfile spec₀ b.apparmorProfile ∧
      (reconcile {} b spec).profile = enforceProfile b.apparmorProfile :=
  ⟨_, applyGeneratedAppArmor_readable {} rfl (genPath b.dir "apparmor.profile") _ b.apparmorProfile⟩

theorem flipSettles_render {name : Text} (hname : IsScanName name) {s : ProfileState}
    (hs : s.Valid) : FlipSettles (some (s.render name)) := by
  rintro raw name' hraw hname' hmarked
  cases hraw
  have hheader : ∀ s : ProfileState, profileName (s.render name) = some name :=
    fun s => profileName_bodyStart hname s _
  rw [hheader] at hname'
  cases hname'
  have hrules : s.rules ≠ [] := by
    rw [contains_render hname] at hmarked
    simpa using hmarked
  have henforced : ({ s with complain := false } : ProfileState).Valid :=
    ⟨hs.lines, fun _ => hrules⟩
  rw [flip_render hname hs hrules]
  exact .inr ⟨hheader _, fun _ => flip_render hname henforced hrules⟩

def webProfile : Text :=
  ({ rules := ["  capability,".toList] } : ProfileState).render
    (securityScanAppArmorProfileName Unicode.ascii "web".toList)

def webProfileBundle : Bundle :=
  { freshBundle with apparmorProfile := some webProfile }

def nestedFlags : Text :=
  "profile b \x7b\n# fl flags=(complain)ags=(complain)\n".toList ++
    apparmorAuditMarkerBegin

def flippedOnce : Text :=
  "profile b \x7b\n# flags=(complain)\n".toList ++ apparmorAuditMarkerBegin

def flippedTwice : Text :=
  "profile b \x7b\n#\n".toList ++ apparmorAuditMarkerBegin

theorem enforce_nestedFlags :
    enforceProfile (some nestedFlags) = some flippedOnce ∧
      enforceProfile (some flippedOnce) = some flippedTwice ∧
      flippedTwice ≠ flippedOnce := by
  unfold nestedFlags flippedOnce flippedTwice apparmorAuditMarkerBegin
  repeat rw [String.toList_ofList]
  decide +kernel

end Runc.Scanner
