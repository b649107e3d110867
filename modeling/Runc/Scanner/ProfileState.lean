import Runc.Scanner.AuditBlock

/-!
# The profile as a state machine

What generated/apparmor.profile is for: a mode and a list of collected rules. The
collector replaces the rules, finalize leaves complain mode when there are some.
-/

namespace Runc.Scanner

open Lib

structure ProfileState where
  complain : Bool := true
  rules : List Text := []

namespace ProfileState

def flags (s : ProfileState) : Text :=
  if s.complain then complainFlags else enforceFlags

def block (s : ProfileState) : Text :=
  if s.rules = [] then [] else auditBlock s.rules

def stub (name : Text) (s : ProfileState) : Text :=
  bodyStart name s.flags ++ templateClose

def render (name : Text) (s : ProfileState) : Text :=
  bodyStart name s.flags ++ (s.block ++ templateClose)

structure Valid (s : ProfileState) : Prop where
  lines : ∀ rule ∈ s.rules, RuleLine rule
  enforced : s.complain = false → s.rules ≠ []

end ProfileState

inductive ProfileStep where
  | collect (faults : ProfileFaults) (audit : Text)
  | finalize (faults : ProfileFaults) (spec : Spec)

def profileStep (unicode : Unicode) (path : String) (file : Option Text) :
    ProfileStep → Option Text
  | .collect faults audit => collectedProfile unicode faults path file audit
  | .finalize faults spec => (applyGeneratedAppArmor faults path spec file).file

def runProfile (unicode : Unicode) (path : String) (steps : List ProfileStep)
    (file : Option Text) : Option Text :=
  steps.foldl (profileStep unicode path) file

instance (faults : ProfileFaults) (audit name : Text) : Decidable (Collects faults audit name) :=
  decidable_of_iff
    (parseApparmorDenials audit name ≠ [] ∧ faults.readProfile = none ∧
      faults.readAgain = none ∧ faults.writeTmp = none ∧
      faults.renameTmp = none)
    ⟨fun ⟨h, h₁, h₂, h₃, h₄⟩ => ⟨h, h₁, h₂, h₃, h₄⟩,
      fun h => ⟨h.events, h.readProfile, h.readAgain, h.writeTmp, h.renameTmp⟩⟩

def ProfileState.step (unicode : Unicode) (name : Text) (s : ProfileState) :
    ProfileStep → ProfileState
  | .collect faults audit =>
      if Collects faults audit name then
        { s with
          rules := buildAppArmorRulesFromDenials unicode
            (parseApparmorDenials audit name) }
      else s
  | .finalize faults _ =>
      if faults.Works ∧ s.rules ≠ [] then { s with complain := false } else s

def ProfileState.run (unicode : Unicode) (name : Text) (s : ProfileState)
    (steps : List ProfileStep) : ProfileState :=
  steps.foldl (ProfileState.step unicode name) s

def ProfileStep.Harmless (name : Text) : ProfileStep → Prop
  | .collect _ audit =>
      ∀ r ∈ parseApparmorDenials audit name, r.Printed ∧ r.Flagless
  | .finalize _ _ => True

section Render

variable {unicode : Unicode} {name : Text} {path : String} {s : ProfileState}

section

variable (hname : IsScanName name)
include hname

theorem clear_render (s : ProfileState) (b : Text) :
    Clear markerStart (bodyStart name s.flags) b := by
  unfold ProfileState.flags
  split
  · exact clear_bodyStart hname clearCheck_complain b
  · exact clear_bodyStart hname clearCheck_enforce b

theorem profileName_bodyStart (s : ProfileState) (rest : Text) :
    profileName (bodyStart name s.flags ++ rest) = some name := by
  rw [bodyStart, List.append_assoc]
  unfold ProfileState.flags
  split
  · exact profileName_complain hname _
  · exact profileName_enforce hname _

theorem inComplainMode_bodyStart (s : ProfileState) (rest : Text) :
    inComplainMode (bodyStart name s.flags ++ rest) = s.complain := by
  rw [bodyStart, List.append_assoc]
  unfold ProfileState.flags
  cases s.complain with
  | true => exact inComplainMode_complain hname _
  | false => exact inComplainMode_enforce hname _

theorem strip_render (hs : s.Valid) : stripExistingAuditBlock (s.render name) = s.stub name := by
  unfold ProfileState.render ProfileState.block ProfileState.stub
  split
  · exact stripExistingAuditBlock_of_clear (clear_append.mpr
      ⟨(clear_render hname s _).of_initial markerStart_begin, clear_templateClose⟩)
  · exact strip_block (getLast?_bodyStart name _) (clear_render hname s) hs.lines templateClose

theorem insertAuditBlock_render (hs : s.Valid) (rules : List Text) :
    insertAuditBlock rules (s.render name) =
      some (bodyStart name s.flags ++ (auditBlock rules ++ templateClose)) := by
  rw [insertAuditBlock, strip_render hname hs, ProfileState.stub,
    findProfileBodyClose_templateClose]
  simp

theorem auditRules_render (hs : s.Valid) :
    auditRules (s.render name) =
      if s.rules = [] then none else some s.rules := by
  unfold ProfileState.render ProfileState.block
  split
  · exact auditRules_of_clear (clear_append.mpr
      ⟨(clear_render hname s _).of_initial markerStart_begin, clear_templateClose⟩)
  · exact auditRules_block (clear_render hname s) hs.lines templateClose

theorem occurrences_render (hs : s.Valid) :
    occurrences apparmorAuditMarkerBegin (s.render name) ≤ 1 ∧
      occurrences apparmorAuditMarkerEnd (s.render name) ≤ 1 := by
  have hhash : '#' ∉ templateClose := by decide
  unfold ProfileState.render ProfileState.block
  split
  · have hnone : ∀ marker, markerStart <+: marker →
        occurrences marker (bodyStart name s.flags ++ ([] ++ templateClose)) = 0 :=
      fun marker hmarker => occurrences_eq_zero_of_clear (clear_append.mpr
        ⟨(clear_render hname s _).of_initial hmarker, clear_of_hashless hmarker hhash⟩)
    rw [hnone _ markerStart_begin, hnone _ markerStart_end]
    decide
  · rw [occurrences_begin (clear_render hname s) hs.lines hhash,
      occurrences_end (clear_render hname s) hs.lines hhash]
    decide

end

end Render

section Steps

variable {unicode : Unicode} {name : Text} {path : String} {s : ProfileState}

theorem ruleLine_of_harmless {faults : ProfileFaults} {audit : Text}
    (h : (ProfileStep.collect faults audit).Harmless name) :
    ∀ rule ∈ buildAppArmorRulesFromDenials unicode
      (parseApparmorDenials audit name), RuleLine rule := by
  intro rule hrule
  obtain ⟨r, hr, rfl⟩ := mem_buildAppArmorRulesFromDenials.mp hrule
  exact ruleLine_ruleOf (h r hr).1 (h r hr).2

theorem ProfileState.Valid.step (hs : s.Valid) {step : ProfileStep} (hstep : step.Harmless name) :
    (s.step unicode name step).Valid := by
  cases step with
  | collect faults audit =>
    rw [ProfileState.step]
    split
    · rename_i hcollects
      refine ⟨ruleLine_of_harmless hstep, fun _ hnil => ?_⟩
      exact hcollects.events (buildAppArmorRulesFromDenials_eq_nil.mp hnil)
    · exact hs
  | finalize faults spec =>
    rw [ProfileState.step]
    split
    · rename_i hworks
      exact ⟨hs.lines, fun _ => hworks.2⟩
    · exact hs

section

variable (hname : IsScanName name)
include hname

theorem flip_render (hs : s.Valid) (hrules : s.rules ≠ []) :
    flipApparmorComplainToEnforce (s.render name) =
      { s with complain := false : ProfileState }.render name := by
  simp only [ProfileState.render, ProfileState.block, ProfileState.flags,
    bodyStart, if_neg hrules, List.append_assoc, Bool.false_eq_true, if_false]
  cases s.complain with
  | true => rw [if_pos rfl, flip_complain hname, replace_block hs.lines]
  | false => rw [if_neg Bool.false_ne_true, flip_enforce hname, replace_block hs.lines]

theorem contains_render (s : ProfileState) :
    contains (s.render name) apparmorAuditMarkerBegin =
      decide (s.rules ≠ []) := by
  unfold ProfileState.render ProfileState.block
  split
  · rename_i hnil
    rw [hnil]
    exact contains_eq_false_of_clear marker_ne_nil (clear_append.mpr
      ⟨(clear_render hname s _).of_initial markerStart_begin, clear_templateClose⟩)
  · rename_i hrules
    rw [contains_auditBlock, decide_eq_true hrules]

theorem finalize_render (hs : s.Valid) (faults : ProfileFaults) (spec : Spec) :
    (applyGeneratedAppArmor faults path spec (some (s.render name))).file =
      some ((s.step unicode name (.finalize faults spec)).render name) := by
  have hheader : profileName (s.render name) = some name := profileName_bodyStart hname s _
  simp only [applyGeneratedAppArmor_file hheader, contains_render hname,
    decide_eq_true_eq, ProfileState.step]
  split
  · rename_i hworks
    rw [flip_render hname hs hworks.2]
  · rfl

theorem profileStep_render (hs : s.Valid) (step : ProfileStep) :
    profileStep unicode path (some (s.render name)) step =
      some ((s.step unicode name step).render name) := by
  cases step with
  | collect faults audit =>
    have hheader : profileName (s.render name) = some name := profileName_bodyStart hname s _
    rw [profileStep, ProfileState.step]
    split
    · rename_i hcollects
      have hrules : buildAppArmorRulesFromDenials unicode (parseApparmorDenials audit name) ≠ [] :=
        fun hnil =>
          hcollects.events (buildAppArmorRulesFromDenials_eq_nil.mp hnil)
      rw [collectedProfile_of_collects hheader hcollects (insertAuditBlock_render hname hs _)]
      simp only [ProfileState.render, ProfileState.block, if_neg hrules]
      rfl
    · rename_i hcollects
      exact collectedProfile_of_not_collects hheader hcollects
  | finalize faults spec => exact finalize_render hname hs faults spec

theorem runProfile_render (hs : s.Valid) {steps : List ProfileStep}
    (hsteps : ∀ step ∈ steps, step.Harmless name) :
    runProfile unicode path steps (some (s.render name)) =
        some ((s.run unicode name steps).render name) ∧
      (s.run unicode name steps).Valid := by
  induction steps generalizing s with
  | nil => exact ⟨rfl, hs⟩
  | cons step steps ih =>
    obtain ⟨hstep, hrest⟩ := List.forall_mem_cons.mp hsteps
    have hvalid : (s.step unicode name step).Valid := hs.step hstep
    have htext : profileStep unicode path (some (s.render name)) step =
        some ((s.step unicode name step).render name) :=
      profileStep_render hname hs step
    have hrun := ih hvalid hrest
    rw [← htext] at hrun
    exact hrun

end

theorem ProfileState.step_enforced_iff (step : ProfileStep) :
    (s.step unicode name step).complain = false ↔
      s.complain = false ∨
        ∃ faults spec, step = .finalize faults spec ∧ faults.Works ∧
          s.rules ≠ [] := by
  cases step with
  | collect faults audit =>
    have hsame : (s.step unicode name (.collect faults audit)).complain =
        s.complain := by
      rw [ProfileState.step]
      split <;> rfl
    rw [hsame]
    simp
  | finalize faults spec =>
    rw [ProfileState.step]
    split
    · rename_i hworks
      exact ⟨fun _ => Or.inr ⟨faults, spec, rfl, hworks⟩, fun _ => rfl⟩
    · rename_i hworks
      constructor
      · exact Or.inl
      · rintro (henforced | ⟨faults', spec', heq, hworks'⟩)
        · exact henforced
        · cases heq
          exact absurd hworks' hworks

theorem ProfileState.run_enforced_iff {steps : List ProfileStep} :
    (s.run unicode name steps).complain = false ↔
      s.complain = false ∨
        ∃ before faults spec after,
          steps = before ++ .finalize faults spec :: after ∧ faults.Works ∧
            (s.run unicode name before).rules ≠ [] := by
  induction steps generalizing s with
  | nil => simp [ProfileState.run]
  | cons step steps ih =>
    have hcons : s.run unicode name (step :: steps) =
        (s.step unicode name step).run unicode name steps := rfl
    rw [hcons, ih, ProfileState.step_enforced_iff]
    constructor
    · rintro ((henforced | ⟨faults, spec, rfl, hworks, hrules⟩) |
        ⟨before, faults, spec, after, rfl, hworks, hrules⟩)
      · exact Or.inl henforced
      · exact Or.inr ⟨[], faults, spec, steps, rfl, hworks, hrules⟩
      · exact Or.inr ⟨step :: before, faults, spec, after, rfl, hworks, hrules⟩
    · rintro (henforced | ⟨before, faults, spec, after, heq, hworks, hrules⟩)
      · exact Or.inl (Or.inl henforced)
      · cases before with
        | nil =>
          obtain ⟨rfl, -⟩ := List.cons.inj heq
          exact Or.inl (Or.inr ⟨faults, spec, rfl, hworks, hrules⟩)
        | cons first before =>
          obtain ⟨rfl, htail⟩ := List.cons.inj heq
          exact Or.inr ⟨before, faults, spec, after, htail, hworks, hrules⟩

def nextRules (unicode : Unicode) (name : Text) (rules : List Text) : ProfileStep → List Text
  | .collect faults audit =>
      if Collects faults audit name then
        buildAppArmorRulesFromDenials unicode (parseApparmorDenials audit name)
      else rules
  | .finalize _ _ => rules

def collectedRules (unicode : Unicode) (name : Text) (steps : List ProfileStep) : List Text :=
  steps.foldl (nextRules unicode name) []

theorem ProfileState.run_rules (steps : List ProfileStep) :
    (s.run unicode name steps).rules =
      steps.foldl (nextRules unicode name) s.rules := by
  induction steps generalizing s with
  | nil => rfl
  | cons step steps ih =>
    have hstep : (s.step unicode name step).rules =
        nextRules unicode name s.rules step := by
      cases step with
      | collect faults audit =>
        rw [ProfileState.step, nextRules]
        split <;> rfl
      | finalize faults spec =>
        rw [ProfileState.step, nextRules]
        split <;> rfl
    rw [List.foldl_cons, ← hstep]
    exact ih

end Steps

section Lifecycle

structure Lifecycle (unicode : Unicode) (path : String) (name : Text)
    (steps : List ProfileStep) (raw : Text) : Prop where
  oneBlock : occurrences apparmorAuditMarkerBegin raw ≤ 1 ∧
    occurrences apparmorAuditMarkerEnd raw ≤ 1
  body : auditRules raw =
    if collectedRules unicode name steps = [] then none
    else some (collectedRules unicode name steps)
  outside : ∃ flags, (flags = complainFlags ∨ flags = enforceFlags) ∧
    stripExistingAuditBlock raw = bodyStart name flags ++ templateClose ∧
    raw = bodyStart name flags ++
      ((if collectedRules unicode name steps = [] then []
        else auditBlock (collectedRules unicode name steps)) ++ templateClose)
  stripped : ∀ faults audit raw',
    (ProfileStep.collect faults audit).Harmless name →
    collectedProfile unicode faults path (some raw) audit = some raw' →
    stripExistingAuditBlock raw' = stripExistingAuditBlock raw
  mode : inComplainMode raw = false ↔
    ∃ before faults spec after raw',
      steps = before ++ .finalize faults spec :: after ∧ faults.Works ∧
        runProfile unicode path before
          (some (buildAppArmorProfileSource name)) = some raw' ∧
        auditRules raw' ≠ none

variable {unicode : Unicode} {name : Text} {path : String} {s : ProfileState}

theorem ProfileState.flags_cases (s : ProfileState) :
    s.flags = complainFlags ∨ s.flags = enforceFlags := by
  unfold ProfileState.flags
  split
  · exact Or.inl rfl
  · exact Or.inr rfl

theorem valid_template : ({} : ProfileState).Valid :=
  ⟨fun _ h => absurd h List.not_mem_nil, fun h => absurd h (by decide)⟩

theorem render_template (name : Text) :
    ({} : ProfileState).render name = buildAppArmorProfileSource name :=
  rfl

theorem strip_collected (hname : IsScanName name) (hs : s.Valid)
    {faults : ProfileFaults} {audit raw' : Text}
    (hstep : (ProfileStep.collect faults audit).Harmless name)
    (hraw : collectedProfile unicode faults path (some (s.render name)) audit =
      some raw') :
    stripExistingAuditBlock raw' =
      stripExistingAuditBlock (s.render name) := by
  have htext : profileStep unicode path (some (s.render name)) (.collect faults audit) =
        some ((s.step unicode name (.collect faults audit)).render name) :=
    profileStep_render hname hs _
  have hvalid : (s.step unicode name (.collect faults audit)).Valid := hs.step hstep
  have hflags : (s.step unicode name (.collect faults audit)).flags =
      s.flags := by
    rw [ProfileState.step]
    split <;> rfl
  rw [profileStep, hraw, Option.some.injEq] at htext
  rw [htext, strip_render hname hvalid, strip_render hname hs,
    ProfileState.stub, ProfileState.stub, hflags]

/-- The life of the profile. -/
theorem profile_lifecycle (unicode : Unicode) (id : Text) (path : String) (steps : List ProfileStep)
    (hsteps : ∀ step ∈ steps,
      step.Harmless (securityScanAppArmorProfileName unicode id)) :
    ∃ raw,
      runProfile unicode path steps
          (some (buildAppArmorProfileSource
            (securityScanAppArmorProfileName unicode id))) = some raw ∧
        Lifecycle unicode path (securityScanAppArmorProfileName unicode id)
          steps raw := by
  generalize hid : securityScanAppArmorProfileName unicode id = name at hsteps ⊢
  have hname : IsScanName name := hid ▸ isScanName_profileName unicode id
  have hrun : ∀ steps, (∀ step ∈ steps, step.Harmless name) →
      runProfile unicode path steps (some (buildAppArmorProfileSource name)) =
          some ((({} : ProfileState).run unicode name steps).render name) ∧
        (({} : ProfileState).run unicode name steps).Valid := by
    intro steps hsteps
    exact runProfile_render hname valid_template hsteps
  obtain ⟨htext, hvalid⟩ := hrun steps hsteps
  have hrules : (({} : ProfileState).run unicode name steps).rules =
      collectedRules unicode name steps :=
    ProfileState.run_rules steps
  refine ⟨_, htext, ?_, ?_, ⟨_, ProfileState.flags_cases _, strip_render hname hvalid, ?_⟩, ?_, ?_⟩
  · exact occurrences_render hname hvalid
  · rw [auditRules_render hname hvalid, hrules]
  · rw [← hrules]
    rfl
  · intro faults audit raw' hstep hraw
    exact strip_collected hname hvalid hstep hraw
  · rw [ProfileState.render, inComplainMode_bodyStart hname, ProfileState.run_enforced_iff]
    constructor
    · rintro (hstart | ⟨before, faults, spec, after, rfl, hworks, hfound⟩)
      · exact absurd hstart (by decide)
      · obtain ⟨hbefore, hvalid'⟩ := hrun before
          (fun step hstep => hsteps step (List.mem_append_left _ hstep))
        refine ⟨before, faults, spec, after, _, rfl, hworks, hbefore, ?_⟩
        rw [auditRules_render hname hvalid', if_neg hfound]
        exact Option.some_ne_none _
    · rintro ⟨before, faults, spec, after, raw', rfl, hworks, hbefore, hblock⟩
      obtain ⟨hbefore', hvalid'⟩ := hrun before
        (fun step hstep => hsteps step (List.mem_append_left _ hstep))
      refine Or.inr ⟨before, faults, spec, after, rfl, hworks, fun hnil => ?_⟩
      rw [hbefore', Option.some.injEq] at hbefore
      rw [← hbefore, auditRules_render hname hvalid', if_pos hnil] at hblock
      exact hblock rfl

def webEvents : Text :=
  "apparmor=\"ALLOWED\" operation=\"open\" profile=\"runc_scan_web\" name=\"/a\"\n".toList ++
    "apparmor=\"ALLOWED\" operation=\"capable\" profile=\"runc_scan_web\" capname=\"kill\"".toList

theorem parse_webEvents :
    parseApparmorDenials webEvents
        (securityScanAppArmorProfileName Unicode.ascii "web".toList) =
      [{ operation := "open".toList, profile := "runc_scan_web".toList,
         name := "/a".toList },
       { operation := "capable".toList, profile := "runc_scan_web".toList,
         capname := "kill".toList }] := by
  repeat rw [String.toList_ofList]
  decide +kernel

theorem profile_lifecycle_web :
    let name := securityScanAppArmorProfileName Unicode.ascii "web".toList
    let steps := [ProfileStep.collect {} webEvents, .finalize {} {}]
    ∃ raw,
      runProfile Unicode.ascii "apparmor.profile" steps
          (some (buildAppArmorProfileSource name)) = some raw ∧
        Lifecycle Unicode.ascii "apparmor.profile" name steps raw := by
  refine profile_lifecycle Unicode.ascii "web".toList "apparmor.profile" _ ?_
  intro step hstep
  simp only [List.mem_cons, List.not_mem_nil, or_false] at hstep
  rcases hstep with rfl | rfl
  · intro r hr
    simp only [parse_webEvents, List.mem_cons, List.not_mem_nil, or_false] at hr
    rcases hr with rfl | rfl
    · exact ⟨⟨forall_mem_of_all (by decide), forall_mem_of_all (by decide),
          forall_mem_of_all (by decide), Or.inr rfl⟩,
        fun h => absurd h (by decide)⟩
    · exact ⟨⟨forall_mem_of_all (by decide), forall_mem_of_all (by decide),
          forall_mem_of_all (by decide), Or.inl rfl⟩,
        fun _ => by decide⟩
  · trivial

def webFlagsEvent : Text :=
  "apparmor=\"ALLOWED\" operation=\"capable\" profile=\"runc_scan_web\" capname=\"flags=(complain)\"".toList

def flagsRule : Text :=
  "  capability flags=(complain),".toList

theorem parse_webFlagsEvent :
    parseApparmorDenials webFlagsEvent
        (securityScanAppArmorProfileName Unicode.ascii "web".toList) =
      [{ operation := "capable".toList, profile := "runc_scan_web".toList,
         capname := "flags=(complain)".toList }] := by
  repeat rw [String.toList_ofList]
  decide +kernel

theorem collects_webFlagsEvent :
    Collects {} webFlagsEvent
      (securityScanAppArmorProfileName Unicode.ascii "web".toList) where
  events := by
    exact List.cons_ne_nil _ _
  readProfile := rfl
  readAgain := rfl
  writeTmp := rfl
  renameTmp := rfl

theorem rules_webFlagsEvent :
    buildAppArmorRulesFromDenials Unicode.ascii
        (parseApparmorDenials webFlagsEvent
          (securityScanAppArmorProfileName Unicode.ascii "web".toList)) =
      [flagsRule] := by
  repeat rw [String.toList_ofList]
  decide +kernel

theorem replace_flagsRule :
    apparmorFlagsClauseRegexp.replaceFrom flipClause 0 (some '\x7b')
        (templateBody ++ (auditBlock [flagsRule] ++ templateClose)) =
      templateBody ++
        (auditBlock ["  capability,".toList] ++ templateClose) := by
  repeat rw [String.toList_ofList]
  decide +kernel

theorem runProfile_flagsRule (hname : IsScanName name) {audit : Text}
    (hcollects : Collects {} audit name)
    (hrules : buildAppArmorRulesFromDenials unicode
      (parseApparmorDenials audit name) = [flagsRule]) :
    (runProfile unicode path [.collect {} audit, .finalize {} {}]
        (some (buildAppArmorProfileSource name))).bind auditRules =
      some ["  capability,".toList] := by
  have hcollected : profileStep unicode path
      (some (buildAppArmorProfileSource name)) (.collect {} audit) =
        some (({ rules := [flagsRule] } : ProfileState).render name) := by
    rw [← render_template, profileStep_render hname valid_template,
      ProfileState.step, if_pos hcollects, hrules]
  have hheader : profileName (({ rules := [flagsRule] } : ProfileState).render name) = some name :=
    profileName_bodyStart hname _ _
  have hflipped : (applyGeneratedAppArmor {} path {}
      (some (({ rules := [flagsRule] } : ProfileState).render name))).file =
        some (bodyStart name enforceFlags ++
          (auditBlock ["  capability,".toList] ++ templateClose)) := by
    rw [applyGeneratedAppArmor_file hheader, contains_render hname,
      if_pos ⟨⟨rfl, rfl, rfl⟩, decide_eq_true (List.cons_ne_nil _ _)⟩]
    simp only [ProfileState.render, ProfileState.block, ProfileState.flags,
      bodyStart, List.append_assoc, if_true, List.cons_ne_nil, if_false]
    rw [flip_complain hname, replace_flagsRule]
  have hrule : RuleLine "  capability,".toList :=
    ⟨rfl, fun b => part_of_check (by decide +kernel) _⟩
  rw [runProfile, List.foldl_cons, hcollected, List.foldl_cons,
    List.foldl_nil, profileStep, hflipped, Option.bind_some]
  exact auditRules_block (clear_bodyStart hname clearCheck_enforce)
    (List.forall_mem_singleton.mpr hrule) templateClose

theorem profile_rule_rewritten :
    let name := securityScanAppArmorProfileName Unicode.ascii "web".toList
    let steps := [ProfileStep.collect {} webFlagsEvent, .finalize {} {}]
    (∀ r ∈ parseApparmorDenials webFlagsEvent name, r.Printed) ∧
      collectedRules Unicode.ascii name steps =
        ["  capability flags=(complain),".toList] ∧
      (runProfile Unicode.ascii "apparmor.profile" steps
          (some (buildAppArmorProfileSource name))).bind auditRules =
        some ["  capability,".toList] := by
  refine ⟨?_, ?_, runProfile_flagsRule (isScanName_profileName _ _)
    collects_webFlagsEvent rules_webFlagsEvent⟩
  · intro r hr
    rw [parse_webFlagsEvent, List.mem_singleton] at hr
    rw [hr]
    exact ⟨forall_mem_of_all (by decide), forall_mem_of_all (by decide),
      forall_mem_of_all (by decide), Or.inl rfl⟩
  · rw [collectedRules, List.foldl_cons, nextRules,
      if_pos collects_webFlagsEvent, rules_webFlagsEvent]
    rfl

end Lifecycle

end Runc.Scanner
