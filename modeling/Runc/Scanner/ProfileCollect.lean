import Runc.Scanner.ProfileHeader

/-!
# Collecting rules into the profile

What the audit collector and finalize can make of the template, for every audit
text: the header and the text of the template stay in place, and the block of
rules comes behind them.
-/

namespace Runc.Scanner

open Lib

def bodyStart (name flags : Text) : Text :=
  profileHeader name flags ++ templateBody

def templateStart (name : Text) : Text :=
  bodyStart name complainFlags

theorem buildAppArmorProfileSource_eq (name : Text) :
    buildAppArmorProfileSource name = templateStart name ++ templateClose :=
  rfl

section Markers

variable {name : Text}

def markerStart : Text :=
  ['#', ' ', '-']

theorem markerStart_begin : markerStart <+: apparmorAuditMarkerBegin := by
  decide

theorem clearCheck_headerStart :
    clearCheck markerStart (preamble ++ ("profile".toList ++ [' '])) = true := by
  decide

theorem clearCheck_complain :
    clearCheck markerStart
      (complainFlags ++ ([' ', '\x7b'] ++ templateBody)) = true := by
  decide +kernel

theorem clearCheck_enforce :
    clearCheck markerStart
      (enforceFlags ++ ([' ', '\x7b'] ++ templateBody)) = true := by
  decide +kernel

theorem clear_bodyStart (hname : IsScanName name) {flags : Text} (hflags : clearCheck markerStart
      (flags ++ ([' ', '\x7b'] ++ templateBody)) = true) (b : Text) :
    Clear markerStart (bodyStart name flags) b := by
  have hhash : '#' ∉ name := by
    intro hmem
    rcases hname.chars _ hmem with h | h <;> exact absurd h (by decide)
  have hstart : ∀ b, Clear markerStart (preamble ++ ("profile".toList ++ [' '])) b :=
    clear_of_check clearCheck_headerStart
  have hrest : Clear markerStart (flags ++ ([' ', '\x7b'] ++ templateBody)) b :=
    clear_of_check hflags b
  have hname' : ∀ b, Clear markerStart name b := fun b => clear_of_not_mem hhash
  have hall := clear_append.mpr ⟨hstart (name ++ (flags ++ ([' ', '\x7b'] ++ templateBody)) ++ b),
      clear_append.mpr ⟨hname' _, hrest⟩⟩
  unfold bodyStart
  rw [profileHeader_split]
  unfold headerStart
  simpa only [List.append_assoc] using hall

theorem clear_templateStart (hname : IsScanName name) (b : Text) :
    Clear apparmorAuditMarkerBegin (templateStart name) b :=
  (clear_bodyStart hname clearCheck_complain b).of_initial markerStart_begin

theorem marker_ne_nil : apparmorAuditMarkerBegin ≠ [] := by
  decide

theorem clear_templateClose : Clear apparmorAuditMarkerBegin templateClose [] :=
  clear_of_check (by decide) []

theorem contains_template (hname : IsScanName name) :
    contains (buildAppArmorProfileSource name) apparmorAuditMarkerBegin =
      false := by
  exact contains_eq_false_of_clear marker_ne_nil
    (clear_append.mpr ⟨clear_templateStart hname _, clear_templateClose⟩)

end Markers

section Insert

variable {rules : List Text} {a tail out : Text}

theorem lt_lineStart {raw : Text} {k i : Nat} (hk : raw[k]? = some '\n') (hi : k < i) :
    k < lineStart raw i := by
  induction i with
  | zero => exact absurd hi (Nat.not_lt_zero k)
  | succ i ih =>
    rw [lineStart]
    split
    · exact hi
    · rename_i hbreak
      rcases Nat.lt_succ_iff_lt_or_eq.mp hi with hlt | rfl
      · exact ih hlt
      · exact absurd hk hbreak

theorem stripExistingAuditBlock_keeps (hlast : a.getLast? = some '\n')
    (hclear : Clear apparmorAuditMarkerBegin a tail) :
    ∃ tail', stripExistingAuditBlock (a ++ tail) = a ++ tail' := by
  have hpos : 0 < a.length := by
    rw [List.length_pos_iff]
    rintro rfl
    cases hlast
  have hbreak : (a ++ tail)[a.length - 1]? = some '\n' := by
    rw [List.getElem?_append_left (by omega), ← List.getLast?_eq_getElem?, hlast]
  unfold stripExistingAuditBlock
  rw [index_append_of_clear hclear]
  cases index apparmorAuditMarkerBegin tail with
  | none => exact ⟨tail, rfl⟩
  | some i =>
    dsimp only [Option.map_some]
    split
    · exact ⟨tail, rfl⟩
    · have hlt : a.length - 1 < lineStart (a ++ tail) (i + a.length) :=
        lt_lineStart hbreak (by omega)
      rw [List.take_append, List.take_of_length_le (by omega)]
      exact ⟨_, List.append_assoc _ _ _⟩

theorem stripExistingAuditBlock_of_clear (hclear : Clear apparmorAuditMarkerBegin a []) :
    stripExistingAuditBlock a = a := by
  unfold stripExistingAuditBlock
  rw [index_eq_none_of_clear marker_ne_nil hclear]

theorem le_closeFrom {x y : Text} {i : Nat} (hy : closeFrom y = none)
    (hi : closeFrom (x ++ y) = some i) : y.length ≤ i := by
  induction x with
  | nil =>
    rw [List.nil_append, hy] at hi
    cases hi
  | cons c x ih =>
    rw [List.cons_append, closeFrom] at hi
    split at hi
    · exact ih hi
    · split at hi
      · obtain rfl := Option.some.inj hi
        simp
      · cases hi

theorem insertAuditBlock_keeps (hlast : a.getLast? = some '\n')
    (hopen : findProfileBodyClose a = none) (hclear : Clear apparmorAuditMarkerBegin a tail)
    (hout : insertAuditBlock rules (a ++ tail) = some out) :
    ∃ x y, out = a ++ (x ++ (auditBlock rules ++ y)) := by
  obtain ⟨tail', hstrip⟩ := stripExistingAuditBlock_keeps hlast hclear
  unfold insertAuditBlock at hout
  rw [hstrip] at hout
  obtain ⟨i, hi, rfl⟩ := Option.map_eq_some_iff.mp hout
  have hle : a.length ≤ i := by
    unfold findProfileBodyClose at hi hopen
    rw [List.reverse_append] at hi
    simpa using le_closeFrom hopen hi
  refine ⟨tail'.take (i - a.length), (a ++ tail').drop i, ?_⟩
  rw [List.take_append, List.take_of_length_le hle]
  simp only [List.append_assoc]

theorem contains_auditBlock (a b : Text) (rules : List Text) :
    contains (a ++ (auditBlock rules ++ b)) apparmorAuditMarkerBegin = true := by
  have hmiddle : ∀ b, contains ((a ++ "  ".toList) ++ (apparmorAuditMarkerBegin ++ b))
        apparmorAuditMarkerBegin = true :=
    contains_middle _
  unfold auditBlock
  simpa only [List.append_assoc] using hmiddle _

theorem findProfileBodyClose_templateClose (a : Text) :
    findProfileBodyClose (a ++ templateClose) = some a.length := by
  have hclose : templateClose = ['\x7d', '\n'] := by decide
  rw [hclose, findProfileBodyClose, List.reverse_append]
  simp [closeFrom]

end Insert

section Collect

variable {unicode : Unicode} {name : Text} {faults : ProfileFaults}
  {path : String} {file : Option Text} {audit : Text}

theorem getLast?_bodyStart (name flags : Text) : (bodyStart name flags).getLast? = some '\n' := by
  have hbody : templateBody.getLast? = some '\n' := by
    unfold templateBody
    repeat rw [String.toList_ofList]
    rfl
  have hne : templateBody ≠ [] := by
    intro hnil
    rw [hnil] at hbody
    cases hbody
  rw [bodyStart, List.getLast?_append_of_ne_nil _ hne, hbody]

theorem findProfileBodyClose_templateStart (name : Text) :
    findProfileBodyClose (templateStart name) = none := by
  have hbody : templateBody.reverse =
      '\n' :: '.' :: (templateBody.reverse.drop 2) := by
    decide +kernel
  rw [findProfileBodyClose, templateStart, bodyStart, List.reverse_append, hbody]
  rfl

def MarkedProfile (name : Text) (file : Option Text) : Prop :=
  ∃ tail, file = some (templateStart name ++ tail) ∧
    contains (templateStart name ++ tail) apparmorAuditMarkerBegin = true

inductive ScanProfile (name : Text) : Option Text → Prop
  | stub : ScanProfile name (some (buildAppArmorProfileSource name))
  | rules {file : Option Text} (h : MarkedProfile name file) :
      ScanProfile name file

theorem ScanProfile.starts (h : ScanProfile name file) :
    ∃ tail, file = some (templateStart name ++ tail) := by
  cases h with
  | stub => exact ⟨templateClose, rfl⟩
  | rules h =>
    obtain ⟨tail, htail, -⟩ := h
    exact ⟨tail, htail⟩

theorem profileName_templateStart (hname : IsScanName name) (tail : Text) :
    profileName (templateStart name ++ tail) = some name := by
  rw [templateStart, bodyStart, List.append_assoc]
  exact profileName_complain hname _

theorem profileName_template (hname : IsScanName name) :
    profileName (buildAppArmorProfileSource name) = some name :=
  profileName_templateStart hname templateClose

structure Collects (faults : ProfileFaults) (audit name : Text) : Prop where
  events : parseApparmorDenials audit name ≠ []
  readProfile : faults.readProfile = none
  readAgain : faults.readAgain = none
  writeTmp : faults.writeTmp = none
  renameTmp : faults.renameTmp = none

theorem parseApparmorDenials_nil (name : Text) : parseApparmorDenials [] name = [] :=
  rfl

theorem readFile_ok {fault : Fault} {raw raw' : Text}
    (h : readFile fault path (some raw) = .ok raw') : fault = none ∧ raw = raw' := by
  cases fault with
  | some err => cases h
  | none => exact ⟨rfl, Except.ok.inj h⟩

theorem replaceFile_eq_ok_iff :
    replaceFile faults path = .ok () ↔
      faults.writeTmp = none ∧ faults.renameTmp = none := by
  unfold replaceFile
  cases faults.writeTmp <;> cases faults.renameTmp <;>
    simp [Fault.check, bind, Except.bind]

theorem appendAuditRulesToProfile_ok {rules : List Text} {raw : Text} {file' : Option Text}
    (hrules : rules ≠ [])
    (hok : appendAuditRulesToProfile faults path (some raw) rules = .ok file') :
    (faults.readAgain = none ∧ faults.writeTmp = none ∧
        faults.renameTmp = none) ∧
      file'.isSome = true ∧ insertAuditBlock rules raw = file' := by
  unfold appendAuditRulesToProfile at hok
  rw [if_neg hrules] at hok
  cases hread : readFile faults.readAgain path (some raw) with
  | error err =>
    rw [hread] at hok
    cases hok
  | ok raw' =>
    obtain ⟨hagain, rfl⟩ := readFile_ok hread
    rw [hread] at hok
    simp only [bind, Except.bind] at hok
    cases hins : insertAuditBlock rules raw with
    | none =>
      rw [hins] at hok
      cases hok
    | some out =>
      rw [hins] at hok
      cases hreplace : replaceFile faults path with
      | error err =>
        rw [hreplace] at hok
        cases hok
      | ok _ =>
        rw [hreplace] at hok
        obtain rfl := Except.ok.inj hok
        exact ⟨⟨hagain, replaceFile_eq_ok_iff.mp hreplace⟩, rfl, rfl⟩

theorem collect_ok {raw : Text} {file' : Option Text} (hraw : profileName raw = some name)
    (hok : collectAndAppendAppArmorRules unicode faults path (some raw) audit =
      .ok file') :
    file' = some raw ∨
      Collects faults audit name ∧ file'.isSome = true ∧
        insertAuditBlock (buildAppArmorRulesFromDenials unicode
          (parseApparmorDenials audit name)) raw = file' := by
  unfold collectAndAppendAppArmorRules at hok
  cases hread : readFile faults.readProfile path (some raw) with
  | error err =>
    rw [hread] at hok
    cases hok
  | ok raw' =>
    obtain ⟨hprofile, rfl⟩ := readFile_ok hread
    rw [hread] at hok
    simp only [bind, Except.bind, hraw, pure, Except.pure] at hok
    split at hok
    · exact Or.inl (Except.ok.inj hok).symm
    · split at hok
      · exact Or.inl (Except.ok.inj hok).symm
      · rename_i hevents
        have hrules : buildAppArmorRulesFromDenials unicode
            (parseApparmorDenials audit name) ≠ [] :=
          fun h => hevents (buildAppArmorRulesFromDenials_eq_nil.mp h)
        obtain ⟨⟨hagain, hwrite, hrename⟩, hsome, hins⟩ := appendAuditRulesToProfile_ok hrules hok
        exact Or.inr ⟨⟨hevents, hprofile, hagain, hwrite, hrename⟩, hsome, hins⟩

theorem collect_cases {file' : Option Text} (hname : IsScanName name) (h : ScanProfile name file)
    (hok : collectAndAppendAppArmorRules unicode faults path file audit =
      .ok file') : file' = file ∨ MarkedProfile name file' := by
  obtain ⟨tail, rfl⟩ := h.starts
  rcases collect_ok (profileName_templateStart hname tail) hok with
    rfl | ⟨-, hsome, hins⟩
  · exact Or.inl rfl
  · obtain ⟨out, rfl⟩ := Option.isSome_iff_exists.mp hsome
    obtain ⟨x, y, rfl⟩ := insertAuditBlock_keeps (getLast?_bodyStart name _)
      (findProfileBodyClose_templateStart name) (clear_templateStart hname tail)
      hins
    refine Or.inr ⟨_, rfl, ?_⟩
    rw [← List.append_assoc]
    exact contains_auditBlock _ _ _

theorem insertAuditBlock_template (hname : IsScanName name) (rules : List Text) :
    insertAuditBlock rules (buildAppArmorProfileSource name) =
      some (templateStart name ++ (auditBlock rules ++ templateClose)) := by
  have hstrip : stripExistingAuditBlock (buildAppArmorProfileSource name) =
      buildAppArmorProfileSource name := by
    exact stripExistingAuditBlock_of_clear
      (clear_append.mpr ⟨clear_templateStart hname _, clear_templateClose⟩)
  rw [insertAuditBlock, hstrip, buildAppArmorProfileSource_eq, findProfileBodyClose_templateClose]
  simp

theorem collect_of_collects {raw out : Text} (hraw : profileName raw = some name)
    (h : Collects faults audit name) (hins : insertAuditBlock (buildAppArmorRulesFromDenials unicode
      (parseApparmorDenials audit name)) raw = some out) :
    collectAndAppendAppArmorRules unicode faults path (some raw) audit =
      .ok (some out) := by
  have haudit : audit ≠ [] := by
    rintro rfl
    exact h.events (parseApparmorDenials_nil name)
  have hrules : buildAppArmorRulesFromDenials unicode (parseApparmorDenials audit name) ≠ [] :=
    fun hnil => h.events (buildAppArmorRulesFromDenials_eq_nil.mp hnil)
  simp only [collectAndAppendAppArmorRules, appendAuditRulesToProfile,
    replaceFile, readFile, h.readProfile, h.readAgain, h.writeTmp, h.renameTmp,
    hraw, if_neg haudit, if_neg h.events, if_neg hrules, hins, bind,
    Except.bind, pure, Except.pure, Fault.check]

end Collect

section Collected

variable {unicode : Unicode} {name : Text} {faults : ProfileFaults}
  {path : String} {file : Option Text} {audit : Text}

def collectedProfile (unicode : Unicode) (faults : ProfileFaults)
    (path : String) (file : Option Text) (audit : Text) : Option Text :=
  match collectAndAppendAppArmorRules unicode faults path file audit with
  | .ok file => file
  | .error _ => file

theorem collectedProfile_cases (hname : IsScanName name) (h : ScanProfile name file) :
    collectedProfile unicode faults path file audit = file ∨
      MarkedProfile name (collectedProfile unicode faults path file audit) := by
  unfold collectedProfile
  split
  · rename_i file' hok
    exact collect_cases hname h hok
  · exact Or.inl rfl

theorem collectedProfile_inv (hname : IsScanName name) (h : ScanProfile name file) :
    ScanProfile name (collectedProfile unicode faults path file audit) := by
  rcases collectedProfile_cases hname h with heq | hmarked
  · rw [heq]
    exact h
  · exact .rules hmarked

theorem collectedProfile_marked (hname : IsScanName name) (h : MarkedProfile name file) :
    MarkedProfile name (collectedProfile unicode faults path file audit) := by
  rcases collectedProfile_cases hname (.rules h) with heq | hmarked
  · rw [heq]
    exact h
  · exact hmarked

theorem collectedProfile_of_collects {raw out : Text} (hraw : profileName raw = some name)
    (h : Collects faults audit name) (hins : insertAuditBlock (buildAppArmorRulesFromDenials unicode
      (parseApparmorDenials audit name)) raw = some out) :
    collectedProfile unicode faults path (some raw) audit = some out := by
  rw [collectedProfile, collect_of_collects hraw h hins]

theorem collectedProfile_of_not_collects {raw : Text} (hraw : profileName raw = some name)
    (h : ¬ Collects faults audit name) :
    collectedProfile unicode faults path (some raw) audit = some raw := by
  unfold collectedProfile
  split
  · rename_i file' hok
    rcases collect_ok hraw hok with heq | ⟨hcollects, -⟩
    · exact heq
    · exact absurd hcollects h
  · rfl

theorem collectedProfile_template (hname : IsScanName name) (h : Collects faults audit name) :
    collectedProfile unicode faults path
        (some (buildAppArmorProfileSource name)) audit =
      some (templateStart name ++
        (auditBlock (buildAppArmorRulesFromDenials unicode
          (parseApparmorDenials audit name)) ++ templateClose)) :=
  collectedProfile_of_collects (profileName_template hname) h (insertAuditBlock_template hname _)

end Collected

section Apply

variable {name : Text} {faults : ProfileFaults} {path : String} {spec : Spec}
  {file : Option Text}

def ProfileFaults.Works (faults : ProfileFaults) : Prop :=
  faults.readProfile = none ∧ faults.writeTmp = none ∧ faults.renameTmp = none

instance (faults : ProfileFaults) : Decidable faults.Works :=
  inferInstanceAs (Decidable (_ ∧ _ ∧ _))

theorem applyGeneratedAppArmor_file {raw : Text} (hraw : profileName raw = some name) :
    (applyGeneratedAppArmor faults path spec (some raw)).file =
      if faults.Works ∧ contains raw apparmorAuditMarkerBegin = true then
        some (flipApparmorComplainToEnforce raw)
      else some raw := by
  unfold applyGeneratedAppArmor
  cases hread : faults.readProfile with
  | some err => rw [if_neg (fun h => by simp [ProfileFaults.Works, hread] at h)]
  | none =>
    simp only [hraw]
    cases contains raw apparmorAuditMarkerBegin with
    | false => rw [if_pos rfl, if_neg (fun h => Bool.false_ne_true h.2)]
    | true =>
      rw [if_neg (by decide)]
      split
      · rename_i hsame
        rw [hsame, ite_self]
      · cases hreplace : replaceFile faults path with
        | ok _ => rw [if_pos ⟨⟨hread, replaceFile_eq_ok_iff.mp hreplace⟩, rfl⟩]
        | error err =>
          refine (if_neg (fun h => ?_)).symm
          rw [replaceFile_eq_ok_iff.mpr h.1.2] at hreplace
          cases hreplace

inductive FinalProfile (name : Text) : Option Text → Prop
  | stub : FinalProfile name (some (buildAppArmorProfileSource name))
  | enforce (tail : Text) :
      FinalProfile name (some (profileHeader name enforceFlags ++ tail))

theorem applyGeneratedAppArmor_stub (hname : IsScanName name) (hread : faults.readProfile = none) :
    applyGeneratedAppArmor faults path spec
        (some (buildAppArmorProfileSource name)) =
      ⟨spec.apparmorProfile ≠ name, none, spec.setApparmorProfile name,
        some (buildAppArmorProfileSource name)⟩ := by
  simp only [applyGeneratedAppArmor, hread, profileName_template hname, contains_template hname,
    if_true]

def flippedTemplate (name tail : Text) : Text :=
  profileHeader name enforceFlags ++
    apparmorFlagsClauseRegexp.replaceFrom flipClause 0 (some '\x7b')
      (templateBody ++ tail)

section

variable (hname : IsScanName name)
include hname

theorem flip_templateStart (tail : Text) :
    flipApparmorComplainToEnforce (templateStart name ++ tail) =
      flippedTemplate name tail := by
  rw [templateStart, bodyStart, List.append_assoc, flip_complain hname, flippedTemplate]

theorem inComplainMode_templateStart (tail : Text) :
    inComplainMode (templateStart name ++ tail) = true := by
  rw [templateStart, bodyStart, List.append_assoc]
  exact inComplainMode_complain hname _

theorem inComplainMode_template : inComplainMode (buildAppArmorProfileSource name) = true :=
  inComplainMode_templateStart hname templateClose

theorem inComplainMode_flippedTemplate (tail : Text) :
    inComplainMode (flippedTemplate name tail) = false :=
  inComplainMode_enforce hname _

theorem applyGeneratedAppArmor_rules {tail : Text}
    (hmarked : contains (templateStart name ++ tail) apparmorAuditMarkerBegin =
      true) (hread : faults.readProfile = none) :
    applyGeneratedAppArmor faults path spec (some (templateStart name ++ tail)) =
      match replaceFile faults path with
      | .error err =>
          ⟨spec.apparmorProfile ≠ name, some err, spec.setApparmorProfile name,
            some (templateStart name ++ tail)⟩
      | .ok () =>
          ⟨spec.apparmorProfile ≠ name, none, spec.setApparmorProfile name,
            some (flippedTemplate name tail)⟩ := by
  have hdiffer : flippedTemplate name tail ≠ templateStart name ++ tail := by
    intro heq
    have hmode := inComplainMode_flippedTemplate hname tail
    rw [heq, inComplainMode_templateStart hname] at hmode
    cases hmode
  cases hreplace : replaceFile faults path <;>
    simp only [applyGeneratedAppArmor, hread,
      profileName_templateStart hname, hmarked, Bool.true_eq_false, if_false,
      flip_templateStart hname, if_neg hdiffer, hreplace]

theorem applyGeneratedAppArmor_ok (h : ScanProfile name file)
    (hok : (applyGeneratedAppArmor faults path spec file).err = none) :
    (applyGeneratedAppArmor faults path spec file).spec =
        spec.setApparmorProfile name ∧
      FinalProfile name (applyGeneratedAppArmor faults path spec file).file := by
  cases hread : faults.readProfile with
  | some err => simp [applyGeneratedAppArmor, hread] at hok
  | none =>
    cases h with
    | stub =>
      rw [applyGeneratedAppArmor_stub hname hread]
      exact ⟨rfl, .stub⟩
    | rules h =>
      obtain ⟨tail, rfl, hmarked⟩ := h
      rw [applyGeneratedAppArmor_rules hname hmarked hread] at hok ⊢
      cases hreplace : replaceFile faults path with
      | error err =>
        rw [hreplace] at hok
        cases hok
      | ok _ => exact ⟨rfl, .enforce _⟩

theorem applyGeneratedAppArmor_noFaults (h : ScanProfile name file) :
    (applyGeneratedAppArmor {} path spec file).err = none := by
  cases h with
  | stub => rw [applyGeneratedAppArmor_stub hname rfl]
  | rules h =>
    obtain ⟨tail, rfl, hmarked⟩ := h
    rw [applyGeneratedAppArmor_rules hname hmarked rfl]
    rfl

theorem FinalProfile.exists_text (h : FinalProfile name file) :
    ∃ raw, file = some raw ∧ profileName raw = some name := by
  cases h with
  | stub => exact ⟨_, rfl, profileName_template hname⟩
  | enforce tail => exact ⟨_, rfl, profileName_enforce hname tail⟩

end

end Apply

end Runc.Scanner
