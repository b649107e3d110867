import Runc.Scanner.AuditRules
import Runc.Scanner.Bundle

/-!
# The generated AppArmor profile

How generated/apparmor.profile is written, extended by the audit collector,
taken out of complain mode and read back.
-/

namespace Runc.Scanner

open Lib

/-- `prefix` in `securityScanAppArmorProfileName`. -/
def profileNamePrefix : Text :=
  "runc_scan_".toList

def profileNameRune (unicode : Unicode) (r : Nat × Text) : Text :=
  if unicode.isLetter r.1 || unicode.isDigit r.1 then r.2
  else if r.1 = '-'.toNat ∨ r.1 = '_'.toNat then ['_']
  else []

def securityScanAppArmorProfileName (unicode : Unicode) (containerID : Text) : Text :=
  let name :=
    profileNamePrefix ++ (runes containerID).flatMap (profileNameRune unicode)
  let name :=
    if name.length ≤ profileNamePrefix.length then
      profileNamePrefix ++ "x".toList
    else name
  if 200 < name.length then name.take 200 else name

/-- `validateID` accepts the id: the characters allowed, and no `.` or `..`. -/
def validateID (id : Text) : Bool :=
  id ≠ [] &&
    id.all (fun c =>
      isLower c || isUpper c || isDigit c || c = '_' || c = '+' || c = '-' ||
        c = '.') &&
    id ≠ ".".toList && id ≠ "..".toList

def apparmorAuditMarkerBegin : Text :=
  "# --- BEGIN runc-scan audit-collected rules ---".toList

def apparmorAuditMarkerEnd : Text :=
  "# --- END runc-scan audit-collected rules ---".toList

def profileHeader (name flags : Text) : Text :=
  "#include <tunables/global>\n\nprofile ".toList ++ name ++ flags ++
    " \x7b".toList

def complainFlags : Text :=
  " flags=(complain, attach_disconnected, mediate_deleted)".toList

def enforceFlags : Text :=
  " flags=(attach_disconnected, mediate_deleted)".toList

def templateBody : Text :=
  "\n".toList ++
    ("  #include <abstractions/base>\n".toList ++
    ("  #include <abstractions/nameservice>\n".toList ++
    ("  #include <abstractions/ssl_certs>\n".toList ++
    ("  # Auto-generated by runc --security-scan (complain mode in profile flags).\n".toList ++
    ("  # The poststop audit collector appends file/capability rules between\n".toList ++
    ("  # the BEGIN/END markers; finalize flips the profile to enforce once\n".toList ++
    "  # the markers are present.\n".toList))))))

def templateClose : Text :=
  "\x7d\n".toList

def buildAppArmorProfileSource (profileName : Text) : Text :=
  profileHeader profileName complainFlags ++ templateBody ++ templateClose

/-- `stripExistingAuditBlock`: back to the start of the line. -/
def lineStart (raw : Text) : Nat → Nat
  | 0 => 0
  | i + 1 => if raw[i]? = some '\n' then i + 1 else lineStart raw i

def stripExistingAuditBlock (raw : Text) : Text :=
  match index apparmorAuditMarkerBegin raw with
  | none => raw
  | some bIdx =>
      match index apparmorAuditMarkerEnd (raw.drop bIdx) with
      | none => raw
      | some offset =>
          let eIdx := offset + (bIdx + apparmorAuditMarkerEnd.length)
          let lineEnd := if raw[eIdx]? = some '\n' then eIdx + 1 else eIdx
          raw.take (lineStart raw bIdx) ++ raw.drop lineEnd

/-- `findProfileBodyClose` on the bytes from the last one backwards. -/
def closeFrom : Text → Option Nat
  | [] => none
  | c :: before =>
      if c = ' ' ∨ c = '\t' ∨ c = '\n' ∨ c = '\r' then closeFrom before
      else if c = '\x7d' then some before.length
      else none

def findProfileBodyClose (raw : Text) : Option Nat :=
  closeFrom raw.reverse

def auditBlock (rules : List Text) : Text :=
  "  ".toList ++ apparmorAuditMarkerBegin ++ "\n".toList ++
    rules.flatMap (· ++ "\n".toList) ++
    ("  ".toList ++ apparmorAuditMarkerEnd ++ "\n".toList)

def insertAuditBlock (rules : List Text) (raw : Text) : Option Text :=
  let stripped := stripExistingAuditBlock raw
  (findProfileBodyClose stripped).map (fun closeIdx =>
    stripped.take closeIdx ++ auditBlock rules ++ stripped.drop closeIdx)

structure ProfileFaults where
  readProfile : Fault := none
  readAgain : Fault := none
  writeTmp : Fault := none
  renameTmp : Fault := none

def readFile (fault : Fault) (path : String) (file : Option Text) : Except String Text :=
  match fault, file with
  | some err, _ => .error ("read " ++ path ++ ": " ++ err)
  | none, none =>
      .error ("read " ++ path ++ ": open " ++ path ++
        ": no such file or directory")
  | none, some raw => .ok raw

def replaceFile (faults : ProfileFaults) (path : String) :
    Except String Unit := do
  faults.writeTmp.check ("write " ++ path ++ ".runc-scan.tmp: ")
  faults.renameTmp.check ("rename " ++ path ++ ": ")

def appendAuditRulesToProfile (faults : ProfileFaults) (path : String)
    (file : Option Text) (rules : List Text) :
    Except String (Option Text) := do
  if rules = [] then
    return file
  let raw ← readFile faults.readAgain path file
  match insertAuditBlock rules raw with
  | none => throw ("profile " ++ path ++ " has no closing brace")
  | some out =>
      replaceFile faults path
      return some out

/-- `flags=\(([^)]*)\)` with its leading blanks and the number of its group. -/
def flagsClause (n : Nat) : Regex :=
  .seq (.plus isSpace)
    (.seq (.text "flags=(".toList)
      (.seq (.group n (.star (fun c => c ≠ ')'))) (.text [')'])))

/-- `(?m)^profile\s+(\S+)(\s+flags=\(([^)]*)\))?\s*\{`. -/
def apparmorProfileLineRegexp : Regex :=
  .seq .lineStart
    (.seq (.text "profile".toList)
      (.seq (.plus isSpace)
        (.seq (.group 1 (.plus (fun c => !isSpace c)))
          (.seq (.opt (.group 2 (flagsClause 3)))
            (.seq (.star isSpace) (.text ['\x7b']))))))

/-- `\s+flags=\(([^)]*)\)`. -/
def apparmorFlagsClauseRegexp : Regex :=
  flagsClause 1

def profileName (raw : Text) : Option Text :=
  (apparmorProfileLineRegexp.find raw).map (·.group 1)

def keptFlags (clause : Text) : List Text :=
  ((clause.splitOn ',').map trimSpace).filter
    (fun t => t ≠ [] && t ≠ "complain".toList)

def flipClause (clause : Text) : Text :=
  match apparmorFlagsClauseRegexp.find clause with
  | none => clause
  | some sub =>
      let kept := keptFlags (sub.group 1)
      if kept = [] then []
      else
        " flags=(".toList ++ ", ".toList.intercalate kept ++ ")".toList

def flipApparmorComplainToEnforce (raw : Text) : Text :=
  apparmorFlagsClauseRegexp.replaceAll flipClause raw

section Audit

variable (unicode : Unicode)

/-- The profile afterwards. `audit` is what `readKernelAudit` returned, empty when it failed. -/
def collectAndAppendAppArmorRules (faults : ProfileFaults) (path : String)
    (file : Option Text) (audit : Text) : Except String (Option Text) := do
  let raw ← readFile faults.readProfile path file
  match profileName raw with
  | none => throw ("profile " ++ path ++ " has no header")
  | some name =>
      if audit = [] then
        return file
      let records := parseApparmorDenials audit name
      if records = [] then
        return file
      appendAuditRulesToProfile faults path file
        (buildAppArmorRulesFromDenials unicode records)

end Audit

def Spec.apparmorProfile (spec : Spec) : Text :=
  (spec.process.map (·.apparmorProfile)).getD []

/-- `spec.Process.ApparmorProfile = name`. -/
def Spec.setApparmorProfile (spec : Spec) (name : Text) : Spec :=
  { spec with
    process := some { spec.process.getD {} with apparmorProfile := name } }

structure AppArmorOutcome where
  changed : Bool
  err : Fault := none
  spec : Spec
  file : Option Text

def applyGeneratedAppArmor (faults : ProfileFaults) (path : String)
    (spec : Spec) (file : Option Text) : AppArmorOutcome :=
  match faults.readProfile, file with
  | some err, _ =>
      ⟨false, some ("read " ++ path ++ ": " ++ err), spec, file⟩
  | none, none => ⟨false, none, spec, none⟩
  | none, some raw =>
      match profileName raw with
      | none =>
          ⟨false, some ("apparmor profile " ++ path ++
            " has no recognisable header"), spec, file⟩
      | some name =>
          let changed := spec.apparmorProfile ≠ name
          let spec := spec.setApparmorProfile name
          if contains raw apparmorAuditMarkerBegin = false then
            ⟨changed, none, spec, file⟩
          else
            let flipped := flipApparmorComplainToEnforce raw
            if flipped = raw then ⟨changed, none, spec, file⟩
            else
              match replaceFile faults path with
              | .error err => ⟨changed, some err, spec, file⟩
              | .ok () => ⟨changed, none, spec, some flipped⟩

/-- The path and the name, when the profile is loaded. -/
def scanProfileLoadDecision (spec : Spec) (dir : String) (file : Option Text) :
    Option (String × Text) :=
  let specName := trimSpace spec.apparmorProfile
  if specName = [] ∨ ¬ profileNamePrefix.isPrefixOf specName then none
  else
    match file with
    | none => none
    | some raw =>
        match profileName raw with
        | none => none
        | some fileName =>
            if fileName ≠ specName then none
            else some (genPath dir "apparmor.profile", fileName)

section NameFacts

variable {unicode : Unicode}

structure IsScanName (name : Text) : Prop where
  begins : profileNamePrefix <+: name
  chars : ∀ c ∈ name, isWord c = true ∨ ¬ c.toNat < 0x80

theorem isSpace_ascii {c : Char} (hc : isSpace c = true) : c.toNat < 0x80 := by
  simp only [isSpace, Bool.or_eq_true, decide_eq_true_eq] at hc
  rcases hc with (((rfl | rfl) | rfl) | rfl) | rfl <;> decide

theorem profileNameRune_cases {id : Text} {r : Nat × Text} {c : Char} (hr : r ∈ runes id)
    (hc : c ∈ profileNameRune unicode r) : isWord c = true ∨ ¬ c.toNat < 0x80 := by
  obtain ⟨code, bytes⟩ := r
  unfold profileNameRune at hc
  split at hc
  · rename_i hclass
    rcases runes_cases hr with ⟨x, -, hx, rfl, rfl⟩ | ⟨hhigh, -⟩
    · rw [List.mem_singleton.mp hc]
      rw [unicode.isLetter_ascii x hx, unicode.isDigit_ascii x hx] at hclass
      left
      simp only [isWord, Bool.or_eq_true] at hclass ⊢
      tauto
    · exact Or.inr (hhigh c hc)
  · split at hc
    · rw [List.mem_singleton.mp hc]
      exact Or.inl rfl
    · exact absurd hc List.not_mem_nil

theorem mem_profileNameRune {id : Text} {r : Nat × Text} {c : Char} (hr : r ∈ runes id)
    (hc : c ∈ profileNameRune unicode r) : c ∈ id ∨ c = '_' := by
  obtain ⟨code, bytes⟩ := r
  unfold profileNameRune at hc
  split at hc
  · rcases runes_cases hr with ⟨x, hx, -, -, rfl⟩ | ⟨-, hmem⟩
    · rw [List.mem_singleton.mp hc]
      exact Or.inl hx
    · exact Or.inl (hmem c hc)
  · split at hc
    · exact Or.inr (List.mem_singleton.mp hc)
    · exact absurd hc List.not_mem_nil

theorem IsScanName.not_space {name : Text} (hname : IsScanName name) :
    ∀ c ∈ name, isSpace c = false := by
  intro c hc
  rcases hname.chars c hc with hword | hhigh
  · exact isSpace_of_isWord hword
  · by_contra hspace
    exact hhigh (isSpace_ascii (by simpa using hspace))

def uncutProfileName (unicode : Unicode) (id : Text) : Text :=
  let name := profileNamePrefix ++ (runes id).flatMap (profileNameRune unicode)
  if name.length ≤ profileNamePrefix.length then
    profileNamePrefix ++ "x".toList
  else name

theorem securityScanAppArmorProfileName_eq_take (id : Text) :
    securityScanAppArmorProfileName unicode id =
      (uncutProfileName unicode id).take 200 := by
  unfold securityScanAppArmorProfileName
  dsimp only
  rw [← uncutProfileName]
  split
  · rfl
  · rename_i hshort
    rw [List.take_of_length_le (not_lt.mp hshort)]

theorem mem_uncutProfileName {id : Text} {c : Char} (hc : c ∈ uncutProfileName unicode id) :
    c ∈ profileNamePrefix ∨ c = 'x' ∨
      ∃ r ∈ runes id, c ∈ profileNameRune unicode r := by
  unfold uncutProfileName at hc
  dsimp only at hc
  split at hc
  · rcases List.mem_append.mp hc with hc | hc
    · exact Or.inl hc
    · exact Or.inr (Or.inl (List.mem_singleton.mp hc))
  · rcases List.mem_append.mp hc with hc | hc
    · exact Or.inl hc
    · exact Or.inr (Or.inr (List.mem_flatMap.mp hc))

theorem uncutProfileName_begins (id : Text) :
    profileNamePrefix <+: uncutProfileName unicode id := by
  unfold uncutProfileName
  dsimp only
  split <;> exact List.prefix_append _ _

theorem isScanName_profileName (unicode : Unicode) (id : Text) :
    IsScanName (securityScanAppArmorProfileName unicode id) := by
  rw [securityScanAppArmorProfileName_eq_take]
  constructor
  · rw [List.prefix_take_iff]
    exact ⟨uncutProfileName_begins id, by decide⟩
  · intro c hc
    have hfixed : ∀ c ∈ profileNamePrefix, isWord c = true := forall_mem_of_all (by decide)
    rcases mem_uncutProfileName (List.mem_of_mem_take hc) with
      hc | rfl | ⟨r, hr, hc⟩
    · exact Or.inl (hfixed c hc)
    · exact Or.inl rfl
    · exact profileNameRune_cases hr hc

end NameFacts

section Collisions

variable {unicode : Unicode}

def nameKey (id : Text) : Text :=
  let key := (id.filter (fun c => c ≠ '.' ∧ c ≠ '+')).map
    (fun c => if c = '-' then '_' else c)
  if key = [] then "x".toList else key.take 190

def isIDByte (c : Char) : Bool :=
  isLower c || isUpper c || isDigit c || c = '_' || c = '+' || c = '-' || c = '.'

theorem validateID_bytes {id : Text} (hid : validateID id = true) :
    ∀ c ∈ id, isIDByte c = true := by
  simp only [validateID, Bool.and_eq_true, List.all_eq_true] at hid
  exact hid.1.1.2

theorem profileNameRune_byte (unicode : Unicode) {c : Char} (hc : isIDByte c = true) :
    c.toNat < 0x80 ∧
      profileNameRune unicode (c.toNat, [c]) =
        if c ≠ '.' ∧ c ≠ '+' then [if c = '-' then '_' else c] else [] := by
  by_cases hclass : (isLower c || isUpper c || isDigit c) = true
  · have hz : c ≤ 'z' := by
      simp only [isLower, isUpper, isDigit, Bool.or_eq_true, Bool.and_eq_true,
        decide_eq_true_eq] at hclass
      rcases hclass with (h | h) | h
      · exact h.2
      · exact h.2.trans (by decide)
      · exact h.2.trans (by decide)
    have hascii : c.toNat < 0x80 := Nat.lt_of_le_of_lt (UInt32.le_iff_toNat_le.mp hz) (by decide)
    have hother : ∀ d ∈ ['.', '+', '-'], c ≠ d := by
      rintro d hd rfl
      simp only [List.mem_cons, List.not_mem_nil, or_false] at hd
      rcases hd with rfl | rfl | rfl <;> exact absurd hclass (by decide)
    refine ⟨hascii, ?_⟩
    rw [profileNameRune, unicode.isLetter_ascii c hascii,
      unicode.isDigit_ascii c hascii, if_pos hclass,
      if_pos ⟨hother '.' (by simp), hother '+' (by simp)⟩,
      if_neg (hother '-' (by simp))]
  · have hsign : c = '_' ∨ c = '+' ∨ c = '-' ∨ c = '.' := by
      simp only [isIDByte, Bool.or_eq_true, decide_eq_true_eq] at hc hclass
      tauto
    have hsigns : ∀ d : Char, d.toNat < 0x80 → profileNameRune unicode (d.toNat, [d]) =
          if (isLower d || isUpper d || isDigit d) = true then [d]
          else if d.toNat = '-'.toNat ∨ d.toNat = '_'.toNat then ['_'] else [] := by
      intro d hd
      rw [profileNameRune, unicode.isLetter_ascii d hd, unicode.isDigit_ascii d hd]
    rcases hsign with rfl | rfl | rfl | rfl <;>
      exact ⟨by decide, hsigns _ (by decide)⟩

theorem flatMap_profileNameRune {id : Text} (hid : ∀ c ∈ id, isIDByte c = true) :
    (runes id).flatMap (profileNameRune unicode) =
      (id.filter (fun c => c ≠ '.' ∧ c ≠ '+')).map
        (fun c => if c = '-' then '_' else c) := by
  induction id with
  | nil => rfl
  | cons c id ih =>
    obtain ⟨hc, hrest⟩ := List.forall_mem_cons.mp hid
    obtain ⟨hascii, hrune⟩ := profileNameRune_byte unicode hc
    rw [runes_cons_ascii hascii, List.flatMap_cons, hrune, ih hrest, List.filter_cons]
    by_cases hkept : c ≠ '.' ∧ c ≠ '+'
    · rw [if_pos hkept, if_pos (decide_eq_true hkept)]
      rfl
    · rw [if_neg hkept, if_neg (fun h => hkept (of_decide_eq_true h))]
      rfl

theorem securityScanAppArmorProfileName_eq_key {id : Text} (hid : validateID id = true) :
    securityScanAppArmorProfileName unicode id =
      profileNamePrefix ++ nameKey id := by
  rw [securityScanAppArmorProfileName_eq_take, uncutProfileName, nameKey,
    flatMap_profileNameRune (validateID_bytes hid)]
  generalize (id.filter (fun c => c ≠ '.' ∧ c ≠ '+')).map
    (fun c => if c = '-' then '_' else c) = key
  have hlength : profileNamePrefix.length = 10 := by decide
  by_cases hkey : key = []
  · rw [hkey]
    decide
  · have hpos := List.length_pos_iff.mpr hkey
    rw [if_neg (by rw [List.length_append]; omega), if_neg hkey,
      List.take_append, hlength, List.take_of_length_le (by omega)]

end Collisions

end Runc.Scanner
