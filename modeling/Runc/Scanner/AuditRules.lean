import Runc.Lib.Regex
import Runc.Lib.Utf8

/-!
# AppArmor rules from audit text

The events of a profile are read out of the kernel log and each is turned into a
line of the profile.
-/

namespace Runc.Scanner

open Lib

/-- `apparmor="?(DENIED|ALLOWED)"?`. -/
def apparmorAuditLineRegexp : Regex :=
  .seq (.text "apparmor=".toList)
    (.seq (.opt (.text ['"']))
      (.seq (.group 1 (.alt (.text "DENIED".toList) (.text "ALLOWED".toList)))
        (.opt (.text ['"']))))

/-- `(\w+)=("([^"]*)"|(\S+))`. -/
def apparmorKeyValueRegexp : Regex :=
  .seq (.group 1 (.plus isWord))
    (.seq (.text ['='])
      (.group 2
        (.alt
          (.seq (.text ['"'])
            (.seq (.group 3 (.star (fun c => c ≠ '"'))) (.text ['"'])))
          (.group 4 (.plus (fun c => !isSpace c))))))

@[ext]
structure AppArmorDenialRecord where
  operation : Text := []
  profile : Text := []
  name : Text := []
  target : Text := []
  requestedMask : Text := []
  deniedMask : Text := []
  capname : Text := []
deriving DecidableEq, Repr

def AppArmorDenialRecord.set (rec : AppArmorDenialRecord) (key val : Text) :
    AppArmorDenialRecord :=
  if key = "operation".toList then { rec with operation := val }
  else if key = "profile".toList then { rec with profile := val }
  else if key = "name".toList then { rec with name := val }
  else if key = "target".toList then { rec with target := val }
  else if key = "requested_mask".toList then { rec with requestedMask := val }
  else if key = "denied_mask".toList then { rec with deniedMask := val }
  else if key = "capname".toList then { rec with capname := val }
  else rec

def parseDenialLine (line : Text) : AppArmorDenialRecord :=
  (apparmorKeyValueRegexp.findAll line).foldl
    (fun rec m =>
      let val := if m.group 3 = [] then m.group 4 else m.group 3
      rec.set (m.group 1) val)
    {}

def maxLine : Nat :=
  1024 * 1024

def parseApparmorDenials (audit profileName : Text) : List AppArmorDenialRecord :=
  (((scanLines maxLine audit).filter
      (fun line => (apparmorAuditLineRegexp.find line).isSome)).map
    parseDenialLine).filter (fun rec => rec.profile = profileName)

def operationMask (operation : Text) : Text :=
  if operation = "open".toList then "r".toList
  else if operation ∈
      ["mknod".toList, "create".toList, "unlink".toList, "rmdir".toList,
        "rename_src".toList, "rename_dest".toList, "truncate".toList] then
    "w".toList
  else if operation = "link".toList then "l".toList
  else if operation = "exec".toList then "ix".toList
  else []

def modeLetters : List (Text × Text) :=
  [("r".toList, "r".toList), ("wacd".toList, "w".toList),
    ("l".toList, "l".toList), ("k".toList, "k".toList),
    ("m".toList, "m".toList), ("x".toList, "ix".toList)]

def canonicalAppArmorFileMode (requested denied operation : Text) : Text :=
  let mask :=
    if requested ≠ [] then requested
    else if denied ≠ [] then denied
    else operationMask operation
  modeLetters.flatMap (fun letter =>
    if mask.any (· ∈ letter.1) then letter.2 else [])

section Rules

variable (unicode : Unicode)

def quoteAppArmorPath (p : Text) : Text :=
  if p.any (· ∈ " \t\"\\".toList) then quote unicode p else p

def ruleOf (r : AppArmorDenialRecord) : Text :=
  if r.operation = "capable".toList ∧ r.capname ≠ [] then
    "  capability ".toList ++ r.capname ++ ",".toList
  else if r.name ≠ [] then
    let mode :=
      canonicalAppArmorFileMode r.requestedMask r.deniedMask r.operation
    if mode = [] then
      "  # unhandled: operation=".toList ++ r.operation ++
        " name=".toList ++ r.name
    else
      "  ".toList ++ quoteAppArmorPath unicode r.name ++ " ".toList ++
        mode ++ ",".toList
  else "  # unhandled: operation=".toList ++ r.operation

def AppArmorDenialRecord.GivesPath (r : AppArmorDenialRecord) : Prop :=
  ¬ (r.operation = "capable".toList ∧ r.capname ≠ []) ∧ r.name ≠ [] ∧
    canonicalAppArmorFileMode r.requestedMask r.deniedMask r.operation ≠ []

def addRule (rules : List Text) (rule : Text) : List Text :=
  if rule ∈ rules then rules else rules ++ [rule]

def buildAppArmorRulesFromDenials (records : List AppArmorDenialRecord) : List Text :=
  sortStrings ((records.map (ruleOf unicode)).foldl addRule [])

variable {unicode : Unicode}

instance (r : AppArmorDenialRecord) : Decidable r.GivesPath :=
  inferInstanceAs (Decidable (_ ∧ _))

theorem ruleOf_of_givesPath {r : AppArmorDenialRecord} (h : r.GivesPath) :
    ruleOf unicode r =
      "  ".toList ++ (quoteAppArmorPath unicode r.name ++ (" ".toList ++
        (canonicalAppArmorFileMode r.requestedMask r.deniedMask r.operation ++
          ",".toList))) := by
  rw [ruleOf, if_neg h.1, if_pos h.2.1]
  simp only [if_neg h.2.2, List.append_assoc]

variable {rule : Text} {rules : List Text}

theorem mem_addRule {x : Text} : x ∈ addRule rules rule ↔ x ∈ rules ∨ x = rule := by
  unfold addRule
  split
  · rename_i hmem
    constructor
    · exact Or.inl
    · rintro (hx | rfl)
      · exact hx
      · exact hmem
  · rw [List.mem_append, List.mem_singleton]

theorem mem_foldl_addRule {new : List Text} {x : Text} :
    x ∈ new.foldl addRule rules ↔ x ∈ rules ∨ x ∈ new := by
  induction new generalizing rules with
  | nil => simp
  | cons rule new ih => rw [List.foldl_cons, ih, mem_addRule, List.mem_cons, or_assoc]

variable {records : List AppArmorDenialRecord}

theorem mem_buildAppArmorRulesFromDenials :
    rule ∈ buildAppArmorRulesFromDenials unicode records ↔
      ∃ r ∈ records, ruleOf unicode r = rule := by
  rw [buildAppArmorRulesFromDenials, mem_sortStrings, mem_foldl_addRule]
  simp

theorem buildAppArmorRulesFromDenials_eq_nil :
    buildAppArmorRulesFromDenials unicode records = [] ↔ records = [] := by
  simp only [List.eq_nil_iff_forall_not_mem, mem_buildAppArmorRulesFromDenials]
  constructor
  · intro h r hr
    exact h _ ⟨r, hr, rfl⟩
  · rintro h rule ⟨r, hr, -⟩
    exact h r hr

theorem nodup_addRule (hrules : rules.Nodup) : (addRule rules rule).Nodup := by
  unfold addRule
  split
  · exact hrules
  · rename_i hnew
    rw [← List.concat_eq_append]
    exact hrules.concat hnew

theorem nodup_foldl_addRule {new : List Text} (hrules : rules.Nodup) :
    (new.foldl addRule rules).Nodup := by
  induction new generalizing rules with
  | nil => exact hrules
  | cons rule new ih => exact ih (nodup_addRule hrules)

theorem buildAppArmorRulesFromDenials_sortedLT (records : List AppArmorDenialRecord) :
    (buildAppArmorRulesFromDenials unicode records).SortedLT :=
  sortStrings_sortedLT (nodup_foldl_addRule List.nodup_nil)

theorem buildAppArmorRulesFromDenials_singleton (r : AppArmorDenialRecord) :
    buildAppArmorRulesFromDenials unicode [r] = [ruleOf unicode r] :=
  rfl

theorem mem_build_iff_mem_singleton :
    rule ∈ buildAppArmorRulesFromDenials unicode records ↔
      ∃ r ∈ records, rule ∈ buildAppArmorRulesFromDenials unicode [r] := by
  rw [mem_buildAppArmorRulesFromDenials]
  simp only [buildAppArmorRulesFromDenials_singleton, List.mem_singleton, eq_comm]

theorem buildAppArmorRulesFromDenials_congr {records' : List AppArmorDenialRecord}
    (h : ∀ r, r ∈ records ↔ r ∈ records') :
    buildAppArmorRulesFromDenials unicode records =
      buildAppArmorRulesFromDenials unicode records' := by
  refine (buildAppArmorRulesFromDenials_sortedLT records).eq_of_mem_iff
    (buildAppArmorRulesFromDenials_sortedLT records') (fun rule => ?_)
  simp only [mem_buildAppArmorRulesFromDenials, h]

theorem buildAppArmorRulesFromDenials_append (a b : List AppArmorDenialRecord) :
    buildAppArmorRulesFromDenials unicode (a ++ b) =
      sortStrings (buildAppArmorRulesFromDenials unicode a ∪
        buildAppArmorRulesFromDenials unicode b) := by
  have hnodup : (buildAppArmorRulesFromDenials unicode a ∪
      buildAppArmorRulesFromDenials unicode b).Nodup :=
    List.Nodup.union _ (buildAppArmorRulesFromDenials_sortedLT b).nodup
  refine (buildAppArmorRulesFromDenials_sortedLT (a ++ b)).eq_of_mem_iff
    (sortStrings_sortedLT hnodup) (fun rule => ?_)
  simp only [mem_sortStrings, List.mem_union_iff,
    mem_buildAppArmorRulesFromDenials, List.mem_append, or_and_right,
    exists_or]

/-- The rules of a set of records. -/
theorem buildAppArmorRulesFromDenials_homomorphism (unicode : Unicode) :
    (∀ records,
      (buildAppArmorRulesFromDenials unicode records).SortedLT ∧
        ∀ rule, rule ∈ buildAppArmorRulesFromDenials unicode records ↔
          ∃ r ∈ records,
            rule ∈ buildAppArmorRulesFromDenials unicode [r]) ∧
    (∀ records records' : List AppArmorDenialRecord,
      (∀ r, r ∈ records ↔ r ∈ records') →
        buildAppArmorRulesFromDenials unicode records =
          buildAppArmorRulesFromDenials unicode records') ∧
    (∀ a b,
      buildAppArmorRulesFromDenials unicode (a ++ b) =
        sortStrings (buildAppArmorRulesFromDenials unicode a ∪
          buildAppArmorRulesFromDenials unicode b)) :=
  ⟨fun records => ⟨buildAppArmorRulesFromDenials_sortedLT records,
      fun _ => mem_build_iff_mem_singleton⟩,
    fun _ _ h => buildAppArmorRulesFromDenials_congr h,
    buildAppArmorRulesFromDenials_append⟩

end Rules

section Comments

variable {unicode : Unicode}

def isComment (line : Text) : Bool :=
  (line.dropWhile isSpace).head? = some '#'

def AppArmorDenialRecord.real (r : AppArmorDenialRecord) : Bool :=
  (r.operation = "capable".toList && r.capname ≠ []) ||
    (r.name ≠ [] &&
      canonicalAppArmorFileMode r.requestedMask r.deniedMask r.operation ≠ [] &&
      (r.name.any (· ∈ " \t\"\\".toList) || !isComment r.name))

theorem mem_canonicalAppArmorFileMode {requested denied operation : Text} {c : Char}
    (hc : c ∈ canonicalAppArmorFileMode requested denied operation) :
    c ∈ "rwlkmix".toList := by
  have hall : ∀ letter ∈ modeLetters,
      letter.2.all (· ∈ "rwlkmix".toList) = true := by
    decide
  obtain ⟨letter, hletter, hc⟩ := List.mem_flatMap.mp hc
  refine forall_mem_of_all (hall letter hletter) c ?_
  rw [List.mem_ite_nil_right] at hc
  exact hc.2

theorem isComment_cons {c : Char} {t : Text} :
    isComment (c :: t) = if isSpace c then isComment t else c = '#' := by
  cases hc : isSpace c <;> simp [isComment, hc]

theorem isComment_eq_false {t : Text} (ht : '#' ∉ t) : isComment t = false := by
  rw [isComment, decide_eq_false_iff_not]
  intro hhead
  exact ht ((List.dropWhile_sublist isSpace).subset (List.mem_of_head? hhead))

theorem isComment_append {a b : Text} (hb : isComment b = false) :
    isComment (a ++ b) = isComment a := by
  induction a with
  | nil => exact hb
  | cons c a ih => rw [List.cons_append, isComment_cons, isComment_cons, ih]

theorem isComment_fileRule (path requested denied operation : Text) :
    isComment ("  ".toList ++ quoteAppArmorPath unicode path ++ " ".toList ++
        canonicalAppArmorFileMode requested denied operation ++ ",".toList) =
      !(path.any (· ∈ " \t\"\\".toList) || !isComment path) := by
  have hrest : isComment (" ".toList ++
      (canonicalAppArmorFileMode requested denied operation ++ ",".toList)) =
        false := by
    refine isComment_eq_false (fun hmem => ?_)
    rcases List.mem_append.mp hmem with hmem | hmem
    · exact absurd hmem (by decide)
    · rcases List.mem_append.mp hmem with hmem | hmem
      · exact absurd (mem_canonicalAppArmorFileMode hmem) (by decide)
      · exact absurd hmem (by decide)
  have hblanks : ∀ t, isComment ("  ".toList ++ t) = isComment t := fun _ => rfl
  rw [List.append_assoc, List.append_assoc, List.append_assoc, hblanks,
    isComment_append hrest, quoteAppArmorPath]
  split
  · rename_i hquoted
    rw [hquoted]
    rfl
  · rename_i hbare
    rw [Bool.not_eq_true] at hbare
    rw [hbare]
    simp

theorem isComment_ruleOf (r : AppArmorDenialRecord) : isComment (ruleOf unicode r) = !r.real := by
  have hunhandled : ∀ t, isComment ("  # unhandled: operation=".toList ++ t) = true := fun _ => rfl
  have hcapability : ∀ t, isComment ("  capability ".toList ++ t) = false := fun _ => rfl
  unfold ruleOf AppArmorDenialRecord.real
  split
  · rename_i hcap
    rw [List.append_assoc, hcapability, decide_eq_true hcap.1, decide_eq_true hcap.2]
    rfl
  · rename_i hcap
    have hnocap : (decide (r.operation = "capable".toList) &&
        decide (r.capname ≠ [])) = false := by
      rw [← Bool.decide_and]
      exact decide_eq_false hcap
    rw [hnocap, Bool.false_or]
    split
    · dsimp only
      split
      · rename_i hmode
        rw [List.append_assoc, List.append_assoc, hunhandled]
        simp [hmode]
      · rename_i hname hmode
        rw [isComment_fileRule]
        simp [hname, hmode]
    · rename_i hname
      rw [hunhandled]
      simp [not_not.mp hname]

end Comments

end Runc.Scanner
