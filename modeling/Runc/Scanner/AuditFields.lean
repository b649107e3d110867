import Runc.Lib.LastWrite
import Runc.Scanner.AuditRules

/-!
# The fields of an audit line

`parseDenialLine` scans a line for `key="value"` and `key=value`; the last field with a
key wins.
-/

namespace Runc.Scanner

open Lib

structure AuditField where
  key : Text
  value : Text
  bare : Bool
deriving DecidableEq, Repr

def fieldOf (m : Hit) : AuditField where
  key := m.group 1
  value := if m.group 3 = [] then m.group 4 else m.group 3
  bare := (m.groups.lookup 4).isSome

def auditFields (line : Text) : List AuditField :=
  (apparmorKeyValueRegexp.findAll line).map fieldOf

def lastField (key : Text) (fields : List AuditField) : Option AuditField :=
  lastWrite (fun f => if f.key = key then some f else none) fields

def valueOf (key : Text) (fields : List AuditField) : Text :=
  ((lastField key fields).map AuditField.value).getD []

def recordOf (fields : List AuditField) : AppArmorDenialRecord where
  operation := valueOf "operation".toList fields
  profile := valueOf "profile".toList fields
  name := valueOf "name".toList fields
  target := valueOf "target".toList fields
  requestedMask := valueOf "requested_mask".toList fields
  deniedMask := valueOf "denied_mask".toList fields
  capname := valueOf "capname".toList fields

theorem foldl_set_read (read : AppArmorDenialRecord → Text) (key : Text) (hset : ∀ rec k v,
      read (AppArmorDenialRecord.set rec k v) = if k = key then v else read rec)
    (hempty : read {} = []) (fields : List AuditField) :
    read (fields.foldl (fun rec f => rec.set f.key f.value) {}) =
      valueOf key fields := by
  have hstep : ∀ (rec : AppArmorDenialRecord) (f : AuditField), read (rec.set f.key f.value) =
        (if f.key = key then some f else none).elim (read rec)
          AuditField.value := by
    intro rec f
    rw [hset]
    split <;> rfl
  rw [foldl_read read AuditField.value hstep, hempty, valueOf, lastField]
  cases lastWrite _ fields <;> rfl

theorem AppArmorDenialRecord.set_eq (rec : AppArmorDenialRecord) (k v : Text) :
    rec.set k v =
      ⟨if k = "operation".toList then v else rec.operation,
        if k = "profile".toList then v else rec.profile,
        if k = "name".toList then v else rec.name,
        if k = "target".toList then v else rec.target,
        if k = "requested_mask".toList then v else rec.requestedMask,
        if k = "denied_mask".toList then v else rec.deniedMask,
        if k = "capname".toList then v else rec.capname⟩ := by
  -- a key of the switch is none of the other six
  by_cases hkey : k ∈ ["operation".toList, "profile".toList, "name".toList,
      "target".toList, "requested_mask".toList, "denied_mask".toList,
      "capname".toList]
  · simp only [List.mem_cons, List.not_mem_nil, or_false] at hkey
    rcases hkey with rfl | rfl | rfl | rfl | rfl | rfl | rfl <;> rfl
  · simp only [List.mem_cons, List.not_mem_nil, or_false, not_or] at hkey
    obtain ⟨h₁, h₂, h₃, h₄, h₅, h₆, h₇⟩ := hkey
    rw [AppArmorDenialRecord.set, if_neg h₁, if_neg h₂, if_neg h₃, if_neg h₄,
      if_neg h₅, if_neg h₆, if_neg h₇, if_neg h₁, if_neg h₂, if_neg h₃,
      if_neg h₄, if_neg h₅, if_neg h₆, if_neg h₇]

theorem foldl_set_eq (fields : List AuditField) :
    fields.foldl (fun rec f => rec.set f.key f.value) {} = recordOf fields := by
  have hread : ∀ (read : AppArmorDenialRecord → Text) (key : Text),
      (∀ rec k v, read (AppArmorDenialRecord.set rec k v) =
        if k = key then v else read rec) → read {} = [] →
      read (fields.foldl (fun rec f => rec.set f.key f.value) {}) = valueOf key fields :=
    fun read key hset hempty => foldl_set_read read key hset hempty fields
  refine AppArmorDenialRecord.ext ?_ ?_ ?_ ?_ ?_ ?_ ?_ <;>
  · refine hread _ _ (fun rec k v => ?_) rfl
    rw [AppArmorDenialRecord.set_eq]

theorem parseDenialLine_eq (line : Text) : parseDenialLine line = recordOf (auditFields line) := by
  rw [← foldl_set_eq, auditFields, List.foldl_map]
  rfl

structure AuditPair where
  key : Text
  value : Text
  blanks : Text
  key_ne_nil : key ≠ []
  isWord_key : ∀ c ∈ key, isWord c = true
  value_closed : '"' ∉ value
  isSpace_blanks : ∀ c ∈ blanks, isSpace c = true

def AuditPair.text (p : AuditPair) : Text :=
  p.key ++ (['='] ++ (['"'] ++ (p.value ++ ['"'])))

def AuditPair.field (p : AuditPair) : AuditField :=
  ⟨p.key, p.value, false⟩

def auditLine : List AuditPair → Text
  | [] => []
  | p :: pairs => p.text ++ (p.blanks ++ auditLine pairs)

theorem first_pair (p : AuditPair) (last : Option Char) (rest : Text) :
    apparmorKeyValueRegexp.first last (p.text ++ rest) =
      some ⟨p.text, rest, [(1, p.key), (2, ['"'] ++ (p.value ++ ['"'])),
        (3, p.value)]⟩ := by
  have hvalue : ∀ c ∈ p.value, decide (c ≠ '"') = true :=
    fun c hc => decide_eq_true (fun h => p.value_closed (h ▸ hc))
  have hkey : ∀ l, (Regex.plus isWord).first l
      (p.key ++ (['='] ++ (['"'] ++ (p.value ++ (['"'] ++ rest))))) =
        some ⟨p.key, ['='] ++ (['"'] ++ (p.value ++ (['"'] ++ rest))), []⟩ :=
    fun l => Regex.first_plus p.key_ne_nil p.isWord_key rfl
  have hquoted : ∀ l, (Regex.star (fun c => c ≠ '"')).first l
      (p.value ++ (['"'] ++ rest)) = some ⟨p.value, ['"'] ++ rest, []⟩ :=
    fun l => Regex.first_star hvalue rfl
  have htext : p.text ++ rest =
      p.key ++ (['='] ++ (['"'] ++ (p.value ++ (['"'] ++ rest)))) := by
    simp only [AuditPair.text, List.append_assoc]
  have hfirst := Regex.first_seq (Regex.first_group (hkey last) (n := 1))
    (Regex.first_seq (Regex.first_text ['='] _) (Regex.first_group (n := 2)
        (Regex.first_alt_left (b := .group 4 (.plus (fun c => !isSpace c)))
          (Regex.first_seq (Regex.first_text ['"'] _)
            (Regex.first_seq (Regex.first_group (n := 3) (hquoted _))
              (Regex.first_text ['"'] rest))))))
  rw [htext]
  exact hfirst

theorem first_keyValue_eq_none {c : Char} (hc : isWord c = false) (last : Option Char) (t : Text) :
    apparmorKeyValueRegexp.first last (c :: t) = none := by
  refine Regex.first_eq_none (fun h hh => ?_)
  obtain ⟨x, hx, -⟩ := Regex.mem_results_seq.mp hh
  obtain ⟨y, hy, -⟩ := Regex.mem_results_group.mp hx
  obtain ⟨hsplit, hne, hword, -⟩ := Regex.mem_results_plus.mp hy
  obtain ⟨d, taken, htaken⟩ := List.exists_cons_of_ne_nil hne
  rw [htaken] at hsplit hword
  obtain ⟨rfl, -⟩ := List.cons.inj hsplit
  rw [hword c List.mem_cons_self] at hc
  cases hc

theorem silent_blanks {blanks : Text} (hblanks : ∀ c ∈ blanks, isSpace c = true)
    (last : Option Char) (t : Text) : apparmorKeyValueRegexp.Silent last blanks t := by
  induction blanks generalizing last with
  | nil => trivial
  | cons c blanks ih =>
    have hc : isWord c = false := by
      by_contra hword
      have hspace := isSpace_of_isWord (Bool.not_eq_false _ ▸ hword)
      rw [hblanks c List.mem_cons_self] at hspace
      cases hspace
    exact ⟨first_keyValue_eq_none hc _ _, ih (fun x hx => hblanks x (List.mem_cons_of_mem _ hx)) _⟩

theorem fieldOf_pair (p : AuditPair) (rest : Text) :
    fieldOf ⟨p.text, rest, [(1, p.key), (2, ['"'] ++ (p.value ++ ['"'])),
      (3, p.value)]⟩ = p.field := by
  have hvalue : (if p.value = [] then [] else p.value) = p.value := by
    split
    · rename_i hnil
      exact hnil.symm
    · rfl
  exact congrArg (fun v => AuditField.mk p.key v false) hvalue

theorem findAllFrom_auditLine (pairs : List AuditPair) (last : Option Char) :
    (apparmorKeyValueRegexp.findAllFrom 0 last (auditLine pairs)).map fieldOf =
      pairs.map AuditPair.field := by
  induction pairs generalizing last with
  | nil => rfl
  | cons p pairs ih =>
    have hne : p.text ≠ [] := fun h => p.key_ne_nil (List.append_eq_nil_iff.mp h).1
    rw [auditLine, Regex.findAllFrom_hit (first_pair p last _) hne,
      Regex.findAllFrom_append (silent_blanks p.isSpace_blanks _ _),
      List.map_cons, List.map_cons, fieldOf_pair, ih]

theorem auditFields_auditLine (pairs : List AuditPair) :
    auditFields (auditLine pairs) = pairs.map AuditPair.field :=
  findAllFrom_auditLine pairs none

/-- A line reports an event by `apparmor=`, an optional quote and `DENIED` or
`ALLOWED`. -/
def Reports (line : Text) : Prop :=
  ∃ before quote event after,
    line = before ++ ("apparmor=".toList ++ (quote ++ (event ++ after))) ∧
      quote ∈ [[], ['"']] ∧ event ∈ ["DENIED".toList, "ALLOWED".toList]

theorem results_auditLine_of {quote event : Text} (hquote : quote ∈ [[], ['"']])
    (hevent : event ∈ ["DENIED".toList, "ALLOWED".toList]) (last : Option Char) (after : Text) :
    ∃ h, h ∈ apparmorAuditLineRegexp.results last
      ("apparmor=".toList ++ (quote ++ (event ++ after))) := by
  have hopt : ∀ l, (⟨quote, event ++ after, []⟩ : Hit) ∈
      (Regex.opt (.text ['"'])).results l (quote ++ (event ++ after)) := by
    intro l
    rw [Regex.results_opt, List.mem_append, Regex.mem_results_text]
    rcases List.mem_pair.mp hquote with rfl | rfl
    · exact Or.inr List.mem_cons_self
    · exact Or.inl ⟨rfl, rfl, rfl⟩
  have halt : ∀ l, (⟨event, after, []⟩ : Hit) ∈
      (Regex.alt (.text "DENIED".toList) (.text "ALLOWED".toList)).results l
        (event ++ after) := by
    intro l
    rw [Regex.results_alt, List.mem_append, Regex.mem_results_text, Regex.mem_results_text]
    rcases List.mem_pair.mp hevent with rfl | rfl
    · exact Or.inl ⟨rfl, rfl, rfl⟩
    · exact Or.inr ⟨rfl, rfl, rfl⟩
  have hgroup : ∀ l, (⟨event, after, [(1, event)]⟩ : Hit) ∈
      (Regex.group 1 (.alt (.text "DENIED".toList)
        (.text "ALLOWED".toList))).results l (event ++ after) :=
    fun l => Regex.mem_results_group.mpr ⟨_, halt l, rfl⟩
  have hend : ∀ l, (⟨[], after, []⟩ : Hit) ∈ (Regex.opt (.text ['"'])).results l after :=
    fun l => List.mem_append_right _ List.mem_cons_self
  have hname : (⟨"apparmor=".toList, quote ++ (event ++ after), []⟩ : Hit) ∈
      (Regex.text "apparmor=".toList).results last
        ("apparmor=".toList ++ (quote ++ (event ++ after))) :=
    Regex.mem_results_text.mpr ⟨rfl, rfl, rfl⟩
  exact Regex.exists_mem_results_seq hname (Regex.exists_mem_results_seq (hopt _)
      (Regex.exists_mem_results_seq (hgroup _) ⟨_, hend _⟩))

theorem of_mem_results_auditLine {last : Option Char} {t : Text} {h : Hit}
    (hh : h ∈ apparmorAuditLineRegexp.results last t) :
    ∃ quote event after,
      t = "apparmor=".toList ++ (quote ++ (event ++ after)) ∧
        quote ∈ [[], ['"']] ∧ event ∈ ["DENIED".toList, "ALLOWED".toList] := by
  obtain ⟨x, hx, y, hy, -⟩ := Regex.mem_results_seq.mp hh
  obtain ⟨rfl, -, -⟩ := Regex.mem_results_text.mp hx
  obtain ⟨quote, hquote, z, hz, -⟩ := Regex.mem_results_seq.mp hy
  obtain ⟨g, hg, -⟩ := Regex.mem_results_seq.mp hz
  obtain ⟨event, hevent, rfl⟩ := Regex.mem_results_group.mp hg
  refine ⟨quote.taken, event.taken, event.rest, ?_, ?_, ?_⟩
  · rw [Regex.results_split hevent, Regex.results_split hquote]
  · rw [Regex.results_opt, List.mem_append, Regex.mem_results_text, List.mem_singleton] at hquote
    rcases hquote with ⟨-, htaken, -⟩ | rfl
    · rw [htaken]
      exact List.mem_cons_of_mem _ List.mem_cons_self
    · exact List.mem_cons_self
  · rw [Regex.results_alt, List.mem_append, Regex.mem_results_text,
      Regex.mem_results_text] at hevent
    rcases hevent with ⟨-, htaken, -⟩ | ⟨-, htaken, -⟩
    · rw [htaken]
      exact List.mem_cons_self
    · rw [htaken]
      exact List.mem_cons_of_mem _ List.mem_cons_self

theorem find_isSome_iff_reports {line : Text} :
    (apparmorAuditLineRegexp.find line).isSome = true ↔ Reports line := by
  rw [Regex.find, Regex.findFrom_isSome_iff]
  constructor
  · rintro ⟨before, rest, rfl, h, hh⟩
    obtain ⟨quote, event, after, rfl, hquote, hevent⟩ := of_mem_results_auditLine hh
    exact ⟨before, quote, event, after, rfl, hquote, hevent⟩
  · rintro ⟨before, quote, event, after, rfl, hquote, hevent⟩
    exact ⟨before, _, rfl, results_auditLine_of hquote hevent _ after⟩

instance : DecidablePred Reports :=
  fun _ => decidable_of_iff _ find_isSome_iff_reports

def eventLines (audit profileName : Text) : List Text :=
  (scanLines maxLine audit).filter (fun line =>
    Reports line ∧ (parseDenialLine line).profile = profileName)

theorem parseApparmorDenials_eq (audit profileName : Text) :
    parseApparmorDenials audit profileName =
      (eventLines audit profileName).map parseDenialLine := by
  rw [parseApparmorDenials, List.filter_map, List.filter_filter, eventLines]
  congr 1
  refine List.filter_congr (fun line _ => ?_)
  rw [Bool.eq_iff_iff]
  simp only [Function.comp_apply, Bool.and_eq_true, decide_eq_true_iff,
    find_isSome_iff_reports, and_comm]

theorem reports_auditLine {pairs : List AuditPair} {p : AuditPair} (hp : p ∈ pairs)
    (hkey : p.key = "apparmor".toList) (hvalue : p.value ∈ ["DENIED".toList, "ALLOWED".toList]) :
    Reports (auditLine pairs) := by
  induction pairs with
  | nil => cases hp
  | cons q pairs ih =>
    rcases List.mem_cons.mp hp with rfl | hp
    · refine ⟨[], ['"'], p.value, ['"'] ++ (p.blanks ++ auditLine pairs), ?_, by simp, hvalue⟩
      rw [auditLine, AuditPair.text, hkey]
      simp only [List.append_assoc, List.nil_append]
      rfl
    · obtain ⟨before, quote, event, after, hline, hrest⟩ := ih hp
      refine ⟨q.text ++ (q.blanks ++ before), quote, event, after, ?_, hrest⟩
      rw [auditLine, hline]
      simp only [List.append_assoc]

/-- Round trip. -/
theorem parseDenialLine_roundTrip :
    (∀ pairs : List AuditPair,
      parseDenialLine (auditLine pairs) =
          recordOf (pairs.map AuditPair.field) ∧
        ((∃ p ∈ pairs, p.key = "apparmor".toList ∧
            p.value ∈ ["DENIED".toList, "ALLOWED".toList]) →
          Reports (auditLine pairs))) ∧
    (∀ audit profileName : Text,
      (∀ line ∈ rawLines audit, line.length < 1024 * 1024) →
        parseApparmorDenials audit profileName =
          (((rawLines audit).map dropCR).filter (fun line =>
            Reports line ∧
              (parseDenialLine line).profile = profileName)).map
            parseDenialLine) := by
  refine ⟨fun pairs => ⟨?_, ?_⟩, fun audit profileName hfit => ?_⟩
  · rw [parseDenialLine_eq, auditFields_auditLine]
  · rintro ⟨p, hp, hkey, hvalue⟩
    exact reports_auditLine hp hkey hvalue
  · rw [parseApparmorDenials_eq, eventLines, maxLine, scanLines_of_fit hfit]

section Hexadecimal

variable {unicode : Unicode}

def Rooted (rule : Text) : Prop :=
  ∃ rest, rule = "  /".toList ++ rest ∨ rule = "  \"/".toList ++ rest

def isHexDigit (c : Char) : Bool :=
  isDigit c || c ∈ "ABCDEF".toList

def HexName (line : Text) : Prop :=
  ∃ f, lastField "name".toList (auditFields line) = some f ∧ f.bare = true ∧
    f.value ≠ [] ∧ 2 ∣ f.value.length ∧ ∀ c ∈ f.value, isHexDigit c = true

theorem rooted_iff {t : Text} :
    Rooted ("  ".toList ++ t) ↔
      t.head? = some '/' ∨ ∃ rest, t = '"' :: '/' :: rest := by
  have hcut : ∀ rest u : Text, "  ".toList ++ t = ' ' :: ' ' :: u ↔ t = u := by
    intro rest u
    exact List.append_right_inj "  ".toList
  unfold Rooted
  simp only [exists_or]
  refine or_congr ?_ ?_
  · rw [List.head?_eq_some_iff]
    exact exists_congr (fun rest => hcut rest ('/' :: rest))
  · exact exists_congr (fun rest => hcut rest ('"' :: '/' :: rest))

theorem rooted_quoteAppArmorPath {name rest : Text} :
    Rooted ("  ".toList ++ (quoteAppArmorPath unicode name ++
        (" ".toList ++ rest))) ↔
      name.head? = some '/' := by
  rw [rooted_iff, quoteAppArmorPath]
  split
  · obtain ⟨d, body, hbody⟩ : ∃ d body, quote unicode name = '"' :: d :: body := by
      obtain ⟨d, body, hbody⟩ := List.exists_cons_of_ne_nil (List.append_ne_nil_of_right_ne_nil
          ((runes name).flatMap (quoteRune unicode)) (List.cons_ne_nil '"' []))
      exact ⟨d, body, congrArg ('"' :: ·) hbody⟩
    rw [← quote_slash_iff (t := name), hbody]
    simp
  · rename_i hbare
    cases name with
    | nil => simp
    | cons c name =>
      -- a name that stands bare has no quote in it
      have hc : c ≠ '"' := by
        rintro rfl
        exact hbare (by simp)
      simp [hc]

theorem isHexDigit_slash {c : Char} (hc : isHexDigit c = true) : c ≠ '/' := by
  rintro rfl
  exact absurd hc (by decide)

theorem name_eq_valueOf {line : Text} (hname : (parseDenialLine line).name ≠ []) :
    ∃ f, lastField "name".toList (auditFields line) = some f ∧
      (parseDenialLine line).name = f.value := by
  have hvalue : (parseDenialLine line).name =
      ((lastField "name".toList (auditFields line)).map AuditField.value).getD
        [] := by
    rw [parseDenialLine_eq]
    rfl
  cases hlast : lastField "name".toList (auditFields line) with
  | none =>
    rw [hlast] at hvalue
    exact absurd hvalue hname
  | some f =>
    rw [hlast] at hvalue
    exact ⟨f, rfl, hvalue⟩

/-- Path rules and slashes. -/
theorem pathRules_rooted_iff (unicode : Unicode) (audit profileName : Text) :
    ((∀ r ∈ parseApparmorDenials audit profileName,
        r.GivesPath → Rooted (ruleOf unicode r)) ∧
      ∀ line ∈ eventLines audit profileName,
        HexName line → ¬ (parseDenialLine line).GivesPath) ↔
      ∀ line ∈ eventLines audit profileName,
        (parseDenialLine line).GivesPath →
          ∃ f, lastField "name".toList (auditFields line) = some f ∧
            f.value.head? = some '/' := by
  rw [parseApparmorDenials_eq, List.forall_mem_map]
  have hrule : ∀ line, (parseDenialLine line).GivesPath →
      (Rooted (ruleOf unicode (parseDenialLine line)) ↔
        ∃ f, lastField "name".toList (auditFields line) = some f ∧
          f.value.head? = some '/') := by
    intro line hpath
    obtain ⟨f, hlast, hname⟩ := name_eq_valueOf hpath.2.1
    rw [ruleOf_of_givesPath hpath, rooted_quoteAppArmorPath, hname]
    constructor
    · exact fun hslash => ⟨f, hlast, hslash⟩
    · rintro ⟨g, hg, hslash⟩
      rw [hlast] at hg
      cases hg
      exact hslash
  constructor
  · rintro ⟨hrooted, -⟩ line hline hpath
    exact (hrule line hpath).mp (hrooted line hline hpath)
  · intro hslash
    refine ⟨fun line hline hpath => (hrule line hpath).mpr (hslash line hline hpath), ?_⟩
    rintro line hline ⟨f, hlast, -, hne, -, hhex⟩ hpath
    obtain ⟨g, hg, hslash⟩ := hslash line hline hpath
    rw [hlast] at hg
    cases hg
    exact isHexDigit_slash (hhex '/' (List.mem_of_head? hslash)) rfl

def hexLine : Text :=
  "apparmor=\"DENIED\" operation=\"open\" profile=\"p\" name=2F746D702F612062 requested_mask=\"r\"".toList

theorem auditFields_hexLine :
    auditFields hexLine =
      [⟨"apparmor".toList, "DENIED".toList, false⟩,
        ⟨"operation".toList, "open".toList, false⟩,
        ⟨"profile".toList, "p".toList, false⟩,
        ⟨"name".toList, "2F746D702F612062".toList, true⟩,
        ⟨"requested_mask".toList, "r".toList, false⟩] := by
  decide +kernel

theorem eventLines_hexLine :
    eventLines hexLine "p".toList = [hexLine] := by
  have hlines : scanLines maxLine hexLine = [hexLine] := by
    decide +kernel
  have hreports : Reports hexLine :=
    ⟨[], ['"'], "DENIED".toList, hexLine.drop 16, by decide +kernel, by decide, by decide⟩
  have hprofile : (parseDenialLine hexLine).profile = "p".toList := by
    rw [parseDenialLine_eq, auditFields_hexLine]
    rfl
  rw [eventLines, hlines, List.filter_eq_self]
  intro line hline
  rw [List.mem_singleton.mp hline]
  exact decide_eq_true ⟨hreports, hprofile⟩

theorem hexName_gives_rule :
    HexName hexLine ∧ hexLine ∈ eventLines hexLine "p".toList ∧
      (parseDenialLine hexLine).GivesPath ∧
      buildAppArmorRulesFromDenials Unicode.ascii
          (parseApparmorDenials hexLine "p".toList) =
        ["  2F746D702F612062 r,".toList] ∧
      ¬ Rooted "  2F746D702F612062 r,".toList := by
  refine ⟨⟨⟨"name".toList, "2F746D702F612062".toList, true⟩, ?_⟩, ?_, ?_, ?_, ?_⟩
  · rw [auditFields_hexLine]
    exact ⟨by decide, rfl, by decide, by decide, forall_mem_of_all (by decide)⟩
  · rw [eventLines_hexLine]
    exact List.mem_cons_self
  · rw [parseDenialLine_eq, auditFields_hexLine]
    decide
  · rw [parseApparmorDenials_eq, eventLines_hexLine, List.map_singleton,
      buildAppArmorRulesFromDenials_singleton, parseDenialLine_eq,
      auditFields_hexLine]
    decide
  · intro hrooted
    rcases rooted_iff.mp hrooted with hslash | ⟨rest, hquote⟩
    · exact absurd hslash (by decide)
    · exact absurd (List.cons.inj hquote).1 (by decide)

end Hexadecimal

end Runc.Scanner
