import Runc.Scanner.Profile

/-!
# The header of the generated profile

Both expressions that finalize and the collector search with find the header the
scanner wrote, whatever the text behind it is.
-/

namespace Runc.Scanner

open Lib

def flagsText (list : Text) : Text :=
  [' '] ++ ("flags=(".toList ++ (list ++ [')']))

theorem complainFlags_eq :
    complainFlags =
      flagsText "complain, attach_disconnected, mediate_deleted".toList := by
  repeat rw [String.toList_ofList]
  rfl

theorem enforceFlags_eq :
    enforceFlags = flagsText "attach_disconnected, mediate_deleted".toList := by
  repeat rw [String.toList_ofList]
  rfl

theorem complainList_closed :
    ')' ∉ "complain, attach_disconnected, mediate_deleted".toList := by
  decide

theorem enforceList_closed :
    ')' ∉ "attach_disconnected, mediate_deleted".toList := by
  decide

section FlagsClause

variable {n : Nat} {last : Option Char}

def clauseText (gap list : Text) : Text :=
  gap ++ ("flags=(".toList ++ (list ++ [')']))

theorem first_clause {gap list : Text} (hne : gap ≠ []) (hgap : ∀ c ∈ gap, isSpace c = true)
    (hlist : ')' ∉ list) (rest : Text) :
    (flagsClause n).first last (clauseText gap list ++ rest) =
      some ⟨clauseText gap list, rest, [(n, list)]⟩ := by
  have hstar : ∀ c ∈ list, (decide (c ≠ ')')) = true := by
    intro c hc
    rw [decide_eq_true_eq]
    rintro rfl
    exact hlist hc
  have hgroup : ∀ last, (Regex.group n (.star (fun c => c ≠ ')'))).first last
          (list ++ ([')'] ++ rest)) =
        some ⟨list, [')'] ++ rest, [(n, list)]⟩ := by
    intro last
    exact Regex.first_group (Regex.first_star hstar rfl)
  have hblank : (Regex.plus isSpace).first last
      (gap ++ ("flags=(".toList ++ (list ++ ([')'] ++ rest)))) =
        some ⟨gap, "flags=(".toList ++ (list ++ ([')'] ++ rest)), []⟩ :=
    Regex.first_plus hne hgap rfl
  have hall := Regex.first_seq hblank (Regex.first_seq (Regex.first_text _ _)
      (Regex.first_seq (hgroup _) (Regex.first_text _ _)))
  simpa [flagsClause, clauseText, Hit.append] using hall

theorem first_flagsClause {list : Text} (hlist : ')' ∉ list) (rest : Text) :
    (flagsClause n).first last (flagsText list ++ rest) =
      some ⟨flagsText list, rest, [(n, list)]⟩ :=
  first_clause (List.cons_ne_nil _ _) (List.forall_mem_singleton.mpr rfl) hlist rest

theorem mem_flagsClause {t : Text} {h : Hit} (hh : h ∈ (flagsClause n).results last t) :
    ∃ blanks tail, t = blanks ++ ("flags=(".toList ++ tail) ∧
      blanks ≠ [] ∧ ∀ c ∈ blanks, isSpace c = true := by
  obtain ⟨x, hx, y, hy, -⟩ := Regex.mem_results_seq.mp hh
  obtain ⟨hsplit, hne, hall, -⟩ := Regex.mem_results_plus.mp hx
  obtain ⟨u, hu, -⟩ := Regex.mem_results_seq.mp hy
  obtain ⟨hrest, -, -⟩ := Regex.mem_results_text.mp hu
  refine ⟨x.taken, u.rest, ?_, hne, hall⟩
  rw [← hrest]
  exact hsplit

/-- No blank of a text stands in front of `flags=(`. -/
def FlagsFree (a b : Text) : Prop :=
  ∀ c, isSpace c = true → Clear (c :: "flags=(".toList) a b

variable {a b : Text}

theorem flagsFree_append {a' : Text} :
    FlagsFree (a ++ a') b ↔ FlagsFree a (a' ++ b) ∧ FlagsFree a' b := by
  simp only [FlagsFree, clear_append]
  constructor
  · intro h
    exact ⟨fun c hc => (h c hc).1, fun c hc => (h c hc).2⟩
  · rintro ⟨h, h'⟩ c hc
    exact ⟨h c hc, h' c hc⟩

theorem flagsFree_of_not_space (ha : ∀ c ∈ a, isSpace c = false) : FlagsFree a b := by
  intro c hc
  refine clear_of_not_mem (fun hmem => ?_)
  rw [ha c hmem] at hc
  cases hc

theorem flagsFree_cons {c : Char}
    (hc : isSpace c = true → ¬ "flags=(".toList <+: a ++ b) (ha : FlagsFree a b) :
    FlagsFree (c :: a) b := by
  intro x hx
  refine ⟨?_, ha x hx⟩
  rintro ⟨tail, htail⟩
  obtain ⟨rfl, hrest⟩ := List.cons.inj htail
  exact hc hx ⟨tail, hrest⟩

def flagsFreeCheck : Text → Bool
  | [] => true
  | c :: a =>
      (!isSpace c || differs "flags=(".toList a) && flagsFreeCheck a

theorem flagsFree_of_check (ha : flagsFreeCheck a = true) (b : Text) : FlagsFree a b := by
  induction a with
  | nil => exact fun _ _ => trivial
  | cons c a ih =>
    rw [flagsFreeCheck, Bool.and_eq_true, Bool.or_eq_true] at ha
    refine flagsFree_cons (fun hc => ?_) (ih ha.2)
    rcases ha.1 with hnot | hdiffers
    · rw [hc] at hnot
      cases hnot
    · exact not_initial_of_differs hdiffers b

theorem first_flagsClause_eq_none (hne : a ≠ []) (hfree : FlagsFree a b)
    (hend : a.getLast?.any isSpace = false ∨ b = []) :
    (flagsClause n).first last (a ++ b) = none := by
  refine Regex.first_eq_none (fun h hh => ?_)
  obtain ⟨blanks, tail, ht, hblanks, hall⟩ := mem_flagsClause hh
  -- the last of the blanks is the one in front of the keyword
  obtain ⟨init, x, rfl⟩ : ∃ init x, blanks = init ++ [x] :=
    ⟨_, _, (List.dropLast_append_getLast hblanks).symm⟩
  have hx : isSpace x = true := hall x (by simp)
  have hnot : ∀ z, init ++ [x] = a ++ z → b ≠ [] → False := by
    intro z hz hb
    have hlast : isSpace (a.getLast hne) = true := by
      refine hall _ ?_
      rw [hz]
      exact List.mem_append_left _ (List.getLast_mem hne)
    rcases hend with hend | hend
    · rw [List.getLast?_eq_some_getLast hne] at hend
      simp [hlast] at hend
    · exact hb hend
  rw [List.append_assoc] at ht
  rcases List.append_eq_append_iff.mp ht with ⟨z, hz, hb⟩ | ⟨z, rfl, hz⟩
  · refine hnot (z ++ [x]) (by simp [hz]) ?_
    rw [hb]
    simp
  · cases z with
    | nil =>
      refine hnot [x] (by simp) ?_
      rw [List.nil_append] at hz
      rw [← hz]
      simp
    | cons y z =>
      obtain ⟨rfl, -⟩ := List.cons.inj hz
      have hclear := (clear_append.mp (hfree x hx)).2
      exact hclear.1 ⟨tail, hz⟩

theorem silent_flagsClause (hfree : FlagsFree a b)
    (hend : a.getLast?.any isSpace = false ∨ b = []) : (flagsClause n).Silent last a b := by
  induction a generalizing last with
  | nil => trivial
  | cons c a ih =>
    refine ⟨first_flagsClause_eq_none (List.cons_ne_nil c a) hfree hend,
      ih (fun x hx => (hfree x hx).2) ?_⟩
    cases a with
    | nil => exact Or.inl rfl
    | cons d a => exact hend

end FlagsClause

section Header

variable {name : Text}

theorem first_profileLine_eq_none {last : Option Char} {c : Char} {t : Text} (hc : c ≠ 'p') :
    apparmorProfileLineRegexp.first last (c :: t) = none := by
  refine Regex.first_eq_none (fun h hh => ?_)
  obtain ⟨x, hx, y, hy, -⟩ := Regex.mem_results_seq.mp hh
  obtain ⟨-, rfl⟩ := Regex.mem_results_lineStart.mp hx
  obtain ⟨u, hu, -⟩ := Regex.mem_results_seq.mp hy
  obtain ⟨ht, -, -⟩ := Regex.mem_results_text.mp hu
  exact hc (List.cons.inj ht).1

theorem silent_profileLine {last : Option Char} {a b : Text} (ha : 'p' ∉ a) :
    apparmorProfileLineRegexp.Silent last a b := by
  induction a generalizing last with
  | nil => trivial
  | cons c a ih =>
    simp only [List.mem_cons, not_or] at ha
    exact ⟨first_profileLine_eq_none (Ne.symm ha.1), ih ha.2⟩

def preamble : Text :=
  "#include <tunables/global>\n\n".toList

def headerLine (name flags rest : Text) : Text :=
  "profile".toList ++ ([' '] ++ (name ++ (flags ++ ([' '] ++ (['\x7b'] ++ rest)))))

theorem header_start :
    "#include <tunables/global>\n\nprofile ".toList =
      preamble ++ ("profile".toList ++ [' ']) := by
  repeat rw [String.toList_ofList]
  rfl

theorem header_brace :
    " \x7b".toList = [' '] ++ ['\x7b'] := by
  rfl

theorem profileHeader_eq (name flags rest : Text) :
    profileHeader name flags ++ rest = preamble ++ headerLine name flags rest := by
  unfold profileHeader headerLine
  simp only [header_start, header_brace, List.append_assoc]

theorem IsScanName.ne_nil (hname : IsScanName name) : name ≠ [] := by
  rintro rfl
  have hempty := List.prefix_nil.mp hname.begins
  cases hempty

theorem IsScanName.head_not_space (hname : IsScanName name) (rest : Text) :
    (name ++ rest).head?.any isSpace = false := by
  obtain ⟨tail, rfl⟩ := hname.begins
  rfl

variable {list : Text}

theorem find_header (hname : IsScanName name) (hlist : ')' ∉ list) (rest : Text) :
    ∃ m, apparmorProfileLineRegexp.find
        (profileHeader name (flagsText list) ++ rest) = some m ∧
      m.group 1 = name ∧ m.group 3 = list := by
  have hword : ∀ c ∈ name, (!isSpace c) = true := by
    intro c hc
    rw [hname.not_space c hc]
    rfl
  have hflags : (flagsText list ++ ([' '] ++ (['\x7b'] ++ rest))).head?.any
      (fun c => !isSpace c) = false := rfl
  have hstart : Regex.lineStart.first (some '\n') (headerLine name (flagsText list) rest) =
        some ⟨[], headerLine name (flagsText list) rest, []⟩ :=
    Regex.first_lineStart rfl
  have hmatch := Regex.first_seq hstart (Regex.first_seq (Regex.first_text _ _) (Regex.first_seq
        (Regex.first_plus (p := isSpace) (a := [' ']) (by decide)
          (List.forall_mem_singleton.mpr rfl)
          (hname.head_not_space _))
        (Regex.first_seq (Regex.first_group (n := 1) (Regex.first_plus hname.ne_nil hword hflags))
          (Regex.first_seq (Regex.first_opt (Regex.first_group (n := 2)
              (first_flagsClause (n := 3) hlist _)))
            (Regex.first_seq (Regex.first_star (p := isSpace) (a := [' '])
                (List.forall_mem_singleton.mpr rfl) rfl)
              (Regex.first_text ['\x7b'] rest))))))
  have hsilent : apparmorProfileLineRegexp.Silent none preamble
      (headerLine name (flagsText list) rest) :=
    silent_profileLine (by decide)
  rw [profileHeader_eq, Regex.find, Regex.findFrom_append hsilent]
  exact ⟨_, Regex.findFrom_first hmatch, rfl, rfl⟩

theorem profileName_header (hname : IsScanName name) (hlist : ')' ∉ list) (rest : Text) :
    profileName (profileHeader name (flagsText list) ++ rest) = some name := by
  obtain ⟨m, hm, rfl, -⟩ := find_header hname hlist rest
  rw [profileName, hm]
  rfl

def inComplainMode (raw : Text) : Bool :=
  (apparmorProfileLineRegexp.find raw).any (fun m =>
    "complain".toList ∈ ((m.group 3).splitOn ',').map trimSpace)

section

variable (hname : IsScanName name)
include hname

theorem inComplainMode_header (hlist : ')' ∉ list) (rest : Text) :
    inComplainMode (profileHeader name (flagsText list) ++ rest) =
      decide ("complain".toList ∈ (list.splitOn ',').map trimSpace) := by
  obtain ⟨m, hm, -, rfl⟩ := find_header hname hlist rest
  rw [inComplainMode, hm]
  rfl


theorem flagsFree_header (b : Text) :
    FlagsFree (preamble ++ ("profile".toList ++ ([' '] ++ name))) b := by
  obtain ⟨tail, rfl⟩ := hname.begins
  have hfixed : ∀ b, FlagsFree (preamble ++ ("profile".toList ++ ([' '] ++ profileNamePrefix))) b :=
    flagsFree_of_check (by decide)
  have htail : FlagsFree tail b := flagsFree_of_not_space
      (fun c hc => hname.not_space c (List.mem_append_right _ hc))
  have happ := flagsFree_append.mpr ⟨hfixed (tail ++ b), htail⟩
  simpa only [List.append_assoc] using happ

theorem profileName_complain (rest : Text) :
    profileName (profileHeader name complainFlags ++ rest) = some name := by
  exact profileName_header hname complainList_closed rest

theorem profileName_enforce (rest : Text) :
    profileName (profileHeader name enforceFlags ++ rest) = some name := by
  exact profileName_header hname enforceList_closed rest

theorem inComplainMode_complain (rest : Text) :
    inComplainMode (profileHeader name complainFlags ++ rest) = true := by
  rw [complainFlags_eq, inComplainMode_header hname complainList_closed]
  repeat rw [String.toList_ofList]
  decide

theorem inComplainMode_enforce (rest : Text) :
    inComplainMode (profileHeader name enforceFlags ++ rest) = false := by
  rw [enforceFlags_eq, inComplainMode_header hname enforceList_closed]
  repeat rw [String.toList_ofList]
  decide

end

def headerStart (name : Text) : Text :=
  preamble ++ ("profile".toList ++ ([' '] ++ name))

theorem profileHeader_split (name flags rest : Text) :
    profileHeader name flags ++ rest =
      headerStart name ++ (flags ++ ([' ', '\x7b'] ++ rest)) := by
  rw [profileHeader_eq]
  unfold headerLine headerStart
  rfl

theorem headerStart_last (hname : IsScanName name) :
    (headerStart name).getLast?.any isSpace = false := by
  have hne := hname.ne_nil
  have hspace := hname.not_space _ (List.getLast_mem hne)
  unfold headerStart
  rw [← List.append_assoc, ← List.append_assoc,
    List.getLast?_append_of_ne_nil _ hne, List.getLast?_eq_some_getLast hne]
  simpa using hspace

theorem flip_header (hname : IsScanName name) (hlist : ')' ∉ list) (rest : Text) :
    flipApparmorComplainToEnforce
        (profileHeader name (flagsText list) ++ rest) =
      profileHeader name (flipClause (flagsText list)) ++
        apparmorFlagsClauseRegexp.replaceFrom flipClause 0 (some '\x7b')
          rest := by
  have hhead : ∀ b, apparmorFlagsClauseRegexp.Silent none (headerStart name) b :=
    fun b => silent_flagsClause (flagsFree_header hname b) (Or.inl (headerStart_last hname))
  have hclause : ∀ last b, apparmorFlagsClauseRegexp.first last
      (flagsText list ++ b) = some ⟨flagsText list, b, [(1, list)]⟩ :=
    fun _ b => first_flagsClause hlist b
  have hbrace : ∀ last, apparmorFlagsClauseRegexp.Silent last [' ', '\x7b'] rest :=
    fun last => silent_flagsClause (flagsFree_of_check (by decide) rest) (Or.inl rfl)
  rw [profileHeader_split, profileHeader_split, flipApparmorComplainToEnforce,
    Regex.replaceAll, Regex.replaceFrom_append (hhead _),
    Regex.replaceFrom_hit (hclause _ _) (List.cons_ne_nil _ _),
    Regex.replaceFrom_append (hbrace _)]
  rfl

theorem flipClause_enforceFlags : flipClause enforceFlags = enforceFlags := by
  unfold enforceFlags
  decide

theorem flip_complain (hname : IsScanName name) (rest : Text) :
    flipApparmorComplainToEnforce (profileHeader name complainFlags ++ rest) =
      profileHeader name enforceFlags ++
        apparmorFlagsClauseRegexp.replaceFrom flipClause 0 (some '\x7b')
          rest := by
  exact flip_header hname complainList_closed rest

theorem flip_enforce (hname : IsScanName name) (rest : Text) :
    flipApparmorComplainToEnforce (profileHeader name enforceFlags ++ rest) =
      profileHeader name enforceFlags ++
        apparmorFlagsClauseRegexp.replaceFrom flipClause 0 (some '\x7b')
          rest := by
  conv_rhs => rw [← flipClause_enforceFlags]
  exact flip_header hname enforceList_closed rest

end Header

end Runc.Scanner
