import Runc.Scanner.ProfileCollect

/-!
# The block of collected rules

What the lines of the block must not contain for the searches of the collector and of
finalize to find the block and nothing else.
-/

namespace Runc.Scanner

open Lib

section Parts

variable {a b t : Text}

/-- A part of a line, followed by `b`, in which no search finds anything. -/
structure Part (t b : Text) : Prop where
  noBreak : '\n' ∉ t
  noMarker : Clear markerStart t b
  noFlags : FlagsFree t b

theorem Part.append (ha : Part a (t ++ b)) (ht : Part t b) : Part (a ++ t) b := by
  constructor
  · rw [List.mem_append, not_or]
    exact ⟨ha.noBreak, ht.noBreak⟩
  · exact clear_append.mpr ⟨ha.noMarker, ht.noMarker⟩
  · exact flagsFree_append.mpr ⟨ha.noFlags, ht.noFlags⟩

def partCheck (t : Text) : Bool :=
  decide ('\n' ∉ t) && clearCheck markerStart t && flagsFreeCheck t

theorem part_of_check (ht : partCheck t = true) (b : Text) : Part t b := by
  simp only [partCheck, Bool.and_eq_true, decide_eq_true_eq] at ht
  exact ⟨ht.1.1, clear_of_check ht.1.2 b, flagsFree_of_check ht.2 b⟩

theorem part_blank (hb : ¬ "flags=(".toList <+: b) :
    Part [' '] b := by
  constructor
  · decide
  · exact clear_of_not_mem (by decide)
  · exact flagsFree_cons (fun _ => by simpa using hb) (fun _ _ => trivial)

theorem clear_markerStart_word (ht : ∀ c ∈ t, isSpace c = false) (hb : ¬ [' ', '-'] <+: b) :
    Clear markerStart t b := by
  induction t with
  | nil => trivial
  | cons c t ih =>
    refine ⟨?_, ih (fun x hx => ht x (List.mem_cons_of_mem c hx))⟩
    rintro ⟨u, hu⟩
    cases t with
    | nil => exact hb ⟨u, (List.cons.inj hu).2⟩
    | cons d t =>
      obtain ⟨rfl, -⟩ := List.cons.inj (List.cons.inj hu).2
      exact absurd (ht ' ' (by simp)) (by decide)

theorem part_word (ht : ∀ c ∈ t, isSpace c = false) (hb : ¬ [' ', '-'] <+: b) : Part t b := by
  constructor
  · intro hmem
    exact absurd (ht _ hmem) (by decide)
  · exact clear_markerStart_word ht hb
  · exact flagsFree_of_not_space ht

end Parts

section RuleLines

variable {unicode : Unicode} {r : AppArmorDenialRecord} {t : Text}

structure RuleLine (t : Text) : Prop where
  blank : t.head? = some ' '
  part : ∀ b, Part t ('\n' :: b)

def isPrinted (c : Char) : Bool :=
  !isSpace c && c ≠ '"' && 0x20 ≤ c.toNat && c.toNat ≠ 0x7f

structure AppArmorDenialRecord.Printed (r : AppArmorDenialRecord) : Prop where
  operation : ∀ c ∈ r.operation, isPrinted c = true
  name : ∀ c ∈ r.name, isPrinted c = true
  capname : ∀ c ∈ r.capname, isPrinted c = true
  absolute : r.name = [] ∨ r.name.head? = some '/'

def AppArmorDenialRecord.Flagless (r : AppArmorDenialRecord) : Prop :=
  r.operation = "capable".toList → ¬ "flags=(".toList <+: r.capname

theorem not_space_of_isPrinted (ht : ∀ c ∈ t, isPrinted c = true) : ∀ c ∈ t, isSpace c = false := by
  intro c hc
  have hprinted := ht c hc
  simp only [isPrinted, Bool.and_eq_true, Bool.not_eq_true'] at hprinted
  exact hprinted.1.1.1

theorem ruleLine_capability (ht : ∀ c ∈ t, isSpace c = false) (hflags : ¬ "flags=(".toList <+: t) :
    RuleLine ("  capability ".toList ++ t ++ ",".toList) := by
  constructor
  · rfl
  · intro b
    have hfixed : "  capability ".toList = "  capability".toList ++ [' '] := by
      decide
    have hflags' : ¬ "flags=(".toList <+: t ++ (",".toList ++ '\n' :: b) :=
      fun h => hflags (initial_of_not_mem (by decide) h)
    have hcomma : ¬ [' ', '-'] <+: ",".toList ++ '\n' :: b := by
      rintro ⟨u, hu⟩
      cases hu
    rw [hfixed, List.append_assoc, List.append_assoc]
    refine (part_of_check (by decide) _).append ?_
    refine (part_blank ?_).append ?_
    · simpa using hflags'
    · exact (part_word ht hcomma).append (part_of_check (by decide) _)

theorem ruleLine_file {c m : Char} {path mode : Text} (hpath : ∀ x ∈ c :: path, isSpace x = false)
    (hhead : c ≠ 'f') (hmode : ∀ x ∈ m :: mode, x ∈ "rwlkmix".toList) :
    RuleLine ("  ".toList ++ (c :: path) ++ " ".toList ++ (m :: mode) ++
      ",".toList) := by
  have hletters : ∀ x ∈ "rwlkmix".toList, isSpace x = false ∧ x ≠ 'f' ∧ x ≠ '-' :=
    forall_mem_of_all (by decide)
  have hm := hletters m (hmode m List.mem_cons_self)
  constructor
  · rfl
  · intro b
    have hblanks : "  ".toList = [' '] ++ [' '] := by decide
    simp only [List.append_assoc]
    refine (part_blank ?_).append ((part_blank ?_).append
      ((part_word hpath ?_).append ((part_blank ?_).append
        ((part_word (fun x hx => (hletters x (hmode x hx)).1) ?_).append
          (part_of_check (by decide) _)))))
    · rintro ⟨u, hu⟩
      cases hu
    · rintro ⟨u, hu⟩
      exact hhead (List.cons.inj hu).1.symm
    · rintro ⟨u, hu⟩
      exact hm.2.2 (List.cons.inj (List.cons.inj hu).2).1.symm
    · rintro ⟨u, hu⟩
      exact hm.2.1 (List.cons.inj hu).1.symm
    · rintro ⟨u, hu⟩
      cases hu

theorem ruleLine_unhandled {operation : Text} (hoperation : ∀ c ∈ operation, isSpace c = false) :
    RuleLine ("  # unhandled: operation=".toList ++ operation) := by
  constructor
  · rfl
  · intro b
    refine (part_of_check (by decide) _).append (part_word hoperation ?_)
    rintro ⟨u, hu⟩
    cases hu

theorem ruleLine_unhandled_name {operation name : Text}
    (hoperation : ∀ c ∈ operation, isSpace c = false) (hname : ∀ c ∈ name, isSpace c = false) :
    RuleLine ("  # unhandled: operation=".toList ++ operation ++
      " name=".toList ++ name) := by
  constructor
  · rfl
  · intro b
    simp only [List.append_assoc]
    refine (part_of_check (by decide) _).append ((part_word hoperation ?_).append
        ((part_of_check (by decide) _).append (part_word hname ?_)))
    · rintro ⟨u, hu⟩
      cases hu
    · rintro ⟨u, hu⟩
      cases hu

theorem quoteAppArmorPath_cases (unicode : Unicode) {path : Text}
    (hpath : ∀ c ∈ path, isSpace c = false) (habsolute : path.head? = some '/') :
    ∃ c rest, quoteAppArmorPath unicode path = c :: rest ∧ c ≠ 'f' ∧
      ∀ x ∈ c :: rest, isSpace x = false := by
  unfold quoteAppArmorPath
  split
  · exact ⟨'"', _, rfl, by decide, fun x hx => quote_not_space hpath hx⟩
  · obtain ⟨rest, rfl⟩ := List.head?_eq_some_iff.mp habsolute
    exact ⟨'/', rest, rfl, by decide, hpath⟩

theorem ruleLine_ruleOf (hprinted : r.Printed) (hflagless : r.Flagless) :
    RuleLine (ruleOf unicode r) := by
  have hoperation := not_space_of_isPrinted hprinted.operation
  have hname := not_space_of_isPrinted hprinted.name
  unfold ruleOf
  split
  · rename_i hcap
    exact ruleLine_capability (not_space_of_isPrinted hprinted.capname) (hflagless hcap.1)
  · split
    · rename_i hne
      dsimp only
      split
      · exact ruleLine_unhandled_name hoperation hname
      · rename_i hmode
        obtain ⟨c, rest, hquoted, hc, hspace⟩ := quoteAppArmorPath_cases unicode hname
            (hprinted.absolute.resolve_left hne)
        obtain ⟨m, mode, hcons⟩ := List.exists_cons_of_ne_nil hmode
        have hletters : ∀ x ∈ canonicalAppArmorFileMode r.requestedMask
            r.deniedMask r.operation, x ∈ "rwlkmix".toList :=
          fun x hx => mem_canonicalAppArmorFileMode hx
        rw [hquoted, hcons]
        rw [hcons] at hletters
        exact ruleLine_file hspace hc hletters
    · exact ruleLine_unhandled hoperation

end RuleLines

section Block

variable {rules : List Text} {a : Text}

def ruleLines (rules : List Text) : Text :=
  rules.flatMap (· ++ ['\n'])

theorem auditBlock_eq (rules : List Text) (b : Text) :
    auditBlock rules ++ b =
      [' ', ' '] ++ (apparmorAuditMarkerBegin ++ (['\n'] ++ (ruleLines rules ++
        ([' ', ' '] ++ (apparmorAuditMarkerEnd ++ ('\n' :: b)))))) := by
  have hblanks : "  ".toList = [' ', ' '] := by decide
  have hbreak : "\n".toList = ['\n'] := by decide
  unfold auditBlock ruleLines
  simp only [hblanks, hbreak, List.append_assoc, List.cons_append, List.nil_append]

theorem clear_ruleLines (hrules : ∀ rule ∈ rules, RuleLine rule) (b : Text) :
    Clear markerStart (ruleLines rules) b := by
  induction rules with
  | nil => trivial
  | cons rule rules ih =>
    have hrest := ih (fun x hx => hrules x (List.mem_cons_of_mem rule hx))
    have hrule := ((hrules rule List.mem_cons_self).part (ruleLines rules ++ b)).noMarker
    have hbreak : Clear markerStart ['\n'] (ruleLines rules ++ b) := clear_of_not_mem (by decide)
    have hall := clear_append.mpr ⟨hrule, clear_append.mpr ⟨hbreak, hrest⟩⟩
    simpa [ruleLines] using hall

theorem not_flags_of_blank {b : Text} (hb : b.head? = some ' ') :
    ¬ "flags=(".toList <+: b := by
  obtain ⟨rest, rfl⟩ := List.head?_eq_some_iff.mp hb
  rintro ⟨u, hu⟩
  exact absurd (List.cons.inj hu).1 (by decide)

theorem head?_ruleLines (hrules : ∀ rule ∈ rules, RuleLine rule) {b : Text}
    (hb : b.head? = some ' ') : (ruleLines rules ++ b).head? = some ' ' := by
  cases rules with
  | nil => exact hb
  | cons rule rules =>
    obtain ⟨rest, rfl⟩ := List.head?_eq_some_iff.mp (hrules rule List.mem_cons_self).blank
    rfl

theorem flagsFree_ruleLines (hrules : ∀ rule ∈ rules, RuleLine rule) {b : Text}
    (hb : b.head? = some ' ') : FlagsFree (ruleLines rules) b := by
  induction rules with
  | nil => exact fun _ _ => trivial
  | cons rule rules ih =>
    have htail : ∀ x ∈ rules, RuleLine x := fun x hx => hrules x (List.mem_cons_of_mem rule hx)
    have hrule := ((hrules rule List.mem_cons_self).part (ruleLines rules ++ b)).noFlags
    have hbreak : FlagsFree ['\n'] (ruleLines rules ++ b) := flagsFree_cons
        (fun _ => not_flags_of_blank (head?_ruleLines htail hb))
        (fun _ _ => trivial)
    have hall := flagsFree_append.mpr ⟨hrule, flagsFree_append.mpr ⟨hbreak, ih htail⟩⟩
    simpa [ruleLines] using hall

def blockFront (rules : List Text) : Text :=
  apparmorAuditMarkerBegin ++ (['\n'] ++ (ruleLines rules ++ [' ', ' ']))

theorem auditBlock_split (rules : List Text) (a b : Text) :
    a ++ (auditBlock rules ++ b) =
      (a ++ [' ', ' ']) ++ (blockFront rules ++
        (apparmorAuditMarkerEnd ++ ('\n' :: b))) := by
  rw [auditBlock_eq, blockFront]
  simp only [List.append_assoc]

theorem clearCheck_end_begin :
    clearCheck apparmorAuditMarkerEnd
      (apparmorAuditMarkerBegin ++ ['\n']) = true := by
  decide

theorem markerStart_end : markerStart <+: apparmorAuditMarkerEnd := by
  decide

theorem clear_blockFront (hrules : ∀ rule ∈ rules, RuleLine rule) (b : Text) :
    Clear apparmorAuditMarkerEnd (blockFront rules) b := by
  have hblanks : Clear apparmorAuditMarkerEnd [' ', ' '] b := clear_of_not_mem (by decide)
  have hall := clear_append.mpr
    ⟨clear_of_check clearCheck_end_begin (ruleLines rules ++ [' ', ' '] ++ b), clear_append.mpr
        ⟨(clear_ruleLines hrules ([' ', ' '] ++ b)).of_initial markerStart_end, hblanks⟩⟩
  unfold blockFront
  simpa only [List.append_assoc] using hall

theorem index_begin (hclear : ∀ b, Clear markerStart a b) (b : Text) :
    index apparmorAuditMarkerBegin (a ++ (auditBlock rules ++ b)) =
      some (a ++ [' ', ' ']).length := by
  have hblanks : ∀ b, Clear apparmorAuditMarkerBegin [' ', ' '] b :=
    fun b => clear_of_not_mem (by decide)
  rw [auditBlock_split, blockFront, List.append_assoc apparmorAuditMarkerBegin]
  exact index_of_clear (clear_append.mpr ⟨(hclear _).of_initial markerStart_begin, hblanks _⟩)

theorem lineStart_blanks (hlast : a.getLast? = some '\n') (b : Text) :
    lineStart ((a ++ [' ', ' ']) ++ b) (a ++ [' ', ' ']).length = a.length := by
  obtain ⟨init, rfl⟩ := List.getLast?_eq_some_iff.mp hlast
  have hlen : ((init ++ ['\n']) ++ [' ', ' ']).length = init.length + 3 := by
    simp
  have hfst : (init ++ ['\n'] ++ [' ', ' '] ++ b)[init.length + 1]? =
      some ' ' := by
    simp
  have hsnd : (init ++ ['\n'] ++ [' ', ' '] ++ b)[init.length + 2]? =
      some ' ' := by
    simp
  have hbreak : (init ++ ['\n'] ++ [' ', ' '] ++ b)[init.length]? =
      some '\n' := by
    simp
  rw [hlen, lineStart, hsnd, if_neg (by decide), lineStart, hfst,
    if_neg (by decide), lineStart, hbreak, if_pos rfl]
  simp

theorem strip_block (hlast : a.getLast? = some '\n') (hclear : ∀ b, Clear markerStart a b)
    (hrules : ∀ rule ∈ rules, RuleLine rule) (b : Text) :
    stripExistingAuditBlock (a ++ (auditBlock rules ++ b)) = a ++ b := by
  have hraw : (a ++ [' ', ' ']) ++ (blockFront rules ++ (apparmorAuditMarkerEnd ++ ('\n' :: b))) =
        ((a ++ [' ', ' ']) ++ (blockFront rules ++ apparmorAuditMarkerEnd)) ++
          ('\n' :: b) := by
    simp only [List.append_assoc]
  have hend : (blockFront rules).length +
      ((a ++ [' ', ' ']).length + apparmorAuditMarkerEnd.length) = ((a ++ [' ', ' ']) ++
          (blockFront rules ++ apparmorAuditMarkerEnd)).length := by
    simp only [List.length_append]
    omega
  have hbreak : ∀ p : Text, (p ++ ('\n' :: b))[p.length]? = some '\n' := by
    simp
  unfold stripExistingAuditBlock
  rw [index_begin hclear, auditBlock_split]
  dsimp only
  rw [List.drop_left, index_of_clear (clear_blockFront hrules _)]
  dsimp only
  rw [lineStart_blanks hlast, hend, hraw, hbreak, if_pos rfl,
    List.drop_length_add_append, List.append_assoc, List.append_assoc,
    List.take_left]
  rfl

def auditRules (raw : Text) : Option (List Text) := do
  let bIdx ← index apparmorAuditMarkerBegin raw
  let rest := raw.drop (bIdx + apparmorAuditMarkerBegin.length)
  let offset ← index apparmorAuditMarkerEnd rest
  return ((rest.take offset).splitOn '\n').tail.dropLast

theorem auditRules_of_clear (h : Clear apparmorAuditMarkerBegin a []) : auditRules a = none := by
  rw [auditRules, index_eq_none_of_clear marker_ne_nil h]
  rfl

theorem intercalate_ruleLines (rules : List Text) (last : Text) :
    ['\n'].intercalate (rules ++ [last]) = ruleLines rules ++ last := by
  induction rules with
  | nil => simp [ruleLines]
  | cons rule rules ih =>
    have hne : rules ++ [last] ≠ [] := by simp
    rw [List.cons_append, List.intercalate_cons_of_ne_nil hne, ih]
    simp [ruleLines]

theorem auditRules_block (hclear : ∀ b, Clear markerStart a b)
    (hrules : ∀ rule ∈ rules, RuleLine rule) (b : Text) :
    auditRules (a ++ (auditBlock rules ++ b)) = some rules := by
  have hbody : Clear apparmorAuditMarkerEnd (['\n'] ++ (ruleLines rules ++ [' ', ' ']))
      (apparmorAuditMarkerEnd ++ ('\n' :: b)) :=
    (clear_append.mp (clear_blockFront hrules _)).2
  have hsplit : (['\n'] ++ (ruleLines rules ++ [' ', ' '])).splitOn '\n' =
      [] :: (rules ++ [[' ', ' ']]) := by
    have hjoin : ['\n'].intercalate ([] :: (rules ++ [[' ', ' ']])) =
        ['\n'] ++ (ruleLines rules ++ [' ', ' ']) :=
      intercalate_ruleLines ([] :: rules) [' ', ' ']
    rw [← hjoin]
    refine List.splitOn_intercalate '\n' ?_ (List.cons_ne_nil _ _)
    intro line hline
    rcases List.mem_cons.mp hline with rfl | hline
    · exact List.not_mem_nil
    · rcases List.mem_append.mp hline with hline | hline
      · exact ((hrules line hline).part []).noBreak
      · rw [List.mem_singleton.mp hline]
        decide
  have hdrop : ((a ++ [' ', ' ']) ++ (blockFront rules ++
      (apparmorAuditMarkerEnd ++ ('\n' :: b)))).drop
        ((a ++ [' ', ' ']).length + apparmorAuditMarkerBegin.length) =
      (['\n'] ++ (ruleLines rules ++ [' ', ' '])) ++
        (apparmorAuditMarkerEnd ++ ('\n' :: b)) := by
    rw [blockFront, List.append_assoc apparmorAuditMarkerBegin,
      List.drop_length_add_append, List.drop_left]
  unfold auditRules
  rw [index_begin hclear, auditBlock_split]
  dsimp only [bind, Option.bind]
  rw [hdrop, index_of_clear hbody]
  dsimp only
  rw [List.take_left, hsplit]
  simp

theorem clearCheck_begin_end :
    clearCheck apparmorAuditMarkerBegin
      ([' ', ' '] ++ apparmorAuditMarkerEnd) = true := by
  unfold apparmorAuditMarkerBegin apparmorAuditMarkerEnd
  repeat rw [String.toList_ofList]
  decide

theorem marker_begin_eq : apparmorAuditMarkerBegin = '#' :: apparmorAuditMarkerBegin.tail := by
  decide

theorem marker_end_eq : apparmorAuditMarkerEnd = '#' :: apparmorAuditMarkerEnd.tail := by
  decide

theorem clear_of_hashless {marker b : Text} (hmarker : markerStart <+: marker) (ha : '#' ∉ a) :
    Clear marker a b :=
  have hstart : Clear markerStart a b := clear_of_not_mem ha
  hstart.of_initial hmarker

theorem occurrences_begin (hclear : ∀ b, Clear markerStart a b)
    (hrules : ∀ rule ∈ rules, RuleLine rule) {b : Text} (hb : '#' ∉ b) :
    occurrences apparmorAuditMarkerBegin (a ++ (auditBlock rules ++ b)) = 1 := by
  have hfront : ∀ b, Clear apparmorAuditMarkerBegin (a ++ [' ', ' ']) b := fun b => clear_append.mpr
      ⟨(hclear _).of_initial markerStart_begin, clear_of_not_mem (by decide)⟩
  have hinside : ∀ b, Clear apparmorAuditMarkerBegin apparmorAuditMarkerBegin.tail b :=
    fun b => clear_of_not_mem (by decide)
  have hbreak : ∀ b, Clear apparmorAuditMarkerBegin ['\n'] b :=
    fun b => clear_of_not_mem (by decide)
  have hlines : ∀ b, Clear apparmorAuditMarkerBegin (ruleLines rules) b :=
    fun b => (clear_ruleLines hrules b).of_initial markerStart_begin
  have hend : ∀ b, Clear apparmorAuditMarkerBegin ([' ', ' '] ++ apparmorAuditMarkerEnd) b :=
    clear_of_check clearCheck_begin_end
  have hrest : Clear apparmorAuditMarkerBegin ('\n' :: b) [] :=
    clear_of_hashless markerStart_begin (by simp [hb])
  have hbehind := clear_append.mpr ⟨hinside _, clear_append.mpr
    ⟨hbreak _, clear_append.mpr ⟨hlines _, clear_append.mpr ⟨hend _, hrest⟩⟩⟩⟩
  rw [auditBlock_split, blockFront]
  simp only [List.append_assoc apparmorAuditMarkerBegin]
  rw [marker_begin_eq]
  refine occurrences_eq_one ?_ ?_
  · rw [← marker_begin_eq]
    exact hfront _
  · rw [← marker_begin_eq]
    simpa only [List.append_assoc] using hbehind

theorem occurrences_end (hclear : ∀ b, Clear markerStart a b)
    (hrules : ∀ rule ∈ rules, RuleLine rule) {b : Text} (hb : '#' ∉ b) :
    occurrences apparmorAuditMarkerEnd (a ++ (auditBlock rules ++ b)) = 1 := by
  have hfront : ∀ b, Clear apparmorAuditMarkerEnd (a ++ [' ', ' ']) b := fun b => clear_append.mpr
      ⟨(hclear _).of_initial markerStart_end, clear_of_not_mem (by decide)⟩
  have hbefore := fun b => clear_append.mpr
    ⟨hfront (blockFront rules ++ b), clear_blockFront hrules b⟩
  have hinside : ∀ b, Clear apparmorAuditMarkerEnd apparmorAuditMarkerEnd.tail b :=
    fun b => clear_of_not_mem (by decide)
  have hrest : Clear apparmorAuditMarkerEnd ('\n' :: b) [] :=
    clear_of_hashless markerStart_end (by simp [hb])
  have hbehind := clear_append.mpr ⟨hinside _, hrest⟩
  rw [auditBlock_split, ← List.append_assoc, marker_end_eq]
  refine occurrences_eq_one ?_ ?_
  · rw [← marker_end_eq]
    exact hbefore _
  · rw [← marker_end_eq]
    exact hbehind

end Block

section Flip

variable {rules : List Text}

theorem flagsFree_line {t b : Text} (ht : flagsFreeCheck t = true) (hb : ¬ "flags=(".toList <+: b) :
    FlagsFree (t ++ ['\n']) b :=
  flagsFree_append.mpr ⟨flagsFree_of_check ht _,
      flagsFree_cons (fun _ => by simpa using hb) (fun _ _ => trivial)⟩

theorem templateBody_lines :
    templateBody = templateBody.dropLast ++ ['\n'] ∧
      flagsFreeCheck templateBody.dropLast = true := by
  unfold templateBody
  repeat rw [String.toList_ofList]
  decide +kernel

theorem flagsFree_templateBody {b : Text} (hb : ¬ "flags=(".toList <+: b) :
    FlagsFree templateBody b := by
  rw [templateBody_lines.1]
  exact flagsFree_line templateBody_lines.2 hb

theorem not_flags_templateClose :
    ¬ "flags=(".toList <+: templateClose := by
  decide

theorem flagsFree_templateClose : FlagsFree templateClose [] := by
  have hclose : templateClose = ['\x7d'] ++ ['\n'] := by decide
  rw [hclose]
  exact flagsFree_line (by decide) (by decide)

theorem flagsFree_auditBlock (hrules : ∀ rule ∈ rules, RuleLine rule) :
    FlagsFree (auditBlock rules) templateClose := by
  have hlast : FlagsFree (([' ', ' '] ++ apparmorAuditMarkerEnd) ++ ['\n']) templateClose :=
    flagsFree_line (by decide) not_flags_templateClose
  have hlines : FlagsFree (ruleLines rules)
      ((([' ', ' '] ++ apparmorAuditMarkerEnd) ++ ['\n']) ++ templateClose) :=
    flagsFree_ruleLines hrules rfl
  have hfirst : FlagsFree (([' ', ' '] ++ apparmorAuditMarkerBegin) ++ ['\n']) ((ruleLines rules ++
        (([' ', ' '] ++ apparmorAuditMarkerEnd) ++ ['\n'])) ++ templateClose) :=
    flagsFree_line (by decide) (by
      rw [List.append_assoc]
      exact not_flags_of_blank (head?_ruleLines hrules rfl))
  have hall := flagsFree_append.mpr ⟨hfirst, flagsFree_append.mpr ⟨hlines, hlast⟩⟩
  have hblock := auditBlock_eq rules []
  rw [List.append_nil] at hblock
  rw [hblock]
  simpa only [List.append_assoc] using hall

theorem replace_block {last : Option Char} (hrules : ∀ rule ∈ rules, RuleLine rule) :
    apparmorFlagsClauseRegexp.replaceFrom flipClause 0 last
        (templateBody ++ (auditBlock rules ++ templateClose)) =
      templateBody ++ (auditBlock rules ++ templateClose) := by
  have hblank : ¬ "flags=(".toList <+: auditBlock rules ++ templateClose := by
    refine not_flags_of_blank ?_
    rfl
  have hblock : FlagsFree (auditBlock rules) (templateClose ++ []) := by
    exact flagsFree_auditBlock hrules
  have hfree : FlagsFree (templateBody ++ (auditBlock rules ++ templateClose)) [] :=
    flagsFree_append.mpr ⟨flagsFree_templateBody (by rw [List.append_nil]; exact hblank),
        flagsFree_append.mpr ⟨hblock, flagsFree_templateClose⟩⟩
  exact Regex.replaceFrom_silent (silent_flagsClause hfree (Or.inr rfl))

end Flip

end Runc.Scanner
