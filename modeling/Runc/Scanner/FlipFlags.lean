import Runc.Lib.Bytes
import Runc.Scanner.ProfileHeader

/-!
# Taking a profile out of complain mode

`flipApparmorComplainToEnforce` on a text with one flags clause, whatever the
flags are.
-/

namespace Runc.Scanner

open Lib

def flagTokens (list : Text) : List Text :=
  (list.splitOn ',').map trimSpace

theorem keptFlags_eq (list : Text) :
    keptFlags list =
      (flagTokens list).filter
        (fun t => t ≠ [] && t ≠ "complain".toList) :=
  rfl

def joinedFlags (tokens : List Text) : Text :=
  ", ".toList.intercalate tokens

theorem joinedFlags_cons (first : Text) (others : List Text) :
    joinedFlags (first :: others) =
      [','].intercalate (first :: others.map (' ' :: ·)) := by
  induction others generalizing first with
  | nil => simp [joinedFlags]
  | cons next others ih =>
    have hjoin : joinedFlags (first :: next :: others) =
        first ++ (", ".toList ++ joinedFlags (next :: others)) := by
      simp [joinedFlags, List.intercalate]
    have hblank : ∀ parts : List Text, [','].intercalate
        ((' ' :: next) :: parts) = ' ' :: [','].intercalate (next :: parts) := by
      intro parts
      cases parts with
      | nil => simp
      | cons part parts => rw [intercalate_cons_cons, intercalate_cons_cons, List.cons_append]
    rw [hjoin, ih, List.map_cons, intercalate_cons_cons, hblank]
    rfl

theorem tokens_joined {tokens : List Text} (hne : tokens ≠ []) (hcomma : ∀ t ∈ tokens, ',' ∉ t)
    (htrim : ∀ t ∈ tokens, trimSpace t = t) : flagTokens (joinedFlags tokens) = tokens := by
  obtain ⟨first, others, rfl⟩ := List.exists_cons_of_ne_nil hne
  obtain ⟨hfirst, hothers⟩ := List.forall_mem_cons.mp htrim
  have hparts : ∀ part ∈ first :: others.map (' ' :: ·), ',' ∉ part := by
    intro part hpart
    rcases List.mem_cons.mp hpart with rfl | hpart
    · exact hcomma part List.mem_cons_self
    · obtain ⟨t, ht, rfl⟩ := List.mem_map.mp hpart
      intro hmem
      rcases List.mem_cons.mp hmem with h | h
      · exact absurd h (by decide)
      · exact hcomma t (List.mem_cons_of_mem _ ht) h
  rw [flagTokens, joinedFlags_cons,
    List.splitOn_intercalate ',' hparts (List.cons_ne_nil _ _), List.map_cons,
    hfirst, List.map_map]
  congr 1
  refine (List.map_congr_left fun t ht => ?_).trans (List.map_id others)
  rw [Function.comp_apply, trimSpace_blank, hothers t ht]
  rfl

theorem mem_flagTokens {list t : Text} (ht : t ∈ flagTokens list) :
    ',' ∉ t ∧ trimSpace t = t ∧ ∀ c ∈ t, c ∈ list := by
  obtain ⟨piece, hpiece, rfl⟩ := List.mem_map.mp ht
  refine ⟨fun hmem => not_mem_of_mem_splitOn hpiece (mem_of_mem_trimSpace hmem),
    trimSpace_trimSpace piece, fun c hc => ?_⟩
  obtain ⟨left, right, rfl⟩ := middle_of_mem_splitOn hpiece
  exact List.mem_append_right _ (List.mem_append_left _ (mem_of_mem_trimSpace hc))

theorem mem_keptFlags {list t : Text} (ht : t ∈ keptFlags list) :
    ',' ∉ t ∧ trimSpace t = t ∧ ∀ c ∈ t, c ∈ list :=
  mem_flagTokens (List.mem_of_mem_filter ht)

theorem keptFlags_joined {list : Text} (hne : keptFlags list ≠ []) :
    flagTokens (joinedFlags (keptFlags list)) = keptFlags list ∧
      keptFlags (joinedFlags (keptFlags list)) = keptFlags list := by
  have htokens := tokens_joined hne (fun t ht => (mem_keptFlags ht).1)
    (fun t ht => (mem_keptFlags ht).2.1)
  refine ⟨htokens, ?_⟩
  rw [keptFlags_eq, htokens, List.filter_eq_self]
  intro t ht
  exact (List.mem_filter.mp ht).2

theorem joinedFlags_closed {list : Text} (hlist : ')' ∉ list) :
    ')' ∉ joinedFlags (keptFlags list) := by
  intro hmem
  cases hkept : keptFlags list with
  | nil =>
    rw [hkept] at hmem
    cases hmem
  | cons first others =>
    rw [hkept, joinedFlags_cons] at hmem
    have hparts : ∀ t ∈ first :: others, ')' ∉ t := by
      rw [← hkept]
      exact fun t ht hclose => hlist ((mem_keptFlags ht).2.2 _ hclose)
    rcases mem_intercalate hmem with h | ⟨part, hpart, h⟩
    · exact absurd h (by decide)
    · rcases List.mem_cons.mp hpart with rfl | hpart
      · exact hparts part List.mem_cons_self h
      · obtain ⟨t, ht, rfl⟩ := List.mem_map.mp hpart
        rcases List.mem_cons.mp h with h | h
        · exact absurd h (by decide)
        · exact hparts t (List.mem_cons_of_mem _ ht) h

def newClause (list : Text) : Text :=
  if keptFlags list = [] then [] else flagsText (joinedFlags (keptFlags list))

theorem flipClause_clause {gap list : Text} (hne : gap ≠ []) (hgap : ∀ c ∈ gap, isSpace c = true)
    (hlist : ')' ∉ list) :
    flipClause (clauseText gap list) = newClause list := by
  have hfind : apparmorFlagsClauseRegexp.find (clauseText gap list) =
      some ⟨clauseText gap list, [], [(1, list)]⟩ := by
    have hfirst : apparmorFlagsClauseRegexp.first none
        (clauseText gap list ++ []) = some ⟨clauseText gap list, [], [(1, list)]⟩ :=
      first_clause hne hgap hlist []
    rw [List.append_nil] at hfirst
    exact Regex.findFrom_first hfirst
  rw [flipClause, hfind]
  rfl

theorem initial_of_initial_append {word a b : Text} (hb : ∀ c, b.head? = some c → c ∉ word)
    (hpre : word <+: a ++ b) : word <+: a := by
  rcases List.prefix_or_prefix_of_prefix hpre (List.prefix_append a b) with h | h
  · exact h
  · obtain ⟨tail, rfl⟩ := h
    rw [List.prefix_append_right_inj] at hpre
    cases tail with
    | nil => simp
    | cons c tail =>
      obtain ⟨more, rfl⟩ := hpre
      exact absurd (List.mem_append_right a List.mem_cons_self) (hb c rfl)

theorem flagsFree_of_absent {a b : Text} (ha : ¬ "flags=(".toList <:+: a)
    (hb : ∀ c, b.head? = some c → c ∉ "flags=(".toList) :
    FlagsFree a b := by
  induction a with
  | nil => exact fun _ _ => trivial
  | cons c a ih =>
    have hrest : ¬ "flags=(".toList <:+: a := fun h => ha (h.trans (List.suffix_cons c a).isInfix)
    exact flagsFree_cons
      (fun _ hpre => hrest (initial_of_initial_append hb hpre).isInfix) (ih hrest)

structure FlaggedProfile where
  before : Text
  nameGap : Text
  name : Text
  gap : Text
  list : Text
  braceGap : Text
  after : Text
  name_ne_nil : name ≠ []
  name_not_space : ∀ c ∈ name, isSpace c = false
  gap_ne_nil : gap ≠ []
  gap_space : ∀ c ∈ gap, isSpace c = true
  list_closed : ')' ∉ list
  braceGap_space : ∀ c ∈ braceGap, isSpace c = true
  head_free :
    ¬ "flags=(".toList <:+: before ++ ("profile".toList ++ (nameGap ++ name))
  rest_free : ¬ "flags=(".toList <:+: braceGap ++ ('\x7b' :: after)

namespace FlaggedProfile

variable (p : FlaggedProfile)

def head : Text :=
  p.before ++ ("profile".toList ++ (p.nameGap ++ p.name))

def rest : Text :=
  p.braceGap ++ ('\x7b' :: p.after)

def text : Text :=
  p.head ++ (clauseText p.gap p.list ++ p.rest)

theorem not_mem_of_isSpace {c : Char} (hc : isSpace c = true) :
    c ∉ "flags=(".toList := by
  intro hmem
  have hall : "flags=(".toList.all (fun c => decide (isSpace c = false)) = true := by
    decide
  rw [forall_mem_of_all hall c hmem] at hc
  cases hc

theorem head_last : p.head.getLast?.any isSpace = false := by
  have hspace := p.name_not_space _ (List.getLast_mem p.name_ne_nil)
  rw [head, ← List.append_assoc, ← List.append_assoc,
    List.getLast?_append_of_ne_nil _ p.name_ne_nil,
    List.getLast?_eq_some_getLast p.name_ne_nil]
  exact hspace

theorem rest_head {c : Char} (hc : p.rest.head? = some c) :
    c ∉ "flags=(".toList := by
  rw [rest] at hc
  cases hgap : p.braceGap with
  | nil =>
    rw [hgap] at hc
    cases hc
    decide
  | cons d gap =>
    rw [hgap] at hc
    cases hc
    exact not_mem_of_isSpace (p.braceGap_space _ (hgap ▸ List.mem_cons_self))

theorem silent_head {b : Text} (hb : ∀ c, b.head? = some c → c ∉ "flags=(".toList) :
    apparmorFlagsClauseRegexp.Silent none p.head b :=
  silent_flagsClause (flagsFree_of_absent p.head_free hb) (Or.inl p.head_last)

theorem silent_rest (last : Option Char) : apparmorFlagsClauseRegexp.Silent last p.rest [] :=
  silent_flagsClause (flagsFree_of_absent p.rest_free (by simp)) (Or.inr rfl)

theorem flip_clause {gap list : Text} (hne : gap ≠ []) (hgap : ∀ c ∈ gap, isSpace c = true)
    (hlist : ')' ∉ list) :
    flipApparmorComplainToEnforce (p.head ++ (clauseText gap list ++ p.rest)) =
      p.head ++ (newClause list ++ p.rest) := by
  have hhead : ∀ c, (clauseText gap list ++ p.rest).head? = some c →
      c ∉ "flags=(".toList := by
    obtain ⟨d, gap, rfl⟩ := List.exists_cons_of_ne_nil hne
    intro c hc
    cases hc
    exact not_mem_of_isSpace (hgap d List.mem_cons_self)
  have hclause : clauseText gap list ≠ [] := fun h => hne (List.append_eq_nil_iff.mp h).1
  have hfirst : apparmorFlagsClauseRegexp.first (lastOf none p.head)
      (clauseText gap list ++ p.rest) = some ⟨clauseText gap list, p.rest, [(1, list)]⟩ :=
    first_clause hne hgap hlist p.rest
  rw [flipApparmorComplainToEnforce, Regex.replaceAll,
    Regex.replaceFrom_append (p.silent_head hhead),
    Regex.replaceFrom_hit hfirst hclause,
    flipClause_clause hne hgap hlist, Regex.replaceFrom_silent (p.silent_rest _)]

theorem flip_none : flipApparmorComplainToEnforce (p.head ++ p.rest) = p.head ++ p.rest := by
  rw [flipApparmorComplainToEnforce, Regex.replaceAll,
    Regex.replaceFrom_append (p.silent_head (fun _ hc => p.rest_head hc)),
    Regex.replaceFrom_silent (p.silent_rest _)]

end FlaggedProfile

end Runc.Scanner
