import Mathlib.Data.List.Basic
import Mathlib.Data.List.Lex
import Mathlib.Data.List.Sort
import Mathlib.Data.List.TakeWhile
import Mathlib.Data.Char

/-!
# Byte strings

A string of a Go program is a sequence of bytes.  It is modelled as a list of
characters, one for each byte, so that ASCII text reads as itself.
-/

namespace Runc.Lib

abbrev Text := List Char

instance : LawfulBEq Text :=
  inferInstance

def isSpace (c : Char) : Bool :=
  c = ' ' || c = '\t' || c = '\n' || c = '\x0c' || c = '\r'

def isDigit (c : Char) : Bool :=
  '0' ≤ c && c ≤ '9'

def isUpper (c : Char) : Bool :=
  'A' ≤ c && c ≤ 'Z'

def isLower (c : Char) : Bool :=
  'a' ≤ c && c ≤ 'z'

def isWord (c : Char) : Bool :=
  isLower c || isUpper c || isDigit c || c = '_'

variable {c : Char}

theorem isDigit_of_mem_toDigits {n : Nat} (hc : c ∈ Nat.toDigits 10 n) : isDigit c = true := by
  have hdigit := Nat.isDigit_of_mem_toDigits (by omega) (by omega) hc
  simp only [Char.isDigit, Bool.and_eq_true, decide_eq_true_eq] at hdigit
  simp only [isDigit, Bool.and_eq_true, decide_eq_true_eq]
  exact hdigit

def intLiteral (n : Int) : Text :=
  if n < 0 then '-' :: Nat.toDigits 10 n.natAbs else Nat.toDigits 10 n.natAbs

theorem mem_intLiteral {n : Int} (hc : c ∈ intLiteral n) : c = '-' ∨ isDigit c = true := by
  rw [intLiteral] at hc
  split at hc
  · exact (List.mem_cons.mp hc).imp_right isDigit_of_mem_toDigits
  · exact Or.inr (isDigit_of_mem_toDigits hc)

theorem intLiteral_natCast (n : Nat) : intLiteral n = Nat.toDigits 10 n :=
  if_neg (by omega)

theorem intLiteral_ne_nil (n : Int) : intLiteral n ≠ [] := by
  rw [intLiteral]
  split
  · nofun
  · exact Nat.toDigits_ne_nil

theorem isSpace_of_isWord (hc : isWord c = true) : isSpace c = false := by
  by_contra hspace
  rw [Bool.not_eq_false] at hspace
  simp only [isSpace, Bool.or_eq_true, decide_eq_true_eq] at hspace
  rcases hspace with (((rfl | rfl) | rfl) | rfl) | rfl <;> revert hc <;> decide

theorem forall_mem_of_all {P : Char → Prop} [DecidablePred P] {t : Text}
    (h : t.all (fun c => decide (P c)) = true) : ∀ c ∈ t, P c :=
  fun c hc => of_decide_eq_true (List.all_eq_true.mp h c hc)

theorem of_literal {P : Text → Prop} {s : String} {l : Text} (hs : s = String.ofList l) (h : P l) :
    P s.toList := by
  rw [hs, String.toList_ofList]
  exact h

section Search

variable {needle : Text}

def index (needle : Text) : Text → Option Nat
  | [] => if needle = [] then some 0 else none
  | c :: rest =>
      if needle.isPrefixOf (c :: rest) then some 0
      else (index needle rest).map (· + 1)

def contains (hay needle : Text) : Bool :=
  (index needle hay).isSome

def Clear (needle : Text) : Text → Text → Prop
  | [], _ => True
  | c :: a, b => ¬ needle <+: c :: (a ++ b) ∧ Clear needle a b

@[simp]
theorem clear_nil (b : Text) : Clear needle [] b :=
  trivial

variable {a b : Text}

@[simp]
theorem clear_cons {c : Char} :
    Clear needle (c :: a) b ↔
      ¬ needle <+: c :: (a ++ b) ∧ Clear needle a b :=
  Iff.rfl

theorem clear_append {a' : Text} :
    Clear needle (a ++ a') b ↔
      Clear needle a (a' ++ b) ∧ Clear needle a' b := by
  induction a with
  | nil => simp
  | cons c a ih => simp only [List.cons_append, clear_cons, ih, List.append_assoc, and_assoc]

theorem Clear.of_initial {short : Text} (h : Clear short a b) (hshort : short <+: needle) :
    Clear needle a b := by
  induction a with
  | nil => trivial
  | cons c a ih => exact ⟨fun hn => h.1 (hshort.trans hn), ih h.2⟩

theorem clear_of_not_mem {x : Char} (hx : x ∉ a) : Clear (x :: needle) a b := by
  induction a with
  | nil => trivial
  | cons c a ih =>
    simp only [List.mem_cons, not_or] at hx
    refine ⟨?_, ih hx.2⟩
    rintro ⟨t, ht⟩
    exact hx.1 (List.cons.inj ht).1

def differs : Text → Text → Bool
  | x :: a, y :: b => x ≠ y || differs a b
  | _, _ => false

theorem not_initial_of_differs {t : Text} (h : differs needle t = true) (b : Text) :
    ¬ needle <+: t ++ b := by
  induction needle generalizing t with
  | nil => simp [differs] at h
  | cons x needle ih =>
    cases t with
    | nil => simp [differs] at h
    | cons y t =>
      rintro ⟨u, hu⟩
      obtain ⟨rfl, htail⟩ := List.cons.inj hu
      simp only [differs, ne_eq, not_true_eq_false, decide_false, Bool.false_or] at h
      exact ih h ⟨u, htail⟩

def clearCheck (needle : Text) : Text → Bool
  | [] => true
  | c :: a => differs needle (c :: a) && clearCheck needle a

theorem clear_of_check (ha : clearCheck needle a = true) (b : Text) : Clear needle a b := by
  induction a with
  | nil => trivial
  | cons c a ih =>
    rw [clearCheck, Bool.and_eq_true] at ha
    exact ⟨not_initial_of_differs ha.1 b, ih ha.2⟩

theorem index_append_of_clear (h : Clear needle a b) :
    index needle (a ++ b) = (index needle b).map (· + a.length) := by
  induction a with
  | nil => simp
  | cons c a ih =>
    have hno : needle.isPrefixOf (c :: (a ++ b)) = false := by
      rw [← Bool.not_eq_true, List.isPrefixOf_iff_prefix]
      exact h.1
    rw [List.cons_append, index, if_neg (by simp [hno]), ih h.2]
    simp [Function.comp_def, Nat.add_assoc]

theorem index_self_append (b : Text) : index needle (needle ++ b) = some 0 := by
  cases hn : needle ++ b with
  | nil =>
    rw [List.append_eq_nil_iff] at hn
    simp [index, hn.1]
  | cons c rest =>
    have hpre : needle.isPrefixOf (c :: rest) = true := by
      rw [List.isPrefixOf_iff_prefix, ← hn]
      exact List.prefix_append needle b
    simp [index, hpre]

theorem index_of_clear (h : Clear needle a (needle ++ b)) :
    index needle (a ++ (needle ++ b)) = some a.length := by
  rw [index_append_of_clear h, index_self_append]
  simp

theorem index_eq_none_of_clear (hneedle : needle ≠ []) (h : Clear needle a []) :
    index needle a = none := by
  have happ := index_append_of_clear h
  simpa [index, hneedle] using happ

theorem contains_eq_false_of_clear (hneedle : needle ≠ []) (h : Clear needle a []) :
    contains a needle = false := by
  simp [contains, index_eq_none_of_clear hneedle h]

theorem contains_middle (a b : Text) : contains (a ++ (needle ++ b)) needle = true := by
  induction a with
  | nil => simp [contains, index_self_append]
  | cons c a ih =>
    unfold contains at ih ⊢
    rw [List.cons_append, index]
    split
    · rfl
    · simpa using ih

def occurrences (needle : Text) : Text → Nat
  | [] => 0
  | c :: rest =>
      (if needle.isPrefixOf (c :: rest) then 1 else 0) + occurrences needle rest

theorem occurrences_append_of_clear (h : Clear needle a b) :
    occurrences needle (a ++ b) = occurrences needle b := by
  induction a with
  | nil => rfl
  | cons c a ih =>
    have hno : ¬ needle.isPrefixOf (c :: (a ++ b)) = true := by
      rw [List.isPrefixOf_iff_prefix]
      exact h.1
    rw [List.cons_append, occurrences, if_neg hno, ih h.2, Nat.zero_add]

theorem occurrences_eq_zero_of_clear (h : Clear needle a []) : occurrences needle a = 0 := by
  have happ := occurrences_append_of_clear h
  rwa [List.append_nil] at happ

theorem occurrences_eq_one {x : Char} (ha : Clear (x :: needle) a ((x :: needle) ++ b))
    (hb : Clear (x :: needle) (needle ++ b) []) :
    occurrences (x :: needle) (a ++ ((x :: needle) ++ b)) = 1 := by
  have hhere : (x :: needle).isPrefixOf (x :: (needle ++ b)) = true :=
    List.isPrefixOf_iff_prefix.mpr (List.prefix_append (x :: needle) b)
  rw [occurrences_append_of_clear ha, List.cons_append, occurrences,
    if_pos hhere, occurrences_eq_zero_of_clear hb]

theorem initial_of_not_mem {c : Char} (hc : c ∉ needle) (h : needle <+: a ++ c :: b) :
    needle <+: a := by
  have hcut : a ++ [c] <+: a ++ c :: b := ⟨b, by simp⟩
  rcases List.prefix_or_prefix_of_prefix h hcut with hshort | hlong
  · rcases List.prefix_concat_iff.mp hshort with rfl | hshort
    · exact absurd (by simp) hc
    · exact hshort
  · exact absurd (hlong.subset (by simp)) hc

end Search

section Trim

def spaceEncodings : List Text :=
  [['\t'], ['\n'], ['\x0b'], ['\x0c'], ['\r'], [' '],
    ['\xc2', '\x85'], ['\xc2', '\xa0'], ['\xe1', '\x9a', '\x80'],
    ['\xe2', '\x80', '\x80'], ['\xe2', '\x80', '\x81'],
    ['\xe2', '\x80', '\x82'], ['\xe2', '\x80', '\x83'],
    ['\xe2', '\x80', '\x84'], ['\xe2', '\x80', '\x85'],
    ['\xe2', '\x80', '\x86'], ['\xe2', '\x80', '\x87'],
    ['\xe2', '\x80', '\x88'], ['\xe2', '\x80', '\x89'],
    ['\xe2', '\x80', '\x8a'], ['\xe2', '\x80', '\xa8'],
    ['\xe2', '\x80', '\xa9'], ['\xe2', '\x80', '\xaf'],
    ['\xe2', '\x81', '\x9f'], ['\xe3', '\x80', '\x80']]

def dropEncodings (encodings : List Text) : Nat → Text → Text
  | _, [] => []
  | skip + 1, _ :: rest => dropEncodings encodings skip rest
  | 0, c :: rest =>
      match encodings.find? (·.isPrefixOf (c :: rest)) with
      | none => c :: rest
      | some e => dropEncodings encodings (e.length - 1) rest

def trimSpace (t : Text) : Text :=
  let left := dropEncodings spaceEncodings 0 t
  (dropEncodings (spaceEncodings.map List.reverse) 0 left.reverse).reverse

variable {t : Text} {encodings : List Text}

theorem dropEncodings_of_word (hfront : ∀ e ∈ encodings, e.head?.any (fun c => !isWord c) = true)
    (ht : t.head?.all isWord = true) : dropEncodings encodings 0 t = t := by
  cases t with
  | nil => rfl
  | cons c rest =>
    have hnone :
        encodings.find? (·.isPrefixOf (c :: rest)) = none := by
      rw [List.find?_eq_none]
      intro e he hpre
      have hother := hfront e he
      obtain ⟨u, hu⟩ := List.isPrefixOf_iff_prefix.mp hpre
      cases e with
      | nil => cases hother
      | cons x tail =>
        obtain ⟨rfl, -⟩ := List.cons.inj hu
        rw [List.head?_cons, Option.all_some] at ht
        rw [List.head?_cons, Option.any_some, ht] at hother
        cases hother
    rw [dropEncodings, hnone]

theorem dropEncodings_suffix {skip : Nat} : dropEncodings encodings skip t <:+ t := by
  induction t generalizing skip with
  | nil => cases skip <;> exact List.suffix_refl _
  | cons c rest ih =>
    cases skip with
    | succ skip => exact ih.trans (List.suffix_cons c rest)
    | zero =>
      rw [dropEncodings]
      split
      · exact List.suffix_refl _
      · exact ih.trans (List.suffix_cons c rest)

theorem dropEncodings_clean {e : Text} (he : e ∈ encodings) (hne : e ≠ []) (skip : Nat) (t : Text) :
    ¬ e <+: dropEncodings encodings skip t := by
  induction t generalizing skip with
  | nil => cases skip <;> exact fun h => hne (List.prefix_nil.mp h)
  | cons c rest ih =>
    cases skip with
    | succ skip => exact ih skip
    | zero =>
      rw [dropEncodings]
      split
      · rename_i hnone
        intro hpre
        exact List.find?_eq_none.mp hnone e he (List.isPrefixOf_iff_prefix.mpr hpre)
      · exact ih _

theorem dropEncodings_of_clean (h : ∀ e ∈ encodings, ¬ e <+: t) :
    dropEncodings encodings 0 t = t := by
  cases t with
  | nil => rfl
  | cons c rest =>
    have hnone : encodings.find? (·.isPrefixOf (c :: rest)) = none := by
      rw [List.find?_eq_none]
      exact fun e he hpre => h e he (List.isPrefixOf_iff_prefix.mp hpre)
    rw [dropEncodings, hnone]

theorem spaceEncodings_ne_nil : ∀ e ∈ spaceEncodings, e ≠ [] := by
  decide

theorem trimSpace_initial (t : Text) : trimSpace t <+: dropEncodings spaceEncodings 0 t := by
  have hsuffix : dropEncodings (spaceEncodings.map List.reverse) 0
      (dropEncodings spaceEncodings 0 t).reverse <:+ (dropEncodings spaceEncodings 0 t).reverse :=
    dropEncodings_suffix
  rw [← List.reverse_prefix, List.reverse_reverse] at hsuffix
  exact hsuffix

theorem mem_of_mem_trimSpace {c : Char} (hc : c ∈ trimSpace t) : c ∈ t :=
  dropEncodings_suffix.subset ((trimSpace_initial t).subset hc)

theorem trimSpace_trimSpace (t : Text) : trimSpace (trimSpace t) = trimSpace t := by
  have hfront : ∀ e ∈ spaceEncodings, ¬ e <+: trimSpace t :=
    fun e he hpre => dropEncodings_clean he (spaceEncodings_ne_nil e he) 0 t
      (hpre.trans (trimSpace_initial t))
  have hback : ∀ e ∈ spaceEncodings.map List.reverse,
      ¬ e <+: (trimSpace t).reverse := by
    intro e he
    rw [trimSpace, List.reverse_reverse]
    refine dropEncodings_clean he ?_ 0 _
    obtain ⟨e', he', rfl⟩ := List.mem_map.mp he
    exact fun h => spaceEncodings_ne_nil e' he' (List.reverse_eq_nil_iff.mp h)
  conv_lhs => rw [trimSpace]
  rw [dropEncodings_of_clean hfront, dropEncodings_of_clean hback, List.reverse_reverse]

theorem trimSpace_blank (t : Text) : trimSpace (' ' :: t) = trimSpace t :=
  rfl

theorem spaceEncodings_head : ∀ e ∈ spaceEncodings, e.head?.any (fun c => !isWord c) = true := by
  decide

theorem spaceEncodings_last :
    ∀ e ∈ spaceEncodings.map List.reverse,
      e.head?.any (fun c => !isWord c) = true := by
  decide

theorem trimSpace_of_word (ht : ∀ c ∈ t, isWord c = true) : trimSpace t = t := by
  have hhead : ∀ {u : Text}, (∀ c ∈ u, c ∈ t) → u.head?.all isWord = true := by
    intro u hu
    cases u with
    | nil => rfl
    | cons c rest => simpa using ht c (hu c List.mem_cons_self)
  rw [trimSpace, dropEncodings_of_word spaceEncodings_head (hhead fun _ hc => hc),
    dropEncodings_of_word spaceEncodings_last (hhead fun _ hc => List.mem_reverse.mp hc),
    List.reverse_reverse]

theorem trimSpace_newline (hne : t ≠ []) (ht : ∀ c ∈ t, isWord c = true) :
    trimSpace (t ++ ['\n']) = t := by
  have hfront : (t ++ ['\n']).head?.all isWord = true := by
    cases t with
    | nil => exact absurd rfl hne
    | cons c rest => simpa using ht c List.mem_cons_self
  have hback : t.reverse.head?.all isWord = true := by
    rw [List.head?_reverse, List.getLast?_eq_some_getLast hne, Option.all_some]
    exact ht _ (List.getLast_mem hne)
  have hnewline : ∀ u : Text, dropEncodings (spaceEncodings.map List.reverse) 0 ('\n' :: u) =
        dropEncodings (spaceEncodings.map List.reverse) 0 u := by
    intro u
    rfl
  rw [trimSpace, dropEncodings_of_word spaceEncodings_head hfront,
    List.reverse_append, List.reverse_singleton, List.singleton_append, hnewline,
    dropEncodings_of_word spaceEncodings_last hback, List.reverse_reverse]

end Trim

def rawLines (t : Text) : List Text :=
  let parts := t.splitOn '\n'
  if parts.getLast? = some [] then parts.dropLast else parts

def dropCR (line : Text) : Text :=
  if line.getLast? = some '\r' then line.dropLast else line

def scanLines (limit : Nat) (t : Text) : List Text :=
  ((rawLines t).takeWhile (·.length < limit)).map dropCR

theorem rawLines_flatMap {lines : List Text} (hlines : ∀ line ∈ lines, '\n' ∉ line) :
    rawLines (lines.flatMap (· ++ ['\n'])) = lines := by
  have hjoin : lines.flatMap (· ++ ['\n']) = ['\n'].intercalate (lines ++ [[]]) := by
    clear hlines
    induction lines with
    | nil => rfl
    | cons line lines ih =>
      rw [List.flatMap_cons, ih]
      cases lines with
      | nil => simp [List.intercalate]
      | cons => simp [List.intercalate]
  have hsplit : (lines.flatMap (· ++ ['\n'])).splitOn '\n' = lines ++ [[]] := by
    rw [hjoin]
    refine List.splitOn_intercalate '\n' ?_ (by simp)
    simpa [or_imp, forall_and] using hlines
  rw [rawLines, hsplit]
  simp

theorem rawLines_line {line : Text} (hline : '\n' ∉ line) : rawLines (line ++ ['\n']) = [line] := by
  have h : rawLines ([line].flatMap (· ++ ['\n'])) = [line] :=
    rawLines_flatMap (by simpa using hline)
  simpa using h

theorem scanLines_of_fit {limit : Nat} {t : Text}
    (hfit : ∀ line ∈ rawLines t, line.length < limit) :
    scanLines limit t = (rawLines t).map dropCR := by
  rw [scanLines, List.takeWhile_eq_self_iff.mpr]
  exact fun line hline => decide_eq_true (hfit line hline)

/-- `sort.Strings`. -/
def sortStrings (l : List Text) : List Text :=
  l.insertionSort (· ≤ ·)

@[simp]
theorem mem_sortStrings {l : List Text} {t : Text} : t ∈ sortStrings l ↔ t ∈ l :=
  (List.perm_insertionSort _ l).mem_iff

theorem sortStrings_sortedLT {l : List Text} (hl : l.Nodup) : (sortStrings l).SortedLT := by
  rw [List.sortedLT_iff_nodup_and_sortedLE]
  exact ⟨(List.perm_insertionSort _ l).nodup_iff.mpr hl, List.sortedLE_insertionSort⟩

theorem sortStrings_eq_iff {l l' : List Text} : sortStrings l = sortStrings l' ↔ l.Perm l' := by
  have hperm : ∀ l, (sortStrings l).Perm l := List.perm_insertionSort _
  constructor
  · intro h
    exact (hperm l).symm.trans (h ▸ hperm l')
  · intro h
    exact ((hperm l).trans (h.trans (hperm l').symm)).eq_of_sortedLE
      List.sortedLE_insertionSort List.sortedLE_insertionSort

end Runc.Lib
