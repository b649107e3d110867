import Runc.Lib.Regex
import Runc.Scanner.Bundle

/-!
# Capabilities from the trace

`parseCapsFromFile` reads the names out of generated/capable-bpfcc.log and
`narrowCapabilitiesFromTrace` puts them into the spec.
-/

namespace Runc.Scanner

open Lib

structure CapSet where
  names : List Text
  nodup : names.Nodup

namespace CapSet

/-- `capSet{}`. -/
def empty : CapSet :=
  ⟨[], List.nodup_nil⟩

/-- `s[name] = struct{}{}`. -/
def insert (s : CapSet) (name : Text) : CapSet :=
  ⟨s.names.insert name, s.nodup.insert⟩

/-- Blanks around the name are dropped, an empty name is not added. -/
def add (s : CapSet) (name : Text) : CapSet :=
  let name := trimSpace name
  if name = [] then s else s.insert name

def addFromList (s : CapSet) (names : List Text) : CapSet :=
  names.foldl add s

def len (s : CapSet) : Nat :=
  s.names.length

def sortedNames (s : CapSet) : List Text :=
  sortStrings s.names

def equals (s o : CapSet) : Bool :=
  s.len = o.len && s.names.all (· ∈ o.names)

variable {s : CapSet}

theorem mem_add {name n : Text} :
    n ∈ (s.add name).names ↔
      n ∈ s.names ∨ (n = trimSpace name ∧ n ≠ []) := by
  unfold add
  dsimp only
  split
  · rename_i hempty
    constructor
    · exact Or.inl
    · rintro (hn | ⟨rfl, hne⟩)
      · exact hn
      · exact absurd hempty hne
  · rename_i hne
    rw [insert, List.mem_insert_iff]
    constructor
    · rintro (rfl | hn)
      · exact Or.inr ⟨rfl, hne⟩
      · exact Or.inl hn
    · rintro (hn | ⟨rfl, -⟩)
      · exact Or.inr hn
      · exact Or.inl rfl

theorem mem_addFromList {names : List Text} {n : Text} :
    n ∈ (s.addFromList names).names ↔
      n ∈ s.names ∨ (n ≠ [] ∧ ∃ name ∈ names, n = trimSpace name) := by
  unfold addFromList
  induction names generalizing s with
  | nil => simp
  | cons name names ih =>
    rw [List.foldl_cons, ih, mem_add]
    simp only [List.mem_cons, exists_eq_or_imp]
    tauto

theorem equals_iff {o : CapSet} : s.equals o = true ↔ ∀ n, n ∈ s.names ↔ n ∈ o.names := by
  rw [equals, len, len, Bool.and_eq_true, decide_eq_true_iff, List.all_eq_true]
  simp only [decide_eq_true_eq]
  constructor
  · rintro ⟨hlen, hsub⟩ n
    have hperm : s.names.Perm o.names :=
      (List.subperm_of_subset s.nodup hsub).perm_of_length_le hlen.ge
    exact hperm.mem_iff
  · intro hiff
    refine ⟨?_, fun n hn => (hiff n).mp hn⟩
    exact ((List.perm_ext_iff_of_nodup s.nodup o.nodup).mpr hiff).length_eq

end CapSet

section Parse

def isCapChar (c : Char) : Bool :=
  isUpper c || isDigit c || c = '_'

/-- `CAP_[A-Z0-9_]+`. -/
def capName : Regex :=
  .seq (.text "CAP_".toList) (.plus isCapChar)

/-- `\b(CAP_[A-Z0-9_]+)\b`. -/
def capNameRegexp : Regex :=
  .seq .wordBoundary (.seq (.group 1 capName) .wordBoundary)

/-- A file that cannot be read gives no names. -/
def parseCapsFromFile (file : Option Text) : List Text :=
  match file with
  | none => []
  | some b =>
      ((capNameRegexp.findAll b).foldl
        (fun seen m => seen.add (m.group 1)) CapSet.empty).sortedNames

/-- A name of the form `CAP_[A-Z0-9_]+`. -/
def IsCapName (n : Text) : Prop :=
  ∃ tail, n = "CAP_".toList ++ tail ∧ tail ≠ [] ∧
    ∀ c ∈ tail, isCapChar c = true

def WordOf (n t : Text) : Prop :=
  ∃ before after, t = before ++ (n ++ after) ∧
    before.getLast?.any isWord = false ∧ after.head?.any isWord = false

def Observed (n t : Text) : Prop :=
  IsCapName n ∧ WordOf n t

theorem isWord_of_isCapChar {c : Char} (hc : isCapChar c = true) : isWord c = true := by
  simp only [isCapChar, isWord, Bool.or_eq_true] at hc ⊢
  tauto

theorem IsCapName.word {n : Text} (hn : IsCapName n) {c : Char} (hc : c ∈ n) : isWord c = true := by
  obtain ⟨tail, rfl, -, htail⟩ := hn
  have hfixed : ∀ c ∈ "CAP_".toList, isWord c = true := forall_mem_of_all (by decide)
  rcases List.mem_append.mp hc with hc | hc
  · exact hfixed c hc
  · exact isWord_of_isCapChar (htail c hc)

variable {n : Text}

theorem IsCapName.ne_nil (hn : IsCapName n) : n ≠ [] := by
  obtain ⟨tail, rfl, -, -⟩ := hn
  exact List.cons_ne_nil _ _

theorem IsCapName.trimSpace_eq (hn : IsCapName n) : trimSpace n = n :=
  trimSpace_of_word (fun _ hc => hn.word hc)

variable {t : Text} {last : Option Char}

theorem mem_capName {h : Hit} (hh : h ∈ capName.results last t) :
    IsCapName h.taken ∧ h.groups = [] := by
  obtain ⟨x, hx, y, hy, rfl⟩ := Regex.mem_results_seq.mp hh
  obtain ⟨-, hxt, hxg⟩ := Regex.mem_results_text.mp hx
  obtain ⟨-, hyne, hyall, hyg⟩ := Regex.mem_results_plus.mp hy
  refine ⟨⟨y.taken, ?_, hyne, hyall⟩, ?_⟩
  · rw [← hxt]
    rfl
  · simp [Hit.append, hxg, hyg]

theorem IsCapName.lastOf_word (hn : IsCapName n) (last : Option Char) :
    (lastOf last n).any isWord = true := by
  have hne := hn.ne_nil
  have hlast := hn.word (List.getLast_mem hne)
  rw [lastOf, List.getLast?_eq_some_getLast hne]
  simpa using hlast

theorem IsCapName.head_word (hn : IsCapName n) (rest : Text) :
    (n ++ rest).head?.any isWord = true := by
  obtain ⟨tail, rfl, -, -⟩ := hn
  rfl

theorem mem_capNameRegexp {h : Hit} (hh : h ∈ capNameRegexp.results last t) :
    IsCapName h.taken ∧ last.any isWord = false ∧
      h.rest.head?.any isWord = false ∧ h.group 1 = h.taken := by
  obtain ⟨x, hx, y, hy, rfl⟩ := Regex.mem_results_seq.mp hh
  obtain ⟨hstart, rfl⟩ := Regex.mem_results_wordBoundary.mp hx
  obtain ⟨u, hu, v, hv, rfl⟩ := Regex.mem_results_seq.mp hy
  obtain ⟨w, hw, rfl⟩ := Regex.mem_results_group.mp hu
  obtain ⟨hend, rfl⟩ := Regex.mem_results_wordBoundary.mp hv
  obtain ⟨hname, hgroups⟩ := mem_capName hw
  have hsplit := Regex.results_split hw
  dsimp only [Hit.append, Hit.last, Hit.group, lastOf_nil] at hsplit hend ⊢
  simp only [List.nil_append, List.append_nil] at hend ⊢
  rw [atWordBoundary, hname.lastOf_word] at hend
  rw [atWordBoundary, ← hsplit, hname.head_word] at hstart
  refine ⟨hname, ?_, ?_, ?_⟩
  · simpa using hstart
  · simpa using hend
  · rw [List.lookup_cons_self]
    rfl

theorem first_capNameRegexp {rest : Text} (hn : IsCapName n)
    (hlast : last.any isWord = false) (hrest : rest.head?.any isWord = false) :
    capNameRegexp.first last (n ++ rest) =
      some ⟨n, rest, [(1, n)]⟩ := by
  have hcap : rest.head?.any isCapChar = false := by
    cases hhead : rest.head? with
    | none => rfl
    | some c =>
      rw [hhead] at hrest
      by_contra hc
      have hword : isWord c = true := isWord_of_isCapChar (by simpa using hc)
      simp [hword] at hrest
  have hstart : atWordBoundary last (n ++ rest).head? = true := by
    rw [atWordBoundary, hn.head_word, hlast]
    rfl
  have hend : atWordBoundary (lastOf last n) rest.head? = true := by
    rw [atWordBoundary, hn.lastOf_word, hrest]
    rfl
  have hname : capName.first last (n ++ rest) = some ⟨n, rest, []⟩ := by
    obtain ⟨tail, rfl, hne, htail⟩ := hn
    exact Regex.first_seq (Regex.first_text _ _) (Regex.first_plus hne htail hcap)
  have hgroup : (Regex.seq (.group 1 capName) .wordBoundary).first last (n ++ rest) =
        some ⟨n, rest, [(1, n)]⟩ := by
    have h := Regex.first_seq (Regex.first_group (n := 1) hname) (Regex.first_wordBoundary hend)
    simpa [Hit.append] using h
  exact Regex.first_seq (Regex.first_wordBoundary hstart) hgroup

theorem mem_findAll_capNameRegexp :
    (∃ m ∈ capNameRegexp.findAll t, m.group 1 = n) ↔ Observed n t := by
  constructor
  · rintro ⟨m, hm, rfl⟩
    obtain ⟨before, ht, hfirst⟩ := Regex.mem_findAllFrom hm
    obtain ⟨hname, hlast, hrest, hgroup⟩ := mem_capNameRegexp (Regex.first_mem hfirst)
    rw [hgroup]
    refine ⟨hname, before, m.rest, ht, ?_, hrest⟩
    simpa [lastOf] using hlast
  · rintro ⟨hname, before, after, rfl, hbefore, hafter⟩
    have hlast : (lastOf none before).any isWord = false := by
      simpa [lastOf] using hbefore
    refine ⟨⟨n, after, [(1, n)]⟩, ?_, rfl⟩
    refine Regex.mem_findAllFrom_of_first (Nat.zero_le _) ?_
      (first_capNameRegexp hname hlast hafter) ?_
    · simp [hname.ne_nil]
    · -- a match that reaches into the name has a word character in front of it
      intro x y hxy hy h' hfirst
      by_contra hlong
      obtain ⟨hname', -, -, -⟩ := mem_capNameRegexp (Regex.first_mem hfirst)
      have hsplit := Regex.first_split hfirst
      obtain ⟨z, hz⟩ : y <+: h'.taken := by
        refine List.prefix_of_prefix_length_le (List.prefix_append y (n ++ after)) ?_ (by omega)
        rw [← hsplit]
        exact List.prefix_append _ _
      have hword : isWord (y.getLast hy) = true := by
        refine hname'.word ?_
        rw [← hz]
        exact List.mem_append_left _ (List.getLast_mem hy)
      rw [hxy, List.getLast?_append_of_ne_nil _ hy, List.getLast?_eq_some_getLast hy] at hbefore
      simp [hword] at hbefore

theorem mem_parseCapsFromFile : n ∈ parseCapsFromFile (some t) ↔ Observed n t := by
  have hfold : ∀ (l : List Hit) (s : CapSet), l.foldl (fun seen m => seen.add (m.group 1)) s =
        s.addFromList (l.map (·.group 1)) := by
    intro l s
    rw [CapSet.addFromList, List.foldl_map]
  have htrim : ∀ m ∈ capNameRegexp.findAll t,
      IsCapName (m.group 1) := by
    intro m hm
    exact (mem_findAll_capNameRegexp.mp ⟨m, hm, rfl⟩).1
  rw [parseCapsFromFile, CapSet.sortedNames, mem_sortStrings, hfold,
    CapSet.mem_addFromList, ← mem_findAll_capNameRegexp]
  simp only [CapSet.empty, List.not_mem_nil, false_or, List.mem_map]
  constructor
  · rintro ⟨-, name, ⟨m, hm, rfl⟩, rfl⟩
    exact ⟨m, hm, (htrim m hm).trimSpace_eq.symm⟩
  · rintro ⟨m, hm, rfl⟩
    exact ⟨(htrim m hm).ne_nil, _, ⟨m, hm, rfl⟩, (htrim m hm).trimSpace_eq.symm⟩

instance (n t : Text) : Decidable (Observed n t) :=
  decidable_of_iff _ mem_parseCapsFromFile

theorem not_observed_nil (n : Text) : ¬ Observed n [] := by
  rintro ⟨hname, before, after, ht, -, -⟩
  have hn := (List.append_eq_nil_iff.mp (List.append_eq_nil_iff.mp ht.symm).2).1
  exact hname.ne_nil hn

theorem observed_append {old new : Text} (hnew : new.head?.any isWord = false) :
    Observed n (old ++ new) ↔ Observed n old ∨ Observed n new := by
  constructor
  · rintro ⟨hname, before, after, ht, hbefore, hafter⟩
    rcases List.append_eq_append_iff.mp ht with
      ⟨x, rfl, hx⟩ | ⟨x, rfl, hx⟩
    · refine Or.inr ⟨hname, x, after, hx, ?_, hafter⟩
      cases x with
      | nil => rfl
      | cons c x => rwa [List.getLast?_append_of_ne_nil _ (List.cons_ne_nil c x)] at hbefore
    · rcases List.append_eq_append_iff.mp hx with
        ⟨y, rfl, rfl⟩ | ⟨y, rfl, rfl⟩
      · refine Or.inl ⟨hname, before, y, rfl, hbefore, ?_⟩
        cases y with
        | nil => rfl
        | cons c y => exact hafter
      · cases y with
        | nil =>
          refine Or.inl ⟨hname, before, [], ?_, hbefore, rfl⟩
          simp
        | cons c y =>
          have hc : isWord c = true := hname.word (by simp)
          simp [hc] at hnew
  · rintro (⟨hname, before, after, rfl, hbefore, hafter⟩ |
      ⟨hname, before, after, rfl, hbefore, hafter⟩)
    · refine ⟨hname, before, after ++ new, by simp, hbefore, ?_⟩
      cases after with
      | nil => exact hnew
      | cons c after => exact hafter
    · refine ⟨hname, old ++ before, after, by simp, ?_, hafter⟩
      cases before with
      | nil =>
        rw [List.nil_append, hname.head_word] at hnew
        cases hnew
      | cons c before => rwa [List.getLast?_append_of_ne_nil _ (List.cons_ne_nil c before)]

end Parse

section Narrow

def Spec.capabilities (spec : Spec) : LinuxCapabilities :=
  ((spec.process.bind (·.capabilities))).getD {}

/-- `spec.Process.Capabilities.… = names`, for all five sets. -/
def Spec.setCapabilities (spec : Spec) (names : List Text) : Spec :=
  { spec with
    process := some
      { spec.process.getD {} with
        capabilities := some (LinuxCapabilities.all names) } }

def discoveredCaps (trace : Option Text) : CapSet :=
  CapSet.empty.addFromList (parseCapsFromFile trace)

def currentCaps (spec : Spec) : CapSet :=
  CapSet.empty.addFromList spec.capabilities.bounding

/-- Whether the spec changed, and the spec. -/
def narrowCapabilitiesFromTrace (spec : Spec) (trace : Option Text) : Bool × Spec :=
  let discovered := discoveredCaps trace
  if discovered.equals (currentCaps spec) then (false, spec)
  else (true, spec.setCapabilities discovered.sortedNames)

@[simp]
theorem capabilities_setCapabilities (spec : Spec) (names : List Text) :
    (spec.setCapabilities names).capabilities = .all names :=
  rfl

theorem mem_discoveredCaps {trace : Option Text} {n : Text} :
    n ∈ (discoveredCaps trace).names ↔ Observed n (trace.getD []) := by
  rw [discoveredCaps, CapSet.mem_addFromList]
  simp only [CapSet.empty, List.not_mem_nil, false_or]
  cases trace with
  | none => simp [parseCapsFromFile, not_observed_nil]
  | some t =>
    constructor
    · rintro ⟨-, name, hname, rfl⟩
      have hobs := mem_parseCapsFromFile.mp hname
      rw [hobs.1.trimSpace_eq]
      exact hobs
    · intro hobs
      exact ⟨hobs.1.ne_nil, n, mem_parseCapsFromFile.mpr hobs, hobs.1.trimSpace_eq.symm⟩

def Matches (names : List Text) (trace : Text) : Prop :=
  ∀ n, n ∈ names ↔ Observed n trace

variable {trace : Text}

theorem matches_iff_parse {names : List Text} :
    Matches names trace ↔
      (∀ n ∈ names, Observed n trace) ∧
        ∀ n ∈ parseCapsFromFile (some trace), n ∈ names := by
  constructor
  · intro h
    exact ⟨fun n hn => (h n).mp hn, fun n hn => (h n).mpr (mem_parseCapsFromFile.mp hn)⟩
  · rintro ⟨hsub, hsup⟩ n
    exact ⟨hsub n, fun hn => hsup n (mem_parseCapsFromFile.mpr hn)⟩

instance (names : List Text) (trace : Text) : Decidable (Matches names trace) :=
  decidable_of_iff _ matches_iff_parse.symm

theorem matches_discoveredCaps (trace : Option Text) :
    Matches (discoveredCaps trace).sortedNames (trace.getD []) := by
  intro n
  rw [CapSet.sortedNames, mem_sortStrings, mem_discoveredCaps]

theorem discoveredCaps_equals_iff {spec : Spec} {trace : Option Text} :
    (discoveredCaps trace).equals (currentCaps spec) = true ↔
      Matches (currentCaps spec).names (trace.getD []) := by
  rw [CapSet.equals_iff]
  constructor
  · intro h n
    rw [← h n, mem_discoveredCaps]
  · intro h n
    rw [mem_discoveredCaps]
    exact (h n).symm

theorem matches_currentCaps {spec : Spec} (h : Matches spec.capabilities.bounding trace) :
    Matches (currentCaps spec).names trace := by
  intro n
  rw [currentCaps, CapSet.mem_addFromList]
  simp only [CapSet.empty, List.not_mem_nil, false_or]
  constructor
  · rintro ⟨-, name, hname, rfl⟩
    have hobs := (h name).mp hname
    rw [hobs.1.trimSpace_eq]
    exact hobs
  · intro hobs
    exact ⟨hobs.1.ne_nil, n, (h n).mpr hobs, hobs.1.trimSpace_eq.symm⟩

theorem matches_congr {names : List Text} {trace' : Text}
    (h : ∀ n, Observed n trace ↔ Observed n trace') :
    Matches names trace ↔ Matches names trace' := by
  simp only [Matches, h]

theorem narrowCapabilitiesFromTrace_bounding (spec : Spec) (trace : Option Text) :
    Matches (currentCaps (narrowCapabilitiesFromTrace spec trace).2).names
      (trace.getD []) := by
  unfold narrowCapabilitiesFromTrace
  dsimp only
  split
  · rename_i heq
    exact discoveredCaps_equals_iff.mp heq
  · exact matches_currentCaps (matches_discoveredCaps trace)

theorem narrowCapabilitiesFromTrace_sets (spec : Spec) (trace : Option Text) :
    (∀ s ∈ (narrowCapabilitiesFromTrace spec trace).2.capabilities.sets,
        Matches s (trace.getD [])) ↔
      (¬ Matches (currentCaps spec).names (trace.getD []) ∨
        ∀ s ∈ spec.capabilities.sets, Matches s (trace.getD [])) := by
  unfold narrowCapabilitiesFromTrace
  dsimp only
  split
  · rename_i heq
    rw [discoveredCaps_equals_iff] at heq
    constructor
    · exact Or.inr
    · rintro (hne | hall)
      · exact absurd heq hne
      · exact hall
  · rename_i hne
    rw [discoveredCaps_equals_iff] at hne
    constructor
    · exact fun _ => Or.inl hne
    · intro _ s hs
      have hs' : s = (discoveredCaps trace).sortedNames := by
        simpa [LinuxCapabilities.sets, LinuxCapabilities.all] using hs
      rw [hs']
      exact matches_discoveredCaps trace

end Narrow

end Runc.Scanner
