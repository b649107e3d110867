import Runc.Configs.Mount
import Runc.Lib.Bytes

/-!
# Options of a mount

`parseMountOptions` looks each option up in five tables; what is in none of them is
data for the filesystem.  `KnownMountOptions` reports the names in the tables.
-/

namespace Runc.Specconv

open Lib
open Configs

structure OptionFlag where
  clear : Bool
  flag : Flags
deriving DecidableEq

def mountFlags : List (Text × OptionFlag) :=
  [("async".toList, ⟨true, msSynchronous⟩),
    ("atime".toList, ⟨true, msNoatime⟩),
    ("bind".toList, ⟨false, msBind⟩),
    ("defaults".toList, ⟨false, 0⟩),
    ("dev".toList, ⟨true, msNodev⟩),
    ("diratime".toList, ⟨true, msNodiratime⟩),
    ("dirsync".toList, ⟨false, msDirsync⟩),
    ("exec".toList, ⟨true, msNoexec⟩),
    ("iversion".toList, ⟨false, msIVersion⟩),
    ("lazytime".toList, ⟨false, msLazytime⟩),
    ("loud".toList, ⟨true, msSilent⟩),
    ("mand".toList, ⟨false, msMandlock⟩),
    ("noatime".toList, ⟨false, msNoatime⟩),
    ("nodev".toList, ⟨false, msNodev⟩),
    ("nodiratime".toList, ⟨false, msNodiratime⟩),
    ("noexec".toList, ⟨false, msNoexec⟩),
    ("noiversion".toList, ⟨true, msIVersion⟩),
    ("nolazytime".toList, ⟨true, msLazytime⟩),
    ("nomand".toList, ⟨true, msMandlock⟩),
    ("norelatime".toList, ⟨true, msRelatime⟩),
    ("nostrictatime".toList, ⟨true, msStrictatime⟩),
    ("nosuid".toList, ⟨false, msNosuid⟩),
    ("nosymfollow".toList, ⟨false, msNosymfollow⟩),
    ("rbind".toList, ⟨false, msBind ||| msRec⟩),
    ("relatime".toList, ⟨false, msRelatime⟩),
    ("remount".toList, ⟨false, msRemount⟩),
    ("ro".toList, ⟨false, msRdonly⟩),
    ("rw".toList, ⟨true, msRdonly⟩),
    ("silent".toList, ⟨false, msSilent⟩),
    ("strictatime".toList, ⟨false, msStrictatime⟩),
    ("suid".toList, ⟨true, msNosuid⟩),
    ("sync".toList, ⟨false, msSynchronous⟩),
    ("symfollow".toList, ⟨true, msNosymfollow⟩)]

def mountPropagationMapping : List (Text × Flags) :=
  [("rprivate".toList, msPrivate ||| msRec),
    ("private".toList, msPrivate),
    ("rslave".toList, msSlave ||| msRec),
    ("slave".toList, msSlave),
    ("rshared".toList, msShared ||| msRec),
    ("shared".toList, msShared),
    ("runbindable".toList, msUnbindable ||| msRec),
    ("unbindable".toList, msUnbindable)]

def recAttrFlags : List (Text × OptionFlag) :=
  [("rro".toList, ⟨false, mountAttrRdonly⟩),
    ("rrw".toList, ⟨true, mountAttrRdonly⟩),
    ("rnosuid".toList, ⟨false, mountAttrNosuid⟩),
    ("rsuid".toList, ⟨true, mountAttrNosuid⟩),
    ("rnodev".toList, ⟨false, mountAttrNodev⟩),
    ("rdev".toList, ⟨true, mountAttrNodev⟩),
    ("rnoexec".toList, ⟨false, mountAttrNoexec⟩),
    ("rexec".toList, ⟨true, mountAttrNoexec⟩),
    ("rnodiratime".toList, ⟨false, mountAttrNodiratime⟩),
    ("rdiratime".toList, ⟨true, mountAttrNodiratime⟩),
    ("rrelatime".toList, ⟨false, mountAttrRelatime⟩),
    ("rnorelatime".toList, ⟨true, mountAttrRelatime⟩),
    ("rnoatime".toList, ⟨false, mountAttrNoatime⟩),
    ("ratime".toList, ⟨true, mountAttrNoatime⟩),
    ("rstrictatime".toList, ⟨false, mountAttrStrictatime⟩),
    ("rnostrictatime".toList, ⟨true, mountAttrStrictatime⟩),
    ("rnosymfollow".toList, ⟨false, mountAttrNosymfollow⟩),
    ("rsymfollow".toList, ⟨true, mountAttrNosymfollow⟩)]

def extCopyup : Flags :=
  Flags.bit 0

def extensionFlags : List (Text × OptionFlag) :=
  [("tmpcopyup".toList, ⟨false, extCopyup⟩)]

def complexFlags : List (Text × Bool) :=
  [("idmap".toList, false), ("ridmap".toList, true)]

def knownMountOptions : List Text :=
  sortStrings
    (mountFlags.map Prod.fst ++ mountPropagationMapping.map Prod.fst ++
      recAttrFlags.map Prod.fst ++ extensionFlags.map Prod.fst)

structure Parsed where
  data : List Text := []
  m : Configs.Mount := {}
  recAttrSet : Flags := 0
  recAttrClr : Flags := 0

def Parsed.mountFlag (s : Parsed) (f : OptionFlag) : Parsed :=
  if f.clear then
    { s with m := { s.m with
        flags := s.m.flags &&& ~~~f.flag
        clearedFlags := s.m.clearedFlags ||| f.flag } }
  else
    { s with m := { s.m with
        flags := s.m.flags ||| f.flag
        clearedFlags := s.m.clearedFlags &&& ~~~f.flag } }

def Parsed.recAttr (s : Parsed) (f : OptionFlag) : Parsed :=
  let set := if f.clear then s.recAttrSet &&& ~~~f.flag else s.recAttrSet ||| f.flag
  let clr := if f.clear then s.recAttrClr ||| f.flag else s.recAttrClr &&& ~~~f.flag
  if f.flag &&& mountAttrAtime = f.flag then
    { s with recAttrSet := set, recAttrClr := clr ||| mountAttrAtime }
  else { s with recAttrSet := set, recAttrClr := clr }

def Parsed.extension (s : Parsed) (f : OptionFlag) : Parsed :=
  { s with m := { s.m with
      extensions :=
        if f.clear then s.m.extensions &&& ~~~f.flag else s.m.extensions ||| f.flag } }

def parseOption (s : Parsed) (o : Text) : Parsed :=
  match (mountFlags.lookup o).filter fun f => decide (f.flag ≠ 0) with
  | some f => s.mountFlag f
  | none =>
      match (mountPropagationMapping.lookup o).filter fun f => decide (f ≠ 0) with
      | some f =>
          { s with m := { s.m with propagationFlags := s.m.propagationFlags ++ [f] } }
      | none =>
          match recAttrFlags.lookup o with
          | some f => s.recAttr f
          | none =>
              match extensionFlags.lookup o with
              | some f => s.extension f
              | none =>
                  match complexFlags.lookup o with
                  | some recursive =>
                      { s with m := { s.m with idMapping := some ⟨recursive⟩ } }
                  | none => { s with data := s.data ++ [o] }

def parseMountOptions (options : List Text) : Configs.Mount :=
  let s := options.foldl parseOption {}
  { s.m with
    data := [','].intercalate s.data
    recAttr :=
      if s.recAttrSet ≠ 0 ∨ s.recAttrClr ≠ 0 then some ⟨s.recAttrSet, s.recAttrClr⟩
      else none }

def checkBindOptions (m : Configs.Mount) : Except String Unit :=
  if !m.isBind then .ok ()
  else if m.data ≠ [] then
    .error "bind mounts cannot have any filesystem-specific options applied"
  else .ok ()

section Lookup

variable {α : Type} {table : List (Text × α)} {o : Text}

theorem lookup_isSome_iff : (table.lookup o).isSome = true ↔ o ∈ table.map Prod.fst := by
  rw [List.lookup_isSome_iff, List.mem_map]
  constructor
  · rintro ⟨entry, hentry, heq⟩
    exact ⟨entry, hentry, (beq_iff_eq.mp heq).symm⟩
  · rintro ⟨entry, hentry, rfl⟩
    exact ⟨entry, hentry, beq_iff_eq.mpr rfl⟩

theorem mem_of_lookup {a : α} (h : table.lookup o = some a) : (o, a) ∈ table := by
  obtain ⟨before, after, rfl, -⟩ := List.lookup_eq_some_iff.mp h
  simp

theorem lookup_filter_isSome_iff {p : α → Bool} {left : List Text}
    (hleft : ∀ entry ∈ table, p entry.2 = false ↔ entry.1 ∈ left) :
    ((table.lookup o).filter p).isSome = true ↔ o ∈ table.map Prod.fst ∧ o ∉ left := by
  rw [← lookup_isSome_iff]
  cases hlookup : table.lookup o with
  | none => simp
  | some a =>
    have ha := hleft _ (mem_of_lookup hlookup)
    cases hp : p a with
    | true => simp [hp, ← ha]
    | false => simp [hp, ← ha]

end Lookup

def recognised (o : Text) : Bool :=
  ((mountFlags.lookup o).filter fun f => decide (f.flag ≠ 0)).isSome ||
    ((mountPropagationMapping.lookup o).filter fun f => decide (f ≠ 0)).isSome ||
    (recAttrFlags.lookup o).isSome || (extensionFlags.lookup o).isSome ||
    (complexFlags.lookup o).isSome

def defaultsOption : Text :=
  "defaults".toList

def Known (o : Text) : Prop :=
  o ∈ knownMountOptions ∨ o = "idmap".toList ∨ o = "ridmap".toList

instance (o : Text) : Decidable (Known o) :=
  inferInstanceAs (Decidable (_ ∨ _))

theorem known_iff (o : Text) :
    Known o ↔
      (((o ∈ mountFlags.map Prod.fst ∨ o ∈ mountPropagationMapping.map Prod.fst) ∨
        o ∈ recAttrFlags.map Prod.fst) ∨ o ∈ extensionFlags.map Prod.fst) ∨
        o ∈ complexFlags.map Prod.fst := by
  have hcomplex : o ∈ complexFlags.map Prod.fst ↔
      o = "idmap".toList ∨ o = "ridmap".toList := by
    simp [complexFlags]
  rw [Known, knownMountOptions, mem_sortStrings, hcomplex]
  simp only [List.mem_append]

theorem defaults_tables :
    defaultsOption ∈ mountFlags.map Prod.fst ∧
      defaultsOption ∉ mountPropagationMapping.map Prod.fst ∧
      defaultsOption ∉ recAttrFlags.map Prod.fst ∧
      defaultsOption ∉ extensionFlags.map Prod.fst ∧
      defaultsOption ∉ complexFlags.map Prod.fst := by
  decide

theorem recognised_iff (o : Text) : recognised o = true ↔ Known o ∧ o ≠ defaultsOption := by
  have hflags : ((mountFlags.lookup o).filter fun f => decide (f.flag ≠ 0)).isSome = true ↔
      o ∈ mountFlags.map Prod.fst ∧ o ∉ [defaultsOption] :=
    lookup_filter_isSome_iff (by decide)
  have hpropagation :
      ((mountPropagationMapping.lookup o).filter fun f => decide (f ≠ 0)).isSome = true ↔
        o ∈ mountPropagationMapping.map Prod.fst ∧ o ∉ ([] : List Text) :=
    lookup_filter_isSome_iff (by decide)
  rw [recognised, known_iff]
  simp only [Bool.or_eq_true, hflags, hpropagation, lookup_isSome_iff, List.mem_singleton,
    List.not_mem_nil, not_false_iff, and_true]
  by_cases ho : o = defaultsOption
  · subst ho
    obtain ⟨-, hnone, hrec, hext, hcomplex⟩ := defaults_tables
    simp only [hnone, hrec, hext, hcomplex, ne_eq, not_true_eq_false, and_false, or_false]
  · simp only [ho, ne_eq, not_false_iff, and_true]

theorem parseOption_data (s : Parsed) (o : Text) :
    (parseOption s o).data = s.data ++ if recognised o then [] else [o] := by
  unfold parseOption recognised
  cases (mountFlags.lookup o).filter fun f => decide (f.flag ≠ 0) with
  | some f =>
    simp only [Parsed.mountFlag]
    split <;> simp
  | none =>
    cases (mountPropagationMapping.lookup o).filter fun f => decide (f ≠ 0) with
    | some f => simp
    | none =>
      cases recAttrFlags.lookup o with
      | some f =>
        simp only [Parsed.recAttr]
        split <;> simp
      | none =>
        cases extensionFlags.lookup o with
        | some f => simp [Parsed.extension]
        | none =>
          cases complexFlags.lookup o with
          | some recursive => simp
          | none => simp

def Disjoint (m : Configs.Mount) : Prop :=
  m.flags &&& m.clearedFlags = 0

theorem disjoint_iff (m : Configs.Mount) :
    Disjoint m ↔ ∀ i, m.flags.getLsbD i = false ∨ m.clearedFlags.getLsbD i = false := by
  constructor
  · intro h i
    have hbit : (m.flags &&& m.clearedFlags).getLsbD i = (0 : Flags).getLsbD i :=
      congrArg (fun v : Flags => v.getLsbD i) h
    rw [BitVec.getLsbD_and] at hbit
    exact Bool.and_eq_false_iff.mp (hbit.trans BitVec.getLsbD_zero)
  · intro h
    refine BitVec.eq_of_getLsbD_eq fun i _ => ?_
    rw [BitVec.getLsbD_and]
    rcases h i with hi | hi
    · simp [hi]
    · simp [hi]

theorem mountFlag_disjoint {s : Parsed} (h : Disjoint s.m) (f : OptionFlag) :
    Disjoint (s.mountFlag f).m := by
  rw [disjoint_iff] at h ⊢
  intro i
  rw [Parsed.mountFlag]
  split
  · dsimp only
    rw [BitVec.getLsbD_and, BitVec.getLsbD_or, BitVec.getLsbD_not]
    cases hf : f.flag.getLsbD i with
    | true => simp
    | false =>
      rcases h i with hi | hi
      · simp [hi]
      · simp [hi]
  · dsimp only
    rw [BitVec.getLsbD_and, BitVec.getLsbD_or, BitVec.getLsbD_not]
    cases hf : f.flag.getLsbD i with
    | true => simp
    | false =>
      rcases h i with hi | hi
      · simp [hi]
      · simp [hi]

theorem parseOption_disjoint {s : Parsed} (h : Disjoint s.m) (o : Text) :
    Disjoint (parseOption s o).m := by
  rw [parseOption]
  split
  · exact mountFlag_disjoint h _
  · split
    · exact h
    · split
      · rw [Parsed.recAttr]
        split <;> exact h
      · split
        · exact h
        · split <;> exact h

theorem parseMountOptions_disjoint (options : List Text) :
    Disjoint (parseMountOptions options) := by
  have hfold : ∀ s : Parsed, Disjoint s.m → Disjoint (options.foldl parseOption s).m := by
    induction options with
    | nil => exact fun s h => h
    | cons o options ih => exact fun s h => ih _ (parseOption_disjoint h o)
  exact hfold {} rfl

theorem foldl_parseOption_data (options : List Text) (s : Parsed) :
    (options.foldl parseOption s).data = s.data ++ options.filter (fun o => !recognised o) := by
  induction options generalizing s with
  | nil => simp
  | cons o options ih =>
    rw [List.foldl_cons, ih, parseOption_data, List.append_assoc]
    congr 1
    cases ho : recognised o with
    | true => simp [ho]
    | false => simp [ho]

def becomesData (o : Text) : Bool :=
  !decide (Known o) || o = defaultsOption

theorem becomesData_iff (o : Text) : becomesData o = true ↔ ¬ Known o ∨ o = defaultsOption := by
  simp [becomesData]

theorem parseMountOptions_data (options : List Text) :
    (parseMountOptions options).data =
      [','].intercalate (options.filter becomesData) := by
  have hfilter : (fun o => !recognised o) = becomesData := by
    funext o
    rw [Bool.eq_iff_iff, Bool.not_eq_true', ← Bool.not_eq_true, recognised_iff, becomesData_iff]
    tauto
  have hdata := foldl_parseOption_data options {}
  rw [List.nil_append, hfilter] at hdata
  exact congrArg [','].intercalate hdata

def unknownOptions (options : List Text) : List Text :=
  options.filter fun o => decide (¬ Known o)

theorem unknownOptions_eq_of_not_mem {options : List Text} (h : defaultsOption ∉ options) :
    options.filter becomesData = unknownOptions options := by
  refine List.filter_congr fun o ho => ?_
  have hne : o ≠ defaultsOption := fun heq => h (heq ▸ ho)
  simp [becomesData, hne]

theorem known_defaults : Known defaultsOption :=
  (known_iff _).mpr (.inl (.inl (.inl (.inl defaults_tables.1))))

theorem data_ne_of_mem {options : List Text} (h : defaultsOption ∈ options) :
    [','].intercalate (options.filter becomesData) ≠
      [','].intercalate (unknownOptions options) := by
  have hunknown : unknownOptions options =
      (options.filter becomesData).filter fun o => decide (¬ Known o) := by
    rw [List.filter_filter, unknownOptions]
    refine List.filter_congr fun o _ => ?_
    by_cases ho : Known o
    · simp [ho]
    · simp [becomesData, ho]
  have hmem : defaultsOption ∈ options.filter becomesData :=
    List.mem_filter.mpr ⟨h, (becomesData_iff _).mpr (.inr rfl)⟩
  have hlight := weight_filter_lt hmem (p := fun o => decide (¬ Known o)) (by simp [known_defaults])
  rw [← hunknown] at hlight
  have hlong : defaultsOption.length = 8 := by decide
  intro heq
  have hlength := congrArg List.length heq
  rw [length_intercalate, length_intercalate] at hlength
  omega

theorem parseMountOptions_data_iff (options : List Text) :
    ((parseMountOptions options).data = [','].intercalate (unknownOptions options) ↔
      defaultsOption ∉ options) ∧
    ((parseMountOptions options).isBind = true → unknownOptions options = [] →
      (checkBindOptions (parseMountOptions options) = .ok () ↔
        defaultsOption ∉ options)) := by
  have hdata : (parseMountOptions options).data =
      [','].intercalate (unknownOptions options) ↔ defaultsOption ∉ options := by
    rw [parseMountOptions_data]
    constructor
    · exact fun heq hmem => data_ne_of_mem hmem heq
    · exact fun hmem => by rw [unknownOptions_eq_of_not_mem hmem]
  refine ⟨hdata, fun hbind hunknown => ?_⟩
  rw [← hdata, hunknown]
  have hnil : [','].intercalate ([] : List Text) = [] := rfl
  rw [checkBindOptions, hbind, hnil]
  by_cases h : (parseMountOptions options).data = []
  · simp [h]
  · simp [h]

theorem bind_defaults_refused :
    "defaults".toList ∈ knownMountOptions ∧
      (parseMountOptions ["bind".toList, "defaults".toList]).data = "defaults".toList ∧
      checkBindOptions (parseMountOptions ["bind".toList, "defaults".toList]) =
        .error "bind mounts cannot have any filesystem-specific options applied" := by
  refine ⟨?_, by decide, by decide⟩
  rw [knownMountOptions, mem_sortStrings]
  decide

end Runc.Specconv
