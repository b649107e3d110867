import Runc.Lib.Program
import Runc.Specconv.Labels

/-!
# Properties for systemd

`initSystemdProps` makes a property of each annotation `org.systemd.property.…`.  The
name is checked, the value is read as a D-Bus variant, and a name that ends in `Sec`
is rewritten to `USec`, with the value in microseconds.

Reading a variant is a parameter: it returns a value, fails or panics.  So is the
conversion of a floating-point number.
-/

namespace Runc.Specconv

open Lib

inductive Outcome (α : Type)
  | returned (a : α)
  | failed (err : Text)
  | panicked
deriving DecidableEq

inductive IntType
  | y
  | n
  | q
  | i
  | u
  | x
  | t
deriving DecidableEq

namespace IntType

def width : IntType → Nat
  | y => 8
  | n => 16
  | q => 16
  | i => 32
  | u => 32
  | x => 64
  | t => 64

def signed : IntType → Bool
  | n => true
  | i => true
  | x => true
  | _ => false

def value (type : IntType) (v : BitVec type.width) : Int :=
  if type.signed then v.toInt else v.toNat

def uint64 (type : IntType) (v : BitVec type.width) : BitVec 64 :=
  if type.signed then v.signExtend 64 else v.setWidth 64

end IntType

inductive Variant (φ τ : Type)
  | int (type : IntType) (v : BitVec type.width)
  | double (x : φ)
  | other (v : τ)
deriving DecidableEq

section Model

variable {φ τ : Type}

def makeVariant (sec : BitVec 64) : Variant φ τ :=
  .int .t sec

/-- `usec` is the conversion of a floating-point number. -/
def convertSecToUSec (usec : φ → BitVec 64) : Variant φ τ → Except Text (Variant φ τ)
  | .int type v => .ok (makeVariant (type.uint64 v * 1000000))
  | .double x => .ok (makeVariant (usec x))
  | .other _ => .error "not a number".toList

structure Property (φ τ : Type) where
  name : Text
  value : Variant φ τ
deriving DecidableEq

def keyPrefix : Text := "org.systemd.property.".toList
def secSuffix : Text := "Sec".toList
def usecSuffix : Text := "USec".toList

def checkPropertyName (s : Text) : Except Text Unit :=
  if s.length < 3 then .error "too short".toList
  else if s.all fun ch => isUpper ch || isLower ch then .ok ()
  else .error "contains non-alphabetic character".toList

def secStem (name : Text) : Option Text :=
  if secSuffix.isSuffixOf name then some (name.take (name.length - secSuffix.length))
  else none

def valueErr (entry : StringEntry) (err : Text) : Text :=
  "annotation ".toList ++ entry.1 ++ ['='] ++ entry.2 ++ " value parse error: ".toList ++ err

variable (parseVariant : Text → Outcome (Variant φ τ)) (usec : φ → BitVec 64)

def inMicroseconds (entry : StringEntry) (stem : Text) (value : Variant φ τ) :
    Outcome (Property φ τ) :=
  match convertSecToUSec usec value with
  | .error err => .failed (valueErr entry err)
  | .ok value => .returned ⟨stem ++ usecSuffix, value⟩

def rewriteSec (entry : StringEntry) (name : Text) (value : Variant φ τ) :
    Outcome (Property φ τ) :=
  match secStem name with
  | none => .returned ⟨name, value⟩
  | some stem =>
      match stem.getLast? with
      | none => .panicked
      | some ch =>
          if isLower ch then inMicroseconds usec entry stem value
          else .returned ⟨name, value⟩

def property (entry : StringEntry) (name : Text) : Outcome (Property φ τ) :=
  match checkPropertyName name with
  | .error err =>
      .failed ("annotation ".toList ++ entry.1 ++ " name incorrect: ".toList ++ err)
  | .ok () =>
      match parseVariant entry.2 with
      | .panicked => .panicked
      | .failed err => .failed (valueErr entry err)
      | .returned value => rewriteSec usec entry name value

/-- `strings.CutPrefix` of the key. -/
def propertyName (entry : StringEntry) : Option Text :=
  if keyPrefix.isPrefixOf entry.1 then some (entry.1.drop keyPrefix.length) else none

def initFrom (sp : List (Property φ τ)) : List StringEntry → Outcome (List (Property φ τ))
  | [] => .returned sp
  | entry :: rest =>
      match propertyName entry with
      | none => initFrom sp rest
      | some name =>
          match property parseVariant usec entry name with
          | .panicked => .panicked
          | .failed err => .failed err
          | .returned p => initFrom (sp ++ [p]) rest

/-- `initSystemdProps`, with the annotations in the order in which they are ranged
over. -/
def initSystemdProps (order : List StringEntry) : Outcome (List (Property φ τ)) :=
  initFrom parseVariant usec [] order

end Model

section Runs

variable {φ τ : Type} {parseVariant : Text → Outcome (Variant φ τ)} {usec : φ → BitVec 64}

variable {entry : StringEntry}

theorem propertyName_eq_some_iff {name : Text} :
    propertyName entry = some name ↔ entry.1 = keyPrefix ++ name := by
  rw [propertyName]
  split
  case isTrue h =>
      obtain ⟨rest, hrest⟩ := List.isPrefixOf_iff_prefix.mp h
      rw [← hrest, List.drop_left, Option.some.injEq, List.append_cancel_left_eq]
  case isFalse h =>
      refine iff_of_false nofun fun heq => h ?_
      rw [heq]
      exact List.isPrefixOf_iff_prefix.mpr (List.prefix_append _ _)

def Panics (parseVariant : Text → Outcome (Variant φ τ)) (usec : φ → BitVec 64)
    (entry : StringEntry) : Prop :=
  ∃ name, propertyName entry = some name ∧
    property parseVariant usec entry name = .panicked

def Gives (parseVariant : Text → Outcome (Variant φ τ)) (usec : φ → BitVec 64)
    (entry : StringEntry) (p : Property φ τ) : Prop :=
  ∃ name, propertyName entry = some name ∧
    property parseVariant usec entry name = .returned p

theorem initFrom_cons (parseVariant : Text → Outcome (Variant φ τ)) (usec : φ → BitVec 64)
    (sp : List (Property φ τ)) (entry : StringEntry) (rest : List StringEntry) :
    (Panics parseVariant usec entry ∧
      initFrom parseVariant usec sp (entry :: rest) = .panicked) ∨
    (∃ err, initFrom parseVariant usec sp (entry :: rest) = .failed err) ∨
    (propertyName entry = none ∧
      initFrom parseVariant usec sp (entry :: rest) = initFrom parseVariant usec sp rest) ∨
    (∃ p, Gives parseVariant usec entry p ∧
      initFrom parseVariant usec sp (entry :: rest) =
        initFrom parseVariant usec (sp ++ [p]) rest) := by
  rw [initFrom]
  cases hname : propertyName entry with
  | none => exact .inr (.inr (.inl ⟨rfl, rfl⟩))
  | some name =>
    dsimp only
    cases hproperty : property parseVariant usec entry name with
    | panicked => exact .inl ⟨⟨name, hname, hproperty⟩, rfl⟩
    | failed err => exact .inr (.inl ⟨err, rfl⟩)
    | returned p => exact .inr (.inr (.inr ⟨p, ⟨name, hname, hproperty⟩, rfl⟩))

def forSystemd (entry : StringEntry) : Bool :=
  (propertyName entry).isSome

variable {order : List StringEntry}

theorem initFrom_returned {sp props : List (Property φ τ)}
    (h : initFrom parseVariant usec sp order = .returned props) :
    ∃ added, props = sp ++ added ∧
      List.Forall₂ (Gives parseVariant usec) (order.filter forSystemd) added := by
  induction order generalizing sp with
  | nil =>
    cases h
    exact ⟨[], (List.append_nil _).symm, .nil⟩
  | cons entry rest ih =>
    rcases initFrom_cons parseVariant usec sp entry rest with
      ⟨-, hrun⟩ | ⟨err, hrun⟩ | ⟨hname, hrun⟩ | ⟨p, hgives, hrun⟩
    · rw [hrun] at h
      cases h
    · rw [hrun] at h
      cases h
    · rw [hrun] at h
      obtain ⟨added, rfl, hadded⟩ := ih h
      refine ⟨added, rfl, ?_⟩
      rwa [List.filter_cons_of_neg (by simp [forSystemd, hname])]
    · rw [hrun] at h
      obtain ⟨added, rfl, hadded⟩ := ih h
      obtain ⟨name, hname, -⟩ := id hgives
      refine ⟨p :: added, List.append_assoc _ _ _, ?_⟩
      rw [List.filter_cons_of_pos (by simp [forSystemd, hname])]
      exact .cons hgives hadded

theorem Gives.unique {p p' : Property φ τ}
    (h : Gives parseVariant usec entry p) (h' : Gives parseVariant usec entry p') : p = p' := by
  obtain ⟨name, hname, hp⟩ := h
  obtain ⟨name', hname', hp'⟩ := h'
  rw [hname] at hname'
  cases hname'
  rw [hp] at hp'
  cases hp'
  rfl

theorem initSystemdProps_mem {p : Property φ τ}
    {props : List (Property φ τ)} (hgives : Gives parseVariant usec entry p) (hmem : entry ∈ order)
    (h : initSystemdProps parseVariant usec order = .returned props) : p ∈ props := by
  obtain ⟨added, hprops, hadded⟩ := initFrom_returned h
  have hsystemd : entry ∈ order.filter forSystemd := by
    obtain ⟨name, hname, -⟩ := hgives
    exact List.mem_filter.mpr ⟨hmem, by simp [forSystemd, hname]⟩
  have hflip : List.Forall₂ (fun p entry => Gives parseVariant usec entry p) added
      (order.filter forSystemd) := hadded.flip
  obtain ⟨other, hother, hgives'⟩ := exists_of_mem_right hflip hsystemd
  rw [hprops, hgives.unique hgives']
  exact hother

theorem initFrom_panicked {sp : List (Property φ τ)}
    (h : initFrom parseVariant usec sp order = .panicked) :
    ∃ entry ∈ order, Panics parseVariant usec entry := by
  induction order generalizing sp with
  | nil => cases h
  | cons entry rest ih =>
    rcases initFrom_cons parseVariant usec sp entry rest with
      ⟨hpanics, -⟩ | ⟨err, hrun⟩ | ⟨-, hrun⟩ | ⟨p, -, hrun⟩
    · exact ⟨entry, List.mem_cons_self, hpanics⟩
    · rw [hrun] at h
      cases h
    · obtain ⟨other, hmem, hpanics⟩ := ih (hrun ▸ h)
      exact ⟨other, List.mem_cons_of_mem _ hmem, hpanics⟩
    · obtain ⟨other, hmem, hpanics⟩ := ih (hrun ▸ h)
      exact ⟨other, List.mem_cons_of_mem _ hmem, hpanics⟩

theorem initSystemdProps_of_first (h : Panics parseVariant usec entry) (rest : List StringEntry) :
    initSystemdProps parseVariant usec (entry :: rest) = .panicked := by
  obtain ⟨name, hname, hproperty⟩ := h
  rw [initSystemdProps, initFrom, hname]
  dsimp only
  rw [hproperty]

theorem secStem_eq_some_iff {name stem : Text} :
    secStem name = some stem ↔ name = stem ++ secSuffix := by
  rw [secStem]
  split
  case isTrue h =>
      obtain ⟨start, rfl⟩ := List.isSuffixOf_iff_suffix.mp h
      rw [List.length_append, Nat.add_sub_cancel, List.take_left, Option.some.injEq,
        List.append_cancel_right_eq]
  case isFalse h =>
      refine iff_of_false nofun fun heq => h ?_
      rw [heq]
      exact List.isSuffixOf_iff_suffix.mpr (List.suffix_append _ _)

theorem inMicroseconds_ne_panicked (entry : StringEntry) (stem : Text) (value : Variant φ τ) :
    inMicroseconds usec entry stem value ≠ .panicked := by
  rw [inMicroseconds]
  cases convertSecToUSec usec value with
  | error err => exact nofun
  | ok converted => exact nofun

theorem rewriteSec_panicked_iff (entry : StringEntry) (name : Text) (value : Variant φ τ) :
    rewriteSec usec entry name value = .panicked ↔ name = secSuffix := by
  rw [rewriteSec]
  cases hstem : secStem name with
  | none =>
    refine iff_of_false nofun ?_
    rintro rfl
    exact absurd hstem (by decide)
  | some stem =>
    have hname := secStem_eq_some_iff.mp hstem
    dsimp only
    cases hlast : stem.getLast? with
    | none =>
      rw [List.getLast?_eq_none_iff.mp hlast] at hname
      exact iff_of_true rfl hname
    | some ch =>
      refine iff_of_false ?_ ?_
      · dsimp only
        split
        · exact inMicroseconds_ne_panicked entry stem value
        · exact nofun
      · rintro rfl
        have hempty : stem = [] := List.self_eq_append_left.mp hname
        rw [hempty] at hlast
        cases hlast

theorem panics_iff (entry : StringEntry) :
    Panics parseVariant usec entry ↔
      ∃ name, entry.1 = keyPrefix ++ name ∧
        (checkPropertyName name = .ok () ∧ parseVariant entry.2 = .panicked ∨
          name = secSuffix ∧ ∃ value, parseVariant entry.2 = .returned value) := by
  unfold Panics
  refine exists_congr fun name => and_congr propertyName_eq_some_iff ?_
  have hsuffix : checkPropertyName secSuffix = .ok () := by
    decide
  rw [property]
  cases hcheck : checkPropertyName name with
  | error err =>
    refine iff_of_false nofun ?_
    rintro (⟨h, -⟩ | ⟨rfl, -⟩)
    · cases h
    · rw [hsuffix] at hcheck
      cases hcheck
  | ok _ =>
    dsimp only
    cases hparse : parseVariant entry.2 with
    | panicked => simp
    | failed err => simp
    | returned value =>
      rw [rewriteSec_panicked_iff]
      simp

theorem initSystemdProps_iff {φ τ : Type} (parseVariant : Text → Outcome (Variant φ τ))
    (usec : φ → BitVec 64) (annotations : StringMap) :
    (∀ order : List StringEntry, order.Perm annotations.entries →
      (∃ err, initSystemdProps parseVariant usec order = .failed err) ∨
      ∃ props, initSystemdProps parseVariant usec order = .returned props ∧
        List.Forall₂ (Gives parseVariant usec) (order.filter forSystemd) props) ↔
    ∀ entry ∈ annotations.entries, ∀ name, entry.1 = keyPrefix ++ name →
      ¬ (checkPropertyName name = .ok () ∧ parseVariant entry.2 = .panicked) ∧
      ¬ (name = secSuffix ∧ ∃ value, parseVariant entry.2 = .returned value) := by
  have hpanics : (∀ entry ∈ annotations.entries, ¬ Panics parseVariant usec entry) ↔
      ∀ entry ∈ annotations.entries, ∀ name, entry.1 = keyPrefix ++ name →
        ¬ (checkPropertyName name = .ok () ∧ parseVariant entry.2 = .panicked) ∧
        ¬ (name = secSuffix ∧ ∃ value, parseVariant entry.2 = .returned value) := by
    refine forall₂_congr fun entry _ => ?_
    rw [panics_iff]
    simp only [not_exists, not_and, not_or]
  rw [← hpanics]
  constructor
  · intro h entry hmem hentry
    -- the order in which it comes first
    obtain ⟨before, after, hentries⟩ := List.append_of_mem hmem
    have hperm : (entry :: (before ++ after)).Perm annotations.entries :=
      hentries ▸ List.perm_middle.symm
    have hfirst := initSystemdProps_of_first hentry (before ++ after)
    rcases h _ hperm with ⟨err, hrun⟩ | ⟨props, hrun, -⟩
    · rw [hfirst] at hrun
      cases hrun
    · rw [hfirst] at hrun
      cases hrun
  · intro h order hperm
    cases hrun : initSystemdProps parseVariant usec order with
    | failed err => exact .inl ⟨err, rfl⟩
    | returned props =>
      obtain ⟨added, hprops, hadded⟩ := initFrom_returned hrun
      rw [List.nil_append] at hprops
      exact .inr ⟨props, rfl, hprops ▸ hadded⟩
    | panicked =>
      obtain ⟨entry, hmem, hentry⟩ := initFrom_panicked hrun
      exact absurd hentry (h entry (hperm.mem_iff.mp hmem))

theorem initSystemdProps_bare_suffix :
    initSystemdProps (fun _ => .returned (.int .i 5 : Variant Unit Unit)) (fun _ => 0)
      [⟨"org.systemd.property.Sec".toList, "5".toList⟩] = .panicked := by
  decide

end Runs

theorem IntType.width_le (type : IntType) : type.width ≤ 64 := by
  cases type <;> decide

theorem IntType.uint64_toNat (type : IntType) (v : BitVec type.width) :
    ((type.uint64 v).toNat : Int) = type.value v % 18446744073709551616 := by
  rw [uint64, value]
  split
  · have hvalue := BitVec.toInt_signExtend_of_le (x := v) type.width_le
    have hword := BitVec.toInt_eq_toNat_bmod (v.signExtend 64)
    have hmod : ((v.signExtend 64).toNat : Int).bmod (2 ^ 64) % ((2 ^ 64 : Nat) : Int) =
        ((v.signExtend 64).toNat : Int) % ((2 ^ 64 : Nat) : Int) := Int.bmod_emod
    have hlt := (v.signExtend 64).isLt
    omega
  · have hwidth : 2 ^ type.width ≤ 2 ^ 64 := Nat.pow_le_pow_right (by decide) type.width_le
    rw [BitVec.toNat_setWidth]
    have hlt := v.isLt
    omega

theorem microseconds_toNat (type : IntType) (v : BitVec type.width) :
    ((type.uint64 v * 1000000).toNat : Int) =
      type.value v * 1000000 % 18446744073709551616 := by
  have hproduct : (type.uint64 v * 1000000).toNat =
      (type.uint64 v).toNat * 1000000 % 18446744073709551616 := BitVec.toNat_mul _ _
  have hconverted := type.uint64_toNat v
  omega

section Microseconds

variable {φ τ : Type} {parseVariant : Text → Outcome (Variant φ τ)} {usec : φ → BitVec 64}

theorem gives_microseconds
    {entry : StringEntry} {stem : Text} {ch : Char} {type : IntType} {v : BitVec type.width}
    (hname : entry.1 = keyPrefix ++ (stem ++ secSuffix))
    (hletters : checkPropertyName (stem ++ secSuffix) = .ok ()) (hlast : stem.getLast? = some ch)
    (hlower : isLower ch = true) (hvalue : parseVariant entry.2 = .returned (.int type v)) :
    Gives parseVariant usec entry
      ⟨stem ++ usecSuffix, makeVariant (type.uint64 v * 1000000)⟩ := by
  have hstem : secStem (stem ++ secSuffix) = some stem := secStem_eq_some_iff.mpr rfl
  refine ⟨stem ++ secSuffix, propertyName_eq_some_iff.mpr hname, ?_⟩
  rw [property, hletters]
  dsimp only
  rw [hvalue]
  dsimp only
  rw [rewriteSec, hstem]
  dsimp only
  rw [hlast]
  dsimp only
  rw [if_pos hlower]
  rfl

/-- For a name that is rewritten a number of seconds is passed on exactly if it is not negative
and the microseconds fit into 64 bits. -/
theorem convertSecToUSec_exact_iff {φ τ : Type} (parseVariant : Text → Outcome (Variant φ τ))
    (usec : φ → BitVec 64) (entry : StringEntry) (stem : Text) (ch : Char) (type : IntType)
    (v : BitVec type.width) (hname : entry.1 = keyPrefix ++ (stem ++ secSuffix))
    (hletters : checkPropertyName (stem ++ secSuffix) = .ok ()) (hlast : stem.getLast? = some ch)
    (hlower : isLower ch = true) (hvalue : parseVariant entry.2 = .returned (.int type v)) :
    ∃ sec : BitVec 64,
      Gives parseVariant usec entry ⟨stem ++ usecSuffix, makeVariant sec⟩ ∧
      ((sec.toNat : Int) = type.value v * 1000000 ↔
        0 ≤ type.value v ∧ type.value v * 1000000 < 18446744073709551616) ∧
      ∀ order props, entry ∈ order →
        initSystemdProps parseVariant usec order = .returned props →
        ⟨stem ++ usecSuffix, makeVariant sec⟩ ∈ props := by
  have hgives : Gives parseVariant usec entry
      ⟨stem ++ usecSuffix, makeVariant (type.uint64 v * 1000000)⟩ :=
    gives_microseconds hname hletters hlast hlower hvalue
  refine ⟨_, hgives, ?_, fun order props hmem hrun => ?_⟩
  · rw [microseconds_toNat]
    omega
  · exact initSystemdProps_mem hgives hmem hrun

theorem convertSecToUSec_exact_ninety :
    ∃ sec : BitVec 64,
      Gives (fun _ => .returned (.int .i 90 : Variant Unit Unit)) (fun _ => 0)
        ⟨"org.systemd.property.TimeoutStopSec".toList, "90".toList⟩
        ⟨"TimeoutStop".toList ++ usecSuffix, makeVariant sec⟩ ∧
      (sec.toNat : Int) = 90 * 1000000 := by
  obtain ⟨sec, hgives, hexact, -⟩ :=
    convertSecToUSec_exact_iff (fun _ => .returned (.int .i 90 : Variant Unit Unit)) (fun _ => 0)
      ⟨"org.systemd.property.TimeoutStopSec".toList, "90".toList⟩ "TimeoutStop".toList 'p' .i 90
      (by decide) (by decide) (by decide) (by decide) rfl
  exact ⟨sec, hgives, hexact.mpr (by decide)⟩

theorem convertSecToUSec_wraps :
    initSystemdProps (fun _ => .returned (.int .i (-1) : Variant Unit Unit)) (fun _ => 0)
        [⟨"org.systemd.property.TimeoutStopSec".toList, "-1".toList⟩] =
      .returned [⟨"TimeoutStopUSec".toList, makeVariant 18446744073708551616⟩] ∧
    initSystemdProps (fun _ => .returned (.int .x 18446744073710 : Variant Unit Unit)) (fun _ => 0)
        [⟨"org.systemd.property.TimeoutStopSec".toList, "int64 18446744073710".toList⟩] =
      .returned [⟨"TimeoutStopUSec".toList, makeVariant 448384⟩] := by
  decide

end Microseconds

end Runc.Specconv
