import Runc.Lib.LastWrite
import Runc.Specconv.MountOptions

/-!
# What the options of a mount write

An option of `mountFlags` or `recAttrFlags` sets or clears all the bits of its mask; the
access-time bits of the recursive attributes are an enumeration.
-/

namespace Runc.Specconv

open Lib
open Configs

def mountFlagOf (o : Text) : Option OptionFlag :=
  (mountFlags.lookup o).filter fun f => decide (f.flag ≠ 0)

def propagationOf (o : Text) : Option Flags :=
  (mountPropagationMapping.lookup o).filter fun f => decide (f ≠ 0)

inductive Round (o : Text) (s : Parsed) : Parsed → Prop
  | mountFlag
      (f : OptionFlag)
      (hflag : mountFlagOf o = some f)
      (hpropagation : mountPropagationMapping.lookup o = none)
      (hrec : recAttrFlags.lookup o = none) :
      Round o s (s.mountFlag f)
  | propagation
      (f : Flags)
      (hflag : mountFlagOf o = none)
      (hpropagation : mountPropagationMapping.lookup o = some f)
      (hrec : recAttrFlags.lookup o = none) :
      Round o s { s with m := { s.m with propagationFlags := s.m.propagationFlags ++ [f] } }
  | recAttr
      (f : OptionFlag)
      (hflag : mountFlagOf o = none)
      (hpropagation : mountPropagationMapping.lookup o = none)
      (hrec : recAttrFlags.lookup o = some f) :
      Round o s (s.recAttr f)
  | other
      (next : Parsed)
      (hflag : mountFlagOf o = none)
      (hpropagation : mountPropagationMapping.lookup o = none)
      (hrec : recAttrFlags.lookup o = none)
      (hflags : next.m.flags = s.m.flags)
      (hcleared : next.m.clearedFlags = s.m.clearedFlags)
      (hadded : next.m.propagationFlags = s.m.propagationFlags)
      (hset : next.recAttrSet = s.recAttrSet)
      (hclr : next.recAttrClr = s.recAttrClr) :
      Round o s next

variable {o : Text}

theorem lookup_eq_none_iff {α : Type} {table : List (Text × α)} :
    table.lookup o = none ↔ o ∉ table.map Prod.fst := by
  rw [← lookup_isSome_iff, Option.not_isSome_iff_eq_none]

theorem lookup_eq_none_of_lookup {α β : Type} {table : List (Text × α)} {other : List (Text × β)}
    {a : α} (hdisjoint : ∀ name ∈ table.map Prod.fst, name ∉ other.map Prod.fst)
    (h : table.lookup o = some a) : other.lookup o = none :=
  lookup_eq_none_iff.mpr (hdisjoint o (List.mem_map.mpr ⟨(o, a), mem_of_lookup h, rfl⟩))

theorem mountFlags_names_propagation :
    ∀ name ∈ mountFlags.map Prod.fst, name ∉ mountPropagationMapping.map Prod.fst := by
  decide

theorem mountFlags_names_recAttr :
    ∀ name ∈ mountFlags.map Prod.fst, name ∉ recAttrFlags.map Prod.fst := by
  decide

theorem propagation_names_recAttr :
    ∀ name ∈ mountPropagationMapping.map Prod.fst, name ∉ recAttrFlags.map Prod.fst := by
  decide

theorem propagationOf_eq (o : Text) : propagationOf o = mountPropagationMapping.lookup o := by
  have hflags : ∀ entry ∈ mountPropagationMapping, entry.2 ≠ 0 := by
    decide
  unfold propagationOf
  cases hlookup : mountPropagationMapping.lookup o with
  | none => rfl
  | some f =>
    have hf : f ≠ 0 := hflags _ (mem_of_lookup hlookup)
    rw [Option.filter_some, if_pos (decide_eq_true hf)]

theorem parseOption_round (s : Parsed) (o : Text) : Round o s (parseOption s o) := by
  unfold parseOption
  cases hflag : mountFlagOf o with
  | some f =>
    have hlookup : mountFlags.lookup o = some f := (Option.filter_eq_some_iff.mp hflag).1
    rw [mountFlagOf] at hflag
    rw [hflag]
    exact .mountFlag f hflag (lookup_eq_none_of_lookup mountFlags_names_propagation hlookup)
      (lookup_eq_none_of_lookup mountFlags_names_recAttr hlookup)
  | none =>
    have hpropagationOf := propagationOf_eq o
    rw [mountFlagOf] at hflag
    rw [propagationOf] at hpropagationOf
    rw [hflag, hpropagationOf]
    cases hpropagation : mountPropagationMapping.lookup o with
    | some f =>
      exact .propagation f hflag hpropagation
        (lookup_eq_none_of_lookup propagation_names_recAttr hpropagation)
    | none =>
      cases hrec : recAttrFlags.lookup o with
      | some f => exact .recAttr f hflag hpropagation hrec
      | none =>
        cases extensionFlags.lookup o with
        | some f => exact .other _ hflag hpropagation hrec rfl rfl rfl rfl rfl
        | none =>
          cases complexFlags.lookup o with
          | some recursive => exact .other _ hflag hpropagation hrec rfl rfl rfl rfl rfl
          | none => exact .other _ hflag hpropagation hrec rfl rfl rfl rfl rfl

def touches (table : List (Text × OptionFlag)) (i : Nat) (o : Text) : Option Bool :=
  (table.lookup o).bind fun f => if f.flag.getLsbD i then some f.clear else none

def LastTouch (table : List (Text × OptionFlag)) (i : Nat) (clear : Bool)
    (options : List Text) : Prop :=
  ∃ before o after, options = before ++ o :: after ∧ touches table i o = some clear ∧
    ∀ p ∈ after, touches table i p = none

variable {i : Nat} {table : List (Text × OptionFlag)}

theorem lastWrite_touches_iff {clear : Bool} {options : List Text} :
    lastWrite (touches table i) options = some clear ↔ LastTouch table i clear options :=
  lastWrite_eq_some_iff

def bitPair (set clr : Flags) (i : Nat) : Bool × Bool :=
  (set.getLsbD i, clr.getLsbD i)

def written (clear : Bool) : Bool × Bool :=
  (!clear, clear)

theorem bitPair_put (set clr : Flags) (f : OptionFlag) (i : Nat) :
    bitPair (set.put f.flag !f.clear) (clr.put f.flag f.clear) i =
      if f.flag.getLsbD i then written f.clear else bitPair set clr i := by
  rw [bitPair, Flags.getLsbD_put, Flags.getLsbD_put]
  split <;> rfl

section

variable (s : Parsed)
include s

theorem mountFlag_flags (f : OptionFlag) :
    (s.mountFlag f).m.flags = s.m.flags.put f.flag !f.clear ∧
      (s.mountFlag f).m.clearedFlags = s.m.clearedFlags.put f.flag f.clear := by
  obtain ⟨clear, flag⟩ := f
  cases clear with
  | true => exact ⟨rfl, rfl⟩
  | false => exact ⟨rfl, rfl⟩

theorem recAttr_flags (f : OptionFlag) :
    (s.recAttr f).recAttrSet = s.recAttrSet.put f.flag !f.clear ∧
      (s.recAttr f).recAttrClr =
        if f.flag &&& mountAttrAtime = f.flag then
          s.recAttrClr.put f.flag f.clear ||| mountAttrAtime
        else s.recAttrClr.put f.flag f.clear := by
  obtain ⟨clear, flag⟩ := f
  by_cases hatime : flag &&& mountAttrAtime = flag
  · cases clear <;> simp [Parsed.recAttr, Flags.put, hatime]
  · cases clear <;> simp [Parsed.recAttr, Flags.put, hatime]

theorem recAttr_bitPair (f : OptionFlag) (i : Nat) :
    bitPair (s.recAttr f).recAttrSet ((s.recAttr f).recAttrClr ||| mountAttrAtime) i =
      bitPair (s.recAttrSet.put f.flag !f.clear)
        (s.recAttrClr.put f.flag f.clear ||| mountAttrAtime) i := by
  obtain ⟨hset, hclr⟩ := recAttr_flags s f
  rw [hset, hclr]
  split
  · rw [BitVec.or_assoc, BitVec.or_self]
  · rfl

end

theorem touches_of_lookup {f : OptionFlag} (h : table.lookup o = some f) (i : Nat) :
    touches table i o = if f.flag.getLsbD i then some f.clear else none := by
  rw [touches, h]
  rfl

theorem touches_of_lookup_none (h : table.lookup o = none) (i : Nat) :
    touches table i o = none := by
  rw [touches, h]
  rfl

theorem touches_of_mountFlagOf_none (h : mountFlagOf o = none) (i : Nat) :
    touches mountFlags i o = none := by
  cases hlookup : mountFlags.lookup o with
  | none => exact touches_of_lookup_none hlookup i
  | some f =>
    have hzero : f.flag = 0 := by
      rw [mountFlagOf, hlookup, Option.filter_some] at h
      by_contra hne
      rw [if_pos (decide_eq_true hne)] at h
      cases h
    have hbit : (0 : Flags).getLsbD i = false := BitVec.getLsbD_zero
    rw [touches_of_lookup hlookup, hzero, hbit]
    rfl

section Step

variable {o : Text} {s next : Parsed}

theorem recAttr_m (s : Parsed) (f : OptionFlag) : (s.recAttr f).m = s.m := by
  by_cases hatime : f.flag &&& mountAttrAtime = f.flag
  · simp [Parsed.recAttr, hatime]
  · simp [Parsed.recAttr, hatime]

theorem mountFlag_recAttr (s : Parsed) (f : OptionFlag) :
    (s.mountFlag f).recAttrSet = s.recAttrSet ∧
      (s.mountFlag f).recAttrClr = s.recAttrClr ∧
      (s.mountFlag f).m.propagationFlags = s.m.propagationFlags := by
  unfold Parsed.mountFlag
  split <;> exact ⟨rfl, rfl, rfl⟩

theorem Round.flags (h : Round o s next) (i : Nat) :
    bitPair next.m.flags next.m.clearedFlags i =
      (touches mountFlags i o).elim (bitPair s.m.flags s.m.clearedFlags i) written := by
  cases h with
  | mountFlag f hflag _ _ =>
    have hlookup := (Option.filter_eq_some_iff.mp hflag).1
    obtain ⟨hflags, hcleared⟩ := mountFlag_flags s f
    rw [hflags, hcleared, bitPair_put, touches_of_lookup hlookup]
    split <;> rfl
  | propagation f hflag _ _ =>
    rw [touches_of_mountFlagOf_none hflag]
    rfl
  | recAttr f hflag _ _ =>
    rw [touches_of_mountFlagOf_none hflag, recAttr_m]
    rfl
  | other _ hflag _ _ hflags hcleared _ _ _ =>
    rw [touches_of_mountFlagOf_none hflag, hflags, hcleared]
    rfl

def writtenRec (i : Nat) (clear : Bool) : Bool × Bool :=
  (!clear, clear || mountAttrAtime.getLsbD i)

theorem Round.recAttrs (h : Round o s next) (i : Nat) :
    bitPair next.recAttrSet (next.recAttrClr ||| mountAttrAtime) i =
      (touches recAttrFlags i o).elim
        (bitPair s.recAttrSet (s.recAttrClr ||| mountAttrAtime) i) (writtenRec i) := by
  cases h with
  | mountFlag f _ _ hrec =>
    obtain ⟨hset, hclr, -⟩ := mountFlag_recAttr s f
    rw [touches_of_lookup_none hrec, hset, hclr]
    rfl
  | propagation f _ _ hrec =>
    rw [touches_of_lookup_none hrec]
    rfl
  | recAttr f _ _ hrec =>
    rw [recAttr_bitPair, touches_of_lookup hrec, bitPair, bitPair, BitVec.getLsbD_or,
      BitVec.getLsbD_or, Flags.getLsbD_put, Flags.getLsbD_put]
    split <;> rfl
  | other _ _ _ hrec _ _ _ hset hclr =>
    rw [touches_of_lookup_none hrec, hset, hclr]
    rfl

theorem Round.propagationFlags (h : Round o s next) :
    next.m.propagationFlags =
      s.m.propagationFlags ++ (mountPropagationMapping.lookup o).toList := by
  cases h with
  | mountFlag f _ hpropagation _ =>
    rw [hpropagation, (mountFlag_recAttr s f).2.2]
    exact (List.append_nil _).symm
  | propagation f _ hpropagation _ =>
    rw [hpropagation]
    rfl
  | recAttr f _ hpropagation _ =>
    rw [hpropagation, recAttr_m]
    exact (List.append_nil _).symm
  | other _ _ hpropagation _ _ _ hadded _ _ =>
    rw [hpropagation, hadded]
    exact (List.append_nil _).symm

end Step

def recAttrOf (m : Configs.Mount) : MountAttr :=
  m.recAttr.getD ⟨0, 0⟩

section

variable (options : List Text)
include options

theorem recAttrOf_parseMountOptions :
    recAttrOf (parseMountOptions options) =
      ⟨(options.foldl parseOption {}).recAttrSet, (options.foldl parseOption {}).recAttrClr⟩ := by
  rw [recAttrOf, parseMountOptions]
  split
  case isTrue h =>
      rfl
  case isFalse h =>
      rw [not_or, not_not, not_not] at h
      rw [h.1, h.2]
      rfl

theorem flags_last (i : Nat) :
    ((parseMountOptions options).flags.getLsbD i = true ↔
        LastTouch mountFlags i false options) ∧
      ((parseMountOptions options).clearedFlags.getLsbD i = true ↔
        LastTouch mountFlags i true options) := by
  have hread := foldl_read (fun s : Parsed => bitPair s.m.flags s.m.clearedFlags i) written
    (fun s o => (parseOption_round s o).flags i) options {}
  have hstart : bitPair ({} : Parsed).m.flags ({} : Parsed).m.clearedFlags i = (false, false) :=
    Prod.ext BitVec.getLsbD_zero BitVec.getLsbD_zero
  rw [hstart] at hread
  obtain ⟨hset, hclr⟩ := Prod.mk.inj hread
  rw [← lastWrite_touches_iff, ← lastWrite_touches_iff, parseMountOptions]
  rw [hset, hclr]
  rcases lastWrite (touches mountFlags i) options with _ | _ | _ <;> decide

theorem recAttrs_read (i : Nat) :
    bitPair (recAttrOf (parseMountOptions options)).attrSet
        ((recAttrOf (parseMountOptions options)).attrClr ||| mountAttrAtime) i =
      (lastWrite (touches recAttrFlags i) options).elim
        (false, mountAttrAtime.getLsbD i) (writtenRec i) := by
  have hread := foldl_read
    (fun s : Parsed => bitPair s.recAttrSet (s.recAttrClr ||| mountAttrAtime) i)
    (writtenRec i) (fun s o => (parseOption_round s o).recAttrs i) options {}
  have hstart : bitPair ({} : Parsed).recAttrSet (({} : Parsed).recAttrClr ||| mountAttrAtime) i =
      (false, mountAttrAtime.getLsbD i) := by
    refine Prod.ext BitVec.getLsbD_zero ?_
    exact congrArg (fun v : Flags => v.getLsbD i) BitVec.zero_or
  rw [hstart] at hread
  rw [recAttrOf_parseMountOptions]
  exact hread

theorem attrSet_last (i : Nat) :
    (recAttrOf (parseMountOptions options)).attrSet.getLsbD i = true ↔
      LastTouch recAttrFlags i false options := by
  have hset := congrArg Prod.fst (recAttrs_read options i)
  dsimp only [bitPair] at hset
  rw [hset, ← lastWrite_touches_iff]
  rcases lastWrite (touches recAttrFlags i) options with _ | _ | _
  · simp
  · simp [writtenRec]
  · simp [writtenRec]

theorem attrClr_last (hi : mountAttrAtime.getLsbD i = false) :
    (recAttrOf (parseMountOptions options)).attrClr.getLsbD i = true ↔
      LastTouch recAttrFlags i true options := by
  have hclr := congrArg Prod.snd (recAttrs_read options i)
  dsimp only [bitPair] at hclr
  rw [BitVec.getLsbD_or, hi, Bool.or_false] at hclr
  rw [hclr, ← lastWrite_touches_iff]
  rcases lastWrite (touches recAttrFlags i) options with _ | _ | _
  · simp
  · simp [writtenRec, hi]
  · simp [writtenRec]

theorem foldl_propagationFlags (s : Parsed) :
    (options.foldl parseOption s).m.propagationFlags =
      s.m.propagationFlags ++ options.filterMap (fun o => mountPropagationMapping.lookup o) := by
  induction options generalizing s with
  | nil => exact (List.append_nil _).symm
  | cons o options ih =>
    rw [List.foldl_cons, ih, (parseOption_round s o).propagationFlags, List.append_assoc,
      List.filterMap_cons]
    cases mountPropagationMapping.lookup o with
    | none => rfl
    | some f => rfl

end

theorem parseMountOptions_bits (options : List Text) :
    (parseMountOptions options).flags &&& (parseMountOptions options).clearedFlags = 0 ∧
    (∀ i : Nat,
      ((parseMountOptions options).flags.getLsbD i = true ↔
        LastTouch mountFlags i false options) ∧
      ((parseMountOptions options).clearedFlags.getLsbD i = true ↔
        LastTouch mountFlags i true options)) ∧
    (∀ i : Nat, mountAttrAtime.getLsbD i = false →
      ((recAttrOf (parseMountOptions options)).attrSet.getLsbD i = true ↔
        LastTouch recAttrFlags i false options) ∧
      ((recAttrOf (parseMountOptions options)).attrClr.getLsbD i = true ↔
        LastTouch recAttrFlags i true options)) ∧
    (parseMountOptions options).propagationFlags =
      options.filterMap (fun o => mountPropagationMapping.lookup o) := by
  refine ⟨parseMountOptions_disjoint options, flags_last options,
    fun i hi => ⟨attrSet_last options i, attrClr_last options hi⟩, ?_⟩
  exact (foldl_propagationFlags options {}).trans (List.nil_append _)

def isAccessTime (o : Text) : Bool :=
  (recAttrFlags.lookup o).any fun f => f.flag &&& mountAttrAtime = f.flag

def accessTimes : List (Text × Flags) :=
  [("rrelatime".toList, mountAttrRelatime), ("rnoatime".toList, mountAttrNoatime),
    ("rstrictatime".toList, mountAttrStrictatime)]

def accessTimeBits : List (Text × Text × Nat) :=
  [("rnoatime".toList, "ratime".toList, 4),
    ("rstrictatime".toList, "rnostrictatime".toList, 5)]

def Undone (options : List Text) (o undo : Text) : Prop :=
  ∀ before after, options = before ++ o :: after → undo ∈ after

theorem touches_eq_some_iff {clear : Bool} :
    touches table i o = some clear ↔
      ∃ f, table.lookup o = some f ∧ f.flag.getLsbD i = true ∧ f.clear = clear := by
  rw [touches, Option.bind_eq_some_iff]
  refine exists_congr fun f => and_congr_right fun _ => ?_
  cases f.flag.getLsbD i with
  | true => simp
  | false => simp

theorem touches_accessTimeBits {set undo : Text} (h : (set, undo, i) ∈ accessTimeBits) (o : Text) :
    (touches recAttrFlags i o = some false ↔ o = set) ∧
      (touches recAttrFlags i o = some true ↔ o = undo) := by
  have htable : ∀ mode ∈ accessTimeBits, ∀ entry ∈ recAttrFlags,
      entry.2.flag.getLsbD mode.2.2 = true →
        entry.1 = if entry.2.clear then mode.2.1 else mode.1 := by
    decide
  have hmodes : ∀ mode ∈ accessTimeBits, touches recAttrFlags mode.2.2 mode.1 = some false ∧
        touches recAttrFlags mode.2.2 mode.2.1 = some true := by
    decide
  obtain ⟨hset, hundo⟩ := hmodes _ h
  constructor
  · refine ⟨fun htouch => ?_, fun heq => heq ▸ hset⟩
    obtain ⟨f, hlookup, hbit, hclear⟩ := touches_eq_some_iff.mp htouch
    have hname := htable _ h _ (mem_of_lookup hlookup) hbit
    rwa [hclear] at hname
  · refine ⟨fun htouch => ?_, fun heq => heq ▸ hundo⟩
    obtain ⟨f, hlookup, hbit, hclear⟩ := touches_eq_some_iff.mp htouch
    have hname := htable _ h _ (mem_of_lookup hlookup) hbit
    rwa [hclear] at hname

theorem touches_of_not_accessTime (h : isAccessTime o = false)
    (hi : mountAttrAtime.getLsbD i = true) : touches recAttrFlags i o = none := by
  have htable : ∀ entry ∈ recAttrFlags, entry.2.flag &&& mountAttrAtime = 0 ∨
      entry.2.flag &&& mountAttrAtime = entry.2.flag := by
    decide
  cases hlookup : recAttrFlags.lookup o with
  | none => exact touches_of_lookup_none hlookup i
  | some f =>
    rw [isAccessTime, hlookup, Option.any_some, decide_eq_false_iff_not] at h
    have hzero := (htable _ (mem_of_lookup hlookup)).resolve_right h
    have hbit : (f.flag &&& mountAttrAtime).getLsbD i = (0 : Flags).getLsbD i :=
      congrArg (fun v : Flags => v.getLsbD i) hzero
    rw [BitVec.getLsbD_and, hi, Bool.and_true] at hbit
    rw [touches_of_lookup hlookup, hbit, if_neg]
    simp

section Last

variable {before after : List Text} {o : Text}

variable {i : Nat}

theorem attrSet_accessTime {set undo : Text} (hbit : (set, undo, i) ∈ accessTimeBits)
    (ho : o ∈ accessTimes.map Prod.fst) (hafter : ∀ p ∈ after, isAccessTime p = false) :
    (recAttrOf (parseMountOptions (before ++ o :: after))).attrSet.getLsbD i = true ↔
      o = set ∨ ¬ Undone before set undo := by
  have hmask : ∀ mode ∈ accessTimeBits, mountAttrAtime.getLsbD mode.2.2 = true := by
    decide
  have hnames : ∀ mode ∈ accessTimeBits, ∀ name ∈ accessTimes.map Prod.fst,
      name ≠ mode.2.1 := by
    decide
  have htouch := touches_accessTimeBits hbit
  have hsilent : lastWrite (touches recAttrFlags i) after = none :=
    lastWrite_eq_none_iff.mpr fun p hp =>
      touches_of_not_accessTime (hafter p hp) (hmask _ hbit)
  have hundone : lastWrite (touches recAttrFlags i) before ≠ some false ↔
      Undone before set undo := by
    refine lastWrite_of_unique (fun z => (htouch z).1) (fun z => ?_) before
    rw [← (htouch z).2]
    constructor
    · rintro ⟨c, hc, hne⟩
      rw [hc, Bool.eq_true_of_not_eq_false hne]
    · exact fun hz => ⟨true, hz, Bool.true_eq_false_eq_False⟩
  rw [attrSet_last, ← lastWrite_touches_iff, lastWrite_append, lastWrite, hsilent,
    Option.none_or, ← hundone, not_not]
  by_cases heq : o = set
  · rw [(htouch o).1.mpr heq]
    simp [heq]
  · have hnone : touches recAttrFlags i o = none := by
      cases hvalue : touches recAttrFlags i o with
      | none => rfl
      | some clear =>
        cases clear with
        | true => exact absurd ((htouch o).2.mp hvalue) (hnames _ hbit o ho)
        | false => exact absurd ((htouch o).1.mp hvalue) heq
    rw [hnone, Option.none_or]
    simp [heq]

theorem Round.accessTime {s next : Parsed} (h : Round o s next)
    (hi : mountAttrAtime.getLsbD i = true) :
    next.recAttrClr.getLsbD i =
      (if isAccessTime o then some () else none).elim (s.recAttrClr.getLsbD i)
        (fun _ => true) := by
  have hother : recAttrFlags.lookup o = none → isAccessTime o = false := by
    intro hrec
    rw [isAccessTime, hrec]
    rfl
  cases h with
  | mountFlag f _ _ hrec =>
    rw [hother hrec, (mountFlag_recAttr s f).2.1]
    rfl
  | propagation f _ _ hrec =>
    rw [hother hrec]
    rfl
  | other _ _ _ hrec _ _ _ _ hclr =>
    rw [hother hrec, hclr]
    rfl
  | recAttr f _ _ hrec =>
    have hiff : isAccessTime o = decide (f.flag &&& mountAttrAtime = f.flag) := by
      rw [isAccessTime, hrec, Option.any_some]
    rw [(recAttr_flags s f).2, hiff]
    by_cases hatime : f.flag &&& mountAttrAtime = f.flag
    · rw [if_pos hatime, BitVec.getLsbD_or, hi, Bool.or_true, decide_eq_true hatime]
      rfl
    · have hnone := touches_of_not_accessTime (o := o) (hiff.trans (decide_eq_false hatime)) hi
      have hbit : f.flag.getLsbD i = false := by
        by_contra hne
        rw [touches_of_lookup hrec, if_pos (Bool.eq_true_of_not_eq_false hne)] at hnone
        cases hnone
      rw [if_neg hatime, Flags.getLsbD_put, hbit, decide_eq_false hatime]
      rfl

theorem attrClr_accessTime {options : List Text} (ho : o ∈ options) (htime : isAccessTime o = true)
    (hi : mountAttrAtime.getLsbD i = true) :
    (recAttrOf (parseMountOptions options)).attrClr.getLsbD i = true := by
  have hread := foldl_read (fun s : Parsed => s.recAttrClr.getLsbD i) (fun _ : Unit => true)
    (fun s p => (parseOption_round s p).accessTime hi) options {}
  rw [recAttrOf_parseMountOptions]
  rw [hread]
  cases hlast : lastWrite (fun p => if isAccessTime p = true then some () else none) options with
  | none =>
    have hnone := lastWrite_eq_none_iff.mp hlast o ho
    rw [if_pos htime] at hnone
    cases hnone
  | some _ => rfl

variable {value : Flags}

theorem accessTime_eq_iff {w : Flags} (hvalue : value &&& mountAttrAtime = value) :
    w &&& mountAttrAtime = value ↔
      ∀ i, mountAttrAtime.getLsbD i = true → w.getLsbD i = value.getLsbD i := by
  constructor
  · rintro rfl i hi
    rw [BitVec.getLsbD_and, hi, Bool.and_true]
  · intro h
    rw [← hvalue]
    refine BitVec.eq_of_getLsbD_eq fun i _ => ?_
    rw [BitVec.getLsbD_and, BitVec.getLsbD_and]
    cases hi : mountAttrAtime.getLsbD i with
    | true => rw [h i hi]
    | false => rw [Bool.and_false, Bool.and_false]

theorem accessTime_bits (i : Nat) : mountAttrAtime.getLsbD i = true ↔ i = 4 ∨ i = 5 ∨ i = 6 := by
  by_cases hi : i < 64
  · revert i
    decide
  · rw [BitVec.getLsbD_of_ge _ _ (Nat.le_of_not_lt hi)]
    simp only [Bool.false_eq_true, false_iff]
    omega

theorem attrSet_unused (options : List Text) :
    (recAttrOf (parseMountOptions options)).attrSet.getLsbD 6 = false := by
  have htable : ∀ entry ∈ recAttrFlags, entry.2.flag.getLsbD 6 = false := by
    decide
  by_contra hbit
  obtain ⟨-, o, -, -, htouch, -⟩ := (attrSet_last options 6).mp (Bool.eq_true_of_not_eq_false hbit)
  obtain ⟨f, hlookup, hf, -⟩ := touches_eq_some_iff.mp htouch
  rw [htable _ (mem_of_lookup hlookup)] at hf
  cases hf

theorem accessTimes_value (ho : (o, value) ∈ accessTimes) :
    value &&& mountAttrAtime = value ∧ value.getLsbD 6 = false ∧
      isAccessTime o = true ∧
      ∀ mode ∈ accessTimeBits, (value.getLsbD mode.2.2 = true ↔ o = mode.1) := by
  have htable : ∀ entry ∈ accessTimes, entry.2 &&& mountAttrAtime = entry.2 ∧
      entry.2.getLsbD 6 = false ∧ isAccessTime entry.1 = true ∧
      ∀ mode ∈ accessTimeBits, (entry.2.getLsbD mode.2.2 = true ↔ entry.1 = mode.1) := by
    decide
  exact htable _ ho

theorem attrSet_bit_iff {set undo : Text} (ho : (o, value) ∈ accessTimes)
    (hafter : ∀ p ∈ after, isAccessTime p = false) (hbit : (set, undo, i) ∈ accessTimeBits) :
    (recAttrOf (parseMountOptions (before ++ o :: after))).attrSet.getLsbD i =
        value.getLsbD i ↔
      (o ≠ set → Undone before set undo) := by
  have hmem : o ∈ accessTimes.map Prod.fst := List.mem_map.mpr ⟨_, ho, rfl⟩
  rw [Bool.eq_iff_iff, attrSet_accessTime hbit hmem hafter, (accessTimes_value ho).2.2.2 _ hbit]
  constructor
  · intro h hne
    by_contra hundone
    exact hne (h.mp (.inr hundone))
  · intro h
    constructor
    · rintro (heq | hundone)
      · exact heq
      · by_contra hne
        exact hundone (h hne)
    · exact .inl

theorem accessTime_exact_iff (before after : List Text) (o : Text) (value : Flags)
    (ho : (o, value) ∈ accessTimes) (hafter : ∀ p ∈ after, isAccessTime p = false) :
    ∃ attr : MountAttr,
      (parseMountOptions (before ++ o :: after)).recAttr = some attr ∧
      attr.attrClr &&& mountAttrAtime = mountAttrAtime ∧
      (attr.attrSet &&& mountAttrAtime = value ↔
        (o ≠ "rnoatime".toList → Undone before "rnoatime".toList "ratime".toList) ∧
        (o ≠ "rstrictatime".toList →
          Undone before "rstrictatime".toList "rnostrictatime".toList)) := by
  obtain ⟨hvalue, hunused, htime, -⟩ := accessTimes_value ho
  have hclr := fun i => attrClr_accessTime (i := i)
    (List.mem_append_right before (List.mem_cons_self (a := o) (l := after))) htime
  have hfirst : mountAttrAtime.getLsbD 4 = true := by decide
  -- an access-time bit is cleared, so that there are attributes
  obtain ⟨attr, hattr⟩ : ∃ attr,
      (parseMountOptions (before ++ o :: after)).recAttr = some attr := by
    cases hrec : (parseMountOptions (before ++ o :: after)).recAttr with
    | some attr => exact ⟨attr, rfl⟩
    | none =>
      have hbit := hclr 4 hfirst
      rw [recAttrOf, hrec] at hbit
      exact absurd hbit (by decide)
  have hof : recAttrOf (parseMountOptions (before ++ o :: after)) = attr := by
    rw [recAttrOf, hattr]
    rfl
  refine ⟨attr, hattr, ?_, ?_⟩
  · rw [← hof, accessTime_eq_iff (BitVec.and_self)]
    exact fun i hi => (hclr i hi).trans hi.symm
  · rw [← attrSet_bit_iff ho hafter (i := 4) (by decide),
      ← attrSet_bit_iff ho hafter (i := 5) (by decide), ← hof, accessTime_eq_iff hvalue]
    constructor
    · exact fun h => ⟨h 4 (by decide), h 5 (by decide)⟩
    · rintro ⟨hnoatime, hstrict⟩ i hi
      rcases (accessTime_bits i).mp hi with rfl | rfl | rfl
      · exact hnoatime
      · exact hstrict
      · rw [attrSet_unused, hunused]

theorem accessTime_exact_undone :
    ∃ attr : MountAttr,
      (parseMountOptions (["rnoatime".toList, "ratime".toList] ++
        "rstrictatime".toList :: ["ro".toList])).recAttr = some attr ∧
      attr.attrClr &&& mountAttrAtime = mountAttrAtime ∧
      (attr.attrSet &&& mountAttrAtime = mountAttrStrictatime ↔
        ("rstrictatime".toList ≠ "rnoatime".toList →
          Undone ["rnoatime".toList, "ratime".toList] "rnoatime".toList "ratime".toList) ∧
        ("rstrictatime".toList ≠ "rstrictatime".toList →
          Undone ["rnoatime".toList, "ratime".toList] "rstrictatime".toList
            "rnostrictatime".toList)) :=
  accessTime_exact_iff _ _ _ _ (by decide) (by decide)

theorem accessTime_combined :
    (parseMountOptions ["rnoatime".toList, "rstrictatime".toList]).recAttr =
        some ⟨mountAttrNoatime ||| mountAttrStrictatime, mountAttrAtime⟩ ∧
      (parseMountOptions ["rnoatime".toList, "rrelatime".toList]).recAttr =
        some ⟨mountAttrNoatime, mountAttrAtime⟩ := by
  decide

end Last

end Runc.Specconv
