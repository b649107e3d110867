import Runc.Lib.BitSet
import Runc.Lib.Indexing
import Runc.Lib.Program
import Runc.Lib.Strconv

/-!
# Lists of CPUs

`ToCPUSet` reads a list such as `0-3,5,7-9` into the bits of a `unix.CPUSet`.
-/

namespace Runc.Configs

open Lib

inductive CPUMask
  | uint32
  | uint64
deriving DecidableEq

def CPUMask.ncpubits : CPUMask → Nat
  | .uint32 => 0x20
  | .uint64 => 0x40

def CPUMask.cpuSetSize (mask : CPUMask) : Nat :=
  0x400 / mask.ncpubits

abbrev CPUSet (mask : CPUMask) := BitSet mask.cpuSetSize mask.ncpubits

def CPUMask.maxCPU (mask : CPUMask) : Nat :=
  mask.cpuSetSize * mask.ncpubits

theorem CPUMask.maxCPU_eq (mask : CPUMask) : mask.maxCPU = 1024 := by
  cases mask <;> rfl

variable (unicode : Unicode) {mask : CPUMask}

def toInt (mask : CPUMask) (v : Text) : Except Text Nat :=
  match parseUint 32 v with
  | .error err => .error (err.parseUint unicode v)
  | .ok ret =>
      if ret ≥ mask.maxCPU then
        .error ("values larger than ".toList ++ Nat.toDigits 10 (mask.maxCPU - 1) ++
          " are not supported".toList)
      else .ok ret

def setRange (s : CPUSet mask) (i last : Nat) : CPUSet mask :=
  if i ≤ last then setRange (s.set i) (i + 1) last else s
termination_by last + 1 - i

def addElement (s : CPUSet mask) (part : Text) : Except Text (CPUSet mask) :=
  let r := trimSpace part
  if r = [] then .ok s
  else
    match cut '-' r with
    | some (r0, r1) => do
        let start ← toInt unicode mask r0
        let last ← toInt unicode mask r1
        if start > last then .error ("invalid range: ".toList ++ r)
        else .ok (setRange s start last)
    | none => do
        let val ← toInt unicode mask r
        .ok (s.set val)

def toCPUSet (mask : CPUMask) (str : Text) : Except Text (Option (CPUSet mask)) :=
  if str = [] then .ok none
  else do
    let s ← (str.splitOn ',').foldlM (addElement unicode) BitSet.empty
    if s.count = 0 then .error ("no members found in set ".toList ++ quote unicode str)
    else .ok (some s)

def elements (str : Text) : List Text :=
  (str.splitOn ',').map trimSpace

structure IsCPU (mask : CPUMask) (v : Text) (n : Nat) : Prop where
  ne_nil : v ≠ []
  digits : ∀ c ∈ v, isDigit c = true
  value : n = Nat.ofDigitChars 10 v 0
  lt : n < mask.maxCPU

inductive Element (mask : CPUMask) : Text → Nat → Nat → Prop
  | number
      {v : Text} {n : Nat}
      (h : IsCPU mask v n) :
      Element mask v n n
  | range
      {a b : Text} {lo hi : Nat}
      (hlo : IsCPU mask a lo)
      (hhi : IsCPU mask b hi)
      (hle : lo ≤ hi) :
      Element mask (a ++ '-' :: b) lo hi

variable {unicode}

theorem toInt_eq_ok_iff {v : Text} {n : Nat} : toInt unicode mask v = .ok n ↔ IsCPU mask v n := by
  have hmax := mask.maxCPU_eq
  constructor
  · intro h
    unfold toInt at h
    split at h
    · cases h
    · rename_i ret hret
      obtain ⟨hne, hdigits, hvalue, -⟩ := parseUint_eq_ok_iff.mp hret
      split at h
      · cases h
      · rename_i hlt
        cases h
        exact ⟨hne, hdigits, hvalue, Nat.lt_of_not_le hlt⟩
  · intro h
    have hlt := h.lt
    have hparse : parseUint 32 v = .ok n :=
      parseUint_eq_ok_iff.mpr ⟨h.ne_nil, h.digits, h.value, by omega⟩
    simp only [toInt, hparse]
    exact if_neg (by omega)

theorem IsCPU.no_dash {v : Text} {n : Nat} (h : IsCPU mask v n) : '-' ∉ v :=
  fun hmem => absurd (h.digits _ hmem) (by decide)

theorem setRange_self (s : CPUSet mask) (n : Nat) : setRange s n n = s.set n := by
  rw [setRange, if_pos (Nat.le_refl n), setRange, if_neg (by omega)]

variable {lo hi : Nat}

theorem bit_setRange (s : CPUSet mask) (hhi : hi < mask.maxCPU) (k : Nat) :
    (setRange s lo hi).bit k = true ↔ s.bit k = true ∨ (lo ≤ k ∧ k ≤ hi) := by
  fun_induction setRange s lo hi with
  | case1 s lo hle ih =>
    rw [ih, s.bit_set (Nat.lt_of_le_of_lt hle hhi), Bool.or_eq_true, decide_eq_true_eq]
    constructor
    · rintro ((hbit | rfl) | ⟨hlo, hk⟩)
      · exact Or.inl hbit
      · exact Or.inr ⟨Nat.le_refl k, hle⟩
      · exact Or.inr ⟨by omega, hk⟩
    · rintro (hbit | ⟨hlo, hk⟩)
      · exact Or.inl (Or.inl hbit)
      · by_cases heq : k = lo
        · exact Or.inl (Or.inr heq)
        · exact Or.inr ⟨by omega, hk⟩
  | case2 s lo hgt =>
    constructor
    · exact Or.inl
    · rintro (hbit | ⟨hlo, hk⟩)
      · exact hbit
      · omega

theorem Element.lt {r : Text} (h : Element mask r lo hi) : lo ≤ hi ∧ hi < mask.maxCPU := by
  cases h with
  | number h => exact ⟨Nat.le_refl _, h.lt⟩
  | range hlo hhi hle => exact ⟨hle, hhi.lt⟩

theorem Element.ne_nil {r : Text} (h : Element mask r lo hi) : r ≠ [] := by
  cases h with
  | number h => exact h.ne_nil
  | range => simp

variable {part : Text}

theorem addElement_of_element (s : CPUSet mask) (h : Element mask (trimSpace part) lo hi) :
    addElement unicode s part = .ok (setRange s lo hi) := by
  unfold addElement
  simp only [if_neg h.ne_nil]
  generalize trimSpace part = r at h
  cases h with
  | number h =>
    rw [cut_eq_none h.no_dash]
    simp only [toInt_eq_ok_iff.mpr h, setRange_self]
    rfl
  | range hlo hhi hle =>
    rw [cut_eq_some_iff.mpr ⟨rfl, hlo.no_dash⟩]
    simp only [toInt_eq_ok_iff.mpr hlo, toInt_eq_ok_iff.mpr hhi]
    exact if_neg (by omega)

variable {s s' : CPUSet mask}

theorem addElement_eq_ok (h : addElement unicode s part = .ok s') :
    trimSpace part = [] ∧ s' = s ∨
      ∃ lo hi, Element mask (trimSpace part) lo hi ∧ s' = setRange s lo hi := by
  unfold addElement at h
  dsimp only at h
  split at h
  · rename_i hempty
    cases h
    exact Or.inl ⟨hempty, rfl⟩
  · right
    split at h
    · rename_i r0 r1 hcut
      obtain ⟨start, hstart, h⟩ := bind_eq_ok h
      obtain ⟨last, hlast, h⟩ := bind_eq_ok h
      split at h
      · cases h
      · rename_i hle
        cases h
        rw [(cut_eq_some_iff.mp hcut).1]
        exact ⟨start, last, .range (toInt_eq_ok_iff.mp hstart) (toInt_eq_ok_iff.mp hlast)
          (Nat.le_of_not_lt hle), rfl⟩
    · obtain ⟨val, hval, h⟩ := bind_eq_ok h
      cases h
      exact ⟨val, val, .number (toInt_eq_ok_iff.mp hval), (setRange_self s val).symm⟩

variable {parts : List Text}

theorem foldlM_addElement_iff :
    (∃ s', parts.foldlM (addElement unicode) s = .ok s') ↔
      ∀ part ∈ parts,
        trimSpace part = [] ∨ ∃ lo hi, Element mask (trimSpace part) lo hi := by
  induction parts generalizing s with
  | nil => exact ⟨fun _ => nofun, fun _ => ⟨s, rfl⟩⟩
  | cons part parts ih =>
    rw [List.forall_mem_cons, List.foldlM_cons]
    constructor
    · rintro ⟨s', h⟩
      obtain ⟨next, hnext, h⟩ := bind_eq_ok h
      refine ⟨?_, ih.mp ⟨s', h⟩⟩
      rcases addElement_eq_ok hnext with ⟨hempty, -⟩ | ⟨lo, hi, helement, -⟩
      · exact Or.inl hempty
      · exact Or.inr ⟨lo, hi, helement⟩
    · rintro ⟨hempty | ⟨lo, hi, helement⟩, hparts⟩
      · have hnext : addElement unicode s part = .ok s := by
          simp only [addElement, if_pos hempty]
        rw [hnext]
        exact ih.mpr hparts
      · rw [addElement_of_element s helement]
        exact ih.mpr hparts

theorem bit_addElement (h : addElement unicode s part = .ok s') (k : Nat) :
    s'.bit k = true ↔
      s.bit k = true ∨
        ∃ lo hi, Element mask (trimSpace part) lo hi ∧ lo ≤ k ∧ k ≤ hi := by
  rcases addElement_eq_ok h with ⟨hempty, rfl⟩ | ⟨lo, hi, helement, rfl⟩
  · constructor
    · exact Or.inl
    · rintro (hbit | ⟨lo, hi, helement, -⟩)
      · exact hbit
      · exact absurd hempty helement.ne_nil
  · constructor
    · intro hbit
      rw [bit_setRange s helement.lt.2] at hbit
      exact hbit.imp_right fun hk => ⟨lo, hi, helement, hk⟩
    · rintro (hbit | ⟨lo', hi', helement', hk⟩)
      · rw [bit_setRange s helement.lt.2]
        exact Or.inl hbit
      · -- the two readings of the element are the same, for they give the same set
        rw [addElement_of_element s helement'] at h
        rw [← Except.ok.inj h, bit_setRange s helement'.lt.2]
        exact Or.inr hk

theorem bit_foldlM_addElement (h : parts.foldlM (addElement unicode) s = .ok s') (k : Nat) :
    s'.bit k = true ↔
      s.bit k = true ∨
        ∃ part ∈ parts, ∃ lo hi, Element mask (trimSpace part) lo hi ∧ lo ≤ k ∧ k ≤ hi := by
  refine foldlM_keeps (fun done last => last.bit k = true ↔ s.bit k = true ∨
    ∃ part ∈ done, ∃ lo hi, Element mask (trimSpace part) lo hi ∧ lo ≤ k ∧ k ≤ hi) h ?_ ?_
  · simp
  · intro done part rest t t' _ hdone hstep _
    rw [bit_addElement hstep, hdone]
    simp only [List.mem_append, List.mem_singleton, or_and_right, exists_or,
      exists_eq_left, or_assoc]

theorem count_foldlM_addElement (h : parts.foldlM (addElement unicode) BitSet.empty = .ok s) :
    s.count = 0 ↔ ∀ part ∈ parts, trimSpace part = [] := by
  rw [BitSet.count_eq_zero_iff]
  constructor
  · intro hzero part hpart
    rcases foldlM_addElement_iff.mp ⟨s, h⟩ part hpart with hempty | ⟨lo, hi, helement⟩
    · exact hempty
    · have hbit : s.bit lo = true := (bit_foldlM_addElement h lo).mpr
          (Or.inr ⟨part, hpart, lo, hi, helement, Nat.le_refl lo, helement.lt.1⟩)
      rw [hzero lo] at hbit
      cases hbit
  · intro hempty k
    rw [← Bool.not_eq_true, bit_foldlM_addElement h k]
    rintro (hbit | ⟨part, hpart, lo, hi, helement, -⟩)
    · simp at hbit
    · exact helement.ne_nil (hempty part hpart)

theorem toCPUSet_eq_ok_iff {str : Text} {result : Option (CPUSet mask)} (hstr : str ≠ []) :
    toCPUSet unicode mask str = .ok result ↔
      ∃ s, (str.splitOn ',').foldlM (addElement unicode) BitSet.empty = .ok s ∧
        (∃ r ∈ elements str, r ≠ []) ∧ result = some s := by
  have hmember : ∀ {s : CPUSet mask},
      (str.splitOn ',').foldlM (addElement unicode) BitSet.empty = .ok s →
      (s.count ≠ 0 ↔ ∃ r ∈ elements str, r ≠ []) := by
    intro s hs
    rw [ne_eq, count_foldlM_addElement hs, elements]
    simp only [List.mem_map, exists_exists_and_eq_and, not_forall, exists_prop, ne_eq]
  rw [toCPUSet, if_neg hstr]
  constructor
  · intro h
    obtain ⟨s, hs, h⟩ := bind_eq_ok h
    split at h
    · cases h
    · rename_i hcount
      cases h
      exact ⟨s, hs, (hmember hs).mp hcount, rfl⟩
  · rintro ⟨s, hs, hsome, rfl⟩
    rw [hs]
    exact if_neg ((hmember hs).mpr hsome)

theorem toCPUSet_eq_ok_none_iff {str : Text} : toCPUSet unicode mask str = .ok none ↔ str = [] := by
  constructor
  · intro h
    by_contra hstr
    obtain ⟨s, -, -, hnone⟩ := (toCPUSet_eq_ok_iff hstr).mp h
    cases hnone
  · rintro rfl
    rfl

/-- What `ToCPUSet` accepts and returns. -/
theorem toCPUSet_spec (unicode : Unicode) (mask : CPUMask) (str : Text) :
    ((∃ result, toCPUSet unicode mask str = .ok result) ↔
      str = [] ∨
        ((∀ r ∈ elements str, r = [] ∨ ∃ lo hi, Element mask r lo hi) ∧
          ∃ r ∈ elements str, r ≠ [])) ∧
    (toCPUSet unicode mask str = .ok none ↔ str = []) ∧
    ∀ s, toCPUSet unicode mask str = .ok (some s) →
      ∀ k, s.bit k = true ↔
        ∃ r ∈ elements str, ∃ lo hi, Element mask r lo hi ∧ lo ≤ k ∧ k ≤ hi := by
  have hempty : toCPUSet unicode mask [] = .ok none := rfl
  by_cases hstr : str = []
  · subst hstr
    refine ⟨⟨fun _ => Or.inl rfl, fun _ => ⟨none, hempty⟩⟩, ⟨fun _ => rfl, fun _ => hempty⟩, ?_⟩
    intro s hs
    rw [hempty] at hs
    cases hs
  · have hloop : (∃ s, (str.splitOn ',').foldlM (addElement unicode) (BitSet.empty : CPUSet mask) =
          .ok s) ↔ ∀ part ∈ str.splitOn ',',
            trimSpace part = [] ∨ ∃ lo hi, Element mask (trimSpace part) lo hi :=
      foldlM_addElement_iff
    have helements : (∀ r ∈ elements str, r = [] ∨ ∃ lo hi, Element mask r lo hi) ↔
        ∀ part ∈ str.splitOn ',',
          trimSpace part = [] ∨ ∃ lo hi, Element mask (trimSpace part) lo hi :=
      List.forall_mem_map
    refine ⟨?_, ?_, ?_⟩
    · rw [helements, ← hloop]
      constructor
      · rintro ⟨result, h⟩
        obtain ⟨s, hs, hsome, -⟩ := (toCPUSet_eq_ok_iff hstr).mp h
        exact Or.inr ⟨⟨s, hs⟩, hsome⟩
      · rintro (h | ⟨⟨s, hs⟩, hsome⟩)
        · exact absurd h hstr
        · exact ⟨some s, (toCPUSet_eq_ok_iff hstr).mpr ⟨s, hs, hsome, rfl⟩⟩
    · exact toCPUSet_eq_ok_none_iff
    · intro s h k
      obtain ⟨s', hs, -, hsome⟩ := (toCPUSet_eq_ok_iff hstr).mp h
      cases hsome
      rw [bit_foldlM_addElement hs]
      simp [elements]

end Runc.Configs
