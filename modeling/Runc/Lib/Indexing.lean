import Runc.Lib.Bytes
import Runc.Lib.Text

/-!
# Indexing into byte strings

`s[i]` and `s[lo:hi]` panic if they reach outside the string: here they are `none`.
`indexByte` and `lastIndexByte` find the offsets such an expression is made of.
-/

namespace Runc.Lib

/-- `t[i]`. -/
def byteAt (t : Text) (i : Nat) : Option Char :=
  t[i]?

/-- `t[lo:hi]`. -/
def substr (t : Text) (lo hi : Nat) : Option Text :=
  if lo ≤ hi then slice t lo (hi - lo) else none

/-- `t[lo:]`. -/
def substrFrom (t : Text) (lo : Nat) : Option Text :=
  substr t lo t.length

theorem byteAt_eq_some {t : Text} {i : Nat} (hi : i < t.length) : ∃ c, byteAt t i = some c :=
  ⟨t[i], List.getElem?_eq_getElem hi⟩

theorem byteAt_append (a b : Text) (c : Char) : byteAt (a ++ c :: b) a.length = some c := by
  rw [byteAt, List.getElem?_append_right (Nat.le_refl _), Nat.sub_self]
  rfl

theorem substr_eq_some {t : Text} {lo hi : Nat} (hle : lo ≤ hi) (hhi : hi ≤ t.length) :
    substr t lo hi = some ((t.drop lo).take (hi - lo)) := by
  rw [substr, if_pos hle]
  exact if_pos (by omega)

theorem substrFrom_eq_some {t : Text} {lo : Nat} (hlo : lo ≤ t.length) :
    substrFrom t lo = some (t.drop lo) := by
  rw [substrFrom, substr_eq_some hlo (Nat.le_refl _), ← List.length_drop, List.take_length]

theorem substr_middle (a b c : Text) :
    substr (a ++ (b ++ c)) a.length (a.length + b.length) = some b := by
  rw [substr, if_pos (by omega)]
  exact slice_append a c rfl (by omega)

theorem substrFrom_append (a b : Text) : substrFrom (a ++ b) a.length = some b := by
  rw [substrFrom_eq_some (by simp), List.drop_left]

section Bytes

variable {c : Char}

def indexByte (c : Char) (t : Text) : Option Nat :=
  t.idxOf? c

def lastIndexByte (c : Char) : Text → Option Nat
  | [] => none
  | d :: t =>
      match lastIndexByte c t with
      | some i => some (i + 1)
      | none => if d = c then some 0 else none

theorem indexByte_lt {t : Text} {i : Nat} (h : indexByte c t = some i) : i < t.length := by
  obtain ⟨hi, -⟩ := List.idxOf?_eq_some_iff.mp h
  exact hi

theorem indexByte_append {a : Text} (b : Text) (ha : c ∉ a) :
    indexByte c (a ++ c :: b) = some a.length := by
  induction a with
  | nil =>
    rw [List.nil_append, indexByte, List.idxOf?_cons, if_pos (by simp)]
    rfl
  | cons d a ih =>
    have hd : d ≠ c := fun h => ha (h ▸ List.mem_cons_self)
    have hrest := ih (fun h => ha (List.mem_cons_of_mem _ h))
    rw [indexByte] at hrest
    rw [indexByte, List.cons_append, List.idxOf?_cons, if_neg (by simpa using hd), hrest]
    rfl

theorem indexByte_eq_none_iff {t : Text} : indexByte c t = none ↔ c ∉ t :=
  List.idxOf?_eq_none_iff

theorem lastIndexByte_lt {t : Text} {i : Nat} (h : lastIndexByte c t = some i) : i < t.length := by
  induction t generalizing i with
  | nil => cases h
  | cons d t ih =>
    rw [lastIndexByte] at h
    split at h
    · rename_i j hj
      cases h
      exact Nat.succ_lt_succ (ih hj)
    · split at h
      · cases h
        exact Nat.succ_pos _
      · cases h

theorem lastIndexByte_of_not_mem {t : Text} (ht : c ∉ t) : lastIndexByte c t = none := by
  induction t with
  | nil => rfl
  | cons d t ih =>
    have hd : d ≠ c := fun h => ht (h ▸ List.mem_cons_self)
    rw [lastIndexByte, ih (fun h => ht (List.mem_cons_of_mem _ h))]
    exact if_neg hd

theorem lastIndexByte_append (a : Text) {b : Text} (hb : c ∉ b) :
    lastIndexByte c (a ++ c :: b) = some a.length := by
  induction a with
  | nil =>
    rw [List.nil_append, lastIndexByte, lastIndexByte_of_not_mem hb]
    exact if_pos rfl
  | cons d a ih =>
    rw [List.cons_append, lastIndexByte, ih]
    rfl

def cut (sep : Char) : Text → Option (Text × Text)
  | [] => none
  | c :: rest =>
      if c = sep then some ([], rest)
      else (cut sep rest).map fun parts => (c :: parts.1, parts.2)

theorem cut_eq_some_iff {sep : Char} {t before after : Text} :
    cut sep t = some (before, after) ↔ t = before ++ sep :: after ∧ sep ∉ before := by
  induction t generalizing before with
  | nil => simp [cut]
  | cons c rest ih =>
    rw [cut]
    by_cases hc : c = sep
    · subst hc
      rw [if_pos rfl]
      constructor
      · intro h
        cases h
        exact ⟨rfl, List.not_mem_nil⟩
      · rintro ⟨heq, hnot⟩
        cases before with
        | nil =>
          cases heq
          rfl
        | cons x before =>
          obtain ⟨rfl, -⟩ := List.cons.inj heq
          exact absurd List.mem_cons_self hnot
    · rw [if_neg hc]
      constructor
      · intro h
        obtain ⟨⟨before', after'⟩, hcut, heq⟩ := Option.map_eq_some_iff.mp h
        obtain ⟨rfl, rfl⟩ := Prod.mk.inj heq
        obtain ⟨rfl, hnot⟩ := ih.mp hcut
        refine ⟨rfl, fun hmem => ?_⟩
        rcases List.mem_cons.mp hmem with hsep | hmem
        · exact hc hsep.symm
        · exact hnot hmem
      · rintro ⟨heq, hnot⟩
        cases before with
        | nil => exact absurd (List.cons.inj heq).1 hc
        | cons x before =>
          obtain ⟨rfl, hrest⟩ := List.cons.inj heq
          have hcut : cut sep rest = some (before, after) :=
            ih.mpr ⟨hrest, fun h => hnot (List.mem_cons_of_mem _ h)⟩
          rw [hcut]
          rfl

theorem cut_eq_none {sep : Char} {t : Text} (h : sep ∉ t) : cut sep t = none := by
  cases hcut : cut sep t with
  | none => rfl
  | some parts =>
    obtain ⟨rfl, -⟩ := cut_eq_some_iff.mp hcut
    exact absurd (List.mem_append_right _ List.mem_cons_self) h

end Bytes

end Runc.Lib
