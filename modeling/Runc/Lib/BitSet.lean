import Mathlib.Algebra.Order.BigOperators.Group.List
import Mathlib.Algebra.Order.Ring.Nat

/-!
# Sets of small numbers

A set is an array of words; number `k` is bit `k % width` of word `k / width`.  A number
behind the last word is in no set, and adding it does nothing.
-/

namespace Runc.Lib

/-- `len` words of `width` bits. -/
structure BitSet (len width : Nat) where
  words : Vector (BitVec width) len
deriving DecidableEq

namespace BitSet

variable {len width : Nat}

def empty : BitSet len width :=
  ⟨Vector.replicate len 0⟩

def set (s : BitSet len width) (k : Nat) : BitSet len width :=
  if h : k / width < len then
    ⟨s.words.set (k / width) (s.words[k / width] ||| BitVec.ofNat width 1 <<< (k % width)) h⟩
  else s

def bit (s : BitSet len width) (k : Nat) : Bool :=
  if h : k / width < len then s.words[k / width].getLsbD (k % width) else false

def onesCount (w : BitVec width) : Nat :=
  (List.range width).countP w.getLsbD

def count (s : BitSet len width) : Nat :=
  (s.words.toList.map onesCount).sum

@[simp]
theorem bit_empty (k : Nat) : (empty : BitSet len width).bit k = false := by
  simp [bit, empty]

theorem getLsbD_mask {i j : Nat} (hi : i < width) :
    (BitVec.ofNat width 1 <<< i).getLsbD j = decide (j = i) := by
  rw [BitVec.getLsbD_shiftLeft, BitVec.getLsbD_one]
  by_cases h : j = i
  · subst h
    simp [hi, Nat.lt_of_le_of_lt (Nat.zero_le j) hi]
  · rw [decide_eq_false h]
    by_cases hlt : j < i
    · simp [hlt]
    · simp [show ¬ j - i = 0 by omega]

theorem bit_set (s : BitSet len width) {k : Nat} (hk : k < len * width) (j : Nat) :
    (s.set k).bit j = (s.bit j || decide (j = k)) := by
  have hwidth : 0 < width := by
    by_contra h
    rw [Nat.eq_zero_of_not_pos h, Nat.mul_zero] at hk
    omega
  have hword : k / width < len := (Nat.div_lt_iff_lt_mul hwidth).mpr hk
  rw [set, dif_pos hword, bit, bit]
  by_cases hj : j / width < len
  · rw [dif_pos hj, dif_pos hj, Vector.getElem_set]
    by_cases hsame : k / width = j / width
    · -- the same word: the mask is the bit of `j` exactly if `j = k`
      have heq : j % width = k % width ↔ j = k := by
        constructor
        · intro hmod
          rw [← Nat.div_add_mod j width, ← Nat.div_add_mod k width, hmod, hsame]
        · rintro rfl
          rfl
      rw [if_pos hsame, BitVec.getLsbD_or, getLsbD_mask (Nat.mod_lt k hwidth)]
      simp only [hsame, heq]
    · have hne : j ≠ k := fun h => hsame (h ▸ rfl)
      rw [if_neg hsame, decide_eq_false hne, Bool.or_false]
  · have hne : j ≠ k := fun h => hj (h ▸ hword)
    rw [dif_neg hj, dif_neg hj, decide_eq_false hne]
    rfl

theorem onesCount_eq_zero_iff {w : BitVec width} : onesCount w = 0 ↔ ∀ i, w.getLsbD i = false := by
  rw [onesCount, List.countP_eq_zero]
  constructor
  · intro h i
    by_cases hi : i < width
    · simpa using h i (List.mem_range.mpr hi)
    · exact BitVec.getLsbD_of_ge w i (Nat.le_of_not_lt hi)
  · intro h i _
    simp [h i]

theorem count_eq_zero_iff {s : BitSet len width} : s.count = 0 ↔ ∀ k, s.bit k = false := by
  rw [count, List.sum_eq_zero_iff]
  constructor
  · intro h k
    rw [bit]
    split
    · rename_i hk
      have hword := h (onesCount s.words[k / width]) (List.mem_map_of_mem (by simp))
      exact onesCount_eq_zero_iff.mp hword _
    · rfl
  · intro h x hx
    obtain ⟨w, hw, rfl⟩ := List.mem_map.mp hx
    obtain ⟨i, hi, rfl⟩ := Vector.mem_iff_getElem.mp (Vector.mem_toList_iff.mp hw)
    refine onesCount_eq_zero_iff.mpr fun j => ?_
    by_cases hj : j < width
    · -- bit `j` of word `i` is number `width * i + j`
      have hdiv : (width * i + j) / width = i := by
        rw [Nat.mul_add_div (by omega), Nat.div_eq_of_lt hj, Nat.add_zero]
      have hmod : (width * i + j) % width = j := by
        rw [Nat.mul_add_mod, Nat.mod_eq_of_lt hj]
      have hbit := h (width * i + j)
      rw [bit] at hbit
      simp only [hdiv, hmod] at hbit
      rwa [dif_pos hi] at hbit
    · exact BitVec.getLsbD_of_ge _ j (Nat.le_of_not_lt hj)

end BitSet

end Runc.Lib
