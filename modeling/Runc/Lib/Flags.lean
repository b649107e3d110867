import Mathlib.Logic.Basic

/-!
# Words of flags

A word of which each bit is a flag, and the translation of one set of flags into
another by a table.
-/

namespace Runc.Lib

abbrev Flags := BitVec 64

namespace Flags

def bit (k : Nat) : Flags :=
  BitVec.twoPow 64 k

theorem getLsbD_bit {k : Nat} (hk : k < 64) (i : Nat) : (bit k).getLsbD i = decide (k = i) := by
  simp [bit, hk]

def ofBits (bits : List Nat) : Flags :=
  bits.foldr (fun k flags => bit k ||| flags) 0

theorem mem_of_getLsbD_ofBits {bits : List Nat} {i : Nat} (h : (ofBits bits).getLsbD i = true) :
    i ∈ bits := by
  induction bits with
  | nil => simp [ofBits] at h
  | cons k bits ih =>
    have hstep : ofBits (k :: bits) = bit k ||| ofBits bits := rfl
    rw [hstep, BitVec.getLsbD_or, Bool.or_eq_true] at h
    rcases h with h | h
    · simp only [bit, BitVec.getLsbD_twoPow, Bool.and_eq_true, decide_eq_true_eq] at h
      exact h.2 ▸ List.mem_cons_self
    · exact List.mem_cons_of_mem _ (ih h)

theorem has_bit_iff {k : Nat} (hk : k < 64) (w : Flags) :
    w &&& bit k = bit k ↔ w.getLsbD k = true := by
  constructor
  · intro h
    have hbit := congrArg (fun v : Flags => v.getLsbD k) h
    simpa [getLsbD_bit hk] using hbit
  · intro h
    refine BitVec.eq_of_getLsbD_eq fun i hi => ?_
    rw [BitVec.getLsbD_and, getLsbD_bit hk]
    by_cases hki : k = i
    · subst hki
      simp [h]
    · simp [hki]

theorem lacks_bit_iff {k : Nat} (hk : k < 64) (w : Flags) :
    w &&& bit k = 0 ↔ w.getLsbD k = false := by
  constructor
  · intro h
    have hbit := congrArg (fun v : Flags => v.getLsbD k) h
    simpa [getLsbD_bit hk] using hbit
  · intro h
    refine BitVec.eq_of_getLsbD_eq fun i hi => ?_
    rw [BitVec.getLsbD_and, getLsbD_bit hk]
    by_cases hki : k = i
    · subst hki
      simp [h]
    · simp [hki]

def put (w mask : Flags) (b : Bool) : Flags :=
  if b then w ||| mask else w &&& ~~~mask

theorem getLsbD_put (w mask : Flags) (b : Bool) (i : Nat) :
    (put w mask b).getLsbD i = if mask.getLsbD i then b else w.getLsbD i := by
  cases b with
  | true =>
    cases hi : mask.getLsbD i with
    | true => simp [put, hi]
    | false => simp [put, hi]
  | false =>
    have hput : (put w mask false).getLsbD i =
        (w.getLsbD i && (decide (i < 64) && !mask.getLsbD i)) := by
      rw [put, if_neg Bool.false_ne_true, BitVec.getLsbD_and, BitVec.getLsbD_not]
    rw [hput]
    by_cases hwidth : i < 64
    · cases hi : mask.getLsbD i with
      | true => simp
      | false => simp [hwidth]
    · -- above the width no word has a bit
      rw [BitVec.getLsbD_of_ge w i (Nat.le_of_not_lt hwidth)]
      simp

def translate (table : List (Flags × Flags)) (w : Flags) : Flags :=
  table.foldl (fun flags f => if w &&& f.1 = f.1 then flags ||| f.2 else flags) 0

theorem getLsbD_translate_from (table : List (Flags × Flags)) (w start : Flags) (i : Nat) :
    (table.foldl (fun flags f => if w &&& f.1 = f.1 then flags ||| f.2 else flags)
        start).getLsbD i = true ↔
      start.getLsbD i = true ∨ ∃ f ∈ table, w &&& f.1 = f.1 ∧ f.2.getLsbD i = true := by
  induction table generalizing start with
  | nil => simp
  | cons f table ih =>
    rw [List.foldl_cons, ih]
    by_cases hf : w &&& f.1 = f.1
    · simp [hf, or_assoc]
    · simp [hf]

theorem getLsbD_translate (table : List (Flags × Flags)) (w : Flags) (i : Nat) :
    (translate table w).getLsbD i = true ↔
      ∃ f ∈ table, w &&& f.1 = f.1 ∧ f.2.getLsbD i = true := by
  rw [translate, getLsbD_translate_from]
  simp

end Flags
end Runc.Lib
