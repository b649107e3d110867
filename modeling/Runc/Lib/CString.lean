import Runc.Lib.Bytes

/-!
# Strings of C in memory

A string is what stands in memory from an address up to the next zero byte.
-/

namespace Runc.Lib
namespace CString

abbrev Memory := List UInt8

def read (mem : Memory) (p : Nat) : Option (List UInt8) :=
  if 0 ∈ mem.drop p then some ((mem.drop p).takeWhile (· ≠ 0)) else none

/-- The address of the first byte of the string that is among the given. -/
def strpbrk (accept : List UInt8) (mem : Memory) (p : Nat) : Option (Option Nat) :=
  (read mem p).map fun s => (s.findIdx? (· ∈ accept)).map (p + ·)

/-- How many bytes at the start of the string are among the given. -/
def strspn (accept : List UInt8) (mem : Memory) (p : Nat) : Option Nat :=
  (read mem p).map fun s => (s.takeWhile (· ∈ accept)).length

variable {s : List UInt8} {p : Nat} {mem : Memory}

theorem read_eq_some_iff : read mem p = some s ↔ 0 ∉ s ∧ ∃ rest, mem.drop p = s ++ 0 :: rest := by
  rw [read]
  constructor
  · intro h
    split at h
    · rename_i hzero
      obtain ⟨start, rest, heq, hstart⟩ := List.eq_append_cons_of_mem hzero
      rw [heq, takeWhile_ne_append hstart, Option.some.injEq] at h
      exact ⟨h ▸ hstart, rest, h ▸ heq⟩
    · cases h
  · rintro ⟨hs, rest, heq⟩
    rw [heq, if_pos (List.mem_append_right _ List.mem_cons_self), takeWhile_ne_append hs]

theorem read_append (h : 0 ∉ s) (before rest : Memory) :
    read (before ++ (s ++ 0 :: rest)) before.length = some s :=
  read_eq_some_iff.mpr ⟨h, rest, List.drop_left⟩

theorem read_append_right (h : read mem p = some s) (more : Memory) :
    read (mem ++ more) p = some s := by
  obtain ⟨hs, rest, heq⟩ := read_eq_some_iff.mp h
  have hp : p ≤ mem.length := by
    by_contra hlt
    rw [List.drop_eq_nil_of_le (Nat.le_of_not_le hlt)] at heq
    exact List.append_ne_nil_of_right_ne_nil s (List.cons_ne_nil 0 rest) heq.symm
  refine read_eq_some_iff.mpr ⟨hs, rest ++ more, ?_⟩
  rw [List.drop_append_of_le_length hp, heq, List.append_assoc]
  rfl

theorem strpbrk_field {accept field more : List UInt8} {sep : UInt8}
    (hmem : read mem p = some (field ++ sep :: more)) (hfield : ∀ b ∈ field, b ∉ accept)
    (hsep : sep ∈ accept) : strpbrk accept mem p = some (some (p + field.length)) := by
  have hfind : (field ++ sep :: more).findIdx? (· ∈ accept) = some field.length := by
    rw [List.findIdx?_append, List.findIdx?_eq_none_iff.mpr, Option.none_or,
      List.findIdx?_cons, if_pos (decide_eq_true hsep)]
    · simp
    · intro b hb
      exact decide_eq_false (hfield b hb)
  rw [strpbrk, hmem, Option.map_some, hfind, Option.map_some]

theorem strspn_start {accept : List UInt8} (hmem : read mem p = some s)
    (hs : ∀ b, s.head? = some b → b ∉ accept) : strspn accept mem p = some 0 := by
  rw [strspn, hmem, Option.map_some]
  cases s with
  | nil => rfl
  | cons b s =>
    rw [List.takeWhile_cons_of_neg (by simpa using hs b rfl)]
    rfl

end CString
end Runc.Lib
