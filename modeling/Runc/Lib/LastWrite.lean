import Mathlib.Data.List.Basic

/-!
# The last write

A loop over a list of which some elements write a value.
-/

namespace Runc.Lib

section LastWrite

variable {α β σ ω : Type}

def lastWrite (write : α → Option β) : List α → Option β
  | [] => none
  | x :: xs => (lastWrite write xs).or (write x)

variable {write : α → Option β}

theorem lastWrite_eq_none_iff {xs : List α} :
    lastWrite write xs = none ↔ ∀ x ∈ xs, write x = none := by
  induction xs with
  | nil => simp [lastWrite]
  | cons x xs ih => rw [lastWrite, Option.or_eq_none_iff, ih, List.forall_mem_cons, and_comm]

theorem lastWrite_append (xs ys : List α) :
    lastWrite write (xs ++ ys) = (lastWrite write ys).or (lastWrite write xs) := by
  induction xs with
  | nil => simp [lastWrite]
  | cons x xs ih => rw [List.cons_append, lastWrite, ih, lastWrite, Option.or_assoc]

theorem lastWrite_eq_some_iff {xs : List α} {b : β} :
    lastWrite write xs = some b ↔
      ∃ before x after, xs = before ++ x :: after ∧ write x = some b ∧
        ∀ y ∈ after, write y = none := by
  constructor
  · induction xs with
    | nil =>
      intro h
      simp [lastWrite] at h
    | cons x xs ih =>
      intro h
      rw [lastWrite, Option.or_eq_some_iff] at h
      rcases h with h | ⟨hnone, hx⟩
      · obtain ⟨before, y, after, rfl, hy, hafter⟩ := ih h
        exact ⟨x :: before, y, after, rfl, hy, hafter⟩
      · exact ⟨[], x, xs, rfl, hx, lastWrite_eq_none_iff.mp hnone⟩
  · rintro ⟨before, x, after, rfl, hx, hafter⟩
    rw [lastWrite_append, lastWrite, lastWrite_eq_none_iff.mpr hafter, hx]
    rfl

theorem lastWrite_of_unique {x y : α} {b : β} (hx : ∀ z, write z = some b ↔ z = x)
    (hy : ∀ z, (∃ c, write z = some c ∧ c ≠ b) ↔ z = y) (xs : List α) :
    lastWrite write xs ≠ some b ↔ ∀ before after, xs = before ++ x :: after → y ∈ after := by
  constructor
  · rintro hne before after rfl
    by_contra hmem
    -- without `y` everything that writes after `x` writes the same
    refine hne ?_
    rw [lastWrite_append, lastWrite, (hx x).mpr rfl]
    cases hlast : lastWrite write after with
    | none => rfl
    | some c =>
      obtain ⟨left, z, right, rfl, hz, -⟩ := lastWrite_eq_some_iff.mp hlast
      have hc : c = b := by
        by_contra hcb
        have hzy := (hy z).mp ⟨c, hz, hcb⟩
        exact hmem (hzy ▸ List.mem_append_right _ List.mem_cons_self)
      rw [hc]
      rfl
  · intro h hlast
    obtain ⟨before, z, after, rfl, hz, hafter⟩ := lastWrite_eq_some_iff.mp hlast
    obtain rfl := (hx z).mp hz
    obtain ⟨c, hc, -⟩ := (hy y).mpr rfl
    have hnone := hafter y (h before after rfl)
    rw [hc] at hnone
    cases hnone

theorem foldl_read {step : σ → α → σ} (read : σ → ω) (out : β → ω)
    (hstep : ∀ s x, read (step s x) = (write x).elim (read s) out) (xs : List α) (s : σ) :
    read (xs.foldl step s) = (lastWrite write xs).elim (read s) out := by
  induction xs generalizing s with
  | nil => rfl
  | cons x xs ih =>
    rw [List.foldl_cons, ih, hstep, lastWrite]
    cases lastWrite write xs with
    | none => rfl
    | some b => rfl

end LastWrite

end Runc.Lib
