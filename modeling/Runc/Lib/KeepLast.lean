import Mathlib.Data.List.Basic
import Mathlib.Data.List.Nodup

/-!
# The last element of each key

Of the elements with one key `keepLast` keeps the last, in the order of the elements it
keeps.
-/

namespace Runc.Lib

section KeepLast

variable {α β : Type} [DecidableEq β] {key : α → β}

def keepLast (key : α → β) : List α → List α
  | [] => []
  | x :: xs => if key x ∈ xs.map key then keepLast key xs else x :: keepLast key xs

variable {xs : List α} {x : α}

theorem keepLast_cons_of_mem (h : key x ∈ xs.map key) :
    keepLast key (x :: xs) = keepLast key xs :=
  if_pos h

theorem keepLast_cons_of_not_mem (h : key x ∉ xs.map key) :
    keepLast key (x :: xs) = x :: keepLast key xs :=
  if_neg h

theorem mem_map_keepLast {k : β} : k ∈ (keepLast key xs).map key ↔ k ∈ xs.map key := by
  induction xs with
  | nil => exact Iff.rfl
  | cons y xs ih =>
    rw [keepLast, List.map_cons, List.mem_cons]
    split
    · rename_i h
      rw [ih]
      constructor
      · exact Or.inr
      · rintro (rfl | hk)
        · exact h
        · exact hk
    · rw [List.map_cons, List.mem_cons, ih]

theorem nodup_keepLast (xs : List α) : ((keepLast key xs).map key).Nodup := by
  induction xs with
  | nil => exact List.nodup_nil
  | cons y xs ih =>
    by_cases h : key y ∈ xs.map key
    · rw [keepLast_cons_of_mem h]
      exact ih
    · rw [keepLast_cons_of_not_mem h, List.map_cons, List.nodup_cons, mem_map_keepLast]
      exact ⟨h, ih⟩

theorem mem_keepLast_iff :
    x ∈ keepLast key xs ↔
      ∃ before after, xs = before ++ x :: after ∧ key x ∉ after.map key := by
  induction xs with
  | nil => simp [keepLast]
  | cons y xs ih =>
    constructor
    · intro hx
      by_cases h : key y ∈ xs.map key
      · rw [keepLast_cons_of_mem h] at hx
        obtain ⟨before, after, rfl, hafter⟩ := ih.mp hx
        exact ⟨y :: before, after, rfl, hafter⟩
      · rw [keepLast_cons_of_not_mem h] at hx
        rcases List.mem_cons.mp hx with rfl | hx
        · exact ⟨[], xs, rfl, h⟩
        · obtain ⟨before, after, rfl, hafter⟩ := ih.mp hx
          exact ⟨y :: before, after, rfl, hafter⟩
    · rintro ⟨before, after, heq, hafter⟩
      cases before with
      | nil =>
        obtain ⟨rfl, rfl⟩ := List.cons.inj heq
        rw [keepLast_cons_of_not_mem hafter]
        exact List.mem_cons_self
      | cons z before =>
        obtain ⟨rfl, hxs⟩ := List.cons.inj heq
        have hx := ih.mpr ⟨before, after, hxs, hafter⟩
        rw [keepLast]
        split
        · exact hx
        · exact List.mem_cons_of_mem _ hx

end KeepLast

end Runc.Lib
