import Mathlib.Data.List.Basic

/-!
# Histories

A history is the list of what has happened, oldest first.  `Precedes P e`
says that whenever `e` happened, the history before it satisfied `P`.
-/

namespace Runc.Lib

universe u

variable {α : Type u} {P : List α → Prop} {e : α} {log : List α}

/-- Every occurrence of `e` comes after a history that satisfies `P`. -/
def Precedes (P : List α → Prop) (e : α) (log : List α) : Prop :=
  ∀ before after, log = before ++ e :: after → P before

theorem Precedes.nil : Precedes P e [] := by
  intro before after h
  simp at h

theorem Precedes.concat (h : Precedes P e log) {x : α} (hx : x = e → P log) :
    Precedes P e (log ++ [x]) := by
  intro before after hsplit
  rcases List.eq_nil_or_concat after with rfl | ⟨init, last, rfl⟩
  · obtain ⟨rfl, hlast⟩ := List.append_inj' hsplit rfl
    exact hx (List.singleton_inj.mp hlast)
  · rw [List.concat_eq_append, ← List.cons_append, ← List.append_assoc] at hsplit
    exact h before init (List.append_inj' hsplit rfl).1

theorem Precedes.append (h : Precedes P e log) {events : List α} (hnot : e ∉ events) :
    Precedes P e (log ++ events) := by
  induction events generalizing log with
  | nil => simpa using h
  | cons x rest ih =>
    simp only [List.mem_cons, not_or] at hnot
    have hone : Precedes P e (log ++ [x]) := h.concat (fun hx => absurd hx.symm hnot.1)
    simpa using ih hone hnot.2

theorem Precedes.of_not_mem (h : e ∉ log) : Precedes P e log := by
  have happend := (Precedes.nil (P := P)).append h
  simpa using happend

theorem precedes_concat_self (h : e ∉ log) : Precedes P e (log ++ [e]) ↔ P log := by
  constructor
  · intro hprecedes
    exact hprecedes log [] rfl
  · intro hlog
    exact (Precedes.of_not_mem h).concat (fun _ => hlog)

end Runc.Lib
