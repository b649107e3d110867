import Mathlib.Logic.Relation

/-!
# Transition systems

States that can be reached from an initial state by any number of steps, and
the rule that proves an invariant of all of them from one step.
-/

namespace Runc.Lib

universe u

structure System (σ : Type u) where
  init : σ → Prop
  step : σ → σ → Prop

namespace System

variable {σ : Type u} {M : System σ}

def Reachable (M : System σ) (s : σ) : Prop :=
  ∃ s₀, M.init s₀ ∧ Relation.ReflTransGen M.step s₀ s

theorem Reachable.of_init {s : σ} (h : M.init s) : M.Reachable s :=
  ⟨s, h, Relation.ReflTransGen.refl⟩

theorem Reachable.tail {s s' : σ} (h : M.Reachable s) (hstep : M.step s s') : M.Reachable s' := by
  obtain ⟨s₀, hinit, hrun⟩ := h
  exact ⟨s₀, hinit, hrun.tail hstep⟩

theorem Reachable.trans {s s' : σ} (h : M.Reachable s) (hrun : Relation.ReflTransGen M.step s s') :
    M.Reachable s' := by
  obtain ⟨s₀, hinit, hbefore⟩ := h
  exact ⟨s₀, hinit, hbefore.trans hrun⟩

theorem Reachable.invariant {P : σ → Prop} (hinit : ∀ s, M.init s → P s)
    (hstep : ∀ s s', M.Reachable s → P s → M.step s s' → P s') {s : σ} (h : M.Reachable s) :
    P s := by
  obtain ⟨s₀, h₀, hrun⟩ := h
  induction hrun with
  | refl => exact hinit s₀ h₀
  | tail hrun hlast ih => exact hstep _ _ ⟨s₀, h₀, hrun⟩ ih hlast

end System

end Runc.Lib
