import Runc.Libcontainer.Transitions

/-!
# Pause and Resume against the freezer

Both calls refresh the state, change the freezer and only then move the object to its
new state.
-/

namespace Runc.Libcontainer

open Lib (Program System)

def Consistent (before : Container) : Except Err Unit × Container → Prop
  | (.error _, c) => c.freezer = before.freezer
  | (.ok _, c) =>
      c.freezer = .frozen ∧ c.state = .paused ∨
        c.freezer = .thawed ∧ c.state ≠ .paused

def FreezeOutcome.Harmless (out : FreezeOutcome) (before : FreezerState) : Prop :=
  match out with
  | .ok => True
  | .failed _ left => left = before

section Pause

variable {env : FreezerEnv} {c : Container}

def Pausable (env : FreezerEnv) (c : Container) : Prop :=
  env.read = none ∧ c.stale = false ∧
    (c.refreshed.status = .running ∨ c.refreshed.status = .created)

theorem pause_of_not_pausable (h : ¬ Pausable env c) :
    ∃ err c', (pause env).exec c = (.error err, c') ∧ c'.freezer = c.freezer := by
  unfold pause
  rw [Program.exec_bind, exec_currentStatus]
  cases hread : env.read with
  | some e => exact ⟨_, _, rfl, rfl⟩
  | none =>
    cases hstale : c.stale with
    | true => exact ⟨_, _, rfl, rfl⟩
    | false =>
      have hstatus : ¬ (c.refreshed.status = .running ∨ c.refreshed.status = .created) :=
        fun hs => h ⟨hread, hstale, hs⟩
      refine ⟨.errNotRunning, { c with state := c.refreshed }, ?_, rfl⟩
      simp [hstatus]

theorem pause_of_pausable (h : Pausable env c) :
    (pause env).exec c =
      (do freeze .frozen env.freeze; transition .paused : Op Unit).exec
        { c with state := c.refreshed } := by
  obtain ⟨hread, hstale, hstatus⟩ := h
  unfold pause
  rw [Program.exec_bind, exec_currentStatus]
  simp [hread, hstale, hstatus]

theorem not_frozen_of_restored (hstale : c.stale = false) (hstate : c.state = .restored) :
    c.freezer ≠ .frozen := by
  intro hfrozen
  have hobs : c.observed = .paused := if_pos hfrozen
  simp [Container.stale, hobs, hstate, ContainerState.rejects] at hstale

theorem pause_consistent_iff :
    Consistent c ((pause env).exec c) ↔
      (Pausable env c →
        env.freeze.Harmless c.freezer ∧
          (env.freeze = .ok → c.state ≠ .restored)) := by
  by_cases hp : Pausable env c
  · rw [pause_of_pausable hp]
    simp only [hp, forall_const]
    cases hfreeze : env.freeze with
    | failed err left => simp [Program.exec_bind, freeze, Consistent, FreezeOutcome.Harmless]
    | ok =>
      obtain ⟨-, hstale, hstatus⟩ := hp
      by_cases hrestored : c.state = .restored
      · have hthawed := not_frozen_of_restored hstale hrestored
        have hstate : c.refreshed = .restored := if_pos hrestored
        simp [Program.exec_bind, freeze, transition, hstate, Consistent,
          ContainerState.transition, hrestored, Ne.symm hthawed]
      · have hne := refreshed_ne_restored hrestored
        have hloaded := refreshed_ne_loaded c
        cases hstate : c.refreshed <;>
          simp_all [Program.exec_bind, freeze, transition, Consistent,
            ContainerState.transition, ContainerState.status,
            FreezeOutcome.Harmless]
  · obtain ⟨err, c', hexec, hfreezer⟩ := pause_of_not_pausable hp
    rw [hexec]
    simp [hp, Consistent, hfreezer]

end Pause

section Resume

variable {env : FreezerEnv} {c : Container}

def Resumable (env : FreezerEnv) (c : Container) : Prop :=
  env.read = none ∧ c.stale = false ∧ c.refreshed = .paused

theorem status_eq_paused (s : ContainerState) : s.status = .paused ↔ s = .paused := by
  cases s <;> simp [ContainerState.status]

theorem resume_of_not_resumable (h : ¬ Resumable env c) :
    ∃ err c', (resume env).exec c = (.error err, c') ∧ c'.freezer = c.freezer := by
  unfold resume
  rw [Program.exec_bind, exec_currentStatus]
  cases hread : env.read with
  | some e => exact ⟨_, _, rfl, rfl⟩
  | none =>
    cases hstale : c.stale with
    | true => exact ⟨_, _, rfl, rfl⟩
    | false =>
      have hstate : c.refreshed ≠ .paused := fun hs => h ⟨hread, hstale, hs⟩
      refine ⟨.errNotPaused, { c with state := c.refreshed }, ?_, rfl⟩
      simp [status_eq_paused, hstate]

theorem resume_consistent_iff :
    Consistent c ((resume env).exec c) ↔
      (Resumable env c → env.freeze.Harmless c.freezer) := by
  by_cases hr : Resumable env c
  · have hr' := hr
    obtain ⟨hread, hstale, hstate⟩ := hr'
    simp only [hr, forall_const]
    unfold resume
    rw [Program.exec_bind, exec_currentStatus]
    cases env.freeze with
    | failed err left =>
      simp [hread, hstale, hstate, ContainerState.status, Program.exec_bind,
        freeze, Consistent, FreezeOutcome.Harmless]
    | ok =>
      simp [hread, hstale, hstate, ContainerState.status, Program.exec_bind,
        freeze, transition, ContainerState.transition, Consistent,
        FreezeOutcome.Harmless]
  · obtain ⟨err, c', hexec, hfreezer⟩ := resume_of_not_resumable hr
    rw [hexec]
    simp [hr, Consistent, hfreezer]

end Resume

/-- Pause and Resume. -/
theorem pause_resume_consistent_iff (env : FreezerEnv) (c : Container) :
    (Consistent c ((pause env).exec c) ↔
      (Pausable env c →
        env.freeze.Harmless c.freezer ∧
          (env.freeze = .ok → c.state ≠ .restored))) ∧
    (Consistent c ((resume env).exec c) ↔
      (Resumable env c → env.freeze.Harmless c.freezer)) :=
  ⟨pause_consistent_iff, resume_consistent_iff⟩

theorem restored_paused :
    ∃ c, containerSystem.Reachable c ∧ c.freezer = .undefined ∧
      ((pause {}).exec c).1 = .error (.stateTransition .running .paused) ∧
      ((pause {}).exec c).2.freezer = .frozen := by
  have hcreate : containerSystem.Reachable (.create {} false .undefined false 0) :=
    System.Reachable.of_init (.create {} false .undefined false 0 (by decide))
  have hrestore := hcreate.tail ⟨.restore { notifications := [.postRestore none none] }, rfl⟩
  exact ⟨_, hrestore, rfl, rfl, rfl⟩

end Runc.Libcontainer
