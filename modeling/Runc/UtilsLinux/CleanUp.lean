import Runc.Libcontainer.StateDir
import Runc.UtilsLinux.Run

/-!
# Is a container that could not be run destroyed?

**Results.**
* `startContainer_destroyed_iff`: when no state directory is left after an error.
-/

namespace Runc.UtilsLinux

open Lib (Program)
open Lib.Program (Keeps Meets)
open Libcontainer

inductive Fate
  | returns
  | unseen
  | seen (c : Container)

def Runner.refusesTerminal (r : Runner) : Bool :=
  (r.detached && r.terminal && !r.consoleSocket) ||
    ((!r.detached || !r.terminal) && r.consoleSocket)

def Runner.notifyFails (r : Runner) (env : Env) : Bool :=
  r.notifySocket &&
    (env.setupSocketDirectory.isSome || (r.action = .run && env.bindSocket.isSome))

def Runner.preservedFails (r : Runner) (env : Env) : Bool :=
  (List.range r.preserveFDs).any fun i => (env.preserved i).isSome

def Runner.failsLate (r : Runner) (env : Env) : Bool :=
  env.waitConsole.isSome || (r.pidFile && env.createPidFile.isSome) ||
    (!r.detached && env.forward.toOption.isNone)

def Runner.fateOfStart (r : Runner) (env : Env) (c : Container) : Fate :=
  match (r.perform env).exec c with
  | (.error _, c') => .seen c'
  | (.ok _, c') =>
      if r.failsLate env then .seen (c'.terminate env.terminated) else .returns

def Runner.fateOfFiles (r : Runner) (env : Env) (c : Container) : Fate :=
  if r.preservedFails env then .unseen
  else if env.setupIO.isSome then .seen c
  else if r.pidfdSocket && env.setupPidfdSocket.isSome then .unseen
  else r.fateOfStart env c

def Runner.fate (r : Runner) (env : Env) (c : Container) : Fate :=
  if r.notifyFails env then .unseen
  else if r.refusesTerminal || env.newProcess.isSome || env.procThreadSelfOpen.isSome then
    .seen c
  else r.fateOfFiles env c

section Statements

variable {m : Op Unit} {f : Container → Container} {c c' : Container} {e : Err}

theorem exec_onContainer {α : Type} (m : Op α) (frame : Frame) :
    (onContainer m).exec frame =
      ((m.exec frame.container).1,
        { frame with container := (m.exec frame.container).2 }) :=
  rfl

theorem exec_assign_ok (h : m.exec c = (.ok (), c')) :
    (assign m f).exec { container := c } = (.ok (), { container := c' }) := by
  rw [assign, Program.exec_tryCatch, exec_onContainer, h]

theorem exec_assign_error (h : m.exec c = (.error e, c')) :
    (assign m f).exec { container := c } =
      (.error e, { container := f c', err := some e }) := by
  rw [assign, Program.exec_tryCatch, exec_onContainer, h]
  rfl

theorem exec_shadowed {result : Except Err Unit} (h : m.exec c = (result, c')) :
    (shadowed m).exec { container := c } = (result, { container := c' }) := by
  rw [shadowed, exec_onContainer, h]

theorem exec_checkTerminal (r : Runner) (c : Container) :
    (r.refusesTerminal = false ∧ r.checkTerminal.exec c = (.ok (), c)) ∨
      (r.refusesTerminal = true ∧ ∃ e, r.checkTerminal.exec c = (.error e, c)) := by
  unfold Runner.refusesTerminal Runner.checkTerminal
  cases r.detached && r.terminal && !r.consoleSocket with
  | true => exact Or.inr ⟨rfl, _, rfl⟩
  | false =>
    cases (!r.detached || !r.terminal) && r.consoleSocket with
    | true => exact Or.inr ⟨rfl, _, rfl⟩
    | false => exact Or.inl ⟨rfl, rfl⟩

theorem exec_checkPreserved (r : Runner) (env : Env) (c : Container) :
    (r.preservedFails env = false ∧ (checkPreserved r env).exec c = (.ok (), c)) ∨
      (r.preservedFails env = true ∧
        ∃ e, (checkPreserved r env).exec c = (.error e, c)) := by
  unfold Runner.preservedFails checkPreserved
  induction List.range r.preserveFDs with
  | nil => exact Or.inl ⟨rfl, rfl⟩
  | cons i rest ih =>
    change (_ = _ ∧ ((_ >>= fun _ => rest.forM _) : Op Unit).exec c = _) ∨
      (_ = _ ∧ ∃ e, ((_ >>= fun _ => rest.forM _) : Op Unit).exec c = _)
    rw [List.any_cons, Program.exec_bind]
    dsimp only
    cases hfault : env.preserved i with
    | some msg => exact Or.inr ⟨rfl, _, rfl⟩
    | none => exact ih

theorem exec_fault_none (c : Container) : (fault none).exec c = (.ok (), c) :=
  rfl

theorem exec_fault_some (msg : String) (c : Container) :
    (fault (some msg)).exec c = (.error (.system msg), c) :=
  rfl

end Statements

section Ends

variable {r : Runner} {env : Env} {c : Container}

def Leaves (start : Container) : Fate → Except Err Int × Frame → Prop
  | .unseen, (.error _, frame) => frame.err = none ∧ frame.container = start
  | .seen c, (.error _, frame) => frame.err ≠ none ∧ frame.container = c
  | .returns, (.ok _, _) => True
  | _, _ => False

def afterStart (r : Runner) (env : Env) : Program Frame Err Int := do
  assign (fault env.waitConsole) (·.terminate env.terminated)
  Program.onlyIf r.pidFile
    (assign (fault env.createPidFile) (·.terminate env.terminated))
  finish r env

theorem exec_destroy (r : Runner) (env : Env) (c : Container) :
    (r.destroy env).exec c = (.ok (), ((r.destroy env).exec c).2) := by
  unfold Runner.destroy
  cases r.shouldDestroy with
  | false => rfl
  | true =>
    rw [Program.onlyIf_true, Program.ignore, Program.exec_tryCatch]
    rcases (destroyCall env.destroy).exec c with ⟨e | u, c'⟩
    · rfl
    · rfl

theorem finish_leaves (start : Container) :
    Leaves start
      (if !r.detached && env.forward.toOption.isNone then .seen (c.terminate env.terminated)
        else .returns)
      ((finish r env).exec { container := c }) := by
  unfold finish
  cases hforward : env.forward with
  | error msg =>
    cases r.detached with
    | true => trivial
    | false => exact ⟨Option.some_ne_none _, rfl⟩
  | ok status =>
    cases r.detached with
    | true => trivial
    | false =>
      simp only [Program.exec_bind, exec_onContainer, Program.exec_modify,
        Bool.false_eq_true, if_false]
      rw [exec_destroy]
      trivial

theorem afterStart_leaves (start : Container) :
    Leaves start
      (if r.failsLate env then .seen (c.terminate env.terminated) else .returns)
      ((afterStart r env).exec { container := c }) := by
  unfold Runner.failsLate afterStart
  rw [Program.exec_bind]
  cases hconsole : env.waitConsole with
  | some msg =>
    rw [exec_assign_error (exec_fault_some msg c)]
    exact ⟨Option.some_ne_none _, rfl⟩
  | none =>
    rw [exec_assign_ok (exec_fault_none c)]
    dsimp only
    rw [Program.exec_bind]
    cases hpid : r.pidFile with
    | false => exact finish_leaves start
    | true =>
      cases hcreate : env.createPidFile with
      | some msg =>
        rw [Program.onlyIf_true, exec_assign_error (exec_fault_some msg c)]
        exact ⟨Option.some_ne_none _, rfl⟩
      | none =>
        rw [Program.onlyIf_true, exec_assign_ok (exec_fault_none c)]
        exact finish_leaves start

theorem start_leaves (start : Container) :
    Leaves start (r.fateOfStart env c)
      ((do assign (r.perform env); afterStart r env : Program Frame Err Int).exec
        { container := c }) := by
  unfold Runner.fateOfStart
  rw [Program.exec_bind]
  rcases hexec : (r.perform env).exec c with ⟨e | u, c'⟩
  · rw [exec_assign_error hexec]
    exact ⟨Option.some_ne_none _, rfl⟩
  · rw [exec_assign_ok hexec]
    exact afterStart_leaves start

theorem files_leave :
    Leaves c (r.fateOfFiles env c)
      ((do
          shadowed (checkPreserved r env)
          assign (fault env.setupIO)
          Program.onlyIf r.pidfdSocket (shadowed (fault env.setupPidfdSocket))
          assign (r.perform env)
          afterStart r env : Program Frame Err Int).exec { container := c }) := by
  unfold Runner.fateOfFiles
  rw [Program.exec_bind]
  rcases exec_checkPreserved r env c with ⟨hpreserved, hexec⟩ | ⟨hpreserved, e, hexec⟩
  · rw [hpreserved, exec_shadowed hexec]
    dsimp only
    rw [Program.exec_bind]
    cases hio : env.setupIO with
    | some msg =>
      rw [exec_assign_error (exec_fault_some msg c)]
      exact ⟨Option.some_ne_none _, rfl⟩
    | none =>
      rw [exec_assign_ok (exec_fault_none c)]
      dsimp only
      rw [Program.exec_bind]
      cases hsocket : r.pidfdSocket with
      | false => exact start_leaves c
      | true =>
        cases hpidfd : env.setupPidfdSocket with
        | some msg =>
          rw [Program.onlyIf_true, exec_shadowed (exec_fault_some msg c)]
          exact ⟨rfl, rfl⟩
        | none =>
          rw [Program.onlyIf_true, exec_shadowed (exec_fault_none c)]
          exact start_leaves c
  · rw [hpreserved, exec_shadowed hexec]
    exact ⟨rfl, rfl⟩

theorem body_leaves (hnotify : r.notifyFails env = false) :
    Leaves c (r.fate env c) ((body r env).exec { container := c }) := by
  unfold Runner.fate body
  rw [hnotify, Program.exec_bind]
  rcases exec_checkTerminal r c with ⟨hterminal, hexec⟩ | ⟨hterminal, e, hexec⟩
  · rw [hterminal, exec_assign_ok hexec]
    dsimp only
    rw [Program.exec_bind]
    cases hprocess : env.newProcess with
    | some msg =>
      rw [exec_assign_error (exec_fault_some msg c)]
      exact ⟨Option.some_ne_none _, rfl⟩
    | none =>
      rw [exec_assign_ok (exec_fault_none c)]
      dsimp only
      rw [Program.exec_bind]
      cases hself : env.procThreadSelfOpen with
      | some msg =>
        rw [exec_assign_error (exec_fault_some msg c)]
        exact ⟨Option.some_ne_none _, rfl⟩
      | none =>
        rw [exec_assign_ok (exec_fault_none c)]
        exact files_leave
  · rw [hterminal, exec_assign_error hexec]
    exact ⟨Option.some_ne_none _, rfl⟩

theorem exec_notify :
    (r.notifyFails env = false ∧
        Program.exec (Program.onlyIf r.notifySocket (do
          fault env.setupSocketDirectory
          Program.onlyIf (r.action = .run) (fault env.bindSocket))) c = (.ok (), c)) ∨
      (r.notifyFails env = true ∧ ∃ e,
        Program.exec (Program.onlyIf r.notifySocket (do
          fault env.setupSocketDirectory
          Program.onlyIf (r.action = .run) (fault env.bindSocket))) c = (.error e, c)) := by
  unfold Runner.notifyFails
  cases r.notifySocket with
  | false => exact Or.inl ⟨rfl, rfl⟩
  | true =>
    cases env.setupSocketDirectory with
    | some msg => exact Or.inr ⟨rfl, _, rfl⟩
    | none =>
      cases decide (r.action = .run) with
      | false => exact Or.inl ⟨rfl, rfl⟩
      | true =>
        cases env.bindSocket with
        | some msg => exact Or.inr ⟨rfl, _, rfl⟩
        | none => exact Or.inl ⟨rfl, rfl⟩

def Ends (r : Runner) (env : Env) (start : Container) :
    Fate → Except Err Int × Container → Prop
  | .unseen, (.error _, c) => c = start
  | .seen found, (.error _, c) => c = ((r.destroy env).exec found).2
  | .returns, (.ok _, _) => True
  | _, _ => False

theorem ends_of_leaves {fate : Fate} (h : Leaves c fate ((body r env).exec { container := c })) :
    Ends r env c fate ((runnerRun r env).exec c) := by
  have hrun : (runnerRun r env).exec c = (((body r env).exec { container := c }).1,
        if ((body r env).exec { container := c }).2.err.isSome then
          ((r.destroy env).exec ((body r env).exec { container := c }).2.container).2
        else ((body r env).exec { container := c }).2.container) := rfl
  rw [hrun]
  revert h
  rcases (body r env).exec { container := c } with ⟨e | status, ⟨found, err⟩⟩
  · cases fate with
    | returns => exact fun h => h.elim
    | unseen =>
      rintro ⟨rfl, rfl⟩
      rfl
    | seen c' =>
      rintro ⟨herr, rfl⟩
      cases err with
      | none => exact absurd rfl herr
      | some e' => rfl
  · cases fate with
    | returns => exact fun _ => trivial
    | unseen => exact fun h => h.elim
    | seen c' => exact fun h => h.elim

theorem startContainer_ends (r : Runner) (env : Env) (c : Container) :
    Ends r env c (r.fate env c) ((startContainer r env).exec c) := by
  unfold startContainer
  rw [Program.exec_bind]
  rcases exec_notify (r := r) (c := c) with ⟨hnotify, hexec⟩ | ⟨hnotify, e, hexec⟩
  · rw [hexec]
    exact ends_of_leaves (body_leaves hnotify)
  · have hfate : r.fate env c = .unseen := if_pos hnotify
    rw [hexec, hfate]
    rfl

end Ends

section StateDir

variable {r : Runner} {env : Env} {c : Container}

theorem present_perform (r : Runner) (env : Env) : Keeps Present (r.perform env) := by
  unfold Runner.perform
  cases r.action with
  | create => exact present_start _ _
  | run => exact present_run _ _ _
  | restore => exact present_restore _

theorem present_seen (hc : Present c) {c' : Container} (h : r.fate env c = .seen c') :
    Present c' := by
  unfold Runner.fate Runner.fateOfFiles Runner.fateOfStart at h
  split at h
  · cases h
  split at h
  · cases h
    exact hc
  split at h
  · cases h
  split at h
  · cases h
    exact hc
  split at h
  · cases h
  have hperform : Present ((r.perform env).exec c).2 := (present_perform r env).exec hc
  split at h
  · rename_i e found hexec
    cases h
    rw [hexec] at hperform
    exact hperform
  · rename_i found hexec
    rw [hexec] at hperform
    split at h
    · cases h
      exact hperform.terminate env.terminated
    · cases h

theorem present_create (config : Config) (intelRdtManager : Bool) (freezer : FreezerState)
    (cgroup : Bool) (clock : Nat) :
    Present (.create config intelRdtManager freezer cgroup clock) :=
  ⟨rfl, fun h => nomatch h⟩

theorem destroy_removes_iff (env : Env) (hkeep : r.shouldDestroy = true) (hc : Present c) :
    ((r.destroy env).exec c).2.stateDir = false ↔ Removable env.destroy c := by
  have hcall : ((r.destroy env).exec c).2 = ((destroyCall env.destroy).exec c).2 := by
    unfold Runner.destroy
    rw [hkeep, Program.onlyIf_true, Program.ignore, Program.exec_tryCatch]
    rcases (destroyCall env.destroy).exec c with ⟨e | u, c'⟩
    · rfl
    · rfl
  rw [hcall]
  exact destroyCall_removes_iff env.destroy hc

/-- Failed invocations. -/
theorem startContainer_destroyed_iff (r : Runner) (env : Env) (hkeep : r.shouldDestroy = true)
    (config : Config) (intelRdtManager : Bool) (freezer : FreezerState) (cgroup : Bool)
    (clock : Nat) :
    (∀ err c,
        (startContainer r env).exec (.create config intelRdtManager freezer cgroup clock) =
            (.error err, c) →
          c.stateDir = false) ↔
      r.fate env (.create config intelRdtManager freezer cgroup clock) ≠ .unseen ∧
        ∀ found,
          r.fate env (.create config intelRdtManager freezer cgroup clock) = .seen found →
            Removable env.destroy found := by
  have hpresent := present_create config intelRdtManager freezer cgroup clock
  have hends := startContainer_ends r env (.create config intelRdtManager freezer cgroup clock)
  revert hends
  rcases (startContainer r env).exec (.create config intelRdtManager freezer cgroup clock)
    with ⟨e | status, c⟩
  · cases hfate : r.fate env (.create config intelRdtManager freezer cgroup clock) with
    | returns => exact fun h => h.elim
    | unseen =>
      rintro rfl
      refine iff_of_false (fun h => ?_) fun h => h.1 rfl
      cases h e _ rfl
    | seen found =>
      rintro rfl
      have hremoves := destroy_removes_iff env hkeep (present_seen hpresent hfate)
      constructor
      · intro h
        refine ⟨(fun h => by cases h), ?_⟩
        rintro _ ⟨⟩
        exact hremoves.mp (h e _ rfl)
      · rintro ⟨-, h⟩ err c' hexec
        cases hexec
        exact hremoves.mpr (h found rfl)
  · cases hfate : r.fate env (.create config intelRdtManager freezer cgroup clock) with
    | returns =>
      exact fun _ => iff_of_true (fun _ _ h => nomatch h)
        ⟨(fun h => by cases h), fun _ h => nomatch h⟩
    | unseen => exact fun h => h.elim
    | seen found => exact fun h => h.elim

def fresh : Container :=
  .create {} false .undefined false 0

theorem startContainer_destroyed_fifo : ((startContainer { action := .create }
        { start := { createExecFifo := some "disk quota exceeded" } }).exec fresh).1 =
        .error (.system "disk quota exceeded") ∧
      ((startContainer { action := .create }
        { start := { createExecFifo := some "disk quota exceeded" } }).exec fresh).2.stateDir =
        false := by
  have hdestroyed := (startContainer_destroyed_iff { action := .create }
    { start := { createExecFifo := some "disk quota exceeded" } } rfl
    {} false .undefined false 0).mpr ⟨(fun h => by cases h), fun found h => ?_⟩
  · exact ⟨rfl, hdestroyed _ _ rfl⟩
  · cases h
    exact ⟨(fun h => by cases h with | inl h => cases h | inr h => cases h),
      (fun h => by cases h), (fun h => by cases h), rfl, (fun h => by cases h), rfl⟩

theorem stateDir_left :
    fresh.stateDir = true ∧
      (startContainer { action := .run, preserveFDs := 1 }
          { preserved := fun _ => some "bad file descriptor" }).exec fresh =
        (.error (.wrapped "unable to stat preserved-fd" (.system "bad file descriptor")), fresh) ∧
      (startContainer { action := .create, pidfdSocket := true }
          { setupPidfdSocket := some "connection refused" }).exec fresh =
        (.error (.system "connection refused"), fresh) ∧
      (startContainer { action := .restore, notifySocket := true }
          { setupSocketDirectory := some "no space left on device" }).exec fresh =
        (.error (.system "no space left on device"), fresh) ∧
      (startContainer { action := .run, notifySocket := true }
          { bindSocket := some "invalid argument" }).exec fresh =
        (.error (.system "invalid argument"), fresh) :=
  ⟨rfl, rfl, rfl, rfl, rfl⟩

end StateDir

end Runc.UtilsLinux
