import Runc.Libcontainer.Settled

/-!
# The state directory

`Create` makes the state directory and `Destroy` removes it; in between it stays.
-/

namespace Runc.Libcontainer

open Lib (Program)
open Lib.Program (Meets Keeps)

structure Present (c : Container) : Prop where
  stateDir : c.stateDir = true
  loaded : c.state ≠ .loaded

section Keeps

theorem present_refreshState (read : Fault) : Keeps Present (refreshState read) := by
  intro c hc
  rw [exec_refreshState]
  cases read with
  | some e => exact hc
  | none =>
    cases c.stale with
    | false => exact ⟨hc.stateDir, refreshed_ne_loaded c⟩
    | true => exact ⟨hc.stateDir, hc.loaded⟩

theorem present_modify {f : Container → Container} (hdir : ∀ c, (f c).stateDir = c.stateDir)
    (hstate : ∀ c, (f c).state = c.state) : Keeps Present (modify f : Op Unit) :=
  Meets.modify fun c hc =>
    ⟨(hdir c).trans hc.stateDir, fun h => hc.loaded ((hstate c).symm.trans h)⟩

theorem present_setResources (target : FreezerState) (out : FreezeOutcome) :
    Keeps Present (setResources target out) :=
  meets_setResources (fun _ h _ => ⟨h.stateDir, h.loaded⟩) fun _ h _ _ _ => ⟨h.stateDir, h.loaded⟩

theorem present_external (event : External) : Keeps Present (modify event.apply : Op Unit) := by
  refine present_modify (fun c => ?_) fun c => ?_
  · cases event <;> simp only [External.apply] <;> split <;> rfl
  · cases event <;> simp only [External.apply] <;> split <;> rfl

variable {c : Container}

theorem Present.signalled (h : Present c) (sig : Signal) (dead : Bool) :
    Present (c.signalled sig dead) :=
  ⟨h.stateDir, h.loaded⟩

theorem Present.terminate (h : Present c) (terminated : Bool) :
    Present (c.terminate terminated) := by
  cases terminated with
  | false => exact h
  | true => exact h.signalled .sigkill true

theorem Present.undoStart (h : Present c) (env : StartEnv) : Present (undoStart env c) := by
  unfold Libcontainer.undoStart Container.dropResctrl Container.dropCgroup
  have hterminated := h.terminate env.terminated
  split <;> split <;> exact ⟨hterminated.stateDir, hterminated.loaded⟩

theorem present_handleSync (event : SyncEvent) : Keeps Present (handleSync event) := by
  cases event with
  | procMountPlease err => exact keeps_fault err
  | procSeccomp getFd read send =>
    exact Meets.bind (keeps_fault getFd) fun _ =>
      Meets.bind (present_refreshState read) fun _ => keeps_fault send
  | procReady rlimits save statReadable write =>
    refine Meets.bind (Meets.wrap (keeps_fault rlimits)) fun _ => ?_
    refine Meets.bind (Q := fun _ => Present) ?_ fun _ => ?_
    · exact Meets.modify fun c hc => ⟨hc.stateDir, fun h => nomatch h⟩
    · exact Keeps.get fun c =>
        Meets.bind (Meets.wrap (keeps_fault save)) fun _ =>
          Meets.bind (present_modify (fun _ => rfl) fun _ => rfl) fun _ =>
            keeps_fault write
  | procHooks set intelRdt read run write =>
    exact Keeps.get fun c =>
      Meets.bind (Meets.wrap (present_setResources _ set)) fun _ =>
        Meets.bind (Keeps.onlyIf (Meets.wrap (keeps_fault intelRdt))) fun _ =>
          Meets.bind (Keeps.onlyIf
              (Meets.bind (present_refreshState read) fun _ => keeps_fault run))
            fun _ => keeps_fault write
  | procError text => exact Meets.throw fun _ h => h
  | invalid => exact Meets.throw fun _ h => h
  | outside event => exact present_external event

theorem present_bringUpInit (env : StartEnv) : Keeps Present (bringUpInit env) := by
  have happly : Keeps Present (applyCgroup env.applyCgroup env.cgroupApplied) :=
    Meets.bind (Meets.wrap (keeps_fault env.applyCgroup)) fun _ =>
      present_modify (fun _ => rfl) fun _ => rfl
  have hsync : Keeps Present (syncWithInit env) :=
    Meets.bind (Meets.wrap (Keeps.forM fun event _ => present_handleSync event)) fun _ =>
      Meets.bind (keeps_fault env.shutdown) fun _ =>
        Keeps.onlyIf (Meets.throw fun _ h => h)
  refine Meets.bind happly fun _ => Keeps.get fun c => ?_
  refine Meets.bind (Keeps.onlyIf ?_) fun _ =>
    Meets.bind (keeps_fault env.bootstrap) fun _ =>
      Meets.bind (Keeps.onlyIf (Meets.wrap (present_refreshState env.specRead))) fun _ =>
        Meets.bind (Meets.wrap (keeps_fault env.sendConfig)) fun _ => hsync
  exact Meets.bind (Meets.wrap (keeps_fault env.applyIntelRdt)) fun _ =>
    present_modify (fun _ => rfl) fun _ => rfl

theorem present_startInitProcess (env : StartEnv) : Keeps Present (startInitProcess env) := by
  refine Meets.bind (Q := fun _ => Present) (Meets.wrap ?_) fun _ =>
    Meets.bind (Meets.wrap (keeps_fault env.saveState)) fun _ => ?_
  · exact Meets.bind (keeps_fault env.cmdStart) fun _ =>
      present_modify (fun _ => rfl) fun _ => rfl
  · exact Meets.onError (present_bringUpInit env) fun _ h => h.undoStart env

theorem present_withLogs (logs : Fault) {m : Op Unit} (h : Keeps Present m) :
    Keeps Present (withLogs logs m) :=
  Meets.bind (Meets.wrap h) fun _ => Keeps.check _

theorem present_startInit (env : StartEnv) : Keeps Present (startInit env) := by
  have hpoststart : Keeps Present (poststart env) := by
    refine Keeps.get fun c => Keeps.onlyIf ?_
    exact Meets.bind (present_refreshState env.poststartRead) fun _ =>
      Meets.onError (keeps_fault env.poststartRun) fun _ h => h.terminate env.terminated
  refine Meets.bind (Meets.wrap (keeps_fault env.newParentProcess)) fun _ => ?_
  refine Meets.bind (present_modify (fun _ => rfl) fun _ => rfl) fun _ => ?_
  refine Meets.bind (Meets.wrap (keeps_fault env.closeExecFrom)) fun _ => ?_
  exact present_withLogs env.logs
    (Meets.bind (Meets.wrap (present_startInitProcess env)) fun _ => hpoststart)

theorem present_createExecFifo (err : Fault) : Keeps Present (createExecFifo err) := by
  refine Keeps.get fun c => ?_
  split
  · exact Meets.throw fun _ h => h
  split
  · exact Meets.throw fun _ h => h
  exact Meets.bind (keeps_fault err) fun _ => present_modify (fun _ => rfl) fun _ => rfl

theorem present_start (process : Process) (env : StartEnv) : Keeps Present (start process env) := by
  refine Keeps.get fun c => ?_
  split
  · exact Meets.throw fun _ h => h
  split
  · exact Meets.throw fun _ h => h
  split
  · exact Meets.bind (Meets.wrap (keeps_fault env.newParentProcess)) fun _ =>
      Meets.bind (Meets.wrap (keeps_fault env.closeExecFrom)) fun _ =>
        present_withLogs env.logs (Meets.wrap (keeps_fault env.cmdStart))
  split
  · exact Meets.throw fun _ h => h
  refine Meets.bind (present_createExecFifo env.createExecFifo) fun _ =>
    Meets.onError (present_startInit env) fun c h => ?_
  split
  · exact ⟨h.stateDir, h.loaded⟩
  · exact h

theorem present_exec (env : ExecEnv) : Keeps Present (exec env) := by
  have hfifo : Keeps Present (handleFifoResult env) :=
    Meets.bind (Meets.wrap (keeps_fault env.fifoOpen)) fun _ =>
      Meets.bind (keeps_fault env.readFromExecFifo) fun _ =>
        Meets.bind (keeps_fault env.remove) fun _ =>
          present_modify (fun _ => rfl) fun _ => rfl
  unfold exec
  split
  · exact Meets.wrap hfifo
  · exact hfifo

theorem present_run (process : Process) (startEnv : StartEnv) (execEnv : ExecEnv) :
    Keeps Present (run process startEnv execEnv) :=
  Meets.bind (present_start process startEnv) fun _ =>
    Keeps.onlyIf (present_exec execEnv)

theorem present_transition {dst : ContainerState} (hdst : dst ≠ .loaded) :
    Keeps Present (transition dst) := by
  refine Meets.get fun c hc => ?_
  cases htransition : c.state.transition c.hasInit dst with
  | error err => exact hc
  | ok s =>
    refine ⟨hc.stateDir, ?_⟩
    change s ≠ .loaded
    rintro rfl
    revert htransition
    cases hstate : c.state <;> cases dst <;> cases c.hasInit <;>
      simp [ContainerState.transition] at hdst ⊢

theorem present_criuNotifications (notify : CriuNotify) :
    Keeps Present (criuNotifications notify) := by
  cases notify with
  | setupNamespaces read run =>
    refine Keeps.get fun c => Keeps.onlyIf ?_
    refine Meets.bind (Q := fun _ => Present) ?_ fun _ =>
      Keeps.onlyIf (keeps_fault run)
    exact Meets.tryCatch
      (Meets.bind (present_refreshState read) fun _ => Meets.pure fun _ h => h) fun _ =>
      Meets.pure fun _ h => h
  | postRestore stat save =>
    refine Meets.bind (keeps_fault stat) fun _ => ?_
    refine Meets.bind (present_transition (by decide)) fun _ => ?_
    exact Meets.bind (present_modify (fun _ => rfl) fun _ => rfl) fun _ =>
      keeps_fault save
  | other err => exact keeps_fault err
  | outside event => exact present_external event

theorem present_restore (env : RestoreEnv) : Keeps Present (restore env) := by
  refine Meets.bind (keeps_fault env.prepare) fun _ => ?_
  refine Meets.bind (keeps_fault env.applyCgroup) fun _ => ?_
  refine Meets.bind (present_modify (fun _ => rfl) fun _ => rfl) fun _ => ?_
  exact Keeps.get fun c =>
    Meets.bind (present_setResources _ env.set) fun _ =>
      Meets.bind (keeps_fault env.send) fun _ =>
        Meets.bind (Keeps.forM fun notify _ => present_criuNotifications notify) fun _ =>
          keeps_fault env.finish

end Keeps

section Destroy

def Dir (b : Bool) (c : Container) : Prop :=
  c.stateDir = b

variable {b : Bool}

theorem dir_modify {f : Container → Container} (hdir : ∀ c, (f c).stateDir = c.stateDir) :
    Keeps (Dir b) (modify f : Op Unit) :=
  Meets.modify fun c hc => (hdir c).trans hc

theorem dir_freeze (target : FreezerState) (out : FreezeOutcome) :
    Keeps (Dir b) (freeze target out) :=
  meets_freeze (fun _ h _ => h) fun _ h _ _ _ => h

theorem dir_signalInit (sig : Signal) (out : SignalOutcome) :
    Keeps (Dir b) (signalInit sig out) :=
  keeps_signalInit (fun _ _ _ h => h) sig out

theorem dir_signalEachProcess (sig : Signal) (env : SignalAllEnv) :
    Keeps (Dir b) (signalEachProcess sig env) := by
  refine Meets.bind (Meets.ignore (dir_freeze .frozen env.freeze)) fun _ => ?_
  refine Meets.bind (Meets.onError (keeps_fault env.pids) fun c hc => ?_) fun _ => ?_
  · exact (dir_freeze .thawed env.thaw).exec hc
  · exact Meets.bind (Meets.ignore (dir_signalInit sig env.kill)) fun _ =>
      Meets.ignore (dir_freeze .thawed env.thaw)

theorem dir_signalAllProcesses (sig : Signal) (env : SignalAllEnv) :
    Keeps (Dir b) (signalAllProcesses sig env) := by
  refine Keeps.get fun c => ?_
  split
  · exact Meets.throw fun _ h => h
  split
  · split
    · exact dir_modify fun _ => rfl
    · exact Meets.throw fun _ h => h
    · exact dir_signalEachProcess sig env
  · exact dir_signalEachProcess sig env

theorem exec_killAll (kill : Bool) (env : DestroyEnv) (c : Container) :
    ∃ c',
      (Program.onlyIf kill (Program.ignore (signalAllProcesses .sigkill env.all))).exec c =
          (.ok (), c') ∧
        c'.stateDir = c.stateDir := by
  cases kill with
  | false => exact ⟨c, rfl, rfl⟩
  | true =>
    have hdir : Dir c.stateDir ((signalAllProcesses .sigkill env.all).exec c).2 :=
      (dir_signalAllProcesses .sigkill env.all).exec rfl
    refine ⟨_, ?_, hdir⟩
    rw [Program.onlyIf_true, Program.ignore, Program.exec_tryCatch]
    rcases (signalAllProcesses .sigkill env.all).exec c with ⟨r | r, c'⟩
    · rfl
    · rfl

theorem dir_finishDestroy (env : DestroyEnv) : Keeps (Dir b) (finishDestroy env) := by
  have hrefresh : Keeps (Dir b) (refreshState env.hookRead) := by
    intro c hc
    rw [exec_refreshState]
    cases env.hookRead with
    | some e => exact hc
    | none =>
      cases c.stale with
      | false => exact hc
      | true => exact hc
  have hhooks : Keeps (Dir b) (runPoststopHooks env) := by
    refine Keeps.get fun c => ?_
    split
    · exact Meets.pure fun _ h => h
    · exact Meets.bind hrefresh fun _ => keeps_fault env.hookRun
  exact Meets.bind (dir_modify fun _ => rfl) fun _ =>
    Meets.bind (Meets.onError hhooks fun _ h => h) fun _ => dir_modify fun _ => rfl

/-- The operations of `destroy` up to the removal of the directory succeed. -/
def DestroyEnv.removes (env : DestroyEnv) (intelRdtManager : Bool) : Prop :=
  env.cgroup = none ∧ (intelRdtManager = true → env.intelRdt = none) ∧
    env.removeAll = .ok

variable {c : Container}

theorem removeStateDir_removes_iff (env : DestroyEnv) (hdir : c.stateDir = true) :
    ((Program.wrap (.wrapped "unable to remove container state dir")
        (removeStateDir env.removeAll) >>= fun _ => finishDestroy env).exec c).2.stateDir =
        false ↔
      env.removeAll = .ok := by
  cases env.removeAll with
  | ok => exact iff_of_true ((dir_finishDestroy env).exec rfl) rfl
  | failed err left =>
    refine iff_of_false ?_ fun h => nomatch h
    change c.stateDir ≠ false
    rw [hdir]
    decide

theorem destroy_removes_iff (env : DestroyEnv) (hdir : c.stateDir = true) :
    ((destroy env).exec c).2.stateDir = false ↔ env.removes c.intelRdtManager := by
  obtain ⟨c', hkill, hdir'⟩ := exec_killAll (!c.config.pidPrivate) env c
  rw [hdir] at hdir'
  have hleft : c'.stateDir ≠ false := by
    rw [hdir']
    decide
  unfold destroy DestroyEnv.removes
  rw [Program.exec_bind, Program.exec_get]
  dsimp only
  rw [Program.exec_bind, hkill]
  cases env.cgroup with
  | some err => exact iff_of_false hleft fun h => nomatch h.1
  | none =>
    cases c.intelRdtManager with
    | false =>
      refine Iff.trans (removeStateDir_removes_iff env hdir') ?_
      exact ⟨fun h => ⟨rfl, (fun hp => by cases hp), h⟩, (·.2.2)⟩
    | true =>
      cases env.intelRdt with
      | some err => exact iff_of_false hleft fun h => nomatch h.2.1 rfl
      | none =>
        refine Iff.trans (removeStateDir_removes_iff env hdir') ?_
        exact ⟨fun h => ⟨rfl, fun _ => rfl, h⟩, (·.2.2)⟩

/-- `Destroy` can get as far as removing the directory: a running or paused object
finds no init, and the operations up to there succeed. -/
structure Removable (env : DestroyEnv) (c : Container) : Prop where
  init : c.state = .running ∨ c.state = .paused → c.hasInit = false
  thaw : c.state = .paused → env.thaw = .ok
  checkpoint : c.state = .restored → env.checkpoint = none
  removes : env.removes c.intelRdtManager

theorem destroyState_removes_iff (env : DestroyEnv) (h : Present c) :
    ((destroyState env).exec c).2.stateDir = false ↔ Removable env c := by
  have hkeep : ∀ {P : Prop}, ¬ P → (c.stateDir = false ↔ P) := by
    intro P hP
    rw [h.stateDir]
    exact iff_of_false (by decide) hP
  unfold destroyState
  rw [Program.exec_bind, Program.exec_get]
  dsimp only
  cases hstate : c.state with
  | stopped =>
    refine (destroy_removes_iff env h.stateDir).trans ⟨fun hremoves => ?_, (·.removes)⟩
    exact ⟨by simp [hstate], by simp [hstate], by simp [hstate], hremoves⟩
  | running =>
    cases hinit : c.hasInit with
    | true =>
      refine hkeep fun hremovable => ?_
      rw [hremovable.init (Or.inl hstate)] at hinit
      cases hinit
    | false =>
      refine (destroy_removes_iff env h.stateDir).trans ⟨fun hremoves => ?_, (·.removes)⟩
      exact ⟨fun _ => hinit, by simp [hstate], by simp [hstate], hremoves⟩
  | created =>
    have hremoved : ∀ c' : Container, c'.stateDir = true → c'.intelRdtManager = c.intelRdtManager →
        (((destroy env).exec c').2.stateDir = false ↔ Removable env c) := by
      intro c' hdir hmanager
      rw [destroy_removes_iff env hdir, hmanager]
      exact ⟨fun hremoves =>
        ⟨by simp [hstate], by simp [hstate], by simp [hstate], hremoves⟩, (·.removes)⟩
    cases hkill : env.kill with
    | sent dead => exact hremoved (c.signalled .sigkill dead) h.stateDir rfl
    | failed err => exact hremoved c h.stateDir rfl
  | paused =>
    cases hinit : c.hasInit with
    | true =>
      refine hkeep fun hremovable => ?_
      rw [hremovable.init (Or.inr hstate)] at hinit
      cases hinit
    | false =>
      cases hthaw : env.thaw with
      | ok =>
        let c' : Container :=
          { c with freezer := .thawed, config := { c.config with freezer := .thawed } }
        have hremoves := destroy_removes_iff env (show c'.stateDir = true from h.stateDir)
        refine hremoves.trans ⟨fun hremoves => ?_, (·.removes)⟩
        exact ⟨fun _ => hinit, fun _ => hthaw, by simp [hstate], hremoves⟩
      | failed err left =>
        refine hkeep fun hremovable => ?_
        rw [hremovable.thaw hstate] at hthaw
        cases hthaw
  | restored =>
    cases hcheckpoint : env.checkpoint with
    | some err =>
      refine hkeep fun hremovable => ?_
      rw [hremovable.checkpoint hstate] at hcheckpoint
      cases hcheckpoint
    | none =>
      refine (destroy_removes_iff env h.stateDir).trans ⟨fun hremoves => ?_, (·.removes)⟩
      exact ⟨by simp [hstate], by simp [hstate], fun _ => hcheckpoint, hremoves⟩
  | loaded => exact absurd hstate h.loaded

theorem destroyCall_removes_iff (env : DestroyEnv) (h : Present c) :
    ((destroyCall env).exec c).2.stateDir = false ↔ Removable env c := by
  have hcall : ((destroyCall env).exec c).2 = ((destroyState env).exec c).2 := by
    unfold destroyCall destroyAnyState Program.wrap
    rw [Program.exec_tryCatch, Program.exec_bind, Program.exec_get]
    simp only [h.loaded, decide_false, Program.onlyIf_false, Program.exec_bind, Program.exec_pure]
    rcases (destroyState env).exec c with ⟨r | r, c'⟩
    · rfl
    · rfl
  rw [hcall]
  exact destroyState_removes_iff env h

end Destroy

end Runc.Libcontainer
