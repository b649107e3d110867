import Runc.Libcontainer.Transitions

/-!
# Destroying a container whose init is released

Once init has been released into the workload, a container is to be stopped before it is
destroyed.
-/

namespace Runc.Libcontainer

open Lib (Program System)
open Lib.Program (Meets Keeps)

def Released (c : Container) : Prop :=
  (∃ p, c.initProcess = some p ∧ p.alive = true) ∧ c.execFifo = false

/-- `Destroy` fails, and what it would remove is still there. -/
def Refuses (env : DestroyEnv) (c : Container) : Prop :=
  (∃ err, ((destroyCall env).exec c).1 = .error err) ∧
    ((destroyCall env).exec c).2.initProcess = c.initProcess ∧
    ((destroyCall env).exec c).2.cgroup = c.cgroup ∧
    ((destroyCall env).exec c).2.resctrl = c.resctrl ∧
    ((destroyCall env).exec c).2.stateDir = c.stateDir

def Succeeds (P : Container → Prop) (m : Op Unit) (Q : Container → Prop) : Prop :=
  Meets P m (fun _ => Q) fun _ => False

theorem Succeeds.bind {P Q R : Container → Prop} {m n : Op Unit} (hm : Succeeds P m Q)
    (hn : Succeeds Q n R) : Succeeds P (m >>= fun _ => n) R :=
  Meets.bind hm fun _ => hn

theorem Succeeds.ignore {m : Op Unit} :
    Succeeds (fun _ => True) (Program.ignore m) fun _ => True :=
  Meets.ignore fun s _ => by
    rcases m.exec s with ⟨r | r, s'⟩
    · trivial
    · trivial

theorem gone_not_stale {c : Container} (hthawed : c.freezer ≠ .frozen) (hinit : c.hasInit = false) :
    c.stale = false := by
  have hobs : c.observed = .stopped := by
    simp [Container.observed, hthawed, hinit]
  simp [Container.stale, hobs, ContainerState.rejects]

theorem finishDestroy_succeeds :
    Succeeds (fun c => c.freezer ≠ .frozen) (finishDestroy {}) fun _ => True := by
  have hclear : Succeeds (fun c => c.freezer ≠ .frozen)
      (modify fun c => { c with initProcess := none })
      fun c => c.freezer ≠ .frozen ∧ c.hasInit = false :=
    Meets.modify fun _ h => ⟨h, rfl⟩
  have hhooks : Succeeds (fun c => c.freezer ≠ .frozen ∧ c.hasInit = false)
      (runPoststopHooks {}) fun _ => True := by
    refine Meets.get fun c hc => ?_
    split
    · trivial
    · rw [Program.exec_bind, exec_refreshState, gone_not_stale hc.1 hc.2]
      trivial
  refine hclear.bind (Succeeds.bind (Q := fun _ => True) ?_ fun _ _ => trivial)
  exact Meets.onError hhooks fun _ h => h

theorem destroy_succeeds : Succeeds (fun _ => True) (destroy {}) fun _ => True := by
  refine Meets.get fun c _ => ?_
  have hall : Succeeds (fun _ => True) (Program.onlyIf (!c.config.pidPrivate)
      (Program.ignore (signalAllProcesses .sigkill {}))) fun _ => True := by
    cases c.config.pidPrivate with
    | false => exact Succeeds.ignore
    | true => exact fun _ _ => trivial
  have hcgroup : Succeeds (fun _ => True)
      (Program.wrap (.wrapped "unable to remove container's cgroup")
        (destroyCgroup none)) fun c => c.freezer ≠ .frozen :=
    fun _ _ => (nomatch ·)
  have hrdt : Succeeds (fun c => c.freezer ≠ .frozen) (Program.onlyIf c.intelRdtManager
        (Program.wrap (.wrapped "unable to remove container's IntelRDT group")
          (destroyIntelRdt none))) fun c => c.freezer ≠ .frozen := by
    cases c.intelRdtManager with
    | false => exact fun _ h => h
    | true => exact fun _ h => h
  have hdir : Succeeds (fun c => c.freezer ≠ .frozen)
      (Program.wrap (.wrapped "unable to remove container state dir")
        (removeStateDir .ok)) fun c => c.freezer ≠ .frozen :=
    fun _ h => h
  exact (hall.bind (hcgroup.bind (hrdt.bind (hdir.bind finishDestroy_succeeds)))) c trivial

/-- The states in which `Destroy` does not look for init, and those in which it
looks and finds none. -/
def Overlooks (c : Container) : Prop :=
  c.hasInit = false ∨ c.state = .stopped ∨ c.state = .created ∨ c.state = .restored

theorem destroyState_succeeds :
    Succeeds (fun c => Overlooks c ∧ c.state ≠ .loaded) (destroyState {})
      fun _ => True := by
  refine Meets.get ?_
  rintro c ⟨hover, hloaded⟩
  cases hstate : c.state with
  | stopped => exact destroy_succeeds c trivial
  | running =>
    have hinit : c.hasInit = false := by simpa [Overlooks, hstate] using hover
    simp only [hinit, Bool.false_eq_true, if_false]
    exact destroy_succeeds c trivial
  | created => exact (Succeeds.ignore.bind destroy_succeeds) c trivial
  | paused =>
    have hinit : c.hasInit = false := by simpa [Overlooks, hstate] using hover
    simp only [hinit, Bool.false_eq_true, if_false]
    have hthaw : Succeeds (fun _ => True) (freeze .thawed .ok) fun _ => True :=
      Meets.modify fun _ h => h
    exact (hthaw.bind destroy_succeeds) c trivial
  | restored => exact destroy_succeeds c trivial
  | loaded => exact absurd hstate hloaded

theorem loaded_not_stale {c : Container} (h : c.state = .loaded) : c.stale = false := by
  unfold Container.stale
  rw [h]
  cases c.observed <;> rfl

theorem exec_destroyAnyState {env : DestroyEnv} {c : Container} (hread : env.read = none) :
    (destroyAnyState env).exec c =
      (destroyState env).exec
        (if c.state = .loaded then { c with state := c.observed } else c) := by
  unfold destroyAnyState
  rw [Program.exec_bind, Program.exec_get]
  dsimp only
  rw [Program.exec_bind]
  by_cases hloaded : c.state = .loaded
  · have hstate : c.refreshed = c.observed := by
      simp [Container.refreshed, hloaded]
    simp only [hloaded, decide_true, Program.onlyIf_true, exec_refreshState, hread,
      loaded_not_stale hloaded, hstate, if_true]
    rfl
  · simp [hloaded]

theorem destroyCall_succeeds : Succeeds Overlooks (destroyCall {}) fun _ => True := by
  refine Meets.wrap fun c hover => ?_
  rw [exec_destroyAnyState rfl]
  split
  · rename_i hloaded
    have hinit : c.hasInit = false := by simpa [Overlooks, hloaded] using hover
    have hne : c.observed ≠ .loaded := by
      have hrefreshed := refreshed_ne_loaded c
      simpa [Container.refreshed, hloaded] using hrefreshed
    exact destroyState_succeeds _ ⟨.inl hinit, hne⟩
  · rename_i hloaded
    exact destroyState_succeeds c ⟨hover, hloaded⟩

theorem refuses_of_error {env : DestroyEnv} {c : Container} {err : Err} {s : ContainerState}
    (h : (destroyAnyState env).exec c = (.error err, { c with state := s })) : Refuses env c := by
  have hcall := Program.exec_wrap_error (f := .wrapped "unable to destroy container") h
  unfold Refuses destroyCall
  rw [hcall]
  exact ⟨⟨_, rfl⟩, rfl, rfl, rfl, rfl⟩

theorem exec_destroyState_hasInit (env : DestroyEnv) {c : Container} (hinit : c.hasInit = true)
    (hstate : c.state = .running ∨ c.state = .paused) :
    ∃ err, (destroyState env).exec c = (.error err, c) := by
  unfold destroyState
  rw [Program.exec_bind, Program.exec_get]
  rcases hstate with hs | hs
  · exact ⟨.errRunning, by simp [hs, hinit]⟩
  · exact ⟨.errPaused, by simp [hs, hinit]⟩

theorem observed_released {c : Container} (hinit : c.hasInit = true) (hfifo : c.execFifo = false) :
    c.observed = .running ∨ c.observed = .paused := by
  unfold Container.observed
  by_cases hfrozen : c.freezer = .frozen
  · simp [hfrozen]
  · simp [hfrozen, hinit, hfifo]

theorem refuses_of_not_overlooks {c : Container} (hreleased : Released c) (hover : ¬ Overlooks c)
    (env : DestroyEnv) : Refuses env c := by
  simp only [Overlooks, not_or, Bool.not_eq_false] at hover
  obtain ⟨hinit, hstopped, hcreated, hrestored⟩ := hover
  by_cases hloaded : c.state = .loaded
  · cases hread : env.read with
    | some e =>
      have hexec : (destroyAnyState env).exec c = (.error (.system e), c) := by
        simp [destroyAnyState, Program.exec_bind, hloaded, hread, exec_refreshState]
      exact refuses_of_error (s := c.state) hexec
    | none =>
      have hobs := observed_released hinit hreleased.2
      have hinit' : { c with state := c.observed }.hasInit = true := hinit
      obtain ⟨err, herr⟩ := exec_destroyState_hasInit env hinit' hobs
      have hexec : (destroyAnyState env).exec c =
          (.error err, { c with state := c.observed }) := by
        rw [exec_destroyAnyState hread, if_pos hloaded, herr]
      exact refuses_of_error hexec
  · have hstate : c.state = .running ∨ c.state = .paused := by
      cases h : c.state <;> simp_all
    obtain ⟨err, herr⟩ := exec_destroyState_hasInit env hinit hstate
    have hexec : (destroyAnyState env).exec c = (.error err, c) := by
      simp [destroyAnyState, Program.exec_bind, hloaded, herr]
    exact refuses_of_error (s := c.state) hexec

/-- Destroy. -/
theorem destroyCall_refuses_iff {c : Container} (hreleased : Released c) :
    (∀ env, Refuses env c) ↔
      c.hasInit = true ∧ c.state ≠ .stopped ∧ c.state ≠ .created ∧
        c.state ≠ .restored := by
  have hcond : (c.hasInit = true ∧ c.state ≠ .stopped ∧ c.state ≠ .created ∧
      c.state ≠ .restored) ↔ ¬ Overlooks c := by
    simp only [Overlooks, not_or, Bool.not_eq_false, ne_eq]
  rw [hcond]
  constructor
  · intro hrefuses hover
    obtain ⟨⟨err, herr⟩, -⟩ := hrefuses {}
    have hends := destroyCall_succeeds c hover
    revert herr hends
    rcases (destroyCall {}).exec c with ⟨r | r, s⟩
    · exact fun _ hfalse => hfalse
    · exact fun herr _ => nomatch herr
  · exact refuses_of_not_overlooks hreleased

def ranRefreshed : Container :=
  Event.perform (.status none)
    (Event.perform (.run { init := true } startsAtOnce {})
      (.create {} false .undefined false 0))

theorem destroyCall_refuses_ranRefreshed :
    Released ranRefreshed ∧ ∀ env, Refuses env ranRefreshed := by
  have hreleased : Released ranRefreshed := ⟨⟨_, rfl, rfl⟩, rfl⟩
  exact ⟨hreleased, (destroyCall_refuses_iff hreleased).mpr ⟨rfl, by decide, by decide, by decide⟩⟩

theorem ran_destroyed :
    ∃ c, containerSystem.Reachable c ∧ Released c ∧
      ((destroyCall {}).exec c).1 = .ok () ∧
      ((destroyCall {}).exec c).2.cgroup = false ∧
      ((destroyCall {}).exec c).2.stateDir = false := by
  have hcreate : containerSystem.Reachable (.create {} false .undefined false 0) :=
    System.Reachable.of_init (.create {} false .undefined false 0 (by decide))
  have hrun := hcreate.tail ⟨.run { init := true } startsAtOnce {}, rfl⟩
  exact ⟨_, hrun, ⟨⟨_, rfl, rfl⟩, rfl⟩, rfl, rfl, rfl⟩

end Runc.Libcontainer
