import Runc.Lib.Transition
import Runc.Libcontainer.SettledStart

/-!
# Refreshing the state along runs

A run is a sequence of calls on one container object, with events of the outside world
before, between and inside them.
-/

namespace Runc.Libcontainer

open Lib (Program System)
open Lib.Program (Meets Keeps)

def Freezable (c : Container) : Prop :=
  c.execFifo = false ∧ c.state ≠ .stopped ∧ c.state ≠ .restored

def Ready (danger : Prop) (c : Container) : Prop :=
  Settled c ∧ (danger → Freezable c)

theorem Ready.setFreezer {danger : Prop} {c : Container} (h : Ready danger c) {config : Config}
    {target : FreezerState} (hto : target = .frozen → danger ∨ c.freezer = .frozen) :
    Ready danger { c with freezer := target, config := config } := by
  refine ⟨h.1.setFreezer fun hfrozen => ?_, h.2⟩
  rcases hto hfrozen with hdanger | hbefore
  · exact h.2 hdanger
  · exact h.1.frozen hbefore

theorem ready_setResources {danger : Prop} {target : FreezerState} {out : FreezeOutcome}
    (hto : target = .frozen → danger) (hout : out.leavesFrozen = true → danger) :
    Keeps (Ready danger) (setResources target out) := by
  refine meets_setResources (fun c h _ => h.setFreezer ?_) fun c h err left hleft => ?_
  · split
    · exact fun hfrozen => .inr hfrozen
    · exact fun hfrozen => .inl (hto hfrozen)
  · refine h.setFreezer fun hfrozen => .inl (hout ?_)
    rw [hleft, hfrozen]
    rfl

theorem ready_freeze (target : FreezerState) (out : FreezeOutcome) :
    Keeps (Ready True) (freeze target out) :=
  meets_freeze (fun _ h _ => h.setFreezer fun _ => .inl trivial)
    fun _ h _ _ _ => h.setFreezer fun _ => .inl trivial

theorem meets_currentStatus {P : Container → Prop} (hP : ∀ c, P c → Settled c) (read : Fault) :
    Meets P (currentStatus read)
      (fun status s => ∃ c, P c ∧ s = { c with state := c.refreshed } ∧
        status = c.refreshed.status)
      P := by
  intro c hc
  rw [exec_currentStatus]
  cases read with
  | some e => exact hc
  | none =>
    rw [(hP c hc).not_stale]
    exact ⟨c, hc, rfl, rfl⟩

theorem refreshed_ne_restored {c : Container} (h : c.state ≠ .restored) :
    c.refreshed ≠ .restored := by
  unfold Container.refreshed
  rw [if_neg h]
  rcases observed_cases c with
    ⟨hobs, -⟩ | ⟨-, ⟨hobs, -⟩ | ⟨hobs, -⟩ | ⟨hobs, -⟩⟩
  · simp [hobs]
  · simp [hobs]
  · simp [hobs]
  · simp [hobs]

theorem frozen_of_refreshed_paused {c : Container} (h : c.refreshed = .paused) :
    c.freezer = .frozen := by
  unfold Container.refreshed at h
  split at h
  · cases h
  · rcases observed_cases c with
      ⟨-, hfrozen⟩ | ⟨-, ⟨hobs, -⟩ | ⟨hobs, -⟩ | ⟨hobs, -⟩⟩
    · exact hfrozen
    · simp [hobs] at h
    · simp [hobs] at h
    · simp [hobs] at h

theorem Settled.setState {c : Container} (h : Settled c) (hfifo : c.execFifo = false)
    {s : ContainerState} (hstopped : s ≠ .stopped) (hrestored : s ≠ .restored)
    (hloaded : s ≠ .loaded) : Settled { c with state := s } := by
  refine ⟨fun _ => ⟨hfifo, hstopped, hrestored⟩, ?_, hloaded, h.startTime_le,
    h.proc_le, h.refreshed⟩
  intro (hthere : c.execFifo = true)
  rw [hfifo] at hthere
  cases hthere

theorem settled_freeze_transition (target : FreezerState) (out : FreezeOutcome)
    {dst : ContainerState} (hdst : dst = .paused ∨ dst = .running) :
    Meets (Ready True) (do freeze target out; transition dst) (fun _ => Settled)
      Settled := by
  have hfreeze := (ready_freeze target out).weaken (fun _ h => h) (fun _ _ h => h) (fun _ h => h.1)
  refine hfreeze.bind fun _ => Meets.get fun s hs => ?_
  obtain ⟨hfifo, hstopped, hrestored⟩ := hs.2 trivial
  cases hstate : s.state with
  | stopped => exact absurd hstate hstopped
  | restored => exact absurd hstate hrestored
  | _ =>
    rcases hdst with rfl | rfl
    · exact hs.1.setState hfifo (by decide) (by decide) (by decide)
    · exact hs.1.setState hfifo (by decide) (by decide) (by decide)

theorem settled_pause (env : FreezerEnv) :
    Meets (fun c => Settled c ∧ c.execFifo = false ∧ c.state ≠ .restored)
      (pause env) (fun _ => Settled) Settled := by
  have hstatus := (meets_currentStatus
    (P := fun c => Settled c ∧ c.execFifo = false ∧ c.state ≠ .restored)
    (fun _ h => h.1) env.read).weaken (fun _ h => h) (fun _ _ h => h)
    (fun _ h => h.1)
  refine hstatus.bind fun status => ?_
  rintro _ ⟨c, ⟨hc, hfifo, hrestored⟩, rfl, rfl⟩
  split
  · rename_i hrunning
    refine settled_freeze_transition .frozen env.freeze (.inl rfl) _
      ⟨hc.refresh, fun _ => ⟨hfifo, ?_, refreshed_ne_restored hrestored⟩⟩
    intro (hstopped : c.refreshed = .stopped)
    rw [hstopped] at hrunning
    cases hrunning
  · exact hc.refresh

theorem settled_resume (env : FreezerEnv) : Keeps Settled (resume env) := by
  refine (meets_currentStatus (fun _ h => h) env.read).bind fun status => ?_
  rintro _ ⟨c, hc, rfl, rfl⟩
  split
  · exact hc.refresh
  · rename_i hpaused
    have hstate : c.refreshed = .paused := by
      cases h : c.refreshed <;> simp [h, ContainerState.status] at hpaused ⊢
    have hfifo := (hc.frozen (frozen_of_refreshed_paused hstate)).1
    refine settled_freeze_transition .thawed env.freeze (.inr rfl) _
      ⟨hc.refresh, fun _ => ⟨hfifo, ?_, ?_⟩⟩
    · simp [hstate]
    · simp [hstate]

theorem settled_handleFifoResult (env : ExecEnv) : Keeps Settled (handleFifoResult env) :=
  (Meets.wrap (keeps_fault env.fifoOpen)).bind fun _ =>
    (keeps_fault env.readFromExecFifo).bind fun _ =>
    (keeps_fault env.remove).bind fun _ =>
    Meets.modify fun _ h => h.removeFifo

theorem settled_exec (env : ExecEnv) : Keeps Settled (exec env) := by
  unfold exec
  split
  · exact Meets.wrap (settled_handleFifoResult env)
  · exact settled_handleFifoResult env

/-- `Set` may freeze the cgroup, by the new resources or the old ones. -/
def SetEnv.MayFreeze (env : SetEnv) (config : Config) (c : Container) : Prop :=
  config.freezer = .frozen ∨ env.set.leavesFrozen = true ∨
    c.config.freezer = .frozen ∨ env.setBack.leavesFrozen = true

theorem settled_set (config : Config) (env : SetEnv) :
    Meets
      (fun c => Settled c ∧
        (env.MayFreeze config c → c.execFifo = false ∧ c.state ≠ .restored))
      (set config env) (fun _ => Settled) Settled := by
  have hstatus := (meets_currentStatus (P := fun c => Settled c ∧
      (env.MayFreeze config c → c.execFifo = false ∧ c.state ≠ .restored))
    (fun _ h => h.1) env.read).weaken (fun _ h => h) (fun _ _ h => h)
    (fun _ h => h.1)
  refine hstatus.bind fun status => ?_
  rintro _ ⟨c, ⟨hc, hfreeze⟩, rfl, rfl⟩
  split
  · exact hc.refresh
  · rename_i hstatus
    have hready : Ready (env.MayFreeze config c) { c with state := c.refreshed } := by
      refine ⟨hc.refresh, fun hmay => ?_⟩
      obtain ⟨hfifo, hrestored⟩ := hfreeze hmay
      refine ⟨hfifo, ?_, refreshed_ne_restored hrestored⟩
      intro (hstopped : c.refreshed = .stopped)
      exact hstatus (congrArg ContainerState.status hstopped)
    have hnew : Keeps (Ready (env.MayFreeze config c)) (setResources config.freezer env.set) :=
      ready_setResources .inl fun h => .inr (.inl h)
    have hback : Keeps (Ready (env.MayFreeze config c))
        (setResources c.config.freezer env.setBack) :=
      ready_setResources (fun h => .inr (.inr (.inl h))) fun h => .inr (.inr (.inr h))
    have hundo : ∀ err : Err, Keeps (Ready (env.MayFreeze config c)) (do
        Program.ignore (setResources c.config.freezer env.setBack)
        throw err : Op Unit) := fun err =>
      (Meets.ignore hback).bind fun _ => Meets.throw fun _ h => h
    have hstore : Keeps (Ready (env.MayFreeze config c))
        (modify fun c => { c with config := config } : Op Unit) :=
      Meets.modify fun _ h =>
        ⟨h.1.of_frame rfl id id id h.1.startTime_le h.1.proc_le rfl, h.2⟩
    refine Meets.weaken (Meets.bind (Meets.tryCatch hnew hundo) fun _ =>
      Meets.bind (Keeps.onlyIf (Meets.tryCatch (keeps_fault env.intelRdt) hundo))
        fun _ => hstore.bind fun _ => keeps_fault env.saveState)
      (fun _ h => h) (fun _ _ h => h.1) (fun _ h => h.1) _ hready

theorem Settled.newProc {c : Container} (h : Settled c) :
    Settled { c with initProcess := some c.newProc, clock := c.clock + 1 } := by
  refine h.of_frame rfl id id ?_ (Nat.le_succ_of_le h.startTime_le) ?_ rfl
  · intro hinit
    have hne : c.clock + 1 ≠ c.initProcessStartTime := by
      have := h.startTime_le
      omega
    simp [Container.hasInit, Container.newProc, hne] at hinit
  · intro p hp
    cases hp
    exact Nat.le_refl _

theorem settled_transition_restored : Keeps Settled (transition .restored) := by
  refine Meets.get fun c hc => ?_
  cases hstate : c.state with
  | stopped =>
    refine ⟨fun hfrozen => absurd hstate (hc.frozen hfrozen).2.1, ?_, (nomatch ·),
      hc.startTime_le, hc.proc_le, hc.refreshed⟩
    intro hfifo hinit
    have hcreated := hc.fifo hfifo hinit
    rw [hstate] at hcreated
    cases hcreated
  | loaded => exact absurd hstate hc.loaded
  | _ => exact hc

theorem settled_criuNotifications {notification : CriuNotify}
    (h : notification ≠ .outside .freeze) : Keeps Settled (criuNotifications notification) := by
  cases notification with
  | setupNamespaces read run =>
    refine Meets.get fun c hc => ?_
    have hrefresh : Keeps Settled
        (tryCatch (do refreshState read; pure true) fun _ => pure false) :=
      Meets.tryCatch ((settled_refreshState read).bind fun _ =>
        Meets.pure fun _ h => h) fun _ => Meets.pure fun _ h => h
    exact (Keeps.onlyIf (hrefresh.bind fun _ =>
      Keeps.onlyIf (keeps_fault run))) c hc
  | postRestore stat save =>
    exact (keeps_fault stat).bind fun _ => settled_transition_restored.bind
      fun _ => Meets.bind (Q := fun _ => Settled)
        (Meets.modify fun _ h => h.newProc) fun _ => keeps_fault save
  | other err => exact keeps_fault err
  | outside event => exact Meets.modify fun _ hc => hc.external fun heq => h (heq ▸ rfl)

def RestoreEnv.MayFreeze (env : RestoreEnv) (c : Container) : Prop :=
  c.config.freezer = .frozen ∨ env.set.leavesFrozen = true

theorem settled_restore {env : RestoreEnv}
    (hnotify : ∀ n ∈ env.notifications, n ≠ .outside .freeze) :
    Meets (fun c => Settled c ∧ (env.MayFreeze c → Freezable c))
      (restore env) (fun _ => Settled) Settled := by
  have hearly : ∀ f : Fault, Meets (fun c => Settled c ∧ (env.MayFreeze c → Freezable c)) (fault f)
      (fun _ c => Settled c ∧ (env.MayFreeze c → Freezable c)) Settled :=
    fun f => (keeps_fault f).weaken (fun _ h => h) (fun _ _ h => h) fun _ h => h.1
  have hcgroup : Meets (fun c => Settled c ∧ (env.MayFreeze c → Freezable c))
      (modify fun c => { c with cgroup := true } : Op Unit)
      (fun _ c => Settled c ∧ (env.MayFreeze c → Freezable c)) Settled :=
    Meets.modify fun _ h =>
      ⟨h.1.of_frame rfl id id id h.1.startTime_le h.1.proc_le rfl, h.2⟩
  refine (hearly env.prepare).bind fun _ => (hearly env.applyCgroup).bind fun _ =>
    hcgroup.bind fun _ => Meets.get fun c hc => ?_
  have hkeep : Keeps (Ready (env.MayFreeze c)) (setResources c.config.freezer env.set) :=
    ready_setResources .inl .inr
  have hset := hkeep.weaken (fun _ h => h) (fun _ _ h => h.1) (fun _ h => h.1)
  have hloop : Keeps Settled (env.notifications.forM criuNotifications) :=
    Keeps.forM fun n hn => settled_criuNotifications (hnotify n hn)
  exact (hset.bind fun _ => (keeps_fault env.send).bind fun _ =>
    hloop.bind fun _ => keeps_fault env.finish) c hc

def Event.Safe : Event → Container → Prop
  | .start process env, c => env.Unfrozen process c
  | .run process env _, c => env.Unfrozen process c
  | .exec _, _ => True
  | .pause _, c => c.execFifo = false ∧ c.state ≠ .restored
  | .resume _, _ => True
  | .signal _ env, _ => env.all.thaw.leavesFrozen = false
  | .set config env, c =>
      env.MayFreeze config c → c.execFifo = false ∧ c.state ≠ .restored
  | .status _, _ => True
  | .restore env, c =>
      (env.MayFreeze c → Freezable c) ∧
        ∀ n ∈ env.notifications, n ≠ .outside .freeze
  | .destroy env, c =>
      env.all.thaw.leavesFrozen = false ∧
        (env.thaw.leavesFrozen = true → c.freezer = .frozen)
  | .outside event, c => event = .freeze → Freezable c

theorem Settled.perform {c : Container} (h : Settled c) {event : Event} (hsafe : event.Safe c) :
    Settled (event.perform c) := by
  cases event with
  | start process env => exact settled_start.exec ⟨h, hsafe⟩
  | run process env execEnv =>
    exact (settled_start.bind fun _ =>
      Keeps.onlyIf (settled_exec execEnv)).exec ⟨h, hsafe⟩
  | exec env => exact (settled_exec env).exec h
  | pause env => exact (settled_pause env).exec ⟨h, hsafe⟩
  | resume env => exact (settled_resume env).exec h
  | signal sig env => exact (settled_signalCall sig hsafe).exec h
  | set config env => exact (settled_set config env).exec ⟨h, hsafe⟩
  | status read =>
    have hstatus : Keeps Settled (currentStatus read) :=
      (settled_refreshState read).bind fun _ => Meets.get fun _ hc => hc
    exact (hstatus.bind fun _ => Meets.pure fun _ hc => hc).exec h
  | restore env => exact (settled_restore hsafe.2).exec ⟨h, hsafe.1⟩
  | destroy env => exact (settled_destroyCall hsafe.1).exec ⟨h, hsafe.2⟩
  | outside event =>
    by_cases hevent : event = .freeze
    · subst hevent
      change Settled (External.freeze.apply c)
      simp only [External.apply]
      split
      · exact h.setFreezer fun _ => hsafe rfl
      · exact h
    · exact h.external hevent

def containerSystem : System Container where
  init := Opened
  step c c' := ∃ event : Event, c' = event.perform c

def safeSystem : System Container where
  init c := Opened c ∧ (c.freezer = .frozen → c.execFifo = false)
  step c c' := ∃ event : Event, event.Safe c ∧ c' = event.perform c

theorem Opened.settled {c : Container} (h : Opened c)
    (hfifo : c.freezer = .frozen → c.execFifo = false) : Settled c := by
  cases h with
  | create config intelRdtManager freezer cgroup clock hthawed =>
    exact ⟨fun hfrozen => absurd hfrozen hthawed, (nomatch ·), (nomatch ·),
      Nat.zero_le _, (fun _ hp => nomatch hp), rfl⟩
  | @load found _ hloaded hflag htime hproc hrefresh =>
    have hstale : found.stale = false := by
      unfold Container.stale
      rw [hloaded]
      cases found.observed <;> rfl
    rw [exec_refreshState, hstale] at hrefresh
    obtain rfl : { found with state := found.refreshed } = c := by
      simpa using congrArg Prod.snd hrefresh
    have hstate : found.refreshed = found.observed := by
      simp [Container.refreshed, hloaded]
    refine ⟨?_, ?_, refreshed_ne_loaded found, htime, hproc, hflag⟩
    · intro hfrozen
      have hobs : found.observed = .paused := if_pos hfrozen
      exact ⟨hfifo hfrozen, by simp [hstate, hobs], by simp [hstate, hobs]⟩
    · intro (hthere : found.execFifo = true) (hinit : found.hasInit = true)
      have hthawed : found.freezer ≠ .frozen := by
        intro hfrozen
        have hgone : found.execFifo = false := hfifo hfrozen
        rw [hthere] at hgone
        cases hgone
      simp [hstate, Container.observed, hthawed, hinit, hthere]

theorem settled_of_reachable {c : Container} (h : safeSystem.Reachable c) : Settled c := by
  refine System.Reachable.invariant (P := Settled) ?_ ?_ h
  · rintro s ⟨hopened, hfifo⟩
    exact hopened.settled hfifo
  · rintro s s' - hs ⟨event, hsafe, rfl⟩
    exact hs.perform hsafe

/-- No invalid refresh. -/
theorem refreshState_valid_of_safe {c : Container} (h : safeSystem.Reachable c) (read : Fault) :
    c.refreshFailed = false ∧
      ∀ src dst, ((refreshState read).exec c).1 ≠ .error (.stateTransition src dst) := by
  have hsettled := settled_of_reachable h
  refine ⟨hsettled.refreshed, fun src dst => ?_⟩
  rw [exec_refreshState, hsettled.not_stale]
  cases read with
  | some e => simp
  | none => simp

def startsAtOnce : StartEnv where
  syncs := [.procReady none none true none]

def ranPausedResumed : Container :=
  Event.perform (.resume {}) (Event.perform (.pause {})
    (Event.perform (.run { init := true } startsAtOnce {})
      (.create {} false .undefined false 0)))

theorem refreshState_valid_of_ran :
    safeSystem.Reachable ranPausedResumed ∧
      ranPausedResumed.refreshFailed = false := by
  have hcreate : safeSystem.Reachable (.create {} false .undefined false 0) :=
    System.Reachable.of_init ⟨.create {} false .undefined false 0 (by decide), nofun⟩
  have hrun := hcreate.tail ⟨.run { init := true } startsAtOnce {}, by
    intro _ _
    exact ⟨by decide, by decide, by simp [startsAtOnce, SyncEvent.freezes]⟩, rfl⟩
  have hpause := hrun.tail ⟨.pause {}, ⟨rfl, by decide⟩, rfl⟩
  have hresume := hpause.tail ⟨.resume {}, trivial, rfl⟩
  exact ⟨hresume, (refreshState_valid_of_safe hresume none).1⟩

theorem resumed_created_invalid :
    ∃ c, containerSystem.Reachable c ∧
      ((refreshState none).exec c).1 =
        .error (.stateTransition .running .created) := by
  have hcreate : containerSystem.Reachable (.create {} false .undefined false 0) :=
    System.Reachable.of_init (.create {} false .undefined false 0 (by decide))
  have hstart := hcreate.tail ⟨.start { init := true } startsAtOnce, rfl⟩
  have hpause := hstart.tail ⟨.pause {}, rfl⟩
  have hresume := hpause.tail ⟨.resume {}, rfl⟩
  exact ⟨_, hresume, rfl⟩

end Runc.Libcontainer
