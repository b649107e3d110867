import Runc.Libcontainer.Calls

/-!
# Settled containers

`refreshState` moves the object to the state that the system shows, and not
every pair of states is a legal move.  `Settled` is what rules the illegal ones
out: a frozen cgroup goes with no exec fifo and with an object that is neither
stopped nor restored, and a fifo beside a live init goes with a created one.
-/

namespace Runc.Libcontainer

open Lib (Program)
open Lib.Program (Meets Keeps)

structure Settled (c : Container) : Prop where
  frozen : c.freezer = .frozen →
    c.execFifo = false ∧ c.state ≠ .stopped ∧ c.state ≠ .restored
  fifo : c.execFifo = true → c.hasInit = true → c.state = .created
  loaded : c.state ≠ .loaded
  startTime_le : c.initProcessStartTime ≤ c.clock
  proc_le : ∀ p, c.initProcess = some p → p.startTime ≤ c.clock
  refreshed : c.refreshFailed = false

section Steps

variable {c : Container}

theorem Settled.not_stale (h : Settled c) : c.stale = false := by
  unfold Container.stale
  rcases observed_cases c with
    ⟨hobs, hfrozen⟩ | ⟨-, ⟨hobs, -⟩ | ⟨hobs, hinit, hfifo⟩ | ⟨hobs, -⟩⟩
  · obtain ⟨-, hstopped, hrestored⟩ := h.frozen hfrozen
    simp [hobs, ContainerState.rejects, hstopped, hrestored]
  · simp [hobs, ContainerState.rejects]
  · simp [hobs, ContainerState.rejects, h.fifo hfifo hinit]
  · simp [hobs, ContainerState.rejects]

theorem refreshed_ne_loaded (c : Container) : c.refreshed ≠ .loaded := by
  unfold Container.refreshed
  split
  · decide
  · rcases observed_cases c with
      ⟨hobs, -⟩ | ⟨-, ⟨hobs, -⟩ | ⟨hobs, -⟩ | ⟨hobs, -⟩⟩
    · simp [hobs]
    · simp [hobs]
    · simp [hobs]
    · simp [hobs]

theorem Settled.refresh (h : Settled c) : Settled { c with state := c.refreshed } := by
  refine ⟨?_, ?_, refreshed_ne_loaded c, h.startTime_le, h.proc_le, h.refreshed⟩
  · intro hfrozen
    obtain ⟨hfifo, -, hrestored⟩ := h.frozen hfrozen
    have hobs : c.observed = .paused := if_pos hfrozen
    refine ⟨hfifo, ?_, ?_⟩
    · simp [Container.refreshed, hrestored, hobs]
    · simp [Container.refreshed, hrestored, hobs]
  · intro (hfifo : c.execFifo = true) (hinit : c.hasInit = true)
    have hstate : c.state = .created := h.fifo hfifo hinit
    have hthawed : c.freezer ≠ .frozen := by
      intro hfrozen
      have hgone := (h.frozen hfrozen).1
      rw [hfifo] at hgone
      cases hgone
    have hobs : c.observed = .created := by
      simp [Container.observed, hthawed, hinit, hfifo]
    simp [Container.refreshed, hstate, hobs]

theorem keeps_fault {P : Container → Prop} (f : Fault) : Keeps P (fault f) :=
  Keeps.check _

theorem keeps_refreshState {P : Container → Prop} (hsettled : ∀ c, P c → Settled c)
    (hrefresh : ∀ c, P c → P { c with state := c.refreshed }) (read : Fault) :
    Keeps P (refreshState read) := by
  intro c hc
  rw [exec_refreshState]
  cases read with
  | some e => exact hc
  | none =>
    rw [(hsettled c hc).not_stale]
    exact hrefresh c hc

theorem settled_refreshState (read : Fault) : Keeps Settled (refreshState read) :=
  keeps_refreshState (fun _ h => h) (fun _ h => h.refresh) read

theorem Settled.of_frame {c' : Container} (h : Settled c) (hstate : c'.state = c.state)
    (hfreezer : c'.freezer = .frozen → c.freezer = .frozen)
    (hfifo : c'.execFifo = true → c.execFifo = true) (hinit : c'.hasInit = true → c.hasInit = true)
    (htime : c'.initProcessStartTime ≤ c'.clock)
    (hproc : ∀ p, c'.initProcess = some p → p.startTime ≤ c'.clock)
    (hflag : c'.refreshFailed = c.refreshFailed) : Settled c' := by
  refine ⟨?_, ?_, hstate ▸ h.loaded, htime, hproc, hflag.trans h.refreshed⟩
  · intro hfrozen
    obtain ⟨hgone, hstopped, hrestored⟩ := h.frozen (hfreezer hfrozen)
    rw [hstate]
    refine ⟨?_, hstopped, hrestored⟩
    cases hthere : c'.execFifo with
    | false => rfl
    | true =>
      have hfifo' := hfifo hthere
      rw [hgone] at hfifo'
      cases hfifo'
  · intro hthere hinit'
    rw [hstate]
    exact h.fifo (hfifo hthere) (hinit hinit')

theorem Settled.setFreezer (h : Settled c) {config : Config} {target : FreezerState}
    (hto : target = .frozen →
      c.execFifo = false ∧ c.state ≠ .stopped ∧ c.state ≠ .restored) :
    Settled { c with freezer := target, config := config } :=
  ⟨hto, h.fifo, h.loaded, h.startTime_le, h.proc_le, h.refreshed⟩

theorem hasInit_signalled {sig : Signal} {dead : Bool} (h : (c.signalled sig dead).hasInit = true) :
    c.hasInit = true := by
  unfold Container.hasInit Container.signalled at *
  cases hp : c.initProcess with
  | none => simp [hp] at h
  | some p =>
    simp only [hp, Option.map_some, Proc.signalled, Bool.and_eq_true, beq_iff_eq] at h ⊢
    exact ⟨h.1.1, h.2⟩

theorem Settled.signalled (h : Settled c) (sig : Signal) (dead : Bool) :
    Settled (c.signalled sig dead) := by
  refine h.of_frame rfl id id hasInit_signalled h.startTime_le ?_ rfl
  intro p hp
  obtain ⟨q, hq, rfl⟩ := Option.map_eq_some_iff.mp hp
  exact h.proc_le q hq

theorem Settled.removeFifo (h : Settled c) : Settled { c with execFifo := false } :=
  h.of_frame rfl id (fun hthere => nomatch hthere) id h.startTime_le h.proc_le rfl

theorem Settled.initDies (h : Settled c) : Settled (External.initDies.apply c) := by
  refine h.of_frame rfl id id ?_ h.startTime_le ?_ rfl
  · intro hinit
    unfold External.apply Container.hasInit at hinit
    cases hp : c.initProcess with
    | none => simp [hp] at hinit
    | some p => simp [hp] at hinit
  · intro p hp
    obtain ⟨q, hq, rfl⟩ := Option.map_eq_some_iff.mp hp
    exact h.proc_le q hq

end Steps

section Signals

def Loose (c : Container) : Prop :=
  Settled { c with freezer := .thawed }

theorem Settled.loose {c : Container} (h : Settled c) : Loose c :=
  h.setFreezer fun hthawed => nomatch hthawed

def FreezeOutcome.leavesFrozen : FreezeOutcome → Bool
  | .failed _ .frozen => true
  | _ => false

theorem ne_frozen_of_leaves {err : String} {left : FreezerState}
    (h : (FreezeOutcome.failed err left).leavesFrozen = false) : left ≠ .frozen := by
  rintro rfl
  cases h

variable {out : FreezeOutcome} {P : Container → Prop}

theorem meets_freeze {Q : Container → Prop} {target : FreezerState} (hok : ∀ c, P c → out = .ok →
      Q { c with freezer := target, config := { c.config with freezer := target } })
    (hfailed : ∀ c, P c → ∀ err left, out = .failed err left → Q { c with freezer := left }) :
    Meets P (freeze target out) (fun _ => Q) Q := by
  cases out with
  | ok => exact Meets.modify fun c hc => hok c hc rfl
  | failed err left =>
    exact Meets.bind (Q := fun _ => Q) (Meets.modify fun c hc => hfailed c hc err left rfl)
      fun _ => Meets.throw fun _ h => h

theorem meets_setResources {Q : Container → Prop} {target : FreezerState}
    (hok : ∀ c, P c → out = .ok →
      Q { c with freezer := if target = .undefined then c.freezer else target })
    (hfailed : ∀ c, P c → ∀ err left, out = .failed err left → Q { c with freezer := left }) :
    Meets P (setResources target out) (fun _ => Q) Q := by
  cases out with
  | ok => exact Meets.modify fun c hc => hok c hc rfl
  | failed err left =>
    exact Meets.bind (Q := fun _ => Q) (Meets.modify fun c hc => hfailed c hc err left rfl)
      fun _ => Meets.throw fun _ h => h

theorem loose_freeze (target : FreezerState) (out : FreezeOutcome) :
    Keeps Loose (freeze target out) :=
  meets_freeze (fun _ h _ => h.setFreezer fun hthawed => nomatch hthawed) fun _ h _ _ _ => h

theorem settled_thaw (hout : out.leavesFrozen = false) :
    Meets Loose (freeze .thawed out) (fun _ => Settled) Settled := by
  refine meets_freeze (fun c h _ => ?_) fun c h err left hleft => ?_
  · exact h.setFreezer fun hthawed => nomatch hthawed
  · subst hleft
    exact h.setFreezer fun hfrozen => absurd hfrozen (ne_frozen_of_leaves hout)

theorem keeps_signalInit (h : ∀ c sig dead, P c → P (c.signalled sig dead))
    (sig : Signal) (out : SignalOutcome) : Keeps P (signalInit sig out) := by
  cases out with
  | sent dead => exact Meets.modify fun c hc => h c sig dead hc
  | failed err => exact Meets.throw fun _ hc => hc

theorem settled_signalInit (sig : Signal) (out : SignalOutcome) :
    Keeps Settled (signalInit sig out) :=
  keeps_signalInit (fun _ sig dead h => h.signalled sig dead) sig out

theorem settled_signalEachProcess (sig : Signal) {env : SignalAllEnv}
    (hthaw : env.thaw.leavesFrozen = false) :
    Meets Settled (signalEachProcess sig env) (fun _ => Settled) Settled := by
  -- between the freeze and the thaw the cgroup may be frozen with the fifo there
  have hfreeze : Meets Settled
      (Program.ignore (freeze .frozen env.freeze)) (fun _ => Loose) Settled :=
    Meets.ignore ((loose_freeze .frozen env.freeze).weaken
      (fun _ h => h.loose) (fun _ _ h => h) (fun _ h => h))
  have hpids : Meets Loose
      (Program.onError (fault env.pids) fun c =>
        ((freeze .thawed env.thaw).exec c).2)
      (fun _ => Loose) Settled := by
    refine Meets.onError (keeps_fault env.pids) fun c hc => ?_
    exact (settled_thaw hthaw).exec hc
  have hkill : Meets Loose (Program.ignore (signalInit sig env.kill)) (fun _ => Loose) Settled :=
    Meets.ignore (keeps_signalInit
      (fun _ sig dead (h : Settled _) => h.signalled sig dead) sig env.kill)
  have hlast : Meets Loose (Program.ignore (freeze .thawed env.thaw)) (fun _ => Settled) Settled :=
    Meets.ignore (settled_thaw hthaw)
  exact hfreeze.bind fun _ => hpids.bind fun _ => hkill.bind fun _ => hlast

theorem settled_signalAllProcesses (sig : Signal) {env : SignalAllEnv}
    (hthaw : env.thaw.leavesFrozen = false) : Keeps Settled (signalAllProcesses sig env) := by
  have heach := settled_signalEachProcess sig hthaw
  refine Meets.get fun c hc => ?_
  by_cases hcgroup : c.cgroup = true
  · simp only [hcgroup, Bool.not_true, Bool.false_eq_true, if_false]
    by_cases hsig : sig = .sigkill
    · rw [if_pos hsig]
      cases env.killFile with
      | written dead => exact hc.signalled sig dead
      | missing => exact heach c hc
      | failed err => exact hc
    · rw [if_neg hsig]
      exact heach c hc
  · simp only [hcgroup, Bool.not_false, if_true]
    exact hc

theorem settled_thaw_frozen (out : FreezeOutcome) :
    Meets (fun c => Settled c ∧ (out.leavesFrozen = true → c.freezer = .frozen))
      (freeze .thawed out) (fun _ => Settled) Settled := by
  refine meets_freeze (fun c h _ => ?_) fun c h err left hleft => ?_
  · exact h.1.setFreezer fun hthawed => nomatch hthawed
  · subst hleft
    refine h.1.setFreezer fun hfrozen => h.1.frozen (h.2 ?_)
    rw [hfrozen]
    rfl

theorem settled_signal (sig : Signal) (env : SignalEnv) : Keeps Settled (signal sig env) := by
  refine Meets.get fun c hc => ?_
  split
  · exact hc
  · have hsend : Meets (fun s => Settled s ∧ s.freezer = c.freezer)
        (Program.wrap (.wrapped "unable to signal init") (signalInit sig env.deliver))
        (fun _ s => Settled s ∧ s.freezer = c.freezer) Settled :=
      Meets.wrap ((keeps_signalInit (fun _ sig dead h => ⟨h.1.signalled sig dead, h.2⟩) sig
        env.deliver).weaken (fun _ h => h) (fun _ _ h => h) fun _ h => h.1)
    refine (hsend.bind fun _ => ?_) c ⟨hc, rfl⟩
    cases hthaw : (sig = .sigkill && env.read.isNone && c.freezer = .frozen) with
    | false => exact Meets.pure fun _ h => h.1
    | true =>
      have hfrozen : c.freezer = .frozen := by
        simp only [Bool.and_eq_true, decide_eq_true_eq] at hthaw
        exact hthaw.2
      exact Meets.ignore ((settled_thaw_frozen env.thaw).weaken
        (fun _ h => ⟨h.1, fun _ => h.2.trans hfrozen⟩) (fun _ _ h => h)
        (fun _ h => h))

theorem settled_signalCall (sig : Signal) {env : SignalEnv}
    (hthaw : env.all.thaw.leavesFrozen = false) : Keeps Settled (signalCall sig env) := by
  refine Keeps.get fun c => ?_
  split
  · refine Meets.tryCatch (settled_signalAllProcesses .sigkill hthaw) fun err => ?_
    split
    · exact settled_signal sig env
    · exact Meets.get fun _ h => h
  · exact settled_signal sig env

end Signals

section Destroy

theorem Settled.of_cgroupRemoved {c : Container} (h : Settled c) :
    Settled { c with cgroup := false, freezer := .undefined } :=
  ⟨(fun hfrozen => nomatch hfrozen), h.fifo, h.loaded, h.startTime_le, h.proc_le, h.refreshed⟩

theorem Settled.stopped {c : Container} (h : Settled c) (hthawed : c.freezer ≠ .frozen)
    (hnone : c.initProcess = none) : Settled { c with state := .stopped } := by
  refine ⟨fun hfrozen => absurd hfrozen hthawed, ?_, (nomatch ·), h.startTime_le,
    h.proc_le, h.refreshed⟩
  intro _ hinit
  have hno : c.hasInit = true := hinit
  simp [Container.hasInit, hnone] at hno

def Removed (c : Container) : Prop :=
  Settled c ∧ c.freezer ≠ .frozen

theorem settled_destroyCgroup (err : Fault) :
    Meets Settled (destroyCgroup err) (fun _ => Removed) Settled :=
  Meets.bind (keeps_fault err) fun _ => Meets.modify fun _ h =>
    ⟨h.of_cgroupRemoved, fun hfrozen => nomatch hfrozen⟩

theorem removed_destroyIntelRdt (err : Fault) : Keeps Removed (destroyIntelRdt err) :=
  Meets.bind (keeps_fault err) fun _ => Meets.modify fun _ h =>
    ⟨h.1.of_frame rfl id id id h.1.startTime_le h.1.proc_le rfl, h.2⟩

theorem removed_removeStateDir (out : RemoveOutcome) : Keeps Removed (removeStateDir out) := by
  cases out with
  | ok =>
    exact Meets.modify fun _ h =>
      ⟨h.1.of_frame rfl id (fun hthere => nomatch hthere) id h.1.startTime_le h.1.proc_le rfl, h.2⟩
  | failed err fifoLeft =>
    refine Meets.bind (Q := fun _ => Removed) (Meets.modify ?_) fun _ =>
      Meets.throw fun _ h => h
    intro c h
    refine ⟨h.1.of_frame rfl id ?_ id h.1.startTime_le h.1.proc_le rfl, h.2⟩
    intro hthere
    exact (Bool.and_eq_true_iff.mp hthere).1

def Gone (c : Container) : Prop :=
  Removed c ∧ c.initProcess = none

theorem gone_refreshState (read : Fault) : Keeps Gone (refreshState read) :=
  keeps_refreshState (fun _ h => h.1.1) (fun _ h => ⟨⟨h.1.1.refresh, h.1.2⟩, h.2⟩) read

theorem settled_finishDestroy (env : DestroyEnv) :
    Meets Removed (finishDestroy env) (fun _ => Settled) Settled := by
  have hclear : Meets Removed (modify fun c => { c with initProcess := none } : Op Unit)
      (fun _ => Gone) Settled :=
    Meets.modify fun _ h =>
      ⟨⟨h.1.of_frame rfl id id (fun hinit => nomatch hinit) h.1.startTime_le
        (fun _ hp => nomatch hp) rfl, h.2⟩, rfl⟩
  have hhooks : Keeps Gone (runPoststopHooks env) := by
    refine Keeps.get fun c => ?_
    split
    · exact Meets.pure fun _ h => h
    · exact (gone_refreshState env.hookRead).bind fun _ => keeps_fault env.hookRun
  refine hclear.bind fun _ => Meets.bind (Q := fun _ => Gone) ?_ fun _ => ?_
  · exact Meets.onError hhooks fun c h => h.1.1.stopped h.1.2 h.2
  · exact Meets.modify fun c h => h.1.1.stopped h.1.2 h.2

variable {env : DestroyEnv}

theorem settled_destroy (hthaw : env.all.thaw.leavesFrozen = false) :
    Keeps Settled (destroy env) := by
  refine Keeps.get fun c => ?_
  have hall : Keeps Settled (Program.onlyIf (!c.config.pidPrivate)
      (Program.ignore (signalAllProcesses .sigkill env.all))) :=
    Keeps.onlyIf (Meets.ignore (settled_signalAllProcesses .sigkill hthaw))
  have hrdt : Keeps Removed (Program.onlyIf c.intelRdtManager
      (Program.wrap (.wrapped "unable to remove container's IntelRDT group")
        (destroyIntelRdt env.intelRdt))) :=
    Keeps.onlyIf (Meets.wrap (removed_destroyIntelRdt env.intelRdt))
  have hdir : Keeps Removed (Program.wrap (.wrapped "unable to remove container state dir")
        (removeStateDir env.removeAll)) :=
    Meets.wrap (removed_removeStateDir env.removeAll)
  have hlate : ∀ {m : Op Unit}, Keeps Removed m →
      Meets Removed m (fun _ => Removed) Settled := fun h =>
    h.weaken (fun _ h => h) (fun _ _ h => h) fun _ h => h.1
  exact hall.bind fun _ =>
    (Meets.wrap (settled_destroyCgroup env.cgroup)).bind fun _ =>
    (hlate hrdt).bind fun _ => (hlate hdir).bind fun _ => settled_finishDestroy env

theorem settled_destroyState (hthaw : env.all.thaw.leavesFrozen = false) :
    Meets
      (fun c => Settled c ∧ (env.thaw.leavesFrozen = true → c.freezer = .frozen))
      (destroyState env) (fun _ => Settled) Settled := by
  have hdestroy := settled_destroy hthaw
  refine Meets.get fun c hc => ?_
  cases c.state with
  | stopped => exact hdestroy c hc.1
  | running =>
    dsimp only
    split
    · exact hc.1
    · exact hdestroy c hc.1
  | created =>
    exact ((Meets.ignore (settled_signalInit .sigkill env.kill)).bind fun _ =>
      hdestroy) c hc.1
  | paused =>
    dsimp only
    split
    · exact hc.1
    · exact ((settled_thaw_frozen env.thaw).bind fun _ => hdestroy) c hc
  | restored => exact ((keeps_fault env.checkpoint).bind fun _ => hdestroy) c hc.1
  | loaded => exact hc.1

theorem settled_destroyCall (hthaw : env.all.thaw.leavesFrozen = false) :
    Meets
      (fun c => Settled c ∧ (env.thaw.leavesFrozen = true → c.freezer = .frozen))
      (destroyCall env) (fun _ => Settled) Settled := by
  refine Meets.wrap (Meets.get fun c hc => ?_)
  have hrefresh : Keeps (fun c => Settled c ∧ (env.thaw.leavesFrozen = true → c.freezer = .frozen))
      (refreshState env.read) :=
    keeps_refreshState (fun _ h => h.1) (fun _ h => ⟨h.1.refresh, h.2⟩) env.read
  have hfirst := (Keeps.onlyIf (b := c.state = .loaded) hrefresh).weaken
    (fun _ h => h) (fun _ _ h => h) (fun _ h => h.1)
  exact (hfirst.bind fun _ => settled_destroyState hthaw) c hc

end Destroy

end Runc.Libcontainer
