import Runc.Libcontainer.Settled

/-!
# Starting and restoring a settled container

Until init reports that it is ready, no start time is known and `hasInit` is
false, so the fifo may be there whatever the state of the object is.  From then
on the object is created.  Both hold in a cgroup that is not frozen.
-/

namespace Runc.Libcontainer

open Lib (Program)
open Lib.Program (Meets Keeps)

section Start

structure Thawed (c : Container) : Prop where
  settled : Settled c
  freezer : c.freezer ≠ .frozen
  config : c.config.freezer ≠ .frozen

/-- Before init reports, no start time is known and `hasInit` is false. -/
def Starting (c : Container) : Prop :=
  Thawed c ∧ c.initProcessStartTime = 0

variable {c : Container}

theorem hasInit_of_startTime_zero (h : c.initProcessStartTime = 0) : c.hasInit = false := by
  unfold Container.hasInit
  cases c.initProcess with
  | none => rfl
  | some p =>
    have hpos : p.startTime ≠ c.initProcessStartTime := by
      have := p.startTime_pos
      omega
    simp [hpos]

theorem Starting.update {c c' : Container} (h : Starting c) (hstate : c'.state = c.state)
    (hfreezer : c'.freezer = c.freezer) (hconfig : c'.config = c.config)
    (htime : c'.initProcessStartTime = c.initProcessStartTime)
    (hproc : ∀ p, c'.initProcess = some p → p.startTime ≤ c'.clock)
    (hflag : c'.refreshFailed = c.refreshFailed) : Starting c' := by
  have hzero : c'.initProcessStartTime = 0 := htime.trans h.2
  refine ⟨⟨⟨?_, ?_, hstate ▸ h.1.settled.loaded, ?_, hproc, ?_⟩, ?_, ?_⟩, hzero⟩
  · intro hfrozen
    exact absurd (hfreezer ▸ hfrozen) h.1.freezer
  · intro _ hinit
    rw [hasInit_of_startTime_zero hzero] at hinit
    cases hinit
  · omega
  · exact hflag.trans h.1.settled.refreshed
  · rw [hfreezer]
    exact h.1.freezer
  · rw [hconfig]
    exact h.1.config

theorem thawed_refreshState (read : Fault) : Keeps Thawed (refreshState read) :=
  keeps_refreshState (fun _ h => h.settled)
    (fun _ h => ⟨h.settled.refresh, h.freezer, h.config⟩) read

theorem starting_refreshState (read : Fault) : Keeps Starting (refreshState read) :=
  keeps_refreshState (fun _ h => h.1.settled)
    (fun _ h => ⟨⟨h.1.settled.refresh, h.1.freezer, h.1.config⟩, h.2⟩) read

theorem Thawed.signalled (h : Thawed c) (sig : Signal) (dead : Bool) :
    Thawed (c.signalled sig dead) :=
  ⟨h.settled.signalled sig dead, h.freezer, h.config⟩

theorem Thawed.terminate (h : Thawed c) (terminated : Bool) : Thawed (c.terminate terminated) := by
  cases terminated with
  | false => exact h
  | true => exact h.signalled .sigkill true

theorem Thawed.setFreezer (h : Thawed c) {target : FreezerState} (hto : target ≠ .frozen) :
    Thawed { c with freezer := target } :=
  ⟨h.settled.setFreezer fun hfrozen => absurd hfrozen hto, hto, h.config⟩

theorem thawed_setResources {target : FreezerState} {out : FreezeOutcome} (hto : target ≠ .frozen)
    (hout : out.leavesFrozen = false) : Keeps Thawed (setResources target out) := by
  refine meets_setResources (fun c h _ => h.setFreezer ?_) fun c h err left hleft => ?_
  · split
    · exact h.freezer
    · exact hto
  · subst hleft
    exact h.setFreezer (ne_frozen_of_leaves hout)

theorem External.apply_config (event : External) (c : Container) :
    (event.apply c).config = c.config := by
  cases event <;> simp only [External.apply] <;> split <;> rfl

theorem Settled.external (h : Settled c) {event : External} (hevent : event ≠ .freeze) :
    Settled (event.apply c) := by
  cases event with
  | initDies => exact h.initDies
  | freeze => exact absurd rfl hevent
  | thaw =>
    simp only [External.apply]
    split
    · exact h.setFreezer fun hfrozen => nomatch hfrozen
    · exact h
  | fifoRemoved => exact h.removeFifo

theorem Thawed.external (h : Thawed c) {event : External} (hevent : event ≠ .freeze) :
    Thawed (event.apply c) := by
  refine ⟨h.settled.external hevent, ?_, ?_⟩
  · cases event with
    | initDies => exact h.freezer
    | freeze => exact absurd rfl hevent
    | thaw =>
      simp only [External.apply]
      split
      · exact fun hfrozen => nomatch hfrozen
      · exact h.freezer
    | fifoRemoved => exact h.freezer
  · rw [External.apply_config]
    exact h.config

def SyncEvent.freezes : SyncEvent → Bool
  | .procHooks set _ _ _ _ => set.leavesFrozen
  | .outside event => event = .freeze
  | _ => false

theorem Thawed.created {c : Container} (h : Thawed c) : Thawed { c with state := .created } := by
  refine ⟨⟨fun hfrozen => absurd hfrozen h.freezer, fun _ _ => rfl, (nomatch ·), ?_,
    ?_, ?_⟩, h.freezer, h.config⟩
  · exact h.settled.startTime_le
  · exact h.settled.proc_le
  · exact h.settled.refreshed

theorem statStartTime_le (h : Settled c) (readable : Bool) :
    c.statStartTime readable ≤ c.clock := by
  unfold Container.statStartTime
  cases hp : c.initProcess with
  | none => exact Nat.zero_le _
  | some p =>
    have hle := h.proc_le p hp
    cases readable with
    | false => exact Nat.zero_le _
    | true => exact hle

theorem Thawed.storeStartTime (h : Thawed c) (hstate : c.state = .created) (readable : Bool) :
    Thawed { c with initProcessStartTime := c.statStartTime readable } :=
  ⟨⟨fun hfrozen => absurd hfrozen h.freezer, fun _ _ => hstate, h.settled.loaded,
    statStartTime_le h.settled readable, h.settled.proc_le, h.settled.refreshed⟩,
    h.freezer, h.config⟩

theorem thawed_procReady (rlimits save : Fault) (readable : Bool) (write : Fault) :
    Keeps Thawed (handleSync (.procReady rlimits save readable write)) := by
  refine (Meets.wrap (keeps_fault rlimits)).bind fun _ => ?_
  refine Meets.bind (Q := fun _ c => Thawed c ∧ c.state = .created)
    (Meets.modify fun _ h => ⟨h.created, rfl⟩) fun _ => ?_
  refine Meets.get fun c hc => ?_
  have hsave : Meets (fun s => s = c)
      (Program.wrap (.wrapped "unable to store init state") (fault save))
      (fun _ s => s = c) Thawed :=
    Meets.wrap ((keeps_fault save).weaken (fun _ h => h) (fun _ _ h => h) fun _ h => h ▸ hc.1)
  refine (hsave.bind fun _ => Meets.bind (Q := fun _ => Thawed)
    (Meets.modify ?_) fun _ => keeps_fault write) c rfl
  rintro _ rfl
  exact hc.1.storeStartTime hc.2 readable

theorem thawed_handleSync {event : SyncEvent} (hevent : event.freezes = false) :
    Keeps Thawed (handleSync event) := by
  cases event with
  | procMountPlease err => exact keeps_fault err
  | procSeccomp getFd read send =>
    exact (keeps_fault getFd).bind fun _ =>
      (thawed_refreshState read).bind fun _ => keeps_fault send
  | procReady rlimits save readable write => exact thawed_procReady rlimits save readable write
  | procHooks set intelRdt read run write =>
    refine Meets.get fun c hc => ?_
    have hset := thawed_setResources hc.config hevent
    have hhooks : Keeps Thawed (refreshState read >>= fun _ => fault run) :=
      (thawed_refreshState read).bind fun _ => keeps_fault run
    exact ((Meets.wrap hset).bind fun _ =>
      (Keeps.onlyIf (Meets.wrap (keeps_fault intelRdt))).bind fun _ =>
      (Keeps.onlyIf hhooks).bind fun _ => keeps_fault write) c hc
  | procError text => exact fun _ h => h
  | invalid => exact fun _ h => h
  | outside event => exact Meets.modify fun _ h => h.external (of_decide_eq_false hevent)

variable {env : StartEnv}

theorem thawed_syncWithInit (hsyncs : ∀ e ∈ env.syncs, e.freezes = false) :
    Keeps Thawed (syncWithInit env) := by
  have hloop : Keeps Thawed (env.syncs.forM handleSync) :=
    Keeps.forM fun e he => thawed_handleSync (hsyncs e he)
  exact (Meets.wrap hloop).bind fun _ =>
    (keeps_fault env.shutdown).bind fun _ =>
    Keeps.onlyIf (Meets.throw fun _ h => h)

theorem Thawed.dropCgroup (h : Thawed c) (removed : Bool) : Thawed (c.dropCgroup removed) := by
  cases removed with
  | false => exact h
  | true => exact ⟨h.settled.of_cgroupRemoved, (fun hfrozen => nomatch hfrozen), h.config⟩

theorem Thawed.dropResctrl (h : Thawed c) (removed : Bool) : Thawed (c.dropResctrl removed) := by
  unfold Container.dropResctrl
  split
  · exact ⟨h.settled.of_frame rfl id id id h.settled.startTime_le
      h.settled.proc_le rfl, h.freezer, h.config⟩
  · exact h

theorem Starting.thawed (h : Starting c) : Thawed c :=
  h.1

theorem Starting.phase {m : Op Unit} (h : Keeps Starting m) :
    Meets Starting m (fun _ => Starting) Thawed :=
  h.weaken (fun _ h => h) (fun _ _ h => h) fun _ h => h.thawed

theorem starting_bringUpInit (hsyncs : ∀ e ∈ env.syncs, e.freezes = false) :
    Meets Starting (bringUpInit env) (fun _ => Thawed) Thawed := by
  have happly : Keeps Starting (applyCgroup env.applyCgroup env.cgroupApplied) :=
    (Meets.wrap (keeps_fault env.applyCgroup)).bind fun _ =>
      Meets.modify fun c h => h.update rfl rfl rfl rfl h.1.settled.proc_le rfl
  refine (Starting.phase happly).bind fun _ => Meets.get fun c hc => ?_
  have hrdt : Keeps Starting (do
      Program.wrap (.wrapped "unable to apply Intel RDT configuration") (fault env.applyIntelRdt)
      modify fun c => { c with resctrl := true }) :=
    (Meets.wrap (keeps_fault env.applyIntelRdt)).bind fun _ =>
      Meets.modify fun c h => h.update rfl rfl rfl rfl h.1.settled.proc_le rfl
  have hspec : Keeps Starting (Program.wrap (.wrapped "error getting current state")
        (refreshState env.specRead)) :=
    Meets.wrap (starting_refreshState env.specRead)
  have hsync := (thawed_syncWithInit hsyncs).weaken
    (fun _ (h : Starting _) => h.thawed) (fun _ _ h => h) (fun _ h => h)
  exact ((Starting.phase (Keeps.onlyIf hrdt)).bind fun _ =>
    (Starting.phase (keeps_fault env.bootstrap)).bind fun _ =>
    (Starting.phase (Keeps.onlyIf hspec)).bind fun _ =>
    (Starting.phase (Meets.wrap (keeps_fault env.sendConfig))).bind fun _ =>
    hsync) c hc

theorem starting_spawnInit (err : Fault) : Keeps Starting (spawnInit err) := by
  refine (keeps_fault err).bind fun _ => Meets.modify fun c h => ?_
  refine h.update rfl rfl rfl rfl ?_ rfl
  rintro p hp
  cases hp
  exact Nat.le_refl _

theorem starting_startInitProcess (hsyncs : ∀ e ∈ env.syncs, e.freezes = false) :
    Meets Starting (startInitProcess env) (fun _ => Thawed) Thawed := by
  have hspawn := Starting.phase (Meets.wrap
    (f := .wrapped "unable to start init") (starting_spawnInit env.cmdStart))
  have hsave := Starting.phase (Meets.wrap
    (f := .wrapped "unable to store init state before creating cgroup")
    (keeps_fault env.saveState))
  exact hspawn.bind fun _ => hsave.bind fun _ =>
    Meets.onError (starting_bringUpInit hsyncs) fun _ h =>
      ((h.terminate env.terminated).dropCgroup env.cgroupRemoved).dropResctrl env.resctrlRemoved

theorem thawed_poststart (env : StartEnv) : Keeps Thawed (poststart env) := by
  refine Keeps.get fun c => Keeps.onlyIf ?_
  exact (thawed_refreshState env.poststartRead).bind fun _ =>
    Meets.onError (keeps_fault env.poststartRun) fun _ h => h.terminate env.terminated

theorem meets_withLogs {P Q : Container → Prop} {m : Op Unit} (h : Meets P m (fun _ => Q) Q)
    (logs : Fault) : Meets P (withLogs logs m) (fun _ => Q) Q :=
  (Meets.wrap h).bind fun _ => Keeps.check _

theorem starting_startInit (hsyncs : ∀ e ∈ env.syncs, e.freezes = false) :
    Meets Starting (startInit env) (fun _ => Thawed) Thawed := by
  have hparent := Starting.phase (Meets.wrap (f := .wrapped "unable to create new parent process")
    (keeps_fault env.newParentProcess))
  have hnone : Keeps Starting (modify fun c => { c with initProcess := none } : Op Unit) :=
    Meets.modify fun c h => h.update rfl rfl rfl rfl (fun _ hp => nomatch hp) rfl
  have hexec := Starting.phase (Meets.wrap (f := .wrapped "unable to mark non-stdio fds as cloexec")
    (keeps_fault env.closeExecFrom))
  have hprocess := (Meets.wrap (f := .wrapped "unable to start container process")
    (starting_startInitProcess hsyncs)).bind fun _ => thawed_poststart env
  exact hparent.bind fun _ => (Starting.phase hnone).bind fun _ =>
    hexec.bind fun _ => meets_withLogs hprocess env.logs

theorem starting_createExecFifo (err : Fault) : Keeps Starting (createExecFifo err) := by
  refine Keeps.get fun c => ?_
  split
  · exact Meets.throw fun _ h => h
  · split
    · exact Meets.throw fun _ h => h
    · exact (keeps_fault err).bind fun _ => Meets.modify fun c h =>
        h.update rfl rfl rfl rfl h.1.settled.proc_le rfl

theorem keeps_startSetns {P : Container → Prop} (env : StartEnv) : Keeps P (startSetns env) :=
  (Meets.wrap (keeps_fault env.newParentProcess)).bind fun _ =>
    (Meets.wrap (keeps_fault env.closeExecFrom)).bind fun _ =>
    meets_withLogs (Meets.wrap (keeps_fault env.cmdStart)) env.logs

def StartEnv.Unfrozen (env : StartEnv) (process : Process) (c : Container) : Prop :=
  process.init = true → c.initProcessStartTime = 0 →
    c.freezer ≠ .frozen ∧ c.config.freezer ≠ .frozen ∧
      ∀ e ∈ env.syncs, e.freezes = false

theorem settled_start {process : Process} :
    Meets (fun c => Settled c ∧ env.Unfrozen process c) (start process env)
      (fun _ => Settled) Settled := by
  refine Meets.get ?_
  rintro c ⟨hc, henv⟩
  split
  · exact hc
  · split
    · exact hc
    · split
      · exact keeps_startSetns env c hc
      · rename_i hinit
        split
        · exact hc
        · rename_i hzero
          have hzero' : c.initProcessStartTime = 0 := by omega
          have hinit' : process.init = true := by simpa using hinit
          obtain ⟨hthawed, hconfig, hsyncs⟩ := henv hinit' hzero'
          have hfail : ∀ c, Thawed c → Settled
              (if env.fifoDeleted then { c with execFifo := false } else c) := by
            intro c h
            split
            · exact h.settled.removeFifo
            · exact h.settled
          have hrun := (starting_startInit hsyncs).weaken (fun _ h => h)
            (fun _ _ h => h.settled) (fun _ h => h)
          have hfifo := (starting_createExecFifo env.createExecFifo).weaken
            (fun _ h => h) (fun _ _ h => h) (fun _ h => h.thawed.settled)
          exact (hfifo.bind fun _ => Meets.onError hrun hfail) c ⟨⟨hc, hthawed, hconfig⟩, hzero'⟩

end Start

end Runc.Libcontainer
