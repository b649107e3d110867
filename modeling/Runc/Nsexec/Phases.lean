import Runc.Nsexec.Model

/-!
# The phases of the nsexec handshake

`ChildPhase` lists how far stage 0 and stage 1 can have come together, with
what is then queued between them and what stage 0 has done.  `GrandPhase` does
the same for stage 0 and stage 2.
-/

namespace Runc.Nsexec

open Lib

section Log

variable (config : Config)

def setgroupsEvents : List Event :=
  if config.isRootlessEuid && !config.isSetgroup then
    [.setgroups config.stage1Pid]
  else
    []

def mapEvents : List Event :=
  setgroupsEvents config ++
    updateMap config.uidmap (.uidMap config.stage1Pid) ++
    updateMap config.gidmap (.gidMap config.stage1Pid)

def timeEvents : List Event :=
  updateMap config.timensoffset (.timensOffsets config.stage1Pid)

def mappedLog : List Event :=
  if config.newUser then mapEvents config else []

def offsetLog : List Event :=
  mappedLog config ++
    (if config.timensoffset.isSome then timeEvents config else [])

def jsonLog : List Event :=
  offsetLog config ++ [.pidJson config.stage1Pid config.stage2Pid]

def finishLog : List Event :=
  jsonLog config ++ [.stage1Finish]

def releaseLog : List Event :=
  finishLog config ++ [.grandchildSent]

def exitLog : List Event :=
  releaseLog config ++ [.stage2Finish]

end Log

inductive Waiting : Stage0 → Prop where
  | closeChild0 : Waiting .closeChild0
  | readSync : Waiting .readSync

inductive Mapping (config : Config) : Stage0 → List Event → Prop where
  | setgroups : Mapping config .updateSetgroups []
  | uidmap : Mapping config .updateUidmap (setgroupsEvents config)
  | gidmap :
      Mapping config .updateGidmap
        (setgroupsEvents config ++
          updateMap config.uidmap (.uidMap config.stage1Pid))
  | ack : Mapping config .writeUsermapAck (mapEvents config)

inductive Offsetting (config : Config) : Stage0 → List Event → Prop where
  | offsets : Offsetting config .updateTimensOffsets (mappedLog config)
  | ack :
      Offsetting config .writeTimeoffsetsAck
        (mappedLog config ++ timeEvents config)

inductive Forwarding (config : Config) : Stage0 → List Event → Prop where
  | json :
      Forwarding config (.writePidJson config.stage2Pid) (offsetLog config)
  | readSync : Forwarding config .readSync (jsonLog config)

inductive Releasing (config : Config) : Stage0 → List Event → Prop where
  | close : Releasing config .closeGrandchild0 (finishLog config)
  | write : Releasing config .writeGrandchild (finishLog config)
  | read : Releasing config .readFinish (releaseLog config)
  | exited : Releasing config .exited (exitLog config)

theorem Waiting.running {pc : Stage0} (h : Waiting pc) : pc.running = true := by
  cases h <;> rfl

theorem Mapping.running {config : Config} {pc : Stage0} {log : List Event}
    (h : Mapping config pc log) : pc.running = true := by
  cases h <;> rfl

theorem Offsetting.running {config : Config} {pc : Stage0} {log : List Event}
    (h : Offsetting config pc log) : pc.running = true := by
  cases h <;> rfl

theorem Forwarding.running {config : Config} {pc : Stage0} {log : List Event}
    (h : Forwarding config pc log) : pc.running = true := by
  cases h <;> rfl

inductive ChildPhase (config : Config) :
    Stage0 → Stage1 → List Word → List Word → List Event → Prop where
  | start : ChildPhase config .spawnStage1 .notSpawned [] [] []
  | closing {pc} (h : Waiting pc) :
      ChildPhase config pc .closeChild1 [] [] []
  | joining {pc} (h : Waiting pc) :
      ChildPhase config pc .joinNamespaces [] [] []
  | unsharing {pc} (huser : config.newUser = true) (h : Waiting pc) :
      ChildPhase config pc .unshareUser [] [] []
  | dumping {pc} (huser : config.newUser = true) (h : Waiting pc) :
      ChildPhase config pc .setDumpable [] [] []
  | userAsking {pc} (huser : config.newUser = true) (h : Waiting pc) :
      ChildPhase config pc .writeUsermapPls [] [] []
  | userAsked {pc} (huser : config.newUser = true) (h : Waiting pc) :
      ChildPhase config pc .readUsermapAck [syncUsermapPls] [] []
  | userServed {pc log} (huser : config.newUser = true)
      (h : Mapping config pc log) :
      ChildPhase config pc .readUsermapAck [] [] log
  | userAcked (huser : config.newUser = true) :
      ChildPhase config .readSync .readUsermapAck [] [syncUsermapAck]
        (mappedLog config)
  | userDone (huser : config.newUser = true) :
      ChildPhase config .readSync .resetDumpable [] [] (mappedLog config)
  | rooting (huser : config.newUser = true) :
      ChildPhase config .readSync .becomeRoot [] [] (mappedLog config)
  | unsharingRest {pc} (h : Waiting pc) :
      ChildPhase config pc .unshareRest [] [] (mappedLog config)
  | timeAsking {pc} (htime : config.timensoffset.isSome = true)
      (h : Waiting pc) :
      ChildPhase config pc .writeTimeoffsetsPls [] [] (mappedLog config)
  | timeAsked {pc} (htime : config.timensoffset.isSome = true)
      (h : Waiting pc) :
      ChildPhase config pc .readTimeoffsetsAck [syncTimeoffsetsPls] []
        (mappedLog config)
  | timeServed {pc log} (htime : config.timensoffset.isSome = true)
      (h : Offsetting config pc log) :
      ChildPhase config pc .readTimeoffsetsAck [] [] log
  | timeAcked (htime : config.timensoffset.isSome = true) :
      ChildPhase config .readSync .readTimeoffsetsAck [] [syncTimeoffsetsAck]
        (offsetLog config)
  | spawning {pc} (h : Waiting pc) :
      ChildPhase config pc .spawnStage2 [] [] (offsetLog config)
  | pidAsking {pc} (h : Waiting pc) :
      ChildPhase config pc .writeRecvpidPls [] [] (offsetLog config)
  | pidAsked {pc} (h : Waiting pc) :
      ChildPhase config pc .writePid [syncRecvpidPls] [] (offsetLog config)
  | pidAwaited :
      ChildPhase config .readPid .writePid [] [] (offsetLog config)
  | pidSent {pc} (h : Waiting pc) :
      ChildPhase config pc .readRecvpidAck [syncRecvpidPls, config.stage2Pid]
        [] (offsetLog config)
  | pidQueued :
      ChildPhase config .readPid .readRecvpidAck [config.stage2Pid] []
        (offsetLog config)
  | pidRead :
      ChildPhase config (.writeRecvpidAck config.stage2Pid) .readRecvpidAck
        [] [] (offsetLog config)
  | pidAcked {pc log} (h : Forwarding config pc log) :
      ChildPhase config pc .readRecvpidAck [] [syncRecvpidAck] log
  | finishing {pc log} (h : Forwarding config pc log) :
      ChildPhase config pc .writeChildFinish [] [] log
  | finished {pc log} (h : Forwarding config pc log) :
      ChildPhase config pc .exited [syncChildFinish] [] log
  | released {pc log} (h : Releasing config pc log) :
      ChildPhase config pc .exited [] [] log

def Stage0.beforeRelease : Stage0 → Bool
  | .readFinish | .exited | .unexpectedSync _ | .iobail => false
  | _ => true

def Stage1.spawned : Stage1 → Bool
  | .writeRecvpidPls | .writePid | .readRecvpidAck | .writeChildFinish
  | .exited => true
  | _ => false

inductive Starting : Stage2 → Prop where
  | closeGrandchild1 : Starting .closeGrandchild1
  | closeChild0 : Starting .closeChild0
  | readGrandchild : Starting .readGrandchild

inductive Working : Stage2 → Prop where
  | setIds : Working .setIds
  | writeChildFinish : Working .writeChildFinish

inductive Reported : Stage2 → Prop where
  | closeGrandchild0 : Reported .closeGrandchild0
  | returned : Reported .returned

inductive GrandPhase :
    Stage0 → Stage1 → Stage2 → List Word → List Word → Prop where
  | unborn {pc0 pc1} (h0 : pc0.beforeRelease = true)
      (h1 : pc1.spawned = false) :
      GrandPhase pc0 pc1 .notSpawned [] []
  | starting {pc0 pc1 pc2} (h0 : pc0.beforeRelease = true)
      (h1 : pc1.spawned = true) (h : Starting pc2) :
      GrandPhase pc0 pc1 pc2 [] []
  | released {pc1 pc2} (h1 : pc1.spawned = true) (h : Starting pc2) :
      GrandPhase .readFinish pc1 pc2 [] [syncGrandchild]
  | working {pc1 pc2} (h1 : pc1.spawned = true) (h : Working pc2) :
      GrandPhase .readFinish pc1 pc2 [] []
  | reported {pc1 pc2} (h1 : pc1.spawned = true) (h : Reported pc2) :
      GrandPhase .readFinish pc1 pc2 [syncChildFinish] []
  | handedOver {pc1 pc2} (h1 : pc1.spawned = true) (h : Reported pc2) :
      GrandPhase .exited pc1 pc2 [] []

def ChildInv (config : Config) (s : State) : Prop :=
  ChildPhase config s.stage0 s.stage1 s.childToParent s.parentToChild s.log

def GrandInv (s : State) : Prop :=
  GrandPhase s.stage0 s.stage1 s.stage2 s.grandchildToParent
    s.parentToGrandchild

variable {s s' : State} {config : Config}

theorem of_some {P : State → Prop} {t : State} (hstep : some t = some s') (ht : P t) : P s' :=
  Option.some.inj hstep ▸ ht

theorem ChildInv.stage0_idle (hstep : stage0Step config s = some s') (hwait : Waiting s.stage0)
    (hqueue : s.childToParent = []) (halive : s.stage1.running = true)
    (hnext : ChildInv config (s.go0 .readSync)) : ChildInv config s' := by
  cases hpc : s.stage0 with
  | closeChild0 =>
    simp only [stage0Step, hpc] at hstep
    exact of_some hstep hnext
  | readSync => simp [stage0Step, hpc, hqueue, State.child0Open, halive] at hstep
  | _ =>
    rw [hpc] at hwait
    cases hwait

theorem ChildInv.stage0_queued {sync : Word} {rest : List Word}
    (hstep : stage0Step config s = some s')
    (hwait : Waiting s.stage0) (hqueue : s.childToParent = sync :: rest)
    (hnext : ChildInv config (s.go0 .readSync))
    (htaken : ChildInv config (dispatchSync sync { s with childToParent := rest })) :
    ChildInv config s' := by
  cases hpc : s.stage0 with
  | closeChild0 =>
    simp only [stage0Step, hpc] at hstep
    exact of_some hstep hnext
  | readSync =>
    simp only [stage0Step, hpc, hqueue, recv_cons] at hstep
    exact of_some hstep htaken
  | _ =>
    rw [hpc] at hwait
    cases hwait

theorem stage1Write_eq (halive : s.stage0.running = true) (word : Word) (next : Stage1) :
    stage1Write s word next =
      some { s.go1 next with childToParent := s.childToParent ++ [word] } := by
  simp [stage1Write, State.child1Open, halive]

theorem Mapping.step {config : Config} {s s' : State} (huser : config.newUser = true)
    (hserve : Mapping config s.stage0 s.log) (hpc : s.stage1 = .readUsermapAck)
    (hqueue : s.childToParent = []) (hqueue' : s.parentToChild = [])
    (hstep : stage0Step config s = some s') : ChildInv config s' := by
  obtain ⟨pc0, pc1, pc2, c2p, p2c, g2p, p2g, dump, log⟩ := s
  simp only at hserve hpc hqueue hqueue'
  subst hpc hqueue hqueue'
  cases hserve with
  | setgroups =>
    simp only [stage0Step, Option.some.injEq] at hstep
    subst hstep
    exact .userServed huser .uidmap
  | uidmap => exact of_some hstep (.userServed huser .gidmap)
  | gidmap => exact of_some hstep (.userServed huser .ack)
  | ack =>
    simp [stage0Step, State.child0Open, Stage1.running] at hstep
    subst hstep
    have hlog : mapEvents config = mappedLog config := by
      simp [mappedLog, huser]
    rw [hlog]
    exact .userAcked huser

theorem Offsetting.step {config : Config} {s s' : State} (htime : config.timensoffset.isSome = true)
    (hserve : Offsetting config s.stage0 s.log) (hpc : s.stage1 = .readTimeoffsetsAck)
    (hqueue : s.childToParent = []) (hqueue' : s.parentToChild = [])
    (hstep : stage0Step config s = some s') : ChildInv config s' := by
  obtain ⟨pc0, pc1, pc2, c2p, p2c, g2p, p2g, dump, log⟩ := s
  subst hpc hqueue hqueue'
  cases hserve with
  | offsets => exact of_some hstep (.timeServed htime .ack)
  | ack =>
    simp [stage0Step, State.child0Open, Stage1.running] at hstep
    subst hstep
    have hlog :
        mappedLog config ++ timeEvents config = offsetLog config := by
      simp [offsetLog, htime]
    rw [hlog]
    exact .timeAcked htime

section

variable (hinv : ChildInv config s)
include hinv

theorem ChildInv.stage0_step (hwrite : s.stage0 = .writeGrandchild → s.grandchild0Open = true)
    (hread : s.stage0 = .readFinish →
      s.grandchildToParent = [syncChildFinish] ∨
        (s.grandchildToParent = [] ∧ s.grandchild0Open = true))
    (hstep : stage0Step config s = some s') : ChildInv config s' := by
  obtain ⟨pc0, pc1, pc2, c2p, p2c, g2p, p2g, dump, log⟩ := s
  simp only [ChildInv] at hinv
  cases hinv with
  | start => exact of_some hstep (.closing .closeChild0)
  | closing h => exact .stage0_idle hstep h rfl rfl (.closing .readSync)
  | joining h => exact .stage0_idle hstep h rfl rfl (.joining .readSync)
  | unsharing huser h => exact .stage0_idle hstep h rfl rfl (.unsharing huser .readSync)
  | dumping huser h => exact .stage0_idle hstep h rfl rfl (.dumping huser .readSync)
  | userAsking huser h => exact .stage0_idle hstep h rfl rfl (.userAsking huser .readSync)
  | userAsked huser h =>
    exact .stage0_queued hstep h rfl (.userAsked huser .readSync) (.userServed huser .setgroups)
  | userServed huser h => exact h.step huser rfl rfl rfl hstep
  | userAcked huser => exact .stage0_idle hstep .readSync rfl rfl (.userAcked huser)
  | userDone huser => exact .stage0_idle hstep .readSync rfl rfl (.userDone huser)
  | rooting huser => exact .stage0_idle hstep .readSync rfl rfl (.rooting huser)
  | unsharingRest h => exact .stage0_idle hstep h rfl rfl (.unsharingRest .readSync)
  | timeAsking htime h => exact .stage0_idle hstep h rfl rfl (.timeAsking htime .readSync)
  | timeAsked htime h =>
    exact .stage0_queued hstep h rfl (.timeAsked htime .readSync) (.timeServed htime .offsets)
  | timeServed htime h => exact h.step htime rfl rfl rfl hstep
  | timeAcked htime => exact .stage0_idle hstep .readSync rfl rfl (.timeAcked htime)
  | spawning h => exact .stage0_idle hstep h rfl rfl (.spawning .readSync)
  | pidAsking h => exact .stage0_idle hstep h rfl rfl (.pidAsking .readSync)
  | pidAsked h => exact .stage0_queued hstep h rfl (.pidAsked .readSync) .pidAwaited
  | pidAwaited => simp [stage0Step, State.child0Open, Stage1.running] at hstep
  | pidSent h => exact .stage0_queued hstep h rfl (.pidSent .readSync) .pidQueued
  | pidQueued => exact of_some hstep .pidRead
  | pidRead =>
    simp [stage0Step, State.child0Open, Stage1.running] at hstep
    subst hstep
    exact .pidAcked .json
  | pidAcked h =>
    cases h with
    | json => exact of_some hstep (.pidAcked .readSync)
    | readSync => simp [stage0Step, State.child0Open, Stage1.running] at hstep
  | finishing h =>
    cases h with
    | json => exact of_some hstep (.finishing .readSync)
    | readSync => simp [stage0Step, State.child0Open, Stage1.running] at hstep
  | finished h =>
    cases h with
    | json => exact of_some hstep (.finished .readSync)
    | readSync => exact of_some hstep (.released .close)
  | released h =>
    cases h with
    | close => exact of_some hstep (.released .write)
    | write =>
      simp [stage0Step, hwrite rfl] at hstep
      subst hstep
      exact .released .read
    | read =>
      rcases hread rfl with hqueue | ⟨hqueue, hopen⟩
      · change g2p = _ at hqueue
        subst hqueue
        simp [stage0Step] at hstep
        subst hstep
        exact .released .exited
      · change g2p = _ at hqueue
        subst hqueue
        simp [stage0Step, hopen] at hstep
    | exited => simp [stage0Step] at hstep

theorem ChildInv.stage1_step (hstep : stage1Step config s = some s') : ChildInv config s' := by
  obtain ⟨pc0, pc1, pc2, c2p, p2c, g2p, p2g, dump, log⟩ := s
  simp only [ChildInv] at hinv
  cases hinv with
  | start => simp [stage1Step] at hstep
  | closing h => exact of_some hstep (.joining h)
  | joining h =>
    simp [stage1Step] at hstep
    subst hstep
    by_cases huser : config.newUser = true
    · simp only [huser, if_true]
      exact .unsharing huser h
    · have hlog : mappedLog config = [] := by
        simp [mappedLog, huser]
      simp only [huser]
      exact hlog ▸ .unsharingRest h
  | unsharing huser h => exact of_some hstep (.dumping huser h)
  | dumping huser h => exact of_some hstep (.userAsking huser h)
  | userAsking huser h =>
    exact of_some ((stage1Write_eq h.running _ _).symm.trans hstep) (.userAsked huser h)
  | userAsked huser h => simp [stage1Step, stage1Expect, State.child1Open, h.running] at hstep
  | userServed huser h => simp [stage1Step, stage1Expect, State.child1Open, h.running] at hstep
  | userAcked huser =>
    simp [stage1Step, stage1Expect] at hstep
    subst hstep
    exact .userDone huser
  | userDone huser => exact of_some hstep (.rooting huser)
  | rooting huser => exact of_some hstep (.unsharingRest .readSync)
  | unsharingRest h =>
    simp only [stage1Step, Option.some.injEq] at hstep
    subst hstep
    by_cases htime : config.timensoffset.isSome = true
    · simp only [htime, if_true]
      exact .timeAsking htime h
    · have hlog : mappedLog config = offsetLog config := by
        simp [offsetLog, htime]
      simp only [htime]
      exact hlog ▸ .spawning h
  | timeAsking htime h =>
    exact of_some ((stage1Write_eq h.running _ _).symm.trans hstep) (.timeAsked htime h)
  | timeAsked htime h => simp [stage1Step, stage1Expect, State.child1Open, h.running] at hstep
  | timeServed htime h => simp [stage1Step, stage1Expect, State.child1Open, h.running] at hstep
  | timeAcked htime =>
    simp [stage1Step, stage1Expect] at hstep
    subst hstep
    exact .spawning .readSync
  | spawning h => exact of_some hstep (.pidAsking h)
  | pidAsking h => exact of_some ((stage1Write_eq h.running _ _).symm.trans hstep) (.pidAsked h)
  | pidAsked h => exact of_some ((stage1Write_eq h.running _ _).symm.trans hstep) (.pidSent h)
  | pidAwaited =>
    simp [stage1Step, stage1Write, State.child1Open, Stage0.running] at hstep
    subst hstep
    exact .pidQueued
  | pidSent h => simp [stage1Step, stage1Expect, State.child1Open, h.running] at hstep
  | pidQueued => simp [stage1Step, stage1Expect, State.child1Open, Stage0.running] at hstep
  | pidRead => simp [stage1Step, stage1Expect, State.child1Open, Stage0.running] at hstep
  | pidAcked h =>
    simp [stage1Step, stage1Expect] at hstep
    subst hstep
    exact .finishing h
  | finishing h => exact of_some ((stage1Write_eq h.running _ _).symm.trans hstep) (.finished h)
  | finished h => simp [stage1Step] at hstep
  | released h => simp [stage1Step] at hstep

theorem ChildInv.not_bailed :
    (∀ sync, s.stage0 ≠ .unexpectedSync sync) ∧ s.stage0 ≠ .iobail ∧
      (∀ sync, s.stage1 ≠ .unexpectedSync sync) ∧ s.stage1 ≠ .iobail := by
  obtain ⟨pc0, pc1, pc2, c2p, p2c, g2p, p2g, dump, log⟩ := s
  cases hinv with
  | start | pidAwaited | pidQueued | pidRead => simp
  | userAcked | userDone | rooting | timeAcked => simp
  | closing h | joining h | unsharing _ h | dumping _ h | userAsking _ h
  | userAsked _ h | userServed _ h | unsharingRest h | timeAsking _ h
  | timeAsked _ h | timeServed _ h | spawning h | pidAsking h | pidAsked h
  | pidSent h | pidAcked h | finishing h | finished h | released h => cases h <;> simp

theorem ChildInv.stage1_of_stage0 :
    (s.stage0 = .spawnStage1 → s.stage1 = .notSpawned) ∧
      (s.stage0 = .writeGrandchild → s.stage1 = .exited) := by
  obtain ⟨pc0, pc1, pc2, c2p, p2c, g2p, p2g, dump, log⟩ := s
  cases hinv with
  | start | pidAwaited | pidQueued | pidRead => simp
  | userAcked | userDone | rooting | timeAcked => simp
  | closing h | joining h | unsharing _ h | dumping _ h | userAsking _ h
  | userAsked _ h | userServed _ h | unsharingRest h | timeAsking _ h
  | timeAsked _ h | timeServed _ h | spawning h | pidAsking h | pidAsked h
  | pidSent h | pidAcked h | finishing h | finished h | released h => cases h <;> simp

theorem stage0Step_grand_frame
    (hwrite : s.stage0 ≠ .writeGrandchild) (hread : s.stage0 ≠ .readFinish)
    (hstep : stage0Step config s = some s') :
    s'.stage2 = s.stage2 ∧
      s'.grandchildToParent = s.grandchildToParent ∧
      s'.parentToGrandchild = s.parentToGrandchild ∧
      s'.stage1.spawned = s.stage1.spawned ∧
      s'.stage0 ≠ .readFinish ∧ s'.stage0 ≠ .exited := by
  cases hpc : s.stage0 with
  | spawnStage1 =>
    have hpc1 := hinv.stage1_of_stage0.1 hpc
    simp [stage0Step, hpc] at hstep
    subst hstep
    simp [State.go0, State.go1, Stage1.spawned, hpc1]
  | readSync =>
    simp only [stage0Step, hpc] at hstep
    rcases recv_eq_some hstep with ⟨sync, rest, _, rfl⟩ | ⟨_, _, rfl⟩
    · unfold dispatchSync
      split_ifs <;> simp [State.go0, State.note]
    · simp [State.go0]
  | readPid =>
    simp only [stage0Step, hpc] at hstep
    rcases recv_eq_some hstep with ⟨pid, rest, _, rfl⟩ | ⟨_, _, rfl⟩
    · simp [State.go0]
    · simp [State.go0]
  | writeUsermapAck | writeRecvpidAck _ | writeTimeoffsetsAck =>
    simp only [stage0Step, hpc] at hstep
    rcases send_eq_some hstep with rfl | rfl
    · simp [State.go0]
    · simp [State.go0]
  | closeChild0 | updateSetgroups | updateUidmap | updateGidmap
  | writePidJson _ | updateTimensOffsets | closeGrandchild0 =>
    simp only [stage0Step, hpc, Option.some.injEq] at hstep
    subst hstep
    simp [State.go0, State.note]
  | writeGrandchild => exact absurd hpc hwrite
  | readFinish => exact absurd hpc hread
  | exited | unexpectedSync _ | iobail => simp [stage0Step, hpc] at hstep

end

theorem stage1Step_grand_frame (hinv' : ChildInv config s')
    (hspawn : s.stage1 ≠ .spawnStage2) (hstep : stage1Step config s = some s') :
    s'.stage2 = s.stage2 ∧
      s'.grandchildToParent = s.grandchildToParent ∧
      s'.parentToGrandchild = s.parentToGrandchild ∧
      s'.stage0 = s.stage0 ∧
      s'.stage1.spawned = s.stage1.spawned := by
  have hok := hinv'.not_bailed.2.2
  cases hpc : s.stage1 with
  | closeChild1 | unshareUser | becomeRoot | setDumpable | resetDumpable =>
    simp only [stage1Step, hpc, Option.some.injEq] at hstep
    subst hstep
    simp [State.go1, Stage1.spawned]
  | joinNamespaces | unshareRest =>
    simp only [stage1Step, hpc, Option.some.injEq] at hstep
    subst hstep
    simp only [State.go1]
    split_ifs <;> simp [Stage1.spawned]
  | writeUsermapPls | writeTimeoffsetsPls | writeRecvpidPls | writePid
  | writeChildFinish =>
    simp only [stage1Step, hpc] at hstep
    rcases send_eq_some hstep with rfl | rfl
    · simp [State.go1, Stage1.spawned]
    · simp [State.go1] at hok
  | readUsermapAck | readTimeoffsetsAck | readRecvpidAck =>
    simp only [stage1Step, hpc] at hstep
    rcases recv_eq_some hstep with ⟨got, rest, _, rfl⟩ | ⟨_, _, rfl⟩
    · simp only at hok ⊢
      split_ifs at hok ⊢
      · simp [State.go1, Stage1.spawned]
      · simp [State.go1] at hok
    · simp [State.go1] at hok
  | spawnStage2 => exact absurd hpc hspawn
  | notSpawned | exited | unexpectedSync _ | iobail => simp [stage1Step, hpc] at hstep

theorem stage2Step_child_frame (hstep : stage2Step s = some s') :
    s'.stage0 = s.stage0 ∧ s'.stage1 = s.stage1 ∧
      s'.childToParent = s.childToParent ∧
      s'.parentToChild = s.parentToChild ∧ s'.log = s.log := by
  cases hpc : s.stage2 with
  | closeGrandchild1 | closeChild0 | setIds | closeGrandchild0 =>
    simp only [stage2Step, hpc, Option.some.injEq] at hstep
    subst hstep
    simp [State.go2]
  | readGrandchild =>
    simp only [stage2Step, hpc] at hstep
    rcases recv_eq_some hstep with ⟨got, rest, _, rfl⟩ | ⟨_, _, rfl⟩
    · split_ifs <;> simp [State.go2]
    · simp [State.go2]
  | writeChildFinish =>
    simp only [stage2Step, hpc] at hstep
    rcases send_eq_some hstep with rfl | rfl
    · simp [State.go2]
    · simp [State.go2]
  | notSpawned | returned | unexpectedSync _ | iobail => simp [stage2Step, hpc] at hstep

theorem ChildInv.stage2_step (hinv : ChildInv config s) (hstep : stage2Step s = some s') :
    ChildInv config s' := by
  obtain ⟨h0, h1, hc, hp, hlog⟩ := stage2Step_child_frame hstep
  rw [ChildInv, h0, h1, hc, hp, hlog]
  exact hinv

theorem Starting.running {pc : Stage2} (h : Starting pc) : pc.running = true := by
  cases h <;> rfl

theorem Working.running {pc : Stage2} (h : Working pc) : pc.running = true := by
  cases h <;> rfl

theorem Stage0.running_of_beforeRelease {pc : Stage0} (h : pc.beforeRelease = true) :
    pc.running = true := by
  cases pc <;> simp_all [Stage0.beforeRelease, Stage0.running]

theorem GrandInv.write_open (hchild : ChildInv config s)
    (hinv : GrandInv s) (hpc : s.stage0 = .writeGrandchild) : s.grandchild0Open = true := by
  have hpc1 := hchild.stage1_of_stage0.2 hpc
  obtain ⟨pc0, pc1, pc2, c2p, p2c, g2p, p2g, dump, log⟩ := s
  cases hinv with
  | unborn h0 h1 =>
    rw [hpc1] at h1
    cases h1
  | starting h0 h1 h => simp [State.grandchild0Open, h.running]
  | released | working | reported | handedOver => cases hpc

theorem GrandInv.read_ready (hinv : GrandInv s) (hpc : s.stage0 = .readFinish) :
    s.grandchildToParent = [syncChildFinish] ∨
      (s.grandchildToParent = [] ∧ s.grandchild0Open = true) := by
  obtain ⟨pc0, pc1, pc2, c2p, p2c, g2p, p2g, dump, log⟩ := s
  cases hinv with
  | unborn h0 | starting h0 =>
    rw [hpc] at h0
    cases h0
  | released _ h => exact .inr ⟨rfl, by simp [State.grandchild0Open, h.running]⟩
  | working _ h => exact .inr ⟨rfl, by simp [State.grandchild0Open, h.running]⟩
  | reported => exact .inl rfl
  | handedOver => cases hpc

theorem GrandInv.stage0_step (hchild : ChildInv config s)
    (hchild' : ChildInv config s') (hinv : GrandInv s) (hstep : stage0Step config s = some s') :
    GrandInv s' := by
  by_cases hwrite : s.stage0 = .writeGrandchild
  · have hopen := hinv.write_open hchild hwrite
    have hpc1 := hchild.stage1_of_stage0.2 hwrite
    simp only [stage0Step, hwrite, hopen, send_open, Option.some.injEq] at hstep
    subst hstep
    obtain ⟨pc0, pc1, pc2, c2p, p2c, g2p, p2g, dump, log⟩ := s
    subst hwrite hpc1
    cases hinv with
    | unborn _ h1 => cases h1
    | starting _ h1 h => exact .released h1 h
  · by_cases hread : s.stage0 = .readFinish
    · have hready := hinv.read_ready hread
      obtain ⟨pc0, pc1, pc2, c2p, p2c, g2p, p2g, dump, log⟩ := s
      subst hread
      cases hinv with
      | unborn h0 | starting h0 => cases h0
      | released h1 h | working h1 h => simp [stage0Step, State.grandchild0Open, h.running] at hstep
      | reported h1 h => exact of_some hstep (.handedOver h1 h)
    · obtain ⟨h2, hg, hp, hsp, hr, he⟩ := stage0Step_grand_frame hchild hwrite hread hstep
      have hok := hchild'.not_bailed
      have hbefore : s'.stage0.beforeRelease = true := by
        cases hpc : s'.stage0 <;> simp_all [Stage0.beforeRelease]
      rw [GrandInv, h2, hg, hp]
      obtain ⟨pc0, pc1, pc2, c2p, p2c, g2p, p2g, dump, log⟩ := s
      cases hinv with
      | unborn _ h1 => exact .unborn hbefore (hsp.trans h1)
      | starting _ h1 h => exact .starting hbefore (hsp.trans h1) h
      | released | working | reported => exact absurd rfl hread
      | handedOver => simp [stage0Step] at hstep

theorem GrandInv.stage1_step (hchild' : ChildInv config s')
    (hinv : GrandInv s) (hstep : stage1Step config s = some s') : GrandInv s' := by
  by_cases hspawn : s.stage1 = .spawnStage2
  · simp only [stage1Step, hspawn, Option.some.injEq] at hstep
    subst hstep
    obtain ⟨pc0, pc1, pc2, c2p, p2c, g2p, p2g, dump, log⟩ := s
    subst hspawn
    cases hinv with
    | unborn h0 _ => exact .starting h0 rfl .closeGrandchild1
    | starting _ h1 | released h1 | working h1 | reported h1 | handedOver h1 => cases h1
  · obtain ⟨h2, hg, hp, h0, hsp⟩ := stage1Step_grand_frame hchild' hspawn hstep
    rw [GrandInv, h2, hg, hp, h0]
    obtain ⟨pc0, pc1, pc2, c2p, p2c, g2p, p2g, dump, log⟩ := s
    cases hinv with
    | unborn hb h1 => exact .unborn hb (hsp.trans h1)
    | starting hb h1 h => exact .starting hb (hsp.trans h1) h
    | released h1 h => exact .released (hsp.trans h1) h
    | working h1 h => exact .working (hsp.trans h1) h
    | reported h1 h => exact .reported (hsp.trans h1) h
    | handedOver h1 h => exact .handedOver (hsp.trans h1) h

theorem GrandInv.stage2_step (hinv : GrandInv s) (hstep : stage2Step s = some s') :
    GrandInv s' := by
  obtain ⟨pc0, pc1, pc2, c2p, p2c, g2p, p2g, dump, log⟩ := s
  cases hinv with
  | unborn => simp [stage2Step] at hstep
  | starting h0 h1 h =>
    have halive := Stage0.running_of_beforeRelease h0
    cases h with
    | closeGrandchild1 => exact of_some hstep (.starting h0 h1 .closeChild0)
    | closeChild0 => exact of_some hstep (.starting h0 h1 .readGrandchild)
    | readGrandchild => simp [stage2Step, State.grandchild1Open, halive] at hstep
  | released h1 h =>
    cases h with
    | closeGrandchild1 => exact of_some hstep (.released h1 .closeChild0)
    | closeChild0 => exact of_some hstep (.released h1 .readGrandchild)
    | readGrandchild => exact of_some hstep (.working h1 .setIds)
  | working h1 h =>
    cases h with
    | setIds => exact of_some hstep (.working h1 .writeChildFinish)
    | writeChildFinish =>
      simp [stage2Step, State.grandchild1Open, Stage0.running] at hstep
      subst hstep
      exact .reported h1 .closeGrandchild0
  | reported h1 h =>
    cases h with
    | closeGrandchild0 => exact of_some hstep (.reported h1 .returned)
    | returned => simp [stage2Step] at hstep
  | handedOver h1 h =>
    cases h with
    | closeGrandchild0 => exact of_some hstep (.handedOver h1 .returned)
    | returned => simp [stage2Step] at hstep

structure Handshake (config : Config) (s : State) : Prop where
  child : ChildInv config s
  grand : GrandInv s

theorem Handshake.step {config : Config} {s s' : State} (hinv : Handshake config s)
    (hstep : Step config s s') : Handshake config s' := by
  cases hstep with
  | stage0 h =>
    have hchild' := hinv.child.stage0_step (hinv.grand.write_open hinv.child)
        hinv.grand.read_ready h
    exact ⟨hchild', hinv.grand.stage0_step hinv.child hchild' h⟩
  | stage1 h =>
    have hchild' := hinv.child.stage1_step h
    exact ⟨hchild', hinv.grand.stage1_step hchild' h⟩
  | stage2 h => exact ⟨hinv.child.stage2_step h, hinv.grand.stage2_step h⟩

theorem handshake_phases (h : (handshake config).Reachable s) : Handshake config s := by
  refine h.invariant ?_ ?_
  · rintro s rfl
    exact ⟨.start, .unborn rfl rfl⟩
  · intro s s' _ hinv hstep
    exact hinv.step hstep

end Runc.Nsexec
