import Runc.Nsexec.Phases

/-!
# The nsexec handshake is safe and never gets stuck

What the two tables of phases say about every interleaving of the three stages.
-/

namespace Runc.Nsexec

open Lib

def Stage1.pastUsermap : Stage1 → Bool
  | .resetDumpable | .becomeRoot => true
  | .unshareRest | .writeTimeoffsetsPls | .readTimeoffsetsAck => true
  | .spawnStage2 | .writeRecvpidPls | .writePid | .readRecvpidAck => true
  | .writeChildFinish | .exited => true
  | _ => false

def Stage1.pastTimeoffsets : Stage1 → Bool
  | .spawnStage2 | .writeRecvpidPls | .writePid | .readRecvpidAck => true
  | .writeChildFinish | .exited => true
  | _ => false

def pidJsonCount (log : List Event) : Nat :=
  log.countP fun
    | .pidJson _ _ => true
    | _ => false

def Event.writesFile : Event → Bool
  | .setgroups _ | .uidMap _ _ | .gidMap _ _ | .timensOffsets _ _ => true
  | _ => false

section Log

variable {config : Config}

theorem mem_updateMap {map : Option (List UInt8)} {event : List UInt8 → Event} {e : Event} :
    e ∈ updateMap map event ↔
      ∃ bytes, map = some bytes ∧ bytes ≠ [] ∧ e = event bytes := by
  unfold updateMap
  split <;> simp

theorem uidMap_mem (huser : config.newUser = true) {map : List UInt8}
    (hmap : config.uidmap = some map) (hne : map ≠ []) :
    .uidMap config.stage1Pid map ∈ mappedLog config := by
  have hmem : Event.uidMap config.stage1Pid map ∈
        updateMap config.uidmap (.uidMap config.stage1Pid) :=
    mem_updateMap.mpr ⟨map, hmap, hne, rfl⟩
  simp [mappedLog, huser, mapEvents, hmem]

theorem gidMap_mem (huser : config.newUser = true) {map : List UInt8}
    (hmap : config.gidmap = some map) (hne : map ≠ []) :
    .gidMap config.stage1Pid map ∈ mappedLog config := by
  have hmem : Event.gidMap config.stage1Pid map ∈
        updateMap config.gidmap (.gidMap config.stage1Pid) :=
    mem_updateMap.mpr ⟨map, hmap, hne, rfl⟩
  simp [mappedLog, huser, mapEvents, hmem]

theorem timensOffsets_mem {offsets : List UInt8} (hoffsets : config.timensoffset = some offsets)
    (hne : offsets ≠ []) : .timensOffsets config.stage1Pid offsets ∈ offsetLog config := by
  have hmem : Event.timensOffsets config.stage1Pid offsets ∈ timeEvents config :=
    mem_updateMap.mpr ⟨offsets, hoffsets, hne, rfl⟩
  simp [offsetLog, hoffsets, hmem]

theorem offsetLog_files {e : Event} (he : e ∈ offsetLog config) : e.writesFile = true := by
  simp only [offsetLog, List.mem_append] at he
  rcases he with he | he
  · unfold mappedLog at he
    split_ifs at he
    · simp only [mapEvents, List.mem_append, mem_updateMap] at he
      rcases he with (he | ⟨_, _, _, rfl⟩) | ⟨_, _, _, rfl⟩
      · unfold setgroupsEvents at he
        split_ifs at he
        · rw [List.mem_singleton.mp he]
          rfl
        · cases he
      · rfl
      · rfl
    · cases he
  · split_ifs at he
    · obtain ⟨_, _, _, rfl⟩ := mem_updateMap.mp he
      rfl
    · cases he

theorem pidJsonCount_exitLog (config : Config) : pidJsonCount (exitLog config) = 1 := by
  have hfiles : pidJsonCount (offsetLog config) = 0 := by
    rw [pidJsonCount, List.countP_eq_zero]
    intro e he
    have hfile := offsetLog_files he
    cases e <;> simp_all [Event.writesFile]
  unfold pidJsonCount at hfiles ⊢
  simp [exitLog, releaseLog, finishLog, jsonLog, hfiles]

theorem exitLog_split {pre post : List Event}
    (h : exitLog config = pre ++ .grandchildSent :: post) : pre = finishLog config := by
  have hnot : Event.grandchildSent ∉ finishLog config := by
    intro hmem
    simp only [finishLog, jsonLog, List.mem_append, List.mem_singleton,
      reduceCtorEq, or_false] at hmem
    simpa [Event.writesFile] using offsetLog_files hmem
  have hsplit : finishLog config ++ .grandchildSent :: [.stage2Finish] =
        pre ++ .grandchildSent :: post := by
    rw [← h]
    simp [exitLog, releaseLog]
  exact ((List.append_cons_inj_of_notMem hnot (by simp)).mp hsplit).1.symm

end Log

section Tables

variable {config : Config} {s : State}

theorem mappedLog_le : mappedLog config <+: exitLog config := by
  simp [exitLog, releaseLog, finishLog, jsonLog, offsetLog]

theorem offsetLog_le : offsetLog config <+: exitLog config := by
  simp [exitLog, releaseLog, finishLog, jsonLog]

theorem ChildInv.log_le (hinv : ChildInv config s) : s.log <+: exitLog config := by
  obtain ⟨pc0, pc1, pc2, c2p, p2c, g2p, p2g, dump, log⟩ := s
  simp only [ChildInv] at hinv ⊢
  cases hinv with
  | start | closing | joining | unsharing | dumping | userAsking | userAsked =>
    exact ⟨exitLog config, rfl⟩
  | userServed huser h =>
    refine List.IsPrefix.trans ?_ mappedLog_le
    cases h <;> simp [mappedLog, huser, mapEvents]
  | userAcked | userDone | rooting | unsharingRest | timeAsking | timeAsked => exact mappedLog_le
  | timeServed htime h =>
    cases h with
    | offsets => exact mappedLog_le
    | ack =>
      refine List.IsPrefix.trans ?_ offsetLog_le
      simp [offsetLog, htime]
  | timeAcked | spawning | pidAsking | pidAsked | pidAwaited | pidSent
  | pidQueued | pidRead => exact offsetLog_le
  | pidAcked h | finishing h | finished h =>
    cases h with
    | json => exact offsetLog_le
    | readSync => simp [exitLog, releaseLog, finishLog]
  | released h => cases h <;> simp [exitLog, releaseLog]

theorem ChildInv.mapped (hinv : ChildInv config s) (hpast : s.stage1.pastUsermap = true) :
    mappedLog config ⊆ s.log := by
  have hoffset : mappedLog config ⊆ offsetLog config := by
    simp [offsetLog]
  obtain ⟨pc0, pc1, pc2, c2p, p2c, g2p, p2g, dump, log⟩ := s
  simp only [ChildInv] at hinv hpast ⊢
  cases hinv with
  | start | closing | joining | unsharing | dumping | userAsking | userAsked
  | userServed | userAcked => cases hpast
  | userDone | rooting | unsharingRest | timeAsking | timeAsked => exact List.Subset.refl _
  | timeServed _ h => cases h <;> simp
  | timeAcked | spawning | pidAsking | pidAsked | pidAwaited | pidSent
  | pidQueued | pidRead => exact hoffset
  | pidAcked h | finishing h | finished h =>
    refine List.Subset.trans hoffset ?_
    cases h <;> simp [jsonLog]
  | released h =>
    refine List.Subset.trans hoffset ?_
    cases h <;> simp [finishLog, jsonLog, releaseLog, exitLog]

theorem ChildInv.offset (hinv : ChildInv config s) (hpast : s.stage1.pastTimeoffsets = true) :
    offsetLog config ⊆ s.log := by
  obtain ⟨pc0, pc1, pc2, c2p, p2c, g2p, p2g, dump, log⟩ := s
  simp only [ChildInv] at hinv hpast ⊢
  cases hinv with
  | start | closing | joining | unsharing | dumping | userAsking | userAsked
  | userServed | userAcked | userDone | rooting | unsharingRest | timeAsking
  | timeAsked | timeServed | timeAcked => cases hpast
  | spawning | pidAsking | pidAsked | pidAwaited | pidSent
  | pidQueued | pidRead => exact List.Subset.refl _
  | pidAcked h | finishing h | finished h => cases h <;> simp [jsonLog]
  | released h => cases h <;> simp [finishLog, jsonLog, releaseLog, exitLog]

theorem ChildInv.exited (hinv : ChildInv config s) (hpc : s.stage0 = .exited) :
    s.stage1 = .exited ∧ s.log = exitLog config := by
  obtain ⟨pc0, pc1, pc2, c2p, p2c, g2p, p2g, dump, log⟩ := s
  simp only [ChildInv] at hinv hpc ⊢
  subst hpc
  cases hinv with
  | released h =>
    cases h
    simp
  | userServed _ h | timeServed _ h | pidAcked h | finishing h | finished h => cases h
  | closing h | joining h | unsharing _ h | dumping _ h | userAsking _ h
  | userAsked _ h | unsharingRest h | timeAsking _ h | timeAsked _ h
  | spawning h | pidAsking h | pidAsked h | pidSent h => cases h

theorem GrandInv.not_bailed (hinv : GrandInv s) :
    (∀ sync, s.stage2 ≠ .unexpectedSync sync) ∧ s.stage2 ≠ .iobail := by
  obtain ⟨pc0, pc1, pc2, c2p, p2c, g2p, p2g, dump, log⟩ := s
  cases hinv with
  | unborn => simp
  | starting _ _ h | released _ h | working _ h | reported _ h | handedOver _ h => cases h <;> simp

theorem Waiting.can_step (hwait : Waiting s.stage0) {sync : Word} {rest : List Word}
    (hqueue : s.childToParent = sync :: rest) : ∃ s', Step config s s' := by
  cases hpc : s.stage0 with
  | closeChild0 => exact ⟨_, .stage0 (by simp only [stage0Step, hpc]; rfl)⟩
  | readSync =>
    exact ⟨_, .stage0 (by
      simp only [stage0Step, hpc, hqueue, recv_cons]; rfl)⟩
  | _ =>
    rw [hpc] at hwait
    cases hwait

theorem GrandInv.can_step (config : Config) (hinv : GrandInv s)
    (hpc : s.stage0 = .readFinish ∨ s.stage0 = .exited)
    (hnot : s.stage0 = .exited → s.stage2.running = true) : ∃ s', Step config s s' := by
  obtain ⟨pc0, pc1, pc2, c2p, p2c, g2p, p2g, dump, log⟩ := s
  cases hinv with
  | unborn h0 _ | starting h0 _ _ =>
    rcases hpc with rfl | rfl
    · cases h0
    · cases h0
  | released _ h | working _ h => cases h <;> exact ⟨_, .stage2 rfl⟩
  | reported _ _ => exact ⟨_, .stage0 rfl⟩
  | handedOver _ h =>
    cases h with
    | closeGrandchild0 => exact ⟨_, .stage2 rfl⟩
    | returned => cases hnot rfl

theorem Handshake.can_step (hinv : Handshake config s) (hfinal : ¬ s.Final) :
    ∃ s', Step config s s' := by
  have hgrand := hinv.grand.can_step config
  obtain ⟨pc0, pc1, pc2, c2p, p2c, g2p, p2g, dump, log⟩ := s
  have hchild := hinv.child
  simp only [ChildInv] at hchild
  cases hchild with
  | start => exact ⟨_, .stage0 rfl⟩
  | closing | joining | unsharing | dumping | userAsking => exact ⟨_, .stage1 rfl⟩
  | userAsked _ h | timeAsked _ h | pidSent h => exact h.can_step rfl
  | userServed _ h | timeServed _ h => cases h <;> exact ⟨_, .stage0 rfl⟩
  | userAcked | userDone | rooting | unsharingRest | timeAsking => exact ⟨_, .stage1 rfl⟩
  | timeAcked | spawning | pidAsking | pidAsked | pidAwaited => exact ⟨_, .stage1 rfl⟩
  | pidQueued | pidRead => exact ⟨_, .stage0 rfl⟩
  | pidAcked | finishing => exact ⟨_, .stage1 rfl⟩
  | finished h => cases h <;> exact ⟨_, .stage0 rfl⟩
  | released h =>
    cases h with
    | close | write => exact ⟨_, .stage0 rfl⟩
    | read => exact hgrand (.inl rfl) (by simp)
    | exited =>
      refine hgrand (.inr rfl) (fun _ => ?_)
      by_contra hdone
      exact hfinal ⟨rfl, rfl, by simpa using hdone⟩

end Tables

/-- The handshake. -/
theorem handshake_safe (config : Config) (s : State) (h : (handshake config).Reachable s) :
    (∀ sync, s.stage0 ≠ .unexpectedSync sync ∧
      s.stage1 ≠ .unexpectedSync sync ∧ s.stage2 ≠ .unexpectedSync sync) ∧
    (¬ s.Final → ∃ s', Step config s s') ∧
    pidJsonCount s.log ≤ 1 ∧
    (s.Final → pidJsonCount s.log = 1) ∧
    (∀ pre post, s.log = pre ++ .grandchildSent :: post →
      .pidJson config.stage1Pid config.stage2Pid ∈ pre) ∧
    (config.newUser = true → s.stage1.pastUsermap = true →
      (∀ map, config.uidmap = some map → map ≠ [] →
        .uidMap config.stage1Pid map ∈ s.log) ∧
      (∀ map, config.gidmap = some map → map ≠ [] →
        .gidMap config.stage1Pid map ∈ s.log)) ∧
    (s.stage1.pastTimeoffsets = true →
      ∀ offsets, config.timensoffset = some offsets → offsets ≠ [] →
        .timensOffsets config.stage1Pid offsets ∈ s.log) ∧
    (s.stage0 = .exited → .stage1Finish ∈ s.log ∧ .stage2Finish ∈ s.log) := by
  have hinv := handshake_phases h
  have hle := hinv.child.log_le
  refine ⟨?_, hinv.can_step, ?_, ?_, ?_, ?_, ?_, ?_⟩
  · intro sync
    obtain ⟨h0, -, h1, -⟩ := hinv.child.not_bailed
    exact ⟨h0 sync, h1 sync, hinv.grand.not_bailed.1 sync⟩
  · rw [← pidJsonCount_exitLog config]
    exact hle.sublist.countP_le
  · intro hfinal
    have hpc : s.stage0 = .exited := by
      obtain ⟨hok, hok', -⟩ := hinv.child.not_bailed
      have hdone := hfinal.1
      cases hpc : s.stage0 <;> simp_all [Stage0.running]
    rw [(hinv.child.exited hpc).2, pidJsonCount_exitLog]
  · intro pre post hlog
    obtain ⟨rest, hrest⟩ := hle
    rw [hlog, List.append_assoc, List.cons_append] at hrest
    rw [exitLog_split hrest.symm]
    simp [finishLog, jsonLog]
  · intro huser hpast
    have hmapped := hinv.child.mapped hpast
    exact ⟨fun map hmap hne => hmapped (uidMap_mem huser hmap hne),
      fun map hmap hne => hmapped (gidMap_mem huser hmap hne)⟩
  · intro hpast offsets hoffsets hne
    exact hinv.child.offset hpast (timensOffsets_mem hoffsets hne)
  · intro hpc
    rw [(hinv.child.exited hpc).2]
    simp [exitLog, releaseLog, finishLog]

/-- A rootless container with a user namespace, a namespace to join and time
offsets, whose stage-2 pid looks like a `SYNC_CHILD_FINISH`. -/
def rootlessConfig : Config where
  cloneflags := cloneNewuser
  uidmap := some [0x30]
  gidmap := some [0x30]
  namespaces := [⟨"net", "/run/netns/a"⟩]
  isSetgroup := false
  isRootlessEuid := true
  timensoffset := some [0x31]
  stage1Pid := 41
  stage2Pid := 0x45

def rootlessSchedule : List StageId :=
  [.parent, .child, .child, .child, .child, .child, .parent, .parent,
    .parent, .parent, .parent, .parent, .child, .child, .child, .child,
    .child, .parent, .parent, .parent, .child, .child, .init, .init, .child,
    .child, .parent, .parent, .parent, .child, .child, .parent, .parent,
    .parent, .parent, .init, .init, .init, .init, .parent]

theorem handshake_safe_rootless :
    ∃ s,
      runSchedule rootlessConfig rootlessSchedule
        (State.init rootlessConfig) = some s ∧
      s.Final ∧ pidJsonCount s.log = 1 := by
  refine ⟨_, rfl, ⟨rfl, rfl, rfl⟩, ?_⟩
  have hsafe := handshake_safe rootlessConfig _
      (@runSchedule_reachable rootlessConfig rootlessSchedule _ _ (.of_init rfl) rfl)
  exact hsafe.2.2.2.1 ⟨rfl, rfl, rfl⟩

theorem Handshake.ended (hinv : Handshake config s) (hfinal : s.Final) :
    s.stage0 = .exited ∧ s.stage2 = .returned ∧ s.grandchildToParent = [] ∧
      s.parentToGrandchild = [] := by
  obtain ⟨hsync, hio, -⟩ := hinv.child.not_bailed
  have hpc : s.stage0 = .exited := by
    cases hpc : s.stage0 <;> simp_all [State.Final, Stage0.running]
  have hgrand := hinv.grand
  have hdone := hfinal.2.2
  rw [GrandInv, hpc] at hgrand
  generalize s.stage2 = pc2 at hgrand hdone ⊢
  generalize s.grandchildToParent = g2p, s.parentToGrandchild = p2g at hgrand ⊢
  cases hgrand with
  | unborn h0 | starting h0 => cases h0
  | handedOver _ h =>
    cases h with
    | closeGrandchild0 => cases hdone
    | returned => exact ⟨hpc, rfl, rfl, rfl⟩

/-- Whatever the interleaving, a handshake that has ended has ended the same way. -/
theorem handshake_confluent (config : Config) (s s' : State)
    (h : (handshake config).Reachable s) (h' : (handshake config).Reachable s')
    (hfinal : s.Final) (hfinal' : s'.Final) :
    s.stage0 = .exited ∧ s.stage1 = .exited ∧ s.stage2 = .returned ∧
      s.grandchildToParent = [] ∧ s.parentToGrandchild = [] ∧ s.log = s'.log := by
  have hinv := handshake_phases h
  have hinv' := handshake_phases h'
  obtain ⟨hpc, hpc2, hg2p, hp2g⟩ := hinv.ended hfinal
  obtain ⟨hpc1, hlog⟩ := hinv.child.exited hpc
  rw [hlog, (hinv'.child.exited (hinv'.ended hfinal').1).2]
  exact ⟨hpc, hpc1, hpc2, hg2p, hp2g, rfl⟩

/-- Stage 2 runs on before stage 0 has read what it sent, and after. -/
theorem handshake_confluent_rootless :
    ∃ s s', runSchedule rootlessConfig rootlessSchedule (State.init rootlessConfig) = some s ∧
      runSchedule rootlessConfig (rootlessSchedule.take 38 ++ [.parent, .init])
        (State.init rootlessConfig) = some s' ∧ s.log = s'.log := by
  refine ⟨_, _, rfl, rfl, ?_⟩
  exact (handshake_confluent rootlessConfig _ _
    (@runSchedule_reachable rootlessConfig rootlessSchedule _ _ (.of_init rfl) rfl)
    (@runSchedule_reachable rootlessConfig (rootlessSchedule.take 38 ++ [.parent, .init])
      _ _ (.of_init rfl) rfl)
    ⟨rfl, rfl, rfl⟩ ⟨rfl, rfl, rfl⟩).2.2.2.2.2

end Runc.Nsexec
