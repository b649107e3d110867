import Runc.Lib.Socket
import Runc.Lib.Transition

/-!
# The three stages of nsexec

`nsexec` runs as three processes.  Stage 0 starts stage 1, serves its requests
over one socket pair and then releases stage 2 over another one.  Stage 1 joins
and unshares namespaces, asks stage 0 for the id maps and the time offsets, and
starts stage 2.  Stage 2 returns to the Go runtime.

Each stage is a program counter and a step function; a step is one system call
that another stage can see, or a run of calls that none can see.  What is sent
is a word of four bytes: a `sync_t` value or a pid.

No system call fails here, apart from the two ways in which one stage observes
the death of another: the end of a stream and a write without a reader.
-/

namespace Runc.Nsexec

open Lib

def Word := UInt32
deriving DecidableEq

instance (n : Nat) : OfNat Word n :=
  inferInstanceAs (OfNat UInt32 n)

def syncUsermapPls : Word := 0x40

def syncUsermapAck : Word := 0x41

def syncRecvpidPls : Word := 0x42

def syncRecvpidAck : Word := 0x43

def syncGrandchild : Word := 0x44

def syncChildFinish : Word := 0x45

/-- Request parent to write timens offsets. -/
def syncTimeoffsetsPls : Word := 0x46

def syncTimeoffsetsAck : Word := 0x47

def cloneNewuser : UInt32 := 0x10000000

structure Namespace where
  type : String
  path : String
deriving DecidableEq

structure Config where
  cloneflags : UInt32
  uidmap : Option (List UInt8)
  gidmap : Option (List UInt8)
  namespaces : List Namespace
  isSetgroup : Bool
  isRootlessEuid : Bool
  timensoffset : Option (List UInt8)
  stage1Pid : Word
  stage2Pid : Word

def Config.newUser (config : Config) : Bool :=
  config.cloneflags &&& cloneNewuser != 0

inductive Event where
  | setgroups (pid : Word)
  | uidMap (pid : Word) (map : List UInt8)
  | gidMap (pid : Word) (map : List UInt8)
  | timensOffsets (pid : Word) (map : List UInt8)
  | pidJson (stage1Pid stage2Pid : Word)
  | grandchildSent
  | stage1Finish
  | stage2Finish
deriving DecidableEq

inductive Stage0 where
  | spawnStage1
  | closeChild0
  | readSync
  | updateSetgroups
  | updateUidmap
  | updateGidmap
  | writeUsermapAck
  | readPid
  | writeRecvpidAck (stage2Pid : Word)
  | writePidJson (stage2Pid : Word)
  | updateTimensOffsets
  | writeTimeoffsetsAck
  | closeGrandchild0
  | writeGrandchild
  | readFinish
  | exited
  | unexpectedSync (s : Word)
  | iobail
deriving DecidableEq

inductive Stage1 where
  | notSpawned
  | closeChild1
  | joinNamespaces
  | unshareUser
  | setDumpable
  | writeUsermapPls
  | readUsermapAck
  | resetDumpable
  | becomeRoot
  | unshareRest
  | writeTimeoffsetsPls
  | readTimeoffsetsAck
  | spawnStage2
  | writeRecvpidPls
  | writePid
  | readRecvpidAck
  | writeChildFinish
  | exited
  | unexpectedSync (s : Word)
  | iobail
deriving DecidableEq

inductive Stage2 where
  | notSpawned
  | closeGrandchild1
  | closeChild0
  | readGrandchild
  | setIds
  | writeChildFinish
  | closeGrandchild0
  | returned
  | unexpectedSync (s : Word)
  | iobail
deriving DecidableEq

def Stage0.running : Stage0 → Bool
  | .exited | .unexpectedSync _ | .iobail => false
  | _ => true

def Stage1.running : Stage1 → Bool
  | .notSpawned | .exited | .unexpectedSync _ | .iobail => false
  | _ => true

def Stage2.running : Stage2 → Bool
  | .notSpawned | .returned | .unexpectedSync _ | .iobail => false
  | _ => true

structure State where
  stage0 : Stage0
  stage1 : Stage1
  stage2 : Stage2
  childToParent : List Word
  parentToChild : List Word
  grandchildToParent : List Word
  parentToGrandchild : List Word
  dumpable : Bool
  log : List Event

namespace State

def child0Open (s : State) : Bool :=
  s.stage0 == .spawnStage1 || s.stage0 == .closeChild0 || s.stage1.running ||
    s.stage2 == .closeGrandchild1 || s.stage2 == .closeChild0

def child1Open (s : State) : Bool :=
  s.stage0.running || s.stage1 == .closeChild1

def stage0HoldsGrandchild0 (s : State) : Bool :=
  s.stage0.running && s.stage0 != .writeGrandchild && s.stage0 != .readFinish

def grandchild0Open (s : State) : Bool :=
  s.stage0HoldsGrandchild0 || s.stage1.running || s.stage2.running

def grandchild1Open (s : State) : Bool :=
  s.stage0.running || s.stage1.running || s.stage2 == .closeGrandchild1

def go0 (s : State) (pc : Stage0) : State :=
  { s with stage0 := pc }

def go1 (s : State) (pc : Stage1) : State :=
  { s with stage1 := pc }

def go2 (s : State) (pc : Stage2) : State :=
  { s with stage2 := pc }

def note (s : State) (events : List Event) : State :=
  { s with log := s.log ++ events }

end State

def updateMap (map : Option (List UInt8)) (event : List UInt8 → Event) : List Event :=
  match map with
  | none => []
  | some [] => []
  | some (byte :: bytes) => [event (byte :: bytes)]

def dispatchSync (sync : Word) (s : State) : State :=
  if sync = syncUsermapPls then
    s.go0 .updateSetgroups
  else if sync = syncRecvpidPls then
    s.go0 .readPid
  else if sync = syncTimeoffsetsPls then
    s.go0 .updateTimensOffsets
  else if sync = syncChildFinish then
    (s.go0 .closeGrandchild0).note [.stage1Finish]
  else
    s.go0 (.unexpectedSync sync)

def stage0Step (config : Config) (s : State) : Option State :=
  match s.stage0 with
  | .spawnStage1 =>
      some ((s.go0 .closeChild0).go1 .closeChild1)
  | .closeChild0 =>
      some (s.go0 .readSync)
  | .readSync =>
      recv s.childToParent s.child0Open (s.go0 .iobail)
        (fun sync rest => dispatchSync sync { s with childToParent := rest })
  | .updateSetgroups =>
      -- single-entry mappings of a rootless container
      some ((s.go0 .updateUidmap).note
        (if config.isRootlessEuid && !config.isSetgroup then
          [.setgroups config.stage1Pid]
        else
          []))
  | .updateUidmap =>
      some ((s.go0 .updateGidmap).note
        (updateMap config.uidmap (.uidMap config.stage1Pid)))
  | .updateGidmap =>
      some ((s.go0 .writeUsermapAck).note
        (updateMap config.gidmap (.gidMap config.stage1Pid)))
  | .writeUsermapAck =>
      send s.child0Open (s.go0 .iobail)
        { s.go0 .readSync with
          parentToChild := s.parentToChild ++ [syncUsermapAck] }
  | .readPid =>
      recv s.childToParent s.child0Open (s.go0 .iobail)
        (fun pid rest =>
          { s.go0 (.writeRecvpidAck pid) with childToParent := rest })
  | .writeRecvpidAck stage2Pid =>
      send s.child0Open (s.go0 .iobail)
        { s.go0 (.writePidJson stage2Pid) with
          parentToChild := s.parentToChild ++ [syncRecvpidAck] }
  | .writePidJson stage2Pid =>
      some ((s.go0 .readSync).note [.pidJson config.stage1Pid stage2Pid])
  | .updateTimensOffsets =>
      some ((s.go0 .writeTimeoffsetsAck).note
        (updateMap config.timensoffset (.timensOffsets config.stage1Pid)))
  | .writeTimeoffsetsAck =>
      send s.child0Open (s.go0 .iobail)
        { s.go0 .readSync with
          parentToChild := s.parentToChild ++ [syncTimeoffsetsAck] }
  | .closeGrandchild0 =>
      some (s.go0 .writeGrandchild)
  | .writeGrandchild =>
      send s.grandchild0Open (s.go0 .iobail)
        ({ s.go0 .readFinish with
          parentToGrandchild := s.parentToGrandchild ++ [syncGrandchild] }.note
            [.grandchildSent])
  | .readFinish =>
      recv s.grandchildToParent s.grandchild0Open (s.go0 .iobail)
        (fun sync rest =>
          let s := { s with grandchildToParent := rest }
          if sync = syncChildFinish then
            (s.go0 .exited).note [.stage2Finish]
          else
            s.go0 (.unexpectedSync sync))
  | .exited | .unexpectedSync _ | .iobail =>
      none

def stage1Expect (s : State) (sync : Word) (next : Stage1) : Option State :=
  recv s.parentToChild s.child1Open (s.go1 .iobail)
    (fun got rest =>
      let s := { s with parentToChild := rest }
      if got = sync then s.go1 next else s.go1 (.unexpectedSync got))

def stage1Write (s : State) (word : Word) (next : Stage1) : Option State :=
  send s.child1Open (s.go1 .iobail)
    { s.go1 next with childToParent := s.childToParent ++ [word] }

def stage1Step (config : Config) (s : State) : Option State :=
  match s.stage1 with
  | .notSpawned =>
      none
  | .closeChild1 =>
      some (s.go1 .joinNamespaces)
  | .joinNamespaces =>
      some (s.go1 (if config.newUser then .unshareUser else .unshareRest))
  | .unshareUser =>
      some (s.go1 .setDumpable)
  | .setDumpable =>
      -- only a process that joins namespaces was made non-dumpable
      some { s.go1 .writeUsermapPls with
        dumpable := if config.namespaces.isEmpty then s.dumpable else true }
  | .writeUsermapPls =>
      stage1Write s syncUsermapPls .readUsermapAck
  | .readUsermapAck =>
      stage1Expect s syncUsermapAck .resetDumpable
  | .resetDumpable =>
      some { s.go1 .becomeRoot with
        dumpable := if config.namespaces.isEmpty then s.dumpable else false }
  | .becomeRoot =>
      some (s.go1 .unshareRest)
  | .unshareRest =>
      some (s.go1 (if config.timensoffset.isSome then .writeTimeoffsetsPls
        else .spawnStage2))
  | .writeTimeoffsetsPls =>
      stage1Write s syncTimeoffsetsPls .readTimeoffsetsAck
  | .readTimeoffsetsAck =>
      stage1Expect s syncTimeoffsetsAck .spawnStage2
  | .spawnStage2 =>
      some ((s.go1 .writeRecvpidPls).go2 .closeGrandchild1)
  | .writeRecvpidPls =>
      stage1Write s syncRecvpidPls .writePid
  | .writePid =>
      stage1Write s config.stage2Pid .readRecvpidAck
  | .readRecvpidAck =>
      stage1Expect s syncRecvpidAck .writeChildFinish
  | .writeChildFinish =>
      stage1Write s syncChildFinish .exited
  | .exited | .unexpectedSync _ | .iobail =>
      none

def stage2Step (s : State) : Option State :=
  match s.stage2 with
  | .notSpawned =>
      none
  | .closeGrandchild1 =>
      some (s.go2 .closeChild0)
  | .closeChild0 =>
      some (s.go2 .readGrandchild)
  | .readGrandchild =>
      recv s.parentToGrandchild s.grandchild1Open (s.go2 .iobail)
        (fun got rest =>
          let s := { s with parentToGrandchild := rest }
          if got = syncGrandchild then s.go2 .setIds
          else s.go2 (.unexpectedSync got))
  | .setIds =>
      -- setsid, setuid, setgid and, unless forbidden, setgroups
      some (s.go2 .writeChildFinish)
  | .writeChildFinish =>
      send s.grandchild1Open (s.go2 .iobail)
        { s.go2 .closeGrandchild0 with
          grandchildToParent := s.grandchildToParent ++ [syncChildFinish] }
  | .closeGrandchild0 =>
      some (s.go2 .returned)
  | .returned | .unexpectedSync _ | .iobail =>
      none

def State.init (config : Config) : State where
  stage0 := .spawnStage1
  stage1 := .notSpawned
  stage2 := .notSpawned
  childToParent := []
  parentToChild := []
  grandchildToParent := []
  parentToGrandchild := []
  dumpable := config.namespaces.isEmpty
  log := []

inductive Step (config : Config) (s s' : State) : Prop where
  | stage0 (h : stage0Step config s = some s')
  | stage1 (h : stage1Step config s = some s')
  | stage2 (h : stage2Step s = some s')

inductive StageId where
  | parent
  | child
  | init

def runSchedule (config : Config) : List StageId → State → Option State
  | [], s => some s
  | .parent :: rest, s => (stage0Step config s).bind (runSchedule config rest)
  | .child :: rest, s => (stage1Step config s).bind (runSchedule config rest)
  | .init :: rest, s => (stage2Step s).bind (runSchedule config rest)

def handshake (config : Config) : System State where
  init s := s = State.init config
  step := Step config

theorem runSchedule_reachable {config : Config} {schedule : List StageId} {s s' : State}
    (hs : (handshake config).Reachable s) (hrun : runSchedule config schedule s = some s') :
    (handshake config).Reachable s' := by
  induction schedule generalizing s with
  | nil =>
    cases hrun
    exact hs
  | cons stage rest ih =>
    cases stage with
    | parent =>
      obtain ⟨s₁, hstep, hrest⟩ := Option.bind_eq_some_iff.mp hrun
      exact ih (hs.tail (.stage0 hstep)) hrest
    | child =>
      obtain ⟨s₁, hstep, hrest⟩ := Option.bind_eq_some_iff.mp hrun
      exact ih (hs.tail (.stage1 hstep)) hrest
    | init =>
      obtain ⟨s₁, hstep, hrest⟩ := Option.bind_eq_some_iff.mp hrun
      exact ih (hs.tail (.stage2 hstep)) hrest

def State.Final (s : State) : Prop :=
  s.stage0.running = false ∧ s.stage1.running = false ∧
    s.stage2.running = false

end Runc.Nsexec
