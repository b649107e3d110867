import Runc.Lib.Socket
import Runc.Lib.Transition

/-!
# Synchronisation of runc init with its parent

`linuxStandardInit.Init` (the child) and `initProcess.start` (the parent) talk
over a sequenced-packet socket.

Every operation outside of the protocol may fail at any time, and either
process may be killed.  An `Outcome` says how the operations of one step end,
so a step is a function of the state and of an outcome.
-/

namespace Runc.Init

open Lib

inductive SyncType where
  | procError
  | procReady
  | procRun
  | procHooks
  | procHooksDone
  | procMountPlease
  | procMountFd
  | procSeccomp
  | procSeccompDone
deriving DecidableEq, Repr

/-- `configs.Mount`, as far as the request for its source reads it. -/
structure Mount where
  source : String
  isIDMapped : Bool
  isBind : Bool
  sourceVisible : Bool
deriving DecidableEq

inductive SyncArg where
  | mount (m : Mount)
  | mountSource (m : Mount)
  | fd (fd : Int)
  | initError (message : String)
deriving DecidableEq

/-- `hasFd` is the flag, `file` the name of the attached file. -/
structure SyncT where
  type : SyncType
  hasFd : Bool
  arg : Option SyncArg
  file : Option String
deriving DecidableEq

def SyncT.plain (type : SyncType) : SyncT :=
  ⟨type, false, none, none⟩

def SyncT.withArg (type : SyncType) (arg : SyncArg) : SyncT :=
  ⟨type, false, some arg, none⟩

inductive SyncError where
  | initError (message : String)
  | procErrorMissingPayload
  | unmarshal
  | receivingFd (type : SyncType)
  | unexpectedFlag (got expected : SyncType)
  | unexpectedArg (expected : SyncType)
  | unexpectedFile (expected : SyncType)
  | missingFile
  | wrongFile (name : String)
  | missingArg (type : SyncType)
deriving DecidableEq

def doReadSync (sync : SyncT) : Except SyncError SyncT :=
  if sync.type = .procError then
    match sync.arg with
    | none => .error .procErrorMissingPayload
    | some (.initError message) => .error (.initError message)
    | some _ => .error .unmarshal
  else if sync.hasFd && sync.file.isNone then
    .error (.receivingFd sync.type)
  else
    .ok sync

def readSyncFull (expected : SyncType) (sync : SyncT) :
    Except SyncError SyncT := do
  let sync ← doReadSync sync
  if sync.type ≠ expected then
    .error (.unexpectedFlag sync.type expected)
  else
    .ok sync

def readSync (expected : SyncType) (sync : SyncT) :
    Except SyncError Unit := do
  let sync ← readSyncFull expected sync
  if sync.arg.isSome then
    .error (.unexpectedArg expected)
  else if sync.file.isSome then
    .error (.unexpectedFile sync.type)
  else
    .ok ()

inductive HookName where
  | prestart
  | createRuntime
  | createContainer
deriving DecidableEq

abbrev HookId := HookName × Nat

structure Config where
  mounts : List Mount
  rootlessEUID : Bool
  prestart : Nat
  createRuntime : Nat
  createContainer : Nat
  startContainer : Nat
  noNewPrivileges : Bool
  seccomp : Option String
  initPid : Nat
  initStartTime : UInt64

def Config.specState (config : Config) : Bool :=
  config.createContainer != 0 || config.startContainer != 0

def hookIds (name : HookName) (count : Nat) : List HookId :=
  (List.range count).map (fun i => (name, i))

def Config.runtimeHooks (config : Config) : List HookId :=
  hookIds .prestart config.prestart ++
    hookIds .createRuntime config.createRuntime

def wantSourceFile (config : Config) (m : Mount) : Bool :=
  m.isIDMapped || (m.isBind && !config.rootlessEUID && !m.sourceVisible)

inductive ChildOp where
  | work
  | mountPlease (m : Mount)
  | hooks
  | createContainerHook (i : Nat)
  | ready
  | initSeccomp
  | seccomp (fd : Int)
  | closePipe
deriving DecidableEq

def mountOps (config : Config) : List ChildOp :=
  config.mounts.flatMap (fun m =>
    if wantSourceFile config m then [.mountPlease m, .work] else [.work])

/-- `Hooks.Run(CreateContainer, s)` of the child. -/
def createContainerOps (config : Config) : List ChildOp :=
  if config.specState then
    (List.range config.createContainer).map .createContainerHook
  else
    []

/-- `prepareRootfs` up to and with the runtime hooks. -/
def beforeHooksOps (config : Config) : List ChildOp :=
  [.work] ++ mountOps config ++ [.work]

/-- `linuxStandardInit.Init` after the runtime hooks. -/
def afterHooksOps (config : Config) : List ChildOp :=
  [.work] ++ createContainerOps config ++ [.work, .ready, .work] ++
    (if config.seccomp.isSome && !config.noNewPrivileges then
      [.initSeccomp]
    else
      []) ++
    [.work] ++
    (if config.seccomp.isSome && config.noNewPrivileges then
      [.initSeccomp]
    else
      []) ++
    [.closePipe]

/-- `linuxStandardInit.Init`. -/
def initOps (config : Config) : List ChildOp :=
  beforeHooksOps config ++ .hooks :: afterHooksOps config

def request : ChildOp → Option SyncT
  | .mountPlease m => some (.withArg .procMountPlease (.mount m))
  | .hooks => some (.plain .procHooks)
  | .ready => some (.plain .procReady)
  | .seccomp fd => some (.withArg .procSeccomp (.fd fd))
  | _ => none

def replyType : SyncType → SyncType
  | .procMountPlease => .procMountFd
  | .procHooks => .procHooksDone
  | .procReady => .procRun
  | .procSeccomp => .procSeccompDone
  | type => type

def acceptReply (op : ChildOp) (sync : SyncT) : Except SyncError Unit :=
  match op with
  | .mountPlease m => do
      let sync ← readSyncFull .procMountFd sync
      match sync.file with
      | none => .error .missingFile
      | some name =>
          if name ≠ m.source then
            .error (.wrongFile name)
          else
            match sync.arg with
            | none => .error (.missingArg sync.type)
            | some (.mountSource _) => .ok ()
            | some _ => .error .unmarshal
  | .hooks => readSync .procHooksDone sync
  | .ready => readSync .procRun sync
  | .seccomp _ => readSync .procSeccompDone sync
  | _ => .ok ()

inductive Child where
  | running (ops : List ChildOp)
  | awaiting (op : ChildOp) (ops : List ChildOp)
  | failing
  | closed
  | exited
deriving DecidableEq

inductive Parent where
  | reading
  | mountRequest (m : Mount)
  | writeMountFd (m : Mount)
  | getSeccompFd
  | writeSeccompDone
  | sendSeccompState
  | setupRlimits
  | updateState
  | writeRun
  | setCgroups
  | runHooks (todo : List HookId)
  | writeHooksDone
  /-- `parseSync` has returned, with an error or without -/
  | shutdown (ierr : Bool)
  | returned (ok : Bool)
  | dead
deriving DecidableEq

structure StateJson where
  initProcessPid : Nat
  initProcessStartTime : UInt64
deriving DecidableEq

inductive Event where
  | childSent (type : SyncType)
  | childGot (type reply : SyncType)
  | childPassed (type : SyncType)
  | childReported
  | createContainerHook (i : Nat)
  | parentReceived (type : SyncType)
  | parentSent (type : SyncType)
  | parentFailed
  | hookOk (hook : HookId)
  | statRead (startTime : Option UInt64)
  | saved (state : StateJson)
deriving DecidableEq

structure State where
  child : Child
  parent : Parent
  childToParent : List SyncT
  parentToChild : List SyncT
  seenProcReady : Bool
  log : List Event

structure Outcome where
  ok : Bool
  packetSent : Bool
  /-- what `InitSeccomp` returns -/
  fd : Int
  statOk : Bool
  message : String

namespace State

def childOpen (s : State) : Bool :=
  match s.child with
  | .running _ | .awaiting _ _ | .failing => true
  | .closed | .exited => false

def parentOpen (s : State) : Bool :=
  match s.parent with
  | .returned _ | .dead => false
  | _ => true

def goChild (s : State) (child : Child) (events : List Event) : State :=
  { s with child := child, log := s.log ++ events }

def goParent (s : State) (parent : Parent) (events : List Event) : State :=
  { s with parent := parent, log := s.log ++ events }

def parentFail (s : State) : State :=
  s.goParent (.shutdown true) [.parentFailed]

def parentSend (s : State) (sync : SyncT) (parent : Parent) : State :=
  { s.goParent parent [.parentSent sync.type] with
    parentToChild := s.parentToChild ++ [sync] }

end State

def childStep (o : Outcome) (s : State) : Option State :=
  match s.child with
  | .running (.work :: ops) =>
      some (if o.ok then s.goChild (.running ops) [] else s.goChild .failing [])
  | .running (.createContainerHook i :: ops) =>
      some (s.goChild (if o.ok then .running ops else .failing)
        [.createContainerHook i])
  | .running (.initSeccomp :: ops) =>
      some (if o.ok then
        -- without a listener there is no file descriptor to hand over
        s.goChild (.running (if o.fd = -1 then ops else .seccomp o.fd :: ops)) []
      else
        s.goChild .failing [])
  | .running (.closePipe :: _) =>
      some (s.goChild .closed [])
  | .running (op :: ops) =>
      match request op with
      | none => none
      | some sync =>
          some (if o.ok then
            { s.goChild (.awaiting op ops) [.childSent sync.type] with
              childToParent := s.childToParent ++ [sync] }
          else
            s.goChild .failing [])
  | .running [] => none
  | .awaiting op ops =>
      if o.ok then
        recv s.parentToChild s.parentOpen (s.goChild .failing [])
          (fun sync rest =>
            let s := { s with parentToChild := rest }
            match request op with
            | none => s
            | some asked =>
                match acceptReply op sync with
                | .ok () =>
                    s.goChild (.running ops)
                      [.childGot asked.type sync.type, .childPassed asked.type]
                | .error _ =>
                    s.goChild .failing [.childGot asked.type sync.type])
      else
        some (s.goChild .failing [])
  | .failing =>
      some (if o.ok then
        { s.goChild .exited [.childReported] with
          childToParent := s.childToParent ++
            [.withArg .procError (.initError o.message)] }
      else
        s.goChild .exited [])
  | .closed | .exited => none

def dispatch (config : Config) (sync : SyncT) (s : State) : State :=
  let s := { s with log := s.log ++ [Event.parentReceived sync.type] }
  match doReadSync sync with
  | .error _ => s.parentFail
  | .ok sync =>
      match sync.type with
      | .procMountPlease =>
          -- a rootless parent has no mount source thread
          if config.rootlessEUID then
            s.parentFail
          else
            match sync.arg with
            | some (.mount m) => s.goParent (.mountRequest m) []
            | _ => s.parentFail
      | .procSeccomp =>
          match config.seccomp, sync.arg with
          | some listenerPath, some (.fd _) =>
              if listenerPath = "" then s.parentFail
              else s.goParent .getSeccompFd []
          | _, _ => s.parentFail
      | .procReady =>
          { s.goParent .setupRlimits [] with seenProcReady := true }
      | .procHooks => s.goParent .setCgroups []
      | _ => s.parentFail

def parentStep (config : Config) (o : Outcome) (s : State) : Option State :=
  match s.parent with
  | .reading =>
      if o.ok then
        recv s.childToParent s.childOpen (s.goParent (.shutdown false) [])
          (fun sync rest =>
            dispatch config sync { s with childToParent := rest })
      else
        some s.parentFail
  | .mountRequest m =>
      some (if o.ok then s.goParent (.writeMountFd m) [] else s.parentFail)
  | .writeMountFd m =>
      let reply : SyncT :=
        ⟨.procMountFd, true, some (.mountSource m), some m.source⟩
      some (if o.ok then
        s.parentSend reply .reading
      else if o.packetSent then
        (s.parentSend { reply with file := none } .reading).parentFail
      else
        s.parentFail)
  | .getSeccompFd =>
      some (if o.ok then s.goParent .writeSeccompDone [] else s.parentFail)
  | .writeSeccompDone =>
      some (if o.ok then
        s.parentSend (.plain .procSeccompDone) .sendSeccompState
      else
        s.parentFail)
  | .sendSeccompState =>
      some (if o.ok then s.goParent .reading [] else s.parentFail)
  | .setupRlimits =>
      some (if o.ok then s.goParent .updateState [] else s.parentFail)
  | .updateState =>
      -- a start time that cannot be read is saved as zero
      let startTime := if o.statOk then some config.initStartTime else none
      some (if o.ok then
        s.goParent .writeRun
          [.statRead startTime, .saved ⟨config.initPid, startTime.getD 0⟩]
      else
        s.parentFail)
  | .writeRun =>
      some (if o.ok then s.parentSend (.plain .procRun) .reading
        else s.parentFail)
  | .setCgroups =>
      some (if o.ok then s.goParent (.runHooks config.runtimeHooks) []
        else s.parentFail)
  | .runHooks [] =>
      some (s.goParent .writeHooksDone [])
  | .runHooks (hook :: todo) =>
      some (if o.ok then s.goParent (.runHooks todo) [.hookOk hook]
        else s.parentFail)
  | .writeHooksDone =>
      some (if o.ok then s.parentSend (.plain .procHooksDone) .reading
        else s.parentFail)
  | .shutdown ierr =>
      some (s.goParent (.returned (!ierr && o.ok && s.seenProcReady)) [])
  | .returned _ | .dead => none

def State.init (config : Config) : State where
  child := .running (initOps config)
  parent := .reading
  childToParent := []
  parentToChild := []
  seenProcReady := false
  log := []

inductive Step (config : Config) (s s' : State) : Prop where
  | child (o : Outcome) (h : childStep o s = some s')
  | parent (o : Outcome) (h : parentStep config o s = some s')
  | killChild (halive : s.childOpen = true) (h : s' = s.goChild .exited [])
  | killParent (halive : s.parentOpen = true) (h : s' = s.goParent .dead [])

inductive Move where
  | child (o : Outcome)
  | parent (o : Outcome)

def runMoves (config : Config) : List Move → State → Option State
  | [], s => some s
  | .child o :: rest, s => (childStep o s).bind (runMoves config rest)
  | .parent o :: rest, s =>
      (parentStep config o s).bind (runMoves config rest)

def initSync (config : Config) : System State where
  init s := s = State.init config
  step := Step config

theorem runMoves_reachable {config : Config} {moves : List Move} {s s' : State}
    (hs : (initSync config).Reachable s) (hrun : runMoves config moves s = some s') :
    (initSync config).Reachable s' := by
  induction moves generalizing s with
  | nil =>
    cases hrun
    exact hs
  | cons move rest ih =>
    cases move with
    | child o =>
      obtain ⟨s₁, hstep, hrest⟩ := Option.bind_eq_some_iff.mp hrun
      exact ih (hs.tail (.child o hstep)) hrest
    | parent o =>
      obtain ⟨s₁, hstep, hrest⟩ := Option.bind_eq_some_iff.mp hrun
      exact ih (hs.tail (.parent o hstep)) hrest

end Runc.Init
