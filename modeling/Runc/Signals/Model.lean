import Runc.Lib.Fair

/-!
# Waiting for the main process

`runner.run` from the start of the container's process on: the goroutine of
`newSignalHandler`, and `forward` with the wait on the notify socket, the signal loop
and `reap`. Beside them are the children of runc, the kernel that delivers signals, and
whoever writes to the notify socket.
-/

namespace Runc.Signals

open Lib (Machine Run)

inductive WaitStatus
  | exited (code : Nat)
  | signaled (sig : Nat)
deriving DecidableEq

def exitStatus : WaitStatus → Nat
  | .exited code => code
  | .signaled sig => 128 + sig

inductive Main
  | absent
  | alive
  | ended (ws : WaitStatus)
deriving DecidableEq

inductive Signal
  | sigchld
  | sigwinch
  | sigurg
  | other (number : Nat)
deriving DecidableEq

structure Exit where
  pid : Nat
  status : Nat
deriving DecidableEq

inductive Phase
  | starting
  | awaiting
  | notifying
  | looping
  | reaping (exits : List Exit)
  | returned (status : Nat)

structure Handler where
  pid1 : Nat
  detach : Bool := false
  notifySocket : Bool := false
  bound : Bool := true
  dialled : Bool := true
  /-- `/proc/<pid>` is there for the process that `notifySocket.run` is given: runc
  itself, or its child that nobody waits for meanwhile -/
  procVisible : Bool := true

structure State where
  registered : Bool
  main : Main
  zombies : List (Nat × WaitStatus)
  pending : List Signal
  signals : List Signal
  inbox : List (List Char)
  /-- a line is ready on `fileChan` -/
  ready : Bool
  phase : Phase

def initial : State where
  registered := false
  main := .absent
  zombies := []
  pending := []
  signals := []
  inbox := []
  ready := false
  phase := .starting

def State.raise (s : State) (sig : Signal) : State :=
  { s with pending := if sig ∈ s.pending then s.pending else s.pending ++ [sig] }

def State.childEnds (s : State) (pid : Nat) (ws : WaitStatus) : State :=
  { s with zombies := s.zombies ++ [(pid, ws)] }.raise .sigchld

def deliver (sig : Signal) (s : State) : Option State :=
  if sig ∈ s.pending then
    some { s with
      pending := s.pending.erase sig
      signals := if s.registered then s.signals ++ [sig] else s.signals }
  else none

def isReady (datagram : List Char) : Bool :=
  "READY=".toList.isPrefixOf datagram

def readSocket (s : State) : Option State :=
  match s.phase, s.ready, s.inbox with
  | .notifying, false, datagram :: inbox =>
      some { s with inbox := inbox, ready := isReady datagram }
  | _, _, _ => none

def Handler.afterNotify (h : Handler) : Phase :=
  if h.detach then .returned 0 else .looping

def tick (h : Handler) (s : State) : Option State :=
  match s.phase with
  | .notifying => some (if h.procVisible then s else { s with phase := h.afterNotify })
  | _ => none

/-- `notifySocket.run` waits. -/
def Handler.waits (h : Handler) : Bool :=
  h.notifySocket && h.bound && h.dialled

def Handler.enter (h : Handler) : Phase :=
  if h.detach && !h.notifySocket then .returned 0
  else if h.waits then .notifying
  else if h.notifySocket then h.afterNotify
  else .looping

def proceed (h : Handler) (s : State) : Option State :=
  match s.phase with
  | .starting => if s.main = .absent then none else some { s with phase := .awaiting }
  | .awaiting => if s.registered then some { s with phase := h.enter } else none
  | .notifying => if s.ready then some { s with phase := h.afterNotify } else none
  | .looping =>
      match s.signals with
      | [] => none
      | sig :: signals =>
          some { s with
            signals := signals
            phase := if sig = .sigchld then .reaping [] else .looping }
  | .reaping _ => none
  | .returned _ => none

def Handler.handle (h : Handler) (exits : List Exit) : Phase :=
  match exits.find? fun e => e.pid = h.pid1 with
  | some e => .returned e.status
  | none => .looping

def wait4 (h : Handler) (k : Nat) (s : State) : Option State :=
  match s.phase with
  | .reaping exits =>
      if s.zombies = [] then some { s with phase := h.handle exits }
      else
        match s.zombies[k]? with
        | none => none
        | some (pid, ws) =>
            some { s with
              zombies := s.zombies.eraseIdx k
              phase := .reaping (exits ++ [⟨pid, exitStatus ws⟩]) }
  | _ => none

inductive Event
  | register
  | start
  | mainEnds (ws : WaitStatus)
  | childEnds (pid : Nat) (ws : WaitStatus)
  | signal (sig : Signal)
  | deliver (sig : Signal)
  | message (datagram : List Char)
  | readSocket
  | tick
  | proceed
  | wait4 (k : Nat)

def machine (h : Handler) : Machine State Event where
  step s
    | .register => if s.registered then none else some { s with registered := true }
    | .start => if s.main = .absent then some { s with main := .alive } else none
    | .mainEnds ws =>
        if s.main = .alive then some ({ s with main := .ended ws }.childEnds h.pid1 ws)
        else none
    | .childEnds pid ws => if pid = h.pid1 then none else some (s.childEnds pid ws)
    | .signal sig =>
        if sig = .sigchld || s.registered then some (s.raise sig) else none
    | .deliver sig => deliver sig s
    | .message datagram => some { s with inbox := s.inbox ++ [datagram] }
    | .readSocket => readSocket s
    | .tick => tick h s
    | .proceed => proceed h s
    | .wait4 k => wait4 h k s

def Event.isThread : Event → Prop
  | .proceed => True
  | .wait4 _ => True
  | _ => False

structure Scheduled {h : Handler} (run : Run (machine h) initial) : Prop where
  thread : run.Fair Event.isThread
  reader : run.Fair fun e => e = .readSocket
  ticker : h.procVisible = false → run.Fair fun e => e = .tick
  kernel : run.Fair fun e => e = .deliver .sigchld

end Runc.Signals
