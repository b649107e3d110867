import Runc.Lib.Fair
import Runc.Lib.Fifo
import Runc.Libcontainer.State
import Mathlib.Data.Fintype.Basic

/-!
# Starting a created container

Any number of `Exec` calls wait on the exec fifo of one created container while init
opens the fifo, writes a byte to it, closes it and goes on. Calls on one container
object exclude each other.
-/

namespace Runc.ExecFifo

open Lib (Fifo Machine)
open Libcontainer (Err)

inductive InitPhase
  | starting
  | opening (seen : Nat)
  | opened
  | written
  | running
  | failed
deriving DecidableEq

/-- How far a call is: before `c.m.Lock()`, before the open, in the open, in
`io.ReadAll`, before `os.Remove`, or back, with an error or without. -/
inductive CallPhase
  | waiting
  | locked
  | opening (seen : Nat)
  | reading (data : List Char)
  | removing
  | returned (err : Option Err)

def CallPhase.holdsLock : CallPhase → Bool
  | .waiting => false
  | .returned _ => false
  | _ => true

structure State (n : Nat) where
  linked : Bool
  fifo : Fifo Char
  init : InitPhase
  calls : Fin n → CallPhase

variable {n : Nat}

def State.setCall (s : State n) (i : Fin n) (phase : CallPhase) : State n :=
  { s with calls := Function.update s.calls i phase }

def created (n : Nat) : State n where
  linked := true
  fifo := {}
  init := .starting
  calls := fun _ => .waiting

def stepInit (s : State n) : Option (State n) :=
  match s.init with
  | .starting =>
      some { s with
        fifo := s.fifo.openWrite
        init :=
          match s.fifo.writerWaits with
          | some seen => .opening seen
          | none => .opened }
  | .opening seen =>
      if s.fifo.rCounter = seen then none else some { s with init := .opened }
  | .opened =>
      match s.fifo.write ['0'] with
      | some fifo => some { s with fifo := fifo, init := .written }
      | none => some { s with init := .failed }
  | .written => some { s with fifo := s.fifo.closeWrite, init := .running }
  | .running => none
  | .failed => none

def readFromExecFifo (data : List Char) : Option Err :=
  if data.length ≤ 0 then some (.system "cannot start an already running container")
  else none

def fifoMissing : Err :=
  .wrapped "exec fifo" (.system "no such file or directory")

def stepCall (owner : Fin n → Nat) (i : Fin n) (s : State n) : Option (State n) :=
  match s.calls i with
  | .waiting =>
      if ∀ j, j ≠ i → owner j = owner i → (s.calls j).holdsLock = false then
        some (s.setCall i .locked)
      else none
  | .locked =>
      if s.linked then
        some { s.setCall i
            (match s.fifo.readerWaits with
              | some seen => .opening seen
              | none => .reading []) with
          fifo := s.fifo.openRead }
      else
        some (s.setCall i (.returned (some fifoMissing)))
  | .opening seen =>
      if s.fifo.wCounter = seen then none else some (s.setCall i (.reading []))
  | .reading data =>
      match s.fifo.read with
      | .blocks => none
      | .data xs => some { s.setCall i (.reading (data ++ xs)) with fifo := s.fifo.drained }
      | .eof =>
          match readFromExecFifo data with
          | some err =>
              some { s.setCall i (.returned (some err)) with fifo := s.fifo.closeRead }
          | none => some (s.setCall i .removing)
  -- that the fifo is gone already is not an error
  | .removing =>
      some { s.setCall i (.returned none) with
        linked := false
        fifo := s.fifo.closeRead }
  | .returned _ => none

def poll (i : Fin n) (s : State n) : Option (State n) :=
  match s.calls i, s.init with
  | .opening _, .failed => none
  | .opening _, _ => some s
  | _, _ => none

inductive Event (n : Nat)
  | init
  | call (i : Fin n)
  | poll (i : Fin n)

def machine (owner : Fin n → Nat) : Machine (State n) (Event n) where
  step s
    | .init => stepInit s
    | .call i => stepCall owner i s
    | .poll i => poll i s

structure Scheduled {owner : Fin n → Nat} (run : Lib.Run (machine owner) (created n)) :
    Prop where
  init : run.Fair fun e => e = .init
  call : ∀ i, run.Fair fun e => e = .call i

end Runc.ExecFifo
