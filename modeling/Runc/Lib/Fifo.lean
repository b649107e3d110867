import Mathlib.Logic.Basic

/-!
# Named pipes

A fifo as the Linux kernel keeps it. Opening one end counts at once, before the open
returns; a blocking open waits until the other end has been opened.
-/

namespace Runc.Lib

universe u

structure Fifo (α : Type u) where
  readers : Nat := 0
  writers : Nat := 0
  rCounter : Nat := 0
  wCounter : Nat := 0
  buffer : List α := []

namespace Fifo

inductive ReadResult (α : Type u)
  | blocks
  | eof
  | data (xs : List α)

variable {α : Type u}

def openRead (p : Fifo α) : Fifo α :=
  { p with readers := p.readers + 1, rCounter := p.rCounter + 1 }

def openWrite (p : Fifo α) : Fifo α :=
  { p with writers := p.writers + 1, wCounter := p.wCounter + 1 }

def readerWaits (p : Fifo α) : Option Nat :=
  if p.writers = 0 then some p.wCounter else none

def writerWaits (p : Fifo α) : Option Nat :=
  if p.readers = 0 then some p.rCounter else none

def read (p : Fifo α) : ReadResult α :=
  if p.buffer ≠ [] then .data p.buffer
  else if p.writers = 0 then .eof
  else .blocks

def drained (p : Fifo α) : Fifo α :=
  { p with buffer := [] }

def write (p : Fifo α) (xs : List α) : Option (Fifo α) :=
  if p.readers = 0 then none else some { p with buffer := p.buffer ++ xs }

def release (p : Fifo α) : Fifo α :=
  if p.readers = 0 ∧ p.writers = 0 then { p with buffer := [] } else p

def closeRead (p : Fifo α) : Fifo α :=
  release { p with readers := p.readers - 1 }

def closeWrite (p : Fifo α) : Fifo α :=
  release { p with writers := p.writers - 1 }

theorem closeRead_of_empty {p : Fifo α} (h : p.buffer = []) :
    p.closeRead = { p with readers := p.readers - 1 } := by
  unfold closeRead release
  split
  · simp only [h]
  · rfl

theorem closeWrite_of_readers {p : Fifo α} (h : 0 < p.readers) :
    p.closeWrite = { p with writers := p.writers - 1 } :=
  if_neg fun hnobody => Nat.ne_of_gt h hnobody.1

end Fifo

end Runc.Lib
