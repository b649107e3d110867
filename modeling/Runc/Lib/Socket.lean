import Mathlib.Data.List.Basic

/-!
# Reading from and writing to a stream socket

One direction of a socket is a queue of items.  A read takes the first item,
blocks on an empty queue while somebody can still write to it, and sees the end
of the stream otherwise.  A write fails once nobody is left to read.
-/

namespace Runc.Lib

universe u v

variable {α : Type u} {σ : Type v}

def recv (queue : List α) (writerOpen : Bool) (eof : σ) (next : α → List α → σ) : Option σ :=
  match queue with
  | x :: rest => some (next x rest)
  | [] => if writerOpen then none else some eof

def send (readerOpen : Bool) (fail next : σ) : Option σ :=
  some (if readerOpen then next else fail)

@[simp] theorem recv_cons (x : α) (rest : List α) (writerOpen : Bool) (eof : σ)
    (next : α → List α → σ) :
    recv (x :: rest) writerOpen eof next = some (next x rest) :=
  rfl

@[simp] theorem recv_nil_open (eof : σ) (next : α → List α → σ) :
    recv [] true eof next = none :=
  rfl

@[simp] theorem recv_nil_closed (eof : σ) (next : α → List α → σ) :
    recv [] false eof next = some eof :=
  rfl

@[simp] theorem send_open (fail next : σ) :
    send true fail next = some next :=
  rfl

theorem recv_eq_some {queue : List α} {writerOpen : Bool} {eof s : σ} {next : α → List α → σ}
    (h : recv queue writerOpen eof next = some s) :
    (∃ x rest, queue = x :: rest ∧ s = next x rest) ∨
      (queue = [] ∧ writerOpen = false ∧ s = eof) := by
  cases queue with
  | nil =>
    cases writerOpen with
    | false => exact .inr ⟨rfl, rfl, (Option.some.inj h).symm⟩
    | true => cases h
  | cons x rest => exact .inl ⟨x, rest, rfl, (Option.some.inj h).symm⟩

theorem send_eq_some {readerOpen : Bool} {fail next s : σ}
    (h : send readerOpen fail next = some s) : s = next ∨ s = fail := by
  cases readerOpen with
  | false => exact .inr (Option.some.inj h).symm
  | true => exact .inl (Option.some.inj h).symm

end Runc.Lib
