import Runc.Lib.Socket
import Runc.Lib.Transition

/-!
# Procedures that read from a channel

One side puts items on a channel and shuts it down after the last one. The other side
calls a procedure again and again that takes them, and waits when there is none yet.
-/

namespace Runc.Lib

universe u v

inductive Reading (π : Type u) (α : Type v)
  | done (a : α)
  | peek (next : Option π → Reading π α)
  | recv (next : Option π → Reading π α)

namespace Reading

variable {π : Type u} {α : Type v}

def run : Reading π α → List π → α × List π
  | .done a, items => (a, items)
  | .peek next, items => (next items.head?).run items
  | .recv next, items => (next items.head?).run items.tail

def calls (program : Reading π α) : Nat → List π → List α
  | 0, _ => []
  | n + 1, items => (program.run items).1 :: calls program n (program.run items).2

def resumed (program reader : Reading π α) : Nat → List π → List α
  | 0, _ => []
  | n + 1, items => (reader.run items).1 :: calls program n (reader.run items).2

theorem resumed_self (program : Reading π α) (n : Nat) (items : List π) :
    resumed program program n items = calls program n items := by
  cases n with
  | zero => rfl
  | succ n => rfl

theorem resumed_congr {program reader reader' : Reading π α} {items items' : List π}
    (h : reader.run items = reader'.run items') (n : Nat) :
    resumed program reader n items = resumed program reader' n items' := by
  cases n with
  | zero => rfl
  | succ n => rw [resumed, resumed, h]

theorem length_calls (program : Reading π α) (n : Nat) (items : List π) :
    (calls program n items).length = n := by
  induction n generalizing items with
  | zero => rfl
  | succ n ih => rw [calls, List.length_cons, ih]

theorem take_calls (program : Reading π α) {m n : Nat} (h : m ≤ n) (items : List π) :
    (calls program n items).take m = calls program m items := by
  induction m generalizing n items with
  | zero => rfl
  | succ m ih =>
    obtain ⟨k, rfl⟩ : ∃ k, n = k + 1 := ⟨n - 1, by omega⟩
    rw [calls, calls, List.take_succ_cons, ih (by omega)]

end Reading

structure Channel (π : Type u) (α : Type v) where
  unsent : List π
  closed : Bool
  queue : List π
  reader : Reading π α
  returned : List α

namespace Channel

variable {π : Type u} {α : Type v}

def put (s : Channel π α) : Option (Channel π α) :=
  match s.unsent with
  | [] => none
  | p :: rest => some { s with unsent := rest, queue := s.queue ++ [p] }

def shut (s : Channel π α) : Option (Channel π α) :=
  match s.unsent with
  | [] => some { s with closed := true }
  | _ :: _ => none

def read (program : Reading π α) (s : Channel π α) : Option (Channel π α) :=
  match s.reader with
  | .done a => some { s with reader := program, returned := s.returned ++ [a] }
  | .peek next =>
      Lib.recv s.queue (!s.closed) { s with reader := next none }
        fun p _ => { s with reader := next (some p) }
  | .recv next =>
      Lib.recv s.queue (!s.closed) { s with reader := next none }
        fun p rest => { s with reader := next (some p), queue := rest }

def system (program : Reading π α) (items : List π) : System (Channel π α) where
  init s := s = ⟨items, false, [], program, []⟩
  step s s' := s.put = some s' ∨ s.shut = some s' ∨ s.read program = some s'

def rest (s : Channel π α) : List π :=
  s.queue ++ s.unsent

structure Agrees (program : Reading π α) (items : List π) (s : Channel π α) : Prop where
  sent : s.closed = true → s.unsent = []
  answers : ∀ n, s.returned ++ program.resumed s.reader n s.rest =
    program.calls (s.returned.length + n) items

variable {program : Reading π α} {items : List π}

theorem agrees_init : Agrees program items ⟨items, false, [], program, []⟩ where
  sent h := nomatch h
  answers n := by
    change [] ++ program.resumed program n ([] ++ items) = program.calls (0 + n) items
    rw [List.nil_append, List.nil_append, Nat.zero_add, Reading.resumed_self]

variable {s s' : Channel π α}

section

variable (h : Agrees program items s)
include h

theorem Agrees.of_run
    (hsent : s'.closed = true → s'.unsent = []) (hreturned : s'.returned = s.returned)
    (hrun : s'.reader.run s'.rest = s.reader.run s.rest) : Agrees program items s' where
  sent := hsent
  answers n := by
    rw [hreturned, Reading.resumed_congr hrun, h.answers]

theorem agrees_put (hstep : s.put = some s') : Agrees program items s' := by
  unfold put at hstep
  cases hunsent : s.unsent with
  | nil =>
    rw [hunsent] at hstep
    cases hstep
  | cons p ps =>
    rw [hunsent] at hstep
    cases hstep
    refine h.of_run ?_ rfl ?_
    · intro hclosed
      rw [h.sent hclosed] at hunsent
      cases hunsent
    · change s.reader.run (s.queue ++ [p] ++ ps) = s.reader.run (s.queue ++ s.unsent)
      rw [hunsent, List.append_assoc, List.singleton_append]

theorem agrees_shut (hstep : s.shut = some s') : Agrees program items s' := by
  unfold shut at hstep
  cases hunsent : s.unsent with
  | nil =>
    rw [hunsent] at hstep
    cases hstep
    refine h.of_run (fun _ => rfl) rfl ?_
    rw [rest, rest, hunsent]
  | cons p ps =>
    rw [hunsent] at hstep
    cases hstep

theorem Agrees.at_end (hqueue : s.queue = []) (hclosed : (!s.closed) = false) {reader : Reading π α}
    (hrun : reader.run [] = s.reader.run []) :
    Agrees program items { s with reader := reader } := by
  have hrest : s.rest = [] := by
    rw [rest, hqueue, h.sent (by simpa using hclosed), List.append_nil]
  refine h.of_run h.sent rfl ?_
  change reader.run s.rest = s.reader.run s.rest
  rw [hrest, hrun]

theorem agrees_read (hstep : s.read program = some s') : Agrees program items s' := by
  unfold read at hstep
  cases hreader : s.reader with
  | done a =>
    rw [hreader] at hstep
    cases hstep
    refine ⟨h.sent, fun n => ?_⟩
    have hanswers := h.answers (n + 1)
    rw [hreader, Reading.resumed, Reading.run] at hanswers
    change s.returned ++ [a] ++ program.resumed program n s.rest =
      program.calls ((s.returned ++ [a]).length + n) items
    rw [Reading.resumed_self, List.append_assoc, List.singleton_append, List.length_append,
      List.length_singleton, Nat.add_assoc, Nat.add_comm 1 n]
    exact hanswers
  | peek next =>
    rw [hreader] at hstep
    obtain ⟨p, rest, hqueue, rfl⟩ | ⟨hqueue, hclosed, rfl⟩ := recv_eq_some hstep
    · refine h.of_run h.sent rfl ?_
      rw [hreader, Reading.run, Channel.rest, Channel.rest, hqueue]
      rfl
    · exact h.at_end hqueue hclosed (by rw [hreader]; rfl)
  | recv next =>
    rw [hreader] at hstep
    obtain ⟨p, rest, hqueue, rfl⟩ | ⟨hqueue, hclosed, rfl⟩ := recv_eq_some hstep
    · refine h.of_run h.sent rfl ?_
      rw [hreader, Reading.run, Channel.rest, Channel.rest, hqueue]
      rfl
    · exact h.at_end hqueue hclosed (by rw [hreader]; rfl)

end

theorem agrees_of_reachable (h : (system program items).Reachable s) : Agrees program items s := by
  refine h.invariant (P := Agrees program items) ?_ ?_
  · rintro _ rfl
    exact agrees_init
  · rintro s s' - hs (hstep | hstep | hstep)
    · exact agrees_put hs hstep
    · exact agrees_shut hs hstep
    · exact agrees_read hs hstep

theorem returned_eq_calls (h : (system program items).Reachable s) :
    s.returned = program.calls s.returned.length items := by
  have hanswers := (agrees_of_reachable h).answers 0
  rw [Reading.resumed, List.append_nil] at hanswers
  exact hanswers

variable (program items)

theorem exists_put_all (s : Channel π α) :
    Relation.ReflTransGen (system program items).step s
      { s with unsent := [], queue := s.queue ++ s.unsent } := by
  obtain ⟨unsent, closed, queue, reader, returned⟩ := s
  induction unsent generalizing queue with
  | nil =>
    rw [List.append_nil]
  | cons p ps ih =>
    have hnext := ih (queue ++ [p])
    rw [List.append_assoc, List.singleton_append] at hnext
    exact .head (.inl rfl) hnext

theorem exists_return_of_closed (s : Channel π α) (hclosed : s.closed = true) :
    ∃ s', Relation.ReflTransGen (system program items).step s s' ∧
      s'.returned.length = s.returned.length + 1 := by
  obtain ⟨unsent, closed, queue, reader, returned⟩ := s
  cases hclosed
  induction reader generalizing queue with
  | done a =>
    exact ⟨⟨unsent, true, queue, program, returned ++ [a]⟩, .single (.inr (.inr rfl)),
      List.length_append⟩
  | peek next ih =>
    cases queue with
    | nil =>
      obtain ⟨s', hrun, hlength⟩ := ih none []
      exact ⟨s', .head (.inr (.inr rfl)) hrun, hlength⟩
    | cons p queue =>
      obtain ⟨s', hrun, hlength⟩ := ih (some p) (p :: queue)
      exact ⟨s', .head (.inr (.inr rfl)) hrun, hlength⟩
  | recv next ih =>
    cases queue with
    | nil =>
      obtain ⟨s', hrun, hlength⟩ := ih none []
      exact ⟨s', .head (.inr (.inr rfl)) hrun, hlength⟩
    | cons p queue =>
      obtain ⟨s', hrun, hlength⟩ := ih (some p) queue
      exact ⟨s', .head (.inr (.inr rfl)) hrun, hlength⟩

theorem exists_return (s : Channel π α) :
    ∃ s', Relation.ReflTransGen (system program items).step s s' ∧
      s'.returned.length = s.returned.length + 1 := by
  obtain ⟨s', hrun, hlength⟩ := exists_return_of_closed program items
    { s with unsent := [], queue := s.queue ++ s.unsent, closed := true } rfl
  exact ⟨s', (exists_put_all program items s).trans (.head (.inr (.inl rfl)) hrun), hlength⟩

theorem exists_returned_length (s : Channel π α) (n : Nat) :
    ∃ s', Relation.ReflTransGen (system program items).step s s' ∧
      s'.returned.length = s.returned.length + n := by
  induction n with
  | zero => exact ⟨s, .refl, rfl⟩
  | succ n ih =>
    obtain ⟨s₁, hrun₁, hlength₁⟩ := ih
    obtain ⟨s₂, hrun₂, hlength₂⟩ := exists_return program items s₁
    exact ⟨s₂, hrun₁.trans hrun₂, by rw [hlength₂, hlength₁, Nat.add_assoc]⟩

variable {program items}

def Yields (program : Reading π α) (items : List π) (expected : List α) : Prop :=
  ∀ s, (system program items).Reachable s →
    s.returned.take expected.length <+: expected ∧
      ∃ s', Relation.ReflTransGen (system program items).step s s' ∧ expected <+: s'.returned

theorem take_returned (h : (system program items).Reachable s) {n : Nat}
    (hn : n ≤ s.returned.length) : s.returned.take n = program.calls n items := by
  rw [returned_eq_calls h, Reading.take_calls program hn]

theorem yields_iff {expected : List α} :
    Yields program items expected ↔ program.calls expected.length items = expected := by
  constructor
  · intro h
    obtain ⟨s, hrun, hlength⟩ := exists_returned_length program items
      ⟨items, false, [], program, []⟩ expected.length
    have hs : (system program items).Reachable s := ⟨_, rfl, hrun⟩
    have hfirst := (h s hs).1
    rw [take_returned hs (by rw [hlength]; exact Nat.le_add_left _ _)] at hfirst
    exact hfirst.eq_of_length (Reading.length_calls _ _ _)
  · intro h s hs
    constructor
    · rcases Nat.le_total expected.length s.returned.length with hle | hle
      · exact ⟨[], by rw [List.append_nil, take_returned hs hle, h]⟩
      · rw [List.take_of_length_le hle, returned_eq_calls hs, ← Reading.take_calls program hle, h]
        exact List.take_prefix _ _
    · obtain ⟨s', hrun, hlength⟩ := exists_returned_length program items s expected.length
      refine ⟨s', hrun, ?_⟩
      have htake := take_returned (hs.trans hrun)
        (show expected.length ≤ s'.returned.length by rw [hlength]; exact Nat.le_add_left _ _)
      rw [h] at htake
      rw [← htake]
      exact List.take_prefix _ _

end Channel

end Runc.Lib
