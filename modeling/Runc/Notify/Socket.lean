import Runc.Lib.Text

/-!
# The notify socket

A goroutine reads datagrams and sends the text to forward over a channel; `run` waits for it and
looks now and then whether the process is alive.  Either may move at any time.
-/

namespace Runc.Notify

open Lib

def bufSize : Nat := 4096

def ready : Text := "READY=".toList

def scanDatagram (got : Text) : Option Text :=
  (got.splitOn '\n').find? fun _ => ready.isPrefixOf got

inductive Reader
  | reading
  | found (line : Text)

inductive Main
  | polling
  | returned
  /-- `notifyHost` was called with the line. -/
  | notified (line : Text)

structure State where
  queue : List Text
  reader : Reader := .reading
  main : Main := .polling

inductive Event
  | read
  | tick (alive : Bool)
  | receive
deriving DecidableEq

def step (s : State) : Event → Option State
  | .read =>
      match s.reader, s.queue with
      | .reading, d :: queue =>
          match scanDatagram (d.take bufSize) with
          | none => some { s with queue }
          | some line => some { s with queue, reader := .found line }
      | _, _ => none
  | .tick alive =>
      match s.main with
      | .polling => some { s with main := if alive then .polling else .returned }
      | _ => none
  | .receive =>
      match s.reader, s.main with
      | .found line, .polling => some { s with main := .notified line }
      | _, _ => none

def Settled (s : State) : Prop :=
  step s .read = none ∧ step s .receive = none

def State.forwarded (s : State) : Option Text :=
  match s.main with
  | .notified line => some line
  | _ => none

def State.outcome (s : State) : Option Text :=
  match s.main, s.reader with
  | .notified line, _ => some line
  | _, .found line => some line
  | _, .reading => s.queue.findSome? fun d => scanDatagram (d.take bufSize)

def State.left (s : State) : Nat :=
  match s.main with
  | .polling => s.queue.length + 1
  | _ => s.queue.length

def Event.work : Event → Bool
  | .tick _ => false
  | _ => true

theorem step_outcome {s s' : State} {e : Event} (h : step s e = some s') :
    s'.outcome = s.outcome ∧ s'.left + (if e.work = true then 1 else 0) ≤ s.left ∧
      (e ≠ .tick false → s.main ≠ .returned → s'.main ≠ .returned) := by
  obtain ⟨queue, reader, main⟩ := s
  cases e with
  | read =>
    cases reader with
    | found line => cases h
    | reading =>
      cases queue with
      | nil => cases h
      | cons d queue =>
        cases hscan : scanDatagram (d.take bufSize) <;>
          (simp only [step, hscan] at h; cases h) <;>
          cases main <;> simp [State.outcome, State.left, Event.work, hscan]
  | tick alive =>
    cases main <;> cases h
    cases alive <;> cases reader <;> simp [State.outcome, State.left, Event.work]
  | receive =>
    cases reader <;> cases main <;> cases h
    simp [State.outcome, State.left, Event.work]

theorem run_outcome {s s' : State} {events : List Event} (h : events.foldlM step s = some s') :
    s'.outcome = s.outcome ∧ s'.left + events.countP Event.work ≤ s.left ∧
      (.tick false ∉ events → s.main ≠ .returned → s'.main ≠ .returned) := by
  induction events generalizing s with
  | nil =>
    cases h
    exact ⟨rfl, Nat.le_refl _, fun _ => id⟩
  | cons e events ih =>
    obtain ⟨s₁, hstep, hrest⟩ := Option.bind_eq_some_iff.mp h
    obtain ⟨hsame, hless, halive⟩ := step_outcome hstep
    obtain ⟨hsame', hless', halive'⟩ := ih hrest
    refine ⟨hsame'.trans hsame, ?_, fun hticks hmain => ?_⟩
    · rw [List.countP_cons]
      omega
    · rw [List.mem_cons, not_or] at hticks
      exact halive' hticks.2 (halive (Ne.symm hticks.1) hmain)

theorem forwarded_of_settled {s : State} (h : Settled s) (hmain : s.main ≠ .returned) :
    s.forwarded = s.outcome := by
  obtain ⟨queue, reader, main⟩ := s
  obtain ⟨hread, hreceive⟩ := h
  cases main with
  | returned => exact absurd rfl hmain
  | notified line => rfl
  | polling =>
    cases reader with
    | found line => cases hreceive
    | reading =>
      cases queue with
      | nil => rfl
      | cons d queue =>
        cases hscan : scanDatagram (d.take bufSize) <;> simp [step, hscan] at hread

def readyLine (d : Text) : Option Text :=
  (d.splitOn '\n').find? ready.isPrefixOf

def firstLine (d : Text) : Text :=
  d.takeWhile (· ≠ '\n')

variable {ds : List Text} {d : Text}

theorem splitOn_firstLine (d : Text) : ∃ more, d.splitOn '\n' = firstLine d :: more := by
  induction d with
  | nil => exact ⟨[], rfl⟩
  | cons c d ih =>
    obtain ⟨more, hmore⟩ := ih
    rw [List.splitOn] at hmore ⊢
    rw [List.splitOnP_cons_eq_if_modifyHead, hmore]
    by_cases hc : c = '\n'
    · exact ⟨_, by simp [hc, firstLine]; rfl⟩
    · exact ⟨more, by simp [hc, firstLine]⟩

theorem scanDatagram_eq (d : Text) :
    scanDatagram d = if ready.isPrefixOf d then some (firstLine d) else none := by
  obtain ⟨more, hlines⟩ := splitOn_firstLine d
  rw [scanDatagram, hlines]
  cases h : ready.isPrefixOf d with
  | true => rfl
  | false => simp

theorem readyLine_of_starts (h : ready.isPrefixOf d = true) : readyLine d = some (firstLine d) := by
  obtain ⟨more, hlines⟩ := splitOn_firstLine d
  obtain ⟨rest, rfl⟩ := List.isPrefixOf_iff_prefix.mp h
  have hstart : ready.isPrefixOf (firstLine (ready ++ rest)) = true := by
    rw [firstLine, List.takeWhile_append_of_pos (List.all_eq_true.mp rfl),
      List.isPrefixOf_iff_prefix]
    exact List.prefix_append _ _
  rw [readyLine, hlines, List.find?_cons, hstart]

theorem outcome_start (hfit : ∀ d ∈ ds, d.length < bufSize) :
    State.outcome { queue := ds } = (ds.find? ready.isPrefixOf).map firstLine := by
  have hstart : State.outcome { queue := ds } =
      ds.findSome? fun d => scanDatagram (d.take bufSize) := rfl
  rw [hstart]
  clear hstart
  induction ds with
  | nil => rfl
  | cons d ds ih =>
    obtain ⟨hd, hds⟩ := List.forall_mem_cons.mp hfit
    rw [List.findSome?_cons, List.take_of_length_le hd.le, scanDatagram_eq, List.find?_cons,
      ih hds]
    cases ready.isPrefixOf d <;> rfl

theorem find?_starts (h : ds.find? (readyLine · |>.isSome) = some d)
    (hstarts : ready.isPrefixOf d = true) : ds.find? ready.isPrefixOf = some d := by
  obtain ⟨-, before, after, rfl, hbefore⟩ := List.find?_eq_some_iff_append.mp h
  refine List.find?_eq_some_iff_append.mpr ⟨hstarts, before, after, rfl, fun d' hd' => ?_⟩
  have hnone := hbefore d' hd'
  rw [Bool.not_eq_true'] at hnone ⊢
  by_contra hother
  rw [Bool.not_eq_false] at hother
  rw [readyLine_of_starts hother] at hnone
  cases hnone

theorem findSome?_eq_bind (ds : List Text) :
    ds.findSome? readyLine = (ds.find? (readyLine · |>.isSome)).bind readyLine := by
  induction ds with
  | nil => rfl
  | cons d ds ih =>
    rw [List.findSome?_cons, List.find?_cons, ih]
    cases h : readyLine d with
    | none => rfl
    | some line => simp [h]

/-- Forwarding. -/
theorem forwarded_iff (ds : List Text) (hfit : ∀ d ∈ ds, d.length < bufSize)
    (events : List Event) (halive : .tick false ∉ events) (s : State)
    (hrun : events.foldlM step { queue := ds } = some s) :
    events.countP Event.work ≤ ds.length + 1 ∧
    (Settled s →
      (s.forwarded = ds.findSome? readyLine ↔
        ∀ d, ds.find? (readyLine · |>.isSome) = some d →
          ready.isPrefixOf d = true ∨
            (ds.find? ready.isPrefixOf).map firstLine = readyLine d)) := by
  obtain ⟨houtcome, hwork, hmain⟩ := run_outcome hrun
  refine ⟨Nat.le_trans (Nat.le_add_left _ _) hwork, fun hsettled => ?_⟩
  rw [forwarded_of_settled hsettled (hmain halive nofun), houtcome, outcome_start hfit,
    findSome?_eq_bind]
  cases hfind : ds.find? (readyLine · |>.isSome) with
  | none =>
    have hnone : ds.find? ready.isPrefixOf = none := by
      rw [List.find?_eq_none] at hfind ⊢
      intro d hd hstarts
      exact hfind d hd (by rw [readyLine_of_starts hstarts]; rfl)
    rw [hnone]
    exact iff_of_true rfl nofun
  | some d =>
    rw [Option.bind_some]
    constructor
    · rintro h d' heq
      cases heq
      exact .inr h
    · intro h
      rcases h d rfl with hstarts | htext
      · rw [find?_starts hfind hstarts, readyLine_of_starts hstarts]
        rfl
      · exact htext

theorem forwarded_ready :
    ∃ s, [.read, .tick true, .receive].foldlM step { queue := ["READY=1\nSTATUS=up".toList] } =
        some s ∧ s.forwarded = some "READY=1".toList := by
  have hrun : [.read, .tick true, .receive].foldlM step
      { queue := ["READY=1\nSTATUS=up".toList] } =
        some ⟨[], .found "READY=1".toList, .notified "READY=1".toList⟩ := rfl
  refine ⟨_, hrun, ?_⟩
  refine (((forwarded_iff _ (by decide) _ (by decide) _ hrun).2 ⟨rfl, rfl⟩).mpr ?_).trans ?_
  · rintro d ⟨⟩
    exact .inl rfl
  · decide

theorem forwarded_not_first :
    ∃ s, [.read].foldlM step { queue := ["STATUS=up\nREADY=1".toList] } = some s ∧ Settled s ∧
      s.forwarded = none ∧ readyLine "STATUS=up\nREADY=1".toList = some "READY=1".toList :=
  ⟨⟨[], .reading, .polling⟩, rfl, ⟨rfl, rfl⟩, rfl, by decide⟩

end Runc.Notify
