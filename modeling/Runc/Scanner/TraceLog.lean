import Runc.Scanner.Capabilities

/-!
# The lines of the trace log

generated/capable-bpfcc.log is written by the tracer and by runc itself. The log is
opened for appending and every write is a whole line, so it is a list of lines in some
order.
-/

namespace Runc.Scanner

open Lib

structure Stamp where
  text : Text
  plain : ∀ c ∈ text, isDigit c = true ∨ c ∈ "-T:Z".toList

/-- `%d` of a number that is not negative. -/
def decimal (n : Nat) : Text :=
  Nat.toDigits 10 n

inductive StopMsg where
  /-- what `%q` makes of the pid file -/
  | badPidFile (quoted : Text)
  | termFailed (pid : Nat) (err : Text)
  | exited (pid : Nat)
  | killFailed (pid : Nat) (err : Text)
  | killSent (pid : Nat)
  | teardown (pinDir err : Text)

inductive RuncLine where
  | started (time : Stamp) (pid : Nat) (cgPath : Text) (cgID : Nat) (bin : Text)
  | tracing (tracerPid : Nat) (pinPath : Text)
  | stopping (time : Stamp) (msg : StopMsg)

def StopMsg.text : StopMsg → Text
  | .badPidFile quoted =>
      " scan-cap-trace-stop: bad pid file ".toList ++ quoted
  | .termFailed pid err =>
      " scan-cap-trace-stop: SIGTERM pid=".toList ++ (decimal pid ++
        (": ".toList ++ err))
  | .exited pid =>
      " scan-cap-trace-stop: tracer pid=".toList ++ (decimal pid ++ " exited".toList)
  | .killFailed pid err =>
      " scan-cap-trace-stop: SIGKILL pid=".toList ++ (decimal pid ++
        (": ".toList ++ err))
  | .killSent pid =>
      " scan-cap-trace-stop: SIGKILL sent to pid=".toList ++ (decimal pid ++
        " after 2s".toList)
  | .teardown pinDir err =>
      " scan-cap-trace-stop: teardown map: remove ".toList ++ (pinDir ++
        (": ".toList ++ err))

def RuncLine.text : RuncLine → Text
  | .started time pid cgPath cgID bin =>
      "---- start ".toList ++ (time.text ++ (" pid=".toList ++ (decimal pid ++
        (" cgroup=".toList ++ (cgPath ++ (" id=".toList ++ (decimal cgID ++
          (" via ".toList ++ (bin ++ " ----".toList)))))))))
  | .tracing tracerPid pinPath =>
      "scan-cap-trace-start: tracer pid=".toList ++ (decimal tracerPid ++
        (" cgroupmap=".toList ++ pinPath))
  | .stopping time msg =>
      time.text ++ msg.text

def StopMsg.quoted : StopMsg → List Text
  | .badPidFile quoted => [quoted]
  | .termFailed _ err => [err]
  | .exited _ => []
  | .killFailed _ err => [err]
  | .killSent _ => []
  | .teardown pinDir err => [pinDir, err]

def RuncLine.quoted : RuncLine → List Text
  | .started _ _ cgPath _ bin => [cgPath, bin]
  | .tracing _ pinPath => [pinPath]
  | .stopping _ msg => msg.quoted

inductive TraceEntry where
  | runc (line : RuncLine)
  | tracer (line : Text)

def TraceEntry.text : TraceEntry → Text
  | .runc line => line.text
  | .tracer line => line

def TraceEntry.isTracer : TraceEntry → Bool
  | .runc _ => false
  | .tracer _ => true

def render (log : List TraceEntry) : Text :=
  log.flatMap fun entry => entry.text ++ "\n".toList

def tracerOutput (log : List TraceEntry) : Text :=
  render (log.filter TraceEntry.isTracer)

section Pieces

variable {n : Text}

theorem not_observed_of_not_mem {t : Text} (h : 'C' ∉ t) : ¬ Observed n t := by
  rintro ⟨⟨tail, rfl, -, -⟩, before, after, rfl, -, -⟩
  exact h (by simp)

theorem observed_cons {c : Char} {t : Text} (hc : isWord c = false) :
    Observed n (c :: t) ↔ Observed n t := by
  constructor
  · rintro ⟨hname, before, after, ht, hbefore, hafter⟩
    cases before with
    | nil =>
      have hhead := hname.head_word after
      rw [← List.nil_append (n ++ after), ← ht, List.head?_cons] at hhead
      simp [hc] at hhead
    | cons b before =>
      obtain ⟨rfl, rfl⟩ := List.cons.inj ht
      refine ⟨hname, before, after, rfl, ?_, hafter⟩
      cases before with
      | nil => rfl
      | cons b before => rwa [List.getLast?_cons_cons] at hbefore
  · rintro ⟨hname, before, after, rfl, hbefore, hafter⟩
    refine ⟨hname, c :: before, after, rfl, ?_, hafter⟩
    cases before with
    | nil => simpa using hc
    | cons b before => rwa [List.getLast?_cons_cons]

theorem observed_append_of_last {old new : Text} (hold : old.getLast?.any isWord = false) :
    Observed n (old ++ new) ↔ Observed n old ∨ Observed n new := by
  rcases List.eq_nil_or_concat old with rfl | ⟨old, c, rfl⟩
  · simp [not_observed_nil]
  · have hc : isWord c = false := by simpa using hold
    have hhead : ∀ t : Text, (c :: t).head?.any isWord = false := by
      intro t
      simpa using hc
    rw [List.concat_eq_append, List.append_assoc, List.singleton_append,
      observed_append (hhead new),
      observed_append (hhead []), observed_cons hc, observed_cons hc]
    simp [not_observed_nil]

def Gap (piece : Text) : Prop :=
  'C' ∉ piece ∧ piece.head?.any (!isWord ·) = true ∧
    piece.getLast?.any isWord = false

def Lead (piece : Text) : Prop :=
  'C' ∉ piece ∧ piece.getLast?.any isWord = false

def Close (piece : Text) : Prop :=
  'C' ∉ piece ∧ piece.head?.any isWord = false

instance (piece : Text) : Decidable (Gap piece) :=
  inferInstanceAs (Decidable (_ ∧ _ ∧ _))

instance (piece : Text) : Decidable (Lead piece) :=
  inferInstanceAs (Decidable (_ ∧ _))

instance (piece : Text) : Decidable (Close piece) :=
  inferInstanceAs (Decidable (_ ∧ _))

theorem observed_gap {piece : Text} (h : Gap piece) (old new : Text) :
    Observed n (old ++ (piece ++ new)) ↔ Observed n old ∨ Observed n new := by
  have hhead : (piece ++ new).head?.any isWord = false := by
    have hhead := h.2.1
    cases piece with
    | nil => cases hhead
    | cons c piece => simpa using hhead
  rw [observed_append hhead, observed_append_of_last h.2.2]
  simp [not_observed_of_not_mem h.1]

theorem observed_lead {piece : Text} (h : Lead piece) (new : Text) :
    Observed n (piece ++ new) ↔ Observed n new := by
  rw [observed_append_of_last h.2]
  simp [not_observed_of_not_mem h.1]

theorem observed_close {piece : Text} (h : Close piece) (old : Text) :
    Observed n (old ++ piece) ↔ Observed n old := by
  rw [observed_append h.2]
  simp [not_observed_of_not_mem h.1]

theorem not_observed_decimal (k : Nat) : ¬ Observed n (decimal k) := by
  refine not_observed_of_not_mem fun hmem => ?_
  have hdigit := Nat.isDigit_of_mem_toDigits (by omega) (by omega) hmem
  exact absurd hdigit (by decide)

theorem not_observed_stamp (time : Stamp) : ¬ Observed n time.text := by
  refine not_observed_of_not_mem fun hmem => ?_
  have hplain := time.plain _ hmem
  exact absurd hplain (by decide)

end Pieces

section Lines

variable {n : Text}

theorem observed_stop_pair {piece : Text} (h : Gap piece) (time : Stamp) (x err : Text) :
    Observed n (time.text ++ (piece ++ (x ++ (": ".toList ++ err)))) ↔
      Observed n x ∨ Observed n err := by
  have hcolon : Gap ": ".toList := of_literal rfl (by decide)
  rw [observed_gap h, observed_gap hcolon]
  simp [not_observed_stamp]

theorem not_observed_stop_pid {piece stop : Text} (h : Gap piece) (hstop : Close stop)
    (time : Stamp) (pid : Nat) :
    ¬ Observed n (time.text ++ (piece ++ (decimal pid ++ stop))) := by
  rw [observed_gap h, observed_close hstop]
  simp [not_observed_stamp, not_observed_decimal]

theorem observed_stopMsg (time : Stamp) (msg : StopMsg) :
    Observed n (time.text ++ msg.text) ↔ ∃ t ∈ msg.quoted, Observed n t := by
  cases msg with
  | badPidFile quoted =>
    have hgap : Gap " scan-cap-trace-stop: bad pid file ".toList := of_literal rfl (by decide)
    change Observed n (time.text ++ (_ ++ quoted)) ↔ _
    rw [observed_gap hgap]
    simp [StopMsg.quoted, not_observed_stamp]
  | termFailed pid err =>
    refine (observed_stop_pair (of_literal rfl (by decide)) time (decimal pid) err).trans ?_
    simp [StopMsg.quoted, not_observed_decimal]
  | exited pid =>
    refine iff_of_false (not_observed_stop_pid (of_literal rfl (by decide))
      (of_literal rfl (by decide)) time pid) ?_
    simp [StopMsg.quoted]
  | killFailed pid err =>
    refine (observed_stop_pair (of_literal rfl (by decide)) time (decimal pid) err).trans ?_
    simp [StopMsg.quoted, not_observed_decimal]
  | killSent pid =>
    refine iff_of_false (not_observed_stop_pid (of_literal rfl (by decide))
      (of_literal rfl (by decide)) time pid) ?_
    simp [StopMsg.quoted]
  | teardown pinDir err =>
    refine (observed_stop_pair (of_literal rfl (by decide)) time pinDir err).trans ?_
    simp [StopMsg.quoted]

theorem observed_text (line : RuncLine) :
    Observed n line.text ↔ ∃ t ∈ line.quoted, Observed n t := by
  cases line with
  | started time pid cgPath cgID bin =>
    have hstart : Lead "---- start ".toList := of_literal rfl (by decide)
    have hpid : Gap " pid=".toList := of_literal rfl (by decide)
    have hcgroup : Gap " cgroup=".toList := of_literal rfl (by decide)
    have hid : Gap " id=".toList := of_literal rfl (by decide)
    have hvia : Gap " via ".toList := of_literal rfl (by decide)
    have hclose : Close " ----".toList := of_literal rfl (by decide)
    change Observed n (_ ++ (time.text ++ (_ ++ (decimal pid ++ (_ ++ (cgPath ++
      (_ ++ (decimal cgID ++ (_ ++ (bin ++ _)))))))))) ↔ _
    rw [observed_lead hstart, observed_gap hpid, observed_gap hcgroup,
      observed_gap hid, observed_gap hvia, observed_close hclose]
    simp [RuncLine.quoted, not_observed_stamp, not_observed_decimal]
  | tracing tracerPid pinPath =>
    have hstart : Lead "scan-cap-trace-start: tracer pid=".toList := of_literal rfl (by decide)
    have hmap : Gap " cgroupmap=".toList := of_literal rfl (by decide)
    change Observed n (_ ++ (decimal tracerPid ++ (_ ++ pinPath))) ↔ _
    rw [observed_lead hstart, observed_gap hmap]
    simp [RuncLine.quoted, not_observed_decimal]
  | stopping time msg => exact observed_stopMsg time msg

theorem observed_render (log : List TraceEntry) :
    Observed n (render log) ↔ ∃ entry ∈ log, Observed n entry.text := by
  induction log with
  | nil => simp [render, not_observed_nil]
  | cons entry log ih =>
    have hsplit : render (entry :: log) =
        entry.text ++ ("\n".toList ++ render log) := by
      simp [render]
    have hnewline : Gap "\n".toList := of_literal rfl (by decide)
    rw [hsplit, observed_gap hnewline, ih]
    simp

theorem observed_tracerOutput (log : List TraceEntry) :
    Observed n (tracerOutput log) ↔ ∃ line, .tracer line ∈ log ∧ Observed n line := by
  rw [tracerOutput, observed_render]
  constructor
  · rintro ⟨entry, hentry, hobs⟩
    obtain ⟨hmem, htracer⟩ := List.mem_filter.mp hentry
    cases entry with
    | runc line => cases htracer
    | tracer line => exact ⟨line, hmem, hobs⟩
  · rintro ⟨line, hmem, hobs⟩
    exact ⟨.tracer line, List.mem_filter.mpr ⟨hmem, rfl⟩, hobs⟩

end Lines

/-- Names in the log. -/
theorem traceLog_names_iff (log : List TraceEntry) :
    (∀ n, n ∈ parseCapsFromFile (some (render log)) ↔
        n ∈ parseCapsFromFile (some (tracerOutput log))) ↔
      ∀ line, .runc line ∈ log → ∀ t ∈ line.quoted, ∀ n, Observed n t →
        Observed n (tracerOutput log) := by
  simp only [mem_parseCapsFromFile]
  constructor
  · intro hsame line hline t ht n hobs
    refine (hsame n).mp ((observed_render log).mpr ⟨.runc line, hline, ?_⟩)
    exact (observed_text line).mpr ⟨t, ht, hobs⟩
  · intro hquoted n
    constructor
    · intro hobs
      obtain ⟨entry, hentry, hin⟩ := (observed_render log).mp hobs
      cases entry with
      | runc line =>
        obtain ⟨t, ht, hn⟩ := (observed_text line).mp hin
        exact hquoted line hentry t ht n hn
      | tracer line => exact (observed_tracerOutput log).mpr ⟨line, hentry, hin⟩
    · intro hobs
      obtain ⟨line, hline, hin⟩ := (observed_tracerOutput log).mp hobs
      exact (observed_render log).mpr ⟨.tracer line, hline, hin⟩

end Runc.Scanner
