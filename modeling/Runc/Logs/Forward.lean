import Runc.Lib.Text

/-!
# Forwarding the log of `runc init`

`ForwardLogs` reads the log pipe line by line.  Its scanner gives up at a line that
does not fit its buffer, and everything from there on is lost.
-/

namespace Runc.Logs

open Lib

inductive Level
  | panic
  | fatal
  | error
  | warn
  | info
  | debug
  | trace
deriving DecidableEq

structure Entry where
  level : Level
  msg : Text
deriving DecidableEq

def fatalsSep : Text := "; ".toList

def maxScanTokenSize : Nat := 64 * 1024

structure Forwarder where
  /-- The calls of `logger.Log`. -/
  logged : List Entry := []
  /-- The lines of `failed to decode %q to json: %v`. -/
  undecoded : List Text := []
  fatals : Text := []

/-- The logger panics on an entry of level `panic`. -/
def processEntry (decode : Text → Option Entry) (s : Forwarder) (text : Text) :
    Option Forwarder :=
  if text.length = 0 then some s
  else
    match decode text with
    | none => some { s with undecoded := s.undecoded ++ [text] }
    | some jl =>
        if jl.level = .fatal then some { s with fatals := s.fatals ++ jl.msg ++ fatalsSep }
        else if jl.level = .panic then none
        else some { s with logged := s.logged ++ [jl] }

/-- `bytes.TrimSuffix`. -/
def trimEnd (t stop : Text) : Text :=
  if stop.isSuffixOf t then t.take (t.length - stop.length) else t

structure Forwarded where
  logged : List Entry
  undecoded : List Text
  /-- Whether `error reading from log source: %v` is logged. -/
  readErr : Bool
  err : Option Text

def forwardLogs (decode : Text → Option Entry) (logPipe : Text) : Option Forwarded := do
  let s ← (scanLines maxScanTokenSize logPipe).foldlM (processEntry decode) {}
  return {
    logged := s.logged
    undecoded := s.undecoded
    readErr := !(rawLines logPipe).all (·.length < maxScanTokenSize)
    err := if 0 < s.fatals.length then some (trimEnd s.fatals fatalsSep) else none }

/-- The line is one of `runc init`, written for the entry. -/
structure Written (decode : Text → Option Entry) (line : Text × Entry) : Prop where
  no_newline : '\n' ∉ line.1
  no_return : line.1.getLast? ≠ some '\r'
  ne_nil : line.1 ≠ []
  decoded : decode line.1 = some line.2

def pipeText (lines : List (Text × Entry)) : Text :=
  (lines.map Prod.fst).flatMap (· ++ ['\n'])

def nonFatal (lines : List (Text × Entry)) : List Entry :=
  (lines.map Prod.snd).filter (·.level ≠ .fatal)

def fatalMsgs (lines : List (Text × Entry)) : List Text :=
  ((lines.map Prod.snd).filter (·.level = .fatal)).map (·.msg)

def fatalErr (msgs : List Text) : Option Text :=
  if msgs = [] then none else some (fatalsSep.intercalate msgs)

def fatalText (msgs : List Text) : Text :=
  msgs.flatMap (· ++ fatalsSep)

theorem intercalate_append_sep {msgs : List Text} (h : msgs ≠ []) :
    fatalsSep.intercalate msgs ++ fatalsSep = fatalText msgs := by
  induction msgs with
  | nil => exact absurd rfl h
  | cons msg msgs ih =>
    cases msgs with
    | nil => simp [fatalText, List.intercalate]
    | cons next msgs =>
      have hrest := ih (List.cons_ne_nil _ _)
      rw [fatalText, List.flatMap_cons, ← fatalText, ← hrest]
      simp [List.intercalate]

theorem fatalText_eq_nil_iff (msgs : List Text) : fatalText msgs = [] ↔ msgs = [] := by
  cases msgs with
  | nil => simp [fatalText]
  | cons msg msgs => simp [fatalText, fatalsSep]

theorem fatalErr_eq (msgs : List Text) :
    (if 0 < (fatalText msgs).length then some (trimEnd (fatalText msgs) fatalsSep) else none) =
      fatalErr msgs := by
  rw [fatalErr]
  by_cases hnil : msgs = []
  · rw [if_pos hnil, hnil]
    rfl
  · have hpos : 0 < (fatalText msgs).length :=
      List.length_pos_iff.mpr (mt (fatalText_eq_nil_iff msgs).mp hnil)
    rw [if_pos hpos, if_neg hnil, ← intercalate_append_sep hnil, trimEnd,
      if_pos (List.isSuffixOf_iff_suffix.mpr (List.suffix_append _ _))]
    simp

theorem fatalErr_append {a b : List Text} (h : fatalErr (a ++ b) = fatalErr a) : b = [] := by
  by_cases ha : a = []
  · rw [ha, List.nil_append, fatalErr, fatalErr, if_pos rfl] at h
    by_contra hb
    rw [if_neg hb] at h
    cases h
  · have hab : a ++ b ≠ [] := List.append_ne_nil_of_left_ne_nil ha b
    rw [fatalErr, fatalErr, if_neg ha, if_neg hab, Option.some.injEq] at h
    have htext : fatalText (a ++ b) = fatalText a := by
      rw [← intercalate_append_sep hab, ← intercalate_append_sep ha, h]
    rw [fatalText, List.flatMap_append, ← fatalText, ← fatalText] at htext
    exact (fatalText_eq_nil_iff b).mp (List.self_eq_append_right.mp htext.symm)

section Run

variable {decode : Text → Option Entry} {lines : List (Text × Entry)}

theorem scanLines_pipeText (hlines : ∀ line ∈ lines, Written decode line) (limit : Nat) :
    rawLines (pipeText lines) = lines.map Prod.fst ∧
      scanLines limit (pipeText lines) =
        (lines.takeWhile (·.1.length < limit)).map Prod.fst := by
  have hraw : rawLines (pipeText lines) = lines.map Prod.fst := by
    refine rawLines_flatMap fun text htext => ?_
    obtain ⟨line, hline, rfl⟩ := List.mem_map.mp htext
    exact (hlines line hline).no_newline
  refine ⟨hraw, ?_⟩
  rw [scanLines, hraw, List.takeWhile_map, List.map_map]
  refine List.map_congr_left fun line hline => ?_
  exact if_neg (hlines line (List.takeWhile_subset _ hline)).no_return

theorem processEntry_written {line : Text × Entry} (hline : Written decode line) (s : Forwarder) :
    processEntry decode s line.1 =
      if line.2.level = .fatal then some { s with fatals := s.fatals ++ line.2.msg ++ fatalsSep }
      else if line.2.level = .panic then none
      else some { s with logged := s.logged ++ [line.2] } := by
  rw [processEntry, if_neg (mt List.length_eq_zero_iff.mp hline.ne_nil), hline.decoded]

theorem foldlM_processEntry (hlines : ∀ line ∈ lines, Written decode line)
    (hpanic : ∀ line ∈ lines, line.2.level ≠ .panic) (s : Forwarder) :
    (lines.map Prod.fst).foldlM (processEntry decode) s =
      some { s with
        logged := s.logged ++ nonFatal lines
        fatals := s.fatals ++ fatalText (fatalMsgs lines) } := by
  induction lines generalizing s with
  | nil => simp [nonFatal, fatalMsgs, fatalText]
  | cons line lines ih =>
    have hrest := ih (fun l hl => hlines l (List.mem_cons_of_mem _ hl))
      (fun l hl => hpanic l (List.mem_cons_of_mem _ hl))
    rw [List.map_cons, List.foldlM_cons, processEntry_written (hlines line List.mem_cons_self)]
    by_cases hfatal : line.2.level = .fatal
    · rw [if_pos hfatal]
      refine (hrest _).trans ?_
      simp [nonFatal, fatalMsgs, fatalText, hfatal]
    · rw [if_neg hfatal, if_neg (hpanic line List.mem_cons_self)]
      refine (hrest _).trans ?_
      simp [nonFatal, fatalMsgs, hfatal]

theorem foldlM_processEntry_panic (hlines : ∀ line ∈ lines, Written decode line)
    {line : Text × Entry} (hline : line ∈ lines) (hpanic : line.2.level = .panic) (s : Forwarder) :
    (lines.map Prod.fst).foldlM (processEntry decode) s = none := by
  induction lines generalizing s with
  | nil => cases hline
  | cons first lines ih =>
    rw [List.map_cons, List.foldlM_cons, processEntry_written (hlines first List.mem_cons_self)]
    rcases List.mem_cons.mp hline with rfl | hrest
    · rw [hpanic]
      rfl
    · have hnone := ih (fun l hl => hlines l (List.mem_cons_of_mem _ hl)) hrest
      split
      · exact hnone _
      · split
        · rfl
        · exact hnone _

end Run

def scanned (lines : List (Text × Entry)) : List (Text × Entry) :=
  lines.takeWhile (·.1.length < maxScanTokenSize)

theorem forwardLogs_pipeText {decode : Text → Option Entry} {lines : List (Text × Entry)}
    (hlines : ∀ line ∈ lines, Written decode line) :
    forwardLogs decode (pipeText lines) =
      if ∀ line ∈ scanned lines, line.2.level ≠ .panic then
        some {
          logged := nonFatal (scanned lines)
          undecoded := []
          readErr := !(lines.map Prod.fst).all (·.length < maxScanTokenSize)
          err := fatalErr (fatalMsgs (scanned lines)) }
      else none := by
  obtain ⟨hraw, hscan⟩ := scanLines_pipeText hlines maxScanTokenSize
  have hwritten : ∀ line ∈ scanned lines, Written decode line :=
    fun line hline => hlines line (List.takeWhile_subset _ hline)
  rw [forwardLogs, hscan, hraw]
  split
  · rename_i hpanic
    rw [← scanned, foldlM_processEntry hwritten hpanic, ← fatalErr_eq]
    rfl
  · rename_i hpanic
    simp only [ne_eq, not_forall, not_not] at hpanic
    obtain ⟨line, hline, hlevel⟩ := hpanic
    rw [← scanned, foldlM_processEntry_panic hwritten hline hlevel]
    rfl

theorem eq_nil_of_unnoticed {a b : List (Text × Entry)} (hlogged : nonFatal (a ++ b) = nonFatal a)
    (herr : fatalErr (fatalMsgs (a ++ b)) = fatalErr (fatalMsgs a)) : b = [] := by
  have hnonFatal : nonFatal (a ++ b) = nonFatal a ++ nonFatal b := by simp [nonFatal]
  have hfatal : fatalMsgs (a ++ b) = fatalMsgs a ++ fatalMsgs b := by simp [fatalMsgs]
  have hb : nonFatal b = [] := List.self_eq_append_right.mp (hlogged.symm.trans hnonFatal)
  have hb' : fatalMsgs b = [] := fatalErr_append (hfatal ▸ herr)
  refine List.eq_nil_iff_forall_not_mem.mpr fun line hline => ?_
  have hmem : line.2 ∈ b.map Prod.snd := List.mem_map_of_mem hline
  by_cases hlevel : line.2.level = .fatal
  · have hmsg : line.2.msg ∈ fatalMsgs b :=
      List.mem_map_of_mem (List.mem_filter.mpr ⟨hmem, by simpa using hlevel⟩)
    rw [hb'] at hmsg
    cases hmsg
  · have hentry : line.2 ∈ nonFatal b := List.mem_filter.mpr ⟨hmem, by simpa using hlevel⟩
    rw [hb] at hentry
    cases hentry

theorem forwardLogs_long {decode : Text → Option Entry} {line : Text × Entry}
    (hline : Written decode line) (hlong : maxScanTokenSize ≤ line.1.length) :
    forwardLogs decode (pipeText [line]) =
      some { logged := [], undecoded := [], readErr := true, err := none } := by
  have hlost : decide (line.1.length < maxScanTokenSize) = false :=
    decide_eq_false (Nat.not_lt.mpr hlong)
  have hscanned : scanned [line] = [] := by
    rw [scanned, List.takeWhile_cons, hlost]
    rfl
  rw [forwardLogs_pipeText (by simpa using hline), hscanned, List.map_singleton, List.all_cons,
    hlost]
  simp [nonFatal, fatalMsgs, fatalErr]

end Runc.Logs
