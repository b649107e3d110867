import Runc.Lib.Bytes
import Runc.Scanner.AuditFields
import Runc.Scanner.CapTrace

/-!
# The time window of the audit collector

The load hook leaves the second at which it ran in a file; the collector asks
journalctl for the kernel log from then on, and dmesg if journalctl is missing or
prints nothing.

dmesg is asked for the whole log, and so is journalctl without a stamp.
-/

namespace Runc.Scanner

open Lib

section Source

structure KernelEvent where
  time : Nat
  line : Text

structure LogHost where
  journalctl : Bool
  /-- journalctl fails when called with this `--since`. -/
  journalFails : Option Int → Bool
  noEntries : Text
  dmesg : Bool
  dmesgFails : Bool
  offset : Int
  noEntries_silent : ∀ name, parseApparmorDenials noEntries name = []

def printLog (log : List KernelEvent) : Text :=
  log.flatMap (fun e => e.line ++ ['\n'])

def shown (host : LogHost) (since : Option Int) (log : List KernelEvent) : List KernelEvent :=
  match since with
  | none => log
  | some s => log.filter (fun e => s - host.offset ≤ e.time)

def journalOutput (host : LogHost) (since : Option Int) (log : List KernelEvent) : Text :=
  if (shown host since log).isEmpty then host.noEntries
  else printLog (shown host since log)

def LogHost.dmesgWorks (host : LogHost) : Bool :=
  host.dmesg && !host.dmesgFails

def dmesgOutput (host : LogHost) (log : List KernelEvent) : Text :=
  if host.dmesgWorks then printLog log else []

/-- `time.Time{}` in seconds since the epoch. -/
def zeroTime : Int :=
  -62135596800

/-- `strconv.ParseInt` reads what `strconv.Atoi` does. -/
def readAAStartedAt (file : Option Text) : Int :=
  match file with
  | none => zeroTime
  | some raw => (atoi (trimSpace raw)).getD zeroTime

def sinceArg (since : Int) : Option Int :=
  if since = zeroTime then none else some since

def readKernelAudit (host : LogHost) (since : Int) (log : List KernelEvent) : Text :=
  if host.journalctl then
    if host.journalFails (sinceArg since) then []
    else if journalOutput host (sinceArg since) log ≠ [] then
      journalOutput host (sinceArg since) log
    else dmesgOutput host log
  else dmesgOutput host log

def stampText (now : Nat) : Text :=
  Nat.toDigits 10 now ++ ['\n']

variable (unicode : Unicode)

def loggedRules (host : LogHost) (stamp : Option Text) (name : Text)
    (log : List KernelEvent) : List Text :=
  buildAppArmorRulesFromDenials unicode
    (parseApparmorDenials (readKernelAudit host (readAAStartedAt stamp) log) name)

def AuditWindow (host : LogHost) (stamp : Option Text) (name : Text) (start : Nat) : Prop :=
  ∀ log log' : List KernelEvent,
    log.filter (start ≤ ·.time) = log'.filter (start ≤ ·.time) →
      loggedRules unicode host stamp name log =
        loggedRules unicode host stamp name log'

end Source

section Collector

variable {unicode : Unicode}

theorem collectAndAppendAppArmorRules_eq {faults : ProfileFaults} {raw name : Text}
    (hread : faults.readProfile = none) (hname : profileName raw = some name)
    (path : String) (audit : Text) :
    collectAndAppendAppArmorRules unicode faults path (some raw) audit =
      appendAuditRulesToProfile faults path (some raw)
        (buildAppArmorRulesFromDenials unicode
          (parseApparmorDenials audit name)) := by
  have hnone : appendAuditRulesToProfile faults path (some raw)
      (buildAppArmorRulesFromDenials unicode []) = .ok (some raw) :=
    rfl
  unfold collectAndAppendAppArmorRules
  simp only [hread, readFile, bind, Except.bind, hname]
  split
  · rename_i haudit
    rw [haudit]
    exact hnone.symm
  · split
    · rename_i hrecords
      rw [hrecords]
      exact hnone.symm
    · rfl

end Collector

theorem readAAStartedAt_stamp {now : Nat} (hnow : now < 2 ^ 63) :
    readAAStartedAt (some (stampText now)) = now := by
  rw [readAAStartedAt, stampText, atoi_numberLine hnow]
  rfl

theorem auditLine_middle (first p : AuditPair) (others : List AuditPair) :
    auditLine (first :: p :: others) =
      first.text ++ (first.blanks ++ (p.key ++ ['=', '"'])) ++
        (p.value ++ ('"' :: (p.blanks ++ auditLine others))) := by
  simp [auditLine, AuditPair.text]

def deniedPair : AuditPair :=
  ⟨"apparmor".toList, "DENIED".toList, [' '], by decide,
    forall_mem_of_all (by decide), by decide, forall_mem_of_all (by decide)⟩

def profilePair (name : Text) (hname : '"' ∉ name) : AuditPair :=
  ⟨"profile".toList, name, [' '], by decide, forall_mem_of_all (by decide), hname,
    forall_mem_of_all (by decide)⟩

def namePair : AuditPair :=
  ⟨"name".toList, "/x".toList, [], by decide, forall_mem_of_all (by decide),
    by decide, by simp⟩

def deniedLine (name : Text) (hname : '"' ∉ name) : Text :=
  auditLine [deniedPair, profilePair name hname, namePair]

def deniedHead : Text :=
  deniedPair.text ++ ([' '] ++ ("profile".toList ++ ['=', '"']))

def deniedTail : Text :=
  '"' :: ([' '] ++ auditLine [namePair])

theorem deniedLine_eq (name : Text) (hname : '"' ∉ name) :
    deniedLine name hname = deniedHead ++ (name ++ deniedTail) :=
  auditLine_middle _ _ _

theorem deniedLine_parts :
    deniedHead.length = 27 ∧ '\n' ∉ deniedHead ∧ deniedTail.length = 11 ∧
      '\n' ∉ deniedTail ∧ deniedTail.getLast? = some '"' := by
  decide +kernel

theorem parse_deniedLine {name : Text} (hquote : '"' ∉ name) (hbreak : '\n' ∉ name)
    (hlength : name.length ≤ 200) (time : Nat) :
    parseApparmorDenials (printLog [⟨time, deniedLine name hquote⟩]) name ≠
      [] := by
  obtain ⟨hhead, hheadBreak, htail, htailBreak, hlast⟩ := deniedLine_parts
  have hreports : Reports (deniedLine name hquote) :=
    reports_auditLine List.mem_cons_self rfl List.mem_cons_self
  have hprofile : (parseDenialLine (deniedLine name hquote)).profile = name := by
    rw [deniedLine, parseDenialLine_eq, auditFields_auditLine]
    rfl
  rw [deniedLine_eq] at hreports hprofile ⊢
  generalize hline : deniedHead ++ (name ++ deniedTail) = line at hreports hprofile ⊢
  have hlineBreak : '\n' ∉ line := by
    rw [← hline, List.mem_append, List.mem_append]
    rintro (h | h | h)
    · exact hheadBreak h
    · exact hbreak h
    · exact htailBreak h
  have hshort : line.length < maxLine := by
    rw [← hline, List.length_append, List.length_append, hhead, htail, maxLine]
    omega
  have hend : dropCR line = line := by
    rw [dropCR, if_neg]
    rw [← hline, List.getLast?_append, List.getLast?_append, hlast, Option.some_or, Option.some_or]
    decide
  have hlines : scanLines maxLine (printLog [⟨time, line⟩]) = [line] := by
    have hraw : rawLines (printLog [⟨time, line⟩]) = [line] := by
      rw [printLog, List.flatMap_cons, List.flatMap_nil, List.append_nil]
      exact rawLines_line hlineBreak
    rw [scanLines_of_fit (by rw [hraw]; simpa using hshort), hraw, List.map_singleton, hend]
  have hmem : line ∈ eventLines (printLog [⟨time, line⟩]) name := by
    rw [eventLines, hlines, List.mem_filter]
    exact ⟨List.mem_cons_self, decide_eq_true ⟨hreports, hprofile⟩⟩
  rw [parseApparmorDenials_eq]
  exact List.ne_nil_of_mem (List.mem_map_of_mem hmem)

theorem IsScanName.not_break {name : Text} (hname : IsScanName name) : '\n' ∉ name :=
  fun hmem => absurd (hname.not_space _ hmem) (by decide)

theorem IsScanName.not_quote {name : Text} (hname : IsScanName name) :
    '"' ∉ name := by
  intro hmem
  rcases hname.chars _ hmem with h | h
  · exact absurd h (by decide)
  · exact absurd (by decide) h

section Window

variable {host : LogHost} {since : Int} {start : Nat}

def CoversOnly (host : LogHost) (since : Int) (start : Nat) : Prop :=
  if host.journalctl then
    host.journalFails (sinceArg since) = true ∨
      (since ≠ zeroTime ∧ (start : Int) ≤ since - host.offset ∧
        (host.noEntries ≠ [] ∨ host.dmesgWorks = false))
  else host.dmesgWorks = false

theorem printLog_ne_nil {log : List KernelEvent} (h : log ≠ []) : printLog log ≠ [] := by
  obtain ⟨e, log, rfl⟩ := List.exists_cons_of_ne_nil h
  rw [printLog, List.flatMap_cons, List.append_assoc]
  exact List.append_ne_nil_of_right_ne_nil _ (List.cons_ne_nil _ _)

theorem journalOutput_of_shown {arg : Option Int} {log : List KernelEvent}
    (hshown : shown host arg log ≠ []) :
    journalOutput host arg log = printLog (shown host arg log) ∧
      journalOutput host arg log ≠ [] := by
  have hempty : (shown host arg log).isEmpty = false := by
    simpa using hshown
  have hout : journalOutput host arg log = printLog (shown host arg log) := by
    rw [journalOutput, hempty]
    rfl
  exact ⟨hout, hout ▸ printLog_ne_nil hshown⟩

theorem shown_congr (hsince : since ≠ zeroTime) (hstart : (start : Int) ≤ since - host.offset)
    {log log' : List KernelEvent} (h : log.filter (start ≤ ·.time) = log'.filter (start ≤ ·.time)) :
    shown host (sinceArg since) log = shown host (sinceArg since) log' := by
  have hagain : ∀ log : List KernelEvent, shown host (sinceArg since) log =
        (log.filter (start ≤ ·.time)).filter
          (fun e => since - host.offset ≤ e.time) := by
    intro log
    rw [sinceArg, if_neg hsince, shown, List.filter_filter]
    refine List.filter_congr (fun e _ => ?_)
    rw [Bool.eq_iff_iff, Bool.and_eq_true, decide_eq_true_iff, decide_eq_true_iff]
    omega
  rw [hagain, hagain, h]

theorem readKernelAudit_congr (hcovers : CoversOnly host since start) {log log' : List KernelEvent}
    (h : log.filter (start ≤ ·.time) = log'.filter (start ≤ ·.time)) :
    readKernelAudit host since log = readKernelAudit host since log' := by
  have hdmesg : host.dmesgWorks = false → ∀ log, dmesgOutput host log = [] := by
    intro hworks log
    rw [dmesgOutput, hworks]
    rfl
  unfold readKernelAudit
  unfold CoversOnly at hcovers
  split at hcovers
  · rename_i hjournal
    rw [if_pos hjournal, if_pos hjournal]
    rcases hcovers with hfails | ⟨hsince, hstart, hrest⟩
    · rw [if_pos hfails, if_pos hfails]
    · have hout : journalOutput host (sinceArg since) log =
          journalOutput host (sinceArg since) log' := by
        rw [journalOutput, journalOutput, shown_congr hsince hstart h]
      rw [hout]
      rcases hrest with hprints | hworks
      · have hne : journalOutput host (sinceArg since) log' ≠ [] := by
          by_cases hshown : shown host (sinceArg since) log' = []
          · rw [journalOutput, hshown]
            exact hprints
          · exact (journalOutput_of_shown hshown).2
        rw [if_pos hne, if_pos hne]
      · rw [hdmesg hworks, hdmesg hworks]
  · rename_i hjournal
    rw [if_neg hjournal, if_neg hjournal, hdmesg hcovers, hdmesg hcovers]

theorem shown_singleton (host : LogHost) (since : Int) (e : KernelEvent) :
    (shown host (sinceArg since) [e] = [e] ∧
        (since = zeroTime ∨ since - host.offset ≤ e.time)) ∨
      (shown host (sinceArg since) [e] = [] ∧ since ≠ zeroTime ∧
        (e.time : Int) < since - host.offset) := by
  by_cases hzero : since = zeroTime
  · rw [sinceArg, if_pos hzero]
    exact Or.inl ⟨rfl, Or.inl hzero⟩
  · rw [sinceArg, if_neg hzero, shown]
    by_cases htime : since - host.offset ≤ e.time
    · exact Or.inl ⟨List.filter_cons_of_pos (decide_eq_true htime), Or.inr htime⟩
    · refine Or.inr ⟨List.filter_cons_of_neg (fun h => htime ?_), hzero, by omega⟩
      exact of_decide_eq_true h

theorem readKernelAudit_before (hcovers : ¬ CoversOnly host since start) (line : Text) :
    readKernelAudit host since [⟨start - 1, line⟩] =
      printLog [⟨start - 1, line⟩] := by
  have hdmesg : ¬ host.dmesgWorks = false → ∀ log,
      dmesgOutput host log = printLog log := by
    intro hworks log
    rw [dmesgOutput, if_pos (Bool.not_eq_false _ ▸ hworks)]
  unfold readKernelAudit
  unfold CoversOnly at hcovers
  split at hcovers
  · rename_i hjournal
    obtain ⟨hok, hopen⟩ := not_or.mp hcovers
    rw [if_pos hjournal, if_neg hok]
    rcases shown_singleton host since ⟨start - 1, line⟩ with
      ⟨hshown, -⟩ | ⟨hshown, hsince, htime⟩
    · -- journalctl shows it
      have hne : shown host (sinceArg since) [⟨start - 1, line⟩] ≠ [] := by
        rw [hshown]
        exact List.cons_ne_nil _ _
      obtain ⟨hout, hout'⟩ := journalOutput_of_shown hne
      rw [if_pos hout', hout, hshown]
    · -- journalctl prints nothing, and dmesg has it
      have hlate : (start : Int) ≤ since - host.offset := by
        simp only at htime
        omega
      have hrest : ¬ (host.noEntries ≠ [] ∨ host.dmesgWorks = false) :=
        fun h => hopen ⟨hsince, hlate, h⟩
      obtain ⟨hsilent, hworks⟩ := not_or.mp hrest
      have hout : journalOutput host (sinceArg since) [⟨start - 1, line⟩] = [] := by
        rw [journalOutput, hshown]
        exact not_not.mp hsilent
      rw [if_neg (not_not.mpr hout), hdmesg hworks]
  · rename_i hjournal
    rw [if_neg hjournal, hdmesg hcovers]

theorem parse_readKernelAudit_nil (host : LogHost) (since : Int) (name : Text) :
    parseApparmorDenials (readKernelAudit host since []) name = [] := by
  have hnil : parseApparmorDenials [] name = [] := rfl
  have hjournal : journalOutput host (sinceArg since) [] = host.noEntries := by
    have hshown : shown host (sinceArg since) [] = [] := by
      unfold shown
      split <;> rfl
    rw [journalOutput, hshown]
    rfl
  have hdmesg : dmesgOutput host [] = [] := by
    unfold dmesgOutput
    split <;> rfl
  unfold readKernelAudit
  rw [hjournal, hdmesg]
  split_ifs
  · exact hnil
  · exact host.noEntries_silent name
  · exact hnil
  · exact hnil

/-- The audit window. -/
theorem auditWindow_iff (unicode : Unicode) (host : LogHost) (stamp : Option Text) (id : Text)
    (start : Nat) :
    (∀ faults path raw log,
      faults.readProfile = none →
      profileName raw = some (securityScanAppArmorProfileName unicode id) →
        collectAndAppendAppArmorRules unicode faults path (some raw)
            (readKernelAudit host (readAAStartedAt stamp) log) =
          appendAuditRulesToProfile faults path (some raw)
            (loggedRules unicode host stamp
              (securityScanAppArmorProfileName unicode id) log)) ∧
    (AuditWindow unicode host stamp
        (securityScanAppArmorProfileName unicode id) start ↔
      start = 0 ∨ CoversOnly host (readAAStartedAt stamp) start) ∧
    (start < 2 ^ 63 → readAAStartedAt (some (stampText start)) = start) := by
  refine ⟨fun faults path raw log hread hname =>
    collectAndAppendAppArmorRules_eq hread hname path _, ?_, readAAStartedAt_stamp⟩
  constructor
  · intro hwindow
    by_contra hopen
    obtain ⟨hstart, hcovers⟩ := not_or.mp hopen
    -- an event from just before the stamp, and the empty log
    have hname := isScanName_profileName unicode id
    have hquote := hname.not_quote
    have hlength : (securityScanAppArmorProfileName unicode id).length ≤ 200 := by
      rw [securityScanAppArmorProfileName_eq_take]
      exact List.length_take_le _ _
    have hbefore : [(⟨start - 1, deniedLine _ hquote⟩ : KernelEvent)].filter
        (start ≤ ·.time) = ([] : List KernelEvent).filter (start ≤ ·.time) := by
      refine List.filter_cons_of_neg (fun h => ?_)
      have hle := of_decide_eq_true h
      simp only at hle
      omega
    have hsame := hwindow _ _ hbefore
    rw [loggedRules, loggedRules, readKernelAudit_before hcovers,
      parse_readKernelAudit_nil] at hsame
    exact parse_deniedLine hquote hname.not_break hlength (start - 1)
      (buildAppArmorRulesFromDenials_eq_nil.mp hsame)
  · rintro (rfl | hcovers) log log' h
    · have hall : ∀ log : List KernelEvent, log.filter (0 ≤ ·.time) = log :=
        fun log => List.filter_eq_self.mpr (by simp)
      rw [hall, hall] at h
      rw [h]
    · rw [loggedRules, loggedRules, readKernelAudit_congr hcovers h]

def dmesgHost : LogHost where
  journalctl := false
  journalFails _ := false
  noEntries := []
  dmesg := true
  dmesgFails := false
  offset := 0
  noEntries_silent _ := rfl

def aheadHost : LogHost where
  journalctl := true
  journalFails _ := false
  noEntries := "-- No entries --\n".toList
  dmesg := true
  dmesgFails := false
  offset := 3600
  noEntries_silent name := by
    have hlines : (scanLines maxLine "-- No entries --\n".toList).filter
        (fun line => decide (Reports line)) = [] := by
      decide +kernel
    rw [parseApparmorDenials_eq, List.map_eq_nil_iff, eventLines,
      List.filter_eq_nil_iff]
    intro line hline hevent
    have hreports := (of_decide_eq_true hevent).1
    exact List.filter_eq_nil_iff.mp hlines line hline (decide_eq_true hreports)

def earlierEvent : KernelEvent where
  time := 999
  line :=
    "apparmor=\"DENIED\" profile=\"runc_scan_a\" name=\"/x\" requested_mask=\"r\"".toList

theorem earlierEvent_gives_rule :
    [earlierEvent].filter (1000 ≤ ·.time) =
        ([] : List KernelEvent).filter (1000 ≤ ·.time) ∧
      loggedRules Unicode.ascii dmesgHost (some (stampText 1000))
          "runc_scan_a".toList [earlierEvent] = ["  /x r,".toList] ∧
      loggedRules Unicode.ascii aheadHost (some (stampText 1000))
          "runc_scan_a".toList [earlierEvent] = ["  /x r,".toList] ∧
      loggedRules Unicode.ascii dmesgHost (some (stampText 1000))
          "runc_scan_a".toList [] = [] ∧
      loggedRules Unicode.ascii aheadHost (some (stampText 1000))
          "runc_scan_a".toList [] = [] := by
  have hrules : buildAppArmorRulesFromDenials Unicode.ascii
      (parseApparmorDenials (printLog [earlierEvent]) "runc_scan_a".toList) =
        ["  /x r,".toList] := by
    decide +kernel
  have hstamp : readAAStartedAt (some (stampText 1000)) = (1000 : Nat) :=
    readAAStartedAt_stamp (by decide)
  have hevent : ∀ host : LogHost, ¬ CoversOnly host (1000 : Nat) 1000 →
      readKernelAudit host (1000 : Nat) [earlierEvent] = printLog [earlierEvent] :=
    fun host hcovers => readKernelAudit_before hcovers _
  have hdmesg : ¬ CoversOnly dmesgHost (1000 : Nat) 1000 := by
    intro h
    cases h
  have hahead : ¬ CoversOnly aheadHost (1000 : Nat) 1000 := by
    rintro (h | ⟨-, h, -⟩)
    · cases h
    · exact absurd h (by decide)
  simp only [loggedRules, hstamp]
  refine ⟨rfl, ?_, ?_, ?_, ?_⟩
  · rw [hevent dmesgHost hdmesg, hrules]
  · rw [hevent aheadHost hahead, hrules]
  · rw [parse_readKernelAudit_nil]
    rfl
  · rw [parse_readKernelAudit_nil]
    rfl

end Window

end Runc.Scanner
