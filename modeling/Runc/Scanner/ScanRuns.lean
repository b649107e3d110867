import Runc.Scanner.StartOrder

/-!
# Repeated scans of one bundle

A bundle is scanned again and again; between two scans the operator may replace
config.json, for instance by the backup.
-/

namespace Runc.Scanner

open Lib

structure Scan where
  opts : Options
  env : RunEnv

structure Scan.Completes (scan : Scan) (spec : Spec) : Prop where
  securityScan : scan.opts.securityScan = true
  reaches : ∃ terminal, spec.terminal = some terminal ∧
    ReachesFinalize scan.opts scan.env terminal

def Scan.apply (unicode : Unicode) (scan : Scan) (b : Bundle) : Bundle :=
  (startContainer unicode scan.opts scan.env b).world.bundle

inductive Scanned (unicode : Unicode) (b : Bundle) : List Scan → Bundle → Prop where
  | fresh : Scanned unicode b [] b
  | scan {scans : List Scan} {b' : Bundle} {spec : Spec} (next : Scan)
      (h : Scanned unicode b scans b')
      (hspec : b'.spec = some spec)
      (hcompletes : next.Completes spec) :
      Scanned unicode b (scans ++ [next]) (next.apply unicode b')
  | edit {scans : List Scan} {b' : Bundle} (config : ConfigJson)
      (h : Scanned unicode b scans b') :
      Scanned unicode b scans { b' with config := some config }

section Step

variable {unicode : Unicode} {scan : Scan} {b : Bundle} {spec : Spec}

theorem Scan.Completes.appended (h : scan.Completes spec) : scan.env.appended.head? = some '-' := by
  obtain ⟨process, -, hreach⟩ := h.reaches
  obtain ⟨line, hstart⟩ := hreach.runner.start
  rw [RunEnv.appended, hstart]
  rfl

theorem Scan.Completes.appended_not_word (h : scan.Completes spec) :
    scan.env.appended.head?.any isWord = false := by
  rw [h.appended]
  rfl

def Scan.afterRunner (unicode : Unicode) (scan : Scan) (runcBin : Text)
    (spec : Spec) (b : Bundle) : Bundle :=
  (runnerForward unicode scan.opts scan.env
    (scanPoststop scan.env.scan runcBin spec)
    { bundle := record scan.env
        (withTemplate unicode scan.opts.id b) }).world.bundle

theorem Scan.Completes.apply_finalize (unicode : Unicode) (h : scan.Completes spec)
    (hspec : b.spec = some spec) :
    ∃ runcBin, scan.apply unicode b =
      (finalizeSecurityScan scan.env.finalize true .run
        (scan.afterRunner unicode runcBin spec b)).bundle := by
  obtain ⟨terminal, hterminal, hreach⟩ := h.reaches
  obtain ⟨process, hprocess, rfl⟩ := Option.map_eq_some_iff.mp hterminal
  obtain ⟨runcBin, hrun⟩ := startContainer_reaches unicode h.securityScan hspec hprocess hreach
  refine ⟨runcBin, ?_⟩
  rw [Scan.apply, hrun, finishRun, runnerForward_err hreach.runner.forward, h.securityScan]
  dsimp only
  split <;> rfl

theorem Scan.afterRunner_same (unicode : Unicode) (scan : Scan) (runcBin : Text) (spec : Spec)
    (b : Bundle) : SameFiles (record scan.env b) (scan.afterRunner unicode runcBin spec b) := by
  have htemplate : SameFiles (record scan.env b)
      (record scan.env (withTemplate unicode scan.opts.id b)) :=
    ⟨_, rfl⟩
  exact htemplate.trans (runnerForward_same _)

theorem Scan.afterRunner_spec (unicode : Unicode) (runcBin : Text) (hspec : b.spec = some spec) :
    (scan.afterRunner unicode runcBin spec b).spec = some spec := by
  obtain ⟨file, hfile⟩ := scan.afterRunner_same unicode runcBin spec b
  rw [hfile]
  exact hspec

theorem finalize_artefacts (faults : FinalizeFaults) (securityScan : Bool) (action : CtAct)
    (b : Bundle) :
    (finalizeSecurityScan faults securityScan action b).bundle.capTraceLog =
        b.capTraceLog ∧
      (finalizeSecurityScan faults securityScan action b).bundle.seccompJson =
        b.seccompJson := by
  unfold finalizeSecurityScan
  split
  · exact ⟨rfl, rfl⟩
  · cases hprepare : prepare faults b with
    | error err => exact ⟨rfl, rfl⟩
    | ok b1 =>
      obtain ⟨backup, rfl⟩ := prepare_frame hprepare
      dsimp only
      split
      · exact ⟨rfl, rfl⟩
      · split
        · exact ⟨rfl, rfl⟩
        · split <;> exact ⟨rfl, rfl⟩

theorem Scan.Completes.artefacts (unicode : Unicode) (h : scan.Completes spec)
    (hspec : b.spec = some spec) :
    (scan.apply unicode b).capTraceLog =
        some (b.capTraceLog.getD [] ++ scan.env.appended) ∧
      (scan.apply unicode b).seccompJson =
        scan.env.recorded.seccomp.or b.seccompJson := by
  obtain ⟨runcBin, hbundle⟩ := h.apply_finalize unicode hspec
  obtain ⟨file, hfile⟩ := scan.afterRunner_same unicode runcBin spec b
  rw [hfile] at hbundle
  have happended : scan.env.appended ≠ [] := by
    intro hnil
    have hhead := h.appended
    rw [hnil] at hhead
    cases hhead
  obtain ⟨htrace, hseccomp⟩ := finalize_artefacts scan.env.finalize true .run
    { record scan.env b with apparmorProfile := file }
  rw [hbundle, htrace, hseccomp]
  refine ⟨?_, rfl⟩
  simp [record, happended]

theorem Scan.Completes.apply_spec (unicode : Unicode) (h : scan.Completes spec)
    (hspec : b.spec = some spec) (hfinalize : scan.env.finalize = {}) :
    ∃ spec', (scan.apply unicode b).spec = some spec' ∧
      Matches (currentCaps spec').names
        (b.capTraceLog.getD [] ++ scan.env.appended) ∧
      spec'.seccomp =
        (usableSeccomp (scan.env.recorded.seccomp.or b.seccompJson)).or
          spec.seccomp ∧
      ∀ terminal, spec.terminal = some terminal →
        spec'.terminal = some terminal := by
  obtain ⟨runcBin, hbundle⟩ := h.apply_finalize unicode hspec
  obtain ⟨htrace, hseccomp⟩ := h.artefacts unicode hspec
  obtain ⟨htrace', hseccomp'⟩ := finalize_artefacts scan.env.finalize true .run
    (scan.afterRunner unicode runcBin spec b)
  have hspec' := scan.afterRunner_spec unicode runcBin hspec
  rw [hbundle, htrace'] at htrace
  rw [hbundle, hseccomp'] at hseccomp
  have hfinal := finalize_spec hspec'
  rw [htrace, hseccomp, Option.getD_some] at hfinal
  rw [hbundle, hfinalize]
  exact hfinal

end Step

section History

variable {unicode : Unicode} {b b' : Bundle} {scans : List Scan}

theorem Scanned.trace (h : Scanned unicode b scans b') (n : Text) :
    Observed n (b'.capTraceLog.getD []) ↔
      Observed n (b.capTraceLog.getD []) ∨
        ∃ scan ∈ scans, Observed n scan.env.appended := by
  induction h with
  | fresh => simp
  | scan next h hspec hcompletes ih =>
    rw [(hcompletes.artefacts unicode hspec).1, Option.getD_some,
      observed_append hcompletes.appended_not_word, ih]
    simp only [List.mem_append, List.mem_singleton, or_and_right, exists_or,
      exists_eq_left, or_assoc]
  | edit config h ih => exact ih

def lastSeccomp (file : Option SeccompJson) (scans : List Scan) : Option SeccompJson :=
  scans.foldl (fun file scan => scan.env.recorded.seccomp.or file) file

theorem Scanned.seccomp (h : Scanned unicode b scans b') :
    b'.seccompJson = lastSeccomp b.seccompJson scans := by
  induction h with
  | fresh => rfl
  | scan next h hspec hcompletes ih =>
    rw [(hcompletes.artefacts unicode hspec).2, ih]
    simp [lastSeccomp]
  | edit config h ih => exact ih

end History

def OwnRecords (unicode : Unicode) (scan : Scan) (b : Bundle) (spec : Spec) : Prop :=
  ∃ spec', (scan.apply unicode b).spec = some spec' ∧
    Matches (currentCaps spec').names scan.env.appended ∧
    spec'.seccomp = (usableSeccomp scan.env.recorded.seccomp).or spec.seccomp

theorem matches_appended {names : List Text} {old new : Text} (hnew : new.head?.any isWord = false)
    (h : Matches names (old ++ new)) :
    Matches names new ↔ ∀ n, Observed n old → Observed n new := by
  constructor
  · intro hown n hn
    rw [← hown n, h n, observed_append hnew]
    exact Or.inl hn
  · intro hsub n
    rw [h n, observed_append hnew]
    exact ⟨fun hn => hn.elim (hsub n) id, Or.inr⟩

theorem seccomp_own_iff {file old : Option SeccompJson} {current : Option LinuxSeccomp} :
    (usableSeccomp (file.or old)).or current = (usableSeccomp file).or current ↔
      (file = none → ∀ sec, usableSeccomp old = some sec → current = some sec) := by
  cases file with
  | some file => simp
  | none =>
    rw [Option.none_or, show usableSeccomp none = none from rfl, Option.none_or]
    cases hold : usableSeccomp old with
    | none => simp
    | some sec => simp [eq_comm]

def attachedScan (startLine : Text) (recorded : Recorded) : Scan where
  opts := { id := "web".toList }
  env := { start := .started startLine, recorded := recorded }

theorem attachedScan_completes (startLine : Text) (recorded : Recorded) {spec : Spec}
    (hspec : spec.terminal = some false) : (attachedScan startLine recorded).Completes spec where
  securityScan := rfl
  reaches := by
    refine ⟨false, hspec, rfl, rfl, rfl, List.cons_ne_nil _ _, ⟨_, rfl⟩, rfl, rfl, rfl, ?_⟩
    exact ⟨rfl, rfl, rfl, Or.inl rfl, rfl, fun _ => rfl, ⟨_, rfl⟩, rfl,
      fun _ => rfl, Or.inr ⟨0, rfl⟩⟩

def traceScan (traced : Text) (seccomp : Option SeccompJson) : Scan :=
  attachedScan "pid=4242 cgroup=/web id=77 via capable-bpfcc".toList
    { traced := traced, seccomp := seccomp }

theorem traceScan_completes (traced : Text) (seccomp : Option SeccompJson) {spec : Spec}
    (hspec : spec.terminal = some false) : (traceScan traced seccomp).Completes spec :=
  attachedScan_completes _ _ hspec

def freshBundle : Bundle :=
  { dir := "/bundle", config := some (.marshalled appSpec) }

def sysAdminLine : Text :=
  "12:00:02  1000   4242   app   0   CAP_SYS_ADMIN   1\n".toList

def seccompFile : SeccompJson :=
  ⟨"\x7b\x7d".toList, .ok { defaultAction := "SCMP_ACT_ERRNO".toList }⟩

def scannedBundle : Bundle :=
  (traceScan sysAdminLine (some seccompFile)).apply Unicode.ascii freshBundle

end Runc.Scanner
