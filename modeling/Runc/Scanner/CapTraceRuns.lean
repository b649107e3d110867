import Runc.Scanner.CapTrace

/-!
# What the tracer hooks leave behind

The stop hook can end the tracer only if the pid file names it, and it does not
wait for SIGKILL to work.
-/

namespace Runc.Scanner

open Lib

def timeUp (oversleep : Nat → Nat) (turn elapsed : Nat) : Nat :=
  if elapsed < scanCapTraceStopTimeout then
    timeUp oversleep (turn + 1) (elapsed + (50 + oversleep turn))
  else elapsed
termination_by scanCapTraceStopTimeout - elapsed

theorem timeout_le_timeUp (oversleep : Nat → Nat) (turn elapsed : Nat) :
    scanCapTraceStopTimeout ≤ timeUp oversleep turn elapsed := by
  fun_induction timeUp oversleep turn elapsed with
  | case1 turn elapsed hbefore ih => exact ih
  | case2 turn elapsed hup => omega

theorem pollUntil_cases (there : Nat → Bool) (oversleep : Nat → Nat) (turn elapsed : Nat) :
    (∃ e, pollUntil there oversleep turn elapsed = (true, e) ∧ there e = false ∧
      e < scanCapTraceStopTimeout) ∨
    pollUntil there oversleep turn elapsed =
      (false, timeUp oversleep turn elapsed) := by
  fun_induction pollUntil there oversleep turn elapsed with
  | case1 turn elapsed hbefore hthere ih =>
    rw [timeUp, if_pos hbefore]
    exact ih
  | case2 turn elapsed hbefore hgone => exact .inl ⟨elapsed, rfl, by simpa using hgone, hbefore⟩
  | case3 turn elapsed hup =>
    rw [timeUp, if_neg hup]
    exact .inr rfl

section Stop

variable {env : TraceEnv} {w : StopWorld}

structure StopWorld.Succeeds (w : StopWorld) : Prop where
  readState : w.readState = none
  mkdirGenerated : w.mkdirGenerated = none
  readPid : w.readPid = none
  findProcess : w.findProcess = none
  term : w.term = none
  kill : w.kill = none
  teardown : w.teardown = none

def EndsInTime (env : TraceEnv) (w : StopWorld) : Prop :=
  (∃ d, env.tracer.term = some d ∧ d ≤ timeUp w.oversleep 0 0 + w.leaving) ∨
    env.tracer.kill ≤ w.leaving

def NamesTracer (env : TraceEnv) (pidFile : Option Text) : Prop :=
  pidFile.bind readPid = some env.tracer.pid

theorem signalTracer_ours (hw : w.Succeeds) {host : TraceHost} (halive : host.alive = true) :
    (signalTracer env w env.tracer.pid host).2.alive = false ↔ EndsInTime env w := by
  have hthere : ∀ e, host.there env w env.tracer.pid e =
      !env.tracer.term.any (· ≤ e) := by
    intro e
    simp [TraceHost.there, halive]
  have hup := timeout_le_timeUp w.oversleep 0 0
  unfold signalTracer
  simp only [halive, decide_true, Bool.true_and, Bool.true_or, Bool.not_true,
    Bool.false_eq_true, if_false, hw.term, if_true]
  rcases pollUntil_cases (host.there env w env.tracer.pid) w.oversleep 0 0 with
    ⟨e, hpoll, hgone, hbefore⟩ | hpoll
  · -- it was seen to be gone, so it heeded SIGTERM before the time was up
    rw [hpoll]
    rw [hthere] at hgone
    obtain ⟨d, hd, hle⟩ : ∃ d, env.tracer.term = some d ∧ d ≤ e := by
      simpa [Option.any_eq_true] using hgone
    exact iff_of_true rfl (.inl ⟨d, hd, by omega⟩)
  · rw [hpoll]
    simp only [hthere, Bool.not_not, hw.kill]
    -- the time is up and SIGKILL is sent
    cases hterm : env.tracer.term with
    | none =>
      by_cases hkill : env.tracer.kill ≤ w.leaving
      · simp [EndsInTime, hterm, TraceHost.gone, hkill]
      · simp [EndsInTime, hterm, hkill, halive]
    | some d =>
      by_cases hlate : d ≤ timeUp w.oversleep 0 0
      · simp [EndsInTime, hterm, hlate, TraceHost.gone]
        omega
      · by_cases hin : d ≤ timeUp w.oversleep 0 0 + w.leaving ∨ env.tracer.kill ≤ w.leaving
        · simp [EndsInTime, hterm, hlate, hin, TraceHost.gone]
        · simp [EndsInTime, hterm, hlate, hin, halive]

theorem gone_cases {b ours : Bool} (h : b = true → ours = true) (host : TraceHost) :
    (if b then host.gone else host) = host ∨
      (ours = true ∧ (if b then host.gone else host) = host.gone) := by
  cases b with
  | false => exact .inl rfl
  | true => exact .inr ⟨h rfl, rfl⟩

theorem signalTracer_cases (pid : Nat) (host : TraceHost) :
    (signalTracer env w pid host).2 = host ∨
      ((host.alive && decide (pid = env.tracer.pid)) = true ∧
        (signalTracer env w pid host).2 = host.gone) := by
  unfold signalTracer
  generalize (host.alive && decide (pid = env.tracer.pid)) = ours
  dsimp only
  split
  · exact .inl rfl
  · split
    · exact .inl rfl
    · split
      · exact gone_cases id host
      · split
        · exact gone_cases id host
        · split
          · exact gone_cases (by simp +contextual) host
          · refine gone_cases (fun h => ?_) host
            rcases Bool.or_eq_true_iff.mp h with h | h
            · exact (Bool.and_eq_true_iff.mp h).1
            · exact (Bool.and_eq_true_iff.mp h).1

theorem stopTracer_pinDir (host : TraceHost) : (stopTracer env w host).pinDir = host.pinDir := by
  unfold stopTracer
  split
  · split
    · exact (host.append_frame _ _).2.1
    · split
      · rfl
      · rename_i pid _ _ _
        rw [(TraceHost.append_frame _ _ _).2.1]
        rcases signalTracer_cases (w := w) pid (host.trace env.tracer.late) with
          h | ⟨-, h⟩
        · rw [h, (host.trace_frame _).2.1]
        · rw [h, TraceHost.gone, (host.trace_frame _).2.1]
  · rfl

theorem stopTracer_alive (hw : w.Succeeds) (host : TraceHost) :
    (stopTracer env w host).alive = false ↔
      host.alive = false ∨ (NamesTracer env host.pidFile ∧ EndsInTime env w) := by
  unfold stopTracer NamesTracer
  rw [hw.readPid]
  cases hfile : host.pidFile with
  | none => simp
  | some raw =>
    simp only [Option.bind_some]
    cases hpid : readPid raw with
    | none => simp [(host.append_frame _ _).2.2]
    | some pid =>
      have htrace := host.trace_frame env.tracer.late
      simp only [hw.findProcess, (TraceHost.append_frame _ _ _).2.2]
      by_cases hours : host.alive = true ∧ pid = env.tracer.pid
      · obtain ⟨halive, rfl⟩ := hours
        rw [signalTracer_ours hw (by rw [htrace.2.2, halive])]
        simp [halive]
      · rcases signalTracer_cases (w := w) pid (host.trace env.tracer.late) with
          h | ⟨hsame, -⟩
        · rw [h, htrace.2.2, Option.some.injEq, Bool.eq_false_iff]
          tauto
        · rw [htrace.2.2, Bool.and_eq_true, decide_eq_true_iff] at hsame
          exact absurd hsame hours

def TraceEnv.HasMap (env : TraceEnv) : Prop :=
  trimSpace env.containerID ≠ [] ∧ trimSpace env.bpftool ≠ []

instance (env : TraceEnv) : Decidable env.HasMap :=
  inferInstanceAs (Decidable (_ ∧ _))

theorem stopTeardown_spec (hw : w.Succeeds) (host : TraceHost) :
    (stopTeardown env w host).alive = host.alive ∧
      ((stopTeardown env w host).pinDir = false ↔
        env.HasMap ∨ host.pinDir = false) := by
  unfold stopTeardown
  rw [hw.teardown]
  split
  · rename_i hmissing
    refine ⟨rfl, ?_⟩
    simp only [TraceEnv.HasMap]
    tauto
  · rename_i hknown
    refine ⟨rfl, iff_of_true rfl (.inl ?_)⟩
    simpa [TraceEnv.HasMap] using hknown

theorem stop_spec (hw : w.Succeeds) (host : TraceHost) :
    (((runScanCapTraceStop env w).exec host).2.alive = false ↔
      host.alive = false ∨ (NamesTracer env host.pidFile ∧ EndsInTime env w)) ∧
    (((runScanCapTraceStop env w).exec host).2.pinDir = false ↔
      env.HasMap ∨ host.pinDir = false) := by
  have hrun : ((runScanCapTraceStop env w).exec host).2 =
      { stopTeardown env w (stopTracer env w host) with
        pidFile := if w.removePid.isSome then
            (stopTeardown env w (stopTracer env w host)).pidFile else none } := by
    simp only [runScanCapTraceStop, attempt, hw.readState, hw.mkdirGenerated]
    rfl
  have hframe : (stopTracer env w host).pinDir = host.pinDir := stopTracer_pinDir host
  obtain ⟨halive, hpin⟩ := stopTeardown_spec hw (stopTracer env w host)
  rw [hrun]
  constructor
  · rw [← stopTracer_alive hw host, ← halive]
  · rw [← hframe]
    exact hpin

end Stop

section Start

variable {env : TraceEnv} {w : StartWorld}

structure Spawns (env : TraceEnv) (w : StartWorld) : Prop where
  readState : w.readState = none
  mkdirGenerated : w.mkdirGenerated = none
  missing : env.missing = none
  openLog : w.openLog = none
  cgroup : ∃ found, w.cgroup = .ok found
  mkdirPin : w.mkdirPin = none
  createMap : w.createMap = none
  addCgroup : w.addCgroup = none
  spawn : w.spawn = none

theorem exec_attempt {σ : Type} (fault : Fault) (context : String) (s : σ) :
    (attempt fault context).exec s =
      (match fault with
        | none => .ok ()
        | some err => .error (context ++ err), s) := by
  cases fault <;> rfl

theorem spawnTracer_spec (env : TraceEnv) (w : StartWorld) (host : TraceHost) :
    (((spawnTracer env w).exec host).1 = .ok () ∧
        ((spawnTracer env w).exec host).2.alive = true ∧
        ((spawnTracer env w).exec host).2.pidFile = host.pidFile ∧
        w.mkdirPin = none ∧ w.createMap = none ∧ w.addCgroup = none ∧
        w.spawn = none) ∨
      (∃ err, ((spawnTracer env w).exec host).1 = .error err ∧
        ((spawnTracer env w).exec host).2.alive = host.alive ∧
        ¬ (w.mkdirPin = none ∧ w.createMap = none ∧ w.addCgroup = none ∧
          w.spawn = none)) := by
  have hteardown : ∀ (fault : Fault) (h : TraceHost), (h.teardown fault).alive = h.alive := by
    intro fault h
    cases fault <;> rfl
  simp only [spawnTracer, Program.onError, Program.exec_bind, Program.exec_tryCatch,
    Program.exec_modify, Program.exec_throw, exec_attempt]
  cases hmkdir : w.mkdirPin with
  | some err => exact .inr ⟨_, rfl, rfl, by simp⟩
  | none =>
    cases hcreate : w.createMap with
    | some err => exact .inr ⟨_, rfl, rfl, by simp⟩
    | none =>
      cases hadd : w.addCgroup with
      | some err => exact .inr ⟨_, rfl, hteardown _ _, by simp⟩
      | none =>
        cases hspawn : w.spawn with
        | some err => exact .inr ⟨_, rfl, hteardown _ _, by simp⟩
        | none =>
          obtain ⟨hpid, -, halive⟩ := TraceHost.trace_frame env.tracer.early
            { host with pinDir := true, alive := true }
          exact .inl ⟨rfl, halive, hpid, rfl, rfl, rfl, rfl⟩

theorem recordPid_spec (env : TraceEnv) (w : StartWorld) (host : TraceHost) :
    ((recordPid env w).exec host).2.alive = host.alive ∧
      ((recordPid env w).exec host).2.pidFile =
        w.writePid.leaves host.pidFile env.tracer.pidLine := by
  simp only [recordPid, Program.exec_bind, Program.exec_modify, exec_attempt]
  cases w.writePid.fault with
  | some err => exact ⟨rfl, rfl⟩
  | none =>
    obtain ⟨hpid, -, halive⟩ := TraceHost.append_frame w.logTracing
      (.tracing env.tracer.pid env.pinPath)
      { host with pidFile := w.writePid.leaves host.pidFile env.tracer.pidLine }
    exact ⟨halive, hpid⟩

structure StartLeaves
    (env : TraceEnv)
    (w : StartWorld)
    (host final : TraceHost) : Prop where
  alive : final.alive = true ↔ Spawns env w
  pidFile : Spawns env w →
    final.pidFile = w.writePid.leaves host.pidFile env.tracer.pidLine
  pinDir : env.missing ≠ none → final.pinDir = host.pinDir

theorem StartLeaves.of_not_spawns {host final : TraceHost} (halive : final.alive = false)
    (hnot : ¬ Spawns env w) (hpin : env.missing ≠ none → final.pinDir = host.pinDir) :
    StartLeaves env w host final :=
  ⟨by simp [halive, hnot], fun h => absurd h hnot, hpin⟩

theorem start_spec {host : TraceHost} (hfresh : host.alive = false) :
    StartLeaves env w host ((runScanCapTraceStart env w).exec host).2 := by
  simp only [runScanCapTraceStart, Program.exec_bind, exec_attempt, Program.exec_modify]
  cases hstate : w.readState with
  | some err => exact .of_not_spawns hfresh (fun h => by simp [h.readState] at hstate) fun _ => rfl
  | none =>
  cases hmkdir : w.mkdirGenerated with
  | some err =>
    exact .of_not_spawns hfresh (fun h => by simp [h.mkdirGenerated] at hmkdir) fun _ => rfl
  | none =>
  cases hmissing : env.missing with
  | some err => exact .of_not_spawns hfresh (fun h => by simp [h.missing] at hmissing) fun _ => rfl
  | none =>
  cases hopen : w.openLog with
  | some err => exact .of_not_spawns hfresh (fun h => by simp [h.openLog] at hopen) fun _ => rfl
  | none =>
  cases hcgroup : w.cgroup with
  | error err =>
    refine .of_not_spawns hfresh (fun h => ?_) fun _ => rfl
    obtain ⟨found, hfound⟩ := h.cgroup
    simp [hfound] at hcgroup
  | ok found =>
  obtain ⟨cgPath, cgID⟩ := found
  simp only [Program.exec_bind, Program.exec_modify]
  generalize hlogged : TraceHost.append w.logStart _ _ = logged
  obtain ⟨hpid, -, halive⟩ := hlogged ▸ TraceHost.append_frame w.logStart
    (.started w.now env.pid.toNat cgPath cgID (trimSpace env.capableBin))
    { host with log := some (host.log.getD []) }
  have hspec := spawnTracer_spec env w logged
  revert hspec
  rcases (spawnTracer env w).exec logged with ⟨r | r, spawned⟩
  · rintro (⟨hok, -⟩ | ⟨err, -, hsame, hnot⟩)
    · cases hok
    · refine .of_not_spawns ?_ (fun h => ?_) fun h => absurd hmissing h
      · rw [← hfresh, ← halive]
        exact hsame
      · exact hnot ⟨h.mkdirPin, h.createMap, h.addCgroup, h.spawn⟩
  · rintro (⟨-, hspawned, hsame, hmap, hcreate, hadd, hspawn⟩ | ⟨err, herr, -⟩)
    · have hspawns : Spawns env w :=
        ⟨hstate, hmkdir, hmissing, hopen, ⟨_, hcgroup⟩, hmap, hcreate, hadd, hspawn⟩
      obtain ⟨hrecorded, hfile⟩ := recordPid_spec env w spawned
      refine ⟨iff_of_true ?_ hspawns, fun _ => ?_, fun h => absurd hmissing h⟩
      · rw [← hspawned]
        exact hrecorded
      · rw [← hpid, ← hsame]
        exact hfile
    · cases herr

end Start

theorem readPid_pidLine (tracer : Tracer) : readPid tracer.pidLine = some tracer.pid := by
  have hle := tracer.pid_le
  have hpos := tracer.pid_pos
  have hatoi : atoi (trimSpace tracer.pidLine) = some (tracer.pid : Int) :=
    atoi_numberLine (by omega)
  unfold readPid
  rw [hatoi]
  simp
  omega

theorem missing_of_not_hasMap {env : TraceEnv} (h : ¬ env.HasMap) : env.missing ≠ none := by
  unfold TraceEnv.missing
  split
  · simp
  · split
    · simp
    · split
      · simp
      · tauto

theorem whileRunning_frame (env : TraceEnv) (host : TraceHost) :
    (whileRunning env host).pidFile = host.pidFile ∧
      (whileRunning env host).pinDir = host.pinDir ∧
      ((whileRunning env host).alive = false ↔
        host.alive = false ∨ env.tracer.quits = true) := by
  obtain ⟨hpid, hpin, halive⟩ := host.trace_frame env.tracer.running
  unfold whileRunning
  cases hquits : env.tracer.quits with
  | false => simp [hpid, hpin, halive]
  | true => simp [TraceHost.gone, hpid, hpin]

section Run

variable (env : TraceEnv) (start : StartWorld)

theorem capTraceRun_alive_iff {stop : StopWorld} (hstop : stop.Succeeds) {host : TraceHost}
    (hfresh : host.alive = false) :
    (capTraceRun env start stop host).alive = false ↔
      ¬ Spawns env start ∨ env.tracer.quits = true ∨
        (NamesTracer env (start.writePid.leaves host.pidFile env.tracer.pidLine) ∧
          EndsInTime env stop) := by
  have hstart : StartLeaves env start host _ := start_spec hfresh
  obtain ⟨hfile, -, halive⟩ := whileRunning_frame env ((runScanCapTraceStart env start).exec host).2
  refine (stop_spec hstop _).1.trans ?_
  rw [halive, hfile]
  by_cases hspawns : Spawns env start
  · rw [hstart.pidFile hspawns, hstart.alive.mpr hspawns]
    simp [hspawns]
  · have hnone := (not_congr hstart.alive).mpr hspawns
    simp [hspawns, hnone]

theorem capTraceRun_pinDir_iff {stop : StopWorld} (hstop : stop.Succeeds) {host : TraceHost}
    (hfresh : host.alive = false) :
    (capTraceRun env start stop host).pinDir = false ↔
      env.HasMap ∨ host.pinDir = false := by
  have hstart : StartLeaves env start host _ := start_spec hfresh
  obtain ⟨-, hpin, -⟩ := whileRunning_frame env ((runScanCapTraceStart env start).exec host).2
  refine (stop_spec hstop _).2.trans ?_
  rw [hpin]
  by_cases hmap : env.HasMap
  · simp [hmap]
  · rw [hstart.pinDir (missing_of_not_hasMap hmap)]

/-- Nothing is left behind. -/
theorem capTrace_stopped_iff {stop : StopWorld} (hstop : stop.Succeeds) {host : TraceHost}
    (hfresh : host.alive = false) :
    (capTraceRun env start stop host).alive = false ∧
        (capTraceRun env start stop host).pinDir = false ↔
      (¬ Spawns env start ∨ env.tracer.quits = true ∨
        (NamesTracer env (start.writePid.leaves host.pidFile env.tracer.pidLine) ∧
          EndsInTime env stop)) ∧
      (env.HasMap ∨ host.pinDir = false) :=
  and_congr (capTraceRun_alive_iff env start hstop hfresh)
    (capTraceRun_pinDir_iff env start hstop hfresh)

end Run

def midnight : Stamp where
  text := ['0', '0', ':', '0', '0', ':', '0', '0', 'Z']
  plain := forall_mem_of_all (by decide)

def capableBin : Text := ['c', 'a', 'p', 'a', 'b', 'l', 'e']

def bpftool : Text := ['b', 'p', 'f', 't', 'o', 'o', 'l']

def hookEnv (id : Text) (tracer : Tracer) : TraceEnv where
  bundle := "/bundle"
  pid := 100
  capableBin := capableBin
  bpftool := bpftool
  containerID := id
  quote := fun raw => raw
  tracer := tracer

def web : Text := ['w', 'e', 'b']

def tracerAfter (term : Option Nat) : Tracer where
  pid := 4242
  pid_pos := by omega
  pid_le := by omega
  term := term
  kill := 10

def cgroupOf (id : Text) : Text :=
  ['/', 'c', 'g', '/'] ++ id

def startOf (id : Text) (writePid : WriteOutcome) : StartWorld where
  cgroup := .ok (cgroupOf id, 77)
  writePid := writePid
  now := midnight

theorem startOf_spawns {id : Text} (hid : trimSpace id ≠ []) (tracer : Tracer)
    (writePid : WriteOutcome) : Spawns (hookEnv id tracer) (startOf id writePid) := by
  have hbin : trimSpace capableBin ≠ [] := by decide
  have htool : trimSpace bpftool ≠ [] := by decide
  refine ⟨rfl, rfl, ?_, rfl, ⟨_, rfl⟩, rfl, rfl, rfl, rfl⟩
  simp [TraceEnv.missing, hookEnv, hbin, htool, hid]

theorem capTrace_stopped_web : (capTraceRun (hookEnv web (tracerAfter (some 30))) (startOf web .ok)
        { now := midnight } {}).alive = false ∧
      (capTraceRun (hookEnv web (tracerAfter (some 30))) (startOf web .ok)
        { now := midnight } {}).pinDir = false := by
  have hup : 2000 ≤ timeUp ({ now := midnight } : StopWorld).oversleep 0 0 :=
    timeout_le_timeUp _ 0 0
  have hfile := readPid_pidLine (tracerAfter (some 30))
  refine (capTrace_stopped_iff _ _ ⟨rfl, rfl, rfl, rfl, rfl, rfl, rfl⟩ rfl).mpr
    ⟨.inr (.inr ⟨hfile, .inl ⟨30, rfl, ?_⟩⟩), .inl (by decide)⟩
  exact Nat.le_add_right_of_le (Nat.le_trans (by omega) hup)

theorem tracer_left_running : (capTraceRun (hookEnv web (tracerAfter (some 30)))
        (startOf web (.openFailed "no space left on device")) { now := midnight }
        {}).alive = true ∧
      (capTraceRun (hookEnv web (tracerAfter none)) (startOf web .ok)
        { now := midnight } {}).alive = true := by
  have hstop : StopWorld.Succeeds { now := midnight } := ⟨rfl, rfl, rfl, rfl, rfl, rfl, rfl⟩
  constructor
  · rw [← Bool.not_eq_false, capTraceRun_alive_iff _ _ hstop rfl]
    rintro (hnot | hquits | ⟨hnamed, -⟩)
    · exact hnot (startOf_spawns (by decide) _ _)
    · cases hquits
    · cases hnamed
  · rw [← Bool.not_eq_false, capTraceRun_alive_iff _ _ hstop rfl]
    rintro (hnot | hquits | ⟨-, ⟨d, hd, -⟩ | hkill⟩)
    · exact hnot (startOf_spawns (by decide) _ _)
    · cases hquits
    · cases hd
    · exact absurd hkill (by decide)

def adminID : Text :=
  ['C', 'A', 'P', '_', 'S', 'Y', 'S', '_', 'A', 'D', 'M', 'I', 'N']

def silentTracer : Tracer where
  pid := 4242
  pid_pos := by omega
  pid_le := by omega
  quits := true
  term := some 0
  kill := 0

def adminLog : List TraceEntry :=
  [.runc (.started midnight 100 (cgroupOf adminID) 77 capableBin),
    .runc (.tracing 4242 (hookEnv adminID silentTracer).pinPath),
    .runc (.stopping midnight (.termFailed 4242 processDone.toList))]

theorem container_id_observed :
    validateID adminID = true ∧
      (capTraceRun (hookEnv adminID silentTracer) (startOf adminID .ok)
        { now := midnight } {}).log = some adminLog ∧
      tracerOutput adminLog = [] ∧
      adminID ∈ parseCapsFromFile (some (render adminLog)) := by
  refine ⟨by decide, rfl, rfl, mem_parseCapsFromFile.mpr ?_⟩
  have hname : Observed adminID adminID := by decide
  have hquoted : Observed adminID (cgroupOf adminID) :=
    (observed_lead (by decide) adminID).mpr hname
  have hline := (observed_text (.started midnight 100 (cgroupOf adminID) 77 capableBin)).mpr
      ⟨cgroupOf adminID, List.mem_cons_self, hquoted⟩
  exact (observed_render adminLog).mpr ⟨_, List.mem_cons_self, hline⟩

end Runc.Scanner
