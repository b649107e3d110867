import Runc.Init.SyncInvariant

/-!
# Safety of the sync socket

What the invariants say about every interleaving of `runc init` and its parent,
with failures on either side at any step.
-/

namespace Runc.Init

open Lib

def Parent.rank (config : Config) : Parent → Nat
  | .returned _ | .dead => 0
  | .shutdown _ => 1
  | .reading => 2
  | .sendSeccompState => 3
  | .writeMountFd _ | .writeRun | .writeHooksDone => 3
  | .mountRequest _ | .writeSeccompDone | .updateState => 4
  | .getSeccompFd | .setupRlimits => 5
  | .runHooks todo => todo.length + 4
  | .setCgroups => config.runtimeHooks.length + 5

def parentMeasure (config : Config) (s : State) : Nat :=
  s.childToParent.length * (config.runtimeHooks.length + 6) +
    s.parent.rank config

theorem dispatch_rank_lt (config : Config) (sync : SyncT) (s : State) :
    (dispatch config sync s).parent.rank config <
      config.runtimeHooks.length + 6 := by
  cases dispatch_cases config sync s with
  | begins hbegins _ h =>
    rw [h]
    cases hbegins <;> simp [State.goParent, Parent.rank]
  | ready _ h =>
    rw [h]
    simp [State.goParent, Parent.rank]
  | fail h =>
    rw [h]
    simp [State.goParent, Parent.rank]

theorem parentStep_measure_lt {config : Config} {o : Outcome} {s s' : State}
    (hstep : parentStep config o s = some s') :
    parentMeasure config s' < parentMeasure config s := by
  cases parentStep_cases hstep with
  | @receive sync rest hs hqueue h =>
    subst h
    have hrank := dispatch_rank_lt config sync { s with childToParent := rest }
    have hframe := (dispatch_frame config sync { s with childToParent := rest }).2.1
    rw [parentMeasure, parentMeasure, hframe, hqueue, List.length_cons, Nat.succ_mul]
    show rest.length * _ + _ < _
    omega
  | eof hs _ _ h =>
    subst h
    simp [parentMeasure, State.goParent, hs, Parent.rank]
  | quiet hs hquiet h =>
    subst h
    cases hquiet <;> simp [parentMeasure, State.goParent, hs, Parent.rank]
  | reply hs hreply _ h =>
    subst h
    cases hreply <;> simp [parentMeasure, State.goParent, hs, Parent.rank]
  | fail hs h =>
    cases hp : s.parent <;>
      simp_all [parentMeasure, State.parentFail, State.goParent, Parent.rank, Parent.serving]
  | finish hs _ h =>
    subst h
    simp [parentMeasure, State.goParent, hs, Parent.rank]

theorem parentStep_isSome (config : Config) {s : State} (hopen : s.parentOpen = true)
    (hreading : s.parent = .reading → s.childToParent ≠ []) (o : Outcome) (hok : o.ok = true) :
    ∃ s', parentStep config o s = some s' := by
  cases hp : s.parent with
  | reading =>
    cases hqueue : s.childToParent with
    | nil => exact absurd hqueue (hreading hp)
    | cons sync rest => exact ⟨_, by simp only [parentStep, hp, hok, hqueue, recv_cons]; rfl⟩
  | runHooks todo => cases todo <;> exact ⟨_, by simp only [parentStep, hp]; rfl⟩
  | returned | dead => simp [State.parentOpen, hp] at hopen
  | _ => exact ⟨_, by simp only [parentStep, hp]; rfl⟩

theorem TalkInv.not_stuck {config : Config} {s : State} (hinv : TalkInv s)
    {op : ChildOp} {ops : List ChildOp} (hs : s.child = .awaiting op ops) :
    (∃ sync, s.parentToChild = [sync] ∧ Answers op sync) ∨
      (s.parentToChild = [] ∧ s.parentOpen = false) ∨
      (s.parentToChild = [] ∧
        ∀ o : Outcome, o.ok = true → ∃ s', parentStep config o s = some s') := by
  by_cases hopen : s.parentOpen = true
  · have hmoves := parentStep_isSome config hopen
    obtain ⟨child, parent, sent, replies, seen, log⟩ := s
    subst hs
    cases hinv with
    | asked => exact .inr (.inr ⟨rfl, hmoves (by simp)⟩)
    | served h =>
      refine .inr (.inr ⟨rfl, hmoves ?_⟩)
      intro hreading
      simp only at hreading
      rw [hreading] at h
      cases h
    | answered _ hreply => exact .inl ⟨_, rfl, hreply⟩
    | abandoned _ h =>
      refine .inr (.inr ⟨rfl, hmoves ?_⟩)
      intro hreading
      simp only at hreading
      rw [hreading] at h
      cases h
  · obtain ⟨child, parent, sent, replies, seen, log⟩ := s
    subst hs
    cases hinv with
    | asked | served | abandoned => exact .inr (.inl ⟨rfl, by simpa using hopen⟩)
    | answered _ hreply => exact .inl ⟨_, rfl, hreply⟩

theorem OrderInv.create_hooks {config : Config} {s : State} (hinv : OrderInv config s) (i : Nat) :
    Precedes (HooksDone config) (.createContainerHook i) s.log := by
  intro before after hlog
  obtain ⟨b₁, b₂, hsplit⟩ := List.append_of_mem (hinv.create i before after hlog)
  have hdone := hinv.hooks b₁ (b₂ ++ .createContainerHook i :: after) (by rw [hlog, hsplit]; simp)
  rw [hsplit]
  exact hdone.append _

/-- The sync socket. -/
theorem initSync_safe (config : Config) (s : State) (h : (initSync config).Reachable s) :
    (∀ type reply, .childGot type reply ∈ s.log → reply = replyType type) ∧
    (∀ op ops, s.child = .awaiting op ops →
      (∃ sync, s.parentToChild = [sync] ∧ Answers op sync) ∨
      (s.parentToChild = [] ∧ s.parentOpen = false) ∨
      (s.parentToChild = [] ∧
        ∀ o : Outcome, o.ok = true → ∃ s', parentStep config o s = some s')) ∧
    (∀ o s', parentStep config o s = some s' →
      parentMeasure config s' < parentMeasure config s) ∧
    Precedes (Saved config) (.parentSent .procRun) s.log ∧
    Precedes (HooksDone config) (.childPassed .procHooks) s.log ∧
    (∀ i, Precedes (HooksDone config) (.createContainerHook i) s.log) ∧
    (s.parent = .returned true →
      .parentReceived .procReady ∈ s.log ∧
        .childReported ∉ s.log ∧ .parentFailed ∉ s.log) := by
  have hinv := initSync_inv h
  refine ⟨hinv.order.got, fun op ops hs => hinv.talk.not_stuck hs,
    fun o s' hstep => parentStep_measure_lt hstep, hinv.order.run,
    hinv.order.hooks, hinv.order.create_hooks, ?_⟩
  intro hnil
  have hqueue := (hinv.verdict.ended (.inr hnil)).2
  refine ⟨hinv.verdict.seen (hinv.verdict.ok hnil), ?_⟩
  exact hinv.verdict.not_reported hqueue (by simp [hnil, Parent.failed])

def listenerConfig : Config where
  mounts := [⟨"/srv/data", true, true, false⟩]
  rootlessEUID := false
  prestart := 1
  createRuntime := 1
  createContainer := 1
  startContainer := 0
  noNewPrivileges := false
  seccomp := some "/run/listener.sock"
  initPid := 42
  initStartTime := 1234

def allOk : Outcome :=
  ⟨true, false, 7, true, ""⟩

def listenerMoves : List Move :=
  List.replicate 2 (Move.child allOk) ++
    List.replicate 3 (Move.parent allOk) ++
    List.replicate 4 (Move.child allOk) ++
    List.replicate 6 (Move.parent allOk) ++
    List.replicate 5 (Move.child allOk) ++
    List.replicate 4 (Move.parent allOk) ++
    List.replicate 4 (Move.child allOk) ++
    List.replicate 3 (Move.parent allOk) ++
    List.replicate 3 (Move.child allOk) ++
    List.replicate 3 (Move.parent allOk)

theorem runMoves_ends (config : Config) (moves : List Move) (p : State → Bool)
    (hrun : (runMoves config moves (State.init config)).any p = true) :
    ∃ s, runMoves config moves (State.init config) = some s ∧
      (initSync config).Reachable s ∧ p s = true := by
  obtain ⟨s, hs, hp⟩ := (Option.any_eq_true _ _).mp hrun
  exact ⟨s, hs, runMoves_reachable (.of_init rfl) hs, hp⟩

theorem initSync_safe_listener :
    ∃ s,
      runMoves listenerConfig listenerMoves (State.init listenerConfig) =
        some s ∧
      s.parent = .returned true ∧ .parentReceived .procReady ∈ s.log := by
  obtain ⟨s, hrun, hreach, hnil⟩ := runMoves_ends listenerConfig listenerMoves
      (fun s => s.parent = .returned true) (by decide +kernel)
  rw [decide_eq_true_iff] at hnil
  have hsafe := initSync_safe listenerConfig s hreach
  exact ⟨s, hrun, hnil, (hsafe.2.2.2.2.2.2 hnil).1⟩

def noStatMoves : List Move :=
  listenerMoves.take 22 ++
    [.parent { allOk with statOk := false }, .parent allOk]

/-- A lost start time. -/
theorem initSync_startTime_lost :
    ¬ ∀ (config : Config) (s : State),
        (initSync config).Reachable s →
        Precedes
          (.saved ⟨config.initPid, config.initStartTime⟩ ∈ ·)
          (.parentSent .procRun) s.log := by
  intro hclaim
  obtain ⟨s, -, hreach, hend⟩ := runMoves_ends listenerConfig noStatMoves
      (fun s => s.log.getLast? = some (.parentSent .procRun) ∧
        .saved ⟨42, 1234⟩ ∉ s.log.dropLast) (by decide +kernel)
  obtain ⟨hlast, hnot⟩ := of_decide_eq_true hend
  have hlog := List.dropLast_append_getLast? _ hlast
  exact hnot (hclaim listenerConfig s hreach s.log.dropLast [] hlog.symm)

end Runc.Init
