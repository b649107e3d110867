import Runc.Init.Sync

/-!
# What a step of the two processes can do

The step functions taken apart once: `ChildMove` and `ParentMove` list every
effect of a step together with the state it starts from.
-/

namespace Runc.Init

open Lib

inductive ChildMove (s s' : State) : Prop where
  | work {ops} (hs : s.child = .running (.work :: ops))
      (h : s' = s.goChild (.running ops) [])
  | hook {i ops next} (hs : s.child = .running (.createContainerHook i :: ops))
      (hnext : next = .running ops ∨ next = .failing)
      (h : s' = s.goChild next [.createContainerHook i])
  | initSeccomp {ops ops'} (hs : s.child = .running (.initSeccomp :: ops))
      (hops : ops' = ops ∨ ∃ fd, ops' = .seccomp fd :: ops)
      (h : s' = s.goChild (.running ops') [])
  | close {ops} (hs : s.child = .running (.closePipe :: ops))
      (h : s' = s.goChild .closed [])
  | ask {op ops sync} (hs : s.child = .running (op :: ops))
      (hreq : request op = some sync)
      (h : s' = { s.goChild (.awaiting op ops) [.childSent sync.type] with
        childToParent := s.childToParent ++ [sync] })
  | fail (hs : s.childOpen = true)
      (h : s' = s.goChild .failing [])
  | pass {op ops sync rest asked} (hs : s.child = .awaiting op ops)
      (hqueue : s.parentToChild = sync :: rest)
      (hreq : request op = some asked)
      (haccept : acceptReply op sync = .ok ())
      (h : s' = { s with parentToChild := rest }.goChild (.running ops)
        [.childGot asked.type sync.type, .childPassed asked.type])
  | reject {op ops sync rest asked} (hs : s.child = .awaiting op ops)
      (hqueue : s.parentToChild = sync :: rest)
      (hreq : request op = some asked)
      (h : s' = { s with parentToChild := rest }.goChild .failing
        [.childGot asked.type sync.type])
  | report {message} (hs : s.child = .failing)
      (h : s' = { s.goChild .exited [.childReported] with
        childToParent := s.childToParent ++
          [.withArg .procError (.initError message)] })
  | exit (hs : s.childOpen = true)
      (h : s' = s.goChild .exited [])

def Child.Asking : Child → Prop
  | .awaiting op _ => (request op).isSome = true
  | _ => True

theorem childStep_cases {o : Outcome} {s s' : State} (hask : s.child.Asking)
    (hstep : childStep o s = some s') : ChildMove s s' := by
  cases hs : s.child with
  | running ops =>
    have hopen : s.childOpen = true := by
      simp [State.childOpen, hs]
    cases ops with
    | nil => simp [childStep, hs] at hstep
    | cons op ops =>
      cases op with
      | work =>
        simp only [childStep, hs, Option.some.injEq] at hstep
        split_ifs at hstep
        · exact .work hs hstep.symm
        · exact .fail hopen hstep.symm
      | createContainerHook i =>
        simp only [childStep, hs, Option.some.injEq] at hstep
        refine .hook hs ?_ hstep.symm
        split_ifs
        · exact .inl rfl
        · exact .inr rfl
      | initSeccomp =>
        simp only [childStep, hs, Option.some.injEq] at hstep
        split_ifs at hstep
        · exact .initSeccomp hs (.inl rfl) hstep.symm
        · exact .initSeccomp hs (.inr ⟨_, rfl⟩) hstep.symm
        · exact .fail hopen hstep.symm
      | closePipe =>
        simp only [childStep, hs, Option.some.injEq] at hstep
        exact .close hs hstep.symm
      | mountPlease m | hooks | ready | seccomp fd =>
        simp only [childStep, hs, request, Option.some.injEq] at hstep
        split_ifs at hstep
        · exact .ask hs rfl hstep.symm
        · exact .fail hopen hstep.symm
  | awaiting op ops =>
    have hopen : s.childOpen = true := by
      simp [State.childOpen, hs]
    rw [hs] at hask
    obtain ⟨asked, hreq⟩ := Option.isSome_iff_exists.mp hask
    simp only [childStep, hs, hreq] at hstep
    split_ifs at hstep with hok
    · rcases recv_eq_some hstep with ⟨sync, rest, hqueue, h⟩ | ⟨_, _, h⟩
      · cases haccept : acceptReply op sync with
        | ok u =>
          simp only [haccept] at h
          exact .pass hs hqueue hreq haccept h
        | error err =>
          simp only [haccept] at h
          exact .reject hs hqueue hreq h
      · exact .fail hopen h
    · exact .fail hopen (Option.some.inj hstep).symm
  | failing =>
    simp only [childStep, hs, Option.some.injEq] at hstep
    split_ifs at hstep
    · exact .report hs hstep.symm
    · exact .exit (by simp [State.childOpen, hs]) hstep.symm
  | closed => simp [childStep, hs] at hstep
  | exited => simp [childStep, hs] at hstep

def Parent.serving : Parent → Bool
  | .shutdown _ | .returned _ | .dead => false
  | _ => true

inductive Serves : ChildOp → Parent → Prop where
  | mountRequest (m) : Serves (.mountPlease m) (.mountRequest m)
  | writeMountFd (m) : Serves (.mountPlease m) (.writeMountFd m)
  | setCgroups : Serves .hooks .setCgroups
  | runHooks (todo) : Serves .hooks (.runHooks todo)
  | writeHooksDone : Serves .hooks .writeHooksDone
  | setupRlimits : Serves .ready .setupRlimits
  | updateState : Serves .ready .updateState
  | writeRun : Serves .ready .writeRun
  | getSeccompFd (fd) : Serves (.seccomp fd) .getSeccompFd
  | writeSeccompDone (fd) : Serves (.seccomp fd) .writeSeccompDone

inductive Begins : Parent → Prop where
  | mountRequest (m) : Begins (.mountRequest m)
  | getSeccompFd : Begins .getSeccompFd
  | setCgroups : Begins .setCgroups

inductive Received (sync : SyncT) (s s' : State) : Prop where
  | begins {parent} (hparent : Begins parent)
      (htype : sync.type ≠ .procError)
      (h : s' = s.goParent parent [.parentReceived sync.type])
  | ready (htype : sync.type = .procReady)
      (h : s' = { s.goParent .setupRlimits [.parentReceived .procReady] with
        seenProcReady := true })
  | fail
      (h : s' = s.goParent (.shutdown true)
        [.parentReceived sync.type, .parentFailed])

theorem dispatch_cases (config : Config) (sync : SyncT) (s : State) :
    Received sync s (dispatch config sync s) := by
  unfold dispatch
  cases hread : doReadSync sync with
  | error err => exact .fail (by simp [State.parentFail, State.goParent])
  | ok read =>
    have hne : sync.type ≠ .procError := by
      intro htype
      simp only [doReadSync, htype, if_true] at hread
      split at hread <;> cases hread
    have hsame : read = sync := by
      simp only [doReadSync, hne, if_false] at hread
      split_ifs at hread
      exact (Except.ok.inj hread).symm
    subst hsame
    simp only
    split
    · split_ifs
      · exact .fail (by simp [State.parentFail, State.goParent])
      · split
        · rename_i m _
          exact .begins (.mountRequest m) hne (by simp [State.goParent])
        · exact .fail (by simp [State.parentFail, State.goParent])
    · split
      · split_ifs
        · exact .fail (by simp [State.parentFail, State.goParent])
        · exact .begins .getSeccompFd hne (by simp [State.goParent])
      · exact .fail (by simp [State.parentFail, State.goParent])
    · rename_i htype
      exact .ready htype (by simp [State.goParent, htype])
    · exact .begins .setCgroups hne (by simp [State.goParent])
    · exact .fail (by simp [State.parentFail, State.goParent])

theorem dispatch_request {op : ChildOp} {sync : SyncT} (hreq : request op = some sync)
    (config : Config) (s : State) :
    Serves op (dispatch config sync s).parent ∨
      (dispatch config sync s).parent = .shutdown true := by
  cases op with
  | mountPlease m =>
    cases hreq
    by_cases hrootless : config.rootlessEUID = true
    · exact .inr (by simp [dispatch, doReadSync, SyncT.withArg, hrootless,
        State.parentFail, State.goParent])
    · refine .inl ?_
      simp [dispatch, doReadSync, SyncT.withArg, hrootless, State.goParent]
      exact .mountRequest m
  | hooks =>
    cases hreq
    exact .inl .setCgroups
  | ready =>
    cases hreq
    exact .inl .setupRlimits
  | seccomp fd =>
    cases hreq
    cases hpath : config.seccomp with
    | none =>
      exact .inr (by simp [dispatch, doReadSync, SyncT.withArg, hpath,
        State.parentFail, State.goParent])
    | some listenerPath =>
      by_cases hempty : listenerPath = ""
      · exact .inr (by simp [dispatch, doReadSync, SyncT.withArg, hpath,
          hempty, State.parentFail, State.goParent])
      · refine .inl ?_
        simp [dispatch, doReadSync, SyncT.withArg, hpath, hempty, State.goParent]
        exact .getSeccompFd fd
  | work | createContainerHook _ | initSeccomp | closePipe => cases hreq

inductive Quiet (config : Config) : Parent → Parent → List Event → Prop where
  | mount (m) : Quiet config (.mountRequest m) (.writeMountFd m) []
  | seccomp : Quiet config .getSeccompFd .writeSeccompDone []
  | sent : Quiet config .sendSeccompState .reading []
  | rlimits : Quiet config .setupRlimits .updateState []
  | save {startTime}
      (hstat : startTime = some config.initStartTime ∨ startTime = none) :
      Quiet config .updateState .writeRun
        [.statRead startTime, .saved ⟨config.initPid, startTime.getD 0⟩]
  | cgroups : Quiet config .setCgroups (.runHooks config.runtimeHooks) []
  | hook (hook todo) :
      Quiet config (.runHooks (hook :: todo)) (.runHooks todo) [.hookOk hook]
  | hooked : Quiet config (.runHooks []) .writeHooksDone []

inductive Replies : Parent → SyncT → Parent → Prop where
  | mountFd (m) :
      Replies (.writeMountFd m)
        ⟨.procMountFd, true, some (.mountSource m), some m.source⟩ .reading
  | mountFdBroken (m) :
      Replies (.writeMountFd m)
        ⟨.procMountFd, true, some (.mountSource m), none⟩ (.shutdown true)
  | seccompDone :
      Replies .writeSeccompDone (.plain .procSeccompDone) .sendSeccompState
  | run : Replies .writeRun (.plain .procRun) .reading
  | hooksDone :
      Replies .writeHooksDone (.plain .procHooksDone) .reading

inductive ParentMove (config : Config) (s s' : State) : Prop where
  | receive {sync rest} (hs : s.parent = .reading)
      (hqueue : s.childToParent = sync :: rest)
      (h : s' = dispatch config sync { s with childToParent := rest })
  | eof (hs : s.parent = .reading) (hqueue : s.childToParent = [])
      (hclosed : s.childOpen = false)
      (h : s' = s.goParent (.shutdown false) [])
  | quiet {parent next events} (hs : s.parent = parent)
      (hquiet : Quiet config parent next events)
      (h : s' = s.goParent next events)
  | reply {parent next sync events} (hs : s.parent = parent)
      (hreply : Replies parent sync next)
      (hevents : events = [.parentSent sync.type] ∨
        (next = .shutdown true ∧
          events = [.parentSent sync.type, .parentFailed]))
      (h : s' = { s.goParent next events with
        parentToChild := s.parentToChild ++ [sync] })
  | fail (hs : s.parent.serving = true) (h : s' = s.parentFail)
  | finish {ierr ok} (hs : s.parent = .shutdown ierr)
      (hok : ok = true → ierr = false ∧ s.seenProcReady = true)
      (h : s' = s.goParent (.returned ok) [])

theorem ParentMove.of_ok {config : Config} {o : Outcome} {s s' next : State}
    (hserving : s.parent.serving = true) (hnext : ParentMove config s next)
    (hstep : some (if o.ok then next else s.parentFail) = some s') : ParentMove config s s' := by
  rw [Option.some.injEq] at hstep
  split_ifs at hstep
  · exact hstep ▸ hnext
  · exact .fail hserving hstep.symm

theorem parentStep_cases {config : Config} {o : Outcome} {s s' : State}
    (hstep : parentStep config o s = some s') : ParentMove config s s' := by
  cases hs : s.parent with
  | reading =>
    simp only [parentStep, hs] at hstep
    split_ifs at hstep
    · rcases recv_eq_some hstep with
        ⟨sync, rest, hqueue, h⟩ | ⟨hqueue, hclosed, h⟩
      · exact .receive hs hqueue h
      · exact .eof hs hqueue hclosed h
    · exact .fail (by simp [hs, Parent.serving]) (Option.some.inj hstep).symm
  | mountRequest m =>
    rw [parentStep, hs] at hstep
    exact .of_ok (hs ▸ rfl) (.quiet hs (.mount m) rfl) hstep
  | writeMountFd m =>
    simp only [parentStep, hs, Option.some.injEq] at hstep
    split_ifs at hstep
    · exact .reply hs (.mountFd m) (.inl rfl) hstep.symm
    · refine .reply hs (.mountFdBroken m) (.inr ⟨rfl, rfl⟩) ?_
      rw [← hstep]
      simp [State.parentFail, State.parentSend, State.goParent]
    · exact .fail (by simp [hs, Parent.serving]) hstep.symm
  | getSeccompFd =>
    rw [parentStep, hs] at hstep
    exact .of_ok (hs ▸ rfl) (.quiet hs .seccomp rfl) hstep
  | writeSeccompDone =>
    rw [parentStep, hs] at hstep
    exact .of_ok (hs ▸ rfl) (.reply hs .seccompDone (.inl rfl) rfl) hstep
  | sendSeccompState =>
    rw [parentStep, hs] at hstep
    exact .of_ok (hs ▸ rfl) (.quiet hs .sent rfl) hstep
  | setupRlimits =>
    rw [parentStep, hs] at hstep
    exact .of_ok (hs ▸ rfl) (.quiet hs .rlimits rfl) hstep
  | updateState =>
    simp only [parentStep, hs, Option.some.injEq] at hstep
    split_ifs at hstep
    · exact .quiet hs (.save (.inl rfl)) hstep.symm
    · exact .quiet hs (.save (.inr rfl)) hstep.symm
    · exact .fail (by simp [hs, Parent.serving]) hstep.symm
  | writeRun =>
    rw [parentStep, hs] at hstep
    exact .of_ok (hs ▸ rfl) (.reply hs .run (.inl rfl) rfl) hstep
  | setCgroups =>
    rw [parentStep, hs] at hstep
    exact .of_ok (hs ▸ rfl) (.quiet hs .cgroups rfl) hstep
  | runHooks todo =>
    cases todo with
    | nil =>
      simp only [parentStep, hs, Option.some.injEq] at hstep
      exact .quiet hs .hooked hstep.symm
    | cons hook todo =>
      rw [parentStep, hs] at hstep
      exact .of_ok (hs ▸ rfl) (.quiet hs (.hook hook todo) rfl) hstep
  | writeHooksDone =>
    rw [parentStep, hs] at hstep
    exact .of_ok (hs ▸ rfl) (.reply hs .hooksDone (.inl rfl) rfl) hstep
  | shutdown ierr =>
    simp only [parentStep, hs, Option.some.injEq] at hstep
    refine .finish hs ?_ hstep.symm
    simp only [Bool.and_eq_true, Bool.not_eq_true']
    exact fun h => ⟨h.1.1, h.2⟩
  | returned ok => simp [parentStep, hs] at hstep
  | dead => simp [parentStep, hs] at hstep

end Runc.Init
