import Runc.Init.SyncMoves
import Runc.Lib.History

/-!
# Invariants of the sync socket

* `Talk` lists how the two processes can stand to each other while the child is
  alive: a request is queued, served, answered or abandoned, and there is never
  more than one.
* `Todo` says what has been done when the parent is about to write a reply.
* `Verdict` relates errors on either side to the result of `start`.
-/

namespace Runc.Init

open Lib

def Parent.idle : Parent → Bool
  | .reading | .sendSeccompState => true
  | .shutdown _ | .returned _ | .dead => true
  | _ => false

def Answers (op : ChildOp) (sync : SyncT) : Prop :=
  ∃ asked, request op = some asked ∧ sync.type = replyType asked.type

inductive Talk : Child → Parent → List SyncT → List SyncT → Prop where
  | running {ops parent} (h : parent.idle = true) :
      Talk (.running ops) parent [] []
  | asked {op ops parent sync} (hreq : request op = some sync)
      (h : parent.idle = true) :
      Talk (.awaiting op ops) parent [sync] []
  | served {op ops parent} (h : Serves op parent) :
      Talk (.awaiting op ops) parent [] []
  | answered {op ops parent sync} (h : parent.idle = true)
      (hreply : Answers op sync) :
      Talk (.awaiting op ops) parent [] [sync]
  | abandoned {op ops parent} (hreq : (request op).isSome = true)
      (h : parent.serving = false) :
      Talk (.awaiting op ops) parent [] []
  | failing {parent sent replies} :
      Talk .failing parent sent replies
  | closed {parent} (h : parent.idle = true) :
      Talk .closed parent [] []
  | exited {parent sent replies} :
      Talk .exited parent sent replies

def TalkInv (s : State) : Prop :=
  Talk s.child s.parent s.childToParent s.parentToChild

variable {parent : Parent} {op : ChildOp}

theorem Serves.request_isSome (h : Serves op parent) : (request op).isSome = true := by
  cases h <;> rfl

theorem TalkInv.asking {s : State} (h : TalkInv s) : s.child.Asking := by
  obtain ⟨child, parent, sent, replies, seen, log⟩ := s
  cases h with
  | running | failing | closed | exited => trivial
  | asked hreq => simp [Child.Asking, hreq]
  | served h => exact h.request_isSome
  | answered _ hreply =>
    obtain ⟨asked, hreq, _⟩ := hreply
    simp [Child.Asking, hreq]
  | abandoned hreq => exact hreq

theorem Parent.idle_of_not_serving (h : parent.serving = false) : parent.idle = true := by
  cases parent <;> simp_all [Parent.serving, Parent.idle]

theorem TalkInv.stop {s : State} (hinv : TalkInv s) {parent : Parent}
    (hstop : parent.serving = false) (events : List Event) :
    TalkInv (s.goParent parent events) := by
  have hidle := Parent.idle_of_not_serving hstop
  obtain ⟨child, parent₀, sent, replies, seen, log⟩ := s
  cases hinv with
  | running => exact .running hidle
  | asked hreq => exact .asked hreq hidle
  | served h => exact .abandoned h.request_isSome hstop
  | answered _ hreply => exact .answered hidle hreply
  | abandoned hreq => exact .abandoned hreq hstop
  | failing => exact .failing
  | closed => exact .closed hidle
  | exited => exact .exited

variable {s s' : State}

theorem TalkInv.child_move (hinv : TalkInv s) (hmove : ChildMove s s') : TalkInv s' := by
  obtain ⟨child, parent, sent, replies, seen, log⟩ := s
  cases hmove with
  | work hs h =>
    subst h hs
    cases hinv with
    | running h => exact .running h
  | hook hs hnext h =>
    subst h hs
    rcases hnext with rfl | rfl
    · cases hinv with
      | running h => exact .running h
    · exact .failing
  | initSeccomp hs hops h =>
    subst h hs
    cases hinv with
    | running h => exact .running h
  | close hs h =>
    subst h hs
    cases hinv with
    | running h => exact .closed h
  | ask hs hreq h =>
    subst h hs
    cases hinv with
    | running h => exact .asked hreq h
  | fail hs h =>
    subst h
    exact .failing
  | pass hs hqueue hreq haccept h =>
    subst h hs hqueue
    cases hinv with
    | answered h => exact .running h
  | reject hs hqueue hreq h =>
    subst h
    exact .failing
  | report hs h =>
    subst h
    exact .exited
  | exit hs h =>
    subst h
    exact .exited

theorem dispatch_frame (config : Config) (sync : SyncT) (s : State) :
    (dispatch config sync s).child = s.child ∧
      (dispatch config sync s).childToParent = s.childToParent ∧
      (dispatch config sync s).parentToChild = s.parentToChild := by
  cases dispatch_cases config sync s with
  | begins _ _ h | ready _ h | fail h =>
    rw [h]
    exact ⟨rfl, rfl, rfl⟩

theorem Quiet.serves {config : Config} {parent next : Parent} {events : List Event}
    (h : Quiet config parent next events) {op : ChildOp} (hserves : Serves op parent) :
    Serves op next := by
  cases h <;> cases hserves <;> constructor

theorem Quiet.idle {config : Config} {parent next : Parent} {events : List Event}
    (h : Quiet config parent next events) (hidle : parent.idle = true) : next.idle = true := by
  cases h <;> first | rfl | cases hidle

variable {events : List Event} {config : Config}

theorem Quiet.serving {next : Parent} (h : Quiet config parent next events) :
    parent.serving = true ∧ next.serving = true := by
  cases h <;> exact ⟨rfl, rfl⟩

theorem Replies.answers {parent next : Parent} {sync : SyncT} (h : Replies parent sync next)
    {op : ChildOp} (hserves : Serves op parent) : Answers op sync := by
  cases h <;> cases hserves <;> exact ⟨_, rfl, rfl⟩

theorem Replies.idle {parent next : Parent} {sync : SyncT} (h : Replies parent sync next) :
    parent.idle = false ∧ parent.serving = true ∧ next.idle = true := by
  cases h <;> exact ⟨rfl, rfl, rfl⟩

theorem TalkInv.parent_move (hinv : TalkInv s) (hmove : ParentMove config s s') : TalkInv s' := by
  cases hmove with
  | @receive sync rest hs hqueue h =>
    obtain ⟨hchild, hsent, hreplies⟩ := dispatch_frame config sync { s with childToParent := rest }
    subst h
    rw [TalkInv, hchild, hsent, hreplies]
    obtain ⟨child, parent, sent, replies, seen, log⟩ := s
    subst hs hqueue
    cases hinv with
    | asked hreq =>
      rcases dispatch_request hreq config _ with hserves | hfail
      · exact .served hserves
      · rw [hfail]
        exact .abandoned (by simp [hreq]) rfl
    | failing => exact .failing
    | exited => exact .exited
  | eof _ _ _ h =>
    subst h
    exact hinv.stop rfl _
  | quiet hs hquiet h =>
    subst h
    obtain ⟨child, parent, sent, replies, seen, log⟩ := s
    subst hs
    cases hinv with
    | running h => exact .running (hquiet.idle h)
    | asked hreq h => exact .asked hreq (hquiet.idle h)
    | served h => exact .served (hquiet.serves h)
    | answered h hreply => exact .answered (hquiet.idle h) hreply
    | abandoned _ h =>
      rw [hquiet.serving.1] at h
      cases h
    | failing => exact .failing
    | closed h => exact .closed (hquiet.idle h)
    | exited => exact .exited
  | reply hs hreply _ h =>
    obtain ⟨hnot, hserving, hidle⟩ := hreply.idle
    subst h
    obtain ⟨child, parent, sent, replies, seen, log⟩ := s
    subst hs
    cases hinv with
    | running h | asked _ h | answered h _ | closed h =>
      rw [hnot] at h
      cases h
    | served h => exact .answered hidle (hreply.answers h)
    | abandoned _ h =>
      rw [hserving] at h
      cases h
    | failing => exact .failing
    | exited => exact .exited
  | fail _ h =>
    subst h
    exact hinv.stop rfl _
  | finish _ _ h =>
    subst h
    exact hinv.stop rfl _

def HooksDone (config : Config) (log : List Event) : Prop :=
  ∀ hook ∈ config.runtimeHooks, .hookOk hook ∈ log

def Saved (config : Config) (log : List Event) : Prop :=
  ∃ startTime,
    (startTime = some config.initStartTime ∨ startTime = none) ∧
    .statRead startTime ∈ log ∧
    .saved ⟨config.initPid, startTime.getD 0⟩ ∈ log

theorem HooksDone.append {log : List Event} (h : HooksDone config log) (events : List Event) :
    HooksDone config (log ++ events) :=
  fun hook hhook => List.mem_append_left _ (h hook hhook)

theorem Saved.append {log : List Event} (h : Saved config log) (events : List Event) :
    Saved config (log ++ events) := by
  obtain ⟨startTime, hread, hstat, hsaved⟩ := h
  exact ⟨startTime, hread, List.mem_append_left _ hstat, List.mem_append_left _ hsaved⟩

structure TodoInv (config : Config) (s : State) : Prop where
  hooking : ∀ todo, s.parent = .runHooks todo →
    ∀ hook ∈ config.runtimeHooks, hook ∈ todo ∨ .hookOk hook ∈ s.log
  hooked : s.parent = .writeHooksDone → HooksDone config s.log
  replied : ∀ sync ∈ s.parentToChild, sync.type = .procHooksDone →
    HooksDone config s.log
  saved : s.parent = .writeRun → Saved config s.log

theorem TodoInv.frame {config : Config} {s s' : State} (hinv : TodoInv config s)
    (hparent : s'.parent = s.parent) (hreplies : ∀ sync ∈ s'.parentToChild, sync ∈ s.parentToChild)
    {events : List Event} (hlog : s'.log = s.log ++ events) : TodoInv config s' where
  hooking todo htodo hook hhook := by
    rw [hparent] at htodo
    rw [hlog]
    exact (hinv.hooking todo htodo hook hhook).imp_right (List.mem_append_left _)
  hooked h := by
    rw [hparent] at h
    rw [hlog]
    exact (hinv.hooked h).append _
  replied sync hsync htype := by
    rw [hlog]
    exact (hinv.replied sync (hreplies sync hsync) htype).append _
  saved h := by
    rw [hparent] at h
    rw [hlog]
    exact (hinv.saved h).append _

theorem TodoInv.child_move (hinv : TodoInv config s) (hmove : ChildMove s s') :
    TodoInv config s' := by
  cases hmove with
  | work _ h | hook _ _ h | initSeccomp _ _ h | close _ h | ask _ _ h
  | fail _ h | report _ h | exit _ h =>
    subst h
    exact hinv.frame rfl (fun _ => id) rfl
  | pass _ hqueue _ _ h | reject _ hqueue _ h =>
    subst h
    refine hinv.frame rfl (fun sync hsync => ?_) rfl
    rw [hqueue]
    exact List.mem_cons_of_mem _ hsync

theorem TodoInv.goParent (hinv : TodoInv config s) (parent : Parent)
    (hhooks : ∀ todo, parent ≠ .runHooks todo) (hdone : parent ≠ .writeHooksDone)
    (hrun : parent ≠ .writeRun) (events : List Event) :
    TodoInv config (s.goParent parent events) where
  hooking todo h := absurd h (hhooks todo)
  hooked h := absurd h hdone
  replied sync hsync htype := (hinv.replied sync hsync htype).append _
  saved h := absurd h hrun

theorem TodoInv.quiet (hinv : TodoInv config s) {next : Parent} (hs : s.parent = parent)
    (hquiet : Quiet config parent next events) : TodoInv config (s.goParent next events) := by
  cases hquiet with
  | mount | seccomp | sent | rlimits => exact hinv.goParent _ (by simp) (by simp) (by simp) _
  | save hstat =>
    refine ⟨by simp [State.goParent], by simp [State.goParent],
      fun sync hsync htype => (hinv.replied sync hsync htype).append _, ?_⟩
    intro _
    exact ⟨_, hstat, by simp [State.goParent], by simp [State.goParent]⟩
  | cgroups =>
    refine ⟨?_, by simp [State.goParent],
      fun sync hsync htype => (hinv.replied sync hsync htype).append _,
      by simp [State.goParent]⟩
    rintro todo ⟨⟩ hook hhook
    exact .inl hhook
  | hook done todo =>
    refine ⟨?_, by simp [State.goParent],
      fun sync hsync htype => (hinv.replied sync hsync htype).append _,
      by simp [State.goParent]⟩
    rintro rest ⟨⟩ hook hhook
    rcases hinv.hooking _ hs hook hhook with hmem | hmem
    · rcases List.mem_cons.mp hmem with rfl | hmem
      · exact .inr (by simp [State.goParent])
      · exact .inl hmem
    · exact .inr (List.mem_append_left _ hmem)
  | hooked =>
    refine ⟨by simp [State.goParent], ?_,
      fun sync hsync htype => (hinv.replied sync hsync htype).append _,
      by simp [State.goParent]⟩
    intro _ hook hhook
    rcases hinv.hooking _ hs hook hhook with hmem | hmem
    · cases hmem
    · exact List.mem_append_left _ hmem

theorem TodoInv.reply {config : Config} {s : State} (hinv : TodoInv config s)
    {parent next : Parent} {sync : SyncT} (hs : s.parent = parent)
    (hreply : Replies parent sync next) (events : List Event) :
    TodoInv config
      { s.goParent next events with
        parentToChild := s.parentToChild ++ [sync] } := by
  have hreplied : ∀ m ∈ s.parentToChild ++ [sync], m.type = .procHooksDone →
        HooksDone config (s.log ++ events) := by
    intro m hm htype
    rcases List.mem_append.mp hm with hm | hm
    · exact (hinv.replied m hm htype).append _
    · rw [List.mem_singleton.mp hm] at htype
      cases hreply <;> first
        | exact (hinv.hooked hs).append _
        | cases htype
  refine ⟨?_, ?_, hreplied, ?_⟩
  · intro todo h
    cases hreply <;> cases h
  · intro h
    cases hreply <;> cases h
  · intro h
    cases hreply <;> cases h

theorem TodoInv.parent_move (hinv : TodoInv config s) (hmove : ParentMove config s s') :
    TodoInv config s' := by
  cases hmove with
  | @receive sync rest hs hqueue h =>
    subst h
    have hinv' : TodoInv config { s with childToParent := rest } :=
      hinv.frame rfl (fun _ => id) (List.append_nil _).symm
    cases dispatch_cases config sync { s with childToParent := rest } with
    | begins hbegins _ h =>
      rw [h]
      cases hbegins <;>
        exact hinv'.goParent _ (by simp) (by simp) (by simp) _
    | ready _ h =>
      rw [h]
      exact (hinv'.goParent .setupRlimits (by simp) (by simp)
        (by simp) _).frame rfl (fun _ => id) (List.append_nil _).symm
    | fail h =>
      rw [h]
      exact hinv'.goParent _ (by simp) (by simp) (by simp) _
  | eof _ _ _ h | fail _ h | finish _ _ h =>
    subst h
    exact hinv.goParent _ (by simp) (by simp) (by simp) _
  | quiet hs hquiet h =>
    subst h
    exact hinv.quiet hs hquiet
  | reply hs hreply _ h =>
    subst h
    exact hinv.reply hs hreply _

def HooksNext (ops : List ChildOp) : Prop :=
  ∃ before after,
    ops = before ++ .hooks :: after ∧ ∀ i, .createContainerHook i ∉ before

def Child.HooksAhead : Child → Prop
  | .running ops => HooksNext ops
  | .awaiting op ops => HooksNext (op :: ops)
  | _ => True

variable {ops : List ChildOp}

theorem HooksNext.tail (h : HooksNext (op :: ops)) (hop : op ≠ .hooks) : HooksNext ops := by
  obtain ⟨before, after, heq, hnone⟩ := h
  cases before with
  | nil => exact absurd (List.cons.inj heq).1 hop
  | cons first before =>
    refine ⟨before, after, (List.cons.inj heq).2, ?_⟩
    exact fun i hi => hnone i (List.mem_cons_of_mem _ hi)

theorem HooksNext.cons (h : HooksNext ops) (hop : ∀ i, op ≠ .createContainerHook i) :
    HooksNext (op :: ops) := by
  obtain ⟨before, after, rfl, hnone⟩ := h
  refine ⟨op :: before, after, rfl, ?_⟩
  intro i hi
  rcases List.mem_cons.mp hi with hi | hi
  · exact hop i hi.symm
  · exact hnone i hi

theorem HooksNext.not_createContainerHook {i : Nat}
    (h : HooksNext (.createContainerHook i :: ops)) : False := by
  obtain ⟨before, after, heq, hnone⟩ := h
  cases before with
  | nil => cases (List.cons.inj heq).1
  | cons first before =>
    exact hnone i (by rw [← (List.cons.inj heq).1]; exact List.mem_cons_self ..)

theorem hooksNext_initOps (config : Config) : HooksNext (initOps config) := by
  refine ⟨beforeHooksOps config, afterHooksOps config, rfl, ?_⟩
  intro i
  simp only [beforeHooksOps, mountOps, List.mem_append, List.mem_singleton,
    List.mem_flatMap, not_or, not_exists, not_and]
  refine ⟨⟨by simp, ?_⟩, by simp⟩
  intro m _
  split_ifs <;> simp

structure OrderInv (config : Config) (s : State) : Prop where
  got : ∀ type reply, .childGot type reply ∈ s.log → reply = replyType type
  hooks : Precedes (HooksDone config) (.childPassed .procHooks) s.log
  create : ∀ i,
    Precedes (.childPassed .procHooks ∈ ·) (.createContainerHook i) s.log
  run : Precedes (Saved config) (.parentSent .procRun) s.log
  passed : s.child.HooksAhead ∨ .childPassed .procHooks ∈ s.log

def Event.free : Event → Bool
  | .childGot _ _ | .childPassed _ | .createContainerHook _ => false
  | .parentSent _ => false
  | _ => true

theorem OrderInv.frame {config : Config} {s s' : State} (hinv : OrderInv config s)
    {events : List Event} (hlog : s'.log = s.log ++ events) (hfree : ∀ e ∈ events, e.free = true)
    (hpassed : s.child.HooksAhead → s'.child.HooksAhead) : OrderInv config s' := by
  have hnot : ∀ e : Event, e.free = false → e ∉ events := by
    intro e he hmem
    rw [hfree e hmem] at he
    cases he
  refine ⟨?_, ?_, ?_, ?_, ?_⟩
  · intro type reply hmem
    rw [hlog] at hmem
    rcases List.mem_append.mp hmem with hmem | hmem
    · exact hinv.got type reply hmem
    · exact absurd hmem (hnot _ rfl)
  · rw [hlog]
    exact hinv.hooks.append (hnot _ rfl)
  · intro i
    rw [hlog]
    exact (hinv.create i).append (hnot _ rfl)
  · rw [hlog]
    exact hinv.run.append (hnot _ rfl)
  · rw [hlog]
    exact hinv.passed.imp hpassed (List.mem_append_left _)

theorem TalkInv.reply_type (hinv : TalkInv s) {sync asked : SyncT} {rest : List SyncT}
    (hs : s.child = .awaiting op ops) (hqueue : s.parentToChild = sync :: rest)
    (hreq : request op = some asked) : sync.type = replyType asked.type := by
  obtain ⟨child, parent, sent, replies, seen, log⟩ := s
  subst hs hqueue
  cases hinv with
  | answered _ hreply =>
    obtain ⟨asked', hreq', htype⟩ := hreply
    rw [hreq] at hreq'
    cases hreq'
    exact htype

theorem request_hooks_iff {sync : SyncT} (hreq : request op = some sync) :
    sync.type = .procHooks ↔ op = .hooks := by
  cases op <;> simp only [request, Option.some.injEq, reduceCtorEq] at hreq
  all_goals subst hreq; simp [SyncT.plain, SyncT.withArg]

theorem OrderInv.got_append (hinv : OrderInv config s)
    {type reply : SyncType} (htype : reply = replyType type) :
    ∀ t r, .childGot t r ∈ s.log ++ [.childGot type reply] →
      r = replyType t := by
  intro t r hmem
  rcases List.mem_append.mp hmem with hmem | hmem
  · exact hinv.got t r hmem
  · cases List.mem_singleton.mp hmem
    exact htype

theorem OrderInv.pass {config : Config} {s : State} (hinv : OrderInv config s)
    {op : ChildOp} {ops : List ChildOp} {sync asked : SyncT} {rest : List SyncT}
    (hs : s.child = .awaiting op ops) (hreq : request op = some asked)
    (htype : sync.type = replyType asked.type)
    (hdone : asked.type = .procHooks → HooksDone config s.log) :
    OrderInv config
      ({ s with parentToChild := rest }.goChild (.running ops)
        [.childGot asked.type sync.type, .childPassed asked.type]) := by
  have hlog : s.log ++ [.childGot asked.type sync.type, .childPassed asked.type] =
        (s.log ++ [.childGot asked.type sync.type]) ++
          [.childPassed asked.type] := by
    simp
  refine ⟨?_, ?_, ?_, ?_, ?_⟩
  · intro t r hmem
    change _ ∈ s.log ++ _ at hmem
    rw [hlog] at hmem
    rcases List.mem_append.mp hmem with hmem | hmem
    · exact hinv.got_append htype t r hmem
    · cases List.mem_singleton.mp hmem
  · change Precedes _ _ (s.log ++ _)
    rw [hlog]
    refine (hinv.hooks.append (by simp)).concat ?_
    intro hpassed
    exact (hdone (Event.childPassed.inj hpassed)).append _
  · intro i
    exact (hinv.create i).append (by simp)
  · exact hinv.run.append (by simp)
  · by_cases hhooks : asked.type = .procHooks
    · refine .inr ?_
      simp [State.goChild, hhooks]
    · refine hinv.passed.imp ?_ (List.mem_append_left _)
      intro hahead
      rw [hs] at hahead
      exact hahead.tail (fun hop => hhooks ((request_hooks_iff hreq).mpr hop))

theorem OrderInv.child_move (htalk : TalkInv s)
    (htodo : TodoInv config s) (hinv : OrderInv config s) (hmove : ChildMove s s') :
    OrderInv config s' := by
  cases hmove with
  | work hs h =>
    subst h
    refine hinv.frame rfl (by simp) ?_
    rw [hs]
    exact fun h => HooksNext.tail h (by simp)
  | @hook i ops next hs hnext h =>
    subst h
    have hpassed : .childPassed .procHooks ∈ s.log := by
      rcases hinv.passed with h | h
      · rw [hs] at h
        exact (HooksNext.not_createContainerHook h).elim
      · exact h
    refine ⟨?_, hinv.hooks.append (by simp), ?_, hinv.run.append (by simp),
      .inr (List.mem_append_left _ hpassed)⟩
    · intro t r hmem
      rcases List.mem_append.mp hmem with hmem | hmem
      · exact hinv.got t r hmem
      · cases List.mem_singleton.mp hmem
    · intro j
      exact (hinv.create j).concat (fun _ => hpassed)
  | initSeccomp hs hops h =>
    subst h
    refine hinv.frame rfl (by simp) ?_
    rw [hs]
    intro h
    have htail := HooksNext.tail h (by simp)
    rcases hops with rfl | ⟨fd, rfl⟩
    · exact htail
    · exact htail.cons (by simp)
  | close _ h =>
    subst h
    exact hinv.frame rfl (by simp) (fun _ => trivial)
  | ask hs hreq h =>
    subst h
    refine hinv.frame rfl (by simp [Event.free]) ?_
    rw [hs]
    exact id
  | fail _ h =>
    subst h
    exact hinv.frame rfl (by simp) (fun _ => trivial)
  | pass hs hqueue hreq _ h =>
    subst h
    have htype := htalk.reply_type hs hqueue hreq
    refine hinv.pass hs hreq htype ?_
    intro hhooks
    rw [hhooks] at htype
    exact htodo.replied _ (by rw [hqueue]; exact List.mem_cons_self ..) htype
  | reject hs hqueue hreq h =>
    subst h
    have htype := htalk.reply_type hs hqueue hreq
    exact ⟨hinv.got_append htype, hinv.hooks.append (by simp),
      fun i => (hinv.create i).append (by simp),
      hinv.run.append (by simp), .inl trivial⟩
  | report _ h =>
    subst h
    exact hinv.frame rfl (by simp [Event.free]) (fun _ => trivial)
  | exit _ h =>
    subst h
    exact hinv.frame rfl (by simp) (fun _ => trivial)

theorem OrderInv.parent_move (htodo : TodoInv config s)
    (hinv : OrderInv config s) (hmove : ParentMove config s s') : OrderInv config s' := by
  cases hmove with
  | @receive sync rest hs hqueue h =>
    subst h
    cases dispatch_cases config sync { s with childToParent := rest } with
    | begins _ _ h | ready _ h | fail h =>
      rw [h]
      exact hinv.frame rfl (by simp [Event.free]) id
  | eof _ _ _ h | finish _ _ h =>
    subst h
    exact hinv.frame rfl (by simp) id
  | quiet _ hquiet h =>
    subst h
    refine hinv.frame rfl ?_ id
    cases hquiet <;> simp [Event.free]
  | @reply parent next sync events hs hreply hevents h =>
    subst h
    have hsaved : sync.type = .procRun → Saved config s.log := by
      intro htype
      cases hreply <;> first
        | exact htodo.saved hs
        | cases htype
    have hsent : OrderInv config (s.goParent next [.parentSent sync.type]) := by
      refine ⟨?_, hinv.hooks.append (by simp), fun i => (hinv.create i).append (by simp), ?_,
        hinv.passed.imp_right (List.mem_append_left _)⟩
      · intro t r hmem
        rcases List.mem_append.mp hmem with hmem | hmem
        · exact hinv.got t r hmem
        · cases List.mem_singleton.mp hmem
      · exact hinv.run.concat (fun h => hsaved (Event.parentSent.inj h))
    rcases hevents with rfl | ⟨_, rfl⟩
    · exact hsent.frame (List.append_nil _).symm (by simp) id
    · have hlog : s.log ++ [.parentSent sync.type, .parentFailed] =
            (s.log ++ [.parentSent sync.type]) ++ [.parentFailed] := by
        simp
      exact hsent.frame hlog (by simp [Event.free]) id
  | fail _ h =>
    subst h
    exact hinv.frame rfl (by simp [Event.free]) id

def Parent.failed : Parent → Bool
  | .shutdown true | .returned false | .dead => true
  | _ => false

structure VerdictInv (s : State) : Prop where
  failed : .parentFailed ∈ s.log → s.parent.failed = true
  reported : .childReported ∈ s.log →
    s.child = .exited ∧
      ((∃ sync ∈ s.childToParent, sync.type = .procError) ∨
        s.parent.failed = true)
  ended : s.parent = .shutdown false ∨ s.parent = .returned true →
    s.childOpen = false ∧ s.childToParent = []
  seen : s.seenProcReady = true → .parentReceived .procReady ∈ s.log
  ok : s.parent = .returned true → s.seenProcReady = true

theorem VerdictInv.child_frame (hinv : VerdictInv s) (hopen : s.childOpen = true)
    (hparent : s'.parent = s.parent) (hseen : s'.seenProcReady = s.seenProcReady)
    (hlog : s'.log = s.log ++ events) (hfailed : .parentFailed ∉ events)
    (hreported : .childReported ∈ events → s'.child = .exited ∧
      ∃ sync ∈ s'.childToParent, sync.type = .procError) : VerdictInv s' where
  failed h := by
    rw [hlog] at h
    rw [hparent]
    rcases List.mem_append.mp h with h | h
    · exact hinv.failed h
    · exact absurd h hfailed
  reported h := by
    rw [hlog] at h
    rcases List.mem_append.mp h with h | h
    · have hexit := (hinv.reported h).1
      simp [State.childOpen, hexit] at hopen
    · exact ⟨(hreported h).1, .inl (hreported h).2⟩
  ended h := by
    rw [hparent] at h
    have hclosed := (hinv.ended h).1
    rw [hopen] at hclosed
    cases hclosed
  seen h := by
    rw [hseen] at h
    rw [hlog]
    exact List.mem_append_left _ (hinv.seen h)
  ok h := by
    rw [hparent] at h
    rw [hseen]
    exact hinv.ok h

theorem VerdictInv.child_move (hinv : VerdictInv s) (hmove : ChildMove s s') : VerdictInv s' := by
  cases hmove with
  | work hs h | hook hs _ h | initSeccomp hs _ h | close hs h | ask hs _ h =>
    subst h
    exact hinv.child_frame (by simp [State.childOpen, hs]) rfl rfl rfl (by simp) (by simp)
  | fail hopen h | exit hopen h =>
    subst h
    exact hinv.child_frame hopen rfl rfl rfl (by simp) (by simp)
  | pass hs _ _ _ h | reject hs _ _ h =>
    subst h
    exact hinv.child_frame (by simp [State.childOpen, hs]) rfl rfl rfl (by simp) (by simp)
  | report hs h =>
    subst h
    refine hinv.child_frame (by simp [State.childOpen, hs]) rfl rfl rfl
      (by simp) (fun _ => ⟨rfl, ?_⟩)
    exact ⟨_, List.mem_append_right _ (List.mem_singleton_self _), rfl⟩

theorem VerdictInv.serve (hinv : VerdictInv s) (hserving : s.parent.serving = true)
    (hnext : s'.parent.serving = true) (hchild : s'.child = s.child)
    (hsent : ∀ sync ∈ s.childToParent, sync.type = .procError →
      sync ∈ s'.childToParent) (hseen : s'.seenProcReady = true →
      s.seenProcReady = true ∨ .parentReceived .procReady ∈ events)
    (hlog : s'.log = s.log ++ events) (hfailed : .parentFailed ∉ events)
    (hreported : .childReported ∉ events) : VerdictInv s' := by
  have hok : s.parent.failed = false := by
    cases hp : s.parent <;> simp_all [Parent.serving, Parent.failed]
  refine ⟨?_, ?_, ?_, ?_, ?_⟩
  · intro h
    rw [hlog] at h
    rcases List.mem_append.mp h with h | h
    · rw [hinv.failed h] at hok
      cases hok
    · exact absurd h hfailed
  · intro h
    rw [hlog] at h
    rcases List.mem_append.mp h with h | h
    · obtain ⟨hexit, hqueue⟩ := hinv.reported h
      rw [hok] at hqueue
      obtain ⟨sync, hsync, htype⟩ := hqueue.resolve_right (by simp)
      rw [hchild]
      exact ⟨hexit, .inl ⟨sync, hsent sync hsync htype, htype⟩⟩
    · exact absurd h hreported
  · rintro (h | h)
    · simp [h, Parent.serving] at hnext
    · simp [h, Parent.serving] at hnext
  · intro h
    rw [hlog, List.mem_append]
    exact (hseen h).imp_left hinv.seen
  · intro h
    simp [h, Parent.serving] at hnext

theorem VerdictInv.fails {s s' : State} (hinv : VerdictInv s) (hnext : s'.parent.failed = true)
    (hchild : s'.child = s.child) (hseen : s'.seenProcReady = s.seenProcReady) {events : List Event}
    (hlog : s'.log = s.log ++ events) (hreported : .childReported ∉ events) : VerdictInv s' := by
  refine ⟨fun _ => hnext, ?_, ?_, ?_, ?_⟩
  · intro h
    rw [hlog] at h
    rcases List.mem_append.mp h with h | h
    · rw [hchild]
      exact ⟨(hinv.reported h).1, .inr hnext⟩
    · exact absurd h hreported
  · rintro (h | h)
    · simp [h, Parent.failed] at hnext
    · simp [h, Parent.failed] at hnext
  · intro h
    rw [hseen] at h
    rw [hlog]
    exact List.mem_append_left _ (hinv.seen h)
  · intro h
    simp [h, Parent.failed] at hnext

theorem VerdictInv.not_reported (hinv : VerdictInv s) (hqueue : s.childToParent = [])
    (hok : s.parent.failed = false) : .childReported ∉ s.log ∧ .parentFailed ∉ s.log := by
  refine ⟨?_, ?_⟩
  · intro h
    rcases (hinv.reported h).2 with ⟨sync, hsync, _⟩ | hfailed
    · rw [hqueue] at hsync
      cases hsync
    · rw [hok] at hfailed
      cases hfailed
  · intro h
    rw [hinv.failed h] at hok
    cases hok

theorem VerdictInv.finish (hinv : VerdictInv s)
    (hqueue : s.childToParent = []) (hclosed : s.childOpen = false) (hok : s.parent.failed = false)
    (hseen : parent = .returned true → s.seenProcReady = true) :
    VerdictInv (s.goParent parent []) := by
  obtain ⟨hreported, hfailed⟩ := hinv.not_reported hqueue hok
  refine ⟨?_, ?_, fun _ => ⟨hclosed, hqueue⟩, ?_, hseen⟩
  · intro h
    exact absurd (by simpa [State.goParent] using h) hfailed
  · intro h
    exact absurd (by simpa [State.goParent] using h) hreported
  · intro h
    exact List.mem_append_left _ (hinv.seen h)

theorem VerdictInv.parent_move (hinv : VerdictInv s) (hmove : ParentMove config s s') :
    VerdictInv s' := by
  cases hmove with
  | @receive sync rest hs hqueue h =>
    subst h
    have hserving : s.parent.serving = true := by
      simp [hs, Parent.serving]
    have hrest : ∀ m ∈ s.childToParent, sync.type ≠ .procError →
        m.type = .procError → m ∈ rest := by
      intro m hm hne htype
      rw [hqueue] at hm
      rcases List.mem_cons.mp hm with rfl | hm
      · exact absurd htype hne
      · exact hm
    cases dispatch_cases config sync { s with childToParent := rest } with
    | begins hbegins hne h =>
      rw [h]
      refine hinv.serve hserving ?_ rfl (fun m hm => hrest m hm hne) .inl rfl (by simp) (by simp)
      cases hbegins <;> rfl
    | ready htype h =>
      rw [h]
      refine hinv.serve hserving rfl rfl (fun m hm => hrest m hm (by simp [htype])) ?_ rfl (by simp)
        (by simp)
      exact fun _ => .inr (List.mem_singleton_self _)
    | fail h =>
      rw [h]
      exact hinv.fails rfl rfl rfl rfl (by simp)
  | eof hs hqueue hclosed h =>
    subst h
    exact hinv.finish hqueue hclosed (by simp [hs, Parent.failed]) (by simp)
  | quiet hs hquiet h =>
    subst h
    refine hinv.serve (hs ▸ hquiet.serving.1) hquiet.serving.2 rfl (fun _ hm _ => hm) .inl rfl ?_ ?_
    · cases hquiet <;> simp
    · cases hquiet <;> simp
  | reply hs hreply hevents h =>
    subst h
    have hserving := hs ▸ hreply.idle.2.1
    rcases hevents with rfl | ⟨rfl, rfl⟩
    · cases hreply with
      | mountFdBroken => exact hinv.fails rfl rfl rfl rfl (by simp)
      | mountFd | seccompDone | run | hooksDone =>
        exact hinv.serve hserving rfl rfl (fun _ hm _ => hm) .inl rfl (by simp) (by simp)
    · exact hinv.fails rfl rfl rfl rfl (by simp)
  | fail _ h =>
    subst h
    exact hinv.fails rfl rfl rfl rfl (by simp)
  | @finish ierr ok hs hok h =>
    subst h
    cases ok with
    | false => exact hinv.fails rfl rfl rfl rfl (by simp)
    | true =>
      obtain ⟨rfl, hseen⟩ := hok rfl
      obtain ⟨hclosed, hqueue⟩ := hinv.ended (.inl hs)
      exact hinv.finish hqueue hclosed (by simp [hs, Parent.failed]) (fun _ => hseen)

structure SyncInv (config : Config) (s : State) : Prop where
  talk : TalkInv s
  todo : TodoInv config s
  order : OrderInv config s
  verdict : VerdictInv s

theorem SyncInv.step {config : Config} {s s' : State} (hinv : SyncInv config s)
    (hstep : Step config s s') : SyncInv config s' := by
  cases hstep with
  | child o h =>
    have hmove := childStep_cases hinv.talk.asking h
    exact ⟨hinv.talk.child_move hmove, hinv.todo.child_move hmove,
      hinv.order.child_move hinv.talk hinv.todo hmove,
      hinv.verdict.child_move hmove⟩
  | parent o h =>
    have hmove := parentStep_cases h
    exact ⟨hinv.talk.parent_move hmove, hinv.todo.parent_move hmove,
      hinv.order.parent_move hinv.todo hmove,
      hinv.verdict.parent_move hmove⟩
  | killChild halive h =>
    have hmove : ChildMove s s' := .exit halive h
    exact ⟨hinv.talk.child_move hmove, hinv.todo.child_move hmove,
      hinv.order.child_move hinv.talk hinv.todo hmove,
      hinv.verdict.child_move hmove⟩
  | killParent halive h =>
    subst h
    exact ⟨hinv.talk.stop rfl _, hinv.todo.goParent _ (by simp) (by simp) (by simp) _,
      hinv.order.frame rfl (by simp) id,
      hinv.verdict.fails rfl rfl rfl rfl (by simp)⟩

theorem SyncInv.init (config : Config) : SyncInv config (State.init config) where
  talk := .running rfl
  todo := ⟨by simp [State.init], by simp [State.init], by simp [State.init], by simp [State.init]⟩
  order := ⟨by simp [State.init], .nil, fun _ => .nil, .nil, .inl (hooksNext_initOps config)⟩
  verdict := ⟨by simp [State.init], by simp [State.init], by simp [State.init],
    by simp [State.init], by simp [State.init]⟩

theorem initSync_inv (h : (initSync config).Reachable s) : SyncInv config s := by
  refine h.invariant ?_ ?_
  · rintro s rfl
    exact .init config
  · intro s s' _ hinv hstep
    exact hinv.step hstep

end Runc.Init
