import Runc.Signals.Stages

/-!
# Forward returns

**Results.**
* `forward_returns_iff`: for a foreground container whose main process has ended, when
  `forward` returns its status.
-/

namespace Runc.Signals

open Lib (Machine Run)

variable {h : Handler} {run : Run (machine h) initial} {t : Nat}

/-- If `notifySocket.run` waits for as long as its process lives, a datagram that
begins with `READY=` is sent. -/
def NotifyEnds (run : Run (machine h) initial) : Prop :=
  h.waits = true → h.procVisible = true →
    ∃ t datagram, run.event t = some (.message datagram) ∧ isReady datagram = true

/-- A `SIGCHLD` reaches the registered handler when the main process has ended. -/
def Noticed (run : Run (machine h) initial) : Prop :=
  ∃ t ws, run.event t = some (.deliver .sigchld) ∧
    (run.state t).registered = true ∧ (run.state t).main = .ended ws

/-- No `reap` finds children that have ended for ever. -/
def ReapsEnd (run : Run (machine h) initial) : Prop :=
  ∀ t exits, (run.state t).phase = .reaping exits →
    ∃ u, t ≤ u ∧ ∀ exits', (run.state u).phase ≠ .reaping exits'

def Event.isEnd : Event → Prop
  | .mainEnds _ => True
  | .childEnds _ _ => True
  | _ => False

variable {s : State}

theorem wait4_isSome (hphase : ∃ exits, s.phase = .reaping exits) : (wait4 h 0 s).isSome := by
  obtain ⟨exits, hexits⟩ := hphase
  cases hzombies : s.zombies with
  | nil => simp [wait4, hexits, hzombies]
  | cons z zombies => simp [wait4, hexits, hzombies]

variable {e : Event} {s' : State}

theorem reap_progress (hphase : ∃ exits, s.phase = .reaping exits)
    (hnoEnd : ¬ e.isEnd) (hmoves : Moves h s e s') :
    (∀ exits, s'.phase ≠ .reaping exits) ∨
      (∃ exits, s'.phase = .reaping exits) ∧ s'.zombies.length ≤ s.zombies.length ∧
        (e.isThread → s'.zombies.length < s.zombies.length) := by
  obtain ⟨exits, hexits⟩ := hphase
  cases hmoves with
  | mainEnds | childEnds => exact absurd trivial hnoEnd
  | started hp | enter hp | notified hp | gone hp =>
    rw [hexits] at hp
    cases hp
  | sigchld _ hp | skip _ _ hp =>
    rw [hexits] at hp
    cases hp
  | reaped k exits' hp hzombies =>
    left
    intro exits''
    change h.handle exits' ≠ _
    unfold Handler.handle
    split <;> exact fun hq => by cases hq
  | waited k exits' pid ws hp hk =>
    have hlt : (s.zombies.eraseIdx k).length < s.zombies.length := by
      have hlength := (List.getElem?_eq_some_iff.mp hk).1
      rw [List.length_eraseIdx_of_lt hlength]
      omega
    exact Or.inr ⟨⟨_, rfl⟩, Nat.le_of_lt hlt, fun _ => hlt⟩
  | _ => exact Or.inr ⟨⟨exits, hexits⟩, Nat.le_refl _, fun hthread => hthread.elim⟩

theorem reapsEnd_of_quiet (hfair : Scheduled run)
    (hquiet : ∀ u e, t ≤ u → run.event u = some e → ¬ e.isEnd) : ReapsEnd run := by
  intro v exits hphase
  by_cases hlater : ∃ exits', (run.state (max t v)).phase = .reaping exits'
  · obtain ⟨u, hu, hgoal⟩ :=
      Run.leadsTo_among (fun s : State => ∃ exits', s.phase = .reaping exits')
        (fun s => ∀ exits', s.phase ≠ .reaping exits') (fun s => s.zombies.length)
        hfair.thread
        (fun s hs _ => ⟨.wait4 0, trivial, wait4_isSome hs⟩)
        (fun s e s' hs _ hnoEnd hstep => reap_progress hs hnoEnd (step_moves hstep))
        (fun u e hu => hquiet u e (Nat.le_trans (Nat.le_max_left t v) hu)) hlater
    exact ⟨u, Nat.le_trans (Nat.le_max_right t v) hu, hgoal⟩
  · exact ⟨max t v, Nat.le_max_right t v, fun exits' hp => hlater ⟨exits', hp⟩⟩

theorem ReadySent.of_step (hbefore : ¬ ReadySent s)
    (hmoves : Moves h s e s') (hnow : ReadySent s') :
    ∃ datagram, e = .message datagram ∧ isReady datagram = true := by
  cases hmoves with
  | message datagram =>
    refine ⟨datagram, rfl, ?_⟩
    rcases hnow with hready | ⟨found, hmem, hready⟩
    · exact absurd (Or.inl hready) hbefore
    · rcases List.mem_append.mp hmem with hold | hnew
      · exact absurd (Or.inr ⟨found, hold, hready⟩) hbefore
      · cases List.mem_singleton.mp hnew
        exact hready
  | readSocket first inbox hphase hnone hinbox =>
    refine absurd (Or.inr ?_) hbefore
    rw [hinbox]
    rcases hnow with hready | ⟨found, hmem, hready⟩
    · exact ⟨first, List.mem_cons_self, hready⟩
    · exact ⟨found, List.mem_cons_of_mem _ hmem, hready⟩
  | _ => exact absurd hnow hbefore

theorem message_of_sent (hsent : ReadySent (run.state t)) :
    ∃ u datagram, run.event u = some (.message datagram) ∧ isReady datagram = true := by
  have hstart : ¬ ReadySent (run.state 0) := by
    rw [run.state_zero]
    rintro (hready | ⟨datagram, hmem, -⟩)
    · cases hready
    · cases hmem
  obtain ⟨u, e, -, -, hbefore, hevent, hnow⟩ := Run.exists_change (Nat.zero_le t) hstart hsent
  obtain ⟨datagram, rfl, hready⟩ :=
    ReadySent.of_step hbefore (step_moves (run.step_of_event hevent)) hnow
  exact ⟨u, datagram, hevent, hready⟩

theorem sent_of_message {datagram : List Char} (hevent : run.event t = some (.message datagram))
    (hready : isReady datagram = true) : ReadySent (run.state (t + 1)) := by
  have hmoves := step_moves (run.step_of_event hevent)
  generalize run.state (t + 1) = s' at hmoves
  cases hmoves with
  | message => exact Or.inr ⟨datagram, List.mem_append_right _ (List.mem_singleton_self _), hready⟩

theorem Told.of_step (hdetach : h.detach = false) (hbefore : ¬ Told s)
    (hmoves : Moves h s e s') (hnow : Told s') : e = .deliver .sigchld ∧ s.registered = true := by
  obtain ⟨hnone, hearly⟩ := not_or.mp hbefore
  cases hmoves with
  | deliver sig hpending =>
    have hmem := hnow.resolve_right hearly
    cases hregistered : s.registered with
    | true =>
      simp only [hregistered, if_true] at hmem
      rcases List.mem_append.mp hmem with hold | hnew
      · exact absurd hold hnone
      · cases List.mem_singleton.mp hnew
        exact ⟨rfl, rfl⟩
    | false =>
      simp only [hregistered, Bool.false_eq_true, if_false] at hmem
      exact absurd hmem hnone
  | sigchld signals hphase hsignals =>
    refine absurd ?_ hnone
    rw [hsignals]
    exact List.mem_cons_self
  | skip sig signals hphase hsignals =>
    refine absurd ?_ hnone
    rw [hsignals]
    exact List.mem_cons_of_mem _ (hnow.resolve_right hearly)
  | gone | notified =>
    refine absurd hnow (not_or.mpr ⟨hnone, ?_⟩)
    rw [Handler.afterNotify, hdetach]
    exact id
  | started => exact absurd hnow (not_or.mpr ⟨hnone, id⟩)
  | enter =>
    refine absurd hnow (not_or.mpr ⟨hnone, ?_⟩)
    rw [Handler.enter_of_foreground hdetach]
    cases h.waits <;> exact id
  | reaped k exits hphase | waited k exits pid ws hphase =>
    refine absurd ?_ hearly
    rw [hphase]
    trivial
  | _ => exact absurd hnow hbefore

theorem delivered_of_told (hdetach : h.detach = false) (htold : Told (run.state t)) :
    ∃ u, run.event u = some (.deliver .sigchld) ∧ (run.state u).registered = true := by
  have hstart : ¬ Told (run.state 0) := by
    rw [run.state_zero]
    rintro (hmem | hlate)
    · cases hmem
    · exact hlate
  obtain ⟨u, e, -, -, hbefore, hevent, hnow⟩ := Run.exists_change (Nat.zero_le t) hstart htold
  obtain ⟨rfl, hregistered⟩ :=
    Told.of_step hdetach hbefore (step_moves (run.step_of_event hevent)) hnow
  exact ⟨u, hevent, hregistered⟩

theorem delivered_of_pending (hfair : Scheduled run) (hpending : .sigchld ∈ (run.state t).pending) :
    ∃ u, t ≤ u ∧ run.event u = some (.deliver .sigchld) := by
  obtain ⟨u, e, hu, rfl, hevent⟩ :=
    Run.occurs (P := fun s : State => .sigchld ∈ s.pending) hfair.kernel
      (fun s hs => ⟨_, rfl, by simp [machine, deliver, hs]⟩)
      (fun s e s' hs hstep hother => (step_moves hstep).pending_mem hs hother) hpending
  exact ⟨u, hu, hevent⟩

variable {ws : WaitStatus}

theorem noticed_of_delivered (hfair : Scheduled run) {u : Nat}
    (hevent : run.event u = some (.deliver .sigchld))
    (hregistered : (run.state u).registered = true) (hended : (run.state t).main = .ended ws) :
    Noticed run := by
  by_cases hbefore : ∃ ws', (run.state u).main = .ended ws'
  · obtain ⟨ws', hws'⟩ := hbefore
    exact ⟨u, ws', hevent, hregistered, hws'⟩
  · -- the main process ends later, and its own signal is delivered
    have hut : u ≤ t := by
      by_contra hlt
      exact hbefore ⟨ws, main_stable (by omega) hended⟩
    obtain ⟨v, e, huv, -, hnot, hends, ws', hws'⟩ :=
      Run.exists_change (P := fun s : State => ∃ ws, s.main = .ended ws) hut hbefore ⟨ws, hended⟩
    have hpending : .sigchld ∈ (run.state (v + 1)).pending := by
      have hmoves := step_moves (run.step_of_event hends)
      generalize run.state (v + 1) = s' at hmoves hws'
      cases hmoves with
      | mainEnds => exact State.mem_raise _ _
      | start => cases hws'
      | _ => exact absurd ⟨ws', hws'⟩ hnot
    obtain ⟨w, hw, hdelivered⟩ := delivered_of_pending hfair hpending
    exact ⟨w, ws', hdelivered, registered_stable (by omega) hregistered, main_stable hw hws'⟩

theorem noted_of_delivered (hdetach : h.detach = false)
    (hevent : run.event t = some (.deliver .sigchld))
    (hregistered : (run.state t).registered = true) (hmain : (run.state t).main = .ended ws) :
    Noted h ws (run.state (t + 1)) where
  inv := inv_state hdetach run (t + 1)
  main := main_stable (Nat.le_succ t) hmain
  registered := registered_stable (Nat.le_succ t) hregistered
  told := by
    have hmoves := step_moves (run.step_of_event hevent)
    generalize run.state (t + 1) = s' at hmoves
    cases hmoves with
    | deliver sig hpending =>
      left
      simp only [hregistered, if_true]
      exact List.mem_append_right _ (List.mem_singleton_self _)

theorem reaches_reap (hdetach : h.detach = false) (hfair : Scheduled run) (hnotify : NotifyEnds run)
    (hnoted : Noted h ws (run.state t)) : ∃ u, t ≤ u ∧ (run.state u).phase.late := by
  have hloop : ∀ v, t ≤ v → (run.state v).phase = .looping →
      ∃ u, t ≤ u ∧ (run.state u).phase.late := by
    intro v hv hphase
    obtain ⟨u, hu, hlate⟩ := leaves_loop hdetach hfair (noted_stable hdetach hv hnoted) hphase
    exact ⟨u, Nat.le_trans hv hu, hlate⟩
  obtain ⟨v, hv, hstarting, hawaiting⟩ := leaves_start hdetach hfair hnoted
  cases hphase : (run.state v).phase with
  | starting => exact absurd hphase hstarting
  | awaiting => exact absurd hphase hawaiting
  | notifying =>
    have hstage := (inv_state hdetach run v).stage
    rw [hphase] at hstage
    have hsent : h.procVisible = true → ∃ u, ReadySent (run.state u) := by
      intro hproc
      obtain ⟨u, datagram, hevent, hready⟩ := hnotify hstage.1 hproc
      exact ⟨u + 1, sent_of_message hevent hready⟩
    obtain ⟨u, hu, hlooping⟩ := leaves_notify hdetach hfair hsent hphase
    exact hloop u (Nat.le_trans hv hu) hlooping
  | looping => exact hloop v hv hphase
  | reaping exits => exact ⟨v, hv, by rw [hphase]; trivial⟩
  | returned status => exact ⟨v, hv, by rw [hphase]; trivial⟩

/-- The end of the main process. -/
theorem forward_returns_iff (h : Handler) (hdetach : h.detach = false)
    (run : Run (machine h) initial) (hfair : Scheduled run) (t : Nat) (ws : WaitStatus)
    (hended : (run.state t).main = .ended ws) :
    (∃ u, (run.state u).phase = .returned (exitStatus ws)) ↔
      NotifyEnds run ∧ Noticed run ∧ ReapsEnd run := by
  constructor
  · rintro ⟨u, hreturned⟩
    have hstage := (inv_state hdetach run u).stage
    have htold : Told (run.state u) := Or.inr (by rw [hreturned]; trivial)
    rw [hreturned] at hstage
    refine ⟨fun hwaits hproc => ?_, ?_, fun v exits hphase => ?_⟩
    · exact message_of_sent (Or.inl (hstage.1 hwaits hproc))
    · obtain ⟨v, hevent, hregistered⟩ := delivered_of_told hdetach htold
      exact noticed_of_delivered hfair hevent hregistered hended
    · refine ⟨max v u, Nat.le_max_left v u, fun exits' hreaping => ?_⟩
      rw [returned_stable (Nat.le_max_right v u) hreturned] at hreaping
      cases hreaping
  · rintro ⟨hnotify, ⟨v, ws', hevent, hregistered, hmain⟩, hreaps⟩
    have hnoted := noted_of_delivered hdetach hevent hregistered hmain
    have hsame : ws' = ws := by
      have hlast := main_stable (Nat.le_max_left v t) hmain
      rw [main_stable (Nat.le_max_right v t) hended] at hlast
      cases hlast
      rfl
    subst hsame
    obtain ⟨u, hu, hlate⟩ := reaches_reap hdetach hfair hnotify hnoted
    exact leaves_reap hdetach hreaps (noted_stable hdetach hu hnoted) hlate

theorem scheduled_play {events : List Event} (hallows : (machine h).allows initial events = true)
    (hproceed : proceed h ((machine h).after initial events) = none)
    (hwait4 : ∀ k, wait4 h k ((machine h).after initial events) = none)
    (hreader : readSocket ((machine h).after initial events) = none)
    (hkernel : deliver .sigchld ((machine h).after initial events) = none)
    (hticker : h.procVisible = true) : Scheduled ((machine h).play initial events hallows) where
  thread := Machine.play_fair hallows fun e he => by
    cases e with
    | proceed => exact hproceed
    | wait4 k => exact hwait4 k
    | _ => exact he.elim
  reader := Machine.play_fair hallows fun e he => by
    subst he
    exact hreader
  ticker hproc := by
    rw [hticker] at hproc
    cases hproc
  kernel := Machine.play_fair hallows fun e he => by
    subst he
    exact hkernel

def killed : List Event :=
  [.start, .register, .proceed, .proceed, .message "READY=1".toList, .readSocket, .tick,
    .proceed, .mainEnds (.signaled 9), .deliver .sigchld, .proceed, .wait4 0, .wait4 0]

theorem killed_allowed :
    (machine { pid1 := 7, notifySocket := true }).allows initial killed = true := by
  decide

theorem forward_returns_killed :
    ∃ u, (((machine { pid1 := 7, notifySocket := true }).play initial killed
      killed_allowed).state u).phase = .returned 137 := by
  have hfair := scheduled_play killed_allowed rfl (fun _ => rfl) rfl rfl rfl
  refine (forward_returns_iff _ rfl _ hfair 9 (.signaled 9) rfl).mpr ⟨?_, ?_, ?_⟩
  · exact fun _ _ => ⟨4, "READY=1".toList, rfl, rfl⟩
  · exact ⟨9, .signaled 9, rfl, rfl, rfl⟩
  · refine reapsEnd_of_quiet (t := 13) hfair fun u e hu hevent => ?_
    have hsome : killed[u]? = some e := hevent
    rw [List.getElem?_eq_none hu] at hsome
    cases hsome

/-- The main process has ended, and `forward` does not return. -/
def Hangs (h : Handler) : Prop :=
  ∃ run : Run (machine h) initial,
    Scheduled run ∧ (∃ t ws, (run.state t).main = .ended ws) ∧
      ∀ t status, (run.state t).phase ≠ .returned status

theorem hangs_play {events : List Event} (hallows : (machine h).allows initial events = true)
    (hfair : Scheduled ((machine h).play initial events hallows))
    (hmain : ((machine h).after initial events).main = .ended ws)
    (hphase : ∀ status, ((machine h).after initial events).phase ≠ .returned status) : Hangs h := by
  have hlast := Machine.play_state hallows (Nat.le_refl events.length)
  refine ⟨_, hfair, ⟨events.length, ws, by rw [hlast]; exact hmain⟩, fun t status hp => ?_⟩
  have hlater := returned_stable (Nat.le_max_left t events.length) hp
  rw [Machine.play_state hallows (Nat.le_max_right t events.length)] at hlater
  exact hphase status hlater

def silent : List Event :=
  [.start, .register, .proceed, .proceed, .tick, .mainEnds (.exited 0), .deliver .sigchld,
    .tick]

def quick : List Event :=
  [.start, .mainEnds (.exited 0), .deliver .sigchld, .register, .proceed, .proceed]

theorem forward_hangs : Hangs { pid1 := 7, notifySocket := true } ∧ Hangs { pid1 := 7 } := by
  constructor
  · have hallows : (machine { pid1 := 7, notifySocket := true }).allows initial silent = true := by
      decide
    have hfair := scheduled_play hallows rfl (fun _ => rfl) rfl rfl rfl
    exact hangs_play hallows hfair rfl fun _ hp => by cases hp
  · have hallows : (machine { pid1 := 7 }).allows initial quick = true := by
      decide
    have hfair := scheduled_play hallows rfl (fun _ => rfl) rfl rfl rfl
    exact hangs_play hallows hfair rfl fun _ hp => by cases hp

end Runc.Signals
