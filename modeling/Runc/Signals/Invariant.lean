import Runc.Signals.Model

/-!
# The end of the main process

**Results.**
* `inv_state`: for a foreground container, what is known of the main process's end in
  each phase of the main thread; what is returned is its status.
-/

namespace Runc.Signals

open Lib (Machine Run)

variable {h : Handler}

inductive Moves (h : Handler) (s : State) : Event → State → Prop
  | register :
      Moves h s .register { s with registered := true }
  | start
      (hmain : s.main = .absent) :
      Moves h s .start { s with main := .alive }
  | mainEnds
      (ws : WaitStatus)
      (hmain : s.main = .alive) :
      Moves h s (.mainEnds ws) ({ s with main := .ended ws }.childEnds h.pid1 ws)
  | childEnds
      (pid : Nat)
      (ws : WaitStatus)
      (hpid : pid ≠ h.pid1) :
      Moves h s (.childEnds pid ws) (s.childEnds pid ws)
  | signal
      (sig : Signal) :
      Moves h s (.signal sig) (s.raise sig)
  | deliver
      (sig : Signal)
      (hpending : sig ∈ s.pending) :
      Moves h s (.deliver sig)
        { s with
          pending := s.pending.erase sig
          signals := if s.registered then s.signals ++ [sig] else s.signals }
  | message
      (datagram : List Char) :
      Moves h s (.message datagram) { s with inbox := s.inbox ++ [datagram] }
  | readSocket
      (datagram : List Char)
      (inbox : List (List Char))
      (hphase : s.phase = .notifying)
      (hready : s.ready = false)
      (hinbox : s.inbox = datagram :: inbox) :
      Moves h s .readSocket { s with inbox := inbox, ready := isReady datagram }
  | tick
      (hphase : s.phase = .notifying)
      (hproc : h.procVisible = true) :
      Moves h s .tick s
  | gone
      (hphase : s.phase = .notifying)
      (hproc : h.procVisible = false) :
      Moves h s .tick { s with phase := h.afterNotify }
  | started
      (hphase : s.phase = .starting) :
      Moves h s .proceed { s with phase := .awaiting }
  | enter
      (hphase : s.phase = .awaiting) :
      Moves h s .proceed { s with phase := h.enter }
  | notified
      (hphase : s.phase = .notifying)
      (hready : s.ready = true) :
      Moves h s .proceed { s with phase := h.afterNotify }
  | sigchld
      (signals : List Signal)
      (hphase : s.phase = .looping)
      (hsignals : s.signals = .sigchld :: signals) :
      Moves h s .proceed { s with signals := signals, phase := .reaping [] }
  | skip
      (sig : Signal)
      (signals : List Signal)
      (hphase : s.phase = .looping)
      (hsignals : s.signals = sig :: signals)
      (hsig : sig ≠ .sigchld) :
      Moves h s .proceed { s with signals := signals }
  | reaped
      (k : Nat)
      (exits : List Exit)
      (hphase : s.phase = .reaping exits)
      (hzombies : s.zombies = []) :
      Moves h s (.wait4 k) { s with phase := h.handle exits }
  | waited
      (k : Nat)
      (exits : List Exit)
      (pid : Nat)
      (ws : WaitStatus)
      (hphase : s.phase = .reaping exits)
      (hk : s.zombies[k]? = some (pid, ws)) :
      Moves h s (.wait4 k)
        { s with
          zombies := s.zombies.eraseIdx k
          phase := .reaping (exits ++ [⟨pid, exitStatus ws⟩]) }

variable {s s' : State}

theorem tick_moves (hstep : tick h s = some s') : Moves h s .tick s' := by
  unfold tick at hstep
  cases hphase : s.phase with
  | notifying =>
    rw [hphase] at hstep
    cases hproc : h.procVisible with
    | true =>
      simp only [hproc, if_true, Option.some.injEq] at hstep
      exact hstep ▸ .tick hphase hproc
    | false =>
      simp only [hproc, Bool.false_eq_true, if_false, Option.some.injEq] at hstep
      exact hstep ▸ .gone hphase hproc
  | _ => simp only [hphase, reduceCtorEq] at hstep

theorem proceed_moves (hstep : proceed h s = some s') : Moves h s .proceed s' := by
  unfold proceed at hstep
  cases hphase : s.phase with
  | starting =>
    simp only [hphase, Option.ite_none_left_eq_some, Option.some.injEq] at hstep
    exact hstep.2 ▸ .started hphase
  | awaiting =>
    simp only [hphase, Option.ite_none_right_eq_some, Option.some.injEq] at hstep
    exact hstep.2 ▸ .enter hphase
  | notifying =>
    simp only [hphase, Option.ite_none_right_eq_some, Option.some.injEq] at hstep
    exact hstep.2 ▸ .notified hphase hstep.1
  | looping =>
    simp only [hphase] at hstep
    cases hsignals : s.signals with
    | nil => simp only [hsignals, reduceCtorEq] at hstep
    | cons sig signals =>
      simp only [hsignals, Option.some.injEq] at hstep
      subst hstep
      by_cases hsig : sig = .sigchld
      · subst hsig
        exact .sigchld signals hphase hsignals
      · rw [if_neg hsig, ← hphase]
        exact .skip sig signals hphase hsignals hsig
  | reaping exits => simp only [hphase, reduceCtorEq] at hstep
  | returned status => simp only [hphase, reduceCtorEq] at hstep

theorem wait4_moves {k : Nat} (hstep : wait4 h k s = some s') : Moves h s (.wait4 k) s' := by
  unfold wait4 at hstep
  cases hphase : s.phase with
  | reaping exits =>
    simp only [hphase] at hstep
    by_cases hzombies : s.zombies = []
    · rw [if_pos hzombies, Option.some.injEq] at hstep
      exact hstep ▸ .reaped k exits hphase hzombies
    · rw [if_neg hzombies] at hstep
      cases hk : s.zombies[k]? with
      | none => simp only [hk, reduceCtorEq] at hstep
      | some z =>
        simp only [hk, Option.some.injEq] at hstep
        exact hstep ▸ .waited k exits z.1 z.2 hphase hk
  | _ => simp only [hphase, reduceCtorEq] at hstep

theorem step_moves {e : Event} (hstep : (machine h).step s e = some s') : Moves h s e s' := by
  cases e with
  | register =>
    simp only [machine, Option.ite_none_left_eq_some, Option.some.injEq] at hstep
    exact hstep.2 ▸ .register
  | start =>
    simp only [machine, Option.ite_none_right_eq_some, Option.some.injEq] at hstep
    exact hstep.2 ▸ .start hstep.1
  | mainEnds ws =>
    simp only [machine, Option.ite_none_right_eq_some, Option.some.injEq] at hstep
    exact hstep.2 ▸ .mainEnds ws hstep.1
  | childEnds pid ws =>
    simp only [machine, Option.ite_none_left_eq_some, Option.some.injEq] at hstep
    exact hstep.2 ▸ .childEnds pid ws hstep.1
  | signal sig =>
    simp only [machine, Option.ite_none_right_eq_some, Option.some.injEq] at hstep
    exact hstep.2 ▸ .signal sig
  | deliver sig =>
    simp only [machine, deliver, Option.ite_none_right_eq_some, Option.some.injEq] at hstep
    exact hstep.2 ▸ .deliver sig hstep.1
  | message datagram =>
    simp only [machine, Option.some.injEq] at hstep
    exact hstep ▸ .message datagram
  | readSocket =>
    simp only [machine, readSocket] at hstep
    split at hstep
    · rename_i datagram inbox hphase hready hinbox
      cases hstep
      exact .readSocket datagram inbox hphase hready hinbox
    · cases hstep
  | tick => exact tick_moves hstep
  | proceed => exact proceed_moves hstep
  | wait4 k => exact wait4_moves hstep

def Kept (h : Handler) (s : State) : Prop :=
  ∀ ws, s.main = .ended ws → (h.pid1, ws) ∈ s.zombies

def Notified (h : Handler) (s : State) : Prop :=
  h.waits = true → h.procVisible = true → s.ready = true

def Stage (h : Handler) (s : State) : Phase → Prop
  | .starting => Kept h s
  | .awaiting => Kept h s
  | .notifying => h.waits = true ∧ Kept h s
  | .looping => Notified h s ∧ Kept h s
  | .reaping exits =>
      Notified h s ∧
        (∀ ws, s.main = .ended ws →
          (h.pid1, ws) ∈ s.zombies ∨ ⟨h.pid1, exitStatus ws⟩ ∈ exits) ∧
        ∀ e ∈ exits, e.pid = h.pid1 →
          ∃ ws, s.main = .ended ws ∧ e.status = exitStatus ws
  | .returned status =>
      Notified h s ∧ ∃ ws, s.main = .ended ws ∧ status = exitStatus ws

structure Inv (h : Handler) (s : State) : Prop where
  zombie : ∀ ws, (h.pid1, ws) ∈ s.zombies → s.main = .ended ws
  stage : Stage h s s.phase

theorem Handler.enter_of_foreground (hdetach : h.detach = false) :
    h.enter = if h.waits then .notifying else .looping := by
  simp only [Handler.enter, Handler.afterNotify, hdetach, Bool.false_and,
    Bool.false_eq_true, if_false, ite_self]

theorem inv_initial : Inv h initial where
  zombie := fun _ hmem => by cases hmem
  stage := fun _ hmain => by cases hmain

theorem Stage.of_no_end {phase : Phase} (hstage : Stage h s phase)
    (hnever : ∀ ws, s.main ≠ .ended ws) (hkept : Kept h s') (hready : s'.ready = s.ready) :
    Stage h s' phase := by
  have hnotified : Notified h s → Notified h s' := by
    unfold Notified
    rw [hready]
    exact id
  cases phase with
  | starting => exact hkept
  | awaiting => exact hkept
  | notifying => exact ⟨hstage.1, hkept⟩
  | looping => exact ⟨hnotified hstage.1, hkept⟩
  | reaping exits =>
    refine ⟨hnotified hstage.1, fun ws hws => Or.inl (hkept ws hws), fun e he hpid => ?_⟩
    obtain ⟨ws, hws, -⟩ := hstage.2.2 e he hpid
    exact absurd hws (hnever ws)
  | returned status =>
    obtain ⟨-, ws, hws, -⟩ := hstage
    exact absurd hws (hnever ws)

theorem Stage.mono {phase : Phase} (hstage : Stage h s phase)
    (hmain : s'.main = s.main) (hzombies : ∀ z ∈ s.zombies, z ∈ s'.zombies)
    (hready : s.ready = true → s'.ready = true) : Stage h s' phase := by
  have hnotified : Notified h s → Notified h s' := fun hn hwaits hproc =>
    hready (hn hwaits hproc)
  have hkept : Kept h s → Kept h s' := fun hk ws hws =>
    hzombies _ (hk ws (hmain ▸ hws))
  cases phase with
  | starting => exact hkept hstage
  | awaiting => exact hkept hstage
  | notifying => exact ⟨hstage.1, hkept hstage.2⟩
  | looping => exact ⟨hnotified hstage.1, hkept hstage.2⟩
  | reaping exits =>
    refine ⟨hnotified hstage.1, fun ws hws => ?_, ?_⟩
    · exact (hstage.2.1 ws (hmain ▸ hws)).imp_left (hzombies _)
    · rw [hmain]
      exact hstage.2.2
  | returned status =>
    refine ⟨hnotified hstage.1, ?_⟩
    rw [hmain]
    exact hstage.2

namespace Inv

variable {s s' : State}

theorem start (hinv : Inv h s) (hmain : s.main = .absent) : Inv h { s with main := .alive } := by
  have hnever : ∀ ws, s.main ≠ .ended ws := fun ws hp => by
    rw [hmain] at hp
    cases hp
  exact ⟨fun ws hmem => absurd (hinv.zombie ws hmem) (hnever ws),
    hinv.stage.of_no_end hnever (fun _ hp => by cases hp) rfl⟩

theorem mainEnds (hinv : Inv h s) (hmain : s.main = .alive) (ws : WaitStatus) :
    Inv h ({ s with main := .ended ws }.childEnds h.pid1 ws) := by
  have hnever : ∀ ws', s.main ≠ .ended ws' := fun ws' hp => by
    rw [hmain] at hp
    cases hp
  refine ⟨fun ws' hmem => ?_, hinv.stage.of_no_end hnever ?_ rfl⟩
  · rcases List.mem_append.mp hmem with hold | hnew
    · exact absurd (hinv.zombie ws' hold) (hnever ws')
    · cases List.mem_singleton.mp hnew
      rfl
  · rintro _ ⟨⟩
    exact List.mem_append_right _ (List.mem_singleton_self _)

theorem childEnds (hinv : Inv h s) {pid : Nat} (hpid : pid ≠ h.pid1) (ws : WaitStatus) :
    Inv h (s.childEnds pid ws) := by
  refine ⟨fun ws' hmem => ?_, hinv.stage.mono rfl (fun z hz => List.mem_append_left _ hz) id⟩
  rcases List.mem_append.mp hmem with hold | hnew
  · exact hinv.zombie ws' hold
  · cases List.mem_singleton.mp hnew
    exact absurd rfl hpid

theorem setPhase (hinv : Inv h s) {phase : Phase} (hstage : Stage h s phase) :
    Inv h { s with phase := phase } :=
  ⟨hinv.zombie, hstage.mono rfl (fun _ hz => hz) id⟩

theorem of_handle (hinv : Inv h s) {exits : List Exit} (hstage : Stage h s (.reaping exits)) :
    Inv h { s with phase := h.handle exits } := by
  refine hinv.setPhase ?_
  unfold Handler.handle
  cases hfind : exits.find? fun e => e.pid = h.pid1 with
  | none =>
    refine ⟨hstage.1, fun ws hws => ?_⟩
    rcases hstage.2.1 ws hws with hmem | hmem
    · exact hmem
    · exact absurd rfl (of_decide_eq_false (Bool.eq_false_iff.mpr
        (List.find?_eq_none.mp hfind _ hmem)))
  | some e =>
    have hpid : e.pid = h.pid1 := by
      have hfound := List.find?_some hfind
      exact of_decide_eq_true hfound
    exact ⟨hstage.1, hstage.2.2 e (List.mem_of_find?_eq_some hfind) hpid⟩

theorem of_waited (hinv : Inv h s) {k : Nat} {exits : List Exit} {pid : Nat} {ws : WaitStatus}
    (hstage : Stage h s (.reaping exits)) (hk : s.zombies[k]? = some (pid, ws)) :
    Inv h { s with
      zombies := s.zombies.eraseIdx k
      phase := .reaping (exits ++ [⟨pid, exitStatus ws⟩]) } := by
  have hzombie := hinv.zombie
  refine ⟨fun ws' hmem => hzombie ws' (List.mem_of_mem_eraseIdx hmem), hstage.1,
    fun ws' hws' => ?_, fun e he hpid => ?_⟩
  · rcases hstage.2.1 ws' hws' with hmem | hmem
    · obtain ⟨j, hj⟩ := List.mem_iff_getElem?.mp hmem
      by_cases hjk : j = k
      · rw [hjk, hk] at hj
        cases hj
        exact Or.inr (List.mem_append_right _ (List.mem_singleton_self _))
      · exact Or.inl (List.mem_eraseIdx_iff_getElem?.mpr ⟨j, hjk, hj⟩)
    · exact Or.inr (List.mem_append_left _ hmem)
  · rcases List.mem_append.mp he with hold | hnew
    · exact hstage.2.2 e hold hpid
    · cases List.mem_singleton.mp hnew
      have hmain : pid = h.pid1 := hpid
      subst hmain
      exact ⟨ws, hzombie ws (List.mem_of_getElem? hk), rfl⟩

theorem of_moves (hdetach : h.detach = false) (hinv : Inv h s) {e : Event}
    (hmoves : Moves h s e s') : Inv h s' := by
  have hstage : ∀ {phase}, s.phase = phase → Stage h s phase := fun hphase =>
    hphase ▸ hinv.stage
  cases hmoves with
  | start hmain => exact hinv.start hmain
  | mainEnds ws hmain => exact hinv.mainEnds hmain ws
  | childEnds pid ws hpid => exact hinv.childEnds hpid ws
  | readSocket datagram inbox hphase hready hinbox =>
    refine ⟨hinv.zombie, hinv.stage.mono rfl (fun _ hz => hz) fun hp => ?_⟩
    rw [hready] at hp
    cases hp
  | gone hphase hproc =>
    rw [Handler.afterNotify, hdetach]
    refine hinv.setPhase ⟨fun _ hp => ?_, (hstage hphase).2⟩
    rw [hproc] at hp
    cases hp
  | started hphase =>
    have hkept : Kept h s := hstage hphase
    exact hinv.setPhase hkept
  | enter hphase =>
    refine hinv.setPhase ?_
    rw [Handler.enter_of_foreground hdetach]
    cases hwaits : h.waits with
    | true => exact ⟨hwaits, hstage hphase⟩
    | false =>
      refine ⟨fun hp => ?_, hstage hphase⟩
      rw [hwaits] at hp
      cases hp
  | notified hphase hready =>
    rw [Handler.afterNotify, hdetach]
    exact hinv.setPhase ⟨fun _ _ => hready, (hstage hphase).2⟩
  | sigchld signals hphase hsignals =>
    have hloop := hstage hphase
    exact ⟨hinv.zombie, hloop.1, fun ws hws => Or.inl (hloop.2 ws hws), fun e he => by cases he⟩
  | reaped k exits hphase hzombies => exact hinv.of_handle (hstage hphase)
  | waited k exits pid ws hphase hk => exact hinv.of_waited (hstage hphase) hk
  | _ => exact ⟨hinv.zombie, hinv.stage.mono rfl (fun _ hz => hz) id⟩

end Inv

theorem inv_step (hdetach : h.detach = false) (s : State) (e : Event) (s' : State) (hinv : Inv h s)
    (hstep : (machine h).step s e = some s') : Inv h s' :=
  hinv.of_moves hdetach (step_moves hstep)

theorem inv_state (hdetach : h.detach = false) (run : Run (machine h) initial) (t : Nat) :
    Inv h (run.state t) :=
  Run.invariant inv_initial (inv_step hdetach) t

end Runc.Signals
