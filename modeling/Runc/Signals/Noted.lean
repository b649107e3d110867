import Runc.Signals.Invariant

/-!
# What stays

**Results.**
* `Noted`, `Noted.of_moves`: the end of the main process, once the handler has been
  told of a child that ended, is not forgotten.
-/

namespace Runc.Signals

open Lib (Machine Run)

variable {h : Handler} {s s' : State} {e : Event}

inductive Turn (h : Handler) : Phase → Phase → Prop
  | started : Turn h .starting .awaiting
  | enter : Turn h .awaiting h.enter
  | notified : Turn h .notifying h.afterNotify
  | sigchld : Turn h .looping (.reaping [])
  | skip : Turn h .looping .looping
  | waited (exits : List Exit) (e : Exit) :
      Turn h (.reaping exits) (.reaping (exits ++ [e]))
  | reaped (exits : List Exit) : Turn h (.reaping exits) (h.handle exits)

theorem Moves.turn (hmoves : Moves h s e s') :
    (¬ e.isThread ∧ s'.phase = s.phase ∧ (e = .tick → h.procVisible = true)) ∨
      Turn h s.phase s'.phase := by
  cases hmoves with
  | tick hphase hproc => exact Or.inl ⟨id, rfl, fun _ => hproc⟩
  | gone hphase => exact Or.inr (hphase ▸ .notified)
  | started hphase => exact Or.inr (hphase ▸ .started)
  | enter hphase => exact Or.inr (hphase ▸ .enter)
  | notified hphase => exact Or.inr (hphase ▸ .notified)
  | sigchld signals hphase => exact Or.inr (hphase ▸ .sigchld)
  | skip sig signals hphase => exact Or.inr (hphase.symm ▸ .skip)
  | reaped k exits hphase => exact Or.inr (hphase ▸ .reaped exits)
  | waited k exits pid ws hphase => exact Or.inr (hphase ▸ .waited exits _)
  | _ => exact Or.inl ⟨id, rfl, fun he => by cases he⟩

theorem Moves.signals_eq (hmoves : Moves h s e s') (hthread : ¬ e.isThread) :
    ∃ added, s'.signals = s.signals ++ added := by
  cases hmoves with
  | deliver sig hpending =>
    cases hregistered : s.registered with
    | true => exact ⟨[sig], by simp only [if_true]⟩
    | false => exact ⟨[], by simp only [Bool.false_eq_true, if_false, List.append_nil]⟩
  | sigchld | skip => exact absurd trivial hthread
  | _ => exact ⟨[], (List.append_nil _).symm⟩

theorem Moves.inbox_eq (hmoves : Moves h s e s') (hread : e ≠ .readSocket) :
    s'.ready = s.ready ∧ ∃ added, s'.inbox = s.inbox ++ added := by
  cases hmoves with
  | message datagram => exact ⟨rfl, [datagram], rfl⟩
  | readSocket => exact absurd rfl hread
  | _ => exact ⟨rfl, [], (List.append_nil _).symm⟩

theorem State.mem_raise (s : State) (sig : Signal) : sig ∈ (s.raise sig).pending := by
  change sig ∈ if sig ∈ s.pending then s.pending else s.pending ++ [sig]
  split
  · assumption
  · exact List.mem_append_right _ (List.mem_singleton_self _)

theorem Moves.pending_mem (hmoves : Moves h s e s') {sig : Signal} (hpending : sig ∈ s.pending)
    (hother : e ≠ .deliver sig) : sig ∈ s'.pending := by
  have hraise : ∀ raised, sig ∈ (s.raise raised).pending := by
    intro raised
    change sig ∈ if raised ∈ s.pending then s.pending else s.pending ++ [raised]
    split
    · exact hpending
    · exact List.mem_append_left _ hpending
  cases hmoves with
  | mainEnds | childEnds | signal => exact hraise _
  | deliver delivered =>
    have hne : sig ≠ delivered := fun hp => hother (by rw [hp])
    exact (List.mem_erase_of_ne hne).mpr hpending
  | _ => exact hpending

variable {ws : WaitStatus}

theorem Moves.main_eq (hmoves : Moves h s e s') (hmain : s.main = .ended ws) :
    s'.main = .ended ws := by
  cases hmoves with
  | start hold =>
    rw [hmain] at hold
    cases hold
  | mainEnds ws' hold =>
    rw [hmain] at hold
    cases hold
  | _ => exact hmain

theorem Moves.registered_eq (hmoves : Moves h s e s') (hregistered : s.registered = true) :
    s'.registered = true := by
  cases hmoves with
  | register => rfl
  | _ => exact hregistered

theorem Moves.ready_eq (hmoves : Moves h s e s') (hready : s.ready = true) : s'.ready = true := by
  cases hmoves with
  | readSocket datagram inbox hphase hold =>
    rw [hready] at hold
    cases hold
  | _ => exact hready

theorem Moves.returned_eq (hmoves : Moves h s e s') {status : Nat}
    (hphase : s.phase = .returned status) : s'.phase = .returned status := by
  have hne : ∀ {phase}, s.phase = phase → phase = .returned status := fun hp =>
    hp.symm.trans hphase
  cases hmoves with
  | gone hp | started hp | enter hp | notified hp => cases hne hp
  | sigchld _ hp => cases hne hp
  | skip _ _ hp => cases hne hp
  | reaped _ _ hp => cases hne hp
  | waited _ _ _ _ hp => cases hne hp
  | _ => exact hphase

section Stable

variable {run : Run (machine h) initial} {t u : Nat}

theorem main_stable (htu : t ≤ u) {ws : WaitStatus} (hmain : (run.state t).main = .ended ws) :
    (run.state u).main = .ended ws :=
  Run.stable (P := fun s : State => s.main = .ended ws)
    (fun _ _ _ hold hstep => (step_moves hstep).main_eq hold) htu hmain

theorem registered_stable (htu : t ≤ u) (hregistered : (run.state t).registered = true) :
    (run.state u).registered = true :=
  Run.stable (P := fun s : State => s.registered = true)
    (fun _ _ _ hold hstep => (step_moves hstep).registered_eq hold) htu hregistered

theorem returned_stable (htu : t ≤ u) {status : Nat}
    (hphase : (run.state t).phase = .returned status) : (run.state u).phase = .returned status :=
  Run.stable (P := fun s : State => s.phase = .returned status)
    (fun _ _ _ hold hstep => (step_moves hstep).returned_eq hold) htu hphase

end Stable

/-- `reap` was called. -/
def Phase.late : Phase → Prop
  | .reaping _ => True
  | .returned _ => True
  | _ => False

/-- A `SIGCHLD` is in the channel, or was taken from it. -/
def Told (s : State) : Prop :=
  .sigchld ∈ s.signals ∨ s.phase.late

structure Noted (h : Handler) (ws : WaitStatus) (s : State) : Prop where
  inv : Inv h s
  main : s.main = .ended ws
  registered : s.registered = true
  told : Told s

theorem Inv.handle_eq (hinv : Inv h s) {exits : List Exit} (hphase : s.phase = .reaping exits)
    (hzombies : s.zombies = []) (hmain : s.main = .ended ws) :
    h.handle exits = .returned (exitStatus ws) := by
  have hstage := (hinv.of_handle (hphase ▸ hinv.stage)).stage
  change Stage h _ (h.handle exits) at hstage
  unfold Handler.handle at hstage ⊢
  cases hfind : exits.find? fun e => e.pid = h.pid1 with
  | none =>
    rw [hfind] at hstage
    have hmem := hstage.2 ws hmain
    change _ ∈ s.zombies at hmem
    rw [hzombies] at hmem
    cases hmem
  | some e =>
    rw [hfind] at hstage
    obtain ⟨-, ws', hws', hstatus⟩ := hstage
    have hsame : s.main = .ended ws' := hws'
    rw [hmain] at hsame
    cases hsame
    exact congrArg Phase.returned hstatus

theorem Inv.late_of_moves (hinv : Inv h s) (hmain : s.main = .ended ws)
    (hlate : s.phase.late) (hmoves : Moves h s e s') : s'.phase.late := by
  have hne : ∀ {phase}, s.phase = phase → ¬ phase.late → False := fun hp hn =>
    hn (hp ▸ hlate)
  cases hmoves with
  | gone hp | started hp | enter hp | notified hp => exact (hne hp id).elim
  | sigchld | waited => trivial
  | skip sig signals hp => exact (hne hp id).elim
  | reaped k exits hphase hzombies =>
    change (h.handle exits).late
    rw [hinv.handle_eq hphase hzombies hmain]
    trivial
  | _ => exact hlate

theorem Told.of_moves (hmem : .sigchld ∈ s.signals) (hmoves : Moves h s e s') : Told s' := by
  cases hmoves with
  | deliver sig hpending =>
    left
    change _ ∈ if s.registered then s.signals ++ [sig] else s.signals
    split
    · exact List.mem_append_left _ hmem
    · exact hmem
  | sigchld => exact Or.inr trivial
  | skip sig signals hphase hsignals hsig =>
    rw [hsignals] at hmem
    exact Or.inl ((List.mem_cons.mp hmem).resolve_left (Ne.symm hsig))
  | _ => exact Or.inl hmem

theorem Noted.of_moves (hdetach : h.detach = false) (hnoted : Noted h ws s)
    (hmoves : Moves h s e s') : Noted h ws s' where
  inv := hnoted.inv.of_moves hdetach hmoves
  main := hmoves.main_eq hnoted.main
  registered := hmoves.registered_eq hnoted.registered
  told := hnoted.told.elim (fun hmem => Told.of_moves hmem hmoves) fun hlate =>
    Or.inr (hnoted.inv.late_of_moves hnoted.main hlate hmoves)

theorem noted_stable (hdetach : h.detach = false) {run : Run (machine h) initial}
    {t u : Nat} (htu : t ≤ u) (hnoted : Noted h ws (run.state t)) : Noted h ws (run.state u) :=
  Run.stable (fun _ _ _ hold hstep => hold.of_moves hdetach (step_moves hstep)) htu hnoted

end Runc.Signals
