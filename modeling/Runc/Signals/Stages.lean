import Runc.Signals.Noted

/-!
# From phase to phase

Once the handler has been told of the end of a child, and the main process has ended,
the main thread of a foreground container goes on to the return of `forward`.
-/

namespace Runc.Signals

open Lib (Machine Run)

variable {h : Handler} {run : Run (machine h) initial} {ws : WaitStatus} {t : Nat}

theorem firstPlace_append {α : Type} {p : α → Bool} {xs ys : List α} {x : α} (hmem : x ∈ xs)
    (hp : p x = true) : (xs ++ ys).findIdx p = xs.findIdx p := by
  rw [List.findIdx_append, if_pos (List.findIdx_lt_length_of_exists ⟨x, hmem, hp⟩)]

theorem leaves_phase (hdetach : h.detach = false) (hfair : Scheduled run) (phase : Phase)
    (hallowed : ∀ s, Noted h ws s → s.phase = phase → (proceed h s).isSome)
    (hnoted : Noted h ws (run.state t)) (hphase : (run.state t).phase = phase) :
    ∃ u, t ≤ u ∧ Turn h phase (run.state u).phase := by
  refine Run.follows (fun s => Noted h ws s ∧ s.phase = phase)
    (fun s => Turn h phase s.phase) hfair.thread ?_ ?_ ⟨hnoted, hphase⟩
  · rintro s ⟨hs, hp⟩
    exact ⟨.proceed, trivial, hallowed s hs hp⟩
  · rintro s e s' ⟨hs, hp⟩ hstep
    have hmoves := step_moves hstep
    rcases hmoves.turn with ⟨hthread, hsame, -⟩ | hturn
    · exact Or.inr ⟨⟨hs.of_moves hdetach hmoves, hsame.trans hp⟩, hthread⟩
    · rw [hp] at hturn
      exact Or.inl hturn

theorem leaves_start (hdetach : h.detach = false) (hfair : Scheduled run)
    (hnoted : Noted h ws (run.state t)) :
    ∃ u, t ≤ u ∧ (run.state u).phase ≠ .starting ∧ (run.state u).phase ≠ .awaiting := by
  have hawaiting : ∀ v, t ≤ v → (run.state v).phase = .awaiting →
      ∃ u, t ≤ u ∧ (run.state u).phase ≠ .starting ∧ (run.state u).phase ≠ .awaiting := by
    intro v hv hphase
    obtain ⟨u, hu, hturn⟩ := leaves_phase hdetach hfair .awaiting
      (fun s hs hp => by simp [proceed, hp, hs.registered])
      (noted_stable hdetach hv hnoted) hphase
    refine ⟨u, Nat.le_trans hv hu, ?_⟩
    generalize (run.state u).phase = phase at hturn
    cases hturn
    rw [Handler.enter_of_foreground hdetach]
    cases h.waits <;> simp
  cases hphase : (run.state t).phase with
  | starting =>
    obtain ⟨u, hu, hturn⟩ := leaves_phase hdetach hfair .starting
      (fun s hs hp => by simp [proceed, hp, hs.main]) hnoted hphase
    refine hawaiting u hu ?_
    generalize (run.state u).phase = phase at hturn
    cases hturn
    rfl
  | awaiting => exact hawaiting t (Nat.le_refl t) hphase
  | _ => exact ⟨t, Nat.le_refl t, by simp [hphase]⟩

def ReadySent (s : State) : Prop :=
  s.ready = true ∨ ∃ datagram ∈ s.inbox, isReady datagram = true

theorem ReadySent.of_moves {s s' : State} {e : Event} (hsent : ReadySent s)
    (hmoves : Moves h s e s') : ReadySent s' := by
  rcases hsent with hready | ⟨datagram, hmem, hready⟩
  · exact Or.inl (hmoves.ready_eq hready)
  · cases hmoves with
    | readSocket first inbox hphase hnone hinbox =>
      rw [hinbox] at hmem
      rcases List.mem_cons.mp hmem with rfl | hrest
      · exact Or.inl hready
      · exact Or.inr ⟨datagram, hrest, hready⟩
    | message other => exact Or.inr ⟨datagram, List.mem_append_left _ hmem, hready⟩
    | _ => exact Or.inr ⟨datagram, hmem, hready⟩

theorem reader_finds (hfair : Scheduled run) (hsent : ReadySent (run.state t)) :
    ∃ u, t ≤ u ∧ ((run.state u).ready = true ∨ (run.state u).phase ≠ .notifying) := by
  -- the rank is the place of the first such datagram
  refine Run.leadsTo ReadySent (fun s => s.ready = true ∨ s.phase ≠ .notifying)
    (fun s => s.inbox.findIdx isReady) hfair.reader ?_ ?_ hsent
  · intro s hs hgoal
    obtain ⟨hready, hphase⟩ := not_or.mp hgoal
    obtain ⟨datagram, hmem, -⟩ := hs.resolve_left hready
    obtain ⟨first, rest, hinbox⟩ := List.exists_cons_of_ne_nil (List.ne_nil_of_mem hmem)
    refine ⟨.readSocket, rfl, ?_⟩
    simp [machine, readSocket, not_not.mp hphase, Bool.eq_false_iff.mpr hready, hinbox]
  · intro s e s' hs hgoal hstep
    have hmoves := step_moves hstep
    have hsent' := hs.of_moves hmoves
    obtain ⟨datagram, hmem, hready⟩ := hs.resolve_left (not_or.mp hgoal).1
    by_cases he : e = .readSocket
    · subst he
      cases hmoves with
      | readSocket first inbox hphase hnone hinbox =>
        cases hfirst : isReady first with
        | true => exact Or.inl (Or.inl rfl)
        | false =>
          refine Or.inr ⟨hfirst ▸ hsent', ?_⟩
          simp only [hinbox, List.findIdx_cons, hfirst, cond_false]
          omega
    · obtain ⟨-, added, hinbox⟩ := hmoves.inbox_eq he
      refine Or.inr ⟨hsent', Nat.le_of_eq ?_, fun hA => absurd hA he⟩
      rw [hinbox, firstPlace_append hmem hready]

section

variable (hdetach : h.detach = false)
include hdetach

theorem Turn.looping_of_notifying {s : State} {phase : Phase}
    (hphase : s.phase = .notifying) (hturn : Turn h s.phase phase) : phase = .looping := by
  rw [hphase] at hturn
  cases hturn
  rw [Handler.afterNotify, hdetach]
  rfl

theorem leaves_notify_gone (hfair : Scheduled run)
    (hproc : h.procVisible = false) (hphase : (run.state t).phase = .notifying) :
    ∃ u, t ≤ u ∧ (run.state u).phase = .looping := by
  refine Run.follows (fun s => s.phase = .notifying) (fun s => s.phase = .looping)
    (hfair.ticker hproc) ?_ ?_ hphase
  · intro s hs
    exact ⟨.tick, rfl, by simp [machine, tick, hs]⟩
  · intro s e s' hs hstep
    rcases (step_moves hstep).turn with ⟨-, hsame, htick⟩ | hturn
    · refine Or.inr ⟨hsame.trans hs, fun he => ?_⟩
      rw [htick he] at hproc
      cases hproc
    · exact Or.inl (hturn.looping_of_notifying hdetach hs)

theorem leaves_notify_ready (hfair : Scheduled run)
    (hready : (run.state t).ready = true) (hphase : (run.state t).phase = .notifying) :
    ∃ u, t ≤ u ∧ (run.state u).phase = .looping := by
  refine Run.follows (fun s => s.phase = .notifying ∧ s.ready = true)
    (fun s => s.phase = .looping) hfair.thread ?_ ?_ ⟨hphase, hready⟩
  · intro s hs
    exact ⟨.proceed, trivial, by simp [machine, proceed, hs.1, hs.2]⟩
  · intro s e s' hs hstep
    have hmoves := step_moves hstep
    rcases hmoves.turn with ⟨hthread, hsame, -⟩ | hturn
    · exact Or.inr ⟨⟨hsame.trans hs.1, hmoves.ready_eq hs.2⟩, hthread⟩
    · exact Or.inl (hturn.looping_of_notifying hdetach hs.1)

theorem leaves_notify (hfair : Scheduled run)
    (hends : h.procVisible = true → ∃ u, ReadySent (run.state u))
    (hphase : (run.state t).phase = .notifying) : ∃ u, t ≤ u ∧ (run.state u).phase = .looping := by
  cases hproc : h.procVisible with
  | false => exact leaves_notify_gone hdetach hfair hproc hphase
  | true =>
    obtain ⟨v, hv⟩ := hends hproc
    have hsent : ReadySent (run.state (max t v)) :=
      Run.stable (fun _ _ _ hold hstep => hold.of_moves (step_moves hstep))
        (Nat.le_max_right t v) hv
    obtain ⟨u, hu, hfound⟩ := reader_finds hfair hsent
    have htu : t ≤ u := Nat.le_trans (Nat.le_max_left t v) hu
    by_cases hstill : (run.state u).phase = .notifying
    · have hready := hfound.resolve_right (not_not_intro hstill)
      obtain ⟨w, hw, hlooping⟩ := leaves_notify_ready hdetach hfair hready hstill
      exact ⟨w, Nat.le_trans htu hw, hlooping⟩
    · -- it has left the wait in the meantime
      obtain ⟨w, e, htw, -, hold, hevent, hnew⟩ :=
        Run.exists_change (P := fun s : State => s.phase ≠ .notifying) htu
          (not_not_intro hphase) hstill
      have hnotifying := not_not.mp hold
      rcases (step_moves (run.step_of_event hevent)).turn with ⟨-, hsame, -⟩ | hturn
      · exact absurd (hsame.trans hnotifying) hnew
      · exact ⟨w + 1, Nat.le_succ_of_le htw, hturn.looping_of_notifying hdetach hnotifying⟩

theorem leaves_loop (hfair : Scheduled run)
    (hnoted : Noted h ws (run.state t)) (hphase : (run.state t).phase = .looping) :
    ∃ u, t ≤ u ∧ (run.state u).phase.late := by
  -- the rank is the place of the first `SIGCHLD`
  refine Run.leadsTo (fun s => Noted h ws s ∧ s.phase = .looping) (fun s => s.phase.late)
    (fun s => s.signals.findIdx (· = .sigchld)) hfair.thread ?_ ?_ ⟨hnoted, hphase⟩
  · rintro s ⟨hs, hlooping⟩ hgoal
    have hmem := hs.told.resolve_right hgoal
    obtain ⟨sig, signals, hsignals⟩ := List.exists_cons_of_ne_nil (List.ne_nil_of_mem hmem)
    exact ⟨.proceed, trivial, by simp [machine, proceed, hlooping, hsignals]⟩
  · rintro s e s' ⟨hs, hlooping⟩ hgoal hstep
    have hmoves := step_moves hstep
    have hnoted' := hs.of_moves hdetach hmoves
    have hmem := hs.told.resolve_right hgoal
    have hphase' : s'.phase.late ∨ s'.phase = .looping := by
      rcases hmoves.turn with ⟨-, hsame, -⟩ | hturn
      · exact Or.inr (hsame.trans hlooping)
      · rw [hlooping] at hturn
        generalize s'.phase = phase at hturn
        cases hturn
        · exact Or.inl trivial
        · exact Or.inr rfl
    refine hphase'.imp_right fun hp => ⟨⟨hnoted', hp⟩, ?_⟩
    by_cases hthread : e.isThread
    · have hlt : s'.signals.findIdx (· = .sigchld) < s.signals.findIdx (· = .sigchld) := by
        cases hmoves with
        | skip sig signals hphase hsignals hsig =>
          simp only [hsignals, List.findIdx_cons, decide_eq_false hsig, cond_false]
          omega
        | sigchld => cases hp
        | started hq | enter hq | notified hq =>
          rw [hlooping] at hq
          cases hq
        | reaped _ _ hq | waited _ _ _ _ hq =>
          rw [hlooping] at hq
          cases hq
        | _ => exact hthread.elim
      exact ⟨Nat.le_of_lt hlt, fun _ => hlt⟩
    · obtain ⟨added, hsignals⟩ := hmoves.signals_eq hthread
      refine ⟨Nat.le_of_eq ?_, fun hA => absurd hA hthread⟩
      rw [hsignals, firstPlace_append hmem (decide_eq_true rfl)]

theorem leaves_reap (hends : ∀ t exits, (run.state t).phase = .reaping exits →
      ∃ u, t ≤ u ∧ ∀ exits', (run.state u).phase ≠ .reaping exits')
    (hnoted : Noted h ws (run.state t)) (hlate : (run.state t).phase.late) :
    ∃ u, (run.state u).phase = .returned (exitStatus ws) := by
  have hreturned : ∀ u status, t ≤ u → (run.state u).phase = .returned status →
      (run.state u).phase = .returned (exitStatus ws) := by
    intro u status hu hphase
    have hnoted' := noted_stable hdetach hu hnoted
    have hstage := hnoted'.inv.stage
    rw [hphase] at hstage ⊢
    obtain ⟨-, ws', hws', rfl⟩ := hstage
    rw [hnoted'.main] at hws'
    cases hws'
    rfl
  cases hphase : (run.state t).phase with
  | reaping exits =>
    obtain ⟨u, hu, hnot⟩ := hends t exits hphase
    have hstill : Noted h ws (run.state u) ∧ (run.state u).phase.late :=
      Run.stable (P := fun s : State => Noted h ws s ∧ s.phase.late)
        (fun s e s' hs hstep => ⟨hs.1.of_moves hdetach (step_moves hstep),
          hs.1.inv.late_of_moves hs.1.main hs.2 (step_moves hstep)⟩) hu ⟨hnoted, hlate⟩
    cases hu' : (run.state u).phase with
    | reaping exits' => exact absurd hu' (hnot exits')
    | returned status => exact ⟨u, hreturned u status hu hu'⟩
    | _ =>
      have hcontra := hstill.2
      rw [hu'] at hcontra
      exact hcontra.elim
  | returned status => exact ⟨t, hreturned t status (Nat.le_refl t) hphase⟩
  | _ =>
    rw [hphase] at hlate
    exact hlate.elim

end

end Runc.Signals
