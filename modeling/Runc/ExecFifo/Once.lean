import Runc.ExecFifo.Progress

/-!
# One call starts the container
-/

namespace Runc.ExecFifo

open Lib (Fifo Machine Run)

variable {n : Nat} {owner : Fin n → Nat}

theorem Inv.nil_unique {s : State n} (h : Inv s) {i j : Fin n} (hi : s.calls i = .returned none)
    (hj : s.calls j = .returned none) : i = j := by
  by_contra hne
  have hbytes := h.bytes
  have hone : s.init.bytes ≤ 1 := by
    cases s.init <;> simp [InitPhase.bytes]
  have hrest : (s.calls i).bytes ≤ ∑ k ∈ Finset.univ.erase j, (s.calls k).bytes :=
    Finset.single_le_sum (f := fun k => (s.calls k).bytes) (fun _ _ => Nat.zero_le _)
      (Finset.mem_erase.mpr ⟨hne, Finset.mem_univ i⟩)
  rw [← Finset.add_sum_erase _ _ (Finset.mem_univ j), hj] at hbytes
  rw [hi] at hrest
  change 1 ≤ _ at hrest
  change 1 + _ + _ = _ at hbytes
  omega

theorem Inv.exists_nil {s : State n} (h : Inv s) (hinit : s.init = .running)
    (hback : ∀ i, ∃ err, s.calls i = .returned err) : ∃ i, s.calls i = .returned none := by
  have hholds : ∀ i, (s.calls i).holds = 0 := by
    intro i
    obtain ⟨err, hi⟩ := hback i
    rw [hi]
    rfl
  have hreaders : s.fifo.readers = 0 := by
    rw [h.readers]
    exact Finset.sum_eq_zero fun i _ => hholds i
  have hbytes := h.bytes
  rw [h.held hreaders, hinit] at hbytes
  have hsum : ∑ i, (s.calls i).bytes ≠ 0 := by
    change _ + 0 = 1 at hbytes
    omega
  obtain ⟨i, -, hi⟩ := Finset.exists_ne_zero_of_sum_ne_zero hsum
  obtain ⟨err, herr⟩ := hback i
  rw [herr] at hi
  cases err with
  | none => exact ⟨i, herr⟩
  | some err => exact absurd rfl hi

variable {i : Fin n}

theorem calls_step {s s' : State n} {e : Event n} (h : (machine owner).step s e = some s')
    (he : e ≠ .call i) : s'.calls i = s.calls i := by
  cases e with
  | init =>
    have hstep : stepInit s = some s' := h
    unfold stepInit at hstep
    split at hstep
    · cases hstep
      rfl
    · split at hstep <;> cases hstep
      rfl
    · split at hstep <;> cases hstep <;> rfl
    · cases hstep
      rfl
    · cases hstep
    · cases hstep
  | call j =>
    have hij : i ≠ j := fun hp => he (by rw [hp])
    have hmoves : Moves owner j s s' := stepCall_moves h
    cases hmoves <;> exact Function.update_of_ne hij _ _
  | poll j => rw [poll_eq h]

variable {t : Nat} {run : Run (machine owner) (created n)}

theorem returned_stable {err : Option Libcontainer.Err} {u : Nat} (htu : t ≤ u)
    (h : (run.state t).calls i = .returned err) : (run.state u).calls i = .returned err := by
  refine Run.stable (P := fun s : State n => s.calls i = .returned err) ?_ htu h
  intro s e s' hs hstep
  by_cases he : e = .call i
  · subst he
    have hcall : stepCall owner i s = some s' := hstep
    unfold stepCall at hcall
    rw [hs] at hcall
    cases hcall
  · rw [calls_step hstep he]
    exact hs

theorem late_stable {u : Nat} (htu : t ≤ u) (h : (run.state t).calls i = .opening 1) :
    (run.state u).calls i = .opening 1 := by
  refine (Run.stable (P := fun s : State n => Inv s ∧ s.calls i = .opening 1) ?_ htu
    ⟨inv_state run t, h⟩).2
  rintro s e s' ⟨hinv, hs⟩ hstep
  refine ⟨inv_step s e s' hinv hstep, ?_⟩
  by_cases he : e = .call i
  · subst he
    exfalso
    have hwriteEnd := hinv.writeEnd
    rw [((hinv.timely_of hs).resolve_left Nat.one_ne_zero).2] at hwriteEnd
    have hcall : stepCall owner i s = some s' := hstep
    unfold stepCall at hcall
    rw [hs] at hcall
    dsimp only at hcall
    rw [if_pos hwriteEnd.2] at hcall
    cases hcall
  · rw [calls_step hstep he]
    exact hs

/-- Call `i` comes to the open of the fifo when init has closed it and no call has
removed it yet. -/
structure EntersLate
    (run : Run (machine owner) (created n))
    (t : Nat)
    (i : Fin n) : Prop where
  event : run.event t = some (.call i)
  locked : (run.state t).calls i = .locked
  closed : (run.state t).init = .running
  linked : (run.state t).linked = true

theorem EntersLate.waits {run : Run (machine owner) (created n)} {t : Nat} {i : Fin n}
    (h : EntersLate run t i) : (run.state (t + 1)).calls i = .opening 1 := by
  have hwriteEnd := (inv_state run t).writeEnd
  rw [h.closed] at hwriteEnd
  have hcall : stepCall owner i (run.state t) = some (run.state (t + 1)) :=
    run.step_of_event h.event
  unfold stepCall at hcall
  rw [h.locked] at hcall
  simp only [h.linked, Fifo.readerWaits, hwriteEnd.1, hwriteEnd.2, if_true,
    Option.some.injEq] at hcall
  rw [← hcall]
  exact Function.update_self i _ _

theorem exists_late (h : (run.state t).calls i = .opening 1) : ∃ u, EntersLate run u i := by
  have hstart : ¬ (run.state 0).calls i = .opening 1 := fun hp => by
    rw [run.state_zero] at hp
    cases hp
  obtain ⟨u, e, -, -, hbefore, hevent, hnow⟩ :=
    Run.exists_change (P := fun s : State n => s.calls i = .opening 1) (Nat.zero_le t) hstart h
  have hnext := run.step_of_event hevent
  have he : e = .call i := by
    by_contra hne
    rw [calls_step hnext hne] at hnow
    exact hbefore hnow
  subst he
  have hmoves : Moves owner i (run.state u) (run.state (u + 1)) := stepCall_moves hnext
  refine ⟨u, ?_⟩
  -- of the moves, one leads into the open
  generalize run.state (u + 1) = s' at hnow hmoves
  cases hmoves with
  | enterAlone hcall hlinked hwriters =>
    have hseen := (inv_state run u).seen_of_no_writer hwriters
    have hone : (run.state u).fifo.wCounter = 1 :=
      CallPhase.opening.inj ((Function.update_self i _ _).symm.trans hnow)
    rw [hone] at hseen
    exact ⟨hevent, hcall, (hseen.resolve_left Nat.one_ne_zero).2, hlinked⟩
  | _ => cases (Function.update_self i _ _).symm.trans hnow

def OneStarts (run : Run (machine owner) (created n)) : Prop :=
  ∃ w, (∃ t, (run.state t).calls w = .returned none) ∧
    ∀ i, i ≠ w → ∃ t err, (run.state t).calls i = .returned (some err)

theorem EntersLate.not_returned (h : EntersLate run t i) (u : Nat) (err : Option Libcontainer.Err) :
    (run.state u).calls i ≠ .returned err := by
  intro hreturned
  have hwaits := late_stable (Nat.le_max_left (t + 1) u) h.waits
  rw [returned_stable (Nat.le_max_right (t + 1) u) hreturned] at hwaits
  cases hwaits

/-- `Exec` calls on a created container. -/
theorem one_exec_returns_iff (n : Nat) (owner : Fin (n + 1) → Nat)
    (run : Run (machine owner) (created (n + 1))) (hfair : Scheduled run) :
    OneStarts run ↔ ∀ t i, ¬ EntersLate run t i := by
  constructor
  · rintro ⟨w, ⟨u, hw⟩, hothers⟩ t i hlate
    by_cases hi : i = w
    · subst hi
      exact hlate.not_returned u _ hw
    · obtain ⟨v, err, herr⟩ := hothers i hi
      exact hlate.not_returned v _ herr
  · intro hlate
    obtain ⟨t, hinit, hcalls⟩ := settles hfair
    have hinv := inv_state run t
    have hrunning := hinv.running_of_final hinit hcalls (Nat.succ_pos n)
    have hback := hinv.returned_of_final hrunning hcalls fun i hi =>
      (exists_late hi).elim fun u hu => hlate u i hu
    obtain ⟨w, hw⟩ := hinv.exists_nil hrunning hback
    refine ⟨w, ⟨t, hw⟩, fun i hi => ?_⟩
    obtain ⟨err, herr⟩ := hback i
    cases err with
    | none => exact absurd (hinv.nil_unique herr hw) hi
    | some err => exact ⟨t, err, herr⟩

theorem scheduled_play {events : List (Event n)}
    (h : (machine owner).allows (created n) events = true)
    (hinit : stepInit ((machine owner).after (created n) events) = none)
    (hcalls : ∀ i, stepCall owner i ((machine owner).after (created n) events) = none) :
    Scheduled ((machine owner).play (created n) events h) where
  init := Machine.play_fair h fun e he => by
    subst he
    exact hinit
  call i := Machine.play_fair h fun e he => by
    subst he
    exact hcalls i

def ordinary : List (Event 1) :=
  [.call 0, .call 0, .poll 0, .init, .call 0, .init, .call 0, .init, .call 0, .call 0]

theorem ordinary_allowed : (machine fun _ => 0).allows (created 1) ordinary = true := by
  decide

theorem one_exec_returns_ordinary :
    OneStarts ((machine fun _ => 0).play (created 1) ordinary ordinary_allowed) := by
  refine (one_exec_returns_iff 0 (fun _ => 0) _
    (scheduled_play ordinary_allowed rfl fun i => ?_)).mpr fun t i hlate => ?_
  · rw [Subsingleton.elim i 0]
    rfl
  · obtain rfl : i = 0 := Subsingleton.elim (α := Fin 1) i 0
    refine hlate.not_returned 10 none ?_
    rw [Machine.play_state ordinary_allowed (Nat.le_refl 10)]
    rfl

def overtaken : List (Event 2) :=
  [.call 0, .call 1, .call 0, .init, .init, .init, .call 1, .poll 1, .call 0, .call 0,
    .call 0, .call 0]

theorem overtaken_allowed :
    (machine fun i : Fin 2 => i.val).allows (created 2) overtaken = true := by
  decide

theorem second_exec_hangs :
    ∃ run : Run (machine fun i : Fin 2 => i.val) (created 2),
      Scheduled run ∧ (∃ t, (run.state t).calls 0 = .returned none) ∧
        ∀ t err, (run.state t).calls 1 ≠ .returned err := by
  refine ⟨(machine _).play (created 2) overtaken overtaken_allowed,
    scheduled_play overtaken_allowed rfl fun i => ?_, ⟨12, ?_⟩, fun t err hreturned => ?_⟩
  · rcases i with ⟨_ | _ | i, hi⟩
    · rfl
    · rfl
    · omega
  · rw [Machine.play_state overtaken_allowed (Nat.le_refl 12)]
    rfl
  · have hlast := returned_stable (Nat.le_max_left t 12) hreturned
    rw [Machine.play_state overtaken_allowed (Nat.le_max_right t 12)] at hlast
    cases hlast

end Runc.ExecFifo
