import Runc.ExecFifo.Invariant

/-!
# Progress on the exec fifo

**Results.**
* `Inv.running_of_final`, `Inv.calls_of_final`: where the parties are then.
-/

namespace Runc.ExecFifo

open Lib (Fifo Machine Run)

variable {n : Nat} {owner : Fin n → Nat}

def InitPhase.rank : InitPhase → Nat
  | .starting => 0
  | .opening _ => 1
  | .opened => 2
  | .written => 3
  | .running => 4
  | .failed => 4

def CallPhase.rank : CallPhase → Nat
  | .waiting => 0
  | .locked => 1
  | .opening _ => 2
  | .reading [] => 3
  | .reading (_ :: _) => 4
  | .removing => 5
  | .returned _ => 6

def State.rank (s : State n) : Nat :=
  s.init.rank + ∑ i, (s.calls i).rank

theorem rank_le (s : State n) : s.rank ≤ 4 + ∑ _i : Fin n, 6 := by
  refine Nat.add_le_add ?_ (Finset.sum_le_sum fun i _ => ?_)
  · cases s.init <;> simp [InitPhase.rank]
  · rcases s.calls i with _ | _ | _ | (_ | _) | _ | _ <;> simp [CallPhase.rank]

variable {i : Fin n} {s : State n}

theorem rank_setCall (phase : CallPhase) (h : (s.calls i).rank < phase.rank) :
    s.rank < (s.setCall i phase).rank := by
  have hsum := sum_update CallPhase.rank s.calls i phase
  change s.init.rank + _ < s.init.rank + ∑ j, (Function.update s.calls i phase j).rank
  omega

theorem Inv.data_eq_nil (h : Inv s) {data : List Char}
    (hcall : s.calls i = .reading data) (hbuffer : s.fifo.buffer ≠ []) : data = [] := by
  have hle := h.bytes_le i
  have hpos := List.length_pos_iff.mpr hbuffer
  have hone : s.init.bytes ≤ 1 := by
    cases s.init <;> simp [InitPhase.bytes]
  rw [hcall] at hle
  change data.length + _ ≤ _ at hle
  exact List.length_eq_zero_iff.mp (by omega)

variable {s' : State n}

theorem Inv.rank_moves (h : Inv s) (hmoves : Moves owner i s s') : s.rank < s'.rank := by
  cases hmoves with
  | lock hcall hfree => exact rank_setCall .locked (by simp [hcall, CallPhase.rank])
  | missing hcall hlinked => exact rank_setCall (.returned _) (by simp [hcall, CallPhase.rank])
  | enterAlone hcall hlinked hwriters =>
    exact rank_setCall (.opening _) (by simp [hcall, CallPhase.rank])
  | enter hcall hlinked hwriters =>
    exact rank_setCall (.reading []) (by simp [hcall, CallPhase.rank])
  | wake seen hcall hcounter => exact rank_setCall (.reading []) (by simp [hcall, CallPhase.rank])
  | take data hcall hbuffer =>
    refine rank_setCall (.reading (data ++ s.fifo.buffer)) ?_
    obtain rfl := h.data_eq_nil hcall hbuffer
    obtain ⟨a, rest, hcons⟩ := List.exists_cons_of_ne_nil hbuffer
    simp [hcall, hcons, CallPhase.rank]
  | refused err hcall hbuffer hwriters =>
    exact rank_setCall (.returned _) (by simp [hcall, CallPhase.rank])
  | eof data hcall hdata hbuffer hwriters =>
    refine rank_setCall .removing ?_
    obtain ⟨a, rest, rfl⟩ := List.exists_cons_of_ne_nil hdata
    simp [hcall, CallPhase.rank]
  | remove hcall => exact rank_setCall (.returned _) (by simp [hcall, CallPhase.rank])

theorem rank_stepInit (h : stepInit s = some s') : s.rank < s'.rank := by
  have hinit : s'.calls = s.calls ∧ s.init.rank < s'.init.rank := by
    unfold stepInit at h
    cases hinit : s.init with
    | starting =>
      simp only [hinit, Option.some.injEq] at h
      subst h
      cases s.fifo.writerWaits <;> simp [InitPhase.rank]
    | opening seen =>
      simp only [hinit, Option.ite_none_left_eq_some, Option.some.injEq] at h
      obtain ⟨-, rfl⟩ := h
      simp [InitPhase.rank]
    | opened =>
      simp only [hinit] at h
      split at h <;> cases h <;> simp [InitPhase.rank]
    | written =>
      simp only [hinit, Option.some.injEq] at h
      subst h
      simp [InitPhase.rank]
    | running => simp only [hinit, reduceCtorEq] at h
    | failed => simp only [hinit, reduceCtorEq] at h
  unfold State.rank
  rw [hinit.1]
  omega

theorem Inv.rank_step (h : Inv s) {e : Event n} (hstep : (machine owner).step s e = some s') :
    (∃ i, e = .poll i) ∧ s' = s ∨ s.rank < s'.rank := by
  cases e with
  | init => exact Or.inr (rank_stepInit hstep)
  | call i => exact Or.inr (h.rank_moves (stepCall_moves hstep))
  | poll i => exact Or.inl ⟨⟨i, rfl⟩, poll_eq hstep⟩

theorem settles {run : Run (machine owner) (created n)} (hfair : Scheduled run) :
    ∃ t, stepInit (run.state t) = none ∧ ∀ i, stepCall owner i (run.state t) = none := by
  have hrank : ∀ t, run.state (t + 1) = run.state t ∨
      (run.state t).rank < (run.state (t + 1)).rank := by
    intro t
    rcases run.next t with ⟨-, hsame⟩ | ⟨e, -, hnext⟩
    · exact Or.inl hsame
    · exact ((inv_state run t).rank_step hnext).imp_left (·.2)
  have hchange : ∀ {e : Event n}, (∀ i, e ≠ .poll i) → ∀ t,
      (machine owner).step (run.state t) e = some (run.state (t + 1)) →
        run.state (t + 1) ≠ run.state t := by
    intro e he t hnext hsame
    rcases (inv_state run t).rank_step hnext with ⟨⟨i, hpoll⟩, -⟩ | hlt
    · exact he i hpoll
    · rw [hsame] at hlt
      exact Nat.lt_irrefl _ hlt
  obtain ⟨t, hrest⟩ := Run.settles (fun t => rank_le (run.state t)) hrank
  refine ⟨t, ?_, fun i => ?_⟩
  · exact Run.settled_final hfair.init
      (fun u e he => hchange (fun i hp => by rw [he] at hp; cases hp) u) hrest rfl
  · exact Run.settled_final (hfair.call i)
      (fun u e he => hchange (fun j hp => by rw [he] at hp; cases hp) u) hrest rfl

theorem stepCall_lock (hi : s.calls i = .waiting) (hfree : ∀ j, (s.calls j).holdsLock = false) :
    stepCall owner i s ≠ none := by
  unfold stepCall
  rw [hi]
  rw [if_pos fun j _ _ => hfree j]
  exact Option.some_ne_none _

namespace Inv

variable {s : State n}

theorem waiting_of_no_reader (h : Inv s) (hinit : s.init ≠ .running) (hreaders : s.fifo.readers = 0)
    {i : Fin n} (hcall : stepCall owner i s = none) : s.calls i = .waiting := by
  have hholds := h.holds_le i
  rw [hreaders] at hholds
  unfold stepCall at hcall
  cases hi : s.calls i with
  | waiting => rfl
  | locked =>
    simp only [hi] at hcall
    split at hcall <;> cases hcall
  | returned err => exact absurd (h.timely_of hi) hinit
  | _ =>
    rw [hi] at hholds
    cases hholds

theorem running_of_final (h : Inv s) (hinit : stepInit s = none)
    (hcalls : ∀ i, stepCall owner i s = none) (hn : 0 < n) : s.init = .running := by
  have hwriteEnd := h.writeEnd
  unfold stepInit at hinit
  cases hphase : s.init with
  | starting => simp only [hphase, reduceCtorEq] at hinit
  | opening seen =>
    exfalso
    have hne : s.init ≠ .running := fun hp => by rw [hphase] at hp; cases hp
    rw [hphase] at hwriteEnd
    simp only [hphase, ite_eq_left_iff, reduceCtorEq, imp_false, Decidable.not_not] at hinit
    have hreaders : s.fifo.readers = 0 := by
      rw [← h.early hne, hinit, hwriteEnd.2.2]
    have hwaiting : ∀ i, s.calls i = .waiting := fun i =>
      h.waiting_of_no_reader hne hreaders (hcalls i)
    exact stepCall_lock (hwaiting ⟨0, hn⟩) (fun j => by rw [hwaiting j]; rfl) (hcalls ⟨0, hn⟩)
  | opened =>
    simp only [hphase] at hinit
    split at hinit <;> cases hinit
  | written => simp only [hphase, reduceCtorEq] at hinit
  | running => rfl
  | failed =>
    rw [hphase] at hwriteEnd
    exact hwriteEnd.elim

theorem calls_of_final (h : Inv s) (hinit : s.init = .running)
    (hcalls : ∀ i, stepCall owner i s = none) (i : Fin n) :
    s.calls i = .waiting ∨ s.calls i = .opening 1 ∨ ∃ err, s.calls i = .returned err := by
  have hwriteEnd := h.writeEnd
  rw [hinit] at hwriteEnd
  have hcall := hcalls i
  unfold stepCall at hcall
  cases hi : s.calls i with
  | waiting => exact Or.inl rfl
  | locked =>
    simp only [hi] at hcall
    split at hcall <;> cases hcall
  | opening seen =>
    simp only [hi, ite_eq_left_iff, reduceCtorEq, imp_false, Decidable.not_not] at hcall
    rw [← hcall, hwriteEnd.2]
    exact Or.inr (Or.inl rfl)
  | reading data =>
    simp only [hi, Fifo.read, hwriteEnd.1, if_true] at hcall
    by_cases hbuffer : s.fifo.buffer = []
    · rw [if_neg (not_not_intro hbuffer)] at hcall
      dsimp only at hcall
      split at hcall <;> cases hcall
    · rw [if_pos hbuffer] at hcall
      cases hcall
  | removing => simp only [hi, reduceCtorEq] at hcall
  | returned err => exact Or.inr (Or.inr ⟨err, rfl⟩)

theorem returned_of_final (h : Inv s) (hinit : s.init = .running)
    (hcalls : ∀ i, stepCall owner i s = none) (hlate : ∀ i, s.calls i ≠ .opening 1) (i : Fin n) :
    ∃ err, s.calls i = .returned err := by
  have hdone := h.calls_of_final hinit hcalls
  rcases hdone i with hi | hi | hi
  · -- nobody holds the lock, so the call could take it
    refine absurd (hcalls i) (stepCall_lock hi fun j => ?_)
    rcases hdone j with hj | hj | ⟨err, hj⟩
    · rw [hj]
      rfl
    · exact absurd hj (hlate j)
    · rw [hj]
      rfl
  · exact absurd hi (hlate i)
  · exact hi

end Inv

end Runc.ExecFifo
