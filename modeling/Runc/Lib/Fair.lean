import Mathlib.Data.Nat.Init
import Mathlib.Tactic.ByContra

/-!
# Fair runs

A machine says which events a state allows and where they lead.  A run goes on for
ever; time may pass without an event.  A set of events is treated fairly if it is not
allowed from some time on without one of them happening.
-/

namespace Runc.Lib

universe u v

structure Machine (σ : Type u) (ε : Type v) where
  step : σ → ε → Option σ

structure Run {σ : Type u} {ε : Type v} (M : Machine σ ε) (start : σ) where
  state : Nat → σ
  event : Nat → Option ε
  state_zero : state 0 = start
  next : ∀ t,
    (event t = none ∧ state (t + 1) = state t) ∨
      ∃ e, event t = some e ∧ M.step (state t) e = some (state (t + 1))

namespace Run

variable {σ : Type u} {ε : Type v} {M : Machine σ ε} {start : σ} (r : Run M start)

/-- Events of `A` that stay allowed happen. -/
def Fair (A : ε → Prop) : Prop :=
  ∀ t, (∀ u, t ≤ u → ∃ e, A e ∧ (M.step (r.state u) e).isSome) →
    ∃ u, t ≤ u ∧ ∃ e, A e ∧ r.event u = some e

variable {t : Nat}

theorem step_of_event {e : ε} (h : r.event t = some e) :
    M.step (r.state t) e = some (r.state (t + 1)) := by
  rcases r.next t with ⟨hnone, -⟩ | ⟨e', hevent, hnext⟩
  · rw [h] at hnone
    cases hnone
  · rw [h] at hevent
    cases hevent
    exact hnext

variable {r}

variable {P : σ → Prop}

theorem stable (hstep : ∀ s e s', P s → M.step s e = some s' → P s') {u : Nat}
    (htu : t ≤ u) (h : P (r.state t)) : P (r.state u) := by
  induction u, htu using Nat.le_induction with
  | base => exact h
  | succ u _ ih =>
    rcases r.next u with ⟨-, hsame⟩ | ⟨e, -, hnext⟩
    · rw [hsame]
      exact ih
    · exact hstep _ e _ ih hnext

theorem invariant {P : σ → Prop} (hstart : P start)
    (hstep : ∀ s e s', P s → M.step s e = some s' → P s') (t : Nat) : P (r.state t) := by
  refine stable hstep (Nat.zero_le t) ?_
  rw [r.state_zero]
  exact hstart

theorem exists_change {u : Nat} (htu : t ≤ u) (hbefore : ¬ P (r.state t)) (hnow : P (r.state u)) :
    ∃ v e, t ≤ v ∧ v < u ∧ ¬ P (r.state v) ∧ r.event v = some e ∧ P (r.state (v + 1)) := by
  induction u, htu using Nat.le_induction with
  | base => exact absurd hnow hbefore
  | succ u hu ih =>
    by_cases hold : P (r.state u)
    · obtain ⟨v, e, htv, hvu, hv⟩ := ih hold
      exact ⟨v, e, htv, Nat.lt_succ_of_lt hvu, hv⟩
    · rcases r.next u with ⟨-, hsame⟩ | ⟨e, hevent, -⟩
      · rw [hsame] at hnow
        exact absurd hnow hold
      · exact ⟨u, e, hu, Nat.lt_succ_self u, hold, hevent, hnow⟩

variable {A : ε → Prop}

theorem occurs (hfair : r.Fair A) (hallowed : ∀ s, P s → ∃ e, A e ∧ (M.step s e).isSome)
    (hkeep : ∀ s e s', P s → M.step s e = some s' → ¬ A e → P s') (h : P (r.state t)) :
    ∃ u e, t ≤ u ∧ A e ∧ r.event u = some e := by
  by_contra hnever
  have hstay : ∀ u, t ≤ u → P (r.state u) := by
    intro u hu
    induction u, hu using Nat.le_induction with
    | base => exact h
    | succ u hu ih =>
      rcases r.next u with ⟨-, hsame⟩ | ⟨e, hevent, hnext⟩
      · rw [hsame]
        exact ih
      · exact hkeep _ e _ ih hnext fun hA => hnever ⟨u, e, hu, hA, hevent⟩
  obtain ⟨u, hu, e, hA, hevent⟩ := hfair t fun u hu => hallowed _ (hstay u hu)
  exact hnever ⟨u, e, hu, hA, hevent⟩

theorem leadsTo_among (P goal : σ → Prop) {E : ε → Prop} (rank : σ → Nat) (hfair : r.Fair A)
    (hallowed : ∀ s, P s → ¬ goal s → ∃ e, A e ∧ (M.step s e).isSome)
    (hstep : ∀ s e s', P s → ¬ goal s → E e → M.step s e = some s' →
      goal s' ∨ P s' ∧ rank s' ≤ rank s ∧ (A e → rank s' < rank s))
    (hevents : ∀ u e, t ≤ u → r.event u = some e → E e) (h : P (r.state t)) :
    ∃ u, t ≤ u ∧ goal (r.state u) := by
  -- induction on the rank; without the goal, `P` and the rank stay until an event of `A`
  induction hrank : rank (r.state t) using Nat.strong_induction_on generalizing t with
  | _ n ih =>
    by_contra hnever
    have hnot : ∀ u, t ≤ u → ¬ goal (r.state u) := fun u hu hgoal => hnever ⟨u, hu, hgoal⟩
    have hkeep : ∀ u, t ≤ u → P (r.state u) ∧ rank (r.state u) ≤ n := by
      intro u hu
      induction u, hu using Nat.le_induction with
      | base => exact ⟨h, Nat.le_of_eq hrank⟩
      | succ u hu ihu =>
        rcases r.next u with ⟨-, hsame⟩ | ⟨e, hevent, hnext⟩
        · rw [hsame]
          exact ihu
        · rcases hstep _ e _ ihu.1 (hnot u hu) (hevents u e hu hevent) hnext with
            hgoal | ⟨hP, hle, -⟩
          · exact absurd hgoal (hnot (u + 1) (by omega))
          · exact ⟨hP, Nat.le_trans hle ihu.2⟩
    obtain ⟨u, hu, e, hA, hevent⟩ := hfair t fun u hu => hallowed _ (hkeep u hu).1 (hnot u hu)
    rcases hstep _ e _ (hkeep u hu).1 (hnot u hu) (hevents u e hu hevent)
      (r.step_of_event hevent) with hgoal | ⟨hP, -, hlt⟩
    · exact hnot (u + 1) (by omega) hgoal
    · obtain ⟨v, hv, hgoal⟩ := ih _ (Nat.lt_of_lt_of_le (hlt hA) (hkeep u hu).2)
          (fun v e hv => hevents v e (by omega)) hP rfl
      exact hnot v (by omega) hgoal

theorem leadsTo (P goal : σ → Prop) (rank : σ → Nat) (hfair : r.Fair A)
    (hallowed : ∀ s, P s → ¬ goal s → ∃ e, A e ∧ (M.step s e).isSome)
    (hstep : ∀ s e s', P s → ¬ goal s → M.step s e = some s' →
      goal s' ∨ P s' ∧ rank s' ≤ rank s ∧ (A e → rank s' < rank s)) (h : P (r.state t)) :
    ∃ u, t ≤ u ∧ goal (r.state u) :=
  leadsTo_among P goal rank hfair hallowed (fun s e s' hP hgoal _ => hstep s e s' hP hgoal)
    (fun _ _ _ _ => trivial) h

theorem follows (P goal : σ → Prop) {A : ε → Prop} (hfair : r.Fair A)
    (hallowed : ∀ s, P s → ∃ e, A e ∧ (M.step s e).isSome)
    (hstep : ∀ s e s', P s → M.step s e = some s' → goal s' ∨ P s' ∧ ¬ A e) {t : Nat}
    (h : P (r.state t)) : ∃ u, t ≤ u ∧ goal (r.state u) :=
  leadsTo P goal (fun _ => 0) hfair (fun s hP _ => hallowed s hP)
    (fun s e s' hP _ hnext => (hstep s e s' hP hnext).imp_right fun hkeep =>
      ⟨hkeep.1, Nat.le_refl 0, fun hA => absurd hA hkeep.2⟩) h

theorem settles {rank : σ → Nat} {bound : Nat} (hbound : ∀ t, rank (r.state t) ≤ bound)
    (hchange : ∀ t, r.state (t + 1) = r.state t ∨
      rank (r.state t) < rank (r.state (t + 1))) : ∃ t, ∀ u, t ≤ u → r.state u = r.state t := by
  by_contra hnever
  -- as long as there is a later change, the rank grows beyond every bound
  have hgrows : ∀ n, ∃ t, n ≤ rank (r.state t) := by
    intro n
    induction n with
    | zero => exact ⟨0, Nat.zero_le _⟩
    | succ n ih =>
      obtain ⟨t, ht⟩ := ih
      by_contra hless
      refine hnever ⟨t, fun u hu => ?_⟩
      induction u, hu using Nat.le_induction with
      | base => rfl
      | succ u hu ihu =>
        rcases hchange u with hsame | hlt
        · exact hsame.trans ihu
        · rw [ihu] at hlt
          exact absurd ⟨u + 1, by omega⟩ hless
  obtain ⟨t, ht⟩ := hgrows (bound + 1)
  exact absurd (hbound t) (by omega)

theorem settled_final (hfair : r.Fair A)
    (hchange : ∀ t e, A e → M.step (r.state t) e = some (r.state (t + 1)) →
      r.state (t + 1) ≠ r.state t) (hrest : ∀ u, t ≤ u → r.state u = r.state t) {e : ε} (he : A e) :
    M.step (r.state t) e = none := by
  by_contra hallowed
  have hsome : (M.step (r.state t) e).isSome := Option.isSome_iff_ne_none.mpr hallowed
  obtain ⟨u, hu, e', hA, hevent⟩ := hfair t fun u hu => ⟨e, he, by rw [hrest u hu]; exact hsome⟩
  refine hchange u e' hA (r.step_of_event hevent) ?_
  rw [hrest u hu, hrest (u + 1) (by omega)]

end Run

section Play

variable {σ : Type u} {ε : Type v} (M : Machine σ ε)

def Machine.after (s : σ) (events : List ε) : σ :=
  events.foldl (fun s e => (M.step s e).getD s) s

def Machine.allows : σ → List ε → Bool
  | _, [] => true
  | s, e :: events =>
      match M.step s e with
      | none => false
      | some s' => allows s' events

variable {M}

variable {events : List ε} {s : σ}

theorem Machine.step_after_take (h : M.allows s events = true) {t : Nat}
    {e : ε} (he : events[t]? = some e) :
    M.step (M.after s (events.take t)) e = some (M.after s (events.take (t + 1))) := by
  induction events generalizing s t with
  | nil => cases he
  | cons d events ih =>
    unfold Machine.allows at h
    cases hstep : M.step s d with
    | none =>
      rw [hstep] at h
      cases h
    | some s' =>
      rw [hstep] at h
      have hafter : ∀ ds, M.after s (d :: ds) = M.after s' ds := by
        intro ds
        simp only [Machine.after, List.foldl_cons, hstep, Option.getD_some]
      cases t with
      | zero =>
        cases he
        rw [List.take_zero, List.take_succ_cons, List.take_zero, hafter]
        exact hstep
      | succ t =>
        rw [List.take_succ_cons, List.take_succ_cons, hafter, hafter]
        exact ih h he

def Machine.play (s : σ) (events : List ε) (h : M.allows s events = true) : Run M s where
  state t := M.after s (events.take t)
  event t := events[t]?
  state_zero := by
    rw [List.take_zero]
    rfl
  next t := by
    cases he : events[t]? with
    | none =>
        have hlength := List.getElem?_eq_none_iff.mp he
        rw [List.take_of_length_le hlength, List.take_of_length_le (by omega)]
        exact Or.inl ⟨rfl, rfl⟩
    | some e =>
        exact Or.inr ⟨e, rfl, Machine.step_after_take h he⟩

theorem Machine.play_state (h : M.allows s events = true) {t : Nat} (ht : events.length ≤ t) :
    (M.play s events h).state t = M.after s events := by
  change M.after s (events.take t) = _
  rw [List.take_of_length_le ht]

theorem Machine.play_fair (h : M.allows s events = true) {A : ε → Prop}
    (hfinal : ∀ e, A e → M.step (M.after s events) e = none) : (M.play s events h).Fair A := by
  intro t hallowed
  obtain ⟨e, hA, hsome⟩ := hallowed (max t events.length) (by omega)
  rw [Machine.play_state h (by omega), hfinal e hA] at hsome
  cases hsome

end Play

end Runc.Lib
