import Runc.ExecFifo.Model
import Mathlib.Algebra.BigOperators.Group.Finset.Basic
import Mathlib.Algebra.Order.BigOperators.Group.Finset

/-!
# The byte in the exec fifo

**Results.**
* `inv_state`: in every state, the byte that init wrote is in the fifo or with one
  call, and who waits for a writer after that came too late.
-/

namespace Runc.ExecFifo

open Lib (Fifo Machine Run)
open Libcontainer (Err)

variable {n : Nat} {owner : Fin n → Nat}

inductive Moves (owner : Fin n → Nat) (i : Fin n) (s : State n) : State n → Prop
  | lock
      (hcall : s.calls i = .waiting)
      (hfree : ∀ j, j ≠ i → owner j = owner i → (s.calls j).holdsLock = false) :
      Moves owner i s (s.setCall i .locked)
  | missing
      (hcall : s.calls i = .locked)
      (hlinked : s.linked = false) :
      Moves owner i s (s.setCall i (.returned (some fifoMissing)))
  | enterAlone
      (hcall : s.calls i = .locked)
      (hlinked : s.linked = true)
      (hwriters : s.fifo.writers = 0) :
      Moves owner i s
        { s.setCall i (.opening s.fifo.wCounter) with fifo := s.fifo.openRead }
  | enter
      (hcall : s.calls i = .locked)
      (hlinked : s.linked = true)
      (hwriters : s.fifo.writers ≠ 0) :
      Moves owner i s { s.setCall i (.reading []) with fifo := s.fifo.openRead }
  | wake
      (seen : Nat)
      (hcall : s.calls i = .opening seen)
      (hcounter : s.fifo.wCounter ≠ seen) :
      Moves owner i s (s.setCall i (.reading []))
  | take
      (data : List Char)
      (hcall : s.calls i = .reading data)
      (hbuffer : s.fifo.buffer ≠ []) :
      Moves owner i s
        { s.setCall i (.reading (data ++ s.fifo.buffer)) with fifo := s.fifo.drained }
  | refused
      (err : Err)
      (hcall : s.calls i = .reading [])
      (hbuffer : s.fifo.buffer = [])
      (hwriters : s.fifo.writers = 0) :
      Moves owner i s
        { s.setCall i (.returned (some err)) with fifo := s.fifo.closeRead }
  | eof
      (data : List Char)
      (hcall : s.calls i = .reading data)
      (hdata : data ≠ [])
      (hbuffer : s.fifo.buffer = [])
      (hwriters : s.fifo.writers = 0) :
      Moves owner i s (s.setCall i .removing)
  | remove
      (hcall : s.calls i = .removing) :
      Moves owner i s
        { s.setCall i (.returned none) with linked := false, fifo := s.fifo.closeRead }

theorem stepCall_moves {i : Fin n} {s s' : State n} (h : stepCall owner i s = some s') :
    Moves owner i s s' := by
  unfold stepCall at h
  cases hcall : s.calls i with
  | waiting =>
    simp only [hcall, Option.ite_none_right_eq_some, Option.some.injEq] at h
    obtain ⟨hfree, rfl⟩ := h
    exact .lock hcall hfree
  | locked =>
    simp only [hcall, Fifo.readerWaits] at h
    cases hlinked : s.linked with
    | false =>
      simp only [hlinked, Bool.false_eq_true, if_false, Option.some.injEq] at h
      subst h
      exact .missing hcall hlinked
    | true =>
      simp only [hlinked, if_true, Option.some.injEq] at h
      subst h
      by_cases hwriters : s.fifo.writers = 0
      · rw [if_pos hwriters]
        exact .enterAlone hcall hlinked hwriters
      · rw [if_neg hwriters]
        exact .enter hcall hlinked hwriters
  | opening seen =>
    simp only [hcall, Option.ite_none_left_eq_some, Option.some.injEq] at h
    obtain ⟨hcounter, rfl⟩ := h
    exact .wake seen hcall hcounter
  | reading data =>
    simp only [hcall, Fifo.read] at h
    by_cases hbuffer : s.fifo.buffer = []
    · rw [if_neg (not_not_intro hbuffer)] at h
      by_cases hwriters : s.fifo.writers = 0
      · rw [if_pos hwriters] at h
        cases data with
        | nil =>
          cases h
          exact .refused _ hcall hbuffer hwriters
        | cons a data =>
          cases h
          exact .eof _ hcall (List.cons_ne_nil a data) hbuffer hwriters
      · rw [if_neg hwriters] at h
        cases h
    · rw [if_pos hbuffer] at h
      cases h
      exact .take data hcall hbuffer
  | removing =>
    simp only [hcall, Option.some.injEq] at h
    subst h
    exact .remove hcall
  | returned err => simp only [hcall, reduceCtorEq] at h

def CallPhase.holds : CallPhase → Nat
  | .opening _ => 1
  | .reading _ => 1
  | .removing => 1
  | _ => 0

def CallPhase.bytes : CallPhase → Nat
  | .reading data => data.length
  | .removing => 1
  | .returned none => 1
  | _ => 0

def InitPhase.bytes : InitPhase → Nat
  | .written => 1
  | .running => 1
  | _ => 0

def WriteEnd (p : Fifo Char) : InitPhase → Prop
  | .starting => p.writers = 0 ∧ p.wCounter = 0
  | .opening seen => p.writers = 1 ∧ p.wCounter = 1 ∧ seen = 0
  | .opened => p.writers = 1 ∧ p.wCounter = 1 ∧ 0 < p.readers
  | .written => p.writers = 1 ∧ p.wCounter = 1 ∧ 0 < p.readers
  | .running => p.writers = 0 ∧ p.wCounter = 1
  | .failed => False

def Timely (init : InitPhase) : CallPhase → Prop
  | .waiting => True
  | .locked => True
  | .opening seen => seen = 0 ∨ seen = 1 ∧ init = .running
  | .reading _ => init ≠ .starting
  | .removing => init = .running
  | .returned _ => init = .running

structure Inv (s : State n) : Prop where
  readers : s.fifo.readers = ∑ i, (s.calls i).holds
  bytes : ∑ i, (s.calls i).bytes + s.fifo.buffer.length = s.init.bytes
  held : s.fifo.readers = 0 → s.fifo.buffer = []
  early : s.init ≠ .running → s.fifo.rCounter = s.fifo.readers
  writeEnd : WriteEnd s.fifo s.init
  timely : ∀ i, Timely s.init (s.calls i)
  unlinked : s.linked = false → s.init = .running

theorem inv_created : Inv (created n) where
  readers := by simp [created, CallPhase.holds]
  bytes := by simp [created, CallPhase.bytes, InitPhase.bytes]
  held := fun _ => rfl
  early := fun _ => rfl
  writeEnd := ⟨rfl, rfl⟩
  timely := fun _ => trivial
  unlinked := fun h => by cases h

theorem sum_update (f : CallPhase → Nat) (calls : Fin n → CallPhase) (i : Fin n)
    (phase : CallPhase) :
    ∑ j, f (Function.update calls i phase j) + f (calls i) =
      ∑ j, f (calls j) + f phase := by
  have hrest : ∑ j ∈ Finset.univ.erase i, f (Function.update calls i phase j) =
      ∑ j ∈ Finset.univ.erase i, f (calls j) :=
    Finset.sum_congr rfl fun j hj => by
      rw [Function.update_of_ne (Finset.ne_of_mem_erase hj)]
  rw [← Finset.add_sum_erase _ _ (Finset.mem_univ i), hrest, Function.update_self,
    ← Finset.add_sum_erase _ (fun j => f (calls j)) (Finset.mem_univ i)]
  omega

theorem WriteEnd.openRead {p : Fifo Char} {init : InitPhase} (h : WriteEnd p init) :
    WriteEnd p.openRead init := by
  cases init with
  | opened => exact ⟨h.1, h.2.1, Nat.succ_pos _⟩
  | written => exact ⟨h.1, h.2.1, Nat.succ_pos _⟩
  | _ => exact h

theorem WriteEnd.of_running {p q : Fifo Char} {init : InitPhase} (h : WriteEnd p init)
    (hinit : init = .running) (hwriters : q.writers = p.writers)
    (hcounter : q.wCounter = p.wCounter) : WriteEnd q init := by
  subst hinit
  exact ⟨hwriters.trans h.1, hcounter.trans h.2⟩

theorem Timely.later {init init' : InitPhase} {phase : CallPhase} (h : Timely init phase)
    (hinit : init ≠ .running) (hstarted : init' ≠ .starting) : Timely init' phase := by
  cases phase with
  | waiting => trivial
  | locked => trivial
  | opening seen => exact Or.inl (h.resolve_right fun hlate => hinit hlate.2)
  | reading data => exact hstarted
  | removing => exact absurd h hinit
  | returned err => exact absurd h hinit

namespace Inv

variable {s : State n} {i : Fin n}

section

variable (h : Inv s)
include h

theorem timely_of {phase : CallPhase} (hcall : s.calls i = phase) : Timely s.init phase :=
  hcall ▸ h.timely i

theorem running_of_reading {data : List Char} (hcall : s.calls i = .reading data)
    (hwriters : s.fifo.writers = 0) : s.init = .running := by
  have hwriteEnd := h.writeEnd
  cases hinit : s.init with
  | starting => exact absurd hinit (h.timely_of hcall)
  | running => rfl
  | failed =>
    rw [hinit] at hwriteEnd
    exact hwriteEnd.elim
  | _ =>
    rw [hinit] at hwriteEnd
    have := hwriteEnd.1
    omega

theorem seen_of_no_writer (hwriters : s.fifo.writers = 0) :
    s.fifo.wCounter = 0 ∨ s.fifo.wCounter = 1 ∧ s.init = .running := by
  have hwriteEnd := h.writeEnd
  cases hinit : s.init with
  | starting =>
    rw [hinit] at hwriteEnd
    exact Or.inl hwriteEnd.2
  | running =>
    rw [hinit] at hwriteEnd
    exact Or.inr ⟨hwriteEnd.2, rfl⟩
  | failed =>
    rw [hinit] at hwriteEnd
    exact hwriteEnd.elim
  | _ =>
    rw [hinit] at hwriteEnd
    have := hwriteEnd.1
    omega

theorem bytes_le (i : Fin n) : (s.calls i).bytes + s.fifo.buffer.length ≤ s.init.bytes := by
  have hone : (s.calls i).bytes ≤ ∑ j, (s.calls j).bytes :=
    Finset.single_le_sum (f := fun j => (s.calls j).bytes)
      (fun _ _ => Nat.zero_le _) (Finset.mem_univ i)
  have hbytes := h.bytes
  omega

theorem holds_le (i : Fin n) : (s.calls i).holds ≤ s.fifo.readers := by
  rw [h.readers]
  exact Finset.single_le_sum (f := fun j => (s.calls j).holds)
    (fun _ _ => Nat.zero_le _) (Finset.mem_univ i)

theorem setCall {phase : CallPhase} {fifo : Fifo Char} {linked : Bool}
    (hreaders : fifo.readers + (s.calls i).holds = s.fifo.readers + phase.holds)
    (hbytes : phase.bytes + fifo.buffer.length =
      (s.calls i).bytes + s.fifo.buffer.length) (hheld : fifo.readers = 0 → fifo.buffer = [])
    (hearly : s.init ≠ .running → fifo.rCounter = fifo.readers) (hwriteEnd : WriteEnd fifo s.init)
    (htimely : Timely s.init phase) (hunlinked : linked = false → s.init = .running) :
    Inv { s.setCall i phase with fifo := fifo, linked := linked } where
  readers := by
    have hsum := sum_update CallPhase.holds s.calls i phase
    have hold := h.readers
    change fifo.readers = ∑ j, (Function.update s.calls i phase j).holds
    omega
  bytes := by
    have hsum := sum_update CallPhase.bytes s.calls i phase
    have hold := h.bytes
    change ∑ j, (Function.update s.calls i phase j).bytes + fifo.buffer.length = s.init.bytes
    omega
  held := hheld
  early := hearly
  writeEnd := hwriteEnd
  timely := (Function.forall_update_iff s.calls fun _ => Timely s.init).mpr
    ⟨htimely, fun j _ => h.timely j⟩
  unlinked := hunlinked

theorem setPhase {phase : CallPhase} (hholds : (s.calls i).holds = phase.holds)
    (hbytes : phase.bytes = (s.calls i).bytes) (htimely : Timely s.init phase) :
    Inv (s.setCall i phase) :=
  h.setCall (by rw [hholds]) (by rw [hbytes]) h.held h.early h.writeEnd htimely h.unlinked

theorem openRead {phase : CallPhase} (hcall : s.calls i = .locked)
    (hholds : phase.holds = 1) (hbytes : phase.bytes = 0) (htimely : Timely s.init phase) :
    Inv { s.setCall i phase with fifo := s.fifo.openRead } := by
  refine h.setCall ?_ ?_ (fun hp => absurd hp (Nat.succ_ne_zero _))
    (fun hinit => congrArg Nat.succ (h.early hinit)) h.writeEnd.openRead htimely h.unlinked
  · rw [hcall, hholds]
    rfl
  · rw [hcall, hbytes]
    rfl

theorem closeRead {err : Option Err} {linked : Bool} (hholds : (s.calls i).holds = 1)
    (hinit : s.init = .running) (hbuffer : s.fifo.buffer = [])
    (hbytes : (CallPhase.returned err).bytes = (s.calls i).bytes) :
    Inv { s.setCall i (.returned err) with
      fifo := s.fifo.closeRead
      linked := linked } := by
  have hopen := h.holds_le i
  rw [Fifo.closeRead_of_empty hbuffer]
  refine h.setCall ?_ ?_ (fun _ => hbuffer) (fun hne => absurd hinit hne)
    (h.writeEnd.of_running hinit rfl rfl) hinit (fun _ => hinit)
  · change s.fifo.readers - 1 + (s.calls i).holds = s.fifo.readers + 0
    omega
  · rw [hbytes]

theorem of_moves {s' : State n} (hmoves : Moves owner i s s') : Inv s' := by
  cases hmoves with
  | lock hcall hfree => exact h.setPhase (by rw [hcall]; rfl) (by rw [hcall]; rfl) trivial
  | missing hcall hlinked =>
    exact h.setPhase (by rw [hcall]; rfl) (by rw [hcall]; rfl) (h.unlinked hlinked)
  | enterAlone hcall hlinked hwriters =>
    exact h.openRead hcall rfl rfl (h.seen_of_no_writer hwriters)
  | enter hcall hlinked hwriters =>
    refine h.openRead hcall rfl rfl fun hinit => ?_
    have hwriteEnd := h.writeEnd
    rw [hinit] at hwriteEnd
    exact hwriters hwriteEnd.1
  | wake seen hcall hcounter =>
    refine h.setPhase (by rw [hcall]; rfl) (by rw [hcall]; rfl) fun hinit => ?_
    have hwriteEnd := h.writeEnd
    have hseen := h.timely_of hcall
    rw [hinit] at hwriteEnd hseen
    rcases hseen with hzero | ⟨-, hlate⟩
    · exact hcounter (hwriteEnd.2.trans hzero.symm)
    · cases hlate
  | take data hcall hbuffer =>
    have hread : Timely s.init (.reading data) := h.timely_of hcall
    refine h.setCall (by rw [hcall]; rfl) ?_ (fun _ => rfl) h.early h.writeEnd hread h.unlinked
    rw [hcall]
    exact List.length_append
  | refused err hcall hbuffer hwriters =>
    exact h.closeRead (by rw [hcall]; rfl) (h.running_of_reading hcall hwriters) hbuffer
      (by rw [hcall]; rfl)
  | eof data hcall hdata hbuffer hwriters =>
    have hinit := h.running_of_reading hcall hwriters
    refine h.setPhase (by rw [hcall]; rfl) ?_ hinit
    have hle := h.bytes_le i
    have hpos := List.length_pos_iff.mpr hdata
    rw [hcall, hinit] at hle
    rw [hcall]
    change data.length + _ ≤ 1 at hle
    change 1 = data.length
    omega
  | remove hcall =>
    have hinit := h.timely_of hcall
    have hle := h.bytes_le i
    rw [hcall, hinit] at hle
    change 1 + _ ≤ 1 at hle
    exact h.closeRead (by rw [hcall]; rfl) hinit
      (List.length_eq_zero_iff.mp (by omega)) (by rw [hcall]; rfl)

theorem setInit {phase : InitPhase} {fifo : Fifo Char} (hinit : s.init ≠ .running)
    (hphase : phase ≠ .starting) (hreaders : fifo.readers = s.fifo.readers)
    (hcounter : fifo.rCounter = s.fifo.rCounter)
    (hbytes : fifo.buffer.length + s.init.bytes = s.fifo.buffer.length + phase.bytes)
    (hheld : fifo.readers = 0 → fifo.buffer = []) (hwriteEnd : WriteEnd fifo phase) :
    Inv { s with fifo := fifo, init := phase } where
  readers := hreaders.trans h.readers
  bytes := by
    have hold := h.bytes
    change ∑ j, (s.calls j).bytes + fifo.buffer.length = phase.bytes
    omega
  held := hheld
  early _ := (hcounter.trans (h.early hinit)).trans hreaders.symm
  writeEnd := hwriteEnd
  timely j := (h.timely j).later hinit hphase
  unlinked hlinked := absurd (h.unlinked hlinked) hinit

theorem of_stepInit {s' : State n} (hstep : stepInit s = some s') : Inv s' := by
  have hwriteEnd := h.writeEnd
  have hne : s.init ≠ .running := fun hp => by simp [stepInit, hp] at hstep
  unfold stepInit at hstep
  cases hinit : s.init with
  | starting =>
    rw [hinit] at hwriteEnd
    simp only [hinit, Fifo.writerWaits, Option.some.injEq] at hstep
    subst hstep
    by_cases hreaders : s.fifo.readers = 0
    · rw [if_pos hreaders]
      exact h.setInit hne (fun hp => by cases hp) rfl rfl (by rw [hinit]; rfl) h.held
        ⟨congrArg Nat.succ hwriteEnd.1, congrArg Nat.succ hwriteEnd.2, (h.early hne).trans hreaders⟩
    · rw [if_neg hreaders]
      exact h.setInit hne (fun hp => by cases hp) rfl rfl (by rw [hinit]; rfl) h.held
        ⟨congrArg Nat.succ hwriteEnd.1, congrArg Nat.succ hwriteEnd.2, Nat.pos_of_ne_zero hreaders⟩
  | opening seen =>
    rw [hinit] at hwriteEnd
    simp only [hinit, Option.ite_none_left_eq_some, Option.some.injEq] at hstep
    obtain ⟨hcounter, rfl⟩ := hstep
    rw [h.early hne, hwriteEnd.2.2] at hcounter
    exact h.setInit hne (fun hp => by cases hp) rfl rfl (by rw [hinit]; rfl) h.held
      ⟨hwriteEnd.1, hwriteEnd.2.1, Nat.pos_of_ne_zero hcounter⟩
  | opened =>
    rw [hinit] at hwriteEnd
    have hreaders : s.fifo.readers ≠ 0 := Nat.ne_of_gt hwriteEnd.2.2
    simp only [hinit, Fifo.write, if_neg hreaders, Option.some.injEq] at hstep
    subst hstep
    refine h.setInit hne (fun hp => by cases hp) rfl rfl ?_ (fun hp => absurd hp hreaders) hwriteEnd
    rw [hinit]
    exact List.length_append
  | written =>
    rw [hinit] at hwriteEnd
    simp only [hinit, Fifo.closeWrite_of_readers hwriteEnd.2.2, Option.some.injEq] at hstep
    subst hstep
    exact h.setInit hne (fun hp => by cases hp) rfl rfl (by rw [hinit]; rfl) h.held
      ⟨by rw [hwriteEnd.1], hwriteEnd.2.1⟩
  | running => simp only [hinit, reduceCtorEq] at hstep
  | failed => simp only [hinit, reduceCtorEq] at hstep

end

end Inv

theorem poll_eq {i : Fin n} {s s' : State n} (h : poll i s = some s') : s' = s := by
  unfold poll at h
  split at h
  · cases h
  · cases h
    rfl
  · cases h

theorem inv_step (s : State n) (e : Event n) (s' : State n) (h : Inv s)
    (hstep : (machine owner).step s e = some s') : Inv s' := by
  cases e with
  | init => exact h.of_stepInit hstep
  | call i => exact h.of_moves (stepCall_moves hstep)
  | poll i =>
    rw [poll_eq hstep]
    exact h

theorem inv_state (run : Run (machine owner) (created n)) (t : Nat) : Inv (run.state t) :=
  Run.invariant inv_created inv_step t

end Runc.ExecFifo
