import Runc.Lib.Text
import Mathlib.Data.Nat.Bitwise

/-!
# The affinity mask in the log

`log_cpu_affinity` sets one bit of a `size_t` for each of the first CPUs, but the
constant it shifts is an `int`.
-/

namespace Runc.Nsexec

open Lib

/-- `1 << i`, which is defined as long as the result is an `int`. -/
def intOneShl (i : Nat) : Option Nat :=
  if i < 31 then some (2 ^ i) else none

def affinityStep (cpus : Nat → Bool) (mask i : Nat) : Option Nat :=
  if cpus i then (intOneShl i).map (mask ||| ·) else some mask

/-- The loop, for a `size_t` of `width` bits. -/
def affinityMask (width : Nat) (cpus : Nat → Bool) : Option Nat :=
  (List.range width).foldlM (affinityStep cpus) 0

inductive AffinityLog
  | quiet
  /-- `sched_getaffinity: %m`. -/
  | warning (err : Text)
  /-- `affinity: 0x%zx`. -/
  | debug (mask : Nat)
deriving DecidableEq

/-- There is no result once a shift is undefined. -/
def logCpuAffinity (width : Nat) (debugEnabled : Bool)
    (schedGetaffinity : Except Text (Nat → Bool)) : Option AffinityLog :=
  if !debugEnabled then some .quiet
  else
    match schedGetaffinity with
    | .error err => some (.warning err)
    | .ok cpus => (affinityMask width cpus).map .debug

variable {cpus : Nat → Bool}

theorem affinityMask_succ (n : Nat) :
    affinityMask (n + 1) cpus = (affinityMask n cpus).bind (affinityStep cpus · n) := by
  rw [affinityMask, List.range_succ, List.foldlM_append, affinityMask]
  simp

theorem affinityMask_bits {n : Nat} (hlow : ∀ i < n, 31 ≤ i → cpus i = false) :
    ∃ mask, affinityMask n cpus = some mask ∧
      ∀ i, mask.testBit i = (decide (i < n) && cpus i) := by
  induction n with
  | zero => exact ⟨0, rfl, by simp⟩
  | succ n ih =>
    obtain ⟨mask, hmask, hbits⟩ := ih fun i hi => hlow i (by omega)
    rw [affinityMask_succ, hmask, Option.bind_some, affinityStep]
    cases hn : cpus n with
    | false =>
      refine ⟨mask, rfl, fun i => ?_⟩
      rw [hbits]
      rcases Nat.lt_trichotomy i n with hi | rfl | hi
      · simp [hi, Nat.lt_succ_of_lt hi]
      · simp [hn]
      · simp [Nat.not_lt.mpr hi.le, Nat.not_lt.mpr (Nat.succ_le_of_lt hi)]
    | true =>
      have hshift : n < 31 := by
        by_contra hhigh
        exact Bool.noConfusion ((hlow n (by omega) (by omega)).symm.trans hn)
      refine ⟨mask ||| 2 ^ n, by simp [intOneShl, hshift], fun i => ?_⟩
      rw [Nat.testBit_or, hbits, Nat.testBit_two_pow]
      rcases Nat.lt_trichotomy i n with hi | rfl | hi
      · simp [hi, Nat.lt_succ_of_lt hi, hi.ne']
      · simp [hn]
      · simp [Nat.not_lt.mpr hi.le, Nat.not_lt.mpr (Nat.succ_le_of_lt hi), hi.ne]

theorem affinityMask_undefined {n i : Nat} (hi : i < n) (hhigh : 31 ≤ i) (hset : cpus i = true) :
    affinityMask n cpus = none := by
  induction n with
  | zero => exact absurd hi (Nat.not_lt_zero i)
  | succ n ih =>
    rw [affinityMask_succ]
    rcases Nat.lt_succ_iff_lt_or_eq.mp hi with hlt | rfl
    · rw [ih hlt, Option.bind_none]
    · cases affinityMask i cpus with
      | none => rfl
      | some mask => simp [affinityStep, hset, intOneShl, Nat.not_lt.mpr hhigh]

/-- The mask that is logged is right exactly if no CPU from 31 on is in the set. -/
theorem logCpuAffinity_mask_iff (width : Nat) (cpus : Nat → Bool) :
    (∃ mask, logCpuAffinity width true (.ok cpus) = some (.debug mask) ∧
        ∀ i < width, (mask.testBit i = true ↔ cpus i = true)) ↔
      ∀ i < width, 31 ≤ i → cpus i = false := by
  constructor
  · rintro ⟨mask, hlog, -⟩ i hi hhigh
    cases hset : cpus i with
    | false => rfl
    | true =>
      have hnone : logCpuAffinity width true (.ok cpus) = none :=
        congrArg (Option.map AffinityLog.debug) (affinityMask_undefined hi hhigh hset)
      rw [hnone] at hlog
      cases hlog
  · intro hlow
    obtain ⟨mask, hmask, hbits⟩ := affinityMask_bits hlow
    refine ⟨mask, congrArg (Option.map AffinityLog.debug) hmask, fun i hi => ?_⟩
    rw [hbits, decide_eq_true hi, Bool.true_and]

theorem logCpuAffinity_cpu32 : logCpuAffinity 64 true (.ok (· == 32)) = none := by
  decide

end Runc.Nsexec
