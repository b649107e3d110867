import Runc.Configs.Mount
import Runc.Lib.PathPrefix
import Runc.Rootfs.Syscalls
import Mathlib.Data.List.Induction

/-!
# Making the parent mount of the rootfs private

`rootfsParentMountPrivate` does not know which ancestor of the rootfs is a mount
point and tries them one after the other.
-/

namespace Runc.Rootfs

open Lib
open Lib.Path
open Configs (msPrivate)

/-- `mountError`, the members that are set. -/
structure ParentMountErr where
  op : Text := "remount-private".toList
  target : Text
  flags : Flags := msPrivate
  err : Errno
deriving DecidableEq

/-- What the loop returns, and the paths it called `mount` with. -/
structure ParentMount where
  tried : List Text
  result : Except ParentMountErr Unit

/-- The loop of `rootfsParentMountPrivate`: `mount k` is the answer of call `k`. -/
def parentMountLoop (mount : Nat → Option Errno) : Nat → List Text → Text → Option ParentMount
  | 0, _, _ => none
  | fuel + 1, tried, path =>
      match mount tried.length with
      | none => some ⟨tried ++ [path], .ok ()⟩
      | some err =>
          if err ≠ .einval ∨ path = ['/'] then
            some ⟨tried ++ [path], .error { target := path, err }⟩
          else parentMountLoop mount fuel (tried ++ [path]) (dir path)

def rootfsParentMountPrivate (mount : Nat → Option Errno) (fuel : Nat) (path : Text) :
    Option ParentMount :=
  parentMountLoop mount fuel [] path

/-- The path and its ancestors, from the longest to `/`. -/
def ancestors (names : List Text) : List Text :=
  (List.range (names.length + 1)).map fun k => render (names.take (names.length - k))

theorem ancestors_concat (init : List Text) (last : Text) :
    ancestors (init ++ [last]) = render (init ++ [last]) :: ancestors init := by
  rw [ancestors, ancestors, List.length_append, List.length_singleton,
    List.range_succ_eq_map, List.map_cons, List.map_map]
  congr 1
  · rw [Nat.sub_zero, List.take_of_length_le (by simp)]
  · refine List.map_congr_left fun k hk => ?_
    have hsub : init.length + 1 - k.succ = init.length - k := by omega
    rw [Function.comp_apply, hsub, List.take_append_of_le_length (by omega)]

def MadePrivate (mount : Nat → Option Errno) (first count : Nat) : Prop :=
  ∃ k < count, mount (first + k) = none ∧ ∀ j < k, mount (first + j) = some .einval

variable {mount : Nat → Option Errno}

theorem madePrivate_succ (first count : Nat) :
    MadePrivate mount first (count + 1) ↔
      mount first = none ∨
        mount first = some .einval ∧ MadePrivate mount (first + 1) count := by
  constructor
  · rintro ⟨k, hk, hnone, hlonger⟩
    cases k with
    | zero => exact .inl hnone
    | succ k =>
      refine .inr ⟨hlonger 0 (Nat.succ_pos k), k, by omega, ?_, fun j hj => ?_⟩
      · rw [Nat.add_right_comm]
        exact hnone
      · rw [Nat.add_right_comm]
        exact hlonger (j + 1) (by omega)
  · rintro (hnone | ⟨heinval, k, hk, hnone, hlonger⟩)
    · exact ⟨0, Nat.succ_pos _, hnone, fun j hj => absurd hj (Nat.not_lt_zero j)⟩
    · refine ⟨k + 1, by omega, ?_, fun j hj => ?_⟩
      · rw [← Nat.add_assoc, Nat.add_right_comm]
        exact hnone
      · cases j with
        | zero => exact heinval
        | succ j =>
          rw [← Nat.add_assoc, Nat.add_right_comm]
          exact hlonger j (by omega)

theorem parentMountLoop_run {names : List Text} (hnames : ∀ name ∈ names, IsName name)
    (tried : List Text) :
    ∃ more result,
      (∀ fuel > names.length,
        parentMountLoop mount fuel tried (render names) = some ⟨tried ++ more, result⟩) ∧
      more <+: ancestors names ∧
      (result = .ok () ↔ MadePrivate mount tried.length (names.length + 1)) := by
  -- each round drops the last name, so the induction is on the names from the end
  induction names using List.reverseRecOn generalizing tried with
  | nil =>
    rw [madePrivate_succ]
    cases hmount : mount tried.length with
    | none =>
      refine ⟨[['/']], .ok (), fun fuel hfuel => ?_, List.prefix_rfl, by simp⟩
      obtain ⟨fuel, rfl⟩ := Nat.exists_eq_succ_of_ne_zero (Nat.ne_of_gt hfuel)
      rw [parentMountLoop, hmount]
      rfl
    | some err =>
      refine ⟨[['/']], .error { target := ['/'], err }, fun fuel hfuel => ?_, List.prefix_rfl, ?_⟩
      · obtain ⟨fuel, rfl⟩ := Nat.exists_eq_succ_of_ne_zero (Nat.ne_of_gt hfuel)
        rw [parentMountLoop, hmount]
        exact if_pos (.inr rfl)
      · simp [MadePrivate]
  | append_singleton init last ih =>
    rw [madePrivate_succ, ancestors_concat]
    have hone : [render (init ++ [last])] <+: render (init ++ [last]) :: ancestors init :=
      ⟨_, rfl⟩
    have hroot : render (init ++ [last]) ≠ ['/'] := by
      intro heq
      have htokens := congrArg (tokens '/') heq
      rw [tokens_render hnames] at htokens
      exact absurd (htokens.trans (show tokens '/' ['/'] = [] from rfl)) (by simp)
    cases hmount : mount tried.length with
    | none =>
      refine ⟨_, .ok (), fun fuel hfuel => ?_, hone, by simp⟩
      obtain ⟨fuel, rfl⟩ := Nat.exists_eq_succ_of_ne_zero (Nat.ne_zero_of_lt hfuel)
      rw [parentMountLoop, hmount]
    | some err =>
      by_cases herr : err = .einval
      · obtain ⟨more, result, hloop, hmore, hresult⟩ :=
          ih (List.forall_mem_append.mp hnames).1 (tried ++ [render (init ++ [last])])
        refine ⟨render (init ++ [last]) :: more, result, fun fuel hfuel => ?_,
          List.cons_prefix_cons.mpr ⟨rfl, hmore⟩, ?_⟩
        · obtain ⟨fuel, rfl⟩ := Nat.exists_eq_succ_of_ne_zero (Nat.ne_zero_of_lt hfuel)
          have hlen : fuel > init.length := by
            rw [List.length_append, List.length_singleton] at hfuel
            omega
          rw [parentMountLoop, hmount]
          simp only [herr, hroot, ne_eq, not_true_eq_false, or_self, if_false]
          rw [dir_render_concat hnames, hloop fuel hlen, List.append_assoc]
          rfl
        · rw [hresult]
          simp [herr]
      · refine ⟨_, .error { target := render (init ++ [last]), err }, fun fuel hfuel => ?_,
          hone, by simp [herr]⟩
        obtain ⟨fuel, rfl⟩ := Nat.exists_eq_succ_of_ne_zero (Nat.ne_zero_of_lt hfuel)
        rw [parentMountLoop, hmount]
        exact if_pos (.inl herr)

/-- The loop ends after at most one call per ancestor, and succeeds exactly if the first path
that is a mount point is made private. -/
theorem rootfsParentMountPrivate_tries (mount : Nat → Option Errno) (path : AbsPath) :
    ∃ out : ParentMount,
      (∀ fuel > path.names.length, rootfsParentMountPrivate mount fuel path.text = some out) ∧
      out.tried.length ≤ path.names.length + 1 ∧
      out.tried <+: ancestors path.names ∧
      (out.result = .ok () ↔
        ∃ k < path.names.length + 1, mount k = none ∧ ∀ j < k, mount j = some .einval) := by
  obtain ⟨more, result, hloop, hmore, hresult⟩ := @parentMountLoop_run mount _ path.isName []
  have hlen : more.length ≤ path.names.length + 1 := by
    have hle := hmore.length_le
    rw [ancestors, List.length_map, List.length_range] at hle
    exact hle
  refine ⟨⟨more, result⟩, fun fuel hfuel => ?_, hlen, hmore, ?_⟩
  · rw [rootfsParentMountPrivate, path.text_eq]
    exact hloop fuel hfuel
  · rw [hresult, MadePrivate]
    simp

end Runc.Rootfs
