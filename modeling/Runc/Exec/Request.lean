import Mathlib.Data.List.Nodup
import Runc.Exec.Containment

/-!
# Requests for sub-cgroups

What the arguments can ask for, when a request has been honoured, and the runs that the
failures of a request are shown on.
-/

namespace Runc.Exec

open Lib
open Lib.Path

structure Shape (req : Paths) : Prop where
  nodup : (req.map Prod.fst).Nodup
  single : ∀ sub, ([], sub) ∈ req → req = [([], sub)]

structure ByController (paths : Paths) : Prop where
  nodup : (paths.map Prod.fst).Nodup
  named : [] ∉ paths.map Prod.fst

theorem ByController.shape {paths : Paths} (h : ByController paths) : Shape paths where
  nodup := h.nodup
  single _ hmem := absurd (List.mem_map_of_mem hmem) h.named

theorem ByController.nil : ByController [] :=
  ⟨List.nodup_nil, List.not_mem_nil⟩

theorem ByController.append {paths : Paths} {ctrl path : Text} (h : ByController paths)
    (hctrl : ctrl ≠ []) (hnew : ctrl ∉ paths.map Prod.fst) :
    ByController (paths ++ [(ctrl, path)]) where
  nodup := by
    rw [List.map_append, List.nodup_append]
    refine ⟨h.nodup, List.nodup_singleton _, ?_⟩
    rintro a ha b hb rfl
    obtain rfl : a = ctrl := List.mem_singleton.mp hb
    exact hnew ha
  named := by
    rw [List.map_append, List.mem_append]
    rintro (hold | hlast)
    · exact h.named hold
    · exact hctrl (List.mem_singleton.mp hlast).symm

theorem addControllers_byController {arg path : Text} {ctrls : List Text} {paths out : Paths}
    (h : ByController paths) (hok : addControllers arg path ctrls paths = .ok out) :
    ByController out := by
  induction ctrls generalizing paths with
  | nil =>
    cases hok
    exact h
  | cons ctrl rest ih =>
    rw [addControllers] at hok
    split at hok
    · cases hok
    · rename_i hctrl
      split at hok
      · cases hok
      · rename_i hnew
        exact ih (h.append hctrl hnew) hok

theorem addArg_byController {count : Nat} {paths out : Paths} {arg : Text} (h : ByController paths)
    (hcount : count ≠ 1) (hok : addArg count paths arg = .ok out) : ByController out := by
  rw [addArg] at hok
  split at hok
  · exact addControllers_byController h hok
  · rw [if_pos hcount] at hok
    cases hok

theorem addArgs_byController {count : Nat} {args : List Text} {paths out : Paths}
    (h : ByController paths) (hcount : count ≠ 1) (hok : addArgs count args paths = .ok out) :
    ByController out := by
  induction args generalizing paths with
  | nil =>
    cases hok
    exact h
  | cons arg rest ih =>
    rw [addArgs] at hok
    split at hok
    · cases hok
    · rename_i hfirst
      exact ih (addArg_byController h hcount hfirst) hok

theorem getSubCgroupPaths_shape {args : List Text} {req : Paths}
    (h : getSubCgroupPaths args = .ok req) : Shape req := by
  rw [getSubCgroupPaths] at h
  by_cases hcount : args.length = 1
  · obtain ⟨arg, rfl⟩ := List.length_eq_one_iff.mp hcount
    rw [addArgs] at h
    split at h
    · cases h
    · rename_i paths hfirst
      cases h
      rw [addArg] at hfirst
      split at hfirst
      · exact (addControllers_byController ByController.nil hfirst).shape
      · cases hfirst
        refine ⟨List.nodup_singleton _, ?_⟩
        intro sub hsub
        rw [List.nil_append, List.mem_singleton] at hsub
        rw [hsub]
        rfl
  · exact (addArgs_byController ByController.nil hcount h).shape

def Asks (req : Paths) (ctrl sub : Text) : Prop :=
  ([], sub) ∈ req ∨ (ctrl, sub) ∈ req

structure HonouredV1 (c : Cgroups) (req : Paths) (p : Process) : Prop where
  known : ∀ e ∈ req, e.1 ≠ [] → ∃ dir, (e.1, dir) ∈ c.dirs
  placed : ∀ ctrl dir sub, (ctrl, dir) ∈ c.dirs → Asks req ctrl sub →
    p.place (c.hierarchy (join dir.text sub)) = join dir.text sub

def HonouredV2 (c : Cgroups) (req : Paths) (p : Process) : Prop :=
  ∀ e ∈ req, e.2 ≠ [] →
    p.place (c.hierarchy (join c.dir.text e.2)) = join c.dir.text e.2

def Honoured (c : Cgroups) (req : Paths) (p : Process) : Prop :=
  if c.unified then HonouredV2 c req p else HonouredV1 c req p

def Guaranteed (c : Cgroups) (req : Paths) : Prop :=
  ∀ (a : Answers) (p : Process),
    ((start c a req).exec p).1 = .ok () → Honoured c req ((start c a req).exec p).2

def smooth (order : Paths → Paths) (horder : ∀ m, (order m).Perm m) : Answers where
  pid := 1
  requestOrder := id
  requestOrder_perm _ := List.Perm.refl _
  order := order
  order_perm := horder
  openProcs _ _ := none
  attempt _ _ _ := none
  permission _ := false
  opens _ := none
  cloneInto := none
  clone := none
  attach := none
  attached place := place
  newManager := none
  initCgroup := []
  before := none
  after := none

def entryLast (e : Text × Text) (m : Paths) : Paths :=
  if e ∈ m then m.erase e ++ [e] else m

theorem entryLast_perm (e : Text × Text) (m : Paths) : (entryLast e m).Perm m := by
  rw [entryLast]
  split
  · rename_i he
    exact (List.perm_append_singleton e _).trans (List.perm_cons_erase he).symm
  · exact List.Perm.refl m

def smoothLast (e : Text × Text) : Answers :=
  smooth (entryLast e) (entryLast_perm e)

section Start

variable {c : Cgroups} {a : Answers} {req : Paths} {p : Process}

theorem start_ok (h : ((start c a req).exec p).1 = .ok ()) :
    ∃ useCgroupFD p₁,
      (startWithCgroupFD c a req).exec p = (.ok useCgroupFD, p₁) ∧
      (addIntoCgroup c a useCgroupFD req).exec p₁ = (.ok (), ((start c a req).exec p).2) := by
  obtain ⟨useCgroupFD, p₁, hwrap, hstart⟩ := Program.exec_bind_of_ok h
  have hclone : (startWithCgroupFD c a req).exec p = (.ok useCgroupFD, p₁) := by
    rw [Program.wrap, Program.exec_tryCatch] at hwrap
    rcases hrun : (startWithCgroupFD c a req).exec p with ⟨err | b, p'⟩
    · rw [hrun] at hwrap
      cases hwrap
    · rw [hrun] at hwrap
      exact hwrap
  refine ⟨useCgroupFD, p₁, hclone, ?_⟩
  have hstart' : (start c a req).exec p = _ := hstart
  rw [hstart'] at h ⊢
  obtain ⟨_, p₂, hbefore, hrest⟩ := Program.exec_bind_of_ok h
  rw [hrest] at h ⊢
  obtain ⟨_, p₃, hadd, hafter⟩ := Program.exec_bind_of_ok h
  rw [hafter] at h ⊢
  obtain rfl : p₁ = p₂ := by
    cases hcheck : a.before with
    | none =>
      rw [hcheck] at hbefore
      exact congrArg Prod.snd hbefore
    | some err =>
      rw [hcheck] at hbefore
      cases hbefore
  cases hcheck : a.after with
  | none =>
    rw [hadd]
    rfl
  | some err =>
    rw [hcheck] at h
    cases h

theorem start_eq {useCgroupFD : Bool} {p₁ p₂ : Process} (hbefore : a.before = none)
    (hafter : a.after = none) (hclone : (startWithCgroupFD c a req).exec p = (.ok useCgroupFD, p₁))
    (hadd : (addIntoCgroup c a useCgroupFD req).exec p₁ = (.ok (), p₂)) :
    (start c a req).exec p = (.ok (), p₂) := by
  rw [start, Program.exec_bind, Program.wrap, Program.exec_tryCatch, hclone]
  dsimp only
  rw [hbefore, Program.exec_bind, Program.exec_check_none]
  dsimp only
  rw [Program.exec_bind, hadd, hafter]
  rfl

end Start

end Runc.Exec
