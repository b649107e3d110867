import Runc.Exec.SubCgroup

/-!
# Which sub-cgroups are accepted

A sub path is joined to the directory of the container's cgroup, and the result is
accepted if it begins with the text of that directory.
-/

namespace Runc.Exec

open Lib
open Lib.Path

def Accepted (base : AbsPath) (sub : Text) : Prop :=
  base.text <+: join base.text sub

instance (base : AbsPath) (sub : Text) : Decidable (Accepted base sub) :=
  inferInstanceAs (Decidable (base.text <+: join base.text sub))

variable {sub : Text} {base : AbsPath}

theorem subCgroup_of_accepted (h : Accepted base sub) :
    subCgroup base.text sub = .ok (join base.text sub) := by
  rw [subCgroup, if_pos (List.isPrefixOf_iff_prefix.mpr h)]

theorem subCgroup_ok_iff {path : Text} :
    subCgroup base.text sub = .ok path ↔ Accepted base sub ∧ path = join base.text sub := by
  constructor
  · intro h
    by_cases hacc : Accepted base sub
    · rw [subCgroup_of_accepted hacc] at h
      exact ⟨hacc, (Except.ok.inj h).symm⟩
    · rw [subCgroup, if_neg (fun hp => hacc (List.isPrefixOf_iff_prefix.mp hp))] at h
      cases h
  · rintro ⟨hacc, rfl⟩
    exact subCgroup_of_accepted hacc

theorem join_nil (dir : AbsPath) : join dir.text [] = dir.text := by
  have hstay : resolve dir.names [] = dir.names := List.reverse_reverse dir.names
  rw [join_text, hstay, ← dir.text_eq]

theorem accepted_nil (dir : AbsPath) : Accepted dir [] :=
  ⟨[], by rw [List.append_nil, join_nil]⟩

def dirText (base : AbsPath) : Text :=
  if base.text = ['/'] then base.text else base.text ++ ['/']

def ClimbsBeside (base : AbsPath) (sub : Text) : Prop :=
  ∃ left name more rest,
    base.names.drop (base.names.length - (climb sub).ups) = left ++ [name] ∧ more ≠ [] ∧
      (climb sub).downs.reverse = left ++ (name ++ more) :: rest

theorem split_of_parting {kept a b parent rest : List Text} {x y : Text}
    (ha : kept ++ a = parent ++ [x]) (hb : kept ++ b = parent ++ y :: rest) (hxy : x ≠ y) :
    ∃ left, a = left ++ [x] ∧ b = left ++ y :: rest := by
  rcases List.append_eq_append_iff.mp ha with ⟨left, rfl, rfl⟩ | ⟨tail, rfl, htail⟩
  · rw [List.append_assoc, List.append_cancel_left_eq] at hb
    exact ⟨left, rfl, hb⟩
  · cases tail with
    | nil =>
      rw [List.append_nil, List.append_cancel_left_eq] at hb
      exact ⟨[], htail.symm, hb⟩
    | cons z tail =>
      -- everything was kept, so the names do not part
      rw [List.append_assoc, List.append_cancel_left_eq] at hb
      rw [List.cons_append, List.cons.injEq] at htail hb
      exact absurd (htail.1.trans hb.1) hxy

theorem beside_joined_iff : Beside base (base.joined sub) ↔ ClimbsBeside base sub := by
  have hjoined : (base.joined sub).names =
      base.names.take (base.names.length - (climb sub).ups) ++ (climb sub).downs.reverse := by
    rw [AbsPath.joined_names, resolve_eq base.isName]
  have hnames := List.take_append_drop (base.names.length - (climb sub).ups) base.names
  constructor
  · rintro ⟨parent, name, more, rest, hbase, hmore, hsub⟩
    have hne : name ≠ name ++ more := fun h => hmore (List.self_eq_append_right.mp h)
    obtain ⟨left, hdrop, hdowns⟩ :=
      split_of_parting (hnames.trans hbase) (hjoined.symm.trans hsub) hne
    exact ⟨left, name, more, rest, hdrop, hmore, hdowns⟩
  · rintro ⟨left, name, more, rest, hdrop, hmore, hdowns⟩
    refine ⟨base.names.take (base.names.length - (climb sub).ups) ++ left, name, more, rest,
      ?_, hmore, ?_⟩
    · rw [List.append_assoc, ← hdrop, hnames]
    · rw [hjoined, hdowns, List.append_assoc]

theorem accepted_iff :
    Accepted base sub ↔
      Within base (base.joined sub) ∨ Beside base (base.joined sub) := by
  rw [Accepted, ← base.joined_text sub]
  exact text_prefix_iff base (base.joined sub)

theorem within_iff_dirText {p : AbsPath} :
    Within base p ↔ p.text = base.text ∨ dirText base <+: p.text := by
  by_cases hroot : base.names = []
  · have htext : base.text = ['/'] := text_of_names_nil hroot
    have hslash : ['/'] <+: p.text := by
      rw [p.text_eq]
      exact ⟨_, rfl⟩
    rw [dirText, if_pos htext, htext]
    exact ⟨fun _ => .inr hslash, fun _ => by rw [Within, hroot]; exact List.nil_prefix⟩
  · have htext : base.text ≠ ['/'] := by
      intro h
      exact hroot (by rw [AbsPath.names, h]; rfl)
    rw [dirText, if_neg htext]
    exact within_iff_text hroot p

/-- Containment. -/
theorem subCgroup_contained_iff (base : AbsPath) (sub : Text) :
    (∀ path, subCgroup base.text sub = .ok path →
      path = base.text ∨ dirText base <+: path) ↔ ¬ ClimbsBeside base sub := by
  rw [← beside_joined_iff]
  constructor
  · intro h hbeside
    have hacc : Accepted base sub := accepted_iff.mpr (.inr hbeside)
    have hin := h _ (subCgroup_of_accepted hacc)
    rw [← base.joined_text sub] at hin
    exact not_within_of_beside hbeside (within_iff_dirText.mpr hin)
  · intro hbeside path hok
    obtain ⟨hacc, rfl⟩ := subCgroup_ok_iff.mp hok
    rw [← base.joined_text sub]
    exact within_iff_dirText.mp ((accepted_iff.mp hacc).resolve_right hbeside)

def ab : AbsPath where
  text := "/a/b".toList
  abs := by decide
  clean_eq := by decide

theorem subCgroup_selects_sibling :
    subCgroup ab.text "../bc".toList = .ok "/a/bc".toList ∧
      "/a/bc".toList ≠ ab.text ∧ ¬ dirText ab <+: "/a/bc".toList := by
  decide

end Runc.Exec
