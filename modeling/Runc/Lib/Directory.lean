import Mathlib.Logic.Function.Basic

/-!
# A directory of files

A directory maps names to files, and a file has a content. Whoever has a file open reads
and writes the file and not the name.
-/

namespace Runc.Lib

universe u v

structure Directory (ν : Type u) (α : Type v) where
  entry : ν → Option Nat
  content : Nat → List α
  next : Nat
  bounded : ∀ n file, entry n = some file → file < next
  single : ∀ m n file, entry m = some file → entry n = some file → m = n

namespace Directory

variable {ν : Type u} {α : Type v}

def holds (d : Directory ν α) (n : ν) : Option (List α) :=
  (d.entry n).map d.content

theorem holds_of_entry {d : Directory ν α} {n : ν} {file : Nat} (h : d.entry n = some file) :
    d.holds n = some (d.content file) := by
  rw [holds, h]
  rfl

def append (d : Directory ν α) (file : Nat) (more : List α) : Directory ν α :=
  { d with content := Function.update d.content file (d.content file ++ more) }

section Append

variable {d : Directory ν α} {m n : ν} {file other : Nat} {more : List α}

theorem content_append_self : (d.append file more).content file = d.content file ++ more :=
  Function.update_self _ _ _

theorem content_append_of_ne (h : file ≠ other) :
    (d.append other more).content file = d.content file :=
  Function.update_of_ne h _ _

theorem holds_append_of_ne (hn : d.entry n = some file) (h : m ≠ n) :
    (d.append file more).holds m = d.holds m := by
  rw [holds, holds]
  cases hm : d.entry m with
  | none =>
    rw [append, hm]
    rfl
  | some other =>
    have hne : other ≠ file := by
      rintro rfl
      exact h (d.single m n other hm hn)
    rw [append, hm]
    exact congrArg some (content_append_of_ne hne)

end Append

variable [DecidableEq ν]

def create (d : Directory ν α) (n : ν) : Directory ν α where
  entry := Function.update d.entry n (some d.next)
  content := Function.update d.content d.next []
  next := d.next + 1
  bounded m file h := by
    by_cases hm : m = n
    · rw [hm, Function.update_self] at h
      cases h
      exact Nat.lt_succ_self _
    · rw [Function.update_of_ne hm] at h
      exact Nat.lt_succ_of_lt (d.bounded m file h)
  single l m file hl hm := by
    by_cases hln : l = n
    · by_cases hmn : m = n
      · rw [hln, hmn]
      · rw [hln, Function.update_self] at hl
        rw [Function.update_of_ne hmn] at hm
        cases hl
        exact absurd (d.bounded m _ hm) (Nat.lt_irrefl _)
    · rw [Function.update_of_ne hln] at hl
      by_cases hmn : m = n
      · rw [hmn, Function.update_self] at hm
        cases hm
        exact absurd (d.bounded l _ hl) (Nat.lt_irrefl _)
      · rw [Function.update_of_ne hmn] at hm
        exact d.single l m file hl hm

def unlink (d : Directory ν α) (n : ν) : Directory ν α where
  entry := Function.update d.entry n none
  content := d.content
  next := d.next
  bounded m file h := by
    by_cases hm : m = n
    · rw [hm, Function.update_self] at h
      cases h
    · rw [Function.update_of_ne hm] at h
      exact d.bounded m file h
  single l m file hl hm := by
    by_cases hln : l = n
    · rw [hln, Function.update_self] at hl
      cases hl
    · by_cases hmn : m = n
      · rw [hmn, Function.update_self] at hm
        cases hm
      · rw [Function.update_of_ne hln] at hl
        rw [Function.update_of_ne hmn] at hm
        exact d.single l m file hl hm

section Unlink

variable {d : Directory ν α} {m n : ν} {file : Nat}

theorem entry_unlink_self : (d.unlink n).entry n = none :=
  Function.update_self _ _ _

theorem entry_unlink_of_ne (h : m ≠ n) : (d.unlink n).entry m = d.entry m :=
  Function.update_of_ne h _ _

theorem entry_of_unlink (h : (d.unlink n).entry m = some file) : m ≠ n ∧ d.entry m = some file := by
  by_cases hm : m = n
  · rw [hm, entry_unlink_self] at h
    cases h
  · exact ⟨hm, (entry_unlink_of_ne hm).symm.trans h⟩

end Unlink

def rename (d : Directory ν α) (old new : ν) : Directory ν α where
  entry := Function.update (d.unlink old).entry new (d.entry old)
  content := d.content
  next := d.next
  bounded m file h := by
    by_cases hm : m = new
    · rw [hm, Function.update_self] at h
      exact d.bounded old file h
    · rw [Function.update_of_ne hm] at h
      exact (d.unlink old).bounded m file h
  single l m file hl hm := by
    -- the file of `old` has no name left but the new one
    have hgone : ∀ n, (d.unlink old).entry n = some file → d.entry old ≠ some file := by
      intro n hn hold
      obtain ⟨hne, hentry⟩ := entry_of_unlink hn
      exact hne (d.single n old file hentry hold)
    by_cases hln : l = new
    · by_cases hmn : m = new
      · rw [hln, hmn]
      · rw [hln, Function.update_self] at hl
        rw [Function.update_of_ne hmn] at hm
        exact absurd hl (hgone m hm)
    · rw [Function.update_of_ne hln] at hl
      by_cases hmn : m = new
      · rw [hmn, Function.update_self] at hm
        exact absurd hm (hgone l hl)
      · rw [Function.update_of_ne hmn] at hm
        exact (d.unlink old).single l m file hl hm

section Names

variable {d : Directory ν α} {m n : ν} {file : Nat}

theorem entry_create_self : (d.create n).entry n = some d.next :=
  Function.update_self _ _ _

theorem entry_create_of_ne (h : m ≠ n) : (d.create n).entry m = d.entry m :=
  Function.update_of_ne h _ _

theorem entry_rename_self {old : ν} : (d.rename old n).entry n = d.entry old :=
  Function.update_self _ _ _

theorem entry_rename_of_ne {old : ν} (hnew : m ≠ n) (hold : m ≠ old) :
    (d.rename old n).entry m = d.entry m :=
  (Function.update_of_ne hnew _ _).trans (entry_unlink_of_ne hold)

theorem exists_entry_of_rename {old : ν} (h : (d.rename old n).entry m = some file) :
    ∃ l, d.entry l = some file := by
  by_cases hm : m = n
  · rw [hm, entry_rename_self] at h
    exact ⟨old, h⟩
  · have hunlink : (d.unlink old).entry m = some file := (Function.update_of_ne hm _ _).symm.trans h
    exact ⟨m, (entry_of_unlink hunlink).2⟩

end Names

section Contents

variable {d : Directory ν α} {m n : ν} {file : Nat}

theorem content_create_of_lt (h : file < d.next) : (d.create n).content file = d.content file :=
  Function.update_of_ne (Nat.ne_of_lt h) _ _

theorem content_create_next : (d.create n).content d.next = [] :=
  Function.update_self _ _ _

theorem holds_create_of_ne (h : m ≠ n) : (d.create n).holds m = d.holds m := by
  rw [holds, entry_create_of_ne h, holds]
  cases hm : d.entry m with
  | none => rfl
  | some file => exact congrArg some (content_create_of_lt (d.bounded m file hm))

theorem holds_unlink_of_ne (h : m ≠ n) : (d.unlink n).holds m = d.holds m := by
  rw [holds, entry_unlink_of_ne h]
  rfl

theorem holds_rename_self {old : ν} (h : d.entry old = some file) :
    (d.rename old n).holds n = some (d.content file) := by
  rw [holds, entry_rename_self, h]
  rfl

end Contents

end Directory
end Runc.Lib
