import Runc.Pathrs.Lexical

/-!
# Making a directory below a root

`MkdirAllParentInRoot` strips the root from the path it has resolved, and
`MkdirAllInRoot`, which it calls for the parent, strips the root once more.
-/

namespace Runc.Pathrs

open Lib
open Lib.Path

def octal (n : Nat) : Text :=
  let digits := Nat.toDigits 8 n
  "0o".toList ++ List.replicate (3 - digits.length) '0' ++ digits

variable {F : Type} (secureJoin : Text → Text → Except Text Text)
  (openRoot : Text → Except Text Unit) (mkdirAllHandle : Text → Text → BitVec 32 → Except Text F)

/-- The handle is made below the opened root, with further attempts after `EAGAIN`. -/
def mkdirAllInRoot (mode : BitVec 32) (root unsafePath : Text) : Except Text F := do
  let unsafePath ← (hallucinateUnsafePath secureJoin root unsafePath).mapError
    ("failed to construct hallucinated target path: ".toList ++ ·)
  if mode &&& ~~~0o7777 ≠ 0 then
    throw ("tried to include non-mode bits in MkdirAll mode: ".toList ++ octal mode.toNat)
  -- the other bits are ignored by Linux
  let mode := if mode &&& ~~~0o1777 ≠ 0 then mode &&& 0o1777 else mode
  (openRoot root).mapError ("open root handle: ".toList ++ ·)
  mkdirAllHandle root unsafePath mode

/-- What is left of the names of a directory if the root is stripped from them. -/
def strippedAgain (root : AbsPath) (names : List Text) : List Text :=
  if root.names <+: names then names.drop root.names.length else names

variable {secureJoin openRoot mkdirAllHandle} {root : AbsPath} {init : List Text}

theorem strippedAgain_eq_iff :
    strippedAgain root init = init ↔ root.names = [] ∨ ¬ root.names <+: init := by
  rw [strippedAgain]
  split
  · rename_i hin
    obtain ⟨rest, rfl⟩ := hin
    rw [List.drop_left]
    simp
  · rename_i hout
    simp [hout]

section Names

variable (h : ∀ name ∈ init, IsName name)
include h

theorem strippedAgain_isName : ∀ name ∈ strippedAgain root init, IsName name := by
  rw [strippedAgain]
  split
  · exact fun name hname => h name (List.mem_of_mem_drop hname)
  · exact h

theorem lexicallyStripRoot_slashed :
    lexicallyStripRoot root.text (slashed init ++ ['/']) = render (strippedAgain root init) := by
  have htokens : tokens '/' (slashed init ++ ['/']) = init := by
    rw [tokens_append_sep, tokens_slashed h]
    exact List.append_nil init
  have hnames : (rooted (slashed init ++ ['/'])).names = init := by
    rw [rooted_names, resolve_of_isName (by rw [htokens]; exact h), htokens, List.nil_append]
  rw [strippedAgain]
  split
  · rename_i hin
    obtain ⟨rest, rfl⟩ := hin
    rw [List.drop_left]
    exact lexicallyStripRoot_of_within (by rw [names_rooted, hnames])
  · rename_i hout
    rw [lexicallyStripRoot_of_not_within, AbsPath.text_eq, hnames]
    rwa [Within, names_rooted, hnames]

theorem secureJoin_render
    (hlex : ∀ q : AbsPath, secureJoin root.text q.text = .ok (render (root.names ++ q.names))) :
    ∃ weird : AbsPath, secureJoin root.text (render init) = .ok weird.text ∧
      root.names ++ init = weird.names := by
  have hall : ∀ name ∈ root.names ++ init, IsName name :=
    List.forall_mem_append.mpr ⟨root.isName, h⟩
  refine ⟨.ofNames _ hall, ?_, (AbsPath.names_ofNames _ hall).symm⟩
  have hjoin := hlex (.ofNames init h)
  rwa [AbsPath.names_ofNames] at hjoin

end Names

/-- Without symbolic links the parent is made where the path is, unless the parent, seen
from the root, begins with the path of the root again. -/
theorem mkdirAllParentInRoot_parent (secureJoin : Text → Text → Except Text Text)
    (openRoot : Text → Except Text Unit) (mkdirAllHandle : Text → Text → BitVec 32 → Except Text F)
    (root p : AbsPath) (path : Text) (init : List Text) (last : Text)
    (hlex : ∀ q : AbsPath, secureJoin root.text q.text = .ok (render (root.names ++ q.names)))
    (hopen : openRoot root.text = .ok ()) (hpath : lexicallyStripRoot root.text path = p.text)
    (hp : p.names = init ++ [last]) :
    mkdirAllParentInRoot secureJoin (mkdirAllInRoot secureJoin openRoot mkdirAllHandle 0o755)
        root.text path =
      .ok (mkdirAllHandle root.text (render (strippedAgain root init)) 0o755, last) ∧
    (strippedAgain root init = init ↔ root.names = [] ∨ ¬ root.names <+: init) := by
  have hinit : ∀ name ∈ init, IsName name := fun name hname =>
    p.isName name (hp ▸ List.mem_append_left _ hname)
  refine ⟨?_, strippedAgain_eq_iff⟩
  obtain ⟨weird, hjoin, hweird⟩ := secureJoin_render p.isName hlex
  rw [← p.text_eq, ← hpath] at hjoin
  rw [mkdirAllParentInRoot_below hjoin (hp ▸ hweird)]
  -- the parent is resolved and stripped a second time
  obtain ⟨weird', hjoin', hweird'⟩ := secureJoin_render (strippedAgain_isName hinit) hlex
  rw [← lexicallyStripRoot_slashed hinit] at hjoin'
  rw [mkdirAllInRoot, hallucinateUnsafePath_ok hjoin' hweird', hopen]
  rfl

/-- `/r/r/b` below `/r`: the parent that is made is the root. -/
theorem mkdirAllParentInRoot_parent_twice :
    mkdirAllParentInRoot (fun root p => .ok (join root p))
        (mkdirAllInRoot (fun root p => .ok (join root p)) (fun _ => .ok ())
          (fun _ dir _ => .ok dir) 0o755) "/r".toList "/r/r/b".toList =
      .ok (.ok "/".toList, "b".toList) :=
  (mkdirAllParentInRoot_parent _ _ _ ⟨"/r".toList, by decide, by decide⟩
    ⟨"/r/b".toList, by decide, by decide⟩ "/r/r/b".toList ["r".toList] "b".toList
    (fun q => congrArg Except.ok ((congrArg (join _) q.text_eq).trans (join_render _ q.isName)))
    rfl (by decide) (by decide)).1

/-- Stripping the root undoes joining it with a cleaned path. -/
theorem lexicallyStripRoot_join (root : AbsPath) (p : Text) :
    lexicallyStripRoot root.text (join root.text (lexicallyCleanPath p)) =
      lexicallyCleanPath ('/' :: p) := by
  have hnames : (root.joined (lexicallyCleanPath p)).names = root.names ++ resolve [] p := by
    rw [AbsPath.joined_names, resolve_lexicallyCleanPath]
  rw [lexicallyCleanPath_slash, (rooted p).text_eq, rooted_names, ← AbsPath.joined_text]
  exact lexicallyStripRoot_of_within (by rw [names_rooted, names_rooted, hnames])

end Runc.Pathrs
