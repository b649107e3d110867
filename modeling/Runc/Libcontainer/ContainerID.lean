import Runc.Pathrs.Lexical
import Runc.Scanner.Profile

/-!
# Container ids

`validateID` ends in a comparison of the id with its cleaned path; what it accepts
follows from how a path is cleaned.
-/

namespace Runc.Libcontainer

open Lib
open Lib.Path
open Pathrs

def errInvalidID : Text :=
  "invalid container ID format".toList

def allowedInID (c : Char) : Bool :=
  isLower c || isUpper c || isDigit c || c = '_' || c = '+' || c = '-' || c = '.'

def validateID (id : Text) : Except Text Unit :=
  if id.length < 1 then .error errInvalidID
  else if !id.all allowedInID then .error errInvalidID
  else if '/' :: id ≠ lexicallyCleanPath ('/' :: id) then .error errInvalidID
  else .ok ()

theorem no_slash_of_allowed {id : Text} (h : ∀ c ∈ id, allowedInID c = true) : '/' ∉ id :=
  fun hmem => absurd (h '/' hmem) (by decide)

theorem clean_eq_iff_isName {id : Text} (hne : id ≠ []) (hslash : '/' ∉ id) :
    '/' :: id = lexicallyCleanPath ('/' :: id) ↔ IsName id := by
  rw [lexicallyCleanPath_slash]
  constructor
  · intro h
    -- the one element of the cleaned path is the id, so it is a name
    have hnames : (rooted id).names = [id] := by
      rw [AbsPath.names, ← h, tokens_slash_cons, tokens_of_not_mem hslash hne]
    exact (rooted id).isName id (hnames ▸ List.mem_cons_self)
  · intro h
    rw [AbsPath.text_eq, rooted_names, resolve_name h]
    simp [render]

theorem validateID_ok_iff (id : Text) :
    validateID id = .ok () ↔
      id ≠ [] ∧ (∀ c ∈ id, allowedInID c = true) ∧ id ≠ dot ∧ id ≠ dotdot := by
  rw [validateID]
  split
  · rename_i hlen
    have hnil : id = [] := List.length_eq_zero_iff.mp (by omega)
    simp [hnil]
  · rename_i hlen
    have hne : id ≠ [] := fun hnil => hlen (by simp [hnil])
    split
    · rename_i hchars
      have hbad : ¬ ∀ c ∈ id, allowedInID c = true := by simpa using hchars
      exact ⟨fun h => (by cases h), fun h => absurd h.2.1 hbad⟩
    · rename_i hchars
      have hgood : ∀ c ∈ id, allowedInID c = true := by simpa using hchars
      have hslash := no_slash_of_allowed hgood
      have hclean := clean_eq_iff_isName hne hslash
      split
      · rename_i hdiff
        refine ⟨fun h => (by cases h), fun h => ?_⟩
        exact absurd (hclean.mpr ⟨hne, hslash, h.2.2.1, h.2.2.2⟩) hdiff
      · rename_i hsame
        have hname := hclean.mp (not_not.mp hsame)
        exact ⟨fun _ => ⟨hne, hgood, hname.ne_dot, hname.ne_dotdot⟩, fun _ => rfl⟩

theorem scanner_validateID_iff (id : Text) :
    Scanner.validateID id = true ↔ validateID id = .ok () := by
  rw [validateID_ok_iff]
  simp [Scanner.validateID, allowedInID, dot, dotdot, and_assoc]

/-- The ids accepted, and that they name different children of the state root. -/
theorem validateID_children :
    (∀ id, validateID id = .ok () ↔
      id ≠ [] ∧ (∀ c ∈ id, allowedInID c = true) ∧ id ≠ dot ∧ id ≠ dotdot) ∧
    (∀ (root : AbsPath) id, validateID id = .ok () →
      join root.text id = render (root.names ++ [id]) ∧
        tokens '/' (join root.text id) = root.names ++ [id]) ∧
    ∀ (root : AbsPath) id id', validateID id = .ok () → validateID id' = .ok () →
      join root.text id = join root.text id' → id = id' := by
  have hchild : ∀ (root : AbsPath) id, validateID id = .ok () →
      join root.text id = render (root.names ++ [id]) ∧
        tokens '/' (join root.text id) = root.names ++ [id] := by
    intro root id hid
    obtain ⟨hne, hchars, hdot, hdotdot⟩ := (validateID_ok_iff id).mp hid
    have hresolve : resolve root.names id = root.names ++ [id] :=
      resolve_name ⟨hne, no_slash_of_allowed hchars, hdot, hdotdot⟩
    refine ⟨by rw [join_text, hresolve], ?_⟩
    rw [← AbsPath.joined_text, ← hresolve]
    exact AbsPath.joined_names root id
  refine ⟨validateID_ok_iff, hchild, fun root id id' hid hid' heq => ?_⟩
  have hnames := (hchild root id hid).2
  rw [heq, (hchild root id' hid').2] at hnames
  exact (List.cons.inj (List.append_cancel_left hnames)).1.symm

end Runc.Libcontainer
