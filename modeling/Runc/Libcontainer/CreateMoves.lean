import Runc.Libcontainer.Create

/-!
# What a call of `Create` can do
-/

namespace Runc.Libcontainer
namespace Create

open Lib
open Lib.Path

def Walk.advance (linkAt : List Text → Option Text) (w : Walk) : Option Walk :=
  if w.remaining = [] then none
  else if w.nextPath = [] then some w.enter
  else
    match linkAt w.nextPath with
    | none => some w.enter
    | some dest => if w.links + 1 > maxSymlinkLimit then none else some (w.follow dest)

def Passes (linkAt : List Text → Option Text) (args : Args) (w : Walk) : Prop :=
  Relation.ReflTransGen (fun v v' => v.advance linkAt = some v') ⟨[], args.id, 0⟩ w

def EndsAt (linkAt : List Text → Option Text) (args : Args) (dir : List Text) : Prop :=
  ∃ w, Passes linkAt args w ∧ w.remaining = [] ∧ w.current = dir

variable {w : Walk}

theorem advance_of_end {linkAt : List Text → Option Text} {v : Walk} (h : w.remaining = []) :
    w.advance linkAt ≠ some v := by
  rw [Walk.advance, if_pos h]
  exact nofun

variable {args : Args}

theorem stateDir_unique {linkAt : List Text → Option Text} {dir dir' : List Text}
    (h : EndsAt linkAt args dir) (h' : EndsAt linkAt args dir') : dir = dir' := by
  obtain ⟨w, hpass, hend, rfl⟩ := h
  obtain ⟨w', hpass', hend', rfl⟩ := h'
  have hunique : Relator.RightUnique fun v v' : Walk => v.advance linkAt = some v' := by
    intro v x y hx hy
    exact Option.some.inj (hx.symm.trans hy)
  -- of two runs of the loop one goes on where the other ends
  rcases Relation.ReflTransGen.total_of_right_unique hunique hpass hpass' with hrun | hrun
  · rcases hrun.cases_head with rfl | ⟨v, hv, -⟩
    · rfl
    · exact absurd hv (advance_of_end hend)
  · rcases hrun.cases_head with rfl | ⟨v, hv, -⟩
    · rfl
    · exact absurd hv (advance_of_end hend')

def Track (linkAt : List Text → Option Text) (args : Args) : Phase → Prop
  | .walking w => Passes linkAt args w
  | .linking w => Passes linkAt args w ∧ w.remaining ≠ [] ∧ w.nextPath ≠ [] ∧
      w.links + 1 ≤ maxSymlinkLimit
  | .statting dir | .managing dir | .checking dir | .counting dir | .freezing dir
  | .making dir | .created dir => EndsAt linkAt args dir
  | .begins | .validating | .makingRoot | .failed _ => True

def Phase.rank : Phase → Nat × Nat × Nat
  | .begins => (10, 0, 0)
  | .validating => (9, 0, 0)
  | .makingRoot => (8, 0, 0)
  | .walking w => (7, maxSymlinkLimit + 1 - w.links, w.remaining.length + 1)
  | .linking w => (7, maxSymlinkLimit + 1 - w.links, 0)
  | .statting _ => (6, 0, 0)
  | .managing _ => (5, 0, 0)
  | .checking _ => (4, 0, 0)
  | .counting _ => (3, 0, 0)
  | .freezing _ => (2, 0, 0)
  | .making _ => (1, 0, 0)
  | .created _ | .failed _ => (0, 0, 0)

def Lower (phase' phase : Phase) : Prop :=
  Prod.Lex (· < ·) (Prod.Lex (· < ·) (· < ·)) phase'.rank phase.rank

theorem lower_wf : WellFounded Lower :=
  InvImage.wf Phase.rank
    (WellFounded.prod_lex Nat.lt_wfRel.wf (WellFounded.prod_lex Nat.lt_wfRel.wf Nat.lt_wfRel.wf))

variable {phase : Phase}

theorem lower_of_stage {phase' : Phase} (h : phase'.rank.1 < phase.rank.1) :
    Lower phase' phase :=
  Prod.lex_def.mpr (.inl h)

theorem lower_failed {err : Text} (h : 0 < phase.rank.1) : Lower (.failed err) phase :=
  lower_of_stage h

theorem rest_length (h : w.remaining ≠ []) : w.rest.length < w.remaining.length := by
  have hdrop : (w.remaining.dropWhile (· ≠ '/')).length ≤ w.remaining.length :=
    (List.dropWhile_sublist _).length_le
  have hpos : 0 < w.remaining.length := List.length_pos_iff.mpr h
  rw [Walk.rest, List.length_tail]
  omega

theorem lower_enter (h : w.remaining ≠ []) : Lower (.walking w.enter) (.walking w) :=
  Prod.lex_def.mpr (.inr ⟨rfl, Prod.lex_def.mpr (.inr ⟨rfl, Nat.succ_lt_succ (rest_length h)⟩)⟩)

theorem lower_linking (w : Walk) : Lower (.linking w) (.walking w) :=
  Prod.lex_def.mpr (.inr ⟨rfl, Prod.lex_def.mpr (.inr ⟨rfl, Nat.succ_pos _⟩)⟩)

theorem lower_follow {dest : Text} (h : w.links + 1 ≤ maxSymlinkLimit) :
    Lower (.walking (w.follow dest)) (.linking w) := by
  refine Prod.lex_def.mpr (.inr ⟨rfl, Prod.lex_def.mpr (.inl ?_)⟩)
  change maxSymlinkLimit + 1 - (w.links + 1) < maxSymlinkLimit + 1 - w.links
  omega

inductive Moves (args : Args) (t : Tree) : Phase → Phase → Tree → Prop
  | quiet (phase phase' : Phase) :
      (Track t.linkAt args phase → Track t.linkAt args phase' ∧ Lower phase' phase) →
      (∀ dir, phase' ≠ .created dir) →
      Moves args t phase phase' t
  | root :
      t [] = none →
      Moves args t .makingRoot (beginJoin args) (t.set [] (some .dir))
  | make (dir : List Text) :
      t dir = none →
      Moves args t (.making dir) (.created dir) (t.set dir (some .dir))

theorem checkArgs_cases (args : Args) :
    (∃ err, checkArgs args = .failed err) ∨ checkArgs args = .validating := by
  rw [checkArgs]
  split
  · exact .inl ⟨_, rfl⟩
  · split
    · exact .inl ⟨_, rfl⟩
    · exact .inr rfl

theorem beginJoin_cases (args : Args) :
    (∃ err, beginJoin args = .failed err) ∨ beginJoin args = .walking ⟨[], args.id, 0⟩ := by
  rw [beginJoin]
  split
  · exact .inl ⟨_, rfl⟩
  · exact .inr rfl

theorem beginJoin_track (linkAt : List Text → Option Text) (args : Args) :
    Track linkAt args (beginJoin args) ∧ ∀ dir, beginJoin args ≠ .created dir := by
  rcases beginJoin_cases args with ⟨err, h⟩ | h
  · rw [h]
    exact ⟨trivial, fun _ => nofun⟩
  · rw [h]
    exact ⟨Relation.ReflTransGen.refl, fun _ => nofun⟩

theorem checkPids_cases (dir : List Text) (count : Nat) (err : Option (Text × Bool)) :
    (∃ e, checkPids dir count err = .failed e) ∨ checkPids dir count err = .freezing dir := by
  rw [checkPids.eq_def]
  split
  · exact .inl ⟨_, rfl⟩
  · split
    · exact .inl ⟨_, rfl⟩
    · exact .inr rfl
  · split
    · exact .inl ⟨_, rfl⟩
    · exact .inr rfl

theorem lookAt_cases (t : Tree) (w : Walk) :
    (w.remaining = [] ∧ lookAt t w = .statting w.current) ∨
      (w.remaining ≠ [] ∧ w.advance t.linkAt = some w.enter ∧ lookAt t w = .walking w.enter) ∨
      (∃ err, lookAt t w = .failed err) ∨
      (lookAt t w = .linking w ∧ w.remaining ≠ [] ∧ w.nextPath ≠ [] ∧
        w.links + 1 ≤ maxSymlinkLimit) := by
  rw [lookAt]
  split
  · rename_i hend
    exact .inl ⟨hend, rfl⟩
  · rename_i hmore
    split
    · rename_i hroot
      exact .inr (.inl ⟨hmore, by rw [Walk.advance, if_neg hmore, if_pos hroot], rfl⟩)
    · rename_i hnext
      split
      · rename_i hlink
        refine .inr (.inl ⟨hmore, ?_, rfl⟩)
        rw [Walk.advance, if_neg hmore, if_neg hnext, hlink]
      · split
        · exact .inr (.inr (.inl ⟨_, rfl⟩))
        · rename_i hlimit
          exact .inr (.inr (.inr ⟨rfl, hmore, hnext, Nat.le_of_not_lt hlimit⟩))

variable {t : Tree}

theorem lookAt_track (h : Passes t.linkAt args w) :
    Track t.linkAt args (lookAt t w) ∧ Lower (lookAt t w) (.walking w) := by
  rcases lookAt_cases t w with ⟨hend, heq⟩ | ⟨hmore, hstep, heq⟩ | ⟨err, heq⟩ | ⟨heq, hrest⟩
  · rw [heq]
    exact ⟨⟨w, h, hend, rfl⟩, lower_of_stage (Nat.lt_succ_self 6)⟩
  · rw [heq]
    exact ⟨Relation.ReflTransGen.tail h hstep, lower_enter hmore⟩
  · rw [heq]
    exact ⟨trivial, lower_failed (Nat.succ_pos 6)⟩
  · rw [heq]
    exact ⟨⟨h, hrest⟩, lower_linking w⟩

theorem lookAt_ne_created (t : Tree) (w : Walk) (dir : List Text) : lookAt t w ≠ .created dir := by
  rcases lookAt_cases t w with ⟨-, heq⟩ | ⟨-, -, heq⟩ | ⟨err, heq⟩ | ⟨heq, -⟩
  all_goals
    rw [heq]
    exact nofun

theorem follow_track {dest : Text}
    (hlink : t.linkAt w.nextPath = some dest) (h : Track t.linkAt args (.linking w)) :
    Passes t.linkAt args (w.follow dest) ∧ Lower (.walking (w.follow dest)) (.linking w) := by
  obtain ⟨hpass, hmore, hnext, hlimit⟩ := h
  refine ⟨Relation.ReflTransGen.tail hpass ?_, lower_follow hlimit⟩
  rw [Walk.advance, if_neg hmore, if_neg hnext, hlink]
  dsimp only
  rw [if_neg (Nat.not_lt.mpr hlimit)]

theorem Moves.fail {args : Args} {t : Tree} {phase : Phase} {err : Text} (h : 0 < phase.rank.1) :
    Moves args t phase (.failed err) t :=
  .quiet _ _ (fun _ => ⟨trivial, lower_failed h⟩) (fun _ => nofun)

theorem Moves.pass {args : Args} {t : Tree} {phase phase' : Phase}
    (hstage : phase'.rank.1 < phase.rank.1)
    (htrack : Track t.linkAt args phase → Track t.linkAt args phase')
    (hne : ∀ dir, phase' ≠ .created dir) : Moves args t phase phase' t :=
  .quiet _ _ (fun h => ⟨htrack h, lower_of_stage hstage⟩) hne

theorem moves_checkArgs (args : Args) (t : Tree) : Moves args t .begins (checkArgs args) t := by
  rcases checkArgs_cases args with ⟨err, heq⟩ | heq
  · rw [heq]
    exact .fail (Nat.succ_pos 9)
  · rw [heq]
    exact .pass (Nat.lt_succ_self 9) (fun _ => trivial) (fun _ => nofun)

theorem lower_beginJoin (args : Args) : Lower (beginJoin args) .makingRoot := by
  rcases beginJoin_cases args with ⟨err, heq⟩ | heq
  · rw [heq]
    exact lower_failed (Nat.succ_pos 7)
  · rw [heq]
    exact lower_of_stage (Nat.lt_succ_self 7)

theorem moves_checkPids
    (args : Args) (t : Tree) (dir : List Text) (count : Nat) (err : Option (Text × Bool)) :
    Moves args t (.counting dir) (checkPids dir count err) t := by
  rcases checkPids_cases dir count err with ⟨e, heq⟩ | heq
  · rw [heq]
    exact .fail (Nat.succ_pos 2)
  · rw [heq]
    exact .pass (Nat.lt_succ_self 2) id (fun _ => nofun)

theorem moves_of_create {t' : Tree} {phase' : Phase} {answer : Answer}
    (h : create args t phase answer = some (phase', t')) : Moves args t phase phase' t' := by
  rw [create.eq_def] at h
  split at h
  · cases h
    exact moves_checkArgs args t
  · cases h
    exact .pass (Nat.lt_succ_self 8) (fun _ => trivial) (fun _ => nofun)
  · cases h
    exact .fail (Nat.succ_pos 8)
  · split at h
    · rename_i hroot
      cases h
      exact .root hroot
    · cases h
      obtain ⟨htrack, hne⟩ := beginJoin_track t.linkAt args
      exact .quiet _ _ (fun _ => ⟨htrack, lower_beginJoin args⟩) hne
    · cases h
  · cases h
    exact .fail (Nat.succ_pos 7)
  · cases h
    exact .quiet _ _ lookAt_track (lookAt_ne_created _ _)
  · cases h
    exact .fail (Nat.succ_pos 6)
  · split at h
    · rename_i hlink
      cases h
      exact .quiet _ _ (follow_track hlink) (fun _ => nofun)
    · cases h
  · cases h
    exact .fail (Nat.succ_pos 6)
  · split at h
    · cases h
      exact .pass (Nat.lt_succ_self 5) id (fun _ => nofun)
    · cases h
      exact .fail (Nat.succ_pos 5)
  · cases h
    exact .fail (Nat.succ_pos 5)
  · cases h
    exact .pass (Nat.lt_succ_self 4) id (fun _ => nofun)
  · cases h
    exact .fail (Nat.succ_pos 4)
  · cases h
    split
    · exact .pass (Nat.lt_succ_self 3) id (fun _ => nofun)
    · exact .pass (Nat.lt_succ_of_lt (Nat.lt_succ_self 2)) id (fun _ => nofun)
  · cases h
    exact moves_checkPids args t _ _ _
  · cases h
    split
    · exact .fail (Nat.succ_pos 1)
    · exact .pass (Nat.lt_succ_self 1) id (fun _ => nofun)
  · cases h
    exact .fail (Nat.succ_pos 1)
  · split at h
    · rename_i hcan
      cases h
      rw [canMkdir, Bool.and_eq_true, decide_eq_true_eq] at hcan
      exact .make _ hcan.1
    · cases h
  · cases h
    exact .fail (Nat.succ_pos 0)
  · cases h

end Create
end Runc.Libcontainer
