import Runc.Libcontainer.CreateMoves

/-!
# At most one container is created

The calls never change a link below the root, so every call that comes through
`SecureJoin` comes to the same state directory; and a directory is made once.
-/

namespace Runc.Libcontainer
namespace Create

open Lib

theorem linkAt_set {t : Tree} {p : List Text} {node : Option Node} (hold : t.linkAt p = none)
    (hnew : (t.set p node).linkAt p = none) : (t.set p node).linkAt = t.linkAt := by
  funext q
  by_cases hq : q = p
  · rw [hq, hold, hnew]
  · rw [Tree.linkAt, Tree.linkAt, Tree.set, Function.update_of_ne hq]

theorem linkAt_mkdir {t : Tree} {p : List Text} (h : t p = none) :
    (t.set p (some .dir)).linkAt = t.linkAt := by
  refine linkAt_set ?_ ?_
  · rw [Tree.linkAt, h]
  · rw [Tree.linkAt, Tree.set, Function.update_self]

section Moves

variable {args : Args} {t t' : Tree} {phase phase' : Phase}

theorem Moves.linkAt_eq (h : Moves args t phase phase' t') : t'.linkAt = t.linkAt := by
  cases h with
  | quiet => rfl
  | root hnone => exact linkAt_mkdir hnone
  | make dir hnone => exact linkAt_mkdir hnone

theorem Moves.track (h : Moves args t phase phase' t') (htrack : Track t.linkAt args phase) :
    Track t.linkAt args phase' := by
  cases h with
  | quiet _ _ hkeep _ => exact (hkeep htrack).1
  | root _ => exact (beginJoin_track t.linkAt args).1
  | make dir _ => exact htrack

theorem Moves.tree_of_ne_none (h : Moves args t phase phase' t') {p : List Text} (hp : t p ≠ none) :
    t' p = t p := by
  have hset : ∀ q, t q = none → (t.set q (some .dir)) p = t p := by
    intro q hq
    refine Function.update_of_ne ?_ _ _
    rintro rfl
    exact hp hq
  cases h with
  | quiet => rfl
  | root hnone => exact hset [] hnone
  | make dir hnone => exact hset dir hnone

theorem Moves.created {dir : List Text} (h : Moves args t phase (.created dir) t') :
    phase = .making dir ∧ t dir = none ∧ t' = t.set dir (some .dir) := by
  generalize hphase : Phase.created dir = target at h
  cases h with
  | quiet _ _ _ hne => exact absurd hphase.symm (hne dir)
  | root _ => exact absurd hphase.symm ((beginJoin_track t.linkAt args).2 dir)
  | make dir' hnone =>
    cases hphase
    exact ⟨rfl, hnone, rfl⟩

theorem create_created {answer : Answer} {dir : List Text} :
    create args t (.created dir) answer = none := by
  cases answer with
  | ok | fails | found | pids | freezer => rfl

end Moves

section Invariant

variable {ι : Type}

/-- The calls and the tree, from the tree `t₀` on. -/
structure Inv (args : Args) (t₀ : Tree) (w : World ι) : Prop where
  links : w.tree.linkAt = t₀.linkAt
  track : ∀ i, Track t₀.linkAt args (w.calls i)
  present : ∀ i dir, w.calls i = .created dir → w.tree dir ≠ none
  unique : ∀ i j dir dir', w.calls i = .created dir → w.calls j = .created dir' → i = j
  made : ∀ e ∈ w.made, w.calls e.1 = .created e.2

theorem Inv.start (args : Args) (t₀ : Tree) :
    Inv args t₀ (⟨t₀, fun _ => .begins, []⟩ : World ι) where
  links := rfl
  track _ := trivial
  present _ _ h := nomatch h
  unique _ _ _ _ h := nomatch h
  made _ he := absurd he List.not_mem_nil

variable {args : Args} {t₀ : Tree} {w w' : World ι} {i j : ι}

theorem Inv.same_dir (h : Inv args t₀ w) {phase phase' : Phase} {dir dir' : List Text}
    (hi : w.calls i = phase) (hj : w.calls j = phase')
    (hphase : phase = .making dir ∨ phase = .created dir)
    (hphase' : phase' = .making dir' ∨ phase' = .created dir') : dir = dir' := by
  have hends : ∀ k phase dir, w.calls k = phase → phase = .making dir ∨ phase = .created dir →
      EndsAt t₀.linkAt args dir := by
    intro k phase dir hk hcase
    have htrack := h.track k
    rcases hcase with rfl | rfl
    · rw [hk] at htrack
      exact htrack
    · rw [hk] at htrack
      exact htrack
  exact stateDir_unique (hends i phase dir hi hphase) (hends j phase' dir' hj hphase')

theorem Inv.own (h : Inv args t₀ w) {p : List Text} {node : Option Node}
    (hmay : MayChange w i p node) : Inv args t₀ { w with tree := w.tree.set p node } := by
  obtain ⟨dir, hcreated, -, hne, hold, hnew⟩ := hmay
  refine ⟨(linkAt_set hold hnew).trans h.links, h.track, ?_, h.unique, h.made⟩
  intro k dir' hk
  -- there is only one state directory, and what changes is below it
  obtain rfl := h.same_dir hk hcreated (.inr rfl) (.inr rfl)
  change w.tree.set p node dir' ≠ none
  rw [Tree.set, Function.update_of_ne hne.symm]
  exact h.present k dir' hk

theorem Inv.untouched (h : Inv args t₀ w) {dir : List Text} {phase' : Phase} {t' : Tree}
    (hcreated : w.calls i = .created dir) (hmove : Moves args w.tree (w.calls j) phase' t')
    {p : List Text} (hp : dir <+: p) : t' p = w.tree p := by
  have hpresent := h.present i dir hcreated
  have hsame : ∀ dir', w.calls j = .making dir' → dir = dir' :=
    fun dir' hj => h.same_dir hcreated hj (.inr rfl) (.inl rfl)
  generalize w.calls j = phase at hmove hsame
  cases hmove with
  | quiet => rfl
  | root hnone =>
    refine Function.update_of_ne ?_ _ _
    rintro rfl
    rw [List.prefix_nil.mp hp] at hpresent
    exact hpresent hnone
  | make dir' hnone =>
    rw [← hsame dir' rfl] at hnone
    exact absurd hnone hpresent

variable [DecidableEq ι]

theorem Inv.act (h : Inv args t₀ w) {phase' : Phase} {t' : Tree}
    (hmove : Moves args w.tree (w.calls i) phase' t') (hbusy : ∀ dir, w.calls i ≠ .created dir) :
    Inv args t₀ (w.act i phase' t') := by
  -- a second container would need a directory that is not there
  have hfirst : ∀ k dir dir', phase' = .created dir → k ≠ i → w.calls k ≠ .created dir' := by
    intro k dir dir' hcreated _ hk
    rw [hcreated] at hmove
    obtain ⟨hmaking, hnone, -⟩ := hmove.created
    obtain rfl := h.same_dir hk hmaking (.inr rfl) (.inl rfl)
    exact h.present k dir' hk hnone
  have hcalls : ∀ k, (k = i ∧ (w.act i phase' t').calls k = phase') ∨
      (k ≠ i ∧ (w.act i phase' t').calls k = w.calls k) := by
    intro k
    by_cases hk : k = i
    · exact .inl ⟨hk, by rw [hk]; exact Function.update_self _ _ _⟩
    · exact .inr ⟨hk, Function.update_of_ne hk _ _⟩
  constructor
  · exact hmove.linkAt_eq.trans h.links
  · intro k
    rcases hcalls k with ⟨-, hk⟩ | ⟨-, hk⟩
    · rw [hk, ← h.links]
      exact hmove.track (h.links ▸ h.track i)
    · rw [hk]
      exact h.track k
  · intro k dir hcreated
    change t' dir ≠ none
    rcases hcalls k with ⟨-, hk⟩ | ⟨-, hk⟩
    · rw [hk] at hcreated
      rw [hcreated] at hmove
      obtain ⟨-, -, rfl⟩ := hmove.created
      rw [Tree.set, Function.update_self]
      exact nofun
    · rw [hk] at hcreated
      rw [hmove.tree_of_ne_none (h.present k dir hcreated)]
      exact h.present k dir hcreated
  · intro k l dir dir' hk hl
    rcases hcalls k with ⟨hki, hk'⟩ | ⟨hki, hk'⟩
    · rcases hcalls l with ⟨hli, -⟩ | ⟨hli, hl'⟩
      · rw [hki, hli]
      · exact absurd (hl'.symm.trans hl) (hfirst l dir dir' (hk'.symm.trans hk) hli)
    · rcases hcalls l with ⟨-, hl'⟩ | ⟨-, hl'⟩
      · exact absurd (hk'.symm.trans hk) (hfirst k dir' dir (hl'.symm.trans hl) hki)
      · exact h.unique k l dir dir' (hk'.symm.trans hk) (hl'.symm.trans hl)
  · intro e he
    have hold : e ∈ w.made → (w.act i phase' t').calls e.1 = .created e.2 := by
      intro hmem
      have hcreated := h.made e hmem
      have hne : e.1 ≠ i := fun heq => hbusy e.2 (heq ▸ hcreated)
      exact (Function.update_of_ne hne _ _).trans hcreated
    change e ∈ markMade i w.made phase' at he
    rw [markMade.eq_def] at he
    split at he
    · rcases List.mem_append.mp he with hmem | hlast
      · exact hold hmem
      · rw [List.mem_singleton] at hlast
        subst hlast
        exact Function.update_self _ _ _
    · exact hold he

theorem Inv.step (h : Inv args t₀ w) {action : Action ι} (hstep : Performs args w action w') :
    Inv args t₀ w' := by
  cases hstep with
  | call i answer phase t hcreate =>
    refine h.act (moves_of_create hcreate) ?_
    intro dir hdir
    rw [hdir, create_created] at hcreate
    cases hcreate
  | own i p node hmay => exact h.own hmay

theorem Inv.reachable (h : (machine args t₀).Reachable w) : Inv args t₀ w := by
  refine h.invariant ?_ ?_
  · rintro w rfl
    exact Inv.start args t₀
  · rintro w w' - hinv ⟨action, hstep⟩
    exact hinv.step hstep

def Phase.Ended (phase : Phase) : Prop :=
  (∃ dir, phase = .created dir) ∨ ∃ err, phase = .failed err

structure Exclusive (args : Args) (w : World ι) : Prop where
  one : ∀ i j dir dir', w.calls i = .created dir → w.calls j = .created dir' → i = j
  untouched : ∀ i dir, w.calls i = .created dir → ∀ j answer w',
    Performs args w (.call j answer) w' → ∀ p, dir <+: p → w'.tree p = w.tree p
  failed : ∀ i err, w.calls i = .failed err → ∀ dir, (i, dir) ∉ w.made
  progress : ∀ i, (w.calls i).Ended ∨ ∃ answer w', Performs args w (.call i answer) w'
  lowers : ∀ i answer w', Performs args w (.call i answer) w' →
    Lower (w'.calls i) (w.calls i)

theorem create_progress (args : Args) (t : Tree) (phase : Phase) :
    phase.Ended ∨ ∃ answer phase' t', create args t phase answer = some (phase', t') := by
  cases phase with
  | created dir => exact .inl (.inl ⟨dir, rfl⟩)
  | failed err => exact .inl (.inr ⟨err, rfl⟩)
  | begins | managing => exact .inr ⟨.ok, _, _, rfl⟩
  | validating | makingRoot | walking | linking | statting | freezing | making =>
    exact .inr ⟨.fails [], _, _, rfl⟩
  | checking => exact .inr ⟨.found false, _, _, rfl⟩
  | counting => exact .inr ⟨.pids 0 none, _, _, rfl⟩

theorem Moves.lower {t t' : Tree} {phase phase' : Phase} (h : Moves args t phase phase' t')
    (htrack : Track t.linkAt args phase) : Lower phase' phase := by
  cases h with
  | quiet _ _ hkeep _ => exact (hkeep htrack).2
  | root _ => exact lower_beginJoin args
  | make dir _ => exact lower_of_stage (Nat.succ_pos 0)

/-- `Create` at the same time. -/
theorem create_exclusive (args : Args) (t₀ : Tree) {w : World ι}
    (h : (machine args t₀).Reachable w) : WellFounded Lower ∧ Exclusive args w := by
  have hinv := Inv.reachable h
  refine ⟨lower_wf, hinv.unique, ?_, ?_, ?_, ?_⟩
  · intro i dir hcreated j answer w' hstep p hp
    cases hstep with
    | call _ _ phase t hcreate => exact hinv.untouched hcreated (moves_of_create hcreate) hp
  · intro i err hfailed dir hmem
    have hcreated := hinv.made (i, dir) hmem
    rw [hfailed] at hcreated
    cases hcreated
  · intro i
    rcases create_progress args w.tree (w.calls i) with hended | ⟨answer, phase, t, hcreate⟩
    · exact .inl hended
    · exact .inr ⟨answer, _, .call i answer phase t hcreate⟩
  · intro i answer w' hstep
    cases hstep with
    | call _ _ phase t hcreate =>
      have htrack := hinv.track i
      rw [← hinv.links] at htrack
      have hlower := (moves_of_create hcreate).lower htrack
      change Lower (Function.update w.calls i phase i) (w.calls i)
      rw [Function.update_self]
      exact hlower

def performAll (args : Args) (w : World ι) : List (ι × Answer) → Option (World ι)
  | [] => some w
  | (i, answer) :: rest =>
      match create args w.tree (w.calls i) answer with
      | none => none
      | some (phase, t) => performAll args (w.act i phase t) rest

theorem reachable_of_performAll {actions : List (ι × Answer)} (hw : (machine args t₀).Reachable w)
    (h : performAll args w actions = some w') : (machine args t₀).Reachable w' := by
  induction actions generalizing w with
  | nil =>
    cases h
    exact hw
  | cons action rest ih =>
    obtain ⟨i, answer⟩ := action
    rw [performAll] at h
    split at h
    · cases h
    · rename_i phase t hcreate
      exact ih (hw.tail ⟨_, .call i answer phase t hcreate⟩) h

end Invariant

def upToMkdir (i : Bool) : List (Bool × Answer) :=
  [.ok, .ok, .ok, .ok, .ok, .ok, .ok, .found false, .freezer false].map fun answer => (i, answer)

def race : List (Bool × Answer) :=
  upToMkdir false ++ upToMkdir true ++
    [(true, .ok), (false, .fails "file exists".toList)]

def noTree : Tree :=
  fun _ => none

theorem create_exclusive_race :
    ∃ w : World Bool,
      performAll ⟨"/run/runc".toList, "c".toList⟩ ⟨noTree, fun _ => .begins, []⟩ race = some w ∧
        w.calls true = .created ["c".toList] ∧ w.calls false = .failed "file exists".toList ∧
        w.made = [(true, ["c".toList])] ∧
        Exclusive ⟨"/run/runc".toList, "c".toList⟩ w := by
  refine ⟨_, rfl, rfl, rfl, rfl, ?_⟩
  exact (create_exclusive _ noTree (reachable_of_performAll (System.Reachable.of_init rfl)
    (show performAll ⟨"/run/runc".toList, "c".toList⟩ ⟨noTree, fun _ => .begins, []⟩ race = _
      from rfl))).2

end Create
end Runc.Libcontainer
