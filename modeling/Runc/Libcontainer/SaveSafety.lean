import Runc.Libcontainer.SaveInvariant

/-!
# `state.json` is always complete
-/

namespace Runc.Libcontainer
namespace SaveState

open Lib

section Safety

variable {ι κ σ : Type}

def Complete (before : Option Data) (renamed : List (ι × Data)) (data : Data) : Prop :=
  before = some data ∨ ∃ i, (i, data) ∈ renamed

theorem Complete.mono {before : Option Data} {renamed renamed' : List (ι × Data)} {data : Data}
    (hsub : renamed ⊆ renamed') (h : Complete before renamed data) :
    Complete before renamed' data :=
  h.imp id fun ⟨i, hi⟩ => ⟨i, hsub hi⟩

theorem complete_of_lastText {before : Option Data} {renamed : List (ι × Data)} {data : Data}
    (h : lastText before renamed = some data) : Complete before renamed data := by
  rw [lastText] at h
  split at h
  · rename_i e he
    cases h
    exact .inr ⟨e.1, List.mem_of_getLast? he⟩
  · exact .inl h

structure LoadInv (calls : Calls ι σ) (d₀ : StateDir) (w : World ι κ σ) : Prop where
  reads : ∀ r file got, w.loads r = .reading file got →
    file < w.dir.next ∧ (∀ i tmp, (w.saves i).file ≠ some (tmp, file)) ∧
      Complete (d₀.holds stateFilename) w.renamed (w.dir.content file) ∧
      got <+: w.dir.content file
  seen : ∀ r data result, w.loads r = .done (some data) result →
    Complete (d₀.holds stateFilename) w.renamed data ∧ result = calls.decoder.load data

structure Invariant (calls : Calls ι σ) (d₀ : StateDir) (w : World ι κ σ) : Prop where
  saves : SaveInv calls d₀ w
  loads : LoadInv calls d₀ w

theorem Invariant.start (calls : Calls ι σ) (d₀ : StateDir) :
    Invariant calls d₀ (World.start d₀ : World ι κ σ) where
  saves := SaveInv.start calls d₀
  loads :=
    { reads := fun _ _ _ h => nomatch h
      seen := fun _ _ _ h => nomatch h }

variable {calls : Calls ι σ} {d₀ : StateDir} {w w' : World ι κ σ}

theorem Moves.file_origin {marshaled : Except Text Data} {d d' : StateDir} {save save' : Save}
    (h : Moves marshaled d save save' d') {tmp : Text} {file : Nat}
    (hfile : save'.file = some (tmp, file)) : save.file = some (tmp, file) ∨ file = d.next := by
  cases h with
  | create tmp' _ _ =>
    cases hfile
    exact .inr rfl
  | advance _ _ tmp' file' hold hnew =>
    rw [hnew] at hfile
    exact .inl (hold.trans hfile)
  | write tmp' file' left count => exact .inl hfile
  | refuse | rename | remove | leave => cases hfile

inductive LoadMoves (decoder : Decoder σ) (d : StateDir) : Load σ → Load σ → Prop
  | opened (file : Nat) :
      d.entry stateFilename = some file → LoadMoves decoder d .ready (.reading file [])
  | read (file : Nat) (got : Data) (count : Nat) :
      LoadMoves decoder d (.reading file got)
        (.reading file (got ++ (unread d file got).take count))
  | ended (file : Nat) (got : Data) :
      unread d file got = [] →
      LoadMoves decoder d (.reading file got) (.done (some got) (decoder.load got))
  | failed (load : Load σ) (err : Text) :
      LoadMoves decoder d load (.done none (.error err))

theorem loadMoves_of_loadState
    {decoder : Decoder σ} {d : StateDir} {load load' : Load σ} {answer : Answer}
    (h : loadState decoder d load answer = some load') : LoadMoves decoder d load load' := by
  rw [loadState.eq_def] at h
  split at h
  · split at h
    · rename_i file hentry
      cases h
      exact .opened file hentry
    · cases h
      exact .failed _ _
  · cases h
    exact .failed _ _
  · rename_i file got count
    split at h
    · cases h
      exact .read file got count
    · cases h
  · rename_i file got
    split at h
    · rename_i hend
      cases h
      exact .ended file got hend
    · cases h
  · cases h
    exact .failed _ _
  · cases h

theorem LoadMoves.reads (h : Invariant calls d₀ w)
    {r : κ} {load' : Load σ} {file : Nat} {got : Data}
    (hmove : LoadMoves calls.decoder w.dir (w.loads r) load') (hload : load' = .reading file got) :
    file < w.dir.next ∧ (∀ i tmp, (w.saves i).file ≠ some (tmp, file)) ∧
      Complete (d₀.holds stateFilename) w.renamed (w.dir.content file) ∧
      got <+: w.dir.content file := by
  have hreads := h.loads.reads r
  generalize w.loads r = load at hmove hreads
  cases hmove with
  | opened file' hentry =>
    cases hload
    refine ⟨w.dir.bounded _ _ hentry, ?_, ?_, List.nil_prefix⟩
    · intro i tmp hfile
      obtain ⟨hne, hentry', -⟩ := h.saves.owns i tmp file hfile
      exact hne (w.dir.single _ _ file hentry' hentry)
    · exact complete_of_lastText (h.saves.held.symm.trans (Directory.holds_of_entry hentry))
  | read file' got' count =>
    cases hload
    obtain ⟨hlt, hfree, hcomplete, rest, hrest⟩ := hreads file got' rfl
    refine ⟨hlt, hfree, hcomplete, ?_⟩
    rw [unread, ← hrest, List.drop_left, List.prefix_append_right_inj]
    exact List.take_prefix _ _
  | ended file' got' hend => cases hload
  | failed _ err => cases hload

theorem LoadMoves.seen (h : Invariant calls d₀ w)
    {r : κ} {load' : Load σ} {data : Data} {result : Except Text σ}
    (hmove : LoadMoves calls.decoder w.dir (w.loads r) load')
    (hload : load' = .done (some data) result) :
    Complete (d₀.holds stateFilename) w.renamed data ∧ result = calls.decoder.load data := by
  have hreads := h.loads.reads r
  generalize w.loads r = load at hmove hreads
  cases hmove with
  | opened file hentry => cases hload
  | read file got count => cases hload
  | ended file got hend =>
    cases hload
    obtain ⟨-, -, hcomplete, hgot⟩ := hreads file data rfl
    rw [hgot.eq_of_length_le (List.drop_eq_nil_iff.mp hend)]
    exact ⟨hcomplete, rfl⟩
  | failed _ err => cases hload

section Load

variable [DecidableEq κ]

theorem Invariant.load (h : Invariant calls d₀ w) {r : κ} {load : Load σ}
    (hmove : LoadMoves calls.decoder w.dir (w.loads r) load) :
    Invariant calls d₀ { w with loads := Function.update w.loads r load } where
  saves := ⟨h.saves.held, h.saves.renames, h.saves.owns, h.saves.fits, h.saves.made,
    h.saves.only, h.saves.clean⟩
  loads :=
    { reads := (Function.forall_update_iff w.loads fun _ load => ∀ file got,
          load = .reading file got →
            file < w.dir.next ∧ (∀ i tmp, (w.saves i).file ≠ some (tmp, file)) ∧
              Complete (d₀.holds stateFilename) w.renamed (w.dir.content file) ∧
                got <+: w.dir.content file).mpr
        ⟨fun _ _ hread => hmove.reads h hread, fun q _ => h.loads.reads q⟩
      seen := (Function.forall_update_iff w.loads fun _ load => ∀ data result,
          load = .done (some data) result → Complete (d₀.holds stateFilename) w.renamed data ∧
              result = calls.decoder.load data).mpr
        ⟨fun _ _ hdone => hmove.seen h hdone, fun q _ => h.loads.seen q⟩ }

end Load

variable [DecidableEq ι]

theorem LoadInv.act (h : LoadInv calls d₀ w) {i : ι} {save' : Save} {d' : StateDir}
    (hmove : Moves (calls.marshaled i) w.dir (w.saves i) save' d') :
    LoadInv calls d₀ (w.act calls i save' d') where
  reads r file got hload := by
    obtain ⟨hlt, hfree, hcomplete, hgot⟩ := h.reads r file got hload
    have hcontent : d'.content file = w.dir.content file :=
      hmove.content_other hlt fun tmp f hf heq => hfree i tmp (heq ▸ hf)
    refine ⟨Nat.lt_of_lt_of_le hlt hmove.next_le, ?_, ?_, ?_⟩
    · intro j tmp hfile
      change (Function.update w.saves i save' j).file = _ at hfile
      by_cases hij : j = i
      · rw [hij, Function.update_self] at hfile
        rcases hmove.file_origin hfile with hold | hnext
        · exact hfree i tmp hold
        · exact absurd hlt (hnext ▸ Nat.lt_irrefl _)
      · rw [Function.update_of_ne hij] at hfile
        exact hfree j tmp hfile
    · change Complete _ _ (d'.content file)
      rw [hcontent]
      exact hcomplete.mono markRenamed_grows.subset
    · change got <+: d'.content file
      rw [hcontent]
      exact hgot
  seen r data result hload := by
    obtain ⟨hcomplete, hresult⟩ := h.seen r data result hload
    exact ⟨hcomplete.mono markRenamed_grows.subset, hresult⟩

theorem LoadInv.crash (h : LoadInv calls d₀ w) (i : ι) : LoadInv calls d₀ (w.crash i) where
  reads r file got hload := by
    obtain ⟨hlt, hfree, hrest⟩ := h.reads r file got hload
    refine ⟨hlt, fun j tmp hfile => ?_, hrest⟩
    rcases crash_saves w i j with hj | ⟨-, hj⟩
    · rw [hj] at hfile
      cases hfile
    · rw [hj] at hfile
      exact hfree j tmp hfile
  seen := h.seen

variable [DecidableEq κ]

theorem perform_cases {action : Action ι κ} (hstep : perform calls w action = some w') :
    (∃ i save' d', Moves (calls.marshaled i) w.dir (w.saves i) save' d' ∧
        w' = w.act calls i save' d') ∨
      (∃ i, (w.saves i).file ≠ none ∧ w' = w.crash i) ∨
      ∃ r load, LoadMoves calls.decoder w.dir (w.loads r) load ∧
        w' = { w with loads := Function.update w.loads r load } := by
  cases action with
  | save i answer =>
    rw [perform] at hstep
    split at hstep
    · cases hstep
    · rename_i save' d' hsave
      exact .inl ⟨i, save', d', moves_of_saveState hsave, (Option.some.inj hstep).symm⟩
  | crash i =>
    rw [perform] at hstep
    split at hstep
    · cases hstep
    · rename_i hactive
      exact .inr (.inl ⟨i, hactive, (Option.some.inj hstep).symm⟩)
  | load r answer =>
    rw [perform] at hstep
    split at hstep
    · cases hstep
    · rename_i load hload
      exact .inr (.inr ⟨r, load, loadMoves_of_loadState hload, (Option.some.inj hstep).symm⟩)

theorem Invariant.step (h : Invariant calls d₀ w) {action : Action ι κ}
    (hstep : perform calls w action = some w') : Invariant calls d₀ w' := by
  obtain ⟨i, save', d', hmove, rfl⟩ | ⟨i, hactive, rfl⟩ | ⟨r, load, hmove, rfl⟩ :=
    perform_cases hstep
  · exact ⟨h.saves.act hmove, h.loads.act hmove⟩
  · exact ⟨h.saves.crash hactive, h.loads.crash i⟩
  · exact h.load hmove

theorem Invariant.reachable (h : (machine calls d₀).Reachable w) : Invariant calls d₀ w := by
  refine h.invariant ?_ ?_
  · rintro w rfl
    exact Invariant.start calls d₀
  · rintro w w' - hinv ⟨action, hstep⟩
    exact hinv.step hstep

theorem perform_renamed {action : Action ι κ} (hstep : perform calls w action = some w') :
    w.renamed <+: w'.renamed := by
  obtain ⟨i, save', d', -, rfl⟩ | ⟨i, -, rfl⟩ | ⟨r, load, -, rfl⟩ := perform_cases hstep
  · exact markRenamed_grows
  · exact ⟨[], List.append_nil _⟩
  · exact ⟨[], List.append_nil _⟩

theorem run_renamed (hrun : Relation.ReflTransGen (machine calls d₀).step w w') :
    w.renamed <+: w'.renamed := by
  induction hrun with
  | refl => exact ⟨[], List.append_nil _⟩
  | tail _ hlast ih =>
    obtain ⟨action, hstep⟩ := hlast
    exact ih.trans (perform_renamed hstep)

/-- `state.json` is complete. -/
theorem saveState_complete (calls : Calls ι σ) (d₀ : StateDir) {w w' : World ι κ σ}
    (hw : (machine calls d₀).Reachable w)
    (hrun : Relation.ReflTransGen (machine calls d₀).step w w') :
    w'.dir.holds stateFilename = lastText (d₀.holds stateFilename) w'.renamed ∧
      (∀ e ∈ w'.renamed, calls.marshaled e.1 = .ok e.2) ∧
      (∀ r data result, w'.loads r = .done (some data) result →
        Complete (d₀.holds stateFilename) w'.renamed data ∧
          result = calls.decoder.load data) ∧
      ∀ i err clean, w'.saves i = .failed err clean →
        (∃ others, w'.renamed = w.renamed ++ others ∧ ∀ e ∈ others, e.1 ≠ i) ∧
          (w'.renamed = w.renamed →
            w'.dir.holds stateFilename = w.dir.holds stateFilename) ∧
          (clean = true → ∀ n file, w'.dir.entry n = some file → w'.creator file ≠ some i) := by
  have hinv := Invariant.reachable hw
  obtain ⟨w₀, hinit, hfirst⟩ := hw
  have hinv' : Invariant calls d₀ w' := Invariant.reachable ⟨w₀, hinit, hfirst.trans hrun⟩
  refine ⟨hinv'.saves.held, fun e he => (hinv'.saves.renames e he).2, hinv'.loads.seen, ?_⟩
  intro i err clean hfailed
  obtain ⟨others, hothers⟩ := run_renamed hrun
  refine ⟨⟨others, hothers.symm, ?_⟩, ?_, ?_⟩
  · intro e he heq
    have hmem : e ∈ w'.renamed := hothers ▸ List.mem_append_right _ he
    have hsaved := (hinv'.saves.renames e hmem).1
    rw [heq, hfailed] at hsaved
    cases hsaved
  · intro hsame
    rw [hinv'.saves.held, hinv.saves.held, hsame]
  · rintro rfl
    exact hinv'.saves.clean i err hfailed

def performAll (calls : Calls ι σ) (w : World ι κ σ) : List (Action ι κ) → Option (World ι κ σ)
  | [] => some w
  | action :: rest =>
      match perform calls w action with
      | none => none
      | some w' => performAll calls w' rest

theorem run_of_performAll {actions : List (Action ι κ)} (h : performAll calls w actions = some w') :
    Relation.ReflTransGen (machine calls d₀).step w w' := by
  induction actions generalizing w with
  | nil =>
    cases h
    exact Relation.ReflTransGen.refl
  | cons action rest ih =>
    rw [performAll] at h
    split at h
    · cases h
    · rename_i w₁ hstep
      exact Relation.ReflTransGen.head ⟨action, hstep⟩ (ih h)

end Safety

def oldDir : StateDir where
  entry n := if n = stateFilename then some 0 else none
  content _ := [1]
  next := 1
  bounded n file h := by
    split at h
    · cases h
      exact Nat.zero_lt_one
    · cases h
  single m n file hm hn := by
    split at hm
    · split at hn
      · rename_i h h'
        rw [h, h']
      · cases hn
    · cases hm

def twoSaves : Calls Bool Data where
  marshaled second := if second then .error "unsupported value".toList else .ok [2, 3]
  decoder :=
    { decode := .ok
      withResources := id }

def firstThenSecond : List (Action Bool Unit) :=
  [.save false (.made ['1']), .save false .ok, .save false (.moved 1), .save false (.moved 1),
    .save false .ok, .save false .ok, .save false .ok, .save true (.made ['1']), .save true .ok,
    .save true .ok, .save true .ok]

theorem saveState_complete_twoSaves :
    ∃ w : World Bool Unit Data,
      performAll twoSaves (World.start oldDir) firstThenSecond = some w ∧
        w.dir.holds stateFilename = some [2, 3] := by
  refine ⟨_, rfl, ?_⟩
  exact (saveState_complete twoSaves oldDir (System.Reachable.of_init rfl)
    (run_of_performAll (show performAll twoSaves (World.start oldDir) firstThenSecond = _
      from rfl))).1

end SaveState
end Runc.Libcontainer
