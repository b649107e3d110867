import Runc.Libcontainer.SaveState

/-!
# What saves keep

**Results.**
* `SaveInv.act`, `SaveInv.crash`: the invariant of the saves survives it, and survives a
  crash.
-/

namespace Runc.Libcontainer
namespace SaveState

open Lib

def Fits (marshaled : Except Text Data) (content : Data) : Save → Prop
  | .created _ _ => content = []
  | .writing _ _ left => marshaled = .ok (content ++ left)
  | .written _ _ | .closed _ _ => marshaled = .ok content
  | _ => True

inductive Moves (marshaled : Except Text Data) (d : StateDir) : Save → Save → StateDir → Prop
  | create (tmp : Text) :
      tmp ≠ stateFilename → d.entry tmp = none →
      Moves marshaled d .ready (.created tmp d.next) (d.create tmp)
  | refuse (err : Text) :
      Moves marshaled d .ready (.failed err true) d
  | advance (save save' : Save) (tmp : Text) (file : Nat) :
      save.file = some (tmp, file) → save'.file = some (tmp, file) →
      (∀ content, Fits marshaled content save → Fits marshaled content save') →
      (∀ n f, save' ≠ .created n f) →
      Moves marshaled d save save' d
  | write (tmp : Text) (file : Nat) (left : Data) (count : Nat) :
      Moves marshaled d (.writing tmp file left) (.writing tmp file (left.drop count))
        (d.append file (left.take count))
  | rename (tmp : Text) (file : Nat) :
      Moves marshaled d (.closed tmp file) .saved (d.rename tmp stateFilename)
  | remove (tmp : Text) (file : Nat) (err : Text) :
      Moves marshaled d (.removing tmp file err) (.failed err true) (d.unlink tmp)
  | leave (tmp : Text) (file : Nat) (err : Text) :
      Moves marshaled d (.removing tmp file err) (.failed err false) d

theorem moves_of_saveState
    {marshaled : Except Text Data} {d d' : StateDir} {save save' : Save} {answer : Answer}
    (h : saveState marshaled d save answer = some (save', d')) :
    Moves marshaled d save save' d' := by
  rw [saveState.eq_def] at h
  split at h
  · -- the name is free
    split at h
    · rename_i hfree
      cases h
      exact .create _ (tempName_ne _) hfree
    · cases h
  · cases h
    exact .refuse _
  · split at h
    · cases h
      refine .advance _ _ _ _ rfl rfl (fun content hfits => ?_) (fun _ _ => nofun)
      obtain rfl : content = [] := hfits
      rfl
    · cases h
      exact .advance _ _ _ _ rfl rfl (fun _ _ => trivial) (fun _ _ => nofun)
  · split at h
    · cases h
      exact .write _ _ _ _
    · cases h
  · split at h
    · rename_i hleft
      cases h
      refine .advance _ _ _ _ rfl rfl (fun content hfits => ?_) (fun _ _ => nofun)
      rw [Fits, hleft, List.append_nil] at hfits
      exact hfits
    · cases h
  · cases h
    exact .advance _ _ _ _ rfl rfl (fun _ _ => trivial) (fun _ _ => nofun)
  · cases h
    exact .advance _ _ _ _ rfl rfl (fun _ hfits => hfits) (fun _ _ => nofun)
  · cases h
    exact .advance _ _ _ _ rfl rfl (fun _ _ => trivial) (fun _ _ => nofun)
  · split at h
    · cases h
    · cases h
      exact .rename _ _
  · cases h
    exact .advance _ _ _ _ rfl rfl (fun _ _ => trivial) (fun _ _ => nofun)
  · cases h
    exact .advance _ _ _ _ rfl rfl (fun _ _ => trivial) (fun _ _ => nofun)
  · cases h
    exact .advance _ _ _ _ rfl rfl (fun _ _ => trivial) (fun _ _ => nofun)
  · split at h
    · cases h
    · cases h
      exact .remove _ _ _
  · cases h
    exact .leave _ _ _
  · cases h

section Moves

variable {marshaled : Except Text Data} {d d' : StateDir} {save save' : Save}

section

variable (h : Moves marshaled d save save' d')
include h

theorem Moves.source_ne_saved : save ≠ .saved := by
  cases h with
  | advance _ _ tmp file hfile =>
    rintro rfl
    cases hfile
  | create | refuse | write | rename | remove | leave => exact nofun

theorem Moves.target_ne_ready : save' ≠ .ready := by
  cases h with
  | advance _ _ tmp file _ hfile =>
    rintro rfl
    cases hfile
  | create | refuse | write | rename | remove | leave => exact nofun

theorem Moves.next_le : d.next ≤ d'.next := by
  cases h with
  | create => exact Nat.le_succ _
  | refuse | advance | write | rename | remove | leave => exact Nat.le_refl _

end

variable {file : Nat}

section

variable (h : Moves marshaled d save save' d')
include h

theorem Moves.entry_origin {n : Text} (hentry : d'.entry n = some file) :
    (∃ l, d.entry l = some file) ∨ ∃ tmp, save' = .created tmp file ∧ file = d.next := by
  cases h with
  | create tmp _ _ =>
    by_cases hn : n = tmp
    · rw [hn, Directory.entry_create_self] at hentry
      cases hentry
      exact .inr ⟨tmp, rfl, rfl⟩
    · rw [Directory.entry_create_of_ne hn] at hentry
      exact .inl ⟨n, hentry⟩
  | refuse | advance | write | leave => exact .inl ⟨n, hentry⟩
  | rename tmp file' => exact .inl (Directory.exists_entry_of_rename hentry)
  | remove tmp file' err => exact .inl ⟨n, (Directory.entry_of_unlink hentry).2⟩

theorem Moves.entry_other {n : Text} (hn : n ≠ stateFilename) (hentry : d.entry n = some file)
    (hother : ∀ tmp f, save.file = some (tmp, f) → n ≠ tmp) : d'.entry n = some file := by
  cases h with
  | create tmp _ hfree =>
    have hne : n ≠ tmp := by
      rintro rfl
      rw [hfree] at hentry
      cases hentry
    rw [Directory.entry_create_of_ne hne, hentry]
  | refuse | advance | write | leave => exact hentry
  | rename tmp f => rw [Directory.entry_rename_of_ne hn (hother tmp f rfl), hentry]
  | remove tmp f err => rw [Directory.entry_unlink_of_ne (hother tmp f rfl), hentry]

theorem Moves.content_other (hlt : file < d.next)
    (hother : ∀ tmp f, save.file = some (tmp, f) → file ≠ f) :
    d'.content file = d.content file := by
  cases h with
  | create => exact Directory.content_create_of_lt hlt
  | write tmp f left count => exact Directory.content_append_of_ne (hother tmp f rfl)
  | refuse | advance | rename | remove | leave => rfl

end

end Moves

section Invariant

variable {ι κ σ : Type}

def lastText (before : Option Data) (renamed : List (ι × Data)) : Option Data :=
  match renamed.getLast? with
  | some e => some e.2
  | none => before

structure SaveInv (calls : Calls ι σ) (d₀ : StateDir) (w : World ι κ σ) : Prop where
  held : w.dir.holds stateFilename = lastText (d₀.holds stateFilename) w.renamed
  renames : ∀ e ∈ w.renamed, w.saves e.1 = .saved ∧ calls.marshaled e.1 = .ok e.2
  owns : ∀ i tmp file, (w.saves i).file = some (tmp, file) →
    tmp ≠ stateFilename ∧ w.dir.entry tmp = some file ∧ w.creator file = some i
  fits : ∀ i tmp file, (w.saves i).file = some (tmp, file) →
    Fits (calls.marshaled i) (w.dir.content file) (w.saves i)
  made : ∀ i file, w.creator file = some i → file < w.dir.next ∧ w.saves i ≠ .ready
  only : ∀ i file file', w.creator file = some i → w.creator file' = some i → file = file'
  clean : ∀ i err, w.saves i = .failed err true →
    ∀ n file, w.dir.entry n = some file → w.creator file ≠ some i

theorem SaveInv.start (calls : Calls ι σ) (d₀ : StateDir) :
    SaveInv calls d₀ (World.start d₀ : World ι κ σ) where
  held := rfl
  renames _ he := absurd he List.not_mem_nil
  owns _ _ _ h := nomatch h
  fits _ _ _ h := nomatch h
  made _ _ h := nomatch h
  only _ _ _ h := nomatch h
  clean _ _ h := nomatch h

variable {calls : Calls ι σ} {d₀ : StateDir} {w : World ι κ σ} {i : ι}

theorem SaveInv.apart (h : SaveInv calls d₀ w) {j : ι} {tmp tmp' : Text} {file file' : Nat}
    (hij : j ≠ i) (hi : (w.saves i).file = some (tmp, file))
    (hj : (w.saves j).file = some (tmp', file')) : tmp' ≠ tmp ∧ file' ≠ file := by
  obtain ⟨-, hentry, hcreator⟩ := h.owns i tmp file hi
  obtain ⟨-, hentry', hcreator'⟩ := h.owns j tmp' file' hj
  have hfile : file' ≠ file := by
    rintro rfl
    rw [hcreator] at hcreator'
    exact hij (Option.some.inj hcreator').symm
  refine ⟨?_, hfile⟩
  rintro rfl
  rw [hentry] at hentry'
  exact hfile (Option.some.inj hentry').symm

variable {save : Save} {marshaled : Except Text Data}

theorem markRenamed_of_ne {renamed : List (ι × Data)} (h : save ≠ .saved) :
    markRenamed i marshaled renamed save = renamed := by
  cases save with
  | saved => exact absurd rfl h
  | ready | created | writing | written | closed | failing | removing | failed | crashed => rfl

variable {creator : Nat → Option ι}

theorem markCreator_of_ne (h : ∀ n f, save ≠ .created n f) :
    markCreator i creator save = creator := by
  cases save with
  | created n f => exact absurd rfl (h n f)
  | ready | saved | writing | written | closed | failing | removing | failed | crashed => rfl

theorem markRenamed_grows {renamed : List (ι × Data)} :
    renamed <+: markRenamed i marshaled renamed save := by
  rw [markRenamed.eq_def]
  split
  · split
    · exact List.prefix_append _ _
    · exact ⟨[], List.append_nil _⟩
  · exact ⟨[], List.append_nil _⟩

variable {file : Nat} {save' : Save} {d' : StateDir}

theorem markCreator_of_lt {d : StateDir} (h : Moves marshaled d save save' d')
    (hlt : file < d.next) : markCreator i creator save' file = creator file := by
  cases h with
  | create tmp _ _ => exact Function.update_of_ne (Nat.ne_of_lt hlt) _ _
  | advance _ _ _ _ _ _ _ hne => rw [markCreator_of_ne hne]
  | refuse | write | rename | remove | leave => rfl

theorem creator_of_mark {d : StateDir} {j : ι} (h : Moves marshaled d save save' d')
    (hmark : markCreator i creator save' file = some j) :
    creator file = some j ∨ (j = i ∧ save = .ready ∧ file = d.next ∧ d'.next = d.next + 1) := by
  cases h with
  | create tmp _ _ =>
    by_cases hfile : file = d.next
    · rw [hfile, markCreator, Function.update_self] at hmark
      exact .inr ⟨(Option.some.inj hmark).symm, rfl, hfile, rfl⟩
    · rw [markCreator, Function.update_of_ne hfile] at hmark
      exact .inl hmark
  | advance _ _ _ _ _ _ _ hne =>
    rw [markCreator_of_ne hne] at hmark
    exact .inl hmark
  | refuse | write | rename | remove | leave => exact .inl hmark

theorem SaveInv.act_clean_self (h : SaveInv calls d₀ w)
    (hmove : Moves (calls.marshaled i) w.dir (w.saves i) save' d') {err : Text}
    (hfailed : save' = .failed err true) {n : Text} (hentry : d'.entry n = some file) :
    markCreator i w.creator save' file ≠ some i := by
  intro hmark
  have howns := h.owns i
  have hmade := fun file => h.made i file
  generalize w.saves i = save at hmove howns hmade
  cases hmove with
  | refuse err => exact (hmade file hmark).2 rfl
  | remove tmp file' err =>
    obtain ⟨-, hentry', hcreator⟩ := howns tmp file' rfl
    obtain ⟨hne, hold⟩ := Directory.entry_of_unlink hentry
    obtain rfl := h.only i file file' hmark hcreator
    exact hne (w.dir.single n tmp file hold hentry')
  | create | write | rename | leave => cases hfailed
  | advance _ _ tmp file' _ hnew _ _ =>
    rw [hfailed] at hnew
    cases hnew

section Act

variable [DecidableEq ι] {save' : Save} {d' : StateDir}

section

variable (h : SaveInv calls d₀ w)
include h

section

variable (hmove : Moves (calls.marshaled i) w.dir (w.saves i) save' d')
include hmove

theorem SaveInv.act_held :
    (w.act calls i save' d').dir.holds stateFilename =
      lastText (d₀.holds stateFilename) (w.act calls i save' d').renamed := by
  have howns := h.owns i
  have hfits := h.fits i
  have hheld := h.held
  rw [World.act]
  generalize w.saves i = save at hmove howns hfits
  cases hmove with
  | create tmp hne _ => exact (Directory.holds_create_of_ne hne.symm).trans hheld
  | refuse => exact hheld
  | advance _ _ tmp file _ hfile =>
    have hnot : save' ≠ .saved := by
      rintro rfl
      cases hfile
    rw [markRenamed_of_ne hnot]
    exact hheld
  | write tmp file left count =>
    obtain ⟨hne, hentry, -⟩ := howns tmp file rfl
    exact (Directory.holds_append_of_ne hentry hne.symm).trans hheld
  | rename tmp file =>
    -- what is renamed is complete
    obtain ⟨-, hentry, -⟩ := howns tmp file rfl
    have hdata : calls.marshaled i = .ok (w.dir.content file) := hfits tmp file rfl
    rw [Directory.holds_rename_self hentry, hdata, markRenamed, lastText, List.getLast?_concat]
  | remove tmp file err =>
    obtain ⟨hne, -, -⟩ := howns tmp file rfl
    exact (Directory.holds_unlink_of_ne hne.symm).trans hheld
  | leave => exact hheld

theorem SaveInv.act_renames :
    ∀ e ∈ (w.act calls i save' d').renamed,
      (w.act calls i save' d').saves e.1 = .saved ∧ calls.marshaled e.1 = .ok e.2 := by
  intro e he
  have hold : e ∈ w.renamed → Function.update w.saves i save' e.1 = .saved ∧
      calls.marshaled e.1 = .ok e.2 := by
    intro hmem
    obtain ⟨hsaved, hdata⟩ := h.renames e hmem
    have hne : e.1 ≠ i := by
      intro heq
      rw [heq] at hsaved
      exact hmove.source_ne_saved hsaved
    rw [Function.update_of_ne hne]
    exact ⟨hsaved, hdata⟩
  change e ∈ markRenamed i (calls.marshaled i) w.renamed save' at he
  rw [markRenamed.eq_def] at he
  split at he
  · split at he
    · rename_i data hdata
      rcases List.mem_append.mp he with hmem | hlast
      · exact hold hmem
      · rw [List.mem_singleton] at hlast
        subst hlast
        exact ⟨Function.update_self _ _ _, hdata⟩
    · exact hold he
  · exact hold he

theorem SaveInv.act_owns :
    ∀ j tmp file, ((w.act calls i save' d').saves j).file = some (tmp, file) →
      tmp ≠ stateFilename ∧ (w.act calls i save' d').dir.entry tmp = some file ∧
        (w.act calls i save' d').creator file = some j := by
  intro j tmp file hfile
  change (Function.update w.saves i save' j).file = _ at hfile
  change _ ∧ d'.entry tmp = some file ∧ markCreator i w.creator save' file = some j
  by_cases hij : j = i
  · subst hij
    rw [Function.update_self] at hfile
    have howns := h.owns j
    generalize w.saves j = save at hmove howns
    cases hmove with
    | create tmp' hne _ =>
      cases hfile
      exact ⟨hne, Directory.entry_create_self, Function.update_self _ _ _⟩
    | advance _ _ tmp' file' hold hnew _ hcreated =>
      rw [hnew] at hfile
      cases hfile
      rw [markCreator_of_ne hcreated]
      exact howns tmp file hold
    | write tmp' file' left count =>
      cases hfile
      exact howns tmp file rfl
    | refuse | rename | remove | leave => cases hfile
  · rw [Function.update_of_ne hij] at hfile
    obtain ⟨hne, hentry, hcreator⟩ := h.owns j tmp file hfile
    have hother : ∀ tmp' f, (w.saves i).file = some (tmp', f) → tmp ≠ tmp' :=
      fun tmp' f hi => (h.apart hij hi hfile).1
    refine ⟨hne, hmove.entry_other hne hentry hother, ?_⟩
    rw [markCreator_of_lt hmove (w.dir.bounded tmp file hentry)]
    exact hcreator

theorem SaveInv.act_fits :
    ∀ j tmp file, ((w.act calls i save' d').saves j).file = some (tmp, file) →
      Fits (calls.marshaled j) ((w.act calls i save' d').dir.content file)
        ((w.act calls i save' d').saves j) := by
  intro j tmp file hfile
  change (Function.update w.saves i save' j).file = _ at hfile
  change Fits _ (d'.content file) (Function.update w.saves i save' j)
  by_cases hij : j = i
  · subst hij
    rw [Function.update_self] at hfile ⊢
    have hfits := h.fits j
    generalize w.saves j = save at hmove hfits
    cases hmove with
    | create tmp' _ _ =>
      cases hfile
      exact Directory.content_create_next
    | advance _ _ tmp' file' hold hnew hkeep _ =>
      rw [hnew] at hfile
      cases hfile
      exact hkeep _ (hfits tmp file hold)
    | write tmp' file' left count =>
      cases hfile
      have hdata : calls.marshaled j = .ok (w.dir.content file ++ left) := hfits tmp file rfl
      rw [Fits, Directory.content_append_self, List.append_assoc, List.take_append_drop]
      exact hdata
    | refuse | rename | remove | leave => cases hfile
  · rw [Function.update_of_ne hij] at hfile ⊢
    obtain ⟨-, hentry, -⟩ := h.owns j tmp file hfile
    have hother : ∀ tmp' f, (w.saves i).file = some (tmp', f) → file ≠ f :=
      fun tmp' f hi => (h.apart hij hi hfile).2
    rw [hmove.content_other (w.dir.bounded tmp file hentry) hother]
    exact h.fits j tmp file hfile

theorem SaveInv.act_made :
    ∀ j file, (w.act calls i save' d').creator file = some j →
      file < (w.act calls i save' d').dir.next ∧ (w.act calls i save' d').saves j ≠ .ready := by
  intro j file hmark
  change file < d'.next ∧ Function.update w.saves i save' j ≠ .ready
  constructor
  · rcases creator_of_mark hmove hmark with hold | ⟨-, -, hfile, hnext⟩
    · exact Nat.lt_of_lt_of_le (h.made j file hold).1 hmove.next_le
    · rw [hfile, hnext]
      exact Nat.lt_succ_self _
  · by_cases hij : j = i
    · rw [hij, Function.update_self]
      exact hmove.target_ne_ready
    · rw [Function.update_of_ne hij]
      rcases creator_of_mark hmove hmark with hold | ⟨heq, -⟩
      · exact (h.made j file hold).2
      · exact absurd heq hij

theorem SaveInv.act_only :
    ∀ j file file', (w.act calls i save' d').creator file = some j →
      (w.act calls i save' d').creator file' = some j → file = file' := by
  intro j file file' hmark hmark'
  rcases creator_of_mark hmove hmark with hold | ⟨heq, hready, hnext, -⟩
  · rcases creator_of_mark hmove hmark' with hold' | ⟨heq', hready', -, -⟩
    · exact h.only j file file' hold hold'
    · exact absurd hready' (heq' ▸ (h.made j file hold).2)
  · rcases creator_of_mark hmove hmark' with hold' | ⟨-, -, hnext', -⟩
    · exact absurd hready (heq ▸ (h.made j file' hold').2)
    · rw [hnext, hnext']

theorem SaveInv.act_clean :
    ∀ j err, (w.act calls i save' d').saves j = .failed err true →
      ∀ n file, (w.act calls i save' d').dir.entry n = some file →
        (w.act calls i save' d').creator file ≠ some j := by
  intro j err hfailed n file hentry
  change Function.update w.saves i save' j = _ at hfailed
  by_cases hij : j = i
  · subst hij
    rw [Function.update_self] at hfailed
    exact h.act_clean_self hmove hfailed hentry
  · rw [Function.update_of_ne hij] at hfailed
    intro hmark
    rcases creator_of_mark hmove hmark with hold | ⟨heq, -⟩
    · rcases hmove.entry_origin hentry with ⟨l, hl⟩ | ⟨tmp, -, hnext⟩
      · exact h.clean j err hfailed l file hl hold
      · -- the next file has no mark yet
        exact absurd (h.made j file hold).1 (hnext ▸ Nat.lt_irrefl _)
    · exact hij heq

theorem SaveInv.act : SaveInv calls d₀ (w.act calls i save' d') where
  held := h.act_held hmove
  renames := h.act_renames hmove
  owns := h.act_owns hmove
  fits := h.act_fits hmove
  made := h.act_made hmove
  only := h.act_only hmove
  clean := h.act_clean hmove

end

end

theorem crash_saves (w : World ι κ σ) (i j : ι) :
    (w.crash i).saves j = .crashed ∨ (j ≠ i ∧ (w.crash i).saves j = w.saves j) := by
  by_cases hij : j = i
  · subst hij
    exact .inl (Function.update_self _ _ _)
  · exact .inr ⟨hij, Function.update_of_ne hij _ _⟩

theorem SaveInv.crash (h : SaveInv calls d₀ w) (hactive : (w.saves i).file ≠ none) :
    SaveInv calls d₀ (w.crash i) where
  held := h.held
  renames e he := by
    obtain ⟨hsaved, hdata⟩ := h.renames e he
    have hne : e.1 ≠ i := by
      rintro rfl
      rw [hsaved] at hactive
      exact hactive rfl
    exact ⟨(Function.update_of_ne hne _ _).trans hsaved, hdata⟩
  owns j tmp file hfile := by
    rcases crash_saves w i j with hj | ⟨-, hj⟩
    · rw [hj] at hfile
      cases hfile
    · rw [hj] at hfile
      exact h.owns j tmp file hfile
  fits j tmp file hfile := by
    rcases crash_saves w i j with hj | ⟨-, hj⟩
    · rw [hj] at hfile
      cases hfile
    · rw [hj] at hfile ⊢
      exact h.fits j tmp file hfile
  made j file hmark := by
    refine ⟨(h.made j file hmark).1, ?_⟩
    rcases crash_saves w i j with hj | ⟨-, hj⟩
    · rw [hj]
      exact nofun
    · rw [hj]
      exact (h.made j file hmark).2
  only := h.only
  clean j err hfailed := by
    rcases crash_saves w i j with hj | ⟨-, hj⟩
    · rw [hj] at hfailed
      cases hfailed
    · rw [hj] at hfailed
      exact h.clean j err hfailed

end Act

end Invariant

end SaveState
end Runc.Libcontainer
