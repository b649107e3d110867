import Mathlib.Data.List.TakeDrop
import Runc.Exec.Version1

/-!
# Where `runc exec` puts the process

On cgroup version 2 the process is cloned into a directory that was opened before, and
only if that fails is it added afterwards.
-/

namespace Runc.Exec

open Lib
open Lib.Path

section Placement

variable {c : Cgroups} {a : Answers} {req : Paths} {p : Process}

theorem clean_rooted (sub : Text) : clean ('/' :: sub) = render (resolve [] sub) := by
  have htokens : tokens '/' ('/' :: sub) = tokens '/' sub := tokens_append_sep [] sub
  rw [clean_of_isAbs rfl, htokens]
  rfl

theorem resolve_nil_isName (sub : Text) : ∀ name ∈ resolve [] sub, IsName name :=
  resolve_isName (fun _ h => absurd h List.not_mem_nil) sub

def openedDir (base : AbsPath) (sub : Text) : AbsPath :=
  AbsPath.ofNames (base.names ++ resolve [] sub) fun name hname =>
    (List.mem_append.mp hname).elim (base.isName name) (resolve_nil_isName sub name)

theorem openedDir_text (base : AbsPath) (sub : Text) :
    (openedDir base sub).text = openedPath base.text sub := by
  have htokens := tokens_render (resolve_nil_isName sub)
  have hwalk : resolve base.names (render (resolve [] sub)) = base.names ++ resolve [] sub := by
    rw [resolve_of_isName (by rw [htokens]; exact resolve_nil_isName sub), htokens]
  rw [openedPath, clean_rooted, join_text, hwalk]
  rfl

theorem openedPath_eq_iff {base : AbsPath} {sub : Text} :
    openedPath base.text sub = join base.text sub ↔
      (climb sub).ups = 0 ∨ base.names = [] := by
  have hdowns : resolve [] sub = (climb sub).downs.reverse := by
    rw [resolve_eq (fun _ h => absurd h List.not_mem_nil), List.take_nil, List.nil_append]
  rw [← openedDir_text, ← base.joined_text, ← AbsPath.names_inj, AbsPath.joined_names,
    resolve_eq base.isName, openedDir, AbsPath.names_ofNames, hdowns,
    List.append_cancel_right_eq, eq_comm, List.take_eq_self_iff, ← List.length_eq_zero_iff]
  omega

theorem openedPath_nil (base : AbsPath) : openedPath base.text [] = base.text :=
  (openedPath_eq_iff.mpr (.inl rfl)).trans (join_nil base)

theorem place_move_unified (hunified : c.unified = true) (dir t : Text) :
    (p.move c dir).place (c.hierarchy t) = dir :=
  if_pos (c.hierarchy_unified hunified t dir)

theorem join_absSubcgroup (base : AbsPath) (sub : Text) :
    join base.text (absSubcgroup sub) = join base.text sub := by
  rw [absSubcgroup]
  split
  · rfl
  · have htokens : tokens '/' ('/' :: sub) = tokens '/' sub := tokens_append_sep [] sub
    rw [join_text, join_text, resolve, resolve, htokens]

theorem addPidV2_ok {sub : Text} {p' : Process} (h : (addPidV2 c a sub).exec p = (.ok (), p')) :
    p' = p.move c (join c.dir.text sub) := by
  rw [addPidV2] at h
  split at h
  · split at h
    · cases h
    · rename_i abs habs
      rw [unitSub] at habs
      split at habs
      · cases habs
      · cases habs
        cases hattach : a.attach with
        | none =>
          rw [hattach, join_absSubcgroup] at h
          exact (congrArg Prod.snd h).symm
        | some err =>
          rw [hattach] at h
          cases h
  · split at h
    · cases h
    · rename_i path hpath
      obtain rfl := eq_join_of_ok hpath
      exact writeCgroupProc_ok h

theorem addIntoCgroupV2_ok (hroot : c.rootlessCgroups = false) (hsub : subV2 req ≠ [])
    {p' : Process} (h : (addIntoCgroupV2 c a req).exec p = (.ok (), p')) :
    p' = p.move c (join c.dir.text (subV2 req)) := by
  have htry := (exec_orRootless hroot).mp h
  rw [Program.exec_tryCatch] at htry
  rcases hadd : (addPidV2 c a (subV2 req)).exec p with ⟨err | r, p₁⟩
  · -- there is no second directory to try
    rw [hadd] at htry
    dsimp only at htry
    rw [if_pos hsub] at htry
    cases htry
  · rw [hadd] at htry
    cases htry
    exact addPidV2_ok hadd

theorem prepareCgroupFD_ok (hunified : c.unified = true) (hroot : c.rootlessCgroups = false)
    (hsub : subV2 req ≠ []) {dir : Option Text} (h : prepareCgroupFD c a req = .ok dir) :
    Accepted c.dir (subV2 req) ∧ dir = some (openedPath c.dir.text (subV2 req)) := by
  rw [prepareCgroupFD, hunified, Bool.not_true, if_neg Bool.false_ne_true,
    if_neg c.dir.text_ne_nil] at h
  split at h
  · cases h
  · rename_i hcheck
    refine ⟨(subCgroup_ok_iff.mp hcheck).1, ?_⟩
    rw [openCgroup] at h
    split at h
    · exact (Except.ok.inj h).symm
    · rw [if_pos hsub, openFailed, hroot, if_neg Bool.false_ne_true] at h
      cases h

theorem startCommand_ok {dir : Text} {useCgroupFD : Bool} {p' : Process}
    (h : (startCommand c a (some dir)).exec p = (.ok useCgroupFD, p')) :
    (useCgroupFD = true ∧ p' = p.move c dir) ∨ useCgroupFD = false := by
  rw [startCommand] at h
  split at h
  · cases h
    exact .inl ⟨rfl, rfl⟩
  · obtain ⟨_, p₁, -, hrest⟩ := Program.exec_bind_of_ok (congrArg Prod.fst h)
    rw [hrest] at h
    cases h
    exact .inr rfl

theorem placedV2 (hunified : c.unified = true) (hroot : c.rootlessCgroups = false)
    (hsub : subV2 req ≠ []) (hopen : Accepted c.dir (subV2 req) →
      openedPath c.dir.text (subV2 req) = join c.dir.text (subV2 req))
    (h : ((start c a req).exec p).1 = .ok ()) (t : Text) :
    ((start c a req).exec p).2.place (c.hierarchy t) = join c.dir.text (subV2 req) := by
  obtain ⟨useCgroupFD, p₁, hclone, hadd⟩ := start_ok h
  rw [startWithCgroupFD] at hclone
  split at hclone
  · cases hclone
  · rename_i dir hdir
    obtain ⟨hacc, rfl⟩ := prepareCgroupFD_ok hunified hroot hsub hdir
    rcases startCommand_ok hclone with ⟨rfl, rfl⟩ | rfl
    · have hstay := congrArg Prod.snd hadd
      rw [← hstay]
      exact (place_move_unified hunified _ t).trans (hopen hacc)
    · rw [addIntoCgroup, if_neg Bool.false_ne_true, if_pos hunified] at hadd
      rw [addIntoCgroupV2_ok hroot hsub hadd]
      exact place_move_unified hunified _ t

theorem start_into {dir : Text} (hbefore : a.before = none) (hafter : a.after = none)
    (hinto : a.cloneInto = none) (hdir : prepareCgroupFD c a req = .ok (some dir)) :
    (start c a req).exec p = (.ok (), p.move c dir) := by
  have hclone : (startWithCgroupFD c a req).exec p = (.ok true, p.move c dir) := by
    rw [startWithCgroupFD, hdir]
    dsimp only
    rw [startCommand, hinto]
    rfl
  exact start_eq hbefore hafter hclone rfl

def SoundV2 (c : Cgroups) (req : Paths) : Prop :=
  ∀ e ∈ req, e.2 = [] ∨
    (e.1 = [] ∧ (¬ Accepted c.dir e.2 ∨ (climb e.2).ups = 0 ∨ c.dir.names = []))

instance (c : Cgroups) (req : Paths) : Decidable (SoundV2 c req) :=
  inferInstanceAs (Decidable (∀ e ∈ req, e.2 = [] ∨
    (e.1 = [] ∧ (¬ Accepted c.dir e.2 ∨ (climb e.2).ups = 0 ∨ c.dir.names = []))))

def SoundV1 (c : Cgroups) (req : Paths) : Prop :=
  PermittedV1 c req → ∀ ctrl dir sub ctrl' t, (ctrl, dir) ∈ c.dirs → Asks req ctrl sub →
    Target c req ctrl' t → c.hierarchy t = c.hierarchy (join dir.text sub) →
    t = join dir.text sub

def Sound (c : Cgroups) (req : Paths) : Prop :=
  if c.unified then SoundV2 c req else SoundV1 c req

theorem subV2_named (hshape : Shape req) {e : Text × Text} (he : e ∈ req) (hne : e.1 ≠ []) :
    subV2 req = [] := by
  rw [subV2]
  cases hlookup : req.lookup [] with
  | none => rfl
  | some sub =>
    rw [hshape.single sub (mem_of_lookup hlookup), List.mem_singleton] at he
    exact absurd (congrArg Prod.fst he) hne

theorem honouredV2_of_sound (hunified : c.unified = true) (hroot : c.rootlessCgroups = false)
    (hshape : Shape req) (hsound : SoundV2 c req) (h : ((start c a req).exec p).1 = .ok ()) :
    HonouredV2 c req ((start c a req).exec p).2 := by
  intro e he hsub
  obtain ⟨ctrl, sub⟩ := e
  rcases hsound _ he with hnil | ⟨hctrl, hpath⟩
  · exact absurd hnil hsub
  · obtain rfl : ctrl = [] := hctrl
    obtain rfl := hshape.single sub he
    have hread : subV2 [([], sub)] ≠ [] := hsub
    refine placedV2 hunified hroot hread (fun hacc => openedPath_eq_iff.mpr ?_) h _
    exact hpath.resolve_left (not_not.mpr hacc)

def elsewhere (c : Cgroups) (initCgroup : AbsPath) : Answers :=
  { smooth id List.Perm.refl with
    opens := fun path => if path = c.dir.text then some "no such file".toList else none
    initCgroup := initCgroup.text }

theorem prepareCgroupFD_elsewhere (hunified : c.unified = true) (hsub : subV2 req = [])
    {q : AbsPath} (hq : q.text ≠ c.dir.text) :
    prepareCgroupFD c (elsewhere c q) req = .ok (some q.text) := by
  have hdir : (elsewhere c q).opens (openedPath c.dir.text []) =
      some "no such file".toList := by
    rw [openedPath_nil]
    exact if_pos rfl
  have hinit : (elsewhere c q).opens (openedPath (elsewhere c q).initCgroup []) = none := by
    have htext : openedPath (elsewhere c q).initCgroup [] = q.text := openedPath_nil q
    rw [htext]
    exact if_neg hq
  rw [prepareCgroupFD, hunified, Bool.not_true, if_neg Bool.false_ne_true,
    if_neg c.dir.text_ne_nil, hsub, subCgroup_of_accepted (accepted_nil c.dir)]
  dsimp only
  rw [openCgroup, hdir]
  dsimp only
  rw [if_neg (not_not.mpr rfl), if_neg (show (elsewhere c q).initCgroup ≠ [] from q.text_ne_nil),
    hinit]
  exact congrArg (fun t => Except.ok (some t)) (openedPath_nil q)

theorem prepareCgroupFD_smooth (hunified : c.unified = true) (hacc : Accepted c.dir (subV2 req)) :
    prepareCgroupFD c (smooth id List.Perm.refl) req =
      .ok (some (openedPath c.dir.text (subV2 req))) := by
  rw [prepareCgroupFD, hunified, Bool.not_true, if_neg Bool.false_ne_true,
    if_neg c.dir.text_ne_nil, subCgroup_of_accepted hacc]
  rfl

theorem exists_other (dir other : AbsPath) :
    ∃ q : AbsPath, q.text ≠ dir.text ∧ q.text ≠ other.text := by
  have hx : IsName ['x'] := by decide
  have hnames : ∀ name ∈ dir.names ++ other.names ++ [['x']], IsName name := by
    intro name hname
    rcases List.mem_append.mp hname with hname | hname
    · exact (List.mem_append.mp hname).elim (dir.isName name) (other.isName name)
    · rw [List.mem_singleton.mp hname]
      exact hx
  refine ⟨AbsPath.ofNames _ hnames, ?_, ?_⟩
  · intro heq
    have hlen := congrArg List.length (AbsPath.names_inj.mpr heq)
    simp only [AbsPath.names_ofNames, List.length_append, List.length_singleton] at hlen
    omega
  · intro heq
    have hlen := congrArg List.length (AbsPath.names_inj.mpr heq)
    simp only [AbsPath.names_ofNames, List.length_append, List.length_singleton] at hlen
    omega

theorem soundV2_of_guaranteed (hunified : c.unified = true) (hshape : Shape req)
    (h : Guaranteed c req) (p : Process) : SoundV2 c req := by
  have hplaced : ∀ (a : Answers) (dir : Text), a.before = none → a.after = none →
      a.cloneInto = none → prepareCgroupFD c a req = .ok (some dir) →
      ∀ e ∈ req, e.2 ≠ [] → dir = join c.dir.text e.2 := by
    intro a dir hbefore hafter hinto hdir e he hsub
    have hrun := start_into (p := p) hbefore hafter hinto hdir
    have hhonoured := h a p (by rw [hrun])
    rw [Honoured, if_pos hunified, hrun] at hhonoured
    exact (place_move_unified hunified dir _).symm.trans (hhonoured e he hsub)
  intro e he
  obtain ⟨ctrl, sub⟩ := e
  by_cases hsub : sub = []
  · exact .inl hsub
  by_cases hctrl : ctrl = []
  · subst hctrl
    obtain rfl := hshape.single sub he
    refine .inr ⟨rfl, ?_⟩
    by_cases hacc : Accepted c.dir sub
    · have hopened := hplaced _ _ rfl rfl rfl (prepareCgroupFD_smooth hunified hacc) _ he hsub
      exact .inr (openedPath_eq_iff.mp hopened)
    · exact .inl hacc
  · -- the path for the controller is not read: the run may end in any other directory
    obtain ⟨q, hdir, hwanted⟩ := exists_other c.dir (c.dir.joined sub)
    have hprepare := prepareCgroupFD_elsewhere hunified (subV2_named hshape he hctrl) hdir
    have hend := hplaced _ _ rfl rfl rfl hprepare _ he hsub
    rw [c.dir.joined_text] at hwanted
    exact absurd hend hwanted

theorem startWithCgroupFD_v1 (hv1 : c.unified = false) {useCgroupFD : Bool} {p₁ : Process}
    (h : (startWithCgroupFD c a req).exec p = (.ok useCgroupFD, p₁)) : useCgroupFD = false := by
  have hprepare : prepareCgroupFD c a req = .ok none := by
    rw [prepareCgroupFD, hv1]
    rfl
  rw [startWithCgroupFD, hprepare] at h
  dsimp only at h
  rw [startCommand] at h
  obtain ⟨_, p₂, -, hrest⟩ := Program.exec_bind_of_ok (congrArg Prod.fst h)
  rw [hrest] at h
  cases h
  rfl

theorem honouredV1_of_sound (hv1 : c.unified = false) (hroot : c.rootlessCgroups = false)
    (hshape : Shape req) (hsound : SoundV1 c req) (h : ((start c a req).exec p).1 = .ok ()) :
    HonouredV1 c req ((start c a req).exec p).2 := by
  obtain ⟨useCgroupFD, p₁, hclone, hadd⟩ := start_ok h
  obtain rfl := startWithCgroupFD_v1 hv1 hclone
  rw [addIntoCgroup, if_neg Bool.false_ne_true, hv1, if_neg Bool.false_ne_true] at hadd
  obtain ⟨hpermitted, p₂, dirs, hend, hdirs⟩ := addIntoCgroupV1_ok hroot hshape hadd
  refine ⟨hpermitted.known, ?_⟩
  intro ctrl dir sub hdir hasks
  rw [hend]
  refine place_moves_of_agree ((hdirs _).mpr ⟨ctrl, dir, hdir, .inl ⟨sub, hasks, rfl⟩⟩) ?_
  intro t ht hsame
  obtain ⟨ctrl', htarget⟩ := (hdirs t).mp ht
  exact hsound hpermitted ctrl dir sub ctrl' t hdir hasks htarget hsame

theorem soundV1_of_guaranteed (hv1 : c.unified = false) (hroot : c.rootlessCgroups = false)
    (hshape : Shape req) (h : Guaranteed c req) (p : Process) : SoundV1 c req := by
  intro hpermitted ctrl dir sub ctrl' t hdir hasks htarget hsame
  -- the run that writes the other directory last
  obtain ⟨e, dirs, hadd⟩ := addIntoCgroupV1_last (p := p) hroot hshape hpermitted htarget
  have hclone : (startWithCgroupFD c (smoothLast e) req).exec p = (.ok false, p) := by
    rw [startWithCgroupFD, prepareCgroupFD, hv1]
    rfl
  have hinto : (addIntoCgroup c (smoothLast e) false req).exec p =
      (.ok (), p.moves c (dirs ++ [t])) := by
    rw [addIntoCgroup, if_neg Bool.false_ne_true, hv1, if_neg Bool.false_ne_true]
    exact hadd
  have hrun := start_eq rfl rfl hclone hinto
  have hhonoured := h (smoothLast e) p (by rw [hrun])
  rw [Honoured, hv1, if_neg Bool.false_ne_true, hrun] at hhonoured
  have hplaced := hhonoured.placed ctrl dir sub hdir hasks
  rw [← hsame, place_moves_last] at hplaced
  exact hplaced

end Placement

def outside : Process where
  place _ := ['/']
  written := []

/-- Sub-cgroups of `runc exec`. -/
theorem exec_honours_iff (c : Cgroups) (hroot : c.rootlessCgroups = false)
    {args : List Text} {req : Paths} (hargs : getSubCgroupPaths args = .ok req) :
    Guaranteed c req ↔ Sound c req := by
  have hshape := getSubCgroupPaths_shape hargs
  cases hunified : c.unified with
  | true =>
    rw [Sound, if_pos hunified]
    refine ⟨fun h => soundV2_of_guaranteed hunified hshape h outside, ?_⟩
    intro hsound a p hrun
    rw [Honoured, if_pos hunified]
    exact honouredV2_of_sound hunified hroot hshape hsound hrun
  | false =>
    rw [Sound, hunified, if_neg Bool.false_ne_true]
    refine ⟨fun h => soundV1_of_guaranteed hunified hroot hshape h outside, ?_⟩
    intro hsound a p hrun
    rw [Honoured, hunified, if_neg Bool.false_ne_true]
    exact honouredV1_of_sound hunified hroot hshape hsound hrun

def hostV2 : Cgroups where
  unified := true
  systemd := false
  rootlessCgroups := false
  path := []
  dirs := []
  dirs_nodup := List.nodup_nil
  dir := ab
  hierarchy _ := 0
  hierarchy_unified _ _ _ := rfl

def hostV1 : Cgroups where
  unified := false
  systemd := false
  rootlessCgroups := false
  path := []
  dirs := [("cpu".toList, ab), ("cpuacct".toList, ab)]
  dirs_nodup := by decide
  dir := ab
  hierarchy _ := 0
  hierarchy_unified _ _ _ := rfl

theorem getSubCgroupPaths_foo :
    getSubCgroupPaths ["foo".toList] = .ok [([], "foo".toList)] :=
  rfl

theorem soundV2_foo :
    SoundV2 hostV2 [([], "foo".toList)] := by
  decide

theorem exec_honours_foo :
    hostV2.rootlessCgroups = false ∧
      getSubCgroupPaths ["foo".toList] = .ok [([], "foo".toList)] ∧
      Guaranteed hostV2 [([], "foo".toList)] :=
  ⟨rfl, getSubCgroupPaths_foo, (exec_honours_iff hostV2 rfl getSubCgroupPaths_foo).mpr soundV2_foo⟩

theorem exec_misplaced :
    (getSubCgroupPaths ["cpu:foo".toList] = .ok [("cpu".toList, "foo".toList)] ∧
      ((start hostV2 (smooth id List.Perm.refl) [("cpu".toList, "foo".toList)]).exec
        outside).1 = .ok () ∧
      ((start hostV2 (smooth id List.Perm.refl) [("cpu".toList, "foo".toList)]).exec
        outside).2.place 0 = "/a/b".toList) ∧
    (getSubCgroupPaths ["../b/c".toList] = .ok [([], "../b/c".toList)] ∧
      join ab.text "../b/c".toList = "/a/b/c".toList ∧
      ((start hostV2 (smooth id List.Perm.refl) [([], "../b/c".toList)]).exec
        outside).1 = .ok () ∧
      ((start hostV2 (smooth id List.Perm.refl) [([], "../b/c".toList)]).exec
        outside).2.place 0 = "/a/b/b/c".toList) ∧
    (((start hostV1 (smooth id List.Perm.refl) [("cpu".toList, "foo".toList)]).exec
        outside).1 = .ok () ∧
      ((start hostV1 (smooth id List.Perm.refl) [("cpu".toList, "foo".toList)]).exec
        outside).2.place 0 = "/a/b".toList) :=
  ⟨⟨rfl, rfl, rfl⟩, ⟨rfl, rfl, rfl, rfl⟩, ⟨rfl, rfl⟩⟩

end Runc.Exec
