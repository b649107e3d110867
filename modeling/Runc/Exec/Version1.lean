import Runc.Exec.Request

/-!
# Sub-cgroups on cgroup version 1

There the process is written to a directory for each controller, in the order of a loop
over a map.  Controllers that are mounted together share a hierarchy, and in a hierarchy
the last write decides.
-/

namespace Runc.Exec

open Lib
open Lib.Path

section Version1

variable {c : Cgroups} {a : Answers} {req : Paths} {p : Process}

def Process.moves (c : Cgroups) (p : Process) (dirs : List Text) : Process :=
  dirs.foldl (fun p dir => p.move c dir) p

theorem place_move_self (dir : Text) (p : Process) :
    (p.move c dir).place (c.hierarchy dir) = dir :=
  if_pos rfl

theorem place_moves_last (p : Process) (dirs : List Text) (dir : Text) :
    (p.moves c (dirs ++ [dir])).place (c.hierarchy dir) = dir := by
  rw [Process.moves, List.foldl_append]
  exact place_move_self dir _

variable {dir : Text}

theorem place_moves_keep {dirs : List Text}
    (hagree : ∀ d ∈ dirs, c.hierarchy d = c.hierarchy dir → d = dir)
    (hp : p.place (c.hierarchy dir) = dir) : (p.moves c dirs).place (c.hierarchy dir) = dir := by
  induction dirs generalizing p with
  | nil => exact hp
  | cons d rest ih =>
    refine ih (fun e he => hagree e (List.mem_cons_of_mem d he)) ?_
    by_cases hd : c.hierarchy dir = c.hierarchy d
    · obtain rfl := hagree d List.mem_cons_self hd.symm
      exact place_move_self d p
    · exact (if_neg hd).trans hp

theorem place_moves_of_agree {dirs : List Text} (hmem : dir ∈ dirs)
    (hagree : ∀ d ∈ dirs, c.hierarchy d = c.hierarchy dir → d = dir) :
    (p.moves c dirs).place (c.hierarchy dir) = dir := by
  obtain ⟨before, after, rfl⟩ := List.append_of_mem hmem
  have hsplit : p.moves c (before ++ dir :: after) =
      ((p.moves c before).move c dir).moves c after := by
    rw [Process.moves, List.foldl_append]
    rfl
  rw [hsplit]
  refine place_moves_keep (fun d hd => hagree d ?_) (place_move_self dir _)
  exact List.mem_append_right before (List.mem_cons_of_mem dir hd)

variable {base sub : Text}

theorem eq_join_of_ok {path : Text} (h : subCgroup base sub = .ok path) : path = join base sub := by
  rw [subCgroup] at h
  split at h
  · exact (Except.ok.inj h).symm
  · cases h

theorem exec_writeCgroupProc (dir : Text) (p : Process) :
    (writeCgroupProc c a dir).exec p =
      match writeError a p.written dir with
      | none => (.ok (), p.move c dir)
      | some err => (.error err, p) := by
  rw [writeCgroupProc, Program.exec_bind, Program.exec_get]
  dsimp only
  rw [Program.exec_bind]
  cases writeError a p.written dir with
  | none => rfl
  | some err => rfl

variable {p' : Process}

theorem writeCgroupProc_ok (h : (writeCgroupProc c a dir).exec p = (.ok (), p')) :
    p' = p.move c dir := by
  rw [exec_writeCgroupProc] at h
  cases hwrite : writeError a p.written dir with
  | none =>
    rw [hwrite] at h
    exact (congrArg Prod.snd h).symm
  | some err =>
    rw [hwrite] at h
    cases h

theorem exec_orRootless (hroot : c.rootlessCgroups = false) {m : Op Unit} :
    (orRootless c a m).exec p = (.ok (), p') ↔ m.exec p = (.ok (), p') := by
  rw [orRootless, Program.exec_tryCatch]
  rcases hm : m.exec p with ⟨err | r, s⟩
  · dsimp only
    rw [hroot, if_neg Bool.false_ne_true, Program.exec_throw]
    constructor
    · intro h
      cases h
    · intro h
      cases h
  · exact Iff.rfl

variable {m : Paths}

theorem writePaths_ok (hroot : c.rootlessCgroups = false)
    (h : (writePaths c a m).exec p = (.ok (), p')) : p' = p.moves c (m.map Prod.snd) := by
  induction m generalizing p with
  | nil => exact (congrArg Prod.snd h).symm
  | cons e rest ih =>
    rw [writePaths] at h
    obtain ⟨_, p₁, hwrite, hrest⟩ := Program.exec_bind_of_ok (congrArg Prod.fst h)
    rw [hrest] at h
    obtain rfl := writeCgroupProc_ok ((exec_orRootless hroot).mp hwrite)
    exact ih h

theorem exec_writeOrSkip (hroot : c.rootlessCgroups = false) {skip : Bool} (h : Program.exec
      (tryCatch (do writeCgroupProc c a dir; pure false) fun err =>
        if isIgnorableError c a err && c.path = [] then pure true else throw err) p =
      (.ok skip, p')) : skip = false ∧ p' = p.move c dir := by
  rw [Program.exec_tryCatch, Program.exec_bind] at h
  rcases hwrite : (writeCgroupProc c a dir).exec p with ⟨err | r, p₁⟩
  · rw [hwrite] at h
    dsimp only at h
    rw [isIgnorableError, hroot, Bool.false_and, Bool.false_and, if_neg Bool.false_ne_true] at h
    cases h
  · rw [hwrite] at h
    cases h
    exact ⟨rfl, writeCgroupProc_ok hwrite⟩

theorem fsAddPid_ok (hroot : c.rootlessCgroups = false)
    (h : (fsAddPid c a sub m false).exec p = (.ok (), p')) :
    (∀ e ∈ m, ∃ path, subCgroup e.2 sub = .ok path) ∧
      p' = p.moves c (m.map fun e => join e.2 sub) := by
  induction m generalizing p with
  | nil => exact ⟨fun e he => absurd he List.not_mem_nil, (congrArg Prod.snd h).symm⟩
  | cons e rest ih =>
    obtain ⟨ctrl, dir⟩ := e
    rw [fsAddPid] at h
    cases hpath : subCgroup dir sub with
    | error err =>
      rw [hpath] at h
      cases h
    | ok path =>
      rw [hpath] at h
      obtain ⟨skip, p₁, hwrite, hrest⟩ := Program.exec_bind_of_ok (congrArg Prod.fst h)
      rw [hrest] at h
      obtain ⟨rfl, rfl⟩ := exec_writeOrSkip hroot hwrite
      obtain ⟨hacc, hp⟩ := ih h
      refine ⟨?_, by rw [hp, eq_join_of_ok hpath]; rfl⟩
      intro e he
      rcases List.mem_cons.mp he with rfl | he
      · exact ⟨path, hpath⟩
      · exact hacc e he

variable {ctrl : Text}

theorem value_unique {x y : Text} (hm : (m.map Prod.fst).Nodup)
    (hx : (ctrl, x) ∈ m) (hy : (ctrl, y) ∈ m) : x = y :=
  congrArg Prod.snd (List.inj_on_of_nodup_map hm hx hy rfl)

theorem mem_of_lookup (h : m.lookup ctrl = some base) : (ctrl, base) ∈ m := by
  obtain ⟨before, after, rfl, -⟩ := List.lookup_eq_some_iff.mp h
  exact List.mem_append_right before List.mem_cons_self

theorem lookup_of_mem (hm : (m.map Prod.fst).Nodup) (h : (ctrl, base) ∈ m) :
    m.lookup ctrl = some base := by
  cases hlookup : m.lookup ctrl with
  | none =>
    have hne := List.lookup_eq_none_iff.mp hlookup (ctrl, base) h
    simp at hne
  | some other => rw [value_unique hm h (mem_of_lookup hlookup)]

theorem setPath_keys (ctrl path : Text) (m : Paths) :
    (setPath ctrl path m).map Prod.fst = m.map Prod.fst := by
  rw [setPath, List.map_map]
  refine List.map_congr_left ?_
  intro e _
  rw [Function.comp_apply]
  split
  · rename_i he
    exact he.symm
  · rfl

variable {k t : Text}

theorem mem_setPath {path : Text} :
    (k, t) ∈ setPath ctrl path m ↔
      (k ≠ ctrl ∧ (k, t) ∈ m) ∨ (k = ctrl ∧ t = path ∧ ∃ d, (ctrl, d) ∈ m) := by
  rw [setPath, List.mem_map]
  constructor
  · rintro ⟨⟨k', d⟩, hmem, heq⟩
    split at heq
    · rename_i hk
      cases heq
      exact .inr ⟨rfl, rfl, d, hk ▸ hmem⟩
    · rename_i hk
      cases heq
      exact .inl ⟨hk, hmem⟩
  · rintro (⟨hk, hmem⟩ | ⟨rfl, rfl, d, hmem⟩)
    · exact ⟨(k, t), hmem, if_neg hk⟩
    · exact ⟨(k, d), hmem, if_pos rfl⟩

/-- The entry that a map comes to after the sub paths of `r` are joined to those of `m`. -/
def Resolved (r m : Paths) (k t : Text) : Prop :=
  ∃ d, (k, d) ∈ m ∧
    ((∃ sub, (k, sub) ∈ r ∧ t = join d sub) ∨ ((∀ sub, (k, sub) ∉ r) ∧ t = d))

variable {r : Paths}

theorem resolved_cons (hr : (((ctrl, sub) :: r).map Prod.fst).Nodup) (hm : (m.map Prod.fst).Nodup)
    (hbase : (ctrl, base) ∈ m) :
    Resolved r (setPath ctrl (join base sub) m) k t ↔ Resolved ((ctrl, sub) :: r) m k t := by
  have hnot : ∀ s, (ctrl, s) ∉ r :=
    fun s hs => (List.nodup_cons.mp hr).1 (List.mem_map.mpr ⟨(ctrl, s), hs, rfl⟩)
  by_cases hk : k = ctrl
  · subst hk
    constructor
    · rintro ⟨d, hd, hcase⟩
      rcases mem_setPath.mp hd with ⟨hne, -⟩ | ⟨-, rfl, -⟩
      · exact absurd rfl hne
      · rcases hcase with ⟨s, hs, -⟩ | ⟨-, rfl⟩
        · exact absurd hs (hnot s)
        · exact ⟨base, hbase, .inl ⟨sub, List.mem_cons_self, rfl⟩⟩
    · rintro ⟨d, hd, hcase⟩
      obtain rfl := value_unique hm hd hbase
      refine ⟨join d sub, mem_setPath.mpr (.inr ⟨rfl, rfl, d, hd⟩), .inr ⟨hnot, ?_⟩⟩
      rcases hcase with ⟨s, hs, rfl⟩ | ⟨hall, -⟩
      · rcases List.mem_cons.mp hs with heq | hs
        · cases heq
          rfl
        · exact absurd hs (hnot s)
      · exact absurd List.mem_cons_self (hall sub)
  · have hmem : ∀ d, (k, d) ∈ setPath ctrl (join base sub) m ↔ (k, d) ∈ m := by
      intro d
      rw [mem_setPath]
      exact ⟨fun h => h.elim And.right fun h => absurd h.1 hk, fun h => .inl ⟨hk, h⟩⟩
    have hsub : ∀ s, (k, s) ∈ (ctrl, sub) :: r ↔ (k, s) ∈ r := by
      intro s
      rw [List.mem_cons]
      exact ⟨fun h => h.resolve_left fun heq => hk (congrArg Prod.fst heq), .inr⟩
    simp only [Resolved, hmem, hsub]

theorem resolvePaths_ok {out : Paths} (hr : (r.map Prod.fst).Nodup)
    (hm : (m.map Prod.fst).Nodup) (h : resolvePaths r m = .ok out) :
    (out.map Prod.fst = m.map Prod.fst ∧ ∀ k t, (k, t) ∈ out ↔ Resolved r m k t) ∧
      ∀ e ∈ r, ∃ d path, (e.1, d) ∈ m ∧ subCgroup d e.2 = .ok path := by
  induction r generalizing m with
  | nil =>
    cases h
    refine ⟨⟨rfl, fun k t => ⟨fun hmem => ?_, ?_⟩⟩, fun e he => absurd he List.not_mem_nil⟩
    · exact ⟨t, hmem, .inr ⟨fun _ => List.not_mem_nil, rfl⟩⟩
    · rintro ⟨d, hd, ⟨sub, hsub, -⟩ | ⟨-, rfl⟩⟩
      · exact absurd hsub List.not_mem_nil
      · exact hd
  | cons e r ih =>
    obtain ⟨ctrl, sub⟩ := e
    rw [resolvePaths] at h
    split at h
    · cases h
    · rename_i base hlookup
      have hbase := mem_of_lookup hlookup
      split at h
      · cases h
      · rename_i path hpath
        obtain rfl := eq_join_of_ok hpath
        have hkeys := setPath_keys ctrl (join base sub) m
        obtain ⟨⟨hout, hmem⟩, hacc⟩ := ih (List.nodup_cons.mp hr).2 (hkeys ▸ hm) h
        refine ⟨⟨hout.trans hkeys, fun k t => (hmem k t).trans (resolved_cons hr hm hbase)⟩, ?_⟩
        intro e he
        rcases List.mem_cons.mp he with rfl | he
        · exact ⟨base, _, hbase, hpath⟩
        · obtain ⟨d, path, hd, hok⟩ := hacc e he
          rcases mem_setPath.mp hd with ⟨-, hd⟩ | ⟨heq, -, -⟩
          · exact ⟨d, path, hd, hok⟩
          · exact absurd (List.mem_map.mpr ⟨e, he, heq⟩) (List.nodup_cons.mp hr).1

def Target (c : Cgroups) (req : Paths) (ctrl t : Text) : Prop :=
  ∃ dir, (ctrl, dir) ∈ c.dirs ∧
    ((∃ sub, Asks req ctrl sub ∧ t = join dir.text sub) ∨
      ((∀ sub, ¬ Asks req ctrl sub) ∧ t = dir.text))

structure PermittedV1 (c : Cgroups) (req : Paths) : Prop where
  known : ∀ e ∈ req, e.1 ≠ [] → ∃ dir, (e.1, dir) ∈ c.dirs
  accepted : ∀ ctrl dir sub, (ctrl, dir) ∈ c.dirs → Asks req ctrl sub → Accepted dir sub
  unit : c.systemd = true → ∀ sub, ([], sub) ∈ req →
    absSubcgroup sub = clean (absSubcgroup sub)

theorem mem_paths : (k, t) ∈ c.paths ↔ ∃ dir, (k, dir) ∈ c.dirs ∧ t = dir.text := by
  rw [Cgroups.paths, List.mem_map]
  constructor
  · rintro ⟨⟨k', dir⟩, hmem, heq⟩
    cases heq
    exact ⟨dir, hmem, rfl⟩
  · rintro ⟨dir, hmem, rfl⟩
    exact ⟨(k, dir), hmem, rfl⟩

theorem paths_nodup : (c.paths.map Prod.fst).Nodup := by
  have hkeys : c.paths.map Prod.fst = c.dirs.map Prod.fst := by
    rw [Cgroups.paths, List.map_map]
    rfl
  rw [hkeys]
  exact c.dirs_nodup

theorem asks_single {s : Text} : Asks [([], sub)] ctrl s ↔ s = sub := by
  constructor
  · rintro (h | h)
    · exact congrArg Prod.snd (List.mem_singleton.mp h)
    · exact congrArg Prod.snd (List.mem_singleton.mp h)
  · rintro rfl
    exact .inl List.mem_cons_self

theorem not_asks_nil (ctrl s : Text) : ¬ Asks [] ctrl s :=
  fun h => h.elim List.not_mem_nil List.not_mem_nil

theorem asks_named (h : req.lookup [] = none) {s : Text} : Asks req ctrl s ↔ (ctrl, s) ∈ req := by
  refine ⟨fun hasks => hasks.resolve_left fun hmem => ?_, .inr⟩
  have hne := List.lookup_eq_none_iff.mp h ([], s) hmem
  simp at hne

theorem target_single : (∃ k, Target c [([], sub)] k t) ↔ ∃ e ∈ c.paths, t = join e.2 sub := by
  constructor
  · rintro ⟨k, dir, hmem, ⟨s, hs, rfl⟩ | ⟨hall, -⟩⟩
    · rw [asks_single.mp hs]
      exact ⟨(k, dir.text), mem_paths.mpr ⟨dir, hmem, rfl⟩, rfl⟩
    · exact absurd (asks_single.mpr rfl) (hall sub)
  · rintro ⟨⟨k, d⟩, hmem, rfl⟩
    obtain ⟨dir, hdir, rfl⟩ := mem_paths.mp hmem
    exact ⟨k, dir, hdir, .inl ⟨sub, asks_single.mpr rfl, rfl⟩⟩

theorem target_nil : (∃ k, Target c [] k t) ↔ ∃ e ∈ c.paths, t = join e.2 [] := by
  constructor
  · rintro ⟨k, dir, hmem, ⟨s, hs, -⟩ | ⟨-, rfl⟩⟩
    · exact absurd hs (not_asks_nil k s)
    · exact ⟨(k, dir.text), mem_paths.mpr ⟨dir, hmem, rfl⟩, (join_nil dir).symm⟩
  · rintro ⟨⟨k, d⟩, hmem, rfl⟩
    obtain ⟨dir, hdir, rfl⟩ := mem_paths.mp hmem
    exact ⟨k, dir, hdir, .inr ⟨not_asks_nil k, join_nil dir⟩⟩

theorem target_named (h : req.lookup [] = none) (hr : r.Perm req) :
    Resolved r c.paths k t ↔ Target c req k t := by
  simp only [Resolved, Target, asks_named h, hr.mem_iff, mem_paths]
  constructor
  · rintro ⟨d, ⟨dir, hdir, rfl⟩, hcase⟩
    exact ⟨dir, hdir, hcase⟩
  · rintro ⟨dir, hdir, hcase⟩
    exact ⟨dir.text, ⟨dir, hdir, rfl⟩, hcase⟩

theorem addPidV1_ok (hroot : c.rootlessCgroups = false)
    (h : (addPidV1 c a sub).exec p = (.ok (), p')) :
    (c.systemd = true → absSubcgroup sub = clean (absSubcgroup sub)) ∧
      (∀ ctrl dir, (ctrl, dir) ∈ c.dirs → Accepted dir sub) ∧
      ∃ p₁ : Process, p' = p₁.moves c ((a.order c.paths).map fun e => join e.2 sub) := by
  rw [addPidV1] at h
  obtain ⟨_, p₁, hattach, hrest⟩ := Program.exec_bind_of_ok (congrArg Prod.fst h)
  rw [hrest] at h
  obtain ⟨hacc, hp⟩ := fsAddPid_ok hroot h
  refine ⟨?_, ?_, p₁, hp⟩
  · intro hsystemd
    by_contra hunit
    rw [hsystemd, Program.onlyIf_true, attachV1, unitSub, if_pos hunit] at hattach
    cases hattach
  · intro ctrl dir hmem
    have hentry : (ctrl, dir.text) ∈ a.order c.paths :=
      (a.order_perm c.paths).mem_iff.mpr (mem_paths.mpr ⟨dir, hmem, rfl⟩)
    obtain ⟨path, hpath⟩ := hacc _ hentry
    exact (subCgroup_ok_iff.mp hpath).1

theorem mem_map_order :
    t ∈ ((a.order c.paths).map fun e => join e.2 sub) ↔ ∃ e ∈ c.paths, t = join e.2 sub := by
  rw [List.mem_map]
  constructor
  · rintro ⟨e, he, rfl⟩
    exact ⟨e, (a.order_perm c.paths).mem_iff.mp he, rfl⟩
  · rintro ⟨e, he, rfl⟩
    exact ⟨e, (a.order_perm c.paths).mem_iff.mpr he, rfl⟩

theorem addByController_ok (hroot : c.rootlessCgroups = false) (hshape : Shape req)
    (hnamed : req.lookup [] = none) (h : (addByController c a req).exec p = (.ok (), p')) :
    PermittedV1 c req ∧
      ∃ dirs, p' = p.moves c dirs ∧ ∀ t, t ∈ dirs ↔ ∃ k, Target c req k t := by
  rw [addByController] at h
  split at h
  · cases h
  · rename_i out hout
    have hperm := a.requestOrder_perm req
    obtain ⟨⟨-, hmem⟩, hacc⟩ :=
      resolvePaths_ok ((hperm.map Prod.fst).nodup_iff.mpr hshape.nodup) paths_nodup hout
    have hentry : ∀ e ∈ req, ∃ dir, (e.1, dir) ∈ c.dirs ∧ Accepted dir e.2 := by
      intro e he
      obtain ⟨d, path, hd, hok⟩ := hacc e (hperm.mem_iff.mpr he)
      obtain ⟨dir, hdir, rfl⟩ := mem_paths.mp hd
      exact ⟨dir, hdir, (subCgroup_ok_iff.mp hok).1⟩
    refine ⟨⟨?_, ?_, ?_⟩, _, writePaths_ok hroot h, ?_⟩
    · intro e he _
      obtain ⟨dir, hdir, -⟩ := hentry e he
      exact ⟨dir, hdir⟩
    · intro ctrl dir sub hdir hasks
      obtain ⟨dir', hdir', hok⟩ := hentry (ctrl, sub) ((asks_named hnamed).mp hasks)
      have hsame := List.inj_on_of_nodup_map c.dirs_nodup hdir hdir' rfl
      cases hsame
      exact hok
    · intro _ sub hsub
      exact nomatch hnamed.symm.trans (lookup_of_mem hshape.nodup hsub)
    · intro t
      rw [List.mem_map]
      constructor
      · rintro ⟨⟨k, t'⟩, he, rfl⟩
        exact ⟨k, (target_named hnamed hperm).mp
          ((hmem k t').mp ((a.order_perm out).mem_iff.mp he))⟩
      · rintro ⟨k, htarget⟩
        have hin := (hmem k t).mpr ((target_named hnamed hperm).mpr htarget)
        exact ⟨(k, t), (a.order_perm out).mem_iff.mpr hin, rfl⟩

theorem addIntoCgroupV1_ok (hroot : c.rootlessCgroups = false) (hshape : Shape req)
    (h : (addIntoCgroupV1 c a req).exec p = (.ok (), p')) :
    PermittedV1 c req ∧ ∃ (p₁ : Process) (dirs : List Text),
      p' = p₁.moves c dirs ∧ ∀ t, t ∈ dirs ↔ ∃ k, Target c req k t := by
  rw [addIntoCgroupV1] at h
  split at h
  · rename_i sub hsub
    obtain rfl := hshape.single sub (mem_of_lookup hsub)
    obtain ⟨hunit, hacc, p₁, hp⟩ := addPidV1_ok hroot ((exec_orRootless hroot).mp h)
    refine ⟨⟨?_, ?_, ?_⟩, p₁, _, hp, fun t => mem_map_order.trans target_single.symm⟩
    · intro e he hne
      rw [List.mem_singleton.mp he] at hne
      exact absurd rfl hne
    · intro ctrl dir s hdir hs
      rw [asks_single.mp hs]
      exact hacc ctrl dir hdir
    · intro hsystemd s hs
      cases List.mem_singleton.mp hs
      exact hunit hsystemd
  · rename_i hnamed
    split at h
    · rename_i hnil
      subst hnil
      obtain ⟨-, -, p₁, hp⟩ := addPidV1_ok hroot ((exec_orRootless hroot).mp h)
      refine ⟨⟨?_, ?_, ?_⟩, p₁, _, hp, fun t => mem_map_order.trans target_nil.symm⟩
      · exact fun e he => absurd he List.not_mem_nil
      · exact fun ctrl dir s _ hs => absurd hs (not_asks_nil ctrl s)
      · exact fun _ s hs => absurd hs List.not_mem_nil
    · obtain ⟨hperm, dirs, hp, hdirs⟩ := addByController_ok hroot hshape hnamed h
      exact ⟨hperm, p, dirs, hp, hdirs⟩

section Smooth

variable {order : Paths → Paths} {horder : ∀ m, (order m).Perm m}

theorem exec_writeCgroupProc_smooth {dir : Text} (h : dir ≠ []) :
    (writeCgroupProc c (smooth order horder) dir).exec p = (.ok (), p.move c dir) := by
  have hwrite : writeError (smooth order horder) p.written dir = none := by
    rw [writeError, if_neg h]
    rfl
  rw [exec_writeCgroupProc, hwrite]

variable {m : Paths}

theorem writePaths_smooth (h : ∀ e ∈ m, e.2 ≠ []) :
    (writePaths c (smooth order horder) m).exec p =
      (.ok (), p.moves c (m.map Prod.snd)) := by
  induction m generalizing p with
  | nil => rfl
  | cons e rest ih =>
    rw [writePaths, Program.exec_bind, orRootless, Program.exec_tryCatch,
      exec_writeCgroupProc_smooth (h e List.mem_cons_self)]
    exact ih fun e he => h e (List.mem_cons_of_mem _ he)

theorem fsAddPid_smooth {sub : Text}
    (h : ∀ e ∈ m, ∃ dir : AbsPath, e.2 = dir.text ∧ Accepted dir sub) :
    (fsAddPid c (smooth order horder) sub m false).exec p =
      (.ok (), p.moves c (m.map fun e => join e.2 sub)) := by
  induction m generalizing p with
  | nil => rfl
  | cons e rest ih =>
    obtain ⟨ctrl, d⟩ := e
    obtain ⟨dir, hd, hacc⟩ := h _ List.mem_cons_self
    obtain rfl : d = dir.text := hd
    have hne : join dir.text sub ≠ [] := by
      rw [← dir.joined_text]
      exact (dir.joined sub).text_ne_nil
    rw [fsAddPid, subCgroup_of_accepted hacc]
    dsimp only
    rw [Program.exec_bind, Program.exec_tryCatch, Program.exec_bind,
      exec_writeCgroupProc_smooth hne]
    exact ih fun e he => h e (List.mem_cons_of_mem _ he)

theorem addPidV1_smooth {sub : Text}
    (hunit : c.systemd = true → absSubcgroup sub = clean (absSubcgroup sub))
    (hacc : ∀ ctrl dir, (ctrl, dir) ∈ c.dirs → Accepted dir sub) :
    (addPidV1 c (smooth order horder) sub).exec p =
      (.ok (), p.moves c ((order c.paths).map fun e => join e.2 sub)) := by
  have hattach :
      (Program.onlyIf c.systemd (attachV1 (smooth order horder) sub)).exec p = (.ok (), p) := by
    cases hs : c.systemd with
    | false => rfl
    | true =>
      rw [Program.onlyIf_true, attachV1, unitSub, if_neg (not_not.mpr (hunit hs))]
      rfl
  rw [addPidV1, Program.exec_bind, hattach]
  refine fsAddPid_smooth fun e he => ?_
  obtain ⟨dir, hdir, htext⟩ := mem_paths.mp ((horder c.paths).mem_iff.mp he)
  exact ⟨dir, htext, hacc e.1 dir hdir⟩

theorem resolvePaths_of_accepted {r : Paths} (hr : (r.map Prod.fst).Nodup)
    (hm : (m.map Prod.fst).Nodup)
    (h : ∀ e ∈ r, ∃ d path, (e.1, d) ∈ m ∧ subCgroup d e.2 = .ok path) :
    ∃ out, resolvePaths r m = .ok out := by
  induction r generalizing m with
  | nil => exact ⟨m, rfl⟩
  | cons e r ih =>
    obtain ⟨ctrl, sub⟩ := e
    obtain ⟨base, path, hbase, hok⟩ := h _ List.mem_cons_self
    have hbase' : (ctrl, base) ∈ m := hbase
    have hok' : subCgroup base sub = .ok path := hok
    rw [resolvePaths, lookup_of_mem hm hbase']
    dsimp only
    rw [hok']
    refine ih (List.nodup_cons.mp hr).2 ((setPath_keys ctrl path m).symm ▸ hm) ?_
    intro e he
    obtain ⟨d, path', hd, hok⟩ := h e (List.mem_cons_of_mem _ he)
    have hne : e.1 ≠ ctrl := fun heq => (List.nodup_cons.mp hr).1 (List.mem_map.mpr ⟨e, he, heq⟩)
    exact ⟨d, path', mem_setPath.mpr (.inl ⟨hne, hd⟩), hok⟩

end Smooth

theorem entryLast_of_mem {e : Text × Text} (h : e ∈ m) : entryLast e m = m.erase e ++ [e] :=
  if_pos h

theorem target_ne_nil (h : Target c req k t) : t ≠ [] := by
  obtain ⟨dir, -, ⟨sub, -, rfl⟩ | ⟨-, rfl⟩⟩ := h
  · rw [← dir.joined_text]
    exact (dir.joined sub).text_ne_nil
  · exact dir.text_ne_nil

theorem addPidV1_last {dir : AbsPath}
    (hunit : c.systemd = true → absSubcgroup sub = clean (absSubcgroup sub))
    (hacc : ∀ ctrl dir, (ctrl, dir) ∈ c.dirs → Accepted dir sub) (hdir : (ctrl, dir) ∈ c.dirs) :
    ∃ dirs, (addPidV1 c (smoothLast (ctrl, dir.text)) sub).exec p =
      (.ok (), p.moves c (dirs ++ [join dir.text sub])) := by
  have hentry : (ctrl, dir.text) ∈ c.paths := mem_paths.mpr ⟨dir, hdir, rfl⟩
  refine ⟨(c.paths.erase (ctrl, dir.text)).map fun e => join e.2 sub,
    (addPidV1_smooth hunit hacc).trans ?_⟩
  rw [entryLast_of_mem hentry, List.map_append]
  rfl

theorem addByController_last (hshape : Shape req) (hnamed : req.lookup [] = none)
    (hpermitted : PermittedV1 c req) (htarget : Target c req k t) :
    ∃ dirs, (addByController c (smoothLast (k, t)) req).exec p =
      (.ok (), p.moves c (dirs ++ [t])) := by
  have hacc : ∀ e ∈ req, ∃ d path, (e.1, d) ∈ c.paths ∧ subCgroup d e.2 = .ok path := by
    intro e he
    have hne : e.1 ≠ [] := by
      intro hnil
      have hmem : ([], e.2) ∈ req := hnil ▸ he
      exact nomatch hnamed.symm.trans (lookup_of_mem hshape.nodup hmem)
    obtain ⟨dir, hdir⟩ := hpermitted.known e he hne
    exact ⟨dir.text, _, mem_paths.mpr ⟨dir, hdir, rfl⟩,
      subCgroup_of_accepted (hpermitted.accepted e.1 dir e.2 hdir (.inr he))⟩
  obtain ⟨out, hout⟩ := resolvePaths_of_accepted hshape.nodup paths_nodup hacc
  obtain ⟨⟨-, hmem⟩, -⟩ := resolvePaths_ok hshape.nodup paths_nodup hout
  have hout_iff : ∀ k t, (k, t) ∈ out ↔ Target c req k t :=
    fun k t => (hmem k t).trans (target_named hnamed (List.Perm.refl req))
  have hrun : resolvePaths ((smoothLast (k, t)).requestOrder req) c.paths = .ok out := hout
  rw [addByController, hrun]
  have hne : ∀ e ∈ entryLast (k, t) out, e.2 ≠ [] := by
    intro e he
    exact target_ne_nil ((hout_iff e.1 e.2).mp ((entryLast_perm (k, t) out).mem_iff.mp he))
  refine ⟨(out.erase (k, t)).map Prod.snd, (writePaths_smooth hne).trans ?_⟩
  rw [entryLast_of_mem ((hout_iff k t).mpr htarget), List.map_append]
  rfl

theorem addIntoCgroupV1_last (hroot : c.rootlessCgroups = false) (hshape : Shape req)
    (hpermitted : PermittedV1 c req) (htarget : Target c req k t) :
    ∃ e dirs, (addIntoCgroupV1 c (smoothLast e) req).exec p =
      (.ok (), p.moves c (dirs ++ [t])) := by
  cases hlookup : req.lookup [] with
  | some sub =>
    simp only [addIntoCgroupV1, hlookup]
    obtain rfl := hshape.single sub (mem_of_lookup hlookup)
    obtain ⟨dir, hdir, ⟨s, hs, rfl⟩ | ⟨hall, -⟩⟩ := htarget
    · obtain rfl := asks_single.mp hs
      obtain ⟨dirs, hrun⟩ := addPidV1_last (p := p)
        (fun hsystemd => hpermitted.unit hsystemd s List.mem_cons_self)
        (fun ctrl dir hdir => hpermitted.accepted ctrl dir s hdir (asks_single.mpr rfl)) hdir
      exact ⟨_, dirs, (exec_orRootless hroot).mpr hrun⟩
    · exact absurd (asks_single.mpr rfl) (hall sub)
  | none =>
    by_cases hnil : req = []
    · subst hnil
      simp only [addIntoCgroupV1, hlookup, if_true]
      obtain ⟨dir, hdir, ⟨s, hs, -⟩ | ⟨-, rfl⟩⟩ := htarget
      · exact absurd hs (not_asks_nil k s)
      · obtain ⟨dirs, hrun⟩ := addPidV1_last (p := p) (fun _ => by decide)
          (fun _ dir _ => accepted_nil dir) hdir
        rw [join_nil] at hrun
        exact ⟨_, dirs, (exec_orRootless hroot).mpr hrun⟩
    · simp only [addIntoCgroupV1, hlookup, if_neg hnil]
      obtain ⟨dirs, hrun⟩ := addByController_last (p := p) hshape hlookup hpermitted htarget
      exact ⟨(k, t), dirs, hrun⟩

end Version1

end Runc.Exec
