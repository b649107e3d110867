import Runc.Rootfs.ProcMount
import Runc.Rootfs.Syscalls

/-!
# Moving the root without `pivot_root`

`msMoveRoot` first masks every full mount of proc or sysfs that is not in the new root,
since a process could otherwise reach it.
-/

namespace Runc.Rootfs

open Lib
open Lib.Path
open Configs

inductive MoveErr
  | mountinfo (text : Text)
  | call (c : Call) (errno : Errno)
deriving DecidableEq

def must (kernel : Kernel) (c : Call) : Program Log MoveErr Unit := do
  match ← call kernel c with
  | none => pure ()
  | some errno => throw (.call c errno)

theorem exec_must (kernel : Kernel) (c : Call) (log : Log) :
    (must kernel c).exec log =
      ((match kernel log c with
        | none => .ok ()
        | some errno => .error (.call c errno)), log ++ [(c, kernel log c)]) := by
  rw [must, Program.exec_bind, exec_call]
  cases kernel log c <;> rfl

structure Info where
  root : Text
  fsType : Text
  mountpoint : AbsPath

def Info.skip (rootfs : Text) (info : Info) : Bool :=
  info.root ≠ ['/'] ||
    (info.fsType ≠ "proc".toList && info.fsType ≠ "sysfs".toList) ||
    rootfs.isPrefixOf info.mountpoint.text

def slave (p : Text) : Call :=
  .mount [] p [] (msSlave ||| msRec) []

def detach (p : Text) : Call :=
  .unmount p mntDetach

def cover (p : Text) : Call :=
  .mount "tmpfs".toList p "tmpfs".toList 0 []

def mask (kernel : Kernel) (p : Text) : Program Log MoveErr Unit := do
  match ← call kernel (slave p) with
  | some .enoent => pure ()
  | some errno => throw (.call (slave p) errno)
  | none =>
      match ← call kernel (detach p) with
      | none => pure ()
      | some errno =>
          if errno ≠ .einval ∧ errno ≠ .eperm then throw (.call (detach p) errno)
          else must kernel (cover p)

def maskAll (kernel : Kernel) : List Info → Program Log MoveErr Unit
  | [] => pure ()
  | info :: rest => do
      mask kernel info.mountpoint.text
      maskAll kernel rest

def chroot (kernel : Kernel) : Program Log MoveErr Unit := do
  must kernel (.chroot ['.'])
  must kernel (.chdir ['/'])

def msMoveRoot (kernel : Kernel) (table : Except Text (List Info)) (rootfs : Text) :
    Program Log MoveErr Unit :=
  match table with
  | .error err => throw (.mountinfo err)
  | .ok infos => do
      maskAll kernel (infos.filter fun info => !info.skip rootfs)
      must kernel (.mount rootfs ['/'] [] msMove [])
      chroot kernel

def maskCalls (p : Text) : List Call :=
  [slave p, detach p, cover p]

def Masked (log : Log) (p : Text) : Prop :=
  (detach p, none) ∈ log ∨ (cover p, none) ∈ log

def Gone (log : Log) (p : Text) : Prop :=
  (slave p, some Errno.enoent) ∈ log

def Touched (log : Log) (p : Text) : Prop :=
  ∃ entry ∈ log, entry.1 ∈ maskCalls p

/-- The log after a run from `log` that made the calls `new`, if the run went well
all of them with `Q`. -/
structure Adds (log : Log) (out : Except MoveErr Unit × Log) (c : Call → Prop)
    (Q : Log → Prop) (new : Log) : Prop where
  log_eq : out.2 = log ++ new
  calls : ∀ entry ∈ new, c entry.1
  ok : out.1 = .ok () → Q new

variable {p : Text} {log : Log}

theorem Masked.mono {log' : Log} (h : Masked log p) (hsub : log ⊆ log') : Masked log' p :=
  h.imp (fun hmem => hsub hmem) fun hmem => hsub hmem

theorem mask_adds (kernel : Kernel) (p : Text) (log : Log) :
    ∃ new, Adds log ((mask kernel p).exec log) (· ∈ maskCalls p)
      (fun new => Masked new p ∨ Gone new p) new := by
  rw [mask, Program.exec_bind, exec_call]
  cases hslave : kernel log (slave p) with
  | some errno =>
    refine ⟨[(slave p, some errno)], ?_⟩
    cases errno with
    | enoent => exact ⟨rfl, by simp [maskCalls], fun _ => .inr (by simp [Gone])⟩
    | einval | eperm | other n => exact ⟨rfl, by simp [maskCalls], fun h => nomatch h⟩
  | none =>
    simp only [Program.exec_bind, exec_call]
    cases hdetach : kernel (log ++ [(slave p, none)]) (detach p) with
    | none =>
      refine ⟨[(slave p, none), (detach p, none)], ?_⟩
      exact ⟨by simp, by simp [maskCalls], fun _ => .inl (.inl (by simp))⟩
    | some errno =>
      by_cases hfatal : errno ≠ .einval ∧ errno ≠ .eperm
      · refine ⟨[(slave p, none), (detach p, some errno)], ?_⟩
        simp only [if_pos hfatal]
        exact ⟨by simp, by simp [maskCalls], fun h => nomatch h⟩
      · simp only [if_neg hfatal, exec_must]
        cases hcover : kernel (log ++ [(slave p, none)] ++ [(detach p, some errno)]) (cover p) with
        | none =>
          refine ⟨[(slave p, none), (detach p, some errno), (cover p, none)], ?_⟩
          exact ⟨by simp, by simp [maskCalls], fun _ => .inl (.inr (by simp))⟩
        | some failed =>
          refine ⟨[(slave p, none), (detach p, some errno), (cover p, some failed)], ?_⟩
          exact ⟨by simp, by simp [maskCalls], fun h => nomatch h⟩

theorem maskAll_adds (kernel : Kernel) (infos : List Info) (log : Log) :
    ∃ new, Adds log ((maskAll kernel infos).exec log)
      (fun c => ∃ info ∈ infos, c ∈ maskCalls info.mountpoint.text)
      (fun new => ∀ info ∈ infos,
        Masked new info.mountpoint.text ∨ Gone new info.mountpoint.text) new := by
  induction infos generalizing log with
  | nil => exact ⟨[], ⟨by simp [maskAll], by simp, by simp⟩⟩
  | cons info infos ih =>
    obtain ⟨first, hfirst⟩ := mask_adds kernel info.mountpoint.text log
    rw [maskAll, Program.exec_bind]
    cases hrun : (mask kernel info.mountpoint.text).exec log with
    | mk result log' =>
      rw [hrun] at hfirst
      obtain rfl : log' = log ++ first := hfirst.log_eq
      have hcalls : ∀ entry ∈ first, ∃ i ∈ info :: infos, entry.1 ∈ maskCalls i.mountpoint.text :=
        fun entry hentry => ⟨info, List.mem_cons_self, hfirst.calls entry hentry⟩
      cases result with
      | error err => exact ⟨first, ⟨rfl, hcalls, fun h => nomatch h⟩⟩
      | ok u =>
        obtain ⟨rest, hrest⟩ := ih (log ++ first)
        refine ⟨first ++ rest, ⟨by rw [hrest.log_eq, List.append_assoc], ?_, ?_⟩⟩
        · intro entry hentry
          rcases List.mem_append.mp hentry with h | h
          · exact hcalls entry h
          · obtain ⟨i, hi, hcall⟩ := hrest.calls entry h
            exact ⟨i, List.mem_cons_of_mem _ hi, hcall⟩
        · intro hok i hi
          rcases List.mem_cons.mp hi with rfl | hi
          · exact (hfirst.ok rfl).imp (fun h => h.mono (List.subset_append_left _ _))
              fun h => List.mem_append_left _ h
          · exact (hrest.ok hok i hi).imp (fun h => h.mono (List.subset_append_right _ _))
              fun h => List.mem_append_right _ h

def Info.Full (info : Info) : Prop :=
  info.root = ['/'] ∧ (info.fsType = "proc".toList ∨ info.fsType = "sysfs".toList)

instance (info : Info) : Decidable info.Full :=
  inferInstanceAs (Decidable (_ ∧ _))

theorem skip_eq_false_iff (rootfs : AbsPath) (info : Info) :
    info.skip rootfs.text = false ↔
      info.Full ∧ ¬ (Within rootfs info.mountpoint ∨ Beside rootfs info.mountpoint) := by
  rw [← text_prefix_iff, ← List.isPrefixOf_iff_prefix, Info.skip, Info.Full]
  simp only [Bool.or_eq_false_iff, decide_eq_false_iff_not, Bool.and_eq_false_iff,
    not_not, Bool.not_eq_true]

def tailCalls (rootfs : Text) : List Call :=
  [.mount rootfs ['/'] [] msMove [], .chroot ['.'], .chdir ['/']]

variable {c : Call}

theorem tailCalls_not_mask {rootfs : Text} (h : c ∈ tailCalls rootfs) : c ∉ maskCalls p := by
  have hmove : msMove ≠ msSlave ||| msRec := by decide
  intro hmask
  simp only [tailCalls, maskCalls, List.mem_cons, List.not_mem_nil, or_false] at h hmask
  rcases h with rfl | rfl | rfl
  · rcases hmask with h | h | h
    · exact hmove (Call.mount.inj h).2.2.2.1
    · cases h
    · exact absurd (Call.mount.inj h).2.2.1 (by decide)
  · rcases hmask with h | h | h <;> cases h
  · rcases hmask with h | h | h <;> cases h

variable {kernel : Kernel}

theorem must_ok {log' : Log} {u : Unit} (h : (must kernel c).exec log = (.ok u, log')) :
    log' = log ++ [(c, none)] := by
  rw [exec_must] at h
  cases hanswer : kernel log c with
  | none =>
    rw [hanswer] at h
    exact (Prod.mk.inj h).2.symm
  | some errno =>
    rw [hanswer] at h
    cases h

theorem msMoveRoot_log {infos : List Info} {rootfs : Text}
    (h : ((msMoveRoot kernel (.ok infos) rootfs).exec []).1 = .ok ()) :
    ∃ new, ((msMoveRoot kernel (.ok infos) rootfs).exec []).2 =
        new ++ (tailCalls rootfs).map (·, none) ∧
      (∀ entry ∈ new, ∃ info ∈ infos, info.skip rootfs = false ∧
        entry.1 ∈ maskCalls info.mountpoint.text) ∧
      ∀ info ∈ infos, info.skip rootfs = false →
        Masked new info.mountpoint.text ∨ Gone new info.mountpoint.text := by
  obtain ⟨new, hnew⟩ := maskAll_adds kernel (infos.filter fun info => !info.skip rootfs) []
  have hselected : ∀ info, info ∈ infos.filter (fun info => !info.skip rootfs) ↔
      info ∈ infos ∧ info.skip rootfs = false := by
    simp
  -- the loop and each of the last calls went well
  obtain ⟨_, log, hloop, hrest⟩ := Program.exec_bind_of_ok h
  have hrun : ((msMoveRoot kernel (.ok infos) rootfs).exec []) = _ := hrest
  rw [hrun] at h ⊢
  obtain ⟨_, moved, hmove, hrest⟩ := Program.exec_bind_of_ok h
  rw [hrest] at h ⊢
  obtain ⟨_, rooted, hchroot, hrest⟩ := Program.exec_bind_of_ok h
  have hrun : (chroot kernel).exec moved = _ := hrest
  rw [hrun] at h ⊢
  have hlast := must_ok (Prod.ext h rfl)
  rw [hloop] at hnew
  obtain rfl : log = new := hnew.log_eq
  refine ⟨log, ?_, ?_, ?_⟩
  · refine hlast.trans ?_
    rw [must_ok hchroot, must_ok hmove]
    simp [tailCalls]
  · intro entry hentry
    obtain ⟨info, hinfo, hcall⟩ := hnew.calls entry hentry
    obtain ⟨hmem, hskip⟩ := (hselected info).mp hinfo
    exact ⟨info, hmem, hskip, hcall⟩
  · intro info hmem hskip
    exact hnew.ok rfl info ((hselected info).mpr ⟨hmem, hskip⟩)

theorem maskCalls_inj {q : Text} (hp : c ∈ maskCalls p) (hq : c ∈ maskCalls q) : p = q := by
  simp only [maskCalls, List.mem_cons, List.not_mem_nil, or_false] at hp hq
  rcases hp with rfl | rfl | rfl
  · rcases hq with h | h | h
    · exact (Call.mount.inj h).2.1
    · cases h
    · exact (Call.mount.inj h).2.1
  · rcases hq with h | h | h
    · cases h
    · exact (Call.unmount.inj h).1
    · cases h
  · rcases hq with h | h | h
    · exact (Call.mount.inj h).2.1
    · cases h
    · exact (Call.mount.inj h).2.1

theorem Touched.of_masked_or_gone (h : Masked log p ∨ Gone log p) : Touched log p := by
  rcases h with (h | h) | h
  · exact ⟨_, h, by simp [maskCalls]⟩
  · exact ⟨_, h, by simp [maskCalls]⟩
  · exact ⟨_, h, by simp [maskCalls]⟩

theorem msMoveRoot_touched {infos : List Info} {rootfs : AbsPath}
    (h : ((msMoveRoot kernel (.ok infos) rootfs.text).exec []).1 = .ok ())
    (hlog : ((msMoveRoot kernel (.ok infos) rootfs.text).exec []).2 = log) :
    (∀ p : AbsPath, Touched log p.text →
      ¬ (Within rootfs p ∨ Beside rootfs p)) ∧
    ∀ info ∈ infos, info.Full →
      ¬ (Within rootfs info.mountpoint ∨ Beside rootfs info.mountpoint) →
      Masked log info.mountpoint.text ∨ Gone log info.mountpoint.text := by
  obtain ⟨new, hnew, hcalls, hmasked⟩ := msMoveRoot_log h
  rw [hnew] at hlog
  subst hlog
  constructor
  · rintro p ⟨entry, hentry, hcall⟩
    rcases List.mem_append.mp hentry with hentry | hentry
    · obtain ⟨info, -, hskip, hmask⟩ := hcalls entry hentry
      rw [← text_prefix_iff, ← maskCalls_inj hmask hcall, text_prefix_iff]
      exact ((skip_eq_false_iff rootfs info).mp hskip).2
    · obtain ⟨c, hc, rfl⟩ := List.mem_map.mp hentry
      exact absurd hcall (tailCalls_not_mask hc)
  · intro info hinfo hfull hout
    have hskip := (skip_eq_false_iff rootfs info).mpr ⟨hfull, hout⟩
    exact (hmasked info hinfo hskip).imp (fun hm => hm.mono (List.subset_append_left _ _))
      fun hg => List.mem_append_left _ hg

structure Isolated (log : Log) (infos : List Info) (rootfs : AbsPath) : Prop where
  masked : ∀ info ∈ infos, info.Full → ¬ Within rootfs info.mountpoint →
    Masked log info.mountpoint.text ∨ Gone log info.mountpoint.text
  untouched : ∀ info ∈ infos, Within rootfs info.mountpoint →
    ¬ Touched log info.mountpoint.text

def Crowded (infos : List Info) (rootfs : AbsPath) : Prop :=
  ∃ info ∈ infos, info.Full ∧ Beside rootfs info.mountpoint

/-- A run that succeeds has isolated the rootfs exactly if no full mount is next to it under a
longer name. -/
theorem msMoveRoot_isolates_iff (kernel : Kernel) (infos : List Info) (rootfs : AbsPath)
    (h : ((msMoveRoot kernel (.ok infos) rootfs.text).exec []).1 = .ok ()) :
    Isolated ((msMoveRoot kernel (.ok infos) rootfs.text).exec []).2 infos rootfs ↔
      ¬ Crowded infos rootfs := by
  obtain ⟨htouched, hmasked⟩ := msMoveRoot_touched h rfl
  constructor
  · rintro hall ⟨info, hinfo, hfull, hbeside⟩
    have hdone := hall.masked info hinfo hfull (not_within_of_beside hbeside)
    exact htouched info.mountpoint (.of_masked_or_gone hdone) (.inr hbeside)
  · intro hnone
    constructor
    · intro info hinfo hfull hout
      refine hmasked info hinfo hfull ?_
      rintro (hin | hbeside)
      · exact hout hin
      · exact hnone ⟨info, hinfo, hfull, hbeside⟩
    · intro info hinfo hin htouch
      exact htouched info.mountpoint htouch (.inl hin)

def procAt (names : List Text) (h : ∀ name ∈ names, IsName name) : Info where
  root := ['/']
  fsType := "proc".toList
  mountpoint := AbsPath.ofNames names h

/-- `/proc` of the host and of a container at `/r`. -/
def hostTable : List Info :=
  [procAt ["proc".toList] (by decide), procAt [['r'], "proc".toList] (by decide)]

theorem hostTable_not_crowded : ¬ Crowded hostTable shortRootfs := by
  rintro ⟨info, hinfo, -, parent, name, more, rest, hdir, hmore, hp⟩
  have hnames : [['r']] = parent ++ [name] := hdir
  obtain ⟨rfl, rfl⟩ : parent = [] ∧ name = ['r'] := by
    cases parent with
    | nil => exact ⟨rfl, (List.cons.inj hnames).1.symm⟩
    | cons p parent => simp at hnames
  simp only [hostTable, List.mem_cons, List.not_mem_nil, or_false] at hinfo
  rcases hinfo with rfl | rfl
  · have hfirst := (List.cons.inj hp).1
    exact absurd (List.cons.inj hfirst).1 (by decide)
  · have hfirst := (List.cons.inj hp).1
    exact hmore (List.self_eq_append_right.mp hfirst)

theorem msMoveRoot_isolates_host :
    ((msMoveRoot (fun _ _ => none) (.ok hostTable) shortRootfs.text).exec []).1 = .ok () ∧
      Isolated ((msMoveRoot (fun _ _ => none) (.ok hostTable) shortRootfs.text).exec []).2
        hostTable shortRootfs :=
  ⟨rfl, (msMoveRoot_isolates_iff _ _ shortRootfs rfl).mpr hostTable_not_crowded⟩

/-- `/proc` of a container at `/r2`. -/
def neighbourTable : List Info :=
  [procAt [['r', '2'], "proc".toList] (by decide)]

theorem msMoveRoot_misses_neighbour :
    ((msMoveRoot (fun _ _ => none) (.ok neighbourTable) "/r".toList).exec []).1 = .ok () ∧
      ¬ Isolated ((msMoveRoot (fun _ _ => none) (.ok neighbourTable) "/r".toList).exec []).2
        neighbourTable shortRootfs := by
  refine ⟨rfl, fun h => ?_⟩
  have hdone := h.masked _ List.mem_cons_self ⟨rfl, .inl rfl⟩ (by decide)
  have htouched := Touched.of_masked_or_gone hdone
  unfold Touched at htouched
  revert htouched
  decide

end Runc.Rootfs
