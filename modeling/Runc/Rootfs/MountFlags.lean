import Runc.Rootfs.ProcMount
import Runc.Rootfs.Syscalls

/-!
# Remounts

A mount may have flags that the kernel does not let a container take away. If a remount
fails, the flags that `statfs` shows are added to those of a second remount.
-/

namespace Runc.Rootfs

open Lib
open Configs

def mntAtimeEnumFlags : Flags :=
  msNoatime ||| msRelatime ||| msStrictatime

def mntAtimeFlags : Flags :=
  mntAtimeEnumFlags ||| msNodiratime

def mntLockFlags : Flags :=
  msRdonly ||| msNodev ||| msNoexec ||| msNosuid ||| mntAtimeFlags

def statfsFlags : List (Flags × Flags) :=
  [(stRdonly, msRdonly),
    (stNosuid, msNosuid),
    (stNodev, msNodev),
    (stNoexec, msNoexec),
    (stMandlock, msMandlock),
    (stSynchronous, msSynchronous),
    (stNoatime, msNoatime),
    (stNodiratime, msNodiratime),
    (stRelatime, msRelatime),
    (stNosymfollow, msNosymfollow)]

/-- A mount that reports none of the access-time modes has the one that is not reported. -/
def statfsToMountFlags (st : Statfs) : Flags :=
  let flags := Flags.translate statfsFlags st.flags
  if flags &&& mntAtimeEnumFlags = 0 then flags ||| msStrictatime else flags

inductive RemountErr
  | statfs (text : Text)
  | cannotClear (flags : Flags) (mountErr : Errno)
  | cannotChangeAtime (flags : Flags) (mountErr : Errno)
  | remount (flags : Flags) (mountErr : Errno)
deriving DecidableEq

def remount (dst : Text) (flags : Flags) : Call :=
  .mount [] dst [] flags []

def remountLocked (kernel : Kernel) (m : MountEntry) (dst : Text) (mountErr : Errno)
    (st : Statfs) : Program Log RemountErr Unit :=
  let srcFlags := statfsToMountFlags st
  let cannotClearFlags := srcFlags &&& m.clearedFlags &&& mntLockFlags
  if cannotClearFlags ≠ 0 then throw (.cannotClear cannotClearFlags mountErr)
  else if m.flags &&& mntAtimeFlags ≠ 0 ∧
      m.flags &&& mntAtimeFlags ≠ srcFlags &&& mntAtimeFlags then
    throw (.cannotChangeAtime (srcFlags &&& mntAtimeFlags) mountErr)
  else do
    let flags := m.flags ||| msBind ||| msRemount ||| (srcFlags &&& mntLockFlags)
    match ← call kernel (remount dst flags) with
    | none => pure ()
    | some again => throw (.remount (srcFlags &&& mntLockFlags) again)

def remountBind (kernel : Kernel) (m : MountEntry) (dst : Text) :
    Program Log RemountErr Unit := do
  match ← call kernel (remount dst (m.flags ||| msBind ||| msRemount)) with
  | none => pure ()
  | some mountErr =>
      match m.srcStatfs with
      | .error err => throw (.statfs err)
      | .ok st => remountLocked kernel m dst mountErr st

def wantsRemount (m : MountEntry) : Bool :=
  m.flags &&& ~~~(msBind ||| msRec ||| msRemount) ≠ 0 || m.clearedFlags ≠ 0

def setBindFlags (kernel : Kernel) (m : MountEntry) (dst : Text) : Program Log RemountErr Unit :=
  Program.onlyIf (wantsRemount m) (remountBind kernel m dst)

structure Respects (m : MountEntry) (srcFlags flags : Flags) : Prop where
  requested : flags &&& m.flags = m.flags
  cleared : flags &&& (m.clearedFlags &&& mntLockFlags) = 0
  atime : flags &&& mntAtimeFlags = srcFlags &&& mntAtimeFlags
  locked : flags &&& (srcFlags &&& mntLockFlags) = srcFlags &&& mntLockFlags

theorem or_and_left_self (a b : Flags) : (a ||| b) &&& a = a := by
  rw [BitVec.and_or_distrib_right, BitVec.and_self]
  refine BitVec.eq_of_getLsbD_eq fun i _ => ?_
  rw [BitVec.getLsbD_or, BitVec.getLsbD_and]
  cases a.getLsbD i <;> simp

theorem or_and_right_self (a b : Flags) : (a ||| b) &&& b = b := by
  rw [BitVec.or_comm]
  exact or_and_left_self b a

theorem remountFlags_not_lock : (msBind ||| msRemount) &&& mntLockFlags = 0 := by
  decide

theorem atime_subset_lock : mntLockFlags &&& mntAtimeFlags = mntAtimeFlags := by
  decide

theorem respects_locked {m : MountEntry} {srcFlags : Flags}
    (hdisjoint : m.flags &&& m.clearedFlags = 0)
    (hclear : srcFlags &&& m.clearedFlags &&& mntLockFlags = 0)
    (hatime : m.flags &&& mntAtimeFlags = 0 ∨
      m.flags &&& mntAtimeFlags = srcFlags &&& mntAtimeFlags) :
    Respects m srcFlags
      (m.flags ||| msBind ||| msRemount ||| (srcFlags &&& mntLockFlags)) := by
  constructor
  · rw [BitVec.or_assoc, BitVec.or_assoc]
    exact or_and_left_self _ _
  · -- each of the three parts has none of the cleared flags
    have hflags : m.flags &&& (m.clearedFlags &&& mntLockFlags) = 0 := by
      rw [← BitVec.and_assoc, hdisjoint]
      exact BitVec.zero_and
    have hremount : (msBind ||| msRemount) &&& (m.clearedFlags &&& mntLockFlags) = 0 := by
      rw [BitVec.and_comm m.clearedFlags, ← BitVec.and_assoc, remountFlags_not_lock]
      exact BitVec.zero_and
    have hlocked : srcFlags &&& mntLockFlags &&& (m.clearedFlags &&& mntLockFlags) = 0 := by
      rw [BitVec.and_comm m.clearedFlags, ← BitVec.and_assoc, BitVec.and_assoc srcFlags,
        BitVec.and_self, BitVec.and_assoc, BitVec.and_comm mntLockFlags, ← BitVec.and_assoc,
        hclear]
    rw [BitVec.or_assoc m.flags, BitVec.and_or_distrib_right, BitVec.and_or_distrib_right,
      hflags, hremount, hlocked]
    rfl
  · have hremount : (msBind ||| msRemount) &&& mntAtimeFlags = 0 := by
      decide
    have hlocked : srcFlags &&& mntLockFlags &&& mntAtimeFlags = srcFlags &&& mntAtimeFlags := by
      rw [BitVec.and_assoc, atime_subset_lock]
    rw [BitVec.or_assoc m.flags, BitVec.and_or_distrib_right, BitVec.and_or_distrib_right,
      hremount, hlocked]
    rcases hatime with hnone | hsame
    · rw [hnone]
      exact BitVec.zero_or
    · rw [hsame, BitVec.or_assoc]
      exact (congrArg _ BitVec.zero_or).trans BitVec.or_self
  · exact or_and_right_self _ _

def Refused (m : MountEntry) (srcFlags : Flags) : Prop :=
  srcFlags &&& m.clearedFlags &&& mntLockFlags ≠ 0 ∨
    m.flags &&& mntAtimeFlags ≠ 0 ∧
      m.flags &&& mntAtimeFlags ≠ srcFlags &&& mntAtimeFlags

instance (m : MountEntry) (srcFlags : Flags) : Decidable (Refused m srcFlags) :=
  inferInstanceAs (Decidable (_ ∨ _))

def lockedRemount (m : MountEntry) (dst : Text) (srcFlags : Flags) : Call :=
  remount dst (m.flags ||| msBind ||| msRemount ||| (srcFlags &&& mntLockFlags))

theorem remountLocked_log
    (kernel : Kernel) (m : MountEntry) (dst : Text) (mountErr : Errno) (st : Statfs) (log : Log) :
    ((remountLocked kernel m dst mountErr st).exec log).2 =
      if Refused m (statfsToMountFlags st) then log
      else log ++ [(lockedRemount m dst (statfsToMountFlags st),
        kernel log (lockedRemount m dst (statfsToMountFlags st)))] := by
  rw [remountLocked]
  by_cases hclear : statfsToMountFlags st &&& m.clearedFlags &&& mntLockFlags ≠ 0
  · rw [if_pos hclear, if_pos (.inl hclear)]
    rfl
  · rw [if_neg hclear]
    by_cases hatime : m.flags &&& mntAtimeFlags ≠ 0 ∧
        m.flags &&& mntAtimeFlags ≠ statfsToMountFlags st &&& mntAtimeFlags
    · rw [if_pos hatime, if_pos (.inr hatime)]
      rfl
    · have hpass : ¬ Refused m (statfsToMountFlags st) := not_or.mpr ⟨hclear, hatime⟩
      rw [if_neg hatime, if_neg hpass, Program.exec_bind, exec_call]
      dsimp only
      split <;> rfl

theorem respects_lockedRemount {m : MountEntry} {srcFlags : Flags}
    (hdisjoint : m.flags &&& m.clearedFlags = 0) (h : ¬ Refused m srcFlags) :
    Respects m srcFlags
      (m.flags ||| msBind ||| msRemount ||| (srcFlags &&& mntLockFlags)) := by
  rw [Refused, not_or, not_not, not_and_or, not_not, not_not] at h
  exact respects_locked hdisjoint h.1 h.2

/-- The second remount of a bind mount keeps what the source has locked and what the user asked
for. -/
theorem remountBind_second (kernel : Kernel) (m : MountEntry) (dst : Text) (log : Log)
    (first second : Call × Option Errno) (hdisjoint : m.flags &&& m.clearedFlags = 0)
    (h : ((setBindFlags kernel m dst).exec log).2 = log ++ [first, second]) :
    ∃ st flags, m.srcStatfs = .ok st ∧ first.2 ≠ none ∧
      second.1 = remount dst flags ∧ Respects m (statfsToMountFlags st) flags := by
  have hshort : ∀ (l : Log), l.length ≤ log.length + 1 → l ≠ log ++ [first, second] := by
    rintro l hlength rfl
    simp at hlength
  rw [setBindFlags] at h
  cases hwants : wantsRemount m with
  | false =>
    rw [hwants] at h
    exact absurd h (hshort log (by omega))
  | true =>
    rw [hwants, Program.onlyIf_true, remountBind, Program.exec_bind, exec_call] at h
    cases hfirst : kernel log (remount dst (m.flags ||| msBind ||| msRemount)) with
    | none =>
      rw [hfirst] at h
      exact absurd h (hshort _ (by simp))
    | some mountErr =>
      rw [hfirst] at h
      cases hst : m.srcStatfs with
      | error err =>
        rw [hst] at h
        exact absurd h (hshort _ (by simp))
      | ok st =>
        rw [hst] at h
        rw [remountLocked_log] at h
        split at h
        · exact absurd h (hshort _ (by simp))
        · rename_i hrefused
          rw [List.append_assoc, List.append_cancel_left_eq] at h
          obtain ⟨rfl, hrest⟩ := List.cons.inj h
          obtain ⟨rfl, -⟩ := List.cons.inj hrest
          exact ⟨st, _, rfl, nofun, rfl, respects_lockedRemount hdisjoint hrefused⟩

def readonlyBind : MountEntry where
  flags := msBind ||| msRdonly
  clearedFlags := msNoexec
  srcStatfs := .ok ⟨0, stValid ||| stNosuid ||| stRelatime⟩
  srcStat := .ok 2

def refuseFirst : Kernel :=
  fun log _ => if log = [] then some .eperm else none

theorem remountBind_second_nosuid :
    readonlyBind.flags &&& readonlyBind.clearedFlags = 0 ∧
      ((setBindFlags refuseFirst readonlyBind ['/']).exec []).2 =
        [(remount ['/'] (msBind ||| msRdonly ||| msBind ||| msRemount), some .eperm),
          (remount ['/'] (msBind ||| msRdonly ||| msRemount ||| msNosuid ||| msRelatime),
            none)] ∧
      ∃ st flags, readonlyBind.srcStatfs = .ok st ∧ some Errno.eperm ≠ none ∧
        remount ['/'] (msBind ||| msRdonly ||| msRemount ||| msNosuid ||| msRelatime) =
          remount ['/'] flags ∧ Respects readonlyBind (statfsToMountFlags st) flags :=
  ⟨by decide, by decide, remountBind_second refuseFirst readonlyBind ['/'] []
    (remount ['/'] (msBind ||| msRdonly ||| msBind ||| msRemount), some .eperm)
    (_, none) (by decide) (by decide)⟩

inductive ReadonlyErr
  | statfs (text : Text)
  | mount (errno : Errno)
deriving DecidableEq

def readonlyFlags : Flags :=
  msBind ||| msRemount ||| msRdonly

def setReadonly (kernel : Kernel) (statfs : Except Text Statfs) :
    Program Log ReadonlyErr Unit := do
  match ← call kernel (remount ['/'] readonlyFlags) with
  | none => pure ()
  | some _ =>
      match statfs with
      | .error err => throw (.statfs err)
      | .ok s =>
          match ← call kernel (remount ['/'] (readonlyFlags ||| s.flags)) with
          | none => pure ()
          | some errno => throw (.mount errno)

def reportable : Flags :=
  stRdonly ||| stNosuid ||| stNodev ||| stNoexec ||| stSynchronous ||| stValid |||
    stMandlock ||| stNoatime ||| stNodiratime ||| stRelatime ||| stNosymfollow

/-- A set of flags that `statfs` may report. -/
def Reportable (flags : Flags) : Prop :=
  flags &&& reportable = flags

theorem setReadonly_log (kernel : Kernel) (st : Statfs) (log : Log)
    (first second : Call × Option Errno)
    (h : ((setReadonly kernel (.ok st)).exec log).2 = log ++ [first, second]) :
    second.1 = remount ['/'] (readonlyFlags ||| st.flags) := by
  rw [setReadonly, Program.exec_bind, exec_call] at h
  cases hfirst : kernel log (remount ['/'] readonlyFlags) with
  | none =>
    rw [hfirst] at h
    exact absurd (congrArg List.length h) (by simp)
  | some errno =>
    rw [hfirst] at h
    dsimp only at h
    rw [Program.exec_bind, exec_call] at h
    have hlast : log ++ [(remount ['/'] readonlyFlags, some errno)] ++
        [(remount ['/'] (readonlyFlags ||| st.flags),
          kernel (log ++ [(remount ['/'] readonlyFlags, some errno)])
            (remount ['/'] (readonlyFlags ||| st.flags)))] = log ++ [first, second] := by
      refine Eq.trans ?_ h
      dsimp only
      split <;> rfl
    rw [List.append_assoc, List.append_cancel_left_eq] at hlast
    obtain ⟨-, hrest⟩ := List.cons.inj hlast
    exact (congrArg Prod.fst (List.cons.inj hrest).1).symm

section Root

variable {w : Flags}

theorem mem_reportable (hw : Reportable w) {i : Nat} (h : w.getLsbD i = true) :
    i ∈ [0, 1, 2, 3, 4, 5, 6, 10, 11, 12, 13] := by
  have hbits : reportable = Flags.ofBits [0, 1, 2, 3, 4, 5, 6, 10, 11, 12, 13] := by decide
  rw [← hw, hbits, BitVec.getLsbD_and, Bool.and_eq_true] at h
  exact Flags.mem_of_getLsbD_ofBits h.2

theorem translate_statfs {k l : Nat} (hk : k < 64) (hl : l < 64)
    (hentry : (Flags.bit k, Flags.bit l) ∈ statfsFlags) (h : w.getLsbD k = true) :
    (Flags.translate statfsFlags w).getLsbD l = true :=
  (Flags.getLsbD_translate _ _ _).mpr
    ⟨_, hentry, (Flags.has_bit_iff hk w).mpr h, by simp [Flags.getLsbD_bit hl]⟩

theorem getLsbD_of_translate (hrelatime : w.getLsbD 12 = false)
    (hnosymfollow : w.getLsbD 13 = false) {i : Nat}
    (h : (Flags.translate statfsFlags w).getLsbD i = true) : w.getLsbD i = true := by
  obtain ⟨f, hf, hhas, hi⟩ := (Flags.getLsbD_translate _ _ _).mp h
  -- an entry that translates a bit into itself
  have hsame : ∀ k, k < 64 → f = (Flags.bit k, Flags.bit k) → w.getLsbD i = true := by
    rintro k hk rfl
    rw [Flags.getLsbD_bit hk, decide_eq_true_eq] at hi
    rw [← hi]
    exact (Flags.has_bit_iff hk w).mp hhas
  -- an entry for a flag that is not reported
  have hnone : ∀ k, k < 64 → f.1 = Flags.bit k → w.getLsbD k = false → False := by
    intro k hk hbit hfalse
    rw [hbit, Flags.has_bit_iff hk, hfalse] at hhas
    cases hhas
  simp only [statfsFlags, List.mem_cons, List.not_mem_nil, or_false] at hf
  rcases hf with hf | hf | hf | hf | hf | hf | hf | hf | hf | hf
  · exact hsame 0 (by decide) hf
  · exact hsame 1 (by decide) hf
  · exact hsame 2 (by decide) hf
  · exact hsame 3 (by decide) hf
  · exact hsame 6 (by decide) hf
  · exact hsame 4 (by decide) hf
  · exact hsame 10 (by decide) hf
  · exact hsame 11 (by decide) hf
  · exact (hnone 12 (by decide) (congrArg Prod.fst hf) hrelatime).elim
  · exact (hnone 13 (by decide) (congrArg Prod.fst hf) hnosymfollow).elim

theorem readonly_or_translate (hw : Reportable w) (hrelatime : w.getLsbD 12 = false)
    (hnosymfollow : w.getLsbD 13 = false) {i : Nat} (h : w.getLsbD i = true) :
    readonlyFlags.getLsbD i = true ∨
      (Flags.translate statfsFlags w).getLsbD i = true := by
  have hmem := mem_reportable hw h
  by_cases hvalid : i = 5
  · exact .inl (hvalid ▸ by decide)
  · refine .inr (translate_statfs ?_ ?_ ?_ h)
    · simp only [List.mem_cons, List.not_mem_nil, or_false] at hmem
      omega
    · simp only [List.mem_cons, List.not_mem_nil, or_false] at hmem
      omega
    · simp only [List.mem_cons, List.not_mem_nil, or_false] at hmem
      rcases hmem with rfl | rfl | rfl | rfl | rfl | rfl | rfl | rfl | rfl | rfl | rfl
      · exact List.mem_cons_self
      · decide
      · decide
      · decide
      · decide
      · exact absurd rfl hvalid
      · decide
      · decide
      · decide
      · exact absurd (hrelatime.symm.trans h) Bool.false_ne_true
      · exact absurd (hnosymfollow.symm.trans h) Bool.false_ne_true

theorem readonly_flags_eq_iff (hw : Reportable w) :
    readonlyFlags ||| w = readonlyFlags ||| Flags.translate statfsFlags w ↔
      w &&& stRelatime = 0 ∧ w &&& stNosymfollow = 0 := by
  have hr : w &&& stRelatime = 0 ↔ w.getLsbD 12 = false := Flags.lacks_bit_iff (by decide) w
  have hn : w &&& stNosymfollow = 0 ↔ w.getLsbD 13 = false := Flags.lacks_bit_iff (by decide) w
  rw [hr, hn]
  constructor
  · intro h
    -- the form of the flag would have to be reported itself
    have hmissing : ∀ k l, k < 64 → l < 64 → (Flags.bit k, Flags.bit l) ∈ statfsFlags →
        readonlyFlags.getLsbD l = false → l ∉ [0, 1, 2, 3, 4, 5, 6, 10, 11, 12, 13] →
        w.getLsbD k = false := by
      intro k l hk hl hentry hreadonly hl'
      by_contra hset
      rw [Bool.not_eq_false] at hset
      have hbit := congrArg (fun v : Flags => v.getLsbD l) h
      simp only [BitVec.getLsbD_or, translate_statfs hk hl hentry hset, hreadonly,
        Bool.false_or] at hbit
      exact hl' (mem_reportable hw hbit)
    exact ⟨hmissing 12 21 (by decide) (by decide) (by decide) (by decide) (by decide),
      hmissing 13 8 (by decide) (by decide) (by decide) (by decide) (by decide)⟩
  · rintro ⟨hrelatime, hnosymfollow⟩
    refine BitVec.eq_of_getLsbD_eq fun i _ => ?_
    rw [BitVec.getLsbD_or, BitVec.getLsbD_or, Bool.eq_iff_iff, Bool.or_eq_true, Bool.or_eq_true]
    constructor
    · rintro (h | h)
      · exact .inl h
      · exact readonly_or_translate hw hrelatime hnosymfollow h
    · exact Or.imp_right (getLsbD_of_translate hrelatime hnosymfollow)

theorem setReadonly_second_iff (kernel : Kernel) (st : Statfs) (log : Log)
    (first second : Call × Option Errno) (hst : Reportable st.flags)
    (h : ((setReadonly kernel (.ok st)).exec log).2 = log ++ [first, second]) :
    second.1 = remount ['/'] (readonlyFlags ||| Flags.translate statfsFlags st.flags) ↔
      st.flags &&& stRelatime = 0 ∧ st.flags &&& stNosymfollow = 0 := by
  rw [setReadonly_log kernel st log first second h, ← readonly_flags_eq_iff hst]
  constructor
  · intro heq
    exact (Call.mount.inj heq).2.2.2.1
  · exact congrArg (remount ['/'])

theorem setReadonly_second_noatime :
    Reportable (stValid ||| stNosuid ||| stNoatime) ∧
      ((setReadonly refuseFirst (.ok ⟨0, stValid ||| stNosuid ||| stNoatime⟩)).exec []).2 =
        [(remount ['/'] readonlyFlags, some .eperm),
          (remount ['/'] (readonlyFlags ||| msNosuid ||| msNoatime), none)] ∧
      (remount ['/'] (readonlyFlags ||| msNosuid ||| msNoatime) =
          remount ['/'] (readonlyFlags |||
            Flags.translate statfsFlags (stValid ||| stNosuid ||| stNoatime)) ↔
        (stValid ||| stNosuid ||| stNoatime) &&& stRelatime = 0 ∧
          (stValid ||| stNosuid ||| stNoatime) &&& stNosymfollow = 0) :=
  ⟨by unfold Reportable; decide, by decide,
    setReadonly_second_iff refuseFirst ⟨0, stValid ||| stNosuid ||| stNoatime⟩ []
      (remount ['/'] readonlyFlags, some .eperm) (_, none)
      (by unfold Reportable; decide) (by decide)⟩

theorem setReadonly_nosymfollow :
    Reportable (stValid ||| stNosymfollow) ∧
      ((setReadonly refuseFirst (.ok ⟨0, stValid ||| stNosymfollow⟩)).exec []).2 =
        [(remount ['/'] readonlyFlags, some .eperm),
          (remount ['/'] (readonlyFlags ||| msMove), none)] ∧
      remount ['/'] (readonlyFlags ||| msMove) ≠
        remount ['/'] (readonlyFlags |||
          Flags.translate statfsFlags (stValid ||| stNosymfollow)) :=
  ⟨by unfold Reportable; decide, by decide, by decide⟩

end Root

end Runc.Rootfs
