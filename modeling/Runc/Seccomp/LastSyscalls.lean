import Runc.Configs.Seccomp
import Runc.Lib.Program
import Runc.Seccomp.EnosysSection

/-!
# The largest system calls of a filter

`findLastSyscalls` collects, for each architecture of the filter, the largest number that
one of the rules has there.  The stub of the filter answers -ENOSYS above it.

What libseccomp knows about architectures and names is a parameter.  The set of the
architectures is a list without repetitions, and the order in which the loop visits it is
a function of it.
-/

namespace Runc.Seccomp

open Lib
open Configs (Syscall)

namespace ScmpArch

def string : ScmpArch → Text
  | archInvalid => "Invalid architecture".toList
  | archNative => "native".toList
  | archX86 => "x86".toList
  | archAMD64 => "amd64".toList
  | archX32 => "x32".toList
  | archARM => "arm".toList
  | archARM64 => "arm64".toList
  | archMIPS => "mips".toList
  | archMIPS64 => "mips64".toList
  | archMIPS64N32 => "mips64n32".toList
  | archMIPSEL => "mipsel".toList
  | archMIPSEL64 => "mipsel64".toList
  | archMIPSEL64N32 => "mipsel64n32".toList
  | archPPC => "ppc".toList
  | archPPC64 => "ppc64".toList
  | archPPC64LE => "ppc64le".toList
  | archS390 => "s390".toList
  | archS390X => "s390x".toList
  | archPARISC => "parisc".toList
  | archPARISC64 => "parisc64".toList
  | archRISCV64 => "riscv64".toList
  | archLOONGARCH64 => "loong64".toList
  | archM68K => "m68k".toList
  | archSH => "sh".toList
  | archSHEB => "sheb".toList

def auditArch : ScmpArch → Except Text LinuxAuditArch
  | archX86 => .ok 0x40000003
  | archAMD64 => .ok auditArchX8664
  | archX32 => .ok auditArchX8664
  | archARM => .ok 0x40000028
  | archARM64 => .ok 0xC00000B7
  | archMIPS => .ok 0x00000008
  | archMIPS64 => .ok 0x80000008
  | archMIPS64N32 => .ok 0xA0000008
  | archMIPSEL => .ok 0x40000008
  | archMIPSEL64 => .ok 0xC0000008
  | archMIPSEL64N32 => .ok 0xE0000008
  | archPPC => .ok 0x00000014
  | archPPC64 => .ok 0x80000015
  | archPPC64LE => .ok 0xC0000015
  | archS390 => .ok 0x00000016
  | archS390X => .ok 0x80000016
  | archRISCV64 => .ok 0xC00000F3
  | archLOONGARCH64 => .ok 0xC0000102
  | arch => .error ("unknown architecture: ".toList ++ arch.string)

end ScmpArch

structure Names where
  getArchFromString : Text → Except Text ScmpArch
  getNativeArch : Except Text ScmpArch
  getSyscallFromNameByArch : Text → ScmpArch → Except Text ScmpSyscall

section Model

variable (lib : Names)

/-- The native architecture is never `ArchNative` itself. -/
def scmpArchToAuditArch : ScmpArch → Except Text LinuxAuditArch
  | .archNative =>
      match lib.getNativeArch with
      | .error err => .error ("unable to get native arch: ".toList ++ err)
      | .ok arch => arch.auditArch
  | arch => arch.auditArch

def addConfigured : List Text → List ScmpArch → Except (Fault Text) (List ScmpArch)
  | [], scmpArchs => .ok scmpArchs
  | ociArch :: rest, scmpArchs =>
      match lib.getArchFromString ociArch with
      | .error err =>
          .error (.error ("unable to validate seccomp architecture: ".toList ++ err))
      | .ok arch => addConfigured rest (scmpArchs.insert arch)

def architectures (config : Configs.Seccomp) : Except (Fault Text) (List ScmpArch) :=
  match addConfigured lib config.architectures [] with
  | .error fault => .error fault
  | .ok scmpArchs =>
      match lib.getNativeArch with
      | .error err => .error (.error ("unable to get native arch: ".toList ++ err))
      | .ok native => .ok (scmpArchs.insert native)

def largestSyscall (arch : ScmpArch) :
    List (Option Syscall) → ScmpSyscall → Except (Fault Text) ScmpSyscall
  | [], largest => .ok largest
  | none :: _, _ => .error .panicked
  | some rule :: rest, largest =>
      match lib.getSyscallFromNameByArch rule.name arch with
      | .error _ => largestSyscall arch rest largest
      | .ok sysno =>
          largestSyscall arch rest (if largest < sysno then sysno else largest)

def addLast (rules : List (Option Syscall)) (lastSyscalls : LastSyscallMap) (arch : ScmpArch) :
    Except (Fault Text) LastSyscallMap :=
  match scmpArchToAuditArch lib arch with
  | .error err =>
      .error (.error ("cannot map architecture ".toList ++ arch.string ++
        " to AUDIT_ARCH_ constant: ".toList ++ err))
  | .ok auditArch =>
      let maxSyscalls := (lastSyscalls.lookup auditArch).getD ∅
      if (maxSyscalls.lookup arch).isSome then .ok lastSyscalls
      else
        match largestSyscall lib arch rules 0 with
        | .error fault => .error fault
        | .ok largest =>
            .ok (lastSyscalls.insert auditArch
              (if largest ≠ 0 then maxSyscalls.insert arch largest else maxSyscalls.erase arch))

def findLastSyscalls (config : Configs.Seccomp) (range : List ScmpArch → List ScmpArch) :
    Except (Fault Text) LastSyscallMap :=
  match architectures lib config with
  | .error fault => .error fault
  | .ok scmpArchs => (range scmpArchs).foldlM (addLast lib config.syscalls) ∅

end Model

def Configured (lib : Names) (config : Configs.Seccomp) (arch : ScmpArch) : Prop :=
  (∃ ociArch ∈ config.architectures, lib.getArchFromString ociArch = .ok arch) ∨
    lib.getNativeArch = .ok arch

section Proofs

variable {lib : Names} {config : Configs.Seccomp} {arch : ScmpArch}

theorem addConfigured_spec {ociArchs : List Text} {scmpArchs scmpArchs' : List ScmpArch}
    (h : addConfigured lib ociArchs scmpArchs = .ok scmpArchs') (hnodup : scmpArchs.Nodup) :
    scmpArchs'.Nodup ∧ ∀ a, a ∈ scmpArchs' ↔
      a ∈ scmpArchs ∨ ∃ ociArch ∈ ociArchs, lib.getArchFromString ociArch = .ok a := by
  induction ociArchs generalizing scmpArchs with
  | nil =>
    cases h
    exact ⟨hnodup, by simp⟩
  | cons ociArch rest ih =>
    rw [addConfigured] at h
    cases harch : lib.getArchFromString ociArch with
    | error err =>
      rw [harch] at h
      cases h
    | ok arch =>
      rw [harch] at h
      obtain ⟨hnodup', hmem⟩ := ih h (hnodup.insert)
      refine ⟨hnodup', fun a => ?_⟩
      rw [hmem, List.mem_insert_iff, List.exists_mem_cons_iff, harch, Except.ok.injEq,
        eq_comm (a := arch)]
      tauto

theorem architectures_spec {scmpArchs : List ScmpArch}
    (h : architectures lib config = .ok scmpArchs) :
    scmpArchs.Nodup ∧ ∀ a, a ∈ scmpArchs ↔ Configured lib config a := by
  rw [architectures] at h
  cases hconfigured : addConfigured lib config.architectures [] with
  | error fault =>
    rw [hconfigured] at h
    cases h
  | ok archs =>
    obtain ⟨hnodup, hmem⟩ := addConfigured_spec hconfigured List.nodup_nil
    cases hnative : lib.getNativeArch with
    | error err =>
      rw [hconfigured, hnative] at h
      cases h
    | ok native =>
      rw [hconfigured, hnative] at h
      cases h
      refine ⟨hnodup.insert, fun a => ?_⟩
      rw [List.mem_insert_iff, hmem, Configured, hnative, Except.ok.injEq, eq_comm (a := native)]
      simp [or_comm]

def ResolvesTo (lib : Names) (rules : List (Option Syscall)) (arch : ScmpArch)
    (n : ScmpSyscall) : Prop :=
  ∃ rule, some rule ∈ rules ∧ lib.getSyscallFromNameByArch rule.name arch = .ok n

theorem resolvesTo_cons {rule : Syscall} {n : ScmpSyscall} :
    ResolvesTo lib (some rule :: rules) arch n ↔
      lib.getSyscallFromNameByArch rule.name arch = .ok n ∨ ResolvesTo lib rules arch n := by
  constructor
  · rintro ⟨other, hmem, hn⟩
    rcases List.mem_cons.mp hmem with heq | hmem
    · cases heq
      exact .inl hn
    · exact .inr ⟨other, hmem, hn⟩
  · rintro (hn | ⟨other, hmem, hn⟩)
    · exact ⟨rule, List.mem_cons_self, hn⟩
    · exact ⟨other, List.mem_cons_of_mem _ hmem, hn⟩

variable {largest : ScmpSyscall}

theorem largestSyscall_spec {start : ScmpSyscall}
    (h : largestSyscall lib arch rules start = .ok largest) :
    (largest = start ∨ ResolvesTo lib rules arch largest) ∧ start ≤ largest ∧
      ∀ n, ResolvesTo lib rules arch n → n ≤ largest := by
  induction rules generalizing start with
  | nil =>
    cases h
    exact ⟨.inl rfl, Int32.le_refl _, fun n ⟨_, hmem, _⟩ => nomatch hmem⟩
  | cons rule rest ih =>
    cases rule with
    | none => cases h
    | some rule =>
      rw [largestSyscall] at h
      simp only [resolvesTo_cons]
      cases hresolve : lib.getSyscallFromNameByArch rule.name arch with
      | error err =>
        rw [hresolve] at h
        obtain ⟨hfound, hstart, hmax⟩ := ih h
        refine ⟨hfound.imp_right .inr, hstart, ?_⟩
        rintro n (hn | hn)
        · cases hn
        · exact hmax n hn
      | ok sysno =>
        rw [hresolve] at h
        obtain ⟨hfound, hstart, hmax⟩ := ih h
        by_cases hlt : start < sysno
        · rw [if_pos hlt] at hfound hstart
          refine ⟨.inr ?_, Int32.le_trans (Int32.le_of_lt hlt) hstart, ?_⟩
          · rcases hfound with rfl | hfound
            · exact .inl rfl
            · exact .inr hfound
          · rintro n (hn | hn)
            · cases hn
              exact hstart
            · exact hmax n hn
        · rw [if_neg hlt] at hfound hstart
          refine ⟨hfound.imp_right .inr, hstart, ?_⟩
          rintro n (hn | hn)
          · cases hn
            exact Int32.le_trans (Int32.not_lt.mp hlt) hstart
          · exact hmax n hn

/-- `lastSyscalls[auditArch][arch]`. -/
def entry (lastSyscalls : LastSyscallMap) (auditArch : LinuxAuditArch) (arch : ScmpArch) :
    Option ScmpSyscall :=
  (lastSyscalls.lookup auditArch).bind (AList.lookup arch)

def stored (largest : ScmpSyscall) : Option ScmpSyscall :=
  if largest ≠ 0 then some largest else none

theorem entry_insert (lastSyscalls : LastSyscallMap) (auditArch : LinuxAuditArch)
    (maxSyscalls : MaxSyscalls) (auditArch' : LinuxAuditArch) (arch' : ScmpArch) :
    entry (lastSyscalls.insert auditArch maxSyscalls) auditArch' arch' =
      if auditArch' = auditArch then maxSyscalls.lookup arch'
      else entry lastSyscalls auditArch' arch' := by
  by_cases haudit : auditArch' = auditArch
  · rw [if_pos haudit, haudit, entry, AList.lookup_insert]
    rfl
  · rw [if_neg haudit, entry, AList.lookup_insert_ne haudit, entry]

theorem lookup_getD (lastSyscalls : LastSyscallMap) (auditArch : LinuxAuditArch) (arch : ScmpArch) :
    ((lastSyscalls.lookup auditArch).getD ∅).lookup arch = entry lastSyscalls auditArch arch := by
  rw [entry]
  cases lastSyscalls.lookup auditArch with
  | none => exact AList.lookup_empty arch
  | some maxSyscalls => rfl

theorem lookup_store (maxSyscalls : MaxSyscalls) (arch : ScmpArch) (largest : ScmpSyscall)
    (arch' : ScmpArch) :
    (if largest ≠ 0 then maxSyscalls.insert arch largest else maxSyscalls.erase arch).lookup arch' =
      if arch' = arch then stored largest else maxSyscalls.lookup arch' := by
  rw [stored]
  by_cases harch : arch' = arch
  · subst harch
    rw [if_pos rfl]
    split
    · exact AList.lookup_insert maxSyscalls
    · exact AList.lookup_erase arch' maxSyscalls
  · rw [if_neg harch]
    split
    · exact AList.lookup_insert_ne harch
    · exact AList.lookup_erase_ne harch

variable {rules : List (Option Syscall)} {lastSyscalls lastSyscalls' : LastSyscallMap}

theorem addLast_eq_ok (h : addLast lib rules lastSyscalls arch = .ok lastSyscalls')
    (hfresh : ∀ auditArch, entry lastSyscalls auditArch arch = none) :
    ∃ auditArch largest, scmpArchToAuditArch lib arch = .ok auditArch ∧
      largestSyscall lib arch rules 0 = .ok largest ∧
      ∀ auditArch' arch', entry lastSyscalls' auditArch' arch' =
        if auditArch' = auditArch ∧ arch' = arch then stored largest
        else entry lastSyscalls auditArch' arch' := by
  rw [addLast] at h
  cases haudit : scmpArchToAuditArch lib arch with
  | error err =>
    rw [haudit] at h
    cases h
  | ok auditArch =>
    rw [haudit] at h
    dsimp only at h
    rw [lookup_getD, hfresh, if_neg (by simp)] at h
    cases hlargest : largestSyscall lib arch rules 0 with
    | error fault =>
      rw [hlargest] at h
      cases h
    | ok largest =>
      rw [hlargest] at h
      cases h
      refine ⟨auditArch, largest, rfl, rfl, fun auditArch' arch' => ?_⟩
      rw [entry_insert, lookup_store]
      by_cases hsame : auditArch' = auditArch
      · subst hsame
        rw [if_pos rfl, lookup_getD]
        simp
      · simp [hsame]

structure Stored (lib : Names) (rules : List (Option Syscall)) (lastSyscalls : LastSyscallMap)
    (arch : ScmpArch) (auditArch : LinuxAuditArch) (largest : ScmpSyscall) : Prop where
  audit : scmpArchToAuditArch lib arch = .ok auditArch
  largestOf : largestSyscall lib arch rules 0 = .ok largest
  entryOf : ∀ auditArch', entry lastSyscalls auditArch' arch =
    if auditArch' = auditArch then stored largest else none

theorem foldlM_addLast {order : List ScmpArch} (hnodup : order.Nodup)
    (h : order.foldlM (addLast lib rules) ∅ = .ok lastSyscalls) :
    (∀ a ∈ order, ∃ auditArch largest, Stored lib rules lastSyscalls a auditArch largest) ∧
      ∀ a ∉ order, ∀ auditArch, entry lastSyscalls auditArch a = none := by
  refine foldlM_keeps (fun done (m : LastSyscallMap) =>
    (∀ a ∈ done, ∃ auditArch largest, Stored lib rules m a auditArch largest) ∧
      ∀ a ∉ done, ∀ auditArch, entry m auditArch a = none) h ⟨nofun, fun _ _ _ => rfl⟩ ?_
  rintro done arch rest m next hsplit ⟨hdone, hleft⟩ hstep -
  have harch : arch ∉ done := fun hmem =>
    (List.nodup_append.mp (hsplit ▸ hnodup)).2.2 arch hmem arch List.mem_cons_self rfl
  obtain ⟨auditArch, largest, haudit, hlargest, hentry⟩ := addLast_eq_ok hstep (hleft arch harch)
  have hother : ∀ a, a ≠ arch → ∀ audit, entry next audit a = entry m audit a := by
    intro a hne audit
    rw [hentry, if_neg fun hboth => hne hboth.2]
  constructor
  · intro a ha
    rcases List.mem_append.mp ha with ha | ha
    · obtain ⟨audit, number, hstored⟩ := hdone a ha
      refine ⟨audit, number, hstored.audit, hstored.largestOf, fun audit' => ?_⟩
      rw [hother a (fun heq => harch (heq ▸ ha)), hstored.entryOf]
    · obtain rfl := List.mem_singleton.mp ha
      refine ⟨auditArch, largest, haudit, hlargest, fun audit => ?_⟩
      rw [hentry, hleft a harch]
      simp
  · intro a ha audit
    rw [List.mem_append, List.mem_singleton, not_or] at ha
    rw [hother a ha.2, hleft a ha.1]

variable {range : List ScmpArch → List ScmpArch}

theorem findLastSyscalls_entry (hrange : ∀ scmpArchs, (range scmpArchs).Perm scmpArchs)
    (h : findLastSyscalls lib config range = .ok lastSyscalls) :
    (∀ a, Configured lib config a →
      ∃ auditArch largest, Stored lib config.syscalls lastSyscalls a auditArch largest) ∧
      ∀ a, ¬ Configured lib config a → ∀ auditArch, entry lastSyscalls auditArch a = none := by
  rw [findLastSyscalls] at h
  cases harchs : architectures lib config with
  | error fault =>
    rw [harchs] at h
    cases h
  | ok scmpArchs =>
    rw [harchs] at h
    obtain ⟨hnodup, hmem⟩ := architectures_spec harchs
    have hmem' : ∀ a, a ∈ range scmpArchs ↔ Configured lib config a := fun a =>
      (hrange scmpArchs).mem_iff.trans (hmem a)
    obtain ⟨hdone, hleft⟩ := foldlM_addLast ((hrange scmpArchs).nodup_iff.mpr hnodup) h
    exact ⟨fun a ha => hdone a ((hmem' a).mpr ha), fun a ha => hleft a (mt (hmem' a).mp ha)⟩

theorem stored_eq_some_iff {v : ScmpSyscall} : stored largest = some v ↔ largest = v ∧ v ≠ 0 := by
  rw [stored]
  split
  case isTrue hne =>
      rw [Option.some.injEq]
      exact ⟨fun heq => ⟨heq, heq ▸ hne⟩, And.left⟩
  case isFalse hzero =>
      refine ⟨nofun, ?_⟩
      rintro ⟨rfl, hne⟩
      exact absurd hne hzero

theorem findLastSyscalls_positive (hrange : ∀ scmpArchs, (range scmpArchs).Perm scmpArchs)
    (h : findLastSyscalls lib config range = .ok lastSyscalls) :
    ∀ e ∈ lastSyscalls.entries, e.2.Positive := by
  obtain ⟨hentry, hnone⟩ := findLastSyscalls_entry hrange h
  rintro ⟨auditArch, maxSyscalls⟩ he ⟨arch, v⟩ hv
  have hlookup : entry lastSyscalls auditArch arch = some v := by
    rw [entry, AList.mem_lookup_iff.mpr he]
    exact AList.mem_lookup_iff.mpr hv
  have hconfigured : Configured lib config arch := by
    by_contra hnot
    rw [hnone arch hnot] at hlookup
    cases hlookup
  obtain ⟨auditArch', largest, hstored⟩ := hentry arch hconfigured
  rw [hstored.entryOf] at hlookup
  split at hlookup
  · obtain ⟨rfl, hne⟩ := stored_eq_some_iff.mp hlookup
    have hle := Int32.le_iff_toInt_le.mp (largestSyscall_spec hstored.largestOf).2.1
    have hne' : largest.toInt ≠ (0 : Int32).toInt := fun heq => hne (Int32.toInt_inj.mp heq)
    have hzero : (0 : Int32).toInt = 0 := rfl
    dsimp only
    omega
  · cases hlookup

def HasLargest (lib : Names) (rules : List (Option Syscall)) (arch : ScmpArch)
    (found : Option ScmpSyscall) : Prop :=
  (found.isSome ↔ ∃ n, ResolvesTo lib rules arch n ∧ 0 ≤ n) ∧
    ∀ v, found = some v →
      ResolvesTo lib rules arch v ∧ 0 ≤ v ∧ ∀ n, ResolvesTo lib rules arch n → n ≤ v

def LargestIsZero (lib : Names) (rules : List (Option Syscall)) (arch : ScmpArch) : Prop :=
  ResolvesTo lib rules arch 0 ∧ ∀ n, ResolvesTo lib rules arch n → n ≤ 0

theorem hasLargest_stored_iff (h : largestSyscall lib arch rules 0 = .ok largest) :
    HasLargest lib rules arch (stored largest) ↔ ¬ LargestIsZero lib rules arch := by
  obtain ⟨hfound, hstart, hmax⟩ := largestSyscall_spec h
  by_cases hzero : largest = 0
  · -- nothing is stored, and no number is above 0
    subst hzero
    constructor
    · rintro ⟨hsome, -⟩ ⟨hresolves, -⟩
      exact absurd (hsome.mpr ⟨0, hresolves, hstart⟩) (by decide)
    · intro hnot
      refine ⟨⟨fun hsome => absurd hsome (by decide), ?_⟩, nofun⟩
      rintro ⟨n, hn, hnonneg⟩
      have heq : n = 0 := Int32.le_antisymm (hmax n hn) hnonneg
      exact absurd ⟨heq ▸ hn, hmax⟩ hnot
  · have hresolves := hfound.resolve_left hzero
    have hstored : stored largest = some largest := stored_eq_some_iff.mpr ⟨rfl, hzero⟩
    refine iff_of_true ⟨?_, ?_⟩ ?_
    · rw [hstored]
      exact iff_of_true rfl ⟨largest, hresolves, hstart⟩
    · intro v hv
      obtain ⟨rfl, -⟩ := stored_eq_some_iff.mp hv
      exact ⟨hresolves, hstart, hmax⟩
    · rintro ⟨-, hnone⟩
      exact hzero (Int32.le_antisymm (hnone largest hresolves) hstart)

/-- The map has the largest number of an architecture unless that number is 0. -/
theorem findLastSyscalls_exact_iff (lib : Names) (config : Configs.Seccomp)
    (range : List ScmpArch → List ScmpArch) (hrange : ∀ scmpArchs, (range scmpArchs).Perm scmpArchs)
    (lastSyscalls : LastSyscallMap) (h : findLastSyscalls lib config range = .ok lastSyscalls) :
    (∀ arch, Configured lib config arch →
      ∃ auditArch, scmpArchToAuditArch lib arch = .ok auditArch ∧
        (HasLargest lib config.syscalls arch (entry lastSyscalls auditArch arch) ↔
          ¬ LargestIsZero lib config.syscalls arch) ∧
        ∀ other, other ≠ auditArch → entry lastSyscalls other arch = none) ∧
    ∀ arch, ¬ Configured lib config arch →
      ∀ auditArch, entry lastSyscalls auditArch arch = none := by
  obtain ⟨hentry, hnone⟩ := findLastSyscalls_entry hrange h
  refine ⟨fun arch hconfigured => ?_, hnone⟩
  obtain ⟨auditArch, largest, hstored⟩ := hentry arch hconfigured
  refine ⟨auditArch, hstored.audit, ?_, fun other hne => ?_⟩
  · rw [hstored.entryOf, if_pos rfl]
    exact hasLargest_stored_iff hstored.largestOf
  · rw [hstored.entryOf, if_neg hne]

def amd64Names : Names where
  getArchFromString := fun arch =>
    if arch = "amd64".toList then .ok .archAMD64 else .error "unrecognized".toList
  getNativeArch := .ok .archAMD64
  getSyscallFromNameByArch := fun name _ =>
    if name = "read".toList then .ok 0
    else if name = "write".toList then .ok 1
    else .error "no such syscall".toList

def allowing (names : List Text) : Configs.Seccomp where
  defaultAction := .errno
  architectures := ["amd64".toList]
  flags := []
  syscalls := names.map fun name => some ⟨name, .allow, none, []⟩
  defaultErrnoRet := none

theorem findLastSyscalls_exact_write :
    ∃ lastSyscalls,
      findLastSyscalls amd64Names (allowing ["read".toList, "write".toList]) id =
        .ok lastSyscalls ∧
      HasLargest amd64Names (allowing ["read".toList, "write".toList]).syscalls .archAMD64
        (entry lastSyscalls auditArchX8664 .archAMD64) ∧
      entry lastSyscalls auditArchX8664 .archAMD64 = some 1 := by
  refine ⟨_, rfl, ?_, rfl⟩
  obtain ⟨auditArch, haudit, hiff, -⟩ := (findLastSyscalls_exact_iff amd64Names
    (allowing ["read".toList, "write".toList]) id (fun _ => .refl _) _ rfl).1 .archAMD64 (.inr rfl)
  cases haudit
  refine hiff.mpr ?_
  rintro ⟨-, hmax⟩
  exact absurd (hmax 1 ⟨⟨"write".toList, .allow, none, []⟩, .tail _ (.head _), rfl⟩) (by decide)

theorem findLastSyscalls_read :
    ∃ lastSyscalls,
      findLastSyscalls amd64Names (allowing ["read".toList]) id = .ok lastSyscalls ∧
      Configured amd64Names (allowing ["read".toList]) .archAMD64 ∧
      ResolvesTo amd64Names (allowing ["read".toList]).syscalls .archAMD64 0 ∧
      entry lastSyscalls auditArchX8664 .archAMD64 = none :=
  ⟨_, rfl, .inr rfl, ⟨⟨"read".toList, .allow, none, []⟩, .head _, rfl⟩, rfl⟩

end Proofs

theorem findLastSyscalls_positive_write :
    ∃ lastSyscalls,
      findLastSyscalls amd64Names (allowing ["read".toList, "write".toList]) id =
          .ok lastSyscalls ∧ ∀ e ∈ lastSyscalls.entries, e.2.Positive :=
  ⟨_, rfl, findLastSyscalls_positive (fun _ => .refl _)
    (show findLastSyscalls amd64Names (allowing ["read".toList, "write".toList]) id = _ from rfl)⟩

end Runc.Seccomp
