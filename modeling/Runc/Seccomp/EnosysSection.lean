import Runc.Seccomp.EnosysStub

/-!
# One section of the -ENOSYS stub

A section is correct in front of every tail that ends in the -ENOSYS return:
on an input of its architecture it either returns -ENOSYS or continues with
whatever follows the tail, leaving the other registers alone.
-/

namespace Runc.Seccomp

open Bpf

def storedMax (auditArch : LinuxAuditArch) (maxSyscalls : MaxSyscalls)
    (nr : UInt32) : Option ScmpSyscall :=
  if auditArch = auditArchX8664 then
    maxSyscalls.lookup
      (if nr &&& x32SyscallBit ≠ 0 then .archX32 else .archAMD64)
  else
    match maxSyscalls.entries with
    | [⟨_, sysno⟩] => some sysno
    | _ => none

def singleS390 (maxSyscalls : MaxSyscalls) : Bool :=
  match maxSyscalls.entries with
  | [⟨scmpArch, _⟩] =>
      decide (scmpArch = .archS390 ∨ scmpArch = .archS390X)
  | _ => false

def exceeds (nr : UInt32) : Option ScmpSyscall → Bool
  | none => false
  | some sysno => decide (sysno.toInt < nr.toNat)

def sectionEnosys (auditArch : LinuxAuditArch) (maxSyscalls : MaxSyscalls)
    (nr : UInt32) : Bool :=
  exceeds nr (storedMax auditArch maxSyscalls nr) ||
    (singleS390 maxSyscalls && nr == 0)

def MaxSyscalls.Positive (maxSyscalls : MaxSyscalls) : Prop :=
  ∀ e ∈ maxSyscalls.entries, (0 : Int) < e.2.toInt

instance (maxSyscalls : MaxSyscalls) : Decidable maxSyscalls.Positive :=
  inferInstanceAs (Decidable (∀ e ∈ maxSyscalls.entries, (0 : Int) < e.2.toInt))

theorem lt_toUInt32_iff {sysno : ScmpSyscall} (nr : UInt32) (hpos : (0 : Int) < sysno.toInt) :
    sysno.toUInt32 < nr ↔ sysno.toInt < nr.toNat := by
  have hnonneg : (0 : ScmpSyscall) ≤ sysno := by
    rw [Int32.le_iff_toInt_le]
    exact le_of_lt hpos
  have hval : sysno.toUInt32.toNat = sysno.toInt.toNat := Int32.toNat_toUInt32_of_le hnonneg
  rw [UInt32.lt_iff_toNat_lt, hval]
  omega

@[simp] theorem s390xMultiplexSyscall_toUInt32 :
    s390xMultiplexSyscall.toUInt32 = 0 := by
  rfl

section Landing

variable {input : List UInt8} {filter tail : List Instruction}

def EndsInEnosys (tail : List Instruction) : Prop :=
  ∃ front, tail = front ++ [.retConstant retErrnoEnosys]

theorem EndsInEnosys.length_pos (htail : EndsInEnosys tail) : 0 < tail.length := by
  obtain ⟨front, rfl⟩ := htail
  simp

theorem EndsInEnosys.append (htail : EndsInEnosys tail) (sec : List Instruction) :
    EndsInEnosys (sec ++ tail) := by
  obtain ⟨front, rfl⟩ := htail
  exact ⟨sec ++ front, by simp⟩

theorem exec_land_enosys (htail : EndsInEnosys tail) (regs : Regs) :
    exec input (tail ++ filter) (tail.length - 1) regs =
      some retErrnoEnosys := by
  obtain ⟨front, rfl⟩ := htail
  have hlen : (front ++ [Instruction.retConstant retErrnoEnosys]).length - 1 =
        front.length := by
    simp
  rw [hlen, List.append_assoc, exec_append_length]
  rfl

end Landing

section SingleSection

variable (input : List UInt8) (filter : List Instruction)
variable {tail : List Instruction}
variable (htail : EndsInEnosys tail)
variable (hlen : tail.length + 2 < 2 ^ 32)
include htail hlen

theorem base_add_one_toNat : (UInt32.ofNat (tail.length - 1) + 1).toNat = tail.length := by
  have hpos := htail.length_pos
  simp
  omega

theorem base_add_two_toNat : (UInt32.ofNat (tail.length - 1) + 2).toNat = tail.length + 1 := by
  have hpos := htail.length_pos
  simp
  omega

theorem exec_singleSectionTail (sysno : ScmpSyscall) (regs : Regs) :
    exec input
        (singleSectionTail (UInt32.ofNat (tail.length - 1)) sysno ++
          (tail ++ filter)) 0 regs =
      if sysno.toUInt32 < regs.regA then
        some retErrnoEnosys
      else
        exec input filter 0 regs := by
  have hpos := htail.length_pos
  have hone := base_add_one_toNat htail hlen
  unfold singleSectionTail
  by_cases hshort : UInt32.ofNat (tail.length - 1) + 1 ≤ 255
  · have hle : tail.length ≤ 255 := by
      have := UInt32.le_iff_toNat_le.mp hshort
      rw [hone] at this
      simpa using this
    have hskip : (UInt32.ofNat (tail.length - 1) + 1).toUInt8.toNat =
          (tail.length - 1) + 1 := by
      rw [UInt32.toNat_toUInt8, hone]
      omega
    simp only [hshort, if_true, List.cons_append, List.nil_append,
      exec_jumpIf, JumpTest.holds, decide_eq_true_eq, hskip,
      exec_cons_succ]
    split_ifs with hgt
    · exact exec_land_enosys htail regs
    · simp [hone, exec_append_length]
  · simp only [hshort, if_false, List.cons_append, List.nil_append,
      exec_jumpIf, JumpTest.holds, decide_eq_true_eq]
    by_cases hgt : sysno.toUInt32 < regs.regA
    · have hnle := UInt32.not_le.mpr hgt
      simp [hgt, hnle]
    · have hle := UInt32.not_lt.mp hgt
      simp [hgt, hle, hone, exec_append_length]

theorem exec_singleSectionTail_skip (sysno : ScmpSyscall) (regs : Regs) :
    exec input
        (singleSectionTail (UInt32.ofNat (tail.length - 1)) sysno ++
          (tail ++ filter)) ((singleSectionTail (UInt32.ofNat (tail.length - 1))
          sysno).length - 1) regs =
      exec input filter 0 regs := by
  have hone := base_add_one_toNat htail hlen
  unfold singleSectionTail
  by_cases hshort : UInt32.ofNat (tail.length - 1) + 1 ≤ 255
  · simp [hshort, hone, exec_append_length]
  · simp [hshort, hone, exec_append_length]

theorem exec_doubleSectionTail (x86sysno x32sysno : ScmpSyscall) (regs : Regs) :
    exec input
        (doubleSectionTail (UInt32.ofNat (tail.length - 1))
            x86sysno x32sysno ++
          (tail ++ filter)) 0 regs =
      if (if regs.regA &&& x32SyscallBit ≠ 0 then x32sysno
          else x86sysno).toUInt32 < regs.regA then
        some retErrnoEnosys
      else
        exec input filter 0 regs := by
  have hpos := htail.length_pos
  have hone := base_add_one_toNat htail hlen
  have htwo := base_add_two_toNat htail hlen
  unfold doubleSectionTail
  by_cases hshort : UInt32.ofNat (tail.length - 1) + 2 ≤ 255
  · have hle : tail.length + 1 ≤ 255 := by
      have := UInt32.le_iff_toNat_le.mp hshort
      rw [htwo] at this
      simpa using this
    have hskip₁ : (UInt32.ofNat (tail.length - 1) + 1).toUInt8.toNat =
          (tail.length - 1) + 1 := by
      rw [UInt32.toNat_toUInt8, hone]
      omega
    have hskip₂ : (UInt32.ofNat (tail.length - 1) + 2).toUInt8.toNat =
          (tail.length - 1) + 1 + 1 := by
      rw [UInt32.toNat_toUInt8, htwo]
      omega
    rw [if_pos hshort]
    -- keep the two distances opaque: only their values matter below
    generalize (UInt32.ofNat (tail.length - 1) + 1).toUInt8 = skip₁ at hskip₁ ⊢
    generalize (UInt32.ofNat (tail.length - 1) + 2).toUInt8 = skip₂ at hskip₂ ⊢
    by_cases hbit : regs.regA &&& x32SyscallBit = 0
    · simp [JumpTest.holds, hbit, hskip₂, hone, exec_append_length, exec_land_enosys htail]
    · simp [JumpTest.holds, hbit, hskip₁, hone, exec_append_length, exec_land_enosys htail]
  · by_cases hbit : regs.regA &&& x32SyscallBit = 0
    · by_cases hgt : x86sysno.toUInt32 < regs.regA
      · simp [hshort, JumpTest.holds, hbit, hgt]
      · simp [hshort, JumpTest.holds, hbit, hgt, hone, exec_append_length]
    · by_cases hgt : x32sysno.toUInt32 < regs.regA
      · have hnle := UInt32.not_le.mpr hgt
        simp [hshort, JumpTest.holds, hbit, hgt, hnle]
      · have hle := UInt32.not_lt.mp hgt
        simp [hshort, JumpTest.holds, hbit, hgt, hle, hone, exec_append_length]

end SingleSection

theorem archSection_none_iff
    {tailLen : Nat} {auditArch : LinuxAuditArch} {maxSyscalls : MaxSyscalls}
    {sec : Option (List Instruction)} (hsec : archSection tailLen auditArch maxSyscalls = .ok sec) :
    sec = none ↔ maxSyscalls.entries = [] := by
  unfold archSection at hsec
  rcases hentries : maxSyscalls.entries with _ | ⟨e₁, _ | ⟨e₂, _ | ⟨e₃, rest⟩⟩⟩
  · simp [hentries] at hsec
    simp [hsec.symm]
  · simp only [hentries] at hsec
    cases hmode : modePrefix auditArch e₁.1
        (singleSectionTail (UInt32.ofNat (tailLen - 1)) e₁.2) with
    | error err => simp [hmode, bind, Except.bind] at hsec
    | ok sectionTail =>
      simp [hmode, bind, Except.bind] at hsec
      simp [hsec.symm]
  · simp only [hentries] at hsec
    split_ifs at hsec
    cases hx32 : maxSyscalls.lookup .archX32 with
    | none => simp [hx32] at hsec
    | some x32sysno =>
      cases hx86 : maxSyscalls.lookup .archAMD64 with
      | none => simp [hx32, hx86] at hsec
      | some x86sysno =>
        simp [hx32, hx86] at hsec
        simp [hsec.symm]
  · simp [hentries] at hsec

section ArchSection

variable (data : SeccompData) (filter : List Instruction)
variable {tail : List Instruction}
variable (htail : EndsInEnosys tail)
variable (hlen : tail.length + 2 < 2 ^ 32)
include htail hlen

theorem exec_modePrefix {auditArch : LinuxAuditArch} {maxSyscalls : MaxSyscalls}
    {scmpArch : ScmpArch} {sysno : ScmpSyscall} {sectionTail : List Instruction}
    (hentries : maxSyscalls.entries = [⟨scmpArch, sysno⟩]) (hpos : (0 : Int) < sysno.toInt) (hmode :
      modePrefix auditArch scmpArch
        (singleSectionTail (UInt32.ofNat (tail.length - 1)) sysno) =
          .ok sectionTail) (regs : Regs) :
    exec data.payload (sectionTail ++ (tail ++ filter)) 0 regs =
      if exceeds regs.regA (storedMax auditArch maxSyscalls regs.regA) then
        some retErrnoEnosys
      else
        exec data.payload filter 0 regs := by
  have hsingle := exec_singleSectionTail data.payload filter htail hlen sysno regs
  have hskip := exec_singleSectionTail_skip data.payload filter htail hlen sysno regs
  have hlt := lt_toUInt32_iff regs.regA hpos
  have hbound : (UInt8.ofNat ((singleSectionTail (UInt32.ofNat (tail.length - 1))
          sysno).length - 1)).toNat =
        (singleSectionTail (UInt32.ofNat (tail.length - 1))
          sysno).length - 1 := by
    unfold singleSectionTail
    split_ifs <;> rfl
  unfold modePrefix at hmode
  by_cases harch : auditArch = auditArchX8664
  · rw [if_pos harch] at hmode
    have hlookup : ∀ other : ScmpArch, maxSyscalls.lookup other =
          if scmpArch = other then some sysno else none := by
      intro other
      by_cases hsame : scmpArch = other
      · subst hsame
        simp [AList.lookup, hentries]
      · rw [AList.lookup, hentries, List.dlookup_cons_ne _ _ (Ne.symm hsame),
          List.dlookup_nil, if_neg hsame]
    split at hmode
    · cases hmode
      rw [List.cons_append, exec_jumpIf, hbound, hskip]
      by_cases hbit : regs.regA &&& x32SyscallBit = 0
      · simp [JumpTest.holds, hbit, hsingle, storedMax, harch, hlookup, exceeds, hlt]
      · simp [JumpTest.holds, hbit, storedMax, harch, hlookup, exceeds]
    · cases hmode
      rw [List.cons_append, exec_jumpIf, hbound, hskip]
      by_cases hbit : regs.regA &&& x32SyscallBit = 0
      · simp [JumpTest.holds, hbit, storedMax, harch, hlookup, exceeds]
      · simp [JumpTest.holds, hbit, hsingle, storedMax, harch, hlookup, exceeds, hlt]
    · cases hmode
  · rw [if_neg harch] at hmode
    cases hmode
    simp [hsingle, storedMax, harch, hentries, exceeds, hlt]

theorem exec_archSection {auditArch : LinuxAuditArch} {maxSyscalls : MaxSyscalls}
    {sec : List Instruction} (hpos : maxSyscalls.Positive) (hsec :
      archSection tail.length auditArch maxSyscalls = .ok (some sec)) (regs : Regs) :
    exec data.payload (sec ++ (tail ++ filter)) 0 regs =
      if sectionEnosys auditArch maxSyscalls data.nr then
        some retErrnoEnosys
      else
        exec data.payload filter 0 { regs with regA := data.nr } := by
  unfold archSection at hsec
  rcases hentries : maxSyscalls.entries with
    _ | ⟨⟨scmpArch, sysno⟩, _ | ⟨e₂, _ | ⟨e₃, rest⟩⟩⟩
  · simp [hentries] at hsec
  · simp only [hentries] at hsec
    have hsysno : (0 : Int) < sysno.toInt := hpos ⟨scmpArch, sysno⟩ (by simp [hentries])
    cases hmode : modePrefix auditArch scmpArch
        (singleSectionTail (UInt32.ofNat (tail.length - 1)) sysno) with
    | error err => simp [hmode, bind, Except.bind] at hsec
    | ok sectionTail =>
      simp only [hmode, bind, Except.bind, Except.ok.injEq, Option.some.injEq] at hsec
      subst hsec
      have hexec := exec_modePrefix data filter htail hlen hentries hsysno hmode
          { regs with regA := data.nr }
      by_cases hs390 : scmpArch = .archS390 ∨ scmpArch = .archS390X
      · by_cases hzero : data.nr = 0
        · simp [bpfSizeofInt, s390Rule, hs390, JumpTest.holds, hzero,
            sectionEnosys, singleS390, hentries]
        · simp [bpfSizeofInt, s390Rule, hs390, JumpTest.holds, hzero,
            sectionEnosys, singleS390, hentries, hexec]
      · simp [bpfSizeofInt, s390Rule, hs390, sectionEnosys, singleS390, hentries, hexec]
  · simp only [hentries] at hsec
    have hnot : singleS390 maxSyscalls = false := by
      simp [singleS390, hentries]
    by_cases harch : auditArch = auditArchX8664
    · rw [if_neg (by simpa using harch)] at hsec
      cases hx32 : maxSyscalls.lookup .archX32 with
      | none => simp [hx32] at hsec
      | some x32sysno =>
        cases hx86 : maxSyscalls.lookup .archAMD64 with
        | none => simp [hx32, hx86] at hsec
        | some x86sysno =>
          simp only [hx32, hx86, Except.ok.injEq, Option.some.injEq] at hsec
          subst hsec
          have hp32 : (0 : Int) < x32sysno.toInt := hpos _ (AList.mem_lookup_iff.mp hx32)
          have hp86 : (0 : Int) < x86sysno.toInt := hpos _ (AList.mem_lookup_iff.mp hx86)
          have hexec := exec_doubleSectionTail data.payload filter htail hlen
              x86sysno x32sysno { regs with regA := data.nr }
          simp only [bpfSizeofInt, List.cons_append, exec_payload_nr, hexec]
          by_cases hbit : data.nr &&& x32SyscallBit = 0
          · have hmax : storedMax auditArch maxSyscalls data.nr =
                  some x86sysno := by
              rw [storedMax, if_pos harch, if_neg (by simpa using hbit)]
              exact hx86
            simp [hbit, sectionEnosys, hnot, hmax, exceeds, lt_toUInt32_iff data.nr hp86]
          · have hmax : storedMax auditArch maxSyscalls data.nr =
                  some x32sysno := by
              rw [storedMax, if_pos harch, if_pos (by simpa using hbit)]
              exact hx32
            simp [hbit, sectionEnosys, hnot, hmax, exceeds, lt_toUInt32_iff data.nr hp32]
    · simp [harch] at hsec
  · simp [hentries] at hsec

end ArchSection

end Runc.Seccomp
