import Runc.Seccomp.EnosysCorrect

/-!
# A stub that is too long for its distances

The distances of the stub are 32-bit words. With about `2 ^ 30` architectures the tail
grows past `2 ^ 32` instructions and `baseJumpEnosys` wraps to zero.
-/

namespace Runc.Seccomp

open Bpf

def crowdEntry (i : Nat) : LastSyscallEntry :=
  ⟨UInt32.ofNat i, AList.singleton .archX86 5⟩

theorem crowdEntry_positive (i : Nat) : (crowdEntry i).2.Positive := by
  show MaxSyscalls.Positive (AList.singleton .archX86 5)
  decide

def crowd (n : Nat) : List LastSyscallEntry :=
  (List.range n).map crowdEntry

def lateEntry (n : Nat) : LastSyscallEntry :=
  ⟨UInt32.ofNat n, AList.singleton .archX86 1⟩

theorem lateEntry_positive (n : Nat) : (lateEntry n).2.Positive := by
  show MaxSyscalls.Positive (AList.singleton .archX86 1)
  decide

def crowdLength (n : Nat) : Nat :=
  if n ≤ 85 then 2 + 3 * n else 257 + 4 * (n - 85)

theorem archSection_single {auditArch : LinuxAuditArch} (harch : auditArch ≠ auditArchX8664)
    (tailLen : Nat) (sysno : ScmpSyscall) :
    archSection tailLen auditArch (AList.singleton .archX86 sysno) =
      .ok (some (.loadAbsolute 0 bpfSizeofInt ::
        singleSectionTail (UInt32.ofNat (tailLen - 1)) sysno)) := by
  simp [archSection, modePrefix, harch, s390Rule, bind, Except.bind]

theorem addSection_of_some {b : Builder} {e : LastSyscallEntry} {sec : List Instruction}
    (hsec : archSection b.programTail.length e.1 e.2 = .ok (some sec)) :
    ∃ b',
      addSection b e = .ok b' ∧
      b'.programTail = sec ++ b.programTail ∧
      b'.archJumpTable.lookup e.1 =
        some (UInt32.ofNat b'.programTail.length) := by
  refine ⟨_, by simp [addSection, hsec, bind, Except.bind]; rfl, rfl, ?_⟩
  simp

theorem sectionEnosys_single {auditArch : LinuxAuditArch} (harch : auditArch ≠ auditArchX8664)
    (sysno : ScmpSyscall) (nr : UInt32) :
    sectionEnosys auditArch (AList.singleton .archX86 sysno) nr =
      decide (sysno.toInt < nr.toNat) := by
  simp [sectionEnosys, storedMax, harch, exceeds, singleS390]

theorem key_ne_x8664 {i : Nat} (hi : i < 2 ^ 31) : UInt32.ofNat i ≠ auditArchX8664 := by
  intro h
  have hval := congrArg UInt32.toNat h
  rw [UInt32.toNat_ofNat'] at hval
  have hx : auditArchX8664.toNat = 0xC000003E := rfl
  omega

theorem crowd_section_length {n : Nat} (hn : crowdLength n < 2 ^ 32) (sysno : ScmpSyscall) :
    (singleSectionTail (UInt32.ofNat (crowdLength n - 1)) sysno).length + 1 +
      crowdLength n = crowdLength (n + 1) := by
  have hbase :
      (UInt32.ofNat (crowdLength n - 1) + 1).toNat = crowdLength n := by
    have hpos : 0 < crowdLength n := by
      unfold crowdLength
      split_ifs <;> omega
    simp
    omega
  unfold singleSectionTail
  by_cases hshort : UInt32.ofNat (crowdLength n - 1) + 1 ≤ 255
  · have hle := UInt32.le_iff_toNat_le.mp hshort
    rw [hbase] at hle
    simp only [hshort, if_true, List.length_cons, List.length_nil]
    have h255 : (255 : UInt32).toNat = 255 := rfl
    unfold crowdLength at hle ⊢
    split_ifs at hle ⊢ <;> omega
  · have hlt := UInt32.lt_iff_toNat_lt.mp (UInt32.not_le.mp hshort)
    rw [hbase] at hlt
    simp only [hshort, if_false, List.length_cons, List.length_nil]
    have h255 : (255 : UInt32).toNat = 255 := rfl
    unfold crowdLength at hlt ⊢
    split_ifs at hlt ⊢ <;> omega

/-- The builder after the sections of the first `n` architectures. -/
structure CrowdBuilt (n : Nat) (b : Builder) : Prop where
  fold : (crowd n).foldlM addSection Builder.init = .ok b
  length : b.programTail.length = crowdLength n
  ends : EndsInEnosys b.programTail

theorem CrowdBuilt.step {n : Nat} {b : Builder} (hb : CrowdBuilt n b) (hkey : n < 2 ^ 31)
    (hn : crowdLength n < 2 ^ 32) :
    ∃ b' sec,
      CrowdBuilt (n + 1) b' ∧
      archSection b.programTail.length (crowdEntry n).1 (crowdEntry n).2 =
        .ok (some sec) ∧
      b'.programTail = sec ++ b.programTail := by
  have hsec : archSection b.programTail.length (crowdEntry n).1 (crowdEntry n).2 = _ :=
    archSection_single (key_ne_x8664 hkey) b.programTail.length 5
  obtain ⟨b', hadd, htail, _⟩ := addSection_of_some hsec
  refine ⟨b', _, ⟨?_, ?_, ?_⟩, hsec, htail⟩
  · have hfold := hb.fold
    rw [crowd] at hfold ⊢
    rw [List.range_succ, List.map_append, List.foldlM_append, hfold]
    simp only [bind, Except.bind, List.map_cons, List.map_nil,
      List.foldlM_cons, List.foldlM_nil, hadd]
    rfl
  · rw [htail, List.length_append, hb.length, ← crowd_section_length hn 5]
    simp
  · rw [htail]
    exact hb.ends.append _

theorem crowd_fold {n : Nat} (hkey : n ≤ 2 ^ 31) (hn : crowdLength (n - 1) < 2 ^ 32) :
    ∃ b, CrowdBuilt n b := by
  induction n with
  | zero => exact ⟨Builder.init, rfl, rfl, ⟨[.jump 1], rfl⟩⟩
  | succ n ih =>
    have hprev : crowdLength (n - 1) < 2 ^ 32 := by
      unfold crowdLength at hn ⊢
      split_ifs at hn ⊢ <;> omega
    obtain ⟨b, hb⟩ := ih (by omega) hprev
    obtain ⟨b', _, hb', _, _⟩ := hb.step (by omega) hn
    exact ⟨b', hb'⟩

theorem exec_foldl_addArchJump_ne (data : SeccompData) (filter : List Instruction)
    (table : AList (fun _ : LinuxAuditArch => UInt32))
    {rest : List LastSyscallEntry} {programTail : List Instruction} {regs : Regs}
    (hne : ∀ e ∈ rest, regs.regA ≠ e.1) :
    exec data.payload
        (rest.foldl (addArchJump table) programTail ++ filter) 0 regs =
      exec data.payload (programTail ++ filter) 0 regs := by
  induction rest generalizing programTail with
  | nil => rfl
  | cons e rest ih =>
    rw [List.foldl_cons, ih (fun d hd => hne d (List.mem_cons_of_mem _ hd))]
    simp only [addArchJump, List.append_assoc, exec_archJump]
    rw [if_neg (hne e (by simp))]

theorem ofNat_ne_of_lt {i n : Nat} (hi : i < n) (hn : n < 2 ^ 31) :
    UInt32.ofNat n ≠ UInt32.ofNat i := by
  intro h
  have hval := congrArg UInt32.toNat h
  rw [UInt32.toNat_ofNat', UInt32.toNat_ofNat'] at hval
  omega

theorem crowd_keys_ne {n : Nat} (hn : n < 2 ^ 31) {e : LastSyscallEntry} (he : e ∈ crowd n) :
    UInt32.ofNat n ≠ e.1 := by
  simp only [crowd, List.mem_map, List.mem_range] at he
  obtain ⟨i, hi, rfl⟩ := he
  exact ofNat_ne_of_lt hi hn

theorem crowded_nodupKeys {n : Nat} (hn : n < 2 ^ 31) : (lateEntry n :: crowd n).NodupKeys := by
  rw [List.nodupKeys_iff_pairwise, List.pairwise_cons]
  refine ⟨fun e he => crowd_keys_ne hn he, ?_⟩
  rw [crowd, List.pairwise_map]
  refine List.pairwise_lt_range.imp_of_mem ?_
  intro i j _ hj hij
  have hlt : j < n := List.mem_range.mp hj
  exact (ofNat_ne_of_lt hij (by omega)).symm

def crowdedMap (n : Nat) (hn : n < 2 ^ 31) : LastSyscallMap where
  entries := lateEntry n :: crowd n
  nodupKeys := crowded_nodupKeys hn

theorem exec_wrapped_section {tail : List Instruction} (hlen : tail.length = 2 ^ 32 + 1)
    (data : SeccompData) (filter : List Instruction) (regs : Regs) (hnr : data.nr = 3) :
    exec data.payload
        (.loadAbsolute 0 bpfSizeofInt ::
          (singleSectionTail (UInt32.ofNat (tail.length - 1)) 1 ++
            (tail ++ filter))) 0 regs =
      exec data.payload (tail ++ filter) 0 { regs with regA := data.nr } := by
  have hbase : UInt32.ofNat (tail.length - 1) = 0 := by
    rw [hlen]
    rfl
  rw [hbase, bpfSizeofInt, exec_payload_nr, hnr]
  rfl

theorem late_jump {b : Builder} {n : Nat} (hoff :
      b.archJumpTable.lookup (UInt32.ofNat n) =
        some (UInt32.ofNat b.programTail.length)) :
    UInt32.ofNat (b.programTail.length + 1) -
      (b.archJumpTable.lookup (UInt32.ofNat n)).getD 0 = 1 := by
  rw [hoff, Option.getD_some, UInt32.ofNat_add, UInt32.add_comm]
  exact UInt32.add_sub_cancel _ _

theorem run_crowded {n : Nat} (hnext : crowdLength n = 2 ^ 32 + 1) (hkey : n < 2 ^ 31)
    (filter : List Instruction) (data : SeccompData) (harch : data.arch = UInt32.ofNat n)
    (hnr : data.nr = 3) (hfilter : AccIndependent filter data.payload) :
    ∃ stub,
      generateEnosysStub (crowd n ++ [lateEntry n]) (lateEntry n :: crowd n) =
        .ok stub ∧
      run (patchFilter stub filter) data.payload =
        run filter data.payload := by
  obtain ⟨m, rfl⟩ : ∃ m, n = m + 1 := by
    refine ⟨n - 1, ?_⟩
    unfold crowdLength at hnext
    split_ifs at hnext <;> omega
  have hm : crowdLength m = 2 ^ 32 - 3 := by
    unfold crowdLength at hnext ⊢
    split_ifs at hnext ⊢ <;> omega
  have hprev : crowdLength (m - 1) < 2 ^ 32 := by
    unfold crowdLength at hm ⊢
    split_ifs at hm ⊢ <;> omega
  obtain ⟨b₀, hb₀⟩ := crowd_fold (by omega : m ≤ 2 ^ 31) hprev
  obtain ⟨b, sec, hb, hsec, htail⟩ := hb₀.step (by omega) (by omega)
  obtain ⟨b', hadd, htail', hoff⟩ := addSection_of_some (e := lateEntry (m + 1))
      (archSection_single (key_ne_x8664 hkey) b.programTail.length 1)
  have hfold : (crowd (m + 1) ++ [lateEntry (m + 1)]).foldlM addSection
        Builder.init = .ok b' := by
    rw [List.foldlM_append, hb.fold]
    simp only [bind, Except.bind, List.foldlM_cons, List.foldlM_nil, hadd]
    rfl
  refine ⟨_, by
    simp only [generateEnosysStub, hfold, bind, Except.bind]; rfl, ?_⟩
  show exec data.payload (.loadAbsolute 4 4 :: (_ ++ filter)) 0 Regs.init = _
  rw [exec_payload_arch, List.foldl_cons, exec_foldl_addArchJump_ne]
  · simp only [addArchJump, lateEntry, List.length_cons, late_jump hoff,
      List.append_assoc, exec_archJump, harch, if_true]
    show exec data.payload (_ :: (b'.programTail ++ filter)) (0 + 1) _ = _
    rw [exec_cons_succ, htail', List.append_assoc, List.cons_append,
      exec_wrapped_section (hb.length.trans hnext) data filter _ hnr, htail,
      List.append_assoc,
      -- the neighbour is a section the code builds correctly
      exec_archSection data filter hb₀.ends (by rw [hb₀.length]; omega)
        (crowdEntry_positive m) hsec]
    have hbelow :
        sectionEnosys (crowdEntry m).1 (crowdEntry m).2 data.nr = false := by
      rw [hnr]
      exact sectionEnosys_single (key_ne_x8664 (by omega)) 5 3
    rw [hbelow]
    exact hfilter data.nr
  · intro e he
    exact harch ▸ crowd_keys_ne hkey he

def crowdSize : Nat := 2 ^ 30 + 21

theorem crowdSize_lt : crowdSize < 2 ^ 31 := by
  unfold crowdSize
  omega

def lateCall : SeccompData where
  nr := 3
  arch := UInt32.ofNat crowdSize
  instructionPointer := 0
  args := fun _ => 0

theorem enosysExpected_lateCall :
    enosysExpected (crowdedMap crowdSize crowdSize_lt) lateCall = true := by
  have hlookup : (crowdedMap crowdSize crowdSize_lt).lookup lateCall.arch =
        some (AList.singleton .archX86 1) :=
    AList.mem_lookup_iff.mpr (List.mem_cons_self ..)
  have hsection :
      sectionEnosys lateCall.arch (AList.singleton .archX86 1) 3 = true :=
    sectionEnosys_single (key_ne_x8664 crowdSize_lt) 1 3
  show (true && sectionEnosys lateCall.arch _ 3) = true
  rfl

theorem run_patchFilter_wraps :
    ¬ ∀ lastSyscalls : LastSyscallMap,
        (∀ e ∈ lastSyscalls.entries, e.2.Positive) →
        ∀ order₁ order₂ : List LastSyscallEntry,
        order₁.Perm lastSyscalls.entries →
        order₂.Perm lastSyscalls.entries →
        ∀ stub, generateEnosysStub order₁ order₂ = .ok stub →
        ∀ filter data, AccIndependent filter (SeccompData.payload data) →
          run (patchFilter stub filter) data.payload =
            if enosysExpected lastSyscalls data then
              some retErrnoEnosys
            else
              run filter data.payload := by
  intro hclaim
  have hlen : crowdLength crowdSize = 2 ^ 32 + 1 := by
    decide
  obtain ⟨stub, hstub, hrun⟩ := run_crowded hlen crowdSize_lt [.retConstant 0x7fff0000] lateCall
      rfl rfl (fun _ => rfl)
  have hpos :
      ∀ e ∈ (crowdedMap crowdSize crowdSize_lt).entries, e.2.Positive := by
    intro e he
    rcases List.mem_cons.mp he with rfl | he
    · exact lateEntry_positive _
    · simp only [crowd, List.mem_map] at he
      obtain ⟨i, _, rfl⟩ := he
      exact crowdEntry_positive i
  have hexpected := hclaim (crowdedMap crowdSize crowdSize_lt) hpos _ _
      (List.perm_append_singleton _ _) (List.Perm.refl _) stub hstub
      [.retConstant 0x7fff0000] lateCall (fun _ => rfl)
  rw [hrun, enosysExpected_lateCall] at hexpected
  revert hexpected
  decide

end Runc.Seccomp
