import Runc.Lib.Program
import Runc.Seccomp.EnosysSection

/-!
# The -ENOSYS stub refines its table

The two loops of `generateEnosysStub` are followed with one invariant each.

* `Sections`: every architecture visited by the first loop has a suffix of the
  program that decides for it, and the jump table holds the length of that
  suffix.  Prepending sections never moves a suffix, because offsets are
  counted from the end.
* `ArchJumps`: with the audit architecture in the accumulator, the program
  decides as the entry of that architecture asks, or falls into the filter.

Distances are 32-bit words, so the result is stated for stubs of fewer than
`2 ^ 32` instructions.
-/

namespace Runc.Seccomp

open Bpf
open Lib (bind_eq_ok foldlM_keeps)

def enosysExpected (lastSyscalls : LastSyscallMap) (data : SeccompData) : Bool :=
  match lastSyscalls.lookup data.arch with
  | none => false
  | some maxSyscalls =>
      !maxSyscalls.entries.isEmpty &&
        sectionEnosys data.arch maxSyscalls data.nr

section Loops

variable (data : SeccompData) (filter : List Instruction)

def entryResult (e : LastSyscallEntry) (regs : Regs) : Option UInt32 :=
  if e.2.entries = [] then
    exec data.payload filter 0 regs
  else if sectionEnosys e.1 e.2 data.nr then
    some retErrnoEnosys
  else
    exec data.payload filter 0 { regs with regA := data.nr }

/-- The jump table leads to a suffix of the program that decides for `e`. -/
def Leads (b : Builder) (e : LastSyscallEntry) : Prop :=
  ∃ front rest,
    b.programTail = front ++ rest ∧
    UInt32.ofNat rest.length = (b.archJumpTable.lookup e.1).getD 0 ∧
    ∀ regs,
      exec data.payload (rest ++ filter) 0 regs =
        entryResult data filter e regs

/-- Invariant of the first loop after the entries `done`. -/
structure Sections (done : List LastSyscallEntry) (b : Builder) : Prop where
  ends : EndsInEnosys b.programTail
  leads : ∀ e ∈ done, Leads data filter b e
  fresh : ∀ key, (∀ e ∈ done, e.1 ≠ key) → b.archJumpTable.lookup key = none

theorem addSection_cases {b b' : Builder} {e : LastSyscallEntry} (hadd : addSection b e = .ok b') :
    (archSection b.programTail.length e.1 e.2 = .ok none ∧ b' = b) ∨
    ∃ sec, archSection b.programTail.length e.1 e.2 = .ok (some sec) ∧
      b' =
        { programTail := sec ++ b.programTail
          archJumpTable := b.archJumpTable.insert e.1
            (UInt32.ofNat (sec ++ b.programTail).length) } := by
  obtain ⟨sec, hsec, hadd⟩ := bind_eq_ok hadd
  cases sec with
  | none =>
    cases hadd
    exact .inl ⟨hsec, rfl⟩
  | some sec =>
    cases hadd
    exact .inr ⟨sec, hsec, rfl⟩

theorem foldlM_addSection_length_le {rest : List LastSyscallEntry} {b b' : Builder}
    (hfold : rest.foldlM addSection b = .ok b') : b.programTail.length ≤ b'.programTail.length := by
  refine foldlM_keeps (fun _ c => b.programTail.length ≤ c.programTail.length) hfold
    (Nat.le_refl _) ?_
  rintro - e - c c' - hle hadd -
  obtain ⟨-, rfl⟩ | ⟨sec, -, rfl⟩ := addSection_cases hadd
  · exact hle
  · rw [List.length_append]
    omega

theorem Leads.prepend {b : Builder} {e : LastSyscallEntry} (hleads : Leads data filter b e)
    (sec : List Instruction) (key : LinuxAuditArch) (off : UInt32) (hkey : e.1 ≠ key) :
    Leads data filter
      { programTail := sec ++ b.programTail
        archJumpTable := b.archJumpTable.insert key off } e := by
  obtain ⟨front, rest, htail, hoff, hexec⟩ := hleads
  refine ⟨sec ++ front, rest, ?_, ?_, hexec⟩
  · simp [htail]
  · simpa [AList.lookup_insert_ne hkey] using hoff

theorem Sections.step {done : List LastSyscallEntry} {b b' : Builder} {e : LastSyscallEntry}
    (hinv : Sections data filter done b) (hnew : ∀ d ∈ done, d.1 ≠ e.1) (hpos : e.2.Positive)
    (hadd : addSection b e = .ok b') (hlen : b'.programTail.length + 2 < 2 ^ 32) :
    Sections data filter (e :: done) b' := by
  obtain ⟨hsec, rfl⟩ | ⟨sec, hsec, rfl⟩ := addSection_cases hadd
  · have hempty : e.2.entries = [] := (archSection_none_iff hsec).mp rfl
    refine ⟨hinv.ends, ?_, ?_⟩
    · intro d hd
      rcases List.mem_cons.mp hd with rfl | hd
      · refine ⟨b'.programTail, [], by simp, ?_, ?_⟩
        · simp [hinv.fresh d.1 hnew]
        · intro regs
          simp [entryResult, hempty]
      · exact hinv.leads d hd
    · intro key hkey
      exact hinv.fresh key (fun d hd => hkey d (List.mem_cons_of_mem _ hd))
  · simp only [List.length_append] at hlen
    have hne : e.2.entries ≠ [] := fun h => by simpa using (archSection_none_iff hsec).mpr h
    refine ⟨hinv.ends.append sec, ?_, ?_⟩
    · intro d hd
      rcases List.mem_cons.mp hd with rfl | hd
      · refine ⟨[], sec ++ b.programTail, by simp, by simp, ?_⟩
        intro regs
        have hexec := exec_archSection data filter hinv.ends (by omega) hpos hsec regs
        simpa [entryResult, hne] using hexec
      · exact (hinv.leads d hd).prepend data filter sec e.1 _ (hnew d hd)
    · intro key hkey
      have hself : key ≠ e.1 := fun h => hkey e (by simp) h.symm
      simpa [AList.lookup_insert_ne hself] using
        hinv.fresh key (fun d hd => hkey d (List.mem_cons_of_mem _ hd))

theorem Sections.run {order : List LastSyscallEntry} {b b' : Builder}
    (hinv : Sections data filter [] b) (hnodup : (order.map Sigma.fst).Nodup)
    (hpos : ∀ e ∈ order, e.2.Positive) (hfold : order.foldlM addSection b = .ok b')
    (hlen : b'.programTail.length + 2 < 2 ^ 32) : Sections data filter order.reverse b' := by
  refine foldlM_keeps (fun done => Sections data filter done.reverse) hfold hinv ?_
  intro done e rest c c' hsplit hdone hadd hrest
  have hle := foldlM_addSection_length_le hrest
  have hnew : ∀ d ∈ done.reverse, d.1 ≠ e.1 := by
    intro d hd
    rw [hsplit, List.map_append, List.nodup_append] at hnodup
    exact hnodup.2.2 d.1 (List.mem_map_of_mem (List.mem_reverse.mp hd)) e.1 List.mem_cons_self
  have hmem : e ∈ order := hsplit ▸ List.mem_append_right _ List.mem_cons_self
  rw [List.reverse_append, List.reverse_singleton, List.singleton_append]
  exact hdone.step data filter hnew (hpos e hmem) hadd (by omega)

theorem Sections.init : Sections data filter [] Builder.init where
  ends := ⟨[.jump 1], rfl⟩
  leads := by simp
  fresh := by simp [Builder.init]

/-- Invariant of the second loop after the entries `done`. -/
structure ArchJumps (b : Builder) (done : List LastSyscallEntry)
    (programTail : List Instruction) : Prop where
  suffix : ∃ front, programTail = front ++ b.programTail
  known : ∀ e ∈ done, ∀ regs : Regs, regs.regA = e.1 →
    exec data.payload (programTail ++ filter) 0 regs =
      entryResult data filter e regs
  unknown : ∀ regs : Regs, (∀ e ∈ done, regs.regA ≠ e.1) →
    exec data.payload (programTail ++ filter) 0 regs =
      exec data.payload filter 0 regs

theorem exec_archJump (auditArch : LinuxAuditArch) (jump : UInt32)
    (rest : List Instruction) (regs : Regs) :
    exec data.payload (archJump auditArch jump ++ rest) 0 regs =
      if regs.regA = auditArch then
        exec data.payload rest jump.toNat regs
      else
        exec data.payload rest 0 regs := by
  unfold archJump
  by_cases hshort : jump ≤ 255
  · have hskip : jump.toUInt8.toNat = jump.toNat := by
      have hle := UInt32.le_iff_toNat_le.mp hshort
      rw [UInt32.toNat_toUInt8]
      have h255 : (255 : UInt32).toNat = 255 := rfl
      omega
    rw [if_pos hshort]
    generalize jump.toUInt8 = skip at hskip ⊢
    by_cases harch : regs.regA = auditArch
    · simp [JumpTest.holds, harch, hskip]
    · simp [JumpTest.holds, harch]
  · by_cases harch : regs.regA = auditArch
    · simp [hshort, JumpTest.holds, harch]
    · simp [hshort, JumpTest.holds, harch]

theorem exec_jump_leads {b : Builder} {e : LastSyscallEntry} {programTail : List Instruction}
    (hleads : Leads data filter b e) (hsuffix : ∃ front, programTail = front ++ b.programTail)
    (hlen : programTail.length < 2 ^ 32) (regs : Regs) :
    exec data.payload (programTail ++ filter)
        (UInt32.ofNat programTail.length -
          (b.archJumpTable.lookup e.1).getD 0).toNat regs =
      entryResult data filter e regs := by
  obtain ⟨front, rest, htail, hoff, hexec⟩ := hleads
  obtain ⟨front', rfl⟩ := hsuffix
  simp only [htail, List.length_append] at hlen
  have hjump : (UInt32.ofNat (front' ++ b.programTail).length -
        (b.archJumpTable.lookup e.1).getD 0).toNat =
          (front' ++ front).length := by
    rw [← hoff, UInt32.toNat_sub, UInt32.toNat_ofNat', UInt32.toNat_ofNat']
    simp only [htail, List.length_append]
    omega
  have hsplit : front' ++ b.programTail ++ filter =
        (front' ++ front) ++ (rest ++ filter) := by
    simp [htail]
  rw [hjump, hsplit, exec_append_length, hexec]

theorem ArchJumps.step {b : Builder} {done : List LastSyscallEntry} {e : LastSyscallEntry}
    {programTail : List Instruction} (hinv : ArchJumps data filter b done programTail)
    (hleads : Leads data filter b e) (hnew : ∀ d ∈ done, d.1 ≠ e.1)
    (hlen : programTail.length < 2 ^ 32) :
    ArchJumps data filter b (e :: done)
      (addArchJump b.archJumpTable programTail e) := by
  have hexec := fun regs => exec_jump_leads data filter hleads hinv.suffix hlen regs
  obtain ⟨front, hfront⟩ := hinv.suffix
  refine ⟨?_, ?_, ?_⟩
  · refine ⟨archJump e.1 (UInt32.ofNat programTail.length -
      (b.archJumpTable.lookup e.1).getD 0) ++ front, ?_⟩
    simp [addArchJump, hfront]
  · intro d hd regs hregs
    simp only [addArchJump, List.append_assoc, exec_archJump]
    rcases List.mem_cons.mp hd with rfl | hd
    · rw [if_pos hregs, hexec]
    · have hne : regs.regA ≠ e.1 := by
        rw [hregs]
        exact hnew d hd
      rw [if_neg hne, hinv.known d hd regs hregs]
  · intro regs hregs
    simp only [addArchJump, List.append_assoc, exec_archJump]
    rw [if_neg (hregs e (by simp)),
      hinv.unknown regs (fun d hd => hregs d (List.mem_cons_of_mem _ hd))]

theorem foldl_addArchJump_length_le (table : AList (fun _ : LinuxAuditArch => UInt32))
    (rest : List LastSyscallEntry) (programTail : List Instruction) :
    programTail.length ≤
      (rest.foldl (addArchJump table) programTail).length := by
  induction rest generalizing programTail with
  | nil => simp
  | cons e rest ih =>
    have hle := ih (addArchJump table programTail e)
    have hone :
        programTail.length ≤ (addArchJump table programTail e).length := by
      simp [addArchJump]
    simp only [List.foldl_cons]
    omega

theorem ArchJumps.run {b : Builder} {rest done : List LastSyscallEntry}
    {programTail : List Instruction} (hinv : ArchJumps data filter b done programTail)
    (hleads : ∀ e ∈ rest, Leads data filter b e) (hnodup : (rest.map Sigma.fst).Nodup)
    (hnew : ∀ d ∈ done, ∀ e ∈ rest, d.1 ≠ e.1) (hlen :
      (rest.foldl (addArchJump b.archJumpTable) programTail).length <
        2 ^ 32) :
    ArchJumps data filter b (rest.reverse ++ done)
      (rest.foldl (addArchJump b.archJumpTable) programTail) := by
  induction rest generalizing done programTail with
  | nil => simpa using hinv
  | cons e rest ih =>
    have hle := foldl_addArchJump_length_le b.archJumpTable (e :: rest) programTail
    have hstep := hinv.step data filter (hleads e (by simp))
        (fun d hd => hnew d hd e (by simp)) (by omega)
    simp only [List.map_cons, List.nodup_cons, List.mem_map, not_exists, not_and] at hnodup
    have hrun := ih hstep (fun f hf => hleads f (List.mem_cons_of_mem _ hf)) hnodup.2
        (fun d hd f hf => by
          rcases List.mem_cons.mp hd with rfl | hd
          · exact fun h => hnodup.1 f hf h.symm
          · exact hnew d hd f (List.mem_cons_of_mem _ hf))
        hlen
    simpa using hrun

theorem ArchJumps.init {b : Builder} (hlen : b.programTail.length < 2 ^ 32) :
    ArchJumps data filter b []
      (.jump (UInt32.ofNat b.programTail.length) :: b.programTail) where
  suffix := ⟨[.jump _], rfl⟩
  known := by simp
  unknown := by
    intro regs _
    have hskip : (UInt32.ofNat b.programTail.length).toNat =
          b.programTail.length := by
      rw [UInt32.toNat_ofNat']
      omega
    rw [List.cons_append, exec_jump, hskip, exec_append_length]

end Loops

theorem generateEnosysStub_ok {order₁ order₂ : List LastSyscallEntry} {stub : List Instruction}
    (hstub : generateEnosysStub order₁ order₂ = .ok stub) :
    ∃ b,
      order₁.foldlM addSection Builder.init = .ok b ∧
      stub = .loadAbsolute 4 4 ::
        order₂.foldl (addArchJump b.archJumpTable)
          (.jump (UInt32.ofNat b.programTail.length) :: b.programTail) := by
  obtain ⟨b, hfold, hstub⟩ := bind_eq_ok hstub
  exact ⟨b, hfold, (Except.ok.inj hstub).symm⟩

/-- The patched filter. -/
theorem run_patchFilter (lastSyscalls : LastSyscallMap)
    (hpos : ∀ e ∈ lastSyscalls.entries, e.2.Positive) {order₁ order₂ : List LastSyscallEntry}
    (hperm₁ : order₁.Perm lastSyscalls.entries) (hperm₂ : order₂.Perm lastSyscalls.entries)
    {stub : List Instruction} (hstub : generateEnosysStub order₁ order₂ = .ok stub)
    (hfit : stub.length < 2 ^ 32) (filter : List Instruction) (data : SeccompData)
    (hfilter : AccIndependent filter data.payload) :
    run (patchFilter stub filter) data.payload =
      if enosysExpected lastSyscalls data then
        some retErrnoEnosys
      else
        run filter data.payload := by
  obtain ⟨b, hfold, rfl⟩ := generateEnosysStub_ok hstub
  simp only [List.length_cons] at hfit
  have hkeys : (lastSyscalls.entries.map Sigma.fst).Nodup := lastSyscalls.nodupKeys
  have hkeys₁ : (order₁.map Sigma.fst).Nodup := (hperm₁.map _).nodup_iff.mpr hkeys
  have hkeys₂ : (order₂.map Sigma.fst).Nodup := (hperm₂.map _).nodup_iff.mpr hkeys
  have hle := foldl_addArchJump_length_le b.archJumpTable order₂
      (.jump (UInt32.ofNat b.programTail.length) :: b.programTail)
  simp only [List.length_cons] at hle
  have hsections := (Sections.init data filter).run data filter hkeys₁
      (fun e he => hpos e (hperm₁.mem_iff.mp he)) hfold (by omega)
  have hjumps := (ArchJumps.init data filter (b := b) (by omega)).run data filter
      (fun e he => hsections.leads e (by
        simpa using hperm₁.mem_iff.mpr (hperm₂.mem_iff.mp he)))
      hkeys₂ (by simp) (by omega)
  -- After the first load the accumulator holds the architecture.
  show exec data.payload (.loadAbsolute 4 4 :: (_ ++ filter)) 0 Regs.init = _
  rw [exec_payload_arch]
  unfold enosysExpected
  cases hlookup : lastSyscalls.lookup data.arch with
  | none =>
    have hunknown := hjumps.unknown { Regs.init with regA := data.arch } (by
        intro e he harch
        have hmem : e ∈ lastSyscalls.entries := hperm₂.mem_iff.mp (by simpa using he)
        have hsome := AList.mem_lookup_iff.mpr hmem
        rw [← harch, hlookup] at hsome
        cases hsome)
    rw [hunknown]
    exact hfilter data.arch
  | some maxSyscalls =>
    have hmem : (⟨data.arch, maxSyscalls⟩ : LastSyscallEntry) ∈ order₂ :=
      hperm₂.mem_iff.mpr (AList.mem_lookup_iff.mp hlookup)
    have hknown := hjumps.known ⟨data.arch, maxSyscalls⟩ (by simpa using hmem)
        { Regs.init with regA := data.arch } rfl
    rw [hknown, entryResult]
    by_cases hempty : maxSyscalls.entries = []
    · simp [hempty, hfilter data.arch]
    · simp [hempty, hfilter data.nr]

def twoArchs : LastSyscallMap :=
  AList.insert auditArchX8664
    (AList.insert .archAMD64 300 (AList.singleton .archX32 400))
    (AList.singleton 0x80000016 (AList.singleton .archS390X 386))

theorem run_patchFilter_s390x_setup :
    ∃ stub,
      generateEnosysStub twoArchs.entries twoArchs.entries.reverse =
        .ok stub ∧
      run (patchFilter stub [.retConstant 0x7fff0000])
          (SeccompData.payload ⟨0, 0x80000016, 0, fun _ => 0⟩) =
        some retErrnoEnosys := by
  refine ⟨_, rfl, ?_⟩
  exact run_patchFilter twoArchs (by decide) (List.Perm.refl _)
    (List.reverse_perm _) rfl (by decide) [.retConstant 0x7fff0000]
    ⟨0, 0x80000016, 0, fun _ => 0⟩ (fun _ => rfl)

end Runc.Seccomp
