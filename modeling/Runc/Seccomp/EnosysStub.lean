import Runc.Bpf.Machine
import Mathlib.Data.List.AList

/-!
# The -ENOSYS stub of the seccomp filter

`generateEnosysStub` of `patchbpf`. The stub is built backwards: the sections and then
the architecture jumps are prepended to a tail, and every jump distance is computed from
the length that the tail has at that moment.

Go maps are association lists without repeated keys.  Ranging over a map visits
its entries in an unspecified order, so each of the two loops gets a list of
entries of its own.
-/

namespace Runc.Seccomp

open Bpf

inductive ScmpArch where
  | archInvalid
  | archNative
  | archX86
  | archAMD64
  | archX32
  | archARM
  | archARM64
  | archMIPS
  | archMIPS64
  | archMIPS64N32
  | archMIPSEL
  | archMIPSEL64
  | archMIPSEL64N32
  | archPPC
  | archPPC64
  | archPPC64LE
  | archS390
  | archS390X
  | archPARISC
  | archPARISC64
  | archRISCV64
  | archLOONGARCH64
  | archM68K
  | archSH
  | archSHEB
deriving DecidableEq, Repr

abbrev LinuxAuditArch := UInt32

abbrev ScmpSyscall := Int32

abbrev MaxSyscalls := AList (fun _ : ScmpArch => ScmpSyscall)

abbrev LastSyscallMap := AList (fun _ : LinuxAuditArch => MaxSyscalls)

abbrev LastSyscallEntry := Sigma (fun _ : LinuxAuditArch => MaxSyscalls)

def auditArchX8664 : LinuxAuditArch := 0xC000003E

/-- `SCMP_ACT_ERRNO(ENOSYS)`. -/
def retErrnoEnosys : UInt32 := 0x00050026

def bpfSizeofInt : Nat := 4

def s390xMultiplexSyscall : ScmpSyscall := 0

def x32SyscallBit : UInt32 := 0x40000000

inductive StubError where
  | unknownAmd64NativeArch (scmpArch : ScmpArch)
  | unknownArchOverlap (auditArch : LinuxAuditArch)
  | missingInOverlap (scmpArch : ScmpArch)
  | invalidOverlapCount (n : Nat)
deriving DecidableEq

structure Builder where
  programTail : List Instruction
  archJumpTable : AList (fun _ : LinuxAuditArch => UInt32)

def Builder.init : Builder where
  programTail := [.jump 1, .retConstant retErrnoEnosys]
  archJumpTable := ∅

def s390Rule (scmpArch : ScmpArch) : List Instruction :=
  if scmpArch = .archS390 ∨ scmpArch = .archS390X then
    [ -- jne [setup=0],1
      .jumpIf .jumpNotEqual s390xMultiplexSyscall.toUInt32 1 0,
      -- ret [ENOSYS]
      .retConstant retErrnoEnosys ]
  else
    []

def singleSectionTail (baseJumpEnosys : UInt32) (sysno : ScmpSyscall) : List Instruction :=
  let baseJumpFilter := baseJumpEnosys + 1
  if baseJumpEnosys + 1 ≤ 255 then
    [ -- jgt [syscall],[baseJumpEnosys+1]
      .jumpIf .jumpGreaterThan sysno.toUInt32 (baseJumpEnosys + 1).toUInt8 0,
      -- ja [baseJumpFilter]
      .jump baseJumpFilter ]
  else
    [ -- jle [syscall],1
      .jumpIf .jumpLessOrEqual sysno.toUInt32 1 0,
      -- ret [ENOSYS]
      .retConstant retErrnoEnosys,
      -- ja [baseJumpFilter]
      .jump baseJumpFilter ]

def modePrefix (auditArch : LinuxAuditArch) (scmpArch : ScmpArch) (sectionTail : List Instruction) :
    Except StubError (List Instruction) :=
  if auditArch = auditArchX8664 then
    match scmpArch with
    | .archAMD64 =>
        .ok (.jumpIf .jumpBitsSet x32SyscallBit
          (UInt8.ofNat (sectionTail.length - 1)) 0 :: sectionTail)
    | .archX32 =>
        .ok (.jumpIf .jumpBitsNotSet x32SyscallBit
          (UInt8.ofNat (sectionTail.length - 1)) 0 :: sectionTail)
    | _ => .error (.unknownAmd64NativeArch scmpArch)
  else
    .ok sectionTail

def doubleSectionTail (baseJumpEnosys : UInt32)
    (x86sysno x32sysno : ScmpSyscall) : List Instruction :=
  let baseJumpFilter := baseJumpEnosys + 1
  if baseJumpEnosys + 2 ≤ 255 then
    [ -- jset (1<<30),1
      .jumpIf .jumpBitsSet x32SyscallBit 1 0,
      -- jgt [x86 syscall],[baseJumpEnosys+2],1
      .jumpIf .jumpGreaterThan x86sysno.toUInt32
        (baseJumpEnosys + 2).toUInt8 1,
      -- jgt [x32 syscall],[baseJumpEnosys+1]
      .jumpIf .jumpGreaterThan x32sysno.toUInt32
        (baseJumpEnosys + 1).toUInt8 0,
      -- ja [baseJumpFilter]
      .jump baseJumpFilter ]
  else
    [ -- jset (1<<30),1
      .jumpIf .jumpBitsSet x32SyscallBit 1 0,
      -- jgt [x86 syscall],1,2
      .jumpIf .jumpGreaterThan x86sysno.toUInt32 1 2,
      -- jle [x32 syscall],1
      .jumpIf .jumpLessOrEqual x32sysno.toUInt32 1 0,
      -- ret [ENOSYS]
      .retConstant retErrnoEnosys,
      -- ja [baseJumpFilter]
      .jump baseJumpFilter ]

/--
The section of one audit architecture in front of a tail of `tailLen`
instructions; `none` when the entry is empty and gets no section.
-/
def archSection (tailLen : Nat) (auditArch : LinuxAuditArch) (maxSyscalls : MaxSyscalls) :
    Except StubError (Option (List Instruction)) :=
  let baseJumpEnosys := UInt32.ofNat (tailLen - 1)
  -- load [0] (syscall number)
  let load : Instruction := .loadAbsolute 0 bpfSizeofInt
  match maxSyscalls.entries with
  | [] => .ok none
  | [⟨scmpArch, sysno⟩] => do
      let sectionTail ←
        modePrefix auditArch scmpArch (singleSectionTail baseJumpEnosys sysno)
      .ok (some (load :: (s390Rule scmpArch ++ sectionTail)))
  | [_, _] =>
      if auditArch ≠ auditArchX8664 then
        .error (.unknownArchOverlap auditArch)
      else
        match maxSyscalls.lookup .archX32 with
        | none => .error (.missingInOverlap .archX32)
        | some x32sysno =>
            match maxSyscalls.lookup .archAMD64 with
            | none => .error (.missingInOverlap .archAMD64)
            | some x86sysno =>
                .ok (some
                  (load :: doubleSectionTail baseJumpEnosys x86sysno x32sysno))
  | entries => .error (.invalidOverlapCount entries.length)

def addSection (b : Builder) (entry : LastSyscallEntry) :
    Except StubError Builder := do
  match ← archSection b.programTail.length entry.1 entry.2 with
  | none => .ok b
  | some sec =>
      let programTail := sec ++ b.programTail
      .ok
        { programTail := programTail
          archJumpTable :=
            b.archJumpTable.insert entry.1 (UInt32.ofNat programTail.length) }

def archJump (auditArch : LinuxAuditArch) (jump : UInt32) : List Instruction :=
  if jump ≤ 255 then
    [ -- jeq [arch],[jump]
      .jumpIf .jumpEqual auditArch jump.toUInt8 0 ]
  else
    [ -- jne [arch],1
      .jumpIf .jumpNotEqual auditArch 1 0,
      -- ja [jump]
      .jump jump ]

def addArchJump (archJumpTable : AList (fun _ : LinuxAuditArch => UInt32))
    (programTail : List Instruction) (entry : LastSyscallEntry) : List Instruction :=
  let jump :=
    UInt32.ofNat programTail.length -
      (archJumpTable.lookup entry.1).getD 0
  archJump entry.1 jump ++ programTail

/-- `generateEnosysStub`, with the visiting order of each of its two loops. -/
def generateEnosysStub (order₁ order₂ : List LastSyscallEntry) :
    Except StubError (List Instruction) := do
  let b ← order₁.foldlM addSection Builder.init
  -- ja [end of stub and start of filter]
  let programTail :=
    .jump (UInt32.ofNat b.programTail.length) :: b.programTail
  let programTail :=
    order₂.foldl (addArchJump b.archJumpTable) programTail
  -- load [4] (architecture)
  .ok (.loadAbsolute (UInt32.ofNat bpfSizeofInt) bpfSizeofInt :: programTail)

def patchFilter (stub program : List Instruction) : List Instruction :=
  stub ++ program

end Runc.Seccomp
