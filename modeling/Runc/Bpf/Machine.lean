import Mathlib.Data.List.Basic
import Mathlib.Tactic

/-!
# The classic BPF machine

The instruction set and the virtual machine of the vendored `golang.org/x/net/bpf`
package, against which the stub generator and its tests are written.

Programs are lists of instructions and every jump goes forward, so the machine
is a structural recursion over the program: the second argument of `exec` is
the number of instructions that still have to be skipped.
-/

namespace Runc.Bpf

inductive Register where
  | regA
  | regX
deriving DecidableEq, Repr

inductive ALUOp where
  | add
  | sub
  | mul
  | div
  | or
  | and
  | shiftLeft
  | shiftRight
  | mod
  | xor
deriving DecidableEq, Repr

inductive JumpTest where
  | jumpEqual
  | jumpNotEqual
  | jumpGreaterThan
  | jumpLessThan
  | jumpGreaterOrEqual
  | jumpLessOrEqual
  | jumpBitsSet
  | jumpBitsNotSet
deriving DecidableEq, Repr

inductive Instruction where
  | loadConstant (dst : Register) (val : UInt32)
  | loadScratch (dst : Register) (n : Nat)
  | loadAbsolute (off : UInt32) (size : Nat)
  | loadIndirect (off : UInt32) (size : Nat)
  | loadMemShift (off : UInt32)
  | loadExtension (num : Nat)
  | storeScratch (src : Register) (n : Nat)
  | aluOpConstant (op : ALUOp) (val : UInt32)
  | aluOpX (op : ALUOp)
  | negateA
  | jump (skip : UInt32)
  | jumpIf (cond : JumpTest) (val : UInt32) (skipTrue skipFalse : UInt8)
  | jumpIfX (cond : JumpTest) (skipTrue skipFalse : UInt8)
  | retA
  | retConstant (val : UInt32)
  | tax
  | txa
deriving DecidableEq, Repr

def extLen : Nat := 1

structure Regs where
  regA : UInt32
  regX : UInt32
  regScratch : Fin 16 → UInt32

def Regs.init : Regs where
  regA := 0
  regX := 0
  regScratch := fun _ => 0

inductive Outcome where
  | next (regs : Regs) (skip : Nat)
  | ret (val : UInt32)
  | halt
  | fault

def aluOpCommon (op : ALUOp) (regA value : UInt32) : UInt32 :=
  match op with
  | .add => regA + value
  | .sub => regA - value
  | .mul => regA * value
  | .div => regA / value
  | .or => regA ||| value
  | .and => regA &&& value
  | .shiftLeft => if value < 32 then regA <<< value else 0
  | .shiftRight => if value < 32 then regA >>> value else 0
  | .mod => regA % value
  | .xor => regA ^^^ value

def JumpTest.holds (cond : JumpTest) (regA value : UInt32) : Bool :=
  match cond with
  | .jumpEqual => regA == value
  | .jumpNotEqual => regA != value
  | .jumpGreaterThan => decide (value < regA)
  | .jumpLessThan => decide (regA < value)
  | .jumpGreaterOrEqual => decide (value ≤ regA)
  | .jumpLessOrEqual => decide (regA ≤ value)
  | .jumpBitsSet => (regA &&& value) != 0
  | .jumpBitsNotSet => (regA &&& value) == 0

def jumpIfCommon (cond : JumpTest) (skipTrue skipFalse : UInt8) (regA value : UInt32) : Nat :=
  if cond.holds regA value then skipTrue.toNat else skipFalse.toNat

def bigEndian (bytes : List UInt8) : UInt32 :=
  UInt32.ofNat (bytes.foldl (fun acc b => acc * 256 + b.toNat) 0)

def loadCommon (input : List UInt8) (offset size : Nat) (k : UInt32 → Outcome) : Outcome :=
  if offset + size ≤ input.length then
    if size = 1 ∨ size = 2 ∨ size = 4 then
      k (bigEndian ((input.drop offset).take size))
    else
      .fault
  else
    .halt

def Regs.set (regs : Regs) (dst : Register) (val : UInt32) : Regs :=
  match dst with
  | .regA => { regs with regA := val }
  | .regX => { regs with regX := val }

def Regs.get (regs : Regs) (src : Register) : UInt32 :=
  match src with
  | .regA => regs.regA
  | .regX => regs.regX

def Instruction.step (input : List UInt8) (regs : Regs) : Instruction → Outcome
  | .loadConstant dst val => .next (regs.set dst val) 0
  | .loadScratch dst n =>
      if h : n < 16 then
        .next (regs.set dst (regs.regScratch ⟨n, h⟩)) 0
      else
        .fault
  | .loadAbsolute off size =>
      loadCommon input off.toNat size
        (fun v => .next { regs with regA := v } 0)
  | .loadIndirect off size =>
      loadCommon input (off.toNat + regs.regX.toNat) size
        (fun v => .next { regs with regA := v } 0)
  | .loadMemShift off =>
      loadCommon input off.toNat 1
        (fun v => .next { regs with regX := (v &&& 0x0f) * 4 } 0)
  | .loadExtension num =>
      if num = extLen then
        .next { regs with regA := UInt32.ofNat input.length } 0
      else
        .fault
  | .storeScratch src n =>
      if h : n < 16 then
        .next
          { regs with
            regScratch :=
              Function.update regs.regScratch ⟨n, h⟩ (regs.get src) } 0
      else
        .fault
  | .aluOpConstant op val =>
      -- A constant zero divisor is refused by `NewVM`; Go itself would panic.
      if val = 0 ∧ (op = .div ∨ op = .mod) then
        .fault
      else
        .next { regs with regA := aluOpCommon op regs.regA val } 0
  | .aluOpX op =>
      if regs.regX = 0 ∧ (op = .div ∨ op = .mod) then
        .halt
      else
        .next { regs with regA := aluOpCommon op regs.regA regs.regX } 0
  | .negateA => .fault
  | .jump skip => .next regs skip.toNat
  | .jumpIf cond val skipTrue skipFalse =>
      .next regs (jumpIfCommon cond skipTrue skipFalse regs.regA val)
  | .jumpIfX cond skipTrue skipFalse =>
      .next regs (jumpIfCommon cond skipTrue skipFalse regs.regA regs.regX)
  | .retA => .ret regs.regA
  | .retConstant val => .ret val
  | .tax => .next { regs with regX := regs.regA } 0
  | .txa => .next { regs with regA := regs.regX } 0

/--
The loop of `VM.Run`, started with `skip` instructions still to be passed over.
`none` is an error or a panic; leaving the program at its end returns zero.
-/
def exec (input : List UInt8) : List Instruction → Nat → Regs → Option UInt32
  | [], _, _ => some 0
  | _ :: rest, skip + 1, regs => exec input rest skip regs
  | ins :: rest, 0, regs =>
      match ins.step input regs with
      | .next regs' skip => exec input rest skip regs'
      | .ret val => some val
      | .halt => some 0
      | .fault => none

def run (program : List Instruction) (input : List UInt8) : Option UInt32 :=
  exec input program 0 Regs.init

def AccIndependent (program : List Instruction) (input : List UInt8) : Prop :=
  ∀ a : UInt32,
    exec input program 0 { Regs.init with regA := a } = run program input

section Exec

variable (input : List UInt8) (regs : Regs) (rest : List Instruction)

@[simp] theorem exec_cons_succ (ins : Instruction) (skip : Nat) :
    exec input (ins :: rest) (skip + 1) regs = exec input rest skip regs := by
  rfl

theorem exec_of_next {ins : Instruction} {regs' : Regs} {skip : Nat}
    (hstep : ins.step input regs = .next regs' skip) :
    exec input (ins :: rest) 0 regs = exec input rest skip regs' := by
  simp [exec, hstep]

@[simp] theorem exec_jump (skip : UInt32) :
    exec input (.jump skip :: rest) 0 regs =
      exec input rest skip.toNat regs := by
  rfl

@[simp] theorem exec_retConstant (val : UInt32) :
    exec input (.retConstant val :: rest) 0 regs = some val := by
  rfl

@[simp] theorem exec_jumpIf (cond : JumpTest) (val : UInt32) (skipTrue skipFalse : UInt8) :
    exec input (.jumpIf cond val skipTrue skipFalse :: rest) 0 regs =
      if cond.holds regs.regA val then
        exec input rest skipTrue.toNat regs
      else
        exec input rest skipFalse.toNat regs := by
  show exec input rest (jumpIfCommon cond skipTrue skipFalse regs.regA val) regs = _
  unfold jumpIfCommon
  split_ifs <;> rfl

theorem exec_append_add (pre : List Instruction) (n : Nat) :
    exec input (pre ++ rest) (pre.length + n) regs =
      exec input rest n regs := by
  induction pre with
  | nil => simp
  | cons ins pre ih =>
    rw [List.cons_append, List.length_cons, Nat.add_right_comm]
    simpa using ih

theorem exec_append_length (pre : List Instruction) :
    exec input (pre ++ rest) pre.length regs =
      exec input rest 0 regs := by
  simpa using exec_append_add input regs rest pre 0

end Exec

structure SeccompData where
  nr : UInt32
  arch : UInt32
  instructionPointer : UInt64
  args : Fin 6 → UInt64

def putBigEndian : Nat → Nat → List UInt8
  | 0, _ => []
  | n + 1, v => UInt8.ofNat (v / 256 ^ n) :: putBigEndian n v

@[simp] theorem putBigEndian_length (n v : Nat) :
    (putBigEndian n v).length = n := by
  induction n with
  | zero => rfl
  | succ n ih => simp [putBigEndian, ih]

def SeccompData.payload (data : SeccompData) : List UInt8 :=
  putBigEndian 4 data.nr.toNat ++
    (putBigEndian 4 data.arch.toNat ++
      (putBigEndian 8 data.instructionPointer.toNat ++
        (List.finRange 6).flatMap
          (fun i => putBigEndian 8 (data.args i).toNat)))

theorem bigEndian_putBigEndian (v : UInt32) : bigEndian (putBigEndian 4 v.toNat) = v := by
  apply UInt32.toNat_inj.mp
  have hv := v.toNat_lt
  simp [bigEndian, putBigEndian]
  omega

section Payload

variable (data : SeccompData) (regs : Regs) (rest : List Instruction)

@[simp] theorem exec_payload_nr :
    exec data.payload (.loadAbsolute 0 4 :: rest) 0 regs =
      exec data.payload rest 0 { regs with regA := data.nr } := by
  apply exec_of_next
  simp [Instruction.step, loadCommon, SeccompData.payload, bigEndian_putBigEndian]

@[simp] theorem exec_payload_arch :
    exec data.payload (.loadAbsolute 4 4 :: rest) 0 regs =
      exec data.payload rest 0 { regs with regA := data.arch } := by
  apply exec_of_next
  simp [Instruction.step, loadCommon, SeccompData.payload, bigEndian_putBigEndian]

end Payload

end Runc.Bpf
