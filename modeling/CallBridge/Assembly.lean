import CallBridge.Insn.Encoding

/-!
# Assembly statements

Stubs are written as statements whose register numbers and displacements may be anything. Assembling
a statement checks its operands, in the order register, base, displacement, and gives the
instructions it stands for; a statement with a bad operand gives none.
-/

namespace CallBridge

/-- An operand that no instruction can hold. -/
inductive OperandFault
  | register (number : Nat)
  | displacement (value : Int)
deriving DecidableEq, Repr

def OperandFault.message : OperandFault → String
  | register number => s!"Invalid register: {number}"
  | displacement value => s!"Displacement out of range: {value}"

/-- An assembly statement with unchecked operands. -/
inductive Statement
  | addi (rd ra : Nat) (value : Int)
  /-- Loads a signed 16-bit number. -/
  | li (rd : Nat) (value : Int)
  /-- Loads a number into the upper half of a register and clears the lower half. -/
  | lis (rd : Nat) (value : Immediate)
  | ori (ra rs : Nat) (value : Immediate)
  /-- Loads a word, always in two instructions. -/
  | loadWord (rd : Nat) (value : Word)
  | mr (ra rs : Nat)
  | transfer (op : Transfer) (reg : Nat) (disp : Int) (base : Nat)
  | frsp (frd frb : Nat)
  | mflr (rd : Nat)
  | mtlr (rs : Nat)
  | blr
  | blrl
deriving DecidableEq, Repr

namespace Statement

def register (number : Nat) : Except OperandFault Reg :=
  if h : number < 32 then .ok ⟨number, h⟩ else .error (.register number)

def displacement (value : Int) : Except OperandFault Immediate :=
  if -32768 ≤ value ∧ value ≤ 32767 then .ok (BitVec.ofInt 16 value)
  else .error (.displacement value)

def insns : Statement → Except OperandFault (List Insn)
  | addi rd ra value => do
    return [.addi (← register rd) (← register ra) (← displacement value)]
  | li rd value => do
    return [.addi (← register rd) r0 (← displacement value)]
  | lis rd value => do
    return [.addis (← register rd) r0 value]
  | ori ra rs value => do
    let rs ← register rs
    let ra ← register ra
    return [.ori ra rs value]
  | loadWord rd value => do
    let rd ← register rd
    return [.addis rd r0 (value.extractLsb' 16 16), .ori rd rd (value.extractLsb' 0 16)]
  | mr ra rs => do
    let ra ← register ra
    let rs ← register rs
    return [.or ra rs rs]
  | transfer op reg disp base => do
    let reg ← register reg
    let base ← register base
    return [.transfer op reg (← displacement disp) base]
  | frsp frd frb => do
    return [.frsp (← register frd) (← register frb)]
  | mflr rd => do
    return [.mflr (← register rd)]
  | mtlr rs => do
    return [.mtlr (← register rs)]
  | blr => .ok [.blr]
  | blrl => .ok [.blrl]

end Statement

/-- The instructions of a sequence of statements, up to the first bad operand. -/
def assemble : List Statement → Except OperandFault (List Insn)
  | [] => .ok []
  | statement :: rest => do
    let insns ← statement.insns
    let following ← assemble rest
    return insns ++ following

def codeOf (insns : List Insn) : List Byte :=
  insns.flatMap fun i => i.encode.bytes

/-! ## Source with bare words -/

/-- A line of assembly source: a statement, or an instruction word as it is. -/
inductive SourceLine
  | statement (s : Statement)
  | word (w : Word)
deriving DecidableEq, Repr

def SourceLine.bytes : SourceLine → Except OperandFault (List Byte)
  | statement s => s.insns.map codeOf
  | word w => .ok w.bytes

/-- Assembles source line by line, after `size` bytes of earlier code. A line with a bad operand
adds nothing and the next line goes on. The first result has, for each line, the size of all code
after it or what was wrong with it. -/
def assembleSource (size : Nat) :
    List SourceLine → List (Except OperandFault Nat) × List Byte
  | [] => ([], [])
  | line :: rest =>
    match line.bytes with
    | .ok bytes =>
      let (steps, code) := assembleSource (size + bytes.length) rest
      (.ok (size + bytes.length) :: steps, bytes ++ code)
    | .error fault =>
      let (steps, code) := assembleSource size rest
      (.error fault :: steps, code)

end CallBridge
