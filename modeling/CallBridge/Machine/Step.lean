import CallBridge.Insn.Encoding
import CallBridge.Machine
import CallBridge.SinglePrecision

/-!
# One instruction

What each instruction does to a machine. The program counter is past the instruction when it is
executed.
-/

namespace CallBridge

namespace Machine

/-- A register as the base of an address. In register 0's place stands the number zero. -/
def base (m : Machine) (r : Reg) : Word :=
  if r = r0 then 0 else m.general r

/-- The address of a transfer. -/
def target (m : Machine) (disp : Immediate) (base : Reg) : Word :=
  m.base base + disp.signExtend 32

/-- Moves a value between a register and the memory at an address. -/
def transfer (m : Machine) (op : Transfer) (reg : Reg) (address : Word) : Except Fault Machine :=
  match op with
  | .lwz => do return m.setGeneral reg (← m.readWord address)
  | .stw | .stwu => m.writeValue address 4 (m.general reg).toNat
  | .sth => m.writeValue address 2 (m.general reg).toNat
  | .stb => m.writeValue address 1 (m.general reg).toNat
  | .lfd => do return m.setFloat reg (← m.readDouble address)
  | .stfd => m.writeValue address 8 (m.float reg).toNat
  | .stfs => m.writeValue address 4 (SinglePrecision.narrow (m.float reg)).toNat

/-- Executes an instruction. -/
def execute (m : Machine) : Insn → Except Fault Machine
  | .addi rd ra imm => .ok (m.setGeneral rd (m.base ra + imm.signExtend 32))
  | .addis rd ra imm => .ok (m.setGeneral rd (m.base ra + (imm ++ (0 : Immediate))))
  | .ori ra rs imm => .ok (m.setGeneral ra (m.general rs ||| imm.setWidth 32))
  | .or ra rs rb => .ok (m.setGeneral ra (m.general rs ||| m.general rb))
  | .transfer op reg disp base => do
    let address := m.target disp base
    let m ← m.transfer op reg address
    return if op = .stwu then m.setGeneral base address else m
  | .frsp frd frb => .ok (m.setFloat frd (SinglePrecision.round (m.float frb)))
  | .mflr rd => .ok (m.setGeneral rd m.lr)
  | .mtlr rs => .ok { m with lr := m.general rs }
  | .blr => .ok { m with pc := m.lr }
  | .blrl => .ok { m with lr := m.pc, pc := m.lr }

/-- The instruction at the program counter. -/
def fetch (m : Machine) : Except Fault Insn := do
  let word ← m.readWord m.pc
  match Insn.decode? word with
  | some insn => .ok insn
  | none => .error (.unknownInsn word m.pc)

/-- Fetches an instruction and executes it. -/
def step (m : Machine) : Except Fault Machine := do
  let insn ← m.fetch
  { m with pc := m.pc + 4 }.execute insn

end Machine

end CallBridge
