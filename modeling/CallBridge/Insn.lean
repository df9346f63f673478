import CallBridge.Bytes

/-!
# Instructions

The 32-bit PowerPC instructions that stubs are made of.
-/

namespace CallBridge

abbrev Reg := Fin 32

/-- The register that the lowest five bits of a number name. -/
def Reg.ofNat (n : Nat) : Reg :=
  Fin.ofNat 32 n

@[simp]
theorem Reg.val_ofNat (n : Nat) : (Reg.ofNat n).val = n % 32 :=
  rfl

@[simp]
theorem Reg.ofNat_val (r : Reg) : Reg.ofNat r.val = r :=
  Fin.ext (Nat.mod_eq_of_lt r.isLt)

/-- In the place of a base register, this register stands for the number zero. -/
abbrev r0 : Reg := 0

/-- The stack pointer. -/
abbrev r1 : Reg := 1

/-- The first argument, and the result. -/
abbrev r3 : Reg := 3

/-- The second argument, and the second word of a result. -/
abbrev r4 : Reg := 4

abbrev r5 : Reg := 5

abbrev r6 : Reg := 6

/-- A 16-bit immediate or displacement, signed unless said otherwise. -/
abbrev Immediate := BitVec 16

/-- Instructions that move a value between a register and memory. -/
inductive Transfer
  | lwz
  | stw
  /-- Stores, and leaves the address in the base register. -/
  | stwu
  | stb
  | sth
  | lfd
  /-- Stores a float rounded to single precision. -/
  | stfs
  | stfd
deriving DecidableEq, Repr

inductive Insn
  | addi (rd ra : Reg) (imm : Immediate)
  | addis (rd ra : Reg) (imm : Immediate)
  /-- The immediate is unsigned. -/
  | ori (ra rs : Reg) (imm : Immediate)
  | or (ra rs rb : Reg)
  | transfer (op : Transfer) (reg : Reg) (disp : Immediate) (base : Reg)
  /-- Rounds a float to single precision. -/
  | frsp (frd frb : Reg)
  | mflr (rd : Reg)
  | mtlr (rs : Reg)
  /-- Goes on at the address in the link register. -/
  | blr
  /-- Calls the address in the link register. -/
  | blrl
deriving DecidableEq, Repr

end CallBridge
