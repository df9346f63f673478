import CallBridge.Insn.Listing

/-!
# Mnemonics

The instructions of stubs as assembly texts, which the program makes its own listings with. What is
proved of listings holds for whatever disassembler a host has.
-/

namespace CallBridge

open Text

/-- A signed number as assembly listings write it: one decimal digit where that is enough, else
hexadecimal digits after `0x`. -/
def Text.listed (n : Int) : String :=
  let size := n.natAbs
  let digits := if size ≤ 9 then decimal size else '0' :: 'x' :: hexadecimal 1 size
  String.ofList (if n < 0 then '-' :: digits else digits)

def Transfer.mnemonic : Transfer → String
  | lwz => "lwz"
  | stw => "stw"
  | stwu => "stwu"
  | stb => "stb"
  | sth => "sth"
  | lfd => "lfd"
  | stfs => "stfs"
  | stfd => "stfd"

def Transfer.isFloat : Transfer → Bool
  | lfd | stfs | stfd => true
  | lwz | stw | stwu | stb | sth => false

def Disassembly.named (mnemonic operands : String) : Disassembly :=
  ⟨some mnemonic, some operands⟩

namespace Insn

open Disassembly

def generalName (r : Reg) : String :=
  let n := r.val
  s!"r{n}"

def floatName (r : Reg) : String :=
  let n := r.val
  s!"f{n}"

/-- The base register of an address. In register 0's place stands the number zero. -/
def baseName (r : Reg) : String :=
  if r = r0 then "0" else generalName r

/-- The mnemonic and the operands of an instruction, with the usual short forms for a load of an
immediate, a move and an instruction that does nothing. -/
def disassembly : Insn → Disassembly
  | addi rd ra imm =>
    let rd := generalName rd
    let value := listed imm.toInt
    if ra = r0 then
      named "li" s!"{rd}, {value}"
    else
      let ra := generalName ra
      named "addi" s!"{rd}, {ra}, {value}"
  | addis rd ra imm =>
    let rd := generalName rd
    let value := listed imm.toInt
    if ra = r0 then
      named "lis" s!"{rd}, {value}"
    else
      let ra := generalName ra
      named "addis" s!"{rd}, {ra}, {value}"
  | ori ra rs imm =>
    if ra = r0 ∧ rs = r0 ∧ imm = 0 then
      named "nop" ""
    else
      let ra := generalName ra
      let rs := generalName rs
      let value := listed imm.toNat
      named "ori" s!"{ra}, {rs}, {value}"
  | or ra rs rb =>
    let ra := generalName ra
    let left := generalName rs
    let right := generalName rb
    if rs = rb then
      named "mr" s!"{ra}, {left}"
    else
      named "or" s!"{ra}, {left}, {right}"
  | transfer op reg disp base =>
    let reg := if op.isFloat then floatName reg else generalName reg
    let disp := listed disp.toInt
    let base := baseName base
    named op.mnemonic s!"{reg}, {disp}({base})"
  | frsp frd frb =>
    let frd := floatName frd
    let frb := floatName frb
    named "frsp" s!"{frd}, {frb}"
  | mflr rd => named "mflr" (generalName rd)
  | mtlr rs => named "mtlr" (generalName rs)
  | blr => named "blr" ""
  | blrl => named "blrl" ""

/-- Knows the instructions that stubs are made of, and never fails. -/
def disassembler : Disassembler where
  opened := .ok ()
  read := fun _ chunk => .ok ((Listing.insn? chunk).map disassembly)

end Insn

end CallBridge
