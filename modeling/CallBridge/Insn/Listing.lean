import CallBridge.Error

/-!
# Listings

Code as text: one line for each instruction word, with its address and what a disassembler makes of
it, or one `.byte` directive for each word.
-/

namespace CallBridge

open Text

/-- What a disassembler says of an instruction. Either part may be missing. -/
structure Disassembly where
  mnemonic : Option String
  operands : Option String
deriving DecidableEq, Repr

/-- The mnemonic, and behind it the operands if there are any. -/
def Disassembly.text (d : Disassembly) : String :=
  let mnemonic := d.mnemonic.getD ""
  let operands := d.operands.getD ""
  if operands = "" then mnemonic else mnemonic ++ " " ++ operands

/-- A disassembler is opened for every listing, and is then asked what the bytes at an address are,
which is nothing if they are no instruction. Both may fail, with a text that says why. -/
structure Disassembler where
  opened : Except String Unit
  read : (address : Nat) → List Byte → Except String (Option Disassembly)

namespace Listing

/-- The code four bytes at a time; the last chunk may be shorter. -/
def chunks : List Byte → List (List Byte)
  | a :: b :: c :: d :: rest => [a, b, c, d] :: chunks rest
  | [] => []
  | short => [short]

/-- The instruction that a chunk of code spells; a short chunk spells none. -/
def insn? (chunk : List Byte) : Option Insn :=
  if chunk.length = 4 then Insn.decode? (BitVec.ofNat 32 (valueOf chunk)) else none

def textLine (address word : Nat) (text : String) : String :=
  let address := hex8 address
  let word := hex8 word
  s!"{address}: {word}  {text}"

def invalidLine (address word : Nat) : String :=
  let address := hex8 address
  let word := hex8 word
  s!"{address}: <invalid instruction: 0x{word}>"

def line (disassembler : Disassembler) (address : Nat) (chunk : List Byte) :
    Except Error String := do
  match ← (disassembler.read address chunk).mapError .disassembler with
  | some disassembly => return textLine address (valueOf chunk) disassembly.text
  | none => return invalidLine address (valueOf chunk)

/-- The listing of code that lies at an address, one line for each chunk. Nothing is listed if the
disassembler fails anywhere. -/
def disassemble (disassembler : Disassembler) (base : Nat) (code : List Byte) :
    Except Error (List String) := do
  disassembler.opened.mapError .disassembler
  (chunks code).zipIdx.mapM fun (chunk, i) => line disassembler (base + 4 * i) chunk

def byteLine (chunk : List Byte) : String :=
  let bytes := ",".intercalate (chunk.map fun b => "0x" ++ hexByte b)
  s!".byte {bytes}\n"

/-- The code as `.byte` directives, one line for each chunk. -/
def bytes (code : List Byte) : String :=
  String.join ((chunks code).map byteLine)

end Listing

end CallBridge
