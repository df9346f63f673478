import CallBridge.CommandLine
import CallBridge.Insn.Mnemonics

/-!
# The program
-/

namespace CallBridge

/-- Listings count addresses from the start of the code, wherever it comes to lie. -/
def Host.program : Host where
  map := fun _ => .ok 0
  disassembler := Insn.disassembler

end CallBridge

def main (args : List String) : IO UInt32 := do
  let outcome := CallBridge.CommandLine.run .program args
  (← IO.getStdout).putStr outcome.stdout
  (← IO.getStderr).putStr outcome.stderr
  return outcome.exitCode.toUInt32
