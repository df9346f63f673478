import CallBridge.Unsupported
import CallBridge.Assembly

/-!
# Errors

Every way in which building or listing a stub can fail, with its text.
-/

namespace CallBridge

inductive Error
  | unsupported (cause : Unsupported)
  | malformed (fault : TextFault)
  /-- There is no memory for the code, or no code. -/
  | allocation (reason : String)
  /-- The code came out at another size than its layout says. -/
  | layoutInconsistency (what : String) (computed emitted : Nat)
  | operand (fault : OperandFault)
  | disassembler (reason : String)
deriving DecidableEq, Repr

def Error.message : Error → String
  | unsupported cause =>
    let text := cause.message
    s!"unsupported type: {text}"
  | malformed fault =>
    let text := fault.message
    s!"signature syntax error: {text}"
  | allocation reason => s!"executable memory allocation failed: {reason}"
  | layoutInconsistency what computed emitted =>
    s!"layout inconsistency in {what}: computed {computed} bytes, emitted {emitted} bytes"
  | operand fault => fault.message
  | disassembler reason => s!"disassembler error: {reason}"

end CallBridge
