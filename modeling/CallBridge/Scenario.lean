import CallBridge.Error
import CallBridge.Machine.Script
import CallBridge.Stub

/-!
# Scenarios

What the calls of trampolines and of thunks on a fresh machine have in common.
-/

namespace CallBridge

/-- Why a scenario has no outcome. -/
inductive Failure
  | build (e : Error)
  | fault (f : Fault)
deriving DecidableEq, Repr

/-- Where scenarios put the native function or the conversion function. -/
def calleeAddress : Word := 0x20000000

/-- Where scenarios put the interpreter entry. -/
def interpreterAddress : Word := 0x20001000

end CallBridge
