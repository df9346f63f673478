import CallBridge.Machine.Run

/-!
# Scripted native functions

Native functions given as a list of actions, and what they and other native functions observe.
-/

namespace CallBridge

/-- What a native function observes. -/
inductive Event
  /-- Bytes of memory. -/
  | bytes (data : List Byte)
  | registers (state : Registers)
  /-- A call of the conversion function, with its four arguments. -/
  | conversion (descriptor source destination sizes : Word)
  /-- A call of the interpreter: the address of the record, its words, and the memory forms of the
  tagged arguments. -/
  | interpretation (record : Word) (words : List Word) (args : List (List Byte))
deriving DecidableEq

/-- The events of a run, the first one first. -/
abbrev Log := Array Event

/-- One action of a scripted function. Offsets count from the address in a register. -/
inductive Action
  | setGeneral (r : Reg) (value : Word)
  | setFloat (r : Reg) (bits : DoubleWord)
  | copyGeneral (dest source : Reg)
  | copyFloat (dest source : Reg)
  | store (base : Reg) (offset : Word) (data : List Byte)
  /-- Observes bytes. -/
  | observe (base : Reg) (offset : Word) (count : Nat)
  /-- Observes all registers. -/
  | observeRegisters
deriving DecidableEq, Repr

/-- Performs one action. -/
def Action.perform (log : Log) (m : Machine) : Action → Except Fault (Log × Machine)
  | setGeneral r value => .ok (log, m.setGeneral r value)
  | setFloat r bits => .ok (log, m.setFloat r bits)
  | copyGeneral dest source => .ok (log, m.setGeneral dest (m.general source))
  | copyFloat dest source => .ok (log, m.setFloat dest (m.float source))
  | store base offset data => do
    let m ← m.writeBytes (m.general base + offset) data
    return (log, m)
  | observe base offset count => do
    let data ← m.readBytes (m.general base + offset) count
    return (log.push (.bytes data), m)
  | observeRegisters => .ok (log.push (.registers m.toRegisters), m)

/-- The native function that performs actions in order. -/
def scripted : List Action → Hook Log
  | [], log, m => .ok (log, m)
  | action :: rest, log, m => do
    let (log, m) ← action.perform log m
    scripted rest log m

/-- The native functions of a list of addresses and functions; of two for one address, the one
nearer the front. -/
def Hooks.ofList {σ : Type} (hooks : List (Word × Hook σ)) : Hooks σ :=
  fun address => hooks.lookup address

/-- Values to put into registers. -/
structure RegisterValues where
  general : List (Reg × Word) := []
  float : List (Reg × DoubleWord) := []
deriving DecidableEq, Repr

/-- Sets registers, in order. -/
def Machine.setRegisters (m : Machine) (values : RegisterValues) : Machine :=
  let m := values.general.foldl (fun m (r, value) => m.setGeneral r value) m
  values.float.foldl (fun m (r, bits) => m.setFloat r bits) m

end CallBridge
