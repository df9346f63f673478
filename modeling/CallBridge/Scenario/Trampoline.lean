import CallBridge.Scenario
import CallBridge.Stub.Trampoline

/-!
# Calls of trampolines

A trampoline is built and called on a fresh machine with an array of tagged arguments; the native
function it calls is scripted.
-/

namespace CallBridge

structure TrampolineCall where
  sig : Signature
  stringCtor : Bool
  /-- The tagged arguments; there may be fewer than parameters. -/
  args : List Tagged
  callee : List Action
  receiver : Word
  /-- Registers to set before the call. -/
  registers : RegisterValues
deriving DecidableEq, Repr

namespace TrampolineCall

structure Outcome where
  log : Log
  /-- The sixteen bytes of the return slot. -/
  returned : List Byte
  registers : Registers
deriving DecidableEq

/-- The byte that fills the return slot before the call. -/
def returnFill : Byte := 0xcc

def writeArgs (m : Machine) (address : Word) : List Tagged → Except Fault Machine
  | [] => .ok m
  | v :: rest => do
    let m ← m.writeBytes address v.bytes
    writeArgs m (address + BitVec.ofNat 32 taggedSize) rest

def execute (c : TrampolineCall) (code : List Byte) : Except Fault Outcome := do
  let (entry, m) ← Machine.fresh.loadCode code
  let (array, m) ← m.allocate (taggedSize * max 1 c.args.length)
  let m ← writeArgs m array c.args
  let (slot, m) ← m.allocate taggedSize
  let m ← m.writeBytes slot (List.replicate taggedSize returnFill)
  let m := (m.setRegisters c.registers).setRegisters
    { general := [(r3, calleeAddress), (r4, slot), (r5, c.receiver), (r6, array)] }
  let (log, m) ← m.call (Hooks.ofList [(calleeAddress, scripted c.callee)]) entry #[]
  let returned ← m.readBytes slot taggedSize
  return { log, returned, registers := m.toRegisters }

def outcome (c : TrampolineCall) : Except Failure Outcome := do
  let stub ← (Trampoline.build c.sig c.stringCtor).mapError .build
  (c.execute stub.code).mapError .fault

end TrampolineCall

end CallBridge
