import CallBridge.Conversion
import CallBridge.Scenario
import CallBridge.Stub.Thunk

/-!
# Calls of thunks

A thunk is built and called on a fresh machine like a native function. The conversion function reads
the native argument by its descriptor and writes the tagged value; the interpreter entry observes
the invocation record and the tagged arguments and may leave a result.
-/

namespace CallBridge

/-- What the interpreter leaves in the result slot. -/
inductive Result
  | nothing
  | echo (index : Nat)
  | value (v : Tagged)
deriving DecidableEq, Repr

structure ThunkCall where
  method : Method
  /-- The caller's stack arguments, in words. -/
  stack : List Word
  /-- Registers to set before the call. -/
  registers : RegisterValues
  result : Result
deriving DecidableEq, Repr

namespace ThunkCall

structure Outcome where
  log : Log
  registers : Registers
  frameSize : Nat
deriving DecidableEq

/-- The signature with the descriptors of its parameters' native types. -/
def describe (sig : Signature) : Signature :=
  sig.withDescriptors (sig.params.map fun p => (NativeType.ofKind p.kind).descriptor)

/-! ## The runtime functions -/

def convert : Hook Log := fun log m => do
  let log := log.push (.conversion (m.general r3) (m.general r4) (m.general r5) (m.general r6))
  match NativeType.ofDescriptor? (m.general r3) with
  | some type =>
    let value ← m.readValue (m.general r4) type.bytes
    let m ← m.writeBytes (m.general r5) (type.toTagged value).bytes
    return (log, m)
  | none => throw (.unknownDescriptor (m.general r3))

def offsetBy (address : Word) (offset : Nat) : Word :=
  address + BitVec.ofNat 32 offset

def readTagged (m : Machine) (address : Word) : Except Fault Tagged :=
  (m.readBytes address taggedSize).map Tagged.ofBytes

/-- The interpreter entry for a method with the given number of parameters. -/
def interpret (params : Nat) (result : Result) : Hook Log := fun log m => do
  let record := m.general r3
  let words ← RecordField.all.mapM fun field => m.readWord (offsetBy record field.offset)
  let slots ← m.readWord (offsetBy record RecordField.stackArgs.offset)
  let retval ← m.readWord (offsetBy record RecordField.retval.offset)
  let args ← (List.range params).mapM fun i => readTagged m (offsetBy slots (i * taggedSize))
  let log := log.push (.interpretation record words (args.map Tagged.bytes))
  match result with
  | .nothing => return (log, m)
  | .echo index =>
    let v ← readTagged m (offsetBy slots (index * taggedSize))
    let m ← m.writeBytes retval v.bytes
    return (log, m)
  | .value v =>
    let m ← m.writeBytes retval v.bytes
    return (log, m)

/-! ## The call -/

/-- The byte that fills the memory below the initial stack pointer. -/
def stackFill : Byte := 0xa5

def stackFillSize : Nat := 0x800

/-- The runtime functions that the thunks of these calls use. -/
def entryPoints : EntryPoints := ⟨calleeAddress, interpreterAddress⟩

def writeWords (m : Machine) (address : Word) : List Word → Except Fault Machine
  | [] => .ok m
  | w :: rest => do
    let m ← m.writeBytes address w.bytes
    writeWords m (offsetBy address 4) rest

def execute (c : ThunkCall) (code : List Byte) : Except Fault (Log × Machine) := do
  let (entry, m) ← Machine.fresh.loadCode code
  let top := m.general r1
  let m ← m.writeBytes (top - BitVec.ofNat 32 stackFillSize)
    (List.replicate stackFillSize stackFill)
  let m ← writeWords m (offsetBy top paramArea) c.stack
  let m := m.setRegisters c.registers
  let hooks := Hooks.ofList
    [ (calleeAddress, convert),
      (interpreterAddress, interpret c.method.signature.params.length c.result) ]
  m.call hooks entry #[]

def outcome (c : ThunkCall) : Except Failure Outcome := do
  let stub ← (Thunk.build c.method entryPoints).mapError .build
  let (log, m) ← (c.execute stub.code).mapError .fault
  return { log, registers := m.toRegisters, frameSize := stub.frameSize }

end ThunkCall

end CallBridge
