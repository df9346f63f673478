import CallBridge.Alignment
import CallBridge.Insn
import CallBridge.Machine.Memory
import CallBridge.Text.Numeral

/-!
# The machine

A big-endian machine with thirty-two general and thirty-two float registers, a link register and one
megabyte of memory. The lower half of the memory is for code and data; the stack grows down from
near its top. Every access outside the memory is a fault, and so is a sum of an address and a size
that fits into no address.
-/

namespace CallBridge

/-- Why a machine stops. -/
inductive Fault
  /-- An access at this address is not, or not wholly, inside the memory. -/
  | access (address : Word)
  /-- The end of a run of bytes fits into no address. -/
  | overflow
  | unknownInsn (word address : Word)
  | stepLimit
  | codeExhausted
  | dataExhausted
  /-- A conversion was asked for with a descriptor that names no native type. -/
  | unknownDescriptor (descriptor : Word)
deriving DecidableEq, Repr

def Fault.message : Fault → String
  | access address =>
    let address := Text.hex8 address.toNat
    s!"memory access out of range: 0x{address}"
  | overflow => "attempt to add with overflow"
  | unknownInsn word address =>
    let word := Text.hex8 word.toNat
    let address := Text.hex8 address.toNat
    s!"unknown instruction 0x{word} at 0x{address}"
  | stepLimit => "step limit exceeded"
  | codeExhausted => "code area exhausted"
  | dataExhausted => "data area exhausted"
  | unknownDescriptor descriptor =>
    let descriptor := String.ofList (Text.hexadecimal 1 descriptor.toNat)
    s!"unknown descriptor 0x{descriptor}"

/-! ## The map of the memory -/

/-- The first address of the memory; code is loaded from here on. -/
def memoryStart : Nat := 0x10000000

def memoryEnd : Nat := memoryStart + 0x100000

def dataStart : Nat := memoryStart + 0x80000

/-- The initial stack pointer. The words above it are the caller's frame. -/
def stackTop : Nat := memoryEnd - 0x1000

/-- Data must end below this address, to leave room for the stack. -/
def dataEnd : Nat := stackTop - 0x4000

/-- The number of addresses. -/
def addressRange : Nat := 0x100000000

/-- The return address that ends a call. -/
def exitAddress : Word := 0xfffffff0

/-! ## State -/

structure Registers where
  gpr : Vector Word 32
  /-- The bits of the float registers. -/
  fpr : Vector DoubleWord 32
  lr : Word
  pc : Word
deriving DecidableEq

structure Machine extends Registers where
  memory : Memory
  /-- Where the next code is loaded. -/
  nextCode : Nat
  /-- Where the next data is reserved. -/
  nextData : Nat

namespace Machine

/-- A machine with empty memory and only the stack pointer set. -/
def fresh : Machine where
  gpr := (Vector.replicate 32 0).set 1 (BitVec.ofNat 32 stackTop)
  fpr := Vector.replicate 32 0
  lr := 0
  pc := 0
  memory := Memory.empty
  nextCode := memoryStart
  nextData := dataStart

/-! ## Registers -/

def general (m : Machine) (r : Reg) : Word :=
  m.gpr[r.val]

def float (m : Machine) (r : Reg) : DoubleWord :=
  m.fpr[r.val]

def setGeneral (m : Machine) (r : Reg) (value : Word) : Machine :=
  { m with gpr := m.gpr.set r.val value r.isLt }

def setFloat (m : Machine) (r : Reg) (bits : DoubleWord) : Machine :=
  { m with fpr := m.fpr.set r.val bits r.isLt }

theorem general_setGeneral (m : Machine) (r x : Reg) (value : Word) :
    (m.setGeneral r value).general x = if r = x then value else m.general x := by
  simp [general, setGeneral, Vector.getElem_set, Fin.ext_iff]

theorem float_setFloat (m : Machine) (r x : Reg) (bits : DoubleWord) :
    (m.setFloat r bits).float x = if r = x then bits else m.float x := by
  simp [float, setFloat, Vector.getElem_set, Fin.ext_iff]

/-! ## Memory -/

/-- The `count` bytes from an address on lie in the memory. -/
def InMemory (address : Word) (count : Nat) : Prop :=
  memoryStart ≤ address.toNat ∧ address.toNat + count ≤ memoryEnd

instance (address : Word) (count : Nat) : Decidable (InMemory address count) :=
  inferInstanceAs (Decidable (_ ∧ _))

/-- Why a run of bytes that is not wholly in the memory cannot be accessed. Whether its end is an
address matters only where its start is not below the memory. -/
def accessFault (address : Word) (count : Nat) : Fault :=
  if memoryStart ≤ address.toNat ∧ addressRange ≤ address.toNat + count then .overflow
  else .access address

def readBytes (m : Machine) (address : Word) (count : Nat) : Except Fault (List Byte) :=
  if InMemory address count then .ok (m.memory.load address.toNat count)
  else .error (accessFault address count)

def writeBytes (m : Machine) (address : Word) (bytes : List Byte) : Except Fault Machine :=
  if InMemory address bytes.length then
    .ok { m with memory := m.memory.store address.toNat bytes }
  else
    .error (accessFault address bytes.length)

/-- The number in the `count` bytes from an address on. -/
def readValue (m : Machine) (address : Word) (count : Nat) : Except Fault Nat :=
  (m.readBytes address count).map valueOf

/-- Puts the low `count` bytes of a number from an address on. -/
def writeValue (m : Machine) (address : Word) (count value : Nat) : Except Fault Machine :=
  m.writeBytes address (bytesOf count value)

def readWord (m : Machine) (address : Word) : Except Fault Word :=
  (m.readValue address 4).map (BitVec.ofNat 32)

def readDouble (m : Machine) (address : Word) : Except Fault DoubleWord :=
  (m.readValue address 8).map (BitVec.ofNat 64)

/-! ## Loading -/

/-- Copies code into memory and gives its address. -/
def loadCode (m : Machine) (code : List Byte) : Except Fault (Word × Machine) := do
  let address := BitVec.ofNat 32 m.nextCode
  let m ← m.writeBytes address code
  let next := align16 (m.nextCode + code.length)
  if next < dataStart then .ok (address, { m with nextCode := next }) else .error .codeExhausted

/-- Reserves memory for data and gives its address. The size is rounded up before it is held against
the end of the area, so the sum that the rounding starts from must be an address. -/
def allocate (m : Machine) (size : Nat) : Except Fault (Word × Machine) :=
  let next := align16 (m.nextData + size)
  if addressRange ≤ m.nextData + size + 15 then .error .overflow
  else if next < dataEnd then .ok (BitVec.ofNat 32 m.nextData, { m with nextData := next })
  else .error .dataExhausted

end Machine

end CallBridge
