import CallBridge.Error
import CallBridge.Frame.Trampoline

/-!
# Stubs

A stub is a piece of generated code with a frame of its own. Every stub sets its frame up and leaves
it in the same way: it pushes a frame with a back chain, saves the link register in the caller's
frame and r31 at the top of its own, and keeps r31 as its frame pointer; on its way out it finds
both through the back chain.
-/

namespace CallBridge

/-! ## Registers -/

/-- The stack pointer, r1. -/
def stackPointer : Nat := 1

/-- The register that stubs keep as their frame pointer, r31. Calls preserve it. -/
def framePointer : Nat := 31

/-- The first general argument register, r3; also the result register. -/
def firstGeneral : Nat := 3

/-- The first float argument register, f1; also the result register. -/
def firstFloat : Nat := 1

/-! ## Code and frame -/

/-- A stub: its instructions and the size of its frame. -/
structure Stub where
  insns : List Insn
  frameSize : Nat
deriving DecidableEq, Repr

def Stub.code (stub : Stub) : List Byte :=
  codeOf stub.insns

def Stub.ofStatements (statements : List Statement) (frameSize : Nat) : Except Error Stub :=
  ((assemble statements).mapError .operand).map fun insns => { insns, frameSize }

/-! ## Frame set-up and return -/

open Statement in
def frameEntry (frameSize : Nat) : List Statement :=
  [ transfer .stwu stackPointer (-frameSize) stackPointer,
    mflr 0,
    transfer .stw framePointer (frameSize + savedFramePointer) stackPointer,
    transfer .stw 0 (frameSize + 4) stackPointer,
    mr framePointer stackPointer ]

open Statement in
def frameReturn : List Statement :=
  [ transfer .lwz 11 0 stackPointer,
    transfer .lwz 0 4 11,
    mtlr 0,
    transfer .lwz framePointer savedFramePointer 11,
    mr stackPointer 11,
    blr ]

end CallBridge
