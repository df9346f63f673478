import CallBridge.Stub

/-!
# Trampolines

A trampoline calls a native function with arguments from an array of tagged values. It is entered
with the callee in r3, the return slot in r4, the receiver in r5 and the array in r6. It moves these
out of the way, loads every argument into its register or stack word, calls, and stores the native
result at the start of the return slot in its native width.
-/

namespace CallBridge

namespace Trampoline

open Statement

/-- Saves the return slot in the frame and moves array and callee out of the argument registers. -/
def saveOperands (layout : TrampolineLayout) : List Statement :=
  [ mr 12 6, mr 0 3, transfer .stw 4 (layout.frameSize + savedReturnSlot) framePointer ]

def loadReceiver (layout : TrampolineLayout) : List Statement :=
  if layout.receiver then [mr 3 5] else []

/-- Loads an argument from the tagged value at an offset in the array. Floats of either width are
loaded as the double in the tagged value. -/
def loadArg (offset : Nat) : Location → List Statement
  | .general slot => [transfer .lwz (firstGeneral + slot) offset 12]
  | .pair first =>
    [ transfer .lwz (firstGeneral + first) offset 12,
      transfer .lwz (firstGeneral + first + 1) (offset + 4) 12 ]
  | .float slot => [transfer .lfd (firstFloat + slot) offset 12]
  | .stack word =>
    [transfer .lwz 11 offset 12, transfer .stw 11 (paramArea + word) stackPointer]

/-- Loads all arguments; tagged values lie one after another. -/
def loadArgs (params : List PlacedArg) : List Statement :=
  params.zipIdx.flatMap fun (param, i) => loadArg (i * taggedSize) param.location

/-- Stores the result through the saved return slot pointer. -/
def storeResult (layout : TrampolineLayout) : List Statement :=
  let slot := transfer .lwz 9 (layout.frameSize + savedReturnSlot) framePointer
  match layout.ret with
  | .void => []
  | .byte => [slot, transfer .stb 3 0 9]
  | .half => [slot, transfer .sth 3 0 9]
  | .word | .pointer => [slot, transfer .stw 3 0 9]
  | .wide => [slot, transfer .stw 3 0 9, transfer .stw 4 4 9]
  | .single => [slot, transfer .stfs firstFloat 0 9]
  | .double => [slot, transfer .stfd firstFloat 0 9]

def statements (layout : TrampolineLayout) : List Statement :=
  frameEntry layout.frameSize ++ saveOperands layout ++ loadReceiver layout ++
    loadArgs layout.params ++ [mtlr 0, blrl] ++ storeResult layout ++ frameReturn

/-- The trampoline for native functions of a signature. With `stringCtor` the callee is a string
constructor, whose result is stored as a raw pointer. -/
def build (sig : Signature) (stringCtor : Bool) : Except Error Stub := do
  let layout ← (TrampolineLayout.ofSignature sig stringCtor).mapError .unsupported
  let stub ← Stub.ofStatements (statements layout) layout.frameSize
  if stub.code.length ≠ layout.codeSize then
    throw (.layoutInconsistency "trampoline" layout.codeSize stub.code.length)
  return stub

end Trampoline

end CallBridge
