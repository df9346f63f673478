import CallBridge.Frame.Thunk
import CallBridge.Stub

/-!
# Thunks

A thunk is a native function with the signature of an interpreted method. It fills an invocation
record in its own frame, spills the argument registers, converts every argument as received into a
tagged slot by a call of the conversion function, runs the method by a call of the interpreter entry
with the record in r3, and loads the tagged result into the result registers.

A conversion call gets the descriptor in r3, the address of the native argument in r4, the address
of the tagged slot in r5 and the choice of sizes in r6.
-/

namespace CallBridge

/-- The runtime functions that thunks call. -/
structure EntryPoints where
  /-- Copies a native value into a tagged slot. -/
  convert : Word
  /-- Runs the method that an invocation record describes. -/
  interpret : Word
deriving DecidableEq, Repr

namespace Thunk

open Statement

def storeField (reg : Nat) (field : RecordField) : Statement :=
  transfer .stw reg (ThunkLayout.record + field.offset) framePointer

/-- Clears the fields that the interpreter fills, and stores the receiver, or zero without one. -/
def clearRecord (receiver : Bool) : List Statement :=
  [ li 0 0,
    storeField 0 .parent,
    storeField 0 .child,
    storeField 0 .exception,
    storeField 0 .exceptionHandler,
    storeField (if receiver then 3 else 0) .receiver ]

/-- Saves the registers of an argument. Arguments on the stack stay where they are. -/
def spillArg (layout : ThunkLayout) (param : PlacedArg) : List Statement :=
  let generalSlot (slot : Nat) :=
    transfer .stw (firstGeneral + slot) (layout.generalSpill + slot * 4) framePointer
  let floatSlot (op : Transfer) (slot : Nat) :=
    transfer op (firstFloat + slot) (layout.floatSpill + slot * 8) framePointer
  match param.location with
  | .general slot => [generalSlot slot]
  | .pair first => [generalSlot first, generalSlot (first + 1)]
  | .float slot => [floatSlot (if param.argClass = .single then .stfs else .stfd) slot]
  | .stack _ => []

/-- Stores the handle, the tagged arguments and the tagged result in the record. -/
def fillRecord (layout : ThunkLayout) (handle : Word) : List Statement :=
  [ loadWord 0 handle,
    storeField 0 .method,
    addi 0 framePointer ThunkLayout.args,
    storeField 0 .stackArgs,
    addi 0 framePointer layout.retval,
    storeField 0 .retval ]

def call (target : Word) : List Statement :=
  [loadWord 0 target, mtlr 0, blrl]

def convertArg (layout : ThunkLayout) (convert : Word) (pinvoke : Bool) (index : Nat)
    (descriptor : Word) (param : PlacedArg) : List Statement :=
  [ loadWord 3 descriptor,
    addi 4 framePointer (layout.source param),
    addi 5 framePointer (ThunkLayout.argSlot index),
    li 6 pinvoke.toNat ] ++ call convert

def convertArgs (layout : ThunkLayout) (convert : Word) (sig : Signature) : List Statement :=
  (sig.params.zip layout.params).zipIdx.flatMap fun ((param, placed), i) =>
    convertArg layout convert sig.pinvoke i param.descriptor placed

def loadResult (layout : ThunkLayout) : List Statement :=
  match layout.ret with
  | .void => []
  | .byte | .half | .word | .pointer => [transfer .lwz 3 layout.retval framePointer]
  | .wide =>
    [ transfer .lwz 3 layout.retval framePointer,
      transfer .lwz 4 (layout.retval + 4) framePointer ]
  | .single => [transfer .lfd firstFloat layout.retval framePointer, frsp firstFloat firstFloat]
  | .double => [transfer .lfd firstFloat layout.retval framePointer]

def statements (method : Method) (entryPoints : EntryPoints) (layout : ThunkLayout) :
    List Statement :=
  frameEntry layout.frameSize ++
    clearRecord method.signature.receiver ++
    layout.params.flatMap (spillArg layout) ++
    fillRecord layout method.handle ++
    convertArgs layout entryPoints.convert method.signature ++
    [addi 3 framePointer ThunkLayout.record] ++ call entryPoints.interpret ++
    loadResult layout ++ frameReturn

/-- The native entry point of a method. -/
def build (method : Method) (entryPoints : EntryPoints) : Except Error Stub := do
  let layout ← (ThunkLayout.ofSignature method.signature).mapError .unsupported
  Stub.ofStatements (statements method entryPoints layout) layout.frameSize

end Thunk

end CallBridge
