import CallBridge.Frame.Trampoline

/-!
# The frame of a thunk

From the stack pointer up, a thunk's frame of size `S` holds

- the back chain and the link register word of the functions it calls,
- the invocation record, at 8,
- the tagged arguments, at 40, and the tagged result after them,
- the general argument registers as received, and the float argument registers as received,
- the saved r31, at `S - 4`.

The link register is saved in the caller's frame, at `S + 4`, and the caller's stack arguments begin
at `S + 8`.
-/

namespace CallBridge

/-- The fields of an invocation record: one call of the interpreter, described by addresses. -/
inductive RecordField
  | parent
  | child
  | method
  /-- The tagged slot that receives the result. -/
  | retval
  | receiver
  | stackArgs
  | exception
  | exceptionHandler
deriving DecidableEq, Repr

namespace RecordField

/-- The fields in the order in which they lie in memory. -/
def all : List RecordField :=
  [parent, child, method, retval, receiver, stackArgs, exception, exceptionHandler]

def offset : RecordField → Nat
  | parent => 0
  | child => 4
  | method => 8
  | retval => 12
  | receiver => 16
  | stackArgs => 20
  | exception => 24
  | exceptionHandler => 28

end RecordField

def recordSize : Nat := 32

/-- Frame of a thunk; offsets count from the stack pointer. -/
structure ThunkLayout where
  frameSize : Nat
  retval : Nat
  /-- The general argument registers as received. -/
  generalSpill : Nat
  /-- The float argument registers as received. -/
  floatSpill : Nat
  params : List PlacedArg
  ret : ReturnClass
deriving DecidableEq, Repr

namespace ThunkLayout

def record : Nat := paramArea

def args : Nat := record + recordSize

def argSlot (index : Nat) : Nat :=
  args + index * taggedSize

/-- The layout of a signature's thunk. The stack arguments are the farthest that the code reaches;
where no displacement gets there, the signature is refused. -/
def ofSignature (sig : Signature) : Except Unsupported ThunkLayout := do
  let (params, cursor) ← sig.placement
  let ret ← ReturnClass.ofKind false sig.ret
  let retval := argSlot params.length
  let generalSpill := retval + taggedSize
  let floatSpill := generalSpill + generalSlots * 4
  let frameSize := align16 (floatSpill + floatSlots * 8 + 4)
  let reach := frameSize + paramArea + cursor.stack
  if maxDisplacement < reach then
    throw (.frameTooLarge reach)
  return { frameSize, retval, generalSpill, floatSpill, params, ret }

/-- The offset of the word or double word that holds an argument as received. -/
def home (layout : ThunkLayout) : Location → Nat
  | .general slot | .pair slot => layout.generalSpill + slot * 4
  | .float slot => layout.floatSpill + slot * 8
  | .stack offset => layout.frameSize + paramArea + offset

/-- The offset of an argument in its native width: a value narrower than a word lies at the high end
of its word. -/
def source (layout : ThunkLayout) (param : PlacedArg) : Nat :=
  match param.argClass with
  | .word size => layout.home param.location + (4 - size)
  | _ => layout.home param.location

end ThunkLayout

end CallBridge
