import CallBridge.Alignment
import CallBridge.Placement
import CallBridge.Tagged

/-!
# The frame of a trampoline

From the stack pointer up, a trampoline's frame of size `S` holds the back chain, the link register
word of the callee, the stack arguments, the saved return slot pointer at `S - 12` and the saved r31
at `S - 4`. The link register is saved in the caller's frame, at `S + 4`.
-/

namespace CallBridge

def insnSize : Nat := 4

/-- Where the parameter area of a frame starts: after the back chain and the link register word. -/
def paramArea : Nat := 8

/-- The saved return slot pointer, counted from the top of the frame. -/
def savedReturnSlot : Int := -12

/-- The saved r31, counted from the top of the frame. -/
def savedFramePointer : Int := -4

def maxDisplacement : Nat := 32767

/-- Frame and code of a trampoline. -/
structure TrampolineLayout where
  frameSize : Nat
  codeSize : Nat
  receiver : Bool
  params : List PlacedArg
  ret : ReturnClass
deriving DecidableEq, Repr

namespace TrampolineLayout

/-- Instructions of every trampoline: frame set-up (5), saving callee, array and return slot (3),
the call (2) and the return (6). -/
def fixedInsns : Nat := 16

/-- The frame without stack arguments: back chain, link register word, saved return slot pointer,
saved r31, and a word between these two. -/
def fixedFrame : Nat := 20

/-- Instructions that load an argument: one, or two where a pair is loaded or a word is copied. -/
def argInsns : Location → Nat
  | .general _ | .float _ => 1
  | .pair _ | .stack _ => 2

def argsInsns : List PlacedArg → Nat
  | [] => 0
  | p :: params => argInsns p.location + argsInsns params

/-- Instructions that store a result: the return slot pointer is loaded first. -/
def returnInsns : ReturnClass → Nat
  | .void => 0
  | .wide => 3
  | _ => 2

def codeSizeOf (receiver : Bool) (params : List PlacedArg) (ret : ReturnClass) : Nat :=
  (fixedInsns + receiver.toNat + argsInsns params + returnInsns ret) * insnSize

/-- How far the code reaches: to the link register word above the frame, and to the end of the
tagged arguments. -/
def reachOf (frameSize params : Nat) : Nat :=
  max (frameSize + 4) (params * taggedSize)

/-- The layout of a signature's trampoline. A frame or argument array beyond the reach of one
displacement is refused. -/
def ofSignature (sig : Signature) (stringCtor : Bool) : Except Unsupported TrampolineLayout := do
  let (params, cursor) ← sig.placement
  let ret ← ReturnClass.ofKind stringCtor sig.ret
  let frameSize := align16 (fixedFrame + cursor.stack)
  let reach := reachOf frameSize params.length
  if maxDisplacement < reach then
    throw (.frameTooLarge reach)
  return {
    frameSize
    codeSize := codeSizeOf sig.receiver params ret
    receiver := sig.receiver
    params
    ret
  }

end TrampolineLayout

end CallBridge
