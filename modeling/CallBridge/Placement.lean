import CallBridge.Kind.Passing
import CallBridge.Signature

/-!
# Placement of arguments

Where each argument of a native call lies. One cursor runs over the parameters from left to right:
words take the general slots and then the caller's stack words, 64-bit integers take even pairs of
general slots, floats take the float slots. Slots that a pair skips are not used again, and pairs
and floats never go to the stack. Both kinds of stub place their arguments by this rule.
-/

namespace CallBridge

/-- General argument slots, r3 to r10. -/
def generalSlots : Nat := 8

/-- Float argument slots of the convention, f1 to f8. -/
def floatSlots : Nat := 8

/-- Float argument slots that stubs use, f1 to f7. -/
def usableFloatSlots : Nat := 7

/-- Where an argument lies. Slots count from zero; stack offsets count from the start of the
caller's parameter area. -/
inductive Location
  | general (slot : Nat)
  /-- The general slots `first` and `first + 1`. -/
  | pair (first : Nat)
  | float (slot : Nat)
  | stack (offset : Nat)
deriving DecidableEq, Repr

/-- The next free general slot, float slot and stack offset. -/
structure Cursor where
  general : Nat
  float : Nat
  stack : Nat
deriving DecidableEq, Repr

namespace Cursor

/-- The cursor before the first parameter; a receiver takes the first general slot. -/
def start (receiver : Bool) : Cursor :=
  ⟨receiver.toNat, 0, 0⟩

/-- The place of the next argument, and the cursor after it. -/
def place (c : Cursor) (position : Nat) : ArgClass → Except Unsupported (Location × Cursor)
  | .word _ =>
    if c.general < generalSlots then
      .ok (.general c.general, { c with general := c.general + 1 })
    else
      .ok (.stack c.stack, { c with stack := c.stack + 4 })
  | .wide =>
    let first := (c.general + 1) / 2 * 2
    if first + 1 < generalSlots then
      .ok (.pair first, { c with general := first + 2 })
    else
      .error (.placement position .pair)
  | .single | .double =>
    if c.float < usableFloatSlots then
      .ok (.float c.float, { c with float := c.float + 1 })
    else
      .error (.placement position .float)

/-- The cursor after an argument; one that finds no place leaves it where it was. -/
def advance (c : Cursor) (position : Nat) (argClass : ArgClass) : Cursor :=
  match c.place position argClass with
  | .ok (_, next) => next
  | .error _ => c

/-- The place of each argument of a list and the cursor after it, going on after arguments that
find none. -/
def placeEach (c : Cursor) (position : Nat) :
    List ArgClass → List (Except Unsupported (Location × Cursor))
  | [] => []
  | argClass :: rest =>
    c.place position argClass :: (c.advance position argClass).placeEach (position + 1) rest

def advanceAll (c : Cursor) (position : Nat) : List ArgClass → Cursor
  | [] => c
  | argClass :: rest => (c.advance position argClass).advanceAll (position + 1) rest

end Cursor

/-- A parameter's class and the place of its argument. -/
structure PlacedArg where
  argClass : ArgClass
  location : Location
deriving DecidableEq, Repr

/-- Classifies and places parameters one after another, up to the first that is refused. -/
def placeFrom (c : Cursor) (position : Nat) :
    List Parameter → Except Unsupported (List PlacedArg × Cursor)
  | [] => .ok ([], c)
  | p :: params => do
    let argClass ← ArgClass.ofKind position p.kind
    let (location, c) ← c.place position argClass
    let (rest, c) ← placeFrom c (position + 1) params
    return (⟨argClass, location⟩ :: rest, c)

/-- The places of a signature's arguments, and the cursor after them. -/
def Signature.placement (sig : Signature) : Except Unsupported (List PlacedArg × Cursor) :=
  placeFrom (Cursor.start sig.receiver) 0 sig.params

end CallBridge
