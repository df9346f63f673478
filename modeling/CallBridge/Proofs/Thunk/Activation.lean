import CallBridge.Proofs.Places
import CallBridge.Proofs.Progress
import CallBridge.Stub.Thunk

/-!
# Activations of thunks

One call of a thunk: the method, the functions that the thunk calls, its layout, and the machine
that enters it. All that a thunk does is described from there: where its frame and the parts of it
lie, what the fields of the invocation record are to be, and which bytes a native argument has.
-/

namespace CallBridge

open Machine

def ArgClass.width : ArgClass → Nat
  | word size => size
  | wide | double => 8
  | single => 4

theorem ArgClass.Native.width_pos {argClass : ArgClass} (h : argClass.Native) :
    0 < argClass.width := by
  cases argClass with
  | word size => rcases h with h | h | h <;> rw [width] <;> omega
  | _ => decide

namespace Thunk

/-! ## Layout -/

/-- The layout is the one of the signature, however far it reaches. -/
structure Planned (sig : Signature) (layout : ThunkLayout) (cursor : Cursor) : Prop where
  placement : sig.placement = .ok (layout.params, cursor)
  ret : ReturnClass.ofKind false sig.ret = .ok layout.ret
  retval : layout.retval = ThunkLayout.argSlot sig.params.length
  generalSpill : layout.generalSpill = layout.retval + 16
  floatSpill : layout.floatSpill = layout.generalSpill + 32
  frameSize : layout.frameSize = align16 (layout.floatSpill + 68)

/-- The layout is the one of the signature, and it is within reach. -/
structure Laid (sig : Signature) (layout : ThunkLayout) (cursor : Cursor) : Prop
    extends Planned sig layout cursor where
  reach : layout.frameSize + 8 + cursor.stack ≤ 32767

variable {sig : Signature} {layout : ThunkLayout} {cursor : Cursor}

theorem laid_of_ofSignature (h : ThunkLayout.ofSignature sig = .ok layout) :
    ∃ cursor, Laid sig layout cursor := by
  obtain ⟨⟨params, cursor⟩, hplacement, h⟩ := bind_eq_ok_iff.mp h
  obtain ⟨ret, hret, h⟩ := bind_eq_ok_iff.mp h
  dsimp only at h
  split at h
  · cases h
  · rename_i hreach
    cases h
    have hlength := (places_of_placeFrom hplacement).2.1
    exact ⟨cursor, ⟨hplacement, hret, congrArg ThunkLayout.argSlot hlength, rfl, rfl, rfl⟩,
      Nat.le_of_not_lt hreach⟩

theorem Planned.places (h : Planned sig layout cursor) :
    (Cursor.start sig.receiver).Places layout.params cursor ∧
      layout.params.length = sig.params.length ∧ ∀ param ∈ layout.params, param.argClass.Native :=
  places_of_placeFrom h.placement

theorem Planned.bounded (h : Planned sig layout cursor) : cursor.Bounded :=
  h.places.1.bounded (Cursor.start_bounded _)

/-- The sizes of the parts of the frame, all of them counted in bytes. -/
theorem Planned.sizes (h : Planned sig layout cursor) :
    layout.retval = 40 + sig.params.length * 16 ∧ layout.generalSpill = layout.retval + 16 ∧
      layout.floatSpill = layout.generalSpill + 32 ∧ layout.floatSpill + 68 ≤ layout.frameSize := by
  refine ⟨h.retval, h.generalSpill, h.floatSpill, ?_⟩
  rw [h.frameSize]
  exact le_align16 _

/-! ## Activations -/

structure Activation where
  method : Method
  entryPoints : EntryPoints
  layout : ThunkLayout
  /-- The machine that enters the thunk. -/
  entry : Machine

namespace Activation

variable (a : Activation)

def frame : Nat :=
  a.entry.sp - a.layout.frameSize

/-- The parameters with the places of their arguments. -/
def args : List (Parameter × PlacedArg) :=
  a.method.signature.params.zip a.layout.params

/-- The invocation record. -/
def recordSpan : Set Nat :=
  Set.Ico (a.frame + 8) (a.frame + 40)

/-- The tagged slots from index `i` on and before index `j`. The slot after those of the arguments
is the one of the result. -/
def slots (i j : Nat) : Set Nat :=
  Set.Ico (a.frame + ThunkLayout.argSlot i) (a.frame + ThunkLayout.argSlot j)

/-- The argument registers as received. -/
def spillSpan : Set Nat :=
  Set.Ico (a.frame + a.layout.generalSpill) (a.frame + a.layout.floatSpill + 64)

def frameSpan : Set Nat :=
  Set.Ico a.frame a.entry.sp

/-- The caller's stack words, as far as the stack arguments reach. -/
def callerSpan (cursor : Cursor) : Set Nat :=
  Set.Ico a.entry.sp (a.entry.sp + 8 + cursor.stack)

/-- The bytes that a conversion is told to read. -/
def nativeSpan (param : PlacedArg) : Set Nat :=
  Set.Ico (a.frame + a.layout.source param) (a.frame + a.layout.source param + param.argClass.width)

/-- What a field of the invocation record is to hold. -/
def fieldValue : RecordField → Word
  | .parent | .child | .exception | .exceptionHandler => 0
  | .method => a.method.handle
  | .receiver => if a.method.signature.receiver then a.entry.r 3 else 0
  | .stackArgs => BitVec.ofNat 32 (a.frame + ThunkLayout.args)
  | .retval => BitVec.ofNat 32 (a.frame + ThunkLayout.argSlot a.method.signature.params.length)

/-- Every field of the invocation record is as it should be. -/
def Recorded (mem : Memory) : Prop :=
  ∀ field : RecordField, mem.word (a.frame + 8 + field.offset) = a.fieldValue field

/-- The bytes of a native argument, in its native width, as the thunk receives it. A narrow integer
is the low end of its register or stack word. -/
def incoming : PlacedArg → List Byte
  | ⟨.word size, .general slot⟩ => bytesOf size (a.entry.r (3 + slot)).toNat
  | ⟨.word size, .stack offset⟩ =>
    bytesOf size (a.entry.memory.word (a.entry.sp + 8 + offset)).toNat
  | ⟨.wide, .pair first⟩ =>
    bytesOf 4 (a.entry.r (3 + first)).toNat ++ bytesOf 4 (a.entry.r (3 + first + 1)).toNat
  | ⟨.single, .float slot⟩ => bytesOf 4 (SinglePrecision.narrow (a.entry.f (1 + slot))).toNat
  | ⟨.double, .float slot⟩ => bytesOf 8 (a.entry.f (1 + slot)).toNat
  | _ => []

/-- The bytes that a conversion is told to read are those of the native argument. -/
def Sourced (mem : Memory) (param : PlacedArg) : Prop :=
  mem.load (a.frame + a.layout.source param) param.argClass.width = a.incoming param

end Activation

end Thunk

end CallBridge
