import CallBridge.Stub

/-!
# Finished code

Code becomes executable only as a finished image, which is never empty and is not changed again.
-/

namespace CallBridge

structure Image where
  bytes : List Byte
  nonempty : bytes ≠ []
deriving DecidableEq, Repr

namespace Image

/-- A copy of the code, which must not be empty. -/
def ofBytes (bytes : List Byte) : Except Error Image :=
  if h : bytes = [] then .error (.allocation "empty code buffer") else .ok ⟨bytes, h⟩

theorem ofBytes_of_ne_nil {bytes : List Byte} (h : bytes ≠ []) : ofBytes bytes = .ok ⟨bytes, h⟩ :=
  dif_neg h

def size (image : Image) : Nat :=
  image.bytes.length

end Image

end CallBridge
