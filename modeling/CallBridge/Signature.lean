import CallBridge.Kind

/-!
# Signatures and methods
-/

namespace CallBridge

/-- A parameter. The descriptor is the address of the runtime's description of its type; a thunk
hands it to the conversion function as it is. -/
structure Parameter where
  kind : Kind
  descriptor : Word := 0
deriving DecidableEq, Repr

/-- A call signature; the parameters stand in call order. -/
structure Signature where
  params : List Parameter
  /-- Whether an implicit receiver comes before the parameters. -/
  receiver : Bool
  ret : Kind
  /-- Asks the conversion function for native instead of interpreter sizes. -/
  pinvoke : Bool
deriving DecidableEq, Repr

structure Method where
  /-- The address of the runtime's handle of the method. -/
  handle : Word
  signature : Signature
deriving DecidableEq, Repr

/-- A signature as its text gives it: no descriptors, interpreter sizes. -/
def Signature.ofKinds (receiver : Bool) (params : List Kind) (ret : Kind) : Signature where
  params := params.map fun kind => { kind }
  receiver
  ret
  pinvoke := false

/-- Descriptors given to parameters in order. Parameters without one keep theirs, and descriptors
without a parameter are dropped. -/
def assignDescriptors : List Parameter → List Word → List Parameter
  | p :: params, d :: descriptors =>
    { p with descriptor := d } :: assignDescriptors params descriptors
  | params, _ => params

def Signature.withDescriptors (sig : Signature) (descriptors : List Word) : Signature :=
  { sig with params := assignDescriptors sig.params descriptors }

end CallBridge
