import CallBridge.Signature
import CallBridge.Kind.Text

/-!
# Signatures as text

A signature is written as its parameters, separated by commas, an arrow, and its result:
`this, i4, &object -> bool`. The receiver is the word `this` in front of the parameters. When a text
without an arrow is read, the result is `void`; the result is read before the parameters.
-/

namespace CallBridge

open Text

namespace Signature

def arrow : List Char := "->".toList

def receiverWord : List Char := "this".toList

/-- What separates the receiver from the first parameter: any run of spaces and commas. -/
def separatesReceiver (c : Char) : Bool :=
  c = ' ' || c = ','

/-- Whether a parameter list begins with the receiver, and the parameters after it. The word
`this` is the receiver only if it stands alone or a space or a comma follows. -/
def cutReceiver (list : List Char) : Bool × List Char :=
  match after? receiverWord list with
  | some rest =>
    if rest.head?.all separatesReceiver then
      (true, rest.dropWhile separatesReceiver)
    else
      (false, list)
  | none => (false, list)

/-- The kinds of a comma-separated list, which may be empty. -/
def kindsOfChars (list : List Char) : Except TextFault (List Kind) :=
  if trim list = [] then .ok [] else (pieces ',' list).mapM Kind.ofChars

def ofChars (text : List Char) : Except TextFault Signature := do
  let (list, ret) ←
    match cutAt? arrow text with
    | some (list, ret) => do
      let ret ← Kind.ofChars ret
      pure (list, ret)
    | none => pure (text, Kind.primitive .void)
  let (receiver, list) := cutReceiver (trim list)
  let kinds ← kindsOfChars list
  return ofKinds receiver kinds ret

def ofText (s : String) : Except TextFault Signature :=
  ofChars s.toList

/-- The characters of a signature's text. Descriptors and the choice of sizes are not written. -/
def chars (sig : Signature) : List Char :=
  let kinds := sig.params.map fun p => p.kind.chars
  let list := if sig.receiver then receiverWord :: kinds else kinds
  ", ".toList.intercalate list ++ " -> ".toList ++ sig.ret.chars

def text (sig : Signature) : String :=
  String.ofList sig.chars

end Signature

end CallBridge
