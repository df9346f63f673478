import CallBridge.Image
import CallBridge.Insn.Listing
import CallBridge.Signature.Text
import CallBridge.Stub.Thunk
import CallBridge.Stub.Trampoline

/-!
# Sessions

A generator serves requests for trampolines and thunks. A session is what its requests leave behind:
the runtime's registry, which learns of every thunk as soon as its code is final, and what was
printed. A request can fail at each of its steps, and the steps before it are not undone: where a
listing cannot be made, its heading has been printed, and a thunk has been registered.
-/

namespace CallBridge

/-- What a generator needs of the system. -/
structure Host where
  /-- Maps memory for code, and gives its address or says why there is none. Mappings are told apart
  by their number. -/
  map : Nat → Except String Nat
  disassembler : Disassembler

/-- Finished code at its address. -/
structure Installed where
  address : Nat
  image : Image
  frameSize : Nat
deriving DecidableEq, Repr

/-- What the registry is told about a thunk. -/
structure Registration where
  address : Nat
  codeSize : Nat
  method : Word
deriving DecidableEq, Repr

structure Session where
  /-- How often memory was mapped. -/
  images : Nat
  /-- The registrations, the first one first. -/
  registry : List Registration
  printed : String
deriving DecidableEq, Repr

def Session.start : Session where
  images := 0
  registry := []
  printed := ""

/-! ## Jobs -/

/-- A part of a session, which may fail. -/
abbrev Job := ExceptT Error (StateM Session)

namespace Job

/-- What a job comes to in a session, and the session that it leaves behind either way. -/
def attempt {α : Type} (job : Job α) (session : Session) : Except Error α × Session :=
  job.run session

/-- Copies the code of a stub into memory of its own. -/
def finish (host : Host) (stub : Stub) : Job Installed := do
  let image ← Image.ofBytes stub.code
  let session ← get
  let address ← (host.map session.images).mapError Error.allocation
  set { session with images := session.images + 1 }
  return { address, image, frameSize := stub.frameSize }

def register (entry : Registration) : Job Unit :=
  modify fun session => { session with registry := session.registry ++ [entry] }

def print (text : String) : Job Unit :=
  modify fun session => { session with printed := session.printed ++ text }

def printLine (line : String) : Job Unit :=
  print (line ++ "\n")

/-- Prints a listing of finished code. -/
def printCode (host : Host) (code : Installed) : Job Unit := do
  let lines ← Listing.disassemble host.disassembler code.address code.image.bytes
  forM lines printLine

end Job

open Job

def Trampoline.create (host : Host) (sig : Signature) (stringCtor : Bool) : Job Installed := do
  let stub ← Trampoline.build sig stringCtor
  finish host stub

/-- Tells the registry of the thunk once its code is final. -/
def Thunk.create (host : Host) (method : Method) (entryPoints : EntryPoints) :
    Job Installed := do
  let stub ← Thunk.build method entryPoints
  let code ← finish host stub
  register { address := code.address, codeSize := code.image.size, method := method.handle }
  return code

/-! ## Requests -/

inductive Request
  | trampoline (sig : Signature) (stringCtor : Bool)
  | thunk (method : Method)
deriving DecidableEq, Repr

/-- The line above a listing. -/
def Request.heading : Request → String
  | trampoline sig _ =>
    let text := sig.text
    s!"trampoline `{text}`:"
  | thunk method =>
    let handle := Text.hex8 method.handle.toNat
    let text := method.signature.text
    s!"thunk for 0x{handle} `{text}`:"

structure Generator where
  entryPoints : EntryPoints
  /-- Whether a listing of every stub is printed. -/
  printCode : Bool

namespace Generator

def create (g : Generator) (host : Host) : Request → Job Installed
  | .trampoline sig stringCtor => Trampoline.create host sig stringCtor
  | .thunk method => Thunk.create host method g.entryPoints

/-- Prints a listing of the code, if the generator does so. -/
def announce (g : Generator) (host : Host) (request : Request) (code : Installed) : Job Unit := do
  if g.printCode then
    printLine request.heading
    Job.printCode host code

/-- Serves one request. -/
def serve (g : Generator) (host : Host) (request : Request) : Job Installed := do
  let code ← g.create host request
  g.announce host request code
  return code

def serveAll (g : Generator) (host : Host) (session : Session) :
    List Request → List (Except Error Installed) × Session
  | [] => ([], session)
  | request :: rest =>
    let (outcome, session) := (g.serve host request).attempt session
    let (outcomes, session) := g.serveAll host session rest
    (outcome :: outcomes, session)

end Generator

end CallBridge
