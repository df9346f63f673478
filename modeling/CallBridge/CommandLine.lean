import CallBridge.Session

/-!
# The command line

Builds one stub from a signature and prints its size and frame, on request with a listing or with
the code as `.byte` directives. Flags may stand anywhere before the first `--`; all other arguments,
and all after it, are words of the signature.

The environment is taken to set no log filter. No log is written then, and standard output holds
nothing but what is printed here.
-/

namespace CallBridge

namespace CommandLine

open Job

inductive Flag
  | printCode
  | bytes
  | thunk
  | stringCtor
  | pinvoke
deriving DecidableEq, Repr

namespace Flag

def all : List Flag :=
  [printCode, bytes, thunk, stringCtor, pinvoke]

def name : Flag → String
  | printCode => "--print-code"
  | bytes => "--bytes"
  | thunk => "--thunk"
  | stringCtor => "--string-ctor"
  | pinvoke => "--pinvoke"

def ofName? (arg : String) : Option Flag :=
  all.find? fun flag => flag.name = arg

end Flag

def separator : String := "--"

structure Options where
  flags : List Flag
  words : List String
deriving DecidableEq, Repr

namespace Options

def ofArgs (args : List String) : Options :=
  let before := args.takeWhile (· ≠ separator)
  let after := (args.dropWhile (· ≠ separator)).drop 1
  { flags := before.filterMap Flag.ofName?
    words := before.filter (fun arg => (Flag.ofName? arg).isNone) ++ after }

def has (options : Options) (flag : Flag) : Bool :=
  options.flags.contains flag

def text (options : Options) : String :=
  " ".intercalate options.words

end Options

structure Outcome where
  exitCode : Nat
  stdout : String
  stderr : String
deriving DecidableEq, Repr

/-- The runtime addresses in thunks that are built outside a runtime. -/
def entryPoints : EntryPoints := ⟨0x1000, 0x2000⟩

def handle : Word := 0x3000

def generator (options : Options) : Generator where
  entryPoints
  printCode := options.has .printCode

def request (options : Options) (sig : Signature) : Request :=
  let sig := { sig with pinvoke := options.has .pinvoke }
  if options.has .thunk then .thunk { handle, signature := sig }
  else .trampoline sig (options.has .stringCtor)

/-- The size of the code and of the frame. -/
def summary (code : Installed) : String :=
  let size := code.image.size
  let frame := code.frameSize
  s!"{size} bytes of code, {frame} byte frame"

/-- The code as `.byte` directives, if the options ask for it. -/
def printBytes (options : Options) (code : Installed) : Job Unit := do
  if options.has .bytes then
    print (Listing.bytes code.image.bytes)

/-- What the program does for its options. -/
def perform (host : Host) (options : Options) : Job Unit := do
  let sig ← (Signature.ofText options.text).mapError Error.malformed
  let code ← (generator options).serve host (request options sig)
  printBytes options code
  printLine (summary code)

def usage : String :=
  "usage: tramp [--print-code] [--bytes] [--thunk] [--string-ctor] [--pinvoke] <signature>\n"

/-- The program. Without arguments it shows how it is used. Whatever goes wrong, what was printed up
to then stays printed. -/
def run (host : Host) (args : List String) : Outcome :=
  if args = [] then
    { exitCode := 1, stdout := "", stderr := usage }
  else
    let (outcome, session) := (perform host (Options.ofArgs args)).attempt Session.start
    match outcome with
    | .ok () => { exitCode := 0, stdout := session.printed, stderr := "" }
    | .error e =>
      let text := e.message
      { exitCode := 1, stdout := session.printed, stderr := s!"tramp: {text}\n" }

end CommandLine

end CallBridge
