import CallBridge.Machine.Script

/-!
# The bench

A machine under test: commands that load, reserve, read, write and set, that put scripted functions
at addresses, and that call.
-/

namespace CallBridge

/-- A machine with its scripted functions, the newest first. -/
structure Bench where
  machine : Machine
  scripts : List (Word × List Action)

namespace Bench

/-- What a bench is told to do. -/
inductive Command
  | loadCode (code : List Byte)
  | allocate (size : Nat)
  | write (address : Word) (data : List Byte)
  | read (address : Word) (count : Nat)
  | set (values : RegisterValues)
  | hook (address : Word) (actions : List Action)
  | call (entry : Word)
deriving DecidableEq, Repr

/-- What a command answers. -/
inductive Reply
  | done
  | address (a : Word)
  | data (bytes : List Byte)
  /-- The registers after a call, and what was observed during it. -/
  | returned (registers : Registers) (log : Log)
deriving DecidableEq

def fresh : Bench := ⟨Machine.fresh, []⟩

def hooks (b : Bench) : Hooks Log :=
  Hooks.ofList (b.scripts.map fun (address, actions) => (address, scripted actions))

/-- Performs a command. -/
def perform (b : Bench) : Command → Except Fault (Reply × Bench)
  | .loadCode code => do
    let (address, machine) ← b.machine.loadCode code
    return (.address address, { b with machine })
  | .allocate size => do
    let (address, machine) ← b.machine.allocate size
    return (.address address, { b with machine })
  | .write address data => do
    let machine ← b.machine.writeBytes address data
    return (.done, { b with machine })
  | .read address count => do
    let data ← b.machine.readBytes address count
    return (.data data, b)
  | .set values => .ok (.done, { b with machine := b.machine.setRegisters values })
  | .hook address actions => .ok (.done, { b with scripts := (address, actions) :: b.scripts })
  | .call entry => do
    let (log, machine) ← b.machine.call b.hooks entry #[]
    return (.returned machine.toRegisters log, { b with machine })

/-- Performs commands up to the first fault. -/
def performAll (b : Bench) : List Command → List (Except Fault Reply)
  | [] => []
  | command :: rest =>
    match b.perform command with
    | .ok (reply, b) => .ok reply :: b.performAll rest
    | .error fault => [.error fault]

end Bench

end CallBridge
