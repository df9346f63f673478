import CallBridge.Machine.Step

/-!
# Runs

Native functions that the code calls are modelled by hooks. When the program counter comes to a
hooked address the hook runs in place of code, the registers that a native function may change are
spoilt, and the run goes on at the link register. A run ends at the exit address.

Hooks carry a state of their own through the run, for what they observe.
-/

namespace CallBridge

/-- A native function. It may change the machine and its own state, or fault. -/
abbrev Hook (σ : Type) := σ → Machine → Except Fault (σ × Machine)

/-- The native functions by address. -/
abbrev Hooks (σ : Type) := Word → Option (Hook σ)

/-- The value in general registers that a call does not preserve. -/
def spoiltWord : Word := 0xbad0bad0

/-- The bits in float registers that a call does not preserve: a quiet NaN. -/
def spoiltDouble : DoubleWord := 0x7ff8000000000000

/-- The general registers that a call changes, the result registers apart. -/
def spoilsGeneral (r : Reg) : Bool :=
  r.val == 0 || 5 ≤ r.val && r.val ≤ 12

/-- The float registers that a call changes, the result register apart. -/
def spoilsFloat (r : Reg) : Bool :=
  r.val == 0 || 2 ≤ r.val && r.val ≤ 13

/-- The number of steps after which a run is given up. -/
def stepLimit : Nat := 100000

namespace Machine

/-- The machine after a native function: the registers that it does not preserve are spoilt. -/
def spoil (m : Machine) : Machine :=
  { m with
    gpr := Vector.ofFn fun r => if spoilsGeneral r then spoiltWord else m.general r
    fpr := Vector.ofFn fun r => if spoilsFloat r then spoiltDouble else m.float r }

theorem general_spoil (m : Machine) (r : Reg) :
    m.spoil.general r = if spoilsGeneral r then spoiltWord else m.general r := by
  simp [general, spoil]

/-- Returns from a native function. -/
def leave (m : Machine) : Machine :=
  { m.spoil with pc := m.lr }

variable {σ : Type}

/-- One step with hooks: a native function as a whole, or one instruction. -/
def hookedStep (hooks : Hooks σ) (state : σ) (m : Machine) : Except Fault (σ × Machine) :=
  match hooks m.pc with
  | some hook => do
    let (state, m) ← hook state m
    return (state, m.leave)
  | none => do
    let m ← m.step
    return (state, m)

/-- Runs to the exit address, in fewer steps than the given number. -/
def run (hooks : Hooks σ) : (fuel : Nat) → σ → Machine → Except Fault (σ × Machine)
  | 0, _, _ => .error .stepLimit
  | fuel + 1, state, m =>
    if m.pc = exitAddress then
      .ok (state, m)
    else
      match m.hookedStep hooks state with
      | .ok (state, m) => run hooks fuel state m
      | .error fault => .error fault

/-- Calls the code at an address. -/
def call (hooks : Hooks σ) (entry : Word) (state : σ) (m : Machine) :
    Except Fault (σ × Machine) :=
  { m with lr := exitAddress, pc := entry }.run hooks stepLimit state

end Machine

end CallBridge
