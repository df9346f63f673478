import CallBridge.Machine.Run

/-!
# Registers by number

Stubs name registers by number, so theorems about them do as well: `m.r n` and `m.f n` are the
general and the float register with the number `n`. The machine changes in five ways, by a register
of either kind, the link register, the program counter or memory; the rules below say what each view
of a machine sees of each change.
-/

namespace CallBridge

theorem Reg.ofNat_eq_iff {n k : Nat} : Reg.ofNat n = Reg.ofNat k ↔ n % 32 = k % 32 := by
  rw [Fin.ext_iff, Reg.val_ofNat, Reg.val_ofNat]

namespace Machine

/-! ## Views -/

def r (m : Machine) (n : Nat) : Word :=
  m.general (Reg.ofNat n)

def f (m : Machine) (n : Nat) : DoubleWord :=
  m.float (Reg.ofNat n)

/-! ## Changes -/

def setR (m : Machine) (n : Nat) (value : Word) : Machine :=
  m.setGeneral (Reg.ofNat n) value

def setF (m : Machine) (n : Nat) (bits : DoubleWord) : Machine :=
  m.setFloat (Reg.ofNat n) bits

def setLink (m : Machine) (lr : Word) : Machine :=
  { m with lr }

def goto (m : Machine) (pc : Word) : Machine :=
  { m with pc }

def put (m : Machine) (a : Nat) (bytes : List Byte) : Machine :=
  { m with memory := m.memory.store a bytes }

/-! ## What a view sees of a change -/

-- By `simp only` and not by `rfl`, which would unfold the registers of a machine that is itself the
-- result of many changes.
section

variable (m : Machine) (n k a : Nat) (v : Word) (d : DoubleWord) (bytes : List Byte)

@[simp] theorem r_setR : (m.setR n v).r k = if n % 32 = k % 32 then v else m.r k := by
  simp only [r, setR, general_setGeneral, Reg.ofNat_eq_iff]

@[simp] theorem f_setF : (m.setF n d).f k = if n % 32 = k % 32 then d else m.f k := by
  simp only [f, setF, float_setFloat, Reg.ofNat_eq_iff]

@[simp] theorem r_setF : (m.setF n d).r k = m.r k := by
  simp only [r, general, setF, setFloat]
@[simp] theorem r_setLink : (m.setLink v).r k = m.r k := by
  simp only [r, general, setLink]
@[simp] theorem r_goto : (m.goto v).r k = m.r k := by
  simp only [r, general, goto]
@[simp] theorem r_put : (m.put a bytes).r k = m.r k := by
  simp only [r, general, put]

@[simp] theorem f_setR : (m.setR n v).f k = m.f k := by
  simp only [f, float, setR, setGeneral]
@[simp] theorem f_setLink : (m.setLink v).f k = m.f k := by
  simp only [f, float, setLink]
@[simp] theorem f_goto : (m.goto v).f k = m.f k := by
  simp only [f, float, goto]
@[simp] theorem f_put : (m.put a bytes).f k = m.f k := by
  simp only [f, float, put]

@[simp] theorem lr_setR : (m.setR n v).lr = m.lr := by
  simp only [setR, setGeneral]
@[simp] theorem lr_setF : (m.setF n d).lr = m.lr := by
  simp only [setF, setFloat]
@[simp] theorem lr_setLink : (m.setLink v).lr = v := by
  simp only [setLink]
@[simp] theorem lr_goto : (m.goto v).lr = m.lr := by
  simp only [goto]
@[simp] theorem lr_put : (m.put a bytes).lr = m.lr := by
  simp only [put]

@[simp] theorem pc_setR : (m.setR n v).pc = m.pc := by
  simp only [setR, setGeneral]
@[simp] theorem pc_setF : (m.setF n d).pc = m.pc := by
  simp only [setF, setFloat]
@[simp] theorem pc_setLink : (m.setLink v).pc = m.pc := by
  simp only [setLink]
@[simp] theorem pc_goto : (m.goto v).pc = v := by
  simp only [goto]
@[simp] theorem pc_put : (m.put a bytes).pc = m.pc := by
  simp only [put]

@[simp] theorem memory_setR : (m.setR n v).memory = m.memory := by
  simp only [setR, setGeneral]
@[simp] theorem memory_setF : (m.setF n d).memory = m.memory := by
  simp only [setF, setFloat]
@[simp] theorem memory_setLink : (m.setLink v).memory = m.memory := by
  simp only [setLink]
@[simp] theorem memory_goto : (m.goto v).memory = m.memory := by
  simp only [goto]
@[simp] theorem memory_put : (m.put a bytes).memory = m.memory.store a bytes := by
  simp only [put]

end

/-! ## Native functions -/

@[simp] theorem memory_leave (m : Machine) : m.leave.memory = m.memory := by
  simp only [leave, spoil]

@[simp] theorem lr_leave (m : Machine) : m.leave.lr = m.lr := by
  simp only [leave, spoil]

@[simp] theorem pc_leave (m : Machine) : m.leave.pc = m.lr := by
  simp only [leave]

theorem general_leave (m : Machine) (x : Reg) : m.leave.general x = m.spoil.general x := by
  simp only [leave, general]

/-- Returning from a native function spoils no register that calls preserve. -/
theorem r_leave (m : Machine) {n : Nat} (h : spoilsGeneral (Reg.ofNat n) = false) :
    m.leave.r n = m.r n := by
  rw [r, r, general_leave, general_spoil, h]
  rfl

/-! ## The same registers -/

/-- No register changes but general ones with these numbers and the program counter. -/
structure SameRegisters (changed : List Nat) (m m' : Machine) : Prop where
  lr : m'.lr = m.lr
  float : ∀ n, m'.f n = m.f n
  general : ∀ n, n % 32 ∉ changed → m'.r n = m.r n

variable {changed changed' : List Nat} {m m₁ m' : Machine}

theorem SameRegisters.refl (m : Machine) : SameRegisters changed m m :=
  ⟨rfl, fun _ => rfl, fun _ _ => rfl⟩

theorem SameRegisters.trans (h : SameRegisters changed m m₁)
    (h' : SameRegisters changed m₁ m') : SameRegisters changed m m' :=
  ⟨h'.lr.trans h.lr, fun n => (h'.float n).trans (h.float n),
    fun n hn => (h'.general n hn).trans (h.general n hn)⟩

theorem SameRegisters.mono (h : SameRegisters changed m m') (hsub : changed ⊆ changed') :
    SameRegisters changed' m m' :=
  ⟨h.lr, h.float, fun n hn => h.general n fun hmem => hn (hsub hmem)⟩

theorem SameRegisters.setR (m : Machine) (pc : Word) (n : Nat) (v : Word) :
    SameRegisters [n % 32] m ((m.goto pc).setR n v) := by
  refine ⟨by simp, by simp, fun k hk => ?_⟩
  rw [r_setR, if_neg (List.ne_of_not_mem_cons hk).symm, r_goto]

/-- When none of them may change, all are the same. -/
theorem SameRegisters.r_eq (h : SameRegisters [] m m') (n : Nat) : m'.r n = m.r n :=
  h.general n List.not_mem_nil

end Machine

end CallBridge
