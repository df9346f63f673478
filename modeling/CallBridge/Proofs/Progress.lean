import CallBridge.Proofs.Framing
import CallBridge.Proofs.Trace

/-!
# Progress through a stub

A stub that is entered lies in memory as code, apart from native functions and from the stack that
it is going to use (`Stub.Entered`). From there on the machine goes through the statements of the
stub: straight-line pieces are performed, `blrl` hands control to a function that hands it back to
the next statement, and `blr` ends the stub.
-/

namespace CallBridge

open Machine

variable {σ : Type} {hooks : Hooks σ} {state : σ} {m m' : Machine}

/-! ## Entry -/

def Stub.span (stub : Stub) (m : Machine) : Set Nat :=
  codeSpan m.pc.toNat stub.insns

/-- A stub is entered. Its code lies in memory at the program counter and no native function stands
in it. The stack that it uses lies in memory as well, and apart from the code. -/
structure Stub.Entered (stub : Stub) (hooks : Hooks σ) (m : Machine) : Prop where
  code : m.memory.load m.pc.toNat stub.code.length = stub.code
  codeIn : stub.span m ⊆ addresses
  native : ∀ x : Word, x.toNat ∈ stub.span m → hooks x = none
  stackIn : m.stackSpan stub.frameSize ⊆ addresses
  apart : Disjoint (stub.span m) (m.stackSpan stub.frameSize)

theorem Stub.Entered.room {stub : Stub} (h : stub.Entered hooks m) (hsize : 16 ≤ stub.frameSize) :
    m.Room stub.frameSize := by
  have hstart : 0 < memoryStart := by decide
  obtain ⟨hlo, hhi⟩ := bounds_of_subset (by omega) h.stackIn
  exact ⟨hsize, by omega, hhi⟩

/-- What the code of a stub needs to run: it may overlap the stack where it does not write. -/
structure Stub.Standing (stub : Stub) (hooks : Hooks σ) (m : Machine) : Prop where
  code : m.memory.load m.pc.toNat stub.code.length = stub.code
  codeIn : stub.span m ⊆ addresses
  native : ∀ x : Word, x.toNat ∈ stub.span m → hooks x = none
  room : m.Room stub.frameSize
  apart : Disjoint (stub.span m) (m.ownSpan stub.frameSize)

theorem Stub.Entered.standing {stub : Stub} (h : stub.Entered hooks m)
    (hsize : 16 ≤ stub.frameSize) : stub.Standing hooks m :=
  ⟨h.code, h.codeIn, h.native, h.room hsize, h.apart.mono_right (ownSpan_subset_stackSpan _ _)⟩

/-- A machine that is about to run a stub at the start of its memory. -/
def Stub.machine (stub : Stub) : Machine :=
  { Machine.fresh with
    lr := exitAddress
    pc := BitVec.ofNat 32 memoryStart
    memory := Memory.empty.store memoryStart stub.code }

theorem Stub.toNat_pc_machine (stub : Stub) : stub.machine.pc.toNat = memoryStart :=
  Nat.mod_eq_of_lt (by decide)

theorem Stub.span_subset {stub : Stub} (hpc : m.pc.toNat = memoryStart)
    (hlength : 4 * stub.insns.length ≤ 0x80000) : stub.span m ⊆ Set.Ico memoryStart dataStart := by
  have hdata : dataStart = memoryStart + 0x80000 := by decide
  rintro x ⟨hlo, hhi⟩
  exact ⟨by omega, by omega⟩

/-- A stub at the start of the memory is entered when the stack pointer is at the stack's top. -/
theorem Stub.entered_of_load {stub : Stub} (hpc : m.pc.toNat = memoryStart) (hsp : m.sp = stackTop)
    (hcode : m.memory.load memoryStart stub.code.length = stub.code)
    (hlength : 4 * stub.insns.length ≤ 0x80000) (hframe : stub.frameSize ≤ 0x70000)
    (hnative : ∀ x : Word, x.toNat < dataStart → hooks x = none) : stub.Entered hooks m := by
  obtain ⟨hdata, htop, hend⟩ : dataStart = memoryStart + 0x80000 ∧
      stackTop = dataStart + 0x7f000 ∧ memoryEnd = stackTop + 0x1000 := by decide
  have hspan := stub.span_subset hpc hlength
  have hstack : m.stackSpan stub.frameSize ⊆ Set.Ico dataStart memoryEnd := by
    rintro x ⟨hlo, hhi⟩
    exact ⟨by omega, by omega⟩
  refine ⟨by rwa [hpc], fun x hx => ?_, fun x hx => hnative x (hspan hx).2, fun x hx => ?_,
    (disjoint_ranges (.inl (Nat.le_refl _))).mono hspan hstack⟩
  · exact ⟨(hspan hx).1, by have := (hspan hx).2; omega⟩
  · exact ⟨by have := (hstack hx).1; omega, (hstack hx).2⟩

theorem Stub.entered_machine {stub : Stub} (hlength : 4 * stub.insns.length ≤ 0x80000)
    (hframe : stub.frameSize ≤ 0x70000)
    (hnative : ∀ x : Word, x.toNat < dataStart → hooks x = none)
    (hpc : m.pc = stub.machine.pc) (hsp : m.r stackPointer = stub.machine.r stackPointer)
    (hmem : m.memory = stub.machine.memory) : stub.Entered hooks m := by
  refine entered_of_load ?_ ?_ ?_ hlength hframe hnative
  · rw [hpc, toNat_pc_machine]
  · rw [Machine.sp, hsp]
    show (Machine.fresh.r stackPointer).toNat = stackTop
    decide
  · rw [hmem]
    exact Memory.load_store _ _ _

/-- What a native function grants the code that calls it: it comes back, r1 and r31 are as they
were, and the kept bytes do not change. -/
structure Machine.Preserves (kept : Set Nat) (m m' : Machine) : Prop where
  lr : m'.lr = m.lr
  stackPointer : m'.r stackPointer = m.r stackPointer
  framePointer : m'.r framePointer = m.r framePointer
  memory : Set.EqOn m'.memory.byte m.memory.byte kept

namespace Machine

variable {kept own : Set Nat}

theorem sp_leave (h : m.Preserves kept m') : m'.leave.sp = m.sp := by
  rw [sp, r_leave m' (by decide), h.stackPointer, sp]

theorem framePointer_leave (h : m.Preserves kept m')
    (hfp : m.r framePointer = m.r stackPointer) :
    m'.leave.r framePointer = m'.leave.r stackPointer := by
  rw [r_leave m' (by decide), r_leave m' (by decide), h.stackPointer, h.framePointer, hfp]

/-! ## Through the statements -/

/-- The machine has come to where the statements `todo` are left of the code at `base`. -/
structure Reached (hooks : Hooks σ) (base : Nat) (code todo : List Statement) (m : Machine) :
    Prop where
  valid : ∀ s ∈ code, s.Valid
  loaded : Loaded hooks m base (code.flatMap Statement.unchecked)
  here : ∃ done, code = done ++ todo ∧
    m.pc.toNat = base + 4 * (done.flatMap Statement.unchecked).length

/-- A stub that stands in memory has all of its statements to do. -/
theorem reached_of_standing {code : List Statement} {frameSize : Nat} {stub : Stub}
    (hstub : Stub.ofStatements code frameSize = .ok stub) (hne : stub.insns ≠ [])
    (h : stub.Standing hooks m) : Reached hooks m.pc.toNat code code m := by
  obtain ⟨hvalid, rfl⟩ := ofStatements_eq_ok_iff.mp hstub
  have hlen := List.length_pos_iff.mpr hne
  obtain ⟨hstart, hstop⟩ := bounds_of_subset (by omega) h.codeIn
  exact ⟨hvalid, ⟨Memory.codeAt_of_load h.code, hstart, hstop, h.native⟩, [], rfl, rfl⟩

variable {base : Nat} {code seg todo : List Statement}

theorem Reached.loaded_todo (h : Reached hooks base code todo m) :
    Loaded hooks m m.pc.toNat (todo.flatMap Statement.unchecked) ∧
      codeSpan m.pc.toNat (todo.flatMap Statement.unchecked) ⊆
        codeSpan base (code.flatMap Statement.unchecked) := by
  obtain ⟨hvalid, hloaded, done, rfl, hpc⟩ := h
  rw [List.flatMap_append] at hloaded ⊢
  rw [hpc]
  constructor
  · exact Loaded.part _ [] (by rwa [List.append_nil])
  · refine Set.Ico_subset_Ico (by omega) ?_
    rw [List.length_append]
    omega

theorem Reached.congr (h : Reached hooks base code todo m) (hpc : m'.pc = m.pc)
    (heq : Set.EqOn m'.memory.byte m.memory.byte
      (codeSpan base (code.flatMap Statement.unchecked))) :
    Reached hooks base code todo m' :=
  ⟨h.valid, h.loaded.congr heq, by rw [hpc]; exact h.here⟩

/-- The statements that are next are performed, and what they may write is all that they change. -/
theorem Reached.confined (h : Reached hooks base code (seg ++ todo) m) (state : σ)
    (hseg : Performs kept seg m m')
    (hkept : codeSpan base (code.flatMap Statement.unchecked) ⊆ kept) (hown : ownᶜ ⊆ kept) :
    Confined hooks own (seg.flatMap Statement.unchecked).length [] state m state m' ∧
      Reached hooks base code todo m' := by
  obtain ⟨hvalid, hloaded, done, rfl, hpc⟩ := h
  have hsegvalid : ∀ s ∈ seg, s.Valid := fun s hs =>
    hvalid s (List.mem_append_right _ (List.mem_append_left _ hs))
  have hsplit : (done ++ (seg ++ todo)).flatMap Statement.unchecked =
      done.flatMap Statement.unchecked ++ seg.flatMap Statement.unchecked ++
        todo.flatMap Statement.unchecked := by
    simp only [List.flatMap_append, List.append_assoc]
  rw [hsplit] at hloaded hkept
  obtain ⟨hconfined, hpc', hloaded'⟩ := hloaded.executes state hpc (hseg hsegvalid) hkept hown
  rw [← hsplit] at hloaded'
  refine ⟨hconfined, hvalid, hloaded', done ++ seg, (List.append_assoc ..).symm, ?_⟩
  rw [hpc', List.flatMap_append]

theorem Reached.performs (h : Reached hooks base code (seg ++ todo) m) (state : σ)
    (hseg : Performs (codeSpan base (code.flatMap Statement.unchecked)) seg m m') :
    Trace hooks (seg.flatMap Statement.unchecked).length [] state m state m' ∧
      Reached hooks base code todo m' :=
  (h.confined state hseg (Set.Subset.refl _) (compl_compl _).subset).imp_left Confined.trace

/-- `blrl` jumps to the link register and leaves the address of the next statement in it. -/
theorem Reached.confined_call (own : Set Nat) (h : Reached hooks base code (.blrl :: todo) m) :
    Confined hooks own 1 [] state m state ((m.setLink (m.pc + 4)).goto m.lr) :=
  confined_insn h.loaded_todo.1 rfl (Set.eqOn_refl _ _)

theorem Reached.call (h : Reached hooks base code (.blrl :: todo) m) :
    Trace hooks 1 [] state m state ((m.setLink (m.pc + 4)).goto m.lr) :=
  (h.confined_call ∅).trace

/-- When control comes back from a call and the code is still there, the next statement is due. -/
theorem Reached.resume (h : Reached hooks base code (.blrl :: todo) m) (hpc : m'.pc = m.pc + 4)
    (heq : Set.EqOn m'.memory.byte m.memory.byte
      (codeSpan base (code.flatMap Statement.unchecked))) :
    Reached hooks base code todo m' := by
  have hnext : (m.pc + 4).toNat = m.pc.toNat + 4 := by
    refine toNat_pc_add (n := 4) h.loaded_todo.1 ?_
    rw [List.flatMap_cons, List.length_append, Statement.unchecked, List.length_singleton]
    omega
  obtain ⟨hvalid, hloaded, done, hcode, hhere⟩ := h
  refine ⟨hvalid, hloaded.congr heq, done ++ [.blrl], by simpa using hcode, ?_⟩
  rw [hpc, hnext, hhere, List.flatMap_append, List.length_append, List.flatMap_singleton,
    Statement.unchecked, List.length_singleton]
  omega

/-- A call of a native function that comes back. -/
theorem Reached.confined_native {hook : Hook σ} {state' : σ} {m' : Machine} (own : Set Nat)
    (h : Reached hooks base code (.blrl :: todo) m) (hhook : hooks m.lr = some hook)
    (hexit : m.lr ≠ exitAddress)
    (hcall : hook state ((m.setLink (m.pc + 4)).goto m.lr) = .ok (state', m'))
    (hlr : m'.lr = m.pc + 4)
    (heq : Set.EqOn m'.memory.byte m.memory.byte
      (codeSpan base (code.flatMap Statement.unchecked))) :
    Confined hooks own 2 [⟨(m.setLink (m.pc + 4)).goto m.lr, m'⟩] state m state' m'.leave ∧
      Reached hooks base code todo m'.leave := by
  refine ⟨(h.confined_call own).trans (.native ?_ ?_ hcall (.refl _ _)), h.resume ?_ ?_⟩
  · rwa [pc_goto]
  · rwa [pc_goto]
  · rw [pc_leave, hlr]
  · rwa [memory_leave]

/-- `blr` jumps to the link register. -/
theorem Reached.confined_leave (own : Set Nat) (h : Reached hooks base code (.blr :: todo) m) :
    Confined hooks own 1 [] state m state (m.goto m.lr) :=
  confined_insn h.loaded_todo.1 rfl (Set.eqOn_refl _ _)

theorem Reached.leave (h : Reached hooks base code (.blr :: todo) m) :
    Trace hooks 1 [] state m state (m.goto m.lr) :=
  (h.confined_leave ∅).trace

end Machine

end CallBridge
