import CallBridge.Proofs.Straight

/-!
# Traces

What a machine does between two moments of a run: the number of turns, and the calls of native
functions in order. A trace is a piece of a run (`Trace.run_eq`), so it cannot fault or come to the
exit on its way. Code that lies in memory, where it is not overwritten and no native function
stands, does in a trace what it does as straight-line code (`Loaded.executes`).

A trace is `Confined` to some bytes when its instructions change no other ones. What the native
functions change on the way is not asked for.
-/

namespace CallBridge

/-- A call of a native function: the machine in which it is entered, and the machine that it leaves
behind, before control goes back to the link register. -/
structure NativeCall where
  entered : Machine
  returned : Machine

namespace Machine

variable {σ : Type}

/-- A number of turns, among them the given calls of native functions. -/
inductive Trace (hooks : Hooks σ) : Nat → List NativeCall → σ → Machine → σ → Machine → Prop
  | refl (state : σ) (m : Machine) : Trace hooks 0 [] state m state m
  | insn {n : Nat} {calls : List NativeCall} {state state' : σ} {m m₁ m' : Machine}
      (hexit : m.pc ≠ exitAddress) (hnone : hooks m.pc = none) (hstep : m.step = .ok m₁)
      (hrest : Trace hooks n calls state m₁ state' m') :
      Trace hooks (n + 1) calls state m state' m'
  | native {n : Nat} {calls : List NativeCall} {hook : Hook σ} {state state₁ state' : σ}
      {m m₁ m' : Machine} (hexit : m.pc ≠ exitAddress) (hsome : hooks m.pc = some hook)
      (hcall : hook state m = .ok (state₁, m₁))
      (hrest : Trace hooks n calls state₁ m₁.leave state' m') :
      Trace hooks (n + 1) (⟨m, m₁⟩ :: calls) state m state' m'

/-- A trace whose instructions change no byte outside `own`. -/
inductive Confined (hooks : Hooks σ) (own : Set Nat) :
    Nat → List NativeCall → σ → Machine → σ → Machine → Prop
  | refl (state : σ) (m : Machine) : Confined hooks own 0 [] state m state m
  | insn {n : Nat} {calls : List NativeCall} {state state' : σ} {m m₁ m' : Machine}
      (hexit : m.pc ≠ exitAddress) (hnone : hooks m.pc = none) (hstep : m.step = .ok m₁)
      (hown : Set.EqOn m₁.memory.byte m.memory.byte ownᶜ)
      (hrest : Confined hooks own n calls state m₁ state' m') :
      Confined hooks own (n + 1) calls state m state' m'
  | native {n : Nat} {calls : List NativeCall} {hook : Hook σ} {state state₁ state' : σ}
      {m m₁ m' : Machine} (hexit : m.pc ≠ exitAddress) (hsome : hooks m.pc = some hook)
      (hcall : hook state m = .ok (state₁, m₁))
      (hrest : Confined hooks own n calls state₁ m₁.leave state' m') :
      Confined hooks own (n + 1) (⟨m, m₁⟩ :: calls) state m state' m'

variable {hooks : Hooks σ} {own : Set Nat} {state state₁ state' : σ} {m m₁ m' : Machine}

theorem Confined.trace {n : Nat} {calls : List NativeCall}
    (h : Confined hooks own n calls state m state' m') : Trace hooks n calls state m state' m' := by
  induction h with
  | refl state m => exact .refl state m
  | insn hexit hnone hstep _ _ ih => exact .insn hexit hnone hstep ih
  | native hexit hsome hcall _ ih => exact .native hexit hsome hcall ih

theorem Confined.trans {n n' : Nat} {calls calls' : List NativeCall}
    (h : Confined hooks own n calls state m state₁ m₁)
    (h' : Confined hooks own n' calls' state₁ m₁ state' m') :
    Confined hooks own (n + n') (calls ++ calls') state m state' m' := by
  induction h with
  | refl state m => simpa using h'
  | insn hexit hnone hstep hown _ ih =>
      rw [Nat.add_right_comm]
      exact .insn hexit hnone hstep hown (ih h')
  | native hexit hsome hcall _ ih =>
      rw [Nat.add_right_comm]
      exact .native hexit hsome hcall (ih h')

/-- Bytes that neither the instructions nor the native functions change are at the end what they
were at the start. -/
theorem Confined.eqOn {n : Nat} {calls : List NativeCall} {A : Set Nat}
    (h : Confined hooks own n calls state m state' m') (hA : Disjoint A own)
    (hcalls : ∀ call ∈ calls,
      Set.EqOn call.returned.memory.byte call.entered.memory.byte A) :
    Set.EqOn m'.memory.byte m.memory.byte A := by
  induction h with
  | refl state m => exact Set.eqOn_refl _ _
  | insn _ _ _ hown _ ih => exact (ih hcalls).trans (hown.mono hA.subset_compl_right)
  | native _ _ _ _ ih =>
      obtain ⟨hfirst, hrest⟩ := List.forall_mem_cons.mp hcalls
      have hafter := ih hrest
      rw [memory_leave] at hafter
      exact hafter.trans hfirst

theorem Trace.trans {n n' : Nat} {calls calls' : List NativeCall}
    (h : Trace hooks n calls state m state₁ m₁)
    (h' : Trace hooks n' calls' state₁ m₁ state' m') :
    Trace hooks (n + n') (calls ++ calls') state m state' m' := by
  induction h with
  | refl state m => simpa using h'
  | insn hexit hnone hstep _ ih =>
      rw [Nat.add_right_comm]
      exact .insn hexit hnone hstep (ih h')
  | native hexit hsome hcall _ ih =>
      rw [Nat.add_right_comm]
      exact .native hexit hsome hcall (ih h')

theorem hookedStep_of_insn (hnone : hooks m.pc = none) (hstep : m.step = .ok m₁) :
    m.hookedStep hooks state = .ok (state, m₁) := by
  rw [hookedStep, hnone, hstep]
  rfl

theorem hookedStep_of_native {hook : Hook σ} (hsome : hooks m.pc = some hook)
    (hcall : hook state m = .ok (state₁, m₁)) :
    m.hookedStep hooks state = .ok (state₁, m₁.leave) := by
  simp only [hookedStep, hsome, hcall]
  rfl

/-- A run goes through its traces: what is left to do after one is to run on from its end. -/
theorem Trace.run_eq {n : Nat} {calls : List NativeCall}
    (h : Trace hooks n calls state m state' m') (fuel : Nat) :
    m.run hooks (n + fuel) state = m'.run hooks fuel state' := by
  induction h with
  | refl state m => rw [Nat.zero_add]
  | insn hexit hnone hstep _ ih =>
      rw [Nat.add_right_comm, run, if_neg hexit, hookedStep_of_insn hnone hstep]
      exact ih
  | native hexit hsome hcall _ ih =>
      rw [Nat.add_right_comm, run, if_neg hexit, hookedStep_of_native hsome hcall]
      exact ih

theorem Trace.run_of_exit {n fuel : Nat} {calls : List NativeCall}
    (h : Trace hooks n calls state m state' m') (hexit : m'.pc = exitAddress) (hfuel : n < fuel) :
    m.run hooks fuel state = .ok (state', m') := by
  have hsplit : fuel = n + (fuel - n - 1 + 1) := by omega
  rw [hsplit, h.run_eq, run, if_pos hexit]

end Machine

/-! ## Code in memory -/

namespace Memory

/-- Instructions lie in memory one after another from an address on. -/
def CodeAt (m : Memory) : Nat → List Insn → Prop
  | _, [] => True
  | a, i :: rest => m.word a = i.encode ∧ m.CodeAt (a + 4) rest

variable {m m' : Memory} {a : Nat}

theorem codeAt_append {l l' : List Insn} :
    m.CodeAt a (l ++ l') ↔ m.CodeAt a l ∧ m.CodeAt (a + 4 * l.length) l' := by
  induction l generalizing a with
  | nil => simp [CodeAt]
  | cons i rest ih =>
      have hnext : a + 4 * (i :: rest).length = a + 4 + 4 * rest.length := by
        rw [List.length_cons]
        omega
      rw [List.cons_append, CodeAt, CodeAt, ih, hnext, and_assoc]

theorem CodeAt.congr {l : List Insn} (h : m.CodeAt a l)
    (heq : Set.EqOn m'.byte m.byte (Set.Ico a (a + 4 * l.length))) : m'.CodeAt a l := by
  induction l generalizing a with
  | nil => trivial
  | cons i rest ih =>
      obtain ⟨hword, hrest⟩ := h
      rw [List.length_cons] at heq
      refine ⟨?_, ih hrest (heq.mono (Set.Ico_subset_Ico (by omega) (by omega)))⟩
      rw [← hword]
      exact word_eq_of_eqOn (heq.mono (Set.Ico_subset_Ico_right (by omega)))

/-- The bytes of instructions are those instructions. -/
theorem codeAt_of_load {l : List Insn} (h : m.load a (codeOf l).length = codeOf l) :
    m.CodeAt a l := by
  induction l generalizing a with
  | nil => trivial
  | cons i rest ih =>
      have hlen : (codeOf (i :: rest)).length = 4 + (codeOf rest).length := by
        rw [length_codeOf, length_codeOf, List.length_cons]
        omega
      have hsplit : codeOf (i :: rest) = i.encode.bytes ++ codeOf rest := rfl
      rw [hlen, hsplit, load_add] at h
      obtain ⟨hword, hrest⟩ := List.append_inj h (by rw [length_load, Word.bytes, length_bytesOf])
      refine ⟨?_, ih hrest⟩
      have hfits : i.encode.toNat % byteRange 4 = i.encode.toNat := Nat.mod_eq_of_lt i.encode.isLt
      rw [word, hword, Word.bytes, valueOf_bytesOf, hfits, BitVec.ofNat_toNat, BitVec.setWidth_eq]

end Memory

namespace Machine

variable {σ : Type} {hooks : Hooks σ} {own : Set Nat} {state : σ} {m m' : Machine} {base : Nat}

def codeSpan (base : Nat) (insns : List Insn) : Set Nat :=
  Set.Ico base (base + 4 * insns.length)

/-- Instructions lie in memory, and no native function stands among them. -/
structure Loaded (hooks : Hooks σ) (m : Machine) (base : Nat) (insns : List Insn) : Prop where
  code : m.memory.CodeAt base insns
  start : memoryStart ≤ base
  stop : base + 4 * insns.length ≤ memoryEnd
  native : ∀ x : Word, x.toNat ∈ codeSpan base insns → hooks x = none

theorem Loaded.congr {insns : List Insn} (h : Loaded hooks m base insns)
    (heq : Set.EqOn m'.memory.byte m.memory.byte (codeSpan base insns)) :
    Loaded hooks m' base insns :=
  ⟨h.code.congr heq, h.start, h.stop, h.native⟩

theorem Loaded.ne_exit {insns : List Insn} (h : Loaded hooks m base insns) {x : Word}
    (hx : x.toNat ∈ codeSpan base insns) : x ≠ exitAddress := by
  rintro rfl
  have hstop := h.stop
  have hexit : memoryEnd ≤ exitAddress.toNat := by decide
  have hlt := hx.2
  omega

theorem Loaded.part (pre : List Insn) {seg : List Insn} (post : List Insn)
    (h : Loaded hooks m base (pre ++ seg ++ post)) :
    Loaded hooks m (base + 4 * pre.length) seg := by
  have hstart := h.start
  have hstop := h.stop
  have hnative := h.native
  simp only [codeSpan, List.length_append] at hstop hnative
  refine ⟨(Memory.codeAt_append.mp (Memory.codeAt_append.mp h.code).1).2, by omega, by omega, ?_⟩
  rintro x ⟨hlo, hhi⟩
  exact hnative x ⟨by omega, by omega⟩

theorem fetch_of_loaded {i : Insn} {rest : List Insn}
    (h : Loaded hooks m m.pc.toNat (i :: rest)) : m.fetch = .ok i := by
  have hstop := h.stop
  rw [List.length_cons] at hstop
  have hin : InMemory m.pc 4 := ⟨h.start, by omega⟩
  simp only [fetch, readWord_of_inMemory hin, h.code.1, bind, Except.bind, Insn.decode?_encode]

theorem confined_insn {i : Insn} {rest : List Insn} (h : Loaded hooks m m.pc.toNat (i :: rest))
    (hexec : (m.goto (m.pc + 4)).execute i = .ok m')
    (hown : Set.EqOn m'.memory.byte m.memory.byte ownᶜ) :
    Confined hooks own 1 [] state m state m' := by
  have hpc : m.pc.toNat ∈ codeSpan m.pc.toNat (i :: rest) :=
    ⟨Nat.le_refl _, by rw [List.length_cons]; omega⟩
  refine .insn (h.ne_exit hpc) (h.native _ hpc) ?_ hown (.refl _ _)
  rw [step, fetch_of_loaded h]
  exact hexec

theorem toNat_pc_add {insns : List Insn} {n : Nat} (h : Loaded hooks m m.pc.toNat insns)
    (hn : n ≤ 4 * insns.length) : (m.pc + BitVec.ofNat 32 n).toNat = m.pc.toNat + n := by
  have hstop := h.stop
  have hend := memoryEnd_lt
  rw [BitVec.toNat_add, BitVec.toNat_ofNat]
  omega

/-- Straight-line code that is loaded at the program counter runs, and what it may write is all
that it changes. -/
theorem Executes.confined {kept : Set Nat} {insns : List Insn} (h : Executes kept insns m m')
    (hl : Loaded hooks m m.pc.toNat insns) (hkept : codeSpan m.pc.toNat insns ⊆ kept)
    (hown : ownᶜ ⊆ kept) : Confined hooks own insns.length [] state m state m' := by
  induction h with
  | nil m => exact .refl _ _
  | @cons i rest m m₁ m' hexec hpc heq _ ih =>
      have hnext : m₁.pc.toNat = m.pc.toNat + 4 := by
        rw [hpc]
        exact toNat_pc_add (n := 4) hl (by rw [List.length_cons]; omega)
      have hspan : codeSpan m₁.pc.toNat rest ⊆ codeSpan m.pc.toNat (i :: rest) := by
        rw [hnext]
        refine Set.Ico_subset_Ico (by omega) ?_
        rw [List.length_cons]
        omega
      have hone := Loaded.part [i] [] (by simpa using hl)
      rw [show m.pc.toNat + 4 * [i].length = m₁.pc.toNat from hnext.symm] at hone
      have hrest := ih (hone.congr (heq.mono (hspan.trans hkept))) (hspan.trans hkept)
      simpa [Nat.add_comm] using (confined_insn hl hexec (heq.mono hown)).trans hrest

/-- Straight-line code in the middle of loaded code runs, and the program counter comes to its end.
The whole code is still loaded then. -/
theorem Loaded.executes {kept : Set Nat} {pre seg post : List Insn}
    (hl : Loaded hooks m base (pre ++ seg ++ post)) (state : σ)
    (hpc : m.pc.toNat = base + 4 * pre.length) (h : Executes kept seg m m')
    (hkept : codeSpan base (pre ++ seg ++ post) ⊆ kept) (hown : ownᶜ ⊆ kept) :
    Confined hooks own seg.length [] state m state m' ∧
      m'.pc.toNat = base + 4 * (pre ++ seg).length ∧
      Loaded hooks m' base (pre ++ seg ++ post) := by
  have hpart := hl.part pre post
  rw [← hpc] at hpart
  have hspan : codeSpan m.pc.toNat seg ⊆ codeSpan base (pre ++ seg ++ post) := by
    rw [hpc]
    refine Set.Ico_subset_Ico (by omega) ?_
    simp only [List.length_append]
    omega
  refine ⟨h.confined hpart (hspan.trans hkept) hown, ?_, hl.congr (h.eqOn.mono hkept)⟩
  rw [h.pc_eq, toNat_pc_add hpart (Nat.le_refl _), hpc, List.length_append]
  omega

end Machine

end CallBridge
