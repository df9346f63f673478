import CallBridge.Proofs.Trampoline.Delivery

/-!
# How a trampoline returns

After the callee the trampoline takes the native result out of its registers, stores it at the start
of the return slot in its native width, and leaves the frame. All that it needs from the callee is
what every function grants: it comes back to the link register with r1 and r31 as they were, and it
leaves the code and the four words of the frame alone (`Returned`).
-/

namespace CallBridge

open Machine

/-! ## Results -/

def ReturnClass.width : ReturnClass → Nat
  | void => 0
  | byte => 1
  | half => 2
  | word | single | pointer => 4
  | wide | double => 8

/-- The native result in the result registers, in its native width. -/
def Machine.resultBytes (m : Machine) : ReturnClass → List Byte
  | .void => []
  | .byte => bytesOf 1 (m.r 3).toNat
  | .half => bytesOf 2 (m.r 3).toNat
  | .word | .pointer => bytesOf 4 (m.r 3).toNat
  | .wide => bytesOf 4 (m.r 3).toNat ++ bytesOf 4 (m.r 4).toNat
  | .single => bytesOf 4 (SinglePrecision.narrow (m.f 1)).toNat
  | .double => bytesOf 8 (m.f 1).toNat

@[simp]
theorem Machine.length_resultBytes (m : Machine) (ret : ReturnClass) :
    (m.resultBytes ret).length = ret.width := by
  cases ret <;> simp [resultBytes, ReturnClass.width]

namespace Trampoline

variable {σ : Type} {hooks : Hooks σ} {state state' : σ} {kept : Set Nat} {S : Nat}
  {m₀ m₁ m₂ m m' : Machine} {sig : Signature} {stringCtor : Bool} {layout : TrampolineLayout}
  {cursor : Cursor} {stub : Stub} {ret : ReturnClass}

/-- The bytes of the return slot that a result takes. -/
def slotSpan (m : Machine) (ret : ReturnClass) : Set Nat :=
  Set.Ico (m.r 4).toNat ((m.r 4).toNat + ret.width)

/-! ## The code -/

theorem performs_loadSlot (kept : Set Nat) (hroom : m₀.Room layout.frameSize)
    (hframed : Framed layout.frameSize m₀ m) :
    ∃ m', Performs kept [.transfer .lwz 9 (layout.frameSize + savedReturnSlot) framePointer] m m' ∧
      m'.r 9 = m₀.r 4 ∧ m'.memory = m.memory ∧ SameRegisters [9] m m' := by
  obtain ⟨hsize, hstart, hstop⟩ := hroom
  have hfp : (m.r 31).toNat = m₀.sp - layout.frameSize :=
    (congrArg BitVec.toNat hframed.framePointer).trans hframed.inFrame.sp
  have hpointer : m.Addresses (layout.frameSize + savedReturnSlot) framePointer (m₀.sp - 12) 4 :=
    ⟨by decide, by simp [framePointer, savedReturnSlot, hfp]; omega, by omega, by omega⟩
  refine ⟨_, performs_lwz 9 hpointer, ?_, by simp, .setR m _ 9 _⟩
  simp [hframed.returnSlot]

theorem performs_storeAt (kept : Set Nat) (op : Transfer) (reg disp : Nat) {width : Nat}
    (hop : op ≠ .lwz ∧ op ≠ .lfd ∧ op ≠ .stwu) (hwidth : (m.storedBytes reg op).length = width)
    (hpos : 0 < width)
    (hslot : Set.Ico ((m.r 9).toNat + disp) ((m.r 9).toNat + disp + width) ⊆ addresses)
    (hkept : Disjoint kept (Set.Ico ((m.r 9).toNat + disp) ((m.r 9).toNat + disp + width))) :
    ∃ m', Performs kept [.transfer op reg disp 9] m m' ∧
      m'.memory = m.memory.store ((m.r 9).toNat + disp) (m.storedBytes reg op) ∧
      SameRegisters [] m m' := by
  subst hwidth
  obtain ⟨hstart, hstop⟩ := bounds_of_subset (by omega) hslot
  exact ⟨_, performs_store hop ⟨by decide, by simp, hstart, hstop⟩ hkept, by simp, by simp,
    by simp, by simp⟩

/-- The stores of a result, by way of r9. -/
def resultStores : ReturnClass → List Statement
  | .void => []
  | .byte => [.transfer .stb 3 0 9]
  | .half => [.transfer .sth 3 0 9]
  | .word | .pointer => [.transfer .stw 3 0 9]
  | .wide => [.transfer .stw 3 0 9, .transfer .stw 4 4 9]
  | .single => [.transfer .stfs firstFloat 0 9]
  | .double => [.transfer .stfd firstFloat 0 9]

theorem storeResult_eq (h : layout.ret ≠ .void) :
    storeResult layout =
      .transfer .lwz 9 (layout.frameSize + savedReturnSlot) framePointer ::
        resultStores layout.ret := by
  unfold storeResult resultStores
  cases hret : layout.ret with
  | void => exact absurd hret h
  | _ => rfl

theorem performs_resultStores (ret : ReturnClass)
    (hslot : Set.Ico (m.r 9).toNat ((m.r 9).toNat + ret.width) ⊆ addresses)
    (hkept : Disjoint kept (Set.Ico (m.r 9).toNat ((m.r 9).toNat + ret.width))) :
    ∃ m', Performs kept (resultStores ret) m m' ∧
      m'.memory = m.memory.store (m.r 9).toNat (m.resultBytes ret) ∧ SameRegisters [] m m' := by
  cases ret with
  | void => exact ⟨m, .nil m, rfl, .refl m⟩
  | wide =>
      have hfirst : Set.Ico ((m.r 9).toNat + 0) ((m.r 9).toNat + 0 + 4) ⊆
          Set.Ico (m.r 9).toNat ((m.r 9).toNat + ReturnClass.wide.width) :=
        Set.Ico_subset_Ico (by omega) (by simp only [ReturnClass.width]; omega)
      obtain ⟨m₁, hstore, hmem, hsame⟩ := performs_storeAt kept .stw 3 0
        (by decide) (length_bytesOf ..) (by decide) (hfirst.trans hslot)
        (hkept.mono_right hfirst)
      have hsecond : Set.Ico ((m₁.r 9).toNat + 4) ((m₁.r 9).toNat + 4 + 4) ⊆
          Set.Ico (m.r 9).toNat ((m.r 9).toNat + ReturnClass.wide.width) := by
        rw [hsame.r_eq]
        exact Set.Ico_subset_Ico (by omega) (by simp only [ReturnClass.width]; omega)
      obtain ⟨m₂, hstore', hmem', hsame'⟩ := performs_storeAt kept .stw 4 4
        (by decide) (length_bytesOf ..) (by decide) (hsecond.trans hslot)
        (hkept.mono_right hsecond)
      refine ⟨m₂, hstore.cons hstore', ?_, hsame.trans hsame'⟩
      rw [hmem', hmem, resultBytes, Memory.store_append, hsame.r_eq 9, storedBytes, storedBytes,
        hsame.r_eq 4, length_bytesOf]
      rfl
  | _ => exact performs_storeAt kept _ _ 0 (by decide) (length_bytesOf ..) (by decide) hslot hkept

/-- The result is stored at the start of the return slot, and no register but r9 changes. -/
theorem performs_storeResult (hroom : m₀.Room layout.frameSize)
    (hframed : Framed layout.frameSize m₀ m) (hslot : slotSpan m₀ layout.ret ⊆ addresses)
    (hkept : Disjoint kept (slotSpan m₀ layout.ret)) :
    ∃ m', Performs kept (storeResult layout) m m' ∧
      m'.memory = m.memory.store (m₀.r 4).toNat (m.resultBytes layout.ret) ∧
      SameRegisters [9] m m' := by
  by_cases hret : layout.ret = .void
  · refine ⟨m, ?_, ?_, .refl m⟩
    · rw [storeResult, hret]
      exact .nil m
    · rw [hret]
      rfl
  obtain ⟨m₁, hload, hbase, hmem, hsame⟩ := performs_loadSlot kept hroom hframed
  rw [slotSpan, ← hbase] at hslot hkept
  obtain ⟨m₂, hstores, hmem', hsame'⟩ := performs_resultStores layout.ret hslot hkept
  have hbytes : m₁.resultBytes layout.ret = m.resultBytes layout.ret := by
    cases layout.ret <;> simp only [resultBytes, hsame.float, hsame.general 3 (by decide),
      hsame.general 4 (by decide)]
  refine ⟨m₂, ?_, ?_, hsame.trans (hsame'.mono (List.nil_subset _))⟩
  · rw [storeResult_eq hret]
    exact hload.cons hstores
  · rw [hmem', hbase, hmem, hbytes]

/-! ## The return -/

/-- What a callee grants, with `m₁` the machine that entered it and `m₂` the one that it leaves
behind. -/
structure Returned (stub : Stub) (m₀ m₁ m₂ : Machine) : Prop where
  pc : m₂.pc = m₁.lr
  stackPointer : m₂.r stackPointer = m₁.r stackPointer
  framePointer : m₂.r framePointer = m₁.r framePointer
  code : Set.EqOn m₂.memory.byte m₁.memory.byte (stub.span m₀)
  frame : Set.EqOn m₂.memory.byte m₁.memory.byte (frameWords m₀ stub.frameSize)

/-- What a trampoline leaves behind: control, r1 and r31 are with the caller again, the result is in
the return slot, and all else is as the callee left it. -/
structure Result (ret : ReturnClass) (m₀ m₂ m₃ : Machine) : Prop where
  pc : m₃.pc = m₀.lr
  stackPointer : m₃.r stackPointer = m₀.r stackPointer
  framePointer : m₃.r framePointer = m₀.r framePointer
  general : ∀ n, n = 2 ∨ 13 ≤ n ∧ n ≤ 30 → m₃.r n = m₂.r n
  float : ∀ n, m₃.f n = m₂.f n
  result : m₃.memory.load (m₀.r 4).toNat ret.width = m₂.resultBytes ret
  memory : Set.EqOn m₃.memory.byte m₂.memory.byte (slotSpan m₀ ret)ᶜ

/-- What is apart from all that a trampoline may write is apart from its frame words. -/
theorem disjoint_frameWords {A : Set Nat} (hroom : m.Room S) (h : Disjoint A (m.ownSpan S)) :
    Disjoint A (frameWords m S) := by
  obtain ⟨hsize, hstart, hstop⟩ := hroom
  refine h.mono_right ?_
  rintro x (((hx | hx) | hx) | hx)
  · exact .inl ⟨hx.1, by have := hx.2; omega⟩
  · exact .inl ⟨by have := hx.1; omega, by have := hx.2; omega⟩
  · exact .inl ⟨by have := hx.1; omega, hx.2⟩
  · exact .inr hx

theorem performs_returnCode (hroom : m₀.Room layout.frameSize)
    (hframed : Framed layout.frameSize m₀ m) (hslot : slotSpan m₀ layout.ret ⊆ addresses)
    (hkept : Disjoint kept (slotSpan m₀ layout.ret))
    (hown : Disjoint (slotSpan m₀ layout.ret) (m₀.ownSpan layout.frameSize)) :
    ∃ m', Performs kept (returnCode layout) m m' ∧
      Result layout.ret m₀ m (m'.goto m'.lr) := by
  obtain ⟨m₁, hstore, hmem, hsame⟩ := performs_storeResult hroom hframed hslot hkept
  have hfree {A : Set Nat} (hA : Disjoint (slotSpan m₀ layout.ret) A) :
      Set.EqOn m₁.memory.byte m.memory.byte A := by
    rw [hmem]
    refine Memory.eqOn_store ?_
    rw [length_resultBytes]
    exact hA.symm
  have hframed₁ : Framed layout.frameSize m₀ m₁ :=
    hframed.congr hroom (hsame.general _ (by decide)) (hsame.general _ (by decide))
      (hfree (disjoint_frameWords hroom hown))
  obtain ⟨m₂, hrestore, hmem', hlr', hsp, hfp, hf', hr'⟩ :=
    performs_restoreCaller kept hroom hframed₁.inFrame
  refine ⟨m₂, hstore.append hrestore, ?_, ?_, ?_, ?_, ?_, ?_, ?_⟩
  · exact hlr'
  · rw [r_goto, hsp]
  · rw [r_goto, hfp]
  · intro n hn
    rw [r_goto, hr' n (by simp; omega), hsame.general n (by simp; omega)]
  · intro n
    rw [f_goto, hf', hsame.float]
  · rw [memory_goto, hmem', hmem, ← length_resultBytes m layout.ret]
    exact Memory.load_store _ _ _
  · rw [memory_goto, hmem']
    exact hfree disjoint_compl_right

/-- A trampoline returns its result. Whatever the callee does until it comes back, from there on the
machine comes to the return address of the trampoline's caller without a fault, with the frame left
and the result stored. -/
theorem returns_result (hbuild : build sig stringCtor = .ok stub)
    (hret : ReturnClass.ofKind stringCtor sig.ret = .ok ret) (hentered : stub.Entered hooks m)
    (harray : arraySpan m sig.params.length ⊆ addresses)
    (hapart : Disjoint (arraySpan m sig.params.length) (m.stackSpan stub.frameSize))
    (hslot : slotSpan m ret ⊆ addresses) (hslotcode : Disjoint (stub.span m) (slotSpan m ret))
    (hslotown : Disjoint (slotSpan m ret) (m.ownSpan stub.frameSize)) (state : σ) :
    ∃ params cursor n n' m₁, sig.placement = .ok (params, cursor) ∧ n + n' + 1 < stepLimit ∧
      Trace hooks n [] state m state m₁ ∧ Delivery stub sig params m m₁ ∧
      ∀ k calls state' m₂, Trace hooks k calls state m₁ state' m₂ → Returned stub m m₁ m₂ →
        ∃ m₃, Trace hooks n' [] state' m₂ state' m₃ ∧ Result ret m m₂ m₃ ∧
          (m.lr = exitAddress → ∀ fuel, n + k + n' < fuel →
            m.run hooks fuel state = .ok (state', m₃)) := by
  obtain ⟨layout, cursor, hlaid, hstub⟩ := laid_of_build hbuild
  obtain ⟨n, m₁, htrace, hn, hdelivery, hreached⟩ :=
    reaches_callee hlaid hstub hentered harray hapart state
  obtain ⟨-, rfl⟩ := ofStatements_eq_ok_iff.mp hstub
  obtain rfl : layout.ret = ret := Except.ok.inj (hlaid.ret.symm.trans hret)
  have hroom : m.Room layout.frameSize := hentered.room (by have := hlaid.stack_le; simp; omega)
  refine ⟨layout.params, cursor, n, ((returnCode layout).flatMap Statement.unchecked).length + 1,
    m₁, hlaid.placement, ?_, htrace, hdelivery, ?_⟩
  · have hreach := hlaid.arrayReach
    have hcall := length_callCode_le layout
    have hreturn := length_returnCode_le layout
    have hinsns := length_unchecked_le (returnCode layout)
    simp only [taggedSize, stepLimit] at hreach ⊢
    omega
  intro k calls state' m₂ hcallee hreturned
  have hframed : Framed layout.frameSize m m₂ :=
    hdelivery.framed.congr hroom hreturned.stackPointer hreturned.framePointer hreturned.frame
  obtain ⟨m₃, hperforms, hresult⟩ := performs_returnCode hroom hframed hslot hslotcode hslotown
  obtain ⟨htrace', hleave⟩ :=
    (hreached.congr hreturned.pc hreturned.code).performs state' hperforms
  have hback := htrace'.trans hleave.leave
  refine ⟨_, hback, hresult, fun hexit fuel hfuel => ?_⟩
  have hwhole := (htrace.trans hcallee).trans hback
  exact hwhole.run_of_exit (hresult.pc.trans hexit) (by omega)

/-- A native function at the callee's address that answers with a word in r3. -/
def answering (word : Word) : Hooks Unit := fun address =>
  if address = 0x20000000 then some fun _ m => .ok ((), m.setR 3 word) else none

theorem answering_low (word : Word) (x : Word) (hx : x.toNat < dataStart) :
    answering word x = none := by
  refine if_neg ?_
  rintro rfl
  exact absurd hx (by decide)

/-- An answer is all that such a callee changes. -/
theorem returned_answer (stub : Stub) (m₀ m₁ : Machine) (word : Word) :
    Returned stub m₀ m₁ (m₁.setR 3 word).leave := by
  refine ⟨?_, ?_, ?_, ?_, ?_⟩
  · simp
  · rw [r_leave _ (by decide)]
    simp [stackPointer]
  · rw [r_leave _ (by decide)]
    simp [framePointer]
  · simp [Set.eqOn_refl]
  · simp [Set.eqOn_refl]

/-- The return slot of such a call lies between code and stack. -/
theorem slotSpan_callMachine (hbuild : build sig stringCtor = .ok stub) :
    slotSpan (callMachine stub) .wide ⊆ addresses ∧
      Disjoint (stub.span (callMachine stub)) (slotSpan (callMachine stub) .wide) ∧
      Disjoint (slotSpan (callMachine stub) .wide)
        ((callMachine stub).ownSpan stub.frameSize) := by
  obtain ⟨hdata, htop, hend⟩ : dataStart = memoryStart + 0x80000 ∧
      stackTop = dataStart + 0x7f000 ∧ memoryEnd = stackTop + 0x1000 := by decide
  have hframe := frameSize_of_build hbuild
  have hslot : slotSpan (callMachine stub) .wide =
      Set.Ico (dataStart + 0x100) (dataStart + 0x108) := by
    simp only [slotSpan, callMachine, r_setR]
    rfl
  have hcode := Stub.span_subset (m := callMachine stub)
    (by simp [callMachine, Stub.toNat_pc_machine])
    ((length_insns_of_build hbuild).trans (by decide))
  rw [hslot]
  refine ⟨Set.Ico_subset_Ico (by omega) (by omega),
    (disjoint_ranges (.inl (by omega))).mono_left hcode,
    Disjoint.mono_right (ownSpan_subset_stackSpan _ _) ?_⟩
  rw [stackSpan, sp_callMachine]
  exact disjoint_ranges (.inl (by omega))

theorem returns_result_answering : ∃ stub m₂ m₃, build mixedSignature false = .ok stub ∧
    (callMachine stub).run (answering 7) stepLimit () = .ok ((), m₃) ∧
      Result .wide (callMachine stub) m₂ m₃ := by
  obtain ⟨stub, hbuild⟩ := exists_of_isOk
    (show (build mixedSignature false).isOk = true by decide +kernel)
  obtain ⟨harray, hapart⟩ := arraySpan_callMachine hbuild 6 (by decide)
  obtain ⟨hslot, hslotcode, hslotown⟩ := slotSpan_callMachine hbuild
  obtain ⟨params, cursor, n, n', m₁, -, hn, htrace, hdelivery, hreturn⟩ :=
    returns_result hbuild (show ReturnClass.ofKind false mixedSignature.ret = .ok .wide from rfl)
      (entered_callMachine hbuild (answering_low 7)) harray hapart hslot hslotcode hslotown ()
  have hcallee : m₁.pc = 0x20000000 := by
    rw [hdelivery.pc]
    simp [callMachine]
  have hcall : Trace (answering 7) 1 [⟨m₁, m₁.setR 3 7⟩] () m₁ () (m₁.setR 3 7).leave :=
    .native (by rw [hcallee]; decide) (if_pos hcallee) rfl (.refl _ _)
  obtain ⟨m₃, -, hresult, hrun⟩ := hreturn _ _ _ _ hcall (returned_answer stub _ m₁ 7)
  exact ⟨stub, _, m₃, hbuild, hrun (by simp [callMachine, Stub.machine]) _ (by omega), hresult⟩

end Trampoline

end CallBridge
