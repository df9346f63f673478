import CallBridge.Proofs.Progress
import CallBridge.Proofs.Trampoline.Arguments

/-!
# How a trampoline reaches its callee

A trampoline sets its frame up, saves the return slot in it, loads the arguments and calls. When the
callee is entered every argument is in its place, and the words that the trampoline needs for its
return are in its frame (`Framed`). What the code does is said for the layout that it was made from
(`Laid`), and the run is put together from it.
-/

namespace CallBridge

open Machine

namespace Trampoline

variable {σ : Type} {hooks : Hooks σ} {state : σ} {kept : Set Nat} {S : Nat} {m₀ m m' : Machine}
  {sig : Signature} {stringCtor : Bool} {layout : TrampolineLayout} {cursor : Cursor} {stub : Stub}

/-! ## Layout -/

/-- The layout is the one of the signature, however far it reaches. -/
structure Planned (sig : Signature) (stringCtor : Bool) (layout : TrampolineLayout)
    (cursor : Cursor) : Prop where
  placement : sig.placement = .ok (layout.params, cursor)
  ret : ReturnClass.ofKind stringCtor sig.ret = .ok layout.ret
  receiver : layout.receiver = sig.receiver
  frameSize : layout.frameSize = align16 (20 + cursor.stack)

/-- The layout is the one of the signature, and it is within reach. -/
structure Laid (sig : Signature) (stringCtor : Bool) (layout : TrampolineLayout) (cursor : Cursor) :
    Prop extends Planned sig stringCtor layout cursor where
  frameReach : layout.frameSize + 4 ≤ 32767
  arrayReach : layout.params.length * taggedSize ≤ 32767

theorem laid_of_ofSignature (h : TrampolineLayout.ofSignature sig stringCtor = .ok layout) :
    ∃ cursor, Laid sig stringCtor layout cursor := by
  obtain ⟨⟨params, cursor⟩, hplacement, h⟩ := bind_eq_ok_iff.mp h
  obtain ⟨ret, hret, h⟩ := bind_eq_ok_iff.mp h
  dsimp only at h
  split at h
  · cases h
  · rename_i hreach
    cases h
    obtain ⟨hframe, harray⟩ := Nat.max_le.mp (Nat.le_of_not_lt hreach)
    exact ⟨cursor, ⟨hplacement, hret, rfl, rfl⟩, hframe, harray⟩

theorem laid_of_build (h : build sig stringCtor = .ok stub) :
    ∃ layout cursor, Laid sig stringCtor layout cursor ∧
      Stub.ofStatements (statements layout) layout.frameSize = .ok stub := by
  obtain ⟨layout, hlayout, h⟩ := bind_eq_ok_iff.mp h
  obtain ⟨made, hmade, h⟩ := bind_eq_ok_iff.mp h
  obtain ⟨cursor, hlaid⟩ := laid_of_ofSignature (mapError_eq_ok_iff.mp hlayout)
  dsimp only at h
  split at h
  · cases h
  · cases h
    exact ⟨layout, cursor, hlaid, hmade⟩

theorem Planned.places (h : Planned sig stringCtor layout cursor) :
    (Cursor.start sig.receiver).Places layout.params cursor ∧
      layout.params.length = sig.params.length :=
  let ⟨hplaces, hlength, _⟩ := places_of_placeFrom h.placement
  ⟨hplaces, hlength⟩

theorem Planned.stack_le (h : Planned sig stringCtor layout cursor) :
    20 + cursor.stack ≤ layout.frameSize := by
  rw [h.frameSize]
  exact le_align16 _

/-! ## Set-up -/

/-- The frame of a trampoline is in place, with the return slot saved in it. -/
structure Framed (S : Nat) (m₀ m : Machine) : Prop where
  inFrame : InFrame S m₀ m
  framePointer : m.r framePointer = m.r stackPointer
  returnSlot : m.memory.word (m₀.sp - 12) = m₀.r 4

/-- The four words of the stack that a trampoline needs for its return. -/
def frameWords (m : Machine) (S : Nat) : Set Nat :=
  Set.Ico (m.sp - S) (m.sp - S + 4) ∪ Set.Ico (m.sp - 12) (m.sp - 8) ∪
    Set.Ico (m.sp - 4) m.sp ∪ Set.Ico (m.sp + 4) (m.sp + 8)

/-- The frame stays in place as long as its four words and the registers that point to it do not
change. -/
theorem Framed.congr (h : Framed S m₀ m) (hroom : m₀.Room S)
    (hsp : m'.r stackPointer = m.r stackPointer)
    (hfp : m'.r CallBridge.framePointer = m.r CallBridge.framePointer)
    (hmem : Set.EqOn m'.memory.byte m.memory.byte (frameWords m₀ S)) : Framed S m₀ m' := by
  obtain ⟨hsize, hstart, hstop⟩ := hroom
  refine ⟨h.inFrame.congr (congrArg BitVec.toNat hsp) (hmem.mono ?_) (hmem.mono ?_) (hmem.mono ?_),
    ?_, ?_⟩
  · exact fun x hx => .inl (.inl (.inl hx))
  · exact fun x hx => .inl (.inr ⟨hx.1, by have := hx.2; omega⟩)
  · exact fun x hx => .inr hx
  · rw [hfp, hsp, h.framePointer]
  · rw [← h.returnSlot]
    exact Memory.word_eq_of_eqOn (hmem.mono fun x hx =>
      .inl (.inl (.inr ⟨hx.1, by have := hx.2; omega⟩)))

theorem performs_saveOperands (hroom : m₀.Room layout.frameSize)
    (hfp : (m.r framePointer).toNat = m₀.sp - layout.frameSize)
    (hkept : Disjoint kept (Set.Ico (m₀.sp - 12) (m₀.sp - 12 + 4))) :
    ∃ m', Performs kept (saveOperands layout) m m' ∧
      m'.memory = m.memory.store (m₀.sp - 12) (bytesOf 4 (m.r 4).toNat) ∧
      ∀ n, m'.r n = if n % 32 = 0 then m.r 3 else if n % 32 = 12 then m.r 6 else m.r n := by
  obtain ⟨hsize, hstart, hstop⟩ := hroom
  have hfp' : (m.r 31).toNat = m₀.sp - layout.frameSize := hfp
  refine ⟨_, (performs_mr 12 6).cons <| (performs_mr 0 3).cons <|
    performs_stw 4 (a := m₀.sp - 12) ?_ hkept, ?_, ?_⟩
  · exact ⟨by decide, by simp [framePointer, savedReturnSlot, hfp']; omega, by omega, by omega⟩
  · simp
  · intro n
    simp only [r_put, r_goto, r_setR]
    grind

theorem performs_loadReceiver (kept : Set Nat) (layout : TrampolineLayout) (m : Machine) :
    ∃ m', Performs kept (loadReceiver layout) m m' ∧ m'.memory = m.memory ∧
      ∀ n, m'.r n = if layout.receiver ∧ n % 32 = 3 then m.r 5 else m.r n := by
  unfold loadReceiver
  split
  · refine ⟨_, performs_mr 3 5, by simp, fun n => ?_⟩
    simp only [r_setR, r_goto]
    grind
  · exact ⟨m, .nil m, rfl, by simp [*]⟩

def entryCode (layout : TrampolineLayout) : List Statement :=
  frameEntry layout.frameSize ++ saveOperands layout ++ loadReceiver layout

/-- The frame is set up and the operands are out of the argument registers: the array is in r12, the
callee in r0 and the receiver in its place. -/
theorem performs_entryCode (hroom : m.Room layout.frameSize)
    (hkept : Disjoint kept (m.ownSpan layout.frameSize)) :
    ∃ m', Performs kept (entryCode layout) m m' ∧ Framed layout.frameSize m m' ∧
      m'.r 12 = m.r 6 ∧ m'.r 0 = m.r 3 ∧ (layout.receiver → m'.r 3 = m.r 5) ∧
      Set.EqOn m'.memory.byte m.memory.byte (m.ownSpan layout.frameSize)ᶜ := by
  obtain ⟨m₁, hentry, hin, hfp, hframed, -, hr₁⟩ := performs_frameEntry hroom hkept
  have hsp : (m₁.r framePointer).toNat = m.sp - layout.frameSize :=
    (congrArg BitVec.toNat hfp).trans hin.sp
  obtain ⟨hsize, hstart, hstop⟩ := hroom
  have hslot : Set.Ico (m.sp - 12) (m.sp - 12 + 4) ⊆ m.ownSpan layout.frameSize :=
    fun x hx => .inl ⟨by have := hx.1; omega, by have := hx.2; omega⟩
  obtain ⟨m₂, hsave, hmem₂, hr₂⟩ := performs_saveOperands ⟨hsize, hstart, hstop⟩ hsp
    (hkept.mono_right hslot)
  obtain ⟨m₃, hreceiver, hmem₃, hr₃⟩ := performs_loadReceiver kept layout m₂
  have hstored {A : Set Nat} (hA : Disjoint A (Set.Ico (m.sp - 12) (m.sp - 12 + 4))) :
      Set.EqOn m₃.memory.byte m₁.memory.byte A := by
    rw [hmem₃, hmem₂]
    exact Memory.eqOn_store (by rwa [length_bytesOf])
  refine ⟨m₃, (hentry.append hsave).append hreceiver, ⟨hin.congr ?_ ?_ ?_ ?_, ?_, ?_⟩,
    ?_, ?_, ?_, ?_⟩
  · simp [sp, hr₃, hr₂, stackPointer]
  · exact hstored (disjoint_ranges (by omega))
  · exact hstored (disjoint_ranges (by omega))
  · exact hstored (disjoint_ranges (by omega))
  · simpa [hr₃, hr₂, framePointer, stackPointer] using hfp
  · rw [hmem₃, hmem₂, Memory.word_store, hr₁ 4 (by decide)]
  · simp [hr₃, hr₂, hr₁ 6]
  · simp [hr₃, hr₂, hr₁ 3]
  · intro hlayout
    simp [hr₃, hr₂, hr₁ 5, hlayout]
  · exact (hstored (disjoint_compl_left.mono_right hslot)).trans hframed

/-! ## Up to the call -/

def callCode (layout : TrampolineLayout) : List Statement :=
  entryCode layout ++ loadArgs layout.params ++ [.mtlr 0]

/-- What a trampoline does from the return of the callee on. -/
def returnCode (layout : TrampolineLayout) : List Statement :=
  storeResult layout ++ restoreCaller

theorem statements_eq (layout : TrampolineLayout) :
    statements layout = callCode layout ++ .blrl :: (returnCode layout ++ [.blr]) := by
  simp [statements, callCode, entryCode, returnCode, frameReturn_eq]

/-- A function with this signature can be entered: its arguments, from the array that the trampoline
was entered with, are in their places. The frame is in place, and memory outside of the bytes that
the trampoline may write is as it was. -/
structure Prepared (sig : Signature) (params : List PlacedArg) (S : Nat) (m₀ m : Machine) :
    Prop where
  args : ∀ i (hi : i < params.length),
    Delivered m₀.memory ((m₀.r 6).toNat + i * taggedSize) m params[i].location
  receiver : sig.receiver → m.r 3 = m₀.r 5
  framed : Framed S m₀ m
  unchanged : Set.EqOn m.memory.byte m₀.memory.byte (m₀.ownSpan S)ᶜ

/-- Neither the link register nor the program counter has a part in it. -/
theorem Prepared.views {params : List PlacedArg} (h : Prepared sig params S m₀ m)
    (hr : ∀ n, m'.r n = m.r n) (hf : ∀ n, m'.f n = m.f n) (hmem : m'.memory = m.memory) :
    Prepared sig params S m₀ m' := by
  have hsp : m'.sp = m.sp := congrArg BitVec.toNat (hr stackPointer)
  refine ⟨fun i hi => ?_, fun hrec => (hr 3).trans (h.receiver hrec), ?_, hmem ▸ h.unchanged⟩
  · have hargs := h.args i hi
    cases hlocation : params[i].location <;>
      simpa only [hlocation, Delivered, hr, hf, hmem, hsp] using hargs
  · obtain ⟨⟨hsp', hback, hpointer, hlink⟩, hfp, hslot⟩ := h.framed
    rw [← hmem] at hback hpointer hlink hslot
    exact ⟨⟨hsp.trans hsp', hback, hpointer, hlink⟩, ((hr _).trans hfp).trans (hr _).symm, hslot⟩

def stackArgSpan (m : Machine) (S : Nat) : Set Nat :=
  Set.Ico (m.sp - S + 8) (m.sp - 12)

theorem Laid.argArea_subset (hlaid : Laid sig stringCtor layout cursor)
    (hroom : m₀.Room layout.frameSize) (hsp : m.sp = m₀.sp - layout.frameSize) :
    argArea m (Cursor.start sig.receiver) cursor ⊆ stackArgSpan m₀ layout.frameSize := by
  have hstack := hlaid.stack_le
  obtain ⟨hsize, hstart, hstop⟩ := hroom
  rw [argArea, hsp]
  exact Set.Ico_subset_Ico (by omega) (by omega)

theorem stackArgSpan_subset_own (hroom : m.Room S) : stackArgSpan m S ⊆ m.ownSpan S := by
  obtain ⟨hsize, hstart, hstop⟩ := hroom
  rintro x ⟨hlo, hhi⟩
  exact .inl ⟨by omega, by omega⟩

theorem stackArgSpan_subset_addresses (hroom : m.Room S) : stackArgSpan m S ⊆ addresses := by
  obtain ⟨hsize, hstart, hstop⟩ := hroom
  exact Set.Ico_subset_Ico (by omega) (by omega)

theorem disjoint_frameWords_stackArgSpan (hroom : m.Room S) :
    Disjoint (frameWords m S) (stackArgSpan m S) := by
  obtain ⟨hsize, hstart, hstop⟩ := hroom
  rw [Set.disjoint_left]
  rintro x (((⟨hlo, hhi⟩ | ⟨hlo, hhi⟩) | ⟨hlo, hhi⟩) | ⟨hlo, hhi⟩) ⟨hlo', hhi'⟩ <;> omega

/-- Loading the arguments is the last thing to do before the call. -/
theorem prepared_of_loads (hlaid : Laid sig stringCtor layout cursor)
    (hroom : m₀.Room layout.frameSize)
    (hapart : Disjoint (Set.Ico (m₀.r 6).toNat
      ((m₀.r 6).toNat + layout.params.length * taggedSize)) (m₀.ownSpan layout.frameSize))
    (hframed : Framed layout.frameSize m₀ m) (hreceiver : layout.receiver → m.r 3 = m₀.r 5)
    (hunchanged : Set.EqOn m.memory.byte m₀.memory.byte (m₀.ownSpan layout.frameSize)ᶜ)
    (hloads : LoadsOnly (Cursor.start sig.receiver) cursor m m')
    (hdelivered : ∀ i (hi : i < layout.params.length),
      Delivered m.memory ((m₀.r 6).toNat + i * taggedSize) m' layout.params[i].location) :
    Prepared sig layout.params layout.frameSize m₀ m' := by
  have hbounded := hlaid.places.1.bounded (Cursor.start_bounded _)
  have hfree : Set.EqOn m'.memory.byte m.memory.byte (stackArgSpan m₀ layout.frameSize)ᶜ :=
    hloads.memory.mono (Set.compl_subset_compl.mpr (hlaid.argArea_subset hroom hframed.inFrame.sp))
  have hwords := (disjoint_frameWords_stackArgSpan hroom).subset_compl_right
  refine ⟨fun i hi => (hdelivered i hi).congr (hunchanged.mono ?_), fun hrec => ?_,
    hframed.congr hroom ?_ ?_ (hfree.mono hwords),
    (hfree.mono (Set.compl_subset_compl.mpr (stackArgSpan_subset_own hroom))).trans hunchanged⟩
  · refine Set.Subset.trans (Set.Ico_subset_Ico ?_ ?_) hapart.subset_compl_right
    · exact Nat.le_add_right _ _
    · simp only [taggedSize]
      omega
  -- The receiver has taken the first slot already.
  · rw [hloads.general 3 (by decide) (by rw [hrec]; simp [Cursor.start])]
    exact hreceiver (hlaid.receiver.trans hrec)
  · exact hloads.r_eq hbounded (.inl (by decide))
  · exact hloads.r_eq hbounded (.inr (by decide))

/-- Everything is ready for the call, and the callee is in the link register. -/
theorem performs_callCode (hlaid : Laid sig stringCtor layout cursor)
    (hroom : m.Room layout.frameSize) (hkept : Disjoint kept (m.ownSpan layout.frameSize))
    (hslots : Set.Ico (m.r 6).toNat ((m.r 6).toNat + layout.params.length * taggedSize) ⊆ addresses)
    (hapart : Disjoint (Set.Ico (m.r 6).toNat ((m.r 6).toNat + layout.params.length * taggedSize))
      (m.ownSpan layout.frameSize)) :
    ∃ m', Performs kept (callCode layout) m m' ∧ m'.lr = m.r 3 ∧
      Prepared sig layout.params layout.frameSize m m' := by
  obtain ⟨m₁, hentry, hframed, harray, hcallee, hreceiver, hunchanged⟩ :=
    performs_entryCode hroom hkept
  have harea := hlaid.argArea_subset hroom hframed.inFrame.sp
  have hused := harea.trans (stackArgSpan_subset_own hroom)
  obtain ⟨m₂, hloads, honly, hdelivered⟩ := performs_loadArgs hlaid.places.1
    (Cursor.start_bounded _) (congrArg BitVec.toNat harray) hslots
    (harea.trans (stackArgSpan_subset_addresses hroom)) (hkept.mono_right hused)
    (hapart.mono_right hused)
  have hprepared := prepared_of_loads hlaid hroom hapart hframed hreceiver hunchanged honly
    hdelivered
  refine ⟨_, (hentry.append hloads).append (performs_mtlr 0), ?_, hprepared.views ?_ ?_ ?_⟩
  · have hbounded := hlaid.places.1.bounded (Cursor.start_bounded _)
    rw [lr_setLink, honly.r_eq hbounded (.inl (by decide)), hcallee]
  · simp
  · simp
  · simp

/-! ## The call -/

/-- The tagged arguments that a trampoline is entered with. -/
def arraySpan (m : Machine) (count : Nat) : Set Nat :=
  Set.Ico (m.r 6).toNat ((m.r 6).toNat + count * taggedSize)

/-- The callee is entered with everything ready for it, and it returns into the trampoline. -/
structure Delivery (stub : Stub) (sig : Signature) (params : List PlacedArg) (m₀ m : Machine) : Prop
    extends Prepared sig params stub.frameSize m₀ m where
  pc : m.pc = m₀.r 3
  link : m.lr.toNat ∈ stub.span m₀

theorem length_loadArgs_le (params : List PlacedArg) :
    (loadArgs params).length ≤ 2 * params.length := by
  have hfrom (k : Nat) : (loadArgsFrom k params).length ≤ 2 * params.length := by
    induction params generalizing k with
    | nil => exact Nat.le_refl 0
    | cons param rest ih =>
        have hone : (loadArg (k * taggedSize) param.location).length ≤ 2 := by
          cases param.location <;> simp [loadArg]
        have hrest := ih (k + 1)
        rw [loadArgsFrom_cons, List.length_append, List.length_cons]
        omega
  exact hfrom 0

theorem length_callCode_le (layout : TrampolineLayout) :
    (callCode layout).length ≤ 10 + 2 * layout.params.length := by
  have hargs := length_loadArgs_le layout.params
  have hreceiver : (loadReceiver layout).length ≤ 1 := by
    unfold loadReceiver
    split <;> simp
  simp only [callCode, entryCode, frameEntry, saveOperands, List.length_append, List.length_cons,
    List.length_nil]
  omega

theorem length_returnCode_le (layout : TrampolineLayout) : (returnCode layout).length ≤ 8 := by
  have hstore : (storeResult layout).length ≤ 3 := by
    unfold storeResult
    cases layout.ret <;> simp
  simp only [returnCode, restoreCaller, List.length_append, List.length_cons, List.length_nil]
  omega

theorem frameSize_ge (hlaid : Laid sig stringCtor layout cursor)
    (hstub : Stub.ofStatements (statements layout) layout.frameSize = .ok stub) :
    20 + cursor.stack ≤ stub.frameSize := by
  obtain ⟨-, rfl⟩ := ofStatements_eq_ok_iff.mp hstub
  exact hlaid.stack_le

/-- A trampoline that stands in memory calls its callee, and from its return on it has the return
code to do. -/
theorem runs_to_callee (hlaid : Laid sig stringCtor layout cursor)
    (hstub : Stub.ofStatements (statements layout) layout.frameSize = .ok stub)
    (hstanding : stub.Standing hooks m)
    (harray : arraySpan m sig.params.length ⊆ addresses)
    (hapart : Disjoint (arraySpan m sig.params.length) (m.ownSpan stub.frameSize)) (state : σ) :
    ∃ n m', Trace hooks n [] state m state m' ∧ n ≤ 2 * (callCode layout).length + 1 ∧
      Delivery stub sig layout.params m m' ∧
      Reached hooks m.pc.toNat (statements layout) (returnCode layout ++ [.blr])
        (m'.goto m'.lr) := by
  obtain ⟨-, rfl⟩ := ofStatements_eq_ok_iff.mp hstub
  rw [arraySpan, ← hlaid.places.2] at harray hapart
  obtain ⟨m₁, hperforms, hlr, hprepared⟩ :=
    performs_callCode hlaid hstanding.room hstanding.apart harray hapart
  have hreached : Reached hooks m.pc.toNat (statements layout)
      (callCode layout ++ .blrl :: (returnCode layout ++ [.blr])) m := by
    rw [← statements_eq]
    exact reached_of_standing hstub (by simp [statements_eq, Statement.unchecked]) hstanding
  obtain ⟨htrace, hcall⟩ := hreached.performs state hperforms
  have hlength := length_unchecked_le (callCode layout)
  have hback : Reached hooks m.pc.toNat (statements layout) (returnCode layout ++ [.blr])
      (((m₁.setLink (m₁.pc + 4)).goto m₁.lr).goto (m₁.pc + 4)) :=
    hcall.resume rfl (Set.eqOn_refl _ _)
  refine ⟨_, _, htrace.trans hcall.call, by omega, ⟨hprepared.views ?_ ?_ ?_, hlr, ?_⟩, hback⟩
  · simp
  · simp
  · simp
  · refine hback.loaded_todo.2 ⟨Nat.le_refl _, ?_⟩
    simp [Statement.unchecked]

theorem reaches_callee (hlaid : Laid sig stringCtor layout cursor)
    (hstub : Stub.ofStatements (statements layout) layout.frameSize = .ok stub)
    (hentered : stub.Entered hooks m)
    (harray : arraySpan m sig.params.length ⊆ addresses)
    (hapart : Disjoint (arraySpan m sig.params.length) (m.stackSpan stub.frameSize)) (state : σ) :
    ∃ n m', Trace hooks n [] state m state m' ∧ n ≤ 2 * (callCode layout).length + 1 ∧
      Delivery stub sig layout.params m m' ∧
      Reached hooks m.pc.toNat (statements layout) (returnCode layout ++ [.blr])
        (m'.goto m'.lr) := by
  have hsize := frameSize_ge hlaid hstub
  exact runs_to_callee hlaid hstub (hentered.standing (by omega)) harray
    (hapart.mono_right (ownSpan_subset_stackSpan _ _)) state

/-! ## A machine to call with -/

/-- Words, pairs, a float and a word on the stack, after a receiver. -/
def mixedSignature : Signature where
  params := [.int32, .int64, .int64, .int64, .int8, .float64].map fun p => { kind := .primitive p }
  receiver := true
  ret := .primitive .int64
  pinvoke := false

/-- A machine that is about to run a trampoline with its array and return slot where data starts. -/
def callMachine (stub : Stub) : Machine :=
  ((stub.machine.setR 3 0x20000000).setR 4 (BitVec.ofNat 32 (dataStart + 0x100))).setR 6
    (BitVec.ofNat 32 dataStart)

theorem sp_callMachine (stub : Stub) : (callMachine stub).sp = stackTop := by
  have hsp : (callMachine stub).r stackPointer = Machine.fresh.r stackPointer := by
    simp [callMachine, stackPointer]
    rfl
  rw [Machine.sp, hsp]
  decide

theorem frameSize_of_build (hbuild : build sig stringCtor = .ok stub) : stub.frameSize ≤ 32763 := by
  obtain ⟨layout, cursor, hlaid, hstub⟩ := laid_of_build hbuild
  obtain ⟨-, rfl⟩ := ofStatements_eq_ok_iff.mp hstub
  exact Nat.le_sub_of_add_le hlaid.frameReach

theorem length_insns_of_build (hbuild : build sig stringCtor = .ok stub) :
    4 * stub.insns.length ≤ 0x10000 := by
  obtain ⟨layout, cursor, hlaid, hstub⟩ := laid_of_build hbuild
  obtain ⟨-, rfl⟩ := ofStatements_eq_ok_iff.mp hstub
  have hreach := hlaid.arrayReach
  have hcall := length_callCode_le layout
  have hreturn := length_returnCode_le layout
  have hinsns := length_unchecked_le (statements layout)
  rw [statements_eq, List.length_append, List.length_cons, List.length_append] at hinsns
  simp only [taggedSize, statements_eq, List.length_singleton] at hreach hinsns ⊢
  omega

theorem entered_callMachine (hbuild : build sig stringCtor = .ok stub)
    (hnative : ∀ x : Word, x.toNat < dataStart → hooks x = none) :
    stub.Entered hooks (callMachine stub) := by
  have hframe := frameSize_of_build hbuild
  have hinsns := length_insns_of_build hbuild
  exact Stub.entered_machine (by omega) (by omega) hnative
    (by simp [callMachine]) (by simp [callMachine, stackPointer]) (by simp [callMachine])

/-- A short array where data starts is apart from the stack. -/
theorem arraySpan_callMachine (hbuild : build sig stringCtor = .ok stub) (count : Nat)
    (hcount : count ≤ 16) :
    arraySpan (callMachine stub) count ⊆ addresses ∧
      Disjoint (arraySpan (callMachine stub) count)
        ((callMachine stub).stackSpan stub.frameSize) := by
  have hframe := frameSize_of_build hbuild
  have hbase : ((callMachine stub).r 6).toNat = dataStart := by
    rw [callMachine, r_setR]
    exact Nat.mod_eq_of_lt (by decide)
  obtain ⟨hdata, htop, hend⟩ : dataStart = memoryStart + 0x80000 ∧
      stackTop = dataStart + 0x7f000 ∧ memoryEnd = stackTop + 0x1000 := by decide
  rw [arraySpan, stackSpan, hbase, sp_callMachine, taggedSize]
  exact ⟨Set.Ico_subset_Ico (by omega) (by omega), disjoint_ranges (.inl (by omega))⟩

/-- A trampoline delivers its arguments: from its first instruction it comes to the callee without a
fault, with every tagged argument in the place of the signature's placement, the receiver in its
register, and the frame in place. -/
theorem delivers_arguments (hbuild : build sig stringCtor = .ok stub)
    (hentered : stub.Entered hooks m)
    (harray : arraySpan m sig.params.length ⊆ addresses)
    (hapart : Disjoint (arraySpan m sig.params.length) (m.stackSpan stub.frameSize)) (state : σ) :
    ∃ params cursor n m', sig.placement = .ok (params, cursor) ∧
      params.length = sig.params.length ∧ Trace hooks n [] state m state m' ∧ n < stepLimit ∧
      Delivery stub sig params m m' := by
  obtain ⟨layout, cursor, hlaid, hstub⟩ := laid_of_build hbuild
  obtain ⟨n, m', htrace, hn, hdelivery, -⟩ :=
    reaches_callee hlaid hstub hentered harray hapart state
  have hreach := hlaid.arrayReach
  have hlength := length_callCode_le layout
  refine ⟨layout.params, cursor, n, m', hlaid.placement, hlaid.places.2, htrace, ?_, hdelivery⟩
  simp only [taggedSize, stepLimit] at hreach ⊢
  omega

theorem delivers_arguments_mixed : ∃ stub params cursor n m',
    build mixedSignature false = .ok stub ∧ mixedSignature.placement = .ok (params, cursor) ∧
      Trace (fun _ => none) n [] () (callMachine stub) () m' ∧
      Delivery stub mixedSignature params (callMachine stub) m' := by
  obtain ⟨stub, hbuild⟩ := exists_of_isOk
    (show (build mixedSignature false).isOk = true by decide +kernel)
  obtain ⟨harray, hapart⟩ := arraySpan_callMachine hbuild 6 (by decide)
  obtain ⟨params, cursor, n, m', hplacement, -, htrace, -, hdelivery⟩ :=
    delivers_arguments hbuild (entered_callMachine hbuild fun _ _ => rfl) harray hapart ()
  exact ⟨stub, params, cursor, n, m', hbuild, hplacement, htrace, hdelivery⟩

end Trampoline

end CallBridge
