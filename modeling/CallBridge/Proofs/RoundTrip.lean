import CallBridge.Proofs.Rounding
import CallBridge.Proofs.Thunk.Answer
import CallBridge.Proofs.Trampoline.Size

/-!
# From tagged values to tagged values

A trampoline calls the thunk of its own signature: tagged values become native arguments, and these
become tagged values again. The two stubs are made apart from each other; they meet in the machine
that enters the thunk, where every argument lies at the place that the signature's placement gives
it, a stack word at the same address for both (`incoming_of_delivered`). The thunk writes its own
frame and one word of the trampoline's, which the trampoline has left free for it, so each of them
finds its frame as it was when the call comes back (`round_trip`).
-/

namespace CallBridge

open Machine

/-! ## The two stubs in one machine -/

/-- The code of a stub lies in memory from an address on, and no native function stands in it. -/
structure Stub.LiesAt {σ : Type} (stub : Stub) (hooks : Hooks σ) (m : Machine) (a : Nat) :
    Prop where
  code : m.memory.load a stub.code.length = stub.code
  codeIn : codeSpan a stub.insns ⊆ addresses
  native : ∀ x : Word, x.toNat ∈ codeSpan a stub.insns → hooks x = none

/-- A trampoline is entered with a thunk as its callee. There is room for both frames, and the code
of both stubs, the array of this many arguments and the return slot are apart from what the stubs
write on the stack. -/
structure Chained {σ : Type} (trampoline thunk : Stub) (hooks : Hooks σ) (count : Nat)
    (ret : ReturnClass) (m : Machine) : Prop where
  outer : trampoline.LiesAt hooks m m.pc.toNat
  inner : thunk.LiesAt hooks m (m.r 3).toNat
  room : m.Room (trampoline.frameSize + thunk.frameSize)
  codeApart : Disjoint (codeSpan m.pc.toNat trampoline.insns ∪ codeSpan (m.r 3).toNat thunk.insns)
    (m.ownSpan (trampoline.frameSize + thunk.frameSize))
  arrayIn : Trampoline.arraySpan m count ⊆ addresses
  arrayApart : Disjoint (Trampoline.arraySpan m count)
    (m.ownSpan (trampoline.frameSize + thunk.frameSize))
  slotIn : Trampoline.slotSpan m ret ⊆ addresses
  slotApart : Disjoint (Trampoline.slotSpan m ret)
    (m.ownSpan (trampoline.frameSize + thunk.frameSize))
  slotCode : Disjoint (codeSpan m.pc.toNat trampoline.insns ∪ codeSpan (m.r 3).toNat thunk.insns)
    (Trampoline.slotSpan m ret)

/-- The interpreter is given the receiver that the trampoline was entered with, and in the slot of
every argument what comes of the tagged value in the array. -/
structure Received (sig : Signature) (m₀ m : Machine) : Prop where
  receiver : m.field .receiver = if sig.receiver then m₀.r 5 else 0
  args : ∀ (i : Nat) (p : Parameter), sig.params[i]? = some p →
    m.memory.load ((m.field .stackArgs).toNat + i * taggedSize) taggedSize =
      ((NativeType.ofKind p.kind).passed (Tagged.ofBytes
        (m₀.memory.load ((m₀.r 6).toNat + i * taggedSize) taggedSize))).bytes

/-- What a result of a class takes out of a tagged value. -/
def Tagged.returned (v : Tagged) : ReturnClass → List Byte
  | .void => []
  | .byte => bytesOf 1 v.word.toNat
  | .half => bytesOf 2 v.word.toNat
  | .word | .pointer => bytesOf 4 v.word.toNat
  | .wide | .double => bytesOf 8 v.data.toNat
  | .single => bytesOf 4 (SinglePrecision.narrow v.data).toNat

/-- The call has come back to the trampoline's caller with an answer in the return slot, and but for
the two frames, the link register word above them and the bytes of the result, memory is as before.
-/
structure CameBack (trampoline thunk : Stub) (ret : ReturnClass) (v : Tagged) (m₀ m : Machine) :
    Prop where
  pc : m.pc = m₀.lr
  stackPointer : m.r stackPointer = m₀.r stackPointer
  framePointer : m.r framePointer = m₀.r framePointer
  result : m.memory.load (m₀.r 4).toNat ret.width = v.returned ret
  unchanged : Set.EqOn m.memory.byte m₀.memory.byte
    (m₀.ownSpan (trampoline.frameSize + thunk.frameSize) ∪ Trampoline.slotSpan m₀ ret)ᶜ

/-! ## Arguments and results -/

/-- What the trampoline delivers for an argument is what the thunk takes in. -/
theorem incoming_of_delivered {a : Thunk.Activation} {mem : Memory} {slot : Nat} {c c' : Cursor}
    {param : PlacedArg} (hput : c.Puts param c')
    (hdelivered : Trampoline.Delivered mem slot a.entry param.location) :
    a.incoming param = param.argClass.native (Tagged.ofBytes (mem.load slot taggedSize)) := by
  cases hput with
  | @general size _ | @stack size _ =>
      rw [ArgClass.native, Memory.word_ofBytes_load]
      exact congrArg (fun w : Word => bytesOf size w.toNat) hdelivered
  | pair =>
      obtain ⟨hfirst, hsecond⟩ := hdelivered
      rw [ArgClass.native, Memory.data_ofBytes_load, ← Memory.bytesOf_words,
        Thunk.Activation.incoming, hfirst, hsecond]
  | single =>
      rw [ArgClass.native, Memory.data_ofBytes_load]
      exact congrArg (fun d => bytesOf 4 (SinglePrecision.narrow d).toNat) hdelivered
  | double =>
      rw [ArgClass.native, Memory.data_ofBytes_load]
      exact congrArg (fun d : DoubleWord => bytesOf 8 d.toNat) hdelivered

/-- What the thunk loads of an answer is what the trampoline stores of it. -/
theorem resultBytes_of_loaded {mem : Memory} {slot : Nat} {m : Machine} {ret : ReturnClass}
    {v : Tagged} (hanswer : mem.load slot taggedSize = v.bytes)
    (hloaded : Thunk.ResultLoaded mem slot m ret) : m.resultBytes ret = v.returned ret := by
  have hword := Memory.word_of_load hanswer
  have hdata := Memory.doubleWord_of_load hanswer
  cases ret with
  | void => rfl
  | byte | half | word | pointer =>
      have hr3 : m.r 3 = v.word := hloaded.trans hword
      simp only [resultBytes, Tagged.returned, hr3]
  | wide =>
      obtain ⟨hr3, hr4⟩ := hloaded
      rw [resultBytes, hr3, hr4, Memory.bytesOf_words, hdata, Tagged.returned]
  | single =>
      have hf1 : m.f 1 = SinglePrecision.round v.data :=
        hloaded.trans (congrArg SinglePrecision.round hdata)
      rw [resultBytes, hf1, SinglePrecision.narrow_round, Tagged.returned]
  | double =>
      have hf1 : m.f 1 = v.data := hloaded.trans hdata
      rw [resultBytes, hf1, Tagged.returned]

/-! ## One frame below the other -/

theorem ownSpan_mono {S T : Nat} (m : Machine) (h : S ≤ T) : m.ownSpan S ⊆ m.ownSpan T :=
  Set.union_subset_union_left _ (Set.Ico_subset_Ico_left (by omega))

/-- A stub that is entered at the bottom of a frame writes below it, and one word in it. -/
theorem ownSpan_below {S S' : Nat} {m m₁ : Machine} (hroom : m.Room (S + S')) (hsize : 16 ≤ S)
    (hsp : m₁.sp = m.sp - S) : m₁.ownSpan S' ⊆ m.ownSpan (S + S') := by
  have hstart := hroom.start
  rintro x (⟨hlo, hhi⟩ | ⟨hlo, hhi⟩)
  · exact .inl ⟨by omega, by omega⟩
  · exact .inl ⟨by omega, by omega⟩

/-- That word is not one of those that a trampoline needs for its return. -/
theorem disjoint_frameWords_below {S S' : Nat} {m m₁ : Machine} (hroom : m.Room (S + S'))
    (hsize : 20 ≤ S) (hsp : m₁.sp = m.sp - S) :
    Disjoint (Trampoline.frameWords m S) (m₁.ownSpan S') := by
  have hstart := hroom.start
  rw [Set.disjoint_left]
  rintro x (((⟨hlo, hhi⟩ | ⟨hlo, hhi⟩) | ⟨hlo, hhi⟩) | ⟨hlo, hhi⟩)
    (⟨hlo', hhi'⟩ | ⟨hlo', hhi'⟩) <;> omega

section

variable {hooks : Hooks Log} {trampoline thunk : Stub} {sig : Signature} {params : List PlacedArg}
  {count : Nat} {ret : ReturnClass} {m m₁ : Machine}
  (h : Chained trampoline thunk hooks count ret m)

include h

theorem Chained.room_outer (hsize : 16 ≤ trampoline.frameSize) : m.Room trampoline.frameSize := by
  obtain ⟨-, hstart, hstop⟩ := h.room
  exact ⟨hsize, by omega, hstop⟩

theorem Chained.standing_outer (hsize : 16 ≤ trampoline.frameSize) :
    trampoline.Standing hooks m where
  code := h.outer.code
  codeIn := h.outer.codeIn
  native := h.outer.native
  room := h.room_outer hsize
  apart := h.codeApart.mono Set.subset_union_left (ownSpan_mono m (Nat.le_add_right _ _))

/-- The thunk is in place when the trampoline calls it. -/
theorem Chained.standing_inner (hsize : 16 ≤ trampoline.frameSize) (hsize' : 16 ≤ thunk.frameSize)
    (hdelivery : Trampoline.Delivery trampoline sig params m m₁) : thunk.Standing hooks m₁ := by
  have hsp := hdelivery.framed.inFrame.sp
  have hapart : Disjoint (codeSpan (m.r 3).toNat thunk.insns)
      (m.ownSpan (trampoline.frameSize + thunk.frameSize)) :=
    h.codeApart.mono_left Set.subset_union_right
  have hspan : thunk.span m₁ = codeSpan (m.r 3).toNat thunk.insns := by
    rw [Stub.span, hdelivery.pc]
  have hsame : Set.EqOn m₁.memory.byte m.memory.byte (codeSpan (m.r 3).toNat thunk.insns) :=
    hdelivery.unchanged.mono
      (hapart.mono_right (ownSpan_mono m (Nat.le_add_right _ _))).subset_compl_right
  obtain ⟨-, hstart, hstop⟩ := h.room
  refine ⟨?_, ?_, ?_, ⟨hsize', by omega, by omega⟩, ?_⟩
  · rw [hdelivery.pc]
    refine Eq.trans (Memory.load_eq_of_eqOn (hsame.mono ?_)) h.inner.code
    rw [Stub.code, length_codeOf]
    exact Set.Subset.refl _
  · rw [hspan]
    exact h.inner.codeIn
  · rw [hspan]
    exact h.inner.native
  · rw [hspan]
    exact hapart.mono_right (ownSpan_below h.room hsize hsp)

/-- The thunk gives control back to the trampoline with the trampoline's frame as it was. -/
theorem Chained.returned {a : Thunk.Activation} {v : Tagged} {calls : List NativeCall}
    {last : NativeCall} {m₂ : Machine} (hsize : 20 ≤ trampoline.frameSize)
    (hframe : thunk.frameSize = a.layout.frameSize)
    (hdelivery : Trampoline.Delivery trampoline sig params m a.entry)
    (hanswered : Thunk.Answered a v calls last m₂) :
    Trampoline.Returned trampoline m a.entry m₂ := by
  have hsp := hdelivery.framed.inFrame.sp
  have hunchanged := hanswered.unchanged
  rw [← hframe] at hunchanged
  refine ⟨hanswered.finished.pc, hanswered.finished.stackPointer, hanswered.finished.framePointer,
    hunchanged.mono ?_, hunchanged.mono ?_⟩
  · exact (h.codeApart.mono Set.subset_union_left
      (ownSpan_below h.room (by omega) hsp)).subset_compl_right
  · exact (disjoint_frameWords_below h.room hsize hsp).subset_compl_right

/-- From the return of the thunk on, the trampoline stores the answer and returns to its caller. -/
theorem Chained.comes_back {a : Thunk.Activation} {layout : TrampolineLayout} {cursor : Cursor}
    {v : Tagged} {calls : List NativeCall} {last : NativeCall} {m₂ : Machine}
    (hlaid : Trampoline.Laid sig false layout cursor)
    (hstub : Stub.ofStatements (Trampoline.statements layout) layout.frameSize = .ok trampoline)
    (hret : layout.ret = ret) (hret' : a.layout.ret = ret)
    (hframe : thunk.frameSize = a.layout.frameSize)
    (hdelivery : Trampoline.Delivery trampoline sig params m a.entry)
    (hreached : Reached hooks m.pc.toNat (Trampoline.statements layout)
      (Trampoline.returnCode layout ++ [.blr]) (a.entry.goto a.entry.lr))
    (hanswered : Thunk.Answered a v calls last m₂) (log : Log) :
    ∃ n m₃, Trace hooks n [] log m₂ log m₃ ∧ n ≤ 17 ∧ CameBack trampoline thunk ret v m m₃ := by
  subst hret
  have hstack := Trampoline.frameSize_ge hlaid hstub
  have hsize : 20 ≤ trampoline.frameSize := by omega
  have hsize' : 16 ≤ trampoline.frameSize := by omega
  have hroom := h.room_outer hsize'
  have hbelow := ownSpan_below h.room hsize' hdelivery.framed.inFrame.sp
  have hreturned := h.returned hsize hframe hdelivery hanswered
  obtain ⟨-, rfl⟩ := ofStatements_eq_ok_iff.mp hstub
  have hframed : Trampoline.Framed layout.frameSize m m₂ :=
    hdelivery.framed.congr hroom hreturned.stackPointer hreturned.framePointer hreturned.frame
  have hlarger := ownSpan_mono m (Nat.le_add_right layout.frameSize thunk.frameSize)
  obtain ⟨m₃, hperforms, hresult⟩ := Trampoline.performs_returnCode hroom hframed h.slotIn
    (h.slotCode.mono_left Set.subset_union_left) (h.slotApart.mono_right hlarger)
  obtain ⟨htrace, hleave⟩ :=
    (hreached.congr hreturned.pc hreturned.code).performs log hperforms
  have hlength := Trampoline.length_returnCode_le layout
  have hinsns := length_unchecked_le (Trampoline.returnCode layout)
  refine ⟨_, _, htrace.trans hleave.leave, by omega, hresult.pc, hresult.stackPointer,
    hresult.framePointer, ?_, ?_⟩
  · have hloaded := hanswered.finished.result
    rw [memory_leave, hret'] at hloaded
    rw [hresult.result, resultBytes_of_loaded hanswered.answer hloaded]
  · have hthunk := hanswered.unchanged
    rw [← hframe] at hthunk
    rw [Set.compl_union]
    refine (hresult.memory.mono Set.inter_subset_right).trans
      ((hthunk.mono ?_).trans (hdelivery.unchanged.mono ?_))
    · exact Set.inter_subset_left.trans (Set.compl_subset_compl.mpr hbelow)
    · exact Set.inter_subset_left.trans (Set.compl_subset_compl.mpr hlarger)

end

/-- The interpreter sees what the trampoline was given. -/
theorem Thunk.Answered.received {a : Thunk.Activation} {cursor : Cursor} {v : Tagged}
    {calls : List NativeCall} {last : NativeCall} {m m₂ : Machine} {trampoline : Stub}
    (hanswered : Thunk.Answered a v calls last m₂)
    (hlaid : Thunk.Laid a.method.signature a.layout cursor)
    (hroom : a.entry.Room a.layout.frameSize) (hdescribed : Thunk.Described a.method.signature)
    (hdelivery :
      Trampoline.Delivery trampoline a.method.signature a.layout.params m a.entry) :
    Received a.method.signature m last.entered := by
  have hinterpreting := hanswered.interpreting
  have hrecorded := hanswered.recorded
  refine ⟨?_, fun i p hp => ?_⟩
  · rw [hinterpreting.field_eq hrecorded, Thunk.Activation.fieldValue]
    split
    · rename_i hreceiver
      exact hdelivery.receiver hreceiver
    · rfl
  · obtain ⟨hi, hp⟩ := List.getElem?_eq_some_iff.mp hp
    have hi' : i < a.layout.params.length := hlaid.places.2.1 ▸ hi
    have harg : a.args[i]? = some (p, a.layout.params[i]) := by
      rw [Thunk.Activation.args, List.getElem?_zip_eq_some]
      exact ⟨List.getElem?_eq_some_iff.mpr ⟨hi, hp⟩, List.getElem?_eq_getElem hi'⟩
    obtain ⟨c, c', -, hput, -⟩ := hlaid.places.1.exists_puts _ (List.getElem_mem hi')
    have hslot : (last.entered.field .stackArgs).toNat + i * taggedSize =
        a.frame + ThunkLayout.argSlot i := by
      rw [hinterpreting.toNat_stackArgs hlaid hroom hrecorded]
      simp only [ThunkLayout.argSlot]
      omega
    rw [hslot, hanswered.tagged i _ harg, incoming_of_delivered hput (hdelivery.args i hi'),
      (hlaid.described hdescribed harg).2, NativeType.toTagged_native]

/-! ## A machine for both -/

/-- Where the thunk lies in such a machine, behind the trampoline. -/
def thunkStart : Nat := memoryStart + 0x10000

/-- A machine that is about to run a trampoline with a thunk as its callee, and with this value as
the argument with index `i`. -/
def chainMachine (trampoline thunk : Stub) (i : Nat) (arg : Tagged) : Machine :=
  (((Trampoline.callMachine trampoline).setR 3 (BitVec.ofNat 32 thunkStart)).put thunkStart
    thunk.code).put (dataStart + i * taggedSize) arg.bytes

section

variable (trampoline thunk : Stub) (i : Nat) (arg : Tagged)

theorem toNat_pc_chainMachine : (chainMachine trampoline thunk i arg).pc.toNat = memoryStart := by
  simp [chainMachine, Trampoline.callMachine, Stub.toNat_pc_machine]

theorem toNat_callee_chainMachine :
    ((chainMachine trampoline thunk i arg).r 3).toNat = thunkStart := by
  simp only [chainMachine, r_put, r_setR]
  exact Nat.mod_eq_of_lt (by decide)

theorem toNat_slot_chainMachine :
    ((chainMachine trampoline thunk i arg).r 4).toNat = dataStart + 0x100 := by
  simp only [chainMachine, Trampoline.callMachine, r_put, r_setR]
  exact Nat.mod_eq_of_lt (by decide)

theorem toNat_array_chainMachine :
    ((chainMachine trampoline thunk i arg).r 6).toNat = dataStart := by
  simp only [chainMachine, Trampoline.callMachine, r_put, r_setR]
  exact Nat.mod_eq_of_lt (by decide)

theorem sp_chainMachine : (chainMachine trampoline thunk i arg).sp = stackTop := by
  rw [← Trampoline.sp_callMachine trampoline]
  simp [Machine.sp, chainMachine, stackPointer]

theorem load_arg_chainMachine : (chainMachine trampoline thunk i arg).memory.load
    (((chainMachine trampoline thunk i arg).r 6).toNat + i * taggedSize) taggedSize =
      arg.bytes := by
  rw [toNat_array_chainMachine, chainMachine, memory_put, ← Tagged.length_bytes arg]
  exact Memory.load_store _ _ _

theorem memory_chainMachine : (chainMachine trampoline thunk i arg).memory =
    ((Memory.empty.store memoryStart trampoline.code).store thunkStart thunk.code).store
      (dataStart + i * taggedSize) arg.bytes := by
  simp [chainMachine, Trampoline.callMachine, Stub.machine]

/-- The frames are far above the data. -/
theorem ownSpan_chainMachine {S : Nat} (hS : S ≤ 0x10000) :
    (chainMachine trampoline thunk i arg).ownSpan S ⊆ Set.Ico (dataStart + 0x110) memoryEnd := by
  have hstack : dataStart + 0x110 + 0x10000 ≤ stackTop := by decide
  refine (ownSpan_subset_stackSpan _ _).trans ?_
  rw [stackSpan, sp_chainMachine]
  exact Set.Ico_subset_Ico (Nat.le_sub_of_add_le ((Nat.add_le_add_left hS _).trans hstack))
    (by decide)

/-- A range at the start of the data is apart from code and stack. -/
theorem dataRange_apart {a n : Nat} (hstart : dataStart ≤ a) (hstop : a + n ≤ dataStart + 0x110) :
    Set.Ico a (a + n) ⊆ addresses ∧
      Disjoint (Set.Ico a (a + n)) (Set.Ico (dataStart + 0x110) memoryEnd) ∧
      Disjoint (Set.Ico memoryStart dataStart) (Set.Ico a (a + n)) :=
  ⟨Set.Ico_subset_Ico (Nat.le_trans (by decide) hstart) (hstop.trans (by decide)),
    disjoint_ranges (.inl hstop), disjoint_ranges (.inl hstart)⟩

variable {trampoline thunk i} {σ : Type} {hooks : Hooks σ}
  (houter : 4 * trampoline.insns.length ≤ 0x10000) (hinner : 4 * thunk.insns.length ≤ 0x40000)
  (hnative : ∀ x : Word, x.toNat < dataStart → hooks x = none)

include houter in
theorem codeSpan_outer_subset :
    codeSpan memoryStart trampoline.insns ⊆ Set.Ico memoryStart dataStart :=
  Set.Ico_subset_Ico_right ((Nat.add_le_add_left houter _).trans (by decide))

include hinner in
theorem codeSpan_inner_subset :
    codeSpan thunkStart thunk.insns ⊆ Set.Ico memoryStart dataStart :=
  Set.Ico_subset_Ico (by decide) ((Nat.add_le_add_left hinner _).trans (by decide))

include hnative

include houter in
theorem liesAt_outer : trampoline.LiesAt hooks (chainMachine trampoline thunk i arg)
    memoryStart := by
  have hspan := codeSpan_outer_subset houter
  have hend : memoryStart + trampoline.code.length ≤ thunkStart := by
    rw [Stub.code, length_codeOf]
    exact Nat.add_le_add_left houter _
  have hdata : thunkStart ≤ dataStart + i * taggedSize :=
    Nat.le_trans (by decide) (Nat.le_add_right _ _)
  refine ⟨?_, hspan.trans (Set.Ico_subset_Ico_right (by decide)),
    fun x hx => hnative x (hspan hx).2⟩
  rw [memory_chainMachine, Memory.load_store_of_disjoint _ (.inl (hend.trans hdata)),
    Memory.load_store_of_disjoint _ (.inl hend)]
  exact Memory.load_store _ _ _

include hinner in
theorem liesAt_inner : thunk.LiesAt hooks (chainMachine trampoline thunk i arg) thunkStart := by
  have hspan := codeSpan_inner_subset hinner
  have hend : thunkStart + thunk.code.length ≤ dataStart + i * taggedSize := by
    rw [Stub.code, length_codeOf]
    exact ((Nat.add_le_add_left hinner _).trans (by decide)).trans (Nat.le_add_right dataStart _)
  refine ⟨?_, hspan.trans (Set.Ico_subset_Ico_right (by decide)),
    fun x hx => hnative x (hspan hx).2⟩
  rw [memory_chainMachine, Memory.load_store_of_disjoint _ (.inl hend)]
  exact Memory.load_store _ _ _

include houter hinner in
theorem chained_chainMachine {count : Nat} {ret : ReturnClass} (hframe : 16 ≤ trampoline.frameSize)
    (hframes : trampoline.frameSize + thunk.frameSize ≤ 0x10000) (hcount : count ≤ 16) :
    Chained trampoline thunk hooks count ret (chainMachine trampoline thunk i arg) := by
  have hwidth : ret.width ≤ 0x10 := by cases ret <;> decide
  have hpc := toNat_pc_chainMachine trampoline thunk i arg
  have hcallee := toNat_callee_chainMachine trampoline thunk i arg
  have hslot := toNat_slot_chainMachine trampoline thunk i arg
  have harray := toNat_array_chainMachine trampoline thunk i arg
  have hsp := sp_chainMachine trampoline thunk i arg
  have hown := ownSpan_chainMachine trampoline thunk i arg hframes
  have hcodes := Set.union_subset (codeSpan_outer_subset houter) (codeSpan_inner_subset hinner)
  obtain ⟨harrayIn, harrayApart, -⟩ := dataRange_apart (a := dataStart) (n := count * taggedSize)
    (Nat.le_refl _) (Nat.add_le_add_left ((Nat.mul_le_mul_right _ hcount).trans (by decide)) _)
  obtain ⟨hslotIn, hslotApart, hslotCode⟩ := dataRange_apart (a := dataStart + 0x100)
    (n := ret.width) (Nat.le_add_right _ _) (Nat.add_le_add_left hwidth _)
  rw [← harray] at harrayIn harrayApart
  rw [← hslot] at hslotIn hslotApart hslotCode
  refine ⟨?_, ?_, ⟨Nat.le_add_right_of_le hframe, ?_, ?_⟩, ?_, harrayIn,
    harrayApart.mono_right hown, hslotIn, hslotApart.mono_right hown, ?_⟩
  · rw [hpc]
    exact liesAt_outer arg houter hnative
  · rw [hcallee]
    exact liesAt_inner arg hinner hnative
  · rw [hsp]
    exact (Nat.add_le_add_left hframes _).trans (by decide)
  · rw [hsp]
    decide
  · rw [hpc, hcallee]
    exact (disjoint_ranges (.inl (by decide))).mono hcodes hown
  · rw [hpc, hcallee]
    exact hslotCode.mono_left hcodes

end

/-! ## There and back -/

/-- Every signature that has a thunk has a trampoline as well, and when the trampoline calls the
thunk the call comes back. The conversion function is called once for every parameter and then the
interpreter once; it is given the receiver and what the signature's types make of the arguments, and
the return slot takes what the signature's result makes of its answer. -/
theorem round_trip {handle : Word} {sig : Signature} {entryPoints : EntryPoints} {thunk : Stub}
    {hooks : Hooks Log} {interpret : Hook Log} {v : Tagged}
    (hbuild : Thunk.build ⟨handle, sig⟩ entryPoints = .ok thunk)
    (hdescribed : Thunk.Described sig)
    (hconvert : hooks entryPoints.convert = some ThunkCall.convert)
    (hconvertExit : entryPoints.convert ≠ exitAddress)
    (hinterpret : hooks entryPoints.interpret = some interpret)
    (hinterpretExit : entryPoints.interpret ≠ exitAddress)
    (hanswers : Answers sig.params.length v interpret) :
    ∃ trampoline ret, Trampoline.build sig false = .ok trampoline ∧
      ReturnClass.ofKind false sig.ret = .ok ret ∧
      ∀ log m, Chained trampoline thunk hooks sig.params.length ret m →
        ∃ n calls last log' m', Trace hooks n (calls ++ [last]) log m log' m' ∧ n < stepLimit ∧
          calls.length = sig.params.length ∧
          (∀ call ∈ calls, call.entered.pc = entryPoints.convert) ∧
          last.entered.pc = entryPoints.interpret ∧ Received sig m last.entered ∧
          CameBack trampoline thunk ret v m m' ∧
          (m.lr = exitAddress → m.run hooks stepLimit log = .ok (log', m')) := by
  obtain ⟨layout, hlayout, hstub⟩ := bind_eq_ok_iff.mp hbuild
  obtain ⟨cursor, hlaid⟩ := Thunk.laid_of_ofSignature (mapError_eq_ok_iff.mp hlayout)
  obtain ⟨layout', hlayout', hparams, hret⟩ := Trampoline.exists_layout_of_thunk hlaid
  obtain ⟨cursor', hlaid'⟩ := Trampoline.laid_of_ofSignature hlayout'
  obtain ⟨-, rfl⟩ : layout'.params = layout.params ∧ cursor' = cursor :=
    Prod.mk.inj (Except.ok.inj (hlaid'.placement.symm.trans hlaid.placement))
  have hstub' := ofStatements_of_valid hlaid'.valid layout'.frameSize
  refine ⟨_, layout.ret, Trampoline.build_of_ofSignature hlayout', hlaid.ret,
    fun log m hchained => ?_⟩
  have hsize := Trampoline.frameSize_ge hlaid' hstub'
  have hsize' := Thunk.frameSize_ge (a := ⟨⟨handle, sig⟩, entryPoints, layout, m⟩) hlaid hstub
  obtain ⟨n₁, m₁, htrace₁, hn₁, hdelivery, hreached⟩ := Trampoline.runs_to_callee hlaid' hstub'
    (hchained.standing_outer (by omega)) hchained.arrayIn
    (hchained.arrayApart.mono_right (ownSpan_mono m (Nat.le_add_right _ _))) log
  have hstanding := hchained.standing_inner (by omega) hsize' hdelivery
  -- The thunk's caller is the trampoline: its stack words lie in the trampoline's frame.
  have hcaller : Set.Ico m₁.sp (m₁.sp + 8 + cursor'.stack) ⊆ addresses := by
    have hsp := hdelivery.framed.inFrame.sp
    obtain ⟨-, hstart, hstop⟩ := hchained.room
    exact Set.Ico_subset_Ico (by omega) (by omega)
  obtain ⟨n₂, calls, last, log', m₂, htrace₂, hn₂, hanswered⟩ :=
    Thunk.returns_answer (a := ⟨⟨handle, sig⟩, entryPoints, layout, m₁⟩) hlaid hstub hstanding
      hdescribed hcaller hconvert hconvertExit hinterpret hinterpretExit hanswers log
  obtain ⟨-, rfl⟩ := ofStatements_eq_ok_iff.mp hstub
  obtain ⟨n₃, m₃, htrace₃, hn₃, hback⟩ :=
    hchained.comes_back hlaid' hstub' hret rfl rfl hdelivery hreached hanswered log'
  have hwhole := (htrace₁.trans htrace₂).trans htrace₃
  simp only [List.nil_append, List.append_nil] at hwhole
  have hlimit : n₁ + n₂ + n₃ < stepLimit := by
    have hcount := hlaid.length_params_le (a := ⟨⟨handle, sig⟩, entryPoints, layout, m₁⟩)
    have hlength := Trampoline.length_callCode_le layout'
    rw [hparams] at hlength
    dsimp only at hcount hn₂
    rw [stepLimit]
    omega
  rw [hparams] at hdelivery
  exact ⟨_, calls, last, log', m₃, hwhole, hlimit, hanswered.count, hanswered.conversions,
    hanswered.interpreting.pc, hanswered.received hlaid hstanding.room hdescribed hdelivery, hback,
    fun hexit => hwhole.run_of_exit (hback.pc.trans hexit) hlimit⟩

/-- The conversion function and an interpreter that answers, where scenarios put them. -/
def answeringHooks (count : Nat) (v : Tagged) : Hooks Log :=
  Hooks.ofList [(calleeAddress, ThunkCall.convert),
    (interpreterAddress, ThunkCall.interpret count (.value v))]

theorem answeringHooks_low (count : Nat) (v : Tagged) (x : Word) (hx : x.toNat < dataStart) :
    answeringHooks count v x = none := by
  have hconvert : x ≠ calleeAddress := by
    rintro rfl
    exact absurd hx (by decide)
  have hinterpret : x ≠ interpreterAddress := by
    rintro rfl
    exact absurd hx (by decide)
  simp only [answeringHooks, Hooks.ofList, List.lookup_cons, beq_false_of_ne hconvert,
    beq_false_of_ne hinterpret, List.lookup_nil]

/-- A negative byte goes by way of the stack, and the interpreter answers with a wide integer. -/
theorem round_trip_mixed : ∃ trampoline thunk n calls log m, ∃ last : NativeCall,
    Trampoline.build (ThunkCall.describe Trampoline.mixedSignature) false = .ok trampoline ∧
      Thunk.build ⟨0x00c0ffee, ThunkCall.describe Trampoline.mixedSignature⟩
        ThunkCall.entryPoints = .ok thunk ∧
      Trace (answeringHooks 6 (.ofInt64 0x0102030405060708)) n (calls ++ [last]) #[]
        (chainMachine trampoline thunk 4 (.ofInt32 0x12345680)) log m ∧
      last.entered.memory.load ((last.entered.field .stackArgs).toNat + 4 * taggedSize)
        taggedSize = (Tagged.ofInt32 0xffffff80).bytes ∧
      m.memory.load (dataStart + 0x100) 8 = [1, 2, 3, 4, 5, 6, 7, 8] := by
  obtain ⟨thunk, hbuild⟩ := exists_of_isOk (show (Thunk.build
    ⟨0x00c0ffee, ThunkCall.describe Trampoline.mixedSignature⟩ ThunkCall.entryPoints).isOk = true
    by decide +kernel)
  have hdescribed : Thunk.Described (ThunkCall.describe Trampoline.mixedSignature) := by
    unfold Thunk.Described
    decide
  have hconvert : answeringHooks 6 (.ofInt64 0x0102030405060708) ThunkCall.entryPoints.convert =
    some ThunkCall.convert := rfl
  obtain ⟨trampoline, ret, hbuild', hret, hround⟩ := round_trip hbuild hdescribed hconvert
    (by decide) rfl (by decide) (answers_interpret 6 (.ofInt64 0x0102030405060708))
  obtain rfl : ret = .wide := Except.ok.inj (hret.symm.trans rfl)
  obtain ⟨layout, hlayout, hstub⟩ := bind_eq_ok_iff.mp hbuild
  obtain ⟨cursor, hlaid⟩ := Thunk.laid_of_ofSignature (mapError_eq_ok_iff.mp hlayout)
  obtain ⟨layout', cursor', hlaid', hstub'⟩ := Trampoline.laid_of_build hbuild'
  have hsize := Trampoline.frameSize_ge hlaid' hstub'
  have hframe := Trampoline.frameSize_of_build hbuild'
  have hframe' := Thunk.frameSize_le (a := ⟨⟨_, _⟩, _, layout, .fresh⟩) hlaid hstub
  obtain ⟨n, calls, last, log, m, htrace, -, -, -, -, hreceived, hback, -⟩ := hround #[]
    (chainMachine trampoline thunk 4 (.ofInt32 0x12345680))
    (chained_chainMachine _ (Trampoline.length_insns_of_build hbuild')
      (Thunk.length_insns_le (a := ⟨⟨_, _⟩, _, layout, .fresh⟩) hlaid hstub)
      (answeringHooks_low _ _) (by omega) (by omega) (by decide))
  refine ⟨trampoline, thunk, n, calls, log, m, last, hbuild', hbuild, htrace, ?_, ?_⟩
  · have hslot := hreceived.args 4 _ rfl
    rw [hslot, load_arg_chainMachine, Tagged.ofBytes_bytes]
    decide
  · have hresult := hback.result
    rw [toNat_slot_chainMachine] at hresult
    exact hresult

end CallBridge
