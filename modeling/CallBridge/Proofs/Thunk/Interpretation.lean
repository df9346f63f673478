import CallBridge.Proofs.Thunk.Conversion

/-!
# From the entry of a thunk to the interpreter

A thunk comes to the interpreter entry after one conversion call for every argument. Then memory is
as it was before the first call, but for the slots and for what is not kept; each slot holds what
its own conversion left there, and the record what was written to it (`confined_to_interpreter`).
-/

namespace CallBridge

open Machine

namespace Thunk

variable {σ : Type} {hooks : Hooks σ} {state : σ} {kept : Set Nat} {a : Activation} {stub : Stub}
  {m m' : Machine} {cursor : Cursor}

/-! ## The code -/

/-- The code of the interpreter's call up to the jump. -/
def interpretSetup (a : Activation) : List Statement :=
  [ .addi 3 framePointer ThunkLayout.record,
    .loadWord 0 a.entryPoints.interpret,
    .mtlr 0 ]

/-- What a thunk does from the return of the interpreter on. -/
def returnCode (a : Activation) : List Statement :=
  loadResult a.layout ++ restoreCaller

def Activation.code (a : Activation) : List Statement :=
  statements a.method a.entryPoints a.layout

theorem Activation.code_eq (a : Activation) :
    a.code = entryCode a ++ (convertCode a 0 a.args ++
      (interpretSetup a ++ .blrl :: (returnCode a ++ [.blr]))) := by
  simp [code, statements, entryCode, convertCode, convertArgs, convertArg, convertSetup, args,
    interpretSetup, returnCode, frameReturn_eq, call]

theorem stub_of_build (hlayout : ThunkLayout.ofSignature a.method.signature = .ok a.layout)
    (hbuild : build a.method a.entryPoints = .ok stub) :
    Stub.ofStatements a.code a.layout.frameSize = .ok stub := by
  obtain ⟨layout, hlayout', hstub⟩ := bind_eq_ok_iff.mp hbuild
  obtain rfl : layout = a.layout :=
    Except.ok.inj ((mapError_eq_ok_iff.mp hlayout').symm.trans hlayout)
  exact hstub

theorem frameSize_ge (hlaid : Laid a.method.signature a.layout cursor)
    (hstub : Stub.ofStatements a.code a.layout.frameSize = .ok stub) : 16 ≤ stub.frameSize := by
  obtain ⟨-, rfl⟩ := ofStatements_eq_ok_iff.mp hstub
  have hsize := hlaid.sizes.2.2.2
  show 16 ≤ a.layout.frameSize
  omega

/-! ## Reach -/

/-- No address that the code makes is out of range. -/
theorem Laid.reaches (hlaid : Laid a.method.signature a.layout cursor)
    (hroom : a.entry.Room a.layout.frameSize) (i : Nat) (arg : Parameter × PlacedArg)
    (hget : a.args[i]? = some arg) :
    a.frame + a.layout.source arg.2 < 4294967296 ∧
      a.frame + ThunkLayout.argSlot i < 4294967296 := by
  obtain ⟨hplaces, hlength, hnative⟩ := hlaid.places
  obtain ⟨hretval, hgeneral, hfloat, hsize⟩ := hlaid.sizes
  have hsp := sp_eq hroom
  have hreach := hlaid.reach
  have hstop := hroom.stop
  have hend : memoryEnd = 0x10100000 := by decide
  have hparam : arg.2 ∈ a.layout.params := (List.of_mem_zip (List.mem_of_getElem? hget)).2
  constructor
  · have hfirst : a.frame + a.layout.source arg.2 ∈ a.nativeSpan arg.2 :=
      ⟨Nat.le_refl _, Nat.lt_add_of_pos_right (hnative _ hparam).width_pos⟩
    rcases nativeSpan_subset_parts hlaid hroom hparam hfirst with ⟨-, hhi⟩ | ⟨-, hhi⟩ <;> omega
  · have hi : i < a.args.length := (List.getElem?_eq_some_iff.mp hget).1
    rw [Activation.args, List.length_zip] at hi
    simp only [ThunkLayout.argSlot, ThunkLayout.args, ThunkLayout.record, paramArea, recordSize,
      taggedSize]
    omega

theorem Laid.length_args (hlaid : Laid a.method.signature a.layout cursor) :
    a.args.length = a.method.signature.params.length := by
  rw [Activation.args, List.length_zip, hlaid.places.2.1, Nat.min_self]

/-- The slots, that of the result included, lie between the record and the spilled registers. -/
theorem Laid.slots_subset (hlaid : Laid a.method.signature a.layout cursor) :
    a.slots 0 (a.args.length + 1) ⊆ Set.Ico (a.frame + 40) (a.frame + a.layout.generalSpill) := by
  obtain ⟨hretval, hgeneral, -, -⟩ := hlaid.sizes
  rw [hlaid.length_args]
  simp only [Activation.slots, ThunkLayout.argSlot, ThunkLayout.args, ThunkLayout.record, paramArea,
    recordSize, taggedSize]
  exact Set.Ico_subset_Ico (by omega) (by omega)

theorem Laid.slots_subset_frame (hlaid : Laid a.method.signature a.layout cursor)
    (hroom : a.entry.Room a.layout.frameSize) :
    a.slots 0 (a.args.length + 1) ⊆ a.frameSpan := by
  obtain ⟨-, hgeneral, hfloat, hsize⟩ := hlaid.sizes
  have hsp := sp_eq hroom
  exact hlaid.slots_subset.trans (Set.Ico_subset_Ico (by omega) (by omega))

theorem Laid.slots_subset_own (hlaid : Laid a.method.signature a.layout cursor)
    (hroom : a.entry.Room a.layout.frameSize) :
    a.slots 0 (a.args.length + 1) ⊆ a.entry.ownSpan a.layout.frameSize :=
  (hlaid.slots_subset_frame hroom).trans Set.subset_union_left

theorem Laid.record_subset_frame (hlaid : Laid a.method.signature a.layout cursor)
    (hroom : a.entry.Room a.layout.frameSize) : a.recordSpan ⊆ a.frameSpan := by
  have hparts := Set.subset_union_left.trans (frame_parts_subset hlaid hroom)
  exact hparts.trans (Set.Ico_subset_Ico (Nat.le_add_right _ _) (Nat.sub_le _ _))

/-- Displacements bound the number of parameters. -/
theorem Laid.length_params_le (hlaid : Laid a.method.signature a.layout cursor) :
    a.layout.params.length ≤ 2048 := by
  obtain ⟨hretval, hgeneral, hfloat, hsize⟩ := hlaid.sizes
  have hreach := hlaid.reach
  have hlength := hlaid.places.2.1
  omega

/-! ## The interpreter's call -/

/-- The interpreter is entered with the record of the activation. -/
structure Interpreting (a : Activation) (m : Machine) : Prop where
  pc : m.pc = a.entryPoints.interpret
  sp : m.sp = a.frame
  framePointer : m.r framePointer = m.r stackPointer
  record : (m.r 3).toNat = a.frame + 8

theorem performs_interpretSetup (hsp : m.sp = a.frame)
    (hfp : m.r framePointer = m.r stackPointer) (hreach : a.frame + 8 < 4294967296) :
    ∃ m', Performs kept (interpretSetup a) m m' ∧ m'.lr = a.entryPoints.interpret ∧
      m'.memory = m.memory ∧ Interpreting a ((m'.setLink (m'.pc + 4)).goto m'.lr) := by
  have hbase : (m.r framePointer).toNat = a.frame := (congrArg BitVec.toNat hfp).trans hsp
  refine ⟨_, (performs_addi_address (by decide) hbase).cons <|
    (performs_loadWord 0 a.entryPoints.interpret).cons <| performs_mtlr 0, ?_, ?_, ?_⟩
  · simp
  · simp
  · refine ⟨?_, ?_, ?_, ?_⟩
    · simp
    · simpa [sp, stackPointer] using hsp
    · simpa [framePointer, stackPointer] using hfp
    · simpa [ThunkLayout.record, paramArea] using hreach

/-- A thunk has come to the interpreter by these calls, from a machine that was ready for them. -/
structure Arrived (a : Activation) (convert : Hook σ) (kept : Set Nat) (ready : Machine)
    (calls : List NativeCall) (m : Machine) : Prop where
  start : Ready a ready
  interpreting : Interpreting a m
  memory : Set.EqOn m.memory.byte ready.memory.byte (kept \ a.slots 0 a.args.length)
  count : calls.length = a.args.length
  converted : ∀ i call arg, calls[i]? = some call → a.args[i]? = some arg →
    Converted a convert kept 0 ready.memory m.memory i arg call

theorem length_entryCode_le (a : Activation) :
    (entryCode a).length ≤ 17 + 2 * a.layout.params.length := by
  have hspill : (a.layout.params.flatMap (spillArg a.layout)).length ≤
      2 * a.layout.params.length := by
    induction a.layout.params with
    | nil => simp
    | cons param rest ih =>
        have hone : (spillArg a.layout param).length ≤ 2 := by
          unfold spillArg
          cases param.location <;> simp
        rw [List.flatMap_cons, List.length_append, List.length_cons]
        omega
  simp only [entryCode, frameEntry, clearRecord, fillRecord, List.length_append, List.length_cons,
    List.length_nil]
  omega

theorem length_returnCode_le (a : Activation) : (returnCode a).length ≤ 7 := by
  have hload : (loadResult a.layout).length ≤ 2 := by
    unfold loadResult
    cases a.layout.ret <;> simp
  simp only [returnCode, restoreCaller, List.length_append, List.length_cons, List.length_nil]
  omega

/-- A thunk that stands in memory comes to the interpreter, and from its return on it has the return
code to do. On its way it writes its own part of the stack only. -/
theorem confined_to_interpreter {convert : Hook σ}
    (hlaid : Laid a.method.signature a.layout cursor)
    (hstub : Stub.ofStatements a.code a.layout.frameSize = .ok stub)
    (hstanding : stub.Standing hooks a.entry)
    (hhook : hooks a.entryPoints.convert = some convert)
    (hexit : a.entryPoints.convert ≠ exitAddress) (hcontract : ConvertContract a convert kept)
    (hcode : stub.span a.entry ⊆ kept) (state : σ) :
    ∃ ready n calls state' m',
      Confined hooks (a.entry.ownSpan a.layout.frameSize) n calls state a.entry state' m' ∧
      n ≤ 14 * a.layout.params.length + 39 ∧ Arrived a convert kept ready calls m' ∧
      Reached hooks a.entry.pc.toNat a.code (returnCode a ++ [.blr]) (m'.goto m'.lr) := by
  obtain ⟨-, rfl⟩ := ofStatements_eq_ok_iff.mp hstub
  have hroom : a.entry.Room a.layout.frameSize := hstanding.room
  have hreached : Reached hooks a.entry.pc.toNat a.code (entryCode a ++ (convertCode a 0 a.args ++
      (interpretSetup a ++ .blrl :: (returnCode a ++ [.blr])))) a.entry := by
    rw [← Activation.code_eq]
    exact reached_of_standing hstub (by simp [Activation.code_eq, Statement.unchecked]) hstanding
  obtain ⟨ready, hentry, hready⟩ := performs_entryCode hlaid hroom disjoint_compl_left
  obtain ⟨hconfined, hconvert⟩ := hreached.confined state hentry
    hstanding.apart.subset_compl_right (Set.Subset.refl _)
  have hslots := (Activation.slots_mono (Nat.le_refl _) (Nat.le_succ _)).trans
    (hlaid.slots_subset_own hroom)
  obtain ⟨calls, state', m₁, hrun, hinterpret, hsp, hfp, hmemory, hcount, hconverted⟩ :=
    confined_convertCode hhook hexit hcontract hcode (hlaid.reaches hroom)
      (hstanding.apart.mono_right hslots) [] a.args rfl hconvert hready.inFrame.sp
      hready.framePointer state
  have hreach : a.frame + 8 < 4294967296 := by
    have hsp := sp_eq hroom
    have hstop := hroom.stop
    have hend : memoryEnd = 0x10100000 := by decide
    omega
  obtain ⟨m₂, hsetup, hlr, hmem, hinterpreting⟩ := performs_interpretSetup hsp hfp hreach
  obtain ⟨hconfined', hcall⟩ := hinterpret.confined state' hsetup (Set.subset_univ _)
    (Set.subset_univ _)
  have hwhole := (hconfined.trans hrun).trans (hconfined'.trans (hcall.confined_call _))
  simp only [List.nil_append, List.append_nil] at hwhole
  refine ⟨ready, _, calls, state', _, hwhole, ?_, ⟨hready, hinterpreting, ?_, hcount, ?_⟩,
    hcall.resume rfl (Set.eqOn_refl _ _)⟩
  · have hinsns := length_unchecked_le (entryCode a)
    have hlength := length_entryCode_le a
    have hsetupInsns : ((interpretSetup a).flatMap Statement.unchecked).length = 4 := rfl
    have hargs := hlaid.length_args
    have hparams := hlaid.places.2.1
    omega
  · simpa [hmem] using hmemory
  · intro i call arg hcall' harg
    simpa [hmem] using hconverted i call arg hcall' harg

theorem reaches_interpreter {convert : Hook σ}
    (hlaid : Laid a.method.signature a.layout cursor)
    (hstub : Stub.ofStatements a.code a.layout.frameSize = .ok stub)
    (hentered : stub.Entered hooks a.entry)
    (hhook : hooks a.entryPoints.convert = some convert)
    (hexit : a.entryPoints.convert ≠ exitAddress) (hcontract : ConvertContract a convert kept)
    (hcode : stub.span a.entry ⊆ kept) (state : σ) :
    ∃ ready n calls state' m', Trace hooks n calls state a.entry state' m' ∧
      n ≤ 14 * a.layout.params.length + 39 ∧ Arrived a convert kept ready calls m' ∧
      Reached hooks a.entry.pc.toNat a.code (returnCode a ++ [.blr]) (m'.goto m'.lr) := by
  obtain ⟨ready, n, calls, state', m', hconfined, hrest⟩ := confined_to_interpreter hlaid hstub
    (hentered.standing (frameSize_ge hlaid hstub)) hhook hexit hcontract hcode state
  exact ⟨ready, n, calls, state', m', hconfined.trace, hrest⟩

/-! ## What the interpreter sees -/

section

variable {convert : Hook σ} {ready : Machine} {calls : List NativeCall}

/-- A set that is kept and apart from the slots is as it was before the first call. -/
theorem Arrived.eqOn (h : Arrived a convert kept ready calls m) {A : Set Nat} (hA : A ⊆ kept)
    (hslots : Disjoint A (a.slots 0 (a.args.length + 1))) :
    Set.EqOn m.memory.byte ready.memory.byte A := by
  have hcalls := Activation.slots_mono (a := a) (Nat.le_refl 0) (Nat.le_succ a.args.length)
  exact h.memory.mono (Set.subset_sdiff.mpr ⟨hA, hslots.mono_right hcalls⟩)

theorem Arrived.recorded (h : Arrived a convert kept ready calls m)
    (hlaid : Laid a.method.signature a.layout cursor) (hrecord : a.recordSpan ⊆ kept) :
    a.Recorded m.memory := by
  have hapart : Disjoint a.recordSpan (a.slots 0 (a.args.length + 1)) :=
    (disjoint_ranges (.inl (Nat.le_refl _))).mono_right hlaid.slots_subset
  intro field
  rw [Activation.word_field_congr (h.eqOn hrecord hapart)]
  exact h.start.recorded field

/-- A conversion that may read the bytes of its argument finds them as the thunk received them. -/
theorem Arrived.sourced (h : Arrived a convert kept ready calls m)
    (hlaid : Laid a.method.signature a.layout cursor) (hroom : a.entry.Room a.layout.frameSize)
    {i : Nat} {call : NativeCall} {arg : Parameter × PlacedArg} (hcall : calls[i]? = some call)
    (harg : a.args[i]? = some arg) (hnative : a.nativeSpan arg.2 ⊆ kept) :
    a.Sourced call.entered.memory arg.2 := by
  obtain ⟨-, hgeneral, hfloat, hsize⟩ := hlaid.sizes
  have hsp := sp_eq hroom
  have hparam : arg.2 ∈ a.layout.params := (List.of_mem_zip (List.mem_of_getElem? harg)).2
  have hi : i < a.args.length := (List.getElem?_eq_some_iff.mp harg).1
  have hapart : Disjoint (a.nativeSpan arg.2) (a.slots 0 (a.args.length + 1)) := by
    refine Disjoint.mono (nativeSpan_subset_parts hlaid hroom hparam) hlaid.slots_subset ?_
    exact Set.disjoint_union_left.mpr
      ⟨disjoint_ranges (.inr (Nat.le_refl _)), disjoint_ranges (.inr (by omega))⟩
  have hearlier : a.slots 0 i ⊆ a.slots 0 (a.args.length + 1) :=
    Activation.slots_mono (Nat.le_refl _) (by omega)
  exact (h.start.sourced arg.2 hparam).congr ((h.converted i call arg hcall harg).before.mono
    (Set.subset_sdiff.mpr ⟨hnative, hapart.mono_right hearlier⟩))

end

/-! ## A machine to call with -/

/-- Words, pairs, a float and a word on the stack, after a receiver. -/
def mixedMethod : Method where
  handle := 0x00c0ffee
  signature :=
    { params := [.int32, .int64, .int64, .int64, .int8, .float32].zipIdx.map fun (p, i) =>
        { kind := .primitive p, descriptor := BitVec.ofNat 32 (0x100 + i) }
      receiver := true
      ret := .primitive .float32
      pinvoke := true }

/-- The runtime functions that the thunk of the method is built for. -/
def runtime : EntryPoints := ⟨0x20000000, 0x20001000⟩

/-- The thunk of the method is called where code starts. -/
def mixedActivation (layout : ThunkLayout) (stub : Stub) : Activation :=
  ⟨mixedMethod, runtime, layout, stub.machine⟩

/-- A conversion function that clears the slot. -/
def clearing : Hook Unit := fun _ m =>
  .ok ((), m.put (m.r 5).toNat (List.replicate taggedSize 0))

def idle : Hook Unit := fun _ m => .ok ((), m)

def runtimeHooks : Hooks Unit := fun address =>
  if address = runtime.convert then some clearing
  else if address = runtime.interpret then some idle
  else none

theorem runtimeHooks_low (x : Word) (hx : x.toNat < dataStart) : runtimeHooks x = none := by
  have hconvert : x ≠ runtime.convert := by
    rintro rfl
    exact absurd hx (by decide)
  have hinterpret : x ≠ runtime.interpret := by
    rintro rfl
    exact absurd hx (by decide)
  rw [runtimeHooks, if_neg hconvert, if_neg hinterpret]

theorem convertContract_clearing (a : Activation) (kept : Set Nat) :
    ConvertContract a clearing kept := by
  intro i arg state m _ hconverting
  refine ⟨(), _, rfl, by simp, by simp, by simp, ?_⟩
  rw [memory_put]
  refine Memory.eqOn_store ?_
  have hslot : Set.Ico (m.r 5).toNat
      ((m.r 5).toNat + (List.replicate taggedSize (0 : Byte)).length) ⊆ a.slots i (i + 1) := by
    rw [List.length_replicate, hconverting.slot]
    simp only [Activation.slots, ThunkLayout.argSlot, taggedSize]
    exact Set.Ico_subset_Ico_right (by omega)
  exact Set.disjoint_sdiff_left.mono_right hslot

theorem length_code_le (a : Activation) (hlaid : Laid a.method.signature a.layout cursor) :
    a.code.length ≤ 9 * a.layout.params.length + 29 := by
  have hentry := length_entryCode_le a
  have hreturn := length_returnCode_le a
  have hconvert (k : Nat) (args : List (Parameter × PlacedArg)) :
      (convertCode a k args).length = 7 * args.length := by
    induction args generalizing k with
    | nil => rfl
    | cons arg rest ih =>
        rw [convertCode_cons, List.length_append, List.length_cons, ih, List.length_cons]
        simp only [convertSetup, List.length_cons, List.length_nil]
        omega
  have hargs := hconvert 0 a.args
  have hcount := hlaid.length_args
  have hparams := hlaid.places.2.1
  rw [Activation.code_eq]
  simp only [List.length_append, List.length_cons, List.length_nil, interpretSetup]
  omega

theorem length_insns_le (hlaid : Laid a.method.signature a.layout cursor)
    (hstub : Stub.ofStatements a.code a.layout.frameSize = .ok stub) :
    4 * stub.insns.length ≤ 0x40000 := by
  obtain ⟨-, rfl⟩ := ofStatements_eq_ok_iff.mp hstub
  have hparams := hlaid.length_params_le
  have hlength := length_code_le a hlaid
  have hinsns := length_unchecked_le a.code
  dsimp only
  omega

theorem frameSize_le (hlaid : Laid a.method.signature a.layout cursor)
    (hstub : Stub.ofStatements a.code a.layout.frameSize = .ok stub) :
    stub.frameSize ≤ 32759 := by
  obtain ⟨-, rfl⟩ := ofStatements_eq_ok_iff.mp hstub
  have hreach := hlaid.reach
  show a.layout.frameSize ≤ 32759
  omega

theorem entered_machine (hlayout : ThunkLayout.ofSignature a.method.signature = .ok a.layout)
    (hbuild : build a.method a.entryPoints = .ok stub)
    (hnative : ∀ x : Word, x.toNat < dataStart → hooks x = none) :
    stub.Entered hooks stub.machine := by
  obtain ⟨cursor, hlaid⟩ := laid_of_ofSignature hlayout
  have hstub := stub_of_build hlayout hbuild
  exact Stub.entered_machine ((length_insns_le hlaid hstub).trans (by decide))
    ((frameSize_le hlaid hstub).trans (by decide)) hnative rfl rfl rfl

/-- The interpreter sees the invocation record. -/
theorem interpreter_sees_record {convert : Hook σ}
    (hlayout : ThunkLayout.ofSignature a.method.signature = .ok a.layout)
    (hbuild : build a.method a.entryPoints = .ok stub) (hentered : stub.Entered hooks a.entry)
    (hhook : hooks a.entryPoints.convert = some convert)
    (hexit : a.entryPoints.convert ≠ exitAddress)
    (hcontract : ConvertContract a convert (stub.span a.entry ∪ a.frameSpan)) (state : σ) :
    ∃ n calls state' m, Trace hooks n calls state a.entry state' m ∧ n < stepLimit ∧
      Interpreting a m ∧ a.Recorded m.memory ∧
      calls.length = a.method.signature.params.length ∧
      ∀ i call arg, calls[i]? = some call → a.args[i]? = some arg →
        Converting a i arg call.entered ∧
          m.memory.load (a.frame + ThunkLayout.argSlot i) taggedSize =
            call.returned.memory.load (a.frame + ThunkLayout.argSlot i) taggedSize := by
  obtain ⟨cursor, hlaid⟩ := laid_of_ofSignature hlayout
  have hstub := stub_of_build hlayout hbuild
  obtain ⟨ready, n, calls, state', m, htrace, hn, harrived, -⟩ := reaches_interpreter
    hlaid hstub hentered hhook hexit hcontract Set.subset_union_left state
  obtain ⟨-, rfl⟩ := ofStatements_eq_ok_iff.mp hstub
  have hroom : a.entry.Room a.layout.frameSize :=
    hentered.room (show 16 ≤ a.layout.frameSize by have := hlaid.sizes.2.2.2; omega)
  refine ⟨n, calls, state', m, htrace, ?_, harrived.interpreting,
    harrived.recorded hlaid ((hlaid.record_subset_frame hroom).trans Set.subset_union_right),
    harrived.count.trans hlaid.length_args, ?_⟩
  · have hparams := hlaid.length_params_le
    rw [stepLimit]
    omega
  · intro i call arg hcall harg
    have hconverted := harrived.converted i call arg hcall harg
    refine ⟨hconverted.converting, Memory.load_eq_of_eqOn (hconverted.after.mono ?_)⟩
    have hi : i < a.args.length := (List.getElem?_eq_some_iff.mp harg).1
    have hslot : Set.Ico (a.frame + ThunkLayout.argSlot i)
        (a.frame + ThunkLayout.argSlot i + taggedSize) ⊆ a.slots i (i + 1) := by
      simp only [Activation.slots, ThunkLayout.argSlot, taggedSize]
      exact Set.Ico_subset_Ico_right (by omega)
    have hlater : i + 1 ≤ a.args.length + 1 := by omega
    have hframe := (Activation.slots_mono (Nat.zero_le i) hlater).trans
      (hlaid.slots_subset_frame hroom)
    exact Set.subset_inter ((hslot.trans hframe).trans Set.subset_union_right) hslot

theorem interpreter_sees_record_mixed : ∃ layout stub n calls state' m,
    build mixedMethod runtime = .ok stub ∧
      Trace runtimeHooks n calls () stub.machine state' m ∧
      Interpreting (mixedActivation layout stub) m ∧
      (mixedActivation layout stub).Recorded m.memory := by
  obtain ⟨layout, hlayout⟩ := exists_of_isOk
    (show (ThunkLayout.ofSignature mixedMethod.signature).isOk = true by decide +kernel)
  obtain ⟨stub, hbuild⟩ := exists_of_isOk
    (show (build mixedMethod runtime).isOk = true by decide +kernel)
  obtain ⟨n, calls, state', m, htrace, -, hinterpreting, hrecorded, -⟩ :=
    interpreter_sees_record (a := mixedActivation layout stub) hlayout hbuild
      (entered_machine (a := mixedActivation layout stub) hlayout hbuild runtimeHooks_low) rfl
      (show runtime.convert ≠ exitAddress by decide) (convertContract_clearing _ _) ()
  exact ⟨layout, stub, n, calls, state', m, hbuild, htrace, hinterpreting, hrecorded⟩

end Thunk

end CallBridge
