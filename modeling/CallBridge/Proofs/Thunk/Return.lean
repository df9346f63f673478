import CallBridge.Proofs.Thunk.Interpretation

/-!
# How a thunk returns

When the interpreter comes back, the thunk loads the result out of the slot behind the tagged
arguments and leaves its frame. With the three words that the frame rests on among the kept bytes,
the whole call runs through (`confined_from_interpreter`).
-/

namespace CallBridge

open Machine

namespace Thunk

variable {σ : Type} {hooks : Hooks σ} {state : σ} {kept : Set Nat} {a : Activation} {stub : Stub}
  {m m' : Machine} {cursor : Cursor}

/-! ## The result -/

/-- The result registers hold what a result slot gives them. -/
def ResultLoaded (mem : Memory) (slot : Nat) (m : Machine) : ReturnClass → Prop
  | .void => True
  | .byte | .half | .word | .pointer => m.r 3 = mem.word slot
  | .wide => m.r 3 = mem.word slot ∧ m.r 4 = mem.word (slot + 4)
  | .single => m.f 1 = SinglePrecision.round (mem.doubleWord slot)
  | .double => m.f 1 = mem.doubleWord slot

def Activation.resultSlot (a : Activation) : Nat :=
  a.frame + a.layout.retval

/-- The result is loaded, and no other register than the result registers changes. -/
theorem performs_loadResult (kept : Set Nat) (hbase : (m.r framePointer).toNat = a.frame)
    (hslot : Set.Ico a.resultSlot (a.resultSlot + 8) ⊆ addresses) :
    ∃ m', Performs kept (loadResult a.layout) m m' ∧
      ResultLoaded m.memory a.resultSlot m' a.layout.ret ∧ m'.memory = m.memory ∧ m'.lr = m.lr ∧
      ∀ n, n % 32 ≠ 3 → n % 32 ≠ 4 → m'.r n = m.r n := by
  obtain ⟨hstart, hstop⟩ := bounds_of_subset (by omega) hslot
  have hword : m.Addresses a.layout.retval framePointer a.resultSlot 4 :=
    ⟨by decide, by rw [hbase, Activation.resultSlot]; push_cast; rfl, hstart, by omega⟩
  have hdouble : m.Addresses a.layout.retval framePointer a.resultSlot 8 :=
    ⟨by decide, hword.eq, hstart, hstop⟩
  unfold loadResult
  cases hret : a.layout.ret with
  | void => exact ⟨m, .nil m, trivial, rfl, rfl, fun _ _ _ => rfl⟩
  | byte | half | word | pointer =>
      refine ⟨_, performs_lwz 3 hword, by simp [ResultLoaded], by simp, by simp, ?_⟩
      intro n hn _
      simp [Ne.symm hn]
  | double =>
      exact ⟨_, performs_lfd _ hdouble, by simp [ResultLoaded, firstFloat], by simp, by simp,
        by simp⟩
  | single =>
      exact ⟨_, (performs_lfd _ hdouble).cons (performs_frsp _ _),
        by simp [ResultLoaded, firstFloat], by simp, by simp, by simp⟩
  | wide =>
      refine ⟨_, (performs_lwz 3 hword).cons <|
        performs_lwz 4 (a := a.resultSlot + 4) ?_, by simp [ResultLoaded], by simp,
        by simp, ?_⟩
      · refine ⟨by decide, ?_, by omega, by omega⟩
        rw [r_setR, if_neg (by decide), r_goto, hbase, Activation.resultSlot]
        push_cast
        omega
      · intro n hn hn'
        simp [Ne.symm hn, Ne.symm hn']

/-! ## The way back -/

/-- What a thunk leaves behind when the interpreter left `m`: control, r1 and r31 are with the
caller again, the result registers hold the result, and memory is as the interpreter left it. -/
structure Finished (a : Activation) (m m' : Machine) : Prop where
  pc : m'.pc = a.entry.lr
  stackPointer : m'.r stackPointer = a.entry.r stackPointer
  framePointer : m'.r framePointer = a.entry.r framePointer
  result : ResultLoaded m.memory a.resultSlot m' a.layout.ret
  memory : m'.memory = m.memory

/-- The three words that the frame rests on. -/
def Activation.restSpan (a : Activation) : Set Nat :=
  Set.Ico a.frame (a.frame + 4) ∪ Set.Ico (a.entry.sp - 4) a.entry.sp ∪
    Set.Ico (a.entry.sp + 4) (a.entry.sp + 8)

theorem performs_returnCode (hlaid : Laid a.method.signature a.layout cursor)
    (hroom : a.entry.Room a.layout.frameSize) (hin : InFrame a.layout.frameSize a.entry m)
    (hfp : m.r framePointer = m.r stackPointer) :
    ∃ m', Performs kept (returnCode a) m m' ∧ Finished a m (m'.goto m'.lr) := by
  have hslot : Set.Ico a.resultSlot (a.resultSlot + 8) ⊆ addresses := by
    obtain ⟨-, hgeneral, hfloat, hsize⟩ := hlaid.sizes
    have hsp := sp_eq hroom
    obtain ⟨hsize', hstart, hstop⟩ := hroom
    rw [Activation.resultSlot]
    exact Set.Ico_subset_Ico (by omega) (by omega)
  obtain ⟨m₁, hload, hresult, hmem, hlr, hr⟩ := performs_loadResult kept
    ((congrArg BitVec.toNat hfp).trans hin.sp) hslot
  have hbytes {A : Set Nat} : Set.EqOn m₁.memory.byte m.memory.byte A := by
    rw [hmem]
    exact Set.eqOn_refl _ _
  have hin₁ : InFrame a.layout.frameSize a.entry m₁ :=
    hin.congr (congrArg BitVec.toNat (hr _ (by decide) (by decide))) hbytes hbytes hbytes
  obtain ⟨m₂, hrestore, hmem', hlr', hsp, hfp', hf, hr'⟩ :=
    performs_restoreCaller kept hroom hin₁
  refine ⟨m₂, hload.append hrestore, hlr', ?_, ?_, ?_, hmem'.trans hmem⟩
  · rw [r_goto, hsp]
  · rw [r_goto, hfp']
  · cases hret : a.layout.ret with
    | void => trivial
    | _ =>
        simpa only [hret, ResultLoaded, r_goto, f_goto, hf, hr' 3 (by simp), hr' 4 (by simp)]
          using hresult

/-- The interpreter comes back from the call that a thunk makes, and of the kept bytes it changes
none but those of the slots. If the record is kept, it is as it should be. -/
def InterpretContract (a : Activation) (interpret : Hook σ) (kept : Set Nat) : Prop :=
  ∀ state m, Interpreting a m → (a.recordSpan ⊆ kept → a.Recorded m.memory) →
    ∃ state' m', interpret state m = .ok (state', m') ∧
      m.Preserves (kept \ a.slots 0 (a.args.length + 1)) m'

/-- A kept frame is still in place when the interpreter comes back. -/
theorem Arrived.inFrame {convert : Hook σ} {ready : Machine} {calls : List NativeCall}
    (h : Arrived a convert kept ready calls m) (hlaid : Laid a.method.signature a.layout cursor)
    (hroom : a.entry.Room a.layout.frameSize) (hrest : a.restSpan ⊆ kept)
    (hsp : m'.sp = a.frame)
    (hmem : Set.EqOn m'.memory.byte m.memory.byte (kept \ a.slots 0 (a.args.length + 1))) :
    InFrame a.layout.frameSize a.entry m' := by
  obtain ⟨-, hgeneral, hfloat, hsize⟩ := hlaid.sizes
  have hspEq := sp_eq hroom
  have hapart : Disjoint a.restSpan (a.slots 0 (a.args.length + 1)) := by
    refine Disjoint.mono_right hlaid.slots_subset ?_
    exact Set.disjoint_union_left.mpr ⟨Set.disjoint_union_left.mpr
      ⟨disjoint_ranges (.inl (by omega)), disjoint_ranges (.inr (by omega))⟩,
        disjoint_ranges (.inr (by omega))⟩
  have heq : Set.EqOn m'.memory.byte ready.memory.byte a.restSpan :=
    (hmem.mono (Set.subset_sdiff.mpr ⟨hrest, hapart⟩)).trans (h.eqOn hrest hapart)
  refine h.start.inFrame.congr (hsp.trans h.start.inFrame.sp.symm) (heq.mono ?_) (heq.mono ?_)
    (heq.mono ?_)
  · exact fun x hx => .inl (.inl hx)
  · exact fun x hx => .inl (.inr ⟨hx.1, by have := hx.2; omega⟩)
  · exact fun x hx => .inr hx

section

variable {convert interpret : Hook σ} {ready : Machine} {calls : List NativeCall}
  (hlaid : Laid a.method.signature a.layout cursor) (hroom : a.entry.Room a.layout.frameSize)
  (harrived : Arrived a convert kept ready calls m)
  (hreached : Reached hooks a.entry.pc.toNat a.code (returnCode a ++ [.blr]) (m.goto m.lr))
  (hhook : hooks a.entryPoints.interpret = some interpret)
  (hexit : a.entryPoints.interpret ≠ exitAddress)
  (hcontract : InterpretContract a interpret kept)
  (hcode : codeSpan a.entry.pc.toNat (a.code.flatMap Statement.unchecked) ⊆ kept)
  (hapart : Disjoint (codeSpan a.entry.pc.toNat (a.code.flatMap Statement.unchecked))
    (a.slots 0 (a.args.length + 1)))
  (hrest : a.restSpan ⊆ kept)

include hlaid hroom harrived hreached hhook hexit hcontract hcode hapart hrest

/-- From the interpreter's entry on, a thunk makes this one call and comes to the return address of
its caller. It writes nothing on this way. -/
theorem confined_from_interpreter (own : Set Nat) (state : σ) :
    ∃ n m₂ state' m', Confined hooks own n [⟨m, m₂⟩] state m state' m' ∧ n ≤ 16 ∧
      interpret state m = .ok (state', m₂) ∧ Finished a m₂.leave m' := by
  have hrecord : a.recordSpan ⊆ kept → a.Recorded m.memory := harrived.recorded hlaid
  obtain ⟨state₂, m₂, hok, hpreserves⟩ := hcontract state m harrived.interpreting hrecord
  have hpc := harrived.interpreting.pc
  have hcall : Confined hooks own 1 [⟨m, m₂⟩] state m state₂ m₂.leave :=
    .native (by rwa [hpc]) (by rwa [hpc]) hok (.refl _ _)
  have hin : InFrame a.layout.frameSize a.entry m₂.leave :=
    harrived.inFrame hlaid hroom hrest ((sp_leave hpreserves).trans harrived.interpreting.sp)
      (by rw [memory_leave]; exact hpreserves.memory)
  have hreached₂ : Reached hooks a.entry.pc.toNat a.code (returnCode a ++ [.blr]) m₂.leave := by
    refine hreached.congr (by simp [hpreserves.lr]) ?_
    rw [memory_leave, memory_goto]
    exact hpreserves.memory.mono (Set.subset_sdiff.mpr ⟨hcode, hapart⟩)
  obtain ⟨m₃, hperforms, hfinished⟩ := performs_returnCode hlaid hroom hin
    (framePointer_leave hpreserves harrived.interpreting.framePointer)
  obtain ⟨hback, hleave⟩ := hreached₂.confined state₂ hperforms (Set.subset_univ _)
    (Set.subset_univ _)
  have hwhole := hcall.trans (hback.trans (hleave.confined_leave own))
  refine ⟨_, m₂, state₂, _, hwhole, ?_, hok, hfinished⟩
  have hlength := length_returnCode_le a
  have hinsns := length_unchecked_le (returnCode a)
  omega

theorem returns_from_interpreter (state : σ) :
    ∃ n m₂ state' m', Trace hooks n [⟨m, m₂⟩] state m state' m' ∧ n ≤ 16 ∧
      (∃ state₂, interpret state m = .ok (state₂, m₂)) ∧ Finished a m₂.leave m' := by
  obtain ⟨n, m₂, state', m', hconfined, hn, hok, hfinished⟩ := confined_from_interpreter hlaid hroom
    harrived hreached hhook hexit hcontract hcode hapart hrest ∅ state
  exact ⟨n, m₂, state', m', hconfined.trace, hn, ⟨state', hok⟩, hfinished⟩

end

/-! ## The whole call -/

/-- What the runtime functions leave alone: the code, the frame and the caller's stack words. -/
def Activation.granted (a : Activation) (stub : Stub) (cursor : Cursor) : Set Nat :=
  stub.span a.entry ∪ a.frameSpan ∪ a.callerSpan cursor

theorem frameSpan_subset_granted : a.frameSpan ⊆ a.granted stub cursor :=
  Set.subset_union_right.trans Set.subset_union_left

theorem restSpan_subset_granted (hroom : a.entry.Room a.layout.frameSize) :
    a.restSpan ⊆ a.granted stub cursor := by
  have hsp := sp_eq hroom
  obtain ⟨hsize, hstart, hstop⟩ := hroom
  rintro x ((⟨hlo, hhi⟩ | ⟨hlo, hhi⟩) | ⟨hlo, hhi⟩)
  · exact frameSpan_subset_granted ⟨hlo, by omega⟩
  · exact frameSpan_subset_granted ⟨by omega, hhi⟩
  · exact .inr ⟨by omega, by omega⟩

/-- The bytes of a native argument are in the frame or among the caller's stack words. -/
theorem nativeSpan_subset_stack (hlaid : Laid a.method.signature a.layout cursor)
    (hroom : a.entry.Room a.layout.frameSize) {param : PlacedArg}
    (hparam : param ∈ a.layout.params) :
    a.nativeSpan param ⊆ a.frameSpan ∪ a.callerSpan cursor := by
  have hspill : a.spillSpan ⊆ a.frameSpan :=
    (Set.subset_union_right.trans (frame_parts_subset hlaid hroom)).trans
      (Set.Ico_subset_Ico (Nat.le_add_right _ _) (Nat.sub_le _ _))
  exact (nativeSpan_subset_parts hlaid hroom hparam).trans (Set.union_subset_union_left _ hspill)

theorem nativeSpan_subset_granted (hlaid : Laid a.method.signature a.layout cursor)
    (hroom : a.entry.Room a.layout.frameSize) {param : PlacedArg}
    (hparam : param ∈ a.layout.params) : a.nativeSpan param ⊆ a.granted stub cursor :=
  (nativeSpan_subset_stack hlaid hroom hparam).trans
    (Set.union_subset_union_left _ Set.subset_union_right)

/-- A thunk calls the conversion function once for every argument, in order, and then the
interpreter once, and returns to its caller. Every conversion is told the descriptor, the slot and
the choice of sizes of its parameter, and it finds the native value as the thunk received it. -/
theorem calls_in_order {convert interpret : Hook σ}
    (hlayout : ThunkLayout.ofSignature a.method.signature = .ok a.layout)
    (hplacement : a.method.signature.placement = .ok (a.layout.params, cursor))
    (hbuild : build a.method a.entryPoints = .ok stub) (hentered : stub.Entered hooks a.entry)
    (hconvert : hooks a.entryPoints.convert = some convert)
    (hconvertExit : a.entryPoints.convert ≠ exitAddress)
    (hinterpret : hooks a.entryPoints.interpret = some interpret)
    (hinterpretExit : a.entryPoints.interpret ≠ exitAddress)
    (hconverts : ConvertContract a convert (a.granted stub cursor))
    (hinterprets : InterpretContract a interpret (a.granted stub cursor)) (state : σ) :
    ∃ n calls last state' m, Trace hooks n (calls ++ [last]) state a.entry state' m ∧
      n < stepLimit ∧ m.pc = a.entry.lr ∧
      calls.length = a.method.signature.params.length ∧
      (∀ i call arg, calls[i]? = some call → a.args[i]? = some arg →
        Converting a i arg call.entered ∧
          call.entered.memory.load (call.entered.r 4).toNat arg.2.argClass.width =
            a.incoming arg.2) ∧
      Interpreting a last.entered ∧
      (a.entry.lr = exitAddress → a.entry.run hooks stepLimit state = .ok (state', m)) := by
  obtain ⟨cursor', hlaid⟩ := laid_of_ofSignature hlayout
  obtain rfl : cursor' = cursor := by
    have hsame := hlaid.placement.symm.trans hplacement
    simp only [Except.ok.injEq, Prod.mk.injEq, true_and] at hsame
    exact hsame
  have hstub := stub_of_build hlayout hbuild
  have hcode : stub.span a.entry ⊆ a.granted stub cursor' :=
    Set.subset_union_left.trans Set.subset_union_left
  obtain ⟨ready, n, calls, state₁, m₁, htrace, hn, harrived, hreached⟩ := reaches_interpreter
    hlaid hstub hentered hconvert hconvertExit hconverts hcode state
  obtain ⟨-, rfl⟩ := ofStatements_eq_ok_iff.mp hstub
  have hsize := hlaid.sizes.2.2.2
  have hroom : a.entry.Room a.layout.frameSize :=
    hentered.room (show 16 ≤ a.layout.frameSize by omega)
  have happart := hentered.apart.mono_right ((hlaid.slots_subset_frame hroom).trans
    (Set.Ico_subset_Ico_right (Nat.le_add_right _ 8)))
  obtain ⟨n', m₂, state₂, m₃, htrace', hn', -, hfinished⟩ := returns_from_interpreter
    hlaid hroom harrived hreached hinterpret hinterpretExit hinterprets hcode happart
    (restSpan_subset_granted hroom) state₁
  have hwhole := htrace.trans htrace'
  have hparams := hlaid.length_params_le
  have hlimit : n + n' < stepLimit := by
    rw [stepLimit]
    omega
  refine ⟨n + n', calls, _, state₂, m₃, hwhole, hlimit, hfinished.pc,
    harrived.count.trans hlaid.length_args, ?_, harrived.interpreting,
    fun hexit => hwhole.run_of_exit (hfinished.pc.trans hexit) hlimit⟩
  intro i call arg hcall harg
  have hconverted := (harrived.converted i call arg hcall harg).converting
  have hparam : arg.2 ∈ a.layout.params := (List.of_mem_zip (List.mem_of_getElem? harg)).2
  refine ⟨hconverted, ?_⟩
  rw [hconverted.source]
  exact harrived.sourced hlaid hroom hcall harg (nativeSpan_subset_granted hlaid hroom hparam)

theorem calls_in_order_mixed : ∃ stub n calls last state' m,
    build mixedMethod runtime = .ok stub ∧ calls.length = 6 ∧
      Trace runtimeHooks n (calls ++ [last]) () stub.machine state' m ∧
      stub.machine.run runtimeHooks stepLimit () = .ok (state', m) := by
  obtain ⟨layout, hlayout⟩ := exists_of_isOk
    (show (ThunkLayout.ofSignature mixedMethod.signature).isOk = true by decide +kernel)
  obtain ⟨stub, hbuild⟩ := exists_of_isOk
    (show (build mixedMethod runtime).isOk = true by decide +kernel)
  obtain ⟨cursor, hlaid⟩ := laid_of_ofSignature hlayout
  obtain ⟨n, calls, last, state', m, htrace, -, -, hcount, -, -, hrun⟩ :=
    calls_in_order (a := mixedActivation layout stub) hlayout hlaid.placement hbuild
      (entered_machine (a := mixedActivation layout stub) hlayout hbuild runtimeHooks_low) rfl
      (show runtime.convert ≠ exitAddress by decide) rfl
      (show runtime.interpret ≠ exitAddress by decide) (convertContract_clearing _ _)
      (fun _ m _ _ => ⟨(), m, rfl, rfl, rfl, rfl, Set.eqOn_refl _ _⟩) ()
  exact ⟨stub, n, calls, last, state', m, hbuild, hcount, htrace, hrun rfl⟩

end Thunk

end CallBridge
