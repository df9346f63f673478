import CallBridge.Proofs.Thunk.Activation
import CallBridge.Proofs.Trampoline.Return

/-!
# Within reach

A layout is held against the reach of one displacement before any code is made from it, and that one
check is enough. Register numbers come from slots, which a cursor keeps below the last one, and
every displacement lies between the negated frame size and the far end of the arguments. So each
statement of an accepted layout is valid (`Trampoline.Laid.valid`, `Thunk.Laid.valid`), and no stub
fails for an operand.
-/

namespace CallBridge

variable {sig : Signature} {cursor c c' : Cursor} {param : PlacedArg} {fault : OperandFault}

/-! ## Setting a frame up and leaving it -/

theorem valid_frameEntry {S : Nat} (hS : S + 4 ≤ 32767) : ∀ s ∈ frameEntry S, s.Valid := by
  simp only [frameEntry, List.forall_mem_cons]
  refine ⟨?_, ?_, ?_, ?_, ?_, List.forall_mem_nil _⟩
  · exact ⟨by decide, by decide, by omega, by omega⟩
  · exact (by decide : 0 < 32)
  · exact ⟨by decide, by decide, by simp only [savedFramePointer]; omega,
      by simp only [savedFramePointer]; omega⟩
  · exact ⟨by decide, by decide, by omega, by omega⟩
  · exact ⟨by decide, by decide⟩

theorem valid_frameReturn : ∀ s ∈ frameReturn, s.Valid := by
  simp [frameReturn, Statement.Valid, Statement.InRange, stackPointer, framePointer,
    savedFramePointer]

/-- Building from valid statements does not fail. -/
theorem ofStatements_of_valid {code : List Statement} (hvalid : ∀ s ∈ code, s.Valid)
    (frameSize : Nat) :
    Stub.ofStatements code frameSize = .ok ⟨code.flatMap Statement.unchecked, frameSize⟩ :=
  ofStatements_eq_ok_iff.mpr ⟨hvalid, rfl⟩

/-! ## Trampolines -/

namespace Trampoline

variable {stringCtor : Bool} {layout : TrampolineLayout}

theorem valid_loadArg {location : Location} (hwithin : location.Within c c') (hc : c'.Bounded)
    {offset : Nat} (hoffset : offset + 4 ≤ 32767) (hstack : 8 + c'.stack ≤ 32767) :
    ∀ s ∈ loadArg offset location, s.Valid := by
  obtain ⟨hgeneral, hfloat⟩ := hc
  simp only [generalSlots, usableFloatSlots] at hgeneral hfloat
  cases location with
  | general slot =>
      have hslot := hwithin.2
      rw [loadArg, List.forall_mem_singleton]
      exact ⟨show 3 + slot < 32 by omega, by decide, by omega, by omega⟩
  | pair first =>
      have hslot := hwithin.2
      simp only [loadArg, List.forall_mem_cons]
      refine ⟨⟨show 3 + first < 32 by omega, by decide, by omega, by omega⟩, ?_,
        List.forall_mem_nil _⟩
      exact ⟨show 3 + first + 1 < 32 by omega, by decide, by omega, by omega⟩
  | float slot =>
      have hslot := hwithin.2
      rw [loadArg, List.forall_mem_singleton]
      exact ⟨show 1 + slot < 32 by omega, by decide, by omega, by omega⟩
  | stack word =>
      have hoffset' := hwithin.2
      simp only [loadArg, List.forall_mem_cons, paramArea]
      refine ⟨⟨by decide, by decide, by omega, by omega⟩, ?_, List.forall_mem_nil _⟩
      exact ⟨by decide, by decide, by omega, by omega⟩

theorem Planned.valid_loadArgs (hplanned : Planned sig stringCtor layout cursor)
    (hframe : layout.frameSize + 4 ≤ 32767) (harray : layout.params.length * taggedSize ≤ 32768) :
    ∀ s ∈ loadArgs layout.params, s.Valid := by
  intro s hs
  obtain ⟨⟨param, i⟩, hget, hs⟩ := List.mem_flatMap.mp hs
  have hget : layout.params[i]? = some param := List.mem_zipIdx_iff_getElem?.mp hget
  have hi : i < layout.params.length := (List.getElem?_eq_some_iff.mp hget).1
  have hplaces := hplanned.places.1
  have hstack := hplanned.stack_le
  simp only [taggedSize] at harray hs
  exact valid_loadArg (hplaces.within param (List.mem_of_getElem? hget))
    (hplaces.bounded (Cursor.start_bounded _)) (by omega) (by omega) s hs

/-- The saved return slot pointer is within reach from r31. -/
theorem valid_savedSlot {op : Transfer} {reg : Nat} (hreg : reg < 32)
    (hframe : layout.frameSize ≤ 32767) :
    (Statement.transfer op reg (layout.frameSize + savedReturnSlot) framePointer).Valid := by
  unfold savedReturnSlot
  exact ⟨hreg, by decide, by omega, by omega⟩

theorem valid_storeResult (hframe : layout.frameSize ≤ 32767) :
    ∀ s ∈ storeResult layout, s.Valid := by
  by_cases hret : layout.ret = .void
  · intro s hs
    rw [storeResult, hret] at hs
    cases hs
  · rw [storeResult_eq hret, List.forall_mem_cons]
    refine ⟨valid_savedSlot (by decide) hframe, ?_⟩
    cases layout.ret <;>
      simp [resultStores, Statement.Valid, Statement.InRange, firstFloat]

/-- The array may end where the displacements do, for nothing is loaded from its end. -/
theorem Planned.valid (hplanned : Planned sig stringCtor layout cursor)
    (hreach : layout.frameSize + 4 ≤ 32767) (harray : layout.params.length * taggedSize ≤ 32768) :
    ∀ s ∈ statements layout, s.Valid := by
  have hframe : layout.frameSize ≤ 32767 := by omega
  have hsave : ∀ s ∈ saveOperands layout, s.Valid := by
    simp only [saveOperands, List.forall_mem_cons]
    exact ⟨⟨by decide, by decide⟩, ⟨by decide, by decide⟩, valid_savedSlot (by decide) hframe,
      List.forall_mem_nil _⟩
  have hreceiver : ∀ s ∈ loadReceiver layout, s.Valid := by
    unfold loadReceiver
    split <;> simp [Statement.Valid]
  have hcall : ∀ s ∈ [Statement.mtlr 0, .blrl], s.Valid := by
    simp [Statement.Valid]
  simp only [statements, List.forall_mem_append]
  exact ⟨⟨⟨⟨⟨⟨valid_frameEntry hreach, hsave⟩, hreceiver⟩, hplanned.valid_loadArgs hreach harray⟩,
    hcall⟩, valid_storeResult hframe⟩, valid_frameReturn⟩

theorem Laid.valid (hlaid : Laid sig stringCtor layout cursor) :
    ∀ s ∈ statements layout, s.Valid :=
  hlaid.toPlanned.valid hlaid.frameReach (Nat.le_succ_of_le hlaid.arrayReach)

theorem build_ne_operand (sig : Signature) (stringCtor : Bool) :
    build sig stringCtor ≠ .error (.operand fault) := by
  intro h
  cases hlayout : TrampolineLayout.ofSignature sig stringCtor with
  | error cause =>
      rw [build, hlayout, mapError_error] at h
      cases h
  | ok layout =>
      obtain ⟨cursor, hlaid⟩ := laid_of_ofSignature hlayout
      rw [build, hlayout, mapError_ok, ok_bind, ofStatements_of_valid hlaid.valid, ok_bind] at h
      split at h <;> cases h

end Trampoline

/-! ## Thunks -/

namespace Thunk

variable {layout : ThunkLayout} {method : Method} {entryPoints : EntryPoints}

/-- A value starts inside of its word. -/
theorem source_le (layout : ThunkLayout) (hnative : param.argClass.Native) :
    layout.source param ≤ layout.home param.location + 3 := by
  obtain ⟨argClass, location⟩ := param
  cases argClass with
  | word size =>
      change layout.home location + (4 - size) ≤ layout.home location + 3
      rcases hnative with h | h | h <;> omega
  | wide | single | double => exact Nat.le_add_right _ _

theorem valid_storeField {reg : Nat} (hreg : reg < 32) (field : RecordField) :
    (storeField reg field).Valid := by
  have hoffset : field.offset ≤ 28 := by cases field <;> decide
  refine ⟨hreg, by decide, ?_, ?_⟩ <;> simp only [ThunkLayout.record, paramArea] <;> omega

theorem valid_clearRecord (receiver : Bool) : ∀ s ∈ clearRecord receiver, s.Valid := by
  have hreg : (if receiver then 3 else 0) < 32 := by cases receiver <;> decide
  simp only [clearRecord, List.forall_mem_cons]
  exact ⟨⟨by decide, by decide, by decide⟩, valid_storeField (by decide) _,
    valid_storeField (by decide) _, valid_storeField (by decide) _, valid_storeField (by decide) _,
    valid_storeField hreg _, List.forall_mem_nil _⟩

theorem valid_call (target : Word) : ∀ s ∈ call target, s.Valid := by
  simp [call, Statement.Valid]

section

-- The last stack word may end where the displacements do, for the code reaches for its start.
variable (hplanned : Planned sig layout cursor)
  (hreach : layout.frameSize + 8 + cursor.stack ≤ 32768)

include hplanned hreach

/-- Every argument lies within reach, and so does the word at the start of its home. -/
theorem Planned.home_le {location : Location} (hwithin : location.Within c cursor) :
    layout.home location + 4 ≤ 32768 := by
  obtain ⟨hretval, hgeneralSpill, hfloatSpill, hsize⟩ := hplanned.sizes
  obtain ⟨hgeneral, hfloat⟩ := hplanned.bounded
  simp only [generalSlots, usableFloatSlots] at hgeneral hfloat
  cases location <;> have hslot := hwithin.2 <;> simp only [ThunkLayout.home, paramArea] <;> omega

theorem Planned.valid_spillArg (hwithin : param.location.Within c cursor) :
    ∀ s ∈ spillArg layout param, s.Valid := by
  obtain ⟨hretval, hgeneralSpill, hfloatSpill, hsize⟩ := hplanned.sizes
  obtain ⟨hgeneral, hfloat⟩ := hplanned.bounded
  simp only [generalSlots, usableFloatSlots] at hgeneral hfloat
  obtain ⟨argClass, location⟩ := param
  cases location with
  | general slot =>
      have hslot := hwithin.2
      rw [spillArg, List.forall_mem_singleton]
      exact ⟨show 3 + slot < 32 by omega, by decide, by omega, by omega⟩
  | pair first =>
      have hslot := hwithin.2
      simp only [spillArg, List.forall_mem_cons]
      refine ⟨⟨show 3 + first < 32 by omega, by decide, by omega, by omega⟩, ?_,
        List.forall_mem_nil _⟩
      exact ⟨show 3 + (first + 1) < 32 by omega, by decide, by omega, by omega⟩
  | float slot =>
      have hslot := hwithin.2
      rw [spillArg, List.forall_mem_singleton]
      exact ⟨show 1 + slot < 32 by omega, by decide, by omega, by omega⟩
  | stack offset => exact List.forall_mem_nil _

theorem Planned.valid_spillArgs : ∀ s ∈ layout.params.flatMap (spillArg layout), s.Valid := by
  intro s hs
  obtain ⟨param, hparam, hs⟩ := List.mem_flatMap.mp hs
  exact hplanned.valid_spillArg hreach (hplanned.places.1.within param hparam) s hs

theorem Planned.valid_fillRecord (handle : Word) : ∀ s ∈ fillRecord layout handle, s.Valid := by
  obtain ⟨hretval, hgeneral, hfloat, hsize⟩ := hplanned.sizes
  simp only [fillRecord, List.forall_mem_cons]
  exact ⟨(by decide : 0 < 32), valid_storeField (by decide) _,
    ⟨by decide, by decide, by decide, by decide⟩, valid_storeField (by decide) _,
    ⟨by decide, by decide, by omega, by omega⟩, valid_storeField (by decide) _,
    List.forall_mem_nil _⟩

theorem Planned.valid_convertArg (hwithin : param.location.Within c cursor)
    (hnative : param.argClass.Native) {i : Nat} (hi : i < sig.params.length) (convert : Word)
    (pinvoke : Bool) (descriptor : Word) :
    ∀ s ∈ convertArg layout convert pinvoke i descriptor param, s.Valid := by
  obtain ⟨hretval, hgeneral, hfloat, hsize⟩ := hplanned.sizes
  have hsource := source_le layout hnative
  have hhome := hplanned.home_le hreach hwithin
  have hslot : ThunkLayout.argSlot i ≤ 32767 := by
    simp only [ThunkLayout.argSlot, ThunkLayout.args, ThunkLayout.record, paramArea, recordSize,
      taggedSize]
    omega
  have hsizes : pinvoke.toNat ≤ 1 := Bool.toNat_le pinvoke
  simp only [convertArg, List.forall_mem_append, List.forall_mem_cons]
  exact ⟨⟨(by decide : 3 < 32), ⟨by decide, by decide, by omega, by omega⟩,
    ⟨by decide, by decide, by omega, by omega⟩, ⟨by decide, by omega, by omega⟩,
    List.forall_mem_nil _⟩, valid_call convert⟩

theorem Planned.valid_convertArgs (convert : Word) :
    ∀ s ∈ convertArgs layout convert sig, s.Valid := by
  obtain ⟨hplaces, -, hnative⟩ := hplanned.places
  intro s hs
  obtain ⟨⟨⟨p, param⟩, i⟩, hget, hs⟩ := List.mem_flatMap.mp hs
  have hget : (sig.params.zip layout.params)[i]? = some (p, param) :=
    List.mem_zipIdx_iff_getElem?.mp hget
  have hi : i < (sig.params.zip layout.params).length := (List.getElem?_eq_some_iff.mp hget).1
  rw [List.length_zip] at hi
  have hparam : param ∈ layout.params := (List.of_mem_zip (List.mem_of_getElem? hget)).2
  exact hplanned.valid_convertArg hreach (hplaces.within param hparam) (hnative param hparam)
    (by omega) convert sig.pinvoke p.descriptor s hs

theorem Planned.valid_loadResult : ∀ s ∈ loadResult layout, s.Valid := by
  obtain ⟨hretval, hgeneral, hfloat, hsize⟩ := hplanned.sizes
  have hload {op : Transfer} {reg : Nat} (hreg : reg < 32) :
      (Statement.transfer op reg layout.retval framePointer).Valid :=
    ⟨hreg, by decide, by omega, by omega⟩
  unfold loadResult
  cases layout.ret with
  | void => exact List.forall_mem_nil _
  | byte | half | word | pointer | double => exact List.forall_mem_singleton.mpr (hload (by decide))
  | single =>
      refine List.forall_mem_cons.mpr ⟨hload (by decide), List.forall_mem_singleton.mpr ?_⟩
      exact ⟨by decide, by decide⟩
  | wide =>
      refine List.forall_mem_cons.mpr ⟨hload (by decide), List.forall_mem_singleton.mpr ?_⟩
      exact ⟨by decide, by decide, by omega, by omega⟩

end

theorem Planned.valid (hplanned : Planned method.signature layout cursor)
    (hreach : layout.frameSize + 8 + cursor.stack ≤ 32768) (entryPoints : EntryPoints) :
    ∀ s ∈ statements method entryPoints layout, s.Valid := by
  have hrecord : (Statement.addi 3 framePointer ThunkLayout.record).Valid :=
    ⟨by decide, by decide, by decide, by decide⟩
  simp only [statements, List.forall_mem_append, List.forall_mem_singleton]
  exact ⟨⟨⟨⟨⟨⟨⟨⟨valid_frameEntry (by omega), valid_clearRecord _⟩,
    hplanned.valid_spillArgs hreach⟩, hplanned.valid_fillRecord hreach _⟩,
    hplanned.valid_convertArgs hreach _⟩, hrecord⟩, valid_call _⟩,
    hplanned.valid_loadResult hreach⟩, valid_frameReturn⟩

theorem Laid.valid (hlaid : Laid method.signature layout cursor) (entryPoints : EntryPoints) :
    ∀ s ∈ statements method entryPoints layout, s.Valid :=
  hlaid.toPlanned.valid (Nat.le_succ_of_le hlaid.reach) entryPoints

theorem build_ne_operand (method : Method) (entryPoints : EntryPoints) :
    build method entryPoints ≠ .error (.operand fault) := by
  intro h
  cases hlayout : ThunkLayout.ofSignature method.signature with
  | error cause =>
      rw [build, hlayout, mapError_error] at h
      cases h
  | ok layout =>
      obtain ⟨cursor, hlaid⟩ := laid_of_ofSignature hlayout
      rw [build, hlayout, mapError_ok, ok_bind,
        ofStatements_of_valid (hlaid.valid entryPoints)] at h
      cases h

end Thunk

/-! ## Every signature -/

/-- Whatever the signature, no stub fails for an operand: where a layout is accepted, all registers
and displacements of its code fit, and where none is, there is no code. -/
theorem emission_within_reach (sig : Signature) :
    (∀ stringCtor, (∀ layout, TrampolineLayout.ofSignature sig stringCtor = .ok layout →
        ∀ s ∈ Trampoline.statements layout, s.Valid) ∧
      ∀ fault, Trampoline.build sig stringCtor ≠ .error (.operand fault)) ∧
    ∀ handle entryPoints, (∀ layout, ThunkLayout.ofSignature sig = .ok layout →
        ∀ s ∈ Thunk.statements ⟨handle, sig⟩ entryPoints layout, s.Valid) ∧
      ∀ fault, Thunk.build ⟨handle, sig⟩ entryPoints ≠ .error (.operand fault) := by
  constructor
  · intro stringCtor
    refine ⟨fun layout hlayout => ?_, fun fault => Trampoline.build_ne_operand sig stringCtor⟩
    obtain ⟨cursor, hlaid⟩ := Trampoline.laid_of_ofSignature hlayout
    exact hlaid.valid
  · intro handle entryPoints
    refine ⟨fun layout hlayout => ?_, fun fault => Thunk.build_ne_operand _ entryPoints⟩
    obtain ⟨cursor, hlaid⟩ := Thunk.laid_of_ofSignature hlayout
    exact Thunk.Laid.valid hlaid entryPoints

theorem emission_within_reach_mixed :
    (∃ layout, TrampolineLayout.ofSignature Trampoline.mixedSignature false = .ok layout ∧
      ∀ s ∈ Trampoline.statements layout, s.Valid) ∧
    ∃ layout, ThunkLayout.ofSignature Trampoline.mixedSignature = .ok layout ∧
      ∀ s ∈ Thunk.statements ⟨0x00c0ffee, Trampoline.mixedSignature⟩ ⟨0x20000000, 0x20001000⟩
        layout, s.Valid := by
  obtain ⟨layout, hlayout⟩ := exists_of_isOk
    (show (TrampolineLayout.ofSignature Trampoline.mixedSignature false).isOk = true by
      decide +kernel)
  obtain ⟨layout', hlayout'⟩ := exists_of_isOk
    (show (ThunkLayout.ofSignature Trampoline.mixedSignature).isOk = true by decide +kernel)
  exact ⟨⟨layout, hlayout, ((emission_within_reach _).1 false).1 layout hlayout⟩,
    layout', hlayout', ((emission_within_reach _).2 _ _).1 layout' hlayout'⟩

end CallBridge
