import CallBridge.Proofs.Thunk.Record
import CallBridge.Proofs.Thunk.Spill

/-!
# What a thunk does before its first call

A thunk sets its frame up, clears the record, spills the argument registers and fills the record.
Then it is ready for its calls (`Ready`): the frame is in place, every field of the record is as it
should be, the bytes of every native argument are where its conversion is told to read them, and
nothing else of the memory has changed.
-/

namespace CallBridge

open Machine

namespace Thunk

variable {kept : Set Nat} {a : Activation} {m m' : Machine} {cursor : Cursor}

structure Ready (a : Activation) (m : Machine) : Prop where
  inFrame : InFrame a.layout.frameSize a.entry m
  framePointer : m.r framePointer = m.r stackPointer
  recorded : a.Recorded m.memory
  sourced : ∀ param ∈ a.layout.params, a.Sourced m.memory param
  unchanged : Set.EqOn m.memory.byte a.entry.memory.byte (a.entry.ownSpan a.layout.frameSize)ᶜ

def entryCode (a : Activation) : List Statement :=
  frameEntry a.layout.frameSize ++ clearRecord a.method.signature.receiver ++
    a.layout.params.flatMap (spillArg a.layout) ++ fillRecord a.layout a.method.handle

/-! ## The parts of the frame -/

section

variable (hlaid : Laid a.method.signature a.layout cursor)
  (hroom : a.entry.Room a.layout.frameSize)

include hroom in
theorem sp_eq : a.entry.sp = a.frame + a.layout.frameSize := by
  obtain ⟨hsize, hstart, hstop⟩ := hroom
  rw [Activation.frame]
  omega

include hlaid in
/-- The record and the spilled registers are apart from each other and from the three words that the
frame rests on. -/
theorem parts_bounds : 56 ≤ a.layout.generalSpill ∧
    a.layout.floatSpill = a.layout.generalSpill + 32 ∧
    a.layout.floatSpill + 68 ≤ a.layout.frameSize := by
  obtain ⟨hretval, hgeneral, hfloat, hsize⟩ := hlaid.sizes
  omega

include hlaid hroom

theorem frame_parts_subset :
    a.recordSpan ∪ a.spillSpan ⊆ Set.Ico (a.frame + 8) (a.entry.sp - 4) := by
  obtain ⟨hgeneral, hfloat, hsize⟩ := parts_bounds hlaid
  have hsp := sp_eq hroom
  rintro x (⟨hlo, hhi⟩ | ⟨hlo, hhi⟩)
  · exact ⟨hlo, by omega⟩
  · exact ⟨by omega, by omega⟩

theorem frame_parts_subset_own :
    a.recordSpan ∪ a.spillSpan ⊆ a.entry.ownSpan a.layout.frameSize := by
  refine (frame_parts_subset hlaid hroom).trans ?_
  have hsp := sp_eq hroom
  rintro x ⟨hlo, hhi⟩
  exact .inl ⟨by omega, by omega⟩

theorem frame_parts_subset_addresses : a.recordSpan ∪ a.spillSpan ⊆ addresses := by
  refine (frame_parts_subset hlaid hroom).trans ?_
  have hsp := sp_eq hroom
  obtain ⟨hsize, hstart, hstop⟩ := hroom
  exact Set.Ico_subset_Ico (by omega) (by omega)

omit hroom in
theorem disjoint_recordSpan_spillSpan : Disjoint a.recordSpan a.spillSpan := by
  obtain ⟨hgeneral, hfloat, hsize⟩ := parts_bounds hlaid
  exact disjoint_ranges (.inl (by omega))

/-- The bytes of a native argument are among the spilled registers or the caller's stack words. -/
theorem nativeSpan_subset_parts {param : PlacedArg} (hparam : param ∈ a.layout.params) :
    a.nativeSpan param ⊆ a.spillSpan ∪ a.callerSpan cursor := by
  obtain ⟨hplaces, -, hnative⟩ := hlaid.places
  obtain ⟨c₀, c₁, -, hput, hle⟩ := hplaces.exists_puts param hparam
  have hsp := sp_eq hroom
  have hstack := hle.stack
  refine (nativeSpan_subset hput (hnative param hparam)).trans (Set.union_subset_union ?_ ?_)
  · exact (Activation.spillArea_mono (.refl _) hle).trans
      (Activation.spillArea_subset (parts_bounds hlaid).2.1 hlaid.bounded)
  · exact Set.Ico_subset_Ico (by omega) (by omega)

theorem disjoint_nativeSpan_recordSpan {param : PlacedArg} (hparam : param ∈ a.layout.params) :
    Disjoint (a.nativeSpan param) a.recordSpan := by
  obtain ⟨hgeneral, hfloat, hsize⟩ := parts_bounds hlaid
  have hsp := sp_eq hroom
  refine Disjoint.mono_left (nativeSpan_subset_parts hlaid hroom hparam) ?_
  exact Set.disjoint_union_left.mpr
    ⟨disjoint_ranges (.inr (by omega)), disjoint_ranges (.inr (by omega))⟩

/-! ## The code -/

omit hroom in
/-- The fields cleared before the spills and those filled after them are all that a record has. -/
theorem recorded_of_parts {mem mem' : Memory}
    (hzero : ∀ field ∈ [RecordField.parent, .child, .exception, .exceptionHandler],
      mem.word (a.frame + 8 + field.offset) = 0)
    (hreceiver : mem.word (a.frame + 8 + RecordField.receiver.offset) =
      if a.method.signature.receiver then a.entry.r 3 else 0)
    (hkeeps : Set.EqOn mem'.byte mem.byte a.recordSpan) :
    a.Recorded (a.setField (a.setField (a.setField mem' .method a.method.handle) .stackArgs
      (BitVec.ofNat 32 (a.frame + ThunkLayout.args))) .retval
      (BitVec.ofNat 32 (a.frame + a.layout.retval))) := by
  intro field
  rw [Activation.word_setField, Activation.word_setField, Activation.word_setField,
    Activation.word_field_congr hkeeps]
  cases field with
  | method => rfl
  | stackArgs => rfl
  | retval => simp [Activation.fieldValue, hlaid.retval]
  | receiver => exact hreceiver
  | parent | child | exception | exceptionHandler => simp [Activation.fieldValue, hzero]

/-- The record is filled and the registers are spilled, and nothing but these parts of the frame and
r0 changes. -/
theorem performs_frameParts (hspilling : Spilling a m)
    (hkept : Disjoint kept (a.recordSpan ∪ a.spillSpan)) :
    ∃ m', Performs kept (clearRecord a.method.signature.receiver ++
        a.layout.params.flatMap (spillArg a.layout) ++ fillRecord a.layout a.method.handle) m m' ∧
      a.Recorded m'.memory ∧ (∀ param ∈ a.layout.params, a.Sourced m'.memory param) ∧
      Set.EqOn m'.memory.byte m.memory.byte (a.recordSpan ∪ a.spillSpan)ᶜ ∧
      SameRegisters [0] m m' := by
  obtain ⟨hrecordIn, hspillIn⟩ :=
    Set.union_subset_iff.mp (frame_parts_subset_addresses hlaid hroom)
  obtain ⟨hrecordKept, hspillKept⟩ := disjoint_sup_right.mp hkept
  have hsp := sp_eq hroom
  have hbelow : a.recordSpan ∪ a.spillSpan ⊆ Set.Iio (a.entry.sp + 8) := by
    intro x hx
    have hlt := (frame_parts_subset hlaid hroom hx).2
    exact Set.mem_Iio.mpr (by omega)
  obtain ⟨hrecordBelow, hspillBelow⟩ := Set.union_subset_iff.mp hbelow
  obtain ⟨m₁, hclear, hzero, hreceiver, hfree₁, hsame₁⟩ :=
    performs_clearRecord hspilling.base hrecordIn hrecordKept a.method.signature.receiver
  have hspilling₁ : Spilling a m₁ :=
    hspilling.congr hsame₁ (hfree₁.mono (Ici_subset_compl hrecordBelow))
  obtain ⟨hplaces, -, hnative⟩ := hlaid.places
  have hspill := (parts_bounds hlaid).2.1
  have harea := Activation.spillArea_subset (c := Cursor.start a.method.signature.receiver) hspill
    hlaid.bounded
  obtain ⟨m₂, hspills, honly, hsourced⟩ := performs_spillArgs hplaces (Cursor.start_bounded _)
    hnative hspill hsp hspilling₁ (harea.trans hspillIn) (hspillKept.mono_right harea)
    (harea.trans hspillBelow)
  have hfree₂ : Set.EqOn m₂.memory.byte m₁.memory.byte a.spillSpanᶜ :=
    honly.memory.mono (Set.compl_subset_compl.mpr harea)
  obtain ⟨m₃, hfill, hmem₃, hsame₃⟩ := performs_fillRecord
    (by rw [honly.general, hspilling₁.base]) hrecordIn hrecordKept a.layout a.method.handle
  have hfree₃ : Set.EqOn m₃.memory.byte m₂.memory.byte a.recordSpanᶜ := by
    rw [hmem₃]
    exact (Activation.eqOn_setField disjoint_compl_left).trans
      ((Activation.eqOn_setField disjoint_compl_left).trans
        (Activation.eqOn_setField disjoint_compl_left))
  refine ⟨m₃, (hclear.append hspills).append hfill, ?_, ?_, ?_,
    (hsame₁.trans (honly.same.mono (List.nil_subset _))).trans hsame₃⟩
  · rw [hspilling.general 3 (by decide) (by decide)] at hreceiver
    rw [hmem₃]
    exact recorded_of_parts hlaid hzero hreceiver
      (hfree₂.mono (disjoint_recordSpan_spillSpan hlaid).subset_compl_right)
  · intro param hparam
    exact (hsourced param hparam).congr (hfree₃.mono
      (disjoint_nativeSpan_recordSpan hlaid hroom hparam).subset_compl_right)
  · have hrecord : (a.recordSpan ∪ a.spillSpan)ᶜ ⊆ a.recordSpanᶜ :=
      Set.compl_subset_compl.mpr Set.subset_union_left
    have hspan : (a.recordSpan ∪ a.spillSpan)ᶜ ⊆ a.spillSpanᶜ :=
      Set.compl_subset_compl.mpr Set.subset_union_right
    exact (hfree₃.mono hrecord).trans ((hfree₂.mono hspan).trans (hfree₁.mono hrecord))

theorem performs_entryCode (hkept : Disjoint kept (a.entry.ownSpan a.layout.frameSize)) :
    ∃ m', Performs kept (entryCode a) a.entry m' ∧ Ready a m' := by
  obtain ⟨m₁, hentry, hin, hfp, hframed, hf, hr⟩ := performs_frameEntry hroom hkept
  have hown := frame_parts_subset_own hlaid hroom
  have hsp := sp_eq hroom
  have hspilling : Spilling a m₁ := by
    refine ⟨(congrArg BitVec.toNat hfp).trans hin.sp, fun n hlo hhi => hr n (by simp; omega), hf,
      ?_⟩
    refine hframed.mono ?_
    rintro x hx (⟨hlo, hhi⟩ | ⟨hlo, hhi⟩) <;> exact absurd hx (by simp; omega)
  obtain ⟨m₂, hparts, hrecorded, hsourced, hfree, hsame⟩ := performs_frameParts hlaid hroom
    hspilling (hkept.mono_right hown)
  -- The words that the frame rests on lie below the record and above the spilled registers.
  have hword {b : Nat} (hb : b + 4 ≤ a.frame + 8 ∨ a.entry.sp - 4 ≤ b) :
      Set.EqOn m₂.memory.byte m₁.memory.byte (Set.Ico b (b + 4)) :=
    hfree.mono ((disjoint_ranges hb).mono_right (frame_parts_subset hlaid hroom)).subset_compl_right
  refine ⟨m₂, ?_, ⟨?_, ?_, hrecorded, hsourced, ?_⟩⟩
  · simpa only [entryCode, List.append_assoc] using hentry.append hparts
  · refine hin.congr (congrArg BitVec.toNat (hsame.general _ (by decide))) (hword (.inl ?_))
      (hword (.inr (Nat.le_refl _))) (hword (.inr (by omega)))
    rw [Activation.frame]
    omega
  · rw [hsame.general _ (by decide), hsame.general _ (by decide), hfp]
  · exact (hfree.mono (Set.compl_subset_compl.mpr hown)).trans hframed

end

end Thunk

end CallBridge
