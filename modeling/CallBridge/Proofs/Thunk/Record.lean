import CallBridge.Proofs.Thunk.Activation

/-!
# Filling the invocation record

A thunk writes its record in two parts: the receiver and the fields that the interpreter fills
before the argument registers are spilled, the handle and the two addresses after it. The fields are
apart from each other, so each holds what was stored in it last.
-/

namespace CallBridge

open Machine

namespace Thunk

variable {kept : Set Nat} {a : Activation} {m m' : Machine} {mem : Memory} {field : RecordField}
  {w : Word}

namespace Activation

def setField (a : Activation) (mem : Memory) (field : RecordField) (w : Word) : Memory :=
  mem.store (a.frame + 8 + field.offset) (bytesOf 4 w.toNat)

theorem word_setField (field' : RecordField) :
    (a.setField mem field w).word (a.frame + 8 + field'.offset) =
      if field = field' then w else mem.word (a.frame + 8 + field'.offset) := by
  by_cases hfield : field = field'
  · rw [if_pos hfield, hfield]
    exact Memory.word_store _ _ _
  · rw [if_neg hfield]
    refine Memory.word_store_of_disjoint ?_
    have hapart : field'.offset + 4 ≤ field.offset ∨ field.offset + 4 ≤ field'.offset := by
      cases field <;> cases field' <;> first | exact absurd rfl hfield | decide
    rw [length_bytesOf]
    omega

theorem fieldSpan_subset (a : Activation) (field : RecordField) :
    Set.Ico (a.frame + 8 + field.offset) (a.frame + 8 + field.offset + 4) ⊆ a.recordSpan := by
  have hoffset : field.offset ≤ 28 := by cases field <;> decide
  exact Set.Ico_subset_Ico (by omega) (by omega)

theorem eqOn_setField {A : Set Nat} (h : Disjoint A a.recordSpan) :
    Set.EqOn (a.setField mem field w).byte mem.byte A :=
  Memory.eqOn_store (by rw [length_bytesOf]; exact h.mono_right (a.fieldSpan_subset field))

/-- The fields of a record do not change as long as its bytes do not. -/
theorem word_field_congr {mem' : Memory} (h : Set.EqOn mem'.byte mem.byte a.recordSpan)
    (field : RecordField) :
    mem'.word (a.frame + 8 + field.offset) = mem.word (a.frame + 8 + field.offset) :=
  Memory.word_eq_of_eqOn (h.mono (a.fieldSpan_subset field))

end Activation

section

variable (hbase : (m.r framePointer).toNat = a.frame) (hin : a.recordSpan ⊆ addresses)
  (hkept : Disjoint kept a.recordSpan)

include hbase hin hkept

theorem performs_storeField (reg : Nat) (field : RecordField) :
    ∃ m', Performs kept [storeField reg field] m m' ∧
      m'.memory = a.setField m.memory field (m.r reg) ∧ SameRegisters [] m m' := by
  have hfield := a.fieldSpan_subset field
  obtain ⟨hstart, hstop⟩ := bounds_of_subset (by omega) (hfield.trans hin)
  refine ⟨_, performs_stw reg (a := a.frame + 8 + field.offset) ⟨by decide, ?_, hstart, hstop⟩
    (hkept.mono_right hfield), by simp [Activation.setField], by simp, by simp, by simp⟩
  rw [hbase]
  simp [ThunkLayout.record, paramArea]
  omega

/-- A register is stored in some of the fields. -/
theorem performs_storeFields (reg : Nat) (fields : List RecordField) :
    ∃ m', Performs kept (fields.map (storeField reg)) m m' ∧
      (∀ field, m'.memory.word (a.frame + 8 + field.offset) =
        if field ∈ fields then m.r reg else m.memory.word (a.frame + 8 + field.offset)) ∧
      Set.EqOn m'.memory.byte m.memory.byte a.recordSpanᶜ ∧ SameRegisters [] m m' := by
  induction fields generalizing m with
  | nil => exact ⟨m, .nil m, by simp, Set.eqOn_refl _ _, .refl m⟩
  | cons first rest ih =>
      obtain ⟨m₁, hstore, hmem, hsame⟩ := performs_storeField hbase hin hkept reg first
      obtain ⟨m₂, hrest, hwords, hfree, hsame'⟩ := ih (by rwa [hsame.r_eq])
      refine ⟨m₂, hstore.cons hrest, fun field => ?_, hfree.trans ?_, hsame.trans hsame'⟩
      · rw [hwords, hmem, hsame.r_eq, Activation.word_setField]
        grind
      · rw [hmem]
        exact Activation.eqOn_setField disjoint_compl_left

/-- A value that code puts into r0 is stored in a field. -/
theorem performs_storeValue {code : List Statement} {pc w : Word} (field : RecordField)
    (hvalue : Performs kept code m ((m.goto pc).setR 0 w)) :
    ∃ m', Performs kept (code ++ [storeField 0 field]) m m' ∧
      m'.memory = a.setField m.memory field w ∧ SameRegisters [0] m m' := by
  have hsame : SameRegisters [0] m ((m.goto pc).setR 0 w) := .setR m pc 0 w
  obtain ⟨m', hstore, hmem, hsame'⟩ := performs_storeField
    (by rwa [hsame.general _ (by decide)]) hin hkept 0 field
  refine ⟨m', hvalue.append hstore, ?_, hsame.trans (hsame'.mono (List.nil_subset _))⟩
  rw [hmem, r_setR, if_pos rfl, memory_setR, memory_goto]

/-- The receiver is in its field and the fields that the interpreter fills are clear. -/
theorem performs_clearRecord (receiver : Bool) :
    ∃ m', Performs kept (clearRecord receiver) m m' ∧
      (∀ field ∈ [RecordField.parent, .child, .exception, .exceptionHandler],
        m'.memory.word (a.frame + 8 + field.offset) = 0) ∧
      m'.memory.word (a.frame + 8 + RecordField.receiver.offset) =
        (if receiver then m.r 3 else 0) ∧
      Set.EqOn m'.memory.byte m.memory.byte a.recordSpanᶜ ∧ SameRegisters [0] m m' := by
  have hli : Performs kept [.li 0 0] m ((m.goto (m.pc + 4)).setR 0 0) := performs_li 0 0
  have hsame₁ : SameRegisters [0] m ((m.goto (m.pc + 4)).setR 0 0) := .setR m _ 0 0
  obtain ⟨m₂, hclear, hwords, hfree, hsame₂⟩ := performs_storeFields
    (by rwa [hsame₁.general _ (by decide)]) hin hkept 0
    [.parent, .child, .exception, .exceptionHandler]
  have hsame := hsame₁.trans (hsame₂.mono (List.nil_subset _))
  obtain ⟨m₃, hreceiver, hmem, hsame₃⟩ := performs_storeField
    (by rwa [hsame.general _ (by decide)]) hin hkept (if receiver then 3 else 0) .receiver
  refine ⟨m₃, hli.cons (hclear.append hreceiver), ?_, ?_, ?_,
    hsame.trans (hsame₃.mono (List.nil_subset _))⟩
  · intro field hfield
    rw [hmem, Activation.word_setField, if_neg ?_, hwords, if_pos hfield, r_setR, if_pos rfl]
    rintro rfl
    simp at hfield
  · rw [hmem, Activation.word_setField, if_pos rfl]
    cases receiver with
    | false => simp [hsame₂.r_eq]
    | true => exact hsame.general 3 (by decide)
  · rw [hmem]
    exact (Activation.eqOn_setField disjoint_compl_left).trans hfree

/-- The handle and the two addresses are in their fields, and the other fields are as they were. -/
theorem performs_fillRecord (layout : ThunkLayout) (handle : Word) :
    ∃ m', Performs kept (fillRecord layout handle) m m' ∧
      m'.memory = a.setField (a.setField (a.setField m.memory .method handle) .stackArgs
        (BitVec.ofNat 32 (a.frame + ThunkLayout.args))) .retval
        (BitVec.ofNat 32 (a.frame + layout.retval)) ∧ SameRegisters [0] m m' := by
  have haddress {m : Machine} (hbase : (m.r framePointer).toNat = a.frame) (disp : Nat) :
      Performs kept [.addi 0 framePointer disp] m
        ((m.goto (m.pc + 4)).setR 0 (BitVec.ofNat 32 (a.frame + disp))) :=
    performs_addi_address (by decide) hbase
  obtain ⟨m₁, hmethod, hmem₁, hsame₁⟩ :=
    performs_storeValue hbase hin hkept .method (performs_loadWord 0 handle)
  have hbase₁ : (m₁.r framePointer).toNat = a.frame := by rwa [hsame₁.general _ (by decide)]
  obtain ⟨m₂, hargs, hmem₂, hsame₂⟩ :=
    performs_storeValue hbase₁ hin hkept .stackArgs (haddress hbase₁ ThunkLayout.args)
  have hbase₂ : (m₂.r framePointer).toNat = a.frame := by rwa [hsame₂.general _ (by decide)]
  obtain ⟨m₃, hretval, hmem₃, hsame₃⟩ :=
    performs_storeValue hbase₂ hin hkept .retval (haddress hbase₂ layout.retval)
  refine ⟨m₃, hmethod.append (hargs.append hretval), ?_, (hsame₁.trans hsame₂).trans hsame₃⟩
  rw [hmem₃, hmem₂, hmem₁]

end

end Thunk

end CallBridge
